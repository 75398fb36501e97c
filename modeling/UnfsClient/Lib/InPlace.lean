import UnfsClient.Lib.XdrProc

/-!
# Decoding in place

A routine decodes into a structure that is already there and whose memory may hold anything. It
looks at a pointer in the structure before it fills the buffer behind it: null makes it allocate
the buffer, anything else is taken for one. Here a routine is run over the memory it finds. It
carries two laws: it depends on the memory only at the locations it `reads`, and on memory that is
zero it looks at null pointers only and does what the decoder does.
-/

namespace UnfsClient.Lib

variable {F σ α β : Type}

/-- What a structure holds, by the path of fields that leads there. -/
abbrev Memory (F : Type) := List F → UInt64

namespace Memory

/-- A node fresh from `xdr_reference`. -/
def zeroed : Memory F := fun _ => 0

/-- The locations `locs` set to null. -/
def clear [DecidableEq F] (locs : List (List F)) (m : Memory F) : Memory F :=
  fun l => if l ∈ locs then 0 else m l

/-- Two memories hold the same at the locations `qs` under `l`. -/
def AgreeOn (qs : List (List F)) (l : List F) (m m' : Memory F) : Prop :=
  ∀ q ∈ qs, m (l ++ q) = m' (l ++ q)

lemma AgreeOn.mono {qs qs' : List (List F)} {l : List F} {m m' : Memory F} (h : AgreeOn qs l m m')
    (hsub : qs' ⊆ qs) : AgreeOn qs' l m m' :=
  fun q hq => h q (hsub hq)

lemma AgreeOn.under {qs : List (List F)} {q l : List F} {m m' : Memory F}
    (h : AgreeOn (qs.map (q ++ ·)) l m m') : AgreeOn qs (l ++ q) m m' := by
  intro q' hq'
  rw [List.append_assoc]
  exact h _ (List.mem_map_of_mem hq')

lemma AgreeOn.left {qs qs' : List (List F)} {l : List F} {m m' : Memory F}
    (h : AgreeOn (qs ++ qs') l m m') : AgreeOn qs l m m' :=
  h.mono (List.subset_append_left _ _)

lemma AgreeOn.right {qs qs' : List (List F)} {l : List F} {m m' : Memory F}
    (h : AgreeOn (qs ++ qs') l m m') : AgreeOn qs' l m m' :=
  h.mono (List.subset_append_right _ _)

lemma clear_zeroed [DecidableEq F] {locs qs : List (List F)} (h : qs ⊆ locs) (m : Memory F) :
    AgreeOn qs [] (m.clear locs) zeroed :=
  fun _ hq => if_pos (h hq)

lemma clear_agree [DecidableEq F] {locs qs : List (List F)} (h : qs ⊆ locs) (m m' : Memory F) :
    AgreeOn qs [] (m.clear locs) (m'.clear locs) :=
  fun q hq => (clear_zeroed h m q hq).trans (clear_zeroed h m' q hq).symm

end Memory

inductive Outcome (α : Type) where
  | failed
  /-- Memory is written that was not allocated for it. -/
  | undefined
  | done (a : α) (rest : Bytes)

def Outcome.ofOption : Option (α × Bytes) → Outcome α
  | none => failed
  | some x => done x.1 x.2

/-- A run of a routine: the pointers to buffers it looked at, what was in the fields it left as they
were, and how it ended. -/
structure Walk (α : Type) where
  looked : List UInt64
  left : List UInt64
  outcome : Outcome α

namespace Walk

def ofOption (o : Option (α × Bytes)) : Walk α := ⟨[], [], .ofOption o⟩

def bind (w : Walk α) (f : α → Bytes → Walk β) : Walk β :=
  match w.outcome with
  | .failed => ⟨w.looked, w.left, .failed⟩
  | .undefined => ⟨w.looked, w.left, .undefined⟩
  | .done a r => ⟨w.looked ++ (f a r).looked, w.left ++ (f a r).left, (f a r).outcome⟩

def map (f : α → β) (w : Walk α) : Walk β := w.bind fun a r => ofOption (some (f a, r))

/-- Only null pointers were looked at. -/
def Null (w : Walk α) : Prop := ∀ p ∈ w.looked, p = 0

/-- Only null pointers were looked at, and the run ended as the decoder does. -/
def Decodes (w : Walk α) (o : Option (α × Bytes)) : Prop := w.Null ∧ w.outcome = .ofOption o

lemma bind_done {w : Walk α} {a : α} {r : Bytes} (h : w.outcome = .done a r) (f : α → Bytes → Walk β) :
    w.bind f = ⟨w.looked ++ (f a r).looked, w.left ++ (f a r).left, (f a r).outcome⟩ := by
  rw [bind, h]

lemma bind_failed {w : Walk α} (h : w.outcome = .failed) (f : α → Bytes → Walk β) :
    w.bind f = ⟨w.looked, w.left, .failed⟩ := by
  rw [bind, h]

lemma map_logs (f : α → β) (w : Walk α) : (w.map f).looked = w.looked ∧ (w.map f).left = w.left := by
  unfold map bind
  cases w.outcome with
  | failed => exact ⟨rfl, rfl⟩
  | undefined => exact ⟨rfl, rfl⟩
  | done a r => exact ⟨List.append_nil _, List.append_nil _⟩

namespace Decodes

lemma ofOption (o : Option (α × Bytes)) : (Walk.ofOption o).Decodes o := ⟨List.forall_mem_nil _, rfl⟩

lemma bind {w : Walk α} {d : Decoder α} {b : Bytes} {f : α → Bytes → Walk β} {g : α → Decoder β}
    (hw : w.Decodes (d b)) (hf : ∀ a r, (f a r).Decodes (g a r)) : (w.bind f).Decodes ((d >>= g) b) := by
  rw [Decoder.bind_apply]
  cases hd : d b with
  | none =>
    rw [hd] at hw
    rw [bind_failed hw.2]
    exact ⟨hw.1, rfl⟩
  | some x =>
    rw [hd] at hw
    rw [bind_done hw.2]
    refine ⟨?_, (hf x.1 x.2).2⟩
    intro p hp
    cases List.mem_append.mp hp with
    | inl h => exact hw.1 p h
    | inr h => exact (hf x.1 x.2).1 p h

lemma map {w : Walk α} {d : Decoder α} {b : Bytes} (hw : w.Decodes (d b)) (f : α → β) :
    (w.map f).Decodes ((d >>= fun a => pure (f a)) b) :=
  hw.bind fun _ _ => .ofOption _

lemma skip {w : Walk (α → β)} {d : Decoder (α → β)} {b : Bytes} (hw : w.Decodes (d b)) (a : α)
    (left : List UInt64) :
    (w.bind fun f r => ⟨[], left, .done (f a) r⟩).Decodes ((d >>= fun f => pure (f a)) b) := by
  apply hw.bind
  intro f r
  exact ⟨List.forall_mem_nil _, rfl⟩

end Decodes

end Walk

/-- A routine that decodes in place what `c` decodes. -/
structure InPlace (F : Type) (c : Codec σ α) where
  run : Memory F → List F → Bytes → Walk α
  reads : List (List F)
  congr : ∀ {m m' : Memory F} {l : List F}, Memory.AgreeOn reads l m m' → ∀ b, run m l b = run m' l b
  zeroed : ∀ (l : List F) (b : Bytes), (run .zeroed l b).Decodes (c.decode b)

namespace InPlace

/-- A routine that comes to no pointer. -/
def plain (c : Codec σ α) : InPlace F c where
  run _ _ b := .ofOption (c.decode b)
  reads := []
  congr _ _ := rfl
  zeroed _ b := .ofOption (c.decode b)

/-- A routine run on a member of the structure. -/
def member (q : List F) {c : Codec σ α} (i : InPlace F c) : InPlace F c where
  run m l b := i.run m (l ++ q) b
  reads := i.reads.map (q ++ ·)
  congr h b := i.congr h.under b
  zeroed l b := i.zeroed (l ++ q) b

def field {c : Codec σ (α → β)} {get : σ → α} {p : XdrProc α} (i : InPlace F c) (q : List F)
    (j : InPlace F p.toCodec) : InPlace F (c.field get p) where
  run m l b := (i.run m l b).bind fun f r => (j.run m (l ++ q) r).map f
  reads := i.reads ++ j.reads.map (q ++ ·)
  congr h b := by
    simp only [i.congr h.left, j.congr h.right.under]
  zeroed l b := (i.zeroed l b).bind fun f r => (j.zeroed (l ++ q) r).map f

/-- A field that holds no pointer. -/
def plainField {c : Codec σ (α → β)} {get : σ → α} {p : XdrProc α} (i : InPlace F c) :
    InPlace F (c.field get p) :=
  i.field [] (.plain p.toCodec)

/-- A routine that returns before the members `qs`. -/
def skip {c : Codec σ (α → β)} (i : InPlace F c) (a : α) (qs : List (List F)) :
    InPlace F (c.skip a) where
  run m l b := (i.run m l b).bind fun f r => ⟨[], qs.map fun q => m (l ++ q), .done (f a) r⟩
  reads := i.reads ++ qs
  congr {m m' l} h b := by
    have hqs : (qs.map fun q => m (l ++ q)) = qs.map fun q => m' (l ++ q) :=
      List.map_congr_left h.right
    rw [i.congr h.left, hqs]
  zeroed l b := (i.zeroed l b).skip a _

lemma skip_left {c : Codec σ (α → β)} {i : InPlace F c} {m : Memory F} {l : List F} {b : Bytes} {a : α}
    (h : (i.run m l b).Decodes (c.decode b)) (hsome : ((c.skip a).decode b).isSome = true)
    (qs : List (List F)) :
    ((i.skip a qs).run m l b).left = (i.run m l b).left ++ qs.map fun q => m (l ++ q) := by
  obtain ⟨x, hx⟩ := Option.isSome_iff_exists.mp hsome
  obtain ⟨y, hy, _⟩ := Option.bind_eq_some_iff.mp hx
  have hdone : (i.run m l b).outcome = .done y.1 y.2 := by rw [h.2, hy, Outcome.ofOption]
  change ((i.run m l b).bind _).left = _
  rw [Walk.bind_done hdone]

/-- Two runs that return leave the same in `qs` just when they found the same there. -/
lemma skip_left_iff {c : Codec σ (α → β)} {i : InPlace F c} {m m' : Memory F} {l : List F} {b : Bytes}
    {a : α} (hm : Memory.AgreeOn i.reads l m m') (h : (i.run m l b).Decodes (c.decode b))
    (hsome : ((c.skip a).decode b).isSome = true) (qs : List (List F)) :
    ((i.skip a qs).run m l b).left = ((i.skip a qs).run m' l b).left ↔ Memory.AgreeOn qs l m m' := by
  have h' : (i.run m' l b).Decodes (c.decode b) := by rwa [← i.congr hm b]
  rw [skip_left h hsome, skip_left h' hsome, i.congr hm b, List.append_cancel_left_eq, List.map_inj_left]
  rfl

/-!
## Buffers

`through` is what becomes of the message when the pointer is not null.
-/

def buffer (p : XdrProc α) (q : List F) (through : Bytes → Outcome α) : InPlace F p.toCodec where
  run m l b := ⟨[m (l ++ q)], [], if m (l ++ q) = 0 then .ofOption (p.decode b) else through b⟩
  reads := [q]
  congr h b := by rw [h q (List.mem_singleton_self q)]
  zeroed _ _ := ⟨fun _ hp => List.mem_singleton.mp hp, rfl⟩

/-- The count is read and tested; `write` goes on from there. -/
def throughCount (refuse : UInt32 → Bool) (write : UInt32 → Bytes → Outcome α) (b : Bytes) : Outcome α :=
  match Decoder.getLong b with
  | none => .failed
  | some (n, r) => if refuse n then .failed else write n r

/-- What `d` reads is written behind a pointer that was left over. -/
def overwrite (d : Decoder β) (b : Bytes) : Outcome α :=
  match d b with
  | none => .failed
  | some _ => .undefined

/-- `xdr_bytes`: a count of zero returns before the pointer is used. -/
def bytes (maxsize : UInt32) (q : List F) : InPlace F (XdrProc.bytes maxsize).toCodec :=
  buffer _ q <| throughCount (fun n => decide (maxsize < n)) fun n r =>
    if n = 0 then .done ⟨[], Nat.two_pow_pos 32⟩ r else overwrite (Decoder.getBytes n.toNat) r

/-- `xdr_string` writes the terminator before it reads the characters. -/
def string (maxsize : UInt32) (q : List F) : InPlace F (XdrProc.string maxsize).toCodec :=
  buffer _ q <| throughCount (fun n => decide (maxsize < n) || n + 1 == 0) fun _ _ => .undefined

/-- `xdr_array`. -/
def array (maxsize elsize : UInt32) (p : XdrProc α) (q : List F) :
    InPlace F (XdrProc.array maxsize elsize p).toCodec :=
  buffer _ q <| throughCount (fun n => decide (maxsize < n) || decide (0xffffffff / elsize < n)) fun n r =>
    if n = 0 then .done ⟨[], Nat.two_pow_pos 32⟩ r else overwrite p.decode r

/-!
## Linked lists

`link` is a node at a given place and what follows it. A node that `xdr_reference` allocates is
zero, and so is its pointer to the next one.
-/

section Chain

variable {p : XdrProc α} (node : InPlace F p.toCodec) (next : List F)

def link (rest : Memory F → List F → Bytes → Walk (List α)) (m : Memory F) (l : List F) (b : Bytes) :
    Walk (List α) :=
  (Walk.ofOption (XdrProc.moreData b)).bind fun more r =>
    if more then (node.run m l r).bind fun a r => (rest m (l ++ next) r).map (a :: ·)
    else .ofOption (some ([], r))

/-- `xdr_pointer` that finds a pointer: the node is decoded behind it. -/
def throughPointer (b : Bytes) : Outcome (List α) :=
  match XdrProc.moreData b with
  | none => .failed
  | some (more, r) => if more then .undefined else .done [] r

def chainFuel : Nat → Memory F → List F → Bytes → Walk (List α)
  | 0, _, _, _ => ⟨[], [], .failed⟩
  | n + 1, m, l, b =>
    if m l = 0 then
      let w := link node next (chainFuel n) .zeroed [] b
      ⟨m l :: w.looked, w.left, w.outcome⟩
    else ⟨[m l], [], throughPointer b⟩

variable {node next}

lemma link_zeroed {rest : Memory F → List F → Bytes → Walk (List α)} {d : Decoder (List α)}
    (h : ∀ l b, (rest .zeroed l b).Decodes (d b)) (l : List F) (b : Bytes) :
    (link node next rest .zeroed l b).Decodes (Decoder.link XdrProc.moreData p.decode d b) := by
  apply (Walk.Decodes.ofOption (XdrProc.moreData b)).bind
  intro more r
  cases more with
  | false => exact .ofOption _
  | true => exact (node.zeroed l r).bind fun a r => (h (l ++ next) r).map (a :: ·)

lemma chainFuel_zeroed (n : Nat) (l : List F) (b : Bytes) :
    (chainFuel node next n .zeroed l b).Decodes (Decoder.chainFuel XdrProc.moreData p.decode n b) := by
  induction n generalizing l b with
  | zero => exact ⟨List.forall_mem_nil _, rfl⟩
  | succ n ih =>
    have hrest : ∀ l b, (chainFuel node next n .zeroed l b).Decodes
        (Decoder.chainFuel XdrProc.moreData p.decode n b) := fun l b => ih l b
    have hlink : (link node next (chainFuel node next n) .zeroed [] b).Decodes
        (Decoder.link XdrProc.moreData p.decode _ b) := link_zeroed hrest [] b
    obtain ⟨hnull, hout⟩ := hlink
    refine ⟨?_, hout⟩
    intro q hq
    cases List.mem_cons.mp hq with
    | inl h => exact h
    | inr h => exact hnull q h

lemma chainFuel_congr {m m' : Memory F} {l : List F} (h : m l = m' l) (n : Nat) (b : Bytes) :
    chainFuel node next n m l b = chainFuel node next n m' l b := by
  cases n with
  | zero => rfl
  | succ n => rw [chainFuel, chainFuel, h]

end Chain

/-- `xdr_pointer` on a pointer in the structure. -/
def pointer {p : XdrProc α} (node : InPlace F p.toCodec) (next : List F) :
    InPlace F (XdrProc.pointer p).toCodec where
  run m l b := chainFuel node next (b.length + 1) m l b
  reads := [[]]
  congr {m m' l} h b := by
    have hl := h [] (List.mem_singleton_self [])
    rw [List.append_nil] at hl
    exact chainFuel_congr hl _ b
  zeroed l b := chainFuel_zeroed (b.length + 1) l b

/-- `xdr_pointer` on a pointer to the structure: the first node is decoded into it. -/
def firstNode {p : XdrProc α} (node : InPlace F p.toCodec) (next : List F) :
    InPlace F (XdrProc.pointer p).toCodec where
  run m l b := link node next (chainFuel node next b.length) m l b
  reads := node.reads ++ [next]
  congr {m m' l} h b := by
    have hnext := h.right next (List.mem_singleton_self next)
    simp only [link, node.congr h.left, chainFuel_congr hnext]
  zeroed l b := link_zeroed (chainFuel_zeroed b.length) l b

/-!
## Unions
-/

/-- `reads` bounds what any arm reads. -/
def union {D : Type} {Arm : D → Type} {disc : XdrProc D} {arm : ∀ d, Codec (Arm d) (Arm d)}
    (arms : ∀ d, InPlace F (arm d)) (reads : List (List F)) (h : ∀ d, (arms d).reads ⊆ reads) :
    InPlace F (Codec.union disc arm) where
  run m l b := (Walk.ofOption (disc.decode b)).bind fun d r => ((arms d).run m l r).map (DiscUnion.mk d)
  reads := reads
  congr hm b := by
    have harm := fun d => (arms d).congr (hm.mono (h d))
    simp only [harm]
  zeroed l b := (Walk.Decodes.ofOption (disc.decode b)).bind fun d r =>
    ((arms d).zeroed l r).map (DiscUnion.mk d)

lemma union_left {D : Type} {Arm : D → Type} {disc : XdrProc D} {arm : ∀ d, Codec (Arm d) (Arm d)}
    {arms : ∀ d, InPlace F (arm d)} {reads : List (List F)} {h : ∀ d, (arms d).reads ⊆ reads}
    {b r : Bytes} {d : D} (hd : disc.decode b = some (d, r)) (m : Memory F) (l : List F) :
    ((show InPlace F (Codec.union disc arm) from union arms reads h).run m l b).left =
      ((arms d).run m l r).left := by
  change ((Walk.ofOption (disc.decode b)).bind fun d r => ((arms d).run m l r).map (DiscUnion.mk d)).left = _
  rw [hd, Walk.bind_done (show (Walk.ofOption (some (d, r))).outcome = .done d r from rfl)]
  exact (Walk.map_logs _ _).2

def select {c : Codec α α} {d : Codec β β} (i : InPlace F c) (j : InPlace F d) :
    (b : Bool) → InPlace F (Codec.select c d b)
  | true => i
  | false => j

lemma select_reads {c : Codec α α} {d : Codec β β} (i : InPlace F c) (j : InPlace F d) (b : Bool) :
    (select i j b).reads ⊆ i.reads ++ j.reads := by
  cases b with
  | true => exact List.subset_append_left _ _
  | false => exact List.subset_append_right _ _

/-- Memory that is cleared wherever the routine reads is as good as zeroed. -/
lemma run_clear [DecidableEq F] {c : Codec σ α} (i : InPlace F c) {locs : List (List F)}
    (h : i.reads ⊆ locs) (m : Memory F) (b : Bytes) :
    i.run (m.clear locs) [] b = i.run .zeroed [] b :=
  i.congr (Memory.clear_zeroed h m) b

end InPlace

end UnfsClient.Lib
