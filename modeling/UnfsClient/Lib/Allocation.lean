import UnfsClient.Lib.InPlace

/-!
# Allocation

A routine that decodes in place allocates a block for every null pointer it fills. Its ledger names
the blocks by the location of the pointer to each, as seen from the structure, and is there whether
the routine succeeds or fails. A routine without lists allocates at most what it `reads`. A list has
the locations of one node again under the pointer to the next node.
-/

namespace UnfsClient.Lib

variable {F σ α β : Type}

/-- The blocks allocated over a memory, in a structure at a location, from a message. -/
abbrev Ledger (F : Type) := Memory F → List F → Bytes → List (List F)

namespace Ledger

def empty : Ledger F := fun _ _ _ => []

def member (q : List F) (d : Ledger F) : Ledger F := fun m l b => (d m (l ++ q) b).map (q ++ ·)

/-- `d` and then, if `i` is done, `e` in the member `q`. -/
def andThen {c : Codec σ α} (d : Ledger F) (i : InPlace F c) (q : List F) (e : Ledger F) : Ledger F :=
  fun m l b => d m l b ++
    match (i.run m l b).outcome with
    | .done _ r => e.member q m l r
    | _ => []

/-- A buffer, for a count that `asks` for one. -/
def buffer (q : List F) (asks : UInt32 → Bool) : Ledger F := fun m l b =>
  match Decoder.getLong b with
  | some (n, _) => if m (l ++ q) = 0 ∧ asks n = true then [q] else []
  | none => []

/-- `xdr_bytes` allocates nothing for a count of zero. -/
def bytes (maxsize : UInt32) (q : List F) : Ledger F :=
  buffer q fun n => !decide (maxsize < n) && n != 0

/-- `xdr_string` always has a terminator to store. -/
def string (maxsize : UInt32) (q : List F) : Ledger F :=
  buffer q fun n => !(decide (maxsize < n) || n + 1 == 0)

def array (maxsize elsize : UInt32) (q : List F) : Ledger F :=
  buffer q fun n => !(decide (maxsize < n) || decide (0xffffffff / elsize < n)) && n != 0

/-- A union that allocates something for the discriminants `ok` only. -/
def union {D : Type} (disc : XdrProc D) (ok : D → Bool) (d : Ledger F) : Ledger F := fun m l b =>
  match disc.decode b with
  | some (x, r) => if ok x then d m l r else []
  | none => []

section Chain

variable {p : XdrProc α} (node : InPlace F p.toCodec) (d : Ledger F) (next : List F)

/-- A node at the given place, and what follows it. -/
def link (rest : Ledger F) : Ledger F := fun m l b =>
  match XdrProc.moreData b with
  | some (true, r) => d.andThen node next rest m l r
  | _ => []

/-- The block of a node is the one its pointer points to. -/
def chainFuel : Nat → Ledger F
  | 0 => empty
  | n + 1 => fun m l b =>
    match XdrProc.moreData b with
    | some (true, _) => if m l = 0 then [] :: link node d next (chainFuel n) .zeroed [] b else []
    | _ => []

/-- `xdr_pointer` on a pointer in the structure. -/
def pointer : Ledger F := fun m l b => chainFuel node d next (b.length + 1) m l b

/-- `xdr_pointer` on a pointer to the structure, which is the first node. -/
def firstNode : Ledger F := fun m l b => link node d next (chainFuel node d next b.length) m l b

end Chain

end Ledger

/-!
## Routines without lists
-/

/-- A routine that allocates only where it reads a pointer, with its ledger. -/
structure Drawn (F : Type) (c : Codec σ α) extends InPlace F c where
  ledger : Ledger F
  within : ∀ m l b, (ledger m l b).Sublist reads

namespace Drawn

def plain (c : Codec σ α) : Drawn F c where
  toInPlace := .plain c
  ledger := .empty
  within _ _ _ := List.nil_sublist _

def member {c : Codec σ α} (q : List F) (i : Drawn F c) : Drawn F c where
  toInPlace := i.toInPlace.member q
  ledger := i.ledger.member q
  within m l b := (i.within m (l ++ q) b).map _

def field {c : Codec σ (α → β)} {get : σ → α} {p : XdrProc α} (i : Drawn F c) (q : List F)
    (j : Drawn F p.toCodec) : Drawn F (c.field get p) where
  toInPlace := i.toInPlace.field q j.toInPlace
  ledger := i.ledger.andThen i.toInPlace q j.ledger
  within m l b := by
    apply List.Sublist.append (i.within m l b)
    split
    · exact (j.within m (l ++ q) _).map _
    · exact List.nil_sublist _

def plainField {c : Codec σ (α → β)} {get : σ → α} {p : XdrProc α} (i : Drawn F c) :
    Drawn F (c.field get p) where
  toInPlace := i.toInPlace.plainField
  ledger := i.ledger
  within m l b := (i.within m l b).trans (List.sublist_append_left _ _)

def skip {c : Codec σ (α → β)} (i : Drawn F c) (a : α) (qs : List (List F)) : Drawn F (c.skip a) where
  toInPlace := i.toInPlace.skip a qs
  ledger := i.ledger
  within m l b := (i.within m l b).trans (List.sublist_append_left _ _)

lemma buffer_within (q : List F) (asks : UInt32 → Bool) (m : Memory F) (l : List F) (b : Bytes) :
    (Ledger.buffer q asks m l b).Sublist [q] := by
  unfold Ledger.buffer
  split
  · split
    · exact List.Sublist.refl _
    · exact List.nil_sublist _
  · exact List.nil_sublist _

def bytes (maxsize : UInt32) (q : List F) : Drawn F (XdrProc.bytes maxsize).toCodec where
  toInPlace := .bytes maxsize q
  ledger := .bytes maxsize q
  within := buffer_within q _

def string (maxsize : UInt32) (q : List F) : Drawn F (XdrProc.string maxsize).toCodec where
  toInPlace := .string maxsize q
  ledger := .string maxsize q
  within := buffer_within q _

def array (maxsize elsize : UInt32) (p : XdrProc α) (q : List F) :
    Drawn F (XdrProc.array maxsize elsize p).toCodec where
  toInPlace := .array maxsize elsize p q
  ledger := .array maxsize elsize q
  within := buffer_within q _

def union {D : Type} {c : Codec σ α} (i : InPlace F c) (disc : XdrProc D) (ok : D → Bool) (d : Ledger F)
    (h : ∀ m l b, (d m l b).Sublist i.reads) : Drawn F c where
  toInPlace := i
  ledger := .union disc ok d
  within m l b := by
    unfold Ledger.union
    split
    · split
      · exact h m l _
      · exact List.nil_sublist _
    · exact List.nil_sublist _

end Drawn

/-!
## What a success says
-/

/-- The arm for `true`. -/
def armTrue : (x : Bool) → cond x α β → Option α
  | true, a => some a
  | false, _ => none

lemma armTrue_isSome (x : Bool) (v : cond x α β) : (armTrue x v).isSome = x := by
  cases x with
  | true => rfl
  | false => rfl

namespace Walk

lemma Decodes.defined {w : Walk α} {o : Option (α × Bytes)} (h : w.Decodes o) : w.outcome ≠ .undefined := by
  rw [h.2]
  cases o with
  | none => exact nofun
  | some x => exact nofun

lemma bind_eq_done {w : Walk α} {f : α → Bytes → Walk β} {v : β} {r : Bytes}
    (h : (w.bind f).outcome = .done v r) :
    ∃ a s, w.outcome = .done a s ∧ (f a s).outcome = .done v r := by
  unfold bind at h
  split at h
  · cases h
  · cases h
  · rename_i a s hw
    exact ⟨a, s, hw, h⟩

lemma map_eq_done {w : Walk α} {f : α → β} {v : β} {r : Bytes} (h : (w.map f).outcome = .done v r) :
    ∃ a, w.outcome = .done a r ∧ v = f a := by
  obtain ⟨a, s, hw, hpure⟩ := bind_eq_done h
  cases hpure
  exact ⟨a, hw, rfl⟩

lemma ofOption_eq_done {o : Option (α × Bytes)} {v : α} {r : Bytes}
    (h : (ofOption o).outcome = .done v r) : o = some (v, r) := by
  cases o with
  | none => cases h
  | some x =>
    cases h
    rfl

end Walk

namespace InPlace

variable {m : Memory F} {l : List F} {b r : Bytes}

lemma field_done {c : Codec σ (α → β)} {get : σ → α} {p : XdrProc α} {i : InPlace F c} {q : List F}
    {j : InPlace F p.toCodec} {v : β}
    (h : ((i.field q j : InPlace F (c.field get p)).run m l b).outcome = .done v r) :
    ∃ f a s, (i.run m l b).outcome = .done f s ∧ (j.run m (l ++ q) s).outcome = .done a r ∧ v = f a := by
  obtain ⟨f, s, hi, hmap⟩ := Walk.bind_eq_done h
  obtain ⟨a, hj, rfl⟩ := Walk.map_eq_done hmap
  exact ⟨f, a, s, hi, hj, rfl⟩

lemma exists_field_done {c : Codec σ (α → β)} {get : σ → α} {p : XdrProc α} {i : InPlace F c} {q : List F}
    {j : InPlace F p.toCodec} :
    (∃ v, ((i.field q j : InPlace F (c.field get p)).run m l b).outcome = .done v r) ↔
      ∃ s, (∃ f, (i.run m l b).outcome = .done f s) ∧ ∃ a, (j.run m (l ++ q) s).outcome = .done a r := by
  constructor
  · rintro ⟨v, hv⟩
    obtain ⟨f, a, s, hi, hj, -⟩ := field_done hv
    exact ⟨s, ⟨f, hi⟩, a, hj⟩
  · rintro ⟨s, ⟨f, hi⟩, a, hj⟩
    refine ⟨f a, ?_⟩
    change ((i.run m l b).bind _).outcome = _
    rw [Walk.bind_done hi, Walk.map, Walk.bind_done hj]
    rfl

/-- A record that has only its first member yet. -/
abbrev first (f : α → β) (get : σ → α) {p : XdrProc α} (q : List F) (j : InPlace F p.toCodec) :
    InPlace F ((Codec.record f).field get p) :=
  (plain (.record f)).field q j

lemma exists_first_done {f : α → β} {get : σ → α} {p : XdrProc α} {q : List F} {j : InPlace F p.toCodec} :
    (∃ v, ((first f get q j).run m l b).outcome = .done v r) ↔ ∃ a, (j.run m (l ++ q) b).outcome = .done a r := by
  rw [exists_field_done]
  constructor
  · rintro ⟨s, ⟨g, hg⟩, ha⟩
    cases hg
    exact ha
  · intro ha
    exact ⟨b, ⟨f, rfl⟩, ha⟩

lemma exists_plain_done {c : Codec σ α} :
    (∃ v, ((plain c : InPlace F c).run m l b).outcome = .done v r) ↔ ∃ v, c.decode b = some (v, r) := by
  refine exists_congr fun v => ⟨Walk.ofOption_eq_done, fun h => ?_⟩
  change Outcome.ofOption (c.decode b) = _
  rw [h]
  rfl

lemma exists_firstPlain_done {f : α → β} {get : σ → α} {p : XdrProc α} {q : List F} :
    (∃ v, ((first f get q (plain p.toCodec)).run m l b).outcome = .done v r) ↔ ∃ a, p.decode b = some (a, r) :=
  exists_first_done.trans exists_plain_done

lemma union_done {D : Type} {Arm : D → Type} {disc : XdrProc D} {arm : ∀ d, Codec (Arm d) (Arm d)}
    {arms : ∀ d, InPlace F (arm d)} {reads : List (List F)} {h : ∀ d, (arms d).reads ⊆ reads}
    {v : DiscUnion Arm}
    (hrun : ((union arms reads h : InPlace F (Codec.union disc arm)).run m l b).outcome = .done v r) :
    ∃ s, disc.decode b = some (v.disc, s) ∧ ((arms v.disc).run m l s).outcome = .done v.arm r := by
  obtain ⟨d, s, hdisc, hmap⟩ := Walk.bind_eq_done hrun
  obtain ⟨a, harm, rfl⟩ := Walk.map_eq_done hmap
  exact ⟨s, Walk.ofOption_eq_done hdisc, harm⟩

lemma select_done {c : Codec α α} {d : Codec β β} {i : InPlace F c} {j : InPlace F d} {x : Bool}
    {v : cond x α β} (h : ((select i j x).run m l b).outcome = .done v r) {a : α}
    (ha : armTrue x v = some a) :
    (i.run m l b).outcome = .done a r := by
  cases x with
  | true =>
    cases ha
    exact h
  | false => cases ha

end InPlace

namespace Ledger

variable {m : Memory F} {l : List F} {b r : Bytes}

lemma andThen_done {c : Codec σ α} {i : InPlace F c} {v : α} (h : (i.run m l b).outcome = .done v r)
    (d : Ledger F) (q : List F) (e : Ledger F) :
    d.andThen i q e m l b = d m l b ++ e.member q m l r := by
  simp only [andThen, h]

section Counted

variable {refuse : UInt32 → Bool} {body : Counted α → Encoding}
  {read : (n : Nat) → Decoder {l : List α // l.length = n}} {ok : Counted α → Bool}
  {hbody : ∀ (v : Counted α) (s : Bytes), ok v = true → (body v).ok = true →
    read v.1.length ((body v).bytes ++ s) = some (⟨v.1, rfl⟩, s)}
  {hread : ∀ n, (read n).Streams} {q : List F} {v : Counted α}

/-- A count of what was decoded asks for a buffer unless it is zero. -/
lemma buffer_counted (h : (XdrProc.counted refuse body read ok hbody hread).decode b = some (v, r))
    (hnull : m (l ++ q) = 0) :
    buffer q (fun n => !refuse n && n != 0) m l b = if v.1 = [] then [] else [q] := by
  obtain ⟨⟨n, s⟩, hn, hrest⟩ := Option.bind_eq_some_iff.mp h
  simp only [buffer, hn, hnull, true_and]
  dsimp only at hrest
  by_cases hrefuse : refuse n = true
  · rw [if_pos hrefuse] at hrest
    cases hrest
  · rw [if_neg hrefuse] at hrest
    obtain ⟨⟨x, t⟩, -, hpure⟩ := Option.bind_eq_some_iff.mp hrest
    cases hpure
    have hzero : n = 0 ↔ x.1 = [] := by
      rw [← List.length_eq_zero_iff, x.2, ← UInt32.toNat_inj, UInt32.toNat_zero]
    simp only [Bool.not_eq_true] at hrefuse
    by_cases hx : x.1 = []
    · simp [hx, hzero.mpr hx]
    · have hn0 : n ≠ 0 := fun h => hx (hzero.mp h)
      simp [hx, hrefuse, hn0]

/-- The buffer of what was decoded has been allocated, if only nothing is decoded `through` a pointer. -/
lemma buffer_done {through : Bytes → Outcome (Counted α)} (hthrough : through b = .done v r → v.1 = [])
    (h : ((InPlace.buffer (XdrProc.counted refuse body read ok hbody hread) q through).run m l b).outcome =
      .done v r) :
    buffer q (fun n => !refuse n && n != 0) m l b = if v.1 = [] then [] else [q] := by
  change (if m (l ++ q) = 0 then Outcome.ofOption _ else through b) = _ at h
  by_cases hnull : m (l ++ q) = 0
  · rw [if_pos hnull] at h
    exact buffer_counted (Walk.ofOption_eq_done h) hnull
  · rw [if_neg hnull] at h
    rw [if_pos (hthrough h)]
    unfold buffer
    split
    · exact if_neg fun h => hnull h.1
    · rfl

end Counted

lemma throughCount_done {refuse : UInt32 → Bool} {D : UInt32 → Type} {d : ∀ n, Decoder (D n)} {v : Counted α}
    (h : InPlace.throughCount refuse (fun n s =>
      if n = 0 then .done ⟨[], Nat.two_pow_pos 32⟩ s else InPlace.overwrite (d n) s) b = .done v r) :
    v.1 = [] := by
  unfold InPlace.throughCount at h
  split at h
  · cases h
  · split at h
    · cases h
    · dsimp only at h
      split at h
      · cases h
        rfl
      · unfold InPlace.overwrite at h
        split at h <;> cases h

lemma member_ite {d : Ledger F} {p : Prop} [Decidable p] {q x : List F}
    (h : d m (l ++ q) b = if p then [] else [x]) : d.member q m l b = if p then [] else [q ++ x] := by
  rw [member, h]
  split <;> rfl

lemma bytes_done {maxsize : UInt32} {q x : List F} {v : Counted UInt8}
    (h : ((InPlace.bytes maxsize x).run m (l ++ q) b).outcome = .done v r) :
    (bytes maxsize x).member q m l b = if v.1 = [] then [] else [q ++ x] :=
  member_ite (buffer_done throughCount_done h)

lemma array_done {maxsize elsize : UInt32} {p : XdrProc α} {q x : List F} {v : Counted α}
    (h : ((InPlace.array maxsize elsize p x).run m (l ++ q) b).outcome = .done v r) :
    (array maxsize elsize x).member q m l b = if v.1 = [] then [] else [q ++ x] :=
  member_ite (buffer_done throughCount_done h)

lemma union_some {D : Type} {disc : XdrProc D} {x : D} (h : disc.decode b = some (x, r)) (ok : D → Bool)
    (d : Ledger F) : union disc ok d m l b = if ok x then d m l r else [] := by
  simp only [union, h]

end Ledger

/-!
## When nothing is allocated
-/

namespace Ledger

variable {m : Memory F} {l : List F} {b r : Bytes}

lemma member_eq_nil {q : List F} {d : Ledger F} : d.member q m l b = [] ↔ d m (l ++ q) b = [] :=
  List.map_eq_nil_iff

lemma andThen_eq_nil {c : Codec σ α} {i : InPlace F c} {q : List F} {d e : Ledger F} :
    d.andThen i q e m l b = [] ↔
      d m l b = [] ∧ ∀ r, (∃ v, (i.run m l b).outcome = .done v r) → e m (l ++ q) r = [] := by
  unfold andThen
  rw [List.append_eq_nil_iff]
  refine and_congr_right fun _ => ?_
  cases (i.run m l b).outcome with
  | failed => simp
  | undefined => simp
  | done v r => simp [member_eq_nil]

/-- What `i` is done with has been allocated for, so that `e` is come to with a block only. -/
lemma andThen_eq_nil_of_done {c : Codec σ α} {i : InPlace F c} {q : List F} {d e : Ledger F}
    (h : ∀ v r, (i.run m l b).outcome = .done v r → d m l b ≠ []) :
    d.andThen i q e m l b = [] ↔ d m l b = [] := by
  refine andThen_eq_nil.trans (and_iff_left_of_imp fun hnil r hdone => ?_)
  obtain ⟨v, hv⟩ := hdone
  exact absurd hnil (h v r hv)

lemma buffer_eq_nil {q : List F} {asks : UInt32 → Bool} (hnull : m (l ++ q) = 0) :
    buffer q asks m l b = [] ↔ ∀ n r, Decoder.getLong b = some (n, r) → asks n = false := by
  unfold buffer
  cases Decoder.getLong b with
  | none => simp
  | some x => simp [hnull, Prod.ext_iff]

lemma union_eq_nil {D : Type} {disc : XdrProc D} {ok : D → Bool} {d : Ledger F} :
    union disc ok d m l b = [] ↔ ∀ x r, disc.decode b = some (x, r) → ok x = true → d m l r = [] := by
  unfold union
  cases disc.decode b with
  | none => simp
  | some x => simp [Prod.ext_iff]

lemma firstNode_eq_nil {p : XdrProc α} {node : InPlace F p.toCodec} {d : Ledger F} {next : List F}
    (h : ∀ v r s, (node.run m l r).outcome = .done v s → d m l r ≠ []) :
    firstNode node d next m l b = [] ↔ ∀ r, XdrProc.moreData b = some (true, r) → d m l r = [] := by
  unfold firstNode link
  cases XdrProc.moreData b with
  | none => simp
  | some x =>
    obtain ⟨more, r⟩ := x
    cases more with
    | false => simp
    | true => simp [andThen_eq_nil_of_done fun v s => h v r s]

lemma pointer_eq_nil {p : XdrProc α} {node : InPlace F p.toCodec} {d : Ledger F} {next : List F}
    (hnull : m l = 0) : pointer node d next m l b = [] ↔ ∀ r, XdrProc.moreData b ≠ some (true, r) := by
  unfold pointer chainFuel
  cases XdrProc.moreData b with
  | none => simp
  | some x =>
    obtain ⟨more, r⟩ := x
    cases more with
    | false => simp
    | true => simp [hnull]

section Buffer

variable {maxsize : UInt32} {q : List F}

lemma bytes_eq_nil (hnull : m (l ++ q) = 0) :
    bytes maxsize q m l b = [] ↔ ∀ n r, Decoder.getLong b = some (n, r) → n = 0 ∨ maxsize < n := by
  rw [bytes, buffer_eq_nil hnull]
  simp [or_iff_not_imp_right]

/-- `xdr_bytes` that allocates nothing and succeeds has read a count of zero. -/
lemma bytes_nil_done (hnull : m (l ++ q) = 0) (hnil : bytes maxsize q m l b = []) :
    (∃ v, ((InPlace.bytes maxsize q).run m l b).outcome = .done v r) ↔ Decoder.getLong b = some (0, r) := by
  change (∃ v, (if m (l ++ q) = 0 then Outcome.ofOption _ else _) = .done v r) ↔ _
  rw [if_pos hnull]
  have hdecode : (XdrProc.bytes maxsize).decode b = (Decoder.getLong b).bind fun x =>
    (if decide (maxsize < x.1) then .fail else getOpaque x.1.toNat >>= fun y =>
      pure ⟨y.1, y.2.trans_lt x.1.toNat_lt⟩ : Decoder (Counted UInt8)) x.2 := rfl
  rw [hdecode]
  cases hlong : Decoder.getLong b with
  | none => simp [Outcome.ofOption]
  | some x =>
    obtain ⟨n, s⟩ := x
    cases (bytes_eq_nil hnull).mp hnil n s hlong with
    | inl hzero =>
      subst hzero
      constructor
      · rintro ⟨v, hv⟩
        cases hv
        rfl
      · intro h
        cases h
        exact ⟨_, rfl⟩
    | inr hbig =>
      have hne : n ≠ 0 := by
        rintro rfl
        exact absurd hbig (by simp)
      simp [hbig, hne, Outcome.ofOption, Decoder.fail]

lemma string_eq_nil (hnull : m (l ++ q) = 0) :
    string maxsize q m l b = [] ↔ ∀ n r, Decoder.getLong b = some (n, r) → maxsize < n ∨ n + 1 = 0 := by
  rw [string, buffer_eq_nil hnull]
  simp only [Bool.not_eq_false', Bool.or_eq_true, decide_eq_true_eq, beq_iff_eq]

/-- `xdr_string` that succeeds has allocated. -/
lemma string_ne_nil (hnull : m (l ++ q) = 0) {v : Option CString}
    (h : ((InPlace.string maxsize q).run m l b).outcome = .done v r) : string maxsize q m l b ≠ [] := by
  change (if m (l ++ q) = 0 then Outcome.ofOption _ else _) = _ at h
  rw [if_pos hnull] at h
  have hsome : (XdrProc.string maxsize).decode b = some (v, r) := Walk.ofOption_eq_done h
  obtain ⟨⟨x, s⟩, hx, -⟩ := Option.bind_eq_some_iff.mp hsome
  obtain ⟨⟨n, t⟩, hn, hrest⟩ := Option.bind_eq_some_iff.mp hx
  intro hnil
  have hrefuse : (decide (maxsize < n) || n + 1 == 0) = true := by
    simpa using (string_eq_nil hnull).mp hnil n t hn
  simp only [hrefuse, if_true] at hrest
  cases hrest

end Buffer

end Ledger

lemma Drawn.field_done {c : Codec σ (α → β)} {get : σ → α} {p : XdrProc α} {i : Drawn F c} {q : List F}
    {j : Drawn F p.toCodec} {m : Memory F} {l : List F} {b r : Bytes} {v : β}
    (h : ((i.field q j : Drawn F (c.field get p)).run m l b).outcome = .done v r) :
    ∃ f a s, (i.run m l b).outcome = .done f s ∧ (j.run m (l ++ q) s).outcome = .done a r ∧ v = f a ∧
      (i.field q j : Drawn F (c.field get p)).ledger m l b = i.ledger m l b ++ j.ledger.member q m l s := by
  obtain ⟨f, a, s, hi, hj, hv⟩ := InPlace.field_done h
  exact ⟨f, a, s, hi, hj, hv, Ledger.andThen_done hi _ _ _⟩

/-!
## Lists
-/

/-- The locations `locs` in every node of a list, seen from the first one. -/
def nodeLocs (locs : α → List (List F)) (next : List F) : List α → List (List F)
  | [] => []
  | a :: v => locs a ++ (nodeLocs locs next v).map (next ++ ·)

lemma nodeLocs_perm {locs locs' : List (List F)} (h : locs.Perm locs') (next : List F) (v : List α) :
    (nodeLocs (fun _ => locs) next v).Perm (nodeLocs (fun _ => locs') next v) := by
  induction v with
  | nil => exact .refl _
  | cons a v ih => exact h.append (ih.map _)

lemma nil_notMem_nodeLocs {locs : α → List (List F)} {next : List F} (hlocs : ∀ a, [] ∉ locs a)
    (hnext : next ≠ []) (v : List α) : [] ∉ nodeLocs locs next v := by
  cases v with
  | nil => exact List.not_mem_nil
  | cons a v =>
    intro h
    cases List.mem_append.mp h with
    | inl hmem => exact hlocs a hmem
    | inr hmem =>
      obtain ⟨q, -, hq⟩ := List.mem_map.mp hmem
      exact hnext (List.append_eq_nil_iff.mp hq).1

lemma nodeLocs_nodup {locs : List (List F)} {next : List F} (hlocs : locs.Nodup)
    (hnext : ∀ q ∈ locs, ¬ next <+: q) (v : List α) : (nodeLocs (fun _ => locs) next v).Nodup := by
  induction v with
  | nil => exact List.nodup_nil
  | cons a v ih =>
    refine List.nodup_append.mpr ⟨hlocs, ih.map (List.append_right_injective next), ?_⟩
    intro q hq q' hq' heq
    obtain ⟨q'', -, rfl⟩ := List.mem_map.mp hq'
    exact hnext q hq (heq ▸ List.prefix_append next q'')

section Chain

variable {p : XdrProc α} (node : Drawn F p.toCodec) {next : List F}

/-- The block of a node and those of its pointers. -/
abbrev nodeReads (node : Drawn F p.toCodec) (next : List F) : List α → List (List F) :=
  nodeLocs (fun _ => [] :: node.reads) next

/-- A node that is decoded, its blocks and those of the nodes behind it. -/
lemma link_within {rest : Memory F → List F → Bytes → Walk (List α)} {e : Ledger F}
    (hrest : ∀ m l b v r, (rest m l b).outcome = .done v r → (e m l b).Sublist (nodeReads node next v))
    {m : Memory F} {l : List F} {b r : Bytes} {v : List α}
    (h : (InPlace.link node.toInPlace next rest m l b).outcome = .done v r) (hv : v ≠ []) :
    ([] :: Ledger.link node.toInPlace node.ledger next e m l b).Sublist (nodeReads node next v) := by
  obtain ⟨more, s, hmore, hnode⟩ := Walk.bind_eq_done h
  have hmore' := Walk.ofOption_eq_done hmore
  cases more with
  | false =>
    cases hnode
    exact absurd rfl hv
  | true =>
    obtain ⟨a, t, hdone, hmap⟩ := Walk.bind_eq_done hnode
    obtain ⟨v', hv', rfl⟩ := Walk.map_eq_done hmap
    simp only [Ledger.link, hmore', Ledger.andThen_done hdone]
    apply List.Sublist.cons_cons
    exact (node.within m l s).append ((hrest m (l ++ next) t v' r hv').map _)

/-- There is a node behind the flag that says so. -/
lemma link_ne_nil {rest : Memory F → List F → Bytes → Walk (List α)} {m : Memory F} {l : List F}
    {b r s : Bytes} {v : List α} (hmore : XdrProc.moreData b = some (true, s))
    (h : (InPlace.link node.toInPlace next rest m l b).outcome = .done v r) : v ≠ [] := by
  obtain ⟨more, s', hmore', hnode⟩ := Walk.bind_eq_done h
  cases hmore.symm.trans (Walk.ofOption_eq_done hmore')
  obtain ⟨a, t, -, hmap⟩ := Walk.bind_eq_done hnode
  obtain ⟨v', -, rfl⟩ := Walk.map_eq_done hmap
  exact List.cons_ne_nil a v'

lemma chainFuel_within (n : Nat) (m : Memory F) (l : List F) (b : Bytes) (v : List α) (r : Bytes)
    (h : (InPlace.chainFuel node.toInPlace next n m l b).outcome = .done v r) :
    (Ledger.chainFuel node.toInPlace node.ledger next n m l b).Sublist (nodeReads node next v) := by
  induction n generalizing m l b v r with
  | zero => cases h
  | succ n ih =>
    unfold Ledger.chainFuel
    split
    · rename_i s hmore
      split
      · rename_i hnull
        rw [InPlace.chainFuel, if_pos hnull] at h
        exact link_within node ih h (link_ne_nil node hmore h)
      · exact List.nil_sublist _
    · exact List.nil_sublist _

end Chain

/-!
## Freeing
-/

variable {L : Type}

/-- What a pointer holds: the block it points to is named by its location. -/
inductive Pointer (L : Type) where
  | null
  | block (loc : L)
  /-- What was in the memory before. -/
  | stale
  deriving DecidableEq

namespace Pointer

def block? : Pointer L → Option L
  | block loc => some loc
  | _ => none

variable [DecidableEq L]

/-- `mem_free`; only an allocated block can be freed. -/
def free (ledger : List L) : Pointer L → Option (List L)
  | null => some ledger
  | block loc => if loc ∈ ledger then some (ledger.erase loc) else none
  | stale => none

def freeAll (ledger : List L) (ps : List (Pointer L)) : Option (List L) :=
  ps.foldlM free ledger

/-- Nothing is left, and nothing was freed that was not there, just when the blocks are freed once each. -/
lemma freeAll_eq_nil_iff {ledger : List L} {ps : List (Pointer L)} :
    freeAll ledger ps = some [] ↔ stale ∉ ps ∧ (ps.filterMap block?).Perm ledger := by
  induction ps generalizing ledger with
  | nil =>
    simp only [freeAll, List.foldlM_nil, List.not_mem_nil, not_false_eq_true, List.filterMap_nil,
      List.nil_perm, true_and]
    exact Option.some_inj
  | cons p ps ih =>
    have hcons : freeAll ledger (p :: ps) = (free ledger p).bind fun left => freeAll left ps := rfl
    rw [hcons]
    cases p with
    | null =>
      simp only [free, Option.bind_some, ih, List.mem_cons, reduceCtorEq, false_or]
      rfl
    | stale => simp [free]
    | block loc =>
      by_cases hmem : loc ∈ ledger
      · simp only [free, if_pos hmem, Option.bind_some, ih, List.mem_cons, reduceCtorEq, false_or]
        refine and_congr_right fun _ => ?_
        change _ ↔ (loc :: ps.filterMap block?).Perm ledger
        rw [List.cons_perm_iff_perm_erase]
        exact ⟨fun h => ⟨hmem, h⟩, fun h => h.2⟩
      · simp only [free, if_neg hmem, Option.bind_none, reduceCtorEq, false_iff, not_and]
        intro _ hperm
        exact hmem (hperm.mem_iff.mp List.mem_cons_self)

/-- What is at a location when the blocks `drawn` are allocated: nothing else is but null pointers,
and what was in the memory before. -/
def stored (drawn : List L) (isNull : L → Bool) (loc : L) : Pointer L :=
  if loc ∈ drawn then block loc else if isNull loc then null else stale

variable {drawn frees : List L} {isNull : L → Bool}

lemma stored_block_iff {q loc : L} :
    (stored drawn isNull q).block? = some loc ↔ q = loc ∧ q ∈ drawn := by
  unfold stored
  split
  · rename_i hdrawn
    simp only [block?, Option.some_inj, hdrawn, and_true]
  · rename_i hdrawn
    split <;> simp [block?, hdrawn]

lemma mem_stored_blocks {loc : L} :
    loc ∈ (frees.map (stored drawn isNull)).filterMap block? ↔ loc ∈ drawn ∧ loc ∈ frees := by
  rw [List.filterMap_map, List.mem_filterMap]
  constructor
  · rintro ⟨q, hq, hblock⟩
    obtain ⟨rfl, hdrawn⟩ := stored_block_iff.mp hblock
    exact ⟨hdrawn, hq⟩
  · rintro ⟨hdrawn, hfree⟩
    exact ⟨loc, hfree, stored_block_iff.mpr ⟨rfl, hdrawn⟩⟩

/-- What a balanced free has to come to. -/
lemma of_freeAll_stored (h : freeAll drawn (frees.map (stored drawn isNull)) = some []) :
    drawn ⊆ frees ∧ ∀ loc ∈ frees, loc ∈ drawn ∨ isNull loc = true := by
  obtain ⟨hstale, hperm⟩ := freeAll_eq_nil_iff.mp h
  constructor
  · intro loc hloc
    exact (mem_stored_blocks.mp (hperm.mem_iff.mpr hloc)).2
  · intro loc hloc
    by_contra hnot
    obtain ⟨hdrawn, hnull⟩ := not_or.mp hnot
    apply hstale
    have hst : stored drawn isNull loc = stale := by rw [stored, if_neg hdrawn, if_neg hnull]
    exact hst ▸ List.mem_map_of_mem hloc

lemma freeAll_stored (hdrawn : drawn.Nodup) (hfrees : frees.Nodup) (hsub : drawn ⊆ frees)
    (hnull : ∀ loc ∈ frees, loc ∈ drawn ∨ isNull loc = true) :
    freeAll drawn (frees.map (stored drawn isNull)) = some [] := by
  refine freeAll_eq_nil_iff.mpr ⟨?_, ?_⟩
  · intro hstale
    obtain ⟨loc, hloc, hst⟩ := List.mem_map.mp hstale
    unfold stored at hst
    split at hst
    · cases hst
    · rename_i hnot
      rw [if_pos ((hnull loc hloc).resolve_left hnot)] at hst
      cases hst
  · have hnodup : ((frees.map (stored drawn isNull)).filterMap block?).Nodup := by
      rw [List.filterMap_map]
      refine List.Nodup.filterMap (fun q q' loc hq hq' => ?_) hfrees
      exact (stored_block_iff.mp hq).1.trans (stored_block_iff.mp hq').1.symm
    refine (List.perm_ext_iff_of_nodup hnodup hdrawn).mpr fun loc => ?_
    rw [mem_stored_blocks]
    exact ⟨fun h => h.1, fun h => ⟨h, hsub h⟩⟩

end Pointer

end UnfsClient.Lib
