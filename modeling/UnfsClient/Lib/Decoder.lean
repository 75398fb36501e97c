import UnfsClient.Lib.Bytes

/-!
# Decoders

A decoder reads a value off the front of a message or fails. `Streams` is what makes decoders
compose on messages whose end they do not know: bytes that follow change neither the value nor
where reading stops.
-/

namespace UnfsClient.Lib

abbrev Decoder (α : Type) := Bytes → Option (α × Bytes)

namespace Decoder

variable {α β : Type}

instance : Monad Decoder where
  pure a := fun b => some (a, b)
  bind d f := fun b => (d b).bind fun x => f x.1 x.2

def fail : Decoder α := fun _ => none

/-- The next four-byte word. -/
def getLong : Decoder UInt32 := fun b =>
  match b with
  | b₀ :: b₁ :: b₂ :: b₃ :: r => some (beWord b₀ b₁ b₂ b₃, r)
  | _ => none

/-- The next `n` bytes. -/
def getBytes (n : Nat) : Decoder {x : Bytes // x.length = n} := fun b =>
  if h : n ≤ b.length then some (⟨b.take n, List.length_take_of_le h⟩, b.drop n) else none

/-- `d` run `n` times. -/
def replicate (d : Decoder α) : (n : Nat) → Decoder {l : List α // l.length = n}
  | 0 => pure ⟨[], rfl⟩
  | n + 1 => do
    let a ← d
    let l ← replicate d n
    pure ⟨a :: l.1, congrArg (· + 1) l.2⟩

lemma bind_apply (d : Decoder α) (f : α → Decoder β) (b : Bytes) :
    (d >>= f) b = (d b).bind fun x => f x.1 x.2 := rfl

/-- One step of a `do` block that reads. -/
lemma bind_eq {d : Decoder α} {b r : Bytes} {a : α} (f : α → Decoder β) (h : d b = some (a, r)) :
    (d >>= f) b = f a r := by
  rw [bind_apply, h]
  rfl

@[simp] lemma getLong_beBytes (w : UInt32) (s : Bytes) : getLong (beBytes w ++ s) = some (w, s) := by
  simp only [beBytes, List.cons_append, List.nil_append, getLong, beWord_beBytes]

@[simp] lemma getBytes_append {n : Nat} (x : {x : Bytes // x.length = n}) (s : Bytes) :
    getBytes n (x.1 ++ s) = some (x, s) := by
  obtain ⟨x, rfl⟩ := x
  simp [getBytes]

/-- A success takes at least `n` bytes. -/
def Takes (n : Nat) (d : Decoder α) : Prop :=
  ∀ ⦃b r : Bytes⦄ ⦃a : α⦄, d b = some (a, r) → r.length + n ≤ b.length

namespace Takes

lemma pure (a : α) : Takes 0 (Pure.pure a : Decoder α) := by
  intro b r c h
  cases h
  exact le_refl _

lemma getLong : Takes 4 getLong := by
  intro b r w h
  unfold Decoder.getLong at h
  split at h
  · cases h
    exact le_refl _
  · cases h

lemma bind {n m : Nat} {d : Decoder α} {f : α → Decoder β} (hd : Takes n d)
    (hf : ∀ a, Takes m (f a)) : Takes (n + m) (d >>= f) := by
  intro b r v h
  obtain ⟨⟨a, c⟩, ha, hc⟩ := Option.bind_eq_some_iff.mp h
  have h₁ := hd ha
  have h₂ := hf a hc
  simp only at h₁ h₂
  omega

lemma mono {n m : Nat} {d : Decoder α} (h : m ≤ n) (hd : Takes n d) : Takes m d := by
  intro b r a ha
  have := hd ha
  omega

end Takes

/-- Reading does not look past the bytes it takes. -/
structure Streams (d : Decoder α) : Prop where
  append : ∀ {b r : Bytes} {a : α}, d b = some (a, r) → ∀ s, d (b ++ s) = some (a, r ++ s)
  takes : Takes 0 d

namespace Streams

lemma pure (a : α) : Streams (Pure.pure a : Decoder α) where
  append h s := by
    cases h
    rfl
  takes := .pure a

lemma fail : Streams (Decoder.fail : Decoder α) where
  append h := nomatch h
  takes _ _ _ h := nomatch h

lemma getLong : Streams getLong where
  append {b r w} h s := by
    unfold Decoder.getLong at h ⊢
    split at h
    · cases h
      rfl
    · cases h
  takes := Takes.getLong.mono (Nat.zero_le 4)

lemma getBytes (n : Nat) : Streams (getBytes n) where
  append {b r x} h s := by
    unfold Decoder.getBytes at h
    split at h
    · rename_i hn
      cases h
      have hb : b ++ s = b.take n ++ (b.drop n ++ s) := by
        rw [← List.append_assoc, List.take_append_drop]
      rw [hb]
      exact getBytes_append ⟨b.take n, List.length_take_of_le hn⟩ _
    · cases h
  takes b r x h := by
    unfold Decoder.getBytes at h
    split at h
    · cases h
      simp
    · cases h

lemma bind {d : Decoder α} {f : α → Decoder β} (hd : Streams d) (hf : ∀ a, Streams (f a)) :
    Streams (d >>= f) where
  append {b r v} h s := by
    obtain ⟨⟨a, m⟩, ha, hm⟩ := Option.bind_eq_some_iff.mp h
    rw [bind_eq f (hd.append ha s)]
    exact (hf a).append hm s
  takes := hd.takes.bind fun a => (hf a).takes

lemma ite {c : Prop} [Decidable c] {d e : Decoder α} (hd : Streams d) (he : Streams e) :
    Streams (if c then d else e) := by
  split
  · exact hd
  · exact he

lemma replicate {d : Decoder α} (hd : Streams d) (n : Nat) : Streams (d.replicate n) := by
  induction n with
  | zero => exact .pure _
  | succ n ih => exact hd.bind fun _ => ih.bind fun _ => .pure _

/-- A message that is decoded to its last byte has no proper initial segment that is decoded. -/
lemma none_of_initial {d : Decoder α} (hd : Streams d) {b p : Bytes} {a : α}
    (h : d b = some (a, [])) (hp : p <+: b) (hne : p ≠ b) : d p = none := by
  obtain ⟨q, rfl⟩ := hp
  cases hdp : d p with
  | none => rfl
  | some x =>
    have happ := hd.append hdp q
    rw [h] at happ
    have hq : x.2 ++ q = [] := (congrArg Prod.snd (Option.some.inj happ)).symm
    rw [(List.append_eq_nil_iff.mp hq).2, List.append_nil] at hne
    exact absurd rfl hne

end Streams

/-!
## Linked lists

On the wire a list is a chain of flags, each set flag followed by a node. Every flag takes four
bytes, so the length of the message bounds the chain and serves as fuel.
-/

section Chain

variable (more : Decoder Bool) (node : Decoder α)

/-- One flag, then a node and the rest of the chain when it is set. -/
def link (rest : Decoder (List α)) : Decoder (List α) := do
  let m ← more
  if m then do
    let a ← node
    let l ← rest
    pure (a :: l)
  else
    pure []

def chainFuel : Nat → Decoder (List α)
  | 0 => fail
  | n + 1 => link more node (chainFuel n)

def chain : Decoder (List α) := fun b => chainFuel more node (b.length + 1) b

variable {more node}

/-- A link hands on a shorter message than it was given. -/
lemma link_congr (hmore : Takes 1 more)
    (hnode : Streams node) {rest rest' : Decoder (List α)} {b : Bytes}
    (h : ∀ r : Bytes, r.length < b.length → rest r = rest' r) :
    link more node rest b = link more node rest' b := by
  rw [link, link, bind_apply, bind_apply]
  cases hb : more b with
  | none => rfl
  | some x =>
    have hlt := hmore hb
    simp only [Option.bind_some]
    cases x.1 with
    | false => rfl
    | true =>
      simp only [if_true, bind_apply]
      cases ha : node x.2 with
      | none => rfl
      | some y =>
        simp only [Option.bind_some]
        rw [h y.2 ((hnode.takes ha).trans_lt hlt)]

lemma chainFuel_eq (hmore : Takes 1 more)
    (hnode : Streams node) {n m : Nat} {b : Bytes} (hn : b.length < n) (hm : b.length < m) :
    chainFuel more node n b = chainFuel more node m b := by
  induction n generalizing m b with
  | zero => omega
  | succ n ih =>
    cases m with
    | zero => omega
    | succ m =>
      rw [chainFuel, chainFuel]
      apply link_congr hmore hnode
      intro r hr
      exact ih (by omega) (by omega)

/-- The recursion of the source: the fuel never cuts a chain short. -/
lemma chain_eq (hmore : Takes 1 more)
    (hnode : Streams node) : chain more node = link more node (chain more node) := by
  funext b
  rw [chain, chainFuel]
  apply link_congr hmore hnode
  intro r hr
  rw [chain]
  exact chainFuel_eq hmore hnode hr (Nat.lt_succ_self _)

lemma Streams.chainFuel (hmore : Streams more) (hnode : Streams node) (n : Nat) :
    Streams (chainFuel more node n) := by
  induction n with
  | zero => exact .fail
  | succ n ih => exact hmore.bind fun _ => .ite (hnode.bind fun _ => ih.bind fun _ => .pure _) (.pure _)

lemma Streams.chain (hmore : Streams more)
    (hlt : Takes 1 more) (hnode : Streams node) :
    Streams (chain more node) where
  append {b r l} h s := by
    have hb : b.length < (b ++ s).length + 1 := by
      rw [List.length_append]
      omega
    rw [Decoder.chain, chainFuel_eq hlt hnode (Nat.lt_succ_self _) hb] at h
    exact (Streams.chainFuel hmore hnode _).append h s
  takes _ _ _ h := (Streams.chainFuel hmore hnode _).takes h

end Chain

end Decoder

end UnfsClient.Lib
