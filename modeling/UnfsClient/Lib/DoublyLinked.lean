import Mathlib

/-!
# Doubly linked lists

Each link field of a node is a map from addresses, so that an assignment to one field of one
node is a `Function.update` of one map. `Linked nx pv p l` says that the links `nx` and `pv`
run through the addresses of `l` in order, with `p` before the first of them.
-/

namespace UnfsClient.Lib.DoublyLinked

open Function

def Linked (nx pv : Nat → Option Nat) : Option Nat → List Nat → Prop
  | _, [] => True
  | p, a :: l => pv a = p ∧ nx a = l.head? ∧ Linked nx pv (some a) l

/-- `*p = v` for a pointer that may be null. -/
def setAt {β : Type} (f : Nat → β) (p : Option Nat) (v : β) : Nat → β :=
  match p with
  | none => f
  | some a => update f a v

/-- The nodes met from `first` on, at most `fuel` of them. -/
def walk (nx : Nat → Option Nat) : Nat → Option Nat → List Nat
  | 0, _ => []
  | _, none => []
  | fuel + 1, some a => a :: walk nx fuel (nx a)

/-- The first node from `first` on that satisfies `P`. -/
def search (nx : Nat → Option Nat) (P : Nat → Bool) : Nat → Option Nat → Option Nat
  | 0, _ => none
  | _, none => none
  | fuel + 1, some a => if P a then some a else search nx P fuel (nx a)

/-- The last node from `a` on. -/
def lastNode (nx : Nat → Option Nat) : Nat → Nat → Nat
  | 0, a => a
  | fuel + 1, a =>
    match nx a with
    | none => a
    | some b => lastNode nx fuel b

lemma setAt_of_ne {β : Type} (f : Nat → β) (p : Option Nat) (v : β) (a : Nat) (h : p ≠ some a) :
    setAt f p v a = f a := by
  cases p with
  | none => rfl
  | some b =>
    have hab : a ≠ b := fun hab => h (congrArg some hab.symm)
    exact update_of_ne hab v f

@[simp] lemma setAt_self {β : Type} (f : Nat → β) (a : Nat) (v : β) : setAt f (some a) v a = v := by
  simp [setAt]

lemma linked_congr {nx pv nx' pv' : Nat → Option Nat} {p : Option Nat} {l : List Nat}
    (hn : ∀ a ∈ l, nx' a = nx a) (hp : ∀ a ∈ l, pv' a = pv a) (h : Linked nx pv p l) :
    Linked nx' pv' p l := by
  induction l generalizing p with
  | nil => trivial
  | cons a l ih =>
    obtain ⟨h₁, h₂, h₃⟩ := h
    refine ⟨(hp a (by simp)).trans h₁, (hn a (by simp)).trans h₂, ?_⟩
    exact ih (fun b hb => hn b (by simp [hb])) (fun b hb => hp b (by simp [hb])) h₃

lemma linked_nx_mem {nx pv : Nat → Option Nat} {p : Option Nat} {l : List Nat} {a b : Nat}
    (h : Linked nx pv p l) (ha : a ∈ l) (hb : nx a = some b) : b ∈ l := by
  induction l generalizing p with
  | nil => simp at ha
  | cons c l ih =>
    obtain ⟨-, h₂, h₃⟩ := h
    rcases List.mem_cons.mp ha with rfl | ha
    · rw [h₂] at hb
      exact List.mem_cons_of_mem _ (List.mem_of_mem_head? hb)
    · exact List.mem_cons_of_mem _ (ih h₃ ha)

lemma linked_pv_mem {nx pv : Nat → Option Nat} {p : Option Nat} {l : List Nat} {a b : Nat}
    (h : Linked nx pv p l) (ha : a ∈ l) (hb : pv a = some b) : b ∈ l ∨ p = some b := by
  induction l generalizing p with
  | nil => simp at ha
  | cons c l ih =>
    obtain ⟨h₁, -, h₃⟩ := h
    rcases List.mem_cons.mp ha with rfl | ha
    · exact Or.inr (h₁.symm.trans hb)
    · rcases ih h₃ ha with h | h
      · exact Or.inl (List.mem_cons_of_mem _ h)
      · exact Or.inl (by simp [Option.some.inj h])

/-- A node is the first one, or the node before it is its predecessor. -/
lemma linked_pred {nx pv : Nat → Option Nat} {p : Option Nat} {l : List Nat} {a : Nat} (h : Linked nx pv p l)
    (ha : a ∈ l) : (pv a = p ∧ ∃ r, l = a :: r) ∨ ∃ s x r, pv a = some x ∧ l = s ++ x :: a :: r := by
  induction l generalizing p with
  | nil => simp at ha
  | cons b l ih =>
    obtain ⟨h₁, -, h₃⟩ := h
    rcases List.mem_cons.mp ha with rfl | ha
    · exact Or.inl ⟨h₁, l, rfl⟩
    · rcases ih h₃ ha with ⟨hp, r, rfl⟩ | ⟨s, x, r, hp, rfl⟩
      · exact Or.inr ⟨[], b, r, hp, rfl⟩
      · exact Or.inr ⟨b :: s, x, r, hp, rfl⟩

lemma linked_nx_append {nx pv : Nat → Option Nat} {p : Option Nat} {s l : List Nat} {a : Nat}
    (h : Linked nx pv p (s ++ a :: l)) : nx a = l.head? := by
  induction s generalizing p with
  | nil => exact h.2.1
  | cons b s ih => exact ih h.2.2

/-- A node is taken out by making its neighbours point at each other. -/
lemma linked_unlink {nx pv : Nat → Option Nat} {p : Option Nat} {l : List Nat} {a : Nat}
    (hd : l.Nodup) (hp : ∀ q, p = some q → q ∉ l) (h : Linked nx pv p l) (ha : a ∈ l) :
    Linked (setAt nx (pv a) (nx a)) (setAt pv (nx a) (pv a)) p (l.erase a) := by
  induction l generalizing p with
  | nil => simp at ha
  | cons b l ih =>
    obtain ⟨h₁, h₂, h₃⟩ := h
    obtain ⟨hb, hd'⟩ := List.nodup_cons.mp hd
    by_cases hab : b = a
    · subst hab
      rw [List.erase_cons_head]
      cases l with
      | nil => trivial
      | cons c l =>
        obtain ⟨hc₁, hc₂, hc₃⟩ := h₃
        have hnx : nx b = some c := by simpa using h₂
        obtain ⟨hcl, hdl⟩ := List.nodup_cons.mp hd'
        have hpn : ∀ x ∈ c :: l, setAt nx (pv b) (nx b) x = nx x := by
          intro x hx
          apply setAt_of_ne
          rw [h₁]
          rintro rfl
          exact hp x rfl (List.mem_cons_of_mem _ hx)
        refine ⟨by rw [hnx, setAt_self, h₁], (hpn c (by simp)).trans hc₂, ?_⟩
        refine linked_congr (fun x hx => hpn x (by simp [hx])) (fun x hx => ?_) hc₃
        apply setAt_of_ne
        rw [hnx]
        rintro ⟨rfl⟩
        exact hcl hx
    · have ha' : a ∈ l := by simpa [Ne.symm hab] using ha
      rw [List.erase_cons_tail (by simpa using hab)]
      have hrest := ih hd' (by rintro q ⟨rfl⟩; exact hb) h₃ ha'
      have hnb : nx a ≠ some b := fun hn => hb (linked_nx_mem h₃ ha' hn)
      refine ⟨by rw [setAt_of_ne _ _ _ _ hnb, h₁], ?_, hrest⟩
      cases l with
      | nil => simp at ha'
      | cons c l =>
        obtain ⟨hc₁, hc₂, hc₃⟩ := h₃
        by_cases hca : c = a
        · subst hca
          rw [hc₁, setAt_self, List.erase_cons_head, hc₂]
        · have ha'' : a ∈ l := by simpa [Ne.symm hca] using ha'
          rw [List.erase_cons_tail (by simpa using hca), setAt_of_ne, h₂]
          · rfl
          · intro hpa
            rcases linked_pv_mem hc₃ ha'' hpa with hm | hm
            · exact hb (List.mem_cons_of_mem _ hm)
            · exact hb (by simp [Option.some.inj hm])

/-- A new node in front of the first one. -/
lemma linked_push_front {nx pv : Nat → Option Nat} {l : List Nat} {a : Nat} (hd : l.Nodup)
    (ha : a ∉ l) (h : Linked nx pv none l) :
    Linked (update nx a l.head?) (setAt (update pv a none) l.head? (some a)) none (a :: l) := by
  cases l with
  | nil => exact ⟨by simp [setAt], by simp, trivial⟩
  | cons b l =>
    obtain ⟨-, h₂, h₃⟩ := h
    have hba : b ≠ a := fun hb => ha (by simp [hb])
    obtain ⟨hbl, -⟩ := List.nodup_cons.mp hd
    have hal : ∀ x ∈ l, x ≠ a := fun x hx hxa => ha (by simp [← hxa, hx])
    refine ⟨?_, by simp, by simp, by rw [update_of_ne hba, h₂], ?_⟩
    · rw [setAt_of_ne _ _ _ _ (by simpa using hba), update_self]
    · refine linked_congr (fun x hx => update_of_ne (hal x hx) _ _) (fun x hx => ?_) h₃
      have hbx : b ≠ x := fun hb => hbl (hb ▸ hx)
      rw [setAt_of_ne _ _ _ _ (by simpa using hbx), update_of_ne (hal x hx)]

/-- A new node behind the last one. -/
lemma linked_push_back {nx pv : Nat → Option Nat} {p : Option Nat} {l : List Nat} {a : Nat}
    (hd : l.Nodup) (ha : a ∉ l) (h : Linked nx pv p l) :
    Linked (setAt (update nx a none) l.getLast? (some a))
      (update pv a (l.getLast?.or p)) p (l ++ [a]) := by
  induction l generalizing p with
  | nil => exact ⟨by simp, by simp [setAt], trivial⟩
  | cons b l ih =>
    obtain ⟨h₁, h₂, h₃⟩ := h
    obtain ⟨hbl, hd'⟩ := List.nodup_cons.mp hd
    have hba : b ≠ a := fun hb => ha (by simp [hb])
    have hrest := ih hd' (fun hx => ha (by simp [hx])) h₃
    refine ⟨by rw [update_of_ne hba, h₁], ?_, ?_⟩
    · cases l with
      | nil => simp
      | cons c l =>
        rw [setAt_of_ne, update_of_ne hba, h₂]
        · rfl
        · intro hlast
          rw [List.getLast?_cons_cons] at hlast
          exact hbl (List.mem_of_mem_getLast? hlast)
    · cases l with
      | nil =>
        refine ⟨by simp, ?_, trivial⟩
        rw [setAt_of_ne _ _ _ _ (by simpa using hba), update_self]
        rfl
      | cons c l =>
        rw [List.getLast?_cons_cons]
        have hor : ((c :: l).getLast?.or p) = ((c :: l).getLast?.or (some b)) := by
          rw [List.getLast?_eq_some_getLast (List.cons_ne_nil c l)]
          rfl
        rw [hor]
        exact hrest

/-- The list in which `a` has changed places with the element before it. -/
def swapUp {α : Type} [DecidableEq α] (a : α) : List α → List α
  | x :: y :: l => if y = a then y :: x :: l else x :: swapUp a (y :: l)
  | l => l

lemma swapUp_of_not_mem {α : Type} [DecidableEq α] {a : α} (x : α) {l : List α} (h : a ∉ l) :
    swapUp a (x :: l) = x :: l := by
  induction l generalizing x with
  | nil => rfl
  | cons y l ih =>
    simp only [List.mem_cons, not_or] at h
    rw [swapUp, if_neg (Ne.symm h.1), ih y h.2]

lemma swapUp_append {α : Type} [DecidableEq α] {a x : α} {s l : List α} (hs : a ∉ s) (hx : x ≠ a) :
    swapUp a (s ++ x :: a :: l) = s ++ a :: x :: l := by
  induction s with
  | nil => simp [swapUp]
  | cons c s ih =>
    simp only [List.mem_cons, not_or] at hs
    have hrest := ih hs.2
    cases s with
    | nil =>
      simp only [List.cons_append, List.nil_append] at hrest ⊢
      rw [swapUp, if_neg hx, hrest]
    | cons e s =>
      simp only [List.mem_cons, not_or] at hs
      simp only [List.cons_append] at hrest ⊢
      rw [swapUp, if_neg (Ne.symm hs.2.1), hrest]

lemma swapUp_perm {α : Type} [DecidableEq α] (a : α) (l : List α) : (swapUp a l).Perm l := by
  induction l with
  | nil => exact .refl _
  | cons x l ih =>
    cases l with
    | nil => exact .refl _
    | cons y l =>
      rw [swapUp]
      split
      · exact .swap x y l
      · exact ih.cons x

lemma map_swapUp {α β : Type} [DecidableEq α] [DecidableEq β] {f : α → β} {a : α} {l : List α}
    (h : ∀ y ∈ l, f y = f a → y = a) : (swapUp a l).map f = swapUp (f a) (l.map f) := by
  induction l with
  | nil => rfl
  | cons x l ih =>
    cases l with
    | nil => rfl
    | cons y l =>
      have hrest := ih fun z hz => h z (List.mem_cons_of_mem x hz)
      by_cases hy : y = a
      · subst hy
        simp [swapUp]
      · have hfy : f y ≠ f a := fun he => hy (h y (by simp) he)
        simp only [swapUp, if_neg hy, List.map_cons, if_neg hfy] at hrest ⊢
        rw [hrest]

/-- Two neighbours change places. -/
lemma linked_swap {nx pv : Nat → Option Nat} {p : Option Nat} {s l : List Nat} {x a : Nat}
    (hd : (s ++ x :: a :: l).Nodup) (hp : ∀ q, p = some q → q ∉ s ++ x :: a :: l)
    (h : Linked nx pv p (s ++ x :: a :: l)) :
    Linked (update (update (setAt nx (pv x) (some a)) x (nx a)) a (some x))
      (update (update (setAt pv (nx a) (some x)) x (some a)) a (pv x)) p (s ++ a :: x :: l) := by
  induction s generalizing p with
  | nil =>
    obtain ⟨h₁, -, h₂, h₃, h₄⟩ := h
    simp only [List.nil_append, List.nodup_cons, List.mem_cons, not_or] at hd
    obtain ⟨⟨hxa, hxl⟩, hal, hd'⟩ := hd
    have hout : ∀ b ∈ l, b ≠ x ∧ b ≠ a ∧ pv x ≠ some b := by
      intro b hb
      refine ⟨fun he => hxl (he ▸ hb), fun he => hal (he ▸ hb), fun he => ?_⟩
      exact hp b (h₁.symm.trans he) (by simp [hb])
    have hnx : ∀ b ∈ l, update (update (setAt nx (pv x) (some a)) x (nx a)) a (some x) b = nx b := by
      intro b hb
      obtain ⟨hbx, hba, hbp⟩ := hout b hb
      rw [update_of_ne hba, update_of_ne hbx, setAt_of_ne _ _ _ _ hbp]
    refine ⟨by rw [update_self, h₁], by simp, ?_, ?_, ?_⟩
    · rw [update_of_ne hxa, update_self]
    · rw [update_of_ne hxa, update_self, h₃]
    · cases l with
      | nil => trivial
      | cons b l =>
        obtain ⟨hb₁, hb₂, hb₃⟩ := h₄
        obtain ⟨hbx, hba, -⟩ := hout b (by simp)
        obtain ⟨hbl, -⟩ := List.nodup_cons.mp hd'
        refine ⟨?_, (hnx b (by simp)).trans hb₂, ?_⟩
        · rw [update_of_ne hba, update_of_ne hbx, h₃, List.head?_cons, setAt_self]
        · refine linked_congr (fun c hc => hnx c (by simp [hc])) (fun c hc => ?_) hb₃
          obtain ⟨hcx, hca, -⟩ := hout c (by simp [hc])
          have hbc : some b ≠ some c := fun he => hbl (Option.some.inj he ▸ hc)
          rw [update_of_ne hca, update_of_ne hcx, h₃, List.head?_cons, setAt_of_ne _ _ _ _ hbc]
  | cons c s ih =>
    obtain ⟨h₁, h₂, h₃⟩ := h
    rw [List.cons_append, List.nodup_cons] at hd
    obtain ⟨hc, hd'⟩ := hd
    have hrest := ih hd' (by rintro q ⟨rfl⟩; exact hc) h₃
    have hcx : c ≠ x := fun he => hc (by simp [he])
    have hca : c ≠ a := fun he => hc (by simp [he])
    refine ⟨?_, ?_, hrest⟩
    · rw [update_of_ne hca, update_of_ne hcx, setAt_of_ne, h₁]
      -- what follows the second of the two is behind `c` in the list
      intro hn
      exact hc (linked_nx_mem h₃ (by simp) hn)
    · rw [update_of_ne hca, update_of_ne hcx]
      cases s with
      | nil =>
        rw [h₃.1, setAt_self]
        rfl
      | cons e s =>
        rw [setAt_of_ne, h₂]
        · rfl
        · intro hn
          rcases linked_pv_mem h₃.2.2 (by simp) hn with hm | hm
          · exact hc (List.mem_cons_of_mem _ hm)
          · exact hc (by simp [Option.some.inj hm])

/-- A node that is not the first one goes to the front. -/
lemma linked_move_front {nx pv : Nat → Option Nat} {l : List Nat} {a : Nat} (hd : l.Nodup)
    (h : Linked nx pv none l) (ha : a ∈ l) (hf : l.head? ≠ some a) :
    Linked (update (setAt nx (pv a) (nx a)) a l.head?)
      (setAt (update (setAt pv (nx a) (pv a)) a none) l.head? (some a)) none (a :: l.erase a) := by
  have hhead : (l.erase a).head? = l.head? := by
    cases l with
    | nil => simp at ha
    | cons b l =>
      have hba : b ≠ a := fun he => hf (by simp [he])
      rw [List.erase_cons_tail (by simpa using hba)]
      rfl
  have hpush := linked_push_front (hd.erase a) (hd.not_mem_erase) (linked_unlink hd (by simp) h ha)
  rwa [hhead] at hpush

lemma head?_erase {nx pv : Nat → Option Nat} {l : List Nat} {a : Nat}
    (h : Linked nx pv none l) (ha : a ∈ l) :
    (l.erase a).head? = if pv a = none then nx a else l.head? := by
  cases l with
  | nil => simp at ha
  | cons b l =>
    obtain ⟨h₁, h₂, h₃⟩ := h
    by_cases hab : b = a
    · subst hab
      simp [h₁, h₂]
    · have ha' : a ∈ l := by simpa [Ne.symm hab] using ha
      rw [List.erase_cons_tail (by simpa using hab), if_neg]
      · rfl
      · intro hn
        obtain ⟨s, t, rfl⟩ := List.append_of_mem ha'
        have hpre : ∀ (q : Nat) (s : List Nat), Linked nx pv (some q) (s ++ a :: t) → pv a ≠ none := by
          intro q s
          induction s generalizing q with
          | nil => intro hl; rw [hl.1]; simp
          | cons x s ih => intro hl; exact ih x hl.2.2
        exact hpre b s h₃ hn

lemma getLast?_erase {nx pv : Nat → Option Nat} {p : Option Nat} {l : List Nat} {a : Nat}
    (hd : l.Nodup) (h : Linked nx pv p l) (ha : a ∈ l) :
    (l.erase a).getLast?.or p = if nx a = none then pv a else l.getLast?.or p := by
  induction l generalizing p with
  | nil => simp at ha
  | cons b l ih =>
    obtain ⟨h₁, h₂, h₃⟩ := h
    obtain ⟨hbl, hd'⟩ := List.nodup_cons.mp hd
    by_cases hab : b = a
    · subst hab
      rw [List.erase_cons_head, h₁, h₂]
      cases l with
      | nil => simp
      | cons c l => simp [List.getLast?_cons_cons]
    · have ha' : a ∈ l := by simpa [Ne.symm hab] using ha
      rw [List.erase_cons_tail (by simpa using hab)]
      have hi := ih hd' h₃ ha'
      have hcons : ∀ m : List Nat, (b :: m).getLast?.or p = m.getLast?.or (some b) := by
        intro m
        cases m with
        | nil => simp
        | cons c m =>
          rw [List.getLast?_cons_cons, List.getLast?_eq_some_getLast (List.cons_ne_nil c m)]
          rfl
      rw [hcons, hcons, hi]

lemma walk_linked {nx pv : Nat → Option Nat} {p : Option Nat} {l : List Nat}
    (h : Linked nx pv p l) {fuel : Nat} (hf : l.length ≤ fuel) : walk nx fuel l.head? = l := by
  induction l generalizing p fuel with
  | nil => cases fuel <;> rfl
  | cons a l ih =>
    cases fuel with
    | zero => simp at hf
    | succ fuel =>
      obtain ⟨-, h₂, h₃⟩ := h
      simp only [List.head?_cons, walk, h₂]
      rw [ih h₃ (by simpa using hf)]

lemma search_linked {nx pv : Nat → Option Nat} {p : Option Nat} {l : List Nat} (P : Nat → Bool)
    (h : Linked nx pv p l) {fuel : Nat} (hf : l.length ≤ fuel) :
    search nx P fuel l.head? = l.find? P := by
  induction l generalizing p fuel with
  | nil => cases fuel <;> rfl
  | cons a l ih =>
    cases fuel with
    | zero => simp at hf
    | succ fuel =>
      obtain ⟨-, h₂, h₃⟩ := h
      simp only [List.head?_cons, search, List.find?_cons, h₂]
      cases hP : P a with
      | true => simp
      | false => simpa using ih h₃ (by simpa using hf)

lemma lastNode_linked {nx pv : Nat → Option Nat} {p : Option Nat} {l : List Nat} {a : Nat}
    (h : Linked nx pv p (a :: l)) {fuel : Nat} (hf : l.length ≤ fuel) :
    (a :: l).getLast? = some (lastNode nx fuel a) := by
  induction l generalizing p a fuel with
  | nil =>
    have hn : nx a = none := h.2.1
    cases fuel with
    | zero => rfl
    | succ fuel => simp [lastNode, hn]
  | cons b l ih =>
    cases fuel with
    | zero => simp at hf
    | succ fuel =>
      have hn : nx a = some b := h.2.1
      rw [List.getLast?_cons_cons, ih h.2.2 (by simpa using hf)]
      simp [lastNode, hn]

end UnfsClient.Lib.DoublyLinked
