import Mathlib

/-!
# Most recently used elements

`recent l` lists the elements of `l` once each, the one used last first. The first `n` of them are
what a cache of `n` places holds: a hit moves an element to the front, a miss puts a new one there.
-/

namespace UnfsClient.Lib.Recency

variable {α : Type} [BEq α]

/-- The elements of a list of uses, by their last use. -/
def recent (uses : List α) : List α := uses.foldl (fun r a => a :: r.erase a) []

lemma recent_concat (uses : List α) (a : α) : recent (uses ++ [a]) = a :: (recent uses).erase a := by
  simp [recent]

variable [LawfulBEq α]

/-- A hit: the element is among the first `n + 1`. -/
lemma take_erase_of_mem {l : List α} {a : α} {n : Nat} (h : a ∈ l.take (n + 1)) :
    (l.erase a).take n = (l.take (n + 1)).erase a := by
  induction l generalizing n with
  | nil => simp
  | cons b l ih =>
    by_cases hb : b = a
    · subst hb
      simp
    · rw [List.take_succ_cons, List.mem_cons] at h
      have hl : a ∈ l.take n := h.resolve_left (Ne.symm hb)
      cases n with
      | zero => simp at hl
      | succ n =>
        rw [List.erase_cons_tail (by simpa using hb), List.take_succ_cons, ih hl, List.take_succ_cons (i := n + 1),
          List.erase_cons_tail (by simpa using hb)]

/-- A miss: the element is not among the first `n + 1`, so the last of them goes. -/
lemma take_erase_of_not_mem {l : List α} {a : α} {n : Nat} (h : a ∉ l.take (n + 1)) :
    (l.erase a).take n = l.take n := by
  induction l generalizing n with
  | nil => simp
  | cons b l ih =>
    rw [List.take_succ_cons, List.mem_cons, not_or] at h
    rw [List.erase_cons_tail (by simpa using Ne.symm h.1)]
    cases n with
    | zero => rfl
    | succ n => rw [List.take_succ_cons, List.take_succ_cons, ih h.2]

end UnfsClient.Lib.Recency
