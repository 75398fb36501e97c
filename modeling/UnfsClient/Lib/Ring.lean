import Mathlib

/-!
# Circular doubly linked lists

The list of the Linux kernel: a head and the entries are nodes with a `next` and a `prev` pointer,
the list runs from the head through the entries and back to the head, and an empty list is a head
that points at itself. A node that is not in a list may hold null pointers.
-/

namespace UnfsClient.Lib

open Function

variable {A : Type} [DecidableEq A]

/-- The two pointers of every node. -/
structure Links (A : Type) where
  next : A → Option A
  prev : A → Option A

namespace Links

/-- A node that points at itself. -/
def init (s : Links A) (a : A) : Links A where
  next := update s.next a (some a)
  prev := update s.prev a (some a)

/-- `new` is put between `prev` and `next`. -/
def add (s : Links A) (new prev next : A) : Links A where
  next := update (update s.next new (some next)) prev (some new)
  prev := update (update s.prev next (some new)) new (some prev)

/-- `prev` and `next` point at each other, and `entry` at nothing. -/
def del (s : Links A) (entry prev next : A) : Links A where
  next := update (update s.next prev (some next)) entry none
  prev := update (update s.prev next (some prev)) entry none

def Adj (s : Links A) (x y : A) : Prop := s.next x = some y ∧ s.prev y = some x

/-- The links run from `h` through `l` and back to `h`. -/
structure Ring (s : Links A) (h : A) (l : List A) : Prop where
  chain : (h :: l ++ [h]).IsChain s.Adj
  nodup : (h :: l).Nodup

omit [DecidableEq A] in
/-- A chain is kept when `next` is kept in all but its last node and `prev` in all but its first. -/
lemma isChain_congr {s s' : Links A} {l : List A} (h : l.IsChain s.Adj)
    (hnext : ∀ x ∈ l.dropLast, s'.next x = s.next x) (hprev : ∀ x ∈ l.tail, s'.prev x = s.prev x) :
    l.IsChain s'.Adj := by
  induction l with
  | nil => exact .nil
  | cons a l ih =>
    cases l with
    | nil => exact .singleton a
    | cons b l =>
      obtain ⟨hab, hl⟩ := List.isChain_cons_cons.mp h
      rw [List.dropLast_cons_cons] at hnext
      have hna := hnext a List.mem_cons_self
      have hpb := hprev b List.mem_cons_self
      refine List.isChain_cons_cons.mpr ⟨⟨hna.trans hab.1, hpb.trans hab.2⟩, ?_⟩
      apply ih hl
      · intro x hx
        exact hnext x (List.mem_cons_of_mem _ hx)
      · intro x hx
        exact hprev x (List.mem_cons_of_mem _ hx)

namespace Ring

variable {s : Links A} {h a : A} {l l₁ l₂ : List A}

omit [DecidableEq A] in
/-- Links that differ outside the list only. -/
lemma congr {s' : Links A} (hr : s.Ring h l) (hnext : ∀ x ∈ h :: l, s'.next x = s.next x)
    (hprev : ∀ x ∈ h :: l, s'.prev x = s.prev x) : s'.Ring h l where
  chain := by
    apply isChain_congr hr.chain
    · intro x hx
      rw [List.dropLast_concat] at hx
      exact hnext x hx
    · intro x hx
      apply hprev x
      rw [List.cons_append, List.tail_cons] at hx
      cases List.mem_append.mp hx with
      | inl hl => exact List.mem_cons_of_mem _ hl
      | inr hh => exact List.mem_cons.mpr (.inl (List.mem_singleton.mp hh))
  nodup := hr.nodup

lemma of_init (s : Links A) (h : A) : (s.init h).Ring h [] where
  chain := by
    refine List.isChain_cons_cons.mpr ⟨⟨?_, ?_⟩, .singleton h⟩
    · exact update_self ..
    · exact update_self ..
  nodup := List.nodup_singleton h

omit [DecidableEq A] in
/-- The first entry, which is the head itself when there is none. -/
lemma next_head (hr : s.Ring h l) : s.next h = some (l.headD h) := by
  have hchain := hr.chain
  cases l with
  | nil => exact (List.isChain_cons_cons.mp hchain).1.1
  | cons b l => exact (List.isChain_cons_cons.mp hchain).1.1

/-- The pointers of three nodes outside the list do not matter to it. -/
lemma add_other {p n : A} (hr : s.Ring h l) (ha : a ∉ h :: l) (hp : p ∉ h :: l) (hn : n ∉ h :: l) :
    (s.add a p n).Ring h l := by
  apply hr.congr
  · intro x hx
    simp only [add, update_of_ne (ne_of_mem_of_not_mem hx hp), update_of_ne (ne_of_mem_of_not_mem hx ha)]
  · intro x hx
    simp only [add, update_of_ne (ne_of_mem_of_not_mem hx ha), update_of_ne (ne_of_mem_of_not_mem hx hn)]

lemma del_other {p n : A} (hr : s.Ring h l) (ha : a ∉ h :: l) (hp : p ∉ h :: l) (hn : n ∉ h :: l) :
    (s.del a p n).Ring h l := by
  apply hr.congr
  · intro x hx
    simp only [del, update_of_ne (ne_of_mem_of_not_mem hx ha), update_of_ne (ne_of_mem_of_not_mem hx hp)]
  · intro x hx
    simp only [del, update_of_ne (ne_of_mem_of_not_mem hx ha), update_of_ne (ne_of_mem_of_not_mem hx hn)]

lemma init_other (hr : s.Ring h l) (ha : a ∉ h :: l) : (s.init a).Ring h l := by
  apply hr.congr
  · intro x hx
    exact update_of_ne (ne_of_mem_of_not_mem hx ha) ..
  · intro x hx
    exact update_of_ne (ne_of_mem_of_not_mem hx ha) ..

omit [DecidableEq A] in
/-- The list cut at an entry, whose pointers are the ends of the two parts. -/
lemma cut (hr : s.Ring h (l₁ ++ a :: l₂)) :
    (h :: l₁).IsChain s.Adj ∧ (l₂ ++ [h]).IsChain s.Adj ∧
      (∃ p, s.prev a = some p ∧ (h :: l₁).getLast? = some p) ∧
      ∃ n, s.next a = some n ∧ (l₂ ++ [h]).head? = some n := by
  have hsplit : h :: (l₁ ++ a :: l₂) ++ [h] = (h :: l₁) ++ a :: (l₂ ++ [h]) := by simp
  have hchain := hr.chain
  rw [hsplit] at hchain
  obtain ⟨hfront, hrest, hjoin⟩ := List.isChain_append.mp hchain
  obtain ⟨hnext, hback⟩ := List.isChain_cons.mp hrest
  obtain ⟨p, hp⟩ : ∃ p, (h :: l₁).getLast? = some p := Option.ne_none_iff_exists'.mp (by simp)
  obtain ⟨n, hn⟩ : ∃ n, (l₂ ++ [h]).head? = some n := Option.ne_none_iff_exists'.mp (by simp)
  exact ⟨hfront, hback, ⟨p, (hjoin p hp a rfl).2, hp⟩, n, (hnext n hn).1, hn⟩

omit [DecidableEq A] in
/-- The entry after an entry, which is the head after the last one. -/
lemma next_entry (hr : s.Ring h (l₁ ++ a :: l₂)) : s.next a = some (l₂.headD h) := by
  obtain ⟨-, -, -, n, hn, hhead⟩ := hr.cut
  rw [hn, ← hhead]
  cases l₂ with
  | nil => rfl
  | cons b l => rfl

omit [DecidableEq A] in
lemma getLast_notMem {l : List A} {p : A} (hd : l.Nodup) (hp : l.getLast? = some p) : p ∉ l.dropLast := by
  obtain ⟨l', rfl⟩ := List.getLast?_eq_some_iff.mp hp
  rw [List.dropLast_concat]
  have hdisj := List.disjoint_of_nodup_append hd
  exact fun hmem => hdisj hmem (List.mem_singleton_self p)

omit [DecidableEq A] in
lemma head_notMem {l : List A} {n : A} (hd : l.Nodup) (hn : l.head? = some n) : n ∉ l.tail := by
  obtain ⟨l', rfl⟩ := List.head?_eq_some_iff.mp hn
  exact (List.nodup_cons.mp hd).1

omit [DecidableEq A] in
/-- The last entry, which is the head itself when there is none. -/
lemma prev_head (hr : s.Ring h l) : ∃ p ∈ h :: l, s.prev h = some p ∧ (h :: l).getLast? = some p := by
  obtain ⟨-, -, hjoin⟩ := List.isChain_append.mp hr.chain
  obtain ⟨p, hp⟩ : ∃ p, (h :: l).getLast? = some p := Option.ne_none_iff_exists'.mp (by simp)
  exact ⟨p, List.mem_of_getLast? hp, (hjoin p hp h rfl).2, hp⟩

/-- A new entry in front of the head is the last one. -/
lemma add_tail {p : A} (hr : s.Ring h l) (ha : a ∉ h :: l) (hp : s.prev h = some p) :
    (s.add a p h).Ring h (l ++ [a]) := by
  obtain ⟨hfront, -, -⟩ := List.isChain_append.mp hr.chain
  obtain ⟨q, hqmem, hqprev, hq⟩ := hr.prev_head
  obtain rfl : q = p := Option.some.inj (hqprev.symm.trans hp)
  have haq : a ≠ q := fun e => ha (e ▸ hqmem)
  have hah : h ≠ a := fun e => ha (e ▸ List.mem_cons_self)
  constructor
  · have hsplit : h :: (l ++ [a]) ++ [h] = (h :: l) ++ [a, h] := by simp
    rw [hsplit]
    refine List.isChain_append.mpr ⟨?_, ?_, ?_⟩
    · apply isChain_congr hfront
      · intro x hx
        have hxq : x ≠ q := fun e => getLast_notMem hr.nodup hq (e ▸ hx)
        have hxa : x ≠ a := fun e => ha (e ▸ List.mem_of_mem_dropLast hx)
        simp only [add, update_of_ne hxq, update_of_ne hxa]
      · intro x hx
        have hxh : x ≠ h := fun e => (List.nodup_cons.mp hr.nodup).1 (e ▸ hx)
        have hxa : x ≠ a := fun e => ha (e ▸ List.mem_cons_of_mem _ hx)
        simp only [add, update_of_ne hxa, update_of_ne hxh]
    · refine List.isChain_cons_cons.mpr ⟨⟨?_, ?_⟩, .singleton h⟩
      · simp only [add, update_of_ne haq, update_self]
      · simp only [add, update_of_ne hah, update_self]
    · intro x hx y hy
      obtain rfl : x = q := Option.some.inj (hx.symm.trans hq)
      obtain rfl : y = a := (Option.some.inj hy).symm
      exact ⟨update_self .., update_self ..⟩
  · have hnd : (h :: l ++ [a]).Nodup := by
      refine List.Nodup.append hr.nodup (List.nodup_singleton a) ?_
      intro x hx hxa
      exact ha (List.mem_singleton.mp hxa ▸ hx)
    exact hnd

/-- Taking an entry out leaves the entries around it. -/
lemma del_entry {p n : A} (hr : s.Ring h (l₁ ++ a :: l₂)) (hp : s.prev a = some p)
    (hn : s.next a = some n) : (s.del a p n).Ring h (l₁ ++ l₂) := by
  obtain ⟨hfront, hback, ⟨p', hp', hlast⟩, n', hn', hhead⟩ := hr.cut
  obtain rfl : p' = p := Option.some.inj (hp'.symm.trans hp)
  obtain rfl : n' = n := Option.some.inj (hn'.symm.trans hn)
  have hd : (h :: l₁ ++ a :: l₂).Nodup := hr.nodup
  obtain ⟨hd₁, hd₂, hdisj⟩ := List.nodup_append'.mp hd
  have hpmem : p' ∈ h :: l₁ := List.mem_of_getLast? hlast
  have hnmem : n' ∈ l₂ ++ [h] := List.mem_of_mem_head? hhead
  have ha₁ : a ∉ h :: l₁ := fun hm => hdisj hm List.mem_cons_self
  have ha₂ : a ∉ l₂ := (List.nodup_cons.mp hd₂).1
  have hh₁ : h ∉ l₁ := (List.nodup_cons.mp hd₁).1
  have hh₂ : h ∉ l₂ := fun hm => hdisj List.mem_cons_self (List.mem_cons_of_mem _ hm)
  have hd₂h : (l₂ ++ [h]).Nodup := by
    refine List.Nodup.append (List.nodup_cons.mp hd₂).2 (List.nodup_singleton h) ?_
    intro x hx hxh
    exact hh₂ (List.mem_singleton.mp hxh ▸ hx)
  constructor
  · have hsplit : h :: (l₁ ++ l₂) ++ [h] = (h :: l₁) ++ (l₂ ++ [h]) := by simp
    rw [hsplit]
    refine List.isChain_append.mpr ⟨?_, ?_, ?_⟩
    · apply isChain_congr hfront
      · intro x hx
        have hxp : x ≠ p' := fun e => getLast_notMem hd₁ hlast (e ▸ hx)
        have hxa : x ≠ a := fun e => ha₁ (e ▸ List.mem_of_mem_dropLast hx)
        simp only [del, update_of_ne hxa, update_of_ne hxp]
      · intro x hx
        have hxa : x ≠ a := fun e => ha₁ (e ▸ List.mem_cons_of_mem _ hx)
        have hxn : x ≠ n' := by
          rintro rfl
          cases List.mem_append.mp hnmem with
          | inl hm => exact hdisj (List.mem_cons_of_mem _ hx) (List.mem_cons_of_mem _ hm)
          | inr hm => exact hh₁ (List.mem_singleton.mp hm ▸ hx)
        simp only [del, update_of_ne hxa, update_of_ne hxn]
    · apply isChain_congr hback
      · intro x hx
        rw [List.dropLast_concat] at hx
        have hxa : x ≠ a := fun e => ha₂ (e ▸ hx)
        have hxp : x ≠ p' := by
          rintro rfl
          exact hdisj hpmem (List.mem_cons_of_mem _ hx)
        simp only [del, update_of_ne hxa, update_of_ne hxp]
      · intro x hx
        have hxn : x ≠ n' := fun e => head_notMem hd₂h hhead (e ▸ hx)
        have hxa : x ≠ a := by
          rintro rfl
          cases List.mem_append.mp (List.mem_of_mem_tail hx) with
          | inl hm => exact ha₂ hm
          | inr hm => exact ha₁ (List.mem_singleton.mp hm ▸ List.mem_cons_self)
        simp only [del, update_of_ne hxa, update_of_ne hxn]
    · intro x hx y hy
      obtain rfl : x = p' := Option.some.inj (hx.symm.trans hlast)
      obtain rfl : y = n' := Option.some.inj (hy.symm.trans hhead)
      have hxa : x ≠ a := fun e => ha₁ (e ▸ hpmem)
      have hya : y ≠ a := by
        rintro rfl
        cases List.mem_append.mp hnmem with
        | inl hm => exact ha₂ hm
        | inr hm => exact ha₁ (List.mem_singleton.mp hm ▸ List.mem_cons_self)
      constructor
      · simp only [del, update_of_ne hxa, update_self]
      · simp only [del, update_of_ne hya, update_self]
  · have hsub : (h :: (l₁ ++ l₂)).Sublist (h :: l₁ ++ a :: l₂) :=
      (List.Sublist.refl (h :: l₁)).append (List.sublist_cons_self a l₂)
    exact hd.sublist hsub

end Ring

end Links

end UnfsClient.Lib
