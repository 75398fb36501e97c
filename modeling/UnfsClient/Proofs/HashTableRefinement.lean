import UnfsClient.Proofs.HashTableInvariant

/-!
# The hash table as an ordered dictionary

`GhtRefines t d`: the table `t` holds the pairs of `d`, oldest first. The exported operations
act on `d` the way their names say, so the RPC layer never looks at buckets and links again.
-/

namespace UnfsClient.Proofs

open Function Lib DoublyLinked

variable {δ : Type}

/-- The dictionary without the pair of key `k`. -/
def dropKey (d : List (Bytes × δ)) (k : Bytes) : List (Bytes × δ) := d.filter fun e => e.1 ≠ k

def GhtRefines (t : GhtHashTable δ) (d : List (Bytes × δ)) : Prop :=
  t.iAutomaticRehash = false ∧ ∃ order chain, GhtInv t order chain ∧
    (order.map fun p => (t.key p, t.pData p)) = d.map fun e => (e.1, some e.2)

lemma GhtRefines.entries_eq {t : GhtHashTable δ} {d : List (Bytes × δ)} (h : GhtRefines t d) :
    ghtEntries t = d.map fun e => (e.1, some e.2) := by
  obtain ⟨-, order, chain, hi, hd⟩ := h
  rw [hi.entries_eq, hd]

lemma GhtRefines.keys_eq {t : GhtHashTable δ} {d : List (Bytes × δ)} {order : List Nat}
    (hd : (order.map fun p => (t.key p, t.pData p)) = d.map fun e => (e.1, some e.2)) :
    order.map t.key = d.map Prod.fst := by
  have hf := congrArg (List.map Prod.fst) hd
  simpa [Function.comp_def] using hf

lemma GhtRefines.keys_nodup {t : GhtHashTable δ} {d : List (Bytes × δ)} (h : GhtRefines t d) :
    (d.map Prod.fst).Nodup := by
  obtain ⟨-, order, chain, hi, hd⟩ := h
  rw [← GhtRefines.keys_eq hd]
  exact hi.keysNodup

lemma dropKey_cons_self {k : Bytes} {x : δ} {d : List (Bytes × δ)}
    (hnd : (((k, x) :: d).map Prod.fst).Nodup) : dropKey ((k, x) :: d) k = d := by
  simp only [List.map_cons, List.nodup_cons] at hnd
  unfold dropKey
  rw [List.filter_cons_of_neg (by simp), List.filter_eq_self]
  intro e he
  have hne : e.1 ≠ k := fun hek => hnd.1 (List.mem_map.mpr ⟨e, he, hek⟩)
  simpa using hne

lemma ghtRefines_create (n : Nat) : GhtRefines (ghtCreate δ n) [] :=
  ⟨rfl, [], fun _ => [], ghtInv_create n, rfl⟩

/-- A new entry is the last pair of the dictionary. -/
lemma GhtInv.link_entries {t : GhtHashTable δ} {d : List (Bytes × δ)} {order : List Nat}
    {chain : Nat → List Nat} (hi : GhtInv t order chain)
    (hd : (order.map fun p => (t.key p, t.pData p)) = d.map fun e => (e.1, some e.2)) (x : δ) (k : Bytes) :
    ((order ++ [t.fresh]).map fun p => ((ghtLink t x k).key p, (ghtLink t x k).pData p)) =
      (d ++ [(k, x)]).map fun e => (e.1, some e.2) := by
  have hold : (order.map fun p => ((ghtLink t x k).key p, (ghtLink t x k).pData p)) =
      order.map fun p => (t.key p, t.pData p) := by
    apply List.map_congr_left
    intro p hp
    have hpf : p ≠ t.fresh := Nat.ne_of_lt (hi.old p hp)
    simp only [ghtLink, update_of_ne hpf]
  rw [List.map_append, List.map_append, hold, hd]
  simp [ghtLink]

lemma GhtRefines.insert_new {t : GhtHashTable δ} {d : List (Bytes × δ)} (h : GhtRefines t d)
    (x : δ) (k : Bytes) (hk : k ∉ d.map Prod.fst) :
    (ghtInsert t x k).2 = 0 ∧ GhtRefines (ghtInsert t x k).1 (d ++ [(k, x)]) := by
  obtain ⟨hauto, order, chain, hi, hd⟩ := h
  have hne : ∀ p ∈ order, t.key p ≠ k := by
    intro p hp he
    rw [← GhtRefines.keys_eq hd] at hk
    exact hk (List.mem_map.mpr ⟨p, hp, he⟩)
  have hsearch : searchInBucket t (ghtBucket t k) k = none := by
    cases hs : searchInBucket t (ghtBucket t k) k with
    | none => rfl
    | some p => exact absurd (hi.search_some hs).2.1 (hne p (hi.search_some hs).1)
  have hins : ghtInsert t x k = (ghtLink t x k, 0) := by
    simp [ghtInsert, hsearch, hauto]
  rw [hins]
  exact ⟨rfl, hauto, _, _, hi.link x k hne, hi.link_entries hd x k⟩

lemma GhtRefines.first_nil {t : GhtHashTable δ} (h : GhtRefines t []) :
    ghtFirst t = (none, []) := by
  obtain ⟨-, order, chain, hi, hd⟩ := h
  have ho : order = [] := by simpa using hd
  unfold ghtFirst
  rw [hi.oldest, ho]
  rfl

lemma GhtRefines.first_cons {t : GhtHashTable δ} {k : Bytes} {x : δ} {d : List (Bytes × δ)}
    (h : GhtRefines t ((k, x) :: d)) : ghtFirst t = (some x, k) := by
  obtain ⟨-, order, chain, hi, hd⟩ := h
  cases order with
  | nil => simp at hd
  | cons p order =>
    simp only [List.map_cons, List.cons.injEq, Prod.mk.injEq] at hd
    unfold ghtFirst
    rw [hi.oldest]
    simp [hd.1.1, hd.1.2]

/-- The dictionary without an entry. -/
lemma GhtInv.erase_entries {t : GhtHashTable δ} {d : List (Bytes × δ)} {order : List Nat}
    {chain : Nat → List Nat} (hi : GhtInv t order chain)
    (hd : (order.map fun p => (t.key p, t.pData p)) = d.map fun e => (e.1, some e.2))
    {p : Nat} (hp : p ∈ order) :
    ((order.erase p).map fun q => (t.key q, t.pData q)) =
      (dropKey d (t.key p)).map fun e => (e.1, some e.2) := by
  have herase : order.erase p = order.filter fun q => t.key q ≠ t.key p := by
    rw [hi.orderNodup.erase_eq_filter]
    apply List.filter_congr
    intro q hq
    have hqp : q = p ↔ t.key q = t.key p := ⟨fun he => by rw [he], hi.key_inj hq hp⟩
    simp only [bne, ne_eq, decide_not, Bool.not_inj_iff]
    exact decide_eq_decide.mpr hqp
  have hfm := congrArg (List.filter fun e : Bytes × Option δ => decide (e.1 ≠ t.key p)) hd
  rw [List.filter_map, List.filter_map] at hfm
  rw [herase]
  exact hfm

/-- Unlinking the entry of a key drops that key from the dictionary. -/
lemma ghtRefines_unlink {t : GhtHashTable δ} {d : List (Bytes × δ)} {order : List Nat}
    {chain : Nat → List Nat} (hauto : t.iAutomaticRehash = false) (hi : GhtInv t order chain)
    (hd : (order.map fun p => (t.key p, t.pData p)) = d.map fun e => (e.1, some e.2))
    {p : Nat} (hp : p ∈ order) :
    GhtRefines (ghtUnlink t (t.pBucketidx p) p) (dropKey d (t.key p)) :=
  ⟨hauto, _, _, hi.unlink hp, hi.erase_entries hd hp⟩

lemma GhtRefines.remove_absent {t : GhtHashTable δ} {d : List (Bytes × δ)} (h : GhtRefines t d)
    (k : Bytes) (hk : k ∉ d.map Prod.fst) : ghtRemove t k = (t, none) := by
  obtain ⟨-, order, chain, hi, hd⟩ := h
  unfold ghtRemove
  dsimp only
  cases hs : searchInBucket t (ghtBucket t k) k with
  | none => rfl
  | some p =>
    obtain ⟨hp, hpk, -⟩ := hi.search_some hs
    rw [← GhtRefines.keys_eq hd] at hk
    exact absurd (List.mem_map.mpr ⟨p, hp, hpk⟩) hk

lemma GhtRefines.remove_present {t : GhtHashTable δ} {d : List (Bytes × δ)} (h : GhtRefines t d)
    {k : Bytes} {x : δ} (hk : (k, x) ∈ d) :
    (ghtRemove t k).2 = some x ∧ GhtRefines (ghtRemove t k).1 (dropKey d k) := by
  obtain ⟨hauto, order, chain, hi, hd⟩ := h
  have hmem : (k, some x) ∈ order.map fun p => (t.key p, t.pData p) := by
    rw [hd]
    exact List.mem_map.mpr ⟨(k, x), hk, rfl⟩
  obtain ⟨q, hq, hqe⟩ := List.mem_map.mp hmem
  obtain ⟨hqk, hqx⟩ := Prod.mk.inj hqe
  unfold ghtRemove
  dsimp only
  cases hs : searchInBucket t (ghtBucket t k) k with
  | none => exact absurd hqk (hi.search_none hs q hq)
  | some p =>
    obtain ⟨hp, hpk, hpb⟩ := hi.search_some hs
    obtain rfl : p = q := hi.key_inj hp hq (hpk.trans hqk.symm)
    refine ⟨hqx, ?_⟩
    have hr := ghtRefines_unlink hauto hi hd hp
    rwa [hpb, hpk] at hr

/-- The oldest-entry shortcut removes the head of the dictionary. -/
lemma GhtRefines.removeFirst_cons {t : GhtHashTable δ} {k : Bytes} {x : δ}
    {d : List (Bytes × δ)} (h : GhtRefines t ((k, x) :: d)) :
    (ghtRemoveFirst t).2 = some x ∧ GhtRefines (ghtRemoveFirst t).1 d := by
  have hnd := h.keys_nodup
  obtain ⟨hauto, order, chain, hi, hd⟩ := h
  cases order with
  | nil => simp at hd
  | cons p order =>
    have hhead := hd
    simp only [List.map_cons, List.cons.injEq, Prod.mk.injEq] at hhead
    have hr := ghtRefines_unlink hauto hi hd (List.mem_cons_self)
    rw [hhead.1.1, dropKey_cons_self hnd] at hr
    unfold ghtRemoveFirst
    rw [hi.oldest]
    exact ⟨hhead.1.2, hr⟩

end UnfsClient.Proofs
