import UnfsClient.HashTable

/-!
# The heap invariant of the hash table

`GhtInv t order chain` says that the two families of links of `t` run through the entries
`order`, from the oldest to the newest, and through the bucket chains `chain b`. Linking a new
entry and unlinking an old one keep it, and `ghtEntries` reads it as an ordered dictionary.
-/

namespace UnfsClient.Proofs

open Function Lib DoublyLinked

variable {δ : Type}

structure GhtInv (t : GhtHashTable δ) (order : List Nat) (chain : Nat → List Nat) : Prop where
  ages : Linked t.pNewer t.pOlder none order
  oldest : t.pOldest = order.head?
  newest : t.pNewest = order.getLast?
  orderNodup : order.Nodup
  chains : ∀ b, Linked t.pNext t.pPrev none (chain b)
  heads : ∀ b, t.ppEntries b = (chain b).head?
  chainNodup : ∀ b, (chain b).Nodup
  mem_chain : ∀ b p, p ∈ chain b ↔ p ∈ order ∧ t.pBucketidx p = b
  hashed : ∀ p ∈ order, ghtBucket t (t.key p) = t.pBucketidx p
  keysNodup : (order.map t.key).Nodup
  nr : ∀ b, t.pNr b = (chain b).length
  items : t.iItems = order.length
  old : ∀ p ∈ order, p < t.fresh
  datum : ∀ p ∈ order, t.pData p ≠ none

lemma GhtInv.chain_length_le {t : GhtHashTable δ} {order : List Nat} {chain : Nat → List Nat}
    (h : GhtInv t order chain) (b : Nat) : (chain b).length ≤ t.iItems := by
  have hsub : chain b ⊆ order := fun p hp => ((h.mem_chain b p).mp hp).1
  rw [h.items]
  exact (List.subperm_of_subset (h.chainNodup b) hsub).length_le

lemma GhtInv.entries_eq {t : GhtHashTable δ} {order : List Nat} {chain : Nat → List Nat}
    (h : GhtInv t order chain) : ghtEntries t = order.map fun p => (t.key p, t.pData p) := by
  unfold ghtEntries
  rw [h.oldest, walk_linked h.ages (by rw [h.items])]

lemma GhtInv.key_inj {t : GhtHashTable δ} {order : List Nat} {chain : Nat → List Nat}
    (h : GhtInv t order chain) {p q : Nat} (hp : p ∈ order) (hq : q ∈ order)
    (hk : t.key p = t.key q) : p = q :=
  List.inj_on_of_nodup_map h.keysNodup hp hq hk

/-- A search in the bucket of a key finds the entry with that key, wherever it is. -/
lemma GhtInv.search_some {t : GhtHashTable δ} {order : List Nat} {chain : Nat → List Nat}
    (h : GhtInv t order chain) {key : Bytes} {p : Nat}
    (hs : searchInBucket t (ghtBucket t key) key = some p) :
    p ∈ order ∧ t.key p = key ∧ t.pBucketidx p = ghtBucket t key := by
  unfold searchInBucket at hs
  rw [h.heads, search_linked _ (h.chains _) (h.chain_length_le _)] at hs
  have hm := (h.mem_chain _ p).mp (List.mem_of_find?_eq_some hs)
  have hk := List.find?_some hs
  exact ⟨hm.1, by simpa using hk, hm.2⟩

lemma GhtInv.search_none {t : GhtHashTable δ} {order : List Nat} {chain : Nat → List Nat}
    (h : GhtInv t order chain) {key : Bytes}
    (hs : searchInBucket t (ghtBucket t key) key = none) : ∀ p ∈ order, t.key p ≠ key := by
  unfold searchInBucket at hs
  rw [h.heads, search_linked _ (h.chains _) (h.chain_length_le _)] at hs
  intro p hp hk
  have hb : t.pBucketidx p = ghtBucket t key := by rw [← h.hashed p hp, hk]
  have hm : p ∈ chain (ghtBucket t key) := (h.mem_chain _ p).mpr ⟨hp, hb⟩
  have hne := List.find?_eq_none.mp hs p hm
  exact hne (by simpa using hk)

lemma ghtInv_create (n : Nat) : GhtInv (ghtCreate δ n) [] (fun _ => []) where
  ages := trivial
  oldest := rfl
  newest := rfl
  orderNodup := List.nodup_nil
  chains := fun _ => trivial
  heads := fun _ => rfl
  chainNodup := fun _ => List.nodup_nil
  mem_chain := by simp
  hashed := by simp
  keysNodup := List.nodup_nil
  nr := fun _ => rfl
  items := rfl
  old := by simp
  datum := by simp

/-- A new entry goes to the front of its chain and to the end of the list of ages. -/
lemma GhtInv.link {t : GhtHashTable δ} {order : List Nat} {chain : Nat → List Nat}
    (h : GhtInv t order chain) (data : δ) (key : Bytes) (hk : ∀ p ∈ order, t.key p ≠ key) :
    GhtInv (ghtLink t data key) (order ++ [t.fresh])
      (update chain (ghtBucket t key) (t.fresh :: chain (ghtBucket t key))) := by
  have hfresh : t.fresh ∉ order := fun hm => absurd (h.old _ hm) (lt_irrefl _)
  have hne : ∀ p ∈ order, p ≠ t.fresh := fun p hp he => hfresh (he ▸ hp)
  have hchain : ∀ b, t.fresh ∉ chain b := fun b hm => hfresh ((h.mem_chain b _).mp hm).1
  constructor
  · have hl := linked_push_back h.orderNodup hfresh h.ages
    rw [Option.or_none] at hl
    simpa only [ghtLink, h.newest] using hl
  · simp only [ghtLink, h.oldest]
    cases order <;> simp
  · simp [ghtLink]
  · refine List.nodup_append.mpr ⟨h.orderNodup, List.nodup_singleton _, ?_⟩
    intro p hp q hq
    obtain rfl : q = t.fresh := by simpa using hq
    exact hne p hp
  · intro b
    by_cases hb : b = ghtBucket t key
    · subst hb
      have hl := linked_push_front (h.chainNodup _) (hchain _) (h.chains (ghtBucket t key))
      simpa only [ghtLink, update_self, h.heads] using hl
    · rw [update_of_ne hb]
      refine linked_congr (fun p hp => ?_) (fun p hp => ?_) (h.chains b)
      · exact update_of_ne (hne p ((h.mem_chain b p).mp hp).1) _ _
      · -- the old head of the bucket is not in another chain
        have hpb := (h.mem_chain b p).mp hp
        simp only [ghtLink]
        rw [setAt_of_ne, update_of_ne (hne p hpb.1)]
        rw [h.heads]
        intro he
        have hpk := (h.mem_chain _ p).mp (List.mem_of_mem_head? he)
        exact hb (hpb.2.symm.trans hpk.2)
  · intro b
    by_cases hb : b = ghtBucket t key
    · subst hb
      simp [ghtLink]
    · simp [ghtLink, update_of_ne hb, h.heads]
  · intro b
    by_cases hb : b = ghtBucket t key
    · subst hb
      rw [update_self]
      exact List.nodup_cons.mpr ⟨hchain _, h.chainNodup _⟩
    · rw [update_of_ne hb]
      exact h.chainNodup b
  · intro b p
    by_cases hp : p = t.fresh
    · subst hp
      simp only [ghtLink, update_self, List.mem_append, List.mem_singleton, or_true, true_and]
      constructor
      · intro hm
        by_contra hb
        rw [update_of_ne (Ne.symm hb)] at hm
        exact hchain b hm
      · rintro rfl
        simp
    · have hold : p ∈ order ++ [t.fresh] ↔ p ∈ order := by simp [hp]
      have hup : p ∈ update chain (ghtBucket t key) (t.fresh :: chain (ghtBucket t key)) b ↔
          p ∈ chain b := by
        by_cases hb : b = ghtBucket t key
        · subst hb
          simp [hp]
        · rw [update_of_ne hb]
      rw [hold, hup, h.mem_chain b p]
      simp only [ghtLink, update_of_ne hp]
  · intro p hp
    rcases List.mem_append.mp hp with hp | hp
    · simpa only [ghtLink, ghtBucket, update_of_ne (hne p hp)] using h.hashed p hp
    · obtain rfl : p = t.fresh := by simpa using hp
      simp [ghtLink, ghtBucket]
  · have hmap : order.map (update t.key t.fresh key) = order.map t.key :=
      List.map_congr_left fun p hp => update_of_ne (hne p hp) _ _
    simp only [ghtLink, List.map_append, List.map_cons, List.map_nil, hmap, update_self]
    refine List.nodup_append.mpr ⟨h.keysNodup, List.nodup_singleton _, ?_⟩
    intro x hx y hy hxy
    obtain ⟨p, hp, rfl⟩ := List.mem_map.mp hx
    exact hk p hp (by rw [hxy]; simpa using hy)
  · intro b
    by_cases hb : b = ghtBucket t key
    · subst hb
      simp [ghtLink, h.nr]
    · simp [ghtLink, update_of_ne hb, h.nr]
  · simp [ghtLink, h.items]
  · intro p hp
    rcases List.mem_append.mp hp with hp | hp
    · exact Nat.lt_succ_of_lt (h.old p hp)
    · obtain rfl : p = t.fresh := by simpa using hp
      exact Nat.lt_succ_self _
  · intro p hp
    rcases List.mem_append.mp hp with hp | hp
    · simpa only [ghtLink, update_of_ne (hne p hp)] using h.datum p hp
    · obtain rfl : p = t.fresh := by simpa using hp
      simp [ghtLink]

/-- An entry is taken out of both lists; the cached bucket index is the one it needs. -/
lemma GhtInv.unlink {t : GhtHashTable δ} {order : List Nat} {chain : Nat → List Nat}
    (h : GhtInv t order chain) {p : Nat} (hp : p ∈ order) :
    GhtInv (ghtUnlink t (t.pBucketidx p) p) (order.erase p)
      (update chain (t.pBucketidx p) ((chain (t.pBucketidx p)).erase p)) := by
  have hpc : p ∈ chain (t.pBucketidx p) := (h.mem_chain _ p).mpr ⟨hp, rfl⟩
  have hsub : ∀ q, q ∈ order.erase p → q ∈ order := fun q hq => List.mem_of_mem_erase hq
  constructor
  · exact linked_unlink h.orderNodup (by simp) h.ages hp
  · simp only [ghtUnlink, removeFromChain]
    rw [head?_erase h.ages hp, h.oldest]
  · have hl := getLast?_erase h.orderNodup h.ages hp
    simp only [Option.or_none] at hl
    simp only [ghtUnlink, removeFromChain]
    rw [hl, h.newest]
  · exact h.orderNodup.erase p
  · intro b
    by_cases hb : b = t.pBucketidx p
    · subst hb
      rw [update_self]
      exact linked_unlink (h.chainNodup _) (by simp) (h.chains _) hpc
    · rw [update_of_ne hb]
      -- the neighbours of `p` are in its own chain
      have hout : ∀ q ∈ chain b, q ∉ chain (t.pBucketidx p) := by
        intro q hq hq'
        exact hb (((h.mem_chain b q).mp hq).2.symm.trans ((h.mem_chain _ q).mp hq').2)
      refine linked_congr (fun q hq => setAt_of_ne _ _ _ _ ?_)
        (fun q hq => setAt_of_ne _ _ _ _ ?_) (h.chains b)
      · intro he
        rcases linked_pv_mem (h.chains _) hpc he with hm | hm
        · exact hout q hq hm
        · simp at hm
      · intro he
        exact hout q hq (linked_nx_mem (h.chains _) hpc he)
  · intro b
    by_cases hb : b = t.pBucketidx p
    · subst hb
      rw [update_self, head?_erase (h.chains _) hpc]
      simp only [ghtUnlink, removeFromChain]
      split <;> simp [h.heads]
    · simp only [ghtUnlink, removeFromChain, update_of_ne hb]
      split <;> simp [update_of_ne hb, h.heads]
  · intro b
    by_cases hb : b = t.pBucketidx p
    · subst hb
      rw [update_self]
      exact (h.chainNodup _).erase p
    · rw [update_of_ne hb]
      exact h.chainNodup b
  · intro b q
    change _ ↔ _ ∧ t.pBucketidx q = b
    rw [h.orderNodup.mem_erase_iff]
    by_cases hb : b = t.pBucketidx p
    · subst hb
      rw [update_self, (h.chainNodup _).mem_erase_iff, h.mem_chain]
      tauto
    · rw [update_of_ne hb, h.mem_chain]
      constructor
      · rintro ⟨hq, hqb⟩
        exact ⟨⟨fun he => hb (by rw [← hqb, he]), hq⟩, hqb⟩
      · rintro ⟨⟨-, hq⟩, hqb⟩
        exact ⟨hq, hqb⟩
  · intro q hq
    exact h.hashed q (hsub q hq)
  · exact h.keysNodup.sublist (List.erase_sublist.map _)
  · intro b
    by_cases hb : b = t.pBucketidx p
    · subst hb
      have hpos := List.length_pos_of_mem hpc
      simp only [ghtUnlink, removeFromChain, update_self, h.nr, List.length_erase_of_mem hpc]
      omega
    · simp only [ghtUnlink, removeFromChain, update_of_ne hb]
      exact h.nr b
  · simp only [ghtUnlink, removeFromChain, List.length_erase_of_mem hp, h.items]
  · intro q hq
    exact h.old q (hsub q hq)
  · intro q hq
    exact h.datum q (hsub q hq)

end UnfsClient.Proofs
