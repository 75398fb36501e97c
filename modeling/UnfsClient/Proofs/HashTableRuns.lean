import UnfsClient.Proofs.HashTableRefinement

/-!
# Runs of the hash table

A table is compared with a dictionary in insertion order that has a size and the rehash flag, over
whole runs of calls. Chains hold their entries newest first, so that the dictionary says what is in
every bucket. Two things follow for every table a run leads to: the oldest-entry shortcut is the
removal by key, and emptying the table makes it a new one.
-/

namespace UnfsClient.Proofs

open Function Lib DoublyLinked

variable {δ : Type}

/-!
## Sizes
-/

/-- What `ght_create` makes of the size it is given. -/
def ghtSize (n : Nat) : Nat := (ghtRoundSize n 32 1 1).1

lemma ghtRoundSize_pow (n fuel j : Nat) :
    ∃ k ≤ j + fuel, ghtRoundSize n fuel (2 ^ j) (j + 1) = (2 ^ k, k + 1) := by
  induction fuel generalizing j with
  | zero => exact ⟨j, le_refl j, rfl⟩
  | succ fuel ih =>
    rw [ghtRoundSize]
    by_cases hlt : 2 ^ j < n
    · obtain ⟨k, hk, hround⟩ := ih (j + 1)
      rw [if_pos hlt, Nat.one_shiftLeft]
      exact ⟨k, by omega, hround⟩
    · rw [if_neg hlt]
      exact ⟨j, by omega, rfl⟩

lemma ghtRoundSize_of_pow {k fuel j : Nat} (hj : j ≤ k) (hk : k ≤ j + fuel) :
    ghtRoundSize (2 ^ k) fuel (2 ^ j) (j + 1) = (2 ^ k, k + 1) := by
  induction fuel generalizing j with
  | zero =>
    obtain rfl : j = k := by omega
    rfl
  | succ fuel ih =>
    rw [ghtRoundSize]
    by_cases hjk : j = k
    · subst hjk
      rw [if_neg (lt_irrefl _)]
    · have hlt : 2 ^ j < 2 ^ k := Nat.pow_lt_pow_right (by decide) (by omega)
      rw [if_pos hlt, Nat.one_shiftLeft]
      exact ih (by omega) (by omega)

lemma ghtSize_pow (n : Nat) : ∃ k ≤ 32, ghtSize n = 2 ^ k ∧ (ghtCreate δ n).iSizeMask = 2 ^ k - 1 := by
  obtain ⟨k, hk, hround⟩ := ghtRoundSize_pow n 32 0
  rw [pow_zero, zero_add] at hround
  refine ⟨k, by omega, ?_, ?_⟩
  · rw [ghtSize, hround]
  · simp only [ghtCreate, hround, Nat.add_sub_cancel, Nat.one_shiftLeft]

lemma ghtRoundSize_le {n m : Nat} (hn : n ≤ 2 ^ m) (fuel : Nat) {j : Nat} (hj : j ≤ m) :
    ∃ k ≤ m, (ghtRoundSize n fuel (2 ^ j) (j + 1)).1 = 2 ^ k := by
  induction fuel generalizing j with
  | zero => exact ⟨j, hj, rfl⟩
  | succ fuel ih =>
    rw [ghtRoundSize]
    by_cases hlt : 2 ^ j < n
    · have hjm : j < m := (Nat.pow_lt_pow_iff_right (by decide)).mp (hlt.trans_le hn)
      rw [if_pos hlt, Nat.one_shiftLeft]
      exact ih hjm
    · rw [if_neg hlt]
      exact ⟨j, hj, rfl⟩

/-- A size is not rounded up beyond a power of two that is enough. -/
lemma ghtSize_le {n m : Nat} (hn : n ≤ 2 ^ m) : ∃ k ≤ m, ghtSize n = 2 ^ k :=
  ghtRoundSize_le hn 32 (Nat.zero_le m)

lemma ghtSize_of_pow {k : Nat} (hk : k ≤ 32) : ghtSize (2 ^ k) = 2 ^ k := by
  have hround := ghtRoundSize_of_pow (Nat.zero_le k) (show k ≤ 0 + 32 by omega)
  rw [pow_zero, zero_add] at hround
  rw [ghtSize, hround]

/-!
## The dictionary
-/

/-- The pairs in insertion order, the number of buckets and the rehash flag. -/
structure GhtDict (δ : Type) where
  size : Nat
  rehash : Bool
  entries : List (Bytes × δ)

namespace GhtDict

def lookup (d : GhtDict δ) (k : Bytes) : Option δ := (d.entries.find? fun e => e.1 == k).map Prod.snd

def call (d : GhtDict δ) : GhtCall δ → GhtDict δ × GhtReturn δ
  | .insert x k =>
    if k ∈ d.entries.map Prod.fst then (d, .status (-1))
    else
      let size := if d.rehash && ghtDoubled d.size < d.entries.length then ghtSize (ghtDoubled d.size) else d.size
      ({ d with size := size, entries := d.entries ++ [(k, x)] }, .status 0)
  | .remove k => ({ d with entries := dropKey d.entries k }, .datum (d.lookup k))
  | .removeFirst => ({ d with entries := d.entries.tail }, .datum (d.entries.head?.map Prod.snd))
  | .removeAll => ({ d with entries := [] }, .void)
  | .rehash n => ({ d with size := ghtSize n }, .void)
  | .setRehash b => ({ d with rehash := b }, .void)

def run (d : GhtDict δ) : List (GhtCall δ) → GhtDict δ × List (GhtReturn δ)
  | [] => (d, [])
  | c :: cs =>
    let r := run (d.call c).1 cs
    (r.1, (d.call c).2 :: r.2)

/-- Neither the size nor the rehash flag shows in what is stored or returned. -/
lemma call_entries {d d' : GhtDict δ} (h : d.entries = d'.entries) (c : GhtCall δ) :
    (d.call c).1.entries = (d'.call c).1.entries ∧ (d.call c).2 = (d'.call c).2 := by
  cases c with
  | insert x k =>
    simp only [call, h]
    split
    · exact ⟨h, rfl⟩
    · exact ⟨rfl, rfl⟩
  | remove k => simp only [call, lookup, h, and_self]
  | removeFirst => simp only [call, h, and_self]
  | removeAll => exact ⟨rfl, rfl⟩
  | rehash n => exact ⟨h, rfl⟩
  | setRehash b => exact ⟨h, rfl⟩

lemma run_entries {d d' : GhtDict δ} (h : d.entries = d'.entries) (cs : List (GhtCall δ)) :
    (d.run cs).1.entries = (d'.run cs).1.entries ∧ (d.run cs).2 = (d'.run cs).2 := by
  induction cs generalizing d d' with
  | nil => exact ⟨h, rfl⟩
  | cons c cs ih =>
    obtain ⟨hentries, hret⟩ := call_entries h c
    obtain ⟨hrun, hrets⟩ := ih hentries
    refine ⟨hrun, ?_⟩
    simp only [run, hret, hrets]

end GhtDict

/-!
## Tables and dictionaries
-/

lemma removeAllEntries_eq (t : GhtHashTable δ) :
    removeAllEntries t = { t with ppEntries := fun b => if b < t.iSize then none else t.ppEntries b } := by
  have hloop : ∀ n, (List.range n).foldl
      (fun t i => ({ t with ppEntries := update t.ppEntries i none } : GhtHashTable δ)) t =
      { t with ppEntries := fun b => if b < n then none else t.ppEntries b } := by
    intro n
    induction n with
    | zero => rfl
    | succ n ih =>
      rw [List.range_succ, List.foldl_append, ih]
      simp only [List.foldl_cons, List.foldl_nil]
      congr 1
      funext b
      by_cases hb : b = n
      · subst hb
        rw [update_self, if_pos (Nat.lt_succ_self b)]
      · rw [update_of_ne hb]
        exact if_congr ⟨fun h => by omega, fun h => by omega⟩ rfl rfl
  exact hloop t.iSize

lemma length_eq_sum_filter (f : Nat → Nat) {l : List Nat} {n : Nat} (h : ∀ p ∈ l, f p < n) :
    l.length = ∑ b ∈ Finset.range n, (l.filter fun p => f p = b).length := by
  induction l with
  | nil => simp
  | cons p l ih =>
    have hlt := h p List.mem_cons_self
    have hcons : ∀ b, ((p :: l).filter fun p => f p = b).length =
        (l.filter fun p => f p = b).length + if f p = b then 1 else 0 := by
      intro b
      by_cases hb : f p = b
      · simp [hb]
      · simp [hb]
    rw [Finset.sum_congr rfl fun b _ => hcons b, Finset.sum_add_distrib, Finset.sum_ite_eq,
      if_pos (Finset.mem_range.mpr hlt), ← ih fun q hq => h q (List.mem_cons_of_mem p hq), List.length_cons]

/-- The table holds the pairs of the dictionary, and every chain holds its entries newest first. -/
structure GhtModels (t : GhtHashTable δ) (d : GhtDict δ) (order : List Nat) (chain : Nat → List Nat) :
    Prop where
  inv : GhtInv t order chain
  entries : (order.map fun p => (t.key p, t.pData p)) = d.entries.map fun e => (e.1, some e.2)
  newestFirst : ∀ b, chain b = (order.filter fun p => t.pBucketidx p = b).reverse
  size : t.iSize = d.size
  pow : ∃ k ≤ 32, d.size = 2 ^ k
  mask : t.iSizeMask = d.size - 1
  rehash : t.iAutomaticRehash = d.rehash

namespace GhtModels

variable {t tmp : GhtHashTable δ} {d d' : GhtDict δ} {order : List Nat} {chain : Nat → List Nat}

lemma create (n : Nat) : GhtModels (ghtCreate δ n) ⟨ghtSize n, false, []⟩ [] (fun _ => []) := by
  obtain ⟨k, hk, hsize, hmask⟩ :
    ∃ k ≤ 32, ghtSize n = 2 ^ k ∧ (ghtCreate δ n).iSizeMask = 2 ^ k - 1 := ghtSize_pow n
  refine ⟨ghtInv_create n, rfl, fun _ => rfl, rfl, ⟨k, hk, hsize⟩, ?_, rfl⟩
  rw [hmask, ← hsize]

lemma setRehash (h : GhtModels t d order chain) (b : Bool) :
    GhtModels (ghtSetRehash t b) { d with rehash := b } order chain :=
  ⟨⟨h.inv.ages, h.inv.oldest, h.inv.newest, h.inv.orderNodup, h.inv.chains, h.inv.heads, h.inv.chainNodup,
    h.inv.mem_chain, h.inv.hashed, h.inv.keysNodup, h.inv.nr, h.inv.items, h.inv.old, h.inv.datum⟩,
    h.entries, h.newestFirst, h.size, h.pow, h.mask, rfl⟩

lemma keys (h : GhtModels t d order chain) : order.map t.key = d.entries.map Prod.fst :=
  GhtRefines.keys_eq h.entries

lemma length (h : GhtModels t d order chain) : t.iItems = d.entries.length := by
  have hlen := congrArg List.length h.entries
  rw [List.length_map, List.length_map] at hlen
  rw [h.inv.items, hlen]

lemma link (h : GhtModels t d order chain) (x : δ) {k : Bytes} (hk : k ∉ d.entries.map Prod.fst) :
    ∃ order' chain', GhtModels (ghtLink t x k) { d with entries := d.entries ++ [(k, x)] } order' chain' := by
  have hne : ∀ p ∈ order, t.key p ≠ k := by
    intro p hp he
    rw [← h.keys] at hk
    exact hk (List.mem_map.mpr ⟨p, hp, he⟩)
  refine ⟨_, _, h.inv.link x k hne, h.inv.link_entries h.entries x k, ?_, h.size, h.pow, h.mask, h.rehash⟩
  intro b
  have hold : (order.filter fun p => (ghtLink t x k).pBucketidx p = b) =
      order.filter fun p => t.pBucketidx p = b := by
    apply List.filter_congr
    intro p hp
    have hpf : p ≠ t.fresh := Nat.ne_of_lt (h.inv.old p hp)
    simp only [ghtLink, update_of_ne hpf]
  have hnew : (ghtLink t x k).pBucketidx t.fresh = ghtBucket t k := by simp [ghtLink]
  rw [List.filter_append, hold, List.reverse_append]
  by_cases hb : b = ghtBucket t k
  · subst hb
    rw [update_self, h.newestFirst, List.filter_cons_of_pos (by simpa using hnew)]
    rfl
  · rw [update_of_ne hb, h.newestFirst, List.filter_cons_of_neg (by simpa [hnew] using Ne.symm hb)]
    rfl

lemma unlink (h : GhtModels t d order chain) {p : Nat} (hp : p ∈ order) :
    ∃ order' chain', GhtModels (ghtUnlink t (t.pBucketidx p) p)
      { d with entries := dropKey d.entries (t.key p) } order' chain' := by
  refine ⟨_, _, h.inv.unlink hp, h.inv.erase_entries h.entries hp, ?_, h.size, h.pow, h.mask, h.rehash⟩
  intro b
  change _ = ((order.erase p).filter fun q => t.pBucketidx q = b).reverse
  rw [h.inv.orderNodup.erase_eq_filter, List.filter_filter]
  by_cases hb : b = t.pBucketidx p
  · subst hb
    rw [update_self, (h.inv.chainNodup _).erase_eq_filter, h.newestFirst, List.filter_reverse,
      List.filter_filter]
    congr 1
    apply List.filter_congr
    intro q _
    rw [Bool.and_comm]
  · rw [update_of_ne hb, h.newestFirst]
    congr 1
    apply List.filter_congr
    intro q _
    by_cases hq : q = p
    · subst hq
      simp [Ne.symm hb]
    · simp [hq]

/-!
### The calls
-/

lemma search_none (h : GhtModels t d order chain) {k : Bytes} (hk : k ∉ d.entries.map Prod.fst) :
    searchInBucket t (ghtBucket t k) k = none := by
  cases hs : searchInBucket t (ghtBucket t k) k with
  | none => rfl
  | some p =>
    obtain ⟨hp, hpk, -⟩ := h.inv.search_some hs
    rw [← h.keys] at hk
    exact absurd (List.mem_map.mpr ⟨p, hp, hpk⟩) hk

lemma search_some (h : GhtModels t d order chain) {p : Nat} (hp : p ∈ order) :
    searchInBucket t (ghtBucket t (t.key p)) (t.key p) = some p := by
  cases hs : searchInBucket t (ghtBucket t (t.key p)) (t.key p) with
  | none => exact absurd rfl (h.inv.search_none hs p hp)
  | some q =>
    obtain ⟨hq, hqk, -⟩ := h.inv.search_some hs
    rw [h.inv.key_inj hq hp hqk]

lemma remove_eq (h : GhtModels t d order chain) {p : Nat} (hp : p ∈ order) :
    ghtRemove t (t.key p) = (ghtUnlink t (t.pBucketidx p) p, t.pData p) := by
  simp only [ghtRemove, h.search_some hp]
  rw [h.inv.hashed p hp]

/-- The loop of `ght_rehash` puts the entries into the new table one after the other. -/
lemma rehashFrom {q : Option Nat} {rest : List Nat} {es : List (Bytes × δ)} {fuel : Nat}
    (h : GhtModels tmp d order chain) (hlinked : Linked t.pNewer t.pOlder q rest)
    (hrest : (rest.map fun p => (t.key p, t.pData p)) = es.map fun e => (e.1, some e.2))
    (hnodup : ((d.entries ++ es).map Prod.fst).Nodup) (hfuel : rest.length ≤ fuel) :
    ∃ order' chain', GhtModels (ghtRehashFrom t fuel rest.head? tmp)
      { d with entries := d.entries ++ es } order' chain' := by
  induction rest generalizing q es d tmp order chain fuel with
  | nil =>
    have hes : es = [] := by simpa using hrest.symm
    rw [hes, List.append_nil]
    cases fuel with
    | zero => exact ⟨order, chain, h⟩
    | succ fuel => exact ⟨order, chain, h⟩
  | cons p rest ih =>
    cases es with
    | nil => simp at hrest
    | cons e es =>
      cases fuel with
      | zero => simp at hfuel
      | succ fuel =>
        obtain ⟨-, hnext, hlinked'⟩ := hlinked
        simp only [List.map_cons, List.cons.injEq, Prod.mk.injEq] at hrest
        obtain ⟨⟨hkey, hdata⟩, hrest'⟩ := hrest
        have hk : e.1 ∉ d.entries.map Prod.fst := by
          rw [List.map_append, List.nodup_append] at hnodup
          intro hm
          exact hnodup.2.2 e.1 hm e.1 (by simp) rfl
        obtain ⟨order', chain', h'⟩ := h.link e.2 hk
        have hnodup' : ((d.entries ++ [(e.1, e.2)] ++ es).map Prod.fst).Nodup := by simpa using hnodup
        have hlater := ih h' hlinked' hrest' hnodup' (Nat.le_of_succ_le_succ hfuel)
        have hstep : ghtRehashFrom t (fuel + 1) (some p) tmp =
            ghtRehashFrom t fuel (t.pNewer p) (ghtLink tmp e.2 e.1) := by
          simp only [ghtRehashFrom, hdata, hkey, h.search_none hk, Option.isSome_none, Bool.false_eq_true,
            if_false]
        rw [List.head?_cons, hstep, hnext]
        simpa using hlater

lemma rehashed (h : GhtModels t d order chain) (n : Nat) :
    ∃ order' chain', GhtModels (ghtRehash t n) { d with size := ghtSize n } order' chain' := by
  have hnodup : (([] ++ d.entries).map Prod.fst).Nodup := by
    rw [List.nil_append, ← h.keys]
    exact h.inv.keysNodup
  have hcreate : GhtModels (ghtCreate δ n) ⟨ghtSize n, false, []⟩ [] (fun _ => []) := create n
  obtain ⟨order', chain', h'⟩ :=
    hcreate.rehashFrom h.inv.ages h.entries hnodup (le_of_eq h.inv.items.symm)
  have hset := h'.setRehash t.iAutomaticRehash
  rw [← h.inv.oldest, h.rehash] at hset
  refine ⟨order', chain', ?_⟩
  unfold ghtRehash
  rw [h.rehash]
  exact hset

lemma insert (h : GhtModels t d order chain) (x : δ) (k : Bytes) :
    (ghtCall t (.insert x k)).2 = (d.call (.insert x k)).2 ∧
      ∃ order' chain', GhtModels (ghtCall t (.insert x k)).1 (d.call (.insert x k)).1 order' chain' := by
  by_cases hk : k ∈ d.entries.map Prod.fst
  · have hsearch : (searchInBucket t (ghtBucket t k) k).isSome = true := by
      rw [← h.keys] at hk
      obtain ⟨p, hp, rfl⟩ := List.mem_map.mp hk
      rw [h.search_some hp]
      rfl
    simp only [ghtCall, ghtInsert, GhtDict.call, if_pos hk, if_pos hsearch]
    exact ⟨trivial, order, chain, h⟩
  · simp only [ghtCall, ghtInsert, GhtDict.call, if_neg hk, h.search_none hk, Option.isSome_none,
      Bool.false_eq_true, if_false, true_and]
    rw [h.rehash, h.size, h.length]
    by_cases hgrow : (d.rehash && decide (ghtDoubled d.size < d.entries.length)) = true
    · rw [if_pos hgrow, if_pos hgrow]
      obtain ⟨order', chain', h'⟩ := h.rehashed (ghtDoubled d.size)
      exact h'.link x hk
    · rw [if_neg hgrow, if_neg hgrow]
      exact h.link x hk

lemma lookup_eq (h : GhtModels t d order chain) {p : Nat} (hp : p ∈ order) :
    d.lookup (t.key p) = t.pData p := by
  have hmem : (t.key p, t.pData p) ∈ d.entries.map fun e => (e.1, some e.2) := by
    rw [← h.entries]
    exact List.mem_map_of_mem hp
  obtain ⟨e, he, heq⟩ := List.mem_map.mp hmem
  obtain ⟨hek, hex⟩ := Prod.mk.inj heq
  have hfind : (d.entries.find? fun e => e.1 == t.key p) = some e := by
    cases hf : d.entries.find? fun e => e.1 == t.key p with
    | none => exact absurd (by simpa using hek) (List.find?_eq_none.mp hf e he)
    | some e' =>
      have hnodup : (d.entries.map Prod.fst).Nodup := h.keys ▸ h.inv.keysNodup
      have he'k : e'.1 = t.key p := by simpa using List.find?_some hf
      rw [List.inj_on_of_nodup_map hnodup (List.mem_of_find?_eq_some hf) he (he'k.trans hek.symm)]
  rw [GhtDict.lookup, hfind, ← hex]
  rfl

lemma remove (h : GhtModels t d order chain) (k : Bytes) :
    (ghtCall t (.remove k)).2 = (d.call (.remove k)).2 ∧
      ∃ order' chain', GhtModels (ghtCall t (.remove k)).1 (d.call (.remove k)).1 order' chain' := by
  simp only [ghtCall, GhtDict.call]
  by_cases hk : k ∈ d.entries.map Prod.fst
  · rw [← h.keys] at hk
    obtain ⟨p, hp, rfl⟩ := List.mem_map.mp hk
    rw [h.remove_eq hp, h.lookup_eq hp]
    exact ⟨rfl, h.unlink hp⟩
  · have hdrop : dropKey d.entries k = d.entries := by
      rw [dropKey, List.filter_eq_self]
      intro e he
      have hne : e.1 ≠ k := fun hek => hk (List.mem_map.mpr ⟨e, he, hek⟩)
      simpa using hne
    have hlook : d.lookup k = none := by
      rw [GhtDict.lookup, Option.map_eq_none_iff, List.find?_eq_none]
      intro e he hek
      exact hk (List.mem_map.mpr ⟨e, he, by simpa using hek⟩)
    simp only [ghtRemove, h.search_none hk, hdrop, hlook]
    exact ⟨trivial, order, chain, h⟩

/-- The oldest entry is removed the way its key removes it. -/
lemma removeFirst_eq (h : GhtModels t d order chain) (hne : t.iItems ≠ 0) :
    ghtRemoveFirst t = ghtRemove t (ghtFirst t).2 := by
  cases order with
  | nil => exact absurd h.inv.items hne
  | cons p order =>
    have hold : t.pOldest = some p := h.inv.oldest
    simp only [ghtRemoveFirst, ghtFirst, hold]
    rw [h.remove_eq List.mem_cons_self]

lemma removeFirst (h : GhtModels t d order chain) :
    (ghtCall t .removeFirst).2 = (d.call .removeFirst).2 ∧
      ∃ order' chain', GhtModels (ghtCall t .removeFirst).1 (d.call .removeFirst).1 order' chain' := by
  cases order with
  | nil =>
    have hentries : d.entries = [] := by simpa using h.entries.symm
    have hold : t.pOldest = none := h.inv.oldest
    have hd : d = { d with entries := [] } := by rw [← hentries]
    simp only [ghtCall, ghtRemoveFirst, hold, GhtDict.call, hentries]
    refine ⟨rfl, [], chain, ?_⟩
    rw [hd] at h
    exact h
  | cons p rest =>
    have hold : t.pOldest = some p := h.inv.oldest
    have hentries := h.entries
    cases hd : d.entries with
    | nil => simp [hd] at hentries
    | cons e es =>
      simp only [hd, List.map_cons, List.cons.injEq, Prod.mk.injEq] at hentries
      have hnodup : ((e :: es).map Prod.fst).Nodup := by
        rw [← hd, ← h.keys]
        exact h.inv.keysNodup
      have hunlink := h.unlink List.mem_cons_self
      rw [hentries.1.1, hd, show e = (e.1, e.2) from rfl, dropKey_cons_self hnodup] at hunlink
      simp only [ghtCall, ghtRemoveFirst, hold, GhtDict.call, hd, hentries.1.2]
      exact ⟨rfl, hunlink⟩

/-- The buckets in use are those of the table. -/
lemma bucket_lt (h : GhtModels t d order chain) {p : Nat} (hp : p ∈ order) : t.pBucketidx p < t.iSize := by
  obtain ⟨k, -, hk⟩ := h.pow
  have hpos : 0 < 2 ^ k := Nat.two_pow_pos k
  have hle : ghtBucket t (t.key p) ≤ t.iSizeMask := Nat.and_le_right
  rw [h.inv.hashed p hp, h.mask, hk] at hle
  rw [h.size, hk]
  omega

lemma chain_nil (h : GhtModels t d order chain) {b : Nat} (hb : t.iSize ≤ b) : chain b = [] := by
  rw [List.eq_nil_iff_forall_not_mem]
  intro p hp
  obtain ⟨hmem, rfl⟩ := (h.inv.mem_chain b p).mp hp
  exact absurd (h.bucket_lt hmem) (Nat.not_lt.mpr hb)

lemma removeAll (h : GhtModels t d order chain) :
    GhtModels (ghtRemoveAll t) { d with entries := [] } [] (fun _ => []) := by
  have hloop := removeAllEntries_eq t
  have hall : ghtRemoveAll t = { t with
      ppEntries := fun _ => none, pNr := fun _ => 0, pOldest := none, pNewest := none, iItems := 0 } := by
    simp only [ghtRemoveAll, hloop]
    congr 1
    · funext b
      by_cases hb : b < t.iSize
      · rw [if_pos hb]
      · rw [if_neg hb, h.inv.heads, h.chain_nil (Nat.not_lt.mp hb)]
        rfl
    · funext b
      by_cases hb : b < t.iSize
      · rw [if_pos hb]
      · rw [if_neg hb, h.inv.nr, h.chain_nil (Nat.not_lt.mp hb)]
        rfl
  rw [hall]
  refine ⟨⟨trivial, rfl, rfl, List.nodup_nil, fun _ => trivial, fun _ => rfl, fun _ => List.nodup_nil, ?_, ?_,
    List.nodup_nil, fun _ => rfl, rfl, ?_, ?_⟩, rfl, fun _ => rfl, h.size, h.pow, h.mask, h.rehash⟩
  all_goals simp

/-- Each call does to the table what it does to the dictionary, and returns the same. -/
lemma call (h : GhtModels t d order chain) (c : GhtCall δ) :
    (ghtCall t c).2 = (d.call c).2 ∧
      ∃ order' chain', GhtModels (ghtCall t c).1 (d.call c).1 order' chain' := by
  cases c with
  | insert x k => exact h.insert x k
  | remove k => exact h.remove k
  | removeFirst => exact h.removeFirst
  | removeAll => exact ⟨rfl, _, _, h.removeAll⟩
  | rehash n => exact ⟨rfl, h.rehashed n⟩
  | setRehash b => exact ⟨rfl, _, _, h.setRehash b⟩

lemma run (h : GhtModels t d order chain) (cs : List (GhtCall δ)) :
    (ghtRun t cs).2 = (d.run cs).2 ∧
      ∃ order' chain', GhtModels (ghtRun t cs).1 (d.run cs).1 order' chain' := by
  induction cs generalizing t d order chain with
  | nil => exact ⟨rfl, order, chain, h⟩
  | cons c cs ih =>
    obtain ⟨hret, order', chain', h'⟩ := h.call c
    obtain ⟨hrets, hrun⟩ := ih h'
    refine ⟨?_, hrun⟩
    simp only [ghtRun, GhtDict.run, hret, hrets]

/-!
### What the dictionary says of the table
-/

lemma items_eq_sum (h : GhtModels t d order chain) :
    t.iItems = ∑ b ∈ Finset.range t.iSize, (chain b).length := by
  rw [h.inv.items, length_eq_sum_filter t.pBucketidx fun p hp => h.bucket_lt hp]
  apply Finset.sum_congr rfl
  intro b _
  rw [h.newestFirst, List.length_reverse]

lemma chain_eq (h : GhtModels t d order chain) (b : Nat) :
    ghtChain t b = ((d.entries.filter fun e => ((ghtOneAtATimeHash e.1).toNat &&& (d.size - 1)) = b).map
      fun e => (e.1, some e.2)).reverse := by
  have hwalk : walk t.pNext t.iItems (t.ppEntries b) = chain b := by
    rw [h.inv.heads]
    exact walk_linked (h.inv.chains b) (h.inv.chain_length_le b)
  have hhash : ∀ p ∈ order, decide (t.pBucketidx p = b) =
      decide (((ghtOneAtATimeHash (t.key p)).toNat &&& (d.size - 1)) = b) := by
    intro p hp
    rw [← h.inv.hashed p hp, ghtBucket, h.mask]
  have hfilter := congrArg (List.filter fun e : Bytes × Option δ =>
    decide (((ghtOneAtATimeHash e.1).toNat &&& (d.size - 1)) = b)) h.entries
  rw [List.filter_map, List.filter_map] at hfilter
  rw [ghtChain, hwalk, h.newestFirst, List.map_reverse, List.filter_congr hhash]
  exact congrArg List.reverse hfilter

end GhtModels

/-- Two tables that differ in the addresses of their entries at most. -/
structure GhtAlike (t t' : GhtHashTable δ) : Prop where
  items : t.iItems = t'.iItems
  size : t.iSize = t'.iSize
  mask : t.iSizeMask = t'.iSizeMask
  rehash : t.iAutomaticRehash = t'.iAutomaticRehash
  nr : t.pNr = t'.pNr
  entries : ghtEntries t = ghtEntries t'
  chains : ∀ b, ghtChain t b = ghtChain t' b

lemma GhtModels.alike {t t' : GhtHashTable δ} {d : GhtDict δ} {order order' : List Nat}
    {chain chain' : Nat → List Nat} (h : GhtModels t d order chain) (h' : GhtModels t' d order' chain') :
    GhtAlike t t' := by
  have hchains : ∀ b, ghtChain t b = ghtChain t' b := fun b => by rw [h.chain_eq, h'.chain_eq]
  refine ⟨?_, ?_, ?_, ?_, ?_, ?_, hchains⟩
  · rw [h.length, h'.length]
  · rw [h.size, h'.size]
  · rw [h.mask, h'.mask]
  · rw [h.rehash, h'.rehash]
  · funext b
    have hlen := congrArg List.length (hchains b)
    simp only [ghtChain, List.length_map, h.inv.heads, h'.inv.heads,
      walk_linked (h.inv.chains b) (h.inv.chain_length_le b),
      walk_linked (h'.inv.chains b) (h'.inv.chain_length_le b)] at hlen
    rw [h.inv.nr, h'.inv.nr, hlen]
  · rw [h.inv.entries_eq, h'.inv.entries_eq, h.entries, h'.entries]

/-- In every table that calls lead to from `ght_create` both families of links hold the same entries, from
the oldest to the newest in the order of their insertion, and each in the chain of its cached bucket.
So the oldest entry is removed as it is by its key, and from `ght_remove_all` on the table is like a
new one of its size and rehash flag; what calls return does not depend on that flag. -/
theorem oldest_shortcut_agrees (n : Nat) (cs : List (GhtCall δ)) :
    let t := (ghtRun (ghtCreate δ n) cs).1
    (∃ order chain, GhtInv t order chain ∧ (∀ b, t.iSize ≤ b → chain b = []) ∧
      t.iItems = ∑ b ∈ Finset.range t.iSize, (chain b).length ∧
      (order.map fun p => (t.key p, t.pData p)) =
        ((GhtDict.mk (ghtSize n) false []).run cs).1.entries.map fun e => (e.1, some e.2)) ∧
    (t.iItems ≠ 0 → ghtRemoveFirst t = ghtRemove t (ghtFirst t).2) ∧
    ∀ cs', (ghtRun (ghtRemoveAll t) cs').2 = (ghtRun (ghtCreate δ t.iSize) cs').2 ∧
      ghtEntries (ghtRun (ghtRemoveAll t) cs').1 = ghtEntries (ghtRun (ghtCreate δ t.iSize) cs').1 ∧
      GhtAlike (ghtRun (ghtRemoveAll t) cs').1
        (ghtRun (ghtSetRehash (ghtCreate δ t.iSize) t.iAutomaticRehash) cs').1 := by
  intro t
  have hnew : GhtModels (ghtCreate δ n) ⟨ghtSize n, false, []⟩ [] (fun _ => []) := .create n
  obtain ⟨-, order, chain, h⟩ := hnew.run cs
  refine ⟨⟨order, chain, h.inv, fun b hb => h.chain_nil hb, h.items_eq_sum, h.entries⟩, h.removeFirst_eq, ?_⟩
  intro cs'
  obtain ⟨k, hk, hsize⟩ := h.pow
  have hround : ghtSize t.iSize = ((GhtDict.mk (ghtSize n) false []).run cs).1.size := by
    rw [h.size, hsize, ghtSize_of_pow hk]
  have hcreate : GhtModels (ghtCreate δ t.iSize) ⟨ghtSize t.iSize, false, []⟩ [] (fun _ => []) := .create _
  have hset := hcreate.setRehash t.iAutomaticRehash
  rw [hround, h.rehash] at hset
  obtain ⟨hret, order₁, chain₁, h₁⟩ := h.removeAll.run cs'
  obtain ⟨hret₂, order₂, chain₂, h₂⟩ := hcreate.run cs'
  obtain ⟨-, order₃, chain₃, h₃⟩ := hset.run cs'
  have hnil : ({ ((GhtDict.mk (ghtSize n) false []).run cs).1 with entries := [] } : GhtDict δ).entries =
      (⟨ghtSize t.iSize, false, []⟩ : GhtDict δ).entries := rfl
  have hsame := GhtDict.run_entries hnil cs'
  refine ⟨?_, ?_, ?_⟩
  · rw [hret, hret₂, hsame.2]
  · rw [h₁.inv.entries_eq, h₂.inv.entries_eq, h₁.entries, h₂.entries, hsame.1]
  · rw [h.rehash]
    exact h₁.alike h₃

/-- Three insertions of which the first is removed, with the rehash flag set. -/
def threeInserts : List (GhtCall Nat) :=
  [.setRehash true, .insert 7 [1], .insert 8 [2], .insert 9 [3], .remove [1]]

theorem oldest_shortcut_agrees_threeInserts :
    (ghtRun (ghtCreate Nat 2) threeInserts).1.iItems = 2 ∧
    (ghtFirst (ghtRun (ghtCreate Nat 2) threeInserts).1).2 = [2] ∧
    ghtRemoveFirst (ghtRun (ghtCreate Nat 2) threeInserts).1 =
      ghtRemove (ghtRun (ghtCreate Nat 2) threeInserts).1 [2] := by
  have hitems : (ghtRun (ghtCreate Nat 2) threeInserts).1.iItems = 2 := by rfl
  have hfirst : (ghtFirst (ghtRun (ghtCreate Nat 2) threeInserts).1).2 = [2] := by rfl
  have hagree := (oldest_shortcut_agrees 2 threeInserts).2.1 (by rw [hitems]; decide)
  rw [hfirst] at hagree
  exact ⟨hitems, hfirst, hagree⟩

end UnfsClient.Proofs
