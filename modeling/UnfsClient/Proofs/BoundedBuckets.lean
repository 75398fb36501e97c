import UnfsClient.Lib.Recency
import UnfsClient.Proofs.TableRuns

/-!
# Bounded buckets

A table whose buckets have a limit is a cache. No bucket grows beyond its limit, also when the table
is rehashed to more buckets; and with the move-to-front heuristic a key is found exactly as long as
it is one of the most recently used keys of its bucket, as many as the limit allows.
-/

namespace UnfsClient.Proofs

open Function Lib DoublyLinked Recency

variable {δ : Type}

/-!
## The limit
-/

lemma ghtRoundSize_ge (n fuel j : Nat) :
    n ≤ (ghtRoundSize n fuel (2 ^ j) (j + 1)).1 ∨ (ghtRoundSize n fuel (2 ^ j) (j + 1)).1 = 2 ^ (j + fuel) := by
  induction fuel generalizing j with
  | zero => exact Or.inr rfl
  | succ fuel ih =>
    rw [ghtRoundSize]
    by_cases hlt : 2 ^ j < n
    · rw [if_pos hlt, Nat.one_shiftLeft]
      have hrest := ih (j + 1)
      rw [show j + 1 + fuel = j + (fuel + 1) by omega] at hrest
      exact hrest
    · rw [if_neg hlt]
      exact Or.inl (Nat.not_lt.mp hlt)

/-- A table does not get smaller when its size is not asked to. -/
lemma le_ghtSize {k n : Nat} (hk : k ≤ 32) (hn : 2 ^ k ≤ n) : 2 ^ k ≤ ghtSize n := by
  have hge := ghtRoundSize_ge n 32 0
  rw [pow_zero, zero_add, zero_add] at hge
  rcases hge with hge | hge
  · exact hn.trans hge
  · rw [ghtSize, hge]
    exact Nat.pow_le_pow_right (by decide) hk

namespace TableView

/-- No bucket holds more keys than the limit. -/
structure Within (n : Nat) (v : TableView δ) : Prop where
  limit : v.limit = n
  chains : ∀ b, (v.chain b).length ≤ n

end TableView

/-- The call leaves the limit alone and does not ask for fewer buckets. -/
def KeepsBounds (t : GhtTable δ) : TableCall δ → Prop
  | .setBoundedBuckets _ => False
  | .rehash m => t.iSize ≤ m
  | _ => True

def AllKeepBounds (t : GhtTable δ) : List (TableCall δ) → Prop
  | [] => True
  | c :: cs => KeepsBounds t c ∧ AllKeepBounds (t.call c).1 cs

namespace TableModels

variable {held : List Nat} {t : GhtTable δ} {v : TableView δ} {order : List Nat} {chain : Nat → List Nat}

lemma chain_perm (h : TableModels held t v order chain) (b : Nat) :
    (v.chain b).Perm (v.keys.filter fun k => v.bucket k = b) := by
  have hfilter : (v.keys.filter fun k => v.bucket k = b) = (order.filter fun p => t.pBucketidx p = b).map t.key := by
    rw [← h.keys, List.filter_map]
    congr 1
    apply List.filter_congr
    intro p hp
    rw [comp_apply, h.bucket, GhtTable.bucket, h.inv.hashed p hp]
  rw [hfilter, ← h.chains]
  refine List.Perm.map _ ((List.perm_ext_iff_of_nodup (h.inv.chainNodup b) (h.inv.orderNodup.filter _)).mpr ?_)
  intro p
  rw [h.inv.mem_chain, List.mem_filter]
  simp

/-- More buckets split the old ones. -/
lemma rehashTo_within (h : TableModels held t v order chain) {n m : Nat} (hv : TableView.Within n v)
    (hm : v.size ≤ m) : TableView.Within n (v.rehashTo m) := by
  obtain ⟨hsize, hlimit, -, -⟩ := v.rehashTo_kept m
  refine ⟨hlimit.trans hv.limit, fun b => ?_⟩
  obtain ⟨order', chain', h'⟩ := h.rehashed m
  obtain ⟨k, hk, hpow⟩ := h.pow
  rw [← h.size] at hpow
  obtain ⟨k', -, hpow', -⟩ : ∃ k' ≤ 32, ghtSize m = 2 ^ k' ∧ (ghtCreate δ m).iSizeMask = 2 ^ k' - 1 := ghtSize_pow m
  have hle : k ≤ k' := by
    have hge := le_ghtSize hk (hpow ▸ hm)
    rw [hpow'] at hge
    exact (Nat.pow_le_pow_iff_right (by decide)).mp hge
  have hsplit : ∀ key, (v.rehashTo m).bucket key = b → v.bucket key = b % 2 ^ k := by
    intro key hb
    have hnew : (v.rehashTo m).size = 2 ^ k' := hsize.trans hpow'
    rw [TableView.bucket, hnew, Nat.and_two_pow_sub_one_eq_mod] at hb
    rw [TableView.bucket, hpow, Nat.and_two_pow_sub_one_eq_mod, ← hb]
    exact (Nat.mod_mod_of_dvd _ (Nat.pow_dvd_pow 2 hle)).symm
  calc ((v.rehashTo m).chain b).length
      = ((v.rehashTo m).keys.filter fun key => (v.rehashTo m).bucket key = b).length := (h'.chain_perm b).length_eq
    _ ≤ ((v.rehashTo m).keys.filter fun key => v.bucket key = b % 2 ^ k).length := by
        refine (List.monotone_filter_right _ ?_).length_le
        intro key hkey
        simpa using hsplit key (by simpa using hkey)
    _ ≤ (v.keys.filter fun key => v.bucket key = b % 2 ^ k).length :=
        (((v.rehashTo_entries m).map Prod.fst).filter _).length_le
    _ = (v.chain (b % 2 ^ k)).length := (h.chain_perm _).length_eq.symm
    _ ≤ n := hv.chains _

lemma chain_nodup (h : TableModels held t v order chain) (b : Nat) : (v.chain b).Nodup :=
  (h.chain_perm b).nodup_iff.mpr ((h.keys ▸ h.inv.keysNodup : v.keys.Nodup).filter _)

lemma mem_chain_iff (h : TableModels held t v order chain) (k : Bytes) : k ∈ v.chain (v.bucket k) ↔ k ∈ v.keys := by
  rw [(h.chain_perm _).mem_iff, List.mem_filter]
  simp

/-- The chains after an insertion: a full bucket loses its last key. -/
lemma link_chain (h : TableModels held t v order chain) (x : Option δ) (k : Bytes) :
    (v.link x k).chain = update v.chain (v.bucket k)
      (k :: if v.limit ≠ 0 ∧ v.limit ≤ (v.chain (v.bucket k)).length then (v.chain (v.bucket k)).dropLast
        else v.chain (v.bucket k)) ∧
      (v.link x k).toTableSettings = v.toTableSettings := by
  unfold TableView.link TableView.victim
  by_cases hfull : v.limit ≠ 0 ∧ v.limit ≤ (v.chain (v.bucket k)).length
  · rw [if_pos hfull, if_pos hfull]
    cases hlast : (v.chain (v.bucket k)).getLast? with
    | none =>
      rw [List.getLast?_eq_none_iff] at hlast
      simp [hlast] at hfull
    | some old =>
      have hnodup := h.chain_nodup (v.bucket k)
      have hsplit := List.dropLast_append_getLast? old hlast
      have hbucket : v.bucket old = v.bucket k := by
        have hm := (h.chain_perm _).mem_iff.mp (List.mem_of_mem_getLast? hlast)
        simpa using (List.mem_filter.mp hm).2
      have herase : (v.chain (v.bucket k)).erase old = (v.chain (v.bucket k)).dropLast := by
        rw [← hsplit] at hnodup
        have hout : old ∉ (v.chain (v.bucket k)).dropLast := fun hm =>
          (List.nodup_append.mp hnodup).2.2 old hm old (by simp) rfl
        conv_lhs => rw [← hsplit, List.erase_append_right _ hout]
        simp
      refine ⟨?_, rfl⟩
      simp only [TableView.add, TableView.drop]
      change update (update v.chain (v.bucket old) _) (v.bucket k)
        (k :: update v.chain (v.bucket old) _ (v.bucket k)) = _
      rw [hbucket, update_idem, update_self, herase]
  · rw [if_neg hfull, if_neg hfull]
    exact ⟨rfl, rfl⟩

lemma link_within (h : TableModels held t v order chain) (x : Option δ) (k : Bytes) {n : Nat} (hn : n ≠ 0)
    (hv : TableView.Within n v) : TableView.Within n (v.link x k) := by
  obtain ⟨hchain, hset⟩ := h.link_chain x k
  refine ⟨(congrArg TableSettings.limit hset).trans hv.limit, fun b => ?_⟩
  rw [hchain]
  by_cases hb : b = v.bucket k
  · subst hb
    have hle := hv.chains (v.bucket k)
    rw [update_self, List.length_cons, hv.limit]
    split
    · rw [List.length_dropLast]
      omega
    · rename_i hroom
      have hlt : (v.chain (v.bucket k)).length < n := Nat.lt_of_not_le fun hge => hroom ⟨hn, hge⟩
      omega
  · rw [update_of_ne hb]
    exact hv.chains b

lemma insert_within (h : TableModels held t v order chain) (x : Option δ) (k : Bytes) {n i : Nat} (hn : n ≠ 0)
    (hv : TableView.Within n v) (hfits : TableView.Fits i v) : TableView.Within n (v.insert x k).1 := by
  have hreq : TableView.Within n { v with requests := v.requests + 1 } := ⟨hv.limit, hv.chains⟩
  unfold TableView.insert
  split
  · exact hv
  · dsimp only
    split
    · dsimp only
      split
      · obtain ⟨order', chain', h'⟩ := h.request.rehashed (ghtDoubled v.size)
        refine h'.link_within x k hn (h.request.rehashTo_within hreq ?_)
        obtain ⟨j, hj, hsize⟩ := hfits.size
        change v.size ≤ ghtDoubled v.size
        rw [hsize, ghtDoubled_eq hj]
        exact Nat.pow_le_pow_right (by decide) (Nat.le_succ j)
      · exact h.request.link_within x k hn hreq
    · exact hreq

lemma promote_length (m : UInt8) {k : Bytes} {l : List Bytes} (hk : k ∈ l) :
    (TableView.promote m k l).length = l.length := by
  unfold TableView.promote
  split
  · rw [List.length_cons, List.length_erase_of_mem hk]
    have hpos := List.length_pos_of_mem hk
    omega
  · split
    · exact (swapUp_perm k l).length_eq
    · rfl

lemma touch_within (h : TableModels held t v order chain) (k : Bytes) {n : Nat} (hv : TableView.Within n v) :
    TableView.Within n (v.touch k) := by
  unfold TableView.touch
  split
  · rename_i hhas
    have hk : k ∈ v.keys := List.contains_iff_mem.mp hhas
    refine ⟨hv.limit, fun b => ?_⟩
    change (update v.chain (v.bucket k) _ b).length ≤ n
    by_cases hb : b = v.bucket k
    · subst hb
      rw [update_self, promote_length _ ((h.mem_chain_iff k).mpr hk)]
      exact hv.chains _
    · rw [update_of_ne hb]
      exact hv.chains b
  · exact hv

lemma drop_within (v : TableView δ) (k : Bytes) {n : Nat} (hv : TableView.Within n v) :
    TableView.Within n (v.drop k) := by
  refine ⟨hv.limit, fun b => ?_⟩
  change (update v.chain (v.bucket k) _ b).length ≤ n
  by_cases hb : b = v.bucket k
  · subst hb
    rw [update_self]
    exact List.erase_sublist.length_le.trans (hv.chains _)
  · rw [update_of_ne hb]
    exact hv.chains b

lemma call_within (h : TableModels held t v order chain) {n i : Nat} (hn : n ≠ 0) (hv : TableView.Within n v)
    (hfits : TableView.Fits i v) {c : TableCall δ} (hc : KeepsBounds t c) : TableView.Within n (v.call c).1 := by
  cases c with
  | insert x k => exact h.insert_within x k hn hv hfits
  | get k => exact h.touch_within k hv
  | replace x k =>
    have htouch := h.touch_within k hv
    exact ⟨htouch.limit, htouch.chains⟩
  | remove k => exact drop_within v k hv
  | removeFirst =>
    simp only [TableView.call, TableView.removeFirst]
    split
    · exact hv
    · exact drop_within v _ hv
  | removeAll => exact ⟨hv.limit, fun b => Nat.zero_le n⟩
  | rehash m =>
    have hm : t.iSize ≤ m := hc
    exact h.rehashTo_within hv (h.size ▸ hm)
  | setRehash b => exact ⟨hv.limit, hv.chains⟩
  | setHeuristics m => exact ⟨hv.limit, hv.chains⟩
  | setBoundedBuckets m => exact absurd hc id
  | size => exact hv
  | tableSize => exact hv

lemma run_within (h : TableModels held t v order chain) {n i : Nat} (hn : n ≠ 0) (hv : TableView.Within n v)
    (hfits : TableView.Fits i v) {cs : List (TableCall δ)} (hcs : AllKeepBounds t cs)
    (hsizes : ∀ m, .rehash m ∈ cs → m ≤ 2 ^ 30) (hfew : i + cs.countP inserts < 2 ^ 31) :
    TableView.Within n (v.run cs).1 := by
  induction cs generalizing t v order chain i with
  | nil => exact hv
  | cons c cs ih =>
    obtain ⟨-, order', chain', h'⟩ := h.call c
    rw [countP_inserts_cons, ← Nat.add_assoc] at hfew
    have hcall := hfits.call (by omega) fun m hm => hsizes m (hm ▸ List.mem_cons_self)
    exact ih h' (h.call_within hn hv hfits hcs.1) hcall hcs.2 (fun m hm => hsizes m (List.mem_cons_of_mem c hm)) hfew

lemma chain_length (h : TableModels held t v order chain) (b : Nat) :
    (ghtChain t.toGhtHashTable b).length = (v.chain b).length := by
  have hview := congrArg (fun w : TableView δ => (w.chain b).length) h.view_eq
  simpa [tableView] using hview

lemma items_le (h : TableModels held t v order chain) {n : Nat} (hv : TableView.Within n v) :
    t.iItems ≤ n * t.iSize := by
  have hsum : t.iItems = ∑ b ∈ Finset.range t.iSize, (v.chain b).length := by
    rw [h.inv.items, length_eq_sum_filter t.pBucketidx fun p hp => h.bucket_lt hp]
    refine Finset.sum_congr rfl fun b _ => ?_
    rw [(h.chain_perm b).length_eq, ← h.keys, List.filter_map, List.length_map]
    refine congrArg List.length (List.filter_congr fun p hp => ?_)
    rw [comp_apply, h.bucket, GhtTable.bucket, h.inv.hashed p hp]
  calc t.iItems = ∑ b ∈ Finset.range t.iSize, (v.chain b).length := hsum
    _ ≤ ∑ _b ∈ Finset.range t.iSize, n := Finset.sum_le_sum fun b _ => hv.chains b
    _ = n * t.iSize := by rw [Finset.sum_const, Finset.card_range, smul_eq_mul, Nat.mul_comm]

end TableModels

/-- Once a new table has a limit, no bucket holds more entries than it allows, whatever is called, as long
as the limit stays and no call asks for fewer buckets; the automatic rehash does not, with sizes in
range. -/
theorem bounded_buckets_hold (fnAlloc : Nat → Bool) {size n : Nat} (hn : n ≠ 0) {cs : List (TableCall δ)}
    (hrange : InRange size cs) (hcs : AllKeepBounds ((GhtTable.create fnAlloc size).setBoundedBuckets n) cs) :
    let t := (((GhtTable.create fnAlloc size).setBoundedBuckets n).run cs).1
    (∀ b, (ghtChain t.toGhtHashTable b).length ≤ n) ∧ t.iItems ≤ n * t.iSize := by
  intro t
  have hnew : TableModels [] (GhtTable.create fnAlloc size) (TableView.new fnAlloc size : TableView δ) []
      (fun _ => []) := .create fnAlloc size
  have h := hnew.setBoundedBuckets n
  have hfits : TableView.Fits 0 (TableView.new fnAlloc size : TableView δ) := TableView.fits_new fnAlloc hrange.size
  have hrun := h.run_within hn ⟨rfl, fun _ => Nat.zero_le n⟩ ⟨hfits.size, hfits.entries⟩ hcs hrange.rehashes
    (by rw [Nat.zero_add]; exact hrange.few)
  obtain ⟨-, order', chain', h'⟩ := h.run cs
  exact ⟨fun b => (h'.chain_length b).trans_le (hrun.chains b), h'.items_le hrun⟩

/-- Five keys for buckets of three entries, which are doubled by the fourth and then by a call. -/
def growingCalls : List (TableCall Nat) :=
  [.setRehash true, .insert (some 1) [1], .insert (some 2) [2], .insert (some 3) [3], .insert (some 4) [4], .rehash 4,
    .insert (some 5) [5]]

theorem bounded_buckets_hold_growingCalls :
    (((GhtTable.create (fun _ => true) 1).setBoundedBuckets 3).run (growingCalls.take 5)).1.iSize = 2 ∧
    (((GhtTable.create (fun _ => true) 1).setBoundedBuckets 3).run growingCalls).1.iSize = 4 ∧
    (((GhtTable.create (fun _ => true) 1).setBoundedBuckets 3).run growingCalls).1.iItems ≤ 3 * 4 := by
  have hsize : (((GhtTable.create (fun _ => true) 1).setBoundedBuckets 3).run growingCalls).1.iSize = 4 := by
    decide +kernel
  have hdoubled :
      (((GhtTable.create (fun _ => true) 1).setBoundedBuckets 3).run (growingCalls.take 5)).1.iSize = 2 := by
    decide +kernel
  have hrange : InRange 1 growingCalls := ⟨by decide, by simp [growingCalls], by decide⟩
  have hkeep : AllKeepBounds ((GhtTable.create (fun _ => true) 1).setBoundedBuckets 3) growingCalls :=
    ⟨trivial, trivial, trivial, trivial, trivial, (hdoubled.trans_le (by decide) : _ ≤ 4), trivial, trivial⟩
  have hbound := (bounded_buckets_hold (fun _ => true) (by decide) hrange hkeep).2
  rw [hsize] at hbound
  exact ⟨hdoubled, hsize, hbound⟩

/-!
## Least recently used
-/

/-- The calls of a cache: entries are put in, looked up and replaced, and only leave a full bucket. -/
def Caches : TableCall δ → Prop
  | .insert x _ | .replace x _ => x ≠ none
  | .get _ | .size | .tableSize => True
  | _ => False

/-- The key a call used: one it has inserted, found or replaced. -/
def usedBy : TableCall δ → TableReturn δ → List Bytes
  | .insert _ k, .status 0 | .get k, .datum (some _) | .replace _ k, .datum (some _) => [k]
  | _, _ => []

def usedKeys (cs : List (TableCall δ)) (rets : List (TableReturn δ)) : List Bytes :=
  (cs.zip rets).flatMap fun r => usedBy r.1 r.2

/-- Every bucket holds the `n` keys of it that were used last, in that order. -/
structure Recent (n : Nat) (used : List Bytes) (v : TableView δ) : Prop where
  limit : v.limit = n
  heuristics : v.heuristics.toUInt8 = ghtHeuristicsMoveToFront
  rehash : v.rehash = false
  data : ∀ e ∈ v.entries, e.2 ≠ none
  chains : ∀ b, v.chain b = (recent (used.filter fun k => v.bucket k = b)).take n

namespace Recent

variable {held : List Nat} {t : GhtTable δ} {v : TableView δ} {order : List Nat} {chain : Nat → List Nat} {n : Nat}
  {used : List Bytes}

/-- The buckets after one more use. -/
lemma chains_used {ch : Nat → List Bytes} {k : Bytes} {f : Bytes → Nat}
    (h : ∀ b, ch b = (recent (used.filter fun k => f k = b)).take (n + 1)) {l : List Bytes}
    (hl : l = k :: ((recent (used.filter fun k' => f k' = f k)).erase k).take n) (b : Nat) :
    update ch (f k) l b = (recent ((used ++ [k]).filter fun k => f k = b)).take (n + 1) := by
  rw [List.filter_append]
  by_cases hb : b = f k
  · subst hb
    rw [update_self, List.filter_cons_of_pos (by simp), List.filter_nil, recent_concat, List.take_succ_cons, hl]
  · rw [update_of_ne hb, List.filter_cons_of_neg (by simpa using Ne.symm hb), List.filter_nil, List.append_nil, h]

lemma touch (hv : Recent (n + 1) used v) (h : TableModels held t v order chain) {k : Bytes} (hk : k ∈ v.keys) :
    Recent (n + 1) (used ++ [k]) (v.touch k) ∧ (v.touch k).keys = v.keys := by
  have hmem : k ∈ v.chain (v.bucket k) := (h.mem_chain_iff k).mpr hk
  unfold TableView.touch
  rw [if_pos (TableView.has_of_mem hk)]
  refine ⟨⟨hv.limit, hv.heuristics, hv.rehash, hv.data, chains_used hv.chains ?_⟩, rfl⟩
  rw [TableView.promote, if_pos hv.heuristics]
  rw [hv.chains] at hmem ⊢
  rw [take_erase_of_mem hmem]

lemma link_data (hv : ∀ e ∈ v.entries, e.2 ≠ none) {x : Option δ} (hx : x ≠ none) (k : Bytes) :
    ∀ e ∈ (v.link x k).entries, e.2 ≠ none := by
  have hadd : ∀ w : TableView δ, (∀ e ∈ w.entries, e.2 ≠ none) → ∀ e ∈ (w.add x k).entries, e.2 ≠ none := by
    intro w hw e he
    rcases List.mem_append.mp he with he | he
    · exact hw e he
    · obtain rfl : e = (k, x) := by simpa using he
      exact hx
  unfold TableView.link
  split
  · exact hadd v hv
  · exact hadd _ fun e he => hv e (List.filter_sublist.subset he)

lemma link (hv : Recent (n + 1) used v) (h : TableModels held t v order chain) {x : Option δ} (hx : x ≠ none)
    {k : Bytes} (hk : k ∉ v.keys) : Recent (n + 1) (used ++ [k]) (v.link x k) := by
  obtain ⟨hchain, hset⟩ := h.link_chain x k
  have hbucket : (v.link x k).bucket = v.bucket := by
    funext k'
    rw [TableView.bucket, hset]
    rfl
  have hout : k ∉ v.chain (v.bucket k) := fun hm => hk ((h.mem_chain_iff k).mp hm)
  refine ⟨?_, ?_, ?_, link_data hv.data hx k, ?_⟩
  · rw [hset]
    exact hv.limit
  · rw [hset]
    exact hv.heuristics
  · rw [hset]
    exact hv.rehash
  · rw [hchain, hbucket]
    refine chains_used hv.chains ?_
    rw [hv.chains] at hout ⊢
    rw [take_erase_of_not_mem hout, hv.limit]
    congr 1
    split
    · rename_i hfull
      rw [List.length_take] at hfull
      rw [List.dropLast_eq_take, List.take_take, List.length_take]
      congr 1
      omega
    · rename_i hroom
      rw [List.length_take] at hroom
      have hlen : (recent (used.filter fun k' => v.bucket k' = v.bucket k)).length ≤ n := by omega
      rw [List.take_of_length_le hlen, List.take_of_length_le (Nat.le_succ_of_le hlen)]

lemma call (hv : Recent (n + 1) used v) (h : TableModels held t v order chain) {c : TableCall δ} (hc : Caches c) :
    Recent (n + 1) (used ++ usedBy c (v.call c).2) (v.call c).1 := by
  have hmiss : ∀ k, k ∉ v.keys → v.touch k = v := fun k hk => by
    simp only [TableView.touch, TableView.has_of_not_mem hk, Bool.false_eq_true, if_false]
  cases c with
  | insert x k =>
    by_cases hk : k ∈ v.keys
    · simp only [TableView.call, TableView.insert, TableView.has_of_mem hk, if_true, usedBy]
      rw [List.append_nil]
      exact hv
    · have hreq : Recent (n + 1) used { v with requests := v.requests + 1 } :=
        ⟨hv.limit, hv.heuristics, hv.rehash, hv.data, hv.chains⟩
      have hgrow : (v.rehash && decide (ghtDoubled v.size < v.entries.length)) = false := by
        rw [hv.rehash]
        rfl
      simp only [TableView.call, TableView.insert, TableView.has_of_not_mem hk, hgrow, Bool.false_eq_true, if_false]
      cases v.fnAlloc v.requests with
      | false =>
        simp only [Bool.false_eq_true, if_false, usedBy]
        rw [List.append_nil]
        exact hreq
      | true => exact hreq.link h.request hc hk
  | get k =>
    by_cases hk : k ∈ v.keys
    · obtain ⟨y, hy, -⟩ := h.stored hv.data hk
      simp only [TableView.call, hy, usedBy]
      exact (hv.touch h hk).1
    · simp only [TableView.call, v.lookup_none hk, usedBy, hmiss k hk]
      rw [List.append_nil]
      exact hv
  | replace x k =>
    by_cases hk : k ∈ v.keys
    · obtain ⟨y, hy, -⟩ := h.stored hv.data hk
      obtain ⟨htouch, -⟩ := hv.touch h hk
      simp only [TableView.call, hy, usedBy]
      refine ⟨htouch.limit, htouch.heuristics, htouch.rehash, ?_, htouch.chains⟩
      intro e he
      obtain ⟨e', he', rfl⟩ := List.mem_map.mp he
      split
      · exact hc
      · exact htouch.data e' he'
    · simp only [TableView.call, v.lookup_none hk, usedBy, v.replaced_absent x hk]
      rw [List.append_nil]
      exact hv
  | size =>
    simp only [TableView.call, usedBy]
    rw [List.append_nil]
    exact hv
  | tableSize =>
    simp only [TableView.call, usedBy]
    rw [List.append_nil]
    exact hv
  | _ => exact absurd hc id

lemma run (hv : Recent (n + 1) used v) (h : TableModels held t v order chain) {cs : List (TableCall δ)}
    (hcs : ∀ c ∈ cs, Caches c) : Recent (n + 1) (used ++ usedKeys cs (v.run cs).2) (v.run cs).1 := by
  induction cs generalizing t v order chain used with
  | nil => simpa [usedKeys, TableView.run] using hv
  | cons c cs ih =>
    obtain ⟨-, order', chain', h'⟩ := h.call c
    have hrest := ih (hv.call h (hcs c List.mem_cons_self)) h' fun c' hc' => hcs c' (List.mem_cons_of_mem c hc')
    simpa [usedKeys, TableView.run] using hrest

end Recent

/-- A table with a limit and the move-to-front heuristic is a least-recently-used cache in every bucket: it
holds the keys of the bucket that were used last, as many as the limit, and `ght_get` finds those only. A
failed insertion, of a key that is there or without memory, is not a use. -/
theorem caches_most_recent (fnAlloc : Nat → Bool) (size n : Nat) {cs : List (TableCall δ)}
    (hcs : ∀ c ∈ cs, Caches c) :
    let r := (((GhtTable.create fnAlloc size).setBoundedBuckets (n + 1)).setHeuristics 2).run cs
    let kept := fun b => (recent ((usedKeys cs r.2).filter fun k => r.1.bucket k = b)).take (n + 1)
    (∀ b, (ghtChain r.1.toGhtHashTable b).map Prod.fst = kept b) ∧
      ∀ k, (r.1.get k).2.isSome ↔ k ∈ kept (r.1.bucket k) := by
  intro r kept
  have hnew : TableModels [] (GhtTable.create fnAlloc size) (TableView.new fnAlloc size : TableView δ) []
      (fun _ => []) := .create fnAlloc size
  have hcache : TableModels [] (((GhtTable.create fnAlloc size).setBoundedBuckets (n + 1)).setHeuristics 2)
      ({ TableView.new fnAlloc size with limit := n + 1, heuristics := 2 } : TableView δ) [] (fun _ => []) :=
    (hnew.setBoundedBuckets (n + 1)).setHeuristics 2
  obtain ⟨hret, order, chain, h⟩ : r.2 = _ ∧ ∃ order chain, TableModels [] r.1 _ order chain := hcache.run cs
  have hstart : Recent (n + 1) []
      ({ TableView.new fnAlloc size with limit := n + 1, heuristics := 2 } : TableView δ) :=
    ⟨rfl, rfl, rfl, by simp [TableView.new], fun _ => rfl⟩
  have hrun := hstart.run hcache hcs
  rw [List.nil_append, ← hret] at hrun
  have hbuckets : ∀ b, (ghtChain r.1.toGhtHashTable b).map Prod.fst = kept b := by
    intro b
    have hchain := congrArg (fun w : TableView δ => w.chain b) h.view_eq
    refine Eq.trans hchain ((hrun.chains b).trans ?_)
    simp only [kept, h.bucket]
  refine ⟨hbuckets, fun k => ?_⟩
  rw [(h.get k).1, ← hbuckets]
  have hchain := congrArg (fun w : TableView δ => w.chain (r.1.bucket k)) h.view_eq
  simp only [tableView] at hchain
  rw [hchain, ← h.bucket, h.mem_chain_iff]
  constructor
  · intro hsome
    by_contra hk
    rw [TableView.lookup_none _ hk] at hsome
    simp at hsome
  · intro hk
    obtain ⟨y, hy, -⟩ := h.stored hrun.data hk
    rw [hy]
    rfl

/-- Two places, of which a lookup keeps the older entry. -/
def cachingCalls : List (TableCall Nat) :=
  [.insert (some 1) [1], .insert (some 2) [2], .get [1], .insert (some 9) [2], .insert (some 3) [3], .get [2]]

theorem caches_most_recent_cachingCalls :
    usedKeys cachingCalls ((((GhtTable.create (fun _ => true) 1).setBoundedBuckets 2).setHeuristics 2).run
      cachingCalls).2 = [[1], [2], [1], [3]] ∧
    (ghtChain ((((GhtTable.create (fun _ => true) 1).setBoundedBuckets 2).setHeuristics 2).run
      cachingCalls).1.toGhtHashTable 0).map Prod.fst = [[3], [1]] := by
  have hcaches : ∀ c ∈ cachingCalls, Caches c := by simp [cachingCalls, Caches]
  have hused : usedKeys cachingCalls ((((GhtTable.create (fun _ => true) 1).setBoundedBuckets 2).setHeuristics 2).run
      cachingCalls).2 = [[1], [2], [1], [3]] := by decide +kernel
  have hbucket := (caches_most_recent (fun _ => true) 1 1 hcaches).1 0
  rw [hused] at hbucket
  refine ⟨hused, hbucket.trans ?_⟩
  decide +kernel

end UnfsClient.Proofs
