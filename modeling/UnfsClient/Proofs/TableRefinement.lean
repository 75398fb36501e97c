import UnfsClient.HashTableApi
import UnfsClient.Proofs.HashTableRuns

/-!
# The whole table as lists

`TableView` is the table without addresses and links: the pairs in insertion order and the keys of
every bucket, the front one first. Each function of the interface does to a table what its
counterpart here does to the view, whatever the heuristics, the limit of the buckets, the data and
the allocator; and every entry that was allocated is linked or was freed, once.
-/

namespace UnfsClient.Proofs

open Function Lib DoublyLinked

variable {δ : Type}

/-!
## Views
-/

structure TableSettings where
  size : Nat
  rehash : Bool
  heuristics : UInt32
  limit : Nat
  fnAlloc : Nat → Bool
  requests : Nat

structure TableView (δ : Type) extends TableSettings where
  entries : List (Bytes × Option δ)
  chain : Nat → List Bytes
  evicted : List (Option δ × Bytes)

namespace TableView

def keys (v : TableView δ) : List Bytes := v.entries.map Prod.fst

def has (v : TableView δ) (k : Bytes) : Bool := v.keys.contains k

lemma has_of_mem {v : TableView δ} {k : Bytes} (h : k ∈ v.keys) : v.has k = true := List.contains_iff_mem.mpr h

lemma has_of_not_mem {v : TableView δ} {k : Bytes} (h : k ∉ v.keys) : v.has k = false := by
  rw [← Bool.not_eq_true]
  exact mt List.contains_iff_mem.mp h

def bucket (v : TableView δ) (k : Bytes) : Nat := (ghtOneAtATimeHash k).toNat &&& (v.size - 1)

def lookup (v : TableView δ) (k : Bytes) : Option δ :=
  ((v.entries.find? fun e => e.1 == k).map Prod.snd).join

/-- Where a key that was looked for ends up in its bucket. -/
def promote (heuristics : UInt8) (k : Bytes) (l : List Bytes) : List Bytes :=
  if heuristics = ghtHeuristicsMoveToFront then k :: l.erase k
  else if heuristics = ghtHeuristicsTranspose then swapUp k l
  else l

def touch (v : TableView δ) (k : Bytes) : TableView δ :=
  if v.has k then
    { v with chain := update v.chain (v.bucket k) (promote v.heuristics.toUInt8 k (v.chain (v.bucket k))) }
  else v

def add (v : TableView δ) (x : Option δ) (k : Bytes) : TableView δ :=
  { v with
    entries := v.entries ++ [(k, x)], chain := update v.chain (v.bucket k) (k :: v.chain (v.bucket k)) }

def drop (v : TableView δ) (k : Bytes) : TableView δ :=
  { v with
    entries := dropKey v.entries k, chain := update v.chain (v.bucket k) ((v.chain (v.bucket k)).erase k) }

/-- The key that has to leave a full bucket. -/
def victim (v : TableView δ) (k : Bytes) : Option Bytes :=
  if v.limit ≠ 0 ∧ v.limit ≤ (v.chain (v.bucket k)).length then (v.chain (v.bucket k)).getLast? else none

def link (v : TableView δ) (x : Option δ) (k : Bytes) : TableView δ :=
  match v.victim k with
  | none => v.add x k
  | some old => { (v.drop old).add x k with evicted := v.evicted ++ [(v.lookup old, old)] }

/-- A pair is copied to the new table if there is memory for it. -/
def copy (v : TableView δ) (e : Bytes × Option δ) : TableView δ :=
  let v' := { v with requests := v.requests + 1 }
  if v.fnAlloc v.requests then v'.add e.2 e.1 else v'

/-- A rehash keeps the pairs before the first null datum. -/
def rehashTo (v : TableView δ) (n : Nat) : TableView δ :=
  (v.entries.takeWhile fun e => e.2.isSome).foldl copy { v with size := ghtSize n, entries := [], chain := fun _ => [] }

def insert (v : TableView δ) (x : Option δ) (k : Bytes) : TableView δ × Int :=
  if v.has k then (v, -1)
  else
    let v' := { v with requests := v.requests + 1 }
    if v.fnAlloc v.requests then
      let grows := v.rehash && ghtDoubled v.size < v.entries.length
      (link (if grows then v'.rehashTo (ghtDoubled v.size) else v') x k, 0)
    else (v', -2)

def replaced (v : TableView δ) (x : Option δ) (k : Bytes) : TableView δ :=
  { v with entries := v.entries.map fun e => if e.1 = k then (k, x) else e }

def removeFirst (v : TableView δ) : TableView δ × Option δ :=
  match v.entries with
  | [] => (v, none)
  | e :: _ => (v.drop e.1, e.2)

def call (v : TableView δ) : TableCall δ → TableView δ × TableReturn δ
  | .insert x k => ((v.insert x k).1, .status (v.insert x k).2)
  | .get k => (v.touch k, .datum (v.lookup k))
  | .replace x k => ((v.touch k).replaced x k, .datum (v.lookup k))
  | .remove k => (v.drop k, .datum (v.lookup k))
  | .removeFirst => (v.removeFirst.1, .datum v.removeFirst.2)
  | .removeAll => ({ v with entries := [], chain := fun _ => [] }, .void)
  | .rehash n => (v.rehashTo n, .void)
  | .setRehash b => ({ v with rehash := b }, .void)
  | .setHeuristics h => ({ v with heuristics := h }, .void)
  | .setBoundedBuckets limit => ({ v with limit := limit }, .void)
  | .size => (v, .count v.entries.length)
  | .tableSize => (v, .count v.size)

def run (v : TableView δ) : List (TableCall δ) → TableView δ × List (TableReturn δ)
  | [] => (v, [])
  | c :: cs =>
    let r := run (v.call c).1 cs
    (r.1, (v.call c).2 :: r.2)

/-- What a new table holds. -/
def new (fnAlloc : Nat → Bool) (n : Nat) : TableView δ :=
  ⟨⟨ghtSize n, false, 0, 0, fnAlloc, 0⟩, [], fun _ => [], []⟩

end TableView

/-!
## Links
-/

attribute [ext] GhtHashTable

section Links

variable {t : GhtHashTable δ} {order : List Nat} {chain : Nat → List Nat}

/-- The entries of one bucket are put in another order. -/
lemma GhtInv.reorder (h : GhtInv t order chain) {b : Nat} {l : List Nat} {nx pv : Nat → Option Nat}
    (hperm : l.Perm (chain b)) (hl : Linked nx pv none l) (hnx : ∀ q, q ∉ chain b → nx q = t.pNext q)
    (hpv : ∀ q, q ∉ chain b → pv q = t.pPrev q) :
    GhtInv { t with pNext := nx, pPrev := pv, ppEntries := update t.ppEntries b l.head? } order
      (update chain b l) := by
  refine ⟨h.ages, h.oldest, h.newest, h.orderNodup, ?_, ?_, ?_, ?_, h.hashed, h.keysNodup, ?_, h.items, h.old, h.datum⟩
  · intro c
    by_cases hc : c = b
    · subst hc
      rw [update_self]
      exact hl
    · rw [update_of_ne hc]
      -- an entry is in one chain only
      have hout : ∀ q ∈ chain c, q ∉ chain b := fun q hq hq' =>
        hc (((h.mem_chain c q).mp hq).2.symm.trans ((h.mem_chain b q).mp hq').2)
      exact linked_congr (fun q hq => hnx q (hout q hq)) (fun q hq => hpv q (hout q hq)) (h.chains c)
  · intro c
    by_cases hc : c = b
    · subst hc
      simp
    · simp [update_of_ne hc, h.heads]
  · intro c
    by_cases hc : c = b
    · subst hc
      rw [update_self]
      exact hperm.nodup_iff.mpr (h.chainNodup c)
    · rw [update_of_ne hc]
      exact h.chainNodup c
  · intro c q
    by_cases hc : c = b
    · subst hc
      rw [update_self, hperm.mem_iff]
      exact h.mem_chain c q
    · rw [update_of_ne hc]
      exact h.mem_chain c q
  · intro c
    by_cases hc : c = b
    · subst hc
      rw [update_self, hperm.length_eq]
      exact h.nr c
    · rw [update_of_ne hc]
      exact h.nr c

lemma GhtInv.moveToFront (h : GhtInv t order chain) {b p : Nat} (hp : p ∈ chain b) :
    GhtInv (moveToFront t b p) order (update chain b (p :: (chain b).erase p)) := by
  unfold UnfsClient.moveToFront
  by_cases hfirst : t.ppEntries b = some p
  · rw [if_pos hfirst]
    have hhead : (chain b).head? = some p := (h.heads b).symm.trans hfirst
    have hsame : p :: (chain b).erase p = chain b := by
      cases hl : chain b with
      | nil => simp [hl] at hhead
      | cons c l =>
        obtain rfl : c = p := by simpa [hl] using hhead
        simp
    rw [hsame, update_eq_self]
    exact h
  · rw [if_neg hfirst]
    have hne : (chain b).head? ≠ some p := fun he => hfirst ((h.heads b).trans he)
    have hlinked := linked_move_front (h.chainNodup b) (h.chains b) hp hne
    rw [← h.heads b] at hlinked
    refine h.reorder (List.perm_cons_erase hp).symm hlinked ?_ ?_
    · intro q hq
      have hqp : q ≠ p := fun he => hq (he ▸ hp)
      rw [update_of_ne hqp, setAt_of_ne]
      intro he
      rcases linked_pv_mem (h.chains b) hp he with hm | hm
      · exact hq hm
      · simp at hm
    · intro q hq
      have hqp : q ≠ p := fun he => hq (he ▸ hp)
      rw [setAt_of_ne, update_of_ne hqp, setAt_of_ne]
      · exact fun he => hq (linked_nx_mem (h.chains b) hp he)
      · rw [h.heads b]
        exact fun he => hq (List.mem_of_mem_head? he)

lemma GhtInv.transpose (h : GhtInv t order chain) {b p : Nat} (hp : p ∈ chain b) :
    GhtInv (transpose t b p) order (update chain b (swapUp p (chain b))) := by
  unfold UnfsClient.transpose
  have hnodup := h.chainNodup b
  rcases linked_pred (h.chains b) hp with ⟨hpv, r, hl⟩ | ⟨s, x, r, hpv, hl⟩
  · have hpr : p ∉ r := (List.nodup_cons.mp (hl ▸ hnodup)).1
    have hsame : swapUp p (chain b) = chain b := by rw [hl, swapUp_of_not_mem p hpr]
    rw [hpv, hsame, update_eq_self]
    exact h
  · have hlinked := h.chains b
    rw [hl] at hnodup hlinked
    have hx : x ∈ chain b := by simp [hl]
    have hxp : x ≠ p := by
      rintro rfl
      simp [List.nodup_append] at hnodup
    have hps : p ∉ s := by
      intro hm
      exact (List.nodup_append.mp hnodup).2.2 p hm p (by simp) rfl
    have hswap := linked_swap hnodup (by simp) hlinked
    have hmove : swapUp p (chain b) = s ++ p :: x :: r := by rw [hl, swapUp_append hps hxp]
    have hhead : update t.ppEntries b (swapUp p (chain b)).head? =
        if t.pPrev x = none then update t.ppEntries b (some p) else t.ppEntries := by
      rw [hmove]
      cases s with
      | nil => simp [hlinked.1]
      | cons c s =>
        have hpx : t.pPrev x ≠ none := by
          intro hn
          rcases linked_pred hlinked.2.2 (show x ∈ s ++ x :: p :: r by simp) with ⟨he, -⟩ | ⟨-, y, -, he, -⟩
          · simp [hn] at he
          · simp [hn] at he
        rw [if_neg hpx]
        funext c'
        by_cases hc : c' = b
        · subst hc
          simp [h.heads, hl]
        · rw [update_of_ne hc]
    rw [hpv]
    simp only
    rw [← hhead]
    refine h.reorder (swapUp_perm p _) (hmove ▸ hswap) ?_ ?_
    · intro q hq
      have hqp : q ≠ p := fun he => hq (he ▸ hp)
      have hqx : q ≠ x := fun he => hq (he ▸ hx)
      rw [update_of_ne hqp, update_of_ne hqx, setAt_of_ne]
      intro he
      rcases linked_pv_mem (h.chains b) hx he with hm | hm
      · exact hq hm
      · simp at hm
    · intro q hq
      have hqp : q ≠ p := fun he => hq (he ▸ hp)
      have hqx : q ≠ x := fun he => hq (he ▸ hx)
      rw [update_of_ne hqp, update_of_ne hqx, setAt_of_ne]
      exact fun he => hq (linked_nx_mem (h.chains b) hp he)

lemma GhtInv.setDatum (h : GhtInv t order chain) (p : Nat) (x : δ) :
    GhtInv { t with pData := update t.pData p (some x) } order chain := by
  refine ⟨h.ages, h.oldest, h.newest, h.orderNodup, h.chains, h.heads, h.chainNodup, h.mem_chain, h.hashed,
    h.keysNodup, h.nr, h.items, h.old, ?_⟩
  intro q hq
  by_cases hqp : q = p
  · subst hqp
    simp
  · simpa only [update_of_ne hqp] using h.datum q hq

/-- The links of the entries alone matter. -/
lemma GhtInv.pPrev_congr (h : GhtInv t order chain) {pv : Nat → Option Nat} (hpv : ∀ q ∈ order, pv q = t.pPrev q) :
    GhtInv { t with pPrev := pv } order chain :=
  ⟨h.ages, h.oldest, h.newest, h.orderNodup,
    fun b => linked_congr (fun _ _ => rfl) (fun q hq => hpv q ((h.mem_chain b q).mp hq).1) (h.chains b),
    h.heads, h.chainNodup, h.mem_chain, h.hashed, h.keysNodup, h.nr, h.items, h.old, h.datum⟩

lemma GhtInv.freshAt (h : GhtInv t order chain) {f : Nat} (hf : t.fresh ≤ f) :
    GhtInv { t with fresh := f } order chain :=
  ⟨h.ages, h.oldest, h.newest, h.orderNodup, h.chains, h.heads, h.chainNodup, h.mem_chain, h.hashed,
    h.keysNodup, h.nr, h.items, fun p hp => Nat.lt_of_lt_of_le (h.old p hp) hf, h.datum⟩

lemma setAt_update_comm {β : Type} (f : Nat → β) {o : Option Nat} {a : Nat} (h : o ≠ some a) (u w : β) :
    setAt (update f a u) o w = update (setAt f o w) a u := by
  cases o with
  | none => rfl
  | some c =>
    have hca : c ≠ a := fun he => h (congrArg some he)
    exact (update_comm hca w u f).symm

lemma update_setAt_update {β : Type} (f : Nat → β) (o : Option Nat) (a : Nat) (u w z : β) :
    update (setAt (update f a u) o w) a z = update (setAt f o w) a z := by
  funext c
  by_cases hca : c = a
  · subst hca
    simp
  · rw [update_of_ne hca, update_of_ne hca]
    by_cases hoc : o = some c
    · subst hoc
      simp
    · rw [setAt_of_ne _ _ _ _ hoc, setAt_of_ne _ _ _ _ hoc, update_of_ne hca]

/-- The last entry of a bucket has no successor, and it has a predecessor or is alone. -/
lemma GhtInv.last_links (h : GhtInv t order chain) {p b : Nat} (hlast : (chain b).getLast? = some p) :
    t.pNext p = none ∧ (t.pPrev p = none ∧ t.ppEntries b = some p ∨
      ∃ y ∈ chain b, t.pPrev p = some y ∧ t.ppEntries b ≠ some p) := by
  have hpc : p ∈ chain b := List.mem_of_mem_getLast? hlast
  have hnodup := h.chainNodup b
  constructor
  · have hl := getLast?_erase hnodup (h.chains b) hpc
    simp only [Option.or_none] at hl
    by_contra hne
    rw [if_neg hne, hlast] at hl
    exact hnodup.not_mem_erase (List.mem_of_mem_getLast? hl)
  · rcases linked_pred (h.chains b) hpc with ⟨hpv, r, hl⟩ | ⟨s, y, r, hpv, hl⟩
    · refine Or.inl ⟨hpv, ?_⟩
      rw [h.heads, hl]
      rfl
    · refine Or.inr ⟨y, by simp [hl], hpv, ?_⟩
      rw [hl] at hnodup
      rw [h.heads, hl]
      cases s with
      | nil =>
        rintro ⟨rfl⟩
        simp at hnodup
      | cons c s =>
        rintro ⟨rfl⟩
        simp at hnodup

/-- The last entry of a full bucket makes room for the new one in front. But for a link of the entry
that is freed this is the plain removal followed by the plain insertion. -/
lemma placeFirst_removeLast (h : GhtInv t order chain) {p b : Nat} {k : Bytes} (x : δ) (hb : b = ghtBucket t k)
    (hlast : (chain b).getLast? = some p) :
    ∃ pv, (∀ q, q ≠ p → pv q = (ghtLink (ghtUnlink t b p) x k).pPrev q) ∧
      placeNewest (removeFromChain (placeFirst t x k b) b p) t.fresh =
        { ghtLink (ghtUnlink t b p) x k with pPrev := pv, iItems := t.iItems, pNr := t.pNr } := by
  obtain ⟨hnext, hprev⟩ := h.last_links hlast
  have hpc : p ∈ chain b := List.mem_of_mem_getLast? hlast
  have hp : p ∈ order := ((h.mem_chain b p).mp hpc).1
  have hfresh : ∀ q ∈ order, q ≠ t.fresh := fun q hq => Nat.ne_of_lt (h.old q hq)
  have hpf : p ≠ t.fresh := hfresh p hp
  have holder : t.pOlder p ≠ some t.fresh := by
    intro he
    rcases linked_pv_mem h.ages hp he with hm | hm
    · exact hfresh _ hm rfl
    · simp at hm
  have hheads : (ghtUnlink t b p).ppEntries = if t.pPrev p = none then update t.ppEntries b none else t.ppEntries := by
    simp only [ghtUnlink, removeFromChain, hnext]
  have hback : (ghtLink (ghtUnlink t b p) x k).pPrev =
      setAt (update t.pPrev t.fresh none) ((ghtUnlink t b p).ppEntries b) (some t.fresh) := by
    rw [hb]
    simp only [ghtLink, ghtUnlink, removeFromChain, hnext]
    rfl
  have hforth : (ghtLink (ghtUnlink t b p) x k).pNext =
      update (setAt t.pNext (t.pPrev p) none) t.fresh ((ghtUnlink t b p).ppEntries b) := by
    rw [hb]
    simp only [ghtLink, ghtUnlink, removeFromChain, hnext]
    rfl
  have hfront : (ghtLink (ghtUnlink t b p) x k).ppEntries = update (ghtUnlink t b p).ppEntries b (some t.fresh) := by
    rw [hb]
    rfl
  refine ⟨(placeFirst t x k b).pPrev, ?_, ?_⟩
  · intro q hq
    rw [hback, hheads]
    rcases hprev with ⟨hpv, hhead⟩ | ⟨y, -, hpv, -⟩
    · simp only [placeFirst, hpv, hhead, if_true, update_self]
      exact setAt_of_ne _ _ _ _ (by simpa using Ne.symm hq)
    · simp only [placeFirst, hpv, reduceCtorEq, if_false]
  · have hafter : (placeFirst t x k b).pNext p = none := (update_of_ne hpf _ _).trans hnext
    have hbefore : (placeFirst t x k b).pPrev p = some ((t.pPrev p).getD t.fresh) := by
      rcases hprev with ⟨hpv, hhead⟩ | ⟨y, -, hpv, hhead⟩
      · simp [placeFirst, hpv, hhead]
      · simp only [placeFirst, hpv]
        rw [setAt_of_ne _ _ _ _ hhead, update_of_ne hpf, hpv]
        rfl
    have hOlder : (placeFirst t x k b).pOlder p = t.pOlder p := update_of_ne hpf _ _
    have hNewer : (placeFirst t x k b).pNewer p = t.pNewer p := update_of_ne hpf _ _
    refine GhtHashTable.ext rfl rfl rfl rfl ?_ rfl ?_ rfl rfl ?_ ?_ ?_ ?_ ?_ rfl rfl
    · -- `pp_entries`
      simp only [placeNewest, removeFromChain, hbefore, reduceCtorEq, if_false, hfront, hheads]
      rcases hprev with ⟨hpv, hhead⟩ | ⟨y, -, hpv, -⟩
      · simp [placeFirst, hpv]
      · simp [placeFirst, hpv]
    · -- `p_oldest`
      simp only [placeNewest, removeFromChain, hOlder, hNewer]
      rfl
    · -- `p_bucketidx`
      rw [hb]
      rfl
    · -- `p_next`
      rw [hforth, hheads]
      simp only [placeNewest, removeFromChain, hafter, hbefore]
      rcases hprev with ⟨hpv, hhead⟩ | ⟨y, hy, hpv, -⟩
      · simp [placeFirst, hpv, setAt]
      · have hyf : y ≠ t.fresh := hfresh y ((h.mem_chain b y).mp hy).1
        simp only [placeFirst, hpv, Option.getD_some, reduceCtorEq, if_false]
        exact setAt_update_comm _ (by simpa using hyf) _ _
    · -- `p_prev`
      simp only [placeNewest, removeFromChain, hafter]
      rfl
    · -- `p_older`
      simp only [placeNewest, removeFromChain, hOlder, hNewer]
      exact update_setAt_update _ _ _ _ _ _
    · -- `p_newer`
      simp only [placeNewest, removeFromChain, hOlder, hNewer]
      simp only [placeFirst, ghtLink, ghtUnlink, removeFromChain]
      rw [setAt_update_comm _ holder]

end Links

/-!
## Tables and views
-/

def tableSettings (t : GhtTable δ) : TableSettings :=
  ⟨t.iSize, t.iAutomaticRehash, t.iHeuristics, t.bucketLimit, t.fnAlloc, t.requests⟩

/-- The table holds what the view says; `held` are entries that belong to another table. -/
structure TableModels (held : List Nat) (t : GhtTable δ) (v : TableView δ) (order : List Nat)
    (chain : Nat → List Nat) : Prop where
  inv : GhtInv t.toGhtHashTable order chain
  entries : (order.map fun p => (t.key p, t.pData p)) = v.entries.map fun e => (e.1, some e.2)
  chains : ∀ b, (chain b).map t.key = v.chain b
  settings : tableSettings t = v.toTableSettings
  pow : ∃ k ≤ 32, t.iSize = 2 ^ k
  mask : t.iSizeMask = t.iSize - 1
  evicted : t.bucketFreed = v.evicted
  ledger : (held ++ order ++ t.fnFreed).Perm (List.range t.fresh)

lemma find?_of_nodup_keys {α : Type} {es : List (Bytes × α)} (h : (es.map Prod.fst).Nodup) {e : Bytes × α}
    (he : e ∈ es) : (es.find? fun e' => e'.1 == e.1) = some e := by
  cases hf : es.find? fun e' => e'.1 == e.1 with
  | none => exact absurd (by simp) (List.find?_eq_none.mp hf e he)
  | some e' =>
    have hk : e'.1 = e.1 := by simpa using List.find?_some hf
    rw [List.inj_on_of_nodup_map h (List.mem_of_find?_eq_some hf) he hk]

lemma map_erase_of_inj {α β : Type} [DecidableEq α] [BEq β] [LawfulBEq β] {f : α → β} {a : α} {l : List α}
    (h : ∀ y ∈ l, f y = f a → y = a) : (l.erase a).map f = (l.map f).erase (f a) := by
  induction l with
  | nil => rfl
  | cons x l ih =>
    have hrest := ih fun y hy => h y (List.mem_cons_of_mem x hy)
    by_cases hx : x = a
    · subst hx
      simp
    · have hfx : f x ≠ f a := fun he => hx (h x (by simp) he)
      rw [List.erase_cons_tail (by simpa using hx), List.map_cons, List.map_cons,
        List.erase_cons_tail (by simpa using hfx), hrest]

namespace TableModels

variable {held : List Nat} {t : GhtTable δ} {v : TableView δ} {order : List Nat} {chain : Nat → List Nat}

lemma size (h : TableModels held t v order chain) : v.size = t.iSize :=
  (congrArg TableSettings.size h.settings).symm

lemma bucket (h : TableModels held t v order chain) (k : Bytes) : v.bucket k = t.bucket k := by
  rw [TableView.bucket, GhtTable.bucket, ghtBucket, h.mask, h.size]

lemma keys (h : TableModels held t v order chain) : order.map t.key = v.keys := GhtRefines.keys_eq h.entries

lemma keys_nodup (h : TableModels held t v order chain) : (v.entries.map Prod.fst).Nodup := by
  rw [← TableView.keys, ← h.keys]
  exact h.inv.keysNodup

lemma items (h : TableModels held t v order chain) : t.iItems = v.entries.length := by
  have hlen := congrArg List.length h.entries
  rw [List.length_map, List.length_map] at hlen
  rw [h.inv.items, hlen]

lemma mem_keys (h : TableModels held t v order chain) {p : Nat} (hp : p ∈ order) : t.key p ∈ v.keys := by
  rw [← h.keys]
  exact List.mem_map_of_mem hp

lemma entry (h : TableModels held t v order chain) {p : Nat} (hp : p ∈ order) :
    (t.key p, t.datum p) ∈ v.entries ∧ t.pData p = some (t.datum p) := by
  have hmem : (t.key p, t.pData p) ∈ v.entries.map fun e => (e.1, some e.2) := by
    rw [← h.entries]
    exact List.mem_map_of_mem hp
  obtain ⟨e, he, heq⟩ := List.mem_map.mp hmem
  obtain ⟨hek, hex⟩ := Prod.mk.inj heq
  have hdatum : t.datum p = e.2 := by rw [GhtTable.datum, ← hex]; rfl
  rw [hdatum, ← hek]
  exact ⟨he, hex.symm⟩

lemma lookup (h : TableModels held t v order chain) {p : Nat} (hp : p ∈ order) :
    v.lookup (t.key p) = t.datum p := by
  have hfind := find?_of_nodup_keys h.keys_nodup (h.entry hp).1
  rw [TableView.lookup, hfind]
  rfl

lemma find_none (h : TableModels held t v order chain) {k : Bytes} (hk : k ∉ v.keys) : t.find k = none := by
  cases hs : t.find k with
  | none => rfl
  | some p =>
    obtain ⟨hp, hpk, -⟩ := h.inv.search_some hs
    rw [← h.keys] at hk
    exact absurd (List.mem_map.mpr ⟨p, hp, hpk⟩) hk

lemma find_some (h : TableModels held t v order chain) {p : Nat} (hp : p ∈ order) : t.find (t.key p) = some p := by
  cases hs : t.find (t.key p) with
  | none => exact absurd rfl (h.inv.search_none hs p hp)
  | some q =>
    obtain ⟨hq, hqk, -⟩ := h.inv.search_some hs
    rw [h.inv.key_inj hq hp hqk]

lemma mem_order (h : TableModels held t v order chain) {k : Bytes} (hk : k ∈ v.keys) : ∃ p ∈ order, t.key p = k := by
  rw [← h.keys] at hk
  obtain ⟨p, hp, hpk⟩ := List.mem_map.mp hk
  exact ⟨p, hp, hpk⟩

lemma key_inj_chain (h : TableModels held t v order chain) {b p : Nat} (hp : p ∈ order) :
    ∀ q ∈ chain b, t.key q = t.key p → q = p :=
  fun q hq he => h.inv.key_inj ((h.inv.mem_chain b q).mp hq).1 hp he

lemma mem_bucket (h : TableModels held t v order chain) {p : Nat} (hp : p ∈ order) :
    p ∈ chain (t.bucket (t.key p)) :=
  (h.inv.mem_chain _ p).mpr ⟨hp, (h.inv.hashed p hp).symm⟩

/-!
### Insertion
-/

lemma linkPlain_eq (t : GhtHashTable δ) (x : δ) (k : Bytes) :
    placeNewest { placeFirst t x k (ghtBucket t k) with
      pNr := update t.pNr (ghtBucket t k) (t.pNr (ghtBucket t k) + 1), iItems := t.iItems + 1 } t.fresh =
      ghtLink t x k := by
  refine GhtHashTable.ext rfl rfl rfl rfl rfl rfl rfl rfl rfl rfl rfl rfl ?_ rfl rfl rfl
  exact update_idem _ _ _

lemma add (h : TableModels held t v order chain) (x : Option δ) {k : Bytes} (hk : k ∉ v.keys) :
    TableModels held { t with toGhtHashTable := ghtLink t.toGhtHashTable x k } (v.add x k) (order ++ [t.fresh])
      (update chain (t.bucket k) (t.fresh :: chain (t.bucket k))) := by
  have hne : ∀ p ∈ order, t.key p ≠ k := fun p hp he => hk (he ▸ h.mem_keys hp)
  have hold : ∀ b, (chain b).map (ghtLink t.toGhtHashTable x k).key = (chain b).map t.key := by
    intro b
    apply List.map_congr_left
    intro p hp
    exact update_of_ne (Nat.ne_of_lt (h.inv.old p ((h.inv.mem_chain b p).mp hp).1)) _ _
  refine ⟨h.inv.link x k hne, h.inv.link_entries h.entries x k, ?_, h.settings, h.pow, h.mask, h.evicted, ?_⟩
  · intro b
    simp only [TableView.add, h.bucket]
    by_cases hb : b = t.bucket k
    · subst hb
      rw [update_self, update_self, List.map_cons, hold, h.chains]
      simp [ghtLink]
    · rw [update_of_ne hb, update_of_ne hb, hold, h.chains]
  · have hperm : (held ++ (order ++ [t.fresh]) ++ t.fnFreed).Perm (held ++ order ++ t.fnFreed ++ [t.fresh]) := by
      simp only [List.append_assoc]
      exact (List.perm_append_comm.append_left order).append_left held
    refine hperm.trans ?_
    simp only [ghtLink, List.range_succ]
    exact h.ledger.append_right _

lemma drop (h : TableModels held t v order chain) {p : Nat} (hp : p ∈ order) :
    TableModels held (t.unlink (t.pBucketidx p) p).1 (v.drop (t.key p)) (order.erase p)
      (update chain (t.pBucketidx p) ((chain (t.pBucketidx p)).erase p)) := by
  refine ⟨h.inv.unlink hp, h.inv.erase_entries h.entries hp, ?_, h.settings, h.pow, h.mask, h.evicted, ?_⟩
  · intro b
    have hbucket : v.bucket (t.key p) = t.pBucketidx p := (h.bucket _).trans (h.inv.hashed p hp)
    change _ = (update v.chain (v.bucket (t.key p)) _) b
    rw [hbucket]
    by_cases hb : b = t.pBucketidx p
    · subst hb
      rw [update_self, update_self, ← h.chains]
      exact map_erase_of_inj (h.key_inj_chain hp)
    · rw [update_of_ne hb, update_of_ne hb]
      exact h.chains b
  · have hfreed : (held ++ order.erase p ++ (t.fnFreed ++ [p])).Perm (held ++ order ++ t.fnFreed) := by
      have hback : (order.erase p ++ (t.fnFreed ++ [p])).Perm (order ++ t.fnFreed) := by
        rw [← List.append_assoc]
        refine List.perm_append_comm.trans ?_
        exact (List.perm_cons_erase hp).symm.append_right t.fnFreed
      simp only [List.append_assoc]
      exact hback.append_left held
    exact hfreed.trans h.ledger

/-- In a full bucket the last entry goes. -/
lemma evict (h : TableModels held t v order chain) (x : Option δ) {k : Bytes} (hk : k ∉ v.keys) {p : Nat}
    (hlast : (chain (t.bucket k)).getLast? = some p) (hfull : t.bucketLimit ≠ 0)
    (hnr : (t.bucketLimit : Int) ≤ t.pNr (t.bucket k)) :
    ∃ order' chain', TableModels held (t.link x k)
      { (v.drop (t.key p)).add x k with evicted := v.evicted ++ [(v.lookup (t.key p), t.key p)] } order' chain' := by
  have hpc : p ∈ chain (t.bucket k) := List.mem_of_mem_getLast? hlast
  obtain ⟨hp, hpb⟩ := (h.inv.mem_chain _ p).mp hpc
  have hpf : p ≠ t.fresh := Nat.ne_of_lt (h.inv.old p hp)
  have hkeys : k ∉ (v.drop (t.key p)).keys := fun hm => hk ((List.filter_sublist.map _).subset hm)
  have hmodels := (h.drop hp).add x hkeys
  -- the loop that looks for the last entry starts at the new one
  have hnew : t.fresh ∉ chain (t.bucket k) := fun hm =>
    absurd (h.inv.old _ ((h.inv.mem_chain _ _).mp hm).1) (lt_irrefl _)
  have hpushed := linked_push_front (h.inv.chainNodup _) hnew (h.inv.chains (t.bucket k))
  rw [← h.inv.heads] at hpushed
  have hfound : lastNode (placeFirst t.toGhtHashTable x k (t.bucket k)).pNext
      (placeFirst t.toGhtHashTable x k (t.bucket k)).iItems t.fresh = p := by
    have hl := lastNode_linked hpushed (h.inv.chain_length_le (t.bucket k))
    have hcons : (t.fresh :: chain (t.bucket k)).getLast? = some p := by
      rw [List.getLast?_cons, hlast]
      rfl
    exact Option.some.inj (hl.symm.trans hcons)
  obtain ⟨pv, hpv, hplaced⟩ := placeFirst_removeLast h.inv x (rfl : t.bucket k = ghtBucket t.toGhtHashTable k) hlast
  have hitems : t.iItems = t.iItems - 1 + 1 := by
    have hpos := List.length_pos_of_mem hp
    rw [h.inv.items]
    omega
  have hnrs : (ghtLink (ghtUnlink t.toGhtHashTable (t.bucket k) p) x k).pNr = t.pNr := by
    funext b
    change update (update t.pNr (t.bucket k) (t.pNr (t.bucket k) - 1)) (t.bucket k)
      (update t.pNr (t.bucket k) (t.pNr (t.bucket k) - 1) (t.bucket k) + 1) b = t.pNr b
    rw [update_idem, update_self, sub_add_cancel, update_eq_self]
  have hlink : t.link x k =
      { t with
        toGhtHashTable := { ghtLink (ghtUnlink t.toGhtHashTable (t.bucket k) p) x k with pPrev := pv }
        fnFreed := t.fnFreed ++ [p]
        bucketFreed := t.bucketFreed ++ [(t.datum p, t.key p)] } := by
    have hbase : ({ ghtLink (ghtUnlink t.toGhtHashTable (t.bucket k) p) x k with
        pPrev := pv, iItems := t.iItems, pNr := t.pNr } : GhtHashTable (Option δ)) =
        { ghtLink (ghtUnlink t.toGhtHashTable (t.bucket k) p) x k with pPrev := pv } :=
      GhtHashTable.ext hitems rfl rfl rfl rfl hnrs.symm rfl rfl rfl rfl rfl rfl rfl rfl rfl rfl
    have hdatum : (removeFromChain (placeFirst t.toGhtHashTable x k (t.bucket k)) (t.bucket k) p).pData p =
        t.pData p := update_of_ne hpf _ _
    have hkey : (removeFromChain (placeFirst t.toGhtHashTable x k (t.bucket k)) (t.bucket k) p).key p =
        t.key p := update_of_ne hpf _ _
    unfold GhtTable.link
    dsimp only
    rw [if_pos (c := t.bucketLimit ≠ 0 ∧
      (t.bucketLimit : Int) ≤ (placeFirst t.toGhtHashTable x k (t.bucket k)).pNr (t.bucket k)) ⟨hfull, hnr⟩]
    unfold GhtTable.evictLast
    dsimp only [GhtTable.heFinalize, GhtTable.datum]
    rw [hfound, hplaced, hbase, hdatum, hkey]
  have hprev : ∀ q ∈ order.erase p ++ [t.fresh],
      pv q = (ghtLink (ghtUnlink t.toGhtHashTable (t.bucket k) p) x k).pPrev q := by
    intro q hq
    apply hpv
    rintro rfl
    rcases List.mem_append.mp hq with hq | hq
    · exact h.inv.orderNodup.not_mem_erase hq
    · exact hpf (by simpa using hq)
  rw [hlink, h.lookup hp]
  rw [hpb] at hmodels
  exact ⟨_, _, hmodels.inv.pPrev_congr hprev, hmodels.entries, hmodels.chains, hmodels.settings, hmodels.pow,
    hmodels.mask, by rw [h.evicted], hmodels.ledger⟩

lemma link (h : TableModels held t v order chain) (x : Option δ) {k : Bytes} (hk : k ∉ v.keys) :
    ∃ order' chain', TableModels held (t.link x k) (v.link x k) order' chain' := by
  have hlength : ((v.chain (v.bucket k)).length : Int) = t.pNr (t.bucket k) := by
    rw [h.bucket, ← h.chains, List.length_map, h.inv.nr]
  have hlimit : v.limit = t.bucketLimit := (congrArg TableSettings.limit h.settings).symm
  unfold TableView.link TableView.victim
  by_cases hfull : v.limit ≠ 0 ∧ v.limit ≤ (v.chain (v.bucket k)).length
  · rw [if_pos hfull]
    have hnr : (t.bucketLimit : Int) ≤ t.pNr (t.bucket k) := by
      rw [← hlength, ← hlimit]
      exact_mod_cast hfull.2
    cases hl : (chain (t.bucket k)).getLast? with
    | none =>
      rw [List.getLast?_eq_none_iff] at hl
      rw [h.bucket, ← h.chains, hl] at hfull
      simp at hfull
    | some p =>
      have hlast : (v.chain (v.bucket k)).getLast? = some (t.key p) := by
        rw [h.bucket, ← h.chains, List.getLast?_map, hl]
        rfl
      rw [hlast]
      exact h.evict x hk hl (hlimit ▸ hfull.1) hnr
  · rw [if_neg hfull]
    have hplain : t.link x k = { t with toGhtHashTable := ghtLink t.toGhtHashTable x k } := by
      have hif : ¬(t.bucketLimit ≠ 0 ∧ (t.bucketLimit : Int) ≤ t.pNr (t.bucket k)) := by
        rw [← hlength, ← hlimit]
        exact_mod_cast hfull
      unfold GhtTable.link
      dsimp only
      rw [if_neg (c := t.bucketLimit ≠ 0 ∧
        (t.bucketLimit : Int) ≤ (placeFirst t.toGhtHashTable x k (t.bucket k)).pNr (t.bucket k)) hif]
      exact congrArg (fun base => ({ t with toGhtHashTable := base } : GhtTable δ))
        (linkPlain_eq t.toGhtHashTable x k)
    rw [hplain]
    exact ⟨_, _, h.add x hk⟩

lemma request (h : TableModels held t v order chain) :
    TableModels held { t with requests := t.requests + 1 } { v with requests := v.requests + 1 } order chain := by
  have hreq : t.requests = v.requests := congrArg TableSettings.requests h.settings
  refine ⟨h.inv, h.entries, h.chains, ?_, h.pow, h.mask, h.evicted, h.ledger⟩
  exact congrArg (fun st => ({ st with requests := st.requests + 1 } : TableSettings)) h.settings

lemma granted (h : TableModels held t v order chain) : t.fnAlloc t.requests = v.fnAlloc v.requests := by
  have halloc : t.fnAlloc = v.fnAlloc := congrArg TableSettings.fnAlloc h.settings
  have hreq : t.requests = v.requests := congrArg TableSettings.requests h.settings
  rw [halloc, hreq]

lemma copy (h : TableModels held t v order chain) (hlimit : v.limit = 0) (hauto : v.rehash = false)
    {e : Bytes × Option δ} (hk : e.1 ∉ v.keys) :
    ∃ order' chain', TableModels held (GhtTable.insertWith (fun t _ => t) t e.2 e.1).1 (v.copy e) order' chain' := by
  have hrehash : t.iAutomaticRehash = false := (congrArg TableSettings.rehash h.settings).trans hauto
  simp only [GhtTable.insertWith, h.find_none hk, Option.isSome_none, Bool.false_eq_true, if_false, hrehash,
    Bool.false_and, TableView.copy, h.granted]
  cases v.fnAlloc v.requests with
  | false => exact ⟨_, _, h.request⟩
  | true =>
    obtain ⟨order', chain', h'⟩ := h.request.link e.2 hk
    have hroom : ({ v with requests := v.requests + 1 } : TableView δ).link e.2 e.1 =
        ({ v with requests := v.requests + 1 } : TableView δ).add e.2 e.1 := by
      simp [TableView.link, TableView.victim, hlimit]
    rw [hroom] at h'
    exact ⟨order', chain', h'⟩

end TableModels

namespace TableView

lemma lookup_none (v : TableView δ) {k : Bytes} (hk : k ∉ v.keys) : v.lookup k = none := by
  have hfind : (v.entries.find? fun e => e.1 == k) = none := by
    rw [List.find?_eq_none]
    intro e he hek
    exact hk (List.mem_map.mpr ⟨e, he, by simpa using hek⟩)
  rw [lookup, hfind]
  rfl

lemma replaced_absent (v : TableView δ) (x : Option δ) {k : Bytes} (hk : k ∉ v.keys) :
    (v.touch k).replaced x k = v := by
  have hmap : (v.entries.map fun e => if e.1 = k then (k, x) else e) = v.entries := by
    refine (List.map_congr_left fun e he => ?_).trans (List.map_id _)
    exact if_neg fun hek => hk (List.mem_map.mpr ⟨e, he, hek⟩)
  simp only [touch, has_of_not_mem hk, Bool.false_eq_true, if_false, replaced, hmap]

lemma copy_keys (v : TableView δ) (e : Bytes × Option δ) :
    (v.copy e).entries = v.entries ∨ (v.copy e).entries = v.entries ++ [e] := by
  unfold copy
  dsimp only
  split
  · exact Or.inr rfl
  · exact Or.inl rfl

lemma copy_settings (v : TableView δ) (e : Bytes × Option δ) :
    (v.copy e).limit = v.limit ∧ (v.copy e).rehash = v.rehash := by
  unfold copy
  dsimp only
  split
  · exact ⟨rfl, rfl⟩
  · exact ⟨rfl, rfl⟩

/-- Copies do not depend on the flags and the limit of the table. -/
lemma foldl_copy_with (es : List (Bytes × Option δ)) (v : TableView δ) (b : Bool) (h : UInt32) (n : Nat) :
    es.foldl copy { v with rehash := b, heuristics := h, limit := n } =
      { es.foldl copy v with rehash := b, heuristics := h, limit := n } := by
  induction es generalizing v with
  | nil => rfl
  | cons e es ih =>
    have hcopy : copy { v with rehash := b, heuristics := h, limit := n } e =
        { copy v e with rehash := b, heuristics := h, limit := n } := by
      simp only [copy]
      cases v.fnAlloc v.requests with
      | false => rfl
      | true => rfl
    rw [List.foldl_cons, hcopy, ih]
    rfl

/-- Of the pairs that are copied some may be missing in the copy. -/
lemma foldl_copy_entries (es : List (Bytes × Option δ)) (v : TableView δ) :
    ∃ s, s.Sublist es ∧ (es.foldl copy v).entries = v.entries ++ s := by
  induction es generalizing v with
  | nil => exact ⟨[], .slnil, by simp⟩
  | cons e es ih =>
    obtain ⟨s, hs, hentries⟩ := ih (v.copy e)
    rcases v.copy_keys e with hc | hc
    · exact ⟨s, hs.cons e, by rw [List.foldl_cons, hentries, hc]⟩
    · exact ⟨e :: s, hs.cons_cons e, by rw [List.foldl_cons, hentries, hc, List.append_assoc]; rfl⟩

/-- What copies leave as it is. -/
lemma foldl_copy_kept (es : List (Bytes × Option δ)) (v : TableView δ) :
    (es.foldl copy v).size = v.size ∧ (es.foldl copy v).limit = v.limit ∧ (es.foldl copy v).fnAlloc = v.fnAlloc ∧
      (es.foldl copy v).evicted = v.evicted := by
  induction es generalizing v with
  | nil => exact ⟨rfl, rfl, rfl, rfl⟩
  | cons e es ih =>
    have hcopy : (copy v e).size = v.size ∧ (copy v e).limit = v.limit ∧ (copy v e).fnAlloc = v.fnAlloc ∧
        (copy v e).evicted = v.evicted := by
      unfold copy
      dsimp only
      split
      · exact ⟨rfl, rfl, rfl, rfl⟩
      · exact ⟨rfl, rfl, rfl, rfl⟩
    obtain ⟨hsize, hlimit, halloc, hevicted⟩ := ih (copy v e)
    exact ⟨hsize.trans hcopy.1, hlimit.trans hcopy.2.1, halloc.trans hcopy.2.2.1, hevicted.trans hcopy.2.2.2⟩

lemma rehashTo_kept (v : TableView δ) (n : Nat) :
    (v.rehashTo n).size = ghtSize n ∧ (v.rehashTo n).limit = v.limit ∧ (v.rehashTo n).fnAlloc = v.fnAlloc ∧
      (v.rehashTo n).evicted = v.evicted :=
  foldl_copy_kept _ _

lemma rehashTo_entries (v : TableView δ) (n : Nat) : (v.rehashTo n).entries.Sublist v.entries := by
  obtain ⟨s, hs, hentries⟩ := foldl_copy_entries (v.entries.takeWhile fun e => e.2.isSome)
    { v with size := ghtSize n, entries := [], chain := fun _ => [] }
  rw [rehashTo, hentries]
  exact hs.trans (List.takeWhile_sublist _)

end TableView

namespace TableModels

variable {held : List Nat} {t tmp : GhtTable δ} {v : TableView δ} {order : List Nat} {chain : Nat → List Nat}

/-- The loop of `ght_rehash` copies the entries one after the other, up to a null datum. -/
lemma rehashFrom {q : Option Nat} {rest : List Nat} {es : List (Bytes × Option δ)} {fuel : Nat}
    (h : TableModels held tmp v order chain) (hlimit : v.limit = 0) (hauto : v.rehash = false)
    (hlinked : Linked t.pNewer t.pOlder q rest)
    (hrest : (rest.map fun p => (t.key p, t.pData p)) = es.map fun e => (e.1, some e.2))
    (hnodup : ((v.entries ++ es).map Prod.fst).Nodup) (hfuel : rest.length ≤ fuel) :
    ∃ order' chain', TableModels held (t.rehashFrom fuel rest.head? tmp)
      ((es.takeWhile fun e => e.2.isSome).foldl TableView.copy v) order' chain' := by
  induction rest generalizing q es v tmp order chain fuel with
  | nil =>
    have hes : es = [] := by simpa using hrest.symm
    subst hes
    cases fuel with
    | zero => exact ⟨order, chain, h⟩
    | succ fuel => exact ⟨order, chain, h⟩
  | cons p rest ih =>
    cases es with
    | nil => simp at hrest
    | cons e es =>
      cases fuel with
      | zero => simp at hfuel
      | succ fuel =>
        obtain ⟨-, hnext, hlinked'⟩ := hlinked
        simp only [List.map_cons, List.cons.injEq, Prod.mk.injEq] at hrest
        obtain ⟨⟨hkey, hdata⟩, hrest'⟩ := hrest
        have hdatum : t.datum p = e.2 := by rw [GhtTable.datum, hdata]; rfl
        simp only [List.head?_cons, GhtTable.rehashFrom, hdatum]
        cases hx : e.2 with
        | none =>
          rw [List.takeWhile_cons_of_neg (by simp [hx])]
          exact ⟨order, chain, h⟩
        | some x =>
          rw [List.takeWhile_cons_of_pos (by simp [hx]), List.foldl_cons]
          have hk : e.1 ∉ v.keys := by
            rw [List.map_append, List.nodup_append] at hnodup
            intro hm
            exact hnodup.2.2 e.1 hm e.1 (by simp) rfl
          obtain ⟨order', chain', h'⟩ := h.copy hlimit hauto hk
          obtain ⟨hlimit', hauto'⟩ := v.copy_settings e
          have hnodup' : (((v.copy e).entries ++ es).map Prod.fst).Nodup := by
            rcases v.copy_keys e with hc | hc
            · rw [hc]
              refine hnodup.sublist (List.Sublist.map _ ?_)
              exact (List.sublist_cons_self e es).append_left v.entries
            · rw [hc]
              simpa using hnodup
          have hlater := ih h' (hlimit'.trans hlimit) (hauto'.trans hauto) hlinked' hrest' hnodup'
            (Nat.le_of_succ_le_succ hfuel)
          rw [hx] at hlater
          rw [hnext, hkey]
          exact hlater

/-- The buckets in use are those of the table. -/
lemma bucket_lt (h : TableModels held t v order chain) {p : Nat} (hp : p ∈ order) : t.pBucketidx p < t.iSize := by
  obtain ⟨k, -, hk⟩ := h.pow
  have hpos : 0 < 2 ^ k := Nat.two_pow_pos k
  have hle : ghtBucket t.toGhtHashTable (t.key p) ≤ t.iSizeMask := Nat.and_le_right
  rw [h.inv.hashed p hp, h.mask, hk] at hle
  rw [hk]
  omega

lemma chained_perm (h : TableModels held t v order chain) : (chainedEntries t.toGhtHashTable).Perm order := by
  have hwalk : ∀ b, walk t.pNext t.iItems (t.ppEntries b) = chain b := by
    intro b
    rw [h.inv.heads]
    exact walk_linked (h.inv.chains b) (h.inv.chain_length_le b)
  have hnodup : ((List.range t.iSize).flatMap chain).Nodup := by
    refine List.nodup_flatMap.mpr ⟨fun b _ => h.inv.chainNodup b, ?_⟩
    refine List.nodup_range.imp fun {b c} hbc => ?_
    intro p hp hp'
    exact hbc (((h.inv.mem_chain b p).mp hp).2.symm.trans ((h.inv.mem_chain c p).mp hp').2)
  simp only [chainedEntries, hwalk]
  refine (List.perm_ext_iff_of_nodup hnodup h.inv.orderNodup).mpr fun p => ?_
  simp only [List.mem_flatMap, List.mem_range]
  constructor
  · rintro ⟨b, -, hp⟩
    exact ((h.inv.mem_chain b p).mp hp).1
  · intro hp
    exact ⟨t.pBucketidx p, h.bucket_lt hp, (h.inv.mem_chain _ p).mpr ⟨hp, rfl⟩⟩

lemma rehashTable (h : TableModels held t v order chain) (n : Nat) :
    TableModels (held ++ order) (t.rehashTable n)
      { v with size := ghtSize n, rehash := false, heuristics := 0, limit := 0, entries := [], chain := fun _ => [] }
      [] (fun _ => []) := by
  obtain ⟨k, hk, hsize, hmask⟩ : ∃ k ≤ 32, ghtSize n = 2 ^ k ∧ (ghtCreate (Option δ) n).iSizeMask = 2 ^ k - 1 :=
    ghtSize_pow n
  have hnew : GhtInv (ghtCreate (Option δ) n) [] (fun _ => []) := ghtInv_create n
  have halloc : t.fnAlloc = v.fnAlloc := congrArg TableSettings.fnAlloc h.settings
  have hreq : t.requests = v.requests := congrArg TableSettings.requests h.settings
  refine ⟨hnew.freshAt (Nat.zero_le _), rfl, fun _ => rfl, ?_, ⟨k, hk, hsize⟩, ?_, h.evicted, ?_⟩
  · simp only [tableSettings, GhtTable.rehashTable, halloc, hreq]
    rfl
  · change (ghtCreate (Option δ) n).iSizeMask = ghtSize n - 1
    rw [hmask, hsize]
  · change (held ++ order ++ [] ++ t.fnFreed).Perm (List.range t.fresh)
    rw [List.append_nil]
    exact h.ledger

lemma rehashed (h : TableModels held t v order chain) (n : Nat) :
    ∃ order' chain', TableModels held (t.rehash n) (v.rehashTo n) order' chain' := by
  have hnodup : (([] ++ v.entries).map Prod.fst).Nodup := h.keys_nodup
  obtain ⟨order', chain', h'⟩ := (h.rehashTable n).rehashFrom rfl rfl h.inv.ages h.entries hnodup
    (le_of_eq h.inv.items.symm)
  refine ⟨order', chain', ?_⟩
  have hview : v.rehashTo n = { (v.entries.takeWhile fun e => e.2.isSome).foldl TableView.copy
      { v with
        size := ghtSize n, rehash := false, heuristics := 0, limit := 0, entries := [], chain := fun _ => [] } with
      rehash := v.rehash, heuristics := v.heuristics, limit := v.limit } := by
    rw [← TableView.foldl_copy_with]
    rfl
  rw [hview]
  rw [← h.inv.oldest] at h'
  refine ⟨?_, h'.entries, h'.chains, ?_, h'.pow, h'.mask, h'.evicted, ?_⟩
  · exact ⟨h'.inv.ages, h'.inv.oldest, h'.inv.newest, h'.inv.orderNodup, h'.inv.chains, h'.inv.heads,
      h'.inv.chainNodup, h'.inv.mem_chain, h'.inv.hashed, h'.inv.keysNodup, h'.inv.nr, h'.inv.items, h'.inv.old,
      h'.inv.datum⟩
  · have hrehash : t.iAutomaticRehash = v.rehash := congrArg TableSettings.rehash h.settings
    have hheur : t.iHeuristics = v.heuristics := congrArg TableSettings.heuristics h.settings
    have hlimit : t.bucketLimit = v.limit := congrArg TableSettings.limit h.settings
    have hset := congrArg (fun st => ({ st with
      rehash := t.iAutomaticRehash, heuristics := t.iHeuristics, limit := t.bucketLimit } : TableSettings)) h'.settings
    rw [hrehash, hheur, hlimit] at hset
    simp only [tableSettings, GhtTable.rehash, hrehash, hheur, hlimit]
    exact hset
  · -- the old entries are freed after the copies have been made
    have hperm := h.chained_perm
    refine List.Perm.trans ?_ h'.ledger
    change (held ++ order' ++ (_ ++ chainedEntries t.toGhtHashTable)).Perm _
    rw [List.append_assoc, List.append_assoc, List.append_assoc, ← List.append_assoc order']
    refine List.Perm.append_left held (List.perm_append_comm.trans ?_)
    exact hperm.append_right _

lemma insert (h : TableModels held t v order chain) (x : Option δ) (k : Bytes) :
    (t.insert x k).2 = (v.insert x k).2 ∧
      ∃ order' chain', TableModels held (t.insert x k).1 (v.insert x k).1 order' chain' := by
  unfold GhtTable.insert GhtTable.insertWith TableView.insert
  by_cases hk : k ∈ v.keys
  · obtain ⟨p, hp, rfl⟩ := h.mem_order hk
    simp only [h.find_some hp, Option.isSome_some, if_true, TableView.has_of_mem hk, true_and]
    exact ⟨order, chain, h⟩
  · have hrehash : t.iAutomaticRehash = v.rehash := congrArg TableSettings.rehash h.settings
    simp only [h.find_none hk, Option.isSome_none, Bool.false_eq_true, if_false, TableView.has_of_not_mem hk,
      h.granted, hrehash, ← h.size, h.items]
    cases v.fnAlloc v.requests with
    | false => exact ⟨rfl, order, chain, h.request⟩
    | true =>
      refine ⟨rfl, ?_⟩
      simp only [Bool.not_true, Bool.false_eq_true, if_false, if_true]
      by_cases hgrow : (v.rehash && decide (ghtDoubled v.size < v.entries.length)) = true
      · rw [if_pos hgrow, if_pos hgrow]
        obtain ⟨order', chain', h'⟩ := h.request.rehashed (ghtDoubled v.size)
        have hsub := TableView.rehashTo_entries { v with requests := v.requests + 1 } (ghtDoubled v.size)
        exact h'.link x fun hm => hk ((hsub.map Prod.fst).subset hm)
      · rw [if_neg hgrow, if_neg hgrow]
        exact h.request.link x hk

/-!
### The other calls
-/

lemma heuristics_inv (h : TableModels held t v order chain) {p : Nat} (hp : p ∈ order) (m : UInt8) :
    ∃ l, GhtInv (applyHeuristics t.toGhtHashTable m (t.bucket (t.key p)) p) order
        (update chain (t.bucket (t.key p)) l) ∧
      l.map t.key = TableView.promote m (t.key p) (v.chain (t.bucket (t.key p))) := by
  have hpc := h.mem_bucket hp
  unfold applyHeuristics TableView.promote
  by_cases hfront : m = ghtHeuristicsMoveToFront
  · rw [if_pos hfront, if_pos hfront]
    refine ⟨_, h.inv.moveToFront hpc, ?_⟩
    rw [List.map_cons, map_erase_of_inj (h.key_inj_chain hp), h.chains]
  · rw [if_neg hfront, if_neg hfront]
    by_cases hswap : m = ghtHeuristicsTranspose
    · rw [if_pos hswap, if_pos hswap]
      refine ⟨_, h.inv.transpose hpc, ?_⟩
      rw [map_swapUp (h.key_inj_chain hp), h.chains]
    · rw [if_neg hswap, if_neg hswap]
      refine ⟨chain (t.bucket (t.key p)), ?_, h.chains _⟩
      rw [update_eq_self]
      exact h.inv

/-- The heuristics leave alone what is not a link of a chain. -/
lemma applyHeuristics_frame (t : GhtHashTable δ) (m : UInt8) (b p : Nat) :
    ∃ nx pv hd, applyHeuristics t m b p = { t with pNext := nx, pPrev := pv, ppEntries := hd } := by
  unfold applyHeuristics
  split
  · unfold UnfsClient.moveToFront
    split
    · exact ⟨_, _, _, rfl⟩
    · exact ⟨_, _, _, rfl⟩
  · split
    · unfold UnfsClient.transpose
      split
      · exact ⟨_, _, _, rfl⟩
      · exact ⟨_, _, _, rfl⟩
    · exact ⟨_, _, _, rfl⟩

lemma touch (h : TableModels held t v order chain) {p : Nat} (hp : p ∈ order) :
    ∃ t' chain', t.search (t.key p) = (t', some p) ∧ t'.pData = t.pData ∧ t'.key = t.key ∧
      TableModels held t' (v.touch (t.key p)) order chain' := by
  obtain ⟨l, hinv, hl⟩ := h.heuristics_inv hp t.iHeuristics.toUInt8
  have hheur : t.iHeuristics = v.heuristics := congrArg TableSettings.heuristics h.settings
  refine ⟨{ t with toGhtHashTable := applyHeuristics t.toGhtHashTable t.iHeuristics.toUInt8 (t.bucket (t.key p)) p },
    _, ?_, ?_, ?_, hinv, ?_, ?_, ?_, ?_, ?_, ?_, ?_⟩
  · simp only [GhtTable.search, h.find_some hp]
  all_goals obtain ⟨nx, pv, hd, hframe⟩ :=
    applyHeuristics_frame t.toGhtHashTable t.iHeuristics.toUInt8 (t.bucket (t.key p)) p
  all_goals simp only [hframe]
  · simp only [TableView.touch, TableView.has_of_mem (h.mem_keys hp), if_true]
    exact h.entries
  · intro b
    simp only [TableView.touch, TableView.has_of_mem (h.mem_keys hp), if_true, h.bucket, ← hheur]
    by_cases hb : b = t.bucket (t.key p)
    · subst hb
      rw [update_self, update_self, hl]
    · rw [update_of_ne hb, update_of_ne hb]
      exact h.chains b
  · simp only [TableView.touch, TableView.has_of_mem (h.mem_keys hp), if_true]
    exact h.settings
  · exact h.pow
  · exact h.mask
  · simp only [TableView.touch, TableView.has_of_mem (h.mem_keys hp), if_true]
    exact h.evicted
  · exact h.ledger

lemma get (h : TableModels held t v order chain) (k : Bytes) :
    (t.get k).2 = v.lookup k ∧ ∃ chain', TableModels held (t.get k).1 (v.touch k) order chain' := by
  by_cases hk : k ∈ v.keys
  · obtain ⟨p, hp, rfl⟩ := h.mem_order hk
    obtain ⟨t', chain', hsearch, hdata, -, h'⟩ := h.touch hp
    simp only [GhtTable.get, hsearch, GhtTable.datum, hdata]
    exact ⟨(h.lookup hp).symm, chain', h'⟩
  · simp only [GhtTable.get, GhtTable.search, h.find_none hk, TableView.touch, TableView.has_of_not_mem hk,
      Bool.false_eq_true, if_false, v.lookup_none hk]
    exact ⟨trivial, chain, h⟩

lemma replace (h : TableModels held t v order chain) (x : Option δ) (k : Bytes) :
    (t.replace x k).2 = v.lookup k ∧
      ∃ chain', TableModels held (t.replace x k).1 ((v.touch k).replaced x k) order chain' := by
  by_cases hk : k ∈ v.keys
  · obtain ⟨p, hp, rfl⟩ := h.mem_order hk
    obtain ⟨t', chain', hsearch, hdata, hkeys, h'⟩ := h.touch hp
    simp only [GhtTable.replace, hsearch, GhtTable.datum, hdata]
    refine ⟨(h.lookup hp).symm, chain', ?_⟩
    have hset := h'.inv.setDatum p x
    rw [hdata] at hset
    refine ⟨hset, ?_, h'.chains, h'.settings, h'.pow, h'.mask, h'.evicted, h'.ledger⟩
    have hentries := congrArg
      (List.map fun e : Bytes × Option (Option δ) => if e.1 = t.key p then (t.key p, some x) else e) h'.entries
    rw [List.map_map, List.map_map] at hentries
    simp only [TableView.replaced, List.map_map]
    refine Eq.trans (List.map_congr_left fun q hq => ?_) (hentries.trans (List.map_congr_left fun e _ => ?_))
    · simp only [comp_apply, hkeys, hdata]
      by_cases hqp : q = p
      · subst hqp
        simp
      · have hne : t.key q ≠ t.key p := fun he => hqp (h.inv.key_inj hq hp he)
        rw [update_of_ne hqp, if_neg hne]
    · simp only [comp_apply]
      by_cases he : e.1 = t.key p
      · rw [if_pos he, if_pos he]
      · rw [if_neg he, if_neg he]
  · rw [v.replaced_absent x hk]
    simp only [GhtTable.replace, GhtTable.search, h.find_none hk, v.lookup_none hk]
    exact ⟨trivial, chain, h⟩

lemma drop_absent (h : TableModels held t v order chain) {k : Bytes} (hk : k ∉ v.keys) : v.drop k = v := by
  have hentries : dropKey v.entries k = v.entries := by
    rw [dropKey, List.filter_eq_self]
    intro e he
    have hne : e.1 ≠ k := fun hek => hk (List.mem_map.mpr ⟨e, he, hek⟩)
    simpa using hne
  have hchain : (v.chain (v.bucket k)).erase k = v.chain (v.bucket k) := by
    apply List.erase_of_not_mem
    rw [← h.chains]
    intro hm
    obtain ⟨p, hp, rfl⟩ := List.mem_map.mp hm
    exact hk (h.mem_keys ((h.inv.mem_chain _ p).mp hp).1)
  simp only [TableView.drop, hentries, hchain, update_eq_self]

lemma remove (h : TableModels held t v order chain) (k : Bytes) :
    (t.remove k).2 = v.lookup k ∧ ∃ order' chain', TableModels held (t.remove k).1 (v.drop k) order' chain' := by
  by_cases hk : k ∈ v.keys
  · obtain ⟨p, hp, rfl⟩ := h.mem_order hk
    have hbucket : t.bucket (t.key p) = t.pBucketidx p := h.inv.hashed p hp
    simp only [GhtTable.remove, h.find_some hp, hbucket]
    exact ⟨(h.lookup hp).symm, _, _, h.drop hp⟩
  · rw [h.drop_absent hk]
    simp only [GhtTable.remove, h.find_none hk, v.lookup_none hk]
    exact ⟨trivial, order, chain, h⟩

lemma removeFirst (h : TableModels held t v order chain) :
    t.removeFirst.2 = v.removeFirst.2 ∧
      ∃ order' chain', TableModels held t.removeFirst.1 v.removeFirst.1 order' chain' := by
  cases order with
  | nil =>
    have hentries : v.entries = [] := by simpa using h.entries.symm
    have hold : t.pOldest = none := h.inv.oldest
    simp only [GhtTable.removeFirst, hold, TableView.removeFirst, hentries]
    exact ⟨trivial, [], chain, h⟩
  | cons p rest =>
    have hold : t.pOldest = some p := h.inv.oldest
    have hentries := h.entries
    cases hv : v.entries with
    | nil => simp [hv] at hentries
    | cons e es =>
      simp only [hv, List.map_cons, List.cons.injEq, Prod.mk.injEq] at hentries
      have hdrop := h.drop List.mem_cons_self
      rw [hentries.1.1] at hdrop
      have hdatum : t.datum p = e.2 := by rw [GhtTable.datum, hentries.1.2]; rfl
      simp only [GhtTable.removeFirst, hold, TableView.removeFirst, hv]
      exact ⟨hdatum, _, _, hdrop⟩

lemma chain_nil (h : TableModels held t v order chain) {b : Nat} (hb : t.iSize ≤ b) : chain b = [] := by
  rw [List.eq_nil_iff_forall_not_mem]
  intro p hp
  obtain ⟨hmem, rfl⟩ := (h.inv.mem_chain b p).mp hp
  exact absurd (h.bucket_lt hmem) (Nat.not_lt.mpr hb)

lemma removeAll (h : TableModels held t v order chain) :
    TableModels held t.removeAll { v with entries := [], chain := fun _ => [] } [] (fun _ => []) := by
  have hloop := removeAllEntries_eq t.toGhtHashTable
  -- the buckets beyond the table are empty anyway
  have hheads : (ghtRemoveAll t.toGhtHashTable).ppEntries = fun _ => none := by
    funext b
    simp only [ghtRemoveAll, hloop]
    split
    · rfl
    · rename_i hb
      rw [h.inv.heads, h.chain_nil (Nat.not_lt.mp hb)]
      rfl
  have hnr : (ghtRemoveAll t.toGhtHashTable).pNr = fun _ => 0 := by
    funext b
    simp only [ghtRemoveAll, hloop]
    split
    · rfl
    · rename_i hb
      rw [h.inv.nr, h.chain_nil (Nat.not_lt.mp hb)]
      rfl
  have hframe : t.removeAll.iSize = t.iSize ∧ t.removeAll.iSizeMask = t.iSizeMask ∧
      t.removeAll.iAutomaticRehash = t.iAutomaticRehash ∧ t.removeAll.fresh = t.fresh := by
    simp only [GhtTable.removeAll, ghtRemoveAll, hloop, and_self]
  refine ⟨?_, rfl, fun _ => rfl, ?_, ?_, ?_, h.evicted, ?_⟩
  · refine ⟨trivial, rfl, rfl, List.nodup_nil, fun _ => trivial, fun b => congrFun hheads b, fun _ => List.nodup_nil,
      ?_, ?_, List.nodup_nil, fun b => congrFun hnr b, rfl, ?_, ?_⟩
    all_goals simp
  · have hs := h.settings
    simp only [tableSettings, hframe.1, hframe.2.2.1]
    exact hs
  · rw [hframe.1]
    exact h.pow
  · rw [hframe.1, hframe.2.1]
    exact h.mask
  · rw [hframe.2.2.2]
    refine List.Perm.trans ?_ h.ledger
    change (held ++ [] ++ (t.fnFreed ++ chainedEntries t.toGhtHashTable)).Perm _
    rw [List.append_nil, List.append_assoc]
    refine List.Perm.append_left held (List.perm_append_comm.trans ?_)
    exact h.chained_perm.append_right _

lemma create (fnAlloc : Nat → Bool) (n : Nat) :
    TableModels [] (GhtTable.create fnAlloc n) (TableView.new fnAlloc n : TableView δ) [] (fun _ => []) := by
  obtain ⟨k, hk, hsize, hmask⟩ : ∃ k ≤ 32, ghtSize n = 2 ^ k ∧ (ghtCreate (Option δ) n).iSizeMask = 2 ^ k - 1 :=
    ghtSize_pow n
  refine ⟨ghtInv_create n, rfl, fun _ => rfl, rfl, ⟨k, hk, hsize⟩, ?_, rfl, List.Perm.refl _⟩
  change (ghtCreate (Option δ) n).iSizeMask = ghtSize n - 1
  rw [hmask, hsize]

lemma setRehash (h : TableModels held t v order chain) (b : Bool) :
    TableModels held (t.setRehash b) { v with rehash := b } order chain :=
  ⟨⟨h.inv.ages, h.inv.oldest, h.inv.newest, h.inv.orderNodup, h.inv.chains, h.inv.heads, h.inv.chainNodup,
    h.inv.mem_chain, h.inv.hashed, h.inv.keysNodup, h.inv.nr, h.inv.items, h.inv.old, h.inv.datum⟩, h.entries,
    h.chains, congrArg (fun st => ({ st with rehash := b } : TableSettings)) h.settings, h.pow, h.mask, h.evicted,
    h.ledger⟩

lemma setHeuristics (h : TableModels held t v order chain) (m : UInt32) :
    TableModels held (t.setHeuristics m) { v with heuristics := m } order chain :=
  ⟨h.inv, h.entries, h.chains, congrArg (fun st => ({ st with heuristics := m } : TableSettings)) h.settings, h.pow,
    h.mask, h.evicted, h.ledger⟩

lemma setBoundedBuckets (h : TableModels held t v order chain) (n : Nat) :
    TableModels held (t.setBoundedBuckets n) { v with limit := n } order chain :=
  ⟨h.inv, h.entries, h.chains, congrArg (fun st => ({ st with limit := n } : TableSettings)) h.settings, h.pow,
    h.mask, h.evicted, h.ledger⟩

/-- Each call does to the table what it does to the view, and returns the same. -/
lemma call (h : TableModels held t v order chain) (c : TableCall δ) :
    (t.call c).2 = (v.call c).2 ∧ ∃ order' chain', TableModels held (t.call c).1 (v.call c).1 order' chain' := by
  cases c with
  | insert x k =>
    obtain ⟨hret, h'⟩ := h.insert x k
    exact ⟨congrArg TableReturn.status hret, h'⟩
  | get k =>
    obtain ⟨hret, chain', h'⟩ := h.get k
    exact ⟨congrArg TableReturn.datum hret, order, chain', h'⟩
  | replace x k =>
    obtain ⟨hret, chain', h'⟩ := h.replace x k
    exact ⟨congrArg TableReturn.datum hret, order, chain', h'⟩
  | remove k =>
    obtain ⟨hret, h'⟩ := h.remove k
    exact ⟨congrArg TableReturn.datum hret, h'⟩
  | removeFirst =>
    obtain ⟨hret, h'⟩ := h.removeFirst
    exact ⟨congrArg TableReturn.datum hret, h'⟩
  | removeAll => exact ⟨rfl, _, _, h.removeAll⟩
  | rehash n => exact ⟨rfl, h.rehashed n⟩
  | setRehash b => exact ⟨rfl, order, chain, h.setRehash b⟩
  | setHeuristics m => exact ⟨rfl, order, chain, h.setHeuristics m⟩
  | setBoundedBuckets n => exact ⟨rfl, order, chain, h.setBoundedBuckets n⟩
  | size => exact ⟨congrArg TableReturn.count h.items, order, chain, h⟩
  | tableSize => exact ⟨congrArg TableReturn.count h.size.symm, order, chain, h⟩

lemma run (h : TableModels held t v order chain) (cs : List (TableCall δ)) :
    (t.run cs).2 = (v.run cs).2 ∧ ∃ order' chain', TableModels held (t.run cs).1 (v.run cs).1 order' chain' := by
  induction cs generalizing t v order chain with
  | nil => exact ⟨rfl, order, chain, h⟩
  | cons c cs ih =>
    obtain ⟨hret, order', chain', h'⟩ := h.call c
    obtain ⟨hrets, hrun⟩ := ih h'
    refine ⟨?_, hrun⟩
    simp only [GhtTable.run, TableView.run, hret, hrets]

end TableModels

end UnfsClient.Proofs
