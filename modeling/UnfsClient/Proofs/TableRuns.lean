import UnfsClient.Proofs.TableRefinement

/-!
# Runs of the whole table

What holds after any calls: the table is the view its calls lead to, entries are freed once, no datum
is lost or handed out twice, and the calls that only tune the table change no answer.
-/

namespace UnfsClient.Proofs

open Function Lib DoublyLinked

variable {δ : Type}

/-- What the links of a table hold. -/
def tableView (t : GhtTable δ) : TableView δ :=
  { tableSettings t with
    entries := (ghtEntries t.toGhtHashTable).map fun e => (e.1, e.2.join)
    chain := fun b => (ghtChain t.toGhtHashTable b).map Prod.fst
    evicted := t.bucketFreed }

lemma TableModels.view_eq {held : List Nat} {t : GhtTable δ} {v : TableView δ} {order : List Nat}
    {chain : Nat → List Nat} (h : TableModels held t v order chain) : tableView t = v := by
  have hentries : ((ghtEntries t.toGhtHashTable).map fun e => (e.1, e.2.join)) = v.entries := by
    rw [h.inv.entries_eq, h.entries, List.map_map]
    exact List.map_id _
  have hchain : (fun b => (ghtChain t.toGhtHashTable b).map Prod.fst) = v.chain := by
    funext b
    rw [ghtChain, h.inv.heads, walk_linked (h.inv.chains b) (h.inv.chain_length_le b), List.map_map, ← h.chains]
    rfl
  rw [tableView, hentries, hchain, h.settings, h.evicted]

/-!
## Sizes
-/

def inserts : TableCall δ → Bool
  | .insert _ _ => true
  | _ => false

/-- The sizes asked for are at most `2 ^ 30`, and entries are inserted fewer than `2 ^ 31` times. -/
structure InRange (n : Nat) (cs : List (TableCall δ)) : Prop where
  size : n ≤ 2 ^ 30
  rehashes : ∀ m, .rehash m ∈ cs → m ≤ 2 ^ 30
  few : cs.countP inserts < 2 ^ 31

lemma countP_inserts_cons (c : TableCall δ) (cs : List (TableCall δ)) :
    (c :: cs).countP inserts = [c].countP inserts + cs.countP inserts := by
  rw [← List.singleton_append, List.countP_append]

lemma ghtDoubled_eq {j : Nat} (hj : j ≤ 30) : ghtDoubled (2 ^ j) = 2 ^ (j + 1) := by
  have hlt : 2 ^ (j + 1) < 2 ^ 32 := Nat.pow_lt_pow_right (by decide) (by omega)
  rw [ghtDoubled, ← Nat.pow_succ', Nat.mod_eq_of_lt hlt]

namespace TableView

/-- The arithmetic of a table does not wrap around. -/
structure Fits (k : Nat) (v : TableView δ) : Prop where
  size : ∃ j ≤ 30, v.size = 2 ^ j
  entries : v.entries.length ≤ k

namespace Fits

variable {k : Nat} {v : TableView δ}

lemma rehashTo (h : Fits k v) {m : Nat} (hm : m ≤ 2 ^ 30) : Fits k (v.rehashTo m) := by
  refine ⟨?_, (v.rehashTo_entries m).length_le.trans h.entries⟩
  rw [(v.rehashTo_kept m).1]
  exact ghtSize_le hm

lemma drop (h : Fits k v) (key : Bytes) : Fits k (v.drop key) :=
  ⟨h.size, (List.filter_sublist.length_le).trans h.entries⟩

lemma add (h : Fits k v) (x : Option δ) (key : Bytes) : Fits (k + 1) (v.add x key) := by
  refine ⟨h.size, ?_⟩
  have hlen := h.entries
  simp only [TableView.add, List.length_append, List.length_singleton]
  omega

lemma link (h : Fits k v) (x : Option δ) (key : Bytes) : Fits (k + 1) (v.link x key) := by
  unfold TableView.link
  split
  · exact h.add x key
  · rename_i old _
    have hadd := (h.drop old).add x key
    exact ⟨hadd.size, hadd.entries⟩

/-- An automatic rehash is to at most as many buckets as there are entries. -/
lemma insert (h : Fits k v) (hk : k < 2 ^ 31) (x : Option δ) (key : Bytes) : Fits (k + 1) (v.insert x key).1 := by
  have hreq : Fits k { v with requests := v.requests + 1 } := ⟨h.size, h.entries⟩
  have hmore : ∀ {w : TableView δ}, Fits k w → Fits (k + 1) w := fun hw => ⟨hw.size, Nat.le_succ_of_le hw.entries⟩
  unfold TableView.insert
  split
  · exact hmore h
  · dsimp only
    split
    · dsimp only
      split
      · rename_i hgrow
        obtain ⟨j, hj, hsize⟩ := h.size
        have hlen := h.entries
        rw [Bool.and_eq_true, decide_eq_true_iff, hsize, ghtDoubled_eq hj] at hgrow
        have hj' : j + 1 < 31 := (Nat.pow_lt_pow_iff_right (by decide)).mp (show 2 ^ (j + 1) < 2 ^ 31 by omega)
        refine (hreq.rehashTo ?_).link x key
        rw [hsize, ghtDoubled_eq hj]
        exact Nat.pow_le_pow_right (by decide) (by omega)
      · exact hreq.link x key
    · exact hmore hreq

lemma touch (h : Fits k v) (key : Bytes) : Fits k (v.touch key) := by
  unfold TableView.touch
  split
  · exact ⟨h.size, h.entries⟩
  · exact h

lemma call (h : Fits k v) (hk : k < 2 ^ 31) {c : TableCall δ} (hc : ∀ m, c = .rehash m → m ≤ 2 ^ 30) :
    Fits (k + [c].countP inserts) (v.call c).1 := by
  cases c with
  | insert x key => exact h.insert hk x key
  | get key => exact h.touch key
  | replace x key =>
    refine ⟨(h.touch key).size, ?_⟩
    have hlen : ((v.touch key).replaced x key).entries.length = (v.touch key).entries.length := List.length_map _
    exact hlen.trans_le (h.touch key).entries
  | remove key => exact h.drop key
  | removeFirst =>
    simp only [TableView.call, TableView.removeFirst]
    split
    · exact h
    · exact h.drop _
  | removeAll => exact ⟨h.size, Nat.zero_le _⟩
  | rehash m => exact h.rehashTo (hc m rfl)
  | setRehash b => exact ⟨h.size, h.entries⟩
  | setHeuristics m => exact ⟨h.size, h.entries⟩
  | setBoundedBuckets m => exact ⟨h.size, h.entries⟩
  | size => exact h
  | tableSize => exact h

lemma run (h : Fits k v) {cs : List (TableCall δ)} (hcs : ∀ m, .rehash m ∈ cs → m ≤ 2 ^ 30)
    (hfew : k + cs.countP inserts < 2 ^ 31) : Fits (k + cs.countP inserts) (v.run cs).1 := by
  induction cs generalizing k v with
  | nil => exact h
  | cons c cs ih =>
    rw [countP_inserts_cons, ← Nat.add_assoc] at hfew ⊢
    have hcall := h.call (by omega) fun m hm => hcs m (hm ▸ List.mem_cons_self)
    exact ih hcall (fun m hm => hcs m (List.mem_cons_of_mem c hm)) hfew

end Fits

lemma fits_new (fnAlloc : Nat → Bool) {n : Nat} (hn : n ≤ 2 ^ 30) : Fits 0 (new fnAlloc n : TableView δ) :=
  ⟨ghtSize_le hn, le_refl 0⟩

end TableView

/-- Calls do to the links of a table what they do to lists, and return the same: with any heuristics and
limits, null data, requests for memory that fail, and rehashes that lose entries. With sizes in range,
neither the number of buckets nor that of the entries gets out of it. -/
theorem table_refines_lists (fnAlloc : Nat → Bool) (n : Nat) (cs : List (TableCall δ)) :
    ((GhtTable.create fnAlloc n).run cs).2 = ((TableView.new fnAlloc n).run cs).2 ∧
    tableView ((GhtTable.create fnAlloc n).run cs).1 = ((TableView.new fnAlloc n).run cs).1 ∧
    (∃ order chain, GhtInv ((GhtTable.create fnAlloc n).run cs).1.toGhtHashTable order chain) ∧
    (InRange n cs → ((GhtTable.create fnAlloc n).run cs).1.iSize ≤ 2 ^ 30 ∧
      ((GhtTable.create fnAlloc n).run cs).1.iItems < 2 ^ 31) := by
  have hnew : TableModels [] (GhtTable.create fnAlloc n) (TableView.new fnAlloc n : TableView δ) [] (fun _ => []) :=
    .create fnAlloc n
  obtain ⟨hret, order, chain, h⟩ := hnew.run cs
  refine ⟨hret, h.view_eq, ⟨order, chain, h.inv⟩, fun hrange => ?_⟩
  have hfits := (TableView.fits_new fnAlloc hrange.size).run hrange.rehashes (by rw [Nat.zero_add]; exact hrange.few)
  rw [Nat.zero_add] at hfits
  obtain ⟨j, hj, hsize⟩ := hfits.size
  constructor
  · rw [← h.size, hsize]
    exact Nat.pow_le_pow_right (by decide) hj
  · rw [h.items]
    exact hfits.entries.trans_lt hrange.few

/-- Every entry that was allocated is in the links of the table or has been freed, not both and once, and
`ght_finalize` frees the rest. -/
theorem entries_freed_once (fnAlloc : Nat → Bool) (n : Nat) (cs : List (TableCall δ)) :
    let t := ((GhtTable.create fnAlloc n).run cs).1
    (∃ order chain, GhtInv t.toGhtHashTable order chain ∧ (order ++ t.fnFreed).Perm (List.range t.fresh)) ∧
      t.finalize.Perm (List.range t.fresh) := by
  intro t
  have hnew : TableModels [] (GhtTable.create fnAlloc n) (TableView.new fnAlloc n : TableView δ) [] (fun _ => []) :=
    .create fnAlloc n
  obtain ⟨-, order, chain, h⟩ := hnew.run cs
  refine ⟨⟨order, chain, h.inv, h.ledger⟩, ?_⟩
  have hfinal : t.finalize.Perm (t.fnFreed ++ order) := h.chained_perm.append_left _
  exact (hfinal.trans List.perm_append_comm).trans h.ledger

/-!
## Calls that tune the table
-/

/-- The call changes how the table works and not what it stores. -/
def tunes : TableCall δ → Bool
  | .rehash _ | .setRehash _ | .setHeuristics _ | .setBoundedBuckets _ | .tableSize => true
  | _ => false

/-- The data are not null and the buckets have no limit. -/
def Roomy : TableCall δ → Prop
  | .insert x _ | .replace x _ => x ≠ none
  | .setBoundedBuckets limit => limit = 0
  | _ => True

/-- What the calls that do not tune the table returned. -/
def answers (cs : List (TableCall δ)) (rets : List (TableReturn δ)) : List (TableReturn δ) :=
  ((cs.zip rets).filter fun r => !tunes r.1).map Prod.snd

/-- A view without limits, whose data are not null and whose requests are granted. -/
structure RoomyView (v : TableView δ) : Prop where
  granted : ∀ i, v.fnAlloc i = true
  unlimited : v.limit = 0
  data : ∀ e ∈ v.entries, e.2 ≠ none

namespace TableView

lemma foldl_copy_granted (es : List (Bytes × Option δ)) {v : TableView δ} (h : ∀ i, v.fnAlloc i = true) :
    (es.foldl copy v).entries = v.entries ++ es := by
  induction es generalizing v with
  | nil => simp
  | cons e es ih =>
    have hcopy : copy v e = ({ v with requests := v.requests + 1 } : TableView δ).add e.2 e.1 := by
      simp only [copy, h, if_true]
    rw [List.foldl_cons, ih (v := copy v e) (by rw [hcopy]; exact h), hcopy]
    simp [add]

/-- With memory and without null data, a rehash copies every pair. -/
lemma rehashTo_granted {v : TableView δ} (h : ∀ i, v.fnAlloc i = true) (hdata : ∀ e ∈ v.entries, e.2 ≠ none)
    (n : Nat) : (v.rehashTo n).entries = v.entries := by
  have hall : (v.entries.takeWhile fun e => e.2.isSome) = v.entries := by
    rw [List.takeWhile_eq_self_iff]
    intro e he
    exact Option.isSome_iff_ne_none.mpr (hdata e he)
  rw [rehashTo, hall]
  exact foldl_copy_granted v.entries h

end TableView

namespace RoomyView

variable {v v' : TableView δ}

lemma rehashTo (h : RoomyView v) (n : Nat) : (v.rehashTo n).entries = v.entries ∧ RoomyView (v.rehashTo n) := by
  obtain ⟨-, hlimit, halloc, -⟩ := v.rehashTo_kept n
  have hentries := TableView.rehashTo_granted h.granted h.data n
  refine ⟨hentries, ?_, hlimit.trans h.unlimited, ?_⟩
  · rw [halloc]
    exact h.granted
  · rw [hentries]
    exact h.data

lemma link (h : RoomyView v) {x : Option δ} (hx : x ≠ none) (k : Bytes) :
    (v.link x k).entries = v.entries ++ [(k, x)] ∧ RoomyView (v.link x k) := by
  have hadd : v.link x k = v.add x k := by simp [TableView.link, TableView.victim, h.unlimited]
  rw [hadd]
  refine ⟨rfl, h.granted, h.unlimited, ?_⟩
  intro e he
  rcases List.mem_append.mp he with he | he
  · exact h.data e he
  · obtain rfl : e = (k, x) := by simpa using he
    exact hx

lemma insert (h : RoomyView v) {x : Option δ} (hx : x ≠ none) (k : Bytes) :
    (v.insert x k).1.entries = (if k ∈ v.keys then v.entries else v.entries ++ [(k, x)]) ∧
      (v.insert x k).2 = (if k ∈ v.keys then -1 else 0) ∧ RoomyView (v.insert x k).1 := by
  unfold TableView.insert
  by_cases hk : k ∈ v.keys
  · simp only [TableView.has_of_mem hk, if_true, if_pos hk, true_and]
    exact h
  · have hreq : RoomyView { v with requests := v.requests + 1 } := ⟨h.granted, h.unlimited, h.data⟩
    simp only [TableView.has_of_not_mem hk, Bool.false_eq_true, if_false, if_neg hk, h.granted, if_true]
    by_cases hgrow : (v.rehash && decide (ghtDoubled v.size < v.entries.length)) = true
    · rw [if_pos hgrow]
      obtain ⟨hentries, hroomy⟩ := hreq.rehashTo (ghtDoubled v.size)
      obtain ⟨hlinked, hroomy'⟩ := hroomy.link hx k
      exact ⟨by rw [hlinked, hentries], trivial, hroomy'⟩
    · rw [if_neg hgrow]
      obtain ⟨hlinked, hroomy'⟩ := hreq.link hx k
      exact ⟨hlinked, trivial, hroomy'⟩

lemma touch (h : RoomyView v) (k : Bytes) : (v.touch k).entries = v.entries ∧ RoomyView (v.touch k) := by
  unfold TableView.touch
  split
  · exact ⟨rfl, h.granted, h.unlimited, h.data⟩
  · exact ⟨rfl, h⟩

lemma drop (h : RoomyView v) (k : Bytes) : RoomyView (v.drop k) :=
  ⟨h.granted, h.unlimited, fun e he => h.data e (List.filter_sublist.subset he)⟩

/-- A call that tunes the table keeps its pairs. -/
lemma tune (h : RoomyView v) {c : TableCall δ} (hc : Roomy c) (ht : tunes c = true) :
    (v.call c).1.entries = v.entries ∧ RoomyView (v.call c).1 := by
  cases c with
  | rehash n => exact h.rehashTo n
  | setRehash b => exact ⟨rfl, h.granted, h.unlimited, h.data⟩
  | setHeuristics m => exact ⟨rfl, h.granted, h.unlimited, h.data⟩
  | setBoundedBuckets n => exact ⟨rfl, h.granted, hc, h.data⟩
  | tableSize => exact ⟨rfl, h⟩
  | _ => simp [tunes] at ht

/-- Any other call depends on the pairs alone. -/
lemma answer (h : RoomyView v) (h' : RoomyView v') (hsame : v.entries = v'.entries) {c : TableCall δ}
    (hc : Roomy c) (ht : tunes c = false) :
    (v.call c).2 = (v'.call c).2 ∧ (v.call c).1.entries = (v'.call c).1.entries ∧
      RoomyView (v.call c).1 ∧ RoomyView (v'.call c).1 := by
  have hlookup : ∀ k, v.lookup k = v'.lookup k := fun k => by rw [TableView.lookup, hsame, TableView.lookup]
  have hkeys : v.keys = v'.keys := by rw [TableView.keys, hsame, TableView.keys]
  cases c with
  | insert x k =>
    obtain ⟨hentries, hret, hroomy⟩ := h.insert hc k
    obtain ⟨hentries', hret', hroomy'⟩ := h'.insert hc k
    refine ⟨congrArg TableReturn.status ?_, ?_, hroomy, hroomy'⟩
    · rw [hret, hret', hkeys]
    · exact hentries.trans (by rw [hkeys, hsame, ← hentries']; rfl)
  | get k =>
    refine ⟨congrArg TableReturn.datum (hlookup k), ?_, (h.touch k).2, (h'.touch k).2⟩
    exact (h.touch k).1.trans (hsame.trans (h'.touch k).1.symm)
  | replace x k =>
    have hmap : (v.touch k).entries = (v'.touch k).entries := (h.touch k).1.trans (hsame.trans (h'.touch k).1.symm)
    have hdata : ∀ w : TableView δ, RoomyView w → RoomyView (w.replaced x k) := by
      intro w hw
      refine ⟨hw.granted, hw.unlimited, ?_⟩
      intro e he
      obtain ⟨e', he', rfl⟩ := List.mem_map.mp he
      split
      · exact hc
      · exact hw.data e' he'
    refine ⟨congrArg TableReturn.datum (hlookup k), ?_, hdata _ (h.touch k).2, hdata _ (h'.touch k).2⟩
    simp only [TableView.call, TableView.replaced, hmap]
  | remove k =>
    refine ⟨congrArg TableReturn.datum (hlookup k), ?_, h.drop k, h'.drop k⟩
    simp only [TableView.call, TableView.drop, hsame]
  | removeFirst =>
    simp only [TableView.call, TableView.removeFirst, hsame]
    cases hv : v'.entries with
    | nil => exact ⟨rfl, hsame, h, h'⟩
    | cons e es => exact ⟨rfl, by simp only [TableView.drop, hsame], h.drop e.1, h'.drop e.1⟩
  | removeAll => exact ⟨rfl, rfl, ⟨h.granted, h.unlimited, by simp [TableView.call]⟩,
      ⟨h'.granted, h'.unlimited, by simp [TableView.call]⟩⟩
  | size => exact ⟨congrArg (fun es => TableReturn.count (List.length es)) hsame, hsame, h, h'⟩
  | _ => simp [tunes] at ht

lemma run (h : RoomyView v) (h' : RoomyView v') (hsame : v.entries = v'.entries) {cs : List (TableCall δ)}
    (hcs : ∀ c ∈ cs, Roomy c) :
    answers cs (v.run cs).2 = (v'.run (cs.filter fun c => !tunes c)).2 ∧
      (v.run cs).1.entries = (v'.run (cs.filter fun c => !tunes c)).1.entries := by
  induction cs generalizing v v' with
  | nil => exact ⟨rfl, hsame⟩
  | cons c cs ih =>
    have hc := hcs c List.mem_cons_self
    have hrest : ∀ c ∈ cs, Roomy c := fun c' hc' => hcs c' (List.mem_cons_of_mem c hc')
    cases ht : tunes c with
    | true =>
      obtain ⟨hentries, hroomy⟩ := h.tune hc ht
      have hlater := ih hroomy h' (hentries.trans hsame) hrest
      simpa [answers, TableView.run, ht] using hlater
    | false =>
      obtain ⟨hret, hentries, hroomy, hroomy'⟩ := h.answer h' hsame hc ht
      obtain ⟨hrets, hlast⟩ := ih hroomy hroomy' hentries hrest
      simp only [answers] at hrets
      simp only [answers, TableView.run, List.zip_cons_cons, ht, Bool.not_false, List.filter_cons_of_pos,
        List.map_cons, hret, hrets]
      exact ⟨trivial, hlast⟩

end RoomyView

/-- Sizes, heuristics and rehashes, called for or automatic, are not visible: the answers and the pairs
are those of a table of any other size on which the tuning calls are not made. -/
theorem tuning_invisible {cs : List (TableCall δ)} (hcs : ∀ c ∈ cs, Roomy c) (n n' : Nat) :
    let t := (GhtTable.create (fun _ => true) n).run cs
    let t' := (GhtTable.create (fun _ => true) n').run (cs.filter fun c => !tunes c)
    answers cs t.2 = t'.2 ∧ ghtEntries t.1.toGhtHashTable = ghtEntries t'.1.toGhtHashTable := by
  intro t t'
  have hnew : ∀ n, TableModels [] (GhtTable.create (fun _ => true) n)
      (TableView.new (fun _ => true) n : TableView δ) [] (fun _ => []) := fun n => .create _ n
  have hroomy : ∀ n, RoomyView (TableView.new (fun _ => true) n : TableView δ) :=
    fun n => ⟨fun _ => rfl, rfl, by simp [TableView.new]⟩
  obtain ⟨hret, order, chain, h⟩ := (hnew n).run cs
  obtain ⟨hret', order', chain', h'⟩ := (hnew n').run (cs.filter fun c => !tunes c)
  obtain ⟨hanswers, hentries⟩ := (hroomy n).run (hroomy n') rfl hcs
  refine ⟨?_, ?_⟩
  · rw [hret, hret', hanswers]
  · rw [h.inv.entries_eq, h'.inv.entries_eq, h.entries, h'.entries, hentries]

/-- Four keys, the last of which doubles the buckets, looked up after further tunings. -/
def tunedCalls : List (TableCall Nat) :=
  [.setRehash true, .insert (some 7) [1], .insert (some 8) [2], .insert (some 5) [3], .insert (some 6) [4],
    .setHeuristics 2, .get [1], .rehash 8, .get [2], .setHeuristics 1, .replace (some 9) [1], .setBoundedBuckets 0,
    .removeFirst, .size]

theorem tuning_invisible_tunedCalls :
    (∀ c ∈ tunedCalls, Roomy c) ∧ ((GhtTable.create (fun _ => true) 1).run (tunedCalls.take 5)).1.iSize = 2 ∧
    answers tunedCalls ((GhtTable.create (fun _ => true) 1).run tunedCalls).2 =
      [.status 0, .status 0, .status 0, .status 0, .datum (some 7), .datum (some 8), .datum (some 7), .datum (some 9),
        .count 3] ∧
    ghtEntries ((GhtTable.create (fun _ => true) 1).run tunedCalls).1.toGhtHashTable =
      [([2], some (some 8)), ([3], some (some 5)), ([4], some (some 6))] := by
  have hroomy : ∀ c ∈ tunedCalls, Roomy c := by simp [tunedCalls, Roomy]
  obtain ⟨hanswers, hentries⟩ := tuning_invisible hroomy 1 4
  refine ⟨hroomy, ?_, hanswers.trans ?_, hentries.trans ?_⟩
  · decide +kernel
  · decide +kernel
  · decide +kernel

/-!
## The plain table
-/

/-- The calls of the RPC layer, whose data are not null. -/
def plainCall : GhtCall δ → TableCall δ
  | .insert x k => .insert (some x) k
  | .remove k => .remove k
  | .removeFirst => .removeFirst
  | .removeAll => .removeAll
  | .rehash n => .rehash n
  | .setRehash b => .setRehash b

def plainReturn : GhtReturn δ → TableReturn δ
  | .status s => .status s
  | .datum p => .datum p
  | .void => .void

/-- A call on the pairs of a dictionary. -/
lemma RoomyView.plain {v : TableView δ} {d : GhtDict δ} (h : RoomyView v)
    (hsame : v.entries = d.entries.map fun e => (e.1, some e.2)) (hnodup : (d.entries.map Prod.fst).Nodup)
    (c : GhtCall δ) :
    (v.call (plainCall c)).2 = plainReturn (d.call c).2 ∧ RoomyView (v.call (plainCall c)).1 ∧
      (v.call (plainCall c)).1.entries = (d.call c).1.entries.map fun e => (e.1, some e.2) := by
  have hkeys : v.keys = d.entries.map Prod.fst := by
    rw [TableView.keys, hsame, List.map_map]
    rfl
  have hdrop : ∀ k, dropKey v.entries k = (dropKey d.entries k).map fun e => (e.1, some e.2) := by
    intro k
    rw [hsame, dropKey, List.filter_map]
    rfl
  cases c with
  | insert x k =>
    obtain ⟨hentries, hret, hroomy⟩ := h.insert (Option.some_ne_none x) k
    refine ⟨?_, hroomy, hentries.trans ?_⟩
    · simp only [plainCall, TableView.call, hret, GhtDict.call, hkeys]
      split
      · rfl
      · rfl
    · rw [hkeys, hsame]
      simp only [GhtDict.call]
      split
      · rfl
      · rw [List.map_append]
        rfl
  | remove k =>
    refine ⟨?_, h.drop k, hdrop k⟩
    have hlookup : v.lookup k = d.lookup k := by
      rw [TableView.lookup, GhtDict.lookup, hsame, List.find?_map]
      change ((Option.map _ (d.entries.find? fun e => e.1 == k)).map Prod.snd).join = _
      cases d.entries.find? fun e => e.1 == k with
      | none => rfl
      | some e => rfl
    exact congrArg TableReturn.datum hlookup
  | removeFirst =>
    simp only [plainCall, TableView.call, TableView.removeFirst, GhtDict.call, hsame]
    cases hd : d.entries with
    | nil => exact ⟨rfl, h, hsame.trans (by rw [hd]; rfl)⟩
    | cons e es =>
      refine ⟨rfl, h.drop e.1, ?_⟩
      rw [hd] at hnodup
      have hfirst := hdrop e.1
      rw [hd, show e = (e.1, e.2) from rfl, dropKey_cons_self hnodup] at hfirst
      exact hfirst
  | removeAll => exact ⟨rfl, ⟨h.granted, h.unlimited, by simp [plainCall, TableView.call]⟩, rfl⟩
  | rehash n =>
    obtain ⟨hentries, hroomy⟩ := h.rehashTo n
    exact ⟨rfl, hroomy, hentries.trans hsame⟩
  | setRehash b => exact ⟨rfl, ⟨h.granted, h.unlimited, h.data⟩, hsame⟩

/-- Without heuristics, limits, null data and refused memory the table is the one the RPC layer uses. -/
theorem plain_table_agrees (n : Nat) (cs : List (GhtCall δ)) :
    let r := (GhtTable.create (fun _ => true) n).run (cs.map plainCall)
    let p := ghtRun (ghtCreate δ n) cs
    r.2 = p.2.map plainReturn ∧ (tableView r.1).entries = ghtEntries p.1 := by
  intro r p
  have hrun : ∀ (cs : List (GhtCall δ)) (v : TableView δ) (t : GhtHashTable δ) (d : GhtDict δ) (order : List Nat)
      (chain : Nat → List Nat), RoomyView v → GhtModels t d order chain →
      v.entries = (d.entries.map fun e => (e.1, some e.2)) →
      (v.run (cs.map plainCall)).2 = (d.run cs).2.map plainReturn ∧
        (v.run (cs.map plainCall)).1.entries = (d.run cs).1.entries.map fun e => (e.1, some e.2) := by
    intro cs
    induction cs with
    | nil => exact fun v t d order chain _ _ hsame => ⟨rfl, hsame⟩
    | cons c cs ih =>
      intro v t d order chain hroomy h hsame
      have hnodup : (d.entries.map Prod.fst).Nodup := h.keys ▸ h.inv.keysNodup
      obtain ⟨hret, hroomy', hsame'⟩ := hroomy.plain hsame hnodup c
      obtain ⟨-, order', chain', h'⟩ := h.call c
      obtain ⟨hrets, hlast⟩ := ih _ _ _ _ _ hroomy' h' hsame'
      refine ⟨?_, hlast⟩
      simp only [List.map_cons, TableView.run, GhtDict.run, hret, hrets]
  have hnew : TableModels [] (GhtTable.create (fun _ => true) n)
      (TableView.new (fun _ => true) n : TableView δ) [] (fun _ => []) := .create _ n
  have hplain : GhtModels (ghtCreate δ n) ⟨ghtSize n, false, []⟩ [] (fun _ => []) := .create n
  have hroomy : RoomyView (TableView.new (fun _ => true) n : TableView δ) :=
    ⟨fun _ => rfl, rfl, by simp [TableView.new]⟩
  obtain ⟨hret, order, chain, h⟩ := hnew.run (cs.map plainCall)
  obtain ⟨hret', order', chain', h'⟩ := hplain.run cs
  obtain ⟨hrets, hentries⟩ := hrun cs _ _ _ _ _ hroomy hplain rfl
  refine ⟨by rw [hret, hret', hrets], ?_⟩
  rw [h.view_eq, h'.inv.entries_eq, h'.entries, hentries]

/-!
## Data
-/

/-- The datum a call gave to the table. -/
def given : TableCall δ → TableReturn δ → List δ
  | .insert (some x) _, .status 0 => [x]
  | .replace (some x) _, .datum (some _) => [x]
  | _, _ => []

/-- The datum a call took out of the table and returned. -/
def handedOut : TableCall δ → TableReturn δ → List δ
  | .replace _ _, .datum (some y) | .remove _, .datum (some y) | .removeFirst, .datum (some y) => [y]
  | _, _ => []

def givenIn (cs : List (TableCall δ)) (rets : List (TableReturn δ)) : List δ :=
  (cs.zip rets).flatMap fun r => given r.1 r.2

def takenOut (cs : List (TableCall δ)) (rets : List (TableReturn δ)) : List δ :=
  (cs.zip rets).flatMap fun r => handedOut r.1 r.2

/-- The data are not null, and the table is not emptied at a stroke. -/
def Keeps : TableCall δ → Prop
  | .insert x _ | .replace x _ => x ≠ none
  | .removeAll => False
  | _ => True

namespace TableView

def data (v : TableView δ) : List δ := v.entries.filterMap Prod.snd

def evictedData (v : TableView δ) : List δ := v.evicted.filterMap Prod.fst

end TableView

lemma dropKey_perm {es : List (Bytes × Option δ)} (hn : (es.map Prod.fst).Nodup) {k : Bytes} {x : Option δ}
    (hk : (k, x) ∈ es) : ((k, x) :: dropKey es k).Perm es := by
  induction es with
  | nil => simp at hk
  | cons e es ih =>
    rcases List.mem_cons.mp hk with rfl | hk
    · rw [dropKey_cons_self hn]
    · obtain ⟨he, hn'⟩ := List.nodup_cons.mp hn
      have hek : e.1 ≠ k := fun he' => he (he' ▸ List.mem_map_of_mem hk)
      have hdrop : dropKey (e :: es) k = e :: dropKey es k := by
        rw [dropKey, List.filter_cons_of_pos (by simpa using hek)]
        rfl
      rw [hdrop]
      exact (List.Perm.swap e (k, x) _).trans ((ih hn' hk).cons e)

lemma replaced_perm {es : List (Bytes × Option δ)} (hn : (es.map Prod.fst).Nodup) {k : Bytes} {x y : Option δ}
    (hk : (k, x) ∈ es) : ((k, y) :: dropKey es k).Perm (es.map fun e => if e.1 = k then (k, y) else e) := by
  induction es with
  | nil => simp at hk
  | cons e es ih =>
    obtain ⟨he, hn'⟩ := List.nodup_cons.mp hn
    rcases List.mem_cons.mp hk with rfl | hk
    · have hsame : (es.map fun e => if e.1 = k then (k, y) else e) = es := by
        refine (List.map_congr_left fun e' he' => ?_).trans (List.map_id _)
        exact if_neg fun hek => he (List.mem_map.mpr ⟨e', he', hek⟩)
      rw [dropKey_cons_self hn, List.map_cons, if_pos rfl, hsame]
    · have hek : e.1 ≠ k := fun he' => he (he' ▸ List.mem_map_of_mem hk)
      have hdrop : dropKey (e :: es) k = e :: dropKey es k := by
        rw [dropKey, List.filter_cons_of_pos (by simpa using hek)]
        rfl
      rw [hdrop, List.map_cons, if_neg hek]
      exact (List.Perm.swap e (k, y) _).trans ((ih hn' hk).cons e)

/-- What is stored under a key is one of the data. -/
lemma TableModels.stored {held : List Nat} {t : GhtTable δ} {v : TableView δ} {order : List Nat}
    {chain : Nat → List Nat} (h : TableModels held t v order chain) (hdata : ∀ e ∈ v.entries, e.2 ≠ none) {k : Bytes}
    (hk : k ∈ v.keys) : ∃ y, v.lookup k = some y ∧ (k, some y) ∈ v.entries := by
  obtain ⟨p, hp, rfl⟩ := h.mem_order hk
  have hentry := (h.entry hp).1
  obtain ⟨y, hy⟩ := Option.ne_none_iff_exists'.mp (hdata _ hentry)
  simp only at hy
  rw [h.lookup hp, hy]
  rw [hy] at hentry
  exact ⟨y, rfl, hentry⟩

/-- A view whose data are not null and whose requests are granted; its buckets may have a limit. -/
structure KeptView (v : TableView δ) : Prop where
  granted : ∀ i, v.fnAlloc i = true
  data : ∀ e ∈ v.entries, e.2 ≠ none

namespace KeptView

variable {held : List Nat} {t : GhtTable δ} {v : TableView δ} {order : List Nat} {chain : Nat → List Nat}

lemma drop (hv : KeptView v) (k : Bytes) : KeptView (v.drop k) :=
  ⟨hv.granted, fun e he => hv.data e (List.filter_sublist.subset he)⟩

lemma drop_data (h : TableModels held t v order chain) {k : Bytes} {y : δ} (hk : (k, some y) ∈ v.entries) :
    v.data.Perm ((v.drop k).data ++ [y]) := by
  have hperm : (y :: (v.drop k).data).Perm v.data := (dropKey_perm h.keys_nodup hk).filterMap Prod.snd
  exact hperm.symm.trans (List.perm_append_singleton y _).symm

lemma add (hv : KeptView v) (x : δ) (k : Bytes) : KeptView (v.add (some x) k) := by
  refine ⟨hv.granted, ?_⟩
  intro e he
  rcases List.mem_append.mp he with he | he
  · exact hv.data e he
  · obtain rfl : e = (k, some x) := by simpa using he
    simp

lemma add_data (v : TableView δ) (x : δ) (k : Bytes) : (v.add (some x) k).data = v.data ++ [x] := by
  simp [TableView.data, TableView.add]

/-- A new datum stays in the table, and the datum that made room for it goes to the callback. -/
lemma link (hv : KeptView v) (h : TableModels held t v order chain) (x : δ) (k : Bytes) :
    KeptView (v.link (some x) k) ∧ ∃ gone, (v.link (some x) k).evictedData = v.evictedData ++ gone ∧
      (v.data ++ [x]).Perm ((v.link (some x) k).data ++ gone) := by
  unfold TableView.link
  cases hvictim : v.victim k with
  | none => exact ⟨hv.add x k, [], by simp [TableView.evictedData, TableView.add], by simp [add_data]⟩
  | some old =>
    have hold : old ∈ v.keys := by
      unfold TableView.victim at hvictim
      split at hvictim
      · have hm := List.mem_of_mem_getLast? hvictim
        rw [← h.chains] at hm
        obtain ⟨p, hp, rfl⟩ := List.mem_map.mp hm
        exact h.mem_keys ((h.inv.mem_chain _ p).mp hp).1
      · simp at hvictim
    obtain ⟨y, hlookup, hentry⟩ := h.stored hv.data hold
    have hkept := (hv.drop old).add x k
    refine ⟨⟨hkept.granted, hkept.data⟩, [y], by simp [TableView.evictedData, hlookup], ?_⟩
    change (v.data ++ [x]).Perm (((v.drop old).add (some x) k).data ++ [y])
    rw [add_data, List.append_assoc]
    refine ((drop_data h hentry).append_right [x]).trans ?_
    rw [List.append_assoc]
    exact List.perm_append_comm.append_left _

lemma rehashTo (hv : KeptView v) (n : Nat) :
    KeptView (v.rehashTo n) ∧ (v.rehashTo n).data = v.data ∧ (v.rehashTo n).evicted = v.evicted := by
  obtain ⟨-, -, halloc, hevicted⟩ := v.rehashTo_kept n
  have hentries := TableView.rehashTo_granted hv.granted hv.data n
  refine ⟨⟨?_, ?_⟩, ?_, hevicted⟩
  · rw [halloc]
    exact hv.granted
  · rw [hentries]
    exact hv.data
  · rw [TableView.data, hentries]
    rfl

lemma insert (hv : KeptView v) (h : TableModels held t v order chain) (x : δ) (k : Bytes) :
    KeptView (v.insert (some x) k).1 ∧ ∃ gone, (v.insert (some x) k).1.evictedData = v.evictedData ++ gone ∧
      (v.data ++ given (.insert (some x) k) (.status (v.insert (some x) k).2)).Perm
        ((v.insert (some x) k).1.data ++ gone) := by
  unfold TableView.insert
  by_cases hk : k ∈ v.keys
  · simp only [TableView.has_of_mem hk, if_true]
    exact ⟨hv, [], by simp, by simp [given]⟩
  · have hreq : KeptView { v with requests := v.requests + 1 } := ⟨hv.granted, hv.data⟩
    simp only [TableView.has_of_not_mem hk, Bool.false_eq_true, if_false, hv.granted, if_true, given]
    by_cases hgrow : (v.rehash && decide (ghtDoubled v.size < v.entries.length)) = true
    · rw [if_pos hgrow]
      obtain ⟨hkept, hdata, hevicted⟩ := hreq.rehashTo (ghtDoubled v.size)
      obtain ⟨order', chain', h'⟩ := h.request.rehashed (ghtDoubled v.size)
      obtain ⟨hlinked, gone, hgone, hperm⟩ := hkept.link h' x k
      refine ⟨hlinked, gone, ?_, ?_⟩
      · rw [hgone, TableView.evictedData, hevicted]
        rfl
      · rw [hdata] at hperm
        exact hperm
    · rw [if_neg hgrow]
      exact hreq.link h.request x k

lemma touch (hv : KeptView v) (k : Bytes) :
    KeptView (v.touch k) ∧ (v.touch k).entries = v.entries ∧ (v.touch k).evicted = v.evicted := by
  unfold TableView.touch
  split
  · exact ⟨⟨hv.granted, hv.data⟩, rfl, rfl⟩
  · exact ⟨hv, rfl, rfl⟩

/-- What a call gives to the table comes to the data, what it returns or evicts leaves them. -/
def Exchanges (v : TableView δ) (c : TableCall δ) : Prop :=
  KeptView (v.call c).1 ∧ ∃ gone, (v.call c).1.evictedData = v.evictedData ++ gone ∧
    (v.data ++ given c (v.call c).2).Perm ((v.call c).1.data ++ handedOut c (v.call c).2 ++ gone)

lemma replace (hv : KeptView v) (h : TableModels held t v order chain) (x : δ) (k : Bytes) :
    Exchanges v (.replace (some x) k) := by
  obtain ⟨hkept, hentries, hevicted⟩ := hv.touch k
  by_cases hk : k ∈ v.keys
  · obtain ⟨y, hlookup, hentry⟩ := h.stored hv.data hk
    have hold : (y :: (v.drop k).data).Perm v.data := (dropKey_perm h.keys_nodup hentry).filterMap Prod.snd
    have hnew : (x :: (v.drop k).data).Perm ((v.touch k).replaced (some x) k).data := by
      have hperm := (replaced_perm h.keys_nodup hentry (y := some x)).filterMap Prod.snd
      rw [← hentries] at hperm
      simpa [TableView.data, TableView.drop, TableView.replaced, hentries] using hperm
    have hnone : (v.call (.replace (some x) k)).1.evictedData = v.evictedData ++ [] := by
      simp [TableView.evictedData, TableView.call, TableView.replaced, hevicted]
    refine ⟨⟨hkept.granted, ?_⟩, [], hnone, ?_⟩
    · intro e he
      obtain ⟨e', he', rfl⟩ := List.mem_map.mp he
      split
      · simp
      · exact hkept.data e' he'
    · simp only [TableView.call, hlookup, given, handedOut, List.append_nil]
      have hswap : ((y :: (v.drop k).data) ++ [x]).Perm ((x :: (v.drop k).data) ++ [y]) := by
        refine (List.perm_append_singleton x _).trans ?_
        exact (List.Perm.swap y x _).trans (List.perm_append_singleton y _).symm
      exact ((hold.symm.append_right [x]).trans hswap).trans (hnew.append_right [y])
  · have hsame : (v.call (.replace (some x) k)).1 = v := v.replaced_absent (some x) hk
    rw [Exchanges, hsame]
    refine ⟨hv, [], by simp, ?_⟩
    simp [TableView.call, v.lookup_none hk, given, handedOut]

lemma remove (hv : KeptView v) (h : TableModels held t v order chain) (k : Bytes) :
    Exchanges v (.remove k) := by
  by_cases hk : k ∈ v.keys
  · obtain ⟨y, hlookup, hentry⟩ := h.stored hv.data hk
    refine ⟨hv.drop k, [], by simp [TableView.evictedData, TableView.call, TableView.drop], ?_⟩
    simp only [TableView.call, hlookup, given, handedOut, List.append_nil]
    exact drop_data h hentry
  · have hsame : (v.call (.remove k)).1 = v := h.drop_absent hk
    rw [Exchanges, hsame]
    refine ⟨hv, [], by simp, ?_⟩
    simp [TableView.call, v.lookup_none hk, given, handedOut]

lemma removeFirst (hv : KeptView v) (h : TableModels held t v order chain) : Exchanges v .removeFirst := by
  cases hentries : v.entries with
  | nil =>
    have hsame : v.removeFirst = (v, none) := by simp only [TableView.removeFirst, hentries]
    simp only [Exchanges, TableView.call, hsame]
    exact ⟨hv, [], by simp, by simp [given, handedOut]⟩
  | cons e es =>
    have hmem : e ∈ v.entries := by simp [hentries]
    obtain ⟨y, hy⟩ := Option.ne_none_iff_exists'.mp (hv.data e hmem)
    have hfirst : v.removeFirst = (v.drop e.1, some y) := by
      simp only [TableView.removeFirst, hentries, hy]
    have hentry : (e.1, some y) ∈ v.entries := by
      rw [← hy]
      exact hmem
    simp only [Exchanges, TableView.call, hfirst, given, handedOut, List.append_nil]
    exact ⟨hv.drop e.1, [], by simp [TableView.evictedData, TableView.drop], by simpa using drop_data h hentry⟩

lemma call (hv : KeptView v) (h : TableModels held t v order chain) {c : TableCall δ} (hc : Keeps c) :
    Exchanges v c := by
  cases c with
  | insert x k =>
    obtain ⟨x, rfl⟩ := Option.ne_none_iff_exists'.mp hc
    obtain ⟨hkept, gone, hgone, hperm⟩ := hv.insert h x k
    refine ⟨hkept, gone, hgone, ?_⟩
    simpa [handedOut, TableView.call] using hperm
  | get k =>
    obtain ⟨hkept, hentries, hevicted⟩ := hv.touch k
    refine ⟨hkept, [], by simp [TableView.evictedData, TableView.call, hevicted], ?_⟩
    simp [TableView.call, given, handedOut, TableView.data, hentries]
  | replace x k =>
    obtain ⟨x, rfl⟩ := Option.ne_none_iff_exists'.mp hc
    exact hv.replace h x k
  | remove k => exact hv.remove h k
  | removeFirst => exact hv.removeFirst h
  | removeAll => exact absurd hc id
  | rehash n =>
    obtain ⟨hkept, hdata, hevicted⟩ := hv.rehashTo n
    refine ⟨hkept, [], by simp [TableView.evictedData, TableView.call, hevicted], ?_⟩
    simp [TableView.call, given, handedOut, hdata]
  | setRehash b => exact ⟨⟨hv.granted, hv.data⟩, [], by simp [TableView.evictedData, TableView.call], by
      simp [TableView.call, given, handedOut, TableView.data]⟩
  | setHeuristics m => exact ⟨⟨hv.granted, hv.data⟩, [], by simp [TableView.evictedData, TableView.call], by
      simp [TableView.call, given, handedOut, TableView.data]⟩
  | setBoundedBuckets n => exact ⟨⟨hv.granted, hv.data⟩, [], by simp [TableView.evictedData, TableView.call], by
      simp [TableView.call, given, handedOut, TableView.data]⟩
  | size => exact ⟨hv, [], by simp [TableView.call], by simp [TableView.call, given, handedOut]⟩
  | tableSize => exact ⟨hv, [], by simp [TableView.call], by simp [TableView.call, given, handedOut]⟩

lemma run (hv : KeptView v) (h : TableModels held t v order chain) {cs : List (TableCall δ)}
    (hcs : ∀ c ∈ cs, Keeps c) :
    ∃ gone, (v.run cs).1.evictedData = v.evictedData ++ gone ∧
      (v.data ++ givenIn cs (v.run cs).2).Perm ((v.run cs).1.data ++ takenOut cs (v.run cs).2 ++ gone) := by
  induction cs generalizing t v order chain with
  | nil => exact ⟨[], by simp [TableView.run], by simp [TableView.run, givenIn, takenOut]⟩
  | cons c cs ih =>
    obtain ⟨hkept, gone, hgone, hperm⟩ := hv.call h (hcs c List.mem_cons_self)
    obtain ⟨-, order', chain', h'⟩ := h.call c
    obtain ⟨gone', hgone', hperm'⟩ := ih hkept h' fun c' hc' => hcs c' (List.mem_cons_of_mem c hc')
    refine ⟨gone ++ gone', ?_, ?_⟩
    · simp only [TableView.run, hgone', hgone, List.append_assoc]
    · -- the call first, then the rest of the run from the data it leaves
      simp only [TableView.run, givenIn, takenOut, List.zip_cons_cons, List.flatMap_cons] at hperm' ⊢
      rw [← Multiset.coe_eq_coe] at hperm hperm' ⊢
      simp only [← Multiset.coe_add] at hperm hperm' ⊢
      rw [← add_assoc, hperm, add_right_comm, add_right_comm _ _ (Multiset.ofList (List.flatMap _ _)), hperm']
      abel

end KeptView

/-- Every datum a table was given is still stored, was returned by the call that took it out, or was
handed to `fn_bucket_free`, and one of these only. -/
theorem data_conserved {cs : List (TableCall δ)} (hcs : ∀ c ∈ cs, Keeps c) (n : Nat) :
    let r := (GhtTable.create (fun _ => true) n).run cs
    (givenIn cs r.2).Perm ((tableView r.1).data ++ takenOut cs r.2 ++ (tableView r.1).evictedData) := by
  intro r
  have hnew : TableModels [] (GhtTable.create (fun _ => true) n) (TableView.new (fun _ => true) n : TableView δ) []
      (fun _ => []) := .create _ n
  have hkept : KeptView (TableView.new (fun _ => true) n : TableView δ) := ⟨fun _ => rfl, by simp [TableView.new]⟩
  obtain ⟨hret, order, chain, h⟩ := hnew.run cs
  obtain ⟨gone, hgone, hperm⟩ := hkept.run hnew hcs
  rw [h.view_eq, hret, hgone]
  exact hperm

/-- A bucket for one entry, which two of the four insertions push out. -/
def crowdedCalls : List (TableCall Nat) :=
  [.setBoundedBuckets 1, .insert (some 5) [1], .insert (some 6) [2], .replace (some 7) [2], .insert (some 8) [2],
    .insert (some 9) [3], .remove [3]]

theorem data_conserved_crowdedCalls :
    (∀ c ∈ crowdedCalls, Keeps c) ∧
    ((GhtTable.create (fun _ => true) 1).run crowdedCalls).1.bucketFreed = [(some 5, [1]), (some 7, [2])] ∧
    (givenIn crowdedCalls ((GhtTable.create (fun _ => true) 1).run crowdedCalls).2).Perm [6, 9, 5, 7] := by
  have hkeeps : ∀ c ∈ crowdedCalls, Keeps c := by simp [crowdedCalls, Keeps]
  refine ⟨hkeeps, by decide +kernel, ?_⟩
  have hperm := data_conserved hkeeps 1
  have hall : (tableView ((GhtTable.create (fun _ => true) 1).run crowdedCalls).1).data ++
      takenOut crowdedCalls ((GhtTable.create (fun _ => true) 1).run crowdedCalls).2 ++
      (tableView ((GhtTable.create (fun _ => true) 1).run crowdedCalls).1).evictedData = [6, 9, 5, 7] := by
    decide +kernel
  exact hall ▸ hperm

end UnfsClient.Proofs
