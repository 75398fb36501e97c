import UnfsClient.Proofs.TableRuns

/-!
# Iterations

`ght_next` saves the successor of the entry it returns. So an iteration goes through the entries from
the oldest to the newest, also when the visited ones are removed on the way, and never comes to an
entry that was freed.
-/

namespace UnfsClient.Proofs

open Function Lib DoublyLinked

variable {δ : Type}

/-- The call may be made during an iteration that has yet to come to the keys `todo`. -/
def Visits (todo : List Bytes) : TableCall δ → Prop
  | .get _ | .replace _ _ | .setRehash _ | .setHeuristics _ | .setBoundedBuckets _ | .size | .tableSize => True
  | .remove k => k ∉ todo
  | _ => False

def VisitsAll : List Bytes → List (List (TableCall δ)) → Prop
  | _, [] => True
  | todo, cs :: rest => (∀ c ∈ cs, Visits todo c) ∧ VisitsAll todo.tail rest

namespace TableModels

variable {held : List Nat} {t : GhtTable δ} {v : TableView δ} {seen todo : List Nat} {chain : Nat → List Nat}

/-- A call on the same entries with the same keys. -/
lemma same_keys {t' : GhtTable δ} {v' : TableView δ} {chain' : Nat → List Nat}
    (h : TableModels held t v (seen ++ todo) chain) (h' : TableModels held t' v' (seen ++ todo) chain')
    (hkeys : v'.keys = v.keys) : todo.map t'.key = todo.map t.key := by
  have hmap : (seen ++ todo).map t'.key = (seen ++ todo).map t.key := by rw [h.keys, h'.keys, hkeys]
  rw [List.map_append, List.map_append] at hmap
  exact (List.append_inj hmap (by simp)).2

/-- What is still to be visited stays, in its place and with its keys. -/
lemma visit_call (h : TableModels held t v (seen ++ todo) chain) {c : TableCall δ}
    (hc : Visits (todo.map t.key) c) :
    ∃ seen' chain', TableModels held (t.call c).1 (v.call c).1 (seen' ++ todo) chain' ∧
      todo.map (t.call c).1.key = todo.map t.key := by
  have htouch : ∀ k, (v.touch k).keys = v.keys := by
    intro k
    unfold TableView.touch
    split
    · rfl
    · rfl
  cases c with
  | get k =>
    obtain ⟨-, chain', h'⟩ := h.get k
    exact ⟨seen, chain', h', h.same_keys h' (htouch k)⟩
  | replace x k =>
    obtain ⟨-, chain', h'⟩ := h.replace x k
    refine ⟨seen, chain', h', h.same_keys h' ?_⟩
    rw [← htouch k, TableView.keys, TableView.replaced, List.map_map]
    refine List.map_congr_left fun e _ => ?_
    rw [comp_apply]
    split
    · rename_i he
      exact he.symm
    · rfl
  | remove k =>
    have hk : k ∉ todo.map t.key := hc
    by_cases hmem : k ∈ v.keys
    · obtain ⟨p, hp, rfl⟩ := h.mem_order hmem
      have hseen : p ∈ seen := (List.mem_append.mp hp).resolve_right fun hm => hk (List.mem_map_of_mem hm)
      have hbucket : t.bucket (t.key p) = t.pBucketidx p := h.inv.hashed p hp
      have hdrop := h.drop hp
      rw [List.erase_append_left _ hseen] at hdrop
      simp only [GhtTable.call, GhtTable.remove, h.find_some hp, hbucket]
      exact ⟨_, _, hdrop, rfl⟩
    · simp only [GhtTable.call, TableView.call, GhtTable.remove, h.find_none hmem, h.drop_absent hmem]
      exact ⟨seen, chain, h, trivial⟩
  | setRehash b => exact ⟨seen, chain, h.setRehash b, rfl⟩
  | setHeuristics m => exact ⟨seen, chain, h.setHeuristics m, rfl⟩
  | setBoundedBuckets n => exact ⟨seen, chain, h.setBoundedBuckets n, rfl⟩
  | size => exact ⟨seen, chain, h, rfl⟩
  | tableSize => exact ⟨seen, chain, h, rfl⟩
  | _ => exact absurd hc id

lemma visit_run (h : TableModels held t v (seen ++ todo) chain) {cs : List (TableCall δ)}
    (hcs : ∀ c ∈ cs, Visits (todo.map t.key) c) :
    ∃ seen' chain', TableModels held (t.run cs).1 (v.run cs).1 (seen' ++ todo) chain' ∧
      todo.map (t.run cs).1.key = todo.map t.key := by
  induction cs generalizing t v seen chain with
  | nil => exact ⟨seen, chain, h, rfl⟩
  | cons c cs ih =>
    obtain ⟨seen₁, chain₁, h₁, hkeys₁⟩ := h.visit_call (hcs c List.mem_cons_self)
    have hrest : ∀ c' ∈ cs, Visits (todo.map (t.call c).1.key) c' := by
      intro c' hc'
      rw [hkeys₁]
      exact hcs c' (List.mem_cons_of_mem c hc')
    obtain ⟨seen₂, chain₂, h₂, hkeys₂⟩ := ih h₁ hrest
    exact ⟨seen₂, chain₂, h₂, hkeys₂.trans hkeys₁⟩

end TableModels

/-- The iterator is at an entry of the table, and gives the datum that the table holds for its key. -/
structure LiveVisit (x : GhtVisit δ) (p : Nat) : Prop where
  entry : x.iterator.pEntry = some p
  unfreed : p ∉ x.table.fnFreed
  key : x.key = some (x.table.key p)
  datum : x.datum = (x.table.get (x.table.key p)).2

namespace TableModels

variable {held : List Nat} {t : GhtTable δ} {v : TableView δ} {seen todo : List Nat} {chain : Nat → List Nat}

lemma live {order : List Nat} (h : TableModels held t v order chain) {p : Nat} (hp : p ∈ order) :
    LiveVisit (t.visitAt (t.iterateAt (some p))) p := by
  refine ⟨rfl, ?_, rfl, ?_⟩
  · -- the ledger has every entry once
    have hnodup : (held ++ order ++ t.fnFreed).Nodup := h.ledger.nodup_iff.mpr List.nodup_range
    intro hfreed
    exact (List.nodup_append.mp hnodup).2.2 p (List.mem_append_right held hp) p hfreed rfl
  · change t.datum p = (t.get (t.key p)).2
    rw [(h.get (t.key p)).1, h.lookup hp]

/-- The iterator goes to the first entry that is left. -/
lemma visit (h : TableModels held t v (seen ++ todo) chain) :
    ((t.iterateAt todo.head?).1.pNext = todo.tail.head?) ∧
      (t.visitAt (t.iterateAt todo.head?)).key = (todo.map t.key).head? ∧
      ∀ p, todo.head? = some p → LiveVisit (t.visitAt (t.iterateAt todo.head?)) p := by
  cases todo with
  | nil => exact ⟨rfl, rfl, by simp⟩
  | cons p rest =>
    refine ⟨linked_nx_append h.inv.ages, rfl, ?_⟩
    rintro q ⟨rfl⟩
    exact h.live (by simp)

lemma visitNext (h : TableModels held t v (seen ++ todo) chain) {it : GhtIterator} (hit : it.pNext = todo.head?)
    {calls : List (List (TableCall δ))} (hcalls : VisitsAll (todo.map t.key) calls)
    (hlen : calls.length = todo.length + 1) :
    (t.visitNext it calls).map GhtVisit.key = (todo.map t.key).map some ++ [none] ∧
      ∀ x ∈ t.visitNext it calls, ∀ p, x.iterator.pEntry = some p → LiveVisit x p := by
  induction calls generalizing t v seen todo chain it with
  | nil => simp at hlen
  | cons cs rest ih =>
    obtain ⟨seen', chain', h', hkeys⟩ := h.visit_run hcalls.1
    have hnext : (t.run cs).1.nextKeysize it = (t.run cs).1.iterateAt todo.head? := by
      rw [GhtTable.nextKeysize, hit]
    obtain ⟨hpNext, hkey, hlive⟩ := h'.visit
    simp only [GhtTable.visitNext, hnext]
    cases todo with
    | nil =>
      obtain rfl : rest = [] := List.length_eq_zero_iff.mp (by simpa using hlen)
      simp [GhtTable.visitNext, GhtTable.visitAt, GhtTable.iterateAt]
    | cons p todo =>
      have hsplit : TableModels held (t.run cs).1 (v.run cs).1 ((seen' ++ [p]) ++ todo) chain' := by
        rw [List.append_assoc]
        exact h'
      have htail : todo.map (t.run cs).1.key = todo.map t.key := (List.cons.inj hkeys).2
      obtain ⟨hrest, hlives⟩ := ih hsplit hpNext (htail ▸ hcalls.2) (by simpa using hlen)
      constructor
      · rw [List.map_cons, hkey, hkeys, hrest, htail]
        rfl
      · intro x hx q hq
        rcases List.mem_cons.mp hx with rfl | hx
        · exact hlive q hq
        · exact hlives x hx q hq

end TableModels

/-- An iteration over any table comes to the key of each of its entries once, the oldest first, and then
to none, whatever is looked up and replaced meanwhile and whichever visited entries are removed. Each time
it is at an entry that has not been freed and gives its present datum. -/
theorem iteration_visits_all (fnAlloc : Nat → Bool) (n : Nat) (cs : List (TableCall δ))
    {calls : List (List (TableCall δ))}
    (hcalls : VisitsAll (tableView ((GhtTable.create fnAlloc n).run cs).1).keys.tail calls)
    (hlen : calls.length = ((GhtTable.create fnAlloc n).run cs).1.iItems) :
    let t := ((GhtTable.create fnAlloc n).run cs).1
    (t.visits calls).map GhtVisit.key = (tableView t).keys.map some ++ [none] ∧
      ∀ x ∈ t.visits calls, ∀ p, x.iterator.pEntry = some p → LiveVisit x p := by
  intro t
  have hnew : TableModels [] (GhtTable.create fnAlloc n) (TableView.new fnAlloc n : TableView δ) [] (fun _ => []) :=
    .create fnAlloc n
  obtain ⟨-, order, chain, h⟩ := hnew.run cs
  have hfirst : t.firstKeysize = t.iterateAt order.head? := by rw [GhtTable.firstKeysize, h.inv.oldest]
  have hvisit : TableModels [] t ((TableView.new fnAlloc n).run cs).1 ([] ++ order) chain := h
  obtain ⟨hpNext, hkey, hlive⟩ := hvisit.visit
  have hview : (tableView t).keys = order.map t.key := by rw [h.view_eq, h.keys]
  rw [hview] at hcalls ⊢
  simp only [GhtTable.visits, hfirst]
  cases order with
  | nil =>
    obtain rfl : calls = [] := List.length_eq_zero_iff.mp (hlen.trans h.inv.items)
    simp [GhtTable.visitNext, GhtTable.visitAt, GhtTable.iterateAt]
  | cons p rest =>
    have hsplit : TableModels [] t ((TableView.new fnAlloc n).run cs).1 ([p] ++ rest) chain := h
    obtain ⟨hrest, hlives⟩ := hsplit.visitNext hpNext hcalls (hlen.trans h.inv.items)
    constructor
    · rw [List.map_cons, hkey, hrest]
      rfl
    · intro x hx q hq
      rcases List.mem_cons.mp hx with rfl | hx
      · exact hlive q hq
      · exact hlives x hx q hq

/-- Each entry is removed when the iteration has come to it. -/
def drainingCalls : List (List (TableCall Nat)) := [[.remove [1]], [.get [3], .remove [2]], [.remove [3]]]

theorem iteration_visits_all_drainingCalls :
    (((GhtTable.create (fun _ => true) 1).run
      [.insert (some 7) [1], .insert (some 8) [2], .setHeuristics 2, .get [1], .insert (some 9) [3]]).1.visits
        drainingCalls).map GhtVisit.key = [some [1], some [2], some [3], none] := by
  have hkeys : (tableView ((GhtTable.create (fun _ => true) 1).run [.insert (some 7) [1], .insert (some 8) [2],
      .setHeuristics 2, .get [1], .insert (some 9) [3]]).1).keys = [[1], [2], [3]] := by rfl
  have hcalls : VisitsAll (tableView ((GhtTable.create (fun _ => true) 1).run [.insert (some 7) [1],
      .insert (some 8) [2], .setHeuristics 2, .get [1], .insert (some 9) [3]]).1).keys.tail drainingCalls := by
    rw [hkeys]
    simp [drainingCalls, VisitsAll, Visits]
  have hvisits := (iteration_visits_all (fun _ => true) 1 _ hcalls (by rfl)).1
  rw [hkeys] at hvisits
  exact hvisits

end UnfsClient.Proofs
