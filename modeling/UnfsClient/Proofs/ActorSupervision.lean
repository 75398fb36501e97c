import UnfsClient.ActorMonitor
import UnfsClient.Proofs.RequestQueues

/-!
# The monitor of the actors

A pass of the monitor joins every entry of `actor_threads`, one after the other from the first, and
fetches the entry after it before. A pass that finds an entry whose actor has not reported waits for
it, and so does one that starts a replacement while there are entries left. All other passes do what
they are there for.
-/

namespace UnfsClient.Proofs

open Lib Function

variable {head : Nat} {c c' : ActorCtx} {l : List Nat}

/-- The actor of the entry has reported. -/
def hasReported (c : ActorCtx) (a : Nat) : Bool := (c.reports (c.ast a).tid).isSome

/-- The actor of the entry has reported a status that asks for a replacement. -/
def needsRestart (c : ActorCtx) (a : Nat) : Bool :=
  (c.reports (c.ast a).tid).any fun status => status < defaultExitStatus

lemma hasReported_of_needsRestart {a : Nat} (h : needsRestart c a = true) : hasReported c a = true := by
  unfold needsRestart at h
  unfold hasReported
  cases hr : c.reports (c.ast a).tid with
  | none => simp [hr] at h
  | some status => rfl

/-- The loop stands at the first entry of the list and has its successor in `tmp`. -/
def AtFirst (head iter tmp : Nat) (l : List Nat) : Prop := ∃ rest, l = iter :: rest ∧ tmp = rest.headD head

/-- The loop ends only when none of the entries left has reported, and the monitor is woken for every
report that comes later. -/
def PcOk (head : Nat) (c : ActorCtx) (l : List Nat) : Prop :=
  match c.monitor with
  | .waiting => (∃ a ∈ l, hasReported c a = true) → 0 < c.exitNotify
  | .locking => True
  | .looping iter tmp => (iter = head ∧ ∀ a ∈ l, hasReported c a = false) ∨ AtFirst head iter tmp l
  | .joining iter tmp => AtFirst head iter tmp l

/-- What holds of the list, whatever the monitor does. -/
structure ThreadsInv (head : Nat) (c : ActorCtx) (l : List Nat) : Prop where
  ring : c.links.Ring head l
  entries : ∀ a ∈ l, a ∈ c.entries
  headNew : head ∉ c.entries
  tids : ∀ a ∈ l, (c.ast a).tid ∈ c.tids
  distinct : (l.map fun a => (c.ast a).tid).Nodup
  status : ∀ a ∈ l, (c.ast a).exitstat = (c.reports (c.ast a).tid).getD defaultExitStatus
  reported : ∀ tid, c.reports tid ≠ none → tid ∈ c.tids
  removed : (c.removed ++ l).Nodup
  gone : ∀ a ∈ c.removed, a ∈ c.entries

/-- `c'` is `c` with the new entry. -/
structure Started (head : Nat) (c c' : ActorCtx) (entry : Nat) (l : List Nat) : Prop where
  inv : ThreadsInv head c' (l ++ [entry])
  ast : ∀ a, a ≠ entry → c'.ast a = c.ast a
  unreported : hasReported c' entry = false
  monitor : c'.monitor = c.monitor
  exitNotify : c'.exitNotify = c.exitNotify
  joins : c'.joins = c.joins
  reports : c'.reports = c.reports
  removed : c'.removed = c.removed
  replaced : c'.replaced = c.replaced

lemma flistEntries_ring {s : Links Nat} {l₁ l₂ : List Nat} (hr : s.Ring head (l₁ ++ l₂)) {fuel : Nat}
    (hfuel : l₂.length < fuel) : flistEntries s head fuel (some (l₂.headD head)) = l₂ := by
  induction l₂ generalizing l₁ fuel with
  | nil =>
    cases fuel with
    | zero => cases hfuel
    | succ fuel => simp [flistEntries]
  | cons a l₂ ih =>
    cases fuel with
    | zero => cases hfuel
    | succ fuel =>
      have hne : a ≠ head := by
        rintro rfl
        exact (List.nodup_cons.mp hr.nodup).1 (by simp)
      have hr' : s.Ring head ((l₁ ++ [a]) ++ l₂) := by simpa using hr
      rw [List.headD_cons, flistEntries, if_neg hne, hr.next_entry,
        ih hr' (Nat.lt_of_succ_lt_succ hfuel)]

namespace ThreadsInv

lemma nodup (h : ThreadsInv head c l) : l.Nodup := (List.nodup_cons.mp h.ring.nodup).2

lemma listed (h : ThreadsInv head c l) : c.listed head = l := by
  have hlen : l.length ≤ c.entries.length := (h.nodup.subperm h.entries).length_le
  rw [ActorCtx.listed, h.ring.next_head]
  exact flistEntries_ring (show c.links.Ring head ([] ++ l) from h.ring) (Nat.lt_succ_of_le hlen)

lemma reports_fresh (h : ThreadsInv head c l) {tid : Nat} (htid : tid ∉ c.tids) : c.reports tid = none := by
  by_contra hr
  exact htid (h.reported tid hr)

/-- A new entry goes to the end of the list, and its actor has not reported. -/
lemma startup (h : ThreadsInv head c l) {entry tid : Nat} (hentry : entry ∉ c.entries) (hhead : entry ≠ head)
    (htid : tid ∉ c.tids) :
    ∃ c', c.startupActor head entry tid = some c' ∧ Started head c c' entry l := by
  have hnew : entry ∉ l := fun hm => hentry (h.entries entry hm)
  have hkeep : ∀ a, a ≠ entry → update c.ast entry ⟨tid, defaultExitStatus⟩ a = c.ast a :=
    fun a ha => update_of_ne ha ..
  have hkeep' : ∀ a ∈ l, update c.ast entry ⟨tid, defaultExitStatus⟩ a = c.ast a :=
    fun a ha => hkeep a (ne_of_mem_of_not_mem ha hnew)
  obtain ⟨links, hadd, hring, -⟩ := flistAddTail_ring h.ring
    (show entry ∉ head :: l by simp [hhead, hnew])
  have hfresh : ¬ (entry ∈ c.entries ∨ entry = head ∨ tid ∈ c.tids) := by simp [hentry, hhead, htid]
  have hstart : c.startupActor head entry tid = some { c with
      links := links
      ast := update c.ast entry ⟨tid, defaultExitStatus⟩
      entries := c.entries ++ [entry]
      tids := c.tids ++ [tid] } := by
    rw [ActorCtx.startupActor, if_neg hfresh, hadd]
    rfl
  refine ⟨_, hstart, ⟨hring, ?_, ?_, ?_, ?_, ?_, ?_, ?_, ?_⟩, hkeep, ?_, rfl, rfl, rfl, rfl, rfl, rfl⟩
  · intro a ha
    cases List.mem_append.mp ha with
    | inl hl => exact List.mem_append_left _ (h.entries a hl)
    | inr he => exact List.mem_append_right _ he
  · simp [h.headNew, Ne.symm hhead]
  · intro a ha
    cases List.mem_append.mp ha with
    | inl hl =>
      simp only [hkeep' a hl]
      exact List.mem_append_left _ (h.tids a hl)
    | inr he =>
      rw [List.mem_singleton.mp he]
      simp
  · have hmap : ((l ++ [entry]).map fun a => (update c.ast entry ⟨tid, defaultExitStatus⟩ a).tid) =
        (l.map fun a => (c.ast a).tid) ++ [tid] := by
      rw [List.map_append, List.map_congr_left fun a ha => by rw [hkeep' a ha]]
      simp
    simp only [hmap]
    refine List.Nodup.append h.distinct (List.nodup_singleton tid) ?_
    intro t ht ht'
    obtain ⟨a, ha, rfl⟩ := List.mem_map.mp ht
    exact htid (List.mem_singleton.mp ht' ▸ h.tids a ha)
  · intro a ha
    cases List.mem_append.mp ha with
    | inl hl =>
      simp only [hkeep' a hl]
      exact h.status a hl
    | inr he =>
      rw [List.mem_singleton.mp he]
      simp [h.reports_fresh htid]
  · intro t ht
    exact List.mem_append_left _ (h.reported t ht)
  · rw [← List.append_assoc]
    refine List.Nodup.append h.removed (List.nodup_singleton entry) ?_
    intro a ha ha'
    rw [List.mem_singleton.mp ha'] at ha
    cases List.mem_append.mp ha with
    | inl hr => exact hentry (h.gone entry hr)
    | inr hl => exact hnew hl
  · intro a ha
    exact List.mem_append_left _ (h.gone a ha)
  · simp [hasReported, h.reports_fresh htid]

/-- The guard of `startupActor`. -/
lemma startup_fresh {entry tid : Nat} (hstart : c.startupActor head entry tid = some c') :
    entry ∉ c.entries ∧ entry ≠ head ∧ tid ∉ c.tids := by
  unfold ActorCtx.startupActor at hstart
  split at hstart
  · cases hstart
  · rename_i hfresh
    simpa only [not_or] using hfresh

lemma notify (h : ThreadsInv head c l) {tid : Nat} {status : Int} (htid : tid ∈ c.tids) :
    ThreadsInv head { c with
      ast := fun a => if a ∈ c.listed head ∧ (c.ast a).tid = tid then ⟨tid, status⟩ else c.ast a
      reports := update c.reports tid (some status)
      exitNotify := c.exitNotify + 1 } l := by
  have hsame : ∀ a, (if a ∈ c.listed head ∧ (c.ast a).tid = tid then (⟨tid, status⟩ : ActorStatus)
      else c.ast a).tid = (c.ast a).tid := by
    intro a
    split
    · rename_i hm
      exact hm.2.symm
    · rfl
  refine ⟨h.ring, h.entries, h.headNew, ?_, ?_, ?_, ?_, h.removed, h.gone⟩
  · intro a ha
    simp only [hsame]
    exact h.tids a ha
  · simp only [hsame]
    exact h.distinct
  · intro a ha
    simp only [hsame]
    by_cases hat : (c.ast a).tid = tid
    · rw [if_pos ⟨by rwa [h.listed], hat⟩, hat, update_self]
      rfl
    · rw [if_neg fun hm => hat hm.2, update_of_ne hat]
      exact h.status a ha
  · intro t ht
    by_cases hteq : t = tid
    · rwa [hteq]
    · simp only [update_of_ne hteq] at ht
      exact h.reported t ht

/-- What the list does not depend on. -/
lemma other (h : ThreadsInv head c l) (pc : MonitorPc) (exitNotify : Nat) (joins : List (Nat × Bool))
    (replaced : List (Nat × Nat)) :
    ThreadsInv head
      { c with monitor := pc, exitNotify := exitNotify, joins := joins, replaced := replaced } l :=
  ⟨h.ring, h.entries, h.headNew, h.tids, h.distinct, h.status, h.reported, h.removed, h.gone⟩

lemma delete {a : Nat} {rest : List Nat} (h : ThreadsInv head c (a :: rest)) :
    ∃ links, flistDel c.links a = some links ∧ ThreadsInv head (c.takeOut links a) rest := by
  obtain ⟨links, hdel, hring, -⟩ := flistDel_ring (show c.links.Ring head ([] ++ a :: rest) from h.ring)
  refine ⟨links, hdel, hring, ?_, h.headNew, ?_, ?_, ?_, h.reported, ?_, ?_⟩
  · intro b hb
    exact h.entries b (List.mem_cons_of_mem _ hb)
  · intro b hb
    exact h.tids b (List.mem_cons_of_mem _ hb)
  · exact (List.nodup_cons.mp h.distinct).2
  · intro b hb
    exact h.status b (List.mem_cons_of_mem _ hb)
  · simpa [ActorCtx.takeOut] using h.removed
  · intro b hb
    cases List.mem_append.mp hb with
    | inl hr => exact h.gone b hr
    | inr ha => exact h.entries b (List.mem_singleton.mp ha ▸ List.mem_cons_self)

/-- The loop goes on to the entry it has fetched, or ends. -/
lemma next_tmp {rest news : List Nat} (h : ThreadsInv head c (rest ++ news)) :
    ∃ next, c.links.next (rest.headD head) = some next ∧
      ∀ b r, rest = b :: r → next = (r ++ news).headD head := by
  cases rest with
  | nil => exact ⟨_, h.ring.next_head, fun _ _ hr => nomatch hr⟩
  | cons b rest =>
    have hnext := (show c.links.Ring head ([] ++ b :: (rest ++ news)) from h.ring).next_entry
    refine ⟨_, hnext, ?_⟩
    rintro _ _ ⟨⟩
    rfl

end ThreadsInv

/-!
## One turn of the loop
-/

lemma ThreadsInv.restart_iff (h : ThreadsInv head c l) {a : Nat} (ha : a ∈ l) :
    (c.ast a).exitstat < defaultExitStatus ↔ needsRestart c a = true := by
  rw [h.status a ha, needsRestart]
  cases c.reports (c.ast a).tid with
  | none => simp
  | some status => simp

/-- The entry `a` is gone, its replacement `news` at the end of the list. -/
structure Turned (head : Nat) (c c' : ActorCtx) (a : Nat) (rest news : List Nat) : Prop where
  inv : ThreadsInv head c' (rest ++ news)
  pc : ∃ next, c'.monitor = .looping (rest.headD head) next ∧
    ∀ b r, rest = b :: r → next = (r ++ news).headD head
  removed : c'.removed = c.removed ++ [a]
  replaced : c'.replaced = c.replaced ++ news.map fun b => (a, b)
  joins : c'.joins = c.joins
  reports : c'.reports = c.reports
  ast : ∀ b ∈ rest, c'.ast b = c.ast b
  unreported : ∀ b ∈ news, hasReported c' b = false
  count : news.length = if needsRestart c a then 1 else 0

/-- What `restart` adds to the list, for answers of `malloc` and `pthread_create` that matter only when
the actor is to be replaced. -/
lemma ThreadsInv.restart (h : ThreadsInv head c l) (a entry tid : Nat)
    (hfresh : (c.ast a).exitstat < defaultExitStatus → entry ∉ c.entries ∧ entry ≠ head ∧ tid ∉ c.tids) :
    ∃ c' news, c.restart head a entry tid = some c' ∧ ThreadsInv head c' (l ++ news) ∧
      c'.replaced = c.replaced ++ news.map (fun b => (a, b)) ∧ c'.joins = c.joins ∧
      c'.reports = c.reports ∧ c'.removed = c.removed ∧ (∀ b ∈ l, c'.ast b = c.ast b) ∧
      (∀ b ∈ news, hasReported c' b = false) ∧
      news.length = if (c.ast a).exitstat < defaultExitStatus then 1 else 0 := by
  unfold ActorCtx.restart
  by_cases hlt : (c.ast a).exitstat < defaultExitStatus
  · obtain ⟨hentry, hhead, htid⟩ := hfresh hlt
    obtain ⟨c', hstart, hs⟩ := h.startup hentry hhead htid
    have hast : ∀ b ∈ l, c'.ast b = c.ast b := by
      intro b hb
      exact hs.ast b fun e => hentry (e ▸ h.entries b hb)
    have hinv := hs.inv.other c'.monitor c'.exitNotify c'.joins (c'.replaced ++ [(a, entry)])
    rw [if_pos hlt, if_pos hlt, hstart]
    refine ⟨_, [entry], rfl, hinv, ?_, hs.joins, hs.reports, hs.removed, hast, ?_, rfl⟩
    · exact congrArg (· ++ [(a, entry)]) hs.replaced
    · intro b hb
      rw [List.mem_singleton.mp hb]
      exact hs.unreported
  · rw [if_neg hlt, if_neg hlt]
    refine ⟨c, [], rfl, ?_, (List.append_nil _).symm, rfl, rfl, rfl, fun _ _ => rfl, ?_, rfl⟩
    · rwa [List.append_nil]
    · intro b hb
      cases hb

/-- A turn of the loop for such answers. -/
lemma ThreadsInv.turn {a entry tid : Nat} {rest : List Nat} (h : ThreadsInv head c (a :: rest))
    (hfresh : needsRestart c a = true → entry ∉ c.entries ∧ entry ≠ head ∧ tid ∉ c.tids) :
    ∃ c' news, c.loopBody head a (rest.headD head) entry tid = some c' ∧ Turned head c c' a rest news := by
  obtain ⟨links, hdel, hinv⟩ := h.delete
  have hrestart := h.restart_iff List.mem_cons_self
  obtain ⟨c₁, news, hstart, hinv₁, hreplaced, hjoins, hreports, hremoved, hast, hun, hcount⟩ :=
    hinv.restart a entry tid fun hlt => hfresh (hrestart.mp hlt)
  obtain ⟨next, hnext, hpc⟩ := hinv₁.next_tmp
  refine ⟨_, news, ?_, hinv₁.other (.looping (rest.headD head) next) c₁.exitNotify c₁.joins c₁.replaced,
    ⟨next, rfl, hpc⟩, hremoved, hreplaced, hjoins, hreports, hast, hun, ?_⟩
  · simp only [ActorCtx.loopBody, hdel, hstart, hnext, Option.bind_eq_bind, Option.bind_some]
  · rw [hcount]
    exact if_congr hrestart rfl rfl

/-- Whatever the answers were, they were good when the turn was made. -/
lemma ThreadsInv.turned {a entry tid : Nat} {rest : List Nat} (h : ThreadsInv head c (a :: rest))
    (hbody : c.loopBody head a (rest.headD head) entry tid = some c') :
    ∃ news, Turned head c c' a rest news := by
  have hfresh : needsRestart c a = true → entry ∉ c.entries ∧ entry ≠ head ∧ tid ∉ c.tids := by
    intro hr
    obtain ⟨links, -, hbody⟩ := Option.bind_eq_some_iff.mp hbody
    obtain ⟨c₁, hrestart, -⟩ := Option.bind_eq_some_iff.mp hbody
    have hlt : ((c.takeOut links a).ast a).exitstat < defaultExitStatus :=
      (h.restart_iff List.mem_cons_self).mpr hr
    rw [ActorCtx.restart, if_pos hlt] at hrestart
    obtain ⟨c₂, hstart, -⟩ := Option.bind_eq_some_iff.mp hrestart
    have hgood := ThreadsInv.startup_fresh hstart
    exact hgood
  obtain ⟨c₁, news, hbody', hturned⟩ := h.turn hfresh
  cases hbody.symm.trans hbody'
  exact ⟨news, hturned⟩

/-!
## The monitor, step by step
-/

section Steps

variable {iter tmp entry tid : Nat}

lemma monitor_waiting (hpc : c.monitor = .waiting) (hstep : c.nfscdActorMonitor head entry tid = some c') :
    c' = { c with exitNotify := c.exitNotify - 1, monitor := .locking } := by
  simp only [ActorCtx.nfscdActorMonitor, hpc] at hstep
  split at hstep
  · cases hstep
  · exact (Option.some.inj hstep).symm

/-- A pass starts at the first entry, if there is one. -/
lemma ThreadsInv.monitor_locking (h : ThreadsInv head c l) (hpc : c.monitor = .locking) :
    c.nfscdActorMonitor head entry tid = some { c with
      monitor := match l with
        | [] => .waiting
        | a :: rest => .looping a (rest.headD head) } := by
  simp only [ActorCtx.nfscdActorMonitor, hpc, h.ring.next_head, Option.bind_eq_bind, Option.bind_some]
  cases l with
  | nil => exact if_pos rfl
  | cons a rest =>
    have hne : a ≠ head := ne_of_mem_of_not_mem (h.entries a List.mem_cons_self) h.headNew
    have hnext := (show c.links.Ring head ([] ++ a :: rest) from h.ring).next_entry
    rw [List.headD_cons, if_neg hne, hnext]
    rfl

lemma monitor_end (hpc : c.monitor = .looping head tmp) :
    c.nfscdActorMonitor head entry tid = some { c with monitor := .waiting } := by
  simp [ActorCtx.nfscdActorMonitor, hpc]

lemma monitor_join (hpc : c.monitor = .looping iter tmp) (hne : iter ≠ head) :
    c.nfscdActorMonitor head entry tid = some { c with
      monitor := .joining iter tmp
      joins := c.joins ++ [((c.ast iter).tid, hasReported c iter)] } := by
  simp [ActorCtx.nfscdActorMonitor, hpc, hne, hasReported]

lemma monitor_joined (hpc : c.monitor = .joining iter tmp) (hr : hasReported c iter = true) :
    c.nfscdActorMonitor head entry tid = c.loopBody head iter tmp entry tid := by
  have hne : c.reports (c.ast iter).tid ≠ none := Option.isSome_iff_ne_none.mp hr
  simp [ActorCtx.nfscdActorMonitor, hpc, hne]

lemma monitor_blocked (hpc : c.monitor = .joining iter tmp)
    (hstep : c.nfscdActorMonitor head entry tid = some c') : hasReported c iter = true := by
  simp only [ActorCtx.nfscdActorMonitor, hpc] at hstep
  split at hstep
  · cases hstep
  · rename_i hne
    exact Option.isSome_iff_ne_none.mpr hne

end Steps

/-- The list and the place of the monitor in it. -/
def MonitorInv (head : Nat) (c : ActorCtx) : Prop := ∃ l, ThreadsInv head c l ∧ PcOk head c l

lemma ThreadsInv.ne_head (h : ThreadsInv head c l) {iter tmp : Nat} (hat : AtFirst head iter tmp l) :
    iter ≠ head := by
  obtain ⟨rest, rfl, -⟩ := hat
  exact ne_of_mem_of_not_mem (h.entries iter List.mem_cons_self) h.headNew

lemma Turned.pcOk {a : Nat} {rest news : List Nat} (h : Turned head c c' a rest news) :
    PcOk head c' (rest ++ news) := by
  obtain ⟨next, hpc, hnext⟩ := h.pc
  rw [PcOk, hpc]
  cases rest with
  | nil => exact .inl ⟨rfl, h.unreported⟩
  | cons b r => exact .inr ⟨r ++ news, rfl, hnext b r rfl⟩

lemma MonitorInv.monitor {entry tid : Nat} (h : MonitorInv head c)
    (hstep : c.nfscdActorMonitor head entry tid = some c') : MonitorInv head c' := by
  obtain ⟨l, hinv, hok⟩ := h
  cases hpc : c.monitor with
  | waiting =>
    rw [monitor_waiting hpc hstep]
    exact ⟨l, hinv.other .locking (c.exitNotify - 1) c.joins c.replaced, trivial⟩
  | locking =>
    rw [hinv.monitor_locking hpc] at hstep
    cases hstep
    refine ⟨l, hinv.other _ c.exitNotify c.joins c.replaced, ?_⟩
    cases l with
    | nil =>
      rintro ⟨a, ha, -⟩
      cases ha
    | cons a rest => exact .inr ⟨rest, rfl, rfl⟩
  | looping iter tmp =>
    rw [PcOk, hpc] at hok
    cases hok with
    | inl hend =>
      obtain ⟨rfl, hun⟩ := hend
      rw [monitor_end hpc] at hstep
      cases hstep
      refine ⟨l, hinv.other .waiting c.exitNotify c.joins c.replaced, ?_⟩
      rintro ⟨a, ha, hr⟩
      exact absurd hr (by simp [hasReported, ← hun a ha])
    | inr hat =>
      rw [monitor_join hpc (hinv.ne_head hat)] at hstep
      cases hstep
      exact ⟨l, hinv.other (.joining iter tmp) c.exitNotify _ c.replaced, hat⟩
  | joining iter tmp =>
    rw [PcOk, hpc] at hok
    obtain ⟨rest, rfl, rfl⟩ := hok
    rw [monitor_joined hpc (monitor_blocked hpc hstep)] at hstep
    obtain ⟨news, hturned⟩ := hinv.turned hstep
    exact ⟨rest ++ news, hturned.inv, hturned.pcOk⟩

lemma MonitorInv.startup {entry tid : Nat} (h : MonitorInv head c)
    (hstep : c.nfscdStartupActor head entry tid = some c') : MonitorInv head c' := by
  obtain ⟨l, hinv, hok⟩ := h
  unfold ActorCtx.nfscdStartupActor at hstep
  split at hstep
  · rename_i hfree
    obtain ⟨hentry, hhead, htid⟩ := ThreadsInv.startup_fresh hstep
    obtain ⟨c₁, hstart, hs⟩ := hinv.startup hentry hhead htid
    cases hstep.symm.trans hstart
    refine ⟨l ++ [entry], hs.inv, ?_⟩
    rw [ActorCtx.unlocked, decide_eq_true_eq] at hfree
    cases hfree with
    | inl hw =>
      rw [PcOk, hw] at hok
      rw [PcOk, hs.monitor, hw]
      rintro ⟨a, ha, hr⟩
      have hne : a ≠ entry := by
        rintro rfl
        exact absurd hr (by simp [hs.unreported])
      have hl : a ∈ l := by simpa [hne] using ha
      rw [hs.exitNotify]
      refine hok ⟨a, hl, ?_⟩
      rwa [hasReported, hs.ast a hne, hs.reports] at hr
    | inr hlock =>
      rw [PcOk, hs.monitor, hlock]
      trivial
  · cases hstep

lemma MonitorInv.exit {tid : Nat} {status : Int} (h : MonitorInv head c)
    (hstep : c.nfscdNotifyActorExit head tid status = some c') : MonitorInv head c' := by
  obtain ⟨l, hinv, hok⟩ := h
  unfold ActorCtx.nfscdNotifyActorExit at hstep
  split at hstep
  · rename_i hcan
    obtain ⟨hfree, htid, -⟩ := hcan
    cases hstep
    refine ⟨l, hinv.notify htid, ?_⟩
    rw [ActorCtx.unlocked, decide_eq_true_eq] at hfree
    cases hfree with
    | inl hw =>
      simp only [PcOk, hw]
      exact fun _ => Nat.succ_pos c.exitNotify
    | inr hlock => simp only [PcOk, hlock]
  · cases hstep

lemma MonitorInv.step {e : ActorEvent} (h : MonitorInv head c) (hstep : c.step head e = some c') :
    MonitorInv head c' := by
  cases e with
  | startup entry tid => exact h.startup hstep
  | exit tid status => exact h.exit hstep
  | monitor entry tid => exact h.monitor hstep

lemma MonitorInv.init (head : Nat) (links : Links Nat) : MonitorInv head (initActorThreads head links) := by
  refine ⟨[], ⟨Links.Ring.of_init links head, ?_, ?_, ?_, ?_, ?_, ?_, ?_, ?_⟩, ?_⟩
  all_goals simp [initActorThreads, PcOk]

lemma MonitorInv.run {es : List ActorEvent} (h : MonitorInv head c) (hrun : c.runEvents head es = some c') :
    MonitorInv head c' := by
  induction es generalizing c with
  | nil =>
    cases hrun
    exact h
  | cons e es ih =>
    obtain ⟨c₁, hstep, hrest⟩ := Option.bind_eq_some_iff.mp hrun
    exact ih (h.step hstep) hrest

/-!
## A pass
-/

/-- The states from the taking of `ast_lock` in `s` to its release. -/
inductive InPass (head : Nat) (s : ActorCtx) : ActorCtx → Prop
  | begin {entry tid : Nat} {c : ActorCtx} : s.nfscdActorMonitor head entry tid = some c → InPass head s c
  | next {e : ActorEvent} {c c' : ActorCtx} : InPass head s c → c.monitor ≠ .waiting →
      c.step head e = some c' → InPass head s c'

/-- What a pass that started in `s` has done when it is in `c`: it has joined only actors that had
reported and does not wait, and when it ends every actor that had reported has been taken out and
replaced if its status asks for that, and all others are on the list. -/
structure Supervises (head : Nat) (s c : ActorCtx) : Prop where
  joins : ∃ js, c.joins = s.joins ++ js ∧ ∀ j ∈ js, j.2 = true
  goesOn : c.monitor ≠ .waiting → ∃ entry tid c', c.nfscdActorMonitor head entry tid = some c'
  done : c.monitor = .waiting → ∃ news,
    c.removed = s.removed ++ (s.listed head).filter (hasReported s) ∧
    c.replaced = s.replaced ++ ((s.listed head).filter (needsRestart s)).zip news ∧
    news.length = ((s.listed head).filter (needsRestart s)).length ∧
    c.listed head = (s.listed head).filter (fun a => !hasReported s a) ++ news

/-- Every actor has reported, and only the last one may have to be replaced. -/
def Clean (head : Nat) (s : ActorCtx) : Prop :=
  (∀ a ∈ s.listed head, hasReported s a = true) ∧ ∀ a ∈ (s.listed head).dropLast, needsRestart s a = false

/-- During a pass nobody else gets the lock. -/
lemma step_locked {e : ActorEvent} (hlock : c.unlocked = false) (hstep : c.step head e = some c') :
    ∃ entry tid, c.nfscdActorMonitor head entry tid = some c' := by
  cases e with
  | startup entry tid => simp [ActorCtx.step, ActorCtx.nfscdStartupActor, hlock] at hstep
  | exit tid status => simp [ActorCtx.step, ActorCtx.nfscdNotifyActorExit, hlock] at hstep
  | monitor entry tid => exact ⟨entry, tid, hstep⟩

/-- A monitor that joins an actor which has not reported waits for ever, since the actor needs the lock to
report, and so does everybody else who needs it. -/
lemma step_stuck {iter tmp : Nat} (hpc : c.monitor = .joining iter tmp) (hun : hasReported c iter = false)
    (e : ActorEvent) : c.step head e = none := by
  cases hstep : c.step head e with
  | none => rfl
  | some c' =>
    obtain ⟨entry, tid, hmonitor⟩ := step_locked (by simp [ActorCtx.unlocked, hpc]) hstep
    have hr := monitor_blocked hpc hmonitor
    rw [hun] at hr
    cases hr

lemma exists_fresh (head : Nat) (c : ActorCtx) :
    ∃ entry tid, entry ∉ c.entries ∧ entry ≠ head ∧ tid ∉ c.tids := by
  obtain ⟨entry, hentry⟩ := Infinite.exists_notMem_finset (head :: c.entries).toFinset
  obtain ⟨tid, htid⟩ := Infinite.exists_notMem_finset c.tids.toFinset
  simp only [List.toFinset_cons, Finset.mem_insert, List.mem_toFinset, not_or] at hentry htid
  exact ⟨entry, tid, hentry.2, hentry.1, htid⟩

def PassPc (head : Nat) (todo : List Nat) : MonitorPc → Prop
  | .waiting => todo = []
  | .locking => False
  | .looping iter tmp => (iter = head ∧ todo = []) ∨ AtFirst head iter tmp todo
  | .joining iter tmp => AtFirst head iter tmp todo

/-- A pass that started in `s` has taken out `done`, added `news` and has still to visit `todo`. -/
structure Passing (head : Nat) (s c : ActorCtx) (done todo news : List Nat) : Prop where
  split : s.listed head = done ++ todo
  inv : ThreadsInv head c (todo ++ news)
  reports : c.reports = s.reports
  ast : ∀ a ∈ todo, c.ast a = s.ast a
  joins : ∃ js, c.joins = s.joins ++ js ∧ ∀ j ∈ js, j.2 = true
  removed : c.removed = s.removed ++ done
  replaced : c.replaced = s.replaced ++ (done.filter (needsRestart s)).zip news
  count : news.length = (done.filter (needsRestart s)).length
  pc : PassPc head todo c.monitor

namespace Passing

variable {s : ActorCtx} {todo news visited : List Nat}

lemma hasReported_eq (h : Passing head s c visited todo news) {a : Nat} (ha : a ∈ todo) :
    hasReported c a = hasReported s a := by
  rw [hasReported, hasReported, h.ast a ha, h.reports]

lemma needsRestart_eq (h : Passing head s c visited todo news) {a : Nat} (ha : a ∈ todo) :
    needsRestart c a = needsRestart s a := by
  rw [needsRestart, needsRestart, h.ast a ha, h.reports]

lemma reported (h : Passing head s c visited todo news) (hclean : Clean head s) {a : Nat} (ha : a ∈ todo) :
    hasReported c a = true := by
  rw [h.hasReported_eq ha]
  refine hclean.1 a ?_
  rw [h.split]
  exact List.mem_append_right visited ha

/-- Nobody is replaced before the last turn. -/
lemma none_replaced (h : Passing head s c visited todo news) (hclean : Clean head s) (htodo : todo ≠ []) :
    visited.filter (needsRestart s) = [] ∧ news = [] := by
  have hfilter : visited.filter (needsRestart s) = [] := by
    rw [List.filter_eq_nil_iff]
    intro a ha
    rw [hclean.2 a, Bool.false_eq_true]
    · exact not_false
    · rw [h.split, List.dropLast_append_of_ne_nil htodo]
      exact List.mem_append_left _ ha
  have hcount := h.count
  rw [hfilter] at hcount
  exact ⟨hfilter, List.length_eq_zero_iff.mp hcount⟩

/-- Where the loop changes only its own state. -/
lemma move (h : Passing head s c visited todo news) {pc : MonitorPc} (hpc : PassPc head todo pc)
    {joins : List (Nat × Bool)} (hjoins : ∃ js, joins = s.joins ++ js ∧ ∀ j ∈ js, j.2 = true) :
    Passing head s { c with monitor := pc, joins := joins } visited todo news :=
  ⟨h.split, h.inv.other pc c.exitNotify joins c.replaced, h.reports, h.ast, hjoins, h.removed, h.replaced,
    h.count, hpc⟩

lemma begin (hs : MonitorInv head s) (hpc : s.monitor = .locking) {entry tid : Nat}
    (hstep : s.nfscdActorMonitor head entry tid = some c) : Passing head s c [] (s.listed head) [] := by
  obtain ⟨l, hinv, -⟩ := hs
  rw [hinv.monitor_locking hpc] at hstep
  cases hstep
  rw [hinv.listed]
  refine ⟨?_, ?_, rfl, fun _ _ => rfl, ⟨[], (List.append_nil _).symm, ?_⟩, (List.append_nil _).symm,
    (List.append_nil _).symm, rfl, ?_⟩
  · exact hinv.listed
  · rw [List.append_nil]
    exact hinv.other _ s.exitNotify s.joins s.replaced
  · intro j hj
    cases hj
  · cases l with
    | nil => exact rfl
    | cons a rest => exact .inr ⟨rest, rfl, rfl⟩

lemma turn {a entry tid : Nat} {rest : List Nat} (h : Passing head s c visited (a :: rest) news)
    (hclean : Clean head s) (hbody : c.loopBody head a (rest.headD head) entry tid = some c') :
    ∃ news', Passing head s c' (visited ++ [a]) rest news' := by
  obtain ⟨hfilter, rfl⟩ := h.none_replaced hclean (List.cons_ne_nil a rest)
  have hinv : ThreadsInv head c (a :: rest) := by simpa using h.inv
  obtain ⟨news', ht⟩ := hinv.turned hbody
  have hcount := ht.count
  have hreplaced := ht.replaced
  rw [h.needsRestart_eq List.mem_cons_self] at hcount
  rw [h.replaced, hfilter, List.zip_nil_left, List.append_nil] at hreplaced
  have hsplit : s.listed head = (visited ++ [a]) ++ rest := by simpa using h.split
  have hast : ∀ b ∈ rest, c'.ast b = s.ast b := by
    intro b hb
    rw [ht.ast b hb, h.ast b (List.mem_cons_of_mem a hb)]
  have hnone : rest ≠ [] → needsRestart s a = false := by
    intro hrest
    refine hclean.2 a ?_
    rw [hsplit, List.dropLast_append_of_ne_nil hrest]
    simp
  refine ⟨news', hsplit, ht.inv, ht.reports.trans h.reports, hast, ?_, ?_, ?_, ?_, ?_⟩
  · rw [ht.joins]
    exact h.joins
  · rw [ht.removed, h.removed, List.append_assoc]
  · rw [hreplaced, List.filter_append, hfilter, List.nil_append]
    cases hr : needsRestart s a with
    | false =>
      rw [hr] at hcount
      rw [List.length_eq_zero_iff.mp hcount]
      simp
    | true =>
      rw [hr] at hcount
      obtain ⟨b, rfl⟩ := List.length_eq_one_iff.mp hcount
      simp [hr]
  · rw [hcount, List.filter_append, hfilter, List.nil_append]
    cases hr : needsRestart s a with
    | false => simp [hr]
    | true => simp [hr]
  · obtain ⟨next, hpc, hnext⟩ := ht.pc
    rw [hpc]
    cases rest with
    | nil => exact .inl ⟨rfl, rfl⟩
    | cons b r =>
      rw [hnone (List.cons_ne_nil b r)] at hcount
      have hnil : news' = [] := List.length_eq_zero_iff.mp hcount
      refine .inr ⟨r, rfl, ?_⟩
      rw [hnext b r rfl, hnil, List.append_nil]

lemma monitor {entry tid : Nat} (h : Passing head s c visited todo news) (hclean : Clean head s)
    (hpass : c.monitor ≠ .waiting) (hstep : c.nfscdActorMonitor head entry tid = some c') :
    ∃ visited' todo' news', Passing head s c' visited' todo' news' := by
  have hpc' := h.pc
  cases hpc : c.monitor with
  | waiting => exact absurd hpc hpass
  | locking =>
    rw [hpc] at hpc'
    exact hpc'.elim
  | looping iter tmp =>
    rw [hpc] at hpc'
    cases hpc' with
    | inl hend =>
      obtain ⟨rfl, rfl⟩ := hend
      rw [monitor_end hpc] at hstep
      cases hstep
      have hmove := h.move (show PassPc iter [] .waiting from rfl) h.joins
      exact ⟨visited, [], news, hmove⟩
    | inr hat =>
      obtain ⟨rest, rfl, rfl⟩ := hat
      have hne : iter ≠ head := h.inv.ne_head ⟨rest ++ news, rfl, rfl⟩
      rw [monitor_join hpc hne] at hstep
      cases hstep
      obtain ⟨js, hjs, hall⟩ := h.joins
      have hat : PassPc head (iter :: rest) (.joining iter (rest.headD head)) := ⟨rest, rfl, rfl⟩
      refine ⟨visited, iter :: rest, news, h.move hat ⟨js ++ [((c.ast iter).tid, hasReported c iter)], ?_, ?_⟩⟩
      · rw [hjs, List.append_assoc]
      · intro j hj
        cases List.mem_append.mp hj with
        | inl hm => exact hall j hm
        | inr hm =>
          rw [List.mem_singleton.mp hm]
          exact h.reported hclean List.mem_cons_self
  | joining iter tmp =>
    rw [hpc] at hpc'
    obtain ⟨rest, rfl, rfl⟩ := hpc'
    rw [monitor_joined hpc (monitor_blocked hpc hstep)] at hstep
    obtain ⟨news', hpassing⟩ := h.turn hclean hstep
    exact ⟨visited ++ [iter], rest, news', hpassing⟩

/-- The monitor does not wait. -/
lemma goesOn (h : Passing head s c visited todo news) (hclean : Clean head s) (hpass : c.monitor ≠ .waiting) :
    ∃ entry tid c', c.nfscdActorMonitor head entry tid = some c' := by
  have hpc' := h.pc
  cases hpc : c.monitor with
  | waiting => exact absurd hpc hpass
  | locking =>
    rw [hpc] at hpc'
    exact hpc'.elim
  | looping iter tmp =>
    by_cases hend : iter = head
    · subst hend
      exact ⟨0, 0, _, monitor_end hpc⟩
    · exact ⟨0, 0, _, monitor_join hpc hend⟩
  | joining iter tmp =>
    rw [hpc] at hpc'
    obtain ⟨rest, rfl, rfl⟩ := hpc'
    obtain ⟨-, rfl⟩ := h.none_replaced hclean (List.cons_ne_nil iter rest)
    have hinv : ThreadsInv head c (iter :: rest) := by simpa using h.inv
    obtain ⟨entry, tid, hfresh⟩ := exists_fresh head c
    obtain ⟨c', -, hbody, -⟩ := hinv.turn fun _ => hfresh
    exact ⟨entry, tid, c', (monitor_joined hpc (h.reported hclean List.mem_cons_self)).trans hbody⟩

lemma supervises (h : Passing head s c visited todo news) (hclean : Clean head s) :
    Supervises head s c := by
  refine ⟨h.joins, h.goesOn hclean, ?_⟩
  intro hpc
  have hpc' := h.pc
  rw [hpc] at hpc'
  obtain rfl : todo = [] := hpc'
  have hsplit : s.listed head = visited := by simpa using h.split
  have hall : visited.filter (hasReported s) = visited := by
    rw [List.filter_eq_self, ← hsplit]
    exact hclean.1
  have hnone : visited.filter (fun a => !hasReported s a) = [] := by
    rw [List.filter_eq_nil_iff, ← hsplit]
    intro a ha
    simp [hclean.1 a ha]
  refine ⟨news, ?_, ?_, ?_, ?_⟩
  · rw [hsplit, hall]
    exact h.removed
  · rw [hsplit]
    exact h.replaced
  · rw [hsplit]
    exact h.count
  · rw [hsplit, hnone]
    exact h.inv.listed

end Passing

lemma InPass.passing {s : ActorCtx} (hclean : Clean head s) (hs : MonitorInv head s)
    (hpc : s.monitor = .locking) (h : InPass head s c) :
    ∃ visited todo news, Passing head s c visited todo news := by
  induction h with
  | begin hstep => exact ⟨[], _, [], .begin hs hpc hstep⟩
  | next _ hpass hstep ih =>
    rename_i c₁ _ _
    obtain ⟨visited, todo, news, hpassing⟩ := ih
    have hlock : c₁.unlocked = false := by
      have hpc' := hpassing.pc
      cases hm : c₁.monitor with
      | waiting => exact absurd hm hpass
      | locking =>
        rw [hm] at hpc'
        exact hpc'.elim
      | looping iter tmp => simp [ActorCtx.unlocked, hm]
      | joining iter tmp => simp [ActorCtx.unlocked, hm]
    obtain ⟨entry, tid, hmonitor⟩ := step_locked hlock hstep
    exact hpassing.monitor hclean hpass hmonitor

/-!
## A pass that is not clean
-/

/-- A pass that started in `s` is at the first entry of `l`. -/
structure AtTurn (head : Nat) (s c : ActorCtx) (l : List Nat) : Prop where
  pass : InPass head s c
  inv : ThreadsInv head c l
  joins : ∃ js, c.joins = s.joins ++ js
  pc : ∃ iter tmp, c.monitor = .looping iter tmp ∧ AtFirst head iter tmp l

/-- The pass takes out the first entry, whose actor has reported, and comes to the next. -/
lemma AtTurn.turn {s : ActorCtx} {a : Nat} {rest : List Nat} (h : AtTurn head s c (a :: rest))
    (hr : hasReported c a = true) (hrest : rest ≠ []) :
    ∃ c' news, AtTurn head s c' (rest ++ news) ∧
      (∀ b ∈ rest, hasReported c' b = hasReported c b ∧ needsRestart c' b = needsRestart c b) ∧
      (∀ b ∈ news, hasReported c' b = false) ∧ news.length = if needsRestart c a then 1 else 0 := by
  obtain ⟨_, _, hpc, _, ⟨⟩, rfl⟩ := h.pc
  obtain ⟨js, hjs⟩ := h.joins
  have hne : a ≠ head := h.inv.ne_head ⟨rest, rfl, rfl⟩
  have hinv := h.inv.other (.joining a (rest.headD head)) c.exitNotify
    (c.joins ++ [((c.ast a).tid, hasReported c a)]) c.replaced
  have hjoin : ∀ entry tid, c.step head (.monitor entry tid) = _ := fun _ _ => monitor_join hpc hne
  generalize hc₁ : ({ c with
    monitor := .joining a (rest.headD head)
    joins := c.joins ++ [((c.ast a).tid, hasReported c a)] } : ActorCtx) = c₁ at hinv hjoin
  have hpc₁ : c₁.monitor = .joining a (rest.headD head) := by rw [← hc₁]
  have hsame : hasReported c₁ = hasReported c ∧ needsRestart c₁ = needsRestart c := by
    rw [← hc₁]
    exact ⟨rfl, rfl⟩
  obtain ⟨entry, tid, hfresh⟩ := exists_fresh head c₁
  obtain ⟨c', news, hbody, ht⟩ := hinv.turn fun _ => hfresh
  have hpass₁ : InPass head s c₁ := .next h.pass (by simp [hpc]) (hjoin entry tid)
  have hstep : c₁.step head (.monitor entry tid) = some c' :=
    (monitor_joined hpc₁ (by rwa [hsame.1])).trans hbody
  obtain ⟨next, hpc', hnext⟩ := ht.pc
  have hcount := ht.count
  rw [hsame.2] at hcount
  refine ⟨c', news, ⟨.next hpass₁ (by simp [hpc₁]) hstep, ht.inv, ?_, _, next, hpc', ?_⟩, ?_, ht.unreported,
    hcount⟩
  · refine ⟨js ++ [((c.ast a).tid, hasReported c a)], ?_⟩
    rw [ht.joins, ← hc₁, hjs, List.append_assoc]
  · obtain ⟨b, r, rfl⟩ := List.exists_cons_of_ne_nil hrest
    exact ⟨r ++ news, rfl, hnext b r rfl⟩
  · intro b hb
    rw [← hsame.1, ← hsame.2]
    simp only [hasReported, needsRestart, ht.ast b hb, ht.reports, and_self]

/-- The pass that started in `s` joins an actor that has not reported. -/
def JoinsRunning (head : Nat) (s : ActorCtx) : Prop :=
  ∃ c js tid, InPass head s c ∧ c.joins = s.joins ++ js ++ [(tid, false)]

lemma AtTurn.joinsRunning {s : ActorCtx} {pre post : List Nat} {x : Nat}
    (h : AtTurn head s c (pre ++ x :: post)) (hpre : ∀ a ∈ pre, hasReported c a = true)
    (hx : hasReported c x = false) : JoinsRunning head s := by
  induction pre generalizing c post with
  | nil =>
    obtain ⟨_, _, hpc, _, ⟨⟩, rfl⟩ := h.pc
    obtain ⟨js, hjs⟩ := h.joins
    have hne : x ≠ head := h.inv.ne_head ⟨post, rfl, rfl⟩
    have hjoin : c.step head (.monitor 0 0) = _ := monitor_join hpc hne
    refine ⟨_, js, (c.ast x).tid, .next h.pass (by simp [hpc]) hjoin, ?_⟩
    simp only [hjs, hx]
  | cons a pre ih =>
    rw [List.cons_append] at h
    obtain ⟨c', news, hturn, hsame, -, -⟩ := h.turn (hpre a List.mem_cons_self) (by simp)
    rw [List.append_assoc, List.cons_append] at hturn
    refine ih hturn ?_ ?_
    · intro b hb
      rw [(hsame b (List.mem_append_left _ hb)).1]
      exact hpre b (List.mem_cons_of_mem a hb)
    · rw [(hsame x (by simp)).1]
      exact hx

lemma AtTurn.joinsRunning_of_mem {s : ActorCtx} (h : AtTurn head s c l) {x : Nat} (hx : x ∈ l)
    (hun : hasReported c x = false) : JoinsRunning head s := by
  have hfind : (l.find? fun a => !hasReported c a).isSome := by
    rw [List.find?_isSome]
    exact ⟨x, hx, by simp [hun]⟩
  obtain ⟨y, hy⟩ := Option.isSome_iff_exists.mp hfind
  obtain ⟨hyun, pre, post, rfl, hpre⟩ := List.find?_eq_some_iff_append.mp hy
  refine h.joinsRunning (fun a ha => ?_) (by simpa using hyun)
  simpa using hpre a ha

/-- A replacement that is not the last thing a pass does is joined by it. -/
lemma AtTurn.joinsReplacement {s : ActorCtx} {pre rest : List Nat} {a : Nat}
    (h : AtTurn head s c (pre ++ a :: rest)) (hpre : ∀ b ∈ pre, hasReported c b = true)
    (ha : needsRestart c a = true) (hrest : rest ≠ []) : JoinsRunning head s := by
  induction pre generalizing c rest with
  | nil =>
    obtain ⟨c', news, hturn, -, hun, hcount⟩ := h.turn (hasReported_of_needsRestart ha) hrest
    rw [ha] at hcount
    obtain ⟨b, rfl⟩ := List.length_eq_one_iff.mp hcount
    exact hturn.joinsRunning_of_mem (List.mem_append_right rest List.mem_cons_self)
      (hun b List.mem_cons_self)
  | cons b pre ih =>
    rw [List.cons_append] at h
    obtain ⟨c', news, hturn, hsame, -, -⟩ := h.turn (hpre b List.mem_cons_self) (by simp)
    rw [List.append_assoc, List.cons_append] at hturn
    refine ih hturn ?_ ?_ (by simp [hrest])
    · intro x hx
      rw [(hsame x (List.mem_append_left _ hx)).1]
      exact hpre x (List.mem_cons_of_mem b hx)
    · rw [(hsame a (by simp)).2]
      exact ha

lemma AtTurn.begin {s : ActorCtx} (hs : MonitorInv head s) (hpc : s.monitor = .locking)
    (hlisted : s.listed head ≠ []) :
    ∃ pc, AtTurn head s { s with monitor := pc } (s.listed head) := by
  obtain ⟨l, hinv, -⟩ := hs
  rw [hinv.listed] at hlisted ⊢
  obtain ⟨a, rest, rfl⟩ := List.exists_cons_of_ne_nil hlisted
  have hstep : s.nfscdActorMonitor head 0 0 = _ := hinv.monitor_locking hpc
  refine ⟨_, .begin hstep, hinv.other _ s.exitNotify s.joins s.replaced, ⟨[], ?_⟩, a, rest.headD head, rfl, ?_⟩
  · exact (List.append_nil s.joins).symm
  · exact ⟨rest, rfl, rfl⟩

lemma joinsRunning_of_not_clean {s : ActorCtx} (hs : MonitorInv head s) (hpc : s.monitor = .locking)
    (hclean : ¬ Clean head s) : JoinsRunning head s := by
  by_cases hall : ∀ a ∈ s.listed head, hasReported s a = true
  · have hlast : ∃ a ∈ (s.listed head).dropLast, needsRestart s a = true := by
      by_contra hnone
      refine hclean ⟨hall, fun a ha => ?_⟩
      by_contra hr
      exact hnone ⟨a, ha, Bool.not_eq_false _ ▸ hr⟩
    obtain ⟨a, ha, hr⟩ := hlast
    have hne : s.listed head ≠ [] := List.ne_nil_of_mem (List.mem_of_mem_dropLast ha)
    obtain ⟨pc, hturn⟩ := AtTurn.begin hs hpc hne
    obtain ⟨pre, mid, hmid⟩ := List.append_of_mem ha
    have hsplit : s.listed head = pre ++ a :: (mid ++ [(s.listed head).getLast hne]) := by
      rw [← List.cons_append, ← List.append_assoc, ← hmid, List.dropLast_append_getLast]
    rw [hsplit] at hturn
    refine hturn.joinsReplacement (fun b hb => ?_) hr (by simp)
    refine hall b ?_
    rw [hsplit]
    exact List.mem_append_left _ hb
  · simp only [not_forall, Bool.not_eq_true] at hall
    obtain ⟨x, hx, hun⟩ := hall
    obtain ⟨pc, hturn⟩ := AtTurn.begin hs hpc (List.ne_nil_of_mem hx)
    exact hturn.joinsRunning_of_mem hx hun

lemma JoinsRunning.not_supervises {s : ActorCtx} (h : JoinsRunning head s) :
    ¬ ∀ c, InPass head s c → Supervises head s c := by
  intro hall
  obtain ⟨c, js, tid, hpass, hjoins⟩ := h
  obtain ⟨js', hjs', hgood⟩ := (hall c hpass).joins
  rw [hjs', List.append_assoc] at hjoins
  have heq := List.append_cancel_left hjoins
  have hbad := hgood (tid, false) (heq ▸ List.mem_append_right js List.mem_cons_self)
  cases hbad

/-- In every run no entry is taken out twice, and an actor that has reported and is still on the list is
seen by a pass, the one that goes on or the next one. A pass supervises the actors if and only if all
of them have reported when it takes the lock and none but the last one is to be replaced. -/
theorem actor_supervision (head : Nat) (links : Links Nat) (es : List ActorEvent) (s : ActorCtx)
    (hrun : (initActorThreads head links).runEvents head es = some s) :
    s.removed.Nodup ∧ (∀ a ∈ s.removed, a ∉ s.listed head) ∧
    (s.monitor = .waiting → (∃ a ∈ s.listed head, hasReported s a = true) → 0 < s.exitNotify) ∧
    (s.monitor = .locking → ((∀ c, InPass head s c → Supervises head s c) ↔ Clean head s)) := by
  have hs : MonitorInv head s := (MonitorInv.init head links).run hrun
  obtain ⟨l, hinv, hok⟩ := id hs
  have hremoved := hinv.removed
  rw [List.nodup_append] at hremoved
  refine ⟨hremoved.1, ?_, ?_, ?_⟩
  · intro a ha hl
    rw [hinv.listed] at hl
    exact hremoved.2.2 a ha a hl rfl
  · intro hpc hreported
    rw [hinv.listed] at hreported
    rw [PcOk, hpc] at hok
    exact hok hreported
  · intro hpc
    constructor
    · intro hall
      by_contra hclean
      exact (joinsRunning_of_not_clean hs hpc hclean).not_supervises hall
    · intro hclean c hpass
      obtain ⟨visited, todo, news, hpassing⟩ := hpass.passing hclean hs hpc
      exact hpassing.supervises hclean

/-- Two actors report before the monitor gets the lock, and the second one is to be replaced. -/
def bothReport : List ActorEvent :=
  [.startup 1 1, .startup 2 2, .exit 1 0, .exit 2 (-2), .monitor 0 0]

theorem actor_supervision_bothReport :
    ∃ s, (initActorThreads 0 ⟨fun _ => none, fun _ => none⟩).runEvents 0 bothReport = some s ∧
      s.listed 0 = [1, 2] ∧ s.monitor = .locking ∧ ∀ c, InPass 0 s c → Supervises 0 s c := by
  have hrun : ((initActorThreads 0 ⟨fun _ => none, fun _ => none⟩).runEvents 0 bothReport).map
      (fun s => decide (s.listed 0 = [1, 2] ∧ s.monitor = .locking ∧
        (∀ a ∈ s.listed 0, hasReported s a = true) ∧
        ∀ a ∈ (s.listed 0).dropLast, needsRestart s a = false)) = some true := by
    rfl
  obtain ⟨s, hs, hfacts⟩ := Option.map_eq_some_iff.mp hrun
  obtain ⟨hlisted, hpc, hclean⟩ := of_decide_eq_true hfacts
  obtain ⟨-, -, -, hpass⟩ := actor_supervision 0 _ bothReport s hs
  exact ⟨s, hs, hlisted, hpc, (hpass hpc).mpr hclean⟩

/-- Of two actors the first reports, and the pass that follows joins both. The second one is running,
and can not report while the monitor waits for it with the lock. -/
def oneReports : List ActorEvent := [.startup 1 1, .startup 2 2, .exit 1 0, .monitor 0 0]

/-- The states of the pass after `oneReports`, in which the monitor makes four steps. -/
lemma oneReports_runs : ∃ s c₁ c₂ c₃ c,
    (initActorThreads 0 ⟨fun _ => none, fun _ => none⟩).runEvents 0 oneReports = some s ∧
      s.nfscdActorMonitor 0 0 0 = some c₁ ∧ c₁.step 0 (.monitor 0 0) = some c₂ ∧
      c₂.step 0 (.monitor 0 0) = some c₃ ∧ c₃.step 0 (.monitor 0 0) = some c ∧
      s.monitor = .locking ∧ s.joins = [] ∧ c₁.monitor ≠ .waiting ∧ c₂.monitor ≠ .waiting ∧
      c₃.monitor ≠ .waiting ∧ c.monitor = .joining 2 0 ∧ hasReported c 2 = false ∧
      c.joins = [(1, true), (2, false)] := by
  have hruns : ((initActorThreads 0 ⟨fun _ => none, fun _ => none⟩).runEvents 0 oneReports).bind
      (fun s => (s.nfscdActorMonitor 0 0 0).bind fun c₁ => (c₁.step 0 (.monitor 0 0)).bind fun c₂ =>
        (c₂.step 0 (.monitor 0 0)).bind fun c₃ => (c₃.step 0 (.monitor 0 0)).map fun c =>
          decide (s.monitor = .locking ∧ s.joins = [] ∧ c₁.monitor ≠ .waiting ∧ c₂.monitor ≠ .waiting ∧
            c₃.monitor ≠ .waiting ∧ c.monitor = .joining 2 0 ∧ hasReported c 2 = false ∧
            c.joins = [(1, true), (2, false)])) = some true := by
    rfl
  obtain ⟨s, hs, hruns⟩ := Option.bind_eq_some_iff.mp hruns
  obtain ⟨c₁, h₁, hruns⟩ := Option.bind_eq_some_iff.mp hruns
  obtain ⟨c₂, h₂, hruns⟩ := Option.bind_eq_some_iff.mp hruns
  obtain ⟨c₃, h₃, hruns⟩ := Option.bind_eq_some_iff.mp hruns
  obtain ⟨c, hc, hfacts⟩ := Option.map_eq_some_iff.mp hruns
  exact ⟨s, c₁, c₂, c₃, c, hs, h₁, h₂, h₃, hc, of_decide_eq_true hfacts⟩

theorem monitor_waits_for_running :
    ∃ s c, (initActorThreads 0 ⟨fun _ => none, fun _ => none⟩).runEvents 0 oneReports = some s ∧
      s.monitor = .locking ∧ InPass 0 s c ∧ c.joins = [(1, true), (2, false)] ∧
      (∀ e, c.step 0 e = none) ∧ ¬ ∀ c, InPass 0 s c → Supervises 0 s c := by
  obtain ⟨s, c₁, c₂, c₃, c, hs, h₁, h₂, h₃, hc, hpc, hnone, hw₁, hw₂, hw₃, hjoining, hun, hjoins⟩ :=
    oneReports_runs
  have hpass : InPass 0 s c := .next (.next (.next (.begin h₁) hw₁ h₂) hw₂ h₃) hw₃ hc
  refine ⟨s, c, hs, hpc, hpass, hjoins, step_stuck hjoining hun, ?_⟩
  refine JoinsRunning.not_supervises ⟨c, [(1, true)], 2, hpass, ?_⟩
  rw [hjoins, hnone]
  rfl

end UnfsClient.Proofs
