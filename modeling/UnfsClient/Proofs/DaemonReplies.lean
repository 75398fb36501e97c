import UnfsClient.Daemon
import UnfsClient.Proofs.RemoteProcedures
import UnfsClient.Proofs.RequestQueues

/-!
# Replies to FUSE

The daemon under every interleaving of FUSE and its actors. A request goes to one actor, which calls
for it at most once, and a callback is run at most once and by the actor whose call it is. So no
request is replied to twice, and every reply has the error of a result that came for its own request.
-/

namespace UnfsClient.Proofs

open Lib Function

/-! ## The requests and who has them -/

section Queue

variable {head : RequestQueue → Nat} {c c' : QueueCtx Nat}

/-- A step returns at most one request of the metadata queue, and a step of an enqueue call none. -/
lemma exec_returned {op : QueueOp Nat} (h : op.exec head c = some c') :
    c'.issued = c.issued ∧ ∃ new, c'.returned .md = c.returned .md ++ new ∧ new.length ≤ 1 ∧
      (op.ofEnqueue = true → new = []) := by
  cases op with
  | semWait q =>
    simp only [QueueOp.exec] at h
    split at h
    · cases h
    · cases h
      exact ⟨rfl, [], by simp⟩
  | takeFirst q =>
    simp only [QueueOp.exec] at h
    split at h
    · cases h
    · obtain ⟨elem, -, h⟩ := Option.bind_eq_some_iff.mp h
      obtain ⟨links, -, h⟩ := Option.bind_eq_some_iff.mp h
      cases h
      cases q with
      | md => exact ⟨rfl, [elem], by simp, by simp, fun hop => absurd hop Bool.false_ne_true⟩
      | rw => exact ⟨rfl, [], by simp [update], by simp, fun _ => rfl⟩
  | initHead rq =>
    cases h
    exact ⟨rfl, [], by simp⟩
  | lockAndLink q rq =>
    simp only [QueueOp.exec] at h
    split at h
    · cases h
    · obtain ⟨links, -, h⟩ := Option.bind_eq_some_iff.mp h
      cases h
      exact ⟨rfl, [], by simp⟩
  | semPost q =>
    cases h
    exact ⟨rfl, [], by simp⟩
  | unlock q =>
    cases h
    exact ⟨rfl, [], by simp⟩

lemma run_returned {i : Nat} (h : c.step head (.run i) = some c') :
    ∃ op rest, c.calls[i]? = some (op :: rest) ∧ c'.issued = c.issued ∧
      ∃ new, c'.returned .md = c.returned .md ++ new ∧ new.length ≤ 1 ∧ (op.ofEnqueue = true → new = []) := by
  simp only [QueueCtx.step] at h
  split at h
  · rename_i op rest hi
    obtain ⟨c₁, hexec, hset⟩ := Option.bind_eq_some_iff.mp h
    cases hset
    obtain ⟨hissued, hret⟩ := exec_returned hexec
    exact ⟨op, rest, hi, hissued, hret⟩
  · cases h

lemma enqueue_fresh {rq : Nat} (h : c.step head (.enqueue .md rq) = some c') :
    rq ∉ c.issued ∧ c'.issued = c.issued ++ [rq] ∧ c'.returned = c.returned := by
  simp only [QueueCtx.step] at h
  split at h
  · cases h
  · rename_i hfresh
    cases h
    exact ⟨fun hmem => hfresh (Or.inl hmem), rfl, rfl⟩

end Queue

/-- Every request is with one actor once it has left the queue, and all of them are lookups. -/
structure DaemonInv (head : RequestQueue → Nat) (d : Daemon) : Prop where
  queues : ∃ l, QueueInv head d.queues l
  taken : d.taken.Perm (d.queues.returned .md)
  lookups : ∀ rq ∈ d.queues.issued, (d.mem rq).request = .lookup

namespace DaemonInv

variable {head : RequestQueue → Nat} {d : Daemon}

lemma taken_nodup (h : DaemonInv head d) : d.taken.Nodup := by
  obtain ⟨l, hl⟩ := h.queues
  exact h.taken.nodup_iff.mpr (List.nodup_append.mp hl.returned_nodup).1

lemma mem_issued (h : DaemonInv head d) {rq : Nat} (hrq : rq ∈ d.taken) : rq ∈ d.queues.issued := by
  obtain ⟨l, hl⟩ := h.queues
  refine hl.mem_issued (q := .md) ?_
  rw [hl.fifo]
  exact List.mem_append_left _ (h.taken.mem_iff.mp hrq)

lemma taken_subperm (h : DaemonInv head d) : d.taken.Subperm d.queues.issued :=
  h.taken_nodup.subperm fun _ => h.mem_issued

lemma taken_sublist {t : ActorThread} (ht : t ∈ d.threads) : t.taken.Sublist d.taken := by
  unfold Daemon.taken
  rw [List.flatMap_def]
  exact List.sublist_flatten_of_mem (List.mem_map_of_mem ht)

lemma taken_length_le (h : DaemonInv head d) {t : ActorThread} (ht : t ∈ d.threads) :
    t.taken.length ≤ d.queues.issued.length :=
  (taken_sublist ht).length_le.trans h.taken_subperm.length_le

end DaemonInv

lemma acted_sublist (a : RunningActor) : a.acted.Sublist a.taken := by
  unfold RunningActor.taken
  split
  · exact List.sublist_append_left _ _
  · exact List.Sublist.refl _

/-- One more request with the `j`-th thread. -/
lemma flatMap_set_perm {α β : Type} {f : α → List β} {l : List α} {j : Nat} {t t' : α} {new : List β}
    (hj : l[j]? = some t) (hf : f t' = f t ++ new) : ((l.set j t').flatMap f).Perm (l.flatMap f ++ new) := by
  obtain ⟨hlt, hget⟩ := List.getElem?_eq_some_iff.mp hj
  obtain ⟨l₁, l₂, hl, -, hset⟩ : ∃ l₁ l₂, l = l₁ ++ l[j] :: l₂ ∧ l₁.length = j ∧ l.set j t' = l₁ ++ t' :: l₂ :=
    List.exists_of_set hlt
  rw [hget] at hl
  rw [hset, hl]
  simp only [List.flatMap_append, List.flatMap_cons, hf, List.append_assoc]
  have hcomm : (new ++ l₂.flatMap f).Perm (l₂.flatMap f ++ new) := List.perm_append_comm
  exact (hcomm.append_left _).append_left _

section Steps

variable {E : Env} {opts : MountOpts} {head : RequestQueue → Nat} {d d' : Daemon}

/-- What a step of an actor does to the queues and to the requests the actor has. -/
lemma actorThread_step_taken {M : RequestMem} {net : Net} {queues queues' : QueueCtx Nat} {t t' : ActorThread}
    (hinj : Injective head) (hq : ∃ l, QueueInv head queues l)
    (h : t.step E opts head M net queues = some (queues', t')) :
    (∃ l, QueueInv head queues' l) ∧ queues'.issued = queues.issued ∧
      ∃ new, queues'.returned .md = queues.returned .md ++ new ∧ t'.taken = t.taken ++ new := by
  have hsame : ∀ {t' : ActorThread}, t'.taken = t.taken → (∃ l, QueueInv head queues l) ∧
      queues.issued = queues.issued ∧
      ∃ new, queues.returned .md = queues.returned .md ++ new ∧ t'.taken = t.taken ++ new :=
    fun htaken => ⟨hq, rfl, [], (List.append_nil _).symm, by rw [htaken, List.append_nil]⟩
  obtain ⟨l, hl⟩ := hq
  cases t with
  | starting =>
    simp only [ActorThread.step] at h
    split at h
    · cases h
    · cases h
      exact hsame rfl
    · cases h
      exact hsame rfl
  | exited => cases h
  | running a =>
    obtain ⟨⟨queues₁, a'⟩, hstep, heq⟩ := Option.map_eq_some_iff.mp h
    obtain ⟨rfl, rfl⟩ := Prod.mk.inj heq
    obtain ⟨pc, as, mntCl, acted, replies⟩ := a
    cases pc with
    | idle =>
      cases hstep
      exact ⟨⟨l, hl.dequeue .md⟩, rfl, [], (List.append_nil _).symm, (List.append_nil _).symm⟩
    | dequeuing call =>
      obtain ⟨queues₂, hrun, heq⟩ := Option.map_eq_some_iff.mp hstep
      obtain ⟨rfl, rfl⟩ := Prod.mk.inj heq
      obtain ⟨op, rest, -, hissued, new, hret, hlen, -⟩ := run_returned hrun
      refine ⟨hl.step hinj hrun, hissued, new, hret, ?_⟩
      have hnew : (queues₂.returned .md).drop (queues.returned .md).length = new := by rw [hret, List.drop_left]
      unfold RunningActor.dequeueStep
      rw [hnew]
      cases new with
      | nil => exact (List.append_nil _).symm
      | cons rq rest =>
        obtain rfl : rest = [] := List.length_eq_zero_iff.mp (Nat.le_zero.mp (Nat.le_of_succ_le_succ hlen))
        rfl
    | acting rq =>
      unfold RunningActor.step at hstep
      dsimp only at hstep
      split at hstep
      · cases hstep
        exact hsame rfl
      · cases hstep

lemma actorThread_set_taken {thread thread' : ActorThread} {j : Nat} (hj : d.threads[j]? = some thread)
    {new : List Nat} (htaken : thread'.taken = thread.taken ++ new) (queues : QueueCtx Nat) :
    Daemon.taken { d with queues := queues, threads := d.threads.set j thread' } |>.Perm (d.taken ++ new) :=
  flatMap_set_perm hj htaken

/-- What a step does to the requests that were handed in. -/
lemma daemon_step_issued {e : DaemonEvent} (hinj : Injective head) (h : DaemonInv head d)
    (hstep : d.step E opts head e = some d') : d.queues.issued <+: d'.queues.issued := by
  cases e with
  | lookup rq req name =>
    obtain ⟨queues, henq, rfl⟩ := Option.map_eq_some_iff.mp hstep
    obtain ⟨-, hissued, -⟩ := enqueue_fresh henq
    exact ⟨[rq], hissued.symm⟩
  | enqueue call =>
    simp only [Daemon.step, Daemon.enqueueStep] at hstep
    split at hstep
    · split at hstep
      · obtain ⟨queues, hrun, rfl⟩ := Option.map_eq_some_iff.mp hstep
        obtain ⟨-, -, -, hissued, -⟩ := run_returned hrun
        exact ⟨[], by rw [List.append_nil, hissued]⟩
      · cases hstep
    · cases hstep
  | startup =>
    cases hstep
    exact List.prefix_rfl
  | actor j net =>
    simp only [Daemon.step, Daemon.actorStep] at hstep
    split at hstep
    · cases hstep
    · obtain ⟨⟨queues, thread'⟩, hthread, rfl⟩ := Option.map_eq_some_iff.mp hstep
      obtain ⟨-, hissued, -⟩ := actorThread_step_taken hinj h.queues hthread
      exact ⟨[], by rw [List.append_nil, hissued]⟩

lemma DaemonInv.step {e : DaemonEvent} (hinj : Injective head) (h : DaemonInv head d)
    (hstep : d.step E opts head e = some d') : DaemonInv head d' := by
  obtain ⟨l, hl⟩ := h.queues
  cases e with
  | lookup rq req name =>
    obtain ⟨queues, henq, rfl⟩ := Option.map_eq_some_iff.mp hstep
    obtain ⟨-, hissued, hret⟩ := enqueue_fresh henq
    refine ⟨hl.step hinj henq, ?_, ?_⟩
    · change d.taken.Perm (queues.returned .md)
      rw [hret]
      exact h.taken
    · intro rq' hrq'
      change (update d.mem rq ⟨req, .lookup, some name⟩ rq').request = .lookup
      by_cases heq : rq' = rq
      · subst heq
        rw [update_self]
      · rw [update_of_ne heq]
        rw [hissued] at hrq'
        rcases List.mem_append.mp hrq' with hrq' | hrq'
        · exact h.lookups rq' hrq'
        · exact absurd (List.mem_singleton.mp hrq') heq
  | enqueue call =>
    simp only [Daemon.step, Daemon.enqueueStep] at hstep
    split at hstep
    · rename_i op rest hcall
      split at hstep
      · rename_i hop
        obtain ⟨queues, hrun, rfl⟩ := Option.map_eq_some_iff.mp hstep
        obtain ⟨op', rest', hcall', hissued, new, hret, -, hnone⟩ := run_returned hrun
        obtain ⟨rfl, rfl⟩ := List.cons.inj (Option.some.inj (hcall.symm.trans hcall'))
        rw [hnone hop, List.append_nil] at hret
        refine ⟨hl.step hinj hrun, ?_, ?_⟩
        · change d.taken.Perm (queues.returned .md)
          rw [hret]
          exact h.taken
        · change ∀ rq ∈ queues.issued, _
          rw [hissued]
          exact h.lookups
      · cases hstep
    · cases hstep
  | startup =>
    cases hstep
    refine ⟨h.queues, ?_, h.lookups⟩
    change ((d.threads ++ [ActorThread.starting]).flatMap ActorThread.taken).Perm _
    rw [List.flatMap_append]
    change (d.taken ++ []).Perm _
    rw [List.append_nil]
    exact h.taken
  | actor j net =>
    simp only [Daemon.step, Daemon.actorStep] at hstep
    split at hstep
    · cases hstep
    · rename_i thread hj
      obtain ⟨⟨queues, thread'⟩, hthread, rfl⟩ := Option.map_eq_some_iff.mp hstep
      obtain ⟨hq, hissued, new, hret, htaken⟩ := actorThread_step_taken hinj h.queues hthread
      refine ⟨hq, ?_, ?_⟩
      · refine (actorThread_set_taken hj htaken queues).trans ?_
        change (d.taken ++ new).Perm (queues.returned .md)
        rw [hret]
        exact h.taken.append_right new
      · change ∀ rq ∈ queues.issued, _
        rw [hissued]
        exact h.lookups

lemma DaemonInv.init (hinj : Injective head) (mem : RequestMem) (links : Links Nat) :
    DaemonInv head (nfscdInit head mem links) :=
  ⟨⟨_, QueueInv.init hinj links⟩, .nil, fun _ h => nomatch h⟩

lemma DaemonInv.run {es : List DaemonEvent} (hinj : Injective head) (h : DaemonInv head d)
    (hrun : d.run E opts head es = some d') : DaemonInv head d' ∧ d.queues.issued <+: d'.queues.issued := by
  induction es generalizing d with
  | nil =>
    cases hrun
    exact ⟨h, List.prefix_rfl⟩
  | cons e es ih =>
    obtain ⟨d₁, hstep, hrest⟩ := Option.bind_eq_some_iff.mp hrun
    obtain ⟨h', hpre⟩ := ih (h.step hinj hstep) hrest
    exact ⟨h', (daemon_step_issued hinj h hstep).trans hpre⟩

/-! ## What holds of every actor -/

/-- `Q` holds of an actor when it enters its loop, and is kept by all it does there and by all that
happens to the memory meanwhile. -/
structure KeptByActors (E : Env) (opts : MountOpts) (Q : RequestMem → RunningActor → Prop) : Prop where
  start : ∀ {M : RequestMem} {net : Net} {mntCl : Option NfsClient} {as : Nfs3ActorState},
    initNfs3ActorThreadState E net opts = some (mntCl, some as) → Q M ⟨.idle, as, mntCl, [], []⟩
  pc : ∀ {M : RequestMem} {a : RunningActor} (pc : LoopPc), Q M a → Q M { a with pc := pc }
  act : ∀ {M : RequestMem} {net : Net} {a : RunningActor} {as : Nfs3ActorState} {rq : Nat} {replies : List FuseReply},
    Q M a → a.acted.length < 2 ^ 32 → (M rq).request = .lookup →
    nfs3ActOnRequest E M net a.as rq = some (as, some replies) →
    Q M { a with as := as, acted := a.acted ++ [rq], replies := a.replies ++ replies }
  mem : ∀ {M M' : RequestMem} {a : RunningActor}, Q M a → a.acted.length ≤ 2 ^ 32 →
    (∀ rq ∈ a.acted, M' rq = M rq) → Q M' a

section Rule

variable {Q : RequestMem → RunningActor → Prop}

lemma KeptByActors.actor (hQ : KeptByActors E opts Q) {M : RequestMem} {net : Net} {queues queues' : QueueCtx Nat}
    {t t' : ActorThread} (hall : ∀ a, t = .running a → Q M a) (hfew : t.taken.length ≤ 2 ^ 32)
    (hlookup : ∀ rq ∈ t.taken, (M rq).request = .lookup)
    (h : t.step E opts head M net queues = some (queues', t')) : ∀ a, t' = .running a → Q M a := by
  cases t with
  | starting =>
    simp only [ActorThread.step] at h
    split at h
    · cases h
    · cases h
      intro a ha
      cases ha
    · rename_i mntCl as hinit
      cases h
      intro a ha
      cases ha
      exact hQ.start hinit
  | exited => cases h
  | running a =>
    have ha : Q M a := hall a rfl
    obtain ⟨⟨queues₁, a'⟩, hstep, heq⟩ := Option.map_eq_some_iff.mp h
    obtain ⟨rfl, rfl⟩ := Prod.mk.inj heq
    intro a₁ ha₁
    cases ha₁
    obtain ⟨pc, as, mntCl, acted, replies⟩ := a
    cases pc with
    | idle =>
      cases hstep
      exact hQ.pc _ ha
    | dequeuing call =>
      obtain ⟨queues₂, -, heq⟩ := Option.map_eq_some_iff.mp hstep
      obtain ⟨rfl, rfl⟩ := Prod.mk.inj heq
      unfold RunningActor.dequeueStep
      split
      · exact ha
      · exact hQ.pc _ ha
    | acting rq =>
      unfold RunningActor.step at hstep
      dsimp only at hstep
      split at hstep
      · rename_i as' replies' hact
        cases hstep
        have hlen : (acted ++ [rq]).length ≤ 2 ^ 32 := hfew
        rw [List.length_append, List.length_singleton] at hlen
        have hrq : (M rq).request = .lookup := hlookup rq (List.mem_append_right _ (List.mem_singleton_self rq))
        exact hQ.pc .idle (hQ.act ha hlen hrq hact)
      · cases hstep

lemma KeptByActors.step (hQ : KeptByActors E opts Q) {e : DaemonEvent} (h : DaemonInv head d)
    (hfew : d.queues.issued.length ≤ 2 ^ 32) (hall : ∀ a, .running a ∈ d.threads → Q d.mem a)
    (hstep : d.step E opts head e = some d') : ∀ a, .running a ∈ d'.threads → Q d'.mem a := by
  cases e with
  | lookup rq req name =>
    obtain ⟨queues, henq, rfl⟩ := Option.map_eq_some_iff.mp hstep
    obtain ⟨hfresh, -, -⟩ := enqueue_fresh henq
    intro a ha
    refine hQ.mem (hall a ha) ?_ ?_
    · exact ((acted_sublist a).length_le.trans (h.taken_length_le ha)).trans hfew
    · intro rq' hrq'
      refine update_of_ne ?_ _ _
      rintro rfl
      exact hfresh (h.mem_issued ((DaemonInv.taken_sublist ha).subset ((acted_sublist a).subset hrq')))
  | enqueue call =>
    simp only [Daemon.step, Daemon.enqueueStep] at hstep
    split at hstep
    · split at hstep
      · obtain ⟨queues, -, rfl⟩ := Option.map_eq_some_iff.mp hstep
        exact hall
      · cases hstep
    · cases hstep
  | startup =>
    cases hstep
    intro a ha
    rcases List.mem_append.mp ha with ha | ha
    · exact hall a ha
    · cases List.mem_singleton.mp ha
  | actor j net =>
    simp only [Daemon.step, Daemon.actorStep] at hstep
    split at hstep
    · cases hstep
    · rename_i thread hj
      obtain ⟨⟨queues, thread'⟩, hthread, rfl⟩ := Option.map_eq_some_iff.mp hstep
      have hmem := List.mem_of_getElem? hj
      intro a ha
      rcases List.mem_or_eq_of_mem_set ha with ha | ha
      · exact hall a ha
      · refine hQ.actor ?_ ?_ ?_ hthread a ha.symm
        · rintro a rfl
          exact hall a hmem
        · exact (h.taken_length_le hmem).trans hfew
        · intro rq hrq
          exact h.lookups rq (h.mem_issued ((DaemonInv.taken_sublist hmem).subset hrq))

lemma KeptByActors.run (hQ : KeptByActors E opts Q) (hinj : Injective head) {es : List DaemonEvent}
    (h : DaemonInv head d) (hall : ∀ a, .running a ∈ d.threads → Q d.mem a)
    (hrun : d.run E opts head es = some d') (hfew : d'.queues.issued.length ≤ 2 ^ 32) :
    ∀ a, .running a ∈ d'.threads → Q d'.mem a := by
  induction es generalizing d with
  | nil =>
    cases hrun
    exact hall
  | cons e es ih =>
    obtain ⟨d₁, hstep, hrest⟩ := Option.bind_eq_some_iff.mp hrun
    have h₁ := h.step hinj hstep
    have hle := (daemon_step_issued hinj h hstep).length_le.trans (h₁.run hinj hrest).2.length_le
    exact ih h₁ (hQ.step h (hle.trans hfew) hall hstep) hrest

end Rule

end Steps

/-! ## The callbacks of an actor -/

lemma runCallbacks_append {M : RequestMem} {A B : List (Cbi × Bytes)} {ra rb : List FuseReply}
    (hA : runCallbacks M A = some ra) (hB : runCallbacks M B = some rb) :
    runCallbacks M (A ++ B) = some (ra ++ rb) := by
  induction A generalizing ra with
  | nil =>
    cases hA
    exact hB
  | cons a A ih =>
    rw [runCallbacks_cons] at hA
    obtain ⟨r, hr, hrest⟩ := Option.bind_eq_some_iff.mp hA
    obtain ⟨rs, hrs, rfl⟩ := Option.map_eq_some_iff.mp hrest
    rw [List.cons_append, runCallbacks_cons, hr, ih hrs, List.append_assoc]
    rfl

/-- The callbacks read only their own requests. -/
lemma runCallbacks_congr {M M' : RequestMem} {A : List (Cbi × Bytes)}
    (h : ∀ a ∈ A, M' a.1.info.cbPrivate = M a.1.info.cbPrivate) : runCallbacks M' A = runCallbacks M A := by
  induction A with
  | nil => simp only [runCallbacks, List.mapM_nil]
  | cons a A ih =>
    have ha : nfs3LookupCb M' a.2 a.1.info.cbPrivate = nfs3LookupCb M a.2 a.1.info.cbPrivate := by
      unfold nfs3LookupCb
      rw [h a List.mem_cons_self]
    rw [runCallbacks_cons, runCallbacks_cons, ha, ih fun b hb => h b (List.mem_cons_of_mem _ hb)]

/-- The callback was given a result with an error status and sends this for it. -/
def FailedFor (M : RequestMem) (a : Cbi × Bytes) (r : FuseReply) : Prop :=
  ∃ res, lookupResult a.2 = some res ∧ statusOk res.disc = false ∧
    r = ⟨(M a.1.info.cbPrivate).fuserq, nfsstat3ToErrno res.disc⟩

lemma mem_nfs3LookupCb {M : RequestMem} {a : Cbi × Bytes} {replies : List FuseReply}
    (h : nfs3LookupCb M a.2 a.1.info.cbPrivate = some replies) (r : FuseReply) :
    r ∈ replies ↔ FailedFor M a r := by
  rcases nfs3LookupCb_eq M a.2 a.1.info.cbPrivate with ⟨-, hnone⟩ | ⟨res, hres, hcb⟩
  · rw [h] at hnone
    cases hnone
  · rw [h] at hcb
    have hreplies := Option.some.inj hcb
    have hfailed : lookupFailed a.2 = !statusOk res.disc := by rw [lookupFailed, hres, resultFailed]
    cases hstat : statusOk res.disc with
    | true =>
      rw [hreplies, hfailed, hstat]
      constructor
      · intro hr
        cases hr
      · rintro ⟨res', hres', hstat', -⟩
        obtain rfl := Option.some.inj (hres.symm.trans hres')
        rw [hstat] at hstat'
        cases hstat'
    | false =>
      rw [hreplies, hfailed, hstat]
      constructor
      · intro hr
        exact ⟨res, hres, hstat, List.mem_singleton.mp hr⟩
      · rintro ⟨res', hres', -, rfl⟩
        obtain rfl := Option.some.inj (hres.symm.trans hres')
        exact List.mem_singleton_self _

lemma mem_runCallbacks {M : RequestMem} {A : List (Cbi × Bytes)} {replies : List FuseReply}
    (h : runCallbacks M A = some replies) (r : FuseReply) : r ∈ replies ↔ ∃ a ∈ A, FailedFor M a r := by
  induction A generalizing replies with
  | nil =>
    cases h
    simp
  | cons a A ih =>
    rw [runCallbacks_cons] at h
    obtain ⟨ra, hra, hrest⟩ := Option.bind_eq_some_iff.mp h
    obtain ⟨rs, hrs, rfl⟩ := Option.map_eq_some_iff.mp hrest
    rw [List.mem_append, mem_nfs3LookupCb hra, ih hrs, List.exists_mem_cons_iff]

/-- What a lookup of the actor does to the log of its handle. -/
lemma nfs3LookupActor_registers {E : Env} {M : RequestMem} {n : Nat} {P : Nat → Prop} {net : Net}
    {as as' : Nfs3ActorState} {rq : Nat} {stat : ClntStat} (hinv : ActorInv E n P as) (hn : n < 2 ^ 32)
    (h : nfs3LookupActor E M net as rq = some (as', stat)) :
    ∃ es, handleLog as' = handleLog as ++ es ∧
      (regs es = [] ∨ ∃ serial x, regs es = [(⟨serial, ⟨some nfs3LookupCbAddr, rq⟩⟩, x)]) := by
  rcases nfs3LookupActor_cases h with ⟨-, rfl⟩ | ⟨cl, w', inargs, hcl, hcall, rfl⟩
  · exact ⟨[], (List.append_nil _).symm, Or.inl rfl⟩
  · obtain ⟨hlog, ct, hct, hacts⟩ := hinv.handle hcl
    have hcalls : (regs cl.world.log).length ≤ n := by
      rw [hlog]
      exact hinv.calls
    have henter : Acts E true (World.start ct) { cl.world with reads := net.reads, writes := net.writes } :=
      hacts.tail (.enter rfl cl.world net.reads net.writes)
    have hi := henter.regInv (regInv_start hct) (hcalls.trans hn.le)
    obtain ⟨es, hes, hcases⟩ := clnttcpNbCall_answers hi (hcalls.trans_lt hn) hcall
    refine ⟨es, by rw [← hlog]; exact hes, ?_⟩
    rcases hcases with ⟨-, -, hregs | hregs⟩ | ⟨-, hregs, -⟩
    · exact Or.inl hregs
    · exact Or.inr ⟨_, _, hregs⟩
    · exact Or.inr ⟨_, _, hregs⟩

lemma nfs3ActOnRequest_lookup_cases {E : Env} {M : RequestMem} {net : Net} {as as' : Nfs3ActorState} {rq : Nat}
    {replies : List FuseReply} (hrq : (M rq).request = .lookup)
    (h : nfs3ActOnRequest E M net as rq = some (as', some replies)) :
    ∃ stat, nfs3LookupActor E M net as rq = some (as', stat) ∧
      runCallbacks M (invocations ((handleLog as').drop (handleLog as).length)) = some replies := by
  unfold nfs3ActOnRequest at h
  rw [hrq] at h
  dsimp only at h
  split at h
  · cases h
  · rename_i as₁ stat hlookup
    obtain ⟨rfl, hreplies⟩ := Prod.mk.inj (Option.some.inj h)
    exact ⟨stat, hlookup, hreplies⟩

/-- The first state of an actor in its loop: the remote directory is mounted, no NFS call is made. -/
lemma initNfs3ActorThreadState_cases {E : Env} {net : Net} {opts : MountOpts} {mntCl : Option NfsClient}
    {as : Nfs3ActorState} (h : initNfs3ActorThreadState E net opts = some (mntCl, some as)) :
    ∃ ctx, nfs3ActorMountRemotedir E net (some opts.remotedir) (nfsInit ipprotoTcp nfscCflNonblocking) =
      some (ctx, some as.rootfh) ∧ mntCl = ctx.nfsMntCl ∧
      as.ctx = (nfsInit ipprotoTcp nfscCflNonblocking).toNfsCtx := by
  unfold initNfs3ActorThreadState at h
  split at h
  · cases h
  · rename_i mntctx rest hpool
    obtain rfl : mntctx = nfsInit ipprotoTcp nfscCflNonblocking := by
      apply List.eq_of_mem_replicate (n := opts.ctxpoolsize)
      change mntctx ∈ initPerActorContextPool opts
      rw [hpool]
      exact List.mem_cons_self
    obtain ⟨⟨ctx, root⟩, hmount, heq⟩ := Option.map_eq_some_iff.mp h
    obtain ⟨rfl, has⟩ := Prod.mk.inj heq
    obtain ⟨rootfh, rfl, rfl⟩ := Option.map_eq_some_iff.mp has
    refine ⟨ctx, hmount, rfl, ?_⟩
    unfold nfs3ActorMountRemotedir at hmount
    split at hmount
    · cases hmount
    · rename_i ctx' stat hmnt
      obtain ⟨rfl, -⟩ := Prod.mk.inj (Option.some.inj hmount)
      rcases mount3Call_cases hmnt with ⟨-, rfl⟩ | ⟨cl, w', -, -, rfl⟩
      · rfl
      · rfl

/-- Each callback that has run is the one of a call, and no callback has run twice. -/
lemma invocations_subperm {E : Env} (hdec : DecodesXid E) {ct : CtData} {w : World} (hct : Created ct)
    (h : Acts E true (World.start ct) w) (hn : (regs w.log).length ≤ 2 ^ 32) :
    ((invocations w.log).map Prod.fst).Subperm ((regs w.log).map Prod.fst) := by
  have hi := h.regInv (regInv_start hct) hn
  have hran : RanInv E w.log := by
    apply h.ranInv hdec (regInv_start hct) _ hn
    exact ⟨List.Sublist.refl _, fun pre cbi xid body post heq => by simp [World.start] at heq⟩
  rw [← rans_eq]
  apply (hi.takenNodup.sublist hran.taken).subperm
  intro cbi hcbi
  obtain ⟨x, hx⟩ := hi.taken cbi (hran.taken.subset hcbi)
  exact List.mem_map.mpr ⟨_, hx, rfl⟩

/-! ## An actor and its requests -/

/-- The calls on the handle are for requests the actor has acted on, for each at most one, and what
it has sent is what the callbacks sent. -/
structure ActorRun (E : Env) (M : RequestMem) (a : RunningActor) : Prop where
  reached : ∀ cl, a.as.ctx.nfsCl = some cl → ∃ ct, Created ct ∧ Acts E true (World.start ct) cl.world
  requests : ((regs (handleLog a.as)).map fun r => r.1.info.cbPrivate).Sublist a.acted
  replies : runCallbacks M (invocations (handleLog a.as)) = some a.replies

namespace ActorRun

variable {E : Env} {M : RequestMem} {a : RunningActor}

lemma calls_le (h : ActorRun E M a) : (regs (handleLog a.as)).length ≤ a.acted.length := by
  have hle := h.requests.length_le
  rwa [List.length_map] at hle

lemma actorInv (h : ActorRun E M a) : ActorInv E a.acted.length (· ∈ a.acted) a.as :=
  ⟨h.reached, h.calls_le, fun r hr => h.requests.subset (List.mem_map.mpr ⟨r, hr, rfl⟩)⟩

lemma callbacks (h : ActorRun E M a) (hdec : DecodesXid E) (hfew : a.acted.length ≤ 2 ^ 32) :
    ((invocations (handleLog a.as)).map Prod.fst).Subperm ((regs (handleLog a.as)).map Prod.fst) := by
  have hn := h.calls_le.trans hfew
  cases hcl : a.as.ctx.nfsCl with
  | none =>
    rw [handleLog, hcl]
    exact .refl _
  | some cl =>
    obtain ⟨ct, hct, hacts⟩ := h.reached cl hcl
    have hlog : handleLog a.as = cl.world.log := by rw [handleLog, hcl]
    rw [hlog] at hn ⊢
    exact invocations_subperm hdec hct hacts hn

/-- No two callbacks were for the same request. -/
lemma called (h : ActorRun E M a) (hdec : DecodesXid E) (hfew : a.acted.length ≤ 2 ^ 32) :
    ((invocations (handleLog a.as)).map fun c => c.1.info.cbPrivate).Subperm a.acted := by
  obtain ⟨l, hperm, hl⟩ := h.callbacks hdec hfew
  have hmap := (hperm.map fun cbi => cbi.info.cbPrivate).symm
  have hsub := hl.map fun cbi => cbi.info.cbPrivate
  rw [List.map_map] at hmap hsub
  exact hmap.subperm.trans (hsub.trans h.requests).subperm

lemma act (h : ActorRun E M a) (hfew : a.acted.length < 2 ^ 32) {net : Net} {as : Nfs3ActorState} {rq : Nat}
    {replies : List FuseReply} (hrq : (M rq).request = .lookup)
    (hact : nfs3ActOnRequest E M net a.as rq = some (as, some replies)) :
    ActorRun E M { a with as := as, acted := a.acted ++ [rq], replies := a.replies ++ replies } := by
  obtain ⟨stat, hlookup, hreplies⟩ := nfs3ActOnRequest_lookup_cases hrq hact
  obtain ⟨es, hes, hregs⟩ := nfs3LookupActor_registers h.actorInv hfew hlookup
  have hinv := (nfs3LookupActor_answers (P := fun _ => True) (h.actorInv.mono (le_refl _) fun _ _ => trivial)
    hfew trivial hlookup).1
  refine ⟨hinv.reached, ?_, ?_⟩
  · change ((regs (handleLog as)).map fun r => r.1.info.cbPrivate).Sublist (a.acted ++ [rq])
    rw [hes, regs_append, List.map_append]
    refine h.requests.append ?_
    rcases hregs with hregs | ⟨serial, x, hregs⟩
    · rw [hregs]
      exact List.nil_sublist _
    · rw [hregs]
      exact List.Sublist.refl _
  · rw [hes, List.drop_left] at hreplies
    change runCallbacks M (invocations (handleLog as)) = some (a.replies ++ replies)
    rw [hes, invocations_append]
    exact runCallbacks_append h.replies hreplies

lemma mem (h : ActorRun E M a) (hdec : DecodesXid E) (hfew : a.acted.length ≤ 2 ^ 32) {M' : RequestMem}
    (hM : ∀ rq ∈ a.acted, M' rq = M rq) : ActorRun E M' a := by
  refine ⟨h.reached, h.requests, ?_⟩
  rw [← h.replies]
  apply runCallbacks_congr
  intro c hc
  exact hM _ ((h.called hdec hfew).subset (List.mem_map.mpr ⟨c, hc, rfl⟩))

lemma kept (hdec : DecodesXid E) (opts : MountOpts) : KeptByActors E opts (ActorRun E) where
  start := by
    intro M net mntCl as hinit
    obtain ⟨ctx, -, -, hctx⟩ := initNfs3ActorThreadState_cases hinit
    have hlog : handleLog as = [] := by rw [handleLog, hctx]; rfl
    refine ⟨?_, ?_, ?_⟩
    · intro cl hcl
      rw [hctx] at hcl
      cases hcl
    · rw [hlog]
      exact List.Sublist.refl _
    · rw [hlog]
      rfl
  pc := fun pc h => ⟨h.reached, h.requests, h.replies⟩
  act := fun h hfew hrq hact => h.act hfew hrq hact
  mem := fun h hfew hM => h.mem hdec hfew hM

/-- No more replies to a FUSE request than the actor has had for it. -/
lemma replies_le (h : ActorRun E M a) (hdec : DecodesXid E) (hfew : a.acted.length ≤ 2 ^ 32) (q : Nat) :
    a.replies.countP (fun r => r.fuserq = q) ≤ a.acted.countP fun rq => (M rq).fuserq = q := by
  rcases runCallbacks_spec M (invocations (handleLog a.as)) with ⟨-, hnone⟩ | ⟨-, replies, hsome, hcount⟩
  · rw [h.replies] at hnone
    cases hnone
  · rw [h.replies] at hsome
    obtain rfl := Option.some.inj hsome
    have hcountP := hcount q
    rw [← List.countP_eq_length_filter, ← List.countP_eq_length_filter] at hcountP
    have hcalled := (h.called hdec hfew).countP_le fun rq => (M rq).fuserq = q
    rw [List.countP_map] at hcalled
    rw [hcountP]
    refine le_trans (List.countP_mono_left ?_) hcalled
    intro c _ hc
    exact decide_eq_true (of_decide_eq_true hc).1

end ActorRun

/-- In every run of the daemon: each request that has left the queue is with exactly one actor, FUSE
gets no more replies for a request than it made calls with it, and an actor replies just for the
results with an error status that were given to the callbacks of its own requests. -/
theorem fuse_replied_at_most_once {E : Env} (hdec : E.xdrReplymsg = replyHeader) {opts : MountOpts}
    {head : RequestQueue → Nat} (hinj : Injective head) {mem : RequestMem} {links : Links Nat}
    {es : List DaemonEvent} {d : Daemon} (hrun : (nfscdInit head mem links).run E opts head es = some d)
    (hfew : d.queues.issued.length ≤ 2 ^ 32) :
    d.taken.Nodup ∧ d.taken.Perm (d.queues.returned .md) ∧
    (∀ q, d.replies.countP (fun r => r.fuserq = q) ≤ d.queues.issued.countP fun rq => (d.mem rq).fuserq = q) ∧
    ∀ a, .running a ∈ d.threads → ∀ r, r ∈ a.replies ↔
      ∃ c ∈ invocations (handleLog a.as), c.1.info.cbPrivate ∈ a.acted ∧ FailedFor d.mem c r := by
  have hdec' := replyHeader_decodes hdec
  have hinv := ((DaemonInv.init hinj mem links).run hinj hrun).1
  have hall := (ActorRun.kept hdec' opts).run hinj (DaemonInv.init hinj mem links)
    (fun a ha => nomatch ha) hrun hfew
  have hacted : ∀ a, .running a ∈ d.threads → a.acted.length ≤ 2 ^ 32 := fun a ha =>
    ((acted_sublist a).length_le.trans (hinv.taken_length_le ha)).trans hfew
  refine ⟨hinv.taken_nodup, hinv.taken, ?_, ?_⟩
  · intro q
    refine le_trans ?_ (hinv.taken_subperm.countP_le _)
    unfold Daemon.replies Daemon.taken
    rw [List.countP_flatMap, List.countP_flatMap]
    apply List.sum_le_sum
    intro t ht
    cases t with
    | starting => exact le_refl _
    | exited => exact le_refl _
    | running a =>
      exact ((hall a ht).replies_le hdec' (hacted a ht) q).trans ((acted_sublist a).countP_le)
  · intro a ha r
    rw [mem_runCallbacks (hall a ha).replies]
    constructor
    · rintro ⟨c, hc, hfailed⟩
      exact ⟨c, hc, ((hall a ha).called hdec' (hacted a ha)).subset (List.mem_map.mpr ⟨c, hc, rfl⟩), hfailed⟩
    · rintro ⟨c, hc, -, hfailed⟩
      exact ⟨c, hc, hfailed⟩

/-! ## Two actors and two requests -/

lemma slash_noNul : 0 ∉ ([0x2f] : Bytes) := by decide

lemma slash_short : ([0x2f] : Bytes).length < 2 ^ 32 := by decide

lemma letter_noNul : 0 ∉ ([97] : Bytes) := by decide

lemma letter_short : ([97] : Bytes).length < 2 ^ 32 := by decide

def rootOpts : MountOpts := ⟨⟨[0x2f], slash_noNul, slash_short⟩, 1⟩

def fileName : CString := ⟨[97], letter_noNul, letter_short⟩

/-- The first call on a connection is sent and answered with these results. -/
def repliedWith (sent : Nat) (results : Bytes) : Net :=
  ⟨some authnoneConnection, [.data (RecordMarking.encodeRecords [[firstReply results]])], [.wrote sent]⟩

/-- `MNT3_OK` with a handle of four bytes. -/
def mountedRoot : Net := repliedWith 52 [0, 0, 0, 0, 0, 0, 0, 4, 1, 2, 3, 4, 0, 0, 0, 0]

def noEntry : Net := repliedWith 60 noentResult

def emptyMem : RequestMem := fun _ => ⟨0, .forget, none⟩

/-- Both actors wait for a request. The second one gets the first, and is the last to act. -/
def crossedEvents : List DaemonEvent :=
  [.startup, .startup, .actor 0 mountedRoot, .actor 1 mountedRoot, .actor 0 unreachable, .actor 1 unreachable,
    .lookup 5 77 fileName, .enqueue 2, .enqueue 2, .enqueue 2, .enqueue 2, .actor 1 unreachable,
    .actor 1 unreachable, .lookup 6 78 fileName, .enqueue 3, .enqueue 3, .enqueue 3, .enqueue 3,
    .actor 0 unreachable, .actor 0 unreachable, .actor 0 noEntry, .actor 1 noEntry]

lemma twoHeads_injective : Injective twoHeads := by
  intro q q' h
  cases q <;> cases q' <;> first | rfl | cases h

theorem fuse_replied_at_most_once_crossed :
    ∃ d, (nfscdInit twoHeads emptyMem ⟨fun _ => none, fun _ => none⟩).run replyEnv rootOpts twoHeads crossedEvents =
        some d ∧
      d.replies = [⟨78, .enoent⟩, ⟨77, .enoent⟩] ∧ d.taken.Nodup ∧ d.taken.Perm [5, 6] := by
  have hrun : ((nfscdInit twoHeads emptyMem ⟨fun _ => none, fun _ => none⟩).run replyEnv rootOpts twoHeads
      crossedEvents).map (fun d => decide (d.replies = [⟨78, .enoent⟩, ⟨77, .enoent⟩] ∧
        d.queues.returned .md = [5, 6] ∧ d.queues.issued.length ≤ 2 ^ 32)) = some true := by
    decide +kernel
  obtain ⟨d, hd, hfacts⟩ := Option.map_eq_some_iff.mp hrun
  obtain ⟨hreplies, hret, hfew⟩ := of_decide_eq_true hfacts
  obtain ⟨hnodup, hperm, -⟩ := fuse_replied_at_most_once rfl twoHeads_injective hd hfew
  rw [hret] at hperm
  exact ⟨d, hd, hreplies, hnodup, hperm⟩

end UnfsClient.Proofs
