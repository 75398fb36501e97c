import UnfsClient.Nfs3Actor
import UnfsClient.Proofs.AnsweredCalls
import UnfsClient.Proofs.ReplyStatus

/-!
# Lookup requests

From the request of FUSE through `nfs3_lookup`, the dispatch of the reply and `nfs3_lookup_cb` to
the answer for FUSE. There is exactly one answer if the server's record is a reply to the call
whose result decodes and has an error status, and not otherwise.
-/

namespace UnfsClient.Proofs

open Lib RecordMarking

/-! ## The callbacks -/

/-- What `nfs3_lookup_cb` decodes. -/
def lookupResult (body : Bytes) : Option LOOKUP3res := xdrToLOOKUP3res (some body) (cInt body.length)

def resultFailed : Option LOOKUP3res → Bool
  | none => false
  | some res => !statusOk res.disc

/-- The body is a result with an error status. -/
def lookupFailed (body : Bytes) : Bool := resultFailed (lookupResult body)

lemma resultFailed_iff (r : Option LOOKUP3res) :
    resultFailed r = true ↔ ∃ res, r = some res ∧ statusOk res.disc = false := by
  cases r with
  | none => simp [resultFailed]
  | some res => simp [resultFailed]

/-- No assertion has failed and there is exactly one reply for the request. -/
def RepliedOnce (M : RequestMem) (rq : Nat) (out : Option (List FuseReply)) : Prop :=
  ∃ replies, out = some replies ∧ (replies.filter fun r => r.fuserq = (M rq).fuserq).length = 1

lemma replyToLookup_eq (fuserq : Nat) (r : Option LOOKUP3res) :
    (r = none ∧ replyToLookup fuserq r = none) ∨
    ∃ res, r = some res ∧ replyToLookup fuserq r =
      some (if resultFailed r then [⟨fuserq, nfsstat3ToErrno res.disc⟩] else []) := by
  cases r with
  | none => exact Or.inl ⟨rfl, rfl⟩
  | some res =>
    refine Or.inr ⟨res, rfl, ?_⟩
    by_cases hstat : statusOk res.disc = true <;> simp [replyToLookup, resultFailed, hstat]

/-- The callback has a result to look at and sends a reply if that is a failure. -/
lemma nfs3LookupCb_eq (M : RequestMem) (msg : Bytes) (priv : Nat) :
    (lookupResult msg = none ∧ nfs3LookupCb M msg priv = none) ∨
    ∃ res, lookupResult msg = some res ∧ nfs3LookupCb M msg priv =
      some (if lookupFailed msg then [⟨(M priv).fuserq, nfsstat3ToErrno res.disc⟩] else []) :=
  replyToLookup_eq (M priv).fuserq (lookupResult msg)

lemma runCallbacks_cons (M : RequestMem) (a : Cbi × Bytes) (A : List (Cbi × Bytes)) :
    runCallbacks M (a :: A) =
      (nfs3LookupCb M a.2 a.1.info.cbPrivate).bind fun replies => (runCallbacks M A).map (replies ++ ·) := by
  unfold runCallbacks
  rw [List.mapM_cons]
  generalize nfs3LookupCb M a.2 a.1.info.cbPrivate = first
  generalize (A.mapM fun a => nfs3LookupCb M a.2 a.1.info.cbPrivate) = rest
  cases first with
  | none => rfl
  | some replies =>
    cases rest with
    | none => rfl
    | some l => rfl

/-- One failed assertion stops everything; else each failed result sends its reply. -/
lemma runCallbacks_spec (M : RequestMem) (A : List (Cbi × Bytes)) :
    ((∃ a ∈ A, lookupResult a.2 = none) ∧ runCallbacks M A = none) ∨
    ((∀ a ∈ A, lookupResult a.2 ≠ none) ∧ ∃ replies, runCallbacks M A = some replies ∧
      ∀ q, (replies.filter fun r => r.fuserq = q).length =
        (A.filter fun a => (M a.1.info.cbPrivate).fuserq = q ∧ lookupFailed a.2 = true).length) := by
  induction A with
  | nil => exact Or.inr ⟨by simp, [], rfl, fun _ => rfl⟩
  | cons a A ih =>
    obtain ⟨cbi, msg⟩ := a
    rcases nfs3LookupCb_eq M msg cbi.info.cbPrivate with ⟨hnone, hcb⟩ | ⟨res, hres, hcb⟩
    · refine Or.inl ⟨⟨_, List.mem_cons_self, hnone⟩, ?_⟩
      rw [runCallbacks_cons, hcb]
      rfl
    rcases ih with ⟨⟨a, ha, hnone⟩, hrest⟩ | ⟨hall, replies, hrest, hcount⟩
    · refine Or.inl ⟨⟨a, List.mem_cons_of_mem _ ha, hnone⟩, ?_⟩
      rw [runCallbacks_cons, hcb, hrest]
      rfl
    · have hrun := runCallbacks_cons M (cbi, msg) A
      rw [hcb, hrest] at hrun
      refine Or.inr ⟨?_, _, hrun, fun q => ?_⟩
      · intro a ha
        rcases List.mem_cons.mp ha with rfl | ha
        · rw [hres]
          exact Option.some_ne_none _
        · exact hall a ha
      · rw [List.filter_append, List.length_append, hcount, List.filter_cons]
        cases hfail : lookupFailed msg with
        | false => simp
        | true => by_cases hq : (M cbi.info.cbPrivate).fuserq = q <;> simp [hq, Nat.add_comm]

/-- The callback of `own` is the only one for its request. -/
lemma runCallbacks_repliedOnce {M : RequestMem} {rq : Nat} {A : List (Cbi × Bytes)} {own : Cbi}
    (hnd : (A.map Prod.fst).Nodup)
    (hown : ∀ a ∈ A, (M a.1.info.cbPrivate).fuserq = (M rq).fuserq ↔ a.1 = own) :
    RepliedOnce M rq (runCallbacks M A) ↔
      (∀ a ∈ A, lookupResult a.2 ≠ none) ∧ ∃ body, (own, body) ∈ A ∧ lookupFailed body = true := by
  have hfilter : (A.filter fun a => (M a.1.info.cbPrivate).fuserq = (M rq).fuserq ∧ lookupFailed a.2 = true) =
      A.filter fun a => a.1 = own ∧ lookupFailed a.2 = true := by
    apply List.filter_congr
    intro a ha
    simp only [hown a ha]
  have hone : (A.filter fun a => a.1 = own ∧ lookupFailed a.2 = true).length = 1 ↔
      ∃ body, (own, body) ∈ A ∧ lookupFailed body = true := by
    constructor
    · intro hlen
      obtain ⟨⟨c, body⟩, heq⟩ := List.length_eq_one_iff.mp hlen
      have hmem : (c, body) ∈ A.filter fun a => a.1 = own ∧ lookupFailed a.2 = true := by
        rw [heq]
        exact List.mem_singleton_self _
      obtain ⟨hin, hp⟩ := List.mem_filter.mp hmem
      obtain ⟨rfl, hfail⟩ := of_decide_eq_true hp
      exact ⟨body, hin, hfail⟩
    · rintro ⟨body, hin, hfail⟩
      have hmem : (own, body) ∈ A.filter fun a => a.1 = own ∧ lookupFailed a.2 = true :=
        List.mem_filter.mpr ⟨hin, by simpa using hfail⟩
      have hsub : (A.filter fun a => a.1 = own ∧ lookupFailed a.2 = true) ⊆ [(own, body)] := by
        intro a ha
        obtain ⟨hain, hp⟩ := List.mem_filter.mp ha
        exact List.mem_singleton.mpr (List.inj_on_of_nodup_map hnd hain hin (of_decide_eq_true hp).1)
      have hle := (((hnd.of_map _).filter _).subperm hsub).length_le
      have hpos := List.length_pos_of_mem hmem
      simp only [List.length_singleton] at hle
      omega
  unfold RepliedOnce
  rcases runCallbacks_spec M A with ⟨⟨a, ha, hnone⟩, hrun⟩ | ⟨hall, replies, hrun, hcount⟩
  · rw [hrun]
    constructor
    · rintro ⟨replies, hsome, -⟩
      cases hsome
    · rintro ⟨hall, -⟩
      exact absurd hnone (hall a ha)
  · rw [hrun]
    constructor
    · rintro ⟨replies', hsome, hlen⟩
      obtain rfl := Option.some.inj hsome
      rw [hcount, hfilter] at hlen
      exact ⟨hall, hone.mp hlen⟩
    · rintro ⟨-, hex⟩
      refine ⟨replies, rfl, ?_⟩
      rw [hcount, hfilter]
      exact hone.mpr hex

/-! ## The actor -/

/-- The handle of an actor that has made at most `n` calls, for requests of which `P` holds. -/
structure ActorInv (E : Env) (n : Nat) (P : Nat → Prop) (as : Nfs3ActorState) : Prop where
  reached : ∀ cl, as.ctx.nfsCl = some cl → ∃ ct, Created ct ∧ Acts E true (World.start ct) cl.world
  calls : (regs (handleLog as)).length ≤ n
  callbacks : ∀ r ∈ regs (handleLog as), P r.1.info.cbPrivate

lemma ActorInv.mono {E : Env} {n n' : Nat} {P P' : Nat → Prop} {as : Nfs3ActorState} (h : ActorInv E n P as)
    (hn : n ≤ n') (hP : ∀ p, P p → P' p) : ActorInv E n' P' as :=
  ⟨h.reached, h.calls.trans hn, fun r hr => hP _ (h.callbacks r hr)⟩

lemma nfsCreate_created (ctx : NfsCtx) (c : Connection) : Created (nfsCreate ctx c) := by
  unfold nfsCreate
  split
  · exact .nonblocking ..
  · exact .blocking ..

/-- The handle a call is made on has the history of the actor's handle. -/
lemma ActorInv.handle {E : Env} {n : Nat} {P : Nat → Prop} {as : Nfs3ActorState} (h : ActorInv E n P as) {net : Net}
    {cl : NfsClient} (hw : nfsHandle net as.ctx = some cl) :
    cl.world.log = handleLog as ∧ ∃ ct, Created ct ∧ Acts E true (World.start ct) cl.world := by
  unfold nfsHandle at hw
  cases hcl : as.ctx.nfsCl with
  | some cl₀ =>
    rw [hcl] at hw
    obtain rfl := Option.some.inj hw
    exact ⟨by simp [handleLog, hcl], h.reached _ hcl⟩
  | none =>
    rw [hcl] at hw
    obtain ⟨c, -, rfl⟩ := Option.map_eq_some_iff.mp hw
    exact ⟨by simp [handleLog, hcl, World.start], _, nfsCreate_created as.ctx c, .refl⟩

/-- Either the call is not made, or it is made on the handle. -/
lemma nfs3LookupActor_cases {E : Env} {M : RequestMem} {net : Net} {as as' : Nfs3ActorState} {rq : Nat}
    {stat : ClntStat} (h : nfs3LookupActor E M net as rq = some (as', stat)) :
    (stat = .systemError ∧ as' = as) ∨
    ∃ cl w' inargs, nfsHandle net as.ctx = some cl ∧
      clnttcpNbCall E noReentry ⟨nfs3LookupProc, inargs⟩ ⟨some nfs3LookupCbAddr, rq⟩ rpcBlockingWait.toUInt64
        { cl.world with reads := net.reads, writes := net.writes } = some (w', stat) ∧
      as' = { as with ctx := { as.ctx with nfsCl := some { cl with world := w' } } } := by
  obtain ⟨⟨ctx', stat'⟩, hcall, heq⟩ := Option.map_eq_some_iff.mp h
  obtain ⟨rfl, rfl⟩ := Prod.mk.inj heq
  cases nfs3Call_cases hcall with
  | inl hrefused =>
    obtain ⟨rfl, rfl⟩ := hrefused
    exact Or.inl ⟨rfl, rfl⟩
  | inr hmade =>
    obtain ⟨cl, w', hcl, hnb, rfl⟩ := hmade
    exact Or.inr ⟨cl, w', _, hcl, hnb, rfl⟩

/-- A call that has been sent for `rq`, as `own`: what it is answered with. -/
structure LookupSent (E : Env) (rq : Nat) (own : Cbi) (x : UInt32) (log es : List Event) : Prop where
  info : own.info = ⟨some nfs3LookupCbAddr, rq⟩
  registered : regs es = [(own, x)]
  keys : ((live log ++ [(leBytes x, own)]).map Prod.fst).Nodup
  cbis : ((live log ++ [(leBytes x, own)]).map Prod.snd).Nodup
  answers : invocations es = answersOf E.xdrReplymsg (live log ++ [(leBytes x, own)]) (messages es)

lemma nfs3LookupActor_answers {E : Env} {M : RequestMem} {n : Nat} {P : Nat → Prop} {net : Net}
    {as as' : Nfs3ActorState} {rq : Nat} {stat : ClntStat} (hinv : ActorInv E n P as) (hn : n < 2 ^ 32) (hrq : P rq)
    (h : nfs3LookupActor E M net as rq = some (as', stat)) :
    ActorInv E (n + 1) P as' ∧ ∃ es, handleLog as' = handleLog as ++ es ∧
      ((stat ≠ .success ∧ invocations es = []) ∨
        stat = .success ∧ ∃ own x, LookupSent E rq own x (handleLog as) es) := by
  rcases nfs3LookupActor_cases h with ⟨rfl, rfl⟩ | ⟨cl, w', inargs, hcl, hcall, rfl⟩
  · exact ⟨hinv.mono (Nat.le_succ n) fun _ hp => hp, [], (List.append_nil _).symm, Or.inl ⟨by decide, rfl⟩⟩
  obtain ⟨hlog, ct, hct, hacts⟩ := hinv.handle hcl
  have hcalls : (regs cl.world.log).length ≤ n := by rw [hlog]; exact hinv.calls
  have henter : Acts E true (World.start ct) { cl.world with reads := net.reads, writes := net.writes } :=
    hacts.tail (.enter rfl cl.world net.reads net.writes)
  have hi : RegInv ct.ctXid { cl.world with reads := net.reads, writes := net.writes } :=
    henter.regInv (regInv_start hct) (hcalls.trans hn.le)
  obtain ⟨es, hes, hcases⟩ := clnttcpNbCall_answers hi (hcalls.trans_lt hn) hcall
  have hes' : w'.log = handleLog as ++ es := by rw [← hlog]; exact hes
  have hone : regs es = [] ∨
      regs es = [(⟨cl.world.serial, ⟨some nfs3LookupCbAddr, rq⟩⟩, callXid ct.ctXid (regs cl.world.log).length)] := by
    rcases hcases with ⟨-, -, hregs⟩ | ⟨-, hregs, -⟩
    · exact hregs
    · exact Or.inr hregs
  refine ⟨⟨?_, ?_, ?_⟩, es, hes', ?_⟩
  · rintro v hv
    obtain rfl := Option.some.inj hv
    exact ⟨ct, hct, henter.trans (clnttcpNbCall_acts (actsOnly_noReentry E true) hcall)⟩
  · change (regs w'.log).length ≤ n + 1
    rw [hes', regs_append, List.length_append]
    have hle := hinv.calls
    rcases hone with hregs | hregs <;> rw [hregs] <;> simp only [List.length_nil, List.length_singleton] <;> omega
  · intro r hr
    change r ∈ regs w'.log at hr
    rw [hes', regs_append] at hr
    rcases List.mem_append.mp hr with hr | hr
    · exact hinv.callbacks r hr
    · rcases hone with hregs | hregs
      · rw [hregs] at hr
        cases hr
      · rw [hregs] at hr
        obtain rfl := List.mem_singleton.mp hr
        exact hrq
  · rcases hcases with ⟨hstat, hno, -⟩ | ⟨rfl, hregs, hans⟩
    · exact Or.inl ⟨hstat, hno⟩
    · obtain ⟨hir, hlive⟩ := hi.register (hcalls.trans_lt hn) ⟨some nfs3LookupCbAddr, rq⟩
      have hlog' : live cl.world.log = live (handleLog as) := by rw [hlog]
      refine Or.inr ⟨rfl, _, _, rfl, hregs, ?_, ?_, ?_⟩
      · rw [← hlog', ← hlive]
        exact hir.table.keys_nodup
      · rw [← hlog', ← hlive]
        exact hir.live_cbis_nodup
      · rw [← hlog']
        exact hans

lemma nfs3ActOnRequest_lookup {E : Env} {M : RequestMem} {net : Net} {as as' : Nfs3ActorState} {rq : Nat}
    {stat : ClntStat} (hrq : (M rq).request = .lookup) (h : nfs3LookupActor E M net as rq = some (as', stat)) :
    nfs3ActOnRequest E M net as rq =
      some (as', runCallbacks M (invocations ((handleLog as').drop (handleLog as).length))) := by
  unfold nfs3ActOnRequest
  rw [hrq]
  dsimp only
  rw [h]

/-- Every request leaves the actor with a handle of its own calls. -/
lemma nfs3ActOnRequest_inv {E : Env} {M : RequestMem} {n : Nat} {P : Nat → Prop} {net : Net}
    {as as' : Nfs3ActorState} {rq : Nat} {out : Option (List FuseReply)} (hinv : ActorInv E n P as) (hn : n < 2 ^ 32)
    (hrq : P rq) (h : nfs3ActOnRequest E M net as rq = some (as', out)) : ActorInv E (n + 1) P as' := by
  unfold nfs3ActOnRequest at h
  split at h
  · split at h
    · cases h
    · rename_i v stat hlookup
      obtain ⟨rfl, -⟩ := Prod.mk.inj (Option.some.inj h)
      exact (nfs3LookupActor_answers hinv hn hrq hlookup).1
  · obtain ⟨rfl, -⟩ := Prod.mk.inj (Option.some.inj h)
    exact hinv.mono (Nat.le_succ n) fun _ hp => hp

lemma runRequests_inv {E : Env} {M : RequestMem} {n : Nat} {P : Nat → Prop} {reqs : List (Nat × Net)}
    {as as' : Nfs3ActorState} (hinv : ActorInv E n P as) (hn : n + reqs.length ≤ 2 ^ 32)
    (hP : ∀ r ∈ reqs, P r.1) (h : runRequests E M reqs as = some as') : ActorInv E (n + reqs.length) P as' := by
  induction reqs generalizing as n with
  | nil =>
    obtain rfl := Option.some.inj h
    exact hinv
  | cons r reqs ih =>
    obtain ⟨rq, net⟩ := r
    simp only [List.length_cons] at hn
    unfold runRequests at h
    split at h
    · rename_i v replies hact
      have hv := nfs3ActOnRequest_inv hinv (by omega) (hP _ List.mem_cons_self) hact
      have := ih hv (by omega) (fun r hr => hP r (List.mem_cons_of_mem _ hr)) h
      rwa [Nat.add_right_comm, Nat.add_assoc] at this
    · cases h

/-- What a request that has been sent is answered with: exactly one reply if its callback is among
those that run, on a result with an error status, and no callback fails to decode its result. -/
lemma LookupSent.repliedOnce_iff {E : Env} {M : RequestMem} {rq : Nat} {own : Cbi} {x : UInt32} {log es : List Event}
    (h : LookupSent E rq own x log es)
    (hfresh : ∀ r ∈ regs log, (M r.1.info.cbPrivate).fuserq ≠ (M rq).fuserq) :
    RepliedOnce M rq (runCallbacks M (invocations es)) ↔
      (∀ a ∈ answersOf E.xdrReplymsg (live log ++ [(leBytes x, own)]) (messages es), lookupResult a.2 ≠ none) ∧
      ∃ body, (own, body) ∈ answersOf E.xdrReplymsg (live log ++ [(leBytes x, own)]) (messages es) ∧
        lookupFailed body = true := by
  rw [h.answers]
  apply runCallbacks_repliedOnce (nodup_answersOf h.cbis)
  intro a ha
  obtain ⟨-, -, xid, -, hmem⟩ := mem_answersOf ha
  rcases List.mem_append.mp hmem with hmem | hmem
  · obtain ⟨y, hy, -, -⟩ := RegInv.mem_live hmem
    have hne := hfresh _ hy
    refine ⟨fun heq => absurd heq hne, ?_⟩
    rintro rfl
    rw [h.info] at hne
    exact absurd rfl hne
  · obtain ⟨-, rfl⟩ := Prod.mk.inj (List.mem_singleton.mp hmem)
    rw [h.info]
    exact ⟨fun _ => rfl, fun _ => rfl⟩

/-- The callback runs for a single record if and only if that is a reply to its call. -/
lemma LookupSent.mem_answersOf_iff {E : Env} (hdec : E.xdrReplymsg = replyHeader) {rq : Nat} {own : Cbi} {x : UInt32}
    {log es : List Event} (h : LookupSent E rq own x log es) {rec body : Bytes} :
    (own, body) ∈ answersOf E.xdrReplymsg (live log ++ [(leBytes x, own)]) [rec] ↔
      replyHeader rec = some (x.toUInt64, body) := by
  have hown : (leBytes x, own) ∈ live log ++ [(leBytes x, own)] := by simp
  constructor
  · intro hmem
    obtain ⟨msg, hmsg, xid, hxid, hin⟩ := mem_answersOf hmem
    obtain rfl := List.mem_singleton.mp hmsg
    rw [hdec] at hxid
    obtain ⟨y, rfl⟩ := replyHeader_xid hxid
    have hkey := congrArg Prod.fst (List.inj_on_of_nodup_map h.cbis hin hown rfl)
    simp only [UInt32.toUInt32_toUInt64] at hkey
    rw [hxid, leBytes_injective hkey]
  · intro hrec
    have hcb : own.info.callback ≠ none := by
      rw [h.info]
      exact Option.some_ne_none _
    have hrec' : E.xdrReplymsg rec = some (x.toUInt64, body) := by rw [hdec, hrec]
    have hown' : (leBytes x.toUInt64.toUInt32, own) ∈ live log ++ [(leBytes x, own)] := by
      rw [UInt32.toUInt32_toUInt64]
      exact hown
    rw [answersOf_known hrec' h.keys hown', if_neg hcb]
    exact List.mem_cons_self

/-- An actor that has served any requests before is given a lookup. If the call is not sent there is
no reply. If it is, and `recs` are the records processed before it returns, there is exactly one
reply if and only if the call is answered with an error status and nothing fails to decode; for a
single record that means that it is a reply to the call whose body is a result with an error
status. -/
theorem lookup_replied_iff {E : Env} (hdec : E.xdrReplymsg = replyHeader) {M : RequestMem}
    {as₀ as as' : Nfs3ActorState} (h₀ : as₀.ctx.nfsCl = none) {earlier : List (Nat × Net)}
    (hrun : runRequests E M earlier as₀ = some as) (hfew : earlier.length < 2 ^ 32) {rq : Nat}
    (hrq : (M rq).request = .lookup) (hfresh : ∀ r ∈ earlier, (M r.1).fuserq ≠ (M rq).fuserq) {net : Net}
    {stat : ClntStat} {out : Option (List FuseReply)}
    (hlookup : nfs3LookupActor E M net as rq = some (as', stat))
    (hact : nfs3ActOnRequest E M net as rq = some (as', out)) :
    (stat ≠ .success → out = some [] ∧ ¬RepliedOnce M rq out) ∧
    (stat = .success → ∃ own x, (regs (handleLog as')).getLast? = some (own, x) ∧ own.info.cbPrivate = rq ∧
      (∀ recs, messages (handleLog as') = messages (handleLog as) ++ recs →
        (RepliedOnce M rq out ↔
          (∀ a ∈ answersOf replyHeader (live (handleLog as) ++ [(leBytes x, own)]) recs, lookupResult a.2 ≠ none) ∧
          ∃ body, (own, body) ∈ answersOf replyHeader (live (handleLog as) ++ [(leBytes x, own)]) recs ∧
            lookupFailed body = true)) ∧
      ∀ rec, messages (handleLog as') = messages (handleLog as) ++ [rec] →
        (RepliedOnce M rq out ↔ ∃ body res, replyHeader rec = some (x.toUInt64, body) ∧
          xdrToLOOKUP3res (some body) (cInt body.length) = some res ∧ statusOk res.disc = false)) := by
  have hstart : ActorInv E 0 (fun p => (M p).fuserq ≠ (M rq).fuserq) as₀ := by
    have hlog : handleLog as₀ = [] := by simp [handleLog, h₀]
    refine ⟨fun w hw => ?_, ?_, ?_⟩
    · rw [h₀] at hw
      cases hw
    · rw [hlog]
      exact le_refl _
    · rw [hlog]
      intro r hr
      cases hr
  have hinv := runRequests_inv hstart (by omega) hfresh hrun
  obtain ⟨-, es, hes, hcases⟩ := nfs3LookupActor_answers (P := fun _ => True)
    (hinv.mono (le_refl _) fun _ _ => trivial) (by omega) trivial hlookup
  have hout : out = runCallbacks M (invocations es) := by
    rw [nfs3ActOnRequest_lookup hrq hlookup] at hact
    rw [← (Prod.mk.inj (Option.some.inj hact)).2, hes, List.drop_left]
  rcases hcases with ⟨hstat, hno⟩ | ⟨hstat, own, x, hsent⟩
  · refine ⟨fun _ => ?_, fun hok => absurd hok hstat⟩
    rw [hout, hno]
    refine ⟨rfl, ?_⟩
    rintro ⟨replies, hsome, hlen⟩
    obtain rfl := Option.some.inj hsome
    cases hlen
  · refine ⟨fun hne => absurd hstat hne, fun _ => ⟨own, x, ?_, ?_, ?_, ?_⟩⟩
    · rw [hes, regs_append, hsent.registered]
      exact List.getLast?_concat
    · rw [hsent.info]
    · intro recs hrecs
      rw [hes, messages_append] at hrecs
      have hiff := hsent.repliedOnce_iff hinv.callbacks
      rwa [List.append_cancel_left hrecs, ← hout, hdec] at hiff
    · intro rec hrec
      rw [hes, messages_append] at hrec
      have hiff := hsent.repliedOnce_iff hinv.callbacks
      rw [List.append_cancel_left hrec, ← hout] at hiff
      rw [hiff]
      constructor
      · rintro ⟨-, body, hmem, hfail⟩
        obtain ⟨res, hres, hstatus⟩ := (resultFailed_iff _).mp hfail
        exact ⟨body, res, (hsent.mem_answersOf_iff hdec).mp hmem, hres, hstatus⟩
      · rintro ⟨body, res, hreply, hres, hstatus⟩
        refine ⟨?_, body, (hsent.mem_answersOf_iff hdec).mpr hreply, (resultFailed_iff _).mpr ⟨res, hres, hstatus⟩⟩
        -- every callback that runs is given the body of this record
        intro a ha
        obtain ⟨msg, hmsg, xid, hxid, -⟩ := mem_answersOf ha
        obtain rfl := List.mem_singleton.mp hmsg
        rw [hdec, hreply] at hxid
        obtain ⟨-, hbody⟩ := Prod.mk.inj (Option.some.inj hxid)
        rw [← hbody, lookupResult, hres]
        exact Option.some_ne_none _

/-! ## Requests for the file `a` -/

def lookups : RequestMem := fun rq => ⟨rq, .lookup, some ⟨[97], by decide, by decide⟩⟩

def freshActor : Nfs3ActorState := ⟨⟨ipprotoTcp, 0, 0, 0, none⟩, ⟨[1], by decide⟩⟩

/-- A connection without credentials, over memory that was zeroed. -/
def authnoneConnection : Connection := ⟨0x10, authnone, ⟨[], 0, 0, none, 0, 0, 0, fun _ => 0, false⟩, 0⟩

/-- A server that accepts the connection and the call and answers with this record. -/
def answeredBy (rec : Bytes) : Net := ⟨some authnoneConnection, [.data (encodeRecords [[rec]])], [.wrote 60]⟩

def unreachable : Net := ⟨none, [], []⟩

/-- A reply to the first call. -/
def firstReply (results : Bytes) : Bytes := acceptedReply 0xffffff0f results

/-- `NFS3ERR_NOENT` without attributes. -/
def noentResult : Bytes := [0, 0, 0, 2, 0, 0, 0, 0]

/-- `NFS3_OK` with an empty handle and without attributes. -/
def okResult : Bytes := [0, 0, 0, 0, 0, 0, 0, 0, 0, 0, 0, 0, 0, 0, 0, 0]

theorem lookup_replied_iff_noent :
    ∃ as' out, nfs3ActOnRequest replyEnv lookups (answeredBy (firstReply noentResult)) freshActor 0 =
        some (as', out) ∧
      messages (handleLog as') = [firstReply noentResult] ∧ RepliedOnce lookups 0 out := by
  have hrun : (nfs3LookupActor replyEnv lookups (answeredBy (firstReply noentResult)) freshActor 0).map
      (fun r => (r.2, messages (handleLog r.1), (regs (handleLog r.1)).getLast?.map Prod.snd)) =
      some (.success, [firstReply noentResult], some 0xffffff0f) := by decide +kernel
  obtain ⟨⟨as', stat⟩, hlookup, hres⟩ := Option.map_eq_some_iff.mp hrun
  obtain ⟨rfl, hrest⟩ := Prod.mk.inj hres
  obtain ⟨hmsgs, hxid⟩ := Prod.mk.inj hrest
  have hact := nfs3ActOnRequest_lookup (M := lookups) rfl hlookup
  obtain ⟨own, x, hreg, -, -, hone⟩ :=
    (lookup_replied_iff rfl rfl (show runRequests replyEnv lookups [] freshActor = some freshActor from rfl)
      (by decide) rfl (by simp) hlookup hact).2 rfl
  have hx : x = 0xffffff0f := by
    rw [hreg] at hxid
    exact Option.some.inj hxid
  subst hx
  obtain ⟨res, hres, hstatus⟩ := (resultFailed_iff (lookupResult noentResult)).mp (by decide +kernel)
  have hreply : replyHeader (firstReply noentResult) = some ((0xffffff0f : UInt32).toUInt64, noentResult) := by
    decide +kernel
  refine ⟨as', _, hact, hmsgs, (hone (firstReply noentResult) ?_).mpr ⟨noentResult, res, hreply, hres, hstatus⟩⟩
  rw [hmsgs]
  rfl

/-- A lookup that succeeds gets no reply, one whose result is cut off fails an assertion, and one
that cannot be sent gets no reply. -/
theorem lookup_left_unanswered :
    (nfs3ActOnRequest replyEnv lookups (answeredBy (firstReply okResult)) freshActor 0).map
        (fun r => (messages (handleLog r.1), r.2)) = some ([firstReply okResult], some []) ∧
    (nfs3ActOnRequest replyEnv lookups (answeredBy (firstReply [])) freshActor 0).map
        (fun r => (messages (handleLog r.1), r.2)) = some ([firstReply []], none) ∧
    (nfs3LookupActor replyEnv lookups unreachable freshActor 0).map Prod.snd = some .systemError ∧
    (nfs3ActOnRequest replyEnv lookups unreachable freshActor 0).map Prod.snd = some (some []) ∧
    ¬RepliedOnce lookups 0 (some []) ∧ ¬RepliedOnce lookups 0 none := by
  refine ⟨by decide +kernel, by decide +kernel, by decide +kernel, by decide +kernel, ?_, ?_⟩
  · rintro ⟨replies, hsome, hlen⟩
    obtain rfl := Option.some.inj hsome
    cases hlen
  · rintro ⟨replies, hsome, -⟩
    cases hsome

end UnfsClient.Proofs
