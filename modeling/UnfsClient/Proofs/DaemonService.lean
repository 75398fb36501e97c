import UnfsClient.Proofs.DaemonReplies

/-!
# Errors of the server

The daemon between FUSE and a server that runs the two programs. The handle an actor looks names up
in is the one the mount daemon gave for the remote directory, and the error a request is answered with
is the error the server has for that handle and the name of that very request.
-/

namespace UnfsClient.Proofs

open Lib Function

/-! ## Calls that are issued -/

/-- Reading and dispatching issue no calls. -/
lemma Act.issued_eq {E : Env} {w w' : World} (h : Act E false w w') : issued w'.log = issued w.log := by
  have hnote : ∀ es, (∀ e ∈ es, issuedOf? e = none) → issued (w.log ++ es) = issued w.log := by
    intro es hes
    have hnil : issued es = [] := List.filterMap_eq_nil_iff.mpr hes
    rw [issued_append, hnil, List.append_nil]
  cases h with
  | tx h =>
    obtain ⟨es, hes, htr⟩ := h.txOnly.log
    rw [hes]
    exact hnote es fun e he => issuedOf_ofTransmit (htr e he)
  | @parsed _ e he =>
    apply hnote [e]
    intro e' he'
    rw [List.mem_singleton.mp he']
    exact issuedOf_ofParser he
  | @read _ r rs hr =>
    apply hnote [.read w.depth r]
    simp [issuedOf?]
  | take => exact hnote _ (by simp [issuedOf?])
  | @deliver _ msg xid body t cbi hdec htake hcb =>
    have hlog : ((dropEntry (countReceived w msg) t cbi).note (.ran cbi xid body)).log =
        w.log ++ [.taken cbi, .ran cbi xid body] := List.append_assoc _ _ _
    rw [hlog]
    exact hnote _ (by simp [issuedOf?])
  | register h => cases h
  | issue h => cases h
  | depth h => cases h
  | enter h => cases h
  | _ => rfl

lemma Acts.issued_eq {E : Env} {w w' : World} (h : Acts E false w w') : issued w'.log = issued w.log := by
  induction h with
  | refl => rfl
  | tail _ hact ih => exact hact.issued_eq.trans ih

/-- A call issues itself if it succeeds, and nothing else. -/
lemma clnttcpNbCall_issues {E : Env} {rpc : RpcProcInfo} {ucbi : CallbackInfo} {callflag : UInt64} {w w' : World}
    {stat : ClntStat} (h : clnttcpNbCall E noReentry rpc ucbi callflag w = some (w', stat)) :
    issued w'.log = issued w.log ∨
      stat = .success ∧ issued w'.log = issued w.log ++ [(⟨w.serial, ucbi⟩, byteSwap (w.ct.ctXid - 1))] := by
  have hreg : issued (registerCall ⟨w.serial, ucbi⟩ w.tick).log = issued w.log := by
    simp [registerCall, World.tick, issued, issuedOf?]
  rcases clnttcpNbCall_cases h with ⟨-, rfl, -⟩ | ⟨-, v, ok, henc, ⟨-, rfl, -⟩ | ⟨-, rfl, n, hrec⟩⟩
  · exact Or.inl rfl
  · exact Or.inl ((encodeCall_acts henc).acts.issued_eq.trans hreg)
  · refine Or.inr ⟨rfl, ?_⟩
    have hxid : v.ct.ctXid = w.ct.ctXid - 1 := (congrArg CtData.ctXid (encodeCall_acts henc).txOnly.ct :)
    have hissue : issued (issueCall v ⟨w.serial, ucbi⟩ rpc).log =
        issued v.log ++ [(⟨w.serial, ucbi⟩, byteSwap v.ct.ctXid)] := by
      simp [issueCall, setPending, issued, issuedOf?]
    rw [(clnttcpNbReceive_acts (actsOnly_noReentry E false) hrec).issued_eq, hissue,
      (encodeCall_acts henc).acts.issued_eq, hreg, hxid]

/-! ## The calls of an actor -/

/-- The handle of an actor when its first NFS call connects. -/
def actorCreate : Connection → CtData := nfsCreate (nfsInit ipprotoTcp nfscCflNonblocking).toNfsCtx

def lookupArgs (rootfh : Fhandle3) (rq : NfscdRequest) : LOOKUP3args := ⟨⟨⟨rootfh⟩, rq.lookupName⟩⟩

def lookupInfo (rq : Nat) : CallbackInfo := ⟨some nfs3LookupCbAddr, rq⟩

/-- The call that was issued as `p` is a lookup of the name in `rq` below `rootfh`, and `cl'` is its
handle later on. -/
def LookupMade (E : Env) (M : RequestMem) (rootfh : Fhandle3) (rq : Nat) (p : Cbi × UInt32) (cl' : NfsClient) :
    Prop :=
  ∃ (o : Option NfsClient) (net : Net) (cl : NfsClient) (v : World), Follows E actorCreate none o ∧
    handleFor actorCreate net o = some cl ∧
    clnttcpNbCall E noReentry ⟨nfs3LookupProc, xdrLOOKUP3args.encode (lookupArgs rootfh (M rq))⟩ (lookupInfo rq)
      rpcBlockingWait.toUInt64 { cl.world with reads := net.reads, writes := net.writes } = some (v, .success) ∧
    p = (⟨cl.world.serial, lookupInfo rq⟩, byteSwap (cl.world.ct.ctXid - 1)) ∧ Reaches E { cl with world := v } cl'

lemma LookupMade.info {E : Env} {M : RequestMem} {rootfh : Fhandle3} {rq : Nat} {p : Cbi × UInt32} {cl : NfsClient}
    (h : LookupMade E M rootfh rq p cl) : p.1.info = lookupInfo rq := by
  obtain ⟨o, net, cl₁, v, -, -, -, hp, -⟩ := h
  rw [hp]

/-- The handle `rootfh` came with an answer to the one call to the mount daemon. -/
def MountMade (E : Env) (opts : MountOpts) (rootfh : Fhandle3) (mntCl : Option NfsClient) : Prop :=
  ∃ (net : Net) (cl : NfsClient) (v : World), handleFor mountCreate net none = some cl ∧
    clnttcpNbCall E noReentry ⟨mount3MntProc, xdrDirpath.encode (some opts.remotedir)⟩
      ⟨some nfs3MountCbAddr, rootfhAddr⟩ rpcBlockingWait.toUInt64
      { cl.world with reads := net.reads, writes := net.writes } = some (v, .success) ∧
    mntCl = some { cl with world := v } ∧ ∃ c ∈ invocations v.log, nfs3MountCb c.2 = some rootfh

structure ActorCalls (E : Env) (opts : MountOpts) (M : RequestMem) (a : RunningActor) : Prop where
  create : nfsCreate a.as.ctx = actorCreate
  follows : Follows E actorCreate none a.as.ctx.nfsCl
  mounted : MountMade E opts a.as.rootfh a.mntCl
  lookups : ∀ cl, a.as.ctx.nfsCl = some cl → ∀ p ∈ issued cl.world.log, ∃ rq ∈ a.acted,
    LookupMade E M a.as.rootfh rq p cl

/-- The last callback that ran decides about the handle. -/
lemma foldl_mountCb {called : List (Cbi × Bytes)} {init : Option Fhandle3} {rootfh : Fhandle3}
    (h : called.foldl (fun _ a => nfs3MountCb a.2) init = some rootfh) :
    init = some rootfh ∨ ∃ c ∈ called, nfs3MountCb c.2 = some rootfh := by
  induction called generalizing init with
  | nil => exact Or.inl h
  | cons c called ih =>
    rw [List.foldl_cons] at h
    rcases ih h with hc | ⟨c', hc', hcb⟩
    · exact Or.inr ⟨c, List.mem_cons_self, hc⟩
    · exact Or.inr ⟨c', List.mem_cons_of_mem _ hc', hcb⟩

lemma nfs3ActorMountRemotedir_made {E : Env} {net : Net} {opts : MountOpts} {ctx : NfsContext} {rootfh : Fhandle3}
    (h : nfs3ActorMountRemotedir E net (some opts.remotedir) (nfsInit ipprotoTcp nfscCflNonblocking) =
      some (ctx, some rootfh)) : MountMade E opts rootfh ctx.nfsMntCl := by
  unfold nfs3ActorMountRemotedir at h
  split at h
  · cases h
  · rename_i ctx' stat hmnt
    obtain ⟨rfl, hroot⟩ := Prod.mk.inj (Option.some.inj h)
    split at hroot
    · rename_i hstat
      subst hstat
      rcases mount3Call_cases hmnt with ⟨hstat, -⟩ | ⟨cl, v, hcl, hcall, rfl⟩
      · cases hstat
      · rw [mountHandle_eq] at hcl
        refine ⟨net, cl, v, hcl, hcall, rfl, ?_⟩
        rcases foldl_mountCb hroot with hnone | hcalled
        · cases hnone
        · exact hcalled
    · cases hroot

namespace ActorCalls

variable {E : Env} {opts : MountOpts} {M : RequestMem} {a : RunningActor}

lemma start {net : Net} {mntCl : Option NfsClient} {as : Nfs3ActorState}
    (hinit : initNfs3ActorThreadState E net opts = some (mntCl, some as)) :
    ActorCalls E opts M ⟨.idle, as, mntCl, [], []⟩ := by
  obtain ⟨ctx, hmount, rfl, hctx⟩ := initNfs3ActorThreadState_cases hinit
  have hnone : as.ctx.nfsCl = none := by rw [hctx]; rfl
  refine ⟨by rw [hctx]; rfl, ?_, nfs3ActorMountRemotedir_made hmount, ?_⟩
  · change Follows E actorCreate none as.ctx.nfsCl
    rw [hnone]
    trivial
  · intro cl hcl
    rw [hnone] at hcl
    cases hcl

lemma act (h : ActorCalls E opts M a) {net : Net} {as : Nfs3ActorState} {rq : Nat} {replies : List FuseReply}
    (hrq : (M rq).request = .lookup) (hact : nfs3ActOnRequest E M net a.as rq = some (as, some replies)) :
    ActorCalls E opts M { a with as := as, acted := a.acted ++ [rq], replies := a.replies ++ replies } := by
  obtain ⟨stat, hlookup, -⟩ := nfs3ActOnRequest_lookup_cases hrq hact
  obtain ⟨⟨ctx', stat'⟩, hcall, heq⟩ := Option.map_eq_some_iff.mp hlookup
  obtain ⟨rfl, rfl⟩ := Prod.mk.inj heq
  rcases nfs3Call_cases hcall with ⟨-, rfl⟩ | ⟨cl, v, hcl, hnb, rfl⟩
  · refine ⟨h.create, h.follows, h.mounted, fun cl hcl p hp => ?_⟩
    obtain ⟨rq', hrq', hmade⟩ := h.lookups cl hcl p hp
    exact ⟨rq', List.mem_append_left _ hrq', hmade⟩
  rw [nfsHandle_eq, h.create] at hcl
  refine ⟨h.create, h.follows.trans ((handleFor_follows hcl).trans (call_reaches hnb)), h.mounted, ?_⟩
  intro cl' hcl' p hp
  obtain rfl := Option.some.inj hcl'
  -- the handle before the call, which may be a new one, and what was issued on it
  have hbefore : ∀ p ∈ issued cl.world.log, ∃ rq ∈ a.acted, LookupMade E M a.as.rootfh rq p cl := by
    intro p hp
    unfold handleFor at hcl
    cases ho : a.as.ctx.nfsCl with
    | some cl₀ =>
      rw [ho] at hcl
      obtain rfl := Option.some.inj hcl
      exact h.lookups _ ho p hp
    | none =>
      rw [ho] at hcl
      obtain ⟨c, -, rfl⟩ := Option.map_eq_some_iff.mp hcl
      cases hp
  have hearlier : p ∈ issued cl.world.log → ∃ rq' ∈ a.acted ++ [rq],
      LookupMade E M a.as.rootfh rq' p { cl with world := v } := by
    intro hp
    obtain ⟨rq', hrq', o, net', cl₁, v₁, ho, hcl₁, hcall₁, hp₁, hreach⟩ := hbefore p hp
    exact ⟨rq', List.mem_append_left _ hrq', o, net', cl₁, v₁, ho, hcl₁, hcall₁, hp₁, hreach.trans (call_reaches hnb)⟩
  rcases clnttcpNbCall_issues hnb with hissued | ⟨rfl, hissued⟩
  · change p ∈ issued v.log at hp
    rw [hissued] at hp
    exact hearlier hp
  · change p ∈ issued v.log at hp
    rw [hissued] at hp
    rcases List.mem_append.mp hp with hp | hp
    · exact hearlier hp
    · refine ⟨rq, List.mem_append_right _ (List.mem_singleton_self rq), ?_⟩
      exact ⟨_, net, cl, v, h.follows, hcl, hnb, List.mem_singleton.mp hp, reaches_refl E _⟩

lemma mem (h : ActorCalls E opts M a) {M' : RequestMem} (hM : ∀ rq ∈ a.acted, M' rq = M rq) :
    ActorCalls E opts M' a := by
  refine ⟨h.create, h.follows, h.mounted, ?_⟩
  intro cl hcl p hp
  obtain ⟨rq, hrq, o, net, cl₁, v₁, ho, hcl₁, hcall₁, hp₁, hreach⟩ := h.lookups cl hcl p hp
  rw [← hM rq hrq] at hcall₁
  exact ⟨rq, hrq, o, net, cl₁, v₁, ho, hcl₁, hcall₁, hp₁, hreach⟩

lemma kept (E : Env) (opts : MountOpts) : KeptByActors E opts (ActorCalls E opts) where
  start := start
  pc := fun _ h => ⟨h.create, h.follows, h.mounted, h.lookups⟩
  act := fun h _ hrq hact => h.act hrq hact
  mem := fun h _ hM => h.mem hM

end ActorCalls

/-! ## Against a server -/

/-- On this handle every call was sent, and the peer speaks the protocol of `R`. -/
structure SpeaksWith (E : Env) (R : Bytes → Bytes → Prop) (cl : NfsClient) : Prop where
  auth : cl.world.ct.clAuth = authnone
  sent : issued cl.world.log = regs cl.world.log
  replies : ServerReplies E R cl.world.log

lemma actorCreate_eq (c : Connection) :
    actorCreate c = clnttcpNbCreate c.xid nfsProgram nfsV3 0 0 c.auth c.junk := by
  unfold actorCreate nfsCreate
  rw [if_pos (by decide)]
  rfl

lemma actorCreate_created (c : Connection) : Created (actorCreate c) := nfsCreate_created _ c

lemma actorCreate_outSize (c : Connection) : (actorCreate c).ctXdrs.outSize < 2 ^ 31 := by
  rw [actorCreate_eq]
  exact recOutSize_lt (by decide)

lemma actorCreate_header (c : Connection) :
    (actorCreate c).ctMcallRest = beBytes 0 ++ beBytes 2 ++ beBytes nfsProgram ++ beBytes nfsV3 := by
  rw [actorCreate_eq]
  rfl

lemma struct_decoded {α : Type} {xdr : XdrProc α} {xdrTo : Option Bytes → Int → Option α} {msg : Bytes} {len : Int}
    {v : α} (h : (DecodeWrapper.struct xdr xdrTo).xdrTo msg len = (DecodeWrapper.struct xdr xdrTo).ret v) :
    xdrTo (some msg) len = some v := h

lemma lookupArgs_bools (rootfh : Fhandle3) (rq : NfscdRequest) :
    (nfs3Program.proc .lookup).xdrArgs.boolsOk (lookupArgs rootfh rq) = true := rfl

lemma LookupMade.results {E : Env} (hE : AllocsSucceed E) (hdec : E.xdrReplymsg = replyHeader)
    (F : Service nfs3Program) {M : RequestMem} {rootfh : Fhandle3} {rq : Nat} {p : Cbi × UInt32} {cl : NfsClient}
    (h : LookupMade E M rootfh rq p cl) (hsrv : SpeaksWith E (Serves nfs3Program F) cl)
    (hfew : (regs cl.world.log).length < 2 ^ 31) :
    OwnResults (nfs3Program.proc .lookup) (F .lookup) (lookupArgs rootfh (M rq)) p.1 p.2 cl.world.log := by
  obtain ⟨o, net, cl₁, v, ho, hcl, hcall, rfl, hreach⟩ := h
  exact nfs3Program.results_of_call (i := Nfs3Proc.lookup) hE hdec F actorCreate_created actorCreate_outSize
    actorCreate_header ho hcl hcall hreach hsrv.auth rfl (lookupArgs_bools _ _) hsrv.sent hfew hsrv.replies

lemma nfs3MountCb_eq {msg : Bytes} {res : Mountres3} (h : xdrToMntres3 (some msg) (cInt msg.length) = some res) :
    nfs3MountCb msg = (mountinfo? res).map Mountres3Ok.fhandle := by
  rw [nfs3MountCb, h, Option.bind_some]

lemma mountCall_results {E : Env} (hE : AllocsSucceed E) (hdec : E.xdrReplymsg = replyHeader)
    (G : Service mount3Program) {net : Net} {cl : NfsClient} {v : World} {dirp : Dirpath} {ucbi : CallbackInfo}
    (hcl : handleFor mountCreate net none = some cl)
    (hcall : clnttcpNbCall E noReentry ⟨mount3MntProc, xdrDirpath.encode dirp⟩ ucbi rpcBlockingWait.toUInt64
      { cl.world with reads := net.reads, writes := net.writes } = some (v, .success))
    (hsrv : SpeaksWith E (Serves mount3Program G) { cl with world := v }) (hfew : (regs v.log).length < 2 ^ 31) :
    OwnResults (mount3Program.proc .mnt) (G .mnt) dirp ⟨cl.world.serial, ucbi⟩ (byteSwap (cl.world.ct.ctXid - 1))
      ({ cl with world := v } : NfsClient).world.log := by
  have hfollows : Follows E mountCreate none none := trivial
  have hbools : (mount3Program.proc .mnt).xdrArgs.boolsOk dirp = true := rfl
  exact mount3Program.results_of_call (i := Mount3Proc.mnt) hE hdec G mountCreate_created
    (fun c => recOutSize_lt (by decide)) (fun c => rfl) hfollows hcl hcall (reaches_refl E _) hsrv.auth rfl hbools
    hsrv.sent hfew hsrv.replies

lemma MountMade.results {E : Env} (hE : AllocsSucceed E) (hdec : E.xdrReplymsg = replyHeader)
    (G : Service mount3Program) {opts : MountOpts} {rootfh : Fhandle3} {mntCl : Option NfsClient}
    (h : MountMade E opts rootfh mntCl)
    (hsrv : ∀ cl, mntCl = some cl → SpeaksWith E (Serves mount3Program G) cl) :
    ∃ res info, G .mnt (some opts.remotedir) res ∧ mountinfo? res = some info ∧ info.fhandle = rootfh := by
  obtain ⟨net, cl, v, hcl, hcall, rfl, c, hc, hcb⟩ := h
  have hspeaks := hsrv _ rfl
  obtain ⟨conn, -, rfl⟩ := Option.map_eq_some_iff.mp hcl
  have hct := mountCreate_created conn
  have henter : Acts E true (World.start (mountCreate conn))
      { (connected mountCreate conn).world with reads := net.reads, writes := net.writes } :=
    .single (.enter rfl _ net.reads net.writes)
  have hregs : regs v.log = [(⟨(connected mountCreate conn).world.serial, ⟨some nfs3MountCbAddr, rootfhAddr⟩⟩,
      callXid (mountCreate conn).ctXid 0)] := by
    have hi := henter.regInv (regInv_start hct) (Nat.zero_le _)
    obtain ⟨es, hes, hcases⟩ := clnttcpNbCall_answers hi (by exact Nat.two_pow_pos 32) hcall
    rcases hcases with ⟨hstat, -⟩ | ⟨-, hregs, -⟩
    · exact absurd rfl hstat
    · rw [hes]
      exact hregs
  have hlen : (regs v.log).length = 1 := by rw [hregs]; rfl
  have hres := mountCall_results hE hdec G hcl hcall hspeaks (by rw [hlen]; decide)
  -- the callback that ran is the one of this call, as no other was registered
  have hown : c.1 = ⟨(connected mountCreate conn).world.serial, ⟨some nfs3MountCbAddr, rootfhAddr⟩⟩ := by
    have hsub := (invocations_subperm (replyHeader_decodes hdec) hct
      (henter.trans (clnttcpNbCall_acts (actsOnly_noReentry E true) hcall)) (by rw [hlen]; decide)).subset
      (List.mem_map.mpr ⟨c, hc, rfl⟩)
    rw [hregs] at hsub
    exact List.mem_singleton.mp hsub
  obtain ⟨res, hdecode, hG⟩ := hres.results c.2 (hown ▸ hc)
  have hdecode := @struct_decoded _ xdrMountres3 xdrToMntres3 c.2 (cInt c.2.length) res hdecode
  rw [nfs3MountCb_eq hdecode] at hcb
  obtain ⟨info, hinfo, hfh⟩ := Option.map_eq_some_iff.mp hcb
  exact ⟨res, info, hG, hinfo, hfh⟩

/-- In every run of the daemon, an actor whose peers speak the two protocols works below the handle
the mount daemon has for the remote directory; each error it replies with is one the server has for
the name of the request replied to; and of a lookup that was answered with an error FUSE is told. -/
theorem fuse_errors_are_the_servers {E : Env} (hE : AllocsSucceed E) (hdec : E.xdrReplymsg = replyHeader)
    (F : Service nfs3Program) (G : Service mount3Program) {opts : MountOpts} {head : RequestQueue → Nat}
    (hinj : Injective head) {mem : RequestMem} {links : Links Nat} {es : List DaemonEvent} {d : Daemon}
    (hrun : (nfscdInit head mem links).run E opts head es = some d) (hfew : d.queues.issued.length < 2 ^ 31)
    {a : RunningActor} (ha : .running a ∈ d.threads)
    (hmnt : ∀ cl, a.mntCl = some cl → SpeaksWith E (Serves mount3Program G) cl)
    (hnfs : ∀ cl, a.as.ctx.nfsCl = some cl → SpeaksWith E (Serves nfs3Program F) cl) :
    (∃ res info, G .mnt (some opts.remotedir) res ∧ mountinfo? res = some info ∧ info.fhandle = a.as.rootfh) ∧
    (∀ r ∈ a.replies, ∃ rq ∈ a.acted, ∃ res : LOOKUP3res, F .lookup (lookupArgs a.as.rootfh (d.mem rq)) res ∧
      statusOk res.disc = false ∧ r = ⟨(d.mem rq).fuserq, nfsstat3ToErrno res.disc⟩) ∧
    ∀ p ∈ regs (handleLog a.as), ∀ rec ∈ (received (handleLog a.as)).2, ∀ body,
      replyHeader rec.flatten = some (p.2.toUInt64, body) →
      p.1.info.cbPrivate ∈ a.acted ∧
      ∃ res : LOOKUP3res, xdrToLOOKUP3res (some body) (cInt body.length) = some res ∧
        F .lookup (lookupArgs a.as.rootfh (d.mem p.1.info.cbPrivate)) res ∧
        (statusOk res.disc = false → ⟨(d.mem p.1.info.cbPrivate).fuserq, nfsstat3ToErrno res.disc⟩ ∈ a.replies) := by
  have hdec' := replyHeader_decodes hdec
  have hinit := DaemonInv.init hinj mem links
  have hinv := (hinit.run hinj hrun).1
  have hrunA : ActorRun E d.mem a :=
    (ActorRun.kept hdec' opts).run hinj hinit (fun a ha => nomatch ha) hrun (by omega) a ha
  have hcalls : ActorCalls E opts d.mem a :=
    (ActorCalls.kept E opts).run hinj hinit (fun a ha => nomatch ha) hrun (by omega) a ha
  have hacted : a.acted.length < 2 ^ 31 :=
    ((acted_sublist a).length_le.trans (hinv.taken_length_le ha)).trans_lt hfew
  -- a call that was registered was issued, and its callback gets results for it
  have hown : ∀ p ∈ regs (handleLog a.as), ∃ rq ∈ a.acted, p.1.info = lookupInfo rq ∧
      OwnResults (nfs3Program.proc .lookup) (F .lookup) (lookupArgs a.as.rootfh (d.mem rq)) p.1 p.2
        (handleLog a.as) := by
    intro p hp
    have hle := hrunA.calls_le
    cases hcl : a.as.ctx.nfsCl with
    | none =>
      rw [handleLog, hcl] at hp
      cases hp
    | some cl =>
      have hlog : handleLog a.as = cl.world.log := by rw [handleLog, hcl]
      rw [hlog, ← (hnfs cl hcl).sent] at hp
      rw [hlog] at hle ⊢
      obtain ⟨rq, hrq, hmade⟩ := hcalls.lookups cl hcl p hp
      exact ⟨rq, hrq, hmade.info, hmade.results hE hdec F (hnfs cl hcl) (hle.trans_lt hacted)⟩
  refine ⟨hcalls.mounted.results hE hdec G hmnt, ?_, ?_⟩
  · intro r hr
    obtain ⟨c, hc, res, hres, hstat, rfl⟩ := (mem_runCallbacks hrunA.replies r).mp hr
    obtain ⟨p, hp, hpc⟩ := List.mem_map.mp
      ((hrunA.callbacks hdec' (by omega)).subset (List.mem_map.mpr ⟨c, hc, rfl⟩))
    obtain ⟨rq, hrq, hinfo, hresults⟩ := hown p hp
    obtain ⟨value, hvalue, hF⟩ := hresults.results c.2 (hpc ▸ hc)
    have hvalue := @struct_decoded _ xdrLOOKUP3res xdrToLOOKUP3res c.2 (cInt c.2.length) value hvalue
    obtain rfl := Option.some.inj (hres.symm.trans hvalue)
    rw [← hpc, hinfo]
    exact ⟨rq, hrq, res, hF, hstat, rfl⟩
  · intro p hp rec hrec body hreply
    obtain ⟨rq, hrq, hinfo, hresults⟩ := hown p hp
    have hbody := hresults.answered (by rw [hinfo]; exact Option.some_ne_none _) rec hrec body hreply
    obtain ⟨value, hvalue, hF⟩ := hresults.results body hbody
    have hvalue := @struct_decoded _ xdrLOOKUP3res xdrToLOOKUP3res body (cInt body.length) value hvalue
    rw [hinfo]
    refine ⟨hrq, value, hvalue, hF, fun hstat => ?_⟩
    refine (mem_runCallbacks hrunA.replies _).mpr ⟨_, hbody, value, hvalue, hstat, ?_⟩
    rw [hinfo]

/-! ## An empty directory -/

/-- A server on which no file is found. -/
def emptyService : Service nfs3Program
  | .lookup => fun _ value => value.disc = .named .noent
  | _ => fun _ _ => False

lemma rootHandle_short : ([1, 2, 3, 4] : Bytes).length < 2 ^ 32 := by simp

def rootHandle : Fhandle3 := ⟨[1, 2, 3, 4], rootHandle_short⟩

/-- A mount daemon with one directory. -/
def rootService : Service mount3Program
  | .mnt => fun _ value => (mountinfo? value).map Mountres3Ok.fhandle = some rootHandle
  | _ => fun _ _ => False

def EmptyAnswer (q body : Bytes) : Prop :=
  q = callMessage (actorCreate authnoneConnection)
      ⟨nfs3LookupProc, xdrLOOKUP3args.encode (lookupArgs rootHandle ⟨78, .lookup, some fileName⟩)⟩ 0xffffff0f ∧
    body = noentResult

instance : DecidableRel EmptyAnswer := fun _ _ => inferInstanceAs (Decidable (_ ∧ _))

lemma emptyAnswer_serves (q body : Bytes) (h : EmptyAnswer q body) : Serves nfs3Program emptyService q body := by
  obtain ⟨rfl, rfl⟩ := h
  have hct : HandleOf nfsProgram nfsV3 (actorCreate authnoneConnection) := ⟨actorCreate_header _, rfl⟩
  exact ⟨_, _, .lookup, lookupArgs rootHandle ⟨78, .lookup, some fileName⟩, [], ⟨.named .noent, ⟨⟨.named false, ()⟩⟩⟩,
    callMessage_decode hct _ _, rfl, rfl, rfl, rfl, rfl, rfl, rfl, rfl, rfl, rfl⟩

def RootAnswer (q body : Bytes) : Prop :=
  q = callMessage (mountCreate authnoneConnection) ⟨mount3MntProc, xdrDirpath.encode (some rootOpts.remotedir)⟩
      0xffffff0f ∧ body = [0, 0, 0, 0, 0, 0, 0, 4, 1, 2, 3, 4, 0, 0, 0, 0]

instance : DecidableRel RootAnswer := fun _ _ => inferInstanceAs (Decidable (_ ∧ _))

lemma rootAnswer_serves (q body : Bytes) (h : RootAnswer q body) : Serves mount3Program rootService q body := by
  obtain ⟨rfl, rfl⟩ := h
  have hct : HandleOf mountProgram mountV3 (mountCreate authnoneConnection) := ⟨rfl, rfl⟩
  exact ⟨_, _, .mnt, some rootOpts.remotedir, [], ⟨.named .ok, ⟨rootHandle, ⟨[], by decide⟩⟩⟩,
    callMessage_decode hct _ _, rfl, rfl, rfl, rfl, rfl, rfl, rfl, rfl, rfl, rfl⟩

/-- The peer of the handle answers as `R` has it. -/
def speaks (R : Bytes → Bytes → Prop) [DecidableRel R] : Option NfsClient → Bool
  | none => false
  | some cl => decide (cl.world.ct.clAuth = authnone ∧ issued cl.world.log = regs cl.world.log ∧
      ServerReplies replyEnv R cl.world.log)

lemma speaks_with {R R' : Bytes → Bytes → Prop} [DecidableRel R] (hR : ∀ q body, R q body → R' q body)
    {o : Option NfsClient} (h : speaks R o = true) (cl : NfsClient) (hcl : o = some cl) :
    SpeaksWith replyEnv R' cl := by
  subst hcl
  obtain ⟨hauth, hsent, hreplies⟩ := of_decide_eq_true h
  exact ⟨hauth, hsent, hreplies.mono hR⟩

def firstActor (d : Daemon) : Option RunningActor :=
  match d.threads with
  | .running a :: _ => some a
  | _ => none

lemma firstActor_mem {d : Daemon} {a : RunningActor} (h : firstActor d = some a) : .running a ∈ d.threads := by
  unfold firstActor at h
  split at h
  · rename_i a' rest hthreads
    obtain rfl := Option.some.inj h
    rw [hthreads]
    exact List.mem_cons_self
  · cases h

theorem fuse_errors_are_the_servers_empty :
    ∃ d a, (nfscdInit twoHeads emptyMem ⟨fun _ => none, fun _ => none⟩).run replyEnv rootOpts twoHeads crossedEvents =
        some d ∧ .running a ∈ d.threads ∧ a.replies = [⟨78, .enoent⟩] ∧
      ∃ rq ∈ a.acted, ∃ res : LOOKUP3res, emptyService .lookup (lookupArgs a.as.rootfh (d.mem rq)) res ∧
        (⟨78, .enoent⟩ : FuseReply) = ⟨(d.mem rq).fuserq, nfsstat3ToErrno res.disc⟩ := by
  have hrun : ((nfscdInit twoHeads emptyMem ⟨fun _ => none, fun _ => none⟩).run replyEnv rootOpts twoHeads
      crossedEvents).bind (fun d => (firstActor d).map fun a => decide (speaks RootAnswer a.mntCl = true ∧
        speaks EmptyAnswer a.as.ctx.nfsCl = true ∧ a.replies = [⟨78, .enoent⟩] ∧
        d.queues.issued.length < 2 ^ 31)) = some true := by
    decide +kernel
  obtain ⟨d, hd, hfirst⟩ := Option.bind_eq_some_iff.mp hrun
  obtain ⟨a, ha, hfacts⟩ := Option.map_eq_some_iff.mp hfirst
  obtain ⟨hmnt, hnfs, hreplies, hfew⟩ := of_decide_eq_true hfacts
  obtain ⟨-, herrors, -⟩ := fuse_errors_are_the_servers (fun _ _ => rfl) rfl emptyService rootService
    twoHeads_injective hd hfew (firstActor_mem ha) (speaks_with rootAnswer_serves hmnt)
    (speaks_with emptyAnswer_serves hnfs)
  obtain ⟨rq, hrq, res, hres, -, heq⟩ := herrors ⟨78, .enoent⟩ (by rw [hreplies]; exact List.mem_singleton_self _)
  exact ⟨d, a, hd, firstActor_mem ha, hreplies, rq, hrq, res, hres, heq⟩

end UnfsClient.Proofs
