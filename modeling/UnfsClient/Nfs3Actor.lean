import UnfsClient.RpcReply
import UnfsClient.Nfs3Decode

/-!
# NFS calls and the request actor

`nfs3_call` of `nfs3.c` with the procedures that go through it, and the actor of `nfs3actor.c`
that serves the requests of FUSE. A request is known by its address, which is also the private
pointer of its callback. A failed `assert` ends the process; here it is the outcome `none`.
-/

namespace UnfsClient

open Lib

/-! ## NFS contexts -/

def ipprotoTcp : Int32 := 6
def ipprotoUdp : Int32 := 17
def nfscCflNonblocking : UInt32 := 0x01
def nfsProgram : UInt32 := 100003
def nfsV3 : UInt32 := 3

/-- A handle with `x_public` of its `ct_xdrs`, which the client never assigns. -/
structure NfsClient where
  world : World
  xPublic : UInt64

/-- `nfs_ctx` as far as NFS calls use it; `nfsCl` is null before the first call. -/
structure NfsCtx where
  nfsTransport : Int32
  nfsConnflags : UInt32
  nfsWsize : UInt32
  nfsRsize : UInt32
  nfsCl : Option NfsClient

def checkCtx (ctx : NfsCtx) : Bool :=
  !(ctx.nfsTransport != ipprotoUdp && ctx.nfsTransport != ipprotoTcp)

/-- A connection that can be made: the xid of `create_xid`, the authenticator, and what the
memory allocated for the handle holds where nothing is assigned, in the record state and in
`ct_xdrs.x_public`. -/
structure Connection where
  xid : UInt32
  auth : Encoding
  junk : RpcRecordState
  xPublic : UInt64

/-- What the network does during a call: whether a connection can be made if one is needed, and
the results of `read` and `write`. -/
structure Net where
  connection : Option Connection
  reads : List ReadResult
  writes : List WriteResult

/-- The handle `nfs3_call` creates. -/
def nfsCreate (ctx : NfsCtx) (c : Connection) : CtData :=
  if ctx.nfsConnflags &&& nfscCflNonblocking != 0 then
    clnttcpNbCreate c.xid nfsProgram nfsV3 ctx.nfsWsize ctx.nfsRsize c.auth c.junk
  else clnttcpBCreate c.xid nfsProgram nfsV3 ctx.nfsWsize ctx.nfsRsize c.auth c.junk

/-- `ctx->nfs_cl` once `nfs3_call` has tried to create it. -/
def nfsHandle (net : Net) (ctx : NfsCtx) : Option NfsClient :=
  match ctx.nfsCl with
  | some cl => some cl
  | none => net.connection.map fun c => ⟨World.start (nfsCreate ctx c), c.xPublic⟩

/-- `inproc` is what the arguments put on a stream with this `x_public`. -/
def nfs3Call (E : Env) (net : Net) (proc : UInt64) (inproc : UInt64 → Encoding) (ctx : NfsCtx)
    (ucbi : CallbackInfo) (callflag : UInt64) : Option (NfsCtx × ClntStat) :=
  if !checkCtx ctx then some (ctx, .systemError)
  else
    match nfsHandle net ctx with
    | none => some (ctx, .systemError)
    | some cl =>
      match clnttcpNbCall E noReentry ⟨proc, inproc cl.xPublic⟩ ucbi callflag
          { cl.world with reads := net.reads, writes := net.writes } with
      | none => none
      | some (w, stat) => some ({ ctx with nfsCl := some { cl with world := w } }, stat)

/-- Either the call is not made, or it is made on the handle. -/
lemma nfs3Call_cases {E : Env} {net : Net} {proc : UInt64} {inproc : UInt64 → Encoding} {ctx ctx' : NfsCtx}
    {ucbi : CallbackInfo} {callflag : UInt64} {stat : ClntStat}
    (h : nfs3Call E net proc inproc ctx ucbi callflag = some (ctx', stat)) :
    (stat = .systemError ∧ ctx' = ctx) ∨
    ∃ cl w', nfsHandle net ctx = some cl ∧
      clnttcpNbCall E noReentry ⟨proc, inproc cl.xPublic⟩ ucbi callflag
        { cl.world with reads := net.reads, writes := net.writes } = some (w', stat) ∧
      ctx' = { ctx with nfsCl := some { cl with world := w' } } := by
  unfold nfs3Call at h
  split at h
  · cases h
    exact Or.inl ⟨rfl, rfl⟩
  · split at h
    · cases h
      exact Or.inl ⟨rfl, rfl⟩
    · rename_i cl hcl
      split at h
      · cases h
      · rename_i w' stat hnb
        cases h
        exact Or.inr ⟨cl, w', hcl, hnb, rfl⟩

def nfs3LookupProc : UInt64 := 3
def nfs3WriteProc : UInt64 := 7

def nfs3Lookup (E : Env) (net : Net) (args : LOOKUP3args) (ctx : NfsCtx) (ucbi : CallbackInfo)
    (callflag : UInt64) : Option (NfsCtx × ClntStat) :=
  nfs3Call E net nfs3LookupProc (fun _ => xdrLOOKUP3args.encode args) ctx ucbi callflag

/-- `__DISABLE_DATA_DEXDR_INTERNAL`, the pointer -1. -/
def disableDataDexdrInternal : UInt64 := 0xffffffffffffffff

/-- The test of `x_public` in `xdr_WRITE3args`. -/
def xPublicOfPointer (p : UInt64) : XPublic :=
  if p = disableDataDexdrInternal then .disableDataDexdr else .enableDataDexdr

def nfs3Write (E : Env) (net : Net) (args : WRITE3args) (ctx : NfsCtx) (ucbi : CallbackInfo)
    (callflag : UInt64) : Option (NfsCtx × ClntStat) :=
  nfs3Call E net nfs3WriteProc (fun p => (xdrWRITE3args (xPublicOfPointer p)).encode args) ctx ucbi callflag

/-! ## Error numbers -/

inductive Errno where
  | zero | eperm | enoent | eio | enxio | eacces | eexist | exdev | enodev | enotdir | eisdir | einval
  | efbig | enospc | erofs | emlink | enametoolong | enotempty | edquot | estale
  deriving DecidableEq, Repr

/-- `nfs3errtbl` up to its end mark. -/
def nfs3errtbl : List (Nfsstat3 × Errno) :=
  [(.ok, .zero), (.perm, .eperm), (.noent, .enoent), (.errIo, .eio), (.nxio, .enxio), (.acces, .eacces),
    (.exist, .eexist), (.xdev, .exdev), (.nodev, .enodev), (.notdir, .enotdir), (.isdir, .eisdir),
    (.inval, .einval), (.fbig, .efbig), (.nospc, .enospc), (.rofs, .erofs), (.mlink, .emlink),
    (.nametoolong, .enametoolong), (.notempty, .enotempty), (.dquot, .edquot), (.stale, .estale)]

def nfsstat3ToErrno (stat : EnumT Nfsstat3) : Errno :=
  match nfs3errtbl.find? fun e => e.1.code == stat.toWord with
  | some e => e.2
  | none => .eio

/-! ## The actor -/

inductive FuseOpcode where
  | lookup | forget | getattr | setattr | readlink | symlink | mknod | mkdir | unlink | rmdir | rename
  | link | «open» | read | write | statfs | release | fsync | setxattr | getxattr | listxattr
  | removexattr | flush | init | opendir | readdir | releasedir | fsyncdir | getlk | setlk | setlkw
  | access | create | interrupt | bmap | destroy
  deriving DecidableEq, Repr

/-- `struct nfscd_request`; of the arguments, the name a lookup is for. -/
structure NfscdRequest where
  fuserq : Nat
  request : FuseOpcode
  lookupName : Filename3

/-- The requests in memory, by address. -/
abbrev RequestMem := Nat → NfscdRequest

/-- `fuse_reply_err`. -/
structure FuseReply where
  fuserq : Nat
  err : Errno
  deriving DecidableEq, Repr

/-- `struct nfs3_actor_state`, with the first context of the pool. -/
structure Nfs3ActorState where
  ctx : NfsCtx
  rootfh : Counted UInt8

/-- The replies `nfs3_lookup_cb` sends for what it has decoded; `none` when its assertion fails. -/
def replyToLookup (fuserq : Nat) : Option LOOKUP3res → Option (List FuseReply)
  | none => none
  | some res => if statusOk res.disc then some [] else some [⟨fuserq, nfsstat3ToErrno res.disc⟩]

def nfs3LookupCb (M : RequestMem) (msg : Bytes) (priv : Nat) : Option (List FuseReply) :=
  replyToLookup (M priv).fuserq (xdrToLOOKUP3res (some msg) (cInt msg.length))

/-- The callbacks of a call run one after the other. On the handle of an actor every one of them
is `nfs3_lookup_cb`. -/
def runCallbacks (M : RequestMem) (called : List (Cbi × Bytes)) : Option (List FuseReply) :=
  (called.mapM fun a => nfs3LookupCb M a.2 a.1.info.cbPrivate).map List.flatten

def fuseToNfs3LookupArgs (as : Nfs3ActorState) (rq : NfscdRequest) : LOOKUP3args :=
  ⟨⟨⟨as.rootfh⟩, rq.lookupName⟩⟩

/-- The address of `nfs3_lookup_cb`. -/
def nfs3LookupCbAddr : Nat := 1

/-- `nfs3_lookup_actor`, with what `nfs3_lookup` returns, which it ignores. -/
def nfs3LookupActor (E : Env) (M : RequestMem) (net : Net) (as : Nfs3ActorState) (rq : Nat) :
    Option (Nfs3ActorState × ClntStat) :=
  (nfs3Lookup E net (fuseToNfs3LookupArgs as (M rq)) as.ctx ⟨some nfs3LookupCbAddr, rq⟩
    rpcBlockingWait.toUInt64).map fun r => ({ as with ctx := r.1 }, r.2)

/-- What has happened on the NFS handle so far. -/
def handleLog (as : Nfs3ActorState) : List Event :=
  match as.ctx.nfsCl with
  | none => []
  | some cl => cl.world.log

def nfs3ActOnRequest (E : Env) (M : RequestMem) (net : Net) (as : Nfs3ActorState) (rq : Nat) :
    Option (Nfs3ActorState × Option (List FuseReply)) :=
  match (M rq).request with
  | .lookup =>
    match nfs3LookupActor E M net as rq with
    | none => none
    | some (as', _) =>
      some (as', runCallbacks M (invocations ((handleLog as').drop (handleLog as).length)))
  | _ => some (as, some [⟨(M rq).fuserq, .eio⟩])

/-- The loop of `nfs3_request_actor` over the requests it has dequeued. -/
def runRequests (E : Env) (M : RequestMem) : List (Nat × Net) → Nfs3ActorState → Option Nfs3ActorState
  | [], as => some as
  | (rq, net) :: rest, as =>
    match nfs3ActOnRequest E M net as rq with
    | some (as', some _) => runRequests E M rest as'
    | _ => none

end UnfsClient
