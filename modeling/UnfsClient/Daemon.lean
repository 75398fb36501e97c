import UnfsClient.Nfs3Client
import UnfsClient.Nfs3Free
import UnfsClient.RequestQueues

/-!
# The daemon

The loop of `nfs3_request_actor` with the mount it begins with, and `nfscd_lookup`, which hands the
requests of FUSE to the actors through the metadata queue. FUSE, the actors and whoever starts them
take their steps in any order. What an actor does between two accesses to the queue is one step: it
touches only its own handles and requests that nobody writes any more.
-/

namespace UnfsClient

open Lib Function

/-!
## Mounting the remote directory
-/

/-- `mountopts` as far as an actor uses it. -/
structure MountOpts where
  remotedir : CString
  ctxpoolsize : Nat

/-- `rootfh` after `nfs3_mount_cb`, where `none` has a null `fhandle3_val`. The handle is the copy that
`fhandle3_dup` makes. -/
def nfs3MountCb (msg : Bytes) : Option Fhandle3 :=
  (xdrToMntres3 (some msg) (cInt msg.length)).bind fun res => (mountinfo? res).map Mountres3Ok.fhandle

/-- The address of `nfs3_mount_cb`. -/
def nfs3MountCbAddr : Nat := 2

/-- The address of the local `rootfh`. -/
def rootfhAddr : Nat := 3

/-- What has happened on the mount handle so far. -/
def mountLog (ctx : NfsContext) : List Event :=
  match ctx.nfsMntCl with
  | none => []
  | some cl => cl.world.log

/-- `nfs3_actor_mount_remotedir`; there is no handle when it returns -1. -/
def nfs3ActorMountRemotedir (E : Env) (net : Net) (remotedir : Dirpath) (mntctx : NfsContext) :
    Option (NfsContext × Option Fhandle3) :=
  match mount3Mnt E net remotedir mntctx ⟨some nfs3MountCbAddr, rootfhAddr⟩ rpcBlockingWait.toUInt64 with
  | none => none
  | some (ctx, stat) =>
    let called := invocations ((mountLog ctx).drop (mountLog mntctx).length)
    let rootfh := called.foldl (fun _ a => nfs3MountCb a.2) none
    some (ctx, if stat = .success then rootfh else none)

/-- `init_per_actor_context_pool` with memory for the pool and an address for the server. -/
def initPerActorContextPool (opts : MountOpts) : List NfsContext :=
  List.replicate opts.ctxpoolsize (nfsInit ipprotoTcp nfscCflNonblocking)

/-- `init_nfs3_actor_thread_state`: the handle to the mount daemon, and the state unless it returns
-1. Of the pool only the first context is ever used. -/
def initNfs3ActorThreadState (E : Env) (net : Net) (opts : MountOpts) :
    Option (Option NfsClient × Option Nfs3ActorState) :=
  match initPerActorContextPool opts with
  | [] => none
  | mntctx :: _ =>
    (nfs3ActorMountRemotedir E net (some opts.remotedir) mntctx).map fun r =>
      (r.1.nfsMntCl, r.2.map fun rootfh => ⟨r.1.toNfsCtx, rootfh⟩)

/-!
## Actors
-/

/-- Where an actor stands in the loop of `nfs3_request_actor`. -/
inductive LoopPc where
  | idle
  /-- In `nfscd_dequeue_metadata_request`, which is the call with this number. -/
  | dequeuing (call : Nat)
  /-- Before `nfs3_act_on_request`. -/
  | acting (rq : Nat)

/-- An actor in its loop. `mntCl` is the other handle of its context. The logs are the requests it has
acted on and the replies it has sent. -/
structure RunningActor where
  pc : LoopPc
  as : Nfs3ActorState
  mntCl : Option NfsClient
  acted : List Nat
  replies : List FuseReply

inductive ActorThread where
  | starting
  | exited
  | running (a : RunningActor)

namespace RunningActor

/-- The requests the actor has dequeued. -/
def taken (a : RunningActor) : List Nat :=
  match a.pc with
  | .acting rq => a.acted ++ [rq]
  | _ => a.acted

end RunningActor

namespace ActorThread

def taken : ActorThread → List Nat
  | running a => a.taken
  | _ => []

def replies : ActorThread → List FuseReply
  | running a => a.replies
  | _ => []

end ActorThread

section Steps

variable (E : Env) (opts : MountOpts) (head : RequestQueue → Nat)

/-- A step of a dequeue call; the call returns with the step that takes a request out. -/
def RunningActor.dequeueStep (a : RunningActor) (queues queues' : QueueCtx Nat) : RunningActor :=
  match (queues'.returned .md).drop (queues.returned .md).length with
  | [] => a
  | rq :: _ => { a with pc := .acting rq }

/-- The loop of `nfs3_request_actor`; `none` when the actor has to wait, or an assertion fails. -/
def RunningActor.step (M : RequestMem) (net : Net) (queues : QueueCtx Nat) (a : RunningActor) :
    Option (QueueCtx Nat × RunningActor) :=
  match a.pc with
  | .idle =>
    (queues.step head (.dequeue .md)).map fun queues' =>
      (queues', { a with pc := .dequeuing queues.calls.length })
  | .dequeuing call =>
    (queues.step head (.run call)).map fun queues' => (queues', a.dequeueStep queues queues')
  | .acting rq =>
    match nfs3ActOnRequest E M net a.as rq with
    | some (as, some replies) =>
      some (queues, { a with pc := .idle, as := as, acted := a.acted ++ [rq], replies := a.replies ++ replies })
    | _ => none

/-- A step of `nfs3_request_actor`. -/
def ActorThread.step (M : RequestMem) (net : Net) (queues : QueueCtx Nat) :
    ActorThread → Option (QueueCtx Nat × ActorThread)
  | starting =>
    match initNfs3ActorThreadState E net opts with
    | none => none
    | some (_, none) => some (queues, exited)
    | some (mntCl, some as) => some (queues, running ⟨.idle, as, mntCl, [], []⟩)
  | exited => none
  | running a => (a.step E head M net queues).map fun r => (r.1, running r.2)

/-!
## The whole process
-/

structure Daemon where
  mem : RequestMem
  queues : QueueCtx Nat
  threads : List ActorThread

/-- `nfscd_init` before any actor is started. -/
def nfscdInit (mem : RequestMem) (links : Links Nat) : Daemon := ⟨mem, initNfsclientQueues head links, []⟩

inductive DaemonEvent where
  /-- FUSE calls `nfscd_lookup`, in which `malloc` returns `rq`. -/
  | lookup (rq req : Nat) (name : CString)
  /-- The enqueue call with this number takes its next step. -/
  | enqueue (call : Nat)
  | startup
  /-- An actor takes its next step, and the network does this meanwhile. -/
  | actor (j : Nat) (net : Net)

/-- The operations of an enqueue call. -/
def QueueOp.ofEnqueue : QueueOp Nat → Bool
  | semWait _ => false
  | takeFirst _ => false
  | _ => true

/-- `nfscd_lookup` up to the enqueue call, whose steps are taken later. Requests are never freed, so
`malloc` returns an address that holds none. -/
def nfscdLookup (d : Daemon) (rq req : Nat) (name : CString) : Option Daemon :=
  (d.queues.step head (.enqueue .md rq)).map fun queues =>
    { d with mem := update d.mem rq ⟨req, .lookup, some name⟩, queues := queues }

def Daemon.enqueueStep (d : Daemon) (call : Nat) : Option Daemon :=
  match d.queues.calls[call]? with
  | some (op :: _) =>
    if op.ofEnqueue then (d.queues.step head (.run call)).map fun queues => { d with queues := queues } else none
  | _ => none

def Daemon.actorStep (d : Daemon) (j : Nat) (net : Net) : Option Daemon :=
  match d.threads[j]? with
  | none => none
  | some thread =>
    (thread.step E opts head d.mem net d.queues).map fun r =>
      { d with queues := r.1, threads := d.threads.set j r.2 }

def Daemon.step (d : Daemon) : DaemonEvent → Option Daemon
  | .lookup rq req name => nfscdLookup head d rq req name
  | .enqueue call => d.enqueueStep head call
  | .startup => some { d with threads := d.threads ++ [.starting] }
  | .actor j net => d.actorStep E opts head j net

def Daemon.run (d : Daemon) (es : List DaemonEvent) : Option Daemon :=
  es.foldlM (fun d e => d.step E opts head e) d

/-- Every reply that has been sent to FUSE, by any actor. -/
def Daemon.replies (d : Daemon) : List FuseReply := d.threads.flatMap ActorThread.replies

/-- Every request that any actor has dequeued. -/
def Daemon.taken (d : Daemon) : List Nat := d.threads.flatMap ActorThread.taken

end Steps

end UnfsClient
