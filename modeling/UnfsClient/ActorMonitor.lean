import UnfsClient.RequestQueues

/-!
# Actors and their monitor

`nfscd_startup_actor`, `nfscd_notify_actor_exit` and `nfscd_actor_monitor` of `nfscd_ops.c`. The first
two do their work under `ast_lock`, each in one step. The monitor holds it for a whole pass, which is
taken step by step, so that a `pthread_join` that has to wait is a state of its own. An `actor_status`
is the address of its `list` member. Addresses and thread ids are not used again.
-/

namespace UnfsClient

open Lib Function

structure ActorStatus where
  tid : Nat
  exitstat : Int

def defaultExitStatus : Int := -1

inductive MonitorPc where
  /-- Before `sem_wait`. -/
  | waiting
  /-- Before `pthread_mutex_lock`. -/
  | locking
  /-- At the condition of the loop. -/
  | looping (iter tmp : Nat)
  /-- In `pthread_join`. -/
  | joining (iter tmp : Nat)
  deriving DecidableEq

/-- `actor_threads` and what its entries hold, and the status each thread has reported. The logs are the
entries and threads ever made, the threads joined with whether they had reported, the entries taken
out, those that were replaced with their replacement, and the statuses printed. -/
structure ActorCtx where
  links : Links Nat
  ast : Nat → ActorStatus
  exitNotify : Nat
  monitor : MonitorPc
  reports : Nat → Option Int
  entries : List Nat
  tids : List Nat
  joins : List (Nat × Bool)
  removed : List Nat
  replaced : List (Nat × Nat)
  printed : List Int

/-- The entries from `iter` on, at most `fuel` of them. -/
def flistEntries (s : Links Nat) (head : Nat) : Nat → Option Nat → List Nat
  | 0, _ => []
  | _, none => []
  | fuel + 1, some iter => if iter = head then [] else iter :: flistEntries s head fuel (s.next iter)

section Events

variable (head : Nat)

/-- `init_nfsclient_thread_pool` up to the start of the monitor. -/
def initActorThreads (links : Links Nat) : ActorCtx where
  links := initFlistHead links head
  ast _ := ⟨0, 0⟩
  exitNotify := 0
  monitor := .waiting
  reports _ := none
  entries := []
  tids := []
  joins := []
  removed := []
  replaced := []
  printed := []

namespace ActorCtx

/-- The entries of `actor_threads`. Every entry was made once, which bounds the list. -/
def listed (c : ActorCtx) : List Nat := flistEntries c.links head (c.entries.length + 1) (c.links.next head)

/-- `ast_lock` is free. -/
def unlocked (c : ActorCtx) : Bool := c.monitor = .waiting ∨ c.monitor = .locking

/-- `__nfscd_startup_actor`: `tid` comes from `pthread_create` and `entry` from `malloc`. -/
def startupActor (c : ActorCtx) (entry tid : Nat) : Option ActorCtx :=
  if entry ∈ c.entries ∨ entry = head ∨ tid ∈ c.tids then none
  else do
    let links ← flistAddTail c.links entry head
    some { c with
      links := links
      ast := update c.ast entry ⟨tid, defaultExitStatus⟩
      entries := c.entries ++ [entry]
      tids := c.tids ++ [tid] }

def nfscdStartupActor (c : ActorCtx) (entry tid : Nat) : Option ActorCtx :=
  if c.unlocked then c.startupActor head entry tid else none

/-- `nfscd_notify_actor_exit`, called by a thread that has not reported before. -/
def nfscdNotifyActorExit (c : ActorCtx) (tid : Nat) (status : Int) : Option ActorCtx :=
  if c.unlocked ∧ tid ∈ c.tids ∧ c.reports tid = none then
    some { c with
      ast := fun a => if a ∈ c.listed head ∧ (c.ast a).tid = tid then ⟨tid, status⟩ else c.ast a
      reports := update c.reports tid (some status)
      exitNotify := c.exitNotify + 1 }
  else none

/-- The joined entry is taken out and its status printed. -/
def takeOut (c : ActorCtx) (links : Links Nat) (iter : Nat) : ActorCtx :=
  let exitstat := (c.ast iter).exitstat
  { c with
    links := links
    removed := c.removed ++ [iter]
    printed := if 0 < exitstat then c.printed ++ [exitstat] else c.printed }

/-- A thread that exited due to a condition it could not handle is restarted. -/
def restart (c : ActorCtx) (iter entry tid : Nat) : Option ActorCtx :=
  if (c.ast iter).exitstat < defaultExitStatus then do
    let c ← c.startupActor head entry tid
    some { c with replaced := c.replaced ++ [(iter, entry)] }
  else some c

/-- The body of the loop of `nfscd_actor_monitor` after `pthread_join`. -/
def loopBody (c : ActorCtx) (iter tmp entry tid : Nat) : Option ActorCtx := do
  let links ← flistDel c.links iter
  let c ← (c.takeOut links iter).restart head iter entry tid
  let next ← c.links.next tmp
  some { c with monitor := .looping tmp next }

/-- One step of `nfscd_actor_monitor`. A thread that has reported returns, so joining it ends; one that
has not is waited for. `entry` and `tid` are for a replacement. -/
def nfscdActorMonitor (c : ActorCtx) (entry tid : Nat) : Option ActorCtx :=
  match c.monitor with
  | .waiting =>
    if c.exitNotify = 0 then none
    else some { c with exitNotify := c.exitNotify - 1, monitor := .locking }
  | .locking => do
    let first ← c.links.next head
    if first = head then some { c with monitor := .waiting }
    else do
      let tmp ← c.links.next first
      some { c with monitor := .looping first tmp }
  | .looping iter tmp =>
    if iter = head then some { c with monitor := .waiting }
    else
      let joined := (c.ast iter).tid
      some { c with
        monitor := .joining iter tmp
        joins := c.joins ++ [(joined, (c.reports joined).isSome)] }
  | .joining iter tmp =>
    if c.reports (c.ast iter).tid = none then none
    else c.loopBody head iter tmp entry tid

end ActorCtx

inductive ActorEvent where
  | startup (entry tid : Nat)
  | exit (tid : Nat) (status : Int)
  | monitor (entry tid : Nat)

def ActorCtx.step (c : ActorCtx) : ActorEvent → Option ActorCtx
  | .startup entry tid => c.nfscdStartupActor head entry tid
  | .exit tid status => c.nfscdNotifyActorExit head tid status
  | .monitor entry tid => c.nfscdActorMonitor head entry tid

def ActorCtx.runEvents (c : ActorCtx) (es : List ActorEvent) : Option ActorCtx :=
  es.foldlM (fun c e => c.step head e) c

end Events

end UnfsClient
