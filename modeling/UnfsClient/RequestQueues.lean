import UnfsClient.Lib.Ring

/-!
# The request queues

`flist.h` and the two queues of `nfscd_ops.c`. A call of an enqueue or dequeue function is a
sequence of atomic steps: `sem_wait`, `sem_post`, and what is done under a mutex. Any number of calls
are under way at a time and take their steps in any order. A request is the address of its `list`
member.
-/

namespace UnfsClient

open Lib Function

variable {A : Type} [DecidableEq A]

/-!
## `flist.h`

`none` is the dereference of a null pointer.
-/

def initFlistHead (s : Links A) (ptr : A) : Links A := s.init ptr

def flistAddTail (s : Links A) (newEntry head : A) : Option (Links A) := do
  let prev ← s.prev head
  some (s.add newEntry prev head)

def flistDel (s : Links A) (entry : A) : Option (Links A) := do
  let prev ← s.prev entry
  let next ← s.next entry
  some (s.del entry prev next)

def flistFirst (s : Links A) (head : A) : Option A := s.next head

/-!
## Calls
-/

/-- `md_rq` with `md_notify` and `md_lock`, or `rw_rq` with `rw_notify` and `rw_lock`. -/
inductive RequestQueue where
  | md
  | rw
  deriving DecidableEq

inductive QueueOp (A : Type) where
  | semWait (q : RequestQueue)
  /-- Under the mutex: the first entry is taken out. -/
  | takeFirst (q : RequestQueue)
  | initHead (rq : A)
  /-- The mutex is locked and the request linked in. -/
  | lockAndLink (q : RequestQueue) (rq : A)
  | semPost (q : RequestQueue)
  | unlock (q : RequestQueue)
  deriving DecidableEq

/-- The two dequeue functions differ in their queue. -/
def nfscdDequeueRequest (q : RequestQueue) : List (QueueOp A) := [.semWait q, .takeFirst q]

def nfscdDequeueMetadataRequest : List (QueueOp A) := nfscdDequeueRequest .md
def nfscdDequeueDataRequest : List (QueueOp A) := nfscdDequeueRequest .rw

def nfscdEnqueueRequest (q : RequestQueue) (rq : A) : List (QueueOp A) :=
  [.initHead rq, .lockAndLink q rq, .semPost q, .unlock q]

def nfscdEnqueueMetadataRequest (rq : A) : List (QueueOp A) := nfscdEnqueueRequest .md rq
def nfscdEnqueueDataRequest (rq : A) : List (QueueOp A) := nfscdEnqueueRequest .rw rq

def dequeueCall : RequestQueue → List (QueueOp A)
  | .md => nfscdDequeueMetadataRequest
  | .rw => nfscdDequeueDataRequest

def enqueueCall : RequestQueue → A → List (QueueOp A)
  | .md => nfscdEnqueueMetadataRequest
  | .rw => nfscdEnqueueDataRequest

/-!
## Runs
-/

/-- The queues, what every call under way has still to do, and logs: the requests handed to enqueue
functions, those linked into each queue and those returned from it, in order. -/
structure QueueCtx (A : Type) where
  links : Links A
  notify : RequestQueue → Nat
  locked : RequestQueue → Bool
  calls : List (List (QueueOp A))
  issued : List A
  linked : RequestQueue → List A
  returned : RequestQueue → List A

section Runs

variable (head : RequestQueue → A)

/-- `init_nfsclient_queues`. -/
def initNfsclientQueues (links : Links A) : QueueCtx A where
  links := initFlistHead (initFlistHead links (head .md)) (head .rw)
  notify _ := 0
  locked _ := false
  calls := []
  issued := []
  linked _ := []
  returned _ := []

/-- One atomic step; `none` when the call has to wait, or dereferences a null pointer. -/
def QueueOp.exec (c : QueueCtx A) : QueueOp A → Option (QueueCtx A)
  | semWait q =>
    if c.notify q = 0 then none
    else some { c with notify := update c.notify q (c.notify q - 1) }
  | takeFirst q =>
    if c.locked q then none
    else do
      let elem ← flistFirst c.links (head q)
      let links ← flistDel c.links elem
      some { c with links := links, returned := update c.returned q (c.returned q ++ [elem]) }
  | initHead rq => some { c with links := initFlistHead c.links rq }
  | lockAndLink q rq =>
    if c.locked q then none
    else do
      let links ← flistAddTail c.links rq (head q)
      some { c with
        links := links
        locked := update c.locked q true
        linked := update c.linked q (c.linked q ++ [rq]) }
  | semPost q => some { c with notify := update c.notify q (c.notify q + 1) }
  | unlock q => some { c with locked := update c.locked q false }

inductive QueueEvent (A : Type) where
  | dequeue (q : RequestQueue)
  | enqueue (q : RequestQueue) (rq : A)
  /-- The `i`-th call takes its next step. -/
  | run (i : Nat)

/-- A request that is enqueued is a fresh one. -/
def QueueCtx.step (c : QueueCtx A) : QueueEvent A → Option (QueueCtx A)
  | .dequeue q => some { c with calls := c.calls ++ [dequeueCall q] }
  | .enqueue q rq =>
    if rq ∈ c.issued ∨ rq = head .md ∨ rq = head .rw then none
    else some { c with calls := c.calls ++ [enqueueCall q rq], issued := c.issued ++ [rq] }
  | .run i =>
    match c.calls[i]? with
    | some (op :: rest) => do
      let c' ← op.exec head c
      some { c' with calls := c.calls.set i rest }
    | _ => none

def QueueCtx.runEvents (c : QueueCtx A) (es : List (QueueEvent A)) : Option (QueueCtx A) :=
  es.foldlM (fun c e => c.step head e) c

/-- The dequeue calls that have passed `sem_wait` but not entered the locked section. -/
def QueueCtx.passed (c : QueueCtx A) (q : RequestQueue) : Nat :=
  c.calls.countP fun call => call = [.takeFirst q]

end Runs

end UnfsClient
