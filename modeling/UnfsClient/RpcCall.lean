import UnfsClient.RpcReceive

/-!
# Calls, callbacks and runs

`clnttcp_nb_call`, callbacks that use the handle they are run for, and runs of a handle. A
callback is a `Script` of further calls and receives, which may depend on what these return
and on everything that happened before. Running it goes through the same functions again, so
`reentrant` is defined by recursion on the nesting depth.
-/

namespace UnfsClient

open Lib

def sizeofCallbackInfo : Nat := 16

/-- The static header `ct_mcall`, of which `ct_mpos` = 20 bytes are sent. -/
def ctMcall (ct : CtData) : Bytes := leBytes ct.ctXid ++ ct.ctMcallRest

/-- The encode chain of `clnttcp_nb_call`. -/
def encodeCall (E : Env) (rpc : RpcProcInfo) (w : World) : Option (World × Bool) :=
  match xdrrecPutbytes E (ctMcall w.ct) w with
  | none => none
  | some (w, false) => some (w, false)
  | some (w, true) =>
    match xdrrecPutlong E rpc.proc.toUInt32 w with
    | none => none
    | some (w, false) => some (w, false)
    | some (w, true) =>
      match xdrrecEncode E w.ct.clAuth w with
      | none => none
      | some (w, false) => some (w, false)
      | some (w, true) =>
        match xdrrecEncode E rpc.inargs w with
        | none => none
        | some (w, false) => some (w, false)
        | some (w, true) => xdrrecEndofrecord E w

/-- `--(*xid)` on the host word and `ght_insert` under its network-order value. -/
def registerCall (cbi : Cbi) (w : World) : World :=
  let xid := w.ct.ctXid - 1
  let r := ghtInsert w.ct.ctXidToUcb cbi (leBytes (byteSwap xid))
  let w := { w with ct := { w.ct with ctXid := xid, ctXidToUcb := r.1 } }
  w.note (.registered cbi (byteSwap xid) r.2)

def clnttcpNbCall (E : Env) (exec : Exec) (rpc : RpcProcInfo) (ucbi : CallbackInfo)
    (callflag : UInt64) (w : World) : Option (World × ClntStat) :=
  match w.alloc E sizeofCallbackInfo with
  | (w, none) => some (w, .systemError)
  | (w, some serial) =>
    let cbi : Cbi := ⟨serial, ucbi⟩
    let w := registerCall cbi w
    match encodeCall E rpc w with
    | none => none
    | some (w, false) => some (w, .cantEncodeArgs)
    | some (w, true) =>
      let w := { w with ct := { w.ct with ctPendingcalls := cInt (w.ct.ctPendingcalls + 1) } }
      let w := w.note (.issued cbi (byteSwap w.ct.ctXid) rpc)
      let callflag := if callflag = rpcDefaultFlags then w.ct.ctSockflags else callflag
      match clnttcpNbReceive E exec callflag.toUInt32 w with
      | none => none
      | some (w, _) => some (w, .success)

inductive Script where
  | done
  | call (rpc : RpcProcInfo) (ucbi : CallbackInfo) (callflag : UInt64) (k : ClntStat → Script)
  | receive (flag : UInt32) (k : Int → Script)

/-- What a callback does, given its registration, the reply and the history. -/
abbrev Behaviour := Cbi → Bytes → List Event → Script

def runScript (E : Env) (exec : Exec) : Script → World → Option World
  | .done, w => some w
  | .call rpc ucbi callflag k, w =>
    match clnttcpNbCall E exec rpc ucbi callflag w with
    | none => none
    | some (w, stat) => runScript E exec (k stat) w
  | .receive flag k, w =>
    match clnttcpNbReceive E exec flag w with
    | none => none
    | some (w, calledBack) => runScript E exec (k calledBack) w

/-- Callbacks that act by `B`, nested at most `n` deep. -/
def reentrant (E : Env) (B : Behaviour) : Nat → Exec
  | 0 => fun _ _ _ => none
  | n + 1 => fun cbi body w =>
    match runScript E (reentrant E B n) (B cbi body w.log) { w with depth := w.depth + 1 } with
    | none => none
    | some w' => some { w' with depth := w.depth }

/-- An API call together with the results `read` and `write` return during it. -/
inductive Op where
  | call (rpc : RpcProcInfo) (ucbi : CallbackInfo) (callflag : UInt64)
      (reads : List ReadResult) (writes : List WriteResult)
  | receive (flag : UInt32) (reads : List ReadResult) (writes : List WriteResult)

def Op.run (E : Env) (exec : Exec) : Op → World → Option World
  | .call rpc ucbi callflag reads writes, w =>
    (clnttcpNbCall E exec rpc ucbi callflag { w with reads := reads, writes := writes }).map Prod.fst
  | .receive flag reads writes, w =>
    (clnttcpNbReceive E exec flag { w with reads := reads, writes := writes }).map Prod.fst

def runOps (E : Env) (exec : Exec) : List Op → World → Option World
  | [], w => some w
  | op :: ops, w =>
    match op.run E exec w with
    | none => none
    | some w => runOps E exec ops w

inductive Created : CtData → Prop where
  | blocking (xid prog vers sbufsz rbufsz : UInt32) (auth : Encoding) (junk : RpcRecordState) :
      Created (clnttcpBCreate xid prog vers sbufsz rbufsz auth junk)
  | nonblocking (xid prog vers sbufsz rbufsz : UInt32) (auth : Encoding) (junk : RpcRecordState) :
      Created (clnttcpNbCreate xid prog vers sbufsz rbufsz auth junk)

/-- A handle before its first call. -/
def World.start (ct : CtData) : World := ⟨ct, [], [], 0, 0, []⟩

/-- A read buffer of these bytes is handed to `update_frag_state`. -/
def feedBuffer (E : Env) (exec : Exec) (b : Bytes) (w : World) : Option World :=
  (updateFragState E exec b.length (w.loadReadbuf b)).map Prod.fst

def feedBuffers (E : Env) (exec : Exec) : List Bytes → World → Option World
  | [], w => some w
  | b :: bs, w =>
    match feedBuffer E exec b w with
    | none => none
    | some w => feedBuffers E exec bs w

end UnfsClient
