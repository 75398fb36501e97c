import UnfsClient.HashTable
import UnfsClient.Lib.Encoding

/-!
# The state of an RPC handle

The types of `clnt_tcp_nb.c` and `clnt_tcp_nb.h`, what the operating system and glibc supply,
and the state `clnttcp_b_create` sets up. `World` is a handle together with the pending results
of `read` and `write` and a log of what the client has done. What the callback table itself allocates,
entries and buckets, is granted.
-/

namespace UnfsClient

open Lib

def rpcRecordHeader : Int := 4
def expectNewFrag : Int := -1
def defaultSockrwSize : Int := 32768
def bucketXid : Nat := 100

def rpcBlockingWait : UInt32 := 0x0
def rpcNonblockWait : UInt32 := 0x1
def rpcNoTxFlush : UInt32 := 0x2
def rpcNoRx : UInt32 := 0x4
/-- `RPC_DEFAULT_FLAGS`, the `int64_t` value -1. -/
def rpcDefaultFlags : UInt64 := 0xffffffffffffffff

def isNonblocking (flag : UInt32) : Bool := flag &&& rpcNonblockWait != 0
def isBlocking (flag : UInt32) : Bool := !isNonblocking flag
def flushTxBuffer (flag : UInt32) : Bool := !(flag &&& rpcNoTxFlush != 0)
def readRpcResponse (flag : UInt32) : Bool := !(flag &&& rpcNoRx != 0)

/-- `FRAG_SIZE`. -/
def fragSize (hdr : UInt32) : UInt32 := hdr &&& 0x7fffffff
/-- `LAST_FRAG`. -/
def lastFrag (hdr : UInt32) : UInt32 := hdr &&& 0x80000000

inductive ClntStat where
  | success
  | cantEncodeArgs
  | systemError
  deriving DecidableEq, Repr

/-- A function pointer, null when `none`, and the pointer it is called with. -/
structure CallbackInfo where
  callback : Option Nat
  cbPrivate : Nat
  deriving DecidableEq, Repr

/-- The copy of a `callback_info` that `clnttcp_nb_call` allocates; the serial number of the
allocation tells two registrations apart. -/
structure Cbi where
  serial : Nat
  info : CallbackInfo
  deriving DecidableEq, Repr

/-- The procedure number and what `(*rpc.inproc)(xdrs, rpc.inargs)` puts on a stream. -/
structure RpcProcInfo where
  proc : UInt64
  inargs : Encoding
  deriving DecidableEq, Repr

/-- An allocated block: its serial number and the bytes stored in it from the start. -/
structure Block where
  serial : Nat
  bytes : Bytes
  deriving DecidableEq, Repr

/-- `fb_current` is an offset into the block at `fb_base`. -/
structure FragBuffer where
  fbBase : Block
  fbCurrent : Nat
  fbLen : Int
  deriving DecidableEq, Repr

structure RpcRecordState where
  rsFragList : List FragBuffer
  rsRecordsize : Int
  rsFragRemaining : Int
  rsFragBufBase : Option Block
  rsFragBufsz : Nat
  rsFragOffset : Nat
  rsFhRemaining : Int
  rsFraghdr : Fin 4 → UInt8
  rsLastFrag : Bool
  deriving DecidableEq

/-- The output side of an `xdrrec` stream: the bytes put since the last flush, how many of them
its buffer holds, and whether a part of the current record has been flushed already. -/
structure XdrRec where
  outBuf : Bytes
  outSize : Nat
  fragSent : Bool
  deriving DecidableEq, Repr

/-- `struct ct_data` with the authenticator of its handle. `ctXid` is the first word of `ct_mcall`
as the little-endian host loads it, `ctMcallRest` the rest of the static header. -/
structure CtData where
  ctXdrs : XdrRec
  clAuth : Encoding
  ctXid : UInt32
  ctMcallRest : Bytes
  ctDatatx : Nat
  ctDatarx : Nat
  ctSndlist : List FragBuffer
  ctRecordState : RpcRecordState
  ctRbufsz : Int
  ctReadbuf : Bytes
  ctXidToUcb : GhtHashTable Cbi
  ctSockflags : UInt64
  ctPendingcalls : Int

/-- What a `read` returns: bytes, end of stream, or -1. -/
inductive ReadResult where
  | data (b : Bytes)
  | eof
  | error
  deriving DecidableEq, Repr

/-- What a `write` returns: a count, -1 with `EAGAIN`, or -1 with another `errno`. -/
inductive WriteResult where
  | wrote (n : Nat)
  | eagain
  | error
  deriving DecidableEq, Repr

/-- Steps of a run worth remembering. -/
inductive Event where
  /-- A `read` at a callback nesting depth. -/
  | read (depth : Nat) (r : ReadResult)
  /-- Four marker bytes are complete. -/
  | marker
  /-- Bytes stored in the current fragment. -/
  | stored (n : Nat)
  /-- `call_user_cb` runs on these payloads, with this `rs_recordsize`. -/
  | record (frags : List Bytes) (size : Int)
  /-- The buffer `collate_buf_list` returns and how far its copies ran past it. -/
  | collated (msg : Bytes) (overrun : Nat)
  /-- A callback entry is taken out of the table. -/
  | taken (cbi : Cbi)
  /-- A callback runs for a record with this `rm_xid`, on the bytes after the reply header. -/
  | ran (cbi : Cbi) (xid : UInt64) (body : Bytes)
  /-- `ght_insert` is called for this entry and host-order xid, with this result. -/
  | registered (cbi : Cbi) (xid : UInt32) (res : Int)
  /-- A call of this xid has been encoded and counted. -/
  | issued (cbi : Cbi) (xid : UInt32) (rpc : RpcProcInfo)
  /-- A buffer is passed to `writetcp_nb`. -/
  | queued (b : Bytes)
  /-- The socket accepts these bytes. -/
  | sent (b : Bytes)
  deriving DecidableEq, Repr

/-- What the code relies on from outside: which allocations succeed (by serial number and
size), what fresh memory contains, the reply decoder of glibc (`rm_xid` and the bytes
that follow the header), and how many passes that consume nothing a run may make through the
loop of `update_frag_state`. -/
structure Env where
  memAlloc : Nat → Nat → Bool
  uninit : Nat → UInt8
  xdrReplymsg : Bytes → Option (UInt64 × Bytes)
  slack : Nat

def AllocsSucceed (E : Env) : Prop := ∀ serial size, E.memAlloc serial size = true

structure World where
  ct : CtData
  reads : List ReadResult
  writes : List WriteResult
  serial : Nat
  depth : Nat
  log : List Event

/-- What running a callback does to the handle; `none` when it never returns. -/
abbrev Exec := Cbi → Bytes → World → Option World

/-- Callbacks that do not touch the handle. -/
def noReentry : Exec := fun _ _ w => some w

namespace World

def rs (w : World) : RpcRecordState := w.ct.ctRecordState

def setRs (w : World) (rs : RpcRecordState) : World :=
  { w with ct := { w.ct with ctRecordState := rs } }

def note (w : World) (e : Event) : World := { w with log := w.log ++ [e] }

def tick (w : World) : World := { w with serial := w.serial + 1 }

/-- `mem_alloc` and `malloc`: the serial number of the block, or null. -/
def alloc (E : Env) (w : World) (size : Nat) : World × Option Nat :=
  (w.tick, if E.memAlloc w.serial size then some w.serial else none)

@[simp] lemma setRs_rs (w : World) (rs : RpcRecordState) : (w.setRs rs).rs = rs := rfl

@[simp] lemma setRs_log (w : World) (rs : RpcRecordState) : (w.setRs rs).log = w.log := rfl

@[simp] lemma note_rs (w : World) (e : Event) : (w.note e).rs = w.rs := rfl

@[simp] lemma note_log (w : World) (e : Event) : (w.note e).log = w.log ++ [e] := rfl

@[simp] lemma note_serial (w : World) (e : Event) : (w.note e).serial = w.serial := rfl

@[simp] lemma tick_rs (w : World) : w.tick.rs = w.rs := rfl

@[simp] lemma tick_ct (w : World) : w.tick.ct = w.ct := rfl

@[simp] lemma tick_log (w : World) : w.tick.log = w.log := rfl

lemma alloc_of_succeeds {E : Env} (hE : AllocsSucceed E) (w : World) (size : Nat) :
    w.alloc E size = (w.tick, some w.serial) := by
  simp [alloc, hE w.serial size]

end World

/-- `expect_new_rpc_record`. -/
def expectNewRpcRecord (rs : RpcRecordState) : RpcRecordState :=
  { rs with rsFhRemaining := rpcRecordHeader, rsFragRemaining := expectNewFrag, rsRecordsize := 0 }

/-- The room `xdrrec_create` gives the payload of an outgoing fragment: the requested size,
4000 when it is below 100, rounded up to whole words, less the marker. -/
def recOutSize (sbufsz : Nat) : Nat :=
  (if sbufsz < 100 then 4000 else (sbufsz + 3) / 4 * 4) - 4

/-- The handle of `clnttcp_b_create` for the xid that `create_xid` returned. `junk` is what
the freshly allocated `ct_data` holds where nothing is assigned. -/
def clnttcpBCreate (xid prog vers sbufsz rbufsz : UInt32) (auth : Encoding)
    (junk : RpcRecordState) : CtData where
  ctXdrs := ⟨[], recOutSize sbufsz.toNat, false⟩
  clAuth := auth
  ctXid := byteSwap xid
  ctMcallRest := beBytes 0 ++ beBytes 2 ++ beBytes prog ++ beBytes vers
  ctDatatx := 0
  ctDatarx := 0
  ctSndlist := []
  ctRecordState :=
    { expectNewRpcRecord junk with
      rsFragBufBase := none, rsFragBufsz := 0, rsFragOffset := 0, rsFragList := [] }
  ctRbufsz := if rbufsz = 0 then defaultSockrwSize else cInt rbufsz.toNat
  ctReadbuf := []
  ctXidToUcb := ghtCreate Cbi bucketXid
  ctSockflags := rpcBlockingWait.toUInt64
  ctPendingcalls := 0

/-- `clnttcp_nb_create`, on a socket whose `fcntl` succeeds. -/
def clnttcpNbCreate (xid prog vers sbufsz rbufsz : UInt32) (auth : Encoding)
    (junk : RpcRecordState) : CtData :=
  let ct := clnttcpBCreate xid prog vers sbufsz rbufsz auth junk
  { ct with ctSockflags := ct.ctSockflags ||| rpcNonblockWait.toUInt64 }

end UnfsClient
