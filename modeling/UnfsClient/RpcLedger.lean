import UnfsClient.RpcCall

/-!
# The memory of the reception path

For each function of the reception path, the blocks it obtains from `mem_alloc` and `malloc`
and the blocks it hands to `mem_free` and `free`, in order. A list node and the payload it
points at are separate blocks. What callbacks allocate for themselves is not listed.
-/

namespace UnfsClient

open Lib

/-- The block of a fragment, the list node of the fragment in that block, a collated record, and
the copy of a `callback_info`. -/
inductive HeapBlock where
  | payload (serial : Nat)
  | node (serial : Nat)
  | message (serial : Nat)
  | callback (serial : Nat)
  deriving DecidableEq, Repr

inductive MemOp where
  | alloc (b : HeapBlock)
  | free (b : HeapBlock)
  deriving DecidableEq, Repr

/-- Fragment blocks come from `mem_alloc(rs->rs_frag_bufsz)`. -/
def updateNewFragStateOps (E : Env) (w : World) (consumed bufsz : Int) : List MemOp :=
  match collectMarker w consumed bufsz with
  | (w, _) =>
    if w.rs.rsFhRemaining ≠ 0 then []
    else
      match w.alloc E (fragSize (fraghdrWord w.rs.rsFraghdr)).toNat with
      | (_, none) => []
      | (_, some serial) => [.alloc (.payload serial)]

/-- `add_buffer_list` without copying: only the node is allocated. -/
def addFragmentOps (E : Env) (w : World) : List MemOp :=
  match w.rs.rsFragBufBase with
  | none => []
  | some block =>
    match w.alloc E sizeofFragBuffer with
    | (_, none) => []
    | (_, some _) => [.alloc (.node block.serial)]

/-- `collate_buf_list` frees the nodes, `free(fbuf)`, as it copies their payloads. -/
def collateBufListOps (E : Env) (w : World) : List MemOp :=
  match w.alloc E (cUlong w.rs.rsRecordsize) with
  | (_, none) => []
  | (_, some serial) => .alloc (.message serial) :: w.rs.rsFragList.map fun fb => .free (.node fb.fbBase.serial)

/-- `free(cbi)`, after the callback. -/
def dispatchReplyOps (E : Env) (rpcMsg : Bytes) (w : World) : List MemOp :=
  match E.xdrReplymsg rpcMsg with
  | none => []
  | some (xid, _) =>
    match takeCallback w.ct.ctXidToUcb xid with
    | (_, none) => []
    | (_, some cbi) => [.free (.callback cbi.serial)]

def callUserCbOps (E : Env) (w : World) : List MemOp :=
  collateBufListOps E w ++
    match collateBufList E w with
    | (_, none) => []
    | (v, some rpcMsg) => dispatchReplyOps E rpcMsg v ++ [.free (.message w.serial)]

def updateRecordStateOps (E : Env) (w : World) : List MemOp :=
  let v := addFragment E w
  let v := v.setRs { v.rs with rsRecordsize := cInt (v.rs.rsRecordsize + v.rs.rsFragBufsz) }
  addFragmentOps E w ++ if v.rs.rsLastFrag then callUserCbOps E v else []

def closeCurrentOps (E : Env) (w : World) : List MemOp :=
  if w.rs.rsFragOffset = w.rs.rsFragBufsz ∧ w.rs.rsFragRemaining = 0 then updateRecordStateOps E w else []

def startNextOps (E : Env) (bufsz : Int) (w : World) (consumed : Int) : List MemOp :=
  if consumed < bufsz then updateNewFragStateOps E w consumed (bufsz - consumed) else []

def fragPassOps (E : Env) (exec : Exec) (bufsz : Int) (w : World) (consumed : Int) : List MemOp :=
  match copyPayload w consumed bufsz with
  | (w, consumed) =>
    closeCurrentOps E w ++
      match closeCurrent E exec w with
      | none => []
      | some (w, _) => startNextOps E bufsz w consumed

def fragLoopOps (E : Env) (exec : Exec) (bufsz : Int) : Nat → World → Int → List MemOp
  | fuel, w, consumed =>
    if bufsz > consumed then
      match fuel with
      | 0 => []
      | fuel + 1 =>
        fragPassOps E exec bufsz w consumed ++
          match fragPass E exec bufsz w consumed with
          | none => []
          | some (w, consumed, _) => fragLoopOps E exec bufsz fuel w consumed
    else []

def updateFragStateOps (E : Env) (exec : Exec) (bufsz : Int) (w : World) : List MemOp :=
  fragLoopOps E exec bufsz (bufsz.toNat + E.slack) w 0

def feedBuffersOps (E : Env) (exec : Exec) : List Bytes → World → List MemOp
  | [], _ => []
  | b :: bs, w =>
    updateFragStateOps E exec b.length (w.loadReadbuf b) ++
      match feedBuffer E exec b w with
      | none => []
      | some w => feedBuffersOps E exec bs w

def MemOp.apply (live : List HeapBlock) : MemOp → List HeapBlock
  | .alloc b => live ++ [b]
  | .free b => live.erase b

def HeapBlock.payload? : HeapBlock → Option Nat
  | .payload serial => some serial
  | _ => none

/-- The fragment blocks obtained and not freed. -/
def payloadLedger (ops : List MemOp) : List Nat := (ops.foldl MemOp.apply []).filterMap HeapBlock.payload?

/-- The block of the fragment that is being received. -/
def currentBlock (rs : RpcRecordState) : List Nat :=
  if rs.rsFragRemaining = expectNewFrag then [] else (rs.rsFragBufBase.map Block.serial).toList

/-- The blocks that `rs_frag_list` points at. -/
def linkedBlocks (rs : RpcRecordState) : List Nat := rs.rsFragList.map fun fb => fb.fbBase.serial

end UnfsClient
