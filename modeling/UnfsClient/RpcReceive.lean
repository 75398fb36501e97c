import UnfsClient.RpcTransmit

/-!
# The reception path

`update_new_frag_state`, `collate_buf_list`, `call_user_cb`, `update_record_state`,
`update_frag_state`, `rpc_cb` and `clnttcp_nb_receive`. The parser reads `ct_readbuf` afresh in
every pass, since a callback may have had it overwritten. The functions that can reach a
callback take what running one does to the handle as a parameter.
-/

namespace UnfsClient

open Lib

/-- `memcpy(&rs->rs_fraghdr[0], buf, rm_len)`. -/
def copyFraghdr (hdr : Fin 4 → UInt8) (src : Bytes) : Fin 4 → UInt8 :=
  fun i => (src[i.val]?).getD (hdr i)

/-- `ntohl` of the collected marker. -/
def fraghdrWord (hdr : Fin 4 → UInt8) : UInt32 := beWord (hdr 0) (hdr 1) (hdr 2) (hdr 3)

/-- `n` bytes of the read buffer from `consumed` on. -/
def readSlice (w : World) (consumed n : Int) : Bytes :=
  (w.ct.ctReadbuf.drop consumed.toNat).take n.toNat

/-- `rm_len` of `update_new_frag_state`. -/
def rmLen (rs : RpcRecordState) (bufsz : Int) : Int :=
  if bufsz < rs.rsFhRemaining then bufsz else rs.rsFhRemaining

/-- The part of `update_new_frag_state` that collects marker bytes. Every chunk of them goes to
the start of `rs_fraghdr`. -/
def collectMarker (w : World) (consumed bufsz : Int) : World × Int :=
  let rs := w.rs
  if rs.rsFhRemaining ≠ 0 then
    let n := rmLen rs bufsz
    let w := w.setRs { rs with
      rsFraghdr := copyFraghdr rs.rsFraghdr (readSlice w consumed n)
      rsFhRemaining := cInt (rs.rsFhRemaining - n) }
    (if w.rs.rsFhRemaining = 0 then w.note .marker else w, n)
  else (w, 0)

/-- `update_new_frag_state` on `bufsz` bytes of the read buffer from `consumed` on. -/
def updateNewFragState (E : Env) (w : World) (consumed bufsz : Int) : World × Int :=
  match collectMarker w consumed bufsz with
  | (w, n) =>
    if w.rs.rsFhRemaining ≠ 0 then (w, n)
    else
      let hdr := fraghdrWord w.rs.rsFraghdr
      let rs := { w.rs with
        rsFragBufsz := (fragSize hdr).toNat
        rsLastFrag := lastFrag hdr != 0 }
      match w.alloc E rs.rsFragBufsz with
      | (w, none) => (w.setRs { rs with rsFragBufBase := none }, 0)
      | (w, some serial) =>
        (w.setRs { rs with
          rsFragBufBase := some ⟨serial, []⟩
          rsFragRemaining := rs.rsFragBufsz
          rsFragOffset := 0 }, n)

/-- The `fb_len` bytes at the `fb_base` of each fragment. -/
def fragPayloads (l : List FragBuffer) : List Bytes :=
  l.map fun fb => fb.fbBase.bytes.take fb.fbLen.toNat

/-- `collate_buf_list`: the buffer it returns holds `rs_recordsize` bytes, whatever the
copies write; bytes they do not reach are indeterminate. Bytes copied past its end are
counted in the log, and what they overwrite there is not modelled. -/
def collateBufList (E : Env) (w : World) : World × Option Bytes :=
  let bufsize := cUlong w.rs.rsRecordsize
  match w.alloc E bufsize with
  | (w, none) => (w, none)
  | (w, some _) =>
    let out := (fragPayloads w.rs.rsFragList).flatten
    let msg := out.take bufsize ++
      (List.range (bufsize - out.length)).map fun i => E.uninit (out.length + i)
    let w := w.setRs { w.rs with rsFragList := [] }
    (w.note (.collated msg (out.length - bufsize)), some msg)

def leWord : Bytes → UInt32
  | [b₀, b₁, b₂, b₃] => beWord b₃ b₂ b₁ b₀
  | _ => 0

/-- The lookup of `call_user_cb`: the cached oldest entry when its key is the xid, else the
entry of that key; the entry found is taken out. -/
def takeCallback (t : GhtHashTable Cbi) (xid : UInt64) : GhtHashTable Cbi × Option Cbi :=
  match ghtFirst t with
  | (none, _) => (t, none)
  | (some _, cachedXid) =>
    if (leWord cachedXid).toUInt64 ≠ xid then ghtRemove t (leBytes xid.toUInt32)
    else ghtRemoveFirst t

/-- The rest of `call_user_cb`, on the collated record. -/
def dispatchReply (E : Env) (exec : Exec) (rpcMsg : Bytes) (w : World) : Option World :=
  match E.xdrReplymsg rpcMsg with
  | none => some w
  | some (xid, body) =>
    let w := { w with ct := { w.ct with ctDatarx := (w.ct.ctDatarx + rpcMsg.length) % 2 ^ 64 } }
    match takeCallback w.ct.ctXidToUcb xid with
    | (_, none) => some w
    | (t, some cbi) =>
      let w := { w with ct := { w.ct with ctXidToUcb := t } }
      let w := w.note (.taken cbi)
      match cbi.info.callback with
      | none => some w
      | some _ => exec cbi body (w.note (.ran cbi xid body))

def callUserCb (E : Env) (exec : Exec) (w : World) : Option World :=
  let w := w.note (.record (fragPayloads w.rs.rsFragList) w.rs.rsRecordsize)
  match collateBufList E w with
  | (w, none) => some w
  | (w, some rpcMsg) => dispatchReply E exec rpcMsg w

/-- `add_buffer_list(&rs->rs_frag_list, rs->rs_frag_buf_base, rs->rs_frag_bufsz, TRUE)`: the
node points at the payload block. Its result is ignored. -/
def addFragment (E : Env) (w : World) : World :=
  match w.rs.rsFragBufBase with
  | none => w
  | some block =>
    match w.alloc E sizeofFragBuffer with
    | (w, none) => w
    | (w, some _) =>
      let newFrag : FragBuffer := ⟨block, 0, cInt w.rs.rsFragBufsz⟩
      w.setRs { w.rs with rsFragList := w.rs.rsFragList ++ [newFrag] }

def updateRecordState (E : Env) (exec : Exec) (w : World) : Option (World × Int) :=
  let w := addFragment E w
  let w := w.setRs { w.rs with rsRecordsize := cInt (w.rs.rsRecordsize + w.rs.rsFragBufsz) }
  if w.rs.rsLastFrag then
    match callUserCb E exec w with
    | none => none
    | some w => some (w.setRs (expectNewRpcRecord w.rs), 1)
  else some (w.setRs (expectNewRpcRecord w.rs), 0)

/-- `tocopy` of `update_frag_state`. -/
def fragTocopy (rs : RpcRecordState) (consumed bufsz : Int) : Int :=
  cInt (if bufsz - consumed < rs.rsFragRemaining then bufsz - consumed else rs.rsFragRemaining)

/-- The first branch of the loop: payload bytes go to the current fragment. -/
def copyPayload (w : World) (consumed bufsz : Int) : World × Int :=
  let rs := w.rs
  if rs.rsFragRemaining > 0 then
    let tocopy := fragTocopy rs consumed bufsz
    let src := readSlice w consumed tocopy
    let w := w.setRs { rs with
      rsFragBufBase := rs.rsFragBufBase.map fun b => { b with bytes := memcpy b.bytes rs.rsFragOffset src }
      rsFragRemaining := cLong (rs.rsFragRemaining - tocopy)
      rsFragOffset := cUlong (rs.rsFragOffset + tocopy) }
    (w.note (.stored tocopy.toNat), cInt (consumed + tocopy))
  else (w, consumed)

/-- The second branch of the loop: a fragment that has all of its payload goes a layer up. -/
def closeCurrent (E : Env) (exec : Exec) (w : World) : Option (World × Int) :=
  if w.rs.rsFragOffset = w.rs.rsFragBufsz ∧ w.rs.rsFragRemaining = 0 then
    updateRecordState E exec w
  else some (w, 0)

/-- The third branch of the loop: a new fragment begins in the middle of the buffer. -/
def startNext (E : Env) (bufsz : Int) (w : World) (consumed : Int) : World × Int :=
  if consumed < bufsz then
    let r := updateNewFragState E w consumed (bufsz - consumed)
    (r.1, cInt (consumed + r.2))
  else (w, consumed)

/-- One pass through the loop of `update_frag_state`: the new state, `consumed`, and what the
pass adds to `called_back`. -/
def fragPass (E : Env) (exec : Exec) (bufsz : Int) (w : World) (consumed : Int) :
    Option (World × Int × Int) :=
  match copyPayload w consumed bufsz with
  | (w, consumed) =>
    match closeCurrent E exec w with
    | none => none
    | some (w, called) =>
      match startNext E bufsz w consumed with
      | (w, consumed) => some (w, consumed, called)

/-- `while(bufsz > consumed)`. -/
def fragLoop (E : Env) (exec : Exec) (bufsz : Int) : Nat → World → Int → Int → Option (World × Int)
  | fuel, w, consumed, calledBack =>
    if bufsz > consumed then
      match fuel with
      | 0 => none
      | fuel + 1 =>
        match fragPass E exec bufsz w consumed with
        | none => none
        | some (w, consumed, called) => fragLoop E exec bufsz fuel w consumed (calledBack + called)
    else some (w, calledBack)

/-- `update_frag_state(ct, ct->ct_readbuf, bufsz)`: the number of records completed. -/
def updateFragState (E : Env) (exec : Exec) (bufsz : Int) (w : World) : Option (World × Int) :=
  fragLoop E exec bufsz (bufsz.toNat + E.slack) w 0 0

/-- `read` has stored these bytes in the read buffer. -/
def World.loadReadbuf (w : World) (b : Bytes) : World :=
  { w with ct := { w.ct with ctReadbuf := memcpy w.ct.ctReadbuf 0 b } }

/-- `read(fd, rbuf, toread)`: the next result, the bytes stored in the read buffer. A result
that the call cannot return is none. -/
def readSocket (w : World) : Option (World × ReadResult) :=
  match w.reads with
  | [] => none
  | r :: rs =>
    let w := { w with reads := rs }.note (.read w.depth r)
    match r with
    | .data b =>
      if 0 < b.length ∧ (b.length : Int) ≤ w.ct.ctRbufsz then
        some (w.loadReadbuf b, .data b)
      else none
    | .eof => some (w, .eof)
    | .error => some (w, .error)

/-- The read loop of `rpc_cb`. `select` only delays the `read` that follows it. -/
def rpcCbLoop (E : Env) (exec : Exec) (flag : UInt32) : Nat → World → Option (World × Int)
  | 0, _ => none
  | fuel + 1, w =>
    match readSocket w with
    | none => none
    | some (w, .eof) => some (w, 0)
    | some (w, .error) => some (w, 0)
    | some (w, .data b) =>
      match updateFragState E exec b.length w with
      | none => none
      | some (w, calledBack) =>
        if calledBack ≠ 0 then some (w, calledBack)
        else if isNonblocking w.ct.ctSockflags.toUInt32 && isNonblocking flag then some (w, calledBack)
        else rpcCbLoop E exec flag fuel w

def rpcCb (E : Env) (exec : Exec) (flag : UInt32) (w : World) : Option (World × Int) :=
  rpcCbLoop E exec flag w.reads.length w

/-- The first step of `clnttcp_nb_receive`; what `send_buffers` returns is ignored. -/
def flushSndlist (flag : UInt32) (w : World) : Option World :=
  if flushTxBuffer flag then (sendBuffers flag w).map Prod.fst else some w

def clnttcpNbReceive (E : Env) (exec : Exec) (flag : UInt32) (w : World) : Option (World × Int) :=
  match flushSndlist flag w with
  | none => none
  | some w =>
    if w.ct.ctPendingcalls = 0 then some (w, 0)
    else if readRpcResponse flag then
      match rpcCb E exec flag w with
      | none => none
      | some (w, calledBack) =>
        let pending := cInt (w.ct.ctPendingcalls - calledBack)
        some ({ w with ct := { w.ct with ctPendingcalls := pending } }, calledBack)
    else some (w, 0)

end UnfsClient
