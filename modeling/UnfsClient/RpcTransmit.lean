import UnfsClient.RpcState

/-!
# The transmission path

`add_buffer_list`, `send_buffers` and `writetcp_nb`, and the `xdrrec` stream of glibc that
calls `writetcp_nb`: bytes put on the stream stay in its buffer until a flush succeeds, and
only `xdrrec_endofrecord` closes a record.
-/

namespace UnfsClient

open Lib

def sizeofFragBuffer : Nat := 40

/-- `add_buffer_list` in copying mode: the bytes are stored behind the list node. -/
def addBufferListCopy (E : Env) (w : World) (buf : Bytes) : World × Int :=
  match w.alloc E (sizeofFragBuffer + (1 + buf.length)) with
  | (w, none) => (w, -1)
  | (w, some serial) =>
    let newFrag : FragBuffer := ⟨⟨serial, buf⟩, 0, buf.length⟩
    ({ w with ct := { w.ct with ctSndlist := w.ct.ctSndlist ++ [newFrag] } }, 0)

/-- The socket takes the first `n` bytes of the unsent part of `buf`. -/
def acceptBytes (w : World) (buf : FragBuffer) (n : Nat) : World :=
  let w := { w with ct := { w.ct with ctDatatx := (w.ct.ctDatatx + n) % 2 ^ 64 } }
  w.note (.sent ((buf.fbBase.bytes.drop buf.fbCurrent).take n))

def setSndlist (w : World) (l : List FragBuffer) : World :=
  { w with ct := { w.ct with ctSndlist := l } }

/-- `send_buffers`, consuming one result of `write` a pass. A blocking pass goes back to
`select` and the same buffer, which only delays the next `write`. -/
def sendBuffersLoop (flag : UInt32) : List WriteResult → World → Option (World × Int)
  | [], w =>
    match w.ct.ctSndlist with
    | [] => some ({ w with writes := [] }, 0)
    | _ :: _ => none
  | r :: ws, w =>
    match w.ct.ctSndlist with
    | [] => some ({ w with writes := r :: ws }, 0)
    | buf :: rest =>
      match r with
      | .error => some ({ w with writes := ws }, -1)
      | .eagain =>
        if isBlocking flag then sendBuffersLoop flag ws w else some ({ w with writes := ws }, 0)
      | .wrote n =>
        if buf.fbLen < n then none
        else
          let w := acceptBytes w buf n
          if n < buf.fbLen then
            let buf := { buf with fbCurrent := buf.fbCurrent + n, fbLen := buf.fbLen - n }
            let w := setSndlist w (buf :: rest)
            if isBlocking flag then sendBuffersLoop flag ws w else some ({ w with writes := ws }, 0)
          else sendBuffersLoop flag ws (setSndlist w rest)

def sendBuffers (flag : UInt32) (w : World) : Option (World × Int) :=
  sendBuffersLoop flag w.writes w

def writetcpNb (E : Env) (buf : Bytes) (w : World) : Option (World × Int) :=
  let w := w.note (.queued buf)
  let r := addBufferListCopy E w buf
  if r.2 < 0 then some (r.1, -1)
  else
    match sendBuffers rpcNonblockWait r.1 with
    | none => none
    | some (w, res) => some (w, if res = 0 then buf.length else -1)

def setOut (w : World) (outBuf : Bytes) : World :=
  { w with ct := { w.ct with ctXdrs := { w.ct.ctXdrs with outBuf := outBuf } } }

def setFragSent (w : World) (b : Bool) : World :=
  { w with ct := { w.ct with ctXdrs := { w.ct.ctXdrs with fragSent := b } } }

/-- The fragment that `flush_out` hands to `writetcp_nb`: the marker is filled in before the
bytes put since the last flush. -/
def outFragment (eor : Bool) (outBuf : Bytes) : Bytes :=
  beBytes (UInt32.ofNat outBuf.length ||| if eor then 0x80000000 else 0) ++ outBuf

def flushOut (E : Env) (eor : Bool) (w : World) : Option (World × Bool) :=
  let frag := outFragment eor w.ct.ctXdrs.outBuf
  match writetcpNb E frag w with
  | none => none
  | some (w, res) => if res ≠ frag.length then some (w, false) else some (setOut w [], true)

/-- `xdrrec_putbytes`: a full buffer is flushed when there is a byte left to put. -/
def xdrrecPutbytes (E : Env) : Bytes → World → Option (World × Bool)
  | [], w => some (w, true)
  | b :: bs, w =>
    if w.ct.ctXdrs.outBuf.length < w.ct.ctXdrs.outSize then
      xdrrecPutbytes E bs (setOut w (w.ct.ctXdrs.outBuf ++ [b]))
    else
      match flushOut E false (setFragSent w true) with
      | none => none
      | some (w, false) => some (w, false)
      | some (w, true) => xdrrecPutbytes E bs (setOut w (w.ct.ctXdrs.outBuf ++ [b]))

def xdrrecPutlong (E : Env) (word : UInt32) (w : World) : Option (World × Bool) :=
  if w.ct.ctXdrs.outBuf.length + 4 ≤ w.ct.ctXdrs.outSize then
    some (setOut w (w.ct.ctXdrs.outBuf ++ beBytes word), true)
  else
    match flushOut E false (setFragSent w true) with
    | none => none
    | some (w, false) => some (w, false)
    | some (w, true) => some (setOut w (w.ct.ctXdrs.outBuf ++ beBytes word), true)

/-- `xdrrec_endofrecord(xdrs, TRUE)`. -/
def xdrrecEndofrecord (E : Env) (w : World) : Option (World × Bool) :=
  flushOut E true (setFragSent w false)

def xdrrecPut (E : Env) : Put → World → Option (World × Bool)
  | .long word, w => xdrrecPutlong E word w
  | .bytes b, w => xdrrecPutbytes E b w

/-- The puts of an encoder, up to the first that the stream refuses. -/
def xdrrecPuts (E : Env) : List Put → World → Option (World × Bool)
  | [], w => some (w, true)
  | p :: ps, w =>
    match xdrrecPut E p w with
    | none => none
    | some (w, false) => some (w, false)
    | some (w, true) => xdrrecPuts E ps w

/-- An encoder on the stream: it also fails when it refuses its value. -/
def xdrrecEncode (E : Env) (e : Encoding) (w : World) : Option (World × Bool) :=
  match xdrrecPuts E e.puts w with
  | none => none
  | some (w, sent) => some (w, sent && e.ok)

end UnfsClient
