import UnfsClient.Lib.Bytes

/-!
# Encodings

An encoder works on a stream by a sequence of puts and may refuse at any point, with the puts
made so far already in the stream. An `Encoding` records both.
-/

namespace UnfsClient.Lib

/-- One operation on an encoding stream: a four-byte word or a byte string. -/
inductive Put where
  | long (w : UInt32)
  | bytes (b : Bytes)
  deriving DecidableEq, Repr

def Put.toBytes : Put → Bytes
  | .long w => beBytes w
  | .bytes b => b

structure Encoding where
  puts : List Put
  ok : Bool
  deriving DecidableEq, Repr

namespace Encoding

def bytes (e : Encoding) : Bytes := e.puts.flatMap Put.toBytes

/-- Nothing put, nothing refused. -/
def done : Encoding := ⟨[], true⟩

def refused : Encoding := ⟨[], false⟩

def one (p : Put) : Encoding := ⟨[p], true⟩

/-- `e && f` of the C encoders: `f` runs only when `e` was not refused. -/
def andThen (e f : Encoding) : Encoding := if e.ok then ⟨e.puts ++ f.puts, f.ok⟩ else e

lemma andThen_ok (e f : Encoding) : (e.andThen f).ok = true ↔ e.ok = true ∧ f.ok = true := by
  unfold andThen
  split <;> simp_all

lemma andThen_bytes {e f : Encoding} (h : e.ok = true) : (e.andThen f).bytes = e.bytes ++ f.bytes := by
  simp [andThen, h, bytes]

@[simp] lemma one_bytes (p : Put) : (one p).bytes = p.toBytes := by
  simp [one, bytes]

@[simp] lemma one_ok (p : Put) : (one p).ok = true := rfl

end Encoding

end UnfsClient.Lib
