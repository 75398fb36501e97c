import UnfsClient.Lib.Encoding
import UnfsClient.Lib.Decoder

/-!
# XDR routines

An XDR routine serves both directions: it encodes a value into a stream and decodes one from a
message. Here a routine carries its law, that the encoding of a value followed by anything is
decoded to that value and leaves what followed, and every combinator derives its law from those
of its parts. The primitives are the ones of the C library.
-/

namespace UnfsClient.Lib

/-- Encodes a `σ` and decodes a `β`: decoding the encoding of `v` gives `part v`. -/
structure Codec (σ β : Type) where
  encode : σ → Encoding
  decode : Decoder β
  /-- Every boolean in the value holds 0 or 1. -/
  boolsOk : σ → Bool
  part : σ → β
  decode_encode : ∀ (v : σ) (s : Bytes), boolsOk v = true → (encode v).ok = true →
    decode ((encode v).bytes ++ s) = some (part v, s)
  streams : decode.Streams

/-- A codec that gives back all it was given. -/
structure XdrProc (α : Type) extends Codec α α where
  part_eq : ∀ v, part v = v

variable {σ α β : Type}

/-!
## Records

A record is encoded field after field. `part` grows with the fields and, once all are there, is
the record again.
-/

namespace Codec

def record (mk : β) : Codec σ β where
  encode _ := .done
  decode := pure mk
  boolsOk _ := true
  part _ := mk
  decode_encode _ _ _ _ := rfl
  streams := .pure mk

def field (c : Codec σ (α → β)) (get : σ → α) (p : XdrProc α) : Codec σ β where
  encode v := (c.encode v).andThen (p.encode (get v))
  decode := do
    let f ← c.decode
    let a ← p.decode
    pure (f a)
  boolsOk v := c.boolsOk v && p.boolsOk (get v)
  part v := c.part v (get v)
  decode_encode v s hb hok := by
    obtain ⟨hbc, hbp⟩ := Bool.and_eq_true_iff.mp hb
    obtain ⟨hc, hp⟩ := (Encoding.andThen_ok _ _).mp hok
    rw [Encoding.andThen_bytes hc, List.append_assoc, Decoder.bind_eq _ (c.decode_encode v _ hbc hc),
      Decoder.bind_eq _ (p.decode_encode _ s hbp hp), p.part_eq]
    rfl
  streams := c.streams.bind fun _ => p.streams.bind fun _ => .pure _

/-- A record that is not refused puts its fields one after the other. -/
lemma field_bytes {c : Codec σ (α → β)} {get : σ → α} {p : XdrProc α} {v : σ}
    (hok : ((c.field get p).encode v).ok = true) :
    (c.encode v).ok = true ∧ (p.encode (get v)).ok = true ∧
      ((c.field get p).encode v).bytes = (c.encode v).bytes ++ (p.encode (get v)).bytes := by
  obtain ⟨hc, hp⟩ := (Encoding.andThen_ok _ _).mp hok
  exact ⟨hc, hp, Encoding.andThen_bytes hc⟩

lemma field_takes {c : Codec σ (α → β)} {get : σ → α} {p : XdrProc α} {n m : Nat}
    (hc : c.decode.Takes n) (hp : p.decode.Takes m) : (c.field get p).decode.Takes (n + m) :=
  hc.bind fun _ => hp.bind fun _ => .pure _

/-- A field left out in both directions: the decoded record has `a` there. -/
def skip (c : Codec σ (α → β)) (a : α) : Codec σ β where
  encode := c.encode
  decode := do
    let f ← c.decode
    pure (f a)
  boolsOk := c.boolsOk
  part v := c.part v a
  decode_encode v s hb hok := by
    rw [Decoder.bind_eq _ (c.decode_encode v s hb hok)]
    rfl
  streams := c.streams.bind fun _ => .pure _

/-- Decoding without a field what was encoded with it stops before the field. -/
lemma skip_of_field (c : Codec σ (α → β)) (get : σ → α) (p : XdrProc α) (a : α) (v : σ) (s : Bytes)
    (hb : (c.field get p).boolsOk v = true) (hok : ((c.field get p).encode v).ok = true) :
    (c.skip a).decode (((c.field get p).encode v).bytes ++ s) =
      some (c.part v a, (p.encode (get v)).bytes ++ s) := by
  have hbc := (Bool.and_eq_true_iff.mp hb).1
  have hc := ((Encoding.andThen_ok _ _).mp hok).1
  rw [field, Encoding.andThen_bytes hc, List.append_assoc]
  exact (c.skip a).decode_encode v _ hbc hc

end Codec

/-!
## Primitives
-/

namespace XdrProc

/-- One word on the wire, read back by `ofWord`. -/
def word (toWord : α → UInt32) (ofWord : UInt32 → α) (ok : α → Bool)
    (h : ∀ a, ok a = true → ofWord (toWord a) = a) : XdrProc α where
  encode a := .one (.long (toWord a))
  decode := do
    let w ← Decoder.getLong
    pure (ofWord w)
  boolsOk := ok
  part := id
  decode_encode a s ha _ := by
    rw [Encoding.one_bytes, Put.toBytes, Decoder.bind_eq _ (Decoder.getLong_beBytes _ s), h a ha]
    rfl
  streams := Decoder.Streams.getLong.bind fun _ => .pure _
  part_eq _ := rfl

/-- `xdr_int`. -/
def int : XdrProc Int32 := word Int32.toUInt32 UInt32.toInt32 (fun _ => true) fun _ _ => rfl

/-- `xdr_u_long` with 64-bit longs: a value that does not fit a word is refused. -/
def uLong : XdrProc UInt64 where
  encode v := if v.toNat < 2 ^ 32 then .one (.long (UInt32.ofNat v.toNat)) else .refused
  decode := do
    let w ← Decoder.getLong
    pure w.toUInt64
  boolsOk _ := true
  part := id
  decode_encode v s _ hok := by
    split at hok
    · rename_i hv
      rw [if_pos hv, Encoding.one_bytes, Put.toBytes, Decoder.bind_eq _ (Decoder.getLong_beBytes _ s)]
      have hw : (UInt32.ofNat v.toNat).toUInt64 = v := by
        apply UInt64.toNat_inj.mp
        rw [UInt32.toNat_toUInt64, UInt32.toNat_ofNat', Nat.mod_eq_of_lt hv]
      rw [hw]
      rfl
    · cases hok
  streams := Decoder.Streams.getLong.bind fun _ => .pure _
  part_eq _ := rfl

/-- `xdr_u_quad_t`: the high word, then the low word. -/
def uQuad : XdrProc UInt64 where
  encode v := (Encoding.one (.long (UInt32.ofNat (v.toNat / 2 ^ 32)))).andThen
    (.one (.long (UInt32.ofNat v.toNat)))
  decode := do
    let hi ← Decoder.getLong
    let lo ← Decoder.getLong
    pure (UInt64.ofNat (hi.toNat * 2 ^ 32 + lo.toNat))
  boolsOk _ := true
  part := id
  decode_encode v s _ _ := by
    rw [Encoding.andThen_bytes (Encoding.one_ok _), Encoding.one_bytes, Encoding.one_bytes,
      List.append_assoc, Put.toBytes, Put.toBytes, Decoder.bind_eq _ (Decoder.getLong_beBytes _ _),
      Decoder.bind_eq _ (Decoder.getLong_beBytes _ s)]
    have hv : UInt64.ofNat ((UInt32.ofNat (v.toNat / 2 ^ 32)).toNat * 2 ^ 32
        + (UInt32.ofNat v.toNat).toNat) = v := by
      have hlt := v.toNat_lt
      apply UInt64.toNat_inj.mp
      rw [UInt64.toNat_ofNat', UInt32.toNat_ofNat', UInt32.toNat_ofNat']
      omega
    rw [hv]
    rfl
  streams := Decoder.Streams.getLong.bind fun _ => Decoder.Streams.getLong.bind fun _ => .pure _
  part_eq _ := rfl

def void : XdrProc Unit where
  toCodec := .record ()
  part_eq _ := rfl

/-- `return FALSE`. -/
def never : XdrProc Unit where
  encode _ := .refused
  decode := .fail
  boolsOk _ := true
  part := id
  decode_encode _ _ _ h := nomatch h
  streams := .fail
  part_eq _ := rfl

end XdrProc

/-!
## Enumerations

A C `enum` object is an `int`: it holds an enumerator or any other value.
-/

class Enumerators (E : Type) where
  code : E → UInt32
  all : List E
  find_code : ∀ e, (all.find? fun f => code f == code e) = some e

inductive EnumT (E : Type) [Enumerators E] where
  | named (e : E)
  | unnamed (w : UInt32) (h : ∀ e : E, Enumerators.code e ≠ w)

namespace EnumT

variable {E : Type} [Enumerators E]

def toWord : EnumT E → UInt32
  | named e => Enumerators.code e
  | unnamed w _ => w

def ofWord (w : UInt32) : EnumT E :=
  match h : Enumerators.all.find? fun e : E => Enumerators.code e == w with
  | some e => named e
  | none => unnamed w fun e he => by
      subst he
      cases h.symm.trans (Enumerators.find_code e)

lemma ofWord_toWord (e : EnumT E) : ofWord e.toWord = e := by
  unfold ofWord
  split
  · rename_i f hf
    cases e with
    | named e => rw [Option.some.inj (hf.symm.trans (Enumerators.find_code e))]
    | unnamed w h =>
      have hcode := List.find?_some hf
      exact absurd (beq_iff_eq.mp hcode) (h f)
  · rename_i hf
    cases e with
    | named e => cases hf.symm.trans (Enumerators.find_code e)
    | unnamed w h => rfl

end EnumT

instance : Enumerators Bool where
  code b := if b then 1 else 0
  all := [false, true]
  find_code b := by cases b <;> rfl

/-- `bool_t`: an `int` of which `FALSE` and `TRUE` are the named values. -/
abbrev BoolT := EnumT Bool

def BoolT.isNamed : BoolT → Bool
  | .named _ => true
  | .unnamed _ _ => false

namespace XdrProc

/-- `xdr_enum`. -/
def enum {E : Type} [Enumerators E] : XdrProc (EnumT E) :=
  word EnumT.toWord EnumT.ofWord (fun _ => true) fun e _ => e.ofWord_toWord

/-- `xdr_bool`: whatever is not `FALSE` is `TRUE`, in both directions. -/
def bool : XdrProc BoolT :=
  word (fun b => match b with | .named false => 0 | _ => 1) (fun w => .named (w != 0)) BoolT.isNamed
    fun b hb => by
      cases b with
      | named b => cases b <;> rfl
      | unnamed w h => cases hb

/-- The word of a boolean put and read as it is, which is what the inline macros do. -/
def rawBool : XdrProc BoolT :=
  word EnumT.toWord EnumT.ofWord BoolT.isNamed fun b _ => b.ofWord_toWord

end XdrProc

/-!
## Byte strings
-/

/-- What `xdr_opaque` adds to reach a multiple of four. -/
def rndup (n : Nat) : Nat := if n % 4 = 0 then 0 else 4 - n % 4

/-- `xdr_opaque` when encoding. -/
def opaquePuts (b : Bytes) : Encoding :=
  if b.length = 0 then .done
  else (Encoding.one (.bytes b)).andThen
    (if rndup b.length = 0 then .done else .one (.bytes (List.replicate (rndup b.length) 0)))

/-- `xdr_opaque` when decoding. -/
def getOpaque (n : Nat) : Decoder {x : Bytes // x.length = n} :=
  if h : n = 0 then pure ⟨[], h.symm⟩
  else do
    let x ← Decoder.getBytes n
    if rndup n = 0 then pure x
    else do
      let _ ← Decoder.getBytes (rndup n)
      pure x

/-- The bytes and their padding. -/
lemma opaquePuts_bytes (b : Bytes) : (opaquePuts b).bytes = b ++ List.replicate (rndup b.length) 0 := by
  unfold opaquePuts
  by_cases hb : b.length = 0
  · rw [if_pos hb, List.length_eq_zero_iff.mp hb]
    rfl
  · rw [if_neg hb, Encoding.andThen_bytes (Encoding.one_ok _), Encoding.one_bytes, Put.toBytes]
    by_cases hr : rndup b.length = 0
    · rw [if_pos hr, hr]
      rfl
    · rw [if_neg hr, Encoding.one_bytes, Put.toBytes]

lemma getOpaque_opaquePuts {n : Nat} (x : {x : Bytes // x.length = n}) (s : Bytes) :
    getOpaque n ((opaquePuts x.1).bytes ++ s) = some (x, s) := by
  obtain ⟨b, rfl⟩ := x
  unfold getOpaque opaquePuts
  by_cases hb : b.length = 0
  · rw [dif_pos hb, if_pos hb]
    simp only [List.length_eq_zero_iff.mp hb]
    rfl
  · rw [dif_neg hb, if_neg hb, Encoding.andThen_bytes (Encoding.one_ok _), Encoding.one_bytes,
      List.append_assoc, Put.toBytes, Decoder.bind_eq _ (Decoder.getBytes_append ⟨b, rfl⟩ _)]
    by_cases hr : rndup b.length = 0
    · rw [if_pos hr, if_pos hr]
      rfl
    · rw [if_neg hr, if_neg hr, Encoding.one_bytes, Put.toBytes,
        Decoder.bind_eq _ (Decoder.getBytes_append ⟨_, List.length_replicate⟩ s)]
      rfl

lemma getOpaque_streams (n : Nat) : (getOpaque n).Streams := by
  unfold getOpaque
  split
  · exact .pure _
  · exact (Decoder.Streams.getBytes n).bind fun _ =>
      .ite (.pure _) ((Decoder.Streams.getBytes _).bind fun _ => .pure _)

/-- A pointer with its `u_int` count. -/
abbrev Counted (α : Type) := {l : List α // l.length < 2 ^ 32}

def Counted.size (v : Counted α) : UInt32 := UInt32.ofNat v.1.length

lemma Counted.size_toNat (v : Counted α) : v.size.toNat = v.1.length := by
  rw [size, UInt32.toNat_ofNat', Nat.mod_eq_of_lt v.2]

/-- A C string: no byte of it is zero, and `strlen` fits the `u_int` that counts it. -/
structure CString where
  bytes : Bytes
  noNul : 0 ∉ bytes
  short : bytes.length < 2 ^ 32

namespace CString

/-- The string at the start of a buffer that holds `x` and a terminator. -/
def ofBuffer (x : Bytes) (h : x.length < 2 ^ 32) : CString where
  bytes := x.takeWhile (· != 0)
  noNul hz := by simpa using List.mem_takeWhile_imp hz
  short := (List.takeWhile_prefix _).length_le.trans_lt h

lemma ofBuffer_bytes (c : CString) : ofBuffer c.bytes c.short = c := by
  obtain ⟨b, hb, hs⟩ := c
  unfold ofBuffer
  congr 1
  apply List.takeWhile_eq_self_iff.mpr
  intro z hz
  simpa using fun h : z = 0 => hb (h ▸ hz)

def counted (c : CString) : Counted UInt8 := ⟨c.bytes, c.short⟩

end CString

namespace XdrProc

/-- `xdr_opaque` on an array of `n` characters. -/
def fixedBytes (n : Nat) : XdrProc {x : Bytes // x.length = n} where
  encode v := opaquePuts v.1
  decode := getOpaque n
  boolsOk _ := true
  part := id
  decode_encode v s _ _ := getOpaque_opaquePuts v s
  streams := getOpaque_streams n
  part_eq _ := rfl

/-- A count and then the body, unless `refuse` holds of the count, which is already in the
stream when an encoding is refused. -/
def counted (refuse : UInt32 → Bool) (body : Counted α → Encoding)
    (read : (n : Nat) → Decoder {l : List α // l.length = n}) (ok : Counted α → Bool)
    (hbody : ∀ (v : Counted α) (s : Bytes), ok v = true → (body v).ok = true →
      read v.1.length ((body v).bytes ++ s) = some (⟨v.1, rfl⟩, s))
    (hread : ∀ n, (read n).Streams) : XdrProc (Counted α) where
  encode v := (Encoding.one (.long v.size)).andThen (if refuse v.size then .refused else body v)
  decode := do
    let n ← Decoder.getLong
    if refuse n then .fail
    else do
      let l ← read n.toNat
      pure ⟨l.1, l.2.trans_lt n.toNat_lt⟩
  boolsOk := ok
  part := id
  decode_encode v s hb hok := by
    have hbok := ((Encoding.andThen_ok _ _).mp hok).2
    rw [Encoding.andThen_bytes (Encoding.one_ok _), Encoding.one_bytes, List.append_assoc, Put.toBytes,
      Decoder.bind_eq _ (Decoder.getLong_beBytes _ _)]
    by_cases hr : refuse v.size = true
    · rw [if_pos hr] at hbok
      cases hbok
    · rw [if_neg hr] at hbok
      rw [if_neg hr, if_neg hr]
      have hread' : ∀ n (hn : v.1.length = n), read n ((body v).bytes ++ s) = some (⟨v.1, hn⟩, s) := by
        rintro _ rfl
        exact hbody v s hb hbok
      rw [Decoder.bind_eq _ (hread' _ v.size_toNat.symm)]
      rfl
  streams := Decoder.Streams.getLong.bind fun n => .ite .fail ((hread _).bind fun _ => .pure _)
  part_eq _ := rfl

/-- `xdr_bytes`. -/
def bytes (maxsize : UInt32) : XdrProc (Counted UInt8) :=
  counted (fun n => decide (maxsize < n)) (fun v => opaquePuts v.1) getOpaque (fun _ => true)
    (fun v s _ _ => getOpaque_opaquePuts ⟨v.1, rfl⟩ s) getOpaque_streams

/-- What `xdr_bytes` puts: the count, the bytes and their padding. -/
lemma bytes_encode {maxsize : UInt32} {v : Counted UInt8} (hok : ((bytes maxsize).encode v).ok = true) :
    ((bytes maxsize).encode v).bytes = beBytes v.size ++ (v.1 ++ List.replicate (rndup v.1.length) 0) := by
  have hbody := ((Encoding.andThen_ok _ _).mp hok).2
  have hput : ((bytes maxsize).encode v).bytes = beBytes v.size ++
      (if decide (maxsize < v.size) = true then Encoding.refused else opaquePuts v.1).bytes :=
    Encoding.andThen_bytes (Encoding.one_ok _)
  split at hbody
  · cases hbody
  · rename_i hle
    rw [hput, if_neg hle, opaquePuts_bytes]

/-- The count and the characters of `xdr_string`; `size + 1`, the size of the buffer, must not
overflow. -/
def stringBytes (maxsize : UInt32) : XdrProc (Counted UInt8) :=
  counted (fun n => decide (maxsize < n) || n + 1 == 0) (fun v => opaquePuts v.1) getOpaque
    (fun _ => true) (fun v s _ _ => getOpaque_opaquePuts ⟨v.1, rfl⟩ s) getOpaque_streams

/-- `xdr_string`: a null pointer is refused when encoding. -/
def string (maxsize : UInt32) : XdrProc (Option CString) where
  encode
    | none => .refused
    | some c => (stringBytes maxsize).encode c.counted
  decode := do
    let v ← (stringBytes maxsize).decode
    pure (some (.ofBuffer v.1 v.2))
  boolsOk _ := true
  part := id
  decode_encode v s _ hok := by
    cases v with
    | none => cases hok
    | some c =>
      rw [Decoder.bind_eq _ ((stringBytes maxsize).decode_encode c.counted s rfl hok),
        (stringBytes maxsize).part_eq]
      exact congrArg (fun c => some (some c, s)) c.ofBuffer_bytes
  streams := (stringBytes maxsize).streams.bind fun _ => .pure _
  part_eq _ := rfl

/-!
## Arrays and linked lists
-/

def encodeAll (p : XdrProc α) : List α → Encoding
  | [] => .done
  | a :: l => (p.encode a).andThen (encodeAll p l)

lemma replicate_encodeAll (p : XdrProc α) (l : List α) (s : Bytes) (hb : l.all p.boolsOk = true)
    (hok : (encodeAll p l).ok = true) :
    p.decode.replicate l.length ((encodeAll p l).bytes ++ s) = some (⟨l, rfl⟩, s) := by
  induction l with
  | nil => rfl
  | cons a l ih =>
    obtain ⟨hba, hbl⟩ := Bool.and_eq_true_iff.mp hb
    obtain ⟨ha, hl⟩ := (Encoding.andThen_ok _ _).mp hok
    rw [encodeAll, Encoding.andThen_bytes ha, List.append_assoc]
    change (p.decode >>= fun a => p.decode.replicate l.length >>= fun l' => pure _) _ = _
    rw [Decoder.bind_eq _ (p.decode_encode a _ hba ha), Decoder.bind_eq _ (ih hbl hl)]
    simp only [p.part_eq]
    rfl

/-- `xdr_array`, for elements of `elsize` bytes in memory. -/
def array (maxsize elsize : UInt32) (p : XdrProc α) : XdrProc (Counted α) :=
  counted (fun n => decide (maxsize < n) || decide (0xffffffff / elsize < n))
    (fun v => encodeAll p v.1) p.decode.replicate (fun v => v.1.all p.boolsOk)
    (fun v s => replicate_encodeAll p v.1 s) p.streams.replicate

/-- The flag of `xdr_pointer`. -/
def moreData : Decoder Bool := do
  let w ← Decoder.getLong
  pure (w != 0)

def putFlag (b : Bool) : Encoding := .one (.long (if b then 1 else 0))

lemma moreData_putFlag (b : Bool) (s : Bytes) : moreData ((putFlag b).bytes ++ s) = some (b, s) := by
  rw [putFlag, Encoding.one_bytes, Put.toBytes, moreData, Decoder.bind_eq _ (Decoder.getLong_beBytes _ s)]
  cases b <;> rfl

lemma moreData_takes : moreData.Takes 1 :=
  (Decoder.Takes.getLong.bind fun _ => .pure _).mono (by decide)

lemma moreData_streams : moreData.Streams := Decoder.Streams.getLong.bind fun _ => .pure _

/-- `xdr_pointer` on a list whose nodes end in `xdr_pointer` of the next node. -/
def encodeChain (p : XdrProc α) : List α → Encoding
  | [] => putFlag false
  | a :: l => (putFlag true).andThen ((p.encode a).andThen (encodeChain p l))

lemma chain_encodeChain (p : XdrProc α) (l : List α) (s : Bytes) (hb : l.all p.boolsOk = true)
    (hok : (encodeChain p l).ok = true) :
    Decoder.chain moreData p.decode ((encodeChain p l).bytes ++ s) = some (l, s) := by
  induction l with
  | nil =>
    rw [encodeChain, Decoder.chain_eq moreData_takes p.streams, Decoder.link,
      Decoder.bind_eq _ (moreData_putFlag false s)]
    rfl
  | cons a l ih =>
    obtain ⟨hba, hbl⟩ := Bool.and_eq_true_iff.mp hb
    have hok' := ((Encoding.andThen_ok _ _).mp hok).2
    obtain ⟨ha, hl⟩ := (Encoding.andThen_ok _ _).mp hok'
    have hflag : (putFlag true).ok = true := rfl
    rw [encodeChain, Encoding.andThen_bytes hflag, Encoding.andThen_bytes ha,
      List.append_assoc, List.append_assoc, Decoder.chain_eq moreData_takes p.streams, Decoder.link,
      Decoder.bind_eq _ (moreData_putFlag true _), if_pos rfl,
      Decoder.bind_eq _ (p.decode_encode a _ hba ha), Decoder.bind_eq _ (ih hbl hl), p.part_eq]
    rfl

def pointer (p : XdrProc α) : XdrProc (List α) where
  encode := encodeChain p
  decode := Decoder.chain moreData p.decode
  boolsOk l := l.all p.boolsOk
  part := id
  decode_encode l s := chain_encodeChain p l s
  streams := .chain moreData_streams moreData_takes p.streams
  part_eq _ := rfl

end XdrProc

/-!
## Discriminated unions
-/

/-- A discriminant and the arm it selects. -/
structure DiscUnion {D : Type} (Arm : D → Type) where
  disc : D
  arm : Arm disc

section DiscUnion

variable {D : Type} {Arm : D → Type}

def Codec.union (disc : XdrProc D) (arm : ∀ d, Codec (Arm d) (Arm d)) :
    Codec (DiscUnion Arm) (DiscUnion Arm) where
  encode v := (disc.encode v.disc).andThen ((arm v.disc).encode v.arm)
  decode := do
    let d ← disc.decode
    let a ← (arm d).decode
    pure ⟨d, a⟩
  boolsOk v := disc.boolsOk v.disc && (arm v.disc).boolsOk v.arm
  part v := ⟨v.disc, (arm v.disc).part v.arm⟩
  decode_encode v s hb hok := by
    obtain ⟨hbd, hba⟩ := Bool.and_eq_true_iff.mp hb
    obtain ⟨hd, ha⟩ := (Encoding.andThen_ok _ _).mp hok
    rw [Encoding.andThen_bytes hd, List.append_assoc,
      Decoder.bind_eq _ (disc.decode_encode v.disc _ hbd hd), disc.part_eq,
      Decoder.bind_eq _ ((arm v.disc).decode_encode v.arm s hba ha)]
    rfl
  streams := disc.streams.bind fun d => (arm d).streams.bind fun _ => .pure _

lemma Codec.union_arm {disc : XdrProc D} {arm : ∀ d, Codec (Arm d) (Arm d)} {v : DiscUnion Arm}
    (hb : (Codec.union disc arm).boolsOk v = true) (hok : ((Codec.union disc arm).encode v).ok = true) :
    (arm v.disc).boolsOk v.arm = true ∧ ((arm v.disc).encode v.arm).ok = true :=
  ⟨(Bool.and_eq_true_iff.mp hb).2, ((Encoding.andThen_ok _ _).mp hok).2⟩

/-- Decoding with other arms what was encoded with `arm`: the discriminant is read alike. -/
lemma Codec.union_decode {disc : XdrProc D} {arm arm' : ∀ d, Codec (Arm d) (Arm d)} {v : DiscUnion Arm}
    {x : Arm v.disc} {s r : Bytes} (hb : (Codec.union disc arm).boolsOk v = true)
    (hok : ((Codec.union disc arm).encode v).ok = true)
    (h : (arm' v.disc).decode (((arm v.disc).encode v.arm).bytes ++ s) = some (x, r)) :
    (Codec.union disc arm').decode (((Codec.union disc arm).encode v).bytes ++ s) =
      some (⟨v.disc, x⟩, r) := by
  have hbd := (Bool.and_eq_true_iff.mp hb).1
  have hd := ((Encoding.andThen_ok _ _).mp hok).1
  change (disc.decode >>= fun d => (arm' d).decode >>= fun a => pure (DiscUnion.mk d a))
    (((disc.encode v.disc).andThen ((arm v.disc).encode v.arm)).bytes ++ s) = _
  rw [Encoding.andThen_bytes hd, List.append_assoc,
    Decoder.bind_eq _ (disc.decode_encode v.disc _ hbd hd), disc.part_eq, Decoder.bind_eq _ h]
  rfl

/-- The arm of a union with one arm for a condition on the discriminant and one for the rest. -/
def Codec.select (p : Codec α α) (q : Codec β β) : (b : Bool) → Codec (cond b α β) (cond b α β)
  | true => p
  | false => q

lemma Codec.select_part {p : Codec α α} {q : Codec β β} (hp : ∀ v, p.part v = v)
    (hq : ∀ v, q.part v = v) (b : Bool) (v : cond b α β) : (Codec.select p q b).part v = v := by
  cases b with
  | true => exact hp v
  | false => exact hq v

def XdrProc.select (p : XdrProc α) (q : XdrProc β) (b : Bool) : XdrProc (cond b α β) where
  toCodec := .select p.toCodec q.toCodec b
  part_eq := Codec.select_part p.part_eq q.part_eq b

def XdrProc.union (disc : XdrProc D) (arm : ∀ d, XdrProc (Arm d)) : XdrProc (DiscUnion Arm) where
  toCodec := .union disc fun d => (arm d).toCodec
  part_eq v := congrArg (DiscUnion.mk v.disc) ((arm v.disc).part_eq v.arm)

end DiscUnion

/-!
## Inline access

`XDR_INLINE` hands out the next `n` bytes of the stream when it has as many. Otherwise the
routines run one by one; when decoding they then fail, since the message is too short.
-/

/-- `room` says whether a stream being encoded to has the `n` bytes. -/
def XdrProc.inline (n : Nat) (room : Bool) (fast slow : XdrProc α)
    (hagree : ∀ v, fast.boolsOk v = true → slow.encode v = fast.encode v)
    (hfast : ∀ v, (fast.encode v).bytes.length = n)
    (hslow : slow.decode.Takes n) : XdrProc α where
  encode v := if room then fast.encode v else slow.encode v
  decode b := if n ≤ b.length then fast.decode b else slow.decode b
  boolsOk := fast.boolsOk
  part := fast.part
  decode_encode v s hb hok := by
    have henc : (if room = true then fast.encode v else slow.encode v) = fast.encode v := by
      rw [hagree v hb, ite_self]
    rw [henc] at hok
    rw [henc, if_pos (by rw [List.length_append, hfast]; omega)]
    exact fast.decode_encode v s hb hok
  streams := by
    have hdec : ∀ {b r v}, (if n ≤ b.length then fast.decode b else slow.decode b) = some (v, r) →
        n ≤ b.length ∧ fast.decode b = some (v, r) := by
      intro b r v h
      by_cases hn : n ≤ b.length
      · exact ⟨hn, by rwa [if_pos hn] at h⟩
      · rw [if_neg hn] at h
        exact absurd (le_of_add_le_right (hslow h)) hn
    constructor
    · intro b r v h s
      obtain ⟨hn, hb⟩ := hdec h
      rw [if_pos (by rw [List.length_append]; omega)]
      exact fast.streams.append hb s
    · intro b r v h
      exact fast.streams.takes (hdec h).2
  part_eq := fast.part_eq

end UnfsClient.Lib
