import UnfsClient.Nfs3Decode

/-!
# Round trips of the decode wrappers

What a routine encodes its wrapper decodes: the message may be followed by anything, and no
proper initial segment of it is accepted. The law of each routine comes with the routine; here
it is carried over to the wrappers, which see a message of `int` length and return a pointer.
-/

namespace UnfsClient.Proofs

open Lib

lemma xdrmemCreate_self {msg : Bytes} (h : msg.length < 2 ^ 31) : xdrmemCreate msg msg.length = msg := by
  have hlen : ((msg.length : Int) % 2 ^ 32).toNat = msg.length := by omega
  rw [xdrmemCreate, hlen, List.take_length]

/-- The wrapper returns what its routine decodes, and null when it fails. -/
def Wraps (w : DecodeWrapper) : Prop :=
  ∀ (msg : Bytes) (len : Int), w.xdrTo msg len =
    ((w.xdr.decode (xdrmemCreate msg len)).map fun x => w.ret x.1).getD w.null

lemma wraps_struct {α : Type} {xdr xdr' : XdrProc α} (h : xdr.decode = xdr'.decode) :
    Wraps (.struct xdr (xdrTo xdr'.toCodec)) := by
  intro msg len
  change (xdr'.decode (xdrmemCreate msg len)).map Prod.fst =
    ((xdr.decode (xdrmemCreate msg len)).map fun x => some x.1).getD none
  rw [h]
  cases xdr'.decode (xdrmemCreate msg len) with
  | none => rfl
  | some x => rfl

lemma wraps_mountlist : Wraps (.list xdrMountlist xdrToMountlist) := by
  intro msg len
  change xdrToMountlist msg len = ((xdrMountlist.decode (xdrmemCreate msg len)).map Prod.fst).getD []
  unfold xdrToMountlist
  cases xdrMountlist.decode (xdrmemCreate msg len) with
  | none => rfl
  | some x => rfl

lemma wraps_exports : Wraps (.list xdrExports fun msg => xdrToExports (some msg)) := by
  intro msg len
  change xdrToExports (some msg) len = ((xdrExports.decode (xdrmemCreate msg len)).map Prod.fst).getD []
  simp only [xdrToExports]
  cases xdrExports.decode (xdrmemCreate msg len) with
  | none => rfl
  | some x => rfl

/-- Decoding does not depend on the room of a stream that is encoded to. -/
lemma xdrPATHCONF3res_decode (room : Bool) :
    (xdrPATHCONF3res room).decode = (xdrPATHCONF3res true).decode := by
  have harm : ∀ b, (XdrProc.select (xdrPATHCONF3resok room) xdrPATHCONF3resfail b).decode =
      (XdrProc.select (xdrPATHCONF3resok true) xdrPATHCONF3resfail b).decode := by
    intro b
    cases b <;> rfl
  change (xdrNfsstat3.decode >>= fun status =>
    (XdrProc.select (xdrPATHCONF3resok room) xdrPATHCONF3resfail (statusOk status)).decode >>= fun a =>
      pure (DiscUnion.mk status a)) = _
  simp only [harm]
  rfl

lemma wraps_decodeWrappers : ∀ w ∈ decodeWrappers, Wraps w := by
  simp only [decodeWrappers, List.forall_mem_cons, List.not_mem_nil, false_imp_iff, implies_true, and_true]
  refine ⟨?_, ?_, ?_, ?_, ?_, ?_, ?_, ?_, ?_, ?_, ?_, ?_, ?_, ?_, ?_, ?_, ?_, ?_, ?_, ?_, ?_, ?_, ?_,
    ?_, ?_, ?_, ?_, ?_, ?_, ?_, ?_, ?_, ?_, ?_, ?_, ?_, ?_, ?_, ?_, ?_, ?_, ?_, ?_, ?_, wraps_mountlist,
    wraps_exports⟩
  all_goals first | exact wraps_struct rfl | exact wraps_struct (xdrPATHCONF3res_decode false)

/-- The fields of a `READ3res` other than `data`. -/
def withoutReadData : READ3res → READ3res
  | ⟨.named .ok, resok⟩ => ⟨.named .ok, { resok with data := noData }⟩
  | v => v

def withoutWriteData (v : WRITE3args) : WRITE3args := { v with data := noData }

lemma select_noData (b : Bool) (v : cond b READ3resok READ3resfail) (s : Bytes)
    (hb : (Codec.select (xdrREAD3resok .enableDataDexdr) xdrREAD3resfail.toCodec b).boolsOk v = true)
    (hok : ((Codec.select (xdrREAD3resok .enableDataDexdr) xdrREAD3resfail.toCodec b).encode v).ok =
      true) :
    ∃ r, (Codec.select (xdrREAD3resok .disableDataDexdr) xdrREAD3resfail.toCodec b).decode
        (((Codec.select (xdrREAD3resok .enableDataDexdr) xdrREAD3resfail.toCodec b).encode v).bytes ++ s) =
      some ((Codec.select (xdrREAD3resok .disableDataDexdr) xdrREAD3resfail.toCodec b).part v, r) := by
  cases b with
  | true => exact ⟨_, xdrREAD3resokHead.skip_of_field _ _ noData v s hb hok⟩
  | false => exact ⟨s, xdrREAD3resfail.decode_encode v s hb hok⟩

lemma part_noData (v : READ3res) : (xdrREAD3res .disableDataDexdr).part v = withoutReadData v := by
  obtain ⟨status, arm⟩ := v
  cases status with
  | named e => cases e <;> rfl
  | unnamed w h => rfl

lemma xdrTo_eq {σ α : Type} {xdr : Codec σ α} {msg r : Bytes} {v : α} (hlen : msg.length < 2 ^ 31)
    (h : xdr.decode msg = some (v, r)) : xdrTo xdr (some msg) msg.length = some v := by
  rw [xdrTo, xdrmemCreate_self hlen, h, Option.map_some]

lemma read_noData (v : READ3res) (s : Bytes) (hb : (xdrREAD3res .enableDataDexdr).boolsOk v = true)
    (hok : ((xdrREAD3res .enableDataDexdr).encode v).ok = true) :
    ∃ r, (xdrREAD3res .disableDataDexdr).decode (((xdrREAD3res .enableDataDexdr).encode v).bytes ++ s) =
      some (withoutReadData v, r) := by
  rw [← part_noData]
  unfold xdrREAD3res at hb hok ⊢
  obtain ⟨hba, hoka⟩ := Codec.union_arm hb hok
  obtain ⟨r, hr⟩ := select_noData (statusOk v.disc) v.arm s hba hoka
  exact ⟨r, Codec.union_decode hb hok hr⟩

theorem xdr_round_trip :
    (∀ w ∈ decodeWrappers, ∀ v : w.Val, w.xdr.boolsOk v = true → (w.xdr.encode v).ok = true →
      (∀ msg suffix, msg = (w.xdr.encode v).bytes ++ suffix → msg.length < 2 ^ 31 →
        w.xdrTo msg msg.length = w.ret v) ∧
      (∀ msg, msg <+: (w.xdr.encode v).bytes → msg ≠ (w.xdr.encode v).bytes → msg.length < 2 ^ 31 →
        w.xdrTo msg msg.length = w.null)) ∧
    (∀ v : READ3res, (xdrREAD3res .enableDataDexdr).boolsOk v = true →
      ((xdrREAD3res .enableDataDexdr).encode v).ok = true →
      ∀ msg suffix, msg = ((xdrREAD3res .enableDataDexdr).encode v).bytes ++ suffix → msg.length < 2 ^ 31 →
        xdrToREAD3res (some msg) msg.length nfs3DataNoDexdr = some (withoutReadData v)) ∧
    (∀ v : WRITE3args, (xdrWRITE3args .enableDataDexdr).boolsOk v = true →
      ((xdrWRITE3args .enableDataDexdr).encode v).ok = true →
      ∀ msg suffix, msg = ((xdrWRITE3args .enableDataDexdr).encode v).bytes ++ suffix → msg.length < 2 ^ 31 →
        xdrToWRITE3args (some msg) msg.length nfs3DataNoDexdr = some (withoutWriteData v)) := by
  refine ⟨?_, ?_, ?_⟩
  · intro w hw v hb hok
    have hwrap := wraps_decodeWrappers w hw
    have hdec : ∀ s, w.xdr.decode ((w.xdr.encode v).bytes ++ s) = some (v, s) := by
      intro s
      rw [w.xdr.decode_encode v s hb hok, w.xdr.part_eq]
    constructor
    · rintro msg suffix rfl hlen
      rw [hwrap, xdrmemCreate_self hlen, hdec]
      rfl
    · intro msg hpre hne hlen
      have hall := hdec []
      rw [List.append_nil] at hall
      rw [hwrap, xdrmemCreate_self hlen, w.xdr.streams.none_of_initial hall hpre hne]
      rfl
  · rintro v hb hok msg suffix rfl hlen
    obtain ⟨r, hr⟩ := read_noData v suffix hb hok
    exact xdrTo_eq hlen hr
  · rintro v hb hok msg suffix rfl hlen
    exact xdrTo_eq hlen (xdrWRITE3argsHead.skip_of_field _ _ noData v suffix hb hok)

/-- `/a` exported to `h1` and `h2`, and `/b` to everyone. -/
def twoExports : Exports :=
  [⟨some ⟨[0x2f, 0x61], by decide, by decide⟩,
      [⟨some ⟨[0x68, 0x31], by decide, by decide⟩⟩, ⟨some ⟨[0x68, 0x32], by decide, by decide⟩⟩]⟩,
    ⟨some ⟨[0x2f, 0x62], by decide, by decide⟩, []⟩]

def threeBytesWrite : WRITE3args where
  file := ⟨⟨[1, 2, 3, 4, 5], by decide⟩⟩
  offset := 0x100000000
  count := 3
  stable := .named .fileSync
  data := ⟨[9, 8, 7], by decide⟩

theorem xdr_round_trip_exports :
    (xdrExports.encode twoExports).bytes.length = 60 ∧
    xdrToExports (some ((xdrExports.encode twoExports).bytes ++ [7, 7])) 62 = twoExports ∧
    xdrToExports (some ((xdrExports.encode twoExports).bytes.take 40)) 40 = [] ∧
    xdrToWRITE3args (some ((xdrWRITE3args .enableDataDexdr).encode threeBytesWrite).bytes) 36
      nfs3DataNoDexdr = some (withoutWriteData threeBytesWrite) := by
  have hlen : (xdrExports.encode twoExports).bytes.length = 60 := by decide +kernel
  obtain ⟨hall, hpre⟩ := xdr_round_trip.1 (.list xdrExports fun msg => xdrToExports (some msg))
    (List.mem_of_getElem? (i := 45) rfl) twoExports (by decide +kernel) (by decide +kernel)
  refine ⟨hlen, ?_, ?_, ?_⟩
  · exact hall ((xdrExports.encode twoExports).bytes ++ [7, 7]) [7, 7] rfl (by decide +kernel)
  · have hne : (xdrExports.encode twoExports).bytes.take 40 ≠ (xdrExports.encode twoExports).bytes := by
      decide +kernel
    exact hpre _ (List.take_prefix _ _) hne (by decide +kernel)
  · exact xdr_round_trip.2.2 threeBytesWrite (by decide +kernel) (by decide +kernel) _ []
      (List.append_nil _).symm (by decide +kernel)

end UnfsClient.Proofs
