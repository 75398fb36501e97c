import UnfsClient.Proofs.Actions

/-!
# The steps of the record parser

`update_frag_state` with allocations that succeed. Between two passes of its loop the parser
either collects a marker or fills a fragment (`ParserInv`), and a pass is made of the steps
of `ParserStep`, whose results are written without the conversions between C integer types.
-/

namespace UnfsClient.Proofs

open Lib

/-- A fragment is being filled: `block` holds the payload received so far. -/
structure InPayload (rs : RpcRecordState) (block : Block) : Prop where
  base : rs.rsFragBufBase = some block
  fh : rs.rsFhRemaining = 0
  offset : rs.rsFragOffset = block.bytes.length
  remaining : rs.rsFragRemaining = (rs.rsFragBufsz : Int) - block.bytes.length
  le : block.bytes.length ≤ rs.rsFragBufsz
  size : rs.rsFragBufsz < 2 ^ 31

/-- A marker is being collected. -/
structure InMarker (rs : RpcRecordState) : Prop where
  remaining : rs.rsFragRemaining = -1
  pos : 0 < rs.rsFhRemaining
  le : rs.rsFhRemaining ≤ 4

def ParserInv (rs : RpcRecordState) : Prop :=
  rs.rsRecordsize = 0 ∧ (InMarker rs ∨ ∃ block, InPayload rs block)

def storePayload (w : World) (block : Block) (src : Bytes) : World :=
  (w.setRs { w.rs with
    rsFragBufBase := some { block with bytes := block.bytes ++ src }
    rsFragRemaining := w.rs.rsFragRemaining - src.length
    rsFragOffset := w.rs.rsFragOffset + src.length }).note (.stored src.length)

/-- Bytes of a marker that do not complete it. -/
def storeMarker (w : World) (src : Bytes) : World :=
  w.setRs { w.rs with
    rsFraghdr := copyFraghdr w.rs.rsFraghdr src
    rsFhRemaining := w.rs.rsFhRemaining - src.length }

/-- The last bytes of a marker: the fragment it announces begins. -/
def beginFragment (w : World) (src : Bytes) : World :=
  let hdr := copyFraghdr w.rs.rsFraghdr src
  (w.note .marker).tick.setRs { w.rs with
    rsFraghdr := hdr
    rsFhRemaining := 0
    rsFragBufsz := (fragSize (fraghdrWord hdr)).toNat
    rsLastFrag := lastFrag (fraghdrWord hdr) != 0
    rsFragBufBase := some ⟨w.serial, []⟩
    rsFragRemaining := (fragSize (fraghdrWord hdr)).toNat
    rsFragOffset := 0 }

/-- The complete fragment has been appended to the list and its size to `rs_recordsize`. -/
def appendFragment (w : World) (block : Block) : World :=
  w.tick.setRs { w.rs with
    rsFragList := w.rs.rsFragList ++ [⟨block, 0, w.rs.rsFragBufsz⟩]
    rsRecordsize := w.rs.rsFragBufsz }

/-- The record on the fragment list has been collated into `msg`. -/
def collateRecord (w : World) (msg : Bytes) (overrun : Nat) : World :=
  ((w.note (.record (fragPayloads w.rs.rsFragList) w.rs.rsRecordsize)).tick.setRs
    { w.rs with rsFragList := [] }).note (.collated msg overrun)

lemma fragSize_lt (hdr : UInt32) : (fragSize hdr).toNat < 2 ^ 31 := by
  rw [fragSize, UInt32.toNat_and]
  exact Nat.lt_of_le_of_lt Nat.and_le_right (by decide)

lemma readSlice_eq {w : World} {b : Bytes} {c : Nat} {n : Int} (hb : b <+: w.ct.ctReadbuf)
    (hn : c + n ≤ b.length) : readSlice w c n = (b.drop c).take n.toNat := by
  obtain ⟨tail, htail⟩ := hb
  unfold readSlice
  rw [← htail, Int.toNat_natCast]
  by_cases hc : c ≤ b.length
  · rw [List.drop_append_of_le_length hc, List.take_append_of_le_length]
    rw [List.length_drop]
    omega
  · have hn0 : n.toNat = 0 := by omega
    simp [hn0]

lemma copyPayload_skip {w : World} {c z : Int} (h : w.rs.rsFragRemaining ≤ 0) :
    copyPayload w c z = (w, c) := by
  unfold copyPayload
  rw [if_neg (by omega)]

lemma copyPayload_store {w : World} {b : Bytes} {c : Nat} {block : Block} {src rest : Bytes}
    (hb : b <+: w.ct.ctReadbuf) (hlen : b.length < 2 ^ 31) (hin : InPayload w.rs block)
    (hrest : b.drop c = src ++ rest) (hne : src ≠ [])
    (hfit : block.bytes.length + src.length ≤ w.rs.rsFragBufsz)
    (hmax : rest = [] ∨ block.bytes.length + src.length = w.rs.rsFragBufsz) :
    copyPayload w c b.length = (storePayload w block src, ((c + src.length : Nat) : Int)) := by
  have hrem := hin.remaining
  have hsize := hin.size
  have hpos : 0 < src.length := List.length_pos_iff.mpr hne
  have hsum : b.length - c = src.length + rest.length := by
    rw [← List.length_drop, hrest, List.length_append]
  have htocopy : fragTocopy w.rs c b.length = src.length := by
    unfold fragTocopy
    rcases hmax with hnil | hfull
    · rw [hnil, List.length_nil] at hsum
      split <;> rw [cInt_of_range] <;> omega
    · split <;> rw [cInt_of_range] <;> omega
  have hslice : readSlice w c src.length = src := by
    rw [readSlice_eq hb (by omega), hrest, Int.toNat_natCast, List.take_left]
  unfold copyPayload
  dsimp only
  rw [if_pos (by omega), htocopy, hslice, hin.base, cLong_of_range (by omega) (by omega),
    cInt_of_range (by omega) (by omega), hin.offset, ← Nat.cast_add, cUlong_of_range (by omega)]
  simp [storePayload, hin.offset]

/-- The first branch of a pass: nothing to store, the rest of the buffer, or what completes the
fragment. -/
lemma copyPayload_cases {w v : World} {b : Bytes} {c : Nat} {d : Int} (hb : b <+: w.ct.ctReadbuf)
    (hlen : b.length < 2 ^ 31) (hinv : ParserInv w.rs) (hc : c < b.length)
    (h : copyPayload w c b.length = (v, d)) :
    (InMarker w.rs ∧ v = w ∧ d = c) ∨ ∃ block, InPayload w.rs block ∧
      ((block.bytes.length = w.rs.rsFragBufsz ∧ v = w ∧ d = c) ∨
        (block.bytes.length + (b.drop c).length < w.rs.rsFragBufsz ∧ v = storePayload w block (b.drop c) ∧
          d = b.length) ∨
        ∃ src rest, b.drop c = src ++ rest ∧ src ≠ [] ∧ block.bytes.length + src.length = w.rs.rsFragBufsz ∧
          v = storePayload w block src ∧ d = ((c + src.length : Nat) : Int)) := by
  have hlen' : (b.drop c).length = b.length - c := List.length_drop
  rcases hinv.2 with hin | ⟨block, hin⟩
  · have hrem := hin.remaining
    rw [copyPayload_skip (by omega)] at h
    cases h
    exact Or.inl ⟨hin, rfl, rfl⟩
  have hrem := hin.remaining
  have hle := hin.le
  refine Or.inr ⟨block, hin, ?_⟩
  by_cases hfull : block.bytes.length = w.rs.rsFragBufsz
  · rw [copyPayload_skip (by omega)] at h
    cases h
    exact Or.inl ⟨hfull, rfl, rfl⟩
  by_cases hpart : block.bytes.length + (b.drop c).length < w.rs.rsFragBufsz
  · have hne : b.drop c ≠ [] := by
      rw [← List.length_pos_iff]
      omega
    rw [copyPayload_store hb hlen hin (List.append_nil _).symm hne hpart.le (Or.inl rfl)] at h
    cases h
    have hk : c + (b.drop c).length = b.length := by omega
    exact Or.inr (Or.inl ⟨hpart, rfl, by rw [hk]⟩)
  · have hneed : ((b.drop c).take (w.rs.rsFragBufsz - block.bytes.length)).length =
        w.rs.rsFragBufsz - block.bytes.length := by
      rw [List.length_take]
      omega
    have hsplit := (List.take_append_drop (w.rs.rsFragBufsz - block.bytes.length) (b.drop c)).symm
    generalize (b.drop c).take (w.rs.rsFragBufsz - block.bytes.length) = src at hneed hsplit
    have hsrcne : src ≠ [] := by
      rw [← List.length_pos_iff]
      omega
    rw [copyPayload_store hb hlen hin hsplit hsrcne (by omega) (Or.inr (by omega))] at h
    cases h
    exact Or.inr (Or.inr ⟨src, _, hsplit, hsrcne, by omega, rfl, rfl⟩)

/-- The first half of `update_record_state`: the fragment is added to the record. -/
def integrateFragment (E : Env) (w : World) : World :=
  let w := addFragment E w
  w.setRs { w.rs with rsRecordsize := cInt (w.rs.rsRecordsize + w.rs.rsFragBufsz) }

lemma integrateFragment_eq {E : Env} {w : World} {block : Block} (hin : InPayload w.rs block)
    (hsz : w.rs.rsRecordsize = 0) (hnode : E.memAlloc w.serial sizeofFragBuffer = true) :
    integrateFragment E w = appendFragment w block := by
  have hsize := hin.size
  have hcast : cInt (w.rs.rsFragBufsz : Int) = w.rs.rsFragBufsz :=
    cInt_of_range (by omega) (by omega)
  have hadd : addFragment E w = w.tick.setRs
      { w.rs with rsFragList := w.rs.rsFragList ++ [⟨block, 0, w.rs.rsFragBufsz⟩] } := by
    simp only [addFragment, hin.base, World.alloc, hnode, if_true, World.tick_rs, hcast]
  unfold integrateFragment
  rw [hadd]
  change World.setRs _ { w.rs with
    rsFragList := _, rsRecordsize := cInt (w.rs.rsRecordsize + (w.rs.rsFragBufsz : Int)) } = _
  rw [hsz, zero_add, hcast]
  rfl

lemma updateRecordState_integrate (E : Env) (exec : Exec) (w : World) :
    updateRecordState E exec w =
      if (integrateFragment E w).rs.rsLastFrag then
        (callUserCb E exec (integrateFragment E w)).map fun w' => (w'.setRs (expectNewRpcRecord w'.rs), 1)
      else some ((integrateFragment E w).setRs (expectNewRpcRecord (integrateFragment E w).rs), 0) := by
  unfold updateRecordState
  dsimp only
  change (if (integrateFragment E w).rs.rsLastFrag then _ else _) = _
  split
  · cases hcb : callUserCb E exec (integrateFragment E w) with
    | none =>
      unfold integrateFragment at hcb
      rw [hcb]
      rfl
    | some w' =>
      unfold integrateFragment at hcb
      rw [hcb]
      rfl
  · rfl

/-- What `update_record_state` does with a complete fragment. -/
lemma updateRecordState_eq {E : Env} (hE : AllocsSucceed E) (exec : Exec) {w : World} {block : Block}
    (hin : InPayload w.rs block) (hsz : w.rs.rsRecordsize = 0) :
    updateRecordState E exec w =
      if w.rs.rsLastFrag then
        (callUserCb E exec (appendFragment w block)).map fun w' => (w'.setRs (expectNewRpcRecord w'.rs), 1)
      else some ((appendFragment w block).setRs (expectNewRpcRecord (appendFragment w block).rs), 0) := by
  rw [updateRecordState_integrate, integrateFragment_eq hin hsz (hE _ _)]
  rfl

/-- `collate_buf_list` on a list whose last fragment is as long as `rs_recordsize` says: as
many bytes as fit, and the others run past the buffer. -/
lemma callUserCb_eq {E : Env} (exec : Exec) {w : World} {size : Nat} (halloc : E.memAlloc w.serial size = true)
    (hsz : w.rs.rsRecordsize = size) (hlt : size < 2 ^ 31)
    (hle : size ≤ (fragPayloads w.rs.rsFragList).flatten.length) :
    callUserCb E exec w =
      let out := (fragPayloads w.rs.rsFragList).flatten
      dispatchReply E exec (out.take size) (collateRecord w (out.take size) (out.length - size)) := by
  have hcast : cUlong w.rs.rsRecordsize = size := by
    rw [hsz]
    exact cUlong_of_range (by omega)
  simp only [callUserCb, collateBufList, World.alloc, World.note_serial, World.note_rs, World.tick_rs, hcast,
    halloc, if_true, Nat.sub_eq_zero_of_le hle, List.range_zero, List.map_nil, List.append_nil, collateRecord]

lemma startNext_end (E : Env) (w : World) (b : Bytes) : startNext E b.length w b.length = (w, (b.length : Int)) := by
  unfold startNext
  rw [if_neg (by omega)]

lemma collectMarker_part {w : World} {b : Bytes} {c : Nat} {src : Bytes} (hb : b <+: w.ct.ctReadbuf)
    (hin : InMarker w.rs) (hrest : b.drop c = src) (hne : src ≠ []) (hlt : (src.length : Int) < w.rs.rsFhRemaining) :
    (storeMarker w src).rs.rsFhRemaining ≠ 0 ∧
      collectMarker w c (b.length - c) = (storeMarker w src, (src.length : Int)) := by
  have hle := hin.le
  have hpos : 0 < src.length := List.length_pos_iff.mpr hne
  have hsum : b.length - c = src.length := by rw [← List.length_drop, hrest]
  have hrm : rmLen w.rs (b.length - c) = src.length := by
    unfold rmLen
    rw [if_pos (by omega)]
    omega
  have hslice : readSlice w c src.length = src := by
    rw [readSlice_eq hb (by omega), hrest, Int.toNat_natCast, List.take_length]
  constructor
  · simp only [storeMarker, World.setRs_rs]
    omega
  · unfold collectMarker
    dsimp only
    rw [if_pos (by omega), hrm, hslice, cInt_of_range (by omega) (by omega)]
    rw [if_neg (by simp only [World.setRs_rs]; omega)]
    rfl

lemma startNext_part (E : Env) {w : World} {b : Bytes} {c : Nat} {src : Bytes}
    (hb : b <+: w.ct.ctReadbuf) (hlen : b.length < 2 ^ 31) (hin : InMarker w.rs)
    (hrest : b.drop c = src) (hne : src ≠ []) (hlt : (src.length : Int) < w.rs.rsFhRemaining) :
    startNext E b.length w c = (storeMarker w src, (b.length : Int)) := by
  have hpos : 0 < src.length := List.length_pos_iff.mpr hne
  have hsum : b.length - c = src.length := by rw [← List.length_drop, hrest]
  obtain ⟨hfh, hcollect⟩ := collectMarker_part hb hin hrest hne hlt
  have hnew : updateNewFragState E w c (b.length - c) = (storeMarker w src, (src.length : Int)) := by
    unfold updateNewFragState
    rw [hcollect]
    dsimp only
    rw [if_pos hfh]
  unfold startNext
  rw [if_pos (by omega), hnew]
  dsimp only
  rw [cInt_of_range (by omega) (by omega)]
  congr 1
  omega

/-- The size of the block that `update_new_frag_state` asks for when these bytes complete the
marker. -/
def announcedSize (w : World) (src : Bytes) : Nat :=
  (fragSize (fraghdrWord (copyFraghdr w.rs.rsFraghdr src))).toNat

lemma collectMarker_full {w : World} {b : Bytes} {c : Nat} {src rest : Bytes} (hb : b <+: w.ct.ctReadbuf)
    (hin : InMarker w.rs) (hrest : b.drop c = src ++ rest) (heq : (src.length : Int) = w.rs.rsFhRemaining) :
    rmLen w.rs (b.length - c) = src.length ∧
      collectMarker w c (b.length - c) = ((storeMarker w src).note .marker, (src.length : Int)) := by
  have hle := hin.le
  have hpos := hin.pos
  have hsum : b.length - c = src.length + rest.length := by
    rw [← List.length_drop, hrest, List.length_append]
  have hrm : rmLen w.rs (b.length - c) = src.length := by
    unfold rmLen
    split <;> omega
  have hslice : readSlice w c src.length = src := by
    rw [readSlice_eq hb (by omega), hrest, Int.toNat_natCast, List.take_left]
  refine ⟨hrm, ?_⟩
  unfold collectMarker
  dsimp only
  rw [if_pos (by omega), hrm, hslice, cInt_of_range (by omega) (by omega)]
  rw [if_pos (by simp only [World.setRs_rs]; omega)]
  rfl

lemma startNext_full {E : Env} {w : World} {b : Bytes} {c : Nat} {src rest : Bytes}
    (hb : b <+: w.ct.ctReadbuf) (hlen : b.length < 2 ^ 31) (hin : InMarker w.rs)
    (hrest : b.drop c = src ++ rest) (heq : (src.length : Int) = w.rs.rsFhRemaining)
    (halloc : E.memAlloc w.serial (announcedSize w src) = true) :
    startNext E b.length w c = (beginFragment w src, ((c + src.length : Nat) : Int)) := by
  have hle := hin.le
  have hpos := hin.pos
  have hsum : b.length - c = src.length + rest.length := by
    rw [← List.length_drop, hrest, List.length_append]
  have hnew : updateNewFragState E w c (b.length - c) = (beginFragment w src, (src.length : Int)) := by
    have hfh : ¬((storeMarker w src).note .marker).rs.rsFhRemaining ≠ 0 := by
      simp only [storeMarker, World.note_rs, World.setRs_rs]
      omega
    have hzero : w.rs.rsFhRemaining - src.length = 0 := by omega
    have hgrant : ((storeMarker w src).note .marker).alloc E (announcedSize w src) =
        (((storeMarker w src).note .marker).tick, some w.serial) := by
      unfold World.alloc
      change (_, if E.memAlloc w.serial _ then some w.serial else none) = _
      rw [halloc, if_pos rfl]
    have hsize : (fragSize (fraghdrWord ((storeMarker w src).note .marker).rs.rsFraghdr)).toNat =
      announcedSize w src := rfl
    unfold updateNewFragState
    rw [(collectMarker_full hb hin hrest heq).2]
    dsimp only
    rw [if_neg hfh, hsize, hgrant]
    simp only [storeMarker, World.note_rs, World.setRs_rs, hzero]
    rfl
  unfold startNext
  rw [if_pos (by omega), hnew]
  dsimp only
  rw [cInt_of_range (by omega) (by omega), Nat.cast_add]

/-! ## Callbacks that leave the parser alone -/

def parserEvents (log : List Event) : List Event := log.filter ofParser

structure SameParser (w w' : World) : Prop where
  rs : w'.rs = w.rs
  readbuf : w'.ct.ctReadbuf = w.ct.ctReadbuf
  events : parserEvents w'.log = parserEvents w.log

/-- Callbacks that do not disturb the parser in a run whose log is good. -/
structure LeavesParser (E : Env) (Good : List Event → Prop) (exec : Exec) : Prop where
  closed : ∀ {a b}, a <+: b → Good b → Good a
  acts : ActsOnly E true exec
  keeps : ∀ {cbi body w w'}, exec cbi body w = some w' → Good w'.log → SameParser w w'

lemma sameParser_refl (w : World) : SameParser w w := ⟨rfl, rfl, rfl⟩

lemma leavesParser_noReentry (E : Env) : LeavesParser E (fun _ => True) noReentry where
  closed := fun _ _ => trivial
  acts := actsOnly_noReentry E true
  keeps := fun h _ => by cases h; exact sameParser_refl _

lemma dispatchReply_keeps {E : Env} {Good : List Event → Prop} {exec : Exec} (hexec : LeavesParser E Good exec)
    {msg : Bytes} {w w' : World} (h : dispatchReply E exec msg w = some w') (hgood : Good w'.log) :
    SameParser w w' := by
  rcases dispatchReply_cases h with ⟨-, rfl⟩ | ⟨xid, body, -, ⟨-, rfl⟩ | ⟨t, cbi, -, ⟨-, rfl⟩ | ⟨-, hrun⟩⟩⟩
  · exact sameParser_refl _
  · exact ⟨rfl, rfl, rfl⟩
  · exact ⟨rfl, rfl, by simp [parserEvents, dropEntry, countReceived, ofParser]⟩
  · have hkeep := hexec.keeps hrun hgood
    refine ⟨hkeep.rs, hkeep.readbuf, hkeep.events.trans ?_⟩
    simp [parserEvents, dropEntry, countReceived, ofParser]

/-! ## Steps -/

def expectNext (w : World) : World := w.setRs (expectNewRpcRecord w.rs)

/-- What is decoded of a record that ends with `block`, and what does not fit. -/
def decodedPart (w : World) (block : Block) : Bytes :=
  ((fragPayloads w.rs.rsFragList).flatten ++ block.bytes).take block.bytes.length

def overrunPart (w : World) : Nat := (fragPayloads w.rs.rsFragList).flatten.length

/-- `update_record_state` on the complete fragment `block`. -/
inductive Closes (E : Env) (exec : Exec) (w : World) (block : Block) : World → Int → Prop where
  | inner (hlast : w.rs.rsLastFrag = false) : Closes E exec w block (expectNext (appendFragment w block)) 0
  | final {v : World} (hlast : w.rs.rsLastFrag = true)
      (hrun : dispatchReply E exec (decodedPart w block)
        (collateRecord (appendFragment w block) (decodedPart w block) (overrunPart w)) = some v) :
      Closes E exec w block (expectNext v) 1

/-- A step of the parser on the rest of a read buffer: the state and the rest after it, and the
number of records completed. -/
inductive ParserStep (E : Env) (exec : Exec) : World → Bytes → World → Bytes → Int → Prop where
  | storePart {w : World} {block : Block} {src : Bytes} (hin : InPayload w.rs block) (hne : src ≠ [])
      (hlt : block.bytes.length + src.length < w.rs.rsFragBufsz) :
      ParserStep E exec w src (storePayload w block src) [] 0
  | storeLast {w w' : World} {block : Block} {src rest : Bytes} {called : Int} (hin : InPayload w.rs block)
      (hne : src ≠ []) (heq : block.bytes.length + src.length = w.rs.rsFragBufsz)
      (hclose : Closes E exec (storePayload w block src) { block with bytes := block.bytes ++ src } w' called) :
      ParserStep E exec w (src ++ rest) w' rest called
  | closeEmpty {w w' : World} {block : Block} {rest : Bytes} {called : Int} (hin : InPayload w.rs block)
      (heq : block.bytes.length = w.rs.rsFragBufsz) (hne : rest ≠ []) (hclose : Closes E exec w block w' called) :
      ParserStep E exec w rest w' rest called
  | markerPart {w : World} {src : Bytes} (hin : InMarker w.rs) (hne : src ≠ [])
      (hlt : (src.length : Int) < w.rs.rsFhRemaining) : ParserStep E exec w src (storeMarker w src) [] 0
  | markerFull {w : World} {src rest : Bytes} (hin : InMarker w.rs)
      (heq : (src.length : Int) = w.rs.rsFhRemaining) :
      ParserStep E exec w (src ++ rest) (beginFragment w src) rest 0

inductive ParserRun (E : Env) (exec : Exec) : World → Bytes → World → Bytes → Int → Prop where
  | refl (w : World) (rest : Bytes) : ParserRun E exec w rest w rest 0
  | step {w w₁ w' : World} {rest rest₁ rest' : Bytes} {n m : Int} (h : ParserStep E exec w rest w₁ rest₁ n)
      (t : ParserRun E exec w₁ rest₁ w' rest' m) : ParserRun E exec w rest w' rest' (n + m)

lemma ParserStep.rest_ne_nil {E : Env} {exec : Exec} {w w' : World} {rest rest' : Bytes} {n : Int}
    (h : ParserStep E exec w rest w' rest' n) : rest ≠ [] := by
  cases h with
  | storePart hin hne hlt => exact hne
  | storeLast hin hne heq hclose => simp [hne]
  | closeEmpty hin heq hne hclose => exact hne
  | markerPart hin hne hlt => exact hne
  | @markerFull src rest' hin heq =>
    have hpos := hin.pos
    have hne : src ≠ [] := by
      rw [← List.length_pos_iff]
      omega
    simp [hne]

lemma ParserStep.run {E : Env} {exec : Exec} {w w' : World} {rest rest' : Bytes} {n : Int}
    (h : ParserStep E exec w rest w' rest' n) : ParserRun E exec w rest w' rest' n := by
  have hrun := ParserRun.step h (.refl w' rest')
  rwa [add_zero] at hrun

lemma ParserRun.trans {E : Env} {exec : Exec} {w w₁ w' : World} {rest rest₁ rest' : Bytes} {n m : Int}
    (h : ParserRun E exec w rest w₁ rest₁ n) (t : ParserRun E exec w₁ rest₁ w' rest' m) :
    ParserRun E exec w rest w' rest' (n + m) := by
  induction h with
  | refl w rest => rwa [zero_add]
  | step h t' ih =>
    rw [add_assoc]
    exact .step h (ih t)

lemma fragPayloads_append (l : List FragBuffer) (block : Block) (n : Nat) (hn : block.bytes.length = n) :
    fragPayloads (l ++ [⟨block, 0, n⟩]) = fragPayloads l ++ [block.bytes] := by
  simp [fragPayloads, ← hn]

lemma callUserCb_append {E : Env} (hE : AllocsSucceed E) (exec : Exec) {w : World} {block : Block}
    (hin : InPayload w.rs block) (hfull : block.bytes.length = w.rs.rsFragBufsz) :
    callUserCb E exec (appendFragment w block) = dispatchReply E exec (decodedPart w block)
      (collateRecord (appendFragment w block) (decodedPart w block) (overrunPart w)) := by
  have hout : (fragPayloads (appendFragment w block).rs.rsFragList).flatten =
      (fragPayloads w.rs.rsFragList).flatten ++ block.bytes := by
    simp only [appendFragment, World.setRs_rs]
    rw [fragPayloads_append _ _ _ hfull]
    simp
  have hsize : (appendFragment w block).rs.rsRecordsize = (block.bytes.length : Nat) := by
    rw [hfull]
    rfl
  have hlt : block.bytes.length < 2 ^ 31 := hfull ▸ hin.size
  rw [callUserCb_eq exec (hE _ _) hsize hlt (by rw [hout, List.length_append]; omega), hout]
  simp [decodedPart, overrunPart]

lemma updateRecordState_closes {E : Env} (hE : AllocsSucceed E) {exec : Exec} {w w' : World} {block : Block}
    {called : Int} (hin : InPayload w.rs block) (hfull : block.bytes.length = w.rs.rsFragBufsz)
    (hsz : w.rs.rsRecordsize = 0) (h : updateRecordState E exec w = some (w', called)) :
    Closes E exec w block w' called := by
  rw [updateRecordState_eq hE exec hin hsz] at h
  cases hlast : w.rs.rsLastFrag with
  | false =>
    rw [hlast, if_neg (by simp)] at h
    cases h
    exact .inner hlast
  | true =>
    rw [hlast, if_pos rfl, callUserCb_append hE exec hin hfull, Option.map_eq_some_iff] at h
    obtain ⟨v, hrun, hv⟩ := h
    cases hv
    exact .final hlast hrun

lemma inPayload_storePayload {w : World} {block : Block} {src : Bytes} (hin : InPayload w.rs block)
    (hfit : block.bytes.length + src.length ≤ w.rs.rsFragBufsz) :
    InPayload (storePayload w block src).rs { block with bytes := block.bytes ++ src } := by
  have hrem := hin.remaining
  have hoff := hin.offset
  constructor
  · rfl
  · exact hin.fh
  · simp [storePayload, hoff]
  · simp only [storePayload, World.note_rs, World.setRs_rs, List.length_append]
    omega
  · simpa [storePayload] using hfit
  · exact hin.size

lemma inPayload_beginFragment (w : World) (src : Bytes) :
    InPayload (beginFragment w src).rs ⟨w.serial, []⟩ := by
  constructor
  · rfl
  · rfl
  · rfl
  · simp [beginFragment]
  · exact Nat.zero_le _
  · exact fragSize_lt _

lemma inMarker_expectNext (w : World) : InMarker (expectNext w).rs := ⟨rfl, show (0 : Int) < 4 by decide, le_refl _⟩

lemma inMarker_storeMarker {w : World} {src : Bytes} (hin : InMarker w.rs)
    (hlt : (src.length : Int) < w.rs.rsFhRemaining) : InMarker (storeMarker w src).rs := by
  have hle := hin.le
  refine ⟨hin.remaining, ?_, ?_⟩
  · simp only [storeMarker, World.setRs_rs]
    omega
  · simp only [storeMarker, World.setRs_rs]
    omega

/-- The third branch of the loop, where a marker is expected. -/
lemma startNext_run {E : Env} (hE : AllocsSucceed E) (exec : Exec) {w : World} {b : Bytes} {c : Nat}
    (hb : b <+: w.ct.ctReadbuf) (hlen : b.length < 2 ^ 31) (hin : InMarker w.rs) (hc : c ≤ b.length) :
    ∃ (w' : World) (k : Nat), startNext E b.length w c = (w', (k : Int)) ∧ c ≤ k ∧ k ≤ b.length ∧
      (c < b.length → c < k) ∧ ParserRun E exec w (b.drop c) w' (b.drop k) 0 := by
  have hpos := hin.pos
  have hlen' : (b.drop c).length = b.length - c := List.length_drop
  by_cases hend : c = b.length
  · refine ⟨w, c, ?_, le_refl _, hc, fun hlt => absurd hend (by omega), .refl _ _⟩
    rw [hend]
    exact startNext_end E w b
  by_cases hpart : ((b.drop c).length : Int) < w.rs.rsFhRemaining
  · have hne : b.drop c ≠ [] := by
      rw [← List.length_pos_iff]
      omega
    refine ⟨_, b.length, startNext_part E hb hlen hin rfl hne hpart, hc, le_refl _, fun _ => by omega, ?_⟩
    rw [List.drop_length]
    exact (ParserStep.markerPart hin hne hpart).run
  · have hsrc : ((b.drop c).take w.rs.rsFhRemaining.toNat).length = w.rs.rsFhRemaining.toNat := by
      rw [List.length_take]
      omega
    have hsplit := (List.take_append_drop w.rs.rsFhRemaining.toNat (b.drop c)).symm
    have hcast : (((b.drop c).take w.rs.rsFhRemaining.toNat).length : Int) = w.rs.rsFhRemaining := by
      omega
    refine ⟨_, _, startNext_full hb hlen hin hsplit hcast (hE _ _), by omega, by omega, fun _ => by omega, ?_⟩
    rw [hsrc, ← List.drop_drop]
    nth_rewrite 1 [hsplit]
    exact (ParserStep.markerFull hin hcast).run

section

variable {E : Env} {Good : List Event → Prop} {exec : Exec} (hexec : LeavesParser E Good exec)

include hexec

lemma Closes.readbuf {w w' : World} {block : Block} {called : Int} (h : Closes E exec w block w' called)
    (hgood : Good w'.log) : w'.ct.ctReadbuf = w.ct.ctReadbuf := by
  cases h with
  | inner hlast => rfl
  | final hlast hrun => exact (dispatchReply_keeps hexec hrun hgood).readbuf

lemma Closes.mono {w w' : World} {block : Block} {called : Int} (h : Closes E exec w block w' called) :
    w.log <+: w'.log := by
  cases h with
  | inner hlast => exact List.prefix_refl _
  | final hlast hrun =>
    apply List.IsPrefix.trans _ (dispatchReply_acts hexec.acts List.getLast?_concat hrun).log_grows
    simp [collateRecord, appendFragment]

omit hexec in
lemma Closes.inv {w w' : World} {block : Block} {called : Int} (h : Closes E exec w block w' called) :
    ParserInv w'.rs := by
  cases h with
  | inner hlast => exact ⟨rfl, Or.inl (inMarker_expectNext _)⟩
  | final hlast hrun => exact ⟨rfl, Or.inl (inMarker_expectNext _)⟩

omit hexec in
lemma ParserStep.inv {w w' : World} {rest rest' : Bytes} {n : Int} (h : ParserStep E exec w rest w' rest' n)
    (hinv : ParserInv w.rs) : ParserInv w'.rs := by
  cases h with
  | storePart hin hne hlt => exact ⟨hinv.1, Or.inr ⟨_, inPayload_storePayload hin (by omega)⟩⟩
  | storeLast hin hne heq hclose => exact hclose.inv
  | closeEmpty hin heq hne hclose => exact hclose.inv
  | markerPart hin hne hlt => exact ⟨hinv.1, Or.inl (inMarker_storeMarker hin hlt)⟩
  | markerFull hin heq => exact ⟨hinv.1, Or.inr ⟨_, inPayload_beginFragment w _⟩⟩

lemma ParserStep.mono {w w' : World} {rest rest' : Bytes} {n : Int} (h : ParserStep E exec w rest w' rest' n) :
    w.log <+: w'.log := by
  cases h with
  | storePart hin hne hlt => exact List.prefix_append _ _
  | storeLast hin hne heq hclose => exact List.IsPrefix.trans (List.prefix_append _ _) (hclose.mono hexec)
  | closeEmpty hin heq hne hclose => exact hclose.mono hexec
  | markerPart hin hne hlt => exact List.prefix_refl _
  | markerFull hin heq => exact List.prefix_append _ _

lemma ParserStep.readbuf {w w' : World} {rest rest' : Bytes} {n : Int}
    (h : ParserStep E exec w rest w' rest' n) (hgood : Good w'.log) : w'.ct.ctReadbuf = w.ct.ctReadbuf := by
  cases h with
  | storePart hin hne hlt => rfl
  | storeLast hin hne heq hclose => exact hclose.readbuf hexec hgood
  | closeEmpty hin heq hne hclose => exact hclose.readbuf hexec hgood
  | markerPart hin hne hlt => rfl
  | markerFull hin heq => rfl

omit hexec in
lemma closeCurrent_skip {w : World} (h : w.rs.rsFragRemaining ≠ 0) : closeCurrent E exec w = some (w, 0) := by
  unfold closeCurrent
  rw [if_neg (fun hc => h hc.2)]

omit hexec in
lemma closeCurrent_full (hE : AllocsSucceed E) {w w' : World} {block : Block} {called : Int}
    (hin : InPayload w.rs block) (hfull : block.bytes.length = w.rs.rsFragBufsz) (hsz : w.rs.rsRecordsize = 0)
    (h : closeCurrent E exec w = some (w', called)) : Closes E exec w block w' called := by
  have hrem := hin.remaining
  have hoff := hin.offset
  unfold closeCurrent at h
  rw [if_pos (by omega)] at h
  exact updateRecordState_closes hE hin hfull hsz h

omit hexec in
lemma Closes.inMarker {w w' : World} {block : Block} {called : Int} (h : Closes E exec w block w' called) :
    InMarker w'.rs := by
  cases h with
  | inner hlast => exact inMarker_expectNext _
  | final hlast hrun => exact inMarker_expectNext _

lemma ParserRun.mono {w w' : World} {rest rest' : Bytes} {n : Int} (h : ParserRun E exec w rest w' rest' n) :
    w.log <+: w'.log := by
  induction h with
  | refl w rest => exact List.prefix_refl _
  | step h _ ih => exact (h.mono hexec).trans ih

lemma ParserRun.readbuf {w w' : World} {rest rest' : Bytes} {n : Int} (h : ParserRun E exec w rest w' rest' n)
    (hgood : Good w'.log) : w'.ct.ctReadbuf = w.ct.ctReadbuf := by
  induction h with
  | refl w rest => rfl
  | step h t ih => rw [ih hgood, h.readbuf hexec (hexec.closed (t.mono hexec) hgood)]

omit hexec in
lemma ParserRun.inv {w w' : World} {rest rest' : Bytes} {n : Int} (h : ParserRun E exec w rest w' rest' n)
    (hinv : ParserInv w.rs) : ParserInv w'.rs := by
  induction h with
  | refl w rest => exact hinv
  | step h _ ih => exact ih (h.inv hinv)

omit hexec in
/-- The first two branches of a pass. Either the buffer is used up or a marker is expected. -/
lemma copyThenClose_run (hE : AllocsSucceed E) {w v w₁ : World} {b : Bytes} {c : Nat} {d called : Int}
    (hb : b <+: w.ct.ctReadbuf) (hlen : b.length < 2 ^ 31) (hinv : ParserInv w.rs) (hc : c < b.length)
    (hcopy : copyPayload w c b.length = (v, d)) (hcl : closeCurrent E exec v = some (w₁, called)) :
    ∃ k : Nat, d = k ∧ c ≤ k ∧ k ≤ b.length ∧ (k = b.length ∨ InMarker w₁.rs) ∧
      ParserRun E exec w (b.drop c) w₁ (b.drop k) called := by
  have hlen' : (b.drop c).length = b.length - c := List.length_drop
  have hne : b.drop c ≠ [] := by
    rw [← List.length_pos_iff]
    omega
  rcases copyPayload_cases hb hlen hinv hc hcopy with ⟨hin, rfl, rfl⟩ | ⟨block, hin,
    ⟨hfull, rfl, rfl⟩ | ⟨hpart, rfl, rfl⟩ | ⟨src, rest, hsplit, hsrcne, hfull, rfl, rfl⟩⟩
  · have hrem := hin.remaining
    rw [closeCurrent_skip (by omega)] at hcl
    cases hcl
    exact ⟨c, rfl, le_refl _, hc.le, Or.inr hin, .refl _ _⟩
  · have hclose := closeCurrent_full hE hin hfull hinv.1 hcl
    exact ⟨c, rfl, le_refl _, hc.le, Or.inr hclose.inMarker, (ParserStep.closeEmpty hin hfull hne hclose).run⟩
  · have hrem := hin.remaining
    rw [closeCurrent_skip (by simp only [storePayload, World.note_rs, World.setRs_rs]; omega)] at hcl
    cases hcl
    refine ⟨b.length, rfl, hc.le, le_refl _, Or.inl rfl, ?_⟩
    rw [List.drop_length]
    exact (ParserStep.storePart hin hne hpart).run
  · have hfull' : (block.bytes ++ src).length = (storePayload w block src).rs.rsFragBufsz := by
      rw [List.length_append]
      exact hfull
    have hclose := closeCurrent_full hE (inPayload_storePayload hin hfull.le) hfull' hinv.1 hcl
    have hsum : b.length - c = src.length + rest.length := by
      rw [← hlen', hsplit, List.length_append]
    refine ⟨_, rfl, by omega, by omega, Or.inr hclose.inMarker, ?_⟩
    rw [← List.drop_drop, hsplit, List.drop_left]
    exact (ParserStep.storeLast hin hsrcne hfull hclose).run

/-- A pass of the loop makes progress, by steps of the parser. -/
lemma fragPass_run (hE : AllocsSucceed E) {w w' : World} {b : Bytes} {c : Nat} {c' called : Int}
    (hb : b <+: w.ct.ctReadbuf) (hlen : b.length < 2 ^ 31) (hinv : ParserInv w.rs) (hc : c < b.length)
    (h : fragPass E exec b.length w c = some (w', c', called)) (hgood : Good w'.log) :
    ∃ k : Nat, c' = k ∧ c < k ∧ k ≤ b.length ∧ ParserRun E exec w (b.drop c) w' (b.drop k) called := by
  obtain ⟨v, d, w₁, hcopy, hcl, hst⟩ := fragPass_cases h
  obtain ⟨k, rfl, hck, hk, hor, hrun⟩ := copyThenClose_run hE hb hlen hinv hc hcopy hcl
  by_cases hend : k = b.length
  · rw [hend, startNext_end] at hst
    cases hst
    exact ⟨b.length, rfl, hc, le_refl _, hend ▸ hrun⟩
  have hmono := ((startNext_handled E true noReentry w₁ b.length k).acts (actsOnly_noReentry E true)).log_grows
  rw [hst] at hmono
  have hb₁ : b <+: w₁.ct.ctReadbuf := by rwa [hrun.readbuf hexec (hexec.closed hmono hgood)]
  obtain ⟨v', k', heq, h₁, h₂, h₃, hrun'⟩ := startNext_run hE exec hb₁ hlen (hor.resolve_left hend) hk
  rw [hst] at heq
  cases heq
  have hlt := h₃ (by omega)
  refine ⟨k', rfl, by omega, h₂, ?_⟩
  have htotal := hrun.trans hrun'
  rwa [add_zero] at htotal

/-- The loop is a run of the parser over the rest of the buffer. -/
lemma fragLoop_run (hE : AllocsSucceed E) {fuel : Nat} {w w' : World} {b : Bytes} {c : Nat} {called n : Int}
    (hb : b <+: w.ct.ctReadbuf) (hlen : b.length < 2 ^ 31) (hinv : ParserInv w.rs) (hc : c ≤ b.length)
    (h : fragLoop E exec b.length fuel w c called = some (w', n)) (hgood : Good w'.log) :
    ParserRun E exec w (b.drop c) w' [] (n - called) := by
  have hrun : ∀ k : Nat, (c : Int) = k → b <+: w.ct.ctReadbuf → ParserInv w.rs → k ≤ b.length →
      ParserRun E exec w (b.drop k) w' [] (n - called) := by
    apply fragLoop_induction (P := fun _ w c called => ∀ k : Nat, c = k → b <+: w.ct.ctReadbuf →
      ParserInv w.rs → k ≤ b.length → ParserRun E exec w (b.drop k) w' [] (n - called)) _ _ h
    · intro fuel c hend k hk _ _ hle
      have hall : k = b.length := by omega
      rw [hall, List.drop_length, sub_self]
      exact .refl _ _
    · rintro fuel w _ called v c' m hlt hpass hloop ih c rfl hb hinv hc
      have hgood' : Good v.log := hexec.closed ((fragLoop_handled hloop).acts hexec.acts).log_grows hgood
      obtain ⟨k, hk, hck, hkb, hrun⟩ := fragPass_run hexec hE hb hlen hinv (by omega) hpass hgood'
      have hb' : b <+: v.ct.ctReadbuf := by rwa [hrun.readbuf hexec hgood']
      have hsum : n - called = m + (n - (called + m)) := by omega
      rw [hsum]
      exact hrun.trans (ih k hk hb' (hrun.inv hinv) hkb)
  exact hrun c rfl hb hinv hc

lemma updateFragState_run (hE : AllocsSucceed E) {w w' : World} {b : Bytes} {n : Int}
    (hb : b <+: w.ct.ctReadbuf) (hlen : b.length < 2 ^ 31) (hinv : ParserInv w.rs)
    (h : updateFragState E exec b.length w = some (w', n)) (hgood : Good w'.log) :
    ParserRun E exec w b w' [] n := by
  have hrun := fragLoop_run hexec hE hb hlen hinv (Nat.zero_le _) h hgood
  rwa [List.drop_zero, sub_zero] at hrun

end

/-! ## Callbacks that return -/

def Returns (exec : Exec) : Prop := ∀ cbi body w, ∃ w', exec cbi body w = some w'

lemma returns_noReentry : Returns noReentry := fun _ _ w => ⟨w, rfl⟩

lemma dispatchReply_returns {E : Env} {exec : Exec} (hret : Returns exec) (msg : Bytes) (w : World) :
    ∃ w', dispatchReply E exec msg w = some w' := by
  unfold dispatchReply
  split
  · exact ⟨_, rfl⟩
  · dsimp only
    split
    · exact ⟨_, rfl⟩
    · split
      · exact ⟨_, rfl⟩
      · exact hret _ _ _

lemma fragPass_returns {E : Env} {exec : Exec} (hret : Returns exec) (z : Int) (w : World) (c : Int) :
    ∃ r, fragPass E exec z w c = some r := by
  have hcb : ∀ w, ∃ w', callUserCb E exec w = some w' := by
    intro w
    unfold callUserCb
    dsimp only
    split
    · exact ⟨_, rfl⟩
    · exact dispatchReply_returns hret _ _
  have hclose : ∀ w, ∃ r, closeCurrent E exec w = some r := by
    intro w
    unfold closeCurrent updateRecordState
    dsimp only
    split
    · split
      · obtain ⟨w', hw'⟩ := hcb ((addFragment E w).setRs { (addFragment E w).rs with
          rsRecordsize := cInt ((addFragment E w).rs.rsRecordsize + (addFragment E w).rs.rsFragBufsz) })
        rw [hw']
        exact ⟨_, rfl⟩
      · exact ⟨_, rfl⟩
    · exact ⟨_, rfl⟩
  unfold fragPass
  obtain ⟨r, hr⟩ := hclose (copyPayload w c z).1
  dsimp only
  rw [hr]
  exact ⟨_, rfl⟩

/-- Every pass makes progress, so the loop ends. -/
lemma fragLoop_returns {E : Env} (hE : AllocsSucceed E) {exec : Exec}
    (hexec : LeavesParser E (fun _ => True) exec) (hret : Returns exec) (fuel : Nat) {w : World} {b : Bytes}
    (c : Nat) (called : Int) (hb : b <+: w.ct.ctReadbuf) (hlen : b.length < 2 ^ 31) (hinv : ParserInv w.rs)
    (hfuel : b.length ≤ c + fuel) :
    ∃ r, fragLoop E exec b.length fuel w c called = some r := by
  induction fuel generalizing w c called with
  | zero =>
    unfold fragLoop
    rw [if_neg (by omega)]
    exact ⟨_, rfl⟩
  | succ fuel ih =>
    unfold fragLoop
    split
    · obtain ⟨⟨v, c', m⟩, hpass⟩ := fragPass_returns hret (b.length : Int) w c
      obtain ⟨k, rfl, hck, hk, hrun⟩ := fragPass_run hexec hE hb hlen hinv (by omega) hpass trivial
      dsimp only
      rw [hpass]
      exact ih k (called + m) (by rwa [hrun.readbuf hexec trivial]) (hrun.inv hinv) (by omega)
    · exact ⟨_, rfl⟩

lemma updateFragState_returns {E : Env} (hE : AllocsSucceed E) {exec : Exec}
    (hexec : LeavesParser E (fun _ => True) exec) (hret : Returns exec) {w : World} {b : Bytes}
    (hb : b <+: w.ct.ctReadbuf) (hlen : b.length < 2 ^ 31) (hinv : ParserInv w.rs) :
    ∃ w' n, updateFragState E exec b.length w = some (w', n) ∧ ParserRun E exec w b w' [] n := by
  obtain ⟨⟨w', n⟩, h⟩ := fragLoop_returns hE hexec hret (b.length + E.slack) 0 0 hb hlen hinv (by omega)
  have hup : updateFragState E exec b.length w = some (w', n) := h
  exact ⟨w', n, hup, updateFragState_run hexec hE hb hlen hinv hup trivial⟩

end UnfsClient.Proofs
