import UnfsClient.Lib.RecordMarking
import UnfsClient.Proofs.ParserSteps

/-!
# The record parser refines the record marking standard

`Parses s rs` relates the record state of a handle to a state of the byte machine of
`RecordMarking`. As long as no read buffer ends inside a marker, feeding a buffer to
`update_frag_state` is feeding its bytes to that machine, and the records handed to
`call_user_cb` are the records of the stream. What is decoded of a record is only as long as
its last fragment.
-/

namespace UnfsClient.Proofs

open Lib RecordMarking

def fraghdrBytes (rs : RpcRecordState) : Bytes := List.ofFn rs.rsFraghdr

def CursorOk : Cursor → RpcRecordState → Prop
  | .marker got, rs =>
    InMarker rs ∧ (got.length : Int) = 4 - rs.rsFhRemaining ∧ (fraghdrBytes rs).take got.length = got
  | .payload hdr got, rs =>
    (∃ serial, InPayload rs ⟨serial, got⟩) ∧ fraghdrBytes rs = hdr ∧
      rs.rsFragBufsz = markerSize hdr ∧ rs.rsLastFrag = markerLast hdr

structure Parses (s : Stream) (rs : RpcRecordState) : Prop where
  size : rs.rsRecordsize = 0
  frags : fragPayloads rs.rsFragList = s.frags
  cursor : CursorOk s.cursor rs

/-- The records handed to `call_user_cb`, with `rs_recordsize` at that point. -/
def recordOf? : Event → Option (List Bytes × Int)
  | .record frags size => some (frags, size)
  | _ => none

def recordsOf (log : List Event) : List (List Bytes × Int) := log.filterMap recordOf?

/-- The buffers `collate_buf_list` returned, and the bytes it wrote past each of them. -/
def collatedOf? : Event → Option (Bytes × Nat)
  | .collated msg overrun => some (msg, overrun)
  | _ => none

def collatedOf (log : List Event) : List (Bytes × Nat) := log.filterMap collatedOf?

def lastSize (r : List Bytes) : Nat := (r.getLast?.getD []).length

/-- What the log says about the record `r` of the stream. -/
def recordEntry (r : List Bytes) : List Bytes × Int := (r, lastSize r)

def collatedEntry (r : List Bytes) : Bytes × Nat :=
  (r.flatten.take (lastSize r), r.flatten.length - lastSize r)

lemma Parses.inv {s : Stream} {rs : RpcRecordState} (h : Parses s rs) : ParserInv rs := by
  refine ⟨h.size, ?_⟩
  have hc := h.cursor
  cases hs : s.cursor with
  | marker got =>
    rw [hs] at hc
    exact Or.inl hc.1
  | payload hdr got =>
    rw [hs] at hc
    exact Or.inr ⟨_, hc.1.choose_spec⟩

lemma fraghdrBytes_length (rs : RpcRecordState) : (fraghdrBytes rs).length = 4 := List.length_ofFn

/-- Copied to the start, marker bytes are the bytes collected, provided none were before. -/
lemma take_copyFraghdr (hdr : Fin 4 → UInt8) (src : Bytes) (hlen : src.length ≤ 4) :
    (List.ofFn (copyFraghdr hdr src)).take src.length = src := by
  apply List.ext_getElem
  · simp [hlen]
  · intro i h₁ h₂
    rw [List.getElem_take, List.getElem_ofFn]
    simp [copyFraghdr, h₂]

lemma collatedOf_append (a b : List Event) : collatedOf (a ++ b) = collatedOf a ++ collatedOf b :=
  List.filterMap_append

lemma recordsOf_parserEvents (log : List Event) : recordsOf (parserEvents log) = recordsOf log := by
  unfold recordsOf parserEvents
  rw [List.filterMap_filter]
  apply List.filterMap_congr
  intro e _
  cases e <;> rfl

lemma collatedOf_parserEvents (log : List Event) : collatedOf (parserEvents log) = collatedOf log := by
  unfold collatedOf parserEvents
  rw [List.filterMap_filter]
  apply List.filterMap_congr
  intro e _
  cases e <;> rfl

lemma recordEntry_append (frags : List Bytes) (p : Bytes) :
    recordEntry (frags ++ [p]) = (frags ++ [p], (p.length : Int)) := by
  simp [recordEntry, lastSize]

lemma collatedEntry_append (frags : List Bytes) (p : Bytes) :
    collatedEntry (frags ++ [p]) = ((frags.flatten ++ p).take p.length, frags.flatten.length) := by
  simp [collatedEntry, lastSize]

lemma Parses.of_inMarker {s : Stream} {rs : RpcRecordState} (h : Parses s rs) (hin : InMarker rs)
    (hmid : ¬MidMarker s) : s = ⟨s.frags, .marker []⟩ ∧ rs.rsFhRemaining = 4 := by
  obtain ⟨frags, cursor⟩ := s
  have hcur := h.cursor
  cases cursor with
  | marker got =>
    have hgot : got = [] := by
      by_contra hne
      exact hmid ⟨got, rfl, hne⟩
    subst hgot
    have hlen := hcur.2.1
    simp only [List.length_nil] at hlen
    exact ⟨rfl, by omega⟩
  | payload hdr got =>
    obtain ⟨⟨serial, hpay⟩, -⟩ := hcur
    have hrem := hin.remaining
    have hrem' := hpay.remaining
    have hle := hpay.le
    omega

lemma Parses.of_inPayload {s : Stream} {rs : RpcRecordState} {block : Block} (h : Parses s rs)
    (hin : InPayload rs block) : ∃ hdr, s = ⟨s.frags, .payload hdr block.bytes⟩ ∧ fraghdrBytes rs = hdr ∧
      rs.rsFragBufsz = markerSize hdr ∧ rs.rsLastFrag = markerLast hdr := by
  obtain ⟨frags, cursor⟩ := s
  have hcur := h.cursor
  cases cursor with
  | marker got =>
    have hrem := hcur.1.remaining
    have hrem' := hin.remaining
    have hle := hin.le
    omega
  | payload hdr got =>
    obtain ⟨⟨serial, hpay⟩, hhdr, hsz, hlast⟩ := hcur
    have hblock := hpay.base.symm.trans hin.base
    cases hblock
    exact ⟨hdr, rfl, hhdr, hsz, hlast⟩

lemma closeFragment_not_mid (frags : List Bytes) (hdr p : Bytes) : ¬MidMarker (closeFragment frags hdr p).1 := by
  rintro ⟨got, hgot, hne⟩
  unfold closeFragment at hgot
  split at hgot <;> cases hgot <;> exact hne rfl

/-! ## Records handed on -/

/-- Only the record state and the serial number differ, and only the parser has logged. -/
structure ParserOnly (w w' : World) : Prop where
  ct : ∃ rs, w'.ct = { w.ct with ctRecordState := rs }
  reads : w'.reads = w.reads
  depth : w'.depth = w.depth
  serial : w.serial ≤ w'.serial
  log : ∃ es, w'.log = w.log ++ es ∧ ∀ e ∈ es, ofParser e = true

lemma parserOnly_refl (w : World) : ParserOnly w w := ⟨⟨w.rs, rfl⟩, rfl, rfl, le_refl _, [], by simp⟩

lemma parserOnly_setRs (w : World) (rs : RpcRecordState) : ParserOnly w (w.setRs rs) :=
  ⟨⟨rs, rfl⟩, rfl, rfl, le_refl _, [], by simp⟩

lemma parserOnly_note (w : World) {e : Event} (he : ofParser e = true) : ParserOnly w (w.note e) :=
  ⟨⟨w.rs, rfl⟩, rfl, rfl, le_refl _, [e], rfl, by simpa using he⟩

lemma parserOnly_tick (w : World) : ParserOnly w w.tick := ⟨⟨w.rs, rfl⟩, rfl, rfl, Nat.le_succ _, [], by simp⟩

lemma ParserOnly.trans {w v w' : World} (h : ParserOnly w v) (t : ParserOnly v w') : ParserOnly w w' := by
  obtain ⟨rs, hrs⟩ := h.ct
  obtain ⟨rs', hrs'⟩ := t.ct
  obtain ⟨es, hes, hp⟩ := h.log
  obtain ⟨es', hes', hp'⟩ := t.log
  refine ⟨⟨rs', by rw [hrs', hrs]⟩, t.reads.trans h.reads, t.depth.trans h.depth, h.serial.trans t.serial,
    es ++ es', by rw [hes', hes, List.append_assoc], ?_⟩
  intro e he
  rcases List.mem_append.mp he with he | he
  · exact hp e he
  · exact hp' e he

lemma storePayload_only (w : World) (block : Block) (src : Bytes) : ParserOnly w (storePayload w block src) :=
  (parserOnly_setRs w _).trans (parserOnly_note _ rfl)

/-- Between `w` and `w'` the parser hands on these records, in this order, and does nothing else. -/
inductive Dispatches (E : Env) (exec : Exec) : World → List (List Bytes) → World → Prop where
  | done {w w' : World} (h : ParserOnly w w') : Dispatches E exec w [] w'
  | next {w v u w' : World} {r : List Bytes} {rs : List (List Bytes)} {overrun : Nat} (h : ParserOnly w v)
      (hlast : v.log.getLast? = some (.collated (collatedEntry r).1 overrun))
      (hrun : dispatchReply E exec (collatedEntry r).1 v = some u) (t : Dispatches E exec u rs w') :
      Dispatches E exec w (r :: rs) w'

lemma Dispatches.head {E : Env} {exec : Exec} {w v w' : World} {rs : List (List Bytes)} (h : ParserOnly w v)
    (t : Dispatches E exec v rs w') : Dispatches E exec w rs w' := by
  cases t with
  | done h' => exact .done (h.trans h')
  | next h' hlast hrun t => exact .next (h.trans h') hlast hrun t

lemma Dispatches.trans {E : Env} {exec : Exec} {w v w' : World} {rs rs' : List (List Bytes)}
    (h : Dispatches E exec w rs v) (t : Dispatches E exec v rs' w') : Dispatches E exec w (rs ++ rs') w' := by
  induction h with
  | done h => exact t.head h
  | next h hlast hrun _ ih => exact .next h hlast hrun (ih t)

section

variable {E : Env} {Good : List Event → Prop} {exec : Exec} (hexec : LeavesParser E Good exec)

include hexec

/-- Closing a fragment closes it in the byte machine. -/
lemma Closes.parses {w w' : World} {block : Block} {called : Int} {frags : List Bytes} {hdr : Bytes}
    (h : Closes E exec w block w' called)
    (hfull : block.bytes.length = w.rs.rsFragBufsz) (hfrags : fragPayloads w.rs.rsFragList = frags)
    (hlast : w.rs.rsLastFrag = markerLast hdr) (hgood : Good w'.log) :
    Parses (closeFragment frags hdr block.bytes).1 w'.rs ∧
      called = (closeFragment frags hdr block.bytes).2.length ∧
      recordsOf w'.log = recordsOf w.log ++ (closeFragment frags hdr block.bytes).2.map recordEntry ∧
      collatedOf w'.log = collatedOf w.log ++ (closeFragment frags hdr block.bytes).2.map collatedEntry ∧
      Dispatches E exec w (closeFragment frags hdr block.bytes).2 w' := by
  have happ : fragPayloads (appendFragment w block).rs.rsFragList = frags ++ [block.bytes] := by
    rw [← hfrags]
    exact fragPayloads_append _ _ _ hfull
  have honly : ParserOnly w (appendFragment w block) := (parserOnly_tick w).trans (parserOnly_setRs _ _)
  cases h with
  | inner hl =>
    have hclose : closeFragment frags hdr block.bytes = (⟨frags ++ [block.bytes], .marker []⟩, []) := by
      unfold closeFragment
      rw [← hlast, hl]
      rfl
    rw [hclose]
    refine ⟨⟨rfl, happ, inMarker_expectNext _, rfl, rfl⟩, rfl, ?_, ?_, ?_⟩
    · simp [expectNext, appendFragment]
    · simp [expectNext, appendFragment]
    · exact .done (honly.trans (parserOnly_setRs _ _))
  | @final v hl hrun =>
    have hclose : closeFragment frags hdr block.bytes = (fresh, [frags ++ [block.bytes]]) := by
      unfold closeFragment
      rw [← hlast, hl]
      rfl
    have hkeep := dispatchReply_keeps hexec hrun hgood
    have hlist : v.rs.rsFragList = [] := by
      rw [hkeep.rs]
      rfl
    have hsize : (appendFragment w block).rs.rsRecordsize = block.bytes.length := by
      rw [hfull]
      rfl
    rw [hclose]
    have hmsg : (collatedEntry (frags ++ [block.bytes])).1 = decodedPart w block := by
      rw [collatedEntry_append, ← hfrags]
      rfl
    refine ⟨⟨rfl, ?_, inMarker_expectNext _, rfl, rfl⟩, rfl, ?_, ?_, ?_⟩
    · change fragPayloads v.rs.rsFragList = []
      rw [hlist]
      rfl
    · change recordsOf v.log = _
      rw [← recordsOf_parserEvents, hkeep.events, recordsOf_parserEvents, List.map_singleton, recordEntry_append,
        ← hsize, ← happ]
      simp [collateRecord, recordsOf, recordOf?]
      rfl
    · change collatedOf v.log = _
      rw [← collatedOf_parserEvents, hkeep.events, collatedOf_parserEvents, List.map_singleton,
        collatedEntry_append, ← hfrags]
      simp [collateRecord, collatedOf, collatedOf?, decodedPart, overrunPart]
      rfl
    · have hcollate : ParserOnly w (collateRecord (appendFragment w block) (decodedPart w block) (overrunPart w)) :=
        honly.trans ((parserOnly_note _ rfl).trans ((parserOnly_tick _).trans
          ((parserOnly_setRs _ _).trans (parserOnly_note _ rfl))))
      have hlog : (collateRecord (appendFragment w block) (decodedPart w block) (overrunPart w)).log.getLast? =
          some (.collated (collatedEntry (frags ++ [block.bytes])).1 (overrunPart w)) := by
        rw [hmsg]
        exact List.getLast?_concat
      exact .next hcollate hlog (by rwa [hmsg]) (.done (parserOnly_setRs v _))

/-- What one step of the parser is in the byte machine, away from a marker that was cut. -/
lemma ParserStep.parses {w w' : World} {rest rest' : Bytes} {n : Int} {s : Stream}
    (h : ParserStep E exec w rest w' rest' n) (hs : Parses s w.rs) (hmid : ¬MidMarker s) (hgood : Good w'.log) :
    ∃ s' recs, Parses s' w'.rs ∧
      feed s rest = ((feed s' rest').1, recs ++ (feed s' rest').2) ∧ (rest' ≠ [] → ¬MidMarker s') ∧
      n = recs.length ∧ recordsOf w'.log = recordsOf w.log ++ recs.map recordEntry ∧
      collatedOf w'.log = collatedOf w.log ++ recs.map collatedEntry ∧ Dispatches E exec w recs w' := by
  cases h with
  | @storePart block src hin hne hlt =>
    obtain ⟨hdr, hcur, hhdr, hsz, hlast⟩ := hs.of_inPayload hin
    have hfeed := feed_payload_partial s.frags hdr block.bytes rest (by omega)
    refine ⟨⟨s.frags, .payload hdr (block.bytes ++ rest)⟩, [], ⟨hs.size, hs.frags, ?_⟩, ?_, by simp, rfl, ?_, ?_,
      .done (storePayload_only w block rest)⟩
    · exact ⟨⟨block.serial, inPayload_storePayload hin (by omega)⟩, hhdr, hsz, hlast⟩
    · rw [← hcur] at hfeed
      rw [hfeed]
      rfl
    · simp [storePayload, recordsOf, recordOf?]
    · simp [storePayload, collatedOf, collatedOf?]
  | @storeLast _ block src _ _ hin hne heq hclose =>
    obtain ⟨hdr, hcur, hhdr, hsz, hlast⟩ := hs.of_inPayload hin
    have hfeed := feed_payload_complete s.frags hdr block.bytes src hne (by omega)
    obtain ⟨hp, hn, hrec, hcol, hdisp⟩ :=
      hclose.parses hexec (by rw [List.length_append]; exact heq) hs.frags hlast hgood
    refine ⟨_, _, hp, ?_, fun _ => closeFragment_not_mid _ _ _, hn, ?_, ?_, hdisp.head (storePayload_only w block src)⟩
    · rw [← hcur] at hfeed
      rw [feed_append, hfeed]
    · rw [hrec]
      simp [storePayload, recordsOf, recordOf?]
    · rw [hcol]
      simp [storePayload, collatedOf, collatedOf?]
  | @closeEmpty _ block _ _ hin heq hne hclose =>
    obtain ⟨hdr, hcur, hhdr, hsz, hlast⟩ := hs.of_inPayload hin
    have hfeed := feed_payload_pending s.frags hdr block.bytes rest hne (by omega)
    obtain ⟨hp, hn, hrec, hcol, hdisp⟩ := hclose.parses hexec heq hs.frags hlast hgood
    refine ⟨_, _, hp, ?_, fun _ => closeFragment_not_mid _ _ _, hn, hrec, hcol, hdisp⟩
    rw [← hcur] at hfeed
    exact hfeed
  | markerPart hin hne hlt =>
    obtain ⟨hcur, hfh⟩ := hs.of_inMarker hin hmid
    have hfeed := feed_marker s.frags [] rest (by decide) (by simp only [List.length_nil]; omega)
    have hput : putMarker s.frags ([] ++ rest) = ⟨s.frags, .marker rest⟩ := by
      unfold putMarker
      rw [List.nil_append, if_neg (by omega)]
    refine ⟨⟨s.frags, .marker rest⟩, [], ⟨hs.size, hs.frags, ?_⟩, ?_, by simp, rfl, by simp [storeMarker],
      by simp [storeMarker], .done (parserOnly_setRs _ _)⟩
    · refine ⟨inMarker_storeMarker hin hlt, ?_, take_copyFraghdr _ rest (by omega)⟩
      simp only [storeMarker, World.setRs_rs]
      omega
    · rw [← hcur, hput] at hfeed
      rw [hfeed]
      rfl
  | @markerFull src _ hin heq =>
    obtain ⟨hcur, hfh⟩ := hs.of_inMarker hin hmid
    have hlen : src.length = 4 := by omega
    have hfeed := feed_marker s.frags [] src (by decide) (by simp only [List.length_nil]; omega)
    have hput : putMarker s.frags ([] ++ src) = ⟨s.frags, .payload src []⟩ := by
      unfold putMarker
      rw [List.nil_append, if_pos hlen]
    have hhdr : fraghdrBytes (beginFragment w src).rs = src := by
      have htake := take_copyFraghdr w.rs.rsFraghdr src hlen.le
      rwa [hlen, List.take_of_length_le (by simp)] at htake
    refine ⟨⟨s.frags, .payload src []⟩, [], ⟨hs.size, hs.frags, ?_⟩, ?_, fun _ => ?_, rfl, ?_, ?_,
      .done ((parserOnly_note w rfl).trans ((parserOnly_tick _).trans (parserOnly_setRs _ _)))⟩
    · refine ⟨⟨w.serial, inPayload_beginFragment w src⟩, hhdr, ?_, ?_⟩
      · rw [← hhdr]
        rfl
      · rw [← hhdr]
        rfl
    · rw [← hcur, hput] at hfeed
      rw [feed_append, hfeed]
    · rintro ⟨got, hgot, -⟩
      cases hgot
    · simp [beginFragment, recordsOf, recordOf?]
    · simp [beginFragment, collatedOf, collatedOf?]

/-- A run of the parser is a run of the byte machine. -/
lemma ParserRun.parses {w w' : World} {rest rest' : Bytes} {n : Int} {s : Stream}
    (h : ParserRun E exec w rest w' rest' n) (hs : Parses s w.rs) (hmid : rest ≠ [] → ¬MidMarker s)
    (hgood : Good w'.log) :
    ∃ s' recs, Parses s' w'.rs ∧
      feed s rest = ((feed s' rest').1, recs ++ (feed s' rest').2) ∧ (rest' ≠ [] → ¬MidMarker s') ∧
      n = recs.length ∧ recordsOf w'.log = recordsOf w.log ++ recs.map recordEntry ∧
      collatedOf w'.log = collatedOf w.log ++ recs.map collatedEntry ∧ Dispatches E exec w recs w' := by
  induction h generalizing s with
  | refl w rest => exact ⟨s, [], hs, rfl, hmid, rfl, by simp, by simp, .done (parserOnly_refl w)⟩
  | @step w w₁ w' rest rest₁ rest' n m h t ih =>
    have hne : rest ≠ [] := h.rest_ne_nil
    obtain ⟨s₁, recs₁, hs₁, hfeed₁, hmid₁, hn₁, hrec₁, hcol₁, hdisp₁⟩ :=
      h.parses hexec hs (hmid hne) (hexec.closed (t.mono hexec) hgood)
    obtain ⟨s', recs, hs', hfeed, hmid', hn, hrec, hcol, hdisp⟩ := ih hs₁ hmid₁ hgood
    refine ⟨s', recs₁ ++ recs, hs', ?_, hmid', ?_, ?_, ?_, hdisp₁.trans hdisp⟩
    · rw [hfeed₁, hfeed, List.append_assoc]
    · rw [hn₁, hn, List.length_append, Nat.cast_add]
    · rw [hrec, hrec₁, List.map_append, List.append_assoc]
    · rw [hcol, hcol₁, List.map_append, List.append_assoc]

/-- `update_frag_state` on a read buffer. -/
lemma updateFragState_parses (hE : AllocsSucceed E) {w w' : World} {b : Bytes} {n : Int} {s : Stream}
    (hb : b <+: w.ct.ctReadbuf) (hlen : b.length < 2 ^ 31) (hs : Parses s w.rs) (hmid : ¬MidMarker s)
    (h : updateFragState E exec b.length w = some (w', n)) (hgood : Good w'.log) :
    Parses (feed s b).1 w'.rs ∧ n = (feed s b).2.length ∧
      recordsOf w'.log = recordsOf w.log ++ (feed s b).2.map recordEntry ∧
      collatedOf w'.log = collatedOf w.log ++ (feed s b).2.map collatedEntry ∧
      Dispatches E exec w (feed s b).2 w' := by
  have hrun := updateFragState_run hexec hE hb hlen hs.inv h hgood
  obtain ⟨s', recs, hs', hfeed, -, hn, hrec, hcol, hdisp⟩ := hrun.parses hexec hs (fun _ => hmid) hgood
  rw [hfeed]
  simp only [feed, List.append_nil]
  exact ⟨hs', hn, hrec, hcol, hdisp⟩

end

end UnfsClient.Proofs
