import UnfsClient.Proofs.ParserBounds
import UnfsClient.Proofs.ParserRefinement

/-!
# Streams of records

Two consequences of the refinement. How a stream is cut into read buffers does not matter as
long as no marker is cut, and it does matter otherwise. A record of several fragments is
handed on complete exactly when all of its payload is in the last fragment, because
`rs_recordsize` starts afresh with every fragment.
-/

namespace UnfsClient.Proofs

open Lib RecordMarking

lemma parses_created {ct : CtData} (hct : Created ct) : Parses fresh (World.start ct).rs := by
  have hmarker : InMarker (World.start ct).rs := by
    cases hct <;> exact ⟨rfl, show (0 : Int) < 4 by decide, le_refl _⟩
  cases hct <;> exact ⟨rfl, rfl, hmarker, rfl, rfl⟩

lemma fresh_not_mid : ¬MidMarker fresh := by decide

/-- Feeding buffers that do not cut a marker is feeding their bytes to the byte machine. -/
lemma feedBuffers_parses {E : Env} (hE : AllocsSucceed E) {exec : Exec}
    (hexec : LeavesParser E (fun _ => True) exec) (hret : Returns exec) {bufs : List Bytes} {w : World}
    {s : Stream} (hs : Parses s w.rs) (hmid : bufs ≠ [] → ¬MidMarker s) (hcut : NoMarkerCut s bufs)
    (hlen : ∀ b ∈ bufs, b.length < 2 ^ 31) :
    ∃ w', feedBuffers E exec bufs w = some w' ∧ Parses (feed s bufs.flatten).1 w'.rs ∧
      recordsOf w'.log = recordsOf w.log ++ (feed s bufs.flatten).2.map recordEntry ∧
      collatedOf w'.log = collatedOf w.log ++ (feed s bufs.flatten).2.map collatedEntry := by
  induction bufs generalizing w s with
  | nil => exact ⟨w, rfl, hs, by simp [feed], by simp [feed]⟩
  | cons b bufs ih =>
    have hb := hlen b (by simp)
    have hload : Parses s (w.loadReadbuf b).rs := hs
    obtain ⟨w₁, n, hup, -⟩ := updateFragState_returns hE hexec hret (prefix_loadReadbuf w b) hb hs.inv
    obtain ⟨hs₁, -, hrec₁, hcol₁, -⟩ := updateFragState_parses hexec hE (prefix_loadReadbuf w b) hb hload
      (hmid (by simp)) hup trivial
    obtain ⟨w', hw', hs', hrec, hcol⟩ := ih hs₁ (noMarkerCut_head hcut) (noMarkerCut_tail hcut)
      (fun x hx => hlen x (by simp [hx]))
    have hbuf : feedBuffer E exec b w = some w₁ := by
      unfold feedBuffer
      rw [hup]
      rfl
    refine ⟨w', ?_, ?_, ?_, ?_⟩
    · unfold feedBuffers
      rw [hbuf]
      exact hw'
    · rw [List.flatten_cons, feed_append]
      exact hs'
    · rw [hrec, hrec₁, List.flatten_cons, feed_append, List.map_append, List.append_assoc]
      rfl
    · rw [hcol, hcol₁, List.flatten_cons, feed_append, List.map_append, List.append_assoc]
      rfl

/-! ## Chunking -/

/-- The parser state of a handle: the fragments of the record so far, the contents, size and
last bit of the current fragment, the bytes it still expects, and the marker. -/
structure ParserView where
  frags : List Bytes
  current : Option (Bytes × Nat × Bool)
  fragRemaining : Int
  marker : Bytes
  fhRemaining : Int
  deriving DecidableEq

def parserView (rs : RpcRecordState) : ParserView where
  frags := fragPayloads rs.rsFragList
  current := if rs.rsFragRemaining = expectNewFrag then none
    else some ((rs.rsFragBufBase.map (·.bytes)).getD [], rs.rsFragBufsz, rs.rsLastFrag)
  fragRemaining := rs.rsFragRemaining
  marker := (fraghdrBytes rs).take (4 - rs.rsFhRemaining).toNat
  fhRemaining := rs.rsFhRemaining

/-- What a run of the parser has handed on, and the state it is in. -/
def outcome (w : World) : List (List Bytes × Int) × List (Bytes × Nat) × ParserView :=
  (recordsOf w.log, collatedOf w.log, parserView w.rs)

def streamView (s : Stream) : ParserView :=
  match s.cursor with
  | .marker got => ⟨s.frags, none, -1, got, 4 - got.length⟩
  | .payload hdr got =>
    ⟨s.frags, some (got, markerSize hdr, markerLast hdr), (markerSize hdr : Int) - got.length, hdr, 0⟩

lemma Parses.view {s : Stream} {rs : RpcRecordState} (h : Parses s rs) : parserView rs = streamView s := by
  obtain ⟨frags, cursor⟩ := s
  have hcur := h.cursor
  have hfrags := h.frags
  cases cursor with
  | marker got =>
    obtain ⟨hin, hlen, htake⟩ := hcur
    have hgot : (4 - rs.rsFhRemaining).toNat = got.length := by omega
    simp only [parserView, streamView, ParserView.mk.injEq]
    refine ⟨hfrags, if_pos hin.remaining, hin.remaining, ?_, by omega⟩
    rw [hgot, htake]
  | payload hdr got =>
    obtain ⟨⟨serial, hin⟩, hhdr, hsz, hlast⟩ := hcur
    have hrem := hin.remaining
    have hle := hin.le
    have hne : ¬rs.rsFragRemaining = expectNewFrag := by
      unfold expectNewFrag
      omega
    simp only [parserView, streamView, ParserView.mk.injEq]
    refine ⟨hfrags, ?_, by rw [← hsz]; exact hrem, ?_, hin.fh⟩
    · rw [if_neg hne, hin.base, hsz, hlast]
      rfl
    · rw [hin.fh, ← hhdr]
      exact List.take_of_length_le (fraghdrBytes_length rs).le

lemma feedBuffers_outcome {E : Env} (hE : AllocsSucceed E) {ct : CtData} (hct : Created ct)
    {bufs : List Bytes} (hlen : ∀ b ∈ bufs, b.length < 2 ^ 31) (hcut : NoMarkerCut fresh bufs) :
    (feedBuffers E noReentry bufs (World.start ct)).map outcome =
      some ((feed fresh bufs.flatten).2.map recordEntry, (feed fresh bufs.flatten).2.map collatedEntry,
        streamView (feed fresh bufs.flatten).1) := by
  obtain ⟨w, hw, hs, hrec, hcol⟩ := feedBuffers_parses hE (leavesParser_noReentry E) returns_noReentry
    (parses_created hct) (fun _ => fresh_not_mid) hcut hlen
  rw [hw, Option.map_some, outcome, hrec, hcol, hs.view]
  rfl

/-- Two ways of cutting one stream, neither of which cuts a marker, end in the same outcome. -/
theorem same_outcome_of_no_marker_cut {E : Env} (hE : AllocsSucceed E) {ct : CtData} (hct : Created ct)
    {bufs₁ bufs₂ : List Bytes} (hsame : bufs₁.flatten = bufs₂.flatten)
    (hlen₁ : ∀ b ∈ bufs₁, b.length < 2 ^ 31) (hlen₂ : ∀ b ∈ bufs₂, b.length < 2 ^ 31)
    (hcut₁ : NoMarkerCut fresh bufs₁) (hcut₂ : NoMarkerCut fresh bufs₂) :
    ∃ o, (feedBuffers E noReentry bufs₁ (World.start ct)).map outcome = some o ∧
      (feedBuffers E noReentry bufs₂ (World.start ct)).map outcome = some o := by
  refine ⟨_, feedBuffers_outcome hE hct hlen₁ hcut₁, ?_⟩
  rw [hsame]
  exact feedBuffers_outcome hE hct hlen₂ hcut₂

theorem same_outcome_payload_cut :
    ∃ o, (feedBuffers replyEnv noReentry [[0x80, 0, 0, 2, 7, 8]] (World.start authnoneHandle)).map outcome = some o ∧
      (feedBuffers replyEnv noReentry [[0x80, 0, 0, 2], [7], [8]] (World.start authnoneHandle)).map outcome = some o :=
  same_outcome_of_no_marker_cut replyEnv_allocs authnoneHandle_created rfl (by decide) (by decide) (by decide)
    (by decide)

/-- The second part of a marker is stored over the first. -/
theorem marker_cut_changes_outcome :
    ([[0x80, 0, 0, 1, 0x41]] : List Bytes).flatten = ([[0x80, 0], [0, 1, 0x41]] : List Bytes).flatten ∧
      (feedBuffers replyEnv noReentry [[0x80, 0, 0, 1, 0x41]] (World.start authnoneHandle)).map outcome ≠
        (feedBuffers replyEnv noReentry [[0x80, 0], [0, 1, 0x41]] (World.start authnoneHandle)).map outcome := by
  decide

/-! ## Records of several fragments -/

/-- A record at the time it is handed to `call_user_cb`: its payloads, `rs_recordsize`, the
bytes decoded, and the bytes written past the buffer allocated for them. -/
structure Completion where
  frags : List Bytes
  size : Int
  msg : Bytes
  overrun : Nat
  deriving DecidableEq

def completions (log : List Event) : List Completion :=
  List.zipWith (fun r c => ⟨r.1, r.2, c.1, c.2⟩) (recordsOf log) (collatedOf log)

/-- The buffer has the size of the record and holds its payloads in order. -/
def Reassembled (c : Completion) : Prop :=
  c.size = (c.frags.map List.length).sum ∧ c.overrun = 0 ∧ c.msg = c.frags.flatten

instance (c : Completion) : Decidable (Reassembled c) := by
  unfold Reassembled
  infer_instance

def completionOf (r : List Bytes) : Completion :=
  ⟨r, (recordEntry r).2, (collatedEntry r).1, (collatedEntry r).2⟩

lemma reassembled_iff {r : List Bytes} (hr : r ≠ []) :
    Reassembled (completionOf r) ↔ ∀ p ∈ r.dropLast, p = [] := by
  obtain ⟨init, p, rfl⟩ := (List.eq_nil_or_concat r).resolve_left hr
  have hflat : (∀ q ∈ init, q = []) ↔ init.flatten = [] := by
    rw [List.flatten_eq_nil_iff]
  rw [List.concat_eq_append, List.dropLast_concat, hflat]
  simp only [Reassembled, completionOf, recordEntry_append, collatedEntry_append]
  constructor
  · rintro ⟨-, hover, -⟩
    exact List.length_eq_zero_iff.mp hover
  · intro hnil
    have hsum : ((init ++ [p]).map List.length).sum = p.length := by
      rw [← List.length_flatten, List.flatten_append, hnil]
      simp
    rw [hsum, hnil]
    simp [hnil]

/-- Every record that is completed is one of the stream, and it is reassembled if and only if
all fragments before its last are empty. A record that ends with an empty fragment is completed
by the byte that follows it. -/
theorem record_reassembled_iff {E : Env} (hE : AllocsSucceed E) {ct : CtData} (hct : Created ct)
    {recs : List (List Bytes)} (hrec : ∀ r ∈ recs, r ≠ []) (hlen : ∀ r ∈ recs, ∀ p ∈ r, p.length < 2 ^ 31)
    {bufs : List Bytes} (hbufs : bufs.flatten = encodeRecords recs) (hblen : ∀ b ∈ bufs, b.length < 2 ^ 31)
    (hcut : NoMarkerCut fresh bufs) :
    ∃ w, feedBuffers E noReentry bufs (World.start ct) = some w ∧
      ((completions w.log).map Completion.frags = recs ∨
        ∃ r, recs = (completions w.log).map Completion.frags ++ [r] ∧ r.getLast? = some []) ∧
      ∀ c ∈ completions w.log, Reassembled c ↔ ∀ p ∈ c.frags.dropLast, p = [] := by
  obtain ⟨w, hw, -, hrecs, hcols⟩ := feedBuffers_parses hE (leavesParser_noReentry E) returns_noReentry
    (parses_created hct) (fun _ => fresh_not_mid) hcut hblen
  rw [hbufs] at hrecs hcols
  have hcomp : completions w.log = (feed fresh (encodeRecords recs)).2.map completionOf := by
    unfold completions
    rw [hrecs, hcols]
    simp [World.start, recordsOf, collatedOf, List.zipWith_map, completionOf, recordEntry]
  have hfrags : (completions w.log).map Completion.frags = (feed fresh (encodeRecords recs)).2 := by
    rw [hcomp, List.map_map]
    exact List.map_id _
  have hfeed := feed_records recs hrec hlen
  refine ⟨w, hw, ?_, ?_⟩
  · rw [hfrags]
    rcases hfeed with hall | ⟨init, r, hr, hlast, hinit, -⟩
    · exact Or.inl (by rw [hall])
    · exact Or.inr ⟨r, by rw [hinit, hr], hlast⟩
  · intro c hc
    rw [hcomp, List.mem_map] at hc
    obtain ⟨r, hr, rfl⟩ := hc
    have hmem : r ∈ recs := by
      rcases hfeed with hall | ⟨init, r', hr', -, hinit, -⟩
      · rwa [hall] at hr
      · rw [hinit] at hr
        rw [hr']
        exact List.mem_append_left _ hr
    exact reassembled_iff (hrec r hmem)

theorem record_reassembled_iff_two_records :
    ∃ w, feedBuffers replyEnv noReentry [[0, 0, 0, 0, 0x80, 0, 0, 1, 7], [0x80, 0, 0, 1, 8]]
        (World.start authnoneHandle) = some w ∧
      ((completions w.log).map Completion.frags = [[[], [7]], [[8]]] ∨
        ∃ r, ([[[], [7]], [[8]]] : List (List Bytes)) =
          (completions w.log).map Completion.frags ++ [r] ∧ r.getLast? = some []) ∧
      ∀ c ∈ completions w.log, Reassembled c ↔ ∀ p ∈ c.frags.dropLast, p = [] :=
  record_reassembled_iff replyEnv_allocs authnoneHandle_created (by decide) (by decide) (by decide) (by decide)
    (by decide)

/-- Of a record in fragments of two and three bytes, three bytes are decoded, and two are
written past the buffer. -/
theorem two_fragments_not_reassembled :
    (feedBuffers replyEnv noReentry [encodeRecords [[[1, 2], [3, 4, 5]]]] (World.start authnoneHandle)).map
        (fun w => completions w.log) = some [⟨[[1, 2], [3, 4, 5]], 3, [1, 2, 3], 2⟩] ∧
      ¬Reassembled ⟨[[1, 2], [3, 4, 5]], 3, [1, 2, 3], 2⟩ := by
  decide +kernel

end UnfsClient.Proofs
