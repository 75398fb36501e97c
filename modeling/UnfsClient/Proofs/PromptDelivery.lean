import UnfsClient.Proofs.RecordStream

/-!
# Prompt delivery

Whether a fragment is complete is only looked at while there are unread bytes. A fragment of
some payload is handed on with its last byte; an empty one waits for the byte that follows its
marker, and with it the record it ends.
-/

namespace UnfsClient.Proofs

open Lib RecordMarking

/-- The parser is between a complete marker and its fragment exactly where the byte machine is
behind the marker of an empty fragment. -/
lemma Parses.pending_iff {bs : Bytes} {rs : RpcRecordState} (h : Parses (feed fresh bs).1 rs) :
    (rs.rsFhRemaining = 0 ∧ rs.rsFragRemaining = 0) ↔ AtEmptyFragment (feed fresh bs).1 := by
  have hcur := h.cursor
  cases hs : (feed fresh bs).1.cursor with
  | marker got =>
    rw [hs] at hcur
    have hrem := hcur.1.remaining
    constructor
    · intro hp
      omega
    · rintro ⟨hdr, hc, -⟩
      rw [hs] at hc
      cases hc
  | payload hdr got =>
    rw [hs] at hcur
    obtain ⟨⟨serial, hin⟩, -, hsz, -⟩ := hcur
    have hrem : rs.rsFragRemaining = (rs.rsFragBufsz : Int) - got.length := hin.remaining
    have hfh := hin.fh
    constructor
    · intro hp
      rcases feed_open hs with hnil | hlt
      · subst hnil
        refine ⟨hdr, hs, ?_⟩
        simp only [List.length_nil] at hrem
        omega
      · omega
    · rintro ⟨hdr', hc, hzero⟩
      rw [hs] at hc
      cases hc
      simp only [List.length_nil] at hrem
      exact ⟨hfh, by omega⟩

/-- A stream of whole records has been read completely unless it ends with an empty fragment. -/
lemma feed_records_iff {recs : List (List Bytes)} (hrec : ∀ r ∈ recs, r ≠ [])
    (hlen : ∀ r ∈ recs, ∀ p ∈ r, p.length < 2 ^ 31) :
    ((feed fresh (encodeRecords recs)).2 = recs ↔ ¬AtEmptyFragment (feed fresh (encodeRecords recs)).1) ∧
      (¬AtEmptyFragment (feed fresh (encodeRecords recs)).1 → (feed fresh (encodeRecords recs)).1 = fresh) := by
  rcases feed_records recs hrec hlen with hall | ⟨init, r, hr, -, hinit, hempty⟩
  · have hfresh : ¬AtEmptyFragment fresh := by decide
    rw [hall]
    exact ⟨iff_of_true rfl hfresh, fun _ => rfl⟩
  · refine ⟨iff_of_false ?_ (fun h => h hempty), fun h => absurd hempty h⟩
    rw [hinit, hr]
    simp

lemma recordEntry_injective : Function.Injective recordEntry := fun _ _ h => congrArg Prod.fst h

/-- A read that completes a record ends `rpc_cb`, without another `select` or `read`. -/
lemma rpcCb_returns {E : Env} {exec : Exec} {flag : UInt32} {w w' : World} {b : Bytes} {rest : List ReadResult}
    {n : Int} (hne : b ≠ []) (hfits : (b.length : Int) ≤ w.ct.ctRbufsz)
    (hup : updateFragState E exec b.length
      (({ w with reads := rest }.note (.read w.depth (.data b))).loadReadbuf b) = some (w', n)) (hn : n ≠ 0) :
    rpcCb E exec flag { w with reads := .data b :: rest } = some (w', n) := by
  have hpos : 0 < b.length := List.length_pos_iff.mpr hne
  have hread : readSocket { w with reads := .data b :: rest } =
      some (({ w with reads := rest }.note (.read w.depth (.data b))).loadReadbuf b, .data b) := by
    simp only [readSocket]
    exact if_pos ⟨hpos, hfits⟩
  unfold rpcCb
  rw [List.length_cons]
  unfold rpcCbLoop
  rw [hread]
  dsimp only
  rw [hup]
  exact if_pos hn

/-- `update_frag_state` on the read buffer `b`, after the buffers `bufs`, none of which ends
inside a marker, on a handle that began between two records. It leaves no complete fragment
behind, and has handed on every record received to its last byte, if and only if `b` does not end
with the marker of an empty fragment; in that case `rpc_cb` returns with such a record. -/
theorem prompt_delivery_iff {E : Env} (hE : AllocsSucceed E) {exec : Exec}
    (hexec : LeavesParser E (fun _ => True) exec) (hret : Returns exec) {w₀ : World} (h₀ : Parses fresh w₀.rs)
    {bufs : List Bytes} {b : Bytes} (hne : b ≠ []) (hlen : ∀ x ∈ bufs ++ [b], x.length < 2 ^ 31)
    (hcut : NoMarkerCut fresh (bufs ++ [b])) :
    ∃ w w' n, feedBuffers E exec bufs w₀ = some w ∧
      updateFragState E exec b.length (w.loadReadbuf b) = some (w', n) ∧
      (¬(w'.rs.rsFhRemaining = 0 ∧ w'.rs.rsFragRemaining = 0) ↔
        ¬AtEmptyFragment (feed fresh (bufs ++ [b]).flatten).1) ∧
      ∀ recs, (∀ r ∈ recs, r ≠ []) → (∀ r ∈ recs, ∀ p ∈ r, p.length < 2 ^ 31) →
        (bufs ++ [b]).flatten = encodeRecords recs →
        (recordsOf w'.log = recordsOf w₀.log ++ recs.map recordEntry ↔
          ¬AtEmptyFragment (feed fresh (bufs ++ [b]).flatten).1) ∧
        (¬AtEmptyFragment (feed fresh (bufs ++ [b]).flatten).1 → (b.length : Int) ≤ w.ct.ctRbufsz →
          ∀ flag rest, ∃ u m, m ≠ 0 ∧ rpcCb E exec flag { w with reads := .data b :: rest } = some (u, m) ∧
            updateFragState E exec b.length
              (({ w with reads := rest }.note (.read w.depth (.data b))).loadReadbuf b) = some (u, m)) := by
  obtain ⟨hcut', hmid⟩ := noMarkerCut_concat fresh_not_mid hcut
  have hb := hlen b (by simp)
  obtain ⟨w, hw, hs, hrec, -⟩ := feedBuffers_parses hE hexec hret h₀ (fun _ => fresh_not_mid) hcut'
    (fun x hx => hlen x (by simp [hx]))
  obtain ⟨w', n, hup, -⟩ := updateFragState_returns hE hexec hret (prefix_loadReadbuf w b) hb hs.inv
  obtain ⟨hs', -, hrec', -, -⟩ := updateFragState_parses hexec hE (prefix_loadReadbuf w b) hb hs hmid hup trivial
  have hfed : feed fresh (bufs ++ [b]).flatten = ((feed (feed fresh bufs.flatten).1 b).1,
      (feed fresh bufs.flatten).2 ++ (feed (feed fresh bufs.flatten).1 b).2) := by
    rw [List.flatten_append, List.flatten_singleton, feed_append]
  have hpend : Parses (feed fresh (bufs ++ [b]).flatten).1 w'.rs := by rwa [hfed]
  refine ⟨w, w', n, hw, hup, not_congr hpend.pending_iff, ?_⟩
  intro recs hne' hlen' hrecs
  obtain ⟨hiff, hfresh⟩ := feed_records_iff hne' hlen'
  rw [← hrecs] at hiff hfresh
  constructor
  · rw [← hiff]
    have hall : recordsOf w'.log = recordsOf w₀.log ++ (feed fresh (bufs ++ [b]).flatten).2.map recordEntry := by
      change _ = recordsOf w.log ++ _ at hrec'
      rw [hrec', hrec, hfed, List.map_append, List.append_assoc]
    rw [hall, List.append_right_inj]
    exact (List.map_injective_iff.mpr recordEntry_injective).eq_iff
  · intro hnot hfits flag rest
    have hend : (feed (feed fresh bufs.flatten).1 b).1 = fresh := by
      have hend := hfresh hnot
      rwa [hfed] at hend
    have hcomplete := feed_fresh hne hend
    have hs₁ : Parses (feed fresh bufs.flatten).1
      (({ w with reads := rest }.note (.read w.depth (.data b))).loadReadbuf b).rs := hs
    obtain ⟨u, m, hu, -⟩ := updateFragState_returns hE hexec hret (prefix_loadReadbuf _ b) hb hs₁.inv
    obtain ⟨-, hm, -⟩ := updateFragState_parses hexec hE (prefix_loadReadbuf _ b) hb hs₁ hmid hu trivial
    have hm0 : m ≠ 0 := by
      rw [hm, Nat.cast_ne_zero]
      exact fun h => hcomplete (List.length_eq_zero_iff.mp h)
    exact ⟨u, m, hm0, rpcCb_returns hne hfits hu hm0, hu⟩

/-- The last byte of a record that ends with payload, in a buffer of its own. -/
theorem prompt_delivery_payload :
    ∃ w w' n, feedBuffers replyEnv noReentry [[0x80, 0, 0, 2, 7]] (World.start authnoneHandle) = some w ∧
      updateFragState replyEnv noReentry 1 (w.loadReadbuf [8]) = some (w', n) ∧
      ¬(w'.rs.rsFhRemaining = 0 ∧ w'.rs.rsFragRemaining = 0) ∧ recordsOf w'.log = [([[7, 8]], 2)] := by
  obtain ⟨w, w', n, hw, hup, hpend, hrecs⟩ := prompt_delivery_iff replyEnv_allocs (leavesParser_noReentry replyEnv)
    returns_noReentry (parses_created authnoneHandle_created) (by decide) (by decide)
    (show NoMarkerCut fresh ([[0x80, 0, 0, 2, 7]] ++ [[8]]) by decide)
  have hopen : ¬AtEmptyFragment (feed fresh ([[0x80, 0, 0, 2, 7]] ++ [[8]] : List Bytes).flatten).1 := by decide
  exact ⟨w, w', n, hw, hup, hpend.mpr hopen,
    (hrecs [[[7, 8]]] (by decide) (by decide) (by decide)).1.mpr hopen⟩

/-- A record of one empty fragment stays in the parser when all of its bytes have been read, and
a blocking receive goes on reading. -/
theorem empty_record_left_pending :
    encodeRecords [[[]]] = [0x80, 0, 0, 0] ∧
      (feedBuffers replyEnv noReentry [[0x80, 0, 0, 0]] (World.start authnoneHandle)).map
          (fun w => (w.rs.rsFhRemaining, w.rs.rsFragRemaining, recordsOf w.log)) = some (0, 0, []) ∧
      (rpcCb replyEnv noReentry rpcBlockingWait
          { World.start authnoneHandle with reads := [.data [0x80, 0, 0, 0], .data [0]] }).isNone = false ∧
      (rpcCb replyEnv noReentry rpcBlockingWait
          { World.start authnoneHandle with reads := [.data [0x80, 0, 0, 0]] }).isNone = true := by
  decide

end UnfsClient.Proofs
