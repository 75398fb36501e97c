import UnfsClient.Proofs.MemoryPressure
import UnfsClient.Proofs.RecordStream

/-!
# What a record leaves behind

Only `collate_buf_list` empties `rs_frag_list`, and it returns before that when it gets no
buffer. Along a run we keep the payloads of the fragments completed since the last record
ended: with the list nodes and the buffers granted, they are what is on the list, and the bytes
decoded of a record are its own.
-/

namespace UnfsClient.Proofs

open Lib RecordMarking

/-- The test of the second branch of the loop. -/
def FragComplete (rs : RpcRecordState) : Prop := rs.rsFragOffset = rs.rsFragBufsz ∧ rs.rsFragRemaining = 0

instance (rs : RpcRecordState) : Decidable (FragComplete rs) := inferInstanceAs (Decidable (_ ∧ _))

def currentPayload (rs : RpcRecordState) : Bytes := (rs.rsFragBufBase.map Block.bytes).getD []

/-- `mem_alloc` grants `add_buffer_list` its list node. -/
def NodeGranted (E : Env) (w : World) : Prop := E.memAlloc w.serial sizeofFragBuffer = true

/-- `update_record_state` gets the memory it asks for. -/
def RecordGranted (E : Env) (w : World) : Prop :=
  NodeGranted E w ∧ (w.rs.rsLastFrag = true → CollateGranted E (integrateFragment E w))

/-- The fragments of the current record after the second branch of a pass. -/
def ownAfter (own : List Bytes) (rs : RpcRecordState) : List Bytes :=
  if FragComplete rs then if rs.rsLastFrag then [] else own ++ [currentPayload rs] else own

/-- The heads of the loop of `update_frag_state` in runs that get the memory for their records,
with the payloads of the fragments completed since the last record ended. -/
inductive RecordRun (E : Env) (exec : Exec) (w₀ : World) : World → Bytes → Int → List Bytes → Prop where
  | start : RecordRun E exec w₀ w₀ [] 0 []
  | buffer {w : World} {b b' : Bytes} {own : List Bytes} (h : RecordRun E exec w₀ w b b.length own) (hne : b' ≠ [])
      (hlen : b'.length < 2 ^ 31) : RecordRun E exec w₀ (w.loadReadbuf b') b' 0 own
  | pass {w v u w' : World} {b : Bytes} {c d c' called : Int} {own : List Bytes}
      (h : RecordRun E exec w₀ w b c own) (hc : c < b.length) (hcopy : copyPayload w c b.length = (v, d))
      (hclose : closeCurrent E exec v = some (u, called)) (hgrant : FragComplete v.rs → RecordGranted E v)
      (hnext : startNext E b.length u d = (w', c')) : RecordRun E exec w₀ w' b c' (ownAfter own v.rs)

lemma RecordRun.loopHead {E : Env} {exec : Exec} {w₀ w : World} {b : Bytes} {c : Int} {own : List Bytes}
    (h : RecordRun E exec w₀ w b c own) : ∃ fed, LoopHead E exec w₀ w b c fed := by
  induction h with
  | start => exact ⟨0, .start⟩
  | buffer h hne hlen ih =>
    obtain ⟨fed, ih⟩ := ih
    exact ⟨_, .buffer ih hne hlen⟩
  | @pass w v u w' b c d c' called own h hc hcopy hclose hgrant hnext ih =>
    obtain ⟨fed, ih⟩ := ih
    have hpass : fragPass E exec b.length w c = some (w', c', called) := by
      unfold fragPass
      rw [hcopy]
      dsimp only
      rw [hclose]
      dsimp only
      rw [hnext]
    exact ⟨fed, .pass ih hc hpass⟩

lemma copyPayload_list (w : World) (c z : Int) : (copyPayload w c z).1.rs.rsFragList = w.rs.rsFragList := by
  unfold copyPayload
  dsimp only
  split <;> rfl

lemma collectMarker_list (w : World) (c z : Int) : (collectMarker w c z).1.rs.rsFragList = w.rs.rsFragList := by
  unfold collectMarker
  dsimp only
  split
  · dsimp only
    split <;> rfl
  · rfl

lemma startNext_list (E : Env) (w : World) (c z : Int) : (startNext E z w c).1.rs.rsFragList = w.rs.rsFragList := by
  unfold startNext
  split
  · rw [← collectMarker_list w c (z - c)]
    unfold updateNewFragState
    dsimp only
    split
    · rfl
    · simp only [World.alloc]
      cases E.memAlloc (collectMarker w c (z - c)).1.serial _ <;> rfl
  · rfl

/-- A fragment that goes a layer up is complete. -/
lemma fragComplete_inPayload {w v : World} {b : Bytes} {c : Nat} {d : Int} (hb : b <+: w.ct.ctReadbuf)
    (hlen : b.length < 2 ^ 31) (hinv : ParserInv w.rs ∨ Stalled w.rs) (hc : c < b.length)
    (hcopy : copyPayload w c b.length = (v, d)) (hfull : FragComplete v.rs) :
    ∃ block, InPayload v.rs block ∧ block.bytes.length = v.rs.rsFragBufsz ∧ v.rs.rsRecordsize = 0 := by
  have hzero := hfull.2
  rcases hinv with hinv | hst
  · rcases copyPayload_cases hb hlen hinv hc hcopy with ⟨hin, rfl, rfl⟩ | ⟨block, hin,
      ⟨hlast, rfl, rfl⟩ | ⟨hpart, rfl, rfl⟩ | ⟨src, rest, -, -, hlast, rfl, rfl⟩⟩
    · have hrem := hin.remaining
      omega
    · exact ⟨block, hin, hlast, hinv.1⟩
    · have hrem := (inPayload_storePayload hin hpart.le).remaining
      rw [List.length_append] at hrem
      change _ = (w.rs.rsFragBufsz : Int) - _ at hrem
      omega
    · refine ⟨_, inPayload_storePayload hin hlast.le, ?_, hinv.1⟩
      rw [List.length_append]
      exact hlast
  · have hrem := hst.remaining
    rw [copyPayload_skip (by omega)] at hcopy
    cases hcopy
    omega

lemma integrateFragment_lastFrag (E : Env) (w : World) :
    (integrateFragment E w).rs.rsLastFrag = w.rs.rsLastFrag := by
  obtain ⟨l, hl⟩ := (addFragment_rs E w).1
  change (addFragment E w).rs.rsLastFrag = _
  rw [hl]

section

variable {E : Env} {exec : Exec} (hexec : LeavesParser E (fun _ => True) exec)

include hexec

/-- The list after `call_user_cb`. -/
lemma callUserCb_list {w w' : World} (h : callUserCb E exec w = some w') :
    (CollateGranted E w → w'.rs.rsFragList = []) ∧ (¬CollateGranted E w → w'.rs.rsFragList = w.rs.rsFragList) := by
  unfold callUserCb at h
  dsimp only at h
  constructor
  · intro hgrant
    have hgrant' : CollateGranted E (w.note (.record (fragPayloads w.rs.rsFragList) w.rs.rsRecordsize)) := hgrant
    rw [collateBufList_granted hgrant'] at h
    have hrs := (dispatchReply_keeps hexec h trivial).rs
    rw [hrs]
    rfl
  · intro hno
    have hno' : ¬CollateGranted E (w.note (.record (fragPayloads w.rs.rsFragList) w.rs.rsRecordsize)) := hno
    rw [collateBufList_refused hno'] at h
    cases h
    rfl

/-- What `update_record_state` leaves of a record that is complete. -/
lemma updateRecordState_last {w w' : World} {called : Int} (hlast : w.rs.rsLastFrag = true)
    (h : updateRecordState E exec w = some (w', called)) :
    w'.rs.rsRecordsize = 0 ∧
      (CollateGranted E (integrateFragment E w) → w'.rs.rsFragList = []) ∧
      (¬CollateGranted E (integrateFragment E w) → w'.rs.rsFragList = (integrateFragment E w).rs.rsFragList) := by
  rw [updateRecordState_integrate, integrateFragment_lastFrag, hlast, if_pos rfl, Option.map_eq_some_iff] at h
  obtain ⟨v, hcb, hv⟩ := h
  cases hv
  have hlist := callUserCb_list hexec hcb
  exact ⟨rfl, hlist.1, hlist.2⟩

/-- The list after the second branch of a pass. -/
lemma closeCurrent_own {v u : World} {called : Int} {own : List Bytes} (hown : fragPayloads v.rs.rsFragList = own)
    (hpay : FragComplete v.rs →
      ∃ block, InPayload v.rs block ∧ block.bytes.length = v.rs.rsFragBufsz ∧ v.rs.rsRecordsize = 0)
    (hgrant : FragComplete v.rs → RecordGranted E v) (h : closeCurrent E exec v = some (u, called)) :
    fragPayloads u.rs.rsFragList = ownAfter own v.rs := by
  unfold closeCurrent at h
  unfold ownAfter
  by_cases hfull : FragComplete v.rs
  · rw [if_pos hfull]
    rw [if_pos (show v.rs.rsFragOffset = v.rs.rsFragBufsz ∧ v.rs.rsFragRemaining = 0 from hfull)] at h
    obtain ⟨hnode, hcollate⟩ := hgrant hfull
    by_cases hlast : v.rs.rsLastFrag = true
    · rw [if_pos hlast, (updateRecordState_last hexec hlast h).2.1 (hcollate hlast)]
      rfl
    · obtain ⟨block, hin, hlen, hsz⟩ := hpay hfull
      have hcur : currentPayload v.rs = block.bytes := by
        unfold currentPayload
        rw [hin.base]
        rfl
      rw [updateRecordState_integrate, integrateFragment_lastFrag, if_neg hlast,
        integrateFragment_eq hin hsz hnode] at h
      cases h
      rw [if_neg hlast, hcur, ← hown]
      exact fragPayloads_append _ _ _ hlen
  · rw [if_neg (show ¬(v.rs.rsFragOffset = v.rs.rsFragBufsz ∧ v.rs.rsFragRemaining = 0) from hfull)] at h
    cases h
    rw [if_neg hfull, hown]

/-- The fragment list holds the fragments of the current record, and no others. -/
lemma RecordRun.own {w₀ : World} (h₀ : Parses fresh w₀.rs) {w : World} {b : Bytes} {c : Int} {own : List Bytes}
    (h : RecordRun E exec w₀ w b c own) : fragPayloads w.rs.rsFragList = own := by
  induction h with
  | start => exact h₀.frags
  | buffer h hne hlen ih => exact ih
  | @pass w v u w' b c d c' called own h hc hcopy hclose hgrant hnext ih =>
    obtain ⟨fed, hhead⟩ := h.loopHead
    obtain ⟨hb, hlen, k, rfl, -, hor⟩ := hhead.inv hexec h₀.inv
    have hv : fragPayloads v.rs.rsFragList = own := by
      rw [← ih, ← copyPayload_list w k b.length, hcopy]
    have hu := closeCurrent_own hexec hv
      (fragComplete_inPayload hb hlen (hor.imp_right And.left) (by omega) hcopy) hgrant hclose
    rw [← hu, ← startNext_list E u d b.length, hnext]

/-- `update_record_state` on the last fragment of a record, in a run that got the memory for
the records before. It leaves an empty list and size if and only if the collated buffer is
granted; and with its node granted, what is decoded of this record comes from its own fragments. -/
theorem record_isolated_iff {w₀ : World} (h₀ : Parses fresh w₀.rs) {w v v' : World} {b : Bytes} {c d called : Int}
    {own : List Bytes} (h : RecordRun E exec w₀ w b c own) (hc : c < b.length)
    (hcopy : copyPayload w c b.length = (v, d)) (hfull : FragComplete v.rs) (hlast : v.rs.rsLastFrag = true)
    (hnode : NodeGranted E v) (hup : updateRecordState E exec v = some (v', called)) :
    ((v'.rs.rsFragList = [] ∧ v'.rs.rsRecordsize = 0) ↔ CollateGranted E (integrateFragment E v)) ∧
      fragPayloads (integrateFragment E v).rs.rsFragList = own ++ [currentPayload v.rs] ∧
      collatedMsg E (integrateFragment E v).rs =
        (own ++ [currentPayload v.rs]).flatten.take (currentPayload v.rs).length := by
  obtain ⟨fed, hhead⟩ := h.loopHead
  obtain ⟨hb, hlen, k, rfl, -, hor⟩ := hhead.inv hexec h₀.inv
  obtain ⟨block, hin, hsize, hsz⟩ := fragComplete_inPayload hb hlen (hor.imp_right And.left) (by omega) hcopy hfull
  have hcur : currentPayload v.rs = block.bytes := by
    unfold currentPayload
    rw [hin.base]
    rfl
  have hlist : fragPayloads (integrateFragment E v).rs.rsFragList = own ++ [currentPayload v.rs] := by
    rw [integrateFragment_eq hin hsz hnode, hcur, ← h.own hexec h₀, ← copyPayload_list w k b.length, hcopy]
    exact fragPayloads_append _ _ _ hsize
  have hrec : cUlong (integrateFragment E v).rs.rsRecordsize = block.bytes.length := by
    have hlt := hin.size
    rw [integrateFragment_eq hin hsz hnode, hsize]
    exact cUlong_of_range (by omega)
  obtain ⟨hzero, hyes, hno⟩ := updateRecordState_last hexec hlast hup
  refine ⟨⟨?_, fun hgrant => ⟨hyes hgrant, hzero⟩⟩, hlist, ?_⟩
  · rintro ⟨hnil, -⟩
    by_contra hrefused
    rw [hno hrefused] at hnil
    rw [hnil] at hlist
    simp [fragPayloads] at hlist
  · unfold collatedMsg
    rw [hlist, hrec, hcur]
    simp

end

/-- A record that does not decode, and a reply. -/
def badRecordFirst : Bytes := encodeRecords [[[5]], [acceptedReply 0xffffff0f []]]

/-- The loop after the first marker. -/
def afterMarker : World :=
  (startNext replyEnv badRecordFirst.length ((World.start authnoneHandle).loadReadbuf badRecordFirst) 0).1

/-- The loop after the first record and the second marker. -/
def afterBadRecord : World :=
  ((closeCurrent replyEnv noReentry (copyPayload afterMarker 4 badRecordFirst.length).1).map fun r =>
    (startNext replyEnv badRecordFirst.length r.1 5).1).getD afterMarker

/-- Nothing of the first record is left for the second. -/
theorem record_isolated_after_bad_record :
    ∃ v v' d called,
      RecordRun replyEnv noReentry (World.start authnoneHandle) afterBadRecord badRecordFirst 9 [] ∧
      copyPayload afterBadRecord 9 badRecordFirst.length = (v, d) ∧
      updateRecordState replyEnv noReentry v = some (v', called) ∧ recordsOf v.log = [([[5]], 1)] ∧
      (v'.rs.rsFragList = [] ∧ v'.rs.rsRecordsize = 0) ∧
      collatedMsg replyEnv (integrateFragment replyEnv v).rs = acceptedReply 0xffffff0f [] := by
  have hmarker : RecordRun replyEnv noReentry (World.start authnoneHandle) afterMarker badRecordFirst 4 [] :=
    .pass (.buffer .start (by decide) (by decide)) (by decide) rfl rfl (fun h => absurd h (by decide)) rfl
  have hrun : RecordRun replyEnv noReentry (World.start authnoneHandle) afterBadRecord badRecordFirst 9 [] :=
    .pass hmarker (by decide) rfl rfl (fun _ => ⟨rfl, fun _ => rfl⟩) rfl
  obtain ⟨hiff, -, hmsg⟩ := record_isolated_iff (leavesParser_noReentry replyEnv)
    (parses_created authnoneHandle_created) hrun (by decide) rfl (by decide) rfl rfl rfl
  exact ⟨_, _, _, _, hrun, rfl, rfl, rfl, hiff.mpr rfl, hmsg⟩

/-- A record whose buffer is refused stays on the list, and the next record is decoded from its
bytes. -/
theorem refused_record_contaminates_next :
    (feedBuffers { replyEnv with memAlloc := fun serial _ => serial != 2 } noReentry
        [encodeRecords [[[1, 2, 3, 4]]], encodeRecords [[[5, 6, 7, 8, 9]]]] (World.start authnoneHandle)).map
        (fun w => (recordsOf w.log, collatedOf w.log)) =
      some ([([[1, 2, 3, 4]], 4), ([[1, 2, 3, 4], [5, 6, 7, 8, 9]], 5)], [([1, 2, 3, 4, 5], 4)]) := by
  decide +kernel

end UnfsClient.Proofs
