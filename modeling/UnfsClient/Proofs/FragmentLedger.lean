import UnfsClient.RpcLedger
import UnfsClient.Proofs.RecordStream

/-!
# The balance of fragment blocks

Nothing on the reception path frees the block of a fragment: `collate_buf_list` frees the list
node, which only points at it. So the ledger holds every block obtained so far (`Obtained`), and
what has left the parser with a completed record is lost.
-/

namespace UnfsClient.Proofs

open Lib RecordMarking

/-! ## No payload is freed -/

def freesPayload : MemOp → Bool
  | .free (.payload _) => true
  | _ => false

def obtained? : MemOp → Option Nat
  | .alloc (.payload serial) => some serial
  | _ => none

lemma erase_payloads {b : HeapBlock} (hb : b.payload? = none) (l : List HeapBlock) :
    (l.erase b).filterMap HeapBlock.payload? = l.filterMap HeapBlock.payload? := by
  induction l with
  | nil => rfl
  | cons x l ih =>
    by_cases hx : x = b
    · subst hx
      rw [List.erase_cons_head, List.filterMap_cons_none hb]
    · rw [List.erase_cons_tail (by simpa using hx), List.filterMap_cons, List.filterMap_cons, ih]

/-- Without such frees, the ledger is the list of the blocks obtained. -/
lemma payloadLedger_eq {ops : List MemOp} (h : ∀ op ∈ ops, freesPayload op = false) :
    payloadLedger ops = ops.filterMap obtained? := by
  have hfold : ∀ live, (ops.foldl MemOp.apply live).filterMap HeapBlock.payload? =
      live.filterMap HeapBlock.payload? ++ ops.filterMap obtained? := by
    induction ops with
    | nil => simp
    | cons op ops ih =>
      intro live
      rw [List.foldl_cons, ih (fun x hx => h x (by simp [hx]))]
      have hop := h op (by simp)
      cases op with
      | alloc b => cases b <;> simp [MemOp.apply, obtained?, HeapBlock.payload?, List.filterMap_cons]
      | free b =>
        have hb : b.payload? = none := by
          cases b with
          | payload serial => cases hop
          | _ => rfl
        rw [MemOp.apply, erase_payloads hb, List.filterMap_cons_none rfl]
  exact hfold []

/-- The record functions neither obtain nor free a payload block. -/
def NoPayload (ops : List MemOp) : Prop := ∀ op ∈ ops, freesPayload op = false ∧ obtained? op = none

lemma NoPayload.append {a b : List MemOp} (ha : NoPayload a) (hb : NoPayload b) : NoPayload (a ++ b) := by
  intro op hop
  rcases List.mem_append.mp hop with hop | hop
  · exact ha op hop
  · exact hb op hop

lemma noPayload_nil : NoPayload [] := by
  intro op hop
  cases hop

lemma noPayload_addFragmentOps (E : Env) (w : World) : NoPayload (addFragmentOps E w) := by
  unfold addFragmentOps
  split
  · exact noPayload_nil
  · split
    · exact noPayload_nil
    · simp [NoPayload, freesPayload, obtained?]

lemma noPayload_callUserCbOps (E : Env) (w : World) : NoPayload (callUserCbOps E w) := by
  have hcollate : NoPayload (collateBufListOps E w) := by
    unfold collateBufListOps
    split
    · exact noPayload_nil
    · intro op hop
      rcases List.mem_cons.mp hop with rfl | hop
      · exact ⟨rfl, rfl⟩
      · obtain ⟨fb, -, rfl⟩ := List.mem_map.mp hop
        exact ⟨rfl, rfl⟩
  have hdispatch : ∀ msg v, NoPayload (dispatchReplyOps E msg v) := by
    intro msg v
    unfold dispatchReplyOps
    split
    · exact noPayload_nil
    · split
      · exact noPayload_nil
      · simp [NoPayload, freesPayload, obtained?]
  unfold callUserCbOps
  apply hcollate.append
  split
  · exact noPayload_nil
  · apply (hdispatch _ _).append
    simp [NoPayload, freesPayload, obtained?]

lemma noPayload_closeCurrentOps (E : Env) (w : World) : NoPayload (closeCurrentOps E w) := by
  unfold closeCurrentOps
  split
  · unfold updateRecordStateOps
    dsimp only
    apply (noPayload_addFragmentOps E w).append
    split
    · exact noPayload_callUserCbOps E _
    · exact noPayload_nil
  · exact noPayload_nil

lemma NoPayload.obtained {ops : List MemOp} (h : NoPayload ops) : ops.filterMap obtained? = [] :=
  List.filterMap_eq_nil_iff.mpr fun op hop => (h op hop).2

lemma startNextOps_frees (E : Env) (z : Int) (w : World) (c : Int) :
    ∀ op ∈ startNextOps E z w c, freesPayload op = false := by
  unfold startNextOps updateNewFragStateOps
  split
  · dsimp only
    split
    · simp
    · split
      · simp
      · simp [freesPayload]
  · simp

lemma fragPassOps_frees (E : Env) (exec : Exec) (z : Int) (w : World) (c : Int) :
    ∀ op ∈ fragPassOps E exec z w c, freesPayload op = false := by
  intro op hop
  unfold fragPassOps at hop
  dsimp only at hop
  rcases List.mem_append.mp hop with hop | hop
  · exact (noPayload_closeCurrentOps E _ op hop).1
  · split at hop
    · cases hop
    · exact startNextOps_frees E z _ _ op hop

lemma fragLoopOps_frees (E : Env) (exec : Exec) (z : Int) (fuel : Nat) (w : World) (c : Int) :
    ∀ op ∈ fragLoopOps E exec z fuel w c, freesPayload op = false := by
  induction fuel generalizing w c with
  | zero =>
    intro op hop
    unfold fragLoopOps at hop
    split at hop <;> cases hop
  | succ fuel ih =>
    intro op hop
    unfold fragLoopOps at hop
    split at hop
    · rcases List.mem_append.mp hop with hop | hop
      · exact fragPassOps_frees E exec z w c op hop
      · split at hop
        · cases hop
        · exact ih _ _ op hop
    · cases hop

lemma fragLoopOps_end {z c : Int} (hend : z ≤ c) (E : Env) (exec : Exec) (fuel : Nat) (w : World) :
    fragLoopOps E exec z fuel w c = [] := by
  cases fuel with
  | zero => rw [fragLoopOps, if_neg (not_lt.mpr hend)]
  | succ fuel => rw [fragLoopOps, if_neg (not_lt.mpr hend)]

/-- A pass that returns, and the loop after it. -/
lemma fragLoopOps_pass {E : Env} {exec : Exec} {z c k m : Int} {fuel : Nat} {w v : World} (hlt : z > c)
    (hpass : fragPass E exec z w c = some (v, k, m)) :
    fragLoopOps E exec z (fuel + 1) w c = fragPassOps E exec z w c ++ fragLoopOps E exec z fuel v k := by
  rw [fragLoopOps, if_pos hlt]
  simp only [hpass]

lemma feedBuffersOps_frees (E : Env) (exec : Exec) (bufs : List Bytes) (w : World) :
    ∀ op ∈ feedBuffersOps E exec bufs w, freesPayload op = false := by
  induction bufs generalizing w with
  | nil =>
    intro op hop
    cases hop
  | cons b bufs ih =>
    intro op hop
    unfold feedBuffersOps at hop
    rcases List.mem_append.mp hop with hop | hop
    · exact fragLoopOps_frees E exec _ _ _ _ op hop
    · split at hop
      · cases hop
      · exact ih _ op hop

/-! ## Where the blocks are -/

lemma currentBlock_inMarker {rs : RpcRecordState} (h : InMarker rs) : currentBlock rs = [] := if_pos h.remaining

lemma currentBlock_inPayload {rs : RpcRecordState} {block : Block} (h : InPayload rs block) :
    currentBlock rs = [block.serial] := by
  have hrem := h.remaining
  have hle := h.le
  have hne : ¬rs.rsFragRemaining = expectNewFrag := by
    unfold expectNewFrag
    omega
  unfold currentBlock
  rw [if_neg hne, h.base]
  rfl

/-- The blocks `got` since `w₀` are those in the parser and, once records have been completed,
others. -/
structure Obtained (w₀ w : World) (got : List Nat) : Prop where
  inv : ParserInv w.rs
  older : ∀ s ∈ got, s < w.serial
  nodup : got.Nodup
  split : ∃ lost new, got.Perm (lost ++ (linkedBlocks w.rs ++ currentBlock w.rs)) ∧
    recordsOf w.log = recordsOf w₀.log ++ new ∧ (lost = [] ↔ new = [])

/-- The parser keeps its blocks, and completes no record. -/
lemma Obtained.of_same {w₀ w w' : World} {got : List Nat} (h : Obtained w₀ w got) (hinv : ParserInv w'.rs)
    (hserial : w.serial ≤ w'.serial)
    (hblocks : (linkedBlocks w.rs ++ currentBlock w.rs).Perm (linkedBlocks w'.rs ++ currentBlock w'.rs))
    (hlog : recordsOf w'.log = recordsOf w.log) : Obtained w₀ w' got := by
  obtain ⟨lost, new, hperm, hrec, hiff⟩ := h.split
  refine ⟨hinv, fun s hs => Nat.lt_of_lt_of_le (h.older s hs) hserial, h.nodup, lost, new, ?_, ?_, hiff⟩
  · exact hperm.trans (hblocks.append_left lost)
  · rw [hlog, hrec]

lemma Obtained.storePayload {w₀ w : World} {got : List Nat} {block : Block} {src : Bytes} (h : Obtained w₀ w got)
    (hin : InPayload w.rs block) (hfit : block.bytes.length + src.length ≤ w.rs.rsFragBufsz) :
    Obtained w₀ (storePayload w block src) got := by
  have hin' := inPayload_storePayload hin hfit
  have hinv' : ParserInv (Proofs.storePayload w block src).rs := ⟨h.inv.1, Or.inr ⟨_, hin'⟩⟩
  have hserial : w.serial ≤ (Proofs.storePayload w block src).serial := le_refl _
  apply h.of_same hinv' hserial
  · rw [currentBlock_inPayload hin, currentBlock_inPayload hin']
    rfl
  · simp [Proofs.storePayload, recordsOf, recordOf?]

section

variable {E : Env} (hE : AllocsSucceed E) {exec : Exec} (hexec : LeavesParser E (fun _ => True) exec)

include hexec

lemma Closes.obtained {w₀ w w' : World} {got : List Nat} {block : Block} {called : Int} (h : Obtained w₀ w got)
    (hin : InPayload w.rs block) (hclose : Closes E exec w block w' called) : Obtained w₀ w' got := by
  have hcur' := currentBlock_inMarker hclose.inMarker
  have hinv' := hclose.inv
  cases hclose with
  | inner hlast =>
    apply h.of_same hinv' (Nat.le_succ _)
    · rw [currentBlock_inPayload hin, hcur', List.append_nil]
      simp [linkedBlocks, expectNext, appendFragment, expectNewRpcRecord]
    · rfl
  | @final v hlast hrun =>
    have hkeep := dispatchReply_keeps hexec hrun trivial
    have hserial := (dispatchReply_acts hexec.acts List.getLast?_concat hrun).serial_le
    obtain ⟨lost, new, hperm, hrec, -⟩ := h.split
    have hlinked : linkedBlocks (expectNext v).rs = [] := by
      change v.rs.rsFragList.map _ = []
      rw [hkeep.rs]
      rfl
    have hrec' : ∃ r, recordsOf (expectNext v).log = recordsOf w.log ++ [r] := by
      change ∃ r, recordsOf v.log = _
      rw [← recordsOf_parserEvents, hkeep.events, recordsOf_parserEvents]
      exact ⟨_, by simp [collateRecord, appendFragment, recordsOf, recordOf?]; rfl⟩
    obtain ⟨r, hr⟩ := hrec'
    refine ⟨hinv', ?_, h.nodup, lost ++ (linkedBlocks w.rs ++ [block.serial]), new ++ [r], ?_, ?_, by simp⟩
    · intro s hs
      have hlt := h.older s hs
      have hstart : w.serial ≤ (collateRecord (appendFragment w block) (decodedPart w block) (overrunPart w)).serial :=
        Nat.le_add_right w.serial 2
      exact Nat.lt_of_lt_of_le hlt (hstart.trans hserial)
    · rw [hlinked, hcur', List.append_nil, List.append_nil, ← currentBlock_inPayload hin]
      exact hperm
    · rw [hr, hrec, List.append_assoc]

include hE

/-- The first two branches of a pass. -/
lemma copyThenClose_obtained {w₀ w v u : World} {got : List Nat} {b : Bytes} {c : Nat} {d called : Int}
    (h : Obtained w₀ w got) (hb : b <+: w.ct.ctReadbuf) (hlen : b.length < 2 ^ 31) (hc : c < b.length)
    (hcopy : copyPayload w c b.length = (v, d)) (hcl : closeCurrent E exec v = some (u, called)) :
    Obtained w₀ u got := by
  rcases copyPayload_cases hb hlen h.inv hc hcopy with ⟨hin, rfl, rfl⟩ | ⟨block, hin,
    ⟨hfull, rfl, rfl⟩ | ⟨hpart, rfl, rfl⟩ | ⟨src, rest, -, -, hfull, rfl, rfl⟩⟩
  · have hrem := hin.remaining
    rw [closeCurrent_skip (by omega)] at hcl
    cases hcl
    exact h
  · exact (closeCurrent_full hE hin hfull h.inv.1 hcl).obtained hexec h hin
  · have hrem := hin.remaining
    rw [closeCurrent_skip (by simp only [storePayload, World.note_rs, World.setRs_rs]; omega)] at hcl
    cases hcl
    exact h.storePayload hin hpart.le
  · have hin' := inPayload_storePayload hin hfull.le
    have hfull' : (block.bytes ++ src).length = (storePayload w block src).rs.rsFragBufsz := by
      rw [List.length_append]
      exact hfull
    exact (closeCurrent_full hE hin' hfull' h.inv.1 hcl).obtained hexec (h.storePayload hin hfull.le) hin'

omit hexec in
/-- The third branch of a pass, where a marker is expected. -/
lemma startNext_obtained {w₀ w w' : World} {got : List Nat} {b : Bytes} {c : Nat} {c' : Int} (h : Obtained w₀ w got)
    (hb : b <+: w.ct.ctReadbuf) (hlen : b.length < 2 ^ 31) (hin : InMarker w.rs) (hc : c < b.length)
    (hst : startNext E b.length w c = (w', c')) :
    Obtained w₀ w' (got ++ (startNextOps E b.length w c).filterMap obtained?) := by
  have hlen' : (b.drop c).length = b.length - c := List.length_drop
  by_cases hpart : ((b.drop c).length : Int) < w.rs.rsFhRemaining
  · have hne : b.drop c ≠ [] := by
      rw [← List.length_pos_iff]
      omega
    obtain ⟨hfh, hcollect⟩ := collectMarker_part hb hin rfl hne hpart
    have hops : startNextOps E b.length w c = [] := by
      unfold startNextOps updateNewFragStateOps
      rw [if_pos (by omega), hcollect]
      exact if_pos hfh
    have hin' := inMarker_storeMarker hin hpart
    have hinv' : ParserInv (storeMarker w (b.drop c)).rs := ⟨h.inv.1, Or.inl hin'⟩
    have hserial : w.serial ≤ (storeMarker w (b.drop c)).serial := le_refl _
    rw [startNext_part E hb hlen hin rfl hne hpart] at hst
    cases hst
    rw [hops, List.filterMap_nil, List.append_nil]
    apply h.of_same hinv' hserial
    · rw [currentBlock_inMarker hin, currentBlock_inMarker hin']
      rfl
    · rfl
  · have hpos := hin.pos
    have hsplit := (List.take_append_drop w.rs.rsFhRemaining.toNat (b.drop c)).symm
    have hcast : (((b.drop c).take w.rs.rsFhRemaining.toNat).length : Int) = w.rs.rsFhRemaining := by
      rw [List.length_take]
      omega
    generalize (b.drop c).take w.rs.rsFhRemaining.toNat = src at hsplit hcast
    obtain ⟨-, hcollect⟩ := collectMarker_full hb hin hsplit hcast
    have hops : startNextOps E b.length w c = [.alloc (.payload w.serial)] := by
      have hfh : ¬((storeMarker w src).note .marker).rs.rsFhRemaining ≠ 0 := by
        simp only [storeMarker, World.note_rs, World.setRs_rs]
        omega
      unfold startNextOps updateNewFragStateOps
      rw [if_pos (by omega), hcollect]
      dsimp only
      rw [if_neg hfh, World.alloc_of_succeeds hE]
      rfl
    rw [startNext_full hb hlen hin hsplit hcast (hE _ _)] at hst
    cases hst
    have hnew := inPayload_beginFragment w src
    obtain ⟨lost, new, hperm, hrec, hiff⟩ := h.split
    rw [currentBlock_inMarker hin, List.append_nil] at hperm
    rw [hops]
    change Obtained w₀ (beginFragment w src) (got ++ [w.serial])
    refine ⟨⟨h.inv.1, Or.inr ⟨_, hnew⟩⟩, ?_, ?_, lost, new, ?_, ?_, hiff⟩
    · intro s hs
      change s < w.serial + 1
      rcases List.mem_append.mp hs with hs | hs
      · have hlt := h.older s hs
        omega
      · rw [List.mem_singleton.mp hs]
        exact Nat.lt_succ_self _
    · rw [List.nodup_append]
      refine ⟨h.nodup, List.nodup_singleton _, ?_⟩
      intro s hs t ht heq
      rw [List.mem_singleton.mp ht] at heq
      exact absurd (h.older s hs) (by omega)
    · rw [currentBlock_inPayload hnew, ← List.append_assoc]
      exact hperm.append_right _
    · rw [← hrec]
      simp [beginFragment, recordsOf, recordOf?]

lemma fragPass_obtained {w₀ w w' : World} {got : List Nat} {b : Bytes} {c : Nat} {c' called : Int}
    (h : Obtained w₀ w got) (hb : b <+: w.ct.ctReadbuf) (hlen : b.length < 2 ^ 31) (hc : c < b.length)
    (hpass : fragPass E exec b.length w c = some (w', c', called)) :
    Obtained w₀ w' (got ++ (fragPassOps E exec b.length w c).filterMap obtained?) := by
  obtain ⟨v, d, u, hcopy, hcl, hst⟩ := fragPass_cases hpass
  have hu := copyThenClose_obtained hE hexec h hb hlen hc hcopy hcl
  obtain ⟨k, rfl, -, hk, hor, hrun⟩ := copyThenClose_run hE hb hlen h.inv hc hcopy hcl
  have hops : (fragPassOps E exec b.length w c).filterMap obtained? =
      (startNextOps E b.length u k).filterMap obtained? := by
    unfold fragPassOps
    rw [hcopy]
    dsimp only
    rw [hcl, List.filterMap_append, (noPayload_closeCurrentOps E v).obtained]
    rfl
  rw [hops]
  by_cases hend : k = b.length
  · have hnone : startNextOps E b.length u k = [] := by
      unfold startNextOps
      rw [if_neg (by omega)]
    rw [hend, startNext_end] at hst
    cases hst
    rw [hnone, List.filterMap_nil, List.append_nil]
    exact hu
  · have hb' : b <+: u.ct.ctReadbuf := by rwa [hrun.readbuf hexec trivial]
    exact startNext_obtained hE hu hb' hlen (hor.resolve_left hend) (by omega) hst

lemma fragLoop_obtained {fuel : Nat} {w₀ w w' : World} {got : List Nat} {b : Bytes} {c : Nat} {called n : Int}
    (h : Obtained w₀ w got) (hb : b <+: w.ct.ctReadbuf) (hlen : b.length < 2 ^ 31) (hc : c ≤ b.length)
    (hloop : fragLoop E exec b.length fuel w c called = some (w', n)) :
    Obtained w₀ w' (got ++ (fragLoopOps E exec b.length fuel w c).filterMap obtained?) := by
  have hrun : ∀ (k : Nat) (got : List Nat), (c : Int) = k → Obtained w₀ w got → b <+: w.ct.ctReadbuf →
      k ≤ b.length → Obtained w₀ w' (got ++ (fragLoopOps E exec b.length fuel w c).filterMap obtained?) := by
    apply fragLoop_induction (P := fun fuel w c _ => ∀ (k : Nat) (got : List Nat), c = k →
      Obtained w₀ w got → b <+: w.ct.ctReadbuf → k ≤ b.length →
      Obtained w₀ w' (got ++ (fragLoopOps E exec b.length fuel w c).filterMap obtained?)) _ _ hloop
    · intro fuel c hend k got _ h _ _
      rw [fragLoopOps_end hend, List.filterMap_nil, List.append_nil]
      exact h
    · rintro fuel w _ called v c' m hlt hpass - ih c got rfl h hb hc
      obtain ⟨k, rfl, -, hk, hrun⟩ := fragPass_run hexec hE hb hlen h.inv (by omega) hpass trivial
      have hv := fragPass_obtained hE hexec h hb hlen (by omega) hpass
      rw [fragLoopOps_pass hlt hpass, List.filterMap_append, ← List.append_assoc]
      exact ih k _ rfl hv (by rwa [hrun.readbuf hexec trivial]) hk
  exact hrun c got rfl h hb hc

lemma feedBuffers_obtained (hret : Returns exec) {bufs : List Bytes} {w₀ w : World} {got : List Nat}
    (h : Obtained w₀ w got) (hlen : ∀ b ∈ bufs, b.length < 2 ^ 31) :
    ∃ w', feedBuffers E exec bufs w = some w' ∧
      Obtained w₀ w' (got ++ (feedBuffersOps E exec bufs w).filterMap obtained?) := by
  induction bufs generalizing w got with
  | nil => exact ⟨w, rfl, by rwa [feedBuffersOps, List.filterMap_nil, List.append_nil]⟩
  | cons b bufs ih =>
    have hb := hlen b (by simp)
    have hload : Obtained w₀ (w.loadReadbuf b) got := ⟨h.inv, h.older, h.nodup, h.split⟩
    obtain ⟨w₁, n, hup, -⟩ := updateFragState_returns hE hexec hret (prefix_loadReadbuf w b) hb hload.inv
    have h₁ := fragLoop_obtained hE hexec hload (prefix_loadReadbuf w b) hb (Nat.zero_le _) hup
    have hbuf : feedBuffer E exec b w = some w₁ := by
      unfold feedBuffer
      rw [hup]
      rfl
    obtain ⟨w', hw', h'⟩ := ih h₁ (fun x hx => hlen x (by simp [hx]))
    refine ⟨w', ?_, ?_⟩
    · unfold feedBuffers
      rw [hbuf]
      exact hw'
    · unfold feedBuffersOps
      rw [hbuf, List.filterMap_append, ← List.append_assoc]
      exact h'

/-- On every return from `update_frag_state` the ledger is the current fragment and the
fragment list if and only if no record has been completed, which, where no read cuts a marker, is
that the bytes read so far complete none. No fragment block is ever freed. -/
theorem ledger_balanced_iff (hret : Returns exec) {w₀ : World} (h₀ : Parses fresh w₀.rs) {bufs : List Bytes}
    (hlen : ∀ b ∈ bufs, b.length < 2 ^ 31) :
    ∃ w, feedBuffers E exec bufs w₀ = some w ∧
      ((∀ s, s ∈ payloadLedger (feedBuffersOps E exec bufs w₀) ↔ s ∈ linkedBlocks w.rs ++ currentBlock w.rs) ↔
        recordsOf w.log = recordsOf w₀.log) ∧
      (NoMarkerCut fresh bufs → (recordsOf w.log = recordsOf w₀.log ↔ (feed fresh bufs.flatten).2 = [])) ∧
      ∀ s, MemOp.free (.payload s) ∉ feedBuffersOps E exec bufs w₀ := by
  have hstart : Obtained w₀ w₀ [] := by
    have hlist : w₀.rs.rsFragList = [] := List.map_eq_nil_iff.mp h₀.frags
    refine ⟨h₀.inv, by simp, List.nodup_nil, [], [], ?_, by simp, by simp⟩
    rw [currentBlock_inMarker h₀.cursor.1, linkedBlocks, hlist]
    rfl
  obtain ⟨w, hw, hgot⟩ := feedBuffers_obtained hE hexec hret hstart hlen
  have hfrees := feedBuffersOps_frees E exec bufs w₀
  rw [List.nil_append, ← payloadLedger_eq hfrees] at hgot
  obtain ⟨lost, new, hperm, hrec, hiff⟩ := hgot.split
  refine ⟨w, hw, ?_, ?_, fun s hs => Bool.noConfusion (hfrees _ hs)⟩
  swap
  · intro hcut
    obtain ⟨v, hv, -, hrecs, -⟩ := feedBuffers_parses hE hexec hret h₀ (fun _ => fresh_not_mid) hcut hlen
    obtain rfl := Option.some.inj (hw.symm.trans hv)
    rw [hrecs, List.append_right_eq_self, List.map_eq_nil_iff]
  rw [hrec, List.append_right_eq_self, ← hiff]
  constructor
  · intro hall
    -- a lost block would be in the parser, and so in the ledger twice
    have hnodup := hperm.nodup_iff.mp hgot.nodup
    rw [List.nodup_append] at hnodup
    cases lost with
    | nil => rfl
    | cons s lost =>
      have hmem := (hall s).mp (hperm.mem_iff.mpr (by simp))
      exact absurd rfl (hnodup.2.2 s (by simp) s hmem)
  · intro hnil s
    rw [hperm.mem_iff, hnil, List.nil_append]

end

/-- A whole fragment and the first byte of another. -/
def twoFragments : List Bytes := [[0, 0, 0, 1, 7], [0x80, 0, 0, 2, 8]]

theorem ledger_balanced_first_fragment :
    ∃ w, feedBuffers replyEnv noReentry twoFragments (World.start authnoneHandle) = some w ∧
      ∀ s, s ∈ payloadLedger (feedBuffersOps replyEnv noReentry twoFragments (World.start authnoneHandle)) ↔
        s ∈ linkedBlocks w.rs ++ currentBlock w.rs := by
  obtain ⟨w, hw, hiff, hnone, -⟩ := ledger_balanced_iff replyEnv_allocs (leavesParser_noReentry replyEnv)
    returns_noReentry (parses_created authnoneHandle_created) (show ∀ b ∈ twoFragments, b.length < 2 ^ 31 by decide)
  exact ⟨w, hw, hiff.mpr ((hnone (by decide)).mpr (by decide))⟩

/-- A record of one byte leaves its block behind. -/
theorem completed_record_leaks :
    feedBuffersOps replyEnv noReentry [[0x80, 0, 0, 1, 7]] (World.start authnoneHandle) =
        [.alloc (.payload 0), .alloc (.node 0), .alloc (.message 2), .free (.node 0), .free (.message 2)] ∧
      payloadLedger (feedBuffersOps replyEnv noReentry [[0x80, 0, 0, 1, 7]] (World.start authnoneHandle)) = [0] ∧
      (feedBuffers replyEnv noReentry [[0x80, 0, 0, 1, 7]] (World.start authnoneHandle)).map
        (fun w => linkedBlocks w.rs ++ currentBlock w.rs) = some [] := by
  decide

end UnfsClient.Proofs
