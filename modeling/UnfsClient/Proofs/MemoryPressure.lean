import UnfsClient.Proofs.ParserBounds

/-!
# The parser when allocations fail

The passes of `update_frag_state` under any allocator. A pass makes progress unless it is
refused the block of a new fragment: then `update_new_frag_state` has taken the marker and
returns 0 for it, and the loop comes back to the same bytes in the state `Stalled`.
-/

namespace UnfsClient.Proofs

open Lib

/-- A marker is complete and its fragment has no block. -/
structure Stalled (rs : RpcRecordState) : Prop where
  size : rs.rsRecordsize = 0
  fh : rs.rsFhRemaining = 0
  remaining : rs.rsFragRemaining = -1

/-- `update_new_frag_state` on these bytes has a complete marker, and `mem_alloc` refuses the
block of its fragment. -/
def AllocRefused (E : Env) (w : World) (c z : Int) : Prop :=
  (collectMarker w c z).1.rs.rsFhRemaining = 0 ∧ E.memAlloc (collectMarker w c z).1.serial
    (fragSize (fraghdrWord (collectMarker w c z).1.rs.rsFraghdr)).toNat = false

/-- The state after a refusal. -/
def refuseFragment (w : World) : World :=
  w.tick.setRs { w.rs with
    rsFragBufsz := (fragSize (fraghdrWord w.rs.rsFraghdr)).toNat
    rsLastFrag := lastFrag (fraghdrWord w.rs.rsFraghdr) != 0
    rsFragBufBase := none }

lemma updateNewFragState_refused {E : Env} {w : World} {c z : Int} (h : AllocRefused E w c z) :
    updateNewFragState E w c z = (refuseFragment (collectMarker w c z).1, 0) := by
  obtain ⟨hfh, hno⟩ := h
  unfold updateNewFragState
  dsimp only
  rw [if_neg (by simp [hfh])]
  simp only [World.alloc, hno, Bool.false_eq_true, if_false]
  rfl

lemma startNext_refused {E : Env} {w : World} {b : Bytes} {c : Nat} (hlen : b.length < 2 ^ 31) (hc : c < b.length)
    (h : AllocRefused E w c (b.length - c)) :
    startNext E b.length w c = (refuseFragment (collectMarker w c (b.length - c)).1, (c : Int)) := by
  unfold startNext
  rw [if_pos (by omega), updateNewFragState_refused h]
  dsimp only
  rw [add_zero, cInt_of_range (by omega) (by omega)]

lemma collectMarker_stalled {w : World} (hst : Stalled w.rs) (c z : Int) : collectMarker w c z = (w, 0) := by
  unfold collectMarker
  dsimp only
  rw [if_neg (by simp [hst.fh])]

lemma stalled_refuseFragment {w : World} (hsize : w.rs.rsRecordsize = 0) (hfh : w.rs.rsFhRemaining = 0)
    (hrem : w.rs.rsFragRemaining = -1) : Stalled (refuseFragment w).rs := ⟨hsize, hfh, hrem⟩

/-- Once a block is granted to a stalled parser, its fragment begins at the bytes of its own
marker. -/
lemma startNext_stalled {E : Env} {w : World} {b : Bytes} {c : Nat} (hst : Stalled w.rs) (hlen : b.length < 2 ^ 31)
    (hc : c < b.length) (h : ¬AllocRefused E w c (b.length - c)) :
    ∃ w', startNext E b.length w c = (w', (c : Int)) ∧ ParserInv w'.rs ∧ w'.ct.ctReadbuf = w.ct.ctReadbuf := by
  have hgrant : E.memAlloc w.serial (fragSize (fraghdrWord w.rs.rsFraghdr)).toNat = true := by
    by_contra hno
    apply h
    unfold AllocRefused
    rw [collectMarker_stalled hst]
    exact ⟨hst.fh, eq_false_of_ne_true hno⟩
  have hnew : updateNewFragState E w c (b.length - c) = (w.tick.setRs { w.rs with
      rsFragBufsz := (fragSize (fraghdrWord w.rs.rsFraghdr)).toNat
      rsLastFrag := lastFrag (fraghdrWord w.rs.rsFraghdr) != 0
      rsFragBufBase := some ⟨w.serial, []⟩
      rsFragRemaining := (fragSize (fraghdrWord w.rs.rsFraghdr)).toNat
      rsFragOffset := 0 }, 0) := by
    unfold updateNewFragState
    rw [collectMarker_stalled hst]
    dsimp only
    rw [if_neg (by simp [hst.fh])]
    simp only [World.alloc, hgrant, if_true]
  unfold startNext
  rw [if_pos (by omega), hnew]
  dsimp only
  rw [add_zero, cInt_of_range (by omega) (by omega)]
  refine ⟨_, rfl, ⟨hst.size, Or.inr ⟨⟨w.serial, []⟩, ?_⟩⟩, rfl⟩
  constructor
  · rfl
  · exact hst.fh
  · rfl
  · simp
  · exact Nat.zero_le _
  · exact fragSize_lt _

/-- The third branch of the loop, where a marker is expected. -/
lemma startNext_granted {E : Env} {w : World} {b : Bytes} {c : Nat} (hb : b <+: w.ct.ctReadbuf)
    (hlen : b.length < 2 ^ 31) (hinv : ParserInv w.rs) (hin : InMarker w.rs) (hc : c < b.length)
    (h : ¬AllocRefused E w c (b.length - c)) :
    ∃ (w' : World) (k : Nat), startNext E b.length w c = (w', (k : Int)) ∧ c < k ∧ k ≤ b.length ∧
      ParserInv w'.rs ∧ w'.ct.ctReadbuf = w.ct.ctReadbuf := by
  have hpos := hin.pos
  have hlen' : (b.drop c).length = b.length - c := List.length_drop
  by_cases hpart : ((b.drop c).length : Int) < w.rs.rsFhRemaining
  · have hne : b.drop c ≠ [] := by
      rw [← List.length_pos_iff]
      omega
    exact ⟨_, _, startNext_part E hb hlen hin rfl hne hpart, hc, le_refl _,
      ⟨hinv.1, Or.inl (inMarker_storeMarker hin hpart)⟩, rfl⟩
  · have hsrc : ((b.drop c).take w.rs.rsFhRemaining.toNat).length = w.rs.rsFhRemaining.toNat := by
      rw [List.length_take]
      omega
    have hsplit := (List.take_append_drop w.rs.rsFhRemaining.toNat (b.drop c)).symm
    have hcast : (((b.drop c).take w.rs.rsFhRemaining.toNat).length : Int) = w.rs.rsFhRemaining := by
      omega
    have hgrant : E.memAlloc w.serial (announcedSize w ((b.drop c).take w.rs.rsFhRemaining.toNat)) = true := by
      by_contra hno
      apply h
      unfold AllocRefused
      rw [(collectMarker_full hb hin hsplit hcast).2]
      refine ⟨?_, eq_false_of_ne_true hno⟩
      simp only [storeMarker, World.note_rs, World.setRs_rs]
      omega
    exact ⟨_, _, startNext_full hb hlen hin hsplit hcast hgrant, by omega, by omega,
      ⟨hinv.1, Or.inr ⟨_, inPayload_beginFragment w _⟩⟩, rfl⟩

/-- A refusal where a marker is expected. -/
lemma collectMarker_refused {E : Env} {w : World} {b : Bytes} {c : Nat}
    (hinv : ParserInv w.rs) (hin : InMarker w.rs) (hc : c < b.length) (h : AllocRefused E w c (b.length - c)) :
    0 < rmLen w.rs (b.length - c) ∧ Stalled (refuseFragment (collectMarker w c (b.length - c)).1).rs ∧
      (collectMarker w c (b.length - c)).1.ct.ctReadbuf = w.ct.ctReadbuf := by
  have hpos := hin.pos
  have hle := hin.le
  have hrem := hin.remaining
  have hrm : 0 < rmLen w.rs (b.length - c) := by
    unfold rmLen
    split <;> omega
  have hparts : (collectMarker w c (b.length - c)).1.rs.rsRecordsize = 0 ∧
      (collectMarker w c (b.length - c)).1.rs.rsFragRemaining = -1 ∧
      (collectMarker w c (b.length - c)).1.ct.ctReadbuf = w.ct.ctReadbuf := by
    unfold collectMarker
    dsimp only
    rw [if_pos (by omega)]
    dsimp only
    split <;> exact ⟨hinv.1, hrem, rfl⟩
  exact ⟨hrm, stalled_refuseFragment hparts.1 h.1 hparts.2.1, hparts.2.2⟩

/-! ## Records under any allocator -/

lemma updateRecordState_cases {E : Env} {exec : Exec} {w w' : World} {called : Int}
    (h : updateRecordState E exec w = some (w', called)) :
    ∃ v, (callUserCb E exec (integrateFragment E w) = some v ∨ v = integrateFragment E w) ∧
      w' = expectNext v := by
  rw [updateRecordState_integrate] at h
  split at h
  · obtain ⟨v, hcb, hv⟩ := Option.map_eq_some_iff.mp h
    cases hv
    exact ⟨v, .inl hcb, rfl⟩
  · cases h
    exact ⟨_, .inr rfl, rfl⟩

lemma updateRecordState_inv {E : Env} {exec : Exec} {w w' : World} {called : Int}
    (h : updateRecordState E exec w = some (w', called)) : ParserInv w'.rs ∧ InMarker w'.rs := by
  obtain ⟨v, -, rfl⟩ := updateRecordState_cases h
  exact ⟨⟨rfl, Or.inl (inMarker_expectNext v)⟩, inMarker_expectNext v⟩

/-- `add_buffer_list` changes nothing but the list, and nothing when its node is refused. -/
lemma addFragment_rs (E : Env) (w : World) : (∃ l, (addFragment E w).rs = { w.rs with rsFragList := l }) ∧
    (addFragment E w).ct.ctReadbuf = w.ct.ctReadbuf := by
  unfold addFragment
  cases w.rs.rsFragBufBase with
  | none => exact ⟨⟨_, rfl⟩, rfl⟩
  | some block =>
    unfold World.alloc
    cases E.memAlloc w.serial sizeofFragBuffer with
    | false => exact ⟨⟨_, rfl⟩, rfl⟩
    | true => exact ⟨⟨_, rfl⟩, rfl⟩

/-- `mem_alloc` grants `collate_buf_list` its buffer. -/
def CollateGranted (E : Env) (w : World) : Prop := E.memAlloc w.serial (cUlong w.rs.rsRecordsize) = true

lemma collateBufList_refused {E : Env} {w : World} (h : ¬CollateGranted E w) : collateBufList E w = (w.tick, none) := by
  have hno : E.memAlloc w.serial (cUlong w.rs.rsRecordsize) = false := eq_false_of_ne_true h
  simp only [collateBufList, World.alloc, hno, Bool.false_eq_true, if_false]

/-- The buffer `collate_buf_list` fills from the fragment list. -/
def collatedMsg (E : Env) (rs : RpcRecordState) : Bytes :=
  let out := (fragPayloads rs.rsFragList).flatten
  out.take (cUlong rs.rsRecordsize) ++
    (List.range (cUlong rs.rsRecordsize - out.length)).map fun i => E.uninit (out.length + i)

lemma collateBufList_granted {E : Env} {w : World} (h : CollateGranted E w) :
    collateBufList E w = ((w.tick.setRs { w.rs with rsFragList := [] }).note (.collated (collatedMsg E w.rs)
      ((fragPayloads w.rs.rsFragList).flatten.length - cUlong w.rs.rsRecordsize)), some (collatedMsg E w.rs)) := by
  unfold CollateGranted at h
  simp only [collateBufList, World.alloc, h, if_true]
  rfl

section

variable {E : Env} {exec : Exec} (hexec : LeavesParser E (fun _ => True) exec)

include hexec

lemma callUserCb_readbuf {w w' : World} (h : callUserCb E exec w = some w') :
    w'.ct.ctReadbuf = w.ct.ctReadbuf := by
  unfold callUserCb at h
  dsimp only at h
  by_cases hgrant : CollateGranted E (w.note (.record (fragPayloads w.rs.rsFragList) w.rs.rsRecordsize))
  · rw [collateBufList_granted hgrant] at h
    exact (dispatchReply_keeps hexec h trivial).readbuf
  · rw [collateBufList_refused hgrant] at h
    cases h
    rfl

lemma updateRecordState_readbuf {w w' : World} {called : Int}
    (h : updateRecordState E exec w = some (w', called)) : w'.ct.ctReadbuf = w.ct.ctReadbuf := by
  obtain ⟨v, hv, rfl⟩ := updateRecordState_cases h
  cases hv with
  | inl hcb => exact (callUserCb_readbuf hexec hcb).trans (addFragment_rs E w).2
  | inr hno =>
    subst hno
    exact (addFragment_rs E w).2

/-- The first two branches of a pass. Either the buffer is used up or a marker is expected. -/
lemma copyThenClose_inv {w v u : World} {b : Bytes} {c : Nat} {d called : Int} (hb : b <+: w.ct.ctReadbuf)
    (hlen : b.length < 2 ^ 31) (hinv : ParserInv w.rs) (hc : c < b.length)
    (hcopy : copyPayload w c b.length = (v, d)) (hcl : closeCurrent E exec v = some (u, called)) :
    ∃ k : Nat, d = k ∧ c ≤ k ∧ k ≤ b.length ∧ ParserInv u.rs ∧ (k = b.length ∨ InMarker u.rs) ∧
      u.ct.ctReadbuf = w.ct.ctReadbuf := by
  have hfinish : ∀ {v' : World} {block : Block}, InPayload v'.rs block → block.bytes.length = v'.rs.rsFragBufsz →
      closeCurrent E exec v' = some (u, called) →
      (ParserInv u.rs ∧ InMarker u.rs) ∧ u.ct.ctReadbuf = v'.ct.ctReadbuf := by
    intro v' block hin hfull h
    have hrem := hin.remaining
    have hoff := hin.offset
    unfold closeCurrent at h
    rw [if_pos (by omega)] at h
    exact ⟨updateRecordState_inv h, updateRecordState_readbuf hexec h⟩
  rcases copyPayload_cases hb hlen hinv hc hcopy with ⟨hin, rfl, rfl⟩ | ⟨block, hin,
    ⟨hfull, rfl, rfl⟩ | ⟨hpart, rfl, rfl⟩ | ⟨src, rest, hsplit, hsrcne, hfull, rfl, rfl⟩⟩
  · have hrem := hin.remaining
    rw [closeCurrent_skip (by omega)] at hcl
    cases hcl
    exact ⟨c, rfl, le_refl _, hc.le, hinv, Or.inr hin, rfl⟩
  · obtain ⟨⟨hinv', hin'⟩, hbuf⟩ := hfinish hin hfull hcl
    exact ⟨c, rfl, le_refl _, hc.le, hinv', Or.inr hin', hbuf⟩
  · have hrem := hin.remaining
    rw [closeCurrent_skip (by simp only [storePayload, World.note_rs, World.setRs_rs]; omega)] at hcl
    cases hcl
    exact ⟨b.length, rfl, hc.le, le_refl _, ⟨hinv.1, Or.inr ⟨_, inPayload_storePayload hin hpart.le⟩⟩, Or.inl rfl, rfl⟩
  · have hfull' : (block.bytes ++ src).length = (storePayload w block src).rs.rsFragBufsz := by
      rw [List.length_append]
      exact hfull
    have hsum : b.length - c = src.length + rest.length := by
      rw [← List.length_drop, hsplit, List.length_append]
    obtain ⟨⟨hinv', hin'⟩, hbuf⟩ := hfinish (inPayload_storePayload hin hfull.le) hfull' hcl
    exact ⟨_, rfl, by omega, by omega, hinv', Or.inr hin', hbuf⟩

omit hexec in
/-- A stalled parser skips the first two branches. -/
lemma copyThenClose_stalled {w v u : World} {c z d called : Int} (hst : Stalled w.rs)
    (hcopy : copyPayload w c z = (v, d)) (hcl : closeCurrent E exec v = some (u, called)) : u = w ∧ d = c := by
  have hrem := hst.remaining
  rw [copyPayload_skip (by omega)] at hcopy
  cases hcopy
  rw [closeCurrent_skip (by omega)] at hcl
  cases hcl
  exact ⟨rfl, rfl⟩

end

/-! ## The calls of update_new_frag_state -/

/-- The heads of the loop in one call of `update_frag_state` on the read buffer `b`. -/
inductive CallHead (E : Env) (exec : Exec) (b : Bytes) (w : World) : World → Int → Prop where
  | start : CallHead E exec b w w 0
  | pass {v v' : World} {c c' called : Int} (h : CallHead E exec b w v c) (hc : c < b.length)
      (hpass : fragPass E exec b.length v c = some (v', c', called)) : CallHead E exec b w v' c'

/-- In that call, `update_new_frag_state` is called in the state `u` for the bytes from `d` on. -/
inductive NewFragCall (E : Env) (exec : Exec) (b : Bytes) (w : World) : World → Int → Prop where
  | intro {v v' u : World} {c d called : Int} (h : CallHead E exec b w v c) (hc : c < b.length)
      (hcopy : copyPayload v c b.length = (v', d)) (hclose : closeCurrent E exec v' = some (u, called))
      (hd : d < b.length) : NewFragCall E exec b w u d

/-- Every block that `update_new_frag_state` asks for in that call is granted. -/
def FragmentsGranted (E : Env) (exec : Exec) (b : Bytes) (w : World) : Prop :=
  ∀ u d, NewFragCall E exec b w u d → ¬AllocRefused E u d (b.length - d)

/-- So is the block that the pass from this head asks for. -/
def GrantedFrom (E : Env) (exec : Exec) (b : Bytes) (v : World) (c : Int) : Prop :=
  ∀ v' u d n, copyPayload v c b.length = (v', d) → closeCurrent E exec v' = some (u, n) → d < b.length →
    ¬AllocRefused E u d (b.length - d)

lemma FragmentsGranted.from {E : Env} {exec : Exec} {b : Bytes} {w v : World} {c : Int}
    (hgrant : FragmentsGranted E exec b w) (h : CallHead E exec b w v c) (hc : c < b.length) :
    GrantedFrom E exec b v c :=
  fun _ u d _ hcopy hcl hd => hgrant u d (.intro h hc hcopy hcl hd)

section

variable {E : Env} {exec : Exec} (hexec : LeavesParser E (fun _ => True) exec)

include hexec

/-- A pass from a state that is not stalled. -/
lemma fragPass_granted {w w' : World} {b : Bytes} {c : Nat} {c' called : Int} (hb : b <+: w.ct.ctReadbuf)
    (hlen : b.length < 2 ^ 31) (hinv : ParserInv w.rs) (hc : c < b.length) (hgrant : GrantedFrom E exec b w c)
    (h : fragPass E exec b.length w c = some (w', c', called)) :
    ∃ k : Nat, c' = k ∧ c < k ∧ k ≤ b.length ∧ ParserInv w'.rs ∧ w'.ct.ctReadbuf = w.ct.ctReadbuf := by
  obtain ⟨v, d, u, hcopy, hcl, hst⟩ := fragPass_cases h
  obtain ⟨k, rfl, hck, hk, hinv', hor, hbuf⟩ := copyThenClose_inv hexec hb hlen hinv hc hcopy hcl
  by_cases hend : k = b.length
  · rw [hend, startNext_end] at hst
    cases hst
    exact ⟨b.length, rfl, hc, le_refl _, hinv', hbuf⟩
  have hno := hgrant v u k called hcopy hcl (by omega)
  obtain ⟨w₂, k', heq, h₁, h₂, h₃, h₄⟩ := startNext_granted (by rwa [hbuf]) hlen hinv' (hor.resolve_left hend)
    (by omega) hno
  rw [hst] at heq
  cases heq
  exact ⟨k', rfl, by omega, h₂, h₃, h₄.trans hbuf⟩

/-- Any pass. It ends in a stalled state only before the end of the buffer. -/
lemma fragPass_head {w w' : World} {b : Bytes} {c : Nat} {c' called : Int} (hb : b <+: w.ct.ctReadbuf)
    (hlen : b.length < 2 ^ 31) (hinv : ParserInv w.rs ∨ Stalled w.rs) (hc : c < b.length)
    (h : fragPass E exec b.length w c = some (w', c', called)) :
    ∃ k : Nat, c' = k ∧ k ≤ b.length ∧ (ParserInv w'.rs ∨ Stalled w'.rs ∧ k < b.length) ∧
      w'.ct.ctReadbuf = w.ct.ctReadbuf := by
  obtain ⟨v, d, u, hcopy, hcl, hst⟩ := fragPass_cases h
  rcases hinv with hinv | hstall
  · obtain ⟨k, rfl, hck, hk, hinv', hor, hbuf⟩ := copyThenClose_inv hexec hb hlen hinv hc hcopy hcl
    by_cases hend : k = b.length
    · rw [hend, startNext_end] at hst
      cases hst
      exact ⟨b.length, rfl, le_refl _, Or.inl hinv', hbuf⟩
    have hin := hor.resolve_left hend
    have hb' : b <+: u.ct.ctReadbuf := by rwa [hbuf]
    by_cases hno : AllocRefused E u k (b.length - k)
    · obtain ⟨-, hstall, hbuf'⟩ := collectMarker_refused hinv' hin (by omega) hno
      rw [startNext_refused hlen (by omega) hno] at hst
      cases hst
      exact ⟨k, rfl, hk, Or.inr ⟨hstall, by omega⟩, hbuf'.trans hbuf⟩
    · obtain ⟨w₂, k', heq, -, h₂, h₃, h₄⟩ := startNext_granted hb' hlen hinv' hin (by omega) hno
      rw [hst] at heq
      cases heq
      exact ⟨k', rfl, h₂, Or.inl h₃, h₄.trans hbuf⟩
  · obtain ⟨rfl, rfl⟩ := copyThenClose_stalled hstall hcopy hcl
    by_cases hno : AllocRefused E u c (b.length - c)
    · rw [startNext_refused hlen hc hno, collectMarker_stalled hstall] at hst
      cases hst
      exact ⟨c, rfl, hc.le, Or.inr ⟨stalled_refuseFragment hstall.size hstall.fh hstall.remaining, hc⟩, rfl⟩
    · obtain ⟨w₂, heq, h₂, h₃⟩ := startNext_stalled hstall hlen hc hno
      rw [hst] at heq
      cases heq
      exact ⟨c, rfl, hc.le, Or.inl h₂, h₃⟩

/-- A loop head, whatever the allocator does. -/
lemma LoopHead.inv {w₀ : World} (h₀ : ParserInv w₀.rs) {w : World} {b : Bytes} {c : Int} {fed : Nat}
    (h : LoopHead E exec w₀ w b c fed) :
    b <+: w.ct.ctReadbuf ∧ b.length < 2 ^ 31 ∧ ∃ k : Nat, c = k ∧ k ≤ b.length ∧
      (ParserInv w.rs ∨ Stalled w.rs ∧ k < b.length) := by
  induction h with
  | start => exact ⟨List.nil_prefix, by decide, 0, rfl, Nat.zero_le _, Or.inl h₀⟩
  | @buffer w b b' fed h hne hlen ih =>
    obtain ⟨-, -, k, hk, -, hor⟩ := ih
    rcases hor with hinv | ⟨-, hlt⟩
    · exact ⟨prefix_loadReadbuf w b', hlen, 0, rfl, Nat.zero_le _, Or.inl hinv⟩
    · omega
  | @pass w w' b c c' called fed h hc hpass ih =>
    obtain ⟨hb, hlen, k, rfl, -, hor⟩ := ih
    obtain ⟨k', rfl, hk', hor', hbuf⟩ := fragPass_head hexec hb hlen (hor.imp_right And.left) (by omega) hpass
    exact ⟨by rwa [hbuf], hlen, k', rfl, hk', hor'⟩

/-- As long as no block is refused, the heads of a call are not stalled. -/
lemma CallHead.inv {b : Bytes} {w v : World} {c : Int} (hb : b <+: w.ct.ctReadbuf) (hlen : b.length < 2 ^ 31)
    (hinv : ParserInv w.rs) (hgrant : ∀ {v : World} {c : Nat}, CallHead E exec b w v c → b <+: v.ct.ctReadbuf →
      ParserInv v.rs → c < b.length → GrantedFrom E exec b v c) (h : CallHead E exec b w v c) :
    b <+: v.ct.ctReadbuf ∧ ParserInv v.rs ∧ ∃ k : Nat, c = k ∧ k ≤ b.length := by
  induction h with
  | start => exact ⟨hb, hinv, 0, rfl, Nat.zero_le _⟩
  | @pass v v' c c' called h hc hpass ih =>
    obtain ⟨hbv, hinvv, k, rfl, hk⟩ := ih
    obtain ⟨k', rfl, -, hk', hinv', hbuf⟩ := fragPass_granted hexec hbv hlen hinvv (by omega)
      (hgrant h hbv hinvv (by omega)) hpass
    exact ⟨by rwa [hbuf], hinv', k', rfl, hk'⟩

lemma fragLoop_ends (hret : Returns exec) {b : Bytes} {w v : World} {k : Nat} (hb : b <+: w.ct.ctReadbuf)
    (hlen : b.length < 2 ^ 31) (hinv : ParserInv w.rs) (hgrant : FragmentsGranted E exec b w)
    (h : CallHead E exec b w v k) (fuel : Nat) (called : Int) (hfuel : b.length ≤ k + fuel) :
    ∃ r, fragLoop E exec b.length fuel v k called = some r := by
  induction fuel generalizing v k called with
  | zero =>
    unfold fragLoop
    rw [if_neg (by omega)]
    exact ⟨_, rfl⟩
  | succ fuel ih =>
    unfold fragLoop
    by_cases hc : (b.length : Int) > k
    · obtain ⟨⟨v', c', m⟩, hpass⟩ := fragPass_returns hret (b.length : Int) v k
      obtain ⟨hbv, hinvv, -⟩ := h.inv hexec hb hlen hinv (fun h _ _ hc => hgrant.from h (by omega))
      obtain ⟨k', rfl, hkk, -⟩ := fragPass_granted hexec hbv hlen hinvv (by omega) (hgrant.from h hc) hpass
      rw [if_pos hc, hpass]
      exact ih (.pass h hc hpass) (called + m) (by omega)
    · rw [if_neg hc]
      exact ⟨_, rfl⟩

/-- A first refusal is not counted, so where every refusal is counted there is none. -/
lemma grantedFrom_of_counted {b : Bytes} {w v : World} {c : Nat} (hlen : b.length < 2 ^ 31)
    (hcount : ∀ u d, NewFragCall E exec b w u d → AllocRefused E u d (b.length - d) →
      (updateNewFragState E u d (b.length - d)).2 = rmLen u.rs (b.length - d))
    (h : CallHead E exec b w v c) (hb : b <+: v.ct.ctReadbuf) (hinv : ParserInv v.rs) (hc : c < b.length) :
    GrantedFrom E exec b v c := by
  intro v' u d n hcopy hcl hd hno
  have hzero := hcount u d (.intro h (by omega) hcopy hcl hd) hno
  obtain ⟨k, rfl, -, -, hinv', hor, -⟩ := copyThenClose_inv hexec hb hlen hinv hc hcopy hcl
  have hpos := (collectMarker_refused hinv' (hor.resolve_left (by omega)) (by omega) hno).1
  rw [updateNewFragState_refused hno] at hzero
  omega

/-- In every state in which `update_frag_state` is called, and for every read buffer: the loop
ends and the bytes of each marker count as consumed, even when the block of its fragment is
refused, if and only if no such block is refused. -/
theorem update_frag_state_ends_iff (hret : Returns exec) {w₀ : World} (h₀ : ParserInv w₀.rs) {w : World}
    {b' : Bytes} {fed : Nat} (h : LoopHead E exec w₀ w b' b'.length fed) {b : Bytes} (hlen : b.length < 2 ^ 31) :
    ((∃ fuel r, fragLoop E exec b.length fuel (w.loadReadbuf b) 0 0 = some r) ∧
      ∀ u d, NewFragCall E exec b (w.loadReadbuf b) u d → AllocRefused E u d (b.length - d) →
        (updateNewFragState E u d (b.length - d)).2 = rmLen u.rs (b.length - d)) ↔
      FragmentsGranted E exec b (w.loadReadbuf b) := by
  obtain ⟨-, -, k, hk, -, hor⟩ := h.inv hexec h₀
  have hinv : ParserInv (w.loadReadbuf b).rs := by
    rcases hor with hinv | ⟨-, hlt⟩
    · exact hinv
    · omega
  have hb := prefix_loadReadbuf w b
  constructor
  · rintro ⟨-, hcount⟩ u d ⟨hhead, hc, hcopy, hcl, hd⟩
    obtain ⟨hbv, hinvv, k, rfl, -⟩ := hhead.inv hexec hb hlen hinv (grantedFrom_of_counted hexec hlen hcount)
    exact grantedFrom_of_counted hexec hlen hcount hhead hbv hinvv (by omega) _ _ _ _ hcopy hcl hd
  · intro hgrant
    refine ⟨?_, fun u d hcall hno => absurd hno (hgrant u d hcall)⟩
    exact ⟨b.length, fragLoop_ends hexec hret hb hlen hinv hgrant .start b.length 0 (by omega)⟩

end

/-- An allocator that grants one block, which is the fragment of the record below, and refuses the
node for it and the collated buffer. -/
def oneBlockEnv : Env := { replyEnv with memAlloc := fun serial _ => serial == 0 }

def oneByteRecord : Bytes := [0x80, 0, 0, 1, 7]

def oneByteStart : World := (World.start authnoneHandle).loadReadbuf oneByteRecord

/-- The loop takes the marker in one pass and the payload in a second. -/
lemma oneByteRecord_heads {v : World} {c : Int} (h : CallHead oneBlockEnv noReentry oneByteRecord oneByteStart v c) :
    (v = oneByteStart ∧ c = 0) ∨ (v = (startNext oneBlockEnv 5 oneByteStart 0).1 ∧ c = 4) ∨ c = 5 := by
  induction h with
  | start => exact Or.inl ⟨rfl, rfl⟩
  | @pass v v' c c' called _ hc hpass ih =>
    rcases ih with ⟨rfl, rfl⟩ | ⟨rfl, rfl⟩ | rfl
    · have hfirst : fragPass oneBlockEnv noReentry 5 oneByteStart 0 =
          some ((startNext oneBlockEnv 5 oneByteStart 0).1, 4, 0) := rfl
      cases hpass.symm.trans hfirst
      exact Or.inr (Or.inl ⟨rfl, rfl⟩)
    · have hsecond : (fragPass oneBlockEnv noReentry 5 (startNext oneBlockEnv 5 oneByteStart 0).1 4).map
          (fun r => r.2.1) = some 5 := by decide
      have hpass : fragPass oneBlockEnv noReentry 5 _ 4 = some (v', c', called) := hpass
      rw [hpass] at hsecond
      exact Or.inr (Or.inr (Option.some.inj hsecond))
    · exact absurd hc (by decide)

lemma oneByteRecord_granted : FragmentsGranted oneBlockEnv noReentry oneByteRecord oneByteStart := by
  rintro u d ⟨hhead, hc, hcopy, hclose, hd⟩ hno
  rcases oneByteRecord_heads hhead with ⟨rfl, rfl⟩ | ⟨rfl, rfl⟩ | rfl
  · cases hcopy
    cases hclose
    exact absurd hno.2 (by decide)
  · cases hcopy
    exact absurd hd (by decide)
  · exact absurd hc (by decide)

theorem update_frag_state_ends_granted :
    (∃ fuel r, fragLoop oneBlockEnv noReentry oneByteRecord.length fuel oneByteStart 0 0 = some r) ∧
      ∀ u d, NewFragCall oneBlockEnv noReentry oneByteRecord oneByteStart u d →
        AllocRefused oneBlockEnv u d (oneByteRecord.length - d) →
        (updateNewFragState oneBlockEnv u d (oneByteRecord.length - d)).2 = rmLen u.rs (oneByteRecord.length - d) :=
  (update_frag_state_ends_iff (leavesParser_noReentry oneBlockEnv) returns_noReentry
    (parserInv_created authnoneHandle_created) .start (by decide)).mpr oneByteRecord_granted

/-! ## Refusals that last -/

/-- The block is refused in this call and in every later one. -/
def RefusedForGood (E : Env) (w : World) : Prop :=
  ∀ n, E.memAlloc (w.serial + n) (fragSize (fraghdrWord w.rs.rsFraghdr)).toNat = false

lemma fragLoop_stalled {E : Env} {exec : Exec} {w : World} {b : Bytes} {c : Nat} (hlen : b.length < 2 ^ 31)
    (hc : c < b.length) (hst : Stalled w.rs) (hno : RefusedForGood E w) (fuel : Nat) (called : Int) :
    fragLoop E exec b.length fuel w c called = none := by
  induction fuel generalizing w called with
  | zero =>
    unfold fragLoop
    rw [if_pos (by omega)]
  | succ fuel ih =>
    have hrefused : AllocRefused E w c (b.length - c) := by
      unfold AllocRefused
      rw [collectMarker_stalled hst]
      exact ⟨hst.fh, hno 0⟩
    have hrem := hst.remaining
    have hpass : fragPass E exec b.length w c = some (refuseFragment w, (c : Int), 0) := by
      unfold fragPass
      rw [copyPayload_skip (by omega)]
      dsimp only
      rw [closeCurrent_skip (by omega)]
      dsimp only
      rw [startNext_refused hlen hc hrefused, collectMarker_stalled hst]
    have hno' : RefusedForGood E (refuseFragment w) := by
      intro n
      have hlater := hno (1 + n)
      rw [← Nat.add_assoc] at hlater
      exact hlater
    unfold fragLoop
    rw [if_pos (by omega), hpass]
    exact ih (stalled_refuseFragment hst.size hst.fh hst.remaining) hno' _

/-- A marker whose size is never granted keeps `update_frag_state` in its loop. -/
lemma fragLoop_refusedForGood {E : Env} {exec : Exec} {w : World} {b : Bytes} (hlen : b.length < 2 ^ 31)
    (hne : b ≠ []) (hinv : ParserInv w.rs) (hin : InMarker w.rs) (hno : AllocRefused E w 0 b.length)
    (hgood : RefusedForGood E (refuseFragment (collectMarker w 0 b.length).1)) (fuel : Nat) :
    fragLoop E exec b.length fuel w 0 0 = none := by
  have hpos : 0 < b.length := List.length_pos_iff.mpr hne
  have hrem := hin.remaining
  have hno' : AllocRefused E w (0 : Nat) (b.length - (0 : Nat)) := by simpa using hno
  have hstall := (collectMarker_refused hinv hin hpos hno').2.1
  have hpass : fragPass E exec b.length w 0 = some (refuseFragment (collectMarker w 0 b.length).1, 0, 0) := by
    unfold fragPass
    rw [copyPayload_skip (by omega)]
    dsimp only
    rw [closeCurrent_skip (by omega)]
    dsimp only
    have hstart := startNext_refused hlen hpos hno'
    simp only [Nat.cast_zero, sub_zero] at hstart
    rw [hstart]
  simp only [Nat.cast_zero, sub_zero] at hstall
  cases fuel with
  | zero =>
    unfold fragLoop
    rw [if_pos (by omega)]
  | succ fuel =>
    unfold fragLoop
    rw [if_pos (by omega), hpass]
    exact fragLoop_stalled hlen hpos hstall hgood fuel _

/-- An allocator without blocks of 2^30 bytes and more. -/
def smallBlocksEnv : Env := { replyEnv with memAlloc := fun _ size => decide (size < 2 ^ 30) }

/-- An allocator that refuses the first block. -/
def firstRefusedEnv : Env := { replyEnv with memAlloc := fun serial _ => serial != 0, slack := 2 }

/-- A marker of 2^31 - 1 bytes keeps the loop running for good. After one refusal the first bytes
of a marker, and not those that follow it, become the payload of its fragment. -/
theorem refused_fragment_loops :
    (∀ fuel, fragLoop smallBlocksEnv noReentry 4 fuel
        ((World.start authnoneHandle).loadReadbuf [0x7f, 0xff, 0xff, 0xff]) 0 0 = none) ∧
      ((updateFragState firstRefusedEnv noReentry 6
        ((World.start authnoneHandle).loadReadbuf [0x80, 0, 0, 2, 7, 8])).map fun r =>
          r.1.log.filter ofParser) = some [.marker, .stored 2, .record [[0x80, 0]] 2, .collated [0x80, 0] 0,
            .marker] := by
  constructor
  · intro fuel
    let w := (World.start authnoneHandle).loadReadbuf [0x7f, 0xff, 0xff, 0xff]
    have hin : InMarker w.rs := ⟨rfl, show (0 : Int) < 4 by decide, le_refl _⟩
    have hinv : ParserInv w.rs := ⟨rfl, Or.inl hin⟩
    have hno : AllocRefused smallBlocksEnv w 0 4 := ⟨rfl, by decide⟩
    have hgood : RefusedForGood smallBlocksEnv (refuseFragment (collectMarker w 0 4).1) := fun _ => hno.2
    exact fragLoop_refusedForGood (b := [0x7f, 0xff, 0xff, 0xff]) (by decide) (by decide) hinv hin hno hgood fuel
  · decide

end UnfsClient.Proofs
