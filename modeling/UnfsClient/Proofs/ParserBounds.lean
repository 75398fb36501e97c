import UnfsClient.RpcReply
import UnfsClient.Proofs.ParserSteps

/-!
# Bounds of the record parser

What holds at the head of the loop of `update_frag_state`, for any bytes cut into any read
buffers: the copies stay inside the fragment and the marker, no conversion truncates, and
every byte read is a marker byte or a payload byte.
-/

namespace UnfsClient.Proofs

open Lib

def markers (log : List Event) : Nat := log.countP (· = .marker)

def storedBy : Event → Nat
  | .stored n => n
  | _ => 0

def storedBytes (log : List Event) : Nat := (log.map storedBy).sum

/-- The bytes of a marker that is not complete. -/
def incompleteMarker (rs : RpcRecordState) : Int :=
  if rs.rsFhRemaining = 0 then 0 else 4 - rs.rsFhRemaining

/-- The heads of the loop of `update_frag_state`, and its returns: the state, the read buffer,
`consumed`, and the number of bytes in the buffers before this one. -/
inductive LoopHead (E : Env) (exec : Exec) (w₀ : World) : World → Bytes → Int → Nat → Prop where
  | start : LoopHead E exec w₀ w₀ [] 0 0
  | buffer {w : World} {b b' : Bytes} {fed : Nat} (h : LoopHead E exec w₀ w b b.length fed) (hne : b' ≠ [])
      (hlen : b'.length < 2 ^ 31) : LoopHead E exec w₀ (w.loadReadbuf b') b' 0 (fed + b.length)
  | pass {w w' : World} {b : Bytes} {c c' called : Int} {fed : Nat} (h : LoopHead E exec w₀ w b c fed)
      (hc : c < b.length) (hpass : fragPass E exec b.length w c = some (w', c', called)) :
      LoopHead E exec w₀ w' b c' fed

/-- The copy into the current fragment, and what is computed from its size. -/
structure PayloadCopyOk (rs : RpcRecordState) (c bufsz : Int) : Prop where
  base : rs.rsFragBufBase ≠ none
  exact : fragTocopy rs c bufsz = min (bufsz - c) rs.rsFragRemaining
  pos : 0 < fragTocopy rs c bufsz
  inside : rs.rsFragOffset + fragTocopy rs c bufsz ≤ rs.rsFragBufsz
  consumed : c + fragTocopy rs c bufsz ≤ bufsz
  remaining : cLong (rs.rsFragRemaining - fragTocopy rs c bufsz) = rs.rsFragRemaining - fragTocopy rs c bufsz
  offset : (cUlong (rs.rsFragOffset + fragTocopy rs c bufsz) : Int) = rs.rsFragOffset + fragTocopy rs c bufsz
  advance : cInt (c + fragTocopy rs c bufsz) = c + fragTocopy rs c bufsz

/-- The copy into `rs_fraghdr`, and what is computed from its size. -/
structure MarkerCopyOk (rs : RpcRecordState) (c bufsz : Int) : Prop where
  pos : 0 < rmLen rs (bufsz - c)
  inside : rmLen rs (bufsz - c) ≤ 4
  consumed : c + rmLen rs (bufsz - c) ≤ bufsz
  remaining : cInt (rs.rsFhRemaining - rmLen rs (bufsz - c)) = rs.rsFhRemaining - rmLen rs (bufsz - c)
  advance : cInt (c + rmLen rs (bufsz - c)) = c + rmLen rs (bufsz - c)

structure HeadBounds (E : Env) (exec : Exec) (w : World) (b : Bytes) (c : Int) (fed : Nat) : Prop where
  fh : 0 ≤ w.rs.rsFhRemaining ∧ w.rs.rsFhRemaining ≤ 4
  frag : w.rs.rsFragRemaining = -1 ∨
    (w.rs.rsFragOffset + w.rs.rsFragRemaining = w.rs.rsFragBufsz ∧ w.rs.rsFragBufsz ≤ 2 ^ 31 - 1)
  consumed : 0 ≤ c ∧ c ≤ b.length
  payloadCopy : c < b.length → 0 < w.rs.rsFragRemaining → PayloadCopyOk w.rs c b.length
  -- `update_new_frag_state` runs on the state and the position that the first two branches leave
  markerCopy : ∀ v d w₁ called, c < b.length → copyPayload w c b.length = (v, d) →
    closeCurrent E exec v = some (w₁, called) → d < b.length → MarkerCopyOk w₁.rs d b.length
  conserved : fed + c = 4 * markers w.log + incompleteMarker w.rs + storedBytes w.log

lemma payloadCopyOk {rs : RpcRecordState} {block : Block} {b : Bytes} {c : Nat} (hin : InPayload rs block)
    (hlen : b.length < 2 ^ 31) (hc : c < b.length) (hpos : 0 < rs.rsFragRemaining) :
    PayloadCopyOk rs c b.length := by
  have hrem := hin.remaining
  have hoff := hin.offset
  have hsize := hin.size
  have hexact : fragTocopy rs c b.length = min ((b.length : Int) - c) rs.rsFragRemaining := by
    unfold fragTocopy
    rw [← min_def_lt]
    exact cInt_of_range (by omega) (by omega)
  constructor
  · simp [hin.base]
  · exact hexact
  · omega
  · omega
  · omega
  · exact cLong_of_range (by omega) (by omega)
  · rw [← Int.toNat_of_nonneg (show 0 ≤ (rs.rsFragOffset : Int) + fragTocopy rs c b.length by omega),
      cUlong_of_range (by omega)]
  · exact cInt_of_range (by omega) (by omega)

lemma markerCopyOk {rs : RpcRecordState} {b : Bytes} {c : Nat} (hin : InMarker rs)
    (hlen : b.length < 2 ^ 31) (hc : c < b.length) : MarkerCopyOk rs c b.length := by
  have hpos := hin.pos
  have hle := hin.le
  have hrm : rmLen rs (b.length - c) = min ((b.length : Int) - c) rs.rsFhRemaining := by
    unfold rmLen
    rw [← min_def_lt]
  constructor
  · omega
  · omega
  · omega
  · exact cInt_of_range (by omega) (by omega)
  · exact cInt_of_range (by omega) (by omega)

/-! ## Conservation -/

lemma incompleteMarker_of_pos {rs : RpcRecordState} (h : 0 < rs.rsFhRemaining) :
    incompleteMarker rs = 4 - rs.rsFhRemaining := by
  unfold incompleteMarker
  rw [if_neg (by omega)]

def accounted (w : World) : Int := 4 * markers w.log + incompleteMarker w.rs + storedBytes w.log

lemma markers_parserEvents (log : List Event) : markers (parserEvents log) = markers log := by
  unfold markers parserEvents
  rw [List.countP_filter]
  apply List.countP_congr
  intro e _
  cases e <;> simp [ofParser]

lemma storedBytes_parserEvents (log : List Event) : storedBytes (parserEvents log) = storedBytes log := by
  induction log with
  | nil => rfl
  | cons e log ih =>
    have hcons : storedBytes (e :: log) = storedBy e + storedBytes log := by simp [storedBytes]
    rw [hcons, ← ih]
    cases e <;> simp [parserEvents, storedBytes, storedBy, ofParser, List.filter_cons]

section

variable {E : Env} {Good : List Event → Prop} {exec : Exec} (hexec : LeavesParser E Good exec)

include hexec

lemma Closes.accounted {w w' : World} {block : Block} {called : Int} (h : Closes E exec w block w' called)
    (hin : InPayload w.rs block) (hgood : Good w'.log) : Proofs.accounted w' = Proofs.accounted w := by
  have hfh := hin.fh
  have hlog : markers w'.log = markers w.log ∧ storedBytes w'.log = storedBytes w.log := by
    cases h with
    | inner hlast => exact ⟨rfl, rfl⟩
    | final hlast hrun =>
      have hev := (dispatchReply_keeps hexec hrun hgood).events
      constructor
      · rw [← markers_parserEvents, expectNext, World.setRs_log, hev, markers_parserEvents]
        simp [collateRecord, appendFragment, markers]
      · rw [← storedBytes_parserEvents, expectNext, World.setRs_log, hev, storedBytes_parserEvents]
        simp [collateRecord, appendFragment, storedBytes, storedBy]
  have hinc : incompleteMarker w'.rs = incompleteMarker w.rs := by
    have hw' : w'.rs.rsFhRemaining = 4 := by cases h <;> rfl
    unfold incompleteMarker
    rw [hw', hfh]
    rfl
  unfold Proofs.accounted
  rw [hlog.1, hlog.2, hinc]

/-- A step accounts for exactly the bytes it takes from the buffer. -/
lemma ParserStep.accounted {w w' : World} {rest rest' : Bytes} {n : Int}
    (h : ParserStep E exec w rest w' rest' n) (hgood : Good w'.log) :
    Proofs.accounted w' + rest'.length = Proofs.accounted w + rest.length := by
  have hstore : ∀ {w : World} {block : Block} {src : Bytes}, InPayload w.rs block →
      Proofs.accounted (storePayload w block src) = Proofs.accounted w + src.length := by
    intro w block src hin
    simp [Proofs.accounted, storePayload, markers, storedBytes, storedBy, incompleteMarker]
    omega
  cases h with
  | storePart hin hne hlt =>
    rw [hstore hin]
    simp
  | storeLast hin hne heq hclose =>
    rw [hclose.accounted hexec (inPayload_storePayload hin heq.le) hgood, hstore hin, List.length_append]
    omega
  | closeEmpty hin heq hne hclose => rw [hclose.accounted hexec hin hgood]
  | markerPart hin hne hlt =>
    have hinc : incompleteMarker (storeMarker w rest).rs = incompleteMarker w.rs + rest.length := by
      rw [incompleteMarker_of_pos hin.pos, incompleteMarker_of_pos (inMarker_storeMarker hin hlt).pos]
      simp only [storeMarker, World.setRs_rs]
      omega
    simp only [Proofs.accounted, hinc, List.length_nil]
    change 4 * (markers w.log : Int) + _ + storedBytes w.log + 0 = _
    omega
  | @markerFull src _ hin heq =>
    have hmark : markers (beginFragment w src).log = markers w.log + 1 := by
      simp [beginFragment, markers]
    have hstored : storedBytes (beginFragment w src).log = storedBytes w.log := by
      simp [beginFragment, storedBytes, storedBy]
    have hinc : incompleteMarker (beginFragment w src).rs = 0 := rfl
    simp only [Proofs.accounted, hmark, hstored, hinc, incompleteMarker_of_pos hin.pos, List.length_append]
    omega

lemma ParserRun.accounted {w w' : World} {rest rest' : Bytes} {n : Int}
    (h : ParserRun E exec w rest w' rest' n) (hgood : Good w'.log) :
    Proofs.accounted w' + rest'.length = Proofs.accounted w + rest.length := by
  induction h with
  | refl w rest => rfl
  | step h t ih => rw [ih hgood, h.accounted hexec (hexec.closed (t.mono hexec) hgood)]

end

/-! ## Loop heads -/

lemma parserInv_created {ct : CtData} (hct : Created ct) : ParserInv (World.start ct).rs := by
  cases hct <;> exact ⟨rfl, Or.inl ⟨rfl, show (0 : Int) < 4 by decide, le_refl _⟩⟩

lemma prefix_loadReadbuf (w : World) (b : Bytes) : b <+: (w.loadReadbuf b).ct.ctReadbuf := by
  change b <+: memcpy w.ct.ctReadbuf 0 b
  rw [memcpy_zero]
  exact List.prefix_append _ _

section

variable {E : Env} (hE : AllocsSucceed E) {exec : Exec} (hexec : LeavesParser E (fun _ => True) exec)

include hE hexec

/-- What is carried from one loop head to the next. -/
lemma LoopHead.carried {ct : CtData} (hct : Created ct) {w : World} {b : Bytes} {c : Int} {fed : Nat}
    (h : LoopHead E exec (World.start ct) w b c fed) :
    ParserInv w.rs ∧ b <+: w.ct.ctReadbuf ∧ b.length < 2 ^ 31 ∧ (0 ≤ c ∧ c ≤ b.length) ∧
      accounted w = fed + c := by
  induction h with
  | start =>
    refine ⟨parserInv_created hct, List.nil_prefix, by decide, by simp, ?_⟩
    cases hct <;> rfl
  | @buffer w b b' fed h hne hlen ih =>
    refine ⟨ih.1, prefix_loadReadbuf w b', hlen, by omega, ?_⟩
    have hacc : accounted (w.loadReadbuf b') = accounted w := rfl
    rw [hacc, ih.2.2.2.2]
    push_cast
    omega
  | @pass w w' b c c' called fed h hc hpass ih =>
    obtain ⟨hinv, hb, hlen, hc0, hacc⟩ := ih
    obtain ⟨k, rfl⟩ := Int.eq_ofNat_of_zero_le hc0.1
    obtain ⟨k', rfl, hkk, hk, hrun⟩ := fragPass_run hexec hE hb hlen hinv (by omega) hpass trivial
    have hstep := hrun.accounted hexec trivial
    rw [List.length_drop, List.length_drop] at hstep
    exact ⟨hrun.inv hinv, by rwa [hrun.readbuf hexec trivial], hlen, by omega, by omega⟩

omit hexec in
lemma headBounds {w : World} {b : Bytes} {c : Int} {fed : Nat} (hinv : ParserInv w.rs)
    (hlen : b.length < 2 ^ 31) (hc : 0 ≤ c ∧ c ≤ b.length) (hb : b <+: w.ct.ctReadbuf)
    (hacc : accounted w = fed + c) : HeadBounds E exec w b c fed := by
  obtain ⟨k, rfl⟩ := Int.eq_ofNat_of_zero_le hc.1
  constructor
  · rcases hinv.2 with hin | ⟨block, hin⟩
    · exact ⟨hin.pos.le, hin.le⟩
    · rw [hin.fh]
      decide
  · rcases hinv.2 with hin | ⟨block, hin⟩
    · exact Or.inl hin.remaining
    · have hrem := hin.remaining
      have hoff := hin.offset
      have hsize := hin.size
      exact Or.inr ⟨by omega, by omega⟩
  · exact hc
  · intro hlt hpos
    rcases hinv.2 with hin | ⟨block, hin⟩
    · rw [hin.remaining] at hpos
      omega
    · exact payloadCopyOk hin hlen (by omega) hpos
  · intro v d w₁ called hlt hcopy hclose hd
    obtain ⟨k', rfl, -, -, hor, -⟩ := copyThenClose_run hE hb hlen hinv (by omega) hcopy hclose
    exact markerCopyOk (hor.resolve_left (by omega)) hlen (by omega)
  · rw [← hacc]
    rfl

lemma LoopHead.at_end {ct : CtData} (hct : Created ct) {w : World} {b : Bytes} {c : Int} {fed : Nat}
    (h : LoopHead E exec (World.start ct) w b c fed) (hc : ¬(b.length : Int) > c) :
    LoopHead E exec (World.start ct) w b b.length fed := by
  have hle := (h.carried hE hexec hct).2.2.2.1.2
  have heq : c = b.length := by omega
  exact heq ▸ h

lemma LoopHead.fragLoop {ct : CtData} (hct : Created ct) {fuel : Nat} {w w' : World} {b : Bytes}
    {c called n : Int} {fed : Nat} (h : LoopHead E exec (World.start ct) w b c fed)
    (hloop : UnfsClient.fragLoop E exec b.length fuel w c called = some (w', n)) :
    LoopHead E exec (World.start ct) w' b b.length fed := by
  induction fuel generalizing w c called with
  | zero =>
    unfold UnfsClient.fragLoop at hloop
    split at hloop
    · cases hloop
    · rename_i hc
      cases hloop
      exact h.at_end hE hexec hct hc
  | succ fuel ih =>
    unfold UnfsClient.fragLoop at hloop
    split at hloop
    · rename_i hc
      dsimp only at hloop
      split at hloop
      · cases hloop
      · rename_i v c' m hpass
        exact ih (.pass h hc hpass) hloop
    · rename_i hc
      cases hloop
      exact h.at_end hE hexec hct hc

/-- The parser is safe and uses every byte once, whatever it is sent. Each call of
`update_frag_state` returns, and the state it returns in is one of those the bounds are about. -/
theorem update_frag_state_bounds (hret : Returns exec) {ct : CtData} (hct : Created ct) {w : World} {b : Bytes}
    {c : Int} {fed : Nat} (h : LoopHead E exec (World.start ct) w b c fed) :
    HeadBounds E exec w b c fed ∧
      (c = 0 → ∃ w' n, updateFragState E exec b.length w = some (w', n) ∧
        LoopHead E exec (World.start ct) w' b b.length fed) := by
  obtain ⟨hinv, hb, hlen, hc, hacc⟩ := h.carried hE hexec hct
  refine ⟨headBounds hE hinv hlen hc hb hacc, ?_⟩
  intro hzero
  subst hzero
  obtain ⟨w', n, hup, -⟩ := updateFragState_returns hE hexec hret hb hlen hinv
  exact ⟨w', n, hup, h.fragLoop hE hexec hct hup⟩

end

/-- The bounds where the two bytes of an incomplete marker have been read. -/
theorem update_frag_state_bounds_split_marker :
    LoopHead replyEnv noReentry (World.start authnoneHandle) (storeMarker ((World.start authnoneHandle).loadReadbuf
      [0x80, 0]) [0x80, 0]) [0x80, 0] 2 0 ∧
    HeadBounds replyEnv noReentry (storeMarker ((World.start authnoneHandle).loadReadbuf [0x80, 0]) [0x80, 0])
      [0x80, 0] 2 0 := by
  have hpass : fragPass replyEnv noReentry 2 ((World.start authnoneHandle).loadReadbuf [0x80, 0]) 0 =
      some (storeMarker ((World.start authnoneHandle).loadReadbuf [0x80, 0]) [0x80, 0], 2, 0) := rfl
  have hhead : LoopHead replyEnv noReentry (World.start authnoneHandle) (storeMarker
      ((World.start authnoneHandle).loadReadbuf [0x80, 0]) [0x80, 0]) [0x80, 0] 2 0 :=
    .pass (.buffer .start (by decide) (by decide)) (by decide) hpass
  exact ⟨hhead, (update_frag_state_bounds replyEnv_allocs (leavesParser_noReentry _) returns_noReentry
    authnoneHandle_created hhead).1⟩

end UnfsClient.Proofs
