import UnfsClient.Proofs.NestedCalls
import UnfsClient.Proofs.TransmitStream

/-!
# Calls that fail

What the `xdrrec` stream takes is either flushed in fragments or stays in its buffer, so the
record of a call is what was left in the buffer before, followed by what the call puts. A call
that fails leaves its entry in the table and bytes in the buffer, which the next call sends
in front of its own.
-/

namespace UnfsClient.Proofs

open Lib

def queuedOf? : Event → Option Bytes
  | .queued b => some b
  | _ => none

/-- The buffers passed to `writetcp_nb`. -/
def queuedList (log : List Event) : List Bytes := log.filterMap queuedOf?

lemma queuedList_append (a b : List Event) : queuedList (a ++ b) = queuedList a ++ queuedList b :=
  List.filterMap_append

/-! ## The output stream -/

lemma sendBuffersLoop_stream {flag : UInt32} {ws : List WriteResult} {w w' : World} {res : Int}
    (h : sendBuffersLoop flag ws w = some (w', res)) :
    w'.ct.ctXdrs = w.ct.ctXdrs ∧ queuedList w'.log = queuedList w.log := by
  have hsent : ∀ (w : World) (buf : FragBuffer) (n : Nat),
      queuedList (acceptBytes w buf n).log = queuedList w.log := by
    intro w buf n
    simp [acceptBytes, queuedList, queuedOf?]
  obtain ⟨v, ws', hsend, rfl, -⟩ := sendBuffersLoop_sends h
  clear h
  induction hsend with
  | refl => exact ⟨rfl, rfl⟩
  | tail _ hstep ih =>
    cases hstep with
    | part hs hn => exact ⟨ih.1, (hsent _ _ _).trans ih.2⟩
    | all hs hn => exact ⟨ih.1, (hsent _ _ _).trans ih.2⟩

lemma writetcpNb_stream {E : Env} {buf : Bytes} {w w' : World} {res : Int}
    (h : writetcpNb E buf w = some (w', res)) :
    w'.ct.ctXdrs = w.ct.ctXdrs ∧ queuedList w'.log = queuedList w.log ++ [buf] := by
  have hnote : queuedList (w.log ++ [.queued buf]) = queuedList w.log ++ [buf] := by
    simp [queuedList, queuedOf?]
  cases hm : E.memAlloc w.serial (sizeofFragBuffer + (1 + buf.length)) with
  | false =>
    rw [writetcpNb_fails hm] at h
    cases h
    exact ⟨rfl, hnote⟩
  | true =>
    rw [writetcpNb_ok hm, Option.map_eq_some_iff] at h
    obtain ⟨r, hsend, hr⟩ := h
    cases hr
    obtain ⟨hx, hq⟩ := sendBuffersLoop_stream hsend
    exact ⟨hx, hq.trans hnote⟩

lemma flushOut_stream {E : Env} {eor ok : Bool} {w w' : World} (h : flushOut E eor w = some (w', ok)) :
    queuedList w'.log = queuedList w.log ++ [outFragment eor w.ct.ctXdrs.outBuf] ∧
      w'.ct.ctXdrs.outSize = w.ct.ctXdrs.outSize ∧
      w'.ct.ctXdrs.outBuf = if ok then [] else w.ct.ctXdrs.outBuf := by
  obtain ⟨v, res, hw, ⟨rfl, rfl⟩ | ⟨rfl, rfl⟩⟩ := flushOut_cases h
  · obtain ⟨hx, hq⟩ := writetcpNb_stream hw
    exact ⟨hq, by rw [hx], by rw [hx]; rfl⟩
  · obtain ⟨hx, hq⟩ := writetcpNb_stream hw
    refine ⟨hq, ?_, rfl⟩
    change v.ct.ctXdrs.outSize = _
    rw [hx]

/-- The stream has been given `bs`. If it took them all, they were flushed in the fragments `ps`
or are in the buffer. The buffer is empty afterwards only if nothing was put. -/
structure Streamed (bs : Bytes) (ok : Bool) (w v : World) : Prop where
  outSize : v.ct.ctXdrs.outSize = w.ct.ctXdrs.outSize
  taken : ok = true → ∃ ps : List Bytes, queuedList v.log = queuedList w.log ++ ps.map (outFragment false) ∧
    ps.flatten ++ v.ct.ctXdrs.outBuf = w.ct.ctXdrs.outBuf ++ bs
  kept : ok = false ∨ w.ct.ctXdrs.outBuf ≠ [] ∨ bs ≠ [] → v.ct.ctXdrs.outBuf ≠ []

lemma Streamed.trans {as bs : Bytes} {ok : Bool} {w u v : World} (h : Streamed as true w u)
    (t : Streamed bs ok u v) : Streamed (as ++ bs) ok w v := by
  refine ⟨t.outSize.trans h.outSize, ?_, ?_⟩
  · intro hok
    obtain ⟨ps, hq, hb⟩ := h.taken rfl
    obtain ⟨ps', hq', hb'⟩ := t.taken hok
    refine ⟨ps ++ ps', ?_, ?_⟩
    · rw [hq', hq, List.map_append, List.append_assoc]
    · rw [List.flatten_append, List.append_assoc, hb', ← List.append_assoc, hb, List.append_assoc]
  · intro hne
    by_cases hfirst : w.ct.ctXdrs.outBuf ≠ [] ∨ as ≠ []
    · exact t.kept (Or.inr (Or.inl (h.kept (Or.inr hfirst))))
    · push Not at hfirst
      rw [hfirst.1, hfirst.2, List.nil_append] at hne
      exact t.kept (hne.imp_right fun hne => Or.inr (hne.resolve_left (by simp)))

/-- What would have been put after a failure does not matter. -/
lemma Streamed.fails {as : Bytes} {w v : World} (h : Streamed as false w v) (bs : Bytes) : Streamed bs false w v :=
  ⟨h.outSize, fun hf => (by cases hf), fun _ => h.kept (Or.inl rfl)⟩

lemma streamed_nil (w : World) : Streamed [] true w w := by
  refine ⟨rfl, fun _ => ⟨[], by simp, by simp⟩, ?_⟩
  intro hne
  simpa using hne

lemma streamed_append (w : World) (bs : Bytes) : Streamed bs true w (setOut w (w.ct.ctXdrs.outBuf ++ bs)) := by
  refine ⟨rfl, fun _ => ⟨[], (List.append_nil _).symm, rfl⟩, ?_⟩
  intro hne
  change w.ct.ctXdrs.outBuf ++ bs ≠ []
  rw [ne_eq, List.append_eq_nil_iff]
  simp only [Bool.true_eq_false, false_or] at hne
  tauto

/-- The buffer is flushed to make room. -/
lemma streamed_flush {E : Env} {w v : World} (bs : Bytes) (hbs : bs ≠ [])
    (h : flushOut E false (setFragSent w true) = some (v, true)) :
    Streamed bs true w (setOut v (v.ct.ctXdrs.outBuf ++ bs)) := by
  obtain ⟨hq, hsize, hbuf⟩ := flushOut_stream h
  have hempty : v.ct.ctXdrs.outBuf = [] := hbuf
  refine ⟨hsize, fun _ => ⟨[w.ct.ctXdrs.outBuf], hq, ?_⟩, fun _ => ?_⟩
  · rw [hempty]
    simp [setOut]
  · rw [hempty]
    exact hbs

/-- The buffer was full, and could not be flushed. -/
lemma streamed_full {E : Env} {w v : World} {bs : Bytes} {n : Nat} (hn : n ≤ w.ct.ctXdrs.outSize)
    (hfull : ¬w.ct.ctXdrs.outBuf.length + n ≤ w.ct.ctXdrs.outSize)
    (h : flushOut E false (setFragSent w true) = some (v, false)) : Streamed bs false w v := by
  obtain ⟨-, hsize, hbuf⟩ := flushOut_stream h
  refine ⟨hsize, fun hf => (by cases hf), fun _ hnil => ?_⟩
  rw [hbuf] at hnil
  have hnil' : w.ct.ctXdrs.outBuf = [] := hnil
  rw [hnil', List.length_nil] at hfull
  omega

lemma xdrrecPutbytes_streamed {E : Env} {bs : Bytes} {ok : Bool} {w v : World} (hsize : 4 ≤ w.ct.ctXdrs.outSize)
    (h : xdrrecPutbytes E bs w = some (v, ok)) : Streamed bs ok w v := by
  induction bs generalizing w with
  | nil =>
    cases h
    exact streamed_nil _
  | cons b bs ih =>
    unfold xdrrecPutbytes at h
    split at h
    · have hone := streamed_append w [b]
      exact hone.trans (ih hsize h)
    · split at h
      · cases h
      · rename_i hfull _ u hflush
        cases h
        exact streamed_full (n := 1) (by omega) (by omega) hflush
      · rename_i u hflush
        have hone := streamed_flush [b] (by simp) hflush
        exact hone.trans (ih (hone.outSize.symm ▸ hsize) h)

lemma xdrrecPutlong_streamed {E : Env} {word : UInt32} {ok : Bool} {w v : World} (hsize : 4 ≤ w.ct.ctXdrs.outSize)
    (h : xdrrecPutlong E word w = some (v, ok)) : Streamed (beBytes word) ok w v := by
  unfold xdrrecPutlong at h
  split at h
  · cases h
    exact streamed_append w _
  · split at h
    · cases h
    · rename_i hfull _ u hflush
      cases h
      exact streamed_full hsize hfull hflush
    · rename_i u hflush
      cases h
      exact streamed_flush _ (by simp [beBytes]) hflush

lemma xdrrecPuts_streamed {E : Env} {ps : List Put} {ok : Bool} {w v : World} (hsize : 4 ≤ w.ct.ctXdrs.outSize)
    (h : xdrrecPuts E ps w = some (v, ok)) : Streamed (ps.flatMap Put.toBytes) ok w v := by
  have hput : ∀ {p : Put} {ok : Bool} {w v : World}, 4 ≤ w.ct.ctXdrs.outSize → xdrrecPut E p w = some (v, ok) →
      Streamed p.toBytes ok w v := by
    intro p ok w v hsize hp
    cases p with
    | long word => exact xdrrecPutlong_streamed hsize hp
    | bytes b => exact xdrrecPutbytes_streamed hsize hp
  induction ps generalizing w with
  | nil =>
    cases h
    exact streamed_nil _
  | cons p ps ih =>
    unfold xdrrecPuts at h
    split at h
    · cases h
    · rename_i u hp
      cases h
      exact (hput hsize hp).fails _
    · rename_i u hp
      have hfirst := hput hsize hp
      exact hfirst.trans (ih (hfirst.outSize.symm ▸ hsize) h)

/-- An encoder that succeeds has put its bytes; one that fails does not empty the buffer. -/
lemma xdrrecEncode_streamed {E : Env} {e : Encoding} {ok : Bool} {w v : World} (hsize : 4 ≤ w.ct.ctXdrs.outSize)
    (hne : w.ct.ctXdrs.outBuf ≠ []) (h : xdrrecEncode E e w = some (v, ok)) : Streamed e.bytes ok w v := by
  unfold xdrrecEncode at h
  split at h
  · cases h
  · rename_i u sent hp
    cases h
    have hputs := xdrrecPuts_streamed hsize hp
    refine ⟨hputs.outSize, ?_, fun _ => hputs.kept (Or.inr (Or.inl hne))⟩
    intro hok
    exact hputs.taken (Bool.and_eq_true_iff.mp hok).1

/-! ## The record of a call -/

/-- What a call puts on the stream: its header, the procedure number, credentials, arguments. -/
def callBytes (rpc : RpcProcInfo) (w : World) : Bytes :=
  ctMcall w.ct ++ beBytes rpc.proc.toUInt32 ++ w.ct.clAuth.bytes ++ rpc.inargs.bytes

/-- A call that is encoded puts one record on the wire, which starts with what was left in the
buffer; one that is not leaves the buffer not empty. -/
lemma encodeCall_streamed {E : Env} {rpc : RpcProcInfo} {ok : Bool} {w v : World} (hsize : 4 ≤ w.ct.ctXdrs.outSize)
    (h : encodeCall E rpc w = some (v, ok)) :
    (ok = false → v.ct.ctXdrs.outBuf ≠ []) ∧
      (ok = true → ∃ (ps : List Bytes) (last : Bytes),
        queuedList v.log = queuedList w.log ++ (ps.map (outFragment false) ++ [outFragment true last]) ∧
        ps.flatten ++ last = w.ct.ctXdrs.outBuf ++ callBytes rpc w) := by
  have hfails : ∀ {bs : Bytes} {u : World}, Streamed bs false w u → (false = false → u.ct.ctXdrs.outBuf ≠ []) ∧
      (false = true → ∃ (ps : List Bytes) (last : Bytes),
        queuedList u.log = queuedList w.log ++ (ps.map (outFragment false) ++ [outFragment true last]) ∧
        ps.flatten ++ last = w.ct.ctXdrs.outBuf ++ callBytes rpc w) :=
    fun hs => ⟨fun _ => hs.kept (Or.inl rfl), fun hf => (by cases hf)⟩
  unfold encodeCall at h
  split at h
  · cases h
  · rename_i u h₁
    cases h
    exact hfails (xdrrecPutbytes_streamed hsize h₁)
  rename_i w₁ h₁
  have s₁ := xdrrecPutbytes_streamed hsize h₁
  have hne₁ : w₁.ct.ctXdrs.outBuf ≠ [] := s₁.kept (Or.inr (Or.inr (by simp [ctMcall, leBytes, beBytes])))
  split at h
  · cases h
  · rename_i u h₂
    cases h
    exact hfails (s₁.trans (xdrrecPutlong_streamed (s₁.outSize.symm ▸ hsize) h₂))
  rename_i w₂ h₂
  have s₂ := s₁.trans (xdrrecPutlong_streamed (s₁.outSize.symm ▸ hsize) h₂)
  have hne₂ : w₂.ct.ctXdrs.outBuf ≠ [] := s₂.kept (Or.inr (Or.inr (by simp [beBytes])))
  have hauth : w₂.ct.clAuth = w.ct.clAuth := by
    have htx := (xdrrecPutbytes_acts h₁).txOnly.trans (xdrrecPutlong_acts h₂).txOnly
    exact (congrArg CtData.clAuth htx.ct :)
  split at h
  · cases h
  · rename_i u h₃
    cases h
    exact hfails (s₂.trans (xdrrecEncode_streamed (s₂.outSize.symm ▸ hsize) hne₂ h₃))
  rename_i w₃ h₃
  have s₃ := s₂.trans (xdrrecEncode_streamed (s₂.outSize.symm ▸ hsize) hne₂ h₃)
  have hne₃ : w₃.ct.ctXdrs.outBuf ≠ [] := s₃.kept (Or.inr (Or.inr (by simp [beBytes])))
  split at h
  · cases h
  · rename_i u h₄
    cases h
    exact hfails (s₃.trans (xdrrecEncode_streamed (s₃.outSize.symm ▸ hsize) hne₃ h₄))
  rename_i w₄ h₄
  have s₄ := s₃.trans (xdrrecEncode_streamed (s₃.outSize.symm ▸ hsize) hne₃ h₄)
  have hne₄ : w₄.ct.ctXdrs.outBuf ≠ [] := s₄.kept (Or.inr (Or.inr (by simp [beBytes])))
  obtain ⟨hq, -, hbuf⟩ := flushOut_stream h
  constructor
  · rintro rfl
    rw [hbuf]
    exact hne₄
  · rintro rfl
    obtain ⟨ps, hps, hbytes⟩ := s₄.taken rfl
    refine ⟨ps, w₄.ct.ctXdrs.outBuf, ?_, ?_⟩
    · rw [hq]
      change queuedList w₄.log ++ _ = _
      rw [hps, List.append_assoc]
      rfl
    · rw [hbytes, hauth]
      rfl

/-- Registering a call does not touch the stream. -/
lemma registerCall_xdrs (cbi : Cbi) (w : World) : (registerCall cbi w.tick).ct.ctXdrs = w.ct.ctXdrs := rfl

/-- The record of a call: the payloads of the fragments it passes to `writetcp_nb` before it is
counted as issued. -/
def recordPut (es : List Event) : Bytes :=
  ((queuedList (es.takeWhile fun e => (issuedOf? e).isNone)).map (List.drop 4)).flatten

lemma takeWhile_issued {es post : List Event} {cbi : Cbi} {x : UInt32} {rpc : RpcProcInfo}
    (h : ∀ e ∈ es, issuedOf? e = none) :
    (es ++ .issued cbi x rpc :: post).takeWhile (fun e => (issuedOf? e).isNone) = es := by
  rw [List.takeWhile_append_of_pos (fun e he => by rw [h e he]; rfl)]
  exact List.append_nil _

lemma outFragment_drop (eor : Bool) (p : Bytes) : (outFragment eor p).drop 4 = p := rfl

/-- The record of a successful call starts with what was left in the buffer. -/
lemma clnttcpNbCall_record {E : Env} {exec : Exec} (hexec : ActsOnly E true exec) {rpc : RpcProcInfo}
    {ucbi : CallbackInfo} {callflag : UInt64} {w w' : World} (hsize : 4 ≤ w.ct.ctXdrs.outSize)
    (h : clnttcpNbCall E exec rpc ucbi callflag w = some (w', .success)) :
    recordPut (w'.log.drop w.log.length) =
      w.ct.ctXdrs.outBuf ++ callBytes rpc (registerCall ⟨w.serial, ucbi⟩ w.tick) := by
  rcases clnttcpNbCall_cases h with ⟨-, -, hstat⟩ | ⟨-, v, ok, henc, ⟨-, -, hstat⟩ | ⟨rfl, -, n, hrec⟩⟩
  · cases hstat
  · cases hstat
  obtain ⟨res, hreg⟩ : ∃ res, (registerCall ⟨w.serial, ucbi⟩ w.tick).log =
      w.log ++ [.registered ⟨w.serial, ucbi⟩ (byteSwap (w.ct.ctXid - 1)) res] := ⟨_, rfl⟩
  obtain ⟨es, hes, htr⟩ := (encodeCall_acts henc).txOnly.log
  obtain ⟨post, hpost⟩ := (clnttcpNbReceive_acts hexec hrec).log_grows
  obtain ⟨ps, last, hq, hbytes⟩ := (encodeCall_streamed (by rwa [registerCall_xdrs]) henc).2 rfl
  have hnone : ∀ e ∈ .registered ⟨w.serial, ucbi⟩ (byteSwap (w.ct.ctXid - 1)) res :: es, issuedOf? e = none := by
    intro e he
    rcases List.mem_cons.mp he with rfl | he
    · rfl
    · exact issuedOf_ofTransmit (htr e he)
  have hlog : w'.log.drop w.log.length =
      (.registered ⟨w.serial, ucbi⟩ (byteSwap (w.ct.ctXid - 1)) res :: es) ++
        .issued ⟨w.serial, ucbi⟩ (byteSwap v.ct.ctXid) rpc :: post := by
    have hfull : w'.log = w.log ++ ((.registered ⟨w.serial, ucbi⟩ (byteSwap (w.ct.ctXid - 1)) res :: es) ++
        .issued ⟨w.serial, ucbi⟩ (byteSwap v.ct.ctXid) rpc :: post) := by
      rw [← hpost]
      simp [issueCall, setPending, hes, hreg]
    rw [hfull, List.drop_left]
  have hframes : queuedList es = ps.map (outFragment false) ++ [outFragment true last] := by
    rw [hes, queuedList_append] at hq
    exact List.append_cancel_left hq
  unfold recordPut
  rw [hlog, takeWhile_issued hnone]
  change ((queuedList es).map (List.drop 4)).flatten = _
  rw [hframes, List.map_append, List.map_map, List.flatten_append]
  have hid : List.drop 4 ∘ outFragment false = id := funext fun p => outFragment_drop false p
  rw [hid, List.map_id, List.map_singleton, outFragment_drop, List.flatten_singleton, hbytes,
    registerCall_xdrs]

/-! ## Failed calls -/

/-- The call that led from `w` to `w'` has left no trace. -/
structure NoTrace (E : Env) (exec : Exec) (w w' : World) : Prop where
  table : ghtEntries w'.ct.ctXidToUcb = ghtEntries w.ct.ctXidToUcb
  pending : w'.ct.ctPendingcalls = w.ct.ctPendingcalls
  sndlist : w'.ct.ctSndlist.flatMap unsent <:+ w.ct.ctSndlist.flatMap unsent
  stream : w'.ct.ctXdrs.outBuf = w.ct.ctXdrs.outBuf
  next : ∀ rpc ucbi callflag reads writes w'',
    clnttcpNbCall E exec rpc ucbi callflag { w' with reads := reads, writes := writes } = some (w'', .success) →
    recordPut (w''.log.drop w'.log.length) = callBytes rpc (registerCall ⟨w'.serial, ucbi⟩ w'.tick)

lemma Act.outSize {E : Env} {calls : Bool} {w w' : World} (h : Act E calls w w') :
    w'.ct.ctXdrs.outSize = w.ct.ctXdrs.outSize := by
  cases h with
  | tx h => exact (congrArg (fun ct => ct.ctXdrs.outSize) h.txOnly.ct :)
  | _ => rfl

lemma Acts.outSize {E : Env} {calls : Bool} {w w' : World} (h : Acts E calls w w') :
    w'.ct.ctXdrs.outSize = w.ct.ctXdrs.outSize := by
  induction h with
  | refl => rfl
  | tail _ hact ih => exact hact.outSize.trans ih

lemma outSize_created {ct : CtData} (hct : Created ct) : 4 ≤ ct.ctXdrs.outSize := by
  have hrec : ∀ n, 4 ≤ recOutSize n := by
    intro n
    unfold recOutSize
    split <;> omega
  cases hct <;> exact hrec _

/-- A call that fails always leaves a trace: its entry stays in the table, the buffer of the
stream is not empty, and its contents come first in the record of the next successful call. -/
theorem failed_call_leaves_trace {E : Env} {ct : CtData} (hct : Created ct) {w : World}
    (hreach : Acts E true (World.start ct) w) (hfew : (regs w.log).length < 2 ^ 32) (B : Behaviour) (n : Nat)
    {rpc : RpcProcInfo} {ucbi : CallbackInfo} {callflag : UInt64} {w' : World}
    (hcall : clnttcpNbCall E (reentrant E B n) rpc ucbi callflag w = some (w', .cantEncodeArgs)) :
    ¬NoTrace E (reentrant E B n) w w' ∧
    ghtEntries w'.ct.ctXidToUcb =
      ghtEntries w.ct.ctXidToUcb ++ [(leBytes (byteSwap (w.ct.ctXid - 1)), some ⟨w.serial, ucbi⟩)] ∧
    w'.ct.ctPendingcalls = w.ct.ctPendingcalls ∧ w'.ct.ctXdrs.outBuf ≠ [] ∧
    ∀ rpc ucbi callflag reads writes w'',
      clnttcpNbCall E (reentrant E B n) rpc ucbi callflag { w' with reads := reads, writes := writes } =
        some (w'', .success) →
      recordPut (w''.log.drop w'.log.length) =
        w'.ct.ctXdrs.outBuf ++ callBytes rpc (registerCall ⟨w'.serial, ucbi⟩ w'.tick) := by
  have hi : RegInv ct.ctXid w := hreach.regInv (regInv_start hct) hfew.le
  have hsize : 4 ≤ w.ct.ctXdrs.outSize := by
    rw [hreach.outSize]
    exact outSize_created hct
  have hsize' : 4 ≤ w'.ct.ctXdrs.outSize := by
    rw [(clnttcpNbCall_acts (reentrant_acts E B n) hcall).outSize]
    exact hsize
  rcases clnttcpNbCall_cases hcall with ⟨-, -, hstat⟩ | ⟨-, v, ok, henc, ⟨rfl, rfl, -⟩ | ⟨-, hstat, -⟩⟩
  · cases hstat
  swap
  · cases hstat
  have htx := (encodeCall_acts henc).txOnly
  obtain ⟨hi', hlive⟩ := hi.register hfew ucbi
  have htable : ghtEntries w'.ct.ctXidToUcb =
      ghtEntries w.ct.ctXidToUcb ++ [(leBytes (byteSwap (w.ct.ctXid - 1)), some ⟨w.serial, ucbi⟩)] := by
    have hsame : w'.ct.ctXidToUcb = (registerCall ⟨w.serial, ucbi⟩ w.tick).ct.ctXidToUcb :=
      (congrArg CtData.ctXidToUcb htx.ct :)
    rw [hsame, hi'.table.entries_eq, hlive, List.map_append, hi.table.entries_eq, hi.xid, callXid_succ]
    rfl
  refine ⟨?_, htable, (congrArg CtData.ctPendingcalls htx.ct :),
    (encodeCall_streamed (by rwa [registerCall_xdrs]) henc).1 rfl, ?_⟩
  · intro hno
    have heq := hno.table
    rw [htable] at heq
    simp at heq
  · intro rpc ucbi callflag reads writes w'' hnext
    exact clnttcpNbCall_record (w := { w' with reads := reads, writes := writes }) (reentrant_acts E B n) hsize' hnext

/-- Arguments that are refused. -/
theorem failed_call_leaves_trace_refused :
    ∃ w', clnttcpNbCall replyEnv (reentrant replyEnv (fun _ _ _ => .done) 1) ⟨1, .refused⟩ ⟨some 1, 1⟩ 7
        (World.start authnoneHandle) = some (w', .cantEncodeArgs) ∧
      ¬NoTrace replyEnv (reentrant replyEnv (fun _ _ _ => .done) 1) (World.start authnoneHandle) w' := by
  have hrun : (clnttcpNbCall replyEnv (reentrant replyEnv (fun _ _ _ => .done) 1) ⟨1, .refused⟩ ⟨some 1, 1⟩ 7
      (World.start authnoneHandle)).map Prod.snd = some .cantEncodeArgs := by rfl
  obtain ⟨⟨w', stat⟩, hcall, rfl⟩ := Option.map_eq_some_iff.mp hrun
  exact ⟨w', hcall, (failed_call_leaves_trace authnoneHandle_created .refl (by decide) _ 1 hcall).1⟩

/-- The record of the call after it has the 40 bytes of the failed call and then its own 40. -/
theorem refused_call_pollutes_next :
    ∃ w', clnttcpNbCall replyEnv noReentry ⟨1, .refused⟩ ⟨some 1, 1⟩ 7 (World.start authnoneHandle) =
        some (w', .cantEncodeArgs) ∧
      ghtEntries w'.ct.ctXidToUcb = [([0xf, 0xff, 0xff, 0xff], some ⟨0, ⟨some 1, 1⟩⟩)] ∧
      w'.ct.ctXdrs.outBuf = callBytes ⟨1, .refused⟩ w' ∧
      (clnttcpNbCall replyEnv noReentry ⟨1, .done⟩ ⟨some 1, 2⟩ 7 { w' with writes := [.eagain] }).map
        (fun r => (r.2, (recordPut (r.1.log.drop w'.log.length)).length, (callBytes ⟨1, .done⟩ r.1).length)) =
          some (.success, 80, 40) := by
  have hrun : (clnttcpNbCall replyEnv noReentry ⟨1, .refused⟩ ⟨some 1, 1⟩ 7 (World.start authnoneHandle)).map
      (fun r => decide (r.2 = .cantEncodeArgs ∧
        ghtEntries r.1.ct.ctXidToUcb = [([0xf, 0xff, 0xff, 0xff], some ⟨0, ⟨some 1, 1⟩⟩)] ∧
        r.1.ct.ctXdrs.outBuf = callBytes ⟨1, .refused⟩ r.1 ∧
        (clnttcpNbCall replyEnv noReentry ⟨1, .done⟩ ⟨some 1, 2⟩ 7 { r.1 with writes := [.eagain] }).map
          (fun s => (s.2, (recordPut (s.1.log.drop r.1.log.length)).length, (callBytes ⟨1, .done⟩ s.1).length)) =
            some (.success, 80, 40))) = some true := by rfl
  obtain ⟨⟨w', stat⟩, hcall, hdec⟩ := Option.map_eq_some_iff.mp hrun
  obtain ⟨rfl, hrest⟩ := of_decide_eq_true hdec
  exact ⟨w', hcall, hrest⟩

end UnfsClient.Proofs
