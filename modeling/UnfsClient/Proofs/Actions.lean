import UnfsClient.RpcCall

/-!
# The actions of a handle

Whatever an API call does to a handle is a sequence of the actions `Act`, those of the
transmission path being `TxAct`. An invariant of all runs is proved by going once through
these actions.
-/

namespace UnfsClient.Proofs

open Lib Relation

def appendSndlist (w : World) (buf : Bytes) : World :=
  setSndlist w (w.ct.ctSndlist ++ [⟨⟨w.serial, buf⟩, 0, buf.length⟩])

/-- The part of a buffer that is left when `n` more of its bytes are sent. -/
def advanceBuffer (buf : FragBuffer) (n : Nat) : FragBuffer :=
  { buf with fbCurrent := buf.fbCurrent + n, fbLen := buf.fbLen - n }

inductive TxAct (E : Env) : World → World → Prop where
  | out (w : World) (b : Bytes) : TxAct E w (setOut w b)
  | fragSent (w : World) (b : Bool) : TxAct E w (setFragSent w b)
  | writes (w : World) (ws : List WriteResult) : TxAct E w { w with writes := ws }
  | queue {w : World} {buf : Bytes} (h : E.memAlloc w.serial (sizeofFragBuffer + (1 + buf.length)) = true) :
      TxAct E w (appendSndlist (w.note (.queued buf)) buf).tick
  | queueFails {w : World} {buf : Bytes} (h : E.memAlloc w.serial (sizeofFragBuffer + (1 + buf.length)) = false) :
      TxAct E w (w.note (.queued buf)).tick
  | sendPart {w : World} {buf : FragBuffer} {rest : List FragBuffer} {n : Nat}
      (hs : w.ct.ctSndlist = buf :: rest) (hn : (n : Int) < buf.fbLen) :
      TxAct E w (setSndlist (acceptBytes w buf n) (advanceBuffer buf n :: rest))
  | sendAll {w : World} {buf : FragBuffer} {rest : List FragBuffer} {n : Nat}
      (hs : w.ct.ctSndlist = buf :: rest) (hn : (n : Int) = buf.fbLen) :
      TxAct E w (setSndlist (acceptBytes w buf n) rest)

def countReceived (w : World) (rpcMsg : Bytes) : World :=
  { w with ct := { w.ct with ctDatarx := (w.ct.ctDatarx + rpcMsg.length) % 2 ^ 64 } }

def dropEntry (w : World) (t : GhtHashTable Cbi) (cbi : Cbi) : World :=
  { w with ct := { w.ct with ctXidToUcb := t } }.note (.taken cbi)

def setPending (w : World) (n : Int) : World := { w with ct := { w.ct with ctPendingcalls := n } }

def ofParser : Event → Bool
  | .marker | .stored _ | .record _ _ | .collated _ _ => true
  | _ => false

/-- `msg` has just been collated, and it decodes to the reply `xid`, `body`. -/
def Decoded (E : Env) (w : World) (msg : Bytes) (xid : UInt64) (body : Bytes) : Prop :=
  (∃ overrun, w.log.getLast? = some (.collated msg overrun)) ∧ E.xdrReplymsg msg = some (xid, body)

def ofTransmit : Event → Bool
  | .queued _ | .sent _ => true
  | _ => false

/-- Since the registration of `cbi` under the current xid there has only been transmission. -/
def JustRegistered (w : World) (cbi : Cbi) : Prop :=
  ∃ pre res es, w.log = pre ++ .registered cbi (byteSwap w.ct.ctXid) res :: es ∧ ∀ e ∈ es, ofTransmit e = true

/-- An action of the handle; those of `clnttcp_nb_call` and of runs only where `calls` allows. -/
inductive Act (E : Env) (calls : Bool) : World → World → Prop where
  | tx {w w' : World} (h : TxAct E w w') : Act E calls w w'
  | setRs (w : World) (rs : RpcRecordState) : Act E calls w (w.setRs rs)
  | tick (w : World) : Act E calls w w.tick
  | parsed {w : World} {e : Event} (h : ofParser e = true) : Act E calls w (w.note e)
  | read {w : World} {r : ReadResult} {rs : List ReadResult} (h : w.reads = r :: rs) :
      Act E calls w ({ w with reads := rs }.note (.read w.depth r))
  | load (w : World) (b : Bytes) : Act E calls w (w.loadReadbuf b)
  | unknown {w : World} {msg : Bytes} {xid : UInt64} {body : Bytes} (hdec : Decoded E w msg xid body)
      (htake : (takeCallback w.ct.ctXidToUcb xid).2 = none) : Act E calls w (countReceived w msg)
  | take {w : World} {msg : Bytes} {xid : UInt64} {body : Bytes} {t : GhtHashTable Cbi} {cbi : Cbi}
      (hdec : Decoded E w msg xid body) (htake : takeCallback w.ct.ctXidToUcb xid = (t, some cbi))
      (hcb : cbi.info.callback = none) : Act E calls w (dropEntry (countReceived w msg) t cbi)
  | deliver {w : World} {msg : Bytes} {xid : UInt64} {body : Bytes} {t : GhtHashTable Cbi} {cbi : Cbi}
      (hdec : Decoded E w msg xid body) (htake : takeCallback w.ct.ctXidToUcb xid = (t, some cbi))
      (hcb : cbi.info.callback ≠ none) :
      Act E calls w ((dropEntry (countReceived w msg) t cbi).note (.ran cbi xid body))
  | register (h : calls = true) (w : World) (ucbi : CallbackInfo) : Act E calls w (registerCall ⟨w.serial, ucbi⟩ w.tick)
  | issue (h : calls = true) {w : World} {cbi : Cbi} {rpc : RpcProcInfo} (hreg : JustRegistered w cbi) :
      Act E calls w ((setPending w (cInt (w.ct.ctPendingcalls + 1))).note (.issued cbi (byteSwap w.ct.ctXid) rpc))
  | settle (w : World) (calledBack : Int) :
      Act E calls w (setPending w (cInt (w.ct.ctPendingcalls - calledBack)))
  | depth (h : calls = true) (w : World) (d : Nat) : Act E calls w { w with depth := d }
  | enter (h : calls = true) (w : World) (reads : List ReadResult) (writes : List WriteResult) :
      Act E calls w { w with reads := reads, writes := writes }

abbrev TxActs (E : Env) : World → World → Prop := ReflTransGen (TxAct E)

abbrev Acts (E : Env) (calls : Bool) : World → World → Prop := ReflTransGen (Act E calls)

lemma TxActs.acts {E : Env} {calls : Bool} {w w' : World} (h : TxActs E w w') : Acts E calls w w' :=
  ReflTransGen.mono (fun _ _ h => Act.tx h) _ _ h

lemma Act.log_grows {E : Env} {calls : Bool} {w w' : World} (h : Act E calls w w') : w.log <+: w'.log := by
  cases h with
  | tx h =>
    cases h <;> first | exact List.prefix_refl _ | exact List.prefix_append _ _
  | deliver hdec htake hcb =>
    simp [dropEntry, countReceived]
  | _ => first | exact List.prefix_refl _ | exact List.prefix_append _ _

/-- The log only grows. -/
lemma Acts.log_grows {E : Env} {calls : Bool} {w w' : World} (h : Acts E calls w w') : w.log <+: w'.log := by
  induction h with
  | refl => exact List.prefix_refl _
  | tail _ hact ih => exact ih.trans hact.log_grows

/-- A handle without its transmission state. -/
def withoutTx (ct : CtData) : CtData :=
  { ct with ctXdrs := ⟨[], ct.ctXdrs.outSize, false⟩, ctSndlist := [], ctDatatx := 0 }

/-- Only the transmission side of the handle differs. -/
structure TxOnly (w w' : World) : Prop where
  ct : withoutTx w'.ct = withoutTx w.ct
  reads : w'.reads = w.reads
  depth : w'.depth = w.depth
  serial : w.serial ≤ w'.serial
  log : ∃ es, w'.log = w.log ++ es ∧ ∀ e ∈ es, ofTransmit e = true

lemma TxOnly.trans {w w₁ w' : World} (h : TxOnly w w₁) (t : TxOnly w₁ w') : TxOnly w w' := by
  refine ⟨t.ct.trans h.ct, t.reads.trans h.reads, t.depth.trans h.depth, h.serial.trans t.serial, ?_⟩
  obtain ⟨es, hes, htx⟩ := h.log
  obtain ⟨es', hes', htx'⟩ := t.log
  refine ⟨es ++ es', by rw [hes', hes, List.append_assoc], ?_⟩
  intro e he
  rcases List.mem_append.mp he with he | he
  · exact htx e he
  · exact htx' e he

lemma TxAct.txOnly {E : Env} {w w' : World} (h : TxAct E w w') : TxOnly w w' := by
  have hsame : ∃ es, w.log = w.log ++ es ∧ ∀ e ∈ es, ofTransmit e = true := ⟨[], by simp⟩
  have hone : ∀ e, ofTransmit e = true → ∃ es, w.log ++ [e] = w.log ++ es ∧ ∀ e ∈ es, ofTransmit e = true :=
    fun e he => ⟨[e], rfl, by simpa using he⟩
  cases h with
  | out b => exact ⟨rfl, rfl, rfl, le_refl _, hsame⟩
  | fragSent b => exact ⟨rfl, rfl, rfl, le_refl _, hsame⟩
  | writes ws => exact ⟨rfl, rfl, rfl, le_refl _, hsame⟩
  | queue hm => exact ⟨rfl, rfl, rfl, Nat.le_succ _, hone _ rfl⟩
  | queueFails hm => exact ⟨rfl, rfl, rfl, Nat.le_succ _, hone _ rfl⟩
  | sendPart hs hn => exact ⟨rfl, rfl, rfl, le_refl _, hone _ rfl⟩
  | sendAll hs hn => exact ⟨rfl, rfl, rfl, le_refl _, hone _ rfl⟩

lemma TxActs.txOnly {E : Env} {w w' : World} (h : TxActs E w w') : TxOnly w w' := by
  induction h with
  | refl => exact ⟨rfl, rfl, rfl, le_refl _, [], by simp⟩
  | tail _ hact ih => exact ih.trans hact.txOnly

lemma Act.serial_le {E : Env} {calls : Bool} {w w' : World} (h : Act E calls w w') : w.serial ≤ w'.serial := by
  cases h with
  | tx h => exact h.txOnly.serial
  | tick => exact Nat.le_succ _
  | register hcalls ucbi => exact Nat.le_succ _
  | _ => exact le_refl _

lemma Acts.serial_le {E : Env} {calls : Bool} {w w' : World} (h : Acts E calls w w') : w.serial ≤ w'.serial := by
  induction h with
  | refl => exact le_refl _
  | tail _ hact ih => exact ih.trans hact.serial_le

/-- Callbacks that act on the handle by actions. -/
def ActsOnly (E : Env) (calls : Bool) (exec : Exec) : Prop :=
  ∀ {cbi body w w'}, exec cbi body w = some w' → Acts E calls w w'

lemma actsOnly_noReentry (E : Env) (calls : Bool) : ActsOnly E calls noReentry := by
  intro cbi body w w' h
  cases h
  exact .refl

/-! ## Transmission -/

/-- A `write` of which the socket takes some bytes. -/
inductive Sending : World → World → Prop where
  | part {w : World} {buf : FragBuffer} {rest : List FragBuffer} {n : Nat}
      (hs : w.ct.ctSndlist = buf :: rest) (hn : (n : Int) < buf.fbLen) :
      Sending w (setSndlist (acceptBytes w buf n) (advanceBuffer buf n :: rest))
  | all {w : World} {buf : FragBuffer} {rest : List FragBuffer} {n : Nat}
      (hs : w.ct.ctSndlist = buf :: rest) (hn : (n : Int) = buf.fbLen) :
      Sending w (setSndlist (acceptBytes w buf n) rest)

/-- A pass over the list sends, and a blocking one does not return 0 before the list is empty. -/
lemma sendBuffersLoop_sends {flag : UInt32} {ws : List WriteResult} {w w' : World} {res : Int}
    (h : sendBuffersLoop flag ws w = some (w', res)) :
    ∃ v ws', ReflTransGen Sending w v ∧ w' = { v with writes := ws' } ∧
      (isBlocking flag = true → res = 0 → v.ct.ctSndlist = []) := by
  induction ws generalizing w with
  | nil =>
    unfold sendBuffersLoop at h
    split at h
    · rename_i hs
      cases h
      exact ⟨w, [], .refl, rfl, fun _ _ => hs⟩
    · cases h
  | cons r ws ih =>
    unfold sendBuffersLoop at h
    split at h
    · rename_i hs
      cases h
      exact ⟨w, r :: ws, .refl, rfl, fun _ _ => hs⟩
    · rename_i buf rest hs
      cases r with
      | error =>
        cases h
        exact ⟨w, ws, .refl, rfl, nofun⟩
      | eagain =>
        dsimp only at h
        split at h
        · exact ih h
        · rename_i hblock
          cases h
          exact ⟨w, ws, .refl, rfl, fun h => absurd h hblock⟩
      | wrote n =>
        dsimp only at h
        split at h
        · cases h
        · split at h
          · have hpart := Sending.part hs (by assumption)
            split at h
            · obtain ⟨v, ws', hsend, hrest⟩ := ih h
              exact ⟨v, ws', .head hpart hsend, hrest⟩
            · rename_i hblock
              cases h
              exact ⟨_, ws, .single hpart, rfl, fun h => absurd h hblock⟩
          · obtain ⟨v, ws', hsend, hrest⟩ := ih h
            exact ⟨v, ws', .head (.all hs (by omega)) hsend, hrest⟩

lemma sendBuffersLoop_acts (E : Env) (flag : UInt32) (ws : List WriteResult) {w w' : World} {res : Int}
    (h : sendBuffersLoop flag ws w = some (w', res)) : TxActs E w w' := by
  obtain ⟨v, ws', hsend, rfl, -⟩ := sendBuffersLoop_sends h
  refine .tail (ReflTransGen.mono ?_ _ _ hsend) (.writes v ws')
  intro a b hab
  cases hab with
  | part hs hn => exact .sendPart hs hn
  | all hs hn => exact .sendAll hs hn

lemma sendBuffers_acts (E : Env) {flag : UInt32} {w w' : World} {res : Int}
    (h : sendBuffers flag w = some (w', res)) : TxActs E w w' :=
  sendBuffersLoop_acts E flag w.writes h

lemma writetcpNb_fails {E : Env} {buf : Bytes} {w : World}
    (hm : E.memAlloc w.serial (sizeofFragBuffer + (1 + buf.length)) = false) :
    writetcpNb E buf w = some ((w.note (.queued buf)).tick, -1) := by
  simp only [writetcpNb, addBufferListCopy, World.alloc, World.note_serial, hm, Bool.false_eq_true, if_false]
  rw [if_pos (by decide)]

lemma addBufferListCopy_ok {E : Env} {buf : Bytes} {w : World}
    (hm : E.memAlloc w.serial (sizeofFragBuffer + (1 + buf.length)) = true) :
    addBufferListCopy E w buf = ((appendSndlist w buf).tick, 0) := by
  simp only [addBufferListCopy, World.alloc, hm, if_true]
  rfl

lemma writetcpNb_ok {E : Env} {buf : Bytes} {w : World}
    (hm : E.memAlloc w.serial (sizeofFragBuffer + (1 + buf.length)) = true) :
    writetcpNb E buf w =
      (sendBuffers rpcNonblockWait (appendSndlist (w.note (.queued buf)) buf).tick).map
        fun r => (r.1, if r.2 = 0 then (buf.length : Int) else -1) := by
  have hcopy := addBufferListCopy_ok (w := w.note (.queued buf)) hm
  simp only [writetcpNb, hcopy]
  rw [if_neg (by decide)]
  cases sendBuffers rpcNonblockWait (appendSndlist (w.note (.queued buf)) buf).tick <;> rfl

lemma writetcpNb_acts {E : Env} {buf : Bytes} {w w' : World} {res : Int}
    (h : writetcpNb E buf w = some (w', res)) : TxActs E w w' := by
  cases hm : E.memAlloc w.serial (sizeofFragBuffer + (1 + buf.length)) with
  | false =>
    rw [writetcpNb_fails hm] at h
    cases h
    exact .single (.queueFails hm)
  | true =>
    rw [writetcpNb_ok hm, Option.map_eq_some_iff] at h
    obtain ⟨r, hsend, hr⟩ := h
    cases hr
    exact .head (.queue hm) (sendBuffers_acts E hsend)

/-- A flush either keeps the buffer or, when `writetcp_nb` takes all of it, empties it. -/
lemma flushOut_cases {E : Env} {eor ok : Bool} {w w' : World} (h : flushOut E eor w = some (w', ok)) :
    ∃ v res, writetcpNb E (outFragment eor w.ct.ctXdrs.outBuf) w = some (v, res) ∧
      ((ok = false ∧ w' = v) ∨ (ok = true ∧ w' = setOut v [])) := by
  unfold flushOut at h
  dsimp only at h
  cases hw : writetcpNb E (outFragment eor w.ct.ctXdrs.outBuf) w with
  | none => rw [hw] at h; cases h
  | some r =>
    obtain ⟨v, res⟩ := r
    rw [hw] at h
    refine ⟨v, res, rfl, ?_⟩
    by_cases hres : res ≠ (outFragment eor w.ct.ctXdrs.outBuf).length
    · simp only [if_pos hres, Option.some.injEq, Prod.mk.injEq] at h
      exact Or.inl ⟨h.2.symm, h.1.symm⟩
    · simp only [if_neg hres, Option.some.injEq, Prod.mk.injEq] at h
      exact Or.inr ⟨h.2.symm, h.1.symm⟩

lemma flushOut_acts {E : Env} {eor ok : Bool} {w w' : World} (h : flushOut E eor w = some (w', ok)) :
    TxActs E w w' := by
  obtain ⟨v, res, hw, ⟨-, rfl⟩ | ⟨-, rfl⟩⟩ := flushOut_cases h
  · exact writetcpNb_acts hw
  · exact (writetcpNb_acts hw).tail (.out v [])

lemma xdrrecPutbytes_acts {E : Env} {bs : Bytes} {ok : Bool} {w w' : World}
    (h : xdrrecPutbytes E bs w = some (w', ok)) : TxActs E w w' := by
  induction bs generalizing w with
  | nil =>
    cases h
    exact .refl
  | cons b bs ih =>
    unfold xdrrecPutbytes at h
    split at h
    · exact .head (.out w _) (ih h)
    · split at h
      · cases h
      · rename_i v hflush
        cases h
        exact .head (.fragSent w true) (flushOut_acts hflush)
      · rename_i v hflush
        exact .head (.fragSent w true) ((flushOut_acts hflush).trans (.head (.out v _) (ih h)))

lemma xdrrecPutlong_acts {E : Env} {word : UInt32} {ok : Bool} {w w' : World}
    (h : xdrrecPutlong E word w = some (w', ok)) : TxActs E w w' := by
  unfold xdrrecPutlong at h
  split at h
  · cases h
    exact .single (.out w _)
  · split at h
    · cases h
    · rename_i v hflush
      cases h
      exact .head (.fragSent w true) (flushOut_acts hflush)
    · rename_i v hflush
      cases h
      exact .head (.fragSent w true) ((flushOut_acts hflush).tail (.out v _))

lemma xdrrecEndofrecord_acts {E : Env} {ok : Bool} {w w' : World}
    (h : xdrrecEndofrecord E w = some (w', ok)) : TxActs E w w' :=
  .head (.fragSent w false) (flushOut_acts h)

lemma xdrrecPuts_acts {E : Env} {ps : List Put} {ok : Bool} {w w' : World}
    (h : xdrrecPuts E ps w = some (w', ok)) : TxActs E w w' := by
  have hput : ∀ {p : Put} {ok : Bool} {w w' : World}, xdrrecPut E p w = some (w', ok) → TxActs E w w' := by
    intro p ok w w' h
    cases p with
    | long word => exact xdrrecPutlong_acts h
    | bytes b => exact xdrrecPutbytes_acts h
  induction ps generalizing w with
  | nil =>
    cases h
    exact .refl
  | cons p ps ih =>
    unfold xdrrecPuts at h
    split at h
    · cases h
    · rename_i v hp
      cases h
      exact hput hp
    · rename_i v hp
      exact (hput hp).trans (ih h)

lemma xdrrecEncode_acts {E : Env} {e : Encoding} {ok : Bool} {w w' : World}
    (h : xdrrecEncode E e w = some (w', ok)) : TxActs E w w' := by
  unfold xdrrecEncode at h
  split at h
  · cases h
  · rename_i v sent hp
    cases h
    exact xdrrecPuts_acts hp

lemma encodeCall_acts {E : Env} {rpc : RpcProcInfo} {ok : Bool} {w w' : World}
    (h : encodeCall E rpc w = some (w', ok)) : TxActs E w w' := by
  unfold encodeCall at h
  split at h
  · cases h
  · rename_i v h₁
    cases h
    exact xdrrecPutbytes_acts h₁
  rename_i v₁ h₁
  refine (xdrrecPutbytes_acts h₁).trans ?_
  split at h
  · cases h
  · rename_i v h₂
    cases h
    exact xdrrecPutlong_acts h₂
  rename_i v₂ h₂
  refine (xdrrecPutlong_acts h₂).trans ?_
  split at h
  · cases h
  · rename_i v h₃
    cases h
    exact xdrrecEncode_acts h₃
  rename_i v₃ h₃
  refine (xdrrecEncode_acts h₃).trans ?_
  split at h
  · cases h
  · rename_i v h₄
    cases h
    exact xdrrecEncode_acts h₄
  · rename_i v₄ h₄
    exact (xdrrecEncode_acts h₄).trans (xdrrecEndofrecord_acts h)

/-! ## Reception -/

/-- Everything `call_user_cb` can do with a collated record. -/
lemma dispatchReply_cases {E : Env} {exec : Exec} {msg : Bytes} {w w' : World}
    (h : dispatchReply E exec msg w = some w') :
    (E.xdrReplymsg msg = none ∧ w' = w) ∨
    ∃ xid body, E.xdrReplymsg msg = some (xid, body) ∧
      (((takeCallback w.ct.ctXidToUcb xid).2 = none ∧ w' = countReceived w msg) ∨
      ∃ t cbi, takeCallback w.ct.ctXidToUcb xid = (t, some cbi) ∧
        ((cbi.info.callback = none ∧ w' = dropEntry (countReceived w msg) t cbi) ∨
        (cbi.info.callback ≠ none ∧
          exec cbi body ((dropEntry (countReceived w msg) t cbi).note (.ran cbi xid body)) = some w'))) := by
  unfold dispatchReply at h
  cases hdec : E.xdrReplymsg msg with
  | none =>
    rw [hdec] at h
    exact Or.inl ⟨rfl, (Option.some.inj h).symm⟩
  | some r =>
    obtain ⟨xid, body⟩ := r
    rw [hdec] at h
    refine Or.inr ⟨xid, body, rfl, ?_⟩
    dsimp only at h
    cases htake : takeCallback w.ct.ctXidToUcb xid with
    | mk t found =>
      rw [htake] at h
      cases found with
      | none => exact Or.inl ⟨rfl, (Option.some.inj h).symm⟩
      | some cbi =>
        refine Or.inr ⟨t, cbi, rfl, ?_⟩
        dsimp only at h
        cases hcb : cbi.info.callback with
        | none =>
          rw [hcb] at h
          exact Or.inl ⟨rfl, (Option.some.inj h).symm⟩
        | some f =>
          rw [hcb] at h
          exact Or.inr ⟨by simp, h⟩

section

variable {E : Env} {calls : Bool} {exec : Exec} (hexec : ActsOnly E calls exec)

include hexec

lemma dispatchReply_acts {msg : Bytes} {w w' : World} {overrun : Nat}
    (hlog : w.log.getLast? = some (.collated msg overrun)) (h : dispatchReply E exec msg w = some w') :
    Acts E calls w w' := by
  rcases dispatchReply_cases h with ⟨-, rfl⟩ | ⟨xid, body, hdec, ⟨htake, rfl⟩ | ⟨t, cbi, htake, ⟨hcb, rfl⟩ |
    ⟨hcb, hrun⟩⟩⟩
  · exact .refl
  · exact .single (.unknown ⟨⟨overrun, hlog⟩, hdec⟩ htake)
  · exact .single (.take ⟨⟨overrun, hlog⟩, hdec⟩ htake hcb)
  · exact .head (.deliver ⟨⟨overrun, hlog⟩, hdec⟩ htake hcb) (hexec hrun)

lemma callUserCb_acts {w w' : World} (h : callUserCb E exec w = some w') : Acts E calls w w' := by
  unfold callUserCb collateBufList World.alloc at h
  refine .head (.parsed (e := .record (fragPayloads w.rs.rsFragList) w.rs.rsRecordsize) rfl) ?_
  refine .head (.tick _) ?_
  cases hm : E.memAlloc w.serial (cUlong w.rs.rsRecordsize) with
  | false =>
    simp only [World.note_serial, World.note_rs, hm, Bool.false_eq_true, if_false] at h
    cases h
    exact .refl
  | true =>
    simp only [World.note_serial, World.note_rs, hm, if_true] at h
    exact .head (.setRs _ _) (.head (.parsed rfl) (dispatchReply_acts hexec List.getLast?_concat h))

end

/-- Events of a record that is dispatched. -/
def ofDispatch : Event → Bool
  | .collated _ _ | .taken _ | .ran _ _ _ => true
  | _ => false

/-- Nothing is dispatched between `w` and `w'`. -/
def SilentLog (w w' : World) : Prop := ∃ es, w'.log = w.log ++ es ∧ ∀ e ∈ es, ofDispatch e = false

/-- An action that dispatches nothing, or a record handed to `call_user_cb`. -/
inductive Handling (E : Env) (calls : Bool) (exec : Exec) : World → World → Prop where
  | silent {w w' : World} (h : Act E calls w w') (hlog : SilentLog w w') : Handling E calls exec w w'
  | record {w w' : World} (h : callUserCb E exec w = some w') : Handling E calls exec w w'

abbrev Handled (E : Env) (calls : Bool) (exec : Exec) : World → World → Prop := ReflTransGen (Handling E calls exec)

section

variable {E : Env} {calls : Bool} {exec : Exec}

lemma Handling.same {w w' : World} (h : Act E calls w w') (hlog : w'.log = w.log) : Handling E calls exec w w' :=
  .silent h ⟨[], by rw [hlog, List.append_nil], by simp⟩

lemma Handling.noted {w w' : World} {e : Event} (h : Act E calls w w') (hlog : w'.log = w.log ++ [e])
    (he : ofDispatch e = false) : Handling E calls exec w w' :=
  .silent h ⟨[e], hlog, by simpa using he⟩

lemma Handling.setRs (w : World) (rs : RpcRecordState) : Handling E calls exec w (w.setRs rs) :=
  .same (.setRs w rs) rfl

lemma Handling.tick (w : World) : Handling E calls exec w w.tick := .same (.tick w) rfl

lemma Handling.parsed {w : World} {e : Event} (h : ofParser e = true) (he : ofDispatch e = false) :
    Handling E calls exec w (w.note e) :=
  .noted (.parsed h) rfl he

lemma TxActs.handled {w w' : World} (h : TxActs E w w') : Handled E calls exec w w' := by
  refine ReflTransGen.mono (fun v v' hact => ?_) _ _ h
  obtain ⟨es, hes, htx⟩ := hact.txOnly.log
  refine .silent (.tx hact) ⟨es, hes, fun e he => ?_⟩
  have := htx e he
  cases e <;> first | rfl | cases this

lemma Handled.acts (hexec : ActsOnly E calls exec) {w w' : World} (h : Handled E calls exec w w') :
    Acts E calls w w' := by
  induction h with
  | refl => exact .refl
  | tail _ hstep ih =>
    cases hstep with
    | silent hact hlog => exact ih.tail hact
    | record hcb => exact ih.trans (callUserCb_acts hexec hcb)

lemma updateRecordState_handled {w w' : World} {called : Int} (h : updateRecordState E exec w = some (w', called)) :
    Handled E calls exec w w' := by
  have hadd : Handled E calls exec w (addFragment E w) := by
    unfold addFragment World.alloc
    split
    · exact .refl
    · cases E.memAlloc w.serial sizeofFragBuffer
      · exact .single (.tick w)
      · exact .head (.tick w) (.single (.setRs _ _))
  unfold updateRecordState at h
  dsimp only at h
  split at h
  · split at h
    · cases h
    · rename_i v hcb
      cases h
      exact hadd.trans (.head (.setRs _ _) (.head (.record hcb) (.single (.setRs _ _))))
  · cases h
    exact hadd.trans (.head (.setRs _ _) (.single (.setRs _ _)))

variable (E calls exec) in
lemma copyPayload_handled (w : World) (c z : Int) : Handled E calls exec w (copyPayload w c z).1 := by
  unfold copyPayload
  dsimp only
  split
  · exact .head (.setRs _ _) (.single (.parsed rfl rfl))
  · exact .refl

variable (E calls exec) in
lemma startNext_handled (w : World) (z c : Int) : Handled E calls exec w (startNext E z w c).1 := by
  have hcollect : Handled E calls exec w (collectMarker w c (z - c)).1 := by
    unfold collectMarker
    dsimp only
    split
    · split
      · exact .head (.setRs _ _) (.single (.parsed rfl rfl))
      · exact .single (.setRs _ _)
    · exact .refl
  unfold startNext updateNewFragState World.alloc
  dsimp only
  split
  · split
    · exact hcollect
    · cases E.memAlloc (collectMarker w c (z - c)).1.serial
        (fragSize (fraghdrWord (collectMarker w c (z - c)).1.rs.rsFraghdr)).toNat
      · exact hcollect.trans (.head (.tick _) (.single (.setRs _ _)))
      · exact hcollect.trans (.head (.tick _) (.single (.setRs _ _)))
  · exact .refl

lemma fragPass_cases {w w' : World} {z c c' called : Int} (h : fragPass E exec z w c = some (w', c', called)) :
    ∃ v d w₁, copyPayload w c z = (v, d) ∧ closeCurrent E exec v = some (w₁, called) ∧
      startNext E z w₁ d = (w', c') := by
  unfold fragPass at h
  cases hcopy : copyPayload w c z with
  | mk v d =>
    rw [hcopy] at h
    dsimp only at h
    cases hclose : closeCurrent E exec v with
    | none => rw [hclose] at h; cases h
    | some r =>
      rw [hclose] at h
      cases h
      exact ⟨v, d, r.1, rfl, hclose, rfl⟩

lemma fragPass_handled {w w' : World} {z c c' called : Int} (h : fragPass E exec z w c = some (w', c', called)) :
    Handled E calls exec w w' := by
  obtain ⟨v, d, w₁, hcopy, hclose, hstart⟩ := fragPass_cases h
  have h₁ : Handled E calls exec w v := by
    have := copyPayload_handled E calls exec w c z
    rwa [hcopy] at this
  have h₂ : Handled E calls exec v w₁ := by
    unfold closeCurrent at hclose
    split at hclose
    · exact updateRecordState_handled hclose
    · cases hclose
      exact .refl
  have h₃ : Handled E calls exec w₁ w' := by
    have := startNext_handled E calls exec w₁ z d
    rwa [hstart] at this
  exact h₁.trans (h₂.trans h₃)

/-- The loop, pass by pass from the state it ends in. -/
lemma fragLoop_induction {z n : Int} {w' : World} {P : Nat → World → Int → Int → Prop}
    (hend : ∀ fuel c, z ≤ c → P fuel w' c n)
    (hpass : ∀ {fuel w c called v c' m}, c < z → fragPass E exec z w c = some (v, c', m) →
      fragLoop E exec z fuel v c' (called + m) = some (w', n) → P fuel v c' (called + m) →
      P (fuel + 1) w c called)
    {fuel : Nat} {w : World} {c called : Int} (h : fragLoop E exec z fuel w c called = some (w', n)) :
    P fuel w c called := by
  induction fuel generalizing w c called with
  | zero =>
    unfold fragLoop at h
    split at h
    · cases h
    · rename_i hc
      cases h
      exact hend _ c (not_lt.mp hc)
  | succ fuel ih =>
    unfold fragLoop at h
    split at h
    · rename_i hc
      dsimp only at h
      split at h
      · cases h
      · rename_i v c' m hv
        exact hpass hc hv h (ih h)
    · rename_i hc
      cases h
      exact hend _ c (not_lt.mp hc)

lemma fragLoop_handled {fuel : Nat} {w w' : World} {z c called n : Int}
    (h : fragLoop E exec z fuel w c called = some (w', n)) : Handled E calls exec w w' := by
  apply fragLoop_induction (P := fun _ w _ _ => Handled E calls exec w w') _ _ h
  · intro fuel c _
    exact .refl
  · intro fuel w c called v c' m _ hpass _ ih
    exact (fragPass_handled hpass).trans ih

lemma updateFragState_handled {w w' : World} {z n : Int} (h : updateFragState E exec z w = some (w', n)) :
    Handled E calls exec w w' := fragLoop_handled h

lemma updateFragState_acts (hexec : ActsOnly E calls exec) {w w' : World} {z n : Int}
    (h : updateFragState E exec z w = some (w', n)) : Acts E calls w w' := (updateFragState_handled h).acts hexec

end

/-- A `read` that returns: its result is the next of the environment. -/
lemma readSocket_cases {w w' : World} {r : ReadResult} (h : readSocket w = some (w', r)) :
    ∃ rs, w.reads = r :: rs ∧
      ((∃ b, r = .data b ∧ 0 < b.length ∧ (b.length : Int) ≤ w.ct.ctRbufsz ∧
        w' = ({ w with reads := rs }.note (.read w.depth r)).loadReadbuf b) ∨
      ((r = .eof ∨ r = .error) ∧ w' = { w with reads := rs }.note (.read w.depth r))) := by
  unfold readSocket at h
  split at h
  · cases h
  · rename_i r' rs hreads
    dsimp only at h
    cases r' with
    | data b =>
      dsimp only at h
      split at h
      · rename_i hb
        cases h
        exact ⟨rs, hreads, Or.inl ⟨b, rfl, hb.1, hb.2, rfl⟩⟩
      · cases h
    | eof =>
      cases h
      exact ⟨rs, hreads, Or.inr ⟨Or.inl rfl, rfl⟩⟩
    | error =>
      cases h
      exact ⟨rs, hreads, Or.inr ⟨Or.inr rfl, rfl⟩⟩

lemma readSocket_handled (E : Env) (calls : Bool) (exec : Exec) {w w' : World} {r : ReadResult}
    (h : readSocket w = some (w', r)) : Handled E calls exec w w' := by
  obtain ⟨rs, hreads, ⟨b, -, -, -, rfl⟩ | ⟨-, rfl⟩⟩ := readSocket_cases h
  · exact .head (.noted (.read hreads) rfl rfl) (.single (.same (.load _ b) rfl))
  · exact .single (.noted (.read hreads) rfl rfl)

lemma readSocket_acts (E : Env) (calls : Bool) {w w' : World} {r : ReadResult} (h : readSocket w = some (w', r)) :
    Acts E calls w w' := (readSocket_handled E calls noReentry h).acts (actsOnly_noReentry E calls)

/-- The rounds of the read loop of `rpc_cb`. -/
lemma rpcCbLoop_cases {E : Env} {exec : Exec} {flag : UInt32} {fuel : Nat} {w w' : World} {n : Int}
    (h : rpcCbLoop E exec flag (fuel + 1) w = some (w', n)) :
    ∃ v r, readSocket w = some (v, r) ∧
      (((r = .eof ∨ r = .error) ∧ w' = v ∧ n = 0) ∨
      ∃ b u m, r = .data b ∧ updateFragState E exec b.length v = some (u, m) ∧
        (((m ≠ 0 ∨ (isNonblocking u.ct.ctSockflags.toUInt32 && isNonblocking flag) = true) ∧ w' = u ∧ n = m) ∨
        (m = 0 ∧ (isNonblocking u.ct.ctSockflags.toUInt32 && isNonblocking flag) = false ∧
          rpcCbLoop E exec flag fuel u = some (w', n)))) := by
  unfold rpcCbLoop at h
  split at h
  · cases h
  · rename_i v hr
    cases h
    exact ⟨_, _, hr, Or.inl ⟨Or.inl rfl, rfl, rfl⟩⟩
  · rename_i v hr
    cases h
    exact ⟨_, _, hr, Or.inl ⟨Or.inr rfl, rfl, rfl⟩⟩
  · rename_i v b hr
    refine ⟨_, _, hr, Or.inr ?_⟩
    split at h
    · cases h
    · rename_i u m hu
      refine ⟨b, u, m, rfl, hu, ?_⟩
      split_ifs at h with hm hf
      · cases h
        exact Or.inl ⟨Or.inl hm, rfl, rfl⟩
      · cases h
        exact Or.inl ⟨Or.inr hf, rfl, rfl⟩
      · exact Or.inr ⟨not_not.mp hm, by simpa using hf, h⟩

/-- The ways `clnttcp_nb_receive` returns. -/
lemma clnttcpNbReceive_cases {E : Env} {exec : Exec} {flag : UInt32} {w w' : World} {n : Int}
    (h : clnttcpNbReceive E exec flag w = some (w', n)) :
    ∃ v, flushSndlist flag w = some v ∧
      (((v.ct.ctPendingcalls = 0 ∨ readRpcResponse flag = false) ∧ w' = v ∧ n = 0) ∨
      (v.ct.ctPendingcalls ≠ 0 ∧ readRpcResponse flag = true ∧
        ∃ u, rpcCb E exec flag v = some (u, n) ∧ w' = setPending u (cInt (u.ct.ctPendingcalls - n)))) := by
  unfold clnttcpNbReceive at h
  cases hf : flushSndlist flag w with
  | none => rw [hf] at h; cases h
  | some v =>
    rw [hf] at h
    refine ⟨v, rfl, ?_⟩
    dsimp only at h
    split_ifs at h with hp hr
    · cases h
      exact Or.inl ⟨Or.inl hp, rfl, rfl⟩
    · split at h
      · cases h
      · rename_i u m hcb
        cases h
        exact Or.inr ⟨hp, hr, u, hcb, rfl⟩
    · cases h
      exact Or.inl ⟨Or.inr (by simpa using hr), rfl, rfl⟩

lemma flushSndlist_acts (E : Env) {flag : UInt32} {w w' : World} (h : flushSndlist flag w = some w') :
    TxActs E w w' := by
  unfold flushSndlist at h
  split at h
  · rw [Option.map_eq_some_iff] at h
    obtain ⟨r, hsend, rfl⟩ := h
    exact sendBuffers_acts E hsend
  · cases h
    exact .refl

section

variable {E : Env} {calls : Bool} {exec : Exec}

lemma rpcCbLoop_handled {flag : UInt32} {fuel : Nat} {w w' : World} {n : Int}
    (h : rpcCbLoop E exec flag fuel w = some (w', n)) : Handled E calls exec w w' := by
  induction fuel generalizing w with
  | zero => cases h
  | succ fuel ih =>
    obtain ⟨v, r, hread, ⟨-, rfl, -⟩ | ⟨b, u, m, -, hupd, ⟨-, rfl, -⟩ | ⟨-, -, hrest⟩⟩⟩ := rpcCbLoop_cases h
    · exact readSocket_handled E calls exec hread
    · exact (readSocket_handled E calls exec hread).trans (updateFragState_handled hupd)
    · exact (readSocket_handled E calls exec hread).trans ((updateFragState_handled hupd).trans (ih hrest))

lemma clnttcpNbReceive_handled {flag : UInt32} {w w' : World} {n : Int}
    (h : clnttcpNbReceive E exec flag w = some (w', n)) : Handled E calls exec w w' := by
  obtain ⟨v, hflush, ⟨-, rfl, -⟩ | ⟨-, -, u, hcb, rfl⟩⟩ := clnttcpNbReceive_cases h
  · exact (flushSndlist_acts E hflush).handled
  · exact (flushSndlist_acts E hflush).handled.trans ((rpcCbLoop_handled hcb).tail (.same (.settle u n) rfl))

variable (hexec : ActsOnly E calls exec)

include hexec

lemma rpcCbLoop_acts {flag : UInt32} {fuel : Nat} {w w' : World} {n : Int}
    (h : rpcCbLoop E exec flag fuel w = some (w', n)) : Acts E calls w w' := (rpcCbLoop_handled h).acts hexec

lemma clnttcpNbReceive_acts {flag : UInt32} {w w' : World} {n : Int}
    (h : clnttcpNbReceive E exec flag w = some (w', n)) : Acts E calls w w' :=
  (clnttcpNbReceive_handled h).acts hexec

end

/-! ## Calls and runs -/

/-- The call has been encoded and is counted as outstanding. -/
def issueCall (w : World) (cbi : Cbi) (rpc : RpcProcInfo) : World :=
  (setPending w (cInt (w.ct.ctPendingcalls + 1))).note (.issued cbi (byteSwap w.ct.ctXid) rpc)

/-- The flag `clnttcp_nb_call` passes on. -/
def receiveFlag (callflag : UInt64) (w : World) : UInt32 :=
  (if callflag = rpcDefaultFlags then w.ct.ctSockflags else callflag).toUInt32

/-- The ways `clnttcp_nb_call` returns. -/
lemma clnttcpNbCall_cases {E : Env} {exec : Exec} {rpc : RpcProcInfo} {ucbi : CallbackInfo} {callflag : UInt64}
    {w w' : World} {stat : ClntStat} (h : clnttcpNbCall E exec rpc ucbi callflag w = some (w', stat)) :
    (E.memAlloc w.serial sizeofCallbackInfo = false ∧ w' = w.tick ∧ stat = .systemError) ∨
    (E.memAlloc w.serial sizeofCallbackInfo = true ∧
      ∃ v ok, encodeCall E rpc (registerCall ⟨w.serial, ucbi⟩ w.tick) = some (v, ok) ∧
        ((ok = false ∧ w' = v ∧ stat = .cantEncodeArgs) ∨
        (ok = true ∧ stat = .success ∧ ∃ n, clnttcpNbReceive E exec (receiveFlag callflag v)
          (issueCall v ⟨w.serial, ucbi⟩ rpc) = some (w', n)))) := by
  unfold clnttcpNbCall World.alloc at h
  cases hm : E.memAlloc w.serial sizeofCallbackInfo with
  | false =>
    simp only [hm, Bool.false_eq_true, if_false] at h
    cases h
    exact Or.inl ⟨rfl, rfl, rfl⟩
  | true =>
    simp only [hm, if_true] at h
    refine Or.inr ⟨rfl, ?_⟩
    split at h
    · cases h
    · rename_i v henc
      cases h
      exact ⟨_, _, henc, Or.inl ⟨rfl, rfl, rfl⟩⟩
    · rename_i v henc
      refine ⟨_, _, henc, Or.inr ⟨rfl, ?_⟩⟩
      split at h
      · cases h
      · rename_i u n hrec
        cases h
        exact ⟨rfl, n, hrec⟩

lemma encodeCall_justRegistered {E : Env} {rpc : RpcProcInfo} {cbi : Cbi} {ok : Bool} {w w' : World}
    (h : encodeCall E rpc (registerCall cbi w) = some (w', ok)) : JustRegistered w' cbi := by
  have htx := (encodeCall_acts h).txOnly
  obtain ⟨es, hes, htr⟩ := htx.log
  have hxid : w'.ct.ctXid = w.ct.ctXid - 1 := (congrArg CtData.ctXid htx.ct :)
  refine ⟨w.log, (ghtInsert w.ct.ctXidToUcb cbi (leBytes (byteSwap (w.ct.ctXid - 1)))).2, es, ?_, htr⟩
  rw [hes, hxid]
  exact List.append_assoc _ _ _

lemma issueCall_acts {E : Env} {rpc : RpcProcInfo} {ucbi : CallbackInfo} {ok : Bool} {w v : World}
    (henc : encodeCall E rpc (registerCall ⟨w.serial, ucbi⟩ w.tick) = some (v, ok)) :
    Acts E true w (issueCall v ⟨w.serial, ucbi⟩ rpc) :=
  .head (.register rfl w ucbi) ((encodeCall_acts henc).acts.tail (.issue rfl (encodeCall_justRegistered henc)))

section

variable {E : Env} {exec : Exec} (hexec : ActsOnly E true exec)

include hexec

lemma clnttcpNbCall_acts {rpc : RpcProcInfo} {ucbi : CallbackInfo} {callflag : UInt64} {w w' : World}
    {stat : ClntStat} (h : clnttcpNbCall E exec rpc ucbi callflag w = some (w', stat)) : Acts E true w w' := by
  rcases clnttcpNbCall_cases h with ⟨-, rfl, -⟩ | ⟨-, v, ok, henc, ⟨-, rfl, -⟩ | ⟨-, -, n, hrec⟩⟩
  · exact .single (.tick w)
  · exact .head (.register rfl w ucbi) (encodeCall_acts henc).acts
  · exact (issueCall_acts henc).trans (clnttcpNbReceive_acts hexec hrec)

lemma runScript_acts {s : Script} {w w' : World} (h : runScript E exec s w = some w') : Acts E true w w' := by
  induction s generalizing w with
  | done =>
    cases h
    exact .refl
  | call rpc ucbi callflag k ih =>
    unfold runScript at h
    split at h
    · cases h
    · rename_i v stat hcall
      exact (clnttcpNbCall_acts hexec hcall).trans (ih stat h)
  | receive flag k ih =>
    unfold runScript at h
    split at h
    · cases h
    · rename_i v n hrec
      exact (clnttcpNbReceive_acts hexec hrec).trans (ih n h)

end

lemma reentrant_acts (E : Env) (B : Behaviour) (n : Nat) : ActsOnly E true (reentrant E B n) := by
  induction n with
  | zero =>
    intro cbi body w w' h
    cases h
  | succ n ih =>
    intro cbi body w w' h
    unfold reentrant at h
    split at h
    · cases h
    · rename_i v hrun
      cases h
      exact .head (.depth rfl w _) ((runScript_acts ih hrun).tail (.depth rfl v _))

lemma runOps_acts {E : Env} {exec : Exec} (hexec : ActsOnly E true exec) {ops : List Op} {w w' : World}
    (h : runOps E exec ops w = some w') : Acts E true w w' := by
  induction ops generalizing w with
  | nil =>
    cases h
    exact .refl
  | cons op ops ih =>
    unfold runOps at h
    split at h
    · cases h
    · rename_i v hop
      refine ReflTransGen.trans ?_ (ih h)
      cases op with
      | call rpc ucbi callflag reads writes =>
        simp only [Op.run, Option.map_eq_some_iff] at hop
        obtain ⟨r, hcall, rfl⟩ := hop
        exact .head (.enter rfl w reads writes) (clnttcpNbCall_acts hexec hcall)
      | receive flag reads writes =>
        simp only [Op.run, Option.map_eq_some_iff] at hop
        obtain ⟨r, hrec, rfl⟩ := hop
        exact .head (.enter rfl w reads writes) (clnttcpNbReceive_acts hexec hrec)

end UnfsClient.Proofs
