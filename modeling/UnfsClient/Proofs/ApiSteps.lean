import UnfsClient.Proofs.FailedCall

/-!
# The steps of the API

Seen from the two byte streams, a run of the API is a sequence of four kinds of steps: a record
that came in is collated, a call is put on the output stream as a whole, a call is given up on the
way, and everything else. What callbacks do is such a sequence again, so an invariant of a run
needs one case for each kind. Without calls nothing is put on the output stream, so what goes
through it in runs of `writetcp_nb` and `clnttcp_nb_receive` are the buffers passed.
-/

namespace UnfsClient.Proofs

open Lib Relation

/-- Events that put nothing on the output stream, belong to no new call and are not about a record. -/
def offStream : Event → Bool
  | .queued _ | .registered _ _ _ | .issued _ _ _ | .record _ _ | .collated _ _ => false
  | _ => true

/-- Nothing is put on the output stream between `w` and `w'`, no call is made and no record completed. -/
structure StreamKept (w w' : World) : Prop where
  xdrs : w'.ct.ctXdrs = w.ct.ctXdrs
  auth : w'.ct.clAuth = w.ct.clAuth
  header : w'.ct.ctMcallRest = w.ct.ctMcallRest
  log : ∃ es, w'.log = w.log ++ es ∧ ∀ e ∈ es, offStream e = true

lemma streamKept_refl (w : World) : StreamKept w w := ⟨rfl, rfl, rfl, [], (List.append_nil _).symm, by simp⟩

lemma StreamKept.trans {w v w' : World} (h : StreamKept w v) (t : StreamKept v w') : StreamKept w w' := by
  obtain ⟨es, hes, hoff⟩ := h.log
  obtain ⟨es', hes', hoff'⟩ := t.log
  refine ⟨t.xdrs.trans h.xdrs, t.auth.trans h.auth, t.header.trans h.header, es ++ es', ?_, ?_⟩
  · rw [hes', hes, List.append_assoc]
  · intro e he
    rcases List.mem_append.mp he with he | he
    · exact hoff e he
    · exact hoff' e he

lemma streamKept_setRs (w : World) (rs : RpcRecordState) : StreamKept w (w.setRs rs) :=
  ⟨rfl, rfl, rfl, [], (List.append_nil _).symm, by simp⟩

lemma streamKept_tick (w : World) : StreamKept w w.tick := ⟨rfl, rfl, rfl, [], (List.append_nil _).symm, by simp⟩

lemma streamKept_note (w : World) {e : Event} (he : offStream e = true) : StreamKept w (w.note e) :=
  ⟨rfl, rfl, rfl, [e], rfl, by simpa using he⟩

lemma flushSndlist_kept {flag : UInt32} {w w' : World} (h : flushSndlist flag w = some w') : StreamKept w w' := by
  have htx := (flushSndlist_acts replyEnv h).txOnly
  have hstream : w'.ct.ctXdrs = w.ct.ctXdrs ∧ queuedList w'.log = queuedList w.log := by
    unfold flushSndlist at h
    split at h
    · obtain ⟨r, hsend, rfl⟩ := Option.map_eq_some_iff.mp h
      exact sendBuffersLoop_stream hsend
    · cases h
      exact ⟨rfl, rfl⟩
  obtain ⟨es, hes, htr⟩ := htx.log
  refine ⟨hstream.1, (congrArg CtData.clAuth htx.ct :), (congrArg CtData.ctMcallRest htx.ct :), es, hes, ?_⟩
  have hnone : queuedList es = [] := by
    have hq := hstream.2
    rw [hes, queuedList_append] at hq
    exact List.append_right_eq_self.mp hq
  intro e he
  have htx := htr e he
  cases e with
  | queued b =>
    have hmem : b ∈ queuedList es := List.mem_filterMap.mpr ⟨_, he, rfl⟩
    rw [hnone] at hmem
    cases hmem
  | _ => first | rfl | cases htx

/-- A record is complete: `collate_buf_list` copies it, if it gets the memory. -/
def collated (E : Env) (w : World) : World :=
  (collateBufList E (w.note (.record (fragPayloads w.rs.rsFragList) w.rs.rsRecordsize))).1

/-- A step of the API: nothing that concerns requests or records, a record, a call that is given up
or a call that is counted as issued. -/
inductive ApiStep (E : Env) (calls : Bool) : World → World → Prop where
  | kept {w w' : World} (h : StreamKept w w') : ApiStep E calls w w'
  | collate (w : World) : ApiStep E calls w (collated E w)
  | failed (hcalls : calls = true) {rpc : RpcProcInfo} {ucbi : CallbackInfo} {w v : World}
      (h : encodeCall E rpc (registerCall ⟨w.serial, ucbi⟩ w.tick) = some (v, false)) : ApiStep E calls w v
  | issue (hcalls : calls = true) {rpc : RpcProcInfo} {ucbi : CallbackInfo} {w v : World}
      (h : encodeCall E rpc (registerCall ⟨w.serial, ucbi⟩ w.tick) = some (v, true)) :
      ApiStep E calls w (issueCall v ⟨w.serial, ucbi⟩ rpc)

abbrev ApiSteps (E : Env) (calls : Bool) : World → World → Prop := ReflTransGen (ApiStep E calls)

/-- A callback that may receive but makes no calls. -/
def CallFree : Script → Prop
  | .done => True
  | .call _ _ _ _ => False
  | .receive _ k => ∀ calledBack, CallFree (k calledBack)

/-- Running a callback is a sequence of steps. -/
def StepsOnly (E : Env) (calls : Bool) (exec : Exec) : Prop :=
  ∀ {cbi body w w'}, exec cbi body w = some w' → ApiSteps E calls w w'

lemma StreamKept.steps {E : Env} {calls : Bool} {w w' : World} (h : StreamKept w w') : ApiSteps E calls w w' :=
  .single (.kept h)

section

variable {E : Env} {calls : Bool} {exec : Exec} (hexec : StepsOnly E calls exec)

include hexec

lemma dispatchReply_steps {msg : Bytes} {w w' : World} (h : dispatchReply E exec msg w = some w') :
    ApiSteps E calls w w' := by
  have hcount : StreamKept w (countReceived w msg) := ⟨rfl, rfl, rfl, [], (List.append_nil _).symm, by simp⟩
  have hdrop : ∀ t cbi, StreamKept w (dropEntry (countReceived w msg) t cbi) := fun t cbi =>
    ⟨rfl, rfl, rfl, [.taken cbi], rfl, by simp [offStream]⟩
  rcases dispatchReply_cases h with ⟨-, rfl⟩ | ⟨xid, body, -, ⟨-, rfl⟩ | ⟨t, cbi, -, ⟨-, rfl⟩ | ⟨-, hrun⟩⟩⟩
  · exact .refl
  · exact hcount.steps
  · exact (hdrop t cbi).steps
  · exact ((hdrop t cbi).trans (streamKept_note _ rfl)).steps.trans (hexec hrun)

lemma callUserCb_steps {w w' : World} (h : callUserCb E exec w = some w') : ApiSteps E calls w w' := by
  have hcollate : ApiStep E calls w (collated E w) := .collate w
  unfold collated at hcollate
  unfold callUserCb at h
  dsimp only at h
  split at h
  · rename_i v hv
    cases h
    rw [hv] at hcollate
    exact .single hcollate
  · rename_i v msg hv
    rw [hv] at hcollate
    exact .head hcollate (dispatchReply_steps hexec h)

lemma updateRecordState_steps {w w' : World} {called : Int} (h : updateRecordState E exec w = some (w', called)) :
    ApiSteps E calls w w' := by
  have hadd : StreamKept w (addFragment E w) := by
    unfold addFragment World.alloc
    split
    · exact streamKept_refl w
    · cases E.memAlloc w.serial sizeofFragBuffer
      · exact streamKept_tick w
      · exact (streamKept_tick w).trans (streamKept_setRs _ _)
  unfold updateRecordState at h
  dsimp only at h
  split at h
  · split at h
    · cases h
    · rename_i v hcb
      cases h
      exact (hadd.trans (streamKept_setRs _ _)).steps.trans
        ((callUserCb_steps hexec hcb).tail (.kept (streamKept_setRs _ _)))
  · cases h
    exact (hadd.trans ((streamKept_setRs _ _).trans (streamKept_setRs _ _))).steps

omit hexec in
lemma copyPayload_kept (w : World) (c z : Int) : StreamKept w (copyPayload w c z).1 := by
  unfold copyPayload
  dsimp only
  split
  · exact (streamKept_setRs _ _).trans (streamKept_note _ rfl)
  · exact streamKept_refl w

omit hexec in
lemma startNext_kept (w : World) (z c : Int) : StreamKept w (startNext E z w c).1 := by
  have hcollect : StreamKept w (collectMarker w c (z - c)).1 := by
    unfold collectMarker
    dsimp only
    split
    · split
      · exact (streamKept_setRs _ _).trans (streamKept_note _ rfl)
      · exact streamKept_setRs _ _
    · exact streamKept_refl w
  unfold startNext updateNewFragState World.alloc
  dsimp only
  split
  · split
    · exact hcollect
    · cases E.memAlloc (collectMarker w c (z - c)).1.serial
        (fragSize (fraghdrWord (collectMarker w c (z - c)).1.rs.rsFraghdr)).toNat
      · exact hcollect.trans ((streamKept_tick _).trans (streamKept_setRs _ _))
      · exact hcollect.trans ((streamKept_tick _).trans (streamKept_setRs _ _))
  · exact streamKept_refl w

lemma fragPass_steps {w w' : World} {z c c' called : Int} (h : fragPass E exec z w c = some (w', c', called)) :
    ApiSteps E calls w w' := by
  obtain ⟨v, d, w₁, hcopy, hclose, hstart⟩ := fragPass_cases h
  have hcopied : StreamKept w v := by
    have hkept := copyPayload_kept w c z
    rwa [hcopy] at hkept
  have hclosed : ApiSteps E calls v w₁ := by
    unfold closeCurrent at hclose
    split at hclose
    · exact updateRecordState_steps hexec hclose
    · cases hclose
      exact .refl
  have hstarted : StreamKept w₁ w' := by
    have hkept := startNext_kept (E := E) w₁ z d
    rwa [hstart] at hkept
  exact hcopied.steps.trans (hclosed.trans hstarted.steps)

lemma updateFragState_steps {w w' : World} {z n : Int} (h : updateFragState E exec z w = some (w', n)) :
    ApiSteps E calls w w' := by
  apply fragLoop_induction (P := fun _ w _ _ => ApiSteps E calls w w') _ _ h
  · intro fuel c _
    exact .refl
  · intro fuel w c called v c' m _ hpass _ ih
    exact (fragPass_steps hexec hpass).trans ih

omit hexec in
lemma readSocket_kept {w w' : World} {r : ReadResult} (h : readSocket w = some (w', r)) : StreamKept w w' := by
  obtain ⟨rs, -, ⟨b, -, -, -, rfl⟩ | ⟨-, rfl⟩⟩ := readSocket_cases h
  · exact ⟨rfl, rfl, rfl, [.read w.depth r], rfl, by simp [offStream]⟩
  · exact ⟨rfl, rfl, rfl, [.read w.depth r], rfl, by simp [offStream]⟩

lemma rpcCbLoop_steps {flag : UInt32} {fuel : Nat} {w w' : World} {n : Int}
    (h : rpcCbLoop E exec flag fuel w = some (w', n)) : ApiSteps E calls w w' := by
  induction fuel generalizing w with
  | zero => cases h
  | succ fuel ih =>
    obtain ⟨v, r, hread, ⟨-, rfl, -⟩ | ⟨b, u, m, -, hupd, ⟨-, rfl, -⟩ | ⟨-, -, hrest⟩⟩⟩ := rpcCbLoop_cases h
    · exact (readSocket_kept hread).steps
    · exact (readSocket_kept hread).steps.trans (updateFragState_steps hexec hupd)
    · exact (readSocket_kept hread).steps.trans ((updateFragState_steps hexec hupd).trans (ih hrest))

lemma clnttcpNbReceive_steps {flag : UInt32} {w w' : World} {n : Int}
    (h : clnttcpNbReceive E exec flag w = some (w', n)) : ApiSteps E calls w w' := by
  obtain ⟨v, hflush, ⟨-, rfl, -⟩ | ⟨-, -, u, hcb, rfl⟩⟩ := clnttcpNbReceive_cases h
  · exact (flushSndlist_kept hflush).steps
  · have hsettle : StreamKept u (setPending u (cInt (u.ct.ctPendingcalls - n))) :=
      ⟨rfl, rfl, rfl, [], (List.append_nil _).symm, by simp⟩
    exact (flushSndlist_kept hflush).steps.trans ((rpcCbLoop_steps hexec hcb).trans hsettle.steps)

lemma clnttcpNbCall_steps (hcalls : calls = true) {rpc : RpcProcInfo} {ucbi : CallbackInfo} {callflag : UInt64}
    {w w' : World} {stat : ClntStat} (h : clnttcpNbCall E exec rpc ucbi callflag w = some (w', stat)) :
    ApiSteps E calls w w' := by
  rcases clnttcpNbCall_cases h with ⟨-, rfl, -⟩ | ⟨-, v, ok, henc, ⟨rfl, rfl, -⟩ | ⟨rfl, -, n, hrec⟩⟩
  · exact (streamKept_tick w).steps
  · exact .single (.failed hcalls henc)
  · exact .head (.issue hcalls henc) (clnttcpNbReceive_steps hexec hrec)

lemma runScript_steps {s : Script} (hs : calls = true ∨ CallFree s) {w w' : World}
    (h : runScript E exec s w = some w') : ApiSteps E calls w w' := by
  induction s generalizing w with
  | done =>
    cases h
    exact .refl
  | call rpc ucbi callflag k ih =>
    have hcalls : calls = true := hs.resolve_right id
    unfold runScript at h
    split at h
    · cases h
    · rename_i v stat hcall
      exact (clnttcpNbCall_steps hexec hcalls hcall).trans (ih stat (Or.inl hcalls) h)
  | receive flag k ih =>
    unfold runScript at h
    split at h
    · cases h
    · rename_i v n hrec
      exact (clnttcpNbReceive_steps hexec hrec).trans (ih n (hs.imp_right fun hfree => hfree n) h)

end

/-- Also what callbacks do, however deep they are nested. -/
lemma reentrant_steps (E : Env) {calls : Bool} (B : Behaviour) (n : Nat)
    (hB : calls = true ∨ ∀ cbi body log, CallFree (B cbi body log)) : StepsOnly E calls (reentrant E B n) := by
  have hdepth : ∀ (w : World) (d : Nat), StreamKept w { w with depth := d } := fun w d =>
    ⟨rfl, rfl, rfl, [], (List.append_nil _).symm, by simp⟩
  induction n with
  | zero =>
    intro cbi body w w' h
    cases h
  | succ n ih =>
    intro cbi body w w' h
    unfold reentrant at h
    split at h
    · cases h
    · rename_i v hrun
      cases h
      have hscript := runScript_steps ih (hB.imp_right fun hfree => hfree cbi body w.log) hrun
      exact (hdepth w _).steps.trans (hscript.trans (hdepth v _).steps)

lemma streamKept_enter (w : World) (reads : List ReadResult) (writes : List WriteResult) :
    StreamKept w { w with reads := reads, writes := writes } :=
  ⟨rfl, rfl, rfl, [], (List.append_nil _).symm, by simp⟩

/-- A run of the API is a sequence of steps. -/
lemma runOps_steps {E : Env} {exec : Exec} (hexec : StepsOnly E true exec) {ops : List Op} {w w' : World}
    (h : runOps E exec ops w = some w') : ApiSteps E true w w' := by
  induction ops generalizing w with
  | nil =>
    cases h
    exact .refl
  | cons op ops ih =>
    unfold runOps at h
    split at h
    · cases h
    · rename_i v hop
      refine ReflTransGen.trans ?_ (ih h)
      cases op with
      | call rpc ucbi callflag reads writes =>
        obtain ⟨⟨u, stat⟩, hcall, rfl⟩ := Option.map_eq_some_iff.mp hop
        exact (streamKept_enter w reads writes).steps.trans (clnttcpNbCall_steps hexec rfl hcall)
      | receive flag reads writes =>
        obtain ⟨⟨u, n⟩, hrec, rfl⟩ := Option.map_eq_some_iff.mp hop
        exact (streamKept_enter w reads writes).steps.trans (clnttcpNbReceive_steps hexec hrec)

/-! ## What steps put on the output stream -/

/-- Events of a call on its way out. -/
def ofCall : Event → Bool
  | .queued _ | .registered _ _ _ | .issued _ _ _ => true
  | _ => false

lemma ofCall_quiet {es : List Event} (h : ∀ e ∈ es, ofCall e = false) :
    queuedList es = [] ∧ regs es = [] ∧ issued es = [] := by
  refine ⟨?_, ?_, ?_⟩
  all_goals
    apply List.filterMap_eq_nil_iff.mpr
    intro e he
    have hno := h e he
    cases e <;> first | rfl | cases hno

lemma StreamKept.noCall {w w' : World} (h : StreamKept w w') :
    ∃ es, w'.log = w.log ++ es ∧ ∀ e ∈ es, ofCall e = false := by
  obtain ⟨es, hes, hoff⟩ := h.log
  refine ⟨es, hes, fun e he => ?_⟩
  have hoff := hoff e he
  cases e <;> first | rfl | cases hoff

lemma collated_log (E : Env) (w : World) : ∃ es, (collated E w).log = w.log ++ es ∧ (∀ e ∈ es, ofCall e = false) ∧
    ∃ rs, (collated E w).ct = { w.ct with ctRecordState := rs } := by
  unfold collated collateBufList World.alloc
  cases hm : E.memAlloc w.serial (cUlong w.rs.rsRecordsize) with
  | false =>
    simp only [World.note_serial, World.note_rs, hm, Bool.false_eq_true, if_false]
    exact ⟨_, rfl, by simp [ofCall], w.rs, rfl⟩
  | true =>
    simp only [World.note_serial, World.note_rs, hm, if_true]
    exact ⟨_, List.append_assoc _ _ _, by simp [ofCall], _, rfl⟩

/-- Without calls nothing is put on the output stream. -/
lemma ApiSteps.queuedList_eq {E : Env} {w w' : World} (h : ApiSteps E false w w') :
    queuedList w'.log = queuedList w.log := by
  have happend : ∀ {v v' : World} {es : List Event}, v'.log = v.log ++ es → (∀ e ∈ es, ofCall e = false) →
      queuedList v'.log = queuedList v.log := by
    intro v v' es hes hno
    rw [hes, queuedList_append, (ofCall_quiet hno).1, List.append_nil]
  induction h with
  | refl => rfl
  | tail _ hstep ih =>
    rw [← ih]
    cases hstep with
    | kept h =>
      obtain ⟨es, hes, hno⟩ := h.noCall
      exact happend hes hno
    | collate =>
      obtain ⟨es, hes, hno, -⟩ := collated_log E _
      exact happend hes hno
    | failed hcalls => cases hcalls
    | issue hcalls => cases hcalls

lemma queuedBytes_eq (log : List Event) : queuedBytes log = (queuedList log).flatten := by
  induction log with
  | nil => rfl
  | cons e log ih =>
    rw [queuedBytes, List.flatMap_cons]
    change queuedBy e ++ queuedBytes log = _
    rw [ih]
    cases e <;> rfl

/-! ## Runs of the transmission path -/

inductive TxOp where
  | write (buf : Bytes) (writes : List WriteResult)
  | receive (flag : UInt32) (reads : List ReadResult) (writes : List WriteResult)

def TxOp.run (E : Env) (exec : Exec) : TxOp → World → Option World
  | .write buf writes, w => (writetcpNb E buf { w with writes := writes }).map Prod.fst
  | .receive flag reads writes, w =>
    (clnttcpNbReceive E exec flag { w with reads := reads, writes := writes }).map Prod.fst

def runTxOps (E : Env) (exec : Exec) : List TxOp → World → Option World
  | [], w => some w
  | op :: ops, w =>
    match op.run E exec w with
    | none => none
    | some w => runTxOps E exec ops w

lemma runTxOps_acts {E : Env} {exec : Exec} (hexec : ActsOnly E true exec) {ops : List TxOp} {w w' : World}
    (h : runTxOps E exec ops w = some w') : Acts E true w w' := by
  induction ops generalizing w with
  | nil =>
    cases h
    exact .refl
  | cons op ops ih =>
    unfold runTxOps at h
    split at h
    · cases h
    · rename_i v hop
      refine Relation.ReflTransGen.trans ?_ (ih h)
      cases op with
      | write buf writes =>
        simp only [TxOp.run, Option.map_eq_some_iff] at hop
        obtain ⟨r, hwrite, rfl⟩ := hop
        exact .head (.enter rfl w w.reads writes) (writetcpNb_acts hwrite).acts
      | receive flag reads writes =>
        simp only [TxOp.run, Option.map_eq_some_iff] at hop
        obtain ⟨r, hrec, rfl⟩ := hop
        exact .head (.enter rfl w reads writes) (clnttcpNbReceive_acts hexec hrec)

/-- The bytes an operation passes to `writetcp_nb`: its own buffer, and in a receive what the calls
of the callbacks put on the stream, which is nothing if they make none. -/
def Passes (B : Behaviour) : TxOp → Bytes → Prop
  | .write buf _, bytes => bytes = buf
  | .receive _ _ _, bytes => (∀ cbi body log, CallFree (B cbi body log)) → bytes = []

lemma writetcpNb_queuedBytes {E : Env} {buf : Bytes} {w w' : World} {res : Int}
    (h : writetcpNb E buf w = some (w', res)) : queuedBytes w'.log = queuedBytes w.log ++ buf := by
  rw [queuedBytes_eq, queuedBytes_eq, (writetcpNb_stream h).2, List.flatten_append, List.flatten_singleton]

/-- One operation puts the bytes it passes on the stream. -/
lemma TxOp.run_passes {E : Env} {B : Behaviour} {n : Nat} {op : TxOp} {w w' : World}
    (h : op.run E (reentrant E B n) w = some w') :
    ∃ bytes, Passes B op bytes ∧ queuedBytes w'.log = queuedBytes w.log ++ bytes := by
  cases op with
  | write buf writes =>
    obtain ⟨⟨u, res⟩, hwrite, rfl⟩ := Option.map_eq_some_iff.mp h
    have hqueued := writetcpNb_queuedBytes hwrite
    exact ⟨buf, rfl, hqueued⟩
  | receive flag reads writes =>
    obtain ⟨⟨u, m⟩, hrec, rfl⟩ := Option.map_eq_some_iff.mp h
    obtain ⟨es, hes⟩ := (clnttcpNbReceive_acts (reentrant_acts E B n) hrec).log_grows
    refine ⟨queuedBytes es, ?_, ?_⟩
    · intro hfree
      have hkept := ApiSteps.queuedList_eq (clnttcpNbReceive_steps (reentrant_steps E B n (Or.inr hfree)) hrec)
      rw [← hes, queuedList_append] at hkept
      rw [queuedBytes_eq, List.append_right_eq_self.mp hkept]
      rfl
    · change queuedBytes u.log = _
      rw [← hes, queuedBytes_append]

lemma runTxOps_passes {E : Env} {B : Behaviour} {n : Nat} {ops : List TxOp} {w w' : World}
    (h : runTxOps E (reentrant E B n) ops w = some w') :
    ∃ passed, List.Forall₂ (Passes B) ops passed ∧ queuedBytes w'.log = queuedBytes w.log ++ passed.flatten := by
  induction ops generalizing w with
  | nil =>
    cases h
    exact ⟨[], .nil, (List.append_nil _).symm⟩
  | cons op ops ih =>
    unfold runTxOps at h
    split at h
    · cases h
    · rename_i v hop
      obtain ⟨bytes, hbytes, hv⟩ := TxOp.run_passes hop
      obtain ⟨passed, hall, hw'⟩ := ih h
      exact ⟨bytes :: passed, .cons hbytes hall, by rw [hw', hv, List.flatten_cons, List.append_assoc]⟩

/-- No byte is lost, repeated or reordered on its way to the socket, and a blocking pass of
`send_buffers` that returns 0 has sent everything. What is on its way are the buffers `writetcp_nb`
was given. -/
theorem transmit_stream_integrity {E : Env} (hE : AllocsSucceed E) {ct : CtData} (hct : Created ct)
    (B : Behaviour) (n : Nat) {ops : List TxOp} {w : World}
    (h : runTxOps E (reentrant E B n) ops (World.start ct) = some w) :
    sentBytes w.log ++ w.ct.ctSndlist.flatMap unsent = queuedBytes w.log ∧
      (∃ passed, List.Forall₂ (Passes B) ops passed ∧ queuedBytes w.log = passed.flatten) ∧
      (∀ buf v v' res, writetcpNb E buf v = some (v', res) → queuedBytes v'.log = queuedBytes v.log ++ buf) ∧
      w.ct.ctDatatx = (sentBytes w.log).length % 2 ^ 64 ∧
      ∀ flag v v', isBlocking flag = true → sendBuffers flag v = some (v', 0) → v'.ct.ctSndlist = [] := by
  have hinv := (runTxOps_acts (reentrant_acts E B n) h).txInv hE (txInv_created hct)
  refine ⟨hinv.stream, runTxOps_passes h, fun buf v v' res => writetcpNb_queuedBytes, hinv.datatx, ?_⟩
  intro flag v v' hflag hsend
  obtain ⟨u, ws, -, rfl, hempty⟩ := sendBuffersLoop_sends hsend
  exact hempty hflag rfl

/-- Two buffers of which the first is sent in parts, the last of them by a blocking pass. -/
def partialWrites : List TxOp :=
  [.write [1, 2, 3] [.wrote 1], .write [4] [.eagain],
    .receive rpcBlockingWait [] [.eagain, .wrote 1, .wrote 1, .eagain, .wrote 1]]

theorem transmit_stream_integrity_partial_writes :
    ∃ w, runTxOps replyEnv (reentrant replyEnv (fun _ _ _ => .done) 1) partialWrites (World.start authnoneHandle) =
        some w ∧
      sentBytes w.log = [1, 2, 3, 4] ∧ w.ct.ctSndlist = [] ∧ w.ct.ctDatatx = 4 := by
  have hrun : (runTxOps replyEnv (reentrant replyEnv (fun _ _ _ => .done) 1) partialWrites
      (World.start authnoneHandle)).map (fun w => w.ct.ctSndlist) = some [] := by decide +kernel
  obtain ⟨w, hw, hempty⟩ := Option.map_eq_some_iff.mp hrun
  obtain ⟨hstream, ⟨passed, hall, hpassed⟩, -, hdatatx, -⟩ :=
    transmit_stream_integrity replyEnv_allocs authnoneHandle_created _ _ hw
  obtain ⟨first, rest, hfirst, hall', rfl⟩ := List.forall₂_cons_left_iff.mp hall
  obtain ⟨second, rest', hsecond, hall'', rfl⟩ := List.forall₂_cons_left_iff.mp hall'
  obtain ⟨third, rest'', hthird, hnil, rfl⟩ := List.forall₂_cons_left_iff.mp hall''
  obtain rfl := List.forall₂_nil_left_iff.mp hnil
  have hsent : sentBytes w.log = [1, 2, 3, 4] := by
    rw [hempty, hpassed, hfirst, hsecond, hthird fun _ _ _ => trivial] at hstream
    simpa using hstream
  rw [hsent] at hdatatx
  exact ⟨w, hw, hsent, hempty, hdatatx⟩

end UnfsClient.Proofs
