import UnfsClient.RpcReply
import UnfsClient.Proofs.Dispatch
import UnfsClient.Proofs.MemoryPressure
import UnfsClient.Proofs.ParserRefinement

/-!
# The callbacks of a receive

What the reception path is for, on a dictionary of outstanding calls: a record that decodes to
the xid of one of them runs its callback and ends the call. Whatever a receive does, and whichever
of its allocations fail, the callbacks it runs are those of the records it collates.
-/

namespace UnfsClient.Proofs

open Lib

/-- The callbacks that run, and on which bytes, when these records come in while the calls `d` are
outstanding. -/
def answersOf (decode : Bytes → Option (UInt64 × Bytes)) :
    List (Bytes × Cbi) → List Bytes → List (Cbi × Bytes)
  | _, [] => []
  | d, msg :: msgs =>
    match decode msg with
    | none => answersOf decode d msgs
    | some (xid, body) =>
      match d.find? fun e => e.1 == leBytes xid.toUInt32 with
      | none => answersOf decode d msgs
      | some e =>
        (if e.2.info.callback = none then [] else [(e.2, body)]) ++ answersOf decode (dropKey d e.1) msgs

section

variable {decode : Bytes → Option (UInt64 × Bytes)} {d : List (Bytes × Cbi)} {msg : Bytes}

lemma answersOf_undecodable (h : decode msg = none) (msgs : List Bytes) :
    answersOf decode d (msg :: msgs) = answersOf decode d msgs := by
  simp only [answersOf, h]

lemma answersOf_unknown {xid : UInt64} {body : Bytes} (h : decode msg = some (xid, body))
    (habs : leBytes xid.toUInt32 ∉ d.map Prod.fst) (msgs : List Bytes) :
    answersOf decode d (msg :: msgs) = answersOf decode d msgs := by
  have hfind : (d.find? fun e => e.1 == leBytes xid.toUInt32) = none := by
    apply List.find?_eq_none.mpr
    intro e he heq
    exact habs (List.mem_map.mpr ⟨e, he, beq_iff_eq.mp heq⟩)
  simp only [answersOf, h, hfind]

lemma answersOf_known {xid : UInt64} {body : Bytes} {cbi : Cbi} (h : decode msg = some (xid, body))
    (hnd : (d.map Prod.fst).Nodup) (hmem : (leBytes xid.toUInt32, cbi) ∈ d) (msgs : List Bytes) :
    answersOf decode d (msg :: msgs) =
      (if cbi.info.callback = none then [] else [(cbi, body)]) ++
        answersOf decode (dropKey d (leBytes xid.toUInt32)) msgs := by
  have hfind : (d.find? fun e => e.1 == leBytes xid.toUInt32) = some (leBytes xid.toUInt32, cbi) := by
    cases hf : d.find? fun e => e.1 == leBytes xid.toUInt32 with
    | none => exact absurd (beq_self_eq_true _) (List.find?_eq_none.mp hf _ hmem)
    | some e =>
      have hkey := List.find?_some hf
      rw [List.inj_on_of_nodup_map hnd (List.mem_of_find?_eq_some hf) hmem (beq_iff_eq.mp hkey)]
  simp only [answersOf, h, hfind]

/-- A callback runs for a record with the xid of its call. -/
lemma mem_answersOf {msgs : List Bytes} {a : Cbi × Bytes} (h : a ∈ answersOf decode d msgs) :
    ∃ msg ∈ msgs, ∃ xid, decode msg = some (xid, a.2) ∧ (leBytes xid.toUInt32, a.1) ∈ d := by
  induction msgs generalizing d with
  | nil => cases h
  | cons msg msgs ih =>
    have hlater : ∀ {d' : List (Bytes × Cbi)}, (∀ e ∈ d', e ∈ d) → a ∈ answersOf decode d' msgs →
        ∃ m ∈ msg :: msgs, ∃ xid, decode m = some (xid, a.2) ∧ (leBytes xid.toUInt32, a.1) ∈ d := by
      intro d' hsub ha
      obtain ⟨m, hm, xid, hdec, hmem⟩ := ih ha
      exact ⟨m, List.mem_cons_of_mem _ hm, xid, hdec, hsub _ hmem⟩
    unfold answersOf at h
    split at h
    · exact hlater (fun _ he => he) h
    · rename_i xid body hdec
      split at h
      · exact hlater (fun _ he => he) h
      · rename_i e hfind
        rcases List.mem_append.mp h with h | h
        · split at h
          · cases h
          · obtain rfl := List.mem_singleton.mp h
            have hkey := List.find?_some hfind
            refine ⟨msg, List.mem_cons_self, xid, hdec, ?_⟩
            rw [← beq_iff_eq.mp hkey]
            exact List.mem_of_find?_eq_some hfind
        · exact hlater (fun _ he => (List.mem_filter.mp he).1) h

/-- Each callback runs at most once. -/
lemma nodup_answersOf {msgs : List Bytes} (hd : (d.map Prod.snd).Nodup) :
    ((answersOf decode d msgs).map Prod.fst).Nodup := by
  induction msgs generalizing d with
  | nil => exact .nil
  | cons msg msgs ih =>
    unfold answersOf
    split
    · exact ih hd
    · split
      · exact ih hd
      · rename_i e hfind
        have hrest := ih (d := dropKey d e.1) (hd.sublist (List.filter_sublist.map Prod.snd))
        split
        · exact hrest
        · rw [List.map_append, List.map_singleton, List.singleton_append, List.nodup_cons]
          refine ⟨fun hmem => ?_, hrest⟩
          obtain ⟨a, ha, hae⟩ := List.mem_map.mp hmem
          obtain ⟨-, -, xid, -, hin⟩ := mem_answersOf ha
          obtain ⟨hin, hne⟩ := List.mem_filter.mp hin
          have heq := List.inj_on_of_nodup_map hd hin (List.mem_of_find?_eq_some hfind) hae
          simp [← heq] at hne

end

/-! ## A receive on the log -/

/-- The records that have been collated. -/
def messages (log : List Event) : List Bytes := (collatedOf log).map Prod.fst

lemma messages_append (a b : List Event) : messages (a ++ b) = messages a ++ messages b := by
  rw [messages, collatedOf_append, List.map_append, messages, messages]

lemma invocations_append (a b : List Event) : invocations (a ++ b) = invocations a ++ invocations b :=
  List.filterMap_append

/-- From `w` to `w'` the callbacks have run that the collated records are for. -/
def Answers (E : Env) (w w' : World) : Prop :=
  ∃ es, w'.log = w.log ++ es ∧ ∀ msgs, answersOf E.xdrReplymsg (live w.log) (messages es ++ msgs) =
    invocations es ++ answersOf E.xdrReplymsg (live w'.log) msgs

lemma answers_refl (E : Env) (w : World) : Answers E w w := ⟨[], (List.append_nil _).symm, fun _ => rfl⟩

lemma Answers.trans {E : Env} {w v w' : World} (h : Answers E w v) (t : Answers E v w') : Answers E w w' := by
  obtain ⟨es, hes, heq⟩ := h
  obtain ⟨es', hes', heq'⟩ := t
  refine ⟨es ++ es', by rw [hes', hes, List.append_assoc], fun msgs => ?_⟩
  rw [messages_append, invocations_append, List.append_assoc, heq, heq', List.append_assoc]

/-- Nothing is dispatched and nothing registered. -/
lemma answers_silent {E : Env} {w w' : World} (hregs : regs w'.log = regs w.log) (hlog : SilentLog w w') :
    Answers E w w' := by
  obtain ⟨es, hes, hno⟩ := hlog
  have hnone : ∀ {β : Type} (f : Event → Option β), (∀ e, ofDispatch e = false → f e = none) →
      es.filterMap f = [] := by
    intro β f hf
    exact List.filterMap_eq_nil_iff.mpr fun e he => hf e (hno e he)
  have hmsgs : messages es = [] := by
    unfold messages collatedOf
    rw [hnone collatedOf? (by intro e he; cases e <;> first | rfl | cases he), List.map_nil]
  have hinv : invocations es = [] := hnone _ (by intro e he; cases e <;> first | rfl | cases he)
  have htakens : takens w'.log = takens w.log := by
    rw [hes, takens_append, takens, takens, hnone takenOf? (by intro e he; cases e <;> first | rfl | cases he),
      List.append_nil]
  have hlive : live w'.log = live w.log := by
    unfold live
    rw [hregs, htakens]
  refine ⟨es, hes, fun msgs => ?_⟩
  rw [hmsgs, hinv, hlive]
  rfl

/-- A collated record is dispatched. -/
lemma dispatchReply_answers {E : Env} {x₀ : UInt32} {w w' : World} (hi : RegInv x₀ w) {msg : Bytes}
    (h : dispatchReply E noReentry msg w = some w') :
    ∃ es, w'.log = w.log ++ es ∧ messages es = [] ∧
      ∀ msgs, answersOf E.xdrReplymsg (live w.log) (msg :: msgs) =
        invocations es ++ answersOf E.xdrReplymsg (live w'.log) msgs := by
  rcases dispatchReply_cases h with ⟨hdec, rfl⟩ | ⟨xid, body, hdec, hcases⟩
  · exact ⟨[], (List.append_nil _).symm, rfl, answersOf_undecodable hdec⟩
  rcases takeCallback_spec hi.table (xidKeys_live w.log) xid with ⟨habs, hnone⟩ | ⟨cbi, hmem, hsome, -⟩
  · rcases hcases with ⟨-, rfl⟩ | ⟨t, cbi, htake, -⟩
    · exact ⟨[], (List.append_nil _).symm, rfl, answersOf_unknown hdec habs⟩
    · rw [hnone] at htake
      cases htake
  · rcases hcases with ⟨hnone, -⟩ | ⟨t, cbi', htake, hcases⟩
    · rw [hnone] at hsome
      cases hsome
    rw [htake] at hsome
    obtain rfl := Option.some.inj hsome
    have hknown := answersOf_known hdec hi.table.keys_nodup hmem
    rcases hcases with ⟨hcb, rfl⟩ | ⟨hcb, hrun⟩
    · have hlog : (dropEntry (countReceived w msg) t cbi').log = w.log ++ [.taken cbi'] := rfl
      refine ⟨_, hlog, rfl, fun msgs => ?_⟩
      rw [hlog, hi.live_taken hmem rfl rfl, hknown, if_pos hcb]
      rfl
    · obtain rfl := Option.some.inj hrun
      have hlog : ((dropEntry (countReceived w msg) t cbi').note (.ran cbi' xid body)).log =
          w.log ++ [.taken cbi', .ran cbi' xid body] := List.append_assoc _ _ _
      refine ⟨_, hlog, rfl, fun msgs => ?_⟩
      rw [hlog, hi.live_taken hmem rfl rfl, hknown, if_neg hcb]
      rfl

/-- A record is handed on: either its buffer is refused and nothing happens, or it is collated and
dispatched. -/
lemma callUserCb_answers {E : Env} {x₀ : UInt32} {w w' : World} (hi : RegInv x₀ w)
    (hn : (regs w.log).length ≤ 2 ^ 32) (h : callUserCb E noReentry w = some w') : Answers E w w' := by
  unfold callUserCb at h
  dsimp only at h
  set v := w.note (.record (fragPayloads w.rs.rsFragList) w.rs.rsRecordsize)
  have hnote : Answers E w v := answers_silent (by simp [v, regs, regOf?]) ⟨_, rfl, by simp [ofDispatch]⟩
  have htick : Answers E v v.tick := answers_silent rfl ⟨[], (List.append_nil _).symm, by simp⟩
  have hacts : Acts E false w v.tick := .head (.parsed rfl) (.single (.tick v))
  by_cases hgrant : CollateGranted E v
  · rw [collateBufList_granted hgrant] at h
    set u := v.tick.setRs { v.rs with rsFragList := [] }
    have hset : Answers E v.tick u := answers_silent rfl ⟨[], (List.append_nil _).symm, by simp⟩
    refine hnote.trans (htick.trans (hset.trans ?_))
    set c := Event.collated (collatedMsg E v.rs)
      ((fragPayloads v.rs.rsFragList).flatten.length - cUlong v.rs.rsRecordsize)
    have hcollate : Acts E false w (u.note c) := hacts.trans (.head (.setRs _ _) (.single (.parsed rfl)))
    have hiu : RegInv x₀ (u.note c) := hcollate.regInv hi (by rwa [hcollate.regs_eq])
    obtain ⟨es, hes, hmsgs, heq⟩ := dispatchReply_answers hiu h
    have hlive : live (u.note c).log = live u.log := by
      rw [World.note_log, live_append rfl]
      exact List.filter_eq_self.mpr fun _ _ => rfl
    refine ⟨c :: es, by rw [hes, World.note_log, List.append_assoc]; rfl, fun msgs => ?_⟩
    have hmsg : messages (c :: es) = [collatedMsg E v.rs] := by
      rw [← List.singleton_append, messages_append, hmsgs]
      rfl
    rw [hmsg, ← hlive]
    exact heq msgs
  · rw [collateBufList_refused hgrant] at h
    obtain rfl := Option.some.inj h
    exact hnote.trans htick

lemma Handled.answers {E : Env} {x₀ : UInt32} {w w' : World} (h : Handled E false noReentry w w') (hi : RegInv x₀ w)
    (hn : (regs w.log).length ≤ 2 ^ 32) : Answers E w w' := by
  induction h with
  | refl => exact answers_refl E w
  | @tail v w' hv hstep ih =>
    refine ih.trans ?_
    cases hstep with
    | silent hact hlog => exact answers_silent (Acts.regs_eq (.single hact)) hlog
    | record hcb =>
      have hacts : Acts E false w v := Handled.acts (actsOnly_noReentry E false) hv
      have hiv : RegInv x₀ v := hacts.regInv hi (by rwa [hacts.regs_eq])
      exact callUserCb_answers hiv (by rwa [hacts.regs_eq]) hcb

/-! ## A call -/

lemma transmit_quiet {es : List Event} (h : ∀ e ∈ es, ofTransmit e = true) :
    regs es = [] ∧ invocations es = [] := by
  refine ⟨?_, ?_⟩
  all_goals
    apply List.filterMap_eq_nil_iff.mpr
    intro e he
    have htx := h e he
    cases e <;> first | rfl | cases htx

/-- The callbacks that run during a call: none if it is not sent, else those of the records that
are collated while it and the calls before it are outstanding. -/
lemma clnttcpNbCall_answers {E : Env} {x₀ : UInt32} {w w' : World} (hi : RegInv x₀ w)
    (hn : (regs w.log).length < 2 ^ 32) {rpc : RpcProcInfo} {ucbi : CallbackInfo} {callflag : UInt64} {stat : ClntStat}
    (h : clnttcpNbCall E noReentry rpc ucbi callflag w = some (w', stat)) :
    ∃ es, w'.log = w.log ++ es ∧
      ((stat ≠ .success ∧ invocations es = [] ∧
        (regs es = [] ∨ regs es = [(⟨w.serial, ucbi⟩, callXid x₀ (regs w.log).length)])) ∨
      (stat = .success ∧ regs es = [(⟨w.serial, ucbi⟩, callXid x₀ (regs w.log).length)] ∧
        invocations es = answersOf E.xdrReplymsg
          (live w.log ++ [(leBytes (callXid x₀ (regs w.log).length), ⟨w.serial, ucbi⟩)]) (messages es))) := by
  obtain ⟨hir, hlive⟩ := hi.register hn ucbi
  have hlog := hi.register_log hn ucbi
  have hregs : (regs (registerCall ⟨w.serial, ucbi⟩ w.tick).log).length ≤ 2 ^ 32 := by
    rw [hlog, regs_append, List.length_append]
    exact hn
  rcases clnttcpNbCall_cases h with ⟨-, rfl, rfl⟩ | ⟨-, v, ok, henc, hcases⟩
  · exact ⟨[], (List.append_nil _).symm, Or.inl ⟨by decide, rfl, Or.inl rfl⟩⟩
  have hsent : Answers E (registerCall ⟨w.serial, ucbi⟩ w.tick) v :=
    Handled.answers (encodeCall_acts henc).handled hir hregs
  rcases hcases with ⟨-, rfl, rfl⟩ | ⟨-, rfl, n, hrec⟩
  · obtain ⟨es, hes, htx⟩ := (encodeCall_acts henc).txOnly.log
    obtain ⟨hnoreg, hnoinv⟩ := transmit_quiet htx
    refine ⟨.registered ⟨w.serial, ucbi⟩ (callXid x₀ (regs w.log).length) 0 :: es, ?_,
      Or.inl ⟨by decide, hnoinv, Or.inr ?_⟩⟩
    · rw [hes, hlog, List.append_assoc]
      rfl
    · exact congrArg (_ :: ·) hnoreg
  · have hri : regs (issueCall v ⟨w.serial, ucbi⟩ rpc).log = regs (registerCall ⟨w.serial, ucbi⟩ w.tick).log := by
      rw [← (encodeCall_acts henc).acts.regs_eq]
      simp [issueCall, setPending, regs, regOf?]
    have hissue : Answers E v (issueCall v ⟨w.serial, ucbi⟩ rpc) :=
      answers_silent (by simp [issueCall, setPending, regs, regOf?]) ⟨_, rfl, by simp [ofDispatch]⟩
    have hiv : RegInv x₀ (issueCall v ⟨w.serial, ucbi⟩ rpc) := (issueCall_acts henc).regInv hi (by rwa [hri])
    have hreceived : Answers E (issueCall v ⟨w.serial, ucbi⟩ rpc) w' :=
      Handled.answers (clnttcpNbReceive_handled hrec) hiv (by rwa [hri])
    obtain ⟨es, hes, heq⟩ := (hsent.trans hissue).trans hreceived
    have hnoreg : regs es = [] := by
      have hr : regs w'.log = regs (registerCall ⟨w.serial, ucbi⟩ w.tick).log := by
        rw [← hri]
        exact (clnttcpNbReceive_acts (actsOnly_noReentry E false) hrec).regs_eq
      rw [hes, regs_append] at hr
      exact List.append_right_eq_self.mp hr
    refine ⟨.registered ⟨w.serial, ucbi⟩ (callXid x₀ (regs w.log).length) 0 :: es, ?_, Or.inr ⟨rfl, ?_, ?_⟩⟩
    · rw [hes, hlog, List.append_assoc]
      rfl
    · exact congrArg (_ :: ·) hnoreg
    · have hinv := heq []
      rw [List.append_nil, hlive] at hinv
      exact ((List.append_nil _).symm.trans hinv.symm)

end UnfsClient.Proofs
