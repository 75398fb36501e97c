import UnfsClient.Lib.RecordMarking
import UnfsClient.RpcReply
import UnfsClient.Proofs.Registrations

/-!
# Reply dispatch

Whatever the server sends, a callback runs at most once, only for a record that carries the xid
of its own call, and processing a record takes at most one entry out of the table.
-/

namespace UnfsClient.Proofs

open Lib RecordMarking

/-- `xdr_replymsg` stores the first word of the message as `rm_xid`. -/
def DecodesXid (E : Env) : Prop :=
  ∀ msg xid body, E.xdrReplymsg msg = some (xid, body) →
    ∃ x : UInt32, msg.take 4 = beBytes x ∧ xid = x.toUInt64

lemma replyHeader_decodes {E : Env} (hdec : E.xdrReplymsg = replyHeader) : DecodesXid E := by
  intro msg xid body h
  rw [hdec] at h
  obtain ⟨⟨m, r⟩, hm, heq⟩ := Option.map_eq_some_iff.mp h
  obtain ⟨rfl, rfl⟩ := Prod.mk.inj heq
  obtain ⟨⟨f, s⟩, hf, hrest⟩ := Option.bind_eq_some_iff.mp hm
  obtain ⟨⟨xid, s'⟩, hxid, hmk⟩ := Option.bind_eq_some_iff.mp hf
  obtain ⟨⟨reply, s''⟩, -, hm⟩ := Option.bind_eq_some_iff.mp hrest
  obtain ⟨⟨x, t⟩, hx, hword⟩ := Option.bind_eq_some_iff.mp hxid
  cases hmk
  cases hm
  obtain ⟨rfl, rfl⟩ := Prod.mk.inj (Option.some.inj hword)
  refine ⟨x, ?_, rfl⟩
  change Decoder.getLong msg = _ at hx
  unfold Decoder.getLong at hx
  split at hx
  · cases hx
    exact (beBytes_beWord _ _ _ _).symm
  · cases hx

/-- The callback is run right after the record has been collated that starts with the xid `cbi`
is registered under, on what this record decodes to. -/
def RunsOwnReply (E : Env) (pre : List Event) (cbi : Cbi) (xid : UInt64) (body : Bytes) : Prop :=
  ∃ pre' msg overrun x, pre = pre' ++ [.collated msg overrun, .taken cbi] ∧
    E.xdrReplymsg msg = some (xid, body) ∧ msg.take 4 = beBytes x ∧ xid = x.toUInt64 ∧ (cbi, x) ∈ regs pre'

structure RanInv (E : Env) (log : List Event) : Prop where
  taken : (rans log).Sublist (takens log)
  own : ∀ pre cbi xid body post, log = pre ++ .ran cbi xid body :: post → RunsOwnReply E pre cbi xid body

lemma append_eq_append_cons {α : Type} {l es pre post : List α} {e : α} (h : l ++ es = pre ++ e :: post) :
    (∃ post', l = pre ++ e :: post') ∨ ∃ mid, pre = l ++ mid ∧ es = mid ++ e :: post := by
  rcases List.append_eq_append_iff.mp h with ⟨mid, hpre, hes⟩ | ⟨mid, hl, hpost⟩
  · exact Or.inr ⟨mid, hpre, hes⟩
  · cases mid with
    | nil => exact Or.inr ⟨[], by simpa using hl.symm, by simpa using hpost.symm⟩
    | cons e' mid =>
      obtain ⟨rfl, -⟩ := List.cons.inj hpost
      exact Or.inl ⟨mid, hl⟩

lemma RanInv.append {E : Env} {log es : List Event} (h : RanInv E log) (hno : rans es = []) : RanInv E (log ++ es) := by
  constructor
  · rw [rans_append, takens_append, hno, List.append_nil]
    exact h.taken.trans (List.sublist_append_left _ _)
  · intro pre cbi xid body post heq
    rcases append_eq_append_cons heq with ⟨post', hlog⟩ | ⟨mid, -, hes⟩
    · exact h.own pre cbi xid body post' hlog
    · have hmem : cbi ∈ rans es := List.mem_filterMap.mpr ⟨.ran cbi xid body, by simp [hes], rfl⟩
      rw [hno] at hmem
      cases hmem

lemma RanInv.deliver {E : Env} (hdec : DecodesXid E) {x₀ : UInt32} {w : World} (h : RanInv E w.log)
    (hi : RegInv x₀ w) {msg : Bytes} {xid : UInt64} {body : Bytes} {t : GhtHashTable Cbi} {cbi : Cbi}
    (hmsg : Decoded E w msg xid body) (htake : takeCallback w.ct.ctXidToUcb xid = (t, some cbi)) :
    RanInv E (w.log ++ [.taken cbi, .ran cbi xid body]) := by
  obtain ⟨⟨overrun, hlast⟩, hreply⟩ := hmsg
  obtain ⟨x, hx, rfl⟩ := hdec _ _ _ hreply
  have hreg : (cbi, x) ∈ regs w.log := by
    rcases takeCallback_spec hi.table (xidKeys_live w.log) x.toUInt64 with ⟨-, hnone⟩ | ⟨cbi', hmem, hsome, -⟩
    · rw [hnone] at htake
      cases htake
    · rw [htake] at hsome
      obtain rfl : cbi = cbi' := Option.some.inj hsome
      obtain ⟨y, hy, -, hxy⟩ := RegInv.mem_live hmem
      have hxy' := leBytes_injective hxy
      simp only [UInt32.toUInt32_toUInt64] at hxy'
      rwa [hxy']
  obtain ⟨pre', hpre'⟩ := List.getLast?_eq_some_iff.mp hlast
  constructor
  · rw [rans_append, takens_append]
    exact h.taken.append (List.Sublist.refl _)
  · intro pre cbi' xid' body' post heq
    rcases append_eq_append_cons heq with ⟨post', hlog⟩ | ⟨mid, hpre, hes⟩
    · exact h.own pre cbi' xid' body' post' hlog
    · rcases mid with _ | ⟨e, _ | ⟨e', mid⟩⟩
      · cases hes
      · cases hes
        refine ⟨pre', msg, overrun, x, by rw [hpre, hpre']; simp, hreply, hx, rfl, ?_⟩
        rw [hpre', regs_append] at hreg
        simpa [regs, regOf?] using hreg
      · simp at hes

lemma Act.ranInv {E : Env} (hdec : DecodesXid E) {calls : Bool} {x₀ : UInt32} {w w' : World} (h : Act E calls w w')
    (hi : RegInv x₀ w) (hr : RanInv E w.log) : RanInv E w'.log := by
  rcases h.books with hs | ⟨msg, xid, body, t, cbi, es, hmsg, htake, hes, -, -, -, hlog⟩ | ⟨-, ucbi, rfl⟩
  · obtain ⟨es, hes, hno⟩ := hs.log
    rw [hes]
    exact hr.append (no_books hno).2.2
  · rw [hlog]
    rcases hes with ⟨rfl, -⟩ | rfl
    · exact hr.append rfl
    · exact hr.deliver hdec hi hmsg htake
  · exact hr.append rfl

lemma Acts.ranInv {E : Env} (hdec : DecodesXid E) {calls : Bool} {x₀ : UInt32} {w w' : World}
    (h : Acts E calls w w') (hi : RegInv x₀ w) (hr : RanInv E w.log) (hn : (regs w'.log).length ≤ 2 ^ 32) :
    RanInv E w'.log := by
  induction h with
  | refl => exact hr
  | tail hacts hact ih =>
    have hn' := (regs_grows hact).trans hn
    exact hact.ranInv hdec (Acts.regInv hacts hi hn') (ih hn')

/-! ## One record -/

/-- The part of `call_user_cb` after `collate_buf_list`. -/
lemma callUserCb_collated {E : Env} (hE : AllocsSucceed E) {exec : Exec} {w w' : World}
    (h : callUserCb E exec w = some w') :
    ∃ msg v frags size overrun, dispatchReply E exec msg v = some w' ∧
      v.log = w.log ++ [.record frags size, .collated msg overrun] := by
  simp only [callUserCb, collateBufList, World.alloc_of_succeeds hE] at h
  exact ⟨_, _, _, _, _, h, List.append_assoc _ _ _⟩

lemma live_append {log es : List Event} (hreg : regs es = []) :
    live (log ++ es) = (live log).filter fun e => e.2 ∉ takens es := by
  unfold live
  rw [regs_append, takens_append, hreg, List.append_nil, List.filter_map, List.filter_filter]
  congr 1
  apply List.filter_congr
  intro r _
  simp only [Function.comp_apply, List.mem_append, not_or, Bool.decide_and]
  rw [Bool.and_comm]

/-- A callback that leaves the handle alone adds at most one taken entry to the log. -/
lemma dispatchReply_takes {E : Env} {msg : Bytes} {w w' : World} (h : dispatchReply E noReentry msg w = some w') :
    ∃ es, w'.log = w.log ++ es ∧ regs es = [] ∧ (takens es).length ≤ 1 := by
  rcases dispatchReply_cases h with ⟨-, rfl⟩ | ⟨xid, body, -, ⟨-, rfl⟩ | ⟨t, cbi, -, ⟨-, rfl⟩ | ⟨-, hrun⟩⟩⟩
  · exact ⟨[], by simp, rfl, by decide⟩
  · exact ⟨[], by simp [countReceived], rfl, by decide⟩
  · exact ⟨[.taken cbi], rfl, rfl, le_refl _⟩
  · obtain rfl := Option.some.inj hrun
    exact ⟨[.taken cbi, .ran cbi xid body], by simp [dropEntry, countReceived], rfl, le_refl _⟩

lemma callUserCb_takes {E : Env} (hE : AllocsSucceed E) {w w' : World} (h : callUserCb E noReentry w = some w') :
    ∃ es, w'.log = w.log ++ es ∧ regs es = [] ∧ (takens es).length ≤ 1 := by
  obtain ⟨msg, v, frags, size, overrun, hdisp, hlog⟩ := callUserCb_collated hE h
  obtain ⟨es, hes, hreg, htaken⟩ := dispatchReply_takes hdisp
  exact ⟨[.record frags size, .collated msg overrun] ++ es, by rw [hes, hlog, List.append_assoc], hreg, htaken⟩

/-- Processing a record leaves all registrations in the table but at most one. -/
lemma callUserCb_others {E : Env} (hE : AllocsSucceed E) {x₀ : UInt32} {w w' : World} (hi : RegInv x₀ w)
    (hn : (regs w.log).length ≤ 2 ^ 32) (h : callUserCb E noReentry w = some w') :
    ∃ taken : List Cbi, taken.length ≤ 1 ∧ takens w'.log = takens w.log ++ taken ∧
      ghtEntries w'.ct.ctXidToUcb = (ghtEntries w.ct.ctXidToUcb).filter fun e => e.2 ∉ taken.map some := by
  obtain ⟨es, hes, hreg, htaken⟩ := callUserCb_takes hE h
  have hi' : RegInv x₀ w' := by
    apply (callUserCb_acts (actsOnly_noReentry E true) h).regInv hi
    rwa [hes, regs_append, hreg, List.append_nil]
  refine ⟨takens es, htaken, by rw [hes, takens_append], ?_⟩
  rw [hi'.table.entries_eq, hi.table.entries_eq, hes, live_append hreg, List.filter_map]
  congr 1
  apply List.filter_congr
  intro e _
  have hsome : some e.2 ∈ (takens es).map some ↔ e.2 ∈ takens es :=
    List.mem_map_of_injective (Option.some_injective Cbi)
  simp only [Function.comp_apply, hsome]

/-! ## Runs -/

/-- The callbacks of the calls a run makes. -/
def callsOf (ops : List Op) : List CallbackInfo :=
  ops.filterMap fun
    | .call _ ucbi _ _ _ => some ucbi
    | .receive _ _ _ => none

def infos (log : List Event) : List CallbackInfo := (regs log).map fun r => r.1.info

/-- Receiving registers nothing. -/
lemma Acts.regs_eq {E : Env} {w w' : World} (h : Acts E false w w') : regs w'.log = regs w.log := by
  induction h with
  | refl => rfl
  | tail _ hact ih =>
    rw [← ih]
    rcases hact.books with hs | ⟨msg, xid, body, t, cbi, es, -, -, hes, -, -, -, hlog⟩ | ⟨hcalls, -⟩
    · exact hs.books.1
    · rw [hlog, regs_append]
      rcases hes with ⟨rfl, -⟩ | rfl
      · exact List.append_nil _
      · exact List.append_nil _
    · cases hcalls

lemma clnttcpNbCall_infos {E : Env} (hE : AllocsSucceed E) {rpc : RpcProcInfo} {ucbi : CallbackInfo}
    {callflag : UInt64} {w w' : World} {stat : ClntStat}
    (h : clnttcpNbCall E noReentry rpc ucbi callflag w = some (w', stat)) :
    infos w'.log = infos w.log ++ [ucbi] := by
  have hone : infos (registerCall ⟨w.serial, ucbi⟩ w.tick).log = infos w.log ++ [ucbi] := by
    simp [registerCall, infos, regs, regOf?]
  have hsame : ∀ {v v' : World}, Acts E false v v' → infos v'.log = infos v.log := by
    intro v v' hacts
    unfold infos
    rw [hacts.regs_eq]
  rcases clnttcpNbCall_cases h with ⟨hfail, -⟩ | ⟨-, v, ok, henc, ⟨-, rfl, -⟩ | ⟨-, -, n, hrec⟩⟩
  · rw [hE] at hfail
    cases hfail
  · rw [hsame (encodeCall_acts henc).acts, hone]
  · rw [hsame (clnttcpNbReceive_acts (actsOnly_noReentry E false) hrec)]
    have hissue : infos (issueCall v ⟨w.serial, ucbi⟩ rpc).log = infos v.log := by
      simp [issueCall, setPending, infos, regs, regOf?]
    rw [hissue, hsame (encodeCall_acts henc).acts, hone]

lemma runOps_infos {E : Env} (hE : AllocsSucceed E) {ops : List Op} {w w' : World}
    (h : runOps E noReentry ops w = some w') : infos w'.log = infos w.log ++ callsOf ops := by
  induction ops generalizing w with
  | nil =>
    cases h
    exact (List.append_nil _).symm
  | cons op ops ih =>
    unfold runOps at h
    split at h
    · cases h
    · rename_i v hop
      rw [ih h]
      cases op with
      | call rpc ucbi callflag reads writes =>
        simp only [Op.run, Option.map_eq_some_iff] at hop
        obtain ⟨r, hcall, rfl⟩ := hop
        rw [clnttcpNbCall_infos hE hcall, List.append_assoc]
        rfl
      | receive flag reads writes =>
        simp only [Op.run, Option.map_eq_some_iff] at hop
        obtain ⟨r, hrec, rfl⟩ := hop
        unfold infos
        rw [(clnttcpNbReceive_acts (actsOnly_noReentry E false) hrec).regs_eq]
        rfl

/-- The header of a call starts with the xid it is registered under. -/
lemma ctMcall_registerCall (cbi : Cbi) (w : World) :
    ∃ x res, (registerCall cbi w).log = w.log ++ [.registered cbi x res] ∧
      ctMcall (registerCall cbi w).ct = beBytes x ++ w.ct.ctMcallRest := by
  refine ⟨_, _, rfl, ?_⟩
  change leBytes (w.ct.ctXid - 1) ++ _ = _
  rw [leBytes_eq_beBytes_byteSwap]
  rfl

/-- Calls are registered in order under the distinct xids of their headers, none of them is
refused, and each callback runs at most once and only for its own reply. -/
theorem reply_dispatch {E : Env} (hE : AllocsSucceed E) (hdec : DecodesXid E) {ct : CtData} (hct : Created ct)
    {ops : List Op} (hops : (callsOf ops).length < 2 ^ 32) {w : World}
    (hrun : runOps E noReentry ops (World.start ct) = some w) :
    infos w.log = callsOf ops ∧
    (regs w.log).map Prod.snd = (List.range (callsOf ops).length).map (callXid ct.ctXid) ∧
    ((regs w.log).map Prod.snd).Nodup ∧ ((regs w.log).map Prod.fst).Nodup ∧
    (∀ cbi v, ∃ x res, (registerCall cbi v).log = v.log ++ [.registered cbi x res] ∧
      ctMcall (registerCall cbi v).ct = beBytes x ++ v.ct.ctMcallRest) ∧
    (∀ cbi x res, .registered cbi x res ∈ w.log → res = 0) ∧
    (rans w.log).Nodup ∧
    (∀ pre cbi xid body post, w.log = pre ++ .ran cbi xid body :: post → RunsOwnReply E pre cbi xid body) ∧
    ∀ v v', Acts E true (World.start ct) v → (regs v.log).length < 2 ^ 32 → callUserCb E noReentry v = some v' →
      ∃ taken : List Cbi, taken.length ≤ 1 ∧ takens v'.log = takens v.log ++ taken ∧
        ghtEntries v'.ct.ctXidToUcb = (ghtEntries v.ct.ctXidToUcb).filter fun e => e.2 ∉ taken.map some := by
  have hinfos : infos w.log = callsOf ops := runOps_infos hE hrun
  have hlen : (regs w.log).length = (callsOf ops).length := by rw [← hinfos, infos, List.length_map]
  have hstart := regInv_start hct
  have hacts := runOps_acts (actsOnly_noReentry E true) hrun
  have hi : RegInv ct.ctXid w := hacts.regInv hstart (by omega)
  have hr : RanInv E w.log := by
    refine hacts.ranInv hdec hstart ⟨List.Sublist.refl _, ?_⟩ (by omega)
    intro pre cbi xid body post heq
    simp [World.start] at heq
  refine ⟨hinfos, ?_, hi.xids_nodup (by omega), hi.cbis_nodup, ctMcall_registerCall, hi.accepted,
    hr.taken.nodup hi.takenNodup, hr.own, ?_⟩
  · rw [hi.xids, hlen]
  · intro v v' hv hn h
    exact callUserCb_others hE (hv.regInv hstart hn.le) hn.le h

/-- Two calls whose replies come in the other order, then the first of them again, a reply
nobody waits for, and a record that does not decode. -/
def swappedReplies : List Op :=
  [.call ⟨1, .done⟩ ⟨some 1, 1⟩ 7 [] [.eagain], .call ⟨1, .done⟩ ⟨some 1, 2⟩ 7 [] [.eagain],
    .receive 3 [.data (encodeRecords [[acceptedReply 0xfeffff0f []], [acceptedReply 0xffffff0f [9]],
      [acceptedReply 0xfeffff0f []], [acceptedReply 0x01020304 []], [[5]]])] []]

theorem reply_dispatch_swapped :
    ∃ w, runOps replyEnv noReentry swappedReplies (World.start authnoneHandle) = some w ∧
      rans w.log = [⟨2, ⟨some 1, 2⟩⟩, ⟨0, ⟨some 1, 1⟩⟩] ∧ infos w.log = [⟨some 1, 1⟩, ⟨some 1, 2⟩] ∧
      (rans w.log).Nodup := by
  have hrun : (runOps replyEnv noReentry swappedReplies (World.start authnoneHandle)).map (fun w => rans w.log) =
      some [⟨2, ⟨some 1, 2⟩⟩, ⟨0, ⟨some 1, 1⟩⟩] := by decide +kernel
  obtain ⟨w, hw, hrans⟩ := Option.map_eq_some_iff.mp hrun
  have hdisp := reply_dispatch replyEnv_allocs (replyHeader_decodes rfl) authnoneHandle_created (by decide) hw
  exact ⟨w, hw, hrans, hdisp.1, hdisp.2.2.2.2.2.2.1⟩

end UnfsClient.Proofs
