import UnfsClient.RpcReply
import UnfsClient.Proofs.Dispatch
import UnfsClient.Proofs.MemoryPressure

/-!
# Reply status and callbacks

A callback is given the bytes after the reply header and nothing of the header itself. So what it
is called with does not depend on the status of the reply.
-/

namespace UnfsClient.Proofs

open Lib

/-- `call_user_cb` is about to run on a record made of the reply header `hdr`, which says `m`, and
`body`. The call of `cbi` is outstanding under the xid of `m`. -/
structure ReplyRecord (E : Env) (w : World) (hdr body : Bytes) (m : ReplyMsg) (cbi : Cbi) : Prop where
  reached : ∃ ct, Created ct ∧ Acts E true (World.start ct) w
  calls : (regs w.log).length ≤ 2 ^ 32
  header : xdrReplymsg.decode hdr = some (m, [])
  bytes : (fragPayloads w.rs.rsFragList).flatten = hdr ++ body
  size : w.rs.rsRecordsize = (hdr ++ body).length
  fits : (hdr ++ body).length < 2 ^ 31
  outstanding : ∃ x : UInt32, m.rmXid = x.toUInt64 ∧ (leBytes x, cbi) ∈ live w.log

/-- What `call_user_cb` invokes, and on which bytes. -/
def presented (E : Env) (w : World) : Option (Cbi × Bytes) :=
  (callUserCb E noReentry w).bind fun v => v.log.getLast?.bind invocationOf?

/-- The callback is invoked for successful replies only: another reply is not presented to it, and
in particular not the way a successful reply with the same remaining bytes is. -/
def PresentsOnlySuccess (E : Env) (w : World) (body : Bytes) (m : ReplyMsg) (cbi : Cbi) : Prop :=
  (presented E w ≠ none → m.success = true) ∧
  (m.success = false → ∀ w' hdr' m', ReplyRecord E w' hdr' body m' cbi → m'.success = true →
    ∀ a, presented E w = some a → presented E w' ≠ some a)

/-- A decoded header is what precedes the rest of the message. -/
lemma replyHeader_append {hdr : Bytes} {m : ReplyMsg} (h : xdrReplymsg.decode hdr = some (m, [])) (body : Bytes) :
    replyHeader (hdr ++ body) = some (m.rmXid, body) := by
  unfold replyHeader
  rw [xdrReplymsg.streams.append h body]
  rfl

/-- `rm_xid` is read from one word. -/
lemma replyHeader_xid {msg body : Bytes} {xid : UInt64} (h : replyHeader msg = some (xid, body)) :
    ∃ x : UInt32, xid = x.toUInt64 := by
  obtain ⟨⟨m, r⟩, hdec, heq⟩ := Option.map_eq_some_iff.mp h
  obtain ⟨rfl, rfl⟩ := Prod.mk.inj heq
  obtain ⟨⟨f, s⟩, hf, hrest⟩ := Option.bind_eq_some_iff.mp hdec
  obtain ⟨⟨xid, s'⟩, hxid, hmk⟩ := Option.bind_eq_some_iff.mp hf
  obtain ⟨⟨reply, s''⟩, -, hm⟩ := Option.bind_eq_some_iff.mp hrest
  obtain ⟨⟨x, t⟩, -, hx⟩ := Option.bind_eq_some_iff.mp hxid
  cases hmk
  cases hm
  cases hx
  exact ⟨x, rfl⟩

lemma dispatchReply_found {E : Env} (exec : Exec) {msg body : Bytes} {xid : UInt64} {w : World}
    {t : GhtHashTable Cbi} {cbi : Cbi} (hdec : E.xdrReplymsg msg = some (xid, body))
    (htake : takeCallback w.ct.ctXidToUcb xid = (t, some cbi)) :
    dispatchReply E exec msg w =
      match cbi.info.callback with
      | none => some (dropEntry (countReceived w msg) t cbi)
      | some _ => exec cbi body ((dropEntry (countReceived w msg) t cbi).note (.ran cbi xid body)) := by
  simp only [dispatchReply, hdec, htake]
  rfl

section

variable {E : Env} (hE : ∀ msg, E.xdrReplymsg msg = replyHeader msg) {w : World} {hdr body : Bytes} {m : ReplyMsg}
  {cbi : Cbi} (h : ReplyRecord E w hdr body m cbi)

include hE h

/-- The record goes to its callback. -/
lemma ReplyRecord.callUserCb_eq (hgrant : CollateGranted E w) :
    ∃ v t, ∀ exec, callUserCb E exec w =
      match cbi.info.callback with
      | none => some (dropEntry v t cbi)
      | some _ => exec cbi body ((dropEntry v t cbi).note (.ran cbi m.rmXid body)) := by
  obtain ⟨ct, hct, hacts⟩ := h.reached
  obtain ⟨x, hx, hlive⟩ := h.outstanding
  have hi : RegInv ct.ctXid w := hacts.regInv (regInv_start hct) h.calls
  obtain ⟨t, htake⟩ := hi.takeCallback_live hlive
  have hsize : cUlong w.rs.rsRecordsize = (hdr ++ body).length := by
    rw [h.size]
    exact cUlong_of_range (by have := h.fits; omega)
  have halloc : E.memAlloc w.serial (hdr ++ body).length = true := by
    rw [← hsize]
    exact hgrant
  refine ⟨countReceived (collateRecord w (hdr ++ body) 0) (hdr ++ body), t, fun exec => ?_⟩
  rw [Proofs.callUserCb_eq exec halloc h.size h.fits (by rw [h.bytes]), h.bytes]
  simp only [List.take_length, Nat.sub_self]
  have hdec : E.xdrReplymsg (hdr ++ body) = some (m.rmXid, body) := by
    rw [hE, replyHeader_append h.header]
  rw [← hx] at htake
  exact dispatchReply_found exec hdec htake

lemma ReplyRecord.presented_of_granted (hgrant : CollateGranted E w) (hcb : cbi.info.callback ≠ none) :
    presented E w = some (cbi, body) := by
  obtain ⟨v, t, heq⟩ := h.callUserCb_eq hE hgrant
  unfold presented
  rw [heq]
  obtain ⟨f, hf⟩ := Option.ne_none_iff_exists'.mp hcb
  simp [hf, noReentry, invocationOf?]

/-- Without a buffer for the record, or without a callback, nothing is invoked. -/
lemma ReplyRecord.presented_none (hno : ¬CollateGranted E w ∨ cbi.info.callback = none) : presented E w = none := by
  unfold presented
  by_cases hgrant : CollateGranted E w
  · have hcb := hno.resolve_left (not_not.mpr hgrant)
    obtain ⟨v, t, heq⟩ := h.callUserCb_eq hE hgrant
    rw [heq]
    simp [hcb, dropEntry, invocationOf?]
  · have hgrant' : ¬CollateGranted E (w.note (.record (fragPayloads w.rs.rsFragList) w.rs.rsRecordsize)) := hgrant
    unfold callUserCb
    dsimp only
    rw [collateBufList_refused hgrant']
    simp [invocationOf?]

/-- The callback is called on exactly the bytes after the reply header, alike for every reply with
these bytes; so it sees successful replies only if the reply is one or it is not called at all. -/
theorem reply_presented_iff :
    (CollateGranted E w → cbi.info.callback ≠ none →
      presented E w = some (cbi, body) ∧ ∃ v, ∀ exec, callUserCb E exec w = exec cbi body v) ∧
    (∀ a, presented E w = some a → ∀ w' hdr' m', ReplyRecord E w' hdr' body m' cbi → CollateGranted E w' →
      presented E w' = some a) ∧
    (PresentsOnlySuccess E w body m cbi ↔
      m.success = true ∨ ¬CollateGranted E w ∨ cbi.info.callback = none) := by
  have hinvoked : ∀ {a}, presented E w = some a → a = (cbi, body) ∧ cbi.info.callback ≠ none := by
    intro a ha
    by_contra hna
    by_cases hno : ¬CollateGranted E w ∨ cbi.info.callback = none
    · rw [h.presented_none hE hno] at ha
      cases ha
    · obtain ⟨hgrant, hcb⟩ := not_or.mp hno
      rw [h.presented_of_granted hE (not_not.mp hgrant) hcb] at ha
      exact hna ⟨(Option.some.inj ha).symm, hcb⟩
  refine ⟨?_, ?_, ?_, ?_⟩
  · intro hgrant hcb
    refine ⟨h.presented_of_granted hE hgrant hcb, ?_⟩
    obtain ⟨v, t, heq⟩ := h.callUserCb_eq hE hgrant
    obtain ⟨f, hf⟩ := Option.ne_none_iff_exists'.mp hcb
    refine ⟨(dropEntry v t cbi).note (.ran cbi m.rmXid body), fun exec => ?_⟩
    rw [heq, hf]
  · intro a ha w' hdr' m' h' hgrant'
    obtain ⟨rfl, hcb⟩ := hinvoked ha
    exact h'.presented_of_granted hE hgrant' hcb
  · intro honly
    by_contra hno
    obtain ⟨hfail, hno⟩ := not_or.mp hno
    obtain ⟨hgrant, hcb⟩ := not_or.mp hno
    apply hfail
    apply honly.1
    rw [h.presented_of_granted hE (not_not.mp hgrant) hcb]
    exact Option.some_ne_none _
  · rintro (hok | hno)
    · exact ⟨fun _ => hok, fun hfail => absurd (hok.symm.trans hfail) (by decide)⟩
    · have hnone := h.presented_none hE hno
      refine ⟨fun hne => absurd hnone hne, fun _ w' hdr' m' _ _ a ha => ?_⟩
      rw [hnone] at ha
      cases ha

end

/-! ## A procedure without results -/

/-- A record of one fragment is complete. -/
def withRecord (w : World) (msg : Bytes) : World :=
  w.setRs { w.rs with rsFragList := [⟨⟨0, msg⟩, 0, msg.length⟩], rsRecordsize := msg.length }

/-- A call of `MOUNTPROC3_UMNT`. -/
def umntCall : List Op := [.call ⟨3, .done⟩ ⟨some 1, 7⟩ 7 [] [.eagain]]

def umntCbi : Cbi := ⟨0, ⟨some 1, 7⟩⟩

def umntXid : UInt32 := 0xffffff0f

/-- `MSG_DENIED` with `AUTH_ERROR`. -/
def umntDenied : ReplyMsg :=
  ⟨umntXid.toUInt64, .named .reply, .named .msgDenied, .named .authError, .named .tooweak⟩

lemma noVerifier_short : ([] : Bytes).length < 2 ^ 32 := by decide

def umntAccepted : ReplyMsg :=
  ⟨umntXid.toUInt64, .named .reply, .named .msgAccepted, ⟨0, ⟨[], noVerifier_short⟩⟩, .named .success, ()⟩

lemma umntCall_runs : ∃ w, runOps replyEnv noReentry umntCall (World.start authnoneHandle) = some w ∧
    regs w.log = [(umntCbi, umntXid)] ∧ takens w.log = [] := by
  have hrun : (runOps replyEnv noReentry umntCall (World.start authnoneHandle)).map
      (fun w => (regs w.log, takens w.log)) = some ([(umntCbi, umntXid)], []) := by rfl
  obtain ⟨w, hw, hlog⟩ := Option.map_eq_some_iff.mp hrun
  obtain ⟨hregs, htakens⟩ := Prod.mk.inj hlog
  exact ⟨w, hw, hregs, htakens⟩

lemma umntCall_replyRecord {w : World} (hrun : runOps replyEnv noReentry umntCall (World.start authnoneHandle) = some w)
    (hregs : regs w.log = [(umntCbi, umntXid)]) (htakens : takens w.log = []) {m : ReplyMsg}
    (hxid : m.rmXid = umntXid.toUInt64) (hok : (xdrReplymsg.encode m).ok = true)
    (hbools : xdrReplymsg.boolsOk m = true) (hfits : (xdrReplymsg.encode m).bytes.length < 2 ^ 31) :
    ReplyRecord replyEnv (withRecord w (xdrReplymsg.encode m).bytes) (xdrReplymsg.encode m).bytes [] m umntCbi := by
  have hacts := runOps_acts (actsOnly_noReentry replyEnv true) hrun
  refine ⟨⟨_, authnoneHandle_created, hacts.tail (.setRs _ _)⟩, ?_, ?_, ?_, ?_, ?_, umntXid, hxid, ?_⟩
  · simp [withRecord, hregs]
  · have hdec := xdrReplymsg.decode_encode m [] hbools hok
    rwa [List.append_nil, xdrReplymsg.part_eq] at hdec
  · simp [withRecord, fragPayloads]
  · simp [withRecord]
  · simpa using hfits
  · simp [withRecord, live, hregs, htakens]

theorem reply_presented_iff_umnt :
    ∃ w, ReplyRecord replyEnv w (xdrReplymsg.encode umntAccepted).bytes [] umntAccepted umntCbi ∧
      PresentsOnlySuccess replyEnv w [] umntAccepted umntCbi := by
  obtain ⟨w, hw, hregs, htakens⟩ := umntCall_runs
  have hrec := umntCall_replyRecord hw hregs htakens (m := umntAccepted) rfl rfl rfl (by decide)
  exact ⟨_, hrec, (reply_presented_iff (fun _ => rfl) hrec).2.2.mpr (Or.inl rfl)⟩

/-- The denial of a call and its success look the same to the callback. -/
theorem denial_presented_as_success :
    ∃ w w', ReplyRecord replyEnv w (xdrReplymsg.encode umntDenied).bytes [] umntDenied umntCbi ∧
      ReplyRecord replyEnv w' (xdrReplymsg.encode umntAccepted).bytes [] umntAccepted umntCbi ∧
      umntDenied.success = false ∧ umntAccepted.success = true ∧
      presented replyEnv w = some (umntCbi, []) ∧ presented replyEnv w' = presented replyEnv w ∧
      ¬PresentsOnlySuccess replyEnv w [] umntDenied umntCbi := by
  obtain ⟨w, hw, hregs, htakens⟩ := umntCall_runs
  have hden := umntCall_replyRecord hw hregs htakens (m := umntDenied) rfl rfl rfl (by decide)
  have hacc := umntCall_replyRecord hw hregs htakens (m := umntAccepted) rfl rfl rfl (by decide)
  have hp := hden.presented_of_granted (fun _ => rfl) rfl (by decide)
  have hp' := hacc.presented_of_granted (fun _ => rfl) rfl (by decide)
  refine ⟨_, _, hden, hacc, rfl, rfl, hp, hp'.trans hp.symm, fun honly => ?_⟩
  exact honly.2 rfl _ _ _ hacc rfl _ hp hp'

end UnfsClient.Proofs
