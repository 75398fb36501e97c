import UnfsClient.Proofs.AnsweredCalls
import UnfsClient.Proofs.ReplyStatus
import UnfsClient.Proofs.RequestStream

/-!
# A client and a server

The two byte streams of a handle closed by a server: what it reads are the requests of
`RequestStream`, and each of its replies carries the xid of a request it has been sent. Whatever
order it answers in, and whatever the callbacks do meanwhile short of reading data, the results of
a request are what the callback of its own call is given, once.
-/

namespace UnfsClient.Proofs

open Lib RecordMarking Relation

/-! ## Records and the messages collated from them -/

/-- Every message was collated from a record. -/
def CollatedInv (E : Env) (log : List Event) : Prop :=
  ∀ c ∈ collatedOf log, ∃ e ∈ recordsOf log, c.1 = e.1.flatten.take (cUlong e.2) ++
    (List.range (cUlong e.2 - e.1.flatten.length)).map fun i => E.uninit (e.1.flatten.length + i)

lemma recordsOf_append (a b : List Event) : recordsOf (a ++ b) = recordsOf a ++ recordsOf b :=
  List.filterMap_append

lemma CollatedInv.append {E : Env} {log es : List Event} (h : CollatedInv E log) (hes : collatedOf es = []) :
    CollatedInv E (log ++ es) := by
  intro c hc
  rw [collatedOf_append, hes, List.append_nil] at hc
  obtain ⟨e, he, hce⟩ := h c hc
  exact ⟨e, by rw [recordsOf_append]; exact List.mem_append_left _ he, hce⟩

lemma collatedOf_nil {es : List Event} {p : Event → Bool} (h : ∀ e ∈ es, p e = true)
    (hp : ∀ msg overrun, p (.collated msg overrun) = false) : collatedOf es = [] := by
  apply List.filterMap_eq_nil_iff.mpr
  intro e he
  have hpe := h e he
  cases e with
  | collated msg overrun =>
    rw [hp] at hpe
    cases hpe
  | _ => rfl

lemma ApiStep.collatedInv {E : Env} {calls : Bool} (hE : AllocsSucceed E) {w w' : World} (h : ApiStep E calls w w')
    (hinv : CollatedInv E w.log) : CollatedInv E w'.log := by
  have hencoded : ∀ {rpc : RpcProcInfo} {cbi : Cbi} {v : World} {ok : Bool},
      encodeCall E rpc (registerCall cbi w.tick) = some (v, ok) → CollatedInv E v.log := by
    intro rpc cbi v ok henc
    obtain ⟨es, hes, htr⟩ := (encodeCall_acts henc).txOnly.log
    rw [hes]
    exact (hinv.append rfl).append (collatedOf_nil htr fun _ _ => rfl)
  cases h with
  | kept h =>
    obtain ⟨es, hes, hoff⟩ := h.log
    rw [hes]
    exact hinv.append (collatedOf_nil hoff fun _ _ => rfl)
  | collate =>
    intro c hc
    simp only [collated, collateBufList, World.alloc_of_succeeds hE, World.note_log, World.setRs_log, World.tick_log,
      collatedOf_append, recordsOf_append] at hc ⊢
    rcases List.mem_append.mp hc with hc | hc
    · rcases List.mem_append.mp hc with hc | hc
      · obtain ⟨e, he, hce⟩ := hinv c hc
        exact ⟨e, List.mem_append_left _ (List.mem_append_left _ he), hce⟩
      · cases hc
    · obtain rfl := List.mem_singleton.mp hc
      exact ⟨_, List.mem_append_left _ (List.mem_append_right _ (List.mem_singleton_self _)), rfl⟩
  | failed _ henc => exact hencoded henc
  | issue _ henc => exact (hencoded henc).append rfl

lemma ApiSteps.collatedInv {E : Env} {calls : Bool} (hE : AllocsSucceed E) {w w' : World} (h : ApiSteps E calls w w')
    (hinv : CollatedInv E w.log) : CollatedInv E w'.log := by
  induction h with
  | refl => exact hinv
  | tail _ hstep ih => exact hstep.collatedInv hE ih

/-- On a well answered stream a collated message is a record of the stream, up to the size of its
last fragment. -/
lemma Serving.collated {E : Env} {k : Int} {w : World} (h : Serving E k w) (hinv : CollatedInv E w.log)
    {msg : Bytes} {overrun : Nat} (hmem : (msg, overrun) ∈ collatedOf w.log) :
    ∃ r ∈ (received w.log).2, msg = (collatedEntry r).1 := by
  obtain ⟨e, he, hmsg⟩ := hinv _ hmem
  rw [h.records] at he
  obtain ⟨r, hr, rfl⟩ := List.mem_map.mp he
  refine ⟨r, hr, ?_⟩
  have hlast : lastSize r ≤ r.flatten.length := by
    unfold lastSize
    cases hl : r.getLast? with
    | none => exact Nat.zero_le _
    | some p =>
      obtain ⟨ps, rfl⟩ := List.getLast?_eq_some_iff.mp hl
      simp
  have hsmall : lastSize r < 2 ^ 31 := by
    have hsized := feed_sized sized_fresh (buffers w.log).flatten r hr
    unfold lastSize
    cases hl : r.getLast? with
    | none => decide
    | some p => exact hsized p (List.mem_of_getLast? hl)
  have hsize : cUlong (recordEntry r).2 = lastSize r := cUlong_of_range (by omega)
  have hnone : lastSize r - (recordEntry r).1.flatten.length = 0 := Nat.sub_eq_zero_of_le hlast
  rw [hsize, hnone, List.range_zero, List.map_nil, List.append_nil] at hmsg
  exact hmsg

/-! ## Callbacks that run -/

lemma rans_eq (log : List Event) : rans log = (invocations log).map Prod.fst := by
  induction log with
  | nil => rfl
  | cons e log ih =>
    cases e with
    | ran cbi xid body => exact congrArg (cbi :: ·) ih
    | _ => exact ih

lemma Act.invoked {E : Env} {calls : Bool} {w w' : World} (h : Act E calls w w')
    (hi : ∀ a ∈ invocations w.log, a.1.info.callback ≠ none) :
    ∀ a ∈ invocations w'.log, a.1.info.callback ≠ none := by
  have hnote : ∀ es, invocations es = [] → ∀ a ∈ invocations (w.log ++ es), a.1.info.callback ≠ none := by
    intro es hes
    rwa [invocations_append, hes, List.append_nil]
  cases h with
  | tx h =>
    obtain ⟨es, hes, htr⟩ := h.txOnly.log
    rw [hes]
    exact hnote es (transmit_quiet htr).2
  | @parsed _ e he =>
    apply hnote [e]
    cases e <;> first | rfl | cases he
  | @deliver _ msg xid body t cbi hdec htake hcb =>
    intro a ha
    have hlog : ((dropEntry (countReceived w msg) t cbi).note (.ran cbi xid body)).log =
        w.log ++ [.taken cbi, .ran cbi xid body] := List.append_assoc _ _ _
    rw [hlog, invocations_append] at ha
    rcases List.mem_append.mp ha with ha | ha
    · exact hi a ha
    · rw [List.mem_singleton.mp ha]
      exact hcb
  | read _ => exact hnote _ rfl
  | take _ _ _ => exact hnote _ rfl
  | register _ _ _ => exact hnote _ rfl
  | issue _ _ => exact hnote _ rfl
  | _ => exact hi

lemma Acts.invoked {E : Env} {calls : Bool} {w w' : World} (h : Acts E calls w w')
    (hi : ∀ a ∈ invocations w.log, a.1.info.callback ≠ none) :
    ∀ a ∈ invocations w'.log, a.1.info.callback ≠ none := by
  induction h with
  | refl => exact hi
  | tail _ hact ih => exact hact.invoked ih

/-- The callbacks that run are those of the entries taken out, in the same order. -/
lemma RanInv.rans_takens {E : Env} {log : List Event} (h : RanInv E log) (htr : TakenRan log)
    (hnd : (takens log).Nodup) (hcb : ∀ a ∈ invocations log, a.1.info.callback ≠ none) :
    rans log = (takens log).filter fun cbi => cbi.info.callback ≠ none := by
  have hcb' : ∀ cbi ∈ rans log, cbi.info.callback ≠ none := by
    intro cbi hmem
    rw [rans_eq] at hmem
    obtain ⟨a, ha, rfl⟩ := List.mem_map.mp hmem
    exact hcb a ha
  have hsub : (rans log).Sublist ((takens log).filter fun cbi => cbi.info.callback ≠ none) := by
    have hf := h.taken.filter fun cbi => decide (cbi.info.callback ≠ none)
    rwa [List.filter_eq_self.mpr fun cbi hmem => decide_eq_true (hcb' cbi hmem)] at hf
  refine hsub.eq_of_length_le ((hnd.filter _).length_le_of_subset ?_)
  intro cbi hmem
  obtain ⟨htaken, hne⟩ := List.mem_filter.mp hmem
  exact (htr cbi (of_decide_eq_true hne)).mp htaken

/-! ## Lists that go together -/

lemma forall₂_mem_right {α β : Type} {P : α → β → Prop} {l : List α} {m : List β} (h : List.Forall₂ P l m) {b : β}
    (hb : b ∈ m) : ∃ a ∈ l, P a b := by
  induction h with
  | nil => cases hb
  | @cons a c l m hac _ ih =>
    rcases List.mem_cons.mp hb with rfl | hb
    · exact ⟨a, List.mem_cons_self, hac⟩
    · obtain ⟨a', ha', hab⟩ := ih hb
      exact ⟨a', List.mem_cons_of_mem _ ha', hab⟩

/-- What is found for each pair is put together into a list. -/
lemma forall₂_collect {α β γ : Type} {P : α → β → Prop} {Q : α → β × γ → Prop} {l : List α} {m : List β}
    (h : List.Forall₂ P l m) (hfind : ∀ a ∈ l, ∀ b, P a b → ∃ c, Q a (b, c)) :
    ∃ found : List (β × γ), found.map Prod.fst = m ∧ List.Forall₂ Q l found := by
  induction h with
  | nil => exact ⟨[], rfl, .nil⟩
  | @cons a b l m hab _ ih =>
    obtain ⟨c, hc⟩ := hfind a List.mem_cons_self b hab
    obtain ⟨found, hmap, hall⟩ := ih fun a' ha' => hfind a' (List.mem_cons_of_mem _ ha')
    exact ⟨(b, c) :: found, by rw [List.map_cons, hmap], .cons hc hall⟩

lemma eq_of_map_fst_eq {β γ : Type} {l m : List (β × γ)} (h : l.map Prod.fst = m.map Prod.fst)
    (hsame : ∀ a ∈ l, ∀ b ∈ m, a.1 = b.1 → a = b) : l = m := by
  induction l generalizing m with
  | nil => exact (List.map_eq_nil_iff.mp h.symm).symm
  | cons a l ih =>
    obtain ⟨b, m, rfl⟩ := List.exists_cons_of_ne_nil (l := m) (by rintro rfl; cases h)
    obtain ⟨hab, hrest⟩ := List.cons.inj h
    rw [hsame a List.mem_cons_self b List.mem_cons_self hab]
    congr 1
    exact ih hrest fun a ha b hb => hsame a (List.mem_cons_of_mem _ ha) b (List.mem_cons_of_mem _ hb)

/-! ## The server -/

/-- The record is a reply to the request `q`, in one fragment, with results that `R` allows. -/
def Replies (R : Bytes → Bytes → Prop) (q : Bytes) : List Bytes → Prop
  | [m] =>
    match replyHeader m with
    | some (xid, body) => q.take 4 = beBytes xid.toUInt32 ∧ R q body
    | none => False
  | _ => False

instance (R : Bytes → Bytes → Prop) [DecidableRel R] (q : Bytes) : (r : List Bytes) → Decidable (Replies R q r)
  | [m] =>
    match h : replyHeader m with
    | some (xid, body) => decidable_of_iff (q.take 4 = beBytes xid.toUInt32 ∧ R q body) (by simp [Replies, h])
    | none => isFalse (by simp [Replies, h])
  | [] => isFalse (by simp [Replies])
  | _ :: _ :: _ => isFalse (by simp [Replies])

lemma Replies.reply {R : Bytes → Bytes → Prop} {q : Bytes} {r : List Bytes} (h : Replies R q r) :
    ∃ m x body, r = [m] ∧ replyHeader m = some (UInt32.toUInt64 x, body) ∧ q.take 4 = beBytes x ∧ R q body := by
  unfold Replies at h
  split at h
  · rename_i m
    split at h
    · rename_i xid body hm
      obtain ⟨x, rfl⟩ := replyHeader_xid hm
      rw [UInt32.toUInt32_toUInt64] at h
      exact ⟨m, x, body, rfl, hm, h⟩
    · exact h.elim
  · exact h.elim

/-- After the history `pre` these bytes are read. They come after a whole marker, and all records
received with them are replies to different requests of this history. -/
def ServedRead (E : Env) (R : Bytes → Bytes → Prop) (pre : List Event) (b : Bytes) : Prop :=
  ¬MidMarker (feed fresh (buffers pre).flatten).1 ∧
    ((feed fresh ((buffers pre).flatten ++ b)).2.map (replyXid E)).Nodup ∧
    ∀ r ∈ (feed fresh ((buffers pre).flatten ++ b)).2, ∃ q ∈ (onWire pre).2, Replies R q.flatten r

instance (E : Env) (R : Bytes → Bytes → Prop) [DecidableRel R] (pre : List Event) (b : Bytes) :
    Decidable (ServedRead E R pre b) :=
  inferInstanceAs (Decidable (_ ∧ _ ∧ _))

/-- Everything that is read comes from a server whose results are related to its requests by `R`. -/
def ServerReplies (E : Env) (R : Bytes → Bytes → Prop) (log : List Event) : Prop :=
  ∀ i < log.length, ∀ b ∈ log[i]?.bind bufferOf?, ServedRead E R (log.take i) b

instance (E : Env) (R : Bytes → Bytes → Prop) [DecidableRel R] (log : List Event) :
    Decidable (ServerReplies E R log) :=
  inferInstanceAs (Decidable (∀ i < log.length, _))

section

variable {E : Env} {R : Bytes → Bytes → Prop} (hdec : E.xdrReplymsg = replyHeader)

include hdec

/-- The xid `call_user_cb` reads in a reply is the one of the request. -/
lemma Replies.xid {q : Bytes} {r : List Bytes} (h : Replies R q r) :
    ∃ x body, replyXid E r = some (UInt32.toUInt64 x) ∧ replyHeader r.flatten = some (x.toUInt64, body) ∧
      (collatedEntry r).1 = r.flatten ∧ q.take 4 = beBytes x ∧ R q body := by
  obtain ⟨m, x, body, rfl, hm, hq, hR⟩ := h.reply
  have hmsg : ([m] : List Bytes).flatten.take (lastSize [m]) = m := by simp [lastSize]
  have hflat : ([m] : List Bytes).flatten = m := List.flatten_singleton
  refine ⟨x, body, ?_, by rw [hflat]; exact hm, hmsg.trans hflat.symm, hq, hR⟩
  rw [replyXid, hmsg, hdec, hm]
  rfl

/-- What the server sends answers calls. -/
lemma ServerReplies.wellAnswered {ct : CtData} {w : World} (h : ServerReplies E R w.log) (hw : Ready ct w) :
    WellAnswered E w.log := by
  intro i hi b hb
  obtain ⟨hmid, hnd, hall⟩ := h i hi b hb
  refine ⟨hmid, hnd, ?_⟩
  intro r hr
  obtain ⟨q, hq, hrep⟩ := hall r hr
  obtain ⟨x, body, hx, -, -, hqx, -⟩ := hrep.xid hdec
  have hread : ∃ depth, w.log.take i ++ [.read depth (.data b)] <+: w.log := by
    obtain ⟨e, he, hbuf⟩ := Option.bind_eq_some_iff.mp hb
    cases e with
    | read depth res =>
      cases res with
      | data b' =>
        obtain rfl := Option.some.inj hbuf
        refine ⟨depth, w.log.drop (i + 1), ?_⟩
        have hget : w.log[i] = .read depth (.data b') := (List.getElem?_eq_some_iff.mp he).2
        rw [List.append_assoc, ← hget, List.singleton_append, ← List.drop_eq_getElem_cons hi, List.take_append_drop]
      | _ => cases hbuf
    | _ => cases hbuf
  obtain ⟨depth, hpre⟩ := hread
  obtain ⟨c, hc, hreq⟩ := (hw.reads _ _ _ hpre).mem hq
  refine ⟨(c.cbi, c.xid), by rw [issued_eq]; exact List.mem_map.mpr ⟨c, hc, rfl⟩, ?_⟩
  rw [hreq, CallMade.message, callMessage_xid] at hqx
  rw [hx, beBytes_injective hqx]

omit hdec in
/-- Everything received was received with the last read. -/
lemma ServerReplies.received {log : List Event} (h : ServerReplies E R log) :
    ((received log).2.map (replyXid E)).Nodup ∧
      ∀ r ∈ (received log).2, ∃ q ∈ (onWire log).2, Replies R q.flatten r := by
  induction log using List.reverseRecOn with
  | nil => exact ⟨.nil, by simp [UnfsClient.Proofs.received, buffers, feed]⟩
  | append_singleton log e ih =>
    have hclosed : ServerReplies E R log := by
      intro i hi b hb
      have hserved := h i (by rw [List.length_append]; omega) b (by rwa [List.getElem?_append_left hi])
      rwa [List.take_append_of_le_length hi.le] at hserved
    have hwire : (onWire log).2 ⊆ (onWire (log ++ [e])).2 := (onWire_grows (List.prefix_append log [e])).subset
    cases hbuf : bufferOf? e with
    | none =>
      have hsame : UnfsClient.Proofs.received (log ++ [e]) = UnfsClient.Proofs.received log := by
        simp [UnfsClient.Proofs.received, buffers, hbuf]
      obtain ⟨hnd, hall⟩ := ih hclosed
      rw [hsame]
      refine ⟨hnd, fun r hr => ?_⟩
      obtain ⟨q, hq, hrep⟩ := hall r hr
      exact ⟨q, hwire hq, hrep⟩
    | some b =>
      have hlast := h log.length (by simp) b (by simp [hbuf])
      rw [List.take_left] at hlast
      have hnow : UnfsClient.Proofs.received (log ++ [e]) = feed fresh ((buffers log).flatten ++ b) := by
        simp [UnfsClient.Proofs.received, buffers, hbuf]
      obtain ⟨-, hnd, hall⟩ := hlast
      rw [hnow]
      refine ⟨hnd, fun r hr => ?_⟩
      obtain ⟨q, hq, hrep⟩ := hall r hr
      exact ⟨q, hwire hq, hrep⟩

end

/-- The record answers the request of the call `a.1`, and its results are `a.2`. -/
def Answered (R : Bytes → Bytes → Prop) (ct : CtData) (log : List Event) (r : List Bytes) (a : Cbi × Bytes) : Prop :=
  ∃ c ∈ callsMade log, c.cbi = a.1 ∧ c.message ct ∈ (onWire log).2.map List.flatten ∧
    replyHeader r.flatten = some (c.xid.toUInt64, a.2) ∧ R (c.message ct) a.2

lemma Answered.issued {R : Bytes → Bytes → Prop} {ct : CtData} {log : List Event} {r : List Bytes} {a : Cbi × Bytes}
    (h : Answered R ct log r a) :
    ∃ x : UInt32, (a.1, x) ∈ issued log ∧ replyHeader r.flatten = some (x.toUInt64, a.2) := by
  obtain ⟨c, hc, hcbi, -, hrep, -⟩ := h
  exact ⟨c.xid, by rw [issued_eq]; exact List.mem_map.mpr ⟨c, hc, by rw [hcbi]⟩, hrep⟩

section

variable {E : Env} (hdec : E.xdrReplymsg = replyHeader) {R : Bytes → Bytes → Prop} {ct : CtData} {w : World}
  {x₀ : UInt32}

include hdec

/-- The call a record was served to is the one whose request it answers. -/
lemma ServedBy.answered {r : List Bytes} {cbi : Cbi} (h : ServedBy E w.log r cbi) (hw : Ready ct w)
    (hxids : ((callsMade w.log).map CallMade.xid).Nodup) (hrep : ∃ q ∈ (onWire w.log).2, Replies R q.flatten r) :
    ∃ body, Answered R ct w.log r (cbi, body) := by
  obtain ⟨y, hmem, hy⟩ := h
  obtain ⟨q, hq, hrep⟩ := hrep
  obtain ⟨x, body, hx, hbody, -, hqx, hR⟩ := hrep.xid hdec
  obtain ⟨c, hc, hreq⟩ := hw.requested.mem hq
  rw [hreq, CallMade.message, callMessage_xid] at hqx
  obtain rfl := beBytes_injective hqx
  rw [issued_eq] at hmem
  obtain ⟨c', hc', hcy⟩ := List.mem_map.mp hmem
  obtain ⟨rfl, rfl⟩ := Prod.mk.inj hcy
  have hsame : c' = c := by
    apply List.inj_on_of_nodup_map hxids hc' hc
    rw [hx] at hy
    have hxy := congrArg UInt64.toUInt32 (Option.some.inj hy)
    simpa using hxy.symm
  subst hsame
  rw [hreq] at hR
  exact ⟨body, c', hc', rfl, List.mem_map.mpr ⟨q, hq, hreq⟩, hbody, hR⟩

/-- A callback is given the results of the record its call was served with. -/
lemma invocation_answered (hs : Serving E 0 w) (hi : RegInv x₀ w) (hiss : IssuedInv w.log) (hran : RanInv E w.log)
    (hcol : CollatedInv E w.log) (hsrv : ServerReplies E R w.log) {a b : Cbi × Bytes} {r : List Bytes}
    (ha : a ∈ invocations w.log) (hb : Answered R ct w.log r b) (hr : r ∈ (received w.log).2) (hab : a.1 = b.1) :
    a = b := by
  obtain ⟨hnd, hall⟩ := hsrv.received
  obtain ⟨e, he, hea⟩ := List.mem_filterMap.mp ha
  obtain ⟨cbi, xid, body, rfl⟩ : ∃ cbi xid body, e = .ran cbi xid body := by
    cases e <;> first | exact ⟨_, _, _, rfl⟩ | cases hea
  obtain rfl := Option.some.inj hea
  obtain ⟨pre, post, hlog⟩ := List.append_of_mem he
  obtain ⟨pre', msg, overrun, x, rfl, hmsg, -, rfl, hreg⟩ := hran.own pre cbi xid body post hlog
  have hmem : (msg, overrun) ∈ collatedOf w.log :=
    List.mem_filterMap.mpr ⟨.collated msg overrun, by simp [hlog], rfl⟩
  obtain ⟨r', hr', rfl⟩ := hs.collated hcol hmem
  obtain ⟨q', -, hrep'⟩ := hall r' hr'
  obtain ⟨x', body', hx', hbody', hflat', -, -⟩ := hrep'.xid hdec
  rw [hdec, hflat', hbody'] at hmsg
  obtain ⟨hxx, rfl⟩ := Prod.mk.inj (Option.some.inj hmsg)
  obtain ⟨y, hy, hyr⟩ := hb.issued
  have hregw : (cbi, x) ∈ regs w.log := by
    rw [hlog, regs_append, regs_append]
    exact List.mem_append_left _ (List.mem_append_left _ hreg)
  have hyw : (cbi, y) ∈ regs w.log := (hiss w.log (List.prefix_refl _)).subset (by rwa [← hab] at hy)
  obtain rfl := hi.reg_unique hregw hyw
  obtain ⟨q, -, hrep⟩ := hall r hr
  obtain ⟨z, body, hz, hbody, -, -, -⟩ := hrep.xid hdec
  rw [hbody] at hyr
  obtain ⟨hzx, rfl⟩ := Prod.mk.inj (Option.some.inj hyr)
  have hsame : r' = r := List.inj_on_of_nodup_map hnd hr' hr (by rw [hx', hz, hxx, hzx])
  subst hsame
  rw [hbody'] at hbody
  obtain ⟨-, rfl⟩ := Prod.mk.inj (Option.some.inj hbody)
  exact Prod.ext hab rfl

end

/-- The two views of a history the results of a server go through. -/
structure Settled (R : Bytes → Bytes → Prop) (ct : CtData) (w : World) (answered : List (Cbi × Bytes)) : Prop where
  ready : Ready ct w
  regInv : RegInv ct.ctXid w
  issuedInv : IssuedInv w.log
  records : List.Forall₂ (Answered R ct w.log) (received w.log).2 answered
  served : answered.map Prod.fst = takens w.log
  invoked : invocations w.log = answered.filter fun a => a.1.info.callback ≠ none
  pending : w.ct.ctPendingcalls = (issued w.log).length - answered.length

lemma runOps_settled {E : Env} (hE : AllocsSucceed E) (hdec : E.xdrReplymsg = replyHeader) {ct : CtData}
    (hct : Created ct) (hmax : ct.ctXdrs.outSize < 2 ^ 31) {R : Bytes → Bytes → Prop} (B : Behaviour) (n : Nat)
    {ops : List Op} {w : World} (hrun : runOps E (reentrant E B n) ops (World.start ct) = some w)
    (hok : issued w.log = regs w.log) (hfew : (regs w.log).length < 2 ^ 31) (hnest : NoNestedData w.log)
    (hsrv : ServerReplies E R w.log) : ∃ answered, Settled R ct w answered := by
  have hready := runOps_ready hct hmax B n hrun hok
  have hans := hsrv.wellAnswered hdec hready
  have hq := quiet_reentrant E B n
  obtain ⟨hi, hiss, hs⟩ := runOps_accounted hE hct hq hrun hans hnest hfew
  have hacts := runOps_acts hq.acts hrun
  have hran : RanInv E w.log := by
    apply hacts.ranInv (replyHeader_decodes hdec) (regInv_start hct) _ (by omega)
    exact ⟨List.Sublist.refl _, fun pre cbi xid body post heq => by simp [World.start] at heq⟩
  have hcol : CollatedInv E w.log :=
    ApiSteps.collatedInv hE (runOps_steps (reentrant_steps E B n (Or.inl rfl)) hrun) (by intro c hc; cases hc)
  have htr : TakenRan w.log := hacts.takenRan fun cbi _ => Iff.rfl
  have hcb := hacts.invoked (by intro a ha; cases ha)
  have hxids := callsMade_xids hi (hiss w.log (List.prefix_refl _)) (by omega)
  obtain ⟨answered, hmap, hall⟩ := forall₂_collect hs.served fun r hr cbi hserved =>
    hserved.answered hdec hready hxids (hsrv.received.2 r hr)
  refine ⟨answered, hready, hi, hiss, hall, hmap, ?_, ?_⟩
  · apply eq_of_map_fst_eq
    · rw [← rans_eq, hran.rans_takens htr hi.takenNodup hcb, ← hmap, List.filter_map]
      rfl
    · intro a ha b hb hab
      have hb := (List.mem_filter.mp hb).1
      obtain ⟨r, hr, hrb⟩ := forall₂_mem_right hall hb
      exact invocation_answered hdec hs hi hiss hran hcol hsrv ha hrb hr hab
  · have hlen := hs.untaken_length hi hiss
    rw [hs.pending_eq hi hiss hfew]
    rw [← hmap, List.length_map] at hlen
    omega

/-- The records a server sends are the answers to different calls; each callback runs once for
every call that was answered, in the order of the answers, on the results the server gave to the
request of that very call, and `ct_pendingcalls` counts the calls it has not answered. -/
theorem replies_reach_their_calls {E : Env} (hE : AllocsSucceed E) (hdec : E.xdrReplymsg = replyHeader)
    {ct : CtData} (hct : Created ct) (hmax : ct.ctXdrs.outSize < 2 ^ 31) (R : Bytes → Bytes → Prop) (B : Behaviour)
    (n : Nat) {ops : List Op} {w : World} (hrun : runOps E (reentrant E B n) ops (World.start ct) = some w)
    (hok : issued w.log = regs w.log) (hfew : (regs w.log).length < 2 ^ 31) (hnest : NoNestedData w.log)
    (hsrv : ServerReplies E R w.log) :
    ∃ answered : List (Cbi × Bytes), List.Forall₂ (Answered R ct w.log) (received w.log).2 answered ∧
      (answered.map Prod.fst).Nodup ∧
      invocations w.log = answered.filter (fun a => a.1.info.callback ≠ none) ∧
      w.ct.ctPendingcalls = (issued w.log).length - answered.length := by
  obtain ⟨answered, h⟩ := runOps_settled hE hdec hct hmax B n hrun hok hfew hnest hsrv
  exact ⟨answered, h.records, by rw [h.served]; exact h.regInv.takenNodup, h.invoked, h.pending⟩

/-- The results are the arguments, which come after 40 bytes. -/
def Echoes (q body : Bytes) : Prop := body = q.drop 40

instance : DecidableRel Echoes := fun _ _ => inferInstanceAs (Decidable (_ = _))

/-- Two calls, answered in the other order. -/
def echoOps : List Op :=
  [.call ⟨1, .one (.long 7)⟩ ⟨some 1, 1⟩ 7 [] [.eagain], .call ⟨1, .one (.long 9)⟩ ⟨some 1, 2⟩ 7 [] [.eagain],
    .receive 1
      [.data (encodeRecords [[acceptedReply 0xfeffff0f [0, 0, 0, 9]], [acceptedReply 0xffffff0f [0, 0, 0, 7]]])]
      [.wrote 48, .wrote 48]]

theorem replies_reach_their_calls_echo :
    ∃ w answered, runOps replyEnv (reentrant replyEnv (fun _ _ _ => .done) 1) echoOps (World.start authnoneHandle) =
        some w ∧
      List.Forall₂ (Answered Echoes authnoneHandle w.log) (received w.log).2 answered ∧
      (received w.log).2.length = 2 ∧
      invocations w.log = answered.filter (fun a => a.1.info.callback ≠ none) := by
  have hrun : (runOps replyEnv (reentrant replyEnv (fun _ _ _ => .done) 1) echoOps (World.start authnoneHandle)).map
      (fun w : World => decide (issued w.log = regs w.log ∧ (regs w.log).length < 2 ^ 31 ∧ NoNestedData w.log ∧
        ServerReplies replyEnv Echoes w.log ∧ (received w.log).2.length = 2)) = some true := by decide +kernel
  obtain ⟨w, hw, hdec⟩ := Option.map_eq_some_iff.mp hrun
  obtain ⟨hok, hfew, hnest, hsrv, htwo⟩ := of_decide_eq_true hdec
  obtain ⟨answered, hall, -, hinv, -⟩ := replies_reach_their_calls (fun _ _ => rfl) rfl authnoneHandle_created
    (by decide) Echoes _ 1 hw hok hfew hnest hsrv
  exact ⟨w, answered, hw, hall, htwo, hinv⟩

/-! ## One call of a run -/

/-- The call of `rpc` under the entry `own` has been made, with this xid. -/
structure Made (w : World) (rpc : RpcProcInfo) (own : Cbi) (x : UInt32) : Prop where
  args : rpc.inargs.ok = true
  made : ⟨own, x, rpc⟩ ∈ callsMade w.log

lemma Made.grows {w w' : World} {rpc : RpcProcInfo} {own : Cbi} {x : UInt32} (h : Made w rpc own x)
    (hlog : w.log <+: w'.log) : Made w' rpc own x := by
  refine ⟨h.args, ?_⟩
  obtain ⟨es, hes⟩ := hlog
  rw [← hes, callsMade_append]
  exact List.mem_append_left _ h.made

/-- A successful call has been made. -/
lemma clnttcpNbCall_made {E : Env} {exec : Exec} (hexec : ActsOnly E true exec) {ct : CtData} {w w' : World}
    (hsize : 4 ≤ ct.ctXdrs.outSize) (hw : Ready ct w) {rpc : RpcProcInfo} {ucbi : CallbackInfo} {callflag : UInt64}
    (h : clnttcpNbCall E exec rpc ucbi callflag w = some (w', .success)) :
    Made w' rpc ⟨w.serial, ucbi⟩ (byteSwap (w.ct.ctXid - 1)) := by
  rcases clnttcpNbCall_cases h with ⟨-, -, hstat⟩ | ⟨-, v, ok, henc, ⟨-, -, hstat⟩ | ⟨rfl, -, n, hrec⟩⟩
  · cases hstat
  · cases hstat
  have hargs : rpc.inargs.ok = true := by
    refine (encodeCall_puts ?_ henc).2.1
    rw [registerCall_xdrs, hw.outSize]
    exact hsize
  have hxid : v.ct.ctXid = w.ct.ctXid - 1 := (congrArg CtData.ctXid (encodeCall_acts henc).txOnly.ct :)
  have hmade : Made (issueCall v ⟨w.serial, ucbi⟩ rpc) rpc ⟨w.serial, ucbi⟩ (byteSwap (w.ct.ctXid - 1)) := by
    refine ⟨hargs, ?_⟩
    rw [← hxid]
    simp [issueCall, setPending, callsMade, callMade?]
  exact hmade.grows (clnttcpNbReceive_acts hexec hrec).log_grows

lemma forall₂_mem_left {α β : Type} {P : α → β → Prop} {l : List α} {m : List β} (h : List.Forall₂ P l m) {a : α}
    (ha : a ∈ l) : ∃ b ∈ m, P a b :=
  forall₂_mem_right (P := fun b a => P a b) h.flip ha

lemma replyHeader_length {msg body : Bytes} {xid : UInt64} (h : replyHeader msg = some (xid, body)) :
    body.length ≤ msg.length := by
  obtain ⟨⟨m, r⟩, hm, heq⟩ := Option.map_eq_some_iff.mp h
  obtain ⟨-, rfl⟩ := Prod.mk.inj heq
  exact xdrReplymsg.streams.takes hm

/-- What a server has to do with a call that was made: its callback runs on results that are allowed
for its own request, and on the results of each record that answers it. -/
lemma Settled.made {E : Env} {R : Bytes → Bytes → Prop} {ct : CtData} {w : World} {answered : List (Cbi × Bytes)}
    (h : Settled R ct w answered) (hsrv : ServerReplies E R w.log) (hfew : (regs w.log).length ≤ 2 ^ 32)
    {rpc : RpcProcInfo} {own : Cbi} {x : UInt32} (hm : Made w rpc own x) :
    (∀ body, (own, body) ∈ invocations w.log → body.length < 2 ^ 31 ∧ R (callMessage ct rpc x) body) ∧
      (own.info.callback ≠ none → ∀ r ∈ (received w.log).2, ∀ body, replyHeader r.flatten = some (x.toUInt64, body) →
        (own, body) ∈ invocations w.log) := by
  have hsub := h.issuedInv w.log (List.prefix_refl _)
  have hxids := callsMade_xids h.regInv hsub hfew
  constructor
  · intro body hbody
    rw [h.invoked] at hbody
    obtain ⟨r, hr, c, hc, hcbi, -, hrep, hR⟩ := forall₂_mem_right h.records (List.mem_filter.mp hbody).1
    obtain ⟨q, -, hq⟩ := hsrv.received.2 r hr
    obtain ⟨m, -, -, rfl, -⟩ := hq.reply
    have hlen := feed_sized sized_fresh (buffers w.log).flatten [m] hr m (List.mem_singleton_self m)
    rw [List.flatten_singleton] at hrep
    refine ⟨(replyHeader_length hrep).trans_lt hlen, ?_⟩
    have hcbis : ((callsMade w.log).map CallMade.cbi).Nodup := by
      have hnd := h.regInv.cbis_nodup.sublist (hsub.map Prod.fst)
      rwa [issued_eq, List.map_map] at hnd
    rw [List.inj_on_of_nodup_map hcbis hc hm.made hcbi] at hR
    exact hR
  · intro hcb r hr body hbody
    obtain ⟨a, ha, c, hc, hcbi, -, hrep, -⟩ := forall₂_mem_left h.records hr
    rw [hbody] at hrep
    obtain ⟨hx, rfl⟩ := Prod.mk.inj (Option.some.inj hrep)
    have hxx : c.xid = x := by
      have hx := congrArg UInt64.toUInt32 hx
      simpa using hx.symm
    have hown : own = c.cbi := congrArg CallMade.cbi (List.inj_on_of_nodup_map hxids hm.made hc hxx.symm)
    rw [h.invoked, hown, hcbi]
    exact List.mem_filter.mpr ⟨ha, by simpa [← hcbi, ← hown] using hcb⟩

end UnfsClient.Proofs
