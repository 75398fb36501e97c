import UnfsClient.Proofs.NestedCalls
import UnfsClient.Proofs.ParserRefinement

/-!
# Serving well answered calls

A stream is well answered when each of its records is the reply to a call issued before it was
read, no call is answered twice, and no read buffer ends inside a marker. Along a run on such a
stream every record takes out the entry of the call it answers, so counting records is
counting entries.
-/

namespace UnfsClient.Proofs

open Lib RecordMarking

/-- The xid `call_user_cb` reads in the record `r` of the stream. -/
def replyXid (E : Env) (r : List Bytes) : Option UInt64 :=
  (E.xdrReplymsg (r.flatten.take (lastSize r))).map Prod.fst

/-- After the history `pre` these bytes are read. They come after a whole marker, and all records
received with them are replies to different calls of this history. -/
def AnswersCalls (E : Env) (pre : List Event) (b : Bytes) : Prop :=
  ¬MidMarker (feed fresh (buffers pre).flatten).1 ∧
    ((feed fresh ((buffers pre).flatten ++ b)).2.map (replyXid E)).Nodup ∧
    ∀ r ∈ (feed fresh ((buffers pre).flatten ++ b)).2, ∃ p ∈ issued pre, replyXid E r = some p.2.toUInt64

instance (E : Env) (pre : List Event) (b : Bytes) : Decidable (AnswersCalls E pre b) :=
  inferInstanceAs (Decidable (_ ∧ _ ∧ _))

def WellAnswered (E : Env) (log : List Event) : Prop :=
  ∀ i < log.length, ∀ b ∈ log[i]?.bind bufferOf?, AnswersCalls E (log.take i) b

instance (E : Env) (log : List Event) : Decidable (WellAnswered E log) :=
  inferInstanceAs (Decidable (∀ i < log.length, _))

lemma WellAnswered.closed {E : Env} {a b : List Event} (h : a <+: b) (hb : WellAnswered E b) : WellAnswered E a := by
  obtain ⟨c, rfl⟩ := h
  intro i hi x hx
  have hlen : i < (a ++ c).length := by
    rw [List.length_append]
    omega
  have hall := hb i hlen x (by rwa [List.getElem?_append_left hi])
  rwa [List.take_append_of_le_length hi.le] at hall

lemma WellAnswered.read {E : Env} {pre : List Event} {depth : Nat} {b : Bytes} {log : List Event}
    (h : WellAnswered E log) (hlog : pre ++ [.read depth (.data b)] <+: log) : AnswersCalls E pre b := by
  have hlast := h.closed hlog pre.length (by simp) b (by simp [bufferOf?])
  rwa [List.take_left] at hlast

/-! ## Issued calls -/

/-- At all times the issued calls are among the registered ones, in their order. -/
def IssuedInv (log : List Event) : Prop := ∀ pre, pre <+: log → (issued pre).Sublist (regs pre)

lemma IssuedInv.append {log es : List Event} (h : IssuedInv log) (hno : ∀ e ∈ es, issuedOf? e = none) :
    IssuedInv (log ++ es) := by
  intro pre hpre
  rcases List.prefix_or_prefix_of_prefix hpre (List.prefix_append log es) with hpre | ⟨mid, rfl⟩
  · exact h pre hpre
  · have hmid : mid <+: es := (List.prefix_append_right_inj log).mp hpre
    have hnil : issued mid = [] := List.filterMap_eq_nil_iff.mpr fun e he => hno e (hmid.subset he)
    rw [issued_append, regs_append, hnil, List.append_nil]
    exact (h log (List.prefix_refl _)).trans (List.sublist_append_left _ _)

lemma Act.issuedInv {E : Env} {calls : Bool} {w w' : World} (h : Act E calls w w') (hi : IssuedInv w.log) :
    IssuedInv w'.log := by
  cases h with
  | tx h =>
    obtain ⟨es, hes, htr⟩ := h.txOnly.log
    rw [hes]
    exact hi.append fun e he => issuedOf_ofTransmit (htr e he)
  | @parsed _ e he =>
    apply hi.append
    intro e' he'
    rw [List.mem_singleton.mp he']
    exact issuedOf_ofParser he
  | read h => exact hi.append (by simp [issuedOf?])
  | take hdec htake hcb => exact hi.append (by simp [issuedOf?])
  | deliver hdec htake hcb => exact (hi.append (by simp [issuedOf?])).append (by simp [issuedOf?])
  | register hcalls ucbi => exact hi.append (by simp [issuedOf?])
  | @issue hcalls _ cbi rpc hreg =>
    obtain ⟨past, res, es, hlog, htr⟩ := hreg
    have hnone := issued_ofTransmit htr
    intro pre hpre
    rcases List.prefix_concat_iff.mp hpre with rfl | hpre
    · -- what was issued before was issued before the registration
      have hpast : (issued past).Sublist (regs past) := hi past (by rw [hlog]; exact List.prefix_append _ _)
      change (issued (w.log ++ [.issued cbi (byteSwap w.ct.ctXid) rpc])).Sublist (regs (w.log ++ [.issued cbi _ _]))
      have hi' : issued (w.log ++ [.issued cbi (byteSwap w.ct.ctXid) rpc]) =
          issued past ++ [(cbi, byteSwap w.ct.ctXid)] := by
        rw [issued_append, hlog, issued_append]
        change issued past ++ issued es ++ [(cbi, byteSwap w.ct.ctXid)] = _
        rw [hnone, List.append_nil]
      have hr' : regs (w.log ++ [.issued cbi (byteSwap w.ct.ctXid) rpc]) =
          regs past ++ ((cbi, byteSwap w.ct.ctXid) :: regs es) := by
        rw [regs_append, hlog, regs_append]
        exact List.append_nil _
      rw [hi', hr']
      exact hpast.append (List.singleton_sublist.mpr (by simp))
    · exact hi pre hpre
  | _ => exact hi

lemma Acts.issuedInv {E : Env} {calls : Bool} {w w' : World} (h : Acts E calls w w') (hi : IssuedInv w.log) :
    IssuedInv w'.log := by
  induction h with
  | refl => exact hi
  | tail _ hact ih => exact hact.issuedInv ih

lemma Act.rbufsz {E : Env} {calls : Bool} {w w' : World} (h : Act E calls w w') :
    w'.ct.ctRbufsz = w.ct.ctRbufsz := by
  cases h with
  | tx h => exact (congrArg CtData.ctRbufsz h.txOnly.ct :)
  | _ => rfl

lemma Acts.rbufsz {E : Env} {calls : Bool} {w w' : World} (h : Acts E calls w w') :
    w'.ct.ctRbufsz = w.ct.ctRbufsz := by
  induction h with
  | refl => rfl
  | tail _ hact ih => exact hact.rbufsz.trans ih

lemma Acts.issued_subset {E : Env} {calls : Bool} {w w' : World} (h : Acts E calls w w') :
    issued w.log ⊆ issued w'.log := by
  obtain ⟨es, hes⟩ := h.log_grows
  rw [← hes, issued_append]
  exact List.subset_append_left _ _

/-! ## Records that answer calls -/

/-- `cbi` is the entry of the call that the record answers. -/
def ServedBy (E : Env) (log : List Event) (r : List Bytes) (cbi : Cbi) : Prop :=
  ∃ x, (cbi, x) ∈ issued log ∧ replyXid E r = some x.toUInt64

/-- These records answer different calls whose entries have not been taken. -/
def Due (E : Env) (log : List Event) (recs : List (List Bytes)) : Prop :=
  (recs.map (replyXid E)).Nodup ∧
    ∀ r ∈ recs, ∃ p ∈ issued log, p.1 ∉ takens log ∧ replyXid E r = some p.2.toUInt64

/-- The entries of the calls that the records answer have been taken, in this order. -/
structure Served (E : Env) (recs : List (List Bytes)) (w w' : World) : Prop where
  takens : ∃ ts, takens w'.log = takens w.log ++ ts ∧ List.Forall₂ (ServedBy E w'.log) recs ts
  buffers : buffers w'.log = buffers w.log
  pending : ∀ a, w.ct.ctPendingcalls = cInt a →
    w'.ct.ctPendingcalls = cInt (a + ((issued w'.log).length - (issued w.log).length))

lemma ParserOnly.books {w w' : World} (h : ParserOnly w w') :
    SameBooks w w' ∧ takens w'.log = takens w.log ∧ buffers w'.log = buffers w.log ∧
      issued w'.log = issued w.log ∧ w'.ct.ctPendingcalls = w.ct.ctPendingcalls := by
  obtain ⟨rs, hct⟩ := h.ct
  obtain ⟨es, hes, hp⟩ := h.log
  have hsame : SameBooks w w' := by
    refine ⟨by rw [hct], by rw [hct], h.serial, es, hes, ?_⟩
    intro e he
    have hpe := hp e he
    cases e <;> first | rfl | cases hpe
  have hnone : ∀ {α : Type} (f : Event → Option α), (∀ e, ofParser e = true → f e = none) →
      es.filterMap f = [] := by
    intro α f hf
    exact List.filterMap_eq_nil_iff.mpr fun e he => hf e (hp e he)
  refine ⟨hsame, hsame.books.2.1, ?_, ?_, by rw [hct]⟩
  · rw [hes, buffers_append, buffers, buffers, hnone bufferOf? (by intro e he; cases e <;> first | rfl | cases he),
      List.append_nil]
  · rw [hes, issued_append, issued, issued, hnone issuedOf? fun e he => issuedOf_ofParser he, List.append_nil]

section

variable {E : Env} {exec : Exec} (hq : Quiet E exec)

include hq

lemma Dispatches.acts_log {w w' : World} {recs : List (List Bytes)} (h : Dispatches E exec w recs w') :
    w.log <+: w'.log := by
  induction h with
  | done h =>
    obtain ⟨es, hes, -⟩ := h.log
    rw [hes]
    exact List.prefix_append _ _
  | next h hlast hrun _ ih =>
    obtain ⟨es, hes, -⟩ := h.log
    refine List.IsPrefix.trans ?_ ((dispatchReply_acts hq.acts hlast hrun).log_grows.trans ih)
    rw [hes]
    exact List.prefix_append _ _

/-- A record that answers a call takes out the entry of that call. -/
lemma dispatchReply_served {x₀ : UInt32} {v u : World} {r : List Bytes} {cbi : Cbi} {x : UInt32}
    (hi : RegInv x₀ v) (hreg : (cbi, x) ∈ regs v.log)
    (hnt : cbi ∉ takens v.log) (hx : replyXid E r = some x.toUInt64)
    (hrun : dispatchReply E exec (collatedEntry r).1 v = some u) (hgood : NoNestedData u.log) :
    takens u.log = takens v.log ++ [cbi] ∧ buffers u.log = buffers v.log ∧
      ∀ a, v.ct.ctPendingcalls = cInt a →
        u.ct.ctPendingcalls = cInt (a + ((issued u.log).length - (issued v.log).length)) := by
  have hlive : (leBytes x, cbi) ∈ live v.log :=
    List.mem_map.mpr ⟨(cbi, x), List.mem_filter.mpr ⟨hreg, by simpa using hnt⟩, rfl⟩
  obtain ⟨t, htake⟩ := hi.takeCallback_live hlive
  obtain ⟨⟨xid, body⟩, hdec, hxid⟩ := Option.map_eq_some_iff.mp hx
  obtain rfl : xid = x.toUInt64 := hxid
  rcases dispatchReply_cases hrun with ⟨hnone, -⟩ | ⟨xid', body', hdec', hcases⟩
  · exact absurd (hdec.symm.trans hnone) (by simp)
  obtain ⟨rfl, rfl⟩ := Prod.mk.inj (Option.some.inj (hdec.symm.trans hdec'))
  rcases hcases with ⟨hnone, -⟩ | ⟨t', cbi', htake', hcases⟩
  · rw [htake] at hnone
    cases hnone
  obtain ⟨rfl, hcbi⟩ := Prod.mk.inj (htake.symm.trans htake')
  obtain rfl := Option.some.inj hcbi
  rcases hcases with ⟨-, rfl⟩ | ⟨-, hexec⟩
  · refine ⟨by simp [dropEntry, countReceived, takens, takenOf?],
      by simp [dropEntry, countReceived, buffers, bufferOf?], ?_⟩
    intro a ha
    have hiss : issued (dropEntry (countReceived v (collatedEntry r).1) t cbi).log = issued v.log := by
      simp [dropEntry, countReceived, issued, issuedOf?]
    rw [hiss, sub_self, add_zero]
    exact ha
  · have hnest := hq.nested hexec hgood
    refine ⟨?_, ?_, ?_⟩
    · rw [hnest.takens]
      simp [dropEntry, countReceived, takens, takenOf?]
    · rw [hnest.buffers]
      simp [dropEntry, countReceived, buffers, bufferOf?]
    · intro a ha
      have hiss : issued ((dropEntry (countReceived v (collatedEntry r).1) t cbi).note
          (.ran cbi x.toUInt64 body)).log = issued v.log := by
        simp [dropEntry, countReceived, issued, issuedOf?]
      have hpend := hnest.pending a ha
      rwa [hiss] at hpend

/-- Records that are due are served one after the other. -/
lemma Dispatches.served {x₀ : UInt32} {w w' : World} {recs : List (List Bytes)} (h : Dispatches E exec w recs w')
    (hi : RegInv x₀ w) (hn : (regs w'.log).length ≤ 2 ^ 32) (hiss : IssuedInv w'.log) (hgood : NoNestedData w'.log)
    (hdue : Due E w.log recs) : Served E recs w w' := by
  induction h with
  | done h =>
    obtain ⟨-, ht, hb, his, hp⟩ := h.books
    refine ⟨⟨[], by rw [ht, List.append_nil], .nil⟩, hb, ?_⟩
    intro a ha
    rw [hp, ha, his, sub_self, add_zero]
  | @next w v u w' r rs overrun h hlast hrun t ih =>
    obtain ⟨hsame, ht, hb, his, hp⟩ := h.books
    have hgrow := t.acts_log hq
    have hacts := dispatchReply_acts hq.acts hlast hrun
    have hbound : ∀ {l : List Event}, l <+: w'.log → (regs l).length ≤ 2 ^ 32 := by
      rintro l ⟨es, hes⟩
      rw [← hes, regs_append, List.length_append] at hn
      omega
    have hiv : RegInv x₀ v := hi.of_sameBooks hsame
    have hiu : RegInv x₀ u := hacts.regInv hiv (hbound hgrow)
    have hlogv : v.log <+: w'.log := hacts.log_grows.trans hgrow
    obtain ⟨⟨cbi, x⟩, hmem, hnt, hx⟩ := hdue.2 r (by simp)
    rw [← his] at hmem
    rw [← ht] at hnt
    have hsub : issued v.log ⊆ regs v.log := (hiss v.log hlogv).subset
    obtain ⟨htu, hbu, hpu⟩ :=
      dispatchReply_served hq hiv (hsub hmem) hnt hx hrun (hgood.closed hgrow)
    have hdue' : Due E u.log rs := by
      have hnd := hdue.1
      rw [List.map_cons, List.nodup_cons] at hnd
      refine ⟨hnd.2, ?_⟩
      intro r' hr'
      obtain ⟨⟨cbi', x'⟩, hmem', hnt', hx'⟩ := hdue.2 r' (by simp [hr'])
      refine ⟨(cbi', x'), hacts.issued_subset (by rw [his]; exact hmem'), ?_, hx'⟩
      rw [htu, List.mem_append, not_or, ht]
      refine ⟨hnt', ?_⟩
      intro hcbi
      obtain rfl : cbi' = cbi := List.mem_singleton.mp hcbi
      have hxx : x' = x := hiv.reg_unique (hsub (by rw [his]; exact hmem')) (hsub hmem)
      exact hnd.1 (List.mem_map.mpr ⟨r', hr', by rw [hx', hx, hxx]⟩)
    have hserved := ih hiu hn hiss hgood hdue'
    obtain ⟨ts, hts, hall⟩ := hserved.takens
    refine ⟨⟨cbi :: ts, ?_, .cons ⟨x, ?_, hx⟩ hall⟩, ?_, ?_⟩
    · rw [hts, htu, ht, List.append_assoc]
      rfl
    · obtain ⟨es, hes⟩ := hlogv
      rw [← hes, issued_append]
      exact List.mem_append_left _ hmem
    · rw [hserved.buffers, hbu, hb]
    · intro a ha
      rw [hserved.pending _ (hpu a (by rw [hp]; exact ha)), his]
      congr 1
      omega

end

/-! ## Runs -/

/-- What is assumed of a run: it is well answered, no `read` of a callback returned data, and
there were fewer calls than xids. -/
structure Benign (E : Env) (log : List Event) : Prop where
  issued : IssuedInv log
  answered : WellAnswered E log
  quiet : NoNestedData log
  few : (regs log).length ≤ 2 ^ 32

lemma Benign.closed {E : Env} {a b : List Event} (h : a <+: b) (hb : Benign E b) : Benign E a := by
  refine ⟨fun pre hpre => hb.issued pre (hpre.trans h), hb.answered.closed h, hb.quiet.closed h, ?_⟩
  have hfew := hb.few
  obtain ⟨c, rfl⟩ := h
  rw [regs_append, List.length_append] at hfew
  omega

/-- The byte machine after everything received, and the records on the way. -/
def received (log : List Event) : Stream × List (List Bytes) := feed fresh (buffers log).flatten

/-- All records received have been handed on and served. `ct_pendingcalls` counts the calls whose
entry is still in the table, but for `k` that were served and are not subtracted yet. -/
structure Serving (E : Env) (k : Int) (w : World) : Prop where
  parses : Parses (received w.log).1 w.rs
  records : recordsOf w.log = (received w.log).2.map recordEntry
  served : List.Forall₂ (ServedBy E w.log) (received w.log).2 (takens w.log)
  pending : w.ct.ctPendingcalls = cInt ((issued w.log).length - (takens w.log).length + k)
  rbufsz : w.ct.ctRbufsz < 2 ^ 31

lemma ServedBy.mono {E : Env} {a b : List Event} {r : List Bytes} {cbi : Cbi} (hab : issued a ⊆ issued b)
    (h : ServedBy E a r cbi) : ServedBy E b r cbi := by
  obtain ⟨x, hmem, hx⟩ := h
  exact ⟨x, hab hmem, hx⟩

lemma Serving.nested {E : Env} {k : Int} {w w' : World} (h : Serving E k w) (hn : Nested w w')
    (ha : Acts E true w w') : Serving E k w' := by
  have hrec : received w'.log = received w.log := by
    unfold received
    rw [hn.buffers]
  refine ⟨?_, ?_, ?_, ?_, by rw [ha.rbufsz]; exact h.rbufsz⟩
  · rw [hrec, hn.parser.rs]
    exact h.parses
  · rw [hrec, ← recordsOf_parserEvents, hn.parser.events, recordsOf_parserEvents]
    exact h.records
  · rw [hrec, hn.takens]
    exact h.served.imp fun _ _ hsb => hsb.mono ha.issued_subset
  · rw [hn.pending _ h.pending, hn.takens]
    congr 1
    omega

lemma RegInv.enter {x₀ : UInt32} {w : World} (h : RegInv x₀ w) (reads : List ReadResult) (writes : List WriteResult) :
    RegInv x₀ { w with reads := reads, writes := writes } :=
  h.of_sameBooks ⟨rfl, rfl, le_refl _, [], (List.append_nil _).symm, by simp⟩

lemma Serving.enter {E : Env} {k : Int} {w : World} (h : Serving E k w) (reads : List ReadResult)
    (writes : List WriteResult) : Serving E k { w with reads := reads, writes := writes } :=
  h.nested (nested_others rfl rfl rfl rfl (List.append_nil _).symm (by simp)) (.single (.enter rfl w reads writes))

/-- No record received with the next buffer has been served before. -/
lemma AnswersCalls.due {E : Env} {x₀ : UInt32} {w : World} {b : Bytes} (h : AnswersCalls E w.log b)
    (hi : RegInv x₀ w) (hiss : IssuedInv w.log)
    (hserved : List.Forall₂ (ServedBy E w.log) (received w.log).2 (takens w.log)) :
    Due E w.log (feed (received w.log).1 b).2 := by
  obtain ⟨-, hnd, hcalls⟩ := h
  rw [feed_append] at hnd hcalls
  rw [List.map_append, List.nodup_append] at hnd
  refine ⟨hnd.2.1, ?_⟩
  intro r hr
  obtain ⟨⟨cbi, x⟩, hp, hx⟩ := hcalls r (List.mem_append_right _ hr)
  refine ⟨(cbi, x), hp, ?_, hx⟩
  intro htaken
  obtain ⟨r', hr', x', hx'mem, hx'⟩ : ∃ r' ∈ (received w.log).2, ServedBy E w.log r' cbi := by
    obtain ⟨i, hi', hget⟩ := List.mem_iff_getElem.mp htaken
    have hlen := hserved.length_eq
    have hsb := (List.forall₂_iff_get.mp hserved).2 i (by omega) hi'
    rw [List.get_eq_getElem, List.get_eq_getElem, hget] at hsb
    exact ⟨_, List.getElem_mem _, hsb⟩
  have hsub := (hiss w.log (List.prefix_refl _)).subset
  have hxx : x' = x := hi.reg_unique (hsub hx'mem) (hsub hp)
  subst hxx
  exact hnd.2.2 _ (List.mem_map.mpr ⟨r', hr', hx'⟩) _ (List.mem_map.mpr ⟨r, hr, hx⟩) rfl

lemma readSocket_data {w v : World} {b : Bytes} (h : readSocket w = some (v, .data b)) :
    (b.length : Int) ≤ w.ct.ctRbufsz ∧ v.log = w.log ++ [.read w.depth (.data b)] ∧ v.rs = w.rs ∧
      b <+: v.ct.ctReadbuf ∧ v.ct.ctPendingcalls = w.ct.ctPendingcalls ∧ w.reads = .data b :: v.reads := by
  obtain ⟨rs, hreads, ⟨b', hb', -, hle, rfl⟩ | ⟨hr, -⟩⟩ := readSocket_cases h
  · cases hb'
    refine ⟨hle, rfl, rfl, ?_, rfl, hreads⟩
    simp only [World.loadReadbuf, memcpy_zero]
    exact List.prefix_append _ _
  · rcases hr with hr | hr <;> cases hr

section

variable {E : Env} (hE : AllocsSucceed E) {exec : Exec} (hq : Quiet E exec) {x₀ : UInt32}

include hE hq

/-- A read buffer is read and processed. -/
lemma updateFragState_serving {w v u : World} {b : Bytes} {m : Int} (hread : readSocket w = some (v, .data b))
    (hupd : updateFragState E exec b.length v = some (u, m)) (hs : Serving E 0 w) (hi : RegInv x₀ w)
    (hok : Benign E u.log) :
    Serving E m u ∧ m = (feed (received w.log).1 b).2.length ∧
      received u.log = ((feed (received w.log).1 b).1, (received w.log).2 ++ (feed (received w.log).1 b).2) ∧
      Dispatches E exec v (feed (received w.log).1 b).2 u ∧
      ∃ ts, takens u.log = takens w.log ++ ts ∧
        List.Forall₂ (ServedBy E u.log) (feed (received w.log).1 b).2 ts := by
  have hacts : Acts E true w u := (readSocket_acts E true hread).trans (updateFragState_acts hq.acts hupd)
  have hgrow := (updateFragState_acts hq.acts hupd).log_grows
  have hiv : RegInv x₀ v := (readSocket_acts E true hread).regInv hi (hok.closed hgrow).few
  obtain ⟨hle, hlog, hrs, hbuf, hpv, -⟩ := readSocket_data hread
  have hrb := hs.rbufsz
  have hans : AnswersCalls E w.log b := hok.answered.read (by rw [← hlog]; exact hgrow)
  have hdue := hans.due hi (hok.closed hacts.log_grows).issued hs.served
  obtain ⟨hp, hn, hrec, -, hdisp⟩ := updateFragState_parses hq.leavesParser hE hbuf (by omega)
    (by rw [hrs]; exact hs.parses) hans.1 hupd hok.quiet
  have ht : takens v.log = takens w.log := by simp [hlog, takens, takenOf?]
  have his : issued v.log = issued w.log := by simp [hlog, issued, issuedOf?]
  have hbs : buffers v.log = buffers w.log ++ [b] := by simp [hlog, buffers, bufferOf?]
  have hrv : recordsOf v.log = recordsOf w.log := by simp [hlog, recordsOf, recordOf?]
  have hdue' : Due E v.log (feed (received w.log).1 b).2 := by
    unfold Due
    rw [ht, his]
    exact hdue
  have hserved := hdisp.served hq hiv hok.few hok.issued hok.quiet hdue'
  obtain ⟨ts, hts, hall⟩ := hserved.takens
  rw [ht] at hts
  have hfeed : received u.log =
      ((feed (received w.log).1 b).1, (received w.log).2 ++ (feed (received w.log).1 b).2) := by
    unfold received
    rw [hserved.buffers, hbs, List.flatten_append, List.flatten_singleton, feed_append]
  refine ⟨⟨?_, ?_, ?_, ?_, by rw [hacts.rbufsz]; exact hrb⟩, hn, hfeed, hdisp, ts, hts, hall⟩
  · rw [hfeed]
    exact hp
  · rw [hfeed, hrec, List.map_append, ← hs.records, hrv]
    rfl
  · rw [hfeed, hts]
    exact List.rel_append (hs.served.imp fun _ _ hsb => hsb.mono hacts.issued_subset) hall
  · have hlen := hall.length_eq
    rw [hserved.pending _ (hpv.trans hs.pending), hts, hn, his, List.length_append]
    congr 1
    push_cast
    omega

lemma rpcCbLoop_serving {flag : UInt32} {fuel : Nat} {w w' : World} {n : Int}
    (h : rpcCbLoop E exec flag fuel w = some (w', n)) (hs : Serving E 0 w) (hi : RegInv x₀ w)
    (hok : Benign E w'.log) : Serving E n w' ∧ n = (takens w'.log).length - (takens w.log).length := by
  induction fuel generalizing w with
  | zero => cases h
  | succ fuel ih =>
    have hupdate : ∀ {v u : World} {b : Bytes} {m : Int}, readSocket w = some (v, .data b) →
        updateFragState E exec b.length v = some (u, m) → u.log <+: w'.log →
        Serving E m u ∧ m = (takens u.log).length - (takens w.log).length := by
      intro v u b m hread hupd hlog
      obtain ⟨hsu, hm, -, -, ts, hts, hall⟩ := updateFragState_serving hE hq hread hupd hs hi (hok.closed hlog)
      refine ⟨hsu, ?_⟩
      rw [hm, hts, List.length_append, hall.length_eq]
      push_cast
      omega
    obtain ⟨v, r, hread, ⟨hr, rfl, rfl⟩ | ⟨b, u, m, rfl, hupd, ⟨-, rfl, rfl⟩ | ⟨hm, -, hrest⟩⟩⟩ := rpcCbLoop_cases h
    · have hnest : Nested w w' := by
        obtain ⟨rs, -, ⟨b, rfl, -⟩ | ⟨-, rfl⟩⟩ := readSocket_cases hread
        · rcases hr with hr | hr <;> cases hr
        · refine nested_others rfl rfl rfl rfl (show _ = w.log ++ [.read w.depth r] from rfl) ?_
          rcases hr with rfl | rfl <;> simp [ofOthers]
      refine ⟨hs.nested hnest (readSocket_acts E true hread), ?_⟩
      rw [hnest.takens, sub_self]
    · exact hupdate hread hupd (List.prefix_refl _)
    · have hgrow := (rpcCbLoop_acts hq.acts hrest).log_grows
      obtain ⟨hsu, hmu⟩ := hupdate hread hupd hgrow
      subst hm
      have hacts : Acts E true w u := (readSocket_acts E true hread).trans (updateFragState_acts hq.acts hupd)
      obtain ⟨hs', hn⟩ := ih hrest hsu (hacts.regInv hi (hok.closed hgrow).few)
      exact ⟨hs', by omega⟩

lemma clnttcpNbReceive_serving {flag : UInt32} {w w' : World} {n : Int}
    (h : clnttcpNbReceive E exec flag w = some (w', n)) (hs : Serving E 0 w) (hi : RegInv x₀ w)
    (hok : Benign E w'.log) : Serving E 0 w' ∧ n = (takens w'.log).length - (takens w.log).length := by
  obtain ⟨v, hflush, hcases⟩ := clnttcpNbReceive_cases h
  have hnest : Nested w v := (flushSndlist_acts E hflush).txOnly.nested
  have hacts : Acts E true w v := (flushSndlist_acts E hflush).acts
  have hsv := hs.nested hnest hacts
  rcases hcases with ⟨-, rfl, rfl⟩ | ⟨-, -, u, hcb, rfl⟩
  · exact ⟨hsv, by rw [hnest.takens, sub_self]⟩
  · have hokv : Benign E v.log := hok.closed (rpcCbLoop_acts hq.acts hcb).log_grows
    obtain ⟨hsu, hn⟩ := rpcCbLoop_serving hE hq hcb hsv (hacts.regInv hi hokv.few) hok
    refine ⟨⟨hsu.parses, hsu.records, hsu.served, ?_, hsu.rbufsz⟩, ?_⟩
    · change cInt (u.ct.ctPendingcalls - n) = _
      rw [hsu.pending, cInt_cInt_sub]
      congr 1
      change _ = ((issued u.log).length : Int) - (takens u.log).length + 0
      omega
    · rw [← hnest.takens]
      exact hn

omit hE hq in
/-- The part of a call before it receives. -/
lemma Serving.issue {rpc : RpcProcInfo} {ucbi : CallbackInfo} {w v : World} {ok : Bool} (hs : Serving E 0 w)
    (henc : encodeCall E rpc (registerCall ⟨w.serial, ucbi⟩ w.tick) = some (v, ok)) :
    Serving E 0 v ∧ Serving E 0 (issueCall v ⟨w.serial, ucbi⟩ rpc) := by
  have hacts : Acts E true w v := .head (.register rfl w ucbi) (encodeCall_acts henc).acts
  have hsv := hs.nested (encodeCall_nested henc) hacts
  exact ⟨hsv, hsv.nested (nested_issueCall v _ _) (.single (.issue rfl (encodeCall_justRegistered henc)))⟩

lemma clnttcpNbCall_serving {rpc : RpcProcInfo} {ucbi : CallbackInfo} {callflag : UInt64} {w w' : World}
    {stat : ClntStat} (h : clnttcpNbCall E exec rpc ucbi callflag w = some (w', stat)) (hs : Serving E 0 w)
    (hi : RegInv x₀ w) (hok : Benign E w'.log) : Serving E 0 w' := by
  rcases clnttcpNbCall_cases h with ⟨-, rfl, -⟩ | ⟨-, v, ok, henc, ⟨-, rfl, -⟩ | ⟨-, -, n, hrec⟩⟩
  · exact hs.nested (nested_tick w) (.single (.tick w))
  · exact (hs.issue henc).1
  · have hokv := hok.closed (clnttcpNbReceive_acts hq.acts hrec).log_grows
    exact (clnttcpNbReceive_serving hE hq hrec (hs.issue henc).2 ((issueCall_acts henc).regInv hi hokv.few) hok).1

lemma runOps_serving {ops : List Op} {w w' : World} (h : runOps E exec ops w = some w') (hs : Serving E 0 w)
    (hi : RegInv x₀ w) (hok : Benign E w'.log) : Serving E 0 w' := by
  induction ops generalizing w with
  | nil =>
    cases h
    exact hs
  | cons op ops ih =>
    unfold runOps at h
    split at h
    · cases h
    · rename_i v hop
      have hokv := hok.closed (runOps_acts hq.acts h).log_grows
      cases op with
      | call rpc ucbi callflag reads writes =>
        simp only [Op.run, Option.map_eq_some_iff] at hop
        obtain ⟨r, hcall, rfl⟩ := hop
        have hie := hi.enter reads writes
        exact ih h (clnttcpNbCall_serving hE hq hcall (hs.enter reads writes) hie hokv)
          ((clnttcpNbCall_acts hq.acts hcall).regInv hie hokv.few)
      | receive flag reads writes =>
        simp only [Op.run, Option.map_eq_some_iff] at hop
        obtain ⟨r, hrec, rfl⟩ := hop
        have hie := hi.enter reads writes
        exact ih h (clnttcpNbReceive_serving hE hq hrec (hs.enter reads writes) hie hokv).1
          ((clnttcpNbReceive_acts hq.acts hrec).regInv hie hokv.few)

end

end UnfsClient.Proofs
