import UnfsClient.Proofs.ParserSteps
import UnfsClient.Proofs.Registrations

/-!
# Callbacks that use the handle

A callback runs in the middle of `update_record_state`. It may issue calls and receive; as long
as no `read` it makes returns data, it leaves the parser and the entries of other calls alone,
and `ct_pendingcalls` grows by the number of calls it issues.
-/

namespace UnfsClient.Proofs

open Lib

def issuedOf? : Event → Option (Cbi × UInt32)
  | .issued cbi x _ => some (cbi, x)
  | _ => none

/-- The calls that were encoded and counted, which are those that return `RPC_SUCCESS`. -/
def issued (log : List Event) : List (Cbi × UInt32) := log.filterMap issuedOf?

lemma issuedOf_ofTransmit {e : Event} (h : ofTransmit e = true) : issuedOf? e = none := by
  cases e <;> first | rfl | cases h

lemma issued_ofTransmit {es : List Event} (h : ∀ e ∈ es, ofTransmit e = true) : issued es = [] :=
  List.filterMap_eq_nil_iff.mpr fun e he => issuedOf_ofTransmit (h e he)

lemma issuedOf_ofParser {e : Event} (h : ofParser e = true) : issuedOf? e = none := by
  cases e <;> first | rfl | cases h

def bufferOf? : Event → Option Bytes
  | .read _ (.data b) => some b
  | _ => none

/-- The read buffers received so far. -/
def buffers (log : List Event) : List Bytes := log.filterMap bufferOf?

def nestedData : Event → Bool
  | .read depth (.data _) => 0 < depth
  | _ => false

/-- No `read` made by a callback has returned data. -/
def NoNestedData (log : List Event) : Prop := ∀ e ∈ log, nestedData e = false

instance (log : List Event) : Decidable (NoNestedData log) := inferInstanceAs (Decidable (∀ e ∈ log, _))

lemma NoNestedData.closed {a b : List Event} (h : a <+: b) (hb : NoNestedData b) : NoNestedData a :=
  fun e he => hb e (h.subset he)

lemma issued_append (a b : List Event) : issued (a ++ b) = issued a ++ issued b := List.filterMap_append

lemma buffers_append (a b : List Event) : buffers (a ++ b) = buffers a ++ buffers b := List.filterMap_append

/-- What a callback can do to the handle while no data arrive. -/
structure Nested (w w' : World) : Prop where
  parser : SameParser w w'
  takens : takens w'.log = takens w.log
  buffers : buffers w'.log = buffers w.log
  depth : w'.depth = w.depth
  pending : ∀ a, w.ct.ctPendingcalls = cInt a →
    w'.ct.ctPendingcalls = cInt (a + ((issued w'.log).length - (issued w.log).length))

lemma Nested.trans {w v w' : World} (h : Nested w v) (t : Nested v w') : Nested w w' := by
  refine ⟨⟨t.parser.rs.trans h.parser.rs, t.parser.readbuf.trans h.parser.readbuf,
    t.parser.events.trans h.parser.events⟩, t.takens.trans h.takens, t.buffers.trans h.buffers,
    t.depth.trans h.depth, ?_⟩
  intro a ha
  rw [t.pending _ (h.pending a ha)]
  congr 1
  omega

def ofOthers : Event → Bool
  | .registered _ _ _ | .queued _ | .sent _ | .read _ .eof | .read _ .error => true
  | _ => false

lemma nested_others {w w' : World} (hrs : w'.rs = w.rs) (hbuf : w'.ct.ctReadbuf = w.ct.ctReadbuf)
    (hdepth : w'.depth = w.depth) (hpending : w'.ct.ctPendingcalls = w.ct.ctPendingcalls)
    {es : List Event} (hlog : w'.log = w.log ++ es) (hes : ∀ e ∈ es, ofOthers e = true) : Nested w w' := by
  have hnone : parserEvents es = [] ∧ takens es = [] ∧ buffers es = [] ∧ issued es = [] := by
    refine ⟨List.filter_eq_nil_iff.mpr ?_, List.filterMap_eq_nil_iff.mpr ?_, List.filterMap_eq_nil_iff.mpr ?_,
      List.filterMap_eq_nil_iff.mpr ?_⟩
    all_goals
      intro e he
      have ho := hes e he
      unfold ofOthers at ho
      split at ho <;> simp_all [ofParser, takenOf?, bufferOf?, issuedOf?]
  obtain ⟨hp, ht, hb, hi⟩ := hnone
  refine ⟨⟨hrs, hbuf, ?_⟩, ?_, ?_, hdepth, ?_⟩
  · rw [hlog]
    unfold parserEvents at hp ⊢
    rw [List.filter_append, hp, List.append_nil]
  · rw [hlog, takens_append, ht, List.append_nil]
  · rw [hlog, buffers_append, hb, List.append_nil]
  · intro a ha
    rw [hpending, ha, hlog, issued_append, hi, List.append_nil, sub_self, add_zero]

lemma TxOnly.nested {w w' : World} (h : TxOnly w w') : Nested w w' := by
  obtain ⟨es, hes, htr⟩ := h.log
  refine nested_others (congrArg CtData.ctRecordState h.ct :) (congrArg CtData.ctReadbuf h.ct :) h.depth
    (congrArg CtData.ctPendingcalls h.ct :) hes ?_
  intro e he
  have ho := htr e he
  cases e <;> first | rfl | cases ho

lemma cInt_cInt_add (a b : Int) : cInt (cInt a + b) = cInt (a + b) := by
  unfold cInt
  exact Int.bmod_add_bmod

lemma cInt_cInt_sub (a b : Int) : cInt (cInt a - b) = cInt (a - b) := by
  rw [sub_eq_add_neg, cInt_cInt_add, ← sub_eq_add_neg]

lemma nested_issueCall (w : World) (cbi : Cbi) (rpc : RpcProcInfo) : Nested w (issueCall w cbi rpc) := by
  refine ⟨⟨rfl, rfl, ?_⟩, ?_, ?_, rfl, ?_⟩
  · simp [issueCall, setPending, parserEvents, ofParser]
  · simp [issueCall, setPending, takens, takenOf?]
  · simp [issueCall, setPending, buffers, bufferOf?]
  · intro a ha
    have hlen : ((issued (issueCall w cbi rpc).log).length : Int) = (issued w.log).length + 1 := by
      simp [issueCall, setPending, issued, issuedOf?]
    change cInt (w.ct.ctPendingcalls + 1) = _
    rw [ha, cInt_cInt_add, hlen]
    congr 1
    omega

lemma nested_tick (w : World) : Nested w w.tick := nested_others rfl rfl rfl rfl (List.append_nil _).symm (by simp)

/-- A call up to the point where it is counted. -/
lemma encodeCall_nested {E : Env} {rpc : RpcProcInfo} {ucbi : CallbackInfo} {w v : World} {ok : Bool}
    (henc : encodeCall E rpc (registerCall ⟨w.serial, ucbi⟩ w.tick) = some (v, ok)) : Nested w v := by
  have hreg : Nested w.tick (registerCall ⟨w.serial, ucbi⟩ w.tick) :=
    nested_others rfl rfl rfl rfl rfl (by simp [ofOthers])
  exact (nested_tick w).trans (hreg.trans (encodeCall_acts henc).txOnly.nested)

section

variable {E : Env} {exec : Exec} (hexec : ActsOnly E true exec)

include hexec

lemma rpcCbLoop_nested {flag : UInt32} {fuel : Nat} {w w' : World} {n : Int}
    (h : rpcCbLoop E exec flag fuel w = some (w', n)) (hdepth : 0 < w.depth) (hgood : NoNestedData w'.log) :
    n = 0 ∧ Nested w w' := by
  cases fuel with
  | zero => cases h
  | succ fuel =>
    have hgrows : ∀ {v u : World} {b : Bytes} {m : Int}, readSocket w = some (v, .data b) →
        updateFragState E exec b.length v = some (u, m) → u.log <+: w'.log → False := by
      -- a read that returns data would be in the log, at a depth that is not 0
      intro v u b m hread hupd hlog
      obtain ⟨rs, -, ⟨b', -, -, -, rfl⟩ | ⟨hr, -⟩⟩ := readSocket_cases hread
      · have hmem : Event.read w.depth (.data b) ∈ w'.log := by
          apply ((updateFragState_acts hexec hupd).log_grows.trans hlog).subset
          simp [World.loadReadbuf]
        have hfalse := hgood _ hmem
        simp only [nestedData, decide_eq_false_iff_not] at hfalse
        exact hfalse hdepth
      · rcases hr with hr | hr <;> cases hr
    obtain ⟨v, r, hread, ⟨hr, rfl, rfl⟩ | ⟨b, u, m, rfl, hupd, ⟨-, rfl, -⟩ | ⟨-, -, hrest⟩⟩⟩ := rpcCbLoop_cases h
    · refine ⟨rfl, ?_⟩
      obtain ⟨rs, -, ⟨b, rfl, -⟩ | ⟨-, rfl⟩⟩ := readSocket_cases hread
      · rcases hr with hr | hr <;> cases hr
      · refine nested_others rfl rfl rfl rfl (show _ = w.log ++ [.read w.depth r] from rfl) ?_
        rcases hr with rfl | rfl <;> simp [ofOthers]
    · exact (hgrows hread hupd (List.prefix_refl _)).elim
    · exact (hgrows hread hupd (rpcCbLoop_acts hexec hrest).log_grows).elim

/-- A receive made by a callback finds nothing. -/
lemma clnttcpNbReceive_nested {flag : UInt32} {w w' : World} {n : Int}
    (h : clnttcpNbReceive E exec flag w = some (w', n)) (hdepth : 0 < w.depth) (hgood : NoNestedData w'.log) :
    n = 0 ∧ Nested w w' := by
  obtain ⟨v, hflush, hcases⟩ := clnttcpNbReceive_cases h
  have htx : Nested w v := (flushSndlist_acts E hflush).txOnly.nested
  rcases hcases with ⟨-, rfl, rfl⟩ | ⟨-, -, u, hcb, rfl⟩
  · exact ⟨rfl, htx⟩
  · obtain ⟨rfl, hnest⟩ := rpcCbLoop_nested hexec hcb (by rw [htx.depth]; exact hdepth) hgood
    have hsettle : Nested u (setPending u (cInt (u.ct.ctPendingcalls - 0))) := by
      refine ⟨⟨rfl, rfl, rfl⟩, rfl, rfl, rfl, ?_⟩
      intro a ha
      change cInt (u.ct.ctPendingcalls - 0) = cInt (a + ((issued u.log).length - (issued u.log).length))
      rw [ha, cInt_cInt_sub, sub_self, sub_zero, add_zero]
    exact ⟨rfl, htx.trans (hnest.trans hsettle)⟩

lemma clnttcpNbCall_nested {rpc : RpcProcInfo} {ucbi : CallbackInfo} {callflag : UInt64} {w w' : World}
    {stat : ClntStat} (h : clnttcpNbCall E exec rpc ucbi callflag w = some (w', stat)) (hdepth : 0 < w.depth)
    (hgood : NoNestedData w'.log) : Nested w w' := by
  rcases clnttcpNbCall_cases h with ⟨-, rfl, -⟩ | ⟨-, v, ok, henc, ⟨-, rfl, -⟩ | ⟨-, -, n, hrec⟩⟩
  · exact nested_tick w
  · exact encodeCall_nested henc
  · have hv := (encodeCall_nested henc).trans (nested_issueCall v ⟨w.serial, ucbi⟩ rpc)
    exact hv.trans (clnttcpNbReceive_nested hexec hrec (by rw [hv.depth]; exact hdepth) hgood).2

lemma runScript_nested {s : Script} {w w' : World} (h : runScript E exec s w = some w') (hdepth : 0 < w.depth)
    (hgood : NoNestedData w'.log) : Nested w w' := by
  induction s generalizing w with
  | done =>
    cases h
    exact nested_others rfl rfl rfl rfl (List.append_nil _).symm (by simp)
  | call rpc ucbi callflag k ih =>
    unfold runScript at h
    split at h
    · cases h
    · rename_i v stat hcall
      have hv := clnttcpNbCall_nested hexec hcall hdepth (hgood.closed (runScript_acts hexec h).log_grows)
      exact hv.trans (ih stat h (by rw [hv.depth]; exact hdepth))
  | receive flag k ih =>
    unfold runScript at h
    split at h
    · cases h
    · rename_i v n hrec
      have hv := (clnttcpNbReceive_nested hexec hrec hdepth (hgood.closed (runScript_acts hexec h).log_grows)).2
      exact hv.trans (ih n h (by rw [hv.depth]; exact hdepth))

end

/-- Callbacks that disturb nothing as long as none of their reads returns data. -/
structure Quiet (E : Env) (exec : Exec) : Prop where
  acts : ActsOnly E true exec
  nested : ∀ {cbi body w w'}, exec cbi body w = some w' → NoNestedData w'.log → Nested w w'

lemma Quiet.leavesParser {E : Env} {exec : Exec} (h : Quiet E exec) : LeavesParser E NoNestedData exec where
  closed := fun hab hb => hb.closed hab
  acts := h.acts
  keeps := fun hrun hgood => (h.nested hrun hgood).parser

/-- Whatever a callback does, and however deep calls are nested. -/
lemma quiet_reentrant (E : Env) (B : Behaviour) (n : Nat) : Quiet E (reentrant E B n) := by
  refine ⟨reentrant_acts E B n, ?_⟩
  intro cbi body w w' h hgood
  cases n with
  | zero => cases h
  | succ n =>
    unfold reentrant at h
    split at h
    · cases h
    · rename_i v hrun
      cases h
      have hnest := runScript_nested (reentrant_acts E B n) hrun (Nat.succ_pos _) hgood
      exact ⟨⟨hnest.parser.rs, hnest.parser.readbuf, hnest.parser.events⟩, hnest.takens, hnest.buffers, rfl,
        hnest.pending⟩

end UnfsClient.Proofs
