import UnfsClient.Proofs.Accounting

/-!
# Blocking calls

A blocking call returns after the first `read` that completes a record, or that reports the end
of the stream or an error, with `RPC_SUCCESS` in each case. Its own callback has run by then if
and only if its own reply is among the records of that `read`.
-/

namespace UnfsClient.Proofs

open Lib RecordMarking

/-- The records completed by the first of these reads that completes any, unless the end of the
stream or an error comes before. -/
def firstRecords (s : Stream) : List ReadResult → List (List Bytes)
  | .data b :: rs => if (feed s b).2 = [] then firstRecords (feed s b).1 rs else (feed s b).2
  | _ => []

section

variable {E : Env} (hE : AllocsSucceed E) {exec : Exec} (hq : Quiet E exec) {x₀ : UInt32}

include hE hq

/-- A blocking receive serves the records of the first read that completes any. -/
lemma rpcCbLoop_first {flag : UInt32} (hflag : isNonblocking flag = false) {fuel : Nat} {w w' : World} {n : Int}
    (h : rpcCbLoop E exec flag fuel w = some (w', n)) (hs : Serving E 0 w) (hi : RegInv x₀ w)
    (hok : Benign E w'.log) :
    ∃ ts, takens w'.log = takens w.log ++ ts ∧
      List.Forall₂ (ServedBy E w'.log) (firstRecords (received w.log).1 w.reads) ts := by
  induction fuel generalizing w with
  | zero => cases h
  | succ fuel ih =>
    obtain ⟨v, r, hread, ⟨hr, rfl, -⟩ | ⟨b, u, m, rfl, hupd, hcases⟩⟩ := rpcCbLoop_cases h
    · obtain ⟨rs, hreads, ⟨b, rfl, -⟩ | ⟨-, rfl⟩⟩ := readSocket_cases hread
      · rcases hr with hr | hr <;> cases hr
      · refine ⟨[], by simp [takens, takenOf?], ?_⟩
        rw [hreads]
        rcases hr with rfl | rfl <;> exact .nil
    have hgrow : u.log <+: w'.log := by
      rcases hcases with ⟨-, rfl, -⟩ | ⟨-, -, hrest⟩
      · exact List.prefix_refl _
      · exact (rpcCbLoop_acts hq.acts hrest).log_grows
    have hacts : Acts E true w u := (readSocket_acts E true hread).trans (updateFragState_acts hq.acts hupd)
    obtain ⟨-, -, -, -, -, hreads⟩ := readSocket_data hread
    obtain ⟨hsu, hm, hrec, hdisp, ts, hts, hall⟩ := updateFragState_serving hE hq hread hupd hs hi (hok.closed hgrow)
    rw [hreads]
    by_cases hnone : (feed (received w.log).1 b).2 = []
    · rw [hnone] at hm hdisp hall
      obtain rfl : m = 0 := hm
      have hur : u.reads = v.reads := by
        cases hdisp with
        | done honly => exact honly.reads
      have htu : takens u.log = takens w.log := by
        cases hall
        rwa [List.append_nil] at hts
      rcases hcases with ⟨hstop, -⟩ | ⟨-, -, hrest⟩
      · rcases hstop with hne | hnb
        · exact absurd rfl hne
        · rw [hflag, Bool.and_false] at hnb
          cases hnb
      · have hrest' := ih hrest hsu (hacts.regInv hi (hok.closed hgrow).few)
        rw [htu, hur, hrec] at hrest'
        simp only [firstRecords, if_pos hnone]
        exact hrest'
    · rcases hcases with ⟨-, rfl, -⟩ | ⟨hzero, -⟩
      · simp only [firstRecords, if_neg hnone]
        exact ⟨ts, hts, hall⟩
      · rw [hm, Nat.cast_eq_zero, List.length_eq_zero_iff] at hzero
        exact absurd hzero hnone

/-- A blocking call that has been issued serves the records of the first read that completes any. -/
lemma clnttcpNbReceive_first {w w' : World} {n : Int}
    (h : clnttcpNbReceive E exec rpcBlockingWait w = some (w', n)) (hs : Serving E 0 w) (hi : RegInv x₀ w)
    (hok : Benign E w'.log) (hfew : (regs w'.log).length < 2 ^ 31) (hpend : untaken w.log ≠ []) :
    ∃ ts, takens w'.log = takens w.log ++ ts ∧
      List.Forall₂ (ServedBy E w'.log) (firstRecords (received w.log).1 w.reads) ts := by
  obtain ⟨v, hflush, hcases⟩ := clnttcpNbReceive_cases h
  have htx := (flushSndlist_acts E hflush).txOnly
  have hacts : Acts E true w v := (flushSndlist_acts E hflush).acts
  have hsv := hs.nested htx.nested hacts
  have hgrow : v.log <+: w'.log := by
    rcases hcases with ⟨-, rfl, -⟩ | ⟨-, -, u, hcb, rfl⟩
    · exact List.prefix_refl _
    · exact (rpcCbLoop_acts hq.acts hcb).log_grows
  have hokv : Benign E v.log := hok.closed hgrow
  have hiv : RegInv x₀ v := hacts.regInv hi hokv.few
  have hpos : v.ct.ctPendingcalls ≠ 0 := by
    have hfewv : (regs v.log).length < 2 ^ 31 := by
      obtain ⟨es, hes⟩ := hgrow
      rw [← hes, regs_append, List.length_append] at hfew
      omega
    rw [hsv.pending_eq hiv hokv.issued hfewv, ne_eq, Nat.cast_eq_zero, List.length_eq_zero_iff]
    obtain ⟨p, hp⟩ := List.exists_mem_of_ne_nil _ hpend
    obtain ⟨hpi, hpt⟩ := List.mem_filter.mp hp
    refine List.ne_nil_of_mem (a := p) (List.mem_filter.mpr ⟨hacts.issued_subset hpi, ?_⟩)
    rw [htx.nested.takens]
    exact hpt
  rcases hcases with ⟨hstop, -⟩ | ⟨-, -, u, hcb, rfl⟩
  · rcases hstop with hzero | hrx
    · exact absurd hzero hpos
    · cases hrx
  · have hfirst := rpcCbLoop_first hE hq (by decide) hcb hsv hiv hok
    have hrec : received v.log = received w.log := by
      unfold received
      rw [htx.nested.buffers]
    rwa [htx.nested.takens, hrec, htx.reads] at hfirst

end

/-- A call that is about to receive has been issued and nothing else. -/
lemma issueCall_books {E : Env} {rpc : RpcProcInfo} {ucbi : CallbackInfo} {w v : World} {ok : Bool}
    (henc : encodeCall E rpc (registerCall ⟨w.serial, ucbi⟩ w.tick) = some (v, ok)) :
    takens (issueCall v ⟨w.serial, ucbi⟩ rpc).log = takens w.log ∧
      received (issueCall v ⟨w.serial, ucbi⟩ rpc).log = received w.log ∧
      (issueCall v ⟨w.serial, ucbi⟩ rpc).reads = w.reads ∧
      (⟨w.serial, ucbi⟩, byteSwap (w.ct.ctXid - 1)) ∈ issued (issueCall v ⟨w.serial, ucbi⟩ rpc).log := by
  have hnest := (encodeCall_nested henc).trans (nested_issueCall v ⟨w.serial, ucbi⟩ rpc)
  have htx := (encodeCall_acts henc).txOnly
  have hxid : v.ct.ctXid = w.ct.ctXid - 1 := (congrArg CtData.ctXid htx.ct :)
  refine ⟨hnest.takens, ?_, htx.reads, ?_⟩
  · unfold received
    rw [hnest.buffers]
  · have hlog : (issueCall v ⟨w.serial, ucbi⟩ rpc).log =
      v.log ++ [.issued ⟨w.serial, ucbi⟩ (byteSwap v.ct.ctXid) rpc] := rfl
    rw [← hxid, hlog, issued_append]
    exact List.mem_append_right _ (List.mem_singleton.mpr rfl)

/-- Which of the records served is the reply to the call of `cbi`. -/
lemma mem_served_iff {E : Env} {x₀ : UInt32} {w : World} (hi : RegInv x₀ w) (hiss : IssuedInv w.log)
    (hfew : (regs w.log).length ≤ 2 ^ 32) {recs : List (List Bytes)} {ts : List Cbi}
    (hall : List.Forall₂ (ServedBy E w.log) recs ts) {cbi : Cbi} {x : UInt32} (hreg : (cbi, x) ∈ regs w.log) :
    cbi ∈ ts ↔ ∃ r ∈ recs, replyXid E r = some x.toUInt64 := by
  have hsub := (hiss w.log (List.prefix_refl _)).subset
  induction hall with
  | nil => simp
  | @cons r c recs ts hsb _ ih =>
    obtain ⟨y, hy, hry⟩ := hsb
    have hhead : cbi = c ↔ replyXid E r = some x.toUInt64 := by
      constructor
      · rintro rfl
        rw [hry, hi.reg_unique (hsub hy) hreg]
      · intro hrx
        have hxy : y = x := by
          have heq := congrArg UInt64.toUInt32 (Option.some.inj (hry.symm.trans hrx))
          simpa only [UInt32.toUInt32_toUInt64] using heq
        subst hxy
        exact congrArg Prod.fst (List.inj_on_of_nodup_map (hi.xids_nodup hfew) hreg (hsub hy) rfl)
    simp only [List.mem_cons, exists_eq_or_imp]
    exact or_congr hhead ih

/-- A blocking call on a handle with any number of calls outstanding returns `RPC_SUCCESS` with
its callback run if and only if its own reply is among the records of the first `read` that
completes any. -/
theorem blocking_call_ran_iff {E : Env} (hE : AllocsSucceed E) {ct : CtData} (hct : Created ct) (B : Behaviour)
    (n : Nat) {ops : List Op} {w : World} (hrun : runOps E (reentrant E B n) ops (World.start ct) = some w)
    {rpc : RpcProcInfo} {ucbi : CallbackInfo} (hcb : ucbi.callback ≠ none) {reads : List ReadResult}
    {writes : List WriteResult} {w' : World}
    (hcall : clnttcpNbCall E (reentrant E B n) rpc ucbi rpcBlockingWait.toUInt64
      { w with reads := reads, writes := writes } = some (w', .success))
    (hans : WellAnswered E w'.log) (hnest : NoNestedData w'.log) (hfew : (regs w'.log).length < 2 ^ 31) :
    ⟨w.serial, ucbi⟩ ∈ rans w'.log ↔
      ∃ r ∈ firstRecords (received w.log).1 reads, replyXid E r = some (byteSwap (w.ct.ctXid - 1)).toUInt64 := by
  have hq := quiet_reentrant E B n
  have hacts := clnttcpNbCall_acts hq.acts hcall
  have hgrow : w.log <+: w'.log := hacts.log_grows
  have hfewp : ∀ {l : List Event}, l <+: w'.log → (regs l).length < 2 ^ 31 := by
    rintro l ⟨es, hes⟩
    rw [← hes, regs_append, List.length_append] at hfew
    omega
  obtain ⟨hi, hiss, hs⟩ := runOps_accounted hE hct hq hrun (hans.closed hgrow) (hnest.closed hgrow) (hfewp hgrow)
  have hiss' : IssuedInv w'.log := hacts.issuedInv hiss
  have hok : Benign E w'.log := ⟨hiss', hans, hnest, by omega⟩
  have hi' : RegInv ct.ctXid w' := hacts.regInv (hi.enter reads writes) hok.few
  have htr : TakenRan w'.log := by
    apply hacts.takenRan
    exact (runOps_acts hq.acts hrun).takenRan fun cbi _ => Iff.rfl
  rcases clnttcpNbCall_cases hcall with ⟨-, -, hstat⟩ | ⟨-, v, ok, henc, ⟨-, -, hstat⟩ | ⟨-, -, m, hrec⟩⟩
  · cases hstat
  · cases hstat
  obtain ⟨htaken, hreceived, hreads, hown⟩ := issueCall_books henc
  have hfresh : (⟨w.serial, ucbi⟩ : Cbi) ∉ takens w.log := by
    intro hmem
    obtain ⟨y, hy⟩ := hi.taken _ hmem
    exact Nat.lt_irrefl _ (hi.older _ hy)
  have hrecacts := clnttcpNbReceive_acts hq.acts hrec
  have hiv : RegInv ct.ctXid (issueCall v ⟨w.serial, ucbi⟩ rpc) :=
    (issueCall_acts henc).regInv (hi.enter reads writes) (hok.closed hrecacts.log_grows).few
  have hpend : untaken (issueCall v ⟨w.serial, ucbi⟩ rpc).log ≠ [] := by
    refine List.ne_nil_of_mem (List.mem_filter.mpr ⟨hown, ?_⟩)
    rw [htaken]
    simpa using hfresh
  obtain ⟨ts, hts, hall⟩ :=
    clnttcpNbReceive_first hE hq hrec ((hs.enter reads writes).issue henc).2 hiv hok hfew hpend
  rw [htaken] at hts
  rw [hreceived, hreads] at hall
  have hreg : (⟨w.serial, ucbi⟩, byteSwap (w.ct.ctXid - 1)) ∈ regs w'.log :=
    (hiss' w'.log (List.prefix_refl _)).subset (hrecacts.issued_subset hown)
  rw [← htr _ hcb, hts, List.mem_append, ← mem_served_iff hi' hiss' hok.few hall hreg]
  exact or_iff_right hfresh

def idleCallbacks : Exec := reentrant replyEnv (fun _ _ _ => .done) 1

/-- A call whose reply is still to come. -/
def earlierCall : List Op := [.call ⟨1, .done⟩ ⟨some 1, 1⟩ 7 [] [.eagain]]

/-- A blocking call on a handle with this history. -/
def blockingCall (w : World) (reads : List ReadResult) : Option (World × ClntStat) :=
  clnttcpNbCall replyEnv idleCallbacks ⟨1, .done⟩ ⟨some 1, 2⟩ rpcBlockingWait.toUInt64
    { w with reads := reads, writes := [.eagain, .wrote 44, .wrote 44] }

/-- The reply to the earlier call as it comes in. -/
def earlierReply : Bytes := encodeRecords [[acceptedReply 0xffffff0f []]]

/-- The replies come in two reads, and the second has the rest of the first reply and all of the other. -/
def bothReplies : List ReadResult :=
  [.data (earlierReply.take 5), .data (earlierReply.drop 5 ++ encodeRecords [[acceptedReply 0xfeffff0f []]])]

/-- What holds of the handle before and after the blocking call. -/
def aroundBlockingCall (reads : List ReadResult) (p : World → World × ClntStat → Bool) : Option Bool :=
  (runOps replyEnv idleCallbacks earlierCall (World.start authnoneHandle)).bind fun w =>
    (blockingCall w reads).map (p w)

lemma blockingCall_runs :
    aroundBlockingCall bothReplies (fun w r => decide (r.2 = .success ∧ WellAnswered replyEnv r.1.log ∧
      NoNestedData r.1.log ∧ (regs r.1.log).length < 2 ^ 31 ∧
      ∃ rec ∈ firstRecords (received w.log).1 bothReplies,
        replyXid replyEnv rec = some (byteSwap (w.ct.ctXid - 1)).toUInt64)) = some true ∧
    ∀ reads ∈ [[.data earlierReply], [.eof], [.error]],
      aroundBlockingCall reads (fun w r => decide (r.2 = .success ∧ WellAnswered replyEnv r.1.log ∧
        NoNestedData r.1.log ∧ ⟨w.serial, ⟨some 1, 2⟩⟩ ∉ rans r.1.log)) = some true := by
  decide +kernel

theorem blocking_call_ran_iff_both_replies :
    ∃ w w', runOps replyEnv idleCallbacks earlierCall (World.start authnoneHandle) = some w ∧
      blockingCall w bothReplies = some (w', .success) ∧ ⟨w.serial, ⟨some 1, 2⟩⟩ ∈ rans w'.log := by
  obtain ⟨w, hw, hcall⟩ := Option.bind_eq_some_iff.mp blockingCall_runs.1
  obtain ⟨⟨w', stat⟩, hcall, hdec⟩ := Option.map_eq_some_iff.mp hcall
  obtain ⟨rfl, hans, hnest, hfew, hown⟩ := of_decide_eq_true hdec
  exact ⟨w, w', hw, hcall, (blocking_call_ran_iff replyEnv_allocs authnoneHandle_created (fun _ _ _ => .done) 1 hw
    (by decide) hcall hans hnest hfew).mpr hown⟩

/-- The blocking call returns `RPC_SUCCESS` on a well answered stream, and its callback has not run. -/
def ReturnsEarly (reads : List ReadResult) : Prop :=
  ∃ w w', runOps replyEnv idleCallbacks earlierCall (World.start authnoneHandle) = some w ∧
    blockingCall w reads = some (w', .success) ∧ WellAnswered replyEnv w'.log ∧ NoNestedData w'.log ∧
    ⟨w.serial, ⟨some 1, 2⟩⟩ ∉ rans w'.log

/-- Reading only the other reply, the end of the stream or an error is enough. -/
theorem blocking_call_returns_early :
    ReturnsEarly [.data earlierReply] ∧ ReturnsEarly [.eof] ∧ ReturnsEarly [.error] := by
  have hall : ∀ reads ∈ [[.data earlierReply], [.eof], [.error]], ReturnsEarly reads := by
    intro reads hreads
    obtain ⟨w, hw, hcall⟩ := Option.bind_eq_some_iff.mp (blockingCall_runs.2 reads hreads)
    obtain ⟨⟨w', stat⟩, hcall, hdec⟩ := Option.map_eq_some_iff.mp hcall
    obtain ⟨rfl, hrest⟩ := of_decide_eq_true hdec
    exact ⟨w, w', hw, hcall, hrest⟩
  exact ⟨hall _ (by simp), hall _ (by simp), hall _ (by simp)⟩

end UnfsClient.Proofs
