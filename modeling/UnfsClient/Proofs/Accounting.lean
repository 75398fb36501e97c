import UnfsClient.Proofs.RecordStream
import UnfsClient.Proofs.Serving

/-!
# Outstanding calls

`ct_pendingcalls` goes down by one for every record that is completed, whether or not it is a
reply to a call. On a well answered stream this is the number of calls whose entry is still in
the table, also when callbacks use the handle, unless a callback reads data: the record that
is being processed is then handed on once more.
-/

namespace UnfsClient.Proofs

open Lib RecordMarking

/-- The calls that returned `RPC_SUCCESS` and whose entry is still in the table. -/
def outstanding (w : World) : List (Cbi × UInt32) :=
  (issued w.log).filter fun p => (leBytes p.2, some p.1) ∈ ghtEntries w.ct.ctXidToUcb

def untaken (log : List Event) : List (Cbi × UInt32) := (issued log).filter fun p => p.1 ∉ takens log

lemma RegInv.outstanding_eq {x₀ : UInt32} {w : World} (h : RegInv x₀ w) (hiss : IssuedInv w.log) :
    outstanding w = untaken w.log := by
  unfold outstanding untaken
  apply List.filter_congr
  rintro ⟨cbi, x⟩ hmem
  have hreg : (cbi, x) ∈ regs w.log := (hiss w.log (List.prefix_refl _)).subset hmem
  have hentry : (leBytes x, some cbi) ∈ ghtEntries w.ct.ctXidToUcb ↔ cbi ∉ takens w.log := by
    rw [h.table.entries_eq]
    constructor
    · intro he
      obtain ⟨⟨k, c⟩, hlive, heq⟩ := List.mem_map.mp he
      cases heq
      obtain ⟨y, -, hnt, -⟩ := RegInv.mem_live hlive
      exact hnt
    · intro hnt
      exact List.mem_map.mpr ⟨(leBytes x, cbi), List.mem_map.mpr
        ⟨(cbi, x), List.mem_filter.mpr ⟨hreg, by simpa using hnt⟩, rfl⟩, rfl⟩
  simp only [hentry]

/-- A list without repetition splits into the elements picked and the others. -/
lemma length_filter_not_mem {α β : Type} [DecidableEq β] (f : α → β) {l : List α} {ts : List β}
    (hl : (l.map f).Nodup) (hts : ts.Nodup) (hsub : ts ⊆ l.map f) :
    (l.filter fun a => f a ∉ ts).length + ts.length = l.length := by
  have hperm : ((l.filter fun a => f a ∈ ts).map f).Perm ts := by
    rw [List.perm_ext_iff_of_nodup (hl.sublist (List.filter_sublist.map f)) hts]
    intro b
    simp only [List.mem_map, List.mem_filter, decide_eq_true_eq]
    constructor
    · rintro ⟨a, ⟨-, hmem⟩, rfl⟩
      exact hmem
    · intro hb
      obtain ⟨a, ha, rfl⟩ := List.mem_map.mp (hsub hb)
      exact ⟨a, ⟨ha, hb⟩, rfl⟩
  have hsplit := List.length_eq_length_filter_add (l := l) (fun a => decide (f a ∈ ts))
  have hlen := hperm.length_eq
  rw [List.length_map] at hlen
  simp only [decide_not]
  omega

lemma Serving.untaken_length {E : Env} {k : Int} {x₀ : UInt32} {w : World} (h : Serving E k w) (hi : RegInv x₀ w)
    (hiss : IssuedInv w.log) : (untaken w.log).length + (takens w.log).length = (issued w.log).length := by
  have hsub := hiss w.log (List.prefix_refl _)
  apply length_filter_not_mem Prod.fst (hi.cbis_nodup.sublist (hsub.map _)) hi.takenNodup
  intro cbi hcbi
  obtain ⟨i, hlt, hget⟩ := List.mem_iff_getElem.mp hcbi
  have hlen := h.served.length_eq
  obtain ⟨x, hx, -⟩ := (List.forall₂_iff_get.mp h.served).2 i (by omega) hlt
  rw [List.get_eq_getElem, hget] at hx
  exact List.mem_map.mpr ⟨_, hx, rfl⟩

/-- Between API calls `ct_pendingcalls` is the number of calls whose entry is in the table. -/
lemma Serving.pending_eq {E : Env} {x₀ : UInt32} {w : World} (h : Serving E 0 w) (hi : RegInv x₀ w)
    (hiss : IssuedInv w.log) (hfew : (regs w.log).length < 2 ^ 31) :
    w.ct.ctPendingcalls = (untaken w.log).length := by
  have hlen := h.untaken_length hi hiss
  have hle := (hiss w.log (List.prefix_refl _)).length_le
  rw [h.pending, cInt_of_range (by omega) (by omega)]
  omega

lemma serving_start (E : Env) {ct : CtData} (hct : Created ct) : Serving E 0 (World.start ct) := by
  refine ⟨parses_created hct, rfl, .nil, ?_, ?_⟩
  · have hzero : cInt ((0 : Int) - 0 + 0) = 0 := cInt_of_range (by decide) (by decide)
    cases hct <;> exact hzero.symm
  · have hcint : ∀ x, cInt x < 2 ^ 31 := by
      intro x
      have := Int.bmod_lt (x := x) (m := 2 ^ 32) (by norm_num)
      unfold cInt
      omega
    cases hct <;>
    · change (if _ then defaultSockrwSize else _) < _
      split
      · decide
      · exact hcint _

/-- What holds after every run that is well answered. -/
lemma runOps_accounted {E : Env} (hE : AllocsSucceed E) {ct : CtData} (hct : Created ct) {exec : Exec}
    (hq : Quiet E exec) {ops : List Op} {w : World} (hrun : runOps E exec ops (World.start ct) = some w)
    (hans : WellAnswered E w.log) (hnest : NoNestedData w.log) (hfew : (regs w.log).length < 2 ^ 31) :
    RegInv ct.ctXid w ∧ IssuedInv w.log ∧ Serving E 0 w := by
  have hacts := runOps_acts hq.acts hrun
  have hiss : IssuedInv w.log := by
    apply hacts.issuedInv
    intro pre hpre
    obtain rfl := List.prefix_nil.mp hpre
    exact List.Sublist.refl _
  have hok : Benign E w.log := ⟨hiss, hans, hnest, by omega⟩
  exact ⟨hacts.regInv (regInv_start hct) (by omega), hiss,
    runOps_serving hE hq hrun (serving_start E hct) (regInv_start hct) hok⟩

/-- A call is logged as issued exactly when it returns `RPC_SUCCESS`. -/
lemma clnttcpNbCall_success_iff {E : Env} {exec : Exec} (hexec : ActsOnly E true exec) {x₀ : UInt32}
    {rpc : RpcProcInfo} {ucbi : CallbackInfo} {callflag : UInt64} {w w' : World} {stat : ClntStat} (hi : RegInv x₀ w)
    (hiss : IssuedInv w.log) (h : clnttcpNbCall E exec rpc ucbi callflag w = some (w', stat)) :
    stat = .success ↔ ∃ x, (⟨w.serial, ucbi⟩, x) ∈ issued w'.log := by
  have hfresh : ∀ {x log}, issued log = issued w.log → (⟨w.serial, ucbi⟩, x) ∉ issued log := by
    intro x log hlog hmem
    rw [hlog] at hmem
    exact Nat.lt_irrefl _ (hi.older _ ((hiss w.log (List.prefix_refl _)).subset hmem))
  rcases clnttcpNbCall_cases h with ⟨-, rfl, rfl⟩ | ⟨-, v, ok, henc, ⟨-, rfl, rfl⟩ | ⟨-, rfl, n, hrec⟩⟩
  · simp only [reduceCtorEq, false_iff]
    rintro ⟨x, hx⟩
    exact hfresh rfl hx
  · simp only [reduceCtorEq, false_iff]
    rintro ⟨x, hx⟩
    refine hfresh ?_ hx
    obtain ⟨es, hes, htr⟩ := (encodeCall_acts henc).txOnly.log
    rw [hes, issued_append, issued_ofTransmit htr, List.append_nil]
    simp [registerCall, issued, issuedOf?]
  · refine iff_of_true rfl ⟨byteSwap v.ct.ctXid, (clnttcpNbReceive_acts hexec hrec).issued_subset ?_⟩
    simp [issueCall, issued, issuedOf?]

/-- On a well answered stream `ct_pendingcalls` counts the outstanding calls and a receive returns
the number of entries taken out during it. -/
theorem pending_calls_accounted {E : Env} (hE : AllocsSucceed E) {ct : CtData} (hct : Created ct) (B : Behaviour)
    (n : Nat) {ops : List Op} {w : World} (hrun : runOps E (reentrant E B n) ops (World.start ct) = some w)
    (hans : WellAnswered E w.log) (hnest : NoNestedData w.log) (hfew : (regs w.log).length < 2 ^ 31) :
    w.ct.ctPendingcalls = (outstanding w).length ∧
    (w.ct.ctPendingcalls = 0 → outstanding w = []) ∧
    (∀ rpc ucbi callflag reads writes w' stat,
      clnttcpNbCall E (reentrant E B n) rpc ucbi callflag { w with reads := reads, writes := writes } =
        some (w', stat) → (stat = .success ↔ ∃ x, (⟨w.serial, ucbi⟩, x) ∈ issued w'.log)) ∧
    ∀ flag reads writes w' calledBack,
      clnttcpNbReceive E (reentrant E B n) flag { w with reads := reads, writes := writes } = some (w', calledBack) →
      WellAnswered E w'.log → NoNestedData w'.log → (regs w'.log).length < 2 ^ 31 →
        calledBack = (takens w'.log).length - (takens w.log).length := by
  have hq := quiet_reentrant E B n
  obtain ⟨hi, hiss, hs⟩ := runOps_accounted hE hct hq hrun hans hnest hfew
  have hpend : w.ct.ctPendingcalls = (outstanding w).length := by
    rw [hi.outstanding_eq hiss]
    exact hs.pending_eq hi hiss hfew
  refine ⟨hpend, ?_, ?_, ?_⟩
  · intro hzero
    apply List.length_eq_zero_iff.mp
    omega
  · intro rpc ucbi callflag reads writes w' stat hcall
    have hie := hi.enter reads writes
    exact clnttcpNbCall_success_iff (w := { w with reads := reads, writes := writes }) hq.acts hie hiss hcall
  · intro flag reads writes w' calledBack hrec hans' hnest' hfew'
    have hiss' : IssuedInv w'.log := (clnttcpNbReceive_acts hq.acts hrec).issuedInv hiss
    exact (clnttcpNbReceive_serving hE hq hrec (hs.enter reads writes) (hi.enter reads writes)
      ⟨hiss', hans', hnest', by omega⟩).2

/-- The callback of the first call makes a second one. -/
def chainedCall : Behaviour := fun cbi _ _ =>
  if cbi.info.cbPrivate = 1 then .call ⟨1, .done⟩ ⟨some 1, 2⟩ 7 fun _ => .done else .done

def chainedOps : List Op :=
  [.call ⟨1, .done⟩ ⟨some 1, 1⟩ 7 [] [.eagain],
    .receive 3 [.data (encodeRecords [[acceptedReply 0xffffff0f [9]]])] [.eagain]]

/-- A call, and a record of one byte, which is not a reply. -/
def undecodableOps : List Op :=
  [.call ⟨1, .done⟩ ⟨some 1, 1⟩ 7 [] [.eagain], .receive 3 [.data [0x80, 0, 0, 1, 5]] []]

lemma accounted_runs :
    (runOps replyEnv (reentrant replyEnv chainedCall 1) chainedOps (World.start authnoneHandle)).map
      (fun w => decide (WellAnswered replyEnv w.log ∧ NoNestedData w.log ∧ (regs w.log).length < 2 ^ 31 ∧
        (outstanding w).length = 1 ∧ ∀ p ∈ issued w.log, p.1.info.callback ≠ none)) = some true ∧
    (runOps replyEnv noReentry undecodableOps (World.start authnoneHandle)).map
      (fun w => (w.ct.ctPendingcalls, (outstanding w).length, (takens w.log).length)) = some (0, 1, 0) := by
  decide +kernel

lemma chainedOps_run :
    ∃ w, runOps replyEnv (reentrant replyEnv chainedCall 1) chainedOps (World.start authnoneHandle) = some w ∧
      WellAnswered replyEnv w.log ∧ NoNestedData w.log ∧ (regs w.log).length < 2 ^ 31 ∧
      (outstanding w).length = 1 ∧ ∀ p ∈ issued w.log, p.1.info.callback ≠ none := by
  obtain ⟨w, hw, hdec⟩ := Option.map_eq_some_iff.mp accounted_runs.1
  exact ⟨w, hw, of_decide_eq_true hdec⟩

theorem pending_calls_accounted_chained :
    ∃ w, runOps replyEnv (reentrant replyEnv chainedCall 1) chainedOps (World.start authnoneHandle) = some w ∧
      (outstanding w).length = 1 ∧ w.ct.ctPendingcalls = (outstanding w).length := by
  obtain ⟨w, hw, hans, hnest, hfew, hone, -⟩ := chainedOps_run
  exact ⟨w, hw, hone, (pending_calls_accounted replyEnv_allocs authnoneHandle_created chainedCall 1 hw hans hnest
    hfew).1⟩

/-- A record that does not decode is counted as the reply to the one outstanding call. -/
theorem undecodable_record_miscounts :
    (runOps replyEnv noReentry undecodableOps (World.start authnoneHandle)).map
      (fun w => (w.ct.ctPendingcalls, (outstanding w).length, (takens w.log).length)) = some (0, 1, 0) :=
  accounted_runs.2

/-! ## Callbacks that use the handle -/

/-- The entries taken out are those of the callbacks that ran. -/
def TakenRan (log : List Event) : Prop :=
  ∀ cbi, cbi.info.callback ≠ none → (cbi ∈ takens log ↔ cbi ∈ rans log)

lemma Act.takenRan {E : Env} {calls : Bool} {w w' : World} (h : Act E calls w w') (ht : TakenRan w.log) :
    TakenRan w'.log := by
  intro cbi hcb
  rcases h.books with hs | ⟨msg, xid, body, t, c, es, -, -, hes, -, -, -, hlog⟩ | ⟨-, ucbi, rfl⟩
  · rw [hs.books.2.1, hs.books.2.2]
    exact ht cbi hcb
  · rw [hlog, takens_append, rans_append, List.mem_append, List.mem_append, ht cbi hcb]
    apply or_congr Iff.rfl
    rcases hes with ⟨rfl, hnone⟩ | rfl
    · have hne : cbi ≠ c := fun heq => hcb (heq ▸ hnone)
      simp [takens, takenOf?, rans, ranOf?, hne]
    · rfl
  · have hlog := ht cbi hcb
    simpa [registerCall, takens, takenOf?, rans, ranOf?] using hlog

lemma Acts.takenRan {E : Env} {calls : Bool} {w w' : World} (h : Acts E calls w w') (ht : TakenRan w.log) :
    TakenRan w'.log := by
  induction h with
  | refl => exact ht
  | tail _ hact ih => exact hact.takenRan ih

/-- The calls that returned `RPC_SUCCESS` and whose callback has not run. -/
def unanswered (log : List Event) : List (Cbi × UInt32) := (issued log).filter fun p => p.1 ∉ rans log

lemma TakenRan.unanswered_eq {log : List Event} (h : TakenRan log) (hcb : ∀ p ∈ issued log, p.1.info.callback ≠ none) :
    unanswered log = untaken log := by
  unfold unanswered untaken
  apply List.filter_congr
  intro p hp
  simp only [h p.1 (hcb p hp)]

/-- As long as no `read` of a callback returns data, callbacks may use the handle: every record is
handed on once, in the order of the stream, and `ct_pendingcalls` is right between API calls. -/
theorem reentrant_calls_accounted {E : Env} (hE : AllocsSucceed E) {ct : CtData} (hct : Created ct) (B : Behaviour)
    (n : Nat) {ops : List Op} {w : World} (hrun : runOps E (reentrant E B n) ops (World.start ct) = some w)
    (hcb : ∀ p ∈ issued w.log, p.1.info.callback ≠ none) (hfew : (regs w.log).length < 2 ^ 31)
    (hans : WellAnswered E w.log) (hnest : NoNestedData w.log) :
    (recordsOf w.log).map Prod.fst = (received w.log).2 ∧ w.ct.ctPendingcalls = (unanswered w.log).length := by
  have hq := quiet_reentrant E B n
  obtain ⟨hi, hiss, hs⟩ := runOps_accounted hE hct hq hrun hans hnest hfew
  have htr : TakenRan w.log := (runOps_acts hq.acts hrun).takenRan fun cbi _ => Iff.rfl
  constructor
  · rw [hs.records, List.map_map]
    exact List.map_id _
  · rw [htr.unanswered_eq hcb]
    exact hs.pending_eq hi hiss hfew

theorem reentrant_calls_accounted_chained :
    ∃ w, runOps replyEnv (reentrant replyEnv chainedCall 1) chainedOps (World.start authnoneHandle) = some w ∧
      (recordsOf w.log).map Prod.fst = (received w.log).2 ∧ w.ct.ctPendingcalls = (unanswered w.log).length := by
  obtain ⟨w, hw, hans, hnest, hfew, -, hcb⟩ := chainedOps_run
  exact ⟨w, hw, reentrant_calls_accounted replyEnv_allocs authnoneHandle_created chainedCall 1 hw hcb hfew hans hnest⟩

/-- The callback of the first call receives. -/
def nestedReceive : Behaviour := fun cbi _ _ =>
  if cbi.info.cbPrivate = 1 then .receive 3 fun _ => .done else .done

/-- Two calls, and their replies in two reads, the second of which the callback of the first makes. -/
def nestedReceiveOps : List Op :=
  [.call ⟨1, .done⟩ ⟨some 1, 1⟩ 7 [] [.eagain], .call ⟨1, .done⟩ ⟨some 1, 2⟩ 7 [] [.eagain],
    .receive 3 [.data (encodeRecords [[acceptedReply 0xffffff0f []]]),
      .data (encodeRecords [[acceptedReply 0xfeffff0f []]])] []]

/-- The record of the first call is handed on twice, and both times it is counted. -/
theorem nested_read_repeats_record :
    ∃ w, runOps replyEnv (reentrant replyEnv nestedReceive 2) nestedReceiveOps (World.start authnoneHandle) = some w ∧
      WellAnswered replyEnv w.log ∧
      (received w.log).2 = [[acceptedReply 0xffffff0f []], [acceptedReply 0xfeffff0f []]] ∧
      (recordsOf w.log).map Prod.fst =
        [[acceptedReply 0xffffff0f []], [acceptedReply 0xffffff0f []], [acceptedReply 0xfeffff0f []]] ∧
      unanswered w.log = [] ∧ w.ct.ctPendingcalls = -1 := by
  have hrun : (runOps replyEnv (reentrant replyEnv nestedReceive 2) nestedReceiveOps (World.start authnoneHandle)).map
      (fun w : World => decide (WellAnswered replyEnv w.log ∧
        (received w.log).2 = [[acceptedReply 0xffffff0f []], [acceptedReply 0xfeffff0f []]] ∧
        (recordsOf w.log).map Prod.fst =
          [[acceptedReply 0xffffff0f []], [acceptedReply 0xffffff0f []], [acceptedReply 0xfeffff0f []]] ∧
        unanswered w.log = [] ∧ w.ct.ctPendingcalls = -1)) = some true := by decide +kernel
  obtain ⟨w, hw, hdec⟩ := Option.map_eq_some_iff.mp hrun
  exact ⟨w, hw, of_decide_eq_true hdec⟩

end UnfsClient.Proofs
