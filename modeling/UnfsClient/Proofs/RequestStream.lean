import UnfsClient.Proofs.Accounting
import UnfsClient.Proofs.ApiSteps

/-!
# The request stream

What a server reads from a handle on which no call failed: the bytes passed to `writetcp_nb` are
a sequence of whole records, one for each call that was issued and in the order of the calls, and
each record is the message of its call. This holds at the end of every API call, also of those
that callbacks make, and at every `read` in between.
-/

namespace UnfsClient.Proofs

open Lib RecordMarking Relation

/-! ## The record a call puts on the stream -/

/-- The stream takes `bs` without a refusal: each piece goes into the buffer, after a flush if there is
no room for it. -/
inductive Puts (E : Env) : World → Bytes → World → Prop where
  | nil (w : World) : Puts E w [] w
  | fits {w v : World} {p bs : Bytes} (hne : p ≠ [])
      (hroom : w.ct.ctXdrs.outBuf.length + p.length ≤ w.ct.ctXdrs.outSize)
      (t : Puts E (setOut w (w.ct.ctXdrs.outBuf ++ p)) bs v) : Puts E w (p ++ bs) v
  | flush {w u v : World} {p bs : Bytes} (hne : p ≠ []) (hroom : p.length ≤ w.ct.ctXdrs.outSize)
      (h : flushOut E false (setFragSent w true) = some (u, true))
      (t : Puts E (setOut u (u.ct.ctXdrs.outBuf ++ p)) bs v) : Puts E w (p ++ bs) v

lemma Puts.trans {E : Env} {w u v : World} {as bs : Bytes} (h : Puts E w as u) (t : Puts E u bs v) :
    Puts E w (as ++ bs) v := by
  induction h with
  | nil => exact t
  | fits hne hroom _ ih =>
    rw [List.append_assoc]
    exact .fits hne hroom (ih t)
  | flush hne hroom hflush _ ih =>
    rw [List.append_assoc]
    exact .flush hne hroom hflush (ih t)

/-- What was put is in whole fragments and in the buffer, which is empty only if nothing was put. -/
structure Framed (bs : Bytes) (w v : World) : Prop where
  outSize : v.ct.ctXdrs.outSize = w.ct.ctXdrs.outSize
  fits : v.ct.ctXdrs.outBuf.length ≤ v.ct.ctXdrs.outSize
  nonempty : w.ct.ctXdrs.outBuf ≠ [] ∨ bs ≠ [] → v.ct.ctXdrs.outBuf ≠ []
  pieces : ∃ ps : List Bytes, queuedList v.log = queuedList w.log ++ ps.map (outFragment false) ∧
    ps.flatten ++ v.ct.ctXdrs.outBuf = w.ct.ctXdrs.outBuf ++ bs ∧ ∀ p ∈ ps, p.length ≤ w.ct.ctXdrs.outSize

lemma Puts.framed {E : Env} {w v : World} {bs : Bytes} (h : Puts E w bs v)
    (hfits : w.ct.ctXdrs.outBuf.length ≤ w.ct.ctXdrs.outSize) : Framed bs w v := by
  induction h with
  | nil w => exact ⟨rfl, hfits, by simp, [], by simp, by simp, by simp⟩
  | @fits w v p bs hne hroom t ih =>
    have hput := ih (by simpa [setOut] using hroom)
    obtain ⟨ps, hq, hb, hlen⟩ := hput.pieces
    refine ⟨hput.outSize, hput.fits, fun _ => hput.nonempty (Or.inl (by simp [setOut, hne])), ps, hq, ?_, hlen⟩
    rw [hb]
    exact List.append_assoc _ _ _
  | @flush w u v p bs hne hroom hflush t ih =>
    obtain ⟨hqu, hsize, hbuf⟩ := flushOut_stream hflush
    have hsize : u.ct.ctXdrs.outSize = w.ct.ctXdrs.outSize := hsize
    have hbuf : u.ct.ctXdrs.outBuf = [] := hbuf
    have hput := ih (by simpa [setOut, hbuf, hsize] using hroom)
    obtain ⟨ps, hq, hb, hlen⟩ := hput.pieces
    refine ⟨hput.outSize.trans hsize, hput.fits, fun _ => hput.nonempty (Or.inl (by simp [setOut, hne])),
      w.ct.ctXdrs.outBuf :: ps, ?_, ?_, ?_⟩
    · rw [hq]
      change queuedList u.log ++ _ = _
      rw [hqu, List.append_assoc]
      rfl
    · rw [List.flatten_cons, List.append_assoc, hb]
      simp [setOut, hbuf]
    · intro q hmem
      rcases List.mem_cons.mp hmem with rfl | hmem
      · exact hfits
      · rw [← hsize]
        exact hlen q hmem

lemma Puts.outSize {E : Env} {w v : World} {bs : Bytes} (h : Puts E w bs v) :
    v.ct.ctXdrs.outSize = w.ct.ctXdrs.outSize := by
  induction h with
  | nil => rfl
  | fits _ _ _ ih => exact ih
  | flush _ _ hflush _ ih => exact ih.trans (flushOut_stream hflush).2.1

section

variable {E : Env} {w v : World}

lemma xdrrecPutbytes_puts {bs : Bytes} (hsize : 4 ≤ w.ct.ctXdrs.outSize)
    (h : xdrrecPutbytes E bs w = some (v, true)) : Puts E w bs v := by
  induction bs generalizing w with
  | nil =>
    cases h
    exact .nil _
  | cons b bs ih =>
    unfold xdrrecPutbytes at h
    split at h
    · rename_i hroom
      exact .fits (p := [b]) (by simp) hroom (ih hsize h)
    · split at h
      · cases h
      · cases h
      · rename_i u hflush
        refine .flush (p := [b]) (by simp) (by simp only [List.length_singleton]; omega) hflush (ih ?_ h)
        exact (flushOut_stream hflush).2.1.symm ▸ hsize

lemma xdrrecPutlong_puts {word : UInt32} (hsize : 4 ≤ w.ct.ctXdrs.outSize)
    (h : xdrrecPutlong E word w = some (v, true)) : Puts E w (beBytes word) v := by
  have hword : beBytes word ≠ [] := by simp [beBytes]
  rw [← List.append_nil (beBytes word)]
  unfold xdrrecPutlong at h
  split at h
  · rename_i hroom
    cases h
    exact .fits hword hroom (.nil _)
  · split at h
    · cases h
    · cases h
    · rename_i u hflush
      cases h
      exact .flush hword hsize hflush (.nil _)

lemma xdrrecPuts_puts {ps : List Put} (hsize : 4 ≤ w.ct.ctXdrs.outSize)
    (h : xdrrecPuts E ps w = some (v, true)) : Puts E w (ps.flatMap Put.toBytes) v := by
  induction ps generalizing w with
  | nil =>
    cases h
    exact .nil _
  | cons p ps ih =>
    unfold xdrrecPuts at h
    split at h
    · cases h
    · cases h
    · rename_i u hp
      have hput : Puts E w p.toBytes u := by
        cases p with
        | long word => exact xdrrecPutlong_puts hsize hp
        | bytes b => exact xdrrecPutbytes_puts hsize hp
      exact hput.trans (ih (hput.outSize.symm ▸ hsize) h)

lemma xdrrecEncode_puts {e : Encoding} (hsize : 4 ≤ w.ct.ctXdrs.outSize)
    (h : xdrrecEncode E e w = some (v, true)) : e.ok = true ∧ Puts E w e.bytes v := by
  unfold xdrrecEncode at h
  split at h
  · cases h
  · rename_i u sent hp
    obtain ⟨rfl, hok⟩ := Prod.mk.inj (Option.some.inj h)
    obtain ⟨rfl, hok⟩ := Bool.and_eq_true_iff.mp hok
    exact ⟨hok, xdrrecPuts_puts hsize hp⟩

/-- A call that is encoded puts its message on the stream and ends the record. -/
lemma encodeCall_puts {rpc : RpcProcInfo} (hsize : 4 ≤ w.ct.ctXdrs.outSize)
    (h : encodeCall E rpc w = some (v, true)) :
    w.ct.clAuth.ok = true ∧ rpc.inargs.ok = true ∧
      ∃ u, Puts E w (callBytes rpc w) u ∧ xdrrecEndofrecord E u = some (v, true) := by
  unfold encodeCall at h
  split at h
  · cases h
  · cases h
  rename_i w₁ h₁
  have p₁ := xdrrecPutbytes_puts hsize h₁
  split at h
  · cases h
  · cases h
  rename_i w₂ h₂
  have p₂ := p₁.trans (xdrrecPutlong_puts (p₁.outSize.symm ▸ hsize) h₂)
  have hauth : w₂.ct.clAuth = w.ct.clAuth := by
    have htx := (xdrrecPutbytes_acts h₁).txOnly.trans (xdrrecPutlong_acts h₂).txOnly
    exact (congrArg CtData.clAuth htx.ct :)
  split at h
  · cases h
  · cases h
  rename_i w₃ h₃
  obtain ⟨hok₃, hputs₃⟩ := xdrrecEncode_puts (p₂.outSize.symm ▸ hsize) h₃
  have p₃ := p₂.trans hputs₃
  split at h
  · cases h
  · cases h
  rename_i w₄ h₄
  obtain ⟨hok₄, hputs₄⟩ := xdrrecEncode_puts (p₃.outSize.symm ▸ hsize) h₄
  have p₄ := p₃.trans hputs₄
  rw [hauth] at hok₃ p₄
  exact ⟨hok₃, hok₄, w₄, p₄, h⟩

end

lemma encodeRecord_concat (ps : List Bytes) (last : Bytes) :
    encodeRecord (ps ++ [last]) = (ps.map (encodeFragment false)).flatten ++ encodeFragment true last := by
  induction ps with
  | nil => rfl
  | cons p ps ih =>
    obtain ⟨q, qs, hq⟩ := List.exists_cons_of_ne_nil (l := ps ++ [last]) (by simp)
    rw [List.cons_append, hq, encodeRecord, ← hq, ih, List.map_cons, List.flatten_cons, List.append_assoc]

/-- On an empty buffer the message of a call is one whole record of the stream. -/
lemma encodeCall_record {E : Env} {rpc : RpcProcInfo} {w v : World} (hsize : 4 ≤ w.ct.ctXdrs.outSize)
    (hmax : w.ct.ctXdrs.outSize < 2 ^ 31) (hempty : w.ct.ctXdrs.outBuf = [])
    (h : encodeCall E rpc w = some (v, true)) :
    v.ct.ctXdrs.outBuf = [] ∧ v.ct.ctXdrs.outSize = w.ct.ctXdrs.outSize ∧
      ∃ r : List Bytes, r.flatten = callBytes rpc w ∧ feed fresh (encodeRecord r) = (fresh, [r]) ∧
        (queuedList v.log).flatten = (queuedList w.log).flatten ++ encodeRecord r := by
  obtain ⟨-, -, u, hputs, hend⟩ := encodeCall_puts hsize h
  have hframed := hputs.framed (by rw [hempty]; exact Nat.zero_le _)
  obtain ⟨ps, hq, hbytes, hlen⟩ := hframed.pieces
  obtain ⟨hqv, hsizev, hbufv⟩ := flushOut_stream hend
  have hlast : u.ct.ctXdrs.outBuf ≠ [] := hframed.nonempty (Or.inr (by simp [callBytes, ctMcall, leBytes, beBytes]))
  have hfrag : ∀ eor, outFragment eor = encodeFragment eor := fun _ => rfl
  refine ⟨hbufv, hsizev.trans hframed.outSize, ps ++ [u.ct.ctXdrs.outBuf], ?_, ?_, ?_⟩
  · rw [List.flatten_append, List.flatten_singleton, hbytes, hempty]
    rfl
  · have hfits := hframed.fits
    have hall : ∀ p ∈ ps ++ [u.ct.ctXdrs.outBuf], p.length < 2 ^ 31 := by
      intro p hp
      rcases List.mem_append.mp hp with hp | hp
      · exact (hlen p hp).trans_lt hmax
      · rw [List.mem_singleton.mp hp]
        exact hfits.trans_lt (hframed.outSize ▸ hmax)
    have hfeed := feed_record [] (ps ++ [u.ct.ctXdrs.outBuf]) [] (by simp) hall (Or.inl (by simpa using hlast))
    rwa [List.append_nil] at hfeed
  · rw [hqv]
    change (queuedList u.log ++ [outFragment true u.ct.ctXdrs.outBuf]).flatten = _
    rw [hq, encodeRecord_concat, hfrag, hfrag, List.flatten_append, List.flatten_append, List.flatten_singleton,
      List.append_assoc]

/-! ## Requests and calls -/

/-- The message of a call with this xid. -/
def callMessage (ct : CtData) (rpc : RpcProcInfo) (x : UInt32) : Bytes :=
  beBytes x ++ ct.ctMcallRest ++ beBytes rpc.proc.toUInt32 ++ ct.clAuth.bytes ++ rpc.inargs.bytes

/-- A call that has been encoded and counted, with what it was made with. -/
structure CallMade where
  cbi : Cbi
  xid : UInt32
  rpc : RpcProcInfo

def callMade? : Event → Option CallMade
  | .issued cbi x rpc => some ⟨cbi, x, rpc⟩
  | _ => none

def callsMade (log : List Event) : List CallMade := log.filterMap callMade?

def CallMade.message (ct : CtData) (c : CallMade) : Bytes := callMessage ct c.rpc c.xid

lemma callsMade_append (a b : List Event) : callsMade (a ++ b) = callsMade a ++ callsMade b := List.filterMap_append

lemma issued_eq (log : List Event) : issued log = (callsMade log).map fun c => (c.cbi, c.xid) := by
  unfold issued callsMade
  rw [List.map_filterMap]
  apply List.filterMap_congr
  intro e _
  cases e <;> rfl

lemma callsMade_nil {es : List Event} (h : issued es = []) : callsMade es = [] := by
  rw [issued_eq] at h
  exact List.map_eq_nil_iff.mp h

/-- The byte machine after everything passed to `writetcp_nb`, and the records on the way. -/
def onWire (log : List Event) : Stream × List (List Bytes) := feed fresh (queuedList log).flatten

/-- What was passed to `writetcp_nb` are the messages of the issued calls, one record each. -/
def Requested (ct : CtData) (log : List Event) : Prop :=
  (onWire log).1 = fresh ∧ (onWire log).2.map List.flatten = (callsMade log).map (CallMade.message ct)

/-- A record on the wire is the message of a call. -/
lemma Requested.mem {ct : CtData} {log : List Event} (h : Requested ct log) {q : List Bytes} (hq : q ∈ (onWire log).2) :
    ∃ c ∈ callsMade log, q.flatten = c.message ct := by
  have hmem := List.mem_map_of_mem (f := List.flatten) hq
  rw [h.2] at hmem
  obtain ⟨c, hc, hmsg⟩ := List.mem_map.mp hmem
  exact ⟨c, hc, hmsg.symm⟩

/-- Between two calls on the handle `ct`, no one of which has failed. -/
structure Ready (ct : CtData) (w : World) : Prop where
  auth : w.ct.clAuth = ct.clAuth
  header : w.ct.ctMcallRest = ct.ctMcallRest
  outSize : w.ct.ctXdrs.outSize = ct.ctXdrs.outSize
  outBuf : w.ct.ctXdrs.outBuf = []
  requested : Requested ct w.log
  reads : ∀ pre depth r, pre ++ [.read depth r] <+: w.log → Requested ct pre

lemma Requested.append {ct : CtData} {log es : List Event} (h : Requested ct log)
    (hes : ∀ e ∈ es, ofCall e = false) : Requested ct (log ++ es) := by
  obtain ⟨hq, -, hi⟩ := ofCall_quiet hes
  unfold Requested onWire
  rw [queuedList_append, callsMade_append, hq, callsMade_nil hi, List.append_nil, List.append_nil]
  exact h

/-- A prefix that ends in a `read` ends before the new events or among them. -/
lemma read_split {pre log es : List Event} {depth : Nat} {r : ReadResult}
    (h : pre ++ [.read depth r] <+: log ++ es) :
    pre ++ [.read depth r] <+: log ∨ ∃ mid, pre = log ++ mid ∧ mid ++ [.read depth r] <+: es := by
  rcases List.prefix_or_prefix_of_prefix h (List.prefix_append log es) with hpre | hlog
  · exact Or.inl hpre
  · rcases List.prefix_concat_iff.mp hlog with heq | ⟨mid, rfl⟩
    · exact Or.inl (by rw [heq])
    · rw [List.append_assoc] at h
      exact Or.inr ⟨mid, rfl, (List.prefix_append_right_inj log).mp h⟩

lemma Ready.extend {ct : CtData} {w w' : World} {es : List Event} (h : Ready ct w) (hxdrs : w'.ct.ctXdrs = w.ct.ctXdrs)
    (hauth : w'.ct.clAuth = w.ct.clAuth) (hheader : w'.ct.ctMcallRest = w.ct.ctMcallRest)
    (hes : w'.log = w.log ++ es) (hno : ∀ e ∈ es, ofCall e = false) : Ready ct w' := by
  refine ⟨hauth.trans h.auth, hheader.trans h.header, by rw [hxdrs]; exact h.outSize, by rw [hxdrs]; exact h.outBuf,
    by rw [hes]; exact h.requested.append hno, ?_⟩
  intro pre depth r hpre
  rw [hes] at hpre
  rcases read_split hpre with hpre | ⟨mid, rfl, hmid⟩
  · exact h.reads pre depth r hpre
  · exact h.requested.append fun e he => hno e (hmid.subset (List.mem_append_left _ he))

lemma Ready.kept {ct : CtData} {w w' : World} (h : Ready ct w) (t : StreamKept w w') : Ready ct w' := by
  obtain ⟨es, hes, hno⟩ := t.noCall
  exact h.extend t.xdrs t.auth t.header hes hno

/-- What API calls do between `w` and `w'`: if they all succeed, the requests stay whole. -/
def Asks (ct : CtData) (w w' : World) : Prop :=
  ∃ es, w'.log = w.log ++ es ∧ (issued es).Sublist (regs es) ∧
    (issued es = regs es → Ready ct w → Ready ct w')

lemma asks_noCall {ct : CtData} {w w' : World} {es : List Event} (hes : w'.log = w.log ++ es)
    (hno : ∀ e ∈ es, ofCall e = false) (hready : Ready ct w → Ready ct w') : Asks ct w w' := by
  obtain ⟨-, hr, hi⟩ := ofCall_quiet hno
  exact ⟨es, hes, by rw [hr, hi], fun _ => hready⟩

lemma asks_kept {ct : CtData} {w w' : World} (h : StreamKept w w') : Asks ct w w' := by
  obtain ⟨es, hes, hno⟩ := h.noCall
  exact asks_noCall hes hno fun hw => hw.kept h

/-- Where all calls succeed, those of each part do. -/
lemma all_issued_append {a b : List Event} (ha : (issued a).Sublist (regs a)) (hb : (issued b).Sublist (regs b))
    (h : issued (a ++ b) = regs (a ++ b)) : issued a = regs a ∧ issued b = regs b := by
  rw [issued_append, regs_append] at h
  have hlen := congrArg List.length h
  have hlea := ha.length_le
  have hleb := hb.length_le
  simp only [List.length_append] at hlen
  exact List.append_inj h (by omega)

lemma Asks.trans {ct : CtData} {w v w' : World} (h : Asks ct w v) (t : Asks ct v w') : Asks ct w w' := by
  obtain ⟨es, hes, hsub, hready⟩ := h
  obtain ⟨es', hes', hsub', hready'⟩ := t
  refine ⟨es ++ es', by rw [hes', hes, List.append_assoc], ?_, ?_⟩
  · rw [issued_append, regs_append]
    exact hsub.append hsub'
  · intro heq hw
    obtain ⟨hfirst, hsecond⟩ := all_issued_append hsub hsub' heq
    exact hready' hsecond (hready hfirst hw)

section

variable {E : Env} {calls : Bool} {ct : CtData}

/-- A call has been encoded: its message is a record more on the wire. -/
lemma Ready.request {rpc : RpcProcInfo} {cbi : Cbi} {w v : World} (hsize : 4 ≤ ct.ctXdrs.outSize)
    (hmax : ct.ctXdrs.outSize < 2 ^ 31) (hw : Ready ct w)
    (henc : encodeCall E rpc (registerCall cbi w.tick) = some (v, true)) :
    v.ct.ctXdrs.outBuf = [] ∧ v.ct.ctXdrs.outSize = ct.ctXdrs.outSize ∧
      ∃ r, r.flatten = callMessage ct rpc (byteSwap (w.ct.ctXid - 1)) ∧
        onWire (issueCall v cbi rpc).log = (fresh, (onWire w.log).2 ++ [r]) := by
  obtain ⟨hbuf, hout, r, hflat, hfeed, hq⟩ := encodeCall_record (w := registerCall cbi w.tick)
    (by rw [registerCall_xdrs, hw.outSize]; exact hsize) (by rw [registerCall_xdrs, hw.outSize]; exact hmax)
    (by rw [registerCall_xdrs]; exact hw.outBuf) henc
  refine ⟨hbuf, hout.trans hw.outSize, r, ?_, ?_⟩
  · have hmcall : ctMcall (registerCall cbi w.tick).ct = beBytes (byteSwap (w.ct.ctXid - 1)) ++ ct.ctMcallRest := by
      rw [← leBytes_eq_beBytes_byteSwap, ← hw.header]
      rfl
    have hcred : (registerCall cbi w.tick).ct.clAuth = ct.clAuth := hw.auth
    rw [hflat, callBytes, hmcall, hcred, callMessage]
  · have hqw : queuedList (registerCall cbi w.tick).log = queuedList w.log :=
      (queuedList_append w.log _).trans (List.append_nil _)
    have hqv : queuedList (issueCall v cbi rpc).log = queuedList v.log :=
      (queuedList_append v.log _).trans (List.append_nil _)
    rw [← hqv, hqw] at hq
    have hfresh := hw.requested.1
    unfold onWire at hfresh ⊢
    rw [hq, feed_append, hfresh, hfeed]

lemma Ready.issue {rpc : RpcProcInfo} {cbi : Cbi} {w v : World} (hsize : 4 ≤ ct.ctXdrs.outSize)
    (hmax : ct.ctXdrs.outSize < 2 ^ 31) (hw : Ready ct w)
    (henc : encodeCall E rpc (registerCall cbi w.tick) = some (v, true)) : Ready ct (issueCall v cbi rpc) := by
  have htx := (encodeCall_acts henc).txOnly
  obtain ⟨es, hes, htr⟩ := htx.log
  have hauth : v.ct.clAuth = w.ct.clAuth := (congrArg CtData.clAuth htx.ct :)
  have hheader : v.ct.ctMcallRest = w.ct.ctMcallRest := (congrArg CtData.ctMcallRest htx.ct :)
  have hxid : v.ct.ctXid = w.ct.ctXid - 1 := (congrArg CtData.ctXid htx.ct :)
  obtain ⟨hbuf, hout, r, hflat, hwire⟩ := hw.request hsize hmax henc
  refine ⟨hauth.trans hw.auth, hheader.trans hw.header, hout, hbuf, ?_, ?_⟩
  · have hmade : callsMade (issueCall v cbi rpc).log = callsMade w.log ++ [⟨cbi, byteSwap (w.ct.ctXid - 1), rpc⟩] := by
      have hv : callsMade v.log = callsMade w.log := by
        rw [hes, callsMade_append, callsMade_nil (issued_ofTransmit htr), List.append_nil]
        exact (callsMade_append w.log _).trans (List.append_nil _)
      rw [← hv, ← hxid]
      exact callsMade_append v.log _
    unfold Requested
    rw [hwire, hmade, List.map_append, List.map_append, hw.requested.2]
    exact ⟨rfl, congrArg _ (congrArg (fun m => [m]) hflat)⟩
  · intro pre depth res hpre
    apply hw.reads pre depth res
    have hlog : (issueCall v cbi rpc).log = w.log ++ ([.registered cbi (byteSwap (w.ct.ctXid - 1))
        (ghtInsert w.ct.ctXidToUcb cbi (leBytes (byteSwap (w.ct.ctXid - 1)))).2] ++ es ++
          [.issued cbi (byteSwap v.ct.ctXid) rpc]) := by
      simp [issueCall, setPending, hes, registerCall, World.tick]
    rw [hlog] at hpre
    rcases read_split hpre with hpre | ⟨mid, -, hmid⟩
    · exact hpre
    · have hmem := hmid.subset (List.mem_append_right mid (List.mem_singleton_self _))
      rcases List.mem_append.mp hmem with hmem | hmem
      · rcases List.mem_append.mp hmem with hmem | hmem
        · cases List.mem_singleton.mp hmem
        · cases htr _ hmem
      · cases List.mem_singleton.mp hmem

/-- A call that fails is registered but not issued; one that does not adds its record. -/
lemma ApiStep.asks (hsize : 4 ≤ ct.ctXdrs.outSize) (hmax : ct.ctXdrs.outSize < 2 ^ 31) {w w' : World}
    (h : ApiStep E calls w w') : Asks ct w w' := by
  have hreg : ∀ cbi, ∃ res, (registerCall cbi w.tick).log =
      w.log ++ [.registered cbi (byteSwap (w.ct.ctXid - 1)) res] := fun _ => ⟨_, rfl⟩
  cases h with
  | kept h => exact asks_kept h
  | collate =>
    obtain ⟨es, hes, hno, rs, hct⟩ := collated_log E w
    exact asks_noCall hes hno fun hw => hw.extend (by rw [hct]) (by rw [hct]) (by rw [hct]) hes hno
  | @failed _ rpc ucbi _ _ henc =>
    obtain ⟨res, hreg⟩ := hreg ⟨w.serial, ucbi⟩
    obtain ⟨es, hes, htr⟩ := (encodeCall_acts henc).txOnly.log
    refine ⟨.registered ⟨w.serial, ucbi⟩ (byteSwap (w.ct.ctXid - 1)) res :: es, ?_, ?_, ?_⟩
    · rw [hes, hreg, List.append_assoc]
      rfl
    · change (issued es).Sublist _
      rw [issued_ofTransmit htr]
      exact List.nil_sublist _
    · intro heq
      have hnil : issued es = _ := heq
      rw [issued_ofTransmit htr] at hnil
      cases hnil
  | @issue _ rpc ucbi _ v henc =>
    obtain ⟨res, hreg⟩ := hreg ⟨w.serial, ucbi⟩
    have htx := (encodeCall_acts henc).txOnly
    obtain ⟨es, hes, htr⟩ := htx.log
    have hxid : v.ct.ctXid = w.ct.ctXid - 1 := (congrArg CtData.ctXid htx.ct :)
    have hlog : (issueCall v ⟨w.serial, ucbi⟩ rpc).log = w.log ++
        (.registered ⟨w.serial, ucbi⟩ (byteSwap (w.ct.ctXid - 1)) res :: es ++
          [.issued ⟨w.serial, ucbi⟩ (byteSwap (w.ct.ctXid - 1)) rpc]) := by
      simp [issueCall, setPending, hes, hreg, hxid]
    have hissued : issued (.registered ⟨w.serial, ucbi⟩ (byteSwap (w.ct.ctXid - 1)) res :: es ++
        [.issued ⟨w.serial, ucbi⟩ (byteSwap (w.ct.ctXid - 1)) rpc]) =
        [(⟨w.serial, ucbi⟩, byteSwap (w.ct.ctXid - 1))] := by
      rw [issued_append]
      change issued es ++ _ = _
      rw [issued_ofTransmit htr]
      rfl
    refine ⟨_, hlog, ?_, fun _ hw => hw.issue hsize hmax henc⟩
    rw [hissued, regs_append]
    exact List.singleton_sublist.mpr (List.mem_append_left _ List.mem_cons_self)

lemma ApiSteps.asks (hsize : 4 ≤ ct.ctXdrs.outSize) (hmax : ct.ctXdrs.outSize < 2 ^ 31) {w w' : World}
    (h : ApiSteps E calls w w') : Asks ct w w' := by
  induction h with
  | refl => exact asks_kept (streamKept_refl w)
  | tail _ hstep ih => exact ih.trans (hstep.asks hsize hmax)

end

lemma ready_start {ct : CtData} (hct : Created ct) : Ready ct (World.start ct) := by
  refine ⟨rfl, rfl, rfl, ?_, ⟨rfl, rfl⟩, ?_⟩
  · cases hct <;> rfl
  · intro pre depth r hpre
    exact absurd (List.prefix_nil.mp hpre) (by simp)

/-- Records on the wire stay there. -/
lemma onWire_grows {a b : List Event} (h : a <+: b) : (onWire a).2 <+: (onWire b).2 := by
  obtain ⟨es, rfl⟩ := h
  unfold onWire
  rw [queuedList_append, List.flatten_append, feed_append]
  exact List.prefix_append _ _

/-- A request starts with the xid of its call. -/
lemma callMessage_xid (ct : CtData) (rpc : RpcProcInfo) (x : UInt32) : (callMessage ct rpc x).take 4 = beBytes x := by
  simp only [callMessage, List.append_assoc]
  exact List.take_left' (beBytes_length _)

/-- No two calls have one xid. -/
lemma callsMade_xids {x₀ : UInt32} {w : World} (hi : RegInv x₀ w) (hiss : (issued w.log).Sublist (regs w.log))
    (hfew : (regs w.log).length ≤ 2 ^ 32) : ((callsMade w.log).map CallMade.xid).Nodup := by
  have hnd := (hi.xids_nodup hfew).sublist (hiss.map Prod.snd)
  rwa [issued_eq, List.map_map] at hnd

/-- What holds after every run in which no call failed. -/
lemma runOps_ready {E : Env} {ct : CtData} (hct : Created ct) (hmax : ct.ctXdrs.outSize < 2 ^ 31) (B : Behaviour)
    (n : Nat) {ops : List Op} {w : World} (hrun : runOps E (reentrant E B n) ops (World.start ct) = some w)
    (hok : issued w.log = regs w.log) : Ready ct w := by
  have hsize := outSize_created hct
  obtain ⟨es, hes, -, hready⟩ := ApiSteps.asks hsize hmax (runOps_steps (reentrant_steps E B n (Or.inl rfl)) hrun)
  obtain rfl : w.log = es := hes
  exact hready hok (ready_start hct)

/-- What has been sent and what is waiting to be sent are the whole requests of the calls made, one
record each and in their order, under different xids; and a call that succeeds adds its message
to them, before those of the calls its callbacks make. -/
theorem requests_whole_and_in_order {E : Env} (hE : AllocsSucceed E) {ct : CtData} (hct : Created ct)
    (hmax : ct.ctXdrs.outSize < 2 ^ 31) (B : Behaviour) (n : Nat) {ops : List Op} {w : World}
    (hrun : runOps E (reentrant E B n) ops (World.start ct) = some w) (hok : issued w.log = regs w.log)
    (hfew : (regs w.log).length ≤ 2 ^ 32) :
    ∃ recs, feed fresh (sentBytes w.log ++ w.ct.ctSndlist.flatMap unsent) = (fresh, recs) ∧
      recs.map List.flatten = (callsMade w.log).map (CallMade.message ct) ∧
      (recs.map fun r => r.flatten.take 4).Nodup ∧
      ∀ rpc ucbi callflag reads writes w',
        clnttcpNbCall E (reentrant E B n) rpc ucbi callflag { w with reads := reads, writes := writes } =
          some (w', .success) →
        ∃ r, recs ++ [r] <+: (feed fresh (sentBytes w'.log ++ w'.ct.ctSndlist.flatMap unsent)).2 ∧
          r.flatten = callMessage ct rpc (byteSwap (w.ct.ctXid - 1)) := by
  have hacts := runOps_acts (reentrant_acts E B n) hrun
  have hready := runOps_ready hct hmax B n hrun hok
  have hwire : ∀ {v : World}, Acts E true (World.start ct) v →
      feed fresh (sentBytes v.log ++ v.ct.ctSndlist.flatMap unsent) = onWire v.log := by
    intro v hv
    rw [(hv.txInv hE (txInv_created hct)).stream, queuedBytes_eq]
    rfl
  refine ⟨(onWire w.log).2, ?_, hready.requested.2, ?_, ?_⟩
  · rw [hwire hacts, ← hready.requested.1]
  · have hxids : ((onWire w.log).2.map fun r => r.flatten.take 4) =
        ((callsMade w.log).map CallMade.xid).map beBytes := by
      have htake := congrArg (List.map (List.take 4)) hready.requested.2
      rw [List.map_map, List.map_map] at htake
      rw [List.map_map]
      exact htake.trans (List.map_congr_left fun c _ => callMessage_xid ct c.rpc c.xid)
    rw [hxids]
    exact (callsMade_xids (hacts.regInv (regInv_start hct) hfew) (by rw [hok]) hfew).map beBytes_injective
  · intro rpc ucbi callflag reads writes w' hcall
    have henter : Acts E true w { w with reads := reads, writes := writes } := .single (.enter rfl w reads writes)
    have hacts' := hacts.trans (henter.trans (clnttcpNbCall_acts (reentrant_acts E B n) hcall))
    rcases clnttcpNbCall_cases hcall with ⟨-, -, hstat⟩ | ⟨-, v, ok, henc, ⟨-, -, hstat⟩ | ⟨rfl, -, m, hrec⟩⟩
    · cases hstat
    · cases hstat
    have hentered := hready.kept (streamKept_enter w reads writes)
    obtain ⟨-, -, r, hflat, hnext⟩ := hentered.request (outSize_created hct) hmax henc
    refine ⟨r, ?_, hflat⟩
    have hgrow := onWire_grows (clnttcpNbReceive_acts (reentrant_acts E B n) hrec).log_grows
    rw [hnext] at hgrow
    rw [hwire hacts']
    exact hgrow

/-- The callback of a first call makes a second one, the request of which is still waiting. -/
theorem requests_whole_and_in_order_chained :
    ∃ w recs, runOps replyEnv (reentrant replyEnv chainedCall 1) chainedOps (World.start authnoneHandle) = some w ∧
      feed fresh (sentBytes w.log ++ w.ct.ctSndlist.flatMap unsent) = (fresh, recs) ∧
      recs.map List.flatten =
        [callMessage authnoneHandle ⟨1, .done⟩ 0xffffff0f, callMessage authnoneHandle ⟨1, .done⟩ 0xfeffff0f] := by
  have hrun : (runOps replyEnv (reentrant replyEnv chainedCall 1) chainedOps (World.start authnoneHandle)).map
      (fun w : World => decide (issued w.log = regs w.log ∧ (regs w.log).length ≤ 2 ^ 32 ∧
        (callsMade w.log).map (CallMade.message authnoneHandle) =
          [callMessage authnoneHandle ⟨1, .done⟩ 0xffffff0f, callMessage authnoneHandle ⟨1, .done⟩ 0xfeffff0f])) =
      some true := by decide +kernel
  obtain ⟨w, hw, hdec⟩ := Option.map_eq_some_iff.mp hrun
  obtain ⟨hok, hfew, hmade⟩ := of_decide_eq_true hdec
  obtain ⟨recs, hfeed, hreq, -⟩ := requests_whole_and_in_order replyEnv_allocs authnoneHandle_created (by decide)
    chainedCall 1 hw hok hfew
  exact ⟨w, recs, hw, hfeed, hreq.trans hmade⟩

end UnfsClient.Proofs
