import UnfsClient.Proofs.DecodeFree

/-!
# What a refused message leaks

A wrapper that fails frees the structure and none of the buffers. Whether there were any can be read
off the message: a buffer is asked for by the count of a handle or a name and a node by the flag before
it. A pair balances on a message just when it is decoded or asks for nothing up to where it is refused.
-/

namespace UnfsClient.Proofs

open Lib

/-!
## Messages that ask for nothing
-/

/-- No buffer is asked for a handle: it is refused, or it is empty and `rest` holds behind it. -/
def NoHandle (rest : Bytes → Prop) (b : Bytes) : Prop :=
  ∀ n r, Decoder.getLong b = some (n, r) → 64 < n ∨ n = 0 ∧ rest r

/-- No buffer is asked for a name, which has a terminator even when it is empty. -/
def NoName (maxsize : UInt32) (b : Bytes) : Prop :=
  ∀ n r, Decoder.getLong b = some (n, r) → maxsize < n ∨ n + 1 = 0

/-- `diropargs3`. -/
abbrev NoDiropargs : Bytes → Prop := NoHandle (NoName 0xffffffff)

/-- `post_op_fh3`: a handle that may be there. -/
def NoPostOpHandle (b : Bytes) : Prop :=
  ∀ x r, XdrProc.bool.decode b = some (x, r) → isTrue x = true → NoHandle (fun _ => True) r

/-- `READLINK3resok`: the path behind the attributes. -/
def NoPath (b : Bytes) : Prop := ∀ x r, xdrPostOpAttr.decode b = some (x, r) → NoName 0xffffffff r

/-- `READDIR3resok`: the entries behind the attributes and the verifier. -/
def NoEntry (b : Bytes) : Prop :=
  ∀ x r, xdrPostOpAttr.decode b = some (x, r) → ∀ y s, xdrCookieverf3.decode r = some (y, s) →
    ∀ t, XdrProc.moreData s ≠ some (true, t)

/-- `rest` holds behind the status if it is `NFS3_OK`. -/
def AfterOk (rest : Bytes → Prop) (b : Bytes) : Prop :=
  ∀ x r, xdrNfsstat3.decode b = some (x, r) → statusOk x = true → rest r

section Members

variable {m : Memory Member} {l : List Member} {b : Bytes}

/-- A handle that asks for no buffer, and what is decoded behind it. -/
lemma handle_then_eq_nil (hnull : m (l ++ [Member.data] ++ [Member.dataVal]) = 0) {P : Bytes → Prop} :
    (xdrNfsFh3Drawn.ledger m l b = [] ∧
      ∀ r, (∃ v, (xdrNfsFh3Drawn.run m l b).outcome = .done v r) → P r) ↔ NoHandle P b := by
  have hledger : xdrNfsFh3Drawn.ledger m l b = [] ↔ Ledger.bytes 64 [Member.dataVal] m (l ++ [.data]) b = [] :=
    Ledger.member_eq_nil
  rw [hledger]
  constructor
  · rintro ⟨hnil, hrest⟩ n r hlong
    cases (Ledger.bytes_eq_nil hnull).mp hnil n r hlong with
    | inl hzero =>
      subst hzero
      have hdone : ∃ v, (xdrNfsFh3Drawn.run m l b).outcome = .done v r :=
        InPlace.exists_first_done.mpr ((Ledger.bytes_nil_done hnull hnil).mpr hlong)
      exact .inr ⟨rfl, hrest r hdone⟩
    | inr hbig => exact .inl hbig
  · intro h
    have hnil : Ledger.bytes 64 [Member.dataVal] m (l ++ [.data]) b = [] :=
      (Ledger.bytes_eq_nil hnull).mpr fun n r hlong => (h n r hlong).symm.imp_left And.left
    refine ⟨hnil, fun r hdone => ?_⟩
    have hlong := (Ledger.bytes_nil_done hnull hnil).mp (InPlace.exists_first_done.mp hdone)
    cases h 0 r hlong with
    | inl hbig => exact absurd hbig (by decide)
    | inr hrest => exact hrest.2

lemma handle_eq_nil (hnull : m (l ++ [Member.data] ++ [Member.dataVal]) = 0) :
    xdrNfsFh3Drawn.ledger m l b = [] ↔ NoHandle (fun _ => True) b := by
  rw [← handle_then_eq_nil hnull]
  exact (and_iff_left fun _ _ => trivial).symm

lemma postOpFh3_eq_nil (hnull : m (l ++ [Member.u, Member.handle] ++ [Member.data] ++ [Member.dataVal]) = 0) :
    xdrPostOpFh3Drawn.ledger m l b = [] ↔ NoPostOpHandle b := by
  refine Ledger.union_eq_nil.trans ?_
  refine forall_congr' fun x => forall_congr' fun r => imp_congr_right fun _ => imp_congr_right fun _ => ?_
  exact Ledger.member_eq_nil.trans (handle_eq_nil hnull)

section Diropargs

variable (hdir : m (l ++ [Member.dir] ++ [Member.data] ++ [Member.dataVal]) = 0)
  (hname : m (l ++ [Member.name] ++ []) = 0)

include hname

/-- A name that is decoded has a block. -/
lemma diropargs_done {v : Diropargs3} {r : Bytes} (h : (xdrDiropargs3Drawn.run m l b).outcome = .done v r) :
    xdrDiropargs3Drawn.ledger m l b ≠ [] := by
  obtain ⟨f, a, s, -, ha, -, hledger⟩ := Drawn.field_done h
  intro hnil
  have hrest := (List.append_eq_nil_iff.mp (hledger.symm.trans hnil)).2
  exact Ledger.string_ne_nil hname ha (Ledger.member_eq_nil.mp hrest)

include hdir

lemma diropargs_eq_nil : xdrDiropargs3Drawn.ledger m l b = [] ↔ NoDiropargs b := by
  refine Iff.trans (Ledger.andThen_eq_nil.trans (and_congr Ledger.member_eq_nil ?_)) (handle_then_eq_nil hdir)
  refine forall_congr' fun r => imp_congr InPlace.exists_first_done ?_
  exact Ledger.string_eq_nil hname

end Diropargs

end Members

/-!
## Arguments and results
-/

section Routines

variable {m : Memory Member} {b : Bytes} {q : List Member}

lemma handleArgs_eq_nil (hnull : m (q ++ [Member.data] ++ [Member.dataVal]) = 0) :
    xdrNfsFh3Drawn.ledger.member q m [] b = [] ↔ NoHandle (fun _ => True) b :=
  Ledger.member_eq_nil.trans (handle_eq_nil hnull)

lemma nameArgs_eq_nil (hdir : m (q ++ [Member.dir] ++ [Member.data] ++ [Member.dataVal]) = 0)
    (hname : m (q ++ [Member.name] ++ []) = 0) :
    xdrDiropargs3Drawn.ledger.member q m [] b = [] ↔ NoDiropargs b :=
  Ledger.member_eq_nil.trans (diropargs_eq_nil hdir hname)

/-- The members behind a name are not come to without the block of the name. -/
lemma nameThenArgs_eq_nil {σ β : Type} {f : Diropargs3 → β} {get : σ → Diropargs3} {q' : List Member}
    {e : Ledger Member} (hdir : m (q ++ [Member.dir] ++ [Member.data] ++ [Member.dataVal]) = 0)
    (hname : m (q ++ [Member.name] ++ []) = 0) :
    (xdrDiropargs3Drawn.ledger.member q).andThen (InPlace.first f get q xdrDiropargs3Drawn.toInPlace) q' e m [] b =
      [] ↔ NoDiropargs b := by
  rw [← nameArgs_eq_nil hdir hname]
  refine Ledger.andThen_eq_nil_of_done fun v r hdone hnil => ?_
  obtain ⟨a, ha⟩ := InPlace.exists_first_done.mp ⟨v, hdone⟩
  exact diropargs_done hname ha (Ledger.member_eq_nil.mp hnil)

lemma linkArgs_eq_nil (hfile : m [.file, .data, .dataVal] = 0) (hdir : m [.link, .dir, .data, .dataVal] = 0)
    (hname : m [.link, .name] = 0) :
    xdrLINK3argsDrawn.ledger m [] b = [] ↔ NoHandle NoDiropargs b := by
  refine Iff.trans (Ledger.andThen_eq_nil.trans (and_congr Ledger.member_eq_nil ?_)) (handle_then_eq_nil hfile)
  refine forall_congr' fun r => imp_congr InPlace.exists_first_done ?_
  exact diropargs_eq_nil hdir hname

section FirstName

variable {σ β : Type} {maxsize : UInt32} {f : Option CString → β} {get : σ → Option CString}
  (hnull : m (q ++ []) = 0)

include hnull

lemma firstName_done {v : β} {r : Bytes}
    (h : ((InPlace.first f get q (.string maxsize [])).run m [] b).outcome = .done v r) :
    (Ledger.string maxsize []).member q m [] b ≠ [] := by
  intro hnil
  obtain ⟨a, ha⟩ := InPlace.exists_first_done.mp ⟨v, h⟩
  exact Ledger.string_ne_nil hnull ha (Ledger.member_eq_nil.mp hnil)

lemma firstName_then_eq_nil {q' : List Member} {e : Ledger Member} :
    ((Ledger.string maxsize []).member q).andThen (InPlace.first f get q (.string maxsize [])) q' e m [] b = [] ↔
      NoName maxsize b := by
  refine (Ledger.andThen_eq_nil_of_done fun v r => firstName_done hnull).trans ?_
  exact Ledger.member_eq_nil.trans (Ledger.string_eq_nil hnull)

end FirstName

lemma mountlist_eq_nil (hnull : m [.mlHostname] = 0) :
    xdrMountlistLedger m [] b = [] ↔ ∀ r, XdrProc.moreData b = some (true, r) → NoName 255 r := by
  refine (Ledger.firstNode_eq_nil fun v r s hdone hnil => ?_).trans ?_
  · obtain ⟨f, a, t, hf, -, -⟩ := InPlace.field_done hdone
    exact firstName_done hnull hf (List.append_eq_nil_iff.mp hnil).1
  · exact forall_congr' fun r => imp_congr_right fun _ => firstName_then_eq_nil hnull

lemma exports_eq_nil (hnull : m [.exDir] = 0) :
    xdrExportsLedger m [] b = [] ↔ ∀ r, XdrProc.moreData b = some (true, r) → NoName 1024 r := by
  refine (Ledger.firstNode_eq_nil fun v r s hdone hnil => ?_).trans ?_
  · obtain ⟨f, a, t, hf, -, -⟩ := InPlace.field_done hdone
    exact firstName_done hnull hf (List.append_eq_nil_iff.mp hnil).1
  · exact forall_congr' fun r => imp_congr_right fun _ => firstName_then_eq_nil hnull

lemma afterOk_eq_nil {d : Ledger Member} {P : Bytes → Prop} (h : ∀ r, d m [.u, .resok] r = [] ↔ P r) :
    Ledger.union xdrNfsstat3 statusOk (d.member [.u, .resok]) m [] b = [] ↔ AfterOk P b := by
  refine Ledger.union_eq_nil.trans ?_
  refine forall_congr' fun x => forall_congr' fun r => imp_congr_right fun _ => imp_congr_right fun _ => ?_
  exact Ledger.member_eq_nil.trans (h r)

lemma readlink_eq_nil {l : List Member} (hnull : m (l ++ [Member.data] ++ []) = 0) :
    xdrREADLINK3resokDrawn.ledger m l b = [] ↔ NoPath b := by
  refine Ledger.andThen_eq_nil.trans ((and_iff_right rfl).trans ?_)
  constructor
  · intro h x r hx
    exact (Ledger.string_eq_nil hnull).mp (h r (InPlace.exists_firstPlain_done.mpr ⟨x, hx⟩))
  · intro h r hdone
    obtain ⟨x, hx⟩ := InPlace.exists_firstPlain_done.mp hdone
    exact (Ledger.string_eq_nil hnull).mpr (h x r hx)

section Listing

variable {σ β α : Type} (f : PostOpAttr → Cookieverf3 → β) (attrs : σ → PostOpAttr) (verf : σ → Cookieverf3)
  {p : XdrProc α} {node : InPlace Member p.toCodec} {d : Ledger Member} {next l : List Member}

/-- The two members before a listing, which are the same in both results. -/
abbrev listingHead : InPlace Member (((Codec.record f).field attrs xdrPostOpAttr).field verf xdrCookieverf3) :=
  (InPlace.first f attrs [] (.plain xdrPostOpAttr.toCodec)).plainField

variable {f attrs verf}

lemma listingHead_done {s : Bytes} :
    (∃ v, ((listingHead f attrs verf).run m l b).outcome = .done v s) ↔
      ∃ r, (∃ x, xdrPostOpAttr.decode b = some (x, r)) ∧ ∃ y, xdrCookieverf3.decode r = some (y, s) := by
  refine InPlace.exists_field_done.trans (exists_congr fun r => ?_)
  exact and_congr InPlace.exists_firstPlain_done InPlace.exists_plain_done

lemma listing_eq_nil (hnull : m (l ++ [Member.reply] ++ [Member.entries]) = 0) :
    Ledger.empty.andThen (listingHead f attrs verf) [.reply] ((Ledger.pointer node d next).member [.entries]) m l b =
      [] ↔ NoEntry b := by
  refine Ledger.andThen_eq_nil.trans ((and_iff_right rfl).trans ?_)
  constructor
  · intro h x r hx y s hy
    have hnil := h s (listingHead_done.mpr ⟨r, ⟨x, hx⟩, y, hy⟩)
    exact (Ledger.pointer_eq_nil hnull).mp (Ledger.member_eq_nil.mp hnil)
  · intro h s hdone
    obtain ⟨r, ⟨x, hx⟩, y, hy⟩ := listingHead_done.mp hdone
    exact Ledger.member_eq_nil.mpr ((Ledger.pointer_eq_nil hnull).mpr (h x r hx y s hy))

end Listing

end Routines

/-!
## All pairs
-/

/-- The arguments with a handle and no other pointer. -/
def handleFrees : List ConstFree :=
  [freeGETATTR3args, freeSETATTR3args, freeACCESS3args, freeREADLINK3args, freeREAD3args, freeREADDIR3args,
    freeREADDIRPLUS3args, freeFSSTAT3args, freeFSINFOargs, freePATHCONF3args, freeCOMMIT3args]

/-- The arguments that begin with the name of a file in a directory. -/
def nameFrees : List ConstFree :=
  [freeLOOKUP3args, freeCREATE3args, freeMKDIR3args, freeREMOVE3args, freeRMDIR3args, freeSYMLINK3args,
    freeRENAME3args]

/-- The results with the handle of what was made. -/
def madeFrees : List StatusFree := [freeCREATE3res, freeMKDIR3res, freeSYMLINK3res, freeMKNOD3res]

section All

variable (m : Memory Member) (msg : Bytes) (len : Int)

lemma handleFrees_eq_nil : ∀ w ∈ handleFrees, w.pair.routineLedger m msg len = [] ↔
    NoHandle (fun _ => True) (xdrmemCreate msg len) := by
  simp only [handleFrees, List.forall_mem_cons, List.not_mem_nil, false_imp_iff, implies_true, and_true]
  refine ⟨?_, ?_, ?_, ?_, ?_, ?_, ?_, ?_, ?_, ?_, ?_⟩
  all_goals exact handleArgs_eq_nil rfl

lemma nameFrees_eq_nil : ∀ w ∈ nameFrees, w.pair.routineLedger m msg len = [] ↔
    NoDiropargs (xdrmemCreate msg len) := by
  simp only [nameFrees, List.forall_mem_cons, List.not_mem_nil, false_imp_iff, implies_true, and_true]
  refine ⟨?_, ?_, ?_, ?_, ?_, nameThenArgs_eq_nil rfl rfl, nameThenArgs_eq_nil rfl rfl⟩
  all_goals exact nameArgs_eq_nil rfl rfl

lemma madeFrees_eq_nil : ∀ w ∈ madeFrees, w.pair.routineLedger m msg len = [] ↔
    AfterOk NoPostOpHandle (xdrmemCreate msg len) := by
  simp only [madeFrees, List.forall_mem_cons, List.not_mem_nil, false_imp_iff, implies_true, and_true]
  refine ⟨?_, ?_, ?_, ?_⟩
  all_goals exact afterOk_eq_nil fun r => Ledger.member_eq_nil.trans (postOpFh3_eq_nil rfl)

lemma listFrees_eq_nil : ∀ w ∈ [freeREADDIR3res, freeREADDIRPLUS3res], w.routineLedger m msg len = [] ↔
    AfterOk NoEntry (xdrmemCreate msg len) := by
  simp only [List.forall_mem_cons, List.not_mem_nil, false_imp_iff, implies_true, and_true]
  refine ⟨?_, ?_⟩
  all_goals exact afterOk_eq_nil fun r => listing_eq_nil rfl

variable {m msg len}

/-- A routine that comes to no pointer. -/
lemma plain_eq_nil {w : ConstFree} (hplain : w.call.xdr.reads = []) : w.pair.routineLedger m msg len = [] := by
  have hwithin := w.routine.within (m.clear w.call.nulls) [] (xdrmemCreate msg len)
  rw [w.same, hplain] at hwithin
  exact List.sublist_nil.mp hwithin

lemma balanced_iff_eq_nil {w : FreePair} (hw : w ∈ freePairs) {P : Prop}
    (hP : w.routineLedger m msg len = [] ↔ P) :
    w.Balanced m msg len ↔ (∃ v, DecodesTo w m msg len v) ∨ P := by
  rw [freePairs_balanced_iff m msg len w hw, ← hP]
  exact refusedEarly_iff (freePairs_reads w hw)

variable (m msg len)

/-- A pair balances on the messages that are decoded and on those that ask for nothing. -/
theorem balanced_iff_unasked :
    (∀ w ∈ constFrees, w.call.xdr.reads = [] → w.pair.Balanced m msg len) ∧
    (∀ w ∈ handleFrees, w.pair.Balanced m msg len ↔ (∃ v, DecodesTo w.pair m msg len v) ∨
      NoHandle (fun _ => True) (xdrmemCreate msg len)) ∧
    (∀ w ∈ nameFrees, w.pair.Balanced m msg len ↔ (∃ v, DecodesTo w.pair m msg len v) ∨
      NoDiropargs (xdrmemCreate msg len)) ∧
    (freeLINK3args.pair.Balanced m msg len ↔ (∃ v, DecodesTo freeLINK3args.pair m msg len v) ∨
      NoHandle NoDiropargs (xdrmemCreate msg len)) ∧
    (freeLOOKUP3res.pair.Balanced m msg len ↔ (∃ v, DecodesTo freeLOOKUP3res.pair m msg len v) ∨
      AfterOk (NoHandle fun _ => True) (xdrmemCreate msg len)) ∧
    (freeREADLINK3res.pair.Balanced m msg len ↔ (∃ v, DecodesTo freeREADLINK3res.pair m msg len v) ∨
      AfterOk NoPath (xdrmemCreate msg len)) ∧
    (∀ w ∈ madeFrees, w.pair.Balanced m msg len ↔ (∃ v, DecodesTo w.pair m msg len v) ∨
      AfterOk NoPostOpHandle (xdrmemCreate msg len)) ∧
    (∀ w ∈ [freeREADDIR3res, freeREADDIRPLUS3res], w.Balanced m msg len ↔ (∃ v, DecodesTo w m msg len v) ∨
      AfterOk NoEntry (xdrmemCreate msg len)) := by
  have hconst : ∀ w ∈ constFrees, w.pair ∈ freePairs := fun w hw =>
    List.mem_append_left _ (List.mem_append_left _ (List.mem_map_of_mem hw))
  have hstatus : ∀ w ∈ statusFrees, w.pair ∈ freePairs := fun w hw =>
    List.mem_append_left _ (List.mem_append_right _ (List.mem_map_of_mem hw))
  have hlist : ∀ w ∈ [freeREADDIR3res, freeREADDIRPLUS3res], w ∈ freePairs :=
    fun w hw => List.mem_append_right _ hw
  have hhandles : handleFrees ⊆ constFrees := by simp [handleFrees, constFrees]
  have hnames : nameFrees ⊆ constFrees := by simp [nameFrees, constFrees]
  have hmade : madeFrees ⊆ statusFrees := by simp [madeFrees, statusFrees]
  refine ⟨fun w hw hplain => ?_, fun w hw => ?_, fun w hw => ?_, ?_, ?_, ?_, fun w hw => ?_, fun w hw => ?_⟩
  · exact (freePairs_balanced_iff m msg len _ (hconst w hw)).mpr fun _ => plain_eq_nil hplain
  · exact balanced_iff_eq_nil (hconst w (hhandles hw)) (handleFrees_eq_nil m msg len w hw)
  · exact balanced_iff_eq_nil (hconst w (hnames hw)) (nameFrees_eq_nil m msg len w hw)
  · exact balanced_iff_eq_nil (hconst _ (by simp [constFrees])) (linkArgs_eq_nil rfl rfl rfl)
  · refine balanced_iff_eq_nil (hstatus _ (by simp [statusFrees])) (afterOk_eq_nil fun r => ?_)
    exact Ledger.member_eq_nil.trans (handle_eq_nil rfl)
  · refine balanced_iff_eq_nil (hstatus _ (by simp [statusFrees])) (afterOk_eq_nil fun r => ?_)
    exact readlink_eq_nil rfl
  · exact balanced_iff_eq_nil (hstatus w (hmade hw)) (madeFrees_eq_nil m msg len w hw)
  · exact balanced_iff_eq_nil (hlist w hw) (listFrees_eq_nil m msg len w hw)

/-- The pairs that do not balance on all messages that are decoded. -/
theorem unbalanced_iff_unasked :
    (freeMKNOD3args.pair.Balanced m msg len ↔ NoDiropargs (xdrmemCreate msg len) ∧
      ∀ v, ¬ DecodesTo freeMKNOD3args.pair m msg len v) ∧
    (freeExports.Balanced m msg len ↔
      (∀ r, XdrProc.moreData (xdrmemCreate msg len) = some (true, r) → NoName 1024 r) ∧
      ∀ v, ¬ DecodesTo freeExports m msg len v) ∧
    (freeMountlist.Balanced m msg len ↔
      ((∃ v, DecodesTo freeMountlist m msg len v) ∨
        ∀ r, XdrProc.moreData (xdrmemCreate msg len) = some (true, r) → NoName 255 r) ∧
      ∀ v : Mountlist, DecodesTo freeMountlist m msg len v → v ≠ []) := by
  have hmknod : freeMKNOD3args.pair.routineLedger m msg len = [] ↔ NoDiropargs (xdrmemCreate msg len) :=
    nameArgs_eq_nil rfl rfl
  have hexports : freeExports.routineLedger m msg len = [] ↔ _ := exports_eq_nil rfl
  have hmountlist : freeMountlist.routineLedger m msg len = [] ↔ _ := mountlist_eq_nil rfl
  refine ⟨?_, ?_, ?_⟩
  · rw [mknod_balanced_iff, ← hmknod, refusedEarly_iff (by decide)]
    exact and_congr_left fun h => or_iff_right fun ⟨v, hv⟩ => h v hv
  · rw [exports_balanced_iff, ← hexports, refusedEarly_iff (by decide)]
    exact and_congr_left fun h => or_iff_right fun ⟨v, hv⟩ => h v hv
  · rw [mountlist_balanced_iff, ← hmountlist, refusedEarly_iff (by decide)]

end All

end UnfsClient.Proofs
