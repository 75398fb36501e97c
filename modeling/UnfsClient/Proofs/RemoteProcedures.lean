import UnfsClient.Nfs3Client
import UnfsClient.Proofs.CodecRoundTrip
import UnfsClient.Proofs.EndToEnd
import UnfsClient.Proofs.LookupRequest

/-!
# Remote procedures

The client interface against a server of the two programs. The server is given by a relation
between the arguments of each procedure and its results, and speaks the protocol: it decodes the
call header and the arguments, and encodes the results. Then the bytes a callback is given are
decoded, by the `xdr_to` function of its own procedure, to results the relation allows for the
arguments its own call was made with.
-/

namespace UnfsClient.Proofs

open Lib RecordMarking Relation

/-! ## Call headers -/

/-- The header of a call, as the server reads it. -/
structure CallHeader where
  rmXid : UInt64
  rmDirection : EnumT MsgType
  cbRpcvers : UInt64
  cbProg : UInt64
  cbVers : UInt64
  cbProc : UInt64
  cbCred : OpaqueAuth
  cbVerf : OpaqueAuth

def xdrCallHeader : XdrProc CallHeader where
  toCodec := Codec.record CallHeader.mk
    |>.field CallHeader.rmXid .uLong
    |>.field CallHeader.rmDirection .enum
    |>.field CallHeader.cbRpcvers .uLong
    |>.field CallHeader.cbProg .uLong
    |>.field CallHeader.cbVers .uLong
    |>.field CallHeader.cbProc .uLong
    |>.field CallHeader.cbCred xdrOpaqueAuth
    |>.field CallHeader.cbVerf xdrOpaqueAuth
  part_eq _ := rfl

def nullAuth : OpaqueAuth := ⟨0, noData⟩

def callHeader (x prog vers proc : UInt32) : CallHeader :=
  ⟨x.toUInt64, .named .call, 2, prog.toUInt64, vers.toUInt64, proc.toUInt64, nullAuth, nullAuth⟩

lemma uLong_encode (x : UInt32) : XdrProc.uLong.encode x.toUInt64 = .one (.long x) := by
  have hlt : x.toNat < 2 ^ 32 := x.toNat_lt
  change (if x.toUInt64.toNat < 2 ^ 32 then _ else _) = _
  rw [UInt32.toNat_toUInt64, if_pos hlt, UInt32.ofNat_toNat]

lemma callHeader_encode (x prog vers proc : UInt32) : xdrCallHeader.encode (callHeader x prog vers proc) =
    ⟨[.long x, .long 0, .long 2, .long prog, .long vers, .long proc, .long 0, .long 0, .long 0, .long 0], true⟩ := by
  have hvers : (2 : UInt64) = (2 : UInt32).toUInt64 := rfl
  have hauth : xdrOpaqueAuth.encode nullAuth = ⟨[.long 0, .long 0], true⟩ := by decide
  have hcall : (XdrProc.enum (E := MsgType)).encode (.named .call) = .one (.long 0) := rfl
  simp only [xdrCallHeader, Codec.field, Codec.record, callHeader, hvers, uLong_encode, hauth, hcall]
  rfl

/-- A handle of this program. -/
structure HandleOf (prog vers : UInt32) (ct : CtData) : Prop where
  header : ct.ctMcallRest = beBytes 0 ++ beBytes 2 ++ beBytes prog ++ beBytes vers
  auth : ct.clAuth = authnone

/-- The message of a call is its header and its arguments. -/
lemma callMessage_decode {prog vers : UInt32} {ct : CtData} (h : HandleOf prog vers ct) (rpc : RpcProcInfo)
    (x : UInt32) : xdrCallHeader.decode (callMessage ct rpc x) =
      some (callHeader x prog vers rpc.proc.toUInt32, rpc.inargs.bytes) := by
  have hbytes : callMessage ct rpc x =
      (xdrCallHeader.encode (callHeader x prog vers rpc.proc.toUInt32)).bytes ++ rpc.inargs.bytes := by
    rw [callMessage, h.header, h.auth, callHeader_encode, authnone, Encoding.one_bytes, Encoding.bytes]
    simp only [Put.toBytes, List.append_assoc]
    rfl
  rw [hbytes, xdrCallHeader.decode_encode _ _ rfl (by rw [callHeader_encode]), xdrCallHeader.part_eq]

/-! ## Programs -/

/-- A procedure with arguments `A`: what its arguments put on a stream, and how its results are
decoded. -/
structure RemoteProc (A : Type) where
  number : UInt64
  inproc : UInt64 → A → Encoding
  xdrArgs : XdrProc A
  inproc_eq : ∀ pub, pub ≠ disableDataDexdrInternal → inproc pub = xdrArgs.encode
  results : DecodeWrapper
  wraps : Wraps results

def RemoteProc.plain {A : Type} (number : UInt64) (xdrArgs : XdrProc A) (results : DecodeWrapper)
    (wraps : Wraps results) : RemoteProc A :=
  ⟨number, fun _ => xdrArgs.encode, xdrArgs, fun _ _ => rfl, results, wraps⟩

/-- A program: its procedures are told apart by their numbers. -/
structure RpcProgram {ι : Type} (Args : ι → Type) where
  prog : UInt32
  vers : UInt32
  proc : (i : ι) → RemoteProc (Args i)
  number_injective : Function.Injective fun i => (proc i).number.toUInt32

/-- No results. -/
def xdrVoidResults : DecodeWrapper := .struct .void (xdrTo XdrProc.void.toCodec)

lemma nfs3Write_inproc (pub : UInt64) (h : pub ≠ disableDataDexdrInternal) :
    (xdrWRITE3args (xPublicOfPointer pub)).encode = xdrWRITE3argsData.encode := by
  rw [xPublicOfPointer, if_neg h]
  rfl

def nfs3RemoteProc : (p : Nfs3Proc) → RemoteProc p.Args
  | .null => .plain nfs3NullProc .void xdrVoidResults (wraps_struct rfl)
  | .getattr => .plain nfs3GetattrProc xdrGETATTR3args (.struct xdrGETATTR3res xdrToGETATTR3res)
      (wraps_struct rfl)
  | .setattr => .plain nfs3SetattrProc xdrSETATTR3args (.struct xdrSETATTR3res xdrToSETATTR3res)
      (wraps_struct rfl)
  | .lookup => .plain nfs3LookupProc xdrLOOKUP3args (.struct xdrLOOKUP3res xdrToLOOKUP3res) (wraps_struct rfl)
  | .access => .plain nfs3AccessProc xdrACCESS3args (.struct xdrACCESS3res xdrToACCESS3res) (wraps_struct rfl)
  | .readlink => .plain nfs3ReadlinkProc xdrREADLINK3args (.struct xdrREADLINK3res xdrToREADLINK3res)
      (wraps_struct rfl)
  | .read => .plain nfs3ReadProc xdrREAD3args (.struct xdrREAD3resData (xdrToREAD3res · · nfs3DataDexdr))
      (@wraps_struct _ _ xdrREAD3resData rfl)
  | .write => ⟨nfs3WriteProc, fun pub => (xdrWRITE3args (xPublicOfPointer pub)).encode, xdrWRITE3argsData,
      nfs3Write_inproc, .struct xdrWRITE3res xdrToWRITE3res, wraps_struct rfl⟩
  | .create => .plain nfs3CreateProc xdrCREATE3args (.struct xdrCREATE3res xdrToCREATE3res) (wraps_struct rfl)
  | .mkdir => .plain nfs3MkdirProc xdrMKDIR3args (.struct xdrMKDIR3res xdrToMKDIR3res) (wraps_struct rfl)
  | .symlink => .plain nfs3SymlinkProc xdrSYMLINK3args (.struct xdrSYMLINK3res xdrToSYMLINK3res)
      (wraps_struct rfl)
  | .mknod => .plain nfs3MknodProc xdrMKNOD3args (.struct xdrMKNOD3res xdrToMKNOD3res) (wraps_struct rfl)
  | .remove => .plain nfs3RemoveProc xdrREMOVE3args (.struct xdrREMOVE3res xdrToREMOVE3res) (wraps_struct rfl)
  | .rmdir => .plain nfs3RmdirProc xdrRMDIR3args (.struct xdrRMDIR3res xdrToRMDIR3res) (wraps_struct rfl)
  | .rename => .plain nfs3RenameProc xdrRENAME3args (.struct xdrRENAME3res xdrToRENAME3res) (wraps_struct rfl)
  | .link => .plain nfs3LinkProc xdrLINK3args (.struct xdrLINK3res xdrToLINK3res) (wraps_struct rfl)
  | .readdir => .plain nfs3ReaddirProc xdrREADDIR3args (.struct xdrREADDIR3res xdrToREADDIR3res)
      (wraps_struct rfl)
  | .readdirplus => .plain nfs3ReaddirplusProc xdrREADDIRPLUS3args (.struct xdrREADDIRPLUS3res xdrToREADDIRPLUS3res)
      (wraps_struct rfl)
  | .fsstat => .plain nfs3FsstatProc xdrFSSTAT3args (.struct xdrFSSTAT3res xdrToFSSTAT3res) (wraps_struct rfl)
  | .fsinfo => .plain nfs3FsinfoProc xdrFSINFOargs (.struct xdrFSINFO3res xdrToFSINFO3res) (wraps_struct rfl)
  | .pathconf => .plain nfs3PathconfProc xdrPATHCONF3args (.struct (xdrPATHCONF3res true) xdrToPATHCONF3res)
      (wraps_struct rfl)
  | .commit => .plain nfs3CommitProc xdrCOMMIT3args (.struct xdrCOMMIT3res xdrToCOMMIT3res) (wraps_struct rfl)

def nfs3Program : RpcProgram Nfs3Proc.Args where
  prog := nfsProgram
  vers := nfsV3
  proc := nfs3RemoteProc
  number_injective := by
    intro p q h
    cases p <;> cases q <;> first | rfl | exact absurd h (by decide)

def mount3RemoteProc : (p : Mount3Proc) → RemoteProc p.Args
  | .null => .plain mount3NullProc .void xdrVoidResults (wraps_struct rfl)
  | .mnt => .plain mount3MntProc xdrDirpath (.struct xdrMountres3 xdrToMntres3) (wraps_struct rfl)
  | .dump => .plain mount3DumpProc .void (.list xdrMountlist xdrToMountlist) wraps_mountlist
  | .umnt => .plain mount3UmntProc xdrDirpath xdrVoidResults (wraps_struct rfl)
  | .umntall => .plain mount3UmntallProc .void xdrVoidResults (wraps_struct rfl)
  | .«export» => .plain mount3ExportProc .void (.list xdrExports fun msg => xdrToExports (some msg)) wraps_exports

def mount3Program : RpcProgram Mount3Proc.Args where
  prog := mountProgram
  vers := mountV3
  proc := mount3RemoteProc
  number_injective := by
    intro p q h
    cases p <;> cases q <;> first | rfl | exact absurd h (by decide)

/-- Each function of `nfs3.c` makes the call of its procedure. -/
lemma nfs3Proc_call (E : Env) (net : Net) (p : Nfs3Proc) (args : p.Args) (ctx : NfsCtx) (ucbi : CallbackInfo)
    (callflag : UInt64) : p.call E net args ctx ucbi callflag =
      nfs3Call E net (nfs3Program.proc p).number (fun pub => (nfs3Program.proc p).inproc pub args) ctx ucbi
        callflag := by
  cases p <;> rfl

lemma mount3Proc_call (E : Env) (net : Net) (p : Mount3Proc) (args : p.Args) (ctx : NfsContext) (ucbi : CallbackInfo)
    (callflag : UInt64) : p.call E net args ctx ucbi callflag =
      mount3Call E net (mount3Program.proc p).number (fun pub => (mount3Program.proc p).inproc pub args) ctx ucbi
        callflag := by
  cases p <;> rfl

/-! ## Servers -/

section

variable {ι : Type} {Args : ι → Type} (P : RpcProgram Args)

/-- What the results of each procedure have to do with its arguments. -/
abbrev Service : Type := (i : ι) → Args i → (P.proc i).results.Val → Prop

/-- The server decodes the request `q` as a call of one of the procedures, and `body` encodes results
it has for the arguments. -/
def Serves (F : Service P) (q body : Bytes) : Prop :=
  ∃ hdr argBytes i args rest value, xdrCallHeader.decode q = some (hdr, argBytes) ∧
    hdr.rmDirection = .named .call ∧ hdr.cbRpcvers = 2 ∧ hdr.cbProg = P.prog.toUInt64 ∧
    hdr.cbVers = P.vers.toUInt64 ∧ hdr.cbProc = (P.proc i).number.toUInt32.toUInt64 ∧
    (P.proc i).xdrArgs.decode argBytes = some (args, rest) ∧ F i args value ∧
    (P.proc i).results.xdr.boolsOk value = true ∧ ((P.proc i).results.xdr.encode value).ok = true ∧
    body = ((P.proc i).results.xdr.encode value).bytes

variable {P}

/-- The request of a call is decoded to what the call was made with. -/
lemma Serves.own {F : Service P} {ct : CtData} (hct : HandleOf P.prog P.vers ct) {i : ι} {args : Args i} {x : UInt32}
    {body : Bytes} (hbools : (P.proc i).xdrArgs.boolsOk args = true)
    (hok : ((P.proc i).xdrArgs.encode args).ok = true)
    (h : Serves P F (callMessage ct ⟨(P.proc i).number, (P.proc i).xdrArgs.encode args⟩ x) body) :
    ∃ value, F i args value ∧ (P.proc i).results.xdr.boolsOk value = true ∧
      ((P.proc i).results.xdr.encode value).ok = true ∧ body = ((P.proc i).results.xdr.encode value).bytes := by
  obtain ⟨hdr, argBytes, j, args', rest, value, hhdr, -, -, -, -, hproc, hargs, hF, hval⟩ := h
  rw [callMessage_decode hct] at hhdr
  obtain ⟨rfl, rfl⟩ := Prod.mk.inj (Option.some.inj hhdr)
  obtain rfl : i = j := by
    apply P.number_injective
    have hnum := congrArg UInt64.toUInt32 hproc
    simp only [callHeader, UInt32.toUInt32_toUInt64] at hnum
    exact hnum
  have hdecode := (P.proc i).xdrArgs.decode_encode args [] hbools hok
  rw [List.append_nil, hargs, (P.proc i).xdrArgs.part_eq] at hdecode
  obtain ⟨rfl, -⟩ := Prod.mk.inj (Option.some.inj hdecode)
  exact ⟨value, hF, hval⟩

/-- Results that were encoded are decoded by the `xdr_to` function. -/
lemma RemoteProc.results_decode {A : Type} (p : RemoteProc A) {value : p.results.Val}
    (hbools : p.results.xdr.boolsOk value = true) (hok : (p.results.xdr.encode value).ok = true)
    (hlen : (p.results.xdr.encode value).bytes.length < 2 ^ 31) :
    p.results.xdrTo (p.results.xdr.encode value).bytes (cInt (p.results.xdr.encode value).bytes.length) =
      p.results.ret value := by
  have hdecode := p.results.xdr.decode_encode value [] hbools hok
  rw [List.append_nil, p.results.xdr.part_eq] at hdecode
  have hmem : xdrmemCreate (p.results.xdr.encode value).bytes (cInt (p.results.xdr.encode value).bytes.length) =
      (p.results.xdr.encode value).bytes := by
    rw [xdrmemCreate, cInt_of_range (by omega) (by omega)]
    apply List.take_of_length_le
    omega
  rw [p.wraps, hmem, hdecode]
  rfl

end

/-! ## Handles without reentry -/

lemma noReentry_eq (E : Env) : noReentry = reentrant E (fun _ _ _ => .done) 1 := rfl

/-- All of the history is on the outermost level. -/
def Outermost (w : World) : Prop := w.depth = 0 ∧ NoNestedData w.log

lemma Act.outermost {E : Env} {w w' : World} (h : Act E false w w') (hw : Outermost w) : Outermost w' := by
  obtain ⟨hdepth, hlog⟩ := hw
  have hnote : ∀ es, (∀ e ∈ es, nestedData e = false) → NoNestedData (w.log ++ es) := by
    intro es hes e he
    rcases List.mem_append.mp he with he | he
    · exact hlog e he
    · exact hes e he
  cases h with
  | tx h =>
    obtain ⟨es, hes, htr⟩ := h.txOnly.log
    refine ⟨h.txOnly.depth.trans hdepth, ?_⟩
    rw [hes]
    apply hnote
    intro e he
    have htx := htr e he
    cases e <;> first | rfl | cases htx
  | @parsed _ e he =>
    refine ⟨hdepth, hnote [e] ?_⟩
    intro e' he'
    rw [List.mem_singleton.mp he']
    cases e <;> first | rfl | cases he
  | @read _ r rs hr =>
    refine ⟨hdepth, hnote [.read w.depth r] ?_⟩
    intro e he
    rw [List.mem_singleton.mp he, hdepth]
    cases r <;> rfl
  | take => exact ⟨hdepth, hnote _ (by simp [nestedData])⟩
  | @deliver _ msg xid body t cbi hdec htake hcb =>
    refine ⟨hdepth, ?_⟩
    have hlog : ((dropEntry (countReceived w msg) t cbi).note (.ran cbi xid body)).log =
        w.log ++ [.taken cbi, .ran cbi xid body] := List.append_assoc _ _ _
    rw [hlog]
    exact hnote _ (by simp [nestedData])
  | register h => cases h
  | issue h => cases h
  | depth h => cases h
  | enter h => cases h
  | _ => exact ⟨hdepth, hlog⟩

lemma Acts.outermost {E : Env} {w w' : World} (h : Acts E false w w') (hw : Outermost w) : Outermost w' := by
  induction h with
  | refl => exact hw
  | tail _ hact ih => exact hact.outermost ih

lemma clnttcpNbCall_outermost {E : Env} {rpc : RpcProcInfo} {ucbi : CallbackInfo} {callflag : UInt64} {w w' : World}
    {stat : ClntStat} (h : clnttcpNbCall E noReentry rpc ucbi callflag w = some (w', stat)) (hw : Outermost w) :
    Outermost w' := by
  have hnote : ∀ {v : World} {e : Event}, Outermost v → nestedData e = false → NoNestedData (v.log ++ [e]) := by
    intro v e hv he e' he'
    rcases List.mem_append.mp he' with he' | he'
    · exact hv.2 e' he'
    · rw [List.mem_singleton.mp he', he]
  have hreg : Outermost (registerCall ⟨w.serial, ucbi⟩ w.tick) := ⟨hw.1, hnote hw rfl⟩
  rcases clnttcpNbCall_cases h with ⟨-, rfl, -⟩ | ⟨-, v, ok, henc, ⟨-, rfl, -⟩ | ⟨-, -, n, hrec⟩⟩
  · exact hw
  · exact (encodeCall_acts henc).acts.outermost hreg
  · have hv : Outermost v := (encodeCall_acts henc).acts.outermost hreg
    have hissue : Outermost (issueCall v ⟨w.serial, ucbi⟩ rpc) := ⟨hv.1, hnote hv rfl⟩
    exact (clnttcpNbReceive_acts (actsOnly_noReentry E false) hrec).outermost hissue

lemma runOps_outermost {E : Env} {ops : List Op} {w w' : World} (h : runOps E noReentry ops w = some w')
    (hw : Outermost w) : Outermost w' := by
  induction ops generalizing w with
  | nil =>
    cases h
    exact hw
  | cons op ops ih =>
    unfold runOps at h
    split at h
    · cases h
    · rename_i v hop
      refine ih h ?_
      cases op with
      | call rpc ucbi callflag reads writes =>
        obtain ⟨⟨u, stat⟩, hcall, rfl⟩ := Option.map_eq_some_iff.mp hop
        exact clnttcpNbCall_outermost hcall hw
      | receive flag reads writes =>
        obtain ⟨⟨u, n⟩, hrec, rfl⟩ := Option.map_eq_some_iff.mp hop
        exact (clnttcpNbReceive_acts (actsOnly_noReentry E false) hrec).outermost hw

lemma runOps_append {E : Env} {exec : Exec} {ops ops' : List Op} {w v w' : World} (h : runOps E exec ops w = some v)
    (h' : runOps E exec ops' v = some w') : runOps E exec (ops ++ ops') w = some w' := by
  induction ops generalizing w with
  | nil =>
    cases h
    exact h'
  | cons op ops ih =>
    rw [List.cons_append]
    unfold runOps at h ⊢
    cases hop : op.run E exec w with
    | none => rw [hop] at h; cases h
    | some u =>
      rw [hop] at h
      exact ih h

/-! ## One call of a program -/

/-- What becomes of the call of a procedure that was registered as `own` with the xid `x`: its callback
is given results for its own arguments, at most once, and it is if the request was answered. -/
structure OwnResults {A : Type} (p : RemoteProc A) (F : A → p.results.Val → Prop) (args : A) (own : Cbi)
    (x : UInt32) (log : List Event) : Prop where
  results : ∀ body, (own, body) ∈ invocations log →
    ∃ value, p.results.xdrTo body (cInt body.length) = p.results.ret value ∧ F args value
  once : ((invocations log).map Prod.fst).Nodup
  answered : own.info.callback ≠ none → ∀ r ∈ (received log).2, ∀ body,
    replyHeader r.flatten = some (x.toUInt64, body) → (own, body) ∈ invocations log

lemma RpcProgram.own_results {E : Env} (hE : AllocsSucceed E) (hdec : E.xdrReplymsg = replyHeader) {ct : CtData}
    (hct : Created ct) (hmax : ct.ctXdrs.outSize < 2 ^ 31) {ι : Type} {Args : ι → Type} {P : RpcProgram Args}
    (hP : HandleOf P.prog P.vers ct) (F : Service P) {i : ι} {args : Args i} {pub : UInt64}
    (hin : (P.proc i).inproc pub = (P.proc i).xdrArgs.encode) (hbools : (P.proc i).xdrArgs.boolsOk args = true)
    {pre post : List Op} {w v w' : World} {ucbi : CallbackInfo} {callflag : UInt64} {reads : List ReadResult}
    {writes : List WriteResult} (hpre : runOps E noReentry pre (World.start ct) = some w)
    (hcall : clnttcpNbCall E noReentry ⟨(P.proc i).number, (P.proc i).inproc pub args⟩ ucbi callflag
      { w with reads := reads, writes := writes } = some (v, .success))
    (hpost : runOps E noReentry post v = some w') (hok : issued w'.log = regs w'.log)
    (hfew : (regs w'.log).length < 2 ^ 31) (hsrv : ServerReplies E (Serves P F) w'.log) :
    OwnResults (P.proc i) (F i) args ⟨w.serial, ucbi⟩ (byteSwap (w.ct.ctXid - 1)) w'.log := by
  have hsize := outSize_created hct
  rw [hin] at hcall
  have hrest : runOps E noReentry (.call ⟨(P.proc i).number, (P.proc i).xdrArgs.encode args⟩ ucbi callflag reads writes
      :: post) w = some w' := by
    simp only [runOps, Op.run, hcall, Option.map_some]
    exact hpost
  have hrun := runOps_append hpre hrest
  have hsteps := runOps_steps (noReentry_eq E ▸ reentrant_steps E _ 1 (Or.inl rfl)) hpre
  obtain ⟨es, hes, hsub, hready⟩ := ApiSteps.asks hsize hmax hsteps
  have hasks : Asks ct w w' :=
    ApiSteps.asks hsize hmax (runOps_steps (noReentry_eq E ▸ reentrant_steps E _ 1 (Or.inl rfl)) hrest)
  obtain ⟨es', hes', hsub', -⟩ := hasks
  have hokw : issued es = regs es := by
    rw [hes', hes] at hok
    exact (all_issued_append hsub hsub' hok).1
  have hw : Ready ct w := hready hokw (ready_start hct)
  have hmade := (clnttcpNbCall_made (actsOnly_noReentry E true) hsize
    (hw.kept (streamKept_enter w reads writes)) hcall).grows (runOps_acts (actsOnly_noReentry E true) hpost).log_grows
  have hout : Outermost w' := runOps_outermost hrun ⟨rfl, by intro e he; cases he⟩
  obtain ⟨answered, hset⟩ := runOps_settled hE hdec hct hmax (fun _ _ _ => .done) 1 hrun hok hfew hout.2 hsrv
  obtain ⟨hres, hans⟩ := hset.made hsrv (by omega) hmade
  refine ⟨?_, ?_, hans⟩
  · intro body hbody
    obtain ⟨hlen, hserves⟩ := hres body hbody
    obtain ⟨value, hF, hvb, hvok, rfl⟩ := hserves.own hP hbools hmade.args
    exact ⟨value, (P.proc i).results_decode hvb hvok hlen, hF⟩
  · rw [hset.invoked]
    apply List.Nodup.sublist (List.filter_sublist.map Prod.fst)
    rw [hset.served]
    exact hset.regInv.takenNodup

/-! ## Contexts -/

/-- API calls on the handle lead from one to the other. -/
def Reaches (E : Env) (cl cl' : NfsClient) : Prop :=
  ∃ ops, runOps E noReentry ops cl.world = some cl'.world ∧ cl'.xPublic = cl.xPublic

/-- A connection just made. -/
def connected (create : Connection → CtData) (c : Connection) : NfsClient := ⟨World.start (create c), c.xPublic⟩

/-- What can become of a handle of a context: it is created once, and from then on only used. -/
def Follows (E : Env) (create : Connection → CtData) : Option NfsClient → Option NfsClient → Prop
  | none, none => True
  | none, some cl' => ∃ c, Reaches E (connected create c) cl'
  | some cl, some cl' => Reaches E cl cl'
  | some _, none => False

lemma reaches_refl (E : Env) (cl : NfsClient) : Reaches E cl cl := ⟨[], rfl, rfl⟩

lemma Reaches.trans {E : Env} {cl₁ cl₂ cl₃ : NfsClient} (h : Reaches E cl₁ cl₂) (t : Reaches E cl₂ cl₃) :
    Reaches E cl₁ cl₃ := by
  obtain ⟨ops, hrun, hpub⟩ := h
  obtain ⟨ops', hrun', hpub'⟩ := t
  exact ⟨ops ++ ops', runOps_append hrun hrun', hpub'.trans hpub⟩

lemma Reaches.xPublic {E : Env} {cl cl' : NfsClient} (h : Reaches E cl cl') : cl'.xPublic = cl.xPublic := by
  obtain ⟨ops, -, hpub⟩ := h
  exact hpub

lemma follows_refl (E : Env) (create : Connection → CtData) (o : Option NfsClient) : Follows E create o o := by
  cases o with
  | none => trivial
  | some cl => exact reaches_refl E cl

lemma Follows.trans {E : Env} {create : Connection → CtData} {o₁ o₂ o₃ : Option NfsClient}
    (h : Follows E create o₁ o₂) (t : Follows E create o₂ o₃) : Follows E create o₁ o₃ := by
  cases o₁ with
  | none =>
    cases o₂ with
    | none => exact t
    | some cl₂ =>
      obtain ⟨c, hc⟩ := h
      cases o₃ with
      | none => exact t.elim
      | some cl₃ => exact ⟨c, hc.trans t⟩
  | some cl₁ =>
    cases o₂ with
    | none => exact h.elim
    | some cl₂ =>
      cases o₃ with
      | none => exact t.elim
      | some cl₃ => exact Reaches.trans h t

section

variable {E : Env} {create : Connection → CtData} {o : Option NfsClient} {cl : NfsClient} {net : Net}

/-- The handle a call is made on: the one there is, or a new one. -/
def handleFor (create : Connection → CtData) (net : Net) : Option NfsClient → Option NfsClient
  | some cl => some cl
  | none => net.connection.map (connected create)

lemma handleFor_follows (h : handleFor create net o = some cl) : Follows E create o (some cl) := by
  cases o with
  | some cl₀ =>
    obtain rfl := Option.some.inj h
    exact reaches_refl E _
  | none =>
    obtain ⟨c, -, rfl⟩ := Option.map_eq_some_iff.mp h
    exact ⟨c, reaches_refl E _⟩

lemma call_reaches {rpc : RpcProcInfo} {ucbi : CallbackInfo} {callflag : UInt64} {w : World} {stat : ClntStat}
    (h : clnttcpNbCall E noReentry rpc ucbi callflag { cl.world with reads := net.reads, writes := net.writes } =
      some (w, stat)) : Reaches E cl { cl with world := w } := by
  refine ⟨[.call rpc ucbi callflag net.reads net.writes], ?_, rfl⟩
  simp only [runOps, Op.run, h, Option.map_some]

lemma receiveOn_follows {flag : UInt32} {reads : List ReadResult} {writes : List WriteResult}
    {r : Option NfsClient × Int} (h : receiveOn E flag reads writes o = some r) : Follows E create o r.1 := by
  cases o with
  | none =>
    cases h
    trivial
  | some cl =>
    obtain ⟨⟨w, n⟩, hrec, rfl⟩ := Option.map_eq_some_iff.mp h
    refine ⟨[.receive flag reads writes], ?_, rfl⟩
    simp only [runOps, Op.run, hrec, Option.map_some]

end

lemma mount3Call_cases {E : Env} {net : Net} {proc : UInt64} {inproc : UInt64 → Encoding} {ctx ctx' : NfsContext}
    {ucbi : CallbackInfo} {callflag : UInt64} {stat : ClntStat}
    (h : mount3Call E net proc inproc ctx ucbi callflag = some (ctx', stat)) :
    (stat = .systemError ∧ ctx' = ctx) ∨
    ∃ cl w', mountHandle net ctx = some cl ∧
      clnttcpNbCall E noReentry ⟨proc, inproc cl.xPublic⟩ ucbi callflag
        { cl.world with reads := net.reads, writes := net.writes } = some (w', stat) ∧
      ctx' = { ctx with nfsMntCl := some { cl with world := w' } } := by
  unfold mount3Call at h
  split at h
  · cases h
    exact Or.inl ⟨rfl, rfl⟩
  · split at h
    · cases h
      exact Or.inl ⟨rfl, rfl⟩
    · rename_i cl hcl
      split at h
      · cases h
      · rename_i w' stat hnb
        cases h
        exact Or.inr ⟨cl, w', hcl, hnb, rfl⟩

lemma nfsHandle_eq (net : Net) (ctx : NfsCtx) : nfsHandle net ctx = handleFor (nfsCreate ctx) net ctx.nfsCl := by
  unfold nfsHandle handleFor
  cases ctx.nfsCl <;> rfl

lemma mountHandle_eq (net : Net) (ctx : NfsContext) : mountHandle net ctx = handleFor mountCreate net ctx.nfsMntCl := by
  unfold mountHandle handleFor
  cases ctx.nfsMntCl <;> rfl

/-- From `ctx` to `ctx'` both handles are only used, and nothing else changes. -/
structure Uses (E : Env) (ctx ctx' : NfsContext) : Prop where
  create : nfsCreate ctx'.toNfsCtx = nfsCreate ctx.toNfsCtx
  nfs : Follows E (nfsCreate ctx.toNfsCtx) ctx.nfsCl ctx'.nfsCl
  mount : Follows E mountCreate ctx.nfsMntCl ctx'.nfsMntCl

lemma Uses.trans {E : Env} {ctx₁ ctx₂ ctx₃ : NfsContext} (h : Uses E ctx₁ ctx₂) (t : Uses E ctx₂ ctx₃) :
    Uses E ctx₁ ctx₃ :=
  ⟨t.create.trans h.create, h.nfs.trans (h.create ▸ t.nfs), h.mount.trans t.mount⟩

lemma nfs3Call_follows {E : Env} {net : Net} {proc : UInt64} {inproc : UInt64 → Encoding} {ctx ctx' : NfsCtx}
    {ucbi : CallbackInfo} {callflag : UInt64} {stat : ClntStat}
    (h : nfs3Call E net proc inproc ctx ucbi callflag = some (ctx', stat)) :
    nfsCreate ctx' = nfsCreate ctx ∧ Follows E (nfsCreate ctx) ctx.nfsCl ctx'.nfsCl := by
  rcases nfs3Call_cases h with ⟨-, rfl⟩ | ⟨cl, w, hcl, hcall, rfl⟩
  · exact ⟨rfl, follows_refl E _ _⟩
  · rw [nfsHandle_eq] at hcl
    exact ⟨rfl, (handleFor_follows hcl).trans (call_reaches hcall)⟩

lemma NfsOp.run_uses {E : Env} {op : NfsOp} {ctx ctx' : NfsContext} (h : op.run E ctx = some ctx') :
    Uses E ctx ctx' := by
  cases op with
  | nfs p args ucbi callflag net =>
    obtain ⟨⟨nctx, stat⟩, hcall, rfl⟩ := Option.map_eq_some_iff.mp h
    rw [nfs3Proc_call] at hcall
    obtain ⟨hcreate, hfollows⟩ := nfs3Call_follows hcall
    exact ⟨hcreate, hfollows, follows_refl E _ _⟩
  | mount p args ucbi callflag net =>
    obtain ⟨⟨ctx'', stat⟩, hcall, rfl⟩ := Option.map_eq_some_iff.mp h
    rw [mount3Proc_call] at hcall
    rcases mount3Call_cases hcall with ⟨-, rfl⟩ | ⟨cl, w, hcl, hnb, rfl⟩
    · exact ⟨rfl, follows_refl E _ _, follows_refl E _ _⟩
    · rw [mountHandle_eq] at hcl
      exact ⟨rfl, follows_refl E _ _, (handleFor_follows hcl).trans (call_reaches hnb)⟩
  | complete flag reads writes =>
    obtain ⟨⟨ctx'', n⟩, hcomp, rfl⟩ := Option.map_eq_some_iff.mp h
    obtain ⟨r, hrec, hr⟩ := Option.map_eq_some_iff.mp hcomp
    cases hr
    exact ⟨rfl, receiveOn_follows hrec, follows_refl E _ _⟩
  | mntComplete reads writes =>
    obtain ⟨r, hrec, rfl⟩ := Option.map_eq_some_iff.mp h
    exact ⟨rfl, follows_refl E _ _, receiveOn_follows hrec⟩

lemma runNfs_uses {E : Env} {ops : List NfsOp} {ctx ctx' : NfsContext} (h : runNfs E ops ctx = some ctx') :
    Uses E ctx ctx' := by
  induction ops generalizing ctx with
  | nil =>
    cases h
    exact ⟨rfl, follows_refl E _ _, follows_refl E _ _⟩
  | cons op ops ih =>
    unfold runNfs at h
    split at h
    · cases h
    · rename_i ctx₁ hop
      exact (NfsOp.run_uses hop).trans (ih h)

/-- A handle that is used for the first time with this call, or was before, is a handle of its own
connection all along. -/
lemma handle_history {E : Env} {create : Connection → CtData} {o : Option NfsClient} {net : Net} {cl : NfsClient}
    (h : Follows E create none o) (hcl : handleFor create net o = some cl) :
    ∃ c ops, runOps E noReentry ops (World.start (create c)) = some cl.world ∧ cl.xPublic = c.xPublic := by
  have hall : Follows E create none (some cl) := h.trans (handleFor_follows hcl)
  obtain ⟨c, ops, hrun, hpub⟩ := hall
  exact ⟨c, ops, hrun, hpub⟩

lemma recOutSize_lt {n : Nat} (h : n < 2 ^ 31) : recOutSize n < 2 ^ 31 := by
  unfold recOutSize
  split <;> omega

/-- The call of a procedure of a context, from the first use of the handle to the end of the run. -/
lemma RpcProgram.results_of_call {E : Env} (hE : AllocsSucceed E) (hdec : E.xdrReplymsg = replyHeader) {ι : Type}
    {Args : ι → Type} {P : RpcProgram Args} (F : Service P) {create : Connection → CtData}
    (hcreated : ∀ c, Created (create c)) (hmax : ∀ c, (create c).ctXdrs.outSize < 2 ^ 31)
    (hheader : ∀ c, (create c).ctMcallRest = beBytes 0 ++ beBytes 2 ++ beBytes P.prog ++ beBytes P.vers)
    {o : Option NfsClient} {net : Net} {cl cl' : NfsClient} {i : ι} {args : Args i} {ucbi : CallbackInfo}
    {callflag : UInt64} {v : World} (hpre : Follows E create none o) (hcl : handleFor create net o = some cl)
    (hcall : clnttcpNbCall E noReentry ⟨(P.proc i).number, (P.proc i).inproc cl.xPublic args⟩ ucbi callflag
      { cl.world with reads := net.reads, writes := net.writes } = some (v, .success))
    (hpost : Reaches E { cl with world := v } cl') (hauth : cl'.world.ct.clAuth = authnone)
    (hin : (P.proc i).inproc cl.xPublic = (P.proc i).xdrArgs.encode)
    (hbools : (P.proc i).xdrArgs.boolsOk args = true)
    (hok : issued cl'.world.log = regs cl'.world.log) (hfew : (regs cl'.world.log).length < 2 ^ 31)
    (hsrv : ServerReplies E (Serves P F) cl'.world.log) :
    OwnResults (P.proc i) (F i) args ⟨cl.world.serial, ucbi⟩ (byteSwap (cl.world.ct.ctXid - 1)) cl'.world.log := by
  obtain ⟨c, ops, hrun, hpubc⟩ := handle_history hpre hcl
  have hfirst : Reaches E (connected create c) cl := ⟨ops, hrun, hpubc⟩
  obtain ⟨all, hall, -⟩ := hfirst.trans ((call_reaches hcall).trans hpost)
  have hready := runOps_ready (hcreated c) (hmax c) (fun _ _ _ => .done) 1 hall hok
  obtain ⟨more, hmore, -⟩ := hpost
  have hP : HandleOf P.prog P.vers (create c) := ⟨hheader c, by rw [← hready.auth, hauth]⟩
  exact P.own_results hE hdec (hcreated c) (hmax c) hP F hin hbools hrun hcall hmore hok hfew hsrv

lemma nfsCreate_cases (ctx : NfsCtx) (c : Connection) :
    nfsCreate ctx c = clnttcpNbCreate c.xid nfsProgram nfsV3 ctx.nfsWsize ctx.nfsRsize c.auth c.junk ∨
      nfsCreate ctx c = clnttcpBCreate c.xid nfsProgram nfsV3 ctx.nfsWsize ctx.nfsRsize c.auth c.junk := by
  unfold nfsCreate
  split
  · exact Or.inl rfl
  · exact Or.inr rfl

/-- In every run of the interface, and whatever else is called meanwhile, the callback of an NFS call
is given what the server has for the arguments of that call. -/
theorem nfs3_results_of_own_call {E : Env} (hE : AllocsSucceed E) (hdec : E.xdrReplymsg = replyHeader)
    (F : Service nfs3Program) {ctx₀ ctx₁ ctx₂ : NfsContext} (hfresh : ctx₀.nfsCl = none)
    (hwsize : ctx₀.nfsWsize.toNat < 2 ^ 31) {pre post : List NfsOp} (hpre : runNfs E pre ctx₀ = some ctx₁) {net : Net}
    {cl cl' : NfsClient} (hcl : nfsHandle net ctx₁.toNfsCtx = some cl) {p : Nfs3Proc} {args : p.Args}
    {ucbi : CallbackInfo} {callflag : UInt64} {nfsCtx : NfsCtx}
    (hcall : p.call E net args ctx₁.toNfsCtx ucbi callflag = some (nfsCtx, .success))
    (hpost : runNfs E post { ctx₁ with toNfsCtx := nfsCtx } = some ctx₂) (hcl' : ctx₂.nfsCl = some cl')
    (hauth : cl'.world.ct.clAuth = authnone) (hpub : cl'.xPublic ≠ disableDataDexdrInternal)
    (hbools : (nfs3Program.proc p).xdrArgs.boolsOk args = true) (hok : issued cl'.world.log = regs cl'.world.log)
    (hfew : (regs cl'.world.log).length < 2 ^ 31) (hsrv : ServerReplies E (Serves nfs3Program F) cl'.world.log) :
    OwnResults (nfs3Program.proc p) (F p) args ⟨cl.world.serial, ucbi⟩ (byteSwap (cl.world.ct.ctXid - 1))
      cl'.world.log := by
  have huses := runNfs_uses hpre
  rw [nfs3Proc_call] at hcall
  have hbefore : Follows E (nfsCreate ctx₀.toNfsCtx) none ctx₁.nfsCl := by
    rw [← hfresh]
    exact huses.nfs
  have hhandle := hcl
  rw [nfsHandle_eq, huses.create] at hhandle
  rcases nfs3Call_cases hcall with ⟨hstat, -⟩ | ⟨cl₁, v, hcl₁, hnb, rfl⟩
  · cases hstat
  obtain rfl : cl = cl₁ := Option.some.inj (hcl.symm.trans hcl₁)
  have hafter : Reaches E { cl with world := v } cl' := by
    have hfollows := (runNfs_uses hpost).nfs
    rw [hcl'] at hfollows
    exact hfollows
  refine nfs3Program.results_of_call hE hdec F (nfsCreate_created ctx₀.toNfsCtx) ?_ ?_ hbefore hhandle
    hnb hafter hauth ((nfs3Program.proc p).inproc_eq _ (hafter.xPublic ▸ hpub)) hbools hok hfew hsrv
  · intro c
    rcases nfsCreate_cases ctx₀.toNfsCtx c with h | h
    · rw [h]
      exact recOutSize_lt hwsize
    · rw [h]
      exact recOutSize_lt hwsize
  · intro c
    rcases nfsCreate_cases ctx₀.toNfsCtx c with h | h
    · rw [h]
      rfl
    · rw [h]
      rfl

lemma ServerReplies.mono {E : Env} {R R' : Bytes → Bytes → Prop} {log : List Event} (h : ServerReplies E R log)
    (hR : ∀ q body, R q body → R' q body) : ServerReplies E R' log := by
  intro i hi b hb
  obtain ⟨hmid, hnd, hall⟩ := h i hi b hb
  refine ⟨hmid, hnd, fun r hr => ?_⟩
  obtain ⟨q, hq, hrep⟩ := hall r hr
  refine ⟨q, hq, ?_⟩
  obtain ⟨m, x, body, rfl, hm, hqx, hqR⟩ := hrep.reply
  simp only [Replies, hm, UInt32.toUInt32_toUInt64]
  exact ⟨hqx, hR _ _ hqR⟩

/-- A server that has lost every file. -/
def staleService : Service nfs3Program
  | .getattr => fun _ value => value.disc = .named .stale
  | _ => fun _ _ => False

def staleArgs : GETATTR3args := ⟨⟨⟨[1, 2, 3, 4], by decide⟩⟩⟩

/-- The one request, and its answer. -/
def StaleAnswer (q body : Bytes) : Prop :=
  q = callMessage (nfsCreate (nfsInit ipprotoTcp 0).toNfsCtx authnoneConnection)
      ⟨nfs3GetattrProc, xdrGETATTR3args.encode staleArgs⟩ 0xffffff0f ∧ body = [0, 0, 0, 70]

instance : DecidableRel StaleAnswer := fun _ _ => inferInstanceAs (Decidable (_ ∧ _))

lemma staleAnswer_serves (q body : Bytes) (h : StaleAnswer q body) : Serves nfs3Program staleService q body := by
  obtain ⟨rfl, rfl⟩ := h
  have hct : HandleOf nfsProgram nfsV3 (nfsCreate (nfsInit ipprotoTcp 0).toNfsCtx authnoneConnection) := ⟨rfl, rfl⟩
  exact ⟨_, _, .getattr, staleArgs, [], ⟨.named .stale, ()⟩, callMessage_decode hct _ _, rfl, rfl, rfl, rfl, rfl, rfl,
    rfl, rfl, rfl, rfl⟩

theorem nfs3_results_of_own_call_stale :
    ∃ cl' body, ((⟨0, ⟨some 1, 5⟩⟩, body) : Cbi × Bytes) ∈ invocations cl'.world.log ∧
      OwnResults (nfs3Program.proc .getattr) (staleService .getattr) staleArgs ⟨0, ⟨some 1, 5⟩⟩ 0xffffff0f
        (NfsClient.world cl').log := by
  have hrun : ((Nfs3Proc.getattr.call replyEnv ⟨some authnoneConnection, [], [.eagain]⟩ staleArgs
        (nfsInit ipprotoTcp 0).toNfsCtx ⟨some 1, 5⟩ 7).bind fun r =>
      (runNfs replyEnv [.complete 1 [.data (encodeRecords [[firstReply [0, 0, 0, 70]]])] [.wrote 52]]
          { nfsInit ipprotoTcp 0 with toNfsCtx := r.1 }).bind fun ctx =>
        ctx.nfsCl.map fun cl' => decide (r.2 = .success ∧ cl'.world.ct.clAuth = authnone ∧
          cl'.xPublic ≠ disableDataDexdrInternal ∧ issued cl'.world.log = regs cl'.world.log ∧
          (regs cl'.world.log).length < 2 ^ 31 ∧ ServerReplies replyEnv StaleAnswer cl'.world.log ∧
          (⟨0, ⟨some 1, 5⟩⟩, [0, 0, 0, 70]) ∈ invocations cl'.world.log)) = some true := by
    decide +kernel
  obtain ⟨⟨nfsCtx, stat⟩, hcall, hrest⟩ := Option.bind_eq_some_iff.mp hrun
  obtain ⟨ctx, hpost, hrest⟩ := Option.bind_eq_some_iff.mp hrest
  obtain ⟨cl', hcl', hdec⟩ := Option.map_eq_some_iff.mp hrest
  obtain ⟨rfl, hauth, hpub, hok, hfew, hsrv, hinv⟩ := of_decide_eq_true hdec
  have hpre : runNfs replyEnv [] (nfsInit ipprotoTcp 0) = some (nfsInit ipprotoTcp 0) := rfl
  exact ⟨cl', _, hinv, nfs3_results_of_own_call (fun _ _ => rfl) rfl staleService rfl (by decide) hpre rfl hcall hpost
    hcl' hauth hpub rfl hok hfew (hsrv.mono staleAnswer_serves)⟩

lemma mountCreate_created (c : Connection) : Created (mountCreate c) := .nonblocking ..

/-- The same for calls to the mount daemon, which go through a handle of their own. -/
theorem mount3_results_of_own_call {E : Env} (hE : AllocsSucceed E) (hdec : E.xdrReplymsg = replyHeader)
    (F : Service mount3Program) {ctx₀ ctx₁ ctx₂ ctx₃ : NfsContext} (hfresh : ctx₀.nfsMntCl = none)
    {pre post : List NfsOp} (hpre : runNfs E pre ctx₀ = some ctx₁) {net : Net} {cl cl' : NfsClient}
    (hcl : mountHandle net ctx₁ = some cl) {p : Mount3Proc} {args : p.Args} {ucbi : CallbackInfo}
    {callflag : UInt64} (hcall : p.call E net args ctx₁ ucbi callflag = some (ctx₂, .success))
    (hpost : runNfs E post ctx₂ = some ctx₃) (hcl' : ctx₃.nfsMntCl = some cl')
    (hauth : cl'.world.ct.clAuth = authnone)
    (hbools : (mount3Program.proc p).xdrArgs.boolsOk args = true) (hok : issued cl'.world.log = regs cl'.world.log)
    (hfew : (regs cl'.world.log).length < 2 ^ 31) (hsrv : ServerReplies E (Serves mount3Program F) cl'.world.log) :
    OwnResults (mount3Program.proc p) (F p) args ⟨cl.world.serial, ucbi⟩ (byteSwap (cl.world.ct.ctXid - 1))
      cl'.world.log := by
  rw [mount3Proc_call] at hcall
  have hbefore : Follows E mountCreate none ctx₁.nfsMntCl := by
    rw [← hfresh]
    exact (runNfs_uses hpre).mount
  have hhandle := hcl
  rw [mountHandle_eq] at hhandle
  rcases mount3Call_cases hcall with ⟨hstat, -⟩ | ⟨cl₁, v, hcl₁, hnb, rfl⟩
  · cases hstat
  obtain rfl : cl = cl₁ := Option.some.inj (hcl.symm.trans hcl₁)
  have hafter : Reaches E { cl with world := v } cl' := by
    have hfollows := (runNfs_uses hpost).mount
    rw [hcl'] at hfollows
    exact hfollows
  exact mount3Program.results_of_call hE hdec F mountCreate_created (fun c => recOutSize_lt (by decide))
    (fun c => rfl) hbefore hhandle hnb hafter hauth (by cases p <;> rfl) hbools hok hfew hsrv

/-- A mount daemon that exports nothing. -/
def deniedService : Service mount3Program
  | .mnt => fun _ value => value.disc = .named .acces
  | _ => fun _ _ => False

def rootDir : Dirpath := some ⟨[0x2f], by decide, by decide⟩

def DeniedAnswer (q body : Bytes) : Prop :=
  q = callMessage (mountCreate authnoneConnection) ⟨mount3MntProc, xdrDirpath.encode rootDir⟩ 0xffffff0f ∧
    body = [0, 0, 0, 13]

instance : DecidableRel DeniedAnswer := fun _ _ => inferInstanceAs (Decidable (_ ∧ _))

lemma deniedAnswer_serves (q body : Bytes) (h : DeniedAnswer q body) : Serves mount3Program deniedService q body := by
  obtain ⟨rfl, rfl⟩ := h
  have hct : HandleOf mountProgram mountV3 (mountCreate authnoneConnection) := ⟨rfl, rfl⟩
  exact ⟨_, _, .mnt, rootDir, [], ⟨.named .acces, ()⟩, callMessage_decode hct _ _, rfl, rfl, rfl, rfl, rfl, rfl,
    rfl, rfl, rfl, rfl⟩

/-- The reply comes in while the call waits for it. -/
theorem mount3_results_of_own_call_denied :
    ∃ cl' body, ((⟨0, ⟨some 1, 5⟩⟩, body) : Cbi × Bytes) ∈ invocations cl'.world.log ∧
      OwnResults (mount3Program.proc .mnt) (deniedService .mnt) rootDir ⟨0, ⟨some 1, 5⟩⟩ 0xffffff0f
        (NfsClient.world cl').log := by
  have hrun : ((Mount3Proc.mnt.call replyEnv ⟨some authnoneConnection,
        [.data (encodeRecords [[firstReply [0, 0, 0, 13]]])], [.wrote 52]⟩ rootDir (nfsInit ipprotoTcp 0) ⟨some 1, 5⟩
        0).bind fun r => r.1.nfsMntCl.map fun cl' => decide (r.2 = .success ∧ cl'.world.ct.clAuth = authnone ∧
          issued cl'.world.log = regs cl'.world.log ∧ (regs cl'.world.log).length < 2 ^ 31 ∧
          ServerReplies replyEnv DeniedAnswer cl'.world.log ∧
          (⟨0, ⟨some 1, 5⟩⟩, [0, 0, 0, 13]) ∈ invocations cl'.world.log)) = some true := by
    decide +kernel
  obtain ⟨⟨ctx, stat⟩, hcall, hrest⟩ := Option.bind_eq_some_iff.mp hrun
  obtain ⟨cl', hcl', hdec⟩ := Option.map_eq_some_iff.mp hrest
  obtain ⟨rfl, hauth, hok, hfew, hsrv, hinv⟩ := of_decide_eq_true hdec
  have hidle : ∀ ctx, runNfs replyEnv [] ctx = some ctx := fun _ => rfl
  exact ⟨cl', _, hinv, mount3_results_of_own_call (fun _ _ => rfl) rfl deniedService rfl (hidle _) rfl hcall (hidle _)
    hcl' hauth rfl hok hfew (hsrv.mono deniedAnswer_serves)⟩

end UnfsClient.Proofs
