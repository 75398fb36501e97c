import UnfsClient.Nfs3Actor
import UnfsClient.Proofs.FailedCall

/-!
# The record of a write

`xdr_WRITE3args` leaves the data out when `x_public` of the stream is -1, which is meant for
decoding. On the send path `x_public` is what the memory of the handle held when it was allocated.
-/

namespace UnfsClient.Proofs

open Lib

/-- What a `WRITE` puts before its data: file, offset, count and stability. -/
def writeFields (args : WRITE3args) : Bytes :=
  (xdrNfsFh3.encode args.file).bytes ++ (xdrOffset3.encode args.offset).bytes ++
    (xdrCount3.encode args.count).bytes ++ (xdrStableHow.encode args.stable).bytes

/-- The count, the data and their padding. -/
def writeData (args : WRITE3args) : Bytes :=
  beBytes args.data.size ++ (args.data.1 ++ List.replicate (rndup args.data.1.length) 0)

lemma writeData_ne_nil (args : WRITE3args) : writeData args ≠ [] := by
  unfold writeData beBytes
  exact List.cons_ne_nil _ _

lemma xdrWRITE3argsHead_bytes {args : WRITE3args} (hok : (xdrWRITE3argsHead.encode args).ok = true) :
    (xdrWRITE3argsHead.encode args).bytes = writeFields args := by
  obtain ⟨h₃, -, hstable⟩ := Codec.field_bytes hok
  obtain ⟨h₂, -, hcount⟩ := Codec.field_bytes h₃
  obtain ⟨h₁, -, hoffset⟩ := Codec.field_bytes h₂
  obtain ⟨-, -, hfile⟩ := Codec.field_bytes h₁
  refine hstable.trans ?_
  rw [hcount, hoffset, hfile]
  rfl

/-- What the arguments put on a stream, with and without `x_public` being -1. -/
lemma xdrWRITE3args_bytes {args : WRITE3args}
    (hok : ((xdrWRITE3args .enableDataDexdr).encode args).ok = true) (p : UInt64) :
    ((xdrWRITE3args (xPublicOfPointer p)).encode args).bytes =
      writeFields args ++ if p = disableDataDexdrInternal then [] else writeData args := by
  obtain ⟨hhead, hdata, hput⟩ := Codec.field_bytes hok
  unfold xPublicOfPointer
  by_cases hp : p = disableDataDexdrInternal
  · rw [if_pos hp, if_pos hp, List.append_nil, ← xdrWRITE3argsHead_bytes hhead]
    rfl
  · rw [if_neg hp, if_neg hp, ← xdrWRITE3argsHead_bytes hhead]
    refine hput.trans ?_
    rw [XdrProc.bytes_encode hdata]
    rfl

/-! ## The handle -/

lemma Act.header {E : Env} {calls : Bool} {w w' : World} (h : Act E calls w w') :
    w'.ct.ctMcallRest = w.ct.ctMcallRest ∧ w'.ct.clAuth = w.ct.clAuth := by
  cases h with
  | tx h => exact ⟨(congrArg CtData.ctMcallRest h.txOnly.ct :), (congrArg CtData.clAuth h.txOnly.ct :)⟩
  | _ => exact ⟨rfl, rfl⟩

/-- The static header of a handle and its credentials stay what they are. -/
lemma Acts.header {E : Env} {calls : Bool} {w w' : World} (h : Acts E calls w w') :
    w'.ct.ctMcallRest = w.ct.ctMcallRest ∧ w'.ct.clAuth = w.ct.clAuth := by
  induction h with
  | refl => exact ⟨rfl, rfl⟩
  | tail _ hact ih => exact ⟨hact.header.1.trans ih.1, hact.header.2.trans ih.2⟩

/-- `nfs3_write` has sent `rec` on the handle `cl`, which was made with the connection `c` and has
nothing left in its buffer. -/
structure WriteSent (E : Env) (c : Connection) (args : WRITE3args) (cl : NfsClient) (rec : Bytes) : Prop where
  reached : ∃ ctx₀, Acts E true (World.start (nfsCreate ctx₀ c)) cl.world
  xPublic : cl.xPublic = c.xPublic
  clean : cl.world.ct.ctXdrs.outBuf = []
  sent : ∃ net ctx ctx' cl' ucbi callflag, nfsHandle net ctx = some cl ∧
    nfs3Write E net args ctx ucbi callflag = some (ctx', .success) ∧ ctx'.nfsCl = some cl' ∧
    rec = recordPut (cl'.world.log.drop cl.world.log.length)

/-- The header and the credentials of a `WRITE` under this xid word. -/
def writeCallHead (xid : UInt32) (auth : Encoding) : Bytes :=
  leBytes (xid - 1) ++ (beBytes 0 ++ beBytes 2 ++ beBytes nfsProgram ++ beBytes nfsV3) ++
    beBytes nfs3WriteProc.toUInt32 ++ auth.bytes

lemma nfsCreate_header (ctx : NfsCtx) (c : Connection) :
    (nfsCreate ctx c).ctMcallRest = beBytes 0 ++ beBytes 2 ++ beBytes nfsProgram ++ beBytes nfsV3 ∧
      (nfsCreate ctx c).clAuth = c.auth ∧ Created (nfsCreate ctx c) := by
  unfold nfsCreate
  split
  · exact ⟨rfl, rfl, .nonblocking ..⟩
  · exact ⟨rfl, rfl, .blocking ..⟩

/-- The record has the data unless the memory of the handle held -1. -/
lemma WriteSent.record {E : Env} {c : Connection} {args : WRITE3args} {cl : NfsClient} {rec : Bytes}
    (h : WriteSent E c args cl rec) (hok : ((xdrWRITE3args .enableDataDexdr).encode args).ok = true) :
    rec = writeCallHead cl.world.ct.ctXid c.auth ++
      (writeFields args ++ if c.xPublic = disableDataDexdrInternal then [] else writeData args) := by
  obtain ⟨ctx₀, hacts⟩ := h.reached
  obtain ⟨hrest, hauth, hct⟩ := nfsCreate_header ctx₀ c
  obtain ⟨net, ctx, ctx', cl', ucbi, callflag, hcl, hwrite, hcl', rfl⟩ := h.sent
  cases nfs3Call_cases hwrite with
  | inl hrefused => cases hrefused.1
  | inr hmade =>
    obtain ⟨cl₁, w', hcl₁, hcall, rfl⟩ := hmade
    obtain rfl := Option.some.inj (hcl.symm.trans hcl₁)
    obtain rfl := Option.some.inj hcl'
    have hsize : 4 ≤ cl.world.ct.ctXdrs.outSize := by
      rw [hacts.outSize]
      exact outSize_created hct
    have hrec := clnttcpNbCall_record (w := { cl.world with reads := net.reads, writes := net.writes })
      (actsOnly_noReentry E true) hsize hcall
    refine hrec.trans ?_
    have hbytes := xdrWRITE3args_bytes hok cl.xPublic
    rw [h.xPublic] at hbytes
    change cl.world.ct.ctXdrs.outBuf ++ (leBytes (cl.world.ct.ctXid - 1) ++ cl.world.ct.ctMcallRest ++
      beBytes nfs3WriteProc.toUInt32 ++ cl.world.ct.clAuth.bytes ++
        ((xdrWRITE3args (xPublicOfPointer cl.xPublic)).encode args).bytes) = _
    rw [h.xPublic, hbytes, h.clean, hacts.header.1, hacts.header.2, List.nil_append]
    change leBytes (cl.world.ct.ctXid - 1) ++ (nfsCreate ctx₀ c).ctMcallRest ++
      beBytes nfs3WriteProc.toUInt32 ++ (nfsCreate ctx₀ c).clAuth.bytes ++ _ = _
    rw [hrest, hauth]
    rfl

/-- Two handles with the same credentials and the same xid, made in memory with any contents, send
the same record with all of the arguments for a write if and only if neither memory held -1 in
place of `x_public`. -/
theorem write_record_iff {E₁ E₂ : Env} {c₁ c₂ : Connection} (hauth : c₁.auth = c₂.auth) {args : WRITE3args}
    (hok : ((xdrWRITE3args .enableDataDexdr).encode args).ok = true) {cl₁ cl₂ : NfsClient} {rec₁ rec₂ : Bytes}
    (h₁ : WriteSent E₁ c₁ args cl₁ rec₁) (h₂ : WriteSent E₂ c₂ args cl₂ rec₂)
    (hxid : cl₁.world.ct.ctXid = cl₂.world.ct.ctXid) :
    (rec₁ = rec₂ ∧ rec₁ = writeCallHead cl₁.world.ct.ctXid c₁.auth ++ (writeFields args ++ writeData args)) ↔
      c₁.xPublic ≠ disableDataDexdrInternal ∧ c₂.xPublic ≠ disableDataDexdrInternal := by
  have hrec₁ := h₁.record hok
  have hrec₂ := h₂.record hok
  rw [← hxid, ← hauth] at hrec₂
  constructor
  · rintro ⟨heq, hfull⟩
    have hdata : ∀ {p : UInt64}, writeCallHead cl₁.world.ct.ctXid c₁.auth ++
        (writeFields args ++ if p = disableDataDexdrInternal then [] else writeData args) =
        writeCallHead cl₁.world.ct.ctXid c₁.auth ++ (writeFields args ++ writeData args) →
        p ≠ disableDataDexdrInternal := by
      intro p hp hdis
      rw [if_pos hdis] at hp
      have hnil := List.append_cancel_left (List.append_cancel_left hp)
      exact writeData_ne_nil args hnil.symm
    refine ⟨hdata ?_, hdata ?_⟩
    · rw [← hrec₁, hfull]
    · rw [← hrec₂, ← heq, hfull]
  · rintro ⟨hne₁, hne₂⟩
    rw [if_neg hne₁] at hrec₁
    rw [if_neg hne₂] at hrec₂
    exact ⟨hrec₁.trans hrec₂.symm, hrec₁⟩

/-! ## A write of one byte -/

/-- The handle of a context before its first call. -/
def firstClient (ctx : NfsCtx) (c : Connection) : NfsClient := ⟨World.start (nfsCreate ctx c), c.xPublic⟩

/-- A write that is the first call of a context. -/
lemma writeSent_first {E : Env} {net : Net} {c : Connection} {args : WRITE3args} {ctx ctx' : NfsCtx}
    {cl' : NfsClient} {ucbi : CallbackInfo} {callflag : UInt64} (hc : net.connection = some c)
    (hnone : ctx.nfsCl = none) (h : nfs3Write E net args ctx ucbi callflag = some (ctx', .success))
    (hcl' : ctx'.nfsCl = some cl') :
    WriteSent E c args (firstClient ctx c) (recordPut cl'.world.log) := by
  have hcl : nfsHandle net ctx = some (firstClient ctx c) := by
    unfold nfsHandle
    rw [hnone, hc]
    rfl
  refine ⟨⟨ctx, .refl⟩, rfl, ?_, net, ctx, ctx', cl', ucbi, callflag, hcl, h, hcl', rfl⟩
  unfold firstClient nfsCreate
  split <;> rfl

lemma oneByteHandle_short : ([1] : Bytes).length < 2 ^ 32 := by decide
lemma oneByteData_short : ([7] : Bytes).length < 2 ^ 32 := by decide

def oneByteWrite : WRITE3args :=
  ⟨⟨⟨[1], oneByteHandle_short⟩⟩, 0, 1, .named .unstable, ⟨[7], oneByteData_short⟩⟩

def writeCtx : NfsCtx := ⟨ipprotoTcp, 0, 0, 0, none⟩

/-- A connection whose handle is made in memory with this `x_public`. -/
def staleConnection (p : UInt64) : Connection :=
  ⟨0x10, authnone, ⟨[], 0, 0, none, 0, 0, 0, fun _ => 0, false⟩, p⟩

/-- The status and the record of the write. -/
def sendOneByte (p : UInt64) : Option (ClntStat × Bytes) :=
  (nfs3Write replyEnv ⟨some (staleConnection p), [], [.eagain]⟩ oneByteWrite writeCtx ⟨some 1, 0⟩ 7).bind fun r =>
    r.1.nfsCl.map fun cl => (r.2, recordPut cl.world.log)

lemma sendOneByte_sent {p : UInt64} {rec : Bytes} (h : sendOneByte p = some (.success, rec)) :
    WriteSent replyEnv (staleConnection p) oneByteWrite (firstClient writeCtx (staleConnection p)) rec := by
  obtain ⟨⟨ctx', stat⟩, hwrite, hrest⟩ := Option.bind_eq_some_iff.mp h
  obtain ⟨cl', hcl', heq⟩ := Option.map_eq_some_iff.mp hrest
  obtain ⟨rfl, rfl⟩ := Prod.mk.inj heq
  exact writeSent_first rfl rfl hwrite hcl'

/-- Memory with different contents, neither of them -1. -/
theorem write_record_iff_one_byte :
    ∃ cl₁ cl₂ rec, WriteSent replyEnv (staleConnection 0) oneByteWrite cl₁ rec ∧
      WriteSent replyEnv (staleConnection 5) oneByteWrite cl₂ rec ∧
      rec = writeCallHead cl₁.world.ct.ctXid authnone ++ (writeFields oneByteWrite ++ writeData oneByteWrite) := by
  have hrun₁ : (sendOneByte 0).map Prod.fst = some .success := by decide +kernel
  have hrun₂ : (sendOneByte 5).map Prod.fst = some .success := by decide +kernel
  obtain ⟨⟨stat₁, rec₁⟩, hsend₁, hstat₁⟩ := Option.map_eq_some_iff.mp hrun₁
  obtain ⟨⟨stat₂, rec₂⟩, hsend₂, hstat₂⟩ := Option.map_eq_some_iff.mp hrun₂
  rw [show stat₁ = .success from hstat₁] at hsend₁
  rw [show stat₂ = .success from hstat₂] at hsend₂
  have hok : ((xdrWRITE3args .enableDataDexdr).encode oneByteWrite).ok = true := by decide +kernel
  have hxid : (firstClient writeCtx (staleConnection 0)).world.ct.ctXid =
      (firstClient writeCtx (staleConnection 5)).world.ct.ctXid := by decide +kernel
  have h₁ := sendOneByte_sent hsend₁
  have h₂ := sendOneByte_sent hsend₂
  have hauth : (staleConnection 0).auth = (staleConnection 5).auth := rfl
  obtain ⟨heq, hfull⟩ := (write_record_iff hauth hok h₁ h₂ hxid).mpr ⟨by decide, by decide⟩
  rw [← heq] at h₂
  exact ⟨_, _, _, h₁, h₂, hfull⟩

/-- In memory that holds -1 the record ends before the data. -/
theorem stale_pointer_drops_data :
    sendOneByte 0 =
      some (.success, writeCallHead 0x10000000 authnone ++ (writeFields oneByteWrite ++ writeData oneByteWrite)) ∧
    sendOneByte disableDataDexdrInternal =
      some (.success, writeCallHead 0x10000000 authnone ++ writeFields oneByteWrite) ∧
    sendOneByte 0 ≠ sendOneByte disableDataDexdrInternal := by
  decide +kernel

end UnfsClient.Proofs
