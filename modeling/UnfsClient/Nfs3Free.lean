import UnfsClient.Lib.Allocation
import UnfsClient.Nfs3InPlace

/-!
# Freeing decoded structures

What the routines of `nfs3_xdr.c` allocate, and the functions `free_T` of `nfs3.c` and `mount3.c`. Such
a function is the locations of the pointers it passes to `mem_free`, in that order, where `[]` is the
pointer to the structure. `mem_free` does not look at the size it is given. Allocations succeed.
-/

namespace UnfsClient

open Lib

/-!
## Routines with their allocations
-/

def xdrFilename3Drawn : Drawn Member xdrFilename3.toCodec := .string 0xffffffff []
def xdrNfspath3Drawn : Drawn Member xdrNfspath3.toCodec := .string 0xffffffff []

def xdrNfsFh3Drawn : Drawn Member xdrNfsFh3.toCodec :=
  Drawn.plain (.record NfsFh3.mk)
    |>.field [.data] (.bytes 64 [.dataVal])

def xdrDiropargs3Drawn : Drawn Member xdrDiropargs3.toCodec :=
  Drawn.plain (.record Diropargs3.mk)
    |>.field [.dir] xdrNfsFh3Drawn
    |>.field [.name] xdrFilename3Drawn

/-- `handle_follows` and its like. -/
def isTrue : BoolT → Bool
  | .named b => b
  | .unnamed _ _ => false

def xdrIfTrueDrawn {α : Type} {p : XdrProc α} (i : Drawn Member p.toCodec) :
    Drawn Member (xdrIfTrue p).toCodec :=
  .union (xdrIfTrueIn i.toInPlace) .bool isTrue i.ledger i.within

def xdrPostOpFh3Drawn : Drawn Member xdrPostOpFh3.toCodec :=
  xdrIfTrueDrawn (xdrNfsFh3Drawn.member [.u, .handle])

/-- The `switch` on `status` of a result that allocates for `NFS3_OK` only. -/
def xdrStatusDrawn {Resok Resfail : Type} {resok : XdrProc Resok} (resfail : XdrProc Resfail)
    (ok : Drawn Member resok.toCodec) : Drawn Member (xdrStatus resok resfail).toCodec :=
  .union (xdrStatusIn ok.toInPlace (.plain resfail.toCodec)) xdrNfsstat3 statusOk
    (ok.ledger.member [.u, .resok]) fun m l b => by
      have hok := (ok.member [Member.u, Member.resok]).within m l b
      exact hok.trans (List.sublist_append_left _ _)

def xdrGETATTR3argsDrawn : Drawn Member xdrGETATTR3args.toCodec :=
  Drawn.plain (.record GETATTR3args.mk)
    |>.field [.object] xdrNfsFh3Drawn

def xdrSETATTR3argsDrawn : Drawn Member xdrSETATTR3args.toCodec :=
  Drawn.plain (.record SETATTR3args.mk)
    |>.field [.object] xdrNfsFh3Drawn
    |>.plainField
    |>.plainField

def xdrLOOKUP3argsDrawn : Drawn Member xdrLOOKUP3args.toCodec :=
  Drawn.plain (.record LOOKUP3args.mk)
    |>.field [.what] xdrDiropargs3Drawn

def xdrACCESS3argsDrawn : Drawn Member xdrACCESS3args.toCodec :=
  Drawn.plain (.record ACCESS3args.mk)
    |>.field [.object] xdrNfsFh3Drawn
    |>.plainField

def xdrREADLINK3argsDrawn : Drawn Member xdrREADLINK3args.toCodec :=
  Drawn.plain (.record READLINK3args.mk)
    |>.field [.symlink] xdrNfsFh3Drawn

def xdrREAD3argsDrawn : Drawn Member xdrREAD3args.toCodec :=
  Drawn.plain (.record READ3args.mk)
    |>.field [.file] xdrNfsFh3Drawn
    |>.plainField
    |>.plainField

def xdrCREATE3argsDrawn : Drawn Member xdrCREATE3args.toCodec :=
  Drawn.plain (.record CREATE3args.mk)
    |>.field [.«where»] xdrDiropargs3Drawn
    |>.plainField

def xdrMKDIR3argsDrawn : Drawn Member xdrMKDIR3args.toCodec :=
  Drawn.plain (.record MKDIR3args.mk)
    |>.field [.«where»] xdrDiropargs3Drawn
    |>.plainField

def xdrSymlinkdata3Drawn : Drawn Member xdrSymlinkdata3.toCodec :=
  Drawn.plain (.record Symlinkdata3.mk)
    |>.plainField
    |>.field [.symlinkData] xdrNfspath3Drawn

def xdrSYMLINK3argsDrawn : Drawn Member xdrSYMLINK3args.toCodec :=
  Drawn.plain (.record SYMLINK3args.mk)
    |>.field [.«where»] xdrDiropargs3Drawn
    |>.field [.symlink] xdrSymlinkdata3Drawn

def xdrMKNOD3argsDrawn : Drawn Member xdrMKNOD3args.toCodec :=
  Drawn.plain (.record MKNOD3args.mk)
    |>.field [.«where»] xdrDiropargs3Drawn
    |>.plainField

def xdrREMOVE3argsDrawn : Drawn Member xdrREMOVE3args.toCodec :=
  Drawn.plain (.record REMOVE3args.mk)
    |>.field [.object] xdrDiropargs3Drawn

def xdrRMDIR3argsDrawn : Drawn Member xdrRMDIR3args.toCodec :=
  Drawn.plain (.record RMDIR3args.mk)
    |>.field [.object] xdrDiropargs3Drawn

def xdrRENAME3argsDrawn : Drawn Member xdrRENAME3args.toCodec :=
  Drawn.plain (.record RENAME3args.mk)
    |>.field [.«from»] xdrDiropargs3Drawn
    |>.field [.«to»] xdrDiropargs3Drawn

def xdrLINK3argsDrawn : Drawn Member xdrLINK3args.toCodec :=
  Drawn.plain (.record LINK3args.mk)
    |>.field [.file] xdrNfsFh3Drawn
    |>.field [.link] xdrDiropargs3Drawn

def xdrREADDIR3argsDrawn : Drawn Member xdrREADDIR3args.toCodec :=
  Drawn.plain (.record READDIR3args.mk)
    |>.field [.dir] xdrNfsFh3Drawn
    |>.plainField
    |>.plainField
    |>.plainField

def xdrREADDIRPLUS3argsDrawn : Drawn Member xdrREADDIRPLUS3args.toCodec :=
  Drawn.plain (.record READDIRPLUS3args.mk)
    |>.field [.dir] xdrNfsFh3Drawn
    |>.plainField
    |>.plainField
    |>.plainField
    |>.plainField

def xdrFSSTAT3argsDrawn : Drawn Member xdrFSSTAT3args.toCodec :=
  Drawn.plain (.record FSSTAT3args.mk)
    |>.field [.fsroot] xdrNfsFh3Drawn

def xdrFSINFOargsDrawn : Drawn Member xdrFSINFOargs.toCodec :=
  Drawn.plain (.record FSINFOargs.mk)
    |>.field [.fsroot] xdrNfsFh3Drawn

def xdrPATHCONF3argsDrawn : Drawn Member xdrPATHCONF3args.toCodec :=
  Drawn.plain (.record PATHCONF3args.mk)
    |>.field [.object] xdrNfsFh3Drawn

def xdrCOMMIT3argsDrawn : Drawn Member xdrCOMMIT3args.toCodec :=
  Drawn.plain (.record COMMIT3args.mk)
    |>.field [.file] xdrNfsFh3Drawn
    |>.plainField
    |>.plainField

def xdrWRITE3argsHeadDrawn : Drawn Member xdrWRITE3argsHead :=
  Drawn.plain (.record WRITE3args.mk)
    |>.field [.file] xdrNfsFh3Drawn
    |>.plainField
    |>.plainField
    |>.plainField

def xdrWRITE3argsDrawn : (pub : XPublic) → Drawn Member (xdrWRITE3args pub)
  | .disableDataDexdr => xdrWRITE3argsHeadDrawn.skip noData [[.data, .dataLen], [.data, .dataVal]]
  | .enableDataDexdr => xdrWRITE3argsHeadDrawn.field [.data] (.bytes 0xffffffff [.dataVal])

def xdrLOOKUP3resokDrawn : Drawn Member xdrLOOKUP3resok.toCodec :=
  Drawn.plain (.record LOOKUP3resok.mk)
    |>.field [.object] xdrNfsFh3Drawn
    |>.plainField
    |>.plainField

def xdrREADLINK3resokDrawn : Drawn Member xdrREADLINK3resok.toCodec :=
  Drawn.plain (.record READLINK3resok.mk)
    |>.plainField
    |>.field [.data] xdrNfspath3Drawn

def xdrCREATE3resokDrawn : Drawn Member xdrCREATE3resok.toCodec :=
  Drawn.plain (.record CREATE3resok.mk)
    |>.field [.obj] xdrPostOpFh3Drawn
    |>.plainField
    |>.plainField

def xdrMKDIR3resokDrawn : Drawn Member xdrMKDIR3resok.toCodec :=
  Drawn.plain (.record MKDIR3resok.mk)
    |>.field [.obj] xdrPostOpFh3Drawn
    |>.plainField
    |>.plainField

def xdrSYMLINK3resokDrawn : Drawn Member xdrSYMLINK3resok.toCodec :=
  Drawn.plain (.record SYMLINK3resok.mk)
    |>.field [.obj] xdrPostOpFh3Drawn
    |>.plainField
    |>.plainField

def xdrMKNOD3resokDrawn : Drawn Member xdrMKNOD3resok.toCodec :=
  Drawn.plain (.record MKNOD3resok.mk)
    |>.field [.obj] xdrPostOpFh3Drawn
    |>.plainField
    |>.plainField

def xdrREAD3resokHeadDrawn : Drawn Member xdrREAD3resokHead :=
  Drawn.plain (.record READ3resok.mk)
    |>.plainField
    |>.plainField
    |>.plainField

def xdrREAD3resokDrawn : (pub : XPublic) → Drawn Member (xdrREAD3resok pub)
  | .disableDataDexdr => xdrREAD3resokHeadDrawn.skip noData [[.data, .dataLen], [.data, .dataVal]]
  | .enableDataDexdr => xdrREAD3resokHeadDrawn.field [.data] (.bytes 0xffffffff [.dataVal])

lemma xdrREAD3resokDrawn_eq (pub : XPublic) : (xdrREAD3resokDrawn pub).toInPlace = xdrREAD3resokIn pub := by
  cases pub with
  | disableDataDexdr => rfl
  | enableDataDexdr => rfl

def xdrREAD3resDrawn (pub : XPublic) : Drawn Member (xdrREAD3res pub) :=
  .union (xdrREAD3resIn pub) xdrNfsstat3 statusOk ((xdrREAD3resokDrawn pub).ledger.member [.u, .resok])
    fun m l b => by
      have hok := ((xdrREAD3resokDrawn pub).member [.u, .resok]).within m l b
      have hreads : ((xdrREAD3resokDrawn pub).member [.u, .resok]).reads =
          ((xdrREAD3resokIn pub).member [.u, .resok]).reads := by
        rw [← xdrREAD3resokDrawn_eq]
        rfl
      rw [hreads] at hok
      exact hok.trans (List.sublist_append_left _ _)

/-!
## MOUNT
-/

def xdrFhandle3Drawn : Drawn Member xdrFhandle3.toCodec := .bytes 64 [.fhandle3Val]
def xdrDirpathDrawn : Drawn Member xdrDirpath.toCodec := .string 1024 []
def xdrNameDrawn : Drawn Member xdrName.toCodec := .string 255 []

def xdrMountres3OkDrawn : Drawn Member xdrMountres3Ok.toCodec :=
  Drawn.plain (.record Mountres3Ok.mk)
    |>.field [.fhandle] xdrFhandle3Drawn
    |>.field [.authFlavors] (.array 0xffffffff 4 .int [.authFlavorsVal])

def xdrMountres3Drawn : Drawn Member xdrMountres3.toCodec :=
  .union xdrMountres3In xdrMountstat3 fhsStatusOk (xdrMountres3OkDrawn.ledger.member [.u, .mountinfo])
    fun m l b => by
      have hok := (xdrMountres3OkDrawn.member [Member.u, Member.mountinfo]).within m l b
      exact hok.trans (List.sublist_append_left _ _)

def xdrMountbodyDrawn : Drawn Member xdrMountbody.toCodec :=
  Drawn.plain (.record Mountbody.mk)
    |>.field [.mlHostname] xdrNameDrawn
    |>.field [.mlDirectory] xdrDirpathDrawn

def xdrGroupnodeDrawn : Drawn Member xdrGroupnode.toCodec :=
  Drawn.plain (.record Groupnode.mk)
    |>.field [.grName] xdrNameDrawn

def xdrEntry3Drawn : Drawn Member xdrEntry3.toCodec :=
  Drawn.plain (.record Entry3.mk)
    |>.plainField
    |>.field [.name] xdrFilename3Drawn
    |>.plainField

def xdrEntryplus3Drawn : Drawn Member xdrEntryplus3.toCodec :=
  Drawn.plain (.record Entryplus3.mk)
    |>.plainField
    |>.field [.name] xdrFilename3Drawn
    |>.plainField
    |>.plainField
    |>.field [.nameHandle] xdrPostOpFh3Drawn

/-!
## Lists
-/

def xdrDirlist3Ledger : Ledger Member :=
  .member [.entries] (.pointer xdrEntry3In xdrEntry3Drawn.ledger [.nextentry])

/-- The members before `reply`. -/
def xdrREADDIR3resokHeadIn : InPlace Member (Codec.record READDIR3resok.mk
    |>.field READDIR3resok.dirAttributes xdrPostOpAttr
    |>.field READDIR3resok.cookieverf xdrCookieverf3) :=
  InPlace.plain (.record READDIR3resok.mk) |>.plainField |>.plainField

def xdrREADDIR3resokLedger : Ledger Member :=
  Ledger.empty.andThen xdrREADDIR3resokHeadIn [.reply] xdrDirlist3Ledger

def xdrREADDIR3resLedger : Ledger Member :=
  .union xdrNfsstat3 statusOk (xdrREADDIR3resokLedger.member [.u, .resok])

def xdrDirlistplus3Ledger : Ledger Member :=
  .member [.entries] (.pointer xdrEntryplus3In xdrEntryplus3Drawn.ledger [.nextentry])

def xdrREADDIRPLUS3resokHeadIn : InPlace Member (Codec.record READDIRPLUS3resok.mk
    |>.field READDIRPLUS3resok.dirAttributes xdrPostOpAttr
    |>.field READDIRPLUS3resok.cookieverf xdrCookieverf3) :=
  InPlace.plain (.record READDIRPLUS3resok.mk) |>.plainField |>.plainField

def xdrREADDIRPLUS3resokLedger : Ledger Member :=
  Ledger.empty.andThen xdrREADDIRPLUS3resokHeadIn [.reply] xdrDirlistplus3Ledger

def xdrREADDIRPLUS3resLedger : Ledger Member :=
  .union xdrNfsstat3 statusOk (xdrREADDIRPLUS3resokLedger.member [.u, .resok])

def xdrMountlistLedger : Ledger Member := .firstNode xdrMountbodyIn xdrMountbodyDrawn.ledger [.mlNext]
def xdrGroupsLedger : Ledger Member := .pointer xdrGroupnodeIn xdrGroupnodeDrawn.ledger [.grNext]

/-- The member before `ex_groups`. -/
def xdrExportnodeHeadDrawn : Drawn Member (Codec.record Exportnode.mk |>.field Exportnode.exDir xdrDirpath) :=
  Drawn.plain (.record Exportnode.mk) |>.field [.exDir] xdrDirpathDrawn

def xdrExportnodeLedger : Ledger Member :=
  xdrExportnodeHeadDrawn.ledger.andThen xdrExportnodeHeadDrawn.toInPlace [.exGroups] xdrGroupsLedger

def xdrExportsLedger : Ledger Member := .firstNode xdrExportnodeIn xdrExportnodeLedger [.exNext]

/-!
## Wrappers and what frees their results
-/

/-- Whether a member points to a node of a list. -/
def Member.toNode : Member → Bool
  | .entries | .nextentry | .mlNext | .grNext | .exGroups | .exNext => true
  | _ => false

/-- Whether a location is in an allocated node, which is zeroed. -/
def inNode (loc : List Member) : Bool := loc.dropLast.any Member.toNode

/-- `xdr_to_T` and `free_T`: the blocks that the routine allocates besides the structure, whether the
pointer to a value is returned, and the pointers that are freed with the value. -/
structure FreePair where
  call : DecodeCall
  ledger : Ledger Member
  nonNull : call.Val → Bool
  frees : call.Val → List (List Member)

namespace FreePair

variable (w : FreePair) (m : Memory Member) (msg : Bytes) (len : Int)

/-- The blocks allocated by the routine. -/
def routineLedger : List (List Member) := w.ledger (m.clear w.call.nulls) [] (xdrmemCreate msg len)

/-- The blocks allocated by the wrapper. -/
def drawn : List (List Member) := [] :: w.routineLedger m msg len

/-- `xdr_to_T`: what it returns and the blocks that are left then. Only the structure is freed when
the routine fails. -/
def xdrTo : Option (Option w.call.Val × List (List Member)) :=
  match (w.call.runIn m msg len).outcome with
  | .failed => (Pointer.free (w.drawn m msg len) (.block [])).map (none, ·)
  | .undefined => none
  | .done v _ => some (if w.nonNull v then some v else none, w.drawn m msg len)

/-- A pointer that the wrapper or the routine has set to null. -/
def isNull (loc : List Member) : Bool := m.clear w.call.nulls loc == 0 || inNode loc

/-- `free_T` on what was returned. -/
def free : Option w.call.Val → List (List Member) → Option (List (List Member))
  | none, ledger => some ledger
  | some v, ledger =>
    Pointer.freeAll ledger ((w.frees v).map (Pointer.stored (w.drawn m msg len) (w.isNull m)))

/-- The blocks that are left after `xdr_to_T` and `free_T`. -/
def remaining : Option (List (List Member)) :=
  (w.xdrTo m msg len).bind fun x => w.free m msg len x.1 x.2

/-- Every block is freed, none of them twice and nothing else. -/
def Balanced : Prop := w.remaining m msg len = some []

end FreePair

/-- A `free_T` that frees the same pointers whatever the value. -/
structure ConstFree where
  call : DecodeCall
  routine : Drawn Member call.codec
  same : routine.toInPlace = call.xdr
  frees : List (List Member)

def ConstFree.pair (w : ConstFree) : FreePair := ⟨w.call, w.routine.ledger, fun _ => true, fun _ => w.frees⟩

/-- A result with pointers for `NFS3_OK` only, which are freed before the structure. -/
structure StatusFree where
  {Resok Resfail : Type}
  {resok : XdrProc Resok}
  resfail : XdrProc Resfail
  ok : Drawn Member resok.toCodec
  nulls : List (List Member)
  frees : List (List Member)

def StatusFree.call (w : StatusFree) : DecodeCall :=
  ⟨xdrStatusIn w.ok.toInPlace (.plain w.resfail.toCodec), w.nulls⟩

def StatusFree.pair (w : StatusFree) : FreePair where
  call := w.call
  ledger := (xdrStatusDrawn w.resfail w.ok).ledger
  nonNull _ := true
  frees v := if statusOk (DiscUnion.disc v) then w.frees ++ [[]] else [[]]

def freeLOOKUP3args : ConstFree :=
  ⟨xdrToLOOKUP3argsIn, xdrLOOKUP3argsDrawn, rfl, [[.what, .name], [.what, .dir, .data, .dataVal], []]⟩

def freeGETATTR3args : ConstFree :=
  ⟨xdrToGETATTR3argsIn, xdrGETATTR3argsDrawn, rfl, [[.object, .data, .dataVal], []]⟩

def freeSETATTR3args : ConstFree :=
  ⟨xdrToSETATTR3argsIn, xdrSETATTR3argsDrawn, rfl, [[.object, .data, .dataVal], []]⟩

def freeACCESS3args : ConstFree :=
  ⟨xdrToACCESS3argsIn, xdrACCESS3argsDrawn, rfl, [[.object, .data, .dataVal], []]⟩

def freeREADLINK3args : ConstFree :=
  ⟨xdrToREADLINK3argsIn, xdrREADLINK3argsDrawn, rfl, [[.symlink, .data, .dataVal], []]⟩

def freeREAD3args : ConstFree := ⟨xdrToREAD3argsIn, xdrREAD3argsDrawn, rfl, [[.file, .data, .dataVal], []]⟩

def freeCREATE3args : ConstFree :=
  ⟨xdrToCREATE3argsIn, xdrCREATE3argsDrawn, rfl,
    [[.«where», .dir, .data, .dataVal], [.«where», .name], []]⟩

def freeMKDIR3args : ConstFree :=
  ⟨xdrToMKDIR3argsIn, xdrMKDIR3argsDrawn, rfl,
    [[.«where», .name], [.«where», .dir, .data, .dataVal], []]⟩

def freeSYMLINK3args : ConstFree :=
  ⟨xdrToSYMLINK3argsIn, xdrSYMLINK3argsDrawn, rfl,
    [[.«where», .dir, .data, .dataVal], [.«where», .name], [.symlink, .symlinkData], []]⟩

def freeMKNOD3args : ConstFree :=
  ⟨xdrToMKNOD3argsIn, xdrMKNOD3argsDrawn, rfl, [[.«where», .dir, .data, .dataVal], [.«where», .name]]⟩

def freeREMOVE3args : ConstFree :=
  ⟨xdrToREMOVE3argsIn, xdrREMOVE3argsDrawn, rfl,
    [[.object, .dir, .data, .dataVal], [.object, .name], []]⟩

def freeRMDIR3args : ConstFree :=
  ⟨xdrToRMDIR3argsIn, xdrRMDIR3argsDrawn, rfl, [[.object, .dir, .data, .dataVal], [.object, .name], []]⟩

def freeRENAME3args : ConstFree :=
  ⟨xdrToRENAME3argsIn, xdrRENAME3argsDrawn, rfl,
    [[.«from», .dir, .data, .dataVal], [.«from», .name], [.«to», .dir, .data, .dataVal], [.«to», .name], []]⟩

def freeLINK3args : ConstFree :=
  ⟨xdrToLINK3argsIn, xdrLINK3argsDrawn, rfl,
    [[.file, .data, .dataVal], [.link, .dir, .data, .dataVal], [.link, .name], []]⟩

def freeREADDIR3args : ConstFree :=
  ⟨xdrToREADDIR3argsIn, xdrREADDIR3argsDrawn, rfl, [[.dir, .data, .dataVal], []]⟩

def freeREADDIRPLUS3args : ConstFree :=
  ⟨xdrToREADDIRPLUS3argsIn, xdrREADDIRPLUS3argsDrawn, rfl, [[.dir, .data, .dataVal], []]⟩

def freeFSSTAT3args : ConstFree :=
  ⟨xdrToFSSTAT3argsIn, xdrFSSTAT3argsDrawn, rfl, [[.fsroot, .data, .dataVal], []]⟩

def freeFSINFOargs : ConstFree :=
  ⟨xdrToFSINFOargsIn, xdrFSINFOargsDrawn, rfl, [[.fsroot, .data, .dataVal], []]⟩

def freePATHCONF3args : ConstFree :=
  ⟨xdrToPATHCONF3argsIn, xdrPATHCONF3argsDrawn, rfl, [[.object, .data, .dataVal], []]⟩

def freeCOMMIT3args : ConstFree :=
  ⟨xdrToCOMMIT3argsIn, xdrCOMMIT3argsDrawn, rfl, [[.file, .data, .dataVal], []]⟩

def freeGETATTR3res : ConstFree := ⟨xdrToGETATTR3resIn, .plain _, rfl, [[]]⟩
def freeSETATTR3res : ConstFree := ⟨xdrToSETATTR3resIn, .plain _, rfl, [[]]⟩
def freeACCESS3res : ConstFree := ⟨xdrToACCESS3resIn, .plain _, rfl, [[]]⟩
def freeWRITE3res : ConstFree := ⟨xdrToWRITE3resIn, .plain _, rfl, [[]]⟩
def freeREMOVE3res : ConstFree := ⟨xdrToREMOVE3resIn, .plain _, rfl, [[]]⟩
def freeRMDIR3res : ConstFree := ⟨xdrToRMDIR3resIn, .plain _, rfl, [[]]⟩
def freeRENAME3res : ConstFree := ⟨xdrToRENAME3resIn, .plain _, rfl, [[]]⟩
def freeLINK3res : ConstFree := ⟨xdrToLINK3resIn, .plain _, rfl, [[]]⟩
def freeFSSTAT3res : ConstFree := ⟨xdrToFSSTAT3resIn, .plain _, rfl, [[]]⟩
def freeFSINFO3res : ConstFree := ⟨xdrToFSINFO3resIn, .plain _, rfl, [[]]⟩
def freeCOMMIT3res : ConstFree := ⟨xdrToCOMMIT3resIn, .plain _, rfl, [[]]⟩
def freePATHCONF3res : ConstFree := ⟨xdrToPATHCONF3resIn, .plain _, rfl, [[]]⟩

def freeLOOKUP3res : StatusFree :=
  ⟨xdrLOOKUP3resfail, xdrLOOKUP3resokDrawn, xdrToLOOKUP3resIn.nulls, [[.u, .resok, .object, .data, .dataVal]]⟩

def freeREADLINK3res : StatusFree :=
  ⟨xdrREADLINK3resfail, xdrREADLINK3resokDrawn, xdrToREADLINK3resIn.nulls, [[.u, .resok, .data]]⟩

def freeCREATE3res : StatusFree :=
  ⟨xdrCREATE3resfail, xdrCREATE3resokDrawn, xdrToCREATE3resIn.nulls,
    [[.u, .resok, .obj, .u, .handle, .data, .dataVal]]⟩

def freeMKDIR3res : StatusFree :=
  ⟨xdrMKDIR3resfail, xdrMKDIR3resokDrawn, xdrToMKDIR3resIn.nulls,
    [[.u, .resok, .obj, .u, .handle, .data, .dataVal]]⟩

def freeSYMLINK3res : StatusFree :=
  ⟨xdrSYMLINK3resfail, xdrSYMLINK3resokDrawn, xdrToSYMLINK3resIn.nulls,
    [[.u, .resok, .obj, .u, .handle, .data, .dataVal]]⟩

def freeMKNOD3res : StatusFree :=
  ⟨xdrMKNOD3resfail, xdrMKNOD3resokDrawn, xdrToMKNOD3resIn.nulls,
    [[.u, .resok, .obj, .u, .handle, .data, .dataVal]]⟩

/-- The member of a result that is selected by `NFS3_OK`. -/
def resok? {Resok Resfail : Type} (v : DiscUnion (StatusArm Resok Resfail)) : Option Resok :=
  armTrue (statusOk v.disc) v.arm

def mountinfo? (v : Mountres3) : Option Mountres3Ok := armTrue (fhsStatusOk v.disc) v.arm

/-- The pointer to the first entry of a listing. -/
abbrev entriesLoc : List Member := [.u, .resok, .reply, .entries]

/-- The loop of `free_READDIR3res`. -/
def freeEntries (entries : List Entry3) : List (List Member) :=
  (nodeLocs (fun _ => [[Member.name], []]) [Member.nextentry] entries).map (entriesLoc ++ ·)

def freeREADDIR3res : FreePair where
  call := xdrToREADDIR3resIn
  ledger := xdrREADDIR3resLedger
  nonNull _ := true
  frees (v : READDIR3res) :=
    ((resok? v).elim [] fun resok => freeEntries resok.reply.entries) ++ [[]]

/-- The loop of `free_READDIRPLUS3res`. -/
def freeEntriesplus (entries : List Entryplus3) : List (List Member) :=
  (nodeLocs (fun _ => [[Member.name], [.nameHandle, .u, .handle, .data, .dataVal], []]) [Member.nextentry]
    entries).map (entriesLoc ++ ·)

def freeREADDIRPLUS3res : FreePair where
  call := xdrToREADDIRPLUS3resIn
  ledger := xdrREADDIRPLUS3resLedger
  nonNull _ := true
  frees (v : READDIRPLUS3res) :=
    ((resok? v).elim [] fun resok => freeEntriesplus resok.reply.entries) ++ [[]]

/-- `data_xdr` is compared with `NFS3_DATA_DEXDR` here and with `NFS3_DATA_NO_DEXDR` in the wrapper. -/
def freeREAD3res (dataXdr : Int) : FreePair where
  call := xdrToREAD3resIn dataXdr
  ledger := (xdrREAD3resDrawn (xPublicOf dataXdr)).ledger
  nonNull _ := true
  frees (v : READ3res) :=
    if statusOk v.disc ∧ dataXdr = nfs3DataDexdr then [[.u, .resok, .data, .dataVal], []] else [[]]

def freeWRITE3args (dataXdr : Int) : FreePair where
  call := xdrToWRITE3argsIn dataXdr
  ledger := (xdrWRITE3argsDrawn (xPublicOf dataXdr)).ledger
  nonNull _ := true
  frees _ :=
    if dataXdr = nfs3DataDexdr then [[.file, .data, .dataVal], [.data, .dataVal], []]
    else [[.file, .data, .dataVal], []]

def freeMntres3 : FreePair where
  call := xdrToMntres3In
  ledger := xdrMountres3Drawn.ledger
  nonNull _ := true
  frees (v : Mountres3) :=
    if fhsStatusOk v.disc then [[.u, .mountinfo, .fhandle, .fhandle3Val], []] else [[]]

/-- The pointer to the structure is null when the list is empty. -/
def freeMountlist : FreePair where
  call := xdrToMountlistIn
  ledger := xdrMountlistLedger
  nonNull (v : Mountlist) := !v.isEmpty
  frees (v : Mountlist) := nodeLocs (fun _ => [[.mlHostname], [.mlDirectory], []]) [.mlNext] v

def freeGroups (gr : Groups) : List (List Member) := nodeLocs (fun _ => [[.grName], []]) [.grNext] gr

def freeExports : FreePair where
  call := xdrToExportsIn
  ledger := xdrExportsLedger
  nonNull (v : Exports) := !v.isEmpty
  frees (v : Exports) :=
    nodeLocs (fun en => [.exDir] :: (freeGroups en.exGroups).map ([.exGroups] ++ ·)) [.exNext] v

def constFrees : List ConstFree :=
  [freeLOOKUP3args, freeGETATTR3args, freeSETATTR3args, freeACCESS3args, freeREADLINK3args,
    freeREAD3args, freeCREATE3args, freeMKDIR3args, freeSYMLINK3args, freeREMOVE3args, freeRMDIR3args,
    freeRENAME3args, freeLINK3args, freeREADDIR3args, freeREADDIRPLUS3args, freeFSSTAT3args,
    freeFSINFOargs, freePATHCONF3args, freeCOMMIT3args, freeGETATTR3res, freeSETATTR3res,
    freeACCESS3res, freeWRITE3res, freeREMOVE3res, freeRMDIR3res, freeRENAME3res, freeLINK3res,
    freeFSSTAT3res, freeFSINFO3res, freeCOMMIT3res, freePATHCONF3res]

def statusFrees : List StatusFree :=
  [freeLOOKUP3res, freeREADLINK3res, freeCREATE3res, freeMKDIR3res, freeSYMLINK3res, freeMKNOD3res]

/-- The pairs that balance on every message that is decoded. -/
def freePairs : List FreePair :=
  constFrees.map ConstFree.pair ++ statusFrees.map StatusFree.pair ++ [freeREADDIR3res, freeREADDIRPLUS3res]

end UnfsClient
