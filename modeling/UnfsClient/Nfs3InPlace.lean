import UnfsClient.Lib.InPlace
import UnfsClient.Nfs3Decode

/-!
# Decoding into fresh memory

The routines of `nfs3_xdr.c` over the memory they find, and the wrappers of `nfs3.c` and `mount3.c`
with the pointers each sets to null before it runs its routine. The structure comes from `mem_alloc`
and holds anything. Every location is visited once, so that what a routine has written is not looked
at again, and a wrapper sets pointers in one arm of a union only.
-/

namespace UnfsClient

open Lib

/-- The members on the paths to pointers. `u` is the union of a structure, `LOOKUP3res_u` and its like. -/
inductive Member where
  | data | dataVal | dataLen | u | handle | dir | name | object | what | symlink | file
  | «where» | symlinkData | «from» | «to» | link | fsroot | resok | resfail | obj | reply | entries
  | nextentry | nameHandle | mountinfo | fhandle | fhandle3Val | authFlavors | authFlavorsVal
  | mlHostname | mlDirectory | mlNext | grName | grNext | exDir | exGroups | exNext
  deriving DecidableEq

/-!
## Routines
-/

def xdrFilename3In : InPlace Member xdrFilename3.toCodec := .string 0xffffffff []
def xdrNfspath3In : InPlace Member xdrNfspath3.toCodec := .string 0xffffffff []

def xdrNfsFh3In : InPlace Member xdrNfsFh3.toCodec :=
  InPlace.plain (.record NfsFh3.mk)
    |>.field [.data] (.bytes 64 [.dataVal])

def xdrDiropargs3In : InPlace Member xdrDiropargs3.toCodec :=
  InPlace.plain (.record Diropargs3.mk)
    |>.field [.dir] xdrNfsFh3In
    |>.field [.name] xdrFilename3In

def xdrIfTrueIn {α : Type} {p : XdrProc α} (i : InPlace Member p.toCodec) :
    InPlace Member (xdrIfTrue p).toCodec :=
  let arms : (d : BoolT) → InPlace Member
      (match (motive := (d : BoolT) → XdrProc (BoolArm α d)) d with
        | .named true => p
        | .named false => .void
        | .unnamed _ _ => .never).toCodec := fun
    | .named true => i
    | .named false => .plain _
    | .unnamed _ _ => .plain _
  .union arms i.reads fun
    | .named true => List.Subset.refl _
    | .named false => List.nil_subset _
    | .unnamed _ _ => List.nil_subset _

def xdrPostOpFh3In : InPlace Member xdrPostOpFh3.toCodec := xdrIfTrueIn (xdrNfsFh3In.member [.u, .handle])

/-- The `switch` on `status` of a result. -/
def xdrStatusIn {Resok Resfail : Type} {resok : XdrProc Resok} {resfail : XdrProc Resfail}
    (ok : InPlace Member resok.toCodec) (fail : InPlace Member resfail.toCodec) :
    InPlace Member (xdrStatus resok resfail).toCodec :=
  .union (fun status => .select (ok.member [.u, .resok]) (fail.member [.u, .resfail]) (statusOk status))
    _ fun status => InPlace.select_reads _ _ (statusOk status)

def xdrGETATTR3argsIn : InPlace Member xdrGETATTR3args.toCodec :=
  InPlace.plain (.record GETATTR3args.mk)
    |>.field [.object] xdrNfsFh3In

def xdrSETATTR3argsIn : InPlace Member xdrSETATTR3args.toCodec :=
  InPlace.plain (.record SETATTR3args.mk)
    |>.field [.object] xdrNfsFh3In
    |>.plainField
    |>.plainField

def xdrLOOKUP3argsIn : InPlace Member xdrLOOKUP3args.toCodec :=
  InPlace.plain (.record LOOKUP3args.mk)
    |>.field [.what] xdrDiropargs3In

def xdrACCESS3argsIn : InPlace Member xdrACCESS3args.toCodec :=
  InPlace.plain (.record ACCESS3args.mk)
    |>.field [.object] xdrNfsFh3In
    |>.plainField

def xdrREADLINK3argsIn : InPlace Member xdrREADLINK3args.toCodec :=
  InPlace.plain (.record READLINK3args.mk)
    |>.field [.symlink] xdrNfsFh3In

def xdrREAD3argsIn : InPlace Member xdrREAD3args.toCodec :=
  InPlace.plain (.record READ3args.mk)
    |>.field [.file] xdrNfsFh3In
    |>.plainField
    |>.plainField

def xdrCREATE3argsIn : InPlace Member xdrCREATE3args.toCodec :=
  InPlace.plain (.record CREATE3args.mk)
    |>.field [.«where»] xdrDiropargs3In
    |>.plainField

def xdrMKDIR3argsIn : InPlace Member xdrMKDIR3args.toCodec :=
  InPlace.plain (.record MKDIR3args.mk)
    |>.field [.«where»] xdrDiropargs3In
    |>.plainField

def xdrSymlinkdata3In : InPlace Member xdrSymlinkdata3.toCodec :=
  InPlace.plain (.record Symlinkdata3.mk)
    |>.plainField
    |>.field [.symlinkData] xdrNfspath3In

def xdrSYMLINK3argsIn : InPlace Member xdrSYMLINK3args.toCodec :=
  InPlace.plain (.record SYMLINK3args.mk)
    |>.field [.«where»] xdrDiropargs3In
    |>.field [.symlink] xdrSymlinkdata3In

def xdrMKNOD3argsIn : InPlace Member xdrMKNOD3args.toCodec :=
  InPlace.plain (.record MKNOD3args.mk)
    |>.field [.«where»] xdrDiropargs3In
    |>.plainField

def xdrREMOVE3argsIn : InPlace Member xdrREMOVE3args.toCodec :=
  InPlace.plain (.record REMOVE3args.mk)
    |>.field [.object] xdrDiropargs3In

def xdrRMDIR3argsIn : InPlace Member xdrRMDIR3args.toCodec :=
  InPlace.plain (.record RMDIR3args.mk)
    |>.field [.object] xdrDiropargs3In

def xdrRENAME3argsIn : InPlace Member xdrRENAME3args.toCodec :=
  InPlace.plain (.record RENAME3args.mk)
    |>.field [.«from»] xdrDiropargs3In
    |>.field [.«to»] xdrDiropargs3In

def xdrLINK3argsIn : InPlace Member xdrLINK3args.toCodec :=
  InPlace.plain (.record LINK3args.mk)
    |>.field [.file] xdrNfsFh3In
    |>.field [.link] xdrDiropargs3In

def xdrREADDIR3argsIn : InPlace Member xdrREADDIR3args.toCodec :=
  InPlace.plain (.record READDIR3args.mk)
    |>.field [.dir] xdrNfsFh3In
    |>.plainField
    |>.plainField
    |>.plainField

def xdrREADDIRPLUS3argsIn : InPlace Member xdrREADDIRPLUS3args.toCodec :=
  InPlace.plain (.record READDIRPLUS3args.mk)
    |>.field [.dir] xdrNfsFh3In
    |>.plainField
    |>.plainField
    |>.plainField
    |>.plainField

def xdrFSSTAT3argsIn : InPlace Member xdrFSSTAT3args.toCodec :=
  InPlace.plain (.record FSSTAT3args.mk)
    |>.field [.fsroot] xdrNfsFh3In

def xdrFSINFOargsIn : InPlace Member xdrFSINFOargs.toCodec :=
  InPlace.plain (.record FSINFOargs.mk)
    |>.field [.fsroot] xdrNfsFh3In

def xdrPATHCONF3argsIn : InPlace Member xdrPATHCONF3args.toCodec :=
  InPlace.plain (.record PATHCONF3args.mk)
    |>.field [.object] xdrNfsFh3In

def xdrCOMMIT3argsIn : InPlace Member xdrCOMMIT3args.toCodec :=
  InPlace.plain (.record COMMIT3args.mk)
    |>.field [.file] xdrNfsFh3In
    |>.plainField
    |>.plainField

/-- The members before `data`. -/
def xdrWRITE3argsHeadIn : InPlace Member xdrWRITE3argsHead :=
  InPlace.plain (.record WRITE3args.mk)
    |>.field [.file] xdrNfsFh3In
    |>.plainField
    |>.plainField
    |>.plainField

def xdrWRITE3argsIn : (pub : XPublic) → InPlace Member (xdrWRITE3args pub)
  | .disableDataDexdr => xdrWRITE3argsHeadIn.skip noData [[.data, .dataLen], [.data, .dataVal]]
  | .enableDataDexdr => xdrWRITE3argsHeadIn.field [.data] (.bytes 0xffffffff [.dataVal])

def xdrLOOKUP3resokIn : InPlace Member xdrLOOKUP3resok.toCodec :=
  InPlace.plain (.record LOOKUP3resok.mk)
    |>.field [.object] xdrNfsFh3In
    |>.plainField
    |>.plainField

def xdrLOOKUP3resIn : InPlace Member xdrLOOKUP3res.toCodec :=
  xdrStatusIn xdrLOOKUP3resokIn (.plain xdrLOOKUP3resfail.toCodec)

def xdrREADLINK3resokIn : InPlace Member xdrREADLINK3resok.toCodec :=
  InPlace.plain (.record READLINK3resok.mk)
    |>.plainField
    |>.field [.data] xdrNfspath3In

def xdrREADLINK3resIn : InPlace Member xdrREADLINK3res.toCodec :=
  xdrStatusIn xdrREADLINK3resokIn (.plain xdrREADLINK3resfail.toCodec)

def xdrCREATE3resokIn : InPlace Member xdrCREATE3resok.toCodec :=
  InPlace.plain (.record CREATE3resok.mk)
    |>.field [.obj] xdrPostOpFh3In
    |>.plainField
    |>.plainField

def xdrCREATE3resIn : InPlace Member xdrCREATE3res.toCodec :=
  xdrStatusIn xdrCREATE3resokIn (.plain xdrCREATE3resfail.toCodec)

def xdrMKDIR3resokIn : InPlace Member xdrMKDIR3resok.toCodec :=
  InPlace.plain (.record MKDIR3resok.mk)
    |>.field [.obj] xdrPostOpFh3In
    |>.plainField
    |>.plainField

def xdrMKDIR3resIn : InPlace Member xdrMKDIR3res.toCodec :=
  xdrStatusIn xdrMKDIR3resokIn (.plain xdrMKDIR3resfail.toCodec)

def xdrSYMLINK3resokIn : InPlace Member xdrSYMLINK3resok.toCodec :=
  InPlace.plain (.record SYMLINK3resok.mk)
    |>.field [.obj] xdrPostOpFh3In
    |>.plainField
    |>.plainField

def xdrSYMLINK3resIn : InPlace Member xdrSYMLINK3res.toCodec :=
  xdrStatusIn xdrSYMLINK3resokIn (.plain xdrSYMLINK3resfail.toCodec)

def xdrMKNOD3resokIn : InPlace Member xdrMKNOD3resok.toCodec :=
  InPlace.plain (.record MKNOD3resok.mk)
    |>.field [.obj] xdrPostOpFh3In
    |>.plainField
    |>.plainField

def xdrMKNOD3resIn : InPlace Member xdrMKNOD3res.toCodec :=
  xdrStatusIn xdrMKNOD3resokIn (.plain xdrMKNOD3resfail.toCodec)

def xdrEntry3In : InPlace Member xdrEntry3.toCodec :=
  InPlace.plain (.record Entry3.mk)
    |>.plainField
    |>.field [.name] xdrFilename3In
    |>.plainField

def xdrDirlist3In : InPlace Member xdrDirlist3.toCodec :=
  InPlace.plain (.record Dirlist3.mk)
    |>.field [.entries] (.pointer xdrEntry3In [.nextentry])
    |>.plainField

def xdrREADDIR3resokIn : InPlace Member xdrREADDIR3resok.toCodec :=
  InPlace.plain (.record READDIR3resok.mk)
    |>.plainField
    |>.plainField
    |>.field [.reply] xdrDirlist3In

def xdrREADDIR3resIn : InPlace Member xdrREADDIR3res.toCodec :=
  xdrStatusIn xdrREADDIR3resokIn (.plain xdrREADDIR3resfail.toCodec)

def xdrEntryplus3In : InPlace Member xdrEntryplus3.toCodec :=
  InPlace.plain (.record Entryplus3.mk)
    |>.plainField
    |>.field [.name] xdrFilename3In
    |>.plainField
    |>.plainField
    |>.field [.nameHandle] xdrPostOpFh3In

def xdrDirlistplus3In : InPlace Member xdrDirlistplus3.toCodec :=
  InPlace.plain (.record Dirlistplus3.mk)
    |>.field [.entries] (.pointer xdrEntryplus3In [.nextentry])
    |>.plainField

def xdrREADDIRPLUS3resokIn : InPlace Member xdrREADDIRPLUS3resok.toCodec :=
  InPlace.plain (.record READDIRPLUS3resok.mk)
    |>.plainField
    |>.plainField
    |>.field [.reply] xdrDirlistplus3In

def xdrREADDIRPLUS3resIn : InPlace Member xdrREADDIRPLUS3res.toCodec :=
  xdrStatusIn xdrREADDIRPLUS3resokIn (.plain xdrREADDIRPLUS3resfail.toCodec)

def xdrREAD3resokHeadIn : InPlace Member xdrREAD3resokHead :=
  InPlace.plain (.record READ3resok.mk)
    |>.plainField
    |>.plainField
    |>.plainField

def xdrREAD3resokIn : (pub : XPublic) → InPlace Member (xdrREAD3resok pub)
  | .disableDataDexdr => xdrREAD3resokHeadIn.skip noData [[.data, .dataLen], [.data, .dataVal]]
  | .enableDataDexdr => xdrREAD3resokHeadIn.field [.data] (.bytes 0xffffffff [.dataVal])

def xdrREAD3resIn (pub : XPublic) : InPlace Member (xdrREAD3res pub) :=
  .union (fun status => .select ((xdrREAD3resokIn pub).member [.u, .resok])
      (.plain xdrREAD3resfail.toCodec) (statusOk status))
    _ fun status => InPlace.select_reads _ _ (statusOk status)

/-!
## MOUNT
-/

def xdrFhandle3In : InPlace Member xdrFhandle3.toCodec := .bytes 64 [.fhandle3Val]
def xdrDirpathIn : InPlace Member xdrDirpath.toCodec := .string 1024 []
def xdrNameIn : InPlace Member xdrName.toCodec := .string 255 []

def xdrMountres3OkIn : InPlace Member xdrMountres3Ok.toCodec :=
  InPlace.plain (.record Mountres3Ok.mk)
    |>.field [.fhandle] xdrFhandle3In
    |>.field [.authFlavors] (.array 0xffffffff 4 .int [.authFlavorsVal])

def xdrMountres3In : InPlace Member xdrMountres3.toCodec :=
  .union (fun fhsStatus => .select (xdrMountres3OkIn.member [.u, .mountinfo]) (.plain _)
      (fhsStatusOk fhsStatus))
    _ fun fhsStatus => InPlace.select_reads _ _ (fhsStatusOk fhsStatus)

def xdrMountbodyIn : InPlace Member xdrMountbody.toCodec :=
  InPlace.plain (.record Mountbody.mk)
    |>.field [.mlHostname] xdrNameIn
    |>.field [.mlDirectory] xdrDirpathIn

/-- `xdr_mountlist` on the address of the pointer to the result. -/
def xdrMountlistIn : InPlace Member xdrMountlist.toCodec := .firstNode xdrMountbodyIn [.mlNext]

def xdrGroupnodeIn : InPlace Member xdrGroupnode.toCodec :=
  InPlace.plain (.record Groupnode.mk)
    |>.field [.grName] xdrNameIn

def xdrGroupsIn : InPlace Member xdrGroups.toCodec := .pointer xdrGroupnodeIn [.grNext]

def xdrExportnodeIn : InPlace Member xdrExportnode.toCodec :=
  InPlace.plain (.record Exportnode.mk)
    |>.field [.exDir] xdrDirpathIn
    |>.field [.exGroups] xdrGroupsIn

def xdrExportsIn : InPlace Member xdrExports.toCodec := .firstNode xdrExportnodeIn [.exNext]

/-!
## Wrappers
-/

/-- A wrapper: its routine and the pointers it sets to null before. -/
structure DecodeCall where
  {σ Val : Type}
  {codec : Codec σ Val}
  xdr : InPlace Member codec
  nulls : List (List Member)

/-- The body the wrappers share, on a message that is there and a structure that holds `m`. -/
def DecodeCall.runIn (w : DecodeCall) (m : Memory Member) (msg : Bytes) (len : Int) : Walk w.Val :=
  w.xdr.run (m.clear w.nulls) [] (xdrmemCreate msg len)

def xdrToGETATTR3argsIn : DecodeCall := ⟨xdrGETATTR3argsIn, [[.object, .data, .dataVal]]⟩
def xdrToSETATTR3argsIn : DecodeCall := ⟨xdrSETATTR3argsIn, [[.object, .data, .dataVal]]⟩
def xdrToLOOKUP3argsIn : DecodeCall := ⟨xdrLOOKUP3argsIn, [[.what, .name], [.what, .dir, .data, .dataVal]]⟩
def xdrToACCESS3argsIn : DecodeCall := ⟨xdrACCESS3argsIn, [[.object, .data, .dataVal]]⟩
def xdrToREADLINK3argsIn : DecodeCall := ⟨xdrREADLINK3argsIn, [[.symlink, .data, .dataVal]]⟩
def xdrToREAD3argsIn : DecodeCall := ⟨xdrREAD3argsIn, [[.file, .data, .dataVal]]⟩

def xdrToCREATE3argsIn : DecodeCall :=
  ⟨xdrCREATE3argsIn, [[.«where», .dir, .data, .dataVal], [.«where», .name]]⟩

def xdrToMKDIR3argsIn : DecodeCall :=
  ⟨xdrMKDIR3argsIn, [[.«where», .name], [.«where», .dir, .data, .dataVal]]⟩

def xdrToSYMLINK3argsIn : DecodeCall :=
  ⟨xdrSYMLINK3argsIn, [[.«where», .dir, .data, .dataVal], [.«where», .name],
    [.symlink, .symlinkData]]⟩

def xdrToMKNOD3argsIn : DecodeCall :=
  ⟨xdrMKNOD3argsIn, [[.«where», .dir, .data, .dataVal], [.«where», .name]]⟩

def xdrToREMOVE3argsIn : DecodeCall :=
  ⟨xdrREMOVE3argsIn, [[.object, .dir, .data, .dataVal], [.object, .name]]⟩

def xdrToRMDIR3argsIn : DecodeCall := ⟨xdrRMDIR3argsIn, [[.object, .dir, .data, .dataVal], [.object, .name]]⟩

def xdrToRENAME3argsIn : DecodeCall :=
  ⟨xdrRENAME3argsIn, [[.«from», .dir, .data, .dataVal], [.«from», .name],
    [.«to», .dir, .data, .dataVal], [.«to», .name]]⟩

def xdrToLINK3argsIn : DecodeCall :=
  ⟨xdrLINK3argsIn, [[.file, .data, .dataVal], [.link, .dir, .data, .dataVal], [.link, .name]]⟩

def xdrToREADDIR3argsIn : DecodeCall := ⟨xdrREADDIR3argsIn, [[.dir, .data, .dataVal]]⟩
def xdrToREADDIRPLUS3argsIn : DecodeCall := ⟨xdrREADDIRPLUS3argsIn, [[.dir, .data, .dataVal]]⟩
def xdrToFSSTAT3argsIn : DecodeCall := ⟨xdrFSSTAT3argsIn, [[.fsroot, .data, .dataVal]]⟩
def xdrToFSINFOargsIn : DecodeCall := ⟨xdrFSINFOargsIn, [[.fsroot, .data, .dataVal]]⟩
def xdrToPATHCONF3argsIn : DecodeCall := ⟨xdrPATHCONF3argsIn, [[.object, .data, .dataVal]]⟩
def xdrToCOMMIT3argsIn : DecodeCall := ⟨xdrCOMMIT3argsIn, [[.file, .data, .dataVal]]⟩

/-- `data.data_val` is not set. -/
def xdrToWRITE3argsIn (dataXdr : Int) : DecodeCall :=
  ⟨xdrWRITE3argsIn (xPublicOf dataXdr), [[.file, .data, .dataVal]]⟩

def xdrToGETATTR3resIn : DecodeCall := ⟨.plain xdrGETATTR3res.toCodec, []⟩
def xdrToSETATTR3resIn : DecodeCall := ⟨.plain xdrSETATTR3res.toCodec, []⟩
def xdrToACCESS3resIn : DecodeCall := ⟨.plain xdrACCESS3res.toCodec, []⟩
def xdrToWRITE3resIn : DecodeCall := ⟨.plain xdrWRITE3res.toCodec, []⟩
def xdrToREMOVE3resIn : DecodeCall := ⟨.plain xdrREMOVE3res.toCodec, []⟩
def xdrToRMDIR3resIn : DecodeCall := ⟨.plain xdrRMDIR3res.toCodec, []⟩
def xdrToRENAME3resIn : DecodeCall := ⟨.plain xdrRENAME3res.toCodec, []⟩
def xdrToLINK3resIn : DecodeCall := ⟨.plain xdrLINK3res.toCodec, []⟩
def xdrToFSSTAT3resIn : DecodeCall := ⟨.plain xdrFSSTAT3res.toCodec, []⟩
def xdrToFSINFO3resIn : DecodeCall := ⟨.plain xdrFSINFO3res.toCodec, []⟩
def xdrToCOMMIT3resIn : DecodeCall := ⟨.plain xdrCOMMIT3res.toCodec, []⟩
def xdrToPATHCONF3resIn : DecodeCall := ⟨.plain (xdrPATHCONF3res true).toCodec, []⟩
def xdrToLOOKUP3resIn : DecodeCall := ⟨xdrLOOKUP3resIn, [[.u, .resok, .object, .data, .dataVal]]⟩
def xdrToREADLINK3resIn : DecodeCall := ⟨xdrREADLINK3resIn, [[.u, .resok, .data]]⟩

def xdrToREAD3resIn (dataXdr : Int) : DecodeCall :=
  ⟨xdrREAD3resIn (xPublicOf dataXdr), [[.u, .resok, .data, .dataVal]]⟩

def xdrToCREATE3resIn : DecodeCall := ⟨xdrCREATE3resIn, [[.u, .resok, .obj, .u, .handle, .data, .dataVal]]⟩
def xdrToMKDIR3resIn : DecodeCall := ⟨xdrMKDIR3resIn, [[.u, .resok, .obj, .u, .handle, .data, .dataVal]]⟩
def xdrToSYMLINK3resIn : DecodeCall := ⟨xdrSYMLINK3resIn, [[.u, .resok, .obj, .u, .handle, .data, .dataVal]]⟩
def xdrToMKNOD3resIn : DecodeCall := ⟨xdrMKNOD3resIn, [[.u, .resok, .obj, .u, .handle, .data, .dataVal]]⟩
def xdrToREADDIR3resIn : DecodeCall := ⟨xdrREADDIR3resIn, [[.u, .resok, .reply, .entries]]⟩
def xdrToREADDIRPLUS3resIn : DecodeCall := ⟨xdrREADDIRPLUS3resIn, [[.u, .resok, .reply, .entries]]⟩

def xdrToMntres3In : DecodeCall :=
  ⟨xdrMountres3In, [[.u, .mountinfo, .authFlavors, .authFlavorsVal],
    [.u, .mountinfo, .fhandle, .fhandle3Val]]⟩

def xdrToMountlistIn : DecodeCall := ⟨xdrMountlistIn, [[.mlHostname], [.mlDirectory], [.mlNext]]⟩
def xdrToExportsIn : DecodeCall := ⟨xdrExportsIn, [[.exDir], [.exGroups], [.exNext]]⟩

/-- The wrappers without a `data_xdr` argument. -/
def decodeCalls : List DecodeCall :=
  [xdrToGETATTR3argsIn, xdrToSETATTR3argsIn, xdrToLOOKUP3argsIn, xdrToACCESS3argsIn,
    xdrToREADLINK3argsIn, xdrToREAD3argsIn, xdrToCREATE3argsIn, xdrToMKDIR3argsIn, xdrToSYMLINK3argsIn,
    xdrToMKNOD3argsIn, xdrToREMOVE3argsIn, xdrToRMDIR3argsIn, xdrToRENAME3argsIn, xdrToLINK3argsIn,
    xdrToREADDIR3argsIn, xdrToREADDIRPLUS3argsIn, xdrToFSSTAT3argsIn, xdrToFSINFOargsIn,
    xdrToPATHCONF3argsIn, xdrToCOMMIT3argsIn, xdrToGETATTR3resIn, xdrToSETATTR3resIn,
    xdrToLOOKUP3resIn, xdrToACCESS3resIn, xdrToREADLINK3resIn, xdrToWRITE3resIn, xdrToCREATE3resIn,
    xdrToMKDIR3resIn, xdrToSYMLINK3resIn, xdrToMKNOD3resIn, xdrToREMOVE3resIn, xdrToRMDIR3resIn,
    xdrToRENAME3resIn, xdrToLINK3resIn, xdrToREADDIR3resIn, xdrToREADDIRPLUS3resIn, xdrToFSSTAT3resIn,
    xdrToFSINFO3resIn, xdrToPATHCONF3resIn, xdrToCOMMIT3resIn, xdrToMntres3In, xdrToMountlistIn,
    xdrToExportsIn]

end UnfsClient
