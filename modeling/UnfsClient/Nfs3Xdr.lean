import UnfsClient.Nfs3Types

/-!
# The XDR routines of NFS version 3 and MOUNT version 3

The routines of `nfs3_xdr.c`, one for each type and each for both directions. A line
`if (!xdr_T (xdrs, &objp->f)) return FALSE;` is a `field`, a `switch` is a function of the
discriminant.
-/

namespace UnfsClient

open Lib

def xdrUint64 : XdrProc Uint64 := .uQuad
def xdrUint32 : XdrProc Uint32 := .uLong
def xdrFilename3 : XdrProc Filename3 := .string 0xffffffff
def xdrNfspath3 : XdrProc Nfspath3 := .string 0xffffffff
def xdrFileid3 : XdrProc Fileid3 := xdrUint64
def xdrCookie3 : XdrProc Cookie3 := xdrUint64
def xdrCookieverf3 : XdrProc Cookieverf3 := .fixedBytes 8
def xdrCreateverf3 : XdrProc Createverf3 := .fixedBytes 8
def xdrWriteverf3 : XdrProc Writeverf3 := .fixedBytes 8
def xdrUid3 : XdrProc Uid3 := xdrUint32
def xdrGid3 : XdrProc Gid3 := xdrUint32
def xdrSize3 : XdrProc Size3 := xdrUint64
def xdrOffset3 : XdrProc Offset3 := xdrUint64
def xdrMode3 : XdrProc Mode3 := xdrUint32
def xdrCount3 : XdrProc Count3 := xdrUint32
def xdrNfsstat3 : XdrProc (EnumT Nfsstat3) := .enum
def xdrFtype3 : XdrProc (EnumT Ftype3) := .enum
def xdrTimeHow : XdrProc (EnumT TimeHow) := .enum
def xdrStableHow : XdrProc (EnumT StableHow) := .enum
def xdrCreatemode3 : XdrProc (EnumT Createmode3) := .enum
def xdrMountstat3 : XdrProc (EnumT Mountstat3) := .enum

/-!
## Attributes
-/

def xdrSpecdata3 : XdrProc Specdata3 where
  toCodec := Codec.record Specdata3.mk
    |>.field Specdata3.specdata1 xdrUint32
    |>.field Specdata3.specdata2 xdrUint32
  part_eq _ := rfl

def xdrNfsFh3 : XdrProc NfsFh3 where
  toCodec := Codec.record NfsFh3.mk
    |>.field NfsFh3.data (.bytes 64)
  part_eq _ := rfl

def xdrNfstime3 : XdrProc Nfstime3 where
  toCodec := Codec.record Nfstime3.mk
    |>.field Nfstime3.seconds xdrUint32
    |>.field Nfstime3.nseconds xdrUint32
  part_eq _ := rfl

def xdrFattr3 : XdrProc Fattr3 where
  toCodec := Codec.record Fattr3.mk
    |>.field Fattr3.type xdrFtype3
    |>.field Fattr3.mode xdrMode3
    |>.field Fattr3.nlink xdrUint32
    |>.field Fattr3.uid xdrUid3
    |>.field Fattr3.gid xdrGid3
    |>.field Fattr3.size xdrSize3
    |>.field Fattr3.used xdrSize3
    |>.field Fattr3.rdev xdrSpecdata3
    |>.field Fattr3.fsid xdrUint64
    |>.field Fattr3.fileid xdrFileid3
    |>.field Fattr3.atime xdrNfstime3
    |>.field Fattr3.mtime xdrNfstime3
    |>.field Fattr3.ctime xdrNfstime3
  part_eq _ := rfl

/-- A `switch` on a `bool_t` whose `default` returns `FALSE`. -/
def xdrIfTrue {α : Type} (p : XdrProc α) : XdrProc (DiscUnion (BoolArm α)) :=
  .union .bool fun
    | .named true => p
    | .named false => .void
    | .unnamed _ _ => .never

/-- A `switch` on a `bool_t` whose `default` does nothing. -/
def xdrIfSet {α : Type} (p : XdrProc α) : XdrProc (DiscUnion (BoolArm α)) :=
  .union .bool fun
    | .named true => p
    | .named false => .void
    | .unnamed _ _ => .void

def xdrPostOpAttr : XdrProc PostOpAttr := xdrIfTrue xdrFattr3

def xdrWccAttr : XdrProc WccAttr where
  toCodec := Codec.record WccAttr.mk
    |>.field WccAttr.size xdrSize3
    |>.field WccAttr.mtime xdrNfstime3
    |>.field WccAttr.ctime xdrNfstime3
  part_eq _ := rfl

def xdrPreOpAttr : XdrProc PreOpAttr := xdrIfTrue xdrWccAttr

def xdrWccData : XdrProc WccData where
  toCodec := Codec.record WccData.mk
    |>.field WccData.before xdrPreOpAttr
    |>.field WccData.after xdrPostOpAttr
  part_eq _ := rfl

def xdrPostOpFh3 : XdrProc PostOpFh3 := xdrIfTrue xdrNfsFh3
def xdrSetMode3 : XdrProc SetMode3 := xdrIfSet xdrMode3
def xdrSetUid3 : XdrProc SetUid3 := xdrIfSet xdrUid3
def xdrSetGid3 : XdrProc SetGid3 := xdrIfSet xdrGid3
def xdrSetSize3 : XdrProc SetSize3 := xdrIfSet xdrSize3

def xdrSetTime : XdrProc (DiscUnion TimeArm) :=
  .union xdrTimeHow fun
    | .named .setToClientTime => xdrNfstime3
    | .named .dontChange => .void
    | .named .setToServerTime => .void
    | .unnamed _ _ => .void

def xdrSetAtime : XdrProc SetAtime := xdrSetTime
def xdrSetMtime : XdrProc SetMtime := xdrSetTime

def xdrSattr3 : XdrProc Sattr3 where
  toCodec := Codec.record Sattr3.mk
    |>.field Sattr3.mode xdrSetMode3
    |>.field Sattr3.uid xdrSetUid3
    |>.field Sattr3.gid xdrSetGid3
    |>.field Sattr3.size xdrSetSize3
    |>.field Sattr3.atime xdrSetAtime
    |>.field Sattr3.mtime xdrSetMtime
  part_eq _ := rfl

def xdrDiropargs3 : XdrProc Diropargs3 where
  toCodec := Codec.record Diropargs3.mk
    |>.field Diropargs3.dir xdrNfsFh3
    |>.field Diropargs3.name xdrFilename3
  part_eq _ := rfl

/-!
## Arguments
-/

def xdrGETATTR3args : XdrProc GETATTR3args where
  toCodec := Codec.record GETATTR3args.mk
    |>.field GETATTR3args.object xdrNfsFh3
  part_eq _ := rfl

def xdrSattrguard3 : XdrProc Sattrguard3 := xdrIfTrue xdrNfstime3

def xdrSETATTR3args : XdrProc SETATTR3args where
  toCodec := Codec.record SETATTR3args.mk
    |>.field SETATTR3args.object xdrNfsFh3
    |>.field SETATTR3args.newAttributes xdrSattr3
    |>.field SETATTR3args.guard xdrSattrguard3
  part_eq _ := rfl

def xdrLOOKUP3args : XdrProc LOOKUP3args where
  toCodec := Codec.record LOOKUP3args.mk
    |>.field LOOKUP3args.what xdrDiropargs3
  part_eq _ := rfl

def xdrACCESS3args : XdrProc ACCESS3args where
  toCodec := Codec.record ACCESS3args.mk
    |>.field ACCESS3args.object xdrNfsFh3
    |>.field ACCESS3args.access xdrUint32
  part_eq _ := rfl

def xdrREADLINK3args : XdrProc READLINK3args where
  toCodec := Codec.record READLINK3args.mk
    |>.field READLINK3args.symlink xdrNfsFh3
  part_eq _ := rfl

def xdrREAD3args : XdrProc READ3args where
  toCodec := Codec.record READ3args.mk
    |>.field READ3args.file xdrNfsFh3
    |>.field READ3args.offset xdrOffset3
    |>.field READ3args.count xdrCount3
  part_eq _ := rfl

/-- `x_public` of a stream, as far as the routines look at it. -/
inductive XPublic where
  | disableDataDexdr
  | enableDataDexdr

/-- What stays in a `data` field that is not decoded. -/
def noData : Counted UInt8 := ⟨[], by decide⟩

def xdrWRITE3argsHead : Codec WRITE3args (Counted UInt8 → WRITE3args) :=
  Codec.record WRITE3args.mk
    |>.field WRITE3args.file xdrNfsFh3
    |>.field WRITE3args.offset xdrOffset3
    |>.field WRITE3args.count xdrCount3
    |>.field WRITE3args.stable xdrStableHow

def xdrWRITE3args : XPublic → Codec WRITE3args WRITE3args
  | .disableDataDexdr => xdrWRITE3argsHead.skip noData
  | .enableDataDexdr => xdrWRITE3argsHead.field WRITE3args.data (.bytes 0xffffffff)

def xdrCreatehow3 : XdrProc Createhow3 :=
  .union xdrCreatemode3 fun
    | .named .unchecked => xdrSattr3
    | .named .guarded => xdrSattr3
    | .named .exclusive => xdrCreateverf3
    | .unnamed _ _ => .never

def xdrCREATE3args : XdrProc CREATE3args where
  toCodec := Codec.record CREATE3args.mk
    |>.field CREATE3args.«where» xdrDiropargs3
    |>.field CREATE3args.how xdrCreatehow3
  part_eq _ := rfl

def xdrMKDIR3args : XdrProc MKDIR3args where
  toCodec := Codec.record MKDIR3args.mk
    |>.field MKDIR3args.«where» xdrDiropargs3
    |>.field MKDIR3args.attributes xdrSattr3
  part_eq _ := rfl

def xdrSymlinkdata3 : XdrProc Symlinkdata3 where
  toCodec := Codec.record Symlinkdata3.mk
    |>.field Symlinkdata3.symlinkAttributes xdrSattr3
    |>.field Symlinkdata3.symlinkData xdrNfspath3
  part_eq _ := rfl

def xdrSYMLINK3args : XdrProc SYMLINK3args where
  toCodec := Codec.record SYMLINK3args.mk
    |>.field SYMLINK3args.«where» xdrDiropargs3
    |>.field SYMLINK3args.symlink xdrSymlinkdata3
  part_eq _ := rfl

def xdrDevicedata3 : XdrProc Devicedata3 where
  toCodec := Codec.record Devicedata3.mk
    |>.field Devicedata3.devAttributes xdrSattr3
    |>.field Devicedata3.spec xdrSpecdata3
  part_eq _ := rfl

def xdrMknoddata3 : XdrProc Mknoddata3 :=
  .union xdrFtype3 fun
    | .named .chr => xdrDevicedata3
    | .named .blk => xdrDevicedata3
    | .named .sock => xdrSattr3
    | .named .fifo => xdrSattr3
    | .named .reg => .void
    | .named .dir => .void
    | .named .lnk => .void
    | .unnamed _ _ => .void

def xdrMKNOD3args : XdrProc MKNOD3args where
  toCodec := Codec.record MKNOD3args.mk
    |>.field MKNOD3args.«where» xdrDiropargs3
    |>.field MKNOD3args.what xdrMknoddata3
  part_eq _ := rfl

def xdrREMOVE3args : XdrProc REMOVE3args where
  toCodec := Codec.record REMOVE3args.mk
    |>.field REMOVE3args.object xdrDiropargs3
  part_eq _ := rfl

def xdrRMDIR3args : XdrProc RMDIR3args where
  toCodec := Codec.record RMDIR3args.mk
    |>.field RMDIR3args.object xdrDiropargs3
  part_eq _ := rfl

def xdrRENAME3args : XdrProc RENAME3args where
  toCodec := Codec.record RENAME3args.mk
    |>.field RENAME3args.«from» xdrDiropargs3
    |>.field RENAME3args.«to» xdrDiropargs3
  part_eq _ := rfl

def xdrLINK3args : XdrProc LINK3args where
  toCodec := Codec.record LINK3args.mk
    |>.field LINK3args.file xdrNfsFh3
    |>.field LINK3args.link xdrDiropargs3
  part_eq _ := rfl

def xdrREADDIR3args : XdrProc READDIR3args where
  toCodec := Codec.record READDIR3args.mk
    |>.field READDIR3args.dir xdrNfsFh3
    |>.field READDIR3args.cookie xdrCookie3
    |>.field READDIR3args.cookieverf xdrCookieverf3
    |>.field READDIR3args.count xdrCount3
  part_eq _ := rfl

def xdrREADDIRPLUS3args : XdrProc READDIRPLUS3args where
  toCodec := Codec.record READDIRPLUS3args.mk
    |>.field READDIRPLUS3args.dir xdrNfsFh3
    |>.field READDIRPLUS3args.cookie xdrCookie3
    |>.field READDIRPLUS3args.cookieverf xdrCookieverf3
    |>.field READDIRPLUS3args.dircount xdrCount3
    |>.field READDIRPLUS3args.maxcount xdrCount3
  part_eq _ := rfl

def xdrFSSTAT3args : XdrProc FSSTAT3args where
  toCodec := Codec.record FSSTAT3args.mk
    |>.field FSSTAT3args.fsroot xdrNfsFh3
  part_eq _ := rfl

def xdrFSINFOargs : XdrProc FSINFOargs where
  toCodec := Codec.record FSINFOargs.mk
    |>.field FSINFOargs.fsroot xdrNfsFh3
  part_eq _ := rfl

def xdrPATHCONF3args : XdrProc PATHCONF3args where
  toCodec := Codec.record PATHCONF3args.mk
    |>.field PATHCONF3args.object xdrNfsFh3
  part_eq _ := rfl

def xdrCOMMIT3args : XdrProc COMMIT3args where
  toCodec := Codec.record COMMIT3args.mk
    |>.field COMMIT3args.file xdrNfsFh3
    |>.field COMMIT3args.offset xdrOffset3
    |>.field COMMIT3args.count xdrCount3
  part_eq _ := rfl

/-!
## Results
-/

/-- The `switch` on `status` of a result. -/
def xdrStatus {Resok Resfail : Type} (resok : XdrProc Resok) (resfail : XdrProc Resfail) :
    XdrProc (DiscUnion (StatusArm Resok Resfail)) :=
  .union xdrNfsstat3 fun status => .select resok resfail (statusOk status)

def xdrGETATTR3resok : XdrProc GETATTR3resok where
  toCodec := Codec.record GETATTR3resok.mk
    |>.field GETATTR3resok.objAttributes xdrFattr3
  part_eq _ := rfl

def xdrGETATTR3res : XdrProc GETATTR3res := xdrStatus xdrGETATTR3resok .void

def xdrSETATTR3resok : XdrProc SETATTR3resok where
  toCodec := Codec.record SETATTR3resok.mk
    |>.field SETATTR3resok.objWcc xdrWccData
  part_eq _ := rfl

def xdrSETATTR3resfail : XdrProc SETATTR3resfail where
  toCodec := Codec.record SETATTR3resfail.mk
    |>.field SETATTR3resfail.objWcc xdrWccData
  part_eq _ := rfl

def xdrSETATTR3res : XdrProc SETATTR3res := xdrStatus xdrSETATTR3resok xdrSETATTR3resfail

def xdrLOOKUP3resok : XdrProc LOOKUP3resok where
  toCodec := Codec.record LOOKUP3resok.mk
    |>.field LOOKUP3resok.object xdrNfsFh3
    |>.field LOOKUP3resok.objAttributes xdrPostOpAttr
    |>.field LOOKUP3resok.dirAttributes xdrPostOpAttr
  part_eq _ := rfl

def xdrLOOKUP3resfail : XdrProc LOOKUP3resfail where
  toCodec := Codec.record LOOKUP3resfail.mk
    |>.field LOOKUP3resfail.dirAttributes xdrPostOpAttr
  part_eq _ := rfl

def xdrLOOKUP3res : XdrProc LOOKUP3res := xdrStatus xdrLOOKUP3resok xdrLOOKUP3resfail

def xdrACCESS3resok : XdrProc ACCESS3resok where
  toCodec := Codec.record ACCESS3resok.mk
    |>.field ACCESS3resok.objAttributes xdrPostOpAttr
    |>.field ACCESS3resok.access xdrUint32
  part_eq _ := rfl

def xdrACCESS3resfail : XdrProc ACCESS3resfail where
  toCodec := Codec.record ACCESS3resfail.mk
    |>.field ACCESS3resfail.objAttributes xdrPostOpAttr
  part_eq _ := rfl

def xdrACCESS3res : XdrProc ACCESS3res := xdrStatus xdrACCESS3resok xdrACCESS3resfail

def xdrREADLINK3resok : XdrProc READLINK3resok where
  toCodec := Codec.record READLINK3resok.mk
    |>.field READLINK3resok.symlinkAttributes xdrPostOpAttr
    |>.field READLINK3resok.data xdrNfspath3
  part_eq _ := rfl

def xdrREADLINK3resfail : XdrProc READLINK3resfail where
  toCodec := Codec.record READLINK3resfail.mk
    |>.field READLINK3resfail.symlinkAttributes xdrPostOpAttr
  part_eq _ := rfl

def xdrREADLINK3res : XdrProc READLINK3res := xdrStatus xdrREADLINK3resok xdrREADLINK3resfail

def xdrREAD3resokHead : Codec READ3resok (Counted UInt8 → READ3resok) :=
  Codec.record READ3resok.mk
    |>.field READ3resok.fileAttributes xdrPostOpAttr
    |>.field READ3resok.count xdrCount3
    |>.field READ3resok.eof .bool

def xdrREAD3resok : XPublic → Codec READ3resok READ3resok
  | .disableDataDexdr => xdrREAD3resokHead.skip noData
  | .enableDataDexdr => xdrREAD3resokHead.field READ3resok.data (.bytes 0xffffffff)

def xdrREAD3resfail : XdrProc READ3resfail where
  toCodec := Codec.record READ3resfail.mk
    |>.field READ3resfail.fileAttributes xdrPostOpAttr
  part_eq _ := rfl

def xdrREAD3res (pub : XPublic) : Codec READ3res READ3res :=
  .union xdrNfsstat3 fun status => .select (xdrREAD3resok pub) xdrREAD3resfail.toCodec (statusOk status)

def xdrWRITE3resok : XdrProc WRITE3resok where
  toCodec := Codec.record WRITE3resok.mk
    |>.field WRITE3resok.fileWcc xdrWccData
    |>.field WRITE3resok.count xdrCount3
    |>.field WRITE3resok.committed xdrStableHow
    |>.field WRITE3resok.verf xdrWriteverf3
  part_eq _ := rfl

def xdrWRITE3resfail : XdrProc WRITE3resfail where
  toCodec := Codec.record WRITE3resfail.mk
    |>.field WRITE3resfail.fileWcc xdrWccData
  part_eq _ := rfl

def xdrWRITE3res : XdrProc WRITE3res := xdrStatus xdrWRITE3resok xdrWRITE3resfail

def xdrCREATE3resok : XdrProc CREATE3resok where
  toCodec := Codec.record CREATE3resok.mk
    |>.field CREATE3resok.obj xdrPostOpFh3
    |>.field CREATE3resok.objAttributes xdrPostOpAttr
    |>.field CREATE3resok.dirWcc xdrWccData
  part_eq _ := rfl

def xdrCREATE3resfail : XdrProc CREATE3resfail where
  toCodec := Codec.record CREATE3resfail.mk
    |>.field CREATE3resfail.dirWcc xdrWccData
  part_eq _ := rfl

def xdrCREATE3res : XdrProc CREATE3res := xdrStatus xdrCREATE3resok xdrCREATE3resfail

def xdrMKDIR3resok : XdrProc MKDIR3resok where
  toCodec := Codec.record MKDIR3resok.mk
    |>.field MKDIR3resok.obj xdrPostOpFh3
    |>.field MKDIR3resok.objAttributes xdrPostOpAttr
    |>.field MKDIR3resok.dirWcc xdrWccData
  part_eq _ := rfl

def xdrMKDIR3resfail : XdrProc MKDIR3resfail where
  toCodec := Codec.record MKDIR3resfail.mk
    |>.field MKDIR3resfail.dirWcc xdrWccData
  part_eq _ := rfl

def xdrMKDIR3res : XdrProc MKDIR3res := xdrStatus xdrMKDIR3resok xdrMKDIR3resfail

def xdrSYMLINK3resok : XdrProc SYMLINK3resok where
  toCodec := Codec.record SYMLINK3resok.mk
    |>.field SYMLINK3resok.obj xdrPostOpFh3
    |>.field SYMLINK3resok.objAttributes xdrPostOpAttr
    |>.field SYMLINK3resok.dirWcc xdrWccData
  part_eq _ := rfl

def xdrSYMLINK3resfail : XdrProc SYMLINK3resfail where
  toCodec := Codec.record SYMLINK3resfail.mk
    |>.field SYMLINK3resfail.dirWcc xdrWccData
  part_eq _ := rfl

def xdrSYMLINK3res : XdrProc SYMLINK3res := xdrStatus xdrSYMLINK3resok xdrSYMLINK3resfail

def xdrMKNOD3resok : XdrProc MKNOD3resok where
  toCodec := Codec.record MKNOD3resok.mk
    |>.field MKNOD3resok.obj xdrPostOpFh3
    |>.field MKNOD3resok.objAttributes xdrPostOpAttr
    |>.field MKNOD3resok.dirWcc xdrWccData
  part_eq _ := rfl

def xdrMKNOD3resfail : XdrProc MKNOD3resfail where
  toCodec := Codec.record MKNOD3resfail.mk
    |>.field MKNOD3resfail.dirWcc xdrWccData
  part_eq _ := rfl

def xdrMKNOD3res : XdrProc MKNOD3res := xdrStatus xdrMKNOD3resok xdrMKNOD3resfail

def xdrREMOVE3resok : XdrProc REMOVE3resok where
  toCodec := Codec.record REMOVE3resok.mk
    |>.field REMOVE3resok.dirWcc xdrWccData
  part_eq _ := rfl

def xdrREMOVE3resfail : XdrProc REMOVE3resfail where
  toCodec := Codec.record REMOVE3resfail.mk
    |>.field REMOVE3resfail.dirWcc xdrWccData
  part_eq _ := rfl

def xdrREMOVE3res : XdrProc REMOVE3res := xdrStatus xdrREMOVE3resok xdrREMOVE3resfail

def xdrRMDIR3resok : XdrProc RMDIR3resok where
  toCodec := Codec.record RMDIR3resok.mk
    |>.field RMDIR3resok.dirWcc xdrWccData
  part_eq _ := rfl

def xdrRMDIR3resfail : XdrProc RMDIR3resfail where
  toCodec := Codec.record RMDIR3resfail.mk
    |>.field RMDIR3resfail.dirWcc xdrWccData
  part_eq _ := rfl

def xdrRMDIR3res : XdrProc RMDIR3res := xdrStatus xdrRMDIR3resok xdrRMDIR3resfail

def xdrRENAME3resok : XdrProc RENAME3resok where
  toCodec := Codec.record RENAME3resok.mk
    |>.field RENAME3resok.fromdirWcc xdrWccData
    |>.field RENAME3resok.todirWcc xdrWccData
  part_eq _ := rfl

def xdrRENAME3resfail : XdrProc RENAME3resfail where
  toCodec := Codec.record RENAME3resfail.mk
    |>.field RENAME3resfail.fromdirWcc xdrWccData
    |>.field RENAME3resfail.todirWcc xdrWccData
  part_eq _ := rfl

def xdrRENAME3res : XdrProc RENAME3res := xdrStatus xdrRENAME3resok xdrRENAME3resfail

def xdrLINK3resok : XdrProc LINK3resok where
  toCodec := Codec.record LINK3resok.mk
    |>.field LINK3resok.fileAttributes xdrPostOpAttr
    |>.field LINK3resok.linkdirWcc xdrWccData
  part_eq _ := rfl

def xdrLINK3resfail : XdrProc LINK3resfail where
  toCodec := Codec.record LINK3resfail.mk
    |>.field LINK3resfail.fileAttributes xdrPostOpAttr
    |>.field LINK3resfail.linkdirWcc xdrWccData
  part_eq _ := rfl

def xdrLINK3res : XdrProc LINK3res := xdrStatus xdrLINK3resok xdrLINK3resfail

/-- `nextentry` is the `pointer` that the list of entries is. -/
def xdrEntry3 : XdrProc Entry3 where
  toCodec := Codec.record Entry3.mk
    |>.field Entry3.fileid xdrFileid3
    |>.field Entry3.name xdrFilename3
    |>.field Entry3.cookie xdrCookie3
  part_eq _ := rfl

def xdrDirlist3 : XdrProc Dirlist3 where
  toCodec := Codec.record Dirlist3.mk
    |>.field Dirlist3.entries (.pointer xdrEntry3)
    |>.field Dirlist3.eof .bool
  part_eq _ := rfl

def xdrREADDIR3resok : XdrProc READDIR3resok where
  toCodec := Codec.record READDIR3resok.mk
    |>.field READDIR3resok.dirAttributes xdrPostOpAttr
    |>.field READDIR3resok.cookieverf xdrCookieverf3
    |>.field READDIR3resok.reply xdrDirlist3
  part_eq _ := rfl

def xdrREADDIR3resfail : XdrProc READDIR3resfail where
  toCodec := Codec.record READDIR3resfail.mk
    |>.field READDIR3resfail.dirAttributes xdrPostOpAttr
  part_eq _ := rfl

def xdrREADDIR3res : XdrProc READDIR3res := xdrStatus xdrREADDIR3resok xdrREADDIR3resfail

def xdrEntryplus3 : XdrProc Entryplus3 where
  toCodec := Codec.record Entryplus3.mk
    |>.field Entryplus3.fileid xdrFileid3
    |>.field Entryplus3.name xdrFilename3
    |>.field Entryplus3.cookie xdrCookie3
    |>.field Entryplus3.nameAttributes xdrPostOpAttr
    |>.field Entryplus3.nameHandle xdrPostOpFh3
  part_eq _ := rfl

def xdrDirlistplus3 : XdrProc Dirlistplus3 where
  toCodec := Codec.record Dirlistplus3.mk
    |>.field Dirlistplus3.entries (.pointer xdrEntryplus3)
    |>.field Dirlistplus3.eof .bool
  part_eq _ := rfl

def xdrREADDIRPLUS3resok : XdrProc READDIRPLUS3resok where
  toCodec := Codec.record READDIRPLUS3resok.mk
    |>.field READDIRPLUS3resok.dirAttributes xdrPostOpAttr
    |>.field READDIRPLUS3resok.cookieverf xdrCookieverf3
    |>.field READDIRPLUS3resok.reply xdrDirlistplus3
  part_eq _ := rfl

def xdrREADDIRPLUS3resfail : XdrProc READDIRPLUS3resfail where
  toCodec := Codec.record READDIRPLUS3resfail.mk
    |>.field READDIRPLUS3resfail.dirAttributes xdrPostOpAttr
  part_eq _ := rfl

def xdrREADDIRPLUS3res : XdrProc READDIRPLUS3res := xdrStatus xdrREADDIRPLUS3resok xdrREADDIRPLUS3resfail

def xdrFSSTAT3resok : XdrProc FSSTAT3resok where
  toCodec := Codec.record FSSTAT3resok.mk
    |>.field FSSTAT3resok.objAttributes xdrPostOpAttr
    |>.field FSSTAT3resok.tbytes xdrSize3
    |>.field FSSTAT3resok.fbytes xdrSize3
    |>.field FSSTAT3resok.abytes xdrSize3
    |>.field FSSTAT3resok.tfiles xdrSize3
    |>.field FSSTAT3resok.ffiles xdrSize3
    |>.field FSSTAT3resok.afiles xdrSize3
    |>.field FSSTAT3resok.invarsec xdrUint32
  part_eq _ := rfl

def xdrFSSTAT3resfail : XdrProc FSSTAT3resfail where
  toCodec := Codec.record FSSTAT3resfail.mk
    |>.field FSSTAT3resfail.objAttributes xdrPostOpAttr
  part_eq _ := rfl

def xdrFSSTAT3res : XdrProc FSSTAT3res := xdrStatus xdrFSSTAT3resok xdrFSSTAT3resfail

def xdrFSINFO3resok : XdrProc FSINFO3resok where
  toCodec := Codec.record FSINFO3resok.mk
    |>.field FSINFO3resok.objAttributes xdrPostOpAttr
    |>.field FSINFO3resok.rtmax xdrUint32
    |>.field FSINFO3resok.rtpref xdrUint32
    |>.field FSINFO3resok.rtmult xdrUint32
    |>.field FSINFO3resok.wtmax xdrUint32
    |>.field FSINFO3resok.wtpref xdrUint32
    |>.field FSINFO3resok.wtmult xdrUint32
    |>.field FSINFO3resok.dtpref xdrUint32
    |>.field FSINFO3resok.maxfilesize xdrSize3
    |>.field FSINFO3resok.timeDelta xdrNfstime3
    |>.field FSINFO3resok.properties xdrUint32
  part_eq _ := rfl

def xdrFSINFO3resfail : XdrProc FSINFO3resfail where
  toCodec := Codec.record FSINFO3resfail.mk
    |>.field FSINFO3resfail.objAttributes xdrPostOpAttr
  part_eq _ := rfl

def xdrFSINFO3res : XdrProc FSINFO3res := xdrStatus xdrFSINFO3resok xdrFSINFO3resfail

/-- The four booleans at the end of a `PATHCONF3resok`. -/
structure PathconfBools where
  noTrunc : BoolT
  chownRestricted : BoolT
  caseInsensitive : BoolT
  casePreserving : BoolT

def xdrPathconfBools (p : XdrProc BoolT) : XdrProc PathconfBools where
  toCodec := Codec.record PathconfBools.mk
    |>.field PathconfBools.noTrunc p
    |>.field PathconfBools.chownRestricted p
    |>.field PathconfBools.caseInsensitive p
    |>.field PathconfBools.casePreserving p
  part_eq _ := rfl

lemma bool_encode_eq {b : BoolT} (hb : XdrProc.rawBool.boolsOk b = true) :
    XdrProc.bool.encode b = XdrProc.rawBool.encode b := by
  cases b with
  | named b => cases b <;> rfl
  | unnamed w h => cases hb

lemma xdrPathconfBools_agree (v : PathconfBools) (hv : (xdrPathconfBools .rawBool).boolsOk v = true) :
    (xdrPathconfBools .bool).encode v = (xdrPathconfBools .rawBool).encode v := by
  simp only [xdrPathconfBools, Codec.field, Codec.record, Bool.and_eq_true, true_and] at hv
  obtain ⟨⟨⟨h₁, h₂⟩, h₃⟩, h₄⟩ := hv
  simp only [xdrPathconfBools, Codec.field, bool_encode_eq h₁, bool_encode_eq h₂, bool_encode_eq h₃,
    bool_encode_eq h₄]

lemma xdrPathconfBools_takes : (xdrPathconfBools .bool).decode.Takes 16 := by
  have hbool : XdrProc.bool.decode.Takes 4 := Decoder.Takes.getLong.bind fun _ => .pure _
  have hmk : (Codec.record PathconfBools.mk : Codec PathconfBools _).decode.Takes 0 := .pure _
  exact Codec.field_takes (Codec.field_takes (Codec.field_takes (Codec.field_takes hmk hbool) hbool)
    hbool) hbool

/-- Four words taken from the stream as they are when it has them, else four `xdr_bool`. -/
def xdrPathconfInline (room : Bool) : XdrProc PathconfBools :=
  .inline 16 room (xdrPathconfBools .rawBool) (xdrPathconfBools .bool) xdrPathconfBools_agree
    (fun _ => rfl) xdrPathconfBools_takes

def PATHCONF3resok.bools (o : PATHCONF3resok) : PathconfBools :=
  ⟨o.noTrunc, o.chownRestricted, o.caseInsensitive, o.casePreserving⟩

def xdrPATHCONF3resok (room : Bool) : XdrProc PATHCONF3resok where
  toCodec := Codec.record
      (fun attr linkmax nameMax (o : PathconfBools) => PATHCONF3resok.mk attr linkmax nameMax o.noTrunc
        o.chownRestricted o.caseInsensitive o.casePreserving)
    |>.field PATHCONF3resok.objAttributes xdrPostOpAttr
    |>.field PATHCONF3resok.linkmax xdrUint32
    |>.field PATHCONF3resok.nameMax xdrUint32
    |>.field PATHCONF3resok.bools (xdrPathconfInline room)
  part_eq _ := rfl

def xdrPATHCONF3resfail : XdrProc PATHCONF3resfail where
  toCodec := Codec.record PATHCONF3resfail.mk
    |>.field PATHCONF3resfail.objAttributes xdrPostOpAttr
  part_eq _ := rfl

def xdrPATHCONF3res (room : Bool) : XdrProc PATHCONF3res :=
  xdrStatus (xdrPATHCONF3resok room) xdrPATHCONF3resfail

def xdrCOMMIT3resok : XdrProc COMMIT3resok where
  toCodec := Codec.record COMMIT3resok.mk
    |>.field COMMIT3resok.fileWcc xdrWccData
    |>.field COMMIT3resok.verf xdrWriteverf3
  part_eq _ := rfl

def xdrCOMMIT3resfail : XdrProc COMMIT3resfail where
  toCodec := Codec.record COMMIT3resfail.mk
    |>.field COMMIT3resfail.fileWcc xdrWccData
  part_eq _ := rfl

def xdrCOMMIT3res : XdrProc COMMIT3res := xdrStatus xdrCOMMIT3resok xdrCOMMIT3resfail

/-!
## MOUNT
-/

def xdrFhandle3 : XdrProc Fhandle3 := .bytes 64
def xdrDirpath : XdrProc Dirpath := .string 1024
def xdrName : XdrProc Name := .string 255

def xdrMountres3Ok : XdrProc Mountres3Ok where
  toCodec := Codec.record Mountres3Ok.mk
    |>.field Mountres3Ok.fhandle xdrFhandle3
    |>.field Mountres3Ok.authFlavors (.array 0xffffffff 4 .int)
  part_eq _ := rfl

def xdrMountres3 : XdrProc Mountres3 :=
  .union xdrMountstat3 fun fhsStatus => .select xdrMountres3Ok .void (fhsStatusOk fhsStatus)

/-- `ml_next` is the list; so are `gr_next` and `ex_next` below. -/
def xdrMountbody : XdrProc Mountbody where
  toCodec := Codec.record Mountbody.mk
    |>.field Mountbody.mlHostname xdrName
    |>.field Mountbody.mlDirectory xdrDirpath
  part_eq _ := rfl

def xdrMountlist : XdrProc Mountlist := .pointer xdrMountbody

def xdrGroupnode : XdrProc Groupnode where
  toCodec := Codec.record Groupnode.mk
    |>.field Groupnode.grName xdrName
  part_eq _ := rfl

def xdrGroups : XdrProc Groups := .pointer xdrGroupnode

def xdrExportnode : XdrProc Exportnode where
  toCodec := Codec.record Exportnode.mk
    |>.field Exportnode.exDir xdrDirpath
    |>.field Exportnode.exGroups xdrGroups
  part_eq _ := rfl

def xdrExports : XdrProc Exports := .pointer xdrExportnode

end UnfsClient
