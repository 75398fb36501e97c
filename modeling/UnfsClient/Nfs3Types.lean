import UnfsClient.Lib.XdrProc

/-!
# The data types of NFS version 3 and MOUNT version 3

The declarations of `nfs3.h`. A union is a discriminant with the member it selects, so that two
values are equal when they agree in every field their discriminants select. A pointer to the
first node of a linked list is the list of its nodes; the null pointer is the empty list.
-/

namespace UnfsClient

open Lib

abbrev Uint64 := UInt64

/-- `typedef u_long uint32`, which is 64 bits wide. -/
abbrev Uint32 := UInt64

abbrev Filename3 := Option CString
abbrev Nfspath3 := Option CString
abbrev Fileid3 := Uint64
abbrev Cookie3 := Uint64
abbrev Cookieverf3 := {x : Bytes // x.length = 8}
abbrev Createverf3 := {x : Bytes // x.length = 8}
abbrev Writeverf3 := {x : Bytes // x.length = 8}
abbrev Uid3 := Uint32
abbrev Gid3 := Uint32
abbrev Size3 := Uint64
abbrev Offset3 := Uint64
abbrev Mode3 := Uint32
abbrev Count3 := Uint32

/-!
## Enumerations
-/

inductive Nfsstat3 where
  | ok | perm | noent | errIo | nxio | acces | exist | xdev | nodev | notdir | isdir | inval | fbig
  | nospc | rofs | mlink | nametoolong | notempty | dquot | stale | remote | badhandle | notSync
  | badCookie | notsupp | toosmall | serverfault | badtype | jukebox

def Nfsstat3.code : Nfsstat3 → UInt32
  | ok => 0 | perm => 1 | noent => 2 | errIo => 5 | nxio => 6 | acces => 13 | exist => 17 | xdev => 18
  | nodev => 19 | notdir => 20 | isdir => 21 | inval => 22 | fbig => 27 | nospc => 28 | rofs => 30
  | mlink => 31 | nametoolong => 63 | notempty => 66 | dquot => 69 | stale => 70 | remote => 71
  | badhandle => 10001 | notSync => 10002 | badCookie => 10003 | notsupp => 10004 | toosmall => 10005
  | serverfault => 10006 | badtype => 10007 | jukebox => 10008

instance : Enumerators Nfsstat3 where
  code := Nfsstat3.code
  all := [.ok, .perm, .noent, .errIo, .nxio, .acces, .exist, .xdev, .nodev, .notdir, .isdir, .inval,
    .fbig, .nospc, .rofs, .mlink, .nametoolong, .notempty, .dquot, .stale, .remote, .badhandle,
    .notSync, .badCookie, .notsupp, .toosmall, .serverfault, .badtype, .jukebox]
  find_code e := by cases e <;> rfl

inductive Ftype3 where
  | reg | dir | blk | chr | lnk | sock | fifo

instance : Enumerators Ftype3 where
  code
    | .reg => 1 | .dir => 2 | .blk => 3 | .chr => 4 | .lnk => 5 | .sock => 6 | .fifo => 7
  all := [.reg, .dir, .blk, .chr, .lnk, .sock, .fifo]
  find_code e := by cases e <;> rfl

inductive TimeHow where
  | dontChange | setToServerTime | setToClientTime

instance : Enumerators TimeHow where
  code
    | .dontChange => 0 | .setToServerTime => 1 | .setToClientTime => 2
  all := [.dontChange, .setToServerTime, .setToClientTime]
  find_code e := by cases e <;> rfl

inductive StableHow where
  | unstable | dataSync | fileSync

instance : Enumerators StableHow where
  code
    | .unstable => 0 | .dataSync => 1 | .fileSync => 2
  all := [.unstable, .dataSync, .fileSync]
  find_code e := by cases e <;> rfl

inductive Createmode3 where
  | unchecked | guarded | exclusive

instance : Enumerators Createmode3 where
  code
    | .unchecked => 0 | .guarded => 1 | .exclusive => 2
  all := [.unchecked, .guarded, .exclusive]
  find_code e := by cases e <;> rfl

inductive Mountstat3 where
  | ok | perm | noent | errIo | acces | notdir | inval | nametoolong | notsupp | serverfault

instance : Enumerators Mountstat3 where
  code
    | .ok => 0 | .perm => 1 | .noent => 2 | .errIo => 5 | .acces => 13 | .notdir => 20 | .inval => 22
    | .nametoolong => 63 | .notsupp => 10004 | .serverfault => 10006
  all := [.ok, .perm, .noent, .errIo, .acces, .notdir, .inval, .nametoolong, .notsupp, .serverfault]
  find_code e := by cases e <;> rfl

/-!
## Attributes
-/

structure Specdata3 where
  specdata1 : Uint32
  specdata2 : Uint32

structure NfsFh3 where
  data : Counted UInt8

structure Nfstime3 where
  seconds : Uint32
  nseconds : Uint32

structure Fattr3 where
  type : EnumT Ftype3
  mode : Mode3
  nlink : Uint32
  uid : Uid3
  gid : Gid3
  size : Size3
  used : Size3
  rdev : Specdata3
  fsid : Uint64
  fileid : Fileid3
  atime : Nfstime3
  mtime : Nfstime3
  ctime : Nfstime3

/-- The member of a union that a `bool_t` selects when it is `TRUE`. -/
@[reducible] def BoolArm (α : Type) : BoolT → Type
  | .named true => α
  | _ => Unit

abbrev PostOpAttr := DiscUnion (BoolArm Fattr3)

structure WccAttr where
  size : Size3
  mtime : Nfstime3
  ctime : Nfstime3

abbrev PreOpAttr := DiscUnion (BoolArm WccAttr)

structure WccData where
  before : PreOpAttr
  after : PostOpAttr

abbrev PostOpFh3 := DiscUnion (BoolArm NfsFh3)

abbrev SetMode3 := DiscUnion (BoolArm Mode3)
abbrev SetUid3 := DiscUnion (BoolArm Uid3)
abbrev SetGid3 := DiscUnion (BoolArm Gid3)
abbrev SetSize3 := DiscUnion (BoolArm Size3)

@[reducible] def TimeArm : EnumT TimeHow → Type
  | .named .setToClientTime => Nfstime3
  | _ => Unit

abbrev SetAtime := DiscUnion TimeArm
abbrev SetMtime := DiscUnion TimeArm

structure Sattr3 where
  mode : SetMode3
  uid : SetUid3
  gid : SetGid3
  size : SetSize3
  atime : SetAtime
  mtime : SetMtime

structure Diropargs3 where
  dir : NfsFh3
  name : Filename3

/-!
## Arguments
-/

structure GETATTR3args where
  object : NfsFh3

abbrev Sattrguard3 := DiscUnion (BoolArm Nfstime3)

structure SETATTR3args where
  object : NfsFh3
  newAttributes : Sattr3
  guard : Sattrguard3

structure LOOKUP3args where
  what : Diropargs3

structure ACCESS3args where
  object : NfsFh3
  access : Uint32

structure READLINK3args where
  symlink : NfsFh3

structure READ3args where
  file : NfsFh3
  offset : Offset3
  count : Count3

structure WRITE3args where
  file : NfsFh3
  offset : Offset3
  count : Count3
  stable : EnumT StableHow
  data : Counted UInt8

@[reducible] def CreateArm : EnumT Createmode3 → Type
  | .named .unchecked => Sattr3
  | .named .guarded => Sattr3
  | .named .exclusive => Createverf3
  | .unnamed _ _ => Unit

abbrev Createhow3 := DiscUnion CreateArm

structure CREATE3args where
  «where» : Diropargs3
  how : Createhow3

structure MKDIR3args where
  «where» : Diropargs3
  attributes : Sattr3

structure Symlinkdata3 where
  symlinkAttributes : Sattr3
  symlinkData : Nfspath3

structure SYMLINK3args where
  «where» : Diropargs3
  symlink : Symlinkdata3

structure Devicedata3 where
  devAttributes : Sattr3
  spec : Specdata3

@[reducible] def MknodArm : EnumT Ftype3 → Type
  | .named .chr => Devicedata3
  | .named .blk => Devicedata3
  | .named .sock => Sattr3
  | .named .fifo => Sattr3
  | _ => Unit

abbrev Mknoddata3 := DiscUnion MknodArm

structure MKNOD3args where
  «where» : Diropargs3
  what : Mknoddata3

structure REMOVE3args where
  object : Diropargs3

structure RMDIR3args where
  object : Diropargs3

structure RENAME3args where
  «from» : Diropargs3
  «to» : Diropargs3

structure LINK3args where
  file : NfsFh3
  link : Diropargs3

structure READDIR3args where
  dir : NfsFh3
  cookie : Cookie3
  cookieverf : Cookieverf3
  count : Count3

structure READDIRPLUS3args where
  dir : NfsFh3
  cookie : Cookie3
  cookieverf : Cookieverf3
  dircount : Count3
  maxcount : Count3

structure FSSTAT3args where
  fsroot : NfsFh3

structure FSINFOargs where
  fsroot : NfsFh3

structure PATHCONF3args where
  object : NfsFh3

structure COMMIT3args where
  file : NfsFh3
  offset : Offset3
  count : Count3

/-!
## Results
-/

def statusOk : EnumT Nfsstat3 → Bool
  | .named .ok => true
  | _ => false

/-- The member of a result that `status` selects. -/
abbrev StatusArm (Resok Resfail : Type) (status : EnumT Nfsstat3) : Type :=
  cond (statusOk status) Resok Resfail

structure GETATTR3resok where
  objAttributes : Fattr3

abbrev GETATTR3res := DiscUnion (StatusArm GETATTR3resok Unit)

structure SETATTR3resok where
  objWcc : WccData

structure SETATTR3resfail where
  objWcc : WccData

abbrev SETATTR3res := DiscUnion (StatusArm SETATTR3resok SETATTR3resfail)

structure LOOKUP3resok where
  object : NfsFh3
  objAttributes : PostOpAttr
  dirAttributes : PostOpAttr

structure LOOKUP3resfail where
  dirAttributes : PostOpAttr

abbrev LOOKUP3res := DiscUnion (StatusArm LOOKUP3resok LOOKUP3resfail)

structure ACCESS3resok where
  objAttributes : PostOpAttr
  access : Uint32

structure ACCESS3resfail where
  objAttributes : PostOpAttr

abbrev ACCESS3res := DiscUnion (StatusArm ACCESS3resok ACCESS3resfail)

structure READLINK3resok where
  symlinkAttributes : PostOpAttr
  data : Nfspath3

structure READLINK3resfail where
  symlinkAttributes : PostOpAttr

abbrev READLINK3res := DiscUnion (StatusArm READLINK3resok READLINK3resfail)

structure READ3resok where
  fileAttributes : PostOpAttr
  count : Count3
  eof : BoolT
  data : Counted UInt8

structure READ3resfail where
  fileAttributes : PostOpAttr

abbrev READ3res := DiscUnion (StatusArm READ3resok READ3resfail)

structure WRITE3resok where
  fileWcc : WccData
  count : Count3
  committed : EnumT StableHow
  verf : Writeverf3

structure WRITE3resfail where
  fileWcc : WccData

abbrev WRITE3res := DiscUnion (StatusArm WRITE3resok WRITE3resfail)

structure CREATE3resok where
  obj : PostOpFh3
  objAttributes : PostOpAttr
  dirWcc : WccData

structure CREATE3resfail where
  dirWcc : WccData

abbrev CREATE3res := DiscUnion (StatusArm CREATE3resok CREATE3resfail)

structure MKDIR3resok where
  obj : PostOpFh3
  objAttributes : PostOpAttr
  dirWcc : WccData

structure MKDIR3resfail where
  dirWcc : WccData

abbrev MKDIR3res := DiscUnion (StatusArm MKDIR3resok MKDIR3resfail)

structure SYMLINK3resok where
  obj : PostOpFh3
  objAttributes : PostOpAttr
  dirWcc : WccData

structure SYMLINK3resfail where
  dirWcc : WccData

abbrev SYMLINK3res := DiscUnion (StatusArm SYMLINK3resok SYMLINK3resfail)

structure MKNOD3resok where
  obj : PostOpFh3
  objAttributes : PostOpAttr
  dirWcc : WccData

structure MKNOD3resfail where
  dirWcc : WccData

abbrev MKNOD3res := DiscUnion (StatusArm MKNOD3resok MKNOD3resfail)

structure REMOVE3resok where
  dirWcc : WccData

structure REMOVE3resfail where
  dirWcc : WccData

abbrev REMOVE3res := DiscUnion (StatusArm REMOVE3resok REMOVE3resfail)

structure RMDIR3resok where
  dirWcc : WccData

structure RMDIR3resfail where
  dirWcc : WccData

abbrev RMDIR3res := DiscUnion (StatusArm RMDIR3resok RMDIR3resfail)

structure RENAME3resok where
  fromdirWcc : WccData
  todirWcc : WccData

structure RENAME3resfail where
  fromdirWcc : WccData
  todirWcc : WccData

abbrev RENAME3res := DiscUnion (StatusArm RENAME3resok RENAME3resfail)

structure LINK3resok where
  fileAttributes : PostOpAttr
  linkdirWcc : WccData

structure LINK3resfail where
  fileAttributes : PostOpAttr
  linkdirWcc : WccData

abbrev LINK3res := DiscUnion (StatusArm LINK3resok LINK3resfail)

/-- A node of a directory listing; `nextentry` is the rest of the list it is in. -/
structure Entry3 where
  fileid : Fileid3
  name : Filename3
  cookie : Cookie3

structure Dirlist3 where
  entries : List Entry3
  eof : BoolT

structure READDIR3resok where
  dirAttributes : PostOpAttr
  cookieverf : Cookieverf3
  reply : Dirlist3

structure READDIR3resfail where
  dirAttributes : PostOpAttr

abbrev READDIR3res := DiscUnion (StatusArm READDIR3resok READDIR3resfail)

structure Entryplus3 where
  fileid : Fileid3
  name : Filename3
  cookie : Cookie3
  nameAttributes : PostOpAttr
  nameHandle : PostOpFh3

structure Dirlistplus3 where
  entries : List Entryplus3
  eof : BoolT

structure READDIRPLUS3resok where
  dirAttributes : PostOpAttr
  cookieverf : Cookieverf3
  reply : Dirlistplus3

structure READDIRPLUS3resfail where
  dirAttributes : PostOpAttr

abbrev READDIRPLUS3res := DiscUnion (StatusArm READDIRPLUS3resok READDIRPLUS3resfail)

structure FSSTAT3resok where
  objAttributes : PostOpAttr
  tbytes : Size3
  fbytes : Size3
  abytes : Size3
  tfiles : Size3
  ffiles : Size3
  afiles : Size3
  invarsec : Uint32

structure FSSTAT3resfail where
  objAttributes : PostOpAttr

abbrev FSSTAT3res := DiscUnion (StatusArm FSSTAT3resok FSSTAT3resfail)

structure FSINFO3resok where
  objAttributes : PostOpAttr
  rtmax : Uint32
  rtpref : Uint32
  rtmult : Uint32
  wtmax : Uint32
  wtpref : Uint32
  wtmult : Uint32
  dtpref : Uint32
  maxfilesize : Size3
  timeDelta : Nfstime3
  properties : Uint32

structure FSINFO3resfail where
  objAttributes : PostOpAttr

abbrev FSINFO3res := DiscUnion (StatusArm FSINFO3resok FSINFO3resfail)

structure PATHCONF3resok where
  objAttributes : PostOpAttr
  linkmax : Uint32
  nameMax : Uint32
  noTrunc : BoolT
  chownRestricted : BoolT
  caseInsensitive : BoolT
  casePreserving : BoolT

structure PATHCONF3resfail where
  objAttributes : PostOpAttr

abbrev PATHCONF3res := DiscUnion (StatusArm PATHCONF3resok PATHCONF3resfail)

structure COMMIT3resok where
  fileWcc : WccData
  verf : Writeverf3

structure COMMIT3resfail where
  fileWcc : WccData

abbrev COMMIT3res := DiscUnion (StatusArm COMMIT3resok COMMIT3resfail)

/-!
## MOUNT
-/

abbrev Fhandle3 := Counted UInt8
abbrev Dirpath := Option CString
abbrev Name := Option CString

structure Mountres3Ok where
  fhandle : Fhandle3
  authFlavors : Counted Int32

def fhsStatusOk : EnumT Mountstat3 → Bool
  | .named .ok => true
  | _ => false

abbrev Mountres3 := DiscUnion fun fhsStatus => cond (fhsStatusOk fhsStatus) Mountres3Ok Unit

structure Mountbody where
  mlHostname : Name
  mlDirectory : Dirpath

abbrev Mountlist := List Mountbody

structure Groupnode where
  grName : Name

abbrev Groups := List Groupnode

structure Exportnode where
  exDir : Dirpath
  exGroups : Groups

abbrev Exports := List Exportnode

end UnfsClient
