import UnfsClient.Nfs3Actor

/-!
# The client interface

`nfs_ctx` of `nfs_ctx.h` with both its handles, the remaining procedures of `nfs3.c`, those of
`mount3.c`, and `nfs_complete` and `mnt_complete` of `nfsclient.c`. A run of the interface is a
sequence of these on one context.
-/

namespace UnfsClient

open Lib

/-! ## NFS procedures -/

def nfs3NullProc : UInt64 := 0
def nfs3GetattrProc : UInt64 := 1
def nfs3SetattrProc : UInt64 := 2
def nfs3AccessProc : UInt64 := 4
def nfs3ReadlinkProc : UInt64 := 5
def nfs3ReadProc : UInt64 := 6
def nfs3CreateProc : UInt64 := 8
def nfs3MkdirProc : UInt64 := 9
def nfs3SymlinkProc : UInt64 := 10
def nfs3MknodProc : UInt64 := 11
def nfs3RemoveProc : UInt64 := 12
def nfs3RmdirProc : UInt64 := 13
def nfs3RenameProc : UInt64 := 14
def nfs3LinkProc : UInt64 := 15
def nfs3ReaddirProc : UInt64 := 16
def nfs3ReaddirplusProc : UInt64 := 17
def nfs3FsstatProc : UInt64 := 18
def nfs3FsinfoProc : UInt64 := 19
def nfs3PathconfProc : UInt64 := 20
def nfs3CommitProc : UInt64 := 21

def nfs3Null (E : Env) (net : Net) (ctx : NfsCtx) (ucbi : CallbackInfo) (callflag : UInt64) :
    Option (NfsCtx × ClntStat) :=
  nfs3Call E net nfs3NullProc (fun _ => XdrProc.void.encode ()) ctx ucbi callflag

def nfs3Getattr (E : Env) (net : Net) (args : GETATTR3args) (ctx : NfsCtx) (ucbi : CallbackInfo)
    (callflag : UInt64) : Option (NfsCtx × ClntStat) :=
  nfs3Call E net nfs3GetattrProc (fun _ => xdrGETATTR3args.encode args) ctx ucbi callflag

def nfs3Setattr (E : Env) (net : Net) (args : SETATTR3args) (ctx : NfsCtx) (ucbi : CallbackInfo)
    (callflag : UInt64) : Option (NfsCtx × ClntStat) :=
  nfs3Call E net nfs3SetattrProc (fun _ => xdrSETATTR3args.encode args) ctx ucbi callflag

def nfs3Access (E : Env) (net : Net) (args : ACCESS3args) (ctx : NfsCtx) (ucbi : CallbackInfo)
    (callflag : UInt64) : Option (NfsCtx × ClntStat) :=
  nfs3Call E net nfs3AccessProc (fun _ => xdrACCESS3args.encode args) ctx ucbi callflag

def nfs3Readlink (E : Env) (net : Net) (args : READLINK3args) (ctx : NfsCtx) (ucbi : CallbackInfo)
    (callflag : UInt64) : Option (NfsCtx × ClntStat) :=
  nfs3Call E net nfs3ReadlinkProc (fun _ => xdrREADLINK3args.encode args) ctx ucbi callflag

def nfs3Read (E : Env) (net : Net) (args : READ3args) (ctx : NfsCtx) (ucbi : CallbackInfo)
    (callflag : UInt64) : Option (NfsCtx × ClntStat) :=
  nfs3Call E net nfs3ReadProc (fun _ => xdrREAD3args.encode args) ctx ucbi callflag

def nfs3Create (E : Env) (net : Net) (args : CREATE3args) (ctx : NfsCtx) (ucbi : CallbackInfo)
    (callflag : UInt64) : Option (NfsCtx × ClntStat) :=
  nfs3Call E net nfs3CreateProc (fun _ => xdrCREATE3args.encode args) ctx ucbi callflag

def nfs3Mkdir (E : Env) (net : Net) (args : MKDIR3args) (ctx : NfsCtx) (ucbi : CallbackInfo)
    (callflag : UInt64) : Option (NfsCtx × ClntStat) :=
  nfs3Call E net nfs3MkdirProc (fun _ => xdrMKDIR3args.encode args) ctx ucbi callflag

def nfs3Symlink (E : Env) (net : Net) (args : SYMLINK3args) (ctx : NfsCtx) (ucbi : CallbackInfo)
    (callflag : UInt64) : Option (NfsCtx × ClntStat) :=
  nfs3Call E net nfs3SymlinkProc (fun _ => xdrSYMLINK3args.encode args) ctx ucbi callflag

def nfs3Mknod (E : Env) (net : Net) (args : MKNOD3args) (ctx : NfsCtx) (ucbi : CallbackInfo)
    (callflag : UInt64) : Option (NfsCtx × ClntStat) :=
  nfs3Call E net nfs3MknodProc (fun _ => xdrMKNOD3args.encode args) ctx ucbi callflag

def nfs3Remove (E : Env) (net : Net) (args : REMOVE3args) (ctx : NfsCtx) (ucbi : CallbackInfo)
    (callflag : UInt64) : Option (NfsCtx × ClntStat) :=
  nfs3Call E net nfs3RemoveProc (fun _ => xdrREMOVE3args.encode args) ctx ucbi callflag

def nfs3Rmdir (E : Env) (net : Net) (args : RMDIR3args) (ctx : NfsCtx) (ucbi : CallbackInfo)
    (callflag : UInt64) : Option (NfsCtx × ClntStat) :=
  nfs3Call E net nfs3RmdirProc (fun _ => xdrRMDIR3args.encode args) ctx ucbi callflag

def nfs3Rename (E : Env) (net : Net) (args : RENAME3args) (ctx : NfsCtx) (ucbi : CallbackInfo)
    (callflag : UInt64) : Option (NfsCtx × ClntStat) :=
  nfs3Call E net nfs3RenameProc (fun _ => xdrRENAME3args.encode args) ctx ucbi callflag

def nfs3Link (E : Env) (net : Net) (args : LINK3args) (ctx : NfsCtx) (ucbi : CallbackInfo)
    (callflag : UInt64) : Option (NfsCtx × ClntStat) :=
  nfs3Call E net nfs3LinkProc (fun _ => xdrLINK3args.encode args) ctx ucbi callflag

def nfs3Readdir (E : Env) (net : Net) (args : READDIR3args) (ctx : NfsCtx) (ucbi : CallbackInfo)
    (callflag : UInt64) : Option (NfsCtx × ClntStat) :=
  nfs3Call E net nfs3ReaddirProc (fun _ => xdrREADDIR3args.encode args) ctx ucbi callflag

def nfs3Readdirplus (E : Env) (net : Net) (args : READDIRPLUS3args) (ctx : NfsCtx) (ucbi : CallbackInfo)
    (callflag : UInt64) : Option (NfsCtx × ClntStat) :=
  nfs3Call E net nfs3ReaddirplusProc (fun _ => xdrREADDIRPLUS3args.encode args) ctx ucbi callflag

def nfs3Fsstat (E : Env) (net : Net) (args : FSSTAT3args) (ctx : NfsCtx) (ucbi : CallbackInfo)
    (callflag : UInt64) : Option (NfsCtx × ClntStat) :=
  nfs3Call E net nfs3FsstatProc (fun _ => xdrFSSTAT3args.encode args) ctx ucbi callflag

def nfs3Fsinfo (E : Env) (net : Net) (args : FSINFOargs) (ctx : NfsCtx) (ucbi : CallbackInfo)
    (callflag : UInt64) : Option (NfsCtx × ClntStat) :=
  nfs3Call E net nfs3FsinfoProc (fun _ => xdrFSINFOargs.encode args) ctx ucbi callflag

def nfs3Pathconf (E : Env) (net : Net) (args : PATHCONF3args) (ctx : NfsCtx) (ucbi : CallbackInfo)
    (callflag : UInt64) : Option (NfsCtx × ClntStat) :=
  nfs3Call E net nfs3PathconfProc (fun _ => xdrPATHCONF3args.encode args) ctx ucbi callflag

def nfs3Commit (E : Env) (net : Net) (args : COMMIT3args) (ctx : NfsCtx) (ucbi : CallbackInfo)
    (callflag : UInt64) : Option (NfsCtx × ClntStat) :=
  nfs3Call E net nfs3CommitProc (fun _ => xdrCOMMIT3args.encode args) ctx ucbi callflag

/-- The procedures of `NFS_PROGRAM`. -/
inductive Nfs3Proc where
  | null | getattr | setattr | lookup | access | readlink | read | write | create | mkdir | symlink
  | mknod | remove | rmdir | rename | link | readdir | readdirplus | fsstat | fsinfo | pathconf | commit
  deriving DecidableEq, Repr

namespace Nfs3Proc

@[reducible] def Args : Nfs3Proc → Type
  | .null => Unit
  | .getattr => GETATTR3args
  | .setattr => SETATTR3args
  | .lookup => LOOKUP3args
  | .access => ACCESS3args
  | .readlink => READLINK3args
  | .read => READ3args
  | .write => WRITE3args
  | .create => CREATE3args
  | .mkdir => MKDIR3args
  | .symlink => SYMLINK3args
  | .mknod => MKNOD3args
  | .remove => REMOVE3args
  | .rmdir => RMDIR3args
  | .rename => RENAME3args
  | .link => LINK3args
  | .readdir => READDIR3args
  | .readdirplus => READDIRPLUS3args
  | .fsstat => FSSTAT3args
  | .fsinfo => FSINFOargs
  | .pathconf => PATHCONF3args
  | .commit => COMMIT3args

/-- The procedure is called by its function. -/
def call (E : Env) (net : Net) : (p : Nfs3Proc) → p.Args → NfsCtx → CallbackInfo → UInt64 →
    Option (NfsCtx × ClntStat)
  | .null, _ => nfs3Null E net
  | .getattr, args => nfs3Getattr E net args
  | .setattr, args => nfs3Setattr E net args
  | .lookup, args => nfs3Lookup E net args
  | .access, args => nfs3Access E net args
  | .readlink, args => nfs3Readlink E net args
  | .read, args => nfs3Read E net args
  | .write, args => nfs3Write E net args
  | .create, args => nfs3Create E net args
  | .mkdir, args => nfs3Mkdir E net args
  | .symlink, args => nfs3Symlink E net args
  | .mknod, args => nfs3Mknod E net args
  | .remove, args => nfs3Remove E net args
  | .rmdir, args => nfs3Rmdir E net args
  | .rename, args => nfs3Rename E net args
  | .link, args => nfs3Link E net args
  | .readdir, args => nfs3Readdir E net args
  | .readdirplus, args => nfs3Readdirplus E net args
  | .fsstat, args => nfs3Fsstat E net args
  | .fsinfo, args => nfs3Fsinfo E net args
  | .pathconf, args => nfs3Pathconf E net args
  | .commit, args => nfs3Commit E net args

end Nfs3Proc

/-! ## The whole context -/

def mountProgram : UInt32 := 100005
def mountV3 : UInt32 := 3

/-- `nfs_ctx`: what NFS calls use of it, and the handle of the connection to the mount daemon. -/
structure NfsContext extends NfsCtx where
  nfsMntCl : Option NfsClient

/-- `nfs_init` with memory for the context and both addresses. -/
def nfsInit (proto : Int32) (connflags : UInt32) : NfsContext where
  nfsTransport := proto
  nfsConnflags := connflags
  nfsWsize := 0
  nfsRsize := 0
  nfsCl := none
  nfsMntCl := none

/-- The handle `mount3_call` creates. -/
def mountCreate (c : Connection) : CtData := clnttcpNbCreate c.xid mountProgram mountV3 0 0 c.auth c.junk

/-- `ctx->nfs_mnt_cl` once `mount3_call` has tried to create it. -/
def mountHandle (net : Net) (ctx : NfsContext) : Option NfsClient :=
  match ctx.nfsMntCl with
  | some cl => some cl
  | none => net.connection.map fun c => ⟨World.start (mountCreate c), c.xPublic⟩

def mount3Call (E : Env) (net : Net) (proc : UInt64) (inproc : UInt64 → Encoding) (ctx : NfsContext)
    (ucbi : CallbackInfo) (callflag : UInt64) : Option (NfsContext × ClntStat) :=
  if !checkCtx ctx.toNfsCtx then some (ctx, .systemError)
  else
    match mountHandle net ctx with
    | none => some (ctx, .systemError)
    | some cl =>
      match clnttcpNbCall E noReentry ⟨proc, inproc cl.xPublic⟩ ucbi callflag
          { cl.world with reads := net.reads, writes := net.writes } with
      | none => none
      | some (w, stat) => some ({ ctx with nfsMntCl := some { cl with world := w } }, stat)

/-! ## MOUNT procedures -/

def mount3NullProc : UInt64 := 0
def mount3MntProc : UInt64 := 1
def mount3DumpProc : UInt64 := 2
def mount3UmntProc : UInt64 := 3
def mount3UmntallProc : UInt64 := 4
def mount3ExportProc : UInt64 := 5

def mount3Null (E : Env) (net : Net) (ctx : NfsContext) (ucbi : CallbackInfo) (callflag : UInt64) :
    Option (NfsContext × ClntStat) :=
  mount3Call E net mount3NullProc (fun _ => XdrProc.void.encode ()) ctx ucbi callflag

def mount3Mnt (E : Env) (net : Net) (dirp : Dirpath) (ctx : NfsContext) (ucbi : CallbackInfo) (callflag : UInt64) :
    Option (NfsContext × ClntStat) :=
  mount3Call E net mount3MntProc (fun _ => xdrDirpath.encode dirp) ctx ucbi callflag

def mount3Dump (E : Env) (net : Net) (ctx : NfsContext) (ucbi : CallbackInfo) (callflag : UInt64) :
    Option (NfsContext × ClntStat) :=
  mount3Call E net mount3DumpProc (fun _ => XdrProc.void.encode ()) ctx ucbi callflag

def mount3Umnt (E : Env) (net : Net) (dirp : Dirpath) (ctx : NfsContext) (ucbi : CallbackInfo) (callflag : UInt64) :
    Option (NfsContext × ClntStat) :=
  mount3Call E net mount3UmntProc (fun _ => xdrDirpath.encode dirp) ctx ucbi callflag

def mount3Umntall (E : Env) (net : Net) (ctx : NfsContext) (ucbi : CallbackInfo) (callflag : UInt64) :
    Option (NfsContext × ClntStat) :=
  mount3Call E net mount3UmntallProc (fun _ => XdrProc.void.encode ()) ctx ucbi callflag

def mount3Export (E : Env) (net : Net) (ctx : NfsContext) (ucbi : CallbackInfo) (callflag : UInt64) :
    Option (NfsContext × ClntStat) :=
  mount3Call E net mount3ExportProc (fun _ => XdrProc.void.encode ()) ctx ucbi callflag

/-- The procedures of `MOUNT_PROGRAM`. -/
inductive Mount3Proc where
  | null | mnt | dump | umnt | umntall | «export»
  deriving DecidableEq, Repr

namespace Mount3Proc

@[reducible] def Args : Mount3Proc → Type
  | .mnt => Dirpath
  | .umnt => Dirpath
  | _ => Unit

def call (E : Env) (net : Net) : (p : Mount3Proc) → p.Args → NfsContext → CallbackInfo → UInt64 →
    Option (NfsContext × ClntStat)
  | .null, _ => mount3Null E net
  | .mnt, dirp => mount3Mnt E net dirp
  | .dump, _ => mount3Dump E net
  | .umnt, dirp => mount3Umnt E net dirp
  | .umntall, _ => mount3Umntall E net
  | .«export», _ => mount3Export E net

end Mount3Proc

/-! ## Completion and runs -/

/-- `clnttcp_nb_receive` on a handle that may be null. -/
def receiveOn (E : Env) (flag : UInt32) (reads : List ReadResult) (writes : List WriteResult) :
    Option NfsClient → Option (Option NfsClient × Int)
  | none => some (none, 0)
  | some cl =>
    (clnttcpNbReceive E noReentry flag { cl.world with reads := reads, writes := writes }).map fun r =>
      (some { cl with world := r.1 }, r.2)

def nfsComplete (E : Env) (flag : UInt32) (reads : List ReadResult) (writes : List WriteResult) (ctx : NfsContext) :
    Option (NfsContext × Int) :=
  (receiveOn E flag reads writes ctx.nfsCl).map fun r => ({ ctx with nfsCl := r.1 }, r.2)

def mntComplete (E : Env) (reads : List ReadResult) (writes : List WriteResult) (ctx : NfsContext) :
    Option NfsContext :=
  (receiveOn E rpcBlockingWait reads writes ctx.nfsMntCl).map fun r => { ctx with nfsMntCl := r.1 }

/-- A call of the interface, with what the network does during it. -/
inductive NfsOp where
  | nfs (p : Nfs3Proc) (args : p.Args) (ucbi : CallbackInfo) (callflag : UInt64) (net : Net)
  | mount (p : Mount3Proc) (args : p.Args) (ucbi : CallbackInfo) (callflag : UInt64) (net : Net)
  | complete (flag : UInt32) (reads : List ReadResult) (writes : List WriteResult)
  | mntComplete (reads : List ReadResult) (writes : List WriteResult)

def NfsOp.run (E : Env) : NfsOp → NfsContext → Option NfsContext
  | .nfs p args ucbi callflag net, ctx =>
    (p.call E net args ctx.toNfsCtx ucbi callflag).map fun r => { ctx with toNfsCtx := r.1 }
  | .mount p args ucbi callflag net, ctx => (p.call E net args ctx ucbi callflag).map Prod.fst
  | .complete flag reads writes, ctx => (nfsComplete E flag reads writes ctx).map Prod.fst
  | .mntComplete reads writes, ctx => UnfsClient.mntComplete E reads writes ctx

def runNfs (E : Env) : List NfsOp → NfsContext → Option NfsContext
  | [], ctx => some ctx
  | op :: ops, ctx =>
    match op.run E ctx with
    | none => none
    | some ctx => runNfs E ops ctx

end UnfsClient
