import UnfsClient.Nfs3Xdr

/-!
# Decoding messages

The wrappers `xdr_to_T` of `nfs3.c` and `mount3.c`. Each makes a memory stream over the message,
allocates the result and runs the routine of its type. Allocations succeed and the buffer
pointers of the result are null before the routine runs.
-/

namespace UnfsClient

open Lib

/-- `xdrmem_create` for decoding: `x_handy`, an unsigned count, is set from the `int` length. -/
def xdrmemCreate (msg : Bytes) (len : Int) : Bytes := msg.take (len % 2 ^ 32).toNat

/-- The body the wrappers share. -/
def xdrTo {σ α : Type} (xdr : Codec σ α) (msg : Option Bytes) (len : Int) : Option α :=
  match msg with
  | none => none
  | some m => (xdr.decode (xdrmemCreate m len)).map Prod.fst

/-!
## Arguments
-/

def xdrToGETATTR3args : Option Bytes → Int → Option GETATTR3args := xdrTo xdrGETATTR3args.toCodec
def xdrToSETATTR3args : Option Bytes → Int → Option SETATTR3args := xdrTo xdrSETATTR3args.toCodec
def xdrToLOOKUP3args : Option Bytes → Int → Option LOOKUP3args := xdrTo xdrLOOKUP3args.toCodec
def xdrToACCESS3args : Option Bytes → Int → Option ACCESS3args := xdrTo xdrACCESS3args.toCodec
def xdrToREADLINK3args : Option Bytes → Int → Option READLINK3args := xdrTo xdrREADLINK3args.toCodec
def xdrToREAD3args : Option Bytes → Int → Option READ3args := xdrTo xdrREAD3args.toCodec
def xdrToCREATE3args : Option Bytes → Int → Option CREATE3args := xdrTo xdrCREATE3args.toCodec
def xdrToMKDIR3args : Option Bytes → Int → Option MKDIR3args := xdrTo xdrMKDIR3args.toCodec
def xdrToSYMLINK3args : Option Bytes → Int → Option SYMLINK3args := xdrTo xdrSYMLINK3args.toCodec
def xdrToMKNOD3args : Option Bytes → Int → Option MKNOD3args := xdrTo xdrMKNOD3args.toCodec
def xdrToREMOVE3args : Option Bytes → Int → Option REMOVE3args := xdrTo xdrREMOVE3args.toCodec
def xdrToRMDIR3args : Option Bytes → Int → Option RMDIR3args := xdrTo xdrRMDIR3args.toCodec
def xdrToRENAME3args : Option Bytes → Int → Option RENAME3args := xdrTo xdrRENAME3args.toCodec
def xdrToLINK3args : Option Bytes → Int → Option LINK3args := xdrTo xdrLINK3args.toCodec
def xdrToREADDIR3args : Option Bytes → Int → Option READDIR3args := xdrTo xdrREADDIR3args.toCodec
def xdrToREADDIRPLUS3args : Option Bytes → Int → Option READDIRPLUS3args := xdrTo xdrREADDIRPLUS3args.toCodec
def xdrToFSSTAT3args : Option Bytes → Int → Option FSSTAT3args := xdrTo xdrFSSTAT3args.toCodec
def xdrToFSINFOargs : Option Bytes → Int → Option FSINFOargs := xdrTo xdrFSINFOargs.toCodec
def xdrToPATHCONF3args : Option Bytes → Int → Option PATHCONF3args := xdrTo xdrPATHCONF3args.toCodec
def xdrToCOMMIT3args : Option Bytes → Int → Option COMMIT3args := xdrTo xdrCOMMIT3args.toCodec

def nfs3DataNoDexdr : Int := 0
def nfs3DataDexdr : Int := 1

/-- `x_public` as the wrappers with a `data_xdr` argument set it. -/
def xPublicOf (dataXdr : Int) : XPublic :=
  if dataXdr = nfs3DataNoDexdr then .disableDataDexdr else .enableDataDexdr

def xdrToWRITE3args (msg : Option Bytes) (len dataXdr : Int) : Option WRITE3args :=
  xdrTo (xdrWRITE3args (xPublicOf dataXdr)) msg len

/-!
## Results
-/

def xdrToGETATTR3res : Option Bytes → Int → Option GETATTR3res := xdrTo xdrGETATTR3res.toCodec
def xdrToSETATTR3res : Option Bytes → Int → Option SETATTR3res := xdrTo xdrSETATTR3res.toCodec
def xdrToLOOKUP3res : Option Bytes → Int → Option LOOKUP3res := xdrTo xdrLOOKUP3res.toCodec
def xdrToACCESS3res : Option Bytes → Int → Option ACCESS3res := xdrTo xdrACCESS3res.toCodec
def xdrToREADLINK3res : Option Bytes → Int → Option READLINK3res := xdrTo xdrREADLINK3res.toCodec
def xdrToWRITE3res : Option Bytes → Int → Option WRITE3res := xdrTo xdrWRITE3res.toCodec
def xdrToCREATE3res : Option Bytes → Int → Option CREATE3res := xdrTo xdrCREATE3res.toCodec
def xdrToMKDIR3res : Option Bytes → Int → Option MKDIR3res := xdrTo xdrMKDIR3res.toCodec
def xdrToSYMLINK3res : Option Bytes → Int → Option SYMLINK3res := xdrTo xdrSYMLINK3res.toCodec
def xdrToMKNOD3res : Option Bytes → Int → Option MKNOD3res := xdrTo xdrMKNOD3res.toCodec
def xdrToREMOVE3res : Option Bytes → Int → Option REMOVE3res := xdrTo xdrREMOVE3res.toCodec
def xdrToRMDIR3res : Option Bytes → Int → Option RMDIR3res := xdrTo xdrRMDIR3res.toCodec
def xdrToRENAME3res : Option Bytes → Int → Option RENAME3res := xdrTo xdrRENAME3res.toCodec
def xdrToLINK3res : Option Bytes → Int → Option LINK3res := xdrTo xdrLINK3res.toCodec
def xdrToREADDIR3res : Option Bytes → Int → Option READDIR3res := xdrTo xdrREADDIR3res.toCodec
def xdrToREADDIRPLUS3res : Option Bytes → Int → Option READDIRPLUS3res := xdrTo xdrREADDIRPLUS3res.toCodec
def xdrToFSSTAT3res : Option Bytes → Int → Option FSSTAT3res := xdrTo xdrFSSTAT3res.toCodec
def xdrToFSINFO3res : Option Bytes → Int → Option FSINFO3res := xdrTo xdrFSINFO3res.toCodec
def xdrToCOMMIT3res : Option Bytes → Int → Option COMMIT3res := xdrTo xdrCOMMIT3res.toCodec

def xdrToREAD3res (msg : Option Bytes) (len dataXdr : Int) : Option READ3res :=
  xdrTo (xdrREAD3res (xPublicOf dataXdr)) msg len

/-- Decoding does not depend on the room of a stream that is encoded to. -/
def xdrToPATHCONF3res : Option Bytes → Int → Option PATHCONF3res :=
  xdrTo (xdrPATHCONF3res true).toCodec

/-!
## MOUNT

A `mountlist` and an `exports` are pointers to a first node, which is null both for the empty
list and for a failure. `xdr_to_mountlist` does not test `msg`.
-/

def xdrToMntres3 : Option Bytes → Int → Option Mountres3 := xdrTo xdrMountres3.toCodec

def xdrToMountlist (msg : Bytes) (len : Int) : Mountlist :=
  match xdrMountlist.decode (xdrmemCreate msg len) with
  | none => []
  | some (mb, _) => mb

def xdrToExports (msg : Option Bytes) (len : Int) : Exports :=
  match msg with
  | none => []
  | some m =>
    match xdrExports.decode (xdrmemCreate m len) with
    | none => []
    | some (ex, _) => ex

/-!
## The wrappers together
-/

/-- A routine and the wrapper that decodes with it: `ret` is the pointer to a value and `null`
the null pointer. -/
structure DecodeWrapper where
  Val : Type
  Ret : Type
  xdr : XdrProc Val
  xdrTo : Bytes → Int → Ret
  ret : Val → Ret
  null : Ret

/-- A wrapper that returns a pointer to a structure. -/
def DecodeWrapper.struct {α : Type} (xdr : XdrProc α) (xdrTo : Option Bytes → Int → Option α) :
    DecodeWrapper :=
  ⟨α, Option α, xdr, fun msg => xdrTo (some msg), some, none⟩

/-- A wrapper that returns the first node of a list. -/
def DecodeWrapper.list {α : Type} (xdr : XdrProc (List α)) (xdrTo : Bytes → Int → List α) :
    DecodeWrapper :=
  ⟨List α, List α, xdr, xdrTo, id, []⟩

/-- With `data` included nothing is left out. -/
def xdrWRITE3argsData : XdrProc WRITE3args where
  toCodec := xdrWRITE3args .enableDataDexdr
  part_eq _ := rfl

def xdrREAD3resData : XdrProc READ3res where
  toCodec := xdrREAD3res .enableDataDexdr
  part_eq v := by
    have hok : ∀ o, (xdrREAD3resok .enableDataDexdr).part o = o := fun _ => rfl
    have harm := Codec.select_part hok xdrREAD3resfail.part_eq (statusOk v.disc) v.arm
    exact congrArg (fun a => (⟨v.disc, a⟩ : READ3res)) harm

/-- Every type with a wrapper. `PATHCONF3res` is there for both ways its booleans are encoded. -/
def decodeWrappers : List DecodeWrapper :=
  [
    .struct xdrGETATTR3args xdrToGETATTR3args,
    .struct xdrSETATTR3args xdrToSETATTR3args,
    .struct xdrLOOKUP3args xdrToLOOKUP3args,
    .struct xdrACCESS3args xdrToACCESS3args,
    .struct xdrREADLINK3args xdrToREADLINK3args,
    .struct xdrREAD3args xdrToREAD3args,
    .struct xdrCREATE3args xdrToCREATE3args,
    .struct xdrMKDIR3args xdrToMKDIR3args,
    .struct xdrSYMLINK3args xdrToSYMLINK3args,
    .struct xdrMKNOD3args xdrToMKNOD3args,
    .struct xdrREMOVE3args xdrToREMOVE3args,
    .struct xdrRMDIR3args xdrToRMDIR3args,
    .struct xdrRENAME3args xdrToRENAME3args,
    .struct xdrLINK3args xdrToLINK3args,
    .struct xdrREADDIR3args xdrToREADDIR3args,
    .struct xdrREADDIRPLUS3args xdrToREADDIRPLUS3args,
    .struct xdrFSSTAT3args xdrToFSSTAT3args,
    .struct xdrFSINFOargs xdrToFSINFOargs,
    .struct xdrPATHCONF3args xdrToPATHCONF3args,
    .struct xdrCOMMIT3args xdrToCOMMIT3args,
    .struct xdrWRITE3argsData (xdrToWRITE3args · · nfs3DataDexdr),
    .struct xdrGETATTR3res xdrToGETATTR3res,
    .struct xdrSETATTR3res xdrToSETATTR3res,
    .struct xdrLOOKUP3res xdrToLOOKUP3res,
    .struct xdrACCESS3res xdrToACCESS3res,
    .struct xdrREADLINK3res xdrToREADLINK3res,
    .struct xdrWRITE3res xdrToWRITE3res,
    .struct xdrCREATE3res xdrToCREATE3res,
    .struct xdrMKDIR3res xdrToMKDIR3res,
    .struct xdrSYMLINK3res xdrToSYMLINK3res,
    .struct xdrMKNOD3res xdrToMKNOD3res,
    .struct xdrREMOVE3res xdrToREMOVE3res,
    .struct xdrRMDIR3res xdrToRMDIR3res,
    .struct xdrRENAME3res xdrToRENAME3res,
    .struct xdrLINK3res xdrToLINK3res,
    .struct xdrREADDIR3res xdrToREADDIR3res,
    .struct xdrREADDIRPLUS3res xdrToREADDIRPLUS3res,
    .struct xdrFSSTAT3res xdrToFSSTAT3res,
    .struct xdrFSINFO3res xdrToFSINFO3res,
    .struct xdrCOMMIT3res xdrToCOMMIT3res,
    .struct xdrREAD3resData (xdrToREAD3res · · nfs3DataDexdr),
    .struct (xdrPATHCONF3res true) xdrToPATHCONF3res,
    .struct (xdrPATHCONF3res false) xdrToPATHCONF3res,
    .struct xdrMountres3 xdrToMntres3,
    .list xdrMountlist xdrToMountlist,
    .list xdrExports fun msg => xdrToExports (some msg)]

end UnfsClient
