import UnfsClient.RpcCall
import UnfsClient.Lib.XdrProc

/-!
# Reply headers

The reply header of ONC RPC and `xdr_replymsg` of glibc, as `call_user_cb` sets it up: the
results of an accepted reply are decoded by `xdr_void`, so that decoding stops where they begin.
-/

namespace UnfsClient

open Lib

inductive MsgType where
  | call | reply

instance : Enumerators MsgType where
  code
    | .call => 0 | .reply => 1
  all := [.call, .reply]
  find_code e := by cases e <;> rfl

inductive ReplyStat where
  | msgAccepted | msgDenied

instance : Enumerators ReplyStat where
  code
    | .msgAccepted => 0 | .msgDenied => 1
  all := [.msgAccepted, .msgDenied]
  find_code e := by cases e <;> rfl

inductive AcceptStat where
  | success | progUnavail | progMismatch | procUnavail | garbageArgs | systemErr

instance : Enumerators AcceptStat where
  code
    | .success => 0 | .progUnavail => 1 | .progMismatch => 2 | .procUnavail => 3 | .garbageArgs => 4
    | .systemErr => 5
  all := [.success, .progUnavail, .progMismatch, .procUnavail, .garbageArgs, .systemErr]
  find_code e := by cases e <;> rfl

inductive RejectStat where
  | rpcMismatch | authError

instance : Enumerators RejectStat where
  code
    | .rpcMismatch => 0 | .authError => 1
  all := [.rpcMismatch, .authError]
  find_code e := by cases e <;> rfl

inductive AuthStat where
  | authOk | badcred | rejectedcred | badverf | rejectedverf | tooweak | invalidresp | failed

instance : Enumerators AuthStat where
  code
    | .authOk => 0 | .badcred => 1 | .rejectedcred => 2 | .badverf => 3 | .rejectedverf => 4
    | .tooweak => 5 | .invalidresp => 6 | .failed => 7
  all := [.authOk, .badcred, .rejectedcred, .badverf, .rejectedverf, .tooweak, .invalidresp, .failed]
  find_code e := by cases e <;> rfl

structure OpaqueAuth where
  oaFlavor : Int32
  oaBase : Counted UInt8

/-- The versions a server supports. -/
structure MismatchInfo where
  low : UInt64
  high : UInt64

@[reducible] def AcceptedArm : EnumT AcceptStat → Type
  | .named .progMismatch => MismatchInfo
  | _ => Unit

structure AcceptedReply where
  arVerf : OpaqueAuth
  arReply : DiscUnion AcceptedArm

@[reducible] def RejectedArm : EnumT RejectStat → Type
  | .named .rpcMismatch => MismatchInfo
  | .named .authError => EnumT AuthStat
  | .unnamed _ _ => Unit

abbrev RejectedReply := DiscUnion RejectedArm

@[reducible] def ReplyArm : EnumT ReplyStat → Type
  | .named .msgAccepted => AcceptedReply
  | .named .msgDenied => RejectedReply
  | .unnamed _ _ => Unit

abbrev ReplyBody := DiscUnion ReplyArm

@[reducible] def DirectionArm : EnumT MsgType → Type
  | .named .reply => ReplyBody
  | _ => Unit

/-- `struct rpc_msg` as far as `xdr_replymsg` fills it in. -/
structure ReplyMsg where
  rmXid : UInt64
  rmReply : DiscUnion DirectionArm

/-- `MSG_ACCEPTED` with accept status `SUCCESS`. -/
def ReplyMsg.success : ReplyMsg → Bool
  | ⟨_, .named .reply, .named .msgAccepted, _, .named .success, _⟩ => true
  | _ => false

def maxAuthBytes : UInt32 := 400

def xdrOpaqueAuth : XdrProc OpaqueAuth where
  toCodec := Codec.record OpaqueAuth.mk
    |>.field OpaqueAuth.oaFlavor .int
    |>.field OpaqueAuth.oaBase (.bytes maxAuthBytes)
  part_eq _ := rfl

def xdrMismatchInfo : XdrProc MismatchInfo where
  toCodec := Codec.record MismatchInfo.mk
    |>.field MismatchInfo.low .uLong
    |>.field MismatchInfo.high .uLong
  part_eq _ := rfl

/-- An accept status without a case of its own, known or not, has nothing after it. -/
def xdrAcceptedReply : XdrProc AcceptedReply where
  toCodec := Codec.record AcceptedReply.mk
    |>.field AcceptedReply.arVerf xdrOpaqueAuth
    |>.field AcceptedReply.arReply (.union .enum fun
      | .named .progMismatch => xdrMismatchInfo
      | .named .success => .void
      | .named .progUnavail => .void
      | .named .procUnavail => .void
      | .named .garbageArgs => .void
      | .named .systemErr => .void
      | .unnamed _ _ => .void)
  part_eq _ := rfl

def xdrRejectedReply : XdrProc RejectedReply :=
  .union .enum fun
    | .named .rpcMismatch => xdrMismatchInfo
    | .named .authError => .enum
    | .unnamed _ _ => .never

def xdrReplyBody : XdrProc ReplyBody :=
  .union .enum fun
    | .named .msgAccepted => xdrAcceptedReply
    | .named .msgDenied => xdrRejectedReply
    | .unnamed _ _ => .never

def xdrReplymsg : XdrProc ReplyMsg where
  toCodec := Codec.record ReplyMsg.mk
    |>.field ReplyMsg.rmXid .uLong
    |>.field ReplyMsg.rmReply (.union .enum fun
      | .named .reply => xdrReplyBody
      | .named .call => .never
      | .unnamed _ _ => .never)
  part_eq _ := rfl

/-- What `call_user_cb` uses of a decoded header: `rm_xid`, and the bytes at `x_private`. -/
def replyHeader (msg : Bytes) : Option (UInt64 × Bytes) :=
  (xdrReplymsg.decode msg).map fun r => (r.1.rmXid, r.2)

/-- The callback an event runs, and the bytes it is given. -/
def invocationOf? : Event → Option (Cbi × Bytes)
  | .ran cbi _ body => some (cbi, body)
  | _ => none

/-- The callbacks that run, in order. -/
def invocations (log : List Event) : List (Cbi × Bytes) := log.filterMap invocationOf?

/-! ## A handle to try things on -/

/-- Everything is granted and replies are decoded by `xdr_replymsg`. -/
def replyEnv : Env where
  memAlloc := fun _ _ => true
  uninit := fun _ => 0
  xdrReplymsg := replyHeader
  slack := 0

lemma replyEnv_allocs : AllocsSucceed replyEnv := fun _ _ => rfl

/-- What the authenticator of `authnone_create` puts: two null `opaque_auth`. -/
def authnone : Encoding := .one (.bytes (List.replicate 16 0))

/-- A blocking handle, whose calls have the xids `0xffffff0f`, `0xfeffff0f` and so on. -/
def authnoneHandle : CtData :=
  clnttcpBCreate 0x10 100003 3 0 0 authnone ⟨[], 0, 0, none, 0, 0, 0, fun _ => 0, false⟩

lemma authnoneHandle_created : Created authnoneHandle := .blocking ..

/-- A reply that accepts a call, with a null verifier and the status `SUCCESS`: 24 bytes and the
results. -/
def acceptedReply (xid : UInt32) (results : Bytes) : Bytes :=
  beBytes xid ++ beBytes 1 ++ List.replicate 16 0 ++ results

end UnfsClient
