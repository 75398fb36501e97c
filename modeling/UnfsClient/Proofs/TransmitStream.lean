import UnfsClient.RpcReply
import UnfsClient.Proofs.Actions

/-!
# The transmitted stream

The bytes the socket has accepted, followed by what is left of the buffers on `ct_sndlist`, are
the bytes of the buffers that were queued, whatever `write` returns and whatever callbacks do.
-/

namespace UnfsClient.Proofs

open Lib

def queuedBy : Event → Bytes
  | .queued b => b
  | _ => []

/-- All buffers passed to `writetcp_nb`, in order. -/
def queuedBytes (log : List Event) : Bytes := log.flatMap queuedBy

def sentBy : Event → Bytes
  | .sent b => b
  | _ => []

/-- All bytes accepted by the socket. -/
def sentBytes (log : List Event) : Bytes := log.flatMap sentBy

/-- `fb_len` bytes from `fb_current`. -/
def unsent (fb : FragBuffer) : Bytes := (fb.fbBase.bytes.drop fb.fbCurrent).take fb.fbLen.toNat

structure TxInv (w : World) : Prop where
  stream : sentBytes w.log ++ w.ct.ctSndlist.flatMap unsent = queuedBytes w.log
  datatx : w.ct.ctDatatx = (sentBytes w.log).length % 2 ^ 64
  buffers : ∀ fb ∈ w.ct.ctSndlist, fb.fbLen + fb.fbCurrent = fb.fbBase.bytes.length ∧ 0 ≤ fb.fbLen

lemma queuedBytes_append (a b : List Event) : queuedBytes (a ++ b) = queuedBytes a ++ queuedBytes b :=
  List.flatMap_append

lemma sentBytes_append (a b : List Event) : sentBytes (a ++ b) = sentBytes a ++ sentBytes b :=
  List.flatMap_append

/-- An action that neither queues nor sends. -/
lemma TxInv.of_same {w w' : World} (h : TxInv w) (hsnd : w'.ct.ctSndlist = w.ct.ctSndlist)
    (htx : w'.ct.ctDatatx = w.ct.ctDatatx) (hq : queuedBytes w'.log = queuedBytes w.log)
    (hs : sentBytes w'.log = sentBytes w.log) : TxInv w' := by
  constructor
  · rw [hs, hsnd, hq]
    exact h.stream
  · rw [htx, hs]
    exact h.datatx
  · rw [hsnd]
    exact h.buffers

/-- An action that notes something else. -/
lemma TxInv.of_noted {w w' : World} {e : Event} (h : TxInv w) (hsnd : w'.ct.ctSndlist = w.ct.ctSndlist)
    (htx : w'.ct.ctDatatx = w.ct.ctDatatx) (hlog : w'.log = w.log ++ [e]) (hq : queuedBy e = [])
    (hs : sentBy e = []) : TxInv w' := by
  apply h.of_same hsnd htx
  · simp [hlog, queuedBytes, hq]
  · simp [hlog, sentBytes, hs]

/-- The bytes a buffer still has to send are those accepted next and those left after them. -/
lemma unsent_split {fb : FragBuffer} {n : Nat} (hn : (n : Int) ≤ fb.fbLen) :
    unsent fb = (fb.fbBase.bytes.drop fb.fbCurrent).take n ++ unsent (advanceBuffer fb n) := by
  have hsum : fb.fbLen.toNat = n + (fb.fbLen - n).toNat := by omega
  unfold unsent advanceBuffer
  dsimp only
  rw [hsum, List.take_add, List.drop_drop]

lemma accepted_length {fb : FragBuffer} {n : Nat} (hbuf : fb.fbLen + fb.fbCurrent = fb.fbBase.bytes.length)
    (hn : (n : Int) ≤ fb.fbLen) : ((fb.fbBase.bytes.drop fb.fbCurrent).take n).length = n := by
  rw [List.length_take, List.length_drop]
  omega

/-- Accepting bytes of the first buffer moves them from the list to the socket. -/
lemma TxInv.accept {w : World} {buf : FragBuffer} {rest rest' : List FragBuffer} {n : Nat} (h : TxInv w)
    (hs : w.ct.ctSndlist = buf :: rest) (hn : (n : Int) ≤ buf.fbLen)
    (hrest : unsent (advanceBuffer buf n) ++ rest.flatMap unsent = rest'.flatMap unsent)
    (hbufs : ∀ fb ∈ rest', fb.fbLen + fb.fbCurrent = fb.fbBase.bytes.length ∧ 0 ≤ fb.fbLen) :
    TxInv (setSndlist (acceptBytes w buf n) rest') := by
  have hbuf := (h.buffers buf (by rw [hs]; exact List.mem_cons_self)).1
  have hlog : (setSndlist (acceptBytes w buf n) rest').log =
      w.log ++ [.sent ((buf.fbBase.bytes.drop buf.fbCurrent).take n)] := rfl
  constructor
  · have hstream := h.stream
    rw [hs, List.flatMap_cons, unsent_split hn, List.append_assoc, hrest] at hstream
    rw [hlog, sentBytes_append, queuedBytes_append, ← hstream]
    simp [setSndlist, sentBytes, queuedBytes, sentBy, queuedBy]
  · rw [hlog, sentBytes_append, List.length_append]
    have hone : (sentBytes [.sent ((buf.fbBase.bytes.drop buf.fbCurrent).take n)]).length = n := by
      simpa [sentBytes, sentBy] using accepted_length hbuf hn
    change (w.ct.ctDatatx + n) % 2 ^ 64 = _
    rw [hone, h.datatx, Nat.mod_add_mod]
  · exact hbufs

lemma TxAct.txInv {E : Env} (hE : AllocsSucceed E) {w w' : World} (h : TxAct E w w') (hinv : TxInv w) :
    TxInv w' := by
  cases h with
  | out b => exact hinv.of_same rfl rfl rfl rfl
  | fragSent b => exact hinv.of_same rfl rfl rfl rfl
  | writes ws => exact hinv.of_same rfl rfl rfl rfl
  | @queue buf hm =>
    have hlog : (appendSndlist (w.note (.queued buf)) buf).tick.log = w.log ++ [.queued buf] := rfl
    have hsnd : (appendSndlist (w.note (.queued buf)) buf).tick.ct.ctSndlist =
        w.ct.ctSndlist ++ [⟨⟨w.serial, buf⟩, 0, buf.length⟩] := rfl
    constructor
    · rw [hlog, hsnd, sentBytes_append, queuedBytes_append, ← hinv.stream]
      simp [sentBytes, queuedBytes, sentBy, queuedBy, unsent]
    · have hsent : sentBytes (w.log ++ [.queued buf]) = sentBytes w.log := by simp [sentBytes, sentBy]
      rw [hlog, hsent]
      exact hinv.datatx
    · intro fb hfb
      rw [hsnd, List.mem_append] at hfb
      rcases hfb with hfb | hfb
      · exact hinv.buffers fb hfb
      · rw [List.mem_singleton.mp hfb]
        simp
  | queueFails hm =>
    rw [hE] at hm
    cases hm
  | @sendPart buf rest n hs hn =>
    have hbuf := hinv.buffers buf (by rw [hs]; exact List.mem_cons_self)
    refine hinv.accept hs hn.le (List.flatMap_cons ..).symm ?_
    intro fb hfb
    rcases List.mem_cons.mp hfb with rfl | hfb
    · simp only [advanceBuffer]
      push_cast
      omega
    · exact hinv.buffers fb (by rw [hs]; exact List.mem_cons_of_mem _ hfb)
  | @sendAll buf rest n hs hn =>
    have hempty : unsent (advanceBuffer buf n) = [] := by
      have hzero : (buf.fbLen - n).toNat = 0 := by omega
      simp [unsent, advanceBuffer, hzero]
    refine hinv.accept hs hn.le (by rw [hempty, List.nil_append]) ?_
    intro fb hfb
    exact hinv.buffers fb (by rw [hs]; exact List.mem_cons_of_mem _ hfb)

lemma Act.txInv {E : Env} (hE : AllocsSucceed E) {calls : Bool} {w w' : World} (h : Act E calls w w')
    (hinv : TxInv w) : TxInv w' := by
  cases h with
  | tx h => exact h.txInv hE hinv
  | @parsed _ e he =>
    have hnote : queuedBy e = [] ∧ sentBy e = [] := by cases e <;> simp_all [ofParser, queuedBy, sentBy]
    exact hinv.of_noted rfl rfl rfl hnote.1 hnote.2
  | deliver hdec htake hcb =>
    refine hinv.of_same rfl rfl ?_ ?_
    · simp [dropEntry, countReceived, queuedBytes, queuedBy]
    · simp [dropEntry, countReceived, sentBytes, sentBy]
  | read h => exact hinv.of_noted rfl rfl rfl rfl rfl
  | take hdec htake hcb => exact hinv.of_noted rfl rfl rfl rfl rfl
  | register _ ucbi => exact hinv.of_noted rfl rfl rfl rfl rfl
  | issue _ cbi => exact hinv.of_noted rfl rfl rfl rfl rfl
  | _ => exact hinv.of_same rfl rfl rfl rfl

lemma Acts.txInv {E : Env} (hE : AllocsSucceed E) {calls : Bool} {w w' : World} (h : Acts E calls w w')
    (hinv : TxInv w) : TxInv w' := by
  induction h with
  | refl => exact hinv
  | tail _ hact ih => exact hact.txInv hE ih

lemma txInv_created {ct : CtData} (hct : Created ct) : TxInv (World.start ct) := by
  cases hct <;> exact ⟨rfl, rfl, by simp [World.start, clnttcpBCreate, clnttcpNbCreate]⟩

end UnfsClient.Proofs
