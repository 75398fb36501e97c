import UnfsClient.Lib.Bytes
import UnfsClient.Lib.DoublyLinked

/-!
# The generic hash table of `hash_table.c`

Every entry sits in two doubly linked lists: the chain of its bucket (`p_next`, `p_prev`) and
the list from the oldest to the newest entry (`p_newer`, `p_older`). Entries are addresses
and each field of `struct s_hash_entry` is a map from addresses. Bounded buckets and the
search heuristics are off in every table the client creates and are left out; allocations
succeed. Sizes are at most `2 ^ 31` and there are fewer than `2 ^ 32` entries.
-/

namespace UnfsClient

open Function Lib DoublyLinked

structure GhtHashTable (δ : Type) where
  iItems : Nat
  iSize : Nat
  iSizeMask : Nat
  iAutomaticRehash : Bool
  ppEntries : Nat → Option Nat
  pNr : Nat → Int
  pOldest : Option Nat
  pNewest : Option Nat
  pData : Nat → Option δ
  pBucketidx : Nat → Nat
  pNext : Nat → Option Nat
  pPrev : Nat → Option Nat
  pOlder : Nat → Option Nat
  pNewer : Nat → Option Nat
  key : Nat → Bytes
  /-- The address the next `he_create` returns. -/
  fresh : Nat

variable {δ : Type}

/-- `ght_one_at_a_time_hash`, the hash function of every table. -/
def ghtOneAtATimeHash (key : Bytes) : UInt32 :=
  let h : UInt32 := key.foldl (fun (h : UInt32) b =>
    let h := h + b.toUInt32
    let h := h + (h <<< 10)
    h ^^^ (h >>> 6)) 0
  let h := h + (h <<< 3)
  let h := h ^^^ (h >>> 11)
  h + (h <<< 15)

/-- The loop of `ght_create` that rounds the size up to a power of two. Sizes are at most `2 ^ 31`, above
which the shift overflows and the loop does not end. -/
def ghtRoundSize (n : Nat) : Nat → Nat → Nat → Nat × Nat
  | 0, iSize, i => (iSize, i)
  | fuel + 1, iSize, i => if iSize < n then ghtRoundSize n fuel (1 <<< i) (i + 1) else (iSize, i)

def ghtCreate (δ : Type) (n : Nat) : GhtHashTable δ :=
  let r := ghtRoundSize n 32 1 1
  { iItems := 0, iSize := r.1, iSizeMask := (1 <<< (r.2 - 1)) - 1, iAutomaticRehash := false
    ppEntries := fun _ => none, pNr := fun _ => 0, pOldest := none, pNewest := none
    pData := fun _ => none, pBucketidx := fun _ => 0, pNext := fun _ => none
    pPrev := fun _ => none, pOlder := fun _ => none, pNewer := fun _ => none
    key := fun _ => [], fresh := 0 }

/-- `get_hash_value(p_ht, &key) & p_ht->i_size_mask`. -/
def ghtBucket (t : GhtHashTable δ) (key : Bytes) : Nat :=
  (ghtOneAtATimeHash key).toNat &&& t.iSizeMask

/-- `search_in_bucket`; no chain is longer than the number of entries. -/
def searchInBucket (t : GhtHashTable δ) (lBucket : Nat) (key : Bytes) : Option Nat :=
  search t.pNext (fun e => t.key e == key) t.iItems (t.ppEntries lBucket)

def removeFromChain (t : GhtHashTable δ) (lBucket p : Nat) : GhtHashTable δ :=
  { t with
    pNext := setAt t.pNext (t.pPrev p) (t.pNext p)
    ppEntries := if t.pPrev p = none then update t.ppEntries lBucket (t.pNext p) else t.ppEntries
    pPrev := setAt t.pPrev (t.pNext p) (t.pPrev p)
    pNewer := setAt t.pNewer (t.pOlder p) (t.pNewer p)
    pOldest := if t.pOlder p = none then t.pNewer p else t.pOldest
    pOlder := setAt t.pOlder (t.pNewer p) (t.pOlder p)
    pNewest := if t.pNewer p = none then t.pOlder p else t.pNewest }

/-- The part of `ght_insert` after the search and the rehash: create the entry, place it
first in its bucket and last in the list of ages. -/
def ghtLink (t : GhtHashTable δ) (data : δ) (key : Bytes) : GhtHashTable δ :=
  let p := t.fresh
  let lKey := ghtBucket t key
  { t with
    fresh := p + 1
    pData := update t.pData p (some data)
    key := update t.key p key
    pNext := update t.pNext p (t.ppEntries lKey)
    pBucketidx := update t.pBucketidx p lKey
    pPrev := setAt (update t.pPrev p none) (t.ppEntries lKey) (some p)
    ppEntries := update t.ppEntries lKey (some p)
    pNr := update t.pNr lKey (t.pNr lKey + 1)
    iItems := t.iItems + 1
    pOldest := if t.pOldest = none then some p else t.pOldest
    pOlder := update t.pOlder p t.pNewest
    pNewer := setAt (update t.pNewer p none) t.pNewest (some p)
    pNewest := some p }

/-- The loop of `ght_rehash` from entry `p` on; like `ght_next` it stops at a null datum. -/
def ghtRehashFrom (t : GhtHashTable δ) : Nat → Option Nat → GhtHashTable δ → GhtHashTable δ
  | 0, _, tmp => tmp
  | _, none, tmp => tmp
  | fuel + 1, some p, tmp =>
    match t.pData p with
    | none => tmp
    | some data =>
      let tmp := if (searchInBucket tmp (ghtBucket tmp (t.key p)) (t.key p)).isSome then tmp
        else ghtLink tmp data (t.key p)
      ghtRehashFrom t fuel (t.pNewer p) tmp

def ghtRehash (t : GhtHashTable δ) (n : Nat) : GhtHashTable δ :=
  let tmp := ghtRehashFrom t t.iItems t.pOldest (ghtCreate δ n)
  { tmp with iAutomaticRehash := t.iAutomaticRehash }

/-- `2*i_size`, which is unsigned. -/
def ghtDoubled (iSize : Nat) : Nat := 2 * iSize % 2 ^ 32

def ghtInsert (t : GhtHashTable δ) (data : δ) (key : Bytes) : GhtHashTable δ × Int :=
  if (searchInBucket t (ghtBucket t key) key).isSome then (t, -1)
  else
    let t := if t.iAutomaticRehash && ghtDoubled t.iSize < t.iItems then ghtRehash t (ghtDoubled t.iSize) else t
    (ghtLink t data key, 0)

/-- What `ght_remove` and `ght_remove_first` do with the entry they found. -/
def ghtUnlink (t : GhtHashTable δ) (lBucket p : Nat) : GhtHashTable δ :=
  let t := removeFromChain t lBucket p
  { t with iItems := t.iItems - 1, pNr := update t.pNr lBucket (t.pNr lBucket - 1) }

def ghtRemove (t : GhtHashTable δ) (key : Bytes) : GhtHashTable δ × Option δ :=
  let lKey := ghtBucket t key
  match searchInBucket t lKey key with
  | none => (t, none)
  | some p => (ghtUnlink t lKey p, t.pData p)

/-- `ght_first`: the datum of the oldest entry, and its key through the out parameter. -/
def ghtFirst (t : GhtHashTable δ) : Option δ × Bytes :=
  match t.pOldest with
  | none => (none, [])
  | some p => (t.pData p, t.key p)

def ghtRemoveFirst (t : GhtHashTable δ) : GhtHashTable δ × Option δ :=
  match t.pOldest with
  | none => (t, none)
  | some p => (ghtUnlink t (t.pBucketidx p) p, t.pData p)

def ghtSetRehash (t : GhtHashTable δ) (bRehash : Bool) : GhtHashTable δ :=
  { t with iAutomaticRehash := bRehash }

/-- The entries of a freed chain are not looked at again. -/
def removeAllEntries (t : GhtHashTable δ) : GhtHashTable δ :=
  (List.range t.iSize).foldl (fun t i => { t with ppEntries := update t.ppEntries i none }) t

def ghtRemoveAll (t : GhtHashTable δ) : GhtHashTable δ :=
  let t := removeAllEntries t
  { t with
    pNr := fun b => if b < t.iSize then 0 else t.pNr b
    pOldest := none
    pNewest := none
    iItems := 0 }

/-- The entries from the oldest to the newest, each with its key and its datum. -/
def ghtEntries (t : GhtHashTable δ) : List (Bytes × Option δ) :=
  (walk t.pNewer t.iItems t.pOldest).map fun p => (t.key p, t.pData p)

/-- The chain of a bucket, each entry with its key and its datum. -/
def ghtChain (t : GhtHashTable δ) (lBucket : Nat) : List (Bytes × Option δ) :=
  (walk t.pNext t.iItems (t.ppEntries lBucket)).map fun p => (t.key p, t.pData p)

/-- A call of the table. -/
inductive GhtCall (δ : Type) where
  | insert (data : δ) (key : Bytes)
  | remove (key : Bytes)
  | removeFirst
  | removeAll
  | rehash (iSize : Nat)
  | setRehash (bRehash : Bool)

inductive GhtReturn (δ : Type) where
  | status (s : Int)
  | datum (p : Option δ)
  | void
  deriving DecidableEq

def ghtCall (t : GhtHashTable δ) : GhtCall δ → GhtHashTable δ × GhtReturn δ
  | .insert data key => ((ghtInsert t data key).1, .status (ghtInsert t data key).2)
  | .remove key => ((ghtRemove t key).1, .datum (ghtRemove t key).2)
  | .removeFirst => ((ghtRemoveFirst t).1, .datum (ghtRemoveFirst t).2)
  | .removeAll => (ghtRemoveAll t, .void)
  | .rehash iSize => (ghtRehash t iSize, .void)
  | .setRehash bRehash => (ghtSetRehash t bRehash, .void)

/-- The table after the calls, and what they returned. -/
def ghtRun (t : GhtHashTable δ) : List (GhtCall δ) → GhtHashTable δ × List (GhtReturn δ)
  | [] => (t, [])
  | c :: cs =>
    let r := ghtRun (ghtCall t c).1 cs
    (r.1, (ghtCall t c).2 :: r.2)

end UnfsClient
