import UnfsClient.HashTable

/-!
# The whole interface of `hash_table.c`

On top of the plain table: the search heuristics, bounded buckets, replacement, iteration, null
data, and an allocator that may refuse. `fn_alloc` answers its requests from a given sequence, what
`fn_free` and `fn_bucket_free` are called with is recorded, and an entry keeps its address for good.
`fn_bucket_free` is set whenever a limit is, and does not call the table back, although a comment in
`ght_insert` allows it. Sizes are at most `2 ^ 30` and there are fewer than `2 ^ 31` entries.
-/

namespace UnfsClient

open Function Lib DoublyLinked

variable {δ : Type}

/-- The entry and the one before it change places. -/
def transpose (t : GhtHashTable δ) (lBucket pEntry : Nat) : GhtHashTable δ :=
  match t.pPrev pEntry with
  | none => t
  | some x =>
    let a := t.pPrev x
    let b := t.pNext pEntry
    { t with
      ppEntries := if a = none then update t.ppEntries lBucket (some pEntry) else t.ppEntries
      pNext := update (update (setAt t.pNext a (some pEntry)) x b) pEntry (some x)
      pPrev := update (update (setAt t.pPrev b (some x)) x (some pEntry)) pEntry a }

def moveToFront (t : GhtHashTable δ) (lBucket pEntry : Nat) : GhtHashTable δ :=
  if t.ppEntries lBucket = some pEntry then t
  else
    { t with
      pNext := update (setAt t.pNext (t.pPrev pEntry) (t.pNext pEntry)) pEntry (t.ppEntries lBucket)
      pPrev := setAt (update (setAt t.pPrev (t.pNext pEntry) (t.pPrev pEntry)) pEntry none)
        (t.ppEntries lBucket) (some pEntry)
      ppEntries := update t.ppEntries lBucket (some pEntry) }

def ghtHeuristicsTranspose : UInt8 := 1

def ghtHeuristicsMoveToFront : UInt8 := 2

/-- What `search_in_bucket` does with the matching entry. -/
def applyHeuristics (t : GhtHashTable δ) (iHeuristics : UInt8) (lBucket p : Nat) : GhtHashTable δ :=
  if iHeuristics = ghtHeuristicsMoveToFront then moveToFront t lBucket p
  else if iHeuristics = ghtHeuristicsTranspose then transpose t lBucket p
  else t

/-- A new entry, first in its bucket and not yet in the list of ages. -/
def placeFirst (t : GhtHashTable δ) (data : δ) (key : Bytes) (lKey : Nat) : GhtHashTable δ :=
  let p := t.fresh
  { t with
    fresh := p + 1
    pData := update t.pData p (some data)
    key := update t.key p key
    pNext := update t.pNext p (t.ppEntries lKey)
    pBucketidx := update t.pBucketidx p lKey
    pPrev := setAt (update t.pPrev p none) (t.ppEntries lKey) (some p)
    ppEntries := update t.ppEntries lKey (some p)
    pOlder := update t.pOlder p none
    pNewer := update t.pNewer p none }

def placeNewest (t : GhtHashTable δ) (p : Nat) : GhtHashTable δ :=
  { t with
    pOldest := if t.pOldest = none then some p else t.pOldest
    pOlder := update t.pOlder p t.pNewest
    pNewer := setAt t.pNewer t.pNewest (some p)
    pNewest := some p }

/-- The entries that `free_entry_chain` frees when it is called for every bucket. -/
def chainedEntries (t : GhtHashTable δ) : List Nat :=
  (List.range t.iSize).flatMap fun i => walk t.pNext t.iItems (t.ppEntries i)

/-- A datum is a pointer that may be null. -/
structure GhtTable (δ : Type) extends GhtHashTable (Option δ) where
  iHeuristics : UInt32
  bucketLimit : Nat
  /-- Whether `fn_alloc` grants a request, by the number of requests before it. -/
  fnAlloc : Nat → Bool
  requests : Nat
  /-- The entries `fn_free` was called with. -/
  fnFreed : List Nat
  /-- The data and keys `fn_bucket_free` was called with. -/
  bucketFreed : List (Option δ × Bytes)

namespace GhtTable

def create (fnAlloc : Nat → Bool) (iSize : Nat) : GhtTable δ :=
  { toGhtHashTable := ghtCreate (Option δ) iSize, iHeuristics := 0, bucketLimit := 0, fnAlloc := fnAlloc
    requests := 0, fnFreed := [], bucketFreed := [] }

/-- The `p_data` of an entry. -/
def datum (t : GhtTable δ) (p : Nat) : Option δ := (t.pData p).join

def bucket (t : GhtTable δ) (key : Bytes) : Nat := ghtBucket t.toGhtHashTable key

def find (t : GhtTable δ) (key : Bytes) : Option Nat := searchInBucket t.toGhtHashTable (t.bucket key) key

/-- `search_in_bucket` with the heuristics of the table, cut to an `unsigned char`. -/
def search (t : GhtTable δ) (key : Bytes) : GhtTable δ × Option Nat :=
  match t.find key with
  | none => (t, none)
  | some p =>
    ({ t with
      toGhtHashTable := applyHeuristics t.toGhtHashTable t.iHeuristics.toUInt8 (t.bucket key) p }, some p)

def heFinalize (t : GhtTable δ) (p : Nat) : GhtTable δ := { t with fnFreed := t.fnFreed ++ [p] }

/-- The bucket is full: its last entry is taken out and handed to `fn_bucket_free`. -/
def evictLast (t : GhtTable δ) (lKey p : Nat) : GhtTable δ :=
  let last := lastNode t.pNext t.iItems p
  let t := { t with toGhtHashTable := removeFromChain t.toGhtHashTable lKey last }
  heFinalize { t with bucketFreed := t.bucketFreed ++ [(t.datum last, t.key last)] } last

def countEntry (t : GhtTable δ) (lKey : Nat) : GhtTable δ :=
  { t with pNr := update t.pNr lKey (t.pNr lKey + 1), iItems := t.iItems + 1 }

/-- The part of `ght_insert` after the rehash. -/
def link (t : GhtTable δ) (data : Option δ) (key : Bytes) : GhtTable δ :=
  let p := t.fresh
  let lKey := t.bucket key
  let t := { t with toGhtHashTable := placeFirst t.toGhtHashTable data key lKey }
  let t := if t.bucketLimit ≠ 0 ∧ (t.bucketLimit : Int) ≤ t.pNr lKey then evictLast t lKey p else countEntry t lKey
  { t with toGhtHashTable := placeNewest t.toGhtHashTable p }

/-- `ght_insert`, given the rehash that a table with too many entries gets. -/
def insertWith (rehash : GhtTable δ → Nat → GhtTable δ) (t : GhtTable δ) (data : Option δ) (key : Bytes) :
    GhtTable δ × Int :=
  if (t.find key).isSome then (t, -1)
  else
    -- `he_create` asks for the memory before the rehash does
    let granted := t.fnAlloc t.requests
    let t := { t with requests := t.requests + 1 }
    if !granted then (t, -2)
    else
      let t := if t.iAutomaticRehash && ghtDoubled t.iSize < t.iItems then rehash t (ghtDoubled t.iSize) else t
      (link t data key, 0)

/-- The temporary table of `ght_rehash`. -/
def rehashTable (t : GhtTable δ) (iSize : Nat) : GhtTable δ :=
  { t with
    toGhtHashTable := { ghtCreate (Option δ) iSize with fresh := t.fresh }, iHeuristics := 0, bucketLimit := 0 }

/-- The loop of `ght_rehash` from entry `p` on. It ends at a null datum, an entry that is not inserted
is only reported, and the temporary table does not rehash. -/
def rehashFrom (t : GhtTable δ) : Nat → Option Nat → GhtTable δ → GhtTable δ
  | 0, _, tmp => tmp
  | _, none, tmp => tmp
  | fuel + 1, some p, tmp =>
    match t.datum p with
    | none => tmp
    | some data => rehashFrom t fuel (t.pNewer p) (insertWith (fun tmp _ => tmp) tmp (some data) (t.key p)).1

def rehash (t : GhtTable δ) (iSize : Nat) : GhtTable δ :=
  let tmp := rehashFrom t t.iItems t.pOldest (rehashTable t iSize)
  { tmp with
    iAutomaticRehash := t.iAutomaticRehash, iHeuristics := t.iHeuristics, bucketLimit := t.bucketLimit
    fnFreed := tmp.fnFreed ++ chainedEntries t.toGhtHashTable }

def insert (t : GhtTable δ) (data : Option δ) (key : Bytes) : GhtTable δ × Int := insertWith rehash t data key

def get (t : GhtTable δ) (key : Bytes) : GhtTable δ × Option δ :=
  match t.search key with
  | (t, none) => (t, none)
  | (t, some p) => (t, t.datum p)

def replace (t : GhtTable δ) (data : Option δ) (key : Bytes) : GhtTable δ × Option δ :=
  match t.search key with
  | (t, none) => (t, none)
  | (t, some p) => ({ t with pData := update t.pData p (some data) }, t.datum p)

/-- What `ght_remove` and `ght_remove_first` do with the entry they found. -/
def unlink (t : GhtTable δ) (lBucket p : Nat) : GhtTable δ × Option δ :=
  (heFinalize { t with toGhtHashTable := ghtUnlink t.toGhtHashTable lBucket p } p, t.datum p)

def remove (t : GhtTable δ) (key : Bytes) : GhtTable δ × Option δ :=
  match t.find key with
  | none => (t, none)
  | some p => unlink t (t.bucket key) p

def removeFirst (t : GhtTable δ) : GhtTable δ × Option δ :=
  match t.pOldest with
  | none => (t, none)
  | some p => unlink t (t.pBucketidx p) p

def removeAll (t : GhtTable δ) : GhtTable δ :=
  { t with toGhtHashTable := ghtRemoveAll t.toGhtHashTable, fnFreed := t.fnFreed ++ chainedEntries t.toGhtHashTable }

/-- The entries that are freed when `ght_finalize` returns. -/
def finalize (t : GhtTable δ) : List Nat := t.fnFreed ++ chainedEntries t.toGhtHashTable

def setRehash (t : GhtTable δ) (bRehash : Bool) : GhtTable δ := { t with iAutomaticRehash := bRehash }

def setHeuristics (t : GhtTable δ) (iHeuristics : UInt32) : GhtTable δ := { t with iHeuristics := iHeuristics }

def setBoundedBuckets (t : GhtTable δ) (limit : Nat) : GhtTable δ := { t with bucketLimit := limit }

end GhtTable

structure GhtIterator where
  pEntry : Option Nat
  pNext : Option Nat
  deriving DecidableEq

namespace GhtTable

/-- The iterator at `p`, the datum that is returned and the key through the out parameters. -/
def iterateAt (t : GhtTable δ) : Option Nat → GhtIterator × Option δ × Option Bytes
  | some p => (⟨some p, t.pNewer p⟩, t.datum p, some (t.key p))
  | none => (⟨none, none⟩, none, none)

def firstKeysize (t : GhtTable δ) : GhtIterator × Option δ × Option Bytes := t.iterateAt t.pOldest

def nextKeysize (t : GhtTable δ) (it : GhtIterator) : GhtIterator × Option δ × Option Bytes := t.iterateAt it.pNext

end GhtTable

/-- A call of the table. -/
inductive TableCall (δ : Type) where
  | insert (data : Option δ) (key : Bytes)
  | get (key : Bytes)
  | replace (data : Option δ) (key : Bytes)
  | remove (key : Bytes)
  | removeFirst
  | removeAll
  | rehash (iSize : Nat)
  | setRehash (bRehash : Bool)
  | setHeuristics (iHeuristics : UInt32)
  | setBoundedBuckets (limit : Nat)
  | size
  | tableSize

inductive TableReturn (δ : Type) where
  | status (s : Int)
  | datum (p : Option δ)
  | count (n : Nat)
  | void
  deriving DecidableEq

namespace GhtTable

def call (t : GhtTable δ) : TableCall δ → GhtTable δ × TableReturn δ
  | .insert data key => ((t.insert data key).1, .status (t.insert data key).2)
  | .get key => ((t.get key).1, .datum (t.get key).2)
  | .replace data key => ((t.replace data key).1, .datum (t.replace data key).2)
  | .remove key => ((t.remove key).1, .datum (t.remove key).2)
  | .removeFirst => (t.removeFirst.1, .datum t.removeFirst.2)
  | .removeAll => (t.removeAll, .void)
  | .rehash iSize => (t.rehash iSize, .void)
  | .setRehash bRehash => (t.setRehash bRehash, .void)
  | .setHeuristics iHeuristics => (t.setHeuristics iHeuristics, .void)
  | .setBoundedBuckets limit => (t.setBoundedBuckets limit, .void)
  | .size => (t, .count t.iItems)
  | .tableSize => (t, .count t.iSize)

/-- The table after the calls, and what they returned. -/
def run (t : GhtTable δ) : List (TableCall δ) → GhtTable δ × List (TableReturn δ)
  | [] => (t, [])
  | c :: cs =>
    let r := run (t.call c).1 cs
    (r.1, (t.call c).2 :: r.2)

end GhtTable

/-- What a step of an iteration came to: the iterator, the table it was moved on, the datum and the key. -/
structure GhtVisit (δ : Type) where
  table : GhtTable δ
  iterator : GhtIterator
  datum : Option δ
  key : Option Bytes

namespace GhtTable

def visitAt (t : GhtTable δ) (r : GhtIterator × Option δ × Option Bytes) : GhtVisit δ := ⟨t, r.1, r.2.1, r.2.2⟩

/-- `ght_next` after each list of calls. -/
def visitNext (t : GhtTable δ) (it : GhtIterator) : List (List (TableCall δ)) → List (GhtVisit δ)
  | [] => []
  | cs :: rest =>
    let t := (t.run cs).1
    let r := t.nextKeysize it
    t.visitAt r :: visitNext t r.1 rest

/-- An iteration: `ght_first`, and `ght_next` after each list of calls. -/
def visits (t : GhtTable δ) (calls : List (List (TableCall δ))) : List (GhtVisit δ) :=
  t.visitAt t.firstKeysize :: visitNext t t.firstKeysize.1 calls

end GhtTable

end UnfsClient
