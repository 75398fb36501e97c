import UnfsClient.Lib.Bytes

/-!
# The record marking standard, one byte at a time

A record is a sequence of fragments, each a four-byte marker followed by its payload. The
machine below reads a stream byte by byte, so that it cannot see how the stream was cut;
`feed` runs it over a byte string and returns the records completed on the way, each as the
list of its payloads.
-/

namespace UnfsClient.Lib.RecordMarking

open Lib

def markerWord : Bytes → UInt32
  | [b₀, b₁, b₂, b₃] => beWord b₀ b₁ b₂ b₃
  | _ => 0

/-- The low 31 bits of a marker. -/
def markerSize (hdr : Bytes) : Nat := (markerWord hdr &&& 0x7fffffff).toNat

/-- The high bit of a marker. -/
def markerLast (hdr : Bytes) : Bool := (markerWord hdr &&& 0x80000000) != 0

inductive Cursor where
  | marker (got : Bytes)
  | payload (hdr got : Bytes)
  deriving DecidableEq, Repr

structure Stream where
  frags : List Bytes
  cursor : Cursor
  deriving DecidableEq, Repr

/-- The start of a record. -/
def fresh : Stream := ⟨[], .marker []⟩

/-- A fragment has all of its payload. -/
def closeFragment (frags : List Bytes) (hdr got : Bytes) : Stream × List (List Bytes) :=
  if markerLast hdr then (fresh, [frags ++ [got]]) else (⟨frags ++ [got], .marker []⟩, [])

def putMarker (frags : List Bytes) (got : Bytes) : Stream :=
  if got.length = 4 then ⟨frags, .payload got []⟩ else ⟨frags, .marker got⟩

/-- An empty fragment is closed by the byte that follows its marker. -/
def step (s : Stream) (b : UInt8) : Stream × List (List Bytes) :=
  match s.cursor with
  | .marker got => (putMarker s.frags (got ++ [b]), [])
  | .payload hdr got =>
    if got.length < markerSize hdr then
      if got.length + 1 = markerSize hdr then closeFragment s.frags hdr (got ++ [b])
      else (⟨s.frags, .payload hdr (got ++ [b])⟩, [])
    else
      let r := closeFragment s.frags hdr got
      (putMarker r.1.frags [b], r.2)

def feed (s : Stream) : Bytes → Stream × List (List Bytes)
  | [] => (s, [])
  | b :: bs =>
    let r := step s b
    let t := feed r.1 bs
    (t.1, r.2 ++ t.2)

/-- Between two bytes of a marker. -/
def MidMarker (s : Stream) : Prop := ∃ got, s.cursor = .marker got ∧ got ≠ []

instance (s : Stream) : Decidable (MidMarker s) :=
  match h : s.cursor with
  | .marker got =>
    if hg : got = [] then isFalse (by rintro ⟨g, hc, hne⟩; rw [h] at hc; cases hc; exact hne hg)
    else isTrue ⟨got, h, hg⟩
  | .payload _ _ => isFalse (by rintro ⟨g, hc, -⟩; rw [h] at hc; cases hc)

/-- No boundary between two of the buffers falls strictly inside a marker. -/
def NoMarkerCut (s : Stream) : List Bytes → Prop
  | [] => True
  | [_] => True
  | b :: b' :: bs => ¬MidMarker (feed s b).1 ∧ NoMarkerCut (feed s b).1 (b' :: bs)

instance : (s : Stream) → (bs : List Bytes) → Decidable (NoMarkerCut s bs)
  | _, [] => isTrue trivial
  | _, [_] => isTrue trivial
  | s, b :: b' :: bs =>
    have := instDecidableNoMarkerCut (feed s b).1 (b' :: bs)
    inferInstanceAs (Decidable (_ ∧ _))

/-- The last byte was the last of the marker of an empty fragment. -/
def AtEmptyFragment (s : Stream) : Prop := ∃ hdr, s.cursor = .payload hdr [] ∧ markerSize hdr = 0

instance (s : Stream) : Decidable (AtEmptyFragment s) :=
  match h : s.cursor with
  | .marker _ => isFalse (by rintro ⟨hdr, hc, -⟩; rw [h] at hc; cases hc)
  | .payload hdr got =>
    if hg : got = [] ∧ markerSize hdr = 0 then isTrue ⟨hdr, by rw [h, hg.1], hg.2⟩
    else isFalse (by rintro ⟨hdr', hc, hs⟩; rw [h] at hc; cases hc; exact hg ⟨rfl, hs⟩)

lemma feed_append (s : Stream) (a b : Bytes) :
    feed s (a ++ b) = ((feed (feed s a).1 b).1, (feed s a).2 ++ (feed (feed s a).1 b).2) := by
  induction a generalizing s with
  | nil => simp [feed]
  | cons x a ih => simp only [List.cons_append, feed, ih, List.append_assoc]

/-- Payload bytes that do not complete the fragment. -/
lemma feed_payload_partial (frags : List Bytes) (hdr got bs : Bytes)
    (h : got.length + bs.length < markerSize hdr) :
    feed ⟨frags, .payload hdr got⟩ bs = (⟨frags, .payload hdr (got ++ bs)⟩, []) := by
  induction bs generalizing got with
  | nil => simp [feed]
  | cons b bs ih =>
    simp only [List.length_cons] at h
    have hstep : step ⟨frags, .payload hdr got⟩ b = (⟨frags, .payload hdr (got ++ [b])⟩, []) := by
      simp only [step]
      rw [if_pos (by omega), if_neg (by omega)]
    rw [feed, hstep, ih (got ++ [b]) (by simp only [List.length_append, List.length_singleton]; omega)]
    simp

/-- The last bytes of a non-empty fragment close it. -/
lemma feed_payload_complete (frags : List Bytes) (hdr got bs : Bytes) (hne : bs ≠ [])
    (h : got.length + bs.length = markerSize hdr) :
    feed ⟨frags, .payload hdr got⟩ bs = closeFragment frags hdr (got ++ bs) := by
  obtain ⟨init, b, rfl⟩ := List.eq_nil_or_concat bs |>.resolve_left hne
  simp only [List.concat_eq_append, List.length_append, List.length_singleton] at h ⊢
  rw [feed_append, feed_payload_partial frags hdr got init (by omega)]
  have hstep : step ⟨frags, .payload hdr (got ++ init)⟩ b =
      closeFragment frags hdr (got ++ init ++ [b]) := by
    simp only [step, List.length_append]
    rw [if_pos (by omega), if_pos (by omega)]
  simp [feed, hstep]

/-- A fragment that already has its payload is closed first, whatever follows. -/
lemma feed_payload_pending (frags : List Bytes) (hdr got bs : Bytes) (hne : bs ≠ [])
    (h : markerSize hdr ≤ got.length) :
    feed ⟨frags, .payload hdr got⟩ bs =
      ((feed (closeFragment frags hdr got).1 bs).1,
        (closeFragment frags hdr got).2 ++ (feed (closeFragment frags hdr got).1 bs).2) := by
  cases bs with
  | nil => exact absurd rfl hne
  | cons b bs =>
    have hcur : (closeFragment frags hdr got).1.cursor = .marker [] := by
      unfold closeFragment
      split <;> rfl
    have hstep : step ⟨frags, .payload hdr got⟩ b =
        (putMarker (closeFragment frags hdr got).1.frags [b], (closeFragment frags hdr got).2) := by
      simp only [step]
      rw [if_neg (by omega)]
    simp only [feed, hstep]
    simp [step, hcur]

/-- A byte after which a new record is expected has completed one. -/
lemma step_fresh {s : Stream} {b : UInt8} (h : (step s b).1 = fresh) : (step s b).2 ≠ [] := by
  have hput : ∀ frags got, got ≠ [] → putMarker frags got ≠ fresh := by
    intro frags got hne heq
    unfold putMarker at heq
    split at heq <;> cases heq
    exact hne rfl
  have hclose : ∀ frags hdr got, (closeFragment frags hdr got).1 = fresh → (closeFragment frags hdr got).2 ≠ [] := by
    intro frags hdr got heq
    unfold closeFragment at heq ⊢
    split
    · simp
    · rename_i hlast
      rw [if_neg hlast] at heq
      have hfrags := congrArg Stream.frags heq
      simp [fresh] at hfrags
  unfold step at h ⊢
  cases hcur : s.cursor with
  | marker got =>
    rw [hcur] at h
    exact absurd h (hput _ _ (by simp))
  | payload hdr got =>
    rw [hcur] at h
    dsimp only at h ⊢
    split
    · rename_i hlt
      rw [if_pos hlt] at h
      split
      · rename_i heq
        rw [if_pos heq] at h
        exact hclose _ _ _ h
      · rename_i hne
        rw [if_neg hne] at h
        exact absurd (congrArg Stream.cursor h) (by simp [fresh])
    · rename_i hlt
      rw [if_neg hlt] at h
      exact absurd h (hput _ [b] (by simp))

lemma feed_fresh {s : Stream} {bs : Bytes} (hne : bs ≠ []) (h : (feed s bs).1 = fresh) : (feed s bs).2 ≠ [] := by
  obtain ⟨init, b, rfl⟩ := (List.eq_nil_or_concat bs).resolve_left hne
  rw [List.concat_eq_append, feed_append] at h ⊢
  have hstep : (step (feed s init).1 b).2 ≠ [] := step_fresh h
  simp [feed, hstep]

/-- A fragment that is not empty is closed with its last byte. -/
lemma step_open {s : Stream} {b : UInt8} {hdr got : Bytes} (h : (step s b).1.cursor = .payload hdr got) :
    got = [] ∨ got.length < markerSize hdr := by
  have hput : ∀ frags m, (putMarker frags m).cursor = .payload hdr got → got = [] := by
    intro frags m hm
    unfold putMarker at hm
    split at hm <;> cases hm
    rfl
  have hclose : ∀ frags hdr' p, (closeFragment frags hdr' p).1.cursor = .payload hdr got → False := by
    intro frags hdr' p hc
    unfold closeFragment at hc
    split at hc <;> cases hc
  unfold step at h
  cases hcur : s.cursor with
  | marker m =>
    rw [hcur] at h
    exact Or.inl (hput _ _ h)
  | payload hdr' got' =>
    rw [hcur] at h
    dsimp only at h
    split at h
    · split at h
      · exact (hclose _ _ _ h).elim
      · cases h
        right
        rw [List.length_append, List.length_singleton]
        omega
    · exact Or.inl (hput _ _ h)

lemma feed_open {bs hdr got : Bytes} (h : (feed fresh bs).1.cursor = .payload hdr got) :
    got = [] ∨ got.length < markerSize hdr := by
  by_cases hnil : bs = []
  · subst hnil
    cases h
  obtain ⟨init, b, rfl⟩ := (List.eq_nil_or_concat bs).resolve_left hnil
  rw [List.concat_eq_append, feed_append] at h
  exact step_open h

/-- Bytes of a marker, up to all four of them. -/
lemma feed_marker (frags : List Bytes) (got bs : Bytes) (h : got.length < 4)
    (hb : got.length + bs.length ≤ 4) :
    feed ⟨frags, .marker got⟩ bs = (putMarker frags (got ++ bs), []) := by
  induction bs generalizing got with
  | nil => simp [feed, putMarker, Nat.ne_of_lt h]
  | cons b bs ih =>
    simp only [List.length_cons] at hb
    by_cases hg : got.length + 1 = 4
    · have hbs : bs = [] := List.length_eq_zero_iff.mp (by omega)
      subst hbs
      simp [feed, step]
    · have hput : putMarker frags (got ++ [b]) = ⟨frags, .marker (got ++ [b])⟩ := by
        simp [putMarker, hg]
      simp only [feed, step, hput]
      rw [ih (got ++ [b]) (by simp only [List.length_append, List.length_singleton]; omega)
        (by simp only [List.length_append, List.length_singleton]; omega)]
      simp

lemma noMarkerCut_tail {s : Stream} {b : Bytes} {bs : List Bytes} (h : NoMarkerCut s (b :: bs)) :
    NoMarkerCut (feed s b).1 bs := by
  cases bs with
  | nil => trivial
  | cons b' bs => exact h.2

lemma noMarkerCut_head {s : Stream} {b : Bytes} {bs : List Bytes} (h : NoMarkerCut s (b :: bs))
    (hne : bs ≠ []) : ¬MidMarker (feed s b).1 := by
  cases bs with
  | nil => exact absurd rfl hne
  | cons b' bs => exact h.1

lemma noMarkerCut_concat {s : Stream} {bs : List Bytes} {b : Bytes} (hs : ¬MidMarker s)
    (h : NoMarkerCut s (bs ++ [b])) : NoMarkerCut s bs ∧ ¬MidMarker (feed s bs.flatten).1 := by
  induction bs generalizing s with
  | nil => exact ⟨trivial, hs⟩
  | cons a bs ih =>
    have hmid := noMarkerCut_head h (by simp)
    obtain ⟨hcut, hend⟩ := ih hmid (noMarkerCut_tail h)
    refine ⟨?_, ?_⟩
    · cases bs with
      | nil => trivial
      | cons a' bs => exact ⟨hmid, hcut⟩
    · rw [List.flatten_cons, feed_append]
      exact hend

/-! ## Sizes -/

lemma markerSize_lt (hdr : Bytes) : markerSize hdr < 2 ^ 31 := by
  unfold markerSize
  rw [UInt32.toNat_and]
  exact Nat.lt_of_le_of_lt Nat.and_le_right (by decide)

/-- No payload is longer than its marker can say. -/
structure Sized (s : Stream) : Prop where
  frags : ∀ p ∈ s.frags, p.length < 2 ^ 31
  payload : ∀ hdr got, s.cursor = .payload hdr got → got.length ≤ markerSize hdr

lemma sized_fresh : Sized fresh := ⟨by simp [fresh], by simp [fresh]⟩

lemma putMarker_sized {frags : List Bytes} (h : ∀ p ∈ frags, p.length < 2 ^ 31) (got : Bytes) :
    Sized (putMarker frags got) := by
  unfold putMarker
  split
  · refine ⟨h, ?_⟩
    intro hdr got' heq
    cases heq
    exact Nat.zero_le _
  · exact ⟨h, by simp⟩

lemma closeFragment_sized {frags : List Bytes} (h : ∀ p ∈ frags, p.length < 2 ^ 31) {hdr got : Bytes}
    (hgot : got.length ≤ markerSize hdr) : Sized (closeFragment frags hdr got).1 ∧
      ∀ r ∈ (closeFragment frags hdr got).2, ∀ p ∈ r, p.length < 2 ^ 31 := by
  have hall : ∀ p ∈ frags ++ [got], p.length < 2 ^ 31 := by
    intro p hp
    rcases List.mem_append.mp hp with hp | hp
    · exact h p hp
    · rw [List.mem_singleton.mp hp]
      exact hgot.trans_lt (markerSize_lt hdr)
  unfold closeFragment
  split
  · exact ⟨sized_fresh, by simpa using hall⟩
  · exact ⟨⟨hall, by simp⟩, by simp⟩

lemma step_sized {s : Stream} (h : Sized s) (b : UInt8) :
    Sized (step s b).1 ∧ ∀ r ∈ (step s b).2, ∀ p ∈ r, p.length < 2 ^ 31 := by
  unfold step
  cases hcur : s.cursor with
  | marker got => exact ⟨putMarker_sized h.frags _, by simp⟩
  | payload hdr got =>
    have hgot := h.payload hdr got hcur
    dsimp only
    split
    · split
      · exact closeFragment_sized h.frags (by rw [List.length_append, List.length_singleton]; omega)
      · refine ⟨⟨h.frags, ?_⟩, by simp⟩
        intro hdr' got' heq
        cases heq
        rw [List.length_append, List.length_singleton]
        omega
    · obtain ⟨hsized, hrecs⟩ := closeFragment_sized h.frags hgot
      exact ⟨putMarker_sized hsized.frags [b], hrecs⟩

lemma feed_sized {s : Stream} (h : Sized s) (bs : Bytes) :
    ∀ r ∈ (feed s bs).2, ∀ p ∈ r, p.length < 2 ^ 31 := by
  induction bs generalizing s with
  | nil => simp [feed]
  | cons b bs ih =>
    obtain ⟨hsized, hrecs⟩ := step_sized h b
    intro r hr
    rcases List.mem_append.mp hr with hr | hr
    · exact hrecs r hr
    · exact ih hsized r hr

/-! ## Encoding -/

def encodeFragment (last : Bool) (p : Bytes) : Bytes :=
  beBytes (UInt32.ofNat p.length ||| if last then 0x80000000 else 0) ++ p

/-- All fragments but the last are marked as such. -/
def encodeRecord : List Bytes → Bytes
  | [] => []
  | [p] => encodeFragment true p
  | p :: q :: ps => encodeFragment false p ++ encodeRecord (q :: ps)

def encodeRecords (recs : List (List Bytes)) : Bytes := recs.flatMap encodeRecord

lemma markerWord_beBytes (w : UInt32) : markerWord (beBytes w) = w := beWord_beBytes w

lemma flagged_toNat (last : Bool) {n : Nat} (hn : n < 2 ^ 31) :
    (UInt32.ofNat n ||| if last then 0x80000000 else 0).toNat = (if last then 2 ^ 31 else 0) + n := by
  have hsmall : (UInt32.ofNat n).toNat = n := by
    rw [UInt32.toNat_ofNat']
    omega
  cases last with
  | false => simp [hsmall]
  | true =>
    have hor := Nat.two_pow_add_eq_or_of_lt hn 1
    rw [UInt32.toNat_or, hsmall, if_pos rfl, if_pos rfl, Nat.or_comm]
    simpa using hor.symm

lemma markerSize_encode (last : Bool) {n : Nat} (hn : n < 2 ^ 31) :
    markerSize (beBytes (UInt32.ofNat n ||| if last then 0x80000000 else 0)) = n := by
  unfold markerSize
  rw [markerWord_beBytes, UInt32.toNat_and, flagged_toNat last hn]
  change _ &&& (2 ^ 31 - 1) = n
  rw [Nat.and_two_pow_sub_one_eq_mod]
  split <;> omega

lemma markerLast_encode (last : Bool) {n : Nat} (hn : n < 2 ^ 31) :
    markerLast (beBytes (UInt32.ofNat n ||| if last then 0x80000000 else 0)) = last := by
  have hbit : (markerWord (beBytes (UInt32.ofNat n ||| if last then 0x80000000 else 0)) &&&
      0x80000000).toNat = last.toNat * 2 ^ 31 := by
    rw [markerWord_beBytes, UInt32.toNat_and, flagged_toNat last hn]
    change _ &&& 2 ^ 31 = _
    rw [Nat.and_two_pow, Nat.testBit_eq_decide_div_mod_eq]
    cases last <;> simp <;> omega
  unfold markerLast
  cases last with
  | false =>
    rw [bne_eq_false_iff_eq, ← UInt32.toNat_inj]
    exact hbit
  | true =>
    apply bne_iff_ne.mpr
    intro hzero
    rw [hzero] at hbit
    exact absurd hbit (by decide)

/-- A whole fragment at the start of what is fed. -/
lemma feed_fragment (frags : List Bytes) (last : Bool) (p rest : Bytes) (hp : p.length < 2 ^ 31)
    (hne : p ≠ [] ∨ rest ≠ []) :
    feed ⟨frags, .marker []⟩ (encodeFragment last p ++ rest) =
      let s := if last then fresh else ⟨frags ++ [p], .marker []⟩
      ((feed s rest).1, (if last then [frags ++ [p]] else []) ++ (feed s rest).2) := by
  have hsize := markerSize_encode last hp
  have hlast := markerLast_encode last hp
  have hlen := beBytes_length (UInt32.ofNat p.length ||| if last then 0x80000000 else 0)
  unfold encodeFragment
  generalize beBytes (UInt32.ofNat p.length ||| if last then 0x80000000 else 0) = hdr at hsize hlast hlen ⊢
  have hclose : closeFragment frags hdr p =
      (if last then fresh else ⟨frags ++ [p], .marker []⟩, if last then [frags ++ [p]] else []) := by
    unfold closeFragment
    rw [hlast]
    cases last <;> rfl
  have hmarker : feed ⟨frags, .marker []⟩ hdr = (⟨frags, .payload hdr []⟩, []) := by
    rw [feed_marker frags [] hdr (by decide) (by simp [hlen])]
    simp [putMarker, hlen]
  rw [List.append_assoc, feed_append, hmarker]
  by_cases hnil : p = []
  · subst hnil
    rw [List.nil_append, feed_payload_pending frags hdr [] rest (hne.resolve_left (by simp)) (by rw [hsize]),
      hclose]
    rfl
  · rw [feed_append, feed_payload_complete frags hdr [] p hnil (by simp [hsize]), List.nil_append, hclose]
    rfl

lemma encodeRecord_ne_nil {r : List Bytes} (hr : r ≠ []) : encodeRecord r ≠ [] := by
  cases r with
  | nil => exact absurd rfl hr
  | cons p ps => cases ps <;> simp [encodeRecord, encodeFragment, beBytes]

/-- A whole record at the start of what is fed. -/
lemma feed_record (frags r : List Bytes) (rest : Bytes) (hr : r ≠ []) (hlen : ∀ p ∈ r, p.length < 2 ^ 31)
    (hne : r.getLast? ≠ some [] ∨ rest ≠ []) :
    feed ⟨frags, .marker []⟩ (encodeRecord r ++ rest) =
      ((feed fresh rest).1, (frags ++ r) :: (feed fresh rest).2) := by
  induction r generalizing frags with
  | nil => exact absurd rfl hr
  | cons p ps ih =>
    have hp := hlen p (by simp)
    cases ps with
    | nil =>
      rw [encodeRecord, feed_fragment frags true p rest hp (by simpa using hne)]
      rfl
    | cons q qs =>
      have hcons : encodeRecord (q :: qs) ++ rest ≠ [] := by
        simp [encodeRecord_ne_nil (List.cons_ne_nil q qs)]
      rw [encodeRecord, List.append_assoc, feed_fragment frags false p _ hp (Or.inr hcons)]
      simp only [Bool.false_eq_true, if_false, List.nil_append]
      rw [ih (frags ++ [p]) (by simp) (fun x hx => hlen x (by simp [hx])) (by simpa using hne)]
      simp

/-- A record that ends with an empty fragment stays open at the end of the stream. -/
lemma feed_record_open (frags r : List Bytes) (hlen : ∀ p ∈ r, p.length < 2 ^ 31)
    (hlast : r.getLast? = some []) : (feed ⟨frags, .marker []⟩ (encodeRecord r)).2 = [] ∧
      AtEmptyFragment (feed ⟨frags, .marker []⟩ (encodeRecord r)).1 := by
  induction r generalizing frags with
  | nil => cases hlast
  | cons p ps ih =>
    cases ps with
    | nil =>
      have hp : p = [] := by simpa using hlast
      subst hp
      rw [encodeRecord, encodeFragment, List.append_nil, feed_marker frags [] _ (by decide) (by simp)]
      refine ⟨rfl, _, ?_, markerSize_encode true (n := 0) (by decide)⟩
      simp [putMarker]
    | cons q qs =>
      have hcons := encodeRecord_ne_nil (List.cons_ne_nil q qs)
      rw [encodeRecord, feed_fragment frags false p _ (hlen p (by simp)) (Or.inr hcons)]
      simp only [Bool.false_eq_true, if_false, List.nil_append]
      exact ih (frags ++ [p]) (fun x hx => hlen x (by simp [hx])) (by simpa using hlast)

/-- The records of a stream of records. -/
lemma feed_records (recs : List (List Bytes)) (hrec : ∀ r ∈ recs, r ≠ [])
    (hlen : ∀ r ∈ recs, ∀ p ∈ r, p.length < 2 ^ 31) :
    feed fresh (encodeRecords recs) = (fresh, recs) ∨
      ∃ init r, recs = init ++ [r] ∧ r.getLast? = some [] ∧ (feed fresh (encodeRecords recs)).2 = init ∧
        AtEmptyFragment (feed fresh (encodeRecords recs)).1 := by
  induction recs with
  | nil => exact Or.inl rfl
  | cons r recs ih =>
    have hr := hrec r (by simp)
    have hrl := hlen r (by simp)
    have hsplit : encodeRecords (r :: recs) = encodeRecord r ++ encodeRecords recs := by
      simp [encodeRecords]
    by_cases hopen : recs = [] ∧ r.getLast? = some []
    · refine Or.inr ⟨[], r, by simp [hopen.1], hopen.2, ?_⟩
      rw [hsplit, hopen.1]
      simpa [encodeRecords, fresh] using feed_record_open [] r hrl hopen.2
    · have hne : r.getLast? ≠ some [] ∨ encodeRecords recs ≠ [] := by
        by_cases hnil : recs = []
        · exact Or.inl fun h => hopen ⟨hnil, h⟩
        · obtain ⟨r', recs', rfl⟩ := List.exists_cons_of_ne_nil hnil
          exact Or.inr (by simp [encodeRecords, encodeRecord_ne_nil (hrec r' (by simp))])
      have hfeed : feed fresh (encodeRecords (r :: recs)) =
          ((feed fresh (encodeRecords recs)).1, r :: (feed fresh (encodeRecords recs)).2) := by
        rw [hsplit, fresh, feed_record [] r _ hr hrl hne]
        rfl
      rw [hfeed]
      rcases ih (fun x hx => hrec x (by simp [hx])) (fun x hx => hlen x (by simp [hx])) with
        hall | ⟨init, r', hrecs, hr', hinit, hempty⟩
      · exact Or.inl (by rw [hall])
      · exact Or.inr ⟨r :: init, r', by rw [hrecs]; rfl, hr', by rw [hinit], hempty⟩

end UnfsClient.Lib.RecordMarking
