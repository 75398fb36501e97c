import Mathlib

/-!
# Bytes and machine integers

Big-endian and little-endian words over byte lists, `memcpy` into a block, and the
conversions between the integer types of an LP64 machine.
-/

namespace UnfsClient.Lib

abbrev Bytes := List UInt8

/-- The word whose big-endian bytes are `b₀ b₁ b₂ b₃`, which is what `ntohl` reads. -/
def beWord (b₀ b₁ b₂ b₃ : UInt8) : UInt32 :=
  UInt32.ofNat (b₀.toNat * 2 ^ 24 + b₁.toNat * 2 ^ 16 + b₂.toNat * 2 ^ 8 + b₃.toNat)

def beBytes (w : UInt32) : Bytes :=
  [UInt8.ofNat (w.toNat / 2 ^ 24), UInt8.ofNat (w.toNat / 2 ^ 16), UInt8.ofNat (w.toNat / 2 ^ 8),
    UInt8.ofNat w.toNat]

/-- The bytes of a word as a little-endian host stores it. -/
def leBytes (w : UInt32) : Bytes := (beBytes w).reverse

/-- `ntohl` on a little-endian host. -/
def byteSwap (w : UInt32) : UInt32 :=
  beWord (UInt8.ofNat w.toNat) (UInt8.ofNat (w.toNat / 2 ^ 8)) (UInt8.ofNat (w.toNat / 2 ^ 16))
    (UInt8.ofNat (w.toNat / 2 ^ 24))

/-- `memcpy(dst + off, src, src.length)`. -/
def memcpy {α : Type} (dst : List α) (off : Nat) (src : List α) : List α :=
  dst.take off ++ src ++ dst.drop (off + src.length)

/-- Conversion to `int`. -/
def cInt (x : Int) : Int := Int.bmod x (2 ^ 32)

/-- Conversion to `long`. -/
def cLong (x : Int) : Int := Int.bmod x (2 ^ 64)

/-- Conversion to `u_long`. -/
def cUlong (x : Int) : Nat := (x % 2 ^ 64).toNat

@[simp] lemma beBytes_length (w : UInt32) : (beBytes w).length = 4 := rfl

lemma beWord_toNat (b₀ b₁ b₂ b₃ : UInt8) : (beWord b₀ b₁ b₂ b₃).toNat =
    b₀.toNat * 2 ^ 24 + b₁.toNat * 2 ^ 16 + b₂.toNat * 2 ^ 8 + b₃.toNat := by
  have h₀ := b₀.toNat_lt
  have h₁ := b₁.toNat_lt
  have h₂ := b₂.toNat_lt
  have h₃ := b₃.toNat_lt
  rw [beWord, UInt32.toNat_ofNat']
  omega

/-- Reading back the bytes of a word gives the word. -/
lemma beWord_beBytes (w : UInt32) :
    beWord (UInt8.ofNat (w.toNat / 2 ^ 24)) (UInt8.ofNat (w.toNat / 2 ^ 16))
      (UInt8.ofNat (w.toNat / 2 ^ 8)) (UInt8.ofNat w.toNat) = w := by
  have hw := w.toNat_lt
  apply UInt32.toNat_inj.mp
  rw [beWord_toNat]
  simp only [UInt8.toNat_ofNat']
  omega

lemma beBytes_beWord (b₀ b₁ b₂ b₃ : UInt8) : beBytes (beWord b₀ b₁ b₂ b₃) = [b₀, b₁, b₂, b₃] := by
  have h₀ := b₀.toNat_lt
  have h₁ := b₁.toNat_lt
  have h₂ := b₂.toNat_lt
  have h₃ := b₃.toNat_lt
  have hb : ∀ (b : UInt8) (n : Nat), n % 2 ^ 8 = b.toNat → UInt8.ofNat n = b := by
    intro b n h
    apply UInt8.toNat_inj.mp
    rw [UInt8.toNat_ofNat', h]
  rw [beBytes, beWord_toNat, hb b₀ _ (by omega), hb b₁ _ (by omega), hb b₂ _ (by omega),
    hb b₃ _ (by omega)]

lemma beBytes_injective : Function.Injective beBytes := by
  intro v w h
  simp only [beBytes, List.cons.injEq, and_true] at h
  obtain ⟨h₀, h₁, h₂, h₃⟩ := h
  rw [← beWord_beBytes v, ← beWord_beBytes w, h₀, h₁, h₂, h₃]

lemma leBytes_injective : Function.Injective leBytes := by
  intro v w h
  exact beBytes_injective (List.reverse_injective h)

lemma leBytes_eq_beBytes_byteSwap (w : UInt32) : leBytes w = beBytes (byteSwap w) := by
  rw [byteSwap, beBytes_beWord]
  rfl

@[simp] lemma byteSwap_byteSwap (w : UInt32) : byteSwap (byteSwap w) = w := by
  apply beBytes_injective
  rw [← leBytes_eq_beBytes_byteSwap, leBytes, ← leBytes_eq_beBytes_byteSwap, leBytes,
    List.reverse_reverse]

lemma byteSwap_injective : Function.Injective byteSwap :=
  Function.LeftInverse.injective byteSwap_byteSwap

@[simp] lemma memcpy_append_end {α : Type} (dst src : List α) :
    memcpy dst dst.length src = dst ++ src := by
  simp [memcpy]

lemma memcpy_zero {α : Type} (dst src : List α) :
    memcpy dst 0 src = src ++ dst.drop src.length := by
  simp [memcpy]

lemma cInt_of_range {x : Int} (h₁ : -2 ^ 31 ≤ x) (h₂ : x < 2 ^ 31) : cInt x = x := by
  unfold cInt
  exact Int.bmod_eq_of_le (by norm_num; omega) (by norm_num; omega)

lemma cLong_of_range {x : Int} (h₁ : -2 ^ 63 ≤ x) (h₂ : x < 2 ^ 63) : cLong x = x := by
  unfold cLong
  exact Int.bmod_eq_of_le (by norm_num; omega) (by norm_num; omega)

lemma cUlong_of_range {n : Nat} (h : n < 2 ^ 64) : cUlong n = n := by
  unfold cUlong
  rw [Int.emod_eq_of_lt (by omega) (by exact_mod_cast h)]
  rfl

end UnfsClient.Lib
