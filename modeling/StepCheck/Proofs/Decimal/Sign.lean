import StepCheck.Decimal.Binary64
import Mathlib

/-!
# Floating-point numbers that are not negative

Times are refused if they are negative or no numbers, so wherever a run announces or reports a time,
the comparison `0 ≤ x` has to come out true. This module says what the comparison means for the
number itself and which operations keep it.

* `NonNegative` — the numbers that pass: zero of either sign, the positive ones and the positive
  infinity;
* `zero_le_iff` — the comparison is that predicate;
* `zero_le_mul`, `zero_le_div` — products with and quotients by a positive finite number;
* `zero_le_roundedTo` — rounding to decimal places.

Packing a number into its bits may round it to infinity, so the numbers are never followed through
exactly. All that is followed is the sign and that the result is a number
(`nonNegative_unpack_pack`).
-/

open Float.Model Float.Model.UnpackedFloat

namespace StepCheck.Binary64

/-! ### What the comparison means -/

/-- **Not negative**: zero of either sign, a positive number, or the positive infinity. -/
def NonNegative : UnpackedFloat → Prop
  | .infinity s => s = .positive
  | .notANumber => False
  | .zero _ => True
  | .finite s _ _ _ => s = .positive

/-- **The three kinds** of such numbers. -/
theorem NonNegative.cases {u : UnpackedFloat} (h : NonNegative u) :
    u = .infinity .positive ∨ (∃ s, u = .zero s) ∨ ∃ m e hm, u = .finite .positive m e hm := by
  cases u with
  | infinity s => exact .inl (congrArg UnpackedFloat.infinity h)
  | notANumber => exact absurd h id
  | zero s => exact .inr (.inl ⟨s, rfl⟩)
  | finite s m e hm =>
    obtain rfl : s = .positive := h
    exact .inr (.inr ⟨m, e, hm, rfl⟩)

/-- Numbers are compared as they are unpacked. -/
theorem le_iff (x y : Float) : x ≤ y ↔ x.toModel.unpack.le y.toModel.unpack = true := by
  change decide (x.toModel ≤ y.toModel) = true ↔ _
  rw [decide_eq_true_iff]
  rfl

theorem lt_iff (x y : Float) : x < y ↔ x.toModel.unpack.lt y.toModel.unpack = true := by
  change decide (x.toModel < y.toModel) = true ↔ _
  rw [decide_eq_true_iff]
  rfl

/-- **The comparison with zero** is the predicate on the number. -/
theorem zero_le_iff (x : Float) : 0 ≤ x ↔ NonNegative x.toModel.unpack := by
  rw [le_iff, show (0 : Float).toModel.unpack = .zero .positive from rfl]
  cases x.toModel.unpack with
  | infinity s => cases s <;> simp [UnpackedFloat.le, UnpackedFloat.compare, NonNegative]
  | notANumber => simp [UnpackedFloat.le, UnpackedFloat.compare, NonNegative]
  | zero s => simp [UnpackedFloat.le, UnpackedFloat.compare, NonNegative]
  | finite s m e hm => cases s <;> simp [UnpackedFloat.le, UnpackedFloat.compare, NonNegative]

/-- What is greater than a number that is not negative is not negative either. -/
theorem zero_le_of_lt {x y : Float} (hx : 0 ≤ x) (h : x < y) : 0 ≤ y := by
  rw [zero_le_iff] at hx ⊢
  rw [lt_iff] at h
  -- a comparison of constructors: none is below zero, or no number, and above `a` all the same
  generalize x.toModel.unpack = a at hx h
  generalize y.toModel.unpack = b at h
  rcases hx.cases with rfl | ⟨s, rfl⟩ | ⟨m, e, hm, rfl⟩ <;>
    rcases b with (_ | _) | _ | _ | ⟨_ | _, _, _, _⟩ <;>
    simp_all [UnpackedFloat.lt, UnpackedFloat.compare, NonNegative]

/-! ### Numbers put into bits and taken out again -/

/-- A sign bit of 0 gives a number that is not negative, unless the other bits spell out that it is
no number. -/
private theorem nonNegative_unpack {spec : Format} {b : BitVec spec.numBits}
    (hs : unpackSign b = 0#1) (h : unpackExponent b = -1#_ → unpackMantissa b = 0#_) :
    NonNegative (UnpackedFloat.unpack spec b) := by
  unfold UnpackedFloat.unpack
  dsimp only
  rw [hs]
  -- infinity, the numbers too small for the leading bit, and all others
  split
  · next he => rw [if_pos (h he)]; exact rfl
  · split
    · split
      · exact trivial
      · exact rfl
    · exact rfl

/-- Without a sign nothing negative is unpacked. -/
private theorem nonNegative_unpack_packComponents {spec : Format}
    {e : BitVec spec.exponentBits} {m : BitVec spec.mantissaBitsWithoutImplicit}
    (h : e = -1#_ → m = 0#_) :
    NonNegative (UnpackedFloat.unpack spec (packComponents spec .positive e m)) := by
  refine nonNegative_unpack (unpackSign_packComponents ..) ?_
  rwa [unpackExponent_packComponents, unpackMantissa_packComponents]

/-- A number that is not negative stays so in its bits, even where these can only hold infinity. -/
theorem nonNegative_unpack_pack {u : UnpackedFloat} (h : NonNegative u) :
    NonNegative (Float.Model.pack u).unpack := by
  change NonNegative (UnpackedFloat.unpack Format.binary64 (UnpackedFloat.pack Format.binary64 u))
  rcases h.cases with rfl | ⟨s, rfl⟩ | ⟨m, e, hm, rfl⟩
  · exact nonNegative_unpack_packComponents fun _ => rfl
  · change NonNegative (UnpackedFloat.unpack _ (packedZero _ s))
    rw [unpack_packedZero]
    exact trivial
  · unfold UnpackedFloat.pack
    dsimp only
    split
    · -- too large for the format, and so packed as infinity
      exact nonNegative_unpack_packComponents fun _ => rfl
    · next hfit =>
      split
      · -- the exponent field is below the one that is kept for infinity
        refine nonNegative_unpack_packComponents fun he => absurd he fun he => ?_
        have hv := congrArg BitVec.toNat he
        rw [BitVec.toNat_ofNat, Nat.mod_eq_of_lt (by omega)] at hv
        simp at hv
        omega
      · exact nonNegative_unpack_packComponents fun he => absurd he (by decide)

/-! ### Products and quotients -/

/-- **Positive and finite**, zero excluded. -/
def Positive : UnpackedFloat → Bool
  | .finite .positive _ _ _ => true
  | _ => false

/-- A positive number is finite. -/
private theorem exists_eq_of_positive {u : UnpackedFloat} (h : Positive u) :
    ∃ m e hm, u = .finite .positive m e hm := by
  rcases u with _ | _ | _ | ⟨_ | _, m, e, hm⟩
  case finite.positive => exact ⟨m, e, hm, rfl⟩
  all_goals exact absurd h (by simp [Positive])

/-- Rounding does not turn the sign around. -/
theorem nonNegative_roundWithAccuracy (spec : Format) (m : Nat) (e : Int) (a : Accuracy) :
    NonNegative (roundWithAccuracy spec .positive m e a) := by
  unfold roundWithAccuracy
  dsimp only
  split
  · exact trivial
  · exact rfl

/-- Products and quotients treat all but two finite numbers alike, and these have one sign. -/
private theorem nonNegative_mul_and_div {u v : UnpackedFloat} (hu : NonNegative u)
    (hv : Positive v) :
    NonNegative (UnpackedFloat.mul Format.binary64 u v) ∧
      NonNegative (UnpackedFloat.div Format.binary64 u v) := by
  obtain ⟨m, e, hm, rfl⟩ := exists_eq_of_positive hv
  rcases hu.cases with rfl | ⟨s, rfl⟩ | ⟨m', e', hm', rfl⟩
  · exact ⟨rfl, rfl⟩
  · exact ⟨trivial, trivial⟩
  · exact ⟨nonNegative_roundWithAccuracy _ _ _ _, nonNegative_roundWithAccuracy _ _ _ _⟩

/-- **Products** with a positive finite number. -/
theorem zero_le_mul {x y : Float} (hx : 0 ≤ x) (hy : Positive y.toModel.unpack) : 0 ≤ x * y := by
  rw [zero_le_iff] at hx ⊢
  exact nonNegative_unpack_pack (nonNegative_mul_and_div hx hy).1

/-- **Quotients** by a positive finite number. -/
theorem zero_le_div {x y : Float} (hx : 0 ≤ x) (hy : Positive y.toModel.unpack) : 0 ≤ x / y := by
  rw [zero_le_iff] at hx ⊢
  exact nonNegative_unpack_pack (nonNegative_mul_and_div hx hy).2

/-! ### Rounding to decimal places -/

section Bits

variable (b : BitVec 64)

/-- The sign is the first bit. -/
theorem toNat_unpackSign :
    (@unpackSign Format.binary64 b).toNat = b.toNat / signBit := by
  have hb := b.isLt
  simp [unpackSign, signBit, Nat.shiftRight_eq_div_pow]
  omega

/-- The exponent is told by the eleven bits behind the sign. -/
theorem toNat_unpackExponent :
    (@unpackExponent Format.binary64 b).toNat = b.toNat / leadingBit % 2048 := by
  simp [unpackExponent, leadingBit, Nat.shiftRight_eq_div_pow]

/-- The mantissa is told by the last fifty-two bits. -/
theorem toNat_unpackMantissa :
    (@unpackMantissa Format.binary64 b).toNat = b.toNat % leadingBit := by
  simp [unpackMantissa, leadingBit]

end Bits

/-- The sign of positive numbers is zero. -/
private theorem eq_zero_of_ofBitVec {b : BitVec 1} (h : Sign.ofBitVec b = .positive) : b = 0#1 := by
  unfold Sign.ofBitVec at h
  split at h
  · next hb => exact hb
  · cases h

/-- A number that is not negative has the sign bit 0, unless it is a zero. -/
theorem sign_eq_zero_of_nonNegative {b : BitVec 64}
    (h : NonNegative (UnpackedFloat.unpack Format.binary64 b)) :
    @unpackSign Format.binary64 b = 0#1 ∨
      @unpackExponent Format.binary64 b = 0#_ ∧
        @unpackMantissa Format.binary64 b = 0#_ := by
  unfold UnpackedFloat.unpack at h
  dsimp only at h
  split at h
  · split at h
    · exact Or.inl (eq_zero_of_ofBitVec h)
    · exact absurd h id
  · split at h
    · next he =>
      split at h
      · next hm => exact Or.inr ⟨he, hm⟩
      · exact Or.inl (eq_zero_of_ofBitVec h)
    · exact Or.inl (eq_zero_of_ofBitVec h)

/-- A finite number that is not negative has no sign, unless it is a zero. -/
theorem negative_of_zero_le {x : Float} {negative : Bool} {m : Nat} {e : Int} (hx : 0 ≤ x)
    (h : of x = finite negative m e) : negative = false ∨ m = 0 := by
  rw [zero_le_iff] at hx
  have hs := sign_eq_zero_of_nonNegative hx
  -- the fields are cut out of the bits here by division, and there as parts of a bit vector
  have hsign := toNat_unpackSign x.toModel.toBits.toBitVec
  have hfield := toNat_unpackExponent x.toModel.toBits.toBitVec
  have hfraction := toNat_unpackMantissa x.toModel.toBits.toBitVec
  have hbits : x.toBits.toNat = x.toModel.toBits.toBitVec.toNat := rfl
  unfold of at h
  dsimp only at h
  rw [hbits, ← hsign, ← hfield, ← hfraction] at h
  rcases hs with hs | ⟨he, hm⟩
  · left
    rw [hs] at h
    split at h
    · split at h <;> simp at h
    · split at h
      · simp at h; exact h.1
      · simp at h; exact h.1
  · right
    rw [he, hm] at h
    simp at h
    exact h.2.1.symm

/-- Bits below the exponent field that is kept for infinity. -/
private theorem nonNegative_unpack_of_lt {b : BitVec 64} (h : b.toNat < 2047 * leadingBit) :
    NonNegative (UnpackedFloat.unpack Format.binary64 b) := by
  refine nonNegative_unpack ?_ fun he => ?_
  · apply BitVec.eq_of_toNat_eq
    rw [toNat_unpackSign]
    simp only [leadingBit, signBit, BitVec.toNat_ofNat] at h ⊢
    omega
  · have hv := congrArg BitVec.toNat he
    rw [toNat_unpackExponent] at hv
    simp only [leadingBit, BitVec.neg_one_eq_allOnes, BitVec.toNat_allOnes] at h hv
    omega

/-- Numbers are not negative that are put together without a sign. -/
private theorem zero_le_assemble {field fraction : Nat} (hfield : field < 2047)
    (hfraction : fraction < leadingBit) : 0 ≤ assemble false field fraction := by
  have hn : field * leadingBit + fraction < 2047 * leadingBit := by
    simp only [leadingBit] at hfraction ⊢
    omega
  have hbits : assemble false field fraction
      = Float.ofBits (UInt64.ofNat (field * leadingBit + fraction)) := by
    rw [assemble, if_neg Bool.false_ne_true, Nat.zero_add]
  rw [zero_le_iff, hbits]
  generalize field * leadingBit + fraction = n at hn
  refine nonNegative_unpack_pack (nonNegative_unpack_of_lt ?_)
  rw [UInt64.toBitVec_ofNat', BitVec.toNat_ofNat]
  exact Nat.lt_of_le_of_lt (Nat.mod_le _ _) hn

private theorem zero_le_infinity : 0 ≤ infinity false := by decide

/-- Numbers that are rounded from a mantissa are not negative. -/
private theorem zero_le_ofMantissa (mantissa : Nat) (exponent : Int) :
    0 ≤ ofMantissa false mantissa exponent := by
  -- a mantissa with its leading bit in place; the exponent decides whether it still fits
  have hle : ∀ (m : Nat) (e : Int), m < 2 * leadingBit → ¬ m < leadingBit →
      0 ≤ (if 2047 ≤ (e + 1075).toNat then infinity false
        else assemble false (e + 1075).toNat (m - leadingBit)) := by
    intro m e hm hm'
    split
    · exact zero_le_infinity
    · next hf => exact zero_le_assemble (by omega) (by omega)
  unfold ofMantissa
  split
  · next hm => exact zero_le_assemble (by decide) hm
  · next hm =>
    dsimp only
    split
    · next hm' => exact hle _ _ hm' hm
    · -- rounding up has carried into the next power of two
      exact hle leadingBit (exponent + 1) (by simp [leadingBit]) (Nat.lt_irrefl _)

/-- The number nearest to a fraction that has no sign or is zero. -/
theorem zero_le_nearest {negative : Bool} {num den : Nat} (h : negative = false ∨ num = 0) :
    0 ≤ nearest negative num den := by
  unfold nearest
  split
  · cases negative <;> decide
  · next hnum =>
    obtain rfl : negative = false := h.resolve_right hnum
    exact zero_le_ofMantissa _ _

private theorem roundDiv_zero (den : Nat) : roundDiv 0 den = 0 := by
  simp [roundDiv]

private theorem fst_fraction_zero (exponent : Int) : (fraction 0 exponent).1 = 0 := by
  unfold fraction
  split
  · exact Nat.zero_mul _
  · rfl

/-- **Rounding** to decimal places. -/
theorem zero_le_roundedTo {x : Float} (places : Nat) (hx : 0 ≤ x) : 0 ≤ roundedTo places x := by
  unfold roundedTo
  split
  · next negative m e hof =>
    -- only a zero can have a sign, and a zero is rounded to zero
    change 0 ≤ nearest negative (roundDiv ((fraction m e).1 * Nat.pow 10 places) (fraction m e).2) _
    refine zero_le_nearest ((negative_of_zero_le hx hof).imp_right fun hm => ?_)
    rw [hm, fst_fraction_zero, Nat.zero_mul, roundDiv_zero]
  · exact hx

end StepCheck.Binary64
