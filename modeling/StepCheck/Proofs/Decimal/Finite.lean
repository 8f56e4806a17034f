import StepCheck.Proofs.Decimal.Sign
import StepCheck.Policy.Estimate

/-!
# Floating-point numbers that are finite

A percentage is told as a whole number, which there is only if the quotient of the two times is
finite. The shorter time is divided by the longer one, so the quotient cannot be large. As far as
overflow is concerned only exponents count, and they are followed through the operations with plenty
of room to spare.

* `Below` — numbers whose exponent is at most a bound, and `isFinite_iff_below` for the finite ones;
* `below_roundWithAccuracy`, `below_unpack_pack` — rounding and packing keep a bound;
* `isFinite_percent` — a number in percent of another one that is not below it;
* `mantissa_bounds` — mantissas are as long as they can be;
* `exists_rounded?` — the whole number nearest to a finite one;
* `zero_le_add`, `eq_infinity`, `isFinite_of_isFinite_add` — sums, which can be infinite;
* `exists_accuracy` — when there is a percentage of two times.
-/

open Float.Model Float.Model.UnpackedFloat

namespace StepCheck.Binary64

/-- **Zero, or finite with an exponent of at most `B`.** -/
def Below (B : Int) : UnpackedFloat → Prop
  | .zero _ => True
  | .finite _ _ e _ => e ≤ B
  | _ => False

/-- A bound may be raised. -/
theorem Below.mono {B B' : Int} {u : UnpackedFloat} (h : Below B u) (hB : B ≤ B') : Below B' u := by
  cases u with
  | zero s => trivial
  | finite s m e hm => exact Int.le_trans h hB
  | infinity s => exact h
  | notANumber => exact h

/-! ### Rounding -/

private theorem targetExponent_eq (e : Int) :
    Format.binary64.targetExponent e = max (e - 53) (-1074) := rfl

/-- A mantissa that is shifted to the right gets no larger. -/
private theorem mantissa_shiftRight_le (em : ExtendedMantissa) (n : Nat) :
    (em >>> n).mantissa ≤ em.mantissa := by
  change (n.repeat ExtendedMantissa.shiftRightOne em).mantissa ≤ _
  induction n with
  | zero => exact Nat.le_refl _
  | succ n ih =>
    rw [Nat.repeat]
    exact (Nat.div_le_self ..).trans ih

/-- Rounding adds one at most. -/
private theorem roundedMantissa_le (em : ExtendedMantissa) :
    em.roundedMantissa ≤ em.mantissa + 1 := by
  obtain ⟨m, round, sticky⟩ := em
  cases round <;> cases sticky <;>
    simp only [ExtendedMantissa.roundedMantissa, ExtendedMantissa.accuracy,
      Accuracy.roundToNearestEven] <;> omega

private theorem mantissa_ofMantissaAndAccuracy (m : Nat) (a : Accuracy) :
    (ExtendedMantissa.ofMantissaAndAccuracy m a).mantissa = m := by
  rcases a with _ | (_ | _ | _) <;> rfl

/-- Where a mantissa is shifted to, and what remains of it. -/
private theorem shiftToTargetExponent_le {m k : Nat} {e : Int} (hm : m.log2 ≤ k) (a : Accuracy) :
    (shiftToTargetExponent Format.binary64 m e a).1.mantissa ≤ m ∧
      (shiftToTargetExponent Format.binary64 m e a).2 ≤ max (max e (k + e - 52)) (-1074) := by
  unfold shiftToTargetExponent shiftToExponent
  dsimp only
  refine ⟨(mantissa_shiftRight_le ..).trans (mantissa_ofMantissaAndAccuracy m a).le, ?_⟩
  rw [targetExponent_eq, totalExponent]
  omega

/-- **Rounding** raises an exponent by no more than the mantissa has digits to give. -/
theorem below_roundWithAccuracy {m k : Nat} (hm : m < 2 ^ k) (e : Int) (s : Sign) (a : Accuracy) :
    Below (max e 0 + 2 * k) (roundWithAccuracy Format.binary64 s m e a) := by
  have hlog : ∀ r ≤ m + 1, r.log2 ≤ k := by
    intro r hr
    by_cases hzero : r = 0
    · rw [hzero]
      exact Nat.zero_le k
    · exact Nat.lt_succ_iff.mp ((Nat.log2_lt hzero).mpr (by omega))
  unfold roundWithAccuracy
  dsimp only
  obtain ⟨hmantissa, hexponent⟩ := shiftToTargetExponent_le (e := e) (hlog m (Nat.le_succ m)) a
  generalize shiftToTargetExponent Format.binary64 m e a = shifted at hmantissa hexponent
  -- rounding up may have carried into one more digit, and then there is a second shift
  have hrounded := (roundedMantissa_le shifted.1).trans (Nat.succ_le_succ hmantissa)
  have hfinal := (shiftToTargetExponent_le (e := shifted.2) (hlog _ hrounded) .exact).2
  split
  · trivial
  · change _ ≤ max e 0 + 2 * (k : Int)
    omega

/-! ### Numbers taken out of bits -/

/-- A mantissa has fifty-three digits at most. -/
theorem mantissa_lt_of_unpack {b : BitVec 64} {s : Sign} {m : Nat} {e : Int} {hm : 0 < m}
    (h : UnpackedFloat.unpack Format.binary64 b = .finite s m e hm) : m < 2 ^ 53 := by
  unfold UnpackedFloat.unpack at h
  dsimp only at h
  split at h
  · -- small numbers have the field as their mantissa, and the others one bit more
    split at h <;> cases h
  · split at h
    · split at h
      · cases h
      · have hlt : (@unpackMantissa Format.binary64 b).toNat < 2 ^ 52 := BitVec.isLt _
        obtain ⟨-, hmantissa, -⟩ := UnpackedFloat.finite.inj h
        rw [hmantissa] at hlt
        exact hlt.trans (by decide)
    · have hlt : (1#1 ++ @unpackMantissa Format.binary64 b).toNat < 2 ^ (1 + 52) :=
        BitVec.isLt _
      obtain ⟨-, hmantissa, -⟩ := UnpackedFloat.finite.inj h
      rwa [hmantissa] at hlt

/-- A number that is not too large is not packed as infinity, and its exponent stays low. -/
theorem below_unpack_pack {B : Int} {u : UnpackedFloat} (h : Below B u) (hB : -1074 ≤ B)
    (hB' : B < 972) : Below B (Float.Model.pack u).unpack := by
  change Below B (UnpackedFloat.unpack Format.binary64 (UnpackedFloat.pack Format.binary64 u))
  -- an exponent field below the last one gives the exponent back
  have hcomponents : ∀ (s : Sign) (exponent : BitVec 11) (mantissa : BitVec 52),
      exponent.toNat < 2047 → (exponent.toNat : Int) - 1075 ≤ B →
      Below B (UnpackedFloat.unpack Format.binary64
        (packComponents Format.binary64 s exponent mantissa)) := by
    intro s exponent mantissa hexponent hB
    have hfield : unpackExponent (packComponents Format.binary64 s exponent mantissa) = exponent :=
      unpackExponent_packComponents
    generalize packComponents Format.binary64 s exponent mantissa = b at hfield
    unfold UnpackedFloat.unpack
    dsimp only
    rw [hfield, if_neg]
    · split
      · split
        · trivial
        · next hzero _ =>
          change (exponent.toNat : Int) - (1023 + 52) + 1 ≤ B
          have : exponent.toNat = 0 := congrArg BitVec.toNat hzero
          omega
      · change (exponent.toNat : Int) - (1023 + 52) ≤ B
        omega
    · intro hall
      have := congrArg BitVec.toNat hall
      simp at this
      omega
  cases u with
  | infinity s => exact absurd h id
  | notANumber => exact absurd h id
  | zero s => exact hcomponents s 0#11 0#52 (by decide) (by simpa using by omega)
  | finite s m e hm =>
    have he : e ≤ B := h
    unfold UnpackedFloat.pack
    dsimp only
    -- the exponent fits into its field, since it is below the bound
    have hbiased : (e + Format.binary64.exponentBias
        + Format.binary64.mantissaBitsWithoutImplicit).toNat = (e + 1075).toNat := by
      change (e + 1023 + 52).toNat = _
      congr 1
      omega
    have hfit : ¬ 2 ^ Format.binary64.exponentBits ≤ (e + 1075).toNat + 1 := by
      change ¬ 2048 ≤ (e + 1075).toNat + 1
      omega
    rw [hbiased, if_neg hfit]
    split
    · refine hcomponents s _ _ ?_ ?_
      · rw [BitVec.toNat_ofNat]
        omega
      · rw [BitVec.toNat_ofNat]
        omega
    · exact hcomponents s _ _ (by decide) (by simpa using by omega)

/-! ### Finite numbers -/

/-- A number is finite unless all bits of its exponent are set. -/
theorem isFinite_iff (x : Float) :
    isFinite x = true ↔ @unpackExponent Format.binary64 x.toModel.toBits.toBitVec ≠ -1#11 := by
  have hfield := toNat_unpackExponent x.toModel.toBits.toBitVec
  have hbits : x.toBits.toNat = x.toModel.toBits.toBitVec.toNat := rfl
  have hall : @unpackExponent Format.binary64 x.toModel.toBits.toBitVec = -1#11
      ↔ (@unpackExponent Format.binary64 x.toModel.toBits.toBitVec).toNat = 2047 :=
    BitVec.toNat_inj.symm
  rw [Ne, hall, hfield, ← hbits]
  unfold isFinite of
  dsimp only
  split_ifs <;> simp_all

/-- **Finite numbers** are those with an exponent of 971 at most. -/
theorem isFinite_iff_below (x : Float) :
    isFinite x = true ↔ Below 971 x.toModel.unpack := by
  rw [isFinite_iff]
  obtain ⟨exponent, hexponent⟩ : ∃ exponent : BitVec 11,
      @unpackExponent Format.binary64 x.toModel.toBits.toBitVec = exponent := ⟨_, rfl⟩
  have hall : exponent = -1#11 ↔ exponent.toNat = 2047 := BitVec.toNat_inj.symm
  have hlt : exponent.toNat < 2048 := exponent.isLt
  unfold Float.Model.unpack UnpackedFloat.unpack
  dsimp only
  rw [hexponent]
  -- the field of all ones is kept for infinity and what is no number
  constructor
  · intro hne
    rw [if_neg hne]
    rw [Ne, hall] at hne
    have hle : (exponent.toNat : Int) - (1023 + 52) + 1 ≤ 972 := by omega
    split
    · next hzero =>
      split
      · trivial
      · have hzero' : exponent.toNat = 0 := congrArg BitVec.toNat hzero
        change (exponent.toNat : Int) - (1023 + 52) + 1 ≤ 971
        rw [hzero']
        decide
    · exact Int.le_of_add_le_add_right hle
  · intro h hne
    rw [if_pos hne] at h
    split at h <;> exact h

/-- The result of an operation is finite if the exponent is not too large before it is packed. -/
private theorem isFinite_of_below {x : Float} {u : UnpackedFloat} {B : Int}
    (hx : x.toModel = Float.Model.pack u) (h : Below B u) (hB : B ≤ 971) : isFinite x = true := by
  rw [isFinite_iff_below, hx]
  exact below_unpack_pack (h.mono hB) (by decide) (by decide)

/-! ### Percentages -/

/-- **A number that is not negative and not above another one**, as far as exponents tell; at most
one of them is infinite. -/
inductive NotAbove : UnpackedFloat → UnpackedFloat → Prop
  | zero {s : Sign} {m : Nat} {e : Int} {hm : 0 < m} : NotAbove (.zero s) (.finite .positive m e hm)
  | finite {m m' : Nat} {e e' : Int} {hm : 0 < m} {hm' : 0 < m'} : e ≤ e' →
      NotAbove (.finite .positive m e hm) (.finite .positive m' e' hm')
  | infinity {u : UnpackedFloat} {B : Int} : Below B u → NotAbove u (.infinity .positive)

/-- A number below a power of two has a lesser logarithm. -/
private theorem lt_two_pow_of_log2 {m k : Nat} (h : m < 2 ^ (k + 1)) : m.log2 ≤ k := by
  by_cases hzero : m = 0
  · rw [hzero]
    exact Nat.zero_le k
  · exact Nat.lt_succ_iff.mp ((Nat.log2_lt hzero).mpr h)

/-- **The quotient** of such numbers is not large. -/
private theorem below_div {u v : UnpackedFloat} (h : NotAbove u v)
    (hu : ∀ s m e hm, u = .finite s m e hm → m < 2 ^ 53)
    (hv : ∀ s m e hm, v = .finite s m e hm → m < 2 ^ 53) :
    Below 316 (UnpackedFloat.div Format.binary64 u v) := by
  cases h with
  | zero => trivial
  | @finite m m' e e' hm hm' he =>
    have hm53 := hu _ _ _ _ rfl
    have hlog := lt_two_pow_of_log2 hm53
    have hlog' := lt_two_pow_of_log2 (hv _ _ _ _ rfl)
    unfold UnpackedFloat.div divCore
    dsimp only
    rw [targetExponent_eq, totalExponent, totalExponent]
    generalize hshift : (e - e' - min (e - e') (max ((m.log2 : Int) + 1 + e
      - ((m'.log2 : Int) + 1 + e') - 53) (-1074))).toNat = shift
    -- the quotient is no longer than the dividend, shifted as far as it can be
    have hquotient : (m <<< shift) / m' < 2 ^ 158 := by
      have hle : shift ≤ 105 := by omega
      rw [Nat.shiftLeft_eq]
      calc m * 2 ^ shift / m' ≤ m * 2 ^ shift := Nat.div_le_self ..
        _ ≤ m * 2 ^ 105 := Nat.mul_le_mul_left m (Nat.pow_le_pow_right (by decide) hle)
        _ < 2 ^ 53 * 2 ^ 105 := Nat.mul_lt_mul_of_pos_right hm53 (by decide)
        _ = 2 ^ 158 := by decide
    refine (below_roundWithAccuracy hquotient _ _ _).mono ?_
    omega
  | @infinity _ B hB =>
    cases u with
    | infinity s => exact absurd hB id
    | notANumber => exact absurd hB id
    | zero s => trivial
    | finite s m e hm => trivial

private theorem unpack_hundred : (100 : Float).toModel.unpack
    = .finite .positive (100 * 2 ^ 46) (-46) (by decide) := rfl

/-- A product with a hundred has an exponent that is not much larger. -/
private theorem below_mul {B : Int} {u : UnpackedFloat} (h : Below B u) (hB : 0 ≤ B)
    (hu : ∀ s m e hm, u = .finite s m e hm → m < 2 ^ 53) :
    Below (B + 212) (UnpackedFloat.mul Format.binary64 u
      (.finite .positive (100 * 2 ^ 46) (-46) (by decide))) := by
  cases u with
  | infinity s => exact absurd h id
  | notANumber => exact absurd h id
  | zero s => trivial
  | finite s m e hm =>
    have he : e ≤ B := h
    have hproduct : m * (100 * 2 ^ 46) < 2 ^ 106 :=
      calc m * (100 * 2 ^ 46) < 2 ^ 53 * (100 * 2 ^ 46) :=
            Nat.mul_lt_mul_of_pos_right (hu _ _ _ _ rfl) (by decide)
        _ ≤ 2 ^ 106 := by decide
    refine (below_roundWithAccuracy hproduct (e + -46) _ _).mono ?_
    omega

/-- **A number in percent of another one that is not below it is finite.** -/
theorem isFinite_percent {x y : Float} (h : NotAbove x.toModel.unpack y.toModel.unpack) :
    isFinite (x / y * 100) = true := by
  have hdiv := below_div h (fun _ _ _ _ => mantissa_lt_of_unpack)
    fun _ _ _ _ => mantissa_lt_of_unpack
  have hquotient : Below 316 (x / y).toModel.unpack :=
    below_unpack_pack hdiv (by decide) (by decide)
  have hmul := below_mul hquotient (by decide) fun _ _ _ _ => mantissa_lt_of_unpack
  rw [← unpack_hundred] at hmul
  exact isFinite_of_below rfl hmul (by decide)

/-! ### Rounding to whole numbers -/

/-- **Every mantissa is as long as it can be**, unless the exponent is the least one. -/
theorem mantissa_bounds {x : Float} {negative : Bool} {m : Nat} {e : Int}
    (h : of x = finite negative m e) :
    -1074 ≤ e ∧ e ≤ 971 ∧ m < 2 * leadingBit ∧ (e = -1074 ∨ leadingBit ≤ m) := by
  have hfield : x.toBits.toNat / leadingBit % 2048 < 2048 := Nat.mod_lt _ (by decide)
  have hfraction : x.toBits.toNat % leadingBit < leadingBit := Nat.mod_lt _ (by decide)
  unfold of at h
  dsimp only at h
  generalize x.toBits.toNat / leadingBit % 2048 = field at h hfield
  generalize x.toBits.toNat % leadingBit = fraction at h hfraction
  split_ifs at h
  · obtain ⟨-, rfl, rfl⟩ := Binary64.finite.inj h
    omega
  · obtain ⟨-, rfl, rfl⟩ := Binary64.finite.inj h
    omega

/-- The exact value of a finite number has digits for its mantissa and for its exponent. -/
private theorem fraction_lt {m : Nat} (hm : m < 2 * leadingBit) (e : Int) :
    (fraction m e).1 < 2 ^ (53 + e.toNat) := by
  have hm53 : m < 2 ^ 53 := hm
  rw [Nat.pow_add]
  unfold fraction
  split
  · exact Nat.mul_lt_mul_of_pos_right hm53 (Nat.two_pow_pos _)
  · exact hm53.trans_le (Nat.le_mul_of_pos_right _ (Nat.two_pow_pos _))

/-- A rounded quotient is at most one above the dividend. -/
private theorem roundDiv_le_add_one (num den : Nat) : roundDiv num den ≤ num + 1 := by
  have hquotient : num / den ≤ num := Nat.div_le_self num den
  rcases roundDiv_cases num den with ⟨hround, -⟩ | ⟨hround, -⟩ <;> omega

/-- **Finite numbers are rounded** to whole numbers, which are not too large. -/
theorem exists_rounded? {x : Float} (h : isFinite x = true) :
    ∃ n, rounded? x = some n ∧ ∃ k ≤ 1024, n.natAbs ≤ 2 ^ k := by
  unfold isFinite at h
  unfold rounded?
  split at h
  · next negative m e hof =>
    obtain ⟨-, he, hm, -⟩ := mantissa_bounds hof
    have hrounded := (roundDiv_le_add_one (fraction m e).1 (fraction m e).2).trans
      (fraction_lt hm e)
    refine ⟨_, rfl, 53 + e.toNat, by omega, le_trans ?_ hrounded⟩
    split
    · exact (Int.natAbs_neg _).le
    · exact le_refl _
  · cases h

/-! ### Sums -/

/-- Infinity stays infinity when a number is added to it. -/
private theorem infinity_add {v : UnpackedFloat} (hv : NonNegative v) :
    UnpackedFloat.add Format.binary64 (.infinity .positive) v = .infinity .positive := by
  rcases hv.cases with rfl | ⟨s, rfl⟩ | ⟨m, e, hm, rfl⟩ <;> rfl

/-- A number to which infinity is added becomes infinity. -/
private theorem add_infinity {u : UnpackedFloat} (hu : NonNegative u) :
    UnpackedFloat.add Format.binary64 u (.infinity .positive) = .infinity .positive := by
  rcases hu.cases with rfl | ⟨s, rfl⟩ | ⟨m, e, hm, rfl⟩ <;> rfl

/-- **Sums** of numbers that are not negative are not negative. -/
private theorem nonNegative_add {u v : UnpackedFloat} (hu : NonNegative u) (hv : NonNegative v) :
    NonNegative (UnpackedFloat.add Format.binary64 u v) := by
  rcases hu.cases with rfl | ⟨s, rfl⟩ | ⟨m, e, hm, rfl⟩
  · rw [infinity_add hv]
    exact rfl
  · rcases hv.cases with rfl | ⟨s', rfl⟩ | ⟨m', e', hm', rfl⟩
    · exact rfl
    · cases s <;> cases s' <;> exact trivial
    · exact rfl
  · rcases hv.cases with rfl | ⟨s', rfl⟩ | ⟨m', e', hm', rfl⟩
    · exact rfl
    · exact rfl
    · unfold UnpackedFloat.add UnpackedFloat.normalize
      dsimp only
      split
      · -- no sum of mantissas is negative
        next hlt =>
        rw [Int.compare_eq_lt] at hlt
        simp only [Sign.apply, decreaseExponent] at hlt
        generalize m <<< (e - min e e').toNat = a at hlt
        generalize m' <<< (e' - min e e').toNat = b at hlt
        omega
      · exact trivial
      · exact nonNegative_roundWithAccuracy _ _ _ _

/-- **Sums** of numbers that are not negative. -/
theorem zero_le_add {x y : Float} (hx : 0 ≤ x) (hy : 0 ≤ y) : 0 ≤ x + y := by
  rw [zero_le_iff] at hx hy ⊢
  exact nonNegative_unpack_pack (nonNegative_add hx hy)

/-- Numbers with the same bits are equal. -/
private theorem ext_toBits {x y : Float} (h : x.toModel.toBits = y.toModel.toBits) : x = y := by
  obtain ⟨⟨bits, hvalid⟩⟩ := x
  obtain ⟨⟨bits', hvalid'⟩⟩ := y
  obtain rfl : bits = bits' := h
  rfl

/-- A number that is neither negative nor finite is the positive infinity. -/
theorem eq_infinity {x : Float} (hx : 0 ≤ x) (h : isFinite x = false) : x = infinity false := by
  have hall : @unpackExponent Format.binary64 x.toModel.toBits.toBitVec = -1#11 := by
    by_contra hne
    rw [(isFinite_iff x).mpr hne] at h
    cases h
  rw [zero_le_iff] at hx
  have hsign : @unpackSign Format.binary64 x.toModel.toBits.toBitVec = 0#1 := by
    rcases sign_eq_zero_of_nonNegative hx with hs | ⟨hzero, -⟩
    · exact hs
    · exact absurd (hall.symm.trans hzero) (by decide)
  have hmantissa : @unpackMantissa Format.binary64 x.toModel.toBits.toBitVec = 0#52 := by
    by_contra hne
    unfold Float.Model.unpack UnpackedFloat.unpack at hx
    dsimp only at hx
    rw [if_pos hall, if_neg hne] at hx
    exact hx
  -- the three fields make up the bits
  have hbits : x.toModel.toBits = (infinity false).toModel.toBits := by
    have hs := toNat_unpackSign x.toModel.toBits.toBitVec
    have he := toNat_unpackExponent x.toModel.toBits.toBitVec
    have hm := toNat_unpackMantissa x.toModel.toBits.toBitVec
    rw [hsign] at hs
    rw [hall] at he
    rw [hmantissa] at hm
    have hinfinity : (infinity false).toModel.toBits.toNat = 2047 * leadingBit := by decide
    apply UInt64.toNat_inj.mp
    rw [hinfinity]
    change x.toModel.toBits.toBitVec.toNat = _
    simp [signBit, leadingBit] at hs he hm ⊢
    omega
  exact ext_toBits hbits

/-- **A sum is finite** only if both numbers are, where neither is negative. -/
theorem isFinite_of_isFinite_add {x y : Float} (hx : 0 ≤ x) (hy : 0 ≤ y)
    (h : isFinite (x + y) = true) : isFinite x = true ∧ isFinite y = true := by
  -- the sum is not infinite, since it is finite
  have hinfinite : UnpackedFloat.add Format.binary64 x.toModel.unpack y.toModel.unpack
      ≠ .infinity .positive := by
    intro hadd
    have hsum : (x + y).toModel.unpack = (Float.Model.pack (.infinity .positive)).unpack :=
      congrArg (fun u => (Float.Model.pack u).unpack) hadd
    rw [isFinite_iff_below, hsum] at h
    exact h
  constructor
  · by_contra hnot
    rw [eq_infinity hx (Bool.eq_false_iff.mpr hnot)] at hinfinite
    exact hinfinite (infinity_add ((zero_le_iff y).mp hy))
  · by_contra hnot
    rw [eq_infinity hy (Bool.eq_false_iff.mpr hnot)] at hinfinite
    exact hinfinite (add_infinity ((zero_le_iff x).mp hx))

/-! ### Times in percent -/

/-- Of normal forms, the one with the lesser exponent is less. -/
private theorem finite_lt {m m' : Nat} {e e' : Int} {hm : 0 < m} {hm' : 0 < m'} :
    (UnpackedFloat.finite .positive m e hm).lt (.finite .positive m' e' hm') = true
      ↔ e < e' ∨ e = e' ∧ m < m' := by
  simp only [UnpackedFloat.lt, UnpackedFloat.compare, beq_iff_eq, Option.some.injEq,
    Ordering.then_eq_lt, Int.compare_eq_lt, Int.compare_eq_eq, Nat.compare_eq_lt]

/-- Of two numbers, the one that counts as smaller is not above the one that counts as larger. -/
private theorem notAbove_ite {u v : UnpackedFloat} (hu : NonNegative u) (hv : NonNegative v)
    (h : Below 971 u ∨ Below 971 v)
    (hpos : (if u.lt v then v else u).le (.zero .positive) = false) :
    NotAbove (if v.lt u then v else u) (if u.lt v then v else u) := by
  rcases hu.cases with rfl | ⟨s, rfl⟩ | ⟨m, e, hm, rfl⟩
  · -- infinity is the larger one, and it is not both
    rcases hv.cases with rfl | ⟨s', rfl⟩ | ⟨m', e', hm', rfl⟩
    · exact absurd h (by simp [Below])
    · exact .infinity (B := 0) trivial
    · exact .infinity (Int.le_refl e')
  · rcases hv.cases with rfl | ⟨s', rfl⟩ | ⟨m', e', hm', rfl⟩
    · exact .infinity (B := 0) trivial
    · exact Bool.noConfusion hpos
    · exact .zero
  · rcases hv.cases with rfl | ⟨s', rfl⟩ | ⟨m', e', hm', rfl⟩
    · exact .infinity (Int.le_refl e)
    · exact .zero
    · split_ifs with hvu huv huv
      · exact .finite (Int.le_refl e')
      · rw [finite_lt] at hvu
        exact .finite (by omega)
      · rw [finite_lt] at huv
        exact .finite (by omega)
      · exact .finite (Int.le_refl _)

/-- **The smaller number** is not above the larger one. -/
private theorem notAbove_smaller_larger {x y : Float} (hx : 0 ≤ x) (hy : 0 ≤ y)
    (h : isFinite x = true ∨ isFinite y = true) (hpos : ¬ larger x y ≤ 0) :
    NotAbove (smaller x y).toModel.unpack (larger x y).toModel.unpack := by
  -- both choices are read off the unpacked numbers
  have hlarger : (larger x y).toModel.unpack = if x.toModel.unpack.lt y.toModel.unpack
      then y.toModel.unpack else x.toModel.unpack := by
    unfold larger
    simp only [lt_iff]
    split_ifs <;> rfl
  have hsmaller : (smaller x y).toModel.unpack = if y.toModel.unpack.lt x.toModel.unpack
      then y.toModel.unpack else x.toModel.unpack := by
    unfold smaller
    simp only [lt_iff]
    split_ifs <;> rfl
  rw [le_iff, hlarger, Bool.not_eq_true] at hpos
  rw [isFinite_iff_below, isFinite_iff_below] at h
  rw [hsmaller, hlarger]
  exact notAbove_ite ((zero_le_iff x).mp hx) ((zero_le_iff y).mp hy) h hpos

end StepCheck.Binary64

namespace StepCheck

open Binary64

/-- **There is a percentage** if one of the two times is finite, and it is not too large. -/
theorem exists_accuracy {actual estimated : Float} (ha : 0 ≤ actual) (he : 0 ≤ estimated)
    (h : isFinite actual = true ∨ isFinite estimated = true) :
    ∃ n, accuracy actual estimated = .ok n ∧ ∃ k ≤ 1024, n.natAbs ≤ 2 ^ k := by
  unfold accuracy
  dsimp only
  split
  · exact ⟨100, rfl, 7, by decide, by decide⟩
  · next hpos =>
    obtain ⟨n, hn, hk⟩ :=
      exists_rounded? (isFinite_percent (notAbove_smaller_larger ha he h hpos))
    rw [hn]
    exact ⟨n, rfl, hk⟩

/-- Of two infinite times there is none. -/
theorem accuracy_infinity :
    accuracy (infinity false) (infinity false) = .error .notANumber := by
  decide

end StepCheck
