import StepCheck.Proofs.Decimal.Finite

/-!
# The order of floating-point numbers and their exact values

A finite floating-point number stands for a rational number. Numbers are compared by their
exponents first and by their mantissas where these agree, which is the order of the rational numbers
only because every mantissa is as long as it can be: a number with a greater exponent has its
leading bit.

* `le_of_not_lt` — the order of the numbers that are not negative is total;
* `value` — the rational number that a finite number stands for;
* `zero_le_value`, `value_le_value` — the order is that of the rational numbers.
-/

open Float.Model Float.Model.UnpackedFloat

namespace StepCheck.Binary64

variable {x y : Float}

/-! ### Comparisons -/

/-- Two numbers that are compared the other way round. -/
theorem compare_swap (u v : UnpackedFloat) : (u.compare v).map Ordering.swap = v.compare u := by
  rcases u with (_ | _) | _ | _ | ⟨_ | _, _, _, _⟩ <;>
    rcases v with (_ | _) | _ | _ | ⟨_ | _, _, _, _⟩ <;>
    simp [UnpackedFloat.compare, Ordering.swap_then, Int.compare_swap, Nat.compare_swap] <;> rfl

/-- Numbers that are not negative can be compared. -/
theorem exists_compare {u v : UnpackedFloat} (hu : NonNegative u) (hv : NonNegative v) :
    ∃ o, u.compare v = some o := by
  rcases hu.cases with rfl | ⟨s, rfl⟩ | ⟨m, e, hm, rfl⟩ <;>
    rcases hv.cases with rfl | ⟨s', rfl⟩ | ⟨m', e', hm', rfl⟩ <;>
    exact ⟨_, rfl⟩

/-- **Of two numbers** that are not negative, one is not above the other. -/
theorem le_of_not_lt (hx : 0 ≤ x) (hy : 0 ≤ y) (h : ¬ y < x) : x ≤ y := by
  rw [zero_le_iff] at hx hy
  rw [lt_iff, UnpackedFloat.lt] at h
  rw [le_iff, UnpackedFloat.le, ← compare_swap]
  obtain ⟨o, ho⟩ := exists_compare hy hx
  rw [ho] at h ⊢
  -- only the comparison that is excluded comes out the wrong way
  cases o with
  | lt => exact absurd rfl h
  | eq => rfl
  | gt => rfl

/-! ### Mantissas -/

section Mantissa

variable {negative negative' : Bool} {m m' : Nat} {e e' : Int}

/-- The leading bit before the others. -/
private theorem toNat_leading_append (mantissa : BitVec 52) :
    (1#1 ++ mantissa).toNat = mantissa.toNat + leadingBit := by
  rw [BitVec.toNat_append, ← Nat.shiftLeft_add_eq_or_of_lt mantissa.isLt]
  exact Nat.add_comm _ _

/-- **What a number is unpacked to** has the mantissa and the exponent that it has here. -/
theorem unpack_of_finite (h : of x = finite negative m e) :
    (∃ s, x.toModel.unpack = .zero s ∧ m = 0 ∧ e = -1074) ∨
      ∃ s hm, x.toModel.unpack = .finite s m e hm := by
  have hfield := toNat_unpackExponent x.toModel.toBits.toBitVec
  have hfraction := toNat_unpackMantissa x.toModel.toBits.toBitVec
  have hbits : x.toBits.toNat = x.toModel.toBits.toBitVec.toNat := rfl
  -- the two fields on their own, so that both sides can be split by the same conditions
  obtain ⟨exponent, hexponent⟩ : ∃ exponent : BitVec 11,
      @unpackExponent Format.binary64 x.toModel.toBits.toBitVec = exponent := ⟨_, rfl⟩
  obtain ⟨mantissa, hmantissa⟩ : ∃ mantissa : BitVec 52,
      @unpackMantissa Format.binary64 x.toModel.toBits.toBitVec = mantissa := ⟨_, rfl⟩
  have hall : exponent = -1#11 ↔ exponent.toNat = 2047 := BitVec.toNat_inj.symm
  have hnone : exponent = 0#11 ↔ exponent.toNat = 0 := BitVec.toNat_inj.symm
  have hzero : mantissa = 0#52 ↔ mantissa.toNat = 0 := BitVec.toNat_inj.symm
  unfold of at h
  dsimp only at h
  rw [hbits, ← hfield, ← hfraction, hexponent, hmantissa] at h
  unfold Float.Model.unpack UnpackedFloat.unpack
  simp only [hexponent, hmantissa]
  split_ifs at h with hfull hinfinite hempty
  · -- without the leading bit, down to zero
    obtain ⟨-, rfl, rfl⟩ := Binary64.finite.inj h
    rw [if_neg (mt hall.mp hfull), if_pos (hnone.mpr hempty)]
    split
    · next hm => exact .inl ⟨_, rfl, hzero.mp hm, rfl⟩
    · next hm =>
      refine .inr ⟨Sign.ofBitVec (@unpackSign Format.binary64 x.toModel.toBits.toBitVec),
        Nat.pos_of_ne_zero (mt hzero.mpr hm), ?_⟩
      congr 1
      rw [hempty]
      rfl
  · -- with the leading bit
    obtain ⟨-, rfl, rfl⟩ := Binary64.finite.inj h
    rw [if_neg (mt hall.mp hfull), if_neg (mt hnone.mp hempty)]
    refine .inr ⟨Sign.ofBitVec (@unpackSign Format.binary64 x.toModel.toBits.toBitVec),
      Nat.add_pos_right _ (by decide), ?_⟩
    congr 1
    exact toNat_leading_append mantissa

/-- **The order of two numbers**, none negative, by their exponents and then their mantissas. -/
theorem lex_of_not_lt (hx : 0 ≤ x) (hy : 0 ≤ y) (hxof : of x = finite negative m e)
    (hyof : of y = finite negative' m' e') (h : ¬ y < x) : e < e' ∨ e = e' ∧ m ≤ m' := by
  have hbounds := mantissa_bounds hyof
  have hle := le_of_not_lt hx hy h
  rw [zero_le_iff] at hx hy
  rw [le_iff] at hle
  rcases unpack_of_finite hxof with ⟨s, hu, rfl, rfl⟩ | ⟨s, hm, hu⟩
  · -- zero has the least exponent and the least mantissa
    omega
  · rw [hu] at hx hle
    -- two positive numbers are compared by their exponents, and then by their mantissas
    obtain rfl : s = .positive := hx
    rcases unpack_of_finite hyof with ⟨s', hv, -, -⟩ | ⟨s', hm', hv⟩
    · rw [hv] at hle
      cases hle
    · rw [hv] at hy hle
      obtain rfl : s' = .positive := hy
      simp only [UnpackedFloat.le, UnpackedFloat.compare, Option.any_some,
        Ordering.isLE_then_iff_or, Int.compare_eq_lt, Int.compare_eq_eq, Nat.isLE_compare] at hle
      exact hle

end Mantissa

/-! ### Exact values -/

/-- **The rational number** that a finite number stands for. -/
def value (x : Float) : ℚ :=
  match of x with
  | finite negative mantissa exponent =>
    let (num, den) := fraction mantissa exponent
    if negative then -(num / den) else num / den
  | _ => 0

/-- The fraction of a number is its value. -/
theorem fraction_eq (m : Nat) (e : Int) :
    ((fraction m e).1 : ℚ) / (fraction m e).2 = m * 2 ^ e := by
  unfold fraction
  split
  · next he =>
    obtain ⟨k, rfl⟩ := Int.eq_ofNat_of_zero_le he
    simp
  · next he =>
    obtain ⟨k, hk⟩ := Int.eq_ofNat_of_zero_le (by omega : 0 ≤ -e)
    obtain rfl : e = -k := by omega
    simp [div_eq_mul_inv]

/-- The exact value of a number that is neither negative nor infinite. -/
theorem exists_value_eq (hx : 0 ≤ x) (h : isFinite x = true) :
    ∃ negative m e, of x = finite negative m e ∧ value x = m * 2 ^ e := by
  unfold isFinite at h
  split at h
  · next negative m e hof =>
    refine ⟨negative, m, e, hof, ?_⟩
    have hsign := negative_of_zero_le hx hof
    have hvalue : value x = if negative then -(m * 2 ^ e : ℚ) else m * 2 ^ e := by
      rw [value, hof, ← fraction_eq]
    rw [hvalue]
    -- zero may have a sign
    rcases hsign with rfl | rfl
    · rfl
    · simp
  · cases h

/-- The value of a number that is not negative is not negative. -/
theorem zero_le_value (hx : 0 ≤ x) (h : isFinite x = true) : 0 ≤ value x := by
  obtain ⟨negative, m, e, -, hvalue⟩ := exists_value_eq hx h
  rw [hvalue]
  positivity

/-- **The order is that of the exact values.** -/
theorem value_le_value (hx : 0 ≤ x) (hy : 0 ≤ y) (hxfinite : isFinite x = true)
    (hyfinite : isFinite y = true) (h : ¬ y < x) : value x ≤ value y := by
  obtain ⟨negative, m, e, hxof, hxvalue⟩ := exists_value_eq hx hxfinite
  obtain ⟨negative', m', e', hyof, hyvalue⟩ := exists_value_eq hy hyfinite
  obtain ⟨hlow, -, hm, -⟩ := mantissa_bounds hxof
  obtain ⟨-, -, -, hleading⟩ := mantissa_bounds hyof
  rw [hxvalue, hyvalue]
  rcases lex_of_not_lt hx hy hxof hyof h with hlt | ⟨rfl, hle⟩
  · -- the greater exponent makes up for the mantissa, which has a leading bit
    have hm' : (m : ℚ) ≤ 2 * m' := by
      have : m ≤ 2 * m' := by omega
      exact_mod_cast this
    calc (m : ℚ) * 2 ^ e ≤ 2 * m' * 2 ^ e := by gcongr
      _ = m' * 2 ^ (e + 1) := by rw [zpow_add_one₀ two_ne_zero]; ring
      _ ≤ m' * 2 ^ e' := by
        gcongr
        · exact one_le_two
        · omega
  · gcongr

end StepCheck.Binary64
