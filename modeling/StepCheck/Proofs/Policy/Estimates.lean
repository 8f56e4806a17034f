import StepCheck.Proofs.Decimal.Order
import StepCheck.Proofs.Policy.Accepted
import StepCheck.Proofs.Step.Joined

/-!
# Time estimates of joined texts

A time is estimated from three quantities, none of which decreases where text is put before or
behind a text. With exact arithmetic the estimate is a sum of multiples of them that are not
negative, kept between two bounds in their order, so it does not decrease either. In floating-point
numbers it goes through roundings; here the coefficients are taken for the rational numbers that
they stand for.

* `Coefficients.exact` — coefficients as rational numbers;
* `Coefficients.Ordered.estimateOver_mono` — the estimate grows with the three quantities;
* `Text.Joins` — the three quantities of joined texts;
* `Coefficients.joins_and_exactEstimate_mono` — quantities and estimates of joined texts, for all
  coefficients that are taken in and finite.
-/

namespace StepCheck

/-! ### The three quantities -/

/-- **The quantities that a time is estimated from**, for the first and the second of two texts and
for both of them joined. -/
structure Text.Joins (a b : Text) : Prop where
  length : (a ++ b).length = a.length + b.length
  /-- No declaration is lost, -/
  countIn_add_le : Declaration.countIn a + Declaration.countIn b ≤ Declaration.countIn (a ++ b)
  /-- and one arises across the cut at most. -/
  countIn_le : Declaration.countIn (a ++ b) ≤ Declaration.countIn a + Declaration.countIn b + 1
  lineCount : lineCount (a ++ b) = a.lineCount + b.lineCount - 1

/-- What is counted in two texts is counted in both together, but for what the cut goes through. -/
theorem Text.joins (a b : Text) : a.Joins b where
  length := List.length_append
  countIn_add_le := Declaration.countIn_add_le a b
  countIn_le := Declaration.countIn_append_le a b
  lineCount := lineCount_append a b

/-- **No quantity of one text** is above that of another one. -/
structure Text.NotLarger (s t : Text) : Prop where
  length : s.length ≤ t.length
  countIn : Declaration.countIn s ≤ Declaration.countIn t
  lineCount : s.lineCount ≤ t.lineCount

namespace Text.Joins

variable {a b : Text}

/-- **Nothing decreases** where text is appended. -/
theorem first (h : a.Joins b) : a.NotLarger (a ++ b) where
  length := by
    rw [h.length]
    exact Nat.le_add_right _ _
  countIn := (Nat.le_add_right _ _).trans h.countIn_add_le
  lineCount := by
    rw [h.lineCount, lineCount_eq b]
    omega

/-- **Nothing decreases** where text is put in front. -/
theorem second (h : a.Joins b) : b.NotLarger (a ++ b) where
  length := by
    rw [h.length]
    exact Nat.le_add_left _ _
  countIn := (Nat.le_add_left _ _).trans h.countIn_add_le
  lineCount := by
    rw [h.lineCount, lineCount_eq a]
    omega

end Text.Joins

/-! ### Estimates in rational numbers -/

theorem larger_eq_max (x y : ℚ) : larger x y = max x y := (max_def_lt x y).symm

theorem smaller_eq_min (x y : ℚ) : smaller x y = min x y := by
  rw [min_comm, min_def_lt, smaller]

namespace Coefficients

/-- **The coefficients as rational numbers.** -/
def exact (c : Coefficients Float) : Coefficients ℚ where
  perKilochar := Binary64.value c.perKilochar
  perEntity := Binary64.value c.perEntity
  perHundredLines := Binary64.value c.perHundredLines
  least := Binary64.value c.least
  most := Binary64.value c.most

/-- **Finite coefficients.** -/
structure IsFinite (c : Coefficients Float) : Prop where
  perKilochar : Binary64.isFinite c.perKilochar = true
  perEntity : Binary64.isFinite c.perEntity = true
  perHundredLines : Binary64.isFinite c.perHundredLines = true
  least : Binary64.isFinite c.least = true
  most : Binary64.isFinite c.most = true

/-- **Rational coefficients** for which the estimate grows with what it is estimated from. -/
structure Ordered (c : Coefficients ℚ) : Prop where
  perKilochar : 0 ≤ c.perKilochar
  perEntity : 0 ≤ c.perEntity
  perHundredLines : 0 ≤ c.perHundredLines
  bounds : c.least ≤ c.most

/-- Sound and finite coefficients are such numbers. -/
theorem Sound.ordered {c : Coefficients Float} (h : c.Sound) (hfinite : c.IsFinite) :
    c.exact.Ordered where
  perKilochar := Binary64.zero_le_value h.perKilochar hfinite.perKilochar
  perEntity := Binary64.zero_le_value h.perEntity hfinite.perEntity
  perHundredLines := Binary64.zero_le_value h.perHundredLines hfinite.perHundredLines
  bounds := Binary64.value_le_value h.least h.most hfinite.least hfinite.most h.bounds

variable {c : Coefficients ℚ} {s t : Text}

/-- **The estimate** is a sum of three terms, within its bounds. -/
theorem estimateOver_eq (c : Coefficients ℚ) (t : Text) :
    c.estimateOver (fun n => (n : ℚ)) t
      = max c.least (min c.most (t.length / 1000 * c.perKilochar
          + Declaration.countIn t * c.perEntity + t.lineCount / 100 * c.perHundredLines)) := by
  unfold estimateOver
  rw [larger_eq_max, smaller_eq_min]
  norm_num

/-- **The estimate keeps its bounds**, which may be equal. -/
theorem Ordered.estimateOver_mem_Icc (h : c.Ordered) (t : Text) :
    c.estimateOver (fun n => (n : ℚ)) t ∈ Set.Icc c.least c.most := by
  rw [estimateOver_eq]
  exact ⟨le_max_left _ _, max_le h.bounds (min_le_left _ _)⟩

/-- **The estimate grows** with the three quantities. -/
theorem Ordered.estimateOver_mono (h : c.Ordered) (hst : s.NotLarger t) :
    c.estimateOver (fun n => (n : ℚ)) s ≤ c.estimateOver (fun n => (n : ℚ)) t := by
  have hlength : (s.length : ℚ) ≤ t.length := Nat.cast_le.mpr hst.length
  have hcount : (Declaration.countIn s : ℚ) ≤ Declaration.countIn t := Nat.cast_le.mpr hst.countIn
  have hlines : (s.lineCount : ℚ) ≤ t.lineCount := Nat.cast_le.mpr hst.lineCount
  obtain ⟨hperKilochar, hperEntity, hperHundredLines, -⟩ := h
  rw [estimateOver_eq, estimateOver_eq]
  gcongr

/-- **The estimate with exact arithmetic** in place of floating-point numbers. -/
def exactEstimate (c : Coefficients Float) (t : Text) : ℚ :=
  c.exact.estimateOver (fun n => (n : ℚ)) t

/-- **The quantities and the estimates of joined texts.** Declarations are not lost, and one at most
arises across the cut; no quantity decreases where text is appended or put in front. So for all
coefficients that are taken in and finite, the exact estimate does not decrease either, and it keeps
its bounds. -/
theorem joins_and_exactEstimate_mono {d : Datum} {c : Coefficients Float} (h : intake d = .ok c)
    (hfinite : c.IsFinite) (a b : Text) :
    a.Joins b ∧ a.NotLarger (a ++ b) ∧ b.NotLarger (a ++ b) ∧
      c.exact.least ≤ c.exactEstimate a ∧ c.exactEstimate a ≤ c.exactEstimate (a ++ b) ∧
      c.exactEstimate b ≤ c.exactEstimate (a ++ b) ∧ c.exactEstimate (a ++ b) ≤ c.exact.most := by
  have hjoins := Text.joins a b
  have hordered := (sound_of_intake h).ordered hfinite
  exact ⟨hjoins, hjoins.first, hjoins.second, (hordered.estimateOver_mem_Icc a).1,
    hordered.estimateOver_mono hjoins.first, hordered.estimateOver_mono hjoins.second,
    (hordered.estimateOver_mem_Icc (a ++ b)).2⟩

/-- Coefficients by which the declarations are counted, up to the usual bound. -/
def countingDatum : Datum :=
  .fields [("seconds_per_kilochar", .bool false), ("seconds_per_entity", .bool true),
    ("seconds_per_hundred_lines", .bool false), ("min_seconds", .bool false)]

/-- A declaration straddles the cut: there is none in the first text and one in the second, and
there are two in the joined text. -/
theorem joins_and_exactEstimate_mono_countingDatum :
    intake countingDatum = .ok ⟨0, 1, 0, 0, 30⟩ ∧
      exactEstimate ⟨0, 1, 0, 0, 30⟩ "#1=IFCWA" = 0 ∧
      exactEstimate ⟨0, 1, 0, 0, 30⟩ "LL();\n#2=IFCDOOR();" = 1 ∧
      exactEstimate ⟨0, 1, 0, 0, 30⟩ ("#1=IFCWA" ++ "LL();\n#2=IFCDOOR();") = 2 ∧
      exactEstimate ⟨0, 1, 0, 0, 30⟩ "#1=IFCWA"
        ≤ exactEstimate ⟨0, 1, 0, 0, 30⟩ ("#1=IFCWA" ++ "LL();\n#2=IFCDOOR();") := by
  have hintake : intake countingDatum = .ok ⟨0, 1, 0, 0, 30⟩ := rfl
  have hfinite : IsFinite ⟨0, 1, 0, 0, 30⟩ := by constructor <;> decide +kernel
  have hmono := joins_and_exactEstimate_mono hintake hfinite "#1=IFCWA" "LL();\n#2=IFCDOOR();"
  exact ⟨hintake, by decide +kernel, by decide +kernel, by decide +kernel, hmono.2.2.2.2.1⟩

end Coefficients

end StepCheck
