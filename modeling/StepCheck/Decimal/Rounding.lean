/-!
# Rounding of quotients

Fixed decimals, percentages and the reading of decimals all round an exact quotient to a whole
number, a half going to the even neighbour.

* `roundDiv` — the rounded quotient;
* `roundDiv_cases` — it is one of the two whole numbers next to the quotient, and no further than
  half a unit away.
-/

namespace StepCheck

/-- **The whole number nearest to `num / den`**; of two equally near ones the even one. -/
def roundDiv (num den : Nat) : Nat :=
  let low := num / den
  let twice := 2 * (num % den)
  if twice < den then low
  else if den < twice then low + 1
  else low + low % 2

/-- **The two neighbours.** The rounded quotient is the one below unless the remainder is more than
half of `den`, and the one above unless it is less. -/
theorem roundDiv_cases (num den : Nat) :
    (roundDiv num den = num / den ∧ 2 * (num % den) ≤ den) ∨
      (roundDiv num den = num / den + 1 ∧ den ≤ 2 * (num % den)) := by
  unfold roundDiv
  dsimp only
  split
  · next hlow => exact .inl ⟨rfl, Nat.le_of_lt hlow⟩
  · next hlow =>
    split
    · next hhigh => exact .inr ⟨rfl, Nat.le_of_lt hhigh⟩
    · next hhigh =>
      -- exactly in the middle, so either neighbour would do
      rcases Nat.mod_two_eq_zero_or_one (num / den) with heven | hodd
      · exact .inl ⟨by rw [heven, Nat.add_zero], Nat.not_lt.mp hhigh⟩
      · exact .inr ⟨by rw [hodd], Nat.not_lt.mp hlow⟩

end StepCheck
