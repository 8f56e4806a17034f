import StepCheck.Text.Basic
import StepCheck.Text.UpperTable

/-!
# Capitals

Names are compared in capitals. The full Unicode mapping is used, under which one code point may
become several: the German sharp s becomes `SS`, the ligature `ﬁ` becomes `FI`.
-/

namespace StepCheck

/-- The capital of a code point outside ASCII. -/
def CodePoint.upperBeyondAscii (c : CodePoint) : Text :=
  match upperExpansions.lookup c.val with
  | some capitals => capitals.map CodePoint.ofNat
  | none =>
    match CaseRun.shiftOf? c.val upperRuns with
    | some shift => [CodePoint.ofNat (c.val + shift).toNat]
    | none => [c]

/-- **The capital of a code point**, which may consist of several. -/
def CodePoint.upper (c : CodePoint) : Text :=
  if c.isSmall then [CodePoint.ofNat (c.val - 0x20)]
  else if c.val < 0x80 then [c]
  else c.upperBeyondAscii

/-- **The text in capitals.** -/
def Text.upper (t : Text) : Text := t.flatMap CodePoint.upper

@[simp] theorem Text.upper_nil : Text.upper [] = [] := rfl

@[simp] theorem Text.upper_cons (c : CodePoint) (t : Text) :
    Text.upper (c :: t) = c.upper ++ t.upper := rfl

@[simp] theorem Text.upper_append (s t : Text) :
    Text.upper (s ++ t) = s.upper ++ t.upper := by
  simp [Text.upper]

end StepCheck
