import StepCheck.Text.Basic
import StepCheck.Text.DigitTable

/-!
# Decimal digits

Instance numbers may be written in any decimal digits of Unicode, not only in `0` to `9`.
-/

namespace StepCheck.CodePoint

/-- **A decimal digit** of any script. -/
def isDecimal (c : CodePoint) : Bool := digitZeros.any fun z => z ≤ c.val && c.val ≤ z + 9

/-- The value of a decimal digit of any script. -/
def decimalValue? (c : CodePoint) : Option Nat :=
  (digitZeros.find? fun z => z ≤ c.val && c.val ≤ z + 9).map fun z => c.val - z

end StepCheck.CodePoint
