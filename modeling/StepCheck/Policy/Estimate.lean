import StepCheck.Policy.Basic
import StepCheck.Step.Declaration
import StepCheck.Text.Lines
import StepCheck.Decimal.Binary64

/-!
# Time estimates

How long a check will take is estimated from the size of the content, the number of instance
declarations and the number of lines, and kept between two bounds. The arithmetic is that of any
kind of number, so that the estimate can be studied over the rational numbers and run over
floating-point ones. How good an estimate was is told in percent.

* `Coefficients.estimateOver` — the estimate over any kind of number;
* `Coefficients.estimate` — the estimate in floating-point numbers;
* `accuracy` — the percentage, 100 being exact.
-/

namespace StepCheck

section Order

variable {α : Type} [LT α] [DecidableLT α]

/-- The second number if it is greater, else the first. -/
def larger (a b : α) : α := if a < b then b else a

/-- The second number if it is less, else the first. -/
def smaller (a b : α) : α := if b < a then b else a

end Order

/-- **The estimated time** for a content, where `number` gives the numbers of some kind that stand
for the natural ones. -/
def Coefficients.estimateOver {α : Type} [Add α] [Mul α] [Div α] [LT α] [DecidableLT α]
    (number : Nat → α) (c : Coefficients α) (content : Text) : α :=
  let size := number content.length / number 1000 * c.perKilochar
  let entities := number (Declaration.countIn content) * c.perEntity
  let lines := number content.lineCount / number 100 * c.perHundredLines
  larger c.least (smaller c.most (size + entities + lines))

/-- **The estimated time** for a content, in floating-point numbers. -/
def Coefficients.estimate (c : Coefficients Float) (content : Text) : Float :=
  c.estimateOver (fun n => Binary64.ofInt n) content

/-- **Why there is no percentage**: the quotient of the two times is no number, or is infinite. -/
inductive AccuracyError
  | notANumber
  | infinite
deriving DecidableEq

/-- The text of the error. -/
def AccuracyError.message : AccuracyError → Text
  | notANumber => "cannot convert float NaN to integer"
  | infinite => "cannot convert float infinity to integer"

/-- **How close an estimate was**, in percent: the quotient of the shorter by the longer time. -/
def accuracy (actual estimated : Float) : Except AccuracyError Int :=
  let longest := larger actual estimated
  if longest ≤ 0 then .ok 100
  else
    let percent := smaller actual estimated / longest * 100
    match Binary64.rounded? percent with
    | some n => .ok n
    | none => .error (if Binary64.of percent = .notANumber then .notANumber else .infinite)

end StepCheck
