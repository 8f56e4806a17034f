import StepCheck.Datum.Intake
import StepCheck.Text.Digit
import StepCheck.Yaml.Failure
import StepCheck.Yaml.Plain

/-!
# Numbers of YAML

Whole numbers are written to the base 2, 8, 10, 16 or 60, other numbers to the base 10 or 60; low
lines in them are passed over. A scalar may be tagged as a number without having the form of one,
and then it can fail to be read.

* `Numeral.integer` — the whole number that a scalar writes;
* `Numeral.real` — the number that a scalar writes.
-/

namespace StepCheck.Yaml

namespace Numeral

/-- Decimal digits of any script as `0` to `9`, without the white space at the ends. -/
def normalised (t : Text) : Text :=
  (Intake.trim t).map fun c =>
    match c.decimalValue? with
    | some n => CodePoint.ofNat (0x30 + n)
    | none => c

/-- The letter that may stand behind a zero to tell the base. -/
def baseLetter? (base : Nat) : Option Char :=
  if base = 2 then some 'b' else if base = 8 then some 'o' else if base = 16 then some 'x' else none

/-- Digits without the mark that tells their base, if there is one. -/
def unmarked (base : Nat) (t : Text) : Text :=
  match t, baseLetter? base with
  | zero :: letter :: rest, some l =>
    if zero = '0' ∧ Intake.asciiSmall [letter] = [CodePoint.ofChar l] then rest else t
  | _, _ => t

/-- Whether a character is a digit to a base. -/
def isDigitOf (base : Nat) (c : CodePoint) : Bool :=
  (c.isDigit || c.isCapital || c.isSmall) && c.digitValue < base

/-- Most digits of a whole number to the base 10. -/
def mostDigits : Nat := 4300

/-- The whole number that digits to a base write. -/
def digits (base : Nat) (t : Text) : Except Failure Int :=
  let (negative, rest) := Intake.signed (normalised t)
  let ds := unmarked base rest
  if ds.isEmpty || !ds.all (isDigitOf base) then .error (.noInteger base t)
  else if base = 10 ∧ mostDigits < ds.length then .error (.integerTooLong ds.length)
  else
    let n : Int := Text.numeral base ds
    .ok (if negative then -n else n)

/-- The parts between colons. -/
def parts (t : Text) : List Text :=
  t.foldr (fun c ps =>
    if c = CodePoint.ofChar ':' then [] :: ps
    else match ps with
      | [] => [[c]]
      | p :: rest => (c :: p) :: rest) [[]]

/-- A number without its sign, and whether it is negative. -/
def unsigned (t : Text) : Except Failure (Bool × Text) :=
  match t with
  | [] => .error .noDigits
  | c :: rest => .ok (c = '-', if c = '-' ∨ c = '+' then rest else t)

/-- **The whole number** that a scalar writes. -/
def integer (t : Text) : Except Failure Int := do
  let (negative, t) ← unsigned (t.filter (· ≠ Plain.lowLine))
  let n ←
    match t with
    | [] => throw .noDigits
    | c :: rest =>
      if c = '0' then
        match rest with
        | [] => pure 0
        | d :: more =>
          if d = 'b' then digits 2 more
          else if d = 'x' then digits 16 more
          else digits 8 t
      else if t.contains (CodePoint.ofChar ':') then do
        let ds ← (parts t).mapM (digits 10)
        pure (ds.foldl (fun n d => n * 60 + d) 0)
      else digits 10 t
  return if negative then -n else n

/-- The number that a text writes to the base 10. -/
def decimal (t : Text) : Except Failure Float :=
  match Intake.decimalNumeral? (normalised t) with
  | some x => .ok x
  | none => .error (.noNumber t)

/-- Numbers of falling weight added up, the last one first. The weights are exact, and one may be
too large to be multiplied with. -/
def sexagesimal (xs : List Float) : Except Failure Float := do
  let (sum, _) ← xs.reverse.foldlM (fun (sum, weight) x =>
    let w := Binary64.ofInt weight
    if Binary64.isFinite w then .ok (sum + x * w, weight * 60) else .error .numberTooLarge)
    ((0, 1) : Float × Int)
  return sum

/-- **The number** that a scalar writes. -/
def real (t : Text) : Except Failure Float := do
  let small := Intake.asciiSmall (t.filter (· ≠ Plain.lowLine))
  let (negative, t) ← unsigned small
  let x ←
    if t = Text.ofString ".inf" then pure (Binary64.infinity false)
    else if t = Text.ofString ".nan" then return Binary64.nan
    else if t.contains (CodePoint.ofChar ':') then do
      sexagesimal (← (parts t).mapM decimal)
    else decimal t
  return if negative then -x else x

end Numeral

end StepCheck.Yaml
