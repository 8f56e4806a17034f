import StepCheck.Decimal.Binary64

/-!
# The shortest decimal that reads back

A floating-point number is written with as few digits as reading it back allows. The decimals that
read back as the number `v` fill an interval around it, half a unit of the last binary place to
either side. For one digit, two digits, and so on up to seventeen, the two decimals next to `v` are
tried, and the first number of digits for which one of them lies in the interval is taken.

* `Interval` — `v` and its interval, as whole numbers over a common unit;
* `Interval.digitsAt?` — the decimal of a given number of digits, if one lies in the interval;
* `shortest` — digits and place of the point.
-/

namespace StepCheck

/-- **The decimals that read back** as a number: from `low` to `high` around `middle`, all counted
in the unit `scale`, the ends included if `closed`. -/
structure Interval where
  low : Nat
  middle : Nat
  high : Nat
  /-- The number of units in 1. -/
  scale : Nat
  closed : Bool

namespace Interval

/-- The interval around `mantissa * 2 ^ exponent`. Below a power of two the floating-point numbers
lie twice as dense, so the lower half of the interval is shorter there. -/
def around (mantissa : Nat) (exponent : Int) : Interval :=
  let below := if mantissa = Binary64.leadingBit ∧ -1074 < exponent then 1 else 2
  let (unit, scale) := Binary64.fraction 1 (exponent - 2)
  -- four units to the last place of the mantissa, so that both halves are whole numbers
  { low := (4 * mantissa - below) * unit
    middle := 4 * mantissa * unit
    high := (4 * mantissa + 2) * unit
    scale
    closed := mantissa % 2 == 0 }

/-- Whether `d / den` lies in the interval. -/
def contains (i : Interval) (d den : Nat) : Bool :=
  let x := d * i.scale
  if i.closed then i.low * den ≤ x && x ≤ i.high * den else i.low * den < x && x < i.high * den

/-- The decimal of the form `d * 10 ^ place` that lies in the interval next to the middle, if there
is one; of two equally near ones the even one. -/
def decimalAt? (i : Interval) (place : Int) : Option Nat :=
  -- `d * 10 ^ place` is `d * num / den`
  let (num, den) : Nat × Nat :=
    if 0 ≤ place then (Nat.pow 10 place.toNat, 1) else (1, Nat.pow 10 (-place).toNat)
  let below := i.middle * den / (i.scale * num)
  match i.contains (below * num) den, i.contains ((below + 1) * num) den with
  | false, false => none
  | true, false => some below
  | false, true => some (below + 1)
  | true, true => some (roundDiv (i.middle * den) (i.scale * num))

/-- The number of digits before the point of the middle; for a number below one, 0 less the number
of zeros behind the point. -/
def point (i : Interval) : Int :=
  if i.scale ≤ i.middle then (Nat.toDigits 10 (i.middle / i.scale)).length
  else
    let zeros := (Nat.toDigits 10 (i.scale / i.middle)).length
    if i.middle * Nat.pow 10 (zeros - 1) = i.scale then 2 - zeros else 1 - zeros

/-- The decimal of `count` digits that lies in the interval, as its digits and their place. -/
def digitsAt? (i : Interval) (count : Nat) : Option (Nat × Int) :=
  let place := i.point - count
  (i.decimalAt? place).map fun d => (d, place)

end Interval

/-- **The shortest decimal** `digits * 10 ^ place` that reads back as `mantissa * 2 ^ exponent`, and
of the shortest ones the nearest. Seventeen digits always suffice. -/
def shortest (mantissa : Nat) (exponent : Int) : Nat × Int :=
  let i := Interval.around mantissa exponent
  ((List.range 17).findSome? fun n => i.digitsAt? (n + 1)).getD (0, 0)

end StepCheck
