import StepCheck.Decimal.Rounding

/-!
# Floating-point numbers as exact fractions

A finite floating-point number is a whole number times a power of two. Everything that has to be
exact about such numbers, reading a decimal, writing one, rounding, is done on that fraction.

* `Binary64` — the value of a floating-point number;
* `Binary64.of` — the value that a `Float` stands for;
* `Binary64.nearest` — the floating-point number nearest to a fraction.
-/

namespace StepCheck

/-- **The value of a floating-point number.** -/
inductive Binary64
  | notANumber
  | infinite (negative : Bool)
  /-- The number `mantissa * 2 ^ exponent`, with a sign, which zero has too. -/
  | finite (negative : Bool) (mantissa : Nat) (exponent : Int)
deriving DecidableEq

namespace Binary64

/-- The weight of the bit above the fraction field, the fifty-second power of two. It is one of the
bits of every mantissa that is not close to zero. -/
def leadingBit : Nat := 0x10000000000000

/-- The weight of the sign, the sixty-third power of two. -/
def signBit : Nat := 0x8000000000000000

/-- The value that a floating-point number stands for. -/
def of (x : Float) : Binary64 :=
  let bits : Nat := x.toBits.toNat
  let negative := bits / signBit == 1
  let field : Nat := bits / leadingBit % 2048
  let fraction : Nat := bits % leadingBit
  if field = 2047 then (if fraction = 0 then infinite negative else notANumber)
  else if field = 0 then finite negative fraction (-1074)
  else finite negative (fraction + leadingBit) ((field : Int) - 1075)

/-- The floating-point number with the given sign, exponent field and fraction field. -/
def assemble (negative : Bool) (field fraction : Nat) : Float :=
  Float.ofBits (UInt64.ofNat ((if negative then signBit else 0) + field * leadingBit + fraction))

/-- The positive or negative infinity. -/
def infinity (negative : Bool) : Float := assemble negative 2047 0

/-- The floating-point number that is none. -/
def nan : Float := assemble false 2047 (leadingBit / 2)

/-- The floating-point number `mantissa * 2 ^ exponent` with the given sign, where the mantissa has
been rounded to fifty-three bits, or up to the power of two above those. -/
def ofMantissa (negative : Bool) (mantissa : Nat) (exponent : Int) : Float :=
  if mantissa < leadingBit then assemble negative 0 mantissa
  else
    let (mantissa, exponent) :=
      if mantissa < 2 * leadingBit then (mantissa, exponent) else (leadingBit, exponent + 1)
    let field := (exponent + 1075).toNat
    if 2047 ≤ field then infinity negative else assemble negative field (mantissa - leadingBit)

/-- **The floating-point number nearest to `num / den`**, an even one if two are equally near, with
the given sign. Too large a fraction gives infinity. -/
def nearest (negative : Bool) (num den : Nat) : Float :=
  if num = 0 then assemble negative 0 0
  else
    -- the quotient lies between `2 ^ (size - 1)` and `2 ^ (size + 1)`
    let size : Int := num.log2 - den.log2
    let scaled (e : Int) : Nat :=
      if 0 ≤ e then roundDiv num (den * Nat.pow 2 e.toNat)
      else roundDiv (num * Nat.pow 2 (-e).toNat) den
    let low : Int := max (size - 53) (-1074)
    -- one of two exponents gives a mantissa of at most 53 bits
    let exponent := if scaled low < 2 * leadingBit then low else low + 1
    ofMantissa negative (scaled exponent) exponent

/-- The floating-point number nearest to `digits * 10 ^ exponent`. -/
def ofDecimal (negative : Bool) (digits : Nat) (exponent : Int) : Float :=
  -- numbers beyond every floating-point number are not computed
  let order : Int := digits.log2 / 3 + exponent
  if digits = 0 then assemble negative 0 0
  else if 400 < exponent then infinity negative
  else if order < -400 then assemble negative 0 0
  else if 0 ≤ exponent then nearest negative (digits * Nat.pow 10 exponent.toNat) 1
  else nearest negative digits (Nat.pow 10 (-exponent).toNat)

/-- The floating-point number nearest to a whole number. -/
def ofInt (i : Int) : Float := nearest (i < 0) i.natAbs 1

/-- The numerator and denominator of `mantissa * 2 ^ exponent`. -/
def fraction (mantissa : Nat) (exponent : Int) : Nat × Nat :=
  if 0 ≤ exponent then (mantissa * Nat.pow 2 exponent.toNat, 1)
  else (mantissa, Nat.pow 2 (-exponent).toNat)

/-- Whether a floating-point number is a whole number, and which. -/
def whole? (x : Float) : Option Int :=
  match of x with
  | finite negative mantissa exponent =>
    let (num, den) := fraction mantissa exponent
    if num % den = 0 then some (if negative then -(num / den : Nat) else (num / den : Nat))
    else none
  | _ => none

/-- The whole number nearest to a floating-point number, a half going to the even neighbour; `none`
for infinities and for what is no number. -/
def rounded? (x : Float) : Option Int :=
  match of x with
  | finite negative mantissa exponent =>
    let (num, den) := fraction mantissa exponent
    some (if negative then -(roundDiv num den : Nat) else (roundDiv num den : Nat))
  | _ => none

/-- **A floating-point number rounded to so many decimal places**, the exact value counting and a
half going to the even neighbour. -/
def roundedTo (places : Nat) (x : Float) : Float :=
  match of x with
  | finite negative mantissa exponent =>
    let (num, den) := fraction mantissa exponent
    nearest negative (roundDiv (num * Nat.pow 10 places) den) (Nat.pow 10 places)
  | _ => x

/-- Whether a floating-point number is neither infinite nor none at all. -/
def isFinite (x : Float) : Bool :=
  match of x with
  | finite .. => true
  | _ => false

end Binary64

end StepCheck
