import StepCheck.Decimal.Shortest
import StepCheck.Text.Basic

/-!
# Numerals of floating-point numbers

Two ways of writing a floating-point number: with the fewest digits that read back
(`Binary64.numeral`), and with a fixed number of decimal places (`Binary64.fixed`).
-/

namespace StepCheck.Binary64

/-- How the fewest digits are laid out. -/
structure Layout where
  /-- Fewest digits before the point, zeros behind it counting as negative, of a positional
  numeral. -/
  leastPoint : Int
  /-- Most digits before the point of a positional numeral. -/
  greatestPoint : Int
  /-- Least number of digits of an exponent. -/
  exponentWidth : Nat

/-- Numbers from 0.0001 up to below 10 to the power 16 are written positionally, all others with an
exponent of two digits at least. -/
def standardLayout : Layout := ⟨-3, 16, 2⟩

/-- Zeros. -/
private def zeros (n : Nat) : Text := List.replicate n '0'

/-- The digits with a decimal point behind the first `point` of them. A whole number gets the
decimal zero. -/
def positional (digits : Text) (point : Int) : Text :=
  if point ≤ 0 then "0." ++ zeros (-point).toNat ++ digits
  else if digits.length ≤ point then digits ++ zeros (point - digits.length).toNat ++ ".0"
  else digits.take point.toNat ++ "." ++ digits.drop point.toNat

/-- The digits with the point behind the first of them, and the power of ten that makes up for it.
-/
def scientific (exponentWidth : Nat) (digits : Text) (point : Int) : Text :=
  let size := Text.ofNat (point - 1).natAbs
  let mantissa :=
    digits.take 1 ++ (if digits.length ≤ 1 then [] else Text.ofString "." ++ digits.drop 1)
  mantissa ++ "e" ++ (if point < 1 then "-" else "+") ++ zeros (exponentWidth - size.length) ++ size

/-- A number of at least one digit without the zeros at its end, and how many there were. -/
def withoutTrailingZeros (digits : Text) : Text :=
  match (digits.reverse.dropWhile (· = (CodePoint.ofChar '0'))).reverse with
  | [] => "0"
  | ds => ds

/-- **The numeral with the fewest digits** that read back as the number. -/
def numeral (x : Float) : Text :=
  match of x with
  | notANumber => "nan"
  | infinite negative => (if negative then "-" else "") ++ Text.ofString "inf"
  | finite negative mantissa exponent =>
    let sign : Text := if negative then "-" else ""
    if mantissa = 0 then sign ++ "0.0"
    else
      let (number, place) := shortest mantissa exponent
      let all := Text.ofNat number
      let point := all.length + place
      let digits := withoutTrailingZeros all
      let layout := standardLayout
      sign ++ (if layout.leastPoint ≤ point ∧ point ≤ layout.greatestPoint then
        positional digits point else scientific layout.exponentWidth digits point)

/-- **The numeral with a fixed number of decimal places**, the exact value being rounded and a half
going to the even neighbour. -/
def fixed (places : Nat) (x : Float) : Text :=
  match of x with
  | notANumber => "nan"
  | infinite negative => (if negative then "-" else "") ++ Text.ofString "inf"
  | finite negative mantissa exponent =>
    let (num, den) := fraction mantissa exponent
    let digits := Text.ofNat (roundDiv (num * Nat.pow 10 places) den)
    let padded := zeros (places + 1 - digits.length) ++ digits
    let whole := padded.length - places
    (if negative then "-" else "") ++ padded.take whole
      ++ (if places = 0 then [] else Text.ofString "." ++ padded.drop whole)

end StepCheck.Binary64
