import StepCheck.Datum.Shown

/-!
# Failures of reading YAML

A document can be no YAML at all, or it can be YAML whose scalars do not have the form that their
tags ask for.

* `Failure` — the causes, with their texts (`Failure.message`).
-/

namespace StepCheck.Yaml

/-- **Why a document has no value.** -/
inductive Failure
  /-- The document is no YAML, or has a tag or a structure for which there is no value. -/
  | malformed
  /-- An escape names a number beyond the last code point. -/
  | noCodePoint (n : Nat)
  | noInteger (base : Nat) (t : Text)
  | integerTooLong (digits : Nat)
  | noNumber (t : Text)
  /-- A numeral to the base 60 has so many parts that the weight of the first is no number. -/
  | numberTooLarge
  /-- A numeral is empty. -/
  | noDigits
  | noFlagWord (t : Text)
  | noTime
  | yearOutOfRange
  | monthOutOfRange
  | dayOutOfRange
  | hourOutOfRange
  | minuteOutOfRange
  | secondOutOfRange
  /-- A zone lies a day or more from universal time. -/
  | zoneOutOfRange (seconds : Int)
  /-- Any other failure of a reader, and whether it counts as one of a wrong value. -/
  | other (isValue : Bool) (message : Text)
deriving DecidableEq

namespace Failure

/-- Most code points of a refused numeral that are shown. -/
def shownWidth : Nat := 200

/-- The text of a failure. -/
def message : Failure → Text
  | malformed => "malformed document"
  | noCodePoint n =>
    Text.ofString (if n < 0x80000000 then "chr() arg not in range(0x110000)"
      else "Python int too large to convert to C int")
  | noInteger base t =>
    "invalid literal for int() with base " ++ Text.ofNat base ++ ": "
      ++ (Text.quoted t).take shownWidth
  | integerTooLong digits =>
    "Exceeds the limit (4300 digits) for integer string conversion: value has " ++ Text.ofNat digits
      ++ " digits; use sys.set_int_max_str_digits() to increase the limit"
  | noNumber t => "could not convert string to float: " ++ Text.quoted t
  | numberTooLarge => "int too large to convert to float"
  | noDigits => "string index out of range"
  | noFlagWord t => Text.quoted t
  | noTime => "'NoneType' object has no attribute 'groupdict'"
  | yearOutOfRange => "year 0 is out of range"
  | monthOutOfRange => "month must be in 1..12"
  | dayOutOfRange => "day is out of range for month"
  | hourOutOfRange => "hour must be in 0..23"
  | minuteOutOfRange => "minute must be in 0..59"
  | secondOutOfRange => "second must be in 0..59"
  | zoneOutOfRange seconds =>
    "offset must be a timedelta strictly between -timedelta(hours=24) and timedelta(hours=24), not "
      ++ Clock.durationWritten seconds ++ "."
  | other _ message => message

end Failure

end StepCheck.Yaml
