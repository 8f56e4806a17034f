import StepCheck.Datum.Basic
import StepCheck.Decimal.Numeral
import StepCheck.Text.Quoted

/-!
# Data as text

A policy may name an entity by any value, and the name is then the text of that value: `None`,
`True`, `1.5`, `['a']`, `2024-01-01`. A text stands for itself; inside a list or a record it stands
in quotes.

* `Datum.shown` — the text of a value;
* `Datum.written` — the text of a value inside another one.
-/

namespace StepCheck

/-- A byte as it stands between quotes of the given kind. -/
private def byteQuotedWith (quote : CodePoint) (b : UInt8) : Text :=
  let c := CodePoint.ofNat b.toNat
  if 0x7F < c.val then "\\x" ++ Text.hex 2 c.val else CodePoint.quotedWith quote c

/-- Bytes in quotes. -/
def quotedBytes (bs : List UInt8) : Text :=
  let quote := Text.quoteFor (bs.map fun b => CodePoint.ofNat b.toNat)
  "b" ++ quote :: bs.flatMap (byteQuotedWith quote) ++ [quote]

/-- A number with zeros before it up to `width` digits. -/
def paddedNumber (width n : Nat) : Text :=
  let digits := Text.ofNat n
  List.replicate (width - digits.length) (CodePoint.ofChar '0') ++ digits

namespace Day

/-- A day as `2024-01-31`. -/
def shown (d : Day) : Text :=
  paddedNumber 4 d.year ++ "-" ++ paddedNumber 2 d.month ++ "-" ++ paddedNumber 2 d.day

/-- The three numbers of a day. -/
def numbers (d : Day) : List Text := [Text.ofNat d.year, Text.ofNat d.month, Text.ofNat d.day]

end Day

namespace Clock

/-- The distance of a zone as `+01:00`, with seconds only if there are any. -/
def zoneShown (seconds : Int) : Text :=
  let n := seconds.natAbs
  Text.ofString (if seconds < 0 then "-" else "+") ++ paddedNumber 2 (n / 3600) ++ ":"
    ++ paddedNumber 2 (n / 60 % 60)
    ++ (if n % 60 = 0 then [] else Text.ofString ":" ++ paddedNumber 2 (n % 60))

/-- A time of day as `10:00:00`, with the fraction and the zone only if there are any. -/
def shown (c : Clock) : Text :=
  paddedNumber 2 c.hour ++ ":" ++ paddedNumber 2 c.minute ++ ":" ++ paddedNumber 2 c.second
    ++ (if c.microsecond = 0 then [] else Text.ofString "." ++ paddedNumber 6 c.microsecond)
    ++ (match c.zone with
        | none => []
        | some z => zoneShown z)

/-- The numbers of a time of day; seconds and the fraction are left out where they are zero. -/
def numbers (c : Clock) : List Text :=
  [Text.ofNat c.hour, Text.ofNat c.minute]
    ++ (if c.microsecond = 0 then (if c.second = 0 then [] else [Text.ofNat c.second])
        else [Text.ofNat c.second, Text.ofNat c.microsecond])

/-- A length of time inside another value. -/
def durationWritten (seconds : Int) : Text :=
  let days := seconds.fdiv 86400
  let rest := seconds.fmod 86400
  let parts : List Text :=
    (if days = 0 then [] else [Text.ofString "days=" ++ Text.ofInt days])
      ++ (if rest = 0 then [] else [Text.ofString "seconds=" ++ Text.ofInt rest])
  "datetime.timedelta(" ++ Text.join ", " parts ++ ")"

/-- A zone inside another value. -/
def zoneWritten (seconds : Int) : Text :=
  if seconds = 0 then "datetime.timezone.utc"
  else "datetime.timezone(" ++ durationWritten seconds ++ ")"

end Clock

namespace Datum

mutual
/-- **The text of a value inside another one.** -/
def written : Datum → Text
  | null => "None"
  | bool true => "True"
  | bool false => "False"
  | int i => Text.ofInt i
  | real x => Binary64.numeral x
  | text t => t.quoted
  | bytes bs => quotedBytes bs
  | day d => "datetime.date(" ++ Text.join ", " d.numbers ++ ")"
  | moment d c =>
    "datetime.datetime(" ++ Text.join ", " (d.numbers ++ c.numbers)
      ++ (match c.zone with
          | none => []
          | some z => Text.ofString ", tzinfo=" ++ Clock.zoneWritten z) ++ ")"
  | list xs => "[" ++ Text.join ", " (writtenAll xs) ++ "]"
  | pair a b => "(" ++ a.written ++ ", " ++ b.written ++ ")"
  | set [] => "set()"
  | set (x :: xs) => "\x7b" ++ Text.join ", " (x.written :: writtenAll xs) ++ "\x7d"
  | record entries => "\x7b" ++ Text.join ", " (writtenEntries entries) ++ "\x7d"

/-- The texts of the values of a list. -/
def writtenAll : List Datum → List Text
  | [] => []
  | x :: xs => x.written :: writtenAll xs

/-- The texts of the entries of a record. -/
def writtenEntries : List (Datum × Datum) → List Text
  | [] => []
  | (k, v) :: rest => (k.written ++ ": " ++ v.written) :: writtenEntries rest
end

/-- **The text of a value.** -/
def shown : Datum → Text
  | text t => t
  | day d => d.shown
  | moment d c => d.shown ++ " " ++ c.shown
  | d => d.written

@[simp] theorem shown_text (t : Text) : (text t).shown = t := rfl

end Datum

end StepCheck
