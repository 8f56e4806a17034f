import StepCheck.Datum.Basic
import StepCheck.Yaml.Failure
import StepCheck.Yaml.Plain

/-!
# Times of YAML

A time is a day of the calendar, perhaps with a time of day and a zone.

* `Time.value` — the time that a scalar writes.
-/

namespace StepCheck.Yaml

namespace Time

/-- Whether a year has a 29th of February. -/
def isLeap (year : Nat) : Bool := year % 4 == 0 && (year % 100 != 0 || year % 400 == 0)

/-- The number of days of a month. -/
def daysOf (year month : Nat) : Nat :=
  if month = 2 then (if isLeap year then 29 else 28)
  else if month = 4 ∨ month = 6 ∨ month = 9 ∨ month = 11 then 30
  else 31

/-- The day of three numbers. -/
def day (year month day : Nat) : Except Failure Day :=
  if year = 0 then .error .yearOutOfRange
  else if month = 0 ∨ 12 < month then .error .monthOutOfRange
  else if day = 0 ∨ daysOf year month < day then .error .dayOutOfRange
  else .ok ⟨year, month, day⟩

/-- The number that decimal digits write. -/
def number (t : Text) : Nat := Text.numeral 10 t

/-- The seconds of a day. -/
def daySeconds : Int := 86400

/-- The distance of a zone from universal time in seconds. -/
def zone (z : Option (CodePoint × Text × Option Text)) : Except Failure Int :=
  match z with
  | none => .ok 0
  | some (sign, hours, minutes) =>
    let size : Int := number hours * 3600 + number (minutes.getD []) * 60
    let seconds := if sign = '-' then -size else size
    if daySeconds ≤ size then .error (.zoneOutOfRange seconds) else .ok seconds

/-- The millionths of a second of a fraction. -/
def microseconds (fraction : Option Text) : Nat :=
  let digits := (fraction.getD []).take 6
  number digits * Nat.pow 10 (6 - digits.length)

/-- **The time that a scalar writes.** A line feed at the end does not count. -/
def value (t : Text) : Except Failure Datum := do
  match Plain.timestamp? (Plain.withoutLastFeed t) with
  | none => throw .noTime
  | some s =>
    match s.clock with
    | none => return .day (← day (number s.year) (number s.month) (number s.day))
    | some (hour, minute, second, fraction) =>
      let zone ← s.zone.mapM zone
      let d ← day (number s.year) (number s.month) (number s.day)
      if 23 < number hour then throw .hourOutOfRange
      if 59 < number minute then throw .minuteOutOfRange
      if 59 < number second then throw .secondOutOfRange
      return .moment d ⟨number hour, number minute, number second, microseconds fraction, zone⟩

end Time

end StepCheck.Yaml
