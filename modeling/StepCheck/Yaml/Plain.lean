import StepCheck.Text.Basic

/-!
# Plain scalars of YAML

A scalar without quotes is a text unless it has the form of something else: nothing, a flag, a
number, a time. The forms are those of YAML 1.1, and only the listed spellings count.

* `Plain.Kind` — what a plain scalar stands for;
* `Plain.kind` — the kind that a form tells;
* `Plain.sexagesimal?` — the parts of a numeral to the base 60;
* `Plain.Timestamp` — the parts of a time.
-/

namespace StepCheck.Yaml

namespace Plain

/-- **What a plain scalar stands for.** -/
inductive Kind
  | text
  | null
  | flag
  | integer
  | real
  | timestamp
  /-- The key `<<`, whose value is merged into its record. -/
  | merge
  /-- The key `=`. -/
  | value
  /-- A lone indicator. -/
  | indicator
deriving DecidableEq

/-- The spellings of nothing. -/
def nullWords : List Text := ["", "~", "null", "Null", "NULL"]

/-- The spellings of the flag that is set. -/
def trueWords : List Text := ["yes", "Yes", "YES", "true", "True", "TRUE", "on", "On", "ON"]

/-- The spellings of the flag that is not set. -/
def falseWords : List Text := ["no", "No", "NO", "false", "False", "FALSE", "off", "Off", "OFF"]

/-- The low line, which may stand between digits. -/
def lowLine : CodePoint := CodePoint.ofChar '_'

/-- Digits and low lines. -/
def isDigitOrLine (c : CodePoint) : Bool := c.isDigit || c = lowLine

/-- A numeral without its sign, if it has one. -/
def unsigned : Text → Text
  | [] => []
  | c :: t => if c = '+' ∨ c = '-' then t else c :: t

/-- Whether a text is not empty and all its code points are of a class. -/
def allOf (p : CodePoint → Bool) (t : Text) : Bool := !t.isEmpty && t.all p

/-- Whether a text begins with a digit other than zero, if `noZero`, or with any digit. -/
def startsWithDigit (noZero : Bool) : Text → Bool
  | [] => false
  | c :: _ => c.isDigit && !(noZero && c = '0')

/-! ### Numerals to the base 60 -/

/-- Groups of one or two digits, each behind a colon and below sixty; the groups and what follows
them. -/
def sexagesimalGroups? : Text → Option (List Text × Text)
  | [] => some ([], [])
  | c :: t =>
    if c = ':' then
      match t with
      | [] => none
      | [a] => if a.isDigit then some ([[a]], []) else none
      | a :: b :: rest =>
        if a.isDigit ∧ b.isDigit then
          if a.digitValue < 6 then
            (sexagesimalGroups? rest).map fun (gs, rest) => ([a, b] :: gs, rest)
          else none
        -- one digit is enough, and then any other may begin the next group
        else if a.isDigit then
          (sexagesimalGroups? (b :: rest)).map fun (gs, rest) => ([a] :: gs, rest)
        else none
    else some ([], c :: t)

/-- The parts of a numeral to the base 60 without sign, and what follows it. -/
def sexagesimal? (noZero : Bool) (t : Text) : Option (List Text × Text) :=
  if startsWithDigit noZero t then
    match sexagesimalGroups? (t.dropWhile isDigitOrLine) with
    | some (g :: gs, rest) => some (t.takeWhile isDigitOrLine :: g :: gs, rest)
    | _ => none
  else none

/-! ### Whole numbers -/

/-- Whether a text without sign is a whole number: to the base 2, 8, 10, 16 or 60. -/
def isInteger (t : Text) : Bool :=
  match t with
  | [] => false
  | [c] => c.isDigit
  | c :: d :: rest =>
    -- a zero in front tells the base, which is 8 without a letter
    if c = '0' then
      (d = 'b' && allOf (fun e => e = '0' || e = '1' || e = lowLine) rest)
        || (d = 'x' && allOf (fun e => e.isHexDigit || e = lowLine) rest)
        || (d :: rest).all fun e => (e.isDigit && e.digitValue < 8) || e = lowLine
    else
      c.isDigit && ((d :: rest).all isDigitOrLine
        || match sexagesimal? true t with
           | some (_, []) => true
           | _ => false)

/-! ### Other numbers -/

/-- Whether a text is an exponent, which needs a sign, or empty. -/
def isExponent : Text → Bool
  | [] => true
  | [_] => false
  | c :: s :: digits =>
    (c = 'e' || c = 'E') && (s = '+' || s = '-') && allOf CodePoint.isDigit digits

/-- Whether a text consists of digits, perhaps none, and an exponent, perhaps none. -/
def isFraction (t : Text) : Bool := isExponent (t.dropWhile isDigitOrLine)

/-- Whether a text is a point with a fraction behind it. -/
def isPointed : Text → Bool
  | [] => false
  | c :: t => c = '.' && isFraction t

/-- Whether a text is a word for infinity. -/
def isInfinity (t : Text) : Bool :=
  t = Text.ofString ".inf" || t = Text.ofString ".Inf" || t = Text.ofString ".INF"

/-- Whether a text is a word for what is no number. -/
def isNotANumber (t : Text) : Bool :=
  t = Text.ofString ".nan" || t = Text.ofString ".NaN" || t = Text.ofString ".NAN"

/-- Whether a text has the form of a number with a point. -/
def isReal (t : Text) : Bool :=
  let u := unsigned t
  let pointed := startsWithDigit false u && isPointed (u.dropWhile isDigitOrLine)
  -- without digits before the point there must be no sign and a digit behind it
  let bare := match t with
    | [] => false
    | c :: rest => c = '.' && startsWithDigit false rest && isFraction rest
  let sixty := match sexagesimal? false u with
    | some (_, c :: rest) => c = '.' && rest.all isDigitOrLine
    | _ => false
  pointed || bare || sixty || isInfinity u || isNotANumber t

/-! ### Times -/

/-- **The parts of a time.** -/
structure Timestamp where
  year : Text
  month : Text
  day : Text
  /-- The time of day, if there is one: hours, minutes, seconds, fraction. -/
  clock : Option (Text × Text × Text × Option Text)
  /-- The zone, if there is one: `none` for universal time, else sign, hours and minutes. -/
  zone : Option (Option (CodePoint × Text × Option Text))

/-- A number of digits between `least` and `most` at the front, and what follows. -/
def digitsBetween? (least most : Nat) (t : Text) : Option (Text × Text) :=
  let ds := (t.take most).takeWhile CodePoint.isDigit
  if least ≤ ds.length then some (ds, t.drop ds.length) else none

/-- What follows a given character. -/
def after? (c : CodePoint) : Text → Option Text
  | [] => none
  | d :: t => if d = c then some t else none

/-- A blank or a tab. -/
def isGap (c : CodePoint) : Bool := c = ' ' || c = '\t'

/-- The zone at the end of a time. -/
def zone? (t : Text) : Option (Option (Option (CodePoint × Text × Option Text))) :=
  match t.dropWhile isGap with
  | [] => if t.isEmpty then some none else none
  | c :: rest =>
    if c = 'Z' then (if rest.isEmpty then some (some none) else none)
    else if c = '+' ∨ c = '-' then do
      let (hours, rest) ← digitsBetween? 1 2 rest
      if rest.isEmpty then return some (some (c, hours, none))
      let rest ← after? ':' rest
      let (minutes, rest) ← digitsBetween? 2 2 rest
      guard rest.isEmpty
      return some (some (c, hours, some minutes))
    else none

/-- The fraction of a second, if there is one, and what follows. -/
def fraction (t : Text) : Option Text × Text :=
  match after? '.' t with
  | some rest => (some (rest.takeWhile CodePoint.isDigit), rest.dropWhile CodePoint.isDigit)
  | none => (none, t)

/-- **The time that a text writes**: a day, or a day with a time of day. -/
def timestamp? (t : Text) : Option Timestamp := do
  let (year, rest) ← digitsBetween? 4 4 t
  let rest ← after? '-' rest
  let (month, rest) ← digitsBetween? 1 2 rest
  let rest ← after? '-' rest
  let (day, rest) ← digitsBetween? 1 2 rest
  -- a day alone
  let c :: more := rest | return ⟨year, month, day, none, none⟩
  let rest := if c = 'T' ∨ c = 't' then more else rest.dropWhile isGap
  guard (c = 'T' ∨ c = 't' ∨ isGap c)
  let (hour, rest) ← digitsBetween? 1 2 rest
  let rest ← after? ':' rest
  let (minute, rest) ← digitsBetween? 2 2 rest
  let rest ← after? ':' rest
  let (second, rest) ← digitsBetween? 2 2 rest
  let (part, rest) := fraction rest
  let zone ← zone? rest
  return ⟨year, month, day, some (hour, minute, second, part), zone⟩

/-- Whether a text has the form of a time. A day alone needs two digits for month and day. -/
def isTimestamp (t : Text) : Bool :=
  match timestamp? t with
  | some s => s.clock.isSome || (s.month.length == 2 && s.day.length == 2)
  | none => false

/-! ### Kinds -/

/-- The kind of a plain scalar with no line feed at its end. -/
def kindOfLine (t : Text) : Kind :=
  if nullWords.contains t then .null
  else if trueWords.contains t || falseWords.contains t then .flag
  -- the forms overlap, and the first that fits counts
  else if isReal t then .real
  else if isInteger (unsigned t) then .integer
  else if isTimestamp t then .timestamp
  else if t = Text.ofString "<<" then .merge
  else if t = Text.ofString "=" then .value
  else if t = Text.ofString "!" ∨ t = Text.ofString "&" ∨ t = Text.ofString "*" then .indicator
  else .text

/-- A text without the line feed at its end, if it has one; a line feed alone stays. -/
def withoutLastFeed (t : Text) : Text :=
  if t.getLast? = some CodePoint.lineFeed ∧ 1 < t.length then t.dropLast else t

/-- **The kind of a plain scalar.** Its form may end before a last line feed. -/
def kind (t : Text) : Kind := kindOfLine (withoutLastFeed t)

theorem withoutLastFeed_of_notMem {t : Text} (h : CodePoint.lineFeed ∉ t) :
    withoutLastFeed t = t :=
  if_neg fun hlast => h (List.mem_of_getLast? hlast.1)

theorem kind_of_notMem {t : Text} (h : CodePoint.lineFeed ∉ t) : kind t = kindOfLine t :=
  congrArg kindOfLine (withoutLastFeed_of_notMem h)

end Plain

end StepCheck.Yaml
