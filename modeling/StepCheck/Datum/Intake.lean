import StepCheck.Datum.Shown
import StepCheck.Datum.Fault
import StepCheck.Text.Blank
import StepCheck.Utf8.Decode

/-!
# Taking values in

Scalars are taken in generously: numbers and flags may be written as texts, and a whole number may
have the form of another kind of number. Every reader of this module answers with the value or with
its faults, and readers of records collect the faults of all their fields.

* `Intake` — a reader of a kind of value;
* `Intake.text`, `Intake.integer`, `Intake.number`, `Intake.flag`, `Intake.word` — scalars;
* `Intake.tuple`, `Intake.list`, `Intake.dictionary` — collections;
* `Intake.both`, `Intake.required`, `Intake.withDefault` — records.
-/

namespace StepCheck

/-- **A reader** of a kind of value. -/
abbrev Intake (α : Type) : Type := Datum → Except Refusal α

namespace Intake

/-- Refuses a value for one fault. -/
def fault {α : Type} (kind : FaultKind) : Except Refusal α := .error (.faults [⟨[], kind⟩])

/-- The answer seen from one level further out. -/
def under {α : Type} (step : Step) : Except Refusal α → Except Refusal α
  | .error (.faults fs) => .error (.faults (fs.map (Fault.under step)))
  | answer => answer

/-- **Two answers together**: both values, or the faults of both. A value that cannot be gone
through ends the reading at once. -/
def both {α β : Type} (first : Except Refusal α) (second : Except Refusal β) :
    Except Refusal (α × β) :=
  match first, second with
  | .ok a, .ok b => .ok (a, b)
  | .error (.notIterable k), _ => .error (.notIterable k)
  | _, .error (.notIterable k) => .error (.notIterable k)
  | .error (.faults fs), .error (.faults gs) => .error (.faults (fs ++ gs))
  | .error r, .ok _ => .error r
  | .ok _, .error r => .error r

/-! ### Numerals -/

/-- White space that may surround a numeral. -/
def isSpace (c : CodePoint) : Bool := c.isBlank && !(0x1C ≤ c.val && c.val ≤ 0x1F)

/-- A text without white space at its ends. -/
def trim (t : Text) : Text := ((t.dropWhile isSpace).reverse.dropWhile isSpace).reverse

/-- The sign of a numeral, whether it is negative, and what follows. -/
def signed : Text → Bool × Text
  | [] => (false, [])
  | c :: t => if c = '-' then (true, t) else if c = '+' then (false, t) else (false, c :: t)

/-- Digits with single low lines between them; `none` for anything else. The flag tells whether a
digit has just been read. -/
def plainDigits? (afterDigit : Bool) : Text → Option Text
  | [] => if afterDigit then some [] else none
  | c :: t =>
    if c.isDigit then (plainDigits? true t).map (c :: ·)
    else if c = '_' ∧ afterDigit then plainDigits? false t
    else none

/-- The whole number that a text writes: digits with a sign, perhaps with low lines between digits,
perhaps with a point and zeros behind them. -/
def integerNumeral? (t : Text) : Option Int := do
  let (negative, rest) := signed (trim t)
  let whole := rest.takeWhile (· ≠ (CodePoint.ofChar '.'))
  let tail := rest.dropWhile (· ≠ (CodePoint.ofChar '.'))
  guard ((tail.drop 1).all (· = (CodePoint.ofChar '0')))
  let digits ← plainDigits? false whole
  let n : Int := Text.numeral 10 digits
  return if negative then -n else n

/-- Small letters for capitals, all else as it is. -/
def asciiSmall (t : Text) : Text :=
  t.map fun c => if c.isCapital then CodePoint.ofNat (c.val + 0x20) else c

/-- An exponent behind a number, 0 if there is none. -/
def exponentOf? : Text → Option Int
  | [] => some 0
  | c :: t => do
    guard (c = 'e' ∨ c = 'E')
    let (negative, digits) := signed t
    guard (!digits.isEmpty && digits.all CodePoint.isDigit)
    let n : Int := Text.numeral 10 digits
    return if negative then -n else n

/-- The number that a text without low lines writes. -/
def decimalNumeral? (t : Text) : Option Float := do
  let (negative, rest) := signed t
  let name := asciiSmall rest
  if name = Text.ofString "inf" ∨ name = Text.ofString "infinity" then
    return Binary64.infinity negative
  if name = Text.ofString "nan" then return Binary64.nan
  let whole := rest.takeWhile CodePoint.isDigit
  let tail := rest.dropWhile CodePoint.isDigit
  let (fraction, tail) : Text × Text :=
    match tail with
    | [] => ([], [])
    | c :: t =>
      if c = '.' then (t.takeWhile CodePoint.isDigit, t.dropWhile CodePoint.isDigit)
      else ([], c :: t)
  guard (!(whole ++ fraction).isEmpty)
  let exponent ← exponentOf? tail
  return Binary64.ofDecimal negative (Text.numeral 10 (whole ++ fraction))
    (exponent - fraction.length)

/-- Whether low lines stand only inside and never twice. -/
def lowLinesInside : (afterOther : Bool) → Text → Bool
  | afterOther, [] => afterOther
  | afterOther, c :: t =>
    if c = '_' then afterOther && lowLinesInside false t else lowLinesInside true t

/-- The number that a text writes, perhaps with low lines in it. -/
def numberNumeral? (t : Text) : Option Float :=
  let t := trim t
  match decimalNumeral? t with
  | some x => some x
  | none =>
    -- low lines are looked at only where the text is no number as it stands
    if lowLinesInside false t then decimalNumeral? (t.filter (· ≠ (CodePoint.ofChar '_'))) else none

/-- The flag that a word stands for, whatever the case of its letters. -/
def flagWord? (t : Text) : Option Bool :=
  let w := asciiSmall t
  if (["0", "off", "f", "false", "n", "no"].map Text.ofString).contains w then some false
  else if (["1", "on", "t", "true", "y", "yes"].map Text.ofString).contains w then some true
  else none

/-! ### Scalars -/

/-- The text that bytes hold. -/
def textOfBytes? (bs : List UInt8) : Option Text := (Utf8.decode .strict bs).toOption

/-- A text; bytes are taken as UTF-8. -/
def text : Intake Text
  | .text t => .ok t
  | .bytes bs =>
    match textOfBytes? bs with
    | some t => .ok t
    | none => fault .notUnicode
  | _ => fault .notText

/-- A whole number. -/
def integer : Intake Int
  | .int i => .ok i
  | .bool b => .ok (if b then 1 else 0)
  | .real x =>
    match Binary64.of x with
    | .finite .. =>
      -- whole numbers beyond 64 bits are not taken from floating-point numbers
      match Binary64.whole? x with
      | some i => if i.natAbs < 0x8000000000000000 then .ok i else fault .integerTooLarge
      | none => fault .fractional
    | _ => fault .notFinite
  | .text t => numeral t
  | .bytes bs =>
    match textOfBytes? bs with
    | some t => numeral t
    | none => fault .noIntegerNumeral
  | _ => fault .notInteger
where
  /-- A numeral. -/
  numeral (t : Text) : Except Refusal Int :=
    -- longer numerals are refused before they are read
    if 4300 < (trim t).length then fault .integerTooLarge
    else
      match integerNumeral? t with
      | some i => .ok i
      | none => fault .noIntegerNumeral

/-- A number. A whole number beyond all floating-point numbers is none. -/
def number : Intake Float
  | .real x => .ok x
  | .int i =>
    let x := Binary64.ofInt i
    if Binary64.isFinite x then .ok x else fault .notNumber
  | .bool b => .ok (if b then 1 else 0)
  | .text t => numeral t
  | .bytes bs =>
    match textOfBytes? bs with
    | some t => numeral t
    | none => fault .noNumberNumeral
  | _ => fault .notNumber
where
  /-- A numeral. -/
  numeral (t : Text) : Except Refusal Float :=
    match numberNumeral? t with
    | some x => .ok x
    | none => fault .noNumberNumeral

/-- A flag. -/
def flag : Intake Bool
  | .bool b => .ok b
  | .int i => ofInt i
  | .real x =>
    match Binary64.whole? x with
    | some i => ofInt i
    | none => fault .notFlag
  | .text t => ofWord t
  | .bytes bs =>
    match textOfBytes? bs with
    | some t => ofWord t
    | none => fault .noFlagWord
  | _ => fault .notFlag
where
  /-- A number that stands for a flag. -/
  ofInt (i : Int) : Except Refusal Bool :=
    if i = 0 then .ok false else if i = 1 then .ok true else fault .noFlagWord
  /-- A word that stands for a flag. -/
  ofWord (t : Text) : Except Refusal Bool :=
    match flagWord? t with
    | some b => .ok b
    | none => fault .noFlagWord

/-- One of a closed list of words. -/
def word {α : Type} (values : List α) (wire : α → Text) : Intake α
  | .text t =>
    match values.find? fun a => wire a = t with
    | some a => .ok a
    | none => fault (.notAmong (values.map wire))
  | _ => fault (.notAmong (values.map wire))

/-! ### Bounds -/

/-- A whole number of at least `low`. -/
def integerFrom (low : Int) : Intake Int := fun d => do
  let i ← integer d
  if i < low then fault (.below (Text.ofInt low)) else return i

/-- A whole number from `low` to `high`. -/
def integerBetween (low high : Int) : Intake Int := fun d => do
  let i ← integerFrom low d
  if high < i then fault (.above (Text.ofInt high)) else return i

/-- A number that is at least zero; what is no number is not. -/
def nonNegative : Intake Float := fun d => do
  let x ← number d
  if 0 ≤ x then return x else fault (.below "0")

/-! ### Collections -/

/-- The values of a list, taken in one by one from the index `index` on. -/
def items {α : Type} (read : Intake α) (index : Nat) : List Datum → Except Refusal (List α)
  | [] => .ok []
  | d :: ds => do
    -- the faults of later values are told together with those of earlier ones
    let (a, as) ← both (under (.number index) (read d)) (items read (index + 1) ds)
    return a :: as

/-- The values of a collection, if a datum is one. -/
def elements? : Datum → Option (List Datum)
  | .list xs => some xs
  | .pair a b => some [a, b]
  | .set xs => some xs
  | _ => none

/-- A tuple whose members are all of one kind. -/
def tuple {α : Type} (read : Intake α) : Intake (List α) := fun d =>
  match elements? d with
  | some xs => items read 0 xs
  | none => fault .notTuple

/-- A list whose members are all of one kind. -/
def list {α : Type} (read : Intake α) : Intake (List α) := fun d =>
  match elements? d with
  | some xs => items read 0 xs
  | none => fault .notList

/-- The step to an entry of a dictionary. -/
def keyStep : Datum → Step
  | .int i => .number i
  | .bool b => .number (if b then 1 else 0)
  | d => .field d.shown

/-- The entries of a dictionary, keys and values taken in one by one. -/
def entries {α β : Type} (key : Intake α) (value : Intake β) :
    List (Datum × Datum) → Except Refusal (List (α × β))
  | [] => .ok []
  | (k, v) :: rest => do
    let keyAnswer := under (keyStep k) (under (.field "[key]") (key k))
    let valueAnswer := under (keyStep k) (value v)
    let (kv, rest) ← both (both keyAnswer valueAnswer) (entries key value rest)
    return kv :: rest

/-- A dictionary. -/
def dictionary {α β : Type} (key : Intake α) (value : Intake β) : Intake (List (α × β))
  | .record es => entries key value es
  | _ => fault .notDictionary

/-! ### Records -/

/-- The entries of a record of the named kind. -/
def recordNamed {α : Type} (name : Text) (read : List (Datum × Datum) → Except Refusal α) :
    Intake α
  | .record es => read es
  | _ => fault (.notRecord name)

/-- A field that has to be there. -/
def required {α : Type} (name : String) (read : Intake α) (es : List (Datum × Datum)) :
    Except Refusal α :=
  under (.field name) <|
    match Datum.lookup? name es with
    | some d => read d
    | none => fault .missing

/-- A field with a default. -/
def withDefault {α : Type} (name : String) (default : α) (read : Intake α)
    (es : List (Datum × Datum)) : Except Refusal α :=
  match Datum.lookup? name es with
  | some d => under (.field name) (read d)
  | none => .ok default

/-- A value or `null`. -/
def nullable {α : Type} (read : Intake α) : Intake (Option α)
  | .null => .ok none
  | d => (read d).map some

end Intake

end StepCheck
