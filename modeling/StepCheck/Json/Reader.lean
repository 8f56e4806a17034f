import StepCheck.Datum.Basic

/-!
# Reading JSON

A reader of JSON texts. Numbers without point and exponent are whole numbers of any size, all others
are the nearest floating-point numbers; entries keep their order, and of two entries with one key
the later value counts. The words `NaN`, `Infinity` and `-Infinity` are read as numbers. A high
surrogate escape directly before a low one makes one code point with it; lone surrogates stay.

* `Json.read?` — the datum of a JSON text.
-/

namespace StepCheck.Json

/-- The white space of JSON. -/
def isSpace (c : CodePoint) : Bool :=
  c = ' ' || c = '\n' || c = '\t' || c = '\r'

/-- The text without white space at its front. -/
def skipSpace (t : Text) : Text := t.dropWhile isSpace

/-- What a text looks like behind its first character, if that is the one expected. -/
def expect? (c : CodePoint) : Text → Option Text
  | [] => none
  | d :: t => if d = c then some t else none

/-! ### Strings -/

/-- One more escaped unit behind the characters read so far, which are given in reverse. A low
surrogate behind a high one makes one code point with it. -/
def pushUnit (unit : Nat) : Text → Text
  | [] => [CodePoint.ofNat unit]
  | c :: read =>
    if 0xD800 ≤ c.val ∧ c.val < 0xDC00 ∧ 0xDC00 ≤ unit ∧ unit < 0xE000 then
      CodePoint.ofNat (0x10000 + (c.val - 0xD800) * 0x400 + (unit - 0xDC00)) :: read
    else CodePoint.ofNat unit :: c :: read

/-- The character that a short escape stands for. -/
def shortEscape? (c : CodePoint) : Option CodePoint :=
  if c = '"' ∨ c = '\\' ∨ c = '/' then some c
  else if c = 'b' then some (CodePoint.ofNat 8)
  else if c = 'f' then some (CodePoint.ofNat 12)
  else if c = 'n' then some (CodePoint.ofNat 10)
  else if c = 'r' then some (CodePoint.ofNat 13)
  else if c = 't' then some (CodePoint.ofNat 9)
  else none

/-- What stands before the closing quote, and the text behind it; `read` holds the characters so far
in reverse. -/
def string? (read : Text) : Text → Option (Text × Text)
  | [] => none
  | c :: t =>
    if c = '"' then some (read.reverse, t)
    else if c.val < 0x20 then none
    else if c = '\\' then
      match t with
      | [] => none
      | e :: t =>
        if e = 'u' then
          match t with
          | a :: b :: c :: d :: t =>
            if [a, b, c, d].all CodePoint.isHexDigit then
              string? (pushUnit (Text.numeral 16 [a, b, c, d]) read) t
            else none
          | _ => none
        else
          match shortEscape? e with
          | some x => string? (x :: read) t
          | none => none
    else string? (c :: read) t

/-! ### Numbers -/

/-- Digits at the front of a text and what follows them; at least one is needed. -/
def digits? (t : Text) : Option (Text × Text) :=
  match t.takeWhile CodePoint.isDigit with
  | [] => none
  | ds => some (ds, t.dropWhile CodePoint.isDigit)

/-- The fraction behind a point, if there is one. -/
def fraction? (t : Text) : Option (Option Text × Text) :=
  match expect? '.' t with
  | none => some (none, t)
  | some rest => (digits? rest).map fun (ds, rest) => (some ds, rest)

/-- The exponent, if there is one. -/
def exponent? : Text → Option (Option Int × Text)
  | [] => some (none, [])
  | c :: t =>
    if c = 'e' ∨ c = 'E' then
      match t with
      | [] => none
      | s :: rest =>
        if s = '-' then
          (digits? rest).map fun (ds, rest) => (some (-(Text.numeral 10 ds : Int)), rest)
        else
          (digits? (if s = '+' then rest else t)).map fun (ds, rest) =>
            (some (Text.numeral 10 ds : Int), rest)
    else some (none, c :: t)

/-- A number without its sign. -/
def unsigned? (negative : Bool) (t : Text) : Option (Datum × Text) := do
  let (whole, rest) ← digits? t
  -- no zero in front of other digits
  guard (whole.length = 1 || whole.head? != some (CodePoint.ofChar '0'))
  let (fraction, rest) ← fraction? rest
  let (exponent, rest) ← exponent? rest
  match fraction, exponent with
  -- only a numeral without point and exponent is a whole number
  | none, none =>
    let n : Int := Text.numeral 10 whole
    return (.int (if negative then -n else n), rest)
  | _, _ =>
    let ds := fraction.getD []
    return (.real (Binary64.ofDecimal negative (Text.numeral 10 (whole ++ ds))
      (exponent.getD 0 - ds.length)), rest)

/-- A number. -/
def number? (t : Text) : Option (Datum × Text) :=
  match expect? '-' t with
  | some rest =>
    match (Text.ofString "Infinity").isPrefixOf? rest with
    | some rest => some (.real (Binary64.infinity true), rest)
    | none => unsigned? true rest
  | none => unsigned? false t

/-! ### Values -/

/-- The words of JSON with what they stand for. -/
def words : List (Text × Datum) :=
  [("null", .null), ("true", .bool true), ("false", .bool false), ("NaN", .real Binary64.nan),
    ("Infinity", .real (Binary64.infinity false))]

/-- A word or a number. -/
def scalar? (t : Text) : Option (Datum × Text) :=
  match words.findSome? fun (word, d) => (word.isPrefixOf? t).map fun rest => (d, rest) with
  | some found => some found
  | none => number? t

mutual
/-- A value at the front of a text, and the text behind it; `fuel` bounds the work and is never used
up if it exceeds the length of the text. -/
def value? : (fuel : Nat) → Text → Option (Datum × Text)
  | 0, _ => none
  | fuel + 1, t =>
    match skipSpace t with
    | [] => none
    | c :: rest =>
      if c = '"' then (string? [] rest).map fun (s, rest) => (.text s, rest)
      else if c = '[' then
        match expect? ']' (skipSpace rest) with
        | some rest => some (.list [], rest)
        | none => elements? fuel [] rest
      else if c = '\x7b' then
        match expect? '\x7d' (skipSpace rest) with
        | some rest => some (.record [], rest)
        | none => entries? fuel [] rest
      else scalar? (c :: rest)

/-- The rest of a list; `read` holds the elements so far in reverse. -/
def elements? : (fuel : Nat) → (read : List Datum) → Text → Option (Datum × Text)
  | 0, _, _ => none
  | fuel + 1, read, t =>
    match value? fuel t with
    | none => none
    | some (x, rest) =>
      match skipSpace rest with
      | [] => none
      | c :: rest =>
        if c = ',' then elements? fuel (x :: read) rest
        else if c = ']' then some (.list (x :: read).reverse, rest)
        else none

/-- The rest of a record; `read` holds the entries so far. -/
def entries? : (fuel : Nat) → (read : List (Datum × Datum)) → Text → Option (Datum × Text)
  | 0, _, _ => none
  | fuel + 1, read, t =>
    match (expect? '"' (skipSpace t)).bind (string? []) with
    | none => none
    | some (key, rest) =>
      match (expect? ':' (skipSpace rest)).bind (value? fuel) with
      | none => none
      | some (x, rest) =>
        match skipSpace rest with
        | [] => none
        | c :: rest =>
          let read := Datum.put (.text key) x read
          if c = ',' then entries? fuel read rest
          else if c = '\x7d' then some (.record read, rest)
          else none
end

/-- **The datum of a JSON text**, if it is one. -/
def read? (t : Text) : Option Datum :=
  match value? (t.length + 1) t with
  | some (d, rest) => if (skipSpace rest).isEmpty then some d else none
  | none => none

end StepCheck.Json
