import StepCheck.Datum.Shown

/-!
# Writing JSON

Two layouts. `Json.document` is for people: one element a line, two blanks of indentation a level,
keys in order, ASCII only. `Json.line` puts everything on one line, as a program reads it.
-/

namespace StepCheck.Json

/-- The escape of one sixteen-bit unit. -/
def unitEscape (n : Nat) : Text := "\\u" ++ Text.hex 4 n

/-- A code point inside a string, in ASCII. Beyond U+FFFF it is written as two units. -/
def escaped (c : CodePoint) : Text :=
  if c = '"' then "\\\""
  else if c = '\\' then "\\\\"
  else if c = '\n' then "\\n"
  else if c = '\r' then "\\r"
  else if c = '\t' then "\\t"
  else if c.val = 0x08 then "\\b"
  else if c.val = 0x0C then "\\f"
  else if 0x20 ≤ c.val ∧ c.val ≤ 0x7E then [c]
  else if c.val < 0x10000 then unitEscape c.val
  else unitEscape (0xD800 + (c.val - 0x10000) / 0x400)
    ++ unitEscape (0xDC00 + (c.val - 0x10000) % 0x400)

/-- A string, in quotes. -/
def string (t : Text) : Text := "\"" ++ t.flatMap escaped ++ "\""

/-- A floating-point number: its shortest numeral, or a word for what is not finite. -/
def real (x : Float) : Text :=
  match Binary64.of x with
  | .notANumber => "NaN"
  | .infinite negative => if negative then "-Infinity" else "Infinity"
  | .finite .. => Binary64.numeral x

/-- A value that holds no other one. Days, times and bytes are written as strings. -/
def scalar : Datum → Text
  | .null => "null"
  | .bool true => "true"
  | .bool false => "false"
  | .int i => Text.ofInt i
  | .real x => real x
  | d => string d.shown

/-- Written entries in the order of their keys. -/
def inKeyOrder (entries : List (Text × Text)) : List (Text × Text) :=
  entries.mergeSort fun e f => !f.1.before e.1

/-! ### One element a line -/

/-- A line break with the indentation of a level. -/
def newline (level : Nat) : Text := '\n' :: List.replicate (2 * level) (CodePoint.ofChar ' ')

/-- Elements between brackets, one a line. -/
def enclosed (opening closing : CodePoint) (level : Nat) : List Text → Text
  | [] => [opening, closing]
  | xs => opening :: newline (level + 1) ++ Text.join (',' :: newline (level + 1)) xs
      ++ newline level ++ [closing]

mutual
/-- A value at a level of indentation. -/
def block (level : Nat) : Datum → Text
  | .list xs => enclosed '[' ']' level (blocks (level + 1) xs)
  | .pair a b => enclosed '[' ']' level [block (level + 1) a, block (level + 1) b]
  | .set xs => enclosed '[' ']' level (blocks (level + 1) xs)
  | .record entries =>
    enclosed '\x7b' '\x7d' level
      ((inKeyOrder (blockEntries (level + 1) entries)).map fun (k, v) => string k ++ ": " ++ v)
  | d => scalar d

/-- Values at a level of indentation. -/
def blocks (level : Nat) : List Datum → List Text
  | [] => []
  | x :: xs => block level x :: blocks level xs

/-- Keys and values at a level of indentation. -/
def blockEntries (level : Nat) : List (Datum × Datum) → List (Text × Text)
  | [] => []
  | (k, v) :: rest => (k.shown, block level v) :: blockEntries level rest
end

/-- **A document**, with a line feed at its end. -/
def document (d : Datum) : Text := block 0 d ++ "\n"

/-! ### Everything on one line -/

mutual
/-- **A value on one line**, entries in the order in which they stand. -/
def line : Datum → Text
  | .list xs => "[" ++ Text.join "," (lines xs) ++ "]"
  | .pair a b => "[" ++ line a ++ "," ++ line b ++ "]"
  | .set xs => "[" ++ Text.join "," (lines xs) ++ "]"
  | .record entries => "\x7b" ++ Text.join "," (lineEntries entries) ++ "\x7d"
  | d => scalar d

/-- Values on one line each. -/
def lines : List Datum → List Text
  | [] => []
  | x :: xs => line x :: lines xs

/-- Entries on one line each. -/
def lineEntries : List (Datum × Datum) → List Text
  | [] => []
  | (k, v) :: rest => (string k.shown ++ ":" ++ line v) :: lineEntries rest
end

end StepCheck.Json
