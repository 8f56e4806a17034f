import StepCheck.Yaml.Style

/-!
# Writing scalars

Long scalars are folded: where the text written so far goes beyond the eightieth column, the line
ends at a single blank. A scalar is written at a column, and its further lines are indented.

* `Scalar.plain`, `Scalar.single`, `Scalar.double` — a text in each of the styles;
* `Scalar.written` — a text in the style that it needs.
-/

namespace StepCheck.Yaml

namespace Scalar

/-- The column beyond which lines are folded. -/
def width : Nat := 80

/-- **Where a scalar is written.** -/
structure Place where
  /-- The number of code points before it on its line. -/
  column : Nat
  /-- The indentation of its further lines. -/
  indent : Nat

/-- A line break with the indentation of further lines. -/
def newline (indent : Nat) : Text := '\n' :: List.replicate indent (CodePoint.ofChar ' ')

/-! ### Runs -/

/-- **A run** of a text: characters of one class, as many as follow each other. -/
inductive Run
  | words (t : Text)
  | blanks (n : Nat)
  | breaks (t : Text)
deriving DecidableEq

/-- The runs of a text with one more character at its front. -/
def Run.push (c : CodePoint) (runs : List Run) : List Run :=
  if c = ' ' then
    match runs with
    | blanks n :: rest => blanks (n + 1) :: rest
    | runs => blanks 1 :: runs
  else if isBreak c then
    match runs with
    | breaks t :: rest => breaks (c :: t) :: rest
    | runs => breaks [c] :: runs
  else
    match runs with
    | words t :: rest => words (c :: t) :: rest
    | runs => words [c] :: runs

/-- **The runs of a text.** -/
def Run.of (t : Text) : List Run := t.foldr Run.push []

/-! ### Plain and single-quoted scalars -/

/-- A word between single quotes: quotes are doubled. -/
def doubled (t : Text) : Text :=
  t.flatMap fun c => if c = CodePoint.ofChar '\'' then [c, c] else [c]

/-- Line breaks between single quotes. A line feed alone would be read as a blank, so one more is
written before the first. -/
def writtenBreaks (indent : Nat) (t : Text) : Text :=
  Text.ofString (if t.head? = some (CodePoint.ofChar '\n') then "\n" else "") ++ t
    ++ List.replicate indent (CodePoint.ofChar ' ')

/-- Runs written one after the other from a column on. A single blank becomes a line break beyond
the width, but not at either end of the text; `atStart` tells whether nothing has been written. -/
def folded (indent : Nat) (quote : Text → Text) (atStart : Bool) (column : Nat) : List Run → Text
  | [] => []
  | .words t :: runs =>
    let w := quote t
    w ++ folded indent quote false (column + w.length) runs
  | .blanks n :: runs =>
    -- a lone blank is all that can be folded without being lost
    if n = 1 ∧ width < column ∧ !atStart ∧ !runs.isEmpty then
      newline indent ++ folded indent quote false indent runs
    else
      List.replicate n (CodePoint.ofChar ' ') ++ folded indent quote false (column + n) runs
  | .breaks t :: runs => writtenBreaks indent t ++ folded indent quote false indent runs

/-- A text in the plain style. -/
def plain (place : Place) (t : Text) : Text := folded place.indent id true place.column (Run.of t)

/-- A text between single quotes. -/
def single (place : Place) (t : Text) : Text :=
  "'" ++ folded place.indent doubled true (place.column + 1) (Run.of t) ++ "'"

/-! ### Double-quoted scalars -/

/-- Characters that stand for themselves between double quotes. -/
def standsPlainly (c : CodePoint) : Bool :=
  let n := c.val
  c ≠ '"' && c ≠ '\\'
    && ((0x20 ≤ n && n ≤ 0x7E)
      || (0xA0 ≤ n && n ≤ 0xD7FF && n != 0x2028 && n != 0x2029)
      || (0xE000 ≤ n && n ≤ 0xFFFD && n != 0xFEFF))

/-- The characters with an escape of one letter, by their numbers. -/
def letterEscapes : List (Nat × Char) :=
  [(0x00, '0'), (0x07, 'a'), (0x08, 'b'), (0x09, 't'), (0x0A, 'n'), (0x0B, 'v'), (0x0C, 'f'),
    (0x0D, 'r'), (0x1B, 'e'), (0x22, '"'), (0x5C, '\\'), (0x85, 'N'), (0xA0, '_'), (0x2028, 'L'),
    (0x2029, 'P')]

/-- The numeral of a code point in base 16 with capitals. -/
def capitalHex (digits n : Nat) : Text := (Text.hex digits n).asciiCapitals

/-- The escape of a character. -/
def escape (c : CodePoint) : Text :=
  match letterEscapes.lookup c.val with
  | some letter => ['\\', letter]
  | none =>
    if c.val < 0x100 then "\\x" ++ capitalHex 2 c.val
    else if c.val < 0x10000 then "\\u" ++ capitalHex 4 c.val
    else "\\U" ++ capitalHex 8 c.val

/-- The line break within a double-quoted scalar, before the text `next`. A blank at the front of a
line needs a backslash. -/
def continuation (indent : Nat) (next : Text) : Text :=
  "\\" ++ newline indent
    ++ Text.ofString (if next.head? = some (CodePoint.ofChar ' ') then "\\" else "")

/-- The column behind a line break before the text `next`. -/
def continuationColumn (indent : Nat) (next : Text) : Nat :=
  if next.head? = some (CodePoint.ofChar ' ') then indent + 1 else indent

/-- The characters between double quotes. `column` counts what has been written, and `pending` the
characters behind it that stand plainly and could still move to the next line as far as the column
is concerned. The line ends beyond the width at a blank or next to an escape. -/
def doubleQuoted (indent : Nat) (atStart : Bool) (column pending : Nat) : Text → Text
  | [] => []
  | c :: rest =>
    let inner := !atStart && !rest.isEmpty
    if standsPlainly c then
      if inner ∧ (c = ' ' ∨ pending = 0) ∧ width < column + pending then
        continuation indent (c :: rest) ++ c ::
          doubleQuoted indent false (continuationColumn indent (c :: rest)) 1 rest
      else c :: doubleQuoted indent false column (pending + 1) rest
    else
      let e := escape c
      let column := column + pending + e.length
      if inner ∧ width + 1 < column then
        e ++ continuation indent rest
          ++ doubleQuoted indent false (continuationColumn indent rest) 0 rest
      else e ++ doubleQuoted indent false column 0 rest

/-- A text between double quotes. -/
def double (place : Place) (t : Text) : Text :=
  "\"" ++ doubleQuoted place.indent true (place.column + 1) 0 t ++ "\""

/-- **A text** in the style that it needs. -/
def written (place : Place) (t : Text) : Text :=
  match Style.of t with
  | .plain => plain place t
  | .single => single place t
  | .double => double place t

end Scalar

end StepCheck.Yaml
