import StepCheck.Yaml.Style

/-!
# Places in a document

Whether a line belongs to a block depends on the column in which it begins, so the place of every
token is known by line and column.

* `Cursor` — a place, with the text from there on;
* `Cursor.advance` — the place some code points further on;
* `isDocumentMarker` — the marks between documents.
-/

namespace StepCheck.Yaml

/-- **A place in a document.** -/
structure Cursor where
  /-- The text from the place on. -/
  rest : Text
  /-- The number of code points before the place. -/
  index : Nat
  line : Nat
  /-- The number of code points before the place on its line; a byte order mark does not count. -/
  column : Nat

namespace Cursor

/-- The byte order mark, which takes up no column. -/
def byteOrderMark : Nat := 0xFEFF

/-- The start of a document. -/
def start (t : Text) : Cursor := ⟨t, 0, 0, 0⟩

/-- The place behind the next code point. -/
def step (c : Cursor) : Cursor :=
  match c.rest with
  | [] => c
  | ch :: rest =>
    if isBreak ch then ⟨rest, c.index + 1, c.line + 1, 0⟩
    else if ch.val = byteOrderMark then ⟨rest, c.index + 1, c.line, c.column⟩
    else ⟨rest, c.index + 1, c.line, c.column + 1⟩

/-- **The place `n` code points further on.** -/
def advance : (n : Nat) → Cursor → Cursor
  | 0, c => c
  | n + 1, c => advance n c.step

@[simp] theorem advance_zero (c : Cursor) : c.advance 0 = c := rfl

end Cursor

/-- The line break that is read for a character: a line feed, unless it separates paragraphs or
lines of its own. -/
def breakText (c : CodePoint) : Text :=
  if c.val == 0x2028 || c.val == 0x2029 then [c] else [CodePoint.lineFeed]

/-- **A mark between documents** at the front of a line: three hyphens or three points before white
space or the end. -/
def isDocumentMarker (t : Text) : Bool := Style.hasMarker t && Style.endsHere (t.drop 3)

/-- Whether there is nothing, a blank or a line break at the front; a tab does not count. -/
def endsAtBlank : Text → Bool
  | [] => true
  | c :: _ => isSeparator c && c ≠ '\t'

/-- Whether there is nothing or a line break at the front. -/
def endsAtBreak : Text → Bool
  | [] => true
  | c :: _ => isBreak c

end StepCheck.Yaml
