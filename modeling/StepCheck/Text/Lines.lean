import StepCheck.Text.Basic

/-!
# Lines

Lines end at line feeds and at nothing else, so a text always has one line more than it has line
feeds. Lines are numbered from 1.

* `Text.lines` — the lines without their line feeds;
* `Text.lineAt` — the number of the line in which an index lies;
* `Text.numberedFrom` — lines with their numbers.
-/

namespace StepCheck.Text

/-- The lines of a text, without the line feeds between them. -/
def lines (t : Text) : List Text :=
  t.foldr (fun c ls =>
    if c = CodePoint.lineFeed then [] :: ls
    else match ls with
      | [] => [[c]]
      | l :: rest => (c :: l) :: rest) [[]]

/-- The number of lines of a text. -/
def lineCount (t : Text) : Nat := t.lines.length

/-- The number of the line that holds the place `index` code points further on, where `line` is the
number of the line in which the text begins. -/
def lineAfter (line : Nat) : Text → Nat → Nat
  | c :: t, index + 1 => lineAfter (if c = CodePoint.lineFeed then line + 1 else line) t index
  | [], _ => line
  | _ :: _, 0 => line

/-- **The line of an index**: one more than the number of line feeds before it. An index behind the
end lies in the last line. -/
def lineAt (t : Text) (index : Nat) : Nat := lineAfter 1 t index

/-- The line of an index that counts from the end if it is negative. -/
def lineAtIndex (t : Text) (index : Int) : Nat :=
  t.lineAt (if index < 0 then t.length + index else index).toNat

/-- The lines together with their numbers, from `first` on. -/
def numberedFrom (first : Nat) : List Text → List (Nat × Text)
  | [] => []
  | l :: ls => (first, l) :: numberedFrom (first + 1) ls

/-- The number of the first line that satisfies `p`. -/
def firstLine? (p : Text → Bool) (ls : List Text) : Option Nat :=
  ls.findIdx? p |>.map (· + 1)

/-! ### Equations -/

@[simp] theorem lines_nil : lines [] = [[]] := rfl

theorem lines_cons_lineFeed (t : Text) : lines (CodePoint.lineFeed :: t) = [] :: lines t := by
  simp [lines]

/-- A text has at least one line. -/
theorem lines_ne_nil (t : Text) : lines t ≠ [] := by
  cases t with
  | nil => simp
  | cons c t =>
    simp only [lines, List.foldr_cons]
    split
    · simp
    · split <;> simp

end StepCheck.Text
