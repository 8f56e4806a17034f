import StepCheck.Console.Width
import StepCheck.Text.Blank
import StepCheck.Text.Lines
import StepCheck.Text.Search

/-!
# Lines on a console

Some control characters vanish, tabs go on to the next of the columns 8, 16, …, and a text that is
too wide for its place is broken between words.

* `Console.linesOf` — the lines of a text;
* `Console.fitted` — the lines of a text within a width.
-/

namespace StepCheck

namespace Console

/-- Control characters that vanish: bell, backspace, vertical tab, form feed, carriage return. -/
def vanishes (c : CodePoint) : Bool :=
  c.val == 0x07 || c.val == 0x08 || (0x0B ≤ c.val && c.val ≤ 0x0D)

/-- The distance of tab stops. -/
def tabWidth : Nat := 8

/-- The parts of a line between tabs. -/
def betweenTabs (t : Text) : List Text :=
  t.foldr (fun c ps =>
    if c = CodePoint.ofChar '\t' then [] :: ps
    else match ps with
      | [] => [[c]]
      | p :: rest => (c :: p) :: rest) [[]]

/-- Parts of a line from a column on, each but the last filled up to a tab stop. -/
def withoutTabs (column : Nat) : List Text → Text
  | [] => []
  | [p] => p
  | p :: ps =>
    let column := column + p.cells
    let gap := tabWidth - column % tabWidth
    p ++ List.replicate gap (CodePoint.ofChar ' ') ++ withoutTabs (column + gap) ps

/-- A line with blanks for its tabs. -/
def expanded (t : Text) : Text := withoutTabs 0 (betweenTabs t)

/-- **The lines of a text** as they are shown. -/
def linesOf (t : Text) : List Text := (Text.lines (t.filter (!vanishes ·))).map expanded

/-! ### Widths -/

/-- Characters at which a text is broken to measure it. -/
def separatesLines (c : CodePoint) : Bool :=
  c.val == 0x0A || (0x1C ≤ c.val && c.val ≤ 0x1E) || c.val == 0x85 || c.val == 0x2028
    || c.val == 0x2029

/-- The parts of a text between characters of a class. -/
def partsBetween (p : CodePoint → Bool) (t : Text) : List Text :=
  t.foldr (fun c ps =>
    if p c then [] :: ps
    else match ps with
      | [] => [[c]]
      | q :: rest => (c :: q) :: rest) [[]]

/-- The greatest of a list of numbers, 0 if there is none. -/
def greatest (ns : List Nat) : Nat := ns.foldl max 0

/-- **The width that a text asks for.** Tabs do not count. -/
def widthOf (t : Text) : Nat :=
  greatest ((partsBetween separatesLines (t.filter (!vanishes ·))).map Text.cells)

/-! ### Breaking -/

/-- A word with the white space around it, where a text begins with it, and what follows. -/
def nextWord (t : Text) : Text × Text :=
  let before := t.takeWhile CodePoint.isBlank
  let word := (t.drop before.length).takeWhile (!CodePoint.isBlank ·)
  let behind := (t.drop (before.length + word.length)).takeWhile CodePoint.isBlank
  let n := before.length + word.length + behind.length
  if word.isEmpty then ([], t) else (t.take n, t.drop n)

/-- The words of a text, each with the white space around it; white space behind the last word
belongs to it. At most `most` words are cut off. -/
def words : (most : Nat) → Text → List Text
  | 0, _ => []
  | most + 1, t =>
    match nextWord t with
    | ([], _) => []
    | (word, rest) => word :: words most rest

/-- The lines that words make up within a width. A word that is wider than that has a line of its
own. `line` has been begun and takes up `column` cells. -/
def broken (width : Nat) (line : Text) (column : Nat) : List Text → List Text
  | [] => [line]
  | w :: ws =>
    let size := Text.cells (Text.stripRight w)
    if column + size ≤ width then broken width (line ++ w) (column + w.cells) ws
    -- the word is too wide for any line
    else if line.isEmpty then broken width w w.cells ws
    else line :: broken width w w.cells ws

/-- A line without the white space at its end, as far as it is longer than a width. -/
def withoutExcess (width : Nat) (t : Text) : Text :=
  let blanks := (t.reverse.takeWhile CodePoint.isBlank).length
  t.take (t.length - min blanks (t.length - width))

/-- A line cut to a width, with an ellipsis where it has been cut. -/
def cut (width : Nat) (t : Text) : Text :=
  if width < Text.cells t then Text.ofCells (width - 1) t ++ [CodePoint.ofNat 0x2026] else t

/-- **Where a text stands** in its place. -/
inductive Side
  | left
  | right
  | center
deriving DecidableEq

/-- A line filled up to a width. -/
def filled (side : Side) (width : Nat) (t : Text) : Text :=
  match side with
  | .left =>
    let t := cut width t
    t ++ List.replicate (width - Text.cells t) (CodePoint.ofChar ' ')
  | .right =>
    let t := cut width (Text.stripRight t)
    List.replicate (width - Text.cells t) (CodePoint.ofChar ' ') ++ t
  | .center =>
    let t := cut width (Text.stripRight t)
    let before := (width - Text.cells t) / 2
    let t := List.replicate before (CodePoint.ofChar ' ') ++ t
    t ++ List.replicate (width - Text.cells t) (CodePoint.ofChar ' ')

/-- **The lines of a text within a width**, broken between words if `breaks`. -/
def fitted (side : Side) (breaks : Bool) (width : Nat) (t : Text) : List Text :=
  (linesOf t).flatMap fun line =>
    let parts := if breaks then
        match words line.length line with
        | [] => [line]
        | ws => broken width [] 0 ws
      else [line]
    parts.map fun part => filled side width (withoutExcess width part)

end Console

end StepCheck
