import StepCheck.Console.WidthTable
import StepCheck.Text.Run
import StepCheck.Text.Basic

/-!
# Widths of texts

A terminal line is made of cells. Most code points take one cell, ideographs and emoji two,
combining marks and control characters none. A joined emoji takes the cells of its first part alone,
and the emoji selector widens some narrow code points.

* `CodePoint.cells` — the cells of a code point on its own;
* `Text.cells` — the cells of a text;
* `Text.ofCells` — a text cut or filled up to a number of cells.
-/

namespace StepCheck

namespace CodePoint

/-- Control characters. They take no cell. -/
def isControl (c : CodePoint) : Bool := c.val < 0x20 || (0x7F ≤ c.val && c.val < 0xA0)

/-- **The cells of a code point** on its own. -/
def cells (c : CodePoint) : Nat :=
  if c.isControl then 0
  else if inRanges c.val zeroWidthRanges then 0
  else if inRanges c.val wideRanges then 2
  else 1

/-- The joiner, which puts the next code point into the same glyph. -/
def joiner : Nat := 0x200D

/-- The selector of emoji forms. -/
def emojiSelector : Nat := 0xFE0F

/-- Whether the emoji selector makes a code point wide. -/
def isSelectable (c : CodePoint) : Bool := inRanges c.val selectableRanges

end CodePoint

namespace Text

/-- The cells of the rest of a text. `last` is the last code point with a width, as far as a
selector may still widen it; `joined` tells whether a joiner has just been read. -/
def cellsFrom (last : Option CodePoint) (joined : Bool) : Text → Nat
  | [] => 0
  | c :: t =>
    if joined then cellsFrom last false t
    else if c.val = CodePoint.joiner then cellsFrom last true t
    else if c.val = CodePoint.emojiSelector then
      match last with
      | some d => (if d.isSelectable then 1 else 0) + cellsFrom none false t
      | none => cellsFrom none false t
    else if c.cells = 0 then cellsFrom last false t
    else c.cells + cellsFrom (some c) false t

/-- **The cells of a text.** -/
def cells (t : Text) : Nat := cellsFrom none false t

/-- The longest beginning of a text that takes no more than `width` cells, filled up with a blank
where a wide code point does not fit any more. -/
def cutCells (width : Nat) : Text → Text
  | [] => []
  | c :: t =>
    if c.cells ≤ width then c :: cutCells (width - c.cells) t
    else List.replicate width (CodePoint.ofChar ' ')

/-- **A text of exactly so many cells**: cut, or filled up with blanks. -/
def ofCells (width : Nat) (t : Text) : Text :=
  if t.cells ≤ width then t ++ List.replicate (width - t.cells) (CodePoint.ofChar ' ')
  else cutCells width t

end Text

end StepCheck
