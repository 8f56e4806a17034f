import StepCheck.Text.Basic
import StepCheck.Text.Run

/-!
# White space

White space is what Unicode calls so, together with the information separators U+001C to U+001F.
Zero-width code points such as U+200B and U+FEFF are none.

* `CodePoint.isBlank` — the class;
* `Text.strip` — a text without the white space at its ends;
* `Text.blanks` — the white space at the front of a text.
-/

namespace StepCheck

/-- Ranges of white space, both ends included. -/
def blankRanges : List (Nat × Nat) :=
  [(0x9, 0xD), (0x1C, 0x20), (0x85, 0x85), (0xA0, 0xA0), (0x1680, 0x1680), (0x2000, 0x200A),
    (0x2028, 0x2029), (0x202F, 0x202F), (0x205F, 0x205F), (0x3000, 0x3000)]

/-- **White space.** -/
def CodePoint.isBlank (c : CodePoint) : Bool := inRanges c.val blankRanges

namespace Text

/-- The text without the white space at its front. -/
def stripLeft (t : Text) : Text := t.dropWhile CodePoint.isBlank

/-- The text without the white space at its end. -/
def stripRight (t : Text) : Text := (t.reverse.dropWhile CodePoint.isBlank).reverse

/-- **The text without the white space** at either end. -/
def strip (t : Text) : Text := t.stripLeft.stripRight

/-- The white space at the front of the text. -/
def blanks (t : Text) : Text := t.takeWhile CodePoint.isBlank

/-- White space at the front changes nothing once it is stripped. -/
theorem stripLeft_cons_of_isBlank {c : CodePoint} (h : c.isBlank) (t : Text) :
    stripLeft (c :: t) = stripLeft t := by
  simp [stripLeft, h]

/-- The white space at the front and what is left without it make up the text. -/
theorem blanks_append_stripLeft (t : Text) : blanks t ++ stripLeft t = t :=
  List.takeWhile_append_dropWhile

end Text

end StepCheck
