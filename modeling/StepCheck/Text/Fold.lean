import StepCheck.Text.Basic
import StepCheck.Text.FoldTable

/-!
# Letters that differ in case only

The names of property sets are recognised whatever the case of their letters. Two code points are
alike if simple case folding makes them equal; the dotted and the dotless `i` are alike as well.
-/

namespace StepCheck

/-- The least code point among those that differ from `c` in case only. -/
def CodePoint.fold (c : CodePoint) : CodePoint :=
  if c.isCapital then CodePoint.ofNat (c.val + 0x20)
  else if c.val < 0x80 then c
  else
    match CaseRun.shiftOf? c.val foldRuns with
    | some shift => CodePoint.ofNat (c.val + shift).toNat
    | none => c

namespace Text

/-- The text with each letter replaced by the least one of its class. -/
def fold (t : Text) : Text := t.map CodePoint.fold

/-- The text behind a given beginning, whatever the case of the letters; `none` if the text does not
begin so. -/
def afterFolded? : (beginning t : Text) → Option Text
  | [], t => some t
  | _ :: _, [] => none
  | b :: bs, c :: t => if b.fold = c.fold then afterFolded? bs t else none

@[simp] theorem afterFolded?_nil (t : Text) : afterFolded? [] t = some t := by
  cases t <;> rfl

end Text

end StepCheck
