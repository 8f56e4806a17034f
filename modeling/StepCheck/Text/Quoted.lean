import StepCheck.Text.Basic
import StepCheck.Text.Run
import StepCheck.Text.PrintableTable

/-!
# Quoted texts

Messages show a text in quotes, with escapes for whatever would not be seen. Single quotes are used,
unless the text holds a single quote and no double quote.
-/

namespace StepCheck

/-- Whether the code point can be shown as it is. -/
def CodePoint.isPrintable (c : CodePoint) : Bool := !inRanges c.val unprintableRanges

/-- A code point as it stands between quotes of the given kind. -/
def CodePoint.quotedWith (quote c : CodePoint) : Text :=
  if c = quote ∨ c = '\\' then ['\\', c]
  else if c = '\n' then "\\n"
  else if c = '\r' then "\\r"
  else if c = '\t' then "\\t"
  else if c.isPrintable then [c]
  else if c.val < 0x100 then "\\x" ++ Text.hex 2 c.val
  else if c.val < 0x10000 then "\\u" ++ Text.hex 4 c.val
  else "\\U" ++ Text.hex 8 c.val

namespace Text

/-- The quote that surrounds a quoted text. -/
def quoteFor (t : Text) : CodePoint :=
  if CodePoint.ofChar '\'' ∈ t ∧ CodePoint.ofChar '"' ∉ t then '"' else '\''

/-- **The text in quotes**, with escapes. -/
def quoted (t : Text) : Text :=
  let quote := quoteFor t
  quote :: t.flatMap (CodePoint.quotedWith quote) ++ [quote]

end Text

end StepCheck
