import StepCheck.Yaml.Plain

/-!
# The style of a scalar

A text is written plainly where YAML would read it back from that, else between single quotes, and
between double quotes only if it holds what the others cannot: special characters, or blanks next to
a line break.

* `Style` — the three styles;
* `Style.of` — the style in which a text is written.
-/

namespace StepCheck.Yaml

/-- Line breaks of YAML, the carriage return aside. -/
def isBreak (c : CodePoint) : Bool :=
  c = '\n' || c.val == 0x85 || c.val == 0x2028 || c.val == 0x2029

/-- White space of YAML: what separates an indicator from what follows. -/
def isSeparator (c : CodePoint) : Bool :=
  isBreak c || c = ' ' || c = '\t' || c = '\r' || c.val == 0

/-- Characters that no plain or single-quoted scalar can hold. -/
def isSpecial (c : CodePoint) : Bool :=
  let n := c.val
  !(c = '\n' || (0x20 ≤ n && n ≤ 0x7E) || n == 0x85 || (0xA0 ≤ n && n ≤ 0xD7FF)
    || (0xE000 ≤ n && n ≤ 0xFFFD && n != 0xFEFF) || (0x10000 ≤ n && n < 0x10FFFF))

/-- Characters with which no plain scalar begins. -/
def leadingIndicators : Text := "#,[]\x7b\x7d&*!|>'\"%@`"

/-- **How a scalar is written.** -/
inductive Style
  | plain
  | single
  | double
deriving DecidableEq

namespace Style

/-- Whether there is nothing, or white space, at the front. -/
def endsHere : Text → Bool
  | [] => true
  | c :: _ => isSeparator c

/-- Whether a text holds a colon before white space or at its end, or a number sign behind white
space; `afterSpace` tells whether white space has just been read. -/
def hasInnerIndicator (afterSpace : Bool) : Text → Bool
  | [] => false
  | c :: t =>
    (c = ':' && endsHere t) || (c = '#' && afterSpace) || hasInnerIndicator (isSeparator c) t

/-- Whether the first character of a text is an indicator there. -/
def hasLeadingIndicator : Text → Bool
  | [] => false
  | c :: t =>
    leadingIndicators.contains c || ((c = '?' || c = ':' || c = '-') && endsHere t)

/-- Whether a text begins as a document marker does. -/
def hasMarker (t : Text) : Bool :=
  (Text.ofString "---").isPrefixOf t || (Text.ofString "...").isPrefixOf t

/-- Whether a blank stands directly behind a line break. -/
def hasBlankAfterBreak : Text → Bool
  | c :: d :: t => (isBreak c && d = ' ') || hasBlankAfterBreak (d :: t)
  | _ => false

/-- Whether a blank stands directly before a line break. -/
def hasBlankBeforeBreak : Text → Bool
  | c :: d :: t => (c = ' ' && isBreak d) || hasBlankBeforeBreak (d :: t)
  | _ => false

/-- Whether a character at an end of a text is lost where the text is not quoted. -/
def isLostAtEnd (c : Option CodePoint) : Bool :=
  match c with
  | none => false
  | some c => c = ' ' || isBreak c

/-- Whether a text can stand plainly, as far as its characters go. -/
def allowsPlain (t : Text) : Bool :=
  !t.isEmpty && !hasMarker t && !hasLeadingIndicator t && !hasInnerIndicator false (t.drop 1)
    && !isLostAtEnd t.head? && !isLostAtEnd t.getLast? && !t.any isBreak && !t.any isSpecial

/-- Whether a text can stand between single quotes. -/
def allowsSingle (t : Text) : Bool :=
  !hasBlankAfterBreak t && !hasBlankBeforeBreak t && !t.any isSpecial

/-- **The style of a text.** -/
def of (t : Text) : Style :=
  if allowsPlain t ∧ Plain.kind t = .text then plain
  else if allowsSingle t then single
  else double

end Style

end StepCheck.Yaml
