import StepCheck.Text.Search
import StepCheck.Text.Lines

/-!
# Markers and sections of a STEP physical file

A STEP physical file (ISO 10303-21) is framed by a start and an end marker, and its records stand in
two sections, each opened by its keyword and closed by the nearest `ENDSEC;` behind it. Where a
marker occurs more than once, the first occurrence counts.
-/

namespace StepCheck

namespace Marker

/-- The first words of a file. -/
def start : Text := "ISO-10303-21;"

/-- The last words of a file. -/
def finish : Text := "END-ISO-10303-21;"

/-- The keyword that opens the header section. -/
def header : Text := "HEADER;"

/-- The keyword that opens the data section. -/
def data : Text := "DATA;"

/-- The keyword that closes a section. -/
def sectionEnd : Text := "ENDSEC;"

end Marker

/-- **A section** of a file. -/
structure Section where
  /-- What stands between the keyword and the nearest `ENDSEC;` behind it. -/
  text : Text
  /-- The index of that text in the whole content. -/
  offset : Nat
  /-- The number of the line of the keyword. -/
  startLine : Nat
deriving DecidableEq

namespace Section

/-- The section that the first occurrence of a keyword opens, if an `ENDSEC;` follows. -/
def find? (keyword content : Text) : Option Section := do
  let rest ← keyword.foundIn? content
  let start := content.length - rest.length
  let (text, _) ← Text.cutAt? (rest.drop keyword.length) Marker.sectionEnd
  return ⟨text, start + keyword.length, content.lineAt start⟩

/-- The line of an index of the section's text, in the whole content. -/
def lineOf (s : Section) (content : Text) (index : Nat) : Nat := content.lineAt (s.offset + index)

end Section

end StepCheck
