import StepCheck.Step.Section
import StepCheck.Step.Declaration
import StepCheck.Text.Upper

/-!
# The layout of a file

All checks start from one look at the content: its lines, where the markers stand, and its two
sections. The look never fails; what is missing is recorded as missing.

* `Layout.of` — the layout of a content;
* `Layout.instances` — the instances that the data section declares, with their lines;
* `Layout.firstLineWith?` — the first line that holds a needle.
-/

namespace StepCheck

/-- **The layout** of a content. -/
structure Layout where
  content : Text
  /-- The content in capitals. -/
  capitals : Text
  lines : List Text
  /-- The number of the first line with the keyword of the header section. -/
  headerLine : Option Nat
  /-- The number of the first line with the keyword of the data section. -/
  dataLine : Option Nat
  /-- The number of the first line with the end marker. -/
  endLine : Option Nat
  header : Option Section
  data : Option Section

/-- **An instance** declared in the data section. -/
structure Instance where
  label : Text
  typeName : Text
  line : Nat
deriving DecidableEq

namespace Layout

/-- The number of the first line that holds the marker. -/
def markerLine? (lines : List Text) (marker : Text) : Option Nat :=
  Text.firstLine? marker.occursIn lines

/-- **The layout of a content.** -/
def of (content : Text) : Layout :=
  let lines := content.lines
  { content
    capitals := content.upper
    lines
    headerLine := markerLine? lines Marker.header
    dataLine := markerLine? lines Marker.data
    endLine := markerLine? lines Marker.finish
    header := Section.find? Marker.header content
    data := Section.find? Marker.data content }

/-- The number of lines. -/
def lineCount (l : Layout) : Nat := l.lines.length

/-- The number of the first line that holds the needle, whatever the case of letters if
`ignoreCase`. -/
def firstLineWith? (l : Layout) (needle : Text) (ignoreCase : Bool) : Option Nat :=
  if ignoreCase then Text.firstLine? (fun line => needle.upper.occursIn line.upper) l.lines
  else Text.firstLine? needle.occursIn l.lines

/-- **The instances** declared in the data section, in the order of the file. -/
def instances (l : Layout) : List Instance :=
  match l.data with
  | none => []
  | some data => (Declaration.all data.text).map fun (index, d) =>
    ⟨d.label, d.typeName, data.lineOf l.content index⟩

end Layout

end StepCheck
