import StepCheck.Check.Finding
import StepCheck.Step.Layout
import StepCheck.Utf8.Encode

/-!
# The envelope of a file

The file has to begin and to end with its markers, to have as many closing as opening parentheses,
to hold the keywords of both sections, and to be encodable. The five conditions are independent of
each other; only the last one speaks in any case.
-/

namespace StepCheck.Envelope

/-- The file begins with the start marker, white space aside. -/
def startFinding (l : Layout) : Option Finding :=
  if Marker.start.isPrefixOf l.content.strip then none
  else some { Finding.error .syntaxError .headerStart
      ("STEP file must start with " ++ Marker.start) with
    line := some 1, expected := some Marker.start }

/-- The file ends with the end marker, white space aside. -/
def finishFinding (l : Layout) : Option Finding :=
  if l.content.strip.endsWith Marker.finish then none
  else some { Finding.error .syntaxError .footerEnd
      ("STEP file must end with " ++ Marker.finish) with
    line := some l.lineCount, expected := some Marker.finish }

/-- The number of opening parentheses. -/
def openings (content : Text) : Nat := content.count (CodePoint.ofChar '(')

/-- The number of closing parentheses. -/
def closings (content : Text) : Nat := content.count (CodePoint.ofChar ')')

/-- There are as many closing as opening parentheses. -/
def balanceFinding (l : Layout) : Option Finding :=
  let opened := openings l.content
  let closed := closings l.content
  if opened = closed then none
  else some { Finding.error .syntaxError .balancedParentheses
      ("Unbalanced parentheses: " ++ Text.ofNat opened ++ " opening, " ++ Text.ofNat closed
        ++ " closing") with
    expected := some "equal number of opening and closing parentheses" }

/-- The keyword of a section occurs. -/
def sectionFinding (l : Layout) (rule : Rule) (name keyword : Text) : Option Finding :=
  if keyword.occursIn l.content then none
  else some { Finding.error .syntaxError rule
      ("Required section " ++ name ++ " is missing") with
    expected := some keyword }

/-- Every code point can be encoded. This is no more than a recommendation. -/
def encodingFinding (l : Layout) : Finding :=
  match l.content.firstSurrogate? with
  | none => Finding.passed .characterEncoding "Character encoding is valid"
  | some index =>
    { Finding.warning .syntaxError .characterEncoding
        ("Problematic character encoding at offset " ++ Text.ofNat index) with
      line := some (l.content.lineAt index), expected := some "UTF-8 encodable text" }

/-- **What there is to say** about the envelope. -/
def check (l : Layout) : List Finding :=
  [startFinding l, finishFinding l, balanceFinding l,
    sectionFinding l .requiredHeaderSection "HEADER" Marker.header,
    sectionFinding l .requiredDataSection "DATA" Marker.data].filterMap id ++ [encodingFinding l]

/-- The findings one after the other, the last of which is always there. -/
theorem check_eq (l : Layout) :
    check l = (startFinding l).toList ++ (finishFinding l).toList ++ (balanceFinding l).toList
      ++ (sectionFinding l .requiredHeaderSection "HEADER" Marker.header).toList
      ++ (sectionFinding l .requiredDataSection "DATA" Marker.data).toList
      ++ [encodingFinding l] := by
  have hfilter : ∀ (o : Option Finding) os,
      (o :: os).filterMap id = o.toList ++ os.filterMap id := by
    intro o os
    cases o <;> rfl
  unfold check
  rw [hfilter, hfilter, hfilter, hfilter, hfilter, List.filterMap_nil, List.append_nil]
  simp only [List.append_assoc]

end StepCheck.Envelope
