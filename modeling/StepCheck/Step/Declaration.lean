import StepCheck.Text.Search
import StepCheck.Text.Blank
import StepCheck.Text.Digit

/-!
# Instance declarations

The data section of a file declares instances of entity types in records such as
`#12 = IFCWALL(…);`. Only the front of such a record is looked at: the number sign, a number, the
equals sign, the name of a type in capitals, and the opening parenthesis, with white space between
them from the equals sign on and before it.
-/

namespace StepCheck

/-- **The front of an instance declaration.** -/
structure Declaration where
  /-- The number behind the number sign, as written. -/
  number : Text
  /-- The name of the entity type. -/
  typeName : Text
deriving DecidableEq

/-- Characters of a type name: capitals, digits and the low line. -/
def CodePoint.isNamePart (c : CodePoint) : Bool := c.isCapital || c.isDigit || c = '_'

namespace Declaration

/-- The name by which other records refer to the instance. -/
def label (d : Declaration) : Text := '#' :: d.number

/-- The declaration that begins exactly at the front of the text, with the length of what has been
recognised. -/
def atFront? : Text.Matcher Declaration
  | [] => none
  | c :: afterSign => do
    guard (c = '#')
    let number := afterSign.takeWhile CodePoint.isDecimal
    guard (!number.isEmpty)
    let afterNumber : Text := afterSign.dropWhile CodePoint.isDecimal
    let equals :: afterEquals := afterNumber.stripLeft | none
    guard (equals = '=')
    let named : Text := Text.stripLeft afterEquals
    let initial :: _ := named | none
    guard initial.isCapital
    let typeName := named.takeWhile CodePoint.isNamePart
    let afterName : Text := named.dropWhile CodePoint.isNamePart
    let opening :: _ := afterName.stripLeft | none
    guard (opening = '(')
    return (⟨number, typeName⟩,
      1 + number.length + afterNumber.blanks.length + 1 + (Text.blanks afterEquals).length
        + typeName.length + afterName.blanks.length + 1)

/-- **The declarations of a text**, from left to right, each with the index of its number sign. -/
def all (t : Text) : List (Nat × Declaration) := t.occurrences atFront?

/-- The number of declarations of a text. -/
def countIn (t : Text) : Nat := (all t).length

end Declaration

end StepCheck
