import StepCheck.Yaml.Node.Reader
import StepCheck.Yaml.Token.Lexer
import StepCheck.Yaml.Value.Basic

/-!
# Reading YAML

* `Yaml.read` — the value of a text.
-/

namespace StepCheck.Yaml

/-- Characters that may stand in a document. -/
def isAllowed (c : CodePoint) : Bool :=
  let n := c.val
  n == 0x9 || n == 0xA || n == 0xD || (0x20 ≤ n && n ≤ 0x7E) || n == 0x85
    || (0xA0 ≤ n && n ≤ 0xD7FF) || (0xE000 ≤ n && n ≤ 0xFFFD) || 0x10000 ≤ n

/-- **The value of a text.** A text without document has none, and counts as nothing. -/
def read (t : Text) : Except Failure Datum := do
  if !t.all isAllowed then throw .malformed
  match ← Node.ofTokens (Token.scan t) with
  | none => return .null
  | some n => n.value

end StepCheck.Yaml
