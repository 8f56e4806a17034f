import StepCheck.Text.Search
import StepCheck.Text.Blank
import StepCheck.Text.Fold
import StepCheck.Policy.Basic

/-!
# Property sets

A property set is recognised by the name of its entity type and an opening parenthesis behind it,
and it is taken to be called by the last quoted text before the next closing parenthesis that begins
as standard names do. Letters count as equal if they differ in case only. The name runs up to the
next quote, even beyond the parenthesis.
-/

namespace StepCheck.PropertySets

/-- The last place before the next closing parenthesis where a quote stands with `start` behind it:
the number of code points up to behind the quote, counted from `index`, and the text from there on.
`found` is the answer so far. -/
def lastName? (start : Text) (found : Option (Nat × Text)) (index : Nat) :
    Text → Option (Nat × Text)
  | [] => found
  | c :: t =>
    if c = ')' then found
    else if c = '\'' ∧ (Text.afterFolded? start t).isSome then
      lastName? start (some (index + 1, t)) (index + 1) t
    else lastName? start found (index + 1) t

/-- A property set that begins at the front of a text, with its name. -/
def atFront? (rules : PropertySetRules) : Text.Matcher Text := fun t => do
  let afterEntity ← Text.afterFolded? rules.container t
  let blanks := (Text.blanks afterEntity).length
  let opening :: inside := Text.stripLeft afterEntity | none
  guard (opening = '(')
  let (index, named) ← lastName? rules.start none 0 inside
  let ending := (named.drop rules.start.length).takeWhile (· ≠ (CodePoint.ofChar '\''))
  let name := named.take rules.start.length ++ ending
  return (name, rules.container.length + blanks + 1 + index + name.length)

/-- **The property sets of a text**, each with its index and its name. -/
def all (rules : PropertySetRules) (t : Text) : List (Nat × Text) := t.occurrences (atFront? rules)

end StepCheck.PropertySets
