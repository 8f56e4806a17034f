import StepCheck.Yaml.Failure

/-!
# Tokens of YAML

A document is cut into tokens. Blocks have no marks of their own, so their beginnings and ends are
tokens without characters.

* `Token` — the tokens;
* `Directive` — lines that tell something about a document.
-/

namespace StepCheck.Yaml

/-- **A directive** in front of a document. -/
inductive Directive
  | version (major minor : Nat)
  /-- Tags that begin with `handle` stand for tags that begin with `expansion`. -/
  | tag (handle expansion : Text)
  /-- A directive of another name, which says nothing. -/
  | other
deriving DecidableEq

/-- **A token.** -/
inductive Token
  | directive (d : Directive)
  | documentStart
  | documentEnd
  | sequenceStart
  | mappingStart
  | blockEnd
  | openBracket
  | closeBracket
  | openBrace
  | closeBrace
  /-- A hyphen before an item. -/
  | entry
  | comma
  | key
  | colon
  | alias (name : Text)
  | anchor (name : Text)
  /-- A tag; one without handle is complete. -/
  | tag (handle : Option Text) (suffix : Text)
  | scalar (isPlain : Bool) (value : Text)
  | streamEnd
  /-- What follows cannot be cut into tokens. -/
  | stop (f : Failure)
deriving DecidableEq

end StepCheck.Yaml
