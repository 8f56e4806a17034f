import StepCheck.Text.Basic

/-!
# Faults of structured data

What can be wrong with a value that is read from structured data, and where it stands. All faults of
a value are found, in the order of its fields, and not only the first.

* `FaultKind` — the causes, with their short names (`FaultKind.code`) and texts
  (`FaultKind.message`);
* `Fault` — a cause at a place;
* `Refusal` — why a value is not taken: for its faults, or because something stands where a list of
  names should and cannot be gone through at all.
-/

namespace StepCheck

/-- **What is wrong** with a value. -/
inductive FaultKind
  /-- A field without default is absent. -/
  | missing
  | notText
  /-- Bytes that are no UTF-8 stand for a text. -/
  | notUnicode
  | notInteger
  | noIntegerNumeral
  /-- A number with a fraction stands for a whole one. -/
  | fractional
  /-- An infinity, or what is no number, stands for a whole number. -/
  | notFinite
  | integerTooLarge
  | notNumber
  | noNumberNumeral
  | notFlag
  | noFlagWord
  /-- None of the words that are allowed. -/
  | notAmong (words : List Text)
  | notTuple
  | notList
  | notDictionary
  /-- Something else stands for a record of the named kind. -/
  | notRecord (name : Text)
  | below (bound : Text)
  | above (bound : Text)
  /-- The fields are right each, but not together. -/
  | inconsistent (reason : Text)
deriving DecidableEq

namespace FaultKind

/-- The short name of a kind of fault. -/
def code : FaultKind → Text
  | missing => "missing"
  | notText => "string_type"
  | notUnicode => "string_unicode"
  | notInteger => "int_type"
  | noIntegerNumeral => "int_parsing"
  | fractional => "int_from_float"
  | notFinite => "finite_number"
  | integerTooLarge => "int_parsing_size"
  | notNumber => "float_type"
  | noNumberNumeral => "float_parsing"
  | notFlag => "bool_type"
  | noFlagWord => "bool_parsing"
  | notAmong _ => "enum"
  | notTuple => "tuple_type"
  | notList => "list_type"
  | notDictionary => "dict_type"
  | notRecord _ => "model_type"
  | below _ => "greater_than_equal"
  | above _ => "less_than_equal"
  | inconsistent _ => "value_error"

/-- Words in single quotes, with `or` before the last. -/
def alternatives : List Text → Text
  | [] => []
  | [w] => "'" ++ w ++ "'"
  | [v, w] => "'" ++ v ++ "' or '" ++ w ++ "'"
  | v :: ws => "'" ++ v ++ "', " ++ alternatives ws

/-- The text of a fault. -/
def message : FaultKind → Text
  | missing => "Field required"
  | notText => "Input should be a valid string"
  | notUnicode => "Input should be a valid string, unable to parse raw data as a unicode string"
  | notInteger => "Input should be a valid integer"
  | noIntegerNumeral => "Input should be a valid integer, unable to parse string as an integer"
  | fractional => "Input should be a valid integer, got a number with a fractional part"
  | notFinite => "Input should be a finite number"
  | integerTooLarge => "Unable to parse input string as an integer, exceeded maximum size"
  | notNumber => "Input should be a valid number"
  | noNumberNumeral => "Input should be a valid number, unable to parse string as a number"
  | notFlag => "Input should be a valid boolean"
  | noFlagWord => "Input should be a valid boolean, unable to interpret input"
  | notAmong words => "Input should be " ++ alternatives words
  | notTuple => "Input should be a valid tuple"
  | notList => "Input should be a valid list"
  | notDictionary => "Input should be a valid dictionary"
  | notRecord name => "Input should be a valid dictionary or instance of " ++ name
  | below bound => "Input should be greater than or equal to " ++ bound
  | above bound => "Input should be less than or equal to " ++ bound
  | inconsistent reason => "Value error, " ++ reason

end FaultKind

/-- **A step into structured data**: to the value under a name, or to the value at an index. -/
inductive Step
  | field (name : Text)
  /-- An index, or a key that is a number. -/
  | number (i : Int)
deriving DecidableEq

/-- **A fault at a place.** -/
structure Fault where
  /-- The steps from the whole value to the place. -/
  path : List Step
  kind : FaultKind
deriving DecidableEq

/-- The fault seen from one level further out. -/
def Fault.under (step : Step) (f : Fault) : Fault := { f with path := step :: f.path }

/-- **Why a value is not taken.** -/
inductive Refusal
  | faults (fs : List Fault)
  /-- A value of this kind stands where a list of names should. -/
  | notIterable (kind : Text)
deriving DecidableEq

/-- The text of a refusal that is not about faults. -/
def Refusal.notIterableMessage (kind : Text) : Text := "'" ++ kind ++ "' object is not iterable"

end StepCheck
