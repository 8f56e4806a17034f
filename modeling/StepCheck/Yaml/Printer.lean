import StepCheck.Yaml.Scalar
import StepCheck.Datum.Shown
import StepCheck.Text.Search

/-!
# Writing YAML

A document in block style: the entries of a record in the order of their keys, one a line, two
columns of indentation a level, and the items of a list at the indentation of their key.

* `Yaml.document` — the document of a datum.
-/

namespace StepCheck.Yaml

/-- A floating-point number. A number with an exponent gets a decimal point, so that it is read back
as a number. -/
def real (x : Float) : Text :=
  match Binary64.of x with
  | .notANumber => ".nan"
  | .infinite negative => if negative then "-.inf" else ".inf"
  | .finite .. =>
    let t := Binary64.numeral x
    match Text.cutAt? t "e" with
    | some (mantissa, exponent) =>
      if CodePoint.ofChar '.' ∈ mantissa then t else mantissa ++ ".0e" ++ exponent
    | none => t

/-- A value that holds no other one. -/
def scalar (place : Scalar.Place) : Datum → Text
  | .null => "null"
  | .bool true => "true"
  | .bool false => "false"
  | .int i => Text.ofInt i
  | .real x => real x
  | d => Scalar.written place d.shown

/-- A line break with indentation. -/
def newline (indent : Nat) : Text := Scalar.newline indent

/-- Written entries in the order of their keys. -/
def inKeyOrder (entries : List (Text × Text)) : List (Text × Text) :=
  entries.mergeSort fun e f => !f.1.before e.1

/-- The entries of a record, each on lines of its own with the given indentation. -/
def entryLines (indent : Nat) (entries : List (Text × Text)) : Text :=
  Text.join (newline indent) ((inKeyOrder entries).map fun (key, value) => key ++ ":" ++ value)

/-- The items of a list, each on lines of its own with the given indentation. -/
def itemLines (indent : Nat) (items : List Text) : Text :=
  Text.join (newline indent) (items.map fun item => "-" ++ item)

mutual
/-- A value behind the colon of its key: the key stands at `indent` and ends before `column`. -/
def afterKey (indent column : Nat) : Datum → Text
  | .list [] => " []"
  | .list (x :: xs) => newline indent ++ itemLines indent (afterDashes indent (x :: xs))
  | .pair a b =>
    newline indent ++ itemLines indent [afterDash indent a, afterDash indent b]
  | .set [] => " \x7b\x7d"
  | .set (x :: xs) => newline indent ++ itemLines indent (afterDashes indent (x :: xs))
  | .record [] => " \x7b\x7d"
  | .record (e :: es) =>
    newline (indent + 2) ++ entryLines (indent + 2) (afterKeys (indent + 2) (e :: es))
  | d => " " ++ scalar ⟨column + 1, indent + 2⟩ d

/-- A value behind the dash of a list item, where the dash stands at `indent`. -/
def afterDash (indent : Nat) : Datum → Text
  | .list [] => " []"
  | .list (x :: xs) => " " ++ itemLines (indent + 2) (afterDashes (indent + 2) (x :: xs))
  | .pair a b => " " ++ itemLines (indent + 2) [afterDash (indent + 2) a, afterDash (indent + 2) b]
  | .set [] => " \x7b\x7d"
  | .set (x :: xs) => " " ++ itemLines (indent + 2) (afterDashes (indent + 2) (x :: xs))
  | .record [] => " \x7b\x7d"
  | .record (e :: es) => " " ++ entryLines (indent + 2) (afterKeys (indent + 2) (e :: es))
  | d => " " ++ scalar ⟨indent + 2, indent + 2⟩ d

/-- The items of a list behind their dashes. -/
def afterDashes (indent : Nat) : List Datum → List Text
  | [] => []
  | x :: xs => afterDash indent x :: afterDashes indent xs

/-- The entries of a record: their keys, and their values behind the colons. -/
def afterKeys (indent : Nat) : List (Datum × Datum) → List (Text × Text)
  | [] => []
  | (k, v) :: rest =>
    (k.shown, afterKey indent (indent + k.shown.length + 1) v) :: afterKeys indent rest
end

/-- **The document of a datum**, with a line feed at its end. -/
def document (d : Datum) : Text :=
  (match d with
   | .list (x :: xs) => itemLines 0 (afterDashes 0 (x :: xs))
   | .record (e :: es) => entryLines 0 (afterKeys 0 (e :: es))
   | .list [] => "[]"
   | .record [] => "\x7b\x7d"
   | d => scalar ⟨0, 0⟩ d) ++ "\n"

end StepCheck.Yaml
