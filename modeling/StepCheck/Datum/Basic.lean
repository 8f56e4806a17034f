import StepCheck.Text.Basic
import StepCheck.Decimal.Binary64

/-!
# Structured data

Policies, reports and requests come as structured data: scalars, lists, and records whose entries
keep the order in which they were written. JSON texts and YAML documents are both read into it, and
exports are printed from it.

* `Datum` — a piece of structured data;
* `Datum.sameKey` — when two keys of a record count as one;
* `Datum.put` — an entry added to a record, a later value replacing an earlier one;
* `Datum.field?` — the value that a record has under a name.
-/

namespace StepCheck

/-- **A day** of the calendar. -/
structure Day where
  year : Nat
  month : Nat
  day : Nat
deriving DecidableEq

/-- **A time of day**, with the distance of its zone from universal time in seconds, if known. -/
structure Clock where
  hour : Nat
  minute : Nat
  second : Nat
  microsecond : Nat
  zone : Option Int
deriving DecidableEq

/-- **A piece of structured data.** -/
inductive Datum
  | null
  | bool (b : Bool)
  | int (i : Int)
  | real (x : Float)
  | text (t : Text)
  | bytes (bs : List UInt8)
  | day (d : Day)
  | moment (d : Day) (c : Clock)
  | list (xs : List Datum)
  /-- Two values that belong together, from an ordered record. -/
  | pair (a b : Datum)
  | set (xs : List Datum)
  | record (entries : List (Datum × Datum))

instance : Inhabited Datum := ⟨.null⟩

namespace Datum

/-- A string as a datum. -/
def ofString (s : String) : Datum := text s

/-- A natural number as a datum. -/
def ofNat (n : Nat) : Datum := int n

/-- A list of values or `null`. -/
def ofOption {α : Type} (f : α → Datum) : Option α → Datum
  | none => null
  | some a => f a

/-- A record whose keys are names. -/
def fields (entries : List (String × Datum)) : Datum :=
  record (entries.map fun (name, value) => (ofString name, value))

/-- What kind of value a datum is, in one word. -/
def kind : Datum → String
  | null => "NoneType"
  | bool _ => "bool"
  | int _ => "int"
  | real _ => "float"
  | text _ => "str"
  | bytes _ => "bytes"
  | day _ => "datetime.date"
  | moment .. => "datetime.datetime"
  | list _ => "list"
  | pair .. => "tuple"
  | set _ => "set"
  | record _ => "dict"

/-- The number that a datum counts as when it is a key: flags count as 0 and 1. -/
def keyNumber? : Datum → Option Int
  | bool b => some (if b then 1 else 0)
  | int i => some i
  | real x => Binary64.whole? x
  | _ => none

/-- **Whether two keys count as one.** Numbers do if they are equal, whatever their kind. -/
def sameKey : Datum → Datum → Bool
  | null, null => true
  | text s, text t => s = t
  | bytes s, bytes t => s = t
  | day d, day e => d = e
  | moment d c, moment e c' => d = e && c = c'
  | pair a b, pair c d => sameKey a c && sameKey b d
  | real x, real y => x == y
  | a, b =>
    match a.keyNumber?, b.keyNumber? with
    | some i, some j => i == j
    | _, _ => false

/-- Whether a datum can be a key: scalars can, and pairs of such. -/
def canBeKey : Datum → Bool
  | list _ => false
  | set _ => false
  | record _ => false
  | pair a b => a.canBeKey && b.canBeKey
  | _ => true

/-- **An entry added**: a key that is there already keeps its place and gets the new value. -/
def put (key value : Datum) : List (Datum × Datum) → List (Datum × Datum)
  | [] => [(key, value)]
  | (k, v) :: rest => if sameKey k key then (k, value) :: rest else (k, v) :: put key value rest

/-- The value under a name among the entries of a record. -/
def lookup? (name : Text) : List (Datum × Datum) → Option Datum
  | [] => none
  | (text t, value) :: rest => if t = name then some value else lookup? name rest
  | _ :: rest => lookup? name rest

/-- The value that a record has under a name. -/
def field? (name : Text) : Datum → Option Datum
  | record entries => lookup? name entries
  | _ => none

/-! ### Equations -/

@[simp] theorem lookup?_cons_self (name : Text) (value : Datum) (rest : List (Datum × Datum)) :
    lookup? name ((text name, value) :: rest) = some value := by
  simp [lookup?]

end Datum

end StepCheck
