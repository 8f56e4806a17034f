import StepCheck.Yaml.Base64
import StepCheck.Yaml.Node.Basic
import StepCheck.Yaml.Value.Numeral
import StepCheck.Yaml.Value.Time

/-!
# Values of nodes

The value of a scalar follows from its tag, and that of a collection from the values of its nodes. A
mapping may take over the entries of others by the key `<<`; entries of its own count for more. What
it takes over is settled before any of its values is asked for.

Of several failures the one nearest to the root is told, and of those the first.

* `Node.value` — the value of a node.
-/

namespace StepCheck.Yaml

/-- **A failure at a depth** of the tree. -/
structure Trouble where
  depth : Nat
  failure : Failure

/-- A value, or a failure at a depth. -/
abbrev Valued (α : Type) : Type := Except Trouble α

namespace Valued

/-- A failure at the root. -/
def fail {α : Type} (f : Failure) : Valued α := .error ⟨0, f⟩

/-- A value whose failures lie at the root. -/
def ofExcept {α : Type} : Except Failure α → Valued α
  | .ok a => .ok a
  | .error f => fail f

/-- The value of what lies one level deeper. -/
def deeper {α : Type} : Valued α → Valued α
  | .ok a => .ok a
  | .error t => .error { t with depth := t.depth + 1 }

/-- **Two values together**: the failure nearer to the root is told, of two at one depth the
first. -/
def both {α β : Type} : Valued α → Valued β → Valued (α × β)
  | .ok a, .ok b => .ok (a, b)
  | .error t, .ok _ => .error t
  | .ok _, .error u => .error u
  | .error t, .error u => .error (if u.depth < t.depth then u else t)

/-- Several values together. -/
def all {α : Type} : List (Valued α) → Valued (List α)
  | [] => .ok []
  | v :: vs => (both v (all vs)).map fun (a, as) => a :: as

/-- Where nothing fails, there are all values. -/
theorem all_map_ok {α β : Type} (f : β → α) (xs : List β) :
    all (xs.map fun x => .ok (f x)) = .ok (xs.map f) := by
  induction xs with
  | nil => rfl
  | cons x xs ih =>
    rw [List.map_cons, all, ih]
    rfl

end Valued

open Yaml.Valued

/-- The entries of a mapping with their values: those that are taken over, and its own. -/
structure Entries where
  merged : List (Valued (Datum × Datum))
  own : List (Valued (Datum × Datum))

/-- All entries, those that count for more behind. -/
def Entries.all (e : Entries) : List (Valued (Datum × Datum)) := e.merged ++ e.own

/-- The values of entries, unless it is wrong what is to be taken over. -/
def contents (entries : Option Entries) : Valued (List (Datum × Datum)) :=
  match entries with
  | some e => Valued.all e.all
  | none => fail .malformed

/-- A record of entries, of which the later ones count. -/
def recordOf (entries : List (Datum × Datum)) : List (Datum × Datum) :=
  entries.foldl (fun es (k, v) => Datum.put k v es) []

mutual
/-- The text of a scalar; a mapping with the key `=` has the text of the value under it. -/
def Node.text? : Node → Option Text
  | .scalar _ t => some t
  | .sequence .. => none
  | .mapping _ entries => Node.valueText? entries

/-- The text under the first key `=`. -/
def Node.valueText? : List (Node × Node) → Option Text
  | [] => none
  | (k, v) :: rest => if k.tag = .plain .value then Node.text? v else Node.valueText? rest
end

/-- The word of a flag. -/
def flag (t : Text) : Except Failure Bool :=
  let w := Intake.asciiSmall t
  if (["yes", "true", "on"].map Text.ofString).contains w then .ok true
  else if (["no", "false", "off"].map Text.ofString).contains w then .ok false
  else .error (.noFlagWord w)

/-- The value of a scalar with a tag. -/
def scalarValue (tag : Tag) (t : Text) : Except Failure Datum :=
  match tag with
  | .plain .null => .ok .null
  | .plain .flag => (flag t).map .bool
  | .plain .integer => (Numeral.integer t).map .int
  | .plain .real => (Numeral.real t).map .real
  | .plain .timestamp => Time.value t
  | .plain .text => .ok (.text t)
  | .binary =>
    if t.all fun c => c.val < 0x80 then
      match Base64.decode? t with
      | some bytes => .ok (.bytes bytes)
      | none => .error .malformed
    else .error .malformed
  | _ => .error .malformed

/-- The value of a key. A lone `=` is a text there. -/
def keyTag (tag : Tag) : Tag := if tag = .plain .value then .plain .text else tag

/-- Whether a tag asks for a scalar. -/
def Tag.ofScalar : Tag → Bool
  | .plain k => k != .merge && k != .value && k != .indicator
  | .binary => true
  | _ => false

/-- Whether a tag asks for a collection, which cannot be a key. -/
def Tag.isCollection : Tag → Bool
  | .sequence | .mapping | .ordered | .pairs | .set => true
  | _ => false

mutual
/-- **The value of a node** that counts as having a tag. -/
def Node.valueAs (tag : Tag) : Node → Valued Datum
  | .scalar _ t =>
    if tag.ofScalar then ofExcept (scalarValue tag t)
    -- a collection is made before its contents are asked for, so this failure lies deeper
    else if tag.isCollection then deeper (fail .malformed)
    else fail .malformed
  | .sequence _ items =>
    match tag with
    | .sequence => deeper ((Node.values items).map .list)
    | .ordered | .pairs => deeper ((Node.pairs items).map .list)
    | .mapping | .set => deeper (fail .malformed)
    | _ => fail .malformed
  | .mapping _ entries =>
    match tag with
    | .mapping => deeper ((contents (Node.entries entries)).map fun es => .record (recordOf es))
    | .set =>
      deeper ((contents (Node.entries entries)).map fun es => .set ((recordOf es).map Prod.fst))
    | .sequence | .ordered | .pairs => deeper (fail .malformed)
    | _ =>
      if tag.ofScalar then
        match Node.valueText? entries with
        | some t => ofExcept (scalarValue tag t)
        | none => fail .malformed
      else fail .malformed

/-- The values of the items of a sequence. -/
def Node.values : List Node → Valued (List Datum)
  | [] => .ok []
  | n :: ns => (both (Node.valueAs n.tag n) (Node.values ns)).map fun (d, ds) => d :: ds

/-- The pairs of a sequence of mappings with one entry each. -/
def Node.pairs : List Node → Valued (List Datum)
  | [] => .ok []
  | .mapping _ [(k, v)] :: ns =>
    (both (both (Node.valueAs k.tag k) (Node.valueAs v.tag v)) (Node.pairs ns)).map
      fun ((k, v), ds) => .pair k v :: ds
  | _ => fail .malformed

/-- The entries of a mapping. -/
def Node.entries : List (Node × Node) → Option Entries
  | [] => some ⟨[], []⟩
  | (k, v) :: rest =>
    if k.tag = .plain .merge then do
      let es ← Node.mergedFrom v
      let e ← Node.entries rest
      return { e with merged := es ++ e.merged }
    else do
      -- a collection cannot be a key, whatever it holds
      let tag := keyTag k.tag
      let key := if tag.isCollection then fail .malformed else Node.valueAs tag k
      let e ← Node.entries rest
      return { e with own := both key (Node.valueAs v.tag v) :: e.own }

/-- The entries that a mapping takes over from the value of its key `<<`. -/
def Node.mergedFrom : Node → Option (List (Valued (Datum × Datum)))
  | .scalar .. => none
  | .mapping _ entries => (Node.entries entries).map Entries.all
  | .sequence _ items => Node.mergedFromAll items

/-- The entries that a mapping takes over from several others. The first one counts most. -/
def Node.mergedFromAll : List Node → Option (List (Valued (Datum × Datum)))
  | [] => some []
  | .mapping _ entries :: ns => do
    let e ← Node.entries entries
    -- later entries count for more, so the first mapping goes last
    return (← Node.mergedFromAll ns) ++ e.all
  | _ => none
end

/-- **The value of a node.** -/
def Node.value (n : Node) : Except Failure Datum :=
  match Node.valueAs n.tag n with
  | .ok d => .ok d
  | .error t => .error t.failure

end StepCheck.Yaml
