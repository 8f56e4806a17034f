import StepCheck.Yaml.Plain

/-!
# Nodes of YAML

A document is a tree of scalars, sequences and mappings, each with a tag that tells what it stands
for. A collection may stand within itself; then the tree goes on as deep as anyone looks.

* `Tag` — the tags, as far as they stand for anything;
* `Node` — the tree;
* `Node.unfolded` — a node that stands within itself.
-/

namespace StepCheck.Yaml

/-- **A tag.** -/
inductive Tag
  /-- A tag that the form of a plain scalar tells. -/
  | plain (k : Plain.Kind)
  | sequence
  | mapping
  | binary
  /-- A sequence of entries that keep their order. -/
  | ordered
  | pairs
  | set
  /-- The node of a name, within its own contents. -/
  | within (name : Text)
  /-- A tag for which there are no values. -/
  | unknown
deriving DecidableEq

namespace Tag

/-- What the tags of the language begin with. -/
def standard : Text := "tag:yaml.org,2002:"

/-- The tags of the language by their names. -/
def names : List (String × Tag) :=
  [("null", plain .null), ("bool", plain .flag), ("int", plain .integer), ("float", plain .real),
    ("timestamp", plain .timestamp), ("merge", plain .merge), ("value", plain .value),
    ("str", plain .text), ("seq", sequence), ("map", mapping), ("binary", binary),
    ("omap", ordered), ("pairs", pairs), ("set", set)]

/-- **The tag** that is written as a text. -/
def named (t : Text) : Tag :=
  ((names.find? fun (name, _) => standard ++ name = t).map Prod.snd).getD unknown

end Tag

/-- **A node** of a document. -/
inductive Node
  | scalar (tag : Tag) (value : Text)
  | sequence (tag : Tag) (items : List Node)
  | mapping (tag : Tag) (entries : List (Node × Node))

instance : Inhabited Node := ⟨.scalar (.plain .null) []⟩

namespace Node

/-- The tag of a node. -/
def tag : Node → Tag
  | scalar tag _ => tag
  | sequence tag _ => tag
  | mapping tag _ => tag

/-! ### Nodes within themselves -/

section Unfolding

variable (names : List (Text × Node))

/-- A node without its contents. -/
def emptied : Node → Node
  | scalar tag t => .scalar tag t
  | sequence tag _ => .sequence tag []
  | mapping tag _ => .mapping tag []

/-- The node that stands in a place: that of a name where one is kept free. -/
def standing : Node → Node
  | .scalar (.within name) t => (names.lookup name).getD (.scalar (.within name) t)
  | n => n

mutual
/-- A node in which nodes within themselves have no contents. -/
def closed : Node → Node
  | .scalar tag t => (standing names (.scalar tag t)).emptied
  | .sequence tag items => .sequence tag (closedItems items)
  | .mapping tag entries => .mapping tag (closedEntries entries)

/-- The items of a sequence. -/
def closedItems : List Node → List Node
  | [] => []
  | n :: ns => closed n :: closedItems ns

/-- The entries of a mapping. -/
def closedEntries : List (Node × Node) → List (Node × Node)
  | [] => []
  | (k, v) :: rest => (closed k, closed v) :: closedEntries rest
end

/-- **A node with what stands within itself**, down to a depth. -/
def unfolded : (depth : Nat) → Node → Node
  | 0, n => n.closed names
  | depth + 1, n =>
    match n.standing names with
    | .scalar tag t => .scalar tag t
    | .sequence tag items => .sequence tag (items.map (unfolded depth))
    | .mapping tag entries =>
      .mapping tag (entries.map fun (k, v) => (unfolded depth k, unfolded depth v))

end Unfolding

end Node

end StepCheck.Yaml
