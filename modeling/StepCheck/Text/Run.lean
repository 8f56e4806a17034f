/-!
# Tables of code points

Character properties are kept as lists of ranges, and mappings between code points as lists of
runs whose members all move by the same distance.

* `inRanges` — membership in a list of ranges;
* `CaseRun.shiftOf?` — the distance that a list of runs gives to a code point.
-/

namespace StepCheck

/-- Whether `n` lies in one of the ranges, both ends included. -/
def inRanges (n : Nat) : List (Nat × Nat) → Bool
  | [] => false
  | (low, high) :: rest => (low ≤ n && n ≤ high) || inRanges n rest

/-- **A run of code points** `first`, `first + step`, …, `last`, all moved by `shift`. -/
structure CaseRun where
  first : Nat
  last : Nat
  step : Nat
  shift : Int
deriving DecidableEq

/-- Whether `n` is a member of the run. -/
def CaseRun.has (run : CaseRun) (n : Nat) : Bool :=
  run.first ≤ n && n ≤ run.last && (n - run.first) % run.step == 0

/-- The distance by which a table of runs moves `n`, if `n` is in it. -/
def CaseRun.shiftOf? (n : Nat) : List CaseRun → Option Int
  | [] => none
  | run :: rest => if run.has n then some run.shift else shiftOf? n rest

/-- What is looked up in a table is one of its entries. -/
theorem mem_of_lookup_eq_some {α β : Type} [BEq α] [LawfulBEq α] {table : List (α × β)} {key : α}
    {value : β} (h : table.lookup key = some value) : (key, value) ∈ table := by
  obtain ⟨before, after, rfl, -⟩ := List.lookup_eq_some_iff.mp h
  exact List.mem_append_right before List.mem_cons_self

end StepCheck
