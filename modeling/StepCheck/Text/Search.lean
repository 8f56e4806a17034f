import StepCheck.Text.Basic

/-!
# Searching a text

Two kinds of search serve the checks. A **needle** is looked for as it stands: whether it occurs
(`Text.occursIn`), where first (`Text.indexIn?`), what lies on either side of that place
(`Text.cutAt?`), and how often it occurs without overlap (`Text.countIn`). A **matcher** looks at
the text from some place on and answers with what it recognised there and how far that reaches;
`Text.occurrences` lists its matches from left to right, going on behind each match.
-/

namespace StepCheck.Text

/-! ### Needles -/

/-- Whether the needle occurs in the text. -/
def occursIn (needle : Text) : Text → Bool
  | [] => needle.isEmpty
  | c :: t => needle.isPrefixOf (c :: t) || occursIn needle t

/-- The part of the text from the first occurrence of the needle on. -/
def foundIn? (needle : Text) : Text → Option Text
  | [] => if needle.isEmpty then some [] else none
  | c :: t => if needle.isPrefixOf (c :: t) then some (c :: t) else foundIn? needle t

/-- The number of code points before the first occurrence of the needle. -/
def indexIn? (needle t : Text) : Option Nat :=
  (foundIn? needle t).map fun rest => t.length - rest.length

/-- What lies before and behind the first occurrence of the needle. -/
def cutAt? (t needle : Text) : Option (Text × Text) :=
  (foundIn? needle t).map fun rest => (t.take (t.length - rest.length), rest.drop needle.length)

/-- Whether the text ends with the needle. -/
def endsWith (t needle : Text) : Bool := needle.isSuffixOf t

/-! ### Matchers -/

/-- **A matcher** looks at the text from a place on. It answers with what it recognised and the
number of code points that this takes up, which is not 0. -/
abbrev Matcher (α : Type) : Type := Text → Option (α × Nat)

/-- The matches of `m` from left to right with the index of each; `index` is that of the first code
point and `skip` the number of code points that an earlier match still covers. -/
def occurrencesFrom {α : Type} (m : Matcher α) : (index skip : Nat) → Text → List (Nat × α)
  | _, _, [] => []
  | index, skip + 1, _ :: t => occurrencesFrom m (index + 1) skip t
  | index, 0, c :: t =>
    match m (c :: t) with
    | some (found, length) => (index, found) :: occurrencesFrom m (index + 1) (length - 1) t
    | none => occurrencesFrom m (index + 1) 0 t

/-- **All matches** of a matcher, each with its index: the leftmost one, then the leftmost one
behind it, and so on. -/
def occurrences {α : Type} (t : Text) (m : Matcher α) : List (Nat × α) := occurrencesFrom m 0 0 t

/-- The leftmost match of a matcher, with its index, where `index` is that of the first code point.
-/
def firstOccurrenceFrom? {α : Type} (m : Matcher α) : (index : Nat) → Text → Option (Nat × α)
  | _, [] => none
  | index, c :: t =>
    match m (c :: t) with
    | some (found, _) => some (index, found)
    | none => firstOccurrenceFrom? m (index + 1) t

/-- **The leftmost match** of a matcher, with its index. -/
def firstOccurrence? {α : Type} (t : Text) (m : Matcher α) : Option (Nat × α) :=
  firstOccurrenceFrom? m 0 t

/-- The matcher that recognises one needle. -/
def needleMatcher (needle : Text) : Matcher Unit := fun t =>
  if needle.isPrefixOf t then some ((), needle.length) else none

/-- **The number of occurrences** of the needle, counted from left to right without overlap. The
empty needle occurs before each code point and at the end. -/
def countIn (needle t : Text) : Nat :=
  if needle.isEmpty then t.length + 1 else (t.occurrences (needleMatcher needle)).length

/-! ### Equations -/

@[simp] theorem occursIn_nil (needle : Text) : occursIn needle [] = needle.isEmpty := rfl

theorem occursIn_cons (needle : Text) (c : CodePoint) (t : Text) :
    occursIn needle (c :: t) = (needle.isPrefixOf (c :: t) || occursIn needle t) := rfl

/-- A needle occurs just when there is a first occurrence. -/
theorem occursIn_eq_isSome_foundIn? (needle t : Text) :
    occursIn needle t = (foundIn? needle t).isSome := by
  induction t with
  | nil => cases h : needle.isEmpty <;> simp [occursIn, foundIn?, h]
  | cons c t ih => cases h : needle.isPrefixOf (c :: t) <;> simp [occursIn, foundIn?, h, ih]

@[simp] theorem occurrencesFrom_nil {α : Type} (m : Matcher α) (index skip : Nat) :
    occurrencesFrom m index skip [] = [] := by
  cases skip <;> rfl

end StepCheck.Text
