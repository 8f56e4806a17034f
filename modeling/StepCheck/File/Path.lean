import StepCheck.Text.Basic

/-!
# Paths

A path is shown without the parts that change nothing: repeated slashes, single points, a slash at
the end. Two points are kept, since they may cross a link.

* `Path.of` — the path that a text writes;
* `Path.shown` — the text of a path;
* `Path.name` — its last part.
-/

namespace StepCheck

/-- **A path.** -/
structure Path where
  /-- The slashes at the front: none, one or two. -/
  root : Nat
  parts : List Text
deriving DecidableEq

namespace Path

/-- The character between parts. -/
def slash : CodePoint := CodePoint.ofChar '/'

/-- The pieces of a text between slashes. -/
def pieces (t : Text) : List Text :=
  t.foldr (fun c ps =>
    if c = slash then [] :: ps
    else match ps with
      | [] => [[c]]
      | p :: rest => (c :: p) :: rest) [[]]

/-- The number of slashes that a root has. Three and more are as good as one. -/
def rootOf (t : Text) : Nat :=
  let n := (t.takeWhile (· = slash)).length
  if 2 < n then 1 else n

/-- **The path that a text writes.** -/
def of (t : Text) : Path :=
  ⟨rootOf t, (pieces t).filter fun p => !p.isEmpty && p ≠ [CodePoint.ofChar '.']⟩

/-- **The text of a path.** -/
def shown (p : Path) : Text :=
  let t := List.replicate p.root slash ++ Text.join [slash] p.parts
  if t.isEmpty then "." else t

/-- **The last part** of a path; nothing for the root and for the current folder. -/
def name (p : Path) : Text := (p.parts.getLast?).getD []

/-- The path without its last part. -/
def parent (p : Path) : Path := { p with parts := p.parts.dropLast }

end Path

end StepCheck
