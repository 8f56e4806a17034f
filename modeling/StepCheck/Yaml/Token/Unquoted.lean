import StepCheck.Yaml.Cursor

/-!
# Reading plain scalars

A plain scalar goes on over blanks and line breaks until something stands there that it cannot hold,
or until a line begins too far left.

* `Unquoted.word` — the characters up to the next gap;
* `Unquoted.Gap.of` — blanks and line breaks;
* `Unquoted.read` — the whole scalar.
-/

namespace StepCheck.Yaml

namespace Unquoted

/-- Indicators that end a plain scalar within brackets. -/
def flowIndicators : Text := ",?[]\x7b\x7d"

/-- Indicators that may follow a colon within brackets. -/
def afterColon : Text := ",[]\x7b\x7d"

/-- Whether a colon before the text ends a plain scalar; `inner` tells whether it is within
brackets. -/
def colonEnds (inner : Bool) : Text → Bool
  | [] => true
  | c :: _ => isSeparator c || (inner && afterColon.contains c)

/-- Whether a plain scalar ends before the first character of a text. -/
def isEnd (inner : Bool) : Text → Bool
  | [] => true
  | c :: t =>
    isSeparator c || (c = ':' && colonEnds inner t) || (inner && flowIndicators.contains c)

/-- **The characters of a plain scalar** up to the next gap or to its end. -/
def word (inner : Bool) : Text → Text
  | [] => []
  | c :: t => if isEnd inner (c :: t) then [] else c :: word inner t

/-- **Blanks and line breaks** behind a word. -/
structure Gap where
  /-- What they stand for; nothing if the scalar ends with them. -/
  value : Text
  length : Nat
  /-- Whether there is a line break. -/
  breaksLine : Bool
  /-- The column behind them, if there is a line break. -/
  column : Nat

/-- No gap. -/
def Gap.none : Gap := ⟨[], 0, false, 0⟩

/-- Line breaks behind a first one, and the blanks around them: what they stand for, unless a mark
between documents follows one of them; their number; and the column behind them. -/
def breaks (column : Nat) : Text → Option Text × Nat × Nat
  | [] => (some [], 0, column)
  | c :: t =>
    if c = ' ' then
      let (value, length, column) := breaks (column + 1) t
      (value, length + 1, column)
    else if isBreak c then
      if isDocumentMarker t then (Option.none, 1, 0)
      else
        let (value, length, column) := breaks 0 t
        (value.map (breakText c ++ ·), length + 1, column)
    else (some [], 0, column)

/-- **The gap at the front** of a text. -/
def Gap.of (t : Text) : Gap :=
  let blanks := t.takeWhile (· = CodePoint.ofChar ' ')
  match t.drop blanks.length with
  | [] => ⟨blanks, blanks.length, false, 0⟩
  | c :: rest =>
    if isBreak c then
      if isDocumentMarker rest then ⟨[], blanks.length + 1, true, 0⟩
      else
        let (value, length, column) := breaks 0 rest
        let value := match value with
          | Option.none => []
          | some value =>
            if breakText c ≠ [CodePoint.lineFeed] then breakText c ++ value
            else if value.isEmpty then " "
            else value
        ⟨value, blanks.length + 1 + length, true, column⟩
    else ⟨blanks, blanks.length, false, 0⟩

/-- **A plain scalar** as it is read. -/
structure Reading where
  value : Text
  /-- The number of its code points, those of a gap behind it included. -/
  length : Nat
  /-- Whether a line break stands behind it. -/
  breaksLine : Bool

/-- Where a plain scalar stands. -/
structure Context where
  /-- Whether it stands within brackets. -/
  inner : Bool
  /-- The column from which on its lines begin, outside brackets. -/
  indent : Int

/-- Whether a scalar goes on behind a gap, before the text `rest`. -/
def goesOn (x : Context) (gap : Gap) (rest : Text) : Bool :=
  -- a hash behind a gap begins a comment, and outside brackets the next line must be indented
  !gap.value.isEmpty && rest.head? ≠ some (CodePoint.ofChar '#')
    && (x.inner || !gap.breaksLine || x.indent ≤ gap.column)

/-- The rest of a plain scalar behind a gap, where the first `skip` code points have been read. -/
def readFrom (x : Context) : (skip : Nat) → (gap : Gap) → Text → Reading
  | _, gap, [] => ⟨[], 0, gap.breaksLine⟩
  | skip + 1, gap, _ :: t =>
    let r := readFrom x skip gap t
    { r with length := r.length + 1 }
  | 0, gap, c :: t =>
    let w := word x.inner (c :: t)
    if c = '#' ∨ w.isEmpty then ⟨[], 0, gap.breaksLine⟩
    else
      let rest := (c :: t).drop w.length
      let next := Gap.of rest
      if goesOn x next (rest.drop next.length) then
        let r := readFrom x (w.length + next.length - 1) next t
        ⟨gap.value ++ w ++ r.value, r.length + 1, r.breaksLine⟩
      else ⟨gap.value ++ w, w.length + next.length, next.breaksLine⟩

/-- **The plain scalar** at the front of a text. -/
def read (x : Context) (t : Text) : Reading := readFrom x 0 Gap.none t

end Unquoted

end StepCheck.Yaml
