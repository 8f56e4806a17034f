import StepCheck.Yaml.Cursor
import StepCheck.Yaml.Failure

/-!
# Reading block scalars

A block scalar consists of the lines that are indented far enough. It is literal, or folded: then a
line break between two lines that begin with no blank stands for a blank. Its header tells which
line breaks at the end are kept, and perhaps how far the lines are indented.

* `Block.Header.read` — the header;
* `Block.Line` — the lines;
* `Block.read` — the whole scalar behind its indicator.
-/

namespace StepCheck.Yaml

namespace Block

/-- **Which line breaks at the end** are kept: none, one, or all. -/
inductive Chomping
  | strip
  | clip
  | keep
deriving DecidableEq

/-- **The header** of a block scalar. -/
structure Header where
  chomping : Chomping
  /-- How much further than the block around it the scalar is indented, if that is told. -/
  indent : Option Nat

namespace Header

/-- The indicator of what becomes of line breaks at the end. -/
def chomping? (c : CodePoint) : Option Chomping :=
  if c = '+' then some .keep else if c = '-' then some .strip else none

/-- The indicators at the front of a header, and what follows them. -/
def indicators (t : Text) : Header × Text :=
  match t with
  | [] => (⟨.clip, none⟩, [])
  | c :: rest =>
    match chomping? c, rest with
    | some k, [] => (⟨k, none⟩, [])
    | some k, d :: more => if d.isDigit then (⟨k, some d.digitValue⟩, more) else (⟨k, none⟩, rest)
    | none, [] => if c.isDigit then (⟨.clip, some c.digitValue⟩, []) else (⟨.clip, none⟩, t)
    | none, d :: more =>
      if c.isDigit then
        match chomping? d with
        | some k => (⟨k, some c.digitValue⟩, more)
        | none => (⟨.clip, some c.digitValue⟩, rest)
      else (⟨.clip, none⟩, t)

/-- **The header**, and what follows the line on which it stands. -/
def read (t : Text) : Except Failure (Header × Text) := do
  let (h, rest) := indicators t
  if h.indent = some 0 ∨ !endsAtBlank rest then throw .malformed
  let rest := rest.dropWhile (· = CodePoint.ofChar ' ')
  let rest := if rest.head? = some (CodePoint.ofChar '#') then rest.dropWhile (!isBreak ·) else rest
  if !endsAtBreak rest then throw .malformed
  return (h, rest.drop 1)

end Header

/-- **A line** of a block scalar. -/
structure Line where
  /-- The number of blanks at its front. -/
  blanks : Nat
  /-- What follows them. -/
  body : Text
  /-- The line break at its end; none at the end of the text. -/
  stop : Option CodePoint

namespace Line

/-- The number of code points of a line. -/
def length (l : Line) : Nat := l.blanks + l.body.length + if l.stop.isSome then 1 else 0

/-- What its line break is read as. -/
def breakText (l : Line) : Text := (l.stop.map Yaml.breakText).getD []

/-- The lines of a text with one more character at its front. -/
def push (c : CodePoint) (ls : List Line) : List Line :=
  if isBreak c then ⟨0, [], some c⟩ :: ls
  else
    match ls with
    | [] => [if c = ' ' then ⟨1, [], none⟩ else ⟨0, [c], none⟩]
    | l :: rest =>
      if c = ' ' then { l with blanks := l.blanks + 1 } :: rest
      else
        { l with
          blanks := 0
          body := c :: List.replicate l.blanks (CodePoint.ofChar ' ') ++ l.body } :: rest

/-- **The lines of a text.** -/
def all (t : Text) : List Line := t.foldr push [⟨0, [], none⟩]

/-- Whether a line holds nothing but blanks and ends with a line break. -/
def isEmpty (l : Line) : Bool := l.body.isEmpty && l.stop.isSome

/-- What a line holds beyond its indentation. -/
def content (indent : Nat) (l : Line) : Text :=
  List.replicate (l.blanks - indent) (CodePoint.ofChar ' ') ++ l.body

/-- Whether a line belongs to the scalar by its indentation. -/
def isInside (indent : Nat) (l : Line) : Bool :=
  indent ≤ l.blanks && !(l.content indent).isEmpty

end Line

/-- Whether the first character is neither a blank nor a tab. -/
def startsFlush : Text → Bool
  | [] => true
  | c :: _ => !Plain.isGap c

/-- **A block scalar** as it is read. -/
structure Reading where
  value : Text
  /-- The number of code points of its lines. -/
  length : Nat

/-- The line before, as far as it matters: its line break, and whether it begins with no blank. -/
structure Previous where
  stop : Text
  isFlush : Bool

/-- How a block scalar is written. -/
structure Form where
  isFolded : Bool
  chomping : Chomping
  indent : Nat

/-- What stands between two lines, or before the first. -/
def joint (isFolded : Bool) (previous : Option Previous) (breaks content : Text) : Text :=
  match previous with
  | none => breaks
  | some p =>
    -- only between two lines that are both flush is a line feed folded
    if isFolded ∧ p.stop = [CodePoint.lineFeed] ∧ p.isFlush ∧ startsFlush content then
      if breaks.isEmpty then " " else breaks
    else p.stop ++ breaks

/-- The line breaks at the end that are kept. -/
def tail (chomping : Chomping) (previous : Option Previous) (breaks : Text) : Text :=
  let stop := (previous.map Previous.stop).getD []
  match chomping with
  | .strip => []
  | .clip => stop
  | .keep => stop ++ breaks

/-- The rest of a scalar behind a line and the line breaks of empty lines. -/
def readLines (f : Form) (previous : Option Previous) (breaks : Text) : List Line → Reading
  | [] => ⟨tail f.chomping previous breaks, 0⟩
  | l :: ls =>
    if l.isEmpty ∧ l.blanks ≤ f.indent then
      let r := readLines f previous (breaks ++ l.breakText) ls
      { r with length := r.length + l.length }
    else if l.isInside f.indent then
      let content := l.content f.indent
      let r := readLines f (some ⟨l.breakText, startsFlush content⟩) [] ls
      ⟨joint f.isFolded previous breaks content ++ content ++ r.value, r.length + l.length⟩
    -- the first line that is indented less ends the scalar
    else ⟨tail f.chomping previous breaks, 0⟩

/-- **A block scalar** behind its indicator, within a block at column `outer`. -/
def read (isFolded : Bool) (outer : Int) (t : Text) : Except Failure Reading := do
  let (h, rest) ← Header.read t
  let least := (max (outer + 1) 1).toNat
  let ls := Line.all rest
  let r := match h.indent with
    | some n => readLines ⟨isFolded, h.chomping, least + n - 1⟩ none [] ls
    | none =>
      -- the indentation is that of the first line with text, or of a longer empty one before it
      let empty := ls.takeWhile Line.isEmpty
      let others := ls.dropWhile Line.isEmpty
      let indent := (empty ++ others.take 1).foldl (fun n (l : Line) => max n l.blanks) least
      let r := readLines ⟨isFolded, h.chomping, indent⟩ none (empty.flatMap Line.breakText) others
      { r with length := r.length + empty.foldl (fun n (l : Line) => n + l.length) 0 }
  return { r with length := r.length + (t.length - rest.length) }

end Block

end StepCheck.Yaml
