import StepCheck.Yaml.Cursor
import StepCheck.Yaml.Failure

/-!
# Reading quoted scalars

Lines of a quoted scalar are joined: a single line break stands for a blank, and of several ones the
first is dropped. Between double quotes a backslash begins an escape.

The readers of this module look at a text and tell what they have read and how many code points it
takes up.

* `Quoted.Escape.read` — an escape;
* `Quoted.gap` — blanks and line breaks;
* `Quoted.read` — the whole scalar behind its first quote.
-/

namespace StepCheck.Yaml

namespace Quoted

/-- **What is read at a place** and how many code points it takes up. -/
structure Piece where
  value : Text
  length : Nat

/-- Line breaks behind a first one, and the blanks around them. A mark between documents must not
stand there; `atStart` tells whether a line begins. -/
def breaks (atStart : Bool) : Text → Except Failure Piece
  | [] => .ok ⟨[], 0⟩
  | c :: t => do
    if atStart && isDocumentMarker (c :: t) then throw .malformed
    if Plain.isGap c then
      let p ← breaks false t
      return { p with length := p.length + 1 }
    else if isBreak c then
      let p ← breaks true t
      return ⟨breakText c ++ p.value, p.length + 1⟩
    else return ⟨[], 0⟩

/-- **Blanks and line breaks** within a quoted scalar. -/
def gap (t : Text) : Except Failure Piece := do
  let blanks := t.takeWhile Plain.isGap
  match t.drop blanks.length with
  | [] => throw .malformed
  | c :: rest =>
    if isBreak c then
      let p ← breaks true rest
      let value :=
        -- a line feed alone becomes a blank, and further ones stand for themselves
        if breakText c ≠ [CodePoint.lineFeed] then breakText c ++ p.value
        else if p.value.isEmpty then " "
        else p.value
      return ⟨value, blanks.length + 1 + p.length⟩
    else return ⟨blanks, blanks.length⟩

/-! ### Escapes -/

/-- The escapes of one character, with the numbers of the code points for which they stand. -/
def letterEscapes : List (Char × Nat) :=
  [('0', 0x00), ('a', 0x07), ('b', 0x08), ('t', 0x09), ('\t', 0x09), ('n', 0x0A), ('v', 0x0B),
    ('f', 0x0C), ('r', 0x0D), ('e', 0x1B), (' ', 0x20), ('"', 0x22), ('\\', 0x5C), ('/', 0x2F),
    ('N', 0x85), ('_', 0xA0), ('L', 0x2028), ('P', 0x2029)]

/-- The escapes that name a code point, with the number of their digits in base 16. -/
def numberEscapes : List (Char × Nat) := [('x', 2), ('u', 4), ('U', 8)]

/-- The value under a character of a table. -/
def lookup? (table : List (Char × Nat)) (c : CodePoint) : Option Nat :=
  (table.find? fun (key, _) => CodePoint.ofChar key = c).map Prod.snd

/-- **An escape** behind its backslash. -/
def escape : Text → Except Failure Piece
  | [] => .error .malformed
  | c :: t =>
    match lookup? letterEscapes c, lookup? numberEscapes c with
    | some n, _ => .ok ⟨[CodePoint.ofNat n], 1⟩
    | none, some width =>
      let digits := t.take width
      if digits.length = width ∧ digits.all CodePoint.isHexDigit then
        let n := Text.numeral 16 digits
        match CodePoint.ofNat? n with
        | some c => .ok ⟨[c], width + 1⟩
        | none => .error (.noCodePoint n)
      else .error .malformed
    | none, none =>
      -- a line break behind a backslash stands for nothing
      if isBreak c then do
        let p ← breaks true t
        return { p with length := p.length + 1 }
      else .error .malformed

/-! ### Scalars -/

/-- What stands at the front of the rest of a quoted scalar, if that is not its last quote. -/
def next? (quote : CodePoint) : Text → Except Failure (Option Piece)
  | [] => .error .malformed
  | c :: t =>
    if c = quote then
      if quote = '\'' ∧ t.head? = some quote then .ok (some ⟨[quote], 2⟩) else .ok none
    else if c = '\\' ∧ quote = '"' then do
      let p ← escape t
      return some { p with length := p.length + 1 }
    else if Plain.isGap c || isBreak c then (gap (c :: t)).map some
    else .ok (some ⟨[c], 1⟩)

/-- The rest of a quoted scalar, of which the first `skip` code points have been read. -/
def readFrom (quote : CodePoint) : (skip : Nat) → Text → Except Failure Piece
  | skip + 1, _ :: t => do
    let p ← readFrom quote skip t
    return { p with length := p.length + 1 }
  | 0, c :: t => do
    match ← next? quote (c :: t) with
    | none => return ⟨[], 1⟩
    | some piece =>
      let p ← readFrom quote (piece.length - 1) t
      return ⟨piece.value ++ p.value, p.length + 1⟩
  | _, [] => .error .malformed

/-- **A quoted scalar** behind its first quote, up to the last. -/
def read (quote : CodePoint) (t : Text) : Except Failure Piece := readFrom quote 0 t

end Quoted

end StepCheck.Yaml
