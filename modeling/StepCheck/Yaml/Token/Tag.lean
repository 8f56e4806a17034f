import StepCheck.Yaml.Cursor
import StepCheck.Yaml.Token.Basic
import StepCheck.Yaml.Token.Quoted
import StepCheck.Utf8.Decode

/-!
# Reading tags, anchors and directives

* `Name.anchor` — the name of an anchor or an alias;
* `Name.tag` — a tag;
* `Name.directive` — a line with a directive.
-/

namespace StepCheck.Yaml

namespace Name

/-- Characters of names. -/
def isNameCharacter (c : CodePoint) : Bool :=
  c.isDigit || c.isCapital || c.isSmall || c = '-' || c = '_'

/-- Characters of the part of a tag behind its handle, the percent sign of an escape included. -/
def isTagCharacter (c : CodePoint) : Bool :=
  isNameCharacter c || (Text.ofString ";/?:@&=+$,.!~*'()[]%").contains c

/-- Indicators that may stand directly behind an anchor. -/
def behindAnchor : Text := "?:,]\x7d%@`"

/-- **The name of an anchor or an alias** behind its indicator. -/
def anchor (t : Text) : Except Failure Text :=
  let name := t.takeWhile isNameCharacter
  let rest := t.drop name.length
  if !name.isEmpty && (Style.endsHere rest || rest.head?.any behindAnchor.contains) then .ok name
  else .error .malformed

/-! ### Tags -/

/-- The bytes of escapes at the front of a text; each is a percent sign with two digits. -/
def escapedBytes : Text → Except Failure (List UInt8)
  | [] => .ok []
  | [c] => if c = '%' then .error .malformed else .ok []
  | [c, _] => if c = '%' then .error .malformed else .ok []
  | c :: a :: b :: t =>
    if c = '%' then
      if a.isHexDigit ∧ b.isHexDigit then
        (escapedBytes t).map (UInt8.ofNat (a.digitValue * 16 + b.digitValue) :: ·)
      else .error .malformed
    else .ok []

/-- The characters for which escapes at the front of a text stand. -/
def escaped (t : Text) : Except Failure Quoted.Piece := do
  let bytes ← escapedBytes t
  match Utf8.decode .strict bytes with
  | .ok value => return ⟨value, 3 * bytes.length⟩
  | .error _ => throw .malformed

/-- The part of a tag behind its handle, where the first `skip` code points have been read. -/
def suffixFrom : (skip : Nat) → Text → Except Failure Quoted.Piece
  | _, [] => .ok ⟨[], 0⟩
  | skip + 1, _ :: t => do
    let p ← suffixFrom skip t
    return { p with length := p.length + 1 }
  | 0, c :: t => do
    if !isTagCharacter c then return ⟨[], 0⟩
    let piece ← if c = '%' then escaped (c :: t) else .ok ⟨[c], 1⟩
    let p ← suffixFrom (piece.length - 1) t
    return ⟨piece.value ++ p.value, p.length + 1⟩

/-- **The part of a tag behind its handle**, which takes up one code point at least. -/
def suffix (t : Text) : Except Failure Quoted.Piece := do
  let p ← suffixFrom 0 t
  if p.length = 0 then throw .malformed
  return p

/-- A handle: an exclamation mark, or a name between two of them. A blank behind the first one ends
it. -/
def handle (t : Text) : Except Failure Text :=
  match t with
  | [] => .error .malformed
  | c :: rest =>
    if c ≠ '!' then .error .malformed
    else if rest.head? = some (CodePoint.ofChar ' ') then .ok [c]
    else
      let name := rest.takeWhile isNameCharacter
      if (rest.drop name.length).head? = some (CodePoint.ofChar '!') then
        .ok (c :: name ++ [CodePoint.ofChar '!'])
      else .error .malformed

/-- **A tag** and the number of its code points; the text begins with its indicator. -/
def tag (t : Text) : Except Failure (Token × Nat) := do
  let rest := t.drop 1
  let (token, length) ←
    if rest.head? = some (CodePoint.ofChar '<') then do
      let p ← suffix (rest.drop 1)
      if (rest.drop (1 + p.length)).head? ≠ some (CodePoint.ofChar '>') then throw .malformed
      pure (Token.tag none p.value, p.length + 3)
    else if Style.endsHere rest then pure (Token.tag none "!", 1)
    else
      let upToBlank := rest.takeWhile fun c => !isSeparator c || c = '\t'
      if upToBlank.contains (CodePoint.ofChar '!') then do
        let h ← handle t
        let p ← suffix (t.drop h.length)
        pure (Token.tag (some h) p.value, h.length + p.length)
      else do
        let p ← suffix rest
        pure (Token.tag (some "!") p.value, p.length + 1)
  if !endsAtBlank (t.drop length) then throw .malformed
  return (token, length)

/-! ### Directives -/

/-- The text behind blanks. -/
def behindBlanks (t : Text) : Text := t.dropWhile (· = CodePoint.ofChar ' ')

/-- A number of a version, and what follows. -/
def versionNumber (t : Text) : Except Failure (Nat × Text) :=
  let digits := t.takeWhile CodePoint.isDigit
  if digits.isEmpty then .error .malformed
  else .ok (Text.numeral 10 digits, t.drop digits.length)

/-- A version, and what follows. -/
def version (t : Text) : Except Failure (Directive × Text) := do
  let (major, rest) ← versionNumber (behindBlanks t)
  if rest.head? ≠ some (CodePoint.ofChar '.') then throw .malformed
  let (minor, rest) ← versionNumber (rest.drop 1)
  if !endsAtBlank rest then throw .malformed
  return (.version major minor, rest)

/-- A handle and what it stands for, and what follows. -/
def expansion (t : Text) : Except Failure (Directive × Text) := do
  let t := behindBlanks t
  let h ← handle t
  let rest := t.drop h.length
  if rest.head? ≠ some (CodePoint.ofChar ' ') then throw .malformed
  let rest := behindBlanks rest
  let p ← suffix rest
  let rest := rest.drop p.length
  if !endsAtBlank rest then throw .malformed
  return (.tag h p.value, rest)

/-- **A directive** and the number of code points of its line, the line break included; the text
begins with its indicator. -/
def directive (t : Text) : Except Failure (Directive × Nat) := do
  let rest := t.drop 1
  let name := rest.takeWhile isNameCharacter
  let rest := rest.drop name.length
  if name.isEmpty ∨ !endsAtBlank rest then throw .malformed
  let (d, rest) ←
    if name = Text.ofString "YAML" then version rest
    else if name = Text.ofString "TAG" then expansion rest
    else pure (Directive.other, rest.dropWhile (!isBreak ·))
  let rest := behindBlanks rest
  let rest := if rest.head? = some (CodePoint.ofChar '#') then rest.dropWhile (!isBreak ·) else rest
  if !endsAtBreak rest then throw .malformed
  return (d, t.length - (rest.drop 1).length)

end Name

end StepCheck.Yaml
