import StepCheck.Text.Basic

/-!
# Encoding UTF-8

Surrogates have no encoding. Texts are encoded either completely or not at all
(`Utf8.encode?`), with lone surrogates turned back into the bytes that they keep
(`Utf8.encodeKept?`), or with a question mark for each surrogate (`Text.printable`).
-/

namespace StepCheck

namespace Utf8

/-- The bytes of a code point; for a surrogate, those that its number would have. -/
def bytesOf (c : CodePoint) : List UInt8 :=
  let n := c.val
  let tail (shift : Nat) : UInt8 := UInt8.ofNat (0x80 + n / Nat.pow 64 shift % 64)
  if n < 0x80 then [UInt8.ofNat n]
  else if n < 0x800 then [UInt8.ofNat (0xC0 + n / 64), tail 0]
  else if n < 0x10000 then [UInt8.ofNat (0xE0 + n / 0x1000), tail 1, tail 0]
  else [UInt8.ofNat (0xF0 + n / 0x40000), tail 2, tail 1, tail 0]

/-- **The encoding of a text**, if it has no surrogate. -/
def encode? (t : Text) : Option (List UInt8) :=
  if t.any CodePoint.isSurrogate then none else some (t.flatMap bytesOf)

/-- The byte that a code point keeps, if it keeps one. -/
def keptByte? (c : CodePoint) : Option UInt8 :=
  if 0xDC80 ≤ c.val ∧ c.val ≤ 0xDCFF then some (UInt8.ofNat (c.val - 0xDC00)) else none

/-- **The encoding of a text** with surrogates turned back into the bytes that they keep; `none` if
there are other surrogates. -/
def encodeKept? (t : Text) : Option (List UInt8) :=
  if t.any fun c => c.isSurrogate && (keptByte? c).isNone then none
  else some (t.flatMap fun c =>
    match keptByte? c with
    | some b => [b]
    | none => bytesOf c)

end Utf8

/-- The text with a question mark for each surrogate, as a terminal can show it. -/
def Text.printable (t : Text) : Text := t.map fun c => if c.isSurrogate then ('?' : Char) else c

/-- The index of the first code point that has no encoding. -/
def Text.firstSurrogate? (t : Text) : Option Nat := t.findIdx? CodePoint.isSurrogate

end StepCheck
