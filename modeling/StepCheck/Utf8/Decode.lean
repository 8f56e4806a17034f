import StepCheck.Utf8.Piece
import StepCheck.Text.Quoted

/-!
# Decoding UTF-8

What becomes of the pieces of a byte string depends on how broken pieces are to be treated: they can
be refused, kept as lone surrogates, replaced, left out, or shown by their numbers.

* `Utf8.Handling` — the treatment of broken pieces;
* `Utf8.decode` — the text of a byte string under a treatment;
* `Utf8.DecodeError.message` — the text of a refusal.
-/

namespace StepCheck.Utf8

/-- **The treatment of broken pieces.** -/
inductive Handling
  /-- They are refused. -/
  | strict
  /-- Each byte is kept as a surrogate. -/
  | surrogates
  /-- Each piece becomes a replacement character. -/
  | replacement
  /-- They are left out. -/
  | omission
  /-- Each byte is shown by its number in base 16. -/
  | numbers
  /-- A treatment that is not known. -/
  | unknown (name : Text)
deriving DecidableEq

/-- The treatment of a given name. -/
def Handling.named (name : Text) : Handling :=
  if name = Text.ofString "strict" then strict
  else if name = Text.ofString "surrogateescape" then surrogates
  else if name = Text.ofString "replace" then replacement
  else if name = Text.ofString "ignore" then omission
  else if name = Text.ofString "backslashreplace" then numbers
  else unknown name

/-- **Why a byte string is refused.** -/
inductive DecodeError
  /-- The bytes at a position encode nothing. -/
  | malformed (position : Nat) (bytes : List UInt8) (flaw : Flaw)
  /-- There are broken pieces, and no treatment of this name. -/
  | unknownHandling (name : Text)
deriving DecidableEq

namespace Flaw

/-- The text of a flaw. -/
def message : Flaw → Text
  | invalidStart => "invalid start byte"
  | invalidContinuation => "invalid continuation byte"
  | unexpectedEnd => "unexpected end of data"

end Flaw

namespace DecodeError

/-- The text of a refusal. -/
def message : DecodeError → Text
  | malformed position [b] flaw =>
    "'utf-8' codec can't decode byte 0x" ++ Text.hex 2 b.toNat ++ " in position "
      ++ Text.ofNat position ++ ": " ++ flaw.message
  | malformed position bytes flaw =>
    "'utf-8' codec can't decode bytes in position " ++ Text.ofNat position ++ "-"
      ++ Text.ofNat (position + bytes.length - 1) ++ ": " ++ flaw.message
  | unknownHandling name => "unknown error handler name '" ++ name ++ "'"

end DecodeError

/-- The surrogate that keeps a byte. -/
def surrogateOf (b : UInt8) : CodePoint := CodePoint.ofNat (0xDC00 + b.toNat)

/-- What a treatment that never refuses makes of a piece. -/
def Piece.text (handling : Handling) : Piece → Text
  | whole c _ => [c]
  | broken bytes _ =>
    match handling with
    | .surrogates => bytes.map surrogateOf
    | .replacement => [CodePoint.ofNat 0xFFFD]
    | .numbers => bytes.flatMap fun b => "\\x" ++ Text.hex 2 b.toNat
    | .omission | .strict | .unknown _ => []

/-- The first broken piece of a list, with its position; `position` is that of the first piece. -/
def firstBroken? (position : Nat) : List Piece → Option (Nat × List UInt8 × Flaw)
  | [] => none
  | .broken bytes flaw :: _ => some (position, bytes, flaw)
  | .whole _ bytes :: ps => firstBroken? (position + bytes.length) ps

/-- **The text of a byte string.** -/
def decode (handling : Handling) (bs : List UInt8) : Except DecodeError Text :=
  match firstBroken? 0 (pieces bs), handling with
  | some (position, bytes, flaw), .strict => .error (.malformed position bytes flaw)
  | some _, .unknown name => .error (.unknownHandling name)
  | _, _ => .ok ((pieces bs).flatMap (Piece.text handling))

/-- Keeping broken bytes as surrogates never fails. -/
theorem decode_surrogates (bs : List UInt8) :
    decode .surrogates bs = .ok ((pieces bs).flatMap (Piece.text .surrogates)) := by
  unfold decode
  cases firstBroken? 0 (pieces bs) <;> rfl

end StepCheck.Utf8
