import StepCheck.Text.Basic

/-!
# Bytes in base 64

Four characters write three bytes. Characters outside the alphabet are passed over, and padding ends
the bytes where it completes a group of four.

* `Base64.decode?` — the bytes that a text writes.
-/

namespace StepCheck.Yaml

namespace Base64

/-- The value of a character of the alphabet. -/
def value? (c : CodePoint) : Option Nat :=
  if c.isCapital then some (c.val - 0x41)
  else if c.isSmall then some (c.val - 0x61 + 26)
  else if c.isDigit then some (c.val - 0x30 + 52)
  else if c = '+' then some 62
  else if c = '/' then some 63
  else none

/-- The bytes of the rest of a text. Of the group that has begun, `place` characters and `pads`
padding characters have been read, and `bits` are the bits that make up no byte yet. -/
def decodeFrom? (place pads bits : Nat) : Text → Option (List UInt8)
  | [] => if place = 0 then some [] else none
  | c :: t =>
    if c = '=' then
      if 2 ≤ place then
        if 4 ≤ place + (pads + 1) then some [] else decodeFrom? place (pads + 1) bits t
      else decodeFrom? place pads bits t
    else
      match value? c with
      | none => decodeFrom? place pads bits t
      | some v =>
        match place with
        | 0 => decodeFrom? 1 0 v t
        | 1 => (decodeFrom? 2 0 (v % 16) t).map (UInt8.ofNat (bits * 4 + v / 16) :: ·)
        | 2 => (decodeFrom? 3 0 (v % 4) t).map (UInt8.ofNat (bits * 16 + v / 4) :: ·)
        | _ => (decodeFrom? 0 0 0 t).map (UInt8.ofNat (bits * 64 + v) :: ·)

/-- **The bytes that a text writes**, if its last group is complete. -/
def decode? (t : Text) : Option (List UInt8) := decodeFrom? 0 0 0 t

end Base64

end StepCheck.Yaml
