/-!
# Texts

A file that is checked may hold bytes that are no UTF-8. Such bytes are kept as lone surrogates, so
a text here is a list of Unicode **code points**, surrogates included, and not a `String`. Every
index, offset and length counts code points.

* `CodePoint` — a number below `0x110000`;
* `Text` — a list of code points; string literals are coerced to it;
* `CodePoint.isSurrogate` — the code points that no encoding form can carry;
* `Text.ofNat`, `Text.ofInt` — decimal numerals.
-/

namespace StepCheck

/-- **A Unicode code point**, surrogates included. -/
structure CodePoint where
  /-- The number of the code point. -/
  val : Nat
  valid : val < 0x110000
deriving DecidableEq

/-- **A text** is the list of its code points. -/
abbrev Text : Type := List CodePoint

/-! ### Code points and characters -/

private theorem char_bounded (c : Char) : c.toNat < 0x110000 := by
  have h : c.val.toNat.isValidChar := c.valid
  have e : c.toNat = c.val.toNat := rfl
  rcases h with h | h <;> omega

namespace CodePoint

/-- The code point of a character. -/
def ofChar (c : Char) : CodePoint := ⟨c.toNat, char_bounded c⟩

instance : Coe Char CodePoint := ⟨ofChar⟩

instance : Inhabited CodePoint := ⟨ofChar ' '⟩

/-- The code point of a number, if it is one. -/
def ofNat? (n : Nat) : Option CodePoint :=
  if h : n < 0x110000 then some ⟨n, h⟩ else none

/-- The code point of a number; the replacement character U+FFFD stands for a number that is none.
-/
def ofNat (n : Nat) : CodePoint :=
  if h : n < 0x110000 then ⟨n, h⟩ else ⟨0xFFFD, by decide⟩

@[simp] theorem val_ofNat {n : Nat} (h : n < 0x110000) : (ofNat n).val = n := by
  simp [ofNat, h]

@[simp] theorem ofNat_val (c : CodePoint) : ofNat c.val = c := by
  simp [ofNat, c.valid]

@[ext] theorem ext {c d : CodePoint} (h : c.val = d.val) : c = d := by
  cases c; cases d; simp_all

/-- The code points U+D800 to U+DFFF, which stand for no character on their own. -/
def isSurrogate (c : CodePoint) : Bool := 0xD800 ≤ c.val && c.val ≤ 0xDFFF

/-- The character of a code point; U+FFFD for a surrogate. -/
def toChar (c : CodePoint) : Char := if c.isSurrogate then '\uFFFD' else Char.ofNat c.val

/-- Code points are ordered by their numbers. -/
instance : Ord CodePoint := ⟨fun c d => compare c.val d.val⟩

/-- The digits `0` to `9`. -/
def isDigit (c : CodePoint) : Bool := 0x30 ≤ c.val && c.val ≤ 0x39

/-- The letters `A` to `Z`. -/
def isCapital (c : CodePoint) : Bool := 0x41 ≤ c.val && c.val ≤ 0x5A

/-- The letters `a` to `z`. -/
def isSmall (c : CodePoint) : Bool := 0x61 ≤ c.val && c.val ≤ 0x7A

theorem isDigit_iff {c : CodePoint} : c.isDigit = true ↔ 0x30 ≤ c.val ∧ c.val ≤ 0x39 := by
  simp [isDigit]

theorem isCapital_iff {c : CodePoint} : c.isCapital = true ↔ 0x41 ≤ c.val ∧ c.val ≤ 0x5A := by
  simp [isCapital]

theorem isSmall_iff {c : CodePoint} : c.isSmall = true ↔ 0x61 ≤ c.val ∧ c.val ≤ 0x7A := by
  simp [isSmall]

/-- The digits `0` to `9`, `A` to `F` and `a` to `f`. -/
def isHexDigit (c : CodePoint) : Bool :=
  c.isDigit || (0x41 ≤ c.val && c.val ≤ 0x46) || (0x61 ≤ c.val && c.val ≤ 0x66)

/-- The value of a digit `0` to `9`, or of a letter `A` to `Z` or `a` to `z` that goes on counting
from ten; 0 for anything else. -/
def digitValue (c : CodePoint) : Nat :=
  if c.isDigit then c.val - 0x30
  else if c.isCapital then c.val - 0x41 + 10
  else if c.isSmall then c.val - 0x61 + 10
  else 0

/-- Line feed, the only character that ends a line of a checked file. -/
def lineFeed : CodePoint := ofChar '\n'

end CodePoint

/-! ### Texts and strings -/

namespace Text

/-- The text of a string. -/
def ofString (s : String) : Text := s.toList.map CodePoint.ofChar

instance : Coe String Text := ⟨ofString⟩

/-- The texts of strings. -/
def ofStrings (ss : List String) : List Text := ss.map ofString

/-- The string of a text, with U+FFFD for each surrogate. -/
def toString (t : Text) : String := String.ofList (t.map CodePoint.toChar)

/-- Texts in dictionary order of their code points; a proper initial part comes first. -/
def before : Text → Text → Bool
  | [], _ :: _ => true
  | _, [] => false
  | c :: s, d :: t => c.val < d.val || (c.val == d.val && before s t)

/-- The texts one after the other with `separator` between them. -/
def join (separator : Text) (ts : List Text) : Text := List.intercalate separator ts

/-! ### Numerals -/

/-- The decimal numeral of a natural number. -/
def ofNat (n : Nat) : Text := (Nat.toDigits 10 n).map CodePoint.ofChar

/-- The decimal numeral of an integer, with a minus sign if it is negative. -/
def ofInt (i : Int) : Text := if i < 0 then "-" ++ ofNat i.natAbs else ofNat i.natAbs

/-- The numeral of `n` in base 16 with small letters, padded with zeros to `width` digits. -/
def hex (width n : Nat) : Text :=
  let digits := (Nat.toDigits 16 n).map CodePoint.ofChar
  List.replicate (width - digits.length) (CodePoint.ofChar '0') ++ digits

/-- Small letters `a` to `z` as capitals, all else as it is. -/
def asciiCapitals (t : Text) : Text :=
  t.map fun c => if c.isSmall then CodePoint.ofNat (c.val - 0x20) else c

/-- The number that a list of digits of the given base writes. -/
def numeral (base : Nat) (digits : Text) : Nat :=
  digits.foldl (fun n c => n * base + c.digitValue) 0

/-- `t` with blanks before it up to `width` code points. -/
def padLeft (width : Nat) (t : Text) : Text :=
  List.replicate (width - t.length) (CodePoint.ofChar ' ') ++ t

end Text

end StepCheck
