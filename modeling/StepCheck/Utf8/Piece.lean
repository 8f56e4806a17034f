import StepCheck.Text.Basic

/-!
# Pieces of a byte string

A byte string is cut into pieces, each of which either encodes one code point in UTF-8 or is as much
of an encoding as could be recognised before it broke off. The bytes of the pieces make up the byte
string (`Utf8.pieces_bytes`), so nothing is lost however the broken pieces are treated.

Broken pieces are the longest beginnings of well-formed sequences, or single bytes that begin none.
Overlong forms, encoded surrogates and numbers above U+10FFFF are not well-formed; the range of the
second byte rules them out.
-/

namespace StepCheck.Utf8

/-- **Why a piece is broken.** -/
inductive Flaw
  /-- No sequence begins with the byte. -/
  | invalidStart
  /-- The sequence is not continued by a byte that could continue it. -/
  | invalidContinuation
  /-- The byte string ends within the sequence. -/
  | unexpectedEnd
deriving DecidableEq

/-- **A piece** of a byte string. -/
inductive Piece
  /-- A code point with its encoding. -/
  | whole (c : CodePoint) (bytes : List UInt8)
  /-- Bytes that encode nothing. -/
  | broken (bytes : List UInt8) (flaw : Flaw)
deriving DecidableEq

/-- The bytes of a piece. -/
def Piece.bytes : Piece → List UInt8
  | whole _ bytes => bytes
  | broken bytes _ => bytes

/-- **A sequence that has been begun.** -/
structure Open where
  /-- The bytes so far. -/
  bytes : List UInt8
  /-- How many bytes are still to come, less one. -/
  further : Nat
  /-- The least value of the next byte. -/
  low : Nat
  /-- The greatest value of the next byte. -/
  high : Nat
  /-- The bits so far. -/
  value : Nat
deriving DecidableEq

/-- **How far the cutting has come**: the finished pieces in reverse, and the sequence begun. -/
structure Cut where
  pieces : List Piece
  pending : Option Open
deriving DecidableEq

/-- The next byte where no sequence is open. -/
def begin (pieces : List Piece) (b : UInt8) : Cut :=
  let n := b.toNat
  let opened (further low high value : Nat) : Cut := ⟨pieces, some ⟨[b], further, low, high, value⟩⟩
  if n < 0x80 then ⟨.whole (CodePoint.ofNat n) [b] :: pieces, none⟩
  else if n < 0xC2 then ⟨.broken [b] .invalidStart :: pieces, none⟩
  -- the second byte is narrowed where it would give an overlong form, a surrogate or too much
  else if n < 0xE0 then opened 0 0x80 0xBF (n - 0xC0)
  else if n = 0xE0 then opened 1 0xA0 0xBF 0
  else if n = 0xED then opened 1 0x80 0x9F 0xD
  else if n < 0xF0 then opened 1 0x80 0xBF (n - 0xE0)
  else if n = 0xF0 then opened 2 0x90 0xBF 0
  else if n < 0xF4 then opened 2 0x80 0xBF (n - 0xF0)
  else if n = 0xF4 then opened 2 0x80 0x8F 4
  else ⟨.broken [b] .invalidStart :: pieces, none⟩

/-- The next byte. -/
def Cut.next (cut : Cut) (b : UInt8) : Cut :=
  match cut.pending with
  | none => begin cut.pieces b
  | some o =>
    let n := b.toNat
    if o.low ≤ n ∧ n ≤ o.high then
      let value := o.value * 64 + (n - 0x80)
      match o.further with
      | 0 => ⟨.whole (CodePoint.ofNat value) (o.bytes ++ [b]) :: cut.pieces, none⟩
      | further + 1 => ⟨cut.pieces, some ⟨o.bytes ++ [b], further, 0x80, 0xBF, value⟩⟩
    -- the byte that does not fit may begin a sequence of its own
    else begin (.broken o.bytes .invalidContinuation :: cut.pieces) b

/-- The pieces at the end of the byte string, in order. -/
def Cut.finish (cut : Cut) : List Piece :=
  match cut.pending with
  | none => cut.pieces.reverse
  | some o => (.broken o.bytes .unexpectedEnd :: cut.pieces).reverse

/-- **The pieces of a byte string.** -/
def pieces (bs : List UInt8) : List Piece := (bs.foldl Cut.next ⟨[], none⟩).finish

/-! ### Nothing is lost -/

/-- The bytes that have gone into a cut. -/
def Cut.bytes (cut : Cut) : List UInt8 :=
  (cut.pieces.reverse.flatMap Piece.bytes) ++
    (match cut.pending with
     | none => []
     | some o => o.bytes)

private theorem bytes_begin (ps : List Piece) (b : UInt8) :
    (begin ps b).bytes = ps.reverse.flatMap Piece.bytes ++ [b] := by
  unfold begin
  dsimp only
  repeat' split
  all_goals simp [Cut.bytes, Piece.bytes]

/-- Each byte is added to the bytes of the cut. -/
theorem Cut.bytes_next (cut : Cut) (b : UInt8) : (cut.next b).bytes = cut.bytes ++ [b] := by
  obtain ⟨ps, pending⟩ := cut
  cases pending with
  | none => rw [Cut.next, bytes_begin, Cut.bytes, List.append_nil]
  | some o =>
    simp only [Cut.next]
    split
    · split <;> simp [Cut.bytes, Piece.bytes]
    · rw [bytes_begin]
      simp [Cut.bytes, Piece.bytes]

private theorem bytes_foldl (bs : List UInt8) (cut : Cut) :
    (bs.foldl Cut.next cut).bytes = cut.bytes ++ bs := by
  induction bs generalizing cut with
  | nil => simp
  | cons b bs ih => simp [ih, Cut.bytes_next]

/-- **The bytes of the pieces** are the byte string. -/
theorem pieces_bytes (bs : List UInt8) : (pieces bs).flatMap Piece.bytes = bs := by
  have h := bytes_foldl bs ⟨[], none⟩
  simp only [pieces, Cut.finish]
  generalize bs.foldl Cut.next ⟨[], none⟩ = cut at h
  obtain ⟨ps, pending⟩ := cut
  cases pending <;> simpa [Cut.bytes, Piece.bytes] using h

end StepCheck.Utf8
