import StepCheck.Utf8.Encode
import StepCheck.Utf8.Piece

/-!
# Pieces and encodings

Cutting a byte string goes byte by byte and keeps the sequence that has been begun. Encoding goes
code point by code point. This module ties the two together: a piece that is whole is the encoding
of its code point, and the encoding of a text is cut into the encodings of its code points, whatever
follows it.

* `Piece.Sound` — what every piece of a byte string is (`sound_of_mem_pieces`);
* `pieces_encoded_append` — how the encoding of a text is cut;
* `exists_pieces_eq` — a byte string is the encoding of a text, up to a first broken piece if there
  is one.

The number of a sequence is carried along as `value`, and what is shown of an open sequence is what
it may still become (`Completes`); so the three lengths of sequences need no proofs of their own.
-/

namespace StepCheck.Utf8

/-! ### Encodings of one code point -/

private theorem ofNat_eq {n : Nat} {b : UInt8} (h : n = b.toNat) : UInt8.ofNat n = b := by
  rw [h, UInt8.ofNat_toNat]

private theorem toNat_ofNat {n : Nat} (h : n < 256) : (UInt8.ofNat n).toNat = n := by
  rw [UInt8.toNat_ofNat', Nat.mod_eq_of_lt h]

section BytesOf

variable {c : CodePoint}

/-- **The bytes of a code point** below 0x80: a single one. -/
theorem bytesOf_one (h : c.val < 0x80) : bytesOf c = [UInt8.ofNat c.val] := by
  unfold bytesOf
  dsimp only
  rw [if_pos h]

/-- The two bytes of a code point from 0x80 to 0x7FF. -/
theorem bytesOf_two (h : 0x80 ≤ c.val) (h' : c.val < 0x800) :
    bytesOf c = [UInt8.ofNat (0xC0 + c.val / 64), UInt8.ofNat (0x80 + c.val % 64)] := by
  unfold bytesOf
  dsimp only
  rw [if_neg (by omega), if_pos h', Nat.pow_eq, Nat.pow_zero, Nat.div_one]

/-- The three bytes of a code point from 0x800 to 0xFFFF. -/
theorem bytesOf_three (h : 0x800 ≤ c.val) (h' : c.val < 0x10000) :
    bytesOf c = [UInt8.ofNat (0xE0 + c.val / 0x1000), UInt8.ofNat (0x80 + c.val / 64 % 64),
      UInt8.ofNat (0x80 + c.val % 64)] := by
  unfold bytesOf
  dsimp only
  rw [if_neg (by omega), if_neg (by omega), if_pos h']
  simp only [Nat.pow_eq, Nat.pow_zero, Nat.div_one, Nat.pow_one]

/-- The four bytes of a code point beyond 0xFFFF. -/
theorem bytesOf_four (h : 0x10000 ≤ c.val) :
    bytesOf c = [UInt8.ofNat (0xF0 + c.val / 0x40000), UInt8.ofNat (0x80 + c.val / 0x1000 % 64),
      UInt8.ofNat (0x80 + c.val / 64 % 64), UInt8.ofNat (0x80 + c.val % 64)] := by
  unfold bytesOf
  dsimp only
  rw [if_neg (by omega), if_neg (by omega), if_neg (by omega)]
  simp only [Nat.pow_eq, Nat.pow_zero, Nat.div_one, Nat.pow_one, Nat.reducePow]

end BytesOf

/-- The surrogates are an interval. -/
theorem isSurrogate_eq_false_iff {c : CodePoint} :
    c.isSurrogate = false ↔ c.val < 0xD800 ∨ 0xDFFF < c.val := by
  unfold CodePoint.isSurrogate
  rw [Bool.and_eq_false_iff, decide_eq_false_iff_not, decide_eq_false_iff_not]
  omega

/-! ### One byte more -/

/-- **How a sequence is begun** by a byte: it is complete at once, or it is none, or one to three
bytes are still to come, the first of them within bounds. -/
theorem begin_cases (ps : List Piece) (b : UInt8) :
    b.toNat < 0x80 ∧ begin ps b = ⟨.whole (CodePoint.ofNat b.toNat) [b] :: ps, none⟩ ∨
    (0x80 ≤ b.toNat ∧ b.toNat < 0xC2 ∨ 0xF4 < b.toNat) ∧
      begin ps b = ⟨.broken [b] .invalidStart :: ps, none⟩ ∨
    (0xC2 ≤ b.toNat ∧ b.toNat < 0xE0) ∧
      begin ps b = ⟨ps, some ⟨[b], 0, 0x80, 0xBF, b.toNat - 0xC0⟩⟩ ∨
    (0xE0 ≤ b.toNat ∧ b.toNat < 0xF0) ∧
      begin ps b = ⟨ps, some ⟨[b], 1, if b.toNat = 0xE0 then 0xA0 else 0x80,
        if b.toNat = 0xED then 0x9F else 0xBF, b.toNat - 0xE0⟩⟩ ∨
    (0xF0 ≤ b.toNat ∧ b.toNat ≤ 0xF4) ∧
      begin ps b = ⟨ps, some ⟨[b], 2, if b.toNat = 0xF0 then 0x90 else 0x80,
        if b.toNat = 0xF4 then 0x8F else 0xBF, b.toNat - 0xF0⟩⟩ := by
  unfold begin
  dsimp only
  generalize b.toNat = n
  grind

/-- The last byte of an open sequence. -/
theorem next_last {ps : List Piece} {bytes : List UInt8} {low high value : Nat} {b : UInt8}
    (hl : low ≤ b.toNat) (hh : b.toNat ≤ high) :
    Cut.next ⟨ps, some ⟨bytes, 0, low, high, value⟩⟩ b
      = ⟨.whole (CodePoint.ofNat (value * 64 + (b.toNat - 0x80))) (bytes ++ [b]) :: ps, none⟩ :=
  if_pos ⟨hl, hh⟩

/-- A byte of an open sequence that is not the last one. -/
theorem next_further {ps : List Piece} {bytes : List UInt8} {further low high value : Nat}
    {b : UInt8} (hl : low ≤ b.toNat) (hh : b.toNat ≤ high) :
    Cut.next ⟨ps, some ⟨bytes, further + 1, low, high, value⟩⟩ b
      = ⟨ps, some ⟨bytes ++ [b], further, 0x80, 0xBF, value * 64 + (b.toNat - 0x80)⟩⟩ :=
  if_pos ⟨hl, hh⟩

/-! ### What pieces are -/

/-- **A piece is sound** if it is the encoding of a code point that is no surrogate, or consists of
bytes that stand for nothing on their own. -/
def Piece.Sound : Piece → Prop
  | whole c bytes => c.isSurrogate = false ∧ bytes = bytesOf c
  | broken bytes _ => bytes ≠ [] ∧ ∀ b ∈ bytes, 0x80 ≤ b.toNat

/-- **What an open sequence may still become**: with so many further bytes, the first of which lies
between two bounds, it is the encoding of a code point that is no surrogate. -/
def Completes (bytes : List UInt8) : (low high value further : Nat) → Prop
  | low, high, value, 0 => ∀ b : UInt8, low ≤ b.toNat → b.toNat ≤ high →
      ∃ c : CodePoint, c.val = value * 64 + (b.toNat - 0x80) ∧ c.isSurrogate = false ∧
        bytes ++ [b] = bytesOf c
  | low, high, value, further + 1 => ∀ b : UInt8, low ≤ b.toNat → b.toNat ≤ high →
      Completes (bytes ++ [b]) 0x80 0xBF (value * 64 + (b.toNat - 0x80)) further

/-- **The first of two bytes** asks for one more. -/
private theorem completes_two {b : UInt8} (h : 0xC2 ≤ b.toNat) (h' : b.toNat < 0xE0) :
    Completes [b] 0x80 0xBF (b.toNat - 0xC0) 0 := by
  intro b₁ hl hh
  let c : CodePoint := ⟨(b.toNat - 0xC0) * 64 + (b₁.toNat - 0x80), by omega⟩
  have hc : c.val = (b.toNat - 0xC0) * 64 + (b₁.toNat - 0x80) := rfl
  refine ⟨c, hc, isSurrogate_eq_false_iff.mpr (by omega), ?_⟩
  rw [bytesOf_two (by omega) (by omega), ofNat_eq (b := b) (by omega),
    ofNat_eq (b := b₁) (by omega)]
  rfl

/-- **The first of three bytes** asks for two more, of which the second byte must not give a shorter
form or a surrogate. -/
private theorem completes_three {b : UInt8} (h : 0xE0 ≤ b.toNat) (h' : b.toNat < 0xF0) :
    Completes [b] (if b.toNat = 0xE0 then 0xA0 else 0x80) (if b.toNat = 0xED then 0x9F else 0xBF)
      (b.toNat - 0xE0) 1 := by
  intro b₁ hl₁ hh₁ b₂ hl₂ hh₂
  have hl₁' : 0x80 ≤ b₁.toNat := by split at hl₁ <;> omega
  have hh₁' : b₁.toNat ≤ 0xBF := by split at hh₁ <;> omega
  let c : CodePoint := ⟨((b.toNat - 0xE0) * 64 + (b₁.toNat - 0x80)) * 64 + (b₂.toNat - 0x80),
    by omega⟩
  have hc : c.val = ((b.toNat - 0xE0) * 64 + (b₁.toNat - 0x80)) * 64 + (b₂.toNat - 0x80) := rfl
  refine ⟨c, hc, isSurrogate_eq_false_iff.mpr ?_, ?_⟩
  · -- the bound on the second byte rules the surrogates out
    split at hh₁ <;> omega
  · have hlong : 0x800 ≤ c.val := by split at hl₁ <;> omega
    rw [bytesOf_three hlong (by omega), ofNat_eq (b := b) (by omega),
      ofNat_eq (b := b₁) (by omega), ofNat_eq (b := b₂) (by omega)]
    rfl

/-- **The first of four bytes** asks for three more, of which the second byte must not give a
shorter form, or go beyond the last code point. -/
private theorem completes_four {b : UInt8} (h : 0xF0 ≤ b.toNat) (h' : b.toNat ≤ 0xF4) :
    Completes [b] (if b.toNat = 0xF0 then 0x90 else 0x80) (if b.toNat = 0xF4 then 0x8F else 0xBF)
      (b.toNat - 0xF0) 2 := by
  intro b₁ hl₁ hh₁ b₂ hl₂ hh₂ b₃ hl₃ hh₃
  have hl₁' : 0x80 ≤ b₁.toNat := by split at hl₁ <;> omega
  have hh₁' : b₁.toNat ≤ 0xBF := by split at hh₁ <;> omega
  -- the bound on the second byte keeps the value in range
  have hvalid : (((b.toNat - 0xF0) * 64 + (b₁.toNat - 0x80)) * 64 + (b₂.toNat - 0x80)) * 64
      + (b₃.toNat - 0x80) < 0x110000 := by split at hh₁ <;> omega
  let c : CodePoint := ⟨_, hvalid⟩
  have hc : c.val = (((b.toNat - 0xF0) * 64 + (b₁.toNat - 0x80)) * 64 + (b₂.toNat - 0x80)) * 64
      + (b₃.toNat - 0x80) := rfl
  have hlong : 0x10000 ≤ c.val := by split at hl₁ <;> omega
  refine ⟨c, hc, isSurrogate_eq_false_iff.mpr (by omega), ?_⟩
  rw [bytesOf_four hlong, ofNat_eq (b := b) (by omega), ofNat_eq (b := b₁) (by omega),
    ofNat_eq (b := b₂) (by omega), ofNat_eq (b := b₃) (by omega)]
  rfl

/-- **An open sequence is sound** if it can be completed, and consists of bytes that stand for
nothing on their own. -/
structure Open.Sound (o : Open) : Prop where
  bytes_ne_nil : o.bytes ≠ []
  bytes_high : ∀ b ∈ o.bytes, 0x80 ≤ b.toNat
  low_high : 0x80 ≤ o.low
  completes : Completes o.bytes o.low o.high o.value o.further

/-- **A cut is sound** if its pieces are, and the sequence that has been begun, if there is one. -/
structure Cut.Sound (cut : Cut) : Prop where
  pieces : ∀ p ∈ cut.pieces, p.Sound
  pending : ∀ o, cut.pending = some o → o.Sound

/-- **A byte** that begins something is a whole piece, a broken one, or asks for more. -/
private theorem sound_begin {ps : List Piece} (h : ∀ p ∈ ps, p.Sound) (b : UInt8) :
    (begin ps b).Sound := by
  have hone : 0x80 ≤ b.toNat → [b] ≠ [] ∧ ∀ b' ∈ [b], 0x80 ≤ b'.toNat := fun hb =>
    ⟨List.cons_ne_nil _ _, List.forall_mem_singleton.mpr hb⟩
  -- by what the byte is: below 0x80, none that begins anything, and the beginnings of two, three
  -- and four
  rcases begin_cases ps b with ⟨hb, heq⟩ | ⟨hb, heq⟩ | ⟨hb, heq⟩ | ⟨hb, heq⟩ | ⟨hb, heq⟩ <;>
    rw [heq]
  · refine ⟨List.forall_mem_cons.mpr ⟨⟨?_, ?_⟩, h⟩, nofun⟩
    · rw [isSurrogate_eq_false_iff, CodePoint.val_ofNat (by omega)]
      omega
    · rw [bytesOf_one (by rw [CodePoint.val_ofNat (by omega)]; exact hb),
        CodePoint.val_ofNat (by omega), UInt8.ofNat_toNat]
  · exact ⟨List.forall_mem_cons.mpr ⟨hone (by omega), h⟩, nofun⟩
  · refine ⟨h, fun o ho => ?_⟩
    cases ho
    obtain ⟨hne, hhigh⟩ := hone (by omega)
    exact ⟨hne, hhigh, Nat.le_refl _, completes_two hb.1 hb.2⟩
  · refine ⟨h, fun o ho => ?_⟩
    cases ho
    obtain ⟨hne, hhigh⟩ := hone (by omega)
    exact ⟨hne, hhigh, by dsimp only; split <;> omega, completes_three hb.1 hb.2⟩
  · refine ⟨h, fun o ho => ?_⟩
    cases ho
    obtain ⟨hne, hhigh⟩ := hone (by omega)
    exact ⟨hne, hhigh, by dsimp only; split <;> omega, completes_four hb.1 hb.2⟩

/-- **Each byte** leaves a cut sound. -/
theorem Cut.Sound.next {cut : Cut} (h : cut.Sound) (b : UInt8) : (cut.next b).Sound := by
  obtain ⟨ps, pending⟩ := cut
  cases pending with
  | none => exact sound_begin h.pieces b
  | some o =>
    have ho := h.pending o rfl
    obtain ⟨bytes, further, low, high, value⟩ := o
    by_cases hb : low ≤ b.toNat ∧ b.toNat ≤ high
    · have hhigh : ∀ b' ∈ bytes ++ [b], 0x80 ≤ b'.toNat := by
        intro b' hb'
        rcases List.mem_append.mp hb' with hb' | hb'
        · exact ho.bytes_high b' hb'
        · rw [List.mem_singleton.mp hb']
          exact Nat.le_trans ho.low_high hb.1
      cases further with
      | zero =>
        rw [next_last hb.1 hb.2]
        obtain ⟨c, hc, hsurrogate, hbytes⟩ := ho.completes b hb.1 hb.2
        rw [← hc, CodePoint.ofNat_val]
        exact ⟨List.forall_mem_cons.mpr ⟨⟨hsurrogate, hbytes⟩, h.pieces⟩, nofun⟩
      | succ further =>
        rw [next_further hb.1 hb.2]
        refine ⟨h.pieces, fun o ho' => ?_⟩
        cases ho'
        exact ⟨List.append_ne_nil_of_right_ne_nil _ (List.cons_ne_nil _ _), hhigh, Nat.le_refl _,
          ho.completes b hb.1 hb.2⟩
    · -- the sequence breaks off, and the byte begins one of its own
      have hnext : Cut.next ⟨ps, some ⟨bytes, further, low, high, value⟩⟩ b
          = begin (.broken bytes .invalidContinuation :: ps) b := if_neg hb
      have hbroken : Piece.Sound (.broken bytes .invalidContinuation) :=
        ⟨ho.bytes_ne_nil, ho.bytes_high⟩
      rw [hnext]
      exact sound_begin (List.forall_mem_cons.mpr ⟨hbroken, h.pieces⟩) b

/-- **Every piece** of a byte string is sound. -/
theorem sound_of_mem_pieces {bs : List UInt8} {p : Piece} (hp : p ∈ pieces bs) : p.Sound := by
  -- byte by byte, whatever has been cut so far
  have hfold : ∀ (bs : List UInt8) (cut : Cut), cut.Sound → (bs.foldl Cut.next cut).Sound := by
    intro bs
    induction bs with
    | nil => exact fun _ h => h
    | cons b bs ih => exact fun cut h => ih (cut.next b) (h.next b)
  have hcut := hfold bs ⟨[], none⟩ ⟨nofun, nofun⟩
  unfold pieces at hp
  generalize bs.foldl Cut.next ⟨[], none⟩ = cut at hp hcut
  obtain ⟨ps, _ | o⟩ := cut
  · exact hcut.pieces p (List.mem_reverse.mp hp)
  · rcases List.mem_cons.mp (List.mem_reverse.mp hp) with rfl | hp
    · exact ⟨(hcut.pending o rfl).bytes_ne_nil, (hcut.pending o rfl).bytes_high⟩
    · exact hcut.pieces p hp

/-! ### How encodings are cut -/

/-- The piece of a code point. -/
def wholePiece (c : CodePoint) : Piece := .whole c (bytesOf c)

/-- **The encoding of a code point** is one piece, whatever has come before. -/
theorem foldl_next_bytesOf {c : CodePoint} (hc : c.isSurrogate = false) (ps : List Piece) :
    (bytesOf c).foldl Cut.next ⟨ps, none⟩ = ⟨wholePiece c :: ps, none⟩ := by
  have hvalid := c.valid
  rw [isSurrogate_eq_false_iff] at hc
  unfold wholePiece
  -- the number is put together from the bytes in the end, so it has to come out as that of `c`
  have hsame : ∀ n, n = c.val → CodePoint.ofNat n = c := by
    intro n hn
    rw [hn, CodePoint.ofNat_val]
  by_cases h₁ : c.val < 0x80
  · rw [bytesOf_one h₁]
    have hb := toNat_ofNat (n := c.val) (by omega)
    generalize UInt8.ofNat c.val = b at hb
    rw [List.foldl_cons, List.foldl_nil]
    change begin ps b = _
    rcases begin_cases ps b with ⟨-, heq⟩ | ⟨h, -⟩ | ⟨h, -⟩ | ⟨h, -⟩ | ⟨h, -⟩
    · rw [heq, hsame _ hb]
    all_goals omega
  · by_cases h₂ : c.val < 0x800
    · rw [bytesOf_two (by omega) h₂]
      have hb := toNat_ofNat (n := 0xC0 + c.val / 64) (by omega)
      have hb₁ := toNat_ofNat (n := 0x80 + c.val % 64) (by omega)
      generalize UInt8.ofNat (0xC0 + c.val / 64) = b at hb
      generalize UInt8.ofNat (0x80 + c.val % 64) = b₁ at hb₁
      simp only [List.foldl_cons, List.foldl_nil]
      change (begin ps b).next b₁ = _
      rcases begin_cases ps b with ⟨h, -⟩ | ⟨h, -⟩ | ⟨-, heq⟩ | ⟨h, -⟩ | ⟨h, -⟩
      case inr.inr.inl =>
        rw [heq, next_last (by omega) (by omega), hsame _ (by omega)]
        rfl
      all_goals omega
    · by_cases h₃ : c.val < 0x10000
      · rw [bytesOf_three (by omega) h₃]
        have hb := toNat_ofNat (n := 0xE0 + c.val / 0x1000) (by omega)
        have hb₁ := toNat_ofNat (n := 0x80 + c.val / 64 % 64) (by omega)
        have hb₂ := toNat_ofNat (n := 0x80 + c.val % 64) (by omega)
        generalize UInt8.ofNat (0xE0 + c.val / 0x1000) = b at hb
        generalize UInt8.ofNat (0x80 + c.val / 64 % 64) = b₁ at hb₁
        generalize UInt8.ofNat (0x80 + c.val % 64) = b₂ at hb₂
        simp only [List.foldl_cons, List.foldl_nil]
        change ((begin ps b).next b₁).next b₂ = _
        rcases begin_cases ps b with ⟨h, -⟩ | ⟨h, -⟩ | ⟨h, -⟩ | ⟨-, heq⟩ | ⟨h, -⟩
        case inr.inr.inr.inl =>
          rw [heq, next_further (by split <;> omega) (by split <;> omega),
            next_last (by omega) (by omega), hsame _ (by omega)]
          rfl
        all_goals omega
      · rw [bytesOf_four (by omega)]
        have hb := toNat_ofNat (n := 0xF0 + c.val / 0x40000) (by omega)
        have hb₁ := toNat_ofNat (n := 0x80 + c.val / 0x1000 % 64) (by omega)
        have hb₂ := toNat_ofNat (n := 0x80 + c.val / 64 % 64) (by omega)
        have hb₃ := toNat_ofNat (n := 0x80 + c.val % 64) (by omega)
        generalize UInt8.ofNat (0xF0 + c.val / 0x40000) = b at hb
        generalize UInt8.ofNat (0x80 + c.val / 0x1000 % 64) = b₁ at hb₁
        generalize UInt8.ofNat (0x80 + c.val / 64 % 64) = b₂ at hb₂
        generalize UInt8.ofNat (0x80 + c.val % 64) = b₃ at hb₃
        simp only [List.foldl_cons, List.foldl_nil]
        change (((begin ps b).next b₁).next b₂).next b₃ = _
        rcases begin_cases ps b with ⟨h, -⟩ | ⟨h, -⟩ | ⟨h, -⟩ | ⟨h, -⟩ | ⟨-, heq⟩
        case inr.inr.inr.inr =>
          rw [heq, next_further (by split <;> omega) (by split <;> omega),
            next_further (by omega) (by omega), next_last (by omega) (by omega),
            hsame _ (by omega)]
          rfl
        all_goals omega

/-- **The encoding of a text** is cut into the pieces of its code points, and what follows is cut as
if it stood alone. -/
theorem pieces_encoded_append {t : Text} (ht : ∀ c ∈ t, c.isSurrogate = false) (bs : List UInt8) :
    pieces (t.flatMap bytesOf ++ bs) = t.map wholePiece ++ pieces bs := by
  have hfold : ∀ (t : Text) (ps : List Piece), (∀ c ∈ t, c.isSurrogate = false) →
      (t.flatMap bytesOf).foldl Cut.next ⟨ps, none⟩ = ⟨(t.map wholePiece).reverse ++ ps, none⟩ := by
    intro t
    induction t with
    | nil => exact fun _ _ => rfl
    | cons c t ih =>
      intro ps ht
      obtain ⟨hc, ht⟩ := List.forall_mem_cons.mp ht
      rw [List.flatMap_cons, List.foldl_append, foldl_next_bytesOf hc, ih _ ht, List.map_cons,
        List.reverse_cons, List.append_assoc]
      rfl
  -- finished pieces are never looked at again, so they can be taken out of a cut
  have hout : ∀ (bs : List UInt8) (before ps : List Piece) (pending : Option Open),
      bs.foldl Cut.next ⟨ps ++ before, pending⟩
        = ⟨(bs.foldl Cut.next ⟨ps, pending⟩).pieces ++ before,
            (bs.foldl Cut.next ⟨ps, pending⟩).pending⟩ := by
    have hbegin : ∀ (before ps : List Piece) (b : UInt8),
        begin (ps ++ before) b = ⟨(begin ps b).pieces ++ before, (begin ps b).pending⟩ := by
      intro before ps b
      unfold begin
      dsimp only
      generalize b.toNat = n
      grind
    intro bs
    induction bs with
    | nil => exact fun _ _ _ => rfl
    | cons b bs ih =>
      intro before ps pending
      have hnext : Cut.next ⟨ps ++ before, pending⟩ b
          = ⟨(Cut.next ⟨ps, pending⟩ b).pieces ++ before, (Cut.next ⟨ps, pending⟩ b).pending⟩ := by
        cases pending with
        | none => exact hbegin before ps b
        | some o =>
          simp only [Cut.next]
          split
          · split <;> rfl
          · exact hbegin before (_ :: ps) b
      rw [List.foldl_cons, hnext, ih, List.foldl_cons]
  unfold pieces
  rw [List.foldl_append, hfold t [] ht]
  have h := hout bs (t.map wholePiece).reverse [] none
  rw [List.nil_append] at h
  rw [List.append_nil, h]
  generalize bs.foldl Cut.next ⟨[], none⟩ = cut
  obtain ⟨ps, _ | o⟩ := cut
  · simp [Cut.finish]
  · simp [Cut.finish]

/-- **A byte string** is the encoding of a text without surrogates, up to the first broken piece if
there is one. -/
theorem exists_pieces_eq (bs : List UInt8) :
    ∃ t : Text, (∀ c ∈ t, c.isSurrogate = false) ∧
      (pieces bs = t.map wholePiece ∨
        ∃ broken flaw rest, pieces bs = t.map wholePiece ++ .broken broken flaw :: rest) := by
  have hcut : ∀ ps : List Piece, (∀ p ∈ ps, p.Sound) →
      ∃ t : Text, (∀ c ∈ t, c.isSurrogate = false) ∧
        (ps = t.map wholePiece ∨
          ∃ broken flaw rest, ps = t.map wholePiece ++ .broken broken flaw :: rest) := by
    intro ps
    -- on the pieces: the text goes on up to the first broken one
    induction ps with
    | nil => exact fun _ => ⟨[], nofun, .inl rfl⟩
    | cons p ps ih =>
      intro h
      obtain ⟨hp, hps⟩ := List.forall_mem_cons.mp h
      cases p with
      | broken bytes flaw => exact ⟨[], nofun, .inr ⟨bytes, flaw, ps, rfl⟩⟩
      | whole c bytes =>
        obtain ⟨hc, rfl⟩ := hp
        obtain ⟨t, ht, hall | ⟨broken, flaw, rest, hbroken⟩⟩ := ih hps
        · exact ⟨c :: t, List.forall_mem_cons.mpr ⟨hc, ht⟩, .inl (congrArg _ hall)⟩
        · exact ⟨c :: t, List.forall_mem_cons.mpr ⟨hc, ht⟩,
            .inr ⟨broken, flaw, rest, congrArg _ hbroken⟩⟩
  exact hcut (pieces bs) fun _ => sound_of_mem_pieces

end StepCheck.Utf8
