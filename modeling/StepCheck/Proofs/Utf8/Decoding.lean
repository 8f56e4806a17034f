import StepCheck.Proofs.Utf8.Pieces
import StepCheck.Utf8.Decode
import Mathlib.Data.List.Basic

/-!
# Two ways of decoding

A byte string is decoded strictly, and then broken pieces are refused, or it is decoded with its
broken bytes kept as surrogates, and then it never is. Encoding a text takes the kept bytes back, so
nothing is lost on the second way; and the first way succeeds just when nothing had to be kept.

* `encodeKept?_of_decode` — encoding undoes decoding with broken bytes kept;
* `WellFormed`, `LongestWellFormed` — well-formed UTF-8, and how far a byte string is well-formed;
* `decode_cases` — both ways of decoding at once: they agree, or the strict one is refused just
  behind the longest well-formed beginning, where the other one keeps its first surrogate.
-/

namespace StepCheck.Utf8

/-! ### Kept bytes -/

/-- Bytes are kept in surrogates only. -/
theorem keptByte?_of_isSurrogate_eq_false {c : CodePoint} (hc : c.isSurrogate = false) :
    keptByte? c = none := by
  rw [isSurrogate_eq_false_iff] at hc
  exact if_neg (by omega)

section Surrogate

variable {b : UInt8}

/-- The surrogate of a byte is as many code points behind U+DC00 as the byte says. -/
theorem val_surrogateOf (b : UInt8) : (surrogateOf b).val = 0xDC00 + b.toNat := by
  have hb := b.toNat_lt
  exact CodePoint.val_ofNat (by omega)

/-- The code point of a byte is a surrogate. -/
theorem isSurrogate_surrogateOf (b : UInt8) : (surrogateOf b).isSurrogate = true := by
  have hb := b.toNat_lt
  rw [CodePoint.isSurrogate, val_surrogateOf, Bool.and_eq_true, decide_eq_true_iff,
    decide_eq_true_iff]
  omega

/-- The surrogate of a byte beyond ASCII keeps the byte. -/
theorem keptByte?_surrogateOf (hb : 0x80 ≤ b.toNat) : keptByte? (surrogateOf b) = some b := by
  have hlt := b.toNat_lt
  unfold keptByte?
  rw [val_surrogateOf, if_pos (by omega), Nat.add_sub_cancel_left, UInt8.ofNat_toNat]

end Surrogate

/-- The bytes of a code point, those that it keeps if it does. -/
def keptBytes (c : CodePoint) : List UInt8 :=
  match keptByte? c with
  | some b => [b]
  | none => bytesOf c

/-- A piece that is decoded with broken bytes kept has only surrogates that keep one, and its bytes
are found again. -/
theorem Piece.Sound.text_surrogates {p : Piece} (h : p.Sound) :
    (∀ c ∈ p.text .surrogates, c.isSurrogate = true → keptByte? c ≠ none) ∧
      (p.text .surrogates).flatMap keptBytes = p.bytes := by
  cases p with
  | whole c bytes =>
    obtain ⟨hc, rfl⟩ := h
    refine ⟨?_, ?_⟩
    · intro d hd hsurrogate
      rw [List.mem_singleton.mp hd, hc] at hsurrogate
      cases hsurrogate
    · change keptBytes c ++ [] = bytesOf c
      unfold keptBytes
      rw [keptByte?_of_isSurrogate_eq_false hc, List.append_nil]
  | broken bytes flaw =>
    refine ⟨?_, ?_⟩
    · intro d hd _
      obtain ⟨b, hb, rfl⟩ := List.mem_map.mp hd
      rw [keptByte?_surrogateOf (h.2 b hb)]
      exact nofun
    · change (bytes.map surrogateOf).flatMap keptBytes = bytes
      rw [List.flatMap_map]
      -- each byte is kept on its own
      have hkept : ∀ b ∈ bytes, keptBytes (surrogateOf b) = [b] := by
        intro b hb
        unfold keptBytes
        rw [keptByte?_surrogateOf (h.2 b hb)]
      rw [List.flatMap_congr hkept, List.flatMap_singleton']

/-- **Encoding undoes decoding** where broken bytes are kept. -/
theorem encodeKept?_of_decode {bs : List UInt8} {s : Text} (h : decode .surrogates bs = .ok s) :
    encodeKept? s = some bs := by
  rw [decode_surrogates] at h
  cases h
  have hsound : ∀ p ∈ pieces bs, p.Sound := fun _ => sound_of_mem_pieces
  have hkept : ∀ c ∈ (pieces bs).flatMap (Piece.text .surrogates),
      (c.isSurrogate && (keptByte? c).isNone) = false := by
    intro c hc
    obtain ⟨p, hp, hc⟩ := List.mem_flatMap.mp hc
    have hkeeps := (hsound p hp).text_surrogates.1 c hc
    cases hsurrogate : c.isSurrogate with
    | false => rfl
    | true =>
      rw [Bool.true_and, Option.isNone_eq_false_iff, Option.isSome_iff_ne_none]
      exact hkeeps hsurrogate
  -- so no surrogate stands in the way
  have hany : ¬ ((pieces bs).flatMap (Piece.text .surrogates)).any
      (fun c => c.isSurrogate && (keptByte? c).isNone) = true := by
    rw [List.any_eq_true]
    rintro ⟨c, hc, h⟩
    rw [hkept c hc] at h
    cases h
  unfold encodeKept?
  rw [if_neg hany]
  change some (List.flatMap keptBytes _) = _
  rw [List.flatMap_assoc, List.flatMap_congr fun p hp => (hsound p hp).text_surrogates.2,
    pieces_bytes]

/-! ### Well-formed beginnings -/

/-- **Well-formed UTF-8** is the encoding of some text. -/
def WellFormed (bs : List UInt8) : Prop := ∃ t, encode? t = some bs

/-- **A text is encoded** if it has no surrogates, code point by code point. -/
theorem encode?_eq_some_iff {t : Text} {bs : List UInt8} :
    encode? t = some bs ↔ (∀ c ∈ t, c.isSurrogate = false) ∧ t.flatMap bytesOf = bs := by
  unfold encode?
  split
  · next h =>
    obtain ⟨c, hc, hsurrogate⟩ := List.any_eq_true.mp h
    refine iff_of_false nofun ?_
    rintro ⟨hall, -⟩
    rw [hall c hc] at hsurrogate
    cases hsurrogate
  · next h =>
    -- there is none, since the search has found none
    have hall : ∀ c ∈ t, c.isSurrogate = false := by
      intro c hc
      cases hsurrogate : c.isSurrogate with
      | false => rfl
      | true => exact absurd (List.any_eq_true.mpr ⟨c, hc, hsurrogate⟩) h
    rw [Option.some.injEq]
    exact ⟨fun hbs => ⟨hall, hbs⟩, fun hbs => hbs.2⟩

/-- **How far a byte string is well-formed**: its longest beginning that is. -/
structure LongestWellFormed (bs good : List UInt8) : Prop where
  begins : good <+: bs
  wellFormed : WellFormed good
  longest : ∀ other, other <+: bs → WellFormed other → other.length ≤ good.length

/-- No well-formed beginning reaches beyond the first broken piece. -/
theorem longestWellFormed_of_pieces_eq {bs broken : List UInt8} {t : Text} {flaw : Flaw}
    {rest : List Piece} (ht : ∀ c ∈ t, c.isSurrogate = false)
    (h : pieces bs = t.map wholePiece ++ .broken broken flaw :: rest) :
    LongestWellFormed bs (t.flatMap bytesOf) := by
  have hbytes : ∀ t : Text, (t.map wholePiece).flatMap Piece.bytes = t.flatMap bytesOf :=
    fun t => List.flatMap_map ..
  refine ⟨?_, ⟨t, encode?_eq_some_iff.mpr ⟨ht, rfl⟩⟩, ?_⟩
  · have hbs := pieces_bytes bs
    rw [h, List.flatMap_append, hbytes] at hbs
    exact ⟨_, hbs⟩
  · rintro other ⟨more, rfl⟩ ⟨t', hother⟩
    obtain ⟨ht', rfl⟩ := encode?_eq_some_iff.mp hother
    -- the byte string is cut after the other beginning as well, and both cuts are the same
    rw [pieces_encoded_append ht'] at h
    rcases List.append_eq_append_iff.mp h with ⟨ps, hps, -⟩ | ⟨ps, hps, hbroken⟩
    · rw [← hbytes t, hps, List.flatMap_append, List.length_append, hbytes]
      exact Nat.le_add_right _ _
    · cases ps with
      | nil =>
        rw [List.append_nil] at hps
        refine Nat.le_of_eq ?_
        rw [← hbytes, hps, hbytes]
      | cons p ps =>
        -- the broken piece would be that of a code point
        obtain rfl : Piece.broken broken flaw = p := (List.cons.inj hbroken).1
        have hmem : Piece.broken broken flaw ∈ t'.map wholePiece := by
          rw [hps]
          exact List.mem_append_right _ List.mem_cons_self
        obtain ⟨c, -, hc⟩ := List.mem_map.mp hmem
        cases hc

/-! ### Both ways at once -/

/-- Whole pieces are passed over, and their bytes are counted. -/
theorem firstBroken?_wholePieces (position : Nat) (t : Text) (ps : List Piece) :
    firstBroken? position (t.map wholePiece ++ ps)
      = firstBroken? (position + (t.flatMap bytesOf).length) ps := by
  induction t generalizing position with
  | nil => rfl
  | cons c t ih =>
    rw [List.flatMap_cons, List.length_append, ← Nat.add_assoc, ← ih]
    rfl

/-- Pieces that are whole are read as the text that they are the bytes of. -/
theorem text_wholePieces (handling : Handling) (t : Text) :
    (t.map wholePiece).flatMap (Piece.text handling) = t := by
  rw [List.flatMap_map]
  exact List.flatMap_singleton' t

/-- Behind a text without surrogates the first surrogate is that of what follows. -/
theorem firstSurrogate?_append {t : Text} (ht : ∀ c ∈ t, c.isSurrogate = false) (rest : Text) :
    (t ++ rest).firstSurrogate? = rest.firstSurrogate?.map (· + t.length) := by
  unfold Text.firstSurrogate?
  rw [List.findIdx?_append, List.findIdx?_eq_none_iff.mpr ht, Option.none_or]

/-- **Both ways of decoding at once.** Without broken pieces they give the same text, which has no
surrogates. Otherwise the strict way is refused at the end of the longest well-formed beginning, and
what the other way gives is the text of that beginning with a surrogate behind it. -/
theorem decode_cases (bs : List UInt8) :
    ∃ good : Text, (∀ c ∈ good, c.isSurrogate = false) ∧
      LongestWellFormed bs (good.flatMap bytesOf) ∧
      (decode .surrogates bs = .ok good ∧ decode .strict bs = .ok good ∨
        ∃ broken flaw kept, broken ≠ [] ∧ good.flatMap bytesOf ++ broken <+: bs ∧
          decode .surrogates bs = .ok (good ++ kept) ∧ kept.firstSurrogate? = some 0 ∧
          decode .strict bs
            = .error (.malformed (good.flatMap bytesOf).length broken flaw)) := by
  obtain ⟨good, hgood, h | ⟨broken, flaw, rest, h⟩⟩ := exists_pieces_eq bs
  · have hbs : good.flatMap bytesOf = bs := by
      have hbs := pieces_bytes bs
      rwa [h, List.flatMap_map] at hbs
    -- nothing is broken
    have hnone : firstBroken? 0 (pieces bs) = none := by
      have hfirst := firstBroken?_wholePieces 0 good []
      rwa [List.append_nil, ← h] at hfirst
    refine ⟨good, hgood, ?_, .inl ⟨?_, ?_⟩⟩
    · refine ⟨hbs ▸ List.prefix_rfl, ⟨good, encode?_eq_some_iff.mpr ⟨hgood, rfl⟩⟩, ?_⟩
      intro other hother _
      rw [hbs]
      exact hother.length_le
    · rw [decode_surrogates, h, text_wholePieces]
    · unfold decode
      rw [hnone]
      dsimp only
      rw [h, text_wholePieces]
  · have hbs := pieces_bytes bs
    rw [h, List.flatMap_append, List.flatMap_map, List.flatMap_cons] at hbs
    have hbroken : broken ≠ [] := by
      have hmem : Piece.broken broken flaw ∈ pieces bs := by
        rw [h]
        exact List.mem_append_right _ List.mem_cons_self
      exact (sound_of_mem_pieces hmem).1
    refine ⟨good, hgood, longestWellFormed_of_pieces_eq hgood h, .inr ⟨broken, flaw,
      broken.map surrogateOf ++ rest.flatMap (Piece.text .surrogates), hbroken, ?_, ?_, ?_, ?_⟩⟩
    · refine ⟨rest.flatMap Piece.bytes, ?_⟩
      rw [List.append_assoc]
      exact hbs
    · rw [decode_surrogates, h, List.flatMap_append, text_wholePieces, List.flatMap_cons]
      rfl
    · -- the first byte that is kept is the first surrogate
      obtain ⟨b, more, rfl⟩ := List.exists_cons_of_ne_nil hbroken
      unfold Text.firstSurrogate?
      rw [List.map_cons, List.cons_append, List.findIdx?_cons, if_pos (isSurrogate_surrogateOf b)]
    · unfold decode
      rw [h, firstBroken?_wholePieces, Nat.zero_add]
      rfl

end StepCheck.Utf8
