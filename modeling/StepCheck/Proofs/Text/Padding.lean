import StepCheck.Proofs.Text.Letters
import StepCheck.Proofs.Text.Matches
import StepCheck.Proofs.Text.Places

/-!
# White space around a text

White space that is put around a text moves its places and adds none of its own, as far as needles
are concerned that neither begin nor end with white space. Such a needle cannot reach out of the
text, so it stands at the moved places and nowhere else, and whatever is found by it is the same.
Capitals do not change this: white space is its own capital and nothing else becomes white space.

* `Text.Solid` — needles without white space at their ends;
* `Text.Solid.prefix_padded_iff`, `Text.Solid.firstFrom_padded_iff` — their places;
* `Text.Solid.occursIn_padded`, `Text.Solid.countIn_padded` — how often they occur;
* `Text.strip_padded`, `Text.exists_padding` — the text itself comes back when it is stripped, and
  is all of a text but white space;
* `CodePoint.upper_of_isBlank`, `Text.Solid.upper` — capitals.
-/

namespace StepCheck

/-! ### White space and capitals -/

namespace CodePoint

variable {b c : CodePoint}

/-- A number in some ranges is in one of them. -/
theorem exists_of_inRanges {n : Nat} {ranges : List (Nat × Nat)} (h : inRanges n ranges = true) :
    ∃ r ∈ ranges, r.1 ≤ n ∧ n ≤ r.2 := by
  induction ranges with
  | nil => cases h
  | cons r ranges ih =>
    unfold inRanges at h
    rw [Bool.or_eq_true, Bool.and_eq_true, decide_eq_true_iff, decide_eq_true_iff] at h
    rcases h with h | h
    · exact ⟨r, List.mem_cons_self, h⟩
    · obtain ⟨r', hr', h⟩ := ih h
      exact ⟨r', List.mem_cons_of_mem r hr', h⟩

/-- The number of white space lies in one of its ranges, also where the code point was made of the
number. -/
theorem exists_of_isBlank_ofNat {n : Nat} (h : (ofNat n).isBlank = true) :
    ∃ r ∈ blankRanges, r.1 ≤ n ∧ n ≤ r.2 := by
  unfold ofNat at h
  split at h
  · exact exists_of_inRanges h
  · exact absurd h (by decide)

/-- **White space** is its own capital. -/
theorem upper_of_isBlank (hc : c.isBlank = true) : c.upper = [c] := by
  have hruns : ∀ run ∈ upperRuns, ∀ r ∈ blankRanges, run.last < r.1 ∨ r.2 < run.first := by
    decide +kernel
  have hexpansions : ∀ p ∈ upperExpansions, ∀ r ∈ blankRanges, p.1 < r.1 ∨ r.2 < p.1 := by
    decide +kernel
  have hsmall : ∀ r ∈ blankRanges, r.2 < 0x61 ∨ 0x7A < r.1 := by decide
  obtain ⟨r, hr, hlow, hhigh⟩ := exists_of_inRanges hc
  have hnot : c.isSmall = false := by
    have h := hsmall r hr
    rw [← Bool.not_eq_true, isSmall_iff]
    omega
  unfold upper
  rw [hnot, if_neg Bool.false_ne_true]
  split
  · rfl
  · unfold upperBeyondAscii
    -- neither table has an entry for white space
    split
    · next capitals hcapitals =>
      have h := hexpansions _ (mem_of_lookup_eq_some hcapitals) r hr
      dsimp only at h
      omega
    · split
      · next shift hshift =>
        obtain ⟨run, hmem, hfirst, hlast, -⟩ := exists_of_shiftOf? hshift
        have h := hruns run hmem r hr
        omega
      · rfl

/-- **Nothing else becomes white space** in capitals. -/
theorem isBlank_eq_false_of_mem_upper (hc : c.isBlank = false) (h : b ∈ c.upper) :
    b.isBlank = false := by
  have hruns : ∀ run ∈ upperRuns, ∀ r ∈ blankRanges,
      run.last + run.shift < r.1 ∨ (r.2 : Int) < run.first + run.shift := by
    decide +kernel
  have hexpansions : ∀ p ∈ upperExpansions, ∀ n ∈ p.2, ∀ r ∈ blankRanges, n < r.1 ∨ r.2 < n := by
    decide +kernel
  have hletters : ∀ r ∈ blankRanges, r.2 < 0x41 ∨ 0x5A < r.1 := by decide
  rw [← Bool.not_eq_true]
  intro hb
  unfold upper at h
  split at h
  · next hsmall =>
    -- the capital of a small letter is a letter
    rw [isSmall_iff] at hsmall
    rw [List.mem_singleton.mp h] at hb
    obtain ⟨r, hr, hlow, hhigh⟩ := exists_of_isBlank_ofNat hb
    have hletter := hletters r hr
    omega
  · split at h
    · rw [List.mem_singleton.mp h, hc] at hb
      cases hb
    · unfold upperBeyondAscii at h
      split at h
      · next capitals hcapitals =>
        obtain ⟨n, hn, rfl⟩ := List.mem_map.mp h
        obtain ⟨r, hr, hlow, hhigh⟩ := exists_of_isBlank_ofNat hb
        have hentry := hexpansions _ (mem_of_lookup_eq_some hcapitals) n hn r hr
        omega
      · split at h
        · next shift hshift =>
          -- the whole run is moved past every range of white space
          rw [List.mem_singleton.mp h] at hb
          obtain ⟨run, hmem, hfirst, hlast, rfl⟩ := exists_of_shiftOf? hshift
          obtain ⟨r, hr, hlow, hhigh⟩ := exists_of_isBlank_ofNat hb
          have hpositive : ∀ r ∈ blankRanges, 0 < r.1 := by decide
          have hentry := hruns run hmem r hr
          have hr := hpositive r hr
          omega
        · rw [List.mem_singleton.mp h, hc] at hb
          cases hb

/-- Every code point has a capital. -/
theorem upper_ne_nil (c : CodePoint) : c.upper ≠ [] := by
  -- no letter has an empty text for its capital
  have hexpansions : ∀ p ∈ upperExpansions, p.2 ≠ [] := by decide +kernel
  unfold upper
  split
  · exact List.cons_ne_nil _ _
  · split
    · exact List.cons_ne_nil _ _
    · unfold upperBeyondAscii
      split
      · next capitals hcapitals =>
        exact mt List.map_eq_nil_iff.mp (hexpansions _ (mem_of_lookup_eq_some hcapitals))
      · split
        · exact List.cons_ne_nil _ _
        · exact List.cons_ne_nil _ _

end CodePoint

namespace Text

variable {needle t before after : Text} {index start : Nat}

/-- **White space** and nothing else. -/
def IsBlank (t : Text) : Prop := ∀ c ∈ t, c.isBlank = true

instance (t : Text) : Decidable t.IsBlank := inferInstanceAs (Decidable (∀ c ∈ t, _))

/-- **A solid text** is not empty and has no white space at its ends. -/
structure Solid (t : Text) : Prop where
  head : t.head?.map CodePoint.isBlank = some false
  last : t.getLast?.map CodePoint.isBlank = some false

/-- What is solid begins with something else than white space. -/
theorem Solid.exists_cons (h : needle.Solid) :
    ∃ c rest, needle = c :: rest ∧ c.isBlank = false := by
  cases needle with
  | nil => exact absurd h.head nofun
  | cons c rest => exact ⟨c, rest, rfl, Option.some.inj h.head⟩

/-- What is solid ends with something else than white space. -/
theorem Solid.exists_concat (h : needle.Solid) :
    ∃ rest c, needle = rest ++ [c] ∧ c.isBlank = false := by
  obtain ⟨c, hlast, hc⟩ := Option.map_eq_some_iff.mp h.last
  obtain ⟨rest, rfl⟩ := List.getLast?_eq_some_iff.mp hlast
  exact ⟨rest, c, rfl, hc⟩

theorem solid_of_cons_of_concat {c d : CodePoint} {rest rest' : Text} (hc : c.isBlank = false)
    (hd : d.isBlank = false) (hcons : t = c :: rest) (hconcat : t = rest' ++ [d]) : t.Solid where
  head := by
    rw [hcons, List.head?_cons, Option.map_some, hc]
  last := by
    rw [hconcat, List.getLast?_concat, Option.map_some, hd]

/-! ### Places -/

/-- A solid needle does not begin in white space. -/
theorem Solid.not_prefix (h : needle.Solid) {c : CodePoint} (hc : c.isBlank = true) (t : Text) :
    ¬ needle <+: c :: t := by
  obtain ⟨d, rest, rfl, hd⟩ := h.exists_cons
  intro hprefix
  rw [(List.cons_prefix_cons.mp hprefix).1, hc] at hd
  cases hd

/-- A solid needle does not end in white space. -/
theorem Solid.prefix_append_iff (h : needle.Solid) (hafter : after.IsBlank) :
    needle <+: t ++ after ↔ needle <+: t := by
  constructor
  · intro hprefix
    rcases List.prefix_or_prefix_of_prefix hprefix (List.prefix_append t after)
      with hle | ⟨rest, rfl⟩
    · exact hle
    · -- what reaches out of the text is white space, and there is none at the end of the needle
      rcases List.eq_nil_or_concat' rest with rfl | ⟨rest, c, rfl⟩
      · simp only [List.append_nil, List.prefix_rfl]
      · have hmem : c ∈ after :=
          ((List.prefix_append_right_inj t).mp hprefix).subset List.mem_concat_self
        have hlast := h.last
        rw [← List.append_assoc, List.getLast?_concat, Option.map_some, hafter c hmem] at hlast
        cases hlast
  · intro hprefix
    exact hprefix.trans (List.prefix_append t after)

/-- **A solid needle** stands at the moved places and nowhere else. -/
theorem Solid.prefix_padded_iff (h : needle.Solid) (hbefore : before.IsBlank)
    (hafter : after.IsBlank) :
    needle <+: (before ++ t ++ after).drop index
      ↔ ∃ k, index = before.length + k ∧ needle <+: t.drop k := by
  -- from a place of the text in the middle on, there is the rest of it and the white space behind
  have hdrop : ∀ k, (before ++ t ++ after).drop (before.length + k)
      = t.drop k ++ after.drop (k - t.length) := by
    intro k
    rw [List.append_assoc, List.drop_length_add_append, List.drop_append]
  have hblank : ∀ k, IsBlank (after.drop k) := by
    intro k c hc
    exact hafter c (List.mem_of_mem_drop hc)
  constructor
  · intro hprefix
    rcases Nat.lt_or_ge index before.length with hlt | hge
    · -- the place would be one of the white space in front
      rw [List.append_assoc, List.drop_append_of_le_length (Nat.le_of_lt hlt),
        List.drop_eq_getElem_cons hlt, List.cons_append] at hprefix
      exact absurd hprefix (h.not_prefix (hbefore _ (List.getElem_mem hlt)) _)
    · obtain ⟨k, rfl⟩ := Nat.exists_eq_add_of_le hge
      rw [hdrop, h.prefix_append_iff (hblank _)] at hprefix
      exact ⟨k, rfl, hprefix⟩
  · rintro ⟨k, rfl, hprefix⟩
    rw [hdrop, h.prefix_append_iff (hblank _)]
    exact hprefix

/-- **The first place** of a solid needle is moved with the others. -/
theorem Solid.firstFrom_padded_iff (h : needle.Solid) (hbefore : before.IsBlank)
    (hafter : after.IsBlank) :
    FirstFrom needle (before ++ t ++ after) start index
      ↔ ∃ k, index = before.length + k ∧ FirstFrom needle t (start - before.length) k := by
  constructor
  · rintro ⟨hstart, hoccurs, hleast⟩
    obtain ⟨k, rfl, hk⟩ := (h.prefix_padded_iff hbefore hafter).mp hoccurs
    refine ⟨k, rfl, ⟨by omega, hk, ?_⟩⟩
    intro j hj hprefix
    -- an earlier place in the middle is an earlier place of the whole
    have hle := hleast (before.length + j) (by omega)
      ((h.prefix_padded_iff hbefore hafter).mpr ⟨j, rfl, hprefix⟩)
    omega
  · rintro ⟨k, rfl, ⟨hstart, hoccurs, hleast⟩⟩
    refine ⟨by omega, (h.prefix_padded_iff hbefore hafter).mpr ⟨k, rfl, hoccurs⟩, ?_⟩
    intro i hi hprefix
    obtain ⟨j, rfl, hj⟩ := (h.prefix_padded_iff hbefore hafter).mp hprefix
    have hle := hleast j (by omega) hj
    omega

/-- **A solid needle occurs** in the padded text just when it occurs in the text. -/
theorem Solid.occursIn_padded (h : needle.Solid) (hbefore : before.IsBlank)
    (hafter : after.IsBlank) : needle.occursIn (before ++ t ++ after) = needle.occursIn t := by
  rw [Bool.eq_iff_iff, occursIn_iff, occursIn_iff, infix_iff_exists_drop, infix_iff_exists_drop]
  simp only [h.prefix_padded_iff hbefore hafter]
  constructor
  · rintro ⟨-, k, -, hk⟩
    exact ⟨k, hk⟩
  · rintro ⟨k, hk⟩
    exact ⟨_, k, rfl, hk⟩

/-! ### Counting -/

/-- No match of a solid needle begins in white space, but one may still cover some of it. -/
theorem Solid.occurrencesFrom_blank (h : needle.Solid) (hbefore : before.IsBlank)
    (index k : Nat) (t : Text) :
    occurrencesFrom (needleMatcher needle) index k (before ++ t)
      = occurrencesFrom (needleMatcher needle) (index + before.length) (k - before.length) t := by
  induction before generalizing index k with
  | nil => rfl
  | cons c before ih =>
    obtain ⟨hc, hbefore⟩ := List.forall_mem_cons.mp hbefore
    -- no needle that is solid begins with white space
    have hnone : needleMatcher needle (c :: (before ++ t)) = none := by
      unfold needleMatcher
      rw [if_neg]
      rw [isPrefixOf_iff]
      exact h.not_prefix hc _
    have hlength : index + 1 + before.length = index + (c :: before).length := by
      rw [List.length_cons]
      omega
    cases k with
    | zero =>
      rw [List.cons_append, occurrencesFrom_of_none hnone, ih hbefore, hlength, Nat.zero_sub,
        Nat.zero_sub]
    | succ k =>
      rw [List.cons_append, occurrencesFrom, ih hbefore, hlength, List.length_cons,
        Nat.add_sub_add_right]

/-- White space behind the text has no match and takes none away. -/
theorem Solid.occurrencesFrom_append_blank (h : needle.Solid) (hafter : after.IsBlank)
    (index k : Nat) (t : Text) :
    occurrencesFrom (needleMatcher needle) index k (t ++ after)
      = occurrencesFrom (needleMatcher needle) index k t := by
  induction t generalizing index k with
  | nil =>
    have hblank := h.occurrencesFrom_blank hafter index k []
    rw [List.append_nil, occurrencesFrom_nil] at hblank
    rw [List.nil_append, occurrencesFrom_nil, hblank]
  | cons c t ih =>
    -- white space behind the text makes no match and breaks none
    have hmatch : needleMatcher needle (c :: t ++ after) = needleMatcher needle (c :: t) := by
      unfold needleMatcher
      simp only [isPrefixOf_iff, h.prefix_append_iff hafter]
    cases k with
    | succ k => exact ih (index + 1) k
    | zero =>
      rw [List.cons_append] at hmatch ⊢
      unfold occurrencesFrom
      rw [hmatch]
      cases needleMatcher needle (c :: t) with
      | none => exact ih (index + 1) 0
      | some found => exact congrArg _ (ih (index + 1) _)

/-- **A solid needle is counted** as often in the padded text as in the text. -/
theorem Solid.countIn_padded (h : needle.Solid) (hbefore : before.IsBlank)
    (hafter : after.IsBlank) : needle.countIn (before ++ t ++ after) = needle.countIn t := by
  obtain ⟨c, rest, rfl, -⟩ := h.exists_cons
  have hempty : (c :: rest : Text).isEmpty = false := rfl
  unfold countIn occurrences
  rw [hempty, if_neg Bool.false_ne_true, if_neg Bool.false_ne_true, List.append_assoc,
    h.occurrencesFrom_blank hbefore, occurrencesFrom_eq_map, List.length_map, Nat.zero_sub,
    h.occurrencesFrom_append_blank hafter]

/-- A character that is no white space is counted as often. -/
theorem count_padded {c : CodePoint} (hc : c.isBlank = false) (hbefore : before.IsBlank)
    (hafter : after.IsBlank) : (before ++ t ++ after).count c = t.count c := by
  have hblank : ∀ {s : Text}, s.IsBlank → s.count c = 0 := by
    intro s hs
    rw [List.count_eq_zero]
    intro hmem
    rw [hs c hmem] at hc
    cases hc
  rw [List.count_append, List.count_append, hblank hbefore, hblank hafter, Nat.zero_add,
    Nat.add_zero]

/-! ### Stripping -/

/-- White space at the end is taken away. -/
theorem stripRight_append (t : Text) (hafter : after.IsBlank) :
    stripRight (t ++ after) = stripRight t := by
  have hreverse : ∀ c ∈ after.reverse, c.isBlank = true := by
    intro c hc
    exact hafter c (List.mem_reverse.mp hc)
  unfold stripRight
  rw [List.reverse_append, List.dropWhile_append_of_pos hreverse]

/-- **The padding is stripped** with the white space of the text itself. -/
theorem strip_padded (hbefore : before.IsBlank) (hafter : after.IsBlank) :
    (before ++ t ++ after).strip = t.strip := by
  have hleft : (before ++ t ++ after).stripLeft = (t ++ after).stripLeft := by
    unfold stripLeft
    rw [List.append_assoc, List.dropWhile_append_of_pos hbefore]
  unfold strip
  rw [hleft]
  unfold stripLeft
  rw [List.dropWhile_append]
  split
  · next hempty =>
    -- the text is white space itself, and nothing is left of either
    rw [List.isEmpty_iff.mp hempty, List.dropWhile_eq_nil_iff.mpr hafter]
  · exact stripRight_append _ hafter

/-- **A text is what is left of it** once it is stripped, with white space on either side. -/
theorem exists_padding (t : Text) :
    ∃ before after, IsBlank before ∧ IsBlank after ∧ t = before ++ t.strip ++ after := by
  have hright : t.strip ++ (t.stripLeft.reverse.takeWhile CodePoint.isBlank).reverse
      = t.stripLeft := by
    unfold strip stripRight
    rw [← List.reverse_append, List.takeWhile_append_dropWhile, List.reverse_reverse]
  refine ⟨t.blanks, (t.stripLeft.reverse.takeWhile CodePoint.isBlank).reverse, ?_, ?_, ?_⟩
  · exact fun c hc => List.mem_takeWhile_imp hc
  · exact fun c hc => List.mem_takeWhile_imp (List.mem_reverse.mp hc)
  · rw [List.append_assoc, hright, blanks_append_stripLeft]

/-- What stands in front of white space at the end stays. -/
theorem stripRight_cons {c : CodePoint} (hc : c.isBlank = false) (t : Text) :
    stripRight (c :: t) = c :: stripRight t := by
  have hsingle : [c].dropWhile CodePoint.isBlank = [c] :=
    List.dropWhile_cons_of_neg (by rw [hc]; exact Bool.false_ne_true)
  unfold stripRight
  rw [List.reverse_cons, List.dropWhile_append, hsingle]
  split
  · next hempty =>
    rw [List.isEmpty_iff.mp hempty]
    rfl
  · rw [List.reverse_append]
    rfl

/-- **What is left of a text** without the white space at its ends is solid, if anything is left. -/
theorem solid_strip (h : t.strip ≠ []) : t.strip.Solid := by
  -- what is left when white space is dropped begins with something else; once from either side
  have hnot : ∀ {s : Text} {c : CodePoint}, (s.dropWhile CodePoint.isBlank).head? = some c →
      c.isBlank = false := by
    intro s c hc
    have hhead := List.head?_dropWhile_not CodePoint.isBlank s
    rw [hc] at hhead
    exact hhead
  unfold strip at h ⊢
  constructor
  · cases hleft : t.stripLeft with
    | nil =>
      rw [hleft] at h
      exact absurd rfl h
    | cons c rest =>
      have hc : c.isBlank = false := hnot (s := t) (by
        rw [← stripLeft, hleft]
        rfl)
      rw [stripRight_cons hc, List.head?_cons, Option.map_some, hc]
  · unfold stripRight at h ⊢
    rw [List.getLast?_reverse]
    cases hhead : (t.stripLeft.reverse.dropWhile CodePoint.isBlank).head? with
    | none =>
      rw [List.head?_eq_none_iff.mp hhead] at h
      exact absurd rfl h
    | some c => rw [Option.map_some, hnot hhead]

/-! ### Capitals -/

/-- White space is its own text in capitals. -/
theorem IsBlank.upper (h : t.IsBlank) : t.upper = t := by
  induction t with
  | nil => rfl
  | cons c t ih =>
    obtain ⟨hc, ht⟩ := List.forall_mem_cons.mp h
    rw [upper_cons, CodePoint.upper_of_isBlank hc, ih ht]
    rfl

/-- **A solid text** stays solid in capitals. -/
theorem Solid.upper (h : t.Solid) : t.upper.Solid := by
  obtain ⟨c, rest, hcons, hc⟩ := h.exists_cons
  obtain ⟨rest', d, hconcat, hd⟩ := h.exists_concat
  -- the ends in capitals come from the capitals of the ends
  obtain ⟨c', more, hc'⟩ := List.exists_cons_of_ne_nil c.upper_ne_nil
  obtain ⟨more', d', hd'⟩ := (List.eq_nil_or_concat' d.upper).resolve_left d.upper_ne_nil
  have hupper : t.upper = c' :: (more ++ Text.upper rest) := by
    rw [hcons, upper_cons, hc', List.cons_append]
  have hupper' : t.upper = Text.upper rest' ++ more' ++ [d'] := by
    rw [hconcat, upper_append, upper_cons, upper_nil, List.append_nil, hd', List.append_assoc]
  refine solid_of_cons_of_concat ?_ ?_ hupper hupper'
  · exact CodePoint.isBlank_eq_false_of_mem_upper hc (hc' ▸ List.mem_cons_self)
  · exact CodePoint.isBlank_eq_false_of_mem_upper hd (hd' ▸ List.mem_concat_self)

end Text

end StepCheck
