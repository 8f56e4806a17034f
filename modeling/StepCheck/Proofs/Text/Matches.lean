import StepCheck.Proofs.Text.Returns

/-!
# Matches in a text with returns

A matcher is run along the text from left to right and goes on behind each match. If it answers the
same at corresponding places, with lengths that correspond too, it finds the same along the whole
text with returns, provided that it does not find something new between a return and its line feed.

* `Text.occurrencesFrom_append`, `Text.occurrencesFrom_of_some` — the steps of the run;
* `Text.Matcher.RespectsReturns` — what a matcher has to keep at one place;
* `Text.occurrences_withReturns` — what it then keeps along the text;
* `Text.firstOccurrence?_eq_head?` — the first match is the first of all.
-/

namespace StepCheck.Text

variable {α : Type} {m : Matcher α} {f : α → α} {t : Text}

/-! ### Steps of the run -/

/-- What an earlier match covers is passed over. -/
theorem occurrencesFrom_append (m : Matcher α) (index : Nat) (s t : Text) (k : Nat) :
    occurrencesFrom m index (s.length + k) (s ++ t)
      = occurrencesFrom m (index + s.length) k t := by
  induction s generalizing index with
  | nil => rw [List.length_nil, Nat.zero_add, List.nil_append, Nat.add_zero]
  | cons c s ih =>
    rw [List.length_cons, Nat.add_right_comm, List.cons_append, occurrencesFrom, ih,
      Nat.add_right_comm, Nat.add_assoc]

/-- A match that is not empty covers what it has recognised. -/
theorem occurrencesFrom_of_some {x : α} {length : Nat} (h : m t = some (x, length))
    (ht : t ≠ []) (hlength : 0 < length) (index : Nat) :
    occurrencesFrom m index 0 t = (index, x) :: occurrencesFrom m index length t := by
  obtain ⟨c, rest, rfl⟩ := List.exists_cons_of_ne_nil ht
  obtain ⟨length, rfl⟩ := Nat.exists_eq_add_one_of_ne_zero (Nat.ne_of_gt hlength)
  have hcovered : occurrencesFrom m index (length + 1) (c :: rest)
      = occurrencesFrom m (index + 1) length rest := rfl
  rw [hcovered, occurrencesFrom, h]
  rfl

/-- Where nothing is matched the search goes on behind the first character. -/
theorem occurrencesFrom_of_none {c : CodePoint} (h : m (c :: t) = none) (index : Nat) :
    occurrencesFrom m index 0 (c :: t) = occurrencesFrom m (index + 1) 0 t := by
  rw [occurrencesFrom, h]

/-- The indices are counted on from that of the first character. -/
theorem occurrencesFrom_eq_map (m : Matcher α) (index k : Nat) (t : Text) :
    occurrencesFrom m index k t
      = (occurrencesFrom m 0 k t).map fun p => (index + p.1, p.2) := by
  induction t generalizing index k with
  | nil => rw [occurrencesFrom_nil, occurrencesFrom_nil, List.map_nil]
  | cons c t ih =>
    -- places behind the first character are one farther, on both sides
    have hshift : ∀ k, occurrencesFrom m (index + 1) k t
        = (occurrencesFrom m (0 + 1) k t).map fun p => (index + p.1, p.2) := by
      intro k
      rw [ih (index + 1), ih (0 + 1), List.map_map]
      refine List.map_congr_left fun p _ => ?_
      dsimp only [Function.comp]
      rw [Nat.zero_add, ← Nat.add_assoc]
    cases k with
    | succ k => exact hshift k
    | zero =>
      rw [occurrencesFrom, occurrencesFrom]
      cases m (c :: t) with
      | none => exact hshift 0
      | some found =>
        dsimp only
        rw [List.map_cons, ← hshift]
        rfl

/-- **The first match** is the first of all. -/
theorem firstOccurrence?_eq_head? (t : Text) (m : Matcher α) :
    t.firstOccurrence? m = (t.occurrences m).head? := by
  have hfrom : ∀ index, firstOccurrenceFrom? m index t = (occurrencesFrom m index 0 t).head? := by
    induction t with
    | nil => exact fun _ => rfl
    | cons c t ih =>
      intro index
      rw [firstOccurrenceFrom?, occurrencesFrom]
      cases m (c :: t) with
      | none => exact ih (index + 1)
      | some found => rfl
  exact hfrom 0

/-! ### The run over a text with returns -/

/-- **A matcher that respects returns.** -/
structure Matcher.RespectsReturns (m : Matcher α) (f : α → α) : Prop where
  /-- At the front of the text with returns it recognises what it recognises at the front of the
  text, up to `f`, and as far as the corresponding place. -/
  front : ∀ t, m (withReturns t) = (m t).map fun p => (f p.1, place t p.2)
  /-- A match that begins with a line feed could begin with a return before it. -/
  lineFeed : ∀ t, m (CodePoint.carriageReturn :: CodePoint.lineFeed :: t) = none →
    m (CodePoint.lineFeed :: t) = none
  /-- No match is empty. -/
  pos : ∀ t x length, m t = some (x, length) → 0 < length

/-- Where nothing is recognised in a text, nothing is up to the place of its second character. -/
theorem Matcher.RespectsReturns.occurrencesFrom_of_none (hm : m.RespectsReturns f) {c : CodePoint}
    (h : m (c :: t) = none) (index : Nat) :
    occurrencesFrom m index 0 (withReturns (c :: t))
      = occurrencesFrom m (index + (returned c).length) 0 (withReturns t) := by
  have hfront := hm.front (c :: t)
  rw [h, Option.map_none] at hfront
  by_cases hc : c = CodePoint.lineFeed
  · -- neither at the return nor at the line feed
    subst hc
    rw [withReturns_cons_lineFeed] at hfront ⊢
    rw [Text.occurrencesFrom_of_none hfront, Text.occurrencesFrom_of_none (hm.lineFeed _ hfront)]
    rfl
  · rw [withReturns_cons hc] at hfront ⊢
    rw [Text.occurrencesFrom_of_none hfront, returned, if_neg hc]
    rfl

/-- What is recognised is recognised in the text with returns, and covers the text up to the
corresponding place. -/
theorem Matcher.RespectsReturns.occurrencesFrom_of_some (hm : m.RespectsReturns f) {x : α}
    {length : Nat} (h : m t = some (x, length)) (ht : t ≠ []) (index : Nat) :
    occurrencesFrom m index 0 (withReturns t)
      = (index, f x) :: occurrencesFrom m index (place t length) (withReturns t) := by
  have hfront := hm.front t
  rw [h, Option.map_some] at hfront
  have hne : withReturns t ≠ [] := by
    rw [Ne, withReturns_eq_nil_iff]
    exact ht
  exact Text.occurrencesFrom_of_some hfront hne (hm.pos _ _ _ hfront) index

/-- One character further on, the places are counted on from behind it. -/
private theorem map_place_succ (f : α → α) (c : CodePoint) (t : Text) (index : Nat)
    (os : List (Nat × α)) :
    (os.map fun p => (0 + 1 + p.1, p.2)).map (fun p => (index + place (c :: t) p.1, f p.2))
      = os.map fun p => (index + (returned c).length + place t p.1, f p.2) := by
  rw [List.map_map]
  refine List.map_congr_left fun p _ => ?_
  dsimp only [Function.comp]
  rw [Nat.zero_add, Nat.add_comm 1, place_cons_succ, Nat.add_assoc]

/-- **A run from some place on**, where an earlier match still covers `k` characters of the text. -/
theorem occurrencesFrom_withReturns (hm : m.RespectsReturns f) (index k : Nat) (t : Text) :
    occurrencesFrom m index (place t k) (withReturns t)
      = (occurrencesFrom m 0 k t).map fun p => (index + place t p.1, f p.2) := by
  induction t generalizing index k with
  | nil => rw [occurrencesFrom_nil, withReturns_nil, occurrencesFrom_nil, List.map_nil]
  | cons c t ih =>
    have hnext : ∀ k, occurrencesFrom m (index + (returned c).length) (place t k) (withReturns t)
        = (occurrencesFrom m (0 + 1) k t).map fun p => (index + place (c :: t) p.1, f p.2) := by
      intro k
      rw [ih, occurrencesFrom_eq_map m (0 + 1), map_place_succ]
    -- the first character is covered, with its return if it has one
    have hcovered : ∀ k, occurrencesFrom m index (place (c :: t) (k + 1)) (withReturns (c :: t))
        = (occurrencesFrom m (0 + 1) k t).map fun p => (index + place (c :: t) p.1, f p.2) := by
      intro k
      rw [← hnext, place_cons_succ]
      exact occurrencesFrom_append m index (returned c) (withReturns t) (place t k)
    cases k with
    | succ k => rw [hcovered, occurrencesFrom]
    | zero =>
      rw [place_zero]
      cases hmatch : m (c :: t) with
      | none =>
        rw [hm.occurrencesFrom_of_none hmatch, Text.occurrencesFrom_of_none hmatch, ← hnext,
          place_zero]
      | some found =>
        obtain ⟨x, length⟩ := found
        have hne : c :: t ≠ [] := List.cons_ne_nil c t
        have hpos := hm.pos _ _ _ hmatch
        rw [hm.occurrencesFrom_of_some hmatch hne, Text.occurrencesFrom_of_some hmatch hne hpos,
          List.map_cons]
        -- a match covers its first character at least
        obtain ⟨length, rfl⟩ := Nat.exists_eq_add_one_of_ne_zero (Nat.ne_of_gt hpos)
        rw [hcovered, occurrencesFrom, place_zero]
        rfl

/-- **Along the whole text** a matcher that respects returns recognises the same at the
corresponding places. -/
theorem occurrences_withReturns (hm : m.RespectsReturns f) (t : Text) :
    (withReturns t).occurrences m = (t.occurrences m).map fun p => (place t p.1, f p.2) := by
  refine (occurrencesFrom_withReturns hm 0 0 t).trans (List.map_congr_left fun p _ => ?_)
  rw [Nat.zero_add]

/-- **The first match** in a text with returns. -/
theorem firstOccurrence?_withReturns (hm : m.RespectsReturns f) (t : Text) :
    (withReturns t).firstOccurrence? m
      = (t.firstOccurrence? m).map fun p => (place t p.1, f p.2) := by
  rw [firstOccurrence?_eq_head?, firstOccurrence?_eq_head?, occurrences_withReturns hm,
    List.head?_map]

/-! ### Needles -/

/-- A needle without line breaks is recognised with its length. -/
theorem respectsReturns_needleMatcher {needle : Text} (hneedle : needle.Unbroken)
    (hne : needle ≠ []) : (needleMatcher needle).RespectsReturns id where
  front t := by
    unfold needleMatcher
    by_cases h : needle <+: t
    · have h' := (prefix_withReturns_iff hneedle).mpr h
      rw [if_pos ((isPrefixOf_iff _ _).mpr h), if_pos ((isPrefixOf_iff _ _).mpr h'),
        Option.map_some, place_of_prefix h, withReturns_eq_self hneedle.lineFeed_notMem, id]
    · -- a needle that is not there does not arise from a return, which it does not hold
      have h' := mt (prefix_withReturns_iff hneedle).mp h
      rw [if_neg (mt (isPrefixOf_iff _ _).mp h), if_neg (mt (isPrefixOf_iff _ _).mp h')]
      rfl
  lineFeed t _ := by
    unfold needleMatcher
    rw [if_neg]
    rw [isPrefixOf_iff]
    intro h
    obtain ⟨d, rest, rfl⟩ := List.exists_cons_of_ne_nil hne
    exact (hneedle d List.mem_cons_self).2 (List.cons_prefix_cons.mp h).1
  pos t x length h := by
    unfold needleMatcher at h
    split at h
    · cases h
      exact List.length_pos_of_ne_nil hne
    · cases h

/-- **A needle occurs as often** as it did. -/
theorem countIn_withReturns {needle : Text} (hneedle : needle.Unbroken) (hne : needle ≠ [])
    (t : Text) : needle.countIn (withReturns t) = needle.countIn t := by
  have hempty : ¬ needle.isEmpty := by rwa [List.isEmpty_iff]
  rw [countIn, countIn, if_neg hempty, if_neg hempty,
    occurrences_withReturns (respectsReturns_needleMatcher hneedle hne), List.length_map]

end StepCheck.Text
