import StepCheck.Text.Search
import StepCheck.Text.Blank

/-!
# What searching finds

The searches run along a text and stop at the first place that fits. What they answer is said here
without running along: a needle occurs just when the text has it as a part, and a text is cut at the
leftmost of all its occurrences.

* `Text.occursIn_iff` — occurrence of a needle;
* `Text.SplitsAt` — what lies before and behind the leftmost occurrence of a needle, which is
  determined by needle and text (`Text.SplitsAt.unique`);
* `Text.foundIn?_eq_some_iff`, `Text.cutAt?_eq_some_iff` — the searches find just that;
* `Text.isSome_firstOccurrence?` — a matcher has a first match just when it matches somewhere;
* `Text.exists_of_mem_occurrences` — the matches that are listed are matches at their places;
* `Text.stripLeft_eq_cons_iff` — the first code point that is no white space.
-/

namespace StepCheck.Text

variable {needle t : Text}

/-! ### Needles -/

/-- The test is the relation. -/
theorem isPrefixOf_iff (needle t : Text) : needle.isPrefixOf t = true ↔ needle <+: t :=
  List.isPrefixOf_iff_prefix

/-- **A needle occurs** in a text just when it is a part of it. -/
theorem occursIn_iff (needle t : Text) : needle.occursIn t = true ↔ needle <:+: t := by
  induction t with
  | nil => rw [occursIn_nil, List.isEmpty_iff, List.infix_nil]
  | cons c t ih =>
    rw [occursIn_cons, Bool.or_eq_true, isPrefixOf_iff, ih, List.infix_cons_iff]

/-- **A text is split** at the leftmost occurrence of a needle. -/
def SplitsAt (needle t before after : Text) : Prop :=
  t = before ++ needle ++ after ∧
    ∀ before' after', t = before' ++ needle ++ after' → before.length ≤ before'.length

/-- There is only one leftmost occurrence. -/
theorem SplitsAt.unique {before after before' after' : Text} (h : SplitsAt needle t before after)
    (h' : SplitsAt needle t before' after') : before = before' ∧ after = after' := by
  obtain ⟨rfl, hleast⟩ := h
  obtain ⟨ht, hleast'⟩ := h'
  have hlength : before.length = before'.length :=
    Nat.le_antisymm (hleast before' after' ht) (hleast' before after rfl)
  rw [List.append_assoc, List.append_assoc] at ht
  obtain ⟨hbefore, hrest⟩ := List.append_inj ht hlength
  exact ⟨hbefore, List.append_cancel_left hrest⟩

/-- Where the needle does not occur at the front, the leftmost occurrence is that in the rest. -/
private theorem SplitsAt.cons {c : CodePoint} {before after : Text} (hc : ¬ needle <+: c :: t)
    (h : SplitsAt needle t before after) : SplitsAt needle (c :: t) (c :: before) after := by
  obtain ⟨rfl, hleast⟩ := h
  refine ⟨rfl, ?_⟩
  intro before' after' ht
  cases before' with
  | nil => exact absurd ⟨after', ht.symm⟩ hc
  | cons d before' =>
    rw [List.cons_append, List.cons_append] at ht
    exact Nat.succ_le_succ (hleast before' after' (List.cons.inj ht).2)

/-- What is found is a leftmost occurrence. -/
private theorem exists_of_foundIn? {rest : Text} (h : needle.foundIn? t = some rest) :
    ∃ before after, rest = needle ++ after ∧ SplitsAt needle t before after := by
  -- on the text, as the search runs along it
  induction t with
  | nil =>
    unfold foundIn? at h
    split at h
    · next hempty =>
      obtain rfl := List.isEmpty_iff.mp hempty
      cases h
      exact ⟨[], [], rfl, rfl, fun _ _ _ => Nat.zero_le _⟩
    · cases h
  | cons c t ih =>
    unfold foundIn? at h
    split at h
    · next hprefix =>
      cases h
      obtain ⟨after, hafter⟩ := (isPrefixOf_iff needle (c :: t)).mp hprefix
      exact ⟨[], after, hafter.symm, hafter.symm, fun _ _ _ => Nat.zero_le _⟩
    · next hprefix =>
      obtain ⟨before, after, hrest, hsplit⟩ := ih h
      refine ⟨c :: before, after, hrest, hsplit.cons ?_⟩
      rw [← isPrefixOf_iff]
      exact hprefix

/-- **The search finds** the leftmost occurrence. -/
theorem foundIn?_eq_some_iff {rest : Text} :
    needle.foundIn? t = some rest ↔
      ∃ before after, rest = needle ++ after ∧ SplitsAt needle t before after := by
  constructor
  · exact exists_of_foundIn?
  · rintro ⟨before, after, rfl, h⟩
    -- the search finds something, and the leftmost occurrence is only one
    have hsome : (needle.foundIn? t).isSome := by
      rw [← occursIn_eq_isSome_foundIn?, occursIn_iff]
      exact ⟨before, after, h.1.symm⟩
    obtain ⟨rest, hrest⟩ := Option.isSome_iff_exists.mp hsome
    obtain ⟨before', after', rfl, h'⟩ := exists_of_foundIn? hrest
    obtain ⟨-, rfl⟩ := h.unique h'
    exact hrest

/-- A needle that occurs has a leftmost occurrence. -/
theorem exists_splitsAt (h : needle <:+: t) : ∃ before after, SplitsAt needle t before after := by
  rw [← occursIn_iff, occursIn_eq_isSome_foundIn?] at h
  obtain ⟨rest, hrest⟩ := Option.isSome_iff_exists.mp h
  obtain ⟨before, after, -, hsplit⟩ := exists_of_foundIn? hrest
  exact ⟨before, after, hsplit⟩

/-- **A text is cut** at the leftmost occurrence. -/
theorem cutAt?_eq_some_iff {before after : Text} :
    t.cutAt? needle = some (before, after) ↔ SplitsAt needle t before after := by
  -- the part before an occurrence is as long as the text without the found rest
  have hcut : ∀ before after, SplitsAt needle t before after →
      t.cutAt? needle = some (before, after) := by
    intro before after h
    have hfound := foundIn?_eq_some_iff.mpr ⟨before, after, rfl, h⟩
    obtain ⟨rfl, -⟩ := h
    unfold cutAt?
    rw [hfound]
    simp
  constructor
  · intro h
    have hsome : (needle.foundIn? t).isSome := by
      unfold cutAt? at h
      cases hf : needle.foundIn? t with
      | none => rw [hf] at h; cases h
      | some rest => rfl
    rw [← occursIn_eq_isSome_foundIn?, occursIn_iff] at hsome
    obtain ⟨before', after', h'⟩ := exists_splitsAt hsome
    rw [hcut before' after' h'] at h
    cases h
    exact h'
  · exact hcut before after

/-! ### Matchers -/

/-- **A matcher has a first match** just when it matches at some place. -/
theorem isSome_firstOccurrence? {α : Type} (t : Text) (m : Matcher α) :
    (t.firstOccurrence? m).isSome ↔
      ∃ before rest, t = before ++ rest ∧ rest ≠ [] ∧ (m rest).isSome := by
  unfold firstOccurrence?
  -- the index is counted on while the text is run along, and does not matter
  generalize 0 = index
  induction t generalizing index with
  | nil =>
    constructor
    · intro h
      cases h
    · rintro ⟨before, rest, h, hne, -⟩
      exact absurd (List.append_eq_nil_iff.mp h.symm).2 hne
  | cons c t ih =>
    unfold firstOccurrenceFrom?
    cases hm : m (c :: t) with
    | some found =>
      refine iff_of_true rfl ⟨[], c :: t, rfl, List.cons_ne_nil c t, ?_⟩
      rw [hm]
      rfl
    | none =>
      dsimp only
      rw [ih (index + 1)]
      constructor
      · rintro ⟨before, rest, rfl, hne, hrest⟩
        exact ⟨c :: before, rest, rfl, hne, hrest⟩
      · rintro ⟨before, rest, h, hne, hrest⟩
        cases before with
        | nil =>
          obtain rfl : c :: t = rest := h
          rw [hm] at hrest
          cases hrest
        | cons d before =>
          exact ⟨before, rest, (List.cons.inj h).2, hne, hrest⟩

/-- **A match** that is listed begins at its index. -/
theorem exists_of_mem_occurrences {α : Type} {m : Matcher α} {index : Nat} {found : α}
    (h : (index, found) ∈ t.occurrences m) :
    index < t.length ∧ ∃ length, m (t.drop index) = some (found, length) := by
  -- the search has come to a place `first`, and may have to skip what a match still covers
  have hfrom : ∀ first skip, (index, found) ∈ occurrencesFrom m first skip t →
      ∃ k, index = first + k ∧ k < t.length ∧ ∃ length, m (t.drop k) = some (found, length) := by
    clear h
    induction t with
    | nil =>
      intro first skip h
      rw [occurrencesFrom_nil] at h
      cases h
    | cons c t ih =>
      intro first skip h
      have hrest : ∀ skip, (index, found) ∈ occurrencesFrom m (first + 1) skip t →
          ∃ k, index = first + k ∧ k < (c :: t).length ∧
            ∃ length, m ((c :: t).drop k) = some (found, length) := by
        intro skip h
        obtain ⟨k, hk, hlt, hm⟩ := ih (first + 1) skip h
        exact ⟨k + 1, by omega, Nat.succ_lt_succ hlt, hm⟩
      cases skip with
      | succ skip => exact hrest skip h
      | zero =>
        unfold occurrencesFrom at h
        split at h
        · next x length hm =>
          rcases List.mem_cons.mp h with heq | h
          · cases heq
            exact ⟨0, rfl, Nat.succ_pos _, length, hm⟩
          · exact hrest _ h
        · exact hrest 0 h
  obtain ⟨k, hk, hlt, hm⟩ := hfrom 0 0 h
  obtain rfl : index = k := by omega
  exact ⟨hlt, hm⟩

/-- There are no more matches than places. -/
theorem length_occurrences_le {α : Type} (t : Text) (m : Matcher α) :
    (t.occurrences m).length ≤ t.length := by
  have hfrom : ∀ first skip, (occurrencesFrom m first skip t).length ≤ t.length := by
    -- on the text, wherever the search begins and however much it passes over
    induction t with
    | nil =>
      intro first skip
      rw [occurrencesFrom_nil]
      exact Nat.le_refl 0
    | cons c t ih =>
      intro first skip
      cases skip with
      | succ skip => exact Nat.le_succ_of_le (ih (first + 1) skip)
      | zero =>
        unfold occurrencesFrom
        split
        · exact Nat.succ_le_succ (ih _ _)
        · exact Nat.le_succ_of_le (ih _ _)
  exact hfrom 0 0

/-! ### White space -/

/-- **What stands behind white space**: a code point that is none, and the rest. -/
theorem stripLeft_eq_cons_iff {c : CodePoint} {rest : Text} (hc : c.isBlank = false) :
    t.stripLeft = c :: rest ↔ ∃ ws, (∀ b ∈ ws, b.isBlank = true) ∧ t = ws ++ c :: rest := by
  constructor
  · intro h
    refine ⟨t.blanks, fun b hb => ?_, ?_⟩
    · exact List.all_eq_true.mp List.all_takeWhile b hb
    · rw [← h, blanks_append_stripLeft]
  · rintro ⟨ws, hws, rfl⟩
    unfold stripLeft
    rw [List.dropWhile_append_of_pos hws, List.dropWhile_cons_of_neg (by rw [hc]; exact nofun)]

/-- The white space at the front ends at a code point that is none. -/
theorem blanks_append_cons {ws : Text} {c : CodePoint} (hws : ∀ b ∈ ws, b.isBlank = true)
    (hc : c.isBlank = false) (rest : Text) : blanks (ws ++ c :: rest) = ws := by
  unfold blanks
  rw [List.takeWhile_append_of_pos hws, List.takeWhile_cons_of_neg (by rw [hc]; exact nofun),
    List.append_nil]

end StepCheck.Text
