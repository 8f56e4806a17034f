import StepCheck.Proofs.Text.Matches

/-!
# Which matches are listed

The matches of a matcher are listed in one run along the text, which keeps count of what an earlier
match still covers. Said without the count: the leftmost match at or behind some index comes first,
and then the same again from the end of that match on. So an earlier match may hide a later one. It
never does if nothing is recognised inside of what is recognised, and then all matches are listed.

* `Text.Matcher.GetsOn` — matchers that recognise nothing empty;
* `Text.Matcher.Lists` — the matches from an index on, one after the other;
* `Text.Matcher.GetsOn.lists_occurrences`, `Text.Matcher.Lists.unique` — they are what is listed;
* `Text.Matcher.Lists.mem_iff` — where nothing is hidden, every match is listed;
* `Text.occurrencesFrom_append_of_none`, `Text.occurrencesFrom_append_of_some` — a text in parts.
-/

namespace StepCheck.Text

variable {α : Type} {m : Matcher α} {t : Text} {start : Nat}

/-! ### The run and the index -/

/-- What an earlier match covers may as well be taken away. -/
theorem occurrencesFrom_eq_drop (m : Matcher α) (index k : Nat) (t : Text) :
    occurrencesFrom m index k t = occurrencesFrom m (index + k) 0 (t.drop k) := by
  induction t generalizing index k with
  | nil => rw [List.drop_nil, occurrencesFrom_nil, occurrencesFrom_nil]
  | cons c t ih =>
    cases k with
    | zero => rfl
    | succ k => rw [occurrencesFrom, ih, List.drop_succ_cons, Nat.add_right_comm, Nat.add_assoc]

/-- **A part without matches** is passed over. -/
theorem occurrencesFrom_append_of_none {s : Text}
    (h : ∀ k < s.length, m (s.drop k ++ t) = none) (index : Nat) :
    occurrencesFrom m index 0 (s ++ t) = occurrencesFrom m (index + s.length) 0 t := by
  induction s generalizing index with
  | nil => rfl
  | cons c s ih =>
    have hhere : m (c :: (s ++ t)) = none := h 0 (Nat.succ_pos _)
    have hlater : ∀ k < s.length, m (s.drop k ++ t) = none := by
      intro k hk
      exact h (k + 1) (Nat.succ_lt_succ hk)
    rw [List.cons_append, occurrencesFrom_of_none hhere, ih hlater, List.length_cons,
      Nat.add_right_comm, Nat.add_assoc]

/-- **A part that is a match** is listed, and the run goes on behind it. -/
theorem occurrencesFrom_append_of_some {s : Text} {x : α} (hs : s ≠ [])
    (h : m (s ++ t) = some (x, s.length)) (index : Nat) :
    occurrencesFrom m index 0 (s ++ t)
      = (index, x) :: occurrencesFrom m (index + s.length) 0 t := by
  have hne : s ++ t ≠ [] := by
    intro hnil
    exact hs (List.append_eq_nil_iff.mp hnil).1
  rw [occurrencesFrom_of_some h hne (List.length_pos_of_ne_nil hs)]
  congr 1
  exact occurrencesFrom_append m index s t 0

/-! ### The matches from an index on -/

/-- **A matcher gets on** if it recognises nothing at the end of a text, and nothing empty. -/
structure Matcher.GetsOn (m : Matcher α) : Prop where
  nil : m [] = none
  pos : ∀ t x length, m t = some (x, length) → 0 < length

/-- **The matches of a matcher** from an index on. -/
inductive Matcher.Lists (m : Matcher α) (t : Text) : (start : Nat) → List (Nat × α) → Prop
  /-- There is none at or behind the index. -/
  | done {start : Nat} (none_left : ∀ i, start ≤ i → m (t.drop i) = none) : Lists m t start []
  /-- The leftmost one, and then those from its end on. -/
  | next {start i length : Nat} {x : α} {found : List (Nat × α)} (start_le : start ≤ i)
      (leftmost : ∀ k, start ≤ k → k < i → m (t.drop k) = none)
      (here : m (t.drop i) = some (x, length)) (behind : Lists m t (i + length) found) :
      Lists m t start ((i, x) :: found)

namespace Matcher

variable {found : List (Nat × α)}

/-- Where nothing begins at the index, it may be moved on. -/
private theorem Lists.of_none (h : m.Lists t (start + 1) found) (hnone : m (t.drop start) = none) :
    m.Lists t start found := by
  have hpassed : ∀ k, start ≤ k → k < start + 1 → m (t.drop k) = none := by
    intro k hk hlt
    obtain rfl : k = start := by omega
    exact hnone
  -- the list stays as it is, and only its start is moved
  cases h with
  | done none_left =>
    refine .done fun k hk => ?_
    by_cases hlt : k < start + 1
    · exact hpassed k hk hlt
    · exact none_left k (Nat.le_of_not_lt hlt)
  | next start_le leftmost here behind =>
    refine .next (Nat.le_of_succ_le start_le) (fun k hk hki => ?_) here behind
    by_cases hlt : k < start + 1
    · exact hpassed k hk hlt
    · exact leftmost k (Nat.le_of_not_lt hlt) hki

/-- The run from an index on. -/
theorem GetsOn.lists_occurrencesFrom (hm : m.GetsOn) (t : Text) (start : Nat) :
    m.Lists t start (occurrencesFrom m start 0 (t.drop start)) := by
  -- on what is left of the text, which gets shorter with every step and every match
  induction hleft : t.length - start using Nat.strong_induction_on generalizing start with
  | _ left ih =>
    by_cases hend : t.length ≤ start
    · rw [List.drop_of_length_le hend, occurrencesFrom_nil]
      refine .done fun i hi => ?_
      rw [List.drop_of_length_le (Nat.le_trans hend hi)]
      exact hm.nil
    · have hlt : start < t.length := Nat.lt_of_not_le hend
      cases hmatch : m (t.drop start) with
      | none =>
        have hnext := ih (t.length - (start + 1)) (by omega) (start + 1) rfl
        refine Lists.of_none ?_ hmatch
        rw [List.drop_eq_getElem_cons hlt] at hmatch ⊢
        rwa [occurrencesFrom_of_none hmatch]
      | some p =>
        obtain ⟨x, length⟩ := p
        have hpos := hm.pos _ _ _ hmatch
        have hne : t.drop start ≠ [] := by
          rw [List.drop_eq_getElem_cons hlt]
          exact List.cons_ne_nil _ _
        have hnext := ih (t.length - (start + length)) (by omega) (start + length) rfl
        rw [occurrencesFrom_of_some hmatch hne hpos, occurrencesFrom_eq_drop, List.drop_drop]
        exact .next (Nat.le_refl start) (fun k hk hlt => absurd hk (Nat.not_le_of_lt hlt)) hmatch
          hnext

/-- **What is listed** are the matches from the front of the text on. -/
theorem GetsOn.lists_occurrences (hm : m.GetsOn) (t : Text) : m.Lists t 0 (t.occurrences m) :=
  hm.lists_occurrencesFrom t 0

/-- **Nothing else** is a list of the matches. -/
theorem Lists.unique {found' : List (Nat × α)} (h : m.Lists t start found)
    (h' : m.Lists t start found') : found = found' := by
  induction h generalizing found' with
  | done none_left =>
    cases h' with
    | done => rfl
    | next start_le _ here _ =>
      rw [none_left _ start_le] at here
      cases here
  | @next start i length x found start_le leftmost here behind ih =>
    cases h' with
    | done none_left =>
      rw [none_left _ start_le] at here
      cases here
    | @next _ i' length' x' found' start_le' leftmost' here' behind' =>
      -- neither of the two leftmost matches lies before the other
      have hle : i ≤ i' := by
        by_contra hlt
        rw [leftmost i' start_le' (Nat.lt_of_not_le hlt)] at here'
        cases here'
      have hge : i' ≤ i := by
        by_contra hlt
        rw [leftmost' i start_le (Nat.lt_of_not_le hlt)] at here
        cases here
      obtain rfl := Nat.le_antisymm hle hge
      rw [here] at here'
      cases here'
      rw [ih behind']

/-- **The matches go on to the right**. -/
theorem Lists.increasing (hm : m.GetsOn) (h : m.Lists t start found) :
    (∀ p ∈ found, start ≤ p.1) ∧ found.Pairwise fun p q => p.1 < q.1 := by
  induction h with
  | done => exact ⟨fun p hp => absurd hp List.not_mem_nil, List.Pairwise.nil⟩
  | @next start i length x found start_le _ here _ ih =>
    have hpos := hm.pos _ _ _ here
    obtain ⟨hbehind, hincreasing⟩ := ih
    refine ⟨List.forall_mem_cons.mpr ⟨start_le, fun p hp => ?_⟩,
      List.pairwise_cons.mpr ⟨fun p hp => ?_, hincreasing⟩⟩
    · have hle := hbehind p hp
      omega
    · have hle := hbehind p hp
      show i < p.1
      omega

/-- There is nothing to list just when nothing is recognised anywhere. -/
theorem Lists.eq_nil_iff (h : m.Lists t start found) :
    found = [] ↔ ∀ i, start ≤ i → m (t.drop i) = none := by
  cases h with
  | done none_left => exact iff_of_true rfl none_left
  | next start_le _ here _ =>
    refine iff_of_false (List.cons_ne_nil _ _) fun hnone => ?_
    rw [hnone _ start_le] at here
    cases here

/-! ### Matches that hide nothing -/

/-- **A matcher hides nothing** if it recognises nothing inside of what it recognises. -/
def HidesNothing (m : Matcher α) : Prop :=
  ∀ t x length, m t = some (x, length) → ∀ k, 0 < k → k < length → m (t.drop k) = none

/-- **All matches are listed** where nothing is hidden. -/
theorem Lists.mem_iff (hm : m.HidesNothing) (h : m.Lists t start found) {i : Nat} {x : α} :
    (i, x) ∈ found ↔ start ≤ i ∧ ∃ length, m (t.drop i) = some (x, length) := by
  induction h with
  | done none_left =>
    refine iff_of_false List.not_mem_nil ?_
    rintro ⟨hle, length, hmatch⟩
    rw [none_left i hle] at hmatch
    cases hmatch
  | @next start first length y found start_le leftmost here _ ih =>
    rw [List.mem_cons, ih, Prod.mk.injEq]
    constructor
    · rintro (⟨rfl, rfl⟩ | ⟨hle, hmatch⟩)
      · exact ⟨start_le, length, here⟩
      · exact ⟨by omega, hmatch⟩
    · rintro ⟨hle, length', hmatch⟩
      by_cases hbefore : i < first
      · rw [leftmost i hle hbefore] at hmatch
        cases hmatch
      by_cases hfirst : i = first
      · rw [hfirst, here] at hmatch
        cases hmatch
        exact .inl ⟨hfirst, rfl⟩
      by_cases hinside : i < first + length
      · -- inside of the leftmost match, where nothing begins
        have hnone := hm _ _ _ here (i - first) (by omega) (by omega)
        rw [List.drop_drop, Nat.add_sub_cancel' (Nat.le_of_not_lt hbefore), hmatch] at hnone
        cases hnone
      · exact .inr ⟨Nat.le_of_not_lt hinside, length', hmatch⟩

end Matcher

end StepCheck.Text
