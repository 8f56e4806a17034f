import Mathlib.Data.Finset.Card
import Mathlib.Data.Finset.Max
import Mathlib.Order.Bounds.Defs
import StepCheck.Proofs.Text.Occurrences
import StepCheck.Proofs.Text.Places

/-!
# How often a needle occurs

A needle is counted in one run along the text, which takes the leftmost occurrence, goes on behind
it, and takes the leftmost one again. Occurrences may overlap if the needle overlaps with itself,
and then the run passes over some of them. It still finds as many as there can be: of any
occurrences that do not overlap, the first one ends no earlier than the one that the run takes, so
that all the others lie in what the run has left.

* `Text.Packs` — occurrences that do not overlap;
* `Text.Matcher.Lists.exists_packs`, `Text.Matcher.Lists.card_le` — the run along a text;
* `Text.isGreatest_countIn` — the count is the greatest number of such occurrences;
* `Text.countIn_add_countIn_le` — nothing is lost where two texts are joined.
-/

namespace StepCheck.Text

variable {needle s t : Text} {start : Nat} {places : Finset Nat}

/-! ### Occurrences that do not overlap -/

/-- **Occurrences that do not overlap**, by the indices at which they begin. -/
structure Packs (needle t : Text) (places : Finset Nat) : Prop where
  occurs : ∀ i ∈ places, needle <+: t.drop i
  apart : ∀ i ∈ places, ∀ j ∈ places, i < j → i + needle.length ≤ j

namespace Packs

/-- Some of them do not overlap either. -/
theorem mono (h : Packs needle t places) {fewer : Finset Nat} (hfewer : fewer ⊆ places) :
    Packs needle t fewer where
  occurs i hi := h.occurs i (hfewer hi)
  apart i hi j hj := h.apart i (hfewer hi) j (hfewer hj)

/-- **One more**, before all others. -/
theorem insert_before (h : Packs needle t places) {i : Nat} (hi : needle <+: t.drop i)
    (hbehind : ∀ j ∈ places, i + needle.length ≤ j) : Packs needle t (insert i places) where
  occurs j hj := by
    rcases Finset.mem_insert.mp hj with rfl | hj
    · exact hi
    · exact h.occurs j hj
  apart j hj k hk hlt := by
    rcases Finset.mem_insert.mp hj with rfl | hj' <;>
      rcases Finset.mem_insert.mp hk with rfl | hk'
    · exact absurd hlt (Nat.lt_irrefl _)
    · exact hbehind k hk'
    · -- the new one does not lie behind another
      have hle := hbehind j hj'
      omega
    · exact h.apart j hj' k hk' hlt

/-- **Side by side**: those of one text, and those of another text behind it. -/
theorem append (hne : needle ≠ []) {others : Finset Nat} (h : Packs needle s places)
    (h' : Packs needle t others) :
    Packs needle (s ++ t) (places ∪ others.image (s.length + ·)) where
  occurs i hi := by
    -- an occurrence in the first text, or one in the second that is moved
    rcases Finset.mem_union.mp hi with hi | hi
    · have hend := length_add_le_of_prefix hne (h.occurs i hi)
      rw [List.drop_append_of_le_length (by omega)]
      exact (h.occurs i hi).trans (List.prefix_append _ _)
    · obtain ⟨k, hk, rfl⟩ := Finset.mem_image.mp hi
      rw [List.drop_length_add_append]
      exact h'.occurs k hk
  apart i hi j hj hlt := by
    rcases Finset.mem_union.mp hi with hi | hi <;> rcases Finset.mem_union.mp hj with hj | hj
    · exact h.apart i hi j hj hlt
    · -- what stands in the first text ends in it
      obtain ⟨k, hk, rfl⟩ := Finset.mem_image.mp hj
      have hend := length_add_le_of_prefix hne (h.occurs i hi)
      omega
    · obtain ⟨k, hk, rfl⟩ := Finset.mem_image.mp hi
      have hend := length_add_le_of_prefix hne (h.occurs j hj)
      omega
    · obtain ⟨k, hk, rfl⟩ := Finset.mem_image.mp hi
      obtain ⟨k', hk', rfl⟩ := Finset.mem_image.mp hj
      have hle := h'.apart k hk k' hk' (by omega)
      omega

/-- Side by side, none of them is lost. -/
theorem card_append (hne : needle ≠ []) (h : Packs needle s places) (others : Finset Nat) :
    (places ∪ others.image (s.length + ·)).card = places.card + others.card := by
  rw [Finset.card_union_of_disjoint,
    Finset.card_image_of_injective others fun _ _ => Nat.add_left_cancel]
  rw [Finset.disjoint_left]
  intro i hi hi'
  obtain ⟨k, -, rfl⟩ := Finset.mem_image.mp hi'
  have hend := length_add_le_of_prefix hne (h.occurs _ hi)
  have hpos := List.length_pos_of_ne_nil hne
  omega

end Packs

/-! ### The run along the text -/

/-- A needle is matched at the front of what begins with it, over its whole length. -/
theorem needleMatcher_eq_some_iff {length : Nat} :
    needleMatcher needle t = some ((), length) ↔ needle <+: t ∧ length = needle.length := by
  unfold needleMatcher
  split
  · next h =>
    rw [isPrefixOf_iff] at h
    simp only [h, true_and, Option.some.injEq, Prod.mk.injEq, eq_comm]
  · next h =>
    rw [isPrefixOf_iff] at h
    simp only [h, false_and, reduceCtorEq]

/-- A needle is not matched at the front of what does not begin with it. -/
theorem needleMatcher_eq_none_iff : needleMatcher needle t = none ↔ ¬ needle <+: t := by
  unfold needleMatcher
  split
  · next h => simp only [(isPrefixOf_iff needle t).mp h, not_true_eq_false, reduceCtorEq]
  · next h =>
    rw [isPrefixOf_iff] at h
    simp only [h, not_false_eq_true]

/-- A needle that is not empty gets on. -/
theorem getsOn_needleMatcher (hne : needle ≠ []) : (needleMatcher needle).GetsOn where
  nil := by
    rw [needleMatcher_eq_none_iff, List.prefix_nil]
    exact hne
  pos t x length h := by
    obtain ⟨-, rfl⟩ := needleMatcher_eq_some_iff.mp h
    exact List.length_pos_of_ne_nil hne

namespace Matcher.Lists

variable {found : List (Nat × Unit)}

/-- **What the run takes** does not overlap. -/
theorem exists_packs (hne : needle ≠ []) (h : (needleMatcher needle).Lists t start found) :
    ∃ places, Packs needle t places ∧ (∀ i ∈ places, start ≤ i) ∧ places.card = found.length := by
  induction h with
  | @done start none_left =>
    refine ⟨∅, ⟨?_, ?_⟩, ?_, rfl⟩
    all_goals intro i hi; exact absurd hi (Finset.notMem_empty i)
  | @next start i length x found start_le leftmost here behind ih =>
    obtain ⟨places, hplaces, hbehind, hcard⟩ := ih
    -- the leftmost match ends before all later ones begin
    obtain ⟨hi, rfl⟩ := needleMatcher_eq_some_iff.mp here
    have hpos := List.length_pos_of_ne_nil hne
    have hfresh : i ∉ places := by
      intro hmem
      have hle := hbehind i hmem
      omega
    refine ⟨insert i places, hplaces.insert_before hi hbehind, ?_, ?_⟩
    · intro j hj
      rcases Finset.mem_insert.mp hj with rfl | hj
      · exact start_le
      · have hle := hbehind j hj
        omega
    · rw [Finset.card_insert_of_notMem hfresh, hcard, List.length_cons]

/-- **The run takes as many** as there can be. -/
theorem card_le (h : (needleMatcher needle).Lists t start found) (hplaces : Packs needle t places)
    (hstart : ∀ i ∈ places, start ≤ i) : places.card ≤ found.length := by
  -- on the run; the given occurrences change with the index from which it goes on
  induction h generalizing places with
  | @done start none_left =>
    have hempty : places = ∅ := by
      rw [Finset.eq_empty_iff_forall_notMem]
      intro i hi
      exact needleMatcher_eq_none_iff.mp (none_left i (hstart i hi)) (hplaces.occurs i hi)
    rw [hempty]
    exact Nat.le_refl 0
  | @next start i length x found start_le leftmost here behind ih =>
    obtain ⟨-, rfl⟩ := needleMatcher_eq_some_iff.mp here
    rcases places.eq_empty_or_nonempty with rfl | hnonempty
    · exact Nat.zero_le _
    -- the first of the given ones does not lie before the one that is taken
    obtain ⟨first, hfirst, hleast⟩ := places.exists_min_image id hnonempty
    have hle : i ≤ first := by
      by_contra hlt
      have hnone := leftmost first (hstart first hfirst) (Nat.lt_of_not_le hlt)
      exact needleMatcher_eq_none_iff.mp hnone (hplaces.occurs first hfirst)
    -- so the others begin behind the one that is taken
    have hothers : ∀ j ∈ places.erase first, i + needle.length ≤ j := by
      intro j hj
      obtain ⟨hj, hmem⟩ := Finset.mem_erase.mp hj
      have hlt : first < j := Nat.lt_of_le_of_ne (hleast j hmem) (Ne.symm hj)
      calc i + needle.length ≤ first + needle.length := Nat.add_le_add_right hle _
        _ ≤ j := hplaces.apart first hfirst j hmem hlt
    calc places.card = (places.erase first).card + 1 := (Finset.card_erase_add_one hfirst).symm
      _ ≤ found.length + 1 :=
        Nat.succ_le_succ (ih (hplaces.mono (Finset.erase_subset first places)) hothers)

end Matcher.Lists

/-! ### The count -/

/-- **The count is the greatest number** of occurrences that do not overlap. -/
theorem isGreatest_countIn (hne : needle ≠ []) (t : Text) :
    IsGreatest {n | ∃ places, Packs needle t places ∧ places.card = n} (needle.countIn t) := by
  have hcount : needle.countIn t = (t.occurrences (needleMatcher needle)).length := by
    rw [countIn, if_neg]
    rwa [List.isEmpty_iff]
  have hrun := (getsOn_needleMatcher hne).lists_occurrences t
  rw [hcount]
  constructor
  · obtain ⟨places, hplaces, -, hcard⟩ := hrun.exists_packs hne
    exact ⟨places, hplaces, hcard⟩
  · rintro n ⟨places, hplaces, rfl⟩
    exact hrun.card_le hplaces fun i _ => Nat.zero_le i

/-- **Joined texts** have the occurrences of both, and perhaps more. -/
theorem countIn_add_countIn_le (hne : needle ≠ []) (s t : Text) :
    needle.countIn s + needle.countIn t ≤ needle.countIn (s ++ t) := by
  obtain ⟨places, hplaces, hcard⟩ := (isGreatest_countIn hne s).1
  obtain ⟨others, hothers, hcard'⟩ := (isGreatest_countIn hne t).1
  rw [← hcard, ← hcard', ← hplaces.card_append hne others]
  exact (isGreatest_countIn hne (s ++ t)).2 ⟨_, hplaces.append hne hothers, rfl⟩

end StepCheck.Text
