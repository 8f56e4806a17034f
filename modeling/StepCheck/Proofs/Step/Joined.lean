import StepCheck.Proofs.Step.Declarations

/-!
# Declarations of joined texts

Where two texts are joined, every declaration of either stays where it was, and one more may arise
across the cut: the first text ends in the middle of its front, and the second one goes on with it.
There cannot be two of them, for both would reach over the cut, and so the later one would begin
inside the front of the earlier one, where no number sign stands.

* `Declaration.Straddles` — the places from which a declaration reaches over the cut;
* `Declaration.subsingleton_straddles` — there is one at most;
* `Declaration.countIn_append` — the number of declarations of joined texts;
* `Text.lineCount_append` — the number of their lines.
-/

namespace StepCheck

/-- **The lines of joined texts**: the last line of the one and the first of the other make up one
line. -/
theorem Text.lineCount_append (a b : Text) :
    lineCount (a ++ b) = a.lineCount + b.lineCount - 1 := by
  rw [lineCount_eq, lineCount_eq, lineCount_eq, List.count_append]
  omega

namespace Declaration

variable {a b : Text} {i j : Nat} {d : Declaration}

/-- A declaration that begins behind the cut is one of the second text. -/
theorem startsAt_append_length_add : StartsAt (a ++ b) (a.length + i) ↔ StartsAt b i := by
  unfold StartsAt StandsAt
  rw [List.drop_length_add_append]

/-- **A declaration of the first text** stands in the joined text. -/
theorem StartsAt.append (h : StartsAt a i) (b : Text) : StartsAt (a ++ b) i := by
  have hlt := h.lt_length
  obtain ⟨d, front, hfront, hprefix⟩ := h
  refine ⟨d, front, hfront, ?_⟩
  rw [List.drop_append_of_le_length (Nat.le_of_lt hlt)]
  exact hprefix.trans (List.prefix_append _ _)

/-- **A declaration that straddles the cut** begins in the first text and is none there. -/
def Straddles (a b : Text) (i : Nat) : Prop :=
  StartsAt (a ++ b) i ∧ i < a.length ∧ ¬ StartsAt a i

/-- A declaration that straddles the cut reaches over it. -/
theorem Straddles.exists_atFront? (h : Straddles a b i) : ∃ d length,
    atFront? ((a ++ b).drop i) = some (d, length) ∧ a.length < i + length := by
  obtain ⟨⟨d, front, hfront, hprefix⟩, hlt, hnot⟩ := h
  obtain ⟨rest, hrest⟩ := hprefix
  refine ⟨d, front.length, atFront?_eq_some_iff.mpr ⟨front, rest, hrest.symm, hfront, rfl⟩, ?_⟩
  -- else the whole front would stand in the first text
  by_contra hle
  refine hnot ⟨d, front, hfront, ?_⟩
  rw [List.drop_append_of_le_length (Nat.le_of_lt hlt)] at hrest
  refine List.prefix_of_prefix_length_le ⟨rest, hrest⟩ (List.prefix_append _ b) ?_
  rw [List.length_drop]
  omega

/-- **None of two declarations** that straddle the cut begins before the other. -/
theorem Straddles.not_lt (hi : Straddles a b i) (hj : Straddles a b j) : ¬ i < j := by
  intro hlt
  obtain ⟨d, length, hmatch, hreach⟩ := hi.exists_atFront?
  obtain ⟨d', length', hmatch', -⟩ := hj.exists_atFront?
  have hlast : j < a.length := hj.2.1
  have hnone := hidesNothing_atFront? _ d length hmatch (j - i) (by omega) (by omega)
  rw [List.drop_drop, Nat.add_sub_cancel' (Nat.le_of_lt hlt), hmatch'] at hnone
  cases hnone

/-- **At most one declaration** straddles the cut. -/
theorem subsingleton_straddles (a b : Text) : {i | Straddles a b i}.Subsingleton := by
  intro i hi j hj
  have hij := hi.not_lt hj
  have hji := hj.not_lt hi
  omega

/-- The places of the declarations of joined texts: those of the first text, those that straddle the
cut, and those of the second one, moved behind the cut. -/
theorem setOf_startsAt_append (a b : Text) : {i | StartsAt (a ++ b) i}
    = ({i | StartsAt a i} ∪ {i | Straddles a b i}) ∪ (a.length + ·) '' {i | StartsAt b i} := by
  ext i
  constructor
  · intro hi
    -- either it begins in the first text, perhaps to end in the second one, or in the second
    rcases Nat.lt_or_ge i a.length with hlt | hge
    · left
      by_cases ha : StartsAt a i
      · exact .inl ha
      · exact .inr ⟨hi, hlt, ha⟩
    · right
      obtain ⟨k, rfl⟩ := Nat.exists_eq_add_of_le hge
      exact ⟨k, startsAt_append_length_add.mp hi, rfl⟩
  · rintro ((ha | hstraddles) | ⟨k, hk, rfl⟩)
    · exact StartsAt.append ha b
    · exact hstraddles.1
    · exact startsAt_append_length_add.mpr hk

/-- **The number of declarations of joined texts** is the sum of the numbers, and one more if one
straddles the cut. -/
theorem countIn_append (a b : Text) :
    countIn (a ++ b) = countIn a + countIn b + {i | Straddles a b i}.ncard := by
  have hfinite : ∀ c : Text, {i | StartsAt c i}.Finite := fun c =>
    (Set.finite_lt_nat c.length).subset fun i hi => StartsAt.lt_length hi
  have hstraddles : {i | Straddles a b i}.Finite := (subsingleton_straddles a b).finite
  have hfirst : Disjoint {i | StartsAt a i} {i | Straddles a b i} :=
    Set.disjoint_left.mpr fun i ha hi => hi.2.2 ha
  have hcut : Disjoint ({i | StartsAt a i} ∪ {i | Straddles a b i})
      ((a.length + ·) '' {i | StartsAt b i}) := by
    rw [Set.disjoint_left]
    rintro i hi ⟨k, -, rfl⟩
    -- what begins in the first text does not begin behind it
    have hlt : a.length + k < a.length := hi.elim StartsAt.lt_length fun h => h.2.1
    omega
  rw [countIn_eq_ncard, setOf_startsAt_append,
    Set.ncard_union_eq hcut ((hfinite a).union hstraddles) ((hfinite b).image _),
    Set.ncard_union_eq hfirst (hfinite a) hstraddles,
    Set.ncard_image_of_injective _ (add_right_injective a.length), ← countIn_eq_ncard,
    ← countIn_eq_ncard]
  omega

/-- No declaration is lost where two texts are joined. -/
theorem countIn_add_le (a b : Text) : countIn a + countIn b ≤ countIn (a ++ b) := by
  rw [countIn_append]
  exact Nat.le_add_right _ _

/-- At most one declaration arises across the cut between two texts. -/
theorem countIn_append_le (a b : Text) : countIn (a ++ b) ≤ countIn a + countIn b + 1 := by
  have hone := subsingleton_straddles a b
  rw [countIn_append]
  exact Nat.add_le_add_left
    ((Set.ncard_le_one hone.finite).mpr fun i hi j hj => hone hi hj) _

/-- The declaration of the first text, one across the cut, and that of the second one. -/
example : countIn "#1=IFCWALL();#2=IFCWA" = 1 ∧ countIn "LL();#3=IFCDOOR();" = 1 ∧
    countIn ("#1=IFCWALL();#2=IFCWA" ++ "LL();#3=IFCDOOR();") = 3 := by
  decide +kernel

end Declaration

end StepCheck
