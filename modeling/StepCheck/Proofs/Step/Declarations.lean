import Mathlib.Data.Set.Card
import StepCheck.Check.All
import StepCheck.Policy.Estimate
import StepCheck.Proofs.Check.Lines
import StepCheck.Proofs.Step.Fronts
import StepCheck.Proofs.Step.Sections
import StepCheck.Proofs.Text.Numeral
import StepCheck.Proofs.Text.Occurrences

/-!
# Which declarations are found

Declarations are looked for twice: the whole content is searched to estimate the time, and the text
of the data section to list the instances. Either search goes on behind what it has recognised. It
misses nothing by that, for the front of a declaration holds one number sign, at which it begins,
and so another declaration cannot begin inside of it. Nor does the end of the data section cut a
declaration off: the front of a declaration holds no semicolon, while the end of a section closes
with one. So the instances are the declarations of the content that begin in the data section.

* `Declaration.hidesNothing_atFront?` — no declaration begins inside of the front of another one;
* `Declaration.StartsAt`, `Declaration.mem_all_iff` — the places where declarations begin;
* `Declaration.standsAt_section_iff` — the places in a section;
* `Layout.ListsDeclarations` — what is to be said about the declarations of a content;
* `Layout.lists_declarations` — it holds of every content.
-/

namespace StepCheck

/-! ### What is recognised -/

namespace Declaration

variable {d : Declaration}

/-- No declaration is empty, so that the search gets on. -/
theorem getsOn_atFront? : Text.Matcher.GetsOn atFront? where
  nil := rfl
  pos t d length h := by
    obtain ⟨front, rest, rfl, hfront, rfl⟩ := atFront?_eq_some_iff.mp h
    exact hfront.length_pos

/-- **Nothing is hidden** in the front of a declaration. -/
theorem hidesNothing_atFront? : Text.Matcher.HidesNothing atFront? := by
  intro t d length h k hpos hlt
  obtain ⟨front, rest, rfl, hfront, rfl⟩ := atFront?_eq_some_iff.mp h
  obtain ⟨tail, rfl, hsign, -⟩ := hfront.exists_cons
  obtain ⟨k, rfl⟩ := Nat.exists_eq_add_one_of_ne_zero (Nat.ne_of_gt hpos)
  have hk : k < tail.length := Nat.lt_of_succ_lt_succ hlt
  rw [List.cons_append, List.drop_succ_cons, List.drop_append_of_le_length (Nat.le_of_lt hk),
    List.drop_eq_getElem_cons hk, List.cons_append]
  refine atFront?_cons_of_ne ?_ _
  intro heq
  exact hsign (heq ▸ List.getElem_mem hk)

/-! ### The places of declarations -/

/-- **A declaration stands** at an index of a text. -/
def StandsAt (c : Text) (i : Nat) (d : Declaration) : Prop :=
  ∃ front, d.Written front ∧ front <+: c.drop i

/-- **Some declaration starts** at an index of a text. -/
def StartsAt (c : Text) (i : Nat) : Prop := ∃ d, StandsAt c i d

variable {c : Text} {i : Nat}

/-- A declaration stands where one is read at the front of the rest. -/
theorem standsAt_iff : StandsAt c i d ↔ ∃ length, atFront? (c.drop i) = some (d, length) := by
  simp only [atFront?_eq_some_iff]
  constructor
  · rintro ⟨front, hfront, rest, hrest⟩
    exact ⟨_, front, rest, hrest.symm, hfront, rfl⟩
  · rintro ⟨-, front, rest, hdrop, hfront, rfl⟩
    exact ⟨front, hfront, rest, hdrop.symm⟩

/-- What is listed begins at a place of the text. -/
theorem StartsAt.lt_length (h : StartsAt c i) : i < c.length := by
  obtain ⟨d, front, hfront, hstarts⟩ := h
  obtain ⟨tail, rfl, -⟩ := hfront.exists_cons
  have hle := Text.length_add_le_of_prefix (List.cons_ne_nil _ _) hstarts
  rw [List.length_cons] at hle
  omega

/-- **All declarations** are listed, each with its index. -/
theorem mem_all_iff : (i, d) ∈ all c ↔ StandsAt c i d := by
  rw [standsAt_iff, all, (getsOn_atFront?.lists_occurrences c).mem_iff hidesNothing_atFront?]
  exact and_iff_right (Nat.zero_le i)

/-- What is cut off is no declaration, and does not hide the one that follows. -/
example : (all "#1=#2=IFCWALL(").map Prod.fst = [3] := by decide +kernel

/-- All declarations are listed from left to right. -/
theorem pairwise_all (c : Text) : (all c).Pairwise fun p q => p.1 < q.1 :=
  ((getsOn_atFront?.lists_occurrences c).increasing getsOn_atFront?).2

/-- **No declaration is cut off** by the end of a section: what stands at a place of its text is
what stands there in the content. -/
theorem standsAt_section_iff {keyword : Text} {s : Section}
    (h : Section.find? keyword c = some s) {k : Nat} :
    StandsAt s.text k d ↔ k < s.text.length ∧ StandsAt c (s.offset + k) d := by
  obtain ⟨first, j, -, hj, htext, hoffset, -⟩ := Section.find?_eq_some_iff.mp h
  have hend := Text.length_add_le_of_prefix (by decide) hj.occurs
  have hlength : s.text.length = j - s.offset := by
    rw [htext, hoffset, List.length_drop, List.length_take_of_le (by omega)]
  have hdrop : s.text.drop k = (c.drop (s.offset + k)).take (j - (s.offset + k)) := by
    rw [htext, ← hoffset, List.drop_drop, List.drop_take]
  constructor
  · intro hstands
    refine ⟨StartsAt.lt_length ⟨d, hstands⟩, ?_⟩
    obtain ⟨front, hfront, hstarts⟩ := hstands
    rw [hdrop] at hstarts
    exact ⟨front, hfront, hstarts.trans (List.take_prefix _ _)⟩
  · rintro ⟨hk, front, hfront, hstarts⟩
    refine ⟨front, hfront, ?_⟩
    rw [hdrop, List.prefix_take_iff]
    refine ⟨hstarts, ?_⟩
    by_contra hlt
    -- otherwise the end of the section begins inside of the front
    have hrest : front.drop (j - (s.offset + k)) <+: c.drop j := by
      have hj' : j = s.offset + k + (j - (s.offset + k)) := by omega
      have hdropped := hstarts.drop (j - (s.offset + k))
      rwa [List.drop_drop, ← hj'] at hdropped
    obtain ⟨tail, hcons, -, hsemicolon⟩ := hfront.exists_cons
    obtain ⟨init, hconcat⟩ := hfront.exists_concat
    rcases List.prefix_or_prefix_of_prefix hj.occurs hrest with hinside | hacross
    · -- then its semicolon is one of the front
      have hmem : CodePoint.ofChar ';' ∈ front :=
        List.mem_of_mem_drop (hinside.subset (by decide))
      rw [hcons, List.mem_cons] at hmem
      exact hmem.elim (by decide) hsemicolon
    · -- then the parenthesis that closes the front is one of its characters
      have hmem : CodePoint.ofChar '(' ∈ front.drop (j - (s.offset + k)) := by
        rw [hconcat, List.length_append, List.length_singleton] at hlt
        rw [hconcat, List.drop_append_of_le_length (by omega)]
        exact List.mem_append_right _ List.mem_cons_self
      exact absurd (hacross.subset hmem) (by decide)

end Declaration

/-! ### Instances and their number -/

/-- Increasing numbers are as many as there are. -/
private theorem length_eq_ncard {indices : List Nat} (h : indices.Pairwise (· < ·)) :
    indices.length = {i | i ∈ indices}.ncard := by
  have hnodup : indices.Nodup := h.imp Nat.ne_of_lt
  have hset : {i | i ∈ indices} = (indices.toFinset : Set Nat) := by
    ext i
    exact List.mem_toFinset.symm
  rw [hset, Set.ncard_coe_finset, List.toFinset_card_of_nodup hnodup]

/-- **The number of declarations** is the number of places where one starts. -/
theorem Declaration.countIn_eq_ncard (c : Text) : countIn c = {i | StartsAt c i}.ncard := by
  have hindices : ((all c).map Prod.fst).Pairwise (· < ·) :=
    List.pairwise_map.mpr (pairwise_all c)
  have hset : {i | StartsAt c i} = {i | i ∈ (all c).map Prod.fst} := by
    ext i
    constructor
    · rintro ⟨d, hd⟩
      exact List.mem_map.mpr ⟨(i, d), mem_all_iff.mpr hd, rfl⟩
    · intro hi
      obtain ⟨⟨i, d⟩, hd, rfl⟩ := List.mem_map.mp hi
      exact ⟨d, mem_all_iff.mp hd⟩
  rw [hset, ← length_eq_ncard hindices, List.length_map]
  rfl

namespace Layout

variable {c : Text}

/-- **An index lies in the data section** of a content. -/
def InData (c : Text) (i : Nat) : Prop :=
  ∃ s, (of c).data = some s ∧ s.offset ≤ i ∧ i < s.offset + s.text.length

/-- **An instance tells of a declaration** at an index of a content: its label, its type and the
line of its number sign. -/
def TellsOf (c : Text) (i : Nat) (instanceAt : Instance) : Prop :=
  ∃ (d : Declaration) (l : Text), Declaration.StandsAt c i d ∧
    instanceAt.label = "#" ++ d.number ∧ instanceAt.typeName = d.typeName ∧
      c.LiesIn i instanceAt.line l

/-- **The instances** are the declarations that start in the data section, from left to right. -/
theorem exists_starts (c : Text) : ∃ starts : List Nat, starts.Pairwise (· < ·) ∧
    (∀ i, i ∈ starts ↔ Declaration.StartsAt c i ∧ InData c i) ∧
    List.Forall₂ (TellsOf c) starts (of c).instances := by
  unfold instances
  cases hdata : (of c).data with
  | none =>
    refine ⟨[], List.Pairwise.nil, fun i => iff_of_false List.not_mem_nil ?_, List.Forall₂.nil⟩
    rintro ⟨-, s, hs, -⟩
    rw [hdata] at hs
    cases hs
  | some s =>
    -- places in the section are moved by its own place
    have hsection : Section.find? Marker.data c = some s := hdata
    refine ⟨(Declaration.all s.text).map fun p => s.offset + p.1, ?_, fun i => ?_, ?_⟩
    · rw [List.pairwise_map]
      exact (Declaration.pairwise_all s.text).imp (Nat.add_lt_add_left · s.offset)
    · constructor
      · intro hi
        obtain ⟨⟨k, d⟩, hk, rfl⟩ := List.mem_map.mp hi
        obtain ⟨hlt, hstands⟩ := (Declaration.standsAt_section_iff hsection).mp
          (Declaration.mem_all_iff.mp hk)
        exact ⟨⟨d, hstands⟩, s, hdata, Nat.le_add_right _ _, Nat.add_lt_add_left hlt _⟩
      · rintro ⟨⟨d, hstands⟩, s', hs', hle, hlt⟩
        rw [hdata] at hs'
        cases hs'
        obtain ⟨k, rfl⟩ := Nat.exists_eq_add_of_le hle
        have hk := (Declaration.standsAt_section_iff hsection).mpr
          ⟨Nat.lt_of_add_lt_add_left hlt, hstands⟩
        exact List.mem_map.mpr ⟨(k, d), Declaration.mem_all_iff.mpr hk, rfl⟩
    · rw [List.forall₂_map_left_iff, List.forall₂_map_right_iff, List.forall₂_same]
      rintro ⟨k, d⟩ hk
      obtain ⟨-, hstands⟩ := (Declaration.standsAt_section_iff hsection).mp
        (Declaration.mem_all_iff.mp hk)
      have hlt := Declaration.StartsAt.lt_length ⟨d, hstands⟩
      obtain ⟨l, hl⟩ := Text.liesIn_lineAt (Nat.le_of_lt hlt)
      exact ⟨d, l, hstands, rfl, rfl, hl⟩

/-- Without a data section there are no instances. -/
theorem instances_eq_nil {l : Layout} (h : l.data = none) : l.instances = [] := by
  unfold instances
  rw [h]

/-- **The lines of the instances** never decrease. -/
theorem pairwise_lines (c : Text) :
    ((of c).instances.map Instance.line).Pairwise (· ≤ ·) := by
  unfold instances
  cases (of c).data with
  | none => exact List.Pairwise.nil
  | some s =>
    rw [List.map_map, List.pairwise_map]
    refine (Declaration.pairwise_all s.text).imp fun hlt => ?_
    exact c.lineAt_le_lineAt (Nat.add_le_add_left (Nat.le_of_lt hlt) s.offset)

/-- **The number of instances.** -/
theorem length_instances (c : Text) :
    (of c).instances.length = {i | Declaration.StartsAt c i ∧ InData c i}.ncard := by
  obtain ⟨starts, hincreasing, hmem, htells⟩ := exists_starts c
  have hset : {i | Declaration.StartsAt c i ∧ InData c i} = {i | i ∈ starts} := by
    ext i
    exact (hmem i).symm
  rw [hset, ← length_eq_ncard hincreasing, htells.length_eq]

end Layout

/-! ### What the checks make of it -/

/-- **The only outcome that has passed** states the number of instances, if there are some. -/
theorem EntityTypes.mem_check_passed_iff (rules : EntityRules) {l : Layout} {f : Finding} :
    f ∈ check rules l ∧ f.severity = .passed ↔ l.instances ≠ [] ∧ f = countFinding l.instances := by
  unfold check
  cases hdata : l.data with
  | none =>
    refine iff_of_false ?_ fun h => h.1 (Layout.instances_eq_nil hdata)
    rintro ⟨hf, hseverity⟩
    rw [List.mem_singleton.mp hf] at hseverity
    cases hseverity
  | some data =>
    dsimp only
    -- a section without declarations is warned of, and has no count
    by_cases hnone : l.instances = []
    · rw [hnone]
      refine iff_of_false ?_ fun h => h.1 rfl
      rintro ⟨hf, hseverity⟩
      rw [List.mem_singleton.mp hf] at hseverity
      cases hseverity
    · rw [if_neg (mt List.isEmpty_iff.mp hnone), List.mem_cons]
      constructor
      · rintro ⟨rfl | hf, hseverity⟩
        · exact ⟨hnone, rfl⟩
        · -- behind it there is at most a warning
          split at hf
          · cases hf
          · rw [List.mem_singleton.mp hf] at hseverity
            cases hseverity
      · rintro ⟨-, rfl⟩
        exact ⟨.inl rfl, rfl⟩

/-- **The number that is stated** about the entity types of a content. -/
theorem CheckGroup.states_number_iff (P : Policy) (c : Text) (n : Nat) :
    (∃ o ∈ CheckGroup.entities.outcomes P (Layout.of c),
        o.rule = some Rule.entityInstancesPresent.name ∧ o.severity = .passed ∧
          o.observed = Text.ofNat n ++ " IFC entities found and recognized") ↔
      0 < n ∧ n = (Layout.of c).instances.length := by
  constructor
  · rintro ⟨o, ho, -, hseverity, hobserved⟩
    obtain ⟨f, hf, rfl⟩ := List.mem_map.mp ho
    obtain ⟨hne, rfl⟩ := (EntityTypes.mem_check_passed_iff _).mp ⟨hf, hseverity⟩
    have hnumeral := List.append_cancel_right hobserved
    have hnumber := congrArg (Text.numeral 10) hnumeral
    rw [Text.numeral_ofNat, Text.numeral_ofNat] at hnumber
    exact ⟨hnumber ▸ List.length_pos_of_ne_nil hne, hnumber.symm⟩
  · rintro ⟨hpos, rfl⟩
    have hne : (Layout.of c).instances ≠ [] := List.ne_nil_of_length_pos hpos
    have hmem := (EntityTypes.mem_check_passed_iff P.entities).mpr ⟨hne, rfl⟩
    exact ⟨_, List.mem_map_of_mem hmem.1, rfl, rfl, rfl⟩

namespace Layout

/-- **What is to be said about the declarations** of a content. -/
structure ListsDeclarations (c : Text) : Prop where
  /-- All of them are counted. -/
  counted : Declaration.countIn c = {i | Declaration.StartsAt c i}.ncard
  /-- By that number the time is estimated. -/
  estimated : ∀ k : Coefficients Float, k.estimate c
    = larger k.least (smaller k.most (Binary64.ofInt c.length / Binary64.ofInt 1000 * k.perKilochar
      + Binary64.ofInt {i | Declaration.StartsAt c i}.ncard * k.perEntity
      + Binary64.ofInt c.lineCount / Binary64.ofInt 100 * k.perHundredLines))
  /-- Those that start in the data section are listed, in the order of the file, each once. -/
  listed : ∃ starts : List Nat, starts.Pairwise (· < ·) ∧
    (∀ i, i ∈ starts ↔ Declaration.StartsAt c i ∧ InData c i) ∧
    List.Forall₂ (TellsOf c) starts (of c).instances
  /-- Their lines never decrease. -/
  lines : ((of c).instances.map Instance.line).Pairwise (· ≤ ·)
  /-- None is listed without a data section. -/
  absent : (of c).data = none → (of c).instances = []
  /-- The number that is stated about them, if there are some, is theirs. -/
  stated : ∀ (P : Policy) (n : Nat), (∃ o ∈ CheckGroup.entities.outcomes P (of c),
      o.rule = some Rule.entityInstancesPresent.name ∧ o.severity = .passed ∧
        o.observed = Text.ofNat n ++ " IFC entities found and recognized") ↔
    0 < n ∧ n = {i | Declaration.StartsAt c i ∧ InData c i}.ncard
  /-- It is never greater than the number of all. -/
  stated_le : {i | Declaration.StartsAt c i ∧ InData c i}.ncard
    ≤ {i | Declaration.StartsAt c i}.ncard
  /-- They are equal just when no declaration starts outside of the data section. -/
  stated_eq_iff : {i | Declaration.StartsAt c i ∧ InData c i}.ncard
    = {i | Declaration.StartsAt c i}.ncard ↔ ∀ i, Declaration.StartsAt c i → InData c i

/-- **The declarations of a content**, whatever stands in it: with records that are cut off, that
run into each other or into the end of the section, and with numbers in any digits. -/
theorem lists_declarations (c : Text) : ListsDeclarations c := by
  have hcounted := Declaration.countIn_eq_ncard c
  have hsubset : {i | Declaration.StartsAt c i ∧ InData c i} ⊆ {i | Declaration.StartsAt c i} :=
    fun i hi => hi.1
  have hfinite : {i | Declaration.StartsAt c i}.Finite :=
    (Set.finite_lt_nat c.length).subset fun i hi => Declaration.StartsAt.lt_length hi
  refine ⟨hcounted, fun k => ?_, exists_starts c, pairwise_lines c, instances_eq_nil, fun P n => ?_,
    Set.ncard_le_ncard hsubset hfinite, ?_⟩
  · rw [← hcounted]
    rfl
  · rw [CheckGroup.states_number_iff, length_instances]
  · -- there are as many inside as in all just if all are inside
    constructor
    · intro heq i hi
      have hsame := Set.eq_of_subset_of_ncard_le hsubset (Nat.le_of_eq heq.symm) hfinite
      have hmem : i ∈ {i | Declaration.StartsAt c i} := hi
      rw [← hsame] at hmem
      exact hmem.2
    · intro hinside
      congr 1
      ext i
      exact and_iff_left_of_imp (hinside i)

end Layout

end StepCheck
