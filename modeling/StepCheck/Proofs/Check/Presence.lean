import StepCheck.Proofs.Check.Outcomes
import StepCheck.Proofs.Check.Verdict
import StepCheck.Proofs.Text.Counting

/-!
# Names that occur

Some rules ask no more than that a name occurs in the content in capitals, and the rule about the
root of the spatial structure asks that its name occurs once. Occurrences are counted without
overlap, which matters for a root that overlaps with itself. What occurs still occurs when something
is put around the content: capitals are formed character by character, so the capitals of the whole
hold those of each part. A file with too many roots cannot be mended by adding to it, nor can a rule
be broken that asks for presence.

* `Policy.rootsIn` — how often the root occurs;
* `TellsRoots` — what is said about the root, given this number;
* `Policy.sought`, `passes_iff` — the rules that ask for presence, and when they pass;
* `CountsRoots` — what is to be said about counting and presence under a policy;
* `counts_roots` — it holds under every policy with a root that has a name.
-/

namespace StepCheck

open CheckGroup (outcomesAbout)

variable {P : Policy} {c : Text} {rule : Rule}

/-! ### The root of the spatial structure -/

/-- **How often the root occurs** in a content in capitals, counted without overlap. -/
def Policy.rootsIn (P : Policy) (c : Text) : Nat := P.spatial.root.countIn c.upper

/-- The rules about the root. -/
def rootRules : List Rule := [.projectRequired, .singleProject]

/-- **What is said about the root** of the given name, if it occurs `n` times. -/
structure TellsRoots (root : Text) (n : Nat) (o : Outcome) : Prop where
  missing : n = 0 → o.severity = .error ∧ o.code = .relationshipError ∧
    o.rule = some Rule.projectRequired.name
  single : n = 1 → o.severity = .passed ∧ o.code = .passed ∧
    o.rule = some Rule.projectRequired.name
  /-- The number is stated. -/
  several : 2 ≤ n → o.severity = .error ∧ o.code = .cardinalityError ∧
    o.rule = some Rule.singleProject.name ∧
    o.observed = "Multiple " ++ root ++ " instances found (" ++ Text.ofNat n
      ++ "); only one is allowed"

/-- **The finding about the root** tells how many there are. -/
theorem Business.tells_rootFinding (rules : SpatialRules) (l : Layout) :
    TellsRoots rules.root (rules.root.countIn l.capitals)
      ((rootFinding rules l).outcome .business) := by
  unfold rootFinding
  dsimp only
  -- each of the three cases is the case of one number, and excludes the other two
  split
  · next h =>
    rw [h]
    exact ⟨fun _ => ⟨rfl, rfl, rfl⟩, nofun, nofun⟩
  · next h =>
    rw [h]
    exact ⟨nofun, fun _ => ⟨rfl, rfl, rfl⟩, fun hle => absurd hle (by decide)⟩
  · next hzero hone =>
    exact ⟨fun h => absurd h hzero, fun h => absurd h hone, fun _ => ⟨rfl, rfl, rfl, rfl⟩⟩

/-- **There is one outcome about the root**, by the number of its occurrences. -/
theorem exists_tellsRoots (P : Policy) (c : Text) :
    ∃ o, outcomesAbout P (Layout.of c) rootRules = [o] ∧
      TellsRoots P.spatial.root (P.rootsIn c) o := by
  have hgroup : ∀ rule ∈ rootRules, rule ∈ Rule.ofGroup .business := by decide
  refine ⟨_, ?_, Business.tells_rootFinding P.spatial (Layout.of c)⟩
  have hroot : (Business.rootFinding P.spatial (Layout.of c)).rule ∈ rootRules := by
    rcases (Business.rootFinding_spec P.spatial (Layout.of c)).1 with h | h <;>
    · rw [h]
      decide
  rw [CheckGroup.outcomesAbout_eq hgroup]
  show ((Business.check P _).filter _).map _ = _
  rw [Business.filter_check, if_pos hroot]
  rfl

/-- **A file is rejected for several roots.** -/
def RejectsRoots (P : Policy) (c : Text) : Prop :=
  ∃ o, outcomesAbout P (Layout.of c) rootRules = [o] ∧ o.severity = .error ∧
    o.code = .cardinalityError

/-- Several roots are rejected, and just those. -/
theorem rejectsRoots_iff : RejectsRoots P c ↔ 2 ≤ P.rootsIn c := by
  obtain ⟨o, ho, htells⟩ := exists_tellsRoots P c
  constructor
  · rintro ⟨o', ho', -, hcode⟩
    obtain rfl : o = o' := List.singleton_inj.mp (ho.symm.trans ho')
    -- neither of the other two outcomes has this code
    by_contra hlt
    obtain hzero | hone : P.rootsIn c = 0 ∨ P.rootsIn c = 1 := by omega
    · rw [(htells.missing hzero).2.1] at hcode
      cases hcode
    · rw [(htells.single hone).2.1] at hcode
      cases hcode
  · intro hle
    obtain ⟨hseverity, hcode, -⟩ := htells.several hle
    exact ⟨o, ho, hseverity, hcode⟩

/-! ### Presence -/

/-- **The rules that ask for presence**: of a site, a geometry, an owner, units and materials. -/
def presenceRules : List Rule :=
  [.siteRecommended, .geometryPresent, .ownerHistory, .units, .materials]

/-- **The names that a rule asks for**, one of which has to occur. -/
def Policy.sought (P : Policy) : Rule → List Text
  | .siteRecommended => [P.spatial.container]
  | .geometryPresent => P.geometry.entities
  | .ownerHistory => [P.practice.ownerHistory]
  | .units => [P.practice.unitAssignment]
  | .materials => P.practice.materials
  | _ => []

/-- **A rule passes** if the one outcome about it says so. -/
def Passes (P : Policy) (c : Text) (rule : Rule) : Prop :=
  ∃ o, outcomesAbout P (Layout.of c) [rule] = [o] ∧ o.severity = .passed

/-- The container passes if its name is somewhere in the capitals. -/
theorem Business.containerFinding_passed_iff (rules : SpatialRules) (l : Layout) :
    (containerFinding rules l).severity = .passed ↔
      ∃ name ∈ [rules.container], name <:+: l.capitals := by
  simp only [List.mem_singleton, exists_eq_left, ← Text.occursIn_iff]
  unfold containerFinding
  split
  · next h => exact iff_of_true rfl h
  · next h => exact iff_of_false nofun h

/-- Geometry passes if one of its names is somewhere in the capitals. -/
theorem Business.geometryFinding_passed_iff (rules : GeometryRules) (l : Layout) :
    (geometryFinding rules l).severity = .passed ↔
      ∃ name ∈ rules.entities, name <:+: l.capitals := by
  simp only [← Text.occursIn_iff]
  unfold geometryFinding
  split
  · next entity h =>
    have hoccurs := List.find?_some h
    exact iff_of_true rfl ⟨entity, List.mem_of_find?_eq_some h, hoccurs⟩
  · next h =>
    refine iff_of_false nofun ?_
    rintro ⟨entity, hmem, hoccurs⟩
    exact List.find?_eq_none.mp h entity hmem hoccurs

/-- A recommendation is passed just if one of its entities occurs in the file. -/
theorem Practice.presence_passed_iff (l : Layout) (entities : List Text) (code : Code) (rule : Rule)
    (found missing : Text) :
    (presence l entities code rule found missing).severity = .passed ↔
      ∃ name ∈ entities, name <:+: l.capitals := by
  simp only [← Text.occursIn_iff, ← List.any_eq_true]
  unfold presence
  split
  · next h => exact iff_of_true rfl h
  · next h => exact iff_of_false nofun h

/-- There are three findings about recommended practice. -/
theorem Practice.exists_check (rules : PracticeRules) (l : Layout) :
    ∃ owner units materials, check rules l = [owner, units, materials] ∧
      (owner.rule = .ownerHistory ∧ (owner.severity = .passed ↔
        ∃ name ∈ [rules.ownerHistory], name <:+: l.capitals)) ∧
      (units.rule = .units ∧ (units.severity = .passed ↔
        ∃ name ∈ [rules.unitAssignment], name <:+: l.capitals)) ∧
      (materials.rule = .materials ∧ (materials.severity = .passed ↔
        ∃ name ∈ rules.materials, name <:+: l.capitals)) :=
  ⟨_, _, _, rfl, ⟨rule_presence .., presence_passed_iff ..⟩,
    ⟨rule_presence .., presence_passed_iff ..⟩, ⟨rule_presence .., presence_passed_iff ..⟩⟩

/-- **A rule that asks for presence passes** just when one of the names occurs in the capitals. -/
theorem passes_iff (hrule : rule ∈ presenceRules) :
    Passes P c rule ↔ ∃ name ∈ P.sought rule, name <:+: c.upper := by
  -- the group of the rule makes one finding about it, which tells whether a name occurs
  have hone : ∃ group f, rule ∈ Rule.ofGroup group ∧
      (group.findings P (Layout.of c)).filter (fun f => f.rule ∈ [rule]) = [f] ∧
      (f.severity = .passed ↔ ∃ name ∈ P.sought rule, name <:+: c.upper) := by
    obtain ⟨owner, units, materials, hcheck, ⟨howner', howner⟩, ⟨hunits', hunits⟩, hmaterials',
      hmaterials⟩ := Practice.exists_check P.practice (Layout.of c)
    have hpractice : ∀ rule f, [owner, units, materials].filter (fun f => f.rule ∈ [rule]) = [f] →
        (CheckGroup.practice.findings P (Layout.of c)).filter (fun f => f.rule ∈ [rule]) = [f] := by
      intro rule f hf
      show (Practice.check P.practice (Layout.of c)).filter _ = _
      rw [hcheck, hf]
    simp only [presenceRules, List.mem_cons, List.not_mem_nil, or_false] at hrule
    rcases hrule with rfl | rfl | rfl | rfl | rfl
    · refine ⟨.business, Business.containerFinding P.spatial (Layout.of c), by decide, ?_,
        Business.containerFinding_passed_iff _ _⟩
      show (Business.check P _).filter _ = _
      rw [Business.filter_check,
        if_neg (Business.rule_rootFinding_notMem _ _ (by decide) (by decide))]
      rfl
    · refine ⟨.business, Business.geometryFinding P.geometry (Layout.of c), by decide, ?_,
        Business.geometryFinding_passed_iff _ _⟩
      show (Business.check P _).filter _ = _
      rw [Business.filter_check,
        if_neg (Business.rule_rootFinding_notMem _ _ (by decide) (by decide))]
      rfl
    -- the three rules of practice, each with one of the three findings of its group
    · refine ⟨.practice, owner, by decide, hpractice _ _ ?_, howner⟩
      simp [howner', hunits', hmaterials']
    · refine ⟨.practice, units, by decide, hpractice _ _ ?_, hunits⟩
      simp [howner', hunits', hmaterials']
    · refine ⟨.practice, materials, by decide, hpractice _ _ ?_, hmaterials⟩
      simp [howner', hunits', hmaterials']
  obtain ⟨group, f, hgroup, hfilter, hpassed⟩ := hone
  have habout : outcomesAbout P (Layout.of c) [rule] = [f.outcome group] := by
    rw [CheckGroup.outcomesAbout_eq (List.forall_mem_singleton.mpr hgroup), hfilter]
    rfl
  unfold Passes
  rw [← hpassed, habout]
  constructor
  · rintro ⟨o, ho, hseverity⟩
    rw [← List.singleton_inj.mp ho] at hseverity
    exact hseverity
  · intro hseverity
    exact ⟨_, rfl, hseverity⟩

/-! ### More text before and behind -/

/-- Too many roots stay too many. -/
theorem RejectsRoots.surrounded (hroot : P.spatial.root ≠ []) (h : RejectsRoots P c)
    (before after : Text) : RejectsRoots P (before ++ c ++ after) := by
  rw [rejectsRoots_iff] at h ⊢
  unfold Policy.rootsIn at h ⊢
  rw [Text.upper_append, Text.upper_append]
  calc 2 ≤ P.spatial.root.countIn c.upper := h
    _ ≤ P.spatial.root.countIn (before.upper ++ c.upper) :=
      (Nat.le_add_left _ _).trans (Text.countIn_add_countIn_le hroot _ _)
    _ ≤ P.spatial.root.countIn (before.upper ++ c.upper ++ after.upper) :=
      (Nat.le_add_right _ _).trans (Text.countIn_add_countIn_le hroot _ _)

/-- A rule that asks for presence passes still. -/
theorem Passes.surrounded (hrule : rule ∈ presenceRules) (h : Passes P c rule)
    (before after : Text) : Passes P (before ++ c ++ after) rule := by
  rw [passes_iff hrule] at h ⊢
  obtain ⟨name, hname, hinfix⟩ := h
  refine ⟨name, hname, hinfix.trans ⟨before.upper, after.upper, ?_⟩⟩
  rw [Text.upper_append, Text.upper_append]

/-- A file that is rejected for several roots is not valid. -/
theorem RejectsRoots.isValid_eq_false (h : RejectsRoots P c) (filename : Text)
    (validationTime estimatedTime : Float) :
    (Report.of filename validationTime estimatedTime
      (CheckGroup.all.flatMap (CheckGroup.outcomes P (Layout.of c)))).isValid = false := by
  obtain ⟨o, ho, hseverity, -⟩ := h
  rw [← Bool.not_eq_true, Report.isValid_of_iff]
  intro hharmless
  have hmem : o ∈ outcomesAbout P (Layout.of c) rootRules := by
    rw [ho]
    exact List.mem_singleton_self o
  exact hharmless o (List.mem_of_mem_filter hmem) hseverity

/-! ### Counting and presence -/

/-- **What is to be said about counting and presence** under a policy. -/
structure CountsRoots (P : Policy) : Prop where
  /-- The count is the greatest number of occurrences in the capitals that do not overlap. -/
  greatest : ∀ c : Text,
    IsGreatest {n | ∃ places, Text.Packs P.spatial.root c.upper places ∧ places.card = n}
      (P.rootsIn c)
  /-- There is one outcome about the root, by the count. -/
  told : ∀ c, ∃ o, outcomesAbout P (Layout.of c) rootRules = [o] ∧
    TellsRoots P.spatial.root (P.rootsIn c) o
  /-- Joined contents have the roots of both, at least. -/
  joined : ∀ a b : Text, P.rootsIn a + P.rootsIn b ≤ P.rootsIn (a ++ b)
  /-- A file that is rejected for several roots stays rejected, and is not valid. -/
  rejected : ∀ before c after : Text, RejectsRoots P c →
    RejectsRoots P (before ++ c ++ after) ∧ ∀ filename validationTime estimatedTime,
      (Report.of filename validationTime estimatedTime (CheckGroup.all.flatMap
        (CheckGroup.outcomes P (Layout.of (before ++ c ++ after))))).isValid = false
  /-- A rule that asks for presence stays passed. -/
  present : ∀ rule ∈ presenceRules, ∀ before c after : Text, Passes P c rule →
    Passes P (before ++ c ++ after) rule

/-- **Counting and presence** under every policy whose root has a name, however it may overlap with
itself. -/
theorem counts_roots {P : Policy} (hroot : P.spatial.root ≠ []) : CountsRoots P where
  greatest c := Text.isGreatest_countIn hroot c.upper
  told c := exists_tellsRoots P c
  joined a b := by
    unfold Policy.rootsIn
    rw [Text.upper_append]
    exact Text.countIn_add_countIn_le hroot a.upper b.upper
  rejected before c after h := by
    have hmore := h.surrounded hroot before after
    exact ⟨hmore, hmore.isValid_eq_false⟩
  present rule hrule before c after h := h.surrounded hrule before after

/-- A policy with a root that overlaps with itself. -/
def overlappingRoot : Policy := { Policy.bundled with spatial := { root := "ANA" } }

/-- Of three occurrences that overlap two are counted, the first and the last. -/
theorem counts_roots_overlappingRoot :
    CountsRoots overlappingRoot ∧ overlappingRoot.rootsIn "banana" = 1 ∧
      overlappingRoot.rootsIn "bananana" = 2 := by
  refine ⟨counts_roots ?_, ?_, ?_⟩ <;> decide +kernel

end StepCheck
