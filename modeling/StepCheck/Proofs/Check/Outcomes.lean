import StepCheck.Proofs.Check.Grammar
import StepCheck.Proofs.Text.Search

/-!
# From outcomes back to findings

Reports refer to rules by their names. A name tells the rule, and the rule tells the group of checks
that has spoken of it, so what a report says about a rule can be traced back to the one check that
could have said it.

* `CheckGroup.exists_of_rule` — an outcome about a rule comes from a finding of the group of checks
  to which the rule belongs;
* `CheckGroup.outcomesAbout` — all outcomes about some rules, and the findings that they come from
  (`CheckGroup.outcomesAbout_eq`);
* `Envelope.eq_encodingFinding` — the one finding about the encoding of characters;
* `Header.cases_of_mem_check`, `EntityTypes.cases_of_mem_check`, `Business.cases_of_mem_check` — the
  findings that a group may make, each with what has to be there for it;
* `Business.filter_check` — those of a group that are about some of its rules;
* `CheckGroup.length_outcomes_le` — how many outcomes there can be.
-/

namespace StepCheck

/-! ### Names and groups -/

/-- **The name** tells the rule. -/
theorem Rule.name_injective : Function.Injective Rule.name := by
  have hnodup : (Rule.all.map Rule.name).Nodup := by decide +kernel
  intro r r' h
  exact List.inj_on_of_nodup_map hnodup r.mem_all r'.mem_all h

/-- **The rule** tells the group of checks. -/
theorem Rule.group_eq {r : Rule} {group group' : CheckGroup} (h : r ∈ ofGroup group)
    (h' : r ∈ ofGroup group') : group = group' := by
  have hall : ∀ g ∈ CheckGroup.all, ∀ r ∈ ofGroup g, ∀ g' ∈ CheckGroup.all, r ∈ ofGroup g' →
      g = g' := by
    decide
  exact hall group group.mem_all r h group' group'.mem_all h'

namespace CheckGroup

variable {policy : Policy} {l : Layout} {o : Outcome}

/-- Every outcome comes from a finding of some group. -/
theorem exists_of_mem_outcomes (ho : o ∈ all.flatMap (outcomes policy l)) :
    ∃ group f, f ∈ findings policy l group ∧ o = f.outcome group := by
  obtain ⟨group, -, ho⟩ := List.mem_flatMap.mp ho
  obtain ⟨f, hf, rfl⟩ := List.mem_map.mp ho
  exact ⟨group, f, hf, rfl⟩

/-- Every finding of a group has its outcome in the report. -/
theorem mem_outcomes {group : CheckGroup} {f : Finding} (hf : f ∈ findings policy l group) :
    f.outcome group ∈ all.flatMap (outcomes policy l) :=
  List.mem_flatMap.mpr ⟨group, group.mem_all, List.mem_map_of_mem hf⟩

/-- **An outcome about a rule** comes from a finding about it, of the group to which it belongs. -/
theorem exists_of_rule {group : CheckGroup} {rule : Rule} (hgroup : rule ∈ Rule.ofGroup group)
    (ho : o ∈ all.flatMap (outcomes policy l)) (hr : o.rule = some rule.name) :
    ∃ f ∈ findings policy l group, f.rule = rule ∧ o = f.outcome group := by
  obtain ⟨group', f, hf, rfl⟩ := exists_of_mem_outcomes ho
  rw [Finding.outcome_rule, Option.some.injEq] at hr
  obtain rfl := Rule.name_injective hr
  obtain rfl := Rule.group_eq (mem_ofGroup_of_mem_table (regular_of_mem_findings hf).row) hgroup
  exact ⟨f, hf, rfl, rfl⟩

/-- **The outcomes about some rules**, in the order of the report. -/
def outcomesAbout (policy : Policy) (l : Layout) (rules : List Rule) : List Outcome :=
  (all.flatMap (outcomes policy l)).filter fun o => o.rule ∈ rules.map (some ∘ Rule.name)

/-- The outcomes about one rule are told by its name. -/
theorem outcomesAbout_singleton (policy : Policy) (l : Layout) (rule : Rule) :
    outcomesAbout policy l [rule]
      = (all.flatMap (outcomes policy l)).filter fun o => o.rule = some rule.name := by
  unfold outcomesAbout
  simp only [List.map_cons, List.map_nil, List.mem_singleton, Function.comp_apply]

/-- **The outcomes about some rules** come from the findings about these rules, if one group of
checks has all of them. -/
theorem outcomesAbout_eq {group : CheckGroup} {rules : List Rule}
    (hgroup : ∀ rule ∈ rules, rule ∈ Rule.ofGroup group) :
    outcomesAbout policy l rules
      = ((group.findings policy l).filter fun f => f.rule ∈ rules).map (Finding.outcome group) := by
  -- names are as good as the rules themselves
  have hfilter : ∀ g, (outcomes policy l g).filter (fun o => o.rule ∈ rules.map (some ∘ Rule.name))
      = ((g.findings policy l).filter fun f => f.rule ∈ rules).map (Finding.outcome g) := by
    intro g
    unfold outcomes
    rw [List.filter_map]
    congr 1
    refine List.filter_congr fun f _ => ?_
    show decide ((f.outcome g).rule ∈ _) = _
    rw [Finding.outcome_rule, decide_eq_decide, ← Function.comp_apply (f := some) (g := Rule.name),
      List.mem_map_of_injective ((Option.some_injective _).comp Rule.name_injective)]
  -- the other groups of checks have no finding about any of the rules
  have hgroups : ∀ g, (outcomes policy l g).filter (fun o => o.rule ∈ rules.map (some ∘ Rule.name))
      = if g = group then
          ((group.findings policy l).filter fun f => f.rule ∈ rules).map (Finding.outcome group)
        else [] := by
    intro g
    rw [hfilter]
    split
    · next heq => rw [heq]
    · next hne =>
      rw [List.map_eq_nil_iff, List.filter_eq_nil_iff]
      intro f hf hrule
      apply hne
      exact Rule.group_eq (mem_ofGroup_of_mem_table (regular_of_mem_findings hf).row)
        (hgroup f.rule (of_decide_eq_true hrule))
  unfold outcomesAbout
  rw [List.filter_flatMap, funext hgroups]
  cases group <;>
    simp only [all, List.flatMap_cons, List.flatMap_nil, reduceCtorEq, if_true, if_false,
      List.nil_append, List.append_nil]

end CheckGroup

/-! ### Which finding speaks of a rule -/

/-- The finding about the encoding of characters. -/
theorem Envelope.eq_encodingFinding {l : Layout} {f : Finding} (hf : f ∈ check l)
    (hr : f.rule = .characterEncoding) : f = encodingFinding l := by
  rw [check_eq] at hf
  simp only [List.mem_append, Option.mem_toList, List.mem_singleton] at hf
  obtain ((((h | h) | h) | h) | h) | rfl := hf
  · rw [(startFinding_spec h).1] at hr; cases hr
  · rw [(finishFinding_spec h).1] at hr; cases hr
  · rw [(balanceFinding_spec h).1] at hr; cases hr
  · rw [rule_sectionFinding h] at hr; cases hr
  · rw [rule_sectionFinding h] at hr; cases hr
  · rfl

/-- A finding about the header: there is none, or it is about one of its records. -/
theorem Header.cases_of_mem_check {rules : SchemaRules} {l : Layout} {f : Finding}
    (hf : f ∈ check rules l) :
    f = missingFinding l ∨ ∃ header, l.header = some header ∧
      (f = recordFinding l header "FILE_DESCRIPTION" .fileDescriptionRequired ∨
        f = recordFinding l header "FILE_NAME" .fileNameRequired ∨
        f = schemaFinding l rules header) := by
  unfold check at hf
  split at hf
  · exact .inl (List.mem_singleton.mp hf)
  · next header hheader =>
    simp only [List.mem_cons, List.not_mem_nil, or_false] at hf
    exact .inr ⟨header, hheader, hf⟩

/-- A finding about entity types: there is no section for them, none is declared, or there are some,
perhaps with unknown ones among them. -/
theorem EntityTypes.cases_of_mem_check {rules : EntityRules} {l : Layout} {f : Finding}
    (hf : f ∈ check rules l) :
    (f = missingFinding l ∧ l.data = none) ∨
      (∃ data, l.data = some data ∧ f = emptyFinding data) ∨
      f = countFinding l.instances ∨
      ∃ first others, unknown rules.known l.instances = first :: others ∧
        f = unknownFinding rules first others := by
  unfold check at hf
  split at hf
  · next hdata => exact .inl ⟨List.mem_singleton.mp hf, hdata⟩
  · next data hdata =>
    dsimp only at hf
    split at hf
    · exact .inr (.inl ⟨data, hdata, List.mem_singleton.mp hf⟩)
    · -- there are some: they are counted, and unknown ones among them are told of
      rcases List.mem_cons.mp hf with rfl | hf
      · exact .inr (.inr (.inl rfl))
      · split at hf
        · cases hf
        · next first others hunknown =>
          exact .inr (.inr (.inr ⟨first, others, hunknown, List.mem_singleton.mp hf⟩))

/-- A finding about the rules of the trade. -/
theorem Business.cases_of_mem_check {policy : Policy} {l : Layout} {f : Finding}
    (hf : f ∈ check policy l) :
    f = rootFinding policy.spatial l ∨ f = containerFinding policy.spatial l ∨
      f ∈ propertySetFindings policy.propertySets l ∨ f = geometryFinding policy.geometry l := by
  unfold check at hf
  simp only [List.mem_append, List.mem_cons, List.not_mem_nil, or_false] at hf
  obtain (hf | hf | hf) | hf := hf
  · exact .inl hf
  · exact .inr (.inl hf)
  · exact .inr (.inr (.inl hf))
  · exact .inr (.inr (.inr hf))

/-- The finding about the root is about none of the other rules. -/
theorem Business.rule_rootFinding_notMem (spatial : SpatialRules) (l : Layout) {rules : List Rule}
    (hmissing : Rule.projectRequired ∉ rules) (hseveral : Rule.singleProject ∉ rules) :
    (rootFinding spatial l).rule ∉ rules := by
  rcases (rootFinding_spec spatial l).1 with h | h
  · rwa [h]
  · rwa [h]

/-- **The findings about some rules of the trade**: there is one about the root, one about the
container and one about the geometry, with those about property sets among them. -/
theorem Business.filter_check (policy : Policy) (l : Layout) (rules : List Rule) :
    (check policy l).filter (fun f => f.rule ∈ rules)
      = (if (rootFinding policy.spatial l).rule ∈ rules then [rootFinding policy.spatial l] else [])
        ++ (if Rule.siteRecommended ∈ rules then [containerFinding policy.spatial l] else [])
        ++ (if Rule.standardPropertySets ∈ rules then propertySetFindings policy.propertySets l
          else [])
        ++ (if Rule.geometryPresent ∈ rules then [geometryFinding policy.geometry l] else []) := by
  have hone : ∀ f : Finding, [f].filter (fun f => decide (f.rule ∈ rules))
      = if f.rule ∈ rules then [f] else [] := by
    intro f
    simp only [List.filter_cons, List.filter_nil, decide_eq_true_eq]
  have hsets : (propertySetFindings policy.propertySets l).filter (fun f => f.rule ∈ rules)
      = if Rule.standardPropertySets ∈ rules then propertySetFindings policy.propertySets l
        else [] := by
    have hrule := (propertySetFindings_spec policy.propertySets l).2
    split
    · next hmem =>
      rw [List.filter_eq_self]
      intro f hf
      rwa [(hrule f hf).1, decide_eq_true_eq]
    · next hmem =>
      rw [List.filter_eq_nil_iff]
      intro f hf
      rwa [(hrule f hf).1, decide_eq_true_eq]
  -- of a single finding the rule decides, and of those about property sets it is always the same
  show ([_] ++ [_] ++ propertySetFindings policy.propertySets l ++ [_]).filter _ = _
  rw [List.filter_append, List.filter_append, List.filter_append, hone, hone, hone, hsets,
    (containerFinding_spec policy.spatial l).1, (geometryFinding_spec policy.geometry l).1]

/-- **The outcomes about property sets** are those of the findings about them. -/
theorem CheckGroup.outcomesAbout_propertySets (policy : Policy) (l : Layout) :
    outcomesAbout policy l [.standardPropertySets]
      = (Business.propertySetFindings policy.propertySets l).map (Finding.outcome business) := by
  have hgroup : ∀ rule ∈ [Rule.standardPropertySets], rule ∈ Rule.ofGroup business := by decide
  have hroot : (Business.rootFinding policy.spatial l).rule ∉ [Rule.standardPropertySets] :=
    Business.rule_rootFinding_notMem policy.spatial l (by decide) (by decide)
  calc outcomesAbout policy l [.standardPropertySets]
      = ((Business.check policy l).filter fun f => f.rule ∈ [Rule.standardPropertySets]).map
          (Finding.outcome business) := outcomesAbout_eq hgroup
    _ = (Business.propertySetFindings policy.propertySets l).map (Finding.outcome business) := by
        rw [Business.filter_check, if_neg hroot]
        simp

/-! ### How many outcomes there are -/

/-- **A report is not much longer than the content**: only property sets are told one by one. -/
theorem CheckGroup.length_outcomes_le (policy : Policy) (l : Layout) :
    (all.flatMap (outcomes policy l)).length ≤ l.content.length + 18 := by
  -- each group of checks has a fixed number of findings at most, apart from property sets, of which
  -- there are no more than code points
  have henvelope : (Envelope.check l).length ≤ 6 := by
    have hoption : ∀ o : Option Finding, o.toList.length ≤ 1 := by
      intro o
      cases o
      · exact Nat.zero_le 1
      · exact Nat.le_refl 1
    have hstart := hoption (Envelope.startFinding l)
    have hfinish := hoption (Envelope.finishFinding l)
    have hbalance := hoption (Envelope.balanceFinding l)
    have hheader := hoption (Envelope.sectionFinding l .requiredHeaderSection "HEADER"
      Marker.header)
    have hdata := hoption (Envelope.sectionFinding l .requiredDataSection "DATA" Marker.data)
    rw [Envelope.check_eq]
    simp only [List.length_append, List.length_singleton]
    omega
  have hheader : (Header.check policy.schemas l).length ≤ 3 := by
    unfold Header.check
    split <;> simp
  have hentities : (EntityTypes.check policy.entities l).length ≤ 2 := by
    unfold EntityTypes.check
    split
    · simp
    · dsimp only
      split
      · simp
      · split <;> simp
  have hbusiness : (Business.check policy l).length ≤ l.content.length + 4 := by
    have hsets : (Business.propertySetFindings policy.propertySets l).length
        ≤ l.content.length + 1 := by
      have hle := Text.length_occurrences_le l.content (PropertySets.atFront? policy.propertySets)
      unfold Business.propertySetFindings
      split
      · exact Nat.succ_le_succ (Nat.zero_le _)
      · rw [List.length_map]
        exact hle.trans (Nat.le_succ _)
    simp only [Business.check, List.length_append, List.length_cons, List.length_nil]
    omega
  have hpractice : (Practice.check policy.practice l).length = 3 := rfl
  simp only [all, List.flatMap_cons, List.flatMap_nil, outcomes, findings, List.length_append,
    List.length_map, List.length_nil]
  omega

end StepCheck
