import StepCheck.Proofs.Run.Perform

/-!
# The grammar of reports

Which rules a report speaks of, and in which order, is fixed by a small grammar: every group of
checks has a regular expression over the names of rules, and the findings of the group are always a
word of it. Some rules are named only if something is wrong, some are named exactly once, one is
named for every property set, and where a section is missing nothing else is said about it.

* `CheckGroup.grammar`, `Report.grammar` — the regular expressions;
* `CheckGroup.table` — the severities and codes that an outcome about a rule may have;
* `CheckGroup.names_mem_grammar` — the findings of a group are a word of its grammar;
* `CheckGroup.regular_of_mem_findings` — every finding is a row of the table, about a rule of its
  own group, and described;
* `Report.results_mem_grammar` — the same of the results of every report.
-/

namespace StepCheck

/-! ### Words -/

namespace Grammar

/-- A name that stands exactly once. -/
def once (name : Text) : RegularExpression Text := .char name

/-- A name that may be missing. -/
def optional (name : Text) : RegularExpression Text := 1 + once name

/-- A name that stands once or more often. -/
def repeated (name : Text) : RegularExpression Text := once name * (once name).star

variable {R S : RegularExpression Text} {name : Text} {names more : List Text}

theorem mem_once (name : Text) : [name] ∈ (once name).matches' := rfl

theorem mem_left (h : names ∈ R.matches') : names ∈ (R + S).matches' := .inl h

theorem mem_right (h : names ∈ S.matches') : names ∈ (R + S).matches' := .inr h

/-- Names of one kind and names of another, one after the other. -/
theorem append_mem (h : names ∈ R.matches') (h' : more ∈ S.matches') :
    names ++ more ∈ (R * S).matches' :=
  Language.append_mem_mul h h'

/-- A name as often as one likes, but at least once. -/
theorem mem_repeated (hne : names ≠ []) (h : ∀ n ∈ names, n = name) :
    names ∈ (repeated name).matches' := by
  obtain ⟨first, rest, rfl⟩ := List.exists_cons_of_ne_nil hne
  have hfirst : [first] ∈ (once name).matches' := by
    rw [h first List.mem_cons_self]
    exact mem_once name
  change [first] ++ rest ∈ _
  refine append_mem hfirst ?_
  -- the names behind the first one, each as a word of its own
  rw [RegularExpression.matches'_star, Language.mem_kstar]
  refine ⟨rest.map fun n => [n], ?_, ?_⟩
  · rw [← List.flatMap_def, List.flatMap_singleton']
  · intro word hword
    obtain ⟨n, hn, rfl⟩ := List.mem_map.mp hword
    rw [h n (List.mem_cons_of_mem first hn)]
    exact mem_once name

end Grammar

/-! ### The grammar and the table -/

open Grammar in
/-- **The names of the rules** that a group of checks speaks of, in their order. -/
def CheckGroup.grammar : CheckGroup → RegularExpression Text
  | envelope => optional "STEP_HEADER_START" * optional "STEP_FOOTER_END"
      * optional "BALANCED_PARENTHESES" * optional "REQUIRED_SECTION_HEADER"
      * optional "REQUIRED_SECTION_DATA" * once "CHARACTER_ENCODING"
  | header => once "HEADER_SECTION_REQUIRED"
      + once "FILE_DESCRIPTION_REQUIRED" * once "FILE_NAME_REQUIRED"
        * (once "FILE_SCHEMA_REQUIRED" + once "FILE_SCHEMA_VALIDATION")
  | entities => once "DATA_SECTION_REQUIRED"
      + once "ENTITY_INSTANCES_PRESENT" * optional "ENTITY_TYPE_VALIDATION"
  | business => (once "SPS001_PROJECT_REQUIRED" + once "SPS001_SINGLE_PROJECT")
      * once "SPS001_SITE_RECOMMENDED" * repeated "PSE001_STANDARD_PSETS"
      * once "GEM001_GEOMETRY_PRESENT"
  | practice => once "INDUSTRY_OWNER_HISTORY" * once "INDUSTRY_UNITS" * once "INDUSTRY_MATERIALS"

/-- **The names of the rules** that a report speaks of, group by group. -/
def Report.grammar : RegularExpression Text :=
  CheckGroup.envelope.grammar * CheckGroup.header.grammar * CheckGroup.entities.grammar
    * CheckGroup.business.grammar * CheckGroup.practice.grammar

/-- **The table of outcomes**: the severities and codes that an outcome of a group of checks may
have, by its rule. -/
def CheckGroup.table : CheckGroup → List (Rule × Severity × Code)
  | envelope =>
    [(.headerStart, .error, .syntaxError),
      (.footerEnd, .error, .syntaxError),
      (.balancedParentheses, .error, .syntaxError),
      (.requiredHeaderSection, .error, .syntaxError),
      (.requiredDataSection, .error, .syntaxError),
      (.characterEncoding, .passed, .passed),
      (.characterEncoding, .warning, .syntaxError)]
  | header =>
    [(.headerSectionRequired, .error, .syntaxError),
      (.fileDescriptionRequired, .passed, .passed),
      (.fileDescriptionRequired, .error, .valueError),
      (.fileNameRequired, .passed, .passed),
      (.fileNameRequired, .error, .valueError),
      (.fileSchemaValidation, .passed, .passed),
      (.fileSchemaValidation, .warning, .schemaError),
      (.fileSchemaRequired, .error, .schemaError)]
  | entities =>
    [(.dataSectionRequired, .error, .syntaxError),
      (.entityInstancesPresent, .passed, .passed),
      (.entityInstancesPresent, .warning, .schemaError),
      (.entityTypeValidation, .warning, .typeError)]
  | business =>
    [(.projectRequired, .passed, .passed),
      (.projectRequired, .error, .relationshipError),
      (.singleProject, .error, .cardinalityError),
      (.siteRecommended, .passed, .passed),
      (.siteRecommended, .warning, .relationshipError),
      (.standardPropertySets, .passed, .passed),
      (.standardPropertySets, .warning, .namingError),
      (.standardPropertySets, .warning, .resourceError),
      (.geometryPresent, .passed, .passed),
      (.geometryPresent, .warning, .geometryError)]
  | practice =>
    [(.ownerHistory, .passed, .passed),
      (.ownerHistory, .warning, .warning),
      (.units, .passed, .passed),
      (.units, .warning, .unitsError),
      (.materials, .passed, .passed),
      (.materials, .warning, .warning)]

/-- **An outcome of a group of checks is regular**: it is about a rule of the group, as a row of the
table, and says what the rule is. -/
def Outcome.Regular (group : CheckGroup) (o : Outcome) : Prop :=
  ∃ rule ∈ Rule.ofGroup group, ∃ feature, o.feature = some feature ∧ feature.rule = rule.name ∧
    (rule, o.severity, o.code) ∈ group.table ∧ feature.description ≠ []

/-! ### Regular findings -/

/-- The rows of a group of checks are about rules of the group. -/
theorem CheckGroup.mem_ofGroup_of_mem_table {group : CheckGroup} {row : Rule × Severity × Code}
    (h : row ∈ group.table) : row.1 ∈ Rule.ofGroup group := by
  have hall : ∀ row ∈ group.table, row.1 ∈ Rule.ofGroup group := by
    cases group <;> simp [table, Rule.ofGroup]
  exact hall row h

/-- A finding of a group of checks that becomes a regular outcome. -/
structure Finding.Regular (group : CheckGroup) (f : Finding) : Prop where
  row : (f.rule, f.severity, f.code) ∈ group.table
  /-- What the finding says about its rule in its own words is not empty. -/
  remark : f.remark ≠ some []

private theorem ofString_ne_nil {s : String} (h : s ≠ "") : Text.ofString s ≠ [] := by
  intro hs
  unfold Text.ofString at hs
  exact h (String.toList_eq_nil_iff.mp (List.map_eq_nil_iff.mp hs))

/-- No rule is without a description. -/
theorem Rule.description_ne_nil (r : Rule) : r.description ≠ [] := by
  cases r <;> exact ofString_ne_nil (by simp)

/-- An outcome keeps what makes a finding regular. -/
theorem Finding.Regular.outcome {group : CheckGroup} {f : Finding} (h : f.Regular group) :
    (f.outcome group).Regular group := by
  obtain ⟨hrow, hremark⟩ := h
  have hrule := CheckGroup.mem_ofGroup_of_mem_table hrow
  refine ⟨f.rule, hrule, _, rfl, rfl, hrow, ?_⟩
  change f.remark.getD (f.rule.describedBy group) ≠ []
  -- a finding without words of its own is described by what its rule declares
  cases hr : f.remark with
  | none =>
    rw [Option.getD_none, Rule.describedBy, if_pos hrule]
    exact f.rule.description_ne_nil
  | some remark =>
    rw [hr] at hremark
    intro h
    exact hremark (congrArg some h)

/-- The names of the rules that findings are about. -/
def Finding.names (fs : List Finding) : List Text := fs.map fun f => f.rule.name

namespace Finding

theorem names_append (fs gs : List Finding) : names (fs ++ gs) = names fs ++ names gs :=
  List.map_append

/-- A finding that may be missing has a name that may be missing. -/
theorem names_toList_mem {o : Option Finding} {rule : Rule} (h : ∀ f, o = some f → f.rule = rule) :
    names o.toList ∈ (Grammar.optional rule.name).matches' := by
  cases o with
  | none => exact Grammar.mem_left Language.nil_mem_one
  | some f =>
    obtain rfl := h f rfl
    exact Grammar.mem_right (Grammar.mem_once f.rule.name)

theorem names_singleton_mem {f : Finding} (rule : Rule) (h : f.rule = rule) :
    names [f] ∈ (Grammar.once rule.name).matches' := by
  subst h
  exact Grammar.mem_once f.rule.name

end Finding

/-! ### The envelope -/

namespace Envelope

/-- What is said of the first line. -/
theorem startFinding_spec {l : Layout} {f : Finding} (h : startFinding l = some f) :
    f.rule = .headerStart ∧ f.Regular .envelope := by
  unfold startFinding at h
  split at h <;> cases h
  exact ⟨rfl, by simp [CheckGroup.table, Finding.error], nofun⟩

/-- What is said of the last line. -/
theorem finishFinding_spec {l : Layout} {f : Finding} (h : finishFinding l = some f) :
    f.rule = .footerEnd ∧ f.Regular .envelope := by
  unfold finishFinding at h
  split at h <;> cases h
  exact ⟨rfl, by simp [CheckGroup.table, Finding.error], nofun⟩

/-- What is said of parentheses. -/
theorem balanceFinding_spec {l : Layout} {f : Finding} (h : balanceFinding l = some f) :
    f.rule = .balancedParentheses ∧ f.Regular .envelope := by
  unfold balanceFinding at h
  dsimp only at h
  split at h <;> cases h
  exact ⟨rfl, by simp [CheckGroup.table, Finding.error], nofun⟩

theorem rule_sectionFinding {l : Layout} {rule : Rule} {name keyword : Text} {f : Finding}
    (h : sectionFinding l rule name keyword = some f) : f.rule = rule := by
  unfold sectionFinding at h
  split at h <;> cases h
  rfl

/-- What is said of a section that is missing is regular, if the table has it as an error. -/
theorem regular_sectionFinding {l : Layout} {rule : Rule} {name keyword : Text} {f : Finding}
    (hr : (rule, Severity.error, Code.syntaxError) ∈ CheckGroup.envelope.table)
    (h : sectionFinding l rule name keyword = some f) : f.Regular .envelope := by
  unfold sectionFinding at h
  split at h <;> cases h
  exact ⟨hr, nofun⟩

/-- What is said of the encoding of characters, whether all is well or not. -/
theorem encodingFinding_spec (l : Layout) :
    (encodingFinding l).rule = .characterEncoding ∧ (encodingFinding l).Regular .envelope := by
  unfold encodingFinding
  split
  · exact ⟨rfl, by simp [CheckGroup.table, Finding.passed], nofun⟩
  · exact ⟨rfl, by simp [CheckGroup.table, Finding.warning], nofun⟩

/-- **The names of the rules** of the envelope, in the order of the report: all but the last may be
left out. -/
theorem names_check (l : Layout) :
    Finding.names (check l) ∈ CheckGroup.envelope.grammar.matches' := by
  rw [check_eq]
  simp only [Finding.names_append]
  refine Grammar.append_mem (Grammar.append_mem (Grammar.append_mem (Grammar.append_mem
    (Grammar.append_mem ?_ ?_) ?_) ?_) ?_) ?_
  · exact Finding.names_toList_mem fun f h => (startFinding_spec h).1
  · exact Finding.names_toList_mem fun f h => (finishFinding_spec h).1
  · exact Finding.names_toList_mem fun f h => (balanceFinding_spec h).1
  · exact Finding.names_toList_mem fun f h => rule_sectionFinding h
  · exact Finding.names_toList_mem fun f h => rule_sectionFinding h
  · exact Finding.names_singleton_mem .characterEncoding (encodingFinding_spec l).1

/-- **All findings of the envelope** are regular. -/
theorem regular_of_mem_check {l : Layout} {f : Finding} (h : f ∈ check l) :
    f.Regular .envelope := by
  rw [check_eq] at h
  simp only [List.mem_append, Option.mem_toList, List.mem_singleton] at h
  -- one case for each finding that there may be, in the order in which they are made
  obtain ((((h | h) | h) | h) | h) | rfl := h
  · exact (startFinding_spec h).2
  · exact (finishFinding_spec h).2
  · exact (balanceFinding_spec h).2
  · exact regular_sectionFinding (by simp [CheckGroup.table]) h
  · exact regular_sectionFinding (by simp [CheckGroup.table]) h
  · exact (encodingFinding_spec l).2

end Envelope

/-! ### The header -/

namespace Header

theorem rule_recordFinding (l : Layout) (header : Section) (keyword : Text) (rule : Rule) :
    (recordFinding l header keyword rule).rule = rule := by
  unfold recordFinding
  split <;> rfl

/-- What is said of a record of the header is regular, if the table has it both as passed and as an
error. -/
theorem regular_recordFinding {l : Layout} {header : Section} {keyword : Text} {rule : Rule}
    (hp : (rule, Severity.passed, Code.passed) ∈ CheckGroup.header.table)
    (he : (rule, Severity.error, Code.valueError) ∈ CheckGroup.header.table) :
    (recordFinding l header keyword rule).Regular .header := by
  unfold recordFinding
  split
  · exact ⟨he, nofun⟩
  · exact ⟨hp, nofun⟩

/-- What is said of the schema is about its record or about its name. -/
theorem schemaFinding_spec (l : Layout) (rules : SchemaRules) (header : Section) :
    ((schemaFinding l rules header).rule = .fileSchemaRequired ∨
      (schemaFinding l rules header).rule = .fileSchemaValidation) ∧
      (schemaFinding l rules header).Regular .header := by
  unfold schemaFinding
  dsimp only
  split
  · exact ⟨.inl rfl, by simp [CheckGroup.table, Finding.error], nofun⟩
  · split
    · exact ⟨.inr rfl, by simp [CheckGroup.table, Finding.passed], nofun⟩
    · exact ⟨.inr rfl, by simp [CheckGroup.table, Finding.warning], nofun⟩

/-- **The names of the rules** of the header: a single one if there is none, else one for each
record. -/
theorem names_check (rules : SchemaRules) (l : Layout) :
    Finding.names (check rules l) ∈ CheckGroup.header.grammar.matches' := by
  unfold check
  split
  · -- without a section there is nothing but the finding that says so
    exact Grammar.mem_left (Grammar.mem_once _)
  · next header _ =>
    change Finding.names [_] ++ Finding.names [_] ++ Finding.names [_] ∈ _
    refine Grammar.mem_right (Grammar.append_mem (Grammar.append_mem ?_ ?_) ?_)
    · exact Finding.names_singleton_mem .fileDescriptionRequired (rule_recordFinding ..)
    · exact Finding.names_singleton_mem .fileNameRequired (rule_recordFinding ..)
    · rcases (schemaFinding_spec l rules header).1 with h | h
      · exact Grammar.mem_left (Finding.names_singleton_mem .fileSchemaRequired h)
      · exact Grammar.mem_right (Finding.names_singleton_mem .fileSchemaValidation h)

/-- **All findings of the header** are regular. -/
theorem regular_of_mem_check {rules : SchemaRules} {l : Layout} {f : Finding}
    (h : f ∈ check rules l) : f.Regular .header := by
  unfold check at h
  split at h
  · obtain rfl := List.mem_singleton.mp h
    exact ⟨by simp [CheckGroup.table, missingFinding, Finding.error], nofun⟩
  · next header _ =>
    simp only [List.mem_cons, List.not_mem_nil, or_false] at h
    obtain rfl | rfl | rfl := h
    · exact regular_recordFinding (by simp [CheckGroup.table]) (by simp [CheckGroup.table])
    · exact regular_recordFinding (by simp [CheckGroup.table]) (by simp [CheckGroup.table])
    · exact (schemaFinding_spec l rules header).2

end Header

/-! ### The entity types -/

namespace EntityTypes

/-- **The names of the rules** of entity types, by how far the check comes. -/
theorem names_check (rules : EntityRules) (l : Layout) :
    Finding.names (check rules l) ∈ CheckGroup.entities.grammar.matches' := by
  -- whatever is said about the types follows on the number of instances
  have hpresent : ∀ names : List Text,
      names ∈ (Grammar.optional "ENTITY_TYPE_VALIDATION").matches' →
      Rule.entityInstancesPresent.name :: names ∈ CheckGroup.entities.grammar.matches' := by
    intro names h
    exact Grammar.mem_right (Grammar.append_mem (Grammar.mem_once _) h)
  unfold check
  split
  · exact Grammar.mem_left (Grammar.mem_once _)
  · dsimp only
    split
    · exact hpresent [] (Grammar.mem_left Language.nil_mem_one)
    · split
      · exact hpresent [] (Grammar.mem_left Language.nil_mem_one)
      · exact hpresent [_] (Grammar.mem_right (Grammar.mem_once _))

/-- **All findings about entity types** are regular. -/
theorem regular_of_mem_check {rules : EntityRules} {l : Layout} {f : Finding}
    (h : f ∈ check rules l) : f.Regular .entities := by
  -- the number of instances is told in two of the branches
  have hcount : ∀ is, (countFinding is).Regular .entities := fun is =>
    ⟨by simp [CheckGroup.table, countFinding, Finding.passed], nofun⟩
  unfold check at h
  split at h
  · obtain rfl := List.mem_singleton.mp h
    exact ⟨by simp [CheckGroup.table, missingFinding, Finding.error], nofun⟩
  · dsimp only at h
    split at h
    · obtain rfl := List.mem_singleton.mp h
      exact ⟨by simp [CheckGroup.table, emptyFinding, Finding.warning], nofun⟩
    · split at h
      · obtain rfl := List.mem_singleton.mp h
        exact hcount l.instances
      · simp only [List.mem_cons, List.not_mem_nil, or_false] at h
        obtain rfl | rfl := h
        · exact hcount l.instances
        · exact ⟨by simp [CheckGroup.table, unknownFinding, Finding.warning], nofun⟩

end EntityTypes

/-! ### The rules of the trade -/

namespace Business

/-- What is said of the root: whether there is one, or whether there are several. -/
theorem rootFinding_spec (rules : SpatialRules) (l : Layout) :
    ((rootFinding rules l).rule = .projectRequired ∨ (rootFinding rules l).rule = .singleProject) ∧
      (rootFinding rules l).Regular .business := by
  unfold rootFinding
  dsimp only
  split
  · exact ⟨.inl rfl, by simp [CheckGroup.table, Finding.error], nofun⟩
  · exact ⟨.inl rfl, by simp [CheckGroup.table, Finding.passed], nofun⟩
  · exact ⟨.inr rfl, by simp [CheckGroup.table, Finding.error], nofun⟩

/-- What is said of the container of the root. -/
theorem containerFinding_spec (rules : SpatialRules) (l : Layout) :
    (containerFinding rules l).rule = .siteRecommended ∧
      (containerFinding rules l).Regular .business := by
  unfold containerFinding
  split
  · exact ⟨rfl, by simp [CheckGroup.table, Finding.passed], nofun⟩
  · exact ⟨rfl, by simp [CheckGroup.table, Finding.warning], nofun⟩

/-- What is said of one property set, standard or not. -/
theorem propertySetFinding_spec (rules : PropertySetRules) (l : Layout) (index : Nat)
    (name : Text) :
    (propertySetFinding rules l index name).rule = .standardPropertySets ∧
      (propertySetFinding rules l index name).Regular .business := by
  unfold propertySetFinding
  dsimp only
  split
  · exact ⟨rfl, by simp [CheckGroup.table, Finding.passed], nofun⟩
  · exact ⟨rfl, by simp [CheckGroup.table, Finding.warning], nofun⟩

/-- There is always something to say about property sets, and always about one rule. -/
theorem propertySetFindings_spec (rules : PropertySetRules) (l : Layout) :
    propertySetFindings rules l ≠ [] ∧
      ∀ f ∈ propertySetFindings rules l, f.rule = .standardPropertySets ∧ f.Regular .business := by
  unfold propertySetFindings
  split
  · -- no property set occurs: the rule is described in words of the finding, and not by its own
    refine ⟨List.cons_ne_nil _ _, fun f hf => ?_⟩
    obtain rfl := List.mem_singleton.mp hf
    refine ⟨rfl, by simp [CheckGroup.table, Finding.warning], ?_⟩
    intro h
    exact ofString_ne_nil (by simp) (Option.some.inj h)
  · next hfound =>
    refine ⟨fun h => hfound (List.map_eq_nil_iff.mp h), fun f hf => ?_⟩
    obtain ⟨⟨index, name⟩, -, rfl⟩ := List.mem_map.mp hf
    exact propertySetFinding_spec rules l index name

/-- What is said of geometry. -/
theorem geometryFinding_spec (rules : GeometryRules) (l : Layout) :
    (geometryFinding rules l).rule = .geometryPresent ∧
      (geometryFinding rules l).Regular .business := by
  unfold geometryFinding
  split
  · exact ⟨rfl, by simp [CheckGroup.table, Finding.passed], nofun⟩
  · exact ⟨rfl, by simp [CheckGroup.table, Finding.warning], nofun⟩

/-- **The names of the rules** of the trade: one rule about the root, then the container, then
property sets, of which there may be many findings, then geometry. -/
theorem names_check (policy : Policy) (l : Layout) :
    Finding.names (check policy l) ∈ CheckGroup.business.grammar.matches' := by
  have hsets := propertySetFindings_spec policy.propertySets l
  change Finding.names ([_] ++ [_] ++ propertySetFindings policy.propertySets l ++ [_]) ∈ _
  simp only [Finding.names_append]
  refine Grammar.append_mem (Grammar.append_mem (Grammar.append_mem ?_ ?_) ?_) ?_
  · -- whether the root is missing or there are too many decides which rule is named
    rcases (rootFinding_spec policy.spatial l).1 with h | h
    · exact Grammar.mem_left (Finding.names_singleton_mem .projectRequired h)
    · exact Grammar.mem_right (Finding.names_singleton_mem .singleProject h)
  · exact Finding.names_singleton_mem .siteRecommended (containerFinding_spec policy.spatial l).1
  · refine Grammar.mem_repeated (fun h => hsets.1 (List.map_eq_nil_iff.mp h)) ?_
    intro name hname
    obtain ⟨f, hf, rfl⟩ := List.mem_map.mp hname
    rw [(hsets.2 f hf).1]
    rfl
  · exact Finding.names_singleton_mem .geometryPresent (geometryFinding_spec policy.geometry l).1

/-- **All findings about the rules of the trade** are regular. -/
theorem regular_of_mem_check {policy : Policy} {l : Layout} {f : Finding} (h : f ∈ check policy l) :
    f.Regular .business := by
  unfold check at h
  simp only [List.mem_append, List.mem_cons, List.not_mem_nil, or_false] at h
  obtain (rfl | rfl | h) | rfl := h
  · exact (rootFinding_spec policy.spatial l).2
  · exact (containerFinding_spec policy.spatial l).2
  · exact ((propertySetFindings_spec policy.propertySets l).2 f h).2
  · exact (geometryFinding_spec policy.geometry l).2

end Business

/-! ### Recommended practice -/

namespace Practice

theorem rule_presence (l : Layout) (entities : List Text) (code : Code) (rule : Rule)
    (found missing : Text) : (presence l entities code rule found missing).rule = rule := by
  unfold presence
  split <;> rfl

/-- What is said of names that should be there is regular, if the table has it both as passed and as
a warning. -/
theorem regular_presence {l : Layout} {entities : List Text} {code : Code} {rule : Rule}
    {found missing : Text} (hp : (rule, Severity.passed, Code.passed) ∈ CheckGroup.practice.table)
    (hw : (rule, Severity.warning, code) ∈ CheckGroup.practice.table) :
    (presence l entities code rule found missing).Regular .practice := by
  unfold presence
  split
  · exact ⟨hp, nofun⟩
  · exact ⟨hw, nofun⟩

/-- **The names of the rules** of recommended practice, which are always the same. -/
theorem names_check (rules : PracticeRules) (l : Layout) :
    Finding.names (check rules l) ∈ CheckGroup.practice.grammar.matches' := by
  change Finding.names [_] ++ Finding.names [_] ++ Finding.names [_] ∈ _
  refine Grammar.append_mem (Grammar.append_mem ?_ ?_) ?_
  · exact Finding.names_singleton_mem .ownerHistory (rule_presence ..)
  · exact Finding.names_singleton_mem .units (rule_presence ..)
  · exact Finding.names_singleton_mem .materials (rule_presence ..)

/-- **All findings about recommended practice** are regular. -/
theorem regular_of_mem_check {rules : PracticeRules} {l : Layout} {f : Finding}
    (h : f ∈ check rules l) : f.Regular .practice := by
  unfold check at h
  simp only [List.mem_cons, List.not_mem_nil, or_false] at h
  obtain rfl | rfl | rfl := h
  · exact regular_presence (by simp [CheckGroup.table]) (by simp [CheckGroup.table])
  · exact regular_presence (by simp [CheckGroup.table]) (by simp [CheckGroup.table])
  · exact regular_presence (by simp [CheckGroup.table]) (by simp [CheckGroup.table])

end Practice

/-! ### All groups -/

namespace CheckGroup

/-- **The findings of a group** of checks are a word of its grammar. -/
theorem names_mem_grammar (policy : Policy) (l : Layout) (group : CheckGroup) :
    Finding.names (group.findings policy l) ∈ group.grammar.matches' := by
  cases group with
  | envelope => exact Envelope.names_check l
  | header => exact Header.names_check policy.schemas l
  | entities => exact EntityTypes.names_check policy.entities l
  | business => exact Business.names_check policy l
  | practice => exact Practice.names_check policy.practice l

/-- **Every finding** of a group of checks becomes a regular outcome. -/
theorem regular_of_mem_findings {policy : Policy} {l : Layout} {group : CheckGroup} {f : Finding}
    (h : f ∈ group.findings policy l) : f.Regular group := by
  cases group with
  | envelope => exact Envelope.regular_of_mem_check h
  | header => exact Header.regular_of_mem_check h
  | entities => exact EntityTypes.regular_of_mem_check h
  | business => exact Business.regular_of_mem_check h
  | practice => exact Practice.regular_of_mem_check h

end CheckGroup

/-! ### Reports -/

/-- The outcomes of all groups of checks, one group after the other, are a word of the grammar of
reports. -/
theorem CheckGroup.rules_mem_grammar (policy : Policy) (l : Layout) :
    ∃ names ∈ Report.grammar.matches',
      (CheckGroup.all.flatMap (CheckGroup.outcomes policy l)).map Outcome.rule
        = names.map some := by
  -- outcomes have the rules of their findings, and never lack one
  have hrules : ∀ group : CheckGroup, (group.outcomes policy l).map Outcome.rule
      = (Finding.names (group.findings policy l)).map some := by
    intro group
    unfold outcomes Finding.names
    rw [List.map_map, List.map_map]
    rfl
  refine ⟨Finding.names (envelope.findings policy l) ++ Finding.names (header.findings policy l)
    ++ Finding.names (entities.findings policy l) ++ Finding.names (business.findings policy l)
    ++ Finding.names (practice.findings policy l), ?_, ?_⟩
  · exact Grammar.append_mem (Grammar.append_mem (Grammar.append_mem (Grammar.append_mem
      (names_mem_grammar policy l envelope) (names_mem_grammar policy l header))
      (names_mem_grammar policy l entities)) (names_mem_grammar policy l business))
      (names_mem_grammar policy l practice)
  · simp [all, hrules]

/-- **The grammar of every report.** A run over a text under an accepted policy, heard to its end,
gives a report. Its results are the outcomes of the groups of checks, one group after the other; the
names of their rules are a word of the grammar, and every outcome is a row of the table, about a
declared rule of the group that it comes from, with a description. -/
theorem Report.results_mem_grammar {P : Policy} (hP : P.Accepted) {seconds : Float}
    (hs : 0 ≤ seconds) {content : Content} {filename t : Text}
    (ht : content.toText filename = .ok t) {sink : Option Sink}
    (h : Sink.Patient sink (Notification.series (P.estimator.estimate t))) :
    ∃ r, (validateContent (some P) sink (.real seconds) content (.text filename)).result = .ok r ∧
      (∃ names ∈ Report.grammar.matches', r.results.map Outcome.rule = names.map some) ∧
      r.results = CheckGroup.all.flatMap (CheckGroup.outcomes P (Layout.of t)) ∧
      ∀ group, ∀ o ∈ CheckGroup.outcomes P (Layout.of t) group, o.Regular group := by
  -- the report of the run is known outright, so that only its results are left to be looked at
  refine ⟨_, result_validateContent hP hs ht h, ?_, rfl, ?_⟩
  · exact CheckGroup.rules_mem_grammar P (Layout.of t)
  · intro group o ho
    obtain ⟨f, hf, rfl⟩ := List.mem_map.mp ho
    exact (CheckGroup.regular_of_mem_findings hf).outcome

/-- A small file with both sections, of which one entity has an unknown type. -/
def chairSample : Text :=
  "HEADER;\nFILE_SCHEMA(('IFC4'));\nENDSEC;\nDATA;\n#1=IFCPROJECT();\n#2=IFCCHAIR();\nENDSEC;\n"

/-- What is found in it: the file has no envelope, records are missing, and some things are advised
against. -/
theorem outcomes_chairSample :
    (CheckGroup.all.flatMap (CheckGroup.outcomes Policy.bundled (Layout.of chairSample))).map
        (fun o => (o.rule.getD [], o.severity, o.line))
      = [(Rule.headerStart.name, .error, some 1), (Rule.footerEnd.name, .error, some 8),
        (Rule.characterEncoding.name, .passed, none),
        (Rule.fileDescriptionRequired.name, .error, some 1),
        (Rule.fileNameRequired.name, .error, some 1),
        (Rule.fileSchemaValidation.name, .passed, some 2),
        (Rule.entityInstancesPresent.name, .passed, none),
        (Rule.entityTypeValidation.name, .warning, some 6),
        (Rule.projectRequired.name, .passed, none), (Rule.siteRecommended.name, .warning, none),
        (Rule.standardPropertySets.name, .warning, none),
        (Rule.geometryPresent.name, .warning, none), (Rule.ownerHistory.name, .warning, none),
        (Rule.units.name, .warning, none), (Rule.materials.name, .warning, none)] := by
  decide +kernel

/-- Its report has the outcomes, and their rules are a word of the grammar. -/
theorem Report.results_mem_grammar_chairSample :
    ∃ r, (validateContent (some Policy.bundled) none (.real 0) (.text chairSample)
        (.text "a.ifc")).result = .ok r ∧
      (∃ names ∈ Report.grammar.matches', r.results.map Outcome.rule = names.map some) ∧
      r.results.map (Outcome.severity) = [.error, .error, .passed, .error, .error, .passed, .passed,
        .warning, .passed, .warning, .warning, .warning, .warning, .warning, .warning] := by
  obtain ⟨r, hr, hnames, hresults, -⟩ := Report.results_mem_grammar Policy.accepted_bundled
    (by decide : (0 : Float) ≤ 0)
    (rfl : (Content.text chairSample).toText "a.ifc" = .ok chairSample) (Sink.patient_none _)
  refine ⟨r, hr, hnames, ?_⟩
  have hseverities := congrArg (List.map fun row => row.2.1) outcomes_chairSample
  rw [← hresults, List.map_map] at hseverities
  exact hseverities

end StepCheck
