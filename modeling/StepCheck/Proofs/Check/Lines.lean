import StepCheck.Proofs.Check.Outcomes
import StepCheck.Proofs.Check.Verdict
import StepCheck.Proofs.Step.Fronts
import StepCheck.Proofs.Text.Lines
import StepCheck.Proofs.Text.Places

/-!
# The evidence in a line

Many findings name a line of the file. It is always one of its lines, and what the finding is about
can be seen there: the keyword of a record or of a section, the name of an instance, a code point
that cannot be encoded, the beginning of a property set. The numbers are computed in several ways,
by looking through the lines, by counting line feeds up to an index, and from the index of a section
with one inside it.

* `Finding.Shows` — the line that a finding names holds a text;
* `Section.isLine_startLine`, `Section.isLine_lineOf` — the lines of a section;
* `CheckGroup.isLine_of_mem_findings` — every line that is named is one of the file;
* `Header.shows_of_recordFinding`, `EntityTypes.shows_unknownFinding`, … — what the lines show.
-/

namespace StepCheck

variable {t needle keyword : Text} {f : Finding}

/-- **The line that a finding names** holds a text. -/
def Finding.Shows (t : Text) (f : Finding) (needle : Text) : Prop :=
  ∃ number l, f.line = some number ∧ t.IsLine number l ∧ needle <:+: l

/-- **The line that a finding names** is the first one of a kind. -/
def Finding.IsFirst (t : Text) (f : Finding) (p : Text → Prop) : Prop :=
  ∃ number l, f.line = some number ∧ t.IsLine number l ∧ p l ∧
    ∀ n < number, ∀ l, t.IsLine n l → ¬ p l

theorem Finding.Shows.exists_isLine {number : Nat} (h : f.Shows t needle)
    (hn : f.line = some number) : ∃ l, t.IsLine number l := by
  obtain ⟨number', l, hline, hl, -⟩ := h
  rw [hn, Option.some.injEq] at hline
  exact ⟨l, hline ▸ hl⟩

theorem Finding.IsFirst.exists_isLine {p : Text → Prop} {number : Nat} (h : f.IsFirst t p)
    (hn : f.line = some number) : ∃ l, t.IsLine number l := by
  obtain ⟨number', l, hline, hl, -⟩ := h
  rw [hn, Option.some.injEq] at hline
  exact ⟨l, hline ▸ hl⟩

/-! ### Lines of sections -/

namespace Section

variable {s : Section} {content : Text}

/-- **Where a section lies** in the content. -/
theorem exists_of_find? (h : find? keyword content = some s) : ∃ before after,
    content = before ++ keyword ++ s.text ++ after ∧
      s.offset = before.length + keyword.length ∧ s.startLine = content.lineAt before.length := by
  unfold find? at h
  cases hfound : keyword.foundIn? content with
  | none => rw [hfound] at h; cases h
  | some found =>
    obtain ⟨before, rest, rfl, rfl, -⟩ := Text.foundIn?_eq_some_iff.mp hfound
    rw [hfound, Option.bind_eq_bind, Option.bind_some, List.drop_left] at h
    cases hcut : rest.cutAt? Marker.sectionEnd with
    | none => rw [hcut] at h; cases h
    | some cut =>
      obtain ⟨text, after⟩ := cut
      obtain ⟨rfl, -⟩ := Text.cutAt?_eq_some_iff.mp hcut
      rw [hcut] at h
      cases h
      -- the section ends where its marker begins, and that stays behind the text
      refine ⟨before, Marker.sectionEnd ++ after, ?_, ?_, ?_⟩
      · simp only [List.append_assoc]
      · dsimp only
        simp only [List.length_append]
        omega
      · dsimp only
        congr 1
        simp only [List.length_append]
        omega

/-- **The line in which a section begins** holds its keyword. -/
theorem isLine_startLine (h : find? keyword content = some s) (hne : keyword ≠ [])
    (hkeyword : CodePoint.lineFeed ∉ keyword) :
    ∃ l, content.IsLine s.startLine l ∧ keyword <:+: l := by
  obtain ⟨before, after, hcontent, -, hline⟩ := exists_of_find? h
  rw [hline]
  refine Text.isLine_lineAt_of_prefix ?_ hne hkeyword
  rw [hcontent, List.append_assoc, List.append_assoc, List.drop_left]
  exact List.prefix_append keyword _

/-- **The line of an index** of a section holds what begins there. -/
theorem isLine_lineOf {index : Nat} (h : find? keyword content = some s)
    (hneedle : needle <+: s.text.drop index) (hne : needle ≠ [])
    (hlineFeed : CodePoint.lineFeed ∉ needle) :
    ∃ l, content.IsLine (s.lineOf content index) l ∧ needle <:+: l := by
  obtain ⟨before, after, hcontent, hoffset, -⟩ := exists_of_find? h
  refine Text.isLine_lineAt_of_prefix ?_ hne hlineFeed
  have hindex : index ≤ s.text.length := by
    by_contra hlt
    rw [List.drop_of_length_le (by omega), List.prefix_nil] at hneedle
    exact hne hneedle
  have hdrop : content.drop (s.offset + index) = s.text.drop index ++ after := by
    rw [hcontent, hoffset, ← List.length_append, ← List.drop_drop, List.append_assoc,
      List.drop_left, List.drop_append_of_le_length hindex]
  rw [hdrop]
  exact hneedle.trans (List.prefix_append _ _)

end Section

/-! ### The envelope -/

namespace Envelope

theorem line_sectionFinding {l : Layout} {rule : Rule} {name keyword : Text}
    (h : sectionFinding l rule name keyword = some f) : f.line = none := by
  unfold sectionFinding at h
  split at h <;> cases h
  rfl

/-- **The warning about the encoding** names the first line with a code point that has none. -/
theorem isFirst_encodingFinding (h : (encodingFinding (Layout.of t)).severity = .warning) :
    (encodingFinding (Layout.of t)).IsFirst t fun l => ∃ c ∈ l, c.isSurrogate = true := by
  unfold encodingFinding at h ⊢
  split at h
  · cases h
  · next index hindex =>
    obtain ⟨hlt, hsurrogate, hleast⟩ := List.findIdx?_eq_some_iff_getElem.mp hindex
    change index < t.length at hlt
    have hprefix : [t[index]] <+: t.drop index := by
      rw [List.drop_eq_getElem_cons hlt]
      exact List.prefix_append [t[index]] _
    have hlineFeed : CodePoint.lineFeed ∉ [t[index]] := by
      intro hmem
      have hc : t[index].isSurrogate = true := hsurrogate
      rw [← List.mem_singleton.mp hmem] at hc
      cases hc
    obtain ⟨l, hl, hinfix⟩ := Text.isLine_lineAt_of_prefix hprefix (List.cons_ne_nil _ _) hlineFeed
    refine ⟨_, l, rfl, hl, ⟨t[index], hinfix.subset List.mem_cons_self, hsurrogate⟩, ?_⟩
    rintro n hn l' hl' ⟨c, hc, hcs⟩
    -- what lies before the place is encodable, and the lines before its line are made of it
    obtain ⟨i, hi, rfl⟩ := List.mem_take_iff_getElem.mp
      (Text.subset_take_of_lt_lineAt (Nat.le_of_lt hlt) hn hl' hc)
    exact hleast i (by omega) hcs

/-- **The lines that the envelope names** are lines of the text. -/
theorem isLine_of_mem_check (hf : f ∈ check (Layout.of t)) {number : Nat}
    (hn : f.line = some number) : ∃ l, t.IsLine number l := by
  rw [check_eq] at hf
  simp only [List.mem_append, Option.mem_toList, List.mem_singleton] at hf
  have hcount : 1 ≤ t.lineCount := by
    rw [Text.lineCount_eq]
    exact Nat.succ_pos _
  obtain ((((h | h) | h) | h) | h) | rfl := hf
  · -- the first line is there in any case
    unfold startFinding at h
    split at h <;> cases h
    cases hn
    exact Text.exists_isLine_iff.mpr ⟨Nat.le_refl 1, hcount⟩
  · -- and so is the last one
    unfold finishFinding at h
    split at h <;> cases h
    cases hn
    exact Text.exists_isLine_iff.mpr ⟨hcount, Nat.le_refl _⟩
  · unfold balanceFinding at h
    dsimp only at h
    split at h <;> cases h
    cases hn
  · rw [line_sectionFinding h] at hn
    cases hn
  · rw [line_sectionFinding h] at hn
    cases hn
  · cases hseverity : (encodingFinding (Layout.of t)).severity with
    | warning => exact (isFirst_encodingFinding hseverity).exists_isLine hn
    | _ =>
      unfold encodingFinding at hn hseverity
      split at hn
      · cases hn
      · next hindex =>
        rw [hindex] at hseverity
        cases hseverity

end Envelope

/-! ### The header -/

namespace Header

variable {rules : SchemaRules} {header : Section}

/-- The line of a keyword in the header holds the keyword. -/
theorem isLine_of_keywordLine? {number : Nat} (h : (Layout.of t).header = some header)
    (hne : keyword ≠ []) (hlineFeed : CodePoint.lineFeed ∉ keyword)
    (hn : keywordLine? (Layout.of t) header keyword = some number) :
    ∃ l, t.IsLine number l ∧ keyword <:+: l := by
  obtain ⟨index, hindex, rfl⟩ := Option.map_eq_some_iff.mp hn
  exact Section.isLine_lineOf h (Text.indexIn?_eq_some_iff.mp hindex).occurs hne hlineFeed

/-- What is said of a header is said of a line that holds its keyword, unless it is said of one of
its records. -/
private theorem shows_marker (h : (Layout.of t).header = some header)
    (hline : f.line = some header.startLine) : f.Shows t Marker.header := by
  obtain ⟨l, hl, hmarker⟩ := Section.isLine_startLine h (by decide) (by decide)
  exact ⟨_, l, hline, hl, hmarker⟩

/-- **A record that is found** is found in a line that holds its keyword, and one that is missing is
missing from the header whose own keyword is in the line. -/
theorem shows_recordFinding (rule : Rule) (h : (Layout.of t).header = some header)
    (hne : keyword ≠ []) (hlineFeed : CodePoint.lineFeed ∉ keyword) :
    ((recordFinding (Layout.of t) header keyword rule).severity = .passed ∧
      (recordFinding (Layout.of t) header keyword rule).Shows t keyword) ∨
    ((recordFinding (Layout.of t) header keyword rule).severity = .error ∧
      (recordFinding (Layout.of t) header keyword rule).Shows t Marker.header) := by
  unfold recordFinding
  split
  · exact .inr ⟨rfl, shows_marker h rfl⟩
  · next line hline =>
    obtain ⟨l, hl, hkeyword⟩ := isLine_of_keywordLine? h hne hlineFeed hline
    exact .inl ⟨rfl, line, l, rfl, hl, hkeyword⟩

/-- **A schema that is named** is named behind the keyword in the line, and one that is missing is
missing from the header whose own keyword is in the line. -/
theorem shows_schemaFinding (rules : SchemaRules) (h : (Layout.of t).header = some header) :
    ((schemaFinding (Layout.of t) rules header).rule = .fileSchemaValidation ∧
      (schemaFinding (Layout.of t) rules header).Shows t schemaKeyword) ∨
    ((schemaFinding (Layout.of t) rules header).rule = .fileSchemaRequired ∧
      (schemaFinding (Layout.of t) rules header).Shows t Marker.header) := by
  unfold schemaFinding
  dsimp only
  split
  · exact .inr ⟨rfl, shows_marker h rfl⟩
  · next schema hschema =>
    -- a header that names its schema holds the keyword, so that its line is found
    have hkeyword : schemaKeyword <:+: header.text := by
      have hsome : (schema? header.text).isSome := by
        rw [hschema]
        rfl
      obtain ⟨before, ws₁, ws₂, ws₃, identifier, after, -, -, htext⟩ :=
        (isSome_schema?_iff _).mp hsome
      rw [htext]
      simp only [List.append_assoc]
      exact ⟨before, _, List.append_assoc _ _ _⟩
    obtain ⟨rest, hrest⟩ : ∃ rest, schemaKeyword.foundIn? header.text = some rest := by
      rw [← Option.isSome_iff_exists, ← Text.occursIn_eq_isSome_foundIn?, Text.occursIn_iff]
      exact hkeyword
    have hline : ∃ number, keywordLine? (Layout.of t) header schemaKeyword = some number := by
      unfold keywordLine? Text.indexIn?
      rw [hrest]
      exact ⟨_, rfl⟩
    obtain ⟨number, hnumber⟩ := hline
    obtain ⟨l, hl, hkeyword⟩ := isLine_of_keywordLine? h (by decide) (by decide) hnumber
    rw [hnumber]
    split
    · exact .inl ⟨rfl, number, l, rfl, hl, hkeyword⟩
    · exact .inl ⟨rfl, number, l, rfl, hl, hkeyword⟩

/-- **The lines that the check of the header names** are lines of the text. -/
theorem isLine_of_mem_check (hf : f ∈ check rules (Layout.of t)) {number : Nat}
    (hn : f.line = some number) : ∃ l, t.IsLine number l := by
  -- each record is told of in its own line or in that of the header, and both show something
  have hrecord : ∀ header, (Layout.of t).header = some header → ∀ keyword rule, keyword ≠ [] →
      CodePoint.lineFeed ∉ keyword → f = recordFinding (Layout.of t) header keyword rule →
      ∃ l, t.IsLine number l := by
    rintro header h keyword rule hne hlineFeed rfl
    rcases shows_recordFinding rule h hne hlineFeed with ⟨-, hs⟩ | ⟨-, hs⟩
    · exact hs.exists_isLine hn
    · exact hs.exists_isLine hn
  rcases cases_of_mem_check hf with rfl | ⟨header, h, rfl | rfl | rfl⟩
  · -- the first line that mentions a header, or else the first line
    change some _ = some number at hn
    obtain rfl := Option.some.inj hn
    cases hfirst : (Layout.of t).firstLineWith? "HEADER" true with
    | none =>
      rw [Option.getD_none, Text.exists_isLine_iff, Text.lineCount_eq]
      omega
    | some number =>
      obtain ⟨⟨l, hl, -⟩, -⟩ := Text.firstLine?_eq_some_iff.mp hfirst
      exact ⟨l, hl⟩
  · exact hrecord header h "FILE_DESCRIPTION" _ (by decide) (by decide) rfl
  · exact hrecord header h "FILE_NAME" _ (by decide) (by decide) rfl
  · rcases shows_schemaFinding rules h with ⟨-, hs⟩ | ⟨-, hs⟩
    · exact hs.exists_isLine hn
    · exact hs.exists_isLine hn

end Header

/-! ### The entity types -/

/-- **The line of an instance** holds the name of the instance. -/
theorem Layout.isLine_of_mem_instances {i : Instance} (hi : i ∈ (Layout.of t).instances) :
    ∃ l, t.IsLine i.line l ∧ i.label <:+: l := by
  unfold instances at hi
  split at hi
  · cases hi
  · next data hdata =>
    obtain ⟨⟨index, d⟩, hd, rfl⟩ := List.mem_map.mp hi
    obtain ⟨-, length, hlength⟩ := Text.exists_of_mem_occurrences hd
    obtain ⟨front, rest, hrest, hfront, -⟩ := Declaration.atFront?_eq_some_iff.mp hlength
    have hlabel : d.label <+: data.text.drop index :=
      hrest ▸ hfront.begins_with_label.trans (List.prefix_append front rest)
    refine Section.isLine_lineOf hdata hlabel (List.cons_ne_nil _ _) ?_
    -- a line feed is neither the number sign nor a digit
    intro hmem
    rcases List.mem_cons.mp hmem with hsign | hdigit
    · exact absurd hsign (by decide)
    · exact absurd (hfront.isDecimal _ hdigit) (by decide +kernel)

namespace EntityTypes

variable {rules : EntityRules}

/-- Nothing is unknown that is not declared. -/
theorem mem_of_mem_unknownAfter {known : List Text} {i : Instance} {is : List Instance} :
    ∀ {seen}, i ∈ unknownAfter known seen is → i ∈ is := by
  induction is with
  | nil => exact fun h => h
  | cons first is ih =>
    intro seen h
    unfold unknownAfter at h
    dsimp only at h
    split at h
    · exact List.mem_cons_of_mem _ (ih h)
    · rcases List.mem_cons.mp h with rfl | h
      · exact List.mem_cons_self
      · exact List.mem_cons_of_mem _ (ih h)

/-- **The warning about unknown types** names the line of the first instance of one, and the
instance. -/
theorem shows_unknownFinding {first : Instance} {others : List Instance}
    (h : unknown rules.known (Layout.of t).instances = first :: others) :
    (unknownFinding rules first others).instanceId = some first.label ∧
      (unknownFinding rules first others).Shows t first.label := by
  have hmem : first ∈ unknown rules.known (Layout.of t).instances := by
    rw [h]
    exact List.mem_cons_self
  obtain ⟨l, hl, hlabel⟩ := Layout.isLine_of_mem_instances (mem_of_mem_unknownAfter hmem)
  exact ⟨rfl, first.line, l, rfl, hl, hlabel⟩

/-- **A section without instances** is found in the line that holds its keyword. -/
theorem shows_emptyFinding {data : Section} (h : (Layout.of t).data = some data) :
    (emptyFinding data).Shows t Marker.data := by
  obtain ⟨l, hl, hmarker⟩ := Section.isLine_startLine h (by decide) (by decide)
  exact ⟨_, l, rfl, hl, hmarker⟩

/-- **A section that is missing** is so in the first line with its keyword, if there is one. -/
theorem isFirst_missingFinding :
    ((missingFinding (Layout.of t)).line = none ↔ ∀ l ∈ t.lines, ¬ Marker.data <:+: l) ∧
      ∀ number, (missingFinding (Layout.of t)).line = some number →
        (missingFinding (Layout.of t)).IsFirst t fun l => Marker.data <:+: l := by
  have hline : (missingFinding (Layout.of t)).line
      = Text.firstLine? Marker.data.occursIn t.lines := rfl
  rw [hline]
  constructor
  · rw [Text.firstLine?_eq_none_iff]
    simp only [← Text.occursIn_iff, Bool.not_eq_true]
  · intro number hnumber
    obtain ⟨⟨l, hl, hp⟩, hleast⟩ := Text.firstLine?_eq_some_iff.mp hnumber
    refine ⟨number, l, hnumber, hl, (Text.occursIn_iff _ _).mp hp, ?_⟩
    intro n hn l' hl' hinfix
    rw [← Text.occursIn_iff, hleast n hn l' hl'] at hinfix
    cases hinfix

/-- **The lines that the check of entity types names** are lines of the text. -/
theorem isLine_of_mem_check (hf : f ∈ check rules (Layout.of t)) {number : Nat}
    (hn : f.line = some number) : ∃ l, t.IsLine number l := by
  rcases cases_of_mem_check hf with ⟨rfl, -⟩ | ⟨data, hdata, rfl⟩ | rfl |
    ⟨first, others, hunknown, rfl⟩
  · exact (isFirst_missingFinding.2 number hn).exists_isLine hn
  · exact (shows_emptyFinding hdata).exists_isLine hn
  · cases hn
  · exact (shows_unknownFinding hunknown).2.exists_isLine hn

end EntityTypes

/-! ### The rules of the trade -/

namespace Business

theorem line_propertySetFinding (rules : PropertySetRules) (l : Layout) (index : Nat)
    (name : Text) :
    (propertySetFinding rules l index name).line = some (l.content.lineAt index) := by
  unfold propertySetFinding
  dsimp only
  split <;> rfl

/-- **The findings about property sets**: one without a line if there are none, and else one for
each, with the line in which it begins. -/
theorem forall₂_propertySetFindings (rules : PropertySetRules) (t : Text) :
    (PropertySets.all rules t = [] ∧
      (propertySetFindings rules (Layout.of t)).map Finding.line = [none]) ∨
    List.Forall₂ (fun (set : Nat × Text) f =>
        (∃ length, PropertySets.atFront? rules (t.drop set.1) = some (set.2, length)) ∧
        ∃ number l, f.line = some number ∧ t.LiesIn set.1 number l)
      (PropertySets.all rules t) (propertySetFindings rules (Layout.of t)) := by
  unfold propertySetFindings
  split
  · next h => exact .inl ⟨h, rfl⟩
  · next h =>
    refine .inr ?_
    change List.Forall₂ _ (PropertySets.all rules t) ((PropertySets.all rules t).map _)
    rw [List.forall₂_map_right_iff, List.forall₂_same]
    rintro ⟨index, name⟩ hset
    obtain ⟨hlt, hbegins⟩ := Text.exists_of_mem_occurrences hset
    obtain ⟨l, hl⟩ := Text.liesIn_lineAt (Nat.le_of_lt hlt)
    exact ⟨hbegins, t.lineAt index, l, line_propertySetFinding _ _ _ _, hl⟩

/-- **The lines that the rules of the trade name** are lines of the text. -/
theorem isLine_of_mem_check {policy : Policy} (hf : f ∈ check policy (Layout.of t)) {number : Nat}
    (hn : f.line = some number) : ∃ l, t.IsLine number l := by
  rcases cases_of_mem_check hf with rfl | rfl | hf | rfl
  · unfold rootFinding at hn
    dsimp only at hn
    split at hn <;> cases hn
  · unfold containerFinding at hn
    split at hn <;> cases hn
  · unfold propertySetFindings at hf
    split at hf
    · obtain rfl := List.mem_singleton.mp hf
      cases hn
    · -- only property sets name lines, and each begins before the end of the text
      obtain ⟨⟨index, name⟩, hset, rfl⟩ := List.mem_map.mp hf
      rw [line_propertySetFinding, Option.some.injEq] at hn
      obtain ⟨hlt, -⟩ := Text.exists_of_mem_occurrences hset
      obtain ⟨l, hl⟩ := Text.liesIn_lineAt (Nat.le_of_lt hlt)
      exact ⟨l, hn ▸ hl.line⟩
  · unfold geometryFinding at hn
    split at hn <;> cases hn

end Business

/-! ### All groups -/

/-- **Every line that is named** is a line of the file. -/
theorem CheckGroup.isLine_of_mem_findings {policy : Policy} {group : CheckGroup}
    (hf : f ∈ group.findings policy (Layout.of t)) {number : Nat} (hn : f.line = some number) :
    ∃ l, t.IsLine number l := by
  cases group with
  | envelope => exact Envelope.isLine_of_mem_check hf hn
  | header => exact Header.isLine_of_mem_check hf hn
  | entities => exact EntityTypes.isLine_of_mem_check hf hn
  | business => exact Business.isLine_of_mem_check hf hn
  | practice =>
    have hpresence : ∀ entities code rule found missing,
        (Practice.presence (Layout.of t) entities code rule found missing).line = none := by
      intro entities code rule found missing
      unfold Practice.presence
      split <;> rfl
    unfold findings Practice.check at hf
    simp only [List.mem_cons, List.not_mem_nil, or_false] at hf
    -- nothing that is said about recommended practice has a line
    obtain rfl | rfl | rfl := hf
    · rw [hpresence] at hn
      cases hn
    · rw [hpresence] at hn
      cases hn
    · rw [hpresence] at hn
      cases hn

end StepCheck
