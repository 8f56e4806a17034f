import StepCheck.Proofs.Step.Arrangement

/-!
# Which schema a header names

The record that names the schema may stand anywhere in the header section, behind records that are
cut off or malformed, and behind a mere mention of its keyword. The leftmost place at which it reads
as it should decides, and there the first identifier of its list, taken literally. What stands
behind the closing mark of this identifier has no influence on what is said about it, as long as the
header section is closed at all: a record that begins further to the left is closed by its second
mark, and so it cannot have been completed by what stands there. What stands behind the header
section has no influence in any case.

* `Header.WrittenRecord`, `Header.RecordAt` — the record as it is written, and where it stands;
* `Header.FirstRecord` — the leftmost record, which is what the search finds
  (`Header.firstOccurrence?_eq_some_iff`, `Header.schema?_eq_some_iff`);
* `Header.TellsSchema` — what is said about a header, by its records;
* `Section.transfer`, `Header.FirstRecord.transfer` — contents that begin alike;
* `Header.IdentifiesSchema` — what is to be said about the schema of a content;
* `Header.identifies_schema` — it holds of every content with a header section.
-/

namespace StepCheck

/-! ### Contents that begin alike -/

/-- **A section that goes on differently**: where two contents begin alike, up to a place in the
section and not within an `ENDSEC;`, their sections begin alike too. -/
theorem Section.transfer {keyword c c' start : Text} {s s' : Section} (hne : keyword ≠ [])
    (h : find? keyword c = some s) (h' : find? keyword c' = some s') (hstart : start <+: c)
    (hstart' : start <+: c') (hoffset : s.offset ≤ start.length) (hle : start.length ≤ s.closing)
    (hend : ∀ k < start.length, ¬ start.drop k <+: Marker.sectionEnd) :
    s'.offset = s.offset ∧ s'.startLine = s.startLine ∧ start.drop s.offset <+: s.text ∧
      start.drop s.offset <+: s'.text := by
  obtain ⟨hopening, hoffset', hclosing, htext⟩ := places_of_find? h
  obtain ⟨hopening', hoffset'', hclosing', htext'⟩ := places_of_find? h'
  -- the keyword stands first at the same place
  have hsame := (hopening.transfer hne hstart hstart' (by omega)).unique hopening'
  have heq : s'.offset = s.offset := by omega
  have hline : s'.startLine = s.startLine := by
    obtain ⟨i, j, hi, -, -, -, hi'⟩ := find?_eq_some_iff.mp h
    obtain ⟨k, l, hk, -, -, -, hk'⟩ := find?_eq_some_iff.mp h'
    rw [hi', hk', hk.unique hopening', hi.unique hopening, ← hsame]
    exact (Text.lineAt_transfer hstart hstart' (by omega)).symm
  -- the section of the other content is not closed before the contents differ
  have hle' : start.length ≤ s'.closing := by
    by_contra hlt
    rw [Nat.not_le] at hlt
    rcases Nat.lt_or_ge start.length (s'.closing + Marker.sectionEnd.length) with hpast | hwithin
    · -- an end that reaches past that place would begin with the end of the common part
      apply hend s'.closing hlt
      refine List.prefix_of_prefix_length_le (hstart'.drop s'.closing) hclosing'.occurs ?_
      rw [List.length_drop]
      omega
    · have hearlier := hclosing'.transfer (by decide) hstart' hstart hwithin
      rw [heq] at hearlier
      have hclosings := hearlier.unique hclosing
      omega
  have hprefix : start <+: c.take s.closing := by
    rw [List.prefix_take_iff]
    exact ⟨hstart, hle⟩
  have hprefix' : start <+: c'.take s'.closing := by
    rw [List.prefix_take_iff]
    exact ⟨hstart', hle'⟩
  rw [htext, htext', heq]
  exact ⟨rfl, hline, hprefix.drop s.offset, hprefix'.drop s.offset⟩

namespace Header

open Text (FirstFrom)

variable {t u v c c' front front' x y : Text} {i k : Nat} {s s' : Section}

/-! ### Records and their places -/

/-- **The record as it is written**, up to the closing mark of its first identifier. -/
def WrittenRecord (x front : Text) : Prop :=
  ∃ ws₁ ws₂ ws₃ : Text, (∀ c ∈ ws₁ ++ ws₂ ++ ws₃, c.isBlank = true) ∧
    CodePoint.ofChar '\'' ∉ x ∧
    front = "FILE_SCHEMA" ++ ws₁ ++ "(" ++ ws₂ ++ "(" ++ ws₃ ++ "'" ++ x ++ "'"

/-- The record begins with its keyword. -/
theorem WrittenRecord.begins (h : WrittenRecord x front) : schemaKeyword <+: front := by
  obtain ⟨ws₁, ws₂, ws₃, -, -, rfl⟩ := h
  refine ⟨ws₁ ++ "(" ++ ws₂ ++ "(" ++ ws₃ ++ "'" ++ x ++ "'", ?_⟩
  simp only [List.append_assoc]
  rfl

/-- The record closes with a mark. -/
theorem WrittenRecord.exists_concat (h : WrittenRecord x front) :
    ∃ init, front = init ++ [CodePoint.ofChar '\''] := by
  obtain ⟨ws₁, ws₂, ws₃, -, -, rfl⟩ := h
  exact ⟨_, rfl⟩

/-- **The record holds two marks.** -/
theorem WrittenRecord.count_eq (h : WrittenRecord x front) :
    front.count (CodePoint.ofChar '\'') = 2 := by
  obtain ⟨ws₁, ws₂, ws₃, hws, hx, rfl⟩ := h
  rw [List.forall_mem_append, List.forall_mem_append] at hws
  obtain ⟨⟨hws₁, hws₂⟩, hws₃⟩ := hws
  have hblank : ∀ ws : Text, (∀ c ∈ ws, c.isBlank = true) →
      ws.count (CodePoint.ofChar '\'') = 0 := by
    intro ws hws
    rw [List.count_eq_zero]
    intro hmem
    exact absurd (hws _ hmem) (by decide)
  simp only [List.count_append, hblank ws₁ hws₁, hblank ws₂ hws₂, hblank ws₃ hws₃,
    List.count_eq_zero.mpr hx]
  decide

/-- **A record stands** at an index of a text, with its first identifier. -/
def RecordAt (t : Text) (i : Nat) (x : Text) : Prop :=
  ∃ front, WrittenRecord x front ∧ front <+: t.drop i

/-- A record stands where one is read at the front of the rest. -/
theorem recordAt_iff : RecordAt t i x ↔ schemaAtFront? (t.drop i) = some x := by
  rw [schemaAtFront?_eq_some_iff]
  constructor
  · rintro ⟨front, ⟨ws₁, ws₂, ws₃, hws, hx, rfl⟩, after, hafter⟩
    exact ⟨ws₁, ws₂, ws₃, after, hws, hx, hafter.symm⟩
  · rintro ⟨ws₁, ws₂, ws₃, after, hws, hx, hdrop⟩
    exact ⟨_, ⟨ws₁, ws₂, ws₃, hws, hx, rfl⟩, after, hdrop.symm⟩

/-- A record has only one first identifier. -/
theorem RecordAt.unique (h : RecordAt t i x) (h' : RecordAt t i y) : x = y := by
  rw [recordAt_iff] at h h'
  rw [h] at h'
  exact Option.some.inj h'

/-- No record stands at the end of a text. -/
theorem RecordAt.lt_length (h : RecordAt t i x) : i < t.length := by
  obtain ⟨front, hfront, hprefix⟩ := h
  have hle := Text.length_add_le_of_prefix (by decide) (hfront.begins.trans hprefix)
  have hpos : 0 < schemaKeyword.length := by decide
  omega

/-- **The leftmost record** of a text. -/
structure FirstRecord (t : Text) (i : Nat) (x : Text) : Prop where
  here : RecordAt t i x
  least : ∀ k y, RecordAt t k y → i ≤ k

/-- Where there is a record there is a leftmost one, and only one. -/
theorem RecordAt.existsUnique_first (h : RecordAt t i x) :
    ∃! p : Nat × Text, FirstRecord t p.1 p.2 := by
  classical
  have hexists : ∃ k y, RecordAt t k y := ⟨i, x, h⟩
  obtain ⟨y, hy⟩ := Nat.find_spec hexists
  have hleast : ∀ k y, RecordAt t k y → Nat.find hexists ≤ k := fun k y hk =>
    Nat.find_min' hexists ⟨y, hk⟩
  refine ⟨(Nat.find hexists, y), ⟨hy, hleast⟩, ?_⟩
  rintro ⟨k, z⟩ hz
  obtain rfl : k = Nat.find hexists := Nat.le_antisymm (hz.least _ y hy) (hleast k z hz.here)
  rw [Prod.mk.injEq]
  exact ⟨rfl, hz.here.unique hy⟩

/-- **The search finds the leftmost record**, with its place. -/
theorem firstOccurrence?_eq_some_iff :
    t.firstOccurrence? (fun s => (schemaAtFront? s).map fun x => (x, 1)) = some (i, x)
      ↔ FirstRecord t i x := by
  -- how long a record is plays no part, since only the first one is looked for
  rw [Text.firstOccurrence?_eq_some_iff]
  constructor
  · rintro ⟨-, ⟨length, hmatch⟩, hnone⟩
    obtain ⟨y, hy, heq⟩ := Option.map_eq_some_iff.mp hmatch
    cases heq
    refine ⟨recordAt_iff.mpr hy, fun k z hk => ?_⟩
    by_contra hlt
    have hmatch := hnone k (Nat.lt_of_not_le hlt)
    rw [recordAt_iff.mp hk] at hmatch
    cases hmatch
  · rintro ⟨hhere, hleast⟩
    refine ⟨hhere.lt_length, ⟨1, ?_⟩, fun k hk => ?_⟩
    · rw [recordAt_iff.mp hhere]
      rfl
    · rw [Option.map_eq_none_iff, Option.eq_none_iff_forall_ne_some]
      intro y hy
      exact Nat.not_le_of_lt hk (hleast k y (recordAt_iff.mpr hy))

/-- **The schema that is read** is that of the first record. -/
theorem schema?_eq_some_iff : schema? t = some x ↔ ∃ i, FirstRecord t i x := by
  unfold schema?
  rw [Option.map_eq_some_iff, Prod.exists]
  simp only [firstOccurrence?_eq_some_iff, exists_eq_right]

/-- No identifier is read just if there is no record. -/
theorem schema?_eq_none_iff : schema? t = none ↔ ∀ i x, ¬ RecordAt t i x := by
  rw [Option.eq_none_iff_forall_ne_some]
  constructor
  · intro hnone i x h
    obtain ⟨⟨k, y⟩, hfirst, -⟩ := h.existsUnique_first
    exact hnone y (schema?_eq_some_iff.mpr ⟨k, hfirst⟩)
  · intro hnone x h
    obtain ⟨i, hfirst⟩ := schema?_eq_some_iff.mp h
    exact hnone i x hfirst.here

/-- **The leftmost record stays the leftmost one**, whatever stands behind it: a record that begins
before it and is completed there would hold three marks. -/
theorem FirstRecord.transfer (h : FirstRecord t i x) (hfront : WrittenRecord x front)
    (hu : u <+: t) (hv : u <+: v) (hdrop : u.drop i = front) : FirstRecord v i x where
  here := by
    refine ⟨front, hfront, ?_⟩
    rw [← hdrop]
    exact hv.drop i
  least k y hk := by
    by_contra hlt
    rw [Nat.not_le] at hlt
    obtain ⟨front', hfront', hprefix⟩ := hk
    rcases List.prefix_or_prefix_of_prefix hprefix (hv.drop k) with hwithin | hacross
    · -- a record within the common part stands in the other text as well
      have hle := h.least k y ⟨front', hfront', hwithin.trans (hu.drop k)⟩
      omega
    · -- the rest of the common part is the beginning of this record, and ends with the leftmost one
      obtain ⟨rest, hrest⟩ := hacross
      have hsuffix : front <:+ u.drop k := by
        rw [← hdrop, ← Nat.add_sub_of_le (Nat.le_of_lt hlt), ← List.drop_drop]
        exact List.drop_suffix _ _
      have hcount := hfront'.count_eq
      rw [← hrest, List.count_append] at hcount
      have htwo := hsuffix.sublist.count_le (CodePoint.ofChar '\'')
      rw [hfront.count_eq] at htwo
      have hnone : CodePoint.ofChar '\'' ∉ rest := List.count_eq_zero.mp (by omega)
      -- nothing is left for the rest, since its mark would be the third one
      have hnil : rest = [] := by
        by_contra hne
        obtain ⟨init, hconcat⟩ := hfront'.exists_concat
        rw [← hrest] at hconcat
        have hlast := congrArg List.getLast? hconcat
        rw [List.getLast?_append_of_ne_nil _ hne, List.getLast?_concat] at hlast
        exact hnone (List.mem_of_getLast? hlast)
      rw [hnil, List.append_nil] at hrest
      have hle := h.least k y ⟨front', hfront', by
        rw [← hrest]
        exact hu.drop k⟩
      omega

/-! ### What is said about the schema -/

open CheckGroup (outcomesAbout)

/-- The rules about the schema. -/
def schemaRules : List Rule := [.fileSchemaRequired, .fileSchemaValidation]

/-- **There is one outcome about the schema** of a content with a header section. -/
theorem outcomesAbout_schema (P : Policy) (h : (Layout.of c).header = some s) :
    outcomesAbout P (Layout.of c) schemaRules
      = [(schemaFinding (Layout.of c) P.schemas s).outcome .header] := by
  have hgroup : ∀ rule ∈ schemaRules, rule ∈ Rule.ofGroup .header := by decide
  have hrule : (schemaFinding (Layout.of c) P.schemas s).rule ∈ schemaRules := by
    rcases (schemaFinding_spec (Layout.of c) P.schemas s).1 with h | h <;>
    · rw [h]
      decide
  -- where there is a header, the last of three findings is about the schema
  have hfindings : CheckGroup.header.findings P (Layout.of c)
      = [recordFinding (Layout.of c) s "FILE_DESCRIPTION" .fileDescriptionRequired,
        recordFinding (Layout.of c) s "FILE_NAME" .fileNameRequired,
        schemaFinding (Layout.of c) P.schemas s] := by
    show check P.schemas (Layout.of c) = _
    unfold check
    rw [h]
  rw [CheckGroup.outcomesAbout_eq hgroup, hfindings]
  simp only [List.filter_cons, rule_recordFinding, hrule, List.filter_nil]
  rfl

/-- **What is said about a header** of the given text, by its records. -/
structure TellsSchema (rules : SchemaRules) (t : Text) (o : Outcome) : Prop where
  /-- The record is required just when it stands nowhere. -/
  required_iff : o.severity = .error ∧ o.rule = some Rule.fileSchemaRequired.name ↔
    ∀ i x, ¬ RecordAt t i x
  /-- Otherwise the identifier of the leftmost record is judged: it passes just when it is known. -/
  judged : ∀ i x, FirstRecord t i x → o.rule = some Rule.fileSchemaValidation.name ∧
    (o.severity = .passed ↔ x ∈ rules.known)
  /-- What passes is named. -/
  known : ∀ i x, FirstRecord t i x → x ∈ rules.known →
    o.observed = "Valid IFC schema found: " ++ x
  /-- What does not is named in a warning, with as many of the known identifiers as the policy says.
  -/
  unknown : ∀ i x, FirstRecord t i x → x ∉ rules.known → o.severity = .warning ∧
    ∃ count : Nat, (count : Int) = rules.suggestedCount ∧
      o.observed = "Unknown or outdated IFC schema: " ++ x ++ ". Recommended schemas: "
        ++ Text.join ", " (rules.known.take count)

/-- An identifier that is known passes. -/
theorem schemaFinding_of_known {rules : SchemaRules} (l : Layout) (hfirst : FirstRecord s.text i x)
    (hknown : x ∈ rules.known) : (schemaFinding l rules s).rule = .fileSchemaValidation ∧
      (schemaFinding l rules s).severity = .passed ∧
      (schemaFinding l rules s).observed = "Valid IFC schema found: " ++ x := by
  unfold schemaFinding
  dsimp only
  rw [schema?_eq_some_iff.mpr ⟨i, hfirst⟩]
  dsimp only
  rw [if_pos (List.contains_iff_mem.mpr hknown)]
  exact ⟨rfl, rfl, rfl⟩

/-- An identifier that is not known is warned of. -/
theorem schemaFinding_of_unknown {rules : SchemaRules} (l : Layout)
    (hfirst : FirstRecord s.text i x) (hunknown : x ∉ rules.known) :
    (schemaFinding l rules s).rule = .fileSchemaValidation ∧
      (schemaFinding l rules s).severity = .warning ∧
      (schemaFinding l rules s).observed = "Unknown or outdated IFC schema: " ++ x
        ++ ". Recommended schemas: " ++ Text.join ", " rules.suggested := by
  unfold schemaFinding
  dsimp only
  rw [schema?_eq_some_iff.mpr ⟨i, hfirst⟩]
  dsimp only
  rw [if_neg (mt List.contains_iff_mem.mp hunknown)]
  exact ⟨rfl, rfl, rfl⟩

/-- Without a record the schema is required. -/
theorem schemaFinding_of_missing (rules : SchemaRules) (l : Layout)
    (hmissing : ∀ i x, ¬ RecordAt s.text i x) :
    (schemaFinding l rules s).rule = .fileSchemaRequired ∧
      (schemaFinding l rules s).severity = .error := by
  unfold schemaFinding
  dsimp only
  rw [schema?_eq_none_iff.mpr hmissing]
  exact ⟨rfl, rfl⟩

theorem tells_schemaFinding {rules : SchemaRules} (hcount : 0 ≤ rules.suggestedCount) (l : Layout)
    (s : Section) : TellsSchema rules s.text ((schemaFinding l rules s).outcome .header) where
  required_iff := by
    constructor
    · rintro ⟨hseverity, -⟩ i x hrecord
      rw [Finding.outcome_severity] at hseverity
      -- where a record stands, the leftmost one is judged, and that is no error
      obtain ⟨⟨i, x⟩, hfirst, -⟩ := hrecord.existsUnique_first
      by_cases hknown : x ∈ rules.known
      · rw [(schemaFinding_of_known l hfirst hknown).2.1] at hseverity
        cases hseverity
      · rw [(schemaFinding_of_unknown l hfirst hknown).2.1] at hseverity
        cases hseverity
    · intro hmissing
      obtain ⟨hrule, hseverity⟩ := schemaFinding_of_missing rules l hmissing
      exact ⟨hseverity, by rw [Finding.outcome_rule, hrule]⟩
  judged i x hfirst := by
    rw [Finding.outcome_rule, Finding.outcome_severity]
    by_cases hknown : x ∈ rules.known
    · obtain ⟨hrule, hseverity, -⟩ := schemaFinding_of_known l hfirst hknown
      rw [hrule, hseverity]
      exact ⟨rfl, iff_of_true rfl hknown⟩
    · obtain ⟨hrule, hseverity, -⟩ := schemaFinding_of_unknown l hfirst hknown
      rw [hrule, hseverity]
      exact ⟨rfl, iff_of_false nofun hknown⟩
  known i x hfirst hknown := (schemaFinding_of_known l hfirst hknown).2.2
  unknown i x hfirst hunknown := by
    obtain ⟨-, hseverity, hobserved⟩ := schemaFinding_of_unknown l hfirst hunknown
    obtain ⟨count, hcount⟩ := Int.eq_ofNat_of_zero_le hcount
    refine ⟨hseverity, count, hcount.symm, hobserved.trans ?_⟩
    rw [SchemaRules.suggested, hcount, Int.toNat_natCast]

/-! ### What has no influence -/

/-- The line of a keyword in the headers of two contents that begin alike, up to the keyword. -/
theorem keywordLine?_transfer {keyword start : Text} (hstart : start <+: c) (hstart' : start <+: c')
    (hoffset : s'.offset = s.offset) (hindex : FirstFrom keyword s.text 0 k)
    (hindex' : FirstFrom keyword s'.text 0 k) (hle : s.offset + k ≤ start.length) :
    keywordLine? (Layout.of c') s' keyword = keywordLine? (Layout.of c) s keyword := by
  unfold keywordLine? Section.lineOf
  rw [Text.indexIn?_eq_some_iff.mpr hindex, Text.indexIn?_eq_some_iff.mpr hindex', Option.map_some,
    Option.map_some, hoffset]
  exact congrArg some (Text.lineAt_transfer hstart' hstart hle)

/-- Two headers have the same finding about the schema if identifiers and lines are the same. -/
theorem schemaFinding_congr {l l' : Layout} (rules : SchemaRules)
    (hschema : schema? s'.text = schema? s.text) (hline : s'.startLine = s.startLine)
    (hkeyword : keywordLine? l' s' schemaKeyword = keywordLine? l s schemaKeyword) :
    schemaFinding l' rules s' = schemaFinding l rules s := by
  unfold schemaFinding
  rw [hschema, hline, hkeyword]

/-- **Behind the header section** nothing has influence. -/
theorem outcomesAbout_schema_of_end (P : Policy) (h : (Layout.of c).header = some s)
    (hc' : c.take s.finish <+: c') :
    outcomesAbout P (Layout.of c') schemaRules = outcomesAbout P (Layout.of c) schemaRules := by
  have hsection : Section.find? Marker.header c = some s := h
  have hend := Section.end_le_length hsection
  have hlength : (c.take s.finish).length = s.finish := List.length_take_of_le hend
  have h' : (Layout.of c').header = some s :=
    Section.find?_transfer hsection (by decide) (List.take_prefix s.finish c) hc'
      (Nat.le_of_eq hlength.symm)
  rw [outcomesAbout_schema P h, outcomesAbout_schema P h']
  refine congrArg (fun f => [Finding.outcome .header f]) (schemaFinding_congr P.schemas rfl rfl ?_)
  -- the finding depends on what stands behind the section only through the line of the keyword, and
  -- that lies before its end
  cases hindex : schemaKeyword.indexIn? s.text with
  | none =>
    unfold keywordLine?
    rw [hindex]
    rfl
  | some k =>
    have hfirst := Text.indexIn?_eq_some_iff.mp hindex
    refine keywordLine?_transfer (List.take_prefix s.finish c) hc' rfl hfirst hfirst ?_
    have hle := hfirst.index_le
    rw [hlength]
    unfold Section.finish Section.closing
    omega

/-- Up to the closing mark of a record stands what is before the record, and then the record. -/
theorem take_eq_append (h : (Layout.of c).header = some s) (hplace : front <+: s.text.drop i)
    (hi : i ≤ s.text.length) :
    c.take (s.offset + i + front.length) = c.take (s.offset + i) ++ front ∧
      (c.take (s.offset + i + front.length)).length = s.offset + i + front.length ∧
      s.offset + i + front.length ≤ s.closing := by
  obtain ⟨-, -, -, htext⟩ := Section.places_of_find? (h : Section.find? _ c = some s)
  have hend := Section.end_le_length (h : Section.find? _ c = some s)
  -- what is at a place of the section is at the same place of the content
  have hdrop : front <+: c.drop (s.offset + i) := by
    rw [htext, List.drop_drop] at hplace
    exact hplace.trans ((List.take_prefix s.closing c).drop _)
  have hinside : i + front.length ≤ s.text.length := by
    have hle := hplace.length_le
    rw [List.length_drop] at hle
    omega
  refine ⟨?_, List.length_take_of_le (by omega), ?_⟩
  · rw [List.take_add, ← List.prefix_iff_eq_take.mp hdrop]
  · unfold Section.closing
    omega

/-- No `ENDSEC;` begins in what ends with a record, for it has no mark among its characters. -/
theorem WrittenRecord.not_begins_end (h : WrittenRecord x front) (before : Text) {k : Nat}
    (hk : k < (before ++ front).length) : ¬ (before ++ front).drop k <+: Marker.sectionEnd := by
  intro hwithin
  obtain ⟨init, rfl⟩ := h.exists_concat
  rw [← List.append_assoc] at hk hwithin
  rw [List.length_append, List.length_singleton] at hk
  rw [List.drop_append_of_le_length (Nat.le_of_lt_succ hk)] at hwithin
  have hmem := hwithin.subset (List.mem_append_right _ List.mem_cons_self)
  exact absurd hmem (by decide)

/-- **Behind the leftmost record** nothing has influence, if there is a header section at all. -/
theorem outcomesAbout_schema_of_record (P : Policy) (h : (Layout.of c).header = some s)
    (hfirst : FirstRecord s.text i x) (hfront : WrittenRecord x front)
    (hplace : front <+: s.text.drop i) (hc' : c.take (s.offset + i + front.length) <+: c')
    (h' : (Layout.of c').header = some s') :
    outcomesAbout P (Layout.of c') schemaRules = outcomesAbout P (Layout.of c) schemaRules := by
  obtain ⟨hcommon, hlength, hclosing⟩ :=
    take_eq_append h hplace (Nat.le_of_lt hfirst.here.lt_length)
  have hc := List.take_prefix (s.offset + i + front.length) c
  -- the two headers begin alike, up to the closing mark
  obtain ⟨hoffset, hline, hu, hv⟩ := Section.transfer (by decide) h h' hc hc' (by omega) (by omega)
    fun k hk => by
      rw [hcommon] at hk ⊢
      exact hfront.not_begins_end _ hk
  have hdrop : ((c.take (s.offset + i + front.length)).drop s.offset).drop i = front := by
    have hbefore : (c.take (s.offset + i)).length = s.offset + i := by
      rw [hcommon, List.length_append] at hlength
      omega
    rw [List.drop_drop, hcommon, List.drop_left' hbefore]
  -- the leftmost record, and the first mention of its keyword at or before it, are in that part
  have hfirst' := hfirst.transfer hfront hu hv hdrop
  obtain ⟨k, hle, hk⟩ := Text.exists_firstFrom (Nat.zero_le i) (hfront.begins.trans hplace)
  have hk' : FirstFrom schemaKeyword s'.text 0 k := by
    refine hk.transfer (by decide) hu hv ?_
    have hle' := hfront.begins.length_le
    rw [List.length_drop, hlength]
    omega
  rw [outcomesAbout_schema P h, outcomesAbout_schema P h']
  refine congrArg (fun f => [Finding.outcome .header f]) (schemaFinding_congr P.schemas ?_ hline
    (keywordLine?_transfer hc hc' hoffset hk hk' ?_))
  · rw [schema?_eq_some_iff.mpr ⟨i, hfirst⟩, schema?_eq_some_iff.mpr ⟨i, hfirst'⟩]
  · omega

/-! ### The schema of a content -/

/-- **What is to be said about the schema** of a content with a header section. -/
structure IdentifiesSchema (P : Policy) (c : Text) (s : Section) : Prop where
  /-- There is one outcome, by the records of the header. -/
  told : ∃ o, outcomesAbout P (Layout.of c) schemaRules = [o] ∧ TellsSchema P.schemas s.text o
  /-- Where a record stands there is one leftmost record. -/
  leftmost : (∃ i x, RecordAt s.text i x) → ∃! p : Nat × Text, FirstRecord s.text p.1 p.2
  /-- Contents that begin alike up to the closing mark of its identifier have the same outcome. -/
  behindRecord : ∀ i x front, FirstRecord s.text i x → WrittenRecord x front →
    front <+: s.text.drop i → ∀ c', c.take (s.offset + i + front.length) <+: c' →
      (Layout.of c').header.isSome →
      outcomesAbout P (Layout.of c') schemaRules = outcomesAbout P (Layout.of c) schemaRules
  /-- And so have contents that begin alike up to the end of the header section. -/
  behindSection : ∀ c', c.take s.finish <+: c' →
    outcomesAbout P (Layout.of c') schemaRules = outcomesAbout P (Layout.of c) schemaRules

/-- **The schema of a content**, whatever its header holds, under every accepted policy. -/
theorem identifies_schema {P : Policy} (hP : P.Accepted) {c : Text} {s : Section}
    (h : (Layout.of c).header = some s) : IdentifiesSchema P c s where
  told := by
    have hcount : 0 ≤ P.schemas.suggestedCount := Int.le_trans (by decide) hP.one_le_suggestedCount
    exact ⟨_, outcomesAbout_schema P h, tells_schemaFinding hcount (Layout.of c) s⟩
  leftmost := by
    rintro ⟨i, x, hrecord⟩
    exact hrecord.existsUnique_first
  behindRecord i x front hfirst hfront hplace c' hc' hsome := by
    obtain ⟨s', h'⟩ := Option.isSome_iff_exists.mp hsome
    exact outcomesAbout_schema_of_record P h hfirst hfront hplace hc' h'
  behindSection c' hc' := outcomesAbout_schema_of_end P h hc'

/-- The text of a header with a malformed record, a record with two identifiers, and a third one. -/
def recordsSample : Text :=
  "FILE_SCHEMA('IFC4');FILE_SCHEMA ( ( 'ifc4','IFC4'));FILE_SCHEMA(('IFC2X3'));"

/-- The second record is the leftmost one, and its first identifier is not known as written. -/
theorem identifies_schema_recordsSample :
    IdentifiesSchema Policy.bundled ("HEADER;" ++ recordsSample ++ "ENDSEC;")
        ⟨recordsSample, 7, 1⟩ ∧
      FirstRecord recordsSample 20 "ifc4" ∧
      (Text.ofString "ifc4") ∉ Policy.bundled.schemas.known := by
  have hheader : (Layout.of ("HEADER;" ++ recordsSample ++ "ENDSEC;")).header
      = some ⟨recordsSample, 7, 1⟩ := by
    decide +kernel
  refine ⟨identifies_schema Policy.accepted_bundled hheader, ?_, by decide +kernel⟩
  rw [← firstOccurrence?_eq_some_iff]
  decide +kernel

end Header

end StepCheck
