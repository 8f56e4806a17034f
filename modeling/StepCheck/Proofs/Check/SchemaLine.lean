import StepCheck.Proofs.Check.SchemaRecords

/-!
# The line of the schema

What is said about the schema comes from two searches of the header. The identifier is that of the
leftmost record, but the line is that of the first mention of the keyword, be it in a string, in a
record that is malformed, or in a longer word. A mention never stands behind the leftmost record, so
the line that is told is at most too small. It is the line of the record just when no line feed
stands between the two.

* `Header.PointsAt` — an outcome tells the line of a place of the header;
* `Header.line_schemaFinding` — the line that is told;
* `Header.LocatesSchema`, `Header.locates_schema` — which headers have their schema located;
* `Header.not_pointsAt_mentionSample` — a header that does not.
-/

namespace StepCheck.Header

open CheckGroup (outcomesAbout)
open Text (FirstFrom)

variable {c : Text} {s : Section} {o : Outcome} {i k : Nat} {x : Text}

/-! ### Lines of a header -/

/-- **An outcome points at a place** of the header if it has the line in which the place lies. -/
def PointsAt (c : Text) (s : Section) (i : Nat) (o : Outcome) : Prop :=
  ∃ number l, c.LiesIn (s.offset + i) number l ∧ o.line = some (number : Int)

/-- The line of a place in the header is counted from the front of the content. -/
theorem pointsAt_iff (h : (Layout.of c).header = some s) (hi : i ≤ s.text.length) :
    PointsAt c s i o ↔ o.line = some (s.lineOf c i : Int) := by
  have hend := Section.end_le_length (h : Section.find? Marker.header c = some s)
  have hinside : s.offset + i ≤ c.length := by omega
  obtain ⟨l, hl⟩ := Text.liesIn_lineAt hinside
  constructor
  · rintro ⟨number, l', hl', hline⟩
    rw [hline, hl'.unique hl]
    rfl
  · intro hline
    exact ⟨_, l, hl, hline⟩

/-- **Two places lie in one line** just when no line feed stands between them. -/
theorem lineOf_eq_lineOf_iff (h : (Layout.of c).header = some s) (hle : k ≤ i)
    (hi : i ≤ s.text.length) :
    s.lineOf c k = s.lineOf c i ↔ CodePoint.lineFeed ∉ (s.text.take i).drop k := by
  have hsection : Section.find? Marker.header c = some s := h
  have hkeyword : CodePoint.lineFeed ∉ Marker.header := by decide
  -- the line feeds before the later place are those before the earlier one and those between them
  have hsplit : s.text.take i = s.text.take k ++ (s.text.take i).drop k := by
    calc s.text.take i = (s.text.take i).take k ++ (s.text.take i).drop k :=
          (List.take_append_drop k _).symm
      _ = s.text.take k ++ (s.text.take i).drop k := by rw [List.take_take, Nat.min_eq_left hle]
  have hcount := congrArg (List.count CodePoint.lineFeed) hsplit
  rw [List.count_append] at hcount
  rw [Section.lineOf_eq hsection hkeyword (hle.trans hi), Section.lineOf_eq hsection hkeyword hi,
    ← List.count_eq_zero]
  omega

/-! ### The line that is told -/

/-- A record has its keyword at its front. -/
theorem RecordAt.keyword (h : RecordAt s.text i x) : schemaKeyword <+: s.text.drop i := by
  obtain ⟨front, hfront, hplace⟩ := h
  exact hfront.begins.trans hplace

/-- **The line of the first mention** of the keyword is told with the identifier of a record. -/
theorem line_schemaFinding (rules : SchemaRules) (c : Text) (hfirst : FirstRecord s.text i x)
    (hmention : FirstFrom schemaKeyword s.text 0 k) :
    (schemaFinding (Layout.of c) rules s).rule = .fileSchemaValidation ∧
      ((schemaFinding (Layout.of c) rules s).outcome .header).line
        = some (s.lineOf c k : Int) := by
  have hline : keywordLine? (Layout.of c) s schemaKeyword = some (s.lineOf c k) := by
    unfold keywordLine?
    rw [Text.indexIn?_eq_some_iff.mpr hmention]
    rfl
  unfold schemaFinding
  rw [schema?_eq_some_iff.mpr ⟨i, hfirst⟩, hline]
  dsimp only
  split
  · exact ⟨rfl, rfl⟩
  · exact ⟨rfl, rfl⟩

/-- **What is to be said about the line** that is told with an identifier. -/
structure LocatesSchema (P : Policy) (c : Text) (s : Section) : Prop where
  /-- It is the line of the first mention of the keyword, at the leftmost record or before it. -/
  mention : ∀ i x, FirstRecord s.text i x → ∃ o k, outcomesAbout P (Layout.of c) schemaRules = [o] ∧
    o.rule = some Rule.fileSchemaValidation.name ∧ FirstFrom schemaKeyword s.text 0 k ∧ k ≤ i ∧
    PointsAt c s k o
  /-- It is the line of the record just when no line feed stands between the two. -/
  record_iff : ∀ i x k o, FirstRecord s.text i x → FirstFrom schemaKeyword s.text 0 k →
    outcomesAbout P (Layout.of c) schemaRules = [o] →
    (PointsAt c s i o ↔ CodePoint.lineFeed ∉ (s.text.take i).drop k)
  /-- It is never greater. -/
  record_le : ∀ i x o number l line, FirstRecord s.text i x →
    outcomesAbout P (Layout.of c) schemaRules = [o] → c.LiesIn (s.offset + i) number l →
    o.line = some line → line ≤ number

/-- **Which headers have their schema located**: those that do not mention the keyword on a line
before that of the leftmost record. -/
theorem locates_schema (P : Policy) {c : Text} {s : Section}
    (h : (Layout.of c).header = some s) : LocatesSchema P c s where
  mention i x hfirst := by
    -- the record mentions the keyword, so that there is a first mention
    obtain ⟨k, hle, hmention⟩ := Text.exists_firstFrom (Nat.zero_le i) hfirst.here.keyword
    obtain ⟨hrule, hline⟩ := line_schemaFinding P.schemas c hfirst hmention
    have hi := hfirst.here.lt_length
    refine ⟨_, k, outcomesAbout_schema P h, ?_, hmention, hle, ?_⟩
    · rw [Finding.outcome_rule, hrule]
    · exact (pointsAt_iff h (by omega)).mpr hline
  record_iff i x k o hfirst hmention ho := by
    obtain ⟨-, hline⟩ := line_schemaFinding P.schemas c hfirst hmention
    obtain rfl := List.singleton_inj.mp ((outcomesAbout_schema P h).symm.trans ho)
    have hi := Nat.le_of_lt hfirst.here.lt_length
    have hle := hmention.least i (Nat.zero_le i) hfirst.here.keyword
    rw [pointsAt_iff h hi, hline, Option.some.injEq, Int.natCast_inj, lineOf_eq_lineOf_iff h hle hi]
  record_le i x o number l line hfirst ho hl hline := by
    obtain ⟨k, hle, hmention⟩ := Text.exists_firstFrom (Nat.zero_le i) hfirst.here.keyword
    obtain ⟨-, hline'⟩ := line_schemaFinding P.schemas c hfirst hmention
    obtain rfl := List.singleton_inj.mp ((outcomesAbout_schema P h).symm.trans ho)
    -- the mention is not behind the record, and lines only grow
    have hend := Section.end_le_length (h : Section.find? Marker.header c = some s)
    have hi := hfirst.here.lt_length
    have hinside : s.offset + i ≤ c.length := by omega
    obtain ⟨l', hl'⟩ := Text.liesIn_lineAt hinside
    rw [hline', Option.some.injEq] at hline
    rw [← hline, hl.unique hl', Int.ofNat_le]
    exact c.lineAt_le_lineAt (Nat.add_le_add_left hle s.offset)

/-- The text of a header that mentions the keyword in a string, two lines before the record. -/
def mentionText : Text :=
  "\nFILE_DESCRIPTION(('see FILE_SCHEMA'),'2;1');\nFILE_NAME('a.ifc');\nFILE_SCHEMA(('IFC4'));\n"

/-- A content with this header. -/
def mentionSample : Text := "HEADER;" ++ mentionText ++ "ENDSEC;"

private theorem header_mentionSample :
    (Layout.of mentionSample).header = some ⟨mentionText, 7, 1⟩ := by
  decide +kernel

private theorem firstRecord_mentionText : FirstRecord mentionText 66 "IFC4" := by
  rw [← firstOccurrence?_eq_some_iff]
  decide +kernel

private theorem firstFrom_mentionText : FirstFrom schemaKeyword mentionText 0 24 := by
  rw [← Text.indexIn?_eq_some_iff]
  decide +kernel

/-- The line that is told is that of the string. -/
theorem locates_schema_mentionSample :
    LocatesSchema Policy.bundled mentionSample ⟨mentionText, 7, 1⟩ ∧
      FirstRecord mentionText 66 "IFC4" :=
  ⟨locates_schema Policy.bundled header_mentionSample, firstRecord_mentionText⟩

/-- **A header whose schema is not located**: the outcome about its identifier does not point at the
record. -/
theorem not_pointsAt_mentionSample :
    ∃ o, outcomesAbout Policy.bundled (Layout.of mentionSample) schemaRules = [o] ∧
      o.rule = some Rule.fileSchemaValidation.name ∧
      (Layout.of mentionSample).header = some ⟨mentionText, 7, 1⟩ ∧
      FirstRecord mentionText 66 "IFC4" ∧
      ¬ PointsAt mentionSample ⟨mentionText, 7, 1⟩ 66 o := by
  obtain ⟨hrule, hline⟩ := line_schemaFinding (s := ⟨mentionText, 7, 1⟩) Policy.bundled.schemas
    mentionSample firstRecord_mentionText firstFrom_mentionText
  refine ⟨_, outcomesAbout_schema Policy.bundled header_mentionSample, ?_, header_mentionSample,
    firstRecord_mentionText, ?_⟩
  · rw [Finding.outcome_rule, hrule]
  · rw [pointsAt_iff header_mentionSample (by decide +kernel), hline]
    decide +kernel

end StepCheck.Header
