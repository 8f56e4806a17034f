import StepCheck.Proofs.Run.Perform
import StepCheck.Proofs.Text.Search

/-!
# What the verdict means

A file is valid if no check of any group finds an error. Of the rules that are checked only some can
be broken with an error, and what those ask of a content can be said in one place and without the
checks: its first and last words, its parentheses, two sections with three records in the first, and
one root of the spatial structure. Everything else that a policy lists changes warnings only.

* `Conformant` — what is asked of a content, given the name of the root;
* `CheckGroup.harmless_iff_conformant` — no group of checks finds an error just when the content is
  conformant;
* `Report.isValid_iff_conformant` — the verdict of every report, which depends on nothing of a
  policy but the name of the root.
-/

namespace StepCheck

/-! ### Conformity -/

/-- A part of a text reads as the record that names the schema: the keyword, two opening parentheses
and a quoted identifier, with white space between them. -/
def NamesSchema (t : Text) : Prop :=
  ∃ before ws₁ ws₂ ws₃ identifier after : Text,
    (∀ c ∈ ws₁ ++ ws₂ ++ ws₃, c.isBlank = true) ∧ CodePoint.ofChar '\'' ∉ identifier ∧
    t = before ++ "FILE_SCHEMA" ++ ws₁ ++ "(" ++ ws₂ ++ "(" ++ ws₃ ++ "'" ++ identifier ++ "'"
      ++ after

/-- The text of a header section describes the file, names it, and names its schema. -/
def HasRecords (text : Text) : Prop :=
  "FILE_DESCRIPTION" <:+: text ∧ "FILE_NAME" <:+: text ∧ NamesSchema text

/-- **What is asked of a content**, where `root` is the name of the root of the spatial structure.
-/
structure Conformant (root c : Text) : Prop where
  start : "ISO-10303-21;" <+: c.strip
  finish : "END-ISO-10303-21;" <:+ c.strip
  balance : c.count (CodePoint.ofChar '(') = c.count (CodePoint.ofChar ')')
  /-- There is a header section, and the first one has its records before its nearest end. -/
  header : ∃ before rest text after, Text.SplitsAt "HEADER;" c before rest ∧
    Text.SplitsAt "ENDSEC;" rest text after ∧ HasRecords text
  data : ∃ before text after : Text, c = before ++ "DATA;" ++ text ++ "ENDSEC;" ++ after
  root : root.countIn c.upper = 1

/-! ### Sections -/

namespace Section

variable {keyword content : Text}

/-- A section is what stands between the leftmost keyword and the nearest end behind it. -/
theorem exists_find?_iff (Q : Text → Prop) :
    (∃ s, find? keyword content = some s ∧ Q s.text) ↔
      ∃ before rest text after, Text.SplitsAt keyword content before rest ∧
        Text.SplitsAt Marker.sectionEnd rest text after ∧ Q text := by
  constructor
  · rintro ⟨s, hs, hQ⟩
    unfold find? at hs
    cases hfound : keyword.foundIn? content with
    | none => rw [hfound] at hs; cases hs
    | some found =>
      obtain ⟨before, rest, rfl, hbefore⟩ := Text.foundIn?_eq_some_iff.mp hfound
      rw [hfound, Option.bind_eq_bind, Option.bind_some, List.drop_left] at hs
      cases hcut : rest.cutAt? Marker.sectionEnd with
      | none => rw [hcut] at hs; cases hs
      | some cut =>
        obtain ⟨text, after⟩ := cut
        rw [hcut] at hs
        cases hs
        exact ⟨before, rest, text, after, hbefore, Text.cutAt?_eq_some_iff.mp hcut, hQ⟩
  · -- the two cuts determine each other, so the search can only answer with this section
    rintro ⟨before, rest, text, after, hbefore, hcut, hQ⟩
    have hfound := Text.foundIn?_eq_some_iff.mpr ⟨before, rest, rfl, hbefore⟩
    have hcut := Text.cutAt?_eq_some_iff.mpr hcut
    unfold find?
    rw [hfound, Option.bind_eq_bind, Option.bind_some, List.drop_left, hcut]
    exact ⟨_, rfl, hQ⟩

/-- There is a section just when the end occurs anywhere behind the keyword: if it does so behind
one keyword, it does so behind the leftmost one. -/
theorem isSome_find?_iff :
    (find? keyword content).isSome ↔
      ∃ before text after, content = before ++ keyword ++ text ++ Marker.sectionEnd ++ after := by
  have hfind := @exists_find?_iff keyword content fun _ => True
  have hsome : (find? keyword content).isSome ↔ ∃ s, find? keyword content = some s ∧ True := by
    rw [Option.isSome_iff_exists]
    simp only [and_true]
  rw [hsome, hfind]
  constructor
  · rintro ⟨before, rest, text, after, ⟨rfl, -⟩, ⟨rfl, -⟩, -⟩
    exact ⟨before, text, after, by simp only [List.append_assoc]⟩
  · rintro ⟨before, text, after, h⟩
    have hkeyword : keyword <:+: content :=
      ⟨before, text ++ Marker.sectionEnd ++ after, by rw [h]; simp only [List.append_assoc]⟩
    -- the leftmost keyword begins no later than the given one, so the end lies behind it too
    obtain ⟨before', rest, hsplit⟩ := Text.exists_splitsAt hkeyword
    have hle : before'.length ≤ before.length :=
      hsplit.2 before (text ++ Marker.sectionEnd ++ after) (by
        rw [h]
        simp only [List.append_assoc])
    -- what lies behind the given keyword is a suffix of what lies behind the leftmost one
    have hend : Marker.sectionEnd <:+: rest := by
      have hlong : text ++ Marker.sectionEnd ++ after <:+ content :=
        ⟨before ++ keyword, by rw [h]; simp only [List.append_assoc]⟩
      have hrest : rest <:+ content := ⟨before' ++ keyword, hsplit.1.symm⟩
      have hlength : (text ++ Marker.sectionEnd ++ after).length ≤ rest.length := by
        have hc := congrArg List.length h
        have hc' := congrArg List.length hsplit.1
        simp only [List.length_append] at hc hc' ⊢
        omega
      exact List.IsInfix.trans ⟨text, after, rfl⟩
        (List.suffix_of_suffix_length_le hlong hrest hlength).isInfix
    obtain ⟨text', after', hcut⟩ := Text.exists_splitsAt hend
    exact ⟨before', rest, text', after', hsplit, hcut, trivial⟩

end Section

/-! ### The record that names the schema -/

namespace Header

/-- A character is found behind white space, if it is none itself. -/
theorem afterBlanks?_eq_some_iff {c : CodePoint} {t rest : Text} (hc : c.isBlank = false) :
    afterBlanks? c t = some rest ↔
      ∃ ws : Text, (∀ b ∈ ws, b.isBlank = true) ∧ t = ws ++ c :: rest := by
  rw [← Text.stripLeft_eq_cons_iff hc]
  unfold afterBlanks?
  cases t.stripLeft with
  | nil => exact iff_of_false nofun nofun
  | cons d tail =>
    dsimp only
    split
    · next hd => rw [hd, Option.some.injEq, List.cons.injEq, eq_self_iff_true, true_and]
    · next hd =>
      refine iff_of_false nofun ?_
      intro h
      exact hd (List.cons.inj h).1

/-- The record with its marks as single code points, grouped as they are read. -/
private theorem schema_append (ws₁ ws₂ ws₃ identifier after : Text) :
    "FILE_SCHEMA" ++ ws₁ ++ "(" ++ ws₂ ++ "(" ++ ws₃ ++ "'" ++ identifier ++ "'" ++ after
      = schemaKeyword ++ (ws₁ ++ CodePoint.ofChar '(' :: (ws₂ ++ CodePoint.ofChar '(' ::
        (ws₃ ++ CodePoint.ofChar '\'' :: (identifier ++ CodePoint.ofChar '\'' :: after)))) := by
  have hparenthesis : Text.ofString "(" = [CodePoint.ofChar '('] := rfl
  have hmark : Text.ofString "'" = [CodePoint.ofChar '\''] := rfl
  rw [hparenthesis, hmark]
  simp only [List.append_assoc, List.singleton_append]
  rfl

/-- **The record begins at the front** of a text just when it reads as such, and the answer is its
identifier. -/
theorem schemaAtFront?_eq_some_iff {t identifier : Text} :
    schemaAtFront? t = some identifier ↔
      ∃ ws₁ ws₂ ws₃ after : Text,
        (∀ c ∈ ws₁ ++ ws₂ ++ ws₃, c.isBlank = true) ∧ CodePoint.ofChar '\'' ∉ identifier ∧
        t = "FILE_SCHEMA" ++ ws₁ ++ "(" ++ ws₂ ++ "(" ++ ws₃ ++ "'" ++ identifier ++ "'"
          ++ after := by
  have hopen : (CodePoint.ofChar '(').isBlank = false := by decide
  have hquote : (CodePoint.ofChar '\'').isBlank = false := by decide
  -- the identifier ends at the first closing mark
  have hends : ∀ {x : Text} (after : Text), CodePoint.ofChar '\'' ∉ x →
      (x ++ CodePoint.ofChar '\'' :: after).takeWhile (fun c => decide (c ≠ CodePoint.ofChar '\''))
        = x := by
    intro x after hx
    rw [List.takeWhile_append_of_pos, List.takeWhile_cons_of_neg, List.append_nil]
    · simp
    · intro c hc
      rw [decide_eq_true_iff]
      rintro rfl
      exact hx hc
  unfold schemaAtFront?
  simp only [Option.bind_eq_bind, Option.bind_eq_some_iff,
    List.isPrefixOf?_eq_some_iff_append_eq, afterBlanks?_eq_some_iff hopen,
    afterBlanks?_eq_some_iff hquote, schema_append, List.forall_mem_append]
  constructor
  · rintro ⟨rest, rfl, rest₁, ⟨ws₁, hws₁, rfl⟩, rest₂, ⟨ws₂, hws₂, rfl⟩, rest₃,
      ⟨ws₃, hws₃, rfl⟩, u, hany, heq⟩
    have hmem : CodePoint.ofChar '\'' ∈ rest₃ := by
      unfold guard at hany
      split at hany
      · next h =>
        obtain ⟨c, hc, heq⟩ := List.any_eq_true.mp h
        rw [← of_decide_eq_true heq]
        exact hc
      · cases hany
    obtain ⟨x, after, rfl, hx⟩ := List.eq_append_cons_of_mem hmem
    obtain rfl : x = identifier := (hends after hx).symm.trans (Option.some.inj heq)
    exact ⟨ws₁, ws₂, ws₃, after, ⟨⟨hws₁, hws₂⟩, hws₃⟩, hx, rfl⟩
  · rintro ⟨ws₁, ws₂, ws₃, after, ⟨⟨hws₁, hws₂⟩, hws₃⟩, hid, rfl⟩
    have hany : ((identifier ++ CodePoint.ofChar '\'' :: after).any
        fun x => decide (x = CodePoint.ofChar '\'')) = true := by
      rw [List.any_eq_true]
      exact ⟨_, List.mem_append_right identifier List.mem_cons_self, decide_eq_true rfl⟩
    exact ⟨_, rfl, _, ⟨ws₁, hws₁, rfl⟩, _, ⟨ws₂, hws₂, rfl⟩, _, ⟨ws₃, hws₃, rfl⟩, (),
      if_pos hany, congrArg some (hends after hid)⟩

/-- **A header names its schema** just when some part of it reads as the record. -/
theorem isSome_schema?_iff (t : Text) : (schema? t).isSome ↔ NamesSchema t := by
  unfold schema?
  rw [Option.isSome_map, Text.isSome_firstOccurrence?]
  simp only [Option.isSome_map, Option.isSome_iff_exists, schemaAtFront?_eq_some_iff]
  -- the search stops at the first match; that there is one does not depend on which it is
  constructor
  · rintro ⟨before, rest, rfl, -, identifier, ws₁, ws₂, ws₃, after, hws, hid, rfl⟩
    exact ⟨before, ws₁, ws₂, ws₃, identifier, after, hws, hid, by simp only [List.append_assoc]⟩
  · rintro ⟨before, ws₁, ws₂, ws₃, identifier, after, hws, hid, rfl⟩
    refine ⟨before, _, ?_, ?_, identifier, ws₁, ws₂, ws₃, after, hws, hid, rfl⟩
    · simp only [List.append_assoc]
    · exact List.cons_ne_nil (CodePoint.ofChar 'F') _

end Header

/-! ### Findings that are no errors -/

/-- **Findings are harmless** if none of them is an error. -/
def Harmless (fs : List Finding) : Prop := ∀ f ∈ fs, f.severity ≠ .error

theorem harmless_nil : Harmless [] := fun _ hf => absurd hf List.not_mem_nil

theorem harmless_cons {f : Finding} {fs : List Finding} :
    Harmless (f :: fs) ↔ f.severity ≠ .error ∧ Harmless fs :=
  List.forall_mem_cons

theorem harmless_append {fs gs : List Finding} :
    Harmless (fs ++ gs) ↔ Harmless fs ∧ Harmless gs :=
  List.forall_mem_append

theorem harmless_singleton {f : Finding} : Harmless [f] ↔ f.severity ≠ .error :=
  List.forall_mem_singleton

/-- An error that is reported unless a condition holds is harmless just when it holds. -/
theorem harmless_toList_ite {p : Prop} [Decidable p] {f : Finding} (hf : f.severity = .error) :
    Harmless (if p then none else some f).toList ↔ p := by
  split
  · next hp => exact iff_of_true harmless_nil hp
  · next hp =>
    refine iff_of_false ?_ hp
    intro h
    exact h f List.mem_cons_self hf

/-! ### The envelope -/

namespace Envelope

/-- The first line is no error just if the text begins as it should. -/
theorem harmless_startFinding (l : Layout) :
    Harmless (startFinding l).toList ↔ Marker.start <+: l.content.strip := by
  unfold startFinding
  rw [harmless_toList_ite rfl, Text.isPrefixOf_iff]

/-- The last line is no error just if the text ends as it should. -/
theorem harmless_finishFinding (l : Layout) :
    Harmless (finishFinding l).toList ↔ Marker.finish <:+ l.content.strip := by
  unfold finishFinding Text.endsWith
  rw [harmless_toList_ite rfl, List.isSuffixOf_iff_suffix]

/-- Parentheses are no error just if there are as many of both kinds. -/
theorem harmless_balanceFinding (l : Layout) :
    Harmless (balanceFinding l).toList ↔ openings l.content = closings l.content := by
  unfold balanceFinding
  exact harmless_toList_ite rfl

/-- A section is no error just if its keyword is somewhere in the text. -/
theorem harmless_sectionFinding (l : Layout) (rule : Rule) (name keyword : Text) :
    Harmless (sectionFinding l rule name keyword).toList ↔ keyword <:+: l.content := by
  unfold sectionFinding
  rw [harmless_toList_ite rfl, Text.occursIn_iff]

/-- The encoding is never an error. -/
theorem severity_encodingFinding (l : Layout) : (encodingFinding l).severity ≠ .error := by
  unfold encodingFinding
  split <;> exact nofun

/-- **The envelope** has no errors just when its markers, parentheses and keywords are there. -/
theorem harmless_check (l : Layout) :
    Harmless (check l) ↔ Marker.start <+: l.content.strip ∧ Marker.finish <:+ l.content.strip ∧
      openings l.content = closings l.content ∧ Marker.header <:+: l.content ∧
      Marker.data <:+: l.content := by
  rw [check_eq]
  simp only [harmless_append, harmless_singleton, harmless_startFinding, harmless_finishFinding,
    harmless_balanceFinding, harmless_sectionFinding, and_assoc]
  constructor
  · rintro ⟨hstart, hfinish, hbalance, hheader, hdata, -⟩
    exact ⟨hstart, hfinish, hbalance, hheader, hdata⟩
  · rintro ⟨hstart, hfinish, hbalance, hheader, hdata⟩
    exact ⟨hstart, hfinish, hbalance, hheader, hdata, severity_encodingFinding l⟩

end Envelope

/-! ### The header -/

namespace Header

/-- A record is no error just if its keyword is in the header. -/
theorem severity_recordFinding (l : Layout) (header : Section) (keyword : Text) (rule : Rule) :
    (recordFinding l header keyword rule).severity ≠ .error ↔ keyword <:+: header.text := by
  have hline : (keywordLine? l header keyword).isSome ↔ keyword <:+: header.text := by
    unfold keywordLine? Text.indexIn?
    rw [Option.isSome_map, Option.isSome_map, ← Text.occursIn_eq_isSome_foundIn?, Text.occursIn_iff]
  rw [← hline]
  unfold recordFinding
  cases keywordLine? l header keyword with
  | none => exact iff_of_false (fun h => h rfl) nofun
  | some line => exact iff_of_true nofun rfl

/-- The schema is no error just if a record names one. -/
theorem severity_schemaFinding (l : Layout) (rules : SchemaRules) (header : Section) :
    (schemaFinding l rules header).severity ≠ .error ↔ NamesSchema header.text := by
  rw [← isSome_schema?_iff]
  unfold schemaFinding
  dsimp only
  cases schema? header.text with
  | none => exact iff_of_false (fun h => h rfl) nofun
  | some schema =>
    -- the name of the schema may be unknown, but that is a warning
    refine iff_of_true ?_ rfl
    dsimp only
    split <;> exact nofun

/-- **The header** has no errors just when there is one, with its three records. -/
theorem harmless_check (rules : SchemaRules) (l : Layout) :
    Harmless (check rules l) ↔ ∃ header, l.header = some header ∧ HasRecords header.text := by
  unfold check HasRecords
  cases l.header with
  | none =>
    refine iff_of_false ?_ nofun
    intro h
    exact harmless_singleton.mp h rfl
  | some header =>
    simp only [harmless_cons, severity_recordFinding, severity_schemaFinding, harmless_nil,
      and_true, Option.some.injEq, exists_eq_left']

end Header

/-! ### The other groups -/

/-- **The entity types** have no errors just when there is a data section. -/
theorem EntityTypes.harmless_check (rules : EntityRules) (l : Layout) :
    Harmless (check rules l) ↔ l.data.isSome := by
  unfold check
  cases l.data with
  | none =>
    refine iff_of_false ?_ nofun
    intro h
    exact harmless_singleton.mp h rfl
  | some data =>
    -- with a data section at hand, the worst that is said about entity types is a warning
    refine iff_of_true ?_ rfl
    dsimp only
    split
    · exact harmless_singleton.mpr nofun
    · refine harmless_cons.mpr ⟨nofun, ?_⟩
      split
      · exact harmless_nil
      · exact harmless_singleton.mpr nofun

namespace Business

/-- The root is no error just if there is exactly one. -/
theorem severity_rootFinding (rules : SpatialRules) (l : Layout) :
    (rootFinding rules l).severity ≠ .error ↔ rules.root.countIn l.capitals = 1 := by
  unfold rootFinding
  dsimp only
  split
  · next h => exact iff_of_false (fun h => h rfl) (by omega)
  · next h => exact iff_of_true nofun h
  · next h => exact iff_of_false (fun h => h rfl) h

/-- Property sets are never errors. -/
theorem harmless_propertySetFindings (rules : PropertySetRules) (l : Layout) :
    Harmless (propertySetFindings rules l) := by
  unfold propertySetFindings
  split
  · exact harmless_singleton.mpr nofun
  · intro f hf
    obtain ⟨⟨index, name⟩, -, rfl⟩ := List.mem_map.mp hf
    dsimp only [propertySetFinding]
    split <;> exact nofun

/-- A container that is missing is no error. -/
theorem severity_containerFinding (rules : SpatialRules) (l : Layout) :
    (containerFinding rules l).severity ≠ .error := by
  unfold containerFinding
  split <;> exact nofun

/-- Geometry that is missing is no error. -/
theorem severity_geometryFinding (rules : GeometryRules) (l : Layout) :
    (geometryFinding rules l).severity ≠ .error := by
  unfold geometryFinding
  split <;> exact nofun

/-- **The rules of the trade** are broken with an error only if there is not exactly one root. -/
theorem harmless_check (policy : Policy) (l : Layout) :
    Harmless (check policy l) ↔ policy.spatial.root.countIn l.capitals = 1 := by
  unfold check
  rw [harmless_append, harmless_cons, harmless_cons, harmless_singleton, severity_rootFinding]
  constructor
  · rintro ⟨⟨hroot, -, -⟩, -⟩
    exact hroot
  · intro hroot
    -- container, property sets and geometry are never reported as errors
    exact ⟨⟨hroot, severity_containerFinding policy.spatial l,
      harmless_propertySetFindings policy.propertySets l⟩,
      severity_geometryFinding policy.geometry l⟩

end Business

/-- **Recommended practice** never has errors. -/
theorem Practice.harmless_check (rules : PracticeRules) (l : Layout) :
    Harmless (check rules l) := by
  have hpresence : ∀ entities code rule found missing,
      (presence l entities code rule found missing).severity ≠ .error := by
    intro entities code rule found missing
    unfold presence
    split <;> exact nofun
  unfold check
  rw [harmless_cons, harmless_cons, harmless_singleton]
  exact ⟨hpresence _ _ _ _ _, hpresence _ _ _ _ _, hpresence _ _ _ _ _⟩

/-! ### The verdict -/

/-- **No group of checks finds an error** just when the content is conformant. -/
theorem CheckGroup.harmless_iff_conformant (policy : Policy) (c : Text) :
    (∀ group : CheckGroup, Harmless (group.findings policy (Layout.of c)))
      ↔ Conformant policy.spatial.root c := by
  constructor
  · intro h
    obtain ⟨hstart, hfinish, hbalance, -, -⟩ := (Envelope.harmless_check _).mp (h envelope)
    have hheader := (Header.harmless_check _ _).mp (h header)
    have hdata := (EntityTypes.harmless_check _ _).mp (h entities)
    exact {
      start := hstart
      finish := hfinish
      balance := hbalance
      header := (Section.exists_find?_iff HasRecords).mp hheader
      data := Section.isSome_find?_iff.mp hdata
      root := (Business.harmless_check _ _).mp (h business) }
  · intro h group
    cases group with
    | envelope =>
      -- the keywords occur because the sections do
      obtain ⟨before, rest, -, -, ⟨hheader, -⟩, -⟩ := h.header
      obtain ⟨before', text, after, hdata⟩ := h.data
      refine (Envelope.harmless_check _).mpr ⟨h.start, h.finish, h.balance, ?_, ?_⟩
      · exact ⟨before, rest, hheader.symm⟩
      · exact ⟨before', text ++ "ENDSEC;" ++ after, by
          change _ = c
          rw [hdata]
          simp only [List.append_assoc]
          rfl⟩
    | header =>
      exact (Header.harmless_check _ _).mpr ((Section.exists_find?_iff HasRecords).mpr h.header)
    | entities => exact (EntityTypes.harmless_check _ _).mpr (Section.isSome_find?_iff.mpr h.data)
    | business => exact (Business.harmless_check _ _).mpr h.root
    | practice => exact Practice.harmless_check _ _

namespace Report

/-- A report is that of a valid file just when no result is an error. -/
theorem isValid_of_iff (filename : Text) (validationTime estimatedTime : Float)
    (results : List Outcome) :
    (of filename validationTime estimatedTime results).isValid = true
      ↔ ∀ o ∈ results, o.severity ≠ .error := by
  unfold of Summary.of Outcome.countOf
  rw [decide_eq_true_iff, Int.natCast_eq_zero, List.countP_eq_zero]
  simp only [decide_eq_true_eq]

/-- The outcomes of all groups have no error just when the findings of each group have none. -/
theorem isValid_of_outcomes_iff (policy : Policy) (l : Layout) (filename : Text)
    (validationTime estimatedTime : Float) :
    (of filename validationTime estimatedTime
        (CheckGroup.all.flatMap (CheckGroup.outcomes policy l))).isValid = true
      ↔ ∀ group : CheckGroup, Harmless (group.findings policy l) := by
  rw [isValid_of_iff]
  constructor
  · intro h group f hf
    refine h (f.outcome group) (List.mem_flatMap.mpr ⟨group, group.mem_all, ?_⟩)
    exact List.mem_map_of_mem hf
  · intro h o ho
    obtain ⟨group, -, ho⟩ := List.mem_flatMap.mp ho
    obtain ⟨f, hf, rfl⟩ := List.mem_map.mp ho
    exact h group f hf

/-- **The exact meaning of the verdict.** A run over a text under an accepted policy, heard to its
end, gives a report, and the report calls the file valid just when the text is conformant. Policies
with the same name for the root of the spatial structure therefore give the same verdict. -/
theorem isValid_iff_conformant {P : Policy} (hP : P.Accepted) {seconds : Float} (hs : 0 ≤ seconds)
    {content : Content} {filename t : Text} (ht : content.toText filename = .ok t)
    {sink : Option Sink} (h : Sink.Patient sink (Notification.series (P.estimator.estimate t))) :
    ∃ r, (validateContent (some P) sink (.real seconds) content (.text filename)).result = .ok r ∧
      (r.isValid = true ↔ Conformant P.spatial.root t) ∧
      ∀ Q : Policy, Q.Accepted → Q.spatial.root = P.spatial.root → ∀ sink',
        Sink.Patient sink' (Notification.series (Q.estimator.estimate t)) →
        ∃ r', (validateContent (some Q) sink' (.real seconds) content (.text filename)).result
          = .ok r' ∧ r'.isValid = r.isValid := by
  refine ⟨_, result_validateContent hP hs ht h, ?_, ?_⟩
  · rw [isValid_of_outcomes_iff, CheckGroup.harmless_iff_conformant]
  · intro Q hQ hroot sink' h'
    refine ⟨_, result_validateContent hQ hs ht h', ?_⟩
    rw [Bool.eq_iff_iff, isValid_of_outcomes_iff, isValid_of_outcomes_iff,
      CheckGroup.harmless_iff_conformant, CheckGroup.harmless_iff_conformant, hroot]

/-- The header section of a small file. -/
def sampleHeader : Text := "FILE_DESCRIPTION();FILE_NAME();FILE_SCHEMA (( 'IFC4'));"

/-- A small file with all that is asked. -/
def sample : Text :=
  "ISO-10303-21;HEADER;" ++ sampleHeader ++ "ENDSEC;DATA;#1=IFCPROJECT();ENDSEC;END-ISO-10303-21;\n"

private theorem conformant_sample : Conformant "IFCPROJECT" sample := by
  -- the two searches are run once, and the rest is read off what they find
  have hheader : Section.find? Marker.header sample = some ⟨sampleHeader, 20, 1⟩ := by
    decide +kernel
  have hrecords : HasRecords sampleHeader := by
    refine ⟨?_, ?_, (Header.isSome_schema?_iff _).mp ?_⟩ <;> decide +kernel
  exact {
    start := by decide +kernel
    finish := by decide +kernel
    balance := by decide +kernel
    header := (Section.exists_find?_iff HasRecords).mp ⟨_, hheader, hrecords⟩
    data := Section.isSome_find?_iff.mp (by decide +kernel)
    root := by decide +kernel }

/-- Under the bundled policy the small file is valid. -/
theorem isValid_sample :
    ∃ r, (validateContent (some Policy.bundled) none (.real 0) (.text sample) (.text [])).result
      = .ok r ∧ r.isValid = true := by
  obtain ⟨r, hr, hvalid, -⟩ := isValid_iff_conformant Policy.accepted_bundled
    (by decide : (0 : Float) ≤ 0) (rfl : (Content.text sample).toText [] = .ok sample)
    (Sink.patient_none _)
  exact ⟨r, hr, hvalid.mpr conformant_sample⟩

end Report

end StepCheck
