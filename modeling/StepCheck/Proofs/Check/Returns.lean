import Mathlib.Data.List.Find
import StepCheck.Proofs.Check.PropertySetReturns
import StepCheck.Proofs.Check.Verdict
import StepCheck.Proofs.Step.Returns

/-!
# Files from other systems

Systems differ in how they end a line, with a line feed or with a carriage return before it. A
report does not depend on that: a content and the same content with returns get the same verdict and
the same results, the texts aside in which a result quotes the content or counts its characters. The
one condition is on the policy, whose names are not to hold line breaks themselves.

Every group of checks is gone through once. Most of what it finds is the very same finding, and
where a text is quoted it quotes the text with returns.

* `Policy.Unbroken` — policies without line breaks in their names, as the bundled one;
* `Outcome.Head`, `Finding.head` — a result without its texts;
* `CheckGroup.heads_withReturns` — what a group of checks finds in a content with returns;
* `Report.results_withReturns` — the two reports.
-/

namespace StepCheck

open Text

/-! ### Policies and heads -/

/-- **A policy without line breaks** in the names that it lists. What it knows of entity types does
not matter. -/
structure Policy.Unbroken (P : Policy) : Prop where
  schemas : ∀ s ∈ P.schemas.known, s.Unbroken
  root : P.spatial.root.Unbroken
  spatialContainer : P.spatial.container.Unbroken
  container : P.propertySets.container.Unbroken
  start : P.propertySets.start.Unbroken
  standard : ∀ s ∈ P.propertySets.standard, s.Unbroken
  geometry : ∀ s ∈ P.geometry.entities, s.Unbroken
  ownerHistory : P.practice.ownerHistory.Unbroken
  unitAssignment : P.practice.unitAssignment.Unbroken
  materials : ∀ s ∈ P.practice.materials, s.Unbroken

/-- The bundled policy is one. -/
theorem Policy.unbroken_bundled : bundled.Unbroken := by
  constructor <;> decide +kernel

/-- **The head of an outcome**: how bad it is, which code it has, and which rule, line and instance
it is about. -/
structure Outcome.Head where
  severity : Severity
  code : Code
  rule : Option Text
  line : Option Int
  instanceId : Option Text
deriving DecidableEq

/-- The head of an outcome. -/
def Outcome.head (o : Outcome) : Head := ⟨o.severity, o.code, o.rule, o.line, o.instanceId⟩

/-- The head of the outcome that reports a finding, whichever group of checks has found it. -/
def Finding.head (f : Finding) : Outcome.Head :=
  ⟨f.severity, f.code, some f.rule.name, f.line.map Int.ofNat, f.instanceId⟩

theorem Finding.head_outcome (group : CheckGroup) (f : Finding) :
    (f.outcome group).head = f.head := rfl

variable {P : Policy} {t c : Text}

/-! ### The envelope -/

namespace Envelope

/-- Carriage returns do not change what is said of the first line. -/
theorem startFinding_withReturns (c : Text) :
    startFinding (Layout.of (withReturns c)) = startFinding (Layout.of c) := by
  unfold startFinding
  rw [Layout.content_of, Layout.content_of, strip_withReturns, isPrefixOf_withReturns (by decide)]

/-- What is said of the last line stays the same. -/
theorem finishFinding_withReturns (c : Text) :
    finishFinding (Layout.of (withReturns c)) = finishFinding (Layout.of c) := by
  unfold finishFinding
  rw [Layout.content_of, Layout.content_of, strip_withReturns,
    endsWith_withReturns (by decide) (by decide), Layout.lineCount_withReturns]

/-- Parentheses are counted, and returns are none. -/
theorem balanceFinding_withReturns (c : Text) :
    balanceFinding (Layout.of (withReturns c)) = balanceFinding (Layout.of c) := by
  unfold balanceFinding openings closings
  rw [Layout.content_of, Layout.content_of, count_withReturns (by decide),
    count_withReturns (by decide)]

/-- A section is missing in both texts or in neither. -/
theorem sectionFinding_withReturns (rule : Rule) (name : Text) {keyword : Text}
    (hkeyword : keyword.Unbroken) (c : Text) :
    sectionFinding (Layout.of (withReturns c)) rule name keyword
      = sectionFinding (Layout.of c) rule name keyword := by
  unfold sectionFinding
  rw [Layout.content_of, Layout.content_of, occursIn_withReturns hkeyword]

/-- The finding about the encoding tells the offset, but the line is the same. -/
theorem head_encodingFinding_withReturns (c : Text) :
    (encodingFinding (Layout.of (withReturns c))).head = (encodingFinding (Layout.of c)).head := by
  unfold encodingFinding
  have hindex : (withReturns c).firstSurrogate? = c.firstSurrogate?.map (place c) :=
    findIdx?_withReturns (by decide) (by decide) c
  rw [Layout.content_of, Layout.content_of, hindex]
  cases c.firstSurrogate? with
  | none => rfl
  | some index =>
    dsimp only [Option.map_some]
    rw [lineAt_place]
    rfl

/-- **The envelope** says the same of both texts. -/
theorem heads_withReturns (c : Text) :
    (check (Layout.of (withReturns c))).map Finding.head
      = (check (Layout.of c)).map Finding.head := by
  rw [check_eq, check_eq, startFinding_withReturns, finishFinding_withReturns,
    balanceFinding_withReturns, sectionFinding_withReturns _ _ (by decide),
    sectionFinding_withReturns _ _ (by decide)]
  simp only [List.map_append, List.map_cons, List.map_nil, head_encodingFinding_withReturns]

end Envelope

/-! ### The header -/

namespace Header

/-- Carriage returns are white space, so that the same character is found behind it. -/
theorem afterBlanks?_withReturns (d : CodePoint) (t : Text) :
    afterBlanks? d (withReturns t) = (afterBlanks? d t).map withReturns := by
  unfold afterBlanks?
  rcases stripLeft_cases t with ⟨h, h'⟩ | ⟨e, rest, -, h, h'⟩
  · rw [h, h', Option.map_none]
  · rw [h, h']
    dsimp only
    split
    · rfl
    · rfl

/-- Whatever is read next, it is read from the rest with returns. -/
private theorem bind_map_withReturns (rest : Option Text) {next next' : Text → Option Text}
    (h : ∀ t, next' (withReturns t) = (next t).map withReturns) :
    (rest.map withReturns).bind next' = (rest.bind next).map withReturns := by
  cases rest with
  | none => rfl
  | some t => exact h t

/-- **The schema record** at the front of a text with returns names the schema with returns. -/
theorem schemaAtFront?_withReturns (t : Text) :
    schemaAtFront? (withReturns t) = (schemaAtFront? t).map withReturns := by
  have hany : ∀ rest : Text, (withReturns rest).any (· = CodePoint.ofChar '\'')
      = rest.any (· = CodePoint.ofChar '\'') := any_withReturns (by decide)
  have htake : ∀ rest : Text, (withReturns rest).takeWhile (· ≠ CodePoint.ofChar '\'')
      = withReturns (rest.takeWhile (· ≠ CodePoint.ofChar '\'')) :=
    takeWhile_withReturns (by decide)
  unfold schemaAtFront?
  simp only [Option.bind_eq_bind]
  -- one part of the record after the other
  rw [isPrefixOf?_withReturns (by decide)]
  refine bind_map_withReturns _ fun afterKeyword => ?_
  rw [afterBlanks?_withReturns]
  refine bind_map_withReturns _ fun afterOuter => ?_
  rw [afterBlanks?_withReturns]
  refine bind_map_withReturns _ fun afterInner => ?_
  rw [afterBlanks?_withReturns]
  refine bind_map_withReturns _ fun quoted => ?_
  rw [hany, htake, Option.map_bind]
  rfl

/-- A schema record is recognised with the schema, and its first character goes on one place. -/
private theorem respectsReturns_schemaAtFront? :
    Matcher.RespectsReturns (fun s => (schemaAtFront? s).map fun x => (x, 1)) withReturns where
  front t := by
    rw [schemaAtFront?_withReturns, Option.map_map, Option.map_map]
    cases h : schemaAtFront? t with
    | none => rfl
    | some schema =>
      -- the record begins with a letter
      have hplace : place t 1 = 1 := by
        unfold schemaAtFront? at h
        obtain ⟨rest, hrest, -⟩ := Option.bind_eq_some_iff.mp h
        rw [← List.isPrefixOf?_eq_some_iff_append_eq.mp hrest]
        rfl
      simp only [Option.map_some, Function.comp, hplace]
  lineFeed _ _ := rfl
  pos t schema length h := by
    obtain ⟨_, -, heq⟩ := Option.map_eq_some_iff.mp h
    cases heq
    exact Nat.one_pos

/-- The name of the schema is the same, up to returns in it. -/
theorem schema?_withReturns (t : Text) : schema? (withReturns t) = (schema? t).map withReturns := by
  unfold schema?
  rw [firstOccurrence?_withReturns respectsReturns_schemaAtFront?, Option.map_map, Option.map_map]
  rfl

variable {header : Section}

/-- **The line of a keyword** in the header. -/
theorem keywordLine?_withReturns {keyword : Text} (hkeyword : keyword.Unbroken) (hne : keyword ≠ [])
    (h : (Layout.of c).header = some header) :
    keywordLine? (Layout.of (withReturns c)) (header.returned c) keyword
      = keywordLine? (Layout.of c) header keyword := by
  unfold keywordLine?
  rw [Section.returned, indexIn?_withReturns hkeyword hne, Option.map_map]
  cases hindex : keyword.indexIn? header.text with
  | none => rfl
  | some index =>
    -- the keyword stands within the section, and the line of a place stays
    have hle := (indexIn?_eq_some_iff.mp hindex).index_le
    exact congrArg some (Section.lineOf_withReturns h (by decide) (by decide) hle)

/-- What is said of a record names the same line. -/
theorem recordFinding_withReturns {keyword : Text} (rule : Rule) (hkeyword : keyword.Unbroken)
    (hne : keyword ≠ []) (h : (Layout.of c).header = some header) :
    recordFinding (Layout.of (withReturns c)) (header.returned c) keyword rule
      = recordFinding (Layout.of c) header keyword rule := by
  unfold recordFinding
  rw [keywordLine?_withReturns hkeyword hne h]
  rfl

/-- The finding about the schema quotes it, but it is known or not known as before. -/
theorem head_schemaFinding_withReturns {rules : SchemaRules}
    (hrules : ∀ s ∈ rules.known, s.Unbroken) (h : (Layout.of c).header = some header) :
    (schemaFinding (Layout.of (withReturns c)) rules (header.returned c)).head
      = (schemaFinding (Layout.of c) rules header).head := by
  have hschema : schema? (header.returned c).text = (schema? header.text).map withReturns :=
    schema?_withReturns header.text
  unfold schemaFinding
  rw [keywordLine?_withReturns (by decide) (by decide) h, hschema]
  cases schema? header.text with
  | none => rfl
  | some schema =>
    -- a schema with line breaks is unknown with and without returns
    have hknown : rules.known.contains (withReturns schema) = rules.known.contains schema := by
      rw [Bool.eq_iff_iff, List.contains_iff_mem, List.contains_iff_mem, withReturns_mem_iff hrules]
    dsimp only [Option.map_some]
    rw [hknown]
    split
    · rfl
    · rfl

/-- What is said of a header that is missing stays the same. -/
theorem missingFinding_withReturns (c : Text) :
    missingFinding (Layout.of (withReturns c)) = missingFinding (Layout.of c) := by
  unfold missingFinding
  rw [Layout.firstLineWith?_withReturns (by decide) (by decide +kernel)]

/-- **The check of the header** says the same of both texts. -/
theorem heads_withReturns {rules : SchemaRules} (hrules : ∀ s ∈ rules.known, s.Unbroken)
    (c : Text) : (check rules (Layout.of (withReturns c))).map Finding.head
      = (check rules (Layout.of c)).map Finding.head := by
  have hheader : (Layout.of (withReturns c)).header
      = (Layout.of c).header.map (Section.returned c) := Layout.section?_withReturns c .header
  -- the header of the one text is that of the other with returns in it
  unfold check
  rw [hheader]
  cases h : (Layout.of c).header with
  | none =>
    dsimp only [Option.map_none]
    rw [missingFinding_withReturns]
  | some header =>
    dsimp only [Option.map_some]
    rw [recordFinding_withReturns _ (by decide) (by decide) h,
      recordFinding_withReturns _ (by decide) (by decide) h]
    simp only [List.map_cons, List.map_nil, head_schemaFinding_withReturns hrules h]

end Header

/-! ### The entity types -/

/-- **What is said about entity types** is the very same. -/
theorem EntityTypes.check_withReturns (rules : EntityRules) (c : Text) :
    check rules (Layout.of (withReturns c)) = check rules (Layout.of c) := by
  have hdata : (Layout.of (withReturns c)).data
      = (Layout.of c).data.map (Section.returned c) := Layout.section?_withReturns c .data
  have hline : (Layout.of (withReturns c)).dataLine = (Layout.of c).dataLine :=
    Layout.openingLine?_withReturns c .data
  unfold check
  rw [hdata, Layout.instances_withReturns]
  cases (Layout.of c).data with
  | none =>
    dsimp only [Option.map_none]
    rw [missingFinding, missingFinding, hline]
  | some data => rfl

/-! ### The rules of the trade -/

namespace Business

/-- The finding about the root tells how often it occurs, and for the empty name that is the number
of places of the text. -/
theorem head_rootFinding_withReturns {rules : SpatialRules} (hrules : rules.root.Unbroken)
    (c : Text) : (rootFinding rules (Layout.of (withReturns c))).head
      = (rootFinding rules (Layout.of c)).head := by
  unfold rootFinding
  dsimp only
  rw [Layout.capitals_withReturns]
  -- no name holds a line feed, but the empty one stands in the middle of a line end
  by_cases hne : rules.root = []
  · -- the empty name occurs once in the empty text, and else more than once
    rw [hne]
    cases (Layout.of c).capitals with
    | nil => rfl
    | cons d t =>
      have hcons : ∀ (e : CodePoint) (u : Text), countIn [] (e :: u) = u.length + 2 :=
        fun _ _ => rfl
      obtain ⟨e, u, hu⟩ := List.exists_cons_of_ne_nil
        (mt withReturns_eq_nil_iff.mp (List.cons_ne_nil d t))
      rw [hu, hcons, hcons]
      rfl
  · rw [countIn_withReturns hrules hne]

/-- What is said of the container is the same. -/
theorem containerFinding_withReturns {rules : SpatialRules} (hrules : rules.container.Unbroken)
    (c : Text) : containerFinding rules (Layout.of (withReturns c))
      = containerFinding rules (Layout.of c) := by
  unfold containerFinding
  rw [Layout.capitals_withReturns, occursIn_withReturns hrules]

variable {rules : PropertySetRules}

/-- No standard name has a line feed, so a name with one is not standard with returns either. -/
theorem isStandard_withReturns (hrules : ∀ s ∈ rules.standard, s.Unbroken) (name : Text) :
    rules.isStandard (withReturns name) = rules.isStandard name := by
  -- names are compared in capitals, which hold no line breaks either
  have hnames : ∀ s ∈ rules.standardNames, s.Unbroken := by
    intro s hs
    obtain ⟨s, hmem, rfl⟩ := List.mem_map.mp hs
    exact (hrules s hmem).upper
  unfold PropertySetRules.isStandard
  rw [Bool.eq_iff_iff, List.contains_iff_mem, List.contains_iff_mem, upper_withReturns,
    withReturns_mem_iff hnames]

/-- A finding about a property set quotes its name. -/
theorem head_propertySetFinding_withReturns (hrules : ∀ s ∈ rules.standard, s.Unbroken) (c : Text)
    (index : Nat) (name : Text) :
    (propertySetFinding rules (Layout.of (withReturns c)) (place c index) (withReturns name)).head
      = (propertySetFinding rules (Layout.of c) index name).head := by
  unfold propertySetFinding
  rw [Layout.content_of, Layout.content_of, lineAt_place, isStandard_withReturns hrules]
  dsimp only
  split
  · rfl
  · rfl

/-- **The property sets** are found in the same lines, and as many of them. -/
theorem heads_propertySetFindings_withReturns (hcontainer : rules.container.Unbroken)
    (hstart : rules.start.Unbroken) (hrules : ∀ s ∈ rules.standard, s.Unbroken) (c : Text) :
    (propertySetFindings rules (Layout.of (withReturns c))).map Finding.head
      = (propertySetFindings rules (Layout.of c)).map Finding.head := by
  have hall : PropertySets.all rules (withReturns c)
      = (PropertySets.all rules c).map fun p => (place c p.1, withReturns p.2) :=
    occurrences_withReturns (PropertySets.respectsReturns_atFront? hcontainer hstart) c
  unfold propertySetFindings
  rw [Layout.content_of, Layout.content_of, hall]
  cases PropertySets.all rules c with
  | nil => rfl
  | cons p ps =>
    -- one finding for each property set, in the order of the text
    change List.map Finding.head (List.map _ (List.map _ (p :: ps))) = _
    rw [List.map_map, List.map_map, List.map_map]
    refine List.map_congr_left fun p _ => ?_
    exact head_propertySetFinding_withReturns hrules c p.1 p.2

/-- What is said of geometry is the same. -/
theorem geometryFinding_withReturns {rules : GeometryRules}
    (hrules : ∀ s ∈ rules.entities, s.Unbroken) (c : Text) :
    geometryFinding rules (Layout.of (withReturns c)) = geometryFinding rules (Layout.of c) := by
  have hfind : rules.entities.find? (fun s => s.occursIn (withReturns (Layout.of c).capitals))
      = rules.entities.find? fun s => s.occursIn (Layout.of c).capitals :=
    List.find?_congr fun s hs => occursIn_withReturns (hrules s hs) _
  unfold geometryFinding
  rw [Layout.capitals_withReturns, hfind]

/-- **The rules of the trade** say the same of both texts. -/
theorem heads_withReturns (hP : P.Unbroken) (c : Text) :
    (check P (Layout.of (withReturns c))).map Finding.head
      = (check P (Layout.of c)).map Finding.head := by
  unfold check
  rw [containerFinding_withReturns hP.spatialContainer, geometryFinding_withReturns hP.geometry]
  simp only [List.map_append, List.map_cons, List.map_nil, head_rootFinding_withReturns hP.root,
    heads_propertySetFindings_withReturns hP.container hP.start hP.standard]

end Business

/-! ### Recommended practice -/

/-- What is said of a recommendation stays the same. -/
theorem Practice.presence_withReturns {entities : List Text} (h : ∀ s ∈ entities, s.Unbroken)
    (c : Text) (code : Code) (rule : Rule) (found missing : Text) :
    presence (Layout.of (withReturns c)) entities code rule found missing
      = presence (Layout.of c) entities code rule found missing := by
  have hany : entities.any (fun s => s.occursIn (withReturns (Layout.of c).capitals))
      = entities.any fun s => s.occursIn (Layout.of c).capitals := by
    rw [Bool.eq_iff_iff, List.any_eq_true, List.any_eq_true]
    refine exists_congr fun s => and_congr_right fun hs => ?_
    rw [occursIn_withReturns (h s hs)]
  unfold presence
  rw [Layout.capitals_withReturns, hany]

/-- **What is said about recommended practice** is the very same. -/
theorem Practice.check_withReturns (hP : P.Unbroken) (c : Text) :
    check P.practice (Layout.of (withReturns c)) = check P.practice (Layout.of c) := by
  -- two of the three look for a single name
  have hsingle : ∀ {s : Text}, s.Unbroken → ∀ s' ∈ [s], s'.Unbroken := by
    intro s hs s' hs'
    rwa [List.mem_singleton.mp hs']
  unfold check
  rw [presence_withReturns (hsingle hP.ownerHistory),
    presence_withReturns (hsingle hP.unitAssignment), presence_withReturns hP.materials]

/-! ### All groups -/

/-- **What a group of checks finds** in a content with returns is what it finds in the content, the
texts aside. -/
theorem CheckGroup.heads_withReturns (hP : P.Unbroken) (c : Text) (group : CheckGroup) :
    (group.outcomes P (Layout.of (withReturns c))).map Outcome.head
      = (group.outcomes P (Layout.of c)).map Outcome.head := by
  have hheads : ∀ l, (group.outcomes P l).map Outcome.head
      = (group.findings P l).map Finding.head := by
    intro l
    rw [outcomes, List.map_map]
    exact List.map_congr_left fun f _ => f.head_outcome group
  rw [hheads, hheads]
  cases group with
  | envelope => exact Envelope.heads_withReturns c
  | header => exact Header.heads_withReturns hP.schemas c
  | entities => rw [findings, findings, EntityTypes.check_withReturns]
  | business => exact Business.heads_withReturns hP c
  | practice => rw [findings, findings, Practice.check_withReturns hP]

namespace Report

/-- The verdict depends on the heads of the results only. -/
theorem isValid_of_eq_of_heads {filename filename' : Text}
    {seconds seconds' estimated estimated' : Float} {os os' : List Outcome}
    (h : os'.map Outcome.head = os.map Outcome.head) :
    (of filename' seconds' estimated' os').isValid
      = (of filename seconds estimated os).isValid := by
  have hheads : ∀ os : List Outcome, (∀ o ∈ os, o.severity ≠ .error) ↔
      ∀ head ∈ os.map Outcome.head, head.severity ≠ .error := by
    intro os
    rw [List.forall_mem_map]
    rfl
  rw [Bool.eq_iff_iff, isValid_of_iff, isValid_of_iff, hheads, hheads, h]

/-- **Reports do not depend on how lines end.** Two runs under an accepted policy without line
breaks in its names, one over a text and one over the text with a carriage return before each line
feed, both heard to their end, give reports with the same verdict, and with the same results in the
same order: severities, codes, rules, lines and instances. -/
theorem results_withReturns (hP : P.Accepted) (hbreaks : P.Unbroken) {seconds seconds' : Float}
    (hs : 0 ≤ seconds) (hs' : 0 ≤ seconds') {content content' : Content} {filename filename' : Text}
    (ht : content.toText filename = .ok t) (ht' : content'.toText filename' = .ok (withReturns t))
    {sink sink' : Option Sink}
    (h : Sink.Patient sink (Notification.series (P.estimator.estimate t)))
    (h' : Sink.Patient sink' (Notification.series (P.estimator.estimate (withReturns t)))) :
    ∃ r r',
      (validateContent (some P) sink (.real seconds) content (.text filename)).result = .ok r ∧
      (validateContent (some P) sink' (.real seconds') content' (.text filename')).result = .ok r' ∧
      r'.isValid = r.isValid ∧ r'.results.map Outcome.head = r.results.map Outcome.head := by
  -- group by group, in the order in which the groups run
  have hheads : (CheckGroup.all.flatMap (CheckGroup.outcomes P (Layout.of (withReturns t)))).map
        Outcome.head
      = (CheckGroup.all.flatMap (CheckGroup.outcomes P (Layout.of t))).map Outcome.head := by
    rw [List.map_flatMap, List.map_flatMap]
    exact List.flatMap_congr fun group _ => CheckGroup.heads_withReturns hbreaks t group
  exact ⟨_, _, result_validateContent hP hs ht h, result_validateContent hP hs' ht' h',
    isValid_of_eq_of_heads hheads, hheads⟩

/-- A file in which a line ends within a name. -/
def lineFeedSample : Text := "DATA;\n#1=IFCPROPERTYSET\n('Pset_Wall\nCommon');\nENDSEC;\n"

/-- The same file from another system. -/
def carriageReturnSample : Text :=
  "DATA;\r\n#1=IFCPROPERTYSET\r\n('Pset_Wall\r\nCommon');\r\nENDSEC;\r\n"

/-- Under the bundled policy the two files get the same results. -/
theorem results_withReturns_lineFeedSample :
    ∃ r r', (validateContent (some Policy.bundled) none (.real 0) (.text lineFeedSample)
        (.text [])).result = .ok r ∧
      (validateContent (some Policy.bundled) none (.real 0) (.text carriageReturnSample)
        (.text [])).result = .ok r' ∧
      r'.isValid = r.isValid ∧ r'.results.map Outcome.head = r.results.map Outcome.head := by
  have hreturns : carriageReturnSample = withReturns lineFeedSample := by decide +kernel
  have htext : (Content.text carriageReturnSample).toText []
      = .ok (withReturns lineFeedSample) := by
    rw [← hreturns]
    rfl
  exact results_withReturns Policy.accepted_bundled Policy.unbroken_bundled
    (by decide : (0 : Float) ≤ 0) (by decide : (0 : Float) ≤ 0)
    (rfl : (Content.text lineFeedSample).toText [] = .ok lineFeedSample) htext
    (Sink.patient_none _) (Sink.patient_none _)

end Report

end StepCheck
