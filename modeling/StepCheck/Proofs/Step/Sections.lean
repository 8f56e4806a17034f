import StepCheck.Proofs.Check.Outcomes
import StepCheck.Proofs.Text.Places

/-!
# How a file is scanned for its sections

A section is looked for in three ways that know nothing of each other: the text between its keyword
and the nearest `ENDSEC;` is cut out of the content, the line of the keyword is the first line that
holds it, and the check of the envelope asks whether the keyword occurs at all. All three come down
to the first place of the keyword, and the first place of `ENDSEC;` from the end of the keyword on.
What stands at these places does not change when something is put behind the content.

The cut is meant as a search for a pattern: the keyword, as few characters as possible, `ENDSEC;`.
Such a search tries one place after the other, and so it could go on to a later keyword where the
first one has no `ENDSEC;` behind it. It never does with success, for what is behind the later one
is behind the first one too.

* `SectionName` — the two sections;
* `Section.find?_eq_some_iff` — what is cut out, by the two first places;
* `Section.find?_eq_firstOccurrence?` — the search for the pattern;
* `Layout.Scans` — what is to be said about the scan for a section;
* `Layout.scans_of` — it holds of every content.
-/

namespace StepCheck

/-! ### Cutting out a section -/

namespace Section

open Text (FirstFrom)

variable {keyword content : Text} {s : Section}

/-- **A section** lies between the first place of its keyword and the first place of the end from
there on. -/
theorem find?_eq_some_iff :
    find? keyword content = some s ↔
      ∃ i j, FirstFrom keyword content 0 i ∧
        FirstFrom Marker.sectionEnd content (i + keyword.length) j ∧
        s.text = (content.take j).drop (i + keyword.length) ∧
        s.offset = i + keyword.length ∧ s.startLine = content.lineAt i := by
  unfold find?
  simp only [Option.bind_eq_bind, Option.bind_eq_some_iff, Text.foundIn?_iff_firstFrom]
  constructor
  · rintro ⟨-, ⟨i, hi, rfl⟩, ⟨text, after⟩, hcut, heq⟩
    rw [List.drop_drop] at hcut
    -- places behind the keyword are moved to places of the whole text
    obtain ⟨k, hk, rfl, -⟩ := Text.cutAt?_iff_firstFrom.mp hcut
    rw [List.length_drop, Nat.sub_sub_self hi.index_le] at heq
    cases heq
    refine ⟨i, i + keyword.length + k, hi, Text.firstFrom_drop_iff.mp hk, ?_, rfl, rfl⟩
    rw [List.drop_take, Nat.add_sub_cancel_left]
  · rintro ⟨i, j, hi, hj, htext, hoffset, hline⟩
    obtain ⟨k, rfl⟩ := Nat.exists_eq_add_of_le hj.start_le
    rw [List.drop_take, Nat.add_sub_cancel_left] at htext
    have hcut := Text.cutAt?_iff_firstFrom.mpr
      ⟨k, Text.firstFrom_drop_iff.mpr hj, htext, rfl⟩
    rw [← List.drop_drop] at hcut
    refine ⟨_, ⟨i, hi, rfl⟩, _, hcut, ?_⟩
    rw [List.length_drop, Nat.sub_sub_self hi.index_le, ← hoffset, ← hline]
    rfl

/-- **The pattern of a section** at the front of a text: the keyword, as few characters as possible,
and the end. -/
def atFront? (keyword : Text) : Text.Matcher Text := fun t => do
  let rest ← keyword.isPrefixOf? t
  let (text, _) ← Text.cutAt? rest Marker.sectionEnd
  return (text, keyword.length + text.length + Marker.sectionEnd.length)

/-- **A section stands** at a place where its keyword does, if its end comes anywhere behind. -/
theorem exists_atFront?_iff {i : Nat} {text : Text} :
    (∃ length, atFront? keyword (content.drop i) = some (text, length)) ↔
      keyword <+: content.drop i ∧ ∃ j, FirstFrom Marker.sectionEnd content (i + keyword.length) j ∧
        text = (content.take j).drop (i + keyword.length) := by
  unfold atFront?
  simp only [Option.bind_eq_bind, Option.bind_eq_some_iff, List.isPrefixOf?_eq_some_iff_append_eq]
  constructor
  · rintro ⟨length, rest, hrest, ⟨text', after⟩, hcut, heq⟩
    cases heq
    -- what is behind the keyword is the text from there on
    have hdrop : content.drop (i + keyword.length) = rest := by
      rw [← List.drop_drop, ← hrest, List.drop_left]
    rw [← hdrop] at hcut
    obtain ⟨k, hk, rfl, -⟩ := Text.cutAt?_iff_firstFrom.mp hcut
    refine ⟨⟨rest, hrest⟩, i + keyword.length + k, Text.firstFrom_drop_iff.mp hk, ?_⟩
    rw [List.drop_take, Nat.add_sub_cancel_left]
  · rintro ⟨⟨rest, hrest⟩, j, hj, rfl⟩
    obtain ⟨k, rfl⟩ := Nat.exists_eq_add_of_le hj.start_le
    have hdrop : content.drop (i + keyword.length) = rest := by
      rw [← List.drop_drop, ← hrest, List.drop_left]
    have hcut := Text.cutAt?_iff_firstFrom.mpr
      ⟨k, Text.firstFrom_drop_iff.mpr hj, rfl, rfl⟩
    rw [hdrop] at hcut
    rw [List.drop_take, Nat.add_sub_cancel_left, hdrop]
    exact ⟨_, rest, hrest, _, hcut, rfl⟩

/-- **The cut is the search for the pattern**, which tries all places from left to right. -/
theorem find?_eq_firstOccurrence? (hne : keyword ≠ []) :
    find? keyword content = (content.firstOccurrence? (atFront? keyword)).map fun (i, text) =>
      ⟨text, i + keyword.length, content.lineAt i⟩ := by
  ext s
  rw [find?_eq_some_iff, Option.map_eq_some_iff]
  constructor
  · rintro ⟨i, j, hi, hj, htext, hoffset, hline⟩
    refine ⟨(i, s.text), Text.firstOccurrence?_eq_some_iff.mpr ⟨?_, ?_, fun k hk => ?_⟩, ?_⟩
    · have hlength := Text.length_add_le_of_prefix hne hi.occurs
      have hpos := List.length_pos_of_ne_nil hne
      omega
    · exact exists_atFront?_iff.mpr ⟨hi.occurs, j, hj, htext⟩
    · -- the keyword does not stand at an earlier place
      rw [Option.eq_none_iff_forall_ne_some]
      rintro ⟨text, length⟩ h
      have hprefix := (exists_atFront?_iff.mp ⟨length, h⟩).1
      exact Nat.not_le_of_lt hk (hi.least k (Nat.zero_le k) hprefix)
    · dsimp only
      rw [← hoffset, ← hline]
  · rintro ⟨⟨i, text⟩, hfirst, rfl⟩
    obtain ⟨-, hmatch, hnone⟩ := Text.firstOccurrence?_eq_some_iff.mp hfirst
    obtain ⟨hoccurs, j, hj, htext⟩ := exists_atFront?_iff.mp hmatch
    refine ⟨i, j, ⟨Nat.zero_le i, hoccurs, fun k _ hk => ?_⟩, hj, htext, rfl, rfl⟩
    -- an earlier keyword would have the same end behind it
    by_contra hlt
    rw [Nat.not_le] at hlt
    have hstart : k + keyword.length ≤ j := by
      have hle := hj.start_le
      omega
    obtain ⟨j', -, hj'⟩ := Text.exists_firstFrom hstart hj.occurs
    obtain ⟨length, hmatch'⟩ := exists_atFront?_iff.mpr ⟨hk, j', hj', rfl⟩
    rw [hnone k hlt] at hmatch'
    cases hmatch'

/-- There is a section just when the end stands anywhere behind the first keyword. -/
theorem isSome_find?_iff_firstFrom :
    (find? keyword content).isSome ↔ ∃ i, FirstFrom keyword content 0 i ∧
      ∃ j, i + keyword.length ≤ j ∧ Marker.sectionEnd <+: content.drop j := by
  rw [Option.isSome_iff_exists]
  constructor
  · rintro ⟨s, hs⟩
    obtain ⟨i, j, hi, hj, -⟩ := find?_eq_some_iff.mp hs
    exact ⟨i, hi, j, hj.start_le, hj.occurs⟩
  · rintro ⟨i, hi, j, hle, hj⟩
    obtain ⟨first, -, hfirst⟩ := Text.exists_firstFrom hle hj
    exact ⟨⟨_, _, _⟩, find?_eq_some_iff.mpr ⟨i, first, hi, hfirst, rfl, rfl, rfl⟩⟩

/-- **No end stands in a section**: it would be nearer than the nearest one. -/
theorem not_infix_text (h : find? keyword content = some s) :
    ¬ Marker.sectionEnd <:+: s.text := by
  obtain ⟨i, j, -, hj, htext, -⟩ := find?_eq_some_iff.mp h
  intro hinfix
  obtain ⟨k, hk⟩ := Text.infix_iff_exists_drop.mp hinfix
  have hlength := Text.length_add_le_of_prefix (by decide) hk
  rw [htext, List.length_drop, List.length_take] at hlength
  have hplace : Marker.sectionEnd <+: content.drop (i + keyword.length + k) := by
    rw [htext, List.drop_drop, List.drop_take] at hk
    exact hk.trans (List.take_prefix _ _)
  have hle := hj.least _ (Nat.le_add_right _ _) hplace
  have hpos : 0 < Marker.sectionEnd.length := by decide
  omega

/-- **The lines of a section** are counted on from that of its keyword. -/
theorem lineOf_eq (h : find? keyword content = some s) (hkeyword : CodePoint.lineFeed ∉ keyword)
    {k : Nat} (hk : k ≤ s.text.length) :
    s.lineOf content k = s.startLine + (s.text.take k).count CodePoint.lineFeed := by
  obtain ⟨i, j, hi, hj, htext, hoffset, hstart⟩ := find?_eq_some_iff.mp h
  obtain ⟨rest, hrest⟩ := hi.occurs
  have hdrop : content.drop (i + keyword.length) = rest := by
    rw [← List.drop_drop, ← hrest, List.drop_left]
  have hle : k ≤ j - (i + keyword.length) := by
    rw [htext, List.length_drop, List.length_take] at hk
    omega
  -- before the index stand what is before the keyword, the keyword, and part of the text
  have htake : content.take (s.offset + k) = content.take i ++ (keyword ++ s.text.take k) := by
    rw [hoffset, Nat.add_assoc, List.take_add, ← hrest, htext, List.drop_take, hdrop,
      List.take_take, Nat.min_eq_left hle, List.take_length_add_append]
  have hcount : keyword.count CodePoint.lineFeed = 0 := List.count_eq_zero.mpr hkeyword
  rw [lineOf, Text.lineAt_eq, htake, hstart, Text.lineAt_eq, List.count_append, List.count_append,
    hcount]
  omega

/-- A section ends within the content. -/
theorem end_le_length (h : find? keyword content = some s) :
    s.offset + s.text.length + Marker.sectionEnd.length ≤ content.length := by
  obtain ⟨i, j, -, hj, htext, hoffset, -⟩ := find?_eq_some_iff.mp h
  have hlength := Text.length_add_le_of_prefix (by decide) hj.occurs
  have hle := hj.start_le
  rw [htext, hoffset, List.length_drop, List.length_take_of_le (by omega)]
  omega

/-- **A section is the same** in two contents that begin alike, if that reaches behind its end. -/
theorem find?_transfer {c start : Text} (h : find? keyword content = some s) (hne : keyword ≠ [])
    (hstart : start <+: content) (hstart' : start <+: c)
    (hle : s.offset + s.text.length + Marker.sectionEnd.length ≤ start.length) :
    find? keyword c = some s := by
  obtain ⟨i, j, hi, hj, htext, hoffset, hline⟩ := find?_eq_some_iff.mp h
  have hend := end_le_length h
  have hopening := hj.start_le
  have hclosing : s.offset + s.text.length = j := by
    have hlength := Text.length_add_le_of_prefix (by decide) hj.occurs
    rw [htext, hoffset, List.length_drop, List.length_take_of_le (by omega)]
    omega
  rw [hclosing] at hle
  -- up to the end of the section both texts are the same
  have htake : content.take j = c.take j := by
    obtain ⟨more, rfl⟩ := hstart
    obtain ⟨more', rfl⟩ := hstart'
    rw [List.take_append_of_le_length (by omega), List.take_append_of_le_length (by omega)]
  refine find?_eq_some_iff.mpr ⟨i, j, hi.transfer hne hstart hstart' (by omega),
    hj.transfer (by decide) hstart hstart' hle, ?_, hoffset, ?_⟩
  · rw [← htake]
    exact htext
  · rw [hline]
    exact Text.lineAt_transfer hstart hstart' (by omega)

/-- **A section stays as it is** when something is put behind the content. -/
theorem find?_append (h : find? keyword content = some s) (hne : keyword ≠ []) (t : Text) :
    find? keyword (content ++ t) = some s :=
  find?_transfer h hne (List.prefix_refl content) (List.prefix_append content t) (end_le_length h)

end Section

/-! ### The two sections -/

/-- **The two sections** of a file. -/
inductive SectionName
  | header
  | data
deriving DecidableEq

namespace SectionName

/-- The keyword that opens the section. -/
def keyword : SectionName → Text
  | header => Marker.header
  | data => Marker.data

/-- The rule that asks for the keyword. -/
def requiredRule : SectionName → Rule
  | header => .requiredHeaderSection
  | data => .requiredDataSection

theorem keyword_ne_nil (name : SectionName) : name.keyword ≠ [] := by
  cases name <;> decide

/-- No keyword has a line break in it. -/
theorem lineFeed_notMem_keyword (name : SectionName) : CodePoint.lineFeed ∉ name.keyword := by
  cases name <;> decide

end SectionName

/-- What the envelope has to say about a keyword is that it does not occur. -/
theorem Envelope.not_infix_of_sectionFinding {l : Layout} {rule : Rule} {label keyword : Text}
    {f : Finding} (h : sectionFinding l rule label keyword = some f) :
    ¬ keyword <:+: l.content := by
  unfold sectionFinding at h
  split at h
  · cases h
  · next hoccurs => exact fun hinfix => hoccurs ((Text.occursIn_iff keyword l.content).mpr hinfix)

namespace Layout

open Text (FirstFrom)

/-- The section of a name, if the file has it. -/
def section? (l : Layout) : SectionName → Option Section
  | .header => l.header
  | .data => l.data

/-- The number of the line with the keyword of a section. -/
def openingLine? (l : Layout) : SectionName → Option Nat
  | .header => l.headerLine
  | .data => l.dataLine

variable {c : Text} {name : SectionName} {s : Section}

/-- The sections of a text are found by their keywords. -/
theorem section?_of (c : Text) (name : SectionName) :
    (of c).section? name = Section.find? name.keyword c := by
  cases name <;> rfl

/-- The line of a section is that of the first mention of its keyword. -/
theorem openingLine?_of (c : Text) (name : SectionName) :
    (of c).openingLine? name = Text.firstLine? name.keyword.occursIn c.lines := by
  cases name <;> rfl

/-- **The envelope asks for the keyword**: it reports the rule just when the keyword does not occur.
-/
theorem exists_requiredRule_iff (P : Policy) (c : Text) (name : SectionName) :
    (∃ o ∈ CheckGroup.envelope.outcomes P (of c),
        o.rule = some name.requiredRule.name ∧ o.severity = .error) ↔ ¬ name.keyword <:+: c := by
  constructor
  · rintro ⟨o, ho, hrule, -⟩
    obtain ⟨f, hf, rfl⟩ := List.mem_map.mp ho
    rw [Finding.outcome_rule, Option.some.injEq] at hrule
    obtain hrule := Rule.name_injective hrule
    change f ∈ Envelope.check (of c) at hf
    rw [Envelope.check_eq] at hf
    simp only [List.mem_append, Option.mem_toList, List.mem_singleton] at hf
    -- of the findings of the envelope only one is about the rule
    obtain ((((h | h) | h) | h) | h) | rfl := hf
    · rw [(Envelope.startFinding_spec h).1] at hrule
      cases name <;> cases hrule
    · rw [(Envelope.finishFinding_spec h).1] at hrule
      cases name <;> cases hrule
    · rw [(Envelope.balanceFinding_spec h).1] at hrule
      cases name <;> cases hrule
    · rw [Envelope.rule_sectionFinding h] at hrule
      cases name with
      | header => exact Envelope.not_infix_of_sectionFinding h
      | data => cases hrule
    · rw [Envelope.rule_sectionFinding h] at hrule
      cases name with
      | header => cases hrule
      | data => exact Envelope.not_infix_of_sectionFinding h
    · rw [(Envelope.encodingFinding_spec (of c)).1] at hrule
      cases name <;> cases hrule
  · intro hnot
    have hoccurs : ¬ name.keyword.occursIn (of c).content = true := fun h =>
      hnot ((Text.occursIn_iff _ _).mp h)
    -- the finding is made where the keyword does not occur
    have hfinding : ∀ label, ∃ f, Envelope.sectionFinding (of c) name.requiredRule label
        name.keyword = some f ∧ f.rule = name.requiredRule ∧ f.severity = .error := fun label =>
      ⟨_, if_neg hoccurs, rfl, rfl⟩
    have hmem : ∃ f ∈ Envelope.check (of c), f.rule = name.requiredRule ∧ f.severity = .error := by
      cases name with
      | header =>
        obtain ⟨f, hf, hrule, hseverity⟩ := hfinding "HEADER"
        refine ⟨f, ?_, hrule, hseverity⟩
        rw [Envelope.check_eq]
        simp only [List.mem_append, Option.mem_toList]
        exact .inl (.inl (.inr hf))
      | data =>
        obtain ⟨f, hf, hrule, hseverity⟩ := hfinding "DATA"
        refine ⟨f, ?_, hrule, hseverity⟩
        rw [Envelope.check_eq]
        simp only [List.mem_append, Option.mem_toList]
        exact .inl (.inr hf)
    obtain ⟨f, hf, hrule, hseverity⟩ := hmem
    refine ⟨f.outcome .envelope, List.mem_map_of_mem hf, ?_, hseverity⟩
    rw [Finding.outcome_rule, hrule]

/-! ### The scan -/

/-- **What is to be said about the scan** of a content for a section. -/
structure Scans (c : Text) (name : SectionName) : Prop where
  /-- What is cut out is what the search for the pattern finds. -/
  search : (of c).section? name
    = (c.firstOccurrence? (Section.atFront? name.keyword)).map fun (i, text) =>
      ⟨text, i + name.keyword.length, c.lineAt i⟩
  /-- There is a section just when the end stands anywhere behind the first keyword. -/
  present : ((of c).section? name).isSome ↔ ∃ i, FirstFrom name.keyword c 0 i ∧
    ∃ j, i + name.keyword.length ≤ j ∧ Marker.sectionEnd <+: c.drop j
  /-- Its text reaches from the end of the first keyword to the nearest end. -/
  place : ∀ s, (of c).section? name = some s → ∃ i j, FirstFrom name.keyword c 0 i ∧
    FirstFrom Marker.sectionEnd c (i + name.keyword.length) j ∧
    s.text = (c.take j).drop (i + name.keyword.length) ∧ s.offset = i + name.keyword.length
  /-- And so no end stands in it. -/
  unended : ∀ s, (of c).section? name = some s → ¬ Marker.sectionEnd <:+: s.text
  /-- The line in which it begins is the line of the keyword. -/
  startLine : ∀ s, (of c).section? name = some s → (of c).openingLine? name = some s.startLine
  /-- The lines of its text are counted on from there. -/
  lineOf : ∀ s, (of c).section? name = some s → ∀ k ≤ s.text.length,
    s.lineOf c k = s.startLine + (s.text.take k).count CodePoint.lineFeed
  /-- There is no line of the keyword just when the keyword does not occur. -/
  absent : (of c).openingLine? name = none ↔ ¬ name.keyword <:+: c
  /-- That is just when the envelope reports the rule that asks for it. -/
  reported : ∀ P : Policy, (of c).openingLine? name = none ↔
    ∃ o ∈ CheckGroup.envelope.outcomes P (of c),
      o.rule = some name.requiredRule.name ∧ o.severity = .error
  /-- And then there is no section. -/
  missing : (of c).openingLine? name = none → (of c).section? name = none
  /-- A section stays as it is when something is put behind the content. -/
  stable : ∀ s, (of c).section? name = some s → ∀ t : Text,
    (of (c ++ t)).section? name = some s ∧
      (of (c ++ t)).openingLine? name = (of c).openingLine? name

/-- **The scan for a section**, whatever the content: with several markers, overlapping ones, ones
without end, and markers in one line. -/
theorem scans_of (c : Text) (name : SectionName) : Scans c name := by
  have hne := name.keyword_ne_nil
  have hlineFeed := name.lineFeed_notMem_keyword
  -- a keyword is in some line just if it is somewhere, since it has no line break
  have habsent : (of c).openingLine? name = none ↔ ¬ name.keyword <:+: c := by
    rw [openingLine?_of]
    exact Text.firstLine?_occursIn_eq_none_iff hne hlineFeed
  refine ⟨?_, ?_, fun s hs => ?_, fun s hs => ?_, fun s hs => ?_, fun s hs k hk => ?_, habsent, ?_,
    ?_, fun s hs t => ?_⟩
  · rw [section?_of]
    exact Section.find?_eq_firstOccurrence? hne
  · rw [section?_of]
    exact Section.isSome_find?_iff_firstFrom
  · rw [section?_of] at hs
    obtain ⟨i, j, hi, hj, htext, hoffset, -⟩ := Section.find?_eq_some_iff.mp hs
    exact ⟨i, j, hi, hj, htext, hoffset⟩
  · rw [section?_of] at hs
    exact Section.not_infix_text hs
  · rw [section?_of] at hs
    obtain ⟨i, j, hi, -, -, -, hstart⟩ := Section.find?_eq_some_iff.mp hs
    rw [openingLine?_of, hi.firstLine? hne hlineFeed, hstart]
  · rw [section?_of] at hs
    exact Section.lineOf_eq hs hlineFeed hk
  · intro P
    rw [habsent, exists_requiredRule_iff]
  · intro hnone
    rw [section?_of, Option.eq_none_iff_forall_ne_some]
    intro s hs
    obtain ⟨i, j, hi, -⟩ := Section.find?_eq_some_iff.mp hs
    exact habsent.mp hnone (hi.occurs.isInfix.trans (List.drop_suffix i c).isInfix)
  · rw [section?_of] at hs
    refine ⟨?_, ?_⟩
    · rw [section?_of]
      exact Section.find?_append hs hne t
    · obtain ⟨i, j, hi, -⟩ := Section.find?_eq_some_iff.mp hs
      rw [openingLine?_of, openingLine?_of, hi.firstLine? hne hlineFeed,
        (hi.append hne t).firstLine? hne hlineFeed, Text.lineAt_append hi.index_le]

end Layout

end StepCheck
