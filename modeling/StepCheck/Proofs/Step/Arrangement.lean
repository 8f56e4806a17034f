import StepCheck.Proofs.Check.Verdict
import StepCheck.Proofs.Step.Sections

/-!
# How the two sections stand to each other

The two sections are looked for independently of each other, and no check asks in which order they
stand. Their keywords and `ENDSEC;` cannot overlap, so of the two keywords one stands wholly before
the other, and the nearest `ENDSEC;` behind the earlier one stands either before the later keyword
or behind it. In the first case the sections stand one after the other. In the second case it is the
nearest one behind the later keyword as well: both sections are closed by the same `ENDSEC;`, and
the later one is the end of the earlier one. A valid file may be of any of these kinds.

* `Text.Apart` — needles that cannot overlap;
* `Section.opening`, `Section.closing` — where a section is opened and closed;
* `Section.Arranged` — what can be said of the two sections of a content;
* `Section.arranged_of_find?` — it holds of any two sections that are found;
* `Report.sections_arranged` — valid files;
* `Report.isValid_reversed` — valid files whose header is not closed before the data are opened.
-/

namespace StepCheck

/-! ### Needles that cannot overlap -/

/-- **One needle cannot begin within another one**: it agrees with no end of it. -/
def Text.Apart (earlier later : Text) : Prop :=
  ∀ k < earlier.length, ¬ earlier.drop k <+: later ∧ ¬ later <+: earlier.drop k

instance (earlier later : Text) : Decidable (Text.Apart earlier later) :=
  inferInstanceAs (Decidable (∀ k < earlier.length, _))

/-- Of two such needles the one that begins later stands behind the other one. -/
theorem Text.Apart.add_length_le {earlier later t : Text} {i j : Nat}
    (h : Text.Apart earlier later) (hearlier : earlier <+: t.drop i) (hlater : later <+: t.drop j)
    (hij : i ≤ j) : i + earlier.length ≤ j := by
  by_contra hlt
  rw [Nat.not_le] at hlt
  -- from the later place on, the text goes on with an end of the one and with the other one
  have hend : earlier.drop (j - i) <+: t.drop j := by
    have hdrop := hearlier.drop (j - i)
    rwa [List.drop_drop, Nat.add_sub_of_le hij] at hdrop
  obtain ⟨hnot, hnot'⟩ := h (j - i) (by omega)
  rcases List.prefix_or_prefix_of_prefix hend hlater with hprefix | hprefix
  · exact hnot hprefix
  · exact hnot' hprefix

namespace Section

open Text (FirstFrom Apart)

variable {c keyword keyword' : Text} {s s' header data : Section}

/-! ### Where a section is opened and closed -/

/-- The index of the keyword that opens a section. -/
def opening (s : Section) (keyword : Text) : Nat := s.offset - keyword.length

/-- The index of the `ENDSEC;` that closes a section. -/
def closing (s : Section) : Nat := s.offset + s.text.length

/-- The index behind that `ENDSEC;`. -/
def finish (s : Section) : Nat := s.closing + Marker.sectionEnd.length

/-- The places of a section that is found. -/
theorem places_of_find? (h : find? keyword c = some s) :
    FirstFrom keyword c 0 (s.opening keyword) ∧ s.offset = s.opening keyword + keyword.length ∧
      FirstFrom Marker.sectionEnd c s.offset s.closing ∧
      s.text = (c.take s.closing).drop s.offset := by
  obtain ⟨i, j, hi, hj, htext, hoffset, -⟩ := find?_eq_some_iff.mp h
  have hopening : s.opening keyword = i := by
    rw [opening, hoffset, Nat.add_sub_cancel]
  have hclosing : s.closing = j := by
    have hlength := Text.length_add_le_of_prefix (by decide) hj.occurs
    have hle := hj.start_le
    rw [closing, hoffset, htext, List.length_drop, List.length_take]
    omega
  rw [hopening, hclosing, hoffset]
  exact ⟨hi, rfl, hj, htext⟩

/-! ### Two sections -/

/-- **Of two sections** the one that is opened first is closed before the other one is opened, or
both are closed by the same end. -/
theorem finish_le_or_of_lt (h : find? keyword c = some s) (h' : find? keyword' c = some s')
    (hkeywords : Apart keyword keyword') (hend : Apart Marker.sectionEnd keyword')
    (hend' : Apart keyword' Marker.sectionEnd) (hlt : s.opening keyword ≤ s'.opening keyword') :
    s.finish ≤ s'.opening keyword' ∨
      s.closing = s'.closing ∧ ∃ before, s.text = before ++ keyword' ++ s'.text := by
  obtain ⟨hi, hoffset, hj, htext⟩ := places_of_find? h
  obtain ⟨hi', hoffset', hj', htext'⟩ := places_of_find? h'
  have hopened := hkeywords.add_length_le hi.occurs hi'.occurs hlt
  by_cases hle : s.closing ≤ s'.opening keyword'
  · exact .inl (hend.add_length_le hj.occurs hi'.occurs hle)
  · right
    have hbehind := hend'.add_length_le hi'.occurs hj.occurs (by omega)
    -- no end stands between the keywords, so the nearest one is the same for both
    have hclosing : s.closing = s'.closing := by
      refine Nat.le_antisymm (hj.least _ ?_ hj'.occurs) (hj'.least _ ?_ hj.occurs)
      · have hstart := hj'.start_le
        omega
      · omega
    refine ⟨hclosing, s.text.take (s'.opening keyword' - s.offset), ?_⟩
    have hrest : s.text.drop (s'.opening keyword' - s.offset) = keyword' ++ s'.text := by
      obtain ⟨rest, hrest⟩ := hi'.occurs
      have hdrop : c.drop s'.offset = rest := by
        rw [hoffset', ← List.drop_drop, ← hrest, List.drop_left]
      have hlength : s'.closing - s'.opening keyword'
          = keyword'.length + (s'.closing - s'.offset) := by
        omega
      rw [htext, htext', List.drop_drop, Nat.add_sub_of_le (by omega), hclosing, List.drop_take,
        List.drop_take, hlength, ← hrest, List.take_length_add_append, hdrop]
    rw [List.append_assoc, ← hrest, List.take_append_drop]

/-- **How the two sections stand to each other.** -/
structure Arranged (c : Text) (header data : Section) : Prop where
  /-- Each of them is opened by the first keyword. -/
  opened : FirstFrom Marker.header c 0 (header.opening Marker.header) ∧
    FirstFrom Marker.data c 0 (data.opening Marker.data)
  /-- Each of them is closed by the nearest end. -/
  closed : FirstFrom Marker.sectionEnd c header.offset header.closing ∧
    FirstFrom Marker.sectionEnd c data.offset data.closing
  /-- They stand one after the other, in whichever order, or one of them is the end of the other
  one and the same `ENDSEC;` closes both. -/
  kinds : header.finish ≤ data.opening Marker.data ∨ data.finish ≤ header.opening Marker.header ∨
    header.closing = data.closing ∧
      ((∃ before, header.text = before ++ Marker.data ++ data.text) ∨
        ∃ before, data.text = before ++ Marker.header ++ header.text)
  /-- Each has an `ENDSEC;` of its own just when they stand one after the other. -/
  own : header.closing ≠ data.closing ↔
    header.finish ≤ data.opening Marker.data ∨ data.finish ≤ header.opening Marker.header
  /-- And then their texts are disjoint. -/
  disjoint : header.closing ≠ data.closing → ∀ k,
    ¬ ((header.offset ≤ k ∧ k < header.closing) ∧ data.offset ≤ k ∧ k < data.closing)
  /-- The header is closed before the data are opened just when an `ENDSEC;` stands between the two
  keywords, that of the header being the first. -/
  ordered : header.finish ≤ data.opening Marker.data ↔
    ∃ e, header.offset ≤ e ∧ e + Marker.sectionEnd.length ≤ data.opening Marker.data ∧
      Marker.sectionEnd <+: c.drop e

/-- **Any two sections** that are found are arranged in this way. -/
theorem arranged_of_find? (hheader : find? Marker.header c = some header)
    (hdata : find? Marker.data c = some data) : Arranged c header data := by
  obtain ⟨hi, hoffset, hj, -⟩ := places_of_find? hheader
  obtain ⟨hi', hoffset', hj', -⟩ := places_of_find? hdata
  have hkinds : header.finish ≤ data.opening Marker.data ∨
      data.finish ≤ header.opening Marker.header ∨
      header.closing = data.closing ∧
        ((∃ before, header.text = before ++ Marker.data ++ data.text) ∨
          ∃ before, data.text = before ++ Marker.header ++ header.text) := by
    rcases Nat.le_total (header.opening Marker.header) (data.opening Marker.data) with hle | hle
    · rcases finish_le_or_of_lt hheader hdata (by decide) (by decide) (by decide) hle with
        hfinish | ⟨hclosing, hnested⟩
      · exact .inl hfinish
      · exact .inr (.inr ⟨hclosing, .inl hnested⟩)
    · rcases finish_le_or_of_lt hdata hheader (by decide) (by decide) (by decide) hle with
        hfinish | ⟨hclosing, hnested⟩
      · exact .inr (.inl hfinish)
      · exact .inr (.inr ⟨hclosing.symm, .inr hnested⟩)
  have hstart := hj.start_le
  have hstart' := hj'.start_le
  have hpos : 0 < Marker.sectionEnd.length := by decide
  have hown : header.closing ≠ data.closing ↔
      header.finish ≤ data.opening Marker.data ∨ data.finish ≤ header.opening Marker.header := by
    unfold finish
    constructor
    · intro hne
      rcases hkinds with h | h | ⟨h, -⟩
      · exact .inl h
      · exact .inr h
      · exact absurd h hne
    · rintro (h | h)
      · omega
      · omega
  refine ⟨⟨hi, hi'⟩, ⟨hj, hj'⟩, hkinds, hown, ?_, ?_⟩
  · rintro hne k ⟨⟨hk, hlt⟩, hk', hlt'⟩
    rcases hown.mp hne with h | h
    · unfold finish at h
      omega
    · unfold finish at h
      omega
  · constructor
    · intro h
      exact ⟨header.closing, hstart, h, hj.occurs⟩
    · rintro ⟨e, he, hle, hoccurs⟩
      -- the end that closes the header is the nearest one
      have hleast := hj.least e he hoccurs
      unfold finish
      omega

end Section

namespace Report

variable {c : Text}

/-- A conformant content has both sections. -/
private theorem exists_sections_of_conformant {root : Text} (h : Conformant root c) :
    ∃ header data, (Layout.of c).header = some header ∧ (Layout.of c).data = some data ∧
      Section.Arranged c header data := by
  obtain ⟨header, hheader, -⟩ := (Section.exists_find?_iff HasRecords).mpr h.header
  obtain ⟨data, hdata⟩ := Option.isSome_iff_exists.mp (Section.isSome_find?_iff.mpr h.data)
  exact ⟨header, data, hheader, hdata, Section.arranged_of_find? hheader hdata⟩

/-- **The sections of a valid file.** A run over a text under an accepted policy, heard to its end,
gives a report. If the report calls the file valid, both sections are there, and they stand one
after the other or one is the end of the other one. -/
theorem sections_arranged {P : Policy} (hP : P.Accepted) {seconds : Float} (hs : 0 ≤ seconds)
    {content : Content} {filename t : Text} (ht : content.toText filename = .ok t)
    {sink : Option Sink} (h : Sink.Patient sink (Notification.series (P.estimator.estimate t))) :
    ∃ r, (validateContent (some P) sink (.real seconds) content (.text filename)).result = .ok r ∧
      (r.isValid = true → ∃ header data, (Layout.of t).header = some header ∧
        (Layout.of t).data = some data ∧ Section.Arranged t header data) := by
  refine ⟨_, result_validateContent hP hs ht h, fun hvalid => ?_⟩
  rw [isValid_of_outcomes_iff, CheckGroup.harmless_iff_conformant] at hvalid
  exact exists_sections_of_conformant hvalid

/-- The header section of a small file with all its records. -/
def recordsSample : Text := "FILE_DESCRIPTION();FILE_NAME();FILE_SCHEMA(('IFC4'));"

/-- A file whose data section stands before its header section. -/
def reversedSample : Text :=
  "ISO-10303-21;DATA;#1=IFCPROJECT();ENDSEC;HEADER;" ++ recordsSample
    ++ "ENDSEC;END-ISO-10303-21;"

/-- A file whose header section has no end of its own. -/
def nestedSample : Text :=
  "ISO-10303-21;HEADER;" ++ recordsSample ++ "DATA;#1=IFCPROJECT();ENDSEC;END-ISO-10303-21;"

/-- A text with both sections and all else that is asked for is conformant. -/
private theorem conformant_of_find? {header : Section}
    (hheader : Section.find? Marker.header c = some header) (hrecords : HasRecords header.text)
    (hdata : (Section.find? Marker.data c).isSome) (hstart : Marker.start <+: c.strip)
    (hfinish : Marker.finish <:+ c.strip)
    (hbalance : c.count (CodePoint.ofChar '(') = c.count (CodePoint.ofChar ')'))
    (hroot : Text.countIn "IFCPROJECT" c.upper = 1) : Conformant "IFCPROJECT" c where
  start := hstart
  finish := hfinish
  balance := hbalance
  header := (Section.exists_find?_iff HasRecords).mp ⟨header, hheader, hrecords⟩
  data := Section.isSome_find?_iff.mp hdata
  root := hroot

/-- What a header section names it still names when it goes on. -/
private theorem hasRecords_append {text : Text} (h : HasRecords text) (more : Text) :
    HasRecords (text ++ more) := by
  obtain ⟨hdescription, hname, before, ws₁, ws₂, ws₃, identifier, after, hblank, hquote, rfl⟩ := h
  have hpart : ∀ t : Text, t <:+: t ++ more := fun t => (List.prefix_append t more).isInfix
  refine ⟨hdescription.trans (hpart _), hname.trans (hpart _), before, ws₁, ws₂, ws₃, identifier,
    after ++ more, hblank, hquote, ?_⟩
  rw [List.append_assoc _ after more]

private theorem hasRecords_recordsSample : HasRecords recordsSample := by
  refine ⟨?_, ?_, (Header.isSome_schema?_iff _).mp ?_⟩ <;> decide +kernel

private theorem header_reversedSample :
    Section.find? Marker.header reversedSample = some ⟨recordsSample, 48, 1⟩ := by
  decide +kernel

private theorem data_reversedSample :
    Section.find? Marker.data reversedSample = some ⟨"#1=IFCPROJECT();", 18, 1⟩ := by
  decide +kernel

private theorem header_nestedSample : Section.find? Marker.header nestedSample
    = some ⟨recordsSample ++ "DATA;#1=IFCPROJECT();", 20, 1⟩ := by
  decide +kernel

private theorem data_nestedSample :
    Section.find? Marker.data nestedSample = some ⟨"#1=IFCPROJECT();", 78, 1⟩ := by
  decide +kernel

private theorem conformant_reversedSample : Conformant "IFCPROJECT" reversedSample := by
  refine conformant_of_find? header_reversedSample hasRecords_recordsSample ?_ ?_ ?_ ?_ ?_
  · rw [data_reversedSample, Option.isSome_some]
  all_goals decide +kernel

private theorem conformant_nestedSample : Conformant "IFCPROJECT" nestedSample := by
  refine conformant_of_find? header_nestedSample (hasRecords_append hasRecords_recordsSample _)
    ?_ ?_ ?_ ?_ ?_
  · rw [data_nestedSample, Option.isSome_some]
  all_goals decide +kernel

/-- The bundled policy calls a conformant text valid. -/
private theorem exists_isValid_bundled (h : Conformant "IFCPROJECT" c) :
    ∃ r, (validateContent (some Policy.bundled) none (.real 0) (.text c) (.text [])).result
      = .ok r ∧ r.isValid = true := by
  refine ⟨_, result_validateContent Policy.accepted_bundled (by decide)
    (rfl : (Content.text c).toText [] = .ok c) (Sink.patient_none _), ?_⟩
  rw [isValid_of_outcomes_iff, CheckGroup.harmless_iff_conformant]
  exact h

/-- The sections of a file that stand in the other order. -/
theorem sections_arranged_reversedSample :
    ∃ header data, (Layout.of reversedSample).header = some header ∧
      (Layout.of reversedSample).data = some data ∧
      Section.Arranged reversedSample header data := by
  obtain ⟨r, hr, h⟩ := sections_arranged Policy.accepted_bundled (by decide : (0 : Float) ≤ 0)
    (rfl : (Content.text reversedSample).toText [] = .ok reversedSample) (Sink.patient_none _)
  obtain ⟨r', hr', hvalid⟩ := exists_isValid_bundled conformant_reversedSample
  rw [hr] at hr'
  cases hr'
  exact h hvalid

/-- **Valid files out of order**: one whose header section is opened only behind the data section,
and one whose two sections are closed by the same end. -/
theorem isValid_reversed :
    (∃ r header data,
      (validateContent (some Policy.bundled) none (.real 0) (.text reversedSample)
        (.text [])).result = .ok r ∧ r.isValid = true ∧
      (Layout.of reversedSample).header = some header ∧
      (Layout.of reversedSample).data = some data ∧
      ¬ header.finish ≤ data.opening Marker.data) ∧
    ∃ r header data,
      (validateContent (some Policy.bundled) none (.real 0) (.text nestedSample)
        (.text [])).result = .ok r ∧ r.isValid = true ∧
      (Layout.of nestedSample).header = some header ∧ (Layout.of nestedSample).data = some data ∧
      header.closing = data.closing ∧ ¬ header.finish ≤ data.opening Marker.data := by
  obtain ⟨r, hr, hvalid⟩ := exists_isValid_bundled conformant_reversedSample
  obtain ⟨r', hr', hvalid'⟩ := exists_isValid_bundled conformant_nestedSample
  refine ⟨⟨r, _, _, hr, hvalid, header_reversedSample, data_reversedSample, ?_⟩,
    r', _, _, hr', hvalid', header_nestedSample, data_nestedSample, ?_, ?_⟩
  all_goals decide

end Report

end StepCheck
