import StepCheck.Proofs.Check.Verdict
import StepCheck.Proofs.Step.Sections
import StepCheck.Proofs.Text.Padding

/-!
# Files in white space

White space around a content changes none of the errors that a report counts, and so it does not
change the verdict. Lines are moved, and with them offsets and the places that warnings name, but an
error is told by its rule, its code and its texts, and these come from four sources only: the
stripped content, the number of its parentheses, the texts of its two sections, and how often the
root of the spatial structure occurs in capitals. Each of them is found by needles that neither
begin nor end with white space. For the root that is not a matter of course. It holds since an
accepted policy has stripped it, and it fails for the empty name, which occurs at every place.

* `Outcome.Charge` — what an error charges a file with, the line aside;
* `Section.text_padded` — the texts of the sections;
* `CheckGroup.charges_padded` — the errors of a group of checks;
* `Report.errors_padded` — the two reports.
-/

namespace StepCheck

open Text

/-! ### Charges -/

/-- **What an error charges a file with**: the rule that is broken, the code, what has been found,
and what has been expected. -/
structure Outcome.Charge where
  rule : Option Text
  code : Code
  observed : Text
  expected : Option Text
deriving DecidableEq

/-- The charge of an outcome. -/
def Outcome.charge (o : Outcome) : Charge := ⟨o.rule, o.code, o.observed, o.expected⟩

/-- The charge of the outcome that reports a finding. -/
def Finding.charge (f : Finding) : Outcome.Charge :=
  ⟨some f.rule.name, f.code, f.observed, f.expected⟩

/-- **The charges** of a list of findings are those of its errors. -/
def charges (fs : List Finding) : List Outcome.Charge :=
  (fs.filter fun f => f.severity = .error).map Finding.charge

theorem charges_append (fs gs : List Finding) : charges (fs ++ gs) = charges fs ++ charges gs := by
  unfold charges
  rw [List.filter_append, List.map_append]

theorem charges_cons (f : Finding) (fs : List Finding) :
    charges (f :: fs) = charges [f] ++ charges fs :=
  charges_append [f] fs

/-- Findings without errors charge a file with nothing. -/
theorem Harmless.charges_eq_nil {fs : List Finding} (h : Harmless fs) : charges fs = [] := by
  unfold charges
  rw [List.filter_eq_nil_iff.mpr, List.map_nil]
  intro f hf
  rw [decide_eq_true_iff]
  exact h f hf

variable {P : Policy} {t c before after : Text}

/-- The keywords of sections hold no white space. -/
theorem SectionName.solid_keyword (title : SectionName) : title.keyword.Solid := by
  cases title <;> exact ⟨by decide, by decide⟩

/-! ### Sections -/

/-- **The text of a section** is the same in a padded content. -/
theorem Section.text_padded {keyword : Text} (hkeyword : keyword.Solid) (hbefore : before.IsBlank)
    (hafter : after.IsBlank) (c : Text) :
    (find? keyword (before ++ c ++ after)).map Section.text
      = (find? keyword c).map Section.text := by
  have hend : Marker.sectionEnd.Solid := ⟨by decide, by decide⟩
  -- what stands between two places of the text in the middle stands there as well, moved by what is
  -- before it
  have htext : ∀ {j : Nat}, j ≤ c.length → ∀ i,
      ((before ++ c ++ after).take (before.length + j)).drop (before.length + i)
        = (c.take j).drop i := by
    intro j hj i
    rw [List.append_assoc, List.take_length_add_append, List.drop_length_add_append,
      List.take_append_of_le_length hj]
  -- both sections are told by first places, and the padding has none of its own
  ext text
  simp only [Option.map_eq_some_iff, find?_eq_some_iff,
    hkeyword.firstFrom_padded_iff hbefore hafter, hend.firstFrom_padded_iff hbefore hafter]
  constructor
  · rintro ⟨s, ⟨-, -, ⟨i, rfl, hi⟩, ⟨j, rfl, hj⟩, hs, -, -⟩, rfl⟩
    rw [Nat.zero_sub] at hi
    rw [Nat.add_assoc, Nat.add_sub_cancel_left] at hj
    have hle := length_add_le_of_prefix (by decide) hj.occurs
    refine ⟨⟨s.text, _, _⟩, ⟨i, j, hi, hj, ?_, rfl, rfl⟩, rfl⟩
    rw [hs, Nat.add_assoc, htext (by omega)]
  · rintro ⟨s, ⟨i, j, hi, hj, hs, -, -⟩, rfl⟩
    have hle := length_add_le_of_prefix (by decide) hj.occurs
    refine ⟨⟨s.text, _, _⟩, ⟨_, _, ⟨i, rfl, ?_⟩, ⟨j, rfl, ?_⟩, ?_, rfl, rfl⟩, rfl⟩
    · rwa [Nat.zero_sub]
    · rwa [Nat.add_assoc, Nat.add_sub_cancel_left]
    · rw [hs, Nat.add_assoc, htext (by omega)]

/-! ### The groups of checks -/

/-- **The envelope** is charged with the same, whatever is put around the content. -/
theorem Envelope.charges_padded (hbefore : before.IsBlank) (hafter : after.IsBlank) (c : Text) :
    charges (check (Layout.of (before ++ c ++ after))) = charges (check (Layout.of c)) := by
  have hstart : startFinding (Layout.of (before ++ c ++ after)) = startFinding (Layout.of c) := by
    unfold startFinding Layout.of
    dsimp only
    rw [strip_padded hbefore hafter]
  -- the line of the end marker is another one, but no charge tells the line
  have hfinish : charges (finishFinding (Layout.of (before ++ c ++ after))).toList
      = charges (finishFinding (Layout.of c)).toList := by
    unfold finishFinding Layout.of
    dsimp only
    rw [strip_padded hbefore hafter]
    split
    · rfl
    · rfl
  have hbalance : balanceFinding (Layout.of (before ++ c ++ after))
      = balanceFinding (Layout.of c) := by
    unfold balanceFinding openings closings Layout.of
    dsimp only
    rw [count_padded (by decide) hbefore hafter, count_padded (by decide) hbefore hafter]
  have hsection : ∀ (title : SectionName) rule name,
      sectionFinding (Layout.of (before ++ c ++ after)) rule name title.keyword
        = sectionFinding (Layout.of c) rule name title.keyword := by
    intro title rule name
    unfold sectionFinding Layout.of
    dsimp only
    rw [title.solid_keyword.occursIn_padded hbefore hafter]
  have hencoding : ∀ l, charges [encodingFinding l] = [] := fun l =>
    (harmless_singleton.mpr (severity_encodingFinding l)).charges_eq_nil
  rw [check_eq, check_eq]
  have hheader := hsection .header .requiredHeaderSection "HEADER"
  have hdata := hsection .data .requiredDataSection "DATA"
  dsimp only [SectionName.keyword] at hheader hdata
  simp only [charges_append, hstart, hfinish, hbalance, hheader, hdata, hencoding]

namespace Header

/-- What a header is charged with comes from its text. -/
theorem charges_check_congr {l l' : Layout} (rules : SchemaRules)
    (h : l'.header.map Section.text = l.header.map Section.text) :
    charges (check rules l') = charges (check rules l) := by
  -- lines may differ, since the padding has some; what is said of the records depends on the text
  -- of the header only
  have hrecord : ∀ {s s' : Section}, s'.text = s.text → ∀ keyword rule,
      charges [recordFinding l' s' keyword rule] = charges [recordFinding l s keyword rule] := by
    intro s s' hs keyword rule
    unfold recordFinding keywordLine?
    rw [hs]
    cases keyword.indexIn? s.text with
    | none => rfl
    | some index => rfl
  have hschema : ∀ {s s' : Section}, s'.text = s.text →
      charges [schemaFinding l' rules s'] = charges [schemaFinding l rules s] := by
    intro s s' hs
    unfold schemaFinding
    rw [hs]
    cases schema? s.text with
    | none => rfl
    | some schema =>
      dsimp only
      split
      · rfl
      · rfl
  unfold check
  cases hl : l.header with
  | none =>
    rw [hl, Option.map_none, Option.map_eq_none_iff] at h
    rw [h]
    rfl
  | some s =>
    rw [hl, Option.map_some, Option.map_eq_some_iff] at h
    obtain ⟨s', hl', hs⟩ := h
    rw [hl']
    dsimp only
    rw [charges_cons, charges_cons _ [_], charges_cons (recordFinding l s _ _),
      charges_cons _ [schemaFinding l rules s], hrecord hs, hrecord hs, hschema hs]

end Header

/-- The entity types are charged with no more than a missing section. -/
theorem EntityTypes.charges_check_congr {l l' : Layout} (rules : EntityRules)
    (h : l'.data.map Section.text = l.data.map Section.text) :
    charges (check rules l') = charges (check rules l) := by
  cases hl : l.data with
  | none =>
    rw [hl, Option.map_none, Option.map_eq_none_iff] at h
    unfold check
    rw [hl, h]
    rfl
  | some data =>
    rw [hl, Option.map_some, Option.map_eq_some_iff] at h
    obtain ⟨data', hl', -⟩ := h
    -- with a data section there is nothing that could be charged
    have hsome : l.data.isSome := by rw [hl]; rfl
    have hsome' : l'.data.isSome := by rw [hl']; rfl
    rw [((harmless_check rules l).mpr hsome).charges_eq_nil,
      ((harmless_check rules l').mpr hsome').charges_eq_nil]

/-- The root occurs as often, so that finding is the very same, and the others are no errors. -/
theorem Business.charges_padded (hroot : P.spatial.root.Solid) (hbefore : before.IsBlank)
    (hafter : after.IsBlank) (c : Text) :
    charges (check P (Layout.of (before ++ c ++ after))) = charges (check P (Layout.of c)) := by
  have hcapitals : (before ++ c ++ after).upper = before ++ c.upper ++ after := by
    rw [upper_append, upper_append, hbefore.upper, hafter.upper]
  have hfinding : rootFinding P.spatial (Layout.of (before ++ c ++ after))
      = rootFinding P.spatial (Layout.of c) := by
    unfold rootFinding Layout.of
    dsimp only
    rw [hcapitals, hroot.countIn_padded hbefore hafter]
  have hcontainer : ∀ l, charges [containerFinding P.spatial l] = [] := fun l =>
    (harmless_singleton.mpr (severity_containerFinding P.spatial l)).charges_eq_nil
  have hgeometry : ∀ l, charges [geometryFinding P.geometry l] = [] := fun l =>
    (harmless_singleton.mpr (severity_geometryFinding P.geometry l)).charges_eq_nil
  -- all other rules of the trade only warn, so that the root decides
  have hcheck : ∀ l, charges (check P l) = charges [rootFinding P.spatial l] := by
    intro l
    have hsets := (harmless_propertySetFindings P.propertySets l).charges_eq_nil
    unfold check
    rw [charges_append, charges_cons, charges_cons (containerFinding P.spatial l), hcontainer,
      hsets, hgeometry, List.append_nil, List.append_nil, List.append_nil]
  rw [hcheck, hcheck, hfinding]

/-- **What a group of checks charges a file with** does not depend on the white space around it. -/
theorem CheckGroup.charges_padded (hroot : P.spatial.root.Solid) (hbefore : before.IsBlank)
    (hafter : after.IsBlank) (c : Text) (group : CheckGroup) :
    charges (group.findings P (Layout.of (before ++ c ++ after)))
      = charges (group.findings P (Layout.of c)) := by
  cases group with
  | envelope => exact Envelope.charges_padded hbefore hafter c
  | header =>
    exact Header.charges_check_congr P.schemas
      (Section.text_padded SectionName.header.solid_keyword hbefore hafter c)
  | entities =>
    exact EntityTypes.charges_check_congr P.entities
      (Section.text_padded SectionName.data.solid_keyword hbefore hafter c)
  | business => exact Business.charges_padded hroot hbefore hafter c
  | practice =>
    -- recommended practice never charges anything
    have hcharges : ∀ l, charges (practice.findings P l) = [] := fun l =>
      (Practice.harmless_check P.practice l).charges_eq_nil
    rw [hcharges, hcharges]

/-! ### Reports -/

/-- The root of an accepted policy has been stripped, so it is solid unless it is empty. -/
theorem Policy.Accepted.solid_root (hP : P.Accepted) (hroot : P.spatial.root ≠ []) :
    P.spatial.root.Solid := by
  obtain ⟨name, hname⟩ := hP.exists_root
  have hne : name.strip ≠ [] := by
    intro hempty
    apply hroot
    rw [hname, Policy.normalName, hempty, upper_nil]
  rw [hname]
  exact (solid_strip hne).upper

namespace Report

/-- The errors of a report are charged with what its groups of checks charge the file with. -/
theorem charges_of_outcomes (P : Policy) (l : Layout) (filename : Text)
    (validationTime estimatedTime : Float) :
    ((of filename validationTime estimatedTime
        (CheckGroup.all.flatMap (CheckGroup.outcomes P l))).bySeverity .error).map Outcome.charge
      = CheckGroup.all.flatMap fun group => charges (group.findings P l) := by
  unfold bySeverity of
  dsimp only
  rw [List.filter_flatMap, List.map_flatMap]
  refine List.flatMap_congr fun group _ => ?_
  unfold CheckGroup.outcomes charges
  rw [List.filter_map, List.map_map]
  rfl

/-- A report without errors is that of a valid file. -/
theorem isValid_of_iff_bySeverity (filename : Text) (validationTime estimatedTime : Float)
    (results : List Outcome) :
    (of filename validationTime estimatedTime results).isValid = true
      ↔ (of filename validationTime estimatedTime results).bySeverity .error = [] := by
  rw [isValid_of_iff, bySeverity, List.filter_eq_nil_iff]
  simp only [decide_eq_true_eq]
  rfl

/-- **White space around a content changes none of the errors.** Two runs under an accepted policy
whose root of the spatial structure has a name, one over a text and one over the text with white
space before and behind it, both heard to their end, give reports with the same verdict, and with
the same errors in the same order: rules, codes, and texts of what was observed and expected. -/
theorem errors_padded (hP : P.Accepted) (hroot : P.spatial.root ≠ []) {seconds seconds' : Float}
    (hs : 0 ≤ seconds) (hs' : 0 ≤ seconds') (hbefore : before.IsBlank) (hafter : after.IsBlank)
    {content content' : Content} {filename filename' : Text} (ht : content.toText filename = .ok t)
    (ht' : content'.toText filename' = .ok (before ++ t ++ after)) {sink sink' : Option Sink}
    (h : Sink.Patient sink (Notification.series (P.estimator.estimate t)))
    (h' : Sink.Patient sink'
      (Notification.series (P.estimator.estimate (before ++ t ++ after)))) :
    ∃ r r',
      (validateContent (some P) sink (.real seconds) content (.text filename)).result = .ok r ∧
      (validateContent (some P) sink' (.real seconds') content' (.text filename')).result = .ok r' ∧
      r'.isValid = r.isValid ∧
      (r'.bySeverity .error).map Outcome.charge = (r.bySeverity .error).map Outcome.charge := by
  have hsolid := hP.solid_root hroot
  have hcharges := charges_of_outcomes P (Layout.of t) filename seconds (P.estimator.estimate t)
  have hcharges' := charges_of_outcomes P (Layout.of (before ++ t ++ after)) filename' seconds'
    (P.estimator.estimate (before ++ t ++ after))
  have hsame := List.flatMap_congr (l := CheckGroup.all) fun group _ =>
    group.charges_padded hsolid hbefore hafter t
  rw [hsame, ← hcharges] at hcharges'
  refine ⟨_, _, result_validateContent hP hs ht h, result_validateContent hP hs' ht' h', ?_,
    hcharges'⟩
  -- the verdict only asks whether there are errors
  rw [Bool.eq_iff_iff, isValid_of_iff_bySeverity, isValid_of_iff_bySeverity,
    ← List.map_eq_nil_iff, hcharges', List.map_eq_nil_iff]

/-- A file whose parentheses are not balanced and that has no sections. -/
def unpaddedSample : Text := "ISO-10303-21;((END-ISO-10303-21;"

/-- The same file with a no-break space and a line feed before it and an information separator
behind it. -/
def paddedSample : Text :=
  CodePoint.ofNat 0xA0 :: CodePoint.lineFeed :: unpaddedSample ++ [CodePoint.ofNat 0x1F]

/-- Under the bundled policy the two files get the same errors. -/
theorem errors_padded_unpaddedSample :
    ∃ r r', (validateContent (some Policy.bundled) none (.real 0) (.text unpaddedSample)
        (.text [])).result = .ok r ∧
      (validateContent (some Policy.bundled) none (.real 0) (.text paddedSample)
        (.text [])).result = .ok r' ∧
      r'.isValid = r.isValid ∧
      (r'.bySeverity .error).map Outcome.charge = (r.bySeverity .error).map Outcome.charge := by
  have hbefore : IsBlank [CodePoint.ofNat 0xA0, CodePoint.lineFeed] := by decide
  have hafter : IsBlank [CodePoint.ofNat 0x1F] := by decide
  have htext : (Content.text paddedSample).toText []
      = .ok ([CodePoint.ofNat 0xA0, CodePoint.lineFeed] ++ unpaddedSample
        ++ [CodePoint.ofNat 0x1F]) := rfl
  exact errors_padded Policy.accepted_bundled (by decide) (by decide : (0 : Float) ≤ 0)
    (by decide : (0 : Float) ≤ 0) hbefore hafter
    (rfl : (Content.text unpaddedSample).toText [] = .ok unpaddedSample) htext
    (Sink.patient_none _) (Sink.patient_none _)

end Report

end StepCheck
