import Mathlib.Data.List.Forall2
import StepCheck.Proofs.Check.Lines
import StepCheck.Proofs.Report.Snippets

/-!
# The evidence in a report

The outcomes of a report name lines of the content, and the line that an outcome names shows what
the outcome is about. So the snippets that are cut out of the content around these lines point at
the evidence: there is one for the line of every outcome that is kept, and each of them marks
exactly one line, that which its outcomes name.

* `Rule.Evidence` — what the line of an outcome about a rule shows;
* `Outcome.Evident` — an outcome whose line is one of the content and shows that;
* `CheckGroup.evident_of_mem_outcomes` — every outcome of every check is evident;
* `Snippet.filter_linesAround` — the one line of a snippet that is marked;
* `Report.results_evident` — the results of every report and their snippets.
-/

namespace StepCheck

variable {policy : Policy} {t needle : Text} {f : Finding} {group : CheckGroup}

/-! ### Evidence -/

/-- **The line that an outcome names** holds a text. -/
def Outcome.Shows (t : Text) (o : Outcome) (needle : Text) : Prop :=
  ∃ (number : Nat) (l : Text), o.line = some ↑number ∧ t.IsLine number l ∧ needle <:+: l

/-- **The line that an outcome names** is the first one of a kind. -/
def Outcome.IsFirst (t : Text) (o : Outcome) (p : Text → Prop) : Prop :=
  ∃ (number : Nat) (l : Text), o.line = some ↑number ∧ t.IsLine number l ∧ p l ∧
    ∀ n < number, ∀ l, t.IsLine n l → ¬ p l

/-- **What the line of an outcome shows**, by the rule that the outcome is about. The records of the
header are looked for only where there is a header. -/
def Rule.Evidence (t : Text) (o : Outcome) : Rule → Prop
  | fileDescriptionRequired =>
    (o.severity = .passed → o.Shows t "FILE_DESCRIPTION") ∧
      (o.severity = .error → o.Shows t "HEADER;")
  | fileNameRequired =>
    (o.severity = .passed → o.Shows t "FILE_NAME") ∧ (o.severity = .error → o.Shows t "HEADER;")
  | fileSchemaRequired => o.Shows t "HEADER;"
  | fileSchemaValidation => o.Shows t "FILE_SCHEMA"
  | dataSectionRequired =>
    (o.line = none ↔ ∀ l ∈ t.lines, ¬ "DATA;" <:+: l) ∧
      (o.line ≠ none → o.IsFirst t fun l => "DATA;" <:+: l)
  | entityInstancesPresent => o.severity = .warning → o.Shows t "DATA;"
  | entityTypeValidation => ∃ label, o.instanceId = some label ∧ o.Shows t label
  | characterEncoding =>
    o.severity = .warning → o.IsFirst t fun l => ∃ c ∈ l, c.isSurrogate = true
  | _ => True

/-- **An outcome is evident** from a text. -/
structure Outcome.Evident (t : Text) (o : Outcome) : Prop where
  /-- A line that is named is one of the text. -/
  isLine : ∀ number, o.line = some number → 1 ≤ number ∧ number ≤ t.lineCount
  evidence : ∀ rule : Rule, o.rule = some rule.name → rule.Evidence t o

/-! ### Outcomes of findings -/

namespace Finding

theorem outcome_line (group : CheckGroup) (f : Finding) :
    (f.outcome group).line = f.line.map Int.ofNat := rfl

/-- What a finding shows is shown by its outcome. -/
theorem Shows.outcome (h : f.Shows t needle) : (f.outcome group).Shows t needle := by
  obtain ⟨number, l, hline, hl, hneedle⟩ := h
  refine ⟨number, l, ?_, hl, hneedle⟩
  rw [outcome_line, hline]
  rfl

/-- Where a finding is the first of its kind, so is its outcome. -/
theorem IsFirst.outcome {p : Text → Prop} (h : f.IsFirst t p) : (f.outcome group).IsFirst t p := by
  obtain ⟨number, l, hline, hl⟩ := h
  refine ⟨number, l, ?_, hl⟩
  rw [outcome_line, hline]
  rfl

end Finding

namespace CheckGroup

/-- **The evidence of the envelope**: of its rules only the one about the encoding asks something of
a line. -/
private theorem evidence_envelope (hf : f ∈ Envelope.check (Layout.of t)) :
    f.rule.Evidence t (f.outcome envelope) := by
  by_cases hr : f.rule = .characterEncoding
  · rw [hr]
    obtain rfl := Envelope.eq_encodingFinding hf hr
    exact fun hwarning => (Envelope.isFirst_encodingFinding hwarning).outcome
  · -- the other rules of the envelope ask nothing of a line
    have hrule := mem_ofGroup_of_mem_table (Envelope.regular_of_mem_check hf).row
    simp only [Rule.ofGroup, List.mem_cons, List.not_mem_nil, or_false, hr] at hrule
    obtain h | h | h | h | h := hrule <;>
    · rw [h]
      trivial

/-- **The evidence of the header** is the record, or the header where there is none. -/
private theorem evidence_header {rules : SchemaRules} (hf : f ∈ Header.check rules (Layout.of t)) :
    f.rule.Evidence t (f.outcome header) := by
  -- a record is there or not, with the severity to match
  have hrecord : ∀ header keyword rule, (Layout.of t).header = some header → keyword ≠ [] →
      CodePoint.lineFeed ∉ keyword → f = Header.recordFinding (Layout.of t) header keyword rule →
      (f.severity = .passed → (f.outcome .header).Shows t keyword) ∧
        (f.severity = .error → (f.outcome .header).Shows t "HEADER;") := by
    rintro header keyword rule h hne hlineFeed rfl
    rcases Header.shows_recordFinding rule h hne hlineFeed with ⟨hs, hshows⟩ | ⟨hs, hshows⟩
    · exact ⟨fun _ => hshows.outcome, fun herror => nomatch hs.symm.trans herror⟩
    · exact ⟨fun hpassed => (nomatch hs.symm.trans hpassed), fun _ => hshows.outcome⟩
  rcases Header.cases_of_mem_check hf with rfl | ⟨header, h, hf | hf | rfl⟩
  · trivial
  · have hshows := hrecord header _ _ h (by decide) (by decide) hf
    rw [hf, Header.rule_recordFinding, ← hf]
    exact hshows
  · have hshows := hrecord header _ _ h (by decide) (by decide) hf
    rw [hf, Header.rule_recordFinding, ← hf]
    exact hshows
  · rcases Header.shows_schemaFinding rules h with ⟨hr, hshows⟩ | ⟨hr, hshows⟩
    · rw [hr]
      exact hshows.outcome
    · rw [hr]
      exact hshows.outcome

/-- **The evidence of entity types**: the data section, or the first declaration of an unknown type.
-/
private theorem evidence_entities {rules : EntityRules}
    (hf : f ∈ EntityTypes.check rules (Layout.of t)) :
    f.rule.Evidence t (f.outcome entities) := by
  rcases EntityTypes.cases_of_mem_check hf with ⟨rfl, -⟩ | ⟨data, hdata, rfl⟩ | rfl |
    ⟨first, others, hunknown, rfl⟩
  · obtain ⟨hnone, hfirst⟩ := EntityTypes.isFirst_missingFinding (t := t)
    refine ⟨?_, fun hne => ?_⟩
    · rw [Finding.outcome_line, Option.map_eq_none_iff]
      exact hnone
    · -- a line that is told is that of a finding
      rw [Finding.outcome_line, Option.ne_none_iff_exists'] at hne
      obtain ⟨number, hnumber⟩ := hne
      obtain ⟨n, hn, -⟩ := Option.map_eq_some_iff.mp hnumber
      exact (hfirst n hn).outcome
  · exact fun _ => (EntityTypes.shows_emptyFinding hdata).outcome
  · exact nofun
  · obtain ⟨hid, hshows⟩ := EntityTypes.shows_unknownFinding hunknown
    exact ⟨first.label, hid, hshows.outcome⟩

/-- The rules of the trade and recommended practice ask nothing of a line. -/
private theorem evidence_of_mem_ofGroup {rule : Rule} {o : Outcome}
    (h : rule ∈ Rule.ofGroup business ∨ rule ∈ Rule.ofGroup practice) : rule.Evidence t o := by
  simp only [Rule.ofGroup, List.mem_cons, List.not_mem_nil, or_false] at h
  obtain (h | h | h | h | h) | h | h | h := h <;>
  · rw [h]
    trivial

/-- The line of every finding shows what its rule is about. -/
theorem evidence_of_mem_findings (hf : f ∈ group.findings policy (Layout.of t)) :
    f.rule.Evidence t (f.outcome group) := by
  cases group with
  | envelope => exact evidence_envelope hf
  | header => exact evidence_header hf
  | entities => exact evidence_entities hf
  | business =>
    have hrule := mem_ofGroup_of_mem_table (Business.regular_of_mem_check hf).row
    exact evidence_of_mem_ofGroup (.inl hrule)
  | practice =>
    have hrule := mem_ofGroup_of_mem_table (Practice.regular_of_mem_check hf).row
    exact evidence_of_mem_ofGroup (.inr hrule)

/-- **Every outcome** of every check is evident. -/
theorem evident_of_mem_outcomes {o : Outcome}
    (ho : o ∈ all.flatMap (outcomes policy (Layout.of t))) : o.Evident t := by
  obtain ⟨group, f, hf, rfl⟩ := exists_of_mem_outcomes ho
  constructor
  · intro number hnumber
    obtain ⟨n, hn, rfl⟩ := Option.map_eq_some_iff.mp hnumber
    obtain ⟨hpos, hle⟩ := Text.exists_isLine_iff.mp (isLine_of_mem_findings hf hn)
    exact ⟨Int.ofNat_le.mpr hpos, Int.ofNat_le.mpr hle⟩
  · intro rule hrule
    rw [Finding.outcome_rule, Option.some.injEq] at hrule
    rw [← Rule.name_injective hrule]
    exact evidence_of_mem_findings hf

end CheckGroup

/-! ### Snippets -/

namespace Snippet

/-- Of numbered lines, the one of a number. -/
private theorem filter_numberedFrom {ls : List Text} {k : Nat} {l : Text} (h : ls[k]? = some l) :
    ∀ first, (Text.numberedFrom first ls).filter (fun p => p.1 = first + k) = [(first + k, l)] := by
  induction ls generalizing k with
  | nil => cases h
  | cons l' ls ih =>
    intro first
    cases k with
    | zero =>
      obtain rfl := Option.some.inj h
      -- all numbers behind the first one are greater
      have hrest : (Text.numberedFrom (first + 1) ls).filter (fun p => p.1 = first + 0) = [] := by
        refine List.filter_eq_nil_iff.mpr fun p hp hpf => ?_
        have hle := (Text.mem_numberedFrom_iff.mp hp).1
        have heq := of_decide_eq_true hpf
        omega
      rw [Text.numberedFrom, List.filter_cons_of_pos (by simp), hrest]
      rfl
    | succ k =>
      rw [List.getElem?_cons_succ] at h
      have hstep := ih h (first + 1)
      rw [show first + 1 + k = first + (k + 1) by omega] at hstep
      rw [Text.numberedFrom, List.filter_cons_of_neg (by simp), hstep]

/-- **The line that a snippet marks** is the one that it is about, provided that the window leaves
nothing out before or behind it. -/
theorem filter_linesAround {window : Window} {number : Nat} {l : Text}
    (hbefore : 0 ≤ window.before) (hafter : 0 ≤ window.after) (hl : t.IsLine number l) :
    (linesAround t.lines window number).filter SnippetLine.flagged
      = [⟨number, withoutReturns l, true⟩] := by
  obtain ⟨hpos, hl⟩ := hl
  obtain ⟨hlt, -⟩ := List.getElem?_eq_some_iff.mp hl
  unfold linesAround
  dsimp only
  generalize hfirst : max 1 ((number : Int) - window.before) = first
  generalize hlast : min (t.lines.length : Int) ((number : Int) + window.after) = last
  -- the window reaches from `first` on over `k` more lines up to the line, and does not end there
  obtain ⟨first, rfl⟩ : ∃ n : Nat, first = n := ⟨first.toNat, by omega⟩
  obtain ⟨k, rfl⟩ : ∃ k, number = first + k := ⟨number - first, by omega⟩
  have hshown : ((t.lines.drop ((first : Int) - 1).toNat).take (last - first + 1).toNat)[k]?
      = some l := by
    rw [List.getElem?_take_of_lt (by omega), List.getElem?_drop, ← hl]
    congr 1
    omega
  rw [List.filter_map, Int.toNat_natCast]
  have hflag : (SnippetLine.flagged ∘ fun p : Nat × Text =>
      SnippetLine.mk p.1 (withoutReturns p.2) ((p.1 : Int) = ((first + k : Nat) : Int)))
        = fun p => decide (p.1 = first + k) := by
    funext p
    exact decide_eq_decide.mpr Int.ofNat_inj
  change List.map _ (List.filter (SnippetLine.flagged ∘ fun p : Nat × Text =>
      SnippetLine.mk p.1 (withoutReturns p.2) ((p.1 : Int) = ((first + k : Nat) : Int))) _) = _
  rw [hflag, filter_numberedFrom hshown first]
  simp

end Snippet

/-! ### Reports -/

/-- **Every reported line is a real line and shows the evidence.** A run over a text under an
accepted policy, heard to its end, gives a report. All its outcomes are evident; those about
property sets name, one after the other, the lines in which the property sets begin; every outcome
that is kept is carried by a snippet for its line; and every snippet marks one line only, that which
its outcomes name, as it stands in the text. -/
theorem Report.results_evident {P : Policy} (hP : P.Accepted) {seconds : Float} (hs : 0 ≤ seconds)
    {content : Content} {filename t : Text} (ht : content.toText filename = .ok t)
    {sink : Option Sink} (h : Sink.Patient sink (Notification.series (P.estimator.estimate t))) :
    ∃ r, (validateContent (some P) sink (.real seconds) content (.text filename)).result = .ok r ∧
      (∀ o ∈ r.results, o.Evident t) ∧
      (let sets := PropertySets.all P.propertySets t
      let about := r.results.filter fun o => o.rule = some Rule.standardPropertySets.name
      (sets = [] ∧ about.map Outcome.line = [none]) ∨
        List.Forall₂ (fun set o =>
          (∃ length, PropertySets.atFront? P.propertySets (t.drop set.1) = some (set.2, length)) ∧
          ∃ (number : Nat) (l : Text), o.line = some ↑number ∧ t.LiesIn set.1 number l)
          sets about) ∧
      ∀ includePassed,
        (∀ o ∈ r.results, Snippet.Kept includePassed o →
          ∃ s ∈ Snippet.extract t r.results {} includePassed,
            o.line = some s.line ∧ o ∈ s.outcomes) ∧
        ∀ s ∈ Snippet.extract t r.results {} includePassed,
          ∃ (number : Nat) (l : Text), s.line = number ∧ t.IsLine number l ∧
            s.lines.filter SnippetLine.flagged = [⟨number, Snippet.withoutReturns l, true⟩] := by
  refine ⟨_, result_validateContent hP hs ht h, ?_, ?_, fun includePassed => ⟨?_, ?_⟩⟩
  · intro o ho
    exact CheckGroup.evident_of_mem_outcomes ho
  · intro sets about
    have habout : about = (Business.propertySetFindings P.propertySets (Layout.of t)).map
        (Finding.outcome .business) := by
      rw [← CheckGroup.outcomesAbout_propertySets, CheckGroup.outcomesAbout_singleton]
      rfl
    rw [habout]
    -- without property sets there is one outcome that says so and names no line
    rcases Business.forall₂_propertySetFindings P.propertySets t with ⟨hnone, hline⟩ | hsets
    · refine .inl ⟨hnone, ?_⟩
      have hlines := congrArg (List.map fun line : Option Nat => line.map Int.ofNat) hline
      rw [List.map_map] at hlines ⊢
      exact hlines
    · refine .inr (List.forall₂_map_right_iff.mpr (hsets.imp ?_))
      rintro set f ⟨hbegins, number, l, hline, hl⟩
      refine ⟨hbegins, number, l, ?_, hl⟩
      rw [Finding.outcome_line, hline]
      rfl
  · intro o ho hkept
    exact Snippet.exists_mem_extract_of_kept ho hkept
  · intro s hs
    obtain ⟨⟨o, ho, -, hline⟩, hs⟩ := Snippet.mem_extract_iff.mp hs
    -- the outcome that the snippet is about names a line of the text, so that the window is around
    -- one
    obtain ⟨hpos, hle⟩ := (CheckGroup.evident_of_mem_outcomes ho).isLine s.line hline
    obtain ⟨number, hnumber⟩ := Int.eq_ofNat_of_zero_le (Int.le_of_lt hpos)
    rw [hnumber] at hpos hle
    obtain ⟨l, hl⟩ := Text.exists_isLine_iff.mpr ⟨Int.ofNat_le.mp hpos, Int.ofNat_le.mp hle⟩
    refine ⟨number, l, hnumber, hl, ?_⟩
    rw [hs, Snippet.cutOut, hnumber]
    exact Snippet.filter_linesAround (by decide) (by decide) hl

/-- A file with a property set in its third line. -/
def lineSample : Text := "HEADER;\nDATA;\n#1=IFCPROPERTYSET('Pset_WallCommon');\nENDSEC;\n"

/-- The report about the file names the third line for the property set. -/
theorem Report.results_evident_lineSample :
    ∃ r, (validateContent (some Policy.bundled) none (.real 0) (.text lineSample)
        (.text "a.ifc")).result = .ok r ∧
      (∀ o ∈ r.results, o.Evident lineSample) ∧
      ∃ o ∈ r.results, o.rule = some Rule.standardPropertySets.name ∧
        ∃ (number : Nat) (l : Text), o.line = some ↑number ∧ lineSample.LiesIn 17 number l := by
  obtain ⟨r, hr, hevident, hsets, -⟩ := results_evident Policy.accepted_bundled
    (by decide : (0 : Float) ≤ 0) (rfl : (Content.text lineSample).toText "a.ifc" = .ok lineSample)
    (Sink.patient_none _)
  refine ⟨r, hr, hevident, ?_⟩
  have hall : PropertySets.all Policy.bundled.propertySets lineSample
      = [(17, Text.ofString "Pset_WallCommon")] := by
    decide +kernel
  rcases hsets with ⟨hnone, -⟩ | hsets
  · rw [hall] at hnone
    cases hnone
  · rw [hall] at hsets
    -- the one property set begins at place 17
    obtain ⟨o, about, ⟨-, hline⟩, -, habout⟩ := List.forall₂_cons_left_iff.mp hsets
    have ho : o ∈ r.results.filter fun o => o.rule = some Rule.standardPropertySets.name := by
      rw [habout]
      exact List.mem_cons_self
    rw [List.mem_filter, decide_eq_true_eq] at ho
    exact ⟨o, ho.1, ho.2, hline⟩

end StepCheck
