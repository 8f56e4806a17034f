import StepCheck.Proofs.Json.ReadBack
import StepCheck.Proofs.Report.Export
import StepCheck.Proofs.Utf8.Decoding
import StepCheck.Report.Intake

/-!
# Exported reports taken in again

A report that has been exported as JSON is the report that is read from the document: the payload is
read back with its records in the order of their keys, and every field of a report, of its summary
and of its outcomes is found under its name and taken in as the value that it was written from. The
two fields that are written on top, the name of a code and the percentage, are passed over.

* `Intake.required_reread`, `Intake.withDefault_reread` — fields of a record that has come back;
* `Feature.intake_reread`, `Outcome.intake_reread`, `Summary.intake_reread` — the parts of a report;
* `Report.texts` — the texts of a report;
* `Utf8.noHighSurrogate_of_decode` — decoded texts can be exported;
* `json_comes_back` — reports.
-/

namespace StepCheck

open Datum

/-! ### Fields that have come back -/

/-- **Different names.** -/
def Datum.DifferentNames (entries : List (String × Datum)) : Prop :=
  (entries.map fun e => Text.ofString e.1).Nodup

namespace Datum

variable {entries : List (String × Datum)}

/-- The entries of a record of fields that has come back. -/
def rereadFields (entries : List (String × Datum)) : List (Datum × Datum) :=
  ((entries.map fun (name, value) => (ofString name, value)).mergeSort keyOrder).map
    fun e => (e.1, e.2.reread id)

/-- The fields of a record are read again one by one. -/
theorem reread_fields (entries : List (String × Datum)) :
    (fields entries).reread id = .record (rereadFields entries) := reread_record _

/-- The keys of fields with different names are different. -/
theorem DifferentNames.nodup_keys (h : DifferentNames entries) :
    ((entries.map fun (name, value) => (ofString name, value)).map Prod.fst).Nodup := by
  have hkeys : (entries.map fun (name, value) => (ofString name, value)).map Prod.fst
      = (entries.map fun e => Text.ofString e.1).map Datum.text := by
    rw [List.map_map, List.map_map]
    rfl
  rw [hkeys]
  exact List.Nodup.map (fun _ _ => Datum.text.inj) h

/-- Every field is found under its name. -/
theorem lookup?_rereadFields (h : DifferentNames entries) {name : String} {d : Datum}
    (hmem : (name, d) ∈ entries) :
    lookup? name (rereadFields entries) = some (d.reread id) :=
  lookup?_reread h.nodup_keys (List.mem_map_of_mem (f := fun e => (ofString e.1, e.2)) hmem)

end Datum

namespace Intake

variable {α : Type} {entries : List (String × Datum)} {name : String} {d : Datum} {a : α}
  {read : Intake α}

/-- **A field that has to be there** is taken in as the value that it was written from. -/
theorem required_reread (h : DifferentNames entries) (hmem : (name, d) ∈ entries)
    (hread : read (d.reread id) = .ok a) : required name read (rereadFields entries) = .ok a := by
  rw [required, lookup?_rereadFields h hmem]
  dsimp only
  rw [hread]
  rfl

/-- **A field with a default** is taken in as the value that it was written from. -/
theorem withDefault_reread (h : DifferentNames entries) (hmem : (name, d) ∈ entries) {default : α}
    (hread : read (d.reread id) = .ok a) :
    withDefault name default read (rereadFields entries) = .ok a := by
  rw [withDefault, lookup?_rereadFields h hmem]
  dsimp only
  rw [hread]
  rfl

theorem text_reread (t : Text) : text ((Datum.text t).reread id) = .ok t := rfl

theorem flag_reread (b : Bool) : flag ((Datum.bool b).reread id) = .ok b := rfl

theorem integer_reread (i : Int) : integer ((Datum.int i).reread id) = .ok i := rfl

/-- What is not null is taken in as it is. -/
theorem nullable_of_ne_null (hd : d ≠ .null) : nullable read d = (read d).map some := by
  cases d with
  | null => exact absurd rfl hd
  | _ => rfl

/-- **A value or null** is taken in as what it was written from. -/
theorem nullable_reread {f : α → Datum} {o : Option α}
    (hread : ∀ a, read ((f a).reread id) = .ok a) (hnull : ∀ a, (f a).reread id ≠ .null) :
    nullable read ((ofOption f o).reread id) = .ok o := by
  cases o with
  | none => rfl
  | some a =>
    change nullable read ((f a).reread id) = _
    rw [nullable_of_ne_null (hnull a), hread]
    rfl

/-- **The members of a list** are taken in one by one. -/
theorem items_map {f : α → Datum} {as : List α} (hread : ∀ a ∈ as, read (f a) = .ok a)
    (index : Nat) : items read index (as.map f) = .ok as := by
  induction as generalizing index with
  | nil => rfl
  | cons a as ih =>
    rw [List.forall_mem_cons] at hread
    rw [List.map_cons, items, hread.1, ih hread.2]
    rfl

end Intake

/-! ### The parts of a report -/

open Intake

/-- The name of a severity is read back. -/
theorem Severity.word_wire (s : Severity) :
    word Severity.all Severity.wire (.text s.wire) = .ok s := by
  cases s <;> rfl

/-- The name of a code is read back. -/
theorem Code.word_wire (c : Code) : word Code.all Code.wire (.text c.wire) = .ok c := by
  cases c <;> rfl

/-- The fields of a feature have different names. -/
theorem Feature.differentNames (f : Feature) :
    DifferentNames [("rule", .text f.rule), ("description", .text f.description),
      ("line", ofOption int f.line)] := by
  change (["rule", "description", "line"].map Text.ofString).Nodup
  decide

/-- A feature is read back. -/
theorem Feature.intake_reread (f : Feature) : Feature.intake (f.payload.reread id) = .ok f := by
  have hnames := f.differentNames
  rw [Feature.payload, reread_fields]
  -- the fields in the order in which they are taken in
  change (both (required "rule" text _) (both (required "description" text _)
    (withDefault "line" none (nullable integer) _)) >>= _) = _
  rw [required_reread hnames (.head _) (text_reread f.rule),
    required_reread hnames (.tail _ (.head _)) (text_reread f.description),
    withDefault_reread hnames (.tail _ (.tail _ (.head _))) (nullable_reread integer_reread nofun)]
  rfl

/-- The fields of an outcome have different names. -/
theorem Outcome.differentNames (o : Outcome) :
    DifferentNames [("severity", .text o.severity.wire), ("outcome_code", .text o.code.wire),
      ("observed", .text o.observed), ("expected", ofOption Datum.text o.expected),
      ("feature", ofOption Feature.payload o.feature),
      ("instance_id", ofOption Datum.text o.instanceId), ("outcome_name", .text o.code.slug)] := by
  change (["severity", "outcome_code", "observed", "expected", "feature", "instance_id",
    "outcome_name"].map Text.ofString).Nodup
  decide

/-- The name of the code is passed over. -/
theorem Outcome.intake_reread (o : Outcome) : Outcome.intake (o.payload.reread id) = .ok o := by
  have hnames := o.differentNames
  -- a feature is a record, and so it is never taken for a missing one
  have hfeature : nullable Feature.intake ((ofOption Feature.payload o.feature).reread id)
      = .ok o.feature := by
    refine nullable_reread Feature.intake_reread fun f => ?_
    rw [Feature.payload, reread_fields]
    exact nofun
  rw [Outcome.payload, reread_fields]
  change (both (required "severity" (word Severity.all Severity.wire) _)
    (both (required "outcome_code" (word Code.all Code.wire) _)
      (both (required "observed" text _) (both (withDefault "expected" none (nullable text) _)
        (both (withDefault "feature" none (nullable Feature.intake) _)
          (withDefault "instance_id" none (nullable text) _))))) >>= _) = _
  rw [required_reread hnames (.head _) (Severity.word_wire o.severity),
    required_reread hnames (.tail _ (.head _)) (Code.word_wire o.code),
    required_reread hnames (.tail _ (.tail _ (.head _))) (text_reread o.observed),
    withDefault_reread hnames (.tail _ (.tail _ (.tail _ (.head _))))
      (nullable_reread text_reread nofun),
    withDefault_reread hnames (.tail _ (.tail _ (.tail _ (.tail _ (.head _))))) hfeature,
    withDefault_reread hnames (.tail _ (.tail _ (.tail _ (.tail _ (.tail _ (.head _))))))
      (nullable_reread text_reread nofun)]
  rfl

/-- The fields of a summary have different names. -/
theorem Summary.differentNames (s : Summary) :
    DifferentNames [("errors", .int s.errors), ("warnings", .int s.warnings),
      ("passed", .int s.passed), ("not_applicable", .int s.notApplicable),
      ("total_checks", .int s.total)] := by
  change (["errors", "warnings", "passed", "not_applicable", "total_checks"].map
    Text.ofString).Nodup
  decide

/-- A summary is read back. -/
theorem Summary.intake_reread (s : Summary) : Summary.intake (s.payload.reread id) = .ok s := by
  have hnames := s.differentNames
  rw [Summary.payload, reread_fields]
  change (both (withDefault "errors" 0 integer _) (both (withDefault "warnings" 0 integer _)
    (both (withDefault "passed" 0 integer _) (both (withDefault "not_applicable" 0 integer _)
      (withDefault "total_checks" 0 integer _)))) >>= _) = _
  -- each field is looked up under its own name
  rw [withDefault_reread hnames (.head _) (integer_reread s.errors),
    withDefault_reread hnames (.tail _ (.head _)) (integer_reread s.warnings),
    withDefault_reread hnames (.tail _ (.tail _ (.head _))) (integer_reread s.passed),
    withDefault_reread hnames (.tail _ (.tail _ (.tail _ (.head _))))
      (integer_reread s.notApplicable),
    withDefault_reread hnames (.tail _ (.tail _ (.tail _ (.tail _ (.head _)))))
      (integer_reread s.total)]
  rfl

/-! ### What documents can hold -/

/-- **The texts of a feature.** -/
def Feature.texts (f : Feature) : List Text := [f.rule, f.description]

/-- **The texts of an outcome**, the words for its severity and its code aside. -/
def Outcome.texts (o : Outcome) : List Text :=
  o.observed :: (o.expected.toList ++ (o.feature.elim [] Feature.texts ++ o.instanceId.toList))

/-- **The texts of a report.** -/
def Report.texts (r : Report) : List Text := r.filename :: r.results.flatMap Outcome.texts

/-- Characters of strings are no surrogates. -/
theorem Text.noHighSurrogate_ofString (s : String) : (ofString s).NoHighSurrogate := by
  intro c hc
  obtain ⟨x, -, rfl⟩ := List.mem_map.mp hc
  rw [CodePoint.isHighSurrogate_eq_false_iff]
  change x.val.toNat < 0xD800 ∨ 0xDC00 ≤ x.val.toNat
  have hx : x.val.toNat.isValidChar := x.valid
  rcases hx with hx | hx <;> omega

namespace Json

variable {entries : List (String × Datum)}

/-- A record of fields can be exported if its values can. -/
theorem exportable_fields (h : DifferentNames entries)
    (hvalues : ∀ e ∈ entries, Exportable e.2) : Exportable (fields entries) := by
  refine .record ?_ h.nodup_keys ?_
  · intro e he
    obtain ⟨e', -, rfl⟩ := List.mem_map.mp he
    exact ⟨_, rfl, Text.noHighSurrogate_ofString e'.1⟩
  · intro e he
    obtain ⟨e', he', rfl⟩ := List.mem_map.mp he
    exact hvalues e' he'

/-- What is not there is null. -/
theorem exportable_ofOption {α : Type} {f : α → Datum} {o : Option α}
    (h : ∀ a, o = some a → Exportable (f a)) : Exportable (ofOption f o) := by
  cases o with
  | none => exact .null
  | some a => exact h a rfl

end Json

open Json (Exportable exportable_fields exportable_ofOption)

/-- A feature can be exported if its texts can. -/
theorem Feature.json_exportable {f : Feature} (h : ∀ t ∈ f.texts, t.NoHighSurrogate) :
    Exportable f.payload := by
  rw [Feature.texts, List.forall_mem_cons, List.forall_mem_singleton] at h
  refine exportable_fields f.differentNames ?_
  simp only [List.forall_mem_cons, List.not_mem_nil, false_imp_iff, implies_true, and_true]
  exact ⟨.text h.1, .text h.2, exportable_ofOption fun l _ => .int l⟩

/-- **An outcome** can be exported if its texts can. -/
theorem Outcome.json_exportable {o : Outcome} (h : ∀ t ∈ o.texts, t.NoHighSurrogate) :
    Exportable o.payload := by
  rw [Outcome.texts, List.forall_mem_cons, List.forall_mem_append, List.forall_mem_append] at h
  obtain ⟨hobserved, hexpected, hfeature, hid⟩ := h
  refine exportable_fields o.differentNames ?_
  simp only [List.forall_mem_cons, List.not_mem_nil, false_imp_iff, implies_true, and_true]
  -- the names of severities and codes are fixed texts, and the others are those of the outcome
  refine ⟨.text ?_, .text ?_, .text hobserved, exportable_ofOption fun t ht => .text ?_,
    exportable_ofOption fun f hf => ?_, exportable_ofOption fun t ht => .text ?_, .text ?_⟩
  · cases o.severity <;> exact Text.noHighSurrogate_ofString _
  · cases o.code <;> exact Text.noHighSurrogate_ofString _
  · exact hexpected t (Option.mem_toList.mpr ht)
  · rw [hf] at hfeature
    exact Feature.json_exportable hfeature
  · exact hid t (Option.mem_toList.mpr ht)
  · cases o.code <;> exact Text.noHighSurrogate_ofString _

/-! ### Decoded texts -/

namespace Utf8

/-- **Decoded texts hold no high surrogates**, however broken bytes are treated: what is kept of a
byte is a low one. -/
theorem noHighSurrogate_of_decode {handling : Handling} {bs : List UInt8} {t : Text}
    (h : decode handling bs = .ok t) : t.NoHighSurrogate := by
  have ht : t = (pieces bs).flatMap (Piece.text handling) := by
    unfold decode at h
    split at h <;> cases h
    rfl
  rw [ht]
  -- every character comes from a piece, which is sound
  intro c hc
  obtain ⟨p, hp, hc⟩ := List.mem_flatMap.mp hc
  have hsound : p.Sound := sound_of_mem_pieces hp
  rw [CodePoint.isHighSurrogate_eq_false_iff]
  cases p with
  | whole d bytes =>
    obtain rfl := List.mem_singleton.mp hc
    rcases isSurrogate_eq_false_iff.mp hsound.1 with hd | hd
    · exact .inl hd
    · right
      omega
  | broken bytes flaw =>
    cases handling with
    | surrogates =>
      -- bytes are kept as the low surrogates from U+DC80 on
      obtain ⟨b, -, rfl⟩ := List.mem_map.mp hc
      rw [val_surrogateOf]
      right
      omega
    | replacement =>
      obtain rfl := List.mem_singleton.mp hc
      decide
    | numbers =>
      obtain ⟨b, -, hc⟩ := List.mem_flatMap.mp hc
      rcases List.mem_append.mp hc with hc | hc
      · exact CodePoint.isHighSurrogate_eq_false_iff.mp
          (Text.noHighSurrogate_ofString "\\x" c hc)
      · -- the digits of a number are ASCII
        obtain ⟨d, hd, rfl⟩ := Text.mem_hex hc
        have hall : ∀ d < 16, (CodePoint.ofChar d.digitChar).val < 0xD800 := by decide
        exact .inl (hall d hd)
    | strict => cases hc
    | omission => cases hc
    | unknown name => cases hc

end Utf8

/-! ### Reports -/

namespace Report

variable {r : Report} {close : Int}

/-- The fields of a report have different names. -/
private theorem differentNames (r : Report) (close : Int) :
    DifferentNames (r.fieldsWith close) := by
  change (["filename", "is_valid", "validation_time", "estimated_time", "summary", "results",
    "estimate_accuracy"].map Text.ofString).Nodup
  decide

/-- **Times of reports that documents can hold**: they are finite and not negative, and their
numerals are read exactly. -/
structure JsonTimes (r : Report) : Prop where
  zero_le_validationTime : 0 ≤ r.validationTime
  zero_le_estimatedTime : 0 ≤ r.estimatedTime
  finite_validationTime : Binary64.isFinite r.validationTime = true
  finite_estimatedTime : Binary64.isFinite r.estimatedTime = true
  exact_validationTime : Json.IsExact r.validationTime
  exact_estimatedTime : Json.IsExact r.estimatedTime

/-- **A report** can be exported if its times and its texts can. -/
private theorem json_exportable_fieldsWith (htimes : r.JsonTimes)
    (htexts : ∀ t ∈ r.texts, t.NoHighSurrogate) (close : Int) :
    Exportable (fields (r.fieldsWith close)) := by
  rw [texts, List.forall_mem_cons] at htexts
  refine exportable_fields (r.differentNames close) ?_
  simp only [fieldsWith, List.forall_mem_cons, List.not_mem_nil, false_imp_iff, implies_true,
    and_true]
  refine ⟨.text htexts.1, .bool r.isValid,
    .real htimes.finite_validationTime htimes.exact_validationTime,
    .real htimes.finite_estimatedTime htimes.exact_estimatedTime, ?_, .list fun d hd => ?_,
    .int close⟩
  · -- the counts are whole numbers
    refine exportable_fields r.summary.differentNames ?_
    simp only [List.forall_mem_cons, List.not_mem_nil, false_imp_iff, implies_true, and_true]
    exact ⟨.int _, .int _, .int _, .int _, .int _⟩
  · obtain ⟨o, ho, rfl⟩ := List.mem_map.mp hd
    exact Outcome.json_exportable fun t ht => htexts.2 t (List.mem_flatMap.mpr ⟨o, ho, ht⟩)

/-- **The payload that has come back** is taken in as the report. -/
theorem intake_reread (hvalidation : 0 ≤ r.validationTime) (hestimated : 0 ≤ r.estimatedTime)
    (close : Int) : Report.intake ((fields (r.fieldsWith close)).reread id) = .ok r := by
  have hnames := r.differentNames close
  -- the percentage is among the fields, and no reader asks for it
  have hresults : tuple Outcome.intake ((list (r.results.map Outcome.payload)).reread id)
      = .ok r.results := by
    rw [reread_list, List.map_map]
    exact items_map (fun o _ => Outcome.intake_reread o) 0
  rw [reread_fields]
  change (both (required "filename" text _) (both (required "is_valid" flag _)
    (both (required "validation_time" nonNegative _) (both (required "estimated_time" nonNegative _)
      (both (required "summary" Summary.intake _)
        (withDefault "results" [] (tuple Outcome.intake) _))))) >>= _) = _
  rw [required_reread hnames (.head _) (text_reread r.filename),
    required_reread hnames (.tail _ (.head _)) (flag_reread r.isValid),
    required_reread hnames (.tail _ (.tail _ (.head _))) (nonNegative_real hvalidation),
    required_reread hnames (.tail _ (.tail _ (.tail _ (.head _)))) (nonNegative_real hestimated),
    required_reread hnames (.tail _ (.tail _ (.tail _ (.tail _ (.head _)))))
      r.summary.intake_reread,
    withDefault_reread hnames (.tail _ (.tail _ (.tail _ (.tail _ (.tail _ (.head _)))))) hresults]
  rfl

/-- **JSON documents are read back.** Every report with finite times has a document, and if no text
of the report holds a high surrogate, then the datum of the document is taken in as the report.
Texts that are decoded from bytes never hold one. No time of a report is negative, and the numerals
of the two times are taken to be read exactly. -/
theorem json_comes_back (r : Report) (htimes : r.JsonTimes)
    (htexts : ∀ t ∈ r.texts, t.NoHighSurrogate) :
    (∃ document d, dump "json" r = .ok document ∧ Json.read? document = some d ∧
      Report.intake d = .ok r) ∧
    ∀ (handling : Utf8.Handling) (bs : List UInt8) (t : Text),
      Utf8.decode handling bs = .ok t → t.NoHighSurrogate := by
  refine ⟨?_, fun handling bs t ht => Utf8.noHighSurrogate_of_decode ht⟩
  -- finite times have a percentage, and so the payload exists
  obtain ⟨close, hclose, -⟩ := exists_accuracy htimes.zero_le_validationTime
    htimes.zero_le_estimatedTime (.inl htimes.finite_validationTime)
  refine ⟨Json.document (fields (r.fieldsWith close)), _, ?_,
    Json.read?_document (json_exportable_fieldsWith htimes htexts close),
    intake_reread htimes.zero_le_validationTime htimes.zero_le_estimatedTime close⟩
  rw [dump, payload_eq hclose]
  rfl

/-- A report whose texts hold a kept byte, a character beyond U+FFFF, a quote and a line feed. -/
def surrogateReport : Report :=
  .of "a\u0394.ifc" 0 0.5 [{
    severity := .error
    code := .schemaError
    observed := CodePoint.ofNat 0xDC80 :: CodePoint.ofNat 0x1F600 :: Text.ofString "\"\n"
    expected := none
    feature := some ⟨"SCHEMA_IDENTIFIER", "The schema is known", some 3⟩
    instanceId := some "#1" }]

private theorem isExact_zero : Json.IsExact 0 := by
  have hnumeral : Binary64.numeral 0 = "0.0" := by decide +kernel
  have hvalue : Binary64.ofDecimal false 0 (-1) = 0 := by decide +kernel
  have hread : Json.number? "0.0" = some (.real (Binary64.ofDecimal false 0 (-1)), []) := rfl
  rw [Json.IsExact, hnumeral, hread, hvalue]

private theorem isExact_half : Json.IsExact 0.5 := by
  have hnumeral : Binary64.numeral 0.5 = "0.5" := by decide +kernel
  have hvalue : Binary64.ofDecimal false 5 (-1) = 0.5 := by decide +kernel
  have hread : Json.number? "0.5" = some (.real (Binary64.ofDecimal false 5 (-1)), []) := rfl
  rw [Json.IsExact, hnumeral, hread, hvalue]

/-- The report is read back from its document. -/
theorem json_comes_back_surrogateReport :
    ∃ document d, dump "json" surrogateReport = .ok document ∧ Json.read? document = some d ∧
      Report.intake d = .ok surrogateReport := by
  have htimes : surrogateReport.JsonTimes := by
    refine ⟨by decide, ?_, by decide, ?_, isExact_zero, isExact_half⟩
    · decide
    · decide
  exact (json_comes_back surrogateReport htimes (by decide)).1

end Report

end StepCheck
