import StepCheck.Proofs.Check.Lines
import StepCheck.Proofs.Datum.Answers
import StepCheck.Proofs.Decimal.Finite
import StepCheck.Proofs.Yaml.ReadBack
import StepCheck.Report.Export

/-!
# Exported reports read back

A report is exported as a document, and whoever has the document would like to have the report. The
document of any datum made of texts, flags, finite times and whole numbers that are not too large is
read back, up to the texts that come back as other ones. What remains is that the payload of a
report is made of these only: no time of a report is negative, so that the percentage in it is a
whole number, and the numbers of outcomes and of lines are bounded by the length of the file.

* `Datum.exportable_fields` — records with fields that can be exported;
* `Report.Sound`, `Obtained.sound` — what the numbers of every report keep;
* `comesBack_dump`, `comesBack_dumpBatch` — documents of reports and of batches are read back;
* `dumpBatch_of_infinite` — the one batch without a document;
* `yaml_comes_back` — reports that runs give;
* `read_dump_breakReport_ne` — a report that loses a line break.
-/

namespace StepCheck

open Yaml (Exportable ExportableRecord IsExact IsKey)
open Datum

/-! ### Records of fields -/

namespace Datum

/-- **Names of fields** that can be exported: names of the language of documents would be no texts
there. -/
def AreNames (names : List String) : Prop :=
  names ≠ [] ∧ (names.map Text.ofString).Nodup ∧ ∀ name ∈ names,
    Yaml.Lexer.IsName (Text.ofString name) ∧ Yaml.Plain.kind (Text.ofString name) = .text

instance (names : List String) : Decidable (AreNames names) :=
  inferInstanceAs (Decidable (_ ∧ _ ∧ _))

variable {names : List String} {entries : List (String × Datum)} {j : Nat}

/-- Different names are different keys. -/
private theorem nodup_keys (hnames : AreNames names) (h : entries.map Prod.fst = names) :
    ((entries.map fun (name, value) => (ofString name, value)).map Prod.fst).Nodup := by
  have htexts : ((entries.map fun (name, value) => (ofString name, value)).map Prod.fst)
      = (names.map Text.ofString).map Datum.text := by
    rw [← h, List.map_map, List.map_map, List.map_map]
    rfl
  rw [htexts]
  exact hnames.2.1.map fun _ _ => Datum.text.inj

/-- Names are written as keys. -/
private theorem isKey_of_mem (hnames : AreNames names) (h : entries.map Prod.fst = names) :
    ∀ e ∈ entries.map fun (name, value) => (ofString name, value), IsKey e.1 := by
  intro e he
  obtain ⟨⟨name, value⟩, hmem, rfl⟩ := List.mem_map.mp he
  have hname : name ∈ names := by
    rw [← h]
    exact List.mem_map_of_mem hmem
  exact ⟨Text.ofString name, rfl, hnames.2.2 name hname⟩

private theorem map_ne_nil (hnames : AreNames names) (h : entries.map Prod.fst = names) :
    (entries.map fun (name, value) => (ofString name, value)) ≠ [] := by
  rintro hnil
  rw [List.map_eq_nil_iff] at hnil
  exact hnames.1 (by rw [← h, hnil]; rfl)

/-- A record of fields can be exported if its values can. -/
theorem exportable_fields (hnames : AreNames names) (h : entries.map Prod.fst = names)
    (hvalues : ∀ e ∈ entries, Exportable (j + 2) e.2) : Exportable j (fields entries) := by
  refine .record (map_ne_nil hnames h) (isKey_of_mem hnames h) (nodup_keys hnames h) fun e he => ?_
  obtain ⟨e', he', rfl⟩ := List.mem_map.mp he
  exact hvalues e' he'

/-- A record of fields can be exported as a document. -/
theorem exportableRecord_fields (hnames : AreNames names) (h : entries.map Prod.fst = names)
    (hvalues : ∀ e ∈ entries, Exportable 0 e.2) :
    ExportableRecord (entries.map fun (name, value) => (ofString name, value)) where
  ne_nil := map_ne_nil hnames h
  keys := isKey_of_mem hnames h
  nodup := nodup_keys hnames h
  values e he := by
    obtain ⟨e', he', rfl⟩ := List.mem_map.mp he
    exact hvalues e' he'

/-- A whole number that is not too large can be exported. -/
theorem exportable_int {i : Int} {k : Nat} (hk : k ≤ 1024) (h : i.natAbs ≤ 2 ^ k) :
    Exportable j (int i) := by
  refine .int (Nat.lt_of_le_of_lt h ?_)
  calc 2 ^ k ≤ 10 ^ k := Nat.pow_le_pow_left (by decide) k
    _ < 10 ^ Yaml.Numeral.mostDigits := Nat.pow_lt_pow_right (by decide) (by
      unfold Yaml.Numeral.mostDigits
      omega)

/-- What may be missing can be exported if it can whenever it is there. -/
theorem exportable_ofOption {α : Type} {f : α → Datum} {o : Option α}
    (h : ∀ a, o = some a → Exportable j (f a)) : Exportable j (ofOption f o) := by
  cases o with
  | none => exact .null
  | some a => exact h a rfl

end Datum

/-! ### Outcomes and reports -/

variable {j : Nat} {r : Report} {close : Int}

/-- A feature can be exported if its line is not too large. -/
theorem Feature.exportable_payload (hj : j + 4 < Yaml.Scalar.width) {f : Feature}
    (hline : ∀ l, f.line = some l → l.natAbs ≤ 2 ^ 64) : Exportable j f.payload := by
  refine exportable_fields (by decide : AreNames ["rule", "description", "line"]) rfl ?_
  simp only [List.forall_mem_cons, List.not_mem_nil, false_imp_iff, implies_true, and_true]
  exact ⟨.text _ hj, .text _ hj,
    exportable_ofOption fun l hl => exportable_int (by decide) (hline l hl)⟩

/-- An outcome can be exported if its line is not too large. -/
theorem Outcome.exportable_payload (hj : j + 6 < Yaml.Scalar.width) {o : Outcome}
    (hline : ∀ l, o.line = some l → l.natAbs ≤ 2 ^ 64) : Exportable j o.payload := by
  refine exportable_fields (by decide : AreNames ["severity", "outcome_code", "observed",
    "expected", "feature", "instance_id", "outcome_name"]) rfl ?_
  simp only [List.forall_mem_cons, List.not_mem_nil, false_imp_iff, implies_true, and_true]
  have htext : ∀ t, Exportable (j + 2) (.text t) := fun t => .text t (by omega)
  refine ⟨htext _, htext _, htext _, exportable_ofOption fun t _ => htext t,
    exportable_ofOption fun f hf => ?_, exportable_ofOption fun t _ => htext t, htext _⟩
  refine Feature.exportable_payload (by omega) fun l hl => hline l ?_
  rw [Outcome.line, hf]
  exact hl

namespace Report

/-- **Times that documents can hold**: finite ones that are exact. -/
structure ExactTimes (r : Report) : Prop where
  finite_validationTime : Binary64.isFinite r.validationTime = true
  finite_estimatedTime : Binary64.isFinite r.estimatedTime = true
  exact_validationTime : IsExact r.validationTime
  exact_estimatedTime : IsExact r.estimatedTime

/-- **What the numbers of a report keep**: no time is negative, and no number is too large. -/
structure Sound (r : Report) : Prop where
  zero_le_validationTime : 0 ≤ r.validationTime
  zero_le_estimatedTime : 0 ≤ r.estimatedTime
  errors : r.summary.errors.natAbs ≤ 2 ^ 64
  warnings : r.summary.warnings.natAbs ≤ 2 ^ 64
  passed : r.summary.passed.natAbs ≤ 2 ^ 64
  notApplicable : r.summary.notApplicable.natAbs ≤ 2 ^ 64
  total : r.summary.total.natAbs ≤ 2 ^ 64
  line : ∀ o ∈ r.results, ∀ l, o.line = some l → l.natAbs ≤ 2 ^ 64

/-- The fields of a report as a datum, the percentage among them. -/
def fieldsWith (close : Int) (r : Report) : List (String × Datum) :=
  [("filename", text r.filename), ("is_valid", bool r.isValid),
    ("validation_time", real r.validationTime), ("estimated_time", real r.estimatedTime),
    ("summary", r.summary.payload), ("results", list (r.results.map Outcome.payload)),
    ("estimate_accuracy", int close)]

/-- The payload has these fields once the percentage is known. -/
theorem payload_eq (h : accuracy r.validationTime r.estimatedTime = .ok close) :
    r.payload = .ok (fields (r.fieldsWith close)) := by
  rw [payload, h]
  rfl

/-- The names of the fields of a report. -/
private def names : List String :=
  ["filename", "is_valid", "validation_time", "estimated_time", "summary", "results",
    "estimate_accuracy"]

/-- The fields of a report can be exported if its numbers are sound. -/
private theorem exportable_fieldsWith (hj : j + 8 < Yaml.Scalar.width) (hr : r.Sound)
    (htimes : r.ExactTimes) {k : Nat} (hk : k ≤ 1024) (hclose : close.natAbs ≤ 2 ^ k) :
    ∀ e ∈ r.fieldsWith close, Exportable j e.2 := by
  simp only [fieldsWith, List.forall_mem_cons, List.not_mem_nil, false_imp_iff, implies_true,
    and_true]
  have hsummary : Exportable j r.summary.payload := by
    refine exportable_fields (by decide : AreNames ["errors", "warnings", "passed",
      "not_applicable", "total_checks"]) rfl ?_
    simp only [List.forall_mem_cons, List.not_mem_nil, false_imp_iff, implies_true, and_true]
    have hint : ∀ i : Int, i.natAbs ≤ 2 ^ 64 → Exportable (j + 2) (int i) := fun i hi =>
      exportable_int (by decide) hi
    exact ⟨hint _ hr.errors, hint _ hr.warnings, hint _ hr.passed, hint _ hr.notApplicable,
      hint _ hr.total⟩
  -- a list has a form of its own if it is empty
  have hresults : Exportable j (list (r.results.map Outcome.payload)) := by
    cases hos : r.results with
    | nil => exact .nil
    | cons o os =>
      rw [← hos]
      refine .list (by rw [hos]; exact List.cons_ne_nil _ _) (fun x hx => ?_) fun x hx => ?_
      · obtain ⟨o, -, rfl⟩ := List.mem_map.mp hx
        exact ⟨_, rfl⟩
      · obtain ⟨o, ho, rfl⟩ := List.mem_map.mp hx
        exact Outcome.exportable_payload (by omega) (hr.line o ho)
  exact ⟨.text _ (by omega), .bool _,
    .real htimes.finite_validationTime htimes.exact_validationTime,
    .real htimes.finite_estimatedTime htimes.exact_estimatedTime, hsummary, hresults,
    exportable_int hk hclose⟩

/-! ### Batches -/

variable {rs : List Report}

/-- A sum of times is not negative. -/
theorem zero_le_sum {xs : List Float} (h : ∀ x ∈ xs, 0 ≤ x) : 0 ≤ sum xs := by
  have hfold : ∀ a : Float, 0 ≤ a → 0 ≤ xs.foldl (· + ·) a := by
    induction xs with
    | nil => exact fun a ha => ha
    | cons x xs ih =>
      intro a ha
      exact ih (fun y hy => h y (List.mem_cons_of_mem _ hy)) _
        (Binary64.zero_le_add ha (h x List.mem_cons_self))
  exact hfold 0 (by decide)

/-- A sum of bounded numbers is bounded. -/
private theorem natAbs_count_le {xs : List Int} {n : Nat} (h : ∀ x ∈ xs, x.natAbs ≤ n) :
    (count xs).natAbs ≤ xs.length * n := by
  have hfold : ∀ a : Int, (xs.foldl (· + ·) a).natAbs ≤ a.natAbs + xs.length * n := by
    induction xs with
    | nil => exact fun a => Nat.le_add_right _ _
    | cons x xs ih =>
      intro a
      have hrest := ih (fun y hy => h y (List.mem_cons_of_mem _ hy)) (a + x)
      have hx := h x List.mem_cons_self
      rw [List.foldl_cons, List.length_cons, Nat.succ_mul]
      omega
  simpa [count] using hfold 0

/-- The time of a batch is not negative. -/
private theorem zero_le_sum_validationTime (hrs : ∀ r ∈ rs, r.Sound) :
    0 ≤ sum (rs.map validationTime) :=
  zero_le_sum (List.forall_mem_map.mpr fun r hr => (hrs r hr).zero_le_validationTime)

/-- The time that was estimated for a batch is not negative. -/
private theorem zero_le_sum_estimatedTime (hrs : ∀ r ∈ rs, r.Sound) :
    0 ≤ sum (rs.map estimatedTime) :=
  zero_le_sum (List.forall_mem_map.mpr fun r hr => (hrs r hr).zero_le_estimatedTime)

/-- A total is a number, or the whole number zero where nothing is added up. -/
private theorem exportable_total {xs : List Float} (h : 0 ≤ sum xs) (hexact : IsExact (sum xs)) :
    Exportable j (total xs) := by
  cases xs with
  | nil => exact exportable_int (k := 0) (by decide) (by decide)
  | cons x xs =>
    change Exportable j (real (sum (x :: xs)))
    cases hfinite : Binary64.isFinite (sum (x :: xs)) with
    | true => exact .real hfinite hexact
    | false =>
      rw [Binary64.eq_infinity h hfinite]
      exact .infinity

/-- The fields of the summary of a batch, the percentage among them. -/
def summaryFieldsWith (close : Int) (rs : List Report) : List (String × Datum) :=
  [("files", ofNat rs.length), ("valid_files", ofNat (rs.countP Report.isValid)),
    ("errors", int (count (rs.map fun r => r.summary.errors))),
    ("warnings", int (count (rs.map fun r => r.summary.warnings))),
    ("validation_time", total (rs.map validationTime)),
    ("estimated_time", total (rs.map estimatedTime)), ("estimate_accuracy", int close)]

/-- **The summary of a batch** can be exported. -/
private theorem exportable_summary (hrs : ∀ r ∈ rs, r.Sound) (hlength : rs.length < 2 ^ 63)
    (hvalidation : IsExact (sum (rs.map validationTime)))
    (hestimated : IsExact (sum (rs.map estimatedTime))) {k : Nat} (hk : k ≤ 1024)
    (hclose : close.natAbs ≤ 2 ^ k) : Exportable 0 (fields (summaryFieldsWith close rs)) := by
  -- no sum is larger than the largest number that a report counts, for each report
  have hcount : ∀ f : Report → Int, (∀ r ∈ rs, (f r).natAbs ≤ 2 ^ 64) →
      Exportable 2 (int (count (rs.map f))) := by
    intro f hf
    have hle : (count (rs.map f)).natAbs ≤ (rs.map f).length * 2 ^ 64 :=
      natAbs_count_le (by simpa using hf)
    rw [List.length_map] at hle
    refine exportable_int (k := 127) (by decide) (hle.trans ?_)
    calc rs.length * 2 ^ 64 ≤ 2 ^ 63 * 2 ^ 64 := Nat.mul_le_mul_right _ hlength.le
      _ = 2 ^ 127 := by decide
  have hnat : ∀ n ≤ rs.length, Exportable 2 (ofNat n) := fun n hn =>
    exportable_int (k := 63) (by decide) (hn.trans hlength.le)
  refine exportable_fields (by decide : AreNames ["files", "valid_files", "errors", "warnings",
    "validation_time", "estimated_time", "estimate_accuracy"]) rfl ?_
  simp only [summaryFieldsWith, List.forall_mem_cons, List.not_mem_nil, false_imp_iff,
    implies_true, and_true]
  exact ⟨hnat _ (Nat.le_refl _), hnat _ List.countP_le_length,
    hcount _ fun r hr => (hrs r hr).errors, hcount _ fun r hr => (hrs r hr).warnings,
    exportable_total (zero_le_sum_validationTime hrs) hvalidation,
    exportable_total (zero_le_sum_estimatedTime hrs) hestimated,
    exportable_int hk hclose⟩

/-- The reports of a batch can be exported, one after the other. -/
private theorem exists_mapM_payload (hrs : ∀ r ∈ rs, r.Sound) (htimes : ∀ r ∈ rs, r.ExactTimes) :
    ∃ ds, rs.mapM payload = .ok ds ∧ ∀ d ∈ ds, Exportable 0 d ∧ ∃ es, d = .record es := by
  refine Except.exists_mapM fun r hr => ?_
  obtain ⟨close, hclose, k, hk, hle⟩ := exists_accuracy (hrs r hr).zero_le_validationTime
    (hrs r hr).zero_le_estimatedTime (.inl (htimes r hr).finite_validationTime)
  exact ⟨_, payload_eq hclose, exportable_fields (by decide : AreNames names) rfl
    (exportable_fieldsWith (by decide) (hrs r hr) (htimes r hr) hk hle), _, rfl⟩

/-! ### Documents -/

end Report

/-- **A document is read back.** There is one for the datum, and its value is the datum with its
texts as they come back. That is the datum itself just when no text is written between single quotes
and holds U+0085. -/
def Datum.ComesBack (d : Datum) (answer : Except ExportError Text) : Prop :=
  ∃ document, answer = .ok document ∧
    Yaml.read document = .ok (d.reread Yaml.Scalar.readBack) ∧
    (Yaml.read document = .ok (d.reread id) ↔
      ∀ t ∈ d.innerTexts, ¬ (Yaml.Style.of t = .single ∧ Yaml.Scalar.nextLine ∈ t))

namespace Report

/-- A record that can be exported is read back. -/
private theorem comesBack_record {es : List (Datum × Datum)} (h : ExportableRecord es) :
    (Datum.record es).ComesBack (renderNamed "yaml" (.ok (.record es))) := by
  have hread := Yaml.read_document h
  refine ⟨_, rfl, hread, ?_⟩
  change Yaml.read (Yaml.document (.record es)) = .ok ((Datum.record es).reread id) ↔ _
  rw [hread, Except.ok.injEq, reread_eq_reread_id_iff]
  exact forall₂_congr fun t _ => Yaml.Scalar.readBack_eq_self_iff t

/-- The document of a sound report with times that documents can hold is read back. -/
theorem comesBack_dump (hr : r.Sound) (htimes : r.ExactTimes) :
    ∃ d, r.payload = .ok d ∧ d.ComesBack (dump "yaml" r) := by
  obtain ⟨close, hclose, k, hk, hle⟩ := exists_accuracy hr.zero_le_validationTime
    hr.zero_le_estimatedTime (.inl htimes.finite_validationTime)
  refine ⟨_, payload_eq hclose, ?_⟩
  rw [dump, payload_eq hclose]
  exact comesBack_record (exportableRecord_fields (by decide : AreNames names) rfl
    (exportable_fieldsWith (by decide) hr htimes hk hle))

/-- The document of several sound reports is read back, provided that one of the sums of their times
is finite: then there is a percentage. -/
theorem comesBack_dumpBatch (hrs : ∀ r ∈ rs, r.Sound) (htimes : ∀ r ∈ rs, r.ExactTimes)
    (hlength : rs.length < 2 ^ 63) (hvalidation : IsExact (sum (rs.map validationTime)))
    (hestimated : IsExact (sum (rs.map estimatedTime)))
    (hfinite : Binary64.isFinite (sum (rs.map validationTime)) = true ∨
      Binary64.isFinite (sum (rs.map estimatedTime)) = true) :
    ∃ d, batchPayload rs = .ok d ∧ d.ComesBack (dumpBatch "yaml" rs) := by
  obtain ⟨close, hclose, k, hk, hle⟩ := exists_accuracy (zero_le_sum_validationTime hrs)
    (zero_le_sum_estimatedTime hrs) hfinite
  obtain ⟨ds, hds, hexportable⟩ := exists_mapM_payload hrs htimes
  have hpayload : batchPayload rs
      = .ok (fields [("summary", fields (summaryFieldsWith close rs)), ("reports", list ds)]) := by
    have hsummary : batchSummary rs = .ok (fields (summaryFieldsWith close rs)) := by
      rw [batchSummary, hclose]
      rfl
    rw [batchPayload, hsummary, hds]
    rfl
  refine ⟨_, hpayload, ?_⟩
  rw [dumpBatch, hpayload]
  refine comesBack_record (exportableRecord_fields (by decide : AreNames ["summary", "reports"])
    rfl ?_)
  simp only [List.forall_mem_cons, List.not_mem_nil, false_imp_iff, implies_true, and_true]
  refine ⟨exportable_summary hrs hlength hvalidation hestimated hk hle, ?_⟩
  -- a batch without reports has an empty list in their place
  cases ds with
  | nil => exact .nil
  | cons d ds =>
    exact .list (List.cons_ne_nil _ _) (fun d hd => (hexportable d hd).2)
      fun d hd => (hexportable d hd).1

/-- Where the times are infinite altogether, there is no percentage and no document. -/
theorem dumpBatch_of_infinite (hrs : ∀ r ∈ rs, r.Sound)
    (hvalidation : Binary64.isFinite (sum (rs.map validationTime)) = false)
    (hestimated : Binary64.isFinite (sum (rs.map estimatedTime)) = false) :
    dumpBatch "yaml" rs = .error (.accuracy .notANumber) := by
  have hclose : accuracy (sum (rs.map validationTime)) (sum (rs.map estimatedTime))
      = .error .notANumber := by
    rw [Binary64.eq_infinity (zero_le_sum_validationTime hrs) hvalidation,
      Binary64.eq_infinity (zero_le_sum_estimatedTime hrs) hestimated]
    exact accuracy_infinity
  rw [dumpBatch, batchPayload, batchSummary, hclose]
  rfl

/-! ### Reports of runs -/

/-- **Reports that runs give**, heard to their end, over texts under accepted policies. No text that
there can be has 2⁶³ characters. -/
def Obtained (r : Report) : Prop :=
  ∃ (P : Policy) (seconds : Float) (content : Content) (filename t : Text) (sink : Option Sink),
    P.Accepted ∧ 0 ≤ seconds ∧ content.toText filename = .ok t ∧ t.length < 2 ^ 63 ∧
    Sink.Patient sink (Notification.series (P.estimator.estimate t)) ∧
    (validateContent (some P) sink (.real seconds) content (.text filename)).result = .ok r

/-- Reports that runs give are sound: the number of outcomes and of lines is bounded by the length
of the text. -/
theorem Obtained.sound (h : r.Obtained) : r.Sound := by
  obtain ⟨P, seconds, content, filename, t, sink, hP, hs, ht, hlength, hsink, hr⟩ := h
  rw [result_validateContent hP hs ht hsink, Except.ok.injEq] at hr
  subst hr
  have hresults := CheckGroup.length_outcomes_le P (Layout.of t)
  change _ ≤ t.length + 18 at hresults
  -- no number of outcomes is greater than that of all
  have hcount : ∀ n ≤ (CheckGroup.all.flatMap (CheckGroup.outcomes P (Layout.of t))).length,
      (n : Int).natAbs ≤ 2 ^ 64 := by
    intro n hn
    rw [Int.natAbs_natCast]
    omega
  refine ⟨hs, hP.sound.zero_le_estimate t, hcount _ List.countP_le_length,
    hcount _ List.countP_le_length, hcount _ List.countP_le_length,
    hcount _ List.countP_le_length, hcount _ (Nat.le_refl _), fun o ho l hl => ?_⟩
  obtain ⟨group, f, hf, rfl⟩ := CheckGroup.exists_of_mem_outcomes ho
  obtain ⟨n, hn, rfl⟩ := Option.map_eq_some_iff.mp hl
  have hle := (Text.exists_isLine_iff.mp (CheckGroup.isLine_of_mem_findings hf hn)).2
  have hbreaks := List.count_le_length (a := CodePoint.lineFeed) (l := t)
  rw [Text.lineCount_eq] at hle
  change n ≤ 2 ^ 64
  omega

/-- **YAML documents are read back but for U+0085.** Every report that a run gives has a document,
and so has every list of such reports, provided that their times do not add up to infinity
altogether. Reading it gives the exported data back, with every text as it comes back and with the
results in their order. Nothing is lost just when no text is written between single quotes and holds
U+0085, which is read as another line break. The times are finite, and their numerals are taken to
be read exactly. -/
theorem yaml_comes_back (r : Report) (rs : List Report) :
    (r.Obtained → r.ExactTimes → ∃ d, r.payload = .ok d ∧ d.ComesBack (dump "yaml" r)) ∧
    (rs.length < 2 ^ 63 → (∀ r ∈ rs, r.Obtained ∧ r.ExactTimes) →
      let validation := sum (rs.map validationTime)
      let estimated := sum (rs.map estimatedTime)
      IsExact validation → IsExact estimated →
      if Binary64.isFinite validation = true ∨ Binary64.isFinite estimated = true then
        ∃ d, batchPayload rs = .ok d ∧ d.ComesBack (dumpBatch "yaml" rs)
      else dumpBatch "yaml" rs = .error (.accuracy .notANumber)) := by
  refine ⟨fun hr htimes => comesBack_dump hr.sound htimes, ?_⟩
  intro hlength hrs validation estimated hvalidation hestimated
  have hsound : ∀ r ∈ rs, r.Sound := fun r hr => (hrs r hr).1.sound
  split
  · next hfinite =>
    exact comesBack_dumpBatch hsound (fun r hr => (hrs r hr).2) hlength hvalidation hestimated
      hfinite
  · next hfinite =>
    rw [not_or, Bool.not_eq_true, Bool.not_eq_true] at hfinite
    exact dumpBatch_of_infinite hsound hfinite.1 hfinite.2

/-- A file whose schema identifier holds U+0085. -/
def breakSample : Text :=
  "HEADER;\nFILE_SCHEMA(('IFC" ++ Yaml.Scalar.nextLine :: Text.ofString "4'));\nENDSEC;\n"

/-- The report about the file. -/
def breakReport : Report :=
  .of "a.ifc" 0 (Policy.bundled.estimator.estimate breakSample)
    (CheckGroup.all.flatMap (CheckGroup.outcomes Policy.bundled (Layout.of breakSample)))

private theorem estimatedTime_breakReport : breakReport.estimatedTime = 0.5 := by
  decide +kernel

private theorem obtained_breakReport : breakReport.Obtained := by
  refine ⟨Policy.bundled, 0, .text breakSample, "a.ifc", breakSample, none,
    Policy.accepted_bundled, by decide, rfl, by decide, Sink.patient_none _, ?_⟩
  exact result_validateContent Policy.accepted_bundled (by decide) rfl (Sink.patient_none _)

private theorem exactTimes_breakReport : breakReport.ExactTimes where
  finite_validationTime := by decide
  finite_estimatedTime := by
    rw [estimatedTime_breakReport]
    decide
  exact_validationTime := by
    change Yaml.Numeral.real (Yaml.real 0) = .ok 0
    decide +kernel
  exact_estimatedTime := by
    rw [estimatedTime_breakReport]
    change Yaml.Numeral.real (Yaml.real 0.5) = .ok 0.5
    decide +kernel

/-- The report, and a batch in which it stands twice, are read back but for U+0085. -/
theorem yaml_comes_back_breakReport :
    (∃ d, breakReport.payload = .ok d ∧ d.ComesBack (dump "yaml" breakReport)) ∧
      ∃ d, batchPayload [breakReport, breakReport] = .ok d ∧
        d.ComesBack (dumpBatch "yaml" [breakReport, breakReport]) := by
  obtain ⟨hreport, hbatch⟩ := yaml_comes_back breakReport [breakReport, breakReport]
  have hreport := hreport obtained_breakReport exactTimes_breakReport
  -- both sums are whole, and exact as such
  have hsum : sum ([breakReport, breakReport].map estimatedTime) = 1 := by
    change sum [breakReport.estimatedTime, breakReport.estimatedTime] = 1
    rw [estimatedTime_breakReport]
    decide +kernel
  have hbatch := hbatch (by decide) (by simpa using ⟨obtained_breakReport, exactTimes_breakReport⟩)
  have hvalidation : IsExact (sum ([breakReport, breakReport].map validationTime)) := by
    change Yaml.Numeral.real (Yaml.real (sum [0, 0])) = .ok (sum [0, 0])
    decide +kernel
  have hestimated : IsExact (sum ([breakReport, breakReport].map estimatedTime)) := by
    rw [hsum]
    change Yaml.Numeral.real (Yaml.real 1) = .ok 1
    decide +kernel
  have hdocument := hbatch hvalidation hestimated
  rw [if_pos (.inl (by decide))] at hdocument
  exact ⟨hreport, hdocument⟩

/-- What is observed stands in the payload. -/
private theorem observed_mem_innerTexts {d : Datum} (h : r.payload = .ok d) {o : Outcome}
    (ho : o ∈ r.results) : o.observed ∈ d.innerTexts := by
  have hall : ∀ os : List Outcome, o ∈ os → o.observed ∈ textsOfAll (os.map Outcome.payload) := by
    intro os hos
    -- on the outcomes: the text is that of the head, or further behind
    induction os with
    | nil => cases hos
    | cons o' os ih =>
      rw [List.map_cons, textsOfAll, List.mem_append]
      rcases List.mem_cons.mp hos with rfl | hos
      · exact .inl (.tail _ (.tail _ (.head _)))
      · exact .inr (ih hos)
  rw [payload] at h
  cases hclose : accuracy r.validationTime r.estimatedTime with
  | error e => rw [hclose] at h; cases h
  | ok close =>
    rw [hclose] at h
    obtain rfl := Except.ok.inj h
    have hresults := hall r.results ho
    simp [fields, innerTexts, textsOfEntries, hresults]

/-- **The document of the report loses a text**: the schema identifier comes back with another line
break. -/
theorem read_dump_breakReport_ne :
    breakReport.Obtained ∧ breakReport.ExactTimes ∧ ∃ d document, breakReport.payload = .ok d ∧
      dump "yaml" breakReport = .ok document ∧ Yaml.read document ≠ .ok (d.reread id) := by
  obtain ⟨d, hd, document, hdocument, -, hiff⟩ :=
    comesBack_dump obtained_breakReport.sound exactTimes_breakReport
  refine ⟨obtained_breakReport, exactTimes_breakReport, d, document, hd, hdocument, fun h => ?_⟩
  have hlost : ∃ o ∈ breakReport.results, Yaml.Style.of o.observed = .single ∧
      Yaml.Scalar.nextLine ∈ o.observed := by
    decide +kernel
  obtain ⟨o, ho, hbad⟩ := hlost
  exact hiff.mp h _ (observed_mem_innerTexts hd ho) hbad

end Report

end StepCheck
