import StepCheck.Proofs.Check.Verdict
import StepCheck.Proofs.Report.Display
import StepCheck.Proofs.Report.Export

/-!
# The counts of reports and batches

Outcomes are counted when a report is made of them, and nothing counts them again: a batch adds up
what its reports tell. This module follows the numbers from the outcomes to the batch. What a batch
tells is what a count over all results of all its reports would give, and so the numbers of two
batches add up to those of both together.

* `Report.Tallies` — what a report tells of its results;
* `Report.exists_batchPayload_iff` — which lists of reports have a payload;
* `Datum.TellsBatch` — what such a payload tells of the results of all reports;
* `Datum.TellsBatch.told_append` — the numbers of two batches add up;
* `Report.counts_add_up` — all of it, for whatever is made of outcomes.
-/

namespace StepCheck

open Datum

/-! ### One report -/

namespace Outcome

/-- **The outcomes of a severity.** -/
def having (s : Severity) (os : List Outcome) : List Outcome := os.filter fun o => o.severity = s

theorem countOf_eq (s : Severity) (os : List Outcome) : countOf s os = (having s os).length :=
  List.countP_eq_length_filter

/-- What two lists have of a severity is added up. -/
theorem length_having_append (s : Severity) (os os' : List Outcome) :
    (having s (os ++ os')).length = (having s os).length + (having s os').length := by
  rw [having, List.filter_append, List.length_append]
  rfl

/-- Every outcome has one of the four severities. -/
theorem sum_countOf (os : List Outcome) :
    countOf .error os + countOf .warning os + countOf .passed os + countOf .notApplicable os
      = os.length := by
  induction os with
  | nil => rfl
  | cons o os ih =>
    simp only [countOf, List.countP_cons] at ih ⊢
    rw [List.length_cons, ← ih]
    cases o.severity <;> simp <;> omega

end Outcome

/-- **The number for a severity** in a summary. -/
def Summary.numberOf (s : Summary) : Severity → Int
  | .error => s.errors
  | .warning => s.warnings
  | .passed => s.passed
  | .notApplicable => s.notApplicable

/-- The summary tells how many outcomes there are of each severity. -/
theorem Summary.numberOf_of (os : List Outcome) (s : Severity) :
    (Summary.of os).numberOf s = (Outcome.having s os).length := by
  rw [← Outcome.countOf_eq]
  cases s <;> rfl

namespace Report

/-- **What a report tells of its results.** -/
structure Tallies (r : Report) : Prop where
  /-- The numbers of results of each severity, -/
  numberOf : ∀ s, r.summary.numberOf s = (Outcome.having s r.results).length
  /-- and of all results, -/
  total : r.summary.total = r.results.length
  /-- which is their sum. -/
  sum : r.summary.errors + r.summary.warnings + r.summary.passed + r.summary.notApplicable
    = r.summary.total
  /-- The file is valid just if no result is an error. -/
  isValid : r.isValid = true ↔ ∀ o ∈ r.results, o.severity ≠ .error

/-- **A report tells of its own outcomes**, and of no others. -/
theorem tallies_of (filename : Text) (validationTime estimatedTime : Float) (os : List Outcome) :
    (of filename validationTime estimatedTime os).Tallies where
  numberOf := Summary.numberOf_of os
  total := rfl
  sum := by
    change ((Outcome.countOf .error os : Int) + Outcome.countOf .warning os
      + Outcome.countOf .passed os + Outcome.countOf .notApplicable os) = os.length
    exact_mod_cast Outcome.sum_countOf os
  isValid := isValid_of_iff filename validationTime estimatedTime os

/-- **Reports that are made of outcomes.** -/
def Aggregated (r : Report) : Prop :=
  ∃ filename os validationTime estimatedTime,
    aggregate filename os validationTime estimatedTime = .ok r

/-- Such a report is built outright, and neither of its times is negative. -/
theorem Aggregated.exists_of {r : Report} (h : r.Aggregated) :
    ∃ filename validationTime estimatedTime os, 0 ≤ validationTime ∧ 0 ≤ estimatedTime ∧
      r = of filename validationTime estimatedTime os := by
  obtain ⟨filename, os, validationTime, estimatedTime, h⟩ := h
  -- a negative time would have been refused
  have hreal : ∀ {x y : Float}, Intake.nonNegative (.real x) = .ok y → 0 ≤ x := by
    intro x y hxy
    by_contra hneg
    change (if 0 ≤ x then Except.ok x else _) = _ at hxy
    rw [if_neg hneg] at hxy
    cases hxy
  obtain ⟨p, hp, -⟩ := Except.bind_eq_ok h
  obtain ⟨-, htimes⟩ := Intake.both_eq_ok hp
  obtain ⟨hvalidation, hestimated⟩ := Intake.both_eq_ok htimes
  have hvalidation := hreal (Intake.under_eq_ok hvalidation)
  have hestimated := hreal (Intake.under_eq_ok hestimated)
  refine ⟨filename, validationTime, estimatedTime, os, hvalidation, hestimated, ?_⟩
  exact Except.ok.inj (h.symm.trans (assemble_eq_ok os hvalidation hestimated))

/-- All reports that are aggregated tell the counts of their results. -/
theorem Aggregated.tallies {r : Report} (h : r.Aggregated) : r.Tallies := by
  obtain ⟨filename, validationTime, estimatedTime, os, -, -, rfl⟩ := h.exists_of
  exact tallies_of filename validationTime estimatedTime os

/-- Their times are not negative. -/
theorem Aggregated.zero_le {r : Report} (h : r.Aggregated) :
    0 ≤ r.validationTime ∧ 0 ≤ r.estimatedTime := by
  obtain ⟨filename, validationTime, estimatedTime, os, hvalidation, hestimated, rfl⟩ := h.exists_of
  exact ⟨hvalidation, hestimated⟩

/-! ### Sums over reports -/

variable {rs rs' : List Report} {d d' : Datum}

/-- **All results** of a list of reports. -/
def allResults (rs : List Report) : List Outcome := rs.flatMap Report.results

/-- **A sum of numbers of results** is the number among all of them. -/
theorem count_numberOf (h : ∀ r ∈ rs, r.Tallies) (s : Severity) :
    count (rs.map fun r => r.summary.numberOf s) = (Outcome.having s (allResults rs)).length := by
  rw [count, ← List.sum_eq_foldl]
  induction rs with
  | nil => rfl
  | cons r rs ih =>
    obtain ⟨hr, hrs⟩ := List.forall_mem_cons.mp h
    have hresults : allResults (r :: rs) = r.results ++ allResults rs := List.flatMap_cons
    rw [List.map_cons, List.sum_cons, hr.numberOf, ih hrs, hresults,
      Outcome.length_having_append, Nat.cast_add]

/-- **The reports without an error** among their results. -/
def errorFree (rs : List Report) : List Report :=
  rs.filter fun r => r.results.all fun o => o.severity ≠ .error

/-- As many reports are valid as have no errors. -/
theorem countP_isValid (h : ∀ r ∈ rs, r.Tallies) :
    rs.countP Report.isValid = (errorFree rs).length := by
  rw [errorFree, ← List.countP_eq_length_filter]
  refine List.countP_congr fun r hr => ?_
  rw [(h r hr).isValid, List.all_eq_true]
  simp only [decide_eq_true_eq]

/-- **A sum is finite** only if everything in it is, where nothing is negative. -/
theorem isFinite_of_isFinite_foldl {xs : List Float} {a : Float} (h : ∀ x ∈ xs, 0 ≤ x) (ha : 0 ≤ a)
    (hsum : Binary64.isFinite (xs.foldl (· + ·) a) = true) :
    Binary64.isFinite a = true ∧ ∀ x ∈ xs, Binary64.isFinite x = true := by
  induction xs generalizing a with
  | nil => exact ⟨hsum, nofun⟩
  | cons x xs ih =>
    obtain ⟨hx, hxs⟩ := List.forall_mem_cons.mp h
    obtain ⟨hadd, hrest⟩ := ih hxs (Binary64.zero_le_add ha hx) hsum
    obtain ⟨ha', hx'⟩ := Binary64.isFinite_of_isFinite_add ha hx hadd
    exact ⟨ha', List.forall_mem_cons.mpr ⟨hx', hrest⟩⟩

/-! ### Batches -/

/-- **The payload of a batch** is made of a percentage and of the payloads of the reports. -/
theorem batchPayload_eq_ok (h : batchPayload rs = .ok d) : ∃ close ds,
    rs.mapM payload = .ok ds ∧
      d = fields [("summary", fields (summaryFieldsWith close rs)), ("reports", .list ds)] := by
  obtain ⟨summary, hsummary, h⟩ := Except.bind_eq_ok h
  obtain ⟨close, -, hsummary⟩ := Except.bind_eq_ok hsummary
  obtain ⟨ds, hds, h⟩ := Except.bind_eq_ok h
  cases hsummary
  cases h
  exact ⟨close, ds, hds, rfl⟩

/-- **The time of a batch is known** if not both of its times are infinite altogether. -/
def HasFiniteTime (rs : List Report) : Prop :=
  Binary64.isFinite (sum (rs.map validationTime)) = true ∨
    Binary64.isFinite (sum (rs.map estimatedTime)) = true

/-- **There is a payload** just if that is so, for there is no percentage of two infinite times. -/
theorem exists_batchPayload_iff (h : ∀ r ∈ rs, r.Aggregated) :
    (∃ d, batchPayload rs = .ok d) ↔ HasFiniteTime rs := by
  have hvalidation : ∀ x ∈ rs.map validationTime, 0 ≤ x :=
    List.forall_mem_map.mpr fun r hr => (h r hr).zero_le.1
  have hestimated : ∀ x ∈ rs.map estimatedTime, 0 ≤ x :=
    List.forall_mem_map.mpr fun r hr => (h r hr).zero_le.2
  constructor
  · rintro ⟨d, hd⟩
    by_contra hnot
    -- both sums are the positive infinity, and their quotient is no number
    rw [HasFiniteTime, not_or, Bool.not_eq_true, Bool.not_eq_true] at hnot
    have hclose : accuracy (sum (rs.map validationTime)) (sum (rs.map estimatedTime))
        = .error .notANumber := by
      rw [Binary64.eq_infinity (zero_le_sum hvalidation) hnot.1,
        Binary64.eq_infinity (zero_le_sum hestimated) hnot.2]
      exact accuracy_infinity
    rw [batchPayload, batchSummary, hclose] at hd
    cases hd
  · intro hfinite
    obtain ⟨close, hclose, -⟩ :=
      exists_accuracy (zero_le_sum hvalidation) (zero_le_sum hestimated) hfinite
    -- each report has a finite time where all of them together have one
    have hreport : ∀ r ∈ rs, Binary64.isFinite r.validationTime = true ∨
        Binary64.isFinite r.estimatedTime = true := by
      intro r hr
      rcases hfinite with hsum | hsum
      · exact .inl ((isFinite_of_isFinite_foldl hvalidation (by decide) hsum).2 _
          (List.mem_map_of_mem hr))
      · exact .inr ((isFinite_of_isFinite_foldl hestimated (by decide) hsum).2 _
          (List.mem_map_of_mem hr))
    have hpayload : ∀ r ∈ rs, ∃ d, r.payload = .ok d ∧ True := by
      intro r hr
      obtain ⟨close, hclose, -⟩ := exists_accuracy (h r hr).zero_le.1 (h r hr).zero_le.2
        (hreport r hr)
      exact ⟨_, payload_eq hclose, trivial⟩
    obtain ⟨ds, hds, -⟩ := Except.exists_mapM hpayload
    refine ⟨fields [("summary", fields (summaryFieldsWith close rs)), ("reports", .list ds)], ?_⟩
    rw [batchPayload, batchSummary, hclose, hds]
    rfl

end Report

namespace Datum

open Report

/-- **The number that a batch tells** under a name. -/
def told? (name : String) (d : Datum) : Option Int :=
  match (d.field? "summary").bind (field? name) with
  | some (.int i) => some i
  | _ => none

/-- **What the datum of a batch tells** of the results of its reports. -/
structure TellsBatch (d : Datum) (rs : List Report) : Prop where
  files : d.told? "files" = some (rs.length : Int)
  validFiles : d.told? "valid_files" = some ((errorFree rs).length : Int)
  errors : d.told? "errors" = some ((Outcome.having .error (allResults rs)).length : Int)
  warnings : d.told? "warnings" = some ((Outcome.having .warning (allResults rs)).length : Int)
  /-- The reports stand in it in their order. -/
  reports : ∃ ds, d.field? "reports" = some (.list ds) ∧
    List.Forall₂ (fun r d => r.payload = .ok d) rs ds

/-- The names under which a batch tells counts. -/
def countNames : List String := ["files", "valid_files", "errors", "warnings"]

/-- **The counts of two batches add up** to those of both together. -/
theorem TellsBatch.told_append {rs rs' : List Report} {d d' both : Datum} (h : d.TellsBatch rs)
    (h' : d'.TellsBatch rs') (hboth : both.TellsBatch (rs ++ rs')) {name : String}
    (hname : name ∈ countNames) :
    ∃ m n, d.told? name = some m ∧ d'.told? name = some n ∧ both.told? name = some (m + n) := by
  have hresults : allResults (rs ++ rs') = allResults rs ++ allResults rs' := List.flatMap_append
  have herrorFree : errorFree (rs ++ rs') = errorFree rs ++ errorFree rs' := List.filter_append ..
  simp only [countNames, List.mem_cons, List.not_mem_nil, or_false] at hname
  rcases hname with rfl | rfl | rfl | rfl
  · refine ⟨_, _, h.files, h'.files, ?_⟩
    rw [hboth.files, List.length_append, Nat.cast_add]
  · refine ⟨_, _, h.validFiles, h'.validFiles, ?_⟩
    rw [hboth.validFiles, herrorFree, List.length_append, Nat.cast_add]
  · refine ⟨_, _, h.errors, h'.errors, ?_⟩
    rw [hboth.errors, hresults, Outcome.length_having_append, Nat.cast_add]
  · refine ⟨_, _, h.warnings, h'.warnings, ?_⟩
    rw [hboth.warnings, hresults, Outcome.length_having_append, Nat.cast_add]

end Datum

namespace Report

variable {rs : List Report} {d : Datum}

/-- **The payload of a batch** tells what a count over all results gives. -/
theorem tellsBatch_of_batchPayload (hrs : ∀ r ∈ rs, r.Aggregated) (h : batchPayload rs = .ok d) :
    d.TellsBatch rs := by
  have htallies : ∀ r ∈ rs, r.Tallies := fun r hr => (hrs r hr).tallies
  obtain ⟨close, ds, hds, rfl⟩ := batchPayload_eq_ok h
  exact {
    files := rfl
    validFiles := congrArg (fun n : Nat => some (n : Int)) (countP_isValid htallies)
    errors := congrArg some (count_numberOf htallies .error)
    warnings := congrArg some (count_numberOf htallies .warning)
    reports := ⟨ds, rfl, Except.mapM_eq_ok_iff.mp hds⟩ }

/-- **Counts add up from outcomes to batches.** A report is made of any outcomes, has them for its
results, and tells how many of them are of which severity and whether one is an error. A list of
such reports has a payload unless its times are infinite altogether, both the actual and the
estimated one; what the payload tells is what a count over all results of all reports gives. So the
counts of two batches add up to those of both together. -/
theorem counts_add_up :
    (∀ (filename : Text) (os : List Outcome) (validationTime estimatedTime : Float),
      0 ≤ validationTime → 0 ≤ estimatedTime →
        ∃ r, aggregate filename os validationTime estimatedTime = .ok r ∧ r.results = os ∧
          r.Tallies) ∧
    (∀ rs : List Report, (∀ r ∈ rs, r.Aggregated) →
      ((∃ d, batchPayload rs = .ok d) ↔ HasFiniteTime rs) ∧
        ∀ d, batchPayload rs = .ok d → d.TellsBatch rs) ∧
    ∀ (rs rs' : List Report) (d d' both : Datum), (∀ r ∈ rs ++ rs', r.Aggregated) →
      batchPayload rs = .ok d → batchPayload rs' = .ok d' → batchPayload (rs ++ rs') = .ok both →
        ∀ name ∈ Datum.countNames, ∃ m n, d.told? name = some m ∧ d'.told? name = some n ∧
          both.told? name = some (m + n) := by
  refine ⟨?_, ?_, ?_⟩
  · intro filename os validationTime estimatedTime hvalidation hestimated
    exact ⟨_, assemble_eq_ok os hvalidation hestimated, rfl, tallies_of ..⟩
  · intro rs hrs
    exact ⟨exists_batchPayload_iff hrs, fun d => tellsBatch_of_batchPayload hrs⟩
  · intro rs rs' d d' both hrs hd hd' hboth name hname
    have hfirst : ∀ r ∈ rs, r.Aggregated := fun r hr => hrs r (List.mem_append_left _ hr)
    have hsecond : ∀ r ∈ rs', r.Aggregated := fun r hr => hrs r (List.mem_append_right _ hr)
    exact (tellsBatch_of_batchPayload hfirst hd).told_append
      (tellsBatch_of_batchPayload hsecond hd') (tellsBatch_of_batchPayload hrs hboth) hname

/-- A report of an error and a warning. -/
def spoiltReport : Report :=
  .of "a.ifc" 1 2 [⟨.error, .syntaxError, "", none, none, none⟩,
    ⟨.warning, .syntaxError, "", none, none, none⟩]

/-- A report of one passed check. -/
def soundReport : Report := .of "b.ifc" 3 1 [⟨.passed, .passed, "", none, none, none⟩]

/-- Of the two files together one is valid, and there is one error. -/
theorem counts_add_up_spoiltReport : ∃ d d' both,
    batchPayload [spoiltReport] = .ok d ∧ batchPayload [soundReport] = .ok d' ∧
      batchPayload ([spoiltReport] ++ [soundReport]) = .ok both ∧
      both.TellsBatch [spoiltReport, soundReport] ∧ both.told? "valid_files" = some 1 ∧
      ∃ m n, d.told? "errors" = some m ∧ d'.told? "errors" = some n ∧
        both.told? "errors" = some (m + n) ∧ m + n = 1 := by
  have hspoilt : spoiltReport.Aggregated :=
    ⟨_, _, _, _, assemble_eq_ok _ (by decide) (by decide)⟩
  have hsound : soundReport.Aggregated := ⟨_, _, _, _, assemble_eq_ok _ (by decide) (by decide)⟩
  have hfirst : ∀ r ∈ [spoiltReport], r.Aggregated := List.forall_mem_singleton.mpr hspoilt
  have hsecond : ∀ r ∈ [soundReport], r.Aggregated := List.forall_mem_singleton.mpr hsound
  have hall : ∀ r ∈ [spoiltReport] ++ [soundReport], r.Aggregated :=
    List.forall_mem_cons.mpr ⟨hspoilt, hsecond⟩
  -- both batches and the two together have a finite time
  obtain ⟨-, htells, hadd⟩ := counts_add_up
  obtain ⟨d, hd⟩ := (htells _ hfirst).1.mpr (.inl (by decide +kernel))
  obtain ⟨d', hd'⟩ := (htells _ hsecond).1.mpr (.inl (by decide +kernel))
  obtain ⟨both, hboth⟩ := (htells _ hall).1.mpr (.inl (by decide +kernel))
  have hbothTells := (htells _ hall).2 both hboth
  obtain ⟨m, n, hm, hn, hsum⟩ := hadd _ _ d d' both hall hd hd' hboth "errors" (by decide)
  have htotal : m + n = 1 := Option.some.inj (hsum.symm.trans hbothTells.errors)
  exact ⟨d, d', both, hd, hd', hboth, hbothTells, hbothTells.validFiles, m, n, hm, hn, hsum, htotal⟩

end Report

end StepCheck
