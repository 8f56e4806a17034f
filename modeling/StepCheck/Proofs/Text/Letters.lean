import StepCheck.Proofs.Text.Returns
import StepCheck.Text.Upper
import StepCheck.Text.Fold

/-!
# Letters and control characters

Capitals and folded letters are read off tables, and whatever the tables say, a control character is
neither the capital of another character nor alike to one. So a text in capitals has its line breaks
where the text has them, and a beginning without line breaks is not found at one.

* `CodePoint.IsControl` — the control characters below the blank;
* `CodePoint.notMem_upper`, `CodePoint.fold_eq_fold_iff` — nothing becomes one of them;
* `Text.upper_withReturns`, `Text.lines_upper` — line breaks in capitals;
* `Text.afterFolded?_eq_some_iff`, `Text.afterFolded?_withReturns` — beginnings in any letters.
-/

namespace StepCheck

namespace CodePoint

variable {b c : CodePoint}

/-- **A control character** below the blank. -/
def IsControl (c : CodePoint) : Prop := c.val < 0x20

instance (c : CodePoint) : Decidable c.IsControl := inferInstanceAs (Decidable (c.val < 0x20))

theorem isControl_lineFeed : lineFeed.IsControl := by decide

theorem isControl_carriageReturn : carriageReturn.IsControl := by decide

/-- The code point of a greater number is none. -/
theorem ne_ofNat {n : Nat} (hb : b.IsControl) (hn : 0x20 ≤ n) : b ≠ ofNat n := by
  unfold IsControl at hb
  rintro rfl
  unfold ofNat at hb
  split at hb
  · exact absurd hb (Nat.not_lt_of_le hn)
  · exact absurd hb (by decide)

/-- The distance that a table of runs gives comes from one of them. -/
theorem exists_has_of_shiftOf? {n : Nat} {shift : Int} {runs : List CaseRun}
    (h : CaseRun.shiftOf? n runs = some shift) :
    ∃ run ∈ runs, run.has n = true ∧ run.shift = shift := by
  induction runs with
  | nil => cases h
  | cons run runs ih =>
    unfold CaseRun.shiftOf? at h
    split at h
    · next hrun => exact ⟨run, List.mem_cons_self, hrun, Option.some.inj h⟩
    · obtain ⟨run', hmem, hrun'⟩ := ih h
      exact ⟨run', List.mem_cons_of_mem _ hmem, hrun'⟩

/-- The shift of a number is that of its run. -/
theorem exists_of_shiftOf? {n : Nat} {shift : Int} {runs : List CaseRun}
    (h : CaseRun.shiftOf? n runs = some shift) :
    ∃ run ∈ runs, run.first ≤ n ∧ n ≤ run.last ∧ run.shift = shift := by
  obtain ⟨run, hmem, hrun, hshift⟩ := exists_has_of_shiftOf? h
  unfold CaseRun.has at hrun
  rw [Bool.and_eq_true, Bool.and_eq_true, decide_eq_true_iff, decide_eq_true_iff] at hrun
  exact ⟨run, hmem, hrun.1.1, hrun.1.2, hshift⟩

/-- No run of a table leads to a control character if its first member does not. -/
theorem ne_ofNat_of_shiftOf? {n : Nat} {shift : Int} {runs : List CaseRun} (hb : b.IsControl)
    (hruns : ∀ run ∈ runs, 0x20 ≤ run.first + run.shift)
    (h : CaseRun.shiftOf? n runs = some shift) : b ≠ ofNat (n + shift).toNat := by
  obtain ⟨run, hmem, hfirst, -, rfl⟩ := exists_of_shiftOf? h
  have hrun := hruns run hmem
  refine ne_ofNat hb ?_
  omega

/-- **A control character is no capital** of another character. -/
theorem notMem_upper (hb : b.IsControl) (hne : b ≠ c) : b ∉ c.upper := by
  have hruns : ∀ run ∈ upperRuns, 0x20 ≤ run.first + run.shift := by decide +kernel
  have hexpansions : ∀ p ∈ upperExpansions, ∀ n ∈ p.2, 0x20 ≤ n := by decide +kernel
  unfold upper
  split
  · next hsmall =>
    -- capitals lie among the letters, behind the control characters
    rw [isSmall_iff] at hsmall
    rw [List.mem_singleton]
    exact ne_ofNat hb (by omega)
  · split
    · rwa [List.mem_singleton]
    · unfold upperBeyondAscii
      split
      · next capitals hcapitals =>
        -- the capital consists of several characters
        rw [List.mem_map]
        rintro ⟨n, hn, heq⟩
        exact ne_ofNat hb (hexpansions _ (mem_of_lookup_eq_some hcapitals) n hn) heq.symm
      · split
        · next shift hshift =>
          rw [List.mem_singleton]
          exact ne_ofNat_of_shiftOf? hb hruns hshift
        · rwa [List.mem_singleton]

/-- **A control character is alike** to no other character. -/
theorem fold_eq_iff (hb : b.IsControl) : c.fold = b ↔ c = b := by
  -- no run of letters is shifted to a control character
  have hruns : ∀ run ∈ foldRuns, 0x20 ≤ run.first + run.shift := by decide +kernel
  constructor
  · intro h
    unfold fold at h
    split at h
    · exact absurd h.symm (ne_ofNat hb (Nat.le_add_left _ _))
    · split at h
      · exact h
      · split at h
        · next shift hshift => exact absurd h.symm (ne_ofNat_of_shiftOf? hb hruns hshift)
        · exact h
  · rintro rfl
    unfold IsControl at hb
    unfold fold isCapital
    rw [if_neg, if_pos (by omega)]
    rw [Bool.and_eq_true, decide_eq_true_iff]
    omega

/-- A control character is alike to itself only. -/
theorem fold_eq_fold_iff (hb : b.IsControl) : c.fold = b.fold ↔ c = b := by
  rw [(fold_eq_iff hb).mpr (rfl : b = b), fold_eq_iff hb]

end CodePoint

namespace Text

variable {s t : Text}

/-! ### Capitals -/

/-- Capitals bring no control character in. -/
theorem notMem_upper {b : CodePoint} (hb : b.IsControl) (h : b ∉ t) : b ∉ t.upper := by
  unfold upper
  rw [List.mem_flatMap]
  rintro ⟨c, hc, hmem⟩
  refine CodePoint.notMem_upper hb ?_ hmem
  rintro rfl
  exact h hc

/-- A text without line breaks has none in capitals. -/
theorem Unbroken.upper (h : t.Unbroken) : t.upper.Unbroken := by
  have hnot : ∀ b : CodePoint, b.IsControl → b ∉ t → ∀ c ∈ t.upper, c ≠ b := by
    rintro b hb hmem c hc rfl
    exact notMem_upper hb hmem hc
  intro c hc
  exact ⟨hnot _ CodePoint.isControl_carriageReturn (fun hmem => (h _ hmem).1 rfl) c hc,
    hnot _ CodePoint.isControl_lineFeed h.lineFeed_notMem c hc⟩

/-- **The returns are added** to the text in capitals where they are added to the text. -/
theorem upper_withReturns (t : Text) : (withReturns t).upper = withReturns t.upper := by
  induction t with
  | nil => rfl
  | cons c t ih =>
    by_cases hc : c = CodePoint.lineFeed
    · subst hc
      rw [withReturns_cons_lineFeed, upper_cons, upper_cons, upper_cons, ih, withReturns_append]
      rfl
    · -- the capital of another character holds no line feed, and gets no return
      rw [withReturns_cons hc, upper_cons, upper_cons, ih, withReturns_append,
        withReturns_eq_self (CodePoint.notMem_upper CodePoint.isControl_lineFeed (Ne.symm hc))]

/-- A part without line feeds belongs to the first line of what follows. -/
theorem lines_append_of_notMem {l : Text} {ls : List Text} (hs : CodePoint.lineFeed ∉ s)
    (ht : t.lines = l :: ls) : (s ++ t).lines = (s ++ l) :: ls := by
  induction s with
  | nil => exact ht
  | cons c s ih =>
    rw [List.mem_cons, not_or] at hs
    obtain ⟨l', ls', hlines, hcons⟩ := lines_cons_of_ne (Ne.symm hs.1) (s ++ t)
    rw [ih hs.2] at hlines
    cases hlines
    exact hcons

/-- **The lines in capitals** are the lines of the text in capitals. -/
theorem lines_upper (t : Text) : t.upper.lines = t.lines.map upper := by
  induction t with
  | nil => rfl
  | cons c t ih =>
    by_cases hc : c = CodePoint.lineFeed
    · subst hc
      have hupper : upper (CodePoint.lineFeed :: t) = CodePoint.lineFeed :: upper t := rfl
      rw [hupper, lines_cons_lineFeed, lines_cons_lineFeed, ih, List.map_cons, upper_nil]
    · obtain ⟨l, ls, hlines, hcons⟩ := lines_cons_of_ne hc t
      rw [hlines, List.map_cons] at ih
      rw [upper_cons, hcons, List.map_cons, upper_cons]
      exact lines_append_of_notMem
        (CodePoint.notMem_upper CodePoint.isControl_lineFeed (Ne.symm hc)) ih

/-- A line that holds a needle in capitals is a line of the text in capitals that holds it. -/
theorem firstLine?_upper (needle t : Text) :
    firstLine? (fun l => needle.occursIn l.upper) t.lines
      = firstLine? needle.occursIn t.upper.lines := by
  rw [lines_upper, firstLine?, firstLine?, List.findIdx?_map]
  rfl

/-! ### Beginnings in any letters -/

/-- **Texts that differ in case only** are of one length. -/
theorem length_eq_of_fold_eq (h : s.fold = t.fold) : s.length = t.length := by
  have hlength := congrArg List.length h
  rwa [fold, fold, List.length_map, List.length_map] at hlength

/-- **A beginning in any letters** and what stands behind it. -/
theorem afterFolded?_eq_some_iff {rest : Text} :
    afterFolded? s t = some rest ↔ ∃ front, t = front ++ rest ∧ front.fold = s.fold := by
  -- on what is looked for, character by character
  induction s generalizing t with
  | nil =>
    rw [afterFolded?_nil, Option.some.injEq]
    constructor
    · rintro rfl
      exact ⟨[], rfl, rfl⟩
    · rintro ⟨front, rfl, hfront⟩
      rw [List.map_eq_nil_iff.mp hfront, List.nil_append]
  | cons b s ih =>
    cases t with
    | nil =>
      refine iff_of_false nofun ?_
      rintro ⟨front, hnil, hfront⟩
      rw [(List.append_eq_nil_iff.mp hnil.symm).1] at hfront
      cases hfront
    | cons c t =>
      unfold afterFolded?
      constructor
      · intro h
        split at h
        · next hc =>
          obtain ⟨front, rfl, hfront⟩ := ih.mp h
          exact ⟨c :: front, rfl, congrArg₂ List.cons hc.symm hfront⟩
        · cases h
      · rintro ⟨front, ht, hfront⟩
        cases front with
        | nil => cases hfront
        | cons d front =>
          obtain ⟨rfl, rfl⟩ := List.cons.inj ht
          obtain ⟨hc, hfront⟩ := List.cons.inj hfront
          rw [if_pos hc.symm]
          exact ih.mpr ⟨front, rfl, hfront⟩

/-- What is recognised at the front holds no line breaks. -/
theorem exists_of_afterFolded? {rest : Text} (hs : s.Unbroken)
    (h : afterFolded? s t = some rest) :
    ∃ front, t = front ++ rest ∧ front.length = s.length ∧ CodePoint.lineFeed ∉ front := by
  obtain ⟨front, rfl, hfront⟩ := afterFolded?_eq_some_iff.mp h
  refine ⟨front, rfl, length_eq_of_fold_eq hfront, ?_⟩
  intro hmem
  -- otherwise some character of the beginning is alike to a line feed
  have hfold : CodePoint.lineFeed.fold ∈ s.fold := hfront ▸ List.mem_map_of_mem hmem
  obtain ⟨b, hb, hbfold⟩ := List.mem_map.mp hfold
  exact (hs b hb).2 ((CodePoint.fold_eq_fold_iff CodePoint.isControl_lineFeed).mp hbfold)

/-- **A beginning in any letters** is found just when it was, with what followed behind it. -/
theorem afterFolded?_withReturns (hs : s.Unbroken) (t : Text) :
    afterFolded? s (withReturns t) = (afterFolded? s t).map withReturns := by
  induction s generalizing t with
  | nil => rw [afterFolded?_nil, afterFolded?_nil, Option.map_some]
  | cons b s ih =>
    obtain ⟨hb, hs⟩ := List.forall_mem_cons.mp hs
    cases t with
    | nil => rfl
    | cons c t =>
      by_cases hc : c = CodePoint.lineFeed
      · -- a line break is alike to no letter
        subst hc
        rw [withReturns_cons_lineFeed, afterFolded?, afterFolded?,
          if_neg (mt (CodePoint.fold_eq_fold_iff CodePoint.isControl_carriageReturn).mp hb.1),
          if_neg (mt (CodePoint.fold_eq_fold_iff CodePoint.isControl_lineFeed).mp hb.2)]
        rfl
      · rw [withReturns_cons hc, afterFolded?, afterFolded?, ih hs]
        split
        · rfl
        · rfl

end Text

end StepCheck
