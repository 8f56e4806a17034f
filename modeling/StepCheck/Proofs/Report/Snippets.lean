import Mathlib.Data.List.Sort
import StepCheck.Proofs.Text.Lines
import StepCheck.Report.Snippet

/-!
# The snippets of a list of outcomes

Snippets are cut out for the lines that outcomes name, whatever these are: an outcome may name no
line, line 0, a negative one, or one behind the end of the content, and a window may be as wide or
as narrow as it likes, or end before it begins. Still every outcome that is kept is shown once, in
its place, and every line of the content that is in a window is shown as it stands there.

* `Snippet.Kept` — the outcomes that are shown;
* `Snippet.ShowsAround` — the lines of a content around a line;
* `Snippet.ShowsAll` — what the snippets of a list of outcomes are;
* `Snippet.pairwise_linesNamed` — the lines that are named, in order and each once;
* `Snippet.shows_linesAround` — the lines of a snippet;
* `Snippet.perm_flatMap_filter` — nothing is lost and nothing is shown twice;
* `Snippet.mem_extract_iff` — which snippets there are;
* `Snippet.showsAll_extract` — all of it, for every content and every list of outcomes.
-/

namespace StepCheck.Snippet

open scoped List

variable {content t : Text} {os : List Outcome} {window : Window} {includePassed : Bool}
  {line : Int} {o : Outcome}

/-! ### What snippets should show -/

/-- **An outcome is kept**: it names a line, and it has not passed unless those are asked for. -/
def Kept (includePassed : Bool) (o : Outcome) : Prop :=
  o.line ≠ none ∧ (o.severity = .passed → includePassed = true)

instance (includePassed : Bool) (o : Outcome) : Decidable (Kept includePassed o) :=
  inferInstanceAs (Decidable (_ ∧ _))

/-- **The lines of a content around a line**, which may be none of its own. -/
structure ShowsAround (content : Text) (window : Window) (line : Int) (shown : List SnippetLine) :
    Prop where
  increasing : (shown.map SnippetLine.number).Pairwise (· < ·)
  /-- Those are shown that are in the window and in the content. -/
  mem_iff : ∀ n, n ∈ shown.map SnippetLine.number ↔
    max 1 (line - window.before) ≤ n ∧ n ≤ min (content.lineCount : Int) (line + window.after)
  /-- They are shown as they are written, without the carriage returns at their end. -/
  written : ∀ l ∈ shown, ∃ (number k : Nat), l.number = number ∧
    content.IsLine number (l.text ++ List.replicate k (CodePoint.ofChar '\r')) ∧
    ¬ [CodePoint.ofChar '\r'] <:+ l.text
  flagged_iff : ∀ l ∈ shown, l.flagged = true ↔ l.number = line

/-- **The snippets of a list of outcomes.** -/
structure ShowsAll (content : Text) (os : List Outcome) (window : Window) (includePassed : Bool)
    (snippets : List Snippet) : Prop where
  increasing : (snippets.map Snippet.line).Pairwise (· < ·)
  /-- There is a snippet for each line that is named by an outcome that is kept. -/
  mem_line_iff : ∀ line, line ∈ snippets.map Snippet.line ↔
    ∃ o ∈ os, Kept includePassed o ∧ o.line = some line
  /-- A snippet carries the outcomes about its line, in their order. -/
  outcomes_eq : ∀ s ∈ snippets,
    s.outcomes = os.filter fun o => Kept includePassed o ∧ o.line = some s.line
  /-- Every outcome that is kept is carried by one snippet only, -/
  exactly_one : ∀ o ∈ os, Kept includePassed o → ∃! s, s ∈ snippets ∧ o ∈ s.outcomes
  /-- and as often as it is given. -/
  perm : snippets.flatMap Snippet.outcomes ~ os.filter fun o => Kept includePassed o
  /-- The severity of a snippet is the worst of its outcomes. -/
  worst : ∀ s ∈ snippets, (∃ o ∈ s.outcomes, o.severity = s.severity) ∧
    ∀ o ∈ s.outcomes, o.severity.rank ≤ s.severity.rank
  shows : ∀ s ∈ snippets, ShowsAround content window s.line s.lines

/-! ### The lines that are named -/

/-- Of numbers in order those that are left without repetitions are increasing. -/
private theorem pairwise_eraseDups : ∀ {xs : List Int}, xs.Pairwise (· ≤ ·) →
    xs.eraseDups.Pairwise (· < ·)
  | [], _ => List.Pairwise.nil
  | x :: xs, h => by
    obtain ⟨hx, hxs⟩ := List.pairwise_cons.mp h
    rw [List.eraseDups_cons, List.pairwise_cons]
    refine ⟨fun y hy => ?_, pairwise_eraseDups (hxs.sublist List.filter_sublist)⟩
    obtain ⟨hmem, hne⟩ := List.mem_filter.mp (List.mem_eraseDups.mp hy)
    have hle := hx y hmem
    have hxy : y ≠ x := by simpa using hne
    omega
-- all repetitions of a number are removed at once
termination_by xs => xs.length
decreasing_by exact Nat.lt_succ_of_le (List.length_filter_le _ xs)

/-- **The lines that outcomes name** are in order, and each is there once. -/
theorem pairwise_linesNamed (os : List Outcome) : (linesNamed os).Pairwise (· < ·) := by
  refine pairwise_eraseDups ?_
  exact List.pairwise_mergeSort' (· ≤ ·) _

/-- The lines that are named are those of the outcomes. -/
theorem mem_linesNamed_iff : line ∈ linesNamed os ↔ ∃ o ∈ os, o.line = some line := by
  rw [linesNamed, List.mem_eraseDups, List.mem_mergeSort, List.mem_filterMap]

/-! ### The outcomes of the snippets -/

/-- What is kept is shown and names a line. -/
private theorem kept_iff : Kept includePassed o ↔ o.line ≠ none ∧ keeps includePassed o = true := by
  refine and_congr_right fun _ => ?_
  rw [keeps, Bool.or_eq_true, decide_eq_true_iff, or_comm, or_iff_not_imp_left, not_not]

/-- Those about a line that are shown are those that are kept. -/
private theorem filter_keeps (includePassed : Bool) (os : List Outcome) (line : Int) :
    (os.filter (keeps includePassed)).filter (fun o => o.line = some line)
      = os.filter fun o => Kept includePassed o ∧ o.line = some line := by
  rw [List.filter_filter]
  refine List.filter_congr fun o _ => ?_
  rw [Bool.eq_iff_iff, Bool.and_eq_true, decide_eq_true_iff, decide_eq_true_iff, kept_iff]
  constructor
  · rintro ⟨hline, hshown⟩
    exact ⟨⟨hline ▸ nofun, hshown⟩, hline⟩
  · rintro ⟨⟨-, hshown⟩, hline⟩
    exact ⟨hline, hshown⟩

/-- **Nothing is lost and nothing is shown twice** where outcomes are told apart by their lines. -/
theorem perm_flatMap_filter {lines : List Int} (h : lines.Pairwise (· < ·)) (os : List Outcome) :
    (lines.flatMap fun line => os.filter fun o => o.line = some line)
      ~ os.filter fun o => ∃ line ∈ lines, o.line = some line := by
  induction lines with
  | nil =>
    have hnone : (os.filter fun o => ∃ line ∈ ([] : List Int), o.line = some line) = [] := by
      refine List.filter_eq_nil_iff.mpr fun o _ hmem => ?_
      obtain ⟨line, hline, -⟩ := of_decide_eq_true hmem
      exact List.not_mem_nil hline
    rw [hnone]
    exact List.Perm.nil
  | cons first lines ih =>
    obtain ⟨hfirst, hlines⟩ := List.pairwise_cons.mp h
    -- the outcomes about the first line, and all others
    have hhere : ((os.filter fun o => ∃ line ∈ first :: lines, o.line = some line).filter
        fun o => o.line = some first) = os.filter fun o => o.line = some first := by
      rw [List.filter_filter]
      refine List.filter_congr fun o _ => ?_
      rw [Bool.eq_iff_iff, Bool.and_eq_true, decide_eq_true_iff, decide_eq_true_iff]
      exact and_iff_left_of_imp fun hline => ⟨first, List.mem_cons_self, hline⟩
    have hothers : ((os.filter fun o => ∃ line ∈ first :: lines, o.line = some line).filter
        fun o => !decide (o.line = some first))
        = os.filter fun o => ∃ line ∈ lines, o.line = some line := by
      rw [List.filter_filter]
      refine List.filter_congr fun o _ => ?_
      rw [Bool.eq_iff_iff, Bool.and_eq_true, Bool.not_eq_true', decide_eq_false_iff_not,
        decide_eq_true_iff, decide_eq_true_iff]
      constructor
      · rintro ⟨hne, line, hline, ho⟩
        rcases List.mem_cons.mp hline with rfl | hline
        · exact absurd ho hne
        · exact ⟨line, hline, ho⟩
      · rintro ⟨line, hline, ho⟩
        refine ⟨?_, line, List.mem_cons_of_mem _ hline, ho⟩
        rw [ho, Option.some.injEq]
        exact Int.ne_of_gt (hfirst line hline)
    have hsplit := List.filter_append_perm (fun o : Outcome => decide (o.line = some first))
      (os.filter fun o => ∃ line ∈ first :: lines, o.line = some line)
    calc ((first :: lines).flatMap fun line => os.filter fun o => o.line = some line)
      _ = (os.filter fun o => o.line = some first)
          ++ lines.flatMap fun line => os.filter fun o => o.line = some line :=
        List.flatMap_cons
      _ ~ (os.filter fun o => o.line = some first)
          ++ os.filter fun o => ∃ line ∈ lines, o.line = some line :=
        (ih hlines).append_left _
      _ ~ os.filter fun o => ∃ line ∈ first :: lines, o.line = some line := by
        rwa [hhere, hothers] at hsplit

/-- **The worst severity** is that of some outcome, and none is worse. -/
theorem worst_spec {os : List Outcome} (hne : os ≠ []) :
    (∃ o ∈ os, o.severity = worst os) ∧ ∀ o ∈ os, o.severity.rank ≤ (worst os).rank := by
  -- what has been found to be worst so far stays below the result
  have hfold : ∀ (os : List Outcome) (first : Severity) (s : Severity),
      os.foldl (fun s o => s.worse o.severity) first = s →
        (s = first ∨ ∃ o ∈ os, o.severity = s) ∧ first.rank ≤ s.rank ∧
          ∀ o ∈ os, o.severity.rank ≤ s.rank := by
    intro os
    induction os with
    | nil =>
      rintro first s rfl
      exact ⟨.inl rfl, Nat.le_refl _, nofun⟩
    | cons o os ih =>
      intro first s hs
      obtain ⟨hfound, hfirst, hall⟩ := ih (first.worse o.severity) s hs
      have hworse : (first.worse o.severity = first ∨ first.worse o.severity = o.severity) ∧
          first.rank ≤ (first.worse o.severity).rank ∧
            o.severity.rank ≤ (first.worse o.severity).rank := by
        unfold Severity.worse
        split
        · next hlt => exact ⟨.inr rfl, Nat.le_of_lt hlt, Nat.le_refl _⟩
        · next hnot => exact ⟨.inl rfl, Nat.le_refl _, Nat.le_of_not_lt hnot⟩
      obtain ⟨hone, hfirst', ho⟩ := hworse
      refine ⟨?_, Nat.le_trans hfirst' hfirst, ?_⟩
      · rcases hfound with hsame | ⟨o', ho', hsame⟩
        · rcases hone with heq | heq
          · exact .inl (hsame.trans heq)
          · exact .inr ⟨o, List.mem_cons_self, (hsame.trans heq).symm⟩
        · exact .inr ⟨o', List.mem_cons_of_mem _ ho', hsame⟩
      · exact List.forall_mem_cons.mpr ⟨Nat.le_trans ho hfirst, hall⟩
  cases os with
  | nil => exact absurd rfl hne
  | cons o os =>
    obtain ⟨hfound, hfirst, hall⟩ := hfold os o.severity (worst (o :: os)) rfl
    refine ⟨?_, List.forall_mem_cons.mpr ⟨hfirst, hall⟩⟩
    rcases hfound with hsame | ⟨o', ho', hsame⟩
    · exact ⟨o, List.mem_cons_self, hsame.symm⟩
    · exact ⟨o', List.mem_cons_of_mem _ ho', hsame⟩

/-! ### The lines of the snippets -/

/-- **A line without the carriage returns** at its end. -/
theorem exists_withoutReturns (l : Text) : (∃ k, l = withoutReturns l
    ++ List.replicate k (CodePoint.ofChar '\r')) ∧
      ¬ [CodePoint.ofChar '\r'] <:+ withoutReturns l := by
  constructor
  · refine ⟨(l.reverse.takeWhile (· = CodePoint.ofChar '\r')).length, ?_⟩
    -- from behind, the returns are what is taken first
    have hreturns : l.reverse.takeWhile (· = CodePoint.ofChar '\r') = List.replicate
        (l.reverse.takeWhile (· = CodePoint.ofChar '\r')).length (CodePoint.ofChar '\r') :=
      List.eq_replicate_iff.mpr ⟨rfl, fun b hb =>
        of_decide_eq_true (List.all_eq_true.mp List.all_takeWhile b hb)⟩
    rw [← List.reverse_replicate, ← hreturns, withoutReturns, ← List.reverse_append,
      List.takeWhile_append_dropWhile, List.reverse_reverse]
  · unfold withoutReturns
    -- and what is left begins with something else
    rw [← List.reverse_singleton, List.reverse_suffix]
    rintro ⟨rest, hrest⟩
    have hhead := List.head?_dropWhile_not (· = CodePoint.ofChar '\r') l.reverse
    rw [← hrest] at hhead
    exact of_decide_eq_false hhead rfl

/-- **The lines around a line** are those of the content that are in the window. -/
theorem mem_linesAround_iff {l : SnippetLine} : l ∈ linesAround content.lines window line ↔
    ∃ (number : Nat) (text : Text), content.IsLine number text ∧
      max 1 (line - window.before) ≤ number ∧
      (number : Int) ≤ min (content.lineCount : Int) (line + window.after) ∧
      l = ⟨number, withoutReturns text, (number : Int) = line⟩ := by
  unfold linesAround
  dsimp only
  generalize hfirst : max 1 (line - window.before) = first
  generalize hlast : min (content.lines.length : Int) (line + window.after) = last
  have hcount : min (content.lineCount : Int) (line + window.after) = last := hlast
  rw [hcount, List.mem_map]
  obtain ⟨first, rfl⟩ : ∃ n : Nat, first = n := ⟨first.toNat, by omega⟩
  have hpos : 1 ≤ first := by omega
  -- the line of a number in the window, as a line of the content
  have hshown : ∀ number text, (number, text) ∈ Text.numberedFrom (first : Int).toNat
      ((content.lines.drop ((first : Int) - 1).toNat).take (last - first + 1).toNat) ↔
        content.IsLine number text ∧ (first : Int) ≤ number ∧ (number : Int) ≤ last := by
    intro number text
    rw [Text.mem_numberedFrom_iff, Int.toNat_natCast, List.getElem?_take, Text.IsLine]
    constructor
    · rintro ⟨hle, htext⟩
      split at htext
      · next hlt =>
        rw [List.getElem?_drop] at htext
        have hindex : ((first : Int) - 1).toNat + (number - first) = number - 1 := by omega
        rw [hindex] at htext
        exact ⟨⟨by omega, htext⟩, by omega, by omega⟩
      · cases htext
    · rintro ⟨⟨hnumber, htext⟩, hle, hlast⟩
      have hindex : ((first : Int) - 1).toNat + (number - first) = number - 1 := by omega
      rw [if_pos (by omega), List.getElem?_drop, hindex]
      exact ⟨by omega, htext⟩
  constructor
  · rintro ⟨⟨number, text⟩, hmem, rfl⟩
    obtain ⟨hline, hle, hlast⟩ := (hshown number text).mp hmem
    exact ⟨number, text, hline, hle, hlast, rfl⟩
  · rintro ⟨number, text, hline, hle, hlast, rfl⟩
    exact ⟨(number, text), (hshown number text).mpr ⟨hline, hle, hlast⟩, rfl⟩

/-- **The lines of a snippet** are as they should be. -/
theorem shows_linesAround (content : Text) (window : Window) (line : Int) :
    ShowsAround content window line (linesAround content.lines window line) where
  increasing := by
    unfold linesAround
    dsimp only
    rw [List.map_map, List.pairwise_map]
    exact (Text.pairwise_numberedFrom _ _).imp Int.ofNat_lt.mpr
  mem_iff n := by
    rw [List.mem_map]
    constructor
    · rintro ⟨l, hl, rfl⟩
      obtain ⟨number, text, -, hfirst, hlast, rfl⟩ := mem_linesAround_iff.mp hl
      exact ⟨hfirst, hlast⟩
    · rintro ⟨hfirst, hlast⟩
      -- a number in the window is that of a line
      obtain ⟨number, rfl⟩ : ∃ number : Nat, n = number := ⟨n.toNat, by omega⟩
      obtain ⟨text, htext⟩ : ∃ text, content.IsLine number text :=
        Text.exists_isLine_iff.mpr ⟨by omega, by omega⟩
      exact ⟨_, mem_linesAround_iff.mpr ⟨number, text, htext, hfirst, hlast, rfl⟩, rfl⟩
  written l hl := by
    obtain ⟨number, text, htext, -, -, rfl⟩ := mem_linesAround_iff.mp hl
    obtain ⟨⟨k, hk⟩, hend⟩ := exists_withoutReturns text
    exact ⟨number, k, rfl, hk ▸ htext, hend⟩
  flagged_iff l hl := by
    obtain ⟨number, text, -, -, -, rfl⟩ := mem_linesAround_iff.mp hl
    exact decide_eq_true_iff

/-- Around a line that is too far behind the end there is nothing to show. -/
example : linesAround [Text.ofString "DATA;", Text.ofString "ENDSEC;"] {} 9 = [] := by decide

/-! ### All snippets -/

/-- **The snippet for a line**, with the outcomes that are kept and name it. -/
def cutOut (content : Text) (os : List Outcome) (window : Window) (includePassed : Bool)
    (line : Int) : Snippet where
  line := line
  severity := worst (os.filter fun o => Kept includePassed o ∧ o.line = some line)
  outcomes := os.filter fun o => Kept includePassed o ∧ o.line = some line
  lines := linesAround content.lines window line

/-- One snippet is cut out for each line that is named. -/
private theorem extract_eq (content : Text) (os : List Outcome) (window : Window)
    (includePassed : Bool) : extract content os window includePassed
      = (linesNamed (os.filter (keeps includePassed))).map
        (cutOut content os window includePassed) := by
  refine List.map_congr_left fun line _ => ?_
  rw [cutOut, ← filter_keeps]

/-- A snippet is cut out for each line that is named by an outcome that is kept. -/
private theorem mem_linesNamed_keeps_iff : line ∈ linesNamed (os.filter (keeps includePassed)) ↔
    ∃ o ∈ os, Kept includePassed o ∧ o.line = some line := by
  rw [mem_linesNamed_iff]
  constructor
  · rintro ⟨o, ho, hline⟩
    obtain ⟨ho, hshown⟩ := List.mem_filter.mp ho
    exact ⟨o, ho, kept_iff.mpr ⟨hline ▸ nofun, hshown⟩, hline⟩
  · rintro ⟨o, ho, hkept, hline⟩
    exact ⟨o, List.mem_filter.mpr ⟨ho, (kept_iff.mp hkept).2⟩, hline⟩

/-- **The snippets are those for the lines** that are named by outcomes that are kept. -/
theorem mem_extract_iff {s : Snippet} : s ∈ extract content os window includePassed ↔
    (∃ o ∈ os, Kept includePassed o ∧ o.line = some s.line) ∧
      s = cutOut content os window includePassed s.line := by
  rw [extract_eq, List.mem_map, ← mem_linesNamed_keeps_iff]
  constructor
  · rintro ⟨line, hline, rfl⟩
    exact ⟨hline, rfl⟩
  · rintro ⟨hline, hs⟩
    exact ⟨s.line, hline, hs.symm⟩

/-- An outcome that is kept has its snippet. -/
theorem exists_mem_extract_of_kept (ho : o ∈ os) (hkept : Kept includePassed o) :
    ∃ s ∈ extract content os window includePassed, o.line = some s.line ∧ o ∈ s.outcomes := by
  obtain ⟨line, hline⟩ := Option.ne_none_iff_exists'.mp hkept.1
  refine ⟨cutOut content os window includePassed line, ?_, hline, ?_⟩
  · exact mem_extract_iff.mpr ⟨⟨o, ho, hkept, hline⟩, rfl⟩
  · exact List.mem_filter.mpr ⟨ho, decide_eq_true ⟨hkept, hline⟩⟩

/-- **The snippets of every list of outcomes** lose nothing, show nothing twice and keep the order,
whatever the content is, which lines are named and how wide the window is. -/
theorem showsAll_extract (content : Text) (os : List Outcome) (window : Window)
    (includePassed : Bool) :
    ShowsAll content os window includePassed (extract content os window includePassed) := by
  have hlines : (extract content os window includePassed).map Snippet.line
      = linesNamed (os.filter (keeps includePassed)) := by
    rw [extract_eq, List.map_map]
    exact List.map_id _
  have houtcomes : ∀ s ∈ extract content os window includePassed,
      s.outcomes = os.filter fun o => Kept includePassed o ∧ o.line = some s.line := by
    intro s hs
    exact congrArg Snippet.outcomes (mem_extract_iff.mp hs).2
  constructor
  case increasing =>
    rw [hlines]
    exact pairwise_linesNamed _
  case mem_line_iff =>
    intro line
    rw [hlines, mem_linesNamed_keeps_iff]
  case outcomes_eq => exact houtcomes
  case exactly_one =>
    intro o ho hkept
    obtain ⟨s, hs, hline, hmem⟩ : ∃ s ∈ extract content os window includePassed,
        o.line = some s.line ∧ o ∈ s.outcomes := exists_mem_extract_of_kept ho hkept
    refine ⟨s, ⟨hs, hmem⟩, ?_⟩
    -- another snippet that carries the outcome is about the same line
    rintro s' ⟨hs', hmem'⟩
    rw [houtcomes s' hs', List.mem_filter, decide_eq_true_iff] at hmem'
    obtain ⟨-, -, hline'⟩ := hmem'
    rw [hline, Option.some.injEq] at hline'
    rw [(mem_extract_iff.mp hs').2, (mem_extract_iff.mp hs).2, hline']
  case perm =>
    have hall := perm_flatMap_filter (pairwise_linesNamed (os.filter (keeps includePassed)))
      (os.filter (keeps includePassed))
    have hkept : ((os.filter (keeps includePassed)).filter fun o =>
        ∃ line ∈ linesNamed (os.filter (keeps includePassed)), o.line = some line)
          = os.filter fun o => Kept includePassed o := by
      rw [List.filter_filter]
      refine List.filter_congr fun o ho => ?_
      rw [Bool.eq_iff_iff, Bool.and_eq_true, decide_eq_true_iff, decide_eq_true_iff]
      constructor
      · rintro ⟨⟨line, -, hline⟩, hshown⟩
        exact kept_iff.mpr ⟨hline ▸ nofun, hshown⟩
      · intro hkept
        obtain ⟨line, hline⟩ := Option.ne_none_iff_exists'.mp hkept.1
        exact ⟨⟨line, mem_linesNamed_keeps_iff.mpr ⟨o, ho, hkept, hline⟩, hline⟩,
          (kept_iff.mp hkept).2⟩
    rw [hkept] at hall
    rw [extract_eq, List.flatMap_map]
    simp only [filter_keeps] at hall
    exact hall
  case worst =>
    intro s hs
    obtain ⟨⟨o, ho, hkept, hline⟩, heq⟩ := mem_extract_iff.mp hs
    have hne : s.outcomes ≠ [] := by
      rw [houtcomes s hs]
      exact List.ne_nil_of_mem (List.mem_filter.mpr ⟨ho, decide_eq_true ⟨hkept, hline⟩⟩)
    have hseverity : s.severity = worst s.outcomes := by
      rw [heq]
      rfl
    rw [hseverity]
    exact worst_spec hne
  case shows =>
    intro s hs
    rw [(mem_extract_iff.mp hs).2]
    exact shows_linesAround content window s.line

end StepCheck.Snippet
