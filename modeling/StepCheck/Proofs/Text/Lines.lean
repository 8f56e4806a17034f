import Mathlib.Algebra.GroupWithZero.Nat
import Mathlib.Data.List.Basic
import StepCheck.Text.Lines

/-!
# The line of a place

The number of a line is found by counting the line feeds before a place, while the lines themselves
come from cutting the text. Both agree: the line of a number begins at or before the place, ends at
or behind it, and shows what the text has there.

* `Text.IsLine` — a line of a text, by its number;
* `Text.LiesIn` — the line in which a place lies;
* `Text.liesIn_lineAt` — the number that is counted is that of the line in which the place lies;
* `Text.LiesIn.contains` — a line holds what begins at a place of it, up to the next line feed;
* `Text.firstLine?_eq_some_iff` — the first line that is as asked.
-/

namespace StepCheck.Text

variable {t : Text} {number index : Nat} {l : Text}

/-! ### Cutting a text -/

/-- Any other character is put in front of the first line. -/
theorem lines_cons_of_ne {c : CodePoint} (hc : c ≠ CodePoint.lineFeed) (t : Text) :
    ∃ l ls, lines t = l :: ls ∧ lines (c :: t) = (c :: l) :: ls := by
  obtain ⟨l, ls, h⟩ := List.exists_cons_of_ne_nil (lines_ne_nil t)
  refine ⟨l, ls, h, ?_⟩
  unfold lines at h ⊢
  rw [List.foldr_cons, if_neg hc, h]

/-- **A line feed** ends the lines before it. -/
theorem lines_append_lineFeed (s t : Text) :
    lines (s ++ CodePoint.lineFeed :: t) = lines s ++ lines t := by
  induction s with
  | nil => exact lines_cons_lineFeed t
  | cons c s ih =>
    rw [List.cons_append]
    by_cases hc : c = CodePoint.lineFeed
    · rw [hc, lines_cons_lineFeed, lines_cons_lineFeed, ih, List.cons_append]
    · obtain ⟨l, ls, hs, hcs⟩ := lines_cons_of_ne hc s
      obtain ⟨l', ls', hst, hcst⟩ := lines_cons_of_ne hc (s ++ CodePoint.lineFeed :: t)
      rw [ih, hs, List.cons_append, List.cons.injEq] at hst
      rw [hcst, hcs, ← hst.1, ← hst.2, List.cons_append]

/-- **The first line** reaches up to the first line feed. -/
theorem exists_lines_eq_takeWhile (t : Text) :
    ∃ later, lines t = t.takeWhile (· ≠ CodePoint.lineFeed) :: later := by
  induction t with
  | nil => exact ⟨[], rfl⟩
  | cons c t ih =>
    by_cases hc : c = CodePoint.lineFeed
    · rw [hc, List.takeWhile_cons_of_neg (by simp)]
      exact ⟨lines t, lines_cons_lineFeed t⟩
    · obtain ⟨l, ls, ht, hct⟩ := lines_cons_of_ne hc t
      obtain ⟨later, hlater⟩ := ih
      rw [hlater, List.cons.injEq] at ht
      rw [hct, List.takeWhile_cons_of_pos (by simpa using hc), ← ht.1]
      exact ⟨ls, rfl⟩

/-- There is one line more than there are line feeds. -/
theorem lineCount_eq (t : Text) : lineCount t = t.count CodePoint.lineFeed + 1 := by
  unfold lineCount
  induction t with
  | nil => rfl
  | cons c t ih =>
    by_cases hc : c = CodePoint.lineFeed
    · rw [hc, lines_cons_lineFeed, List.length_cons, ih, List.count_cons_self]
    · obtain ⟨l, ls, ht, hct⟩ := lines_cons_of_ne hc t
      rw [hct, List.length_cons, List.count_cons_of_ne hc, ← ih, ht, List.length_cons]

/-- The lines of a text take up its code points, with one line feed for each line but the last. -/
theorem sum_length_lines (t : Text) : ((lines t).map fun l => l.length + 1).sum = t.length + 1 := by
  induction t with
  | nil => rfl
  | cons c t ih =>
    by_cases hc : c = CodePoint.lineFeed
    · rw [hc, lines_cons_lineFeed, List.map_cons, List.sum_cons, ih, List.length_cons,
        List.length_nil]
      omega
    · obtain ⟨l, ls, ht, hct⟩ := lines_cons_of_ne hc t
      rw [ht, List.map_cons, List.sum_cons] at ih
      rw [hct, List.map_cons, List.sum_cons, List.length_cons, List.length_cons]
      omega

/-- The lines of a text are made of its code points. -/
theorem subset_of_mem_lines (h : l ∈ lines t) : l ⊆ t := by
  -- on the text: its first character begins a line, or is put in front of one
  induction t generalizing l with
  | nil =>
    rw [lines_nil, List.mem_singleton] at h
    rw [h]
    exact List.nil_subset _
  | cons c t ih =>
    by_cases hc : c = CodePoint.lineFeed
    · rw [hc, lines_cons_lineFeed, List.mem_cons] at h
      rcases h with rfl | h
      · exact List.nil_subset _
      · exact List.Subset.trans (ih h) (List.subset_cons_self _ _)
    · obtain ⟨l', ls, ht, hct⟩ := lines_cons_of_ne hc t
      rw [ht] at ih
      rw [hct, List.mem_cons] at h
      rcases h with rfl | h
      · exact List.cons_subset_cons _ (ih List.mem_cons_self)
      · exact List.Subset.trans (ih (List.mem_cons_of_mem _ h)) (List.subset_cons_self _ _)

/-! ### Numbered lines -/

/-- **A numbered line** is the one that is as far from the first as its number. -/
theorem mem_numberedFrom_iff {ls : List Text} {first : Nat} :
    (number, l) ∈ numberedFrom first ls ↔ first ≤ number ∧ ls[number - first]? = some l := by
  induction ls generalizing first with
  | nil => exact iff_of_false List.not_mem_nil nofun
  | cons l' ls ih =>
    rw [numberedFrom, List.mem_cons, ih, Prod.mk.injEq]
    constructor
    · rintro (⟨rfl, rfl⟩ | ⟨hle, hl⟩)
      · exact ⟨Nat.le_refl number, by rw [Nat.sub_self]; rfl⟩
      · refine ⟨Nat.le_of_succ_le hle, ?_⟩
        rwa [← Nat.sub_add_cancel (Nat.sub_pos_of_lt hle), List.getElem?_cons_succ, Nat.sub_sub]
    · rintro ⟨hle, hl⟩
      -- the first line is the one of its number, and all others are behind it
      by_cases hfirst : number = first
      · rw [hfirst, Nat.sub_self, List.getElem?_cons_zero, Option.some.injEq] at hl
        exact .inl ⟨hfirst, hl.symm⟩
      · have hlt : first < number := Nat.lt_of_le_of_ne hle (Ne.symm hfirst)
        rw [← Nat.sub_add_cancel (Nat.sub_pos_of_lt hlt), List.getElem?_cons_succ, Nat.sub_sub]
          at hl
        exact .inr ⟨hlt, hl⟩

/-- Later lines have greater numbers. -/
theorem pairwise_numberedFrom (first : Nat) (ls : List Text) :
    (numberedFrom first ls).Pairwise fun p q => p.1 < q.1 := by
  induction ls generalizing first with
  | nil => exact List.Pairwise.nil
  | cons l ls ih =>
    rw [numberedFrom, List.pairwise_cons]
    refine ⟨?_, ih (first + 1)⟩
    rintro ⟨number, l'⟩ hp
    exact (mem_numberedFrom_iff.mp hp).1

/-! ### Counting line feeds -/

/-- **Counting**: one more than the number of line feeds before the index. -/
theorem lineAt_eq (t : Text) (index : Nat) :
    lineAt t index = (t.take index).count CodePoint.lineFeed + 1 := by
  have hafter : ∀ line, lineAfter line t index
      = (t.take index).count CodePoint.lineFeed + line := by
    -- the number of the first line is counted on while the text is run along
    induction t generalizing index with
    | nil =>
      intro line
      rw [List.take_nil, List.count_nil, Nat.zero_add]
      cases index <;> rfl
    | cons c t ih =>
      intro line
      cases index with
      | zero => exact (Nat.zero_add line).symm
      | succ index =>
        rw [lineAfter, ih, List.take_succ_cons]
        split
        · next hc => rw [hc, List.count_cons_self]; omega
        · next hc => rw [List.count_cons_of_ne hc]
  exact hafter 1

/-! ### The line of a place -/

/-- **A line of a text**, by its number. -/
def IsLine (t : Text) (number : Nat) (l : Text) : Prop :=
  0 < number ∧ t.lines[number - 1]? = some l

/-- **Where a line begins**: behind the lines before it and their line feeds. -/
def lineStart (t : Text) (number : Nat) : Nat :=
  ((t.lines.take (number - 1)).map fun l => l.length + 1).sum

/-- **A place lies in a line**, which may be that of the line feed at its end. -/
structure LiesIn (t : Text) (index number : Nat) (l : Text) : Prop where
  line : t.IsLine number l
  start : t.lineStart number ≤ index
  finish : index ≤ t.lineStart number + l.length

/-- The lines of a text are numbered from 1 on. -/
theorem exists_isLine_iff : (∃ l, t.IsLine number l) ↔ 1 ≤ number ∧ number ≤ t.lineCount := by
  unfold IsLine lineCount
  constructor
  · rintro ⟨l, hpos, hl⟩
    obtain ⟨hlt, -⟩ := List.getElem?_eq_some_iff.mp hl
    omega
  · rintro ⟨hpos, hle⟩
    exact ⟨_, hpos, List.getElem?_eq_getElem (by omega)⟩

/-- The part of a text behind its last line feed. -/
private theorem exists_begun (before : Text) : ∃ begun, CodePoint.lineFeed ∉ begun ∧
    (before = begun ∨ ∃ earlier, before = earlier ++ CodePoint.lineFeed :: begun) := by
  induction before with
  | nil => exact ⟨[], List.not_mem_nil, .inl rfl⟩
  | cons c before ih =>
    obtain ⟨begun, hbegun, rfl | ⟨earlier, rfl⟩⟩ := ih
    · by_cases hc : c = CodePoint.lineFeed
      · exact ⟨before, hbegun, .inr ⟨[], by rw [hc, List.nil_append]⟩⟩
      · exact ⟨c :: before, by simp [hbegun, Ne.symm hc], .inl rfl⟩
    · exact ⟨begun, hbegun, .inr ⟨c :: earlier, rfl⟩⟩

/-- **The lines around a place**: those before it, that in which it lies, which goes on with what
the text has there, and those behind it. -/
theorem lines_append (before rest : Text) : ∃ earlier begun later,
    lines (before ++ rest)
      = earlier ++ (begun ++ rest.takeWhile (· ≠ CodePoint.lineFeed)) :: later ∧
    earlier.length = before.count CodePoint.lineFeed ∧
    (earlier.map fun l => l.length + 1).sum + begun.length = before.length ∧
    ∀ l ∈ earlier, l ⊆ before := by
  obtain ⟨begun, hbegun, hbefore⟩ := exists_begun before
  -- the line that holds the place is the first one of what follows the last line feed before it
  have hline : (begun ++ rest).takeWhile (· ≠ CodePoint.lineFeed)
      = begun ++ rest.takeWhile (· ≠ CodePoint.lineFeed) := by
    refine List.takeWhile_append_of_pos fun c hc => ?_
    rw [decide_eq_true_eq]
    rintro rfl
    exact hbegun hc
  obtain ⟨later, hlater⟩ := exists_lines_eq_takeWhile (begun ++ rest)
  rw [hline] at hlater
  have hcount : begun.count CodePoint.lineFeed = 0 := List.count_eq_zero.mpr hbegun
  rcases hbefore with rfl | ⟨earlier, rfl⟩
  · exact ⟨[], before, later, hlater, hcount.symm, Nat.zero_add _, nofun⟩
  · refine ⟨lines earlier, begun, later, ?_, ?_, ?_, ?_⟩
    · rw [List.append_assoc, List.cons_append, lines_append_lineFeed, hlater]
    · rw [List.count_append, List.count_cons_self, hcount, ← lineCount, lineCount_eq]
    · rw [sum_length_lines, List.length_append, List.length_cons]
      omega
    · intro l hl
      exact List.Subset.trans (subset_of_mem_lines hl) (List.subset_append_left _ _)

/-- What a line shows from a place on, and what lies in the lines before it. -/
private theorem exists_liesIn_lineAt (h : index ≤ t.length) :
    ∃ l, t.LiesIn index (t.lineAt index) l ∧
      l.drop (index - t.lineStart (t.lineAt index))
        = (t.drop index).takeWhile (· ≠ CodePoint.lineFeed) ∧
      ∀ number < t.lineAt index, ∀ l', t.IsLine number l' → l' ⊆ t.take index := by
  -- the text is cut at the place: the lines before it, the one begun there and those behind
  obtain ⟨earlier, begun, later, hlines, hcount, hsum, hsubset⟩ :=
    lines_append (t.take index) (t.drop index)
  rw [List.take_append_drop] at hlines
  have hnumber : t.lineAt index - 1 = earlier.length := by
    rw [lineAt_eq, hcount, Nat.add_sub_cancel]
  have hstart : t.lineStart (t.lineAt index) + begun.length = index := by
    unfold lineStart
    rw [hnumber, hlines, List.take_left, hsum, List.length_take_of_le h]
  refine ⟨begun ++ (t.drop index).takeWhile (· ≠ CodePoint.lineFeed), ⟨⟨?_, ?_⟩, ?_, ?_⟩, ?_, ?_⟩
  · rw [lineAt_eq]
    exact Nat.succ_pos _
  · rw [hnumber, hlines, List.getElem?_append_right (Nat.le_refl _), Nat.sub_self]
    rfl
  · omega
  · rw [List.length_append]
    omega
  · rw [List.drop_append_of_le_length (by omega), List.drop_of_length_le (by omega),
      List.nil_append]
  · rintro number hlt l' ⟨hpos, hl'⟩
    rw [hlines, List.getElem?_append_left (by omega)] at hl'
    exact hsubset l' (List.mem_of_getElem? hl')

/-- A line with its line feed ends before a later line begins. -/
theorem IsLine.end_le_lineStart {number' : Nat} (h : t.IsLine number l) (hlt : number < number') :
    t.lineStart number + l.length + 1 ≤ t.lineStart number' := by
  obtain ⟨hpos, hl⟩ := h
  obtain ⟨k, hk⟩ := Nat.exists_eq_add_of_le (Nat.le_sub_one_of_lt hlt)
  have htake : t.lines.take number = t.lines.take (number - 1) ++ [l] := by
    rw [← Nat.sub_add_cancel hpos, List.take_add_one, Nat.add_sub_cancel, hl]
    rfl
  unfold lineStart
  rw [hk, List.take_add, htake]
  simp only [List.map_append, List.sum_append, List.map_cons, List.map_nil, List.sum_cons,
    List.sum_nil]
  omega

/-- **A place lies in one line.** -/
theorem LiesIn.unique {number' : Nat} {l' : Text} (h : t.LiesIn index number l)
    (h' : t.LiesIn index number' l') : number = number' := by
  have hstart := h.start
  have hstart' := h'.start
  have hfinish := h.finish
  have hfinish' := h'.finish
  rcases Nat.lt_trichotomy number number' with hlt | heq | hlt
  · have hle := h.line.end_le_lineStart hlt
    omega
  · exact heq
  · have hle := h'.line.end_le_lineStart hlt
    omega

/-- **The number that is counted** is that of the line in which the place lies. -/
theorem liesIn_lineAt (h : index ≤ t.length) : ∃ l, t.LiesIn index (t.lineAt index) l := by
  obtain ⟨l, hl, -⟩ := exists_liesIn_lineAt h
  exact ⟨l, hl⟩

/-- **The line of a place** holds what begins there, if that is all in one line. -/
theorem isLine_lineAt_of_prefix {needle : Text} (h : needle <+: t.drop index)
    (hne : needle ≠ []) (hneedle : CodePoint.lineFeed ∉ needle) :
    ∃ l, t.IsLine (t.lineAt index) l ∧ needle <:+: l := by
  have hindex : index ≤ t.length := by
    by_contra hlt
    rw [List.drop_of_length_le (by omega), List.prefix_nil] at h
    exact hne h
  obtain ⟨l, hl, hdrop, -⟩ := exists_liesIn_lineAt hindex
  refine ⟨l, hl.line, ?_⟩
  -- the needle has no line break, so that it ends in the line in which it begins
  have hprefix : needle <+: l.drop (index - t.lineStart (t.lineAt index)) := by
    obtain ⟨rest, hrest⟩ := h
    rw [hdrop, ← hrest, List.takeWhile_append_of_pos]
    · exact List.prefix_append _ _
    · intro c hc
      rw [decide_eq_true_eq]
      rintro rfl
      exact hneedle hc
  exact hprefix.isInfix.trans (List.drop_suffix _ _).isInfix

/-- The lines before that of a place lie before the place. -/
theorem subset_take_of_lt_lineAt (h : index ≤ t.length) (hlt : number < t.lineAt index)
    (hl : t.IsLine number l) : l ⊆ t.take index := by
  obtain ⟨-, -, -, hbefore⟩ := exists_liesIn_lineAt h
  exact hbefore number hlt l hl

/-! ### The first line of a kind -/

/-- **The first line** that satisfies a condition. -/
theorem firstLine?_eq_some_iff {p : Text → Bool} :
    firstLine? p t.lines = some number ↔
      (∃ l, t.IsLine number l ∧ p l = true) ∧
        ∀ n < number, ∀ l, t.IsLine n l → p l = false := by
  unfold firstLine? IsLine
  rw [Option.map_eq_some_iff]
  constructor
  · -- numbers are places counted from 1
    rintro ⟨i, hi, rfl⟩
    obtain ⟨hlt, hp, hleast⟩ := List.findIdx?_eq_some_iff_getElem.mp hi
    refine ⟨⟨_, ⟨Nat.succ_pos i, List.getElem?_eq_getElem hlt⟩, hp⟩, ?_⟩
    rintro n hn l ⟨hpos, hl⟩
    obtain ⟨hn', rfl⟩ := List.getElem?_eq_some_iff.mp hl
    simpa using hleast (n - 1) (by omega)
  · rintro ⟨⟨l, ⟨hpos, hl⟩, hp⟩, hleast⟩
    obtain ⟨hlt, rfl⟩ := List.getElem?_eq_some_iff.mp hl
    refine ⟨number - 1, List.findIdx?_eq_some_iff_getElem.mpr ⟨hlt, hp, ?_⟩, by omega⟩
    intro j hj
    have := hleast (j + 1) (by omega) t.lines[j] ⟨Nat.succ_pos j, by simp⟩
    simp [this]

/-- There is no such first line just when no line satisfies the condition. -/
theorem firstLine?_eq_none_iff {p : Text → Bool} :
    firstLine? p t.lines = none ↔ ∀ l ∈ t.lines, p l = false := by
  unfold firstLine?
  rw [Option.map_eq_none_iff, List.findIdx?_eq_none_iff]

end StepCheck.Text
