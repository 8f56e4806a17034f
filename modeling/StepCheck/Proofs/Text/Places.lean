import Mathlib.Data.List.Infix
import Mathlib.Data.List.TakeWhile
import Mathlib.Data.Nat.Find
import StepCheck.Proofs.Text.Lines
import StepCheck.Proofs.Text.Search

/-!
# First places

The searches answer with parts of a text. Where a part comes from is said here by indices: a needle
stands first at some index, from a given index on. That is how one search continues where another
one ended, and it does not change when something is put behind the text.

* `Text.FirstFrom` — the first place of a needle from an index on;
* `Text.foundIn?_iff_firstFrom`, `Text.cutAt?_iff_firstFrom` — what the searches find;
* `Text.FirstFrom.append`, `Text.FirstFrom.transfer` — other text behind changes nothing;
* `Text.firstOccurrence?_eq_some_iff` — the first match of a matcher;
* `Text.FirstFrom.firstLine?` — the first line that holds a needle is that of its first place.
-/

namespace StepCheck.Text

/-- **The first place of a needle** in a text, from an index on. -/
structure FirstFrom (needle t : Text) (start index : Nat) : Prop where
  start_le : start ≤ index
  occurs : needle <+: t.drop index
  least : ∀ i, start ≤ i → needle <+: t.drop i → index ≤ i

variable {needle t : Text} {start index : Nat}

/-- There is one first place at most. -/
theorem FirstFrom.unique {index' : Nat} (h : FirstFrom needle t start index)
    (h' : FirstFrom needle t start index') : index = index' :=
  Nat.le_antisymm (h.least index' h'.start_le h'.occurs) (h'.least index h.start_le h.occurs)

/-- A needle that stands somewhere stands somewhere first. -/
theorem exists_firstFrom (hstart : start ≤ index) (h : needle <+: t.drop index) :
    ∃ first ≤ index, FirstFrom needle t start first := by
  classical
  have hexists : ∃ i, start ≤ i ∧ needle <+: t.drop i := ⟨index, hstart, h⟩
  obtain ⟨hle, hfirst⟩ := Nat.find_spec hexists
  exact ⟨Nat.find hexists, Nat.find_min' hexists ⟨hstart, h⟩, hle, hfirst, fun i hi hprefix =>
    Nat.find_min' hexists ⟨hi, hprefix⟩⟩

/-- What stands at an index ends within the text. -/
theorem length_add_le_of_prefix (hne : needle ≠ []) (h : needle <+: t.drop index) :
    index + needle.length ≤ t.length := by
  have hlength := h.length_le
  have hpos := List.length_pos_of_ne_nil hne
  rw [List.length_drop] at hlength
  omega

/-- The first place of a needle lies in the text or at its end. -/
theorem FirstFrom.index_le (h : FirstFrom needle t 0 index) : index ≤ t.length := by
  by_contra hlt
  -- behind the end there is nothing, and that stands at the end already
  have hend : needle <+: t.drop t.length := by
    rw [List.drop_length, ← List.drop_of_length_le (Nat.le_of_not_le hlt)]
    exact h.occurs
  exact hlt (h.least _ (Nat.zero_le _) hend)

/-- A part of a text stands at some place of it. -/
theorem infix_iff_exists_drop : needle <:+: t ↔ ∃ i, needle <+: t.drop i := by
  constructor
  · rintro ⟨before, after, rfl⟩
    refine ⟨before.length, ?_⟩
    rw [List.append_assoc, List.drop_left]
    exact List.prefix_append needle after
  · rintro ⟨i, h⟩
    exact h.isInfix.trans (List.drop_suffix i t).isInfix

/-! ### What the searches find -/

/-- The leftmost split of a text is that at the first place. -/
theorem splitsAt_iff_firstFrom {before after : Text} :
    SplitsAt needle t before after ↔
      t = before ++ needle ++ after ∧ FirstFrom needle t 0 before.length := by
  constructor
  · rintro ⟨ht, hleast⟩
    refine ⟨ht, Nat.zero_le _, ?_, fun i _ hi => ?_⟩
    · rw [ht, List.append_assoc, List.drop_left]
      exact List.prefix_append needle after
    · -- an occurrence behind the end of the text is none, unless the needle is empty
      obtain ⟨after', hafter'⟩ := hi
      have hsplit : t = t.take i ++ needle ++ after' := by
        rw [List.append_assoc, hafter', List.take_append_drop]
      exact Nat.le_trans (hleast _ after' hsplit) (List.length_take_le i t)
  · rintro ⟨ht, hfirst⟩
    refine ⟨ht, fun before' after' ht' => hfirst.least _ (Nat.zero_le _) ?_⟩
    rw [ht', List.append_assoc, List.drop_left]
    exact List.prefix_append needle after'

/-- **The search for a needle** finds the text from its first place on. -/
theorem foundIn?_iff_firstFrom {rest : Text} :
    needle.foundIn? t = some rest ↔ ∃ i, FirstFrom needle t 0 i ∧ rest = t.drop i := by
  rw [foundIn?_eq_some_iff]
  constructor
  · rintro ⟨before, after, rfl, h⟩
    obtain ⟨ht, hfirst⟩ := splitsAt_iff_firstFrom.mp h
    refine ⟨before.length, hfirst, ?_⟩
    rw [ht, List.append_assoc, List.drop_left]
  · rintro ⟨i, hfirst, rfl⟩
    obtain ⟨after, hafter⟩ := hfirst.occurs
    have hle := hfirst.index_le
    -- the text is what is before the place, the needle, and what is behind
    have ht : t = t.take i ++ needle ++ after := by
      rw [List.append_assoc, hafter, List.take_append_drop]
    refine ⟨t.take i, after, hafter.symm, splitsAt_iff_firstFrom.mpr ⟨ht, ?_⟩⟩
    rw [List.length_take_of_le hle]
    exact hfirst

/-- **The index of a needle** is its first place. -/
theorem indexIn?_eq_some_iff : needle.indexIn? t = some index ↔ FirstFrom needle t 0 index := by
  unfold indexIn?
  rw [Option.map_eq_some_iff]
  constructor
  · rintro ⟨rest, hrest, rfl⟩
    obtain ⟨k, hk, rfl⟩ := foundIn?_iff_firstFrom.mp hrest
    rw [List.length_drop, Nat.sub_sub_self hk.index_le]
    exact hk
  · intro h
    refine ⟨t.drop index, foundIn?_iff_firstFrom.mpr ⟨index, h, rfl⟩, ?_⟩
    rw [List.length_drop, Nat.sub_sub_self h.index_le]

/-- No place is found just if the needle is nowhere. -/
theorem indexIn?_eq_none_iff : needle.indexIn? t = none ↔ ¬ needle <:+: t := by
  rw [indexIn?, Option.map_eq_none_iff, ← occursIn_iff, occursIn_eq_isSome_foundIn?,
    Bool.not_eq_true, Option.isSome_eq_false_iff, Option.isNone_iff_eq_none]

/-- **A text is cut** at the first place of the needle. -/
theorem cutAt?_iff_firstFrom {before after : Text} :
    t.cutAt? needle = some (before, after) ↔
      ∃ i, FirstFrom needle t 0 i ∧ before = t.take i ∧ after = t.drop (i + needle.length) := by
  unfold cutAt?
  rw [Option.map_eq_some_iff]
  constructor
  · rintro ⟨rest, hrest, heq⟩
    obtain ⟨i, hfirst, rfl⟩ := foundIn?_iff_firstFrom.mp hrest
    cases heq
    refine ⟨i, hfirst, ?_, ?_⟩
    · rw [List.length_drop, Nat.sub_sub_self hfirst.index_le]
    · rw [List.drop_drop]
  · rintro ⟨i, hfirst, rfl, rfl⟩
    refine ⟨t.drop i, foundIn?_iff_firstFrom.mpr ⟨i, hfirst, rfl⟩, ?_⟩
    rw [List.drop_drop, List.length_drop, Nat.sub_sub_self hfirst.index_le]

/-- A search from an index on is a search of the rest. -/
theorem firstFrom_drop_iff :
    FirstFrom needle (t.drop start) 0 index ↔ FirstFrom needle t start (start + index) := by
  constructor
  · rintro ⟨-, hoccurs, hleast⟩
    rw [List.drop_drop] at hoccurs
    refine ⟨Nat.le_add_right _ _, hoccurs, fun i hi hprefix => ?_⟩
    obtain ⟨k, rfl⟩ := Nat.exists_eq_add_of_le hi
    have hk := hleast k (Nat.zero_le _) (by rwa [List.drop_drop])
    omega
  · rintro ⟨-, hoccurs, hleast⟩
    refine ⟨Nat.zero_le _, by rwa [List.drop_drop], fun i _ hprefix => ?_⟩
    rw [List.drop_drop] at hprefix
    have hi := hleast (start + i) (Nat.le_add_right _ _) hprefix
    omega

/-- **More text behind** does not change where a needle stands first. -/
theorem FirstFrom.append (h : FirstFrom needle t start index) (hne : needle ≠ []) (more : Text) :
    FirstFrom needle (t ++ more) start index := by
  have hlength := length_add_le_of_prefix hne h.occurs
  refine ⟨h.start_le, ?_, fun i hi hprefix => ?_⟩
  · rw [List.drop_append_of_le_length (by omega)]
    exact h.occurs.trans (List.prefix_append _ _)
  · -- an earlier occurrence would end within the old text
    by_contra hlt
    have hi' : needle <+: t.drop i := by
      rw [List.drop_append_of_le_length (by omega)] at hprefix
      refine List.prefix_of_prefix_length_le hprefix (List.prefix_append _ _) ?_
      rw [List.length_drop]
      omega
    exact hlt (h.least i hi hi')

/-- **Less text behind** does not change it either, as long as the needle is kept. -/
theorem FirstFrom.of_append {more : Text} (h : FirstFrom needle (t ++ more) start index)
    (hle : index + needle.length ≤ t.length) : FirstFrom needle t start index := by
  have hkept : ∀ i, t.drop i <+: (t ++ more).drop i := by
    intro i
    exact List.IsPrefix.drop (List.prefix_append t more) i
  refine ⟨h.start_le, ?_, fun i hi hoccurs => h.least i hi (hoccurs.trans (hkept i))⟩
  refine List.prefix_of_prefix_length_le h.occurs (hkept index) ?_
  rw [List.length_drop]
  omega

/-- **A needle stands first** at the same index in two texts that begin alike. -/
theorem FirstFrom.transfer {t' start' : Text} (h : FirstFrom needle t start index)
    (hne : needle ≠ []) (hstart : start' <+: t) (hstart' : start' <+: t')
    (hle : index + needle.length ≤ start'.length) : FirstFrom needle t' start index := by
  obtain ⟨more, rfl⟩ := hstart
  obtain ⟨more', rfl⟩ := hstart'
  exact (h.of_append hle).append hne more'

/-! ### The first match -/

/-- What is found from a place on is not found before that place. -/
private theorem le_of_firstOccurrenceFrom? {α : Type} {m : Matcher α} {first : Nat} {p : Nat × α}
    (h : firstOccurrenceFrom? m first t = some p) : first ≤ p.1 := by
  induction t generalizing first with
  | nil => cases h
  | cons c t ih =>
    unfold firstOccurrenceFrom? at h
    split at h
    · cases h
      exact Nat.le_refl first
    · exact Nat.le_of_succ_le (ih h)

/-- The search has come to a place `first`. -/
private theorem firstOccurrenceFrom?_eq_some_iff {α : Type} {m : Matcher α} {found : α}
    (first : Nat) :
    firstOccurrenceFrom? m first t = some (first + index, found) ↔
      index < t.length ∧ (∃ length, m (t.drop index) = some (found, length)) ∧
        ∀ i < index, m (t.drop i) = none := by
  induction t generalizing first index with
  | nil => exact iff_of_false nofun fun h => absurd h.1 (Nat.not_lt_zero _)
  | cons c t ih =>
    unfold firstOccurrenceFrom?
    cases hm : m (c :: t) with
    | some match' =>
      obtain ⟨x, length⟩ := match'
      dsimp only
      rw [Option.some.injEq, Prod.mk.injEq]
      cases index with
      | zero =>
        constructor
        · rintro ⟨-, rfl⟩
          exact ⟨Nat.succ_pos _, ⟨length, hm⟩, fun i hi => absurd hi (Nat.not_lt_zero i)⟩
        · rintro ⟨-, ⟨length', hm'⟩, -⟩
          rw [List.drop_zero, hm, Option.some.injEq, Prod.mk.injEq] at hm'
          exact ⟨rfl, hm'.1⟩
      | succ index =>
        -- the match is here, and so none is the first one later
        refine iff_of_false (fun h => by omega) ?_
        rintro ⟨-, -, hnone⟩
        have hzero := hnone 0 (Nat.succ_pos index)
        rw [List.drop_zero, hm] at hzero
        cases hzero
    | none =>
      dsimp only
      cases index with
      | zero =>
        refine iff_of_false (fun h => ?_) ?_
        · have hfirst := le_of_firstOccurrenceFrom? h
          omega
        · rintro ⟨-, ⟨length, hm'⟩, -⟩
          rw [List.drop_zero, hm] at hm'
          cases hm'
      | succ index =>
        have hshift : first + (index + 1) = first + 1 + index := by omega
        rw [hshift, ih (first + 1), List.length_cons, Nat.succ_lt_succ_iff, List.drop_succ_cons]
        refine and_congr_right fun _ => and_congr_right fun _ => ?_
        constructor
        · intro hnone i hi
          cases i with
          | zero => exact hm
          | succ i => exact hnone i (Nat.lt_of_succ_lt_succ hi)
        · exact fun hnone i hi => hnone (i + 1) (Nat.succ_lt_succ hi)

/-- **The first match** of a matcher: it matches at the index, and nowhere before. -/
theorem firstOccurrence?_eq_some_iff {α : Type} {m : Matcher α} {found : α} :
    t.firstOccurrence? m = some (index, found) ↔
      index < t.length ∧ (∃ length, m (t.drop index) = some (found, length)) ∧
        ∀ i < index, m (t.drop i) = none := by
  rw [← firstOccurrenceFrom?_eq_some_iff 0, Nat.zero_add, firstOccurrence?]

/-! ### The first line that holds a needle -/

/-- **Where a line stands**: behind as many line feeds as there are lines before it. -/
theorem IsLine.exists_append {number : Nat} {l : Text} (h : t.IsLine number l) :
    CodePoint.lineFeed ∉ l ∧ ∃ before after, t = before ++ l ++ after ∧
      before.count CodePoint.lineFeed + 1 = number := by
  obtain ⟨hpos, hl⟩ := h
  obtain ⟨k, rfl⟩ := Nat.exists_eq_add_one_of_ne_zero (Nat.ne_of_gt hpos)
  rw [Nat.add_sub_cancel] at hl
  clear hpos
  induction t generalizing k l with
  | nil =>
    rw [lines_nil] at hl
    obtain rfl := List.mem_singleton.mp (List.mem_of_getElem? hl)
    have hk : k = 0 := by
      have hlt := (List.getElem?_eq_some_iff.mp hl).1
      rw [List.length_singleton] at hlt
      omega
    exact ⟨List.not_mem_nil, [], [], rfl, by rw [hk]; rfl⟩
  | cons c t ih =>
    by_cases hc : c = CodePoint.lineFeed
    · rw [hc, lines_cons_lineFeed] at hl
      cases k with
      | zero =>
        obtain rfl := Option.some.inj hl
        exact ⟨List.not_mem_nil, [], c :: t, rfl, rfl⟩
      | succ k =>
        obtain ⟨hfree, before, after, rfl, hcount⟩ := ih k hl
        refine ⟨hfree, c :: before, after, rfl, ?_⟩
        rw [hc, List.count_cons_self, hcount]
    · obtain ⟨l₀, ls, hlines, hcons⟩ := lines_cons_of_ne hc t
      rw [hcons] at hl
      cases k with
      | zero =>
        -- the first line is what stands before the first line feed
        obtain rfl := Option.some.inj hl
        obtain ⟨later, hlater⟩ := exists_lines_eq_takeWhile (c :: t)
        have hline : c :: l₀ = (c :: t).takeWhile (· ≠ CodePoint.lineFeed) :=
          (List.cons.inj (hcons.symm.trans hlater)).1
        obtain ⟨after, hafter⟩ := List.takeWhile_prefix (l := c :: t) (· ≠ CodePoint.lineFeed)
        refine ⟨?_, [], after, ?_, rfl⟩
        · intro hmem
          rw [hline] at hmem
          simpa using List.mem_takeWhile_imp hmem
        · rw [hline, List.nil_append, hafter]
      | succ k =>
        have hl' : (lines t)[k + 1]? = some l := by
          rw [hlines]
          exact hl
        obtain ⟨hfree, before, after, rfl, hcount⟩ := ih (k + 1) hl'
        refine ⟨hfree, c :: before, after, rfl, ?_⟩
        rw [List.count_cons_of_ne hc, hcount]

/-- Later places lie in later lines. -/
theorem lineAt_le_lineAt (t : Text) {i j : Nat} (h : i ≤ j) : t.lineAt i ≤ t.lineAt j := by
  rw [lineAt_eq, lineAt_eq]
  exact Nat.succ_le_succ ((List.take_prefix_take_left h).sublist.count_le _)

/-- What is put behind a text does not change the lines of its places. -/
theorem lineAt_append {i : Nat} (h : i ≤ t.length) (more : Text) :
    (t ++ more).lineAt i = t.lineAt i := by
  rw [lineAt_eq, lineAt_eq, List.take_append_of_le_length h]

/-- Two texts that begin alike have the same lines up to there. -/
theorem lineAt_transfer {t' start : Text} (hstart : start <+: t) (hstart' : start <+: t')
    {i : Nat} (h : i ≤ start.length) : t.lineAt i = t'.lineAt i := by
  obtain ⟨more, rfl⟩ := hstart
  obtain ⟨more', rfl⟩ := hstart'
  rw [lineAt_append h, lineAt_append h]

/-- **The first line that holds a needle** is the line of its first place. -/
theorem FirstFrom.firstLine? (h : FirstFrom needle t 0 index) (hne : needle ≠ [])
    (hneedle : CodePoint.lineFeed ∉ needle) :
    firstLine? needle.occursIn t.lines = some (t.lineAt index) := by
  rw [firstLine?_eq_some_iff]
  constructor
  · obtain ⟨l, hl, hinfix⟩ := isLine_lineAt_of_prefix h.occurs hne hneedle
    exact ⟨l, hl, (occursIn_iff needle l).mpr hinfix⟩
  · intro n hn l hl
    -- an occurrence in an earlier line would be an earlier one
    rw [← Bool.not_eq_true, occursIn_iff]
    rintro ⟨left, right, rfl⟩
    obtain ⟨hfree, before, after, ht, hcount⟩ := hl.exists_append
    have hplace : needle <+: t.drop (before ++ left).length := by
      have ht' : t = before ++ left ++ (needle ++ (right ++ after)) := by
        rw [ht]
        simp only [List.append_assoc]
      rw [ht', List.drop_left]
      exact List.prefix_append _ _
    have hline : t.lineAt (before ++ left).length = n := by
      have htake : t.take (before ++ left).length = before ++ left := by
        rw [ht, List.append_assoc, List.append_assoc, List.append_assoc, ← List.append_assoc,
          List.take_left]
      have hleft : left.count CodePoint.lineFeed = 0 := by
        rw [List.count_eq_zero]
        exact fun hmem => hfree (List.mem_append_left _ (List.mem_append_left _ hmem))
      rw [lineAt_eq, htake, List.count_append, hleft]
      omega
    have hle := t.lineAt_le_lineAt (h.least _ (Nat.zero_le _) hplace)
    omega

/-- No line holds a needle that does not occur. -/
theorem firstLine?_occursIn_eq_none_iff (hne : needle ≠ [])
    (hneedle : CodePoint.lineFeed ∉ needle) :
    firstLine? needle.occursIn t.lines = none ↔ ¬ needle <:+: t := by
  constructor
  · intro hnone hinfix
    obtain ⟨i, hi⟩ := infix_iff_exists_drop.mp hinfix
    obtain ⟨first, -, hfirst⟩ := exists_firstFrom (Nat.zero_le i) hi
    rw [hfirst.firstLine? hne hneedle] at hnone
    cases hnone
  · intro hnot
    rw [firstLine?_eq_none_iff]
    intro l hl
    rw [← Bool.not_eq_true, occursIn_iff]
    intro hpart
    -- a line is a part of the text, and so is what stands in it
    obtain ⟨k, hk⟩ := List.getElem?_of_mem hl
    have hline : t.IsLine (k + 1) l := ⟨Nat.succ_pos k, hk⟩
    obtain ⟨-, before, after, rfl, -⟩ := hline.exists_append
    exact hnot (hpart.trans ⟨before, after, rfl⟩)

end StepCheck.Text
