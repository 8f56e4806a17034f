import StepCheck.Proofs.Yaml.Runs
import StepCheck.Yaml.Token.Unquoted

/-!
# Reading plain scalars back

A plain scalar is written as words with blanks between them, of which some have become line breaks.
The reader goes on from word to word, and stops at the line break behind the last one, since the
next line begins too far left.

* `IsWord`, `IsPlain` — words, and the runs of a text that can stand plainly;
* `isPlain_of` — where the characters of a text allow for the plain style, its runs are such;
* `read_plain`, `read_word`, `read_key` — what is read back.
-/

namespace StepCheck.Yaml.Unquoted

open Scalar

variable {c : CodePoint} {w t rest more : Text} {i indent : Nat} {x : Context}

/-- A text as it stands in a plain scalar between two gaps. -/
structure IsWord (w : Text) : Prop where
  ne_nil : w ≠ []
  noSeparator : ∀ c ∈ w, isSeparator c = false
  /-- A colon at the end would be an indicator. -/
  getLast? : w.getLast? ≠ some (CodePoint.ofChar ':')
  /-- A number sign at the front would begin a comment. -/
  head? : w.head? ≠ some (CodePoint.ofChar '#')

/-- A word goes on up to what ends it. -/
theorem word_append (hw : ∀ c ∈ w, isSeparator c = false)
    (hlast : w.getLast? ≠ some (CodePoint.ofChar ':')) (hrest : isEnd false rest = true) :
    word false (w ++ rest) = w := by
  induction w with
  | nil =>
    cases rest with
    | nil => rfl
    | cons c rest => rw [List.nil_append, word, if_pos hrest]
  | cons c w ih =>
    have hsep := hw c List.mem_cons_self
    have hend : isEnd false (c :: (w ++ rest)) = false := by
      -- a colon ends the word only before a separator, and then it would be the last of the word
      have hcolon : c = CodePoint.ofChar ':' → colonEnds false (w ++ rest) = false := by
        rintro rfl
        rcases w with _ | ⟨d, w⟩
        · exact absurd rfl hlast
        · simp [colonEnds, hw d (by simp)]
      simpa [isEnd, hsep] using hcolon
    rw [List.cons_append, word, if_neg (by simp [hend]),
      ih (fun d hd => hw d (List.mem_cons_of_mem _ hd))]
    rcases w with _ | ⟨d, w⟩
    · simp
    · simpa using hlast

/-! ### Gaps -/

/-- Something that is no blank, no line break and no comment. -/
def Starts (t : Text) : Prop :=
  ∀ c ∈ t.head?, c ≠ CodePoint.ofChar ' ' ∧ isBreak c = false

/-- Blanks within a line are a gap that gives them. -/
theorem gap_blanks (n : Nat) (h : Starts rest) (hne : rest ≠ []) :
    Gap.of (List.replicate n (CodePoint.ofChar ' ') ++ rest)
      = ⟨List.replicate n (CodePoint.ofChar ' '), n, false, 0⟩ := by
  obtain ⟨c, rest, rfl⟩ := List.exists_cons_of_ne_nil hne
  obtain ⟨hblank, hbreak⟩ := h c rfl
  have htake : (List.replicate n (CodePoint.ofChar ' ') ++ c :: rest).takeWhile
      (· = CodePoint.ofChar ' ') = List.replicate n (CodePoint.ofChar ' ') := by
    rw [List.takeWhile_append_of_pos (by simp), List.takeWhile_cons_of_neg (by simpa using hblank),
      List.append_nil]
  simp [Gap.of, htake, hbreak]

/-- Blanks at the start of a line are passed. -/
private theorem breaks_blanks (h : Starts rest) (column n : Nat) :
    breaks column (List.replicate n (CodePoint.ofChar ' ') ++ rest)
      = (some [], n, column + n) := by
  induction n generalizing column with
  | zero =>
    rcases rest with _ | ⟨c, rest⟩
    · rfl
    · obtain ⟨hblank, hbreak⟩ := h c rfl
      simp [breaks, hblank, hbreak]
  | succ n ih =>
    rw [List.replicate_succ, List.cons_append, breaks, if_pos rfl, ih]
    simp [Nat.add_assoc, Nat.add_comm 1]

/-- A line break with indentation is read as a blank. -/
theorem gap_newline (h : Starts rest)
    (hmarker : isDocumentMarker (List.replicate i (CodePoint.ofChar ' ') ++ rest) = false) :
    Gap.of (Scalar.newline i ++ rest) = ⟨[CodePoint.ofChar ' '], i + 1, true, i⟩ := by
  have hbreak : isBreak (CodePoint.ofChar '\n') = true := by decide
  have hblank : CodePoint.ofChar '\n' ≠ CodePoint.ofChar ' ' := by decide
  have htext : breakText (CodePoint.ofChar '\n') = [CodePoint.lineFeed] := rfl
  have hbreaks := breaks_blanks h 0 i
  simp [Gap.of, Scalar.newline, hblank, hbreak, hmarker, hbreaks, htext, Text.ofString,
    Nat.add_comm]

/-! ### Scalars -/

/-- What has been read is only counted. -/
private theorem readFrom_length (x : Context) (gap : Gap) (s rest : Text) :
    readFrom x s.length gap (s ++ rest)
      = { readFrom x 0 gap rest with length := s.length + (readFrom x 0 gap rest).length } := by
  induction s with
  | nil => simp
  | cons c s ih =>
    simp only [List.length_cons, List.cons_append]
    rw [readFrom, ih]
    simp
    omega

/-- A word behind which the scalar does not go on. -/
theorem readFrom_word (hw : IsWord w) (hrest : isEnd false rest = true) (hx : x.inner = false)
    (gap : Gap) (hgap : goesOn x (Gap.of rest) (rest.drop (Gap.of rest).length) = false) :
    readFrom x 0 gap (w ++ rest)
      = ⟨gap.value ++ w, w.length + (Gap.of rest).length, (Gap.of rest).breaksLine⟩ := by
  obtain ⟨c, v, rfl⟩ := List.exists_cons_of_ne_nil hw.ne_nil
  have hword : word x.inner (c :: v ++ rest) = c :: v := by
    rw [hx]
    exact word_append hw.noSeparator hw.getLast? hrest
  have hhash : c ≠ CodePoint.ofChar '#' := fun h => hw.head? (h ▸ rfl)
  rw [List.cons_append] at hword ⊢
  rw [readFrom, hword]
  simp [hhash, hgap]

/-- A word behind which the scalar goes on. -/
theorem readFrom_word_append (hw : IsWord w) {s : Text} (hrest : isEnd false (s ++ rest) = true)
    (hx : x.inner = false) (gap : Gap) {next : Gap} (hnext : Gap.of (s ++ rest) = next)
    (hlength : next.length = s.length) (hgap : goesOn x next rest = true) :
    readFrom x 0 gap (w ++ (s ++ rest))
      = ⟨gap.value ++ w ++ (readFrom x 0 next rest).value,
          w.length + s.length + (readFrom x 0 next rest).length,
          (readFrom x 0 next rest).breaksLine⟩ := by
  obtain ⟨c, v, rfl⟩ := List.exists_cons_of_ne_nil hw.ne_nil
  have hword : word x.inner (c :: v ++ (s ++ rest)) = c :: v := by
    rw [hx]
    exact word_append hw.noSeparator hw.getLast? hrest
  have hhash : c ≠ CodePoint.ofChar '#' := fun h => hw.head? (h ▸ rfl)
  -- the word is passed at once, and the gap behind it
  have hskip := readFrom_length x next (v ++ s) rest
  rw [List.append_assoc, List.length_append] at hskip
  rw [List.cons_append] at hword ⊢
  rw [readFrom, hword]
  simp only [hhash, List.isEmpty_cons, Bool.false_eq_true, or_self, if_false, List.length_cons,
    List.drop_succ_cons, List.drop_left, hnext, hlength, hgap, if_true,
    show v.length + 1 + s.length - 1 = v.length + s.length by omega, hskip]
  simp only [Reading.mk.injEq, and_true, true_and]
  omega

/-- **The runs of a text that can stand plainly**: words with blanks between them. -/
inductive IsPlain : List Run → Prop
  | word {w : Text} : IsWord w → IsPlain [.words w]
  | cons {w : Text} {n : Nat} {runs : List Run} :
      IsWord w → 0 < n → IsPlain runs → IsPlain (.words w :: .blanks n :: runs)

/-- A word begins with something that is neither a separator nor a number sign. -/
private theorem IsWord.exists_cons (hw : IsWord w) :
    ∃ c s, w = c :: s ∧ isSeparator c = false ∧ c ≠ CodePoint.ofChar '#' := by
  obtain ⟨c, v, rfl⟩ := List.exists_cons_of_ne_nil hw.ne_nil
  exact ⟨c, v, rfl, hw.noSeparator c List.mem_cons_self, fun h => hw.head? (h ▸ rfl)⟩

/-- A plain text begins with something that is neither a separator nor a number sign, wherever it is
folded. -/
theorem IsPlain.exists_cons {runs : List Run} (h : IsPlain runs) (indent : Nat)
    (atStart : Bool) (column : Nat) :
    ∃ c s, folded indent id atStart column runs = c :: s ∧ isSeparator c = false
      ∧ c ≠ CodePoint.ofChar '#' := by
  cases h with
  | word hw =>
    obtain ⟨c, v, rfl, hc⟩ := hw.exists_cons
    exact ⟨c, _, rfl, hc⟩
  | cons hw hn h =>
    obtain ⟨c, v, rfl, hc⟩ := hw.exists_cons
    exact ⟨c, _, rfl, hc⟩

/-- The first word of a text stands at the front of what is written, before a gap in both. -/
theorem IsPlain.exists_word {runs : List Run} (h : IsPlain runs) (indent : Nat) (atStart : Bool)
    (column : Nat) :
    ∃ w r r', w ≠ [] ∧ runs.flatMap Run.text = w ++ r ∧ Style.endsHere r = true
      ∧ folded indent id atStart column runs = w ++ r' ∧ (r' = [] ∨ ∃ c s, r' = c :: s
        ∧ Yaml.isSeparator c = true) := by
  cases h with
  | @word w hw =>
    refine ⟨w, [], [], hw.ne_nil, ?_, rfl, ?_, .inl rfl⟩
    · simp [Run.text]
    · simp [folded]
  | @cons w n runs hw hn h =>
    obtain ⟨n, rfl⟩ := Nat.exists_eq_add_of_lt hn
    refine ⟨w, _, _, hw.ne_nil, rfl, rfl, rfl, .inr ?_⟩
    rw [folded]
    split
    · exact ⟨_, _, rfl, by decide⟩
    · exact ⟨_, _, rfl, by decide⟩

/-- A text that begins with no separator starts with neither a blank nor a line break. -/
theorem Starts.of_isSeparator (h : isSeparator c = false) : Starts (c :: rest) := by
  rintro _ ⟨⟩
  simp only [isSeparator, Bool.or_eq_false_iff, decide_eq_false_iff_not] at h
  exact ⟨h.1.1.1.2, h.1.1.1.1⟩

/-- **Between two words** stand blanks or a line break with indentation, which are both read as the
blanks of the text. -/
private theorem IsPlain.exists_gap {runs : List Run} (h : IsPlain runs) (hn : 0 < n)
    (hindent : 0 < indent) (column : Nat) (tail : Text) :
    ∃ s column' next, folded indent id false column (.blanks n :: runs)
        = s ++ folded indent id false column' runs
      ∧ (∃ d s', s = d :: s' ∧ isSeparator d = true)
      ∧ Gap.of (s ++ (folded indent id false column' runs ++ tail)) = next
      ∧ next.length = s.length ∧ next.value = List.replicate n (CodePoint.ofChar ' ')
      ∧ (next.breaksLine = true → next.column = indent) := by
  rw [folded]
  split
  · -- the line is folded at the blank, and the fold gives the blank
    next hfold =>
    obtain ⟨c, s, hs, hsep, -⟩ := h.exists_cons indent false indent
    refine ⟨Scalar.newline indent, indent, _, rfl, ⟨_, _, rfl, by decide⟩, gap_newline ?_ ?_,
      ?_, ?_, fun _ => rfl⟩
    · rw [hs]
      exact Starts.of_isSeparator hsep
    · obtain ⟨k, rfl⟩ := Nat.exists_eq_add_of_lt hindent
      rfl
    · simp [Scalar.newline]
    · simp [hfold.1]
  · -- otherwise the blanks stay as they are
    obtain ⟨c, s, hs, hsep, -⟩ := h.exists_cons indent false (column + n)
    obtain ⟨k, rfl⟩ := Nat.exists_eq_add_of_lt hn
    refine ⟨_, _, _, rfl, ⟨_, _, rfl, by decide⟩, gap_blanks _ ?_ ?_, ?_, rfl,
      fun h => absurd h Bool.false_ne_true⟩
    · rw [hs]
      exact Starts.of_isSeparator hsep
    · rw [hs]
      exact List.cons_ne_nil _ _
    · rw [List.length_replicate]

/-- The runs are read back as their text, up to a line that begins too far left. -/
theorem IsPlain.readFrom {runs : List Run} (h : IsPlain runs) (hx : x.inner = false)
    (hindent : x.indent ≤ indent) (hi : (i : Int) < x.indent) (hmore : Starts more)
    (hmarker : isDocumentMarker (List.replicate i (CodePoint.ofChar ' ') ++ more) = false)
    (gap : Gap) (atStart : Bool) (column : Nat) :
    readFrom x 0 gap (folded indent id atStart column runs ++ (Scalar.newline i ++ more))
      = ⟨gap.value ++ runs.flatMap Run.text,
          (folded indent id atStart column runs).length + (i + 1), true⟩ := by
  induction h generalizing gap atStart column with
  | word hw =>
    have hlast := gap_newline hmore hmarker
    have hend : isEnd false (Scalar.newline i ++ more) = true := rfl
    have hread := readFrom_word hw hend hx gap (by
      rw [hlast]
      simp [goesOn, hx, hi])
    rw [hlast] at hread
    simpa [folded, Run.text] using hread
  | @cons w n runs hw hn h ih =>
    obtain ⟨s, column', next, hs, ⟨d, s', rfl, hd⟩, hgap, hlength, hvalue, hcolumn⟩ :=
      h.exists_gap hn (by omega : 0 < indent) (column + w.length) (Scalar.newline i ++ more)
    obtain ⟨c, v, hv, -, hhash⟩ := h.exists_cons indent false column'
    -- a line break is followed by the indentation, so the scalar goes on behind it
    have hgoes : goesOn x next (folded indent id false column' runs ++ (Scalar.newline i ++ more))
        = true := by
      obtain ⟨k, rfl⟩ := Nat.exists_eq_add_of_lt hn
      have hline : next.breaksLine = false ∨ x.indent ≤ next.column := by
        cases hb : next.breaksLine with
        | false => exact .inl rfl
        | true => exact .inr (by rw [hcolumn hb]; exact hindent)
      rw [hv]
      simp [goesOn, hvalue, hhash, hx, List.replicate_succ]
      exact hline
    have hend : isEnd false (d :: s' ++ (folded indent id false column' runs
        ++ (Scalar.newline i ++ more))) = true := by
      simp [isEnd, hd]
    have hread := readFrom_word_append hw hend hx gap hgap hlength hgoes
    rw [ih] at hread
    have hfolded : folded indent id atStart column (.words w :: .blanks n :: runs)
        = w ++ (d :: s' ++ folded indent id false column' runs) := by
      rw [folded, ← hs]
      rfl
    rw [hfolded, List.append_assoc, List.append_assoc, hread, hvalue]
    simp [Run.text]
    omega

/-! ### Texts that can stand plainly -/

/-- A word before blanks or the end, in a text without inner indicators. -/
private theorem isWord_of {b : Bool} {s : Text} (hne : w ≠ [])
    (hw : ∀ c ∈ w, Yaml.isSeparator c = false) (hs : Style.endsHere s = true)
    (hhash : b = true ∨ w.head? ≠ some (CodePoint.ofChar '#'))
    (h : Style.hasInnerIndicator b (w ++ s) = false) :
    IsWord w ∧ Style.hasInnerIndicator false s = false := by
  -- on the word: whether a hash may follow depends on the character before, so it is generalised
  have key : ∀ (w : Text) (b : Bool), w ≠ [] → (∀ c ∈ w, Yaml.isSeparator c = false) →
      Style.hasInnerIndicator b (w ++ s) = false →
      w.getLast? ≠ some (CodePoint.ofChar ':') ∧ Style.hasInnerIndicator false s = false := by
    intro w
    induction w with
    | nil => exact fun b hne => absurd rfl hne
    | cons c w ih =>
      intro b _ hw h
      simp only [List.cons_append, Style.hasInnerIndicator, Bool.or_eq_false_iff] at h
      obtain ⟨⟨hcolon, -⟩, htail⟩ := h
      rw [hw c List.mem_cons_self] at htail
      rcases w with _ | ⟨d, w⟩
      · refine ⟨?_, htail⟩
        rintro ⟨⟩
        rw [List.nil_append, hs] at hcolon
        exact absurd hcolon (by decide)
      · have := ih false (List.cons_ne_nil _ _) (fun d hd => hw d (List.mem_cons_of_mem _ hd)) htail
        rwa [List.getLast?_cons_cons]
  obtain ⟨hlast, hrest⟩ := key w b hne hw h
  refine ⟨⟨hne, hw, hlast, ?_⟩, hrest⟩
  rcases hhash with rfl | hhash
  · obtain ⟨c, w, rfl⟩ := List.exists_cons_of_ne_nil hne
    rintro ⟨⟩
    simp only [List.cons_append, Style.hasInnerIndicator, Bool.or_eq_false_iff] at h
    exact absurd h.1.2 (by decide)
  · exact hhash

/-- There is no indicator behind blanks, if there is none from their start. -/
private theorem hasInnerIndicator_blanks {b : Bool} {n : Nat} {s : Text} (hn : 0 < n)
    (h : Style.hasInnerIndicator b (List.replicate n (CodePoint.ofChar ' ') ++ s) = false) :
    Style.hasInnerIndicator true s = false := by
  obtain ⟨n, rfl⟩ := Nat.exists_eq_add_of_lt hn
  have hblank : Yaml.isSeparator (CodePoint.ofChar ' ') = true := by decide
  rw [Nat.zero_add] at h
  induction n generalizing b with
  | zero =>
    simp only [List.replicate_succ, List.replicate_zero, List.cons_append, List.nil_append,
      Style.hasInnerIndicator, Bool.or_eq_false_iff, hblank] at h
    exact h.2
  | succ n ih =>
    rw [List.replicate_succ, List.cons_append, Style.hasInnerIndicator, Bool.or_eq_false_iff] at h
    exact ih (by omega) h.2

/-- Of what is not special, only blanks and line breaks separate. -/
private theorem isSeparator_of {c : CodePoint} (hspecial : isSpecial c = false)
    (hbreak : isBreak c = false) (hblank : c ≠ CodePoint.ofChar ' ') :
    Yaml.isSeparator c = false := by
  have htab : c ≠ CodePoint.ofChar '\t' := by rintro rfl; exact absurd hspecial (by decide)
  have hreturn : c ≠ CodePoint.ofChar '\r' := by rintro rfl; exact absurd hspecial (by decide)
  have hnull : c.val ≠ 0 := by
    intro h
    obtain rfl : c = ⟨0, by decide⟩ := CodePoint.ext h
    exact absurd hspecial (by decide)
  simp [isSeparator, hbreak, hblank, htab, hreturn, hnull]

/-- A run without line breaks holds words or blanks. -/
private theorem isWords_or_blanks {r : Run} (hproper : r.Proper)
    (hbreak : ∀ c ∈ r.text, isBreak c = false) : r.isWords = true ∨ ∃ n, r = .blanks (n + 1) := by
  cases r with
  | words w => exact .inl rfl
  | blanks n =>
    obtain ⟨k, rfl⟩ := Nat.exists_eq_add_of_lt hproper
    exact .inr ⟨k, by rw [Nat.zero_add]⟩
  | breaks b =>
    obtain ⟨c, b, rfl⟩ := List.exists_cons_of_ne_nil hproper.1
    have hc := hbreak c List.mem_cons_self
    rw [hproper.2 c List.mem_cons_self] at hc
    exact absurd hc (by decide)

/-- The runs of a text without inner indicators, where words come first and last. -/
private theorem isPlain_of_runs : ∀ (b : Bool) (runs : List Run), (∀ r ∈ runs, r.Proper) →
    runs.IsChain Run.Apart →
    (∀ r ∈ runs, ∀ c ∈ r.text, isSpecial c = false ∧ isBreak c = false) →
    (∃ r ∈ runs.head?, r.isWords = true) → (∃ r ∈ runs.getLast?, r.isWords = true) →
    (b = true ∨ (runs.flatMap Run.text).head? ≠ some (CodePoint.ofChar '#')) →
    Style.hasInnerIndicator b (runs.flatMap Run.text) = false → IsPlain runs
  | b, .words w :: runs, hproper, hapart, hchars, _, hlast, hhash, hind => by
    obtain ⟨hne, hw⟩ : w ≠ [] ∧ ∀ c ∈ w, c ≠ CodePoint.ofChar ' ' ∧ isBreak c = false :=
      hproper _ List.mem_cons_self
    have hsep : ∀ c ∈ w, Yaml.isSeparator c = false := fun c hc =>
      isSeparator_of (hchars _ List.mem_cons_self c hc).1 (hw c hc).2 (hw c hc).1
    have hhash' : b = true ∨ w.head? ≠ some (CodePoint.ofChar '#') := by
      refine hhash.imp_right fun h => ?_
      change (w ++ runs.flatMap Run.text).head? ≠ _ at h
      rwa [List.head?_append_of_ne_nil _ hne] at h
    rw [List.flatMap_cons] at hind
    rcases runs with _ | ⟨r, runs⟩
    · exact .word (isWord_of hne hsep (s := []) rfl hhash' hind).1
    · -- blanks follow, and another word follows these: breaks were ruled out, and the last run is a
      -- word
      obtain ⟨hwr, hapart⟩ := List.isChain_cons_cons.mp hapart
      have hmem : r ∈ .words w :: r :: runs := List.mem_cons_of_mem _ List.mem_cons_self
      rcases isWords_or_blanks (hproper r hmem) fun c hc => (hchars r hmem c hc).2 with
        hwords | ⟨n, rfl⟩
      · rw [Run.Apart, hwords] at hwr
        exact absurd hwr (by simp [Run.isWords])
      · obtain ⟨hword, hind'⟩ := isWord_of hne hsep rfl hhash' hind
        rcases runs with _ | ⟨s, runs⟩
        · obtain ⟨r, hr, hwords⟩ := hlast
          rw [List.getLast?_cons_cons, List.getLast?_singleton, Option.mem_some] at hr
          subst hr
          exact absurd hwords (by simp [Run.isWords])
        · have hs : s.isWords = true := by
            have := (List.isChain_cons_cons.mp hapart).1
            simpa [Run.Apart, Run.isWords] using this
          refine .cons hword n.succ_pos (isPlain_of_runs true (s :: runs)
            (fun r hr => hproper r (List.mem_cons_of_mem _ (List.mem_cons_of_mem _ hr)))
            hapart.tail
            (fun r hr => hchars r (List.mem_cons_of_mem _ (List.mem_cons_of_mem _ hr)))
            ⟨s, rfl, hs⟩ ?_ (.inl rfl) (hasInnerIndicator_blanks n.succ_pos hind'))
          rwa [List.getLast?_cons_cons, List.getLast?_cons_cons] at hlast
  | _, .blanks n :: _, _, _, _, hwords, _, _, _ => by
    -- the first run is a word
    obtain ⟨_, ⟨⟩, h⟩ := hwords
    exact absurd h (by simp [Run.isWords])
  | _, .breaks b :: _, _, _, _, hwords, _, _, _ => by
    obtain ⟨_, ⟨⟩, h⟩ := hwords
    exact absurd h (by simp [Run.isWords])
  | _, [], _, _, _, hwords, _, _, _ => by
    obtain ⟨_, ⟨⟩, _⟩ := hwords

/-- Where there is no line break, there are no blanks next to one. -/
private theorem noBreaks (h : ∀ c ∈ t, isBreak c = false) :
    Style.hasBlankAfterBreak t = false ∧ Style.hasBlankBeforeBreak t = false := by
  induction t with
  | nil => exact ⟨rfl, rfl⟩
  | cons c t ih =>
    obtain ⟨ihafter, ihbefore⟩ := ih fun c hc => h c (List.mem_cons_of_mem _ hc)
    rcases t with _ | ⟨d, t⟩
    · exact ⟨rfl, rfl⟩
    · simp [Style.hasBlankAfterBreak, Style.hasBlankBeforeBreak, ihafter, ihbefore, h c (by simp),
        h d (by simp)]

/-- **A text that can stand plainly** consists of words with blanks between them. -/
theorem isPlain_of (h : Style.allowsPlain t = true) : IsPlain (Run.of t) := by
  simp only [Style.allowsPlain, Bool.and_eq_true, Bool.not_eq_true', List.isEmpty_eq_false_iff] at h
  obtain ⟨⟨⟨⟨⟨⟨⟨hne, -⟩, hlead⟩, hinner⟩, hfirst⟩, hlast⟩, hbreak⟩, hspecial⟩ := h
  rw [List.any_eq_false] at hbreak hspecial
  have hchars : ∀ c ∈ t, isSpecial c = false ∧ isBreak c = false := fun c hc =>
    ⟨by simpa using hspecial c hc, by simpa using hbreak c hc⟩
  have hmem : ∀ r ∈ Run.of t, ∀ c ∈ r.text, c ∈ t := by
    intro r hr c hc
    rw [← Run.flatMap_text_of t]
    exact List.mem_flatMap.mpr ⟨r, hr, hc⟩
  have hwords : ∀ r ∈ Run.of t, r.isWords = true ∨ ∃ n, r = .blanks (n + 1) := fun r hr =>
    isWords_or_blanks (Run.proper_of t r hr) fun c hc => (hchars c (hmem r hr c hc)).2
  have hruns : Run.of t ≠ [] := by
    intro hnil
    have := Run.flatMap_text_of t
    rw [hnil] at this
    exact hne this.symm
  obtain ⟨hafter, hbefore⟩ := noBreaks (fun c hc => (hchars c hc).2)
  refine isPlain_of_runs false (Run.of t) (Run.proper_of t) (Run.isChain_of hafter hbefore)
    (fun r hr c hc => hchars c (hmem r hr c hc)) ?_ ?_ ?_ ?_
  · -- blanks at the front would be lost
    obtain ⟨r, runs, hr⟩ := List.exists_cons_of_ne_nil hruns
    refine ⟨r, by rw [hr]; rfl, ?_⟩
    refine (hwords r (by rw [hr]; exact List.mem_cons_self)).resolve_right ?_
    rintro ⟨n, rfl⟩
    have ht := Run.flatMap_text_of t
    rw [hr] at ht
    rw [← ht] at hfirst
    exact Bool.noConfusion hfirst
  · -- and so would blanks at the end
    obtain ⟨runs, r, hr⟩ := (List.eq_nil_or_concat' (Run.of t)).resolve_left hruns
    refine ⟨r, by rw [hr]; simp, ?_⟩
    refine (hwords r (by rw [hr]; simp)).resolve_right ?_
    rintro ⟨n, rfl⟩
    have ht := Run.flatMap_text_of t
    rw [hr] at ht
    rw [← ht] at hlast
    simp [Run.text, List.replicate_succ', Style.isLostAtEnd] at hlast
  · refine .inr ?_
    rw [Run.flatMap_text_of]
    obtain ⟨c, s, rfl⟩ := List.exists_cons_of_ne_nil hne
    rintro ⟨⟩
    have hsign : leadingIndicators.contains (CodePoint.ofChar '#') = true := by decide
    simp only [Style.hasLeadingIndicator, hsign, Bool.true_or] at hlead
    exact Bool.noConfusion hlead
  · rw [Run.flatMap_text_of]
    obtain ⟨c, s, rfl⟩ := List.exists_cons_of_ne_nil hne
    obtain ⟨hspecial, hbreak⟩ := hchars c List.mem_cons_self
    have hblank : c ≠ CodePoint.ofChar ' ' := by
      rintro rfl
      exact Bool.noConfusion hfirst
    rw [Style.hasInnerIndicator, isSeparator_of hspecial hbreak hblank]
    rw [List.drop_one, List.tail_cons] at hinner
    rw [hinner]
    have hcolon : (decide (c = CodePoint.ofChar ':') && Style.endsHere s) = false := by
      simp only [Style.hasLeadingIndicator, Bool.or_eq_false_iff, Bool.and_eq_false_iff] at hlead
      rcases hlead.2 with h | h
      · rw [h.1.2, Bool.false_and]
      · rw [h, Bool.and_false]
    rw [hcolon, Bool.and_false]
    rfl

/-! ### What is read -/

section Read

variable (hx : x.inner = false) (hi : (i : Int) < x.indent) (hmore : Starts more)
  (hmarker : isDocumentMarker (List.replicate i (CodePoint.ofChar ' ') ++ more) = false)
include hx

/-- **A key** ends before its colon. -/
theorem read_key (hw : IsWord w) (hrest : Style.endsHere rest = true) :
    read x (w ++ CodePoint.ofChar ':' :: rest) = ⟨w, w.length, false⟩ := by
  have hend : isEnd false (CodePoint.ofChar ':' :: rest) = true := by
    have hcolon : colonEnds false rest = true := by
      cases rest with
      | nil => rfl
      | cons c rest => simpa [colonEnds, Style.endsHere] using hrest
    simp [isEnd, hcolon]
  have hgap : Gap.of (CodePoint.ofChar ':' :: rest) = ⟨[], 0, false, 0⟩ := by
    have hbreak : isBreak (CodePoint.ofChar ':') = false := by decide
    have hblank : CodePoint.ofChar ':' ≠ CodePoint.ofChar ' ' := by decide
    simp [Gap.of, hblank, hbreak]
  have hread := readFrom_word hw hend hx Gap.none (by rw [hgap]; rfl)
  rw [hgap] at hread
  exact hread

include hi hmore hmarker

/-- **A word alone**, before the next line. -/
theorem read_word (hw : IsWord w) :
    read x (w ++ (Scalar.newline i ++ more)) = ⟨w, w.length + (i + 1), true⟩ := by
  have hlast := gap_newline hmore hmarker
  have hend : isEnd false (Scalar.newline i ++ more) = true := rfl
  have hread := readFrom_word hw hend hx Gap.none (by
    rw [hlast]
    simp [goesOn, hx, hi])
  rw [hlast] at hread
  exact hread

/-- **A text in the plain style**, before the next line. -/
theorem read_plain (ht : Style.allowsPlain t = true) (place : Place)
    (hindent : x.indent ≤ place.indent) :
    read x (plain place t ++ (Scalar.newline i ++ more))
      = ⟨t, (plain place t).length + (i + 1), true⟩ := by
  have hread := (isPlain_of ht).readFrom hx hindent hi hmore hmarker Gap.none true
    place.column
  rw [Run.flatMap_text_of] at hread
  exact hread

end Read

end StepCheck.Yaml.Unquoted
