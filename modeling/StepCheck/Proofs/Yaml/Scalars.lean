import StepCheck.Proofs.Yaml.Quoted
import StepCheck.Proofs.Yaml.Runs
import StepCheck.Proofs.Text.Numeral

/-!
# Reading quoted scalars back

Between double quotes every text is read back as it is. Between single quotes all of it is but for
the line breaks, of which the reader knows only three: U+0085 is read as a line feed, or as a blank
where it stands alone, although it may be written there.

* `Scalar.readBack` — what a text in the style that it needs is read back as;
* `Scalar.read_single`, `Scalar.read_double` — what the reader makes of a quoted scalar;
* `Scalar.readBack_eq_self_iff` — which texts are read back as they are.
-/

namespace StepCheck.Yaml.Scalar

open Quoted

/-- What line breaks written between single quotes are read as. -/
def breaksRead (b : Text) : Text :=
  joined (if b.head? = some (CodePoint.ofChar '\n') then CodePoint.ofChar '\n' :: b else b)

/-- What a run between single quotes is read as. -/
def Run.readBack : Run → Text
  | .breaks b => breaksRead b
  | r => r.text

private abbrev apostrophe : CodePoint := CodePoint.ofChar '\''

variable {t rest : Text} {indent : Nat}

/-- A line that is folded gives a blank. -/
theorem gives_newline {quote : CodePoint} (hq : IsQuote quote) (h : Flush rest) (hi : 0 < indent) :
    Gives quote (newline indent) [CodePoint.ofChar ' '] rest :=
  Gives.breaks hq (List.cons_ne_nil CodePoint.lineFeed []) (by decide) h hi

/-- What is not special is no tabulator. -/
private theorem isGap_of_isSpecial {c : CodePoint} (h : isSpecial c = false)
    (hblank : c ≠ CodePoint.ofChar ' ') : Plain.isGap c = false := by
  have htab : c ≠ CodePoint.ofChar '\t' := by
    rintro rfl
    exact absurd h (by decide)
  simp [Plain.isGap, hblank, htab]

/-- Words between single quotes give themselves. -/
private theorem gives_doubled (ht : ∀ c ∈ t, c ≠ CodePoint.ofChar ' ' ∧ isBreak c = false)
    (hs : ∀ c ∈ t, isSpecial c = false) (rest : Text) :
    Gives apostrophe (doubled t) t rest := by
  induction t with
  | nil => exact Gives.nil
  | cons c t ih =>
    obtain ⟨hblank, hbreak⟩ := ht c List.mem_cons_self
    have hgap := isGap_of_isSpecial (hs c List.mem_cons_self) hblank
    specialize ih (fun c hc => ht c (List.mem_cons_of_mem _ hc))
      fun c hc => hs c (List.mem_cons_of_mem _ hc)
    refine Gives.append (s := if c = apostrophe then [c, c] else [c]) (v := [c]) ?_ ih
    split
    · next hc =>
      subst hc
      exact Gives.of_next? (List.cons_ne_nil _ _) rfl
    · next hc => exact Gives.char hc (fun h => absurd h (by decide)) hgap hbreak

/-- What is written begins with neither a blank nor a line break if words or nothing come first. -/
private theorem flush_folded {runs : List Run} (hproper : ∀ r ∈ runs, r.Proper)
    (hspecial : ∀ c ∈ runs.flatMap Run.text, isSpecial c = false)
    (hwords : ∀ r ∈ runs.head?, r.isWords = true) (atStart : Bool) (column : Nat) :
    Flush (folded indent doubled atStart column runs ++ apostrophe :: rest) := by
  rcases runs with _ | ⟨r, runs⟩
  · exact Flush.cons (by decide) (by decide)
  · cases r with
    | words t =>
      obtain ⟨hne, ht⟩ : t ≠ [] ∧ ∀ c ∈ t, c ≠ CodePoint.ofChar ' ' ∧ isBreak c = false :=
        hproper _ List.mem_cons_self
      obtain ⟨c, t, rfl⟩ := List.exists_cons_of_ne_nil hne
      obtain ⟨hblank, hbreak⟩ := ht c List.mem_cons_self
      have hgap := isGap_of_isSpecial (hspecial c (by simp [Run.text])) hblank
      -- doubling leaves the first character as it is
      have hdoubled : ∃ s, doubled (c :: t) = c :: s := by
        unfold doubled
        rw [List.flatMap_cons]
        split <;> exact ⟨_, rfl⟩
      obtain ⟨s, hs⟩ := hdoubled
      simp only [folded, hs, List.cons_append]
      exact Flush.cons hgap hbreak
    | blanks n => exact absurd (hwords _ rfl) (by simp [Run.isWords])
    | breaks b => exact absurd (hwords _ rfl) (by simp [Run.isWords])

/-- **What is folded between single quotes** gives its runs as they come back. -/
private theorem gives_folded {runs : List Run} (hproper : ∀ r ∈ runs, r.Proper)
    (hspecial : ∀ c ∈ runs.flatMap Run.text, isSpecial c = false)
    (hapart : runs.IsChain Run.Apart) (hi : 0 < indent) (atStart : Bool) (column : Nat) :
    Gives apostrophe (folded indent doubled atStart column runs) (runs.flatMap Run.readBack)
      (apostrophe :: rest) := by
  have hq : IsQuote apostrophe := .inl rfl
  induction runs generalizing atStart column with
  | nil => exact Gives.nil
  | cons r runs ih =>
    have hproper' : ∀ r ∈ runs, r.Proper := fun r hr => hproper r (List.mem_cons_of_mem _ hr)
    have hspecial' : ∀ c ∈ runs.flatMap Run.text, isSpecial c = false := fun c hc =>
      hspecial c (by rw [List.flatMap_cons]; exact List.mem_append_right _ hc)
    specialize ih hproper' hspecial' hapart.tail
    rw [List.flatMap_cons]
    -- behind blanks and line breaks there are words, or nothing
    have hflush : r.isWords = false → ∀ atStart column,
        Flush (folded indent doubled atStart column runs ++ apostrophe :: rest) := by
      refine fun hr => flush_folded hproper' hspecial' ?_
      rcases runs with _ | ⟨s, runs⟩
      · exact fun r hr => absurd hr (by simp)
      · have hrs : r.isWords = !s.isWords := (List.isChain_cons_cons.mp hapart).1
        rintro _ ⟨⟩
        simpa [hr] using hrs
    cases r with
    | words t =>
      have ht : ∀ c ∈ t, c ≠ CodePoint.ofChar ' ' ∧ isBreak c = false :=
        (hproper _ List.mem_cons_self).2
      exact Gives.append (gives_doubled ht (fun c hc => hspecial c (by simp [Run.text, hc])) _)
        (ih _ _)
    | blanks n =>
      rw [folded]
      split
      · next hn =>
        obtain ⟨rfl, -⟩ := hn
        exact Gives.append (gives_newline hq (hflush rfl _ _) hi) (ih _ _)
      · exact Gives.append (Gives.blanks hq (hflush rfl _ _).solid n) (ih _ _)
    | breaks b =>
      obtain ⟨hne, hb⟩ : b ≠ [] ∧ ∀ c ∈ b, isBreak c = true := hproper _ List.mem_cons_self
      refine Gives.append ?_ (ih _ _)
      unfold writtenBreaks
      change Gives _ _ (breaksRead b) _
      unfold breaksRead
      split
      · exact Gives.breaks hq (List.cons_ne_nil (CodePoint.ofChar '\n') b)
          (by simpa using ⟨by decide, hb⟩) (hflush rfl _ _) hi
      · exact Gives.breaks hq hne hb (hflush rfl _ _) hi

/-- **Between single quotes** a text is read back run by run. -/
theorem read_single {t : Text} (ht : Style.allowsSingle t = true) (place : Place)
    (hi : 0 < place.indent) (hrest : rest.head? ≠ some apostrophe) :
    ∃ s, single place t = apostrophe :: s
      ∧ Quoted.read apostrophe (s ++ rest) = .ok ⟨(Run.of t).flatMap Run.readBack, s.length⟩ := by
  obtain ⟨⟨hafter, hbefore⟩, hspecial⟩ : (Style.hasBlankAfterBreak t = false
      ∧ Style.hasBlankBeforeBreak t = false) ∧ ∀ c ∈ t, isSpecial c = false := by
    simpa [Style.allowsSingle] using ht
  have hgives : Gives apostrophe (folded place.indent doubled true (place.column + 1) (Run.of t))
      ((Run.of t).flatMap Run.readBack) (apostrophe :: rest) :=
    gives_folded (Run.proper_of t) (by rwa [Run.flatMap_text_of])
      (Run.isChain_of hafter hbefore) hi true (place.column + 1)
  refine ⟨folded place.indent doubled true (place.column + 1) (Run.of t) ++ [apostrophe], rfl, ?_⟩
  unfold Gives at hgives
  rw [read_quote fun _ => hrest] at hgives
  rw [List.append_assoc, List.singleton_append, hgives]
  simp [Except.map]

/-! ### Double quotes -/

private abbrev quotation : CodePoint := CodePoint.ofChar '"'

private abbrev backslash : CodePoint := CodePoint.ofChar '\\'

/-- A backslash and what the escape behind it stands for. -/
private theorem gives_escape' {e v : Text} (h : Quoted.escape (e ++ rest) = .ok ⟨v, e.length⟩) :
    Gives quotation (backslash :: e) v rest := by
  refine Gives.of_next? (List.cons_ne_nil _ _) ?_
  rw [List.cons_append, next?, if_neg (by decide), if_pos ⟨rfl, rfl⟩, h]
  rfl

/-- An escape with a number of fixed width stands for the character. -/
private theorem gives_numberEscape (letter : CodePoint) {width : Nat} {c : CodePoint} {rest : Text}
    (hletter : lookup? Quoted.letterEscapes letter = none)
    (hnumber : lookup? numberEscapes letter = some width)
    (hwidth : 0 < width) (hc : c.val < 16 ^ width) :
    Gives quotation (backslash :: letter :: capitalHex width c.val) [c] rest := by
  refine gives_escape' ?_
  have hlength : (capitalHex width c.val).length = width := by
    rw [capitalHex, Text.asciiCapitals, List.length_map, Text.length_hex hwidth hc]
  have hdigit : ∀ k < 16, (fun c : CodePoint =>
      (if c.isSmall then CodePoint.ofNat (c.val - 0x20) else c).isHexDigit = true)
      (CodePoint.ofChar k.digitChar) := by
    decide
  -- as many hexadecimal digits as the letter asks for, and they are those of the code point
  have hdigits : (capitalHex width c.val).all CodePoint.isHexDigit = true := by
    rw [List.all_eq_true]
    intro d hd
    obtain ⟨e, he, rfl⟩ := List.mem_map.mp hd
    obtain ⟨k, hk, rfl⟩ := Text.mem_hex he
    exact hdigit k hk
  have hnumeral : Text.numeral 16 (capitalHex width c.val) = c.val :=
    Text.numeral_asciiCapitals_hex _ _
  have hpoint : CodePoint.ofNat? c.val = some c := by
    simp [CodePoint.ofNat?, c.valid]
  rw [List.cons_append, Quoted.escape, hletter, hnumber]
  simp [List.take_left' hlength, hlength, hdigits, hnumeral, hpoint]

/-- Every escape gives its character. -/
theorem gives_escape (c : CodePoint) (rest : Text) : Gives quotation (escape c) [c] rest := by
  unfold escape
  split
  · next letter hletter =>
    refine gives_escape' ?_
    have hread : ∀ e ∈ letterEscapes,
        lookup? Quoted.letterEscapes (CodePoint.ofChar e.2) = some e.1 := by
      decide
    have hmem : (c.val, letter) ∈ letterEscapes := mem_of_lookup_eq_some hletter
    simp [Quoted.escape, hread _ hmem]
  · -- otherwise the shortest of the three escapes that is long enough
    split_ifs with h2 h4
    · exact gives_numberEscape (CodePoint.ofChar 'x') (by decide) (by decide) (by decide) h2
    · exact gives_numberEscape (CodePoint.ofChar 'u') (by decide) (by decide) (by decide) h4
    · refine gives_numberEscape (CodePoint.ofChar 'U') (by decide) (by decide) (by decide) ?_
      exact Nat.lt_trans c.valid (by decide)

/-- A line break behind a backslash stands for nothing. -/
private theorem gives_continuation (hi : 0 < indent) (h : Flush rest) :
    Gives quotation (backslash :: newline indent) [] rest := by
  refine gives_escape' ?_
  obtain ⟨n, rfl⟩ := Nat.exists_eq_add_of_lt hi
  have hbreaks := breaks_append (by simp : ∀ c ∈ ([] : Text), isBreak c = true) h n
  rw [List.nil_append] at hbreaks
  rw [newline, List.cons_append, Quoted.escape, show lookup? Quoted.letterEscapes
    (CodePoint.ofChar '\n') = none by decide, show lookup? numberEscapes
    (CodePoint.ofChar '\n') = none by decide]
  simp only [show isBreak (CodePoint.ofChar '\n') = true by decide, if_true, Nat.zero_add, hbreaks]
  simp [bind, Except.bind, pure, Except.pure]

/-- A blank at the start of a line is escaped to be kept. -/
private theorem gives_blankEscape (rest : Text) :
    Gives quotation [backslash, CodePoint.ofChar ' '] [CodePoint.ofChar ' '] rest :=
  gives_escape' (by
    rw [List.singleton_append, Quoted.escape, show lookup? Quoted.letterEscapes
      (CodePoint.ofChar ' ') = some 0x20 by decide]
    rfl)

/-- What stands plainly between double quotes has no meaning there. -/
private theorem of_standsPlainly {c : CodePoint} (h : standsPlainly c = true)
    (hblank : c ≠ CodePoint.ofChar ' ') :
    c ≠ quotation ∧ c ≠ backslash ∧ Plain.isGap c = false ∧ isBreak c = false := by
  refine ⟨?_, ?_, ?_, ?_⟩
  · rintro rfl; exact absurd h (by decide)
  · rintro rfl; exact absurd h (by decide)
  · have htab : c ≠ CodePoint.ofChar '\t' := by
      rintro rfl
      exact absurd h (by decide)
    simp [Plain.isGap, hblank, htab]
  · -- breaks lie outside the ranges of such characters
    rw [Bool.eq_false_iff]
    intro hb
    obtain ⟨n, hn⟩ := c
    simp only [isBreak, standsPlainly, CodePoint.ofChar, CodePoint.mk.injEq, Bool.or_eq_true,
      Bool.and_eq_true, decide_eq_true_eq, beq_iff_eq, bne_iff_ne] at hb h
    have : '\n'.toNat = 10 := rfl
    omega

/-- An escape begins with a backslash, which is flush. -/
private theorem flush_escape (c : CodePoint) (s : Text) : Flush (escape c ++ s) := by
  have h : ∃ e, escape c = backslash :: e := by
    unfold escape
    split
    · exact ⟨_, rfl⟩
    · split_ifs <;> exact ⟨_, rfl⟩
  obtain ⟨e, he⟩ := h
  rw [he]
  exact Flush.cons (by decide) (by decide)

/-- What is written begins with neither a blank nor a line break if the text does not. -/
private theorem flush_doubleQuoted {t : Text} (ht : t.head? ≠ some (CodePoint.ofChar ' '))
    (indent : Nat) (atStart : Bool) (column pending : Nat) (rest : Text) :
    Flush (doubleQuoted indent atStart column pending t ++ quotation :: rest) := by
  rcases t with _ | ⟨c, t⟩
  · exact Flush.cons (by decide) (by decide)
  · have hblank : c ≠ CodePoint.ofChar ' ' := fun h => ht (h ▸ rfl)
    rw [doubleQuoted]
    split
    · next hc =>
      -- it stands for itself, or behind the fold of the line
      obtain ⟨-, -, hgap, hbreak⟩ := of_standsPlainly hc hblank
      split
      · exact Flush.cons (by decide) (by decide)
      · exact Flush.cons hgap hbreak
    · dsimp only
      split
      · rw [List.append_assoc, List.append_assoc]
        exact flush_escape _ _
      · rw [List.append_assoc]
        exact flush_escape _ _

/-- Behind blanks something comes that is no line break. -/
private theorem solid_doubleQuoted (t : Text) (indent : Nat) (atStart : Bool)
    (column pending : Nat) (rest : Text) :
    Solid (doubleQuoted indent atStart column pending t ++ quotation :: rest) := by
  induction t generalizing atStart column pending with
  | nil => exact (flush_doubleQuoted (by simp) ..).solid
  | cons c t ih =>
    by_cases hc : c = CodePoint.ofChar ' '
    · subst hc
      rw [doubleQuoted, if_pos (by decide)]
      split
      · exact (Flush.cons (by decide) (by decide)).solid
      · exact (ih ..).blank
    · exact (flush_doubleQuoted (by simpa using hc) ..).solid

/-- Behind a line break a blank is written with a backslash, and read without it. -/
private theorem gives_continuation_blank (hi : 0 < indent) (t : Text) {s v : Text}
    (h : Gives quotation s v rest) :
    Gives quotation (continuation indent (CodePoint.ofChar ' ' :: t) ++ CodePoint.ofChar ' ' :: s)
      (CodePoint.ofChar ' ' :: v) rest := by
  have hparts : continuation indent (CodePoint.ofChar ' ' :: t) ++ CodePoint.ofChar ' ' :: s
      = (backslash :: newline indent) ++ ([backslash, CodePoint.ofChar ' '] ++ s) := by
    simp [continuation, Text.ofString]
  rw [hparts]
  have hblank : Gives quotation ([backslash, CodePoint.ofChar ' '] ++ s)
      ([CodePoint.ofChar ' '] ++ v) rest := (gives_blankEscape _).append h
  exact (gives_continuation hi (Flush.cons (by decide) (by decide))).append hblank

/-- Anything else goes on behind a line break as it is. -/
private theorem gives_continuation_append (hi : 0 < indent) {next : Text}
    (hnext : next.head? ≠ some (CodePoint.ofChar ' ')) {s v : Text} (hflush : Flush (s ++ rest))
    (h : Gives quotation s v rest) : Gives quotation (continuation indent next ++ s) v rest := by
  have hcont : continuation indent next = backslash :: newline indent := by
    simp [continuation, hnext, Text.ofString]
  rw [hcont]
  exact (gives_continuation hi hflush).append h

/-- **What stands between double quotes** gives the text, wherever lines are folded. -/
private theorem gives_doubleQuoted (hi : 0 < indent) (hwidth : indent < width) (t rest : Text)
    (atStart : Bool) (column pending : Nat) :
    Gives quotation (doubleQuoted indent atStart column pending t) t (quotation :: rest) := by
  have hq : IsQuote quotation := .inr rfl
  -- two characters at once where an escape and a blank stand on either side of a line break
  induction hn : t.length using Nat.strongRecOn generalizing t atStart column pending with
  | ind n ih =>
    rcases t with _ | ⟨c, t⟩
    · exact Gives.nil
    · have htail : ∀ atStart column pending,
          Gives quotation (doubleQuoted indent atStart column pending t) t (quotation :: rest) :=
        fun _ _ _ => ih t.length (by rw [← hn, List.length_cons]; omega) t _ _ _ rfl
      rw [doubleQuoted]
      split
      · next hc =>
        by_cases hblank : c = CodePoint.ofChar ' '
        · subst hblank
          split
          · exact gives_continuation_blank hi t (htail ..)
          · exact Gives.append (Gives.blank hq (solid_doubleQuoted ..)) (htail ..)
        · obtain ⟨hquote, hbackslash, hgap, hbreak⟩ := of_standsPlainly hc hblank
          have hchar : ∀ s, Gives quotation s t (quotation :: rest) →
              Gives quotation (c :: s) (c :: t) (quotation :: rest) := fun s =>
            (Gives.char hquote (fun _ => hbackslash) hgap hbreak).append
          split
          · exact gives_continuation_append hi (by simpa using hblank) (Flush.cons hgap hbreak)
              (hchar _ (htail ..))
          · exact hchar _ (htail ..)
      · dsimp only
        split
        · rw [List.append_assoc]
          refine Gives.append (v := [c]) (gives_escape _ _) ?_
          by_cases hblank : t.head? = some (CodePoint.ofChar ' ')
          · -- the blank gets a backslash, and the line has room for it
            obtain ⟨t, rfl⟩ := List.head?_eq_some_iff.mp hblank
            have hcolumn : continuationColumn indent (CodePoint.ofChar ' ' :: t) = indent + 1 := rfl
            have hnext : doubleQuoted indent false (indent + 1) 0 (CodePoint.ofChar ' ' :: t)
                = CodePoint.ofChar ' ' :: doubleQuoted indent false (indent + 1) 1 t := by
              rw [doubleQuoted, if_pos (by decide), if_neg (by rintro ⟨-, -, h⟩; omega)]
            rw [hcolumn, hnext]
            refine gives_continuation_blank hi t ?_
            exact ih t.length (by simp only [List.length_cons] at hn; omega) t _ _ _ rfl
          · exact gives_continuation_append hi hblank (flush_doubleQuoted hblank ..) (htail ..)
        · exact Gives.append (v := [c]) (gives_escape _ _) (htail ..)

/-- **Between double quotes** every text is read back. -/
theorem read_double (t : Text) (place : Place) (hi : 0 < place.indent)
    (hwidth : place.indent < width) (rest : Text) :
    ∃ s, double place t = quotation :: s
      ∧ Quoted.read quotation (s ++ rest) = .ok ⟨t, s.length⟩ := by
  have hgives := gives_doubleQuoted hi hwidth t rest true (place.column + 1) 0
  refine ⟨doubleQuoted place.indent true (place.column + 1) 0 t ++ [quotation], rfl, ?_⟩
  unfold Gives at hgives
  rw [read_quote fun h => absurd h (by decide)] at hgives
  rw [List.append_assoc, List.singleton_append, hgives]
  simp [Except.map]

/-! ### What is read back -/

/-- **What a text is read back as.** Only what is written between single quotes can change. -/
def readBack (t : Text) : Text :=
  match Style.of t with
  | .single => (Run.of t).flatMap Run.readBack
  | _ => t

/-- The character U+0085, a line break that is read as another one. -/
def nextLine : CodePoint := ⟨0x85, by decide⟩

/-- A break other than U+0085 comes back as it is. -/
private theorem breakText_of_ne {c : CodePoint} (hc : isBreak c = true) (h : c ≠ nextLine) :
    breakText c = [c] := by
  have hval : c.val ≠ 0x85 := fun hv => h (CodePoint.ext hv)
  unfold breakText
  split
  · rfl
  · next hseparator =>
    obtain rfl : c = CodePoint.lineFeed := by
      simp only [isBreak, hval, Bool.or_eq_true, decide_eq_true_eq, beq_iff_eq] at hc hseparator
      tauto
    rfl

/-- U+0085 never comes back. -/
private theorem nextLine_notMem_breakText (c : CodePoint) : nextLine ∉ breakText c := by
  unfold breakText
  split
  · next h =>
    rintro hmem
    obtain rfl := List.mem_singleton.mp hmem
    exact absurd h (by decide)
  · decide

/-- Breaks without U+0085 come back one by one. -/
private theorem flatMap_breakText {b : Text} (hb : ∀ c ∈ b, isBreak c = true)
    (h : nextLine ∉ b) : b.flatMap breakText = b := by
  induction b with
  | nil => rfl
  | cons c b ih =>
    rw [List.flatMap_cons, breakText_of_ne (hb c List.mem_cons_self)
      (fun hc => h (hc ▸ List.mem_cons_self)), ih (fun c hc => hb c (List.mem_cons_of_mem _ hc))
      (fun hb => h (List.mem_cons_of_mem _ hb))]
    rfl

/-- A run of breaks without U+0085 comes back, also when the first of them was written twice. -/
private theorem breaksRead_eq_self {b : Text} (hb : ∀ c ∈ b, isBreak c = true)
    (h : nextLine ∉ b) : breaksRead b = b := by
  have hflat := flatMap_breakText hb h
  unfold breaksRead
  split
  · -- a line feed at the front is written twice, since one of the two is lost in reading
    next hhead =>
    obtain ⟨c, b, rfl⟩ : ∃ c s, b = c :: s :=
      List.exists_cons_of_ne_nil (by rintro rfl; cases hhead)
    have hfeed : breakText (CodePoint.ofChar '\n') = [CodePoint.lineFeed] := rfl
    simp [joined, hfeed, hflat]
  · next hhead =>
    cases b with
    | nil => rfl
    | cons c b =>
      have hc : breakText c = [c] :=
        breakText_of_ne (hb c List.mem_cons_self) (fun hc => h (hc ▸ List.mem_cons_self))
      have hne : c ≠ CodePoint.lineFeed := by
        rintro rfl
        exact hhead rfl
      rw [joined, hc, if_pos (by simpa using hne), ← hc, ← List.flatMap_cons, hflat]

/-- Where it stood, something else comes back. -/
private theorem nextLine_notMem_breaksRead (b : Text) : nextLine ∉ breaksRead b := by
  have hflat : ∀ b : Text, nextLine ∉ b.flatMap breakText := by
    intro b hmem
    obtain ⟨c, -, hc⟩ := List.mem_flatMap.mp hmem
    exact nextLine_notMem_breakText c hc
  unfold breaksRead
  generalize (if b.head? = some (CodePoint.ofChar '\n') then CodePoint.ofChar '\n' :: b else b) = b
  cases b with
  | nil => simp [joined]
  | cons c b =>
    rw [joined]
    split_ifs
    · rw [← List.flatMap_cons]
      exact hflat _
    · decide
    · exact hflat _

/-- **Exactly the texts between single quotes that hold U+0085 are not read back as they are.** -/
theorem readBack_eq_self_iff (t : Text) :
    readBack t = t ↔ ¬ (Style.of t = .single ∧ nextLine ∈ t) := by
  unfold readBack
  cases hstyle : Style.of t with
  | plain => simp
  | double => simp
  | single =>
    simp only [true_and]
    constructor
    · -- U+0085 is among the breaks of some run, and what comes back has none
      intro h hmem
      rw [← h] at hmem
      obtain ⟨r, hr, hc⟩ := List.mem_flatMap.mp hmem
      have hproper := Run.proper_of t r hr
      cases r with
      | words w => exact absurd (hproper.2 _ hc).2 (by decide)
      | blanks n => exact absurd (List.eq_of_mem_replicate hc) (by decide)
      | breaks b => exact nextLine_notMem_breaksRead b hc
    · intro h
      -- without it each run comes back as it was
      have hrun : ∀ r ∈ Run.of t, r.readBack = r.text := by
        intro r hr
        cases r with
        | words w => rfl
        | blanks n => rfl
        | breaks b =>
          refine breaksRead_eq_self (Run.proper_of t _ hr).2 fun hb => h ?_
          rw [← Run.flatMap_text_of t]
          exact List.mem_flatMap.mpr ⟨_, hr, hb⟩
      calc (Run.of t).flatMap Run.readBack
          = (Run.of t).flatMap Run.text := List.flatMap_congr hrun
        _ = t := Run.flatMap_text_of t

end StepCheck.Yaml.Scalar
