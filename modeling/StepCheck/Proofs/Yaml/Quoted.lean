import StepCheck.Yaml.Scalar
import StepCheck.Yaml.Token.Quoted
import Mathlib

/-!
# Reading quoted scalars piece by piece

What is read of a quoted scalar depends on what follows, since blanks before a line break are lost
and a quote may be the first of two. `Gives` says what a piece is read as before a given rest; it
goes together with what the rest is read as (`Gives.append`), so every kind of piece has one lemma.

* `Gives` — what a piece is read as;
* `Gives.char`, `Gives.blanks`, `Gives.breaks` — characters, blanks and line breaks;
* `read_quote` — the last quote.
-/

namespace StepCheck.Yaml.Quoted

/-- The text `s` before `rest` is read as `v`, and the reading goes on with `rest`. -/
def Gives (quote : CodePoint) (s v rest : Text) : Prop :=
  read quote (s ++ rest)
    = (read quote rest).map fun p => ⟨v ++ p.value, s.length + p.length⟩

variable {quote c : CodePoint} {s s' v v' rest : Text}

/-- What is empty gives what is empty. -/
theorem Gives.nil : Gives quote [] [] rest := by
  unfold Gives
  cases h : read quote rest <;> simp [h, Except.map]

/-- Two parts give what each of them does. -/
theorem Gives.append (h : Gives quote s v (s' ++ rest)) (h' : Gives quote s' v' rest) :
    Gives quote (s ++ s') (v ++ v') rest := by
  unfold Gives at *
  rw [List.append_assoc, h, h']
  cases read quote rest <;> simp [Except.map, Nat.add_assoc]

/-- What has been read is only counted. -/
private theorem readFrom_length (quote : CodePoint) (s rest : Text) :
    readFrom quote s.length (s ++ rest)
      = (read quote rest).map fun p => ⟨p.value, s.length + p.length⟩ := by
  induction s with
  | nil =>
    simp only [List.length_nil, List.nil_append, Nat.zero_add]
    unfold read
    cases h : readFrom quote 0 rest <;> simp [Except.map]
  | cons c s ih =>
    simp only [List.length_cons, List.cons_append, readFrom, ih]
    cases read quote rest <;> simp [Except.map, bind, Except.bind, pure, Except.pure]; omega

/-- What is read at once is read so wherever it stands. -/
theorem Gives.of_next? (hs : s ≠ []) (h : next? quote (s ++ rest) = .ok (some ⟨v, s.length⟩)) :
    Gives quote s v rest := by
  obtain ⟨c, s, rfl⟩ := List.exists_cons_of_ne_nil hs
  unfold Gives read
  simp only [List.cons_append] at h ⊢
  rw [readFrom, h]
  simp only [List.length_cons]
  change (readFrom quote s.length (s ++ rest) >>= _) = _
  rw [readFrom_length]
  unfold read
  cases readFrom quote 0 rest <;> simp [Except.map, bind, Except.bind, pure, Except.pure]; omega

/-! ### Blanks and line breaks -/

/-- Behind blanks, if there are any, stands something else than a line break. -/
def Solid (t : Text) : Prop := ∃ c rest, t.dropWhile Plain.isGap = c :: rest ∧ isBreak c = false

/-- Neither a blank nor a line break stands at the front, but something. -/
def Flush (t : Text) : Prop := ∃ c rest, t = c :: rest ∧ Plain.isGap c = false ∧ isBreak c = false

/-- What is flush is solid. -/
theorem Flush.solid (h : Flush s) : Solid s := by
  obtain ⟨c, rest, rfl, hc, hb⟩ := h
  exact ⟨c, rest, List.dropWhile_cons_of_neg (by simp [hc]), hb⟩

/-- What begins with neither a blank nor a line break is flush. -/
theorem Flush.cons (hc : Plain.isGap c = false) (hb : isBreak c = false) : Flush (c :: s) :=
  ⟨c, s, rfl, hc, hb⟩

/-- A blank before what is solid leaves it solid. -/
theorem Solid.blank (h : Solid s) : Solid (CodePoint.ofChar ' ' :: s) := by
  obtain ⟨c, rest, hs, hb⟩ := h
  refine ⟨c, rest, ?_, hb⟩
  rw [List.dropWhile_cons_of_pos (by decide), hs]

/-- Before what is solid a gap is kept as it is. -/
private theorem gap_of_solid (h : Solid s) :
    gap s = .ok ⟨s.takeWhile Plain.isGap, (s.takeWhile Plain.isGap).length⟩ := by
  obtain ⟨c, rest, hs, hb⟩ := h
  have hdrop : s.drop (s.takeWhile Plain.isGap).length = c :: rest := by
    rw [← hs]
    conv => lhs; rw [← List.takeWhile_append_dropWhile (p := Plain.isGap) (l := s)]
    rw [List.drop_left' (by rw [List.takeWhile_append_dropWhile])]
  simp [gap, hdrop, hb, pure, Except.pure]

/-- A break is no blank. -/
private theorem isGap_of_isBreak (h : isBreak c = true) : Plain.isGap c = false := by
  rw [Bool.eq_false_iff]
  intro hg
  obtain rfl | rfl : c = CodePoint.ofChar ' ' ∨ c = CodePoint.ofChar '\t' := by
    simpa [Plain.isGap] using hg
  all_goals exact absurd h (by decide)

/-- The characters between which scalars are written. -/
def IsQuote (quote : CodePoint) : Prop :=
  quote = CodePoint.ofChar '\'' ∨ quote = CodePoint.ofChar '"'

/-- At a blank or a break, a gap is read. -/
private theorem next?_gap (hq : IsQuote quote) (h : (Plain.isGap c || isBreak c) = true) :
    next? quote (c :: s) = (gap (c :: s)).map some := by
  have hne : c ≠ quote := by
    rintro rfl
    rcases hq with rfl | rfl <;> exact absurd h (by decide)
  have hne' : c ≠ CodePoint.ofChar '\\' := by
    rintro rfl
    exact absurd h (by decide)
  rw [next?, if_neg hne, if_neg (fun h => hne' h.1), if_pos h]

/-- **A blank** before what is no line break. -/
theorem Gives.blank (hq : IsQuote quote) (h : Solid rest) :
    Gives quote [CodePoint.ofChar ' '] [CodePoint.ofChar ' '] rest := by
  set b := rest.takeWhile Plain.isGap with hb
  set r := rest.dropWhile Plain.isGap with hr
  have hrest : rest = b ++ r := List.takeWhile_append_dropWhile.symm
  -- blanks are read as one gap, but they were written one by one: with this one before the others
  -- the gap gives all of them, and so do the others without it
  have hall : Gives quote (CodePoint.ofChar ' ' :: b) (CodePoint.ofChar ' ' :: b) r := by
    refine Gives.of_next? (List.cons_ne_nil _ _) ?_
    rw [List.cons_append, ← hrest, next?_gap hq (by decide), gap_of_solid h.blank,
      List.takeWhile_cons_of_pos (by decide)]
    rfl
  have htail : Gives quote b b r := by
    rcases hcase : b with _ | ⟨c, b'⟩
    · exact Gives.nil
    · refine Gives.of_next? (List.cons_ne_nil _ _) ?_
      have hc : Plain.isGap c = true := by
        have hmem : c ∈ b := by rw [hcase]; exact List.mem_cons_self
        exact List.mem_takeWhile_imp hmem
      rw [← hcase, ← hrest]
      conv => lhs; rw [hrest, hcase]
      rw [List.cons_append, next?_gap hq (by simp [hc]), ← List.cons_append, ← hcase, ← hrest,
        gap_of_solid h]
      rfl
  unfold Gives at *
  rw [List.singleton_append]
  conv => lhs; rw [hrest, ← List.cons_append, hall]
  conv => rhs; rw [hrest, htail]
  cases read quote r <;> simp [Except.map]
  omega

/-- **Blanks** before what is no line break. -/
theorem Gives.blanks (hq : IsQuote quote) (h : Solid rest) (n : Nat) :
    Gives quote (List.replicate n (CodePoint.ofChar ' ')) (List.replicate n (CodePoint.ofChar ' '))
      rest := by
  induction n with
  | zero => exact Gives.nil
  | succ n ih =>
    rw [List.replicate_succ, ← List.singleton_append]
    refine Gives.append (Gives.blank hq ?_) ih
    clear ih
    induction n with
    | zero => exact h
    | succ n ih => rw [List.replicate_succ]; exact ih.blank

/-- Blanks at the start of a line are passed. -/
private theorem breaks_blanks (h : Flush rest) (n : Nat) :
    breaks false (List.replicate n (CodePoint.ofChar ' ') ++ rest) = .ok ⟨[], n⟩ := by
  induction n with
  | zero =>
    obtain ⟨c, t, rfl, hc, hb⟩ := h
    simp [breaks, hc, hb, pure, Except.pure]
  | succ n ih =>
    have hgap : Plain.isGap (CodePoint.ofChar ' ') = true := by decide
    rw [List.replicate_succ, List.cons_append, breaks]
    simp [hgap, ih, bind, Except.bind, pure, Except.pure]

/-- No mark of a document begins with a blank or a break. -/
private theorem not_isDocumentMarker (h : (Plain.isGap c || isBreak c) = true) :
    isDocumentMarker (c :: s) = false := by
  have h1 : c ≠ CodePoint.ofChar '-' := by rintro rfl; exact absurd h (by decide)
  have h2 : c ≠ CodePoint.ofChar '.' := by rintro rfl; exact absurd h (by decide)
  simp [isDocumentMarker, Style.hasMarker, Text.ofString, h1.symm, h2.symm]

/-- Several line breaks are told apart, up to the indentation behind the last one. -/
theorem breaks_append {bs : Text} (hbs : ∀ c ∈ bs, isBreak c = true) (h : Flush rest)
    (n : Nat) :
    breaks true (bs ++ List.replicate (n + 1) (CodePoint.ofChar ' ') ++ rest)
      = .ok ⟨bs.flatMap breakText, bs.length + (n + 1)⟩ := by
  induction bs with
  | nil =>
    have hgap : Plain.isGap (CodePoint.ofChar ' ') = true := by decide
    rw [List.nil_append, List.replicate_succ, List.cons_append, breaks,
      not_isDocumentMarker (by decide), breaks_blanks h]
    simp [hgap, bind, Except.bind, pure, Except.pure]
  | cons c bs ih =>
    have hc : isBreak c = true := hbs c List.mem_cons_self
    have hg : Plain.isGap c = false := isGap_of_isBreak hc
    rw [List.cons_append, List.cons_append, breaks, not_isDocumentMarker (by simp [hc]),
      ih fun c hc => hbs c (List.mem_cons_of_mem _ hc)]
    simp [hg, hc, bind, Except.bind, pure, Except.pure]
    omega

/-- What line breaks between quotes are read as. -/
def joined : Text → Text
  | [] => []
  | c :: bs =>
    if breakText c ≠ [CodePoint.lineFeed] then breakText c ++ bs.flatMap breakText
    else if (bs.flatMap breakText).isEmpty then " "
    else bs.flatMap breakText

/-- **Line breaks** with indentation. -/
theorem Gives.breaks {bs : Text} (hq : IsQuote quote) (hne : bs ≠ [])
    (hbs : ∀ c ∈ bs, isBreak c = true) (h : Flush rest) {n : Nat} (hn : 0 < n) :
    Gives quote (bs ++ List.replicate n (CodePoint.ofChar ' ')) (joined bs) rest := by
  obtain ⟨n, rfl⟩ := Nat.exists_eq_add_of_lt hn
  rw [Nat.zero_add]
  obtain ⟨c, bs, rfl⟩ := List.exists_cons_of_ne_nil hne
  have hc : isBreak c = true := hbs c List.mem_cons_self
  have hg : Plain.isGap c = false := isGap_of_isBreak hc
  refine Gives.of_next? (by simp) ?_
  rw [List.cons_append, List.cons_append, next?_gap hq (by simp [hc]), gap]
  rw [List.takeWhile_cons_of_neg (by simp [hg])]
  simp only [List.length_nil, List.drop_zero, hc, if_true]
  -- the breaks are read together, and the indentation of the last line is lost
  rw [breaks_append (fun c hc => hbs c (List.mem_cons_of_mem _ hc)) h]
  simp only [joined, bind, Except.bind, pure, Except.pure, Except.map, List.length_cons,
    List.length_append, List.length_replicate, Nat.zero_add]
  congr 3
  omega

/-- **A character** that is nothing else. -/
theorem Gives.char (hc : c ≠ quote) (hb : quote = CodePoint.ofChar '"' → c ≠ CodePoint.ofChar '\\')
    (hg : Plain.isGap c = false) (hbr : isBreak c = false) : Gives quote [c] [c] rest := by
  refine Gives.of_next? (List.cons_ne_nil _ _) ?_
  rw [List.singleton_append, next?, if_neg hc, if_neg (fun h => hb h.2 h.1),
    if_neg (by simp [hg, hbr])]
  rfl

/-- The last quote ends the scalar, unless the reader takes it for the first of two. -/
theorem read_quote (h : quote = CodePoint.ofChar '\'' → rest.head? ≠ some quote) :
    read quote (quote :: rest) = .ok ⟨[], 1⟩ := by
  have : next? quote (quote :: rest) = .ok none := by
    rw [next?, if_pos rfl, if_neg (fun h' => h h'.1 h'.2)]
  simp [read, readFrom, this, bind, Except.bind, pure, Except.pure]

end StepCheck.Yaml.Quoted
