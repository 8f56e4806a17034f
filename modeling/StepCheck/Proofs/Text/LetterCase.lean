import Mathlib.Data.List.Forall2
import StepCheck.Proofs.Text.Letters

/-!
# Texts that differ in the case of letters only

Two texts may have the same letters, capital in the one and small in the other. Capitals and folded
letters do not tell them apart, and what is no letter is the same in both, so everything that is
found by either is found in both texts at the same places. Only `A` to `Z` and `a` to `z` are taken
for letters here; whatever else a text holds, the other text holds it too.

* `CodePoint.SameLetter`, `Text.SameLetters` — characters and texts that differ so;
* `Text.SameLetters.upper_eq`, `Text.SameLetters.rel_afterFolded?` — the two ways to compare letters
  do not tell them apart;
* `Text.SameLetters.lineAt_eq` — lines;
* `Text.Matcher.IgnoresCase` — matchers that do not tell such texts apart;
* `Text.Matcher.IgnoresCase.forall₂_occurrences` — what they find along the text.
-/

namespace StepCheck

/-! ### Characters -/

namespace CodePoint

variable {b c x : CodePoint}

/-- **The small letter** of a capital. -/
def IsSmallOf (small capital : CodePoint) : Prop :=
  capital.isCapital = true ∧ small.val = capital.val + 0x20

instance (small capital : CodePoint) : Decidable (small.IsSmallOf capital) :=
  inferInstanceAs (Decidable (_ ∧ _))

/-- **Characters that differ in case at most**: they are equal, or one is the small letter of the
other. -/
def SameLetter (b c : CodePoint) : Prop := b = c ∨ b.IsSmallOf c ∨ c.IsSmallOf b

instance (b c : CodePoint) : Decidable (b.SameLetter c) := inferInstanceAs (Decidable (_ ∨ _))

/-- **A letter**, one of `A` to `Z` and `a` to `z`. -/
def isLetter (c : CodePoint) : Bool := c.isCapital || c.isSmall

/-- The letters by their numbers. -/
theorem IsSmallOf.bounds (h : b.IsSmallOf c) :
    0x41 ≤ c.val ∧ c.val ≤ 0x5A ∧ b.val = c.val + 0x20 := by
  obtain ⟨hcapital, hval⟩ := h
  rw [isCapital_iff] at hcapital
  exact ⟨hcapital.1, hcapital.2, hval⟩

theorem IsSmallOf.isSmall (h : b.IsSmallOf c) : b.isSmall = true := by
  have hbounds := h.bounds
  rw [isSmall_iff]
  omega

/-- Two characters that are not equal are letters. -/
theorem SameLetter.eq_or_isLetter (h : b.SameLetter c) :
    b = c ∨ (b.isLetter = true ∧ c.isLetter = true) := by
  have hletters : ∀ {b c : CodePoint}, b.IsSmallOf c → b.isLetter = true ∧ c.isLetter = true := by
    intro b c h
    rw [isLetter, isLetter, h.isSmall, h.1]
    exact ⟨Bool.or_true _, Bool.true_or _⟩
  rcases h with h | h | h
  · exact .inl h
  · exact .inr (hletters h)
  · exact .inr (hletters h).symm

/-- What is the same for a capital and its small letter is the same for characters that differ in
case at most. -/
theorem SameLetter.map_eq {α : Type} {f : CodePoint → α} (h : b.SameLetter c)
    (hf : ∀ b c : CodePoint, b.IsSmallOf c → f b = f c) : f b = f c := by
  rcases h with rfl | h | h
  · rfl
  · exact hf b c h
  · exact (hf c b h).symm

/-- **Two forms of a letter** have one capital. -/
theorem SameLetter.upper_eq (h : b.SameLetter c) : b.upper = c.upper := by
  refine h.map_eq fun small capital hsmall => ?_
  obtain ⟨hlow, hhigh, hval⟩ := hsmall.bounds
  have hcapital : capital.isSmall = false := by
    rw [← Bool.not_eq_true, isSmall_iff]
    omega
  have hback : small.val - 0x20 = capital.val := by omega
  unfold upper
  rw [if_pos hsmall.isSmall, hback, ofNat_val, hcapital, if_neg Bool.false_ne_true,
    if_pos (by omega)]

/-- Two forms of a letter are alike when letters are folded. -/
theorem SameLetter.fold_eq (h : b.SameLetter c) : b.fold = c.fold := by
  refine h.map_eq fun small capital hsmall => ?_
  obtain ⟨hlow, hhigh, hval⟩ := hsmall.bounds
  have hcapital : small.isCapital = false := by
    rw [← Bool.not_eq_true, isCapital_iff]
    omega
  unfold fold
  rw [if_pos hsmall.1, hcapital, if_neg Bool.false_ne_true, if_pos (by omega), ← hval, ofNat_val]

/-- Two forms of a letter are the same white space, if they are any. -/
theorem SameLetter.isBlank_eq (h : b.SameLetter c) : b.isBlank = c.isBlank := by
  have hletters : ∀ n < 0x5B, 0x41 ≤ n →
      inRanges n blankRanges = false ∧ inRanges (n + 0x20) blankRanges = false := by
    decide
  refine h.map_eq fun small capital hsmall => ?_
  obtain ⟨hlow, hhigh, hval⟩ := hsmall.bounds
  obtain ⟨hcapital, hsmall'⟩ := hletters capital.val (by omega) hlow
  rw [isBlank, isBlank, hval, hcapital, hsmall']

/-- **What is no letter** is one of them just if it is the other. -/
theorem SameLetter.eq_iff (h : b.SameLetter c) (hx : x.isLetter = false) : b = x ↔ c = x := by
  rcases h.eq_or_isLetter with rfl | ⟨hb, hc⟩
  · exact Iff.rfl
  · refine iff_of_false ?_ ?_
    · rintro rfl
      rw [hb] at hx
      cases hx
    · rintro rfl
      rw [hc] at hx
      cases hx

end CodePoint

/-! ### Texts -/

namespace Text

/-- **Texts that differ in the case of letters only**, character by character. -/
def SameLetters (s t : Text) : Prop := List.Forall₂ CodePoint.SameLetter s t

instance (s t : Text) : Decidable (s.SameLetters t) :=
  inferInstanceAs (Decidable (List.Forall₂ _ s t))

namespace SameLetters

variable {s t : Text} {x : CodePoint}

/-- **The texts in capitals** are equal. -/
theorem upper_eq (h : s.SameLetters t) : s.upper = t.upper := by
  induction h with
  | nil => rfl
  | cons hb _ ih => rw [upper_cons, upper_cons, hb.upper_eq, ih]

/-- **A character that is no letter** is counted as often. -/
theorem count_eq (h : s.SameLetters t) (hx : x.isLetter = false) : s.count x = t.count x := by
  induction h with
  | nil => rfl
  | cons hb _ ih => simp only [List.count_cons, beq_iff_eq, hb.eq_iff hx, ih]

/-- **The line of an index** is the same. -/
theorem lineAt_eq (h : s.SameLetters t) (index : Nat) : s.lineAt index = t.lineAt index := by
  have htake : SameLetters (s.take index) (t.take index) := List.forall₂_take index h
  rw [Text.lineAt_eq, Text.lineAt_eq, htake.count_eq (by decide)]

/-- **Cutting off** what is of a class that does not tell them apart. -/
theorem span {p : CodePoint → Bool} (h : s.SameLetters t)
    (hp : ∀ b c : CodePoint, b.SameLetter c → p b = p c) :
    SameLetters (s.takeWhile p) (t.takeWhile p) ∧ SameLetters (s.dropWhile p) (t.dropWhile p) := by
  induction h with
  | nil => exact ⟨.nil, .nil⟩
  | @cons b c s t hb hs ih =>
    by_cases hc : p c = true
    · have hb' : p b = true := (hp b c hb).trans hc
      rw [List.takeWhile_cons_of_pos hb', List.takeWhile_cons_of_pos hc,
        List.dropWhile_cons_of_pos hb', List.dropWhile_cons_of_pos hc]
      exact ⟨.cons hb ih.1, ih.2⟩
    · have hb' : ¬ p b = true := by rwa [hp b c hb]
      rw [List.takeWhile_cons_of_neg hb', List.takeWhile_cons_of_neg hc,
        List.dropWhile_cons_of_neg hb', List.dropWhile_cons_of_neg hc]
      exact ⟨.nil, .cons hb hs⟩

/-- **A beginning in any letters** is found in both or in neither. -/
theorem rel_afterFolded? (h : s.SameLetters t) (start : Text) :
    Option.Rel SameLetters (afterFolded? start s) (afterFolded? start t) := by
  induction start generalizing s t with
  | nil =>
    rw [afterFolded?_nil, afterFolded?_nil]
    exact .some h
  | cons a start ih =>
    cases h with
    | nil => exact .none
    | cons hb hs =>
      rw [afterFolded?, afterFolded?, hb.fold_eq]
      split
      · exact ih hs
      · exact .none

/-- What is recognised in one text is recognised in the other. -/
theorem isSome_afterFolded? (h : s.SameLetters t) (start : Text) :
    (afterFolded? start s).isSome = (afterFolded? start t).isSome := by
  have hrel := h.rel_afterFolded? start
  generalize afterFolded? start s = rest, afterFolded? start t = rest' at hrel
  cases hrel with
  | none => rfl
  | some _ => rfl

end SameLetters

/-! ### Matchers -/

/-- **A matcher that ignores case**: of texts that differ in case only it recognises as much at the
front of either, and the texts that it gives for it differ in case only. -/
def Matcher.IgnoresCase (m : Matcher Text) : Prop :=
  ∀ s t : Text, s.SameLetters t →
    Option.Rel (fun p q => p.1.SameLetters q.1 ∧ p.2 = q.2) (m s) (m t)

variable {m : Matcher Text} {s t : Text}

/-- A run from some index on, where an earlier match still covers `skip` characters. -/
private theorem Matcher.IgnoresCase.forall₂_occurrencesFrom (hm : m.IgnoresCase)
    (h : s.SameLetters t) (index skip : Nat) :
    List.Forall₂ (fun p q => p.1 = q.1 ∧ p.2.SameLetters q.2) (occurrencesFrom m index skip s)
      (occurrencesFrom m index skip t) := by
  induction h generalizing index skip with
  | nil =>
    rw [occurrencesFrom_nil]
    exact .nil
  | @cons b c s t hb hs ih =>
    cases skip with
    | succ skip => exact ih (index + 1) skip
    | zero =>
      rw [occurrencesFrom, occurrencesFrom]
      have hfront := hm (b :: s) (c :: t) (.cons hb hs)
      generalize m (b :: s) = first, m (c :: t) = second at hfront
      cases hfront with
      | none => exact ih (index + 1) 0
      | @some p q hfound =>
        -- as much is covered in either text
        obtain ⟨x, length⟩ := p
        obtain ⟨y, length'⟩ := q
        obtain ⟨hname, rfl⟩ := hfound
        exact .cons ⟨rfl, hname⟩ (ih (index + 1) (length - 1))

/-- **Along the whole text** it finds the same at the same indices, up to the case of letters. -/
theorem Matcher.IgnoresCase.forall₂_occurrences (hm : m.IgnoresCase) (h : s.SameLetters t) :
    List.Forall₂ (fun p q => p.1 = q.1 ∧ p.2.SameLetters q.2) (s.occurrences m) (t.occurrences m) :=
  hm.forall₂_occurrencesFrom h 0 0

end Text

end StepCheck
