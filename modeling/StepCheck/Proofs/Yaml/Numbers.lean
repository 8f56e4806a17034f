import StepCheck.Proofs.Text.Numeral
import StepCheck.Proofs.Text.Search
import StepCheck.Proofs.Yaml.Unquoted
import StepCheck.Yaml.Printer
import StepCheck.Yaml.Value.Numeral

/-!
# Numbers read back

A scalar without quotes is read by its form, so a number must have the form of one of its kind. A
whole number is a sign with digits. A finite floating-point number is written with a point in any
case, which the form asks for.

* `kind_ofInt`, `integer_ofInt` — whole numbers are read back, unless they are too long;
* `IsPointed`, `isPointed_real` — the form of other numbers, which all finite ones have;
* `IsPointed.kind` — the form tells the kind.
-/

namespace StepCheck.Yaml

open Unquoted

variable {c : CodePoint} {t w ds rest : Text} {n : Nat}

/-! ### Digits -/

/-- What holds of the ten digits holds of every digit. -/
theorem forall_digit {p : CodePoint → Prop} (hp : ∀ k < 10, p (CodePoint.ofNat (0x30 + k)))
    (h : c.isDigit = true) : p c := by
  simp only [CodePoint.isDigit, Bool.and_eq_true, decide_eq_true_eq] at h
  have := hp (c.val - 0x30) (by omega)
  rwa [show 0x30 + (c.val - 0x30) = c.val by omega, CodePoint.ofNat_val] at this

/-- A digit is none of the characters that stand between digits. -/
private theorem ne_of_isDigit (h : c.isDigit = true) :
    c ≠ CodePoint.ofChar '-' ∧ c ≠ CodePoint.ofChar '+' ∧ c ≠ CodePoint.ofChar '.'
      ∧ c ≠ CodePoint.ofChar ':' ∧ c ≠ CodePoint.ofChar 'e' ∧ c ≠ CodePoint.ofChar '#'
      ∧ c ≠ Plain.lowLine :=
  forall_digit (p := fun c => c ≠ CodePoint.ofChar '-' ∧ c ≠ CodePoint.ofChar '+'
    ∧ c ≠ CodePoint.ofChar '.' ∧ c ≠ CodePoint.ofChar ':' ∧ c ≠ CodePoint.ofChar 'e'
    ∧ c ≠ CodePoint.ofChar '#' ∧ c ≠ Plain.lowLine) (by decide) h

/-- A digit separates nothing. -/
private theorem isSeparator_of_isDigit (h : c.isDigit = true) : isSeparator c = false :=
  forall_digit (p := fun c => isSeparator c = false) (by decide) h

/-- A text that begins with a digit or a minus sign is no word of the language. -/
private theorem contains_words (h : c.isDigit = true ∨ c = CodePoint.ofChar '-') (s : Text) :
    Plain.nullWords.contains (c :: s) = false ∧ Plain.trueWords.contains (c :: s) = false
      ∧ Plain.falseWords.contains (c :: s) = false := by
  have hwords : ∀ w ∈ Plain.nullWords ++ Plain.trueWords ++ Plain.falseWords, ∀ d ∈ w.head?,
      d.isDigit = false ∧ d ≠ CodePoint.ofChar '-' := by
    decide
  have hno : ∀ w ∈ Plain.nullWords ++ Plain.trueWords ++ Plain.falseWords, (c :: s : Text) ≠ w := by
    rintro w hw rfl
    obtain ⟨hdigit, hminus⟩ := hwords _ hw c rfl
    rcases h with h | h
    · rw [h] at hdigit
      exact Bool.noConfusion hdigit
    · exact hminus h
  refine ⟨?_, ?_, ?_⟩
  all_goals
    rw [Bool.eq_false_iff, Ne, List.contains_iff_mem]
    exact fun hmem => hno _ (by simp [hmem]) rfl

/-- Digits that make up a numeral. -/
def IsDigits (ds : Text) : Prop := ds ≠ [] ∧ ∀ c ∈ ds, c.isDigit = true

/-- The sign of a numeral. -/
def signOf (negative : Bool) : Text := if negative then [CodePoint.ofChar '-'] else []

/-- Digits begin with one. -/
theorem IsDigits.exists_cons (h : IsDigits ds) : ∃ c s, ds = c :: s ∧ c.isDigit = true := by
  obtain ⟨c, s, rfl⟩ := List.exists_cons_of_ne_nil h.1
  exact ⟨c, s, rfl, h.2 c List.mem_cons_self⟩

/-- The sign of a numeral is passed. -/
private theorem unsigned_signOf (h : IsDigits ds) (negative : Bool) (rest : Text) :
    Plain.unsigned (signOf negative ++ (ds ++ rest)) = ds ++ rest := by
  obtain ⟨c, s, rfl, hc⟩ := h.exists_cons
  obtain ⟨hminus, hplus, -⟩ := ne_of_isDigit hc
  cases negative <;> simp [signOf, Plain.unsigned, hminus, hplus]

/-- A numeral begins with a sign or a digit. -/
private theorem head_signOf (h : IsDigits ds) (negative : Bool) (rest : Text) :
    ∃ c s, signOf negative ++ (ds ++ rest) = c :: s
      ∧ (c.isDigit = true ∨ c = CodePoint.ofChar '-') := by
  obtain ⟨c, s, rfl, hc⟩ := h.exists_cons
  cases negative
  · exact ⟨c, _, rfl, .inl hc⟩
  · exact ⟨_, _, rfl, .inr rfl⟩

/-- The digits at the front of a numeral are passed. -/
private theorem dropWhile_digits (h : IsDigits ds)
    (hrest : ∀ c ∈ rest.head?, Plain.isDigitOrLine c = false) :
    (ds ++ rest).dropWhile Plain.isDigitOrLine = rest := by
  rw [List.dropWhile_append_of_pos fun c hc => by simp [Plain.isDigitOrLine, h.2 c hc]]
  cases rest with
  | nil => rfl
  | cons c rest => exact List.dropWhile_cons_of_neg (by simpa using hrest c rfl)

/-! ### Whole numbers -/

/-- A whole number is written as its sign and its digits. -/
theorem ofInt_eq (i : Int) : Text.ofInt i = signOf (i < 0) ++ (Text.ofNat i.natAbs ++ []) := by
  unfold Text.ofInt signOf
  split
  · next h => simp [h, Text.ofString]
  · next h => simp [h]

/-- A natural number is written in digits, and there is one. -/
theorem isDigits_ofNat (n : Nat) : IsDigits (Text.ofNat n) :=
  ⟨Text.ofNat_ne_nil n, fun _ => Text.isDigit_of_mem_ofNat⟩

/-- Digits are a numeral of base ten, for none of them begin with a zero but zero. -/
private theorem isInteger_ofNat (n : Nat) : Plain.isInteger (Text.ofNat n) = true := by
  have hdigits := isDigits_ofNat n
  have hzero : n ≠ 0 → (Text.ofNat n).head? ≠ some (CodePoint.ofChar '0') := Text.head?_ofNat
  have hone : n = 0 → Text.ofNat n = [CodePoint.ofChar '0'] := by rintro rfl; rfl
  generalize Text.ofNat n = ds at hdigits hzero hone
  match ds with
  | [] => exact absurd rfl hdigits.1
  | [c] => exact hdigits.2 c List.mem_cons_self
  | c :: d :: ds =>
    have hc : c ≠ CodePoint.ofChar '0' := by
      rintro rfl
      by_cases hn : n = 0
      · exact absurd (hone hn) (by simp)
      · exact hzero hn rfl
    have hall : (d :: ds).all Plain.isDigitOrLine = true := by
      rw [List.all_eq_true]
      intro e he
      simp [Plain.isDigitOrLine, hdigits.2 e (List.mem_cons_of_mem _ he)]
    rw [Plain.isInteger, if_neg hc, hall, hdigits.2 c List.mem_cons_self]
    rfl

/-- Digits alone are no number with a point. -/
private theorem isReal_digits (h : IsDigits ds) (negative : Bool) :
    Plain.isReal (signOf negative ++ (ds ++ [])) = false := by
  obtain ⟨c, s, ht, hc⟩ := head_signOf h negative []
  have hunsigned := unsigned_signOf h negative []
  have hdrop : ds.dropWhile Plain.isDigitOrLine = [] := by
    simpa using dropWhile_digits h
      (by simp : ∀ c ∈ ([] : Text).head?, Plain.isDigitOrLine c = false)
  -- without a point, a colon or an exponent none of the forms of a real number is left
  have hpoint : c ≠ CodePoint.ofChar '.' := by
    rcases hc with hc | rfl
    · exact (ne_of_isDigit hc).2.2.1
    · decide
  obtain ⟨d, r, rfl, hd⟩ := h.exists_cons
  have hd' : d ≠ CodePoint.ofChar '.' := (ne_of_isDigit hd).2.2.1
  rw [ht] at hunsigned ⊢
  rw [List.append_nil] at hunsigned
  unfold Plain.isReal
  rw [hunsigned]
  simp [hdrop, Plain.isPointed, Plain.sexagesimal?, Plain.sexagesimalGroups?, Plain.isInfinity,
    Plain.isNotANumber, Text.ofString, hpoint, hd']

/-- A whole number is written with digits and perhaps a sign. -/
private theorem mem_ofInt {i : Int} (h : c ∈ Text.ofInt i) :
    c.isDigit = true ∨ c = CodePoint.ofChar '-' := by
  rw [ofInt_eq, List.append_nil, List.mem_append] at h
  rcases h with h | h
  · unfold signOf at h
    split at h
    · exact .inr (List.mem_singleton.mp h)
    · cases h
  · exact .inl (Text.isDigit_of_mem_ofNat h)

/-- **The form of a whole number.** -/
theorem kind_ofInt (i : Int) : Plain.kind (Text.ofInt i) = .integer := by
  have hdigits := isDigits_ofNat i.natAbs
  obtain ⟨c, s, ht, hc⟩ := head_signOf hdigits (i < 0) []
  obtain ⟨hnull, htrue, hfalse⟩ := contains_words hc s
  have hreal := isReal_digits hdigits (i < 0)
  have hint : Plain.isInteger (Plain.unsigned (Text.ofInt i)) = true := by
    rw [ofInt_eq, unsigned_signOf hdigits, List.append_nil]
    exact isInteger_ofNat _
  have hfeed : CodePoint.lineFeed ∉ Text.ofInt i := fun h =>
    (mem_ofInt h).elim (fun hdigit => absurd hdigit (by decide)) (by decide)
  rw [Plain.kind_of_notMem hfeed]
  rw [ofInt_eq] at hint ⊢
  rw [ht] at hreal hint ⊢
  rw [Plain.kindOfLine, hnull, htrue, hfalse, hreal, hint]
  rfl

/-- Whole numbers are words. -/
theorem isWord_ofInt (i : Int) : IsWord (Text.ofInt i) := by
  obtain ⟨c, s, ht, hc⟩ := head_signOf (isDigits_ofNat i.natAbs) (i < 0) []
  -- a digit is no colon, no hash and no separator, and nor is the sign
  constructor
  · rw [ofInt_eq, ht]
    exact List.cons_ne_nil _ _
  · intro c hc
    rcases mem_ofInt hc with hd | rfl
    · exact isSeparator_of_isDigit hd
    · decide
  · intro h
    rcases mem_ofInt (List.mem_of_getLast? h) with hd | hd
    · exact absurd hd (by decide)
    · exact absurd hd (by decide)
  · intro h
    rcases mem_ofInt (List.mem_of_head? h) with hd | hd
    · exact absurd hd (by decide)
    · exact absurd hd (by decide)

/-- Digits of the ASCII kind are left as they are. -/
private theorem normalised_digits (h : ∀ c ∈ ds, c.isDigit = true) :
    Numeral.normalised ds = ds := by
  have hspace : ∀ c ∈ ds, Intake.isSpace c = false := fun c hc =>
    forall_digit (p := fun c => Intake.isSpace c = false) (by decide) (h c hc)
  have hdrop : ∀ t : Text, (∀ c ∈ t, Intake.isSpace c = false) →
      t.dropWhile Intake.isSpace = t := by
    intro t ht
    cases t with
    | nil => rfl
    | cons c t => exact List.dropWhile_cons_of_neg (by simp [ht c List.mem_cons_self])
  have htrim : Intake.trim ds = ds := by
    rw [Intake.trim, hdrop ds hspace, hdrop _ (by simpa using hspace), List.reverse_reverse]
  -- each of the ten digits is the one with its own value
  have hvalues : ∀ c ∈ ds, c.decimalValue?.map (fun n => CodePoint.ofNat (0x30 + n)) = some c :=
    fun c hc => forall_digit (p := fun c => c.decimalValue?.map _ = some c) (by decide +kernel)
      (h c hc)
  rw [Numeral.normalised, htrim]
  refine (List.map_congr_left (g := id) fun c hc => ?_).trans (List.map_id _)
  obtain ⟨n, hn, hvalue⟩ := Option.map_eq_some_iff.mp (hvalues c hc)
  rw [hn]
  exact hvalue

/-- The digits of a number are read as the number, unless there are too many. -/
private theorem digits_ofNat (hn : n < 10 ^ Numeral.mostDigits) :
    Numeral.digits 10 (Text.ofNat n) = .ok (n : Int) := by
  have hdigits := isDigits_ofNat n
  obtain ⟨c, s, ht, hc⟩ := hdigits.exists_cons
  obtain ⟨hminus, hplus, -⟩ := ne_of_isDigit hc
  have hsigned : Intake.signed (Text.ofNat n) = (false, Text.ofNat n) := by
    rw [ht]
    simp [Intake.signed, hminus, hplus]
  have hunmarked : Numeral.unmarked 10 (Text.ofNat n) = Text.ofNat n := by
    rw [Numeral.unmarked]
    rintro _ _ _ _ _ ⟨⟩
  have hall : (Text.ofNat n).all (Numeral.isDigitOf 10) = true := by
    rw [List.all_eq_true]
    exact fun c hc => forall_digit (p := fun c => Numeral.isDigitOf 10 c = true) (by decide)
      (hdigits.2 c hc)
  -- the reader refuses numerals of more digits than these
  have hlength : ¬ Numeral.mostDigits < (Text.ofNat n).length :=
    Nat.not_lt.mpr ((Text.length_ofNat_le_iff (by decide)).mpr hn)
  rw [Numeral.digits, normalised_digits hdigits.2, hsigned]
  simp [hunmarked, hall, hlength, Text.ofNat_ne_nil]

/-- **A whole number is read back.** -/
theorem integer_ofInt {i : Int} (hi : i.natAbs < 10 ^ Numeral.mostDigits) :
    Numeral.integer (Text.ofInt i) = .ok i := by
  have hdigits := isDigits_ofNat i.natAbs
  obtain ⟨c, s, ht, hc⟩ := hdigits.exists_cons
  obtain ⟨hminus, hplus, -, -, -, -, hline⟩ := ne_of_isDigit hc
  have hfilter : (Text.ofInt i).filter (· ≠ Plain.lowLine) = Text.ofInt i := by
    rw [List.filter_eq_self]
    intro c hc
    rw [decide_eq_true_eq]
    rcases mem_ofInt hc with hd | rfl
    · exact (ne_of_isDigit hd).2.2.2.2.2.2
    · decide
  have hunsigned : Numeral.unsigned (Text.ofInt i) = .ok (decide (i < 0), Text.ofNat i.natAbs) := by
    rw [ofInt_eq, ht]
    by_cases h : i < 0
    · simp [signOf, h, Numeral.unsigned]
    · simp [signOf, h, Numeral.unsigned, hminus, hplus]
  have hcolon : (Text.ofNat i.natAbs).contains (CodePoint.ofChar ':') = false := by
    rw [Bool.eq_false_iff, Ne, List.contains_iff_mem]
    exact fun h => absurd (hdigits.2 _ h) (by decide)
  have hsign : (if i < 0 then -(i.natAbs : Int) else i.natAbs) = i := by
    split <;> omega
  have hread := digits_ofNat hi
  unfold Numeral.integer
  rw [hfilter, hunsigned]
  -- a zero at the front would announce another base, and only zero itself has one
  by_cases hzero : i.natAbs = 0
  · obtain rfl : i = 0 := Int.natAbs_eq_zero.mp hzero
    rfl
  · have hc : c ≠ CodePoint.ofChar '0' := by
      have := Text.head?_ofNat hzero
      rw [ht] at this
      exact fun h => this (h ▸ rfl)
    rw [ht] at hread hcolon ⊢
    simp only [bind, Except.bind, hc, if_false, hcolon, Bool.false_eq_true, hread, pure,
      Except.pure, decide_eq_true_eq, hsign]

/-! ### Other numbers -/

/-- The exponent of a numeral, or nothing. -/
inductive IsExponent : Text → Prop
  | nil : IsExponent []
  | cons {sign : CodePoint} {ds : Text} :
      sign = CodePoint.ofChar '+' ∨ sign = CodePoint.ofChar '-' →
      IsDigits ds → IsExponent (CodePoint.ofChar 'e' :: sign :: ds)

/-- **The form of a number with a point**: digits before it, digits behind it, perhaps an
exponent. -/
def IsPointed (t : Text) : Prop :=
  ∃ negative whole part exponent, IsDigits whole ∧ (∀ c ∈ part, c.isDigit = true)
    ∧ IsExponent exponent
    ∧ t = signOf negative ++ (whole ++ CodePoint.ofChar '.' :: (part ++ exponent))

/-- An exponent is recognised. -/
private theorem isExponent_of (h : IsExponent t) : Plain.isExponent t = true := by
  cases h with
  | nil => rfl
  | @cons sign ds hsign hds =>
    obtain ⟨c, s, rfl, hc⟩ := hds.exists_cons
    have hall : Plain.allOf CodePoint.isDigit (c :: s) = true := by
      rw [Plain.allOf, List.all_eq_true.mpr hds.2]
      rfl
    rw [Plain.isExponent, hall]
    rcases hsign with rfl | rfl <;> rfl

/-- A number with a point is written with digits, the point, signs and an `e`. -/
private theorem IsPointed.mem (h : IsPointed t) :
    ∀ c ∈ t, c.isDigit = true ∨ c ∈ Text.ofString ".-+e" := by
  -- the parts one by one
  obtain ⟨negative, whole, part, exponent, hwhole, hpart, hexponent, rfl⟩ := h
  have hsign : ∀ c ∈ signOf negative, c.isDigit = true ∨ c ∈ Text.ofString ".-+e" := by
    cases negative <;> decide
  have hexp : ∀ c ∈ exponent, c.isDigit = true ∨ c ∈ Text.ofString ".-+e" := by
    cases hexponent with
    | nil => simp
    | @cons sign ds hs hds =>
      intro c hc
      rcases List.mem_cons.mp hc with rfl | hc
      · decide
      · rcases List.mem_cons.mp hc with rfl | hc
        · rcases hs with rfl | rfl <;> decide
        · exact .inl (hds.2 c hc)
  intro c hc
  simp only [List.mem_append, List.mem_cons] at hc
  rcases hc with hc | hc | rfl | hc | hc
  · exact hsign c hc
  · exact .inl (hwhole.2 c hc)
  · decide
  · exact .inl (hpart c hc)
  · exact hexp c hc

/-- **The form tells the kind.** -/
theorem IsPointed.kind (h : IsPointed t) : Plain.kind t = .real := by
  have hfeed : CodePoint.lineFeed ∉ t := fun hmem =>
    (h.mem _ hmem).elim (fun hdigit => absurd hdigit (by decide)) (by decide)
  rw [Plain.kind_of_notMem hfeed]
  obtain ⟨negative, whole, part, exponent, hwhole, hpart, hexponent, rfl⟩ := h
  have hunsigned := unsigned_signOf hwhole negative
    (CodePoint.ofChar '.' :: (part ++ exponent))
  have hdrop : (whole ++ CodePoint.ofChar '.' :: (part ++ exponent)).dropWhile Plain.isDigitOrLine
      = CodePoint.ofChar '.' :: (part ++ exponent) :=
    dropWhile_digits hwhole (by rintro _ ⟨⟩; decide)
  have hpart' : (part ++ exponent).dropWhile Plain.isDigitOrLine = exponent := by
    rw [List.dropWhile_append_of_pos fun c hc => by simp [Plain.isDigitOrLine, hpart c hc]]
    cases hexponent with
    | nil => rfl
    | cons => rfl
  -- the sign, the digits and the point are passed, and what is left is a fraction with an exponent
  have hreal : Plain.isReal
      (signOf negative ++ (whole ++ CodePoint.ofChar '.' :: (part ++ exponent)))
      = true := by
    obtain ⟨c, s, rfl, hc⟩ := hwhole.exists_cons
    have hstart : Plain.startsWithDigit false (c :: s ++ CodePoint.ofChar '.' :: (part ++ exponent))
        = true := by
      simp [Plain.startsWithDigit, hc]
    have hpointed : Plain.isPointed (CodePoint.ofChar '.' :: (part ++ exponent)) = true := by
      simp [Plain.isPointed, Plain.isFraction, hpart', isExponent_of hexponent]
    unfold Plain.isReal
    rw [hunsigned]
    dsimp only
    rw [hstart, hdrop, hpointed]
    rfl
  obtain ⟨c, s, ht, hc⟩ := head_signOf hwhole negative (CodePoint.ofChar '.' :: (part ++ exponent))
  rw [ht] at hreal ⊢
  obtain ⟨hnull, htrue, hfalse⟩ := contains_words hc s
  rw [Plain.kindOfLine, hnull, htrue, hfalse, hreal]
  rfl

/-- A numeral with a point is one word, as it is made of digits and a few other characters. -/
theorem IsPointed.isWord (h : IsPointed t) : IsWord t := by
  have hchars := h.mem
  obtain ⟨negative, whole, part, exponent, hwhole, hpart, hexponent, rfl⟩ := h
  have hother : ∀ c ∈ Text.ofString ".-+e", isSeparator c = false ∧ c ≠ CodePoint.ofChar ':'
      ∧ c ≠ CodePoint.ofChar '#' := by
    decide
  obtain ⟨c, s, ht, hc⟩ := head_signOf hwhole negative (CodePoint.ofChar '.' :: (part ++ exponent))
  constructor
  · rw [ht]
    exact List.cons_ne_nil _ _
  · intro c hc
    rcases hchars c hc with hd | hd
    · exact isSeparator_of_isDigit hd
    · exact (hother c hd).1
  · intro h
    rcases hchars _ (List.mem_of_getLast? h) with hd | hd
    · exact absurd hd (by decide)
    · exact absurd hd (by decide)
  · intro h
    rcases hchars _ (List.mem_of_head? h) with hd | hd
    · exact absurd hd (by decide)
    · exact absurd hd (by decide)

/-! ### The numerals that are written -/

/-- Zeros are digits. -/
private theorem isDigit_of_mem_zeros {k : Nat} (h : c ∈ List.replicate k (CodePoint.ofChar '0')) :
    c.isDigit = true := by
  rw [(List.mem_replicate.mp h).2]
  decide

/-- A digit is left when zeros at the end are taken away. -/
private theorem isDigits_withoutTrailingZeros (n : Nat) :
    IsDigits (Binary64.withoutTrailingZeros (Text.ofNat n)) := by
  unfold Binary64.withoutTrailingZeros
  split
  · exact ⟨by decide, by decide⟩
  · next h =>
    refine ⟨h, fun c hc => ?_⟩
    have hmem : c ∈ (Text.ofNat n).reverse.dropWhile (· = CodePoint.ofChar '0') :=
      List.mem_reverse.mp hc
    exact Text.isDigit_of_mem_ofNat (List.mem_reverse.mp ((List.dropWhile_subset _) hmem))

/-- The three forms of a positional numeral: -/
private theorem positional_eq (ds : Text) (point : Int) : Binary64.positional ds point =
    if point ≤ 0 then
      Text.ofString "0." ++ List.replicate (-point).toNat (CodePoint.ofChar '0') ++ ds
    else if ds.length ≤ point then
      ds ++ List.replicate (point - ds.length).toNat (CodePoint.ofChar '0') ++ Text.ofString ".0"
    else ds.take point.toNat ++ Text.ofString "." ++ ds.drop point.toNat :=
  rfl

/-- A positional numeral has the form. -/
private theorem positional_form (h : IsDigits ds) (point : Int) :
    ∃ whole part, IsDigits whole ∧ (∀ c ∈ part, c.isDigit = true)
      ∧ Binary64.positional ds point = whole ++ CodePoint.ofChar '.' :: part := by
  rw [positional_eq]
  -- the point stands before all digits, behind all of them, or among them
  split_ifs with h0 h1
  · refine ⟨[CodePoint.ofChar '0'], _, ⟨by decide, by decide⟩, ?_, rfl⟩
    intro c hc
    rcases List.mem_append.mp hc with hc | hc
    · exact isDigit_of_mem_zeros hc
    · exact h.2 c hc
  · refine ⟨ds ++ List.replicate (point - ds.length).toNat (CodePoint.ofChar '0'),
      [CodePoint.ofChar '0'], ⟨?_, ?_⟩, by decide, rfl⟩
    · simp [h.1]
    · intro c hc
      rcases List.mem_append.mp hc with hc | hc
      · exact h.2 c hc
      · exact isDigit_of_mem_zeros hc
  · refine ⟨ds.take point.toNat, ds.drop point.toNat, ⟨?_, ?_⟩, ?_, ?_⟩
    · have hne := h.1
      simp only [Ne, List.take_eq_nil_iff, not_or]
      exact ⟨by omega, hne⟩
    · exact fun c hc => h.2 c (List.mem_of_mem_take hc)
    · exact fun c hc => h.2 c (List.mem_of_mem_drop hc)
    · simp [Text.ofString]

/-- The form of a scientific numeral, part by part. -/
private theorem scientific_eq (width : Nat) (ds : Text) (point : Int) :
    Binary64.scientific width ds point =
      ds.take 1 ++ (if ds.length ≤ 1 then [] else Text.ofString "." ++ ds.drop 1)
        ++ Text.ofString "e" ++ Text.ofString (if point < 1 then "-" else "+")
        ++ List.replicate (width - (Text.ofNat (point - 1).natAbs).length) (CodePoint.ofChar '0')
        ++ Text.ofNat (point - 1).natAbs :=
  rfl

/-- A numeral with an exponent has it, once it has a point. -/
private theorem scientific_form (h : IsDigits ds) (width : Nat) (point : Int) :
    ∃ first part sign exponent, first.isDigit = true ∧ (∀ c ∈ part, c.isDigit = true)
      ∧ (sign = CodePoint.ofChar '+' ∨ sign = CodePoint.ofChar '-') ∧ IsDigits exponent
      ∧ Binary64.scientific width ds point
        = (first :: if part = [] then [] else CodePoint.ofChar '.' :: part)
          ++ CodePoint.ofChar 'e' :: sign :: exponent := by
  obtain ⟨c, s, rfl, hc⟩ := h.exists_cons
  refine ⟨c, s, if point < 1 then CodePoint.ofChar '-' else CodePoint.ofChar '+',
    List.replicate (width - (Text.ofNat (point - 1).natAbs).length) (CodePoint.ofChar '0')
      ++ Text.ofNat (point - 1).natAbs, hc, fun d hd => h.2 d (List.mem_cons_of_mem _ hd), ?_,
    ⟨?_, ?_⟩, ?_⟩
  · split
    · exact .inr rfl
    · exact .inl rfl
  · simp [Text.ofNat_ne_nil]
  · intro d hd
    rcases List.mem_append.mp hd with hd | hd
    · exact isDigit_of_mem_zeros hd
    · exact Text.isDigit_of_mem_ofNat hd
  · -- the point stands between the first digit and the others, if there are others
    rw [scientific_eq]
    cases s with
    | nil => split_ifs <;> simp_all [Text.ofString]
    | cons d s => split_ifs <;> simp_all [Text.ofString]

/-- The text behind the first `e`. -/
private theorem cutAt?_e (before after : Text) (h : CodePoint.ofChar 'e' ∉ before) :
    Text.cutAt? (before ++ CodePoint.ofChar 'e' :: after) "e" = some (before, after) := by
  rw [Text.cutAt?_eq_some_iff]
  refine ⟨by simp [Text.ofString], ?_⟩
  intro before' after' heq
  by_contra hlt
  -- the letter would stand within what is before its first occurrence
  have hmem : (before ++ CodePoint.ofChar 'e' :: after)[before'.length]?
      = some (CodePoint.ofChar 'e') := by
    rw [heq]
    simp [Text.ofString]
  rw [List.getElem?_append_left (by omega)] at hmem
  exact h (List.mem_of_getElem? hmem)

/-- Where there is no `e`, nothing is cut. -/
private theorem cutAt?_e_eq_none {t : Text} (h : CodePoint.ofChar 'e' ∉ t) :
    Text.cutAt? t "e" = none := by
  rw [Option.eq_none_iff_forall_ne_some]
  rintro ⟨before, after⟩ hcut
  obtain ⟨rfl, -⟩ := Text.cutAt?_eq_some_iff.mp hcut
  exact h (by simp [Text.ofString])

/-- A numeral gets a point before its exponent, if it has none. -/
private def withPoint (t : Text) : Text :=
  match Text.cutAt? t "e" with
  | some (mantissa, exponent) =>
    if CodePoint.ofChar '.' ∈ mantissa then t else mantissa ++ ".0e" ++ exponent
  | none => t

/-- A sign holds neither an `e` nor a point. -/
private theorem notMem_signOf (negative : Bool) :
    CodePoint.ofChar 'e' ∉ signOf negative ∧ CodePoint.ofChar '.' ∉ signOf negative := by
  cases negative <;> decide

/-- Digits hold neither an `e` nor a point. -/
private theorem notMem_digits (h : ∀ c ∈ t, c.isDigit = true) :
    CodePoint.ofChar 'e' ∉ t ∧ CodePoint.ofChar '.' ∉ t :=
  ⟨fun hmem => absurd (h _ hmem) (by decide), fun hmem => absurd (h _ hmem) (by decide)⟩

/-- A positional numeral has its point. -/
private theorem isPointed_positional {whole part : Text} (negative : Bool) (hwhole : IsDigits whole)
    (hpart : ∀ c ∈ part, c.isDigit = true) :
    IsPointed (withPoint (signOf negative ++ (whole ++ CodePoint.ofChar '.' :: part))) := by
  have hcut :
      Text.cutAt? (signOf negative ++ (whole ++ CodePoint.ofChar '.' :: part)) "e" = none := by
    refine cutAt?_e_eq_none ?_
    simp [(notMem_signOf negative).1, (notMem_digits hwhole.2).1, (notMem_digits hpart).1]
    decide
  rw [withPoint, hcut]
  exact ⟨negative, whole, part, [], hwhole, hpart, .nil, by rw [List.append_nil]⟩

/-- A scientific numeral is given a point before the `e` if it has none. -/
private theorem isPointed_scientific {first sign : CodePoint} {part exponent : Text}
    (negative : Bool) (hfirst : first.isDigit = true) (hpart : ∀ c ∈ part, c.isDigit = true)
    (hsign : sign = CodePoint.ofChar '+' ∨ sign = CodePoint.ofChar '-')
    (hexponent : IsDigits exponent) :
    IsPointed (withPoint (signOf negative
      ++ ((first :: if part = [] then [] else CodePoint.ofChar '.' :: part)
        ++ CodePoint.ofChar 'e' :: sign :: exponent))) := by
  have hwhole : IsDigits [first] := ⟨by simp, by simpa using hfirst⟩
  obtain ⟨-, -, hpoint, -, hletter, -⟩ := ne_of_isDigit hfirst
  by_cases hnil : part = []
  · -- there is no second digit, and so no point yet
    have hmem : CodePoint.ofChar '.' ∉ signOf negative ++ [first] := by
      simp [(notMem_signOf negative).2, hpoint.symm]
    -- there is a point, and none is added
    have hcut := cutAt?_e (signOf negative ++ [first]) (sign :: exponent)
      (by simp [(notMem_signOf negative).1, hletter.symm])
    rw [if_pos hnil, ← List.append_assoc, withPoint, hcut]
    dsimp only
    rw [if_neg hmem]
    exact ⟨negative, [first], [CodePoint.ofChar '0'], CodePoint.ofChar 'e' :: sign :: exponent,
      hwhole, by decide, .cons hsign hexponent, by simp [Text.ofString]⟩
  · have hcut := cutAt?_e (signOf negative ++ first :: CodePoint.ofChar '.' :: part)
      (sign :: exponent) (by
        simp [(notMem_signOf negative).1, (notMem_digits hpart).1, hletter.symm]
        decide)
    rw [if_neg hnil, ← List.append_assoc, withPoint, hcut]
    dsimp only
    rw [if_pos (by simp)]
    exact ⟨negative, [first], part, CodePoint.ofChar 'e' :: sign :: exponent, hwhole, hpart,
      .cons hsign hexponent, by simp⟩

/-- **Every finite number** is written with a point. -/
theorem isPointed_real {x : Float} (hx : Binary64.isFinite x = true) : IsPointed (real x) := by
  unfold Binary64.isFinite at hx
  rcases hof : Binary64.of x with _ | negative | ⟨negative, mantissa, exponent⟩
  · rw [hof] at hx; cases hx
  · rw [hof] at hx; cases hx
  · -- finite numbers are zeros or have digits, and their numerals are of one of two layouts
    have hsign : (if negative = true then Text.ofString "-" else Text.ofString "")
        = signOf negative := by
      cases negative <;> rfl
    have hreal : real x = withPoint (Binary64.numeral x) := by
      unfold real
      rw [hof]
      rfl
    rw [hreal, Binary64.numeral, hof]
    dsimp only
    rw [hsign]
    split
    · have hzero : IsDigits [CodePoint.ofChar '0'] := ⟨by decide, by decide⟩
      exact isPointed_positional negative hzero hzero.2
    · generalize (shortest mantissa exponent).1 = number
      split
      · obtain ⟨whole, part, hwhole, hpart, ht⟩ :=
          positional_form (isDigits_withoutTrailingZeros number)
          ((Text.ofNat number).length + (shortest mantissa exponent).2)
        rw [ht]
        exact isPointed_positional negative hwhole hpart
      · obtain ⟨first, part, sign, exponent', hfirst, hpart, hsign, hexponent, ht⟩ :=
          scientific_form
          (isDigits_withoutTrailingZeros number) Binary64.standardLayout.exponentWidth
          ((Text.ofNat number).length + (shortest mantissa exponent).2)
        rw [ht]
        exact isPointed_scientific negative hfirst hpart hsign hexponent

end StepCheck.Yaml
