import Mathlib.Data.Option.Basic
import StepCheck.Step.Declaration
import StepCheck.Proofs.Text.Padding

/-!
# The front of a declaration

The matcher for declarations reads a text from left to right, character class after character class.
The classes exclude each other: white space is neither a digit nor a part of a name, and the marks
belong to none of the three. So each part of the front ends just where the next one begins, and what
the matcher recognises is what can be written down as one sequence of parts.

* `Declaration.Written` — the front of a declaration as it is written;
* `Declaration.atFront?_eq_some_iff` — that is what the matcher recognises;
* `Declaration.Written.exists_cons`, `Declaration.Written.exists_concat` — its first and its last
  character, and what stands nowhere else in it;
* `Declaration.Written.begins_with_label` — it begins with the label.
-/

namespace StepCheck

/-! ### Classes of characters -/

namespace CodePoint

variable {c : CodePoint}

/-- White space is no digit. -/
theorem isDecimal_eq_false_of_isBlank (h : c.isBlank = true) : c.isDecimal = false := by
  have hapart : ∀ r ∈ blankRanges, ∀ z ∈ digitZeros, r.2 < z ∨ z + 9 < r.1 := by decide +kernel
  obtain ⟨r, hr, hlow, hhigh⟩ := exists_of_inRanges h
  rw [isDecimal, List.any_eq_false]
  intro z hz
  rw [Bool.and_eq_true, decide_eq_true_iff, decide_eq_true_iff]
  have hrz := hapart r hr z hz
  omega

/-- White space is no part of a name. -/
theorem isNamePart_eq_false_of_isBlank (h : c.isBlank = true) : c.isNamePart = false := by
  -- the ranges of white space keep off those of capitals and digits
  have hcapitals : ∀ r ∈ blankRanges, r.2 < 0x30 ∨ 0x5F < r.1 := by decide
  obtain ⟨r, hr, hlow, hhigh⟩ := exists_of_inRanges h
  have hc := hcapitals r hr
  have hline : c ≠ CodePoint.ofChar '_' := by
    rintro rfl
    have hval : (CodePoint.ofChar '_').val = 0x5F := rfl
    omega
  rw [isNamePart, Bool.or_eq_false_iff, Bool.or_eq_false_iff, isCapital, isDigit,
    Bool.and_eq_false_iff, Bool.and_eq_false_iff, decide_eq_false_iff_not, decide_eq_false_iff_not,
    decide_eq_false_iff_not, decide_eq_false_iff_not, decide_eq_false_iff_not]
  refine ⟨⟨?_, ?_⟩, hline⟩
  · omega
  · omega

/-- White space is no capital. -/
theorem isBlank_eq_false_of_isCapital (h : c.isCapital = true) : c.isBlank = false := by
  rw [← Bool.not_eq_true]
  intro hblank
  have hname := isNamePart_eq_false_of_isBlank hblank
  rw [isNamePart, h] at hname
  cases hname

end CodePoint

/-! ### The front of a declaration -/

namespace Declaration

variable {d : Declaration} {t front rest : Text} {length : Nat}

/-- **A part of one class** ends where white space and a character follow that are of another. -/
private theorem span_append {p : CodePoint → Bool} {part ws : Text} {c : CodePoint}
    (hpart : ∀ b ∈ part, p b = true) (hws : ∀ b ∈ ws, p b = false) (hc : p c = false)
    (rest : Text) :
    (part ++ (ws ++ c :: rest)).takeWhile p = part ∧
      (part ++ (ws ++ c :: rest)).dropWhile p = ws ++ c :: rest := by
  have hstop : ∃ b tail, ws ++ c :: rest = b :: tail ∧ p b = false := by
    cases ws with
    | nil => exact ⟨c, rest, rfl, hc⟩
    | cons b ws => exact ⟨b, ws ++ c :: rest, rfl, hws b List.mem_cons_self⟩
  obtain ⟨b, tail, heq, hb⟩ := hstop
  have hnot : ¬ p b = true := by rw [hb]; exact Bool.false_ne_true
  rw [heq, List.takeWhile_append_of_pos hpart, List.dropWhile_append_of_pos hpart,
    List.takeWhile_cons_of_neg hnot, List.dropWhile_cons_of_neg hnot, List.append_nil]
  exact ⟨rfl, rfl⟩

/-- **The front of a declaration as it is written**: the number sign, decimal digits, the equals
sign, a name of capitals, digits and low lines that begins with a capital, and the opening
parenthesis, with white space around the equals sign and behind the name. -/
structure Written (d : Declaration) (front : Text) : Prop where
  number_ne_nil : d.number ≠ []
  isDecimal : ∀ c ∈ d.number, c.isDecimal = true
  initial : ∃ initial later, d.typeName = initial :: later ∧ initial.isCapital = true
  isNamePart : ∀ c ∈ d.typeName, c.isNamePart = true
  parts : ∃ ws₁ ws₂ ws₃ : Text, (∀ c ∈ ws₁ ++ ws₂ ++ ws₃, c.isBlank = true) ∧
    front = "#" ++ d.number ++ ws₁ ++ "=" ++ ws₂ ++ d.typeName ++ ws₃ ++ "("

/-- The front with its marks as single code points, grouped as they are read. -/
private theorem front_append (number ws₁ ws₂ name ws₃ rest : Text) :
    "#" ++ number ++ ws₁ ++ "=" ++ ws₂ ++ name ++ ws₃ ++ "(" ++ rest
      = CodePoint.ofChar '#' :: (number ++ (ws₁ ++ CodePoint.ofChar '=' ::
        (ws₂ ++ (name ++ (ws₃ ++ CodePoint.ofChar '(' :: rest))))) := by
  have hsign : Text.ofString "#" = [CodePoint.ofChar '#'] := rfl
  have hequals : Text.ofString "=" = [CodePoint.ofChar '='] := rfl
  have hopening : Text.ofString "(" = [CodePoint.ofChar '('] := rfl
  rw [hsign, hequals, hopening]
  simp only [List.append_assoc, List.cons_append, List.nil_append]

/-- A declaration begins with the number sign. -/
theorem atFront?_cons_of_ne {c : CodePoint} (hc : c ≠ '#') (t : Text) :
    atFront? (c :: t) = none := by
  have hguard : (guard (c = CodePoint.ofChar '#') : Option Unit) = none := if_neg hc
  change Option.bind (guard (c = CodePoint.ofChar '#')) _ = none
  rw [hguard, Option.bind_none]

/-- What is recognised is written. -/
private theorem exists_written_of_atFront? (h : atFront? t = some (d, length)) :
    ∃ front rest, t = front ++ rest ∧ d.Written front ∧ length = front.length := by
  cases t with
  | nil => cases h
  | cons c afterSign =>
    unfold atFront? at h
    simp only [Option.bind_eq_bind, Option.bind_eq_some_iff, Option.guard_eq_some'] at h
    obtain ⟨_, rfl, _, hnumber, h⟩ := h
    -- behind each condition the rest of the front, up to the opening parenthesis
    split at h
    · next equals afterEquals hequals =>
      rw [Option.bind_eq_some_iff] at h
      obtain ⟨_, hguard, h⟩ := h
      obtain rfl := (Option.guard_eq_some' _).mp hguard
      split at h
      · next initial later hnamed =>
        rw [Option.bind_eq_some_iff] at h
        obtain ⟨_, hguard, h⟩ := h
        have hinitial := (Option.guard_eq_some' _).mp hguard
        split at h
        · next opening inside hopening =>
          rw [Option.bind_eq_some_iff] at h
          obtain ⟨_, hguard, h⟩ := h
          obtain rfl := (Option.guard_eq_some' _).mp hguard
          cases h
          have hblank : ∀ s : Text, ∀ b ∈ s.blanks, b.isBlank = true := fun s b hb =>
            List.all_eq_true.mp List.all_takeWhile b hb
          -- what is recognised and the white space between it make up the front
          have hparts : afterSign = afterSign.takeWhile CodePoint.isDecimal
              ++ (Text.blanks (afterSign.dropWhile CodePoint.isDecimal) ++ CodePoint.ofChar '=' ::
                (Text.blanks afterEquals
                  ++ ((Text.stripLeft afterEquals).takeWhile CodePoint.isNamePart
                    ++ (Text.blanks ((Text.stripLeft afterEquals).dropWhile CodePoint.isNamePart)
                      ++ CodePoint.ofChar '(' :: inside)))) := by
            rw [← hopening, Text.blanks_append_stripLeft, List.takeWhile_append_dropWhile,
              Text.blanks_append_stripLeft, ← hequals, Text.blanks_append_stripLeft,
              List.takeWhile_append_dropWhile]
          have hfirst : (Text.stripLeft afterEquals).takeWhile CodePoint.isNamePart
              = initial :: later.takeWhile CodePoint.isNamePart := by
            rw [hnamed, List.takeWhile_cons_of_pos]
            rw [CodePoint.isNamePart, hinitial]
            rfl
          refine ⟨"#" ++ afterSign.takeWhile CodePoint.isDecimal
              ++ Text.blanks (afterSign.dropWhile CodePoint.isDecimal) ++ "="
              ++ Text.blanks afterEquals
              ++ (Text.stripLeft afterEquals).takeWhile CodePoint.isNamePart
              ++ Text.blanks ((Text.stripLeft afterEquals).dropWhile CodePoint.isNamePart) ++ "(",
            inside, ?_, ⟨?_, ?_, ⟨initial, _, hfirst, hinitial⟩, ?_, _, _, _, ?_, rfl⟩, ?_⟩
          · rw [front_append, ← hparts]
          · intro hnil
            change afterSign.takeWhile CodePoint.isDecimal = [] at hnil
            rw [hnil] at hnumber
            cases hnumber
          · exact fun c hc => List.all_eq_true.mp List.all_takeWhile c hc
          · exact fun c hc => List.all_eq_true.mp List.all_takeWhile c hc
          · simp only [List.forall_mem_append]
            exact ⟨⟨hblank _, hblank _⟩, hblank _⟩
          · simp only [List.length_append]
            rfl
        · cases h
      · cases h
    · cases h

/-- What is written is recognised. -/
theorem Written.atFront?_append (h : d.Written front) (rest : Text) :
    atFront? (front ++ rest) = some (d, front.length) := by
  obtain ⟨ws₁, ws₂, ws₃, hws, rfl⟩ := h.parts
  obtain ⟨initial, later, hname, hinitial⟩ := h.initial
  rw [List.forall_mem_append, List.forall_mem_append] at hws
  obtain ⟨⟨hws₁, hws₂⟩, hws₃⟩ := hws
  have hequals : (CodePoint.ofChar '=').isBlank = false := by decide
  have hopening : (CodePoint.ofChar '(').isBlank = false := by decide
  have hinitialBlank := CodePoint.isBlank_eq_false_of_isCapital hinitial
  have hlength : (Text.ofString "#" ++ d.number ++ ws₁ ++ "=" ++ ws₂ ++ d.typeName ++ ws₃
      ++ "(").length = 1 + d.number.length + ws₁.length + 1 + ws₂.length + d.typeName.length
        + ws₃.length + 1 := by
    simp only [List.length_append]
    rfl
  rw [front_append, hlength]
  -- each part ends where the next one begins
  obtain ⟨hnumber, hafterNumber⟩ := span_append h.isDecimal
    (fun b hb => CodePoint.isDecimal_eq_false_of_isBlank (hws₁ b hb))
    (by decide +kernel : (CodePoint.ofChar '=').isDecimal = false)
    (ws₂ ++ (d.typeName ++ (ws₃ ++ CodePoint.ofChar '(' :: rest)))
  have hblanks₁ := Text.blanks_append_cons hws₁ hequals
    (ws₂ ++ (d.typeName ++ (ws₃ ++ CodePoint.ofChar '(' :: rest)))
  have hstrip₁ := (Text.stripLeft_eq_cons_iff hequals).mpr
    ⟨ws₁, hws₁, (rfl : ws₁ ++ CodePoint.ofChar '=' ::
      (ws₂ ++ (d.typeName ++ (ws₃ ++ CodePoint.ofChar '(' :: rest))) = _)⟩
  have hblanks₂ := Text.blanks_append_cons hws₂ hinitialBlank
    (later ++ (ws₃ ++ CodePoint.ofChar '(' :: rest))
  have hstrip₂ := (Text.stripLeft_eq_cons_iff hinitialBlank).mpr
    ⟨ws₂, hws₂, (rfl : ws₂ ++ initial :: (later ++ (ws₃ ++ CodePoint.ofChar '(' :: rest)) = _)⟩
  rw [← List.cons_append, ← hname] at hblanks₂ hstrip₂
  obtain ⟨htypeName, hafterName⟩ := span_append h.isNamePart
    (fun b hb => CodePoint.isNamePart_eq_false_of_isBlank (hws₃ b hb))
    (by decide : (CodePoint.ofChar '(').isNamePart = false) rest
  have hblanks₃ := Text.blanks_append_cons hws₃ hopening rest
  have hstrip₃ := (Text.stripLeft_eq_cons_iff hopening).mpr
    ⟨ws₃, hws₃, (rfl : ws₃ ++ CodePoint.ofChar '(' :: rest = _)⟩
  have hnumberNe : (!d.number.isEmpty) = true := by
    rw [Bool.not_eq_true', List.isEmpty_eq_false_iff]
    exact h.number_ne_nil
  unfold atFront?
  simp only [hnumber, hafterNumber, hblanks₁, hstrip₁, hblanks₂, hstrip₂, htypeName, hafterName,
    hblanks₃, hstrip₃]
  rw [hname, List.cons_append]
  simp only [hnumberNe, hinitial, guard, if_true]
  rw [← hname]
  rfl

/-- **What is read at the front** is a declaration as it is written. -/
theorem atFront?_eq_some_iff : atFront? t = some (d, length) ↔
    ∃ front rest, t = front ++ rest ∧ d.Written front ∧ length = front.length := by
  constructor
  · exact exists_written_of_atFront?
  · rintro ⟨front, rest, rfl, h, rfl⟩
    exact h.atFront?_append rest

/-! ### What the front of a declaration holds -/

/-- **The number sign** stands at the front only, and nowhere stands a semicolon. -/
theorem Written.exists_cons (h : d.Written front) : ∃ tail, front = CodePoint.ofChar '#' :: tail ∧
    CodePoint.ofChar '#' ∉ tail ∧ CodePoint.ofChar ';' ∉ tail := by
  obtain ⟨ws₁, ws₂, ws₃, hws, rfl⟩ := h.parts
  rw [List.forall_mem_append, List.forall_mem_append] at hws
  obtain ⟨⟨hws₁, hws₂⟩, hws₃⟩ := hws
  have hfront := front_append d.number ws₁ ws₂ d.typeName ws₃ []
  rw [List.append_nil] at hfront
  refine ⟨_, hfront, ?_⟩
  -- neither of the two is a digit, a part of a name, or white space
  have hclasses : ∀ c : CodePoint, c.isDecimal = false → c.isNamePart = false →
      c.isBlank = false → c ≠ '=' → c ≠ '(' → c ∉ d.number ++ (ws₁ ++ CodePoint.ofChar '=' ::
        (ws₂ ++ (d.typeName ++ (ws₃ ++ [CodePoint.ofChar '(']))) : Text) := by
    intro c hdecimal hname hblank hequals hopening
    have hnot : ∀ {p : CodePoint → Bool} {s : Text},
        (∀ b ∈ s, p b = true) → p c = false → c ∉ s := by
      intro p s hs hc hmem
      rw [hs c hmem] at hc
      cases hc
    simp only [List.mem_append, List.mem_cons, List.not_mem_nil, not_or, or_false]
    exact ⟨hnot h.isDecimal hdecimal, hnot hws₁ hblank, hequals, hnot hws₂ hblank,
      hnot h.isNamePart hname, hnot hws₃ hblank, hopening⟩
  exact ⟨hclasses _ (by decide +kernel) (by decide) (by decide) (by decide) (by decide),
    hclasses _ (by decide +kernel) (by decide) (by decide) (by decide) (by decide)⟩

/-- The front closes with the opening parenthesis. -/
theorem Written.exists_concat (h : d.Written front) :
    ∃ init, front = init ++ [CodePoint.ofChar '('] := by
  obtain ⟨ws₁, ws₂, ws₃, -, rfl⟩ := h.parts
  exact ⟨_, rfl⟩

/-- No declaration is empty. -/
theorem Written.length_pos (h : d.Written front) : 0 < front.length := by
  obtain ⟨tail, rfl, -⟩ := h.exists_cons
  exact Nat.succ_pos _

/-- The front begins with the label. -/
theorem Written.begins_with_label (h : d.Written front) : d.label <+: front := by
  obtain ⟨ws₁, ws₂, ws₃, -, rfl⟩ := h.parts
  have hlabel : d.label = "#" ++ d.number := rfl
  rw [hlabel]
  simp only [List.append_assoc, List.prefix_append_right_inj]
  exact List.prefix_append _ _

end Declaration

end StepCheck
