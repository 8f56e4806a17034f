import StepCheck.Yaml.Scalar
import Mathlib

/-!
# The runs of a text

A text is written run by run, so what is read back is found out run by run too. This module says
which lists of runs there are: those of a text are proper, make up the text, and stand apart from
each other wherever the text can stand between single quotes.

* `Run.flatMap_text_of` — the runs make up the text;
* `Run.proper_of` — every run holds characters of its class;
* `Run.isChain_of` — blanks and line breaks are never neighbours where they must not be.
-/

namespace StepCheck.Yaml.Scalar.Run

/-- The text of a run. -/
def text : Run → Text
  | words t => t
  | blanks n => List.replicate n (CodePoint.ofChar ' ')
  | breaks t => t

/-- A run holds a character at least, and only characters of its class. -/
def Proper : Run → Prop
  | words t => t ≠ [] ∧ ∀ c ∈ t, c ≠ CodePoint.ofChar ' ' ∧ isBreak c = false
  | blanks n => 0 < n
  | breaks t => t ≠ [] ∧ ∀ c ∈ t, isBreak c = true

/-- Whether a run consists of words. -/
def isWords : Run → Bool
  | words _ => true
  | _ => false

/-- Of two neighbours one consists of words. -/
def Apart (r s : Run) : Prop := r.isWords = !s.isWords

variable {c : CodePoint} {t : Text} {runs : List Run}

/-- A text is cut into runs from its end. -/
theorem of_cons (c : CodePoint) (t : Text) : Run.of (c :: t) = push c (Run.of t) := rfl

/-- A character that is put in front of runs stands in front of their text. -/
private theorem flatMap_text_push (c : CodePoint) (runs : List Run) :
    (push c runs).flatMap text = c :: runs.flatMap text := by
  unfold push
  split
  · next hc =>
    subst hc
    split
    · simp [text, List.replicate_succ]
    · simp [text]
  · split
    · split <;> simp [text]
    · split <;> simp [text]

/-- **The runs make up the text.** -/
@[simp] theorem flatMap_text_of (t : Text) : (Run.of t).flatMap text = t := by
  induction t with
  | nil => rfl
  | cons c t ih => rw [of_cons, flatMap_text_push, ih]

/-- Runs stay proper when a character is put in front of them. -/
private theorem proper_push (h : ∀ r ∈ runs, r.Proper) : ∀ r ∈ push c runs, r.Proper := by
  unfold push
  split
  · next hc =>
    split
    · simp_all [Proper]
    · simp_all [Proper]
  · split
    · split <;> simp_all [Proper]
    · split <;> simp_all [Proper]

/-- All runs of a text are proper. -/
theorem proper_of (t : Text) : ∀ r ∈ Run.of t, r.Proper := by
  induction t with
  | nil => simp [Run.of]
  | cons c t ih => exact proper_push ih

/-- A text whose first run consists of blanks begins with one. -/
theorem exists_of_blanks {n : Nat} (h : Run.of t = blanks n :: runs) :
    ∃ s, t = CodePoint.ofChar ' ' :: s := by
  have hn : 0 < n := proper_of t (blanks n) (h ▸ List.mem_cons_self)
  obtain ⟨n, rfl⟩ := Nat.exists_eq_add_of_lt hn
  rw [← flatMap_text_of t, h]
  exact ⟨_, rfl⟩

/-- A text whose first run consists of line breaks begins with one. -/
theorem exists_of_breaks {b : Text} (h : Run.of t = breaks b :: runs) :
    ∃ c s, t = c :: s ∧ isBreak c = true := by
  obtain ⟨hne, hb⟩ : b ≠ [] ∧ ∀ c ∈ b, isBreak c = true :=
    proper_of t (breaks b) (h ▸ List.mem_cons_self)
  obtain ⟨c, b, rfl⟩ := List.exists_cons_of_ne_nil hne
  rw [← flatMap_text_of t, h]
  exact ⟨c, _, rfl, hb c List.mem_cons_self⟩

/-- Where no blank stands next to a line break, one of two neighbours consists of words. -/
theorem isChain_of (hafter : Style.hasBlankAfterBreak t = false)
    (hbefore : Style.hasBlankBeforeBreak t = false) : (Run.of t).IsChain Apart := by
  -- on the text: the character at the front joins the first run, or begins one of another kind
  induction t with
  | nil => exact List.isChain_nil
  | cons c t ih =>
    have hafter' : Style.hasBlankAfterBreak t = false := by
      cases t with
      | nil => rfl
      | cons d t => exact (Bool.or_eq_false_iff.mp hafter).2
    have hbefore' : Style.hasBlankBeforeBreak t = false := by
      cases t with
      | nil => rfl
      | cons d t => exact (Bool.or_eq_false_iff.mp hbefore).2
    specialize ih hafter' hbefore'
    rw [of_cons]
    rcases hruns : Run.of t with _ | ⟨r, runs⟩
    · unfold push
      split_ifs <;> exact List.isChain_singleton _
    · rw [hruns] at ih
      unfold push
      cases r with
      | words w =>
        split_ifs
        · exact List.IsChain.cons_cons rfl ih
        · exact List.IsChain.cons_cons rfl ih
        · refine List.IsChain.imp_head ?_ ih
          exact fun h => h
      | blanks n =>
        obtain ⟨s, rfl⟩ := exists_of_blanks hruns
        split_ifs with hc hb
        · refine List.IsChain.imp_head ?_ ih
          exact fun h => h
        · -- a blank behind a break was ruled out
          exact absurd hafter (by simp [Style.hasBlankAfterBreak, hb])
        · exact List.IsChain.cons_cons rfl ih
      | breaks b =>
        obtain ⟨d, s, rfl, hd⟩ := exists_of_breaks hruns
        split_ifs with hc hb
        · -- and so was a blank before one
          exact absurd hbefore (by simp [Style.hasBlankBeforeBreak, hc, hd])
        · refine List.IsChain.imp_head ?_ ih
          exact fun h => h
        · exact List.IsChain.cons_cons rfl ih

end StepCheck.Yaml.Scalar.Run
