import StepCheck.Console.Printing

/-!
# What is written

Printing only adds to what is there already, and what it adds does not depend on that. So what a
program prints can be read off its parts: each part writes something and gives an answer, and where
the answer is a failure nothing else is written.

* `Written` — what can be put one behind the other, such as lines;
* `Writes` — what a program writes, and its answer;
* `Writes.bind`, `Writes.bind_error` — one program after another;
* `Answers` — what holds of the answer of a program, if there is one;
* `Console.writes_emitMade`, `Console.writes_emitMade_error` — what is printed on a terminal.
-/

namespace StepCheck

/-- **What can be written**: things that can be put one behind the other. -/
class Written (σ : Type) extends Append σ where
  /-- Nothing at all. -/
  nothing : σ
  append_nothing (s : σ) : s ++ nothing = s
  nothing_append (s : σ) : nothing ++ s = s
  append_assoc (s t u : σ) : s ++ t ++ u = s ++ (t ++ u)

namespace Written

instance : Written (Array Text) where
  nothing := #[]
  append_nothing _ := Array.append_empty
  nothing_append _ := Array.empty_append
  append_assoc _ _ _ := Array.append_assoc

end Written

/-! ### Programs -/

open Written

section Writes

variable {ε σ α β : Type} [Written σ] {p : ExceptT ε (StateM σ) α} {d d' : σ} {a : α} {e : ε}

/-- **What a program writes**, and its answer. It does not matter what is there before. -/
def Writes (p : ExceptT ε (StateM σ) α) (d : σ) (answer : Except ε α) : Prop :=
  ∀ s, p.run s = (answer, s ++ d)

namespace Writes

/-- What only answers writes nothing. -/
theorem pure (a : α) : Writes (Pure.pure a : ExceptT ε (StateM σ) α) nothing (.ok a) := by
  intro s
  rw [append_nothing]
  rfl

/-- What only fails writes nothing. -/
theorem throw (e : ε) : Writes (throw e : ExceptT ε (StateM σ) α) nothing (.error e) := by
  intro s
  rw [append_nothing]
  rfl

/-- **One program after another**: the second one goes on from the answer of the first. -/
theorem bind (h : Writes p d (.ok a)) {next : α → ExceptT ε (StateM σ) β} {answer : Except ε β}
    (hnext : Writes (next a) d' answer) : Writes (p >>= next) (d ++ d') answer := by
  intro s
  change (match p.run s with
    | (answer, s) => (ExceptT.bindCont next answer : StateM σ _) s) = _
  rw [h s, ← append_assoc]
  exact hnext (s ++ d)

/-- One program after another that does not ask for its answer. -/
theorem andThen (h : Writes p d (.ok a)) {q : ExceptT ε (StateM σ) β} {answer : Except ε β}
    (hq : Writes q d' answer) : Writes (p >>= fun _ => q) (d ++ d') answer :=
  h.bind hq

/-- **Behind a failure** nothing is done. -/
theorem bind_error (h : Writes p d (.error e)) (next : α → ExceptT ε (StateM σ) β) :
    Writes (p >>= next) d (.error e) := by
  intro s
  change (match p.run s with
    | (answer, s) => (ExceptT.bindCont next answer : StateM σ _) s) = _
  rw [h s]
  rfl

end Writes

end Writes

/-! ### Answers -/

section Answers

variable {ε σ α β : Type} {p : ExceptT ε (StateM σ) α} {a : α}

/-- **What holds of the answer** of a program, if there is one. -/
def Answers (p : ExceptT ε (StateM σ) α) (Q : α → Prop) : Prop :=
  ∀ s a s', p.run s = (.ok a, s') → Q a

namespace Answers

variable {Q : α → Prop}

theorem pure (h : Q a) : Answers (Pure.pure a : ExceptT ε (StateM σ) α) Q := by
  rintro s a' s' ⟨⟩
  exact h

/-- A program that fails answers nothing. -/
theorem throw (e : ε) : Answers (throw e : ExceptT ε (StateM σ) α) Q := nofun

/-- What holds of an answer holds wherever the program goes on from it. -/
theorem bind {R : β → Prop} (h : Answers p Q) {next : α → ExceptT ε (StateM σ) β}
    (hnext : ∀ a, Q a → Answers (next a) R) : Answers (p >>= next) R := by
  intro s b s' hrun
  change (match p.run s with
    | (answer, s) => (ExceptT.bindCont next answer : StateM σ _) s) = _ at hrun
  rcases hp : p.run s with ⟨a | a, t⟩
  · rw [hp] at hrun
    cases hrun
  · rw [hp] at hrun
    exact hnext a (h s a t hp) t b s' hrun

/-- Nothing need be known of an answer. -/
theorem trivial (p : ExceptT ε (StateM σ) α) : Answers p fun _ => True := fun _ _ _ _ => True.intro

/-- The answers of a program for each member of a list. -/
theorem mapM {f : β → ExceptT ε (StateM σ) α} {answer : β → α} {xs : List β}
    (h : ∀ x ∈ xs, Answers (f x) (· = answer x)) : Answers (xs.mapM f) (· = xs.map answer) := by
  induction xs with
  | nil => exact Answers.pure rfl
  | cons x xs ih =>
    rw [List.mapM_cons]
    refine (h x List.mem_cons_self).bind fun a ha => ?_
    refine (ih fun y hy => h y (List.mem_cons_of_mem x hy)).bind fun as has => ?_
    exact Answers.pure (by rw [ha, has, List.map_cons])

end Answers

end Answers

/-! ### Consoles -/

section Printing

variable {ε α : Type} {p : Printing ε α} {d : Array Text} {answer : Except ε α}

/-- What a program prints. -/
theorem Writes.printed (h : Writes p d answer) : p.printed = (answer, d.toList) := by
  have hrun : p.run #[] = (answer, d) := by rw [h #[], Array.empty_append]
  exact congrArg (fun run => (run.1, run.2.toList)) hrun

namespace Console

/-- Lines that are put out are written. -/
theorem writes_emit (ls : List Text) : Writes (emit ls : Printing ε Unit) ls.toArray (.ok ()) :=
  fun _ => rfl

/-- The lines that a terminal makes are printed. -/
theorem writes_emitMade {made : Except PrintFailure (List Text)} {ls : List Text}
    (h : made = .ok ls) (ofFailure : PrintFailure → ε) :
    Writes (emitMade ofFailure made) ls.toArray (.ok ()) := by
  rw [h]
  exact writes_emit ls

/-- If it fails, the program ends, and nothing is printed. -/
theorem writes_emitMade_error {made : Except PrintFailure (List Text)} {e : PrintFailure}
    (h : made = .error e) (ofFailure : PrintFailure → ε) :
    Writes (emitMade ofFailure made) #[] (.error (ofFailure e)) := by
  rw [h]
  exact Writes.throw (ofFailure e)

end Console

end Printing

end StepCheck
