import StepCheck.CommandLine.Session
import StepCheck.Proofs.Console.Writing

/-!
# What a call leaves behind

A call of the program writes to standard output, to the log and to files, and like printing it only
adds to what is there. Of what it leaves behind, its lines on standard output and its files matter;
which lines of the log are kept is a question of the level that is asked for.

Most of what a call does is printing, part by part, and the first part that fails ends it. So such a
call is known by its parts, and putting calls together puts their parts together.

* `Report.inTurn` — what is printed of several parts, up to the first one that fails;
* `Session.Leaves` — what a call leaves behind, and its answer;
* `Session.PrintsInTurn` — the calls that print parts in turn, with one lemma for each way of
  putting calls together.
-/

namespace StepCheck

/-! ### Printing in turn -/

namespace Report

variable {parts parts' done rest : List Showing} {part : Showing} {e : ViewFailure}

/-- **What is printed of several parts** one after another, up to the first one that fails. -/
def inTurn : List Showing → Except ViewFailure Unit × List Text
  | [] => (.ok (), [])
  | part :: parts =>
    match part.printed with
    | (.ok (), ls) => ((inTurn parts).1, ls ++ (inTurn parts).2)
    | (.error e, ls) => (.error e, ls)

/-- A part that goes through is followed by the others. -/
theorem inTurn_cons_of_ok (h : part.printed.1 = .ok ()) (parts : List Showing) :
    inTurn (part :: parts) = ((inTurn parts).1, part.printed.2 ++ (inTurn parts).2) := by
  rw [inTurn]
  generalize part.printed = printed at h
  obtain ⟨answer, ls⟩ := printed
  cases h
  rfl

/-- A part that fails is the last one. -/
theorem inTurn_cons_of_error (h : part.printed.1 = .error e) (parts : List Showing) :
    inTurn (part :: parts) = (.error e, part.printed.2) := by
  rw [inTurn]
  generalize part.printed = printed at h
  obtain ⟨answer, ls⟩ := printed
  cases h
  rfl

/-- **If none of them fails**, all of them are printed. -/
theorem inTurn_of_ok (h : ∀ part ∈ parts, part.printed.1 = .ok ()) :
    inTurn parts = (.ok (), parts.flatMap fun part => part.printed.2) := by
  induction parts with
  | nil => rfl
  | cons part parts ih =>
    obtain ⟨hpart, hparts⟩ := List.forall_mem_cons.mp h
    rw [inTurn_cons_of_ok hpart, ih hparts, List.flatMap_cons]

/-- Parts that go through are followed by more. -/
theorem inTurn_append_of_ok (h : (inTurn parts).1 = .ok ()) (parts' : List Showing) :
    inTurn (parts ++ parts') = ((inTurn parts').1, (inTurn parts).2 ++ (inTurn parts').2) := by
  induction parts with
  | nil => rfl
  | cons part parts ih =>
    cases hpart : part.printed.1 with
    | error e =>
      rw [inTurn_cons_of_error hpart] at h
      cases h
    | ok _ =>
      rw [inTurn_cons_of_ok hpart] at h
      rw [List.cons_append, inTurn_cons_of_ok hpart, inTurn_cons_of_ok hpart, ih h,
        List.append_assoc]

/-- Nothing follows behind a failure. -/
theorem inTurn_append_of_error (h : (inTurn parts).1 = .error e) (parts' : List Showing) :
    inTurn (parts ++ parts') = inTurn parts := by
  induction parts with
  | nil => cases h
  | cons part parts ih =>
    cases hpart : part.printed.1 with
    | error e' => rw [List.cons_append, inTurn_cons_of_error hpart, inTurn_cons_of_error hpart]
    | ok _ =>
      rw [inTurn_cons_of_ok hpart] at h
      rw [List.cons_append, inTurn_cons_of_ok hpart, inTurn_cons_of_ok hpart, ih h]

/-- **The first one that fails** is the last one that is printed, as far as it goes. -/
theorem inTurn_of_error (hdone : ∀ part ∈ done, part.printed.1 = .ok ())
    (hpart : part.printed.1 = .error e) (rest : List Showing) :
    inTurn (done ++ part :: rest)
      = (.error e, (done.flatMap fun part => part.printed.2) ++ part.printed.2) := by
  have hall := inTurn_of_ok hdone
  rw [inTurn_append_of_ok (by rw [hall]), inTurn_cons_of_error hpart, hall]

/-- Some part is the first one that fails, if one does. -/
theorem exists_first_error (h : ¬ ∀ part ∈ parts, part.printed.1 = .ok ()) :
    ∃ done part rest e, parts = done ++ part :: rest ∧ (∀ part ∈ done, part.printed.1 = .ok ()) ∧
      part.printed.1 = .error e := by
  induction parts with
  | nil => exact absurd (List.forall_mem_nil _) h
  | cons part parts ih =>
    cases hpart : part.printed.1 with
    | error e => exact ⟨[], part, parts, e, rfl, List.forall_mem_nil _, hpart⟩
    | ok _ =>
      obtain ⟨done, first, rest, e, rfl, hdone, hfirst⟩ :=
        ih fun hparts => h (List.forall_mem_cons.mpr ⟨hpart, hparts⟩)
      exact ⟨part :: done, first, rest, e, rfl, List.forall_mem_cons.mpr ⟨hpart, hdone⟩, hfirst⟩

end Report

/-! ### Trails -/

/-- The trail of a call with what another one has left behind. -/
instance : Append Trail where
  append s t := ⟨s.output ++ t.output, s.errors ++ t.errors, s.written ++ t.written⟩

namespace Trail

@[simp] theorem output_append (s t : Trail) : (s ++ t).output = s.output ++ t.output := rfl

@[simp] theorem errors_append (s t : Trail) : (s ++ t).errors = s.errors ++ t.errors := rfl

@[simp] theorem written_append (s t : Trail) : (s ++ t).written = s.written ++ t.written := rfl

end Trail

instance : Written Trail where
  nothing := {}
  append_nothing s := by
    change Trail.mk _ _ _ = _
    simp
  nothing_append s := by
    change Trail.mk _ _ _ = _
    simp
  append_assoc s t u := by
    change Trail.mk _ _ _ = Trail.mk _ _ _
    simp only [Trail.output_append, Trail.errors_append, Trail.written_append, Array.append_assoc,
      List.append_assoc]

/-! ### Calls -/

namespace Session

variable {α β : Type} {p : Session α} {a : α} {e : Ending} {ls ls' : List Text}
  {files files' : List (Path × Text)}

/-- What is done after something that goes through. -/
theorem run_bind_of_run_eq {trail trail' : Trail}
    (h : p.run trail = (.ok a, trail')) (next : α → Session β) :
    (p >>= next).run trail = (next a).run trail' := by
  change (match p.run trail with
    | (answer, trail') => (ExceptT.bindCont next answer : StateM Trail _) trail') = _
  rw [h]
  rfl

/-- **What a call leaves behind** on standard output and in files, and its answer. The log does not
count. -/
def Leaves (p : Session α) (ls : List Text) (files : List (Path × Text))
    (answer : Except Ending α) : Prop :=
  ∃ d, Writes p d answer ∧ d.output = ls.toArray ∧ d.written = files

namespace Leaves

/-- The same lines and files, put together in another way. -/
theorem of_eq {answer : Except Ending α} (h : Leaves p ls files answer) (hls : ls = ls')
    (hfiles : files = files') : Leaves p ls' files' answer :=
  hls ▸ hfiles ▸ h

/-- **What a call on its own** leaves behind. -/
theorem exists_run {answer : Except Ending α} (h : Leaves p ls files answer) :
    ∃ trail, p.run {} = (answer, trail) ∧ trail.output.toList = ls ∧ trail.written = files := by
  obtain ⟨d, hd, houtput, hwritten⟩ := h
  have hrun := hd Written.nothing
  rw [Written.nothing_append] at hrun
  exact ⟨d, hrun, by rw [houtput], hwritten⟩

theorem pure (a : α) : Leaves (Pure.pure a) [] [] (.ok a) := ⟨_, Writes.pure a, rfl, rfl⟩

theorem throw (e : Ending) : Leaves (throw e : Session α) [] [] (.error e) :=
  ⟨_, Writes.throw e, rfl, rfl⟩

/-- **One part of a call after another.** -/
theorem bind (h : Leaves p ls files (.ok a)) {next : α → Session β} {answer : Except Ending β}
    (hnext : Leaves (next a) ls' files' answer) :
    Leaves (p >>= next) (ls ++ ls') (files ++ files') answer := by
  obtain ⟨d, hd, houtput, hwritten⟩ := h
  obtain ⟨d', hd', houtput', hwritten'⟩ := hnext
  refine ⟨d ++ d', hd.bind hd', ?_, ?_⟩
  · rw [Trail.output_append, houtput, houtput', List.append_toArray]
  · rw [Trail.written_append, hwritten, hwritten']

theorem andThen (h : Leaves p ls files (.ok a)) {q : Session β} {answer : Except Ending β}
    (hq : Leaves q ls' files' answer) :
    Leaves (p >>= fun _ => q) (ls ++ ls') (files ++ files') answer :=
  h.bind hq

/-- Behind the end of a call nothing is done. -/
theorem bind_error (h : Leaves p ls files (.error e)) (next : α → Session β) :
    Leaves (p >>= next) ls files (.error e) := by
  obtain ⟨d, hd, houtput, hwritten⟩ := h
  exact ⟨d, hd.bind_error next, houtput, hwritten⟩

/-- A part of a call for each member of a list. -/
theorem forM {f : β → Session Unit} {lines : β → List Text} {xs : List β}
    (h : ∀ x ∈ xs, Leaves (f x) (lines x) [] (.ok ())) :
    Leaves (xs.forM f) (xs.flatMap lines) [] (.ok ()) := by
  induction xs with
  | nil => exact pure ()
  | cons x xs ih =>
    exact (h x List.mem_cons_self).andThen (ih fun y hy => h y (List.mem_cons_of_mem x hy))

end Leaves

/-- Lines that are put out are left behind as they are. -/
theorem leaves_out (ls : List Text) : Leaves (out ls) ls [] (.ok ()) := by
  refine ⟨{ output := ls.toArray }, fun s => ?_, rfl, rfl⟩
  change (Except.ok (), { s with output := s.output ++ ls.toArray }) = (_, Trail.mk _ _ _)
  rw [Array.append_empty, List.append_nil]

/-- Lines of the log do not count. -/
theorem leaves_complain (ls : List Text) : Leaves (complain ls) [] [] (.ok ()) := by
  refine ⟨{ errors := ls.toArray }, fun s => ?_, rfl, rfl⟩
  change (Except.ok (), { s with errors := s.errors ++ ls.toArray }) = (_, Trail.mk _ _ _)
  rw [Array.append_empty, List.append_nil]

/-- What is logged is not on the terminal. -/
theorem leaves_log (s : Surroundings) (logger : Logger) (ls : List LogLine) :
    Leaves (log s logger ls) [] [] (.ok ()) := by
  have hlog : Leaves (log s logger ls) ((ls.filter logger.keeps).flatMap fun _ => []) [] (.ok ()) :=
    Leaves.forM fun l _ => leaves_complain (Text.lines (l.written s.time))
  rwa [List.flatMap_eq_nil_iff.mpr fun _ _ => rfl] at hlog

/-- A file that is written. -/
theorem leaves_write (path : Path) (document : Text) :
    Leaves (modify fun t => { t with written := t.written ++ [(path, document)] } : Session Unit) []
      [(path, document)] (.ok ()) := by
  refine ⟨{ written := [(path, document)] }, fun s => ?_, rfl, rfl⟩
  change (Except.ok (), { s with written := s.written ++ [(path, document)] })
    = (_, Trail.mk _ _ _)
  rw [Array.append_empty, Array.append_empty]

/-! ### Parts of a call that print -/

/-- **A call that prints parts in turn** and answers at the end, unless one of them fails. Nothing
is written to files. -/
def PrintsInTurn (p : Session α) (parts : List Report.Showing) (a : α) : Prop :=
  Leaves p (Report.inTurn parts).2 []
    (match (Report.inTurn parts).1 with
    | .ok () => .ok a
    | .error e => .error (.failure (.view e)))

namespace PrintsInTurn

variable {parts parts' : List Report.Showing} {b : β}

/-- A part of a call that prints nothing. -/
theorem of_leaves (h : Leaves p [] [] (.ok a)) : PrintsInTurn p [] a := h

theorem pure (a : α) : PrintsInTurn (Pure.pure a) [] a := Leaves.pure a

/-- What is printed goes to the output of the call, and a failure of printing is one of the call. -/
theorem printing (q : Report.Showing) : PrintsInTurn (Session.printing q) [q] () := by
  unfold PrintsInTurn Report.inTurn Session.printing
  rcases q.printed with ⟨_ | ⟨⟨⟩⟩, ls⟩
  · exact ((leaves_out ls).andThen (Leaves.throw _)).of_eq (List.append_nil ls) rfl
  · exact (leaves_out ls).andThen (Leaves.pure ())

/-- **If all parts go through**, the call has its answer. -/
theorem leaves (h : PrintsInTurn p parts a) (hparts : (Report.inTurn parts).1 = .ok ()) :
    Leaves p (Report.inTurn parts).2 [] (.ok a) := by
  unfold PrintsInTurn at h
  rwa [hparts] at h

/-- **If one of them fails**, so does the call. -/
theorem leaves_error (h : PrintsInTurn p parts a) {e : ViewFailure}
    (hparts : (Report.inTurn parts).1 = .error e) :
    Leaves p (Report.inTurn parts).2 [] (.error (.failure (.view e))) := by
  unfold PrintsInTurn at h
  rwa [hparts] at h

/-- **One call after another** prints the parts of the one and then those of the other. -/
theorem bind (h : PrintsInTurn p parts a) {next : α → Session β}
    (hnext : PrintsInTurn (next a) parts' b) : PrintsInTurn (p >>= next) (parts ++ parts') b := by
  cases hparts : (Report.inTurn parts).1 with
  | ok _ =>
    have hboth := (h.leaves hparts).bind hnext
    unfold PrintsInTurn
    rw [Report.inTurn_append_of_ok hparts]
    exact hboth
  | error e =>
    have hfirst := (h.leaves_error hparts).bind_error next
    unfold PrintsInTurn
    rw [Report.inTurn_append_of_error hparts, hparts]
    exact hfirst

theorem andThen (h : PrintsInTurn p parts a) {q : Session β} (hq : PrintsInTurn q parts' b) :
    PrintsInTurn (p >>= fun _ => q) (parts ++ parts') b :=
  h.bind hq

/-- A part of a call for each member of a list. -/
theorem forM {f : β → Session Unit} {parts : β → List Report.Showing} {xs : List β}
    (h : ∀ x ∈ xs, PrintsInTurn (f x) (parts x) ()) :
    PrintsInTurn (xs.forM f) (xs.flatMap parts) () := by
  induction xs with
  | nil => exact pure ()
  | cons x xs ih =>
    exact (h x List.mem_cons_self).andThen (ih fun y hy => h y (List.mem_cons_of_mem x hy))

/-- A part of a call for each member of a list prints in turn, and its answers are collected. -/
theorem mapM {f : β → Session α} {parts : β → List Report.Showing} {answer : β → α} {xs : List β}
    (h : ∀ x ∈ xs, PrintsInTurn (f x) (parts x) (answer x)) :
    PrintsInTurn (xs.mapM f) (xs.flatMap parts) (xs.map answer) := by
  induction xs with
  | nil => exact pure []
  | cons x xs ih =>
    rw [List.mapM_cons]
    have hrest : PrintsInTurn (xs.mapM f >>= fun as => Pure.pure (answer x :: as)) _ _ :=
      (ih fun y hy => h y (List.mem_cons_of_mem x hy)).bind (pure _)
    rw [List.append_nil] at hrest
    exact (h x List.mem_cons_self).bind hrest

end PrintsInTurn

end Session

end StepCheck
