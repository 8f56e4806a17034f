import StepCheck.Proofs.CommandLine.Leaves
import StepCheck.Proofs.Console.Terminal
import StepCheck.Proofs.Policy.Refusals

/-!
# What can go wrong with a policy file

A policy that cannot be read is answered with a failure that names its file, and the program tells
of it and ends with exit code 1. Two kinds of files are answered otherwise: the reader of documents
fails on them without finding fault with the document, as it does on a scalar that does not have the
form that its tag asks for; or something that cannot be gone through stands in the place of a list
of names. The failures of these files do not name them, and some of them are not told at all, but
break off the program.

Which documents have values, and which values, is a matter of the reader, and nothing is assumed of
it.

* `Yaml.FileFailure.isOrderly` — the failures that name the file, which can always be told of
  (`Yaml.isWritable_message_of_load`);
* `Policy.Unruly` — the files that are answered otherwise, with their failures;
* `Policy.load_cases` — a file is answered otherwise only if it is one of these;
* `Session.policy_answers` — what reading a policy gives, and what the program makes of it.
-/

namespace StepCheck

open Yaml

/-! ### Files -/

/-- **The failures that name the file.** -/
def Yaml.FileFailure.isOrderly : FileFailure → Bool
  | absent | undecodable _ | malformed | empty | refused (.faults _) => true
  | failed _ | refused (.notIterable _) | unclear => false

/-- **A failure that names the file** has its path in what is said of it. -/
theorem Yaml.FileFailure.shown_infix_message {e : FileFailure} (h : e.isOrderly = true)
    (path : Path) : path.shown <:+: e.message path := by
  cases e with
  | absent => exact (List.suffix_append _ _).isInfix
  | undecodable e => exact ⟨"Unable to decode UTF-8 in ", ": " ++ e.message, by
      rw [message]
      simp only [List.append_assoc]⟩
  | malformed => exact (List.suffix_append _ _).isInfix
  | empty => exact (List.suffix_append _ _).isInfix
  | failed f => cases h
  | refused r =>
    cases r with
    | faults fs => exact (List.suffix_append _ _).isInfix
    | notIterable kind => cases h
  | unclear => cases h

section Load

variable {α : Type} {reader : Reader} (intake : Intake α) {bs : List UInt8} {t : Text} {d : Datum}

/-- The failure in an answer. -/
def Yaml.failure? : Except FileFailure α → Option FileFailure
  | .ok _ => none
  | .error e => some e

/-- The failure in an answer is the one that it fails with. -/
theorem Yaml.failure?_eq_some_iff {answer : Except FileFailure α} {e : FileFailure} :
    failure? answer = some e ↔ answer = .error e := by
  cases answer with
  | ok a => exact iff_of_false nofun nofun
  | error e' =>
    change some e' = some e ↔ _
    rw [Option.some.injEq, Except.error.injEq]

/-- Bytes that are no text have no value. -/
theorem Yaml.load_of_undecodable {e : Utf8.DecodeError} (h : Utf8.decode .strict bs = .error e) :
    Yaml.load reader intake (some bs) = .error (.undecodable e) := by
  unfold Yaml.load
  dsimp only
  rw [h]
  rfl

/-- A text to which the reader gives no value has none. -/
theorem Yaml.load_of_unread {f : Failure} (h : Utf8.decode .strict bs = .ok t)
    (hf : reader (withLineFeeds t) = .error f) :
    Yaml.load reader intake (some bs)
      = .error (if f = .malformed then FileFailure.malformed else .failed f) := by
  unfold Yaml.load
  dsimp only
  rw [h]
  dsimp only
  rw [hf]
  cases f <;> rfl

/-- A value is taken in or refused, unless there is none. -/
theorem Yaml.load_of_read (h : Utf8.decode .strict bs = .ok t)
    (hd : reader (withLineFeeds t) = .ok d) :
    (d = .null ∧ Yaml.load reader intake (some bs) = .error .empty) ∨
      Yaml.load reader intake (some bs) = (intake d).mapError .refused := by
  unfold Yaml.load
  dsimp only
  rw [h]
  dsimp only
  rw [hd]
  cases d with
  | null => exact .inl ⟨rfl, rfl⟩
  | _ =>
    right
    dsimp only
    cases intake _ <;> rfl

/-- A failure to decode is told of bytes that are no text only. -/
theorem Yaml.decode_of_load_eq_undecodable {e : Utf8.DecodeError}
    (h : Yaml.load reader intake (some bs) = .error (.undecodable e)) :
    Utf8.decode .strict bs = .error e := by
  cases hdecode : Utf8.decode .strict bs with
  | error e' =>
    rw [load_of_undecodable intake hdecode] at h
    cases h
    rfl
  | ok t =>
    -- behind the decoding there are other failures only
    exfalso
    cases hread : reader (withLineFeeds t) with
    | error f =>
      rw [load_of_unread intake hdecode hread] at h
      split at h <;> cases h
    | ok d =>
      rcases load_of_read intake hdecode hread with ⟨-, hd⟩ | hd
      · rw [hd] at h
        cases h
      · rw [hd] at h
        cases hd : intake d <;> rw [hd] at h <;> cases h

/-- What is said of broken bytes holds numbers and fixed words. -/
theorem Utf8.isWritable_message {e : Utf8.DecodeError} (h : Utf8.decode .strict bs = .error e) :
    e.message.IsWritable := by
  have hhex : ∀ width n, (Text.hex width n).IsWritable := by
    intro width n c hc
    obtain ⟨d, hd, rfl⟩ := Text.mem_hex hc
    have hall : ∀ d < 16, (CodePoint.ofChar d.digitChar).isSurrogate = false := by decide
    exact hall d hd
  have hnat : ∀ n, (Text.ofNat n).IsWritable := fun n => (Text.isPlain_ofNat n).isWritable
  have hflaw : ∀ flaw : Utf8.Flaw, flaw.message.IsWritable := by
    intro flaw
    cases flaw <;> decide
  -- no other treatment is asked for, so that no name of one is told
  unfold Utf8.decode at h
  cases hbroken : Utf8.firstBroken? 0 (Utf8.pieces bs) with
  | none =>
    rw [hbroken] at h
    cases h
  | some found =>
    obtain ⟨position, bytes, flaw⟩ := found
    rw [hbroken] at h
    cases h
    unfold Utf8.DecodeError.message
    split
    · next b _ heq =>
      cases heq
      refine ((((Text.IsWritable.append ?_ (hhex _ _)).append ?_).append (hnat _)).append ?_).append
        (hflaw _) <;> decide
    · next heq =>
      cases heq
      refine (((Text.IsWritable.append ?_ (hnat _)).append ?_).append (hnat _)).append ?_ |>.append
        (hflaw _) <;> decide
    · next heq => cases heq

/-- **What is said of a failure that names the file** can be written if the path can. -/
theorem Yaml.isWritable_message_of_load {e : FileFailure}
    (h : Yaml.load reader intake (some bs) = .error e) (horderly : e.isOrderly = true) {path : Path}
    (hpath : path.shown.IsWritable) : (e.message path).IsWritable := by
  have hbefore : ∀ {t : Text}, t.IsWritable → Text.IsWritable (t ++ path.shown) :=
    fun ht => ht.append hpath
  -- every message that names the file ends in the path, or in what is said of its bytes
  cases e with
  | absent => exact hbefore (by decide : Text.IsWritable "File not found: ")
  | undecodable e =>
    have hdecode := decode_of_load_eq_undecodable intake h
    have hfront := hbefore (by decide : Text.IsWritable "Unable to decode UTF-8 in ")
    exact (hfront.append (by decide)).append (Utf8.isWritable_message hdecode)
  | malformed => exact hbefore (by decide : Text.IsWritable "Invalid YAML in ")
  | empty => exact hbefore (by decide : Text.IsWritable "Empty YAML file: ")
  | failed f => cases horderly
  | refused r =>
    cases r with
    | faults fs => exact hbefore (by decide : Text.IsWritable "Invalid structure in ")
    | notIterable kind => cases horderly
  | unclear => cases horderly

end Load

namespace Policy

/-- **Files that are answered otherwise**, with their failures. -/
inductive Unruly (reader : Reader) (bs : List UInt8) : FileFailure → Prop
  /-- The reader fails, but not since the document is malformed. -/
  | scalar {t : Text} {f : Failure} (decoded : Utf8.decode .strict bs = .ok t)
      (unread : reader (withLineFeeds t) = .error f) (formed : f ≠ .malformed) :
      Unruly reader bs (.failed f)
  /-- Something that cannot be gone through stands in the place of a list of names. -/
  | names {t : Text} {d : Datum} {kind : Text} (decoded : Utf8.decode .strict bs = .ok t)
      (value : reader (withLineFeeds t) = .ok d) (misplaced : misplaced? d = some kind) :
      Unruly reader bs (.refused (.notIterable kind))

variable {reader : Reader} {bs : List UInt8} {e : FileFailure}

/-- An unruly file is answered with its failure. -/
theorem Unruly.load_eq (h : Unruly reader bs e) : Yaml.load reader intake (some bs) = .error e := by
  cases h with
  | scalar decoded unread formed => rw [load_of_unread intake decoded unread, if_neg formed]
  | names decoded value misplaced =>
    rcases load_of_read intake decoded value with ⟨rfl, -⟩ | h
    · cases misplaced
    · rw [h, intake_eq_notIterable_iff.mpr misplaced]
      rfl

/-- **What a file gives**: a policy, a failure that names the file, or it is one of those that are
answered otherwise. -/
theorem load_cases (reader : Reader) (bs : List UInt8) :
    (∃ P, Yaml.load reader intake (some bs) = .ok P) ∨
      (∃ e, Yaml.load reader intake (some bs) = .error e ∧ e.isOrderly = true) ∨
      ∃ e, Unruly reader bs e := by
  cases hdecoded : Utf8.decode .strict bs with
  | error e => exact .inr (.inl ⟨_, load_of_undecodable intake hdecoded, rfl⟩)
  | ok t =>
    cases hread : reader (withLineFeeds t) with
    | error f =>
      by_cases hf : f = .malformed
      · refine .inr (.inl ⟨_, load_of_unread intake hdecoded hread, ?_⟩)
        rw [if_pos hf]
        rfl
      · exact .inr (.inr ⟨_, .scalar hdecoded hread hf⟩)
    | ok d =>
      rcases load_of_read intake hdecoded hread with ⟨-, h⟩ | h
      · exact .inr (.inl ⟨_, h, rfl⟩)
      · rw [h]
        -- the value is taken in, or there are faults in it, or something else than a list is in the
        -- place of one
        cases hd : intake d with
        | ok P => exact .inl ⟨P, rfl⟩
        | error r =>
          cases r with
          | faults fs => exact .inr (.inl ⟨_, rfl, rfl⟩)
          | notIterable kind =>
            exact .inr (.inr ⟨_, .names hdecoded hread (intake_eq_notIterable_iff.mp hd)⟩)

end Policy

/-! ### Calls of the program -/

namespace Session

/-- Failures that name the file are told. -/
theorem isTold_of_isOrderly {e : FileFailure} (h : e.isOrderly = true) : isTold e = true := by
  cases e with
  | failed f => cases h
  | refused r => cases r <;> first | rfl | cases h
  | _ => rfl

/-- **What is said of a failure that names the file** is in order. -/
theorem proper_policyNotice {path : Path} {e : FileFailure} (h : (e.message path).IsWritable) :
    Markup.Proper (policyNotice path e) := by
  have hproper : Markup.Proper ("[" ++ "red" ++ "]"
      ++ ("Error loading policy: " ++ Markup.escape (e.message path)) ++ ("[/" ++ "red" ++ "]")) :=
    .inStyle "red" (by decide) (.before (by decide) (.escaped h))
  have htext : policyNotice path e = "[" ++ "red" ++ "]"
      ++ ("Error loading policy: " ++ Markup.escape (e.message path))
      ++ ("[/" ++ "red" ++ "]") := by
    unfold policyNotice
    simp only [List.append_assoc]
    rfl
  rwa [htext]

section Policy

variable {s : Surroundings} {path : Path} {bs : List UInt8}

/-- Reading a policy from a file that is there is loading it and using it. -/
theorem policy_eq (logger : Logger) (hfile : s.files.bytes? path = some bs)
    {loaded : Except FileFailure Policy}
    (h : Yaml.load s.reader Policy.intake (some bs) = loaded) :
    policy s logger (some path) = usePolicy s logger path loaded := by
  unfold Files.bytes? at hfile
  cases hread : s.files.read path with
  | error problem =>
    rw [hread] at hfile
    cases hfile
  | ok bytes =>
    rw [hread] at hfile
    cases hfile
    unfold policy
    dsimp only
    rw [hread, ← h]

/-- A policy is used, and the log tells of it. -/
theorem run_usePolicy_of_ok (logger : Logger) (P : Policy) (trail : Trail) :
    ((usePolicy s logger path (.ok P)).run trail).1 = .ok P := by
  unfold usePolicy log
  -- the line of the log is kept or not
  by_cases hkeeps : logger.keeps ⟨.info, "policy", "loaded validation policy from " ++ path.shown⟩
  · rw [List.filter_cons_of_pos hkeeps]
    rfl
  · rw [List.filter_cons_of_neg hkeeps]
    rfl

variable {e : FileFailure} (trail : Trail)

/-- A failure that is told ends the call with exit code 1. -/
theorem run_usePolicy_of_isTold (logger : Logger) (htold : isTold e = true) {ls : List Text}
    (hls : s.terminal.text (policyNotice path e) = .ok ls) :
    (usePolicy s logger path (.error e)).run trail
      = (.error (.exit 1), { trail with output := trail.output ++ ls.toArray }) := by
  have hsay : (say s (policyNotice path e)).run trail
      = (.ok (), { trail with output := trail.output ++ ls.toArray }) := by
    have hprinted : (Report.say s.terminal (policyNotice path e)).printed = (.ok (), ls) :=
      (Console.writes_emitMade hls ViewFailure.console).printed
    unfold say printing
    rw [hprinted]
    rfl
  unfold usePolicy
  dsimp only
  rw [if_pos htold, run_bind_of_run_eq hsay]
  rfl

/-- If the terminal fails on what is said of it, the call breaks off there. -/
theorem run_usePolicy_of_unprinted (logger : Logger) (htold : isTold e = true) {f : PrintFailure}
    (hf : s.terminal.text (policyNotice path e) = .error f) :
    (usePolicy s logger path (.error e)).run trail
      = (.error (.failure (.view (.console f))), trail) := by
  have hsay : (say s (policyNotice path e)).run trail
      = (.error (.failure (.view (.console f))), trail) := by
    have hprinted : (Report.say s.terminal (policyNotice path e)).printed
        = (.error (.console f), []) :=
      (Console.writes_emitMade_error hf ViewFailure.console).printed
    unfold say printing
    rw [hprinted]
    change (_, { trail with output := trail.output ++ #[] }) = _
    rw [Array.append_empty]
  unfold usePolicy
  dsimp only
  rw [if_pos htold]
  -- what follows a failure is not begun
  change (fun p : Except Ending Unit × Trail =>
    (ExceptT.bindCont (fun _ => exit 1) p.1 : StateM Trail _) p.2)
      ((say s (policyNotice path e)).run trail) = _
  rw [hsay]
  rfl

/-- Any other failure breaks the call off, and nothing is printed. -/
theorem run_usePolicy_of_untold (logger : Logger) (htold : isTold e = false) :
    (usePolicy s logger path (.error e)).run trail
      = (.error (.failure (.policy path e)), trail) := by
  unfold usePolicy
  dsimp only
  rw [htold]
  rfl

end Policy

/-- **What reading a policy gives**, and what the program makes of it. Just the unruly files are
answered with their failures. Every other file gives a policy, or a failure that names the file and
is told; and what is told of it is printed on every terminal that prints what is in order, if the
path can be written. If a failure is told, the call ends with exit code 1 behind a message that says
so, unless the terminal fails on the message; and if it is not told, the call breaks off. -/
theorem policy_answers (s : Surroundings) (logger : Logger) (path : Path) (bs : List UInt8)
    (hfile : s.files.bytes? path = some bs) :
    let loaded := Yaml.load s.reader Policy.intake (some bs)
    let notice := fun e : FileFailure =>
      "[red]Error loading policy: " ++ Markup.escape (e.message path) ++ "[/red]"
    (∀ e, Policy.Unruly s.reader bs e → loaded = .error e ∧ e.isOrderly = false) ∧
    ((¬ ∃ e, Policy.Unruly s.reader bs e) → (∃ P, loaded = .ok P) ∨
      ∃ e, loaded = .error e ∧ e.isOrderly = true ∧ path.shown <:+: e.message path ∧
        isTold e = true ∧
        (s.terminal.Sound → path.shown.IsWritable → s.terminal.Prints (notice e))) ∧
    ∀ trail,
      let answer := (policy s logger (some path)).run trail
      (∀ P, loaded = .ok P → answer.1 = .ok P) ∧
      (∀ e, loaded = .error e → isTold e = true →
        (∀ ls, s.terminal.text (notice e) = .ok ls →
          answer = (.error (.exit 1), { trail with output := trail.output ++ ls.toArray })) ∧
        (∀ f, s.terminal.text (notice e) = .error f →
          answer = (.error (.failure (.view (.console f))), trail))) ∧
      (∀ e, loaded = .error e → isTold e = false →
        answer = (.error (.failure (.policy path e)), trail)) := by
  intro loaded notice
  refine ⟨?_, ?_, fun trail => ?_⟩
  · intro e he
    refine ⟨he.load_eq, ?_⟩
    cases he <;> rfl
  · intro hno
    -- what is left over when the unruly files are taken away
    rcases Policy.load_cases s.reader bs with hok | ⟨e, he, horderly⟩ | hunruly
    · exact .inl hok
    · refine .inr ⟨e, he, horderly, e.shown_infix_message horderly path,
        isTold_of_isOrderly horderly, fun hsound hpath => hsound.prints ?_⟩
      exact proper_policyNotice (isWritable_message_of_load Policy.intake he horderly hpath)
    · exact absurd hunruly hno
  · refine ⟨fun P hP => ?_, fun e he htold => ⟨fun ls hls => ?_, fun f hf => ?_⟩,
      fun e he htold => ?_⟩
    · rw [policy_eq logger hfile hP]
      exact run_usePolicy_of_ok logger P trail
    · rw [policy_eq logger hfile he]
      exact run_usePolicy_of_isTold trail logger htold hls
    · rw [policy_eq logger hfile he]
      exact run_usePolicy_of_unprinted trail logger htold hf
    · rw [policy_eq logger hfile he]
      exact run_usePolicy_of_untold trail logger htold

/-- A folder with one file, `policy.yaml`. -/
def policyFolder (document : List UInt8) : Surroundings where
  files := (FileTree.mk [(Path.of "policy.yaml", document)] []).entry
  reader := Yaml.read
  terminal := .utf8
  policyVariable := none
  levelVariable := none
  elapsed := fun _ => 0
  time := "<time>"

/-- A document with a bracket that is not closed. -/
def unclosedSample : List UInt8 := List.flatMap Utf8.bytesOf "schemas: [unclosed\n"

/-- The document with the open bracket is told of. -/
theorem policy_answers_unclosed :
    (policy (policyFolder unclosedSample) {} (some (Path.of "policy.yaml"))).run {}
      = (.error (.exit 1),
        { output := #["Error loading policy: Invalid YAML in policy.yaml"] }) := by
  have hload : Yaml.load Yaml.read Policy.intake (some unclosedSample) = .error .malformed :=
    Yaml.failure?_eq_some_iff.mp (by decide +kernel)
  have htext : Terminal.utf8.text ("[red]Error loading policy: "
      ++ Markup.escape (FileFailure.malformed.message (Path.of "policy.yaml")) ++ "[/red]")
      = .ok ["Error loading policy: Invalid YAML in policy.yaml"] := by
    rfl
  obtain ⟨-, -, hcall⟩ := policy_answers (policyFolder unclosedSample) {} (Path.of "policy.yaml")
    unclosedSample (by decide +kernel)
  exact ((hcall {}).2.1 _ hload rfl).1 _ htext

/-- A document with a number where a list of names should be. -/
def numberSample : List UInt8 := List.flatMap Utf8.bytesOf "entities:\n  known: 5\n"

/-- **A number in the place of a list of names** is neither told of, nor does the failure name the
file. -/
theorem policy_of_numberSample :
    let answer := (policy (policyFolder numberSample) {} (some (Path.of "policy.yaml"))).run {}
    ∃ e, Yaml.load Yaml.read Policy.intake (some numberSample) = .error e ∧
      ¬ (Path.of "policy.yaml").shown <:+: e.message (Path.of "policy.yaml") ∧
      answer = (.error (.failure (.policy (Path.of "policy.yaml") e)), {}) := by
  have hload : Yaml.load Yaml.read Policy.intake (some numberSample)
      = .error (.refused (.notIterable "int")) :=
    Yaml.failure?_eq_some_iff.mp (by decide +kernel)
  refine ⟨_, hload, by decide +kernel, ?_⟩
  have hfile : (policyFolder numberSample).files.bytes? (Path.of "policy.yaml")
      = some numberSample := by
    decide +kernel
  rw [policy_eq {} hfile hload]
  exact run_usePolicy_of_untold {} {} rfl

end Session

end StepCheck
