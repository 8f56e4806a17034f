import StepCheck.Proofs.Check.Outcomes
import StepCheck.Proofs.Utf8.Decoding

/-!
# Runs over bytes and over texts

A file can be handed in as bytes, which then have to be UTF-8, or as the text that its bytes give
with broken ones kept as surrogates. A run over the bytes is refused just where a run over the text
warns of its encoding. Both name the place: the refusal counts the bytes before it, and the warning
the code points, and what lies before it is the longest well-formed beginning in either case.

* `Outcome.WarnsOfEncoding` — the warning;
* `Envelope.warns_iff` — it is given just for texts with surrogates, and names the first one;
* `Pipeline.validate_bytes_agrees` — the two kinds of run side by side.
-/

namespace StepCheck

/-! ### The warning -/

/-- **An outcome warns of the encoding** of the content. -/
def Outcome.WarnsOfEncoding (o : Outcome) : Prop :=
  o.rule = some "CHARACTER_ENCODING" ∧ o.severity = .warning

namespace Envelope

variable {policy : Policy} {t : Text}

/-- The text of the warning about a surrogate at an offset. -/
theorem encodingFinding_of_firstSurrogate? {l : Layout} {offset : Nat}
    (h : l.content.firstSurrogate? = some offset) :
    (encodingFinding l).severity = .warning ∧
      (encodingFinding l).observed
        = "Problematic character encoding at offset " ++ Text.ofNat offset := by
  unfold encodingFinding
  rw [h]
  exact ⟨rfl, rfl⟩

/-- What warns of the encoding names the offset of the first surrogate. -/
theorem observed_of_warns {o : Outcome}
    (ho : o ∈ CheckGroup.all.flatMap (CheckGroup.outcomes policy (Layout.of t)))
    (hw : o.WarnsOfEncoding) :
    ∃ offset, t.firstSurrogate? = some offset ∧
      o.observed = "Problematic character encoding at offset " ++ Text.ofNat offset := by
  have hgroup : Rule.characterEncoding ∈ Rule.ofGroup .envelope := by decide
  obtain ⟨f, hf, hr, rfl⟩ := CheckGroup.exists_of_rule hgroup ho hw.1
  obtain rfl := eq_encodingFinding hf hr
  cases hfirst : t.firstSurrogate? with
  | some offset =>
    exact ⟨offset, rfl, (encodingFinding_of_firstSurrogate? (l := Layout.of t) hfirst).2⟩
  | none =>
    -- without surrogates the rule is kept
    have hpassed : (encodingFinding (Layout.of t)).severity = .passed := by
      unfold encodingFinding
      rw [show (Layout.of t).content.firstSurrogate? = none from hfirst]
      rfl
    have hwarning := hw.2
    rw [Finding.outcome_severity, hpassed] at hwarning
    cases hwarning

/-- **A report warns of the encoding** just when the text has a surrogate. -/
theorem warns_iff :
    (∃ o ∈ CheckGroup.all.flatMap (CheckGroup.outcomes policy (Layout.of t)), o.WarnsOfEncoding)
      ↔ t.firstSurrogate?.isSome := by
  constructor
  · rintro ⟨o, ho, hw⟩
    obtain ⟨offset, hoffset, -⟩ := observed_of_warns ho hw
    rw [hoffset]
    rfl
  · intro h
    obtain ⟨offset, hoffset⟩ := Option.isSome_iff_exists.mp h
    have hmem : encodingFinding (Layout.of t) ∈ CheckGroup.envelope.findings policy (Layout.of t) :=
      List.mem_append_right _ (List.mem_singleton.mpr rfl)
    refine ⟨_, CheckGroup.mem_outcomes hmem, ?_, ?_⟩
    · rw [Finding.outcome_rule, (encodingFinding_spec _).1]
      rfl
    · rw [Finding.outcome_severity]
      exact (encodingFinding_of_firstSurrogate? (l := Layout.of t) hoffset).1

end Envelope

/-! ### The two kinds of run -/

namespace Pipeline

variable {p : Pipeline} {P : Policy} {seconds : Float} {bs : List UInt8}

/-- Bytes that can be decoded are checked as their text is. -/
theorem validate_bytes_of_decode {t : Text} (hi : p.isInitialized) (hp : p.policy = some P)
    (ht : Utf8.decode .strict bs = .ok t) (sink : Option Sink) (elapsed : Datum) (filename : Text) :
    p.validate sink elapsed (.bytes bs) (.text filename)
      = p.validate sink elapsed (.text t) (.text filename) := by
  have htext : (Content.bytes bs).toText (Datum.text filename).shown = .ok t := by
    rw [Content.toText, ht]
  rw [validate_of_toText hi hp htext, validate_of_toText hi hp rfl]

/-- Bytes that cannot be decoded are refused, for the reason that the decoder gives. -/
theorem result_validate_bytes_of_error {e : Utf8.DecodeError} (hi : p.isInitialized)
    (he : Utf8.decode .strict bs = .error e) (sink : Option Sink) (elapsed : Datum)
    (filename : Text) :
    (p.validate sink elapsed (.bytes bs) (.text filename)).result
      = .error (.undecodable filename e.message) := by
  have htext : (Content.bytes bs).toText (Datum.text filename).shown
      = .error (.undecodable filename e.message) := by
    rw [Datum.shown_text, Content.toText, he]
  rw [validate_of_toText_eq_error hi htext]
  rfl

/-- A text is never refused as undecodable. -/
theorem result_validate_text_ne_undecodable (hi : p.isInitialized) (hp : p.policy = some P)
    (hP : P.Accepted) (hs : 0 ≤ seconds) (sink : Option Sink) (t filename name reason : Text) :
    (p.validate sink (.real seconds) (.text t) (.text filename)).result
      ≠ .error (.undecodable name reason) := by
  intro h
  rw [validate_of_toText hi hp rfl, runText_eq hP hs] at h
  -- such a run ends with a report, or is interrupted
  dsimp only at h
  split at h <;> cases h

/-- A run over a text that is heard out ends with the report of its outcomes. -/
theorem result_validate_text {t : Text} {sink : Option Sink} (hi : p.isInitialized)
    (hp : p.policy = some P) (hP : P.Accepted) (hs : 0 ≤ seconds)
    (h : Sink.Patient sink (Notification.series (P.estimator.estimate t))) (filename : Text) :
    (p.validate sink (.real seconds) (.text t) (.text filename)).result
      = .ok (.of filename seconds (P.estimator.estimate t)
        (CheckGroup.all.flatMap (CheckGroup.outcomes P (Layout.of t)))) := by
  rw [validate_of_toText hi hp rfl, runText_of_patient hP hs p h]

/-- **Bytes and texts agree.** The bytes of a file always have a text with broken bytes kept, from
which they can be had back. Decoding them strictly gives the same text if it has no surrogate, and
nothing otherwise. So a run over the bytes is refused as undecodable just when the report of a run
over the text warns of the encoding; the refusal then names the number of bytes of the longest
well-formed beginning, and the warning the number of its code points. If nothing is refused, the two
runs are the same. -/
theorem validate_bytes_agrees (hi : p.isInitialized) (hp : p.policy = some P) (hP : P.Accepted)
    (hs : 0 ≤ seconds) (filename : Text) (bs : List UInt8) :
    ∃ s, Utf8.decode .surrogates bs = .ok s ∧ Utf8.encodeKept? s = some bs ∧
      (∀ t, Utf8.decode .strict bs = .ok t ↔ t = s ∧ ∀ c ∈ s, c.isSurrogate = false) ∧
      let overBytes sink := p.validate sink (.real seconds) (.bytes bs) (.text filename)
      let overText sink := p.validate sink (.real seconds) (.text s) (.text filename)
      ∀ sink, Sink.Patient sink (Notification.series (P.estimator.estimate s)) →
        ∃ r, (overText sink).result = .ok r ∧ ∀ sink',
          ((∃ reason, (overBytes sink').result = .error (.undecodable filename reason)) ↔
            ∃ o ∈ r.results, o.WarnsOfEncoding) ∧
          ((∀ o ∈ r.results, ¬ o.WarnsOfEncoding) → overBytes sink' = overText sink') ∧
          ∀ reason, (overBytes sink').result = .error (.undecodable filename reason) →
            ∃ good t broken flaw, Utf8.LongestWellFormed bs good ∧ Utf8.encode? t = some good ∧
              broken ≠ [] ∧ good ++ broken <+: bs ∧
              reason = (Utf8.DecodeError.malformed good.length broken flaw).message ∧
              ∀ o ∈ r.results, o.WarnsOfEncoding →
                o.observed
                  = "Problematic character encoding at offset " ++ Text.ofNat t.length := by
  obtain ⟨good, hgood, hlongest, hdecode⟩ := Utf8.decode_cases bs
  rcases hdecode with ⟨hkept, hstrict⟩ | ⟨broken, flaw, kept, hbroken, hprefix, hkept, hfirst,
    hstrict⟩
  · -- nothing is broken: both runs are over one text, and that has no surrogate to warn of
    have hnone : good.firstSurrogate? = none := List.findIdx?_eq_none_iff.mpr hgood
    have hsame := fun sink =>
      validate_bytes_of_decode hi hp hstrict sink (.real seconds) filename
    refine ⟨good, hkept, Utf8.encodeKept?_of_decode hkept, ?_, ?_⟩
    · intro t
      rw [hstrict, Except.ok.injEq]
      exact ⟨fun h => ⟨h.symm, hgood⟩, fun h => h.1.symm⟩
    · intro overBytes overText sink h
      refine ⟨_, result_validate_text hi hp hP hs h filename, fun sink' => ?_⟩
      have hresult : ∀ reason,
          (overBytes sink').result ≠ .error (.undecodable filename reason) := by
        intro reason
        change (p.validate _ _ _ _).result ≠ _
        rw [hsame]
        exact result_validate_text_ne_undecodable hi hp hP hs sink' good filename _ reason
      refine ⟨?_, fun _ => hsame sink', fun reason hreason => absurd hreason (hresult reason)⟩
      refine iff_of_false (fun h => hresult _ h.choose_spec) ?_
      rw [Report.of_results, Envelope.warns_iff, hnone]
      exact Bool.false_ne_true
  · -- the first broken byte is kept as a surrogate right behind the well-formed beginning
    have hoffset : (good ++ kept).firstSurrogate? = some good.length := by
      rw [Utf8.firstSurrogate?_append hgood, hfirst, Option.map_some, Nat.zero_add]
    refine ⟨good ++ kept, hkept, Utf8.encodeKept?_of_decode hkept, ?_, ?_⟩
    · intro t
      rw [hstrict]
      refine iff_of_false nofun ?_
      rintro ⟨-, hall⟩
      rw [Text.firstSurrogate?, List.findIdx?_eq_none_iff.mpr hall] at hoffset
      cases hoffset
    · intro overBytes overText sink h
      have hwarns : ∃ o ∈ CheckGroup.all.flatMap (CheckGroup.outcomes P (Layout.of (good ++ kept))),
          o.WarnsOfEncoding := by
        rw [Envelope.warns_iff, hoffset]
        rfl
      refine ⟨_, result_validate_text hi hp hP hs h filename, fun sink' => ?_⟩
      have hrefused :=
        result_validate_bytes_of_error hi hstrict sink' (.real seconds) filename
      refine ⟨iff_of_true ⟨_, hrefused⟩ hwarns, fun hno => ?_, fun reason hreason => ?_⟩
      · obtain ⟨o, ho, hw⟩ := hwarns
        exact absurd hw (hno o ho)
      · -- the refusal counts the bytes of that beginning, and the warning its code points
        change (p.validate _ _ _ _).result = _ at hreason
        rw [hrefused, Except.error.injEq, RunError.undecodable.injEq] at hreason
        refine ⟨_, good, broken, flaw, hlongest, Utf8.encode?_eq_some_iff.mpr ⟨hgood, rfl⟩,
          hbroken, hprefix, hreason.2.symm, ?_⟩
        intro o ho hw
        obtain ⟨offset, hoff, hobserved⟩ := Envelope.observed_of_warns ho hw
        rw [hoffset, Option.some.injEq] at hoff
        rw [hobserved, ← hoff]

/-- Two letters, and a character of four bytes that breaks off after two. -/
def brokenSample : List UInt8 := [0x41, 0xC3, 0xA9, 0xF0, 0x9F, 0x41]

/-- The bytes are refused at the fourth of them, so the report over their text warns. -/
theorem validate_bytes_agrees_broken :
    ∃ s r, Utf8.decode .surrogates brokenSample = .ok s ∧
      (validateContent (some Policy.bundled) none (.real 0) (.text s) (.text "a.ifc")).result
        = .ok r ∧
      (validateContent (some Policy.bundled) none (.real 0) (.bytes brokenSample)
        (.text "a.ifc")).result = .error (.undecodable "a.ifc"
          "'utf-8' codec can't decode bytes in position 3-4: invalid continuation byte") ∧
      ∃ o ∈ r.results, o.WarnsOfEncoding := by
  obtain ⟨s, hs, -, -, h⟩ := validate_bytes_agrees (p := (Pipeline.new (some Policy.bundled)).ready)
    rfl rfl Policy.accepted_bundled (by decide : (0 : Float) ≤ 0) "a.ifc" brokenSample
  obtain ⟨r, hr, hruns⟩ := h none (Sink.patient_none _)
  have hrefused : (validateContent (some Policy.bundled) none (.real 0) (.bytes brokenSample)
      (.text "a.ifc")).result = .error (.undecodable "a.ifc"
        "'utf-8' codec can't decode bytes in position 3-4: invalid continuation byte") := by
    have htext : (Content.bytes brokenSample).toText (Datum.text "a.ifc").shown
        = .error (.undecodable "a.ifc"
          "'utf-8' codec can't decode bytes in position 3-4: invalid continuation byte") := by
      decide +kernel
    unfold validateContent
    rw [validate_of_toText_eq_error rfl htext]
    rfl
  exact ⟨s, r, hs, hr, hrefused, (hruns none).1.mp ⟨_, hrefused⟩⟩

end Pipeline

end StepCheck
