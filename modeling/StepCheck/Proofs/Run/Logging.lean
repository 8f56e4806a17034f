import StepCheck.Proofs.Text.Padding
import StepCheck.Run.Logger

/-!
# The logger after any calls

A logger is set up by calls that give it a level, and a level may have no meaning. A call gives the
logger a handler before it looks at the level, so a refused call is not without consequences: the
first one leaves a handler behind. Every call after that finds a handler and adds none, and then a
level that has no meaning changes nothing at all.

So whether calls take effect as a whole or not at all depends on the first of them only. The level
goes its own way: it is that of the last call whose level has a meaning, however many refused ones
stand between.

* `Text.Spells` — texts that are a word, whatever the case of the letters and the white space around
  it, with `Text.upper_strip_eq_iff`;
* `Level.Means` — the number that a level means, with `Level.resolve_cases`;
* `Logger.configure_cases` — what one call does;
* `Logger.after` — the logger after calls, with `Logger.handlers_after` and
  `Logger.level_after_append`;
* `Logger.AllOrNothing` — calls that take effect as a whole or not at all, with
  `Logger.allOrNothing_iff`;
* `Logger.calls_followed` — what every list of calls does to a logger without handlers.
-/

namespace StepCheck

/-! ### Words as they may be written -/

namespace Text

variable {t word : Text}

/-- **A text spells a word**: in capitals it is the word, with white space around it. -/
def Spells (t word : Text) : Prop :=
  ∃ before core after, IsBlank before ∧ IsBlank after ∧ t = before ++ core ++ after ∧
    core.upper = word

/-- **A word without white space** is what a text has between its white space, in capitals, just if
the text spells it. -/
theorem upper_strip_eq_iff (hword : ∀ c ∈ word, c.isBlank = false) :
    t.strip.upper = word ↔ t.Spells word := by
  constructor
  · intro h
    obtain ⟨before, after, hbefore, hafter, ht⟩ := t.exists_padding
    exact ⟨before, t.strip, after, hbefore, hafter, ht, h⟩
  · rintro ⟨before, core, after, hbefore, hafter, rfl, rfl⟩
    obtain ⟨left, right, hleft, hright, hcore⟩ := core.exists_padding
    have hupper : core.upper = left ++ core.strip.upper ++ right := by
      calc core.upper = (left ++ core.strip ++ right).upper := by rw [← hcore]
        _ = left ++ core.strip.upper ++ right := by
          rw [upper_append, upper_append, hleft.upper, hright.upper]
    -- white space at the ends of the core would be white space of the word
    have hnil : ∀ {pad : Text}, pad.IsBlank → pad ⊆ core.upper → pad = [] := by
      intro pad hpad hsub
      refine List.eq_nil_iff_forall_not_mem.mpr fun c hc => ?_
      have hblank := hpad c hc
      rw [hword c (hsub hc)] at hblank
      cases hblank
    have hleft' : left = [] := hnil hleft fun c hc => by
      rw [hupper]
      exact List.mem_append_left _ (List.mem_append_left _ hc)
    have hright' : right = [] := hnil hright fun c hc => by
      rw [hupper]
      exact List.mem_append_right _ hc
    rw [strip_padded hbefore hafter, hupper, hleft', hright', List.nil_append, List.append_nil]

end Text

/-! ### What a level means -/

namespace Level

variable {level : Datum} {m n : Int}

/-- **The number that a level means**: a number means itself, a flag 0 or 1, and all else the number
of the name that it spells. -/
def Means (level : Datum) (n : Int) : Prop :=
  match level with
  | .int i => n = i
  | .bool b => n = if b then 1 else 0
  | d => ∃ name, (name, n) ∈ names ∧ d.shown.Spells name

/-- **A level has a meaning.** -/
def IsKnown (level : Datum) : Prop := ∃ n, Means level n

/-- No name of a level is there twice. -/
theorem lookup_names_eq_some_iff {name : Text} :
    names.lookup name = some n ↔ (name, n) ∈ names := by
  have hnames : ∀ p ∈ names, names.lookup p.1 = some p.2 := by decide
  exact ⟨mem_of_lookup_eq_some, hnames (name, n)⟩

/-- The names of levels are found for the texts that spell them. -/
theorem lookup_upper_strip_eq_some_iff {t : Text} :
    names.lookup t.strip.upper = some n ↔ ∃ name, (name, n) ∈ names ∧ t.Spells name := by
  have hblank : ∀ p ∈ names, ∀ c ∈ p.1, c.isBlank = false := by decide
  rw [lookup_names_eq_some_iff]
  constructor
  · intro h
    exact ⟨_, h, (Text.upper_strip_eq_iff (hblank _ h)).mp rfl⟩
  · rintro ⟨name, hname, hspells⟩
    rwa [(Text.upper_strip_eq_iff (hblank _ hname)).mpr hspells]

/-- What is neither a number nor a flag means the number of the name that its text spells. -/
theorem means_iff_spells (hint : ∀ i, level ≠ .int i) (hbool : ∀ b, level ≠ .bool b) :
    Means level n ↔ ∃ name, (name, n) ∈ names ∧ level.shown.Spells name := by
  unfold Means
  split
  · next i => exact absurd rfl (hint i)
  · next b => exact absurd rfl (hbool b)
  · exact Iff.rfl

/-- **Resolving** gives what the level means. -/
theorem resolve_eq_ok_iff : resolve level = .ok n ↔ Means level n := by
  unfold resolve
  split
  · next i =>
    unfold Means
    rw [Except.ok.injEq, eq_comm]
  · next b =>
    unfold Means
    rw [Except.ok.injEq, eq_comm]
  · next hint hbool =>
    -- everything else is taken as a text, and looked up in capitals without white space around
    rw [means_iff_spells hint hbool, ← lookup_upper_strip_eq_some_iff]
    cases names.lookup level.shown.strip.upper with
    | none => exact ⟨nofun, nofun⟩
    | some i => rw [Except.ok.injEq, Option.some.injEq]

/-- A level means one number at most. -/
theorem Means.unique (hm : Means level m) (hn : Means level n) : m = n :=
  Except.ok.inj ((resolve_eq_ok_iff.mpr hm).symm.trans (resolve_eq_ok_iff.mpr hn))

/-- **A level is resolved** to the number that it means, and refused by name if it means none. -/
theorem resolve_cases (level : Datum) :
    (∃ n, Means level n ∧ resolve level = .ok n) ∨
    (¬ IsKnown level ∧ resolve level = .error (unknownMessage level)) := by
  cases h : resolve level with
  | ok n => exact .inl ⟨n, resolve_eq_ok_iff.mp h, rfl⟩
  | error e =>
    refine .inr ⟨?_, ?_⟩
    · rintro ⟨n, hn⟩
      rw [resolve_eq_ok_iff.mpr hn] at h
      cases h
    · -- numbers and flags are always resolved
      unfold resolve at h
      split at h
      · cases h
      · cases h
      · split at h
        · cases h
        · rw [← h]

end Level

/-! ### What one call does -/

namespace Logger

variable {l : Logger} {level : Datum} {levels later : List Datum} {n : Int}

/-- **What a call can do**: there is a handler afterwards in any case, and the level changes only if
the one that is given has a meaning. -/
theorem configure_cases (l : Logger) (level : Datum) :
    (∃ n, Level.Means level n ∧ l.configure level = (⟨max 1 l.handlers, n⟩, .ok n)) ∨
    (¬ Level.IsKnown level ∧
      l.configure level = (⟨max 1 l.handlers, l.level⟩, .error (Level.unknownMessage level))) := by
  unfold configure
  rcases Level.resolve_cases level with ⟨n, hn, h⟩ | ⟨hunknown, h⟩
  · exact .inl ⟨n, hn, by rw [h]⟩
  · exact .inr ⟨hunknown, by rw [h]⟩

/-- A level that is known is set, and there is a handler. -/
theorem configure_of_means (l : Logger) (h : Level.Means level n) :
    l.configure level = (⟨max 1 l.handlers, n⟩, .ok n) := by
  rcases l.configure_cases level with ⟨m, hm, hl⟩ | ⟨hunknown, -⟩
  · rw [hl, hm.unique h]
  · exact absurd ⟨n, h⟩ hunknown

/-- A level that is not known leaves the old one, but a handler is there all the same. -/
theorem configure_of_not_isKnown (l : Logger) (h : ¬ Level.IsKnown level) :
    l.configure level = (⟨max 1 l.handlers, l.level⟩, .error (Level.unknownMessage level)) := by
  rcases l.configure_cases level with ⟨m, hm, -⟩ | ⟨-, hl⟩
  · exact absurd ⟨m, hm⟩ h
  · exact hl

/-- The handler is there before the level is resolved. -/
@[simp] theorem handlers_configure (l : Logger) (level : Datum) :
    (l.configure level).1.handlers = max 1 l.handlers := by
  rcases l.configure_cases level with ⟨n, -, h⟩ | ⟨-, h⟩ <;> rw [h]

/-- **A call takes effect as a whole or not at all**: it leaves no more than one handler, a level
that has a meaning is taken, and for one that has none the call is refused and the logger stays as
it is. -/
structure CallIsWhole (l : Logger) (level : Datum) : Prop where
  handlers_le : (l.configure level).1.handlers ≤ 1
  taken : ∀ n, Level.Means level n → l.configure level = (⟨1, n⟩, .ok n)
  refused : ¬ Level.IsKnown level →
    l.configure level = (l, .error (Level.unknownMessage level))

/-- A call is whole if the handler is there already, or if the level has a meaning. -/
theorem callIsWhole_iff (h : l.handlers ≤ 1) :
    l.CallIsWhole level ↔ l.handlers = 1 ∨ Level.IsKnown level := by
  constructor
  · intro hwhole
    by_contra hnot
    obtain ⟨hnone, hunknown⟩ := not_or.mp hnot
    -- the refused call has added a handler
    have hkept : (l.configure level).1.handlers = l.handlers := by rw [hwhole.refused hunknown]
    rw [handlers_configure] at hkept
    omega
  · intro hone
    constructor
    case handlers_le => rw [handlers_configure, Nat.max_eq_left h]
    case taken =>
      intro n hn
      rw [configure_of_means l hn, Nat.max_eq_left h]
    case refused =>
      intro hunknown
      have hhandlers : max 1 l.handlers = l.handlers := by
        rw [hone.resolve_right hunknown, Nat.max_self]
      rw [configure_of_not_isKnown l hunknown, hhandlers]

/-! ### What many calls do -/

/-- **The logger after calls**, one with each of the levels. -/
def after (l : Logger) (levels : List Datum) : Logger :=
  levels.foldl (fun l level => (l.configure level).1) l

@[simp] theorem after_nil (l : Logger) : l.after [] = l := rfl

@[simp] theorem after_cons (l : Logger) (level : Datum) (levels : List Datum) :
    l.after (level :: levels) = (l.configure level).1.after levels := rfl

/-- Calls before and calls behind. -/
theorem after_append (l : Logger) (levels later : List Datum) :
    l.after (levels ++ later) = (l.after levels).after later := List.foldl_append

/-- **Any calls at all**, refused or not, add a handler just where there was none. -/
theorem handlers_after (l : Logger) (h : levels ≠ []) :
    (l.after levels).handlers = max 1 l.handlers := by
  -- by the calls from the front, since the first one adds the handler and the others find it
  induction levels generalizing l with
  | nil => exact absurd rfl h
  | cons level levels ih =>
    rw [after_cons]
    by_cases hlast : levels = []
    · rw [hlast, after_nil, handlers_configure]
    · rw [ih _ hlast, handlers_configure, ← Nat.max_assoc, Nat.max_self]

/-- There is never a second handler. -/
theorem handlers_after_eq_one (h : l.handlers = 0) (hlevels : levels ≠ []) :
    (l.after levels).handlers = 1 := by
  rw [handlers_after l hlevels, h]
  rfl

/-- **Refused calls** leave the level as it is. -/
theorem level_after_of_unknown (l : Logger) (h : ∀ level ∈ levels, ¬ Level.IsKnown level) :
    (l.after levels).level = l.level := by
  induction levels generalizing l with
  | nil => rfl
  | cons level levels ih =>
    obtain ⟨hlevel, hlevels⟩ := List.forall_mem_cons.mp h
    rw [after_cons, ih _ hlevels, configure_of_not_isKnown l hlevel]

/-- **The level is that of the last call** whose level has a meaning. -/
theorem level_after_append (l : Logger) (hlevel : Level.Means level n)
    (hlater : ∀ d ∈ later, ¬ Level.IsKnown d) :
    (l.after (levels ++ level :: later)).level = n := by
  rw [after_append, after_cons, level_after_of_unknown _ hlater, configure_of_means _ hlevel]

/-- **All calls are whole**, each on the logger that the calls before it have left. -/
def CallsAreWhole (l : Logger) (levels : List Datum) : Prop :=
  ∀ earlier level later, levels = earlier ++ level :: later →
    (l.after earlier).CallIsWhole level

/-- On a logger without handlers it depends on the first call whether all are whole: the calls after
it find a handler. -/
theorem callsAreWhole_iff (h : l.handlers = 0) :
    l.CallsAreWhole levels ↔ ∀ level ∈ levels.head?, Level.IsKnown level := by
  -- a first call is whole if it succeeds, and later ones add nothing
  have hfirst : ∀ level, l.CallIsWhole level ↔ Level.IsKnown level := by
    intro level
    rw [callIsWhole_iff (by omega)]
    exact or_iff_right (by omega)
  constructor
  · intro hwhole level hhead
    obtain ⟨later, rfl⟩ := List.head?_eq_some_iff.mp hhead
    exact (hfirst level).mp (hwhole [] level later rfl)
  · rintro hhead earlier level later rfl
    cases earlier with
    | nil => exact (hfirst level).mpr (hhead level rfl)
    | cons first earlier =>
      have hone := handlers_after_eq_one h (List.cons_ne_nil first earlier)
      exact (callIsWhole_iff hone.le).mpr (.inl hone)

/-- **What calls do** to a logger, each on what the calls before it have left. -/
structure Follows (l : Logger) (levels : List Datum) : Prop where
  /-- Every call leaves one handler, a refused one too. -/
  handlers_eq : ∀ earlier level later, levels = earlier ++ level :: later →
    ((l.after earlier).configure level).1.handlers = 1
  /-- A level that has a meaning is taken. -/
  taken : ∀ earlier level later n, levels = earlier ++ level :: later → Level.Means level n →
    (l.after earlier).configure level = (⟨1, n⟩, .ok n)
  /-- For one that has none the call is refused, and the level stays. -/
  refused : ∀ earlier level later, levels = earlier ++ level :: later → ¬ Level.IsKnown level →
    (l.after earlier).configure level
      = (⟨1, (l.after earlier).level⟩, .error (Level.unknownMessage level))
  /-- The handler that such a call adds is the only change, and only the first call adds it. -/
  kept_iff : ∀ earlier level later, levels = earlier ++ level :: later → ¬ Level.IsKnown level →
    (((l.after earlier).configure level).1 = l.after earlier ↔ earlier ≠ [])
  whole_iff : l.CallsAreWhole levels ↔ ∀ level ∈ levels.head?, Level.IsKnown level
  /-- In the end the level is that of the last call whose level has a meaning. -/
  level_eq : ∀ earlier level later n, levels = earlier ++ level :: later → Level.Means level n →
    (∀ d ∈ later, ¬ Level.IsKnown d) → (l.after levels).level = n

/-- **Every list of calls** is followed by a logger without handlers: all that a refused call can
change is that there is a handler, and only the first call can do that. -/
theorem calls_followed (h : l.handlers = 0) (levels : List Datum) : l.Follows levels := by
  -- a call finds no handler, or the one that the first call has added
  have hmax : ∀ earlier, max 1 (l.after earlier).handlers = 1 := by
    intro earlier
    by_cases hfirst : earlier = []
    · rw [hfirst, after_nil, h]
      rfl
    · rw [handlers_after_eq_one h hfirst, Nat.max_self]
  constructor
  case handlers_eq =>
    intro earlier level later _
    rw [handlers_configure, hmax]
  case taken =>
    intro earlier level later n _ hn
    rw [configure_of_means _ hn, hmax]
  case refused =>
    intro earlier level later _ hunknown
    rw [configure_of_not_isKnown _ hunknown, hmax]
  case kept_iff =>
    intro earlier level later _ hunknown
    rw [configure_of_not_isKnown _ hunknown, hmax]
    constructor
    · rintro hkept rfl
      have hhandlers : 1 = l.handlers := congrArg Logger.handlers hkept
      omega
    · intro hlater
      rw [← handlers_after_eq_one h hlater]
  case whole_iff => exact callsAreWhole_iff h
  case level_eq =>
    rintro earlier level later n rfl hn hlater
    exact level_after_append l hn hlater

/-- Two levels without a meaning, and one between them that has one. -/
def mixedSample : List Datum := [.text "chatty", .text " Error\n", .text "x'y"]

/-- The level is that of the second call, and the handler stays. -/
theorem calls_followed_mixedSample :
    ({} : Logger).handlers = 0 ∧ ({} : Logger).Follows mixedSample ∧
      ({} : Logger).after mixedSample = ⟨1, 40⟩ :=
  ⟨rfl, calls_followed rfl mixedSample, by decide +kernel⟩

/-- A level of no known name. -/
def chattySample : Datum := .text "chatty"

/-- **A call that is not whole**: the first one is refused, and still leaves a handler behind. -/
theorem not_callsAreWhole_chattySample :
    ({} : Logger).handlers = 0 ∧ ¬ Level.IsKnown chattySample ∧
      ({} : Logger).configure chattySample
        = (⟨1, 0⟩, .error (Level.unknownMessage chattySample)) ∧
      ¬ ({} : Logger).CallsAreWhole [chattySample] := by
  have hunknown : ¬ Level.IsKnown chattySample := by
    have hresolve : Level.resolve chattySample = .error (Level.unknownMessage chattySample) := rfl
    rintro ⟨n, hn⟩
    rw [Level.resolve_eq_ok_iff.mpr hn] at hresolve
    cases hresolve
  refine ⟨rfl, hunknown, configure_of_not_isKnown {} hunknown, fun hwhole => ?_⟩
  exact hunknown ((callsAreWhole_iff rfl).mp hwhole chattySample rfl)

end Logger

end StepCheck
