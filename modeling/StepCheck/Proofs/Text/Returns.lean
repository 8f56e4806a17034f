import Mathlib.Data.List.Induction
import StepCheck.Proofs.Text.Places

/-!
# Carriage returns before line feeds

Some systems end lines with a carriage return and a line feed. A text to which the returns are added
is another text with other indices, but what is looked for in it is found at the corresponding
places: a needle without line breaks occurs just where it occurred, white space is still white
space, and the number of line feeds before a place stays the same.

* `Text.withReturns` — the text with a carriage return before each line feed;
* `Text.place` — where an index of the text has gone;
* `Text.lineAt_place` — the lines of corresponding places;
* `Text.strip_withReturns` — the text without the white space at its ends;
* `Text.FirstFrom.withReturns`, `Text.cutAt?_withReturns` — first places of needles, and cuts there.
-/

namespace StepCheck

/-- Carriage return. -/
def CodePoint.carriageReturn : CodePoint := ofChar '\r'

namespace Text

variable {c : CodePoint} {needle t : Text} {i j : Nat} {p : CodePoint → Bool}

/-- A code point with a carriage return before it if it is a line feed. -/
def returned (c : CodePoint) : Text :=
  if c = CodePoint.lineFeed then [CodePoint.carriageReturn, CodePoint.lineFeed] else [c]

/-- **The text with a carriage return before each line feed.** -/
def withReturns (t : Text) : Text := t.flatMap returned

/-- **A text without line breaks.** -/
def Unbroken (t : Text) : Prop :=
  ∀ c ∈ t, c ≠ CodePoint.carriageReturn ∧ c ≠ CodePoint.lineFeed

instance (t : Text) : Decidable t.Unbroken := inferInstanceAs (Decidable (∀ c ∈ t, _))

/-! ### Step by step -/

theorem withReturns_nil : withReturns [] = [] := rfl

/-- A return is put before each line feed. -/
theorem withReturns_cons_lineFeed (t : Text) :
    withReturns (CodePoint.lineFeed :: t)
      = CodePoint.carriageReturn :: CodePoint.lineFeed :: withReturns t := rfl

/-- Nothing is put before other characters. -/
theorem withReturns_cons (hc : c ≠ CodePoint.lineFeed) (t : Text) :
    withReturns (c :: t) = c :: withReturns t := by
  change returned c ++ withReturns t = _
  rw [returned, if_neg hc]
  rfl

/-- Texts one after the other. -/
theorem withReturns_append (s t : Text) :
    withReturns (s ++ t) = withReturns s ++ withReturns t := List.flatMap_append

theorem withReturns_eq_nil_iff : withReturns t = [] ↔ t = [] := by
  cases t with
  | nil => exact iff_of_true rfl rfl
  | cons c t =>
    refine iff_of_false ?_ (List.cons_ne_nil c t)
    by_cases hc : c = CodePoint.lineFeed
    · rw [hc, withReturns_cons_lineFeed]
      exact List.cons_ne_nil _ _
    · rw [withReturns_cons hc]
      exact List.cons_ne_nil _ _

/-- A text without line feeds gets no returns. -/
theorem withReturns_eq_self (h : CodePoint.lineFeed ∉ t) : withReturns t = t := by
  induction t with
  | nil => rfl
  | cons c t ih =>
    rw [List.mem_cons, not_or] at h
    rw [withReturns_cons (Ne.symm h.1), ih h.2]

theorem Unbroken.lineFeed_notMem (h : t.Unbroken) : CodePoint.lineFeed ∉ t :=
  fun hmem => (h _ hmem).2 rfl

/-- No line feed is added and none is lost. -/
theorem lineFeed_mem_withReturns_iff :
    CodePoint.lineFeed ∈ withReturns t ↔ CodePoint.lineFeed ∈ t := by
  constructor
  · -- returns bring no line feeds with them
    intro h
    by_contra hnot
    rw [withReturns_eq_self hnot] at h
    exact hnot h
  · intro h
    refine List.mem_flatMap.mpr ⟨_, h, ?_⟩
    decide

/-- **A list of texts without line breaks** has the text with returns just when it has the text. -/
theorem withReturns_mem_iff {ts : List Text} (hts : ∀ s ∈ ts, Unbroken s) :
    withReturns t ∈ ts ↔ t ∈ ts := by
  constructor
  · -- the text with returns is in the list, and so the text has no line feeds
    intro h
    have hfree : CodePoint.lineFeed ∉ t := fun hmem =>
      (hts _ h).lineFeed_notMem (lineFeed_mem_withReturns_iff.mpr hmem)
    rwa [withReturns_eq_self hfree] at h
  · intro h
    rwa [withReturns_eq_self (hts t h).lineFeed_notMem]

/-- Other characters than carriage returns are as many as before. -/
theorem count_withReturns (hc : c ≠ CodePoint.carriageReturn) (t : Text) :
    (withReturns t).count c = t.count c := by
  induction t with
  | nil => rfl
  | cons d t ih =>
    by_cases hd : d = CodePoint.lineFeed
    · rw [hd, withReturns_cons_lineFeed, List.count_cons_of_ne (Ne.symm hc), List.count_cons,
        List.count_cons, ih]
    · rw [withReturns_cons hd, List.count_cons, List.count_cons, ih]

/-! ### Characters of a class -/

/-- **A class of characters** that holds both characters of a line break or none. -/
def AlikeOnBreaks (p : CodePoint → Bool) : Prop :=
  p CodePoint.carriageReturn = p CodePoint.lineFeed

instance (p : CodePoint → Bool) : Decidable (AlikeOnBreaks p) :=
  inferInstanceAs (Decidable (p CodePoint.carriageReturn = p CodePoint.lineFeed))

/-- **What is taken** is the same but for returns, if returns are taken where line feeds are. -/
theorem takeWhile_withReturns (hp : AlikeOnBreaks p) (t : Text) :
    (withReturns t).takeWhile p = withReturns (t.takeWhile p) := by
  induction t with
  | nil => rfl
  | cons c t ih =>
    by_cases hc : c = CodePoint.lineFeed
    · -- a return is taken just if the line feed behind it is
      subst hc
      rw [withReturns_cons_lineFeed, List.takeWhile_cons, List.takeWhile_cons, List.takeWhile_cons,
        hp, ih]
      cases p CodePoint.lineFeed with
      | true => rfl
      | false => rfl
    · rw [withReturns_cons hc, List.takeWhile_cons, List.takeWhile_cons, ih]
      cases p c with
      | true => exact (withReturns_cons hc _).symm
      | false => rfl

/-- What is left when such characters are dropped at the front is the same but for returns. -/
theorem dropWhile_withReturns (hp : AlikeOnBreaks p) (t : Text) :
    (withReturns t).dropWhile p = withReturns (t.dropWhile p) := by
  have hsplit : (withReturns t).takeWhile p ++ (withReturns t).dropWhile p
      = withReturns (t.takeWhile p) ++ withReturns (t.dropWhile p) := by
    rw [List.takeWhile_append_dropWhile, ← withReturns_append, List.takeWhile_append_dropWhile]
  rw [takeWhile_withReturns hp] at hsplit
  exact List.append_cancel_left hsplit

/-- Nothing is taken that does not meet the condition. -/
theorem lineFeed_notMem_takeWhile (h : p CodePoint.lineFeed = false) (t : Text) :
    CodePoint.lineFeed ∉ t.takeWhile p := by
  intro hmem
  have hp := List.all_eq_true.mp List.all_takeWhile _ hmem
  rw [h] at hp
  cases hp

/-- What is made of characters of a class without line breaks stays as it is. -/
theorem takeWhile_withReturns_of_false (hreturn : p CodePoint.carriageReturn = false)
    (hlineFeed : p CodePoint.lineFeed = false) (t : Text) :
    (withReturns t).takeWhile p = t.takeWhile p := by
  rw [takeWhile_withReturns (hreturn.trans hlineFeed.symm),
    withReturns_eq_self (lineFeed_notMem_takeWhile hlineFeed t)]

/-- Some character meets it in both texts or in neither. -/
theorem any_withReturns (hp : AlikeOnBreaks p) (t : Text) : (withReturns t).any p = t.any p := by
  induction t with
  | nil => rfl
  | cons c t ih =>
    by_cases hc : c = CodePoint.lineFeed
    · subst hc
      rw [withReturns_cons_lineFeed, List.any_cons, List.any_cons, List.any_cons, hp, ih,
        ← Bool.or_assoc, Bool.or_self]
    · rw [withReturns_cons hc, List.any_cons, List.any_cons, ih]

theorem alikeOnBreaks_isBlank : AlikeOnBreaks CodePoint.isBlank := by decide

/-- White space in front is dropped, and returns with it. -/
theorem stripLeft_withReturns (t : Text) : (withReturns t).stripLeft = withReturns t.stripLeft :=
  dropWhile_withReturns alikeOnBreaks_isBlank t

/-- What stands behind white space is no line feed: there is nothing in either text, or the same
character in both. -/
theorem stripLeft_cases (t : Text) :
    (t.stripLeft = [] ∧ (withReturns t).stripLeft = []) ∨
      ∃ c rest, c ≠ CodePoint.lineFeed ∧ t.stripLeft = c :: rest ∧
        (withReturns t).stripLeft = c :: withReturns rest := by
  cases h : t.stripLeft with
  | nil =>
    refine .inl ⟨rfl, ?_⟩
    rw [stripLeft_withReturns, h, withReturns_nil]
  | cons c rest =>
    have hc : c ≠ CodePoint.lineFeed := by
      -- a line feed is white space itself
      rintro rfl
      have hblank := List.head?_dropWhile_not CodePoint.isBlank t
      unfold stripLeft at h
      rw [h] at hblank
      cases hblank
    refine .inr ⟨c, rest, hc, rfl, ?_⟩
    rw [stripLeft_withReturns, h, withReturns_cons hc]

/-- The white space at the front is the same but for returns. -/
theorem blanks_withReturns (t : Text) : (withReturns t).blanks = withReturns t.blanks :=
  takeWhile_withReturns alikeOnBreaks_isBlank t

/-- White space at the end is dropped. -/
theorem stripRight_concat_of_isBlank (hc : c.isBlank = true) (t : Text) :
    stripRight (t ++ [c]) = stripRight t := by
  unfold stripRight
  rw [List.reverse_append, List.reverse_singleton, List.singleton_append,
    List.dropWhile_cons_of_pos hc]

/-- Anything else stays at the end. -/
theorem stripRight_concat_of_not_isBlank (hc : c.isBlank = false) (t : Text) :
    stripRight (t ++ [c]) = t ++ [c] := by
  unfold stripRight
  rw [List.reverse_append, List.reverse_singleton, List.singleton_append,
    List.dropWhile_cons_of_neg (Bool.eq_false_iff.mp hc), List.reverse_cons, List.reverse_reverse]

/-- White space at the end is dropped, and returns with it. -/
theorem stripRight_withReturns (t : Text) :
    (withReturns t).stripRight = withReturns t.stripRight := by
  -- on the text from its end on, as the white space is taken away from there
  induction t using List.reverseRecOn with
  | nil => rfl
  | append_singleton t c ih =>
    rw [withReturns_append]
    by_cases hc : c = CodePoint.lineFeed
    · -- both characters of the line break are white space
      subst hc
      have hpair : withReturns [CodePoint.lineFeed]
          = [CodePoint.carriageReturn] ++ [CodePoint.lineFeed] := rfl
      rw [hpair, ← List.append_assoc, stripRight_concat_of_isBlank (by decide),
        stripRight_concat_of_isBlank (by decide), stripRight_concat_of_isBlank (by decide), ih]
    · rw [withReturns_cons hc, withReturns_nil]
      cases hb : c.isBlank with
      | true => rw [stripRight_concat_of_isBlank hb, stripRight_concat_of_isBlank hb, ih]
      | false =>
        rw [stripRight_concat_of_not_isBlank hb, stripRight_concat_of_not_isBlank hb,
          withReturns_append, withReturns_cons hc, withReturns_nil]

/-- **The text without the white space** at its ends. -/
theorem strip_withReturns (t : Text) : (withReturns t).strip = withReturns t.strip := by
  unfold strip
  rw [stripLeft_withReturns, stripRight_withReturns]

/-! ### Corresponding places -/

/-- **Where an index has gone**: the returns before it are counted. -/
def place (t : Text) (i : Nat) : Nat := (withReturns (t.take i)).length

theorem place_zero (t : Text) : place t 0 = 0 := rfl

theorem place_cons_succ (c : CodePoint) (t : Text) (i : Nat) :
    place (c :: t) (i + 1) = (returned c).length + place t i := by
  rw [place, List.take_succ_cons, place]
  exact List.length_append

/-- A character within a line moves the places behind it on by one. -/
theorem place_succ (hc : c ≠ CodePoint.lineFeed) (t : Text) (i : Nat) :
    place (c :: t) (i + 1) = place t i + 1 := by
  rw [place_cons_succ, returned, if_neg hc, Nat.add_comm]
  rfl

/-- A line feed moves the places behind it on by two, since a return stands before it. -/
theorem place_lineFeed_succ (t : Text) (i : Nat) :
    place (CodePoint.lineFeed :: t) (i + 1) = place t i + 2 := by
  rw [place_cons_succ, Nat.add_comm]
  rfl

/-- Returns are put into both parts of a text. -/
theorem withReturns_split (t : Text) (i : Nat) :
    withReturns t = withReturns (t.take i) ++ withReturns (t.drop i) := by
  rw [← withReturns_append, List.take_append_drop]

/-- **Places go along**: the text before a place is the one before it with returns. -/
theorem take_place (t : Text) (i : Nat) :
    (withReturns t).take (place t i) = withReturns (t.take i) := by
  rw [withReturns_split t i]
  exact List.take_left

/-- The text from a place on is the one from it on with returns. -/
theorem drop_place (t : Text) (i : Nat) :
    (withReturns t).drop (place t i) = withReturns (t.drop i) := by
  rw [withReturns_split t i]
  exact List.drop_left

/-- What stands before an index, counted from what stands behind it. -/
theorem length_sub_length_drop (t : Text) (i : Nat) :
    (withReturns t).length - (withReturns (t.drop i)).length = place t i := by
  rw [withReturns_split t i, List.length_append, Nat.add_sub_cancel, place]

/-- **Corresponding places lie in the same line.** -/
theorem lineAt_place (t : Text) (i : Nat) : (withReturns t).lineAt (place t i) = t.lineAt i := by
  rw [lineAt_eq, lineAt_eq, take_place, count_withReturns (by decide)]

/-- Places are counted on. -/
theorem place_add (t : Text) (i k : Nat) : place t (i + k) = place t i + place (t.drop i) k := by
  rw [place, place, place, List.take_add, withReturns_append, List.length_append]

/-- A place behind a part of the text is counted on from the end of that part. -/
theorem place_append (s t : Text) (i : Nat) :
    place (s ++ t) (s.length + i) = (withReturns s).length + place t i := by
  rw [place_add, place, List.take_left, List.drop_left]

/-- The end of a part at the front has gone to the end of that part. -/
theorem place_of_prefix {s : Text} (h : s <+: t) : place t s.length = (withReturns s).length := by
  rw [place, ← List.prefix_iff_eq_take.mp h]

theorem place_length (t : Text) : place t t.length = (withReturns t).length :=
  place_of_prefix List.prefix_rfl

/-- Later indices have gone to later places. -/
theorem place_mono (t : Text) (h : i ≤ j) : place t i ≤ place t j := by
  obtain ⟨k, rfl⟩ := Nat.exists_eq_add_of_le h
  rw [place_add]
  exact Nat.le_add_right _ _

/-- Within the text, places go on as indices do. -/
theorem place_lt_place (hi : i < t.length) (h : i < j) : place t i < place t j := by
  refine Nat.lt_of_lt_of_le ?_ (place_mono t h)
  change place t i < place t (i + 1)
  rw [place_add]
  refine Nat.lt_add_of_pos_right (List.length_pos_of_ne_nil ?_)
  rw [Ne, withReturns_eq_nil_iff, List.drop_eq_getElem_cons hi]
  exact List.cons_ne_nil _ _

/-! ### Needles -/

/-- A needle without line breaks stands at the front just when it did. -/
theorem prefix_withReturns_iff (hneedle : needle.Unbroken) :
    needle <+: withReturns t ↔ needle <+: t := by
  induction needle generalizing t with
  | nil => exact iff_of_true List.nil_prefix List.nil_prefix
  | cons c needle ih =>
    obtain ⟨hc, hneedle⟩ := List.forall_mem_cons.mp hneedle
    cases t with
    | nil => exact Iff.rfl
    | cons d t =>
      by_cases hd : d = CodePoint.lineFeed
      · subst hd
        rw [withReturns_cons_lineFeed, List.cons_prefix_cons, List.cons_prefix_cons]
        exact iff_of_false (fun h => hc.1 h.1) fun h => hc.2 h.1
      · rw [withReturns_cons hd, List.cons_prefix_cons, List.cons_prefix_cons, ih hneedle]

/-- A needle without line breaks begins a text with returns just if it begins the text. -/
theorem isPrefixOf_withReturns (hneedle : needle.Unbroken) (t : Text) :
    needle.isPrefixOf (withReturns t) = needle.isPrefixOf t := by
  rw [Bool.eq_iff_iff, isPrefixOf_iff, isPrefixOf_iff, prefix_withReturns_iff hneedle]

/-- What follows a needle at the front is what followed. -/
theorem isPrefixOf?_withReturns (hneedle : needle.Unbroken) (t : Text) :
    needle.isPrefixOf? (withReturns t) = (needle.isPrefixOf? t).map withReturns := by
  have happend : ∀ rest, withReturns (needle ++ rest) = needle ++ withReturns rest := by
    intro rest
    rw [withReturns_append, withReturns_eq_self hneedle.lineFeed_notMem]
  ext rest
  rw [Option.map_eq_some_iff, List.isPrefixOf?_eq_some_iff_append_eq]
  constructor
  · intro h
    obtain ⟨rest', rfl⟩ := (prefix_withReturns_iff hneedle).mp ⟨rest, h⟩
    rw [happend] at h
    exact ⟨rest', List.isPrefixOf?_eq_some_iff_append_eq.mpr rfl, (List.append_cancel_left h).symm⟩
  · rintro ⟨rest', h, rfl⟩
    rw [← List.isPrefixOf?_eq_some_iff_append_eq.mp h, happend]

/-- A needle without line breaks stands in the text with returns only where it stood before. -/
theorem exists_place_of_prefix (hneedle : needle.Unbroken) (hne : needle ≠ [])
    (h : needle <+: (withReturns t).drop j) : ∃ i, j = place t i ∧ needle <+: t.drop i := by
  obtain ⟨d, rest, rfl⟩ := List.exists_cons_of_ne_nil hne
  have hd := (List.forall_mem_cons.mp hneedle).1
  induction t generalizing j with
  | nil =>
    rw [withReturns_nil, List.drop_nil] at h
    exact absurd (List.prefix_nil.mp h) hne
  | cons c t ih =>
    cases j with
    | zero => exact ⟨0, rfl, (prefix_withReturns_iff hneedle).mp h⟩
    | succ j =>
      by_cases hc : c = CodePoint.lineFeed
      · subst hc
        rw [withReturns_cons_lineFeed, List.drop_succ_cons] at h
        cases j with
        | zero =>
          -- between the return and the line feed no needle begins
          rw [List.drop_zero, List.cons_prefix_cons] at h
          exact absurd h.1 hd.2
        | succ j =>
          obtain ⟨i, rfl, hi⟩ := ih h
          exact ⟨i + 1, (place_lineFeed_succ t i).symm, hi⟩
      · rw [withReturns_cons hc, List.drop_succ_cons] at h
        obtain ⟨i, rfl, hi⟩ := ih h
        exact ⟨i + 1, (place_succ hc t i).symm, hi⟩

/-- **A needle stands first** at the corresponding place. -/
theorem FirstFrom.withReturns (h : FirstFrom needle t i j) (hneedle : needle.Unbroken)
    (hne : needle ≠ []) : FirstFrom needle (withReturns t) (place t i) (place t j) := by
  refine ⟨place_mono t h.start_le, ?_, fun k hk hprefix => ?_⟩
  · rw [drop_place]
    exact (prefix_withReturns_iff hneedle).mpr h.occurs
  · -- an earlier place in the text with returns would come from an earlier place in the text
    obtain ⟨k, rfl, hk'⟩ := exists_place_of_prefix hneedle hne hprefix
    refine place_mono t (h.least k ?_ hk')
    by_contra hlt
    have hlength := length_add_le_of_prefix hne hk'
    have hpos := List.length_pos_of_ne_nil hne
    have hplace := place_lt_place (t := t) (by omega) (Nat.lt_of_not_le hlt)
    omega

/-- A needle without line breaks occurs in a text with returns just if it occurs in the text. -/
theorem infix_withReturns_iff (hneedle : needle.Unbroken) :
    needle <:+: withReturns t ↔ needle <:+: t := by
  by_cases hne : needle = []
  · rw [hne]
    exact iff_of_true (List.nil_infix) (List.nil_infix)
  · rw [infix_iff_exists_drop, infix_iff_exists_drop]
    constructor
    · rintro ⟨j, hj⟩
      obtain ⟨i, -, hi⟩ := exists_place_of_prefix hneedle hne hj
      exact ⟨i, hi⟩
    · rintro ⟨i, hi⟩
      refine ⟨place t i, ?_⟩
      rw [drop_place]
      exact (prefix_withReturns_iff hneedle).mpr hi

/-- **A needle occurs** just when it did. -/
theorem occursIn_withReturns (hneedle : needle.Unbroken) (t : Text) :
    needle.occursIn (withReturns t) = needle.occursIn t := by
  rw [Bool.eq_iff_iff, occursIn_iff, occursIn_iff, infix_withReturns_iff hneedle]

/-- A needle without line breaks ends a text with returns just if it ends the text. -/
theorem suffix_withReturns_iff (hneedle : needle.Unbroken) (hne : needle ≠ []) :
    needle <:+ withReturns t ↔ needle <:+ t := by
  constructor
  · rintro ⟨before, hbefore⟩
    have hdrop : (withReturns t).drop before.length = needle := by
      rw [← hbefore, List.drop_left]
    have hprefix : needle <+: (withReturns t).drop before.length :=
      ⟨[], by rw [List.append_nil, hdrop]⟩
    obtain ⟨i, hi, -⟩ := exists_place_of_prefix hneedle hne hprefix
    rw [hi, drop_place] at hdrop
    -- what ends the text with returns is the needle, and so no line feed is in it
    have hfree : CodePoint.lineFeed ∉ t.drop i := by
      intro hmem
      have hmem' := lineFeed_mem_withReturns_iff.mpr hmem
      rw [hdrop] at hmem'
      exact hneedle.lineFeed_notMem hmem'
    rw [withReturns_eq_self hfree] at hdrop
    rw [← hdrop]
    exact List.drop_suffix i t
  · rintro ⟨before, rfl⟩
    refine ⟨withReturns before, ?_⟩
    rw [withReturns_append, withReturns_eq_self hneedle.lineFeed_notMem]

theorem endsWith_withReturns (hneedle : needle.Unbroken) (hne : needle ≠ []) (t : Text) :
    (withReturns t).endsWith needle = t.endsWith needle := by
  rw [Bool.eq_iff_iff, endsWith, endsWith, List.isSuffixOf_iff_suffix, List.isSuffixOf_iff_suffix,
    suffix_withReturns_iff hneedle hne]

/-! ### Searches -/

/-- **What a needle begins** is what it began. -/
theorem foundIn?_withReturns (hneedle : needle.Unbroken) (hne : needle ≠ []) (t : Text) :
    needle.foundIn? (withReturns t) = (needle.foundIn? t).map withReturns := by
  cases h : needle.foundIn? t with
  | none =>
    rw [Option.map_none, ← Option.not_isSome_iff_eq_none, ← occursIn_eq_isSome_foundIn?,
      occursIn_withReturns hneedle, occursIn_eq_isSome_foundIn?, h]
    exact nofun
  | some rest =>
    obtain ⟨i, hi, rfl⟩ := foundIn?_iff_firstFrom.mp h
    rw [Option.map_some, foundIn?_iff_firstFrom]
    exact ⟨place t i, hi.withReturns hneedle hne, (drop_place t i).symm⟩

/-- Behind a needle at the front of the text stands what stood there. -/
theorem drop_withReturns (hneedle : needle.Unbroken) (h : needle <+: t) :
    (withReturns t).drop needle.length = withReturns (t.drop needle.length) := by
  rw [← drop_place, place_of_prefix h, withReturns_eq_self hneedle.lineFeed_notMem]

/-- **The two sides of a cut.** -/
theorem cutAt?_withReturns (hneedle : needle.Unbroken) (hne : needle ≠ []) (t : Text) :
    (withReturns t).cutAt? needle
      = (t.cutAt? needle).map fun (before, after) => (withReturns before, withReturns after) := by
  unfold cutAt?
  rw [foundIn?_withReturns hneedle hne]
  cases h : needle.foundIn? t with
  | none => rfl
  | some rest =>
    obtain ⟨i, hi, rfl⟩ := foundIn?_iff_firstFrom.mp h
    rw [Option.map_some, Option.map_some, Option.map_some, length_sub_length_drop, take_place,
      drop_withReturns hneedle hi.occurs, List.length_drop, Nat.sub_sub_self hi.index_le]
    rfl

/-- **The index of a needle** has gone to the corresponding place. -/
theorem indexIn?_withReturns (hneedle : needle.Unbroken) (hne : needle ≠ []) (t : Text) :
    needle.indexIn? (withReturns t) = (needle.indexIn? t).map (place t) := by
  cases h : needle.indexIn? t with
  | none =>
    rw [Option.map_none, indexIn?_eq_none_iff, infix_withReturns_iff hneedle]
    exact indexIn?_eq_none_iff.mp h
  | some i =>
    rw [Option.map_some, indexIn?_eq_some_iff]
    exact (indexIn?_eq_some_iff.mp h).withReturns hneedle hne

/-- **The first line with a needle** has the same number. -/
theorem firstLine?_withReturns (hneedle : needle.Unbroken) (hne : needle ≠ []) (t : Text) :
    firstLine? needle.occursIn (withReturns t).lines = firstLine? needle.occursIn t.lines := by
  have hfree := hneedle.lineFeed_notMem
  by_cases h : needle <:+: t
  · obtain ⟨i, hi⟩ := infix_iff_exists_drop.mp h
    obtain ⟨first, -, hfirst⟩ := exists_firstFrom (Nat.zero_le i) hi
    rw [hfirst.firstLine? hne hfree, (hfirst.withReturns hneedle hne).firstLine? hne hfree,
      lineAt_place]
  · rw [(firstLine?_occursIn_eq_none_iff hne hfree).mpr h,
      (firstLine?_occursIn_eq_none_iff hne hfree).mpr]
    rwa [infix_withReturns_iff hneedle]

/-- The first character of a kind has gone to the corresponding place. -/
theorem findIdx?_withReturns (hreturn : p CodePoint.carriageReturn = false)
    (hlineFeed : p CodePoint.lineFeed = false) (t : Text) :
    (withReturns t).findIdx? p = (t.findIdx? p).map (place t) := by
  induction t with
  | nil => rfl
  | cons c t ih =>
    rw [List.findIdx?_cons]
    by_cases hc : c = CodePoint.lineFeed
    · subst hc
      rw [withReturns_cons_lineFeed, List.findIdx?_cons, List.findIdx?_cons, hreturn, hlineFeed, ih]
      simp only [Bool.false_eq_true, if_false, Option.map_map]
      refine Option.map_congr fun i _ => ?_
      exact (place_lineFeed_succ t i).symm
    · rw [withReturns_cons hc, List.findIdx?_cons, ih]
      cases p c with
      | true => rfl
      | false =>
        simp only [Bool.false_eq_true, if_false, Option.map_map]
        refine Option.map_congr fun i _ => ?_
        exact (place_succ hc t i).symm

end Text

end StepCheck
