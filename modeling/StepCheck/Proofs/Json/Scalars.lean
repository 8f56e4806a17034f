import StepCheck.Json.Printer
import StepCheck.Json.Reader
import StepCheck.Proofs.Text.Numeral

/-!
# JSON strings and numbers read back

A string is written code point by code point, and the reader undoes one escape after the other. The
only thing that an escape does not tell is where a code point beyond U+FFFF begins: it is written as
two units, and a high surrogate before a low one would be read as such a pair. So a string is read
back if it holds no high surrogate. Low ones may stand anywhere.

A number ends where the text goes on with something that is no part of numbers. The reader takes no
notice of what comes behind, so a numeral that is read on its own is read in the same way before
anything that ends it.

* `Text.NoHighSurrogate` — the texts that are read back;
* `Json.string?_written` — a string, up to its closing quote;
* `Json.EndsNumber`, `Json.number?_append` — a numeral before what follows it;
* `Json.number?_ofInt` — whole numbers of any size;
* `Json.IsExact` — a floating-point number whose numeral is read as the number.
-/

namespace StepCheck

/-- **High surrogates**, the first halves of the pairs that stand for code points beyond U+FFFF. -/
def CodePoint.isHighSurrogate (c : CodePoint) : Bool := 0xD800 ≤ c.val && c.val ≤ 0xDBFF

/-- **A text without high surrogates.** -/
def Text.NoHighSurrogate (t : Text) : Prop := ∀ c ∈ t, c.isHighSurrogate = false

instance (t : Text) : Decidable t.NoHighSurrogate :=
  inferInstanceAs (Decidable (∀ c ∈ t, c.isHighSurrogate = false))

/-- The high surrogates are an interval. -/
theorem CodePoint.isHighSurrogate_eq_false_iff {c : CodePoint} :
    c.isHighSurrogate = false ↔ c.val < 0xD800 ∨ 0xDC00 ≤ c.val := by
  unfold isHighSurrogate
  rw [Bool.and_eq_false_iff, decide_eq_false_iff_not, decide_eq_false_iff_not]
  omega

namespace Json

variable {c : CodePoint} {read rest t : Text}

/-! ### Single steps of the readers -/

/-- The closing quote ends a string. -/
theorem string?_quote (read rest : Text) :
    string? read (CodePoint.ofChar '"' :: rest) = some (read.reverse, rest) := by
  rw [string?.eq_def]
  exact if_pos rfl

/-- A code point that needs no escape stands for itself. -/
theorem string?_plain (hquote : c ≠ CodePoint.ofChar '"') (hbackslash : c ≠ CodePoint.ofChar '\\')
    (hc : 0x20 ≤ c.val) (read rest : Text) :
    string? read (c :: rest) = string? (c :: read) rest := by
  rw [string?.eq_def]
  dsimp only
  rw [if_neg hquote, if_neg (Nat.not_lt.mpr hc), if_neg hbackslash]

/-- An escape of one letter. -/
theorem string?_short {e x : CodePoint} (he : e ≠ CodePoint.ofChar 'u')
    (h : shortEscape? e = some x) (read rest : Text) :
    string? read (CodePoint.ofChar '\\' :: e :: rest) = string? (x :: read) rest := by
  rw [string?.eq_def]
  dsimp only
  rw [if_neg (by decide), if_neg (by decide), if_pos rfl, if_neg he, h]

/-- An escape of four digits. -/
theorem string?_digits {a b c d : CodePoint} (h : [a, b, c, d].all CodePoint.isHexDigit = true)
    (read rest : Text) :
    string? read (CodePoint.ofChar '\\' :: CodePoint.ofChar 'u' :: a :: b :: c :: d :: rest)
      = string? (pushUnit (Text.numeral 16 [a, b, c, d]) read) rest := by
  rw [string?.eq_def]
  dsimp only
  rw [if_neg (by decide), if_neg (by decide), if_pos rfl, if_pos rfl, if_pos h]

theorem expect?_cons (a d : CodePoint) (t : Text) :
    expect? a (d :: t) = if d = a then some t else none := rfl

/-- What is expected stands at the front. -/
theorem expect?_eq_some_iff {a : CodePoint} {u : Text} : expect? a t = some u ↔ t = a :: u := by
  cases t with
  | nil => exact iff_of_false nofun nofun
  | cons d t =>
    rw [expect?_cons]
    split
    · next hd => rw [hd, Option.some.injEq, List.cons.injEq, eq_self_iff_true, true_and]
    · next hd => exact iff_of_false nofun fun h => hd (List.cons.inj h).1

/-! ### Units -/

/-- Four digits to the base 16. -/
private theorem exists_hex {n : Nat} (hn : n < 0x10000) :
    ∃ a b c d, Text.hex 4 n = [a, b, c, d] ∧ [a, b, c, d].all CodePoint.isHexDigit = true := by
  have hlength : (Text.hex 4 n).length = 4 := Text.length_hex (by decide) hn
  have hdigits : ∀ c ∈ Text.hex 4 n, c.isHexDigit = true := by
    intro c hc
    obtain ⟨d, hd, rfl⟩ := Text.mem_hex hc
    have hall : ∀ d < 16, (CodePoint.ofChar d.digitChar).isHexDigit = true := by decide
    exact hall d hd
  match h : Text.hex 4 n, hlength with
  | [a, b, c, d], _ =>
    refine ⟨a, b, c, d, rfl, ?_⟩
    rw [List.all_eq_true, ← h]
    exact hdigits

/-- **The escape of a unit** is undone. -/
theorem string?_unitEscape {n : Nat} (hn : n < 0x10000) (read rest : Text) :
    string? read (unitEscape n ++ rest) = string? (pushUnit n read) rest := by
  obtain ⟨a, b, c, d, hhex, hdigits⟩ := exists_hex hn
  have hnumeral : Text.numeral 16 [a, b, c, d] = n := by
    rw [← hhex]
    exact Text.numeral_hex 4 n
  rw [unitEscape, hhex, ← hnumeral]
  exact string?_digits hdigits read rest

/-- A unit that is read on its own stands for itself, unless it is the second half of a pair. -/
theorem pushUnit_of {n : Nat}
    (h : n < 0xDC00 ∨ ∀ d ∈ read.head?, d.isHighSurrogate = false) :
    pushUnit n read = CodePoint.ofNat n :: read := by
  cases read with
  | nil => rfl
  | cons d read =>
    rw [pushUnit, if_neg]
    rintro ⟨hlow, hhigh, hn, -⟩
    rcases h with h | h
    · omega
    · rcases CodePoint.isHighSurrogate_eq_false_iff.mp (h d rfl) with hd | hd
      · omega
      · omega

/-- **A pair of units** stands for one code point. -/
theorem pushUnit_pair (hc : 0x10000 ≤ c.val) (read : Text) :
    pushUnit (0xDC00 + (c.val - 0x10000) % 0x400)
      (pushUnit (0xD800 + (c.val - 0x10000) / 0x400) read) = c :: read := by
  have hvalid := c.valid
  have hmod : (c.val - 0x10000) % 0x400 < 0x400 := Nat.mod_lt _ (by decide)
  have hdiv : (c.val - 0x10000) / 0x400 < 0x400 := by omega
  have hsplit := Nat.div_add_mod (c.val - 0x10000) 0x400
  generalize hhigh : (c.val - 0x10000) / 0x400 = high at hdiv hsplit ⊢
  generalize hlow : (c.val - 0x10000) % 0x400 = low at hmod hsplit ⊢
  -- the first half is no second one, and so it stays as it is until the second half comes
  have hfirst : pushUnit (0xD800 + high) read = CodePoint.ofNat (0xD800 + high) :: read :=
    pushUnit_of (.inl (by omega))
  have hval : (CodePoint.ofNat (0xD800 + high)).val = 0xD800 + high :=
    CodePoint.val_ofNat (by omega)
  have hnumber : 0x10000 + (0xD800 + high - 0xD800) * 0x400 + (0xDC00 + low - 0xDC00) = c.val := by
    omega
  have hpair : 0xD800 ≤ 0xD800 + high ∧ 0xD800 + high < 0xDC00 ∧ 0xDC00 ≤ 0xDC00 + low ∧
      0xDC00 + low < 0xE000 := by
    omega
  rw [hfirst, pushUnit, hval, if_pos hpair, hnumber, CodePoint.ofNat_val]

/-! ### Strings -/

/-- **A code point as it is written** is read as itself, if it is no high surrogate and stands
behind none. -/
theorem string?_escaped (hread : ∀ d ∈ read.head?, d.isHighSurrogate = false) (rest : Text) :
    string? read (escaped c ++ rest) = string? (c :: read) rest := by
  unfold escaped
  split_ifs with hquote hbackslash hlineFeed hreturn htab h8 h12 hplain hunit
  · rw [hquote]
    exact string?_short (by decide) (by decide) read rest
  · rw [hbackslash]
    exact string?_short (by decide) (by decide) read rest
  · rw [hlineFeed]
    exact string?_short (by decide) (by decide) read rest
  · rw [hreturn]
    exact string?_short (by decide) (by decide) read rest
  · rw [htab]
    exact string?_short (by decide) (by decide) read rest
  · obtain rfl : c = CodePoint.ofNat 8 := CodePoint.ext h8
    exact string?_short (by decide) (by decide) read rest
  · obtain rfl : c = CodePoint.ofNat 12 := CodePoint.ext h12
    exact string?_short (by decide) (by decide) read rest
  · -- written as it is
    exact string?_plain hquote hbackslash hplain.1 read rest
  · rw [string?_unitEscape hunit, pushUnit_of (.inr hread), CodePoint.ofNat_val]
  · -- two escapes, the second of which finds the first half in front of it
    have hvalid := c.valid
    rw [List.append_assoc, string?_unitEscape (by omega), string?_unitEscape (by omega),
      pushUnit_pair (by omega)]

/-- **A string that is written** is read back, up to its closing quote. -/
theorem string?_written (ht : t.NoHighSurrogate) (rest : Text) :
    string? [] (t.flatMap escaped ++ CodePoint.ofChar '"' :: rest) = some (t, rest) := by
  -- of what has been read only the last code point matters, and that is no high surrogate
  have hfrom : ∀ read : Text, (∀ d ∈ read.head?, d.isHighSurrogate = false) →
      string? read (t.flatMap escaped ++ CodePoint.ofChar '"' :: rest)
        = some (read.reverse ++ t, rest) := by
    induction t with
    | nil =>
      intro read hread
      rw [List.flatMap_nil, List.nil_append, string?_quote, List.append_nil]
    | cons c t ih =>
      intro read hread
      have hc : c.isHighSurrogate = false := ht c List.mem_cons_self
      have ht' : Text.NoHighSurrogate t := fun d hd => ht d (List.mem_cons_of_mem c hd)
      have hread' : ∀ d ∈ (c :: read).head?, d.isHighSurrogate = false := by
        intro d hd
        rw [List.head?_cons, Option.mem_some_iff] at hd
        rw [← hd]
        exact hc
      rw [List.flatMap_cons, List.append_assoc, string?_escaped hread, ih ht' (c :: read) hread',
        List.reverse_cons, List.append_assoc, List.singleton_append]
  exact hfrom [] nofun

/-! ### Numbers before what follows them -/

/-- **What ends a number**: no digit, no point and no exponent follows. -/
def EndsNumber (rest : Text) : Prop :=
  ∀ c ∈ rest.head?, c.isDigit = false ∧ c ≠ CodePoint.ofChar '.' ∧ c ≠ CodePoint.ofChar 'e' ∧
    c ≠ CodePoint.ofChar 'E'

/-- What is found at the front is found with more behind it. -/
theorem expect?_append {a : CodePoint} {u : Text} (h : expect? a t = some u) (rest : Text) :
    expect? a (t ++ rest) = some (u ++ rest) := by
  rw [expect?_eq_some_iff] at h ⊢
  rw [h, List.cons_append]

/-- What is not expected does not come up behind the text, if it is not expected there either. -/
theorem expect?_append_eq_none {a : CodePoint} (h : expect? a t = none)
    (hrest : t = [] → expect? a rest = none) : expect? a (t ++ rest) = none := by
  cases t with
  | nil => exact hrest rfl
  | cons d t =>
    rw [expect?_cons] at h
    rw [List.cons_append, expect?_cons]
    split at h
    · cases h
    · next hd => exact if_neg hd

/-- Digits end where they ended before. -/
theorem digits?_append {ds u : Text} (hrest : EndsNumber rest) (h : digits? t = some (ds, u)) :
    digits? (t ++ rest) = some (ds, u ++ rest) := by
  -- no digit of what follows is taken, whether or not all of the text is digits
  have htake : (t ++ rest).takeWhile CodePoint.isDigit = t.takeWhile CodePoint.isDigit := by
    rw [List.takeWhile_append]
    split
    · next hall =>
      have hnone : rest.takeWhile CodePoint.isDigit = [] := by
        cases rest with
        | nil => rfl
        | cons c rest =>
          rw [List.takeWhile_cons_of_neg]
          rw [(hrest c rfl).1]
          exact Bool.false_ne_true
      rw [hnone, List.append_nil]
      exact ((List.takeWhile_prefix _).eq_of_length hall).symm
    · rfl
  have hdrop : (t ++ rest).dropWhile CodePoint.isDigit = t.dropWhile CodePoint.isDigit ++ rest := by
    have hsplit : (t ++ rest).takeWhile CodePoint.isDigit
        ++ (t ++ rest).dropWhile CodePoint.isDigit
        = t.takeWhile CodePoint.isDigit ++ (t.dropWhile CodePoint.isDigit ++ rest) := by
      rw [← List.append_assoc, List.takeWhile_append_dropWhile, List.takeWhile_append_dropWhile]
    rw [htake] at hsplit
    exact List.append_cancel_left hsplit
  unfold digits? at h ⊢
  rw [htake, hdrop]
  cases htaken : t.takeWhile CodePoint.isDigit with
  | nil => rw [htaken] at h; cases h
  | cons d ds' =>
    rw [htaken] at h
    cases h
    rfl

/-- A fraction is read in front of what does not go on with it. -/
theorem fraction?_append {f : Option Text} {u : Text} (hrest : EndsNumber rest)
    (h : fraction? t = some (f, u)) : fraction? (t ++ rest) = some (f, u ++ rest) := by
  unfold fraction? at h ⊢
  cases hpoint : expect? '.' t with
  | some v =>
    rw [hpoint] at h
    obtain ⟨⟨ds, w⟩, hds, heq⟩ := Option.map_eq_some_iff.mp h
    cases heq
    rw [expect?_append hpoint]
    dsimp only
    rw [digits?_append hrest hds]
    rfl
  | none =>
    rw [hpoint] at h
    cases h
    -- there is no point, neither in the text nor behind it
    have hnone : expect? '.' (t ++ rest) = none := by
      refine expect?_append_eq_none hpoint fun _ => ?_
      cases rest with
      | nil => rfl
      | cons c rest =>
        rw [expect?_cons]
        exact if_neg (hrest c rfl).2.1
    rw [hnone]

/-- There is no exponent without its letter. -/
theorem exponent?_cons_of_ne {c : CodePoint} (he : c ≠ CodePoint.ofChar 'e')
    (hE : c ≠ CodePoint.ofChar 'E') (t : Text) : exponent? (c :: t) = some (none, c :: t) := by
  refine if_neg ?_
  rintro (h | h)
  · exact he h
  · exact hE h

/-- Behind the letter there may be a sign, and then digits. -/
theorem exponent?_cons {c s : CodePoint}
    (hc : c = CodePoint.ofChar 'e' ∨ c = CodePoint.ofChar 'E') (t : Text) :
    exponent? (c :: s :: t) =
      if s = CodePoint.ofChar '-' then
        (digits? t).map fun (ds, rest) => (some (-(Text.numeral 10 ds : Int)), rest)
      else
        (digits? (if s = CodePoint.ofChar '+' then t else s :: t)).map fun (ds, rest) =>
          (some (Text.numeral 10 ds : Int), rest) :=
  if_pos hc

/-- An exponent is read in front of what does not go on with it. -/
theorem exponent?_append {e : Option Int} {u : Text} (hrest : EndsNumber rest)
    (h : exponent? t = some (e, u)) : exponent? (t ++ rest) = some (e, u ++ rest) := by
  cases t with
  | nil =>
    cases h
    cases rest with
    | nil => rfl
    | cons c rest =>
      obtain ⟨-, -, he, hE⟩ := hrest c rfl
      exact exponent?_cons_of_ne he hE rest
  | cons c t =>
    by_cases hc : c = CodePoint.ofChar 'e' ∨ c = CodePoint.ofChar 'E'
    · cases t with
      | nil =>
        -- a letter alone is no exponent
        rw [exponent?, if_pos hc] at h
        cases h
      | cons s t =>
        rw [exponent?_cons hc] at h
        rw [List.cons_append, List.cons_append, exponent?_cons hc]
        by_cases hs : s = CodePoint.ofChar '-'
        · rw [if_pos hs] at h ⊢
          obtain ⟨⟨ds, v⟩, hds, heq⟩ := Option.map_eq_some_iff.mp h
          cases heq
          rw [digits?_append hrest hds]
          rfl
        · rw [if_neg hs] at h ⊢
          obtain ⟨⟨ds, v⟩, hds, heq⟩ := Option.map_eq_some_iff.mp h
          cases heq
          -- the sign stands before the digits, or else the digits begin at once
          have hdigits := digits?_append hrest hds
          by_cases hplus : s = CodePoint.ofChar '+'
          · rw [if_pos hplus] at hdigits ⊢
            rw [hdigits]
            rfl
          · rw [if_neg hplus] at hdigits ⊢
            rw [List.cons_append] at hdigits
            rw [hdigits]
            rfl
    · rw [not_or] at hc
      rw [exponent?_cons_of_ne hc.1 hc.2] at h
      cases h
      exact exponent?_cons_of_ne hc.1 hc.2 (t ++ rest)

/-- A number without its sign is read in front of what does not go on with it. -/
theorem unsigned?_append {negative : Bool} {d : Datum} {u : Text} (hrest : EndsNumber rest)
    (h : unsigned? negative t = some (d, u)) :
    unsigned? negative (t ++ rest) = some (d, u ++ rest) := by
  unfold unsigned? at h ⊢
  simp only [Option.bind_eq_bind, Option.bind_eq_some_iff] at h ⊢
  obtain ⟨⟨whole, u₁⟩, hwhole, _, hzero, ⟨fraction, u₂⟩, hfraction, ⟨exponent, u₃⟩, hexponent, h⟩ :=
    h
  refine ⟨_, digits?_append hrest hwhole, (), hzero, _, fraction?_append hrest hfraction, _,
    exponent?_append hrest hexponent, ?_⟩
  -- the parts are the same, and so is the number that they make
  cases fraction with
  | none =>
    cases exponent with
    | none =>
      cases h
      rfl
    | some e =>
      cases h
      rfl
  | some f =>
    cases h
    rfl

/-- A number without its sign begins with a digit. -/
theorem exists_cons_of_unsigned? {negative : Bool} {d : Datum} {u : Text}
    (h : unsigned? negative t = some (d, u)) : ∃ c s, t = c :: s ∧ c.isDigit = true := by
  unfold unsigned? at h
  simp only [Option.bind_eq_bind, Option.bind_eq_some_iff] at h
  obtain ⟨⟨whole, v⟩, hwhole, -⟩ := h
  cases t with
  | nil => cases hwhole
  | cons c s =>
    refine ⟨c, s, rfl, ?_⟩
    by_contra hc
    rw [digits?, List.takeWhile_cons_of_neg hc] at hwhole
    cases hwhole

/-- The word for infinity begins with no digit. -/
private theorem isPrefixOf?_infinity (hc : c.isDigit = true) (t : Text) :
    (Text.ofString "Infinity").isPrefixOf? (c :: t) = none := by
  rw [Option.eq_none_iff_forall_ne_some]
  intro w hw
  have heq : Text.ofString "Infinity" ++ w = c :: t :=
    List.isPrefixOf?_eq_some_iff_append_eq.mp hw
  have hI : CodePoint.ofChar 'I' = c := (List.cons.inj heq).1
  rw [← hI] at hc
  exact absurd hc (by decide)

/-- **A number is read in the same way** before anything that ends it. -/
theorem number?_append {d : Datum} (hrest : EndsNumber rest) (h : number? t = some (d, [])) :
    number? (t ++ rest) = some (d, rest) := by
  unfold number? at h ⊢
  cases hminus : expect? '-' t with
  | none =>
    rw [hminus] at h
    have hdigits := unsigned?_append hrest h
    -- the text begins with a digit, and so it is not empty
    have hne : t ≠ [] := by
      rintro rfl
      cases h
    rw [expect?_append_eq_none hminus fun hnil => absurd hnil hne]
    exact hdigits
  | some v =>
    rw [hminus] at h
    rw [expect?_append hminus]
    dsimp only at h ⊢
    cases hword : (Text.ofString "Infinity").isPrefixOf? v with
    | some w =>
      rw [hword] at h
      cases h
      have hv := List.isPrefixOf?_eq_some_iff_append_eq.mp hword
      have hword' : (Text.ofString "Infinity").isPrefixOf? (v ++ rest) = some rest := by
        rw [List.isPrefixOf?_eq_some_iff_append_eq, ← hv, List.append_nil]
      rw [hword']
    | none =>
      rw [hword] at h
      have hdigits := unsigned?_append hrest h
      -- the word does not begin with a digit
      have hword' : (Text.ofString "Infinity").isPrefixOf? (v ++ rest) = none := by
        obtain ⟨c, s, rfl, hc⟩ := exists_cons_of_unsigned? h
        exact isPrefixOf?_infinity hc (s ++ rest)
      rw [hword']
      exact hdigits

/-- A number begins with a digit or with its sign. -/
theorem exists_cons_of_number? {d : Datum} {u : Text} (h : number? t = some (d, u)) :
    ∃ c s, t = c :: s ∧ (c = CodePoint.ofChar '-' ∨ c.isDigit = true) := by
  unfold number? at h
  cases hminus : expect? '-' t with
  | some v => exact ⟨_, v, expect?_eq_some_iff.mp hminus, .inl rfl⟩
  | none =>
    rw [hminus] at h
    obtain ⟨c, s, ht, hc⟩ := exists_cons_of_unsigned? h
    exact ⟨c, s, ht, .inr hc⟩

/-! ### Numerals -/

/-- A numeral without sign is read as its number. -/
private theorem unsigned?_ofNat (negative : Bool) (n : Nat) :
    unsigned? negative (Text.ofNat n) = some (.int (if negative then -(n : Int) else n), []) := by
  have hall : ∀ c ∈ Text.ofNat n, c.isDigit = true := fun c hc => Text.isDigit_of_mem_ofNat hc
  have hdigits : digits? (Text.ofNat n) = some (Text.ofNat n, []) := by
    obtain ⟨c, s, hcs⟩ := List.exists_cons_of_ne_nil (Text.ofNat_ne_nil n)
    unfold digits?
    rw [List.takeWhile_eq_self_iff.mpr hall, List.dropWhile_eq_nil_iff.mpr hall, hcs]
  -- only the numeral of zero begins with a zero, and it has no other digit
  have hzero : ((Text.ofNat n).length = 1 || (Text.ofNat n).head? != some (CodePoint.ofChar '0'))
      = true := by
    by_cases hn : n = 0
    · rw [hn]
      decide
    · have hhead := Text.head?_ofNat hn
      rw [Bool.or_eq_true, bne_iff_ne]
      exact .inr hhead
  rw [unsigned?, hdigits]
  simp only [Option.bind_eq_bind, Option.bind_some, hzero]
  change some (Datum.int (if negative then -((Text.numeral 10 (Text.ofNat n) : Nat) : Int)
    else (Text.numeral 10 (Text.ofNat n) : Nat)), []) = _
  rw [Text.numeral_ofNat]

/-- **The numeral of a whole number** is read as the number, however large it is. -/
theorem number?_ofInt (i : Int) : number? (Text.ofInt i) = some (.int i, []) := by
  obtain ⟨c, s, hcs⟩ := List.exists_cons_of_ne_nil (Text.ofNat_ne_nil i.natAbs)
  have hc : c.isDigit = true := by
    apply Text.isDigit_of_mem_ofNat (n := i.natAbs)
    rw [hcs]
    exact List.mem_cons_self
  unfold Text.ofInt
  by_cases hi : i < 0
  · -- the minus is read on its own, and the value is turned around again
    rw [if_pos hi]
    change number? (CodePoint.ofChar '-' :: Text.ofNat i.natAbs) = _
    have hvalue : -(i.natAbs : Int) = i := by omega
    rw [number?, expect?_cons, if_pos rfl]
    dsimp only
    rw [hcs, isPrefixOf?_infinity hc, ← hcs, unsigned?_ofNat, if_pos rfl, hvalue]
  · rw [if_neg hi]
    have hvalue : (i.natAbs : Int) = i := by omega
    have hminus : expect? '-' (Text.ofNat i.natAbs) = none := by
      rw [hcs, expect?_cons, if_neg]
      rintro rfl
      exact absurd hc (by decide)
    rw [number?, hminus]
    dsimp only
    rw [unsigned?_ofNat, if_neg Bool.false_ne_true, hvalue]

/-- **A floating-point number is exact** if its numeral is read as the number. -/
def IsExact (x : Float) : Prop := number? (Binary64.numeral x) = some (.real x, [])

/-! ### Words -/

/-- A text that begins as a number is no word. -/
theorem scalar?_of_number? {d : Datum} (hrest : EndsNumber rest) (h : number? t = some (d, [])) :
    scalar? (t ++ rest) = some (d, rest) := by
  obtain ⟨c, s, rfl, hc⟩ := exists_cons_of_number? h
  -- no word begins with a digit or a minus sign
  have hwords : ∀ p ∈ words, p.1.isPrefixOf? (c :: s ++ rest) = none := by
    intro p hp
    rw [Option.eq_none_iff_forall_ne_some]
    intro w hw
    have heq := List.isPrefixOf?_eq_some_iff_append_eq.mp hw
    have hhead : p.1.head? = some c := by
      have hne : ∀ p ∈ words, p.1 ≠ [] := by decide
      rw [← List.head?_append_of_ne_nil p.1 (hne p hp), heq]
      rfl
    have hall : ∀ p ∈ words, ∀ c ∈ p.1.head?,
        c ≠ CodePoint.ofChar '-' ∧ c.isDigit = false := by decide
    obtain ⟨hminus, hdigit⟩ := hall p hp c hhead
    rcases hc with hc | hc
    · exact hminus hc
    · rw [hdigit] at hc
      cases hc
  have hnone : (words.findSome? fun p =>
      (p.1.isPrefixOf? (c :: s ++ rest)).map fun rest => (p.2, rest)) = none := by
    rw [List.findSome?_eq_none_iff]
    intro p hp
    rw [hwords p hp]
    rfl
  unfold scalar?
  rw [hnone]
  exact number?_append hrest h

theorem scalar?_null (rest : Text) : scalar? ("null" ++ rest) = some (.null, rest) := rfl

theorem scalar?_bool (b : Bool) (rest : Text) :
    scalar? (scalar (.bool b) ++ rest) = some (.bool b, rest) := by
  cases b <;> rfl

end Json

end StepCheck
