import StepCheck.Proofs.Datum.Reread
import StepCheck.Proofs.Json.Scalars

/-!
# JSON documents read back

A document is laid out for people, one element a line. The reader takes no notice of the white
space, and each written element is read as its datum wherever it stands, so that lists and records
are read from the items outwards. A record comes back with its entries in the order of their keys,
which is the order in which they are written. Every call of a reader costs one unit of fuel, and
every call has a character of its own to pay for it: a quote, a bracket, a comma or a digit.

* `Json.Exportable` — the data whose documents are read back;
* `Json.Reads` — a written element and the datum as which it is read;
* `elements?_join`, `entries?_join` — the readers of lists and records, one item after the other;
* `Exportable.reads` — what is written of a datum, at any level of indentation;
* `read?_document` — documents.
-/

namespace StepCheck.Json

/-- **Data that can be read back**: finite numbers with exact numerals, texts without high
surrogates, lists and records of such. -/
inductive Exportable : Datum → Prop
  | null : Exportable .null
  | bool (b : Bool) : Exportable (.bool b)
  | int (i : Int) : Exportable (.int i)
  | real {x : Float} (hfinite : Binary64.isFinite x = true) (hexact : IsExact x) :
    Exportable (.real x)
  | text {t : Text} (ht : t.NoHighSurrogate) : Exportable (.text t)
  | list {xs : List Datum} (hxs : ∀ x ∈ xs, Exportable x) : Exportable (.list xs)
  | record {es : List (Datum × Datum)}
    (hkeys : ∀ e ∈ es, ∃ k : Text, e.1 = .text k ∧ k.NoHighSurrogate)
    (hnodup : (es.map Prod.fst).Nodup) (hvalues : ∀ e ∈ es, Exportable e.2) :
    Exportable (.record es)

variable {c : CodePoint} {d : Datum} {fuel level : Nat} {rest s s' t : Text}

/-! ### White space -/

/-- **White space** only. -/
def Blank (s : Text) : Prop := ∀ c ∈ s, isSpace c = true

theorem blank_newline (level : Nat) : Blank (newline level) := by
  intro c hc
  rw [newline, List.mem_cons, List.mem_replicate] at hc
  rcases hc with rfl | ⟨-, rfl⟩
  · decide
  · decide

/-- White space in front is skipped. -/
theorem skipSpace_append (hs : Blank s) (t : Text) : skipSpace (s ++ t) = skipSpace t :=
  List.dropWhile_append_of_pos hs

/-- Nothing is skipped at anything else. -/
theorem skipSpace_cons (hc : isSpace c = false) (t : Text) : skipSpace (c :: t) = c :: t :=
  List.dropWhile_cons_of_neg (Bool.eq_false_iff.mp hc)

/-- The white space before a value is passed over. -/
theorem value?_skipSpace (hs : Blank s) (fuel : Nat) (t : Text) :
    value? fuel (s ++ t) = value? fuel t := by
  cases fuel with
  | zero => rfl
  | succ fuel => rw [value?, value?, skipSpace_append hs]

/-- White space and what is no part of numbers end a number. -/
theorem endsNumber_append (hs : Blank s) (ht : EndsNumber t) : EndsNumber (s ++ t) := by
  cases s with
  | nil => exact ht
  | cons c s =>
    rintro _ ⟨⟩
    -- none of the four blanks is a digit, a point or the letter of an exponent
    have hc : c.val = 0x20 ∨ c.val = 0x0A ∨ c.val = 0x09 ∨ c.val = 0x0D := by
      have hspace := hs c List.mem_cons_self
      simp only [isSpace, Bool.or_eq_true, decide_eq_true_eq] at hspace
      rcases hspace with ((h | h) | h) | h <;> rw [h] <;> decide
    have hne : ∀ d : Char, d.toNat ∉ [0x20, 0x0A, 0x09, 0x0D] → c ≠ CodePoint.ofChar d := by
      rintro d hd rfl
      simp only [List.mem_cons, List.not_mem_nil, or_false] at hd
      exact hd hc
    refine ⟨?_, hne _ (by decide), hne _ (by decide), hne _ (by decide)⟩
    rw [CodePoint.isDigit, Bool.and_eq_false_iff, decide_eq_false_iff_not]
    left
    omega

/-- A number ends before a comma and before a closing bracket. -/
theorem endsNumber_cons (hc : c ∈ [',', ']', '\x7d'].map CodePoint.ofChar) (t : Text) :
    EndsNumber (c :: t) := by
  rintro _ ⟨⟩
  revert c
  decide

/-! ### Values by their first character -/

/-- A quote begins a string. -/
theorem value?_string (fuel : Nat) (t : Text) :
    value? (fuel + 1) (CodePoint.ofChar '"' :: t)
      = (string? [] t).map fun (s, rest) => (.text s, rest) := by
  rw [value?, skipSpace_cons (by decide)]
  exact if_pos rfl

/-- A bracket begins a list. -/
theorem value?_list (fuel : Nat) (t : Text) :
    value? (fuel + 1) (CodePoint.ofChar '[' :: t)
      = match expect? ']' (skipSpace t) with
        | some rest => some (.list [], rest)
        | none => elements? fuel [] t := by
  rw [value?, skipSpace_cons (by decide)]
  exact (if_neg (by decide)).trans (if_pos rfl)

/-- A brace begins a record. -/
theorem value?_record (fuel : Nat) (t : Text) :
    value? (fuel + 1) (CodePoint.ofChar '\x7b' :: t)
      = match expect? '\x7d' (skipSpace t) with
        | some rest => some (.record [], rest)
        | none => entries? fuel [] t := by
  rw [value?, skipSpace_cons (by decide)]
  exact (if_neg (by decide)).trans ((if_neg (by decide)).trans (if_pos rfl))

/-- **Characters with which words and numbers begin**: no white space, no quote and no bracket. -/
def BeginsScalar (c : CodePoint) : Prop :=
  isSpace c = false ∧ c ∉ ['"', '[', '\x7b', ']'].map CodePoint.ofChar

instance (c : CodePoint) : Decidable (BeginsScalar c) := inferInstanceAs (Decidable (_ ∧ _))

/-- Every other character begins a word or a number. -/
theorem value?_scalar (hc : BeginsScalar c) (fuel : Nat) (t : Text) :
    value? (fuel + 1) (c :: t) = scalar? (c :: t) := by
  obtain ⟨hspace, hother⟩ := hc
  simp only [List.map_cons, List.map_nil, List.mem_cons, List.not_mem_nil, or_false,
    not_or] at hother
  rw [value?, skipSpace_cons hspace]
  exact (if_neg hother.1).trans ((if_neg hother.2.1).trans (if_neg hother.2.2.1))

/-! ### Written elements -/

/-- **A written element is read as a datum** before anything that ends a number. It begins neither
with white space nor with the end of a list. -/
structure Reads (t : Text) (d : Datum) : Prop where
  /-- The reader of a list sees that there is an element. -/
  begins : ∃ c u, t = c :: u ∧ isSpace c = false ∧ c ≠ CodePoint.ofChar ']'
  value : ∀ ⦃fuel : Nat⦄ ⦃rest : Text⦄, t.length < fuel → EndsNumber rest →
    value? fuel (t ++ rest) = some (d, rest)

/-- Words and numbers are read back if they are read to their ends. -/
theorem Reads.of_scalar (hbegin : ∃ c u, t = c :: u ∧ BeginsScalar c)
    (h : ∀ rest, EndsNumber rest → scalar? (t ++ rest) = some (d, rest)) : Reads t d := by
  obtain ⟨c, u, rfl, hc⟩ := hbegin
  refine ⟨⟨c, u, rfl, hc.1, ?_⟩, fun fuel rest hfuel hrest => ?_⟩
  · rintro rfl
    exact hc.2 (by decide)
  · obtain ⟨fuel, rfl⟩ := Nat.exists_eq_add_one_of_ne_zero (Nat.ne_of_gt (Nat.zero_lt_of_lt hfuel))
    rw [← h rest hrest]
    exact value?_scalar hc fuel (u ++ rest)

/-- A numeral is read as its number. -/
theorem Reads.of_number? (h : number? t = some (d, [])) : Reads t d := by
  refine .of_scalar ?_ fun rest hrest => scalar?_of_number? hrest h
  obtain ⟨c, u, ht, hc⟩ := exists_cons_of_number? h
  refine ⟨c, u, ht, ?_⟩
  rcases hc with rfl | hc
  · decide
  · -- neither white space nor a mark is a digit
    have hdigit : ∀ x ∈ [' ', '\n', '\t', '\r', '"', '[', '\x7b', ']'].map CodePoint.ofChar,
        c ≠ x := by
      rintro x hx rfl
      have hall : ∀ x ∈ [' ', '\n', '\t', '\r', '"', '[', '\x7b', ']'].map CodePoint.ofChar,
          x.isDigit = false := by decide
      rw [hall c hx] at hc
      cases hc
    simp only [List.map_cons, List.map_nil, List.forall_mem_cons] at hdigit
    obtain ⟨hblank, hlineFeed, htab, hreturn, hquote, hbracket, hbrace, hend, -⟩ := hdigit
    refine ⟨?_, ?_⟩
    · simp [isSpace, hblank, hlineFeed, htab, hreturn]
    · simp [hquote, hbracket, hbrace, hend]

/-- The part of a string behind its opening quote. -/
private theorem string_append (t rest : Text) :
    string t ++ rest = CodePoint.ofChar '"'
      :: (t.flatMap escaped ++ CodePoint.ofChar '"' :: rest) := by
  change CodePoint.ofChar '"' :: ((t.flatMap escaped ++ [CodePoint.ofChar '"']) ++ rest) = _
  rw [List.append_assoc]
  rfl

/-- Strings are read back. -/
theorem Reads.of_string (ht : t.NoHighSurrogate) : Reads (string t) (.text t) := by
  refine ⟨⟨_, _, rfl, by decide, by decide⟩, fun fuel rest hfuel _ => ?_⟩
  obtain ⟨fuel, rfl⟩ := Nat.exists_eq_add_one_of_ne_zero (Nat.ne_of_gt (Nat.zero_lt_of_lt hfuel))
  rw [string_append, value?_string, string?_written ht]
  rfl

/-! ### Texts with separators -/

private theorem join_singleton (separator t : Text) : Text.join separator [t] = t :=
  List.intercalate_singleton

private theorem join_cons_cons (separator t t' : Text) (ts : List Text) :
    Text.join separator (t :: t' :: ts) = t ++ (separator ++ Text.join separator (t' :: ts)) := by
  rw [Text.join, List.intercalate_cons_cons, ← List.append_assoc]
  rfl

/-- The first text stands in front. -/
private theorem exists_join_eq_append (separator t : Text) (ts : List Text) :
    ∃ more, Text.join separator (t :: ts) = t ++ more := by
  cases ts with
  | nil => exact ⟨[], by rw [join_singleton, List.append_nil]⟩
  | cons t' ts => exact ⟨_, join_cons_cons separator t t' ts⟩

/-! ### Lists -/

/-- One more element, with a comma behind it. -/
theorem elements?_comma (h : Reads t d) (hs : Blank s) (hfuel : t.length < fuel)
    (read : List Datum) (more : Text) :
    elements? (fuel + 1) read (s ++ (t ++ CodePoint.ofChar ',' :: more))
      = elements? fuel (d :: read) more := by
  rw [elements?, value?_skipSpace hs, h.value hfuel (endsNumber_cons (by decide) more)]
  dsimp only
  rw [skipSpace_cons (by decide)]
  exact if_pos rfl

/-- The last element, and the end of the list. -/
theorem elements?_last (h : Reads t d) (hs : Blank s) (hs' : Blank s') (hfuel : t.length < fuel)
    (read : List Datum) (rest : Text) :
    elements? (fuel + 1) read (s ++ (t ++ (s' ++ CodePoint.ofChar ']' :: rest)))
      = some (.list (d :: read).reverse, rest) := by
  have hends : EndsNumber (s' ++ CodePoint.ofChar ']' :: rest) :=
    endsNumber_append hs' (endsNumber_cons (by decide) rest)
  rw [elements?, value?_skipSpace hs, h.value hfuel hends]
  dsimp only
  rw [skipSpace_append hs', skipSpace_cons (by decide)]
  exact (if_neg (by decide)).trans (if_pos rfl)

/-- **The elements of a list** are read one after the other, up to its end. -/
theorem elements?_join {items : List (Text × Datum)} (hne : items ≠ [])
    (hitems : ∀ e ∈ items, Reads e.1 e.2) (hs : Blank s) (hs' : Blank s') (read : List Datum)
    (hfuel : (Text.join (CodePoint.ofChar ',' :: s) (items.map Prod.fst)).length + 1 < fuel)
    (rest : Text) :
    elements? fuel read (s ++ (Text.join (CodePoint.ofChar ',' :: s) (items.map Prod.fst)
        ++ (s' ++ CodePoint.ofChar ']' :: rest)))
      = some (.list (read.reverse ++ items.map Prod.snd), rest) := by
  induction items generalizing fuel read with
  | nil => exact absurd rfl hne
  | cons e items ih =>
    obtain ⟨fuel, rfl⟩ := Nat.exists_eq_add_one_of_ne_zero (Nat.ne_of_gt (Nat.zero_lt_of_lt hfuel))
    rw [List.forall_mem_cons] at hitems
    -- the last element has the end of the list behind it, another one a comma
    cases items with
    | nil =>
      rw [List.map_singleton, join_singleton] at hfuel ⊢
      rw [elements?_last hitems.1 hs hs' (by omega), List.reverse_cons, List.map_singleton]
    | cons e' items =>
      rw [List.map_cons, List.map_cons, join_cons_cons] at hfuel ⊢
      rw [List.length_append, List.length_append, List.length_cons] at hfuel
      rw [List.append_assoc e.1, List.append_assoc, List.cons_append,
        elements?_comma hitems.1 hs (by omega), ← List.map_cons,
        ih (List.cons_ne_nil e' items) hitems.2 (e.2 :: read) (by rw [List.map_cons]; omega),
        List.reverse_cons, List.append_assoc, List.singleton_append]
      rfl

/-! ### Records -/

/-- An entry as it is written, from the key, what is written of the value, and the value. -/
def entryText (e : Text × Text × Datum) : Text := string e.1 ++ ": " ++ e.2.1

/-- The entries of these keys and values. -/
def entriesOf (items : List (Text × Text × Datum)) : List (Datum × Datum) :=
  items.map fun e => (.text e.1, e.2.2)

variable {e : Text × Text × Datum} {read : List (Datum × Datum)}

/-- The key and the value of an entry, and what follows it. -/
private theorem entryText_append (e : Text × Text × Datum) (more : Text) :
    entryText e ++ more = string e.1
      ++ CodePoint.ofChar ':' :: ([CodePoint.ofChar ' '] ++ (e.2.1 ++ more)) := by
  rw [entryText, List.append_assoc, List.append_assoc]
  rfl

/-- The text of an entry is longer than that of its value. -/
theorem length_entryText_le (e : Text × Text × Datum) :
    e.2.1.length + 2 ≤ (entryText e).length := by
  rw [entryText, List.length_append, List.length_append]
  change _ ≤ _ + 2 + _
  omega

/-- The reader of a record takes a written entry apart. -/
private theorem entries?_entry (hkey : e.1.NoHighSurrogate) (h : Reads e.2.1 e.2.2) (hs : Blank s)
    (hfuel : e.2.1.length < fuel) {more : Text} (hmore : EndsNumber more) :
    entries? (fuel + 1) read (s ++ (entryText e ++ more))
      = match skipSpace more with
        | [] => none
        | c :: rest =>
          let read := Datum.put (.text e.1) e.2.2 read
          if c = CodePoint.ofChar ',' then entries? fuel read rest
          else if c = CodePoint.ofChar '\x7d' then some (.record read, rest)
          else none := by
  have hvalue : value? fuel ([CodePoint.ofChar ' '] ++ (e.2.1 ++ more)) = some (e.2.2, more) := by
    rw [value?_skipSpace (List.forall_mem_singleton.mpr (by decide))]
    exact h.value hfuel hmore
  rw [entries?, skipSpace_append hs, entryText_append, string_append, skipSpace_cons (by decide),
    expect?_cons, if_pos rfl, Option.bind_some, string?_written hkey]
  dsimp only
  rw [skipSpace_cons (by decide), expect?_cons, if_pos rfl, Option.bind_some]
  -- the value is read, and what follows it decides how the reader goes on
  generalize value? fuel ([CodePoint.ofChar ' '] ++ (e.2.1 ++ more)) = found at hvalue ⊢
  subst hvalue
  rfl

/-- One more entry, with a comma behind it. -/
theorem entries?_comma (hkey : e.1.NoHighSurrogate) (h : Reads e.2.1 e.2.2) (hs : Blank s)
    (hfuel : e.2.1.length < fuel) (more : Text) :
    entries? (fuel + 1) read (s ++ (entryText e ++ CodePoint.ofChar ',' :: more))
      = entries? fuel (Datum.put (.text e.1) e.2.2 read) more := by
  rw [entries?_entry hkey h hs hfuel (endsNumber_cons (by decide) more), skipSpace_cons (by decide)]
  exact if_pos rfl

/-- The last entry, and the end of the record. -/
theorem entries?_last (hkey : e.1.NoHighSurrogate) (h : Reads e.2.1 e.2.2) (hs : Blank s)
    (hs' : Blank s') (hfuel : e.2.1.length < fuel) (rest : Text) :
    entries? (fuel + 1) read (s ++ (entryText e ++ (s' ++ CodePoint.ofChar '\x7d' :: rest)))
      = some (.record (Datum.put (.text e.1) e.2.2 read), rest) := by
  have hends : EndsNumber (s' ++ CodePoint.ofChar '\x7d' :: rest) :=
    endsNumber_append hs' (endsNumber_cons (by decide) rest)
  rw [entries?_entry hkey h hs hfuel hends, skipSpace_append hs', skipSpace_cons (by decide)]
  exact (if_neg (by decide)).trans (if_pos rfl)

/-- An entry under a new key. -/
private theorem put_entriesOf {done : List (Text × Text × Datum)} (h : e.1 ∉ done.map Prod.fst) :
    Datum.put (.text e.1) e.2.2 (entriesOf done) = entriesOf (done ++ [e]) := by
  rw [entriesOf, entriesOf, List.map_append]
  refine Datum.put_eq_concat fun e' he' => ?_
  obtain ⟨e'', he'', rfl⟩ := List.mem_map.mp he'
  rw [Datum.sameKey_text, decide_eq_false_iff_not]
  -- an entry with the same key would be among those that are there
  intro heq
  exact h (heq ▸ List.mem_map_of_mem he'')

/-- **The entries of a record** are read one after the other, up to its end. Their keys are
different, and so each of them is put behind those before it. -/
theorem entries?_join {items : List (Text × Text × Datum)} (hne : items ≠ [])
    (hkeys : ∀ e ∈ items, e.1.NoHighSurrogate) (hitems : ∀ e ∈ items, Reads e.2.1 e.2.2)
    (hs : Blank s) (hs' : Blank s') (done : List (Text × Text × Datum))
    (hnodup : ((done ++ items).map Prod.fst).Nodup)
    (hfuel : (Text.join (CodePoint.ofChar ',' :: s) (items.map entryText)).length < fuel)
    (rest : Text) :
    entries? fuel (entriesOf done)
        (s ++ (Text.join (CodePoint.ofChar ',' :: s) (items.map entryText)
          ++ (s' ++ CodePoint.ofChar '\x7d' :: rest)))
      = some (.record (entriesOf (done ++ items)), rest) := by
  -- on the entries that are left; those that have been read are gathered, and the fuel is more than
  -- the text is long
  induction items generalizing fuel done with
  | nil => exact absurd rfl hne
  | cons e items ih =>
    obtain ⟨fuel, rfl⟩ := Nat.exists_eq_add_one_of_ne_zero (Nat.ne_of_gt (Nat.zero_lt_of_lt hfuel))
    rw [List.forall_mem_cons] at hkeys hitems
    have hlength := length_entryText_le e
    -- no key is there twice, so the entry is put behind those that have been read
    have hnew : e.1 ∉ done.map Prod.fst := by
      intro hmem
      rw [List.map_append, List.nodup_append] at hnodup
      exact hnodup.2.2 _ hmem _ List.mem_cons_self rfl
    cases items with
    | nil =>
      rw [List.map_singleton, join_singleton] at hfuel ⊢
      rw [entries?_last hkeys.1 hitems.1 hs hs' (by omega), put_entriesOf hnew]
    | cons e' items =>
      rw [List.map_cons, List.map_cons, join_cons_cons] at hfuel ⊢
      rw [List.length_append, List.length_append, List.length_cons] at hfuel
      have hnodup' : ((done ++ [e] ++ e' :: items).map Prod.fst).Nodup := by
        rwa [List.append_assoc, List.singleton_append]
      rw [List.append_assoc (entryText e), List.append_assoc, List.cons_append,
        entries?_comma hkeys.1 hitems.1 hs (by omega), put_entriesOf hnew, ← List.map_cons,
        ih (List.cons_ne_nil e' items) hkeys.2 hitems.2 (done ++ [e]) hnodup'
          (by rw [List.map_cons]; omega), List.append_assoc, List.singleton_append]

/-! ### Blocks -/

private theorem blocks_eq_map (xs : List Datum) : blocks level xs = xs.map (block level) := by
  induction xs with
  | nil => rfl
  | cons x xs ih => rw [blocks, ih, List.map_cons]

private theorem blockEntries_eq_map (es : List (Datum × Datum)) :
    blockEntries level es = es.map fun e => (e.1.shown, block level e.2) := by
  induction es with
  | nil => rfl
  | cons e es ih => rw [blockEntries, ih, List.map_cons]

/-- What stands between two brackets. -/
private theorem enclosed_append {opening closing : CodePoint} {ts : List Text} (hne : ts ≠ [])
    (rest : Text) :
    enclosed opening closing level ts ++ rest = opening :: (newline (level + 1)
      ++ (Text.join (CodePoint.ofChar ',' :: newline (level + 1)) ts
        ++ (newline level ++ closing :: rest))) := by
  cases ts with
  | nil => exact absurd rfl hne
  | cons t ts => simp [enclosed]

/-- What is enclosed is shorter than the whole, so that there is fuel for it. -/
private theorem length_join_lt {opening closing : CodePoint} {ts : List Text} (hne : ts ≠ [])
    (hfuel : (enclosed opening closing level ts).length < fuel + 1) :
    (Text.join (CodePoint.ofChar ',' :: newline (level + 1)) ts).length + 1 < fuel := by
  have h : (enclosed opening closing level ts ++ []).length = _ :=
    congrArg List.length (enclosed_append hne [])
  rw [List.append_nil] at h
  have hnewline : (newline (level + 1)).length = 2 * (level + 1) + 1 := by
    rw [newline, List.length_cons, List.length_replicate]
  simp only [List.length_cons, List.length_append] at h
  omega

/-- **Lists** are read back if their members are. -/
theorem Reads.of_list (level : Nat) (items : List (Text × Datum))
    (hitems : ∀ e ∈ items, Reads e.1 e.2) :
    Reads (enclosed '[' ']' level (items.map Prod.fst)) (.list (items.map Prod.snd)) := by
  cases items with
  | nil =>
    refine ⟨⟨_, _, rfl, by decide, by decide⟩, fun fuel rest hfuel _ => ?_⟩
    obtain ⟨fuel, rfl⟩ := Nat.exists_eq_add_one_of_ne_zero (Nat.ne_of_gt (Nat.zero_lt_of_lt hfuel))
    exact value?_list fuel (CodePoint.ofChar ']' :: rest)
  | cons e items =>
    have hne : (e :: items).map Prod.fst ≠ [] := List.cons_ne_nil _ _
    refine ⟨⟨_, _, rfl, by decide, by decide⟩, fun fuel rest hfuel _ => ?_⟩
    obtain ⟨fuel, rfl⟩ := Nat.exists_eq_add_one_of_ne_zero (Nat.ne_of_gt (Nat.zero_lt_of_lt hfuel))
    rw [enclosed_append hne, value?_list]
    -- the first element shows that the list is not empty
    have hnone : expect? ']' (skipSpace (newline (level + 1)
        ++ (Text.join (CodePoint.ofChar ',' :: newline (level + 1)) ((e :: items).map Prod.fst)
          ++ (newline level ++ CodePoint.ofChar ']' :: rest)))) = none := by
      obtain ⟨c, u, hu, hspace, hc⟩ := (hitems e List.mem_cons_self).begins
      obtain ⟨more, hmore⟩ := exists_join_eq_append (CodePoint.ofChar ',' :: newline (level + 1))
        e.1 (items.map Prod.fst)
      rw [skipSpace_append (blank_newline _), List.map_cons, hmore, hu, List.cons_append,
        List.cons_append, skipSpace_cons hspace, expect?_cons, if_neg hc]
    rw [hnone]
    exact elements?_join (List.cons_ne_nil e items) hitems (blank_newline _) (blank_newline _) []
      (length_join_lt hne hfuel) rest

/-- **Records** are read back if their values are. -/
theorem Reads.of_record (level : Nat) (items : List (Text × Text × Datum))
    (hkeys : ∀ e ∈ items, e.1.NoHighSurrogate) (hnodup : (items.map Prod.fst).Nodup)
    (hitems : ∀ e ∈ items, Reads e.2.1 e.2.2) :
    Reads (enclosed '\x7b' '\x7d' level (items.map entryText)) (.record (entriesOf items)) := by
  cases items with
  | nil =>
    refine ⟨⟨_, _, rfl, by decide, by decide⟩, fun fuel rest hfuel _ => ?_⟩
    obtain ⟨fuel, rfl⟩ := Nat.exists_eq_add_one_of_ne_zero (Nat.ne_of_gt (Nat.zero_lt_of_lt hfuel))
    exact value?_record fuel (CodePoint.ofChar '\x7d' :: rest)
  | cons e items =>
    have hne : (e :: items).map entryText ≠ [] := List.cons_ne_nil _ _
    refine ⟨⟨_, _, rfl, by decide, by decide⟩, fun fuel rest hfuel _ => ?_⟩
    obtain ⟨fuel, rfl⟩ := Nat.exists_eq_add_one_of_ne_zero (Nat.ne_of_gt (Nat.zero_lt_of_lt hfuel))
    rw [enclosed_append hne, value?_record]
    -- the quote of the first key shows that the record is not empty
    have hnone : expect? '\x7d' (skipSpace (newline (level + 1)
        ++ (Text.join (CodePoint.ofChar ',' :: newline (level + 1)) ((e :: items).map entryText)
          ++ (newline level ++ CodePoint.ofChar '\x7d' :: rest)))) = none := by
      obtain ⟨more, hmore⟩ := exists_join_eq_append (CodePoint.ofChar ',' :: newline (level + 1))
        (entryText e) (items.map entryText)
      rw [skipSpace_append (blank_newline _), List.map_cons, hmore, List.append_assoc,
        entryText_append, string_append, skipSpace_cons (by decide), expect?_cons,
        if_neg (by decide)]
    rw [hnone]
    have hlength := length_join_lt hne hfuel
    exact entries?_join (List.cons_ne_nil e items) hkeys hitems (blank_newline _) (blank_newline _)
      [] hnodup (by omega) rest

/-- **What is written of a datum is read as the datum**, its records in the order of their keys. -/
theorem Exportable.reads (h : Exportable d) (level : Nat) :
    Reads (block level d) (d.reread id) := by
  induction h generalizing level with
  | null => exact .of_scalar ⟨_, _, rfl, by decide⟩ fun rest _ => scalar?_null rest
  | bool b =>
    refine .of_scalar ?_ fun rest _ => scalar?_bool b rest
    cases b with
    | false => exact ⟨_, _, rfl, by decide⟩
    | true => exact ⟨_, _, rfl, by decide⟩
  | int i => exact .of_number? (number?_ofInt i)
  | @real x hfinite hexact =>
    have hblock : block level (.real x) = Binary64.numeral x := by
      change Json.real x = _
      rw [Json.real]
      rw [Binary64.isFinite] at hfinite
      split <;> simp_all
    rw [hblock]
    exact .of_number? hexact
  | text ht => exact .of_string ht
  | @list xs _ ih =>
    have hreads := Reads.of_list level (xs.map fun x => (block (level + 1) x, x.reread id))
      (by
        intro e he
        obtain ⟨x, hx, rfl⟩ := List.mem_map.mp he
        exact ih x hx (level + 1))
    rw [List.map_map, List.map_map] at hreads
    rw [block, blocks_eq_map, Datum.reread_list]
    exact hreads
  | @record es hkeys hnodup _ ih =>
    -- the entries in the order in which they are written
    have hmem : ∀ e ∈ es.mergeSort Datum.keyOrder, e ∈ es := fun e he => List.mem_mergeSort.mp he
    have hshown : ∀ e ∈ es, e.1 = .text e.1.shown := by
      intro e he
      obtain ⟨k, hk, -⟩ := hkeys e he
      rw [hk]
      rfl
    have hnames : ((es.mergeSort Datum.keyOrder).map fun e => e.1.shown).Nodup := by
      have hperm := (List.mergeSort_perm es Datum.keyOrder).map fun e => e.1.shown
      rw [hperm.nodup_iff]
      have htexts : es.map Prod.fst = (es.map fun e => e.1.shown).map Datum.text := by
        rw [List.map_map]
        exact List.map_congr_left hshown
      rw [htexts] at hnodup
      exact hnodup.of_map _
    have hreads := Reads.of_record level
      ((es.mergeSort Datum.keyOrder).map fun e =>
        (e.1.shown, block (level + 1) e.2, e.2.reread id))
      (by
        intro e he
        obtain ⟨e', he', rfl⟩ := List.mem_map.mp he
        obtain ⟨k, hk, hsurrogate⟩ := hkeys e' (hmem e' he')
        rw [hk]
        exact hsurrogate)
      (by
        rw [List.map_map]
        exact hnames)
      (by
        intro e he
        obtain ⟨e', he', rfl⟩ := List.mem_map.mp he
        exact ih e' (hmem e' he') (level + 1))
    have hwritten : inKeyOrder (blockEntries (level + 1) es)
        = (es.mergeSort Datum.keyOrder).map fun e => (e.1.shown, block (level + 1) e.2) := by
      rw [blockEntries_eq_map]
      exact Datum.mergeSort_map (fun _ => rfl) es
    have hentries : entriesOf ((es.mergeSort Datum.keyOrder).map fun e =>
          (e.1.shown, block (level + 1) e.2, e.2.reread id))
        = (es.mergeSort Datum.keyOrder).map fun e => (e.1, e.2.reread id) := by
      rw [entriesOf, List.map_map]
      refine List.map_congr_left fun e he => ?_
      exact congrArg (·, e.2.reread id) (hshown e (hmem e he)).symm
    rw [hentries, List.map_map] at hreads
    rw [block, hwritten, List.map_map, Datum.reread_record]
    exact hreads

/-- **A document is read back.** -/
theorem read?_document (h : Exportable d) : read? (document d) = some (d.reread id) := by
  have hends : EndsNumber (Text.ofString "\n") := by
    rintro _ ⟨⟩
    decide
  have hlength : (block 0 d).length < (document d).length + 1 := by
    rw [document, List.length_append]
    omega
  have hvalue : value? ((document d).length + 1) (document d)
      = some (d.reread id, Text.ofString "\n") := (h.reads 0).value hlength hends
  rw [read?, hvalue]
  rfl

end StepCheck.Json
