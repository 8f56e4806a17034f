import StepCheck.Proofs.Yaml.Nodes

/-!
# Documents read back

The reader takes a document only if all its characters are allowed. What is written holds no other
ones: a text that has them is written between double quotes, with escapes in their places. Hence a
document has the tokens of its datum, the tokens have a node, and the node has the datum as its
value, up to the texts that do not come back as they were.

* `Allowed` — texts whose characters may stand in a document;
* `allowed_document` — whatever can be exported is written in such characters;
* `read_document` — the value of a document.
-/

namespace StepCheck.Yaml

open Scalar (Run readBack)

variable {s t : Text} {c : CodePoint}

/-- **A text whose characters may stand in a document.** -/
def Allowed (t : Text) : Prop := t.all isAllowed = true

instance (t : Text) : Decidable (Allowed t) := inferInstanceAs (Decidable (_ = true))

/-- A text is allowed if each of its characters is. -/
theorem allowed_iff : Allowed t ↔ ∀ c ∈ t, isAllowed c = true := List.all_eq_true

/-- The empty text is allowed. -/
theorem allowed_nil : Allowed [] := rfl

/-- A text is allowed if its two parts are. -/
theorem Allowed.append (hs : Allowed s) (ht : Allowed t) : Allowed (s ++ t) := by
  rw [allowed_iff] at *
  exact List.forall_mem_append.mpr ⟨hs, ht⟩

/-- A text is allowed if its first character and its rest are. -/
theorem Allowed.cons (hc : isAllowed c = true) (ht : Allowed t) : Allowed (c :: t) := by
  rw [allowed_iff] at *
  exact List.forall_mem_cons.mpr ⟨hc, ht⟩

/-- Blanks are allowed. -/
private theorem allowed_blanks (n : Nat) : Allowed (List.replicate n (CodePoint.ofChar ' ')) := by
  rw [allowed_iff]
  intro c hc
  rw [List.eq_of_mem_replicate hc]
  decide

/-- The start of a line is allowed. -/
theorem allowed_newline (indent : Nat) : Allowed (newline indent) :=
  .cons (by decide) (allowed_blanks indent)

/-- Allowed texts with an allowed one between them are allowed. -/
theorem Allowed.join {ts : List Text} (hs : Allowed s) (hts : ∀ t ∈ ts, Allowed t) :
    Allowed (Text.join s ts) := by
  induction ts with
  | nil => exact allowed_nil
  | cons t ts ih =>
    have ht := hts t List.mem_cons_self
    have hrest := ih fun u hu => hts u (List.mem_cons_of_mem _ hu)
    cases ts with
    | nil => simpa [Text.join] using ht
    | cons u ts =>
      rw [Text.join, List.intercalate_cons_cons]
      exact (ht.append hs).append hrest

/-! ### Texts -/

/-- What is not special is allowed. -/
theorem isAllowed_of_isSpecial (h : isSpecial c = false) : isAllowed c = true := by
  have hfeed : (CodePoint.ofChar '\n').val = 0xA := rfl
  by_cases hc : c = CodePoint.ofChar '\n'
  · rw [hc]
    decide
  · simp only [isSpecial, isAllowed, hc, Bool.not_eq_false', Bool.or_eq_true, Bool.and_eq_true,
      decide_eq_true_eq, beq_iff_eq, bne_iff_ne, decide_false, Bool.false_or] at h ⊢
    omega

/-- Runs that are folded are allowed, for folding adds line ends and blanks only. -/
private theorem allowed_folded {quote : Text → Text} (hquote : ∀ w, Allowed w → Allowed (quote w))
    {runs : List Run} (hruns : ∀ r ∈ runs, Allowed r.text) (indent : Nat) (atStart : Bool)
    (column : Nat) : Allowed (Scalar.folded indent quote atStart column runs) := by
  -- on the runs; where lines are folded is left open
  induction runs generalizing atStart column with
  | nil => exact allowed_nil
  | cons r runs ih =>
    have hr := hruns r List.mem_cons_self
    have hrest := ih fun r hr => hruns r (List.mem_cons_of_mem _ hr)
    cases r with
    | words w => exact (hquote w hr).append (hrest ..)
    | blanks n =>
      rw [Scalar.folded]
      split
      · exact (allowed_newline _).append (hrest ..)
      · exact (allowed_blanks n).append (hrest ..)
    | breaks b =>
      have hfeed : Allowed (Text.ofString
          (if b.head? = some (CodePoint.ofChar '\n') then "\n" else "")) := by
        split <;> decide
      exact ((hfeed.append hr).append (allowed_blanks indent)).append (hrest ..)

/-- An allowed text with its apostrophes doubled is allowed. -/
private theorem allowed_doubled (ht : Allowed t) : Allowed (Scalar.doubled t) := by
  rw [allowed_iff] at *
  intro c hc
  obtain ⟨d, hd, hcd⟩ := List.mem_flatMap.mp hc
  have hmem : c = d := by
    split at hcd <;> simpa using hcd
  exact hmem ▸ ht d hd

/-- The characters of an escape are allowed, whatever it stands for. -/
private theorem allowed_escape (c : CodePoint) : Allowed (Scalar.escape c) := by
  -- a backslash, and then one of finitely many letters or hexadecimal digits
  have hletters : ∀ e ∈ Scalar.letterEscapes, isAllowed (CodePoint.ofChar e.2) = true := by decide
  have hhex : ∀ width n, Allowed (Scalar.capitalHex width n) := by
    have hdigit : ∀ d < 16, isAllowed ((fun c : CodePoint =>
        if c.isSmall then CodePoint.ofNat (c.val - 0x20) else c) (CodePoint.ofChar d.digitChar))
          = true := by
      decide
    intro width n
    rw [allowed_iff]
    intro c hc
    obtain ⟨d, hd, rfl⟩ := List.mem_map.mp hc
    obtain ⟨k, hk, rfl⟩ := Text.mem_hex hd
    exact hdigit k hk
  unfold Scalar.escape
  split
  · next letter hletter =>
    have hmem : (c.val, letter) ∈ Scalar.letterEscapes := mem_of_lookup_eq_some hletter
    have hallowed : isAllowed (CodePoint.ofChar letter) = true :=
      hletters (c.val, letter) hmem
    exact .cons (by decide) (.cons hallowed allowed_nil)
  · split_ifs
    all_goals exact Allowed.append (by decide) (hhex ..)

/-- What stands plainly between double quotes is allowed. -/
private theorem isAllowed_of_standsPlainly (h : Scalar.standsPlainly c = true) :
    isAllowed c = true := by
  simp only [Scalar.standsPlainly, isAllowed, Bool.or_eq_true, Bool.and_eq_true, decide_eq_true_eq,
    beq_iff_eq, bne_iff_ne] at h ⊢
  omega

/-- All that stands between double quotes is allowed. -/
private theorem allowed_doubleQuoted (t : Text) (indent : Nat) (atStart : Bool)
    (column pending : Nat) : Allowed (Scalar.doubleQuoted indent atStart column pending t) := by
  have hcontinuation : ∀ next, Allowed (Scalar.continuation indent next) := by
    intro next
    refine Allowed.append (.cons (by decide) (allowed_newline indent)) ?_
    split <;> decide
  -- on the text; the columns decide no more than where lines are folded
  induction t generalizing atStart column pending with
  | nil => exact allowed_nil
  | cons c t ih =>
    rw [Scalar.doubleQuoted]
    split
    · next hc =>
      split
      · exact (hcontinuation _).append (.cons (isAllowed_of_standsPlainly hc) (ih ..))
      · exact .cons (isAllowed_of_standsPlainly hc) (ih ..)
    · dsimp only
      split
      · exact ((allowed_escape c).append (hcontinuation _)).append (ih ..)
      · exact (allowed_escape c).append (ih ..)

/-- **Every text is written in allowed characters.** -/
theorem allowed_written (place : Scalar.Place) (t : Text) :
    Allowed (Scalar.written place t) := by
  have hruns : t.any isSpecial = false → ∀ r ∈ Run.of t, Allowed r.text := by
    intro h r hr
    rw [allowed_iff]
    intro c hc
    refine isAllowed_of_isSpecial ?_
    rw [List.any_eq_false] at h
    refine Bool.eq_false_iff.mpr (h c ?_)
    rw [← Run.flatMap_text_of t]
    exact List.mem_flatMap.mpr ⟨r, hr, hc⟩
  unfold Scalar.written
  split
  · next hstyle =>
    -- plain and single quoted texts are written as they are, but special characters rule these
    -- styles out
    have hspecial : t.any isSpecial = false := by
      unfold Style.of at hstyle
      split at hstyle
      · next h => simpa [Style.allowsPlain] using (Bool.and_eq_true_iff.mp h.1).2
      · split at hstyle <;> cases hstyle
    exact allowed_folded (fun _ h => h) (hruns hspecial) ..
  · next hstyle =>
    have hspecial : t.any isSpecial = false := by
      unfold Style.of at hstyle
      split at hstyle
      · cases hstyle
      · split at hstyle
        · next h => simpa [Style.allowsSingle] using (Bool.and_eq_true_iff.mp h).2
        · cases hstyle
    exact ((Allowed.append (by decide) (allowed_folded (fun _ => allowed_doubled)
      (hruns hspecial) ..)).append (by decide))
  · exact (Allowed.append (by decide) (allowed_doubleQuoted ..)).append (by decide)

/-! ### Numbers -/

/-- Digits are allowed. -/
private theorem allowed_digits (h : ∀ c ∈ t, c.isDigit = true) : Allowed t :=
  allowed_iff.mpr fun c hc =>
    forall_digit (p := fun c => isAllowed c = true) (by decide) (h c hc)

/-- Signs are allowed. -/
private theorem allowed_signOf (negative : Bool) : Allowed (signOf negative) := by
  cases negative <;> decide

/-- Whole numbers are allowed. -/
theorem allowed_ofInt (i : Int) : Allowed (Text.ofInt i) := by
  rw [ofInt_eq]
  exact (allowed_signOf _).append ((allowed_digits (isDigits_ofNat _).2).append (by decide))

/-- Numerals with a point are allowed. -/
theorem IsPointed.allowed (h : IsPointed t) : Allowed t := by
  obtain ⟨negative, whole, part, exponent, hwhole, hpart, hexponent, rfl⟩ := h
  have hexp : Allowed exponent := by
    cases hexponent with
    | nil => decide
    | cons hsign hds =>
      refine .cons (by decide) (.cons ?_ (allowed_digits hds.2))
      rcases hsign with rfl | rfl <;> decide
  exact (allowed_signOf _).append ((allowed_digits hwhole.2).append
    (.cons (by decide) ((allowed_digits hpart).append hexp)))

/-! ### Documents -/

/-- Keys are allowed. -/
private theorem IsKey.allowed {d : Datum} (h : IsKey d) : Allowed d.shown := by
  obtain ⟨k, rfl, hname, -⟩ := h
  refine allowed_iff.mpr fun c hc => ?_
  rcases hname.2.2 c hc with hsmall | rfl
  · simp only [CodePoint.isSmall, isAllowed, Bool.or_eq_true, Bool.and_eq_true, decide_eq_true_eq,
      beq_iff_eq] at hsmall ⊢
    omega
  · decide

/-- The lines of a record are allowed, given that its values are. -/
private theorem allowed_entryLines {es : List (Datum × Datum)} (hkeys : ∀ e ∈ es, IsKey e.1)
    {i : Nat} (hvalues : ∀ e ∈ es, ∀ c, Allowed (afterKey i c e.2)) :
    Allowed (entryLines i (afterKeys i es)) := by
  rw [entryLines_afterKeys]
  refine .join (allowed_newline i) fun t ht => ?_
  obtain ⟨e, he, rfl⟩ := List.mem_map.mp ht
  have hmem := List.mem_mergeSort.mp he
  exact (hkeys e hmem).allowed.append (.cons (by decide) (hvalues e hmem _))

/-- Behind each hyphen stands an item. -/
private theorem afterDashes_eq_map (i : Nat) (xs : List Datum) :
    afterDashes i xs = xs.map (afterDash i) := by
  induction xs with
  | nil => rfl
  | cons x xs ih => rw [afterDashes, ih, List.map_cons]

/-- **A document holds allowed characters only.** -/
private theorem Exportable.allowed {j : Nat} {d : Datum} (h : Exportable j d) :
    (∀ i c, Allowed (afterKey i c d))
      ∧ ∀ es, d = .record es → es ≠ [] ∧ ∀ i, Allowed (entryLines i (afterKeys i es)) := by
  have hblank : isAllowed (CodePoint.ofChar ' ') = true := by decide
  -- on the datum, with records below hyphens as well as behind keys
  induction h with
  | null => exact ⟨fun _ _ => rfl, fun _ h => by cases h⟩
  | bool b =>
    refine ⟨fun _ _ => ?_, fun _ h => by cases h⟩
    cases b <;> rfl
  | @int j i _ => exact ⟨fun _ _ => .cons hblank (allowed_ofInt i), fun _ h => by cases h⟩
  | real hx _ =>
    exact ⟨fun _ _ => .cons hblank (isPointed_real hx).allowed, fun _ h => by cases h⟩
  | infinity => exact ⟨fun _ _ => rfl, fun _ h => by cases h⟩
  | text t => exact ⟨fun _ _ => .cons hblank (allowed_written _ t), fun _ h => by cases h⟩
  | nil => exact ⟨fun _ _ => rfl, fun _ h => by cases h⟩
  | @list j xs hne hrecords _ ih =>
    refine ⟨fun i c => ?_, fun _ h => by cases h⟩
    have hitems : Allowed (itemLines i (afterDashes i xs)) := by
      rw [afterDashes_eq_map]
      refine .join (allowed_newline i) fun t ht => ?_
      obtain ⟨item, hitem, rfl⟩ := List.mem_map.mp ht
      obtain ⟨x, hx, rfl⟩ := List.mem_map.mp hitem
      obtain ⟨es, rfl⟩ := hrecords x hx
      obtain ⟨hesne, hes⟩ := (ih _ hx).2 es rfl
      obtain ⟨e, es, rfl⟩ := List.exists_cons_of_ne_nil hesne
      exact .cons (by decide) (.cons hblank (hes _))
    obtain ⟨x, xs, rfl⟩ := List.exists_cons_of_ne_nil hne
    exact (allowed_newline i).append hitems
  | @record j es hne hkeys _ _ ih =>
    have hentries : ∀ i, Allowed (entryLines i (afterKeys i es)) := fun i =>
      allowed_entryLines hkeys fun e he => (ih e he).1 i
    refine ⟨fun i c => ?_, ?_⟩
    · obtain ⟨e, es, rfl⟩ := List.exists_cons_of_ne_nil hne
      exact (allowed_newline _).append (hentries _)
    · rintro _ ⟨⟩
      exact ⟨hne, hentries⟩

/-- **A document holds allowed characters only.** -/
theorem allowed_document {es : List (Datum × Datum)} (h : ExportableRecord es) :
    Allowed (document (.record es)) := by
  have hlines : Allowed (entryLines 0 (afterKeys 0 es)) :=
    allowed_entryLines h.keys fun e he => (h.values e he).allowed.1 0
  obtain ⟨e, es, rfl⟩ := List.exists_cons_of_ne_nil h.ne_nil
  exact hlines.append (by decide)

/-- **A document is read back** as its datum, with its records in the order of their keys and with
its texts as they are read back. -/
theorem read_document {es : List (Datum × Datum)} (h : ExportableRecord es) :
    read (document (.record es)) = .ok ((Datum.record es).reread readBack) := by
  obtain ⟨n, hn, hvalue⟩ := exists_ofTokens h
  have hallowed : (document (.record es)).all isAllowed = true := allowed_document h
  rw [read, hallowed, scan_document h, hn]
  exact hvalue

end StepCheck.Yaml
