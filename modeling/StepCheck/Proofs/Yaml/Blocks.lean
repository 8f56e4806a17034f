import StepCheck.Proofs.Datum.Reread
import StepCheck.Proofs.Yaml.Tokens
import StepCheck.Proofs.Yaml.Numbers
import StepCheck.Proofs.Yaml.Scalars

/-!
# Cutting documents into tokens

What is written for a datum is cut into the tokens that the datum has. The proof follows the
printer: scalars, the entries of a record, the items of a list. A value is always followed by a line
that begins no further to the right than its key, and that is all it has to know of what follows.

* `tokens` — the tokens of a datum;
* `Exportable`, `ExportableRecord` — the data that can be exported;
* `ValueScans`, `RecordScans` — what is shown by induction;
* `scan_document` — the tokens of a document.
-/

namespace StepCheck.Yaml

open Lexer (At IsName Scans Starts StartsPlain)
open Scalar (newline)

variable {t w r r' : Text}

/-- What is at the front of a word does not depend on what ends it. -/
private theorem startsPlain_congr (hw : w ≠ []) (hr : Style.endsHere r = true)
    (hr' : Style.endsHere r' = true) (h : StartsPlain (w ++ r)) : StartsPlain (w ++ r') := by
  obtain ⟨c, v, rfl⟩ := List.exists_cons_of_ne_nil hw
  have hends : Style.endsHere (v ++ r') = Style.endsHere (v ++ r) := by
    cases v with
    | nil => exact hr'.trans hr.symm
    | cons d v => rfl
  -- a mark of a document holds no separator, and so it ends within the word or not at all
  have hmarker : ∀ v s : Text, (∀ d ∈ s, isSeparator d = false) →
      s.isPrefixOf (v ++ r') = s.isPrefixOf (v ++ r) := by
    intro v
    induction v with
    | nil =>
      intro s hs
      rcases s with _ | ⟨d, s⟩
      · simp
      · have hd := hs d List.mem_cons_self
        have hno : ∀ r : Text, Style.endsHere r = true → (d :: s).isPrefixOf r = false := by
          intro r hr
          rcases r with _ | ⟨e, r⟩
          · rfl
          · have hde : d ≠ e := by
              rintro rfl
              rw [Style.endsHere, hd] at hr
              exact Bool.noConfusion hr
            simp [List.isPrefixOf, hde]
        rw [List.nil_append, List.nil_append, hno r hr, hno r' hr']
    | cons c v ih =>
      intro s hs
      rcases s with _ | ⟨d, s⟩
      · simp
      · simp only [List.cons_append, List.isPrefixOf]
        rw [ih s fun e he => hs e (List.mem_cons_of_mem _ he)]
  refine ⟨?_, ?_, ?_⟩
  · obtain ⟨d, s, hds, hd⟩ := h.exists_cons
    obtain ⟨rfl, -⟩ := List.cons.inj hds
    exact ⟨c, _, rfl, hd⟩
  · have := h.noIndicator
    rw [List.cons_append, Style.hasLeadingIndicator] at this ⊢
    rw [hends]
    exact this
  · have := h.noMarker
    rw [Style.hasMarker] at this ⊢
    rw [hmarker _ _ (by decide), hmarker _ _ (by decide)]
    exact this

/-- A character that can be printed is no byte order mark. -/
private theorem not_byteOrderMark {c : CodePoint} (h : isSpecial c = false) :
    c.val ≠ Cursor.byteOrderMark := by
  intro hval
  obtain rfl : c = ⟨0xFEFF, by decide⟩ := CodePoint.ext hval
  exact absurd h (by decide)

/-- A text that can stand plainly begins like a plain scalar. -/
private theorem startsPlain_of_allowsPlain (h : Style.allowsPlain t = true) : StartsPlain t := by
  have hplain := Unquoted.isPlain_of h
  simp only [Style.allowsPlain, Bool.and_eq_true, Bool.not_eq_true', List.isEmpty_eq_false_iff] at h
  obtain ⟨⟨⟨⟨⟨⟨⟨hne, hmarker⟩, hlead⟩, -⟩, -⟩, -⟩, -⟩, hspecial⟩ := h
  refine ⟨?_, hlead, hmarker⟩
  obtain ⟨c, s, hcs, hsep, -⟩ := hplain.exists_cons 0 true 0
  obtain ⟨w, r, r', hw, ht, -, hwritten, -⟩ := hplain.exists_word 0 true 0
  rw [Scalar.Run.flatMap_text_of] at ht
  obtain ⟨d, w, rfl⟩ := List.exists_cons_of_ne_nil hw
  rw [hcs] at hwritten
  obtain ⟨rfl, -⟩ := List.cons.inj hwritten
  refine ⟨c, w ++ r, ht, hsep, not_byteOrderMark ?_⟩
  rw [List.any_eq_false] at hspecial
  simpa using hspecial c (by rw [ht]; exact List.mem_cons_self)

/-- A text that may stand plainly begins as plain texts do, also as it is written. -/
theorem startsPlain_plain (h : Style.allowsPlain t = true) (place : Scalar.Place) (i : Nat)
    (more : Text) :
    StartsPlain (Scalar.plain place t ++ (newline i ++ more)) := by
  obtain ⟨w, r, r', hw, ht, hr, hwritten, hr'⟩ :=
    (Unquoted.isPlain_of h).exists_word place.indent true place.column
  rw [Scalar.Run.flatMap_text_of] at ht
  rw [Scalar.plain, hwritten, List.append_assoc]
  refine startsPlain_congr hw hr ?_ (ht ▸ startsPlain_of_allowsPlain h)
  rcases hr' with rfl | ⟨c, s, rfl, hc⟩
  · rfl
  · exact hc

/-- **A number** begins like a plain scalar. -/
theorem startsPlain_digits {ds : Text} (h : IsDigits ds) (negative : Bool) (rest : Text) :
    StartsPlain (signOf negative ++ (ds ++ rest)) := by
  obtain ⟨c, s, rfl, hc⟩ := h.exists_cons
  -- what no digit is, for all ten of them at once
  obtain ⟨hsep, hmark, hlead, hquestion, hcolon, hminus, hpoint⟩ := forall_digit
    (p := fun c => isSeparator c = false ∧ c.val ≠ Cursor.byteOrderMark ∧ c ∉ leadingIndicators
      ∧ c ≠ CodePoint.ofChar '?' ∧ c ≠ CodePoint.ofChar ':' ∧ c ≠ CodePoint.ofChar '-'
      ∧ c ≠ CodePoint.ofChar '.') (by decide) hc
  cases negative with
  | false =>
    refine ⟨⟨c, _, rfl, hsep, hmark⟩, ?_, Lexer.hasMarker_of_ne hminus hpoint⟩
    simp [signOf, Style.hasLeadingIndicator, hlead, hquestion, hcolon, hminus]
  | true =>
    -- a hyphen only counts as an indicator before a separator, and a digit follows it here
    have hdash : leadingIndicators.contains (CodePoint.ofChar '-') = false := by decide
    refine ⟨⟨CodePoint.ofChar '-', _, rfl, by decide, by decide⟩, ?_, ?_⟩
    · have hends : Style.endsHere (c :: s ++ rest) = false := hsep
      change Style.hasLeadingIndicator (CodePoint.ofChar '-' :: (c :: s ++ rest)) = false
      rw [Style.hasLeadingIndicator, hdash, hends, Bool.and_false]
      rfl
    · have hno : (CodePoint.ofChar '-' :: CodePoint.ofChar '-' ::
          [CodePoint.ofChar '-'] : Text).isPrefixOf
          (CodePoint.ofChar '-' :: c :: (s ++ rest)) = false := by
        simp [List.isPrefixOf, hminus.symm]
      change ((CodePoint.ofChar '-' :: CodePoint.ofChar '-' ::
        [CodePoint.ofChar '-'] : Text).isPrefixOf
        (CodePoint.ofChar '-' :: c :: (s ++ rest)) || _) = false
      rw [hno]
      rfl

/-! ### The tokens of a datum -/

/-- The token of a value that holds no other one. -/
def scalarToken : Datum → Token
  | .null => .scalar true "null"
  | .bool true => .scalar true "true"
  | .bool false => .scalar true "false"
  | .int i => .scalar true (Text.ofInt i)
  | .real x => .scalar true (real x)
  | d => .scalar (Style.of d.shown = .plain) (Scalar.readBack d.shown)

/-- The tokens of an entry, of which those of the value are given. -/
def entryTokens (e : Text × List Token) : List Token := .key :: .scalar true e.1 :: .colon :: e.2

mutual
/-- **The tokens of a datum** as a value. -/
def tokens : Datum → List Token
  | .list [] => [.openBracket, .closeBracket]
  | .list (x :: xs) => itemTokens (x :: xs)
  | .record es =>
    .mappingStart :: ((valueTokens es).mergeSort fun e f => !f.1.before e.1).flatMap entryTokens
      ++ [.blockEnd]
  | d => [scalarToken d]

/-- The tokens of the items of a list. -/
def itemTokens : List Datum → List Token
  | [] => []
  | x :: xs => .entry :: tokens x ++ itemTokens xs

/-- The keys of a record, and the tokens of the values. -/
def valueTokens : List (Datum × Datum) → List (Text × List Token)
  | [] => []
  | (k, v) :: es => (k.shown, tokens v) :: valueTokens es
end

/-- The entries are told in the order of their keys. -/
theorem tokens_record (es : List (Datum × Datum)) :
    tokens (.record es) = .mappingStart
      :: ((es.mergeSort Datum.keyOrder).flatMap fun e => entryTokens (e.1.shown, tokens e.2))
      ++ [.blockEnd] := by
  have hmap : valueTokens es = es.map fun e => (e.1.shown, tokens e.2) := by
    induction es with
    | nil => rfl
    | cons e es ih => rw [valueTokens, ih, List.map_cons]
  rw [tokens, hmap, Datum.mergeSort_map (fun _ => rfl), List.flatMap_map]

/-- An entry as it is written. -/
def entryText (indent : Nat) (e : Datum × Datum) : Text :=
  e.1.shown ++ CodePoint.ofChar ':' :: afterKey indent (indent + e.1.shown.length + 1) e.2

/-- The lines of a record, in the order of its keys. -/
theorem entryLines_afterKeys (indent : Nat) (es : List (Datum × Datum)) :
    entryLines indent (afterKeys indent es)
      = Text.join (newline indent) ((es.mergeSort Datum.keyOrder).map (entryText indent)) := by
  have hmap : afterKeys indent es
      = es.map fun e => (e.1.shown, afterKey indent (indent + e.1.shown.length + 1) e.2) := by
    induction es with
    | nil => rfl
    | cons e es ih => rw [afterKeys, ih, List.map_cons]
  rw [entryLines, inKeyOrder, hmap, Datum.mergeSort_map (fun _ => rfl), List.map_map]
  congr 1
  refine List.map_congr_left fun e _ => ?_
  simp [entryText, Text.ofString]

/-! ### Values -/

/-- **What stands on the next line** in a column. -/
structure Follows (i : Nat) (more : Text) : Prop where
  starts : Starts more
  noMarker : isDocumentMarker (List.replicate i (CodePoint.ofChar ' ') ++ more) = false

/-- **A value is cut into its tokens** behind its key, which stands in the column `j`. -/
def ValueScans (j : Nat) (d : Datum) : Prop :=
  ∀ ⦃l : Lexer⦄ ⦃ts out : List Token⦄ ⦃bs : List Int⦄ ⦃column c i : Nat⦄ ⦃more : Text⦄,
    i ≤ j → j ≤ column → Follows i more →
    At l (afterKey j c d ++ (newline i ++ more)) column ts (j :: bs) false →
    (∀ l', At l' more i ((tokens d).reverse ++ ts) (j :: bs) true → Scans l' out) → Scans l out

/-- What follows a value starts a line. -/
private theorem Follows.starts' {i : Nat} {more : Text} (h : Follows i more) :
    Unquoted.Starts more :=
  fun c hc => ⟨(h.starts c hc).2.1, (h.starts c hc).1⟩

/-- An indented line begins with no mark between documents. -/
private theorem isDocumentMarker_blanks (i : Nat) (more : Text)
    (h : i = 0 → isDocumentMarker more = false) :
    isDocumentMarker (List.replicate i (CodePoint.ofChar ' ') ++ more) = false := by
  cases i with
  | zero => exact h rfl
  | succ i => rfl

/-- A word that can stand there may follow a value. -/
private theorem Follows.of_startsPlain {more : Text} (h : StartsPlain more) (i : Nat) :
    Follows i more :=
  ⟨h.starts, isDocumentMarker_blanks i more fun _ => by
    rw [isDocumentMarker, h.noMarker, Bool.false_and]⟩

/-- A value that is written as one word. -/
private theorem valueScans_word {j : Nat} {d : Datum} (hw : Unquoted.IsWord w)
    (hstarts : ∀ rest, StartsPlain (w ++ rest)) (htokens : tokens d = [.scalar true w])
    (hwritten : ∀ c, afterKey j c d = CodePoint.ofChar ' ' :: w) : ValueScans j d := by
  intro l ts out bs column c i more hi hj hmore h hscans
  rw [hwritten] at h
  refine Scans.of_blank h (hstarts _).starts fun l h => ?_
  refine Scans.of_plain h (hstarts _) (by omega)
    (Unquoted.read_word rfl (show (i : Int) < j + 1 by omega) hmore.starts' hmore.noMarker hw)
    fun l h => hscans l ?_
  rw [htokens]
  exact h

/-- A text is written in the style that it needs. -/
private theorem valueScans_text {j : Nat} (hj : j + 2 < Scalar.width) (t : Text) :
    ValueScans j (.text t) := by
  intro l ts out bs column c i more hi hcolumn hmore h hscans
  have htokens : (tokens (.text t)).reverse ++ ts
      = .scalar (Style.of t = .plain) (Scalar.readBack t) :: ts := rfl
  rw [htokens] at hscans
  change At l (CodePoint.ofChar ' ' ::
    (Scalar.written ⟨c + 1, j + 2⟩ t ++ (newline i ++ more))) column
    ts (j :: bs) false at h
  -- a quoted text goes up to its last quote, behind which the line ends
  have hquoted : ∀ {quote : CodePoint} {w v : Text}, Quoted.IsQuote quote →
      (∃ s, w = quote :: s ∧ Quoted.read quote (s ++ (newline i ++ more)) = .ok ⟨v, s.length⟩) →
      At l (CodePoint.ofChar ' ' :: (w ++ (newline i ++ more))) column ts (j :: bs) false →
      (∀ l', At l' more i (.scalar false v :: ts) (j :: bs) true → Scans l' out) → Scans l out := by
    rintro quote _ v hq ⟨s, rfl, hread⟩ h hscans
    refine Scans.of_blank h ?_ fun l h => Scans.of_quoted hq h (by omega) hread fun l _ h =>
      Scans.of_newline h hmore.starts hscans
    rintro _ ⟨⟩
    rcases hq with rfl | rfl <;> decide
  rw [Scalar.written, Scalar.readBack] at *
  rcases hstyle : Style.of t with _ | _ | _ <;> rw [hstyle] at h hscans
  · have hplain : Style.allowsPlain t = true := by
      rw [Style.of] at hstyle
      by_contra hnot
      rw [if_neg fun hand => hnot hand.1] at hstyle
      split at hstyle <;> cases hstyle
    refine Scans.of_blank h (startsPlain_plain hplain _ _ _).starts fun l h => ?_
    exact Scans.of_plain h (startsPlain_plain hplain _ _ _) (by omega)
      (Unquoted.read_plain rfl (show (i : Int) < j + 1 by omega) hmore.starts' hmore.noMarker hplain
        ⟨c + 1, j + 2⟩ (show (j : Int) + 1 ≤ (j + 2 : Nat) by omega)) hscans
  · have hsingle : Style.allowsSingle t = true := by
      rw [Style.of] at hstyle
      by_contra hnot
      rw [if_neg hnot] at hstyle
      split at hstyle <;> cases hstyle
    exact hquoted (.inl rfl) (Scalar.read_single hsingle _ (by simp)
      (show some (CodePoint.ofChar '\n') ≠ some (CodePoint.ofChar '\'') by decide)) h hscans
  · exact hquoted (.inr rfl) (Scalar.read_double t _ (by simp) hj _) h hscans

/-- An empty list is written with brackets. -/
private theorem valueScans_nil (j : Nat) : ValueScans j (.list []) := by
  intro l ts out bs column c i more hi hcolumn hmore h hscans
  refine Scans.of_blank h (by rintro _ ⟨⟩; decide) fun l h => ?_
  exact Scans.of_brackets h (by omega) fun l h => Scans.of_newline h hmore.starts hscans

/-! ### Records and lists -/

/-- **A key**: a text that is a name and is read as a text. -/
def IsKey (d : Datum) : Prop := ∃ k, d = .text k ∧ IsName k ∧ Plain.kind k = .text

/-- A key is told from what stands behind its colon. -/
private theorem afterKey_endsHere (j c : Nat) (d : Datum) (rest : Text) :
    Style.endsHere (afterKey j c d ++ rest) = true := by
  rcases d with _ | b | _ | _ | _ | _ | _ | _ | xs | _ | xs | es
  all_goals first
    | rfl
    | (rcases xs with _ | ⟨x, xs⟩ <;> rfl)
    | (rcases es with _ | ⟨e, es⟩ <;> rfl)

/-- The lines of entries begin with a name. -/
private theorem startsPlain_entries {j : Nat} {es : List (Datum × Datum)} (hne : es ≠ [])
    (hkeys : ∀ e ∈ es, IsKey e.1) (rest : Text) :
    StartsPlain (Text.join (newline j) (es.map (entryText j)) ++ rest) := by
  obtain ⟨e, es, rfl⟩ := List.exists_cons_of_ne_nil hne
  obtain ⟨k, hk, hname, -⟩ := hkeys e List.mem_cons_self
  have hshown : e.1.shown = k := by rw [hk]; rfl
  have hfirst : ∃ rest', Text.join (newline j) ((e :: es).map (entryText j)) ++ rest
      = k ++ rest' := by
    cases es <;> simp [Text.join, entryText, hshown, List.intercalate_cons_cons]
  obtain ⟨rest', hrest⟩ := hfirst
  rw [hrest]
  exact hname.startsPlain rest'

/-- The lines of entries: keys and values one after the other. -/
private theorem scans_entries {j : Nat} {es : List (Datum × Datum)} (hne : es ≠ [])
    (hkeys : ∀ e ∈ es, IsKey e.1) (hvalues : ∀ e ∈ es, ValueScans j e.2) {l : Lexer}
    {ts out : List Token} {b : Int} {bs : List Int} {i : Nat} {more : Text} (hi : i ≤ j)
    (hb : b ≤ j) (hmore : Follows i more)
    (h : At l (Text.join (newline j) (es.map (entryText j)) ++ (newline i ++ more)) j ts
      (b :: bs) true)
    (hscans : ∀ l', At l' more i
        ((es.flatMap fun e => entryTokens (e.1.shown, tokens e.2)).reverse
          ++ if b < j then .mappingStart :: ts else ts)
        (j :: if b < j then b :: bs else bs) true → Scans l' out) :
    Scans l out := by
  -- on the entries. The first of them opens the block, unless it is open; behind it the block of
  -- the others is open, so the state in front is generalised.
  induction es generalizing l ts b bs with
  | nil => exact absurd rfl hne
  | cons e es ih =>
    obtain ⟨k, hk, hname, -⟩ := hkeys e List.mem_cons_self
    have hshown : e.1.shown = k := by rw [hk]; rfl
    have hkeys' : ∀ e ∈ es, IsKey e.1 := fun e he => hkeys e (List.mem_cons_of_mem _ he)
    have hvalues' : ∀ e ∈ es, ValueScans j e.2 := fun e he => hvalues e (List.mem_cons_of_mem _ he)
    rcases es with _ | ⟨e', es⟩
    · -- the last entry, before the line that follows all of them
      have htext : Text.join (newline j) ([e].map (entryText j)) ++ (newline i ++ more)
          = k ++ CodePoint.ofChar ':' ::
            (afterKey j (j + k.length + 1) e.2 ++ (newline i ++ more)) := by
        simp [Text.join, entryText, hshown]
      rw [htext] at h
      refine Scans.of_key hname h (afterKey_endsHere ..) hb fun l h => ?_
      refine hvalues e List.mem_cons_self hi (by omega) hmore h fun l h => hscans l ?_
      simpa [entryTokens, hshown] using h
    · have htext : Text.join (newline j) ((e :: e' :: es).map (entryText j)) ++ (newline i ++ more)
          = k ++ CodePoint.ofChar ':' :: (afterKey j (j + k.length + 1) e.2
            ++ (newline j ++ (Text.join (newline j) ((e' :: es).map (entryText j))
              ++ (newline i ++ more)))) := by
        simp [Text.join, entryText, hshown, List.intercalate_cons_cons]
      have hnext : Follows j (Text.join (newline j) ((e' :: es).map (entryText j))
          ++ (newline i ++ more)) :=
        .of_startsPlain (startsPlain_entries (List.cons_ne_nil _ _) hkeys' _) j
      rw [htext] at h
      refine Scans.of_key hname h (afterKey_endsHere ..) hb fun l h => ?_
      refine hvalues e List.mem_cons_self (Nat.le_refl j) (by omega) hnext h fun l h => ?_
      refine ih (List.cons_ne_nil _ _) hkeys' hvalues' (Int.le_refl _) h fun l h => hscans l ?_
      simpa [entryTokens, hshown] using h

/-- **A record is cut into its tokens**, where its keys stand in the column `j` and the block around
it further to the left. -/
def RecordScans (j : Nat) (es : List (Datum × Datum)) : Prop :=
  ∀ ⦃l : Lexer⦄ ⦃ts out : List Token⦄ ⦃b : Int⦄ ⦃bs : List Int⦄ ⦃i : Nat⦄ ⦃more : Text⦄,
    i < j → b < j → Follows i more →
    At l (entryLines j (afterKeys j es) ++ (newline i ++ more)) j ts (b :: bs) true →
    (∀ l', At l' more i ((tokens (.record es)).reverse ++ ts) (b :: bs) true → Scans l' out) →
    Scans l out

/-- Sorting loses no entry. -/
private theorem mergeSort_ne_nil {es : List (Datum × Datum)} (h : es ≠ []) :
    es.mergeSort Datum.keyOrder ≠ [] := by
  rw [← List.length_pos_iff, List.length_mergeSort]
  exact List.length_pos_iff.mpr h

/-- The entries of a record are cut into their tokens, given that their values are. -/
private theorem recordScans {j : Nat} {es : List (Datum × Datum)} (hne : es ≠ [])
    (hkeys : ∀ e ∈ es, IsKey e.1) (hvalues : ∀ e ∈ es, ValueScans j e.2) : RecordScans j es := by
  intro l ts out b bs i more hi hb hmore h hscans
  rw [entryLines_afterKeys] at h
  rw [tokens_record] at hscans
  refine scans_entries (mergeSort_ne_nil hne) (fun e he => hkeys e (List.mem_mergeSort.mp he))
    (fun e he => hvalues e (List.mem_mergeSort.mp he)) (by omega) (by omega) hmore h fun l h => ?_
  rw [if_pos hb, if_pos hb] at h
  refine Scans.of_blockEnd h hmore.starts (by omega) fun l h => hscans l ?_
  simpa using h

/-- A record is cut into its tokens as a value, given that its entries are. -/
private theorem valueScans_record {j : Nat} {es : List (Datum × Datum)} (hne : es ≠ [])
    (hkeys : ∀ e ∈ es, IsKey e.1) (h : RecordScans (j + 2) es) : ValueScans j (.record es) := by
  intro l ts out bs column c i more hi hcolumn hmore hat hscans
  have hafter : afterKey j c (.record es)
      = newline (j + 2) ++ entryLines (j + 2) (afterKeys (j + 2) es) := by
    obtain ⟨e, es, rfl⟩ := List.exists_cons_of_ne_nil hne
    rfl
  rw [hafter, List.append_assoc] at hat
  have hstarts :
      StartsPlain (entryLines (j + 2) (afterKeys (j + 2) es) ++ (newline i ++ more)) := by
    rw [entryLines_afterKeys]
    exact startsPlain_entries (mergeSort_ne_nil hne)
      (fun e he => hkeys e (List.mem_mergeSort.mp he)) _
  refine Scans.of_newline hat hstarts.starts fun l hat => ?_
  exact h (by omega) (by omega) hmore hat hscans

/-- The lines of items begin with a dash. -/
private theorem follows_items {j : Nat} {xs : List Datum} (hne : xs ≠ [])
    (hxs : ∀ x ∈ xs, ∃ es, es ≠ [] ∧ x = .record es ∧ (∀ e ∈ es, IsKey e.1)
      ∧ RecordScans (j + 2) es) (rest : Text) :
    Follows j (itemLines j (afterDashes j xs) ++ rest) := by
  obtain ⟨x, xs, rfl⟩ := List.exists_cons_of_ne_nil hne
  obtain ⟨es, hesne, rfl, -⟩ := hxs x List.mem_cons_self
  obtain ⟨e, es, rfl⟩ := List.exists_cons_of_ne_nil hesne
  have hfirst : ∃ rest', itemLines j (afterDashes j (.record (e :: es) :: xs)) ++ rest
      = CodePoint.ofChar '-' :: CodePoint.ofChar ' ' :: rest' := by
    cases xs <;> simp [itemLines, afterDashes, afterDash, Text.join, Text.ofString,
      List.intercalate_cons_cons]
  obtain ⟨rest', hrest⟩ := hfirst
  rw [hrest]
  exact ⟨by rintro _ ⟨⟩; decide, isDocumentMarker_blanks _ _ fun _ => rfl⟩

/-- The lines of items, which are records: each one behind its dash. -/
private theorem scans_items {j : Nat} {xs : List Datum} (hne : xs ≠ [])
    (hxs : ∀ x ∈ xs, ∃ es, es ≠ [] ∧ x = .record es ∧ (∀ e ∈ es, IsKey e.1) ∧
      RecordScans (j + 2) es)
    {l : Lexer} {ts out : List Token} {bs : List Int} {i : Nat} {more : Text} (hi : i ≤ j)
    (hmore : Follows i more)
    (h : At l (itemLines j (afterDashes j xs) ++ (newline i ++ more)) j ts (j :: bs) true)
    (hscans : ∀ l', At l' more i ((itemTokens xs).reverse ++ ts) (j :: bs) true → Scans l' out) :
    Scans l out := by
  induction xs generalizing l ts with
  | nil => exact absurd rfl hne
  | cons x xs ih =>
    obtain ⟨es, hesne, rfl, hkeys, hrecord⟩ := hxs x List.mem_cons_self
    have hafter : afterDash j (.record es)
        = CodePoint.ofChar ' ' :: entryLines (j + 2) (afterKeys (j + 2) es) := by
      obtain ⟨e, es, rfl⟩ := List.exists_cons_of_ne_nil hesne
      rfl
    have hstarts : ∀ rest, StartsPlain (entryLines (j + 2) (afterKeys (j + 2) es) ++ rest) := by
      intro rest
      rw [entryLines_afterKeys]
      exact startsPlain_entries (mergeSort_ne_nil hesne)
        (fun e he => hkeys e (List.mem_mergeSort.mp he)) rest
    -- the dash, the blank behind it, and the record
    have hitem : ∀ {l : Lexer} {i' : Nat} {more' : Text}, i' ≤ j → Follows i' more' →
        At l (CodePoint.ofChar '-' :: (afterDash j (.record es) ++ (newline i' ++ more'))) j ts
          (j :: bs) true →
        (∀ l', At l' more' i' ((tokens (.record es)).reverse ++ .entry :: ts) (j :: bs) true →
          Scans l' out) → Scans l out := by
      intro l i' more' hi' hmore' h hscans
      rw [hafter] at h
      refine Scans.of_entry h rfl rfl fun l h => ?_
      refine Scans.of_blank h (hstarts _).starts fun l h => ?_
      exact hrecord (by omega) (by omega) hmore' h hscans
    rcases xs with _ | ⟨x', xs⟩
    · have htext : itemLines j (afterDashes j [.record es]) ++ (newline i ++ more)
          = CodePoint.ofChar '-' :: (afterDash j (.record es) ++ (newline i ++ more)) := by
        simp [itemLines, afterDashes, Text.join, Text.ofString]
      rw [htext] at h
      refine hitem hi hmore h fun l h => hscans l ?_
      simpa [itemTokens] using h
    · have htext : itemLines j (afterDashes j (.record es :: x' :: xs)) ++ (newline i ++ more)
          = CodePoint.ofChar '-' :: (afterDash j (.record es) ++ (newline j
            ++ (itemLines j (afterDashes j (x' :: xs)) ++ (newline i ++ more)))) := by
        simp [itemLines, afterDashes, Text.join, Text.ofString, List.intercalate_cons_cons]
      have hxs' : ∀ y ∈ x' :: xs, ∃ es, es ≠ [] ∧ y = .record es ∧ (∀ e ∈ es, IsKey e.1)
          ∧ RecordScans (j + 2) es := fun y hy => hxs y (List.mem_cons_of_mem _ hy)
      rw [htext] at h
      refine hitem (Nat.le_refl j) (follows_items (List.cons_ne_nil _ _) hxs' _) h fun l h => ?_
      refine ih (List.cons_ne_nil _ _) hxs' h
        fun l h => hscans l ?_
      simpa [itemTokens] using h

/-! ### Whole documents -/

/-- **A number is exact** if its numeral is read as the number. -/
def IsExact (x : Float) : Prop := Numeral.real (real x) = .ok x

/-- **Data that can be exported**, where the key of the datum stands in the column `j`: numbers that
are read back, texts that are not indented too far, lists of records, and records whose keys are
names. -/
inductive Exportable : Nat → Datum → Prop
  | null {j : Nat} : Exportable j .null
  | bool {j : Nat} (b : Bool) : Exportable j (.bool b)
  | int {j : Nat} {i : Int} : i.natAbs < 10 ^ Numeral.mostDigits → Exportable j (.int i)
  | real {j : Nat} {x : Float} :
      Binary64.isFinite x = true → IsExact x → Exportable j (.real x)
  | infinity {j : Nat} : Exportable j (.real (Binary64.infinity false))
  | text {j : Nat} (t : Text) : j + 2 < Scalar.width → Exportable j (.text t)
  | nil {j : Nat} : Exportable j (.list [])
  | list {j : Nat} {xs : List Datum} : xs ≠ [] → (∀ x ∈ xs, ∃ es, x = .record es) →
      (∀ x ∈ xs, Exportable j x) → Exportable j (.list xs)
  | record {j : Nat} {es : List (Datum × Datum)} : es ≠ [] → (∀ e ∈ es, IsKey e.1) →
      (es.map Prod.fst).Nodup → (∀ e ∈ es, Exportable (j + 2) e.2) → Exportable j (.record es)

/-- What a datum is written as is cut into its tokens. -/
private theorem Exportable.scans {j : Nat} {d : Datum} (h : Exportable j d) :
    ValueScans j d ∧ ∀ es, d = .record es → RecordScans (j + 2) es := by
  -- on the datum. The items of a list stand behind hyphens, not behind keys, so records are scanned
  -- in either place (`RecordScans`).
  induction h with
  | null =>
    have hname : IsName (Text.ofString "null") := by decide
    exact ⟨valueScans_word hname.isWord hname.startsPlain rfl fun _ => rfl, fun _ h => by cases h⟩
  | bool b =>
    refine ⟨?_, fun _ h => by cases h⟩
    cases b with
    | false =>
      have hname : IsName (Text.ofString "false") := by decide
      exact valueScans_word hname.isWord hname.startsPlain rfl fun _ => rfl
    | true =>
      have hname : IsName (Text.ofString "true") := by decide
      exact valueScans_word hname.isWord hname.startsPlain rfl fun _ => rfl
  | @int j i hi =>
    refine ⟨valueScans_word (isWord_ofInt i) (fun rest => ?_) rfl fun _ => rfl,
      fun _ h => by cases h⟩
    rw [ofInt_eq, List.append_assoc, List.append_assoc]
    exact startsPlain_digits (isDigits_ofNat _) _ _
  | real hx hread =>
    have hpointed := isPointed_real hx
    refine ⟨valueScans_word hpointed.isWord (fun rest => ?_) rfl fun _ => rfl,
      fun _ h => by cases h⟩
    obtain ⟨negative, whole, part, exponent, hwhole, -, -, ht⟩ := hpointed
    rw [ht, List.append_assoc, List.append_assoc]
    exact startsPlain_digits hwhole _ _
  | infinity =>
    have hw : Unquoted.IsWord (Text.ofString ".inf") :=
      ⟨by decide, by decide, by decide, by decide⟩
    refine ⟨valueScans_word hw (fun rest => ?_) rfl fun _ => rfl, fun _ h => by cases h⟩
    exact ⟨⟨CodePoint.ofChar '.', _, rfl, by decide, by decide⟩, rfl, rfl⟩
  | text t hj => exact ⟨valueScans_text hj t, fun _ h => by cases h⟩
  | nil => exact ⟨valueScans_nil _, fun _ h => by cases h⟩
  | @list j xs hne hrecords h ih =>
    refine ⟨?_, fun _ h => by cases h⟩
    have hxs : ∀ x ∈ xs, ∃ es, es ≠ [] ∧ x = .record es ∧ (∀ e ∈ es, IsKey e.1)
        ∧ RecordScans (j + 2) es := by
      intro x hx
      obtain ⟨es, rfl⟩ := hrecords x hx
      cases h _ hx with
      | record hesne hkeys => exact ⟨es, hesne, rfl, hkeys, (ih _ hx).2 es rfl⟩
    intro l ts out bs column c i more hi hcolumn hmore hat hscans
    obtain ⟨x, xs, rfl⟩ := List.exists_cons_of_ne_nil hne
    change At l (newline j ++ itemLines j (afterDashes j (x :: xs)) ++ (newline i ++ more))
      column ts (j :: bs) false at hat
    rw [List.append_assoc] at hat
    refine Scans.of_newline hat ?_ fun l hat => scans_items hne hxs hi hmore hat hscans
    exact (follows_items hne hxs _).starts
  | @record j es hne hkeys hnodup h ih =>
    have hrecord : RecordScans (j + 2) es := recordScans hne hkeys fun e he => (ih e he).1
    refine ⟨valueScans_record hne hkeys hrecord, ?_⟩
    rintro _ ⟨⟩
    exact hrecord

/-- **Records that can be exported as a document.** -/
structure ExportableRecord (es : List (Datum × Datum)) : Prop where
  ne_nil : es ≠ []
  keys : ∀ e ∈ es, IsKey e.1
  nodup : (es.map Prod.fst).Nodup
  values : ∀ e ∈ es, Exportable 0 e.2

/-- **A document is cut into the tokens of its datum.** -/
theorem scan_document {es : List (Datum × Datum)} (h : ExportableRecord es) :
    Token.scan (document (.record es)) = tokens (.record es) ++ [.streamEnd] := by
  -- the document as the entries of a block, with nothing to follow the last line
  have hdocument : document (.record es)
      = Text.join (newline 0) ((es.mergeSort Datum.keyOrder).map (entryText 0)) ++
        (newline 0 ++ []) := by
    rw [← entryLines_afterKeys]
    obtain ⟨e, es, rfl⟩ := List.exists_cons_of_ne_nil h.ne_nil
    rfl
  have hstart : At (Lexer.start (document (.record es))) (document (.record es)) 0 [] [-1] true :=
    ⟨rfl, rfl, rfl, rfl, rfl, rfl, rfl, rfl⟩
  have hmore : Follows 0 [] := ⟨by rintro _ ⟨⟩, rfl⟩
  -- from the first state, in which no block is open
  have hscans :
      Scans (Lexer.start (document (.record es))) (tokens (.record es) ++ [.streamEnd]) := by
    rw [hdocument] at hstart ⊢
    refine scans_entries (mergeSort_ne_nil h.ne_nil)
      (fun e he => h.keys e (List.mem_mergeSort.mp he))
      (fun e he => (h.values e (List.mem_mergeSort.mp he)).scans.1) (Nat.le_refl 0)
      (by decide) hmore hstart fun l hat => ?_
    have hend := Scans.of_end hat
    rw [tokens_record]
    simpa using hend
  exact hscans.2 _ (Nat.le_refl _)

end StepCheck.Yaml
