import StepCheck.Yaml.Token.Lexer
import StepCheck.Proofs.Yaml.Unquoted
import StepCheck.Proofs.Yaml.Quoted

/-!
# Cutting block style into tokens

A document in block style is cut into tokens line by line: a key with its colon, a dash, a scalar,
and the ends of blocks where a line begins further to the left. Each of these is one lemma here. A
lemma tells which tokens come out of a place, given those that come out of the place behind, so a
whole document is gone through from its end to its beginning.

* `Lexer.At` — a place between two tokens;
* `Lexer.Scans` — the tokens that come out of a place;
* `Scans.of_key`, `Scans.of_entry`, `Scans.of_plain`, `Scans.of_quoted`, `Scans.of_brackets`,
  `Scans.of_blockEnd`, `Scans.of_end` — one token more;
* `Scans.of_blank`, `Scans.of_newline` — what is passed over between tokens.
-/

namespace StepCheck.Yaml

/-! ### Places -/

namespace Cursor

/-- The column behind a text that begins in a column. -/
def columnAfter (column : Nat) : Text → Nat
  | [] => column
  | c :: t =>
    columnAfter (if isBreak c then 0 else if c.val = byteOrderMark then column else column + 1) t

/-- The cursor behind a part of the text stands before the rest, in the column behind the part. -/
theorem advance_append (s : Text) (c : Cursor) {t : Text} (h : c.rest = s ++ t) :
    (c.advance s.length).rest = t ∧ (c.advance s.length).column = columnAfter c.column s := by
  induction s generalizing c with
  | nil => exact ⟨h, rfl⟩
  | cons d s ih =>
    have hstep : c.step.rest = s ++ t ∧ c.step.column
        = if isBreak d then 0 else if d.val = byteOrderMark then c.column else c.column + 1 := by
      unfold step
      rw [h]
      simp only [List.cons_append]
      split_ifs <;> exact ⟨rfl, rfl⟩
    obtain ⟨hrest, hcolumn⟩ := ih c.step hstep.1
    rw [List.length_cons, advance]
    exact ⟨hrest, by rw [hcolumn, hstep.2, columnAfter]⟩

/-- Within a line only the columns are counted. -/
theorem advance_line (s : Text) (c : Cursor) {t : Text} (h : c.rest = s ++ t)
    (hs : ∀ d ∈ s, isBreak d = false ∧ d.val ≠ byteOrderMark) :
    c.advance s.length = ⟨t, c.index + s.length, c.line, c.column + s.length⟩ := by
  induction s generalizing c with
  | nil => obtain ⟨rest, index, line, column⟩ := c; simpa using h
  | cons d s ih =>
    obtain ⟨hbreak, hmark⟩ := hs d List.mem_cons_self
    have hstep : c.step = ⟨s ++ t, c.index + 1, c.line, c.column + 1⟩ := by
      unfold step
      rw [h]
      simp [hbreak, hmark]
    rw [List.length_cons, advance, hstep, ih _ rfl fun e he => hs e (List.mem_cons_of_mem _ he)]
    simp only [Nat.add_assoc, Nat.add_comm 1]

/-- The column behind two parts is found part by part. -/
theorem columnAfter_append (column : Nat) (s t : Text) :
    columnAfter column (s ++ t) = columnAfter (columnAfter column s) t := by
  induction s generalizing column with
  | nil => rfl
  | cons c s ih => simp only [List.cons_append, columnAfter, ih]

/-- Blanks move the column on by their number. -/
theorem columnAfter_blanks (column n : Nat) :
    columnAfter column (List.replicate n (CodePoint.ofChar ' ')) = column + n := by
  have hblank : isBreak (CodePoint.ofChar ' ') = false := by decide
  have hmark : (CodePoint.ofChar ' ').val ≠ byteOrderMark := by decide
  induction n generalizing column with
  | zero => rfl
  | succ n ih =>
    rw [List.replicate_succ, columnAfter, hblank, if_neg Bool.false_ne_true, if_neg hmark, ih]
    omega

/-- A line break with indentation ends in the column of the indentation. -/
theorem columnAfter_newline (column i : Nat) : columnAfter column (Scalar.newline i) = i := by
  have hbreak : isBreak (CodePoint.ofChar '\n') = true := by decide
  rw [Scalar.newline, columnAfter, hbreak, if_pos rfl, columnAfter_blanks, Nat.zero_add]

end Cursor

namespace Lexer

/-- **What follows** where a token begins: nothing, or something that is passed over by none. -/
def Starts (t : Text) : Prop :=
  ∀ c ∈ t.head?, isBreak c = false ∧ c ≠ CodePoint.ofChar ' ' ∧ c ≠ CodePoint.ofChar '#'
    ∧ c.val ≠ Cursor.byteOrderMark

/-- **A place** outside all brackets and behind all that could be a key. -/
structure At (l : Lexer) (t : Text) (column : Nat) (ts : List Token) (blocks : List Int)
    (allowsKey : Bool) : Prop where
  rest : l.rest = t
  column : l.column = column
  tokens : l.tokens = ts
  count : l.count = ts.length
  depth : l.depth = 0
  blocks : l.indent :: l.outer = blocks
  allowsKey : l.allowsKey = allowsKey
  candidates : l.candidates = []

/-- **The tokens of the rest**, and of what is before it: there is a next one, and with enough fuel
all of them come out. -/
def Scans (l : Lexer) (out : List Token) : Prop :=
  (∃ m, l.next = .ok m) ∧ ∀ most, l.rest.length + 2 ≤ most → l.run most = out

variable {l l' : Lexer} {t rest : Text} {column : Nat} {ts out : List Token} {b : Int}
  {bs : List Int} {allowsKey : Bool}

/-- The tokens that come out of a place are those that come out behind the next token. -/
theorem Scans.of_next (h : l.next = .ok l') (hlength : l'.rest.length < l.rest.length)
    (hhead : l'.tokens.head? ≠ some .streamEnd) (hscans : l'.Scans out) : l.Scans out := by
  refine ⟨⟨l', h⟩, fun most hmost => ?_⟩
  obtain ⟨most, rfl⟩ := Nat.exists_eq_add_of_lt (show 0 < most by omega)
  rw [Nat.zero_add, run, h]
  simp only [hhead, if_false]
  exact hscans.2 most (by omega)

/-- Where the next token is the same, so are all. -/
theorem Scans.of_next_eq (h : l.next = l'.next) (hlength : l'.rest.length ≤ l.rest.length)
    (hscans : l'.Scans out) : l.Scans out := by
  obtain ⟨⟨m, hm⟩, hrun⟩ := hscans
  refine ⟨⟨m, h.trans hm⟩, fun most hmost => ?_⟩
  have hrun := hrun most (by omega)
  obtain ⟨most, rfl⟩ := Nat.exists_eq_add_of_lt (show 0 < most by omega)
  rw [Nat.zero_add, run, hm] at hrun
  rw [Nat.zero_add, run, h, hm]
  exact hrun

/-! ### What is passed over -/

/-- Blanks before a token are skipped. -/
private theorem skipBlanks_blanks (h : Starts t) (l : Lexer) (n : Nat) :
    l.skipBlanks false (List.replicate n (CodePoint.ofChar ' ') ++ t) = l.advance n := by
  induction n generalizing l with
  | zero =>
    rcases t with _ | ⟨c, t⟩
    · rfl
    · obtain ⟨hbreak, hblank, hsign, -⟩ := h c rfl
      simp [skipBlanks, hbreak, hblank, hsign, advance]
  | succ n ih =>
    have hbreak : isBreak (CodePoint.ofChar ' ') = false := by decide
    rw [List.replicate_succ, List.cons_append, skipBlanks, hbreak, if_neg Bool.false_ne_true,
      if_neg Bool.false_ne_true, if_pos rfl, ih]
    rfl

/-- Blanks are skipped on the way to the next token, unless a byte order mark stands in front. -/
private theorem toNext_eq (h : l.rest = t)
    (ht : t.head?.map CodePoint.val ≠ some Cursor.byteOrderMark) :
    l.toNext = l.skipBlanks false t := by
  rw [toNext, h, if_neg fun hand => ht hand.2, h]

/-- Where a token starts there is nothing to skip. -/
private theorem toNext_of_starts (h : l.rest = t) (ht : Starts t) : l.toNext = l := by
  rw [toNext_eq h]
  · exact skipBlanks_blanks ht l 0
  · rcases t with _ | ⟨c, t⟩
    · simp
    · have hmark : c.val ≠ Cursor.byteOrderMark := (ht c rfl).2.2.2
      simpa using hmark

/-- A place that is passed over a part of the text is the place behind that part. -/
theorem At.advance {s : Text} (h : At l (s ++ t) column ts bs allowsKey) :
    At (l.advance s.length) t (Cursor.columnAfter column s) ts bs allowsKey := by
  obtain ⟨hrest, hcolumn⟩ := Cursor.advance_append s l.cursor h.rest
  refine { h with rest := hrest, column := ?_ }
  rw [← h.column]
  exact hcolumn

/-- The next token is the one behind what is skipped. -/
private theorem At.next_eq_of_toNext {column' : Nat} {allowsKey' : Bool}
    (h : At l.toNext t column' ts bs allowsKey') (ht : Starts t) : l.next = l.toNext.next := by
  rw [next, next, toNext_of_starts h.rest ht]

/-- **Blanks** before a token are passed over. -/
theorem Scans.of_blank (h : At l (CodePoint.ofChar ' ' :: t) column ts bs allowsKey) (ht : Starts t)
    (hscans : ∀ l', At l' t (column + 1) ts bs allowsKey → Scans l' out) : Scans l out := by
  have hto : l.toNext = l.advance 1 := by
    rw [toNext_eq h.rest
      (show some (CodePoint.ofChar ' ').val ≠ some Cursor.byteOrderMark by decide)]
    exact skipBlanks_blanks ht l 1
  have hat : At (l.advance 1) t (column + 1) ts bs allowsKey :=
    At.advance (s := [CodePoint.ofChar ' ']) h
  rw [← hto] at hat
  refine Scans.of_next_eq (hat.next_eq_of_toNext ht) ?_ (hscans _ hat)
  rw [hat.rest, h.rest, List.length_cons]
  omega

/-- **A line break with indentation** is passed over, and a key may follow. -/
theorem Scans.of_newline {i : Nat} (h : At l (Scalar.newline i ++ t) column ts bs allowsKey)
    (ht : Starts t) (hscans : ∀ l', At l' t i ts bs true → Scans l' out) : Scans l out := by
  have hbreak : isBreak (CodePoint.ofChar '\n') = true := by decide
  -- the line end is skipped together with the blanks behind it, and a key may follow
  have hto : l.toNext = { l with allowsKey := true }.advance (i + 1) := by
    have hblock : (l.advance 1).inBlock = true := by
      have hdepth : (l.advance 1).depth = 0 := h.depth
      rw [inBlock, hdepth]
      rfl
    rw [toNext_eq h.rest
      (show some (CodePoint.ofChar '\n').val ≠ some Cursor.byteOrderMark by decide),
      Scalar.newline, List.cons_append, skipBlanks, hbreak, if_pos rfl]
    dsimp only
    rw [hblock, if_pos rfl, skipBlanks_blanks ht]
    rfl
  have hat : At ({ l with allowsKey := true }.advance (i + 1)) t i ts bs true := by
    have hkey : At { l with allowsKey := true } (Scalar.newline i ++ t) column ts bs true :=
      { h with allowsKey := rfl }
    have hadvance := At.advance hkey
    rw [Cursor.columnAfter_newline] at hadvance
    simpa [Scalar.newline] using hadvance
  rw [← hto] at hat
  refine Scans.of_next_eq (hat.next_eq_of_toNext ht) ?_ (hscans _ hat)
  rw [hat.rest, h.rest, List.length_append]
  omega

/-! ### Where blocks end -/

/-- Without candidates for keys none is stale. -/
private theorem dropStale_of_nil (h : l.candidates = []) : l.dropStale = .ok l := by
  obtain ⟨cursor, tokens, count, depth, indent, outer, allows, candidates⟩ := l
  obtain rfl : candidates = [] := h
  rfl

/-- Without candidates for keys none has to be given up. -/
private theorem giveUp_of_nil (h : l.candidates = []) : l.giveUp = .ok l := by
  rw [giveUp, candidate?, h]
  rfl

/-- Outside of brackets the lexer is in a block. -/
private theorem At.inBlock (h : At l t column ts bs allowsKey) : l.inBlock = true := by
  rw [Lexer.inBlock, h.depth]
  rfl

/-- Where no block ends, the next token is read at once. -/
theorem At.next_eq_token (h : At l t column ts (b :: bs) allowsKey) (ht : Starts t)
    (hb : b ≤ column) : l.next = l.token := by
  have hclose : l.closeBlocks l.column = l := by
    obtain ⟨hindent, houter⟩ := List.cons.inj h.blocks
    rw [closeBlocks, h.inBlock, if_pos rfl, h.column]
    unfold closeBlocks.close
    split
    · rfl
    · rw [hindent, if_neg (by omega)]
  rw [next, toNext_of_starts h.rest ht, dropStale_of_nil h.candidates]
  change (l.closeBlocks l.column).token = l.token
  rw [hclose]

/-- **A block ends** where a line begins further to the left. -/
theorem Scans.of_blockEnd {b' : Int} (h : At l t column ts (b :: b' :: bs) allowsKey)
    (ht : Starts t) (hb : column < b)
    (hscans : ∀ l', At l' t column (.blockEnd :: ts) (b' :: bs) allowsKey → Scans l' out) :
    Scans l out := by
  obtain ⟨hindent, houter⟩ := List.cons.inj h.blocks
  have hat : At ({ l with indent := b', outer := bs }.push .blockEnd) t column (.blockEnd :: ts)
      (b' :: bs) allowsKey :=
    ⟨h.rest, h.column, congrArg _ h.tokens, congrArg (· + 1) h.count, h.depth, rfl, h.allowsKey,
      h.candidates⟩
  have hnext : l.next = ({ l with indent := b', outer := bs }.push .blockEnd).next := by
    rw [next, next, toNext_of_starts h.rest ht, toNext_of_starts hat.rest ht,
      dropStale_of_nil h.candidates, dropStale_of_nil hat.candidates]
    change (l.closeBlocks l.column).token = (Lexer.closeBlocks _ _).token
    rw [closeBlocks, h.inBlock, if_pos rfl, closeBlocks, hat.inBlock, if_pos rfl, houter,
      closeBlocks.close, h.column, hindent, if_pos hb, hat.column]
    rfl
  exact Scans.of_next_eq hnext (by rw [hat.rest, h.rest]) (hscans _ hat)

/-! ### Tokens -/

/-- **Where a plain scalar begins**: no indicator, no white space and no mark stands there. -/
structure StartsPlain (t : Text) : Prop where
  exists_cons : ∃ c s, t = c :: s ∧ isSeparator c = false ∧ c.val ≠ Cursor.byteOrderMark
  noIndicator : Style.hasLeadingIndicator t = false
  noMarker : Style.hasMarker t = false

/-- No mark between documents begins with another character. -/
theorem hasMarker_of_ne {c : CodePoint} {s : Text} (hdash : c ≠ CodePoint.ofChar '-')
    (hpoint : c ≠ CodePoint.ofChar '.') : Style.hasMarker (c :: s) = false := by
  have hno : ∀ d m, d ≠ c → (d :: m : Text).isPrefixOf (c :: s) = false := by
    intro d m hd
    simp [List.isPrefixOf, hd]
  change ((CodePoint.ofChar '-' :: _ : Text).isPrefixOf _
    || (CodePoint.ofChar '.' :: _ : Text).isPrefixOf _) = false
  rw [hno _ _ hdash.symm, hno _ _ hpoint.symm]
  rfl

/-- What a text does not begin with. -/
private theorem hasLeadingIndicator_eq_false {c : CodePoint} {s : Text}
    (h : Style.hasLeadingIndicator (c :: s) = false) : c ∉ leadingIndicators
      ∧ (c = CodePoint.ofChar '?' ∨ c = CodePoint.ofChar ':' ∨ c = CodePoint.ofChar '-' →
        Style.endsHere s = false) := by
  simpa [Style.hasLeadingIndicator, or_assoc] using h

/-- A plain word starts a token. -/
theorem StartsPlain.starts (h : StartsPlain t) : Starts t := by
  obtain ⟨c, s, rfl, hsep, hmark⟩ := h.exists_cons
  have hsign : c ≠ CodePoint.ofChar '#' := by
    rintro rfl
    exact (hasLeadingIndicator_eq_false h.noIndicator).1 (by decide)
  simp only [isSeparator, Bool.or_eq_false_iff, decide_eq_false_iff_not] at hsep
  rintro _ ⟨⟩
  exact ⟨hsep.1.1.1.1, hsep.1.1.1.2, hsign, hmark⟩

/-- What begins like a plain scalar is read as one. -/
private theorem At.token_eq_plain (h : At l t column ts bs allowsKey) (ht : StartsPlain t) :
    l.token = l.plain := by
  obtain ⟨c, s, rfl, hsep, -⟩ := ht.exists_cons
  obtain ⟨hlead, hother⟩ := hasLeadingIndicator_eq_false ht.noIndicator
  have hne : ∀ d ∈ leadingIndicators, c ≠ d := fun d hd hcd => hlead (hcd ▸ hd)
  have hopen : c.val ≠ 0x7B := fun hval =>
    hne (CodePoint.ofNat 0x7B) (by decide) (CodePoint.ext hval)
  have hclose : c.val ≠ 0x7D := fun hval =>
    hne (CodePoint.ofNat 0x7D) (by decide) (CodePoint.ext hval)
  have hmarker : isDocumentMarker (c :: s) = false := by
    rw [isDocumentMarker, ht.noMarker, Bool.false_and]
  -- a question mark, a colon and a hyphen are indicators only before a separator
  have hends : ∀ d, d = CodePoint.ofChar '?' ∨ d = CodePoint.ofChar ':' ∨ d = CodePoint.ofChar '-' →
      ¬ (c = d ∧ Style.endsHere s = true) := by
    rintro d hd ⟨rfl, hs⟩
    rw [hother hd] at hs
    exact Bool.noConfusion hs
  have hplain : startsPlain true (c :: s) = true := by
    rw [startsPlain, hsep]
    by_cases hind : indicators.contains c = true
    · have hc : c = CodePoint.ofChar '?' ∨ c = CodePoint.ofChar ':' ∨ c = CodePoint.ofChar '-' := by
        have hall : ∀ d ∈ indicators, d ∈ leadingIndicators ∨ d = CodePoint.ofChar '?'
            ∨ d = CodePoint.ofChar ':' ∨ d = CodePoint.ofChar '-' := by decide
        exact (hall c (List.contains_iff_mem.mp hind)).resolve_left hlead
      rw [hother hc]
      rcases hc with rfl | rfl | rfl <;> decide
    · rw [Bool.not_eq_true] at hind
      rw [hind]
      rfl
  -- the tests of the lexer in their order, all of which fail but the last
  unfold token
  rw [h.rest]
  simp only [hmarker, h.inBlock, hopen, hclose, hplain, Bool.false_eq_true, and_false, if_false,
    if_true, Bool.not_true, false_or, hends _ (.inl rfl), hends _ (.inr (.inl rfl)),
    hends _ (.inr (.inr rfl)), hne (CodePoint.ofChar '%') (by decide),
    hne (CodePoint.ofChar '[') (by decide), hne (CodePoint.ofChar ']') (by decide),
    hne (CodePoint.ofChar ',') (by decide), hne (CodePoint.ofChar '*') (by decide),
    hne (CodePoint.ofChar '&') (by decide), hne (CodePoint.ofChar '!') (by decide),
    hne (CodePoint.ofChar '|') (by decide), hne (CodePoint.ofChar '>') (by decide),
    hne (CodePoint.ofChar '\'') (by decide), hne (CodePoint.ofChar '"') (by decide), false_and]

/-- Where no key may begin, nothing is marked. -/
private theorem At.mark (h : At l t column ts bs false) : l.mark = .ok l := by
  rw [Lexer.mark, h.allowsKey]
  rfl

/-- A token is put behind those that are there. -/
private theorem At.push (h : At l t column ts bs allowsKey) (tok : Token) :
    At (l.push tok) t column (tok :: ts) bs allowsKey :=
  { h with tokens := congrArg _ h.tokens, count := congrArg (· + 1) h.count }

/-- Whether a key may follow can be set. -/
private theorem At.disallow (h : At l t column ts bs allowsKey) (allows : Bool) :
    At { l with allowsKey := allows } t column ts bs allows :=
  { h with allowsKey := rfl }

/-- **A plain scalar** as a value, up to the next line. -/
theorem Scans.of_plain {w v more : Text} {i : Nat}
    (h : At l (w ++ (Scalar.newline i ++ more)) column ts (b :: bs) false)
    (hw : StartsPlain (w ++ (Scalar.newline i ++ more))) (hb : b ≤ column)
    (hread : Unquoted.read ⟨false, b + 1⟩ (w ++ (Scalar.newline i ++ more))
      = ⟨v, w.length + (i + 1), true⟩)
    (hscans : ∀ l', At l' more i (.scalar true v :: ts) (b :: bs) true → Scans l' out) :
    Scans l out := by
  have hindent : l.indent = b := (List.cons.inj h.blocks).1
  -- a plain word is read to the end of its line, and the line end belongs to it
  have hnext : l.next
      = .ok (({ l with allowsKey := true }.advance (w ++ Scalar.newline i).length).push
          (.scalar true v)) := by
    rw [h.next_eq_token hw.starts hb, h.token_eq_plain hw, plain, h.mark]
    change Except.ok _ = _
    rw [h.inBlock, hindent, h.rest, Bool.not_true, hread]
    simp [Scalar.newline]
  have hat := (At.advance (s := w ++ Scalar.newline i) (by
    rw [List.append_assoc]
    exact h.disallow true)).push (.scalar true v)
  rw [Cursor.columnAfter_append, Cursor.columnAfter_newline] at hat
  refine Scans.of_next hnext ?_ ?_ (hscans _ hat)
  · rw [hat.rest, h.rest]
    simp [Scalar.newline]
    omega
  · simp [Lexer.push]

/-- **A quoted scalar** as a value. -/
theorem Scans.of_quoted {quote : CodePoint} {s v : Text} (hq : Quoted.IsQuote quote)
    (h : At l (quote :: (s ++ rest)) column ts (b :: bs) false) (hb : b ≤ column)
    (hread : Quoted.read quote (s ++ rest) = .ok ⟨v, s.length⟩)
    (hscans : ∀ l' column', At l' rest column' (.scalar false v :: ts) (b :: bs) false →
      Scans l' out) :
    Scans l out := by
  have hstarts : Starts (quote :: (s ++ rest)) := by
    rintro _ ⟨⟩
    rcases hq with rfl | rfl <;> decide
  have htoken : l.token = l.quoted quote := by
    unfold token
    rw [h.rest]
    rcases hq with rfl | rfl <;> rfl
  -- what is quoted is read to its closing quote
  have hnext : l.next = .ok (({ l with allowsKey := false }.advance (quote :: s).length).push
      (.scalar false v)) := by
    rw [h.next_eq_token hstarts hb, htoken, quoted, h.mark]
    change (Quoted.read quote (l.rest.drop 1) >>= _) = _
    rw [h.rest, List.drop_succ_cons, List.drop_zero, hread]
    rfl
  have hat := (At.advance (s := quote :: s) (by
    rw [List.cons_append]
    exact h.disallow false)).push (.scalar false v)
  refine Scans.of_next hnext ?_ ?_ (hscans _ _ hat)
  · rw [hat.rest, h.rest]
    simp
  · simp [Lexer.push]

/-- **An empty list** as a value. -/
theorem Scans.of_brackets (h : At l (CodePoint.ofChar '[' :: CodePoint.ofChar ']' :: rest) column ts
    (b :: bs) false) (hb : b ≤ column)
    (hscans : ∀ l', At l' rest (column + 2) (.closeBracket :: .openBracket :: ts) (b :: bs) false →
      Scans l' out) :
    Scans l out := by
  -- between the brackets
  let inner : Lexer :=
    ({ l with depth := l.depth + 1, allowsKey := true }.advance 1).push .openBracket
  have hopen : l.next = .ok inner := by
    have hstarts : Starts (CodePoint.ofChar '[' :: CodePoint.ofChar ']' :: rest) := by
      rintro _ ⟨⟩
      decide
    have htoken : l.token = l.open_ .openBracket := by
      unfold token
      rw [h.rest]
      rfl
    rw [h.next_eq_token hstarts hb, htoken, open_, h.mark]
    rfl
  have hinner := At.advance (s := [CodePoint.ofChar '[']) h
  have hclose : inner.next = .ok (({ l with allowsKey := false }.advance
      [CodePoint.ofChar '[', CodePoint.ofChar ']'].length).push
        .openBracket |>.push .closeBracket) := by
    have hrest : inner.rest = CodePoint.ofChar ']' :: rest := hinner.rest
    have hstarts : Starts (CodePoint.ofChar ']' :: rest) := by
      rintro _ ⟨⟩
      decide
    have hblock : inner.closeBlocks inner.column = inner := by
      have hdepth : inner.inBlock = false := by
        have hdepth : inner.depth = l.depth + 1 := rfl
        rw [Lexer.inBlock, hdepth]
        rfl
      rw [closeBlocks, hdepth]
      rfl
    have htoken : inner.token = inner.close_ .closeBracket := by
      unfold token
      rw [hrest]
      rfl
    have hcandidates : inner.candidates = [] := h.candidates
    rw [next, toNext_of_starts hrest hstarts, dropStale_of_nil hcandidates]
    change (inner.closeBlocks inner.column).token = _
    rw [hblock, htoken, close_, giveUp_of_nil hcandidates]
    rfl
  have hat := ((At.advance (s := [CodePoint.ofChar '[', CodePoint.ofChar ']'])
    (h.disallow false)).push .openBracket).push .closeBracket
  refine Scans.of_next hopen ?_ (by simp [inner, Lexer.push])
    (Scans.of_next hclose ?_ ?_ (hscans _ hat))
  · rw [h.rest, show inner.rest = CodePoint.ofChar ']' :: rest from hinner.rest]
    simp
  · rw [hat.rest, show inner.rest = CodePoint.ofChar ']' :: rest from hinner.rest]
    simp
  · simp [Lexer.push]

/-- **A dash** before an item in the column of the key. -/
theorem Scans.of_entry (h : At l (CodePoint.ofChar '-' :: rest) column ts (column :: bs) true)
    (hrest : Style.endsHere rest = true)
    (hmarker : isDocumentMarker (CodePoint.ofChar '-' :: rest) = false)
    (hscans : ∀ l', At l' rest (column + 1) (.entry :: ts) (column :: bs) true → Scans l' out) :
    Scans l out := by
  have hstarts : Starts (CodePoint.ofChar '-' :: rest) := by
    rintro _ ⟨⟩
    decide
  have htoken : l.token = l.entry := by
    unfold token
    rw [h.rest]
    dsimp only
    rw [hmarker, hrest]
    simp only [Bool.false_eq_true, and_false, if_false]
    rfl
  have hnext : l.next = .ok
      (({ l with allowsKey := true }.advance [CodePoint.ofChar '-'].length).push .entry) := by
    -- the block of the sequence is open, as the hyphen stands in its column
    have hopen : l.openHere .sequenceStart = l := by
      have hindent : l.indent = column := (List.cons.inj h.blocks).1
      rw [openHere, h.inBlock, if_pos rfl, openBlock, h.column, hindent, if_neg (Int.lt_irrefl _)]
      rfl
    rw [h.next_eq_token hstarts (Int.le_refl _), htoken, entry, h.inBlock, h.allowsKey, hopen,
      giveUp_of_nil h.candidates]
    rfl
  have hat := (At.advance (s := [CodePoint.ofChar '-']) (h.disallow true)).push .entry
  refine Scans.of_next hnext ?_ ?_ (hscans _ hat)
  · rw [hat.rest, h.rest]
    simp
  · simp [Lexer.push]

/-- **The end of the document** ends its block. -/
theorem Scans.of_end (h : At l [] column ts [(column : Int), -1] allowsKey) :
    Scans l (Token.streamEnd :: .blockEnd :: ts).reverse := by
  have hstarts : Starts [] := by simp [Starts]
  have htoken : l.token = l.finish := by
    unfold token
    rw [h.rest]
  obtain ⟨hindent, houter⟩ := List.cons.inj h.blocks
  -- one block is still open, and it is closed
  have hclose : l.closeBlocks (-1) = { l with indent := -1, outer := [] }.push .blockEnd := by
    rw [closeBlocks, h.inBlock, if_pos rfl, houter, closeBlocks.close, hindent, if_pos (by omega)]
    rfl
  have hat : At ({ l with indent := -1, outer := [] }.push .blockEnd) [] column
      (.blockEnd :: ts) [-1] allowsKey :=
    ⟨h.rest, h.column, congrArg _ h.tokens, congrArg (· + 1) h.count, h.depth, rfl, h.allowsKey,
      h.candidates⟩
  have hnext : l.next = .ok
      (({ l with indent := -1, outer := [] }.push .blockEnd).push .streamEnd) := by
    rw [h.next_eq_token hstarts (Int.le_refl _), htoken, finish, hclose,
      giveUp_of_nil hat.candidates]
    rfl
  have hat' := hat.push .streamEnd
  refine ⟨⟨_, hnext⟩, fun most hmost => ?_⟩
  obtain ⟨most, rfl⟩ := Nat.exists_eq_add_of_lt (show 0 < most by omega)
  rw [Nat.zero_add, run, hnext]
  dsimp only
  rw [hat'.tokens]
  rfl

/-- **A name** as a key: small letters and low lines. -/
def IsName (k : Text) : Prop :=
  k ≠ [] ∧ k.length ≤ longestKey ∧ ∀ c ∈ k, c.isSmall = true ∨ c = Plain.lowLine

instance (k : Text) : Decidable (IsName k) := inferInstanceAs (Decidable (_ ∧ _ ∧ _))

/-- Characters that are part of a word wherever they stand. -/
private def IsOrdinary (c : CodePoint) : Prop :=
  isSeparator c = false ∧ isBreak c = false ∧ c.val ≠ Cursor.byteOrderMark
    ∧ c ∉ leadingIndicators ∧ c ≠ CodePoint.ofChar ':' ∧ c ≠ CodePoint.ofChar '-'
    ∧ c ≠ CodePoint.ofChar '.' ∧ c ≠ CodePoint.ofChar '?'

private instance : DecidablePred IsOrdinary := fun _ => inferInstanceAs (Decidable (_ ∧ _))

/-- Names are made of ordinary characters. -/
private theorem of_isName {k : Text} (hk : IsName k) : ∀ c ∈ k, IsOrdinary c := by
  intro c hc
  have hsmall : ∀ j < 26, IsOrdinary (CodePoint.ofNat (0x61 + j)) := by decide
  rcases hk.2.2 c hc with h | rfl
  · simp only [CodePoint.isSmall, Bool.and_eq_true, decide_eq_true_eq] at h
    have := hsmall (c.val - 0x61) (by omega)
    rwa [show 0x61 + (c.val - 0x61) = c.val by omega, CodePoint.ofNat_val] at this
  · decide

/-- A name is one word. -/
theorem IsName.isWord {k : Text} (hk : IsName k) : Unquoted.IsWord k where
  ne_nil := hk.1
  noSeparator c hc := (of_isName hk c hc).1
  getLast? h := (of_isName hk _ (List.mem_of_getLast? h)).2.2.2.2.1 rfl
  head? h := (of_isName hk _ (List.mem_of_head? h)).2.2.2.1 (by decide)

/-- A name begins as plain texts do. -/
theorem IsName.startsPlain {k : Text} (hk : IsName k) (rest : Text) : StartsPlain (k ++ rest) := by
  obtain ⟨c, k', rfl⟩ := List.exists_cons_of_ne_nil hk.1
  obtain ⟨hsep, -, hmark, hlead, hcolon, hdash, hpoint, hquestion⟩ :=
    of_isName hk c List.mem_cons_self
  refine ⟨⟨c, _, rfl, hsep, hmark⟩, ?_, ?_⟩
  · simp [Style.hasLeadingIndicator, hlead, hcolon, hdash, hquestion]
  · exact hasMarker_of_ne (s := k' ++ rest) hdash hpoint

/-- A key is a scalar at first, and its place is kept. -/
private theorem next_key {k : Text} (hk : IsName k)
    (h : At l (k ++ CodePoint.ofChar ':' :: rest) column ts (b :: bs) true)
    (hrest : Style.endsHere rest = true) (hb : b ≤ column) :
    l.next = .ok
      { cursor := ⟨CodePoint.ofChar ':' :: rest, l.cursor.index + k.length, l.cursor.line,
          column + k.length⟩
        tokens := .scalar true k :: ts
        count := ts.length + 1
        depth := 0
        indent := b
        outer := bs
        allowsKey := false
        candidates := [(0, ⟨ts.length, b == column, l.cursor.index, l.cursor.line, column⟩)] } := by
  have hline : ∀ c ∈ k, isBreak c = false ∧ c.val ≠ Cursor.byteOrderMark := fun c hc =>
    ⟨(of_isName hk c hc).2.1, (of_isName hk c hc).2.2.1⟩
  have hplain := h.token_eq_plain (hk.startsPlain _)
  have hread := Unquoted.read_key (x := ⟨false, b + 1⟩) rfl hk.isWord hrest
  have hadvance := Cursor.advance_line k l.cursor h.rest hline
  rw [h.next_eq_token (hk.startsPlain _).starts hb, hplain]
  -- the state is taken apart, so that the two sides can be compared field by field
  obtain ⟨cursor, tokens, count, depth, indent, outer, allows, candidates⟩ := l
  obtain ⟨hrest, hcolumn, htokens, hcount, hdepth, hblocks, hallows, hcandidates⟩ := h
  simp only [Lexer.rest, Lexer.column, List.cons.injEq]
    at hrest hcolumn htokens hcount hdepth hblocks hallows hcandidates
  obtain ⟨rfl, rfl⟩ := hblocks
  subst htokens hcount hdepth hallows hcandidates hcolumn
  simp only [plain, Lexer.mark, Lexer.giveUp, candidate?, Lexer.inBlock, Lexer.rest, hrest,
    List.lookup_nil, if_true, bind, Except.bind, pure, Except.pure, Lexer.column, Lexer.advance,
    Lexer.push, beq_self_eq_true, Bool.not_true, Bool.true_and, hread]
  rw [hadvance]

/-- Its colon tells that it is a key, and the tokens of a key are put in. -/
private theorem next_colon (index line length column : Nat) (isRequired : Bool)
    (hlength : length ≤ longestKey) (hb : b ≤ column) (k : Text)
    (hrest : Style.endsHere rest = true) :
    next
      { cursor := ⟨CodePoint.ofChar ':' :: rest, index + length, line, column + length⟩
        tokens := .scalar true k :: ts
        count := ts.length + 1
        depth := 0
        indent := b
        outer := bs
        allowsKey := false
        candidates := [(0, ⟨ts.length, isRequired, index, line, column⟩)] }
      = .ok
        { cursor := ⟨rest, index + length + 1, line, column + length + 1⟩
          tokens := .colon :: .scalar true k :: .key ::
            if b < column then .mappingStart :: ts else ts
          count := ts.length + if b < column then 4 else 3
          depth := 0
          indent := column
          outer := if b < column then b :: bs else bs
          allowsKey := false
          candidates := [] } := by
  have hstarts : Starts (CodePoint.ofChar ':' :: rest) := by
    rintro _ ⟨⟩
    decide
  -- the colon stands in the line of its key, so no block ends before it and the key is not stale
  have hclose : ∀ (l : Lexer), l.indent = b → closeBlocks (column + length : Nat) l = l := by
    intro l hl
    unfold closeBlocks
    split
    · unfold closeBlocks.close
      split
      · rfl
      · rw [hl, if_neg (by omega)]
    · rfl
  have hstale : ∀ l : Lexer, l.cursor.index = index + length → l.cursor.line = line →
      l.candidates = [(0, ⟨ts.length, isRequired, index, line, column⟩)] → l.dropStale = .ok l := by
    intro l hindex hline hcandidates
    have hfresh : l.isStale ⟨ts.length, isRequired, index, line, column⟩ = false := by
      simp [isStale, hindex, hline]
      omega
    obtain ⟨cursor, tokens, count, depth, indent, outer, allows, candidates⟩ := l
    dsimp only at hcandidates
    subst hcandidates
    simp [dropStale, hfresh]
  have htoken : ∀ l : Lexer, l.rest = CodePoint.ofChar ':' :: rest → l.depth = 0 →
      l.token = l.colon := by
    intro l hl hdepth
    unfold token
    rw [hl]
    simp only [hrest, or_true, and_true, if_true]
    rfl
  rw [next, toNext_of_starts (t := CodePoint.ofChar ':' :: rest) rfl hstarts, hstale _ rfl rfl rfl]
  change (closeBlocks (column + length : Nat) _).token = _
  rw [hclose _ rfl, htoken _ rfl rfl, colon]
  have hstep : Cursor.advance 1
      ⟨CodePoint.ofChar ':' :: rest, index + length, line, column + length⟩
      = ⟨rest, index + length + 1, line, column + length + 1⟩ := rfl
  -- the entry opens a block if it is indented further than the block that is open
  by_cases hnew : b < column
  · simp [candidate?, forget, Lexer.inBlock, openBlock, insert, push, Lexer.advance, hnew, hstep,
      pure, Except.pure]
  · obtain rfl : b = column := by omega
    simp [candidate?, forget, Lexer.inBlock, openBlock, insert, push, Lexer.advance, hstep,
      pure, Except.pure]

/-- **A key** and its colon; a block begins if the key stands further to the right. -/
theorem Scans.of_key {k : Text} (hk : IsName k)
    (h : At l (k ++ CodePoint.ofChar ':' :: rest) column ts (b :: bs) true)
    (hrest : Style.endsHere rest = true) (hb : b ≤ column)
    (hscans : ∀ l', At l' rest (column + k.length + 1)
        (.colon :: .scalar true k :: .key :: if b < column then .mappingStart :: ts else ts)
        (column :: if b < column then b :: bs else bs) false → Scans l' out) :
    Scans l out := by
  refine Scans.of_next (next_key hk h hrest hb) ?_ (by simp)
    (Scans.of_next (next_colon _ _ _ _ _ hk.2.1 hb k hrest) ?_ (by simp) (hscans _ ?_))
  · rw [h.rest]
    have : 0 < k.length := List.length_pos_iff.mpr hk.1
    simp [Lexer.rest]
    omega
  · simp [Lexer.rest]
  · refine ⟨rfl, rfl, rfl, ?_, rfl, rfl, rfl, rfl⟩
    split <;> simp

end Lexer

end StepCheck.Yaml
