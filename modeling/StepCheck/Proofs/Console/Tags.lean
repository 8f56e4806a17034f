import Mathlib.Data.List.Basic
import StepCheck.Console.Markup

/-!
# Tags of marked-up texts

Whether a text can be shown depends on its tags alone, and on their order: every closing tag needs
an open one. What stands between tags, and where in the text they stand, does not matter. So the
tags of a text are gathered first, those that backslashes have made into text being left out, and
then the styles that are open behind them.

* `Markup.Closes` — the next bracket of a text is a closing one;
* `Markup.tags`, `Markup.afterTags?` — the tags of a text, and the styles that are open behind tags;
* `Markup.Showable`, `Markup.showable_iff` — a text can be shown exactly if its tags find what they
  close;
* `Markup.tags_append`, `Markup.tags_tag` — the tags of a text, step by step;
* `Markup.forall_mem_of_shown` — what is seen has code points of the text.
-/

namespace StepCheck

namespace Markup

variable {t : Text}

/-! ### Brackets -/

/-- Characters that may stand inside of tags. -/
def isInside (c : CodePoint) : Bool := c ≠ openBracket && c ≠ closeBracket

/-- **The next bracket** of a text is a closing one. -/
def Closes (t : Text) : Prop := (t.dropWhile isInside).head? = some closeBracket

theorem closes_cons_of_isInside {c : CodePoint} (hc : isInside c = true) (t : Text) :
    Closes (c :: t) ↔ Closes t := by
  unfold Closes
  rw [List.dropWhile_cons_of_pos hc]

theorem closes_cons_of_not_isInside {c : CodePoint} (hc : isInside c = false) (t : Text) :
    Closes (c :: t) ↔ c = closeBracket := by
  unfold Closes
  rw [List.dropWhile_cons_of_neg (by rw [hc]; exact Bool.false_ne_true), List.head?_cons,
    Option.some.injEq]

/-- **The inside of a tag** is what stands between two brackets. -/
theorem tagInside?_cons_cons {b c : CodePoint} {t : Text} {inside : Text} :
    tagInside? (b :: c :: t) = some inside ↔
      (b = openBracket ∧ startsTag c = true ∧ Closes t) ∧ c :: t.takeWhile isInside = inside := by
  have hdrop : t.drop (t.takeWhile isInside).length = t.dropWhile isInside := by
    have happend := List.takeWhile_append_dropWhile (p := isInside) (l := t)
    calc t.drop (t.takeWhile isInside).length
        = (t.takeWhile isInside ++ t.dropWhile isInside).drop (t.takeWhile isInside).length := by
          rw [happend]
      _ = t.dropWhile isInside := List.drop_left
  -- both conditions of the search are those of a tag that opens and is closed
  have htag : tagInside? (b :: c :: t) = if b = openBracket ∧ startsTag c = true then
      if (t.drop (t.takeWhile isInside).length).head? = some closeBracket then
        some (c :: t.takeWhile isInside) else none
      else none := rfl
  rw [htag, hdrop, ← and_assoc]
  unfold Closes
  split
  · next hopen =>
    split
    · next hclose => rw [Option.some.injEq, and_iff_right ⟨hopen, hclose⟩]
    · next hclose => exact iff_of_false nofun fun h => hclose h.1.2
  · next hopen => exact iff_of_false nofun fun h => hopen h.1.1

/-- There is no tag where the text does not open one and close it before the next bracket. -/
theorem tagInside?_eq_none_iff {b c : CodePoint} :
    tagInside? (b :: c :: t) = none ↔ ¬ (b = openBracket ∧ startsTag c = true ∧ Closes t) := by
  rw [← Option.not_isSome_iff_eq_none, Option.isSome_iff_exists, not_iff_not]
  simp only [tagInside?_cons_cons, exists_and_left, exists_eq', and_true]

/-- No tag begins at another character than a bracket. -/
theorem tagInside?_of_ne {c : CodePoint} (hc : c ≠ openBracket) (t : Text) :
    tagInside? (c :: t) = none := by
  cases t with
  | nil => rfl
  | cons d t => exact tagInside?_eq_none_iff.mpr fun h => hc h.1

/-- **What may stand inside** of a tag. -/
def IsTag (inside : Text) : Prop :=
  ∃ c more, inside = c :: more ∧ startsTag c = true ∧ ∀ d ∈ more, isInside d = true

/-- A tag is recognised, whatever follows. -/
theorem IsTag.tagInside? {inside : Text} (h : IsTag inside) (rest : Text) :
    tagInside? (openBracket :: inside ++ closeBracket :: rest) = some inside := by
  obtain ⟨c, more, rfl, hc, hmore⟩ := h
  have hclose : ¬ isInside closeBracket = true := by decide
  have htake : (more ++ closeBracket :: rest).takeWhile isInside = more := by
    rw [List.takeWhile_append_of_pos hmore, List.takeWhile_cons_of_neg hclose, List.append_nil]
  have hcloses : Closes (more ++ closeBracket :: rest) := by
    unfold Closes
    rw [List.dropWhile_append_of_pos hmore, List.dropWhile_cons_of_neg hclose]
    rfl
  exact tagInside?_cons_cons.mpr ⟨⟨rfl, hc, hcloses⟩, congrArg (c :: ·) htake⟩

/-- Backslashes and what follows them, which begins with none. -/
theorem tagMatcher_replicate (n : Nat) {rest : Text} (h : rest.head? ≠ some backslash) :
    tagMatcher (List.replicate n backslash ++ rest)
      = (tagInside? rest).map fun inside => (⟨n, inside⟩, n + inside.length + 2) := by
  -- as many backslashes are taken as there are, since the next character is none
  have hn : ((List.replicate n backslash ++ rest).takeWhile (· = backslash)).length = n := by
    rw [List.takeWhile_append_of_pos (fun c hc => by
      rw [List.eq_of_mem_replicate hc]
      exact decide_eq_true rfl)]
    cases rest with
    | nil => simp
    | cons c rest =>
      rw [List.takeWhile_cons_of_neg (by
        rw [decide_eq_true_eq]
        rintro rfl
        exact h rfl)]
      simp
  unfold tagMatcher
  dsimp only
  rw [hn, List.drop_left' (by simp)]
  cases tagInside? rest <;> rfl

/-- Every text begins with some number of backslashes. -/
theorem exists_replicate_append (t : Text) :
    ∃ n rest, t = List.replicate n backslash ++ rest ∧ rest.head? ≠ some backslash := by
  induction t with
  | nil => exact ⟨0, [], rfl, nofun⟩
  | cons c t ih =>
    by_cases hc : c = backslash
    · obtain ⟨n, rest, rfl, hrest⟩ := ih
      exact ⟨n + 1, rest, by rw [hc, List.replicate_succ, List.cons_append], hrest⟩
    · exact ⟨0, c :: t, rfl, fun h => hc (Option.some.inj h)⟩

/-- A tag as it is written. -/
theorem exists_of_tagMatcher {found : TagLike × Nat} (h : tagMatcher t = some found) :
    ∃ n inside rest, IsTag inside ∧
      t = List.replicate n backslash ++ (openBracket :: inside ++ closeBracket :: rest) := by
  obtain ⟨n, rest, rfl, hrest⟩ := exists_replicate_append t
  rw [tagMatcher_replicate n hrest] at h
  obtain ⟨inside, hinside, -⟩ := Option.map_eq_some_iff.mp h
  -- a tag has a bracket and at least one character
  rcases rest with _ | ⟨b, _ | ⟨c, u⟩⟩
  · cases hinside
  · cases hinside
  · obtain ⟨⟨rfl, hc, hcloses⟩, rfl⟩ := tagInside?_cons_cons.mp hinside
    obtain ⟨rest, hdrop⟩ := List.head?_eq_some_iff.mp hcloses
    have hu : openBracket :: c :: u
        = openBracket :: (c :: u.takeWhile isInside) ++ closeBracket :: rest := by
      rw [← hdrop, List.cons_append, List.cons_append, List.takeWhile_append_dropWhile]
    refine ⟨n, _, rest, ⟨c, _, rfl, hc, fun d hd => ?_⟩, by rw [← hu]⟩
    exact List.all_eq_true.mp List.all_takeWhile d hd

/-- A tag is found, whatever number of backslashes is before it. -/
theorem tagMatcher_tag (n : Nat) {inside : Text} (h : IsTag inside) (rest : Text) :
    tagMatcher (List.replicate n backslash ++ (openBracket :: inside ++ closeBracket :: rest))
      = some (⟨n, inside⟩, n + inside.length + 2) := by
  rw [tagMatcher_replicate, h.tagInside?]
  · rfl
  · exact fun hhead => absurd (Option.some.inj hhead) (by decide)

/-- A tag with the backslashes before it, of which the first code point is looked at first. -/
theorem exists_cons_of_tag (n : Nat) (inside rest : Text) :
    ∃ c tag, tag.length = n + inside.length + 1 ∧
      List.replicate n backslash ++ (openBracket :: inside ++ [closeBracket]) = c :: tag ∧
      List.replicate n backslash ++ (openBracket :: inside ++ closeBracket :: rest)
        = c :: (tag ++ rest) := by
  cases n with
  | zero => exact ⟨openBracket, inside ++ [closeBracket], by simp, by simp, by simp⟩
  | succ n =>
    refine ⟨backslash, List.replicate n backslash ++ (openBracket :: inside ++ [closeBracket]), ?_,
      by simp [List.replicate_succ], by simp [List.replicate_succ]⟩
    simp
    omega

/-- Nothing is matched at a character that is neither a backslash nor a bracket. -/
theorem tagMatcher_of_ne {c : CodePoint} (hc : c ≠ backslash) (hc' : c ≠ openBracket) (t : Text) :
    tagMatcher (c :: t) = none := by
  have hhead : (c :: t).head? ≠ some backslash := fun h => hc (Option.some.inj h)
  have hmatch := tagMatcher_replicate 0 hhead
  rw [tagInside?_of_ne hc'] at hmatch
  exact hmatch

/-! ### Pieces -/

/-- A match at the front is a text or a tag, with half of the backslashes before it. -/
theorem piecesFrom_of_match {position : Nat} {pending : Text} {c : CodePoint} {tag : TagLike}
    {length : Nat} (h : tagMatcher (c :: t) = some (tag, length)) :
    piecesFrom position 0 pending (c :: t)
      = Piece.before pending.reverse (Piece.before
          (List.replicate (tag.backslashes / 2) backslash)
          (if tag.backslashes % 2 = 1 then
            .text (openBracket :: tag.inside ++ [closeBracket]) ::
              piecesFrom (position + 1) (length - 1) [] t
          else .tag tag.inside (position + 2 * (List.replicate (tag.backslashes / 2)
              backslash).length) :: piecesFrom (position + 1) (length - 1) [] t)) := by
  rw [piecesFrom, h]

/-- Where nothing is matched, the character goes to the text that is pending. -/
theorem piecesFrom_of_none {position : Nat} {pending : Text} {c : CodePoint}
    (h : tagMatcher (c :: t) = none) :
    piecesFrom position 0 pending (c :: t) = piecesFrom (position + 1) 0 (c :: pending) t := by
  rw [piecesFrom, h]

/-! ### The tags of a text -/

/-- The insides of the tags of the rest of a text, where `skip` code points belong to a tag. Behind
an odd number of backslashes a tag is a text. -/
def tagsFrom : (skip : Nat) → Text → List Text
  | _, [] => []
  | skip + 1, _ :: t => tagsFrom skip t
  | 0, c :: t =>
    match tagMatcher (c :: t) with
    | none => tagsFrom 0 t
    | some (tag, length) =>
      if tag.backslashes % 2 = 1 then tagsFrom (length - 1) t
      else tag.inside :: tagsFrom (length - 1) t

/-- **The tags of a text**, as far as they count as such. -/
def tags (t : Text) : List Text := tagsFrom 0 t

/-- **The styles that are open behind a tag**, the latest first, where those of `styles` are open
before it. There are none if it closes what is not open. -/
def afterTag? (styles : List Text) (inside : Text) : Option (List Text) :=
  match tagName inside with
  | c :: name =>
    if c = '/' then
      match Text.strip name, styles with
      | [], [] => none
      | [], _ :: styles => some styles
      | name, styles => close? (styleName name) styles
    else some (styleName (c :: name) :: styles)
  | [] => some ([] :: styles)

/-- The styles that are open behind several tags. -/
def afterTags? (styles : List Text) (tags : List Text) : Option (List Text) :=
  tags.foldlM afterTag? styles

/-- What belongs to a tag is passed over. -/
theorem tagsFrom_append (s t : Text) : tagsFrom s.length (s ++ t) = tagsFrom 0 t := by
  induction s with
  | nil => rfl
  | cons c s ih => exact ih

theorem tagsFrom_cons_of_none {c : CodePoint} (h : tagMatcher (c :: t) = none) :
    tagsFrom 0 (c :: t) = tagsFrom 0 t := by
  rw [tagsFrom, h]

/-- **A tag at the front** of a text counts, unless the backslashes before it make it a text. -/
theorem tags_tag (n : Nat) {inside : Text} (h : IsTag inside) (rest : Text) :
    tags (List.replicate n backslash ++ (openBracket :: inside ++ closeBracket :: rest))
      = if n % 2 = 1 then tags rest else inside :: tags rest := by
  have hmatch := tagMatcher_tag n h rest
  obtain ⟨c, tag, hlength, -, htext⟩ := exists_cons_of_tag n inside rest
  rw [htext] at hmatch ⊢
  unfold tags
  have hskip : n + inside.length + 2 - 1 = tag.length := by omega
  rw [tagsFrom, hmatch]
  dsimp only
  rw [hskip, tagsFrom_append]

/-- A tag without backslashes before it. -/
theorem tags_cons {inside : Text} (h : IsTag inside) (rest : Text) :
    tags (openBracket :: inside ++ closeBracket :: rest) = inside :: tags rest :=
  tags_tag 0 h rest

/-- **Plain texts**, without brackets and backslashes: they are no tags and concern none. They can
also be written in any encoding form. -/
def IsPlain (t : Text) : Prop :=
  ∀ c ∈ t, (c ≠ backslash ∧ c ≠ openBracket) ∧ c.isSurrogate = false

instance (t : Text) : Decidable (IsPlain t) :=
  inferInstanceAs (Decidable (∀ c ∈ t, (c ≠ backslash ∧ c ≠ openBracket) ∧ c.isSurrogate = false))

theorem IsPlain.append {s : Text} (hs : IsPlain s) (ht : IsPlain t) : IsPlain (s ++ t) :=
  List.forall_mem_append.mpr ⟨hs, ht⟩

/-- Plain text before a text adds no tags to it. -/
theorem tags_append {s : Text} (hs : IsPlain s) (t : Text) : tags (s ++ t) = tags t := by
  induction s with
  | nil => rfl
  | cons c s ih =>
    obtain ⟨⟨⟨hc, hc'⟩, -⟩, hs⟩ := List.forall_mem_cons.mp hs
    exact (tagsFrom_cons_of_none (tagMatcher_of_ne hc hc' (s ++ t))).trans (ih hs)

/-- Where no bracket opens, there is no tag. -/
theorem tagsFrom_of_not_mem (ht : openBracket ∉ t) : ∀ skip, tagsFrom skip t = [] := by
  induction t with
  | nil => exact fun skip => rfl
  | cons c t ih =>
    intro skip
    cases skip with
    | succ skip => exact ih (fun h => ht (List.mem_cons_of_mem c h)) skip
    | zero =>
      -- what is matched holds a bracket
      have hmatch : tagMatcher (c :: t) = none := by
        rw [Option.eq_none_iff_forall_ne_some]
        intro found hfound
        obtain ⟨n, inside, rest, -, htext⟩ := exists_of_tagMatcher hfound
        rw [htext] at ht
        exact ht (List.mem_append_right _ List.mem_cons_self)
      rw [tagsFrom_cons_of_none hmatch]
      exact ih (fun h => ht (List.mem_cons_of_mem c h)) 0

/-! ### What is shown -/

/-- Text before other pieces is shown before them. -/
theorem shownPieces_before (tags : List Text) (t : Text) (ps : List Piece) :
    shownPieces tags (Piece.before t ps) = (shownPieces tags ps).map (unescaped t ++ ·) := by
  unfold Piece.before
  split
  · next h =>
    rw [List.isEmpty_iff.mp h]
    cases shownPieces tags ps <;> rfl
  · rfl

/-- **A tag can be passed** if it finds what it closes. -/
theorem exists_shownPieces_tag (styles : List Text) (inside : Text) (position : Nat)
    (ps : List Piece) :
    ∃ e, shownPieces styles (.tag inside position :: ps)
      = (afterTag? styles inside).elim (.error e) fun styles => shownPieces styles ps := by
  rw [shownPieces]
  unfold afterTag?
  cases tagName inside with
  | nil => exact ⟨.nothingOpen 0, rfl⟩
  | cons c name =>
    dsimp only
    -- a closing tag closes a style by its name or the last one; any other tag opens one
    by_cases hc : c = '/'
    · rw [if_pos hc, if_pos hc]
      rcases hname : Text.strip name with _ | ⟨d, name⟩
      · cases styles with
        | nil => exact ⟨_, rfl⟩
        | cons style styles => exact ⟨.nothingOpen 0, rfl⟩
      · dsimp only
        cases close? (styleName (d :: name)) styles with
        | none => exact ⟨_, rfl⟩
        | some styles' => exact ⟨.nothingOpen 0, rfl⟩
    · rw [if_neg hc, if_neg hc]
      exact ⟨.nothingOpen 0, rfl⟩

theorem exists_map_ok_iff {ε α β : Type} {f : α → β} {x : Except ε α} :
    (∃ b, x.map f = .ok b) ↔ ∃ a, x = .ok a := by
  cases x with
  | error e => exact iff_of_false nofun nofun
  | ok a => exact iff_of_true ⟨f a, rfl⟩ ⟨a, rfl⟩

/-- What is pending and where it stands does not matter. -/
theorem exists_shownPieces_iff (t : Text) : ∀ styles position skip pending,
    (∃ u, shownPieces styles (piecesFrom position skip pending t) = .ok u) ↔
      (afterTags? styles (tagsFrom skip t)).isSome := by
  induction t with
  | nil =>
    intro styles position skip pending
    rw [piecesFrom, shownPieces_before, exists_map_ok_iff]
    exact iff_of_true ⟨[], rfl⟩ rfl
  | cons c t ih =>
    intro styles position skip pending
    cases skip with
    | succ skip => exact ih styles (position + 1) skip pending
    | zero =>
      cases hm : tagMatcher (c :: t) with
      | none =>
        rw [piecesFrom_of_none hm, tagsFrom_cons_of_none hm]
        exact ih styles (position + 1) 0 (c :: pending)
      | some found =>
        -- something like a tag: with an odd number of backslashes before it, it is text
        obtain ⟨tag, length⟩ := found
        rw [piecesFrom_of_match hm, shownPieces_before, exists_map_ok_iff, shownPieces_before,
          exists_map_ok_iff, tagsFrom, hm]
        dsimp only
        split
        · rw [shownPieces, exists_map_ok_iff]
          exact ih styles (position + 1) (length - 1) []
        · obtain ⟨e, he⟩ := exists_shownPieces_tag styles tag.inside
            (position + 2 * (List.replicate (tag.backslashes / 2) backslash).length)
            (piecesFrom (position + 1) (length - 1) [] t)
          rw [he]
          unfold afterTags?
          rw [List.foldlM_cons]
          cases afterTag? styles tag.inside with
          | none => exact iff_of_false nofun nofun
          | some styles => exact ih styles (position + 1) (length - 1) []

/-- **A text that can be shown.** -/
def Showable (t : Text) : Prop := ∃ u, shown t = .ok u

/-- **A text can be shown** exactly if its tags find what they close. -/
theorem showable_iff {t : Text} : Showable t ↔ (afterTags? [] (tags t)).isSome := by
  unfold Showable shown
  by_cases h : t.contains openBracket = true
  · rw [if_pos h]
    exact exists_shownPieces_iff t [] 0 0 []
  · rw [if_neg h]
    rw [List.contains_iff_mem] at h
    refine iff_of_true ⟨t, rfl⟩ ?_
    unfold tags
    rw [tagsFrom_of_not_mem h]
    rfl

/-! ### What is seen comes from the text -/

section Seen

variable {P : CodePoint → Prop}

/-- Nothing is added where backslashes are taken away. -/
theorem forall_mem_unescaped (h : ∀ c ∈ t, P c) : ∀ c ∈ unescaped t, P c := by
  fun_induction unescaped t with
  | case1 => exact h
  | case2 c => exact h
  | case3 c d t hbracket ih =>
    exact List.forall_mem_cons.mpr ⟨h d (by simp), ih fun e he => h e (by simp [he])⟩
  | case4 c d t hbracket ih =>
    exact List.forall_mem_cons.mpr ⟨h c List.mem_cons_self, ih (List.forall_mem_cons.mp h).2⟩

/-- Only texts among the pieces are seen. -/
theorem forall_mem_of_shownPieces {styles : List Text} {ps : List Piece} {u : Text}
    (h : ∀ s, Piece.text s ∈ ps → ∀ c ∈ s, P c) (hu : shownPieces styles ps = .ok u) :
    ∀ c ∈ u, P c := by
  -- on the pieces; the styles that are open change at each tag
  induction ps generalizing styles u with
  | nil =>
    cases hu
    exact nofun
  | cons piece ps ih =>
    have hps : ∀ s, Piece.text s ∈ ps → ∀ c ∈ s, P c := fun s hs => h s (List.mem_cons_of_mem _ hs)
    cases piece with
    | text s =>
      rw [shownPieces] at hu
      cases hrest : shownPieces styles ps with
      | error e =>
        rw [hrest] at hu
        cases hu
      | ok rest =>
        rw [hrest] at hu
        cases hu
        exact List.forall_mem_append.mpr
          ⟨forall_mem_unescaped (h s List.mem_cons_self), ih hps hrest⟩
    | tag inside position =>
      obtain ⟨e, he⟩ := exists_shownPieces_tag styles inside position ps
      rw [he] at hu
      cases hstyles : afterTag? styles inside with
      | none =>
        rw [hstyles] at hu
        cases hu
      | some styles' =>
        rw [hstyles] at hu
        exact ih hps hu

/-- A text before some pieces is one more piece, if it is one at all. -/
theorem mem_of_text_mem_before {s p : Text} {ps : List Piece}
    (h : Piece.text s ∈ Piece.before p ps) : s = p ∨ Piece.text s ∈ ps := by
  unfold Piece.before at h
  split at h
  · exact .inr h
  · rcases List.mem_cons.mp h with heq | h
    · exact .inl (Piece.text.inj heq)
    · exact .inr h

/-- A piece has code points of the text, and of what is pending. -/
theorem forall_mem_of_text_mem_piecesFrom {s : Text} (ht : ∀ c ∈ t, P c) :
    ∀ {position skip pending}, (∀ c ∈ pending, P c) →
      Piece.text s ∈ piecesFrom position skip pending t → ∀ c ∈ s, P c := by
  have hreverse : ∀ {pending : Text}, (∀ c ∈ pending, P c) → ∀ c ∈ pending.reverse, P c :=
    fun hpending c hc => hpending c (List.mem_reverse.mp hc)
  induction t with
  | nil =>
    intro position skip pending hpending hs
    rcases mem_of_text_mem_before hs with rfl | hs
    · exact hreverse hpending
    · cases hs
  | cons c t ih =>
    obtain ⟨hc, ht'⟩ := List.forall_mem_cons.mp ht
    intro position skip pending hpending hs
    cases skip with
    | succ skip => exact ih ht' hpending hs
    | zero =>
      cases hm : tagMatcher (c :: t) with
      | none =>
        rw [piecesFrom_of_none hm] at hs
        exact ih ht' (List.forall_mem_cons.mpr ⟨hc, hpending⟩) hs
      | some found =>
        -- of a tag that is a text, brackets and backslashes are in the text as well
        obtain ⟨n, inside, rest, hinside, htext⟩ := exists_of_tagMatcher hm
        have hfound := tagMatcher_tag n hinside rest
        rw [← htext, hm, Option.some.injEq] at hfound
        rw [htext] at ht
        obtain ⟨hbackslashes, hrest⟩ := List.forall_mem_append.mp ht
        obtain ⟨hopen, hrest⟩ := List.forall_mem_cons.mp hrest
        obtain ⟨hinside, hrest⟩ := List.forall_mem_append.mp hrest
        obtain ⟨hclose, -⟩ := List.forall_mem_cons.mp hrest
        rw [piecesFrom_of_match (hfound ▸ hm)] at hs
        rcases mem_of_text_mem_before hs with rfl | hs
        · exact hreverse hpending
        rcases mem_of_text_mem_before hs with rfl | hs
        · intro d hd
          obtain ⟨hn, rfl⟩ := List.mem_replicate.mp hd
          exact hbackslashes _ (List.mem_replicate.mpr ⟨by dsimp only at hn; omega, rfl⟩)
        split at hs
        · rcases List.mem_cons.mp hs with heq | hs
          · rw [Piece.text.inj heq]
            exact List.forall_mem_cons.mpr
              ⟨hopen, List.forall_mem_append.mpr ⟨hinside, List.forall_mem_singleton.mpr hclose⟩⟩
          · exact ih ht' (List.forall_mem_nil P) hs
        · rcases List.mem_cons.mp hs with heq | hs
          · cases heq
          · exact ih ht' (List.forall_mem_nil P) hs

/-- **What is seen of a text** has code points of the text. -/
theorem forall_mem_of_shown {u : Text} (ht : ∀ c ∈ t, P c) (h : shown t = .ok u) :
    ∀ c ∈ u, P c := by
  unfold shown at h
  split at h
  · exact forall_mem_of_shownPieces (fun s hs =>
      forall_mem_of_text_mem_piecesFrom ht (List.forall_mem_nil P) hs) h
  · cases h
    exact ht

end Seen

end Markup

end StepCheck
