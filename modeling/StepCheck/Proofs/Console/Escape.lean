import StepCheck.Proofs.Console.Tags

/-!
# Escaped texts are no markup

A text that comes from elsewhere is escaped before it is printed, often within a style. Whatever it
holds, then, nothing of it counts as a tag: brackets, tags that are not closed, backslashes before
them, and a backslash at its end, which stands before the tag that closes the style. That tag may
turn into text, but no other tag does.

* `Markup.escapeFrom_tag` — what becomes of a tag;
* `Markup.exists_tags_escape` — an escaped text adds no tags to what follows it;
* `Markup.forall_mem_escape` — its code points are those of the text, and backslashes.
-/

namespace StepCheck

namespace Markup

variable {t after : Text}

/-! ### Escaping -/

/-- What belongs to a tag is copied. -/
theorem escapeFrom_append (s t : Text) : escapeFrom s.length (s ++ t) = s ++ escapeFrom 0 t := by
  induction s with
  | nil => rfl
  | cons c s ih =>
    rw [List.length_cons, List.cons_append, escapeFrom, ih, List.cons_append]

/-- Where there is no tag, a code point is copied. -/
theorem escapeFrom_cons_of_none {c : CodePoint} (h : tagMatcher (c :: t) = none) :
    escapeFrom 0 (c :: t) = c :: escapeFrom 0 t := by
  rw [escapeFrom, h]

/-- **A tag** gets one backslash more than there are already. -/
theorem escapeFrom_tag {n : Nat} {inside rest : Text} (h : IsTag inside) :
    escapeFrom 0 (List.replicate n backslash ++ (openBracket :: inside ++ closeBracket :: rest))
      = List.replicate (2 * n + 1) backslash ++ (openBracket :: inside ++ closeBracket ::
        escapeFrom 0 rest) := by
  have hmatch := tagMatcher_tag n h rest
  obtain ⟨c, tag, hlength, htag, htext⟩ := exists_cons_of_tag n inside rest
  rw [htext] at hmatch ⊢
  have hskip : n + inside.length + 2 - 1 = tag.length := by omega
  -- the backslashes before the bracket are doubled, and one more keeps the bracket from opening a
  -- tag
  have hbackslashes : List.replicate (2 * n + 1) backslash
      = List.replicate (n + 1) backslash ++ List.replicate n backslash := by
    rw [← List.replicate_add]
    congr 1
    omega
  rw [escapeFrom, hmatch]
  dsimp only
  rw [hskip, escapeFrom_append, ← List.cons_append, ← htag, hbackslashes]
  simp only [List.append_assoc, List.cons_append, List.nil_append]

/-- Backslashes before what is no tag are copied. -/
theorem escapeFrom_replicate (n : Nat) {rest : Text} (hrest : rest.head? ≠ some backslash)
    (h : tagInside? rest = none) :
    escapeFrom 0 (List.replicate n backslash ++ rest)
      = List.replicate n backslash ++ escapeFrom 0 rest := by
  induction n with
  | zero => rfl
  | succ n ih =>
    have hmatch : tagMatcher (List.replicate (n + 1) backslash ++ rest) = none := by
      rw [tagMatcher_replicate (n + 1) hrest, h]
      rfl
    rw [List.replicate_succ, List.cons_append] at hmatch ⊢
    rw [escapeFrom_cons_of_none hmatch, ih, List.cons_append]

/-! ### What follows an escaped text -/

/-- **A text that may follow** an escaped one: nothing, or a text that begins with a bracket. -/
def Opens (after : Text) : Prop := ∀ c ∈ after.head?, c = openBracket

/-- Backslashes do not close what a bracket has opened, nor does what opens behind them. -/
theorem not_closes_replicate (n : Nat) (h : Opens after) :
    ¬ Closes (List.replicate n backslash ++ after) := by
  induction n with
  | zero =>
    cases after with
    | nil => exact nofun
    | cons c after =>
      obtain rfl := h c rfl
      rw [List.replicate_zero, List.nil_append, closes_cons_of_not_isInside (by decide)]
      decide
  | succ n ih =>
    rw [List.replicate_succ, List.cons_append, closes_cons_of_isInside (by decide)]
    exact ih

/-- A tag opens. -/
theorem opens_tag (inside rest : Text) : Opens (openBracket :: inside ++ closeBracket :: rest) :=
  fun _ hc => (Option.some.inj hc).symm

/-- **Escaping closes no bracket** that is not closed already. -/
theorem closes_of_closes_escapeFrom (hafter : Opens after) {n : Nat}
    (h : Closes (escapeFrom 0 t ++ (List.replicate n backslash ++ after))) : Closes t := by
  induction t with
  | nil => exact absurd h (not_closes_replicate n hafter)
  | cons c t ih =>
    cases hm : tagMatcher (c :: t) with
    | none =>
      rw [escapeFrom_cons_of_none hm, List.cons_append] at h
      by_cases hc : isInside c = true
      · rw [closes_cons_of_isInside hc] at h ⊢
        exact ih h
      · rw [Bool.not_eq_true] at hc
        rw [closes_cons_of_not_isInside hc] at h ⊢
        exact h
    | some found =>
      -- the first bracket of a tag opens, whatever number of backslashes is before it
      obtain ⟨k, inside, rest, hinside, ht⟩ := exists_of_tagMatcher hm
      rw [ht, escapeFrom_tag hinside, List.append_assoc, List.append_assoc, List.cons_append] at h
      exact absurd h (not_closes_replicate _ (opens_tag inside _))

/-- **Where there is no tag**, there is none after escaping. -/
theorem tagInside?_escapeFrom (hafter : Opens after) {c : CodePoint} (n : Nat)
    (h : tagMatcher (c :: t) = none) (hc : c ≠ backslash) :
    tagInside? (c :: (escapeFrom 0 t ++ (List.replicate n backslash ++ after))) = none := by
  have hinside : tagInside? (c :: t) = none := by
    have hhead : (c :: t).head? ≠ some backslash := fun h => hc (Option.some.inj h)
    have hmatch := tagMatcher_replicate 0 hhead
    rw [List.replicate_zero, List.nil_append, h] at hmatch
    exact Option.map_eq_none_iff.mp hmatch.symm
  cases hsplit : escapeFrom 0 t ++ (List.replicate n backslash ++ after) with
  | nil => rfl
  | cons d u =>
    rw [tagInside?_eq_none_iff]
    rintro ⟨rfl, hd, hcloses⟩
    -- a backslash or a bracket does not begin the inside of a tag
    have hne : ∀ k s, Opens s → d :: u ≠ List.replicate k backslash ++ s := by
      rintro (_ | k) s hs heq
      · rw [List.replicate_zero, List.nil_append] at heq
        obtain rfl := hs d (heq ▸ rfl)
        exact absurd hd (by decide)
      · rw [(List.cons.inj heq).1] at hd
        exact absurd hd (by decide)
    cases t with
    | nil => exact hne n _ hafter hsplit.symm
    | cons e t =>
      cases hm : tagMatcher (e :: t) with
      | some found =>
        obtain ⟨k, inside, rest, hinside, ht⟩ := exists_of_tagMatcher hm
        rw [ht, escapeFrom_tag hinside, List.append_assoc, List.append_assoc, List.cons_append]
          at hsplit
        exact hne _ _ (opens_tag inside _) hsplit.symm
      | none =>
        rw [escapeFrom_cons_of_none hm, List.cons_append, List.cons.injEq] at hsplit
        obtain ⟨rfl, rfl⟩ := hsplit
        exact tagInside?_eq_none_iff.mp hinside
          ⟨rfl, hd, closes_of_closes_escapeFrom hafter hcloses⟩

/-- A code point that is no tag before escaping is none afterwards, unless it and all that follows
are backslashes. -/
theorem tagMatcher_escapeFrom (hafter : Opens after) {c : CodePoint} (n : Nat)
    (h : tagMatcher (c :: t) = none) :
    tagMatcher (c :: (escapeFrom 0 t ++ (List.replicate n backslash ++ after))) = none ∨
      ∃ k, c :: t = List.replicate k backslash := by
  obtain ⟨k, rest, ht, hrest⟩ := exists_replicate_append (c :: t)
  have hinside : tagInside? rest = none := by
    rw [ht, tagMatcher_replicate k hrest] at h
    exact Option.map_eq_none_iff.mp h
  cases rest with
  | nil => exact .inr ⟨k, by rw [ht, List.append_nil]⟩
  | cons d rest =>
    left
    have hd : d ≠ backslash := fun h => hrest (congrArg some h)
    have hmatch : tagMatcher (d :: rest) = none := by
      have hmatch := tagMatcher_replicate 0 hrest
      rw [hinside] at hmatch
      exact hmatch
    -- nothing is escaped up to and at the first character that is no backslash
    have hescaped : c :: escapeFrom 0 t = List.replicate k backslash ++ d :: escapeFrom 0 rest := by
      rw [← escapeFrom_cons_of_none h, ht, escapeFrom_replicate k hrest hinside,
        escapeFrom_cons_of_none hmatch]
    rw [← List.cons_append, hescaped, List.append_assoc, List.cons_append, tagMatcher_replicate k,
      tagInside?_escapeFrom hafter n hmatch hd]
    · rfl
    · exact fun h => hd (Option.some.inj h)

/-! ### Tags -/

/-- An escaped text adds no tags to what follows it, only backslashes. -/
theorem exists_tags_escapeFrom (hafter : Opens after) (n : Nat) (t : Text) :
    ∃ k, tags (escapeFrom 0 t ++ (List.replicate n backslash ++ after))
      = tags (List.replicate k backslash ++ after) := by
  -- on the length of the text, of which a tag takes up several places at once
  induction hlength : t.length using Nat.strongRecOn generalizing t with
  | ind length ih =>
    cases t with
    | nil => exact ⟨n, rfl⟩
    | cons c t =>
      cases hm : tagMatcher (c :: t) with
      | some found =>
        obtain ⟨k, inside, rest, hinside, ht⟩ := exists_of_tagMatcher hm
        have hrest : rest.length < length := by
          rw [← hlength, ht]
          simp only [List.length_append, List.length_cons]
          omega
        obtain ⟨m, hm⟩ := ih rest.length hrest rest rfl
        refine ⟨m, ?_⟩
        have htext : escapeFrom 0 (c :: t) ++ (List.replicate n backslash ++ after)
            = List.replicate (2 * k + 1) backslash ++ (openBracket :: inside ++ closeBracket ::
              (escapeFrom 0 rest ++ (List.replicate n backslash ++ after))) := by
          rw [ht, escapeFrom_tag hinside]
          simp only [List.append_assoc, List.cons_append]
        -- the number of backslashes is odd now, so that the tag is a text
        rw [htext, tags_tag _ hinside, if_pos (by omega)]
        exact hm
      | none =>
        rcases tagMatcher_escapeFrom hafter n hm with hnone | ⟨k, hk⟩
        · rw [List.length_cons] at hlength
          obtain ⟨m, hm'⟩ := ih t.length (by omega) t rfl
          refine ⟨m, ?_⟩
          rw [escapeFrom_cons_of_none hm, List.cons_append]
          exact (tagsFrom_cons_of_none hnone).trans hm'
        · refine ⟨k + n, ?_⟩
          have hempty : ([] : Text).head? ≠ some backslash := nofun
          have hescape := escapeFrom_replicate k hempty rfl
          rw [escapeFrom, List.append_nil] at hescape
          rw [hk, hescape, ← List.append_assoc, List.replicate_add]

/-- A backslash at the end of an escaped text may be doubled. -/
theorem exists_escape_append (t after : Text) :
    ∃ n, escape t ++ after = escapeFrom 0 t ++ (List.replicate n backslash ++ after) := by
  unfold escape
  dsimp only
  split
  · exact ⟨1, List.append_assoc _ _ _⟩
  · exact ⟨0, rfl⟩

/-- **An escaped text adds no tags** to what follows it, only backslashes. -/
theorem exists_tags_escape (hafter : Opens after) (t : Text) :
    ∃ k, tags (escape t ++ after) = tags (List.replicate k backslash ++ after) := by
  obtain ⟨n, hn⟩ := exists_escape_append t after
  rw [hn]
  exact exists_tags_escapeFrom hafter n t

/-- Escaping adds nothing but backslashes. -/
theorem forall_mem_escape {P : CodePoint → Prop} (hbackslash : P backslash) (h : ∀ c ∈ t, P c) :
    ∀ c ∈ escape t, P c := by
  have hreplicate : ∀ n, ∀ c ∈ List.replicate n backslash, P c := fun n c hc =>
    (List.eq_of_mem_replicate hc).symm ▸ hbackslash
  have hfrom : ∀ {t : Text}, (∀ c ∈ t, P c) → ∀ skip, ∀ c ∈ escapeFrom skip t, P c := by
    intro t ht
    -- on the text, whatever number of characters belongs to a tag that has been written already
    induction t with
    | nil => exact fun skip => by cases skip <;> exact List.forall_mem_nil P
    | cons d t ih =>
      obtain ⟨hd, ht⟩ := List.forall_mem_cons.mp ht
      intro skip
      cases skip with
      | succ skip => exact List.forall_mem_cons.mpr ⟨hd, ih ht skip⟩
      | zero =>
        cases hm : tagMatcher (d :: t) with
        | none =>
          rw [escapeFrom_cons_of_none hm]
          exact List.forall_mem_cons.mpr ⟨hd, ih ht 0⟩
        | some found =>
          rw [escapeFrom, hm]
          exact List.forall_mem_append.mpr
            ⟨hreplicate _, List.forall_mem_cons.mpr ⟨hd, ih ht _⟩⟩
  unfold escape
  dsimp only
  split
  · exact List.forall_mem_append.mpr ⟨hfrom h 0, List.forall_mem_singleton.mpr hbackslash⟩
  · exact hfrom h 0

end Markup

end StepCheck
