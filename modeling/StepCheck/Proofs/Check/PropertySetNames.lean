import StepCheck.Policy.Bundled
import StepCheck.Proofs.Check.PropertySetSearch

/-!
# By which name a property set is judged

The record of a property set quotes its identifier, its name and perhaps a description. The search
does not count what is quoted: it takes the last text that begins as standard names do. So the name
of the record is judged unless the description begins in the same way; then the description is
judged in its place.

* `PropertySets.Nameless` — where no name begins before the next closing parenthesis;
* `PropertySets.Foreign.atFront?_eq_none` — where no property set opens;
* `SetRecord`, `SetRecord.text` — records as they are written;
* `SetRecord.judged` — the name or the description, whichever is taken;
* `SetRecord.Lists` — a content that is made of records;
* `SetRecord.judged_of_lists` — what is said about such a content, and when it is about the names.
-/

namespace StepCheck

open Text
open CheckGroup (outcomesAbout)

/-- **A text is plain** if there are no quotes and no parentheses in it. -/
def Text.Plain (t : Text) : Prop := ∀ b ∈ t, b ≠ '\'' ∧ b ≠ '(' ∧ b ≠ ')'

instance (t : Text) : Decidable t.Plain :=
  inferInstanceAs (Decidable (∀ b ∈ t, b ≠ '\'' ∧ b ≠ '(' ∧ b ≠ ')'))

theorem Text.Plain.quote_notMem {t : Text} (h : t.Plain) : CodePoint.ofChar '\'' ∉ t :=
  fun hmem => (h _ hmem).1 rfl

theorem Text.Plain.opening_notMem {t : Text} (h : t.Plain) : CodePoint.ofChar '(' ∉ t :=
  fun hmem => (h _ hmem).2.1 rfl

theorem Text.Plain.closing_notMem {t : Text} (h : t.Plain) : CodePoint.ofChar ')' ∉ t :=
  fun hmem => (h _ hmem).2.2 rfl

/-- **A text begins as another one** does, whatever the case of the letters. -/
def Text.BeginsAs (t start : Text) : Prop :=
  ∃ front rest : Text, t = front ++ rest ∧ front.fold = start.fold

namespace Text

variable {start s t : Text}

/-- A text begins as another one if that is recognised at its front, whatever the case of the
letters. -/
theorem beginsAs_iff : t.BeginsAs start ↔ (afterFolded? start t).isSome := by
  rw [Option.isSome_iff_exists]
  simp only [afterFolded?_eq_some_iff]
  exact exists_comm

instance (t start : Text) : Decidable (t.BeginsAs start) :=
  decidable_of_iff _ beginsAs_iff.symm

/-- What follows cannot make a text begin so, if its first character is alike to none. -/
theorem BeginsAs.of_append {x : CodePoint} (h : (s ++ x :: t).BeginsAs start)
    (hx : x.fold ∉ start.fold) : s.BeginsAs start := by
  obtain ⟨front, rest, heq, hfront⟩ := h
  rcases List.append_eq_append_iff.mp heq with ⟨part, rfl, hpart⟩ | ⟨part, rfl, -⟩
  · cases part with
    | nil => exact ⟨s, [], (List.append_nil s).symm, by rwa [List.append_nil] at hfront⟩
    | cons y part =>
      -- otherwise the character is one of the beginning
      obtain ⟨rfl, -⟩ := List.cons.inj hpart
      have hmem : x.fold ∈ (s ++ x :: part).fold :=
        List.mem_map_of_mem (List.mem_append_right s List.mem_cons_self)
      exact absurd (hfront ▸ hmem) hx
  · exact ⟨front, part, rfl, hfront⟩

end Text

namespace PropertySets

variable {rules : PropertySetRules} {start s t : Text} {k : Nat}

/-! ### Where no name begins -/

/-- **No name begins** in a text before the first closing parenthesis. -/
def Nameless (start t : Text) : Prop := ∀ k, ¬ BeginsName start t k

/-- Nothing counts behind a closing parenthesis. -/
theorem nameless_closing (start t : Text) : Nameless start (CodePoint.ofChar ')' :: t) := by
  intro k hk
  rcases beginsName_cons_iff.mp hk with ⟨hquote, -⟩ | ⟨hother, -⟩
  · exact absurd hquote (by decide)
  · exact hother rfl

/-- Names begin at quotes only. -/
theorem Nameless.append (h : Nameless start t) (hs : CodePoint.ofChar '\'' ∉ s) :
    Nameless start (s ++ t) := by
  induction s with
  | nil => exact h
  | cons b s ih =>
    rw [List.mem_cons, not_or] at hs
    intro k hk
    rcases beginsName_cons_iff.mp hk with ⟨hquote, -⟩ | ⟨-, j, hj, -⟩
    · exact hs.1 hquote.symm
    · exact ih hs.2 j hj

/-- No name begins at a quote if nothing that begins so stands behind it. -/
theorem Nameless.quote (h : Nameless start t) (ht : ¬ t.BeginsAs start) :
    Nameless start (CodePoint.ofChar '\'' :: t) := by
  intro k hk
  rcases beginsName_cons_iff.mp hk with ⟨-, hfolded, -⟩ | ⟨-, j, hj, -⟩
  · exact ht (beginsAs_iff.mpr hfolded)
  · exact h j hj

/-- **The last name** begins in the first part if none begins in the second. -/
theorem BeginsName.le_length (h : BeginsName start (s ++ t) k) (ht : Nameless start t) :
    k ≤ s.length := by
  induction s generalizing k with
  | nil => exact absurd h (ht k)
  | cons b s ih =>
    rcases beginsName_cons_iff.mp h with ⟨-, -, rfl⟩ | ⟨-, j, hj, rfl⟩
    · exact Nat.le_add_left 1 _
    · exact Nat.succ_le_succ (ih hj)

/-! ### Where no property set opens -/

/-- Nothing is recognised where no property set opens. -/
private theorem atFront?_eq_none_of_not_opensAt (h : ∀ inside, ¬ OpensAt rules t 0 inside) :
    atFront? rules t = none := by
  have hcandidate : ¬ Candidate rules t 0 := by
    rintro ⟨inside, k, hopens, -⟩
    exact h inside hopens
  exact atFront?_eq_none_iff.mpr hcandidate

/-- **A character is foreign** to what opens a property set: it is no white space, no parenthesis,
and alike to no letter of the entity type. -/
def Foreign (rules : PropertySetRules) (x : CodePoint) : Prop :=
  x.isBlank = false ∧ x ≠ '(' ∧ x.fold ∉ rules.container.fold

instance (rules : PropertySetRules) (x : CodePoint) : Decidable (Foreign rules x) :=
  inferInstanceAs (Decidable (_ ∧ _))

/-- **No property set opens** in front of a character that is foreign to it, unless a parenthesis
comes first. -/
theorem Foreign.atFront?_eq_none {x : CodePoint} (h : Foreign rules x) (hx : x ∈ s)
    (hs : CodePoint.ofChar '(' ∉ s) (t : Text) : atFront? rules (s ++ t) = none := by
  obtain ⟨hblank, hopening, hentity⟩ := h
  apply atFront?_eq_none_of_not_opensAt
  rintro inside ⟨entity, ws, hstarts, hfold, hws, -⟩
  -- what opens a property set ends in a parenthesis, and the part has none: so the part would lie
  -- within it, the character included
  rcases List.prefix_or_prefix_of_prefix hstarts (List.prefix_append s t) with hin | hover
  · -- the parenthesis is in the part
    exact absurd (hin.subset (List.mem_append_right _ List.mem_cons_self)) hs
  · -- the character is in what opens the property set
    have hmem := hover.subset hx
    rw [List.mem_append, List.mem_append] at hmem
    rcases hmem with (hmem | hmem) | hmem
    · exact absurd (hfold ▸ List.mem_map_of_mem hmem) hentity
    · rw [hws x hmem] at hblank
      cases hblank
    · exact hopening (List.mem_singleton.mp hmem)

/-- No record opens where there are no parentheses at all. -/
theorem atFront?_eq_none_of_notMem (ht : CodePoint.ofChar '(' ∉ t) : atFront? rules t = none := by
  apply atFront?_eq_none_of_not_opensAt
  rintro inside ⟨entity, ws, hstarts, -⟩
  exact ht (hstarts.subset (List.mem_append_right _ List.mem_cons_self))

/-- No record opens at a parenthesis, if its entity type has a name. -/
theorem atFront?_cons_opening (hne : rules.container ≠ [])
    (hentity : (CodePoint.ofChar '(').fold ∉ rules.container.fold) (t : Text) :
    atFront? rules (CodePoint.ofChar '(' :: t) = none := by
  apply atFront?_eq_none_of_not_opensAt
  rintro inside ⟨entity, ws, hstarts, hfold, -⟩
  cases entity with
  | nil => exact hne (List.map_eq_nil_iff.mp hfold.symm)
  | cons b entity =>
    obtain ⟨rfl, -⟩ := List.cons_prefix_cons.mp hstarts
    exact hentity (hfold ▸ List.mem_cons_self)

/-- **The front of a property set** up to the end of its name: the entity type and a parenthesis,
what stands before the quote, and the name. -/
def front (rules : PropertySetRules) (before name : Text) : Text :=
  rules.container ++ CodePoint.ofChar '(' :: (before ++ CodePoint.ofChar '\'' :: name)

/-- **A property set** is recognised by its front, if no other name begins behind the name. -/
theorem atFront?_front_append (rules : PropertySetRules) {before name behind : Text}
    (hbefore : CodePoint.ofChar ')' ∉ before)
    (hname : name.BeginsAs rules.start) (hquote : CodePoint.ofChar '\'' ∉ name)
    (hbehind : Nameless rules.start (name ++ CodePoint.ofChar '\'' :: behind)) :
    atFront? rules (front rules before name ++ CodePoint.ofChar '\'' :: behind)
      = some (name, (front rules before name).length) := by
  have hlength : (front rules before name).length
      = rules.container.length + 1 + (before.length + 1) + name.length := by
    simp only [front, List.length_append, List.length_cons]
    omega
  have hparts : front rules before name ++ CodePoint.ofChar '\'' :: behind
      = rules.container ++ ([] ++ CodePoint.ofChar '(' ::
        (before ++ CodePoint.ofChar '\'' :: (name ++ CodePoint.ofChar '\'' :: behind))) := by
    simp only [front, List.append_assoc, List.cons_append, List.nil_append]
  generalize hwhole : front rules before name ++ CodePoint.ofChar '\'' :: behind = c at hparts
  -- what stands behind the parenthesis
  have hinside : c.drop (0 + rules.container.length + 0 + 1) = before ++ CodePoint.ofChar '\'' ::
      (name ++ CodePoint.ofChar '\'' :: behind) := @drop_inside _ _ _ [] _ hparts
  rw [hlength]
  suffices hstands : StandsAt rules c 0 name
      (0 + (rules.container.length + 1 + (before.length + 1) + name.length)) from
    atFront?_eq_some_iff.mpr hstands
  obtain ⟨first, rest, rfl, hfirst⟩ := hname
  refine ⟨0 + rules.container.length + 0 + 1, before.length + 1,
    ⟨rules.container, [], ?_, rfl, nofun, rfl⟩, ?_, ?_, ?_, by omega⟩
  · rw [hparts, List.append_nil]
    refine (List.prefix_append_right_inj _).mpr ?_
    exact List.cons_prefix_cons.mpr ⟨rfl, List.nil_prefix⟩
  · rw [hinside]
    refine ⟨before, first, ?_, hbefore, hfirst, rfl⟩
    rw [List.append_assoc, List.append_assoc first]
    refine (List.prefix_append_right_inj _).mpr ?_
    exact List.cons_prefix_cons.mpr ⟨rfl, List.prefix_append _ _⟩
  · intro k hk
    rw [hinside, List.append_cons] at hk
    have hle := hk.le_length hbehind
    rwa [List.length_append, List.length_singleton] at hle
  · rw [← List.drop_drop, hinside, List.drop_length_add_append, List.drop_succ_cons, List.drop_zero]
    refine ⟨first, rest, CodePoint.ofChar '\'' :: behind, rfl, hfirst, ?_, rfl, .inr ⟨behind, rfl⟩⟩
    intro hmem
    exact hquote (List.mem_append_right _ hmem)

end PropertySets

/-! ### Records -/

/-- **The record of a property set.** Its parts hold no quotes and no parentheses, and its name
begins as standard names do. -/
structure SetRecord where
  number : Text
  globalId : Text
  /-- The number of the owner history. -/
  owner : Option Text
  name : Text
  description : Option Text
  /-- The properties that it holds. -/
  properties : Text
  plain_number : number.Plain
  plain_globalId : globalId.Plain
  plain_owner : ∀ m, owner = some m → m.Plain
  plain_name : name.Plain
  plain_description : ∀ d, description = some d → d.Plain
  plain_properties : properties.Plain
  beginsAs : name.BeginsAs "Pset_"

namespace SetRecord

/-- How the owner history is referred to. -/
def ownerText (r : SetRecord) : Text :=
  match r.owner with
  | some m => "#" ++ m
  | none => "$"

/-- The description as an argument. -/
def descriptionText (r : SetRecord) : Text :=
  match r.description with
  | some d => "'" ++ d ++ "'"
  | none => "$"

/-- **A record as it is written.** -/
def text (r : SetRecord) : Text :=
  "#" ++ r.number ++ "=IFCPROPERTYSET('" ++ r.globalId ++ "'," ++ r.ownerText ++ ",'" ++ r.name
    ++ "'," ++ r.descriptionText ++ ",(" ++ r.properties ++ "));"

/-- **What is taken for the name** of a record: a description that begins as standard names do, and
otherwise the name. -/
def judged (r : SetRecord) : Text :=
  match r.description with
  | some d => if d.BeginsAs "Pset_" then d else r.name
  | none => r.name

/-- **A content that is made of records**, one after the other, with anything but opening
parentheses in front of each and behind the last. -/
inductive Lists : Text → List SetRecord → Prop
  | nil {gap : Text} (free : CodePoint.ofChar '(' ∉ gap) : Lists gap []
  | cons {gap c : Text} {records : List SetRecord} (free : CodePoint.ofChar '(' ∉ gap)
      (r : SetRecord) (others : Lists c records) : Lists (gap ++ r.text ++ c) (r :: records)

/-! ### How a record is read -/

/-- What stands behind the quote that closes what is judged: other arguments, the properties, and
the rest of the content. -/
private def behind (r : SetRecord) (others c : Text) : Text :=
  others ++ CodePoint.ofChar ',' :: CodePoint.ofChar '(' ::
    (r.properties ++ "))" ++ CodePoint.ofChar ';' :: c)

/-- **A record is read as** the front of a property set that is called by what is judged, with
arguments before it and behind it. -/
private structure ReadAs (r : SetRecord) (before others : Text) : Prop where
  text_append : ∀ c, r.text ++ c = "#" ++ r.number ++ "="
    ++ (PropertySets.front Policy.bundled.propertySets before r.judged
      ++ CodePoint.ofChar '\'' :: r.behind others c)
  closing_notMem : CodePoint.ofChar ')' ∉ before
  plain_judged : r.judged.Plain
  beginsAs_judged : r.judged.BeginsAs "Pset_"
  opening_notMem : CodePoint.ofChar '(' ∉ others
  nameless : ∀ c, PropertySets.Nameless "Pset_"
    (r.judged ++ CodePoint.ofChar '\'' :: r.behind others c)

/-- No name begins behind an argument that is quoted, if none begins farther behind. -/
private theorem nameless_quoted {s t : Text} (hs : s.Plain)
    (h : PropertySets.Nameless "Pset_" (CodePoint.ofChar ',' :: t)) :
    PropertySets.Nameless "Pset_"
      (s ++ CodePoint.ofChar '\'' :: CodePoint.ofChar ',' :: t) := by
  have hcomma : ¬ Text.BeginsAs (CodePoint.ofChar ',' :: t) "Pset_" := by
    rintro ⟨front, rest, heq, hfront⟩
    cases front with
    | nil => cases hfront
    | cons b front =>
      obtain ⟨rfl, -⟩ := List.cons.inj heq
      exact absurd (List.cons.inj hfront).1 (by decide)
  exact (h.quote hcomma).append hs.quote_notMem

/-- No name begins among the properties. -/
private theorem nameless_behind (r : SetRecord) (c : Text) :
    PropertySets.Nameless "Pset_" (r.behind [] c) := by
  have hopening : CodePoint.ofChar '\'' ∉ [CodePoint.ofChar ',', CodePoint.ofChar '('] := by decide
  have hclosing := PropertySets.nameless_closing "Pset_" (");" ++ c)
  have hproperties := (hclosing.append r.plain_properties.quote_notMem).append hopening
  unfold behind
  rw [List.append_assoc]
  exact hproperties

/-- The owner is written without quotes and parentheses. -/
private theorem plain_ownerText (r : SetRecord) : r.ownerText.Plain := by
  unfold ownerText
  cases howner : r.owner with
  | none => exact (by decide : Text.Plain "$")
  | some m => exact List.forall_mem_cons.mpr ⟨by decide, r.plain_owner m howner⟩

/-- A record is read by its name, if no name begins in the description and behind it. -/
private theorem readAs_name (r : SetRecord) (hjudged : r.judged = r.name)
    (hopening : CodePoint.ofChar '(' ∉ r.descriptionText)
    (hnameless : ∀ c, PropertySets.Nameless "Pset_" (r.behind ("," ++ r.descriptionText) c)) :
    r.ReadAs ("'" ++ r.globalId ++ "'," ++ r.ownerText ++ ",") ("," ++ r.descriptionText) where
  text_append c := by
    rw [text, hjudged]
    simp only [behind, PropertySets.front, List.append_assoc, List.cons_append]
    rfl
  closing_notMem := by
    simp only [List.mem_append, not_or]
    exact ⟨⟨⟨⟨by decide, r.plain_globalId.closing_notMem⟩, by decide⟩,
      r.plain_ownerText.closing_notMem⟩, by decide⟩
  plain_judged := hjudged ▸ r.plain_name
  beginsAs_judged := hjudged ▸ r.beginsAs
  opening_notMem := by
    rw [List.mem_append, not_or]
    exact ⟨by decide, hopening⟩
  -- behind the name nothing else begins as names do
  nameless c := by
    rw [hjudged]
    exact nameless_quoted r.plain_name (hnameless c)

/-- A record is read by its description, if that begins as standard names do. -/
private theorem readAs_description (r : SetRecord) {d : Text}
    (hdescription : r.description = some d) (hjudged : r.judged = d)
    (hbegins : d.BeginsAs "Pset_") :
    r.ReadAs ("'" ++ r.globalId ++ "'," ++ r.ownerText ++ ",'" ++ r.name ++ "',") [] where
  text_append c := by
    rw [text, hjudged, descriptionText, hdescription]
    simp only [behind, PropertySets.front, List.append_assoc, List.cons_append]
    rfl
  closing_notMem := by
    simp only [List.mem_append, not_or]
    exact ⟨⟨⟨⟨⟨⟨by decide, r.plain_globalId.closing_notMem⟩, by decide⟩,
      r.plain_ownerText.closing_notMem⟩, by decide⟩, r.plain_name.closing_notMem⟩, by decide⟩
  plain_judged := hjudged ▸ r.plain_description d hdescription
  beginsAs_judged := hjudged ▸ hbegins
  opening_notMem := List.not_mem_nil
  nameless c := by
    rw [hjudged]
    exact nameless_quoted (r.plain_description d hdescription) (r.nameless_behind c)

/-- **How every record is read.** -/
private theorem exists_readAs (r : SetRecord) : ∃ before others, r.ReadAs before others := by
  cases hdescription : r.description with
  -- without a description the name is what is judged
  | none =>
    have hjudged : r.judged = r.name := by
      rw [judged, hdescription]
    have htext : r.descriptionText = "$" := by
      rw [descriptionText, hdescription]
    refine ⟨_, _, r.readAs_name hjudged ?_ fun c => ?_⟩
    · rw [htext]
      decide
    · rw [htext]
      exact (r.nameless_behind c).append (s := ",$") (by decide)
  | some d =>
    have hplain := r.plain_description d hdescription
    have htext : r.descriptionText = "'" ++ d ++ "'" := by
      rw [descriptionText, hdescription]
    by_cases hbegins : d.BeginsAs "Pset_"
    · -- the description begins as names do, and is taken for one
      have hjudged : r.judged = d := by
        rw [judged, hdescription]
        exact if_pos hbegins
      exact ⟨_, _, r.readAs_description hdescription hjudged hbegins⟩
    · have hjudged : r.judged = r.name := by
        rw [judged, hdescription]
        exact if_neg hbegins
      refine ⟨_, _, r.readAs_name hjudged ?_ fun c => ?_⟩
      · rw [htext]
        simp only [List.mem_append, not_or]
        exact ⟨⟨by decide, hplain.opening_notMem⟩, by decide⟩
      · -- no name begins at either of the quotes around the description
        have hclosed := nameless_quoted hplain (r.nameless_behind c)
        have hopened := hclosed.quote fun h => hbegins (h.of_append (by decide))
        have hcomma := hopened.append (s := [CodePoint.ofChar ',']) (by decide)
        rw [htext]
        simp only [behind, List.append_assoc] at hcomma ⊢
        exact hcomma

/-! ### What is found in the records -/

/-- **The names that are found** in a text, wherever it stands in a content. -/
private def Finds (rules : PropertySetRules) (t : Text) (names : List Text) : Prop :=
  ∀ index, (occurrencesFrom (PropertySets.atFront? rules) index 0 t).map Prod.snd = names

section Finds

variable {rules : PropertySetRules} {t : Text} {names : List Text}

/-- Nothing is found in a text without an opening parenthesis. -/
private theorem finds_nil (ht : CodePoint.ofChar '(' ∉ t) : Finds rules t [] := by
  have hnone : ∀ k < t.length, PropertySets.atFront? rules (t.drop k ++ []) = none := by
    intro k _
    rw [List.append_nil]
    apply PropertySets.atFront?_eq_none_of_notMem
    exact fun hmem => ht (List.mem_of_mem_drop hmem)
  intro index
  have hpassed := occurrencesFrom_append_of_none hnone index
  rw [List.append_nil, occurrencesFrom_nil] at hpassed
  rw [hpassed]
  rfl

/-- A part is passed over that ends in a foreign character. -/
private theorem Finds.passed (h : Finds rules t names) {init : Text} {x : CodePoint}
    (hinit : CodePoint.ofChar '(' ∉ init) (hx : PropertySets.Foreign rules x) :
    Finds rules (init ++ x :: t) names := by
  have hnone : ∀ k < (init ++ [x]).length,
      PropertySets.atFront? rules ((init ++ [x]).drop k ++ t) = none := by
    intro k hk
    rw [List.length_append, List.length_singleton] at hk
    rw [List.drop_append_of_le_length (Nat.le_of_lt_succ hk)]
    -- the character is still there, wherever the search has come to
    apply hx.atFront?_eq_none
    · exact List.mem_append_right _ List.mem_cons_self
    · rw [List.mem_append, List.mem_singleton, not_or]
      exact ⟨fun hmem => hinit (List.mem_of_mem_drop hmem), hx.2.1.symm⟩
  intro index
  rw [List.append_cons, occurrencesFrom_append_of_none hnone]
  exact h _

/-- A parenthesis is passed over. -/
private theorem Finds.opening (h : Finds rules t names) (hne : rules.container ≠ [])
    (hentity : (CodePoint.ofChar '(').fold ∉ rules.container.fold) :
    Finds rules (CodePoint.ofChar '(' :: t) names := by
  intro index
  rw [occurrencesFrom_of_none (PropertySets.atFront?_cons_opening hne hentity t)]
  exact h _

/-- The name of a property set comes before those behind it. -/
private theorem Finds.front {before name behind : Text}
    (h : Finds rules (CodePoint.ofChar '\'' :: behind) names)
    (hset : PropertySets.atFront? rules (PropertySets.front rules before name
      ++ CodePoint.ofChar '\'' :: behind)
        = some (name, (PropertySets.front rules before name).length)) :
    Finds rules (PropertySets.front rules before name ++ CodePoint.ofChar '\'' :: behind)
      (name :: names) := by
  have hne : PropertySets.front rules before name ≠ [] :=
    List.append_ne_nil_of_right_ne_nil _ (List.cons_ne_nil _ _)
  intro index
  rw [occurrencesFrom_append_of_some hne hset, List.map_cons]
  exact congrArg _ (h _)

end Finds

/-- **One name is found in a record**, and that is what is judged. -/
private theorem finds_text {names : List Text} {gap c : Text} (hgap : CodePoint.ofChar '(' ∉ gap)
    (r : SetRecord) (h : Finds Policy.bundled.propertySets c names) :
    Finds Policy.bundled.propertySets (gap ++ r.text ++ c) (r.judged :: names) := by
  obtain ⟨before, others, hread⟩ := r.exists_readAs
  have hlead : CodePoint.ofChar '(' ∉ gap ++ "#" ++ r.number := by
    rw [List.mem_append, List.mem_append, not_or, not_or]
    exact ⟨⟨hgap, by decide⟩, r.plain_number.opening_notMem⟩
  have hothers : CodePoint.ofChar '(' ∉ CodePoint.ofChar '\'' :: others := by
    rw [List.mem_cons, not_or]
    exact ⟨by decide, hread.opening_notMem⟩
  have hproperties : CodePoint.ofChar '(' ∉ r.properties ++ "))" := by
    rw [List.mem_append, not_or]
    exact ⟨r.plain_properties.opening_notMem, by decide⟩
  have hmarks : ∀ x ∈ Text.ofString "=,;", PropertySets.Foreign Policy.bundled.propertySets x := by
    decide
  -- from the end of the record backwards: the properties, the arguments behind what is judged,
  -- the front of the property set, and the number of the record
  have hlist : Finds Policy.bundled.propertySets
      (r.properties ++ "))" ++ CodePoint.ofChar ';' :: c) names :=
    h.passed hproperties (hmarks _ (by decide))
  have hbehind : Finds Policy.bundled.propertySets
      (CodePoint.ofChar '\'' :: r.behind others c) names :=
    (hlist.opening (by decide) (by decide)).passed hothers (hmarks _ (by decide))
  have hfront := hbehind.front (PropertySets.atFront?_front_append _ hread.closing_notMem
    hread.beginsAs_judged hread.plain_judged.quote_notMem (hread.nameless c))
  have hrecord := hfront.passed hlead (hmarks (CodePoint.ofChar '=') (by decide))
  rw [List.append_assoc gap, hread.text_append]
  simp only [List.append_assoc] at hrecord ⊢
  exact hrecord

variable {c : Text} {records : List SetRecord}

/-- **What is found in the records** of a content is what is judged, one after the other. -/
private theorem Lists.finds (h : Lists c records) :
    Finds Policy.bundled.propertySets c (records.map judged) := by
  induction h with
  | nil free => exact finds_nil free
  | cons free r _ ih => exact finds_text free r ih

/-! ### What is said about the records -/

/-- An outcome judges one name only. -/
private theorem leftUnique_judges (rules : PropertySetRules) :
    Relator.LeftUnique (PropertySets.Judges rules) := by
  rintro name o name' (⟨-, hseverity, -, h⟩ | ⟨-, hseverity, -, h⟩)
    (⟨-, hseverity', -, h'⟩ | ⟨-, hseverity', -, h'⟩)
  · exact List.append_cancel_left (h.symm.trans h')
  · rw [hseverity] at hseverity'
    cases hseverity'
  · rw [hseverity] at hseverity'
    cases hseverity'
  · exact List.append_cancel_left (h.symm.trans h')

/-- **One outcome for each record**, in their order, judges what is taken for its name. -/
private theorem Lists.forall₂_judges (h : Lists c records) (hne : records ≠ []) :
    List.Forall₂ (PropertySets.Judges Policy.bundled.propertySets) (records.map judged)
      (outcomesAbout Policy.bundled (Layout.of c) [.standardPropertySets]) := by
  have hnames : (PropertySets.all Policy.bundled.propertySets c).map Prod.snd
      = records.map judged := h.finds 0
  have hsome : PropertySets.all Policy.bundled.propertySets c ≠ [] := by
    intro hnil
    rw [hnil, List.map_nil, eq_comm, List.map_eq_nil_iff] at hnames
    exact hne hnames
  have htold := (PropertySets.tells_all Policy.bundled c).told hsome
  rw [← hnames, List.forall₂_map_left_iff]
  exact htold.imp fun _ _ htells => htells.2

/-- The name is judged unless another text is taken for it. -/
private theorem judged_eq_name_iff {r : SetRecord} :
    r.judged = r.name ↔ ∀ d, r.description = some d → d.BeginsAs "Pset_" → d = r.name := by
  unfold judged
  cases r.description with
  | none => exact iff_of_true rfl nofun
  | some d =>
    dsimp only
    split
    · -- the description is judged, and that is the name just if they are equal
      next hbegins =>
      constructor
      · rintro rfl d' hd' -
        exact (Option.some.inj hd').symm
      · intro h
        exact h d rfl hbegins
    · next hbegins =>
      refine iff_of_true rfl ?_
      rintro d' hd' hbegins'
      exact absurd ((Option.some.inj hd') ▸ hbegins') hbegins

/-- **What is said about records.** Each of them has one outcome, in their order, and that judges
the description if it begins as standard names do, and otherwise the name. So all outcomes are about
the names just when no description begins so, apart from one that is the name itself. -/
theorem judged_of_lists {first : SetRecord} {others : List SetRecord}
    (h : Lists c (first :: others)) :
    List.Forall₂ (PropertySets.Judges Policy.bundled.propertySets) ((first :: others).map judged)
        (outcomesAbout Policy.bundled (Layout.of c) [.standardPropertySets]) ∧
      (List.Forall₂ (PropertySets.Judges Policy.bundled.propertySets) ((first :: others).map name)
          (outcomesAbout Policy.bundled (Layout.of c) [.standardPropertySets]) ↔
        ∀ r ∈ first :: others, ∀ d, r.description = some d → d.BeginsAs "Pset_" → d = r.name) := by
  have hjudges := h.forall₂_judges (List.cons_ne_nil _ _)
  refine ⟨hjudges, ?_⟩
  simp only [← judged_eq_name_iff]
  rw [← List.map_inj_left]
  constructor
  · intro hnames
    exact (leftUnique_judges _).forall₂ hjudges hnames
  · intro heq
    rwa [← heq]

/-- A record of a standard name with a description that begins as standard names do. -/
def descriptionSample : SetRecord where
  number := "1"
  globalId := "g"
  owner := none
  name := "Pset_WallCommon"
  description := some (Text.ofString "Pset_x")
  properties := "#2"
  plain_number := by decide
  plain_globalId := by decide
  plain_owner := nofun
  plain_name := by decide
  plain_description := by
    rintro d ⟨⟩
    decide
  plain_properties := by decide
  beginsAs := by decide

/-- The description of the record is judged, and not its name. -/
theorem judged_of_lists_descriptionSample :
    Lists descriptionSample.text [descriptionSample] ∧
      List.Forall₂ (PropertySets.Judges Policy.bundled.propertySets) [Text.ofString "Pset_x"]
        (outcomesAbout Policy.bundled (Layout.of descriptionSample.text)
          [.standardPropertySets]) := by
  have hlists : Lists ([] ++ descriptionSample.text ++ []) [descriptionSample] :=
    .cons List.not_mem_nil descriptionSample (.nil List.not_mem_nil)
  rw [List.nil_append, List.append_nil] at hlists
  exact ⟨hlists, (judged_of_lists hlists).1⟩

/-- Nothing is said about the name of the record. -/
theorem not_judges_name_descriptionSample :
    ¬ List.Forall₂ (PropertySets.Judges Policy.bundled.propertySets)
      [Text.ofString "Pset_WallCommon"]
      (outcomesAbout Policy.bundled
        (Layout.of "#1=IFCPROPERTYSET('g',$,'Pset_WallCommon','Pset_x',(#2));")
        [.standardPropertySets]) := by
  have hlists : Lists ([] ++ descriptionSample.text ++ []) [descriptionSample] :=
    .cons List.not_mem_nil descriptionSample (.nil List.not_mem_nil)
  rw [List.nil_append, List.append_nil] at hlists
  intro hname
  have hsame := (leftUnique_judges _).forall₂ (hlists.forall₂_judges (List.cons_ne_nil _ _)) hname
  exact absurd hsame (by decide)

end SetRecord

end StepCheck
