import StepCheck.Proofs.Check.Returns
import StepCheck.Proofs.Text.LetterCase

/-!
# Business rules and the case of letters

Names are looked for in two ways: most of them in the capitals of the content, those of property
sets in folded letters, and a name that has been found is then compared with the standard ones in
capitals. None of the three tells contents apart that differ in the case of letters only. So the
rules of the trade and of practice find the same in either content, in the same lines; what they say
about a property set quotes its name, and the quoted names may differ in case.

* `PropertySets.forall₂_all` — the property sets of the two contents;
* `Business.heads_check_sameLetters`, `Practice.check_sameLetters` — the two groups of checks;
* `CheckGroup.heads_sameLetters` — their outcomes, under every policy.
-/

namespace StepCheck

open Text

variable {s t : Text}

/-! ### Property sets -/

namespace PropertySets

/-- **The last name** is found at the same index. -/
theorem rel_lastName? (h : s.SameLetters t) (start : Text) {found found' : Option (Nat × Text)}
    (hfound : Option.Rel (fun p q => p.1 = q.1 ∧ p.2.SameLetters q.2) found found') (index : Nat) :
    Option.Rel (fun p q => p.1 = q.1 ∧ p.2.SameLetters q.2) (lastName? start found index s)
      (lastName? start found' index t) := by
  -- on both texts at once; what has been found so far is alike
  induction h generalizing found found' index with
  | nil => exact hfound
  | @cons b c s t hb hs ih =>
    have hclosing : b = ')' ↔ c = ')' := hb.eq_iff (by decide)
    have hquote : b = '\'' ↔ c = '\'' := hb.eq_iff (by decide)
    have hbehind : SameLetters s t := hs
    rw [lastName?, lastName?]
    simp only [hclosing, hquote, hbehind.isSome_afterFolded? start]
    split
    · exact hfound
    · split
      · have hhere : Option.Rel (fun p q : Nat × Text => p.1 = q.1 ∧ p.2.SameLetters q.2)
            (some (index + 1, s)) (some (index + 1, t)) := .some ⟨rfl, hbehind⟩
        exact ih hhere (index + 1)
      · exact ih hfound (index + 1)

/-- **The name** at the front of a text, up to the case of its letters. -/
theorem nameAt_sameLetters (h : s.SameLetters t) (start : Text) :
    SameLetters (nameAt start s) (nameAt start t) := by
  have hquote : ∀ b c : CodePoint, b.SameLetter c →
      decide (b ≠ CodePoint.ofChar '\'') = decide (c ≠ CodePoint.ofChar '\'') := by
    intro b c hb
    rw [decide_eq_decide]
    exact not_congr (hb.eq_iff (by decide))
  have htake : SameLetters (s.take start.length) (t.take start.length) :=
    List.forall₂_take _ h
  have hdrop : SameLetters (s.drop start.length) (t.drop start.length) :=
    List.forall₂_drop _ h
  exact List.rel_append htake (hdrop.span hquote).1

/-- **The front of a property set** is recognised whatever the case of its letters. -/
theorem ignoresCase_atFront? (rules : PropertySetRules) :
    Matcher.IgnoresCase (atFront? rules) := by
  intro s t h
  have hfolded := h.rel_afterFolded? rules.container
  rw [atFront?_eq, atFront?_eq]
  -- one part of the front after the other: the entity type, white space, the parenthesis, the name
  generalize afterFolded? rules.container s = behind, afterFolded? rules.container t = behind'
    at hfolded
  cases hfolded with
  | none => exact .none
  | @some after after' hafter =>
    obtain ⟨hblanks, hstrip⟩ := hafter.span fun b c hb => hb.isBlank_eq
    have hblanksLength : (blanks after).length = (blanks after').length := hblanks.length_eq
    change SameLetters (stripLeft after) (stripLeft after') at hstrip
    rw [Option.bind_some, Option.bind_some]
    generalize stripLeft after = opened, stripLeft after' = opened' at hstrip
    cases hstrip with
    | nil => exact .none
    | @cons b c inside inside' hb hinside =>
      have hopening : b = '(' ↔ c = '(' := hb.eq_iff (by decide)
      have hlast := rel_lastName? hinside rules.start .none 0
      dsimp only
      simp only [hopening]
      split
      · generalize lastName? rules.start none 0 inside = last,
          lastName? rules.start none 0 inside' = last' at hlast
        cases hlast with
        | none => exact .none
        | @some p q hname =>
          obtain ⟨hindex, hname⟩ := hname
          have hsame := nameAt_sameLetters hname rules.start
          refine .some ⟨hsame, ?_⟩
          dsimp only
          rw [hindex, hblanksLength, List.Forall₂.length_eq hsame]
      · exact .none

/-- **The property sets** stand at the same indices, and their names differ in case at most. -/
theorem forall₂_all (rules : PropertySetRules) (h : s.SameLetters t) :
    List.Forall₂ (fun p q => p.1 = q.1 ∧ p.2.SameLetters q.2) (all rules s) (all rules t) :=
  (ignoresCase_atFront? rules).forall₂_occurrences h

end PropertySets

/-! ### The rules of the trade -/

namespace Business

variable {rules : PropertySetRules}

/-- A finding about a property set has its line, and its name is standard in any letters. -/
theorem head_propertySetFinding_sameLetters (h : s.SameLetters t) (index : Nat) {name name' : Text}
    (hname : name.SameLetters name') :
    (propertySetFinding rules (Layout.of s) index name).head
      = (propertySetFinding rules (Layout.of t) index name').head := by
  unfold propertySetFinding PropertySetRules.isStandard
  rw [Layout.content_of, Layout.content_of, h.lineAt_eq, hname.upper_eq]
  dsimp only
  split
  · rfl
  · rfl

/-- **As many property sets** are told, one for one in the same lines. -/
theorem heads_propertySetFindings_sameLetters (h : s.SameLetters t) :
    (propertySetFindings rules (Layout.of s)).map Finding.head
      = (propertySetFindings rules (Layout.of t)).map Finding.head := by
  have hsets := PropertySets.forall₂_all rules h
  unfold propertySetFindings
  rw [Layout.content_of, Layout.content_of]
  generalize PropertySets.all rules s = sets, PropertySets.all rules t = sets' at hsets
  cases hsets with
  | nil => rfl
  | @cons set set' sets sets' hset hsets =>
    -- one finding for each property set, in the order of the text
    have hall : List.Forall₂ (fun p q : Nat × Text => p.1 = q.1 ∧ p.2.SameLetters q.2)
        (set :: sets) (set' :: sets') := .cons hset hsets
    change List.map Finding.head (List.map _ (set :: sets))
      = List.map Finding.head (List.map _ (set' :: sets'))
    rw [List.map_map, List.map_map, ← List.forall₂_eq_eq_eq, List.forall₂_map_left_iff,
      List.forall₂_map_right_iff]
    refine hall.imp ?_
    rintro ⟨index, name⟩ ⟨index', name'⟩ ⟨rfl, hname⟩
    exact head_propertySetFinding_sameLetters h index hname

/-- The other rules ask the content in capitals. -/
theorem heads_check_sameLetters (P : Policy) (h : s.SameLetters t) :
    (check P (Layout.of s)).map Finding.head = (check P (Layout.of t)).map Finding.head := by
  have hcapitals : (Layout.of s).capitals = (Layout.of t).capitals := h.upper_eq
  unfold check rootFinding containerFinding geometryFinding
  simp only [List.map_append, List.map_cons, List.map_nil, hcapitals,
    heads_propertySetFindings_sameLetters h]

end Business

/-! ### Recommended practice -/

/-- **What is said about recommended practice** is the very same. -/
theorem Practice.check_sameLetters (rules : PracticeRules) (h : s.SameLetters t) :
    check rules (Layout.of s) = check rules (Layout.of t) := by
  have hcapitals : (Layout.of s).capitals = (Layout.of t).capitals := h.upper_eq
  unfold check presence
  rw [hcapitals]

/-! ### Outcomes -/

/-- The heads of outcomes are those of the findings that they report. -/
theorem CheckGroup.heads_outcomes (P : Policy) (l : Layout) (group : CheckGroup) :
    (group.outcomes P l).map Outcome.head = (group.findings P l).map Finding.head := by
  rw [outcomes, List.map_map]
  rfl

/-- **The case of letters does not matter** to the rules of the trade and of practice, under any
policy: for contents that differ in the case of `A` to `Z` only, and so for all such ASCII contents,
the outcomes are as many, and have one for one the same severity, code, rule and line. -/
theorem CheckGroup.heads_sameLetters (P : Policy) {s t : Text} (h : s.SameLetters t) :
    (business.outcomes P (Layout.of s)).map Outcome.head
        = (business.outcomes P (Layout.of t)).map Outcome.head ∧
      (practice.outcomes P (Layout.of s)).map Outcome.head
        = (practice.outcomes P (Layout.of t)).map Outcome.head := by
  rw [heads_outcomes, heads_outcomes, heads_outcomes, heads_outcomes]
  refine ⟨Business.heads_check_sameLetters P h, ?_⟩
  change (Practice.check P.practice _).map _ = (Practice.check P.practice _).map _
  rw [Practice.check_sameLetters P.practice h]

/-- Two records of property sets, the first in mixed letters. -/
def mixedSample : Text :=
  "#1=IfcProject();\n#2=IfcPropertySet\n('g',$,'pset_wallCOMMON',$);\n#3=IFCPROPERTYSET('','Pset_x');"

/-- The same records in other letters. -/
def otherSample : Text :=
  "#1=IFCPROJECT();\n#2=IFCPROPERTYSET\n('G',$,'Pset_WallCommon',$);\n#3=ifcpropertyset('','PSET_X');"

/-- Both have one root and two property sets, of which one is standard, in lines 2 and 4. -/
theorem CheckGroup.heads_sameLetters_mixedSample :
    mixedSample.SameLetters otherSample ∧
      (business.outcomes Policy.bundled (Layout.of mixedSample)).map Outcome.head
        = (business.outcomes Policy.bundled (Layout.of otherSample)).map Outcome.head ∧
      (business.outcomes Policy.bundled (Layout.of otherSample)).map
          (fun o => (o.severity, o.line))
        = [(.passed, none), (.warning, none), (.passed, some 2), (.warning, some 4),
          (.warning, none)] := by
  have hsame : mixedSample.SameLetters otherSample := by decide +kernel
  refine ⟨hsame, (heads_sameLetters Policy.bundled hsame).1, ?_⟩
  decide +kernel

end StepCheck
