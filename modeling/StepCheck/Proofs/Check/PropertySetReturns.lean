import StepCheck.Check.PropertySets
import StepCheck.Proofs.Text.Letters
import StepCheck.Proofs.Text.Matches

/-!
# Property sets in a text with returns

A property set is recognised over several lines: white space stands between the name of its entity
type and the parenthesis, and its own name may hold line breaks. In the text with returns the same
property sets are recognised, with returns in their names.

* `PropertySets.lastName?_withReturns` — the search for the last name;
* `PropertySets.nameAt_withReturns` — a name up to the next quote;
* `PropertySets.respectsReturns_atFront?` — the property set at the front of a text.
-/

namespace StepCheck.PropertySets

open Text

variable {start inside : Text}

/-- The end of a part has gone behind the character that follows it, if that is passed over too. -/
theorem place_length_succ (s : Text) (c : CodePoint) (t : Text) :
    place (s ++ c :: t) (s.length + 1) = place (s ++ c :: t) s.length + (returned c).length := by
  rw [place_add, List.drop_left, place_cons_succ, place_zero, Nat.add_zero]

/-- What is neither a parenthesis nor a quote is passed over. -/
theorem lastName?_cons_of_ne {c : CodePoint} (hclosing : c ≠ ')') (hquote : c ≠ '\'')
    (found : Option (Nat × Text)) (index : Nat) (t : Text) :
    lastName? start found index (c :: t) = lastName? start found (index + 1) t := by
  rw [lastName?, if_neg hclosing, if_neg fun h => hquote h.1]

/-- **The last name** is looked for in the text with returns with the same answer, at the
corresponding place. The part `s` has been passed over. -/
theorem lastName?_withReturns (hstart : start.Unbroken) (found : Option (Nat × Text))
    (s t : Text) :
    lastName? start (found.map fun p => (place (s ++ t) p.1, withReturns p.2))
        (place (s ++ t) s.length) (withReturns t)
      = (lastName? start found s.length t).map fun p => (place (s ++ t) p.1, withReturns p.2) := by
  -- on the text that is left; what has been read keeps the places, and the last name so far goes
  -- along
  induction t generalizing s found with
  | nil => rfl
  | cons c t ih =>
    have hsplit : s ++ c :: t = s ++ [c] ++ t := by
      rw [List.append_assoc, List.singleton_append]
    have hnext := ih (s := s ++ [c])
    rw [← hsplit, List.length_append, List.length_singleton, place_length_succ] at hnext
    by_cases hc : c = CodePoint.lineFeed
    · -- a return and a line feed are passed over one after the other
      subst hc
      rw [withReturns_cons_lineFeed, lastName?_cons_of_ne (by decide) (by decide),
        lastName?_cons_of_ne (by decide) (by decide), lastName?_cons_of_ne (by decide) (by decide)]
      exact hnext found
    · rw [withReturns_cons hc, lastName?, lastName?]
      rw [returned, if_neg hc, List.length_singleton] at hnext
      by_cases hclosing : c = ')'
      · rw [if_pos hclosing, if_pos hclosing]
      · rw [if_neg hclosing, if_neg hclosing, afterFolded?_withReturns hstart, Option.isSome_map]
        split
        · rw [← hnext, Option.map_some, place_length_succ, returned, if_neg hc]
          rfl
        · exact hnext found

/-- What is found is the rest of the text from its index on, and a name begins there. -/
theorem drop_of_lastName? {found : Option (Nat × Text)} (s t : Text) {p : Nat × Text}
    (hfound : ∀ q, found = some q →
      (s ++ t).drop q.1 = q.2 ∧ (afterFolded? start q.2).isSome = true)
    (h : lastName? start found s.length t = some p) :
    (s ++ t).drop p.1 = p.2 ∧ (afterFolded? start p.2).isSome = true := by
  induction t generalizing s found with
  | nil => exact hfound p h
  | cons c t ih =>
    have hsplit : s ++ c :: t = s ++ [c] ++ t := by
      rw [List.append_assoc, List.singleton_append]
    have hlength : (s ++ [c]).length = s.length + 1 := by
      rw [List.length_append, List.length_singleton]
    rw [lastName?] at h
    split at h
    · exact hfound p h
    · split at h
      · next hquote =>
        -- a new answer, which begins right behind the quote
        rw [hsplit] at hfound ⊢
        refine ih (s ++ [c]) ?_ (by rwa [hlength])
        rintro q ⟨⟩
        refine ⟨?_, hquote.2⟩
        dsimp only
        rw [← hlength, List.drop_left]
      · rw [hsplit] at hfound ⊢
        exact ih (s ++ [c]) hfound (by rwa [hlength])

/-- **The name** that begins at the front of a text, up to the next quote. -/
def nameAt (start named : Text) : Text :=
  named.take start.length
    ++ (named.drop start.length).takeWhile (· ≠ CodePoint.ofChar '\'')

/-- A name is at the front of what it is taken from. -/
theorem nameAt_isPrefix (start named : Text) : nameAt start named <+: named := by
  have htake : named.take start.length
      ++ (named.drop start.length).takeWhile (· ≠ CodePoint.ofChar '\'') <+: named.take start.length
      ++ named.drop start.length :=
    (List.prefix_append_right_inj _).mpr (List.takeWhile_prefix _)
  rwa [List.take_append_drop] at htake

/-- **The name in a text with returns** is the name with returns. -/
theorem nameAt_withReturns (hstart : start.Unbroken) {named : Text}
    (h : (afterFolded? start named).isSome) :
    nameAt start (withReturns named) = withReturns (nameAt start named) := by
  obtain ⟨rest, hrest⟩ := Option.isSome_iff_exists.mp h
  obtain ⟨front, rfl, hlength, hfree⟩ := exists_of_afterFolded? hstart hrest
  have hreturned : withReturns (front ++ rest) = front ++ withReturns rest := by
    rw [withReturns_append, withReturns_eq_self hfree]
  unfold nameAt
  rw [hreturned, ← hlength, List.take_left, List.drop_left, List.take_left, List.drop_left,
    takeWhile_withReturns (by decide), withReturns_append, withReturns_eq_self hfree]

/-- What is recognised at the front of a text, in terms of what follows the parts. -/
theorem atFront?_eq (rules : PropertySetRules) (t : Text) :
    atFront? rules t = (afterFolded? rules.container t).bind fun afterEntity =>
      match stripLeft afterEntity with
      | [] => none
      | opening :: inside =>
        if opening = '(' then (lastName? rules.start none 0 inside).map fun p =>
          (nameAt rules.start p.2, rules.container.length + (blanks afterEntity).length + 1 + p.1
            + (nameAt rules.start p.2).length)
        else none := by
  unfold atFront?
  rw [Option.bind_eq_bind]
  refine Option.bind_congr fun afterEntity _ => ?_
  dsimp only
  cases stripLeft afterEntity with
  | nil => rfl
  | cons opening inside =>
    -- a closing parenthesis in the place of the opening one ends the search here
    dsimp only [guard]
    split
    · cases lastName? rules.start none 0 inside with
      | none => rfl
      | some p => rfl
    · rfl

variable {rules : PropertySetRules}

/-- A property set at the front of a text with returns. -/
private theorem atFront?_withReturns (hcontainer : rules.container.Unbroken)
    (hstart : rules.start.Unbroken) (t : Text) :
    atFront? rules (withReturns t)
      = (atFront? rules t).map fun p => (withReturns p.1, place t p.2) := by
  rw [atFront?_eq, atFront?_eq, afterFolded?_withReturns hcontainer]
  cases h : afterFolded? rules.container t with
  | none => rfl
  | some afterEntity =>
    -- the name of the entity type holds no line feed, white space behind it may
    obtain ⟨entity, rfl, hlength, hfree⟩ := exists_of_afterFolded? hcontainer h
    rw [Option.map_some, Option.bind_some, Option.bind_some]
    rcases stripLeft_cases afterEntity with ⟨hi, hi'⟩ | ⟨opening, inside, hopening, hi, hi'⟩
    · rw [hi, hi', Option.map_none]
    rw [hi, hi']
    dsimp only
    split
    · have hname := lastName?_withReturns hstart none [] inside
      rw [List.nil_append, Option.map_none, List.length_nil, place_zero] at hname
      rw [hname, Option.map_map, Option.map_map]
      cases hfound : lastName? rules.start none 0 inside with
      | none => rfl
      | some p =>
        have hnone : ∀ q : Nat × Text, none = some q → ([] ++ inside).drop q.1 = q.2 ∧
            (afterFolded? rules.start q.2).isSome = true := fun _ => nofun
        obtain ⟨hdrop, hfolded⟩ := drop_of_lastName? [] inside hnone hfound
        rw [List.nil_append] at hdrop
        -- the name begins where the last quote was found
        have hplace : place inside (p.1 + (nameAt rules.start p.2).length)
            = place inside p.1 + (withReturns (nameAt rules.start p.2)).length := by
          rw [place_add, hdrop, place_of_prefix (nameAt_isPrefix _ _)]
        -- the parts of the front, one behind the other
        have hparts : entity ++ afterEntity
            = entity ++ (blanks afterEntity ++ opening :: inside) := by
          rw [← hi, blanks_append_stripLeft]
        have hfront : place (entity ++ afterEntity) (rules.container.length
            + (blanks afterEntity).length + 1 + p.1 + (nameAt rules.start p.2).length)
            = rules.container.length + (blanks (withReturns afterEntity)).length + 1
              + place inside p.1 + (withReturns (nameAt rules.start p.2)).length := by
          have hindex : rules.container.length + (blanks afterEntity).length + 1 + p.1
              + (nameAt rules.start p.2).length = entity.length + ((blanks afterEntity).length
                + (p.1 + (nameAt rules.start p.2).length + 1)) := by
            omega
          rw [hindex, hparts, place_append, place_append, place_succ hopening, hplace,
            withReturns_eq_self hfree, blanks_withReturns, hlength]
          omega
        simp only [Option.map_some, Function.comp]
        rw [hfront, nameAt_withReturns hstart hfolded]
    · rfl

/-- **The front of a property set** is recognised in a text with returns, with returns in its name.
-/
theorem respectsReturns_atFront? (hcontainer : rules.container.Unbroken)
    (hstart : rules.start.Unbroken) :
    Matcher.RespectsReturns (atFront? rules) withReturns where
  front := atFront?_withReturns hcontainer hstart
  lineFeed t h := by
    cases hname : rules.container with
    | nil =>
      -- the name of the entity type may be empty, and white space before a parenthesis a beginning
      rw [atFront?_eq, hname, afterFolded?_nil, Option.bind_some,
        stripLeft_cons_of_isBlank (by decide)] at h
      rw [atFront?_eq, hname, afterFolded?_nil, Option.bind_some]
      cases hrest : stripLeft (CodePoint.lineFeed :: t) with
      | nil => rfl
      | cons opening inside =>
        rw [hrest] at h
        dsimp only at h ⊢
        split
        · next hopening =>
          rw [if_pos hopening, Option.map_eq_none_iff] at h
          rw [h, Option.map_none]
        · rfl
    | cons b container =>
      rw [hname] at hcontainer
      have hb := (hcontainer b List.mem_cons_self).2
      rw [atFront?_eq, hname, afterFolded?,
        if_neg (mt (CodePoint.fold_eq_fold_iff CodePoint.isControl_lineFeed).mp hb),
        Option.bind_none]
  pos t name length h := by
    rw [atFront?_eq] at h
    obtain ⟨afterEntity, -, h⟩ := Option.bind_eq_some_iff.mp h
    split at h
    · cases h
    · split at h
      · obtain ⟨p, -, hp⟩ := Option.map_eq_some_iff.mp h
        cases hp
        omega
      · cases h

end StepCheck.PropertySets
