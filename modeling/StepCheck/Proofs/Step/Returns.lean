import StepCheck.Proofs.Step.Fronts
import StepCheck.Proofs.Step.Sections
import StepCheck.Proofs.Text.Letters
import StepCheck.Proofs.Text.Matches

/-!
# The layout of a content with returns

What a layout holds of a content with returns: the sections are the old ones with returns in their
texts, their lines are the old lines, and the instances that the data section declares are just the
same.

* `Section.find?_withReturns`, `Section.lineOf_withReturns` — sections and their lines;
* `Declaration.respectsReturns_atFront?` — the front of a declaration;
* `Layout.instances_withReturns` — the instances.
-/

namespace StepCheck

open Text

/-! ### Sections -/

namespace Section

variable {keyword c : Text} {s : Section}

/-- The section with returns in its text, as it lies in a content with returns. -/
def returned (c : Text) (s : Section) : Section :=
  ⟨withReturns s.text, place c s.offset, s.startLine⟩

/-- **The section that a keyword opens** is the old one with returns. -/
theorem find?_withReturns (hkeyword : keyword.Unbroken) (hne : keyword ≠ []) (c : Text) :
    find? keyword (withReturns c) = (find? keyword c).map (returned c) := by
  unfold find?
  simp only [Option.bind_eq_bind, Option.pure_def]
  rw [foundIn?_withReturns hkeyword hne]
  cases h : keyword.foundIn? c with
  | none => rfl
  | some rest =>
    -- the keyword stands first at a place, and its first place with returns is the corresponding
    -- one
    obtain ⟨i, hi, rfl⟩ := foundIn?_iff_firstFrom.mp h
    have hstart : place c (i + keyword.length) = place c i + keyword.length := by
      rw [place_add, place_of_prefix hi.occurs, withReturns_eq_self hkeyword.lineFeed_notMem]
    rw [Option.map_some, Option.bind_some, Option.bind_some, drop_withReturns hkeyword hi.occurs,
      cutAt?_withReturns (by decide) (by decide), length_sub_length_drop, lineAt_place,
      List.length_drop, Nat.sub_sub_self hi.index_le]
    cases cutAt? (List.drop keyword.length (c.drop i)) Marker.sectionEnd with
    | none => rfl
    | some cut =>
      rw [Option.map_some, Option.bind_some, Option.bind_some, Option.map_some, returned, hstart]

/-- **The line of an index** of a section's text. -/
theorem lineOf_withReturns (h : find? keyword c = some s) (hkeyword : keyword.Unbroken)
    (hne : keyword ≠ []) {k : Nat} (hk : k ≤ s.text.length) :
    (returned c s).lineOf (withReturns c) (place s.text k) = s.lineOf c k := by
  have h' : find? keyword (withReturns c) = some (returned c s) := by
    rw [find?_withReturns hkeyword hne, h, Option.map_some]
  have hk' : place s.text k ≤ (withReturns s.text).length := by
    rw [← place_length]
    exact place_mono s.text hk
  rw [lineOf_eq h hkeyword.lineFeed_notMem hk, lineOf_eq h' hkeyword.lineFeed_notMem hk', returned,
    take_place, count_withReturns (by decide)]

end Section

/-! ### Declarations -/

namespace Declaration

/-- No line break is among digits. -/
theorem digits_withReturns (t : Text) :
    (withReturns t).takeWhile CodePoint.isDecimal = t.takeWhile CodePoint.isDecimal :=
  takeWhile_withReturns_of_false (by decide +kernel) (by decide +kernel) t

/-- No line break is in the name of a type. -/
theorem typeName_withReturns (t : Text) :
    (withReturns t).takeWhile CodePoint.isNamePart = t.takeWhile CodePoint.isNamePart :=
  takeWhile_withReturns_of_false (by decide) (by decide) t

/-- The lengths of the parts add up to the place behind them. -/
private theorem place_front (ws₁ ws₂ ws₃ inside : Text) {number name : Text}
    {sign equals opening : CodePoint} (hnumber : CodePoint.lineFeed ∉ number)
    (hname : CodePoint.lineFeed ∉ name) (hsign : sign ≠ CodePoint.lineFeed)
    (hequals : equals ≠ CodePoint.lineFeed) (hopening : opening ≠ CodePoint.lineFeed) :
    place (sign :: (number ++ (ws₁ ++ equals :: (ws₂ ++ (name ++ (ws₃ ++ opening :: inside))))))
        (1 + number.length + ws₁.length + 1 + ws₂.length + name.length + ws₃.length + 1)
      = 1 + number.length + (withReturns ws₁).length + 1 + (withReturns ws₂).length + name.length
        + (withReturns ws₃).length + 1 := by
  have hfront : sign :: (number ++ (ws₁ ++ equals :: (ws₂ ++ (name ++ (ws₃ ++ [opening])))))
      <+: sign :: (number ++ (ws₁ ++ equals :: (ws₂ ++ (name ++ (ws₃ ++ opening :: inside))))) := by
    refine ⟨inside, ?_⟩
    simp only [List.append_assoc, List.cons_append, List.nil_append]
  -- the text with returns has the parts with returns, and only white space can get some
  have hplace := place_of_prefix hfront
  rw [withReturns_cons hsign, withReturns_append, withReturns_append, withReturns_cons hequals,
    withReturns_append, withReturns_append, withReturns_append, withReturns_cons hopening,
    withReturns_nil, withReturns_eq_self hnumber, withReturns_eq_self hname] at hplace
  simp only [List.length_cons, List.length_append, List.length_nil] at hplace
  refine Eq.trans (congrArg _ ?_) (hplace.trans ?_)
  · omega
  · omega

/-- The front of a declaration in a text with returns. -/
private theorem atFront?_withReturns (t : Text) :
    atFront? (withReturns t) = (atFront? t).map fun p => (id p.1, place t p.2) := by
  cases t with
  | nil => rfl
  | cons c afterSign =>
    by_cases hc : c = '#'
    · subst hc
      rw [withReturns_cons (by decide)]
      unfold atFront?
      simp only [Option.bind_eq_bind, Option.pure_def, Option.map_bind, guard, if_true,
        Option.bind_some]
      rw [digits_withReturns, dropWhile_withReturns (by decide +kernel)]
      -- the conditions are the same, and white space may stand in three places
      refine Option.bind_congr fun _ _ => ?_
      dsimp only [Function.comp]
      rcases stripLeft_cases (afterSign.dropWhile CodePoint.isDecimal) with
        ⟨h, h'⟩ | ⟨equals, afterEquals, hequals, h, h'⟩
      · rw [h, h']
        rfl
      rw [h, h']
      dsimp only
      rw [Option.map_bind]
      refine Option.bind_congr fun _ _ => ?_
      dsimp only [Function.comp]
      rcases stripLeft_cases afterEquals with ⟨hn, hn'⟩ | ⟨initial, named, hinitial, hn, hn'⟩
      · rw [hn, hn']
        rfl
      rw [hn, hn']
      dsimp only
      rw [Option.map_bind]
      refine Option.bind_congr fun _ _ => ?_
      dsimp only [Function.comp]
      rw [← withReturns_cons hinitial, typeName_withReturns, dropWhile_withReturns (by decide)]
      rcases stripLeft_cases ((initial :: named).dropWhile CodePoint.isNamePart) with
        ⟨ho, ho'⟩ | ⟨opening, inside, hopening, ho, ho'⟩
      · rw [ho, ho']
        rfl
      rw [ho, ho']
      dsimp only
      rw [Option.map_bind]
      refine Option.bind_congr fun _ _ => ?_
      dsimp only [Function.comp]
      -- what is passed over and what is recognised make up the front
      have hparts : afterSign = afterSign.takeWhile CodePoint.isDecimal
          ++ (blanks (afterSign.dropWhile CodePoint.isDecimal) ++ equals :: (blanks afterEquals
            ++ ((initial :: named).takeWhile CodePoint.isNamePart
              ++ (blanks ((initial :: named).dropWhile CodePoint.isNamePart)
                ++ opening :: inside)))) := by
        rw [← ho, blanks_append_stripLeft, List.takeWhile_append_dropWhile, ← hn,
          blanks_append_stripLeft, ← h, blanks_append_stripLeft, List.takeWhile_append_dropWhile]
      have hnumber : CodePoint.lineFeed ∉ afterSign.takeWhile CodePoint.isDecimal :=
        lineFeed_notMem_takeWhile (by decide +kernel) afterSign
      have hname : CodePoint.lineFeed ∉ (initial :: named).takeWhile CodePoint.isNamePart :=
        lineFeed_notMem_takeWhile (by decide) _
      have hplace := place_front (blanks (afterSign.dropWhile CodePoint.isDecimal))
        (blanks afterEquals) (blanks ((initial :: named).dropWhile CodePoint.isNamePart)) inside
        hnumber hname (by decide : CodePoint.ofChar '#' ≠ CodePoint.lineFeed) hequals hopening
      rw [← hparts] at hplace
      rw [Option.map_some, hplace]
      simp only [blanks_withReturns, id]
    · -- neither a line feed nor a return is a number sign
      rw [atFront?_cons_of_ne hc afterSign, Option.map_none]
      by_cases hbreak : c = CodePoint.lineFeed
      · rw [hbreak, withReturns_cons_lineFeed, atFront?_cons_of_ne (by decide)]
      · rw [withReturns_cons hbreak, atFront?_cons_of_ne hc]

/-- **The front of a declaration** is recognised in a text with returns with the same number and the
same name. -/
theorem respectsReturns_atFront? : Matcher.RespectsReturns atFront? id where
  front := atFront?_withReturns
  lineFeed _ _ := rfl
  pos t d length h := by
    obtain ⟨front, rest, -, hfront, rfl⟩ := atFront?_eq_some_iff.mp h
    exact hfront.length_pos

end Declaration

/-! ### Instances -/

namespace Layout

variable {c : Text}

@[simp] theorem content_of (c : Text) : (of c).content = c := rfl

/-- **The sections** of a content with returns. -/
theorem section?_withReturns (c : Text) (name : SectionName) :
    (of (withReturns c)).section? name = ((of c).section? name).map (Section.returned c) := by
  rw [section?_of, section?_of]
  cases name with
  | header => exact Section.find?_withReturns (by decide) (by decide) c
  | data => exact Section.find?_withReturns (by decide) (by decide) c

/-- **The lines of the keywords.** -/
theorem openingLine?_withReturns (c : Text) (name : SectionName) :
    (of (withReturns c)).openingLine? name = (of c).openingLine? name := by
  rw [openingLine?_of, openingLine?_of]
  cases name with
  | header => exact firstLine?_withReturns (by decide) (by decide) c
  | data => exact firstLine?_withReturns (by decide) (by decide) c

/-- Each return stands at the end of a line that is there already. -/
theorem lineCount_withReturns (c : Text) :
    (of (withReturns c)).lineCount = (of c).lineCount := by
  change (withReturns c).lineCount = c.lineCount
  rw [lineCount_eq, lineCount_eq, count_withReturns (by decide)]

/-- Capitals are made of letters only. -/
theorem capitals_withReturns (c : Text) :
    (of (withReturns c)).capitals = withReturns (of c).capitals := upper_withReturns c

/-- The first line that holds a needle, whatever the case of letters. -/
theorem firstLineWith?_withReturns {needle : Text} (hneedle : needle.Unbroken)
    (hne : needle.upper ≠ []) (c : Text) :
    (of (withReturns c)).firstLineWith? needle true = (of c).firstLineWith? needle true := by
  change firstLine? (fun l => needle.upper.occursIn l.upper) (withReturns c).lines
    = firstLine? (fun l => needle.upper.occursIn l.upper) c.lines
  rw [firstLine?_upper, firstLine?_upper, upper_withReturns,
    firstLine?_withReturns hneedle.upper hne]

/-- **The instances** are the same, with their lines. -/
theorem instances_withReturns (c : Text) : (of (withReturns c)).instances = (of c).instances := by
  unfold instances
  have hdata : (of (withReturns c)).data
      = (of c).data.map (Section.returned c) := section?_withReturns c .data
  rw [hdata]
  cases h : (of c).data with
  | none => rfl
  | some data =>
    rw [Option.map_some]
    dsimp only
    rw [Declaration.all, Declaration.all, Section.returned,
      occurrences_withReturns Declaration.respectsReturns_atFront?, List.map_map]
    refine List.map_congr_left fun p hp => ?_
    -- a declaration begins within the section, and its line is counted from there
    have hindex := Nat.le_of_lt (exists_of_mem_occurrences hp).1
    have hline := Section.lineOf_withReturns h (by decide) (by decide) hindex
    exact congrArg _ hline

end Layout

end StepCheck
