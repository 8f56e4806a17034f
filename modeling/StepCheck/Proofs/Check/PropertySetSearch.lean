import StepCheck.Proofs.Check.Lines
import StepCheck.Proofs.Check.PropertySetReturns
import StepCheck.Proofs.Text.Occurrences

/-!
# Which property sets are found

The search for property sets is told by the text alone. A property set opens with the name of its
entity type and a parenthesis. Behind every quote that stands before the next closing parenthesis a
name may begin, and of those that do the last one counts. The name runs up to the next quote,
wherever that is, and the search goes on behind it. So it may pass over what looks like another
property set, and nothing says that a record ends before the name does.

* `PropertySets.OpensAt`, `PropertySets.BeginsName`, `PropertySets.IsName` — the parts;
* `PropertySets.Candidate`, `PropertySets.StandsAt` — a place where a property set is recognised;
* `PropertySets.Found` — the property sets from an index on, one after the other;
* `PropertySets.found_iff` — they are those that the search lists;
* `PropertySets.Tells` — what is to be said about the property sets of a content;
* `PropertySets.exists_tells` — it is said about every content under every policy.
-/

namespace StepCheck.PropertySets

open Text
open CheckGroup (outcomesAbout)

variable {rules : PropertySetRules} {start t c name : Text} {i inside k stop : Nat}

/-! ### The parts of a property set -/

/-- **A property set opens** at an index of a text: with the name of its entity type in any letters,
white space and a parenthesis, behind which `inside` is. -/
def OpensAt (rules : PropertySetRules) (c : Text) (i inside : Nat) : Prop :=
  ∃ entity ws : Text, (entity ++ ws ++ "(" : Text) <+: c.drop i ∧
    entity.fold = rules.container.fold ∧ (∀ b ∈ ws, b.isBlank = true) ∧
    inside = i + entity.length + ws.length + 1

/-- **A name begins** at an index of a text: as standard names do in any letters, and behind a quote
that stands before the first closing parenthesis. -/
def BeginsName (start t : Text) (k : Nat) : Prop :=
  ∃ before front : Text, (before ++ "'" ++ front : Text) <+: t ∧
    CodePoint.ofChar ')' ∉ before ∧ front.fold = start.fold ∧ k = before.length + 1

/-- **A name** at the front of a text: its beginning, and what follows up to the next quote or the
end of the text. -/
def IsName (start t name : Text) : Prop :=
  ∃ front ending rest : Text, name = front ++ ending ∧ front.fold = start.fold ∧
    CodePoint.ofChar '\'' ∉ ending ∧ t = name ++ rest ∧ (rest = [] ∨ "'" <+: rest)

/-- **A candidate**: a property set opens at the index, and some name begins in it. -/
def Candidate (rules : PropertySetRules) (c : Text) (i : Nat) : Prop :=
  ∃ inside k, OpensAt rules c i inside ∧ BeginsName rules.start (c.drop inside) k

/-- **A property set stands** at an index of a text: it is called by the last name that begins in
it, and stops where this name does. -/
def StandsAt (rules : PropertySetRules) (c : Text) (i : Nat) (name : Text) (stop : Nat) : Prop :=
  ∃ inside k, OpensAt rules c i inside ∧ BeginsName rules.start (c.drop inside) k ∧
    (∀ k', BeginsName rules.start (c.drop inside) k' → k' ≤ k) ∧
    IsName rules.start (c.drop (inside + k)) name ∧ stop = inside + k + name.length

/-- **The property sets of a text** from an index on. -/
inductive Found (rules : PropertySetRules) (c : Text) : (start : Nat) → List (Nat × Text) → Prop
  /-- There is no candidate at or behind the index. -/
  | done {start : Nat} (none_left : ∀ i, start ≤ i → ¬ Candidate rules c i) : Found rules c start []
  /-- The leftmost candidate, and then those from the end of its name on. -/
  | next {start i stop : Nat} {name : Text} {sets : List (Nat × Text)} (start_le : start ≤ i)
      (leftmost : ∀ k, start ≤ k → k < i → ¬ Candidate rules c k)
      (here : StandsAt rules c i name stop) (behind : Found rules c stop sets) :
      Found rules c start ((i, name) :: sets)

/-! ### The last name -/

/-- No name begins in the empty text. -/
private theorem not_beginsName_nil : ¬ BeginsName start [] k := by
  rintro ⟨before, front, hstarts, -⟩
  have hnil := List.prefix_nil.mp hstarts
  rw [List.append_assoc] at hnil
  cases (List.append_eq_nil_iff.mp (List.append_eq_nil_iff.mp hnil).2).1

/-- A name begins behind the first character, if that is a quote, or farther behind, if it is no
closing parenthesis. -/
theorem beginsName_cons_iff {b : CodePoint} : BeginsName start (b :: t) k ↔
    (b = '\'' ∧ (afterFolded? start t).isSome ∧ k = 1) ∨
      (b ≠ ')' ∧ ∃ j, BeginsName start t j ∧ k = j + 1) := by
  have hquote : Text.ofString "'" = [CodePoint.ofChar '\''] := rfl
  rw [Option.isSome_iff_exists]
  simp only [afterFolded?_eq_some_iff]
  constructor
  · rintro ⟨before, front, hstarts, hclosing, hfront, rfl⟩
    rw [hquote, List.append_assoc, List.singleton_append] at hstarts
    -- whether anything stands before the quote decides which case it is
    cases before with
    | nil =>
      obtain ⟨rfl, rest, hrest⟩ := List.cons_prefix_cons.mp hstarts
      exact .inl ⟨rfl, ⟨rest, front, hrest.symm, hfront⟩, rfl⟩
    | cons a before =>
      obtain ⟨rfl, hstarts⟩ := List.cons_prefix_cons.mp hstarts
      rw [List.mem_cons, not_or] at hclosing
      refine .inr ⟨Ne.symm hclosing.1, _, ⟨before, front, ?_, hclosing.2, hfront, rfl⟩, rfl⟩
      rwa [hquote, List.append_assoc, List.singleton_append]
  · rintro (⟨rfl, ⟨rest, front, rfl, hfront⟩, rfl⟩ | ⟨hb, j, hj, rfl⟩)
    · refine ⟨[], front, ?_, List.not_mem_nil, hfront, rfl⟩
      exact List.cons_prefix_cons.mpr ⟨rfl, List.prefix_append _ _⟩
    · obtain ⟨before, front, hstarts, hclosing, hfront, rfl⟩ := hj
      refine ⟨b :: before, front, List.cons_prefix_cons.mpr ⟨rfl, hstarts⟩, ?_, hfront, rfl⟩
      rw [List.mem_cons, not_or]
      exact ⟨Ne.symm hb, hclosing⟩

/-- **The last name** is found if there is one, and otherwise the answer so far stands. -/
private theorem lastName?_cases (start : Text) (found : Option (Nat × Text)) (index : Nat)
    (t : Text) :
    ((∀ k, ¬ BeginsName start t k) ∧ lastName? start found index t = found) ∨
      ∃ k, BeginsName start t k ∧ (∀ k', BeginsName start t k' → k' ≤ k) ∧
        lastName? start found index t = some (index + k, t.drop k) := by
  -- on the text; what has been found so far is the answer if nothing more is found
  induction t generalizing found index with
  | nil => exact .inl ⟨fun k => not_beginsName_nil, rfl⟩
  | cons b t ih =>
    simp only [beginsName_cons_iff]
    unfold lastName?
    by_cases hclosing : b = ')'
    · -- nothing behind the parenthesis counts
      refine .inl ⟨?_, if_pos hclosing⟩
      rintro k (⟨hquote, -⟩ | ⟨hother, -⟩)
      · rw [hclosing] at hquote
        exact absurd hquote (by decide)
      · exact hother hclosing
    rw [if_neg hclosing]
    by_cases hhere : b = '\'' ∧ (afterFolded? start t).isSome
    · -- a name begins right here, and is the last one if none begins farther behind
      rw [if_pos hhere]
      refine .inr ?_
      rcases ih (some (index + 1, t)) (index + 1) with ⟨hnone, heq⟩ | ⟨k, hk, hlast, heq⟩
      · refine ⟨1, .inl ⟨hhere.1, hhere.2, rfl⟩, ?_, heq⟩
        rintro k' (⟨-, -, rfl⟩ | ⟨-, j, hj, -⟩)
        · exact Nat.le_refl 1
        · exact absurd hj (hnone j)
      · refine ⟨k + 1, .inr ⟨hclosing, k, hk, rfl⟩, ?_, ?_⟩
        · rintro k' (⟨-, -, rfl⟩ | ⟨-, j, hj, rfl⟩)
          · exact Nat.le_add_left 1 k
          · exact Nat.succ_le_succ (hlast j hj)
        · rw [heq, List.drop_succ_cons, Nat.add_right_comm, Nat.add_assoc]
    · rw [if_neg hhere]
      rcases ih found (index + 1) with ⟨hnone, heq⟩ | ⟨k, hk, hlast, heq⟩
      · refine .inl ⟨?_, heq⟩
        rintro k' (⟨hquote, hfolded, -⟩ | ⟨-, j, hj, -⟩)
        · exact hhere ⟨hquote, hfolded⟩
        · exact hnone j hj
      · refine .inr ⟨k + 1, .inr ⟨hclosing, k, hk, rfl⟩, ?_, ?_⟩
        · rintro k' (⟨hquote, hfolded, -⟩ | ⟨-, j, hj, rfl⟩)
          · exact absurd ⟨hquote, hfolded⟩ hhere
          · exact Nat.succ_le_succ (hlast j hj)
        · rw [heq, List.drop_succ_cons, Nat.add_right_comm, Nat.add_assoc]

/-- The last name is the one that is looked for. -/
theorem lastName?_eq_some_iff {p : Nat × Text} : lastName? start none 0 t = some p ↔
    BeginsName start t p.1 ∧ (∀ k', BeginsName start t k' → k' ≤ p.1) ∧ p.2 = t.drop p.1 := by
  rcases lastName?_cases start none 0 t with ⟨hnone, heq⟩ | ⟨k, hk, hlast, heq⟩
  · rw [heq]
    exact iff_of_false nofun fun h => hnone _ h.1
  · rw [heq, Option.some.injEq, Nat.zero_add]
    constructor
    · rintro rfl
      exact ⟨hk, hlast, rfl⟩
    · rintro ⟨hp, hplast, hrest⟩
      have hsame : k = p.1 := Nat.le_antisymm (hplast k hk) (hlast _ hp)
      rw [Prod.ext_iff]
      exact ⟨hsame, hsame ▸ hrest.symm⟩

/-- Where a name begins, its beginning stands. -/
private theorem BeginsName.exists_drop (h : BeginsName start t k) :
    ∃ front rest : Text, t.drop k = front ++ rest ∧ front.fold = start.fold := by
  obtain ⟨before, front, ⟨rest, rfl⟩, -, hfront, rfl⟩ := h
  refine ⟨front, rest, ?_, hfront⟩
  have hlength : (before ++ Text.ofString "'").length = before.length + 1 := by
    rw [List.length_append]
    rfl
  rw [List.append_assoc, ← hlength, List.drop_left]

/-! ### The name -/

/-- **The name** that is read is the one that stands there. -/
theorem isName_iff {front rest : Text} (hfront : front.fold = start.fold) :
    IsName start (front ++ rest) name ↔ name = nameAt start (front ++ rest) := by
  have hnameAt : nameAt start (front ++ rest)
      = front ++ rest.takeWhile (· ≠ CodePoint.ofChar '\'') := by
    unfold nameAt
    rw [← length_eq_of_fold_eq hfront, List.take_left, List.drop_left]
  rw [hnameAt]
  constructor
  · rintro ⟨front', ending, behind, rfl, hfront', hfree, ht, hbehind⟩
    -- the two beginnings are of one length
    rw [List.append_assoc] at ht
    obtain ⟨rfl, rfl⟩ := List.append_inj ht (length_eq_of_fold_eq (hfront.trans hfront'.symm))
    have hending : ∀ b ∈ ending, decide (b ≠ CodePoint.ofChar '\'') = true := by
      intro b hb
      refine decide_eq_true ?_
      rintro rfl
      exact hfree hb
    rw [List.takeWhile_append_of_pos hending]
    rcases hbehind with rfl | ⟨later, rfl⟩
    · rw [List.takeWhile_nil, List.append_nil]
    · have hstop : (Text.ofString "'" ++ later).takeWhile (· ≠ CodePoint.ofChar '\'') = [] :=
        List.takeWhile_cons_of_neg (by decide)
      rw [hstop, List.append_nil]
  · rintro rfl
    refine ⟨front, rest.takeWhile (· ≠ CodePoint.ofChar '\''),
      rest.dropWhile (· ≠ CodePoint.ofChar '\''), rfl, hfront, ?_, ?_, ?_⟩
    · intro hmem
      have hall := List.all_eq_true.mp List.all_takeWhile _ hmem
      exact of_decide_eq_true hall rfl
    · rw [List.append_assoc, List.takeWhile_append_dropWhile]
    · cases hbehind : rest.dropWhile (· ≠ CodePoint.ofChar '\'') with
      | nil => exact .inl rfl
      | cons b behind =>
        refine .inr ?_
        have hb := List.head?_dropWhile_not (· ≠ CodePoint.ofChar '\'') rest
        rw [hbehind] at hb
        obtain rfl : b = '\'' := not_not.mp (of_decide_eq_false hb)
        exact ⟨behind, rfl⟩

/-- What is read is the name that stands where a name begins. -/
private theorem isName_nameAt (h : BeginsName start t k) :
    IsName start (t.drop k) name ↔ name = nameAt start (t.drop k) := by
  obtain ⟨front, rest, hdrop, hfront⟩ := h.exists_drop
  rw [hdrop]
  exact isName_iff hfront

/-! ### The property set at an index -/

/-- What is inside stands behind the name of the entity type, white space and the parenthesis. -/
theorem drop_inside {entity ws rest : Text}
    (h : c.drop i = entity ++ (ws ++ CodePoint.ofChar '(' :: rest)) :
    c.drop (i + entity.length + ws.length + 1) = rest := by
  have hindex : i + entity.length + ws.length + 1 = i + (entity.length + (ws.length + 1)) := by
    omega
  rw [hindex, ← List.drop_drop, h, List.drop_length_add_append, List.drop_length_add_append]
  rfl

/-- What opens a property set is not empty. -/
theorem OpensAt.lt_inside (h : OpensAt rules c i inside) : i < inside := by
  obtain ⟨entity, ws, -, -, -, rfl⟩ := h
  omega

/-- **What opens**, in terms of how it is read. -/
private theorem opensAt_iff : OpensAt rules c i inside ↔ ∃ afterEntity,
    afterFolded? rules.container (c.drop i) = some afterEntity ∧
      stripLeft afterEntity = CodePoint.ofChar '(' :: c.drop inside ∧
      inside = i + rules.container.length + (blanks afterEntity).length + 1 := by
  have hopening : (CodePoint.ofChar '(').isBlank = false := by decide
  constructor
  · rintro ⟨entity, ws, ⟨rest, hrest⟩, hentity, hws, rfl⟩
    have hdrop : c.drop i = entity ++ (ws ++ CodePoint.ofChar '(' :: rest) := by
      rw [← hrest, List.append_assoc, List.append_assoc]
      rfl
    -- the white space ends at the parenthesis
    refine ⟨ws ++ CodePoint.ofChar '(' :: rest, ?_, ?_, ?_⟩
    · exact afterFolded?_eq_some_iff.mpr ⟨entity, hdrop, hentity⟩
    · rw [drop_inside hdrop]
      exact (stripLeft_eq_cons_iff hopening).mpr ⟨ws, hws, rfl⟩
    · rw [blanks_append_cons hws hopening, length_eq_of_fold_eq hentity]
  · rintro ⟨afterEntity, hafter, hstrip, hinside⟩
    obtain ⟨entity, hdrop, hentity⟩ := afterFolded?_eq_some_iff.mp hafter
    obtain ⟨ws, hws, heq⟩ := (stripLeft_eq_cons_iff hopening).mp hstrip
    refine ⟨entity, ws, ?_, hentity, hws, ?_⟩
    · rw [hdrop, heq, List.append_assoc]
      refine (List.prefix_append_right_inj _).mpr ((List.prefix_append_right_inj _).mpr ?_)
      exact List.cons_prefix_cons.mpr ⟨rfl, List.nil_prefix⟩
    · rw [hinside, heq, blanks_append_cons hws hopening, length_eq_of_fold_eq hentity]

/-- What is read to be inside is inside. -/
private theorem exists_opensAt {afterEntity rest : Text}
    (hafter : afterFolded? rules.container (c.drop i) = some afterEntity)
    (hstrip : stripLeft afterEntity = CodePoint.ofChar '(' :: rest) :
    ∃ inside, OpensAt rules c i inside ∧ c.drop inside = rest ∧
      inside = i + rules.container.length + (blanks afterEntity).length + 1 := by
  have hdrop : c.drop (i + rules.container.length + (blanks afterEntity).length + 1) = rest := by
    obtain ⟨entity, hdrop, hentity⟩ := afterFolded?_eq_some_iff.mp hafter
    rw [← blanks_append_stripLeft afterEntity, hstrip] at hdrop
    rw [← length_eq_of_fold_eq hentity]
    exact drop_inside hdrop
  refine ⟨_, opensAt_iff.mpr ⟨afterEntity, hafter, ?_, rfl⟩, hdrop, rfl⟩
  rw [hdrop, hstrip]

/-- **The property set at an index** that is recognised is the one that stands there. -/
theorem atFront?_eq_some_iff {length : Nat} :
    atFront? rules (c.drop i) = some (name, length) ↔ StandsAt rules c i name (i + length) := by
  rw [atFront?_eq]
  constructor
  · intro h
    obtain ⟨afterEntity, hafter, h⟩ := Option.bind_eq_some_iff.mp h
    split at h
    · cases h
    · next opening rest hstrip =>
      split at h
      · next hopening =>
        -- behind the parenthesis the last name decides
        subst hopening
        obtain ⟨p, hp, heq⟩ := Option.map_eq_some_iff.mp h
        obtain ⟨inside, hopens, hrest, hinside⟩ := exists_opensAt hafter hstrip
        rw [← hrest] at hp
        obtain ⟨hbegins, hlast, hnamed⟩ := lastName?_eq_some_iff.mp hp
        obtain ⟨rfl, rfl⟩ := Prod.mk.inj heq
        refine ⟨inside, p.1, hopens, hbegins, hlast, ?_, ?_⟩
        · rw [← List.drop_drop, isName_nameAt hbegins, hnamed]
        · omega
      · cases h
  · rintro ⟨inside, k, hopens, hbegins, hlast, hname, hstop⟩
    obtain ⟨afterEntity, hafter, hstrip, hinside⟩ := opensAt_iff.mp hopens
    have hfound : lastName? rules.start none 0 (c.drop inside)
        = some (k, (c.drop inside).drop k) :=
      lastName?_eq_some_iff.mpr ⟨hbegins, hlast, rfl⟩
    rw [← List.drop_drop, isName_nameAt hbegins] at hname
    rw [hafter, Option.bind_some, hstrip]
    dsimp only
    rw [if_pos rfl, hfound, Option.map_some, ← hname, Option.some.injEq, Prod.mk.injEq]
    exact ⟨rfl, by omega⟩

/-- **A candidate** is a place where a property set is recognised. -/
theorem candidate_iff :
    Candidate rules c i ↔ ∃ name length, atFront? rules (c.drop i) = some (name, length) := by
  constructor
  · rintro ⟨inside, k, hopens, hbegins⟩
    -- some name begins, and so there is a last one
    rcases lastName?_cases rules.start none 0 (c.drop inside) with ⟨hnone, -⟩ | ⟨k, hk, hlast, -⟩
    · exact absurd hbegins (hnone k)
    · have hlt := hopens.lt_inside
      refine ⟨nameAt rules.start ((c.drop inside).drop k), inside - i + k
        + (nameAt rules.start ((c.drop inside).drop k)).length, atFront?_eq_some_iff.mpr ?_⟩
      refine ⟨inside, k, hopens, hk, hlast, ?_, ?_⟩
      · rw [← List.drop_drop, isName_nameAt hk]
      · omega
  · rintro ⟨name, length, h⟩
    obtain ⟨inside, k, hopens, hbegins, -⟩ := atFront?_eq_some_iff.mp h
    exact ⟨inside, k, hopens, hbegins⟩

/-- Where nothing is recognised there is no candidate. -/
theorem atFront?_eq_none_iff : atFront? rules (c.drop i) = none ↔ ¬ Candidate rules c i := by
  rw [candidate_iff, Option.eq_none_iff_forall_ne_some]
  constructor
  · rintro h ⟨name, length, hsome⟩
    exact h _ hsome
  · rintro h ⟨name, length⟩ hsome
    exact h ⟨name, length, hsome⟩

/-- A property set takes up some part of the text. -/
theorem getsOn_atFront? (rules : PropertySetRules) : Matcher.GetsOn (atFront? rules) where
  nil := by
    have hnone : ¬ Candidate rules [] 0 := by
      rintro ⟨inside, k, -, hbegins⟩
      rw [List.drop_nil] at hbegins
      exact not_beginsName_nil hbegins
    exact atFront?_eq_none_iff.mpr hnone
  pos t name length h := by
    have hstands : StandsAt rules t 0 name (0 + length) := atFront?_eq_some_iff.mp h
    obtain ⟨inside, k, hopens, -, -, -, hstop⟩ := hstands
    have hlt := hopens.lt_inside
    omega

/-! ### The property sets of a text -/

/-- Being found is being listed by the search at the front. -/
private theorem found_iff_lists {index : Nat} {sets : List (Nat × Text)} :
    Found rules c index sets ↔ Matcher.Lists (atFront? rules) c index sets := by
  constructor
  · intro h
    induction h with
    | done none_left =>
      exact .done fun i hi => atFront?_eq_none_iff.mpr (none_left i hi)
    | @next index i stop name sets start_le leftmost here _ ih =>
      -- the length is what lies between the index and the end of the name
      have hle : i ≤ stop := by
        obtain ⟨inside, k, hopens, -, -, -, hstop⟩ := here
        have hlt := hopens.lt_inside
        omega
      obtain ⟨length, rfl⟩ := Nat.exists_eq_add_of_le hle
      exact .next start_le (fun k hk hlt => atFront?_eq_none_iff.mpr (leftmost k hk hlt))
        (atFront?_eq_some_iff.mpr here) ih
  · intro h
    induction h with
    | done none_left =>
      exact .done fun i hi => atFront?_eq_none_iff.mp (none_left i hi)
    | next start_le leftmost here _ ih =>
      exact .next start_le (fun k hk hlt => atFront?_eq_none_iff.mp (leftmost k hk hlt))
        (atFront?_eq_some_iff.mp here) ih

/-- **The property sets of a text** are those that are listed, and no others. -/
theorem found_iff {sets : List (Nat × Text)} : Found rules c 0 sets ↔ sets = all rules c := by
  have hall := (getsOn_atFront? rules).lists_occurrences c
  rw [found_iff_lists]
  constructor
  · intro h
    exact h.unique hall
  · rintro rfl
    exact hall

/-- A name that is not closed runs on over the parenthesis and the next property set. -/
example : all {} "IFCPROPERTYSET('Pset_A);IFCPROPERTYSET('Pset_B');"
    = [(0, Text.ofString "Pset_A);IFCPROPERTYSET(")] := by
  decide +kernel

/-- There is none just when there is no candidate. -/
theorem all_eq_nil_iff : all rules c = [] ↔ ∀ i, ¬ Candidate rules c i := by
  have hnil := ((getsOn_atFront? rules).lists_occurrences c).eq_nil_iff
  simp only [Nat.zero_le, true_imp_iff, atFront?_eq_none_iff] at hnil
  exact hnil

/-! ### What is said about them -/

/-- **An outcome judges a name**: it names it as it is written, and says whether it is standard. -/
def Judges (rules : PropertySetRules) (name : Text) (o : Outcome) : Prop :=
  (name.upper ∈ rules.standard.map Text.upper ∧ o.severity = .passed ∧ o.code = .passed ∧
      o.observed = "Standard property set found: " ++ name) ∨
    (name.upper ∉ rules.standard.map Text.upper ∧ o.severity = .warning ∧ o.code = .namingError ∧
      o.observed = "Non-standard property set found: " ++ name)

/-- **An outcome tells of a property set** of a content: it judges the name, and names the line in
which the property set begins. -/
def TellsOf (rules : PropertySetRules) (c : Text) (set : Nat × Text) (o : Outcome) : Prop :=
  (∃ (number : Nat) (l : Text), o.line = some ↑number ∧ c.LiesIn set.1 number l) ∧
    Judges rules set.2 o

/-- **What is to be said about the property sets** of a content, which are the given ones. -/
structure Tells (P : Policy) (c : Text) (sets : List (Nat × Text)) : Prop where
  /-- The leftmost candidates one after the other are these and no others. -/
  found : ∀ sets', Found P.propertySets c 0 sets' ↔ sets' = sets
  /-- There is none just when there is no candidate. -/
  eq_nil_iff : sets = [] ↔ ∀ i, ¬ Candidate P.propertySets c i
  /-- Just then a single warning says so. -/
  missing_iff : (∃ o, outcomesAbout P (Layout.of c) [.standardPropertySets] = [o] ∧
      o.severity = .warning ∧ o.code = .resourceError) ↔ ∀ i, ¬ Candidate P.propertySets c i
  /-- Otherwise every one of them is told, in the order of the file. -/
  told : sets ≠ [] → List.Forall₂ (TellsOf P.propertySets c) sets
    (outcomesAbout P (Layout.of c) [.standardPropertySets])

/-- **The finding about a property set** tells of it. -/
private theorem tellsOf_propertySetFinding (hi : i ≤ c.length) :
    TellsOf rules c (i, name)
      ((Business.propertySetFinding rules (Layout.of c) i name).outcome .business) := by
  obtain ⟨l, hl⟩ := liesIn_lineAt hi
  refine ⟨⟨c.lineAt i, l, ?_, hl⟩, ?_⟩
  · change Option.map Int.ofNat (Business.propertySetFinding rules (Layout.of c) i name).line = _
    rw [Business.line_propertySetFinding]
    rfl
  · have hstandard : rules.isStandard name = true ↔ name.upper ∈ rules.standard.map Text.upper :=
      List.contains_iff_mem
    unfold Business.propertySetFinding
    dsimp only
    split
    · next h => exact .inl ⟨hstandard.mp h, rfl, rfl, rfl⟩
    · next h => exact .inr ⟨mt hstandard.mpr h, rfl, rfl, rfl⟩

/-- What is listed is what is to be said about. -/
theorem tells_all (P : Policy) (c : Text) : Tells P c (all P.propertySets c) := by
  have htold : all P.propertySets c ≠ [] →
      List.Forall₂ (TellsOf P.propertySets c) (all P.propertySets c)
        (outcomesAbout P (Layout.of c) [.standardPropertySets]) := by
    intro hne
    rw [CheckGroup.outcomesAbout_propertySets]
    unfold Business.propertySetFindings
    split
    · next hnil => exact absurd hnil hne
    · rw [List.forall₂_map_right_iff]
      change List.Forall₂ _ (all P.propertySets c) ((all P.propertySets c).map _)
      rw [List.forall₂_map_right_iff, List.forall₂_same]
      rintro ⟨i, name⟩ hset
      obtain ⟨hlt, -⟩ := exists_of_mem_occurrences hset
      exact tellsOf_propertySetFinding (Nat.le_of_lt hlt)
  refine ⟨fun sets' => found_iff, all_eq_nil_iff, ?_, htold⟩
  rw [← all_eq_nil_iff]
  constructor
  · rintro ⟨o, ho, hseverity, hcode⟩
    by_contra hne
    -- otherwise the outcome tells of a property set, and not that there is none
    have hall := htold hne
    rw [ho] at hall
    obtain ⟨set, sets, ⟨-, hjudges⟩, -, -⟩ := List.forall₂_cons_right_iff.mp hall
    rcases hjudges with ⟨-, -, hcode', -⟩ | ⟨-, -, hcode', -⟩
    · rw [hcode] at hcode'
      cases hcode'
    · rw [hcode] at hcode'
      cases hcode'
  · intro hnil
    rw [CheckGroup.outcomesAbout_propertySets]
    unfold Business.propertySetFindings
    have hcontent : all P.propertySets (Layout.of c).content = [] := hnil
    rw [hcontent]
    exact ⟨_, rfl, rfl, rfl⟩

/-- **Everything is said about the property sets of a content**, whatever stands in it and whatever
the policy is. -/
theorem exists_tells (P : Policy) (c : Text) : ∃ sets, Tells P c sets :=
  ⟨all P.propertySets c, tells_all P c⟩

end StepCheck.PropertySets
