import StepCheck.Proofs.Check.Grammar
import StepCheck.Proofs.Policy.Accepted
import StepCheck.Proofs.Step.Declarations

/-!
# Unknown entity types

A warning names the types of the data section that a policy does not know. The instances are gone
through from left to right, and the first one of every such type is kept. Here the types are told
without going through anything: each has a first place among the declarations of the section, and
they are listed by these places. The list may be long, and then the warning names its beginning and
the number of the types that are left out.

* `Layout.Declares`, `Layout.FirstDeclares` — the places of types in the data section;
* `EntityTypes.Keeps`, `EntityTypes.exists_firsts` — what is kept of instances at increasing places;
* `EntityTypes.ListsUnknown` — the unknown types in the order of these places, which determines the
  list (`EntityTypes.ListsUnknown.unique`);
* `EntityTypes.WarnsOf` — the warning about them;
* `EntityTypes.TellsTypes` — what is to be said about the entity types of a content;
* `EntityTypes.tells_types` — it holds of every content that declares an instance.
-/

namespace StepCheck

/-! ### Types and their places -/

namespace Declaration

variable {d d' : Declaration} {c : Text} {i : Nat}

/-- Only one declaration stands at an index. -/
theorem StandsAt.unique (h : StandsAt c i d) (h' : StandsAt c i d') : d = d' := by
  obtain ⟨length, hlength⟩ := standsAt_iff.mp h
  obtain ⟨length', hlength'⟩ := standsAt_iff.mp h'
  rw [hlength] at hlength'
  cases hlength'
  rfl

/-- **A type is written in capitals** already. -/
theorem StandsAt.upper_typeName (h : StandsAt c i d) : d.typeName.upper = d.typeName := by
  obtain ⟨front, hfront, -⟩ := h
  have hsame : ∀ b ∈ d.typeName, b.upper = [b] := by
    intro b hb
    have hpart := hfront.isNamePart b hb
    unfold CodePoint.isNamePart CodePoint.isCapital CodePoint.isDigit at hpart
    -- a part of a name is no small letter, and stands in ASCII
    have hascii : b.isSmall = false ∧ b.val < 0x80 := by
      have hline : (CodePoint.ofChar '_').val = 0x5F := rfl
      unfold CodePoint.isSmall
      simp only [Bool.or_eq_true, Bool.and_eq_true, decide_eq_true_eq, Bool.and_eq_false_iff,
        decide_eq_false_iff_not] at hpart ⊢
      rcases hpart with (hcapital | hdigit) | rfl
      · omega
      · omega
      · omega
    rw [CodePoint.upper, hascii.1, if_neg Bool.false_ne_true, if_pos hascii.2]
  unfold Text.upper
  rw [List.flatMap_congr hsame, List.flatMap_singleton']

end Declaration

namespace Layout

variable {c : Text} {i k : Nat} {name name' : Text}

/-- **An instance of a type is declared** at an index, in the data section. Types are named in
capitals. -/
def Declares (c : Text) (i : Nat) (name : Text) : Prop :=
  InData c i ∧ ∃ d, Declaration.StandsAt c i d ∧ d.typeName.upper = name

/-- **A type appears first** at an index of the data section. -/
def FirstDeclares (c : Text) (i : Nat) (name : Text) : Prop :=
  Declares c i name ∧ ∀ k, Declares c k name → i ≤ k

/-- A declaration has one type name. -/
theorem Declares.unique (h : Declares c i name) (h' : Declares c i name') : name = name' := by
  obtain ⟨-, d, hd, rfl⟩ := h
  obtain ⟨-, d', hd', rfl⟩ := h'
  rw [hd.unique hd']

/-- A type that appears has a first place. -/
theorem Declares.exists_first (h : Declares c i name) : ∃ k ≤ i, FirstDeclares c k name := by
  classical
  have hexists : ∃ k, Declares c k name := ⟨i, h⟩
  exact ⟨Nat.find hexists, Nat.find_min' hexists h, Nat.find_spec hexists,
    fun k hk => Nat.find_min' hexists hk⟩

/-- There are instances just when a declaration starts in the data section. -/
theorem instances_ne_nil_iff :
    (of c).instances ≠ [] ↔ ∃ i, Declaration.StartsAt c i ∧ InData c i := by
  obtain ⟨starts, -, hmem, htells⟩ := exists_starts c
  rw [← List.length_pos_iff, ← htells.length_eq, List.length_pos_iff_exists_mem]
  simp only [hmem]

end Layout

/-! ### The instances that are kept -/

namespace EntityTypes

open Layout (InData Declares FirstDeclares TellsOf)

/-- **An instance is kept** among instances with places if its type is neither known nor seen, and
if no instance at an earlier place has the same type. -/
def Keeps (known seen : List Text) (placed : List (Nat × Instance)) (p : Nat × Instance) : Prop :=
  p ∈ placed ∧ p.2.typeName.upper ∉ known ∧ p.2.typeName.upper ∉ seen ∧
    ∀ q ∈ placed, q.2.typeName.upper = p.2.typeName.upper → p.1 ≤ q.1

section Steps

variable {known seen : List Text} {placed : List (Nat × Instance)} {first p : Nat × Instance}

/-- An instance of a type that is known or seen is passed over, and changes nothing for others. -/
theorem keeps_cons_of_passed
    (h : first.2.typeName.upper ∈ known ∨ first.2.typeName.upper ∈ seen) :
    Keeps known seen (first :: placed) p ↔ Keeps known seen placed p := by
  constructor
  · rintro ⟨hp, hknown, hseen, hleast⟩
    rcases List.mem_cons.mp hp with rfl | hp
    · exact absurd h (not_or.mpr ⟨hknown, hseen⟩)
    · exact ⟨hp, hknown, hseen, fun q hq => hleast q (List.mem_cons_of_mem first hq)⟩
  · rintro ⟨hp, hknown, hseen, hleast⟩
    refine ⟨List.mem_cons_of_mem first hp, hknown, hseen, ?_⟩
    intro q hq hsame
    rcases List.mem_cons.mp hq with rfl | hq
    · rw [hsame] at h
      exact absurd h (not_or.mpr ⟨hknown, hseen⟩)
    · exact hleast q hq hsame

/-- Any other instance is kept, and its type has been seen from there on. -/
theorem keeps_cons_of_fresh (hbefore : ∀ q ∈ placed, first.1 < q.1)
    (hknown : first.2.typeName.upper ∉ known) (hseen : first.2.typeName.upper ∉ seen) :
    Keeps known seen (first :: placed) p ↔
      p = first ∨ Keeps known (first.2.typeName.upper :: seen) placed p := by
  constructor
  · rintro ⟨hp, hknown', hseen', hleast⟩
    rcases List.mem_cons.mp hp with rfl | hp
    · exact .inl rfl
    · have hne : p.2.typeName.upper ≠ first.2.typeName.upper := by
        intro hsame
        have hle := hleast first List.mem_cons_self hsame.symm
        exact absurd (hbefore p hp) (Nat.not_lt_of_le hle)
      exact .inr ⟨hp, hknown', List.not_mem_cons_of_ne_of_not_mem hne hseen',
        fun q hq => hleast q (List.mem_cons_of_mem first hq)⟩
  · rintro (rfl | ⟨hp, hknown', hseen', hleast⟩)
    · refine ⟨List.mem_cons_self, hknown, hseen, ?_⟩
      -- the new one lies before all others, so that none of its type is before it
      intro q hq _
      rcases List.mem_cons.mp hq with rfl | hq
      · exact Nat.le_refl _
      · exact Nat.le_of_lt (hbefore q hq)
    · obtain ⟨hne, hseen'⟩ := List.ne_and_not_mem_of_not_mem_cons hseen'
      refine ⟨List.mem_cons_of_mem first hp, hknown', hseen', ?_⟩
      intro q hq hsame
      rcases List.mem_cons.mp hq with rfl | hq
      · exact absurd hsame.symm hne
      · exact hleast q hq hsame

end Steps

/-- **What is kept** of instances at increasing places. -/
theorem exists_firsts (known seen : List Text) {placed : List (Nat × Instance)}
    (hplaced : placed.Pairwise fun p q => p.1 < q.1) :
    ∃ firsts : List (Nat × Instance), firsts.Sublist placed ∧
      firsts.map Prod.snd = unknownAfter known seen (placed.map Prod.snd) ∧
      ∀ p, p ∈ firsts ↔ Keeps known seen placed p := by
  -- on the instances; what has been seen grows with every one that is kept
  induction placed generalizing seen with
  | nil =>
    refine ⟨[], List.Sublist.refl [], rfl, fun p => iff_of_false List.not_mem_nil ?_⟩
    rintro ⟨hp, -⟩
    exact List.not_mem_nil hp
  | cons first placed ih =>
    obtain ⟨hbefore, hplaced⟩ := List.pairwise_cons.mp hplaced
    rw [List.map_cons, unknownAfter]
    split
    · next hpassed =>
      obtain ⟨firsts, hsublist, hmap, hmem⟩ := ih seen hplaced
      refine ⟨firsts, hsublist.cons first, hmap, fun p => ?_⟩
      rw [hmem, keeps_cons_of_passed hpassed]
    · next hfresh =>
      obtain ⟨hknown, hseen⟩ := not_or.mp hfresh
      obtain ⟨firsts, hsublist, hmap, hmem⟩ := ih (first.2.typeName.upper :: seen) hplaced
      refine ⟨first :: firsts, hsublist.cons_cons first, by rw [List.map_cons, hmap], fun p => ?_⟩
      rw [List.mem_cons, hmem, keeps_cons_of_fresh hbefore hknown hseen]

/-! ### The unknown types -/

variable {known types types' : List Text} {c : Text}

/-- **The unknown types** of a content, in the order in which they first appear. -/
def ListsUnknown (known : List Text) (c : Text) (types : List Text) : Prop :=
  ∃ places : List (Nat × Text), places.Pairwise (fun p q => p.1 < q.1) ∧
    (∀ i name, (i, name) ∈ places ↔ name ∉ known ∧ FirstDeclares c i name) ∧
    types = places.map Prod.snd

/-- **There is only one such list.** -/
theorem ListsUnknown.unique (h : ListsUnknown known c types) (h' : ListsUnknown known c types') :
    types = types' := by
  obtain ⟨places, hincreasing, hmem, rfl⟩ := h
  obtain ⟨places', hincreasing', hmem', rfl⟩ := h'
  have hirrefl : Std.Irrefl fun p q : Nat × Text => p.1 < q.1 := ⟨fun p => Nat.lt_irrefl p.1⟩
  have hasymm : Std.Asymm fun p q : Nat × Text => p.1 < q.1 := ⟨fun p q => Nat.lt_asymm⟩
  -- places in increasing order are determined by which they are
  have hplaces : places = places' := hincreasing.eq_of_mem_iff hincreasing' fun ⟨i, name⟩ => by
    rw [hmem, hmem']
  rw [hplaces]

/-- A list of unknown types has just the types that are declared and not known. -/
theorem ListsUnknown.mem_iff (h : ListsUnknown known c types) {name : Text} :
    name ∈ types ↔ name ∉ known ∧ ∃ i, Declares c i name := by
  obtain ⟨places, -, hmem, rfl⟩ := h
  rw [List.mem_map]
  constructor
  · rintro ⟨⟨i, name⟩, hp, rfl⟩
    obtain ⟨hknown, hfirst⟩ := (hmem i name).mp hp
    exact ⟨hknown, i, hfirst.1⟩
  · rintro ⟨hknown, i, hi⟩
    obtain ⟨k, -, hk⟩ := hi.exists_first
    exact ⟨(k, name), (hmem k name).mpr ⟨hknown, hk⟩, rfl⟩

/-- The instances of a content with the places of their declarations. -/
private theorem exists_placed (c : Text) : ∃ placed : List (Nat × Instance),
    placed.Pairwise (fun p q => p.1 < q.1) ∧ placed.map Prod.snd = (Layout.of c).instances ∧
    (∀ p ∈ placed, InData c p.1 ∧ TellsOf c p.1 p.2) ∧
    ∀ i, Declaration.StartsAt c i → InData c i → ∃ p ∈ placed, p.1 = i := by
  obtain ⟨starts, hincreasing, hmem, htells⟩ := Layout.exists_starts c
  -- places and instances are as many, and belong together one by one
  obtain ⟨hlength, hzip⟩ := List.forall₂_iff_zip.mp htells
  have hfst : (starts.zip (Layout.of c).instances).map Prod.fst = starts :=
    List.map_fst_zip (Nat.le_of_eq hlength)
  refine ⟨starts.zip (Layout.of c).instances, ?_, List.map_snd_zip (Nat.le_of_eq hlength.symm), ?_,
    ?_⟩
  · rw [← List.pairwise_map (f := Prod.fst), hfst]
    exact hincreasing
  · rintro ⟨i, instanceAt⟩ hp
    have hi : i ∈ starts := by
      rw [← hfst]
      exact List.mem_map_of_mem hp
    exact ⟨((hmem i).mp hi).2, hzip hp⟩
  · intro i hstarts hdata
    have hi := (hmem i).mpr ⟨hstarts, hdata⟩
    rw [← hfst] at hi
    exact List.mem_map.mp hi

/-- **The instances that are kept** are those at the first places of the unknown types. -/
theorem exists_firsts_unknown (known : List Text) (c : Text) :
    ∃ firsts : List (Nat × Instance), firsts.Pairwise (fun p q => p.1 < q.1) ∧
      firsts.map Prod.snd = unknown known (Layout.of c).instances ∧
      (∀ p ∈ firsts, InData c p.1 ∧ TellsOf c p.1 p.2) ∧
      ∀ i name, (∃ p ∈ firsts, p.1 = i ∧ p.2.typeName.upper = name) ↔
        name ∉ known ∧ FirstDeclares c i name := by
  obtain ⟨placed, hincreasing, hmap, htells, hcovers⟩ := exists_placed c
  obtain ⟨firsts, hsublist, hunknown, hmem⟩ := exists_firsts known [] hincreasing
  -- the declarations of the data section are those of the instances
  have hdeclares : ∀ p ∈ placed, Declares c p.1 p.2.typeName.upper := by
    intro p hp
    obtain ⟨hdata, d, -, hstands, -, hname, -⟩ := htells p hp
    exact ⟨hdata, d, hstands, by rw [hname]⟩
  have hplaced : ∀ i name, Declares c i name →
      ∃ p ∈ placed, p.1 = i ∧ p.2.typeName.upper = name := by
    rintro i name h
    obtain ⟨hdata, d, hstands, -⟩ := id h
    obtain ⟨p, hp, rfl⟩ := hcovers i ⟨d, hstands⟩ hdata
    exact ⟨p, hp, rfl, (hdeclares p hp).unique h⟩
  refine ⟨firsts, hincreasing.sublist hsublist, by rw [hunknown, hmap]; rfl,
    fun p hp => htells p (hsublist.subset hp), fun i name => ?_⟩
  constructor
  · rintro ⟨p, hp, rfl, rfl⟩
    obtain ⟨hp, hknown, -, hleast⟩ := (hmem p).mp hp
    refine ⟨hknown, hdeclares p hp, fun k hk => ?_⟩
    obtain ⟨q, hq, rfl, hsame⟩ := hplaced k _ hk
    exact hleast q hq hsame
  · rintro ⟨hknown, hfirst, hleast⟩
    obtain ⟨p, hp, rfl, rfl⟩ := hplaced i name hfirst
    refine ⟨p, (hmem p).mpr ⟨hp, hknown, List.not_mem_nil, fun q hq hsame => ?_⟩, rfl, rfl⟩
    have hq' := hdeclares q hq
    rw [hsame] at hq'
    exact hleast q.1 hq'

/-- **The types of these instances** are the unknown ones in their order. -/
theorem listsUnknown_unknown (known : List Text) (c : Text) :
    ListsUnknown known c ((unknown known (Layout.of c).instances).map Instance.typeName) := by
  obtain ⟨firsts, hincreasing, hmap, htells, hfirsts⟩ := exists_firsts_unknown known c
  refine ⟨firsts.map fun p => (p.1, p.2.typeName.upper), ?_, fun i name => ?_, ?_⟩
  · rw [List.pairwise_map]
    exact hincreasing
  · rw [← hfirsts]
    simp only [List.mem_map, Prod.mk.injEq]
  · rw [← hmap, List.map_map, List.map_map]
    refine List.map_congr_left fun p hp => ?_
    obtain ⟨-, d, -, hstands, -, hname, -⟩ := htells p hp
    show p.2.typeName = p.2.typeName.upper
    rw [hname, hstands.upper_typeName]

/-! ### The earliest instance -/

/-- **The earliest instance** of a type that is not known. -/
structure IsEarliest (known : List Text) (c : Text) (i : Nat) (d : Declaration) : Prop where
  inData : InData c i
  stands : Declaration.StandsAt c i d
  notMem : d.typeName.upper ∉ known
  least : ∀ k name, Declares c k name → name ∉ known → i ≤ k

/-- The first instance that is kept is the earliest one. -/
theorem exists_isEarliest {first : Instance} {others : List Instance}
    (h : unknown known (Layout.of c).instances = first :: others) :
    ∃ i d l, IsEarliest known c i d ∧ first.label = "#" ++ d.number ∧
      c.LiesIn i first.line l := by
  obtain ⟨firsts, hincreasing, hmap, htells, hfirsts⟩ := exists_firsts_unknown known c
  rw [h] at hmap
  obtain ⟨⟨i, instanceAt⟩, rest, rfl, rfl, -⟩ := List.map_eq_cons_iff.mp hmap
  obtain ⟨hdata, d, l, hstands, hlabel, hname, hline⟩ := htells _ List.mem_cons_self
  have hfirst := (hfirsts i _).mp ⟨_, List.mem_cons_self, rfl, rfl⟩
  refine ⟨i, d, l, ⟨hdata, hstands, ?_, fun k name hk hknown => ?_⟩, hlabel, hline⟩
  · rw [← hname]
    exact hfirst.1
  · -- the first place of the other type is among the places, and none lies before the head
    obtain ⟨first, hle, hfirst⟩ := hk.exists_first
    obtain ⟨p, hp, rfl, -⟩ := (hfirsts first name).mpr ⟨hknown, hfirst⟩
    rcases List.mem_cons.mp hp with rfl | hp
    · exact hle
    · exact (Nat.le_of_lt ((List.pairwise_cons.mp hincreasing).1 p hp)).trans hle

/-! ### What is said about types -/

/-- **The names that a warning shows**, with the number of those that it leaves out. -/
def shown (limit : Nat) (types : List Text) : Text :=
  Text.join ", " (types.take limit) ++
    if limit < types.length then " and " ++ Text.ofNat (types.length - limit) ++ " more" else ""

/-- A limit that is not negative counts the names that are shown. -/
theorem preview_natCast (limit : Nat) (types : List Text) :
    preview limit types = shown limit types := by
  unfold preview shown
  dsimp only
  rw [Int.toNat_natCast]
  by_cases hlt : limit < types.length
  · have hsub : (types.length : Int) - limit = (types.length - limit : Nat) := by omega
    rw [if_pos (Int.ofNat_lt.mpr hlt), if_pos hlt, hsub, Text.ofInt, if_neg (by omega),
      Int.natAbs_natCast]
    simp only [List.append_assoc]
  · rw [if_neg (mt Int.ofNat_lt.mp hlt), if_neg hlt]
    exact (List.append_nil _).symm

/-- **The warning about the unknown types** of a content. -/
structure WarnsOf (rules : EntityRules) (c : Text) (types : List Text) (o : Outcome) : Prop where
  severity : o.severity = .warning
  code : o.code = .typeError
  rule : o.rule = some Rule.entityTypeValidation.name
  /-- The first types are named, as many as the policy allows, and the others are counted. -/
  observed : ∃ limit : Nat, (limit : Int) = rules.previewLimit ∧
    (types.take limit).length = min limit types.length ∧
    (types.take limit).length + (types.length - limit) = types.length ∧
    o.observed = "Unknown or uncommon IFC entity types found: " ++ shown limit types
  /-- The line and the name are those of the earliest instance of an unknown type. -/
  place : ∃ i d number l, IsEarliest rules.known c i d ∧ o.instanceId = some ("#" ++ d.number) ∧
    c.LiesIn i number l ∧ o.line = some (number : Int)

/-- **The finding about unknown types** warns of all of them. -/
theorem warnsOf_unknownFinding {rules : EntityRules} (hlimit : 0 ≤ rules.previewLimit)
    {first : Instance} {others : List Instance}
    (h : unknown rules.known (Layout.of c).instances = first :: others) :
    WarnsOf rules c ((first :: others).map Instance.typeName)
      ((unknownFinding rules first others).outcome .entities) where
  severity := rfl
  code := rfl
  rule := rfl
  observed := by
    obtain ⟨limit, hlimit⟩ := Int.eq_ofNat_of_zero_le hlimit
    refine ⟨limit, hlimit.symm, List.length_take, ?_, ?_⟩
    · rw [List.length_take]
      omega
    · show _ ++ preview rules.previewLimit _ = _
      rw [hlimit, preview_natCast]
  place := by
    obtain ⟨i, d, l, hearliest, hlabel, hline⟩ := exists_isEarliest h
    exact ⟨i, d, first.line, l, hearliest, congrArg some hlabel, hline, rfl⟩

/-- **What is to be said about the entity types** of a content under a policy. -/
structure TellsTypes (P : Policy) (c : Text) : Prop where
  /-- There is one list of the unknown types in the order in which they first appear. -/
  determined : ∃! types, ListsUnknown P.entities.known c types
  /-- The number of instances is stated first, and then there is a warning just when the list is not
  empty. -/
  told : ∀ types, ListsUnknown P.entities.known c types → ∃ count warnings,
    CheckGroup.entities.outcomes P (Layout.of c) = count :: warnings ∧
    (count.severity = .passed ∧ count.rule = some Rule.entityInstancesPresent.name ∧
      count.observed = Text.ofNat {i | Declaration.StartsAt c i ∧ InData c i}.ncard
        ++ " IFC entities found and recognized") ∧
    (types = [] → warnings = []) ∧ (types ≠ [] → ∃ o, warnings = [o] ∧ WarnsOf P.entities c types o)

/-- **Where instances are declared**, they are counted, and the unknown ones come to one finding. -/
theorem exists_findings (P : Policy) {c : Text}
    (hdeclared : ∃ i, Declaration.StartsAt c i ∧ InData c i) : ∃ warnings,
    CheckGroup.entities.findings P (Layout.of c)
      = countFinding (Layout.of c).instances :: warnings ∧
    (unknown P.entities.known (Layout.of c).instances = [] → warnings = []) ∧
    ∀ first others, unknown P.entities.known (Layout.of c).instances = first :: others →
      warnings = [unknownFinding P.entities first others] := by
  have hne : (Layout.of c).instances.isEmpty = false := by
    rw [List.isEmpty_eq_false_iff]
    exact Layout.instances_ne_nil_iff.mpr hdeclared
  obtain ⟨-, -, data, hdata, -⟩ := hdeclared
  show ∃ warnings, check P.entities (Layout.of c) = _ :: warnings ∧ _
  unfold check
  rw [hdata]
  dsimp only
  rw [hne, if_neg Bool.false_ne_true]
  refine ⟨_, rfl, fun hnone => ?_, fun first others hunknown => ?_⟩
  · rw [hnone]
  · rw [hunknown]

/-- **Unknown entity types**, under every accepted policy and in every content that declares an
instance in its data section. -/
theorem tells_types {P : Policy} (hP : P.Accepted) {c : Text}
    (hdeclared : ∃ i, Declaration.StartsAt c i ∧ InData c i) : TellsTypes P c := by
  have hlists := listsUnknown_unknown P.entities.known c
  refine ⟨⟨_, hlists, fun types h => h.unique hlists⟩, fun types h => ?_⟩
  obtain rfl := h.unique hlists
  -- the first finding counts the declarations, and a second one is there if some type is unknown
  obtain ⟨warnings, hfindings, hnil, hcons⟩ := exists_findings P hdeclared
  have hlimit : 0 ≤ P.entities.previewLimit :=
    Int.le_trans (by decide) hP.one_le_previewLimit
  unfold CheckGroup.outcomes
  rw [hfindings, List.map_cons]
  refine ⟨_, _, rfl, ⟨rfl, rfl, ?_⟩, fun hnone => ?_, fun hsome => ?_⟩
  · rw [← Layout.length_instances]
    rfl
  · rw [hnil (List.map_eq_nil_iff.mp hnone), List.map_nil]
  · have hne := mt List.map_eq_nil_iff.mpr hsome
    obtain ⟨first, others, hunknown⟩ := List.exists_cons_of_ne_nil hne
    rw [hcons first others hunknown, hunknown]
    exact ⟨_, rfl, warnsOf_unknownFinding hlimit hunknown⟩

/-- A content with six unknown types, of which the bundled policy shows five. -/
def sixUnknown : Text :=
  "DATA;#1=IFCWALL();#2=B();#3=A();#4=B();\n#5=C();#6=D();#7=E();#8=F();ENDSEC;"

theorem tells_types_sixUnknown : TellsTypes Policy.bundled sixUnknown ∧
    ListsUnknown Policy.bundled.entities.known sixUnknown ["B", "A", "C", "D", "E", "F"] := by
  have hunknown : (unknown Policy.bundled.entities.known (Layout.of sixUnknown).instances).map
      Instance.typeName = (["B", "A", "C", "D", "E", "F"] : List Text) := by
    decide +kernel
  refine ⟨tells_types Policy.accepted_bundled (Layout.instances_ne_nil_iff.mp ?_), ?_⟩
  · decide +kernel
  · rw [← hunknown]
    exact listsUnknown_unknown _ _

end EntityTypes

end StepCheck
