import StepCheck.Proofs.Text.Numeral
import StepCheck.Proofs.Text.Padding

/-!
# Texts in capitals

A text in capitals is the same in capitals once more: what a character becomes consists of
characters that become nothing else. That is a property of the two tables, so each of the many code
points that have another capital is to be held against each of those that are a part of one. They
are compared all at once, as sets of numbers that are the bits of one number each.

* `bitsOf`, `testBit_bitsOf` — a set of numbers as the bits of one;
* `CodePoint.upper_of_mem_upper`, `Text.upper_upper` — capitals are their own capitals;
* `Text.IsNormal` — texts in capitals without white space at their ends;
* `Text.isNormal_upper_strip`, `Text.isNormal_ofNat` — what is stripped and then put in capitals is
  such a text, and so is a numeral.
-/

namespace StepCheck

/-! ### Sets of numbers -/

/-- **A set of numbers** as the bits of one number. -/
def bitsOf : List Nat → Nat
  | [] => 0
  | n :: ns => 2 ^ n ||| bitsOf ns

/-- A number is in the list if its bit is set. -/
theorem testBit_bitsOf {n : Nat} {ns : List Nat} : (bitsOf ns).testBit n = true ↔ n ∈ ns := by
  induction ns with
  | nil => rw [bitsOf, Nat.zero_testBit, List.mem_nil_iff, Bool.false_eq_true]
  | cons m ns ih =>
    rw [bitsOf, Nat.testBit_or, Bool.or_eq_true, ih, Nat.testBit_two_pow, decide_eq_true_iff,
      List.mem_cons, eq_comm]

/-- Sets of numbers whose bits exclude each other have no number in common. -/
theorem notMem_of_and_eq_zero {n : Nat} {ms ns : List Nat} (h : bitsOf ms &&& bitsOf ns = 0)
    (hn : n ∈ ms) : n ∉ ns := by
  intro hn'
  have hbit : (bitsOf ms &&& bitsOf ns).testBit n = Nat.testBit 0 n := by rw [h]
  rw [Nat.testBit_and, testBit_bitsOf.mpr hn, testBit_bitsOf.mpr hn', Nat.zero_testBit] at hbit
  cases hbit

/-- Numbers whose bits lie below a place lie below it. -/
theorem lt_of_bitsOf_lt {n bound : Nat} {ns : List Nat} (h : bitsOf ns < 2 ^ bound) (hn : n ∈ ns) :
    n < bound := by
  rw [← not_le]
  intro hle
  have hpow : 2 ^ bound ≤ 2 ^ n := Nat.pow_le_pow_right (by decide) hle
  have hbit := Nat.testBit_lt_two_pow (Nat.lt_of_lt_of_le h hpow)
  rw [testBit_bitsOf.mpr hn] at hbit
  cases hbit

/-! ### Characters with another capital -/

/-- The members of a run. -/
def CaseRun.members (run : CaseRun) : List Nat :=
  List.range' run.first ((run.last - run.first) / run.step + 1) run.step

/-- A number in a run is one of its members. -/
theorem CaseRun.mem_members {run : CaseRun} {n : Nat} (h : run.has n = true) :
    n ∈ run.members := by
  unfold has at h
  rw [Bool.and_eq_true, Bool.and_eq_true, decide_eq_true_iff, decide_eq_true_iff,
    beq_iff_eq] at h
  obtain ⟨⟨hfirst, hlast⟩, hstep⟩ := h
  rw [members, List.mem_range']
  refine ⟨(n - run.first) / run.step, ?_, ?_⟩
  · exact Nat.lt_succ_of_le (Nat.div_le_div_right (Nat.sub_le_sub_right hlast _))
  · rw [Nat.mul_div_cancel' (Nat.dvd_of_mod_eq_zero hstep)]
    omega

namespace CodePoint

variable {c d : CodePoint}

/-- The numbers of the code points that have another capital. -/
def withCapital : List Nat :=
  List.range' 0x61 26 ++ (upperRuns.flatMap CaseRun.members ++ upperExpansions.map Prod.fst)

/-- The numbers of the code points that are the capital of another one, or a part of it. -/
def capitals : List Nat :=
  List.range' 0x41 26 ++
    ((upperRuns.flatMap fun run => run.members.map fun n : Nat => ((n : Int) + run.shift).toNat)
      ++ upperExpansions.flatMap Prod.snd)

/-- No capital has a capital itself. -/
theorem bitsOf_capitals_and_withCapital : bitsOf capitals &&& bitsOf withCapital = 0 := by
  decide +kernel

theorem bitsOf_capitals_lt : bitsOf capitals < 2 ^ 0x110000 := by
  decide +kernel

/-- The number of a capital is that of a code point. -/
theorem val_ofNat_of_mem_capitals {n : Nat} (h : n ∈ capitals) : (ofNat n).val = n :=
  val_ofNat (lt_of_bitsOf_lt bitsOf_capitals_lt h)

/-- Beyond ASCII as well as in it, **a code point is its own capital** or has another one, which
consists of capitals. -/
theorem upperBeyondAscii_cases (c : CodePoint) :
    c.upperBeyondAscii = [c] ∨
      (c.val ∈ withCapital ∧ ∀ d ∈ c.upperBeyondAscii, d.val ∈ capitals) := by
  unfold upperBeyondAscii
  split
  · next parts hparts =>
    -- the capital consists of several code points
    have hmem : (c.val, parts) ∈ upperExpansions := mem_of_lookup_eq_some hparts
    have hsource : c.val ∈ upperExpansions.map Prod.fst := List.mem_map_of_mem (f := Prod.fst) hmem
    refine .inr ⟨List.mem_append_right _ (List.mem_append_right _ hsource), ?_⟩
    intro d hd
    obtain ⟨n, hn, rfl⟩ := List.mem_map.mp hd
    have hpart : n ∈ upperExpansions.flatMap Prod.snd := List.mem_flatMap.mpr ⟨_, hmem, hn⟩
    have hcapital : n ∈ capitals := List.mem_append_right _ (List.mem_append_right _ hpart)
    rwa [val_ofNat_of_mem_capitals hcapital]
  · split
    · next shift hshift =>
      -- the code point is moved with its run
      obtain ⟨run, hrun, hhas, rfl⟩ := exists_has_of_shiftOf? hshift
      have hmember := CaseRun.mem_members hhas
      have hsource : c.val ∈ upperRuns.flatMap CaseRun.members :=
        List.mem_flatMap.mpr ⟨run, hrun, hmember⟩
      refine .inr ⟨List.mem_append_right _ (List.mem_append_left _ hsource), ?_⟩
      intro d hd
      have hcapital : ((c.val : Int) + run.shift).toNat ∈ capitals :=
        List.mem_append_right _ (List.mem_append_left _
          (List.mem_flatMap.mpr ⟨run, hrun, List.mem_map_of_mem hmember⟩))
      rw [List.mem_singleton.mp hd, val_ofNat_of_mem_capitals hcapital]
      exact hcapital
    · exact .inl rfl

/-- **A code point** is its own capital, or its capitals are capitals. -/
theorem upper_cases (c : CodePoint) :
    c.upper = [c] ∨ (c.val ∈ withCapital ∧ ∀ d ∈ c.upper, d.val ∈ capitals) := by
  unfold upper
  split
  · next hsmall =>
    -- the small letters of ASCII are 32 above their capitals
    rw [isSmall_iff] at hsmall
    have hsource : c.val ∈ List.range' 0x61 26 := List.mem_range'_1.mpr (by omega)
    have hletter : c.val - 0x20 ∈ List.range' 0x41 26 := List.mem_range'_1.mpr (by omega)
    have hcapital : c.val - 0x20 ∈ capitals := List.mem_append_left _ hletter
    refine .inr ⟨List.mem_append_left _ hsource, ?_⟩
    intro d hd
    rw [List.mem_singleton.mp hd, val_ofNat_of_mem_capitals hcapital]
    exact hcapital
  · split
    · exact .inl rfl
    · exact c.upperBeyondAscii_cases

/-- **Capitals are their own capitals.** -/
theorem upper_of_mem_upper (h : d ∈ c.upper) : d.upper = [d] := by
  rcases c.upper_cases with hself | ⟨-, hcapitals⟩
  · rw [hself] at h
    rw [List.mem_singleton.mp h, hself]
  · -- no part of a capital is among the code points that have another one
    refine d.upper_cases.resolve_right fun hd => ?_
    exact notMem_of_and_eq_zero bitsOf_capitals_and_withCapital (hcapitals d h) hd.1

end CodePoint

namespace Text

variable {t : Text}

/-- A text whose characters are their own capitals is its own text in capitals. -/
theorem upper_eq_self (h : ∀ c ∈ t, c.upper = [c]) : t.upper = t := by
  induction t with
  | nil => rfl
  | cons c t ih =>
    obtain ⟨hc, ht⟩ := List.forall_mem_cons.mp h
    rw [upper_cons, hc, ih ht]
    rfl

/-- **A text in capitals** is the same in capitals once more. -/
theorem upper_upper (t : Text) : t.upper.upper = t.upper := by
  refine upper_eq_self fun d hd => ?_
  obtain ⟨c, -, hmem⟩ := List.mem_flatMap.mp hd
  exact CodePoint.upper_of_mem_upper hmem

/-! ### Texts in normal form -/

/-- **A text in normal form**: stripping leaves it as it is, and so do capitals. -/
structure IsNormal (t : Text) : Prop where
  strip : t.strip = t
  upper : t.upper = t

instance (t : Text) : Decidable t.IsNormal :=
  decidable_of_iff (t.strip = t ∧ t.upper = t)
    ⟨fun h => ⟨h.1, h.2⟩, fun h => ⟨h.strip, h.upper⟩⟩

/-- **Nothing is stripped** from a solid text. -/
theorem Solid.strip_eq (h : t.Solid) : t.strip = t := by
  obtain ⟨c, rest, hcons, hc⟩ := h.exists_cons
  obtain ⟨rest', d, hconcat, hd⟩ := h.exists_concat
  have hleft : t.stripLeft = t := by
    rw [hcons, stripLeft, List.dropWhile_cons_of_neg (by rw [hc]; exact Bool.false_ne_true)]
  rw [strip, hleft, hconcat, stripRight, List.reverse_concat,
    List.dropWhile_cons_of_neg (by rw [hd]; exact Bool.false_ne_true), List.reverse_cons,
    List.reverse_reverse]

/-- **A stripped text in capitals** is in normal form: capitals make no white space out of what
stands at its ends. -/
theorem isNormal_upper_strip (t : Text) : t.strip.upper.IsNormal where
  strip := by
    by_cases hempty : t.strip = []
    · rw [hempty]
      rfl
    · exact (solid_strip hempty).upper.strip_eq
  upper := upper_upper t.strip

/-- A text without white space, of characters that are their own capitals, is in normal form. -/
theorem isNormal_of_forall (h : ∀ c ∈ t, c.isBlank = false ∧ c.upper = [c]) : t.IsNormal where
  strip := by
    rcases List.eq_nil_or_concat' t with rfl | ⟨rest, d, hconcat⟩
    · rfl
    · obtain ⟨c, rest', hcons⟩ := List.exists_cons_of_ne_nil (l := t) (by
        rw [hconcat]
        exact List.concat_ne_nil d rest)
      have hc := h c (hcons ▸ List.mem_cons_self)
      have hd := h d (hconcat ▸ List.mem_concat_self)
      exact (solid_of_cons_of_concat hc.1 hd.1 hcons hconcat).strip_eq
  upper := upper_eq_self fun c hc => (h c hc).2

/-- **A numeral** is in normal form. -/
theorem isNormal_ofNat (n : Nat) : (ofNat n).IsNormal := by
  refine isNormal_of_forall fun c hc => ?_
  have hdigits : ∀ n < 0x3A, 0x30 ≤ n → inRanges n blankRanges = false := by decide
  have hdigit := CodePoint.isDigit_iff.mp (isDigit_of_mem_ofNat hc)
  refine ⟨hdigits c.val (by omega) hdigit.1, ?_⟩
  have hsmall : c.isSmall = false := by
    rw [← Bool.not_eq_true, CodePoint.isSmall_iff]
    omega
  rw [CodePoint.upper, hsmall, if_neg Bool.false_ne_true, if_pos (by omega)]

end Text

end StepCheck
