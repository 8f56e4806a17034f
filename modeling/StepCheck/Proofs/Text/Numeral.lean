import StepCheck.Text.Basic
import Mathlib

/-!
# Numerals read back

A numeral to the base 10 or 16 consists of digits that write its number, and it is as long as is
asked for if the number has room.

* `Text.numeral_ofNat`, `Text.numeral_hex` — the number that a numeral writes;
* `Text.isDigit_of_mem_ofNat`, `Text.mem_hex` — its characters;
* `Text.length_ofNat_le_iff`, `Text.length_hex` — its length.
-/

namespace StepCheck.Text

/-- Digits that stand for their numbers write the number of which they are the digits. -/
private theorem foldl_toDigits {base : Nat} {value : Char → Nat} (hbase : 1 < base)
    (h : ∀ d < base, value d.digitChar = d) (n : Nat) :
    (Nat.toDigits base n).foldl (fun n c => n * base + value c) 0 = n := by
  induction n using Nat.strongRecOn with
  | ind n ih =>
    by_cases hn : n < base
    · simp [Nat.toDigits_of_lt_base hn, h n hn]
    · have hle : base ≤ n := Nat.le_of_not_lt hn
      have hlt : n / base < n := Nat.div_lt_self (by omega) hbase
      rw [Nat.toDigits_of_base_le hbase hle, List.foldl_append, ih _ hlt, List.foldl_cons,
        List.foldl_nil, h _ (Nat.mod_lt _ (by omega)), Nat.div_add_mod']

/-- **Every digit of a numeral** is one to its base. -/
private theorem forall_mem_toDigits {base : Nat} {p : Char → Prop} (hbase : 1 < base)
    (h : ∀ d < base, p d.digitChar) (n : Nat) : ∀ c ∈ Nat.toDigits base n, p c := by
  induction n using Nat.strongRecOn with
  | ind n ih =>
    by_cases hn : n < base
    · simpa [Nat.toDigits_of_lt_base hn] using h n hn
    · have hle : base ≤ n := Nat.le_of_not_lt hn
      have hlt : n / base < n := Nat.div_lt_self (by omega) hbase
      intro c hc
      rw [Nat.toDigits_of_base_le hbase hle, List.mem_append, List.mem_singleton] at hc
      rcases hc with hc | rfl
      · exact ih _ hlt c hc
      · exact h _ (Nat.mod_lt _ (by omega))

/-! ### To the base 10 -/

/-- **A decimal numeral** writes its number. -/
@[simp] theorem numeral_ofNat (n : Nat) : numeral 10 (ofNat n) = n := by
  unfold numeral ofNat
  rw [List.foldl_map]
  exact foldl_toDigits (by decide) (by decide) n

/-- A decimal numeral consists of digits. -/
theorem isDigit_of_mem_ofNat {n : Nat} {c : CodePoint} (h : c ∈ ofNat n) : c.isDigit = true := by
  obtain ⟨d, hd, rfl⟩ := List.mem_map.mp h
  exact forall_mem_toDigits (p := fun c => (CodePoint.ofChar c).isDigit = true) (by decide)
    (by decide) n d hd

/-- There is no empty numeral. -/
theorem ofNat_ne_nil (n : Nat) : ofNat n ≠ [] := by
  simp [ofNat, Nat.toDigits_ne_nil]

/-- The length of a decimal numeral tells how large its number is. -/
theorem length_ofNat_le_iff {n k : Nat} (h : 0 < k) : (ofNat n).length ≤ k ↔ n < 10 ^ k := by
  rw [ofNat, List.length_map]
  exact Nat.length_toDigits_le_iff (by decide) h

/-- Only the numeral of zero begins with a zero. -/
theorem head?_ofNat {n : Nat} (h : n ≠ 0) : (ofNat n).head? ≠ some (CodePoint.ofChar '0') := by
  induction n using Nat.strongRecOn with
  | ind n ih =>
    by_cases hn : n < 10
    · have : ∀ n < 10, n ≠ 0 → (ofNat n).head? ≠ some (CodePoint.ofChar '0') := by decide
      exact this n hn h
    · have hlt : n / 10 < n := Nat.div_lt_self (by omega) (by decide)
      have hne := ih _ hlt (by omega)
      rw [ofNat, Nat.toDigits_of_base_le (by decide) (by omega), List.map_append,
        List.head?_append_of_ne_nil _ (by simp [Nat.toDigits_ne_nil])]
      exact hne

/-! ### To the base 16 -/

/-- Zeros in front do not count. -/
private theorem numeral_replicate_append (base n : Nat) (t : Text) :
    numeral base (List.replicate n (CodePoint.ofChar '0') ++ t) = numeral base t := by
  have hzero : (CodePoint.ofChar '0').digitValue = 0 := by decide
  have h : (List.replicate n (CodePoint.ofChar '0')).foldl (fun n c => n * base + c.digitValue) 0
      = 0 := by
    induction n with
    | zero => rfl
    | succ n ih => rw [List.replicate_succ, List.foldl_cons, hzero, Nat.zero_mul, ih]
  unfold numeral
  rw [List.foldl_append, h]

/-- A character of a numeral to the base 16 with small letters. -/
theorem mem_hex {width n : Nat} {c : CodePoint} (h : c ∈ hex width n) :
    ∃ d < 16, c = CodePoint.ofChar d.digitChar := by
  unfold hex at h
  rcases List.mem_append.mp h with h | h
  · exact ⟨0, by decide, (List.mem_replicate.mp h).2⟩
  · obtain ⟨d, hd, rfl⟩ := List.mem_map.mp h
    obtain ⟨k, hk, rfl⟩ := forall_mem_toDigits (p := fun c => ∃ d < 16, c = d.digitChar)
      (by decide) (fun d hd => ⟨d, hd, rfl⟩) n d hd
    exact ⟨k, hk, rfl⟩

/-- **A numeral to the base 16** writes its number. -/
@[simp] theorem numeral_hex (width n : Nat) : numeral 16 (hex width n) = n := by
  unfold hex
  dsimp only
  rw [numeral_replicate_append, numeral, List.foldl_map]
  exact foldl_toDigits (by decide) (by decide) n

/-- A numeral to the base 16 is as long as is asked for. -/
theorem length_hex {width n : Nat} (hwidth : 0 < width) (h : n < 16 ^ width) :
    (hex width n).length = width := by
  have hle := (Nat.length_toDigits_le_iff (by decide) hwidth).mpr h
  simp only [hex, List.length_append, List.length_replicate, List.length_map]
  omega

/-- The number is the same with capital letters. -/
theorem numeral_asciiCapitals_hex (width n : Nat) : numeral 16 (hex width n).asciiCapitals = n := by
  have hdigit : ∀ d < 16, (fun c : CodePoint =>
      (if c.isSmall then CodePoint.ofNat (c.val - 0x20) else c).digitValue = c.digitValue)
      (CodePoint.ofChar d.digitChar) := by
    decide
  have hcapitals : numeral 16 (hex width n).asciiCapitals = numeral 16 (hex width n) := by
    unfold asciiCapitals numeral
    rw [List.foldl_map]
    refine List.foldl_ext _ _ _ fun m c hc => ?_
    obtain ⟨d, hd, rfl⟩ := mem_hex hc
    exact congrArg (m * 16 + ·) (hdigit d hd)
  rw [hcapitals, numeral_hex]

end StepCheck.Text
