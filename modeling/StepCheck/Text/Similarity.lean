import StepCheck.Text.Basic

/-!
# Similarity of texts

How much two texts have in common is counted from their longest common stretch, and from what lies
on either side of it in turn. A misspelt word is compared in this way with the words that are known.

* `Text.common` — the number of code points in common;
* `Text.similar` — the known words most similar to a word.
-/

namespace StepCheck.Text

/-- **A common stretch** of two texts. -/
structure Stretch where
  /-- Where it begins in the first text, and where in the second. -/
  first : Nat
  second : Nat
  length : Nat
deriving DecidableEq

/-- The number of code points that two texts have in common at their front. -/
def commonFront : Text → Text → Nat
  | c :: s, d :: t => if c = d then commonFront s t + 1 else 0
  | _, _ => 0

/-- The longer of two stretches, the first of equally long ones. -/
def Stretch.longer (a b : Stretch) : Stretch := if a.length < b.length then b else a

/-- The longest common stretch; of several the one that begins first in the first text, and then in
the second. -/
def longestStretch (s t : Text) : Stretch :=
  (List.range s.length).foldl (fun best i =>
    (List.range t.length).foldl (fun best j =>
      best.longer ⟨i, j, commonFront (s.drop i) (t.drop j)⟩) best) ⟨0, 0, 0⟩

/-- The number of code points in common, where at most `most` stretches are looked for in a row. -/
def commonWithin : (most : Nat) → Text → Text → Nat
  | 0, _, _ => 0
  | most + 1, s, t =>
    let l := longestStretch s t
    if l.length = 0 then 0
    else
      l.length + commonWithin most (s.take l.first) (t.take l.second)
        + commonWithin most (s.drop (l.first + l.length)) (t.drop (l.second + l.length))

/-- **The number of code points in common.** -/
def common (s t : Text) : Nat := commonWithin s.length s t

/-- Whether texts have at least three fifths of their code points in common. -/
def isSimilar (s t : Text) : Bool :=
  -- the ratio is twice the common part by the total
  let total := s.length + t.length
  total == 0 || 3 * total ≤ 10 * common s t

/-- Whether `s` is less similar to `word` than `t` is, or as similar but earlier in the alphabet. -/
def lessSimilar (word s t : Text) : Bool :=
  -- the ratios are compared by cross-multiplication
  let a := common s word * (t.length + word.length)
  let b := common t word * (s.length + word.length)
  a < b || (a == b && before s t)

/-- Most words that are suggested. -/
def mostSimilar : Nat := 3

/-- **The known words most similar to a word**, in alphabetical order. -/
def similar (word : Text) (known : List Text) : List Text :=
  let near := (known.filter fun k => isSimilar k word).mergeSort fun s t => !lessSimilar word s t
  (near.take mostSimilar).mergeSort fun s t => !before t s

end StepCheck.Text
