import StepCheck.Datum.Shown
import Mathlib

/-!
# Data that come back from a document

A document tells the entries of a record in the order of their keys, and a text may come back as
another one. Apart from that a datum should come back as it was.

* `Datum.put_eq_concat` — an entry under a new key;
* `Datum.reread` — a datum with its texts exchanged and its records in the order of their keys;
* `Datum.lookup?_reread` — what stands under the names of a record that has come back;
* `Datum.innerTexts` — the texts of a datum, its keys aside;
* `Datum.reread_eq_reread_id_iff` — nothing is lost just when no text is exchanged for another one.
-/

namespace StepCheck.Datum

/-- An entry under a new key stands behind those that are there. -/
theorem put_eq_concat {key value : Datum} {es : List (Datum × Datum)}
    (h : ∀ e ∈ es, sameKey e.1 key = false) : put key value es = es ++ [(key, value)] := by
  induction es with
  | nil => rfl
  | cons e es ih =>
    rw [List.forall_mem_cons] at h
    rw [put, h.1, ih h.2]
    rfl

/-- Texts count as one key just when they are equal. -/
theorem sameKey_text (s t : Text) : sameKey (.text s) (.text t) = decide (s = t) := by
  rw [sameKey]

/-- The order of keys. -/
def keyOrder (e f : Datum × Datum) : Bool := !f.1.shown.before e.1.shown

/-- What is made of entries stands in the order of the same keys. -/
theorem mergeSort_map {α : Type} {g : Datum × Datum → Text × α} (hg : ∀ e, (g e).1 = e.1.shown)
    (es : List (Datum × Datum)) :
    (es.map g).mergeSort (fun e f => !f.1.before e.1) = (es.mergeSort keyOrder).map g := by
  refine (List.map_mergeSort fun e _ f _ => ?_).symm
  rw [hg, hg]
  rfl

mutual
/-- **A datum that has come back**: every text as `f` tells, every record in the order of keys. -/
def reread (f : Text → Text) : Datum → Datum
  | .text t => .text (f t)
  | .list xs => .list (rereadAll f xs)
  | .record es => .record ((rereadEntries f es).mergeSort keyOrder)
  | d => d

/-- The items of a list that has come back. -/
def rereadAll (f : Text → Text) : List Datum → List Datum
  | [] => []
  | x :: xs => x.reread f :: rereadAll f xs

/-- The entries of a record that has come back, in their old order. -/
def rereadEntries (f : Text → Text) : List (Datum × Datum) → List (Datum × Datum)
  | [] => []
  | (k, v) :: es => (k, v.reread f) :: rereadEntries f es
end

mutual
/-- **The texts** of a datum, its keys aside. -/
def innerTexts : Datum → List Text
  | .text t => [t]
  | .list xs => textsOfAll xs
  | .record es => textsOfEntries es
  | _ => []

/-- The texts of the items of a list. -/
def textsOfAll : List Datum → List Text
  | [] => []
  | x :: xs => x.innerTexts ++ textsOfAll xs

/-- The texts of the values of a record. -/
def textsOfEntries : List (Datum × Datum) → List Text
  | [] => []
  | (_, v) :: es => v.innerTexts ++ textsOfEntries es
end

variable {f : Text → Text}

/-- A list is read again member by member. -/
theorem rereadAll_eq_map (xs : List Datum) : rereadAll f xs = xs.map (reread f) := by
  induction xs with
  | nil => rfl
  | cons x xs ih => rw [rereadAll, ih, List.map_cons]

/-- A record is read again value by value; its keys stay. -/
theorem rereadEntries_eq_map (es : List (Datum × Datum)) :
    rereadEntries f es = es.map fun e => (e.1, e.2.reread f) := by
  induction es with
  | nil => rfl
  | cons e es ih => rw [rereadEntries, ih, List.map_cons]

theorem reread_list (xs : List Datum) : reread f (.list xs) = .list (xs.map (reread f)) := by
  rw [reread, rereadAll_eq_map]

/-- The entries come back in the order in which they are told. -/
theorem reread_record (es : List (Datum × Datum)) :
    reread f (.record es)
      = .record ((es.mergeSort keyOrder).map fun e => (e.1, e.2.reread f)) := by
  rw [reread, rereadEntries_eq_map, ← List.map_mergeSort]
  exact fun _ _ _ _ => rfl

/-- Of entries under different keys every one is found under its key. -/
theorem lookup?_eq_some_iff {es : List (Datum × Datum)} (hnodup : (es.map Prod.fst).Nodup)
    (name : Text) (d : Datum) : lookup? name es = some d ↔ (.text name, d) ∈ es := by
  induction es with
  | nil => exact iff_of_false nofun List.not_mem_nil
  | cons e es ih =>
    obtain ⟨k, v⟩ := e
    rw [List.map_cons, List.nodup_cons] at hnodup
    have ih := ih hnodup.2
    by_cases hk : k = .text name
    · subst hk
      -- nothing else stands under the name
      have hnot : (Datum.text name, d) ∉ es := by
        intro hmem
        have hkey := List.mem_map_of_mem (f := Prod.fst) hmem
        exact hnodup.1 hkey
      rw [lookup?_cons_self, Option.some.injEq, List.mem_cons, or_iff_left hnot, Prod.mk.injEq,
        eq_self_iff_true, true_and, eq_comm]
    · have hskip : lookup? name ((k, v) :: es) = lookup? name es := by
        cases k with
        | text t => exact if_neg fun h => hk (congrArg Datum.text h)
        | _ => rfl
      rw [hskip, ih, List.mem_cons, Prod.mk.injEq, or_iff_right fun h => hk h.1.symm]

/-- **Under every name stands what stood there**, as it comes back. -/
theorem lookup?_reread {es : List (Datum × Datum)} (hnodup : (es.map Prod.fst).Nodup)
    {name : Text} {d : Datum} (h : (.text name, d) ∈ es) :
    lookup? name ((es.mergeSort keyOrder).map fun e => (e.1, e.2.reread f))
      = some (d.reread f) := by
  have hperm := (List.mergeSort_perm es keyOrder).map Prod.fst
  rw [lookup?_eq_some_iff]
  · exact List.mem_map_of_mem (f := fun e : Datum × Datum => (e.1, e.2.reread f))
      (List.mem_mergeSort.mpr h)
  · rw [List.map_map]
    exact hperm.nodup_iff.mpr hnodup

mutual
/-- **Nothing is lost just when every text comes back as it was.** -/
theorem reread_eq_reread_id_iff :
    ∀ d : Datum, d.reread f = d.reread id ↔ ∀ t ∈ d.innerTexts, f t = t
  | .text t => by simp [reread, innerTexts]
  | .list xs => by
    rw [reread, reread, innerTexts, ← rereadAll_eq_rereadAll_id_iff xs]
    simp
  | .record es => by
    rw [innerTexts, ← rereadEntries_eq_rereadEntries_id_iff es, reread_record, reread_record,
      rereadEntries_eq_map, rereadEntries_eq_map]
    simp [List.map_inj_left]
  | .null | .bool _ | .int _ | .real _ | .bytes _ | .day _ | .moment .. | .pair .. | .set _ => by
    simp [reread, innerTexts]

/-- Members change just if one of their texts does. -/
theorem rereadAll_eq_rereadAll_id_iff :
    ∀ xs : List Datum, rereadAll f xs = rereadAll id xs ↔ ∀ t ∈ textsOfAll xs, f t = t
  | [] => by simp [rereadAll, textsOfAll]
  | x :: xs => by
    rw [rereadAll, rereadAll, textsOfAll, List.cons.injEq, reread_eq_reread_id_iff x,
      rereadAll_eq_rereadAll_id_iff xs, List.forall_mem_append]

/-- The values of a record come back just if their texts do. -/
theorem rereadEntries_eq_rereadEntries_id_iff :
    ∀ es : List (Datum × Datum),
      rereadEntries f es = rereadEntries id es ↔ ∀ t ∈ textsOfEntries es, f t = t
  | [] => by simp [rereadEntries, textsOfEntries]
  | (k, v) :: es => by
    rw [rereadEntries, rereadEntries, textsOfEntries, List.cons.injEq, Prod.mk.injEq,
      reread_eq_reread_id_iff v, rereadEntries_eq_rereadEntries_id_iff es, List.forall_mem_append]
    simp
end

end StepCheck.Datum
