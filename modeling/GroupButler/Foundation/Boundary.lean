import Mathlib.Data.List.Basic

/-!
# Cuts at a boundary

A text is cut to a length by walking back from it to an element that may start a unit, so that no unit is
split. The start of the text counts as a boundary.
-/

namespace GroupButler.Foundation

universe u
variable {α : Type u} (start : α → Bool)

/-- The last boundary at or before a position. -/
def cutBack (s : List α) : Nat → Nat
  | 0 => 0
  | cut + 1 => if s[cut + 1]?.any start then cut + 1 else cutBack s cut

def cutTo (s : List α) (max : Nat) : List α := if s.length ≤ max then s else s.take (cutBack start s max)

variable {start}

theorem cutBack_start {s : List α} {cut : Nat} (boundary : s[cut + 1]?.any start = true) :
    cutBack start s (cut + 1) = cut + 1 := by rw [cutBack, if_pos boundary]

theorem cutBack_inside {s : List α} {cut : Nat} (inside : s[cut + 1]?.any start = false) :
    cutBack start s (cut + 1) = cutBack start s cut := by
  rw [cutBack, inside]
  rfl

theorem cutBack_le (s : List α) (cut : Nat) : cutBack start s cut ≤ cut := by
  induction cut with
  | zero => exact Nat.le_refl _
  | succ cut ih =>
    rw [cutBack]
    split
    · exact Nat.le_refl _
    · exact Nat.le_succ_of_le ih

/-- A cut behind a front is a cut of the rest, unless nothing of the rest is kept. -/
theorem cutBack_append (front s : List α) (n : Nat) :
    cutBack start (front ++ s) (front.length + n) =
      if cutBack start s n = 0 then cutBack start (front ++ s) front.length else front.length + cutBack start s n := by
  induction n with
  | zero => rfl
  | succ n ih =>
    have same : (front ++ s)[front.length + n + 1]? = s[n + 1]? := by
      rw [List.getElem?_append_right (by omega)]
      congr 1
      omega
    cases boundary : s[n + 1]?.any start with
    | true =>
      have there : (front ++ s)[front.length + n + 1]?.any start = true := by rw [same, boundary]
      rw [cutBack_start boundary, if_neg (by omega)]
      exact cutBack_start there
    | false =>
      have there : (front ++ s)[front.length + n + 1]?.any start = false := by rw [same, boundary]
      rw [cutBack_inside boundary, ← ih]
      exact cutBack_inside there

/-- What stands behind the cut does not matter. -/
theorem cutBack_front {s : List α} {cut : Nat} (inside : cut < s.length) (more : List α) :
    cutBack start (s ++ more) cut = cutBack start s cut := by
  induction cut with
  | zero => rfl
  | succ cut ih => rw [cutBack, cutBack, ih (by omega), List.getElem?_append_left inside]

theorem cutTo_whole {s : List α} {max : Nat} (fits : s.length ≤ max) : cutTo start s max = s := if_pos fits

theorem cutTo_cut {s : List α} {max : Nat} (long : max < s.length) : cutTo start s max = s.take (cutBack start s max) :=
  if_neg (by omega)

theorem length_cutTo (s : List α) (max : Nat) : (cutTo start s max).length ≤ max := by
  unfold cutTo
  split
  · assumption
  · have le := @cutBack_le _ start s max
    rw [List.length_take]
    omega

theorem cutTo_append {s : List α} {max : Nat} (long : max < s.length) (more : List α) :
    cutTo start (s ++ more) max = cutTo start s max := by
  have le := @cutBack_le _ start s max
  rw [cutTo_cut long, cutTo_cut (by rw [List.length_append]; omega), cutBack_front long,
    List.take_append_of_le_length (by omega)]

theorem cutBack_zero {s : List α} {cut : Nat} (inside : ∀ i < cut, s[i + 1]?.any start = false) : cutBack start s cut = 0 := by
  induction cut with
  | zero => rfl
  | succ cut ih => rw [cutBack_inside (inside cut (by omega)), ih fun i le => inside i (by omega)]

/-- Behind a unit that ends at a boundary, the cut is the cut of the rest. -/
theorem cutBack_unit {front s : List α} (some_ : front ≠ []) (next : s.head?.any start = true) (n : Nat) :
    cutBack start (front ++ s) (front.length + n) = front.length + cutBack start s n := by
  obtain ⟨b, unit, rfl⟩ := List.exists_cons_of_ne_nil some_
  have boundary : (b :: unit ++ s)[unit.length + 1]?.any start = true := by
    rw [List.getElem?_append_right (by simp)]
    simpa [List.head?_eq_getElem?] using next
  rw [cutBack_append]
  split
  · rename_i none
    rw [none]
    exact cutBack_start boundary
  · rfl

/-- A unit in front is kept whole or not at all. -/
theorem cutTo_unit {b : α} {unit s : List α} (inner : ∀ c ∈ unit, start c = false) (next : ∀ c ∈ s.head?, start c = true)
    (max : Nat) :
    cutTo start (b :: unit ++ s) max =
      if unit.length + 1 ≤ max then b :: unit ++ cutTo start s (max - (unit.length + 1)) else [] := by
  split
  · rename_i room
    by_cases fits : s.length ≤ max - (unit.length + 1)
    · rw [cutTo_whole fits, cutTo_whole (by simp only [List.cons_append, List.length_cons, List.length_append]; omega)]
    · have behind : s.head?.any start = true := by
        cases s with
        | nil => exact absurd (Nat.zero_le _) fits
        | cons c s => exact next c rfl
      have whole := cutBack_unit (List.cons_ne_nil b unit) behind (max - (unit.length + 1))
      rw [List.length_cons, Nat.add_sub_cancel' room] at whole
      have rest : cutTo start s (max - (unit.length + 1)) = s.take (cutBack start s (max - (unit.length + 1))) :=
        cutTo_cut (by omega)
      have long : max < (b :: unit ++ s).length := by
        simp only [List.cons_append, List.length_cons, List.length_append]
        omega
      have front : (b :: unit).length = unit.length + 1 := rfl
      rw [rest, cutTo_cut long, whole, ← front, List.take_length_add_append]
  · rename_i small
    have inside : ∀ i < max, (b :: unit ++ s)[i + 1]?.any start = false := by
      intro i le
      rw [List.cons_append, List.getElem?_cons_succ, List.getElem?_append_left (by omega), List.getElem?_eq_getElem (by omega),
        Option.any_some]
      exact inner _ (List.getElem_mem _)
    have long : max < (b :: unit ++ s).length := by
      simp only [List.cons_append, List.length_cons, List.length_append]
      omega
    rw [cutTo_cut long, cutBack_zero inside, List.take_zero]

end GroupButler.Foundation
