import Mathlib.Data.List.Basic

/-!
# Units read in points

A sequence of units is read in points: a front and the back behind it are one point, and any other unit is a
point of its own.
-/

namespace GroupButler.Foundation

universe u
variable {α : Type u} (front back : α → Bool)

def points : List α → List (List α)
  | [] => []
  | [x] => [[x]]
  | x :: y :: rest => if front x && back y then [x, y] :: points rest else [x] :: points (y :: rest)

variable {front back}

theorem points_pair {x y : α} (pair : (front x && back y) = true) (rest : List α) :
    points front back (x :: y :: rest) = [x, y] :: points front back rest := if_pos pair

theorem points_single {x y : α} (single : ¬ (front x && back y) = true) (rest : List α) :
    points front back (x :: y :: rest) = [x] :: points front back (y :: rest) := if_neg single

theorem points_cons (x : α) (xs : List α) : ∃ point others, points front back (x :: xs) = (x :: point) :: others := by
  cases xs with
  | nil => exact ⟨[], [], rfl⟩
  | cons y rest =>
    by_cases pair : (front x && back y) = true
    · exact ⟨_, _, points_pair pair rest⟩
    · exact ⟨_, _, points_single pair rest⟩

theorem flatten_points (xs : List α) : (points front back xs).flatten = xs := by
  fun_induction points front back xs with
  | case1 => rfl
  | case2 x => rfl
  | case3 x y rest pair ih => rw [List.flatten_cons, ih]; rfl
  | case4 x y rest single ih => rw [List.flatten_cons, ih]; rfl

theorem length_point {xs point : List α} (member : point ∈ points front back xs) : point.length = 1 ∨ point.length = 2 := by
  fun_induction points front back xs with
  | case1 => cases member
  | case2 x =>
    obtain rfl := List.mem_singleton.mp member
    exact Or.inl rfl
  | case3 x y rest pair ih =>
    rcases List.mem_cons.mp member with rfl | later
    · exact Or.inr rfl
    · exact ih later
  | case4 x y rest single ih =>
    rcases List.mem_cons.mp member with rfl | later
    · exact Or.inl rfl
    · exact ih later

/-- Twice as many units hold at least as many points. -/
theorem take_points (xs : List α) {n m : Nat} (room : 2 * n ≤ m) :
    (points front back (xs.take m)).take n = (points front back xs).take n := by
  fun_induction points front back xs generalizing n m with
  | case1 => rw [List.take_nil]; rfl
  | case2 x =>
    cases m with
    | zero =>
      obtain rfl : n = 0 := by omega
      rfl
    | succ m => rw [List.take_succ_cons, List.take_nil]; rfl
  | case3 x y rest pair ih =>
    cases n with
    | zero => rfl
    | succ n =>
      obtain ⟨m, rfl⟩ : ∃ k, m = k + 1 + 1 := ⟨m - 2, by omega⟩
      rw [List.take_succ_cons, List.take_succ_cons, points_pair pair, List.take_succ_cons, List.take_succ_cons, ih (by omega)]
  | case4 x y rest single ih =>
    cases n with
    | zero => rfl
    | succ n =>
      obtain ⟨m, rfl⟩ : ∃ k, m = k + 1 + 1 := ⟨m - 2, by omega⟩
      have later := @ih n (m + 1) (by omega)
      rw [List.take_succ_cons] at later
      rw [List.take_succ_cons, List.take_succ_cons, points_single single, List.take_succ_cons, List.take_succ_cons, later]

/-- The first points are read back as they were. -/
theorem points_take (xs : List α) (n : Nat) :
    points front back ((points front back xs).take n).flatten = (points front back xs).take n := by
  fun_induction points front back xs generalizing n with
  | case1 => rw [List.take_nil]; rfl
  | case2 x =>
    cases n with
    | zero => rfl
    | succ n => rw [List.take_succ_cons, List.take_nil]; rfl
  | case3 x y rest pair ih =>
    cases n with
    | zero => rfl
    | succ n =>
      rw [List.take_succ_cons, List.flatten_cons, List.cons_append, List.cons_append, List.nil_append, points_pair pair, ih]
  | case4 x y rest single ih =>
    cases n with
    | zero => rfl
    | succ n =>
      rw [List.take_succ_cons, List.flatten_cons]
      cases n with
      | zero => rfl
      | succ n =>
        have later := ih (n + 1)
        obtain ⟨point, others, shape⟩ := @points_cons _ front back y rest
        rw [shape, List.take_succ_cons, List.flatten_cons, List.cons_append] at later ⊢
        rw [List.cons_append, List.nil_append, points_single single, later]

end GroupButler.Foundation
