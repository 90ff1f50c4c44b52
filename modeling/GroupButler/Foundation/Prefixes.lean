import GroupButler.Foundation.Text
import Mathlib.Data.List.DropRight
import Mathlib.Data.List.TakeWhile
import Mathlib.Order.Bounds.Basic

/-!
# Prefixes of a list

The longest prefix with a property of its members, and what a prefix of a prefix keeps.
-/

namespace GroupButler.Foundation

universe u
variable {α : Type u} {p : α → Bool} {xs : List α} {n : Nat}

/-- No longer prefix has the property throughout. -/
theorem takeWhile_longest (bound : n ≤ xs.length) (all : ∀ x ∈ xs.take n, p x = true) :
    n ≤ (xs.takeWhile p).length := by
  induction xs generalizing n with
  | nil => simpa using bound
  | cons x xs ih =>
    cases n with
    | zero => omega
    | succ n =>
      rw [List.take_succ_cons] at all
      have first := all x List.mem_cons_self
      have rest := ih (by simpa using bound) fun y member => all y (List.mem_cons_of_mem x member)
      rw [List.takeWhile_cons_of_pos first, List.length_cons]
      omega

/-- A list cut behind what stands in front of it shows no longer once the whole is cut. -/
theorem take_append_take (n : Nat) (xs ys : List α) : (xs ++ ys.take n).take n = (xs ++ ys).take n := by
  rw [List.take_append, List.take_append, List.take_take, Nat.min_eq_left (Nat.sub_le _ _)]

/-- What is cut off the end leaves everything up to an element that stays. -/
theorem rdropWhile_append {α : Type} {p : α → Bool} {core back : List α} (last : ∀ x ∈ core.getLast?, p x = false) :
    ∃ kept, kept <+: back ∧ (core ++ back).rdropWhile p = core ++ kept := by
  induction back using List.reverseRecOn with
  | nil =>
    refine ⟨[], List.nil_prefix, ?_⟩
    have stays : ∀ x ∈ core.reverse.head?, p x = false := by rwa [List.head?_reverse]
    rw [List.append_nil, List.rdropWhile, dropWhile_of_head stays, List.reverse_reverse]
  | append_singleton back x ih =>
    obtain ⟨kept, inside, cut⟩ := ih
    rw [← List.append_assoc]
    by_cases drop : p x = true
    · rw [List.rdropWhile_concat_pos _ _ _ drop]
      exact ⟨kept, inside.trans (List.prefix_append _ _), cut⟩
    · rw [List.rdropWhile_concat_neg _ _ _ drop]
      exact ⟨back ++ [x], List.prefix_rfl, List.append_assoc _ _ _⟩

/-! ### A cut in a list of pieces -/

variable {β : Type*}

/-- How many pieces end within the first `n` members of their concatenation. -/
def wholeIn (piece : α → List β) : Nat → List α → Nat
  | _, [] => 0
  | n, x :: xs => if (piece x).length ≤ n then wholeIn piece (n - (piece x).length) xs + 1 else 0

theorem wholeIn_lt {piece : α → List β} (short : n < (xs.flatMap piece).length) : wholeIn piece n xs < xs.length := by
  induction xs generalizing n with
  | nil => cases short
  | cons x xs ih =>
    rw [List.flatMap_cons, List.length_append] at short
    rw [wholeIn, List.length_cons]
    split
    · have rest := @ih (n - (piece x).length) (by omega)
      omega
    · omega

theorem wholeIn_of_length_le {piece : α → List β} (long : (xs.flatMap piece).length ≤ n) : wholeIn piece n xs = xs.length := by
  induction xs generalizing n with
  | nil => rfl
  | cons x xs ih =>
    rw [List.flatMap_cons, List.length_append] at long
    rw [wholeIn, if_pos (by omega), ih (by omega), List.length_cons]

/-- A cut leaves the pieces that end before it, and less than the whole of the next. -/
theorem take_flatMap (piece : α → List β) (n : Nat) (xs : List α) :
    ∃ k, (xs.flatMap piece).take n =
        (xs.take (wholeIn piece n xs)).flatMap piece ++ (xs[wholeIn piece n xs]?.elim [] piece).take k ∧
      ∀ x ∈ xs[wholeIn piece n xs]?, k < (piece x).length := by
  induction xs generalizing n with
  | nil => exact ⟨0, by simp, fun x none => by cases none⟩
  | cons x xs ih =>
    rw [wholeIn]
    split
    · rename_i whole
      obtain ⟨k, cut, short⟩ := ih (n - (piece x).length)
      refine ⟨k, ?_, by simpa using short⟩
      rw [List.flatMap_cons, List.take_append, List.take_of_length_le whole, cut, List.take_succ_cons, List.flatMap_cons,
        List.append_assoc, List.getElem?_cons_succ]
    · rename_i inside
      refine ⟨n, ?_, ?_⟩
      · rw [List.flatMap_cons, List.take_append_of_le_length (by omega)]
        rfl
      · intro y first
        obtain rfl : x = y := Option.some.inj first
        omega

end GroupButler.Foundation
