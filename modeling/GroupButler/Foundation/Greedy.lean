import Mathlib.Data.List.Basic
import Mathlib.Order.Lattice

/-!
# A greedy pass under a limit

A pass over a list that keeps each item whose size still fits beside the items kept before it, and passes over
the others.
-/

namespace GroupButler.Foundation

universe u v
variable {α : Type u} {M : Type v} [Add M] (size : α → M) (limit : M)

/-- The running total behind the items. -/
def spent (used : M) (xs : List α) : M := xs.foldl (fun used x => used + size x) used

theorem spent_cons (used : M) (x : α) (xs : List α) : spent size used (x :: xs) = spent size (used + size x) xs := rfl

theorem spent_append (used : M) (xs ys : List α) : spent size used (xs ++ ys) = spent size (spent size used xs) ys :=
  List.foldl_append

variable [LinearOrder M]

def greedy : M → List α → List α
  | _, [] => []
  | used, x :: xs => if limit < used + size x then greedy used xs else x :: greedy (used + size x) xs

variable {size limit} {used : M} {x : α}

theorem greedy_over (exceeds : limit < used + size x) (xs : List α) :
    greedy size limit used (x :: xs) = greedy size limit used xs := if_pos exceeds

theorem greedy_within (within : ¬ limit < used + size x) (xs : List α) :
    greedy size limit used (x :: xs) = x :: greedy size limit (used + size x) xs := if_neg within

theorem greedy_sublist (used : M) (xs : List α) : (greedy size limit used xs).Sublist xs := by
  induction xs generalizing used with
  | nil => exact List.nil_sublist _
  | cons x xs ih =>
    by_cases exceeds : limit < used + size x
    · rw [greedy_over exceeds]
      exact (ih used).cons x
    · rw [greedy_within exceeds]
      exact (ih _).cons_cons x

theorem spent_greedy (room : used ≤ limit) (xs : List α) : spent size used (greedy size limit used xs) ≤ limit := by
  induction xs generalizing used with
  | nil => exact room
  | cons x xs ih =>
    by_cases exceeds : limit < used + size x
    · rw [greedy_over exceeds]
      exact ih room
    · rw [greedy_within exceeds, spent_cons]
      exact ih (not_lt.mp exceeds)

theorem greedy_append (xs ys : List α) : greedy size limit used (xs ++ ys) =
    greedy size limit used xs ++ greedy size limit (spent size used (greedy size limit used xs)) ys := by
  induction xs generalizing used with
  | nil => rfl
  | cons x xs ih =>
    rw [List.cons_append]
    by_cases exceeds : limit < used + size x
    · rw [greedy_over exceeds, greedy_over exceeds, ih]
    · rw [greedy_within exceeds, greedy_within exceeds, ih, spent_cons, List.cons_append]

/-- An item that is passed over does not fit beside what was kept before it. -/
theorem greedy_omitted {before after : List α} (omitted : x ∉ greedy size limit used (before ++ x :: after)) :
    limit < spent size used (greedy size limit used before ++ [x]) := by
  rw [spent_append]
  by_contra within
  rw [greedy_append, greedy_within within] at omitted
  exact omitted (by simp)

/-- Another pass over what is kept keeps all of it. -/
theorem greedy_greedy (used : M) (xs : List α) : greedy size limit used (greedy size limit used xs) = greedy size limit used xs := by
  induction xs generalizing used with
  | nil => rfl
  | cons x xs ih =>
    by_cases exceeds : limit < used + size x
    · rw [greedy_over exceeds, ih]
    · rw [greedy_within exceeds, greedy_within exceeds, ih]

theorem greedy_eq_nil {xs : List α} (none : greedy size limit used xs = []) : ∀ x ∈ xs, limit < used + size x := by
  intro x member
  obtain ⟨before, after, rfl⟩ := List.append_of_mem member
  have exceeds := greedy_omitted (none ▸ List.not_mem_nil : x ∉ greedy size limit used (before ++ x :: after))
  rw [greedy_append] at none
  rwa [(List.append_eq_nil_iff.mp none).1] at exceeds

end GroupButler.Foundation
