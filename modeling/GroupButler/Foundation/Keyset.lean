import Mathlib.Data.List.Sort
import Mathlib.Order.Basic

/-!
# Keyset paging

A listing sorted by a key is read a page at a time. A page is the first `limit` rows after a cursor,
and the next cursor is the page's last key. The walk ends, and its pages make up the listing.
-/

namespace GroupButler.Foundation

section
variable {α γ : Type}

/-- Read pages until there is no next cursor. `none` when a page fails or `fuel` runs out. -/
def walkPages (page : Option γ → Option (List α × Option γ)) : Nat → Option γ → Option (List α)
  | 0, _ => none
  | fuel + 1, cursor =>
    (page cursor).bind fun (rows, next) =>
      match next with
      | none => some rows
      | some cursor => (walkPages page fuel (some cursor)).map (rows ++ ·)

/-- Only a full page has a next one, after its last row. -/
def nextCursor (cursorOf : α → γ) (limit : Nat) (rows : List α) : Option γ :=
  if rows.length < limit then none else rows.getLast?.map cursorOf

/-- How a listing is served: each page goes on where its cursor stands. -/
structure Paged (page : Option γ → Option (List α × Option γ)) (cursorOf : α → γ) (limit : Nat) (rows : List α) :
    Prop where
  first : page none = some (rows.take limit, nextCursor cursorOf limit (rows.take limit))
  after : ∀ before last rest, rows = before ++ last :: rest →
    page (some (cursorOf last)) = some (rest.take limit, nextCursor cursorOf limit (rest.take limit))

variable {page : Option γ → Option (List α × Option γ)} {cursorOf : α → γ} {limit : Nat} {rows : List α}

/-- What is still to come is served page by page, whatever the cursor in hand. -/
theorem Paged.rest (paged : Paged page cursorOf limit rows) (positive : 0 < limit) (fuel : Nat)
    {before rest : List α} {cursor : Option γ} (split : rows = before ++ rest)
    (served : page cursor = some (rest.take limit, nextCursor cursorOf limit (rest.take limit)))
    (enough : rest.length < fuel) : walkPages page fuel cursor = some rest := by
  induction fuel generalizing before rest cursor with
  | zero => omega
  | succ fuel ih =>
    rw [walkPages, served, Option.bind_some, nextCursor]
    by_cases last : rest.length < limit
    · rw [List.take_of_length_le last.le, if_pos last]
    · obtain ⟨front, final, shape⟩ : ∃ front final, rest.take limit = front ++ [final] := by
        have nonempty : rest.take limit ≠ [] := by
          rw [← List.length_pos_iff, List.length_take]
          omega
        exact ⟨_, _, (List.dropLast_append_getLast nonempty).symm⟩
      have length : (front ++ [final]).length = limit := by
        rw [← shape, List.length_take]
        omega
      have parts : rest = front ++ [final] ++ rest.drop limit := by
        rw [← shape, List.take_append_drop]
      have whole : rows = (before ++ front) ++ final :: rest.drop limit := by
        conv_lhs => rw [split, parts]
        simp only [List.append_assoc, List.cons_append, List.nil_append]
      have further : rows = (before ++ front ++ [final]) ++ rest.drop limit := by
        rw [whole, List.append_assoc, List.append_assoc, List.append_assoc, List.singleton_append]
      have step : walkPages page fuel (some (cursorOf final)) = some (rest.drop limit) :=
        ih further (paged.after _ _ _ whole) (by rw [List.length_drop]; omega)
      rw [shape, if_neg (by omega), List.getLast?_append_cons, List.getLast?_singleton, Option.map_some]
      simp only [step, Option.map_some]
      rw [← parts]

theorem Paged.walk (paged : Paged page cursorOf limit rows) (positive : 0 < limit) {fuel : Nat}
    (enough : rows.length < fuel) : walkPages page fuel none = some rows :=
  paged.rest positive fuel (List.nil_append rows).symm paged.first enough

end

/-! ### Pages of sorted rows -/

section
variable {α : Type} {newer : α → α → Prop}

/-- In a strictly sorted listing the rows after one are those that sort after it. -/
theorem filter_after [DecidableRel newer] {before rest : List α} {last : α}
    (asymm : ∀ a b, newer a b → ¬ newer b a) (sorted : (before ++ last :: rest).Pairwise newer) :
    (before ++ last :: rest).filter (newer last ·) = rest := by
  obtain ⟨-, tail, cross⟩ := List.pairwise_append.mp sorted
  have earlier : before.filter (newer last ·) = [] := by
    rw [List.filter_eq_nil_iff]
    intro row member later
    exact asymm _ _ (of_decide_eq_true later) (cross row member last List.mem_cons_self)
  have itself : ¬ newer last last := fun self => asymm _ _ self self
  have later : rest.filter (newer last ·) = rest := by
    rw [List.filter_eq_self]
    intro row member
    exact decide_eq_true ((List.pairwise_cons.mp tail).1 row member)
  rw [List.filter_append, earlier, List.nil_append, List.filter_cons_of_neg (by simpa using itself), later]

theorem filter_mem_cons [DecidableEq α] {row : α} {rows taken : List α} (taken' : List α) (fresh : row ∉ rows) (here : row ∈ taken)
    (same : ∀ x, x ≠ row → (x ∈ taken ↔ x ∈ taken')) :
    ((row :: rows).filter fun x => decide (x ∈ taken)) = row :: rows.filter fun x => decide (x ∈ taken') := by
  rw [List.filter_cons_of_pos (by simpa using here)]
  refine congrArg (row :: ·) (List.filter_congr fun x member => ?_)
  rw [decide_eq_decide]
  exact same x (fun equal => fresh (equal ▸ member))

/-- A page of the union is the cut of a page of each. -/
theorem take_union [DecidableEq α] {p q : α → Bool} {rows : List α} (nodup : rows.Nodup) {limit m n : Nat}
    (fewM : limit ≤ m) (fewN : limit ≤ n) :
    (rows.filter fun row => decide (row ∈ (rows.filter p).take m ++ (rows.filter q).take n)).take limit =
      (rows.filter fun row => p row || q row).take limit := by
  induction rows generalizing limit m n with
  | nil => rfl
  | cons row rows ih =>
    obtain ⟨fresh, nodup⟩ := List.nodup_cons.mp nodup
    cases limit with
    | zero => rfl
    | succ limit =>
      obtain ⟨m, rfl⟩ : ∃ k, m = k + 1 := ⟨m - 1, by omega⟩
      obtain ⟨n, rfl⟩ : ∃ k, n = k + 1 := ⟨n - 1, by omega⟩
      cases hp : p row <;> cases hq : q row
      · have absent : row ∉ (rows.filter p).take (m + 1) ++ (rows.filter q).take (n + 1) := by
          intro member
          rcases List.mem_append.mp member with taken | taken
          · exact fresh (List.mem_of_mem_filter (List.mem_of_mem_take taken))
          · exact fresh (List.mem_of_mem_filter (List.mem_of_mem_take taken))
        simp only [List.filter_cons, hp, hq, absent, Bool.or_self, decide_false, Bool.false_eq_true, if_false]
        exact ih nodup fewM fewN
      · rw [List.filter_cons_of_neg (p := p) (by simp [hp]), List.filter_cons_of_pos (p := q) hq, List.take_succ_cons,
          filter_mem_cons ((rows.filter p).take (m + 1) ++ (rows.filter q).take n) fresh (by simp)
            (fun x other => by simp [other]),
          List.filter_cons_of_pos (by simp [hq]), List.take_succ_cons, List.take_succ_cons,
          ih nodup (by omega) (by omega)]
      · rw [List.filter_cons_of_pos (p := p) hp, List.filter_cons_of_neg (p := q) (by simp [hq]), List.take_succ_cons,
          filter_mem_cons ((rows.filter p).take m ++ (rows.filter q).take (n + 1)) fresh (by simp)
            (fun x other => by simp [other]),
          List.filter_cons_of_pos (by simp [hp]), List.take_succ_cons, List.take_succ_cons,
          ih nodup (by omega) (by omega)]
      · rw [List.filter_cons_of_pos (p := p) hp, List.filter_cons_of_pos (p := q) hq, List.take_succ_cons, List.take_succ_cons,
          filter_mem_cons ((rows.filter p).take m ++ (rows.filter q).take n) fresh (by simp)
            (fun x other => by simp [other]),
          List.filter_cons_of_pos (by simp [hp]), List.take_succ_cons, List.take_succ_cons,
          ih nodup (by omega) (by omega)]

end

end GroupButler.Foundation
