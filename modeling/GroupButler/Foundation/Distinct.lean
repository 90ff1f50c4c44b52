import Mathlib.Data.List.Basic

/-!
# The first of each key

A pass over a ranked list that keeps the first item of each key and every item without one, while there is
room. What it leaves out is a repeated key or has only kept items before it.
-/

namespace GroupButler.Foundation

universe u v
variable {α : Type u} {κ : Type v} [DecidableEq κ] (key : α → Option κ)

/-- `seen` holds the keys already taken, the number is the room left. -/
def firstOfEach : List κ → Nat → List α → List α
  | _, 0, _ => []
  | _, _, [] => []
  | seen, room + 1, x :: xs =>
    match key x with
    | none => x :: firstOfEach seen room xs
    | some k => if k ∈ seen then firstOfEach seen (room + 1) xs else x :: firstOfEach (k :: seen) room xs

variable {key} {seen : List κ} {room : Nat} {x : α} {k : κ}

theorem firstOfEach_zero (xs : List α) : firstOfEach key seen 0 xs = [] := by cases xs <;> rfl

theorem firstOfEach_nil : firstOfEach key seen room [] = [] := by cases room <;> rfl

theorem firstOfEach_cons (xs : List α) : firstOfEach key seen (room + 1) (x :: xs) =
    match key x with
    | none => x :: firstOfEach key seen room xs
    | some k => if k ∈ seen then firstOfEach key seen (room + 1) xs else x :: firstOfEach key (k :: seen) room xs := rfl

theorem firstOfEach_keyless (none : key x = none) (xs : List α) :
    firstOfEach key seen (room + 1) (x :: xs) = x :: firstOfEach key seen room xs := by rw [firstOfEach_cons, none]

theorem firstOfEach_seen (keyed : key x = some k) (old : k ∈ seen) (xs : List α) :
    firstOfEach key seen (room + 1) (x :: xs) = firstOfEach key seen (room + 1) xs := by
  rw [firstOfEach_cons, keyed]
  exact if_pos old

theorem firstOfEach_fresh (keyed : key x = some k) (fresh : k ∉ seen) (xs : List α) :
    firstOfEach key seen (room + 1) (x :: xs) = x :: firstOfEach key (k :: seen) room xs := by
  rw [firstOfEach_cons, keyed]
  exact if_neg fresh

theorem firstOfEach_length (xs : List α) : (firstOfEach key seen room xs).length ≤ room := by
  fun_induction firstOfEach key seen room xs with
  | case1 => exact Nat.le_refl _
  | case2 => exact Nat.zero_le _
  | case3 _ _ _ _ _ ih => exact Nat.succ_le_succ ih
  | case4 _ _ _ _ _ _ _ ih => exact ih
  | case5 _ _ _ _ _ _ _ ih => exact Nat.succ_le_succ ih

theorem firstOfEach_sublist (xs : List α) : (firstOfEach key seen room xs).Sublist xs := by
  fun_induction firstOfEach key seen room xs with
  | case1 => exact List.nil_sublist _
  | case2 => exact List.nil_sublist _
  | case3 _ _ x _ _ ih => exact ih.cons_cons x
  | case4 _ _ x _ _ _ _ ih => exact ih.cons x
  | case5 _ _ x _ _ _ _ ih => exact ih.cons_cons x

/-- No item that is kept has a key seen before. -/
theorem firstOfEach_unseen (xs : List α) : ∀ x ∈ firstOfEach key seen room xs, ∀ k ∈ seen, key x ≠ some k := by
  fun_induction firstOfEach key seen room xs with
  | case1 => simp
  | case2 => simp
  | case3 seen _ x _ none ih =>
    rintro y (_ | ⟨_, later⟩) k old keyed
    · rw [none] at keyed
      cases keyed
    · exact ih y later k old keyed
  | case4 _ _ _ _ _ _ _ ih => exact ih
  | case5 seen _ x _ k keyed fresh ih =>
    rintro y (_ | ⟨_, later⟩) l old same
    · rw [keyed] at same
      exact fresh (Option.some.inj same ▸ old)
    · exact ih y later l (List.mem_cons_of_mem _ old) same

theorem firstOfEach_distinct (xs : List α) :
    (firstOfEach key seen room xs).Pairwise fun a b => ∀ k, key a = some k → key b ≠ some k := by
  fun_induction firstOfEach key seen room xs with
  | case1 => exact List.Pairwise.nil
  | case2 => exact List.Pairwise.nil
  | case3 _ _ _ _ none ih =>
    refine List.pairwise_cons.mpr ⟨fun _ _ k keyed => ?_, ih⟩
    rw [none] at keyed
    cases keyed
  | case4 _ _ _ _ _ _ _ ih => exact ih
  | case5 _ _ _ xs k keyed _ ih =>
    refine List.pairwise_cons.mpr ⟨fun y later l same => ?_, ih⟩
    obtain rfl := Option.some.inj (keyed.symm.trans same)
    exact firstOfEach_unseen xs y later k (List.mem_cons_self ..)

/-- What is left out has the key of an item kept before it, or comes after as many kept items as there was
room for. -/
theorem firstOfEach_omitted {before : α → α → Prop} {xs : List α} (ordered : xs.Pairwise before) {x : α} (member : x ∈ xs)
    (omitted : x ∉ firstOfEach key seen room xs) :
    (∃ k ∈ seen, key x = some k) ∨
      (∃ y ∈ firstOfEach key seen room xs, before y x ∧ ∃ k, key x = some k ∧ key y = some k) ∨
      ((firstOfEach key seen room xs).length = room ∧ ∀ y ∈ firstOfEach key seen room xs, before y x) := by
  fun_induction firstOfEach key seen room xs with
  | case1 => exact Or.inr (Or.inr ⟨rfl, by simp⟩)
  | case2 => cases member
  | case3 seen room y ys none ih =>
    obtain ⟨first, ordered⟩ := List.pairwise_cons.mp ordered
    rcases List.mem_cons.mp member with rfl | member
    · exact absurd (List.mem_cons_self ..) omitted
    rcases ih ordered member fun kept => omitted (List.mem_cons_of_mem _ kept) with old | ⟨z, kept, above, same⟩ | ⟨full, above⟩
    · exact Or.inl old
    · exact Or.inr (Or.inl ⟨z, List.mem_cons_of_mem _ kept, above, same⟩)
    · refine Or.inr (Or.inr ⟨congrArg (· + 1) full, ?_⟩)
      rintro z (_ | ⟨_, kept⟩)
      · exact first x member
      · exact above z kept
  | case4 seen room y ys k keyed old ih =>
    obtain ⟨-, ordered⟩ := List.pairwise_cons.mp ordered
    rcases List.mem_cons.mp member with rfl | member
    · exact Or.inl ⟨k, old, keyed⟩
    · exact ih ordered member omitted
  | case5 seen room y ys k keyed fresh ih =>
    obtain ⟨first, ordered⟩ := List.pairwise_cons.mp ordered
    rcases List.mem_cons.mp member with rfl | member
    · exact absurd (List.mem_cons_self ..) omitted
    rcases ih ordered member fun kept => omitted (List.mem_cons_of_mem _ kept) with ⟨l, old, same⟩ | ⟨z, kept, above, same⟩ |
      ⟨full, above⟩
    · rcases List.mem_cons.mp old with rfl | old
      · exact Or.inr (Or.inl ⟨y, List.mem_cons_self .., first x member, l, same, keyed⟩)
      · exact Or.inl ⟨l, old, same⟩
    · exact Or.inr (Or.inl ⟨z, List.mem_cons_of_mem _ kept, above, same⟩)
    · refine Or.inr (Or.inr ⟨congrArg (· + 1) full, ?_⟩)
      rintro z (_ | ⟨_, kept⟩)
      · exact first x member
      · exact above z kept

end GroupButler.Foundation
