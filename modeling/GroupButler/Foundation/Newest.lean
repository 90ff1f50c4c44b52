import Mathlib.Data.List.Sort

/-!
# The first of several sorted lists

A stable sort of two lists put together is the merge of their sorts, so its first members are found among the
first of each. And what is left of a list once a key is shown once.
-/

namespace GroupButler.Foundation

universe u v
variable {α : Type u} {β : Type v} {le : α → α → Bool}

/-! ### Sorting what is put together -/

theorem mergeSort_cons_eq (trans : ∀ a b c, le a b = true → le b c = true → le a c = true) (total : ∀ a b, (le a b || le b a) = true)
    (x : α) (xs : List α) : (x :: xs).mergeSort le = (xs.mergeSort le).orderedInsert (fun a b => le a b = true) x := by
  obtain ⟨front, back, whole, rest, below⟩ := List.mergeSort_cons trans total x xs
  have sorted := List.pairwise_mergeSort trans total (x :: xs)
  rw [whole] at sorted ⊢
  rw [rest]
  have above := (List.pairwise_cons.mp (List.pairwise_append.mp sorted).2.1).1
  clear whole rest sorted
  induction front with
  | nil =>
    cases back with
    | nil => rfl
    | cons y back =>
      have first := above y List.mem_cons_self
      simp [first]
  | cons y front ih =>
    have first : le x y = false := by simpa using below y List.mem_cons_self
    have later := ih fun b member => below b (List.mem_cons_of_mem y member)
    simp [first, later]

/-- A member goes in before or after a merge. -/
theorem orderedInsert_merge (trans : ∀ a b c, le a b = true → le b c = true → le a c = true)
    (total : ∀ a b, (le a b || le b a) = true) (x : α) (xs ys : List α) :
    (xs.merge ys le).orderedInsert (fun a b => le a b = true) x = (xs.orderedInsert (fun a b => le a b = true) x).merge ys le := by
  induction xs generalizing ys with
  | nil =>
    rw [List.nil_merge, List.orderedInsert_nil]
    induction ys with
    | nil => simp
    | cons y ys ih =>
      rw [List.orderedInsert_cons, List.cons_merge_cons, List.nil_merge]
      split
      · rfl
      · rw [ih]
  | cons a xs ih =>
    induction ys with
    | nil => simp
    | cons b ys ihRight =>
      rw [List.cons_merge_cons]
      by_cases left : le a b = true
      · rw [if_pos left, List.orderedInsert_cons, List.orderedInsert_cons]
        by_cases first : le x a = true
        · rw [if_pos first, if_pos first, List.cons_merge_cons_pos _ _ _ (trans x a b first left), List.cons_merge_cons_pos _ _ _ left]
        · rw [if_neg first, if_neg first, List.cons_merge_cons_pos _ _ _ left, ih]
      · rw [if_neg left, List.orderedInsert_cons, ihRight]
        have reverse : le b a = true := by simpa [left] using total a b
        by_cases first : le x b = true
        · rw [if_pos first, List.orderedInsert_cons, if_pos (trans x b a first reverse), List.cons_merge_cons_pos _ _ _ first,
            List.cons_merge_cons_neg _ _ _ left]
        · rw [if_neg first, List.orderedInsert_cons]
          by_cases second : le x a = true
          · rw [if_pos second, List.cons_merge_cons_neg _ _ _ first]
          · rw [if_neg second, List.cons_merge_cons_neg _ _ _ left]

theorem mergeSort_append (trans : ∀ a b c, le a b = true → le b c = true → le a c = true)
    (total : ∀ a b, (le a b || le b a) = true) (xs ys : List α) :
    (xs ++ ys).mergeSort le = (xs.mergeSort le).merge (ys.mergeSort le) le := by
  induction xs with
  | nil => simp
  | cons x xs ih =>
    rw [List.cons_append, mergeSort_cons_eq trans total, mergeSort_cons_eq trans total, ih]
    exact orderedInsert_merge trans total x _ _

theorem take_cons_take (n : Nat) (x : α) (xs : List α) : (x :: xs.take n).take n = (x :: xs).take n := by
  cases n with
  | zero => rfl
  | succ n => rw [List.take_succ_cons, List.take_succ_cons, List.take_take, Nat.min_eq_left (Nat.le_succ n)]

theorem take_merge (n : Nat) (xs ys : List α) : (xs.merge ys le).take n = ((xs.take n).merge (ys.take n) le).take n := by
  induction n generalizing xs ys with
  | zero => rfl
  | succ n ih =>
    cases xs with
    | nil => simp [List.take_take]
    | cons x xs =>
      cases ys with
      | nil => simp [List.take_take]
      | cons y ys =>
        rw [List.take_succ_cons, List.take_succ_cons, List.cons_merge_cons, List.cons_merge_cons]
        split
        · rw [List.take_succ_cons, List.take_succ_cons, ih xs, ih (xs.take n) (y :: ys.take n), List.take_take, Nat.min_self, take_cons_take]
        · rw [List.take_succ_cons, List.take_succ_cons, ih _ ys, ih (x :: xs.take n) (ys.take n), List.take_take, Nat.min_self, take_cons_take]

/-- The first of a sort are found among the first of each part. -/
theorem take_mergeSort_append (trans : ∀ a b c, le a b = true → le b c = true → le a c = true)
    (total : ∀ a b, (le a b || le b a) = true) (n : Nat) (xs ys : List α) :
    (((xs.mergeSort le).take n ++ (ys.mergeSort le).take n).mergeSort le).take n = ((xs ++ ys).mergeSort le).take n := by
  have settled (zs : List α) : ((zs.mergeSort le).take n).mergeSort le = (zs.mergeSort le).take n :=
    List.mergeSort_of_pairwise ((List.pairwise_mergeSort trans total zs).sublist (List.take_sublist n _))
  rw [mergeSort_append trans total, settled, settled, mergeSort_append trans total, ← take_merge]

theorem filterMap_sublist_map {f : α → Option β} {g : α → β} (same : ∀ x y, f x = some y → y = g x) (xs : List α) :
    (xs.filterMap f).Sublist (xs.map g) := by
  induction xs with
  | nil => exact List.Sublist.slnil
  | cons x xs ih =>
    cases found : f x with
    | none =>
      rw [List.filterMap_cons_none found]
      exact ih.cons _
    | some y =>
      rw [List.filterMap_cons_some found, same x y found]
      exact ih.cons_cons _

/-! ### Each key once -/

section
variable [DecidableEq β] (key : α → Option β)

/-- The members whose key is not among the ones seen, each key once; members without a key stay. -/
def distinctFrom (seen : List β) : List α → List α
  | [] => []
  | x :: xs =>
    match key x with
    | none => x :: distinctFrom seen xs
    | some k => if k ∈ seen then distinctFrom seen xs else x :: distinctFrom (k :: seen) xs

def distinctBy (xs : List α) : List α := distinctFrom key [] xs

theorem distinctFrom_keys (seen : List β) (xs : List α) :
    (∀ k ∈ seen, k ∉ (distinctFrom key seen xs).filterMap key) ∧ ((distinctFrom key seen xs).filterMap key).Nodup := by
  induction xs generalizing seen with
  | nil => simp [distinctFrom]
  | cons x xs ih =>
    rw [distinctFrom]
    cases found : key x with
    | none =>
      rw [List.filterMap_cons_none found]
      exact ih seen
    | some k =>
      dsimp only
      split
      · exact ih seen
      · rename_i fresh
        obtain ⟨away, once⟩ := ih (k :: seen)
        rw [List.filterMap_cons_some found]
        constructor
        · intro other member
          rw [List.mem_cons, not_or]
          refine ⟨?_, away other (List.mem_cons_of_mem k member)⟩
          rintro rfl
          exact fresh member
        · exact List.nodup_cons.mpr ⟨away k List.mem_cons_self, once⟩

theorem distinctBy_keys (xs : List α) : ((distinctBy key xs).filterMap key).Nodup := (distinctFrom_keys key [] xs).2

/-- A front whose keys are distinct is the front of what is left. -/
theorem take_distinctFrom {seen : List β} {xs : List α} {n : Nat} (once : ((xs.take n).filterMap key).Nodup)
    (fresh : ∀ k ∈ (xs.take n).filterMap key, k ∉ seen) : (distinctFrom key seen xs).take n = xs.take n := by
  induction xs generalizing seen n with
  | nil => rfl
  | cons x xs ih =>
    cases n with
    | zero => rfl
    | succ n =>
      rw [List.take_succ_cons] at once fresh ⊢
      rw [distinctFrom]
      cases found : key x with
      | none =>
        rw [List.filterMap_cons_none found] at once fresh
        rw [List.take_succ_cons, ih once fresh]
      | some k =>
        rw [List.filterMap_cons_some found] at once fresh
        obtain ⟨alone, once⟩ := List.nodup_cons.mp once
        dsimp only
        rw [if_neg (fresh k List.mem_cons_self), List.take_succ_cons, ih once]
        intro other member
        rw [List.mem_cons, not_or]
        refine ⟨?_, fresh other (List.mem_cons_of_mem k member)⟩
        rintro rfl
        exact alone member

theorem length_distinctFrom (seen : List β) (xs : List α) : (distinctFrom key seen xs).length ≤ xs.length := by
  induction xs generalizing seen with
  | nil => exact Nat.le_refl _
  | cons x xs ih =>
    rw [distinctFrom, List.length_cons]
    split
    · exact Nat.succ_le_succ (ih seen)
    · split
      · exact (ih seen).trans (Nat.le_succ _)
      · exact Nat.succ_le_succ (ih _)

theorem distinctBy_of_nodup {xs : List α} (once : (xs.filterMap key).Nodup) : distinctBy key xs = xs := by
  have whole := @take_distinctFrom _ _ _ key [] xs xs.length (by rwa [List.take_length]) fun _ _ => List.not_mem_nil
  rwa [List.take_length, List.take_of_length_le (length_distinctFrom key [] xs)] at whole

/-- The front of a list shows each key once exactly where it is the front of its distinct members. -/
theorem take_distinctBy (xs : List α) (n : Nat) :
    (distinctBy key xs).take n = xs.take n ↔ ((xs.take n).filterMap key).Nodup := by
  constructor
  · intro same
    rw [← same]
    exact (distinctBy_keys key xs).sublist ((List.take_sublist n _).filterMap key)
  · intro once
    exact take_distinctFrom key once fun _ _ => List.not_mem_nil

end

end GroupButler.Foundation
