import Mathlib.Data.List.Basic
import Mathlib.Tactic.Common

/-!
# Slash-separated paths

A path is cleaned part by part: empty parts and `.` go, `..` takes the part before it away. What is left
of a rooted path is a list of proper parts, and cleaning composes along a join.
-/

namespace GroupButler.Foundation

theorem not_mem_splitOn {α : Type*} [DecidableEq α] (sep : α) (xs : List α) : ∀ part ∈ xs.splitOn sep, sep ∉ part := by
  induction xs with
  | nil => simp
  | cons x xs ih =>
    intro part member
    rw [List.splitOn_cons_eq_if_modifyHead] at member
    split at member
    · rcases List.mem_cons.mp member with rfl | member
      · exact List.not_mem_nil
      · exact ih part member
    · rename_i other
      obtain ⟨first, rest, whole⟩ := List.exists_cons_of_ne_nil (List.splitOn_ne_nil sep xs)
      rw [whole, List.modifyHead_cons] at member
      rw [whole] at ih
      rcases List.mem_cons.mp member with rfl | member
      · intro inside
        rcases List.mem_cons.mp inside with rfl | inside
        · simp at other
        · exact ih first List.mem_cons_self inside
      · exact ih part (List.mem_cons_of_mem _ member)

section
variable {α : Type*} {sep : α} {parts : List (List α)}

theorem intercalate_cons (part : List α) (some : parts ≠ []) :
    [sep].intercalate (part :: parts) = part ++ sep :: [sep].intercalate parts := by
  obtain ⟨next, parts, rfl⟩ := List.exists_cons_of_ne_nil some
  rw [List.intercalate_cons_cons, List.append_assoc, List.singleton_append]

theorem intercalate_append {more : List (List α)} (some : parts ≠ []) (others : more ≠ []) :
    [sep].intercalate (parts ++ more) = [sep].intercalate parts ++ sep :: [sep].intercalate more := by
  induction parts with
  | nil => exact absurd rfl some
  | cons part parts ih =>
    cases parts with
    | nil => rw [List.singleton_append, intercalate_cons part others, List.intercalate_singleton]
    | cons next parts =>
      rw [List.cons_append, intercalate_cons part (by simp), ih (List.cons_ne_nil _ _),
        intercalate_cons part (List.cons_ne_nil _ _), List.append_assoc, List.cons_append]

/-- Parts that name something, joined, do not start with the separator. -/
theorem head_intercalate (named : ∀ part ∈ parts, part ≠ [] ∧ sep ∉ part) : ([sep].intercalate parts).head? ≠ some sep := by
  cases parts with
  | nil => simp
  | cons part parts =>
    obtain ⟨nonempty, plain⟩ := named part List.mem_cons_self
    obtain ⟨first, part, rfl⟩ := List.exists_cons_of_ne_nil nonempty
    have other : first ≠ sep := fun same => plain (by rw [same]; exact List.mem_cons_self)
    cases parts with
    | nil => simpa using other
    | cons next parts => simpa [List.intercalate_cons_cons] using other

/-- Nor do they end with it. -/
theorem getLast_intercalate (named : ∀ part ∈ parts, part ≠ [] ∧ sep ∉ part) :
    ([sep].intercalate parts).getLast? ≠ some sep := by
  induction parts with
  | nil => simp
  | cons part parts ih =>
    cases parts with
    | nil =>
      rw [List.intercalate_singleton]
      exact fun last => (named part List.mem_cons_self).2 (List.mem_of_getLast? last)
    | cons next parts =>
      have rest := ih fun other member => named other (List.mem_cons_of_mem _ member)
      have some : [sep].intercalate (next :: parts) ≠ [] := by
        obtain ⟨nonempty, -⟩ := named next (List.mem_cons_of_mem _ List.mem_cons_self)
        cases parts with
        | nil => simpa using nonempty
        | cons other parts => simp [List.intercalate_cons_cons]
      rw [List.intercalate_cons_cons, List.getLast?_append_of_ne_nil _ some]
      exact rest

end

/-- A part that names an entry of its directory. -/
def ProperPart (part : List Char) : Prop := part ≠ [] ∧ part ≠ ['.'] ∧ part ≠ ['.', '.'] ∧ '/' ∉ part

instance (part : List Char) : Decidable (ProperPart part) :=
  inferInstanceAs (Decidable (part ≠ [] ∧ part ≠ ['.'] ∧ part ≠ ['.', '.'] ∧ '/' ∉ part))

/-- One part under lexical cleaning, after the parts kept so far. -/
def cleanStep (rooted : Bool) (out : List (List Char)) (part : List Char) : List (List Char) :=
  if part = [] ∨ part = ['.'] then out
  else if part = ['.', '.'] then
    match out.getLast? with
    | none => if rooted then out else out ++ [part]
    | some last => if last = ['.', '.'] then out ++ [part] else out.dropLast
  else out ++ [part]

theorem cleanStep_proper {part : List Char} (proper : ProperPart part) (rooted : Bool) (out : List (List Char)) :
    cleanStep rooted out part = out ++ [part] := by
  obtain ⟨named, not_dot, not_up, -⟩ := proper
  rw [cleanStep, if_neg (not_or.mpr ⟨named, not_dot⟩), if_neg not_up]

theorem foldl_cleanStep_proper {parts : List (List Char)} (proper : ∀ part ∈ parts, ProperPart part) (rooted : Bool)
    (out : List (List Char)) : parts.foldl (cleanStep rooted) out = out ++ parts := by
  induction parts generalizing out with
  | nil => simp
  | cons part parts ih =>
    rw [List.foldl_cons, cleanStep_proper (proper part List.mem_cons_self),
      ih (fun other member => proper other (List.mem_cons_of_mem _ member)), List.append_assoc, List.singleton_append]

/-- Under a root, no part that is kept climbs. -/
theorem cleanStep_keeps_proper {out : List (List Char)} {part : List Char} (kept : ∀ other ∈ out, ProperPart other)
    (plain : '/' ∉ part) : ∀ other ∈ cleanStep true out part, ProperPart other := by
  unfold cleanStep
  split
  · exact kept
  · rename_i named
    obtain ⟨nonempty, not_dot⟩ := not_or.mp named
    split
    · split
      · exact kept
      · rename_i last found
        have not_up : last ≠ ['.', '.'] := (kept last (List.mem_of_getLast? found)).2.2.1
        rw [if_neg not_up]
        exact fun other member => kept other (List.dropLast_subset _ member)
    · rename_i not_up
      intro other member
      rcases List.mem_append.mp member with member | member
      · exact kept other member
      · obtain rfl := List.mem_singleton.mp member
        exact ⟨nonempty, not_dot, not_up, plain⟩

theorem foldl_cleanStep_keeps_proper {parts out : List (List Char)} (kept : ∀ other ∈ out, ProperPart other)
    (plain : ∀ part ∈ parts, '/' ∉ part) : ∀ other ∈ parts.foldl (cleanStep true) out, ProperPart other := by
  induction parts generalizing out with
  | nil => exact kept
  | cons part parts ih =>
    exact ih (cleanStep_keeps_proper kept (plain part List.mem_cons_self))
      fun other member => plain other (List.mem_cons_of_mem _ member)

/-- Rooted or not, what is kept was a part and not an empty one. -/
theorem mem_cleanStep {rooted : Bool} {out : List (List Char)} {part other : List Char}
    (member : other ∈ cleanStep rooted out part) : other ∈ out ∨ other = part ∧ other ≠ [] := by
  have pushed : part ≠ [] → other ∈ out ++ [part] → other ∈ out ∨ other = part ∧ other ≠ [] := by
    intro named member
    rcases List.mem_append.mp member with member | member
    · exact Or.inl member
    · obtain rfl := List.mem_singleton.mp member
      exact Or.inr ⟨rfl, named⟩
  unfold cleanStep at member
  split at member
  · exact Or.inl member
  · rename_i kept
    have named : part ≠ [] := (not_or.mp kept).1
    split at member
    · split at member
      · split at member
        · exact Or.inl member
        · exact pushed named member
      · split at member
        · exact pushed named member
        · exact Or.inl (List.dropLast_subset _ member)
    · exact pushed named member

theorem mem_foldl_cleanStep {rooted : Bool} {out parts : List (List Char)} {other : List Char}
    (member : other ∈ parts.foldl (cleanStep rooted) out) : other ∈ out ∨ other ∈ parts ∧ other ≠ [] := by
  induction parts generalizing out with
  | nil => exact Or.inl member
  | cons part parts ih =>
    rcases ih member with member | ⟨member, named⟩
    · rcases mem_cleanStep member with member | ⟨rfl, named⟩
      · exact Or.inl member
      · exact Or.inr ⟨List.mem_cons_self, named⟩
    · exact Or.inr ⟨List.mem_cons_of_mem _ member, named⟩

/-- The parts left of a rooted path. -/
def cleanParts (path : List Char) : List (List Char) := (path.splitOn '/').foldl (cleanStep true) []

theorem cleanParts_proper (path : List Char) : ∀ part ∈ cleanParts path, ProperPart part :=
  foldl_cleanStep_keeps_proper (fun _ member => absurd member List.not_mem_nil) (not_mem_splitOn '/' path)

/-- The path below a root that its parts spell. -/
def joinParts (parts : List (List Char)) : List Char := ['/'].intercalate parts

theorem splitOn_joinParts {parts : List (List Char)} (proper : ∀ part ∈ parts, ProperPart part) (some : parts ≠ []) :
    (joinParts parts).splitOn '/' = parts :=
  List.splitOn_intercalate '/' (fun part member => (proper part member).2.2.2) some

/-- Cleaning a rooted path with proper parts joined to it adds the parts. -/
theorem cleanParts_join (root : List Char) {parts : List (List Char)} (proper : ∀ part ∈ parts, ProperPart part)
    (some : parts ≠ []) : cleanParts (root ++ '/' :: joinParts parts) = cleanParts root ++ parts := by
  rw [cleanParts, List.splitOn_append_cons_self, List.foldl_append, splitOn_joinParts proper some,
    foldl_cleanStep_proper proper]
  rfl

theorem cleanParts_rooted {parts : List (List Char)} (proper : ∀ part ∈ parts, ProperPart part) :
    cleanParts ('/' :: joinParts parts) = parts := by
  cases parts with
  | nil => rfl
  | cons part parts => exact cleanParts_join [] proper (List.cons_ne_nil _ _)

theorem joinParts_append {first second : List (List Char)} (some : first ≠ []) (more : second ≠ []) :
    joinParts (first ++ second) = joinParts first ++ '/' :: joinParts second := intercalate_append some more

theorem joinParts_eq_nil {parts : List (List Char)} (proper : ∀ part ∈ parts, ProperPart part)
    (empty : joinParts parts = []) : parts = [] := by
  by_contra some
  have parts_eq := splitOn_joinParts proper some
  rw [empty, List.splitOn_nil] at parts_eq
  exact (proper [] (by rw [← parts_eq]; exact List.mem_singleton_self _)).1 rfl

/-- A relative path that cleaning leaves alone and that names an entry below its directory. -/
def CleanBelow (rel : List Char) : Prop := ∀ part ∈ rel.splitOn '/', ProperPart part

instance (rel : List Char) : Decidable (CleanBelow rel) :=
  inferInstanceAs (Decidable (∀ part ∈ rel.splitOn '/', ProperPart part))

theorem CleanBelow.joinParts {parts : List (List Char)} (proper : ∀ part ∈ parts, ProperPart part) (some : parts ≠ []) :
    CleanBelow (joinParts parts) := by
  unfold CleanBelow
  rw [splitOn_joinParts proper some]
  exact proper

theorem CleanBelow.parts {rel : List Char} (clean : CleanBelow rel) :
    ∃ parts, parts ≠ [] ∧ (∀ part ∈ parts, ProperPart part) ∧ rel = Foundation.joinParts parts :=
  ⟨rel.splitOn '/', List.splitOn_ne_nil _ _, clean, (List.intercalate_splitOn '/').symm⟩

/-- `root` and `rel` as one path. -/
def joinBelow (root rel : List Char) : List Char := if root = ['/'] then '/' :: rel else root ++ '/' :: rel

/-- The path is lexically below the root. -/
def Below (root path : List Char) : Prop := ∃ rel, CleanBelow rel ∧ path = joinBelow root rel

theorem Below.ne {root path : List Char} (below : Below root path) : path ≠ root := by
  obtain ⟨rel, clean, rfl⟩ := below
  unfold joinBelow
  split
  · rename_i top
    obtain rfl := top
    intro same
    obtain rfl : rel = [] := (List.cons.inj same).2
    exact (clean [] (by simp)).1 rfl
  · intro same
    simpa using congrArg List.length same

/-- The cleaned root, with proper parts below it. -/
theorem joinBelow_rooted {root parts : List (List Char)} (kept : ∀ part ∈ root, ProperPart part) (some : parts ≠ []) :
    joinBelow ('/' :: joinParts root) (joinParts parts) = '/' :: joinParts (root ++ parts) := by
  unfold joinBelow
  split
  · rename_i top
    rw [joinParts_eq_nil kept (List.cons.inj top).2, List.nil_append]
  · rename_i lower
    have named : root ≠ [] := by
      rintro rfl
      exact lower rfl
    rw [joinParts_append named some, List.cons_append]

end GroupButler.Foundation
