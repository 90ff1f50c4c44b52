import Mathlib.Data.List.Infix
import Mathlib.Data.List.Chain

/-!
# Forms that are decided between starters

A list has such a form where each stretch from a starter up to the next one has it, that one included. Taking
members out of a list keeps the form where the stretches they stood in keep it.
-/

namespace GroupButler.Foundation

universe u v
variable {α : Type u} {β : Type v} (stable : List α → Prop) (starter : α → Bool)

/-- The stretch that a member goes on with. -/
def stretch (window : List α) (x : α) : List α := if starter x then [x] else window ++ [x]

/-- Every stretch has the form; `window` is the one that is open. -/
def Settled (window : List α) : List α → Prop
  | [] => True
  | x :: xs => stable (window ++ [x]) ∧ Settled (stretch starter window x) xs

/-- Every stretch of the members in front of a break has the form. -/
def RunsSettled (run : β → Option α) (window : List α) : List β → Prop
  | [] => True
  | b :: bs =>
    match run b with
    | none => RunsSettled run [] bs
    | some x => stable (window ++ [x]) ∧ RunsSettled run (stretch starter window x) bs

/-- Every stretch that a member was taken out of has the form; `torn` says whether the open one is such. -/
def Joined (kept : β → Option α) (window : List α) (torn : Bool) : List β → Prop
  | [] => True
  | b :: bs =>
    match kept b with
    | none => Joined kept window true bs
    | some x => (torn = true → stable (window ++ [x])) ∧ Joined kept (stretch starter window x) (torn && !starter x) bs

variable {stable starter}

theorem settled_front {window xs ys : List α} (settled : Settled stable starter window (xs ++ ys)) :
    Settled stable starter window xs := by
  induction xs generalizing window with
  | nil => trivial
  | cons x xs ih => exact ⟨settled.1, ih settled.2⟩

section
variable (suffix : ∀ xs ys, stable (xs ++ ys) → stable ys)
include suffix

theorem settled_window {window later xs : List α} (settled : Settled stable starter (window ++ later) xs) :
    Settled stable starter later xs := by
  induction xs generalizing later with
  | nil => trivial
  | cons x xs ih =>
    obtain ⟨here, rest⟩ := settled
    rw [List.append_assoc] at here
    refine ⟨suffix _ _ here, ?_⟩
    unfold stretch at rest ⊢
    split
    · rwa [if_pos ‹_›] at rest
    · rw [if_neg ‹_›, List.append_assoc] at rest
      exact ih rest

theorem settled_back {window xs ys : List α} (settled : Settled stable starter window (xs ++ ys)) : Settled stable starter [] ys := by
  induction xs generalizing window with
  | nil =>
    rw [← List.append_nil window] at settled
    exact settled_window suffix settled
  | cons x xs ih => exact ih settled.2

end

/-- Behind a starter the open stretch is the starter itself. -/
theorem settled_behind {window xs ys : List α} {x : α} (start : starter x = true)
    (settled : Settled stable starter window (xs ++ x :: ys)) : Settled stable starter [x] ys := by
  induction xs generalizing window with
  | nil =>
    have rest := settled.2
    rwa [stretch, if_pos start] at rest
  | cons y xs ih => exact ih settled.2

/-- The kept members have the form exactly where the torn stretches have it. -/
theorem settled_filterMap {run kept : β → Option α} (within : ∀ b x, kept b = some x → run b = some x) {window open_ : List α}
    {torn : Bool} {bs : List β} (runs : RunsSettled stable starter run open_ bs) (whole : torn = false → window = open_) :
    Settled stable starter window (bs.filterMap kept) ↔ Joined stable starter kept window torn bs := by
  induction bs generalizing window open_ torn with
  | nil => exact Iff.rfl
  | cons b bs ih =>
    cases keeps : kept b with
    | none =>
      rw [List.filterMap_cons_none keeps, Joined, keeps]
      rw [RunsSettled] at runs
      split at runs
      · exact ih runs nofun
      · exact ih runs.2 nofun
    | some x =>
      rw [RunsSettled, within b x keeps] at runs
      rw [List.filterMap_cons_some keeps, Joined, keeps]
      have later : Settled stable starter (stretch starter window x) (bs.filterMap kept) ↔
          Joined stable starter kept (stretch starter window x) (torn && !starter x) bs := by
        apply ih runs.2
        intro unbroken
        unfold stretch
        cases start : starter x with
        | true => rfl
        | false =>
          rw [start, Bool.not_false, Bool.and_true] at unbroken
          rw [whole unbroken]
      refine and_congr ?_ later
      cases torn with
      | true => simp
      | false =>
        rw [whole rfl]
        exact iff_of_true runs.1 nofun

/-- A form that is decided by neighbours is decided between any starters. -/
theorem settled_isChain {R : α → α → Prop} {window xs : List α} (open_ : window.IsChain R) :
    Settled (List.IsChain R) starter window xs ↔ (window ++ xs).IsChain R := by
  induction xs generalizing window with
  | nil => simpa [Settled] using open_
  | cons x xs ih =>
    rw [Settled, @List.isChain_split _ R x window xs]
    apply and_congr_right
    intro here
    unfold stretch
    split
    · exact ih (List.IsChain.singleton x)
    · rw [ih here, List.append_assoc, List.singleton_append, @List.isChain_split _ R x window xs]
      exact and_iff_right here

end GroupButler.Foundation
