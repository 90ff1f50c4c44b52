import Mathlib.Data.List.Basic

/-!
# Framed lists

Texts between an opening and a closing, joined by a separator. Where no text holds the mark the closing
starts with, the whole says which texts were framed.
-/

namespace GroupButler.Foundation

universe u
variable {α : Type u} {opening closing : List α} {mark sep : α}

def frame (opening closing content : List α) : List α := opening ++ (content ++ closing)

def framed (opening closing : List α) (sep : α) (contents : List (List α)) : List α :=
  [sep].intercalate (contents.map (frame opening closing))

theorem content_ends {content content' rest rest' : List α} (free : mark ∉ content) (free' : mark ∉ content')
    (same : content ++ mark :: rest = content' ++ mark :: rest') : content = content' ∧ rest = rest' := by
  induction content generalizing content' with
  | nil =>
    cases content' with
    | nil => exact ⟨rfl, (List.cons.inj same).2⟩
    | cons c content' =>
      obtain ⟨rfl, -⟩ := List.cons.inj same
      exact absurd List.mem_cons_self free'
  | cons c content ih =>
    cases content' with
    | nil =>
      obtain ⟨rfl, -⟩ := List.cons.inj same
      exact absurd List.mem_cons_self free
    | cons d content' =>
      obtain ⟨rfl, tails⟩ := List.cons.inj same
      obtain ⟨rfl, rests⟩ := ih (fun held => free (List.mem_cons_of_mem _ held))
        (fun held => free' (List.mem_cons_of_mem _ held)) tails
      exact ⟨rfl, rests⟩

theorem frame_ends {content content' rest rest' : List α} (free : mark ∉ content) (free' : mark ∉ content')
    (same : frame opening (mark :: closing) content ++ rest = frame opening (mark :: closing) content' ++ rest') :
    content = content' ∧ rest = rest' := by
  unfold frame at same
  simp only [List.append_assoc, List.cons_append] at same
  obtain ⟨rfl, rests⟩ := content_ends free free' (List.append_cancel_left same)
  exact ⟨rfl, List.append_cancel_left rests⟩

theorem framed_cons (content : List α) (contents : List (List α)) :
    framed opening closing sep (content :: contents) =
      frame opening closing content ++ if contents = [] then [] else sep :: framed opening closing sep contents := by
  cases contents with
  | nil => simp [framed]
  | cons next contents => simp [framed, List.intercalate_cons_cons]

/-- The joined frames split back one way only. -/
theorem framed_injective {contents contents' : List (List α)} (free : ∀ content ∈ contents, mark ∉ content)
    (free' : ∀ content ∈ contents', mark ∉ content)
    (same : framed opening (mark :: closing) sep contents = framed opening (mark :: closing) sep contents') :
    contents = contents' := by
  induction contents generalizing contents' with
  | nil =>
    cases contents' with
    | nil => rfl
    | cons content contents' =>
      rw [framed_cons] at same
      simp [framed, frame] at same
  | cons content contents ih =>
    cases contents' with
    | nil =>
      rw [framed_cons] at same
      simp [framed, frame] at same
    | cons content' contents' =>
      rw [framed_cons, framed_cons] at same
      obtain ⟨rfl, rests⟩ := frame_ends (free content List.mem_cons_self) (free' content' List.mem_cons_self) same
      have tails : contents = contents' := by
        by_cases none : contents = [] <;> by_cases none' : contents' = []
        · rw [none, none']
        · rw [if_pos none, if_neg none'] at rests
          exact absurd rests (List.cons_ne_nil _ _).symm
        · rw [if_neg none, if_pos none'] at rests
          exact absurd rests (List.cons_ne_nil _ _)
        · rw [if_neg none, if_neg none'] at rests
          exact ih (fun content member => free content (List.mem_cons_of_mem _ member))
            (fun content member => free' content (List.mem_cons_of_mem _ member)) (List.cons.inj rests).2
      rw [tails]

end GroupButler.Foundation
