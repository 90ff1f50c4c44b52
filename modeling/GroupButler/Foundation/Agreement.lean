import GroupButler.Foundation.Collection

/-!
# Agreement on a scope

Two collections agree on a scope when the documents in it are the same, in the same order. What a
filter inside the scope reads is then the same, and so is what is found by a unique key and used only
when it turns out to lie in the scope.
-/

namespace GroupButler.Foundation

universe u v
variable {α : Type u} {β : Type v} {scope p : α → Bool} {docs docs' : List α}

def Agree (scope : α → Bool) (docs docs' : List α) : Prop := docs.filter scope = docs'.filter scope

theorem Agree.symm (agree : Agree scope docs docs') : Agree scope docs' docs := Eq.symm agree

theorem Agree.filter (agree : Agree scope docs docs') (inside : ∀ doc, p doc = true → scope doc = true) :
    docs.filter p = docs'.filter p := by
  have narrow (docs : List α) : (docs.filter scope).filter p = docs.filter p := by
    rw [List.filter_filter]
    refine List.filter_congr fun doc _ => ?_
    cases here : p doc with
    | false => rfl
    | true => simp [inside doc here]
  rw [← narrow docs, agree, narrow]

theorem Agree.find? (agree : Agree scope docs docs') (inside : ∀ doc, p doc = true → scope doc = true) :
    docs.find? p = docs'.find? p := by
  rw [← List.head?_filter, ← List.head?_filter, agree.filter inside]

theorem Agree.any (agree : Agree scope docs docs') (inside : ∀ doc, p doc = true → scope doc = true) :
    docs.any p = docs'.any p := by
  rw [← List.isSome_find?, ← List.isSome_find?, agree.find? inside]

/-- Under a unique key it does not matter whether the scope is applied before or after the search. -/
theorem find?_filter_unique [BEq β] [LawfulBEq β] {key : α → β} (unique : (docs.map key).Nodup) (k : β) :
    (docs.filter scope).find? (fun doc => key doc == k) = (docs.find? fun doc => key doc == k).filter scope := by
  induction docs with
  | nil => rfl
  | cons head rest ih =>
    obtain ⟨absent, uniqueRest⟩ := List.nodup_cons.mp unique
    by_cases named : key head = k
    · rw [List.find?_cons_of_pos (by simpa using named)]
      by_cases inside : scope head = true
      · rw [List.filter_cons_of_pos inside, List.find?_cons_of_pos (by simpa using named), Option.filter_some, if_pos inside]
      · have none : rest.find? (fun doc => key doc == k) = none := by
          rw [List.find?_eq_none]
          intro doc member same
          exact absent (List.mem_map.mpr ⟨doc, member, by rw [named]; simpa using same⟩)
        rw [List.filter_cons_of_neg inside, ih uniqueRest, none, Option.filter_some, if_neg inside]
        rfl
    · rw [List.find?_cons_of_neg (by simpa using named), ← ih uniqueRest]
      by_cases inside : scope head = true
      · rw [List.filter_cons_of_pos inside, List.find?_cons_of_neg (by simpa using named)]
      · rw [List.filter_cons_of_neg inside]

theorem Agree.find?_unique [BEq β] [LawfulBEq β] {key : α → β} (unique : (docs.map key).Nodup)
    (unique' : (docs'.map key).Nodup) (agree : Agree scope docs docs') (k : β) :
    (docs.find? fun doc => key doc == k).filter scope = (docs'.find? fun doc => key doc == k).filter scope := by
  rw [← find?_filter_unique unique, agree, find?_filter_unique unique']

/-- What lies outside the scope may be replaced by any one document outside it. -/
theorem agree_outside {doc : α} (outside : scope doc = false) : Agree scope docs (docs.filter scope ++ [doc]) := by
  have itself : (docs.filter scope).filter scope = docs.filter scope := by simp
  rw [Agree, List.filter_append, itself, List.filter_cons_of_neg (by simpa using outside), List.filter_nil, List.append_nil]

end GroupButler.Foundation
