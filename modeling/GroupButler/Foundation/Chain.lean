/-!
# Linked lists of segments

Each segment names the point it starts from, and ends at a point of its own. When no two segments may
start from one point, a segment that starts from a point of the list can only go at its end.
-/

namespace GroupButler.Foundation

universe u v
variable {α : Type u} {κ : Type v} (source target : α → κ)

/-- Each segment starts where the one before it ended, the first at `start`. -/
def Linked : κ → List α → Prop
  | _, [] => True
  | start, x :: later => source x = start ∧ Linked (target x) later

variable {source target}

theorem linked_map {f : α → α} {start : κ} {l : List α} (same : ∀ x ∈ l, source (f x) = source x ∧ target (f x) = target x)
    (linked : Linked source target start l) : Linked source target start (l.map f) := by
  induction l generalizing start with
  | nil => trivial
  | cons x later ih =>
    obtain ⟨sameSource, sameTarget⟩ := same x List.mem_cons_self
    refine ⟨sameSource.trans linked.1, ?_⟩
    rw [sameTarget]
    exact ih (fun y member => same y (List.mem_cons_of_mem _ member)) linked.2

theorem linked_concat {start : κ} {init : List α} {last next : α} (linked : Linked source target start (init ++ [last]))
    (follows : source next = target last) : Linked source target start (init ++ [last] ++ [next]) := by
  induction init generalizing start with
  | nil => exact ⟨linked.1, follows, trivial⟩
  | cons x init ih => exact ⟨linked.1, ih linked.2⟩

/-- The segments start from `start` and from every end but the last. -/
theorem linked_sources {start : κ} {l : List α} (linked : Linked source target start l) :
    l.map source = (start :: l.map target).dropLast := by
  induction l generalizing start with
  | nil => rfl
  | cons x later ih =>
    show source x :: later.map source = start :: (target x :: later.map target).dropLast
    rw [linked.1, ih linked.2]

theorem linked_distinct {start : κ} {l : List α} (linked : Linked source target start l)
    (new : ∀ x ∈ l, target x ≠ start) (distinct : (l.map target).Nodup) : (l.map source).Nodup := by
  rw [linked_sources linked]
  refine List.Nodup.sublist (List.dropLast_sublist _) (List.nodup_cons.mpr ⟨fun known => ?_, distinct⟩)
  obtain ⟨x, member, same⟩ := List.mem_map.mp known
  exact new x member same

theorem linked_of_free_start {start : κ} {l : List α} (linked : Linked source target start l)
    (free : ∀ x ∈ l, source x ≠ start) : l = [] := by
  cases l with
  | nil => rfl
  | cons x later => exact absurd linked.1 (free x List.mem_cons_self)

/-- A segment from which nothing starts is the last one. -/
theorem linked_of_free_end {start : κ} {l : List α} (linked : Linked source target start l) {last : α} (member : last ∈ l)
    (free : ∀ x ∈ l, source x ≠ target last) : ∃ init, l = init ++ [last] := by
  induction l generalizing start with
  | nil => cases member
  | cons x later ih =>
    rcases List.mem_cons.mp member with rfl | deeper
    · have alone := linked_of_free_start linked.2 fun y present => free y (List.mem_cons_of_mem _ present)
      exact ⟨[], by simp [alone]⟩
    · obtain ⟨init, rest⟩ := ih linked.2 deeper fun y present => free y (List.mem_cons_of_mem _ present)
      exact ⟨x :: init, by simp [rest]⟩

end GroupButler.Foundation
