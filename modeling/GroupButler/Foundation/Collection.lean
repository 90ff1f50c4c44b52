import Mathlib.Algebra.GroupWithZero.Nat
import Mathlib.Data.List.Perm.Basic

/-!
# Document collections

A collection is the list of its documents. An update names the documents it applies to by a filter
and rewrites each one in place. `updateOne` stops at the first match; a unique index makes that the
only one.
-/

namespace GroupButler.Foundation

universe u v
variable {α : Type u} {β : Type v}

/-- Rewrite the first document the filter matches. -/
def updateOne (filter : α → Bool) (change : α → α) : List α → List α
  | [] => []
  | doc :: docs => if filter doc then change doc :: docs else doc :: updateOne filter change docs

/-- Rewrite every document the filter matches. -/
def updateMany (filter : α → Bool) (change : α → α) (docs : List α) : List α :=
  docs.map fun doc => if filter doc then change doc else doc

/-- Rewrite the match, or insert `fresh` when nothing matches. -/
def upsertOne (filter : α → Bool) (change : α → α) (fresh : α) (docs : List α) : List α :=
  if docs.any filter then updateOne filter change docs else docs ++ [fresh]

/-- Insert `fresh` unless a document already holds its unique key. -/
def insertUnique [BEq β] (key : α → β) (fresh : α) (docs : List α) : List α :=
  if docs.any (fun doc => key doc == key fresh) then docs else docs ++ [fresh]

variable {filter : α → Bool} {change : α → α} {docs : List α}

theorem mem_updateOne {doc : α} (h : doc ∈ updateOne filter change docs) :
    doc ∈ docs ∨ ∃ old ∈ docs, filter old = true ∧ doc = change old := by
  induction docs with
  | nil => simp [updateOne] at h
  | cons head rest ih =>
    unfold updateOne at h
    split at h
    · rename_i matched
      rcases List.mem_cons.mp h with rfl | h
      · exact Or.inr ⟨head, List.mem_cons_self, matched, rfl⟩
      · exact Or.inl (List.mem_cons_of_mem _ h)
    · rcases List.mem_cons.mp h with rfl | h
      · exact Or.inl List.mem_cons_self
      · rcases ih h with old | ⟨old, member, matched, same⟩
        · exact Or.inl (List.mem_cons_of_mem _ old)
        · exact Or.inr ⟨old, List.mem_cons_of_mem _ member, matched, same⟩

/-- The one document an update rewrites is the first that matches. -/
theorem mem_updateOne_first {doc : α} (h : doc ∈ updateOne filter change docs) :
    doc ∈ docs ∨ ∃ old, docs.find? filter = some old ∧ doc = change old := by
  induction docs with
  | nil => cases h
  | cons head rest ih =>
    unfold updateOne at h
    by_cases matched : filter head = true
    · rw [if_pos matched] at h
      rcases List.mem_cons.mp h with rfl | later
      · exact Or.inr ⟨head, List.find?_cons_of_pos matched, rfl⟩
      · exact Or.inl (List.mem_cons_of_mem _ later)
    · rw [if_neg matched] at h
      rcases List.mem_cons.mp h with rfl | later
      · exact Or.inl List.mem_cons_self
      · rcases ih later with old | ⟨old, found, same⟩
        · exact Or.inl (List.mem_cons_of_mem _ old)
        · exact Or.inr ⟨old, (List.find?_cons_of_neg matched).trans found, same⟩

theorem mem_updateMany {doc : α} :
    doc ∈ updateMany filter change docs ↔
      ∃ old ∈ docs, (if filter old then change old else old) = doc := List.mem_map

theorem forall_mem_updateOne {P : α → Prop} (all : ∀ doc ∈ docs, P doc)
    (keep : ∀ doc ∈ docs, filter doc = true → P doc → P (change doc)) :
    ∀ doc ∈ updateOne filter change docs, P doc := by
  intro doc member
  rcases mem_updateOne member with old | ⟨old, present, matched, rfl⟩
  · exact all doc old
  · exact keep old present matched (all old present)

/-- An update that leaves a field alone leaves the column of that field alone. -/
theorem map_updateOne {key : α → β} (keep : ∀ doc ∈ docs, filter doc = true → key (change doc) = key doc) :
    (updateOne filter change docs).map key = docs.map key := by
  induction docs with
  | nil => rfl
  | cons head rest ih =>
    unfold updateOne
    split
    · rename_i matched
      simp [keep head List.mem_cons_self matched]
    · simp [ih fun doc member => keep doc (List.mem_cons_of_mem _ member)]

/-- An update seen through a view is an update of what is seen. -/
theorem map_updateOne_view {view : α → β} {seen : β → Bool} {turn : β → β} (same : ∀ doc, view (change doc) = turn (view doc)) :
    (updateOne (fun doc => seen (view doc)) change docs).map view = updateOne seen turn (docs.map view) := by
  induction docs with
  | nil => rfl
  | cons head rest ih =>
    rw [List.map_cons, updateOne, updateOne]
    split
    · rw [List.map_cons, same]
    · rw [List.map_cons, ih]

theorem updateOne_of_no_match (none : ∀ doc ∈ docs, filter doc = false) :
    updateOne filter change docs = docs := by
  induction docs with
  | nil => rfl
  | cons head rest ih =>
    unfold updateOne
    simp [none head List.mem_cons_self, ih fun doc member => none doc (List.mem_cons_of_mem _ member)]

theorem updateOne_append {rest : List α} (none : ∀ doc ∈ docs, filter doc = false) :
    updateOne filter change (docs ++ rest) = docs ++ updateOne filter change rest := by
  induction docs with
  | nil => rfl
  | cons head tail ih =>
    rw [List.cons_append, updateOne, none head List.mem_cons_self]
    simp [ih fun doc member => none doc (List.mem_cons_of_mem _ member)]

/-- Under a unique index the first match is every match. -/
theorem updateOne_eq_updateMany {key : α → β} {k : β} (unique : (docs.map key).Nodup)
    (names : ∀ doc ∈ docs, filter doc = true → key doc = k) :
    updateOne filter change docs = updateMany filter change docs := by
  induction docs with
  | nil => rfl
  | cons head rest ih =>
    obtain ⟨absent, uniqueRest⟩ := List.nodup_cons.mp unique
    have namesRest : ∀ doc ∈ rest, filter doc = true → key doc = k :=
      fun doc member => names doc (List.mem_cons_of_mem _ member)
    have tail := ih uniqueRest namesRest
    unfold updateMany at tail ⊢
    unfold updateOne
    by_cases matched : filter head = true
    · have headKey := names head List.mem_cons_self matched
      have others : ∀ doc ∈ rest, filter doc = false := by
        intro doc member
        refine Bool.eq_false_iff.mpr fun other => absent ?_
        have same := namesRest doc member other
        exact List.mem_map.mpr ⟨doc, member, same.trans headKey.symm⟩
      rw [if_pos matched, List.map_cons, if_pos matched, ← tail, updateOne_of_no_match others]
    · rw [if_neg matched, List.map_cons, if_neg matched, tail]

/-- Under a unique index, what a key finds after an update is what it found before, updated. -/
theorem find?_updateOne {key : α → β} {k : β} {p : α → Bool} (unique : (docs.map key).Nodup)
    (names : ∀ doc ∈ docs, filter doc = true → key doc = k) (keep : ∀ doc, filter doc = true → p (change doc) = p doc) :
    (updateOne filter change docs).find? p = (docs.find? p).map fun doc => if filter doc then change doc else doc := by
  rw [updateOne_eq_updateMany unique names]
  unfold updateMany
  rw [List.find?_map]
  congr 2
  funext doc
  show p (if filter doc = true then change doc else doc) = p doc
  split
  · rename_i matched
    exact keep doc matched
  · rfl

theorem mem_updateOne_of_mem {doc : α} (member : doc ∈ docs) :
    doc ∈ updateOne filter change docs ∨ filter doc = true ∧ change doc ∈ updateOne filter change docs := by
  induction docs with
  | nil => cases member
  | cons head rest ih =>
    unfold updateOne
    by_cases matched : filter head = true
    · rw [if_pos matched]
      rcases List.mem_cons.mp member with rfl | later
      · exact Or.inr ⟨matched, List.mem_cons_self⟩
      · exact Or.inl (List.mem_cons_of_mem _ later)
    · rw [if_neg matched]
      rcases List.mem_cons.mp member with rfl | later
      · exact Or.inl List.mem_cons_self
      · rcases ih later with kept | ⟨same, changed⟩
        · exact Or.inl (List.mem_cons_of_mem _ kept)
        · exact Or.inr ⟨same, List.mem_cons_of_mem _ changed⟩

theorem mem_updateOne_found {doc : α} (found : docs.find? filter = some doc) :
    change doc ∈ updateOne filter change docs := by
  induction docs with
  | nil => cases found
  | cons head rest ih =>
    unfold updateOne
    by_cases matched : filter head = true
    · obtain rfl : head = doc := by simpa [List.find?_cons, matched] using found
      rw [if_pos matched]
      exact List.mem_cons_self
    · have foundRest : rest.find? filter = some doc := by simpa [List.find?_cons, matched] using found
      rw [if_neg matched]
      exact List.mem_cons_of_mem _ (ih foundRest)

/-- An update of the document found moves a count by that document alone. -/
theorem countP_updateOne (p : α → Bool) (change : α → α) {doc : α} (found : docs.find? filter = some doc) :
    (updateOne filter change docs).countP p + (if p doc then 1 else 0) =
      docs.countP p + (if p (change doc) then 1 else 0) := by
  induction docs with
  | nil => cases found
  | cons head rest ih =>
    unfold updateOne
    by_cases matched : filter head = true
    · obtain rfl : head = doc := by simpa [List.find?_cons, matched] using found
      rw [if_pos matched, List.countP_cons, List.countP_cons]
      omega
    · have foundRest : rest.find? filter = some doc := by simpa [List.find?_cons, matched] using found
      have tail := ih foundRest
      rw [if_neg matched, List.countP_cons, List.countP_cons]
      omega

/-- An update of the document found moves a sum by that document alone. -/
theorem sum_updateOne (value : α → Nat) {n : Nat} {doc : α} (found : docs.find? filter = some doc)
    (adds : ∀ doc, value (change doc) = value doc + n) :
    ((updateOne filter change docs).map value).sum = (docs.map value).sum + n := by
  induction docs with
  | nil => cases found
  | cons head rest ih =>
    unfold updateOne
    by_cases matched : filter head = true
    · rw [if_pos matched, List.map_cons, List.map_cons, List.sum_cons, List.sum_cons, adds]
      omega
    · have foundRest : rest.find? filter = some doc := by simpa [List.find?_cons, matched] using found
      rw [if_neg matched, List.map_cons, List.map_cons, List.sum_cons, List.sum_cons, ih foundRest]
      omega

/-- An upsert that adds to the document it finds, or to nothing, adds to the sum. -/
theorem sum_upsertOne (value : α → Nat) {n : Nat} {fresh : α} (adds : ∀ doc, value (change doc) = value doc + n)
    (starts : value fresh = n) : ((upsertOne filter change fresh docs).map value).sum = (docs.map value).sum + n := by
  unfold upsertOne
  split
  · rename_i matched
    obtain ⟨doc, found⟩ := Option.isSome_iff_exists.mp (List.find?_isSome.mpr (List.any_eq_true.mp matched))
    exact sum_updateOne value found adds
  · rw [List.map_append, List.sum_append, List.map_singleton, List.sum_singleton, starts]

/-- A unique index finds a document by its key, and nothing else. -/
theorem filter_unique [BEq β] [LawfulBEq β] {key : α → β} (unique : (docs.map key).Nodup) {doc : α} (member : doc ∈ docs) :
    docs.filter (fun other => key other == key doc) = [doc] := by
  induction docs with
  | nil => cases member
  | cons head rest ih =>
    obtain ⟨absent, uniqueRest⟩ := List.nodup_cons.mp unique
    rcases List.mem_cons.mp member with rfl | later
    · have others : ∀ other ∈ rest, ¬ (key other == key doc) = true := by
        intro other present same
        exact absent (List.mem_map.mpr ⟨other, present, by simpa using same⟩)
      rw [List.filter_cons_of_pos (by simp), List.filter_eq_nil_iff.mpr others]
    · have different : key head ≠ key doc := fun same => absent (List.mem_map.mpr ⟨doc, later, same.symm⟩)
      rw [List.filter_cons_of_neg (by simpa using different), ih uniqueRest later]

theorem mem_upsertOne {doc fresh : α} (h : doc ∈ upsertOne filter change fresh docs) :
    doc ∈ docs ∨ (∃ old ∈ docs, filter old = true ∧ doc = change old) ∨
      ((∀ old ∈ docs, filter old = false) ∧ doc = fresh) := by
  unfold upsertOne at h
  split at h
  · rcases mem_updateOne h with old | matched
    · exact Or.inl old
    · exact Or.inr (Or.inl matched)
  · rename_i absent
    rcases List.mem_append.mp h with old | new
    · exact Or.inl old
    · exact Or.inr (Or.inr ⟨by simpa using absent, by simpa using new⟩)

/-! ### Rows by key -/

section ByKey
variable [DecidableEq β] {key : α → β} {k : β} {fresh : α}

theorem find?_updateOne_key (keep : ∀ doc, key (change doc) = key doc) (other : β) :
    (updateOne (fun doc => key doc == k) change docs).find? (fun doc => key doc == other) =
      if other = k then (docs.find? fun doc => key doc == k).map change else docs.find? fun doc => key doc == other := by
  induction docs with
  | nil => simp [updateOne]
  | cons head rest ih =>
    unfold updateOne
    by_cases matched : key head = k
    · by_cases same : other = k
      · simp [matched, keep, same]
      · simp [matched, keep, same, Ne.symm same]
    · rw [if_neg (by simpa using matched)]
      by_cases found : key head = other
      · have different : other ≠ k := fun same => matched (found.trans same)
        simp [found, different]
      · rw [List.find?_cons_of_neg (by simpa using found), ih]
        simp [matched, found]

theorem find?_upsertOne_key (keep : ∀ doc, key (change doc) = key doc) (named : key fresh = k) (other : β) :
    (upsertOne (fun doc => key doc == k) change fresh docs).find? (fun doc => key doc == other) =
      if other = k then some ((docs.find? fun doc => key doc == k).elim fresh change)
      else docs.find? fun doc => key doc == other := by
  unfold upsertOne
  split
  · rename_i matched
    obtain ⟨doc, found⟩ := Option.isSome_iff_exists.mp (List.find?_isSome.mpr (List.any_eq_true.mp matched))
    rw [find?_updateOne_key keep, found]
    rfl
  · rename_i absent
    have none : docs.find? (fun doc => key doc == k) = none := by simpa using absent
    rw [List.find?_append]
    by_cases same : other = k
    · simp [same, none, named]
    · have skipped : [fresh].find? (fun doc => key doc == other) = Option.none := by simp [named, Ne.symm same]
      rw [skipped, if_neg same, Option.or_none]

/-- An upsert by a unique key keeps it unique. -/
theorem nodup_upsertOne (unique : (docs.map key).Nodup) (keep : ∀ doc, key (change doc) = key doc) (named : key fresh = k) :
    ((upsertOne (fun doc => key doc == k) change fresh docs).map key).Nodup := by
  unfold upsertOne
  split
  · rw [map_updateOne fun doc _ _ => keep doc]
    exact unique
  · rename_i absent
    rw [List.map_append, List.map_singleton, named]
    refine List.nodup_append.mpr ⟨unique, by simp, ?_⟩
    intro old member new isFresh same
    obtain ⟨doc, present, rfl⟩ := List.mem_map.mp member
    rw [List.mem_singleton] at isFresh
    exact absent (List.any_eq_true.mpr ⟨doc, present, by simp [same, isFresh]⟩)

end ByKey

/-! ### Rewriting by position -/

variable {R : α → α → Prop} {index : Nat} {old new : α}

theorem pairwise_set (pairwise : docs.Pairwise R) (found : docs[index]? = some old)
    (before : ∀ doc ∈ docs, R doc old → R doc new) (after : ∀ doc ∈ docs, R old doc → R new doc) :
    (docs.set index new).Pairwise R := by
  induction docs generalizing index with
  | nil => cases found
  | cons head rest ih =>
    obtain ⟨headed, rested⟩ := List.pairwise_cons.mp pairwise
    cases index with
    | zero =>
      obtain rfl : head = old := by simpa using found
      refine List.pairwise_cons.mpr ⟨?_, rested⟩
      intro doc member
      exact after doc (List.mem_cons_of_mem _ member) (headed doc member)
    | succ index =>
      have foundRest : rest[index]? = some old := by simpa using found
      refine List.pairwise_cons.mpr ⟨?_, ?_⟩
      · intro doc member
        rcases List.mem_or_eq_of_mem_set member with kept | rfl
        · exact headed doc kept
        · exact before head List.mem_cons_self (headed old (List.mem_of_getElem? foundRest))
      · exact ih rested foundRest (fun doc member => before doc (List.mem_cons_of_mem _ member))
          fun doc member => after doc (List.mem_cons_of_mem _ member)

/-- The documents beside the rewritten one stood in the relation to it. -/
theorem mem_set_of_pairwise (pairwise : docs.Pairwise R) (found : docs[index]? = some old) {doc : α}
    (member : doc ∈ docs.set index new) : doc = new ∨ R doc old ∨ R old doc := by
  induction docs generalizing index with
  | nil => cases found
  | cons head rest ih =>
    obtain ⟨headed, rested⟩ := List.pairwise_cons.mp pairwise
    cases index with
    | zero =>
      obtain rfl : head = old := by simpa using found
      rcases List.mem_cons.mp member with rfl | later
      · exact Or.inl rfl
      · exact Or.inr (Or.inr (headed doc later))
    | succ index =>
      have foundRest : rest[index]? = some old := by simpa using found
      rcases List.mem_cons.mp member with rfl | later
      · exact Or.inr (Or.inl (headed old (List.mem_of_getElem? foundRest)))
      · exact ih rested foundRest later

theorem mem_set_of_mem {doc : α} (found : docs[index]? = some old) (member : doc ∈ docs) :
    doc = old ∨ doc ∈ docs.set index new := by
  induction docs generalizing index with
  | nil => cases member
  | cons head rest ih =>
    cases index with
    | zero =>
      obtain rfl : head = old := by simpa using found
      rcases List.mem_cons.mp member with rfl | later
      · exact Or.inl rfl
      · exact Or.inr (List.mem_cons_of_mem _ later)
    | succ index =>
      rcases List.mem_cons.mp member with rfl | later
      · exact Or.inr List.mem_cons_self
      · rcases ih (show rest[index]? = some old by simpa using found) later with same | kept
        · exact Or.inl same
        · exact Or.inr (List.mem_cons_of_mem _ kept)

theorem mem_set_new (found : docs[index]? = some old) : new ∈ docs.set index new := by
  obtain ⟨inside, _⟩ := List.getElem?_eq_some_iff.mp found
  exact List.mem_set inside new

/-- A rewrite that leaves a field alone leaves the column of that field alone. -/
theorem map_set_same {key : α → β} (found : docs[index]? = some old) (same : key new = key old) :
    (docs.set index new).map key = docs.map key := by
  induction docs generalizing index with
  | nil => rfl
  | cons head rest ih =>
    cases index with
    | zero =>
      obtain rfl : head = old := by simpa using found
      simp [same]
    | succ index => simp [ih (show rest[index]? = some old by simpa using found)]

theorem eraseIdx_perm (found : docs[index]? = some old) : (old :: docs.eraseIdx index).Perm docs := by
  obtain ⟨inside, rfl⟩ := List.getElem?_eq_some_iff.mp found
  exact List.getElem_cons_eraseIdx_perm inside

/-- At most one document where no two may stand together. -/
theorem length_filter_le_one (pairwise : docs.Pairwise fun first second => ¬ (filter first = true ∧ filter second = true)) :
    (docs.filter filter).length ≤ 1 := by
  induction docs with
  | nil => exact Nat.zero_le 1
  | cons head rest ih =>
    obtain ⟨headed, rested⟩ := List.pairwise_cons.mp pairwise
    by_cases matched : filter head = true
    · have others : rest.filter filter = [] :=
        List.filter_eq_nil_iff.mpr fun doc member other => headed doc member ⟨matched, other⟩
      rw [List.filter_cons_of_pos matched, others]
      exact Nat.le_refl 1
    · rw [List.filter_cons_of_neg matched]
      exact ih rested

end GroupButler.Foundation
