import GroupButler.Foundation.Collection
import GroupButler.Foundation.Run
import Mathlib.Algebra.BigOperators.Group.List.Basic
import Mathlib.Data.List.Nodup

/-!
# Tallies

A collection whose documents are named by a key, and where every entry adds to the document of its key. What
the documents under some keys sum up to is what the entries under these keys do.
-/

namespace GroupButler.Foundation

universe u v w
variable {α : Type u} {β : Type v} {ε : Type w} [DecidableEq β] {key : α → β} {k : β} {change : α → α} {fresh : α} {docs : List α}

/-! ### One upsert -/

theorem filter_updateOne_key (keep : ∀ doc, key (change doc) = key doc) (p : β → Bool) :
    (updateOne (fun doc => key doc == k) change docs).filter (fun doc => p (key doc)) =
      if p k then updateOne (fun doc => key doc == k) change (docs.filter fun doc => p (key doc))
      else docs.filter fun doc => p (key doc) := by
  induction docs with
  | nil => simp [updateOne]
  | cons head rest ih =>
    rw [updateOne]
    by_cases matched : key head = k
    · cases inside : p k
      · simp [matched, keep, inside]
      · simp [matched, keep, inside, updateOne]
    · rw [if_neg (by simpa using matched)]
      cases inside : p k
      · cases here : p (key head)
        · simp [here, ih, inside]
        · simp [here, ih, inside]
      · cases here : p (key head)
        · simp [here, ih, inside]
        · simp [here, ih, inside, updateOne, matched]

theorem filter_upsertOne_key (keep : ∀ doc, key (change doc) = key doc) (named : key fresh = k) (p : β → Bool) :
    (upsertOne (fun doc => key doc == k) change fresh docs).filter (fun doc => p (key doc)) =
      if p k then upsertOne (fun doc => key doc == k) change fresh (docs.filter fun doc => p (key doc))
      else docs.filter fun doc => p (key doc) := by
  unfold upsertOne
  cases inside : p k
  · split
    · rw [filter_updateOne_key keep, inside]
      rfl
    · rw [List.filter_append]
      simp [named, inside]
  · have same : (docs.filter fun doc => p (key doc)).any (fun doc => key doc == k) = docs.any fun doc => key doc == k := by
      rw [Bool.eq_iff_iff, List.any_eq_true, List.any_eq_true]
      constructor
      · intro found
        obtain ⟨doc, member, matched⟩ := found
        exact ⟨doc, (List.mem_filter.mp member).1, matched⟩
      · intro found
        obtain ⟨doc, member, matched⟩ := found
        exact ⟨doc, List.mem_filter.mpr ⟨member, by rw [beq_iff_eq.mp matched]; exact inside⟩, matched⟩
    rw [same]
    split
    · rw [filter_updateOne_key keep, inside]
    · rw [List.filter_append]
      simp [named, inside]

theorem mem_keys_upsertOne (keep : ∀ doc, key (change doc) = key doc) (named : key fresh = k) {other : β} :
    other ∈ (upsertOne (fun doc => key doc == k) change fresh docs).map key ↔ other ∈ docs.map key ∨ other = k := by
  unfold upsertOne
  split
  · rename_i matched
    obtain ⟨doc, member, same⟩ := List.any_eq_true.mp matched
    rw [map_updateOne fun doc _ _ => keep doc]
    constructor
    · exact Or.inl
    · intro listed
      rcases listed with old | rfl
      · exact old
      · exact List.mem_map.mpr ⟨doc, member, beq_iff_eq.mp same⟩
  · rw [List.map_append, List.mem_append, List.map_singleton, List.mem_singleton, named]

/-- Documents counted by their keys are each counted once. -/
theorem sum_length_by_key {keys : List β} (distinct : keys.Nodup) (all : ∀ doc ∈ docs, key doc ∈ keys) :
    (keys.map fun k => (docs.filter fun doc => decide (key doc = k)).length).sum = docs.length := by
  induction docs with
  | nil => simp
  | cons doc docs ih =>
    have one : (keys.map fun k => if key doc = k then 1 else 0).sum = keys.count (key doc) := by
      have counted (keys : List β) : (keys.map fun k => if key doc = k then 1 else 0).sum = keys.count (key doc) := by
        induction keys with
        | nil => rfl
        | cons k keys ih =>
          rw [List.map_cons, List.sum_cons, ih, List.count_cons, Nat.add_comm]
          by_cases same : k = key doc
          · simp [same]
          · simp [same, Ne.symm same]
      exact counted keys
    have split : (keys.map fun k => ((doc :: docs).filter fun doc => decide (key doc = k)).length) =
        keys.map fun k => (docs.filter fun doc => decide (key doc = k)).length + if key doc = k then 1 else 0 := by
      refine List.map_congr_left fun k _ => ?_
      by_cases same : key doc = k
      · simp [same]
      · simp [same]
    rw [split, List.sum_map_add, ih fun other member => all other (List.mem_cons_of_mem doc member), one,
      List.count_eq_one_of_mem distinct (all doc List.mem_cons_self), List.length_cons]

/-! ### A run of entries -/

/-- How the entries of a tally are kept. -/
structure Tally (α : Type u) (β : Type v) (ε : Type w) where
  key : α → β
  place : ε → β
  add : ε → α → α
  fresh : ε → α
  key_add : ∀ e doc, key (add e doc) = key doc
  key_fresh : ∀ e, key (fresh e) = place e

namespace Tally

variable (t : Tally α β ε)

def post (docs : List α) (e : ε) : List α := upsertOne (fun doc => t.key doc == t.place e) (t.add e) (t.fresh e) docs

/-- The documents under a set of keys hold what the entries under these keys added, whatever their order. -/
theorem sum_post (weight : α → Nat) (amount : ε → Nat) (adds : ∀ e doc, weight (t.add e doc) = weight doc + amount e)
    (starts : ∀ e, weight (t.fresh e) = amount e) (p : β → Bool) (docs : List α) (entries : List ε) :
    (((run t.post docs entries).filter fun doc => p (t.key doc)).map weight).sum =
      ((docs.filter fun doc => p (t.key doc)).map weight).sum + ((entries.filter fun e => p (t.place e)).map amount).sum := by
  induction entries generalizing docs with
  | nil => simp [run]
  | cons e entries ih =>
    show (((run t.post (t.post docs e) entries).filter fun doc => p (t.key doc)).map weight).sum = _
    rw [ih, post, filter_upsertOne_key (t.key_add e) (t.key_fresh e)]
    cases inside : p (t.place e)
    · have skipped : (e :: entries).filter (fun e => p (t.place e)) = entries.filter fun e => p (t.place e) :=
        List.filter_cons_of_neg (by simp [inside])
      rw [skipped]
      rfl
    · have taken : (e :: entries).filter (fun e => p (t.place e)) = e :: entries.filter fun e => p (t.place e) :=
        List.filter_cons_of_pos inside
      rw [taken, List.map_cons, List.sum_cons, if_pos rfl, sum_upsertOne weight (adds e) (starts e)]
      omega

theorem mem_keys_post {k : β} {docs : List α} {entries : List ε} :
    k ∈ (run t.post docs entries).map t.key ↔ k ∈ docs.map t.key ∨ ∃ e ∈ entries, t.place e = k := by
  induction entries generalizing docs with
  | nil => simp [run]
  | cons e entries ih =>
    have step : k ∈ (t.post docs e).map t.key ↔ k ∈ docs.map t.key ∨ k = t.place e := mem_keys_upsertOne (t.key_add e) (t.key_fresh e)
    show k ∈ (run t.post (t.post docs e) entries).map t.key ↔ _
    rw [ih, step, List.exists_mem_cons_iff, or_assoc, eq_comm]

end Tally

end GroupButler.Foundation
