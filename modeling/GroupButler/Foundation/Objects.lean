import GroupButler.Foundation.JsonRead
import Mathlib.Data.List.Sort

/-!
# The objects of a runtime

An object keeps one value for a key, under the place its key first took, and lists array indices in their
order before its other keys. `JSON.parse` makes such objects, and reads back what is written of them.
-/

namespace GroupButler.Foundation

universe u v
variable {α : Type u} {β : Type v}

/-! ### Own keys -/

/-- The index a key writes, if it writes one. -/
def arrayIndex (key : List Char) : Option Nat :=
  if key.all Char.isDigit ∧ key ≠ [] ∧ (key = ['0'] ∨ key.head? ≠ some '0') then
    (some (Nat.ofDigitChars 10 key 0)).filter fun n => n < 2 ^ 32 - 1
  else none

/-- Two keys in the order an object lists them, where it has one for them. -/
def Before (a b : List Char) : Prop :=
  match arrayIndex a, arrayIndex b with
  | some m, some n => m ≤ n
  | some _, none => True
  | none, some _ => False
  | none, none => True

instance (a b : List Char) : Decidable (Before a b) := by
  unfold Before
  split <;> infer_instance

theorem before_total (a b : List Char) : Before a b ∨ Before b a := by
  unfold Before
  cases arrayIndex a with
  | none => cases arrayIndex b <;> simp
  | some m =>
    cases arrayIndex b with
    | none => simp
    | some n => exact Nat.le_total m n

theorem before_trans {a b c : List Char} (ab : Before a b) (bc : Before b c) : Before a c := by
  unfold Before at *
  cases first : arrayIndex a with
  | none =>
    cases second : arrayIndex b with
    | some n => simp [first, second] at ab
    | none =>
      cases third : arrayIndex c with
      | none => trivial
      | some k => simp [second, third] at bc
  | some m =>
    cases third : arrayIndex c with
    | none => trivial
    | some k =>
      cases second : arrayIndex b with
      | none => simp [second, third] at bc
      | some n =>
        simp only [first, second, third] at ab bc ⊢
        omega

/-- `object[key] = value` -/
def assign (key : List Char) (value : α) : List (List Char × α) → List (List Char × α)
  | [] => [(key, value)]
  | (other, old) :: fields => if other = key then (key, value) :: fields else (other, old) :: assign key value fields

def inOrder (fields : List (List Char × α)) : List (List Char × α) := fields.insertionSort fun a b => Before a.1 b.1

/-- `Object.entries` of the object made of these fields. -/
def entriesOf (fields : List (List Char × α)) : List (List Char × α) :=
  inOrder (fields.foldl (fun own field => assign field.1 field.2 own) [])

/-- Fields an object lists just so. -/
structure Listed (fields : List (List Char × α)) : Prop where
  nodup : (fields.map Prod.fst).Nodup
  ordered : (fields.map Prod.fst).Pairwise Before

theorem assign_fresh {key : List Char} {value : α} {fields : List (List Char × α)} (fresh : key ∉ fields.map Prod.fst) :
    assign key value fields = fields ++ [(key, value)] := by
  induction fields with
  | nil => rfl
  | cons field fields ih =>
    obtain ⟨other, old⟩ := field
    rw [List.map_cons, List.mem_cons, not_or] at fresh
    rw [assign, if_neg (Ne.symm fresh.1), ih fresh.2, List.cons_append]

theorem assign_keys (key : List Char) (value : α) (fields : List (List Char × α)) :
    (assign key value fields).map Prod.fst =
      if key ∈ fields.map Prod.fst then fields.map Prod.fst else fields.map Prod.fst ++ [key] := by
  induction fields with
  | nil => rfl
  | cons field fields ih =>
    obtain ⟨other, old⟩ := field
    rw [assign]
    by_cases same : other = key
    · simp [same]
    · rw [if_neg same, List.map_cons, ih]
      by_cases later : key ∈ fields.map Prod.fst
      · simp [later]
      · simp [later, Ne.symm same]

theorem mem_assign {key : List Char} {value : α} {fields : List (List Char × α)} {field : List Char × α}
    (member : field ∈ assign key value fields) : field = (key, value) ∨ field ∈ fields := by
  induction fields with
  | nil => exact Or.inl (List.mem_singleton.mp member)
  | cons head fields ih =>
    obtain ⟨other, old⟩ := head
    rw [assign] at member
    split at member
    · rcases List.mem_cons.mp member with first | later
      · exact Or.inl first
      · exact Or.inr (List.mem_cons_of_mem _ later)
    · rcases List.mem_cons.mp member with first | later
      · rw [first]
        exact Or.inr List.mem_cons_self
      · rcases ih later with new | old
        · exact Or.inl new
        · exact Or.inr (List.mem_cons_of_mem _ old)

theorem assigned_nodup (fields : List (List Char × α)) {own : List (List Char × α)} (nodup : (own.map Prod.fst).Nodup) :
    ((fields.foldl (fun own field => assign field.1 field.2 own) own).map Prod.fst).Nodup := by
  induction fields generalizing own with
  | nil => exact nodup
  | cons field fields ih =>
    apply ih
    rw [assign_keys]
    split
    · exact nodup
    · rename_i fresh
      rw [List.nodup_append]
      refine ⟨nodup, List.nodup_singleton _, ?_⟩
      intro a old b new same
      rw [List.mem_singleton.mp new] at same
      exact fresh (same ▸ old)

theorem mem_assigned {fields own : List (List Char × α)} {field : List Char × α}
    (member : field ∈ fields.foldl (fun own field => assign field.1 field.2 own) own) : field ∈ own ∨ field ∈ fields := by
  induction fields generalizing own with
  | nil => exact Or.inl member
  | cons head fields ih =>
    rcases ih member with assigned | later
    · rcases mem_assign assigned with rfl | old
      · exact Or.inr List.mem_cons_self
      · exact Or.inl old
    · exact Or.inr (List.mem_cons_of_mem _ later)

theorem assigned_self (fields : List (List Char × α)) {own : List (List Char × α)}
    (nodup : ((own ++ fields).map Prod.fst).Nodup) :
    fields.foldl (fun own field => assign field.1 field.2 own) own = own ++ fields := by
  induction fields generalizing own with
  | nil => simp
  | cons field fields ih =>
    have fresh : field.1 ∉ own.map Prod.fst := by
      rw [List.map_append, List.nodup_append] at nodup
      intro old
      exact nodup.2.2 _ old _ List.mem_cons_self rfl
    rw [List.foldl_cons, assign_fresh fresh, ih (by simpa using nodup), List.append_assoc]
    rfl

theorem mem_entriesOf {fields : List (List Char × α)} {field : List Char × α} (member : field ∈ entriesOf fields) :
    field ∈ fields := by
  rcases mem_assigned ((List.mem_insertionSort _).mp member) with none_ | own
  · cases none_
  · exact own

theorem entriesOf_listed (fields : List (List Char × α)) : Listed (entriesOf fields) := by
  constructor
  · have keys := (List.perm_insertionSort (fun a b => Before a.1 b.1)
      (fields.foldl (fun own field => assign field.1 field.2 own) [])).map Prod.fst
    exact keys.nodup_iff.mpr (assigned_nodup fields List.nodup_nil)
  · have total : Std.Total fun a b : List Char × α => Before a.1 b.1 := ⟨fun a b => before_total a.1 b.1⟩
    have trans_ : IsTrans (List Char × α) fun a b => Before a.1 b.1 := ⟨fun _ _ _ ab bc => before_trans ab bc⟩
    rw [List.pairwise_map]
    exact List.pairwise_insertionSort _ _

/-- What an object lists it lists again. -/
theorem entriesOf_self {fields : List (List Char × α)} (listed : Listed fields) : entriesOf fields = fields := by
  have own := @assigned_self α fields [] listed.nodup
  rw [List.nil_append] at own
  rw [entriesOf, own]
  exact (List.pairwise_map.mp listed.ordered).insertionSort_eq

theorem Listed.sublist {fields : List (List Char × α)} {others : List (List Char × β)} (listed : Listed fields)
    (fewer : (others.map Prod.fst).Sublist (fields.map Prod.fst)) : Listed others :=
  ⟨listed.nodup.sublist fewer, listed.ordered.sublist fewer⟩

/-! ### Parsed values -/

section
variable (numbers : Numbers)

mutual

/-- A value as the runtime holds it. -/
def JsonValue.held : JsonValue → JsonValue
  | .null => .null
  | .bool b => .bool b
  | .num d => (numbers.held d).elim .null .num
  | .str cs => .str cs
  | .arr items => .arr (JsonValue.heldItems items)
  | .obj fields => .obj (entriesOf (JsonValue.heldFields fields))

def JsonValue.heldItems : List JsonValue → List JsonValue
  | [] => []
  | item :: items => item.held :: JsonValue.heldItems items

def JsonValue.heldFields : List (List Char × JsonValue) → List (List Char × JsonValue)
  | [] => []
  | (key, value) :: fields => (key, value.held) :: JsonValue.heldFields fields

end

/-- The value `JSON.parse(text)` makes, with `none` where it throws. -/
def jsonParse (cs : List Char) : Option JsonValue := (parseJson cs).map (JsonValue.held numbers)

mutual

/-- The runtime holds the value just so. -/
def JsonValue.Held : JsonValue → Prop
  | .null => True
  | .bool _ => True
  | .num d => numbers.held d = some d
  | .str _ => True
  | .arr items => JsonValue.HeldItems items
  | .obj fields => Listed fields ∧ JsonValue.HeldFields fields

def JsonValue.HeldItems : List JsonValue → Prop
  | [] => True
  | item :: items => item.Held ∧ JsonValue.HeldItems items

def JsonValue.HeldFields : List (List Char × JsonValue) → Prop
  | [] => True
  | (_, value) :: fields => value.Held ∧ JsonValue.HeldFields fields

end

variable {numbers}

theorem heldFields_iff {fields : List (List Char × JsonValue)} :
    JsonValue.HeldFields numbers fields ↔ ∀ field ∈ fields, field.2.Held numbers := by
  induction fields with
  | nil => simp [JsonValue.HeldFields]
  | cons field fields ih =>
    obtain ⟨key, value⟩ := field
    rw [JsonValue.HeldFields, ih, List.forall_mem_cons]

mutual

theorem held_held : (v : JsonValue) → (v.held numbers).Held numbers
  | .null => trivial
  | .bool _ => trivial
  | .num d => by
    rw [JsonValue.held]
    cases held : numbers.held d with
    | none => trivial
    | some e => exact numbers.settled held
  | .str _ => trivial
  | .arr items => heldItems_held items
  | .obj fields => ⟨entriesOf_listed _, heldFields_iff.mpr fun field member => heldFields_held fields field (mem_entriesOf member)⟩

theorem heldItems_held : (items : List JsonValue) → JsonValue.HeldItems numbers (JsonValue.heldItems numbers items)
  | [] => trivial
  | item :: items => ⟨held_held item, heldItems_held items⟩

theorem heldFields_held : (fields : List (List Char × JsonValue)) →
    ∀ field ∈ JsonValue.heldFields numbers fields, field.2.Held numbers
  | [] => fun _ none => by cases none
  | (key, value) :: fields => by
    intro field member
    rcases List.mem_cons.mp member with rfl | later
    · exact held_held value
    · exact heldFields_held fields field later

end

mutual

theorem JsonValue.Held.rounded_eq : (v : JsonValue) → v.Held numbers → v.rounded numbers = v
  | .null, _ => rfl
  | .bool _, _ => rfl
  | .num d, held => by rw [JsonValue.rounded, show numbers.held d = some d from held, Option.elim_some]
  | .str _, _ => rfl
  | .arr items, held => by rw [JsonValue.rounded, JsonValue.HeldItems.rounded_eq items held]
  | .obj fields, held => by rw [JsonValue.rounded, JsonValue.HeldFields.rounded_eq fields held.2]

theorem JsonValue.HeldItems.rounded_eq : (items : List JsonValue) → JsonValue.HeldItems numbers items →
    JsonValue.roundedItems numbers items = items
  | [], _ => rfl
  | item :: items, held => by
    rw [JsonValue.roundedItems, JsonValue.Held.rounded_eq item held.1, JsonValue.HeldItems.rounded_eq items held.2]

theorem JsonValue.HeldFields.rounded_eq : (fields : List (List Char × JsonValue)) → JsonValue.HeldFields numbers fields →
    JsonValue.roundedFields numbers fields = fields
  | [], _ => rfl
  | (key, value) :: fields, held => by
    rw [JsonValue.roundedFields, JsonValue.Held.rounded_eq value held.1, JsonValue.HeldFields.rounded_eq fields held.2]

end

mutual

theorem JsonValue.Held.held_eq : (v : JsonValue) → v.Held numbers → v.held numbers = v
  | .null, _ => rfl
  | .bool _, _ => rfl
  | .num d, held => by rw [JsonValue.held, show numbers.held d = some d from held, Option.elim_some]
  | .str _, _ => rfl
  | .arr items, held => by rw [JsonValue.held, JsonValue.HeldItems.held_eq items held]
  | .obj fields, held => by rw [JsonValue.held, JsonValue.HeldFields.held_eq fields held.2, entriesOf_self held.1]

theorem JsonValue.HeldItems.held_eq : (items : List JsonValue) → JsonValue.HeldItems numbers items →
    JsonValue.heldItems numbers items = items
  | [], _ => rfl
  | item :: items, held => by
    rw [JsonValue.heldItems, JsonValue.Held.held_eq item held.1, JsonValue.HeldItems.held_eq items held.2]

theorem JsonValue.HeldFields.held_eq : (fields : List (List Char × JsonValue)) → JsonValue.HeldFields numbers fields →
    JsonValue.heldFields numbers fields = fields
  | [], _ => rfl
  | (key, value) :: fields, held => by
    rw [JsonValue.heldFields, JsonValue.Held.held_eq value held.1, JsonValue.HeldFields.held_eq fields held.2]

end

theorem jsonParse_held {cs : List Char} {v : JsonValue} (parsed : jsonParse numbers cs = some v) : v.Held numbers := by
  obtain ⟨read, -, rfl⟩ := Option.map_eq_some_iff.mp parsed
  exact held_held read

/-- `JSON.parse(JSON.stringify(value))` is the value the runtime held. -/
theorem jsonParse_text {v : JsonValue} (held : v.Held numbers) : jsonParse numbers (v.text numbers) = some v := by
  rw [jsonParse, JsonValue.parseJson_text, held.rounded_eq, Option.map_some, held.held_eq]

end

example : entriesOf [(['b'], 1), (['2'], 2), (['1', '0'], 3), (['b'], 4), (['0', '1'], 5)] =
    [(['2'], 2), (['1', '0'], 3), (['b'], 4), (['0', '1'], 5)] := by decide

end GroupButler.Foundation
