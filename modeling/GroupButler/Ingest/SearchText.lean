import GroupButler.Foundation.Boundary
import GroupButler.Foundation.Path
import GroupButler.Foundation.Utf8
import GroupButler.Ingest.Message
import Mathlib.Data.List.Sort
import Mathlib.Data.String.Basic
import Mathlib.Logic.Relation

/-!
# Search text, byte by byte

`rawSearchText` walks a raw tree leaf by leaf into a text of bounded size and stops when it is full. Go strings
are bytes here, valid UTF-8 or not, and a map is its entries in the order one iteration yields them.
-/

namespace GroupButler.Ingest.SearchText
open Foundation

/-- The bytes of a string. -/
abbrev Octets := List Nat

/-- `map[string]any`, `[]any` and `string`, and anything else. -/
inductive RawTree (κ : Type) where
  | obj (entries : List (κ × RawTree κ))
  | arr (items : List (RawTree κ))
  | text (s : Octets)
  | other

def utf8Start (b : Nat) : Bool := b &&& 0xC0 != 0x80

def truncateUTF8 (s : Octets) (max : Nat) : Octets := cutTo utf8Start s max

structure BoundedText where
  buf : Octets
  max : Nat
  full : Bool
  deriving DecidableEq, Repr

def newBoundedText (max : Nat) : BoundedText := ⟨[], max, false⟩

def BoundedText.add (b : BoundedText) (leaf : Octets) : BoundedText :=
  if b.full || leaf.isEmpty then b
  else if !b.buf.isEmpty && b.max < b.buf.length + 1 then { b with full := true }
  else
    let buf := if b.buf.isEmpty then b.buf else b.buf ++ [0x0A]
    let room := b.max - buf.length
    if room = 0 then { b with buf, full := true }
    else if room < leaf.length then { b with buf := buf ++ truncateUTF8 leaf room, full := true }
    else { b with buf := buf ++ leaf }

/-- The loop over a node's children, which returns as soon as the text is full. -/
def untilFull : List (BoundedText → BoundedText) → BoundedText → BoundedText
  | [], out => out
  | child :: rest, out => if (child out).full then child out else untilFull rest (child out)

section
variable {κ : Type} [LinearOrder κ] (toLower : κ → κ)

def rawKeyLe {α : Type} (first second : κ × α) : Prop :=
  toLower first.1 < toLower second.1 ∨ toLower first.1 = toLower second.1 ∧ first.1 ≤ second.1

instance {α : Type} : DecidableRel (rawKeyLe toLower (α := α)) := fun first second =>
  inferInstanceAs (Decidable (toLower first.1 < toLower second.1 ∨ toLower first.1 = toLower second.1 ∧ first.1 ≤ second.1))

def sortRawKeys {α : Type} (entries : List (κ × α)) : List (κ × α) := entries.insertionSort (rawKeyLe toLower)

mutual

def collectStringLeaves : RawTree κ → BoundedText → BoundedText
  | .obj entries, out => if out.full then out else untilFull ((sortRawKeys toLower (collectFields entries)).map Prod.snd) out
  | .arr items, out => if out.full then out else untilFull (collectItems items) out
  | .text s, out => if out.full then out else out.add s
  | .other, out => out

def collectFields : List (κ × RawTree κ) → List (κ × (BoundedText → BoundedText))
  | [] => []
  | (key, value) :: entries => (key, collectStringLeaves value) :: collectFields entries

def collectItems : List (RawTree κ) → List (BoundedText → BoundedText)
  | [] => []
  | item :: items => collectStringLeaves item :: collectItems items

end

def rawSearchText (tree : List (κ × RawTree κ)) (max : Nat) : Octets :=
  (collectStringLeaves toLower (.obj tree) (newBoundedText max)).buf

/-! ### The plain definition -/

mutual

/-- Every string leaf, in the order of the keys and of the indexes. -/
def leaves : RawTree κ → List Octets
  | .obj entries => (sortRawKeys toLower (leavesFields entries)).flatMap Prod.snd
  | .arr items => leavesItems items
  | .text s => [s]
  | .other => []

def leavesFields : List (κ × RawTree κ) → List (κ × List Octets)
  | [] => []
  | (key, value) :: entries => (key, leaves value) :: leavesFields entries

def leavesItems : List (RawTree κ) → List Octets
  | [] => []
  | item :: items => leaves item ++ leavesItems items

end

end

/-- Strings with a line break between each two. -/
def joined (parts : List Octets) : Octets := [0x0A].intercalate parts

def searchable {κ : Type} [LinearOrder κ] (toLower : κ → κ) (tree : List (κ × RawTree κ)) : Octets :=
  joined ((leaves toLower (.obj tree)).filter fun leaf => !leaf.isEmpty)

/-! ### Adding leaf by leaf -/

theorem separator_start : utf8Start 0x0A = true := by decide

theorem joined_snoc {parts : List Octets} (some_ : parts ≠ []) (leaf : Octets) :
    joined (parts ++ [leaf]) = joined parts ++ 0x0A :: leaf := by
  unfold joined
  rw [intercalate_append some_ (List.cons_ne_nil _ _), List.intercalate_singleton]

/-- What the text says of the leaves added so far. -/
inductive Streamed (done : List Octets) (b : BoundedText) : Prop
  | whole : b.full = false → b.buf = joined done → (b.buf = [] ↔ done = []) → b.buf.length ≤ b.max → Streamed done b
  | cut : b.full = true → b.max < (joined done).length →
      b.buf = truncateUTF8 (joined done) b.max ∨ b.buf = truncateUTF8 (joined done) b.max ++ [0x0A] →
      b.buf.length ≤ b.max → Streamed done b

theorem cutBack_separator (front leaf : Octets) : cutBack utf8Start (front ++ 0x0A :: leaf) front.length = front.length := by
  cases front with
  | nil => rfl
  | cons c front =>
    have boundary : (c :: front ++ 0x0A :: leaf)[front.length + 1]?.any utf8Start = true := by
      rw [List.getElem?_append_right (by simp)]
      simp [separator_start]
    exact cutBack_start boundary

theorem truncate_front (front leaf : Octets) : truncateUTF8 (front ++ 0x0A :: leaf) front.length = front := by
  have long : front.length < (front ++ 0x0A :: leaf).length := by simp
  rw [truncateUTF8, cutTo_cut long, cutBack_separator, List.take_left]

/-- A cut inside a leaf cuts the leaf, or drops the separator with it. -/
theorem truncate_leaf (front : Octets) {leaf : Octets} {n : Nat} (inside : n < leaf.length) :
    truncateUTF8 (front ++ 0x0A :: leaf) (front.length + 1 + n) = front ++ 0x0A :: truncateUTF8 leaf n ∨
      truncateUTF8 leaf n = [] ∧ truncateUTF8 (front ++ 0x0A :: leaf) (front.length + 1 + n) = front := by
  have long : front.length + 1 + n < (front ++ 0x0A :: leaf).length := by
    simp only [List.length_append, List.length_cons]
    omega
  have parts : front ++ 0x0A :: leaf = (front ++ [0x0A]) ++ leaf := by simp
  have length : (front ++ [0x0A]).length = front.length + 1 := by simp
  have behind := @cutBack_append _ utf8Start (front ++ [0x0A]) leaf n
  rw [length, ← parts] at behind
  rw [truncateUTF8, truncateUTF8, cutTo_cut long, cutTo_cut inside]
  by_cases none : cutBack utf8Start leaf n = 0
  · rw [if_pos none] at behind
    rw [behind, none, List.take_zero]
    cases boundary : (front ++ 0x0A :: leaf)[front.length + 1]?.any utf8Start with
    | true =>
      left
      rw [cutBack_start boundary, parts, ← length, List.take_left]
    | false =>
      right
      rw [cutBack_inside boundary, cutBack_separator, List.take_left]
      exact ⟨rfl, rfl⟩
  · left
    rw [if_neg none] at behind
    rw [behind, parts, ← length, List.take_length_add_append, List.append_assoc]
    rfl

theorem add_full {b : BoundedText} (full : b.full = true) (leaf : Octets) : b.add leaf = b := by
  rw [BoundedText.add, full]
  rfl

theorem add_empty (b : BoundedText) : b.add [] = b := by
  rw [BoundedText.add]
  simp

theorem add_max (b : BoundedText) (leaf : Octets) : (b.add leaf).max = b.max := by
  unfold BoundedText.add
  dsimp only
  repeat' split
  all_goals rfl

/-- The first leaf is cut like the whole text. -/
theorem add_first {max : Nat} {leaf : Octets} (some_ : leaf ≠ []) : Streamed [leaf] ((newBoundedText max).add leaf) := by
  have text : joined [leaf] = leaf := by simp [joined]
  have visible : leaf.isEmpty = false := by simpa using some_
  unfold BoundedText.add newBoundedText
  simp only [visible, Bool.or_self, Bool.false_eq_true, if_false, List.isEmpty_nil, Bool.not_true, Bool.false_and, if_true,
    List.length_nil, Nat.sub_zero, List.nil_append]
  have long : 0 < leaf.length := List.length_pos_of_ne_nil some_
  split
  · rename_i none
    refine .cut rfl (by rw [text, none]; exact long) (Or.inl ?_) (Nat.zero_le _)
    rw [text, none, truncateUTF8, cutTo_cut long]
    rfl
  · split
    · rename_i short
      exact .cut rfl (by rw [text]; exact short) (Or.inl (by rw [text])) (length_cutTo leaf max)
    · rename_i fits
      exact .whole rfl text.symm (by simp [some_]) (Nat.le_of_not_lt fits)

theorem add_next {done : List Octets} {buf leaf : Octets} {max : Nat} (text : buf = joined done) (more : done ≠ []) (visible : buf ≠ [])
    (within : buf.length ≤ max) (some_ : leaf ≠ []) : Streamed (done ++ [leaf]) (BoundedText.add ⟨buf, max, false⟩ leaf) := by
  have whole := joined_snoc more leaf
  rw [← text] at whole
  have long : 0 < leaf.length := List.length_pos_of_ne_nil some_
  have shown : buf.isEmpty = false := by simpa using visible
  have shown' : leaf.isEmpty = false := by simpa using some_
  have total : (buf ++ 0x0A :: leaf).length = buf.length + 1 + leaf.length := by
    simp only [List.length_append, List.length_cons]
    omega
  have pushed : (buf ++ [0x0A]).length = buf.length + 1 := by simp
  unfold BoundedText.add
  simp only [shown, shown', Bool.or_self, Bool.false_eq_true, if_false, Bool.not_false, Bool.true_and, decide_eq_true_eq, pushed]
  split
  · rename_i none
    have full : max = buf.length := by omega
    refine .cut rfl (by rw [whole, total]; show max < _; omega) (Or.inl ?_) within
    rw [whole]
    show buf = truncateUTF8 _ max
    rw [full, truncate_front]
  · rename_i room
    obtain ⟨n, rfl⟩ : ∃ n, max = buf.length + 1 + n := ⟨max - (buf.length + 1), by omega⟩
    have left : buf.length + 1 + n - (buf.length + 1) = n := Nat.add_sub_cancel_left _ _
    rw [left]
    split
    · rename_i none
      subst none
      refine .cut rfl (by rw [whole, total]; show buf.length + 1 + 0 < _; omega) ?_ pushed.le
      rw [whole]
      show buf ++ [0x0A] = truncateUTF8 _ (buf.length + 1 + 0) ∨ buf ++ [0x0A] = truncateUTF8 _ (buf.length + 1 + 0) ++ [0x0A]
      have empty : truncateUTF8 leaf 0 = [] := by
        rw [truncateUTF8, cutTo_cut long]
        rfl
      rcases truncate_leaf buf long with kept | ⟨-, dropped⟩
      · exact Or.inl (by rw [kept, empty])
      · exact Or.inr (by rw [dropped])
    · split
      · rename_i short
        have bounded : (truncateUTF8 leaf n).length ≤ n := length_cutTo leaf n
        refine .cut rfl (by rw [whole, total]; show buf.length + 1 + n < _; omega) ?_ ?_
        · rw [whole]
          show buf ++ [0x0A] ++ truncateUTF8 leaf n = truncateUTF8 _ (buf.length + 1 + n) ∨
            buf ++ [0x0A] ++ truncateUTF8 leaf n = truncateUTF8 _ (buf.length + 1 + n) ++ [0x0A]
          rcases truncate_leaf buf short with kept | ⟨empty, dropped⟩
          · exact Or.inl (by rw [kept]; simp)
          · exact Or.inr (by rw [dropped, empty]; simp)
        · show (buf ++ [0x0A] ++ truncateUTF8 leaf n).length ≤ _
          rw [List.length_append, pushed]
          exact Nat.add_le_add_left bounded _
      · rename_i fits
        refine .whole rfl (by rw [whole]; simp) (by simp) ?_
        show (buf ++ [0x0A] ++ leaf).length ≤ buf.length + 1 + n
        rw [List.length_append, pushed]
        omega

theorem add_streamed {done : List Octets} {b : BoundedText} (streamed : Streamed done b) {leaf : Octets} (some_ : leaf ≠ []) :
    Streamed (done ++ [leaf]) (b.add leaf) := by
  cases streamed with
  | whole open_ text first within =>
    obtain ⟨buf, max, full⟩ := b
    obtain rfl : full = false := open_
    by_cases start : done = []
    · obtain rfl : buf = [] := first.mpr start
      rw [start]
      exact add_first some_
    · exact add_next text start (fun none => start (first.mp none)) within some_
  | cut full long text within =>
    have more : done ≠ [] := by
      rintro rfl
      simp [joined] at long
    rw [add_full full]
    refine .cut full ?_ ?_ within
    · rw [joined_snoc more, List.length_append]
      omega
    · rw [joined_snoc more, truncateUTF8, cutTo_append long]
      exact text

theorem leaves_streamed (parts : List Octets) {done : List Octets} {b : BoundedText} (streamed : Streamed done b) :
    Streamed (done ++ parts.filter fun leaf => !leaf.isEmpty) (parts.foldl BoundedText.add b) ∧
      (parts.foldl BoundedText.add b).max = b.max := by
  induction parts generalizing done b with
  | nil => exact ⟨by simpa using streamed, rfl⟩
  | cons leaf parts ih =>
    by_cases empty : leaf = []
    · rw [List.foldl_cons, empty, add_empty]
      exact ih streamed
    · obtain ⟨rest, max⟩ := ih (add_streamed streamed empty)
      have kept : (leaf :: parts).filter (fun leaf => !leaf.isEmpty) = leaf :: parts.filter fun leaf => !leaf.isEmpty :=
        List.filter_cons_of_pos (by simpa using empty)
      rw [List.foldl_cons, kept]
      exact ⟨by simpa using rest, max.trans (add_max b leaf)⟩

/-! ### The walk adds the leaves -/

theorem foldl_full (parts : List Octets) {b : BoundedText} (full : b.full = true) : parts.foldl BoundedText.add b = b := by
  induction parts with
  | nil => rfl
  | cons leaf parts ih => rw [List.foldl_cons, add_full full, ih]

/-- A child that adds its leaves. -/
def Adds (child : BoundedText → BoundedText) (parts : List Octets) : Prop := ∀ out, child out = parts.foldl BoundedText.add out

theorem untilFull_adds {children : List (BoundedText → BoundedText)} {parts : List (List Octets)}
    (adds : List.Forall₂ Adds children parts) : Adds (untilFull children) parts.flatten := by
  intro out
  induction adds generalizing out with
  | nil => rfl
  | @cons child part children parts first rest ih =>
    rw [untilFull, List.flatten_cons, List.foldl_append, first out]
    split
    · rename_i full
      rw [foldl_full _ full]
    · exact ih _

section
variable {κ : Type} [LinearOrder κ] {toLower : κ → κ}

theorem rawKeyLe_total {α : Type} (a b : κ × α) : rawKeyLe toLower a b ∨ rawKeyLe toLower b a := by
  rcases lt_trichotomy (toLower a.1) (toLower b.1) with less | same | more
  · exact Or.inl (Or.inl less)
  · rcases le_total a.1 b.1 with le | le
    · exact Or.inl (Or.inr ⟨same, le⟩)
    · exact Or.inr (Or.inr ⟨same.symm, le⟩)
  · exact Or.inr (Or.inl more)

theorem rawKeyLe_trans {α : Type} {a b c : κ × α} (first : rawKeyLe toLower a b) (second : rawKeyLe toLower b c) :
    rawKeyLe toLower a c := by
  rcases first with first | ⟨first, le⟩ <;> rcases second with second | ⟨second, le'⟩
  · exact Or.inl (first.trans second)
  · exact Or.inl (second ▸ first)
  · exact Or.inl (first ▸ second)
  · exact Or.inr ⟨first.trans second, le.trans le'⟩

theorem rawKeyLe_antisymm {α : Type} {a b : κ × α} (first : rawKeyLe toLower a b) (second : rawKeyLe toLower b a) : a.1 = b.1 := by
  rcases first with first | ⟨first, le⟩ <;> rcases second with second | ⟨second, le'⟩
  · exact absurd first second.asymm
  · exact absurd first (second ▸ lt_irrefl _)
  · exact absurd second (first ▸ lt_irrefl _)
  · exact le_antisymm le le'

theorem sortRawKeys_map {α β : Type} (f : α → β) (entries : List (κ × α)) :
    sortRawKeys toLower (entries.map fun entry => (entry.1, f entry.2)) =
      (sortRawKeys toLower entries).map fun entry => (entry.1, f entry.2) := by
  symm
  apply List.map_insertionSort
  intro a _ b _
  rfl

theorem collectFields_eq (entries : List (κ × RawTree κ)) :
    collectFields toLower entries = entries.map fun entry => (entry.1, collectStringLeaves toLower entry.2) := by
  induction entries with
  | nil => rw [collectFields]; rfl
  | cons entry entries ih =>
    obtain ⟨key, value⟩ := entry
    rw [collectFields, ih]
    rfl

theorem leavesFields_eq (entries : List (κ × RawTree κ)) :
    leavesFields toLower entries = entries.map fun entry => (entry.1, leaves toLower entry.2) := by
  induction entries with
  | nil => rw [leavesFields]; rfl
  | cons entry entries ih =>
    obtain ⟨key, value⟩ := entry
    rw [leavesFields, ih]
    rfl

theorem collectItems_eq (items : List (RawTree κ)) : collectItems toLower items = items.map (collectStringLeaves toLower) := by
  induction items with
  | nil => rw [collectItems]; rfl
  | cons item items ih =>
    rw [collectItems, ih]
    rfl

theorem leavesItems_eq (items : List (RawTree κ)) : leavesItems toLower items = (items.map (leaves toLower)).flatten := by
  induction items with
  | nil => rw [leavesItems]; rfl
  | cons item items ih =>
    rw [leavesItems, ih]
    rfl

theorem collect_obj {entries : List (κ × RawTree κ)}
    (adds : ∀ entry ∈ entries, Adds (collectStringLeaves toLower entry.2) (leaves toLower entry.2)) :
    Adds (collectStringLeaves toLower (.obj entries)) (leaves toLower (.obj entries)) := by
  intro out
  rw [collectStringLeaves, leaves, collectFields_eq, leavesFields_eq, sortRawKeys_map, sortRawKeys_map, List.map_map,
    List.flatMap_map]
  split
  · rename_i full
    rw [foldl_full _ full]
  · refine untilFull_adds ?_ out
    rw [List.forall₂_map_left_iff, List.forall₂_map_right_iff]
    apply List.forall₂_same.mpr
    intro entry member
    exact adds entry ((List.mem_insertionSort _).mp member)

theorem collect_arr {items : List (RawTree κ)}
    (adds : ∀ item ∈ items, Adds (collectStringLeaves toLower item) (leaves toLower item)) :
    Adds (collectStringLeaves toLower (.arr items)) (leaves toLower (.arr items)) := by
  intro out
  rw [collectStringLeaves, leaves, collectItems_eq, leavesItems_eq]
  split
  · rename_i full
    rw [foldl_full _ full]
  · refine untilFull_adds ?_ out
    rw [List.forall₂_map_left_iff, List.forall₂_map_right_iff]
    exact List.forall₂_same.mpr adds

mutual

/-- The walk over a tree adds its leaves one by one. -/
theorem collect_adds : ∀ tree : RawTree κ, Adds (collectStringLeaves toLower tree) (leaves toLower tree)
  | .obj entries => collect_obj (collect_adds_fields entries)
  | .arr items => collect_arr (collect_adds_items items)
  | .text s => by
    intro out
    rw [collectStringLeaves, leaves]
    split
    · rename_i full
      rw [foldl_full _ full]
    · rfl
  | .other => by
    intro out
    rw [collectStringLeaves, leaves]
    rfl

theorem collect_adds_fields : ∀ entries : List (κ × RawTree κ),
    ∀ entry ∈ entries, Adds (collectStringLeaves toLower entry.2) (leaves toLower entry.2)
  | [], _, member => absurd member List.not_mem_nil
  | (key, value) :: entries, entry, member => by
    rcases List.mem_cons.mp member with same | member
    · rw [same]
      exact collect_adds value
    · exact collect_adds_fields entries entry member

theorem collect_adds_items : ∀ items : List (RawTree κ),
    ∀ item ∈ items, Adds (collectStringLeaves toLower item) (leaves toLower item)
  | [], _, member => absurd member List.not_mem_nil
  | first :: items, item, member => by
    rcases List.mem_cons.mp member with same | member
    · rw [same]
      exact collect_adds first
    · exact collect_adds_items items item member

end

/-! ### Iteration orders -/

/-- One map of the tree is iterated in another order. -/
inductive Reordered : RawTree κ → RawTree κ → Prop
  | entries {entries entries' : List (κ × RawTree κ)} : (entries.map Prod.fst).Nodup → entries.Perm entries' →
      Reordered (.obj entries) (.obj entries')
  | field {value value' : RawTree κ} (front : List (κ × RawTree κ)) (key : κ) (rest : List (κ × RawTree κ)) :
      Reordered value value' → Reordered (.obj (front ++ (key, value) :: rest)) (.obj (front ++ (key, value') :: rest))
  | item {value value' : RawTree κ} (front rest : List (RawTree κ)) :
      Reordered value value' → Reordered (.arr (front ++ value :: rest)) (.arr (front ++ value' :: rest))

/-- With distinct keys there is one sorted order. -/
theorem sortRawKeys_perm {α : Type} {entries entries' : List (κ × α)} (distinct : (entries.map Prod.fst).Nodup)
    (perm : entries.Perm entries') : sortRawKeys toLower entries = sortRawKeys toLower entries' := by
  have total : Std.Total (rawKeyLe toLower (α := α)) := ⟨rawKeyLe_total⟩
  have trans : IsTrans (κ × α) (rawKeyLe toLower) := ⟨fun _ _ _ => rawKeyLe_trans⟩
  have same : (sortRawKeys toLower entries).Perm (sortRawKeys toLower entries') :=
    ((List.perm_insertionSort _ entries).trans perm).trans (List.perm_insertionSort _ entries').symm
  refine same.eq_of_pairwise ?_ (List.pairwise_insertionSort _ entries) (List.pairwise_insertionSort _ entries')
  intro a b left right first second
  have left : a ∈ entries := (List.mem_insertionSort _).mp left
  have right : b ∈ entries := perm.mem_iff.mpr ((List.mem_insertionSort _).mp right)
  exact List.inj_on_of_nodup_map distinct left right (rawKeyLe_antisymm first second)

theorem leaves_reordered {tree tree' : RawTree κ} (reordered : Reordered tree tree') : leaves toLower tree = leaves toLower tree' := by
  induction reordered with
  | entries distinct perm =>
    rw [leaves, leaves, leavesFields_eq, leavesFields_eq, sortRawKeys_map, sortRawKeys_map, sortRawKeys_perm distinct perm]
  | field front key rest reordered ih =>
    rw [leaves, leaves, leavesFields_eq, leavesFields_eq]
    simp only [List.map_append, List.map_cons, ih]
  | item front rest reordered ih =>
    rw [leaves, leaves, leavesItems_eq, leavesItems_eq]
    simp only [List.map_append, List.map_cons, ih]

theorem leaves_iteration {tree tree' : RawTree κ} (reordered : Relation.ReflTransGen Reordered tree tree') :
    leaves toLower tree = leaves toLower tree' := by
  induction reordered with
  | refl => rfl
  | tail _ last ih => exact ih.trans (leaves_reordered last)

end

/-! ### Valid UTF-8 -/

def Valid (s : Octets) : Prop := ∃ cs : List Char, s = toUtf8 cs

theorem utf8Start_iff {b : Nat} (byte : b < 256) : utf8Start b = true ↔ b < 0x80 ∨ 0xC0 ≤ b := by
  have all : ∀ b : Fin 256, utf8Start b = true ↔ b.val < 0x80 ∨ 0xC0 ≤ b.val := by decide +kernel
  exact all ⟨b, byte⟩

/-- A character is a start byte and the bytes that continue it. -/
theorem utf8Bytes_unit (c : Char) :
    ∃ b unit, utf8Bytes c = b :: unit ∧ utf8Start b = true ∧ ∀ c ∈ unit, utf8Start c = false := by
  have valid := char_not_surrogate c
  have inner : ∀ {n : Nat}, utf8Start (0x80 + n % 0x40) = false := by
    intro n
    rw [← Bool.not_eq_true, utf8Start_iff (by omega)]
    omega
  unfold utf8Bytes
  dsimp only
  split
  · exact ⟨_, [], rfl, (utf8Start_iff (by omega)).mpr (by omega), by simp⟩
  · split
    · refine ⟨_, _, rfl, (utf8Start_iff (by omega)).mpr (by omega), ?_⟩
      simp [inner]
    · split
      · refine ⟨_, _, rfl, (utf8Start_iff (by omega)).mpr (by omega), ?_⟩
        simp [inner]
      · refine ⟨_, _, rfl, (utf8Start_iff (by omega)).mpr (by omega), ?_⟩
        simp [inner]

theorem toUtf8_head (cs : List Char) : ∀ b ∈ (toUtf8 cs).head?, utf8Start b = true := by
  cases cs with
  | nil => simp [toUtf8]
  | cons c cs =>
    obtain ⟨b, unit, bytes, first, -⟩ := utf8Bytes_unit c
    rw [toUtf8, List.flatMap_cons, bytes]
    simpa using first

/-- A cut text is the encoding of a front of its characters. -/
theorem truncate_valid (cs : List Char) (max : Nat) : ∃ kept, kept <+: cs ∧ truncateUTF8 (toUtf8 cs) max = toUtf8 kept := by
  induction cs generalizing max with
  | nil => exact ⟨[], List.prefix_rfl, cutTo_whole (Nat.zero_le _)⟩
  | cons c cs ih =>
    obtain ⟨b, unit, bytes, -, inner⟩ := utf8Bytes_unit c
    have parts : toUtf8 (c :: cs) = b :: unit ++ toUtf8 cs := by rw [toUtf8, List.flatMap_cons, bytes, toUtf8]
    obtain ⟨kept, front, rest⟩ := ih (max - (unit.length + 1))
    rw [parts, truncateUTF8, cutTo_unit inner (toUtf8_head cs)]
    split
    · refine ⟨c :: kept, by simpa using front, ?_⟩
      rw [truncateUTF8] at rest
      rw [rest, toUtf8, toUtf8, List.flatMap_cons, bytes]
    · exact ⟨[], List.nil_prefix, rfl⟩

theorem Valid.truncate {s : Octets} (valid : Valid s) (max : Nat) : Valid (truncateUTF8 s max) := by
  obtain ⟨cs, rfl⟩ := valid
  obtain ⟨kept, -, cut⟩ := truncate_valid cs max
  exact ⟨kept, cut⟩

theorem Valid.append {s t : Octets} (first : Valid s) (second : Valid t) : Valid (s ++ t) := by
  obtain ⟨cs, rfl⟩ := first
  obtain ⟨ds, rfl⟩ := second
  exact ⟨cs ++ ds, (toUtf8_append cs ds).symm⟩

theorem Valid.joined {parts : List Octets} (valid : ∀ part ∈ parts, Valid part) : Valid (joined parts) := by
  induction parts with
  | nil => exact ⟨[], rfl⟩
  | cons part parts ih =>
    have first := valid part List.mem_cons_self
    cases parts with
    | nil => simpa [SearchText.joined] using first
    | cons next parts =>
      have rest := ih fun part member => valid part (List.mem_cons_of_mem _ member)
      have separator : Valid [0x0A] := ⟨['\n'], by decide⟩
      have whole := first.append (separator.append rest)
      simpa [SearchText.joined] using whole

/-! ### The law -/

section
variable {κ : Type} [LinearOrder κ] (toLower : κ → κ)

/-- Streaming the leaves into the bounded text cuts the plain text, up to a separator at its end. -/
theorem rawSearchText_eq (tree : List (κ × RawTree κ)) (max : Nat) :
    (rawSearchText toLower tree max = truncateUTF8 (searchable toLower tree) max ∨
        rawSearchText toLower tree max = truncateUTF8 (searchable toLower tree) max ++ [0x0A]) ∧
      (rawSearchText toLower tree max).length ≤ max := by
  have fresh : Streamed [] (newBoundedText max) := .whole rfl rfl (by simp [newBoundedText]) (Nat.zero_le _)
  obtain ⟨streamed, cap⟩ := leaves_streamed (leaves toLower (.obj tree)) fresh
  rw [← collect_adds (.obj tree), List.nil_append] at streamed
  rw [← collect_adds (.obj tree)] at cap
  change _ = max at cap
  rw [rawSearchText, searchable]
  cases streamed with
  | whole open_ text first within =>
    rw [cap] at within
    rw [text] at within ⊢
    exact ⟨Or.inl (cutTo_whole within).symm, within⟩
  | cut full long text within =>
    rw [cap] at text within
    exact ⟨text, within⟩

theorem rawSearchText_streams (tree : List (κ × RawTree κ)) (max : Nat) :
    (rawSearchText toLower tree max = truncateUTF8 (searchable toLower tree) max ∨
        rawSearchText toLower tree max = truncateUTF8 (searchable toLower tree) max ++ [0x0A]) ∧
      (rawSearchText toLower tree max).length ≤ max ∧
      ((∀ leaf ∈ leaves toLower (.obj tree), Valid leaf) → Valid (rawSearchText toLower tree max)) ∧
      ∀ tree', Relation.ReflTransGen Reordered (.obj tree) (.obj tree') →
        rawSearchText toLower tree' max = rawSearchText toLower tree max := by
  obtain ⟨text, within⟩ := rawSearchText_eq toLower tree max
  refine ⟨text, within, fun valid => ?_, fun tree' reordered => ?_⟩
  · have plain : Valid (searchable toLower tree) := Valid.joined fun part member => valid part (List.mem_of_mem_filter member)
    have cut := plain.truncate max
    rcases text with same | same <;> rw [same]
    · exact cut
    · exact cut.append ⟨['\n'], by decide⟩
  · rw [rawSearchText, rawSearchText, collect_adds, collect_adds, leaves_iteration reordered]

end

/-! ### The messages' own search text -/

theorem length_utf8Bytes (c : Char) : (utf8Bytes c).length = c.utf8Size := by
  unfold utf8Bytes Char.utf8Size Char.toNat
  dsimp only
  simp only [UInt32.le_iff_toNat_le]
  repeat' split
  all_goals
    simp_all
    try omega

def octets (s : String) : Octets := toUtf8 s.toList

theorem length_octets (s : String) : (octets s).length = byteLength s := by
  rw [octets, toUtf8, byteLength, List.length_flatMap]
  congr 1
  apply List.map_congr_left
  intro c _
  exact length_utf8Bytes c

theorem octets_takeBytes (cs : List Char) (max : Nat) : toUtf8 (takeBytes max cs) = truncateUTF8 (toUtf8 cs) max := by
  induction cs generalizing max with
  | nil => exact (cutTo_whole (Nat.zero_le _)).symm
  | cons c cs ih =>
    obtain ⟨b, unit, bytes, -, inner⟩ := utf8Bytes_unit c
    have parts : toUtf8 (c :: cs) = b :: unit ++ toUtf8 cs := by rw [toUtf8, List.flatMap_cons, bytes, toUtf8]
    have size : c.utf8Size = unit.length + 1 := by rw [← length_utf8Bytes, bytes, List.length_cons]
    rw [parts, truncateUTF8, cutTo_unit inner (toUtf8_head cs), takeBytes, size]
    split
    · have rest := ih (max - (unit.length + 1))
      rw [truncateUTF8] at rest
      rw [← rest, toUtf8, toUtf8, List.flatMap_cons, bytes]
    · rfl

theorem octets_append (s t : String) : octets (s ++ t) = octets s ++ octets t := by
  rw [octets, octets, octets, String.toList_append, toUtf8_append]

theorem octets_isEmpty (s : String) : (octets s).isEmpty = (s == "") := by
  cases text : s.toList with
  | nil =>
    obtain rfl : s = "" := String.toList_eq_nil_iff.mp text
    rfl
  | cons c cs =>
    obtain ⟨b, unit, bytes, -⟩ := utf8Bytes_unit c
    have other : s ≠ "" := by
      rintro rfl
      simp at text
    rw [octets, text, toUtf8, List.flatMap_cons, bytes]
    simpa using other

def ofText (b : Ingest.BoundedText) : BoundedText := ⟨octets b.buf, b.max, b.full⟩

theorem ofText_add (b : Ingest.BoundedText) (leaf : String) : ofText (b.add leaf) = (ofText b).add (octets leaf) := by
  have separator : octets "\n" = [0x0A] := by decide
  have cut : ∀ room, octets (Ingest.truncateUTF8 leaf room) = truncateUTF8 (octets leaf) room := by
    intro room
    rw [octets, Ingest.truncateUTF8, String.toList_ofList, octets_takeBytes]
    rfl
  obtain ⟨buf, max, full⟩ := b
  unfold Ingest.BoundedText.add BoundedText.add ofText
  dsimp only
  rw [octets_isEmpty, octets_isEmpty, length_octets, length_octets, bne]
  by_cases done : (full || leaf == "") = true
  · rw [if_pos done, if_pos done]
  · rw [if_neg done, if_neg done]
    by_cases none : (!buf == "" && decide (max < byteLength buf + 1)) = true
    · rw [if_pos none, if_pos none]
    · rw [if_neg none, if_neg none]
      have text : octets (if (!buf == "") = true then buf ++ "\n" else buf) =
          if (buf == "") = true then octets buf else octets buf ++ [0x0A] := by
        cases buf == "" with
        | true => rfl
        | false => simp [octets_append, separator]
      rw [← text, length_octets]
      generalize (if (!buf == "") = true then buf ++ "\n" else buf) = buf
      by_cases room : max - byteLength buf = 0
      · rw [if_pos room, if_pos room]
      · rw [if_neg room, if_neg room]
        by_cases short : max - byteLength buf < byteLength leaf
        · rw [if_pos short, if_pos short, octets_append, cut]
        · rw [if_neg short, if_neg short, octets_append]

mutual

def ofJson : Json → RawTree String
  | .obj entries => .obj (ofFields entries)
  | .arr items => .arr (ofItems items)
  | .str s => .text (octets s)
  | _ => .other

def ofFields : List (String × Json) → List (String × RawTree String)
  | [] => []
  | (key, value) :: entries => (key, ofJson value) :: ofFields entries

def ofItems : List Json → List (RawTree String)
  | [] => []
  | item :: items => ofJson item :: ofItems items

end

theorem ofFields_eq (entries : List (String × Json)) : ofFields entries = entries.map fun entry => (entry.1, ofJson entry.2) := by
  induction entries with
  | nil => rw [ofFields]; rfl
  | cons entry entries ih =>
    obtain ⟨key, value⟩ := entry
    rw [ofFields, ih]
    rfl

section
variable [Unicode]

theorem walkFields_eq (entries : List (String × Json)) :
    walkFields entries = entries.map fun entry => (entry.1, Ingest.collectStringLeaves entry.2) := by
  induction entries with
  | nil => rw [walkFields]; rfl
  | cons entry entries ih =>
    obtain ⟨key, value⟩ := entry
    rw [walkFields, ih]
    rfl

theorem sortRawKeys_same {α β : Type} (f : α → β) (entries : List (String × α)) :
    (Ingest.sortRawKeys entries).map (fun entry => (entry.1, f entry.2)) =
      sortRawKeys Ingest.toLower (entries.map fun entry => (entry.1, f entry.2)) := by
  apply List.map_insertionSort
  intro a _ b _
  rfl

/-- The walk over strings adds the bytes of the leaves. -/
def Mirrors (value : Json) : Prop :=
  ∀ out, ofText (Ingest.collectStringLeaves value out) = (leaves Ingest.toLower (ofJson value)).foldl BoundedText.add (ofText out)

theorem foldl_mirrors {walks : List (String × Json)} (mirrors : ∀ entry ∈ walks, Mirrors entry.2) (out : Ingest.BoundedText) :
    ofText ((walks.map fun entry => (entry.1, Ingest.collectStringLeaves entry.2)).foldl (fun out entry => entry.2 out) out) =
      (walks.flatMap fun entry => leaves Ingest.toLower (ofJson entry.2)).foldl BoundedText.add (ofText out) := by
  induction walks generalizing out with
  | nil => rfl
  | cons entry walks ih =>
    rw [List.map_cons, List.foldl_cons, List.flatMap_cons, List.foldl_append, ← mirrors entry List.mem_cons_self out]
    exact ih (fun entry member => mirrors entry (List.mem_cons_of_mem _ member)) _

theorem mirrors_obj {entries : List (String × Json)} (mirrors : ∀ entry ∈ entries, Mirrors entry.2) : Mirrors (.obj entries) := by
  intro out
  have sorted : sortRawKeys Ingest.toLower (leavesFields Ingest.toLower (ofFields entries)) =
      (Ingest.sortRawKeys entries).map fun entry => (entry.1, leaves Ingest.toLower (ofJson entry.2)) := by
    rw [leavesFields_eq, ofFields_eq, List.map_map]
    exact (sortRawKeys_same (fun value => leaves Ingest.toLower (ofJson value)) entries).symm
  have walks : Ingest.sortRawKeys (walkFields entries) =
      (Ingest.sortRawKeys entries).map fun entry => (entry.1, Ingest.collectStringLeaves entry.2) := by
    rw [walkFields_eq, Ingest.sortRawKeys, Ingest.sortRawKeys]
    symm
    apply List.map_insertionSort
    intro a _ b _
    rfl
  rw [Ingest.collectStringLeaves, ofJson, leaves, sorted, walks, List.flatMap_map]
  split
  · rename_i full
    rw [foldl_full _ full]
  · exact foldl_mirrors (fun entry member => mirrors entry ((List.mem_insertionSort _).mp member)) out

mutual

theorem walk_mirrors : ∀ value : Json, Mirrors value
  | .obj entries => mirrors_obj (walk_mirrors_fields entries)
  | .arr items => by
    intro out
    rw [Ingest.collectStringLeaves, ofJson, leaves]
    split
    · rename_i full
      rw [foldl_full _ full]
    · exact walk_mirrors_items items out
  | .str s => by
    intro out
    rw [Ingest.collectStringLeaves, ofJson, leaves]
    exact ofText_add out s
  | .null => fun _ => by simp [Ingest.collectStringLeaves, ofJson, leaves]
  | .bool _ => fun _ => by simp [Ingest.collectStringLeaves, ofJson, leaves]
  | .num _ => fun _ => by simp [Ingest.collectStringLeaves, ofJson, leaves]

theorem walk_mirrors_fields : ∀ entries : List (String × Json), ∀ entry ∈ entries, Mirrors entry.2
  | [], _, member => absurd member List.not_mem_nil
  | (key, value) :: entries, entry, member => by
    rcases List.mem_cons.mp member with same | member
    · rw [same]
      exact walk_mirrors value
    · exact walk_mirrors_fields entries entry member

theorem walk_mirrors_items : ∀ (items : List Json) (out : Ingest.BoundedText),
    ofText (walkItems items out) = (leavesItems Ingest.toLower (ofItems items)).foldl BoundedText.add (ofText out)
  | [], out => by
    rw [walkItems, ofItems, leavesItems]
    rfl
  | item :: items, out => by
    rw [walkItems, ofItems, leavesItems, List.foldl_append, ← walk_mirrors item out]
    exact walk_mirrors_items items _

end

/-- A message's search text, in bytes, is that of its tree. -/
theorem rawSearchText_octets (tree : List (String × Json)) (max : Nat) :
    octets (Ingest.rawSearchText tree max) = rawSearchText Ingest.toLower (ofFields tree) max := by
  have mirrors := walk_mirrors (.obj tree) ⟨"", max, false⟩
  rw [ofJson] at mirrors
  rw [rawSearchText, collect_adds]
  exact congrArg BoundedText.buf mirrors

end

end GroupButler.Ingest.SearchText
