import GroupButler.Memory.Model

/-!
# The rows of one batch

`nextMessages` takes the oldest selectable rows: a non-empty run of them, in strict key order.
-/

namespace GroupButler.Memory
open Foundation Store Ingest

theorem keyOf_of_identity {a b : MessageRow} (same : a.identity = b.identity) : keyOf a = keyOf b := by
  simp [keyOf, MessageRow.key, same]

theorem scopeOf_of_identity {a b : MessageRow} (same : a.identity = b.identity) : scopeOf a = scopeOf b := by
  simp [scopeOf, MessageRow.key, same]

theorem key_of_scope {a b : MessageRow} (scope : scopeOf a = scopeOf b) (id : a.key.waMessageId = b.key.waMessageId) :
    a.key = b.key := by
  obtain ⟨organization, instanceId, _⟩ := GroupKey.mk.inj scope
  rcases ha : a.key with ⟨⟩
  rcases hb : b.key with ⟨⟩
  simp_all

instance : Std.Total rowLe := ⟨fun a b => le_total (keyOf a) (keyOf b)⟩

instance : IsTrans MessageRow rowLe := ⟨fun _ _ _ => le_trans⟩

def candidates (messages : List MessageRow) (group : GroupKey) (watermark : Option BatchKey) : List MessageRow :=
  (messages.filter (selectable group watermark)).insertionSort rowLe

theorem mem_candidates {messages : List MessageRow} {group : GroupKey} {watermark : Option BatchKey} {row : MessageRow} :
    row ∈ candidates messages group watermark ↔ row ∈ messages ∧ selectable group watermark row = true := by
  simp [candidates]

theorem selectable_iff {group : GroupKey} {watermark : Option BatchKey} {row : MessageRow} :
    selectable group watermark row = true ↔ scopeOf row = group ∧ row.revoked = false ∧ row.content.kind ≠ .revoked ∧
      ∀ key, watermark = some key → key < keyOf row := by
  cases watermark <;> simp [selectable, and_assoc]

theorem candidates_ordered {messages : List MessageRow} (unique : UniqueRows messages) (group : GroupKey)
    (watermark : Option BatchKey) : (candidates messages group watermark).Pairwise fun a b => keyOf a < keyOf b := by
  have sorted : (candidates messages group watermark).Pairwise rowLe := List.pairwise_insertionSort ..
  have distinct : (candidates messages group watermark).Nodup :=
    (List.perm_insertionSort ..).nodup_iff.mpr (unique.of_map.filter _)
  refine (sorted.and distinct).imp_of_mem ?_
  intro a b ha hb ⟨le, different⟩
  refine lt_of_le_of_ne le fun same => different ?_
  obtain ⟨storedA, admittedA⟩ := mem_candidates.mp ha
  obtain ⟨storedB, admittedB⟩ := mem_candidates.mp hb
  have scope := (selectable_iff.mp admittedA).1.trans (selectable_iff.mp admittedB).1.symm
  exact List.inj_on_of_nodup_map unique storedA storedB (key_of_scope scope (BatchKey.mk.inj same).2)

theorem limited_front (rows : List MessageRow) (n m : Nat) (p : MessageRow → Bool) :
    rows.take n ++ ((rows.take (n + m)).drop n).takeWhile p <+: rows := by
  have split : rows.take n ++ (rows.take (n + m)).drop n = rows.take (n + m) := by
    have front : (rows.take (n + m)).take n = rows.take n := by simp [List.take_take]
    rw [← front, List.take_append_drop]
  have taken := (List.prefix_append_right_inj (rows.take n)).mpr
    (List.takeWhile_prefix (l := (rows.take (n + m)).drop n) p)
  rw [split] at taken
  exact taken.trans (List.take_prefix (n + m) rows)

theorem nextMessages_front (messages : List MessageRow) (group : GroupKey) (watermark : Option BatchKey) :
    nextMessages messages group watermark <+: candidates messages group watermark := by
  unfold nextMessages
  have scanned : (candidates messages group watermark).take (memoryBatchEqualLimit + 1) <+:
      candidates messages group watermark := List.take_prefix _ _
  simp only
  split
  · exact List.nil_prefix
  · split
    · exact (List.takeWhile_prefix _).trans scanned
    · exact (limited_front _ memoryBatchLimit 50 _).trans ((List.takeWhile_prefix _).trans scanned)

theorem nextMessages_ordered {messages : List MessageRow} (unique : UniqueRows messages) (group : GroupKey)
    (watermark : Option BatchKey) :
    (nextMessages messages group watermark).Pairwise fun a b => keyOf a < keyOf b :=
  (candidates_ordered unique group watermark).sublist (nextMessages_front messages group watermark).sublist

theorem mem_nextMessages {messages : List MessageRow} {group : GroupKey} {watermark : Option BatchKey} {row : MessageRow}
    (member : row ∈ nextMessages messages group watermark) :
    row ∈ messages ∧ selectable group watermark row = true :=
  mem_candidates.mp ((nextMessages_front messages group watermark).subset member)

theorem nextMessages_nonempty {messages : List MessageRow} {group : GroupKey} {watermark : Option BatchKey}
    {row : MessageRow} (stored : row ∈ messages) (admitted : selectable group watermark row = true) :
    nextMessages messages group watermark ≠ [] := by
  have candidate := mem_candidates.mpr ⟨stored, admitted⟩
  unfold candidates at candidate
  unfold nextMessages
  cases ordered : (messages.filter (selectable group watermark)).insertionSort rowLe with
  | nil =>
    rw [ordered] at candidate
    cases candidate
  | cons oldest later =>
    have within : (keyOf oldest).timestamp ≤ (keyOf oldest).timestamp + memoryBatchWindow :=
      le_add_of_nonneg_right (by decide)
    rw [List.take_succ_cons]
    simp only [List.takeWhile_cons, within, decide_true, if_true]
    split
    · exact List.cons_ne_nil _ _
    · exact List.append_ne_nil_of_left_ne_nil (List.cons_ne_nil _ _) _

/-- A selectable row that was not taken is newer than every row that was. -/
theorem nextMessages_oldest {messages : List MessageRow} (unique : UniqueRows messages) {group : GroupKey}
    {watermark : Option BatchKey} {row : MessageRow} (stored : row ∈ messages)
    (admitted : selectable group watermark row = true) (left : row ∉ nextMessages messages group watermark) :
    ∀ taken ∈ nextMessages messages group watermark, keyOf taken < keyOf row := by
  obtain ⟨rest, whole⟩ := nextMessages_front messages group watermark
  have ordered := candidates_ordered unique group watermark
  have candidate := mem_candidates.mpr ⟨stored, admitted⟩
  rw [← whole] at ordered candidate
  have later : row ∈ rest := (List.mem_append.mp candidate).resolve_left left
  exact fun taken member => (List.pairwise_append.mp ordered).2.2 taken member row later

end GroupButler.Memory
