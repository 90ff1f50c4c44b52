import GroupButler.Ingest.Store

/-!
# Bulk writes

`Save` upserts a batch in one unordered bulk write. Its upserts land in any order; a write that fails
has landed for some of its documents and not for others. One that succeeds reports the documents it
inserted.
-/

namespace GroupButler.Ingest
open Foundation Store

/-- How a bulk write went: the places of the documents whose upserts landed, in the order they did. -/
structure BulkWrite where
  order : List Nat
  failed : Bool
  deriving DecidableEq, Repr

/-- A document lands at most once, and each one does where no error is returned. -/
def BulkWrite.Of (docs : List MessageDoc) (write : BulkWrite) : Prop :=
  write.order.Nodup ∧ (∀ index ∈ write.order, index < docs.length) ∧
    (write.failed = false → write.order.length = docs.length)

instance (docs : List MessageDoc) (write : BulkWrite) : Decidable (write.Of docs) :=
  inferInstanceAs (Decidable (_ ∧ _ ∧ _))

/-- The documents that landed. -/
def BulkWrite.written (docs : List MessageDoc) (write : BulkWrite) : List MessageDoc :=
  write.order.filterMap fun index => docs[index]?

def saveAll (rows : List MessageRow) (docs : List MessageDoc) : List MessageRow := docs.foldl saveOne rows

/-- `UpsertedIDs` -/
def upserted (rows : List MessageRow) : List MessageDoc → List MessageDoc
  | [] => []
  | doc :: docs =>
    if rows.any fun row => row.key == doc.key then upserted (saveOne rows doc) docs
    else doc :: upserted (saveOne rows doc) docs

theorem filterMap_getElem? {α : Type} (items : List α) :
    (List.range items.length).filterMap (fun index => items[index]?) = items := by
  induction items with
  | nil => rfl
  | cons item items ih =>
    rw [List.length_cons, List.range_succ_eq_map]
    simp only [List.filterMap_cons, List.getElem?_cons_zero, List.filterMap_map]
    exact congrArg (item :: ·) ih

/-- A write that succeeds takes each place once. -/
theorem places_perm {docs : List MessageDoc} {write : BulkWrite} (of : write.Of docs) (succeeded : write.failed = false) :
    write.order.Perm (List.range docs.length) := by
  obtain ⟨once, inside, length⟩ := of
  apply (List.subperm_of_subset once fun index member => List.mem_range.mpr (inside index member)).perm_of_length_le
  rw [List.length_range, length succeeded]

theorem written_perm {docs : List MessageDoc} {write : BulkWrite} (of : write.Of docs) (succeeded : write.failed = false) :
    (write.written docs).Perm docs := by
  have landed := (places_perm of succeeded).filterMap fun index => docs[index]?
  rw [filterMap_getElem?] at landed
  exact landed

/-! ### What a bulk write leaves of the rows -/

/-- The key of a row, and its `media` subdocument. -/
def MessageRow.attachment (row : MessageRow) : MessageKey × Media := (row.key, row.media)

theorem any_key {rows : List MessageRow} {key : MessageKey} :
    (rows.any fun row => row.key == key) = true ↔ key ∈ rows.map MessageRow.key := by
  simp [List.any_eq_true]

theorem saveOne_known {rows : List MessageRow} {doc : MessageDoc} (known : doc.key ∈ rows.map MessageRow.key) :
    (saveOne rows doc).map MessageRow.attachment = rows.map MessageRow.attachment := by
  unfold saveOne upsertOne
  rw [if_pos (any_key.mpr known)]
  exact map_updateOne fun _ _ _ => rfl

theorem saveOne_new {rows : List MessageRow} {doc : MessageDoc} (new : doc.key ∉ rows.map MessageRow.key) :
    saveOne rows doc = rows ++ [freshRow doc] := by
  unfold saveOne upsertOne
  rw [if_neg fun found => new (any_key.mp found)]

theorem attachments_keys (rows : List MessageRow) :
    (rows.map MessageRow.attachment).map Prod.fst = rows.map MessageRow.key := by
  rw [List.map_map]
  rfl

theorem mem_saveOne_keys {rows : List MessageRow} {doc : MessageDoc} {key : MessageKey} :
    key ∈ (saveOne rows doc).map MessageRow.key ↔ key ∈ rows.map MessageRow.key ∨ key = doc.key := by
  by_cases known : doc.key ∈ rows.map MessageRow.key
  · rw [← attachments_keys, saveOne_known known, attachments_keys]
    constructor
    · exact Or.inl
    · rintro (old | rfl)
      · exact old
      · exact known
  · rw [saveOne_new known, List.map_append, List.mem_append, List.map_singleton, List.mem_singleton]
    rfl

/-- The rows it found keep their attachments, and the rows it created start with the parsed one. -/
theorem saveAll_attachments (rows : List MessageRow) (docs : List MessageDoc) :
    (saveAll rows docs).map MessageRow.attachment =
      rows.map MessageRow.attachment ++ (upserted rows docs).map fun doc => (freshRow doc).attachment := by
  induction docs generalizing rows with
  | nil => simp [saveAll, upserted]
  | cons doc docs ih =>
    have tail := ih (saveOne rows doc)
    simp only [saveAll, List.foldl_cons] at tail ⊢
    unfold upserted
    split
    · rename_i found
      rw [tail, saveOne_known (any_key.mp found)]
    · rename_i absent
      rw [tail, saveOne_new fun known => absent (any_key.mpr known), List.map_append, List.append_assoc]
      rfl

theorem saveAll_unique {rows : List MessageRow} (unique : UniqueRows rows) (docs : List MessageDoc) :
    UniqueRows (saveAll rows docs) := by
  induction docs generalizing rows with
  | nil => exact unique
  | cons doc docs ih => exact ih (saveOne_unique unique doc)

theorem saveAll_length (rows : List MessageRow) (docs : List MessageDoc) :
    (saveAll rows docs).length = rows.length + (upserted rows docs).length := by
  have column := congrArg List.length (saveAll_attachments rows docs)
  simpa using column

theorem attachment_mem {row : MessageRow} {rows : List MessageRow} (member : row ∈ rows) :
    row.attachment ∈ rows.map MessageRow.attachment := List.mem_map_of_mem member

/-- A row before the write has its attachment after it. -/
theorem saveAll_keeps {rows : List MessageRow} {row : MessageRow} (member : row ∈ rows) (docs : List MessageDoc) :
    ∃ same ∈ saveAll rows docs, same.key = row.key ∧ same.media = row.media := by
  have listed : row.attachment ∈ (saveAll rows docs).map MessageRow.attachment := by
    rw [saveAll_attachments]
    exact List.mem_append_left _ (attachment_mem member)
  obtain ⟨same, present, equal⟩ := List.mem_map.mp listed
  obtain ⟨key, media⟩ := Prod.mk.inj equal
  exact ⟨same, present, key, media⟩

theorem saveAll_origin {rows : List MessageRow} {docs : List MessageDoc} {row : MessageRow}
    (member : row ∈ saveAll rows docs) : (∃ old ∈ rows, old.key = row.key ∧ old.media = row.media) ∨
      ∃ doc ∈ upserted rows docs, doc.key = row.key ∧ (freshRow doc).media = row.media := by
  have listed := attachment_mem member
  rw [saveAll_attachments] at listed
  rcases List.mem_append.mp listed with old | new
  · obtain ⟨before, present, equal⟩ := List.mem_map.mp old
    obtain ⟨key, media⟩ := Prod.mk.inj equal
    exact Or.inl ⟨before, present, key, media⟩
  · obtain ⟨doc, inserted, equal⟩ := List.mem_map.mp new
    obtain ⟨key, media⟩ := Prod.mk.inj equal
    exact Or.inr ⟨doc, inserted, key, media⟩

/-- An inserted document has its row, with the parsed attachment. -/
theorem upserted_row {rows : List MessageRow} {docs : List MessageDoc} {doc : MessageDoc}
    (inserted : doc ∈ upserted rows docs) : ∃ row ∈ saveAll rows docs, row.key = doc.key ∧ row.media = (freshRow doc).media := by
  have listed : (freshRow doc).attachment ∈ (saveAll rows docs).map MessageRow.attachment := by
    rw [saveAll_attachments]
    exact List.mem_append_right _ (List.mem_map_of_mem inserted)
  obtain ⟨row, present, equal⟩ := List.mem_map.mp listed
  obtain ⟨key, media⟩ := Prod.mk.inj equal
  exact ⟨row, present, key, media⟩

/-! ### Which documents it inserts -/

/-- The documents of messages that are not known yet, each at its first place. -/
def firsts (known : List MessageKey) : List MessageDoc → List MessageDoc
  | [] => []
  | doc :: docs => if doc.key ∈ known then firsts known docs else doc :: firsts (doc.key :: known) docs

theorem firsts_congr {known other : List MessageKey} (same : ∀ key, key ∈ known ↔ key ∈ other) (docs : List MessageDoc) :
    firsts known docs = firsts other docs := by
  induction docs generalizing known other with
  | nil => rfl
  | cons doc docs ih =>
    unfold firsts
    by_cases found : doc.key ∈ known
    · rw [if_pos found, if_pos ((same doc.key).mp found), ih same]
    · rw [if_neg found, if_neg fun there => found ((same doc.key).mpr there), ih]
      intro key
      simp only [List.mem_cons, same]

theorem upserted_eq_firsts (rows : List MessageRow) (docs : List MessageDoc) :
    upserted rows docs = firsts (rows.map MessageRow.key) docs := by
  induction docs generalizing rows with
  | nil => rfl
  | cons doc docs ih =>
    unfold upserted firsts
    by_cases known : doc.key ∈ rows.map MessageRow.key
    · rw [if_pos (any_key.mpr known), if_pos known, ih]
      apply firsts_congr
      intro key
      rw [mem_saveOne_keys]
      constructor
      · rintro (old | rfl)
        · exact old
        · exact known
      · exact Or.inl
    · rw [if_neg fun found => known (any_key.mp found), if_neg known, ih]
      congr 1
      apply firsts_congr
      intro key
      rw [mem_saveOne_keys, List.mem_cons]
      exact Or.comm

/-- A message has its row after the write when it had it before, or one of its documents landed. -/
theorem mem_saveAll_keys {rows : List MessageRow} {docs : List MessageDoc} {key : MessageKey} :
    key ∈ (saveAll rows docs).map MessageRow.key ↔ key ∈ rows.map MessageRow.key ∨ ∃ doc ∈ docs, key = doc.key := by
  induction docs generalizing rows with
  | nil => simp [saveAll]
  | cons doc docs ih =>
    show key ∈ (saveAll (saveOne rows doc) docs).map MessageRow.key ↔ _
    rw [ih, mem_saveOne_keys]
    simp only [List.mem_cons, exists_eq_or_imp, or_assoc]

end GroupButler.Ingest
