import GroupButler.Memory.Chain

/-!
# What the watermark passes

A batch takes the oldest rows above the watermark that are stored when it is selected. A row stored
later with an older key is below the watermark as soon as that batch completes.
-/

namespace GroupButler.Memory
open Foundation Store Ingest

/-- A stored message nobody revoked. -/
def MessageRow.Shown (row : MessageRow) : Prop := row.revoked = false ∧ row.content.kind ≠ .revoked

def InBatch (batches : List Batch) (row : MessageRow) : Prop :=
  ∃ batch ∈ groupBatches batches (scopeOf row), row.key.waMessageId ∈ batch.sourceWaMessageIds

/-- Every message of the group at or below the watermark is in a batch. -/
def NothingSkipped (s : State) (group : GroupKey) : Prop :=
  ∀ key, completedWatermark s.batches group = some key →
    ∀ row ∈ s.messages, scopeOf row = group → MessageRow.Shown row → keyOf row ≤ key → InBatch s.batches row

/-- Whether an insert at this watermark would still be admitted. -/
def Free (batches : List Batch) (group : GroupKey) (watermark : Option BatchKey) : Prop :=
  ∀ batch ∈ groupBatches batches group, batch.predecessor ≠ predecessorOf watermark

/-- A message stored for the first time is newer than every batch of its group that is not dead, and
than every row a builder has selected and may yet insert. -/
def LandsLast (s : State) : Event → Prop
  | .save doc => (∀ row ∈ s.messages, row.key ≠ doc.val.key) →
    (∀ batch ∈ groupBatches s.batches (scopeOf (freshRow doc.val)), batch.state ≠ .dead →
      batch.last < keyOf (freshRow doc.val)) ∧
    ∀ builder watermark rows rest, s.builders builder = .selected (scopeOf (freshRow doc.val)) watermark rows rest →
      Free s.batches (scopeOf (freshRow doc.val)) watermark → ∀ row ∈ rows, keyOf row < keyOf (freshRow doc.val)
  | _ => True

structure Covered (s : State) : Prop where
  kinds : ∀ row ∈ s.messages, row.content.kind ≠ .revoked
  batches : ∀ batch ∈ s.batches, batch.state ≠ .dead → ∀ row ∈ s.messages, scopeOf row = batch.scope →
    row.revoked = false → keyOf row ≤ batch.last → InBatch s.batches row
  builders : ∀ builder group watermark rows rest, s.builders builder = .selected group watermark rows rest →
    Free s.batches group watermark → ∀ row ∈ s.messages, scopeOf row = group → row.revoked = false →
    (∀ key, watermark = some key → key < keyOf row) →
    (∀ taken ∈ rows, keyOf taken < keyOf row) ∨ ∃ taken ∈ rows, taken.identity = row.identity

theorem start_covered (config : Config.State) : Covered (start config) where
  kinds := by simp [start]
  batches := by simp [start]
  builders := by simp [start]

theorem InBatch.step {s : State} (numbered : Numbered s) (e : Event) {row next : MessageRow}
    (same : row.identity = next.identity) (covered : InBatch s.batches row) : InBatch (step s e).batches next := by
  obtain ⟨batch, member, named⟩ := covered
  obtain ⟨stored, scope⟩ := mem_groupBatches.mp member
  obtain ⟨moved, present, move⟩ := step_next numbered e stored
  refine ⟨moved, mem_groupBatches.mpr ⟨present, ?_⟩, ?_⟩
  · rw [move.sameRange.scope, scope, scopeOf_of_identity same]
  · rw [move.sameRange.sources, MessageRow.key, ← same]
    exact named

theorem Free.before {s : State} (numbered : Numbered s) {e : Event} {group : GroupKey} {watermark : Option BatchKey}
    (free : Free (step s e).batches group watermark) : Free s.batches group watermark := by
  intro batch member
  obtain ⟨stored, scope⟩ := mem_groupBatches.mp member
  obtain ⟨next, present, move⟩ := step_next numbered e stored
  rw [← move.sameRange.predecessor]
  exact free next (mem_groupBatches.mpr ⟨present, move.sameRange.scope.trans scope⟩)

theorem step_kinds {s : State} (e : Event) (kinds : ∀ row ∈ s.messages, row.content.kind ≠ .revoked) :
    ∀ row ∈ (step s e).messages, row.content.kind ≠ .revoked := by
  rcases step_messages s e with ⟨doc, rfl⟩ | ⟨key, rfl⟩ | same
  · intro row member
    rcases mem_upsertOne member with old | ⟨old, stored, _, rfl⟩ | ⟨_, rfl⟩
    · exact kinds row old
    · exact doc.kind_ne_revoked
    · exact doc.kind_ne_revoked
  · exact forall_mem_updateOne kinds fun row member _ kept => kept
  · rwa [same]

theorem picked_last (oldest : MessageRow) (rows : List MessageRow) :
    ∃ taken ∈ oldest :: rows, keyOf taken = keyOf ((oldest :: rows).getLastD oldest) := by
  rcases List.eq_nil_or_concat' (oldest :: rows) with empty | ⟨init, last, whole⟩
  · cases empty
  · rw [whole, List.getLastD_concat]
    exact ⟨last, List.mem_append_right _ (List.mem_singleton_self _), rfl⟩

/-- A row below the end of a new batch is in it, or was below its watermark. -/
theorem Born.covered {s : State} {e : Event} (chains : Chains s) (covered : Covered s) {batch : Batch}
    (born : Born s e batch) (present : batch ∈ (step s e).batches) {row : MessageRow} (stored : row ∈ s.messages)
    (scope : scopeOf row = batch.scope) (shown : row.revoked = false) (below : keyOf row ≤ batch.last) :
    InBatch (step s e).batches row := by
  cases born with
  | @inserted builder now group watermark oldest rows rest event selected fresh free =>
    have sound := chains.builders builder
    rw [selected] at sound
    have unclaimed : Free s.batches group watermark := by
      intro old member
      obtain ⟨oldStored, oldScope⟩ := mem_groupBatches.mp member
      exact free old oldStored oldScope
    by_cases above : ∀ key, watermark = some key → key < keyOf row
    · rcases covered.builders builder group watermark _ rest selected unclaimed row stored scope shown above with
        newer | ⟨taken, member, same⟩
      · obtain ⟨taken, member, isLast⟩ := picked_last oldest rows
        have past := newer taken member
        rw [isLast] at past
        exact absurd (lt_of_lt_of_le past below) (lt_irrefl _)
      · refine ⟨_, mem_groupBatches.mpr ⟨present, scope.symm⟩, List.mem_map.mpr ⟨taken, member, ?_⟩⟩
        rw [MessageRow.key, same]
        rfl
    · obtain ⟨key, same, notAbove⟩ : ∃ key, watermark = some key ∧ ¬ key < keyOf row := by simpa using above
      obtain ⟨earlier, earlierStored, earlierScope, complete, last⟩ := sound.1 key same
      have before : keyOf row ≤ earlier.last := by
        rw [last]
        exact not_lt.mp notAbove
      have already := covered.batches earlier earlierStored (by simp [complete]) row stored
        (scope.trans earlierScope.symm) shown before
      exact already.step chains.lifecycle.numbered e rfl

theorem covered_batches {s : State} (chains : Chains s) (covered : Covered s) {e : Event} (lands : LandsLast s e) :
    ∀ next ∈ (step s e).batches, next.state ≠ .dead → ∀ row ∈ (step s e).messages, scopeOf row = next.scope →
      row.revoked = false → keyOf row ≤ next.last → InBatch (step s e).batches row := by
  intro next present alive row member scope shown below
  rcases step_row member with ⟨old, stored, same, shownBefore⟩ | ⟨doc, rfl, absent, rfl⟩
  · rw [← scopeOf_of_identity same] at scope
    rw [← keyOf_of_identity same] at below
    rcases step_origin chains.lifecycle.numbered present with ⟨batch, batchStored, move⟩ | born
    · have aliveBefore : batch.state ≠ .dead := by
        intro dead
        exact alive (by rw [move.absorbed (Or.inr dead), dead])
      have before := covered.batches batch batchStored aliveBefore old stored (scope.trans move.sameRange.scope)
        (shownBefore shown) (below.trans_eq move.sameRange.last)
      exact before.step chains.lifecycle.numbered e same
    · have here := born.covered chains covered present stored scope (shownBefore shown) below
      obtain ⟨batch, inGroup, named⟩ := here
      exact ⟨batch, by rwa [← scopeOf_of_identity same], by rwa [MessageRow.key, ← same]⟩
  · have past := (lands absent).1 next (mem_groupBatches.mpr ⟨present, scope.symm⟩) alive
    exact absurd (lt_of_lt_of_le past below) (lt_irrefl _)

theorem covered_builders {s : State} (chains : Chains s) (covered : Covered s) {e : Event} (lands : LandsLast s e) :
    ∀ builder group watermark rows rest, (step s e).builders builder = .selected group watermark rows rest →
      Free (step s e).batches group watermark → ∀ row ∈ (step s e).messages, scopeOf row = group → row.revoked = false →
      (∀ key, watermark = some key → key < keyOf row) →
      (∀ taken ∈ rows, keyOf taken < keyOf row) ∨ ∃ taken ∈ rows, taken.identity = row.identity := by
  intro builder group watermark rows rest selected free row member scope shown above
  have freeBefore := free.before chains.lifecycle.numbered
  rcases step_builder s e builder with kept | ⟨built, same⟩
  · rw [kept] at selected
    rcases step_row member with ⟨old, stored, same, shownBefore⟩ | ⟨doc, rfl, absent, rfl⟩
    · rw [← scopeOf_of_identity same] at scope
      rw [← keyOf_of_identity same] at above ⊢
      rw [← same]
      exact covered.builders builder group watermark rows rest selected freeBefore old stored scope (shownBefore shown) above
    · subst scope
      exact Or.inl ((lands absent).2 builder watermark rows rest selected freeBefore)
  · rw [selected] at built
    rw [same] at member
    cases built with
    | selected held =>
      have admitted : selectable group watermark row = true :=
        selectable_iff.mpr ⟨scope, shown, covered.kinds row member, above⟩
      by_cases taken : row ∈ nextMessages s.messages group watermark
      · exact Or.inr ⟨row, taken, rfl⟩
      · exact Or.inl (nextMessages_oldest chains.rows member admitted taken)

theorem step_covered {s : State} (e : Event) (chains : Chains s) (covered : Covered s) (lands : LandsLast s e) :
    Covered (step s e) :=
  ⟨step_kinds e covered.kinds, covered_batches chains covered lands, covered_builders chains covered lands⟩

theorem nothing_skipped_along (config : Config.State) {events : List Event}
    (lands : Along step LandsLast (start config) events) (group : GroupKey) :
    NothingSkipped (run step (start config) events) group := by
  have invariant : Chains (run step (start config) events) ∧ Covered (run step (start config) events) :=
    run_invariant_along (I := fun s => Chains s ∧ Covered s)
      (fun s e ⟨chains, covered⟩ lands => ⟨step_chains e chains, step_covered e chains covered lands⟩)
      ⟨start_chains config, start_covered config⟩ lands
  obtain ⟨chains, covered⟩ := invariant
  intro key watermark row member scope shown below
  obtain ⟨batch, stored, batchScope, complete, last⟩ := completedWatermark_reached _ group key watermark
  exact covered.batches batch stored (by simp [complete]) row member (scope.trans batchScope.symm) shown.1
    (below.trans_eq last.symm)

/-! ### A late message -/

def oneGroup : GroupKey := ⟨"o", "i", "1@g.us"⟩

def oneEligibleGroup : Config.State where
  db := { instances := [⟨"i", "o", some ["1@g.us"]⟩], groups := [⟨oneGroup, ⟨some true, some true, some 1⟩, 0⟩],
          auditLog := [] }
  callers _ := .idle

def bridgeText (messageId : String) (seconds : Int) : Option BridgeDoc :=
  letI := Unicode.ascii
  BridgeDoc.parsed {} { messageId, chatId := "1@g.us", senderId := "a@s.whatsapp.net", body := "hello", timestamp := seconds }
    "o" "i" 1700000100000

/-- Builds, claims, summarizes and completes the first batch. -/
def firstBatch : List Event :=
  [.scan 0 "o", .checkOutstanding 0, .readWatermark 0, .select 0, .insert 0 1000, .claim "o" "worker" 2000 0,
    .load 0 0 3000, .readGroup 0, .claimWork 0 3000, .complete 0 "summary" 4000]

def early : BridgeDoc := (bridgeText "A" 1700000010).get (by decide)

def late : BridgeDoc := (bridgeText "B" 1700000050).get (by decide)

theorem late_message_skipped :
    let s := run step (start oneEligibleGroup) ([.save late] ++ firstBatch ++ [.save early])
    (eligibleRow s oneGroup).isSome = true ∧ ¬ NothingSkipped s oneGroup := by
  intro s
  have facts : (eligibleRow s oneGroup).isSome = true ∧
      completedWatermark s.batches oneGroup = some ⟨1700000050000, "B"⟩ ∧
      (s.messages.any fun row => scopeOf row == oneGroup && !row.revoked && row.content.kind != .revoked &&
        decide (keyOf row ≤ ⟨1700000050000, "B"⟩) && (groupBatches s.batches (scopeOf row)).all fun batch =>
          !batch.sourceWaMessageIds.contains row.key.waMessageId) = true := by
    decide +kernel
  obtain ⟨eligible, watermark, missing⟩ := facts
  refine ⟨eligible, fun nothing => ?_⟩
  obtain ⟨row, member, found⟩ := List.any_eq_true.mp missing
  simp only [Bool.and_eq_true, beq_iff_eq, bne_iff_ne, Bool.not_eq_true', decide_eq_true_eq, List.all_eq_true] at found
  obtain ⟨⟨⟨⟨scope, shown⟩, kind⟩, below⟩, outside⟩ := found
  obtain ⟨batch, inGroup, named⟩ := nothing _ watermark row member scope ⟨shown, kind⟩ below
  have absent := outside batch inGroup
  simp [named] at absent

/-- The same two messages in the order of their timestamps. -/
theorem nothing_skipped_inOrder :
    NothingSkipped (run step (start oneEligibleGroup) ([.save early] ++ firstBatch ++ [.save late])) oneGroup := by
  refine nothing_skipped_along oneEligibleGroup ?_ oneGroup
  rw [along_append, along_append]
  refine ⟨⟨⟨fun _ => ⟨by decide, ?_⟩, trivial⟩, ?_⟩, fun _ => ⟨by decide, ?_⟩, trivial⟩
  · intro builder watermark rows rest selected
    cases selected
  · exact ⟨trivial, trivial, trivial, trivial, trivial, trivial, trivial, trivial, trivial, trivial, trivial⟩
  · intro builder watermark rows rest selected
    cases builder with
    | zero =>
      have built : (run step (start oneEligibleGroup) ([.save early] ++ firstBatch)).builders 0 = .scanned [] := rfl
      cases built.symm.trans selected
    | succ builder =>
      have idle : (run step (start oneEligibleGroup) ([.save early] ++ firstBatch)).builders (builder + 1) = .idle := rfl
      cases idle.symm.trans selected

end GroupButler.Memory
