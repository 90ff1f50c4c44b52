import GroupButler.Foundation.Chain
import GroupButler.Memory.Lifecycle
import GroupButler.Memory.Select

/-!
# One chain a group

A builder's three reads may each see another state. What keeps its insert on the end of the chain is
that its watermark is the end of a complete batch, and that no two batches name one predecessor.
-/

namespace GroupButler.Memory
open Foundation Store Ingest

/-- How the next batch names the end of this one. -/
def Batch.successor (batch : Batch) : String := memoryBatchPredecessor batch.last

def Stored (messages : List MessageRow) (row : MessageRow) : Prop :=
  ∃ stored ∈ messages, stored.identity = row.identity

structure Sourced (messages : List MessageRow) (batch : Batch) : Prop where
  ranged : batch.first ≤ batch.last
  sources : ∀ id ∈ batch.sourceWaMessageIds, ∃ row ∈ messages, scopeOf row = batch.scope ∧
    row.key.waMessageId = id ∧ batch.first ≤ keyOf row ∧ keyOf row ≤ batch.last

structure Chained (batches : List Batch) : Prop where
  linked : Linked Batch.predecessor Batch.successor memoryBatchOrigin batches
  settled : ∀ batch ∈ batches.dropLast, batch.state = .complete
  ordered : batches.Pairwise fun earlier later => earlier.last < later.first

/-- The watermark is the end of a complete batch of the group. -/
def Reached (s : State) (group : GroupKey) (watermark : Option BatchKey) : Prop :=
  ∀ key, watermark = some key → ∃ batch ∈ s.batches, batch.scope = group ∧ batch.state = .complete ∧ batch.last = key

structure Picked (s : State) (group : GroupKey) (watermark : Option BatchKey) (rows : List MessageRow) : Prop where
  ordered : rows.Pairwise fun a b => keyOf a < keyOf b
  within : ∀ row ∈ rows, scopeOf row = group ∧ (∀ key, watermark = some key → key < keyOf row) ∧ Stored s.messages row

def Builder.Sound (s : State) : Builder → Prop
  | .marked group watermark _ => Reached s group watermark
  | .selected group watermark rows _ => Reached s group watermark ∧ Picked s group watermark rows
  | _ => True

structure Chains (s : State) : Prop where
  lifecycle : Lifecycle s
  rows : UniqueRows s.messages
  builders : ∀ builder, (s.builders builder).Sound s
  sourced : ∀ batch ∈ s.batches, Sourced s.messages batch
  chained : ∀ group, Chained (groupBatches s.batches group)

theorem start_chains (config : Config.State) : Chains (start config) where
  lifecycle := start_lifecycle config
  rows := List.nodup_nil
  builders _ := trivial
  sourced := by simp [start]
  chained _ := ⟨trivial, by simp [groupBatches, start], List.Pairwise.nil⟩

/-! ### Rows stay stored -/

theorem step_stored {s : State} (e : Event) {row : MessageRow} (stored : Stored s.messages row) :
    Stored (step s e).messages row := by
  obtain ⟨old, member, same⟩ := stored
  rcases step_rows s e with kept | ⟨doc, _, _, saved⟩
  · have present : old.identity ∈ (step s e).messages.map MessageRow.identity := by
      rw [kept]
      exact List.mem_map_of_mem member
    obtain ⟨next, nextMember, identity⟩ := List.mem_map.mp present
    exact ⟨next, nextMember, identity.trans same⟩
  · rw [saved]
    exact ⟨old, List.mem_append_left _ member, same⟩

theorem step_uniqueRows {s : State} (e : Event) (unique : UniqueRows s.messages) : UniqueRows (step s e).messages := by
  rcases step_rows s e with kept | ⟨doc, event, _, _⟩
  · have keys := congrArg (List.map IdentityFields.key) kept
    rw [List.map_map, List.map_map] at keys
    exact (keys ▸ unique : ((step s e).messages.map MessageRow.key).Nodup)
  · rw [event]
    exact saveOne_unique unique doc.val

theorem Sourced.step {s : State} (e : Event) {batch next : Batch} (range : SameRange batch next)
    (sourced : Sourced s.messages batch) : Sourced (step s e).messages next where
  ranged := by
    rw [range.first, range.last]
    exact sourced.ranged
  sources := by
    rw [range.sources, range.scope, range.first, range.last]
    intro id named
    obtain ⟨row, member, scope, sameId, above, below⟩ := sourced.sources id named
    obtain ⟨stored, storedMember, identity⟩ := step_stored e ⟨row, member, rfl⟩
    rw [← keyOf_of_identity identity] at above below
    rw [← scopeOf_of_identity identity] at scope
    exact ⟨stored, storedMember, scope, by rw [MessageRow.key, identity]; exact sameId, above, below⟩

/-! ### Builders -/

theorem completedWatermark_reached (s : State) (group : GroupKey) :
    Reached s group (completedWatermark s.batches group) := by
  intro key same
  have member := List.max?_mem same
  simp only [groupBatches, List.mem_map, List.mem_filter, beq_iff_eq] at member
  obtain ⟨batch, ⟨⟨stored, scope⟩, complete⟩, last⟩ := member
  exact ⟨batch, stored, scope, complete, last⟩

theorem Reached.step {s : State} (numbered : Numbered s) (e : Event) {group : GroupKey} {watermark : Option BatchKey}
    (reached : Reached s group watermark) : Reached (step s e) group watermark := by
  intro key same
  obtain ⟨batch, stored, scope, complete, last⟩ := reached key same
  obtain ⟨next, present, move⟩ := step_next numbered e stored
  obtain rfl := move.absorbed (Or.inl complete)
  exact ⟨next, present, scope, complete, last⟩

theorem Picked.step {s : State} (e : Event) {group : GroupKey} {watermark : Option BatchKey} {rows : List MessageRow}
    (picked : Picked s group watermark rows) : Picked (step s e) group watermark rows where
  ordered := picked.ordered
  within row member := by
    obtain ⟨scope, above, stored⟩ := picked.within row member
    exact ⟨scope, above, step_stored e stored⟩

theorem nextMessages_picked {s : State} (unique : UniqueRows s.messages) (group : GroupKey)
    (watermark : Option BatchKey) : Picked s group watermark (nextMessages s.messages group watermark) where
  ordered := nextMessages_ordered unique group watermark
  within row member := by
    obtain ⟨stored, admitted⟩ := mem_nextMessages member
    obtain ⟨scope, _, _, above⟩ := selectable_iff.mp admitted
    exact ⟨scope, above, row, stored, rfl⟩

theorem Builder.Sound.step {s : State} (numbered : Numbered s) (e : Event) {builder : Builder} (sound : builder.Sound s) :
    builder.Sound (step s e) := by
  cases builder with
  | marked group watermark rest => exact Reached.step numbered e sound
  | selected group watermark rows rest => exact ⟨sound.1.step numbered e, sound.2.step e⟩
  | _ => trivial

theorem step_builders {s : State} (chains : Chains s) (e : Event) (builder : Nat) :
    ((step s e).builders builder).Sound (step s e) := by
  refine Builder.Sound.step chains.lifecycle.numbered e ?_
  rcases step_builder s e builder with same | ⟨built, _⟩
  · rw [same]
    exact chains.builders builder
  · generalize (step s e).builders builder = next at built ⊢
    cases built with
    | idle => trivial
    | scanned groups => trivial
    | unblocked group rest => trivial
    | marked group rest => exact completedWatermark_reached s group
    | selected held =>
      have sound := chains.builders builder
      rw [held] at sound
      exact ⟨sound, nextMessages_picked chains.rows _ _⟩

/-! ### The chain -/

theorem Chained.map {batches : List Batch} {move : Batch → Batch} (chained : Chained batches)
    (range : ∀ batch ∈ batches, SameRange batch (move batch))
    (absorbed : ∀ batch ∈ batches, batch.state = .complete → move batch = batch) : Chained (batches.map move) where
  linked := by
    refine linked_map (fun batch member => ?_) chained.linked
    exact ⟨(range batch member).predecessor, by rw [Batch.successor, (range batch member).last, Batch.successor]⟩
  settled := by
    rw [← List.map_dropLast]
    intro next member
    obtain ⟨batch, earlier, rfl⟩ := List.mem_map.mp member
    have complete := chained.settled batch earlier
    rw [absorbed batch (List.dropLast_subset _ earlier) complete]
    exact complete
  ordered := by
    refine List.pairwise_map.mpr (chained.ordered.imp_of_mem fun earlier later before => ?_)
    rw [(range _ earlier).last, (range _ later).first]
    exact before

theorem Chained.first {batch : Batch} (origin : batch.predecessor = memoryBatchOrigin) : Chained [batch] where
  linked := ⟨origin, trivial⟩
  settled := by simp
  ordered := List.pairwise_singleton _ _

theorem Chained.concat {init : List Batch} {last batch : Batch} (chained : Chained (init ++ [last]))
    (complete : last.state = .complete) (ranged : last.first ≤ last.last) (follows : batch.predecessor = last.successor)
    (later : last.last < batch.first) : Chained (init ++ [last] ++ [batch]) where
  linked := linked_concat chained.linked follows
  settled := by
    rw [List.dropLast_concat]
    intro earlier member
    rcases List.mem_append.mp member with old | isLast
    · exact chained.settled earlier (by rwa [List.dropLast_concat])
    · rwa [List.mem_singleton.mp isLast]
  ordered := by
    refine List.pairwise_append.mpr ⟨chained.ordered, List.pairwise_singleton _ _, ?_⟩
    intro earlier member next isNext
    rw [List.mem_singleton.mp isNext]
    rcases List.mem_append.mp member with old | isLast
    · have before := (List.pairwise_append.mp chained.ordered).2.2 earlier old last (List.mem_singleton_self _)
      exact before.trans (lt_of_le_of_lt ranged later)
    · rwa [List.mem_singleton.mp isLast]

theorem mem_groupBatches {batches : List Batch} {group : GroupKey} {batch : Batch} :
    batch ∈ groupBatches batches group ↔ batch ∈ batches ∧ batch.scope = group := by
  simp [groupBatches]

theorem picked_range {oldest : MessageRow} {rows : List MessageRow}
    (ordered : (oldest :: rows).Pairwise fun a b => keyOf a < keyOf b) {row : MessageRow} (member : row ∈ oldest :: rows) :
    keyOf oldest ≤ keyOf row ∧ keyOf row ≤ keyOf ((oldest :: rows).getLastD oldest) := by
  constructor
  · rcases List.mem_cons.mp member with rfl | later
    · exact le_refl _
    · exact ((List.pairwise_cons.mp ordered).1 row later).le
  · rcases List.eq_nil_or_concat' (oldest :: rows) with empty | ⟨init, last, whole⟩
    · cases empty
    · rw [whole] at ordered member ⊢
      rw [List.getLastD_concat]
      rcases List.mem_append.mp member with old | isLast
      · exact ((List.pairwise_append.mp ordered).2.2 row old last (List.mem_singleton_self _)).le
      · rw [List.mem_singleton.mp isLast]

/-- An insert leaves every stored batch as it is. -/
theorem Born.others {s : State} {e : Event} {batch old next : Batch} (born : Born s e batch) (move : Move s e old next) :
    next = old := by
  cases born with
  | inserted event selected fresh free =>
    subst event
    cases move with
    | kept => rfl
    | wrote sent matched fresh =>
      generalize old.id = id at sent
      cases sent with
      | relink completes found names => cases completes
    | completed completes named matched summaries => cases completes

theorem Born.sourced {s : State} {e : Event} {batch : Batch} (chains : Chains s) (born : Born s e batch) :
    Sourced (step s e).messages batch := by
  cases born with
  | @inserted builder now group watermark oldest rows rest event selected fresh free =>
    have sound := chains.builders builder
    rw [selected] at sound
    have between : ∀ row ∈ oldest :: rows, _ := fun row => picked_range sound.2.ordered
    refine ⟨(between oldest List.mem_cons_self).2, ?_⟩
    intro id named
    obtain ⟨row, member, rfl⟩ := List.mem_map.mp named
    obtain ⟨scope, _, stored⟩ := sound.2.within row member
    obtain ⟨kept, keptMember, identity⟩ := step_stored e stored
    refine ⟨kept, keptMember, (scopeOf_of_identity identity).trans scope, by rw [MessageRow.key, identity]; rfl, ?_⟩
    rw [keyOf_of_identity identity]
    exact between row member

theorem Born.chained {s : State} {e : Event} {batch : Batch} (chains : Chains s) (born : Born s e batch) :
    Chained (groupBatches s.batches batch.scope ++ [batch]) := by
  cases born with
  | @inserted builder now group watermark oldest rows rest event selected fresh free =>
    have sound := chains.builders builder
    rw [selected] at sound
    have chained := chains.chained group
    have unclaimed : ∀ old ∈ groupBatches s.batches group, old.predecessor ≠ predecessorOf watermark := by
      intro old member
      obtain ⟨stored, scope⟩ := mem_groupBatches.mp member
      exact free old stored scope
    show Chained (groupBatches s.batches group ++ [_])
    cases watermark with
    | none =>
      rw [linked_of_free_start chained.linked unclaimed]
      exact .first rfl
    | some key =>
      obtain ⟨last, stored, scope, complete, rfl⟩ := sound.1 key rfl
      obtain ⟨init, whole⟩ := linked_of_free_end chained.linked (mem_groupBatches.mpr ⟨stored, scope⟩) unclaimed
      rw [whole] at chained ⊢
      have above := (sound.2.within oldest List.mem_cons_self).2.1 last.last rfl
      exact chained.concat complete (chains.sourced last stored).ranged rfl above

theorem step_chained {s : State} (chains : Chains s) (e : Event) (group : GroupKey) :
    Chained (groupBatches (step s e).batches group) := by
  obtain ⟨move, born, moved, isBorn, batches⟩ := step_moves chains.lifecycle.numbered.unique e
  have kept : groupBatches (s.batches.map move) group = (groupBatches s.batches group).map move := by
    unfold groupBatches
    rw [List.filter_map]
    congr 1
    refine List.filter_congr fun batch stored => ?_
    simp [(moved batch stored).sameRange.scope]
  have still : Chained ((groupBatches s.batches group).map move) := by
    refine (chains.chained group).map (fun batch member => ?_) fun batch member complete => ?_
    · exact (moved batch (mem_groupBatches.mp member).1).sameRange
    · exact (moved batch (mem_groupBatches.mp member).1).absorbed (Or.inl complete)
  cases born with
  | none =>
    rw [batches, Option.toList_none, List.append_nil, kept]
    exact still
  | some new =>
    have same : s.batches.map move = s.batches :=
      (List.map_congr_left fun batch stored => (isBorn new rfl).others (moved batch stored)).trans (List.map_id _)
    rw [batches, same, Option.toList_some, groupBatches, List.filter_append]
    by_cases scope : new.scope = group
    · have tail : [new].filter (·.scope == group) = [new] := by simp [scope]
      rw [tail, ← scope]
      exact (isBorn new rfl).chained chains
    · have tail : [new].filter (·.scope == group) = [] := by simp [scope]
      rw [tail, List.append_nil]
      exact chains.chained group

theorem step_chains {s : State} (e : Event) (chains : Chains s) : Chains (step s e) where
  lifecycle := step_lifecycle e chains.lifecycle
  rows := step_uniqueRows e chains.rows
  builders := step_builders chains e
  sourced := by
    intro next member
    rcases step_origin chains.lifecycle.numbered member with ⟨batch, stored, move⟩ | born
    · exact (chains.sourced batch stored).step e move.sameRange
    · exact born.sourced chains
  chained := step_chained chains e

theorem run_chains (config : Config.State) (events : List Event) : Chains (run step (start config) events) :=
  run_invariant (fun _ e => step_chains e) (start_chains config) events

/-- A message of two batches would lie in both their ranges. -/
theorem Chains.disjoint {s : State} (chains : Chains s) {group : GroupKey} {earlier later : Batch}
    (first : earlier ∈ groupBatches s.batches group) (second : later ∈ groupBatches s.batches group)
    (before : earlier.last < later.first) : ∀ id ∈ earlier.sourceWaMessageIds, id ∉ later.sourceWaMessageIds := by
  obtain ⟨storedFirst, scopeFirst⟩ := mem_groupBatches.mp first
  obtain ⟨storedSecond, scopeSecond⟩ := mem_groupBatches.mp second
  intro id named again
  obtain ⟨row, member, scope, same, _, below⟩ := (chains.sourced earlier storedFirst).sources id named
  obtain ⟨other, otherMember, otherScope, otherSame, above, _⟩ := (chains.sourced later storedSecond).sources id again
  have scopes : scopeOf row = scopeOf other :=
    (scope.trans scopeFirst).trans (otherScope.trans scopeSecond).symm
  obtain rfl := List.inj_on_of_nodup_map chains.rows member otherMember (key_of_scope scopes (same.trans otherSame.symm))
  exact absurd (lt_of_le_of_lt below before) (not_lt_of_ge above)

theorem Chained.outstanding {batches : List Batch} (chained : Chained batches) :
    (batches.filter fun batch => batch.state != .complete).length ≤ 1 := by
  rcases List.eq_nil_or_concat' batches with rfl | ⟨init, last, rfl⟩
  · simp
  · have settled := chained.settled
    rw [List.dropLast_concat] at settled
    have none : init.filter (fun batch => batch.state != .complete) = [] := by
      simpa using settled
    rw [List.filter_append, none, List.nil_append]
    exact List.length_filter_le _ _

/-- Two batches never continue from one point. -/
theorem Chains.unforked {s : State} (chains : Chains s) (group : GroupKey) :
    ((groupBatches s.batches group).map Batch.predecessor).Nodup := by
  have chained := chains.chained group
  refine linked_distinct chained.linked (fun batch _ => memoryBatchPredecessor_ne_origin batch.last) ?_
  refine List.pairwise_map.mpr (chained.ordered.imp_of_mem fun _ second before same => ?_)
  have ranged := (chains.sourced _ (mem_groupBatches.mp second).1).ranged
  exact absurd (memoryBatchPredecessor_inj same) (lt_of_lt_of_le before ranged).ne

theorem batches_chain (config : Config.State) (events : List Event) (group : GroupKey) :
    let s := run step (start config) events
    let batches := groupBatches s.batches group
    (batches.filter fun batch => batch.state != .complete).length ≤ 1 ∧
    Linked Batch.predecessor (fun batch => memoryBatchPredecessor batch.last) memoryBatchOrigin batches ∧
    (batches.map Batch.predecessor).Nodup ∧
    (∀ batch ∈ batches, batch.first ≤ batch.last) ∧
    batches.Pairwise (fun earlier later => earlier.last < later.first) ∧
    batches.Pairwise (fun earlier later => ∀ id ∈ earlier.sourceWaMessageIds, id ∉ later.sourceWaMessageIds) := by
  intro s batches
  have chains : Chains s := run_chains config events
  have chained := chains.chained group
  refine ⟨chained.outstanding, chained.linked, chains.unforked group, ?_, chained.ordered, ?_⟩
  · exact fun batch member => (chains.sourced batch (mem_groupBatches.mp member).1).ranged
  · exact chained.ordered.imp_of_mem fun first second before => chains.disjoint first second before

end GroupButler.Memory
