import GroupButler.Memory.Watermark

/-!
# One pass of `BuildReady`

A pass takes the eligible groups one after another. A group with a batch that is not complete, which
a dead one never is, gets no new batch.
-/

namespace GroupButler.Memory
open Foundation Store Ingest

/-- `buildGroup`, with nothing in between. -/
def buildGroup (builder : Nat) (now : Time) : List Event :=
  [.checkOutstanding builder, .readWatermark builder, .select builder, .insert builder now]

def buildGroups (builder : Nat) (now : Time) (groups : List GroupKey) : List Event :=
  groups.flatMap fun _ => buildGroup builder now

/-- `BuildReady` -/
def buildReady (builder : Nat) (organizationId : String) (now : Time) (s : State) : State :=
  run step s (.scan builder organizationId ::
    buildGroups builder now (eligibleGroups s.config.db.groups organizationId))

/-! ### One group -/

/-- What one group's turn made of the batches. -/
inductive Turn (s t : State) (group : GroupKey) (now : Time) : Prop where
  | blocked (outstanding : hasOutstandingRange s.batches group = true) (same : t.batches = s.batches)
  | nothing (settled : hasOutstandingRange s.batches group = false)
    (empty : nextMessages s.messages group (completedWatermark s.batches group) = []) (same : t.batches = s.batches)
  | built (settled : hasOutstandingRange s.batches group = false) (oldest : MessageRow) (rows : List MessageRow)
    (next : nextMessages s.messages group (completedWatermark s.batches group) = oldest :: rows)
    (batches : t.batches = insertBatch
      (materialized s.fresh group (completedWatermark s.batches group) oldest (oldest :: rows) now) s.batches)

theorem buildGroup_turn {s : State} {builder : Nat} {group : GroupKey} {rest : List GroupKey}
    (held : s.builders builder = .scanned (group :: rest)) (now : Time) :
    (run step s (buildGroup builder now)).builders builder = .scanned rest ∧
      (run step s (buildGroup builder now)).messages = s.messages ∧
      Turn s (run step s (buildGroup builder now)) group now := by
  cases outstanding : hasOutstandingRange s.batches group with
  | true =>
    have after : run step s (buildGroup builder now) = s.build builder (.scanned rest) := by
      simp [buildGroup, step, held, outstanding, State.build]
    rw [after]
    exact ⟨by simp [State.build], rfl, .blocked outstanding rfl⟩
  | false =>
    cases next : nextMessages s.messages group (completedWatermark s.batches group) with
    | nil =>
      have after : run step s (buildGroup builder now) = s.build builder (.scanned rest) := by
        simp [buildGroup, step, held, outstanding, next, State.build]
      rw [after]
      exact ⟨by simp [State.build], rfl, .nothing outstanding next rfl⟩
    | cons oldest rows =>
      have after : run step s (buildGroup builder now) = { s.build builder (.scanned rest) with
          batches := insertBatch
            (materialized s.fresh group (completedWatermark s.batches group) oldest (oldest :: rows) now) s.batches
          fresh := s.fresh + 1 } := by
        simp [buildGroup, step, held, outstanding, next, State.build]
      rw [after]
      exact ⟨by simp [State.build], rfl, .built outstanding oldest rows next rfl⟩

theorem insertBatch_other {batch : Batch} {batches : List Batch} {group : GroupKey} (other : batch.scope ≠ group) :
    groupBatches (insertBatch batch batches) group = groupBatches batches group := by
  unfold insertBatch
  split
  · rfl
  · unfold groupBatches
    have outside : [batch].filter (·.scope == group) = [] := by simp [other]
    rw [List.filter_append, outside, List.append_nil]

theorem insertBatch_keeps {batch old : Batch} {batches : List Batch} (member : old ∈ batches) :
    old ∈ insertBatch batch batches := by
  unfold insertBatch
  split
  · exact member
  · exact List.mem_append_left _ member

theorem Turn.other {s t : State} {group other : GroupKey} {now : Time} (turn : Turn s t group now)
    (different : group ≠ other) : groupBatches t.batches other = groupBatches s.batches other := by
  cases turn with
  | blocked outstanding same => rw [same]
  | nothing settled empty same => rw [same]
  | built settled oldest rows next batches =>
    rw [batches]
    exact insertBatch_other different

theorem Turn.keeps {s t : State} {group : GroupKey} {now : Time} (turn : Turn s t group now) {batch : Batch}
    (member : batch ∈ s.batches) : batch ∈ t.batches := by
  cases turn with
  | blocked outstanding same => rwa [same]
  | nothing settled empty same => rwa [same]
  | built settled oldest rows next batches =>
    rw [batches]
    exact insertBatch_keeps member

/-! ### All groups -/

/-- What every turn keeps, the turns of several groups keep. -/
theorem buildGroups_relates {R : State → State → Prop} (refl : ∀ s, R s s) (trans : ∀ {s t u}, R s t → R t u → R s u)
    {s : State} {builder : Nat} {groups rest : List GroupKey} (held : s.builders builder = .scanned (groups ++ rest))
    {now : Time} (turns : ∀ s t, ∀ group ∈ groups, t.messages = s.messages → Turn s t group now → R s t) :
    (run step s (buildGroups builder now groups)).builders builder = .scanned rest ∧
      R s (run step s (buildGroups builder now groups)) := by
  induction groups generalizing s with
  | nil => exact ⟨held, refl s⟩
  | cons group groups ih =>
    obtain ⟨next, messages, turn⟩ := buildGroup_turn held now
    obtain ⟨last, related⟩ := ih next fun s t other member => turns s t other (List.mem_cons_of_mem _ member)
    have first := turns _ _ group List.mem_cons_self messages turn
    have whole : run step s (buildGroups builder now (group :: groups)) =
        run step (run step s (buildGroup builder now)) (buildGroups builder now groups) := run_append ..
    rw [whole]
    exact ⟨last, trans first related⟩

/-- An outstanding group has its batches after the pass as before it. -/
theorem buildGroups_blocked {s : State} {builder : Nat} {groups : List GroupKey}
    (held : s.builders builder = .scanned (groups ++ [])) (now : Time) {group : GroupKey}
    (outstanding : hasOutstandingRange s.batches group = true) :
    groupBatches (run step s (buildGroups builder now groups)).batches group = groupBatches s.batches group := by
  let R (s t : State) : Prop :=
    hasOutstandingRange s.batches group = true → groupBatches t.batches group = groupBatches s.batches group
  have trans : ∀ {s t u}, R s t → R t u → R s u := by
    intro s t u first second outstanding
    have same := first outstanding
    have still : hasOutstandingRange t.batches group = true := by
      unfold hasOutstandingRange
      rw [same]
      exact outstanding
    exact (second still).trans same
  have turns : ∀ s t, ∀ other ∈ groups, t.messages = s.messages → Turn s t other now → R s t := by
    intro s t other _ _ turn outstanding
    by_cases own : other = group
    · subst own
      cases turn with
      | blocked _ same => rw [same]
      | nothing settled => exact absurd (outstanding.symm.trans settled) Bool.noConfusion
      | built settled => exact absurd (outstanding.symm.trans settled) Bool.noConfusion
    · exact turn.other own
  exact (buildGroups_relates (R := R) (fun _ _ => rfl) trans held turns).2 outstanding

theorem buildGroups_others {s : State} {builder : Nat} {groups rest : List GroupKey}
    (held : s.builders builder = .scanned (groups ++ rest)) (now : Time) {group : GroupKey} (absent : group ∉ groups) :
    let t := run step s (buildGroups builder now groups)
    t.builders builder = .scanned rest ∧ t.messages = s.messages ∧
      groupBatches t.batches group = groupBatches s.batches group := by
  let R (s t : State) : Prop := t.messages = s.messages ∧ groupBatches t.batches group = groupBatches s.batches group
  have trans : ∀ {s t u}, R s t → R t u → R s u :=
    fun first second => ⟨second.1.trans first.1, second.2.trans first.2⟩
  refine buildGroups_relates (R := R) (fun _ => ⟨rfl, rfl⟩) trans held ?_
  intro s t other member messages turn
  exact ⟨messages, turn.other fun same => absent (same ▸ member)⟩

theorem buildGroups_keeps {s : State} {builder : Nat} {groups : List GroupKey}
    (held : s.builders builder = .scanned (groups ++ [])) (now : Time) {batch : Batch} (member : batch ∈ s.batches) :
    batch ∈ (run step s (buildGroups builder now groups)).batches := by
  let R (s t : State) : Prop := ∀ batch ∈ s.batches, batch ∈ t.batches
  have trans : ∀ {s t u}, R s t → R t u → R s u := fun first second batch member => second batch (first batch member)
  have turns : ∀ s t, ∀ other ∈ groups, t.messages = s.messages → Turn s t other now → R s t :=
    fun _ _ _ _ _ turn _ member => turn.keeps member
  exact (buildGroups_relates (R := R) (fun _ _ member => member) trans held turns).2 batch member

/-! ### A settled group -/

/-- Nothing starts from the end of the chain. -/
theorem Chained.end_free {init : List Batch} {last : Batch} (chained : Chained (init ++ [last]))
    (ranged : ∀ batch ∈ init ++ [last], batch.first ≤ batch.last) :
    ∀ batch ∈ init ++ [last], batch.last ≤ last.last ∧ batch.predecessor ≠ last.successor := by
  have before : ∀ batch ∈ init, batch.last < last.last := by
    intro batch earlier
    have below := (List.pairwise_append.mp chained.ordered).2.2 batch earlier last (List.mem_singleton_self _)
    exact lt_of_lt_of_le below (ranged last (List.mem_append_right _ (List.mem_singleton_self _)))
  intro batch member
  constructor
  · rcases List.mem_append.mp member with earlier | isLast
    · exact (before batch earlier).le
    · rw [List.mem_singleton.mp isLast]
  · have listed : batch.predecessor ∈ (init ++ [last]).map Batch.predecessor := List.mem_map_of_mem member
    rw [linked_sources chained.linked, List.map_append, List.map_singleton, ← List.cons_append, List.dropLast_concat] at listed
    intro same
    rcases List.mem_cons.mp listed with origin | named
    · exact memoryBatchPredecessor_ne_origin last.last (same.symm.trans origin)
    · obtain ⟨earlier, inside, successor⟩ := List.mem_map.mp named
      have equal : earlier.last = last.last := memoryBatchPredecessor_inj (successor.trans same)
      exact absurd equal (before earlier inside).ne

/-- The watermark of a group whose batches are all complete is the end of its last one. -/
theorem settled_watermark {batches : List Batch} {group : GroupKey} {init : List Batch} {last : Batch}
    (whole : groupBatches batches group = init ++ [last]) (complete : ∀ batch ∈ groupBatches batches group, batch.state = .complete)
    (greatest : ∀ batch ∈ groupBatches batches group, batch.last ≤ last.last) :
    completedWatermark batches group = some last.last := by
  unfold completedWatermark
  rw [List.filter_eq_self.mpr fun batch member => by simp [complete batch member]]
  apply List.max?_eq_some_iff.mpr
  constructor
  · rw [whole]
    exact List.mem_map_of_mem (List.mem_append_right _ (List.mem_singleton_self _))
  · intro key listed
    obtain ⟨batch, member, rfl⟩ := List.mem_map.mp listed
    exact greatest batch member

/-- A stored message no batch of the group has reached. -/
structure Waiting (s : State) (group : GroupKey) (row : MessageRow) : Prop where
  stored : row ∈ s.messages
  scope : scopeOf row = group
  shown : row.revoked = false ∧ row.content.kind ≠ .revoked
  above : ∀ batch ∈ groupBatches s.batches group, batch.last < keyOf row

/-- In a settled group the watermark is below every waiting message, and no batch starts from it. -/
theorem settled_free {s : State} (chains : Chains s) {group : GroupKey}
    (complete : ∀ batch ∈ groupBatches s.batches group, batch.state = .complete) {row : MessageRow}
    (waiting : Waiting s group row) :
    selectable group (completedWatermark s.batches group) row = true ∧
      ∀ batch ∈ groupBatches s.batches group,
        (∀ key, completedWatermark s.batches group = some key → batch.last ≤ key) ∧
          completedWatermark s.batches group ≠ none ∧
          batch.predecessor ≠ predecessorOf (completedWatermark s.batches group) := by
  rcases List.eq_nil_or_concat' (groupBatches s.batches group) with empty | ⟨init, last, whole⟩
  · have none : completedWatermark s.batches group = .none := by
      unfold completedWatermark
      rw [empty]
      rfl
    rw [none, empty]
    refine ⟨selectable_iff.mpr ⟨waiting.scope, waiting.shown.1, waiting.shown.2, ?_⟩, ?_⟩
    · intro key same
      cases same
    · intro batch member
      cases member
  · have chained := chains.chained group
    have ranged : ∀ batch ∈ groupBatches s.batches group, batch.first ≤ batch.last :=
      fun batch member => (chains.sourced batch (mem_groupBatches.mp member).1).ranged
    rw [whole] at chained ranged
    have free := chained.end_free ranged
    rw [← whole] at free
    have isLast : last ∈ groupBatches s.batches group := by
      rw [whole]
      exact List.mem_append_right _ (List.mem_singleton_self _)
    have watermark := settled_watermark whole complete fun batch member => (free batch member).1
    rw [watermark]
    refine ⟨selectable_iff.mpr ⟨waiting.scope, waiting.shown.1, waiting.shown.2, ?_⟩, ?_⟩
    · intro key same
      cases same
      exact waiting.above last isLast
    · intro batch member
      obtain ⟨below, differs⟩ := free batch member
      refine ⟨fun key same => ?_, Option.some_ne_none _, differs⟩
      cases same
      exact below

theorem Turn.materializes {s t : State} (chains : Chains s) {group : GroupKey} {now : Time} (turn : Turn s t group now)
    (complete : ∀ batch ∈ groupBatches s.batches group, batch.state = .complete) {row : MessageRow}
    (waiting : Waiting s group row) : ∃ batch ∈ t.batches, batch.scope = group ∧ batch.state = .ready ∧ batch.id = s.fresh := by
  obtain ⟨admitted, free⟩ := settled_free chains complete waiting
  cases turn with
  | blocked outstanding same =>
    obtain ⟨batch, member, unfinished⟩ := List.any_eq_true.mp outstanding
    rw [complete batch member] at unfinished
    cases unfinished
  | nothing settled empty same => exact absurd empty (nextMessages_nonempty waiting.stored admitted)
  | built settled oldest rows next batches =>
    have fits : (s.batches.any fun old => old.scope == group &&
        old.predecessor == predecessorOf (completedWatermark s.batches group) ||
        old.range == (group, keyOf oldest, keyOf ((oldest :: rows).getLastD oldest))) = false := by
      apply List.any_eq_false.mpr
      intro old stored taken
      simp only [Bool.or_eq_true, Bool.and_eq_true, beq_iff_eq] at taken
      rcases taken with ⟨scope, predecessor⟩ | range
      · exact (free old (mem_groupBatches.mpr ⟨stored, scope⟩)).2.2 predecessor
      · obtain ⟨scope, ends⟩ := Prod.mk.inj range
        obtain ⟨below, some_, _⟩ := free old (mem_groupBatches.mpr ⟨stored, scope⟩)
        obtain ⟨key, watermark⟩ := Option.ne_none_iff_exists'.mp some_
        have picked : oldest ∈ nextMessages s.messages group (completedWatermark s.batches group) := by
          rw [next]
          exact List.mem_cons_self
        have past := (selectable_iff.mp (mem_nextMessages picked).2).2.2.2 key watermark
        have first : old.first = keyOf oldest := (Prod.mk.inj ends).1
        rw [← first] at past
        have inside := (chains.sourced old stored).ranged
        exact absurd (lt_of_lt_of_le past (inside.trans (below key watermark))) (lt_irrefl _)
    refine ⟨materialized s.fresh group (completedWatermark s.batches group) oldest (oldest :: rows) now, ?_, rfl, rfl, rfl⟩
    rw [batches, insertBatch, if_neg]
    · exact List.mem_append_right _ (List.mem_singleton_self _)
    · exact Bool.eq_false_iff.mp fits

theorem mem_eligibleGroups {s : State} {group : GroupKey} (eligible : (eligibleRow s group).isSome = true) :
    group ∈ eligibleGroups s.config.db.groups group.organizationId := by
  obtain ⟨row, found⟩ := Option.isSome_iff_exists.mp eligible
  have stored := List.mem_of_find?_eq_some found
  have matched := List.find?_some found
  simp only [Bool.and_eq_true, beq_iff_eq] at matched
  obtain ⟨rfl, assigned⟩ := matched
  unfold eligibleGroups
  rw [List.mem_insertionSort]
  apply List.mem_map_of_mem
  simp [stored, assigned]

theorem scan_builder (s : State) (builder : Nat) (organizationId : String) :
    (step s (.scan builder organizationId)).builders builder =
      .scanned (eligibleGroups s.config.db.groups organizationId ++ []) := by
  simp [step, State.build]

theorem buildReady_blocked {s : State} {group : GroupKey} (outstanding : hasOutstandingRange s.batches group = true)
    (builder : Nat) (organizationId : String) (now : Time) :
    groupBatches (buildReady builder organizationId now s).batches group = groupBatches s.batches group :=
  buildGroups_blocked (scan_builder s builder organizationId) now outstanding

theorem buildReady_builds {s : State} (chains : Chains s) {group : GroupKey}
    (eligible : (eligibleRow s group).isSome = true)
    (complete : ∀ batch ∈ groupBatches s.batches group, batch.state = .complete) {row : MessageRow}
    (waiting : Waiting s group row) (builder : Nat) (now : Time) :
    ∃ batch ∈ groupBatches (buildReady builder group.organizationId now s).batches group,
      batch.state = .ready ∧ ∀ old ∈ s.batches, old.id ≠ batch.id := by
  obtain ⟨before, after, split, absent⟩ := List.eq_append_cons_of_mem (mem_eligibleGroups eligible)
  let scan := step s (.scan builder group.organizationId)
  have scanned : scan.builders builder = .scanned (before ++ group :: after) := by
    rw [← split, ← List.append_nil (eligibleGroups _ _)]
    exact scan_builder s builder group.organizationId
  let t := run step scan (buildGroups builder now before)
  obtain ⟨turnNow, messages, batches⟩ := buildGroups_others scanned now absent
  have sameBatches : groupBatches t.batches group = groupBatches s.batches group := batches
  have sameRows : t.messages = s.messages := messages
  have reached : Chains t := run_invariant (fun _ e => step_chains e) (step_chains _ chains) _
  have still : Waiting t group row :=
    ⟨sameRows ▸ waiting.stored, waiting.scope, waiting.shown, sameBatches ▸ waiting.above⟩
  obtain ⟨restNow, _, turn⟩ := buildGroup_turn turnNow now
  obtain ⟨batch, built, scope, ready, id⟩ := turn.materializes reached (sameBatches ▸ complete) still
  have kept := buildGroups_keeps (by rw [List.append_nil]; exact restNow) now built
  have whole : buildReady builder group.organizationId now s =
      run step (run step t (buildGroup builder now)) (buildGroups builder now after) := by
    show run step scan (buildGroups builder now (eligibleGroups _ _)) = _
    rw [split, buildGroups, List.flatMap_append, List.flatMap_cons, run_append, run_append]
    rfl
  refine ⟨batch, mem_groupBatches.mpr ⟨whole ▸ kept, scope⟩, ready, ?_⟩
  intro old stored same
  have below := (chains.lifecycle.numbered.below old stored).id
  have grown : s.fresh ≤ t.fresh := run_invariant (I := fun u => s.fresh ≤ u.fresh)
    (fun u e le => le.trans (step_fresh u e)) (step_fresh s _) (buildGroups builder now before)
  omega

/-- A pass over a group without live batches builds its next one exactly when none of them is dead. -/
theorem pass_materializes_iff {config : Config.State} {events : List Event} {s : State}
    (reached : run step (start config) events = s) {group : GroupKey} (eligible : (eligibleRow s group).isSome = true)
    (finished : ∀ batch ∈ groupBatches s.batches group, batch.state = .complete ∨ batch.state = .dead)
    {row : MessageRow} (waiting : Waiting s group row) (builder : Nat) (now : Time) :
    (∃ batch ∈ groupBatches (buildReady builder group.organizationId now s).batches group,
      batch.state = .ready ∧ ∀ old ∈ s.batches, old.id ≠ batch.id) ↔
    ∀ batch ∈ groupBatches s.batches group, batch.state ≠ .dead := by
  have chains : Chains s := reached ▸ run_chains config events
  constructor
  · rintro ⟨batch, present, _, new⟩ dead member isDead
    have outstanding : hasOutstandingRange s.batches group = true :=
      List.any_eq_true.mpr ⟨dead, member, by rw [isDead]; rfl⟩
    rw [buildReady_blocked outstanding] at present
    exact new batch (mem_groupBatches.mp present).1 rfl
  · intro alive
    have complete : ∀ batch ∈ groupBatches s.batches group, batch.state = .complete :=
      fun batch member => (finished batch member).resolve_right (alive batch member)
    exact buildReady_builds chains eligible complete waiting builder now

/-- The first batch fails for good, and a second message comes in. -/
def wedged : State :=
  run step (start oneEligibleGroup)
    [.save early, .scan 0 "o", .checkOutstanding 0, .readWatermark 0, .select 0, .insert 0 1000, .claim "o" "worker" 2000 0,
      .readFailing 0 "o" 0 1, .writeFailing 0 .terminal "http_422" "unprocessable" 0 3000, .save late]

theorem dead_batch_wedges : (eligibleRow wedged oneGroup).isSome = true ∧
    (∀ batch ∈ groupBatches wedged.batches oneGroup, batch.state = .complete ∨ batch.state = .dead) ∧
    (∃ row, Waiting wedged oneGroup row) ∧
    ¬ ∃ batch ∈ groupBatches (buildReady 0 "o" 9000 wedged).batches oneGroup,
      batch.state = .ready ∧ ∀ old ∈ wedged.batches, old.id ≠ batch.id := by
  have facts : (eligibleRow wedged oneGroup).isSome = true ∧
      (∀ batch ∈ groupBatches wedged.batches oneGroup, batch.state = .complete ∨ batch.state = .dead) ∧
      (∃ row ∈ wedged.messages, scopeOf row = oneGroup ∧ (row.revoked = false ∧ row.content.kind ≠ .revoked) ∧
        ∀ batch ∈ groupBatches wedged.batches oneGroup, batch.last < keyOf row) ∧
      ¬ ∃ batch ∈ groupBatches (buildReady 0 "o" 9000 wedged).batches oneGroup,
        batch.state = .ready ∧ ∀ old ∈ wedged.batches, old.id ≠ batch.id := by
    decide +kernel
  obtain ⟨eligible, finished, ⟨row, stored, scope, shown, above⟩, none⟩ := facts
  exact ⟨eligible, finished, ⟨row, stored, scope, shown, above⟩, none⟩

/-- The same two messages, with the first batch completed. -/
def settled : State := run step (start oneEligibleGroup) ([.save early] ++ firstBatch ++ [.save late])

theorem next_batch_materialized :
    ∃ batch ∈ groupBatches (buildReady 0 "o" 9000 settled).batches oneGroup,
      batch.state = .ready ∧ ∀ old ∈ settled.batches, old.id ≠ batch.id := by
  have facts : (eligibleRow settled oneGroup).isSome = true ∧
      (∀ batch ∈ groupBatches settled.batches oneGroup, batch.state = .complete) ∧
      ∃ row ∈ settled.messages, scopeOf row = oneGroup ∧ (row.revoked = false ∧ row.content.kind ≠ .revoked) ∧
        ∀ batch ∈ groupBatches settled.batches oneGroup, batch.last < keyOf row := by
    decide +kernel
  obtain ⟨eligible, complete, row, stored, scope, shown, above⟩ := facts
  have finished := fun batch member => Or.inl (b := batch.state = .dead) (complete batch member)
  refine (pass_materializes_iff rfl eligible finished ⟨stored, scope, shown, above⟩ 0 9000).mpr ?_
  intro batch member dead
  cases (complete batch member).symm.trans dead

end GroupButler.Memory
