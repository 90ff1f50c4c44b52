import GroupButler.Memory.Processor
import GroupButler.Memory.Watermark

/-!
# The processor limit

Every live lease of the process belongs to a task, and every task and every pass between the channel
and its claim has a token. The limit holds as long as no token goes back before its lease.
-/

namespace GroupButler.Memory.Processor
open Foundation Store Ingest

/-- The leases the tasks know of. -/
def State.holdings (s : State) : List (Nat × Nat) := s.tasks.map fun task => (task.batch, task.token)

structure Bounded (w : Worker) (s : State) : Prop where
  numbered : Numbered s.store
  tokens : s.channel = s.passes.countP Pass.holds + s.holdings.length
  full : s.channel ≤ w.concurrency
  held : ∀ batch ∈ s.store.batches, live w s.clock batch = true →
    ∃ token, (batch.id, token) ∈ s.holdings ∧ batch.leasedBy token = true

theorem live_iff {w : Worker} {now : Time} {batch : Batch} :
    live w now batch = true ↔ batch.state = .processing ∧
      ∃ lease, batch.lease = some lease ∧ lease.owner = w.owner ∧ now < lease.expiresAt := by
  cases leased : batch.lease <;> simp [live, leased]

theorem live_earlier {w : Worker} {now later : Time} {batch : Batch} (alive : live w later batch = true)
    (le : now ≤ later) : live w now batch = true := by
  obtain ⟨processing, lease, leased, own, expires⟩ := live_iff.mp alive
  exact live_iff.mpr ⟨processing, lease, leased, own, lt_of_le_of_lt le expires⟩

/-- Where a live lease of the next state comes from. -/
inductive Origin (w : Worker) (now : Time) (s : Memory.State) (next : Batch) : Memory.Event → Prop where
  | kept {e batch} (stored : batch ∈ s.batches) (named : batch.id = next.id) (same : batch.lease = next.lease)
    (alive : live w now batch = true) : Origin w now s next e
  | claimed {organizationId began pick} (named : next.id = pick) (leased : next.leasedBy s.fresh = true)
    (expires : now < began + memoryBatchLease) : Origin w now s next (.claim organizationId w.owner began pick)
  | renewed {organizationId id token tick batch} (stored : batch ∈ s.batches) (named : batch.id = id) (same : next.id = id)
    (leased : batch.leasedBy token = true) (own : batch.lease.any (·.owner == w.owner) = true)
    (still : next.leasedBy token = true) : Origin w now s next (.heartbeat organizationId id token tick)

theorem live_origin {w : Worker} {now : Time} {s : Memory.State} {e : Memory.Event} {next : Batch}
    (numbered : Numbered s) (member : next ∈ (Memory.step s e).batches) (alive : live w now next = true) :
    Origin w now s next e := by
  obtain ⟨processing, lease, leased, own, expires⟩ := live_iff.mp alive
  rcases step_origin numbered member with ⟨batch, stored, move⟩ | born
  · cases move with
    | kept => exact .kept stored rfl rfl alive
    | completed completes named matched summaries => cases leased
    | wrote sent matched fresh =>
      generalize named : batch.id = id at sent
      cases sent with
      | claim organizationId owner began pick =>
        obtain rfl := Option.some.inj leased
        obtain rfl : owner = w.owner := own
        exact .claimed ((change_id _ _).trans named) (leasedBy_iff.mpr ⟨_, leased, rfl⟩) expires
      | heartbeat organizationId id token tick =>
        obtain ⟨old, held, rfl⟩ := Option.map_eq_some_iff.mp leased
        simp only [BatchWrite.filter, Bool.and_eq_true, beq_iff_eq] at matched
        have holder := matched.2
        obtain ⟨same, sameHeld, token_⟩ := leasedBy_iff.mp holder
        obtain rfl := Option.some.inj (held.symm.trans sameHeld)
        refine .renewed stored named ((change_id _ _).trans named) holder ?_ (leasedBy_iff.mpr ⟨_, leased, token_⟩)
        rw [held]
        exact beq_iff_eq.mpr own
      | expireDead => cases leased
      | expireRetry => cases leased
      | fail known chosen => cases leased
      | claimWork held leasedBefore =>
        exact .kept stored (change_id _ _).symm rfl (live_iff.mpr ⟨processing, lease, leased, own, expires⟩)
      | renewWork held leasedBefore =>
        exact .kept stored (change_id _ _).symm rfl (live_iff.mpr ⟨processing, lease, leased, own, expires⟩)
      | releaseWork held leasedBefore =>
        exact .kept stored (change_id _ _).symm rfl (live_iff.mpr ⟨processing, lease, leased, own, expires⟩)
      | relink completes found names => cases leased
  · cases born with
    | inserted event selected fresh free => cases leased

/-! ### What the parts of a step keep -/

/-- No claim of the process, and no renewal but one a task knows of. -/
structure Harmless (w : Worker) (s : State) (e : Memory.Event) : Prop where
  claims : ∀ organizationId began pick, e ≠ .claim organizationId w.owner began pick
  renews : ∀ organizationId id token tick, e = .heartbeat organizationId id token tick → (id, token) ∈ s.holdings ∨
    ∀ batch ∈ s.store.batches, batch.id = id → batch.leasedBy token = true → batch.lease.any (·.owner == w.owner) = false

variable {w : Worker} {s : State}

/-- A lease nobody touched is still known of. -/
theorem Bounded.kept (bounded : Bounded w s) {batch next : Batch} (stored : batch ∈ s.store.batches)
    (named : batch.id = next.id) (same : batch.lease = next.lease) (alive : live w s.clock batch = true) :
    ∃ token, (next.id, token) ∈ s.holdings ∧ next.leasedBy token = true := by
  obtain ⟨token, known, leased⟩ := bounded.held batch stored alive
  refine ⟨token, named ▸ known, ?_⟩
  rw [Batch.leasedBy, ← same]
  exact leased

theorem bounded_store (bounded : Bounded w s) {e : Memory.Event} (harmless : Harmless w s e) :
    Bounded w { s with store := Memory.step s.store e } where
  numbered := step_numbered e bounded.numbered
  tokens := bounded.tokens
  full := bounded.full
  held := by
    intro next member alive
    cases live_origin bounded.numbered member alive with
    | kept stored named same before => exact bounded.kept stored named same before
    | claimed named leased expires => exact absurd rfl (harmless.claims _ _ _)
    | renewed stored named same leased own still =>
      rcases harmless.renews _ _ _ _ rfl with known | others
      · exact ⟨_, same ▸ known, still⟩
      · exact absurd (own.symm.trans (others _ stored named leased)) Bool.noConfusion

theorem bounded_send (bounded : Bounded w s) {e : Memory.Event} (harmless : Harmless w s e) (call : Call) :
    Bounded w (s.send call e) := by
  unfold State.send
  split
  · exact bounded_store bounded harmless
  · exact bounded

theorem bounded_moveSlot (bounded : Bounded w s) (slot : Slot) (call : Call) (expiresAt now : Time) :
    Bounded w (s.moveSlot w slot call expiresAt now) := by
  unfold State.moveSlot
  split
  · exact ⟨bounded.numbered, bounded.tokens, bounded.full, bounded.held⟩
  · exact bounded

theorem send_found {index : Nat} {task : Task} (found : s.tasks[index]? = some task) (call : Call) (e : Memory.Event) :
    (s.send call e).tasks[index]? = some task := by
  unfold State.send
  split <;> exact found

theorem moveSlot_found {index : Nat} {task : Task} (found : s.tasks[index]? = some task) (slot : Slot) (call : Call)
    (expiresAt now : Time) : (s.moveSlot w slot call expiresAt now).tasks[index]? = some task := by
  unfold State.moveSlot
  split <;> exact found

theorem moveSlot_pass {pass : Nat} {holder : Pass} (found : s.passes[pass]? = some holder) (slot : Slot) (call : Call)
    (expiresAt now : Time) : (s.moveSlot w slot call expiresAt now).passes[pass]? = some holder := by
  unfold State.moveSlot
  split <;> exact found

theorem bounded_task (bounded : Bounded w s) {index : Nat} {task next : Task} (found : s.tasks[index]? = some task)
    (batch : next.batch = task.batch) (token : next.token = task.token) : Bounded w (s.task index next) := by
  have same : (s.task index next).holdings = s.holdings := by
    unfold State.holdings State.task
    exact map_set_same found (by rw [batch, token])
  obtain ⟨numbered, tokens, full, held⟩ := bounded
  refine ⟨numbered, ?_, full, ?_⟩
  · rw [same]
    exact tokens
  · rw [same]
    exact held

theorem countP_pass {pass : Nat} {old : Pass} (found : s.passes[pass]? = some old) (next : Pass) :
    (s.passes.set pass next).countP Pass.holds + (if old.holds then 1 else 0) =
      s.passes.countP Pass.holds + if next.holds then 1 else 0 := by
  obtain ⟨inside, rfl⟩ := List.getElem?_eq_some_iff.mp found
  have counted := List.countP_set (p := Pass.holds) (a := next) inside
  have present : (if s.passes[pass].holds then 1 else 0) ≤ s.passes.countP Pass.holds := by
    split
    · rename_i holds
      exact List.countP_pos_iff.mpr ⟨_, List.getElem_mem inside, holds⟩
    · exact Nat.zero_le _
  omega

theorem bounded_pass (bounded : Bounded w s) {pass : Nat} {old next : Pass} (found : s.passes[pass]? = some old)
    (same : next.holds = old.holds) : Bounded w (s.pass pass next) := by
  have counted := countP_pass found next
  rw [same] at counted
  refine ⟨bounded.numbered, ?_, bounded.full, bounded.held⟩
  have tokens := bounded.tokens
  show s.channel = (s.passes.set pass next).countP Pass.holds + s.holdings.length
  omega

/-! ### One step -/

theorem task_holding {index : Nat} {task : Task} (found : s.tasks[index]? = some task) :
    (task.batch, task.token) ∈ s.holdings :=
  List.mem_map_of_mem (f := fun task : Task => (task.batch, task.token)) (List.mem_of_getElem? found)

theorem foreign_harmless {e : Memory.Event} (outside : foreign w s e = true) : Harmless w s e where
  claims organizationId began pick same := by
    subst same
    simp [foreign] at outside
  renews organizationId id token tick same := by
    subst same
    refine Or.inr fun batch stored named leased => ?_
    have other := List.all_eq_true.mp outside batch stored
    simpa [named, leased] using other

theorem heartbeat_harmless {index : Nat} {task : Task} (found : s.tasks[index]? = some task) (tick : Time) :
    Harmless w s (.heartbeat w.organizationId task.batch task.token tick) where
  claims organizationId began pick same := by cases same
  renews organizationId id token later same := by
    cases same
    exact Or.inl (task_holding found)

theorem reading_harmless (caller id token : Nat) : Harmless w s (.readFailing caller w.organizationId id token) where
  claims organizationId began pick same := by cases same
  renews organizationId id token tick same := by cases same

theorem writing_harmless (caller : Nat) (failing : Failing) (fraction : Nat) (now : Time) :
    Harmless w s (.writeFailing caller failing.failureClass failing.code failing.message fraction now) where
  claims organizationId began pick same := by cases same
  renews organizationId id token tick same := by cases same

theorem bounded_readFailing (bounded : Bounded w s) {index : Nat} {task : Task} (found : s.tasks[index]? = some task)
    (failing : Failing) (call : Call) : Bounded w (s.readFailing w index task failing call) := by
  have read := bounded_send bounded (reading_harmless task.token task.batch task.token) call
  unfold State.readFailing
  simp only []
  split
  · exact bounded_task read (send_found found ..) rfl rfl
  · exact bounded_task read (send_found found ..) rfl rfl

theorem bounded_acquire (bounded : Bounded w s) {pass index left : Nat} {began : Time}
    (found : s.passes[pass]? = some (.acquiring began left index)) (call : Call) :
    Bounded w (s.acquire w pass began left index call) := by
  unfold State.acquire
  split
  · cases written : call.landed && slotFree s index began with
    | false =>
      simp only [Bool.false_eq_true, if_false]
      split
      · exact bounded_pass bounded found rfl
      · exact bounded_pass bounded found rfl
    | true =>
      have moved : Bounded w { s with
          slots := Function.update s.slots index (some ⟨w.owner, s.fresh, began + memoryBatchLease, began⟩)
          fresh := s.fresh + 1 } := ⟨bounded.numbered, bounded.tokens, bounded.full, bounded.held⟩
      simp only [if_true]
      split
      · exact bounded_pass moved found rfl
      · exact bounded_pass moved found rfl
  · exact bounded_pass bounded found rfl

theorem bounded_take (bounded : Bounded w s) {pass left : Nat} {began : Time}
    (found : s.passes[pass]? = some (.looping began (left + 1))) (room : s.channel < w.concurrency) :
    Bounded w { s.pass pass (.acquiring began left 0) with channel := s.channel + 1 } := by
  have counted := countP_pass found (.acquiring began left 0)
  simp only [Pass.holds, if_true, Bool.false_eq_true, if_false, Nat.add_zero] at counted
  have tokens := bounded.tokens
  refine ⟨bounded.numbered, ?_, room, bounded.held⟩
  show s.channel + 1 = (s.passes.set pass _).countP Pass.holds + s.holdings.length
  omega

theorem bounded_free (bounded : Bounded w s) {pass : Nat} (found : s.passes[pass]? = some (.leaving none)) :
    Bounded w { s.pass pass .waiting with channel := s.channel - 1 } := by
  have counted := countP_pass found .waiting
  simp only [Pass.holds, if_true, Bool.false_eq_true, if_false, Nat.add_zero] at counted
  have tokens := bounded.tokens
  have full := bounded.full
  refine ⟨bounded.numbered, ?_, ?_, bounded.held⟩
  · show s.channel - 1 = (s.passes.set pass _).countP Pass.holds + s.holdings.length
    omega
  · show s.channel - 1 ≤ w.concurrency
    omega

/-- The new lease goes to the new task, with the token of the pass. -/
theorem bounded_claimed (bounded : Bounded w s) {pass left pick : Nat} {began : Time} {slot : Slot}
    (found : s.passes[pass]? = some (.claiming began left slot)) :
    Bounded w { s with
      store := Memory.step s.store (.claim w.organizationId w.owner began pick)
      passes := s.passes.set pass (.looping began left)
      tasks := s.tasks ++ [⟨pick, s.store.fresh, slot, .batch, .calling⟩] } := by
  have counted := countP_pass found (.looping began left)
  simp only [Pass.holds, if_true, Bool.false_eq_true, if_false, Nat.add_zero] at counted
  have tokens := bounded.tokens
  refine ⟨step_numbered (.claim w.organizationId w.owner began pick) bounded.numbered, ?_, bounded.full, ?_⟩
  · show s.channel = (s.passes.set pass _).countP Pass.holds + ((s.tasks ++ _).map _).length
    rw [List.map_append, List.length_append]
    show s.channel = _ + (s.holdings.length + 1)
    omega
  · intro next member alive
    show ∃ token, (next.id, token) ∈ (s.tasks ++ _).map _ ∧ _
    rw [List.map_append]
    cases live_origin bounded.numbered member alive with
    | kept stored named same before =>
      obtain ⟨token, known, leased⟩ := bounded.kept stored named same before
      exact ⟨token, List.mem_append_left _ known, leased⟩
    | claimed named leased expires =>
      refine ⟨s.store.fresh, List.mem_append_right _ ?_, leased⟩
      rw [named]
      exact List.mem_singleton_self _

/-- A claim whose answer is lost leaves no live lease. -/
theorem bounded_lost (bounded : Bounded w s) {began : Time} {pick : Nat} (spent : began + memoryBatchLease ≤ s.clock) :
    Bounded w { s with store := Memory.step s.store (.claim w.organizationId w.owner began pick) } := by
  refine ⟨step_numbered (.claim w.organizationId w.owner began pick) bounded.numbered, bounded.tokens, bounded.full, ?_⟩
  intro next member alive
  cases live_origin bounded.numbered member alive with
  | kept stored named same before => exact bounded.kept stored named same before
  | claimed named leased expires => exact absurd (lt_of_lt_of_le expires spent) (lt_irrefl _)

theorem bounded_claim (bounded : Bounded w s) {pass left pick : Nat} {began : Time} {slot : Slot} {call : Call}
    (found : s.passes[pass]? = some (.claiming began left slot)) (frees : Frees w s (.claim pass pick call)) :
    Bounded w (s.claim w pass began left slot pick call) := by
  unfold State.claim
  simp only []
  split
  · rename_i due
    cases call with
    | answered => exact bounded_claimed bounded found
    | unanswered =>
      have spent := frees _ found began rfl due
      exact bounded_pass (bounded_lost bounded spent) found rfl
    | failed => exact bounded_pass bounded found rfl
  · split
    · exact bounded
    · exact bounded_pass bounded found rfl

theorem bounded_freeTask (bounded : Bounded w s) {index : Nat} {task : Task} (found : s.tasks[index]? = some task)
    (spent : ∀ batch ∈ s.store.batches, batch.id = task.batch → batch.leasedBy task.token = true →
      live w s.clock batch = false) :
    Bounded w { s with channel := s.channel - 1, tasks := s.tasks.eraseIdx index } := by
  have same : (task :: s.tasks.eraseIdx index).Perm s.tasks := eraseIdx_perm found
  have holdings := same.map fun task => (task.batch, task.token)
  have length := holdings.length_eq
  rw [List.map_cons, List.length_cons] at length
  obtain ⟨numbered, tokens, full, held⟩ := bounded
  refine ⟨numbered, ?_, by show s.channel - 1 ≤ w.concurrency; omega, ?_⟩
  · show s.channel - 1 = s.passes.countP Pass.holds + ((s.tasks.eraseIdx index).map _).length
    unfold State.holdings at tokens
    omega
  · intro batch stored alive
    obtain ⟨token, known, leased⟩ := held batch stored alive
    rcases List.mem_cons.mp (holdings.mem_iff.mpr known) with own | other
    · obtain ⟨named, rfl⟩ := Prod.mk.inj own
      exact absurd (alive.symm.trans (spent batch stored named leased)) Bool.noConfusion
    · exact ⟨token, other, leased⟩

theorem step_bounded (s : State) (e : Event) (bounded : Bounded w s) (frees : Frees w s e) : Bounded w (step w s e) := by
  cases e with
  | begin began =>
    refine ⟨bounded.numbered, ?_, bounded.full, bounded.held⟩
    show s.channel = (s.passes ++ [_]).countP Pass.holds + s.holdings.length
    rw [List.countP_append]
    exact bounded.tokens
  | cancel pass =>
    simp only [step]
    split
    · rename_i found
      exact bounded_pass bounded found rfl
    · exact bounded
  | take pass =>
    simp only [step]
    split
    · rename_i found
      exact bounded_pass bounded found rfl
    · rename_i began left found
      split
      · rename_i room
        exact bounded_take bounded found room
      · exact bounded
    · exact bounded
  | acquire pass call =>
    simp only [step]
    split
    · rename_i found
      exact bounded_acquire bounded found call
    · exact bounded
  | claim pass pick call =>
    simp only [step]
    split
    · rename_i found
      exact bounded_claim bounded found frees
    · exact bounded
  | releaseSlot pass call =>
    simp only [step]
    split
    · rename_i slot found
      exact bounded_pass (bounded_moveSlot bounded slot call s.clock s.clock) (moveSlot_pass found ..) rfl
    · exact bounded
  | free pass =>
    simp only [step]
    split
    · rename_i found
      exact bounded_free bounded found
    · exact bounded
  | heartbeat index tick call =>
    simp only [step]
    split
    · rename_i task found
      split
      · exact bounded_task (bounded_send bounded (heartbeat_harmless found tick) call) (send_found found ..) rfl rfl
      · exact bounded
    · exact bounded
  | heartbeatSlot index tick call =>
    simp only [step]
    split
    · rename_i task found
      split
      · exact bounded_task (bounded_moveSlot bounded task.slot call _ _) (moveSlot_found found ..) rfl rfl
      · exact bounded
    · exact bounded
  | respond index response =>
    simp only [step]
    split
    · rename_i task found
      split
      · exact bounded_task bounded found rfl rfl
      · exact bounded
    · exact bounded
  | readFailing index call =>
    simp only [step]
    split
    · rename_i task found
      split
      · exact bounded_readFailing bounded found _ call
      · exact bounded
    · exact bounded
  | writeFailing index fraction now call =>
    simp only [step]
    split
    · rename_i task found
      split
      · rename_i failing writing
        have sent := bounded_send bounded (writing_harmless task.token failing fraction now) call
        exact bounded_task sent (send_found found ..) rfl rfl
      · exact bounded
    · exact bounded
  | close index =>
    simp only [step]
    split
    · rename_i task found
      split
      · exact bounded_task bounded found rfl rfl
      · exact bounded
    · exact bounded
  | releaseTaskSlot index call =>
    simp only [step]
    split
    · rename_i task found
      split
      · exact bounded_task (bounded_moveSlot bounded task.slot call s.clock s.clock) (moveSlot_found found ..) rfl rfl
      · exact bounded
    · exact bounded
  | freeTask index =>
    simp only [step]
    split
    · rename_i task found
      split
      · rename_i released
        exact bounded_freeTask bounded found (frees task found released)
      · exact bounded
    · exact bounded
  | outside event =>
    simp only [step]
    split
    · rename_i outside
      exact bounded_store bounded (foreign_harmless outside)
    · exact bounded
  | advance elapsed =>
    refine ⟨bounded.numbered, bounded.tokens, bounded.full, fun batch stored alive => ?_⟩
    exact bounded.held batch stored (live_earlier alive (le_add_of_nonneg_right (Int.natCast_nonneg elapsed)))

theorem start_bounded (config : Config.State) (now : Time) : Bounded w (start config now) where
  numbered := start_numbered config
  tokens := rfl
  full := Nat.zero_le _
  held := by
    intro batch stored
    cases stored

theorem Bounded.limited (bounded : Bounded w s) : Limited w s := by
  have distinct : ((s.store.batches.filter (live w s.clock)).map Batch.id).Nodup :=
    bounded.numbered.unique.sublist ((List.filter_sublist).map Batch.id)
  have known : (s.store.batches.filter (live w s.clock)).map Batch.id ⊆ s.holdings.map Prod.fst := by
    intro id listed
    obtain ⟨batch, member, rfl⟩ := List.mem_map.mp listed
    obtain ⟨stored, alive⟩ := List.mem_filter.mp member
    obtain ⟨token, holding, _⟩ := bounded.held batch stored alive
    exact List.mem_map.mpr ⟨_, holding, rfl⟩
  have fits := (List.subperm_of_subset distinct known).length_le
  rw [List.length_map, List.length_map] at fits
  have tokens := bounded.tokens
  have full := bounded.full
  show (s.store.batches.filter (live w s.clock)).length ≤ w.concurrency
  omega

/-- At most `MEMORY_BATCH_CONCURRENCY` live leases in every run that gives no token back before its lease. -/
theorem processor_limited (w : Worker) (config : Config.State) (now : Time) {events : List Event}
    (frees : Along (step w) (Frees w) (start config now) events) : Limited w (run (step w) (start config now) events) :=
  (run_invariant_along (I := Bounded w) step_bounded (start_bounded config now) frees).limited

/-! ### Two groups, one slot -/

def worker : Worker := ⟨"o", "worker", 1, by decide⟩

def twoGroups : Config.State where
  db := {
    instances := [⟨"i", "o", some ["1@g.us", "2@g.us"]⟩]
    groups := [⟨oneGroup, ⟨some true, some true, some 1⟩, 0⟩, ⟨⟨"o", "i", "2@g.us"⟩, ⟨some true, some true, some 1⟩, 0⟩]
    auditLog := [] }
  callers _ := .idle

def elsewhere : BridgeDoc :=
  letI := Unicode.ascii
  (BridgeDoc.parsed {} {
    messageId := "C"
    chatId := "2@g.us"
    senderId := "a@s.whatsapp.net"
    body := "hello"
    timestamp := 1700000010 } "o" "i" 1700000100000).get (by decide)

/-- Both groups have a ready batch. -/
def built : List Event :=
  ([.save early, .save elsewhere, .scan 0 "o", .checkOutstanding 0, .readWatermark 0, .select 0, .insert 0 1000,
    .checkOutstanding 0, .readWatermark 0, .select 0, .insert 0 1000] : List Memory.Event).map .outside

/-- Two passes with one batch each, where the first batch's call ends in `ending`. -/
def twoPasses (ending : List Event) : List Event :=
  built ++ [.begin 2000, .take 0, .acquire 0 .answered, .claim 0 0 .answered] ++ ending ++
    [.close 0, .releaseTaskSlot 0 .answered, .freeTask 0, .begin 2000, .take 1, .acquire 1 .answered, .claim 1 1 .answered]

/-- The BFF is busy with the batch, or it is unavailable and `Fail` does not reach MongoDB. -/
theorem lease_outlives_token :
    ¬ Limited worker (run (step worker) (start twoGroups 2000) (twoPasses [.respond 0 (.status 202)])) ∧
      ¬ Limited worker (run (step worker) (start twoGroups 2000)
        (twoPasses [.respond 0 (.status 503), .readFailing 0 .failed])) := by
  decide +kernel

/-- The BFF is unavailable, and the batch is failed. -/
theorem processor_limited_failed : Limited worker (run (step worker) (start twoGroups 2000)
    (twoPasses [.respond 0 (.status 503), .readFailing 0 .answered, .writeFailing 0 0 2000 .answered])) :=
  processor_limited worker twoGroups 2000 (by decide +kernel)

end GroupButler.Memory.Processor
