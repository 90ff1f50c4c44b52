import GroupButler.Replies.Lease

/-!
# What a run of the protocol guarantees

A callback that has lost its lease, and has nothing in flight from before, changes no run and no send
again. An operation that read the clock while the lease was live may still land after its expiry.
-/

namespace GroupButler.Replies
open Foundation Store Sends

/-! ### What a claim writes -/

/-- The runs after one round trip of a claim. -/
inductive ClaimWrites (runs : List AgentReplyRun) (scope : AgentReplyScope) (token : Nat) (now : Time) :
    List AgentReplyRun → Prop
  | kept : ClaimWrites runs scope token now runs
  | inserted {objectId : Nat} : ClaimWrites runs scope token now (runs ++ [claimedRun objectId scope token now])
  | reclaimed {filter : AgentReplyRun → Bool} : (∀ run, filter run = true → run.state.terminal = false) →
      ClaimWrites runs scope token now (updateOne filter (AgentReplyRun.reclaim token now) runs)
  | closed {filter : AgentReplyRun → Bool} {code : String} : (∀ run, filter run = true → run.state.terminal = false) →
      ClaimWrites runs scope token now (updateOne filter (AgentReplyRun.close code now) runs)

theorem tryReclaim_writes {runs : List AgentReplyRun} {scope : AgentReplyScope} {filter : AgentReplyRun → Bool}
    {token : Nat} {now : Time} {otherwise : ClaimStep} (open_ : ∀ run, filter run = true → run.state.terminal = false) :
    ClaimWrites runs scope token now (tryReclaim runs filter token now otherwise).runs := by
  unfold tryReclaim
  split
  · exact .kept
  · exact .reclaimed open_

theorem tryClose_writes {runs : List AgentReplyRun} {scope : AgentReplyScope} {filter : AgentReplyRun → Bool}
    {code : String} {token : Nat} {now : Time} {otherwise : ClaimStep}
    (open_ : ∀ run, filter run = true → run.state.terminal = false) :
    ClaimWrites runs scope token now (tryClose runs filter code now otherwise).runs := by
  unfold tryClose
  split
  · exact .kept
  · exact .closed open_

theorem claim_writes (runs : List AgentReplyRun) (scope : AgentReplyScope) (token : Nat) (now : Time) (next : ClaimStep) :
    ClaimWrites runs scope token now (claimAgentReplyRun runs scope token now next).runs := by
  cases next with
  | upsert =>
    simp only [claimAgentReplyRun]
    split
    · exact .kept
    · exact .inserted
  | readInserted objectId =>
    simp only [claimAgentReplyRun]
    split <;> exact .kept
  | reclaimExpired => exact tryReclaim_writes fun run matched => (expired_open (Bool.and_eq_true_iff.mp matched).1).2
  | closeExpired => exact tryClose_writes fun run matched => (expired_open (Bool.and_eq_true_iff.mp matched).1).2
  | reclaimDue => exact tryReclaim_writes fun run matched => (due_open (Bool.and_eq_true_iff.mp matched).1).2
  | closeDue => exact tryClose_writes fun run matched => (due_open (Bool.and_eq_true_iff.mp matched).1).2
  | read =>
    simp only [claimAgentReplyRun]
    split
    · exact .kept
    · split
      · exact .kept
      · split <;> exact .kept

/-! ### Closed runs -/

theorem claim_closed {runs : List AgentReplyRun} {run : AgentReplyRun} (member : run ∈ runs)
    (terminal : run.state.terminal = true) (scope : AgentReplyScope) (token : Nat) (now : Time) (next : ClaimStep) :
    run ∈ (claimAgentReplyRun runs scope token now next).runs := by
  have writes := claim_writes runs scope token now next
  generalize (claimAgentReplyRun runs scope token now next).runs = after at writes ⊢
  cases writes with
  | kept => exact member
  | inserted => exact List.mem_append_left _ member
  | reclaimed open_ | closed open_ => exact update_closed member terminal open_

theorem commit_closed {s : State} {run : AgentReplyRun} (member : run ∈ s.runs) (terminal : run.state.terminal = true)
    (runId token : Nat) (scope : AgentReplyScope) (chatKind : String) (draft : ReplyDraft) (objectId : Nat) (id : String)
    (now : Time) : run ∈ (s.commit (createSendUnderRunLease s.db runId token scope chatKind draft objectId id now)).runs := by
  cases committed : createSendUnderRunLease s.db runId token scope chatKind draft objectId id now with
  | none => exact member
  | some next =>
    obtain ⟨_, _, _, runs⟩ := createSend_cases committed
    show run ∈ next.runs
    rw [runs]
    refine update_closed member terminal fun other matched => ?_
    rw [(leasedTo_iff.mp (Bool.and_eq_true_iff.mp matched).1).2.1]
    rfl

theorem land_closed {s : State} {index : Nat} {operation : Operation} {callback : Callback} {run : AgentReplyRun}
    (sound : Sound s) (present : operation ∈ s.operations) (called : s.callbacks[operation.callback]? = some callback)
    (member : run ∈ s.runs) (terminal : run.state.terminal = true) : run ∈ (land s index operation callback).runs := by
  unfold land
  split
  · exact (moved_update (renew_written s.sends.db.requests _ _ _)).closed run member terminal
  · exact (moved_update (fail_written s.sends.db.requests _ _ _ _ _ _)).closed run member terminal
  · split
    · exact commit_closed member terminal _ _ _ _ _ _ _ _
    · exact member
  · split
    · exact commit_closed member terminal _ _ _ _ _ _ _ _
    · exact member
  · split <;> exact member
  · rename_i id work
    obtain ⟨other, otherCalled, send, sent, answer⟩ := sound.finishing operation present id work
    obtain rfl : other = callback := Option.some.inj (otherCalled.symm.trans called)
    rw [updateOne_of_no_match (unfinished_none sound sent answer)]
    exact member
  · exact member

theorem step_closed {s : State} {run : AgentReplyRun} (sound : Sound s) (member : run ∈ s.runs)
    (terminal : run.state.terminal = true) (e : Event) : run ∈ (step s e).runs := by
  have steps := step_cases s e
  generalize step s e = next at steps ⊢
  cases steps with
  | still | tick | sends _ | called | advanced _ _ _ _ | issued _ _ => exact member
  | claimed _ _ => exact claim_closed member terminal _ _ _ _
  | landed found called => exact land_closed sound (List.mem_of_getElem? found) called member terminal

theorem run_closed {s : State} {run : AgentReplyRun} (sound : Sound s) (member : run ∈ s.runs)
    (terminal : run.state.terminal = true) (events : List Event) : run ∈ (Foundation.run step s events).runs :=
  (run_invariant (I := fun s => Sound s ∧ run ∈ s.runs)
    (fun s e ⟨sound, member⟩ => ⟨step_sound s e sound, step_closed sound member terminal e⟩) ⟨sound, member⟩ events).2

/-! ### A holder that has lost its lease -/

/-- The run has another token or none, or the lease was over when the operation read the clock. -/
def Late (s : State) (operation : Operation) : Prop :=
  ∀ run ∈ s.runs, ∀ lease, run.lease = some lease → lease.token = operation.callback → lease.expiresAt ≤ operation.now

/-- The callback has claimed, and any lease of its token is over for every operation it has in flight. -/
def Spent (s : State) (token : Nat) : Prop :=
  (∃ callback, s.callbacks[token]? = some callback ∧ callback.won = true) ∧
  ∀ run ∈ s.runs, ∀ lease, run.lease = some lease → lease.token = token →
    lease.expiresAt ≤ s.clock ∧ ∀ operation ∈ s.operations, operation.callback = token → lease.expiresAt ≤ operation.now

theorem spent_late {s : State} {operation : Operation} (spent : Spent s operation.callback)
    (member : operation ∈ s.operations) : Late s operation :=
  fun run stored lease held token => (spent.2 run stored lease held token).2 operation member rfl

theorem late_unleased {s : State} {operation : Operation} (late : Late s operation) (objectId : Nat) :
    ∀ run ∈ s.runs, run.leasedTo objectId operation.callback operation.now = false := by
  intro run stored
  refine Bool.eq_false_iff.mpr fun leased => ?_
  obtain ⟨_, _, lease, held, token, live⟩ := leasedTo_iff.mp leased
  exact Int.not_le.mpr live (late run stored lease held token)

theorem late_uncommitted {s : State} {operation : Operation} (late : Late s operation) (objectId : Nat)
    (scope : AgentReplyScope) (chatKind : String) (draft : ReplyDraft) (sendId : Nat) (id : String) :
    createSendUnderRunLease s.db objectId operation.callback scope chatKind draft sendId id operation.now = none := by
  unfold createSendUnderRunLease
  dsimp only
  rw [if_neg]
  intro guarded
  obtain ⟨run, stored, matched⟩ := List.any_eq_true.mp guarded
  rw [late_unleased late objectId run stored] at matched
  cases matched

theorem late_land {s : State} {index : Nat} {operation : Operation} {callback : Callback} (sound : Sound s)
    (late : Late s operation) (member : operation ∈ s.operations)
    (called : s.callbacks[operation.callback]? = some callback) :
    (land s index operation callback).runs = s.runs ∧ (land s index operation callback).sends = s.sends := by
  unfold land
  split
  · exact ⟨updateOne_of_no_match (late_unleased late _), rfl⟩
  · exact ⟨updateOne_of_no_match (late_unleased late _), rfl⟩
  · split
    · unfold createAutomaticSendUnderRunLease
      rw [late_uncommitted late]
      exact ⟨rfl, rfl⟩
    · exact ⟨rfl, rfl⟩
  · split
    · unfold createHumanReviewSendUnderRunLease
      rw [late_uncommitted late]
      exact ⟨rfl, rfl⟩
    · exact ⟨rfl, rfl⟩
  · split <;> exact ⟨rfl, rfl⟩
  · rename_i id work
    obtain ⟨other, otherCalled, send, sent, answer⟩ := sound.finishing operation member id work
    obtain rfl : other = callback := Option.some.inj (otherCalled.symm.trans called)
    exact ⟨updateOne_of_no_match (unfinished_none sound sent answer), rfl⟩
  · exact ⟨rfl, rfl⟩

/-- No lease of this token is granted or extended. -/
def Ungranted (token : Nat) (runs next : List AgentReplyRun) : Prop :=
  ∀ run ∈ next, ∀ lease, run.lease = some lease → lease.token = token → ∃ before ∈ runs, before.lease = some lease

theorem ungranted_refl (token : Nat) (runs : List AgentReplyRun) : Ungranted token runs runs :=
  fun run member _ held _ => ⟨run, member, held⟩

theorem ungranted_update {token : Nat} {runs : List AgentReplyRun} {filter : AgentReplyRun → Bool}
    {change : AgentReplyRun → AgentReplyRun}
    (other : ∀ run, filter run = true → ∀ lease, (change run).lease = some lease → lease.token ≠ token) :
    Ungranted token runs (updateOne filter change runs) := by
  intro run member lease held same
  rcases mem_updateOne member with kept | ⟨before, _, matched, rfl⟩
  · exact ⟨run, kept, held⟩
  · exact (other before matched lease held same).elim

theorem claim_ungranted {runs : List AgentReplyRun} {scope : AgentReplyScope} {index token : Nat} {now : Time}
    (different : index ≠ token) (next : ClaimStep) :
    Ungranted token runs (claimAgentReplyRun runs scope index now next).runs := by
  have writes := claim_writes runs scope index now next
  generalize (claimAgentReplyRun runs scope index now next).runs = after at writes ⊢
  cases writes with
  | kept => exact ungranted_refl token runs
  | inserted =>
    intro run member lease held same
    rcases List.mem_append.mp member with old | new
    · exact ⟨run, old, held⟩
    · rw [List.mem_singleton.mp new] at held
      obtain rfl : newLease index now = lease := Option.some.inj held
      exact (different same).elim
  | reclaimed _ =>
    refine ungranted_update fun run _ lease held => ?_
    rw [← Option.some.inj held]
    exact different
  | closed _ => exact ungranted_update fun run _ lease held => by cases held

theorem commit_ungranted (s : State) (token runId holder : Nat) (scope : AgentReplyScope) (chatKind : String)
    (draft : ReplyDraft) (objectId : Nat) (id : String) (now : Time) :
    Ungranted token s.runs (s.commit (createSendUnderRunLease s.db runId holder scope chatKind draft objectId id now)).runs := by
  cases committed : createSendUnderRunLease s.db runId holder scope chatKind draft objectId id now with
  | none => exact ungranted_refl token s.runs
  | some next =>
    obtain ⟨_, _, _, runs⟩ := createSend_cases committed
    show Ungranted token s.runs next.runs
    rw [runs]
    exact ungranted_update fun run _ lease held => by cases held

theorem land_ungranted {s : State} {index token : Nat} {operation : Operation} {callback : Callback}
    (different : operation.callback ≠ token) : Ungranted token s.runs (land s index operation callback).runs := by
  unfold land
  split
  · refine ungranted_update fun run matched lease held same => ?_
    obtain ⟨_, _, before, heldBefore, holder, _⟩ := leasedTo_iff.mp matched
    simp only [AgentReplyRun.renew, heldBefore, Option.map_some, Option.some.injEq] at held
    exact different (holder.symm.trans (by rw [← same, ← held]))
  · exact ungranted_update fun run _ lease held => by cases held
  · split
    · exact commit_ungranted s token _ _ _ _ _ _ _ _
    · exact ungranted_refl token s.runs
  · split
    · exact commit_ungranted s token _ _ _ _ _ _ _ _
    · exact ungranted_refl token s.runs
  · split <;> exact ungranted_refl token s.runs
  · exact ungranted_update fun run _ lease held => by cases held
  · exact ungranted_refl token s.runs

/-- A landing only marks its operation. -/
theorem land_operations {s : State} {index : Nat} {operation : Operation} {callback : Callback}
    (found : s.operations[index]? = some operation) :
    ∀ next ∈ (land s index operation callback).operations,
      ∃ before ∈ s.operations, before.callback = next.callback ∧ before.now = next.now := by
  have marked : ∀ work, ∀ next ∈ s.operations.set index { operation with work },
      ∃ before ∈ s.operations, before.callback = next.callback ∧ before.now = next.now := by
    intro work next member
    rcases List.mem_or_eq_of_mem_set member with old | rfl
    · exact ⟨next, old, rfl, rfl⟩
    · exact ⟨operation, List.mem_of_getElem? found, rfl, rfl⟩
  have kept : ∀ next ∈ s.operations, ∃ before ∈ s.operations, before.callback = next.callback ∧ before.now = next.now :=
    fun next member => ⟨next, member, rfl, rfl⟩
  have committed : ∀ db, (s.commit db).operations = s.operations := by
    intro db
    cases db <;> rfl
  unfold land
  split
  · exact marked _
  · exact marked _
  · split
    · show ∀ next ∈ (s.commit _).operations.set index _, _
      rw [committed]
      exact marked _
    · exact kept
  · split
    · show ∀ next ∈ (s.commit _).operations.set index _, _
      rw [committed]
      exact marked _
    · exact kept
  · split <;> exact marked _
  · exact marked _
  · exact kept

theorem land_callbacks (s : State) (index : Nat) (operation : Operation) (callback : Callback) :
    (land s index operation callback).callbacks = s.callbacks ∧ (land s index operation callback).clock = s.clock := by
  have committed : ∀ db, (s.commit db).callbacks = s.callbacks ∧ (s.commit db).clock = s.clock := by
    intro db
    cases db <;> exact ⟨rfl, rfl⟩
  unfold land
  split
  · exact ⟨rfl, rfl⟩
  · exact ⟨rfl, rfl⟩
  · split
    · exact committed _
    · exact ⟨rfl, rfl⟩
  · split
    · exact committed _
    · exact ⟨rfl, rfl⟩
  · split <;> exact ⟨rfl, rfl⟩
  · exact ⟨rfl, rfl⟩
  · exact ⟨rfl, rfl⟩

theorem spent_next {s next : State} {token : Nat} (spent : Spent s token)
    (kept : ∀ callback, s.callbacks[token]? = some callback → callback.won = true →
      ∃ same, next.callbacks[token]? = some same ∧ same.won = true)
    (clock : s.clock ≤ next.clock) (runs : Ungranted token s.runs next.runs)
    (operations : ∀ operation ∈ next.operations,
      (∃ before ∈ s.operations, before.callback = operation.callback ∧ before.now = operation.now) ∨
        s.clock ≤ operation.now) : Spent next token := by
  obtain ⟨⟨callback, found, won⟩, leases⟩ := spent
  refine ⟨kept callback found won, fun run member lease held same => ?_⟩
  obtain ⟨before, stored, heldBefore⟩ := runs run member lease held same
  obtain ⟨expired, late⟩ := leases before stored lease heldBefore same
  refine ⟨Int.le_trans expired clock, fun operation present issuer => ?_⟩
  rcases operations operation present with ⟨earlier, earlierPresent, callbackSame, nowSame⟩ | new
  · rw [← nowSame]
    exact late earlier earlierPresent (callbackSame.trans issuer)
  · exact Int.le_trans expired new

theorem spent_setCallback {s : State} {token index : Nat} {callback next : Callback} {runs : List AgentReplyRun}
    (spent : Spent s token) (found : s.callbacks[index]? = some callback)
    (won : callback.won = true → next.won = true) (scope : next.scope = callback.scope)
    (granted : Ungranted token s.runs runs) : Spent ((s.setRuns runs).setCallback index next) token := by
  refine spent_next spent ?_ (Int.le_refl _) granted fun operation present => Or.inl ⟨operation, present, rfl, rfl⟩
  intro other present otherWon
  obtain ⟨same, sameFound, _, sameWon⟩ := lookup_set found scope won present
  exact ⟨same, sameFound, sameWon otherWon⟩

theorem spent_claim {s : State} {token index : Nat} {callback : Callback} {now : Time} {next : ClaimStep} (sound : Sound s)
    (spent : Spent s token) (found : s.callbacks[index]? = some callback) (stage : callback.stage = .claiming now next) :
    Ungranted token s.runs (claimAgentReplyRun s.runs callback.scope index now next).runs := by
  by_cases same : index = token
  · -- the callback has won already: its claim only reads
    subst same
    obtain ⟨⟨winner, winnerFound, won⟩, _⟩ := spent
    obtain rfl : winner = callback := Option.some.inj (winnerFound.symm.trans found)
    have idle : winner.stage.racing = false := by
      refine Bool.eq_false_iff.mpr fun racing => ?_
      rw [(sound.callbacks winner (List.mem_of_getElem? found)).racing racing] at won
      cases won
    rw [stage] at idle
    cases next with
    | readInserted objectId =>
      simp only [claimAgentReplyRun]
      split <;> exact ungranted_refl index s.runs
    | _ => cases idle
  · exact claim_ungranted same next

theorem spent_landed {s : State} {token index : Nat} {operation : Operation} {callback : Callback} (sound : Sound s)
    (spent : Spent s token) (found : s.operations[index]? = some operation)
    (called : s.callbacks[operation.callback]? = some callback) : Spent (land s index operation callback) token := by
  have member : operation ∈ s.operations := List.mem_of_getElem? found
  obtain ⟨callbacks, clock⟩ := land_callbacks s index operation callback
  have granted : Ungranted token s.runs (land s index operation callback).runs := by
    by_cases same : operation.callback = token
    · subst same
      rw [(late_land sound (spent_late spent member) member called).1]
      exact ungranted_refl _ s.runs
    · exact land_ungranted same
  refine spent_next spent ?_ (le_of_eq clock.symm) granted fun next present => Or.inl (land_operations found next present)
  intro other present won
  exact ⟨other, callbacks ▸ present, won⟩

theorem spent_step {s : State} {token : Nat} (sound : Sound s) (spent : Spent s token) (e : Event) :
    Spent (step s e) token := by
  have kept : ∀ callback, s.callbacks[token]? = some callback → callback.won = true →
      ∃ same, s.callbacks[token]? = some same ∧ same.won = true := fun callback found won => ⟨callback, found, won⟩
  have old : ∀ operation ∈ s.operations,
      (∃ before ∈ s.operations, before.callback = operation.callback ∧ before.now = operation.now) ∨
        s.clock ≤ operation.now := fun operation present => Or.inl ⟨operation, present, rfl, rfl⟩
  have steps := step_cases s e
  generalize step s e = next at steps ⊢
  cases steps with
  | still | sends _ => exact spent
  | tick => exact spent_next spent kept (le_max_left _ _) (ungranted_refl token s.runs) old
  | called =>
    refine spent_next spent ?_ (Int.le_refl _) (ungranted_refl token s.runs) old
    intro callback found won
    exact ⟨callback, List.getElem?_append_left (List.getElem?_eq_some_iff.mp found).1 ▸ found, won⟩
  | advanced found scope won _ =>
    exact spent_setCallback spent found (fun h => won.trans h) scope (ungranted_refl token s.runs)
  | claimed found stage =>
    exact spent_setCallback spent found (fun won => by simp [won]) rfl (spent_claim sound spent found stage)
  | issued _ _ =>
    refine spent_next spent kept (Int.le_refl _) (ungranted_refl token s.runs) fun operation present => ?_
    rcases List.mem_append.mp present with earlier | new
    · exact old operation earlier
    · rw [List.mem_singleton.mp new]
      exact Or.inr (Int.le_refl _)
  | landed found called => exact spent_landed sound spent found called

/-! ### Runs -/

/-- The callback's token is on the run of this job, and the lease has not expired. -/
def Holds (s : State) (scope : AgentReplyScope) (token : Nat) : Prop :=
  ∃ run ∈ s.runs, run.scope = scope ∧ ∃ lease, run.lease = some lease ∧ lease.token = token ∧ s.clock < lease.expiresAt

structure Protocol (s : State) : Prop where
  claims : ∀ scope, wins s.callbacks scope ≤ agentReplyMaxAttempts
  modelRuns : ∀ scope,
    (s.callbacks.countP fun callback => callback.scope == scope && callback.modelled) ≤ agentReplyMaxAttempts
  holder : ∀ scope first second, Holds s scope first → Holds s scope second → first = second
  sends : ∀ scope, (s.sends.db.requests.countP fun send =>
    send.organizationId == scope.organizationId && send.idempotencyKey == agentReplyIdempotencyKey scope) ≤ 1
  complete : ∀ run ∈ s.runs, run.state = .complete ↔
    ∃ send ∈ s.sends.db.requests, run.sendRequestId = some send.objectId ∧ answers run.scope send = true

theorem sound_protocol {s : State} (sound : Sound s) : Protocol s := by
  have claims : ∀ scope, wins s.callbacks scope ≤ agentReplyMaxAttempts := by
    intro scope
    by_cases known : scope ∈ s.runs.map AgentReplyRun.scope
    · obtain ⟨run, stored, rfl⟩ := List.mem_map.mp known
      exact (sound.wins run stored).trans (sound.runs run stored).attempts
    · have winless : wins s.callbacks scope = 0 := by
        refine List.countP_eq_zero.mpr fun callback present counted => known ?_
        simp only [Bool.and_eq_true, beq_iff_eq] at counted
        exact counted.1 ▸ (sound.callbacks callback present).known counted.2
      rw [winless]
      exact Nat.zero_le _
  refine ⟨claims, ?_, ?_, ?_, ?_⟩
  · intro scope
    refine (List.countP_mono_left fun callback present counted => ?_).trans (claims scope)
    simp only [Bool.and_eq_true] at counted ⊢
    exact ⟨counted.1, (sound.callbacks callback present).modelled counted.2⟩
  · rintro scope first second ⟨run, stored, sameScope, lease, held, token, _⟩
      ⟨other, otherStored, otherScope, otherLease, otherHeld, otherToken, _⟩
    obtain rfl : run = other := List.inj_on_of_nodup_map sound.scopes stored otherStored (sameScope.trans otherScope.symm)
    obtain rfl : lease = otherLease := Option.some.inj (held.symm.trans otherHeld)
    exact token.symm.trans otherToken
  · intro scope
    have once := List.nodup_iff_count_le_one.mp sound.keys (scope.organizationId, agentReplyIdempotencyKey scope)
    rw [List.count, List.countP_map] at once
    exact once
  · intro run stored
    have ok := sound.runs run stored
    constructor
    · intro complete
      obtain ⟨id, named⟩ := Option.isSome_iff_exists.mp (ok.complete.mp complete)
      obtain ⟨send, sent, objectId, answer⟩ := ok.names id named
      exact ⟨send, sent, objectId ▸ named, answer⟩
    · rintro ⟨send, _, named, _⟩
      exact ok.complete.mpr (by rw [named]; rfl)

/-- The landing of this operation leaves every run and every send as they are. -/
def Powerless (s : State) (index : Nat) : Prop :=
  (step s (.land index)).runs = s.runs ∧ (step s (.land index)).sends = s.sends

theorem late_powerless {s : State} {index : Nat} {operation : Operation} (sound : Sound s)
    (found : s.operations[index]? = some operation) (late : Late s operation) : Powerless s index := by
  simp only [Powerless, step, found]
  split
  · exact ⟨rfl, rfl⟩
  · rename_i callback called
    exact late_land sound late (List.mem_of_getElem? found) called

/-- Every run: the protocol's bounds, closed runs for good, no power for a late operation, and none
ever again for a spent callback. -/
theorem reply_run_protocol (messages : List Ingest.MessageRow) (clock : Time) (events : List Event) :
    let s := run step (start messages clock) events
    Protocol s ∧
    (∀ row ∈ s.runs, row.state.terminal = true → ∀ later, row ∈ (run step s later).runs) ∧
    (∀ index operation, s.operations[index]? = some operation → Late s operation → Powerless s index) ∧
    ∀ token, Spent s token → ∀ later index operation,
      (run step s later).operations[index]? = some operation → operation.callback = token →
        Powerless (run step s later) index := by
  intro s
  have sound : Sound s := run_invariant step_sound (start_sound messages clock) events
  refine ⟨sound_protocol sound, ?_, ?_, ?_⟩
  · intro row member terminal later
    exact run_closed sound member terminal later
  · intro index operation found late
    exact late_powerless sound found late
  · intro token spent later index operation found issuer
    subst issuer
    obtain ⟨soundLater, spentLater⟩ := run_invariant (I := fun s => Sound s ∧ Spent s operation.callback)
      (fun s e ⟨sound, spent⟩ => ⟨step_sound s e sound, spent_step sound spent e⟩) ⟨sound, spent⟩ later
    exact late_powerless soundLater found (spent_late spentLater (List.mem_of_getElem? found))

/-! ### A late landing -/

def job : AgentReplyScope := ⟨"o", "i", "1@g.us", "M"⟩

/-- One callback claims the run, and issues a renewal a millisecond before its lease expires. -/
def renewing : List Event :=
  [.call job, .readClock 0, .claim 0, .claim 0, .tick 119999, .issue 0 .renew, .tick 120001]

theorem expired_holder_renews :
    let s := run step (start [] 0) renewing
    s.clock = 120001 ∧ s.runs.map AgentReplyRun.lease = [some ⟨0, 120000⟩] ∧
      (step s (.land 0)).runs.map AgentReplyRun.lease = [some ⟨0, 239999⟩] := by
  intro s
  have expired : s.clock = 120001 ∧ s.runs.map AgentReplyRun.lease = [some ⟨0, 120000⟩] := by decide
  have renewed : (step s (.land 0)).runs.map AgentReplyRun.lease = [some ⟨0, 239999⟩] := by decide
  exact ⟨expired.1, expired.2, renewed⟩

end GroupButler.Replies
