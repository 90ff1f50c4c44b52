import GroupButler.Memory.Chain
import GroupButler.Memory.Limit
import GroupButler.Owner.Middleware

/-!
# The callback at the console's gate

The worker posts a claimed batch to the console without a session. The gate lets the reply callbacks through, and not
these: no batch is ever summarized, and the first answer a worker records is the end of its group's memory.
-/

namespace GroupButler.Memory.Processor
open Foundation Store Owner

/-- The route of `postMemoryBatch`. -/
def memoryBatchesPath : List Char := "/api/internal/memory-batches".toList

/-- What a callback meets. The worker's client keeps no cookies. -/
def callbackPassage : Passage := passage memoryBatchesPath [] false

def refusalText : String := "non-success callback response"

/-- An event of a request that is past the gate. -/
def requested : Memory.Event → Bool
  | .load _ _ _ | .readGroup _ | .claimWork _ _ | .renewWork _ _ | .releaseWork _ _ | .complete _ _ _
  | .resolveAuthorizationRevoked _ _ | .resolveRevoked _ _ | .stopSession _ => true
  | _ => false

/-- A failure that names the answer of a callback has the class of the gate's status. -/
def answered (failing : Failing) : Bool :=
  !(failing.code == "callback" && failing.message == refusalText) || callbackPassage == .next ||
    callbackPassage.status.any fun status => failing.failureClass == memoryCallbackFailureClass status

/-- What other processes of the worker are answered, and record. -/
def outsideAnswered : Memory.Event → Bool
  | .writeFailing _ failureClass code message _ _ => answered ⟨failureClass, code, message⟩
  | event => !requested event || callbackPassage == .next

/-- Every process and every request stands before the gate. An error of Go's client names the call it made. -/
def gated : Event → Bool
  | .respond _ (.status code) => callbackPassage == .next || callbackPassage.status == some code
  | .respond _ (.unreachable message) => message != refusalText
  | .outside event => outsideAnswered event
  | _ => true

theorem callback_refused : callbackPassage = .unauthorized := by decide

theorem answered_terminal {failing : Failing} (known : answered failing = true) (callback : failing.code = "callback")
    (refused : failing.message = refusalText) : failing.failureClass = .terminal := by
  have named : (failing.code == "callback" && failing.message == refusalText) = true := by
    rw [callback, refused, beq_self_eq_true, beq_self_eq_true]
    rfl
  rw [answered, named, callback_refused] at known
  have same : (failing.failureClass == memoryCallbackFailureClass 401) = true := known
  rw [eq_of_beq same]
  decide

theorem response_answered {index : Nat} {response : Response} {failing : Failing} (gate : gated (.respond index response) = true)
    (fails : response.failing = some failing) : answered failing = true := by
  cases response with
  | status code =>
    rw [gated, callback_refused] at gate
    have same : ((some 401 : Option Nat) == some code) = true := gate
    rw [← Option.some.inj (eq_of_beq same)] at fails
    obtain rfl := Option.some.inj fails
    decide
  | unreachable message =>
    obtain rfl := Option.some.inj fails
    have other : message ≠ refusalText := by simpa [gated] using gate
    simp [answered, other]
  | unbuildable message =>
    obtain rfl := Option.some.inj fails
    simp [answered]

/-! ### The store -/

/-- The answer of a callback is recorded. -/
def refused (batch : Batch) : Bool :=
  batch.failure.any fun failure => failure.code == "callback" && failure.message == refusalText

structure Unfinished (batch : Batch) : Prop where
  incomplete : batch.state ≠ .complete
  dead : refused batch = true → batch.state = .dead

structure Shut (s : Memory.State) : Prop where
  chains : Chains s
  unsummarized : s.summaries = []
  batches : ∀ batch ∈ s.batches, Unfinished batch

theorem start_shut (config : Config.State) : Shut (Memory.start config) :=
  ⟨start_chains config, rfl, fun _ member => by cases member⟩

theorem completes_requested {s : Memory.State} {e : Memory.Event} {batch : Batch} {leaseToken : Nat} {workToken : Option Nat}
    {now : Time} (completes : Completes s e batch leaseToken workToken now) : requested e = true := by
  cases completes <;> rfl

theorem materialized_unfinished (id : Nat) (group : GroupKey) (watermark : Option BatchKey) (oldest : Ingest.MessageRow)
    (rows : List Ingest.MessageRow) (now : Time) : Unfinished (materialized id group watermark oldest rows now) :=
  ⟨by simp [materialized], fun recorded => by cases recorded⟩

/-- An update that keeps the failure of an open batch finishes nothing. -/
theorem unfinished_of_failure {batch next : Batch} (unfinished : Unfinished batch) (open_ : batch.state ≠ .dead)
    (incomplete : next.state ≠ .complete) (failure : next.failure = batch.failure) : Unfinished next := by
  refine ⟨incomplete, fun recorded => (open_ (unfinished.dead ?_)).elim⟩
  rw [refused, ← failure]
  exact recorded

theorem filter_open {write : BatchWrite} {batch : Batch} (matched : write.filter batch = true) : batch.state ≠ .dead := by
  rcases filter_processing matched with still | ⟨waiting | waiting, -⟩ <;> simp [*]

theorem sent_unfinished {s : Memory.State} {e : Memory.Event} {write : BatchWrite} {id : Nat} (sent : Sent s e write id)
    (unrequested : requested e = false) {batch : Batch} (unfinished : Unfinished batch) (matched : write.filter batch = true) :
    Unfinished (write.change batch) ∨ ∃ caller failureClass code message fraction now,
      e = .writeFailing caller failureClass code message fraction now := by
  have open_ := filter_open matched
  cases sent with
  | claim => exact .inl (unfinished_of_failure unfinished open_ (by simp [BatchWrite.change]) rfl)
  | heartbeat => exact .inl (unfinished_of_failure unfinished open_ unfinished.incomplete rfl)
  | expireDead => exact .inl (unfinished_of_failure unfinished open_ (by simp [BatchWrite.change]) rfl)
  | expireRetry => exact .inl (unfinished_of_failure unfinished open_ (by simp [BatchWrite.change]) rfl)
  | fail known chosen => exact .inr ⟨_, _, _, _, _, _, rfl⟩
  | claimWork => cases unrequested
  | renewWork => cases unrequested
  | releaseWork => cases unrequested
  | relink completes =>
    rw [completes_requested completes] at unrequested
    cases unrequested

theorem fail_unfinished {batch : Batch} {organizationId : String} {token : Nat} {state : BatchState} {due : Option Time}
    {failing : Failing} {now : Time} (incomplete : state ≠ .complete) (known : answered failing = true)
    (dead : failing.failureClass = .terminal → state = .dead) :
    Unfinished ((BatchWrite.fail organizationId token state due ⟨failing.code, failing.message, now⟩ now).change batch) := by
  refine ⟨incomplete, fun recorded => ?_⟩
  have named : failing.code = "callback" ∧ failing.message = refusalText := by
    simpa [refused, BatchWrite.change] using recorded
  exact dead (answered_terminal known named.1 named.2)

theorem writeFailing_shut {s : Memory.State} (shut : Shut s) (caller : Nat) {failing : Failing} (known : answered failing = true)
    (fraction : Nat) (now : Time) :
    Shut (Memory.step s (.writeFailing caller failing.failureClass failing.code failing.message fraction now)) := by
  refine ⟨step_chains _ shut.chains, ?_, ?_⟩
  · simp only [Memory.step]
    cases s.failing caller with
    | none => exact shut.unsummarized
    | some read => exact shut.unsummarized
  · intro batch member
    simp only [Memory.step] at member
    cases found : s.failing caller with
    | none =>
      rw [found] at member
      exact shut.batches batch member
    | some read =>
      rw [found] at member
      dsimp only at member
      by_cases spent : failing.failureClass = .terminal ∨ memoryBatchMaxAttempts ≤ read.attempts
      · rw [if_pos spent] at member
        rcases mem_updateOne member with old | ⟨old, -, -, rfl⟩
        · exact shut.batches batch old
        · exact fail_unfinished (by decide) known fun _ => rfl
      · rw [if_neg spent] at member
        rcases mem_updateOne member with old | ⟨old, -, -, rfl⟩
        · exact shut.batches batch old
        · have waits : BatchState.retryWait ≠ .complete := by decide
          exact fail_unfinished waits known fun terminal => (spent (.inl terminal)).elim

theorem step_shut {s : Memory.State} (shut : Shut s) {e : Memory.Event} (outside : outsideAnswered e = true) :
    Shut (Memory.step s e) := by
  by_cases fails : ∃ caller failureClass code message fraction now,
      e = .writeFailing caller failureClass code message fraction now
  · obtain ⟨caller, failureClass, code, message, fraction, now, rfl⟩ := fails
    exact @writeFailing_shut s shut caller ⟨failureClass, code, message⟩ outside fraction now
  · have unrequested : requested e = false := by
      cases e with
      | writeFailing caller failureClass code message fraction now => exact (fails ⟨_, _, _, _, _, _, rfl⟩).elim
      | _ => simpa [outsideAnswered, callback_refused] using outside
    refine ⟨step_chains e shut.chains, ?_, ?_⟩
    · cases step_effect s e with
      | untouched batches summaries => exact summaries.trans shut.unsummarized
      | wrote write id sent batches summaries => exact summaries.trans shut.unsummarized
      | summarized batch leaseToken workToken text redactions now completes =>
        rw [completes_requested completes] at unrequested
        cases unrequested
      | inserted builder now group watermark oldest rows rest event selected batches summaries =>
        exact summaries.trans shut.unsummarized
    · intro next member
      rcases step_origin shut.chains.lifecycle.numbered member with ⟨batch, stored, move⟩ | born
      · have unfinished := shut.batches batch stored
        cases move with
        | kept => exact unfinished
        | wrote sent matched => exact (sent_unfinished sent unrequested unfinished matched).resolve_right fails
        | completed completes =>
          rw [completes_requested completes] at unrequested
          cases unrequested
      · cases born with
        | inserted => exact materialized_unfinished _ _ _ _ _ _

/-! ### The process -/

/-- What one event of the process sends to MongoDB. -/
inductive Sends (s : State) : Event → Memory.Event → Prop where
  | claim {pass pick call organizationId owner began} :
    Sends s (.claim pass pick call) (.claim organizationId owner began pick)
  | heartbeat {index tick call organizationId batch token} :
    Sends s (.heartbeat index tick call) (.heartbeat organizationId batch token tick)
  | readFailing {index call caller organizationId batch token} :
    Sends s (.readFailing index call) (.readFailing caller organizationId batch token)
  | writeFailing {index fraction now call task failing} (member : task ∈ s.tasks) (writing : task.stage = .writing failing) :
    Sends s (.writeFailing index fraction now call)
      (.writeFailing task.token failing.failureClass failing.code failing.message fraction now)
  | outside {event} : Sends s (.outside event) event

variable {w : Worker} {s : State}

theorem send_store (s : State) (call : Call) (event : Memory.Event) :
    (s.send call event).store = s.store ∨ (s.send call event).store = Memory.step s.store event := by
  unfold State.send
  split
  · exact .inr rfl
  · exact .inl rfl

@[simp] theorem send_tasks (s : State) (call : Call) (event : Memory.Event) : (s.send call event).tasks = s.tasks := by
  unfold State.send
  split <;> rfl

@[simp] theorem moveSlot_store (slot : Slot) (call : Call) (expiresAt now : Time) :
    (s.moveSlot w slot call expiresAt now).store = s.store := by
  unfold State.moveSlot
  split <;> rfl

@[simp] theorem moveSlot_tasks (slot : Slot) (call : Call) (expiresAt now : Time) :
    (s.moveSlot w slot call expiresAt now).tasks = s.tasks := by
  unfold State.moveSlot
  split <;> rfl

@[simp] theorem acquire_store (pass : Nat) (began : Time) (left index : Nat) (call : Call) :
    (s.acquire w pass began left index call).store = s.store := by
  unfold State.acquire
  dsimp only
  split_ifs <;> rfl

@[simp] theorem acquire_tasks (pass : Nat) (began : Time) (left index : Nat) (call : Call) :
    (s.acquire w pass began left index call).tasks = s.tasks := by
  unfold State.acquire
  dsimp only
  split_ifs <;> rfl

theorem claim_store (pass : Nat) (began : Time) (left : Nat) (slot : Slot) (pick : Nat) (call : Call) :
    (s.claim w pass began left slot pick call).store = s.store ∨
      (s.claim w pass began left slot pick call).store = Memory.step s.store (.claim w.organizationId w.owner began pick) := by
  unfold State.claim
  dsimp only
  split
  · split <;> exact send_store s call _
  · split <;> exact .inl rfl

theorem step_store (w : Worker) (s : State) (e : Event) :
    (step w s e).store = s.store ∨ ∃ event, Sends s e event ∧ (step w s e).store = Memory.step s.store event := by
  cases e with
  | begin began => exact .inl rfl
  | cancel pass =>
    simp only [step]
    split <;> exact .inl rfl
  | take pass =>
    simp only [step]
    repeat' split
    all_goals exact .inl rfl
  | acquire pass call =>
    simp only [step]
    split
    · exact .inl (acquire_store ..)
    · exact .inl rfl
  | claim pass pick call =>
    simp only [step]
    split
    · rename_i began left slot found
      rcases claim_store (w := w) (s := s) pass began left slot pick call with same | sent
      · exact .inl same
      · exact .inr ⟨_, .claim, sent⟩
    · exact .inl rfl
  | releaseSlot pass call =>
    simp only [step]
    split
    · exact .inl (moveSlot_store ..)
    · exact .inl rfl
  | free pass =>
    simp only [step]
    split <;> exact .inl rfl
  | heartbeat index tick call =>
    simp only [step]
    split
    · split
      · rcases send_store s call (.heartbeat w.organizationId _ _ tick) with same | sent
        · exact .inl same
        · exact .inr ⟨_, .heartbeat, sent⟩
      · exact .inl rfl
    · exact .inl rfl
  | heartbeatSlot index tick call =>
    simp only [step]
    split
    · split
      · exact .inl (moveSlot_store ..)
      · exact .inl rfl
    · exact .inl rfl
  | respond index response =>
    simp only [step]
    repeat' split
    all_goals exact .inl rfl
  | readFailing index call =>
    simp only [step]
    split
    · rename_i task found
      split
      · have store (failing : Failing) : (s.readFailing w index task failing call).store =
            (s.send call (.readFailing task.token w.organizationId task.batch task.token)).store := by
          unfold State.readFailing
          dsimp only
          split <;> rfl
        rw [store]
        rcases send_store s call (.readFailing task.token w.organizationId task.batch task.token) with same | sent
        · exact .inl same
        · exact .inr ⟨_, .readFailing, sent⟩
      · exact .inl rfl
    · exact .inl rfl
  | writeFailing index fraction now call =>
    simp only [step]
    split
    · rename_i task found
      split
      · rename_i failing writing
        rcases send_store s call (.writeFailing task.token failing.failureClass failing.code failing.message fraction now) with
          same | sent
        · exact .inl same
        · exact .inr ⟨_, .writeFailing (List.mem_of_getElem? found) writing, sent⟩
      · exact .inl rfl
    · exact .inl rfl
  | close index =>
    simp only [step]
    repeat' split
    all_goals exact .inl rfl
  | releaseTaskSlot index call =>
    simp only [step]
    split
    · split
      · exact .inl (moveSlot_store ..)
      · exact .inl rfl
    · exact .inl rfl
  | freeTask index =>
    simp only [step]
    repeat' split
    all_goals exact .inl rfl
  | outside event =>
    simp only [step]
    split
    · exact .inr ⟨event, .outside, rfl⟩
    · exact .inl rfl
  | advance elapsed => exact .inl rfl

/-- The failure a task is about to record. -/
def Stage.failing? : Stage → Option Failing
  | .reading failing | .writing failing => some failing
  | _ => none

theorem response_failing {response : Response} {failing : Failing} (fails : response.stage.failing? = some failing) :
    response.failing = some failing := by
  unfold Response.stage at fails
  split at fails
  · cases fails
  · rename_i found
    rw [found]
    exact fails

/-- A task records what it was answered. -/
theorem step_tasks {e : Event} {task : Task} (member : task ∈ (step w s e).tasks) {failing : Failing}
    (fails : task.stage.failing? = some failing) :
    (∃ old ∈ s.tasks, old.stage.failing? = some failing) ∨
      ∃ index response, e = .respond index response ∧ response.failing = some failing := by
  have kept (old : task ∈ s.tasks) : ∃ old ∈ s.tasks, old.stage.failing? = some failing := ⟨task, old, fails⟩
  have moved {index : Nat} {before after : Task} (found : s.tasks[index]? = some before)
      (inside : task ∈ s.tasks.set index after)
      (same : after.stage.failing? = some failing → before.stage.failing? = some failing) :
      ∃ old ∈ s.tasks, old.stage.failing? = some failing := by
    rcases List.mem_or_eq_of_mem_set inside with old | rfl
    · exact kept old
    · exact ⟨before, List.mem_of_getElem? found, same fails⟩
  cases e with
  | begin began => exact .inl (kept member)
  | cancel pass =>
    simp only [step] at member
    split at member <;> exact .inl (kept member)
  | take pass =>
    simp only [step] at member
    repeat' split at member
    all_goals exact .inl (kept member)
  | acquire pass call =>
    simp only [step] at member
    split at member
    · rw [acquire_tasks] at member
      exact .inl (kept member)
    · exact .inl (kept member)
  | claim pass pick call =>
    simp only [step] at member
    split at member
    · unfold State.claim at member
      dsimp only at member
      split at member
      · split at member
        · rcases List.mem_append.mp member with old | new
          · exact .inl (kept old)
          · rw [List.mem_singleton.mp new] at fails
            cases fails
        · exact .inl (kept (by simpa [State.pass] using member))
      · split at member <;> exact .inl (kept member)
    · exact .inl (kept member)
  | releaseSlot pass call =>
    simp only [step] at member
    split at member
    · exact .inl (kept (by simpa [State.pass] using member))
    · exact .inl (kept member)
  | free pass =>
    simp only [step] at member
    split at member <;> exact .inl (kept member)
  | heartbeat index tick call =>
    simp only [step] at member
    split at member
    · rename_i before found
      split at member
      · simp only [State.heartbeat, State.task, send_tasks] at member
        exact .inl (moved found member fun same => same)
      · exact .inl (kept member)
    · exact .inl (kept member)
  | heartbeatSlot index tick call =>
    simp only [step] at member
    split at member
    · rename_i before found
      split at member
      · simp only [State.heartbeatSlot, State.task, moveSlot_tasks] at member
        exact .inl (moved found member fun same => same)
      · exact .inl (kept member)
    · exact .inl (kept member)
  | respond index response =>
    simp only [step] at member
    split at member
    · rename_i before found
      split at member
      · rcases List.mem_or_eq_of_mem_set member with old | rfl
        · exact .inl (kept old)
        · exact .inr ⟨index, response, rfl, response_failing fails⟩
      · exact .inl (kept member)
    · exact .inl (kept member)
  | readFailing index call =>
    simp only [step] at member
    split at member
    · rename_i before found
      split at member
      · rename_i read reading
        unfold State.readFailing at member
        dsimp only at member
        split at member
        · simp only [State.task, send_tasks] at member
          exact .inl (moved found member fun same => by rw [reading]; exact same)
        · simp only [State.task, send_tasks] at member
          exact .inl (moved found member fun same => by cases same)
      · exact .inl (kept member)
    · exact .inl (kept member)
  | writeFailing index fraction now call =>
    simp only [step] at member
    split at member
    · rename_i before found
      split at member
      · simp only [State.writeFailing, State.task, send_tasks] at member
        exact .inl (moved found member fun same => by cases same)
      · exact .inl (kept member)
    · exact .inl (kept member)
  | close index =>
    simp only [step] at member
    split at member
    · rename_i before found
      split at member
      · exact .inl (moved found member fun same => by cases same)
      · exact .inl (kept member)
    · exact .inl (kept member)
  | releaseTaskSlot index call =>
    simp only [step] at member
    split at member
    · rename_i before found
      split at member
      · simp only [State.task, moveSlot_tasks] at member
        exact .inl (moved found member fun same => by cases same)
      · exact .inl (kept member)
    · exact .inl (kept member)
  | freeTask index =>
    simp only [step] at member
    split at member
    · split at member
      · exact .inl (kept (List.mem_of_mem_eraseIdx member))
      · exact .inl (kept member)
    · exact .inl (kept member)
  | outside event =>
    simp only [step] at member
    split at member <;> exact .inl (kept member)
  | advance elapsed => exact .inl (kept member)

/-! ### Runs -/

structure Stopped (s : State) : Prop where
  store : Shut s.store
  tasks : ∀ task ∈ s.tasks, ∀ failing, task.stage.failing? = some failing → answered failing = true

theorem start_stopped (config : Config.State) (now : Time) : Stopped (start config now) :=
  ⟨start_shut config, fun _ member => by cases member⟩

theorem step_stopped (stopped : Stopped s) {e : Event} (gate : gated e = true) : Stopped (step w s e) := by
  constructor
  · rcases step_store w s e with same | sent
    · rw [same]
      exact stopped.store
    · obtain ⟨event, sends, store⟩ := sent
      rw [store]
      apply step_shut stopped.store
      cases sends with
      | claim => rfl
      | heartbeat => rfl
      | readFailing => rfl
      | writeFailing member writing => exact stopped.tasks _ member _ (by rw [writing]; rfl)
      | outside => exact gate
  · intro task member failing fails
    rcases step_tasks member fails with ⟨old, stored, same⟩ | ⟨index, response, rfl, found⟩
    · exact stopped.tasks old stored failing same
    · exact response_answered gate found

theorem run_stopped (stopped : Stopped s) {events : List Event} (gate : ∀ e ∈ events, gated e = true) :
    Stopped (run (step w) s events) := by
  have keep (s : State) (e : Event) (stopped : Stopped s) (gate : gated e = true) : Stopped (step w s e) :=
    step_stopped stopped gate
  exact run_invariant_along keep stopped (along_of_forall gate s)

theorem dead_stays (stopped : Stopped s) {e : Event} {batch : Batch} (stored : batch ∈ s.store.batches)
    (dead : batch.state = .dead) : batch ∈ (step w s e).store.batches := by
  rcases step_store w s e with same | sent
  · rw [same]
    exact stored
  · obtain ⟨event, -, store⟩ := sent
    obtain ⟨next, member, move⟩ := step_next stopped.store.chains.lifecycle.numbered event stored
    rw [store, ← move.absorbed (.inr dead)]
    exact member

theorem run_dead_stays (stopped : Stopped s) {events : List Event} (gate : ∀ e ∈ events, gated e = true) {batch : Batch}
    (stored : batch ∈ s.store.batches) (dead : batch.state = .dead) : batch ∈ (run (step w) s events).store.batches := by
  have keep (s : State) (e : Event) (known : Stopped s ∧ batch ∈ s.store.batches) (gate : gated e = true) :
      Stopped (step w s e) ∧ batch ∈ (step w s e).store.batches :=
    ⟨step_stopped known.1 gate, dead_stays known.1 known.2 dead⟩
  exact (run_invariant_along keep ⟨stopped, stored⟩ (along_of_forall gate s)).2

theorem Stopped.single (stopped : Stopped s) (group : GroupKey) : (groupBatches s.store.batches group).length ≤ 1 := by
  have open_ : (groupBatches s.store.batches group).filter (fun batch => batch.state != .complete) =
      groupBatches s.store.batches group := by
    apply List.filter_eq_self.mpr
    intro batch member
    rw [bne_iff_ne]
    exact (stopped.store.batches batch (mem_groupBatches.mp member).1).incomplete
  rw [← open_]
  exact (stopped.store.chains.chained group).outstanding

/-- No interleaving of the worker's processes, the builders and the console's configuration gets a batch past the gate:
nothing is ever summarized, no batch is ever complete, and no group ever has a second one. A batch whose refusal is
recorded is dead from then on, and stays the only one of its group. -/
theorem memory_stopped_at_gate (w : Worker) (config : Config.State) (now : Time) {first later : List Event}
    (gate : ∀ e ∈ first ++ later, gated e = true) :
    let s := run (step w) (start config now) first
    let t := run (step w) s later
    t.store.summaries = [] ∧ (∀ batch ∈ t.store.batches, batch.state ≠ .complete) ∧
      (∀ group, (groupBatches t.store.batches group).length ≤ 1) ∧
      ∀ batch ∈ s.store.batches, refused batch = true →
        batch.state = .dead ∧ groupBatches t.store.batches batch.scope = [batch] := by
  intro s t
  have before : Stopped s := run_stopped (start_stopped config now) fun e member => gate e (List.mem_append_left _ member)
  have rest : ∀ e ∈ later, gated e = true := fun e member => gate e (List.mem_append_right _ member)
  have after : Stopped t := run_stopped before rest
  refine ⟨after.store.unsummarized, fun batch member => (after.store.batches batch member).incomplete, after.single, ?_⟩
  intro batch stored recorded
  have dead := (before.store.batches batch stored).dead recorded
  refine ⟨dead, ?_⟩
  have member : batch ∈ groupBatches t.store.batches batch.scope :=
    mem_groupBatches.mpr ⟨run_dead_stays before rest stored dead, rfl⟩
  have single := after.single batch.scope
  obtain ⟨only, shape⟩ := List.length_eq_one_iff.mp (le_antisymm single (List.length_pos_of_mem member))
  rw [shape] at member ⊢
  rw [List.mem_singleton.mp member]

/-- The first batch of a group is claimed, posted and refused. -/
def refusedOnce : List Event :=
  built ++ [.begin 2000, .take 0, .acquire 0 .answered, .claim 0 0 .answered, .respond 0 (.status 401), .readFailing 0 .answered,
    .writeFailing 0 0 2000 .answered]

/-- A new message comes in, and a pass looks for work. -/
def nextPass : List Event :=
  ([.save late, .scan 0 "o", .checkOutstanding 0, .checkOutstanding 0] : List Memory.Event).map .outside

theorem memory_stopped_at_gate_first :
    ∃ batch ∈ (run (step worker) (start twoGroups 2000) refusedOnce).store.batches, batch.state = .dead ∧
      groupBatches (run (step worker) (run (step worker) (start twoGroups 2000) refusedOnce) nextPass).store.batches batch.scope =
        [batch] := by
  have recorded : ∃ batch ∈ (run (step worker) (start twoGroups 2000) refusedOnce).store.batches, refused batch = true := by
    decide +kernel
  obtain ⟨batch, stored, named⟩ := recorded
  exact ⟨batch, stored,
    (@memory_stopped_at_gate worker twoGroups 2000 refusedOnce nextPass (by decide +kernel)).2.2.2 batch stored named⟩

end GroupButler.Memory.Processor
