import GroupButler.Memory.Lifecycle

/-!
# The processor of one worker process

A pass takes a token of the channel, a slot document and a batch's lease, and leaves them to a task
that calls the BFF. The task renews the lease and the slot while it runs, and gives slot and token back
whatever became of the lease.
-/

namespace GroupButler.Memory.Processor
open Foundation Store

structure Worker where
  organizationId : String
  owner : String
  concurrency : Nat
  positive : 0 < concurrency

/-- What came of a call to MongoDB. An unanswered one has landed. -/
inductive Call where
  | answered | unanswered | failed
  deriving DecidableEq, Repr

def Call.landed : Call → Bool
  | .answered | .unanswered => true
  | .failed => false

/-- One `memoryBatchSlot` document. -/
structure SlotDoc where
  owner : String
  token : Nat
  expiresAt : Time
  updatedAt : Time
  deriving DecidableEq, Repr

/-- The slot as its holder knows it. -/
structure Slot where
  index : Nat
  token : Nat
  deriving DecidableEq, Repr

/-- Where the loop of one `RunOnce` stands, with the turns it has left. -/
inductive Pass where
  | looping (began : Time) (left : Nat)
  | acquiring (began : Time) (left : Nat) (index : Nat)
  | claiming (began : Time) (left : Nat) (slot : Slot)
  | leaving (slot : Option Slot)
  | waiting
  deriving DecidableEq, Repr

/-- Whether the pass has a token of the channel. -/
def Pass.holds : Pass → Bool
  | .acquiring _ _ _ | .claiming _ _ _ | .leaving _ => true
  | .looping _ _ | .waiting => false

/-- The arguments of a `Fail`. -/
structure Failing where
  failureClass : FailureClass
  code : String
  message : String
  deriving DecidableEq, Repr

/-- `closing` is the end of `deliver`, where it waits for the heartbeat. -/
inductive Stage where
  | calling
  | reading (failing : Failing)
  | writing (failing : Failing)
  | closing
  | delivered
  | released
  deriving DecidableEq, Repr

/-- The heartbeat goroutine's next write. -/
inductive Beat where
  | batch | slot | stopped
  deriving DecidableEq, Repr

structure Task where
  batch : Nat
  token : Nat
  slot : Slot
  beat : Beat
  stage : Stage
  deriving DecidableEq, Repr

structure State where
  store : Memory.State
  slots : Nat → Option SlotDoc
  clock : Time
  channel : Nat
  passes : List Pass
  tasks : List Task
  /-- The next slot token. -/
  fresh : Nat

inductive Response where
  | status (code : Nat)
  | unreachable (message : String)
  | unbuildable (message : String)
  deriving DecidableEq, Repr

def memoryCallbackFailureClass (status : Nat) : FailureClass :=
  if 400 ≤ status ∧ status < 500 ∧ status ≠ 408 ∧ status ≠ 429 then .terminal else .retryable

/-- The `failBatch` of a response, if any. -/
def Response.failing : Response → Option Failing
  | .status code =>
    if code < 200 ∨ 300 ≤ code then some ⟨memoryCallbackFailureClass code, "callback", "non-success callback response"⟩
    else none
  | .unreachable message => some ⟨memoryCallbackFailureClass 0, "callback", message⟩
  | .unbuildable message => some ⟨.retryable, "callback_request", message⟩

inductive Event where
  | begin (began : Time)
  | cancel (pass : Nat)
  | take (pass : Nat)
  | acquire (pass : Nat) (call : Call)
  | claim (pass : Nat) (pick : Nat) (call : Call)
  | releaseSlot (pass : Nat) (call : Call)
  | free (pass : Nat)
  | heartbeat (task : Nat) (tick : Time) (call : Call)
  | heartbeatSlot (task : Nat) (tick : Time) (call : Call)
  | respond (task : Nat) (response : Response)
  | readFailing (task : Nat) (call : Call)
  | writeFailing (task : Nat) (fraction : Nat) (now : Time) (call : Call)
  | close (task : Nat)
  | releaseTaskSlot (task : Nat) (call : Call)
  | freeTask (task : Nat)
  /-- The BFF, the builders, the recovery, and other worker processes. -/
  | outside (event : Memory.Event)
  | advance (elapsed : Nat)

/-- Whether the event is no claim of this process, and touches nothing of a call in flight here. -/
def foreign (w : Worker) (s : State) : Memory.Event → Bool
  | .claim _ owner _ _ => owner != w.owner
  | .heartbeat _ id token _ => s.store.batches.all fun batch =>
      !(batch.id == id && batch.leasedBy token && batch.lease.any (·.owner == w.owner))
  | .readFailing caller _ _ _ | .writeFailing caller _ _ _ _ _ => s.tasks.all fun task => task.token != caller
  | _ => true

def State.pass (s : State) (index : Nat) (next : Pass) : State := { s with passes := s.passes.set index next }

def State.task (s : State) (index : Nat) (next : Task) : State := { s with tasks := s.tasks.set index next }

def State.send (s : State) (call : Call) (event : Memory.Event) : State :=
  if call.landed then { s with store := Memory.step s.store event } else s

def slotFree (s : State) (index : Nat) (now : Time) : Bool := (s.slots index).all fun doc => decide (doc.expiresAt ≤ now)

/-- `owner` and `token` in the filter. -/
def slotHeld (w : Worker) (s : State) (slot : Slot) : Bool :=
  (s.slots slot.index).any fun doc => doc.owner == w.owner && doc.token == slot.token

def State.moveSlot (w : Worker) (s : State) (slot : Slot) (call : Call) (expiresAt now : Time) : State :=
  if call.landed && slotHeld w s slot then
    { s with slots := Function.update s.slots slot.index (some ⟨w.owner, slot.token, expiresAt, now⟩) }
  else s

/-- One slot of `AcquireProcessorSlot`'s loop. -/
def State.acquire (w : Worker) (s : State) (pass : Nat) (began : Time) (left index : Nat) (call : Call) : State :=
  if index < w.concurrency then
    let written := call.landed && slotFree s index began
    let next : State :=
      if written then
        { s with
          slots := Function.update s.slots index (some ⟨w.owner, s.fresh, began + memoryBatchLease, began⟩)
          fresh := s.fresh + 1 }
      else s
    if call ≠ .answered then next.pass pass (.leaving none)
    else if written then next.pass pass (.claiming began left ⟨index, s.fresh⟩)
    else next.pass pass (.acquiring began left (index + 1))
  else s.pass pass (.leaving none)

def State.claim (w : Worker) (s : State) (pass : Nat) (began : Time) (left : Nat) (slot : Slot) (pick : Nat) (call : Call) :
    State :=
  let write := BatchWrite.claim w.organizationId began w.owner s.store.fresh
  let sent := s.send call (.claim w.organizationId w.owner began pick)
  if oldestDue s.store.batches write pick then
    if call = .answered then
      { sent.pass pass (.looping began left) with tasks := s.tasks ++ [⟨pick, s.store.fresh, slot, .batch, .calling⟩] }
    else sent.pass pass (.leaving (some slot))
  -- the server never answers with a batch that is not the oldest due one
  else if s.store.batches.any write.filter && call.landed then s
  else s.pass pass (.leaving (some slot))

def State.heartbeat (w : Worker) (s : State) (index : Nat) (task : Task) (tick : Time) (call : Call) : State :=
  let alive := (BatchWrite.heartbeat w.organizationId task.token tick).hits task.batch s.store.batches
  (s.send call (.heartbeat w.organizationId task.batch task.token tick)).task index
    { task with beat := if call = .answered ∧ alive then .slot else .stopped }

def State.heartbeatSlot (w : Worker) (s : State) (index : Nat) (task : Task) (tick : Time) (call : Call) : State :=
  (s.moveSlot w task.slot call (tick + memoryBatchLease) tick).task index
    { task with beat := if call = .answered ∧ slotHeld w s task.slot then .batch else .stopped }

def Response.stage (response : Response) : Stage :=
  match response.failing with
  | none => .closing
  | some failing => .reading failing

/-- The first half of `Fail`, which writes nothing unless it found the batch. -/
def State.readFailing (w : Worker) (s : State) (index : Nat) (task : Task) (failing : Failing) (call : Call) : State :=
  let read := s.send call (.readFailing task.token w.organizationId task.batch task.token)
  if call = .answered ∧ (read.store.failing task.token).isSome then read.task index { task with stage := .writing failing }
  else read.task index { task with stage := .closing }

def State.writeFailing (s : State) (index : Nat) (task : Task) (failing : Failing) (fraction : Nat) (now : Time)
    (call : Call) : State :=
  (s.send call (.writeFailing task.token failing.failureClass failing.code failing.message fraction now)).task index
    { task with stage := .closing }

/-- Before `deliver` has waited for it, the heartbeat may go on. -/
def Stage.beating : Stage → Bool
  | .calling | .reading _ | .writing _ | .closing => true
  | .delivered | .released => false

def step (w : Worker) (s : State) : Event → State
  | .begin began => { s with passes := s.passes ++ [.looping began w.concurrency] }
  | .cancel pass =>
    match s.passes[pass]? with
    | some (.looping _ _) => s.pass pass .waiting
    | _ => s
  | .take pass =>
    match s.passes[pass]? with
    | some (.looping _ 0) => s.pass pass .waiting
    | some (.looping began (left + 1)) =>
      if s.channel < w.concurrency then { s.pass pass (.acquiring began left 0) with channel := s.channel + 1 } else s
    | _ => s
  | .acquire pass call =>
    match s.passes[pass]? with
    | some (.acquiring began left index) => s.acquire w pass began left index call
    | _ => s
  | .claim pass pick call =>
    match s.passes[pass]? with
    | some (.claiming began left slot) => s.claim w pass began left slot pick call
    | _ => s
  | .releaseSlot pass call =>
    match s.passes[pass]? with
    | some (.leaving (some slot)) => (s.moveSlot w slot call s.clock s.clock).pass pass (.leaving none)
    | _ => s
  | .free pass =>
    match s.passes[pass]? with
    | some (.leaving none) => { s.pass pass .waiting with channel := s.channel - 1 }
    | _ => s
  | .heartbeat index tick call =>
    match s.tasks[index]? with
    | some task => if task.stage.beating && task.beat == .batch then s.heartbeat w index task tick call else s
    | none => s
  | .heartbeatSlot index tick call =>
    match s.tasks[index]? with
    | some task => if task.stage.beating && task.beat == .slot then s.heartbeatSlot w index task tick call else s
    | none => s
  | .respond index response =>
    match s.tasks[index]? with
    | some task => if task.stage = .calling then s.task index { task with stage := response.stage } else s
    | none => s
  | .readFailing index call =>
    match s.tasks[index]? with
    | some task =>
      match task.stage with
      | .reading failing => s.readFailing w index task failing call
      | _ => s
    | none => s
  | .writeFailing index fraction now call =>
    match s.tasks[index]? with
    | some task =>
      match task.stage with
      | .writing failing => s.writeFailing index task failing fraction now call
      | _ => s
    | none => s
  | .close index =>
    match s.tasks[index]? with
    | some task => if task.stage = .closing then s.task index { task with stage := .delivered, beat := .stopped } else s
    | none => s
  | .releaseTaskSlot index call =>
    match s.tasks[index]? with
    | some task =>
      if task.stage = .delivered then
        (s.moveSlot w task.slot call s.clock s.clock).task index { task with stage := .released }
      else s
    | none => s
  | .freeTask index =>
    match s.tasks[index]? with
    | some task =>
      if task.stage = .released then { s with channel := s.channel - 1, tasks := s.tasks.eraseIdx index } else s
    | none => s
  | .outside event => if foreign w s event then { s with store := Memory.step s.store event } else s
  | .advance elapsed => { s with clock := s.clock + elapsed }

/-- Nobody has a lease under a new process's owner. -/
def start (config : Config.State) (now : Time) : State := ⟨Memory.start config, fun _ => none, now, 0, [], [], 0⟩

/-! ### The limit -/

/-- In `processing`, with an unexpired lease of this process. -/
def live (w : Worker) (now : Time) (batch : Batch) : Bool :=
  batch.state == .processing && batch.lease.any fun lease => lease.owner == w.owner && decide (now < lease.expiresAt)

def Limited (w : Worker) (s : State) : Prop := (s.store.batches.filter (live w s.clock)).length ≤ w.concurrency

def Pass.claims : Pass → Option Time
  | .claiming began _ _ => some began
  | _ => none

/-- A task gives its token back when its lease is over, and a claim nobody hears of leaves no lease. -/
def Frees (w : Worker) (s : State) : Event → Prop
  | .freeTask index => ∀ task ∈ s.tasks[index]?, task.stage = .released → ∀ batch ∈ s.store.batches,
      batch.id = task.batch → batch.leasedBy task.token = true → live w s.clock batch = false
  | .claim pass pick .unanswered => ∀ holder ∈ s.passes[pass]?, ∀ began ∈ holder.claims,
      oldestDue s.store.batches (.claim w.organizationId began w.owner s.store.fresh) pick = true →
        began + memoryBatchLease ≤ s.clock
  | _ => True

instance (w : Worker) (s : State) : (e : Event) → Decidable (Frees w s e)
  | .freeTask index => inferInstanceAs (Decidable (∀ task ∈ s.tasks[index]?, task.stage = .released →
      ∀ batch ∈ s.store.batches, batch.id = task.batch → batch.leasedBy task.token = true →
        live w s.clock batch = false))
  | .claim pass pick .unanswered => inferInstanceAs (Decidable (∀ holder ∈ s.passes[pass]?, ∀ began ∈ holder.claims,
      oldestDue s.store.batches (.claim w.organizationId began w.owner s.store.fresh) pick = true →
        began + memoryBatchLease ≤ s.clock))
  | .claim _ _ .answered | .claim _ _ .failed | .begin _ | .cancel _ | .take _ | .acquire _ _ | .releaseSlot _ _ | .free _
  | .heartbeat _ _ _ | .heartbeatSlot _ _ _ | .respond _ _ | .readFailing _ _ | .writeFailing _ _ _ _ | .close _
  | .releaseTaskSlot _ _ | .outside _ | .advance _ => .isTrue trivial

instance (w : Worker) (s : State) : Decidable (Limited w s) := inferInstanceAs (Decidable (_ ≤ _))

end GroupButler.Memory.Processor
