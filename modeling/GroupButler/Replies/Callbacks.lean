import GroupButler.Foundation.Run
import GroupButler.Replies.Model
import GroupButler.Sends.Growth

/-!
# Reply callbacks

Any number of callbacks of any number of jobs, over the runs, the sends and one clock. An operation
reads the clock when it is issued and writes when it lands, which may be later or never; what its
caller learns of it does not matter here. A callback's number is the token of its claim.
-/

namespace GroupButler.Replies
open Foundation Store Sends

/-! ### `claimAgentReplyRun` -/

inductive ClaimStep where
  | upsert
  | readInserted (objectId : Nat)
  | reclaimExpired
  | closeExpired
  | reclaimDue
  | closeDue
  | read
  deriving DecidableEq, Repr

inductive Stage where
  | waiting
  | claiming (now : Time) (next : ClaimStep)
  | claimed (run : AgentReplyRun)
  | completed (run : AgentReplyRun)
  | dead (run : AgentReplyRun)
  | live (run : AgentReplyRun)
  | stopped
  deriving DecidableEq, Repr

structure Callback where
  scope : AgentReplyScope
  stage : Stage
  /-- A write of its claim took the run. -/
  won : Bool
  /-- It has called the model. -/
  modelled : Bool
  deriving DecidableEq, Repr

structure Claiming where
  runs : List AgentReplyRun
  won : Bool
  stage : Stage

/-- `findOneAndUpdate`: the callback wins and returns the run, or goes on. -/
def tryReclaim (runs : List AgentReplyRun) (filter : AgentReplyRun → Bool) (token : Nat) (now : Time)
    (otherwise : ClaimStep) : Claiming :=
  match runs.find? filter with
  | none => ⟨runs, false, .claiming now otherwise⟩
  | some run => ⟨updateOne filter (AgentReplyRun.reclaim token now) runs, true, .claimed (run.reclaim token now)⟩

def tryClose (runs : List AgentReplyRun) (filter : AgentReplyRun → Bool) (code : String) (now : Time)
    (otherwise : ClaimStep) : Claiming :=
  match runs.find? filter with
  | none => ⟨runs, false, .claiming now otherwise⟩
  | some run => ⟨updateOne filter (AgentReplyRun.close code now) runs, false, .dead (run.close code now)⟩

/-- One round trip of `claimAgentReplyRun`. A run is numbered by its place in the collection. -/
def claimAgentReplyRun (runs : List AgentReplyRun) (scope : AgentReplyScope) (token : Nat) (now : Time) : ClaimStep → Claiming
  | .upsert =>
    if runs.any fun run => run.scope == scope then ⟨runs, false, .claiming now .reclaimExpired⟩
    else ⟨runs ++ [claimedRun runs.length scope token now], true, .claiming now (.readInserted runs.length)⟩
  | .readInserted objectId =>
    match runs.find? fun run => run.objectId == objectId with
    | some run => ⟨runs, false, .claimed run⟩
    | none => ⟨runs, false, .claiming now .reclaimExpired⟩
  | .reclaimExpired =>
    tryReclaim runs (fun run => run.scope == scope && run.expired now && !run.spent) token now .closeExpired
  | .closeExpired =>
    tryClose runs (fun run => run.scope == scope && run.expired now && run.spent) "lease_exhausted" now .reclaimDue
  | .reclaimDue =>
    tryReclaim runs (fun run => run.scope == scope && run.due now && !run.spent) token now .closeDue
  | .closeDue =>
    tryClose runs (fun run => run.scope == scope && run.due now && run.spent) "attempts_exhausted" now .read
  | .read =>
    match runs.find? fun run => run.scope == scope with
    | none => ⟨runs, false, .claiming now .upsert⟩
    | some run =>
      if run.state = .complete then ⟨runs, false, .completed run⟩
      else if run.state = .dead then ⟨runs, false, .dead run⟩
      else ⟨runs, false, .live run⟩

/-! ### Operations in flight -/

inductive Work where
  | renew (run : AgentReplyRun)
  | fail (run : AgentReplyRun) (failure : ReplyFailure) (fraction : Nat)
  | automatic (run : AgentReplyRun) (chatKind text : String) (memoryBatchIds memoryFactIds : List Nat) (objectId : Nat)
      (id : String)
  | humanReview (run : AgentReplyRun) (chatKind reason : String) (objectId : Nat) (id : String)
  /-- `reconcileAgentReplySend` up to its read, and after it. -/
  | reconcile
  | finish (sendRequestId : Nat)
  | landed
  deriving DecidableEq, Repr

structure Operation where
  callback : Nat
  now : Time
  work : Work
  deriving DecidableEq, Repr

inductive Request where
  | renew
  | fail (failure : ReplyFailure) (fraction : Nat)
  | automatic (chatKind text : String) (memoryBatchIds memoryFactIds : List Nat) (objectId : Nat) (id : String)
  | humanReview (chatKind reason : String) (objectId : Nat) (id : String)
  | reconcile

/-- Only a callback that holds its claim's run can ask for what needs one. -/
def Request.work (request : Request) (stage : Stage) : Option Work :=
  match request, stage with
  | .renew, .claimed run => some (.renew run)
  | .fail failure fraction, .claimed run => some (.fail run failure fraction)
  | .automatic chatKind text batches facts objectId id, .claimed run =>
    some (.automatic run chatKind text batches facts objectId id)
  | .humanReview chatKind reason objectId id, .claimed run => some (.humanReview run chatKind reason objectId id)
  | .reconcile, _ => some .reconcile
  | _, _ => none

/-! ### The system -/

structure State where
  clock : Time
  runs : List AgentReplyRun
  sends : Sends.State
  callbacks : List Callback
  operations : List Operation

def start (messages : List Ingest.MessageRow) (clock : Time) : State := ⟨clock, [], Sends.start messages, [], []⟩

inductive Event where
  | tick (now : Time)
  /-- Any other writer of sends: the two reply writers are operations here. -/
  | sends (e : Sends.Event)
  | call (scope : AgentReplyScope)
  | readClock (callback : Nat)
  | claim (callback : Nat)
  | callModel (callback : Nat)
  | stop (callback : Nat)
  | issue (callback : Nat) (request : Request)
  | land (operation : Nat)

def State.setCallback (s : State) (index : Nat) (callback : Callback) : State :=
  { s with callbacks := s.callbacks.set index callback }

def State.setRuns (s : State) (runs : List AgentReplyRun) : State := { s with runs }

def State.db (s : State) : ReplyDb := ⟨s.runs, s.sends.db⟩

/-- An aborted transaction leaves nothing. -/
def State.commit (s : State) : Option ReplyDb → State
  | none => s
  | some db => { s with runs := db.runs, sends := { s.sends with db := db.sends } }

def State.setWork (s : State) (index : Nat) (operation : Operation) (work : Work) : State :=
  { s with operations := s.operations.set index { operation with work } }

def land (s : State) (index : Nat) (operation : Operation) (callback : Callback) : State :=
  match operation.work with
  | .renew run =>
    let held := AgentReplyRun.leasedTo run.objectId operation.callback operation.now
    (s.setRuns (updateOne held (AgentReplyRun.renew operation.now) s.runs)).setWork index operation .landed
  | .fail run failure fraction =>
    let held := AgentReplyRun.leasedTo run.objectId operation.callback operation.now
    (s.setRuns (updateOne held (AgentReplyRun.fail run failure fraction operation.now) s.runs)).setWork index operation .landed
  | .automatic run chatKind text batches facts objectId id =>
    if unusedId s.sends.db objectId id then
      (s.commit (createAutomaticSendUnderRunLease s.db run.objectId operation.callback callback.scope chatKind text batches
        facts objectId id operation.now)).setWork index operation .landed
    else s
  | .humanReview run chatKind reason objectId id =>
    if unusedId s.sends.db objectId id then
      (s.commit (createHumanReviewSendUnderRunLease s.db run.objectId operation.callback callback.scope chatKind reason
        objectId id operation.now)).setWork index operation .landed
    else s
  | .reconcile =>
    match s.sends.db.requests.find? (answers callback.scope) with
    | none => s.setWork index operation .landed
    | some send => s.setWork index operation (.finish send.objectId)
  | .finish sendRequestId =>
    let runs := updateOne (unfinished callback.scope) (AgentReplyRun.reconcile sendRequestId operation.now) s.runs
    (s.setRuns runs).setWork index operation .landed
  | .landed => s

def step (s : State) : Event → State
  | .tick now => { s with clock := max s.clock now }
  | .sends e => if e.isReply then s else { s with sends := Sends.step s.sends e }
  | .call scope => { s with callbacks := s.callbacks ++ [⟨scope, .waiting, false, false⟩] }
  | .readClock index =>
    match s.callbacks[index]? with
    | none => s
    | some callback =>
      if callback.stage = .waiting then s.setCallback index { callback with stage := .claiming s.clock .upsert } else s
  | .claim index =>
    match s.callbacks[index]? with
    | none => s
    | some callback =>
      match callback.stage with
      | .claiming now next =>
        let claiming := claimAgentReplyRun s.runs callback.scope index now next
        (s.setRuns claiming.runs).setCallback index
          { callback with stage := claiming.stage, won := callback.won || claiming.won }
      | _ => s
  | .callModel index =>
    match s.callbacks[index]? with
    | none => s
    | some callback =>
      match callback.stage with
      | .claimed _ => s.setCallback index { callback with modelled := true }
      | _ => s
  | .stop index =>
    match s.callbacks[index]? with
    | none => s
    | some callback => s.setCallback index { callback with stage := .stopped }
  | .issue index request =>
    match s.callbacks[index]?.bind fun callback => request.work callback.stage with
    | none => s
    | some work => { s with operations := s.operations ++ [⟨index, s.clock, work⟩] }
  | .land index =>
    match s.operations[index]? with
    | none => s
    | some operation =>
      match s.callbacks[operation.callback]? with
      | none => s
      | some callback => land s index operation callback

end GroupButler.Replies
