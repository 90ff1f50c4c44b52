import GroupButler.Actions.Command
import GroupButler.Actions.Execute
import GroupButler.Replies.Callbacks

/-!
# Commands in a direct chat

A callback whose message is a command decides an action in one transaction, and queues the
acknowledgement in another under its lease. Between the two it may lose the lease, fail or stop, and
another callback of the message runs the whole handler again.
-/

namespace GroupButler.Replies.Commands
open Foundation Store Sends Actions

/-- What every callback of a job reads of its message. -/
structure DirectMessage where
  text : String
  ownerJid : String

structure Job where
  scope : AgentReplyScope
  command : ApprovalCommand
  ownerJid : String
  deriving DecidableEq, Repr

def Job.ref (job : Job) : PendingActionRef := .shortId job.command.shortId

def Job.input (job : Job) : DecideActionInput := job.command.input job.scope.organizationId job.ownerJid

/-- The rows the command names. -/
def Job.names (job : Job) (row : ActionRow) : Bool :=
  row.organizationId == job.scope.organizationId && refFilter job.ref row

/-- A handler, from its `decideAction` on. -/
inductive Deciding where
  /-- Nothing was pending, and the row is still to be read. -/
  | missed
  | answered (decision : ActionDecision)

def Deciding.isMissed : Deciding → Bool
  | .missed => true
  | .answered _ => false

inductive Origin where
  | message (scope : AgentReplyScope) (callback : Nat)
  /-- The console, or the assistant. -/
  | surface
  deriving DecidableEq, Repr

/-- One update that took an action out of `pending`. -/
structure Decision where
  name : String × String
  origin : Origin
  deriving DecidableEq, Repr

/-- The callback of this message that made the decision. -/
def Decision.attempt (scope : AgentReplyScope) (decision : Decision) : Option Nat :=
  match decision.origin with
  | .message source callback => if source = scope then some callback else none
  | .surface => none

structure State where
  replies : Replies.State
  actions : List ActionRow
  executors : List Executor
  ledger : List Effect
  /-- By callback. -/
  handlers : Nat → Option Deciding
  decisions : List Decision

def start (messages : List Ingest.MessageRow) (clock : Time) : State :=
  ⟨Replies.start messages clock, [], [], [], fun _ => none, []⟩

inductive Event where
  | replies (e : Replies.Event)
  /-- Staging, the other surfaces and the executor. -/
  | actions (e : Actions.Event)
  | decide (callback : Nat) (now : Time)
  | read (callback : Nat)
  | acknowledge (callback objectId : Nat) (id : String)

/-- The actions, over the sends that the replies share. -/
def State.acting (s : State) : Actions.State := ⟨s.actions, s.replies.sends, s.executors, s.ledger⟩

def State.act (s : State) (next : Actions.State) : State :=
  { s with
    replies := { s.replies with sends := next.sends }
    actions := next.actions
    executors := next.executors
    ledger := next.ledger }

def State.record (s : State) (row : ActionRow) (origin : Origin) : State :=
  { s with decisions := s.decisions ++ [⟨row.name, origin⟩] }

def State.handle (s : State) (index : Nat) (deciding : Deciding) : State :=
  { s with handlers := Function.update s.handlers index (some deciding) }

/-- Only a callback that has claimed the run goes on to the command. -/
def State.working (s : State) (index : Nat) : Bool :=
  match s.replies.callbacks[index]?.map Callback.stage with
  | some (.claimed _) => true
  | _ => false

def queues : Request → Bool
  | .automatic .. | .humanReview .. => true
  | _ => false

section
variable (inbox : AgentReplyScope → Option DirectMessage)

def jobOf (scope : AgentReplyScope) : Option Job :=
  (inbox scope).bind fun message =>
    (approvalCommand message.text).map fun command => ⟨scope, command, message.ownerJid⟩

def State.jobAt (s : State) (index : Nat) : Option Job :=
  s.replies.callbacks[index]?.bind fun callback => jobOf inbox callback.scope

def step [Datetimes] (s : State) : Event → State
  | .replies e =>
    match e with
    | .issue index request =>
      -- the callback of a command sends its acknowledgement alone
      if queues request && (s.jobAt inbox index).isSome then s
      else { s with replies := Replies.step s.replies (.issue index request) }
    | e => { s with replies := Replies.step s.replies e }
  | .actions e =>
    match e with
    -- the sends have their own events
    | .sends _ => s
    | .decide input now =>
      match decideAction s.acting.db input now with
      | none => s
      | some (db, row) => (s.act (s.acting.commit db)).record row .surface
    | e => s.act (Actions.step s.acting e)
  | .decide index now =>
    match s.jobAt inbox index, s.handlers index with
    | some job, none =>
      if s.working index then
        match decideAction s.acting.db job.input now with
        | none => s.handle index .missed
        | some (db, row) =>
          ((s.act (s.acting.commit db)).record row (.message job.scope index)).handle index (.answered (.row row))
      else s
    | _, _ => s
  | .read index =>
    match s.jobAt inbox index, s.handlers index with
    | some job, some .missed =>
      if s.working index then
        s.handle index (.answered (undecidedAnswer s.acting.db job.scope.organizationId job.ref))
      else s
    | _, _ => s
  | .acknowledge index objectId id =>
    match s.jobAt inbox index, s.handlers index with
    | some job, some (.answered decision) =>
      let request := .automatic "user" (decisionReply job.command decision) [] [] objectId id
      { s with replies := Replies.step s.replies (.issue index request) }
    | _, _ => s

/-! ### The condition -/

/-- The landing of this operation completes the run and queues its send. -/
def completes (s : Replies.State) (operation : Operation) (scope : AgentReplyScope) : Bool :=
  match operation.work with
  | .automatic run .. =>
    s.runs.any fun row => row.leasedTo run.objectId operation.callback operation.now && row.scope == scope
  | _ => false

/-- A message that has decided is answered by the callback that did, and decides nothing once it is
answered; and nothing is staged under the short id of a handler about to read it. -/
def Prompt (s : State) : Event → Prop
  | .replies (.land index) => ∀ operation ∈ s.replies.operations[index]?,
      ∀ callback ∈ s.replies.callbacks[operation.callback]?, completes s.replies operation callback.scope = true →
        ∀ decision ∈ s.decisions, ∀ attempt ∈ decision.attempt callback.scope, attempt = operation.callback
  | .decide index _ => ∀ job ∈ s.jobAt inbox index, s.actions.any (undecided job.input) = true →
      ∀ send ∈ s.replies.sends.db.requests, answers job.scope send = false
  | .actions (.stage input id shortId now) => ∀ index < s.replies.callbacks.length,
      (s.handlers index).any Deciding.isMissed = true → ∀ job ∈ s.jobAt inbox index,
        job.names (stagedRow input id shortId now) = false
  | _ => True

instance (s : State) : (e : Event) → Decidable (Prompt inbox s e)
  | .replies (.land index) => inferInstanceAs (Decidable (∀ operation ∈ s.replies.operations[index]?,
      ∀ callback ∈ s.replies.callbacks[operation.callback]?, completes s.replies operation callback.scope = true →
        ∀ decision ∈ s.decisions, ∀ attempt ∈ decision.attempt callback.scope, attempt = operation.callback))
  | .decide index _ => inferInstanceAs (Decidable (∀ job ∈ s.jobAt inbox index,
      s.actions.any (undecided job.input) = true → ∀ send ∈ s.replies.sends.db.requests, answers job.scope send = false))
  | .actions (.stage input id shortId now) => inferInstanceAs (Decidable (∀ index < s.replies.callbacks.length,
      (s.handlers index).any Deciding.isMissed = true → ∀ job ∈ s.jobAt inbox index,
        job.names (stagedRow input id shortId now) = false))
  | .replies (.tick _) | .replies (.sends _) | .replies (.call _) | .replies (.readClock _) | .replies (.claim _)
  | .replies (.callModel _) | .replies (.stop _) | .replies (.issue _ _) => .isTrue trivial
  | .actions (.sends _) | .actions (.decide _ _) | .actions (.execute _ _ _) | .actions (.executor _ _) => .isTrue trivial
  | .read _ | .acknowledge _ _ _ => .isTrue trivial

end

end GroupButler.Replies.Commands
