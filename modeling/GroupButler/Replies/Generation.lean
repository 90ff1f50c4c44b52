import GroupButler.Ai.Gate
import GroupButler.Replies.Commands
import GroupButler.Tools.Calls

/-!
# Asking the model

A claimed callback asks the model at most twice. An attempt calls tools while it runs, and a call that has
started goes on whatever becomes of the attempt; the write tools stage, decide and execute in round trips of
their own. The answer goes through the gate, and what it becomes is queued under the callback's lease. An
attempt whose process dies ends as a failed one.
-/

namespace GroupButler.Replies.Generation
open Foundation Store Sends Actions Ai Tools

def generationAttempts : Nat := 2

def retryBudgetMs : Int := 45000

/-! ### Attempts -/

inductive Outcome where
  | ok (text : String)
  | rejected (code : WhatsAppOutputCode)
  | failed
  deriving DecidableEq, Repr

/-- One callback's `generateGroupReply`, or the acknowledgement of its command. -/
structure Asking where
  callback : Nat
  scope : AgentReplyScope
  context : ToolChatContext
  /-- `sourceLinks` -/
  links : List (List Char)
  attempt : Nat
  /-- `none` while the attempt runs. -/
  outcome : Option Outcome
  deriving DecidableEq, Repr

def Asking.show (asking : Asking) (text : String) : Asking := { asking with links := asking.links ++ sourceLinksOf [text] }

def Asking.close (asking : Asking) (outcome : Outcome) : Asking := { asking with outcome := some outcome }

def Asking.again (asking : Asking) : Asking := { asking with attempt := asking.attempt + 1 }

/-- Only a tool call that arrived as text is worth asking again. -/
def Asking.answer [Normalization] (asking : Asking) (text : String) (elapsedMs : Int) : Asking :=
  match sanitizeWhatsAppOutput text asking.links with
  | .ok text => asking.close (.ok text)
  | .error code =>
    if code ≠ .modelMarkup ∨ asking.attempt = generationAttempts ∨ retryBudgetMs < elapsedMs then
      asking.close (.rejected code)
    else asking.again

/-- `isProviderProtocolFailure` is worth asking again. -/
def Asking.fail (asking : Asking) (isProtocol : Bool) : Asking :=
  if asking.attempt = generationAttempts ∨ isProtocol = false then asking.close .failed else asking.again

/-! ### Write calls -/

/-- What a call of a write tool asks for, and the attempt that made it. -/
structure Write where
  scope : AgentReplyScope
  asking : Nat
  attempt : Nat
  context : ToolChatContext
  /-- The links shown to the attempt so far. -/
  links : List (List Char)
  groupJid : String
  name : StagedGroupWriteToolName
  staged : Staged

def Write.generation (write : Write) : Nat × Nat := (write.asking, write.attempt)

def Write.input (write : Write) : StageActionInput := stageInput write.context write.groupJid write.name write.staged

inductive CallStage where
  | called
  | staged (id : String)
  | executing
  /-- The call returned, or its process died. -/
  | over_
  deriving DecidableEq, Repr

structure Call where
  write : Write
  stage : CallStage
  /-- Its `executeAction`. -/
  executor : Option Nat
  /-- The executor called the worker, or created the send. -/
  executed : Bool

/-- The call may still act. -/
def Call.acting (call : Call) : Bool := call.stage != .over_

inductive CallAction where
  | stage (id shortId : String) (now : Time)
  | decide (now : Time)
  | execute (action : Actions.Action)
  | answer

/-! ### The system -/

/-- A send as it was queued, and the links its text was held to. -/
structure QueuedSend where
  links : List (List Char)
  row : SendRow

structure State where
  commands : Commands.State
  groups : List StoredGroup
  askings : List Asking
  calls : List Call
  queued : List QueuedSend

def start (messages : List Ingest.MessageRow) (clock : Time) : State := ⟨Commands.start messages clock, [], [], [], []⟩

inductive Event where
  | commands (e : Commands.Event)
  | groups (groups : List StoredGroup)
  /-- The prompt that was assembled is the evidence. -/
  | ask (callback : Nat) (chatKind : ChatKind) (authorizedJids evidence : List String)
  | shown (asking : Nat) (text : String)
  | tool (asking : Nat) (name : StagedGroupWriteToolName) (input : Json) (now : Time)
  | call (index : Nat) (action : CallAction)
  | answer (asking : Nat) (text : String) (elapsedMs : Int)
  | fail (asking : Nat) (isProtocol : Bool)
  | send (asking : Nat) (memoryBatchIds memoryFactIds : List Nat) (objectId : Nat) (id : String)
  | review (asking : Nat) (objectId : Nat) (id : String)

def State.sends (s : State) : SendDb := s.commands.replies.sends.db

/-- What a call's scope is read from. -/
def State.database (s : State) : Database := ⟨s.groups, [], s.sends, s.commands.actions⟩

def State.setAsking (s : State) (index : Nat) (asking : Asking) : State := { s with askings := s.askings.set index asking }

def State.setCall (s : State) (index : Nat) (call : Call) : State := { s with calls := s.calls.set index call }

/-- The rows that are new. -/
def newRows (before after : SendDb) : List SendRow := after.requests.filter fun row => row ∉ before.requests

def State.queue (s : State) (before : SendDb) (links : List (List Char)) : State :=
  { s with queued := s.queued ++ (newRows before s.sends).map (QueuedSend.mk links) }

/-- The links a callback's text was held to. -/
def State.linksOf (s : State) (callback : Nat) : List (List Char) :=
  ((s.askings.find? fun asking => asking.callback == callback).map Asking.links).getD []

def chatContext (scope : AgentReplyScope) (chatKind : ChatKind) (authorizedJids : List String) : ToolChatContext where
  organizationId := scope.organizationId
  instanceId := scope.instanceId
  chatKind
  chatJid := scope.groupJid
  groupJid := match chatKind with | .group => some scope.groupJid | .user => none
  authorizedJids

def chatKindWord : ChatKind → String
  | .group => "group"
  | .user => "user"

def codeWord : WhatsAppOutputCode → String
  | .empty => "empty"
  | .unsafeLink => "unsafe_link"
  | .unsafeMarkup => "unsafe_markup"
  | .unsafeJson => "unsafe_json"
  | .modelMarkup => "model_markup"

/-- A callback asks once, and that of a command does not ask. -/
def State.asked (s : State) (callback : Nat) : Bool := s.askings.any fun asking => asking.callback == callback

section
variable (inbox : AgentReplyScope → Option Commands.DirectMessage)

def State.apply [Datetimes] (s : State) (e : Commands.Event) : State := { s with commands := Commands.step inbox s.commands e }

/-- The asking a claimed callback starts. -/
def State.opening (s : State) (callback : Nat) (chatKind : ChatKind) (authorizedJids evidence : List String) : Option Asking :=
  if s.asked callback || !s.commands.working callback || (s.commands.jobAt inbox callback).isSome then none
  else s.commands.replies.callbacks[callback]?.map fun opened =>
    ⟨callback, opened.scope, chatContext opened.scope chatKind authorizedJids, sourceLinksOf evidence, 1, none⟩

/-- The acknowledgement of a callback's command, whose text no model wrote. -/
def State.acknowledgement (s : State) (callback : Nat) : Option Asking :=
  if s.asked callback then none
  else
    match s.commands.jobAt inbox callback, s.commands.handlers callback with
    | some job, some (.answered decision) =>
      some ⟨callback, job.scope, chatContext job.scope .user [], [], 1, some (.ok (decisionReply job.command decision))⟩
    | _, _ => none

def autonomyInput (write : Write) (id : String) : DecideActionInput :=
  ⟨.id id, write.context.organizationId, .approve, Surfaces.autonomyActor, "internal"⟩

/-- One round trip of a call. -/
def act [Datetimes] (s : State) (index : Nat) (call : Call) : CallAction → State
  | .stage id shortId now =>
    let next := s.apply inbox (.actions (.stage call.write.input id shortId now))
    if call.stage = .called ∧ Surfaces.stored s.commands.acting next.commands.acting then
      next.setCall index { call with stage := .staged id }
    else s
  | .decide now =>
    match call.stage with
    | .staged id =>
      if Surfaces.autonomousActions.contains call.write.name.name then
        match decideAction s.commands.acting.db (autonomyInput call.write id) now with
        | none => s.setCall index { call with stage := .over_ }
        | some (_, row) =>
          let decided := (s.apply inbox (.actions (.decide (autonomyInput call.write id) now))).commands
          let executor : Executor := ⟨row, "internal", .called⟩
          { s with commands := { decided with executors := decided.executors ++ [executor] } }.setCall index
            { call with stage := .executing, executor := some decided.executors.length }
      else s
    | _ => s
  | .execute action =>
    match call.stage, call.executor with
    | .executing, some executor =>
      let next := s.apply inbox (.actions (.executor executor action))
      let executed := call.executed || decide (s.commands.ledger.length < next.commands.ledger.length)
      (next.queue s.sends call.write.links).setCall index { call with executed }
    | _, _ => s
  | .answer => s.setCall index { call with stage := .over_ }

variable [Runtime] [Normalization] [Datetimes] [DateStrings]

omit [Datetimes] in
/-- The write a tool call of a running attempt asks for. -/
def State.writing (s : State) (index : Nat) (name : StagedGroupWriteToolName) (input : Json) (now : Time) : Option Write :=
  s.askings[index]?.bind fun asking =>
    (scopedGroup s.database asking.context input).bind fun groupJid =>
      (stage now name input).bind fun staged =>
        if asking.outcome.isNone then
          some ⟨asking.scope, index, asking.attempt, asking.context, asking.links, groupJid, name, staged⟩
        else none

def step (s : State) : Event → State
  | .commands e =>
    match e with
    -- a text is queued by its own events, and the model is called by its own
    | .replies (.issue _ request) => if Commands.queues request then s else s.apply inbox e
    | .replies (.callModel _) => s
    | .replies (.land index) =>
      match s.commands.replies.operations[index]? with
      | none => s
      | some operation => (s.apply inbox e).queue s.sends (s.linksOf operation.callback)
    | .actions (.executor index _) => if s.calls.any fun call => call.executor == some index then s else s.apply inbox e
    | .acknowledge callback _ _ =>
      match s.acknowledgement inbox callback with
      | none => s
      | some asking => { s.apply inbox e with askings := s.askings ++ [asking] }
    | e => s.apply inbox e
  | .groups groups => { s with groups }
  | .ask callback chatKind authorizedJids evidence =>
    match s.opening inbox callback chatKind authorizedJids evidence with
    | none => s
    | some asking => { s.apply inbox (.replies (.callModel callback)) with askings := s.askings ++ [asking] }
  | .shown index text =>
    match s.askings[index]? with
    | none => s
    | some asking => if asking.outcome.isNone then s.setAsking index (asking.show text) else s
  | .tool index name input now =>
    match s.writing index name input now with
    | none => s
    | some write => { s with calls := s.calls ++ [⟨write, .called, none, false⟩] }
  | .call index action =>
    match s.calls[index]? with
    | none => s
    | some call => if call.acting then act inbox s index call action else s
  | .answer index text elapsedMs =>
    match s.askings[index]? with
    | none => s
    | some asking => if asking.outcome.isNone then s.setAsking index (asking.answer text elapsedMs) else s
  | .fail index isProtocol =>
    match s.askings[index]? with
    | none => s
    | some asking => if asking.outcome.isNone then s.setAsking index (asking.fail isProtocol) else s
  | .send index memoryBatchIds memoryFactIds objectId id =>
    match s.askings[index]? with
    | none => s
    | some asking =>
      match asking.outcome with
      | some (.ok text) =>
        s.apply inbox (.replies (.issue asking.callback
          (.automatic (chatKindWord asking.context.chatKind) text memoryBatchIds memoryFactIds objectId id)))
      | _ => s
  | .review index objectId id =>
    match s.askings[index]? with
    | none => s
    | some asking =>
      match asking.outcome with
      | some (.rejected code) =>
        s.apply inbox (.replies (.issue asking.callback
          (.humanReview (chatKindWord asking.context.chatKind) (codeWord code) objectId id)))
      | _ => s

end

end GroupButler.Replies.Generation
