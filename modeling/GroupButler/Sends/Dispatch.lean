import GroupButler.Foundation.Run
import GroupButler.Sends.Outbound

/-!
# The send dispatcher

Any number of dispatchers share the collection with the BFF. A delivery is one claim and what the
dispatcher that made it does next. The bridge applies the text of a call at most once, at any moment
from the call on: an answer that is lost or late does not undo it.
-/

namespace GroupButler.Sends
open Foundation Store Ingest

inductive Call where
  | notMade
  | pending (send : OutboundSend)
  | ended (ending : CallEnd)
  /-- The dispatcher is gone and its call is not. -/
  | abandoned
  deriving DecidableEq, Repr

inductive Stage where
  | working
  /-- The outcome is known and not yet written. -/
  | marking (outcome : Except SendError String)
  | recorded (outcome : Except SendError String)
  /-- Crashed, or its write failed. -/
  | lost

structure Delivery where
  /-- As the claim returned it. -/
  request : SendRow
  workerId : String
  call : Call
  stage : Stage
  /-- The dispatcher's context is not done. -/
  live : Bool
  applied : Bool

structure State where
  db : SendDb
  messages : List MessageRow
  /-- The reads `approveSend` has made: scope, id, and which update it will run. -/
  approvals : List (String × String × Bool)
  deliveries : List Delivery

def start (messages : List MessageRow) : State := ⟨⟨[], []⟩, messages, [], []⟩

/-! ### The dispatcher's writes -/

def dispatchLockTTL : Int := 60000

def claimable (orgID : String) (maxAttempts : Nat) (now : Time) (row : SendRow) : Bool :=
  row.organizationId == orgID && decide (row.dispatch.attempts < maxAttempts) &&
    (row.status == .approved || row.status == .scheduled) && decide (row.scheduledFor ≤ now) &&
    match row.dispatch.lockedAt with
    | none => true
    | some lockedAt => decide (lockedAt < now - dispatchLockTTL)

def SendRow.claimed (workerId : String) (now : Time) (row : SendRow) : SendRow :=
  { row with
    status := .sending
    dispatch := { row.dispatch with
      lockedAt := some now, lockedBy := some workerId, attempts := row.dispatch.attempts + 1 }
    updatedAt := now }

/-- `claim` takes a due row that no due row precedes; of several, the store picks. -/
def oldestDue (orgID : String) (maxAttempts : Nat) (now : Time) (requests : List SendRow) (row : SendRow) : Bool :=
  claimable orgID maxAttempts now row &&
    requests.all fun other => !claimable orgID maxAttempts now other || decide (row.scheduledFor ≤ other.scheduledFor)

/-- The filter of both writes that end a delivery. -/
def SendRow.heldFor (delivery : Delivery) (row : SendRow) : Bool :=
  row.named delivery.request.organizationId delivery.request.id && row.status == .sending &&
    row.dispatch.lockedBy == some delivery.workerId

def SendRow.marked (outcome : Except SendError String) (now : Time) (row : SendRow) : SendRow :=
  match outcome with
  | .ok messageId =>
    { row with
      status := .sent
      dispatch := { row.dispatch with
        waMessageId := some messageId, lockedAt := none, lockedBy := none, errorClass := none }
      updatedAt := now }
  | .error err =>
    { row with
      status := .failed
      dispatch := { row.dispatch with
        errorClass := some (classifySendFailure err), lockedAt := none, lockedBy := none }
      updatedAt := now }

/-! ### The steps of one delivery -/

def outbound (messages : List MessageRow) (readable : Bool) (request : SendRow) : Except SendError OutboundSend := do
  let quote ← quoteTarget messages request readable
  buildOutboundSend request.groupJid request.chatKind request.text quote

/-- The bridge may still apply the text. -/
def Call.appliable : Call → Bool
  | .notMade => false
  | .pending _ | .abandoned => true
  | .ended ending => ending.mayHaveApplied

inductive Action where
  | prepare (readable bridged : Bool)
  | apply
  | answer (ending : CallEnd)
  | cancel
  | stop
  deriving DecidableEq, Repr

/-- `prepare` is the worker's from its claim to the open call; `apply` and `answer` are the bridge's. -/
def Delivery.act (messages : List MessageRow) (action : Action) (delivery : Delivery) : Option Delivery :=
  match action, delivery.stage, delivery.call with
  | .prepare readable bridged, .working, .notMade =>
    match outbound messages readable delivery.request with
    | .error err => some { delivery with stage := .marking (.error err) }
    | .ok send =>
      if bridged then some { delivery with call := .pending send }
      else some { delivery with stage := .marking (.error .noBridge) }
  | .apply, _, call => if delivery.applied || !call.appliable then none else some { delivery with applied := true }
  | .answer ending, .working, .pending _ =>
    if delivery.applied && !ending.mayHaveApplied || delivery.live && ending == .cancelled then none
    else some { delivery with call := .ended ending, stage := .marking (sendText ending) }
  | .cancel, _, _ => some { delivery with live := false }
  | .stop, .working, call =>
    some { delivery with stage := .lost, call := match call with | .pending _ => .abandoned | other => other }
  | .stop, .marking _, _ => some { delivery with stage := .lost }
  | _, _, _ => none

/-! ### The system -/

inductive Event where
  | create (objectId : Nat) (id : String) (input : CreateSendInput) (now : Time)
  | reply (objectId : Nat) (id : String) (target : ReplyTarget) (draft : ReplyDraft) (now : Time)
  | save (doc : MessageDoc)
  | readApproval (organizationId id : String)
  | approve (organizationId id : String) (initialApproval : Bool) (scheduledFor : Option Time) (actorIP : String)
      (now : Time)
  | transition (organizationId id : String) (action : SendAction) (actorIP : String) (actor : Actor) (now : Time)
  | claim (workerId orgID : String) (maxAttempts : Nat) (now : Time) (id : String)
  | delivery (index : Nat) (action : Action)
  | mark (index : Nat) (now : Time)

def unusedId (db : SendDb) (objectId : Nat) (id : String) : Bool :=
  db.requests.all fun row => row.objectId != objectId && row.id != id

/-- The claim and the answer the dispatcher gets from it. -/
def claim (s : State) (workerId orgID : String) (maxAttempts : Nat) (now : Time) (id : String) : State :=
  let filter (row : SendRow) : Bool := row.named orgID id && oldestDue orgID maxAttempts now s.db.requests row
  match s.db.requests.find? filter with
  | none => s
  | some row =>
    { s with
      db := { s.db with requests := updateOne filter (SendRow.claimed workerId now) s.db.requests }
      deliveries := s.deliveries ++ [⟨row.claimed workerId now, workerId, .notMade, .working, true, false⟩] }

/-- The write that ends a delivery; under a done context the driver refuses it. -/
def mark (s : State) (index : Nat) (delivery : Delivery) (outcome : Except SendError String) (now : Time) : State :=
  if delivery.live then
    { s with
      db := { s.db with requests := updateOne (SendRow.heldFor delivery) (SendRow.marked outcome now) s.db.requests }
      deliveries := s.deliveries.set index { delivery with stage := .recorded outcome } }
  else { s with deliveries := s.deliveries.set index { delivery with stage := .lost } }

def step (s : State) : Event → State
  | .create objectId id input now =>
    if unusedId s.db objectId id then { s with db := createSend s.db objectId id input now } else s
  | .reply objectId id target draft now =>
    if unusedId s.db objectId id then
      match insertReplySend s.db objectId id target draft now with
      | none => s
      | some db => { s with db }
    else s
  | .save doc => { s with messages := saveOne s.messages doc }
  | .readApproval organizationId id =>
    match approvalOf (getSend s.db organizationId id) with
    | .error _ => s
    | .ok initialApproval => { s with approvals := (organizationId, id, initialApproval) :: s.approvals }
  | .approve organizationId id initialApproval scheduledFor actorIP now =>
    if (organizationId, id, initialApproval) ∈ s.approvals then
      { s with db := approveSend s.db organizationId id initialApproval scheduledFor actorIP now }
    else s
  | .transition organizationId id action actorIP actor now =>
    { s with db := (transitionSend s.db organizationId id action actorIP actor now).1 }
  | .claim workerId orgID maxAttempts now id => claim s workerId orgID maxAttempts now id
  | .delivery index action =>
    match s.deliveries[index]?.bind (Delivery.act s.messages action) with
    | none => s
    | some delivery => { s with deliveries := s.deliveries.set index delivery }
  | .mark index now =>
    match s.deliveries[index]? with
    | none => s
    | some delivery =>
      match delivery.stage with
      | .marking outcome => mark s index delivery outcome now
      | _ => s

/-- The deliveries of a request that reached WhatsApp. -/
def applications (s : State) (organizationId id : String) : List Delivery :=
  s.deliveries.filter fun delivery => delivery.request.named organizationId id && delivery.applied

end GroupButler.Sends
