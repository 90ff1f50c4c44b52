import GroupButler.Foundation.Collection
import GroupButler.Store.Audit

/-!
# Send requests

The `sendRequests` rows and what the BFF does to them: create, approve or retry, reject or cancel.
Ids are random; a request that would reuse one is not modelled.
-/

namespace GroupButler.Sends
open Foundation Store

inductive SendStatus where
  | pendingApproval | approved | scheduled | rejected | cancelled | sending | sent | failed
  deriving DecidableEq, Repr

inductive ApprovalState where
  | pending | approved | rejected
  deriving DecidableEq, Repr

structure Approval where
  state : ApprovalState
  approvedBy : Option Actor
  approvedAt : Option Time
  deriving DecidableEq, Repr

/-- `source` is always `owner_mention`. -/
structure Provenance where
  replyToMessageId : String
  memoryBatchIds : List Nat
  memoryFactIds : List Nat
  deriving DecidableEq, Repr

inductive ErrorClass where
  | rejected | ambiguous
  deriving DecidableEq, Repr

structure Dispatch where
  attempts : Nat
  lockedAt : Option Time
  lockedBy : Option String
  waMessageId : Option String
  errorClass : Option ErrorClass
  deriving DecidableEq, Repr

structure SendRow where
  /-- `_id` -/
  objectId : Nat
  id : String
  organizationId : String
  instanceId : String
  groupJid : String
  chatKind : Option String
  text : String
  idempotencyKey : String
  status : SendStatus
  scheduledFor : Time
  approval : Approval
  provenance : Option Provenance
  dispatch : Dispatch
  createdAt : Time
  updatedAt : Time
  deriving DecidableEq, Repr

structure SendDb where
  requests : List SendRow
  auditLog : List AuditEntry

def SendRow.named (organizationId id : String) (row : SendRow) : Bool :=
  row.organizationId == organizationId && row.id == id

def SendRow.keyed (organizationId idempotencyKey : String) (row : SendRow) : Bool :=
  row.organizationId == organizationId && row.idempotencyKey == idempotencyKey

def SendRow.name (row : SendRow) : String × String := (row.organizationId, row.id)

theorem named_iff {row : SendRow} {organizationId id : String} :
    row.named organizationId id = true ↔ row.name = (organizationId, id) := by
  simp [SendRow.named, SendRow.name]

def getSend (db : SendDb) (organizationId id : String) : Option SendRow :=
  db.requests.find? (SendRow.named organizationId id)

def sendAudit (organizationId : String) (actor : Actor) (action : AuditAction) (id : String) (details : AuditMeta)
    (ip : String) : AuditEntry where
  organizationId
  actor
  action
  target := ⟨.send, id⟩
  details
  ip

def undispatched : Dispatch := ⟨0, none, none, none, none⟩

/-! ### Creating -/

structure SendDecision where
  decidedBy : Actor
  scheduledFor : Option Time

structure CreateSendInput where
  organizationId : String
  instanceId : String
  groupJid : String
  text : String
  idempotencyKey : String
  actorIP : String
  decision : Option SendDecision

def candidateSend (objectId : Nat) (id : String) (input : CreateSendInput) (now : Time) : SendRow :=
  let scheduledFor := (input.decision.bind SendDecision.scheduledFor).getD now
  { objectId, id
    organizationId := input.organizationId
    instanceId := input.instanceId
    groupJid := input.groupJid
    chatKind := none
    text := input.text
    idempotencyKey := input.idempotencyKey
    status := if input.decision.isNone then .pendingApproval else if now < scheduledFor then .scheduled else .approved
    scheduledFor
    approval :=
      match input.decision with
      | none => ⟨.pending, none, none⟩
      | some decision => ⟨.approved, some decision.decidedBy, some now⟩
    provenance := none
    dispatch := undispatched
    createdAt := now
    updatedAt := now }

/-- The transaction of `createSend`: nothing happens when the key is taken. -/
def createSend (db : SendDb) (objectId : Nat) (id : String) (input : CreateSendInput) (now : Time) : SendDb :=
  if db.requests.any (SendRow.keyed input.organizationId input.idempotencyKey) then db
  else
    let candidate := candidateSend objectId id input now
    { requests := db.requests ++ [candidate]
      auditLog := db.auditLog ++ [sendAudit input.organizationId ((input.decision.map SendDecision.decidedBy).getD .owner)
        .sendCreated id
        (.sendCreated input.instanceId input.groupJid
          (input.decision.map fun decision => (candidate.scheduledFor, decision.decidedBy))) input.actorIP] }

/-! ### Queueing a reply -/

/-- What a reply's two writers have in common. -/
structure ReplyTarget where
  organizationId : String
  instanceId : String
  groupJid : String
  chatKind : String
  idempotencyKey : String
  replyToMessageId : String
  deriving DecidableEq, Repr

inductive ReplyDraft where
  | automatic (text : String) (memoryBatchIds memoryFactIds : List Nat)
  /-- The sanitizer refused the model's text. -/
  | humanReview (reason : String)
  deriving DecidableEq, Repr

def humanReviewApology : String :=
  "I could not safely draft a reply to that message, so it is waiting for a human to review before anything is sent."

def ReplyDraft.text : ReplyDraft → String
  | .automatic text _ _ => text
  | .humanReview _ => humanReviewApology

def ReplyDraft.memoryBatchIds : ReplyDraft → List Nat
  | .automatic _ batches _ => batches
  | .humanReview _ => []

def ReplyDraft.memoryFactIds : ReplyDraft → List Nat
  | .automatic _ _ facts => facts
  | .humanReview _ => []

def replySend (objectId : Nat) (id : String) (target : ReplyTarget) (draft : ReplyDraft) (now : Time) : SendRow where
  objectId
  id
  organizationId := target.organizationId
  instanceId := target.instanceId
  groupJid := target.groupJid
  chatKind := some target.chatKind
  text := draft.text
  idempotencyKey := target.idempotencyKey
  status := match draft with | .automatic _ _ _ => .approved | .humanReview _ => .pendingApproval
  scheduledFor := now
  approval :=
    match draft with
    | .automatic _ _ _ => ⟨.approved, some .owner, some now⟩
    | .humanReview _ => ⟨.pending, none, none⟩
  provenance := some ⟨target.replyToMessageId, draft.memoryBatchIds, draft.memoryFactIds⟩
  dispatch := undispatched
  createdAt := now
  updatedAt := now

def replyAudit (id : String) (target : ReplyTarget) (draft : ReplyDraft) : AuditEntry :=
  sendAudit target.organizationId .worker
    (match draft with | .automatic _ _ _ => .sendCreated | .humanReview _ => .replyOutputRejected) id
    (.replySend target.instanceId target.groupJid target.replyToMessageId
      (match draft with | .automatic _ _ _ => none | .humanReview reason => some reason)) "worker"

/-- The upsert and its audit row, inside the reply run's transaction. A send of the job's own chat is
matched, one of another chat breaks the unique index, and either aborts the transaction. -/
def insertReplySend (db : SendDb) (objectId : Nat) (id : String) (target : ReplyTarget) (draft : ReplyDraft)
    (now : Time) : Option SendDb :=
  if db.requests.any (SendRow.keyed target.organizationId target.idempotencyKey) then none
  else some
    { requests := db.requests ++ [replySend objectId id target draft now]
      auditLog := db.auditLog ++ [replyAudit id target draft] }

/-! ### Deciding -/

inductive SendTransition where
  | row (send : SendRow)
  | notFound | invalidState | ambiguous

/-- What `approveSend` makes of the row it read: a first approval or a retry, or a refusal. -/
def approvalOf (existing : Option SendRow) : Except SendTransition Bool :=
  match existing with
  | none => .error .notFound
  | some row =>
    if row.status = .failed ∧ row.dispatch.errorClass = some .ambiguous then .error .ambiguous
    else if row.status = .pendingApproval ∧ row.approval.state = .pending then .ok true
    else if row.status = .failed then .ok false
    else .error .invalidState

def approvable (initialApproval : Bool) (row : SendRow) : Bool :=
  if initialApproval then row.status == .pendingApproval && row.approval.state == .pending
  else row.status == .failed && row.dispatch.errorClass != some .ambiguous

def SendRow.approve (initialApproval : Bool) (scheduledFor now : Time) (row : SendRow) : SendRow :=
  { row with
    status := if now < scheduledFor then .scheduled else .approved
    scheduledFor
    approval := if initialApproval then ⟨.approved, some .owner, some now⟩ else row.approval
    dispatch := { row.dispatch with errorClass := none, lockedAt := none, lockedBy := none }
    updatedAt := now }

/-- The transaction of `approveSend`. -/
def approveSend (db : SendDb) (organizationId id : String) (initialApproval : Bool) (scheduledFor : Option Time)
    (actorIP : String) (now : Time) : SendDb :=
  let due := scheduledFor.getD now
  let filter (row : SendRow) : Bool := row.named organizationId id && approvable initialApproval row
  if db.requests.any filter then
    { requests := updateOne filter (SendRow.approve initialApproval due now) db.requests
      auditLog := db.auditLog ++ [sendAudit organizationId .owner .sendApproved id (.sendApproved due) actorIP] }
  else db

inductive SendAction where
  | reject | cancel
  deriving DecidableEq, Repr

def SendAction.allowed (action : SendAction) (row : SendRow) : Bool :=
  match action with
  | .reject => row.status == .pendingApproval
  | .cancel => row.status == .approved || row.status == .scheduled

def SendRow.transition (action : SendAction) (now : Time) (row : SendRow) : SendRow :=
  match action with
  | .reject => { row with status := .rejected, approval := { row.approval with state := .rejected }, updatedAt := now }
  | .cancel => { row with status := .cancelled, approval := { row.approval with state := .approved }, updatedAt := now }

/-- The transaction of `transitionSend`, and whether it changed a row. -/
def transitionSend (db : SendDb) (organizationId id : String) (action : SendAction) (actorIP : String) (actor : Actor)
    (now : Time) : SendDb × Bool :=
  let filter (row : SendRow) : Bool := row.named organizationId id && action.allowed row
  if db.requests.any filter then
    ({ requests := updateOne filter (SendRow.transition action now) db.requests
       auditLog := db.auditLog ++ [sendAudit organizationId actor
        (match action with | .reject => .sendRejected | .cancel => .sendCancelled) id .empty actorIP] }, true)
  else (db, false)

end GroupButler.Sends
