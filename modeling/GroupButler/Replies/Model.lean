import GroupButler.Foundation.Text
import GroupButler.Sends.Model

/-!
# Agent reply runs

The `agentReplyRuns` rows, one for each message a reply was asked for, and the conditional updates
that claim, renew, fail and complete one. A lease names its holder by the token of one claim.
-/

namespace GroupButler.Replies
open Foundation Store Sends

def agentReplyLeaseMs : Int := 120000

def agentReplyMaxAttempts : Nat := 5

/-- The unique index of `agentReplyRuns`. -/
structure AgentReplyScope where
  organizationId : String
  instanceId : String
  groupJid : String
  waMessageId : String
  deriving DecidableEq, Repr

def agentReplyIdempotencyKey (scope : AgentReplyScope) : String :=
  ":".intercalate (["owner-mention", scope.instanceId, scope.groupJid, scope.waMessageId].map encodeURIComponent)

inductive RunState where
  | processing | complete | failed | dead
  deriving DecidableEq, Repr

structure Lease where
  token : Nat
  expiresAt : Time
  deriving DecidableEq, Repr

structure RunFailure where
  code : String
  at_ : Time
  deriving DecidableEq, Repr

structure AgentReplyRun where
  /-- `_id` -/
  objectId : Nat
  scope : AgentReplyScope
  state : RunState
  lease : Option Lease
  attempts : Nat
  nextAttemptAt : Option Time
  /-- The `_id` of a `sendRequests` row. -/
  sendRequestId : Option Nat
  memoryBatchIds : List Nat
  memoryFactIds : List Nat
  failure : Option RunFailure
  createdAt : Time
  completedAt : Option Time
  updatedAt : Time
  deriving DecidableEq, Repr

def RunState.terminal : RunState → Bool
  | .complete | .dead => true
  | _ => false

/-! ### Claiming -/

def newLease (token : Nat) (now : Time) : Lease := ⟨token, now + agentReplyLeaseMs⟩

/-- `$setOnInsert` -/
def claimedRun (objectId : Nat) (scope : AgentReplyScope) (token : Nat) (now : Time) : AgentReplyRun where
  objectId
  scope
  state := .processing
  lease := some (newLease token now)
  attempts := 1
  nextAttemptAt := none
  sendRequestId := none
  memoryBatchIds := []
  memoryFactIds := []
  failure := none
  createdAt := now
  completedAt := none
  updatedAt := now

/-- No lease, or one that has expired. -/
def AgentReplyRun.expired (now : Time) (run : AgentReplyRun) : Bool :=
  run.state == .processing &&
    match run.lease with
    | none => true
    | some lease => decide (lease.expiresAt ≤ now)

/-- Failed, and its backoff has elapsed. -/
def AgentReplyRun.due (now : Time) (run : AgentReplyRun) : Bool :=
  run.state == .failed &&
    match run.nextAttemptAt with
    | none => false
    | some next => decide (next ≤ now)

def AgentReplyRun.spent (run : AgentReplyRun) : Bool := decide (agentReplyMaxAttempts ≤ run.attempts)

def AgentReplyRun.reclaim (token : Nat) (now : Time) (run : AgentReplyRun) : AgentReplyRun :=
  { run with
    state := .processing
    lease := some (newLease token now)
    failure := none
    attempts := run.attempts + 1
    updatedAt := now }

def AgentReplyRun.close (code : String) (now : Time) (run : AgentReplyRun) : AgentReplyRun :=
  { run with
    state := .dead
    lease := none
    nextAttemptAt := none
    failure := some ⟨code, now⟩
    updatedAt := now }

/-! ### Under the lease -/

/-- The filter of every write made under a lease: processing, with this token, not expired at `now`. -/
def AgentReplyRun.leasedTo (objectId token : Nat) (now : Time) (run : AgentReplyRun) : Bool :=
  run.objectId == objectId && run.state == .processing &&
    match run.lease with
    | none => false
    | some lease => lease.token == token && decide (now < lease.expiresAt)

def AgentReplyRun.renew (now : Time) (run : AgentReplyRun) : AgentReplyRun :=
  { run with
    lease := run.lease.map fun lease => { lease with expiresAt := now + agentReplyLeaseMs }
    updatedAt := now }

structure ReplyFailure where
  code : String
  terminal : Bool
  deriving DecidableEq, Repr

/-- `fraction` is the first 16 bits of the digest of the run id and the attempt. -/
def agentReplyRetryDelayMs (attempts fraction : Nat) : Int :=
  let base := min (300000 * 2 ^ (attempts - 1)) 21600000
  ((2 * base * (8 * 65535 + 4 * min fraction 65535) + 10 * 65535) / (2 * (10 * 65535)) : Nat)

def AgentReplyRun.fail (read : AgentReplyRun) (failure : ReplyFailure) (fraction : Nat) (now : Time)
    (run : AgentReplyRun) : AgentReplyRun :=
  let dead := failure.terminal || read.spent
  { run with
    state := if dead then .dead else .failed
    failure := some ⟨failure.code, now⟩
    lease := none
    nextAttemptAt := if dead then none else some (now + agentReplyRetryDelayMs read.attempts fraction)
    updatedAt := now }

def AgentReplyRun.complete (sendRequestId : Nat) (draft : ReplyDraft) (now : Time) (run : AgentReplyRun) : AgentReplyRun :=
  { run with
    state := .complete
    sendRequestId := some sendRequestId
    memoryBatchIds := draft.memoryBatchIds
    memoryFactIds := draft.memoryFactIds
    completedAt := some now
    updatedAt := now
    lease := none
    nextAttemptAt := none }

def replyTarget (scope : AgentReplyScope) (chatKind : String) : ReplyTarget where
  organizationId := scope.organizationId
  instanceId := scope.instanceId
  groupJid := scope.groupJid
  chatKind
  idempotencyKey := agentReplyIdempotencyKey scope
  replyToMessageId := scope.waMessageId

structure ReplyDb where
  runs : List AgentReplyRun
  sends : SendDb

/-- One transaction: the guarded completion first, and nothing at all unless it matched and the send
was inserted. -/
def createSendUnderRunLease (db : ReplyDb) (runId token : Nat) (scope : AgentReplyScope) (chatKind : String)
    (draft : ReplyDraft) (objectId : Nat) (id : String) (now : Time) : Option ReplyDb :=
  let guard (run : AgentReplyRun) : Bool := run.leasedTo runId token now && run.scope == scope
  if db.runs.any guard then
    (insertReplySend db.sends objectId id (replyTarget scope chatKind) draft now).map fun sends =>
      { runs := updateOne guard (AgentReplyRun.complete objectId draft now) db.runs, sends }
  else none

def createAutomaticSendUnderRunLease (db : ReplyDb) (runId token : Nat) (scope : AgentReplyScope) (chatKind text : String)
    (memoryBatchIds memoryFactIds : List Nat) (objectId : Nat) (id : String) (now : Time) : Option ReplyDb :=
  createSendUnderRunLease db runId token scope chatKind (.automatic text memoryBatchIds memoryFactIds) objectId id now

def createHumanReviewSendUnderRunLease (db : ReplyDb) (runId token : Nat) (scope : AgentReplyScope)
    (chatKind reason : String) (objectId : Nat) (id : String) (now : Time) : Option ReplyDb :=
  createSendUnderRunLease db runId token scope chatKind (.humanReview reason) objectId id now

/-! ### Reconciling -/

/-- The send of exactly this source. -/
def answers (scope : AgentReplyScope) (send : SendRow) : Bool :=
  send.organizationId == scope.organizationId && send.instanceId == scope.instanceId &&
    send.groupJid == scope.groupJid && send.idempotencyKey == agentReplyIdempotencyKey scope &&
    send.provenance.map Provenance.replyToMessageId == some scope.waMessageId

def unfinished (scope : AgentReplyScope) (run : AgentReplyRun) : Bool := run.scope == scope && run.state != .complete

def AgentReplyRun.reconcile (sendRequestId : Nat) (now : Time) (run : AgentReplyRun) : AgentReplyRun :=
  { run with
    state := .complete
    sendRequestId := some sendRequestId
    completedAt := some now
    updatedAt := now
    lease := none
    nextAttemptAt := none }

end GroupButler.Replies
