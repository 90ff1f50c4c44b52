import GroupButler.Foundation.Json
import GroupButler.Sends.Model

/-!
# Staged actions

The `pendingActions` rows and the transactions that write them: `stageAction`, `decideAction`, and the
executor's `claim` and `settle`. Each of the last three finds one row by a filter on its state, and
audits it in the same commit.
-/

namespace GroupButler.Actions
open Foundation Store Sends

inductive PendingActionState where
  | pending | approved | rejected | executed | failed
  deriving DecidableEq, Repr

def PendingActionState.terminal : PendingActionState → Bool
  | .rejected | .executed | .failed => true
  | _ => false

/-- `ExecuteFailure`, and a worker's failure. -/
structure Failure where
  status : Nat
  code : String
  message : String
  deriving DecidableEq, Repr

inductive MemberStatus where
  | ok | failed | unreported
  deriving DecidableEq, Repr

structure MemberResult where
  jid : String
  status : MemberStatus
  errorCode : Option Int
  deriving DecidableEq, Repr

structure WorkerGroupActionResult where
  ok : Bool
  pictureId : Option String
  revokeMessageId : Option String
  results : Option (List MemberResult)
  failed : Option (List String)
  deriving DecidableEq, Repr

abbrev WorkerResult := Except Failure WorkerGroupActionResult

/-- The `result` document, one shape for each writer. -/
inductive ActionResult where
  /-- `RUNNING` -/
  | running
  /-- `{code, message}` -/
  | refusal (failure : Failure)
  | answer (data : WorkerGroupActionResult)
  /-- `{...data, code, message}` -/
  | refusedAnswer (data : WorkerGroupActionResult) (failure : Failure)
  | queued (sendId : String) (status : SendStatus) (scheduledFor : Time)
  | withdrawn (sendId : String) (status : SendStatus) (text : String)
  deriving DecidableEq, Repr

/-- What `result.ok` reads. -/
def ActionResult.ok : ActionResult → Option Bool
  | .answer data | .refusedAnswer data _ => some data.ok
  | _ => none

/-- What `result.code` reads. -/
def ActionResult.code : ActionResult → Option String
  | .refusal failure | .refusedAnswer _ failure => some failure.code
  | _ => none

structure ActionRow where
  id : String
  organizationId : String
  instanceId : String
  groupJid : String
  action : String
  params : Json
  summary : String
  state : PendingActionState
  shortId : String
  requestedBy : String
  requestedAt : Time
  decidedBy : Option String
  decidedAt : Option Time
  result : Option ActionResult
  updatedAt : Time
  deriving Repr

def ActionRow.name (row : ActionRow) : String × String := (row.organizationId, row.id)

structure ActionDb where
  actions : List ActionRow
  auditLog : List AuditEntry

/-- One transaction: `findOneAndUpdate`, and an audit row when it found a document. -/
def transact (db : ActionDb) (filter : ActionRow → Bool) (change : ActionRow → ActionRow)
    (entry : ActionRow → AuditEntry) : Option (ActionDb × ActionRow) :=
  (db.actions.find? filter).map fun row =>
    (⟨updateOne filter change db.actions, db.auditLog ++ [entry (change row)]⟩, change row)

theorem transact_cases {db next : ActionDb} {filter : ActionRow → Bool} {change : ActionRow → ActionRow}
    {entry : ActionRow → AuditEntry} {after : ActionRow} (h : transact db filter change entry = some (next, after)) :
    ∃ row, db.actions.find? filter = some row ∧ after = change row ∧
      next = ⟨updateOne filter change db.actions, db.auditLog ++ [entry (change row)]⟩ := by
  obtain ⟨row, found, same⟩ := Option.map_eq_some_iff.mp h
  obtain ⟨rfl, rfl⟩ := Prod.mk.inj same
  exact ⟨row, found, rfl, rfl⟩

theorem transact_keeps {db next : ActionDb} {filter : ActionRow → Bool} {change : ActionRow → ActionRow}
    {entry : ActionRow → AuditEntry} {after row : ActionRow} (h : transact db filter change entry = some (next, after))
    (member : row ∈ db.actions) (unmatched : filter row = false) : row ∈ next.actions := by
  obtain ⟨_, _, _, rfl⟩ := transact_cases h
  rcases mem_updateOne_of_mem member with kept | ⟨matched, _⟩
  · exact kept
  · rw [unmatched] at matched
    cases matched

def actionAudit (row : ActionRow) (actor : Actor) (action : AuditAction) (details : AuditMeta) (ip : String) :
    AuditEntry where
  organizationId := row.organizationId
  actor
  action
  target := ⟨.action, row.id⟩
  details
  ip

/-! ### Staging -/

structure StageActionInput where
  organizationId : String
  instanceId : String
  groupJid : String
  action : String
  params : Json
  summary : String
  requestedBy : String
  ip : String

def stagedRow (input : StageActionInput) (id shortId : String) (now : Time) : ActionRow where
  id
  organizationId := input.organizationId
  instanceId := input.instanceId
  groupJid := input.groupJid
  action := input.action
  params := input.params
  summary := input.summary
  state := .pending
  shortId
  requestedBy := input.requestedBy
  requestedAt := now
  decidedBy := none
  decidedAt := none
  result := none
  updatedAt := now

/-- One draw of `stageAction`: a short id that is taken aborts the transaction. -/
def stageAction (db : ActionDb) (input : StageActionInput) (id shortId : String) (now : Time) : ActionDb :=
  if db.actions.any fun row => row.organizationId == input.organizationId && row.shortId == shortId then db
  else
    let row := stagedRow input id shortId now
    { actions := db.actions ++ [row]
      auditLog := db.auditLog ++ [actionAudit row .worker .actionStaged
        (.staged shortId input.action input.instanceId input.groupJid input.requestedBy) input.ip] }

/-! ### Deciding -/

inductive PendingActionDecision where
  | approve | reject
  deriving DecidableEq, Repr

inductive PendingActionRef where
  | id (id : String)
  | shortId (shortId : String)

def normalizeShortId (value : String) : String := String.ofList ((value.toList.filter Char.isAlphanum).map Char.toUpper)

def refFilter (ref : PendingActionRef) (row : ActionRow) : Bool :=
  match ref with
  | .id id => row.id == id
  | .shortId shortId => row.shortId == normalizeShortId shortId

structure DecideActionInput where
  ref : PendingActionRef
  organizationId : String
  decision : PendingActionDecision
  decidedBy : String
  ip : String

def PendingActionDecision.state : PendingActionDecision → PendingActionState
  | .approve => .approved
  | .reject => .rejected

def PendingActionDecision.audit : PendingActionDecision → AuditAction
  | .approve => .actionApproved
  | .reject => .actionRejected

def ActionRow.decide (input : DecideActionInput) (now : Time) (row : ActionRow) : ActionRow :=
  { row with
    state := input.decision.state
    decidedBy := some input.decidedBy
    decidedAt := some now
    updatedAt := now }

def undecided (input : DecideActionInput) (row : ActionRow) : Bool :=
  row.organizationId == input.organizationId && row.state == .pending && refFilter input.ref row

def decideAction (db : ActionDb) (input : DecideActionInput) (now : Time) : Option (ActionDb × ActionRow) :=
  transact db (undecided input) (ActionRow.decide input now) fun decided =>
    actionAudit decided (if input.decidedBy = "owner" then .owner else .assistant) input.decision.audit
      (.decided decided.shortId decided.action decided.instanceId decided.groupJid (some input.decidedBy)) input.ip

/-! ### Claiming and settling -/

def ActionRow.approvedAs (action row : ActionRow) : Bool :=
  row.organizationId == action.organizationId && row.id == action.id && row.state == .approved

def ActionRow.start (now : Time) (row : ActionRow) : ActionRow :=
  { row with result := some .running, updatedAt := now }

def attemptAudit (action : ActionRow) (ip : String) : AuditEntry :=
  actionAudit action .owner .actionExecutionAttempted
    (.decided action.shortId action.action action.instanceId action.groupJid action.decidedBy) ip

def claim (db : ActionDb) (action : ActionRow) (ip : String) (now : Time) : Option (ActionDb × ActionRow) :=
  transact db (fun row => action.approvedAs row && row.result == none) (ActionRow.start now) fun _ =>
    attemptAudit action ip

structure Settlement where
  result : ActionResult
  failure : Option Failure
  deriving DecidableEq, Repr

def Settlement.state (settlement : Settlement) : PendingActionState :=
  if settlement.failure.isNone then .executed else .failed

def Settlement.audit (settlement : Settlement) : AuditAction :=
  if settlement.failure.isNone then .actionExecuted else .actionExecutionFailed

def ActionRow.finish (settlement : Settlement) (now : Time) (row : ActionRow) : ActionRow :=
  { row with state := settlement.state, result := some settlement.result, updatedAt := now }

def outcomeAudit (action : ActionRow) (settlement : Settlement) (ip : String) : AuditEntry :=
  actionAudit action .owner settlement.audit
    (.settled action.shortId action.action action.instanceId action.groupJid (settlement.failure.map Failure.code)) ip

/-- Only the marker's `status` reads `running`: the other results carry none, or a send's. -/
def settle (db : ActionDb) (action : ActionRow) (settlement : Settlement) (ip : String) (now : Time) :
    Option (ActionDb × ActionRow) :=
  transact db (fun row => action.approvedAs row && row.result == some .running) (ActionRow.finish settlement now)
    fun _ => outcomeAudit action settlement ip

end GroupButler.Actions
