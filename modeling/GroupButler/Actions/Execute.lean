import GroupButler.Actions.Model
import GroupButler.Foundation.Run
import GroupButler.Sends.Growth

/-!
# The executor

Any number of `executeAction` calls, each at its own point of the body, over the staged rows and the
whole send system. A call may stop at any point. The ledger keeps what was done for a row: worker
calls and their answers, send creations, cancellations.
-/

namespace GroupButler.Actions
open Foundation Store Sends

/-! ### Refusals -/

def unknownAction : Failure := ⟨422, "unknown_action", "this action is not one the dashboard knows how to perform"⟩

def nothingQueued : Failure :=
  ⟨409, "nothing_queued", "that message is not waiting to be sent, so there is nothing to cancel"⟩

def invalidParams : Failure :=
  ⟨422, "invalid_params", "the staged parameters are not the ones this action carries"⟩

def groupAdminFailed : Failure := ⟨502, "group_admin_failed", "the WhatsApp service refused this group change"⟩

def revokeFailed : Failure := ⟨502, "revoke_failed", "the message could not be revoked"⟩

def notApproved : Failure := ⟨409, "invalid_state", "the action is not approved, so it was not performed"⟩

def unrecorded : Failure := ⟨502, "internal", "the outcome of the action could not be recorded"⟩

/-! ### Parameters -/

/-- `z.string().datetime()`, and the instant `new Date` makes of what it accepts. -/
class Datetimes where
  parse : String → Option Time

/-- `z.string().trim().min(1)` -/
def trimmed : Json → Option String
  | .str s => if jsTrim s = "" then none else some (jsTrim s)
  | _ => none

def flag : Json → Option Bool
  | .bool b => some b
  | _ => none

inductive Membership where
  | add | remove | promote | demote
  deriving DecidableEq, Repr

def membership : Json → Option Membership
  | .str "add" => some .add
  | .str "remove" => some .remove
  | .str "promote" => some .promote
  | .str "demote" => some .demote
  | _ => none

def memberJids : Json → Option (List String)
  | .arr (item :: items) => (item :: items).mapM trimmed
  | _ => none

/-- `scheduledFor` may be absent, but not malformed. -/
def sendRequestFor [Datetimes] (params : Json) : Except Failure (String × Option Time) :=
  match (params.field "text").bind trimmed, params.field "scheduledFor" with
  | some text, none => .ok (text, none)
  | some text, some (.str scheduledFor) =>
    match Datetimes.parse scheduledFor with
    | some due => .ok (text, some due)
    | none => .error invalidParams
  | _, _ => .error invalidParams

inductive GroupAdminRequest where
  | rename (name : String)
  | announce (announce : Bool)
  | locked (locked : Bool)
  | photo (dataUrl : String)
  | members (membership : Membership) (jids : List String)
  | leave
  | revoke (waMessageId : String)
  deriving DecidableEq, Repr

def orInvalid {α : Type} (parsed : Option α) : Except Failure α :=
  match parsed with
  | some value => .ok value
  | none => .error invalidParams

def workerRequestFor (action : String) (params : Json) : Except Failure GroupAdminRequest :=
  match action with
  | "group_rename" => orInvalid (((params.field "name").bind trimmed).map .rename)
  | "group_set_announce" => orInvalid (((params.field "announce").bind flag).map .announce)
  | "group_set_locked" => orInvalid (((params.field "locked").bind flag).map .locked)
  | "group_set_photo" => orInvalid (((params.field "dataUrl").bind trimmed).map .photo)
  | "group_members" =>
    orInvalid (((params.field "membership").bind membership).bind fun membership =>
      ((params.field "jids").bind memberJids).map (.members membership))
  | "group_leave" => .ok .leave
  | "message_revoke" => orInvalid (((params.field "waMessageId").bind trimmed).map .revoke)
  | _ => .error unknownAction

/-! ### What an attempt records -/

def refuse (failure : Failure) : Settlement := ⟨.refusal failure, some failure⟩

def answerFailure : GroupAdminRequest → Failure
  | .revoke _ => revokeFailed
  | _ => groupAdminFailed

def answerSettlement (request : GroupAdminRequest) : WorkerResult → Settlement
  | .error failure => refuse failure
  | .ok data =>
    if data.ok then ⟨.answer data, none⟩
    else ⟨.refusedAnswer data (answerFailure request), some (answerFailure request)⟩

theorem answerSettlement_done {request : GroupAdminRequest} {data : WorkerGroupActionResult} (ok : data.ok = true) :
    answerSettlement request (.ok data) = ⟨.answer data, none⟩ := by
  simp [answerSettlement, ok]

theorem answerSettlement_refused {request : GroupAdminRequest} {data : WorkerGroupActionResult} (refused : data.ok = false) :
    answerSettlement request (.ok data) =
      ⟨.refusedAnswer data (answerFailure request), some (answerFailure request)⟩ := by
  simp [answerSettlement, refused]

inductive ExecuteOutcome where
  | executed (action : ActionRow)
  | failed (action : ActionRow) (failure : Failure)
  | refused (failure : Failure)

def outcome (action : ActionRow) (settlement : Settlement) : Option ActionRow → ExecuteOutcome
  | none => .failed action unrecorded
  | some settled =>
    match settlement.failure with
    | none => .executed settled
    | some failure => .failed settled failure

/-! ### One call -/

inductive Stage where
  | called
  | claimed
  | cancelling (sendId : String)
  | cancelled (sendId : String)
  | sending (text : String) (scheduledFor : Option Time)
  | sent
  | calling (request : GroupAdminRequest)
  | awaiting (request : GroupAdminRequest)
  | settling (settlement : Settlement)
  | done (outcome : ExecuteOutcome)
  | stopped

structure Executor where
  /-- The row as the caller read it. -/
  action : ActionRow
  ip : String
  stage : Stage

/-- What follows the claim, up to the first write or call. -/
def begin [Datetimes] (requests : List SendRow) (action : ActionRow) : Stage :=
  if action.action = "cancel_scheduled" then
    match (action.params.field "sendId").bind trimmed with
    | none => .settling (refuse nothingQueued)
    | some sendId =>
      let waiting := requests.find? (SendRow.named action.organizationId sendId)
      if waiting.map SendRow.instanceId = some action.instanceId then .cancelling sendId
      else .settling (refuse nothingQueued)
  else if action.action = "group_send" then
    match sendRequestFor action.params with
    | .error failure => .settling (refuse failure)
    | .ok (text, scheduledFor) => .sending text scheduledFor
  else
    match workerRequestFor action.action action.params with
    | .error failure => .settling (refuse failure)
    | .ok request => .calling request

def sendKey (action : ActionRow) : String := "action:" ++ action.id

def sendInput (action : ActionRow) (ip text : String) (scheduledFor : Option Time) : CreateSendInput where
  organizationId := action.organizationId
  instanceId := action.instanceId
  groupJid := action.groupJid
  text
  idempotencyKey := sendKey action
  actorIP := ip
  decision := some ⟨.assistant, scheduledFor⟩

/-- `createSend` and `transitionSend` read their row back and throw without it. -/
def readBack (db : SendDb) (action : ActionRow) : Stage → Stage
  | .cancelled sendId =>
    match getSend db action.organizationId sendId with
    | some send => .settling ⟨.withdrawn send.id send.status send.text, none⟩
    | none => .stopped
  | .sent =>
    match db.requests.find? (SendRow.keyed action.organizationId (sendKey action)) with
    | some send => .settling ⟨.queued send.id send.status send.scheduledFor, none⟩
    | none => .stopped
  | stage => stage

/-! ### The system -/

inductive Deed where
  | called (request : GroupAdminRequest)
  | answered (answer : WorkerResult)
  | created
  | cancelled (sendId : String)

structure Effect where
  name : String × String
  deed : Deed

structure State where
  actions : List ActionRow
  sends : Sends.State
  executors : List Executor
  ledger : List Effect

def start (messages : List Ingest.MessageRow) : State := ⟨[], Sends.start messages, [], []⟩

def State.db (s : State) : ActionDb := ⟨s.actions, s.sends.db.auditLog⟩

def State.commit (s : State) (db : ActionDb) : State :=
  { s with actions := db.actions, sends := { s.sends with db := { s.sends.db with auditLog := db.auditLog } } }

def State.write (s : State) (db : SendDb) : State := { s with sends := { s.sends with db } }

def State.note (s : State) (action : ActionRow) (deed : Deed) : State :=
  { s with ledger := s.ledger ++ [⟨action.name, deed⟩] }

def State.advance (s : State) (index : Nat) (executor : Executor) (stage : Stage) : State :=
  { s with executors := s.executors.set index { executor with stage } }

inductive Action where
  | claim (now : Time)
  | begin
  | cancel (now : Time)
  | create (objectId : Nat) (sendId : String) (now : Time)
  | call
  | answer (answer : WorkerResult)
  | readBack
  | settle (now : Time)
  | stop

inductive Event where
  | sends (e : Sends.Event)
  | stage (input : StageActionInput) (id shortId : String) (now : Time)
  | decide (input : DecideActionInput) (now : Time)
  /-- A caller reads the row and calls `executeAction` with it. -/
  | execute (organizationId id ip : String)
  | executor (index : Nat) (action : Action)

def act [Datetimes] (s : State) (index : Nat) (executor : Executor) (action : Action) : State :=
  match action, executor.stage with
  | .claim now, .called =>
    if executor.action.state = .approved then
      match claim s.db executor.action executor.ip now with
      | none => s.advance index executor (.done (.refused notApproved))
      | some (db, _) => (s.commit db).advance index executor .claimed
    else s.advance index executor (.done (.refused notApproved))
  | .begin, .claimed => s.advance index executor (begin s.sends.db.requests executor.action)
  | .cancel now, .cancelling sendId =>
    let (db, changed) := transitionSend s.sends.db executor.action.organizationId sendId .cancel executor.ip .assistant now
    if changed then ((s.write db).note executor.action (.cancelled sendId)).advance index executor (.cancelled sendId)
    else s.advance index executor (.settling (refuse nothingQueued))
  | .create objectId sendId now, .sending text scheduledFor =>
    if unusedId s.sends.db objectId sendId then
      let db := createSend s.sends.db objectId sendId (sendInput executor.action executor.ip text scheduledFor) now
      ((s.write db).note executor.action .created).advance index executor .sent
    else s
  | .call, .calling request => (s.note executor.action (.called request)).advance index executor (.awaiting request)
  | .answer answer, .awaiting request =>
    (s.note executor.action (.answered answer)).advance index executor (.settling (answerSettlement request answer))
  | .readBack, .cancelled sendId =>
    s.advance index executor (readBack s.sends.db executor.action (.cancelled sendId))
  | .readBack, .sent => s.advance index executor (readBack s.sends.db executor.action .sent)
  | .settle now, .settling settlement =>
    match settle s.db executor.action settlement executor.ip now with
    | none => s.advance index executor (.done (outcome executor.action settlement none))
    | some (db, row) => (s.commit db).advance index executor (.done (outcome executor.action settlement (some row)))
  | .stop, .done _ => s
  | .stop, _ => s.advance index executor .stopped
  | _, _ => s

def step [Datetimes] (s : State) : Event → State
  | .sends e => { s with sends := Sends.step s.sends e }
  | .stage input id shortId now =>
    if s.actions.all fun row => row.id != id then s.commit (stageAction s.db input id shortId now) else s
  | .decide input now =>
    match decideAction s.db input now with
    | none => s
    | some (db, _) => s.commit db
  | .execute organizationId id ip =>
    match s.actions.find? fun row => row.name == (organizationId, id) with
    | none => s
    | some row => { s with executors := s.executors ++ [⟨row, ip, .called⟩] }
  | .executor index action =>
    match s.executors[index]? with
    | none => s
    | some executor => act s index executor action

/-! ### What no transaction on an action changes -/

section
universe u
variable {β : Type u} {key : ActionRow → β}

theorem transact_map {db next : ActionDb} {filter : ActionRow → Bool} {change : ActionRow → ActionRow}
    {entry : ActionRow → AuditEntry} {row : ActionRow} (done : transact db filter change entry = some (next, row))
    (kept : ∀ row, key (change row) = key row) : next.actions.map key = db.actions.map key := by
  obtain ⟨_, _, _, rfl⟩ := transact_cases done
  exact map_updateOne fun row _ _ => kept row

theorem act_map [Datetimes] (started : ∀ now row, key (ActionRow.start now row) = key row)
    (finished : ∀ settlement now row, key (ActionRow.finish settlement now row) = key row)
    (s : State) (index : Nat) (executor : Executor) (action : Action) :
    (act s index executor action).actions.map key = s.actions.map key := by
  unfold act
  split
  · split
    · split
      · rfl
      · rename_i won
        exact transact_map won (started _)
    · rfl
  · rfl
  · dsimp only
    split <;> rfl
  · split <;> rfl
  · rfl
  · rfl
  · rfl
  · rfl
  · split
    · rfl
    · rename_i stored
      exact transact_map stored (finished _ _)
  · rfl
  · rfl
  · rfl

end

end GroupButler.Actions
