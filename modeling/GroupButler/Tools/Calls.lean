import GroupButler.Actions.Surfaces
import GroupButler.Tools.Groups

/-!
# One tool call

A cancellation takes a queued send back at once. A write is staged, and one of the reversible ones is
decided and executed in the same call. Every failure on the way is the uniform answer.
-/

namespace GroupButler.Tools
open Foundation Store Sends Actions Ai

def Database.actionDb (db : Database) : ActionDb := ⟨db.actions, db.sends.auditLog⟩

def Database.commit (db : Database) (written : ActionDb) : Database :=
  { db with actions := written.actions, sends := { db.sends with auditLog := written.auditLog } }

/-! ### Executing in line -/

/-- `settle`, and what `executeAction` returns after it. -/
def finish (surroundings : Surroundings) (db : Database) (action : ActionRow) (ip : String) (settlement : Settlement) :
    Database × Option ExecuteOutcome :=
  match settle db.actionDb action settlement ip (surroundings.clock 5) with
  | none => (db, some (outcome action settlement none))
  | some (written, row) => (db.commit written, some (outcome action settlement (some row)))

/-- The settlement of what was read back; without it the call throws. -/
def finishRead (surroundings : Surroundings) (db : Database) (action : ActionRow) (ip : String) :
    Actions.Stage → Database × Option ExecuteOutcome
  | .settling settlement => finish surroundings db action ip settlement
  | _ => (db, none)

/-- `executeAction` with no other caller; `none` where it throws. -/
def executeAction [Datetimes] (surroundings : Surroundings) (db : Database) (action : ActionRow) (ip : String) :
    Database × Option ExecuteOutcome :=
  if action.state ≠ .approved then (db, some (.refused notApproved))
  else
    match claim db.actionDb action ip (surroundings.clock 3) with
    | none => (db, some (.refused notApproved))
    | some (claimed, _) =>
      let db := db.commit claimed
      match begin db.sends.requests action with
      | .settling settlement => finish surroundings db action ip settlement
      | .cancelling sendId =>
        let (sends, changed) := transitionSend db.sends action.organizationId sendId .cancel ip .assistant (surroundings.clock 4)
        if changed then finishRead surroundings { db with sends } action ip (readBack sends action (.cancelled sendId))
        else finish surroundings db action ip (refuse nothingQueued)
      | .sending text scheduledFor =>
        let sends := createSend db.sends surroundings.objectId surroundings.sendId (sendInput action ip text scheduledFor)
          (surroundings.clock 4)
        finishRead surroundings { db with sends } action ip (readBack sends action .sent)
      | .calling request =>
        finish surroundings db action ip
          (answerSettlement request (surroundings.runAction action.instanceId action.groupJid request))
      | _ => (db, none)

/-! ### Answers -/

def memberStatusWord : MemberStatus → String
  | .ok => "ok"
  | .failed => "failed"
  | .unreported => "unreported"

def sendStatusWord : SendStatus → String
  | .pendingApproval => "pending_approval"
  | .approved => "approved"
  | .scheduled => "scheduled"
  | .rejected => "rejected"
  | .cancelled => "cancelled"
  | .sending => "sending"
  | .sent => "sent"
  | .failed => "failed"

def memberJson (member : MemberResult) : Json :=
  .obj <| [("jid", .str member.jid), ("status", .str (memberStatusWord member.status))] ++
    member.errorCode.toList.map fun code => ("errorCode", .num code)

def workerFields (data : WorkerGroupActionResult) : List (String × Json) :=
  [("ok", .bool data.ok)] ++ (data.pictureId.toList.map fun id => ("pictureId", .str id)) ++
    (data.revokeMessageId.toList.map fun id => ("revokeMessageId", .str id)) ++
    (data.results.toList.map fun results => ("results", .arr (results.map memberJson))) ++
    (data.failed.toList.map fun failed => ("failed", .arr (failed.map .str)))

def failureFields (failure : Failure) : List (String × Json) :=
  [("code", .str failure.code), ("message", .str failure.message)]

/-- `outcome.action.result ?? {}` -/
def resultJson : Option ActionResult → Json
  | none => .obj []
  | some .running => .obj [("status", .str "running")]
  | some (.refusal failure) => .obj (failureFields failure)
  | some (.answer data) => .obj (workerFields data)
  | some (.refusedAnswer data failure) => .obj (workerFields data ++ failureFields failure)
  | some (.queued sendId status scheduledFor) =>
    .obj [("sendId", .str sendId), ("status", .str (sendStatusWord status)), ("scheduledFor", .str (toISOString scheduledFor))]
  | some (.withdrawn sendId status text) =>
    .obj [("sendId", .str sendId), ("status", .str (sendStatusWord status)), ("text", .str text)]

def stagedMessage (shortId : String) : String :=
  "Nothing has been changed yet: the action is staged and only the owner's approval performs it. Ask the owner to reply \"approve " ++
    shortId ++ "\" (or \"reject " ++ shortId ++ "\") in the assistant's direct chat."

def doneMessage (summary : String) : String :=
  "Done: " ++ summary ++ " Tell the owner it is done, in one line, without asking them to approve anything."

def stagedAnswer (row : ActionRow) : Json :=
  .obj [("ok", .bool true), ("staged", .bool true), ("action", .str row.action), ("shortId", .str row.shortId),
    ("summary", .str row.summary), ("message", .str (stagedMessage row.shortId))]

def actionFailed (message : String) : Json :=
  .obj [("ok", .bool false), ("code", .str "action_failed"), ("message", .str message)]

def attemptFailed (failure : Failure) : Json :=
  actionFailed ("The change was attempted and did not happen: " ++ failure.message ++
    " Say that it failed; do not say it is waiting for approval.")

def doneAnswer (action summary message : String) (result : Json) : Json :=
  .obj [("ok", .bool true), ("done", .bool true), ("action", .str action), ("summary", .str summary), ("result", result),
    ("message", .str message)]

def executedAnswer (name : StagedGroupWriteToolName) : Option ExecuteOutcome → Json
  | none => notAvailable
  | some (.executed action) => doneAnswer name.name action.summary (doneMessage action.summary) (resultJson action.result)
  | some (.failed _ failure) | some (.refused failure) => attemptFailed failure

/-! ### Staging -/

def shortIdAttempts : Nat := 5

def shortIdTaken (db : Database) (organizationId shortId : String) : Bool :=
  db.actions.any fun row => row.organizationId == organizationId && row.shortId == shortId

/-- The short id `stageAction` settles on: the first draw no action of the organisation has. -/
def drawShortId (surroundings : Surroundings) (db : Database) (organizationId : String) : Option String :=
  ((List.range shortIdAttempts).map surroundings.shortIds).find? fun shortId => !shortIdTaken db organizationId shortId

def stageInput (context : ToolChatContext) (groupJid : String) (name : StagedGroupWriteToolName) (staged : Staged) :
    StageActionInput where
  organizationId := context.organizationId
  instanceId := context.instanceId
  groupJid
  action := name.name
  params := staged.params
  summary := staged.summary
  requestedBy := "assistant"
  ip := "internal"

/-- A reversible change is decided and executed by the call that staged it. -/
def perform [Datetimes] (surroundings : Surroundings) (db : Database) (context : ToolChatContext)
    (name : StagedGroupWriteToolName) (row : ActionRow) : Database × Json :=
  if Surfaces.autonomousActions.contains name.name then
    match decideAction db.actionDb
        ⟨.id row.id, context.organizationId, .approve, Surfaces.autonomyActor, "internal"⟩ (surroundings.clock 2) with
    | none => (db, notAvailable)
    | some (decided, action) =>
      let (db, outcome) := executeAction surroundings (db.commit decided) action "internal"
      (db, executedAnswer name outcome)
  else (db, stagedAnswer row)

def stageGroupAction [Datetimes] [DateStrings] (surroundings : Surroundings) (db : Database) (context : ToolChatContext)
    (groupJid : String) (name : StagedGroupWriteToolName) (input : Json) : Database × Json :=
  match stage (surroundings.clock 0) name input with
  | none => (db, notAvailable)
  | some staged =>
    match drawShortId surroundings db context.organizationId with
    | none => (db, notAvailable)
    | some shortId =>
      let request := stageInput context groupJid name staged
      perform surroundings
        (db.commit (stageAction db.actionDb request surroundings.actionId shortId (surroundings.clock 1)))
        context name (stagedRow request surroundings.actionId shortId (surroundings.clock 1))

/-! ### Cancelling -/

/-- `CANCEL_PARAMS` -/
def cancelParams (input : Json) : Option String := (input.field "sendId").bind trimmed

def nothingToCancel : String :=
  "That message is not waiting to be sent any more, so there was nothing to cancel. Say so plainly; do not say it was cancelled."

def cancelledAnswer [Normalization] (text : String) (sent : SendRow) (sendId : String) : Json :=
  doneAnswer "cancel_scheduled" ("Cancel the queued send " ++ sendId ++ ".")
    ("Cancelled: the queued message \"" ++ (clipJson (normalizeUntrustedText text) GroupToolLimits.labelChars).value ++
      "\" will not be sent. Tell the owner it is cancelled, and that it will not arrive.")
    (.obj [("sendId", .str sendId), ("status", .str (sendStatusWord sent.status))])

/-- The send a cancellation names, when it is one of this instance's. -/
def ownSend (db : Database) (context : ToolChatContext) (sendId : String) : Option SendRow :=
  (getSend db.sends context.organizationId sendId).filter fun send => send.instanceId == context.instanceId

def cancelScheduledSend [Normalization] (surroundings : Surroundings) (db : Database) (context : ToolChatContext)
    (input : Json) : Database × Json :=
  if !usableChatContext context then (db, notAvailable)
  else
    match cancelParams input with
    | none => (db, notAvailable)
    | some sendId =>
      match ownSend db context sendId with
      | none => (db, notAvailable)
      | some send =>
        let (sends, changed) := transitionSend db.sends context.organizationId sendId .cancel "internal" .assistant (surroundings.clock 0)
        if changed then
          ({ db with sends }, match getSend sends context.organizationId sendId with
            | some sent => cancelledAnswer send.text sent sendId
            | none => notAvailable)
        else (db, actionFailed nothingToCancel)

/-! ### The call -/

/-- `runGroupTool`; its audit row is left out. -/
def runGroupTool [Runtime] [Normalization] [Datetimes] [DateStrings] (surroundings : Surroundings) (db : Database)
    (context : ToolChatContext) (name : GroupToolName) (input : Json) : Database × Json :=
  let addresses := includeAddresses input
  match name with
  | .monitoredGroups => (db, listMonitoredGroups db context addresses)
  | .scheduledSends => (db, listScheduledSends db context addresses)
  | .cancelScheduled => cancelScheduledSend surroundings db context input
  | .groupInfo => (db, (scopedGroup db context input).elim notAvailable fun groupJid =>
    readGroup surroundings db context groupJid false addresses)
  | .groupParticipants => (db, (scopedGroup db context input).elim notAvailable fun groupJid =>
    readGroup surroundings db context groupJid true addresses)
  | .groupMessages => (db, (scopedGroup db context input).elim notAvailable fun groupJid =>
    readGroupMessages (surroundings.clock 0) db context groupJid input addresses)
  | .staged name => (scopedGroup db context input).elim (db, notAvailable) fun groupJid =>
    stageGroupAction surroundings db context groupJid name input

inductive ToolCall where
  | media (name : MediaToolName) (input : MediaToolInput)
  | group (name : GroupToolName) (input : Json)

inductive ToolResult where
  | media (result : MediaToolResult)
  | group (result : Json)

/-- The one refusal of a call's family. -/
def ToolCall.refusal : ToolCall → ToolResult
  | .media _ _ => .media .notAvailable
  | .group _ _ => .group notAvailable

def runTool [Runtime] [Normalization] [Datetimes] [DateStrings] (surroundings : Surroundings) (db : Database)
    (context : ToolChatContext) : ToolCall → Database × ToolResult
  | .media name input => (db, .media (runMediaTool surroundings.reader db context name input))
  | .group name input =>
    let (after, result) := runGroupTool surroundings db context name input
    (after, .group result)

end GroupButler.Tools
