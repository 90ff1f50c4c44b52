import GroupButler.Actions.Model
import GroupButler.Foundation.Text

/-!
# Approval commands

What an owner may type in a direct chat, what `decideAction` answers, and what the owner is told.
-/

namespace GroupButler.Actions
open Foundation Store

structure ApprovalCommand where
  decision : PendingActionDecision
  shortId : String
  deriving DecidableEq, Repr

/-- `/^\s*(approve|reject)\s+(\S+)\s*$/i` -/
def approvalCommand (text : String) : Option ApprovalCommand :=
  let trimmed := text.toList.dropWhile isJsSpace
  let word := String.ofList ((trimmed.takeWhile fun c => !isJsSpace c).map Char.toLower)
  let rest := (trimmed.dropWhile fun c => !isJsSpace c).dropWhile isJsSpace
  let shortId := rest.takeWhile fun c => !isJsSpace c
  if shortId.isEmpty || !((rest.dropWhile fun c => !isJsSpace c).all isJsSpace) then none
  else if word = "approve" then some ⟨.approve, String.ofList shortId⟩
  else if word = "reject" then some ⟨.reject, String.ofList shortId⟩
  else none

def ApprovalCommand.input (command : ApprovalCommand) (organizationId ownerJid : String) : DecideActionInput where
  ref := .shortId command.shortId
  organizationId
  decision := command.decision
  decidedBy := ownerJid
  ip := "worker"

inductive ActionDecision where
  | row (action : ActionRow)
  | notFound
  | invalidState

def loadAction (db : ActionDb) (organizationId : String) (ref : PendingActionRef) : Option ActionRow :=
  db.actions.find? fun row => row.organizationId == organizationId && refFilter ref row

/-- The answer of a `decideAction` that found nothing pending. -/
def undecidedAnswer (db : ActionDb) (organizationId : String) (ref : PendingActionRef) : ActionDecision :=
  if (loadAction db organizationId ref).isNone then .notFound else .invalidState

def decidedWord : PendingActionDecision → String
  | .approve => "Approved"
  | .reject => "Rejected"

def decisionReply (command : ApprovalCommand) : ActionDecision → String
  | .notFound => "No staged action matches " ++ normalizeShortId command.shortId ++ "."
  | .invalidState => normalizeShortId command.shortId ++ " has already been decided."
  | .row action => decidedWord command.decision ++ " " ++ action.shortId ++ ": " ++ action.summary

example : approvalCommand "  Approve abc123 \n" = some ⟨.approve, "abc123"⟩ := by decide

example : approvalCommand "approve" = none ∧ approvalCommand "approve a b" = none := by decide

end GroupButler.Actions
