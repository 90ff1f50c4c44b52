/-!
# Shared documents

The group key every collection is scoped by, and the `auditLog` collection. A row says who acted,
on what, and whatever makes the action reconcilable.
-/

namespace GroupButler.Store

/-- Milliseconds since the Unix epoch, as BSON stores a date. -/
abbrev Time := Int

/-- The unique key of a `groups` row. -/
structure GroupKey where
  organizationId : String
  instanceId : String
  groupJid : String
  deriving DecidableEq, Repr

inductive Actor where
  | owner | worker | assistant
  deriving DecidableEq, Repr

inductive AuditAction where
  | instanceWhitelistUpdated
  | sendCreated | sendApproved | sendRejected | sendCancelled | replyOutputRejected
  | actionStaged | actionApproved | actionRejected
  | actionExecutionAttempted | actionExecuted | actionExecutionFailed
  deriving DecidableEq, Repr

inductive AuditTargetType where
  | instanceDoc | send | action
  deriving DecidableEq, Repr

structure AuditTarget where
  type : AuditTargetType
  id : String
  deriving DecidableEq, Repr

/-- The `meta` document, one shape for each writer. -/
inductive AuditMeta where
  | empty
  /-- `source: "instance-config"` -/
  | whitelistReplaced (before after : List String)
  /-- `source: "group-row"` -/
  | whitelistMoved (groupJid : String) (whitelisted : Bool)
  | sendCreated (instanceId groupJid : String) (decision : Option (Time × Actor))
  | sendApproved (scheduledFor : Time)
  | replySend (instanceId groupJid replyToMessageId : String) (reason : Option String)
  | staged (shortId action instanceId groupJid requestedBy : String)
  | decided (shortId action instanceId groupJid : String) (decidedBy : Option String)
  | settled (shortId action instanceId groupJid : String) (code : Option String)
  deriving DecidableEq, Repr

structure AuditEntry where
  organizationId : String
  actor : Actor
  action : AuditAction
  target : AuditTarget
  details : AuditMeta
  ip : String
  deriving DecidableEq, Repr

end GroupButler.Store
