import Mathlib.Data.List.Dedup
import GroupButler.Foundation.Run
import GroupButler.Foundation.Collection
import GroupButler.Foundation.Text
import GroupButler.Store.Audit

/-!
# Group eligibility

Three facts say which groups the assistant may read: `config.assigned` and `config.whitelisted` on
the group row, and the instance's `config.groupJidWhitelist`. `updateGroupConfig` moves one group,
`updateInstanceConfig` replaces the whole list. Each transaction is one step; the reads
`updateInstanceConfig` makes before its transaction are steps of their own.
-/

namespace GroupButler.Config
open Foundation Store

structure GroupConfig where
  assigned : Option Bool
  whitelisted : Option Bool
  configVersion : Option Int
  deriving DecidableEq, Repr

structure GroupDoc where
  key : GroupKey
  config : GroupConfig
  memoryReadFence : Nat := 0
  deriving DecidableEq, Repr

structure InstanceDoc where
  id : String
  organizationId : String
  groupJidWhitelist : Option (List String)
  deriving DecidableEq, Repr

structure ConfigDb where
  instances : List InstanceDoc
  groups : List GroupDoc
  auditLog : List AuditEntry
  deriving DecidableEq, Repr

/-- A missing version reads as zero. -/
def GroupConfig.version (config : GroupConfig) : Int := config.configVersion.getD 0

/-- `$inc: { "config.configVersion": 1 }` -/
def GroupConfig.bump (config : GroupConfig) : GroupConfig :=
  { config with configVersion := some (config.version + 1) }

def GroupConfig.eligible (config : GroupConfig) : Bool :=
  config.assigned == some true && config.whitelisted == some true

def InstanceDoc.stored (doc : InstanceDoc) : List String := doc.groupJidWhitelist.getD []

/-- A list as the module reads it: trimmed, without repeats, sorted. -/
def readList (stored : List String) : List String :=
  jsSort ((stored.map jsTrim).filter (fun jid => jid != "")).dedup

def whitelistOf (doc : InstanceDoc) : List String := readList doc.stored

def InstanceDoc.named (organizationId instanceId : String) (doc : InstanceDoc) : Bool :=
  doc.id == instanceId && doc.organizationId == organizationId

/-! ### `updateGroupConfig` -/

structure GroupConfigPatch where
  assigned : Option Bool
  whitelisted : Option Bool
  instanceId : Option String
  deriving DecidableEq, Repr

/-- What the route's `PatchSchema` lets through. -/
def GroupConfigPatch.Admitted (patch : GroupConfigPatch) : Prop :=
  (patch.assigned.isSome ∨ patch.whitelisted.isSome) ∧
    ∀ instanceId, patch.instanceId = some instanceId → instanceId ≠ "" ∧ jsTrim instanceId = instanceId

/-- The flags a patch sets: the whitelist wins over an `assigned` in the same patch. -/
structure Changes where
  assigned : Option Bool
  whitelisted : Option Bool
  deriving DecidableEq, Repr

def GroupConfigPatch.changes (patch : GroupConfigPatch) : Changes :=
  match patch.whitelisted with
  | none => { assigned := patch.assigned, whitelisted := none }
  | some whitelisted => { assigned := some whitelisted, whitelisted := some whitelisted }

def Changes.eligibilityChanged (changes : Changes) (stored : GroupConfig) : Bool :=
  (changes.assigned.isSome && changes.assigned != stored.assigned) ||
    (changes.whitelisted.isSome && changes.whitelisted != stored.whitelisted)

def Changes.set (changes : Changes) (config : GroupConfig) : GroupConfig :=
  { config with
    assigned := changes.assigned.or config.assigned
    whitelisted := changes.whitelisted.or config.whitelisted }

/-- `$addToSet` and `$pull` of one JID. -/
def moveJid (whitelisted : Bool) (groupJid : String) (list : List String) : List String :=
  if whitelisted then (if groupJid ∈ list then list else list ++ [groupJid])
  else list.filter (· != groupJid)

def moveGroupWhitelistJid (db : ConfigDb) (key : GroupKey) (whitelisted : Bool) (ip : String) : ConfigDb :=
  let named := InstanceDoc.named key.organizationId key.instanceId
  if db.instances.any named then
    { db with
      instances := updateOne named (fun doc =>
        { doc with groupJidWhitelist := some (moveJid whitelisted key.groupJid doc.stored) }) db.instances
      auditLog := db.auditLog ++ [{
        organizationId := key.organizationId
        actor := .owner
        action := .instanceWhitelistUpdated
        target := ⟨.instanceDoc, key.instanceId⟩
        details := .whitelistMoved key.groupJid whitelisted
        ip }] }
  else db

inductive GroupConfigUpdate where
  | updated (group : GroupDoc)
  | notFound
  | ambiguous
  deriving DecidableEq, Repr

def matchedGroups (db : ConfigDb) (organizationId groupJid : String) (patch : GroupConfigPatch) : List GroupDoc :=
  db.groups.filter fun group =>
    group.key.organizationId == organizationId && group.key.groupJid == groupJid &&
      patch.instanceId.all (· == group.key.instanceId)

def GroupDoc.write (changes : Changes) (bump : Bool) (group : GroupDoc) : GroupDoc :=
  { group with config := if bump then (changes.set group.config).bump else changes.set group.config }

/-- The one row a patch names, or why it is refused. -/
def patchTarget (db : ConfigDb) (organizationId groupJid : String) (patch : GroupConfigPatch) :
    Except GroupConfigUpdate GroupDoc :=
  match matchedGroups db organizationId groupJid patch with
  | [] => .error .notFound
  | current :: others =>
    if 1 < ((current :: others).map (·.key.instanceId)).dedup.length then .error .ambiguous else .ok current

/-- The row, and with a `whitelisted` the list and its record. -/
def patchRow (db : ConfigDb) (key : GroupKey) (patch : GroupConfigPatch) (bump : Bool) (ip : String) : ConfigDb :=
  let written := { db with groups := updateOne (·.key == key) (GroupDoc.write patch.changes bump) db.groups }
  match patch.whitelisted with
  | none => written
  | some whitelisted => moveGroupWhitelistJid written key whitelisted ip

/-- The transaction of `updateGroupConfig`. -/
def updateGroupConfig (db : ConfigDb) (organizationId groupJid : String) (patch : GroupConfigPatch)
    (ip : String) : ConfigDb × GroupConfigUpdate :=
  match patchTarget db organizationId groupJid patch with
  | .error refusal => (db, refusal)
  | .ok current =>
    let bump := patch.changes.eligibilityChanged current.config
    (patchRow db ⟨organizationId, current.key.instanceId, groupJid⟩ patch bump ip,
      .updated (current.write patch.changes bump))

/-! ### `updateInstanceConfig` -/

structure WhitelistRequest where
  organizationId : String
  instanceId : String
  groupJidWhitelist : List String
  ip : String
  deriving DecidableEq, Repr

/-- The requested list as it will be stored. -/
def WhitelistRequest.after (request : WhitelistRequest) : List String :=
  jsSort ((request.groupJidWhitelist.map jsTrim).dedup.filter (fun jid => jid != ""))

def readInstance (db : ConfigDb) (organizationId instanceId : String) : Option InstanceDoc :=
  db.instances.find? (InstanceDoc.named organizationId instanceId)

/-- The JIDs this instance has no group row for. -/
def unknownGroups (db : ConfigDb) (organizationId instanceId : String) (jids : List String) : List String :=
  jids.filter fun jid => !db.groups.any (·.key == ⟨organizationId, instanceId, jid⟩)

/-- Both flags set to `granted`, and the version moved, unless both already say so. -/
def GroupDoc.mirror (granted : Bool) (group : GroupDoc) : GroupDoc :=
  { group with config :=
    { group.config with assigned := some granted, whitelisted := some granted }.bump }

def WhitelistRequest.scopes (request : WhitelistRequest) (group : GroupDoc) : Bool :=
  group.key.organizationId == request.organizationId && group.key.instanceId == request.instanceId

def GroupConfig.differs (config : GroupConfig) (granted : Bool) : Bool :=
  config.whitelisted != some granted || config.assigned != some granted

/-- The transaction of `updateInstanceConfig`: the list, then the rows it drops, then the rows it
grants, then the record. -/
def replaceWhitelist (db : ConfigDb) (request : WhitelistRequest) (before : List String) : ConfigDb :=
  let after := request.after
  let cleared := updateMany (fun group =>
      request.scopes group && !after.contains group.key.groupJid && group.config.differs false)
    (GroupDoc.mirror false) db.groups
  let granted := updateMany (fun group =>
      request.scopes group && after.contains group.key.groupJid && group.config.differs true)
    (GroupDoc.mirror true) cleared
  { instances := updateOne (InstanceDoc.named request.organizationId request.instanceId)
      (fun doc => { doc with groupJidWhitelist := some after }) db.instances
    groups := granted
    auditLog := db.auditLog ++ [{
      organizationId := request.organizationId
      actor := .owner
      action := .instanceWhitelistUpdated
      target := ⟨.instanceDoc, request.instanceId⟩
      details := .whitelistReplaced before after
      ip := request.ip }] }

/-! ### Interleavings -/

/-- How far one `updateInstanceConfig` caller has come. `doc` is the instance as it read it. -/
inductive Phase where
  | idle
  | read (request : WhitelistRequest) (doc : InstanceDoc)
  | checked (request : WhitelistRequest) (doc : InstanceDoc)
  deriving DecidableEq, Repr

structure State where
  db : ConfigDb
  callers : Nat → Phase

inductive Event where
  | updateGroupConfig (organizationId groupJid : String) (patch : GroupConfigPatch) (ip : String)
  | readInstanceConfig (caller : Nat) (request : WhitelistRequest)
  | checkGroups (caller : Nat)
  | commitWhitelist (caller : Nat)
  | crash (caller : Nat)
  /-- The worker stores a group it had not seen. -/
  | upsertObserved (key : GroupKey)

def State.at (s : State) (caller : Nat) (phase : Phase) : State :=
  { s with callers := fun other => if other = caller then phase else s.callers other }

/-- The `$setOnInsert` half of the worker's group writes. -/
def upsertObserved (db : ConfigDb) (key : GroupKey) : ConfigDb :=
  { db with groups := insertUnique GroupDoc.key ⟨key, ⟨some false, some false, some 0⟩, 0⟩ db.groups }

def step (s : State) : Event → State
  | .updateGroupConfig organizationId groupJid patch ip =>
    { s with db := (updateGroupConfig s.db organizationId groupJid patch ip).1 }
  | .readInstanceConfig caller request =>
    match readInstance s.db request.organizationId request.instanceId with
    | none => s.at caller .idle
    | some doc => s.at caller (.read request doc)
  | .checkGroups caller =>
    match s.callers caller with
    | .read request doc =>
      if (unknownGroups s.db request.organizationId request.instanceId request.after).isEmpty then
        s.at caller (.checked request doc)
      else s.at caller .idle
    | _ => s
  | .commitWhitelist caller =>
    match s.callers caller with
    | .checked request doc => { s.at caller .idle with db := replaceWhitelist s.db request (whitelistOf doc) }
    | _ => s
  | .crash caller => s.at caller .idle
  | .upsertObserved key => { s with db := upsertObserved s.db key }

end GroupButler.Config
