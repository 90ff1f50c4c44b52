import GroupButler.Foundation.Collection
import GroupButler.Groups.Snapshot

/-!
# The full group sync

A sync merges every group the bridge lists into the `groups` collection. With pruning on it then
reads which groups are still believed joined and marks those the list did not name as left.
-/

namespace GroupButler.Groups
open Foundation Store Ingest Sends

/-! ### The collection -/

/-- The half of a row the dashboard owns. -/
structure GroupConfig where
  assigned : Bool := false
  whitelisted : Bool := false
  configVersion : Int := 0
  active : Bool := true
  notes : String := ""
  tags : List String := []
  deriving DecidableEq, Repr

structure GroupDoc where
  key : GroupKey
  observed : Observed
  config : GroupConfig
  createdAt : Time
  updatedAt : Time
  deriving DecidableEq, Repr

/-- `groups`, under its unique index. -/
structure GroupStore where
  docs : List GroupDoc
  unique : (docs.map GroupDoc.key).Nodup

structure Scope where
  organizationId : String
  instanceId : String
  deriving DecidableEq, Repr

/-- `groupIdentity` -/
def Scope.group (scope : Scope) (jid : String) : GroupKey := ⟨scope.organizationId, scope.instanceId, jid⟩

def Scope.holds (scope : Scope) (key : GroupKey) : Bool :=
  key.organizationId == scope.organizationId && key.instanceId == scope.instanceId

/-- The row of one group. -/
def GroupStore.row (store : GroupStore) (key : GroupKey) : Option GroupDoc := store.docs.find? fun doc => doc.key == key

/-- `observedFields`: the counters stay the row's own, and the sync stamp moves only with a sync. -/
def Observed.set (stored observed : Observed) (fromSync : Bool) : Observed :=
  { observed with
    lastActivityAt := stored.lastActivityAt
    messageCount := stored.messageCount
    mediaStored := stored.mediaStored
    lastSyncedAt := if fromSync then observed.lastSyncedAt else stored.lastSyncedAt
    lastSyncSource := if fromSync then observed.lastSyncSource else stored.lastSyncSource }

def GroupDoc.observe (observed : Observed) (fromSync : Bool) (doc : GroupDoc) : GroupDoc :=
  { doc with observed := doc.observed.set observed fromSync }

/-- What an insert seeds, with the dashboard's default config. -/
def GroupDoc.inserted (key : GroupKey) (observed : Observed) (fromSync : Bool) (now : Time) : GroupDoc :=
  ⟨key, ({} : Observed).set observed fromSync, {}, now, now⟩

def upsertObserved (store : GroupStore) (key : GroupKey) (observed : Observed) (fromSync : Bool) (now : Time) : GroupStore where
  docs := upsertOne (fun doc => doc.key == key) (GroupDoc.observe observed fromSync) (.inserted key observed fromSync now) store.docs
  unique := nodup_upsertOne store.unique (fun _ => rfl) rfl

def GroupDoc.leave (state : GroupState) (now : Time) (doc : GroupDoc) : GroupDoc :=
  { doc with observed := { doc.observed with state, leftDetectedAt := now } }

def markLeft (store : GroupStore) (key : GroupKey) (state : GroupState) (now : Time) : GroupStore where
  docs := updateOne (fun doc => doc.key == key) (GroupDoc.leave state now) store.docs
  unique := by
    rw [map_updateOne fun _ _ _ => show (GroupDoc.leave state now _).key = _ from rfl]
    exact store.unique

/-- Already known to be gone. -/
def GroupState.gone (state : GroupState) : Bool := state = .left ∨ state = .deleted

/-- `loadObserved` -/
def loadObserved (store : GroupStore) (scope : Scope) : List (String × Observed) :=
  (store.docs.filter fun doc => scope.holds doc.key).map fun doc => (doc.key.groupJid, doc.observed)

def knownGroupJids (store : GroupStore) (scope : Scope) : List String :=
  ((loadObserved store scope).filter fun entry => !entry.2.state.gone).map Prod.fst

def countLeft (store : GroupStore) (scope : Scope) : Nat :=
  store.docs.countP fun doc => scope.holds doc.key && doc.observed.state.gone

/-! ### The sync -/

structure SyncSummary where
  source : SyncSource
  durationMs : Int := 0
  total : Nat := 0
  added : Nat := 0
  subjectUpdated : Nat := 0
  metadataUpdated : Nat := 0
  markedLeft : Nat := 0
  subjectRejected : Nat := 0
  unchanged : Nat := 0
  groupsLeft : Nat := 0
  deriving DecidableEq, Repr

inductive SyncError where
  | bridge (error : SendError)
  | store
  deriving DecidableEq, Repr

/-- What becomes of one write: it lands and is answered, lands without an answer, or fails. -/
inductive Write where
  | answered | unanswered | failed
  deriving DecidableEq, Repr

/-- The answers of the store and the clock during one sync. -/
structure Calls where
  started : Time
  moment : Time
  finished : Time
  load : Bool
  /-- The n-th upsert, and the clock at it. -/
  upsert : Nat → Write × Time
  known : Bool
  /-- Go ranges over a map in any order. -/
  order : List String → List String
  order_perm : ∀ jids, (order jids).Perm jids
  mark : Nat → Write × Time
  count : Bool

/-- The sync so far. -/
structure Progress where
  store : GroupStore
  returned : List String
  summary : SyncSummary
  error : Option SyncError

/-- How one merged entry is counted. -/
def SyncSummary.tally (summary : SyncSummary) (exists_ : Bool) (changes : List SnapshotChange) : SyncSummary :=
  let summary := { summary with total := summary.total + 1 }
  if !exists_ then { summary with added := summary.added + 1 }
  else if .subject ∈ changes then { summary with subjectUpdated := summary.subjectUpdated + 1 }
  else if 0 < changes.length then { summary with metadataUpdated := summary.metadataUpdated + 1 }
  else { summary with unchanged := summary.unchanged + 1 }

/-- The group address of an entry; a snapshot can only contain groups. -/
def groupAddress (entry : BridgeGroupSummary) : Option String :=
  match parseAddress entry.jid with
  | some address => if address.isGroup then some address.render else none
  | none => none

section
variable [Unicode] (scope : Scope) (source : SyncSource) (calls : Calls)

/-- One merged entry, once its upsert has landed. -/
def Progress.merge (p : Progress) (stored : List (String × Observed)) (entry : BridgeGroupSummary) (jid : String) (now : Time) :
    Progress :=
  let cur := stored.lookup jid
  let (merged, changes) := mergeSnapshot (cur.getD {}) entry source calls.moment
  ⟨upsertObserved p.store (scope.group jid) merged true now, jid :: p.returned, p.summary.tally cur.isSome changes, none⟩

/-- The loop over the entries, where `n` upserts are done. -/
def mergeEntries (stored : List (String × Observed)) : List BridgeGroupSummary → Nat → Progress → Progress
  | [], _, p => p
  | entry :: rest, n, p =>
    match groupAddress entry with
    | none => mergeEntries stored rest n p
    | some jid =>
      let next := p.merge scope source calls stored entry jid (calls.upsert n).2
      match (calls.upsert n).1 with
      | .answered => mergeEntries stored rest (n + 1) next
      | .unanswered => { next with error := some .store }
      | .failed => { next with store := p.store, error := some .store }

/-- One group marked left, once its update is answered. -/
def Progress.leave (p : Progress) (jid : String) (now : Time) : Progress :=
  ⟨markLeft p.store (scope.group jid) .left now, p.returned, { p.summary with markedLeft := p.summary.markedLeft + 1 }, none⟩

/-- The loop over the baseline, where `n` groups are marked. -/
def markAbsent : List String → Nat → Progress → Progress
  | [], _, p => p
  | jid :: rest, n, p =>
    if jid ∈ p.returned then markAbsent rest n p
    else
      let next := p.leave scope jid (calls.mark n).2
      match (calls.mark n).1 with
      | .answered => markAbsent rest (n + 1) next
      | .unanswered => { next with summary := p.summary, error := some .store }
      | .failed => { p with error := some .store }

/-- The absence pass. -/
def pruneAbsent (prune : Bool) (p : Progress) : Progress :=
  if p.error.isSome || !prune then p
  else if calls.known then markAbsent scope calls (calls.order (knownGroupJids p.store scope)) 0 p
  else { p with error := some .store }

/-- The stored gauge, read last. -/
def gauge (p : Progress) : Progress :=
  if p.error.isSome then p
  else if calls.count then { p with summary := { p.summary with groupsLeft := countLeft p.store scope } }
  else { p with error := some .store }

def Progress.finish (p : Progress) : Progress :=
  { p with summary := { p.summary with durationMs := calls.finished - calls.started } }

def runGroupSync (answer : GroupsAnswer) (prune : Bool) (store : GroupStore) : Progress :=
  let start : Progress := ⟨store, [], { source }, none⟩
  match bridgeGroups answer with
  | .error error => Progress.finish calls { start with error := some (.bridge error) }
  | .ok groups =>
    if calls.load then
      Progress.finish calls (gauge scope calls (pruneAbsent scope calls prune
        (mergeEntries scope source calls (loadObserved store scope) groups 0 start)))
    else Progress.finish calls { start with error := some .store }

end

end GroupButler.Groups
