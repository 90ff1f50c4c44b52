import GroupButler.Config.Rows
import GroupButler.Memory.Batch

/-!
# The memory pipeline

The worker scans eligible groups and materializes one batch a group, in separate reads and one
insert; it claims, renews, recovers and fails leases. The BFF loads a claimed batch, takes the
summary work, and completes or resolves it in one transaction. Messages arrive and eligibility
changes at any point between. Tokens and ids come from one counter: they are never issued twice.
-/

namespace GroupButler.Memory
open Foundation Store Ingest

def scopeOf (row : MessageRow) : GroupKey := ⟨row.key.organizationId, row.key.instanceId, row.identity.groupJid⟩

def keyOf (row : MessageRow) : BatchKey := ⟨row.identity.timestamp, row.key.waMessageId⟩

/-! ### Building -/

def groupBatches (batches : List Batch) (group : GroupKey) : List Batch := batches.filter (·.scope == group)

def hasOutstandingRange (batches : List Batch) (group : GroupKey) : Bool :=
  (groupBatches batches group).any (·.state != .complete)

def completedWatermark (batches : List Batch) (group : GroupKey) : Option BatchKey :=
  (((groupBatches batches group).filter (·.state == .complete)).map Batch.last).max?

def selectable (group : GroupKey) (watermark : Option BatchKey) (row : MessageRow) : Bool :=
  scopeOf row == group && !row.revoked && row.content.kind != .revoked &&
    watermark.all fun key => decide (key < keyOf row)

def rowLe (first second : MessageRow) : Prop := keyOf first ≤ keyOf second

instance : DecidableRel rowLe := fun first second => inferInstanceAs (Decidable (keyOf first ≤ keyOf second))

/-- The rows of one batch: at most 24 hours, at most 100, or up to 150 while they share an instant. -/
def nextMessages (messages : List MessageRow) (group : GroupKey) (watermark : Option BatchKey) : List MessageRow :=
  let rows := ((messages.filter (selectable group watermark)).insertionSort rowLe).take (memoryBatchEqualLimit + 1)
  match rows with
  | [] => []
  | oldest :: _ =>
    let windowEnd := (keyOf oldest).timestamp + memoryBatchWindow
    let bounded := rows.takeWhile fun row => decide ((keyOf row).timestamp ≤ windowEnd)
    match bounded.drop (memoryBatchLimit - 1) with
    | [] => bounded
    | limit :: _ =>
      bounded.take memoryBatchLimit ++
        ((bounded.take memoryBatchEqualLimit).drop memoryBatchLimit).takeWhile fun row =>
          (keyOf row).timestamp == (keyOf limit).timestamp

/-- How far one `BuildReady` has come. It has `rest` still to build after `group`. -/
inductive Builder where
  | idle
  | scanned (groups : List GroupKey)
  | unblocked (group : GroupKey) (rest : List GroupKey)
  | marked (group : GroupKey) (watermark : Option BatchKey) (rest : List GroupKey)
  | selected (group : GroupKey) (watermark : Option BatchKey) (rows : List MessageRow) (rest : List GroupKey)

def predecessorOf (watermark : Option BatchKey) : String :=
  match watermark with
  | none => memoryBatchOrigin
  | some key => memoryBatchPredecessor key

/-- The range a batch covers, as `uniq_memory_batch_range` keys it. -/
def Batch.range (batch : Batch) : GroupKey × BatchKey × BatchKey := (batch.scope, batch.first, batch.last)

def materialized (id : Nat) (group : GroupKey) (watermark : Option BatchKey) (oldest : MessageRow)
    (rows : List MessageRow) (now : Time) : Batch where
  id
  scope := group
  first := keyOf oldest
  last := keyOf (rows.getLastD oldest)
  predecessor := predecessorOf watermark
  sourceCount := rows.length
  sourceWaMessageIds := rows.map fun row => row.key.waMessageId
  sourceTextBytes := (rows.map fun row => byteLength row.content.text).sum
  state := .ready
  lease := none
  summaryWork := none
  attempts := 0
  nextAttemptAt := some now
  failure := none
  summaryId := none
  createdAt := now
  startedAt := none
  completedAt := none
  updatedAt := now

/-- `InsertOne` under the two unique indexes; a duplicate key is not an error. -/
def insertBatch (batch : Batch) (batches : List Batch) : List Batch :=
  if batches.any fun old => old.scope == batch.scope && old.predecessor == batch.predecessor || old.range == batch.range
  then batches else batches ++ [batch]

def groupLe (first second : GroupKey) : Prop :=
  first.instanceId < second.instanceId ∨ first.instanceId = second.instanceId ∧ first.groupJid ≤ second.groupJid

instance : DecidableRel groupLe := fun first second => inferInstanceAs (Decidable
  (first.instanceId < second.instanceId ∨ first.instanceId = second.instanceId ∧ first.groupJid ≤ second.groupJid))

def eligibleGroups (groups : List Config.GroupDoc) (organizationId : String) : List GroupKey :=
  ((groups.filter fun group => group.key.organizationId == organizationId && group.config.eligible).map
    Config.GroupDoc.key).insertionSort groupLe

/-! ### Summarizing -/

/-- One caller of the BFF. `batch` is the batch as it loaded it. -/
inductive Session where
  | idle
  | loaded (batch : Batch)
  /-- `claimMemorySummaryWork` has read the group row. -/
  | eligible (batch : Batch) (configVersion : Int)
  | working (batch : Batch) (token : Nat)

/-- What `Fail` read before it writes. -/
structure FailRead where
  organizationId : String
  id : Nat
  token : Nat
  attempts : Nat

structure State where
  config : Config.State
  messages : List MessageRow
  batches : List Batch
  summaries : List Summary
  builders : Nat → Builder
  failing : Nat → Option FailRead
  sessions : Nat → Session
  fresh : Nat

def groupRow (s : State) (key : GroupKey) : Option Config.GroupDoc := s.config.db.groups.find? (·.key == key)

/-- The row of a group that is assigned and whitelisted now. -/
def eligibleRow (s : State) (key : GroupKey) : Option Config.GroupDoc :=
  s.config.db.groups.find? fun group => group.key == key && group.config.eligible

inductive Completion where
  | completed | alreadyComplete | lostLease
  deriving DecidableEq, Repr

def summaryOf (batch : Batch) (id : Nat) (summary : String) (redactions : Nat) (now : Time) : Summary where
  id
  scope := batch.scope
  batchId := batch.id
  period := (batch.first.timestamp, batch.last.timestamp)
  sourceCount := batch.sourceCount
  sourceMessageIds := batch.sourceWaMessageIds
  summary
  redactions
  createdAt := now

/-- `$inc: { memoryReadFence: 1 }` on the group row. -/
def fence (key : GroupKey) (configVersion : Int) (config : Config.State) : Config.State :=
  let held (group : Config.GroupDoc) : Bool :=
    group.key == key && group.config.eligible && group.config.version == configVersion
  let touch (group : Config.GroupDoc) : Config.GroupDoc :=
    { group with memoryReadFence := group.memoryReadFence + 1 }
  { config with db := { config.db with groups := updateOne held touch config.db.groups } }

/-- Insert a summary under `uniq_memory_summary_batch` and complete the batch with it, or neither. -/
def insertSummary (s : State) (batch : Batch) (leaseToken : Nat) (workToken : Option Nat) (summary : String)
    (redactions : Nat) (now : Time) : Option State :=
  let write := BatchWrite.complete batch.scope leaseToken workToken now s.fresh
  let taken := s.summaries.any fun stored =>
    stored.scope.organizationId == batch.scope.organizationId && stored.batchId == batch.id
  if !taken && write.hits batch.id s.batches then
    some { s with
      summaries := s.summaries ++ [summaryOf batch s.fresh summary redactions now]
      batches := write.apply batch.id s.batches
      fresh := s.fresh + 1 }
  else none

/-- The transaction of `completeMemoryBatch` on the batch a caller loaded with `lease`. -/
def completeMemoryBatch (s : State) (batch : Batch) (lease : Lease) (token : Nat) (output : String) (now : Time) :
    State × Completion :=
  match s.summaries.find? fun summary => summary.scope == batch.scope && summary.batchId == batch.id with
  | some existing =>
    let current := s.batches.find? fun stored => stored.id == batch.id && stored.scope == batch.scope
    if current.any fun stored => stored.state == .complete && stored.summaryId == some existing.id then
      (s, .alreadyComplete)
    else
      let write := BatchWrite.complete batch.scope lease.token (some token) now existing.id
      ({ s with batches := write.apply batch.id s.batches },
        if write.hits batch.id s.batches then .alreadyComplete else .lostLease)
  | none =>
    let claimed := (s.batches.find? fun stored => stored.id == batch.id).bind Batch.summaryWork
    match eligibleRow s batch.scope, claimed with
    | some group, some work =>
      if work.token = token ∧ work.configVersion = group.config.version then
        let fenced := { s with config := fence batch.scope group.config.version s.config }
        match insertSummary fenced batch lease.token (some token) output 0 now with
        | some next => (next, .completed)
        | none => (s, .lostLease)
      else (s, .lostLease)
    | _, _ => (s, .lostLease)

def resolveAuthorizationRevokedMemoryBatch (s : State) (batch : Batch) (workToken : Option Nat) (now : Time) : State :=
  match batch.lease, groupRow s batch.scope with
  | some lease, some group =>
    if group.config.eligible then s
    else (insertSummary s batch lease.token workToken "" batch.sourceCount now).getD s
  | _, _ => s

def sourceRow (batch : Batch) (row : MessageRow) : Bool :=
  scopeOf row == batch.scope && batch.sourceWaMessageIds.contains row.key.waMessageId

def resolveRevokedMemoryBatch (s : State) (id : Nat) (now : Time) : State :=
  match s.batches.find? fun batch => batch.id == id && batch.state == .processing && batch.leaseLive now with
  | none => s
  | some batch =>
    match batch.lease with
    | none => s
    | some lease =>
      if s.messages.any fun row => sourceRow batch row && row.revoked then
        (insertSummary s batch lease.token none "" batch.sourceCount now).getD s
      else s

/-- `loadMemoryBatch`, which refuses a batch some source of which is gone or revoked. -/
def loadMemoryBatch (s : State) (id : Nat) (now : Time) : Option Batch :=
  match s.batches.find? fun batch => batch.id == id && batch.state == .processing && batch.leaseLive now with
  | none => none
  | some batch =>
    let sources := s.messages.filter fun row => sourceRow batch row && !row.revoked
    if batch.sourceWaMessageIds.length = batch.sourceCount ∧ sources.length = batch.sourceCount then some batch else none

/-! ### Interleavings -/

inductive Event where
  | config (event : Config.Event)
  | save (doc : BridgeDoc)
  /-- Whatever marks a message revoked: nothing in the repository does. -/
  | revoke (key : MessageKey)
  | scan (builder : Nat) (organizationId : String)
  | checkOutstanding (builder : Nat)
  | readWatermark (builder : Nat)
  | select (builder : Nat)
  | insert (builder : Nat) (now : Time)
  | stopBuilder (builder : Nat)
  /-- `pick` is the batch the server returned among the oldest due ones. -/
  | claim (organizationId owner : String) (now : Time) (pick : Nat)
  | heartbeat (organizationId : String) (id token : Nat) (now : Time)
  | expireDead (organizationId : String) (id : Nat) (now : Time)
  | expireRetry (organizationId : String) (id : Nat) (now : Time)
  | readFailing (caller : Nat) (organizationId : String) (id token : Nat)
  | writeFailing (caller : Nat) (failureClass : FailureClass) (code message : String) (fraction : Nat) (now : Time)
  | load (session id : Nat) (now : Time)
  | readGroup (session : Nat)
  | claimWork (session : Nat) (now : Time)
  | renewWork (session : Nat) (now : Time)
  | releaseWork (session : Nat) (now : Time)
  | complete (session : Nat) (output : String) (now : Time)
  | resolveAuthorizationRevoked (session : Nat) (now : Time)
  | resolveRevoked (id : Nat) (now : Time)
  | stopSession (session : Nat)

/-- `Claim` sorts by `createdAt`: `pick` is one of the oldest matches. -/
def oldestDue (batches : List Batch) (write : BatchWrite) (pick : Nat) : Bool :=
  batches.any fun batch => batch.id == pick && write.filter batch &&
    batches.all fun other => !write.filter other || decide (batch.createdAt ≤ other.createdAt)

def State.build (s : State) (builder : Nat) (next : Builder) : State :=
  { s with builders := Function.update s.builders builder next }

def State.session (s : State) (caller : Nat) (next : Session) : State :=
  { s with sessions := Function.update s.sessions caller next }

def State.write (s : State) (write : BatchWrite) (id : Nat) : State := { s with batches := write.apply id s.batches }

def step (s : State) : Event → State
  | .config event => { s with config := Config.step s.config event }
  | .save doc => { s with messages := saveOne s.messages doc.val }
  | .revoke key =>
    { s with messages := updateOne (fun row => row.key == key) (fun row => { row with revoked := true }) s.messages }
  | .scan builder organizationId =>
    s.build builder (.scanned (eligibleGroups s.config.db.groups organizationId))
  | .checkOutstanding builder =>
    match s.builders builder with
    | .scanned (group :: rest) =>
      if hasOutstandingRange s.batches group then s.build builder (.scanned rest)
      else s.build builder (.unblocked group rest)
    | _ => s
  | .readWatermark builder =>
    match s.builders builder with
    | .unblocked group rest => s.build builder (.marked group (completedWatermark s.batches group) rest)
    | _ => s
  | .select builder =>
    match s.builders builder with
    | .marked group watermark rest =>
      match nextMessages s.messages group watermark with
      | [] => s.build builder (.scanned rest)
      | rows => s.build builder (.selected group watermark rows rest)
    | _ => s
  | .insert builder now =>
    match s.builders builder with
    | .selected group watermark (oldest :: rows) rest =>
      { s.build builder (.scanned rest) with
        batches := insertBatch (materialized s.fresh group watermark oldest (oldest :: rows) now) s.batches
        fresh := s.fresh + 1 }
    | _ => s
  | .stopBuilder builder => s.build builder .idle
  | .claim organizationId owner now pick =>
    let write := BatchWrite.claim organizationId now owner s.fresh
    if oldestDue s.batches write pick then { s.write write pick with fresh := s.fresh + 1 } else s
  | .heartbeat organizationId id token now => s.write (.heartbeat organizationId token now) id
  | .expireDead organizationId id now => s.write (.expireDead organizationId now) id
  | .expireRetry organizationId id now => s.write (.expireRetry organizationId now) id
  | .readFailing caller organizationId id token =>
    match s.batches.find? fun batch => batch.id == id && batch.scope.organizationId == organizationId &&
        batch.state == .processing && batch.leasedBy token with
    | none => { s with failing := Function.update s.failing caller none }
    | some batch =>
      { s with failing := Function.update s.failing caller (some ⟨organizationId, id, token, batch.attempts⟩) }
  | .writeFailing caller failureClass code message fraction now =>
    match s.failing caller with
    | none => s
    | some read =>
      let (state, due) : BatchState × Option Time :=
        if failureClass = .terminal ∨ memoryBatchMaxAttempts ≤ read.attempts then (.dead, none)
        else (.retryWait, some (now + memoryRetryDelayJittered read.attempts fraction))
      { s.write (.fail read.organizationId read.token state due ⟨code, message, now⟩ now) read.id with
        failing := Function.update s.failing caller none }
  | .load caller id now =>
    match loadMemoryBatch s id now with
    | none => s.session caller .idle
    | some batch => s.session caller (.loaded batch)
  | .readGroup caller =>
    match s.sessions caller with
    | .loaded batch =>
      match eligibleRow s batch.scope with
      | none => s
      | some group => s.session caller (.eligible batch group.config.version)
    | _ => s
  | .claimWork caller now =>
    match s.sessions caller with
    | .eligible batch configVersion =>
      match batch.lease with
      | none => s.session caller (.loaded batch)
      | some lease =>
        let work : SummaryWork := ⟨s.fresh, min lease.expiresAt (now + summaryWorkLease), configVersion⟩
        let write := BatchWrite.claimWork batch.scope lease.token now work
        if write.hits batch.id s.batches then
          { (s.write write batch.id).session caller (.working batch s.fresh) with fresh := s.fresh + 1 }
        else s.session caller (.loaded batch)
    | _ => s
  | .renewWork caller now =>
    match s.sessions caller with
    | .working batch token =>
      match batch.lease with
      | none => s
      | some lease => s.write (.renewWork batch.scope lease.token token now) batch.id
    | _ => s
  | .releaseWork caller now =>
    match s.sessions caller with
    | .working batch token =>
      match batch.lease with
      | none => s
      | some lease => s.write (.releaseWork batch.scope lease.token token now) batch.id
    | _ => s
  | .complete caller output now =>
    match s.sessions caller with
    | .working batch token =>
      match batch.lease with
      | none => s
      | some lease => (completeMemoryBatch s batch lease token output now).1
    | _ => s
  | .resolveAuthorizationRevoked caller now =>
    match s.sessions caller with
    | .loaded batch | .eligible batch _ => resolveAuthorizationRevokedMemoryBatch s batch none now
    | .working batch token => resolveAuthorizationRevokedMemoryBatch s batch (some token) now
    | .idle => s
  | .resolveRevoked id now => resolveRevokedMemoryBatch s id now
  | .stopSession caller => s.session caller .idle

end GroupButler.Memory
