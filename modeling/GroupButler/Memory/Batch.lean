import Mathlib.Data.Prod.Lex
import Mathlib.Data.String.Basic
import Mathlib.Data.List.Sort
import GroupButler.Foundation.Rfc3339
import GroupButler.Ingest.Store

/-!
# Memory batches

A batch is a range of a group's messages on its way to one summary. The worker materializes, leases
and retries it; the BFF holds a second, shorter lease inside the worker's while a model summarizes.
Every update of a batch is a filter and a change on one document.
-/

namespace GroupButler.Memory
open Foundation Store Ingest

def memoryBatchMaxAttempts : Nat := 5
def memoryBatchLease : Time := 120000
def memoryBatchLimit : Nat := 100
def memoryBatchEqualLimit : Nat := 150
def memoryBatchWindow : Time := 86400000
def memoryBatchOrigin : String := "origin"

/-- The BFF's `summaryWork` lease. -/
def summaryWorkLease : Time := 90000

structure BatchKey where
  timestamp : Time
  waMessageId : String
  deriving DecidableEq, Repr

def BatchKey.lex (key : BatchKey) : Time ×ₗ String := toLex (key.timestamp, key.waMessageId)

theorem BatchKey.lex_inj : Function.Injective BatchKey.lex := by
  intro a b same
  obtain ⟨timestamp, id⟩ := Prod.mk.inj (toLex.injective same)
  cases a
  cases b
  simp_all

instance : LinearOrder BatchKey := LinearOrder.lift' BatchKey.lex BatchKey.lex_inj

def memoryBatchPredecessor (key : BatchKey) : String :=
  String.ofList (rfc3339Nano key.timestamp ++ '\x00' :: key.waMessageId.toList)

theorem memoryBatchPredecessor_inj {a b : BatchKey} (h : memoryBatchPredecessor a = memoryBatchPredecessor b) :
    a = b := by
  have same := rfc3339Nano_append_inj (String.ofList_injective h)
  have ids : a.waMessageId = b.waMessageId := String.toList_inj.mp (List.cons.inj same.2).2
  cases a
  cases b
  simp_all

theorem memoryBatchPredecessor_ne_origin (key : BatchKey) : memoryBatchPredecessor key ≠ memoryBatchOrigin := by
  intro h
  have chars : rfc3339Nano key.timestamp ++ '\x00' :: key.waMessageId.toList = "origin".toList := by
    rw [← String.toList_ofList (l := rfc3339Nano key.timestamp ++ _)]
    exact congrArg String.toList h
  have separator : '\x00' ∈ "origin".toList := by
    rw [← chars]
    simp
  exact absurd separator (by decide)

inductive BatchState where
  | ready | processing | retryWait | complete | dead
  deriving DecidableEq, Repr

structure Lease where
  owner : String
  token : Nat
  expiresAt : Time
  deriving DecidableEq, Repr

structure SummaryWork where
  token : Nat
  expiresAt : Time
  configVersion : Int
  deriving DecidableEq, Repr

structure Failure where
  code : String
  message : String
  occurredAt : Time
  deriving DecidableEq, Repr

structure Batch where
  id : Nat
  scope : GroupKey
  first : BatchKey
  last : BatchKey
  predecessor : String
  sourceCount : Nat
  sourceWaMessageIds : List String
  sourceTextBytes : Nat
  state : BatchState
  lease : Option Lease
  summaryWork : Option SummaryWork
  attempts : Nat
  nextAttemptAt : Option Time
  failure : Option Failure
  summaryId : Option Nat
  createdAt : Time
  startedAt : Option Time
  completedAt : Option Time
  updatedAt : Time
  deriving DecidableEq, Repr

structure Summary where
  id : Nat
  scope : GroupKey
  batchId : Nat
  period : Time × Time
  sourceCount : Nat
  sourceMessageIds : List String
  summary : String
  redactions : Nat
  createdAt : Time
  deriving DecidableEq, Repr

def Batch.leasedBy (batch : Batch) (token : Nat) : Bool := batch.lease.any (·.token == token)

/-- `lease.expiresAt: { $gt: now }` -/
def Batch.leaseLive (batch : Batch) (now : Time) : Bool := batch.lease.any fun lease => decide (now < lease.expiresAt)

/-- `lease.expiresAt: { $lte: now }` -/
def Batch.leaseExpired (batch : Batch) (now : Time) : Bool := batch.lease.any fun lease => decide (lease.expiresAt ≤ now)

/-- `$min` with the lease's own expiry, where there is a lease. -/
def Batch.withinLease (batch : Batch) (expiresAt : Time) : Time :=
  match batch.lease with
  | none => expiresAt
  | some lease => min lease.expiresAt expiresAt

/-! ### The updates of one batch -/

inductive FailureClass where
  | retryable | terminal
  deriving DecidableEq, Repr

/-- Milliseconds before the next attempt, doubling from five minutes up to six hours. -/
def memoryRetryDelay (attempt : Nat) : Time :=
  let attempt := max 1 attempt
  if 8 < attempt then 21600000 else min 21600000 (300000 * 2 ^ (attempt - 1))

/-- Between 0.8 and 1.2 of the delay. `fraction` is the digest's 16 bits. -/
def memoryRetryDelayJittered (attempt fraction : Nat) : Time :=
  memoryRetryDelay attempt * (8 * 65535 + 4 * min fraction 65535) / (10 * 65535)

/-- Every update either side sends, with the values its filter and its `$set` carry. -/
inductive BatchWrite where
  | claim (organizationId : String) (now : Time) (owner : String) (token : Nat)
  | heartbeat (organizationId : String) (token : Nat) (now : Time)
  /-- The two halves of `RecoverExpired`. -/
  | expireDead (organizationId : String) (now : Time)
  | expireRetry (organizationId : String) (now : Time)
  | fail (organizationId : String) (token : Nat) (state : BatchState) (nextAttemptAt : Option Time)
    (failure : Failure) (now : Time)
  | claimWork (scope : GroupKey) (leaseToken : Nat) (now : Time) (work : SummaryWork)
  | renewWork (scope : GroupKey) (leaseToken workToken : Nat) (now : Time)
  | releaseWork (scope : GroupKey) (leaseToken workToken : Nat) (now : Time)
  | complete (scope : GroupKey) (leaseToken : Nat) (workToken : Option Nat) (now : Time) (summaryId : Nat)

def liveFilter (scope : GroupKey) (leaseToken : Nat) (workToken : Option Nat) (now : Time) (batch : Batch) : Bool :=
  batch.scope == scope && batch.state == .processing && batch.leasedBy leaseToken && batch.leaseLive now &&
    workToken.all fun token => batch.summaryWork.any fun work => work.token == token && decide (now < work.expiresAt)

def BatchWrite.filter : BatchWrite → Batch → Bool
  | .claim organizationId now _ _, batch =>
    batch.scope.organizationId == organizationId && (batch.state == .ready || batch.state == .retryWait) &&
      decide (batch.attempts < memoryBatchMaxAttempts) && batch.nextAttemptAt.any (fun due => decide (due ≤ now)) &&
      (batch.lease.isNone || batch.leaseExpired now)
  | .heartbeat organizationId token _, batch | .fail organizationId token _ _ _ _, batch =>
    batch.scope.organizationId == organizationId && batch.state == .processing && batch.leasedBy token
  | .expireDead organizationId now, batch =>
    batch.scope.organizationId == organizationId && batch.state == .processing && batch.leaseExpired now &&
      decide (memoryBatchMaxAttempts ≤ batch.attempts)
  | .expireRetry organizationId now, batch =>
    batch.scope.organizationId == organizationId && batch.state == .processing && batch.leaseExpired now &&
      decide (batch.attempts < memoryBatchMaxAttempts)
  | .claimWork scope leaseToken now _, batch =>
    liveFilter scope leaseToken none now batch && batch.summaryWork.all fun work => decide (work.expiresAt ≤ now)
  | .renewWork scope leaseToken workToken now, batch | .releaseWork scope leaseToken workToken now, batch =>
    liveFilter scope leaseToken (some workToken) now batch
  | .complete scope leaseToken workToken now _, batch => liveFilter scope leaseToken workToken now batch

def BatchWrite.change : BatchWrite → Batch → Batch
  | .claim _ now owner token, batch =>
    { batch with
      state := .processing
      lease := some ⟨owner, token, now + memoryBatchLease⟩
      attempts := batch.attempts + 1
      startedAt := batch.startedAt.or (some now)
      updatedAt := now }
  | .heartbeat _ _ now, batch =>
    { batch with
      lease := batch.lease.map fun lease => { lease with expiresAt := now + memoryBatchLease }
      updatedAt := now }
  | .expireDead _ now, batch => { batch with state := .dead, lease := none, nextAttemptAt := none, updatedAt := now }
  | .expireRetry _ now, batch =>
    { batch with state := .retryWait, lease := none, nextAttemptAt := some now, updatedAt := now }
  | .fail _ _ state nextAttemptAt failure now, batch =>
    { batch with state, lease := none, nextAttemptAt, failure := some failure, updatedAt := now }
  | .claimWork _ _ _ work, batch => { batch with summaryWork := some work }
  | .renewWork _ _ _ now, batch =>
    { batch with
      summaryWork := batch.summaryWork.map fun work =>
        { work with expiresAt := batch.withinLease (now + summaryWorkLease) } }
  | .releaseWork _ _ _ _, batch => { batch with summaryWork := none }
  | .complete _ _ _ now summaryId, batch =>
    { batch with
      state := .complete, summaryId := some summaryId, completedAt := some now, lease := none, summaryWork := none }

/-- Whether the update of batch `id` matches. -/
def BatchWrite.hits (write : BatchWrite) (id : Nat) (batches : List Batch) : Bool :=
  batches.any fun batch => batch.id == id && write.filter batch

def BatchWrite.apply (write : BatchWrite) (id : Nat) (batches : List Batch) : List Batch :=
  updateOne (fun batch => batch.id == id && write.filter batch) write.change batches

end GroupButler.Memory
