import GroupButler.Foundation.JsonRead
import GroupButler.Memory.Fence

/-!
# The batch callback of the BFF

One request takes a batch from the worker's call to an answer. It awaits one call at a time, while a timer
renews its work beside it. Any number of requests interleave with each other and with everything else that
reads or writes batches, groups and messages.
-/

namespace GroupButler.Memory.Callback
open Foundation Store Ingest

def watchdogMargin : Time := 5000

/-- The configured secret, and `new ObjectId` where `ObjectId.isValid`. -/
structure Bff where
  secret : String
  objectId : String → Option Nat

def sameSecret (bff : Bff) (value : Option String) : Bool :=
  value.any fun value => "Bearer ".toList.isPrefixOf value.toList && bff.secret != "" &&
    String.ofList (value.toList.drop 7) == bff.secret

/-- The one field a body may have. -/
def batchIdOf (bff : Bff) (value : JsonValue) : Option Nat :=
  match value with
  | .obj fields =>
    if fields ≠ [] ∧ fields.all fun field => field.1 == "batchId".toList then
      match value.field "batchId" with
      | some (.str text) => bff.objectId (String.ofList text)
      | _ => none
    else none
  | _ => none

/-! ### What is thrown and answered -/

/-- A thrown value, as the handler looks at it. `message` is an `Error`'s. -/
structure Thrown where
  invalidSource : Bool
  unparsed : Bool
  message : Option (List Char)
  statusCode : Option Int
  deriving DecidableEq, Repr

def thrownError (message : String) : Thrown := ⟨false, false, some message.toList, none⟩

def invalidMemoryBatchSource : Thrown := ⟨true, false, some [], none⟩

def asciiLower (c : Char) : Char := if 'A' ≤ c ∧ c ≤ 'Z' then Char.ofNat (c.toNat + 32) else c

def occurs (needle text : List Char) : Bool := text.tails.any fun rest => needle.isPrefixOf rest

def isLineTerminator (c : Char) : Bool := c == '\n' || c == '\r' || c == '\u2028' || c == '\u2029'

/-- `/AI_BASE_URL|AI_API_KEY|AI_MODEL|schema|structured|output.*invalid|refus/i` -/
def terminalMessage (message : List Char) : Bool :=
  let text := message.map asciiLower
  ["ai_base_url", "ai_api_key", "ai_model", "schema", "structured", "refus"].any (fun word => occurs word.toList text) ||
    text.tails.any fun rest => "output".toList.isPrefixOf rest &&
      occurs "invalid".toList ((rest.drop 6).takeWhile fun c => !isLineTerminator c)

def isTerminalModelError (error : Thrown) : Bool :=
  error.invalidSource || error.unparsed || error.message.any terminalMessage

def providerStatus (error : Thrown) : Option Int := error.statusCode

/-- A response: its status, and the one field of its body. -/
structure Answer where
  status : Nat
  body : Option (String × String)
  deriving DecidableEq, Repr

def unauthorized : Answer := ⟨401, some ("error", "unauthorized")⟩
def malformed : Answer := ⟨400, some ("error", "invalid memory batch")⟩
def nothingToDo : Answer := ⟨204, none⟩
def busy : Answer := ⟨202, none⟩
def complete : Answer := ⟨201, some ("status", "complete")⟩
def invalidBatch : Answer := ⟨422, some ("error", "invalid memory batch")⟩
def unavailable : Answer := ⟨503, some ("error", "memory batch unavailable")⟩

/-- The answer to what was thrown. -/
def refusal (error : Thrown) : Answer :=
  if isTerminalModelError error then invalidBatch
  else
    match providerStatus error with
    | some status => if 400 ≤ status ∧ status < 500 ∧ status ≠ 408 ∧ status ≠ 429 then invalidBatch else unavailable
    | none => unavailable

/-! ### Calls -/

inductive Loaded where
  | missing
  | invalidSource
  | batch (batch : Batch) (messages : List MessageRow)

/-- `loadMemoryBatch`, with the messages it returns and the batch it throws for. -/
def loadedOf (s : Memory.State) (id : Nat) (now : Time) : Loaded :=
  match s.batches.find? fun batch => batch.id == id && batch.state == .processing && batch.leaseLive now with
  | none => .missing
  | some batch =>
    let sources := (s.messages.filter fun row => sourceRow batch row && !row.revoked).insertionSort rowLe
    if batch.sourceWaMessageIds.length ≠ batch.sourceCount then .missing
    else if sources.length ≠ batch.sourceCount then .invalidSource
    else .batch batch sources

/-- Where `resolveAuthorizationRevokedMemoryBatch` returns true, with the state it leaves. -/
def authorizationRevoked (s : Memory.State) (batch : Batch) (workToken : Option Nat) (now : Time) : Option Memory.State :=
  match batch.lease, groupRow s batch.scope with
  | some lease, some group =>
    if group.config.eligible then none else insertSummary s batch lease.token workToken "" batch.sourceCount now
  | _, _ => none

/-- Where `resolveRevokedMemoryBatch` returns true, with the state it leaves. -/
def sourcesRevoked (s : Memory.State) (id : Nat) (now : Time) : Option Memory.State :=
  match s.batches.find? fun batch => batch.id == id && batch.state == .processing && batch.leaseLive now with
  | none => none
  | some batch =>
    match batch.lease with
    | none => none
    | some lease =>
      if s.messages.any fun row => sourceRow batch row && row.revoked then
        insertSummary s batch lease.token none "" batch.sourceCount now
      else none

theorem loadMemoryBatch_eq (s : Memory.State) (id : Nat) (now : Time) :
    loadMemoryBatch s id now = match loadedOf s id now with | .batch batch _ => some batch | _ => none := by
  unfold loadMemoryBatch loadedOf
  cases s.batches.find? fun batch => batch.id == id && batch.state == .processing && batch.leaseLive now with
  | none => rfl
  | some batch =>
    dsimp only
    rw [List.length_insertionSort]
    by_cases listed : batch.sourceWaMessageIds.length = batch.sourceCount
    · by_cases present : (s.messages.filter fun row => sourceRow batch row && !row.revoked).length = batch.sourceCount
      · rw [if_pos ⟨listed, present⟩, if_neg (not_not.mpr listed), if_neg (not_not.mpr present)]
      · rw [if_neg fun both => present both.2, if_neg (not_not.mpr listed), if_pos present]
    · rw [if_neg fun both => listed both.1, if_pos listed]

theorem authorizationRevoked_eq (s : Memory.State) (batch : Batch) (workToken : Option Nat) (now : Time) :
    resolveAuthorizationRevokedMemoryBatch s batch workToken now = (authorizationRevoked s batch workToken now).getD s := by
  unfold resolveAuthorizationRevokedMemoryBatch authorizationRevoked
  cases batch.lease with
  | none => rfl
  | some lease =>
    cases groupRow s batch.scope with
    | none => rfl
    | some group =>
      dsimp only
      split <;> rfl

theorem sourcesRevoked_eq (s : Memory.State) (id : Nat) (now : Time) :
    resolveRevokedMemoryBatch s id now = (sourcesRevoked s id now).getD s := by
  unfold resolveRevokedMemoryBatch sourcesRevoked
  cases s.batches.find? fun batch => batch.id == id && batch.state == .processing && batch.leaseLive now with
  | none => rfl
  | some batch =>
    dsimp only
    cases batch.lease with
    | none => rfl
    | some lease =>
      dsimp only
      split <;> rfl

/-! ### Requests -/

/-- What a request awaits. `output` is the model's, or none where the summary is there already. -/
inductive Stage where
  | waiting
  | loading
  | authorizing
  | resolvingLoaded
  | claiming
  | taking (configVersion : Int)
  | looking
  | rereading
  | resolving (completed : Bool)
  | summarizing
  | settling (output : Option String)
  | completing (output : Option String)
  | checking
  | catching (error : Thrown)
  | releasing (error : Thrown)
  | redacting (error : Thrown)
  | answered (answer : Answer)
  | crashed

structure Request where
  stage : Stage
  id : Nat
  messages : List MessageRow
  claimed : Bool
  configVersion : Int
  workExpiresAt : Time
  /-- The signal. Whatever sets `renewalLost` aborts it too. -/
  aborted : Bool
  /-- Renewals of the chain that have not settled. -/
  renewing : Nat
  /-- Renewals given up at their deadline that may still land. -/
  loose : Nat

def Request.initial : Request := ⟨.waiting, 0, [], false, 0, 0, false, 0, 0⟩

structure State where
  store : Memory.State
  requests : Nat → Request

def start (config : Config.State) : State := ⟨Memory.start config, fun _ => .initial⟩

/-- How a call to MongoDB comes back. An unanswered one has landed. -/
inductive Call where
  | answered
  | unanswered (error : Thrown)
  | failed (error : Thrown)

inductive Event where
  | store (event : Memory.Event)
  | post (caller : Nat) (authorization : Option String) (body : Option JsonValue)
  /-- The call the request awaits comes back. -/
  | turn (caller : Nat) (call : Call) (now : Time)
  | model (caller : Nat) (result : Except Thrown String)
  | tick (caller : Nat)
  | renew (caller : Nat) (call : Call) (now : Time)
  | land (caller : Nat) (now : Time)
  | watchdog (caller : Nat) (now : Time)
  | disconnect (caller : Nat)

/-- What the requests leave to others. -/
def foreign : Memory.Event → Bool
  | .load _ _ _ | .readGroup _ | .claimWork _ _ | .renewWork _ _ | .releaseWork _ _ | .complete _ _ _
  | .resolveAuthorizationRevoked _ _ | .resolveRevoked _ _ | .stopSession _ => false
  | _ => true

def State.put (s : State) (caller : Nat) (request : Request) : State :=
  { s with requests := Function.update s.requests caller request }

def State.send (s : State) (event : Memory.Event) : State := { s with store := Memory.step s.store event }

def State.to (s : State) (caller : Nat) (stage : Stage) : State := s.put caller { s.requests caller with stage }

/-- The batch of a session that has loaded one. -/
def batchOf : Session → Option Batch
  | .idle => none
  | .loaded batch | .eligible batch _ | .working batch _ => some batch

def eligibleNow (s : Memory.State) (scope : GroupKey) : Bool := (groupRow s scope).any (·.config.eligible)

/-- After `claimed` is released, if it was. -/
def State.refuse (s : State) (caller : Nat) (error : Thrown) : State :=
  if error.invalidSource then s.to caller (.redacting error) else s.to caller (.answered (refusal error))

def State.load (s : State) (caller : Nat) (now : Time) : State :=
  let request := s.requests caller
  match loadedOf s.store request.id now with
  | .missing => (s.send (.load caller request.id now)).to caller (.answered nothingToDo)
  | .invalidSource => (s.send (.load caller request.id now)).to caller (.catching invalidMemoryBatchSource)
  | .batch _ messages => (s.send (.load caller request.id now)).put caller { request with stage := .authorizing, messages }

def State.authorize (s : State) (caller : Nat) (batch : Batch) : State :=
  if eligibleNow s.store batch.scope then
    if (s.requests caller).messages.isEmpty then s.to caller (.answered invalidBatch) else s.to caller .claiming
  else s.to caller .resolvingLoaded

def State.resolveLoaded (s : State) (caller : Nat) (batch : Batch) (call : Call) (now : Time) : State :=
  let sent := s.send (.resolveAuthorizationRevoked caller now)
  match call with
  | .answered =>
    if (authorizationRevoked s.store batch none now).isSome then sent.to caller (.answered complete)
    else sent.to caller (.answered unavailable)
  | .unanswered _ => sent.to caller (.answered unavailable)
  | .failed _ => s.to caller (.answered unavailable)

def State.claim (s : State) (caller : Nat) (batch : Batch) : State :=
  match batch.lease, eligibleRow s.store batch.scope with
  | some _, some group => (s.send (.readGroup caller)).to caller (.taking group.config.version)
  | _, _ => s.to caller (.answered nothingToDo)

def State.take (s : State) (caller : Nat) (batch : Batch) (lease : Lease) (configVersion : Int) (call : Call) (now : Time) :
    State :=
  let work : SummaryWork := ⟨s.store.fresh, min lease.expiresAt (now + summaryWorkLease), configVersion⟩
  let sent := s.send (.claimWork caller now)
  match call with
  | .answered =>
    if (BatchWrite.claimWork batch.scope lease.token now work).hits batch.id s.store.batches then
      sent.put caller { s.requests caller with
        stage := .looking, claimed := true, configVersion, workExpiresAt := work.expiresAt }
    else sent.to caller (.answered busy)
  -- the token is lost with the answer
  | .unanswered error => (sent.send (.stopSession caller)).to caller (.catching error)
  | .failed error => s.to caller (.catching error)

def summaryExists (s : Memory.State) (batch : Batch) : Bool :=
  s.summaries.any fun summary => summary.scope.organizationId == batch.scope.organizationId && summary.batchId == batch.id

def State.reread (s : State) (caller : Nat) (batch : Batch) : State :=
  match groupRow s.store batch.scope with
  | none => s.to caller (.resolving false)
  | some group =>
    if !group.config.eligible then s.to caller (.resolving false)
    else if group.config.version ≠ (s.requests caller).configVersion then
      s.to caller (.catching (thrownError "memory configuration changed"))
    else s.to caller .summarizing

def State.resolve (s : State) (caller : Nat) (batch : Batch) (token : Nat) (completed : Bool) (call : Call) (now : Time) :
    State :=
  let lost := thrownError (if completed then "memory configuration changed" else "memory authorization resolution lost")
  let sent := s.send (.resolveAuthorizationRevoked caller now)
  match call with
  | .answered =>
    if (authorizationRevoked s.store batch (some token) now).isSome then sent.to caller (.answered complete)
    else sent.to caller (.catching lost)
  | .unanswered _ => sent.to caller (.catching lost)
  | .failed _ => s.to caller (.catching lost)

/-- What follows the status `completeMemoryBatch` returned. -/
def completedStage (output : Option String) (status : Completion) : Stage :=
  match output with
  | none => .answered (if status = .lostLease then nothingToDo else complete)
  | some _ => if status = .completed then .answered complete else .checking

def State.complete (s : State) (caller : Nat) (batch : Batch) (lease : Lease) (token : Nat) (output : Option String)
    (call : Call) (now : Time) : State :=
  let status := (completeMemoryBatch s.store batch lease token (output.getD "") now).2
  let sent := s.send (.complete caller (output.getD "") now)
  match call with
  | .answered => sent.to caller (completedStage output status)
  | .unanswered _ => sent.to caller (completedStage output .lostLease)
  | .failed _ => s.to caller (completedStage output .lostLease)

def State.release (s : State) (caller : Nat) (error : Thrown) (call : Call) (now : Time) : State :=
  let sent := s.send (.releaseWork caller now)
  match call with
  | .answered => sent.refuse caller error
  | .unanswered _ => sent.to caller .crashed
  | .failed _ => s.to caller .crashed

def State.redact (s : State) (caller : Nat) (error : Thrown) (call : Call) (now : Time) : State :=
  let id := (s.requests caller).id
  let sent := s.send (.resolveRevoked id now)
  match call with
  | .answered =>
    if (sourcesRevoked s.store id now).isSome then sent.to caller (.answered Callback.complete)
    else sent.to caller (.answered (refusal error))
  | .unanswered _ => sent.to caller (.answered (refusal error))
  | .failed _ => s.to caller (.answered (refusal error))

/-- A read that fails is thrown. -/
def State.read (s : State) (caller : Nat) (call : Call) (next : State) : State :=
  match call with
  | .answered => next
  | .unanswered error | .failed error => s.to caller (.catching error)

def State.turn (s : State) (caller : Nat) (call : Call) (now : Time) : State :=
  let request := s.requests caller
  match request.stage, s.store.sessions caller with
  | .loading, _ => s.read caller call (s.load caller now)
  | .authorizing, .loaded batch => s.read caller call (s.authorize caller batch)
  | .resolvingLoaded, .loaded batch => s.resolveLoaded caller batch call now
  | .claiming, .loaded batch => s.read caller call (s.claim caller batch)
  | .taking configVersion, .eligible batch _ =>
    match batch.lease with
    | none => s
    | some lease => s.take caller batch lease configVersion call now
  | .looking, .working batch _ =>
    s.read caller call (s.to caller (if summaryExists s.store batch then .settling none else .rereading))
  | .rereading, .working batch _ => s.read caller call (s.reread caller batch)
  | .resolving completed, .working batch token => s.resolve caller batch token completed call now
  | .settling output, _ =>
    if 0 < request.renewing then s
    else if request.aborted then s.to caller (.catching (thrownError "memory summary work was lost"))
    else s.to caller (.completing output)
  | .completing output, .working batch token =>
    match batch.lease with
    | none => s
    | some lease => s.complete caller batch lease token output call now
  | .checking, .working batch _ =>
    s.read caller call (s.to caller (if eligibleNow s.store batch.scope then
      .catching (thrownError "memory configuration changed") else .resolving true))
  | .catching error, _ =>
    if 0 < request.renewing then s
    else if request.claimed then s.to caller (.releasing error)
    else s.refuse caller error
  | .releasing error, .working _ _ => s.release caller error call now
  | .redacting error, _ => s.redact caller error call now
  | _, _ => s

/-- Whether the heartbeat's interval is set. -/
def Stage.beating : Stage → Bool
  | .looking | .rereading | .resolving false | .summarizing => true
  | _ => false

def State.renew (s : State) (caller : Nat) (call : Call) (now : Time) : State :=
  let request := s.requests caller
  let sent := s.send (.renewWork caller now)
  let settled := { request with renewing := request.renewing - 1 }
  match s.store.sessions caller with
  | .working batch token =>
    match batch.lease, request.renewing with
    | some lease, _ + 1 =>
      match call with
      | .answered =>
        if (BatchWrite.renewWork batch.scope lease.token token now).hits batch.id s.store.batches then
          let renewed := (sent.store.batches.find? fun stored => stored.id == batch.id).bind Batch.summaryWork
          sent.put caller { settled with workExpiresAt := (renewed.map SummaryWork.expiresAt).getD request.workExpiresAt }
        else sent.put caller { settled with aborted := true }
      | .unanswered _ => s.put caller { settled with aborted := true, loose := request.loose + 1 }
      | .failed _ => s.put caller { settled with aborted := true }
    | _, _ => s
  | _ => s

def step (bff : Bff) (s : State) : Event → State
  | .store event => if foreign event then s.send event else s
  | .post caller authorization body =>
    match (s.requests caller).stage with
    | .waiting =>
      if !sameSecret bff authorization then s.to caller (.answered unauthorized)
      else
        match body.bind (batchIdOf bff) with
        | none => s.to caller (.answered malformed)
        | some id => s.put caller { s.requests caller with stage := .loading, id }
    | _ => s
  | .turn caller call now => s.turn caller call now
  | .model caller result =>
    match (s.requests caller).stage, result with
    | .summarizing, .ok output => s.to caller (.settling (some output))
    | .summarizing, .error error => s.to caller (.catching error)
    | _, _ => s
  | .tick caller =>
    let request := s.requests caller
    if request.stage.beating then s.put caller { request with renewing := request.renewing + 1 } else s
  | .renew caller call now => s.renew caller call now
  | .land caller now =>
    let request := s.requests caller
    match request.loose with
    | 0 => s
    | loose + 1 => (s.send (.renewWork caller now)).put caller { request with loose }
  | .watchdog caller now =>
    let request := s.requests caller
    if request.claimed ∧ request.workExpiresAt - watchdogMargin ≤ now then s.put caller { request with aborted := true } else s
  | .disconnect caller => s.put caller { s.requests caller with aborted := true }

end GroupButler.Memory.Callback
