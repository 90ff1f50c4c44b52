import GroupButler.Memory.Model

/-!
# What one step does

One step sends at most one update to one batch, or completes a batch with a summary it inserts, or
inserts a batch. Everything a step does to batches and summaries is one of these.
-/

namespace GroupButler.Memory
open Foundation Store Ingest

/-- The batch and the tokens an operation was given or loaded. -/
structure Carried where
  id : Nat
  leaseToken : Nat
  workToken : Option Nat

def Session.carried : Session → Option Carried
  | .idle => none
  | .loaded batch | .eligible batch _ => batch.lease.map fun lease => ⟨batch.id, lease.token, none⟩
  | .working batch token => batch.lease.map fun lease => ⟨batch.id, lease.token, some token⟩

def carried (s : State) : Event → Option Carried
  | .heartbeat _ id token _ => some ⟨id, token, none⟩
  | .writeFailing caller _ _ _ _ _ => (s.failing caller).map fun read => ⟨read.id, read.token, none⟩
  | .claimWork caller _ | .renewWork caller _ | .releaseWork caller _ | .complete caller _ _
  | .resolveAuthorizationRevoked caller _ => (s.sessions caller).carried
  | _ => none

/-- A completion, the batch it was sent for and its tokens. -/
inductive Completes (s : State) : Event → Batch → Nat → Option Nat → Time → Prop where
  | work {caller output now batch token lease} (held : s.sessions caller = .working batch token)
    (leased : batch.lease = some lease) :
    Completes s (.complete caller output now) batch lease.token (some token) now
  | revoked {caller now batch lease} (held : s.sessions caller = .loaded batch ∨ ∃ v, s.sessions caller = .eligible batch v)
    (leased : batch.lease = some lease) :
    Completes s (.resolveAuthorizationRevoked caller now) batch lease.token none now
  | revokedWork {caller now batch token lease} (held : s.sessions caller = .working batch token)
    (leased : batch.lease = some lease) :
    Completes s (.resolveAuthorizationRevoked caller now) batch lease.token (some token) now
  | sources {id now batch lease} (stored : batch ∈ s.batches) (named : batch.id = id) (leased : batch.lease = some lease) :
    Completes s (.resolveRevoked id now) batch lease.token none now

/-- The update a step sends to a batch, short of completing it with a summary of its own. -/
inductive Sent (s : State) : Event → BatchWrite → Nat → Prop where
  | claim (organizationId owner now pick) :
    Sent s (.claim organizationId owner now pick) (.claim organizationId now owner s.fresh) pick
  | heartbeat (organizationId id token now) :
    Sent s (.heartbeat organizationId id token now) (.heartbeat organizationId token now) id
  | expireDead (organizationId id now) : Sent s (.expireDead organizationId id now) (.expireDead organizationId now) id
  | expireRetry (organizationId id now) :
    Sent s (.expireRetry organizationId id now) (.expireRetry organizationId now) id
  | fail {caller failureClass code message fraction now read state due} (known : s.failing caller = some read)
    (chosen : state = .dead ∨ state = .retryWait ∧ read.attempts < memoryBatchMaxAttempts) :
    Sent s (.writeFailing caller failureClass code message fraction now)
      (.fail read.organizationId read.token state due ⟨code, message, now⟩ now) read.id
  | claimWork {caller now batch version lease} (held : s.sessions caller = .eligible batch version)
    (leased : batch.lease = some lease) :
    Sent s (.claimWork caller now) (.claimWork batch.scope lease.token now
      ⟨s.fresh, min lease.expiresAt (now + summaryWorkLease), version⟩) batch.id
  | renewWork {caller now batch token lease} (held : s.sessions caller = .working batch token)
    (leased : batch.lease = some lease) :
    Sent s (.renewWork caller now) (.renewWork batch.scope lease.token token now) batch.id
  | releaseWork {caller now batch token lease} (held : s.sessions caller = .working batch token)
    (leased : batch.lease = some lease) :
    Sent s (.releaseWork caller now) (.releaseWork batch.scope lease.token token now) batch.id
  /-- `completeMemoryBatch` found a summary that no complete batch points at. -/
  | relink {e batch leaseToken workToken now existing} (completes : Completes s e batch leaseToken workToken now)
    (found : existing ∈ s.summaries) (names : existing.batchId = batch.id) :
    Sent s e (.complete batch.scope leaseToken workToken now existing.id) batch.id

/-- The token or id an update is the first to store. -/
def BatchWrite.issues : BatchWrite → Option Nat
  | .claim _ _ _ token => some token
  | .claimWork _ _ _ work => some work.token
  | _ => none

inductive Effect (s : State) (e : Event) (next : State) : Prop where
  | untouched (batches : next.batches = s.batches) (summaries : next.summaries = s.summaries)
  | wrote (write id) (sent : Sent s e write id) (batches : next.batches = write.apply id s.batches)
    (summaries : next.summaries = s.summaries) (fresh : ∀ token, write.issues = some token → token < next.fresh)
  | summarized (batch leaseToken workToken text redactions now)
    (completes : Completes s e batch leaseToken workToken now)
    (hits : (BatchWrite.complete batch.scope leaseToken workToken now s.fresh).hits batch.id s.batches = true)
    (batches : next.batches =
      (BatchWrite.complete batch.scope leaseToken workToken now s.fresh).apply batch.id s.batches)
    (summaries : next.summaries = s.summaries ++ [summaryOf batch s.fresh text redactions now])
  | inserted (builder now group watermark oldest rows rest) (event : e = .insert builder now)
    (selected : s.builders builder = .selected group watermark (oldest :: rows) rest)
    (batches : next.batches =
      insertBatch (materialized s.fresh group watermark oldest (oldest :: rows) now) s.batches)
    (summaries : next.summaries = s.summaries) (fresh : next.fresh = s.fresh + 1)

/-- What completing a batch leaves alone. -/
structure Framed (s next : State) : Prop where
  messages : next.messages = s.messages
  builders : next.builders = s.builders
  failing : next.failing = s.failing
  sessions : next.sessions = s.sessions
  fresh : s.fresh ≤ next.fresh

theorem Framed.rfl {s : State} : Framed s s := ⟨.refl _, .refl _, .refl _, .refl _, le_refl _⟩

theorem insertSummary_some {s next : State} {batch : Batch} {leaseToken : Nat} {workToken : Option Nat}
    {text : String} {redactions : Nat} {now : Time}
    (h : insertSummary s batch leaseToken workToken text redactions now = some next) :
    (BatchWrite.complete batch.scope leaseToken workToken now s.fresh).hits batch.id s.batches = true ∧
      next = { s with
        summaries := s.summaries ++ [summaryOf batch s.fresh text redactions now]
        batches := (BatchWrite.complete batch.scope leaseToken workToken now s.fresh).apply batch.id s.batches
        fresh := s.fresh + 1 } := by
  unfold insertSummary at h
  simp only at h
  split at h
  · rename_i admitted
    exact ⟨(Bool.and_eq_true_iff.mp admitted).2, (Option.some.inj h).symm⟩
  · cases h

theorem insertSummary_framed {s : State} {batch : Batch} {leaseToken : Nat} {workToken : Option Nat}
    {text : String} {redactions : Nat} {now : Time} :
    Framed s ((insertSummary s batch leaseToken workToken text redactions now).getD s) := by
  cases inserted : insertSummary s batch leaseToken workToken text redactions now with
  | none => exact Framed.rfl
  | some next =>
    rw [Option.getD_some, (insertSummary_some inserted).2]
    exact ⟨rfl, rfl, rfl, rfl, Nat.le_succ _⟩

theorem insertSummary_effect {s : State} {e : Event} {batch : Batch} {leaseToken : Nat} {workToken : Option Nat}
    {text : String} {redactions : Nat} {now : Time} (completes : Completes s e batch leaseToken workToken now) :
    Effect s e ((insertSummary s batch leaseToken workToken text redactions now).getD s) := by
  cases inserted : insertSummary s batch leaseToken workToken text redactions now with
  | none => exact .untouched rfl rfl
  | some next =>
    obtain ⟨hits, rfl⟩ := insertSummary_some inserted
    exact .summarized batch leaseToken workToken text redactions now completes hits rfl rfl

/-- A completion with a new summary, or without, or none at all. -/
theorem completeMemoryBatch_cases (s : State) (batch : Batch) (lease : Lease) (token : Nat) (output : String)
    (now : Time) :
    (∃ outcome, outcome ≠ .completed ∧ completeMemoryBatch s batch lease token output now = (s, outcome)) ∨
    (∃ existing ∈ s.summaries, existing.batchId = batch.id ∧ ∃ outcome, outcome ≠ .completed ∧
      completeMemoryBatch s batch lease token output now = ({ s with
        batches :=
          (BatchWrite.complete batch.scope lease.token (some token) now existing.id).apply batch.id s.batches },
        outcome)) ∨
    ∃ group, eligibleRow s batch.scope = some group ∧
      (∃ stored work, s.batches.find? (·.id == batch.id) = some stored ∧ stored.summaryWork = some work ∧
        work.token = token ∧ work.configVersion = group.config.version) ∧
      ∃ next, insertSummary { s with config := fence batch.scope group.config.version s.config } batch lease.token
        (some token) output 0 now = some next ∧
        completeMemoryBatch s batch lease token output now = (next, .completed) := by
  unfold completeMemoryBatch
  cases found : s.summaries.find? fun summary => summary.scope == batch.scope && summary.batchId == batch.id with
  | some existing =>
    simp only
    split
    · exact Or.inl ⟨.alreadyComplete, by decide, rfl⟩
    · have named := List.find?_some found
      simp only [Bool.and_eq_true, beq_iff_eq] at named
      refine Or.inr (Or.inl ⟨existing, List.mem_of_find?_eq_some found, named.2, _, ?_, rfl⟩)
      split <;> decide
  | none =>
    simp only
    split
    · rename_i group work eligible claimed
      obtain ⟨stored, read, owned⟩ := Option.bind_eq_some_iff.mp claimed
      split
      · rename_i current
        split
        · rename_i next inserted
          exact Or.inr (Or.inr ⟨group, eligible, ⟨stored, work, read, owned, current⟩, next, inserted, rfl⟩)
        · exact Or.inl ⟨.lostLease, by decide, rfl⟩
      · exact Or.inl ⟨.lostLease, by decide, rfl⟩
    · exact Or.inl ⟨.lostLease, by decide, rfl⟩

theorem completeMemoryBatch_framed (s : State) (batch : Batch) (lease : Lease) (token : Nat) (output : String)
    (now : Time) : Framed s (completeMemoryBatch s batch lease token output now).1 := by
  rcases completeMemoryBatch_cases s batch lease token output now with
    ⟨_, _, same⟩ | ⟨existing, _, _, _, _, same⟩ | ⟨group, _, _, next, inserted, same⟩
  · rw [same]
    exact Framed.rfl
  · rw [same]
    exact ⟨rfl, rfl, rfl, rfl, le_refl _⟩
  · rw [same, (insertSummary_some inserted).2]
    exact ⟨rfl, rfl, rfl, rfl, Nat.le_succ _⟩

theorem completeMemoryBatch_effect {s : State} {e : Event} {batch : Batch} {lease : Lease} {token : Nat}
    {output : String} {now : Time} (completes : Completes s e batch lease.token (some token) now) :
    Effect s e (completeMemoryBatch s batch lease token output now).1 := by
  rcases completeMemoryBatch_cases s batch lease token output now with
    ⟨_, _, same⟩ | ⟨existing, found, names, _, _, same⟩ | ⟨group, _, _, next, inserted, same⟩
  · rw [same]
    exact .untouched rfl rfl
  · rw [same]
    exact .wrote _ _ (.relink completes found names) rfl rfl nofun
  · obtain ⟨hits, shape⟩ := insertSummary_some inserted
    rw [same, shape]
    exact .summarized batch lease.token (some token) output 0 now completes hits rfl rfl

theorem resolveAuthorizationRevoked_cases (s : State) (batch : Batch) (workToken : Option Nat) (now : Time) :
    resolveAuthorizationRevokedMemoryBatch s batch workToken now = s ∨
    ∃ lease, batch.lease = some lease ∧ resolveAuthorizationRevokedMemoryBatch s batch workToken now =
      (insertSummary s batch lease.token workToken "" batch.sourceCount now).getD s := by
  unfold resolveAuthorizationRevokedMemoryBatch
  split
  · rename_i lease group leased _
    split
    · exact Or.inl rfl
    · exact Or.inr ⟨lease, leased, rfl⟩
  · exact Or.inl rfl

theorem resolveAuthorizationRevoked_effect {s : State} {e : Event} {batch : Batch} {workToken : Option Nat} {now : Time}
    (completes : ∀ lease, batch.lease = some lease → Completes s e batch lease.token workToken now) :
    Effect s e (resolveAuthorizationRevokedMemoryBatch s batch workToken now) := by
  rcases resolveAuthorizationRevoked_cases s batch workToken now with same | ⟨lease, leased, same⟩
  · rw [same]
    exact .untouched rfl rfl
  · rw [same]
    exact insertSummary_effect (completes lease leased)

theorem resolveAuthorizationRevoked_framed (s : State) (batch : Batch) (workToken : Option Nat) (now : Time) :
    Framed s (resolveAuthorizationRevokedMemoryBatch s batch workToken now) := by
  rcases resolveAuthorizationRevoked_cases s batch workToken now with same | ⟨lease, _, same⟩
  · rw [same]
    exact Framed.rfl
  · rw [same]
    exact insertSummary_framed

theorem resolveRevoked_cases (s : State) (id : Nat) (now : Time) :
    resolveRevokedMemoryBatch s id now = s ∨
    ∃ batch ∈ s.batches, ∃ lease, batch.id = id ∧ batch.lease = some lease ∧ resolveRevokedMemoryBatch s id now =
      (insertSummary s batch lease.token none "" batch.sourceCount now).getD s := by
  unfold resolveRevokedMemoryBatch
  split
  · exact Or.inl rfl
  · rename_i batch found
    have named := List.find?_some found
    simp only [Bool.and_eq_true, beq_iff_eq] at named
    split
    · exact Or.inl rfl
    · rename_i lease leased
      split
      · exact Or.inr ⟨batch, List.mem_of_find?_eq_some found, lease, named.1.1, leased, rfl⟩
      · exact Or.inl rfl

theorem resolveRevoked_effect (s : State) (id : Nat) (now : Time) :
    Effect s (.resolveRevoked id now) (resolveRevokedMemoryBatch s id now) := by
  rcases resolveRevoked_cases s id now with same | ⟨batch, stored, lease, named, leased, same⟩
  · rw [same]
    exact .untouched rfl rfl
  · rw [same]
    exact insertSummary_effect (.sources stored named leased)

theorem resolveRevoked_framed (s : State) (id : Nat) (now : Time) :
    Framed s (resolveRevokedMemoryBatch s id now) := by
  rcases resolveRevoked_cases s id now with same | ⟨batch, _, lease, _, _, same⟩
  · rw [same]
    exact Framed.rfl
  · rw [same]
    exact insertSummary_framed

theorem issued_fresh {fresh : Nat} : ∀ token, some fresh = some token → token < fresh + 1 := by
  intro token same
  obtain rfl := Option.some.inj same
  exact Nat.lt_succ_self _

theorem step_effect (s : State) (e : Event) : Effect s e (step s e) := by
  cases e with
  | config event => exact .untouched rfl rfl
  | save doc => exact .untouched rfl rfl
  | revoke key => exact .untouched rfl rfl
  | scan builder organizationId => exact .untouched rfl rfl
  | checkOutstanding builder =>
    simp only [step]
    split
    · split <;> exact .untouched rfl rfl
    · exact .untouched rfl rfl
  | readWatermark builder =>
    simp only [step]
    split <;> exact .untouched rfl rfl
  | select builder =>
    simp only [step]
    split
    · split <;> exact .untouched rfl rfl
    · exact .untouched rfl rfl
  | insert builder now =>
    simp only [step]
    split
    · rename_i group watermark oldest rows rest selected
      exact .inserted builder now group watermark oldest rows rest rfl selected rfl rfl rfl
    · exact .untouched rfl rfl
  | stopBuilder builder => exact .untouched rfl rfl
  | claim organizationId owner now pick =>
    simp only [step]
    split
    · exact .wrote _ _ (.claim organizationId owner now pick) rfl rfl issued_fresh
    · exact .untouched rfl rfl
  | heartbeat organizationId id token now => exact .wrote _ _ (.heartbeat organizationId id token now) rfl rfl nofun
  | expireDead organizationId id now => exact .wrote _ _ (.expireDead organizationId id now) rfl rfl nofun
  | expireRetry organizationId id now => exact .wrote _ _ (.expireRetry organizationId id now) rfl rfl nofun
  | readFailing caller organizationId id token =>
    simp only [step]
    split <;> exact .untouched rfl rfl
  | writeFailing caller failureClass code message fraction now =>
    simp only [step]
    split
    · exact .untouched rfl rfl
    · rename_i read known
      split
      · exact .wrote _ _ (.fail known (Or.inl rfl)) rfl rfl nofun
      · rename_i retried
        have spare : read.attempts < memoryBatchMaxAttempts := by
          have := not_or.mp retried
          omega
        exact .wrote _ _ (.fail known (Or.inr ⟨rfl, spare⟩)) rfl rfl nofun
  | load caller id now =>
    simp only [step]
    split <;> exact .untouched rfl rfl
  | readGroup caller =>
    simp only [step]
    split
    · split <;> exact .untouched rfl rfl
    · exact .untouched rfl rfl
  | claimWork caller now =>
    simp only [step]
    split
    · rename_i batch version held
      split
      · exact .untouched rfl rfl
      · rename_i lease leased
        split
        · exact .wrote _ _ (.claimWork held leased) rfl rfl issued_fresh
        · exact .untouched rfl rfl
    · exact .untouched rfl rfl
  | renewWork caller now =>
    simp only [step]
    split
    · rename_i batch token held
      split
      · exact .untouched rfl rfl
      · rename_i lease leased
        exact .wrote _ _ (.renewWork held leased) rfl rfl nofun
    · exact .untouched rfl rfl
  | releaseWork caller now =>
    simp only [step]
    split
    · rename_i batch token held
      split
      · exact .untouched rfl rfl
      · rename_i lease leased
        exact .wrote _ _ (.releaseWork held leased) rfl rfl nofun
    · exact .untouched rfl rfl
  | complete caller output now =>
    simp only [step]
    split
    · rename_i batch token held
      split
      · exact .untouched rfl rfl
      · rename_i lease leased
        exact completeMemoryBatch_effect (.work held leased)
    · exact .untouched rfl rfl
  | resolveAuthorizationRevoked caller now =>
    simp only [step]
    split
    · rename_i batch held
      exact resolveAuthorizationRevoked_effect fun lease leased => .revoked (Or.inl held) leased
    · rename_i batch version held
      exact resolveAuthorizationRevoked_effect fun lease leased => .revoked (Or.inr ⟨version, held⟩) leased
    · rename_i batch token held
      exact resolveAuthorizationRevoked_effect fun lease leased => .revokedWork held leased
    · exact .untouched rfl rfl
  | resolveRevoked id now => exact resolveRevoked_effect s id now
  | stopSession caller => exact .untouched rfl rfl

theorem complete_framed (s : State) (caller : Nat) (output : String) (now : Time) :
    Framed s (step s (.complete caller output now)) := by
  simp only [step]
  split
  · split
    · exact .rfl
    · exact completeMemoryBatch_framed ..
  · exact .rfl

theorem authorization_framed (s : State) (caller : Nat) (now : Time) :
    Framed s (step s (.resolveAuthorizationRevoked caller now)) := by
  simp only [step]
  split
  · exact resolveAuthorizationRevoked_framed ..
  · exact resolveAuthorizationRevoked_framed ..
  · exact resolveAuthorizationRevoked_framed ..
  · exact .rfl

theorem step_fresh (s : State) (e : Event) : s.fresh ≤ (step s e).fresh := by
  cases e with
  | complete caller output now => exact (complete_framed s caller output now).fresh
  | resolveAuthorizationRevoked caller now => exact (authorization_framed s caller now).fresh
  | resolveRevoked id now => exact (resolveRevoked_framed s id now).fresh
  | _ =>
    simp only [step, State.build, State.session, State.write]
    repeat' split
    all_goals first | exact le_refl _ | exact Nat.le_succ _

/-! ### Rows and builders -/

theorem step_messages (s : State) (e : Event) :
    (∃ doc, e = .save doc) ∨ (∃ key, e = .revoke key) ∨ (step s e).messages = s.messages := by
  cases e with
  | save doc => exact Or.inl ⟨doc, rfl⟩
  | revoke key => exact Or.inr (Or.inl ⟨key, rfl⟩)
  | complete caller output now => exact Or.inr (Or.inr (complete_framed s caller output now).messages)
  | resolveAuthorizationRevoked caller now => exact Or.inr (Or.inr (authorization_framed s caller now).messages)
  | resolveRevoked id now => exact Or.inr (Or.inr (resolveRevoked_framed s id now).messages)
  | _ =>
    refine Or.inr (Or.inr ?_)
    simp only [step, State.build, State.session, State.write]
    repeat' split
    all_goals rfl

/-- A stored row keeps its identity, and only a save adds one. -/
theorem step_rows (s : State) (e : Event) :
    (step s e).messages.map MessageRow.identity = s.messages.map MessageRow.identity ∨
      ∃ doc, e = .save doc ∧ (∀ row ∈ s.messages, row.key ≠ doc.val.key) ∧
        (step s e).messages = s.messages ++ [freshRow doc.val] := by
  rcases step_messages s e with ⟨doc, rfl⟩ | ⟨key, rfl⟩ | same
  · rcases saveOne_identities s.messages doc.val with same | ⟨absent, saved⟩
    · exact Or.inl same
    · exact Or.inr ⟨doc, rfl, absent, saved⟩
  · exact Or.inl (map_updateOne fun _ _ _ => rfl)
  · rw [same]
    exact Or.inl rfl

/-- Where a row comes from. No step shows a row again that was revoked. -/
theorem step_row {s : State} {e : Event} {row : MessageRow} (member : row ∈ (step s e).messages) :
    (∃ old ∈ s.messages, old.identity = row.identity ∧ (row.revoked = false → old.revoked = false)) ∨
      ∃ doc, e = .save doc ∧ (∀ old ∈ s.messages, old.key ≠ doc.val.key) ∧ row = freshRow doc.val := by
  rcases step_messages s e with ⟨doc, rfl⟩ | ⟨key, rfl⟩ | same
  · rcases mem_upsertOne member with old | ⟨old, stored, _, rfl⟩ | ⟨absent, rfl⟩
    · exact Or.inl ⟨row, old, rfl, id⟩
    · exact Or.inl ⟨old, stored, rfl, id⟩
    · exact Or.inr ⟨doc, rfl, by simpa using absent, rfl⟩
  · rcases mem_updateOne member with old | ⟨old, stored, _, rfl⟩
    · exact Or.inl ⟨row, old, rfl, id⟩
    · exact Or.inl ⟨old, stored, rfl, nofun⟩
  · exact Or.inl ⟨row, same ▸ member, rfl, id⟩

/-- What a builder's own step makes of it. -/
inductive Built (s : State) (builder : Nat) : Builder → Prop where
  | idle : Built s builder .idle
  | scanned (groups) : Built s builder (.scanned groups)
  | unblocked (group rest) : Built s builder (.unblocked group rest)
  | marked (group rest) : Built s builder (.marked group (completedWatermark s.batches group) rest)
  | selected {group watermark rest} (held : s.builders builder = .marked group watermark rest) :
    Built s builder (.selected group watermark (nextMessages s.messages group watermark) rest)

theorem build_cases {s : State} {builder other : Nat} {next : Builder} (built : Built s builder next) :
    (s.build builder next).builders other = s.builders other ∨ Built s other ((s.build builder next).builders other) := by
  by_cases same : other = builder
  · subst same
    exact Or.inr (by simpa [State.build] using built)
  · exact Or.inl (by simp [State.build, same])

theorem step_builder (s : State) (e : Event) (builder : Nat) :
    (step s e).builders builder = s.builders builder ∨
      Built s builder ((step s e).builders builder) ∧ (step s e).messages = s.messages := by
  cases e with
  | scan other organizationId => exact (build_cases (.scanned _)).imp_right (⟨·, rfl⟩)
  | checkOutstanding other =>
    simp only [step]
    split
    · split
      · exact (build_cases (.scanned _)).imp_right (⟨·, rfl⟩)
      · exact (build_cases (.unblocked _ _)).imp_right (⟨·, rfl⟩)
    · exact Or.inl rfl
  | readWatermark other =>
    simp only [step]
    split
    · exact (build_cases (.marked _ _)).imp_right (⟨·, rfl⟩)
    · exact Or.inl rfl
  | select other =>
    simp only [step]
    split
    · rename_i group watermark rest held
      split
      · exact (build_cases (.scanned _)).imp_right (⟨·, rfl⟩)
      · exact (build_cases (.selected held)).imp_right (⟨·, rfl⟩)
    · exact Or.inl rfl
  | insert other now =>
    simp only [step]
    split
    · exact (build_cases (.scanned _)).imp_right (⟨·, rfl⟩)
    · exact Or.inl rfl
  | stopBuilder other => exact (build_cases .idle).imp_right (⟨·, rfl⟩)
  | complete caller output now => exact Or.inl (by rw [(complete_framed s caller output now).builders])
  | resolveAuthorizationRevoked caller now => exact Or.inl (by rw [(authorization_framed s caller now).builders])
  | resolveRevoked id now => exact Or.inl (by rw [step, (resolveRevoked_framed s id now).builders])
  | _ =>
    refine Or.inl ?_
    simp only [step, State.session, State.write]
    repeat' split
    all_goals rfl

/-! ### What becomes of each batch -/

@[simp] theorem change_id (write : BatchWrite) (batch : Batch) : (write.change batch).id = batch.id := by
  cases write <;> rfl

@[simp] theorem change_scope (write : BatchWrite) (batch : Batch) : (write.change batch).scope = batch.scope := by
  cases write <;> rfl

/-- The fields no update writes. -/
structure SameRange (batch next : Batch) : Prop where
  id : next.id = batch.id
  scope : next.scope = batch.scope
  first : next.first = batch.first
  last : next.last = batch.last
  predecessor : next.predecessor = batch.predecessor
  sources : next.sourceWaMessageIds = batch.sourceWaMessageIds

theorem change_sameRange (write : BatchWrite) (batch : Batch) : SameRange batch (write.change batch) := by
  cases write <;> exact ⟨rfl, rfl, rfl, rfl, rfl, rfl⟩

/-- What the update of batch `id` makes of a batch. -/
def BatchWrite.at (write : BatchWrite) (id : Nat) (batch : Batch) : Batch :=
  if batch.id == id && write.filter batch then write.change batch else batch

theorem at_cases (write : BatchWrite) (id : Nat) (batch : Batch) :
    write.at id batch = batch ∨ batch.id = id ∧ write.filter batch = true ∧ write.at id batch = write.change batch := by
  unfold BatchWrite.at
  split
  · rename_i matched
    simp only [Bool.and_eq_true, beq_iff_eq] at matched
    exact Or.inr ⟨matched.1, matched.2, rfl⟩
  · exact Or.inl rfl

theorem apply_eq_map {batches : List Batch} (unique : (batches.map Batch.id).Nodup) (write : BatchWrite) (id : Nat) :
    write.apply id batches = batches.map (write.at id) := by
  have named : ∀ batch ∈ batches, (batch.id == id && write.filter batch) = true → batch.id = id := by
    intro batch _ matched
    simp only [Bool.and_eq_true, beq_iff_eq] at matched
    exact matched.1
  exact updateOne_eq_updateMany unique named

theorem hits_iff {batches : List Batch} {write : BatchWrite} {id : Nat} :
    write.hits id batches = true ↔ ∃ batch ∈ batches, batch.id = id ∧ write.filter batch = true := by
  simp [BatchWrite.hits]

/-- What a step made of one stored batch. -/
inductive Move (s : State) (e : Event) (batch : Batch) : Batch → Prop where
  | kept : Move s e batch batch
  | wrote {write} (sent : Sent s e write batch.id) (matched : write.filter batch = true)
    (fresh : ∀ token, write.issues = some token → token < (step s e).fresh) : Move s e batch (write.change batch)
  | completed {loaded leaseToken workToken text redactions now}
    (completes : Completes s e loaded leaseToken workToken now) (named : batch.id = loaded.id)
    (matched : (BatchWrite.complete loaded.scope leaseToken workToken now s.fresh).filter batch = true)
    (summaries : (step s e).summaries = s.summaries ++ [summaryOf loaded s.fresh text redactions now]) :
    Move s e batch ((BatchWrite.complete loaded.scope leaseToken workToken now s.fresh).change batch)

/-- The batch a step inserted. -/
inductive Born (s : State) (e : Event) : Batch → Prop where
  | inserted {builder now group watermark oldest rows rest} (event : e = .insert builder now)
    (selected : s.builders builder = .selected group watermark (oldest :: rows) rest)
    (fresh : (step s e).fresh = s.fresh + 1)
    (free : ∀ old ∈ s.batches, old.scope = group → old.predecessor ≠ predecessorOf watermark) :
    Born s e (materialized s.fresh group watermark oldest (oldest :: rows) now)

theorem step_moves {s : State} (unique : (s.batches.map Batch.id).Nodup) (e : Event) :
    ∃ move : Batch → Batch, ∃ born : Option Batch, (∀ batch ∈ s.batches, Move s e batch (move batch)) ∧
      (∀ batch, born = some batch → Born s e batch) ∧ (step s e).batches = s.batches.map move ++ born.toList := by
  cases step_effect s e with
  | untouched batches summaries =>
    exact ⟨id, none, fun batch _ => .kept, by simp, by simpa using batches⟩
  | wrote write id sent batches summaries fresh =>
    refine ⟨write.at id, none, ?_, by simp, by simpa using batches.trans (apply_eq_map unique write id)⟩
    intro batch _
    rcases at_cases write id batch with same | ⟨rfl, matched, same⟩
    · rw [same]
      exact .kept
    · rw [same]
      exact .wrote sent matched fresh
  | summarized loaded leaseToken workToken text redactions now completes hits batches summaries =>
    let write := BatchWrite.complete loaded.scope leaseToken workToken now s.fresh
    refine ⟨write.at loaded.id, none, ?_, by simp, by simpa using batches.trans (apply_eq_map unique write loaded.id)⟩
    intro batch _
    rcases at_cases write loaded.id batch with same | ⟨named, matched, same⟩
    · rw [same]
      exact .kept
    · rw [same]
      exact .completed completes named matched summaries
  | inserted builder now group watermark oldest rows rest event selected batches summaries fresh =>
    unfold insertBatch at batches
    split at batches
    · exact ⟨id, none, fun batch _ => .kept, by simp, by simpa using batches⟩
    · rename_i absent
      refine ⟨id, some _, fun batch _ => .kept, ?_, by simpa using batches⟩
      intro batch same
      obtain rfl := Option.some.inj same
      refine .inserted event selected fresh ?_
      intro old stored sameScope samePredecessor
      apply absent
      refine List.any_eq_true.mpr ⟨old, stored, ?_⟩
      simp [materialized, sameScope, samePredecessor]

theorem Move.sameRange {s : State} {e : Event} {batch next : Batch} (move : Move s e batch next) :
    SameRange batch next := by
  cases move with
  | kept => exact ⟨rfl, rfl, rfl, rfl, rfl, rfl⟩
  | wrote sent matched fresh => exact change_sameRange _ batch
  | completed completes named matched summaries => exact change_sameRange _ batch

end GroupButler.Memory
