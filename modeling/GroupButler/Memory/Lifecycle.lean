import GroupButler.Memory.Steps

/-!
# The lease state machine

Attempts, lease, state and summary of a batch agree in every reachable state, and an operation
whose token was replaced does nothing.
-/

namespace GroupButler.Memory
open Foundation Store Ingest

/-- Nothing stored yet, and nobody in the middle of anything. -/
def start (config : Config.State) : State where
  config
  messages := []
  batches := []
  summaries := []
  builders _ := .idle
  failing _ := none
  sessions _ := .idle
  fresh := 0

/-! ### Ids and tokens -/

structure Batch.Below (bound : Nat) (batch : Batch) : Prop where
  id : batch.id < bound
  lease : ∀ token, batch.leasedBy token = true → token < bound
  work : ∀ work, batch.summaryWork = some work → work.token < bound

structure Numbered (s : State) : Prop where
  unique : (s.batches.map Batch.id).Nodup
  below : ∀ batch ∈ s.batches, batch.Below s.fresh

theorem Numbered.same {s : State} (numbered : Numbered s) {a b : Batch} (ha : a ∈ s.batches) (hb : b ∈ s.batches)
    (same : a.id = b.id) : a = b :=
  List.inj_on_of_nodup_map numbered.unique ha hb same

theorem Batch.Below.mono {bound later : Nat} {batch : Batch} (below : batch.Below bound) (le : bound ≤ later) :
    batch.Below later where
  id := lt_of_lt_of_le below.id le
  lease token held := lt_of_lt_of_le (below.lease token held) le
  work work held := lt_of_lt_of_le (below.work work held) le

theorem leasedBy_iff {batch : Batch} {token : Nat} :
    batch.leasedBy token = true ↔ ∃ lease, batch.lease = some lease ∧ lease.token = token := by
  cases leased : batch.lease <;> simp [Batch.leasedBy, leased]

/-- Only a claim stores a new lease, and only a claim raises the attempts. -/
theorem change_leasedBy {write : BatchWrite} {batch : Batch} {token : Nat}
    (held : (write.change batch).leasedBy token = true) :
    (batch.leasedBy token = true ∧ (write.change batch).attempts = batch.attempts) ∨
      ∃ organizationId now owner, write = .claim organizationId now owner token := by
  cases write with
  | claim organizationId now owner issued =>
    obtain rfl : issued = token := by simpa [BatchWrite.change, Batch.leasedBy] using held
    exact Or.inr ⟨organizationId, now, owner, rfl⟩
  | heartbeat organizationId sent now =>
    obtain ⟨lease, leased, same⟩ := leasedBy_iff.mp held
    obtain ⟨old, stored, rfl⟩ := Option.map_eq_some_iff.mp leased
    exact Or.inl ⟨leasedBy_iff.mpr ⟨old, stored, same⟩, rfl⟩
  | expireDead organizationId now => simp [BatchWrite.change, Batch.leasedBy] at held
  | expireRetry organizationId now => simp [BatchWrite.change, Batch.leasedBy] at held
  | fail organizationId sent state due failure now => simp [BatchWrite.change, Batch.leasedBy] at held
  | claimWork scope lease now work => exact Or.inl ⟨held, rfl⟩
  | renewWork scope lease work now => exact Or.inl ⟨held, rfl⟩
  | releaseWork scope lease work now => exact Or.inl ⟨held, rfl⟩
  | complete scope lease work now summaryId => simp [BatchWrite.change, Batch.leasedBy] at held

theorem change_work {write : BatchWrite} {batch : Batch} {work : SummaryWork}
    (held : (write.change batch).summaryWork = some work) :
    (∃ old, batch.summaryWork = some old ∧ old.token = work.token ∧ old.configVersion = work.configVersion) ∨
      ∃ scope leaseToken now, write = .claimWork scope leaseToken now work := by
  cases write with
  | claimWork scope lease now issued =>
    obtain rfl := Option.some.inj held
    exact Or.inr ⟨scope, lease, now, rfl⟩
  | renewWork scope lease token now =>
    obtain ⟨old, stored, rfl⟩ := Option.map_eq_some_iff.mp held
    exact Or.inl ⟨old, stored, rfl, rfl⟩
  | releaseWork scope lease token now => cases held
  | complete scope lease token now summaryId => cases held
  | _ => exact Or.inl ⟨work, held, rfl, rfl⟩

theorem change_below {write : BatchWrite} {batch : Batch} {bound later : Nat} (below : batch.Below bound)
    (le : bound ≤ later) (fresh : ∀ token, write.issues = some token → token < later) :
    (write.change batch).Below later where
  id := by
    rw [change_id]
    exact lt_of_lt_of_le below.id le
  lease token held := by
    rcases change_leasedBy held with ⟨old, _⟩ | ⟨organizationId, now, owner, rfl⟩
    · exact lt_of_lt_of_le (below.lease token old) le
    · exact fresh token rfl
  work work held := by
    rcases change_work held with ⟨old, stored, same, _⟩ | ⟨scope, leaseToken, now, rfl⟩
    · rw [← same]
      exact lt_of_lt_of_le (below.work old stored) le
    · exact fresh _ rfl

theorem Move.below {s : State} {e : Event} {batch next : Batch} (move : Move s e batch next)
    (below : batch.Below s.fresh) (le : s.fresh ≤ (step s e).fresh) : next.Below (step s e).fresh := by
  cases move with
  | kept => exact below.mono le
  | wrote sent matched fresh => exact change_below below le fresh
  | completed completes named matched summaries => exact change_below below le nofun

theorem Born.below {s : State} {e : Event} {batch : Batch} (born : Born s e batch) :
    batch.Below (step s e).fresh := by
  cases born with
  | inserted event selected fresh free =>
    rw [fresh]
    exact {
      id := Nat.lt_succ_self _
      lease token held := by simp [materialized, Batch.leasedBy] at held
      work work held := by simp [materialized] at held }

theorem Born.id {s : State} {e : Event} {batch : Batch} (born : Born s e batch) : batch.id = s.fresh := by
  cases born
  rfl

theorem start_numbered (config : Config.State) : Numbered (start config) := ⟨List.nodup_nil, by simp [start]⟩

/-- The stored batch a batch of the next state comes from. -/
theorem step_origin {s : State} (numbered : Numbered s) {e : Event} {next : Batch}
    (member : next ∈ (step s e).batches) : (∃ batch ∈ s.batches, Move s e batch next) ∨ Born s e next := by
  obtain ⟨move, born, moved, fresh, batches⟩ := step_moves numbered.unique e
  rw [batches] at member
  rcases List.mem_append.mp member with old | new
  · obtain ⟨batch, stored, rfl⟩ := List.mem_map.mp old
    exact Or.inl ⟨batch, stored, moved batch stored⟩
  · exact Or.inr (fresh next (by simpa using new))

theorem step_next {s : State} (numbered : Numbered s) (e : Event) {batch : Batch} (stored : batch ∈ s.batches) :
    ∃ next ∈ (step s e).batches, Move s e batch next := by
  obtain ⟨move, born, moved, _, batches⟩ := step_moves numbered.unique e
  refine ⟨move batch, ?_, moved batch stored⟩
  rw [batches]
  exact List.mem_append_left _ (List.mem_map_of_mem stored)

theorem step_numbered {s : State} (e : Event) (numbered : Numbered s) : Numbered (step s e) where
  unique := by
    obtain ⟨move, born, moved, fresh, batches⟩ := step_moves numbered.unique e
    have ids : (s.batches.map move).map Batch.id = s.batches.map Batch.id := by
      rw [List.map_map]
      exact List.map_congr_left fun batch stored => (moved batch stored).sameRange.id
    rw [batches, List.map_append, ids]
    cases born with
    | none => simpa using numbered.unique
    | some new =>
      refine List.nodup_append.mpr ⟨numbered.unique, List.nodup_singleton _, ?_⟩
      intro id old other new same
      obtain ⟨batch, stored, rfl⟩ := List.mem_map.mp old
      obtain rfl : other = _ := by simpa using new
      rw [(fresh _ rfl).id] at same
      exact absurd (numbered.below batch stored).id (by omega)
  below := by
    intro next member
    rcases step_origin numbered member with ⟨batch, stored, move⟩ | born
    · exact move.below (numbered.below batch stored) (step_fresh s e)
    · exact born.below

/-! ### Failing -/

/-- Whoever is failing a batch still has its attempts right, as long as it has the lease. -/
def FailingCurrent (s : State) : Prop :=
  ∀ caller read, s.failing caller = some read → read.token < s.fresh ∧
    ∀ batch ∈ s.batches, batch.id = read.id → batch.leasedBy read.token = true → batch.attempts = read.attempts

theorem Move.attempts {s : State} {e : Event} {batch next : Batch} (move : Move s e batch next) {token : Nat}
    (old : token < s.fresh) (held : next.leasedBy token = true) :
    batch.leasedBy token = true ∧ next.attempts = batch.attempts := by
  cases move with
  | kept => exact ⟨held, rfl⟩
  | wrote sent matched fresh =>
    rcases change_leasedBy held with kept | ⟨organizationId, now, owner, rfl⟩
    · exact kept
    · cases sent
      exact absurd old (lt_irrefl _)
  | completed completes named matched summaries => simp [BatchWrite.change, Batch.leasedBy] at held

theorem step_failing {s : State} {e : Event} {caller : Nat} {read : FailRead}
    (known : (step s e).failing caller = some read) :
    s.failing caller = some read ∨
      (step s e).batches = s.batches ∧ (∃ batch ∈ s.batches, batch.id = read.id ∧ batch.leasedBy read.token = true ∧
        batch.attempts = read.attempts) := by
  cases e with
  | readFailing reader organizationId id token =>
    simp only [step] at known ⊢
    split at known
    · by_cases same : caller = reader
      · simp [same] at known
      · exact Or.inl (by simpa [same] using known)
    · rename_i batch found
      by_cases same : caller = reader
      · have stored := List.mem_of_find?_eq_some found
        have matched := List.find?_some found
        simp only [Bool.and_eq_true, beq_iff_eq] at matched
        obtain rfl : _ = read := by simpa [same] using known
        exact Or.inr ⟨rfl, batch, stored, matched.1.1.1, matched.2, rfl⟩
      · exact Or.inl (by simpa [same] using known)
  | writeFailing writer failureClass code message fraction now =>
    simp only [step] at known
    split at known
    · exact Or.inl known
    · by_cases same : caller = writer
      · simp [same] at known
      · exact Or.inl (by simpa [same] using known)
  | complete session output now => exact Or.inl (by rwa [(complete_framed s session output now).failing] at known)
  | resolveAuthorizationRevoked session now =>
    exact Or.inl (by rwa [(authorization_framed s session now).failing] at known)
  | resolveRevoked id now => exact Or.inl (by rwa [step, (resolveRevoked_framed ..).failing] at known)
  | _ =>
    simp only [step, State.build, State.session, State.write] at known
    repeat' split at known
    all_goals exact Or.inl known

theorem step_failingCurrent {s : State} (e : Event) (numbered : Numbered s) (current : FailingCurrent s) :
    FailingCurrent (step s e) := by
  intro caller read known
  rcases step_failing known with before | ⟨unchanged, batch, stored, named, held, attempts⟩
  · obtain ⟨old, agrees⟩ := current caller read before
    refine ⟨lt_of_lt_of_le old (step_fresh s e), ?_⟩
    intro next member named held
    rcases step_origin numbered member with ⟨batch, stored, move⟩ | born
    · obtain ⟨heldBefore, same⟩ := move.attempts old held
      rw [same]
      exact agrees batch stored (move.sameRange.id.symm.trans named) heldBefore
    · cases born with
      | inserted event selected fresh free => simp [materialized, Batch.leasedBy] at held
  · refine ⟨lt_of_lt_of_le ((numbered.below batch stored).lease _ held) (step_fresh s e), ?_⟩
    rw [unchanged]
    intro other member sameId _
    obtain rfl := numbered.same stored member (named.trans sameId.symm)
    exact attempts

/-! ### State, lease, attempts and summary of one batch -/

structure Batch.Sound (batch : Batch) : Prop where
  bounded : batch.attempts ≤ memoryBatchMaxAttempts
  leased : batch.lease.isSome = true ↔ batch.state = .processing
  retried : batch.state = .retryWait → batch.attempts < memoryBatchMaxAttempts
  summarized : batch.summaryId.isSome = true ↔ batch.state = .complete

theorem liveFilter_iff {scope : GroupKey} {leaseToken : Nat} {workToken : Option Nat} {now : Time} {batch : Batch} :
    liveFilter scope leaseToken workToken now batch = true ↔
      batch.scope = scope ∧ batch.state = .processing ∧ batch.leasedBy leaseToken = true ∧ batch.leaseLive now = true ∧
        ∀ token, workToken = some token → ∃ work, batch.summaryWork = some work ∧ work.token = token ∧
          now < work.expiresAt := by
  cases workToken with
  | none => simp [liveFilter, and_assoc]
  | some token => cases working : batch.summaryWork <;> simp [liveFilter, working, and_assoc]

/-- Every update but a claim needs a batch in processing. -/
theorem filter_processing {write : BatchWrite} {batch : Batch} (matched : write.filter batch = true) :
    batch.state = .processing ∨
      (batch.state = .ready ∨ batch.state = .retryWait) ∧ batch.attempts < memoryBatchMaxAttempts ∧
        ∃ organizationId now owner token, write = .claim organizationId now owner token := by
  cases write with
  | claim organizationId now owner token =>
    simp only [BatchWrite.filter, Bool.and_eq_true, Bool.or_eq_true, beq_iff_eq, decide_eq_true_eq] at matched
    exact Or.inr ⟨matched.1.1.1.2, matched.1.1.2, organizationId, now, owner, token, rfl⟩
  | claimWork scope lease now work =>
    exact Or.inl (liveFilter_iff.mp (Bool.and_eq_true_iff.mp matched).1).2.1
  | renewWork scope lease work now => exact Or.inl (liveFilter_iff.mp matched).2.1
  | releaseWork scope lease work now => exact Or.inl (liveFilter_iff.mp matched).2.1
  | complete scope lease work now summaryId => exact Or.inl (liveFilter_iff.mp matched).2.1
  | _ =>
    simp only [BatchWrite.filter, Bool.and_eq_true, beq_iff_eq] at matched
    simp [matched]

theorem Move.absorbed {s : State} {e : Event} {batch next : Batch} (move : Move s e batch next)
    (done : batch.state = .complete ∨ batch.state = .dead) : next = batch := by
  have closed : ∀ write : BatchWrite, write.filter batch ≠ true := by
    intro write matched
    rcases filter_processing matched with still | ⟨open', _⟩
    · rcases done with done | done <;> simp [done] at still
    · rcases done with done | done <;> simp [done] at open'
  cases move with
  | kept => rfl
  | wrote sent matched fresh => exact absurd matched (closed _)
  | completed completes named matched summaries => exact absurd matched (closed _)

theorem complete_sound {batch : Batch} (sound : batch.Sound) (scope : GroupKey) (leaseToken : Nat)
    (workToken : Option Nat) (now : Time) (summaryId : Nat) :
    ((BatchWrite.complete scope leaseToken workToken now summaryId).change batch).Sound where
  bounded := sound.bounded
  leased := by simp [BatchWrite.change]
  retried := by simp [BatchWrite.change]
  summarized := by simp [BatchWrite.change]

theorem Sent.sound {s : State} {e : Event} {write : BatchWrite} {id : Nat} (sent : Sent s e write id)
    (current : FailingCurrent s) {batch : Batch} (stored : batch ∈ s.batches) (named : batch.id = id)
    (sound : batch.Sound) (matched : write.filter batch = true) : (write.change batch).Sound := by
  have unfinished : batch.state ≠ .complete := by
    rcases filter_processing matched with still | ⟨waiting | waiting, _⟩ <;> simp [*]
  have bare : batch.summaryId.isSome = false := by
    simpa using mt sound.summarized.mp unfinished
  cases sent with
  | claim organizationId owner now pick =>
    have spare : batch.attempts < memoryBatchMaxAttempts := by
      rcases filter_processing matched with still | ⟨_, spare, _⟩
      · simp [BatchWrite.filter, still] at matched
      · exact spare
    exact { bounded := spare, leased := by simp [BatchWrite.change], retried := by simp [BatchWrite.change],
            summarized := by simp [BatchWrite.change, bare] }
  | heartbeat organizationId id token now =>
    exact { bounded := sound.bounded, leased := by simpa [BatchWrite.change] using sound.leased,
            retried := sound.retried, summarized := sound.summarized }
  | expireDead organizationId id now =>
    exact { bounded := sound.bounded, leased := by simp [BatchWrite.change], retried := by simp [BatchWrite.change],
            summarized := by simp [BatchWrite.change, bare] }
  | expireRetry organizationId id now =>
    have spare : batch.attempts < memoryBatchMaxAttempts := by
      simp only [BatchWrite.filter, Bool.and_eq_true, decide_eq_true_eq] at matched
      exact matched.2
    exact { bounded := sound.bounded, leased := by simp [BatchWrite.change], retried := fun _ => spare,
            summarized := by simp [BatchWrite.change, bare] }
  | @fail caller failureClass code message fraction now read state due known chosen =>
    simp only [BatchWrite.filter, Bool.and_eq_true] at matched
    have attempts := (current caller read known).2 batch stored named matched.2
    exact { bounded := sound.bounded, leased := by rcases chosen with rfl | ⟨rfl, _⟩ <;> simp [BatchWrite.change],
            retried := by rcases chosen with rfl | ⟨rfl, spare⟩ <;> simp_all [BatchWrite.change],
            summarized := by rcases chosen with rfl | ⟨rfl, _⟩ <;> simp [BatchWrite.change, bare] }
  | claimWork held leased => exact ⟨sound.bounded, sound.leased, sound.retried, sound.summarized⟩
  | renewWork held leased => exact ⟨sound.bounded, sound.leased, sound.retried, sound.summarized⟩
  | releaseWork held leased => exact ⟨sound.bounded, sound.leased, sound.retried, sound.summarized⟩
  | relink completes found names => exact complete_sound sound ..

theorem Move.sound {s : State} {e : Event} {batch next : Batch} (move : Move s e batch next)
    (current : FailingCurrent s) (stored : batch ∈ s.batches) (sound : batch.Sound) : next.Sound := by
  cases move with
  | kept => exact sound
  | wrote sent matched fresh => exact sent.sound current stored rfl sound matched
  | completed completes named matched summaries => exact complete_sound sound ..

/-! ### Summaries -/

/-- A summary of `batch`, which is complete with it. -/
structure Batch.RecordedBy (batch : Batch) (summary : Summary) : Prop where
  id : summary.batchId = batch.id
  scope : summary.scope = batch.scope
  complete : batch.state = .complete
  linked : batch.summaryId = some summary.id

structure Recorded (s : State) : Prop where
  owned : ∀ summary ∈ s.summaries, ∃ batch ∈ s.batches, batch.RecordedBy summary
  recorded : ∀ batch ∈ s.batches, batch.state = .complete → ∃ summary ∈ s.summaries, batch.RecordedBy summary
  single : (s.summaries.map Summary.batchId).Nodup

structure Lifecycle (s : State) : Prop where
  numbered : Numbered s
  failing : FailingCurrent s
  sound : ∀ batch ∈ s.batches, batch.Sound
  recorded : Recorded s

/-- A batch that is not complete has no summary to be found. -/
theorem Lifecycle.unsummarized {s : State} (lifecycle : Lifecycle s) {batch : Batch} (stored : batch ∈ s.batches)
    (unfinished : batch.state ≠ .complete) : ∀ summary ∈ s.summaries, summary.batchId ≠ batch.id := by
  intro summary member same
  obtain ⟨owner, ownerStored, record⟩ := lifecycle.recorded.owned summary member
  obtain rfl := lifecycle.numbered.same ownerStored stored (record.id.symm.trans same)
  exact unfinished record.complete

theorem complete_recorded {batch loaded : Batch} (named : batch.id = loaded.id) {leaseToken id : Nat}
    {workToken : Option Nat} {now : Time}
    (matched : (BatchWrite.complete loaded.scope leaseToken workToken now id).filter batch = true)
    (text : String) (redactions : Nat) :
    ((BatchWrite.complete loaded.scope leaseToken workToken now id).change batch).RecordedBy
      (summaryOf loaded id text redactions now) where
  id := by simp [summaryOf, named]
  scope := by simp [summaryOf, (liveFilter_iff.mp matched).1]
  complete := rfl
  linked := rfl

/-- A batch becomes complete only together with its summary. -/
theorem Move.finished {s : State} {e : Event} {batch next : Batch} (move : Move s e batch next)
    (lifecycle : Lifecycle s) (stored : batch ∈ s.batches) (unfinished : batch.state ≠ .complete)
    (finished : next.state = .complete) : ∃ summary ∈ (step s e).summaries, next.RecordedBy summary := by
  cases move with
  | kept => exact absurd finished unfinished
  | @completed loaded leaseToken workToken text redactions now completes named matched summaries =>
    refine ⟨_, ?_, complete_recorded named matched text redactions⟩
    rw [summaries]
    exact List.mem_append_right _ (List.mem_singleton_self _)
  | @wrote write sent matched fresh =>
    generalize named : batch.id = id at sent
    cases sent with
    | relink completes found names =>
      exact absurd (names.trans named.symm) (lifecycle.unsummarized stored unfinished _ found)
    | claim organizationId owner now pick => cases finished
    | heartbeat organizationId id token now => exact absurd finished unfinished
    | expireDead organizationId id now => cases finished
    | expireRetry organizationId id now => cases finished
    | fail known chosen => rcases chosen with rfl | ⟨rfl, _⟩ <;> cases finished
    | claimWork held leased => exact absurd finished unfinished
    | renewWork held leased => exact absurd finished unfinished
    | releaseWork held leased => exact absurd finished unfinished

/-- A step adds no summary, or the first one of a batch it completes. -/
theorem step_summaries {s : State} (e : Event) (lifecycle : Lifecycle s) :
    (step s e).summaries = s.summaries ∨
    ∃ summary, (step s e).summaries = s.summaries ++ [summary] ∧
      (∀ old ∈ s.summaries, old.batchId ≠ summary.batchId) ∧ ∃ batch ∈ (step s e).batches, batch.RecordedBy summary := by
  cases step_effect s e with
  | untouched batches summaries => exact Or.inl summaries
  | wrote write id sent batches summaries fresh => exact Or.inl summaries
  | inserted builder now group watermark oldest rows rest event selected batches summaries fresh =>
    exact Or.inl summaries
  | summarized loaded leaseToken workToken text redactions now completes hits batches summaries =>
    obtain ⟨batch, stored, named, matched⟩ := hits_iff.mp hits
    have unfinished : batch.state ≠ .complete := by simp [(liveFilter_iff.mp matched).2.1]
    have absent := lifecycle.unsummarized stored unfinished
    rw [named] at absent
    refine Or.inr ⟨_, summaries, absent, _, ?_, complete_recorded named matched text redactions⟩
    rw [batches, apply_eq_map lifecycle.numbered.unique]
    refine List.mem_map.mpr ⟨batch, stored, ?_⟩
    simp [BatchWrite.at, named, matched]

theorem step_recorded {s : State} (e : Event) (lifecycle : Lifecycle s) : Recorded (step s e) := by
  have kept : ∀ summary ∈ s.summaries, ∃ batch ∈ (step s e).batches, batch.RecordedBy summary := by
    intro summary member
    obtain ⟨batch, stored, record⟩ := lifecycle.recorded.owned summary member
    obtain ⟨next, present, move⟩ := step_next lifecycle.numbered e stored
    obtain rfl := move.absorbed (Or.inl record.complete)
    exact ⟨next, present, record⟩
  have grown : ∀ summary ∈ s.summaries, summary ∈ (step s e).summaries := by
    intro summary member
    rcases step_summaries e lifecycle with same | ⟨new, added, _⟩
    · rwa [same]
    · rw [added]
      exact List.mem_append_left _ member
  refine ⟨?_, ?_, ?_⟩
  · intro summary member
    rcases step_summaries e lifecycle with same | ⟨new, added, _, owner⟩
    · exact kept summary (same ▸ member)
    · rw [added] at member
      rcases List.mem_append.mp member with old | isNew
      · exact kept summary old
      · obtain rfl := List.mem_singleton.mp isNew
        exact owner
  · intro next member finished
    rcases step_origin lifecycle.numbered member with ⟨batch, stored, move⟩ | born
    · by_cases before : batch.state = .complete
      · obtain rfl := move.absorbed (Or.inl before)
        obtain ⟨summary, present, record⟩ := lifecycle.recorded.recorded _ stored before
        exact ⟨summary, grown summary present, record⟩
      · exact move.finished lifecycle stored before finished
    · cases born
      cases finished
  · rcases step_summaries e lifecycle with same | ⟨new, added, absent, _⟩
    · rw [same]
      exact lifecycle.recorded.single
    · rw [added, List.map_append]
      refine List.nodup_append.mpr ⟨lifecycle.recorded.single, List.nodup_singleton _, ?_⟩
      intro id old other isNew same
      obtain ⟨summary, member, rfl⟩ := List.mem_map.mp old
      obtain rfl : other = new.batchId := by simpa using isNew
      exact absent summary member same

theorem start_lifecycle (config : Config.State) : Lifecycle (start config) where
  numbered := start_numbered config
  failing := by simp [FailingCurrent, start]
  sound := by simp [start]
  recorded := ⟨by simp [start], by simp [start], List.nodup_nil⟩

theorem materialized_sound (id : Nat) (group : GroupKey) (watermark : Option BatchKey) (oldest : MessageRow)
    (rows : List MessageRow) (now : Time) : (materialized id group watermark oldest rows now).Sound where
  bounded := Nat.zero_le _
  leased := by simp [materialized]
  retried := by simp [materialized]
  summarized := by simp [materialized]

theorem step_lifecycle {s : State} (e : Event) (lifecycle : Lifecycle s) : Lifecycle (step s e) where
  numbered := step_numbered e lifecycle.numbered
  failing := step_failingCurrent e lifecycle.numbered lifecycle.failing
  sound := by
    intro next member
    rcases step_origin lifecycle.numbered member with ⟨batch, stored, move⟩ | born
    · exact move.sound lifecycle.failing stored (lifecycle.sound batch stored)
    · cases born
      exact materialized_sound ..
  recorded := step_recorded e lifecycle

theorem run_lifecycle (config : Config.State) (events : List Event) : Lifecycle (run step (start config) events) :=
  run_invariant (fun _ e => step_lifecycle e) (start_lifecycle config) events

/-! ### Replaced tokens -/

/-- The batch still has the tokens an operation carries. -/
def Carried.current (carried : Carried) (batches : List Batch) : Prop :=
  ∃ batch ∈ batches, batch.id = carried.id ∧ batch.leasedBy carried.leaseToken = true ∧
    ∀ token, carried.workToken = some token → ∃ work, batch.summaryWork = some work ∧ work.token = token

theorem Completes.carried {s : State} {e : Event} {batch : Batch} {leaseToken : Nat} {workToken : Option Nat}
    {now : Time} (completes : Completes s e batch leaseToken workToken now) {given : Carried}
    (h : carried s e = some given) : given = ⟨batch.id, leaseToken, workToken⟩ := by
  cases completes with
  | work held leased => simpa [Memory.carried, Session.carried, held, leased, eq_comm] using h
  | revoked held leased =>
    rcases held with held | ⟨version, held⟩ <;>
      simpa [Memory.carried, Session.carried, held, leased, eq_comm] using h
  | revokedWork held leased => simpa [Memory.carried, Session.carried, held, leased, eq_comm] using h
  | sources stored named leased => cases h

theorem live_current {scope : GroupKey} {leaseToken : Nat} {workToken : Option Nat} {now : Time} {batch : Batch}
    {batches : List Batch} (live : liveFilter scope leaseToken workToken now batch = true) (stored : batch ∈ batches) :
    (⟨batch.id, leaseToken, workToken⟩ : Carried).current batches := by
  obtain ⟨_, _, held, _, working⟩ := liveFilter_iff.mp live
  refine ⟨batch, stored, rfl, held, fun token given => ?_⟩
  obtain ⟨work, same, owned, _⟩ := working token given
  exact ⟨work, same, owned⟩

theorem Sent.current {s : State} {e : Event} {write : BatchWrite} {id : Nat} (sent : Sent s e write id) {given : Carried}
    (h : carried s e = some given) {batch : Batch} (stored : batch ∈ s.batches) (named : batch.id = id)
    (matched : write.filter batch = true) : given.current s.batches := by
  cases sent with
  | claim organizationId owner now pick => cases h
  | expireDead organizationId id now => cases h
  | expireRetry organizationId id now => cases h
  | heartbeat organizationId id token now =>
    obtain rfl := Option.some.inj h
    exact ⟨batch, stored, named, (Bool.and_eq_true_iff.mp matched).2, by simp⟩
  | fail known chosen =>
    obtain rfl : _ = given := by simpa [Memory.carried, known] using h
    exact ⟨batch, stored, named, (Bool.and_eq_true_iff.mp matched).2, by simp⟩
  | claimWork held leased =>
    obtain rfl : _ = given := by simpa [Memory.carried, Session.carried, held, leased] using h
    rw [← named]
    exact live_current (Bool.and_eq_true_iff.mp matched).1 stored
  | renewWork held leased =>
    obtain rfl : _ = given := by simpa [Memory.carried, Session.carried, held, leased] using h
    rw [← named]
    exact live_current matched stored
  | releaseWork held leased =>
    obtain rfl : _ = given := by simpa [Memory.carried, Session.carried, held, leased] using h
    rw [← named]
    exact live_current matched stored
  | relink completes found names =>
    rw [completes.carried h, ← named]
    exact live_current matched stored

theorem step_replaced {s : State} {e : Event} {given : Carried} (h : carried s e = some given)
    (replaced : ¬ given.current s.batches) :
    (step s e).batches = s.batches ∧ (step s e).summaries = s.summaries := by
  cases step_effect s e with
  | untouched batches summaries => exact ⟨batches, summaries⟩
  | wrote write id sent batches summaries fresh =>
    refine ⟨?_, summaries⟩
    rw [batches]
    refine updateOne_of_no_match fun batch stored => Bool.eq_false_iff.mpr fun matched => replaced ?_
    simp only [Bool.and_eq_true, beq_iff_eq] at matched
    exact sent.current h stored matched.1 matched.2
  | summarized loaded leaseToken workToken text redactions now completes hits batches summaries =>
    obtain ⟨batch, stored, named, matched⟩ := hits_iff.mp hits
    refine absurd ?_ replaced
    rw [completes.carried h, ← named]
    exact live_current matched stored
  | inserted builder now group watermark oldest rows rest event selected batches summaries fresh =>
    rw [event] at h
    cases h

/-! ### The whole machine -/

theorem Move.raised {s : State} {e : Event} {batch next : Batch} (move : Move s e batch next) :
    next.attempts = batch.attempts ∨ next.attempts = batch.attempts + 1 ∧
      ∃ organizationId owner now, e = .claim organizationId owner now batch.id := by
  cases move with
  | kept => exact Or.inl rfl
  | completed completes named matched summaries => exact Or.inl rfl
  | @wrote write sent matched fresh =>
    generalize named : batch.id = id at sent
    cases sent with
    | claim organizationId owner now pick => exact Or.inr ⟨rfl, organizationId, owner, now, rfl⟩
    | _ => exact Or.inl rfl

/-- The ids of the summaries of a batch are the one it names, if it names one. -/
theorem Lifecycle.summaryIds {s : State} (lifecycle : Lifecycle s) {batch : Batch} (stored : batch ∈ s.batches) :
    (s.summaries.filter fun summary => summary.batchId == batch.id).map Summary.id = batch.summaryId.toList := by
  by_cases finished : batch.state = .complete
  · obtain ⟨summary, member, record⟩ := lifecycle.recorded.recorded batch stored finished
    rw [← record.id, filter_unique lifecycle.recorded.single member, record.linked]
    rfl
  · have absent := lifecycle.unsummarized stored finished
    have none : batch.summaryId = none := by
      simpa using mt (lifecycle.sound batch stored).summarized.mp finished
    rw [none, List.filter_eq_nil_iff.mpr fun summary member => by simpa using absent summary member]
    rfl

theorem batch_lifecycle (config : Config.State) (events : List Event) :
    let s := run step (start config) events
    (∀ batch ∈ s.batches, batch.Sound ∧
      (s.summaries.filter fun summary => summary.batchId == batch.id).map Summary.id = batch.summaryId.toList) ∧
    (∀ summary ∈ s.summaries, ∃ batch ∈ s.batches, batch.RecordedBy summary) ∧
    (∀ e, ∀ batch ∈ s.batches, ∃ next ∈ (step s e).batches, next.id = batch.id ∧
      (batch.state = .complete ∨ batch.state = .dead → next = batch) ∧
      (next.attempts = batch.attempts ∨ next.attempts = batch.attempts + 1 ∧
        ∃ organizationId owner now, e = .claim organizationId owner now batch.id) ∧
      (batch.state ≠ .complete → next.state = .complete →
        ∃ summary ∈ (step s e).summaries, summary ∉ s.summaries ∧ next.RecordedBy summary)) ∧
    ∀ e given, carried s e = some given → ¬ given.current s.batches →
      (step s e).batches = s.batches ∧ (step s e).summaries = s.summaries := by
  intro s
  have lifecycle : Lifecycle s := run_lifecycle config events
  refine ⟨?_, lifecycle.recorded.owned, ?_, fun e given h replaced => step_replaced h replaced⟩
  · exact fun batch stored => ⟨lifecycle.sound batch stored, lifecycle.summaryIds stored⟩
  · intro e batch stored
    obtain ⟨next, present, move⟩ := step_next lifecycle.numbered e stored
    refine ⟨next, present, move.sameRange.id, move.absorbed, move.raised, ?_⟩
    intro unfinished finished
    obtain ⟨summary, member, record⟩ := move.finished lifecycle stored unfinished finished
    refine ⟨summary, member, fun old => ?_, record⟩
    exact lifecycle.unsummarized stored unfinished summary old (record.id.trans move.sameRange.id)

end GroupButler.Memory
