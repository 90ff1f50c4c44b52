import GroupButler.Replies.Callbacks

/-!
# The lease protocol

One row a job, one token a claim, and one send a completed row: a write under a lease can only be the
holder's, and the send of a job is inserted by the very write that closes its run.
-/

namespace GroupButler.Replies
open Foundation Store Sends

/-! ### One run -/

structure RunOk (requests : List SendRow) (run : AgentReplyRun) : Prop where
  attempts : run.attempts ≤ agentReplyMaxAttempts
  complete : run.state = .complete ↔ run.sendRequestId.isSome = true
  names : ∀ id, run.sendRequestId = some id → ∃ send ∈ requests, send.objectId = id ∧ answers run.scope send = true
  leased : run.lease.isSome = true → run.state = .processing

/-- What a write that takes no lease may do to a run. -/
structure Keeps (requests : List SendRow) (run next : AgentReplyRun) : Prop where
  objectId : next.objectId = run.objectId
  scope : next.scope = run.scope
  attempts : next.attempts = run.attempts
  lease : ∀ lease, next.lease = some lease → ∃ before, run.lease = some before ∧ before.token = lease.token
  ok : RunOk requests run → RunOk requests next

theorem Keeps.refl (requests : List SendRow) (run : AgentReplyRun) : Keeps requests run run :=
  ⟨rfl, rfl, rfl, fun lease h => ⟨lease, h, rfl⟩, fun h => h⟩

/-- An update of runs that are not closed. -/
structure Written (requests : List SendRow) (filter : AgentReplyRun → Bool) (change : AgentReplyRun → AgentReplyRun) :
    Prop where
  open_ : ∀ run, filter run = true → run.state.terminal = false
  keeps : ∀ run, filter run = true → Keeps requests run (change run)

theorem leasedTo_iff {objectId token : Nat} {now : Time} {run : AgentReplyRun} :
    run.leasedTo objectId token now = true ↔
      run.objectId = objectId ∧ run.state = .processing ∧
        ∃ lease, run.lease = some lease ∧ lease.token = token ∧ now < lease.expiresAt := by
  unfold AgentReplyRun.leasedTo
  cases run.lease with
  | none => simp
  | some lease => simp [and_assoc]

theorem processing_sendless {requests : List SendRow} {run : AgentReplyRun} (ok : RunOk requests run)
    (unfinished : run.state ≠ .complete) : run.sendRequestId = none := by
  cases named : run.sendRequestId with
  | none => rfl
  | some id => exact (unfinished (ok.complete.mpr (by rw [named]; rfl))).elim

theorem renew_written (requests : List SendRow) (objectId token : Nat) (now : Time) :
    Written requests (AgentReplyRun.leasedTo objectId token now) (AgentReplyRun.renew now) := by
  constructor
  · intro run matched
    rw [(leasedTo_iff.mp matched).2.1]
    rfl
  · intro run matched
    obtain ⟨_, state, _⟩ := leasedTo_iff.mp matched
    refine ⟨rfl, rfl, rfl, ?_, fun ok => ⟨ok.attempts, ok.complete, ok.names, fun _ => state⟩⟩
    intro lease renewed
    obtain ⟨before, held, rfl⟩ := Option.map_eq_some_iff.mp renewed
    exact ⟨before, held, rfl⟩

theorem fail_written (requests : List SendRow) (objectId token : Nat) (now : Time) (read : AgentReplyRun)
    (failure : ReplyFailure) (fraction : Nat) :
    Written requests (AgentReplyRun.leasedTo objectId token now) (AgentReplyRun.fail read failure fraction now) := by
  constructor
  · intro run matched
    rw [(leasedTo_iff.mp matched).2.1]
    rfl
  · intro run matched
    obtain ⟨_, state, _⟩ := leasedTo_iff.mp matched
    refine ⟨rfl, rfl, rfl, (by intro _ h; cases h), fun ok => ⟨ok.attempts, ?_, ok.names, (by intro h; cases h)⟩⟩
    have sendless := processing_sendless ok (by rw [state]; rintro ⟨⟩)
    simp only [AgentReplyRun.fail, sendless]
    split <;> simp

theorem close_written (requests : List SendRow) {filter : AgentReplyRun → Bool} (code : String) (now : Time)
    (open_ : ∀ run, filter run = true → run.state.terminal = false) :
    Written requests filter (AgentReplyRun.close code now) := by
  refine ⟨open_, fun run matched => ?_⟩
  refine ⟨rfl, rfl, rfl, (by intro _ h; cases h), fun ok => ⟨ok.attempts, ?_, ok.names, (by intro h; cases h)⟩⟩
  have unfinished : run.state ≠ .complete := by
    intro complete
    have closed := open_ run matched
    rw [complete] at closed
    cases closed
  have sendless := processing_sendless ok unfinished
  simp [AgentReplyRun.close, sendless]

/-! ### The invariant -/

/-- The claims that took the run of a job. -/
def wins (callbacks : List Callback) (scope : AgentReplyScope) : Nat :=
  callbacks.countP fun callback => callback.scope == scope && callback.won

/-- A write of the claim may still take the run. -/
def Stage.racing : Stage → Bool
  | .waiting => true
  | .claiming _ (.readInserted _) => false
  | .claiming _ _ => true
  | _ => false

structure CallbackOk (runs : List AgentReplyRun) (callback : Callback) : Prop where
  racing : callback.stage.racing = true → callback.won = false
  modelled : callback.modelled = true → callback.won = true
  claimed : ∀ run, callback.stage = .claimed run → callback.won = true
  inserted : ∀ now id, callback.stage = .claiming now (.readInserted id) →
    callback.won = true ∧ id ∈ runs.map AgentReplyRun.objectId
  known : callback.won = true → callback.scope ∈ runs.map AgentReplyRun.scope

structure Sound (s : State) : Prop where
  scopes : (s.runs.map AgentReplyRun.scope).Nodup
  runs : ∀ run ∈ s.runs, RunOk s.sends.db.requests run
  callbacks : ∀ callback ∈ s.callbacks, CallbackOk s.runs callback
  tokens : ∀ run ∈ s.runs, ∀ lease, run.lease = some lease →
    ∃ callback, s.callbacks[lease.token]? = some callback ∧ callback.scope = run.scope ∧ callback.won = true
  wins : ∀ run ∈ s.runs, wins s.callbacks run.scope ≤ run.attempts
  answered : ∀ send ∈ s.sends.db.requests, ∀ scope, answers scope send = true →
    ∃ run ∈ s.runs, run.scope = scope ∧ run.state = .complete
  keys : (s.sends.db.requests.map SendRow.key).Nodup
  finishing : ∀ operation ∈ s.operations, ∀ id, operation.work = .finish id →
    ∃ callback, s.callbacks[operation.callback]? = some callback ∧
      ∃ send ∈ s.sends.db.requests, answers callback.scope send = true

theorem answers_same {scope : AgentReplyScope} {row next : SendRow} (same : row.Same next) :
    answers scope next = answers scope row := by
  have organization : next.organizationId = row.organizationId := congrArg Prod.fst same.name
  simp only [answers, organization, same.instanceId, same.groupJid, same.idempotencyKey, same.provenance]

theorem runOk_moves {inserted : SendRow → Prop} {old new : SendDb} {run : AgentReplyRun} (moves : Moves inserted old new)
    (ok : RunOk old.requests run) : RunOk new.requests run := by
  refine ⟨ok.attempts, ok.complete, ?_, ok.leased⟩
  intro id named
  obtain ⟨send, member, objectId, answer⟩ := ok.names id named
  obtain ⟨next, nextMember, becomes⟩ := moves_rows moves send member
  exact ⟨next, nextMember, becomes.objectId.trans objectId, (answers_same becomes.toSame).trans answer⟩

/-! ### Writes that take no lease -/

/-- How the runs may change while every lease stays with its token. -/
structure Moved (requests : List SendRow) (runs next : List AgentReplyRun) : Prop where
  scopes : next.map AgentReplyRun.scope = runs.map AgentReplyRun.scope
  ids : next.map AgentReplyRun.objectId = runs.map AgentReplyRun.objectId
  keeps : ∀ run ∈ next, ∃ before ∈ runs, Keeps requests before run
  closed : ∀ run ∈ runs, run.state.terminal = true → run ∈ next

theorem moved_refl (requests : List SendRow) (runs : List AgentReplyRun) : Moved requests runs runs :=
  ⟨rfl, rfl, fun run member => ⟨run, member, .refl requests run⟩, fun _ member _ => member⟩

theorem update_closed {runs : List AgentReplyRun} {run : AgentReplyRun} {filter : AgentReplyRun → Bool}
    {change : AgentReplyRun → AgentReplyRun} (member : run ∈ runs) (terminal : run.state.terminal = true)
    (open_ : ∀ run, filter run = true → run.state.terminal = false) : run ∈ updateOne filter change runs := by
  rcases mem_updateOne_of_mem member with kept | ⟨matched, _⟩
  · exact kept
  · rw [open_ run matched] at terminal
    cases terminal

/-- A filtered update: only the runs that match need the conditions. -/
theorem moved_update {requests : List SendRow} {runs : List AgentReplyRun} {filter : AgentReplyRun → Bool}
    {change : AgentReplyRun → AgentReplyRun} (written : Written requests filter change) :
    Moved requests runs (updateOne filter change runs) := by
  refine ⟨?_, ?_, ?_, ?_⟩
  · exact map_updateOne fun run _ matched => (written.keeps run matched).scope
  · exact map_updateOne fun run _ matched => (written.keeps run matched).objectId
  · intro run member
    rcases mem_updateOne member with kept | ⟨before, stored, matched, rfl⟩
    · exact ⟨run, kept, .refl requests run⟩
    · exact ⟨before, stored, written.keeps before matched⟩
  · exact fun run member terminal => update_closed member terminal written.open_

theorem callbackOk_runs {runs next : List AgentReplyRun} {callback : Callback} (ok : CallbackOk runs callback)
    (scopes : ∀ scope ∈ runs.map AgentReplyRun.scope, scope ∈ next.map AgentReplyRun.scope)
    (ids : ∀ id ∈ runs.map AgentReplyRun.objectId, id ∈ next.map AgentReplyRun.objectId) : CallbackOk next callback := by
  refine { ok with inserted := ?_, known := fun won => scopes _ (ok.known won) }
  intro now id stage
  exact ⟨(ok.inserted now id stage).1, ids id (ok.inserted now id stage).2⟩

theorem sound_write {s : State} {inserted : SendRow → Prop} {runs : List AgentReplyRun} {sends : Sends.State}
    (sound : Sound s) (moves : Moves inserted s.sends.db sends.db) (moved : Moved sends.db.requests s.runs runs)
    (answered : ∀ row, inserted row → ∀ scope, answers scope row = true →
      ∃ run ∈ runs, run.scope = scope ∧ run.state = .complete) : Sound { s with runs, sends } := by
  refine { scopes := ?_, runs := ?_, callbacks := ?_, tokens := ?_, wins := ?_, answered := ?_, keys := ?_, finishing := ?_ }
  · exact moved.scopes ▸ sound.scopes
  · intro run member
    obtain ⟨before, stored, keeps⟩ := moved.keeps run member
    exact keeps.ok (runOk_moves moves (sound.runs before stored))
  · intro callback member
    refine callbackOk_runs (sound.callbacks callback member) ?_ ?_
    · exact fun scope present => moved.scopes ▸ present
    · exact fun id present => moved.ids ▸ present
  · intro run member lease held
    obtain ⟨before, stored, keeps⟩ := moved.keeps run member
    obtain ⟨earlier, heldBefore, token⟩ := keeps.lease lease held
    obtain ⟨callback, found, scope, won⟩ := sound.tokens before stored earlier heldBefore
    exact ⟨callback, token ▸ found, scope.trans keeps.scope.symm, won⟩
  · intro run member
    obtain ⟨before, stored, keeps⟩ := moved.keeps run member
    rw [keeps.scope, keeps.attempts]
    exact sound.wins before stored
  · intro send member scope answer
    rcases moves_origin moves send member with ⟨row, stored, same⟩ | new
    · obtain ⟨run, runMember, sameScope, complete⟩ := sound.answered row stored scope ((answers_same same).symm.trans answer)
      exact ⟨run, moved.closed run runMember (by rw [complete]; rfl), sameScope, complete⟩
    · exact answered send new scope answer
  · exact moves_keys moves sound.keys
  · intro operation member id work
    obtain ⟨callback, found, send, stored, answer⟩ := sound.finishing operation member id work
    obtain ⟨next, nextMember, becomes⟩ := moves_rows moves send stored
    exact ⟨callback, found, next, nextMember, (answers_same becomes.toSame).trans answer⟩

theorem sound_runs {s : State} {runs : List AgentReplyRun} (sound : Sound s)
    (moved : Moved s.sends.db.requests s.runs runs) : Sound (s.setRuns runs) :=
  sound_write sound (moves_refl (fun _ => False) s.sends.db) moved fun _ never => never.elim

/-! ### One callback -/

/-- A callback that keeps its job, and what it has won. -/
theorem lookup_set {callbacks : List Callback} {index token : Nat} {callback next other : Callback}
    (found : callbacks[index]? = some callback) (scope : next.scope = callback.scope)
    (won : callback.won = true → next.won = true) (present : callbacks[token]? = some other) :
    ∃ same, (callbacks.set index next)[token]? = some same ∧ same.scope = other.scope ∧
      (other.won = true → same.won = true) := by
  by_cases equal : index = token
  · subst equal
    obtain rfl : callback = other := Option.some.inj (found.symm.trans present)
    have inside : index < callbacks.length := (List.getElem?_eq_some_iff.mp found).1
    exact ⟨next, by simp [inside], scope, won⟩
  · exact ⟨other, by rw [List.getElem?_set_ne equal, present], rfl, fun h => h⟩

theorem wins_set_same {callbacks : List Callback} {index : Nat} {callback next : Callback}
    (found : callbacks[index]? = some callback) (scope : next.scope = callback.scope) (won : next.won = callback.won)
    (job : AgentReplyScope) : wins (callbacks.set index next) job = wins callbacks job := by
  obtain ⟨inside, at_⟩ := List.getElem?_eq_some_iff.mp found
  unfold wins
  rw [List.countP_set inside, at_, scope, won]
  split
  · rename_i counted
    have positive : 0 < callbacks.countP fun callback => callback.scope == job && callback.won :=
      List.countP_pos_iff.mpr ⟨callback, List.mem_of_getElem? found, counted⟩
    omega
  · omega

theorem wins_set_won {callbacks : List Callback} {index : Nat} {callback next : Callback}
    (found : callbacks[index]? = some callback) (lost : callback.won = false) (won : next.won = true)
    (job : AgentReplyScope) :
    wins (callbacks.set index next) job = wins callbacks job + if next.scope = job then 1 else 0 := by
  obtain ⟨inside, at_⟩ := List.getElem?_eq_some_iff.mp found
  unfold wins
  rw [List.countP_set inside, at_, lost, won]
  by_cases same : next.scope = job <;> simp [same]

theorem sound_callback {s : State} {index : Nat} {callback next : Callback} (sound : Sound s)
    (found : s.callbacks[index]? = some callback) (scope : next.scope = callback.scope) (won : next.won = callback.won)
    (ok : CallbackOk s.runs next) : Sound (s.setCallback index next) := by
  refine { sound with callbacks := ?_, tokens := ?_, wins := ?_, finishing := ?_ }
  · intro other present
    rcases List.mem_or_eq_of_mem_set present with old | rfl
    · exact sound.callbacks other old
    · exact ok
  · intro run member lease held
    obtain ⟨other, present, otherScope, otherWon⟩ := sound.tokens run member lease held
    obtain ⟨same, sameFound, sameScope, sameWon⟩ := lookup_set found scope (fun h => won.trans h) present
    exact ⟨same, sameFound, sameScope.trans otherScope, sameWon otherWon⟩
  · intro run member
    show wins (s.callbacks.set index next) run.scope ≤ run.attempts
    rw [wins_set_same found scope won]
    exact sound.wins run member
  · intro operation member id work
    obtain ⟨other, present, send⟩ := sound.finishing operation member id work
    obtain ⟨same, sameFound, sameScope, _⟩ := lookup_set found scope (fun h => won.trans h) present
    exact ⟨same, sameFound, sameScope ▸ send⟩

/-! ### Claims that win -/

theorem reclaim_ok {requests : List SendRow} {run : AgentReplyRun} {token : Nat} {now : Time}
    (ok : RunOk requests run) (unfinished : run.state.terminal = false) (left : run.spent = false) :
    RunOk requests (run.reclaim token now) := by
  have sendless : run.sendRequestId = none := by
    refine processing_sendless ok fun complete => ?_
    rw [complete] at unfinished
    cases unfinished
  have below : run.attempts < agentReplyMaxAttempts := by
    simpa [AgentReplyRun.spent] using left
  refine ⟨below, ?_, ok.names, fun _ => rfl⟩
  simp [AgentReplyRun.reclaim, sendless]

/-- The runs after the callback has taken its job: its run is new or has one attempt more. -/
structure Taken (s : State) (index : Nat) (callback : Callback) (runs : List AgentReplyRun) : Prop where
  scopes : (runs.map AgentReplyRun.scope).Nodup
  known : ∀ scope ∈ s.runs.map AgentReplyRun.scope, scope ∈ runs.map AgentReplyRun.scope
  ids : ∀ id ∈ s.runs.map AgentReplyRun.objectId, id ∈ runs.map AgentReplyRun.objectId
  origin : ∀ run ∈ runs, (run ∈ s.runs ∧ run.scope ≠ callback.scope) ∨
    (run.scope = callback.scope ∧ RunOk s.sends.db.requests run ∧ wins s.callbacks run.scope < run.attempts ∧
      ∀ lease, run.lease = some lease → lease.token = index)
  closed : ∀ run ∈ s.runs, run.state.terminal = true → run ∈ runs

theorem sound_taken {s : State} {index : Nat} {callback next : Callback} {runs : List AgentReplyRun} (sound : Sound s)
    (found : s.callbacks[index]? = some callback) (lost : callback.won = false) (scope : next.scope = callback.scope)
    (won : next.won = true) (ok : CallbackOk runs next) (taken : Taken s index callback runs) :
    Sound ((s.setRuns runs).setCallback index next) := by
  have keptCallback : ∀ (token : Nat) (other : Callback), s.callbacks[token]? = some other →
      ∃ same : Callback, (s.callbacks.set index next)[token]? = some same ∧ same.scope = other.scope ∧
        (other.won = true → same.won = true) :=
    fun token other present => lookup_set found scope (fun _ => won) present
  refine {
    scopes := taken.scopes, runs := ?_, callbacks := ?_, tokens := ?_, wins := ?_, answered := ?_, keys := sound.keys
    finishing := ?_ }
  · intro run present
    rcases taken.origin run present with ⟨old, _⟩ | ⟨_, runOk, _⟩
    · exact sound.runs run old
    · exact runOk
  · intro other present
    rcases List.mem_or_eq_of_mem_set present with old | rfl
    · exact callbackOk_runs (sound.callbacks other old) taken.known taken.ids
    · exact ok
  · intro run present lease held
    rcases taken.origin run present with ⟨old, _⟩ | ⟨sameScope, _, _, token⟩
    · obtain ⟨other, otherFound, otherScope, otherWon⟩ := sound.tokens run old lease held
      obtain ⟨same, sameFound, sameScope, sameWon⟩ := keptCallback _ other otherFound
      exact ⟨same, sameFound, sameScope.trans otherScope, sameWon otherWon⟩
    · have inside : index < s.callbacks.length := (List.getElem?_eq_some_iff.mp found).1
      rw [token lease held]
      exact ⟨next, List.getElem?_set_self inside, scope.trans sameScope.symm, won⟩
  · intro run present
    show wins (s.callbacks.set index next) run.scope ≤ run.attempts
    rw [wins_set_won found lost won, scope]
    rcases taken.origin run present with ⟨old, different⟩ | ⟨sameScope, _, below, _⟩
    · rw [if_neg (Ne.symm different)]
      exact sound.wins run old
    · rw [if_pos sameScope.symm]
      exact below
  · intro send sent job answer
    obtain ⟨run, stored, sameScope, complete⟩ := sound.answered send sent job answer
    exact ⟨run, taken.closed run stored (by rw [complete]; rfl), sameScope, complete⟩
  · intro operation present id work
    obtain ⟨other, otherFound, send⟩ := sound.finishing operation present id work
    obtain ⟨same, sameFound, sameScope, _⟩ := keptCallback _ other otherFound
    exact ⟨same, sameFound, sameScope ▸ send⟩

/-- The callback takes the run over: one attempt more, and its own token. -/
theorem reclaim_taken {s : State} {index : Nat} {callback : Callback} {filter : AgentReplyRun → Bool} {now : Time}
    {run : AgentReplyRun} (sound : Sound s) (matched : s.runs.find? filter = some run)
    (open_ : ∀ run, filter run = true → run.scope = callback.scope ∧ run.state.terminal = false ∧ run.spent = false) :
    Taken s index callback (updateOne filter (AgentReplyRun.reclaim index now) s.runs) := by
  have stored : run ∈ s.runs := List.mem_of_find?_eq_some matched
  have runMatched : filter run = true := List.find?_some matched
  have scopes : (updateOne filter (AgentReplyRun.reclaim index now) s.runs).map AgentReplyRun.scope =
      s.runs.map AgentReplyRun.scope := map_updateOne fun _ _ _ => rfl
  have ids : (updateOne filter (AgentReplyRun.reclaim index now) s.runs).map AgentReplyRun.objectId =
      s.runs.map AgentReplyRun.objectId := map_updateOne fun _ _ _ => rfl
  refine ⟨scopes ▸ sound.scopes, fun _ h => scopes ▸ h, fun _ h => ids ▸ h, ?_, ?_⟩
  · intro next present
    rw [updateOne_eq_updateMany (k := callback.scope) sound.scopes fun run _ matched => (open_ run matched).1] at present
    obtain ⟨before, beforeStored, rfl⟩ := mem_updateMany.mp present
    by_cases beforeMatched : filter before = true
    · obtain ⟨sameScope, unfinished, left⟩ := open_ before beforeMatched
      rw [if_pos beforeMatched]
      refine Or.inr ⟨sameScope, reclaim_ok (sound.runs before beforeStored) unfinished left, ?_, ?_⟩
      · exact Nat.lt_succ_of_le (sound.wins before beforeStored)
      · intro _ h
        cases h
        rfl
    · -- the one run of this job is the one that matched
      rw [if_neg beforeMatched]
      refine Or.inl ⟨beforeStored, fun same => beforeMatched ?_⟩
      have equal := List.inj_on_of_nodup_map sound.scopes beforeStored stored (same.trans (open_ run runMatched).1.symm)
      exact equal ▸ runMatched
  · exact fun run member terminal => update_closed member terminal fun run matched => (open_ run matched).2.1

theorem insert_taken {s : State} {index : Nat} {callback : Callback} {now : Time} (sound : Sound s)
    (absent : ∀ run ∈ s.runs, run.scope ≠ callback.scope) :
    Taken s index callback (s.runs ++ [claimedRun s.runs.length callback.scope index now]) := by
  have unseen : callback.scope ∉ s.runs.map AgentReplyRun.scope := by
    intro known
    obtain ⟨run, stored, same⟩ := List.mem_map.mp known
    exact absent run stored same
  have winless : wins s.callbacks callback.scope = 0 := by
    refine List.countP_eq_zero.mpr fun other present counted => unseen ?_
    simp only [Bool.and_eq_true, beq_iff_eq] at counted
    exact counted.1 ▸ (sound.callbacks other present).known counted.2
  refine ⟨?_, ?_, ?_, ?_, fun run member _ => List.mem_append_left _ member⟩
  · rw [List.map_append, List.nodup_append]
    refine ⟨sound.scopes, by simp, ?_⟩
    intro scope taken fresh isNew same
    obtain rfl : fresh = callback.scope := by simpa [claimedRun] using isNew
    exact unseen (same ▸ taken)
  · intro scope known
    rw [List.map_append]
    exact List.mem_append_left _ known
  · intro id known
    rw [List.map_append]
    exact List.mem_append_left _ known
  · intro run present
    rcases List.mem_append.mp present with old | new
    · exact Or.inl ⟨old, absent run old⟩
    · obtain rfl := List.mem_singleton.mp new
      have ok : RunOk s.sends.db.requests (claimedRun s.runs.length callback.scope index now) :=
        ⟨(by decide : 1 ≤ agentReplyMaxAttempts), by simp [claimedRun], (by intro _ h; cases h), fun _ => rfl⟩
      refine Or.inr ⟨rfl, ok, ?_, by rintro _ ⟨⟩; rfl⟩
      show wins s.callbacks callback.scope < 1
      rw [winless]
      exact Nat.zero_lt_one

/-! ### One round trip of a claim -/

theorem expired_open {scope : AgentReplyScope} {now : Time} {run : AgentReplyRun}
    (matched : (run.scope == scope && run.expired now) = true) : run.scope = scope ∧ run.state.terminal = false := by
  simp only [AgentReplyRun.expired, Bool.and_eq_true, beq_iff_eq] at matched
  exact ⟨matched.1, by rw [matched.2.1]; rfl⟩

theorem due_open {scope : AgentReplyScope} {now : Time} {run : AgentReplyRun}
    (matched : (run.scope == scope && run.due now) = true) : run.scope = scope ∧ run.state.terminal = false := by
  simp only [AgentReplyRun.due, Bool.and_eq_true, beq_iff_eq] at matched
  exact ⟨matched.1, by rw [matched.2.1]; rfl⟩

/-- The callback goes on, or answers, without having won. -/
theorem callbackOk_stage {runs : List AgentReplyRun} {callback : Callback} {stage : Stage} (ok : CallbackOk runs callback)
    (racing : callback.stage.racing = true) (claimed : ∀ run, stage ≠ .claimed run)
    (inserted : ∀ now id, stage ≠ .claiming now (.readInserted id)) :
    CallbackOk runs { callback with stage, won := callback.won || false } := by
  have lost := ok.racing racing
  refine ⟨fun _ => by simp [lost], ?_, fun run same => (claimed run same).elim,
    fun now id same => (inserted now id same).elim, ?_⟩
  · intro modelled
    rw [ok.modelled modelled] at lost
    cases lost
  · intro won
    simp [lost] at won

theorem sound_tryReclaim {s : State} {index : Nat} {callback : Callback} {filter : AgentReplyRun → Bool} {now : Time}
    {otherwise : ClaimStep} (sound : Sound s) (found : s.callbacks[index]? = some callback)
    (racing : callback.stage.racing = true) (next : ∀ id, otherwise ≠ .readInserted id)
    (open_ : ∀ run, filter run = true → run.scope = callback.scope ∧ run.state.terminal = false ∧ run.spent = false) :
    let claiming := tryReclaim s.runs filter index now otherwise
    Sound ((s.setRuns claiming.runs).setCallback index
      { callback with stage := claiming.stage, won := callback.won || claiming.won }) := by
  intro claiming
  have ok := sound.callbacks callback (List.mem_of_getElem? found)
  cases matched : s.runs.find? filter with
  | none =>
    have same : claiming = ⟨s.runs, false, .claiming now otherwise⟩ := by
      simp only [claiming, tryReclaim, matched]
    rw [same]
    refine sound_callback sound found rfl (Bool.or_false _) (callbackOk_stage ok racing (by intro _ h; cases h) ?_)
    rintro _ id ⟨⟩
    exact next id rfl
  | some run =>
    have same : claiming = ⟨updateOne filter (AgentReplyRun.reclaim index now) s.runs, true,
        .claimed (run.reclaim index now)⟩ := by
      simp only [claiming, tryReclaim, matched]
    rw [same, Bool.or_true]
    have stored : run ∈ s.runs := List.mem_of_find?_eq_some matched
    have taken : Taken s index callback (updateOne filter (AgentReplyRun.reclaim index now) s.runs) :=
      reclaim_taken sound matched open_
    have known : callback.scope ∈ s.runs.map AgentReplyRun.scope :=
      (open_ run (List.find?_some matched)).1 ▸ List.mem_map_of_mem stored
    refine sound_taken sound found (ok.racing racing) rfl rfl ?_ taken
    exact ⟨(by intro h; cases h), fun _ => rfl, fun _ _ => rfl, (by intro _ _ h; cases h), fun _ => taken.known _ known⟩

theorem sound_tryClose {s : State} {index : Nat} {callback : Callback} {filter : AgentReplyRun → Bool} {code : String}
    {now : Time} {otherwise : ClaimStep} (sound : Sound s) (found : s.callbacks[index]? = some callback)
    (racing : callback.stage.racing = true) (next : ∀ id, otherwise ≠ .readInserted id)
    (open_ : ∀ run, filter run = true → run.state.terminal = false) :
    let claiming := tryClose s.runs filter code now otherwise
    Sound ((s.setRuns claiming.runs).setCallback index
      { callback with stage := claiming.stage, won := callback.won || claiming.won }) := by
  intro claiming
  have ok := sound.callbacks callback (List.mem_of_getElem? found)
  cases matched : s.runs.find? filter with
  | none =>
    have same : claiming = ⟨s.runs, false, .claiming now otherwise⟩ := by
      simp only [claiming, tryClose, matched]
    rw [same]
    refine sound_callback sound found rfl (Bool.or_false _) (callbackOk_stage ok racing (by intro _ h; cases h) ?_)
    rintro _ id ⟨⟩
    exact next id rfl
  | some run =>
    have same : claiming = ⟨updateOne filter (AgentReplyRun.close code now) s.runs, false, .dead (run.close code now)⟩ := by
      simp only [claiming, tryClose, matched]
    rw [same]
    have closed := sound_runs sound (moved_update (close_written s.sends.db.requests code now open_))
    have okClosed := closed.callbacks callback (List.mem_of_getElem? found)
    exact sound_callback closed found rfl (Bool.or_false _)
      (callbackOk_stage okClosed racing (by intro _ h; cases h) (by intro _ _ h; cases h))

theorem sound_claimStep {s : State} {index : Nat} {callback : Callback} {now : Time} {next : ClaimStep} (sound : Sound s)
    (found : s.callbacks[index]? = some callback) (stage : callback.stage = .claiming now next) :
    let claiming := claimAgentReplyRun s.runs callback.scope index now next
    Sound ((s.setRuns claiming.runs).setCallback index
      { callback with stage := claiming.stage, won := callback.won || claiming.won }) := by
  have ok := sound.callbacks callback (List.mem_of_getElem? found)
  cases next with
  | upsert =>
    have racing : callback.stage.racing = true := by rw [stage]; rfl
    intro claiming
    by_cases present : (s.runs.any fun run => run.scope == callback.scope) = true
    · have same : claiming = ⟨s.runs, false, .claiming now .reclaimExpired⟩ := if_pos present
      rw [same]
      exact sound_callback sound found rfl (Bool.or_false _)
        (callbackOk_stage ok racing (by intro _ h; cases h) (by intro _ _ h; cases h))
    · have same : claiming = ⟨s.runs ++ [claimedRun s.runs.length callback.scope index now], true,
          .claiming now (.readInserted s.runs.length)⟩ := if_neg present
      rw [same, Bool.or_true]
      refine sound_taken sound found (ok.racing racing) rfl rfl ?_ (insert_taken sound (by simpa using present))
      refine ⟨(by intro h; cases h), fun _ => rfl, fun _ _ => rfl, ?_, fun _ => by simp [claimedRun]⟩
      intro _ _ h
      cases h
      exact ⟨rfl, by simp [claimedRun]⟩
  | readInserted objectId =>
    obtain ⟨won, inserted⟩ := ok.inserted now objectId stage
    obtain ⟨run, stored, identity⟩ := List.mem_map.mp inserted
    intro claiming
    cases read : s.runs.find? fun run => run.objectId == objectId with
    | none =>
      have missed := List.find?_eq_none.mp read run stored
      simp [identity] at missed
    | some row =>
      have same : claiming = ⟨s.runs, false, .claimed row⟩ := by
        simp only [claiming, claimAgentReplyRun, read]
      rw [same]
      exact sound_callback sound found rfl (Bool.or_false _) ⟨(by intro h; cases h), fun _ => by simp [won], fun _ _ => by simp [won],
        (by intro _ _ h; cases h), fun _ => ok.known won⟩
  | reclaimExpired =>
    have racing : callback.stage.racing = true := by rw [stage]; rfl
    refine sound_tryReclaim sound found racing (by intro _ h; cases h) fun run matched => ?_
    obtain ⟨open_, left⟩ := Bool.and_eq_true_iff.mp matched
    exact ⟨(expired_open open_).1, (expired_open open_).2, by simpa using left⟩
  | closeExpired =>
    have racing : callback.stage.racing = true := by rw [stage]; rfl
    refine sound_tryClose sound found racing (by intro _ h; cases h) fun run matched => ?_
    exact (expired_open (Bool.and_eq_true_iff.mp matched).1).2
  | reclaimDue =>
    have racing : callback.stage.racing = true := by rw [stage]; rfl
    refine sound_tryReclaim sound found racing (by intro _ h; cases h) fun run matched => ?_
    obtain ⟨open_, left⟩ := Bool.and_eq_true_iff.mp matched
    exact ⟨(due_open open_).1, (due_open open_).2, by simpa using left⟩
  | closeDue =>
    have racing : callback.stage.racing = true := by rw [stage]; rfl
    refine sound_tryClose sound found racing (by intro _ h; cases h) fun run matched => ?_
    exact (due_open (Bool.and_eq_true_iff.mp matched).1).2
  | read =>
    have racing : callback.stage.racing = true := by rw [stage]; rfl
    have answered : ∀ stage : Stage, (∀ run, stage ≠ .claimed run) → (∀ now id, stage ≠ .claiming now (.readInserted id)) →
        Sound ((s.setRuns s.runs).setCallback index { callback with stage, won := callback.won || false }) :=
      fun stage claimed inserted => sound_callback sound found rfl (Bool.or_false _) (callbackOk_stage ok racing claimed inserted)
    intro claiming
    cases read : s.runs.find? fun run => run.scope == callback.scope with
    | none =>
      have same : claiming = ⟨s.runs, false, .claiming now .upsert⟩ := by
        simp only [claiming, claimAgentReplyRun, read]
      rw [same]
      exact answered _ (by intro _ h; cases h) (by intro _ _ h; cases h)
    | some run =>
      have same : claiming = if run.state = .complete then ⟨s.runs, false, .completed run⟩
          else if run.state = .dead then ⟨s.runs, false, .dead run⟩ else ⟨s.runs, false, .live run⟩ := by
        simp only [claiming, claimAgentReplyRun, read]
      rw [same]
      split
      · exact answered _ (by intro _ h; cases h) (by intro _ _ h; cases h)
      · split
        · exact answered _ (by intro _ h; cases h) (by intro _ _ h; cases h)
        · exact answered _ (by intro _ h; cases h) (by intro _ _ h; cases h)

/-! ### Landing -/

theorem sound_work {s : State} {index : Nat} {operation : Operation} {work : Work} (sound : Sound s)
    (finishing : ∀ id, work = .finish id → ∃ callback, s.callbacks[operation.callback]? = some callback ∧
      ∃ send ∈ s.sends.db.requests, answers callback.scope send = true) : Sound (s.setWork index operation work) := by
  refine { sound with finishing := ?_ }
  intro other present id same
  rcases List.mem_or_eq_of_mem_set present with old | rfl
  · exact sound.finishing other old id same
  · exact finishing id same

/-- A run whose send exists is complete: there is nothing to reconcile. -/
theorem unfinished_none {s : State} {scope : AgentReplyScope} {send : SendRow} (sound : Sound s)
    (member : send ∈ s.sends.db.requests) (answer : answers scope send = true) :
    ∀ run ∈ s.runs, unfinished scope run = false := by
  intro run stored
  obtain ⟨closed, closedStored, closedScope, complete⟩ := sound.answered send member scope answer
  by_cases same : run.scope = scope
  · have equal := List.inj_on_of_nodup_map sound.scopes stored closedStored (same.trans closedScope.symm)
    simp [unfinished, equal, complete]
  · simp [unfinished, same]

theorem answers_reply {scope other : AgentReplyScope} {chatKind : String} {draft : ReplyDraft} {objectId : Nat}
    {id : String} {now : Time} :
    answers other (replySend objectId id (replyTarget scope chatKind) draft now) = true ↔ other = scope := by
  obtain ⟨organizationId, instanceId, groupJid, waMessageId⟩ := scope
  obtain ⟨otherOrganization, otherInstance, otherGroup, otherMessage⟩ := other
  simp only [answers, replySend, replyTarget, Option.map_some, Bool.and_eq_true, beq_iff_eq, Option.some.injEq,
    AgentReplyScope.mk.injEq]
  constructor
  · rintro ⟨⟨⟨⟨rfl, rfl⟩, rfl⟩, _⟩, rfl⟩
    exact ⟨rfl, rfl, rfl, rfl⟩
  · rintro ⟨rfl, rfl, rfl, rfl⟩
    exact ⟨⟨⟨⟨rfl, rfl⟩, rfl⟩, rfl⟩, rfl⟩

/-- What the completion transaction commits. -/
theorem createSend_cases {db next : ReplyDb} {runId token : Nat} {scope : AgentReplyScope} {chatKind : String}
    {draft : ReplyDraft} {objectId : Nat} {id : String} {now : Time}
    (h : createSendUnderRunLease db runId token scope chatKind draft objectId id now = some next) :
    ∃ run, db.runs.find? (fun run => run.leasedTo runId token now && run.scope == scope) = some run ∧
      insertReplySend db.sends objectId id (replyTarget scope chatKind) draft now = some next.sends ∧
      next.runs = updateOne (fun run => run.leasedTo runId token now && run.scope == scope)
        (AgentReplyRun.complete objectId draft now) db.runs := by
  unfold createSendUnderRunLease at h
  dsimp only at h
  split at h
  · rename_i guarded
    obtain ⟨sends, inserted, rfl⟩ := Option.map_eq_some_iff.mp h
    obtain ⟨run, found⟩ := Option.isSome_iff_exists.mp (List.find?_isSome.mpr (List.any_eq_true.mp guarded))
    exact ⟨run, found, inserted, rfl⟩
  · cases h

theorem sound_commit {s : State} {runId token : Nat} {scope : AgentReplyScope} {chatKind : String} {draft : ReplyDraft}
    {objectId : Nat} {id : String} {now : Time} (sound : Sound s) :
    Sound (s.commit (createSendUnderRunLease s.db runId token scope chatKind draft objectId id now)) := by
  cases committed : createSendUnderRunLease s.db runId token scope chatKind draft objectId id now with
  | none => exact sound
  | some next =>
    obtain ⟨run, found, inserted, runs⟩ := createSend_cases committed
    have moves := insertReplySend_moves inserted
    have present : replySend objectId id (replyTarget scope chatKind) draft now ∈ next.sends.requests := by
      unfold insertReplySend at inserted
      split at inserted
      · cases inserted
      · rw [← Option.some.inj inserted]
        exact List.mem_append_right _ List.mem_cons_self
    have written : Written next.sends.requests (fun run => run.leasedTo runId token now && run.scope == scope)
        (AgentReplyRun.complete objectId draft now) := by
      refine ⟨fun run matched => ?_, fun run matched => ?_⟩
      · rw [(leasedTo_iff.mp (Bool.and_eq_true_iff.mp matched).1).2.1]
        rfl
      · obtain rfl : run.scope = scope := beq_iff_eq.mp (Bool.and_eq_true_iff.mp matched).2
        refine ⟨rfl, rfl, rfl, (by intro _ h; cases h), fun ok =>
          ⟨ok.attempts, by simp [AgentReplyRun.complete], ?_, (by intro h; cases h)⟩⟩
        intro _ h
        cases h
        exact ⟨_, present, rfl, answers_reply.mpr rfl⟩
    have moved : Moved next.sends.requests s.runs next.runs := by
      rw [runs]
      exact moved_update written
    have closed : ∀ row, row = replySend objectId id (replyTarget scope chatKind) draft now → ∀ other,
        answers other row = true → ∃ run ∈ next.runs, run.scope = other ∧ run.state = .complete := by
      rintro _ rfl other answer
      obtain rfl := answers_reply.mp answer
      have matched := List.find?_some (p := fun run : AgentReplyRun => run.leasedTo runId token now && run.scope == other) found
      refine ⟨run.complete objectId draft now, ?_, beq_iff_eq.mp (Bool.and_eq_true_iff.mp matched).2, rfl⟩
      rw [runs]
      exact mem_updateOne_found found
    have whole : Sound { s with runs := next.runs, sends := { s.sends with db := next.sends } } :=
      sound_write sound moves moved closed
    exact whole

theorem sound_land {s : State} {index : Nat} {operation : Operation} {callback : Callback} (sound : Sound s)
    (member : operation ∈ s.operations) (called : s.callbacks[operation.callback]? = some callback) :
    Sound (land s index operation callback) := by
  have landed : ∀ {s : State}, Sound s → Sound (s.setWork index operation .landed) :=
    fun sound => sound_work sound (by intro _ h; cases h)
  unfold land
  split
  · exact landed (sound_runs sound (moved_update (renew_written _ _ _ _)))
  · exact landed (sound_runs sound (moved_update (fail_written _ _ _ _ _ _ _)))
  · split
    · exact landed (sound_commit sound)
    · exact sound
  · split
    · exact landed (sound_commit sound)
    · exact sound
  · split
    · exact landed sound
    · rename_i send found
      refine sound_work sound fun _ _ => ⟨callback, called, send, List.mem_of_find?_eq_some found, ?_⟩
      exact List.find?_some found
  · rename_i id work
    obtain ⟨other, otherCalled, send, sent, answer⟩ := sound.finishing operation member id work
    obtain rfl : other = callback := Option.some.inj (otherCalled.symm.trans called)
    rw [updateOne_of_no_match (unfinished_none sound sent answer)]
    exact landed sound
  · exact sound

/-! ### Every step -/

/-- What one step may do. -/
inductive Steps (s : State) : State → Prop
  | still : Steps s s
  | tick {now : Time} : Steps s { s with clock := max s.clock now }
  | sends {e : Sends.Event} : e.isReply = false → Steps s { s with sends := Sends.step s.sends e }
  | called {scope : AgentReplyScope} :
      Steps s { s with callbacks := s.callbacks ++ [⟨scope, .waiting, false, false⟩] }
  | advanced {index : Nat} {callback next : Callback} : s.callbacks[index]? = some callback →
      next.scope = callback.scope → next.won = callback.won →
      (CallbackOk s.runs callback → CallbackOk s.runs next) → Steps s (s.setCallback index next)
  | claimed {index : Nat} {callback : Callback} {now : Time} {next : ClaimStep} :
      s.callbacks[index]? = some callback → callback.stage = .claiming now next →
      Steps s ((s.setRuns (claimAgentReplyRun s.runs callback.scope index now next).runs).setCallback index
        { callback with
          stage := (claimAgentReplyRun s.runs callback.scope index now next).stage
          won := callback.won || (claimAgentReplyRun s.runs callback.scope index now next).won })
  | issued {index : Nat} {callback : Callback} {request : Request} {work : Work} :
      s.callbacks[index]? = some callback → request.work callback.stage = some work →
      Steps s { s with operations := s.operations ++ [⟨index, s.clock, work⟩] }
  | landed {index : Nat} {operation : Operation} {callback : Callback} :
      s.operations[index]? = some operation → s.callbacks[operation.callback]? = some callback →
      Steps s (land s index operation callback)

theorem step_cases (s : State) (e : Event) : Steps s (step s e) := by
  cases e with
  | tick now => exact .tick
  | sends e =>
    simp only [step]
    split
    · exact .still
    · rename_i foreign
      exact .sends (Bool.eq_false_iff.mpr foreign)
  | call scope => exact .called
  | readClock index =>
    simp only [step]
    split
    · exact .still
    · rename_i callback found
      split
      · rename_i waiting
        refine .advanced found rfl rfl fun ok => ?_
        have lost := ok.racing (by rw [waiting]; rfl)
        exact ⟨fun _ => lost, ok.modelled, (by intro _ h; cases h), (by intro _ _ h; cases h), ok.known⟩
      · exact .still
  | claim index =>
    simp only [step]
    split
    · exact .still
    · rename_i callback found
      split
      · rename_i now next stage
        exact .claimed found stage
      · exact .still
  | callModel index =>
    simp only [step]
    split
    · exact .still
    · rename_i callback found
      split
      · rename_i run stage
        exact .advanced found rfl rfl fun ok =>
          ⟨ok.racing, fun _ => ok.claimed run stage, ok.claimed, ok.inserted, ok.known⟩
      · exact .still
  | stop index =>
    simp only [step]
    split
    · exact .still
    · rename_i callback found
      exact .advanced found rfl rfl fun ok =>
        ⟨(by intro h; cases h), ok.modelled, (by intro _ h; cases h), (by intro _ _ h; cases h), ok.known⟩
  | issue index request =>
    simp only [step]
    split
    · exact .still
    · rename_i work issued
      obtain ⟨callback, found, asked⟩ := Option.bind_eq_some_iff.mp issued
      exact .issued found asked
  | land index =>
    simp only [step]
    split
    · exact .still
    · rename_i operation found
      split
      · exact .still
      · rename_i callback called
        exact .landed found called

theorem sound_sends {s : State} (sound : Sound s) {e : Sends.Event} (foreign : e.isReply = false) :
    Sound { s with sends := Sends.step s.sends e } := by
  refine sound_write sound (step_moves s.sends e) (moved_refl _ _) fun row none scope answer => ?_
  simp [answers, none foreign] at answer

theorem sound_call {s : State} (sound : Sound s) (scope : AgentReplyScope) :
    Sound { s with callbacks := s.callbacks ++ [⟨scope, .waiting, false, false⟩] } := by
  have fresh : CallbackOk s.runs ⟨scope, .waiting, false, false⟩ :=
    ⟨fun _ => rfl, (by intro h; cases h), (by intro _ h; cases h), (by intro _ _ h; cases h), by intro h; cases h⟩
  refine { sound with callbacks := ?_, tokens := ?_, wins := ?_, finishing := ?_ }
  · intro callback present
    rcases List.mem_append.mp present with old | new
    · exact sound.callbacks callback old
    · exact List.mem_singleton.mp new ▸ fresh
  · intro run member lease held
    obtain ⟨callback, found, owner⟩ := sound.tokens run member lease held
    exact ⟨callback, List.getElem?_append_left (List.getElem?_eq_some_iff.mp found).1 ▸ found, owner⟩
  · intro run member
    have same : wins (s.callbacks ++ [⟨scope, .waiting, false, false⟩]) run.scope = wins s.callbacks run.scope := by
      simp [wins]
    rw [same]
    exact sound.wins run member
  · intro operation member id work
    obtain ⟨callback, found, send⟩ := sound.finishing operation member id work
    exact ⟨callback, List.getElem?_append_left (List.getElem?_eq_some_iff.mp found).1 ▸ found, send⟩

theorem sound_issue {s : State} {index : Nat} {request : Request} {stage : Stage} {work : Work} (sound : Sound s)
    (asked : request.work stage = some work) :
    Sound { s with operations := s.operations ++ [⟨index, s.clock, work⟩] } := by
  refine { sound with finishing := ?_ }
  intro operation present id same
  rcases List.mem_append.mp present with old | new
  · exact sound.finishing operation old id same
  · rw [List.mem_singleton.mp new] at same
    obtain rfl : work = .finish id := same
    unfold Request.work at asked
    split at asked <;> cases asked

theorem step_sound (s : State) (e : Event) (sound : Sound s) : Sound (step s e) := by
  have steps := step_cases s e
  generalize step s e = next at steps ⊢
  cases steps with
  | still => exact sound
  | tick => exact { sound with }
  | sends foreign => exact sound_sends sound foreign
  | called => exact sound_call sound _
  | advanced found scope won ok =>
    exact sound_callback sound found scope won (ok (sound.callbacks _ (List.mem_of_getElem? found)))
  | claimed found stage => exact sound_claimStep sound found stage
  | issued _ asked => exact sound_issue sound asked
  | landed found called => exact sound_land sound (List.mem_of_getElem? found) called

theorem start_sound (messages : List Ingest.MessageRow) (clock : Time) : Sound (start messages clock) := by
  refine ⟨List.nodup_nil, ?_, ?_, ?_, ?_, ?_, List.nodup_nil, ?_⟩ <;> simp [start, Sends.start]

end GroupButler.Replies
