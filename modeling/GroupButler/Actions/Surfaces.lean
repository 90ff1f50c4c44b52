import GroupButler.Actions.Command
import GroupButler.Actions.Once

/-!
# The requests that decide

The owner decides in the console or by a direct message, and the assistant approves what it may do
itself. Each request makes its own call of the executor, or none: the direct message answers without
one.
-/

namespace GroupButler.Actions.Surfaces
open Foundation Store Sends

inductive Surface where
  | console | directMessage | assistant
  deriving DecidableEq, Repr

inductive RequestStage where
  | deciding
  /-- Inside `executeAction`. -/
  | executing (executor : Nat)
  | answering
  | answered
  deriving DecidableEq, Repr

structure Request where
  surface : Surface
  input : DecideActionInput
  stage : RequestStage
  /-- The row its decision approved. -/
  approved : Option (String × String)

structure State where
  actions : Actions.State
  requests : List Request

def start (messages : List Ingest.MessageRow) : State := ⟨Actions.start messages, []⟩

inductive Event where
  | sends (e : Sends.Event)
  /-- A staging tool call of the assistant. -/
  | stage (input : StageActionInput) (id shortId : String) (now : Time)
  | console (organizationId id : String) (decision : PendingActionDecision) (decidedBy ip : String)
  | message (organizationId text ownerJid : String)
  | decide (index : Nat) (now : Time)
  | executor (index : Nat) (action : Action)
  | answer (index : Nat)

def autonomousActions : List String := ["group_rename", "group_set_announce", "group_set_locked", "group_send"]

def autonomyActor : String := "assistant:low-risk-policy"

def State.push (s : State) (surface : Surface) (input : DecideActionInput) : State :=
  { s with requests := s.requests ++ [⟨surface, input, .deciding, none⟩] }

def State.setRequest (s : State) (index : Nat) (request : Request) : State :=
  { s with requests := s.requests.set index request }

def State.execute (s : State) (executor : Executor) : State :=
  { s with actions := { s.actions with executors := s.actions.executors ++ [executor] } }

/-- What follows a decision: a request that approved calls the executor with the decided row, unless it
came as a direct message. -/
def decided (s : State) (index : Nat) (request : Request) (row : ActionRow) : State :=
  if row.state = .approved then
    if request.surface = .directMessage then
      s.setRequest index { request with stage := .answering, approved := some row.name }
    else
      (s.execute ⟨row, request.input.ip, .called⟩).setRequest index
        { request with stage := .executing s.actions.executors.length, approved := some row.name }
  else s.setRequest index { request with stage := .answering }

/-- The executor has returned, or thrown. -/
def finished : Stage → Bool
  | .done _ | .stopped => true
  | _ => false

/-- The staging call stored its row. -/
def stored (before after : Actions.State) : Bool := before.actions.length < after.actions.length

def step [Datetimes] (s : State) : Event → State
  | .sends e => { s with actions := Actions.step s.actions (.sends e) }
  | .stage input id shortId now =>
    let staged := { s with actions := Actions.step s.actions (.stage input id shortId now) }
    if stored s.actions staged.actions ∧ input.action ∈ autonomousActions then
      staged.push .assistant ⟨.id id, input.organizationId, .approve, autonomyActor, "internal"⟩
    else staged
  | .console organizationId id decision decidedBy ip => s.push .console ⟨.id id, organizationId, decision, decidedBy, ip⟩
  | .message organizationId text ownerJid =>
    match approvalCommand text with
    | none => s
    | some command => s.push .directMessage (command.input organizationId ownerJid)
  | .decide index now =>
    match s.requests[index]? with
    | none => s
    | some request =>
      if request.stage = .deciding then
        match decideAction s.actions.db request.input now with
        | none => s.setRequest index { request with stage := .answering }
        | some (db, row) => decided { s with actions := s.actions.commit db } index request row
      else s
  | .executor index action => { s with actions := Actions.step s.actions (.executor index action) }
  | .answer index =>
    match s.requests[index]? with
    | none => s
    | some request =>
      match request.stage with
      | .answering => s.setRequest index { request with stage := .answered }
      | .executing executor =>
        if (s.actions.executors[executor]?).any fun executor => finished executor.stage then
          s.setRequest index { request with stage := .answered }
        else s
      | _ => s

/-! ### The trail below the requests -/

def trail (s : Actions.State) (kind : AuditAction) (name : String × String) : Nat :=
  s.sends.db.auditLog.countP (audits kind name)

/-- The log grows, and by no approval. -/
def Quiet (s t : Actions.State) : Prop :=
  ∃ entries, t.sends.db.auditLog = s.sends.db.auditLog ++ entries ∧
    ∀ entry ∈ entries, ∀ name, audits .actionApproved name entry = false

def Grown (s t : Actions.State) : Prop := ∀ kind name, trail s kind name ≤ trail t kind name

theorem grown_log {s t : Actions.State} {entries : List AuditEntry}
    (log : t.sends.db.auditLog = s.sends.db.auditLog ++ entries) : Grown s t := by
  intro kind name
  unfold trail
  rw [log, List.countP_append]
  exact Nat.le_add_right _ _

theorem quiet_grown {s t : Actions.State} (quiet : Quiet s t) : Grown s t := by
  obtain ⟨entries, log, _⟩ := quiet
  exact grown_log log

theorem quiet_approvals {s t : Actions.State} (quiet : Quiet s t) (name : String × String) :
    trail t .actionApproved name = trail s .actionApproved name := by
  obtain ⟨entries, log, none⟩ := quiet
  unfold trail
  rw [log, List.countP_append, Nat.add_eq_left, List.countP_eq_zero]
  intro entry listed
  rw [none entry listed name]
  exact Bool.false_ne_true

theorem quiet_same {s t : Actions.State} (same : t.sends.db.auditLog = s.sends.db.auditLog) : Quiet s t :=
  ⟨[], by rw [same, List.append_nil], by simp⟩

theorem quiet_moves {s : Actions.State} {inserted : SendRow → Prop} {sends : Sends.State}
    (moves : Moves inserted s.sends.db sends.db) : Quiet s { s with sends } := by
  obtain ⟨entries, log, about⟩ := moves_audit moves
  refine ⟨entries, log, fun entry listed name => Bool.eq_false_iff.mpr fun audited => ?_⟩
  simp only [audits, Bool.and_eq_true, beq_iff_eq] at audited
  have type := about entry listed
  rw [audited.2] at type
  cases type

theorem quiet_entry {s t : Actions.State} {entry : AuditEntry} (log : t.sends.db.auditLog = s.sends.db.auditLog ++ [entry])
    (other : entry.action ≠ .actionApproved) : Quiet s t := by
  refine ⟨[entry], log, fun new listed name => Bool.eq_false_iff.mpr fun audited => ?_⟩
  obtain rfl := List.mem_singleton.mp listed
  simp only [audits, Bool.and_eq_true, beq_iff_eq] at audited
  exact other audited.1.1

theorem transact_log {db next : ActionDb} {filter : ActionRow → Bool} {change : ActionRow → ActionRow}
    {entry : ActionRow → AuditEntry} {after : ActionRow} (h : transact db filter change entry = some (next, after)) :
    next.auditLog = db.auditLog ++ [entry after] := by
  obtain ⟨row, _, rfl, rfl⟩ := transact_cases h
  rfl

theorem act_quiet [Datetimes] (s : Actions.State) (index : Nat) (executor : Executor) (action : Action) :
    Quiet s (act s index executor action) := by
  unfold act
  split
  · -- claim
    split
    · split
      · exact quiet_same rfl
      · rename_i won
        exact quiet_entry (transact_log won) (by intro h; cases h)
    · exact quiet_same rfl
  · exact quiet_same rfl
  · -- cancel
    dsimp only
    split
    · exact quiet_moves (transitionSend_moves (fun _ => False) s.sends.db _ _ _ _ _ _)
    · exact quiet_same rfl
  · -- create
    split
    · exact quiet_moves (createSend_moves s.sends.db _ _ _ _)
    · exact quiet_same rfl
  · exact quiet_same rfl
  · exact quiet_same rfl
  · exact quiet_same rfl
  · exact quiet_same rfl
  · -- settle
    rename_i now settlement _
    split
    · exact quiet_same rfl
    · rename_i stored
      apply quiet_entry (transact_log stored)
      show settlement.audit ≠ .actionApproved
      unfold Settlement.audit
      split <;> rintro ⟨⟩
  · exact quiet_same rfl
  · exact quiet_same rfl
  · exact quiet_same rfl

theorem act_executors [Datetimes] (s : Actions.State) (index : Nat) (executor : Executor) (action : Action) :
    (act s index executor action).executors = s.executors ∨
      ∃ stage, (act s index executor action).executors = s.executors.set index { executor with stage } := by
  unfold act
  split
  · split
    · split
      · exact Or.inr ⟨_, rfl⟩
      · exact Or.inr ⟨_, rfl⟩
    · exact Or.inr ⟨_, rfl⟩
  · exact Or.inr ⟨_, rfl⟩
  · dsimp only
    split <;> exact Or.inr ⟨_, rfl⟩
  · split
    · exact Or.inr ⟨_, rfl⟩
    · exact Or.inl rfl
  · exact Or.inr ⟨_, rfl⟩
  · exact Or.inr ⟨_, rfl⟩
  · exact Or.inr ⟨_, rfl⟩
  · exact Or.inr ⟨_, rfl⟩
  · split <;> exact Or.inr ⟨_, rfl⟩
  · exact Or.inl rfl
  · exact Or.inr ⟨_, rfl⟩
  · exact Or.inl rfl

/-- A row that was approved and never attempted can be claimed. -/
theorem row_attempted {s : Actions.State} (sound : Sound s) {name : String × String} (approved : 1 ≤ trail s .actionApproved name)
    (unclaimable : ∀ row ∈ s.actions, row.name = name → row.state = .approved → row.result ≠ none) :
    1 ≤ trail s .actionExecutionAttempted name := by
  unfold trail at approved ⊢
  rw [sound.audit] at approved ⊢
  obtain ⟨row, member, shown⟩ := List.countP_pos_iff.mp approved
  simp only [Bool.and_eq_true, beq_iff_eq] at shown
  obtain ⟨rfl, shown⟩ := shown
  refine List.countP_pos_iff.mpr ⟨row, member, ?_⟩
  have some_ : row.result ≠ none := by
    intro none
    cases sound.rows row member with
    | idle notExecuted notFailed _ _ =>
      have state : row.state = .approved := by
        simp only [ActionRow.shows, Bool.or_eq_true, beq_iff_eq] at shown
        rcases shown with (approved | executed) | failed
        · exact approved
        · exact (notExecuted executed).elim
        · exact (notFailed failed).elim
      exact unclaimable row member rfl state none
    | inFlight flying _ =>
      rw [flying.2] at none
      cases none
    | settled settlement _ _ result =>
      rw [result] at none
      cases none
  simp [ActionRow.shows, Option.isSome_iff_ne_none, some_]

/-- A call of the executor that is still to claim its row claims it, or finds it claimed. -/
theorem act_attempts [Datetimes] {s : Actions.State} {index : Nat} {executor : Executor} (sound : Sound s)
    (approved : executor.action.state = .approved) (shown : 1 ≤ trail s .actionApproved executor.action.name)
    (called : executor.stage = .called) {action : Action} (going : action ≠ .stop) :
    act s index executor action = s ∨
      1 ≤ trail (act s index executor action) .actionExecutionAttempted executor.action.name := by
  cases action with
  | stop => exact (going rfl).elim
  | claim now =>
    right
    unfold act
    rw [called]
    dsimp only
    rw [if_pos approved]
    split
    · rename_i lost
      apply row_attempted sound shown
      intro row member name state none
      have unmatched := Option.map_eq_none_iff.mp lost
      apply List.find?_eq_none.mp unmatched row member
      obtain ⟨organization, id⟩ := Prod.mk.inj name
      simp [ActionRow.approvedAs, organization, id, state, none]
    · rename_i db after won
      unfold trail
      show 1 ≤ db.auditLog.countP _
      rw [transact_log won, List.countP_append, List.countP_singleton, if_pos]
      · exact Nat.le_add_left 1 _
      · simp [audits, attemptAudit, actionAudit, ActionRow.name]
  | begin | cancel _ | create _ _ _ | call | answer _ | readBack | settle _ =>
    left
    unfold act
    rw [called]

/-! ### The condition -/

def unclaimed : Stage → Bool
  | .called => true
  | _ => false

/-- No direct message approves an action, and no executor is lost before its claim. -/
def Routed (s : State) : Event → Prop
  | .decide index _ => ∀ request ∈ s.requests[index]?, request.surface = .directMessage → request.stage = .deciding →
      request.input.decision = .approve → ∀ row ∈ s.actions.actions, undecided request.input row = false
  | .executor index .stop => ∀ executor ∈ s.actions.executors[index]?, unclaimed executor.stage = false
  | _ => True

instance (s : State) : (e : Event) → Decidable (Routed s e)
  | .decide index _ => inferInstanceAs (Decidable (∀ request ∈ s.requests[index]?, request.surface = .directMessage →
      request.stage = .deciding → request.input.decision = .approve → ∀ row ∈ s.actions.actions,
        undecided request.input row = false))
  | .executor index .stop =>
    inferInstanceAs (Decidable (∀ executor ∈ s.actions.executors[index]?, unclaimed executor.stage = false))
  | .executor _ (.claim _) | .executor _ .begin | .executor _ (.cancel _) | .executor _ (.create _ _ _)
  | .executor _ .call | .executor _ (.answer _) | .executor _ .readBack | .executor _ (.settle _) => .isTrue trivial
  | .sends _ | .stage _ _ _ _ | .console _ _ _ _ _ | .message _ _ _ | .answer _ => .isTrue trivial

/-! ### What the requests rely on -/

structure RequestOk (s : Actions.State) (request : Request) : Prop where
  pending : request.stage = .deciding → request.approved = none
  shown : ∀ name, request.approved = some name → 1 ≤ trail s .actionApproved name
  executing : ∀ index name, request.stage = .executing index → request.approved = some name →
    ∃ executor, s.executors[index]? = some executor ∧ executor.action.name = name
  over_ : ∀ name, request.stage = .answering ∨ request.stage = .answered → request.approved = some name →
    1 ≤ trail s .actionExecutionAttempted name

structure ExecutorOk (s : Actions.State) (executor : Executor) : Prop where
  approved : executor.action.state = .approved
  shown : 1 ≤ trail s .actionApproved executor.action.name
  attempted : executor.stage ≠ .called → 1 ≤ trail s .actionExecutionAttempted executor.action.name

structure Tracked (s : State) : Prop where
  sound : Sound s.actions
  executors : ∀ executor ∈ s.actions.executors, ExecutorOk s.actions executor
  requests : ∀ request ∈ s.requests, RequestOk s.actions request
  owned : ∀ name, 1 ≤ trail s.actions .actionApproved name → ∃ request ∈ s.requests, request.approved = some name

/-- The executors stay in their places with their rows. -/
def Seated (s t : Actions.State) : Prop :=
  ∀ (index : Nat) (executor : Executor), s.executors[index]? = some executor →
    ∃ same : Executor, t.executors[index]? = some same ∧ same.action = executor.action

theorem requestOk_below {s t : Actions.State} {request : Request} (grown : Grown s t) (seated : Seated s t)
    (ok : RequestOk s request) : RequestOk t request := by
  refine ⟨ok.pending, ?_, ?_, ?_⟩
  · intro name approved
    exact (ok.shown name approved).trans (grown _ name)
  · intro index name executing approved
    obtain ⟨executor, found, rfl⟩ := ok.executing index name executing approved
    obtain ⟨same, still, action⟩ := seated index executor found
    exact ⟨same, still, by rw [action]⟩
  · intro name closed approved
    exact (ok.over_ name closed approved).trans (grown _ name)

theorem executorOk_below {s t : Actions.State} {executor : Executor} (grown : Grown s t) (ok : ExecutorOk s executor) :
    ExecutorOk t executor :=
  ⟨ok.approved, ok.shown.trans (grown _ _), fun moved => (ok.attempted moved).trans (grown _ _)⟩

/-- A step below the requests that approves nothing. -/
theorem tracked_below {s : State} {actions : Actions.State} (tracked : Tracked s) (sound : Sound actions)
    (quiet : Quiet s.actions actions) (seated : Seated s.actions actions)
    (executors : ∀ executor ∈ actions.executors, ExecutorOk actions executor) : Tracked { s with actions } := by
  refine ⟨sound, executors, ?_, ?_⟩
  · intro request member
    exact requestOk_below (quiet_grown quiet) seated (tracked.requests request member)
  · intro name approved
    have before : 1 ≤ trail s.actions .actionApproved name := quiet_approvals quiet name ▸ approved
    exact tracked.owned name before

theorem tracked_quiet {s : State} {actions : Actions.State} (tracked : Tracked s) (sound : Sound actions)
    (quiet : Quiet s.actions actions) (same : actions.executors = s.actions.executors) : Tracked { s with actions } := by
  apply tracked_below tracked sound quiet
  · intro index executor found
    exact ⟨executor, same ▸ found, rfl⟩
  · intro executor member
    exact executorOk_below (quiet_grown quiet) (tracked.executors executor (same ▸ member))

theorem tracked_executor [Datetimes] {s : State} {index : Nat} {executor : Executor} {action : Action} (tracked : Tracked s)
    (found : s.actions.executors[index]? = some executor) (going : executor.stage = .called → action ≠ .stop) :
    Tracked { s with actions := act s.actions index executor action } := by
  have member := List.mem_of_getElem? found
  have ok := tracked.executors executor member
  have quiet := act_quiet s.actions index executor action
  have sound := act_sound tracked.sound found action
  rcases act_executors s.actions index executor action with same | ⟨stage, changed⟩
  · exact tracked_quiet tracked sound quiet same
  · apply tracked_below tracked sound quiet
    · intro place other there
      rw [changed]
      by_cases here : index = place
      · subst here
        obtain rfl : executor = other := Option.some.inj (found.symm.trans there)
        exact ⟨{ executor with stage }, List.getElem?_set_self (List.getElem?_eq_some_iff.mp found).1, rfl⟩
      · exact ⟨other, (List.getElem?_set_ne here).trans there, rfl⟩
    · intro other present
      rw [changed] at present
      rcases List.mem_or_eq_of_mem_set present with old | rfl
      · exact executorOk_below (quiet_grown quiet) (tracked.executors other old)
      · refine ⟨ok.approved, ok.shown.trans (quiet_grown quiet _ _), fun moved => ?_⟩
        by_cases called : executor.stage = .called
        · rcases act_attempts tracked.sound ok.approved ok.shown called (going called) with still | attempted
          · rw [still] at changed ⊢
            have listed : { executor with stage } ∈ s.actions.executors := changed ▸ mem_set_new found
            exact (tracked.executors _ listed).attempted moved
          · exact attempted
        · exact (ok.attempted called).trans (quiet_grown quiet _ _)

theorem tracked_push {s : State} (tracked : Tracked s) (surface : Surface) (input : DecideActionInput) :
    Tracked (s.push surface input) := by
  refine ⟨tracked.sound, tracked.executors, ?_, ?_⟩
  · intro request member
    rcases List.mem_append.mp member with old | new
    · exact tracked.requests request old
    · obtain rfl := List.mem_singleton.mp new
      exact ⟨fun _ => rfl, (by intro _ h; cases h), (by intro _ _ _ h; cases h), (by intro _ _ h; cases h)⟩
  · intro name approved
    obtain ⟨request, member, owner⟩ := tracked.owned name approved
    exact ⟨request, List.mem_append_left _ member, owner⟩

/-- A request moves on, and keeps the row it approved. -/
theorem tracked_setRequest {s : State} {index : Nat} {request next : Request} (tracked : Tracked s)
    (found : s.requests[index]? = some request) (ok : RequestOk s.actions next)
    (kept : request.approved = none ∨ next.approved = request.approved) : Tracked (s.setRequest index next) := by
  refine ⟨tracked.sound, tracked.executors, ?_, ?_⟩
  · intro other member
    rcases List.mem_or_eq_of_mem_set member with old | rfl
    · exact tracked.requests other old
    · exact ok
  · intro name approved
    obtain ⟨owner, member, owns⟩ := tracked.owned name approved
    rcases mem_set_of_mem found member with rfl | still
    · rcases kept with none | same
      · rw [none] at owns
        cases owns
      · exact ⟨next, mem_set_new found, same.trans owns⟩
    · exact ⟨owner, still, owns⟩

/-- A decision that approved nothing leaves its request with the answer to give. -/
theorem answering_ok {s : Actions.State} {request : Request} (unapproved : request.approved = none) :
    RequestOk s { request with stage := .answering } := by
  refine ⟨(by intro h; cases h), ?_, (by intro _ _ h; cases h), ?_⟩
  · intro name approved
    rw [show request.approved = some name from approved] at unapproved
    cases unapproved
  · intro name _ approved
    rw [show request.approved = some name from approved] at unapproved
    cases unapproved

/-! ### Decisions -/

theorem state_approved {decision : PendingActionDecision} : decision.state = .approved ↔ decision = .approve := by
  cases decision <;> simp [PendingActionDecision.state]

theorem audit_approved {decision : PendingActionDecision} : decision.audit = .actionApproved ↔ decision = .approve := by
  cases decision <;> simp [PendingActionDecision.audit]

structure Decides (s : Actions.State) (input : DecideActionInput) (db : ActionDb) (row : ActionRow) (entry : AuditEntry) :
    Prop where
  log : db.auditLog = s.sends.db.auditLog ++ [entry]
  kind : entry.action = input.decision.audit
  concerns : Concerns entry row
  state : row.state = input.decision.state
  known : row.name ∈ db.actions.map ActionRow.name
  pending : ∃ old ∈ s.actions, undecided input old = true

theorem decide_cases {s : Actions.State} {input : DecideActionInput} {now : Time} {db : ActionDb} {row : ActionRow}
    (decided : decideAction s.db input now = some (db, row)) : ∃ entry, Decides s input db row entry := by
  have log := transact_log decided
  obtain ⟨old, found, rfl, rfl⟩ := transact_cases decided
  refine ⟨_, log, rfl, ⟨rfl, rfl⟩, rfl, ?_, old, List.mem_of_find?_eq_some found, by simpa using List.find?_some found⟩
  exact List.mem_map_of_mem (mem_updateOne_found found)

/-- An approval by a request that calls the executor. -/
theorem tracked_approved {s : State} {index : Nat} {request : Request} {db : ActionDb} {row : ActionRow} {entry : AuditEntry}
    (tracked : Tracked s) (found : s.requests[index]? = some request) (sound : Sound (s.actions.commit db))
    (decides : Decides s.actions request.input db row entry) (approve : row.state = .approved)
    (fresh : request.approved = none) :
    Tracked ((State.execute { s with actions := s.actions.commit db } ⟨row, request.input.ip, .called⟩).setRequest index
      { request with stage := .executing s.actions.executors.length, approved := some row.name }) := by
  have grown : Grown s.actions (s.actions.commit db) := grown_log decides.log
  have approvals : ∀ name, trail (s.actions.commit db) .actionApproved name =
      trail s.actions .actionApproved name + if row.name = name then 1 else 0 := by
    intro name
    have kind : entry.action = .actionApproved :=
      decides.kind.trans (audit_approved.mpr (state_approved.mp (decides.state.symm.trans approve)))
    unfold trail
    show db.auditLog.countP _ = _
    rw [decides.log, List.countP_append, List.countP_singleton, audits_of_concerns decides.concerns, kind]
    simp
  have shown : 1 ≤ trail (s.actions.commit db) .actionApproved row.name := by
    rw [approvals, if_pos rfl]
    exact Nat.le_add_left 1 _
  have seated : Seated s.actions { s.actions.commit db with
      executors := s.actions.executors ++ [⟨row, request.input.ip, .called⟩] } := by
    intro place executor there
    exact ⟨executor, List.getElem?_append_left (List.getElem?_eq_some_iff.mp there).1 ▸ there, rfl⟩
  refine ⟨sound_push sound decides.known rfl, ?_, ?_, ?_⟩
  · intro executor member
    rcases List.mem_append.mp member with old | new
    · exact executorOk_below grown (tracked.executors executor old)
    · obtain rfl := List.mem_singleton.mp new
      exact ⟨approve, shown, fun moved => (moved rfl).elim⟩
  · intro other member
    rcases List.mem_or_eq_of_mem_set member with old | rfl
    · exact requestOk_below grown seated (tracked.requests other old)
    · refine ⟨(by intro h; cases h), ?_, ?_, ?_⟩
      · intro _ h
        cases h
        exact shown
      · rintro _ _ ⟨⟩ ⟨⟩
        exact ⟨_, List.getElem?_concat_length, rfl⟩
      · rintro _ (closed | closed) <;> cases closed
  · intro name approved
    have split_ : 1 ≤ trail s.actions .actionApproved name + if row.name = name then 1 else 0 := approvals name ▸ approved
    by_cases same : row.name = name
    · exact ⟨_, mem_set_new found, congrArg some same⟩
    · rw [if_neg same] at split_
      obtain ⟨owner, member, owns⟩ := tracked.owned name split_
      rcases mem_set_of_mem found member with rfl | still
      · rw [fresh] at owns
        cases owns
      · exact ⟨owner, still, owns⟩

theorem step_tracked [Datetimes] (s : State) (e : Event) (tracked : Tracked s) (routed : Routed s e) :
    Tracked (step s e) := by
  cases e with
  | sends e =>
    have moves := step_moves s.actions.sends e
    exact tracked_quiet tracked (step_sound s.actions (.sends e) tracked.sound) (quiet_moves moves) rfl
  | stage input id shortId now =>
    have staged : Tracked { s with actions := Actions.step s.actions (.stage input id shortId now) } := by
      apply tracked_quiet tracked (step_sound s.actions (.stage input id shortId now) tracked.sound)
      · unfold Actions.step stageAction
        dsimp only
        split
        · split
          · exact quiet_same rfl
          · exact quiet_entry rfl (by intro h; cases h)
        · exact quiet_same rfl
      · unfold Actions.step
        dsimp only
        split <;> rfl
    unfold step
    dsimp only
    split
    · exact tracked_push staged _ _
    · exact staged
  | console organizationId id decision decidedBy ip => exact tracked_push tracked _ _
  | message organizationId text ownerJid =>
    unfold step
    dsimp only
    split
    · exact tracked
    · exact tracked_push tracked _ _
  | decide index now =>
    unfold step
    dsimp only
    split
    · exact tracked
    · rename_i request found
      split
      · rename_i deciding
        have fresh := (tracked.requests request (List.mem_of_getElem? found)).pending deciding
        split
        · exact tracked_setRequest tracked found (answering_ok fresh) (Or.inl fresh)
        · rename_i db row decision
          have sound := sound_decide tracked.sound decision
          obtain ⟨entry, decides⟩ := decide_cases decision
          unfold decided
          split
          · rename_i approved
            split
            · rename_i direct
              have approve := state_approved.mp (decides.state.symm.trans approved)
              obtain ⟨old, member, pending⟩ := decides.pending
              rw [routed request found direct deciding approve old member] at pending
              cases pending
            · exact tracked_approved tracked found sound decides approved fresh
          · rename_i refused
            have quiet : Quiet s.actions (s.actions.commit db) := by
              apply quiet_entry decides.log
              rw [decides.kind]
              intro approve
              exact refused (decides.state.trans (state_approved.mpr (audit_approved.mp approve)))
            exact tracked_setRequest (tracked_quiet tracked sound quiet rfl) found (answering_ok fresh) (Or.inl fresh)
      · exact tracked
  | executor index action =>
    unfold step Actions.step
    dsimp only
    split
    · exact tracked
    · rename_i executor found
      apply tracked_executor tracked found
      rintro called rfl
      have claimed := routed executor found
      rw [called] at claimed
      cases claimed
  | answer index =>
    unfold step
    dsimp only
    split
    · exact tracked
    · rename_i request found
      have ok := tracked.requests request (List.mem_of_getElem? found)
      split
      · rename_i answering
        refine tracked_setRequest tracked found ⟨(by intro h; cases h), ok.shown, (by intro _ _ h; cases h), ?_⟩ (Or.inr rfl)
        intro name _ approved
        exact ok.over_ name (Or.inl answering) approved
      · rename_i place executing
        split
        · rename_i returned
          refine tracked_setRequest tracked found ⟨(by intro h; cases h), ok.shown, (by intro _ _ h; cases h), ?_⟩ (Or.inr rfl)
          intro name _ approved
          obtain ⟨executor, there, rfl⟩ := ok.executing place name executing approved
          rw [there, Option.any_some] at returned
          apply (tracked.executors executor (List.mem_of_getElem? there)).attempted
          intro called
          rw [called] at returned
          cases returned
        · exact tracked
      · exact tracked

/-! ### Runs -/

structure Performed (s : State) : Prop where
  attempted : ∀ request ∈ s.requests, request.stage = .answered → ∀ name, request.approved = some name →
    trail s.actions .actionExecutionAttempted name = 1 ∧
    ∀ row ∈ s.actions.actions, row.name = name → row.state = .approved → row.result ≠ none
  owned : ∀ row ∈ s.actions.actions, row.state = .approved → ∃ request ∈ s.requests, request.approved = some row.name

theorem tracked_performed {s : State} (tracked : Tracked s) : Performed s := by
  refine ⟨?_, ?_⟩
  · intro request member answered name approved
    have attempted := (tracked.requests request member).over_ name (Or.inr answered) approved
    have counted : 0 < s.actions.actions.countP fun row => row.name == name && row.shows .actionExecutionAttempted :=
      tracked.sound.audit .actionExecutionAttempted name ▸ attempted
    obtain ⟨row, stored, shown⟩ := List.countP_pos_iff.mp counted
    simp only [Bool.and_eq_true, beq_iff_eq] at shown
    obtain ⟨rfl, shown⟩ := shown
    refine ⟨?_, ?_⟩
    · show s.actions.sends.db.auditLog.countP _ = 1
      rw [sound_audit tracked.sound stored, if_pos shown]
    · intro other otherStored same _ none
      obtain rfl : other = row := List.inj_on_of_nodup_map tracked.sound.unique otherStored stored same
      rw [ActionRow.shows, none] at shown
      cases shown
  · intro row stored approved
    apply tracked.owned
    show 1 ≤ s.actions.sends.db.auditLog.countP _
    rw [sound_audit tracked.sound stored, if_pos]
    simp [ActionRow.shows, approved]

def leaving : StageActionInput := ⟨"o", "i", "1@g.us", "group_leave", .obj [], "Leave the group.", "agent", "internal"⟩

/-- The owner approves a staged action in the direct chat. -/
def approvedByMessage : List Event :=
  [.stage leaving "a" "AAAAAA" 1, .message "o" "approve aaaaaa" "1@s.whatsapp.net", .decide 0 2, .answer 0]

def teamRename : StageActionInput :=
  ⟨"o", "i", "1@g.us", "group_rename", .obj [("name", .str "Team")], "Rename the group.", "agent", "internal"⟩

end GroupButler.Actions.Surfaces
