import GroupButler.Tools.Calls

/-!
# What a write answers

The row a call stages is the only one its own steps find, so what the call answers is made of the staged
row, the worker's answer, the clock and the ids drawn, and of nothing stored.
-/

namespace GroupButler.Tools
open Foundation Store Sends Actions

section
variable {base : List ActionRow} {log : List AuditEntry} {row : ActionRow}

theorem transact_last {filter : ActionRow → Bool} {change : ActionRow → ActionRow} {entry : ActionRow → AuditEntry}
    (others : ∀ other ∈ base, filter other = false) (own : filter row = true) :
    transact ⟨base ++ [row], log⟩ filter change entry =
      some (⟨base ++ [change row], log ++ [entry (change row)]⟩, change row) := by
  have none : base.find? filter = none := List.find?_eq_none.mpr fun other member => by simp [others other member]
  have found : (base ++ [row]).find? filter = some row := by simp [List.find?_append, none, own]
  have updated : updateOne filter change (base ++ [row]) = base ++ [change row] := by
    rw [updateOne_append others, updateOne, if_pos own]
  rw [transact, found, Option.map_some, updated]

/-- Nothing before the row has its id. -/
def Newest (base : List ActionRow) (row : ActionRow) : Prop := ∀ other ∈ base, other.id ≠ row.id

theorem decideAction_last (log : List AuditEntry) (input : DecideActionInput) (now : Time) (newest : Newest base row) (ref : input.ref = .id row.id)
    (organization : input.organizationId = row.organizationId) (pending : row.state = .pending) :
    ∃ log', decideAction ⟨base ++ [row], log⟩ input now = some (⟨base ++ [row.decide input now], log'⟩, row.decide input now) := by
  refine ⟨_, transact_last ?_ ?_⟩
  · intro other member
    simp [undecided, ref, refFilter, newest other member]
  · simp [undecided, ref, refFilter, organization, pending]

theorem claim_last (log : List AuditEntry) (ip : String) (now : Time) (newest : Newest base row) (approved : row.state = .approved)
    (unclaimed : row.result = none) :
    ∃ log', claim ⟨base ++ [row], log⟩ row ip now = some (⟨base ++ [row.start now], log'⟩, row.start now) := by
  refine ⟨_, transact_last ?_ ?_⟩
  · intro other member
    simp [ActionRow.approvedAs, newest other member]
  · simp [ActionRow.approvedAs, approved, unclaimed]

theorem settle_last {action : ActionRow} (log : List AuditEntry) (settlement : Settlement) (ip : String) (now : Time)
    (newest : Newest base row)
    (claimed : action.approvedAs row = true) (running : row.result = some .running) :
    ∃ log', settle ⟨base ++ [row], log⟩ action settlement ip now =
      some (⟨base ++ [row.finish settlement now], log'⟩, row.finish settlement now) := by
  have same : row.id = action.id := by
    simp only [ActionRow.approvedAs, Bool.and_eq_true, beq_iff_eq] at claimed
    exact claimed.1.2
  refine ⟨_, transact_last ?_ ?_⟩
  · intro other member
    simp [ActionRow.approvedAs, ← same, newest other member]
  · simp [claimed, running]

end

section
variable [Datetimes] {surroundings : Surroundings} {db : Database} {base : List ActionRow} {action row : ActionRow} {ip : String}

/-! ### Executing -/

/-- What the attempt at a staged row records. -/
def attempted (surroundings : Surroundings) (action : ActionRow) (ip : String) : Settlement :=
  match begin [] action with
  | .settling settlement => settlement
  | .sending text scheduledFor =>
    let send := candidateSend surroundings.objectId surroundings.sendId (sendInput action ip text scheduledFor) (surroundings.clock 4)
    ⟨.queued send.id send.status send.scheduledFor, none⟩
  | .calling request => answerSettlement request (surroundings.runAction action.instanceId action.groupJid request)
  | _ => refuse nothingQueued

theorem begin_requests (requests : List SendRow) (other : action.action ≠ "cancel_scheduled") :
    begin requests action = begin [] action := by
  rw [begin, begin, if_neg other, if_neg other]

theorem begin_cases (other : action.action ≠ "cancel_scheduled") :
    (∃ settlement, begin [] action = .settling settlement) ∨
      (∃ text scheduledFor, begin [] action = .sending text scheduledFor) ∨ ∃ request, begin [] action = .calling request := by
  rw [begin, if_neg other]
  split
  · cases sendRequestFor action.params with
    | error failure => exact Or.inl ⟨_, rfl⟩
    | ok request => exact Or.inr (Or.inl ⟨_, _, rfl⟩)
  · cases workerRequestFor action.action action.params with
    | error failure => exact Or.inl ⟨_, rfl⟩
    | ok request => exact Or.inr (Or.inr ⟨_, rfl⟩)

omit [Datetimes] in
theorem finish_last (stored : db.actions = base ++ [row]) (newest : Newest base row) (claimed : action.approvedAs row = true)
    (running : row.result = some .running) (settlement : Settlement) :
    (finish surroundings db action ip settlement).2 =
      some (outcome action settlement (some (row.finish settlement (surroundings.clock 5)))) := by
  obtain ⟨log', settled⟩ := settle_last db.sends.auditLog settlement ip (surroundings.clock 5) newest claimed running
  rw [finish, Database.actionDb, stored, settled]

theorem executeAction_last (surroundings : Surroundings) (ip : String) (stored : db.actions = base ++ [action]) (newest : Newest base action)
    (approved : action.state = .approved) (unclaimed : action.result = none) (other : action.action ≠ "cancel_scheduled")
    (key : ∀ send ∈ db.sends.requests, send.keyed action.organizationId (sendKey action) = false) :
    (executeAction surroundings db action ip).2 =
      some (outcome action (attempted surroundings action ip)
        (some ((action.start (surroundings.clock 3)).finish (attempted surroundings action ip) (surroundings.clock 5)))) := by
  obtain ⟨log', claimed⟩ := claim_last db.sends.auditLog ip (surroundings.clock 3) newest approved unclaimed
  have finished (after : Database) (actions : after.actions = base ++ [action.start (surroundings.clock 3)])
      (settlement : Settlement) : (finish surroundings after action ip settlement).2 =
        some (outcome action settlement (some ((action.start (surroundings.clock 3)).finish settlement (surroundings.clock 5)))) := by
    apply finish_last actions newest
    · simp [ActionRow.approvedAs, ActionRow.start, approved]
    · rfl
  rw [executeAction, if_neg (by simp [approved]), Database.actionDb, stored, claimed]
  simp only [Database.commit]
  rw [begin_requests _ other]
  rcases begin_cases other with ⟨settlement, begun⟩ | ⟨text, scheduledFor, begun⟩ | ⟨request, begun⟩
  · simp only [begun, attempted]
    exact finished _ rfl _
  · have absent : db.sends.requests.any (SendRow.keyed action.organizationId (sendKey action)) = false :=
      List.any_eq_false.mpr fun send member => by simp [key send member]
    have none : db.sends.requests.find? (SendRow.keyed action.organizationId (sendKey action)) = none :=
      List.find?_eq_none.mpr fun send member => by simp [key send member]
    simp only [begun, attempted, createSend, sendInput, absent, Bool.false_eq_true, if_false, readBack, List.find?_append, none]
    have own (objectId : Nat) (id text : String) (decision : Option SendDecision) (now : Time) :
        SendRow.keyed action.organizationId (sendKey action) (candidateSend objectId id
          ⟨action.organizationId, action.instanceId, action.groupJid, text, sendKey action, ip, decision⟩ now) = true := by
      simp [SendRow.keyed, candidateSend]
    simp only [Option.none_or, List.find?_cons_of_pos (own _ _ _ _ _), finishRead]
    exact finished _ rfl _
  · simp only [begun, attempted]
    exact finished _ rfl _

/-! ### The call -/

/-- What the call that staged `row` answers. -/
def performedAnswer (surroundings : Surroundings) (name : StagedGroupWriteToolName) (row : ActionRow) : Json :=
  if Surfaces.autonomousActions.contains name.name then
    let action := row.decide ⟨.id row.id, row.organizationId, .approve, Surfaces.autonomyActor, "internal"⟩ (surroundings.clock 2)
    let settlement := attempted surroundings action "internal"
    executedAnswer name (some (outcome action settlement
      (some ((action.start (surroundings.clock 3)).finish settlement (surroundings.clock 5)))))
  else stagedAnswer row

theorem perform_last {context : ToolChatContext} {name : StagedGroupWriteToolName} (stored : db.actions = base ++ [row])
    (newest : Newest base row) (pending : row.state = .pending) (unclaimed : row.result = none)
    (organization : row.organizationId = context.organizationId) (named : row.action = name.name)
    (key : ∀ send ∈ db.sends.requests, send.keyed row.organizationId ("action:" ++ row.id) = false) :
    (perform surroundings db context name row).2 = performedAnswer surroundings name row := by
  rw [perform, performedAnswer]
  split
  · obtain ⟨log', decided⟩ := decideAction_last db.sends.auditLog
      ⟨.id row.id, row.organizationId, .approve, Surfaces.autonomyActor, "internal"⟩ (surroundings.clock 2) newest rfl rfl pending
    rw [← organization, Database.actionDb, stored, decided]
    have notCancel : row.action ≠ "cancel_scheduled" := by
      rw [named]
      cases name <;> decide
    have executed := @executeAction_last _ (db.commit ⟨base ++ [row.decide ⟨.id row.id, row.organizationId, .approve,
      Surfaces.autonomyActor, "internal"⟩ (surroundings.clock 2)], log'⟩) base _ surroundings "internal" rfl newest rfl unclaimed
      notCancel key
    simp only [executed]
  · rfl

end

end GroupButler.Tools
