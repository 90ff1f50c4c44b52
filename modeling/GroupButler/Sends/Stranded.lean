import GroupButler.Sends.Lifecycle

/-!
# Sends that nothing moves on

The send system beside the wall clock. A retry keeps the attempts its request has used, and no claim
takes a request whose dispatcher is gone: either way the request stays where it is.
-/

namespace GroupButler.Sends
open Foundation Store Ingest

structure Clocked where
  now : Time
  sends : State

inductive Tick where
  | pass (now : Time)
  | act (e : Event)

def tick (s : Clocked) : Tick → Clocked
  | .pass now => { s with now := max s.now now }
  | .act e => { s with sends := step s.sends e }

/-- The lock is older than `dispatchLockTTL`. -/
def SendRow.stale (now : Time) (row : SendRow) : Bool :=
  row.dispatch.lockedAt.any fun lockedAt => decide (lockedAt < now - dispatchLockTTL)

/-- A decision of the owner applies to the request. -/
def SendRow.Decidable (row : SendRow) : Prop :=
  (∃ initialApproval, approvalOf (some row) = .ok initialApproval) ∨ ∃ action : SendAction, action.allowed row = true

structure SendRow.Served (maxAttempts : Nat) (now : Time) (row : SendRow) : Prop where
  due : row.waiting = true → ∀ later, row.scheduledFor ≤ later →
    claimable row.organizationId maxAttempts later row = true
  locked : row.status = .sending → row.stale now = true →
    (∃ later, now ≤ later ∧ claimable row.organizationId maxAttempts later row = true) ∨ row.Decidable

/-- No outcome of the delivery is stored. -/
def Delivery.owed (delivery : Delivery) : Bool :=
  match delivery.stage with
  | .recorded _ => false
  | _ => true

/-- A retry has an attempt left; a claim lands, and its delivery is recorded, within the lock's lifetime. -/
def Timely (maxAttempts : Nat) (s : Clocked) : Tick → Prop
  | .pass now => ∀ delivery ∈ s.sends.deliveries, delivery.owed = true → delivery.request.stale (max s.now now) = false
  | .act (.approve organizationId id false _ _ _) =>
    ∀ row ∈ s.sends.db.requests, row.named organizationId id = true → approvable false row = true →
      row.dispatch.attempts < maxAttempts
  | .act (.claim _ orgID limit now id) =>
    ∀ row ∈ s.sends.db.requests, row.named orgID id = true → oldestDue orgID limit now s.sends.db.requests row = true →
      ¬ now < s.now - dispatchLockTTL
  | .act _ => True

instance (maxAttempts : Nat) (s : Clocked) : (t : Tick) → Decidable (Timely maxAttempts s t)
  | .pass now => inferInstanceAs (Decidable (∀ delivery ∈ s.sends.deliveries, delivery.owed = true →
      delivery.request.stale (max s.now now) = false))
  | .act (.approve organizationId id false _ _ _) => inferInstanceAs (Decidable (∀ row ∈ s.sends.db.requests,
      row.named organizationId id = true → approvable false row = true → row.dispatch.attempts < maxAttempts))
  | .act (.claim _ orgID limit now id) => inferInstanceAs (Decidable (∀ row ∈ s.sends.db.requests,
      row.named orgID id = true → oldestDue orgID limit now s.sends.db.requests row = true → ¬ now < s.now - dispatchLockTTL))
  | .act (.create ..) | .act (.reply ..) | .act (.save _) | .act (.readApproval ..) | .act (.approve _ _ true _ _ _)
  | .act (.transition ..) | .act (.delivery ..) | .act (.mark ..) => .isTrue trivial

/-! ### Requests -/

structure SendRow.Ready (maxAttempts : Nat) (row : SendRow) : Prop where
  pending : row.status = .pendingApproval → row.dispatch.attempts = 0
  waiting : row.waiting = true → row.dispatch.lockedAt = none ∧ row.dispatch.attempts < maxAttempts

theorem ready_of_status {maxAttempts : Nat} {row : SendRow} (closed : row.status ≠ .pendingApproval)
    (idle : row.waiting = false) : row.Ready maxAttempts := by
  refine ⟨fun pending => (closed pending).elim, fun waiting => ?_⟩
  rw [idle] at waiting
  cases waiting

theorem turn_ready {maxAttempts : Nat} {organizationId id : String} {e : Event} {old new : Option SendRow}
    {entries : List AuditEntry} {count : Nat} (positive : 0 < maxAttempts)
    (turn : Turn organizationId id e old new entries count) (ready : ∀ row ∈ old, row.Ready maxAttempts)
    (retry : ∀ scheduledFor actorIP now, e = .approve organizationId id false scheduledFor actorIP now →
      ∀ row ∈ old, approvable false row = true → row.dispatch.attempts < maxAttempts) :
    ∀ row ∈ new, row.Ready maxAttempts := by
  intro next member
  cases turn with
  | rests _ row => exact ready next member
  | created _ =>
    cases member
    exact ⟨fun _ => rfl, fun _ => ⟨rfl, positive⟩⟩
  | replied _ =>
    cases member
    exact ⟨fun _ => rfl, fun _ => ⟨rfl, positive⟩⟩
  | @approved row initialApproval scheduledFor actorIP now open_ =>
    cases member
    refine ⟨fun pending => ?_, fun _ => ⟨rfl, ?_⟩⟩
    · rcases approve_status initialApproval (scheduledFor.getD now) now row with status | status <;> simp [status] at pending
    · show row.dispatch.attempts < maxAttempts
      cases initialApproval with
      | true =>
        simp only [approvable, if_true, Bool.and_eq_true, beq_iff_eq] at open_
        rw [(ready row rfl).pending open_.1]
        exact positive
      | false => exact retry scheduledFor actorIP now rfl row rfl open_
  | @transitioned row action actorIP actor now allowed =>
    cases member
    cases action with
    | reject => exact ready_of_status (by intro h; cases h) rfl
    | cancel => exact ready_of_status (by intro h; cases h) rfl
  | claimed _ =>
    cases member
    exact ready_of_status (by intro h; cases h) rfl
  | @marked row outcome index now sending named =>
    cases member
    cases outcome with
    | ok messageId => exact ready_of_status (by intro h; cases h) rfl
    | error err => exact ready_of_status (by intro h; cases h) rfl

/-- A request being sent was claimed by this step or untouched by it. -/
theorem turn_sending {organizationId id : String} {e : Event} {old : Option SendRow} {row : SendRow}
    {entries : List AuditEntry} {count : Nat} (turn : Turn organizationId id e old (some row) entries count)
    (sending : row.status = .sending) :
    old = some row ∨ ∃ workerId maxAttempts now, e = .claim workerId organizationId maxAttempts now id := by
  cases turn with
  | rests _ _ => exact Or.inl rfl
  | @created objectId input now _ =>
    rcases candidateSend_status objectId id input now with status | status | status <;> simp [status] at sending
  | @replied objectId place draft now _ => cases draft <;> cases sending
  | @approved row initialApproval scheduledFor actorIP now open_ =>
    rcases approve_status initialApproval (scheduledFor.getD now) now row with status | status <;> simp [status] at sending
  | @transitioned row action _ _ _ _ => cases action <;> cases sending
  | @claimed row workerId maxAttempts now _ => exact Or.inr ⟨workerId, maxAttempts, now, rfl⟩
  | @marked row outcome _ _ _ _ => cases outcome <;> cases sending

/-! ### The delivery behind a request being sent -/

/-- A delivery is its own worker's. -/
def Stamped (s : State) : Prop := ∀ delivery ∈ s.deliveries, delivery.request.dispatch.lockedBy = some delivery.workerId

def Sourced (s : State) : Prop :=
  ∀ row ∈ s.db.requests, row.status = .sending → ∃ delivery ∈ s.deliveries, delivery.owed = true ∧ delivery.request = row

variable {s : State}

theorem act_owed {messages : List MessageRow} {action : Action} {delivery next : Delivery}
    (acted : delivery.act messages action = some next) : next.owed = delivery.owed := by
  cases act_cases acted with
  | called _ _ | applied _ | cancelled => rfl
  | refused stage _ | answered stage _ _ _ | abandoned stage _ =>
    unfold Delivery.owed
    rw [stage]
  | left busy =>
    unfold Delivery.owed
    cases stage : delivery.stage with
    | recorded outcome =>
      rw [stage] at busy
      cases busy
    | _ => rfl

theorem act_workerId {messages : List MessageRow} {action : Action} {delivery next : Delivery}
    (acted : delivery.act messages action = some next) : next.workerId = delivery.workerId := by
  cases act_cases acted <;> rfl

theorem step_stamped (e : Event) (stamped : Stamped s) : Stamped (step s e) := by
  intro next member
  cases step_delivers s e next member with
  | kept old => exact stamped next old
  | claimed _ _ _ _ same =>
    subst same
    rfl
  | acted listed acted =>
    rw [act_request acted, act_workerId acted]
    exact stamped _ listed
  | @recorded delivery _ listed _ same | @lost delivery _ listed _ same =>
    subst same
    exact stamped delivery listed

/-- A step whose deliveries are the old ones. -/
theorem sourced_rest {e : Event} (kept : Kept s) (sourced : Sourced s) (same : (step s e).deliveries = s.deliveries)
    (other : e.party = .bff) : Sourced (step s e) := by
  intro row member sending
  obtain ⟨entries, count, turn, _, _⟩ := step_turns kept e row.organizationId row.id
  rw [getSend_of_mem (step_kept s e kept).unique member] at turn
  rcases turn_sending turn sending with untouched | ⟨workerId, maxAttempts, now, rfl⟩
  · rw [same]
    exact sourced row (mem_of_getSend untouched).1 sending
  · cases other

theorem claim_sourced (kept : Kept s) (sourced : Sourced s) (workerId orgID : String) (maxAttempts : Nat) (now : Time)
    (id : String) : Sourced (claim s workerId orgID maxAttempts now id) := by
  unfold claim
  dsimp only
  split
  · exact sourced
  · rename_i row found
    have stored := List.mem_of_find?_eq_some found
    intro next member sending
    rcases mem_updateOne member with untouched | ⟨before, listed, hit, rfl⟩
    · obtain ⟨delivery, present, owed⟩ := sourced next untouched sending
      exact ⟨delivery, List.mem_append_left _ present, owed⟩
    · have named : ∀ other : SendRow,
          (other.named orgID id && oldestDue orgID maxAttempts now s.db.requests other) = true → other.name = (orgID, id) :=
        fun other hit => named_iff.mp (Bool.and_eq_true_iff.mp hit).1
      have same : before.name = row.name := (named before hit).trans (named row (by simpa using List.find?_some found)).symm
      obtain rfl : before = row := List.inj_on_of_nodup_map kept.unique listed stored same
      exact ⟨_, List.mem_append_right _ List.mem_cons_self, rfl, rfl⟩

theorem delivery_sourced {index : Nat} {action : Action} {delivery next : Delivery} (sourced : Sourced s)
    (found : s.deliveries[index]? = some delivery) (acted : delivery.act s.messages action = some next) :
    Sourced { s with deliveries := s.deliveries.set index next } := by
  intro row member sending
  obtain ⟨source, present, owed, rfl⟩ := sourced row member sending
  rcases mem_set_of_mem found present with rfl | kept
  · exact ⟨next, mem_set_new found, (act_owed acted).trans owed, act_request acted⟩
  · exact ⟨source, kept, owed, rfl⟩

theorem heldFor_leaves {delivery : Delivery} {outcome : Except SendError String} {row : SendRow} (now : Time)
    (kept : Kept s) (stored : row ∈ s.db.requests) (held : row.heldFor delivery = true) (sending : row.status = .sending)
    (after : row ∈ updateOne (SendRow.heldFor delivery) (SendRow.marked outcome now) s.db.requests) : False := by
  let db : SendDb := ⟨updateOne (SendRow.heldFor delivery) (SendRow.marked outcome now) s.db.requests, s.db.auditLog⟩
  have found : getSend db row.organizationId row.id = some row :=
    getSend_of_mem (names_updateOne kept.unique (marked_name outcome now)) after
  rw [getSend_updateOne kept.unique (k := delivery.request.name) _ (marked_name outcome now),
    getSend_of_mem kept.unique stored, Option.map_some, if_pos held] at found
  · have status : (row.marked outcome now).status = .sending := by rw [Option.some.inj found, sending]
    cases outcome <;> cases status
  · intro other named
    simp only [SendRow.heldFor, Bool.and_eq_true] at named
    exact named_iff.mp named.1.1

/-- The write that records a delivery takes its request out of `sending`. -/
theorem mark_sourced {index : Nat} {delivery : Delivery} {outcome : Except SendError String} (now : Time) (kept : Kept s)
    (stamped : Stamped s) (sourced : Sourced s) (found : s.deliveries[index]? = some delivery) :
    Sourced (mark s index delivery outcome now) := by
  unfold mark
  split
  · intro row member sending
    rcases mem_updateOne member with untouched | ⟨before, _, _, rfl⟩
    · obtain ⟨source, present, owed, rfl⟩ := sourced row untouched sending
      rcases mem_set_of_mem found present with rfl | other
      · have held : source.request.heldFor source = true := by
          simp [SendRow.heldFor, SendRow.named, sending, stamped source present]
        exact (heldFor_leaves now kept untouched held sending member).elim
      · exact ⟨source, other, owed, rfl⟩
    · cases outcome <;> cases sending
  · intro row member sending
    obtain ⟨source, present, owed, rfl⟩ := sourced row member sending
    rcases mem_set_of_mem found present with rfl | kept
    · exact ⟨_, mem_set_new found, rfl, rfl⟩
    · exact ⟨source, kept, owed, rfl⟩

theorem step_sourced (kept : Kept s) (stamped : Stamped s) (e : Event) (sourced : Sourced s) : Sourced (step s e) := by
  cases e with
  | create objectId id input now =>
    apply sourced_rest kept sourced _ rfl
    unfold step
    dsimp only
    split <;> rfl
  | reply objectId id target draft now =>
    apply sourced_rest kept sourced _ rfl
    unfold step
    dsimp only
    split
    · split <;> rfl
    · rfl
  | save doc => exact sourced
  | readApproval organizationId id =>
    apply sourced_rest kept sourced _ rfl
    unfold step
    dsimp only
    split <;> rfl
  | approve organizationId id initialApproval scheduledFor actorIP now =>
    apply sourced_rest kept sourced _ rfl
    unfold step
    dsimp only
    split <;> rfl
  | transition organizationId id action actorIP actor now => exact sourced_rest kept sourced rfl rfl
  | claim workerId orgID maxAttempts now id => exact claim_sourced kept sourced workerId orgID maxAttempts now id
  | delivery index action =>
    unfold step
    dsimp only
    split
    · exact sourced
    · rename_i next acted
      obtain ⟨delivery, found, acted⟩ := Option.bind_eq_some_iff.mp acted
      exact delivery_sourced sourced found acted
  | mark index now =>
    unfold step
    dsimp only
    split
    · exact sourced
    · rename_i delivery found
      split
      · exact mark_sourced now kept stamped sourced found
      · exact sourced

/-! ### Runs -/

structure Prompt (maxAttempts : Nat) (s : Clocked) : Prop where
  kept : Kept s.sends
  stamped : Stamped s.sends
  sourced : Sourced s.sends
  ready : ∀ row ∈ s.sends.db.requests, row.Ready maxAttempts
  fresh : ∀ delivery ∈ s.sends.deliveries, delivery.owed = true → delivery.request.stale s.now = false

theorem tick_prompt {maxAttempts : Nat} (positive : 0 < maxAttempts) (s : Clocked) (t : Tick)
    (prompt : Prompt maxAttempts s) (timely : Timely maxAttempts s t) : Prompt maxAttempts (tick s t) := by
  obtain ⟨kept, stamped, sourced, ready, fresh⟩ := prompt
  cases t with
  | pass now => exact ⟨kept, stamped, sourced, ready, timely⟩
  | act e =>
    have after := step_kept s.sends e kept
    refine ⟨after, step_stamped e stamped, step_sourced kept stamped e sourced, ?_, ?_⟩
    · intro row member
      obtain ⟨entries, count, turn, _, _⟩ := step_turns kept e row.organizationId row.id
      apply turn_ready positive turn _ _ row (getSend_of_mem after.unique member)
      · intro old found
        exact ready old (mem_of_getSend found).1
      · rintro scheduledFor actorIP now rfl old found open_
        obtain ⟨stored, name⟩ := mem_of_getSend found
        exact timely old stored (named_iff.mpr name) open_
    · intro next member owed
      cases step_delivers s.sends e next member with
      | kept old => exact fresh next old owed
      | @claimed workerId orgID limit now id row same stored named oldest fromClaim =>
        subst same fromClaim
        have inTime : ¬ now < s.now - dispatchLockTTL := timely row stored named oldest
        exact decide_eq_false inTime
      | @acted delivery action listed acted =>
        rw [act_request acted]
        exact fresh delivery listed ((act_owed acted).symm.trans owed)
      | recorded _ _ same =>
        subst same
        cases owed
      | @lost delivery outcome listed marking same =>
        subst same
        exact fresh delivery listed (by rw [Delivery.owed, marking])

theorem served_of_prompt {maxAttempts : Nat} {s : Clocked} (prompt : Prompt maxAttempts s) :
    ∀ row ∈ s.sends.db.requests, row.Served maxAttempts s.now := by
  intro row member
  refine ⟨?_, ?_⟩
  · intro waiting later due
    obtain ⟨unlocked, attempts⟩ := (prompt.ready row member).waiting waiting
    have status : (row.status == .approved || row.status == .scheduled) = true := waiting
    simp [claimable, unlocked, attempts, due, status]
  · intro sending stale
    obtain ⟨delivery, listed, owed, rfl⟩ := prompt.sourced row member sending
    rw [prompt.fresh delivery listed owed] at stale
    cases stale

/-- Nothing is stranded while every retry has an attempt left and every delivery is recorded in time. -/
theorem served_along (messages : List MessageRow) (now : Time) {maxAttempts : Nat} (positive : 0 < maxAttempts)
    {ticks : List Tick} (timely : Along tick (Timely maxAttempts) ⟨now, start messages⟩ ticks) :
    let s := run tick ⟨now, start messages⟩ ticks
    ∀ row ∈ s.sends.db.requests, row.Served maxAttempts s.now := by
  intro s
  apply served_of_prompt
  apply run_invariant_along (I := Prompt maxAttempts) (tick_prompt positive) _ timely
  refine ⟨run_kept messages [], ?_, ?_, ?_, ?_⟩ <;> intro _ listed <;> cases listed

/-! ### Two ways to be stranded -/

theorem not_served_spent {maxAttempts : Nat} {now : Time} {row : SendRow} (waiting : row.waiting = true)
    (spent : maxAttempts ≤ row.dispatch.attempts) : ¬ row.Served maxAttempts now := by
  intro served
  have due := served.due waiting row.scheduledFor (Int.le_refl _)
  simp only [claimable, Bool.and_eq_true, decide_eq_true_eq] at due
  omega

theorem not_served_stale {maxAttempts : Nat} {now : Time} {row : SendRow} (sending : row.status = .sending)
    (stale : row.stale now = true) : ¬ row.Served maxAttempts now := by
  intro served
  rcases served.locked sending stale with ⟨later, _, due⟩ | ⟨initialApproval, approved⟩ | ⟨action, allowed⟩
  · have waiting := claimable_waiting due
    simp [SendRow.waiting, sending] at waiting
  · simp [approvalOf, sending] at approved
  · cases action <;> simp [SendAction.allowed, sending] at allowed

/-- One claim of the send, refused before its call. -/
def refusedAttempt (index : Nat) : List Event :=
  [.claim "w" "o" 3 (3000 + index) "s", .delivery index (.prepare true false), .mark index (3000 + index)]

def retry : List Event := [.readApproval "o" "s", .approve "o" "s" false none "::1" 3000]

def approvedSend : List Event :=
  [.create 1 "s" plainSend 1000, .readApproval "o" "s", .approve "o" "s" true none "::1" 2000]

def retriedThrice : List Tick :=
  (approvedSend ++ refusedAttempt 0 ++ retry ++ refusedAttempt 1 ++ retry ++ refusedAttempt 2 ++ retry).map .act

def crashedSend : List Tick :=
  (approvedSend ++ [Event.claim "w" "o" 3 3000 "s", .delivery 0 .stop]).map .act ++ [.pass 64000]

theorem stranded_sends :
    (∃ row ∈ (run tick ⟨3000, start []⟩ retriedThrice).sends.db.requests,
      row.waiting = true ∧ ¬ row.Served 3 (run tick ⟨3000, start []⟩ retriedThrice).now) ∧
    ∃ row ∈ (run tick ⟨3000, start []⟩ crashedSend).sends.db.requests,
      row.status = .sending ∧ ¬ row.Served 3 (run tick ⟨3000, start []⟩ crashedSend).now := by
  have spent : ∃ row ∈ (run tick ⟨3000, start []⟩ retriedThrice).sends.db.requests,
      row.waiting = true ∧ 3 ≤ row.dispatch.attempts := by decide
  have stale : ∃ row ∈ (run tick ⟨3000, start []⟩ crashedSend).sends.db.requests,
      row.status = .sending ∧ row.stale (run tick ⟨3000, start []⟩ crashedSend).now = true := by decide
  constructor
  · obtain ⟨row, member, waiting, used⟩ := spent
    exact ⟨row, member, waiting, not_served_spent waiting used⟩
  · obtain ⟨row, member, sending, old⟩ := stale
    exact ⟨row, member, sending, not_served_stale sending old⟩

/-- One refused claim, retried in time. -/
def retriedOnce : Clocked :=
  run tick ⟨3000, start []⟩ ((approvedSend ++ refusedAttempt 0 ++ retry).map .act ++ [.pass 64000])

theorem served_retriedOnce : ∃ row ∈ retriedOnce.sends.db.requests, row.waiting = true ∧ row.Served 3 retriedOnce.now := by
  have stored : ∃ row ∈ retriedOnce.sends.db.requests, row.waiting = true := by decide
  obtain ⟨row, member, waiting⟩ := stored
  exact ⟨row, member, waiting, served_along [] 3000 (by decide) (by decide) row member⟩

end GroupButler.Sends
