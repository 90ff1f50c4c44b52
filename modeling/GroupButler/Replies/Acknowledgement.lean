import GroupButler.Replies.Commands
import GroupButler.Replies.Protocol

/-!
# What the owner is told

The acknowledgement of a command is queued by one callback and says what that callback's `decideAction`
answered. Where another callback of the message made the decision, this one found nothing pending.
-/

namespace GroupButler.Replies.Commands
open Foundation Store Sends Actions

/-! ### Texts -/

theorem toUpper_isLower (c : Char) : c.toUpper.isLower = false := by
  unfold Char.toUpper Char.isLower
  split
  · rename_i lower
    obtain ⟨low, high⟩ := lower
    refine Bool.eq_false_iff.mpr fun h => ?_
    simp only [Bool.and_eq_true, decide_eq_true_eq, UInt32.le_iff_toNat_le] at h low high
    simp at h low high
    omega
  · rename_i other
    simpa using other

theorem shortId_isLower {value : String} {c : Char} (listed : c ∈ (normalizeShortId value).toList) : c.isLower = false := by
  simp only [normalizeShortId, String.toList_ofList, List.mem_map] at listed
  obtain ⟨c, _, rfl⟩ := listed
  exact toUpper_isLower c

/-- The second character tells the three answers apart. -/
def second (text : String) : Option Char := text.toList[1]?

theorem second_append {word : String} {c : Char} (rest : String) (h : second word = some c) :
    second (word ++ rest) = some c := by
  unfold second at h ⊢
  obtain ⟨inside, _⟩ := List.getElem?_eq_some_iff.mp h
  rw [String.toList_append, List.getElem?_append_left inside, h]

theorem second_row (command : ApprovalCommand) (row : ActionRow) :
    second (decisionReply command (.row row)) = some 'p' ∨ second (decisionReply command (.row row)) = some 'e' := by
  unfold decisionReply
  cases command.decision with
  | approve =>
    left
    iterate 4 apply second_append
    decide
  | reject =>
    right
    iterate 4 apply second_append
    decide

theorem second_notFound (command : ApprovalCommand) : second (decisionReply command .notFound) = some 'o' := by
  unfold decisionReply
  iterate 2 apply second_append
  decide

theorem second_invalidState (command : ApprovalCommand) {c : Char}
    (h : second (decisionReply command .invalidState) = some c) : c = 'h' ∨ c.isLower = false := by
  have listed : ∀ c ∈ (normalizeShortId command.shortId).toList, c.isLower = false := fun _ => shortId_isLower
  have tail : " has already been decided.".toList = ' ' :: 'h' :: "as already been decided.".toList := by decide
  unfold second decisionReply at h
  rw [String.toList_append, tail] at h
  generalize (normalizeShortId command.shortId).toList = word at h listed
  cases word with
  | nil => exact Or.inl (Option.some.inj h).symm
  | cons first rest =>
    cases rest with
    | nil =>
      obtain rfl : ' ' = c := Option.some.inj h
      exact Or.inr rfl
    | cons next rest =>
      obtain rfl : next = c := Option.some.inj h
      exact Or.inr (listed next (List.mem_cons_of_mem _ List.mem_cons_self))

theorem row_ne_notFound (command : ApprovalCommand) (row : ActionRow) :
    decisionReply command (.row row) ≠ decisionReply command .notFound := by
  intro same
  have texts := second_row command row
  rw [same, second_notFound] at texts
  simp at texts

theorem row_ne_invalidState (command : ApprovalCommand) (row : ActionRow) :
    decisionReply command (.row row) ≠ decisionReply command .invalidState := by
  intro same
  rcases second_row command row with p | e
  · rw [same] at p
    rcases second_invalidState command p with h | h <;> cases h
  · rw [same] at e
    rcases second_invalidState command e with h | h <;> cases h

theorem notFound_ne_invalidState (command : ApprovalCommand) :
    decisionReply command .notFound ≠ decisionReply command .invalidState := by
  intro same
  have o := second_notFound command
  rw [same] at o
  rcases second_invalidState command o with h | h <;> cases h

/-! ### What a step of the replies writes -/

/-- The callbacks stay in their places with their jobs. -/
def Seated (s t : Replies.State) : Prop :=
  ∀ (index : Nat) (callback : Callback), s.callbacks[index]? = some callback →
    ∃ next : Callback, t.callbacks[index]? = some next ∧ next.scope = callback.scope

theorem seated_same {s t : Replies.State} (same : t.callbacks = s.callbacks) : Seated s t :=
  fun _ callback found => ⟨callback, same ▸ found, rfl⟩

theorem step_seated (s : Replies.State) (e : Replies.Event) : Seated s (Replies.step s e) := by
  have replaced : ∀ (index : Nat) (callback next : Callback), s.callbacks[index]? = some callback →
      next.scope = callback.scope → ∀ runs, Seated s ((s.setRuns runs).setCallback index next) := by
    intro index callback next found scope runs place other there
    by_cases here : index = place
    · subst here
      obtain rfl : callback = other := Option.some.inj (found.symm.trans there)
      exact ⟨next, List.getElem?_set_self (List.getElem?_eq_some_iff.mp found).1, scope⟩
    · exact ⟨other, (List.getElem?_set_ne here).trans there, rfl⟩
  have steps := step_cases s e
  generalize Replies.step s e = next at steps ⊢
  cases steps with
  | still | tick | sends _ | issued _ _ => exact seated_same rfl
  | called =>
    intro index callback found
    exact ⟨callback, (List.getElem?_append_left (List.getElem?_eq_some_iff.mp found).1).trans found, rfl⟩
  | advanced found scope _ _ => exact replaced _ _ _ found scope s.runs
  | claimed found _ =>
    apply replaced _ _ _ found
    rfl
  | landed _ _ => exact seated_same (land_callbacks s _ _ _).1

/-- The sends and the operations stand. -/
def quiet : Replies.Event → Bool
  | .sends _ | .issue _ _ | .land _ => false
  | _ => true

theorem step_quiet {s : Replies.State} {e : Replies.Event} (h : quiet e = true) :
    (Replies.step s e).sends = s.sends ∧ (Replies.step s e).operations = s.operations := by
  cases e with
  | sends _ | issue _ _ | land _ => cases h
  | tick _ | call _ => exact ⟨rfl, rfl⟩
  | readClock index | claim index | callModel index =>
    simp only [Replies.step]
    split
    · exact ⟨rfl, rfl⟩
    · split <;> exact ⟨rfl, rfl⟩
  | stop index =>
    simp only [Replies.step]
    split <;> exact ⟨rfl, rfl⟩

def Work.queues : Work → Bool
  | .automatic .. | .humanReview .. => true
  | _ => false

/-- What the landing of an operation may queue. -/
inductive Queued (s : Replies.State) (operation : Operation) (callback : Callback) : SendRow → Prop
  | automatic {run chatKind text batches facts objectId id} :
      operation.work = .automatic run chatKind text batches facts objectId id →
      completes s operation callback.scope = true →
      Queued s operation callback (replySend objectId id (replyTarget callback.scope chatKind)
        (.automatic text batches facts) operation.now)
  | humanReview {run chatKind reason objectId id} : operation.work = .humanReview run chatKind reason objectId id →
      Queued s operation callback (replySend objectId id (replyTarget callback.scope chatKind)
        (.humanReview reason) operation.now)

theorem commit_sends {s : Replies.State} {runId token : Nat} {scope : AgentReplyScope} {chatKind : String}
    {draft : ReplyDraft} {objectId : Nat} {id : String} {now : Time} {send : SendRow}
    (member : send ∈ (s.commit (createSendUnderRunLease s.db runId token scope chatKind draft objectId id now)).sends.db.requests) :
    send ∈ s.sends.db.requests ∨ (s.runs.any fun run => run.leasedTo runId token now && run.scope == scope) = true ∧
      send = replySend objectId id (replyTarget scope chatKind) draft now := by
  cases committed : createSendUnderRunLease s.db runId token scope chatKind draft objectId id now with
  | none =>
    rw [committed] at member
    exact Or.inl member
  | some next =>
    rw [committed] at member
    obtain ⟨run, found, inserted, _⟩ := createSend_cases committed
    unfold insertReplySend at inserted
    split at inserted
    · cases inserted
    · have member : send ∈ next.sends.requests := member
      rw [← Option.some.inj inserted] at member
      rcases List.mem_append.mp member with old | new
      · exact Or.inl old
      · have leased := List.find?_isSome.mp (Option.isSome_iff_exists.mpr ⟨run, found⟩)
        exact Or.inr ⟨List.any_eq_true.mpr leased, List.mem_singleton.mp new⟩

theorem land_sends {s : Replies.State} {index : Nat} {operation : Operation} {callback : Callback} {send : SendRow}
    (member : send ∈ (land s index operation callback).sends.db.requests) :
    send ∈ s.sends.db.requests ∨ Queued s operation callback send := by
  unfold land at member
  split at member
  · exact Or.inl member
  · exact Or.inl member
  · rename_i work
    split at member
    · rcases commit_sends member with old | ⟨leased, rfl⟩
      · exact Or.inl old
      · exact Or.inr (.automatic work (by simp only [completes, work]; exact leased))
    · exact Or.inl member
  · rename_i work
    split at member
    · rcases commit_sends member with old | ⟨_, rfl⟩
      · exact Or.inl old
      · exact Or.inr (.humanReview work)
    · exact Or.inl member
  · split at member <;> exact Or.inl member
  · exact Or.inl member
  · exact Or.inl member

theorem land_works {s : Replies.State} {index : Nat} {operation next : Operation} {callback : Callback}
    (member : next ∈ (land s index operation callback).operations) :
    next ∈ s.operations ∨ next.callback = operation.callback ∧ Work.queues next.work = false := by
  have marked : ∀ work : Work, Work.queues work = false → next ∈ s.operations.set index { operation with work } →
      next ∈ s.operations ∨ next.callback = operation.callback ∧ Work.queues next.work = false := by
    intro work still present
    rcases List.mem_or_eq_of_mem_set present with old | rfl
    · exact Or.inl old
    · exact Or.inr ⟨rfl, still⟩
  have committed : ∀ db, (s.commit db).operations = s.operations := by
    intro db
    cases db <;> rfl
  unfold land at member
  split at member
  · exact marked .landed rfl member
  · exact marked .landed rfl member
  · split at member
    · exact marked .landed rfl (committed _ ▸ member)
    · exact Or.inl member
  · split at member
    · exact marked .landed rfl (committed _ ▸ member)
    · exact Or.inl member
  · split at member
    · exact marked .landed rfl member
    · exact marked (.finish _) rfl member
  · exact marked .landed rfl member
  · exact Or.inl member

/-! ### What a step of the actions writes -/

structure RowKept (row next : ActionRow) : Prop where
  name : next.name = row.name
  shortId : next.shortId = row.shortId
  state : next.state = .pending ↔ row.state = .pending

def RowsKept (rows next : List ActionRow) : Prop :=
  (∀ row ∈ rows, ∃ same ∈ next, RowKept row same) ∧ ∀ same ∈ next, ∃ row ∈ rows, RowKept row same

theorem rowKept_refl (row : ActionRow) : RowKept row row := ⟨rfl, rfl, Iff.rfl⟩

theorem rowsKept_refl (rows : List ActionRow) : RowsKept rows rows :=
  ⟨fun row member => ⟨row, member, rowKept_refl row⟩, fun row member => ⟨row, member, rowKept_refl row⟩⟩

theorem rowsKept_update {rows : List ActionRow} {filter : ActionRow → Bool} {change : ActionRow → ActionRow}
    (keep : ∀ row, filter row = true → RowKept row (change row)) : RowsKept rows (updateOne filter change rows) := by
  constructor
  · intro row member
    rcases mem_updateOne_of_mem member with kept | ⟨matched, changed⟩
    · exact ⟨row, kept, rowKept_refl row⟩
    · exact ⟨change row, changed, keep row matched⟩
  · intro same member
    rcases mem_updateOne member with kept | ⟨row, stored, matched, rfl⟩
    · exact ⟨same, kept, rowKept_refl same⟩
    · exact ⟨row, stored, keep row matched⟩

/-- Every send is an old one, or answers no message. -/
def Unanswering (old new : List SendRow) : Prop :=
  ∀ send ∈ new, (∃ row ∈ old, row.Same send) ∨ send.provenance = none

theorem unanswering_refl (sends : List SendRow) : Unanswering sends sends :=
  fun send member => Or.inl ⟨send, member, (SendRow.Becomes.refl send).toSame⟩

theorem unanswering_moves {inserted : SendRow → Prop} {old new : SendDb} (moves : Moves inserted old new)
    (none : ∀ row, inserted row → row.provenance = none) : Unanswering old.requests new.requests := by
  intro send member
  rcases moves_origin moves send member with same | new
  · exact Or.inl same
  · exact Or.inr (none send new)

theorem approvedAs_decided {action row : ActionRow} (approved : action.approvedAs row = true) : row.state = .approved := by
  simp only [ActionRow.approvedAs, Bool.and_eq_true, beq_iff_eq] at approved
  exact approved.2

theorem act_keeps [Datetimes] (s : Actions.State) (index : Nat) (executor : Executor) (action : Actions.Action) :
    RowsKept s.actions (Actions.act s index executor action).actions ∧
      Unanswering s.sends.db.requests (Actions.act s index executor action).sends.db.requests := by
  have still : RowsKept s.actions s.actions ∧ Unanswering s.sends.db.requests s.sends.db.requests :=
    ⟨rowsKept_refl _, unanswering_refl _⟩
  unfold Actions.act
  split
  · -- claim
    split
    · split
      · exact still
      · rename_i won
        obtain ⟨_, _, _, rfl⟩ := transact_cases won
        refine ⟨rowsKept_update fun row matched => ?_, unanswering_refl _⟩
        exact ⟨rfl, rfl, Iff.rfl⟩
    · exact still
  · exact still
  · -- cancel
    dsimp only
    split
    · exact ⟨rowsKept_refl _, unanswering_moves (transitionSend_moves (fun _ => False) s.sends.db _ _ _ _ _ _)
        fun _ never => never.elim⟩
    · exact still
  · -- create
    split
    · exact ⟨rowsKept_refl _, unanswering_moves (createSend_moves s.sends.db _ _ _ _) fun _ none => none⟩
    · exact still
  · exact still
  · exact still
  · exact still
  · exact still
  · -- settle
    rename_i now settlement _
    split
    · exact still
    · rename_i stored
      obtain ⟨_, _, _, rfl⟩ := transact_cases stored
      refine ⟨rowsKept_update fun row matched => ⟨rfl, rfl, ?_⟩, unanswering_refl _⟩
      rw [approvedAs_decided (Bool.and_eq_true_iff.mp matched).1]
      show settlement.state = .pending ↔ _
      unfold Settlement.state
      split <;> simp
  · exact still
  · exact still
  · exact still

/-! ### What the handlers account for -/

variable (inbox : AgentReplyScope → Option DirectMessage)

/-- What a handler found, or made. -/
def HandlerOk (actions : List ActionRow) (decisions : List Decision) (job : Job) (index : Nat) : Deciding → Prop
  | .missed => ∀ row ∈ actions, job.names row = true → row.state ≠ .pending
  | .answered (.row row) => ∃ decision ∈ decisions, decision.name = row.name ∧ decision.attempt job.scope = some index
  | .answered .notFound => True
  | .answered .invalidState => ∃ row ∈ actions, job.names row = true ∧ row.state ≠ .pending

/-- The operations of a command's callback queue nothing but its acknowledgement. -/
def OperationOk (handlers : Nat → Option Deciding) (job : Job) (operation : Operation) : Prop :=
  match operation.work with
  | .automatic _ _ text _ _ _ _ =>
    ∃ decision, handlers operation.callback = some (.answered decision) ∧ text = decisionReply job.command decision
  | .humanReview .. => False
  | _ => True

/-- The send is the acknowledgement of one callback, and the message has decided through no other. -/
def Acknowledged (s : State) (job : Job) (send : SendRow) : Prop :=
  ∃ index decision, s.jobAt inbox index = some job ∧ s.handlers index = some (.answered decision) ∧
    send.text = decisionReply job.command decision ∧
    ∀ other ∈ s.decisions, ∀ attempt, other.attempt job.scope = some attempt → attempt = index

structure Accounted (s : State) : Prop where
  handlers : ∀ index deciding, s.handlers index = some deciding →
    ∃ job, s.jobAt inbox index = some job ∧ HandlerOk s.actions s.decisions job index deciding
  attempts : ∀ decision ∈ s.decisions, ∀ scope index, decision.attempt scope = some index →
    ∃ job row, s.jobAt inbox index = some job ∧ job.scope = scope ∧ s.handlers index = some (.answered (.row row)) ∧
      row.name = decision.name
  rows : ∀ row ∈ s.actions, row.state ≠ .pending → ∃ decision ∈ s.decisions, decision.name = row.name
  operations : ∀ operation ∈ s.replies.operations, ∃ callback, s.replies.callbacks[operation.callback]? = some callback ∧
    ∀ job, jobOf inbox callback.scope = some job → OperationOk s.handlers job operation
  sends : ∀ send ∈ s.replies.sends.db.requests, ∀ job, jobOf inbox job.scope = some job →
    answers job.scope send = true → Acknowledged inbox s job send

variable {inbox}

theorem jobAt_seated {s t : State} {index : Nat} {job : Job} (seated : Seated s.replies t.replies)
    (h : s.jobAt inbox index = some job) : t.jobAt inbox index = some job := by
  obtain ⟨callback, found, of⟩ := Option.bind_eq_some_iff.mp h
  obtain ⟨next, still, scope⟩ := seated index callback found
  exact Option.bind_eq_some_iff.mpr ⟨next, still, by rw [scope]; exact of⟩

theorem names_kept {job : Job} {row next : ActionRow} (kept : RowKept row next) : job.names next = job.names row := by
  have organization : next.organizationId = row.organizationId := congrArg Prod.fst kept.name
  simp only [Job.names, Job.ref, refFilter, organization, kept.shortId]

theorem attempt_iff {decision : Decision} {scope : AgentReplyScope} {index : Nat} :
    decision.attempt scope = some index ↔ decision.origin = .message scope index := by
  unfold Decision.attempt
  split
  · rename_i source callback origin
    by_cases same : source = scope <;> simp [same, origin]
  · rename_i origin
    simp [origin]

theorem handlerOk_kept {actions next : List ActionRow} {decisions : List Decision} {job : Job} {index : Nat}
    {deciding : Deciding} (ok : HandlerOk actions decisions job index deciding)
    (forward : ∀ row ∈ actions, ∃ same ∈ next, RowKept row same)
    (backward : deciding = .missed → ∀ same ∈ next, (∃ row ∈ actions, RowKept row same) ∨ job.names same = false) :
    HandlerOk next decisions job index deciding := by
  cases deciding with
  | missed =>
    intro same member named
    rcases backward rfl same member with ⟨row, stored, kept⟩ | other
    · exact fun pending => ok row stored (names_kept kept ▸ named) (kept.state.mp pending)
    · rw [other] at named
      cases named
  | answered decision =>
    cases decision with
    | row row => exact ok
    | notFound => trivial
    | invalidState =>
      obtain ⟨row, stored, named, decided⟩ := ok
      obtain ⟨same, member, kept⟩ := forward row stored
      exact ⟨same, member, (names_kept kept).trans named, fun pending => decided (kept.state.mp pending)⟩

/-- A step that decides nothing and moves no handler. -/
theorem accounted_next {s t : State} (accounted : Accounted inbox s) (seated : Seated s.replies t.replies)
    (handlers : t.handlers = s.handlers) (decisions : t.decisions = s.decisions)
    (forward : ∀ row ∈ s.actions, ∃ same ∈ t.actions, RowKept row same)
    (backward : ∀ same ∈ t.actions, (∃ row ∈ s.actions, RowKept row same) ∨ same.state = .pending ∧
      ∀ index job, s.handlers index = some .missed → s.jobAt inbox index = some job → job.names same = false)
    (operations : ∀ operation ∈ t.replies.operations, ∃ callback,
      s.replies.callbacks[operation.callback]? = some callback ∧
        ∀ job, jobOf inbox callback.scope = some job → OperationOk s.handlers job operation)
    (sends : ∀ send ∈ t.replies.sends.db.requests, ((∃ row ∈ s.replies.sends.db.requests, row.Same send) ∨
      send.provenance = none) ∨ ∀ job, jobOf inbox job.scope = some job → answers job.scope send = true →
        Acknowledged inbox s job send) : Accounted inbox t := by
  have acknowledged : ∀ job send, Acknowledged inbox s job send → Acknowledged inbox t job send := by
    rintro job send ⟨index, decision, seat, answered, text, once⟩
    exact ⟨index, decision, jobAt_seated seated seat, handlers ▸ answered, text, decisions ▸ once⟩
  refine ⟨?_, ?_, ?_, ?_, ?_⟩
  · intro index deciding handled
    rw [handlers] at handled
    obtain ⟨job, seat, ok⟩ := accounted.handlers index deciding handled
    refine ⟨job, jobAt_seated seated seat, decisions ▸ handlerOk_kept ok forward ?_⟩
    rintro rfl same member
    rcases backward same member with old | ⟨_, unnamed⟩
    · exact Or.inl old
    · exact Or.inr (unnamed index job handled seat)
  · intro decision listed scope index attempt
    rw [decisions] at listed
    obtain ⟨job, row, seat, rest⟩ := accounted.attempts decision listed scope index attempt
    exact ⟨job, row, jobAt_seated seated seat, handlers ▸ rest⟩
  · intro same member decided
    rcases backward same member with ⟨row, stored, kept⟩ | ⟨pending, _⟩
    · rw [decisions, kept.name]
      exact accounted.rows row stored fun pending => decided (kept.state.mpr pending)
    · exact (decided pending).elim
  · intro operation present
    obtain ⟨callback, found, ok⟩ := operations operation present
    obtain ⟨next, still, scope⟩ := seated operation.callback callback found
    exact ⟨next, still, by rw [scope, handlers]; exact ok⟩
  · intro send member job of answer
    rcases sends send member with (⟨row, stored, same⟩ | foreign) | new
    · obtain ⟨index, decision, seat, answered, text, once⟩ :=
        accounted.sends row stored job of ((answers_same same).symm.trans answer)
      exact acknowledged job send ⟨index, decision, seat, answered, same.text.trans text, once⟩
    · simp [answers, foreign] at answer
    · exact acknowledged job send (new job of answer)

/-- A step of the replies that is no landing. -/
theorem accounted_replies {s : State} {replies : Replies.State} (accounted : Accounted inbox s)
    (seated : Seated s.replies replies)
    (operations : ∀ operation ∈ replies.operations, operation ∈ s.replies.operations ∨ ∃ callback,
      s.replies.callbacks[operation.callback]? = some callback ∧
        ∀ job, jobOf inbox callback.scope = some job → OperationOk s.handlers job operation)
    (sends : Unanswering s.replies.sends.db.requests replies.sends.db.requests) :
    Accounted inbox { s with replies } := by
  refine accounted_next (t := { s with replies }) accounted seated rfl rfl ?_ ?_ ?_ ?_
  · exact fun row member => ⟨row, member, rowKept_refl row⟩
  · exact fun row member => Or.inl ⟨row, member, rowKept_refl row⟩
  · intro operation present
    rcases operations operation present with old | new
    · exact accounted.operations operation old
    · exact new
  · exact fun send member => Or.inl (sends send member)

theorem accounted_quiet {s : State} {e : Replies.Event} (accounted : Accounted inbox s) (still : quiet e = true) :
    Accounted inbox { s with replies := Replies.step s.replies e } := by
  obtain ⟨sends, operations⟩ := step_quiet (s := s.replies) still
  apply accounted_replies accounted (step_seated s.replies e)
  · exact fun operation present => Or.inl (operations ▸ present)
  · rw [sends]
    exact unanswering_refl _

theorem accounted_issue {s : State} {index : Nat} {request : Request} (accounted : Accounted inbox s)
    (ok : ∀ job, s.jobAt inbox index = some job → ∀ stage work, request.work stage = some work →
      OperationOk s.handlers job ⟨index, s.replies.clock, work⟩) :
    Accounted inbox { s with replies := Replies.step s.replies (.issue index request) } := by
  apply accounted_replies accounted (step_seated s.replies _)
  · intro operation present
    simp only [Replies.step] at present
    split at present
    · exact Or.inl present
    · rename_i work issued
      obtain ⟨callback, found, asked⟩ := Option.bind_eq_some_iff.mp issued
      rcases List.mem_append.mp present with old | new
      · exact Or.inl old
      · obtain rfl := List.mem_singleton.mp new
        refine Or.inr ⟨callback, found, fun job of => ok job ?_ callback.stage work asked⟩
        exact Option.bind_eq_some_iff.mpr ⟨callback, found, of⟩
  · have same : (Replies.step s.replies (.issue index request)).sends = s.replies.sends := by
      simp only [Replies.step]
      split <;> rfl
    rw [same]
    exact unanswering_refl _

theorem accounted_land {s : State} {index : Nat} {operation : Operation} {callback : Callback}
    (accounted : Accounted inbox s) (found : s.replies.operations[index]? = some operation)
    (called : s.replies.callbacks[operation.callback]? = some callback)
    (prompt : completes s.replies operation callback.scope = true → ∀ decision ∈ s.decisions,
      ∀ attempt ∈ decision.attempt callback.scope, attempt = operation.callback) :
    Accounted inbox { s with replies := land s.replies index operation callback } := by
  have member := List.mem_of_getElem? found
  obtain ⟨same, sameCalled, ok⟩ := accounted.operations operation member
  obtain rfl : callback = same := Option.some.inj (called.symm.trans sameCalled)
  have seated : Seated s.replies (land s.replies index operation callback) :=
    seated_same (land_callbacks s.replies index operation callback).1
  refine accounted_next (t := { s with replies := land s.replies index operation callback }) accounted seated rfl rfl ?_ ?_ ?_ ?_
  · exact fun row member => ⟨row, member, rowKept_refl row⟩
  · exact fun row member => Or.inl ⟨row, member, rowKept_refl row⟩
  · intro next present
    rcases land_works present with old | ⟨issuer, idle⟩
    · exact accounted.operations next old
    · refine ⟨callback, issuer ▸ called, fun job _ => ?_⟩
      unfold OperationOk
      split
      · rename_i work
        rw [work] at idle
        cases idle
      · rename_i work
        rw [work] at idle
        cases idle
      · trivial
  · intro send present
    rcases land_sends present with old | queued
    · exact Or.inl (unanswering_refl _ send old)
    · right
      intro job of answer
      cases queued with
      | automatic work completing =>
        obtain scope := answers_reply.mp answer
        rw [scope] at of
        have good := ok job of
        simp only [OperationOk, work] at good
        obtain ⟨decision, answered, text⟩ := good
        have seat : s.jobAt inbox operation.callback = some job := by
          simp only [State.jobAt, called, Option.bind_some, of]
        refine ⟨operation.callback, decision, seat, answered, text, ?_⟩
        intro other listed attempt made
        exact prompt completing other listed attempt (scope ▸ made)
      | humanReview work =>
        rw [answers_reply.mp answer] at of
        have good := ok job of
        simp only [OperationOk, work] at good

/-! ### Decisions -/

theorem undecided_iff {job : Job} {row : ActionRow} :
    undecided job.input row = true ↔ job.names row = true ∧ row.state = .pending := by
  simp only [undecided, Job.input, ApprovalCommand.input, Job.names, Job.ref, Bool.and_eq_true, beq_iff_eq]
  constructor
  · rintro ⟨⟨organization, pending⟩, named⟩
    exact ⟨⟨organization, named⟩, pending⟩
  · rintro ⟨⟨organization, named⟩, pending⟩
    exact ⟨⟨organization, pending⟩, named⟩

theorem decideAction_none {s : State} {job : Job} {now : Time} (missed : decideAction s.acting.db job.input now = none) :
    ∀ row ∈ s.actions, job.names row = true → row.state ≠ .pending := by
  intro row member named pending
  have unmatched := List.find?_eq_none.mp (Option.map_eq_none_iff.mp missed) row member
  exact unmatched (undecided_iff.mpr ⟨named, pending⟩)

theorem undecidedAnswer_ok {s : State} {job : Job} {index : Nat}
    (missed : ∀ row ∈ s.actions, job.names row = true → row.state ≠ .pending) :
    HandlerOk s.actions s.decisions job index
      (.answered (undecidedAnswer s.acting.db job.scope.organizationId job.ref)) := by
  unfold undecidedAnswer
  split
  · trivial
  · rename_i found
    obtain ⟨row, loaded⟩ := Option.ne_none_iff_exists'.mp fun none => found (Option.isNone_iff_eq_none.mpr none)
    have named : job.names row = true := by simpa [Job.names] using List.find?_some loaded
    have member : row ∈ s.actions := List.mem_of_find?_eq_some loaded
    exact ⟨row, member, named, missed row member named⟩

theorem operationOk_kept {handlers next : Nat → Option Deciding} {job : Job} {operation : Operation}
    (kept : ∀ index decision, handlers index = some (.answered decision) → next index = some (.answered decision))
    (ok : OperationOk handlers job operation) : OperationOk next job operation := by
  unfold OperationOk at ok ⊢
  split
  · rename_i work
    rw [work] at ok
    obtain ⟨decision, answered, text⟩ := ok
    exact ⟨decision, kept _ _ answered, text⟩
  · rename_i work
    rw [work] at ok
    exact ok
  · trivial

/-- A handler that has not answered goes on. -/
theorem accounted_handle {s : State} {index : Nat} {job : Job} {deciding : Deciding} (accounted : Accounted inbox s)
    (seat : s.jobAt inbox index = some job) (open_ : ∀ decision, s.handlers index ≠ some (.answered decision))
    (ok : HandlerOk s.actions s.decisions job index deciding) : Accounted inbox (s.handle index deciding) := by
  have kept : ∀ place decision, s.handlers place = some (.answered decision) →
      (s.handle index deciding).handlers place = some (.answered decision) := by
    intro place decision answered
    by_cases here : place = index
    · exact (open_ decision (here ▸ answered)).elim
    · exact (Function.update_of_ne here _ _).trans answered
  refine ⟨?_, ?_, accounted.rows, ?_, ?_⟩
  · intro place other handled
    by_cases here : place = index
    · subst here
      obtain rfl : deciding = other := Option.some.inj ((Function.update_self place _ _).symm.trans handled)
      exact ⟨job, seat, ok⟩
    · exact accounted.handlers place other ((Function.update_of_ne here _ _).symm.trans handled)
  · intro decision listed scope place attempt
    obtain ⟨owner, row, sits, same, answered, name⟩ := accounted.attempts decision listed scope place attempt
    exact ⟨owner, row, sits, same, kept place _ answered, name⟩
  · intro operation present
    obtain ⟨callback, found, good⟩ := accounted.operations operation present
    exact ⟨callback, found, fun owner of => operationOk_kept kept (good owner of)⟩
  · intro send member owner of answer
    obtain ⟨place, decision, sits, answered, text, once⟩ := accounted.sends send member owner of answer
    exact ⟨place, decision, sits, kept place decision answered, text, once⟩

theorem handlerOk_decided {actions next : List ActionRow} {decisions : List Decision} {decision : Decision} {job : Job}
    {index : Nat} {deciding : Deciding} (ok : HandlerOk actions decisions job index deciding)
    (forward : ∀ row ∈ actions, ∃ same ∈ next, job.names same = job.names row ∧ (row.state ≠ .pending → same.state ≠ .pending))
    (backward : ∀ same ∈ next, same.state = .pending → same ∈ actions) :
    HandlerOk next (decisions ++ [decision]) job index deciding := by
  cases deciding with
  | missed =>
    intro same member named pending
    exact ok same (backward same member pending) named pending
  | answered answer =>
    cases answer with
    | row row =>
      obtain ⟨made, listed, rest⟩ := ok
      exact ⟨made, List.mem_append_left _ listed, rest⟩
    | notFound => trivial
    | invalidState =>
      obtain ⟨row, stored, named, decided⟩ := ok
      obtain ⟨same, member, names, kept⟩ := forward row stored
      exact ⟨same, member, names.trans named, kept decided⟩

theorem decided_not_pending (input : DecideActionInput) (now : Time) (row : ActionRow) :
    (row.decide input now).state ≠ .pending := by
  show input.decision.state ≠ .pending
  cases input.decision <;> rintro ⟨⟩

/-- An action leaves `pending`: its decision is recorded, and the handler that made it answers. -/
theorem accounted_decide {s : State} {input : DecideActionInput} {now : Time} {db : ActionDb} {row : ActionRow}
    {origin : Origin} {handlers : Nat → Option Deciding} (accounted : Accounted inbox s)
    (decided : decideAction s.acting.db input now = some (db, row))
    (kept : ∀ index deciding, s.handlers index = some deciding → handlers index = some deciding)
    (made : ∀ index deciding, handlers index = some deciding → s.handlers index = some deciding ∨
      deciding = .answered (.row row) ∧ ∃ job, s.jobAt inbox index = some job ∧ origin = .message job.scope index)
    (owner : ∀ scope index, origin = .message scope index → handlers index = some (.answered (.row row)) ∧
      ∃ job, s.jobAt inbox index = some job ∧ job.scope = scope)
    (unanswered : ∀ scope index, origin = .message scope index → ∀ send ∈ s.replies.sends.db.requests,
      answers scope send = false) :
    Accounted inbox { (s.act (s.acting.commit db)).record row origin with handlers } := by
  obtain ⟨old, found, rfl, rfl⟩ := transact_cases decided
  have forward : ∀ job : Job, ∀ row ∈ s.actions, ∃ same ∈ updateOne (undecided input) (ActionRow.decide input now) s.actions,
      job.names same = job.names row ∧ (row.state ≠ .pending → same.state ≠ .pending) := by
    intro job row member
    rcases mem_updateOne_of_mem member with stays | ⟨_, changed⟩
    · exact ⟨row, stays, rfl, id⟩
    · exact ⟨_, changed, rfl, fun _ => decided_not_pending input now row⟩
  have backward : ∀ same ∈ updateOne (undecided input) (ActionRow.decide input now) s.actions, same.state = .pending →
      same ∈ s.actions := by
    intro same member pending
    rcases mem_updateOne member with old | ⟨row, _, _, rfl⟩
    · exact old
    · exact (decided_not_pending input now row pending).elim
  refine ⟨?_, ?_, ?_, ?_, ?_⟩
  · intro index deciding handled
    rcases made index deciding handled with before | ⟨rfl, job, seat, issuer⟩
    · obtain ⟨job, seat, ok⟩ := accounted.handlers index deciding before
      exact ⟨job, seat, handlerOk_decided ok (forward job) backward⟩
    · exact ⟨job, seat, _, List.mem_append_right _ List.mem_cons_self, rfl, attempt_iff.mpr issuer⟩
  · intro decision listed scope index attempt
    rcases List.mem_append.mp listed with before | new
    · obtain ⟨job, row, seat, same, answered, name⟩ := accounted.attempts decision before scope index attempt
      exact ⟨job, row, seat, same, kept index _ answered, name⟩
    · obtain rfl := List.mem_singleton.mp new
      obtain ⟨answered, job, seat, same⟩ := owner scope index (attempt_iff.mp attempt)
      exact ⟨job, _, seat, same, answered, rfl⟩
  · intro row member left
    rcases mem_updateOne_first member with stays | ⟨first, foundFirst, rfl⟩
    · obtain ⟨decision, listed, name⟩ := accounted.rows row stays left
      exact ⟨decision, List.mem_append_left _ listed, name⟩
    · obtain rfl : old = first := Option.some.inj (found.symm.trans foundFirst)
      exact ⟨_, List.mem_append_right _ List.mem_cons_self, rfl⟩
  · intro operation present
    obtain ⟨callback, called, good⟩ := accounted.operations operation present
    exact ⟨callback, called, fun job of => operationOk_kept (fun place decision => kept place _) (good job of)⟩
  · intro send member job of answer
    obtain ⟨index, decision, seat, answered, text, once⟩ := accounted.sends send member job of answer
    refine ⟨index, decision, seat, kept index _ answered, text, ?_⟩
    intro other listed attempt made
    rcases List.mem_append.mp listed with before | new
    · exact once other before attempt made
    · obtain rfl := List.mem_singleton.mp new
      rw [unanswered job.scope attempt (attempt_iff.mp made) send member] at answer
      cases answer

/-! ### Every step -/

theorem accounted_actions [Datetimes] {s : State} {e : Actions.Event} (accounted : Accounted inbox s)
    (prompt : Prompt inbox s (.actions e)) (undeciding : ∀ input now, e ≠ .decide input now) (sendless : ∀ e', e ≠ .sends e') :
    Accounted inbox (s.act (Actions.step s.acting e)) := by
  have frame : ∀ next : Actions.State, RowsKept s.actions next.actions →
      Unanswering s.replies.sends.db.requests next.sends.db.requests → Accounted inbox (s.act next) := by
    intro next rows sends
    refine accounted_next (t := s.act next) accounted (seated_same rfl) rfl rfl rows.1 ?_ ?_ ?_
    · exact fun same member => Or.inl (rows.2 same member)
    · exact accounted.operations
    · exact fun send member => Or.inl (sends send member)
  cases e with
  | sends e => exact (sendless e rfl).elim
  | decide input now => exact (undeciding input now rfl).elim
  | execute organizationId id ip =>
    apply frame
    · simp only [Actions.step]
      split <;> exact rowsKept_refl _
    · simp only [Actions.step]
      split <;> exact unanswering_refl _
  | executor index action =>
    simp only [Actions.step]
    split
    · exact frame _ (rowsKept_refl _) (unanswering_refl _)
    · exact frame _ (act_keeps s.acting index _ action).1 (act_keeps s.acting index _ action).2
  | stage input id shortId now =>
    simp only [Actions.step]
    split
    · unfold stageAction
      split
      · exact frame _ (rowsKept_refl _) (unanswering_refl _)
      · refine accounted_next (t := s.act _) accounted (seated_same rfl) rfl rfl ?_ ?_ accounted.operations ?_
        · exact fun row member => ⟨row, List.mem_append_left _ member, rowKept_refl row⟩
        · intro same member
          rcases List.mem_append.mp member with old | new
          · exact Or.inl ⟨same, old, rowKept_refl same⟩
          · obtain rfl := List.mem_singleton.mp new
            refine Or.inr ⟨rfl, fun index job missed seat => ?_⟩
            obtain ⟨callback, found, _⟩ := Option.bind_eq_some_iff.mp seat
            have inside := (List.getElem?_eq_some_iff.mp found).1
            exact prompt index inside (by rw [missed]; rfl) job seat
        · exact fun send member => Or.inl (unanswering_refl _ send member)
    · exact frame _ (rowsKept_refl _) (unanswering_refl _)

theorem step_accounted [Datetimes] (s : State) (e : Event) (accounted : Accounted inbox s) (prompt : Prompt inbox s e) :
    Accounted inbox (step inbox s e) := by
  cases e with
  | replies e =>
    cases e with
    | issue index request =>
      simp only [step]
      split
      · exact accounted
      · rename_i allowed
        apply accounted_issue accounted
        intro job seat stage work asked
        have other : queues request = false := by simpa [seat] using allowed
        unfold Request.work at asked
        split at asked <;> cases asked <;> trivial
    | land index =>
      simp only [step, Replies.step]
      split
      · exact accounted
      · rename_i operation found
        split
        · exact accounted
        · rename_i callback called
          exact accounted_land accounted found called (prompt operation found callback called)
    | sends e =>
      apply accounted_replies accounted (step_seated s.replies (.sends e)) fun operation present => Or.inl ?_
      · simp only [Replies.step]
        split
        · exact unanswering_refl _
        · rename_i foreign
          exact unanswering_moves (step_moves s.replies.sends e) fun row none => none (Bool.eq_false_iff.mpr foreign)
      · simp only [Replies.step] at present
        split at present <;> exact present
    | tick _ | call _ | readClock _ | claim _ | callModel _ | stop _ => exact accounted_quiet accounted rfl
  | actions e =>
    cases e with
    | sends e => exact accounted
    | decide input now =>
      simp only [step]
      split
      · exact accounted
      · rename_i db row decided
        exact accounted_decide accounted decided (fun _ _ h => h) (fun _ _ h => Or.inl h)
          (by intro _ _ h; cases h) (by intro _ _ h; cases h)
    | stage _ _ _ _ | execute _ _ _ | executor _ _ =>
      exact accounted_actions accounted prompt (by intro _ _ h; cases h) (by intro _ h; cases h)
  | decide index now =>
    simp only [step]
    split
    · rename_i job seat unhandled
      split
      · have open_ : ∀ decision, s.handlers index ≠ some (.answered decision) := by
          rw [unhandled]
          intro _ h
          cases h
        split
        · rename_i missed
          exact accounted_handle accounted seat open_ (decideAction_none missed)
        · rename_i db row decided
          apply accounted_decide accounted decided
          · intro place deciding handled
            by_cases here : place = index
            · subst here
              rw [unhandled] at handled
              cases handled
            · exact (Function.update_of_ne here _ _).trans handled
          · intro place deciding handled
            by_cases here : place = index
            · subst here
              obtain rfl := Option.some.inj ((Function.update_self place _ _).symm.trans handled)
              exact Or.inr ⟨rfl, job, seat, rfl⟩
            · exact Or.inl ((Function.update_of_ne here _ _).symm.trans handled)
          · intro _ _ h
            cases h
            exact ⟨Function.update_self _ _ _, job, seat, rfl⟩
          · rintro _ _ ⟨⟩ send member
            apply prompt job seat _ send member
            obtain ⟨old, found, _⟩ := transact_cases decided
            have matched := List.find?_isSome.mp (Option.isSome_iff_exists.mpr ⟨old, found⟩)
            exact List.any_eq_true.mpr matched
      · exact accounted
    · exact accounted
  | read index =>
    simp only [step]
    split
    · rename_i job seat missed
      split
      · obtain ⟨same, sameSeat, ok⟩ := accounted.handlers index _ missed
        obtain rfl : job = same := Option.some.inj (seat.symm.trans sameSeat)
        exact accounted_handle accounted seat (by rw [missed]; rintro _ ⟨⟩) (undecidedAnswer_ok ok)
      · exact accounted
    · exact accounted
  | acknowledge index objectId id =>
    simp only [step]
    split
    · rename_i job decision seat answered
      apply accounted_issue accounted
      intro other sits stage work asked
      obtain rfl : job = other := Option.some.inj (seat.symm.trans sits)
      cases stage <;> simp only [Request.work, reduceCtorEq, Option.some.injEq] at asked
      subst asked
      exact ⟨decision, answered, rfl⟩
    · exact accounted

/-! ### Runs -/

/-- The acknowledgement of a command says what its message did. -/
structure Truthful (s : State) (job : Job) (send : SendRow) : Prop where
  decided : (∃ row, send.text = decisionReply job.command (.row row)) ↔
    ∃ decision ∈ s.decisions, ∃ index, decision.origin = .message job.scope index
  named : ∀ decision ∈ s.decisions, ∀ index, decision.origin = .message job.scope index →
    ∃ row, row.name = decision.name ∧ send.text = decisionReply job.command (.row row)
  elsewhere : send.text = decisionReply job.command .invalidState → ∃ row ∈ s.actions, job.names row = true ∧
    ∃ decision ∈ s.decisions, decision.name = row.name ∧ ∀ index, decision.origin ≠ .message job.scope index

/-- Every queued acknowledgement of a command is truthful. -/
structure OwnersTold (inbox : AgentReplyScope → Option DirectMessage) (s : State) : Prop where
  truthful : ∀ send ∈ s.replies.sends.db.requests, ∀ job, jobOf inbox job.scope = some job →
    answers job.scope send = true → Truthful s job send

theorem acknowledged_truthful {s : State} {job : Job} {send : SendRow} (accounted : Accounted inbox s)
    (acknowledged : Acknowledged inbox s job send) : Truthful s job send := by
  obtain ⟨index, decision, seat, answered, text, once⟩ := acknowledged
  obtain ⟨same, sameSeat, ok⟩ := accounted.handlers index _ answered
  obtain rfl : job = same := Option.some.inj (seat.symm.trans sameSeat)
  have named : ∀ other ∈ s.decisions, ∀ attempt, other.origin = .message job.scope attempt →
      ∃ row, decision = .row row ∧ row.name = other.name := by
    intro other listed attempt made
    obtain rfl := once other listed attempt (attempt_iff.mpr made)
    obtain ⟨_, row, _, _, handled, name⟩ := accounted.attempts other listed job.scope attempt (attempt_iff.mpr made)
    have both : Deciding.answered decision = .answered (.row row) := Option.some.inj (answered.symm.trans handled)
    exact ⟨row, by injection both, name⟩
  refine ⟨⟨?_, ?_⟩, ?_, ?_⟩
  · rintro ⟨row, told⟩
    cases decision with
    | row own =>
      obtain ⟨other, listed, _, made⟩ := ok
      exact ⟨other, listed, index, attempt_iff.mp made⟩
    | notFound => exact (row_ne_notFound _ _ (told.symm.trans text)).elim
    | invalidState => exact (row_ne_invalidState _ _ (told.symm.trans text)).elim
  · rintro ⟨other, listed, attempt, made⟩
    obtain ⟨row, rfl, _⟩ := named other listed attempt made
    exact ⟨row, text⟩
  · intro other listed attempt made
    obtain ⟨row, rfl, name⟩ := named other listed attempt made
    exact ⟨row, name, text⟩
  · intro told
    cases decision with
    | row own => exact (row_ne_invalidState _ _ (text.symm.trans told)).elim
    | notFound => exact (notFound_ne_invalidState _ (text.symm.trans told)).elim
    | invalidState =>
      obtain ⟨row, member, matched, left⟩ := ok
      obtain ⟨other, listed, name⟩ := accounted.rows row member left
      refine ⟨row, member, matched, other, listed, name, fun attempt made => ?_⟩
      obtain ⟨_, isRow, _⟩ := named other listed attempt made
      cases isRow

theorem start_accounted (messages : List Ingest.MessageRow) (clock : Time) : Accounted inbox (start messages clock) := by
  refine ⟨?_, ?_, ?_, ?_, ?_⟩
  · intro _ _ handled
    cases handled
  all_goals
    intro _ listed
    cases listed

/-- Every run in which the callback that decided is the one that answers: whatever else fails, expires or
runs again, the owner is told the truth. -/
theorem commands_acknowledged [Datetimes] (inbox : AgentReplyScope → Option DirectMessage)
    (messages : List Ingest.MessageRow) (clock : Time) {events : List Event}
    (prompt : Along (step inbox) (Prompt inbox) (start messages clock) events) :
    OwnersTold inbox (run (step inbox) (start messages clock) events) := by
  have accounted := run_invariant_along (I := Accounted inbox) step_accounted (start_accounted messages clock) prompt
  refine ⟨fun send member job of answer => ?_⟩
  exact acknowledged_truthful accounted (accounted.sends send member job of answer)

def ownerChat : AgentReplyScope := ⟨"o", "i", "1@s.whatsapp.net", "M"⟩

def ownerInbox (scope : AgentReplyScope) : Option DirectMessage :=
  if scope = ownerChat then some ⟨"approve aaaaaa", "1@s.whatsapp.net"⟩ else none

def ownerApproval : Job := ⟨ownerChat, ⟨.approve, "aaaaaa"⟩, "1@s.whatsapp.net"⟩

def leaveGroup : StageActionInput := ⟨"o", "i", "1@g.us", "group_leave", .obj [], "Leave the group.", "agent", "internal"⟩

/-- A callback claims the run, and its command approves the action. -/
def approving : List Event :=
  [.actions (.stage leaveGroup "a" "AAAAAA" 1), .replies (.call ownerChat), .replies (.readClock 0), .replies (.claim 0),
    .replies (.claim 0), .decide 0 2]

/-- It stops there; its lease expires, and a second callback answers. -/
def answeredByRetry : List Event :=
  approving ++ [.replies (.stop 0), .replies (.tick 120001), .replies (.call ownerChat), .replies (.readClock 1),
    .replies (.claim 1), .replies (.claim 1), .decide 1 120002, .read 1, .acknowledge 1 0 "s", .replies (.land 0)]

def retried : State :=
  letI : Datetimes := ⟨fun _ => none⟩
  run (step ownerInbox) (start [] 0) answeredByRetry

theorem retry_denies_decision : ¬ OwnersTold ownerInbox retried := by
  intro told
  have facts : ∃ send ∈ retried.replies.sends.db.requests,
      answers ownerApproval.scope send = true ∧ send.text = "AAAAAA has already been decided." := by decide +kernel
  have made : ⟨("o", "a"), .message ownerChat 0⟩ ∈ retried.decisions := by decide +kernel
  have parsed : jobOf ownerInbox ownerApproval.scope = some ownerApproval := by decide +kernel
  have denied : "AAAAAA has already been decided." = decisionReply ownerApproval.command .invalidState := by decide +kernel
  obtain ⟨send, member, answer, text⟩ := facts
  have truthful := told.truthful send member ownerApproval parsed answer
  obtain ⟨row, _, approved⟩ := truthful.named _ made 0 rfl
  exact row_ne_invalidState _ row (approved.symm.trans (text.trans denied))

theorem commands_acknowledged_once :
    letI : Datetimes := ⟨fun _ => none⟩
    OwnersTold ownerInbox (run (step ownerInbox) (start [] 0) (approving ++ [.acknowledge 0 0 "s", .replies (.land 0)])) :=
  letI : Datetimes := ⟨fun _ => none⟩
  commands_acknowledged ownerInbox [] 0 (by decide +kernel)

end GroupButler.Replies.Commands
