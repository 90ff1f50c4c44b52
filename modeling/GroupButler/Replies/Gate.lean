import GroupButler.Replies.Acknowledgement
import GroupButler.Replies.Retries
import GroupButler.Sends.Lifecycle
import GroupButler.Tools.Accepted

/-!
# The gate and the queue

A generated answer is queued as the gate returned it. The text of a `group_send` call, and the acknowledgement of
a command, are queued without it: a text in the queue has passed the gate as long as these two are ones it would
let through.
-/

namespace GroupButler.Replies.Generation
open Foundation Store Sends Actions Ai Tools

/-! ### What an executor sends -/

/-- The text an executor is about to send is that of its row. -/
def Honest [Datetimes] (executor : Executor) : Prop :=
  ∀ text due, executor.stage = .sending text due → sendRequestFor executor.action.params = .ok (text, due) ∧
    executor.action.action = "group_send"

section
variable [Datetimes]

theorem begin_honest (requests : List SendRow) (executor : Executor) :
    Honest { executor with stage := begin requests executor.action } := by
  intro text due (sending : begin requests executor.action = .sending text due)
  unfold begin at sending
  split at sending
  · split at sending
    · cases sending
    · dsimp only at sending
      split at sending <;> cases sending
  · split at sending
    · rename_i named
      split at sending
      · cases sending
      · rename_i read
        obtain ⟨rfl, rfl⟩ := Actions.Stage.sending.inj sending
        exact ⟨read, named⟩
    · split at sending <;> cases sending

theorem readBack_honest (db : SendDb) (executor : Executor) (stage : Actions.Stage)
    (still : ∀ text due, stage ≠ .sending text due) : Honest { executor with stage := readBack db executor.action stage } := by
  intro text due (sending : readBack db executor.action stage = .sending text due)
  unfold readBack at sending
  split at sending
  · split at sending <;> cases sending
  · split at sending <;> cases sending
  · exact (still text due sending).elim

/-- The executors after a step: one of them has gone on, with its own row. -/
theorem act_executors (s : Actions.State) (index : Nat) (executor : Executor) (action : Actions.Action) :
    (Actions.act s index executor action).executors = s.executors ∨
      ∃ next : Executor, (Actions.act s index executor action).executors = s.executors.set index next ∧
        next.action = executor.action ∧ Honest next := by
  have closed {stage : Actions.Stage} (still : ∀ text due, stage ≠ .sending text due) :
      Honest { executor with stage } := fun text due sending => (still text due sending).elim
  unfold Actions.act
  split
  · -- claim
    split
    · split
      · exact Or.inr ⟨_, rfl, rfl, closed (by intro _ _ h; cases h)⟩
      · exact Or.inr ⟨_, rfl, rfl, closed (by intro _ _ h; cases h)⟩
    · exact Or.inr ⟨_, rfl, rfl, closed (by intro _ _ h; cases h)⟩
  · exact Or.inr ⟨_, rfl, rfl, begin_honest _ executor⟩
  · -- cancel
    dsimp only
    split
    · exact Or.inr ⟨_, rfl, rfl, closed (by intro _ _ h; cases h)⟩
    · exact Or.inr ⟨_, rfl, rfl, closed (by intro _ _ h; cases h)⟩
  · -- create
    split
    · exact Or.inr ⟨_, rfl, rfl, closed (by intro _ _ h; cases h)⟩
    · exact Or.inl rfl
  · exact Or.inr ⟨_, rfl, rfl, closed (by intro _ _ h; cases h)⟩
  · exact Or.inr ⟨_, rfl, rfl, closed (by intro _ _ h; cases h)⟩
  · exact Or.inr ⟨_, rfl, rfl, readBack_honest _ executor _ (by intro _ _ h; cases h)⟩
  · exact Or.inr ⟨_, rfl, rfl, readBack_honest _ executor _ (by intro _ _ h; cases h)⟩
  · -- settle
    split
    · exact Or.inr ⟨_, rfl, rfl, closed (by intro _ _ h; cases h)⟩
    · exact Or.inr ⟨_, rfl, rfl, closed (by intro _ _ h; cases h)⟩
  · exact Or.inl rfl
  · exact Or.inr ⟨_, rfl, rfl, closed (by intro _ _ h; cases h)⟩
  · exact Or.inl rfl

omit [Datetimes] in
theorem createSend_rows {db : SendDb} {objectId : Nat} {id : String} {input : CreateSendInput} {now : Time} {row : SendRow}
    (member : row ∈ (createSend db objectId id input now).requests) :
    row ∈ db.requests ∨ row = candidateSend objectId id input now := by
  unfold createSend at member
  split at member
  · exact Or.inl member
  · rcases List.mem_append.mp member with old | new
    · exact Or.inl old
    · exact Or.inr (List.mem_singleton.mp new)

omit [Datetimes] in
theorem cancelled_rows {db : SendDb} {organizationId id ip : String} {actor : Actor} {now : Time} {row : SendRow}
    (member : row ∈ (transitionSend db organizationId id .cancel ip actor now).1.requests) :
    row ∈ db.requests ∨ row.waiting = false := by
  unfold transitionSend at member
  dsimp only at member
  split at member
  · rcases mem_updateOne member with old | ⟨before, _, _, rfl⟩
    · exact Or.inl old
    · exact Or.inr rfl
  · exact Or.inl member

/-- What an executor writes to the queue is no longer waiting, or has the text it is about to send. -/
theorem act_rows {s : Actions.State} {index : Nat} {executor : Executor} {action : Actions.Action} {row : SendRow}
    (member : row ∈ (Actions.act s index executor action).sends.db.requests) :
    row ∈ s.sends.db.requests ∨ row.waiting = false ∨ ∃ due, executor.stage = .sending row.text due := by
  unfold Actions.act at member
  split at member
  · split at member
    · split at member <;> exact Or.inl member
    · exact Or.inl member
  · exact Or.inl member
  · dsimp only at member
    split at member
    · rcases cancelled_rows member with old | waiting
      · exact Or.inl old
      · exact Or.inr (Or.inl waiting)
    · exact Or.inl member
  · rename_i sending
    split at member
    · rcases createSend_rows member with old | rfl
      · exact Or.inl old
      · exact Or.inr (Or.inr ⟨_, sending⟩)
    · exact Or.inl member
  · exact Or.inl member
  · exact Or.inl member
  · exact Or.inl member
  · exact Or.inl member
  · split at member <;> exact Or.inl member
  · exact Or.inl member
  · exact Or.inl member
  · exact Or.inl member

end

/-! ### What the rows say -/

/-- What no transaction on an action changes. -/
def content (row : ActionRow) : String × String × Json := (row.id, row.action, row.params)

theorem act_content [Datetimes] (s : Actions.State) (index : Nat) (executor : Executor) (action : Actions.Action) :
    (Actions.act s index executor action).actions.map content = s.actions.map content :=
  act_map (fun _ _ => rfl) (fun _ _ _ => rfl) s index executor action

section
variable (inbox : AgentReplyScope → Option Commands.DirectMessage) [Datetimes]

theorem actions_contents (s : Actions.State) (e : Actions.Event) :
    (Actions.step s e).actions.map content = s.actions.map content ∨
      ∃ input id shortId now, e = .stage input id shortId now ∧ (∀ row ∈ s.actions, row.id ≠ id) ∧
        (Actions.step s e).actions.map content = s.actions.map content ++ [(id, input.action, input.params)] := by
  cases e with
  | sends e => exact Or.inl rfl
  | stage input id shortId now =>
    simp only [Actions.step]
    split
    · rename_i unused
      simp only [stageAction]
      split
      · exact Or.inl rfl
      · refine Or.inr ⟨input, id, shortId, now, rfl, ?_, ?_⟩
        · simpa using unused
        · show (s.actions ++ [_]).map content = _
          rw [List.map_append, List.map_singleton]
          rfl
    · exact Or.inl rfl
  | decide input now =>
    simp only [Actions.step]
    split
    · exact Or.inl rfl
    · rename_i decided
      exact Or.inl (transact_map decided fun _ => rfl)
  | execute organizationId id ip =>
    simp only [Actions.step]
    split <;> exact Or.inl rfl
  | executor index action =>
    simp only [Actions.step]
    split
    · exact Or.inl rfl
    · exact Or.inl (act_content s index _ action)

/-- A row keeps its content, and a staged one has an id of its own. -/
theorem commands_contents (s : Commands.State) (e : Commands.Event) :
    (Commands.step inbox s e).actions.map content = s.actions.map content ∨
      ∃ input id shortId now, e = .actions (.stage input id shortId now) ∧ (∀ row ∈ s.actions, row.id ≠ id) ∧
        (Commands.step inbox s e).actions.map content = s.actions.map content ++ [(id, input.action, input.params)] := by
  have decided {db : ActionDb} {row : ActionRow} {input : DecideActionInput} {now : Time}
      (done : decideAction s.acting.db input now = some (db, row)) : db.actions.map content = s.actions.map content :=
    transact_map done fun _ => rfl
  cases e with
  | replies e =>
    refine Or.inl ?_
    simp only [Commands.step]
    split
    · split <;> rfl
    · rfl
  | actions e =>
    simp only [Commands.step]
    split
    · exact Or.inl rfl
    · split
      · exact Or.inl rfl
      · rename_i done
        exact Or.inl (decided done)
    · rcases actions_contents s.acting e with same | ⟨input, id, shortId, now, rfl, unused, staged⟩
      · exact Or.inl same
      · exact Or.inr ⟨input, id, shortId, now, rfl, unused, staged⟩
  | decide callback now =>
    refine Or.inl ?_
    simp only [Commands.step]
    split
    · split
      · split
        · rfl
        · rename_i done
          exact decided done
      · rfl
    · rfl
  | read callback =>
    refine Or.inl ?_
    simp only [Commands.step]
    split
    · split <;> rfl
    · rfl
  | acknowledge callback objectId id =>
    refine Or.inl ?_
    simp only [Commands.step]
    split <;> rfl

/-- The executors stay in their places with their rows, and are honest if they were. -/
def Seats (executors next : List Executor) : Prop :=
  (∀ (index : Nat) (executor : Executor), executors[index]? = some executor →
    ∃ after : Executor, next[index]? = some after ∧ after.action = executor.action) ∧
  ((∀ executor ∈ executors, Honest executor) → ∀ executor ∈ next, Honest executor)

theorem seats_refl (executors : List Executor) : Seats executors executors :=
  ⟨fun _ executor found => ⟨executor, found, rfl⟩, id⟩

theorem seats_called (executors : List Executor) (row : ActionRow) (ip : String) :
    Seats executors (executors ++ [⟨row, ip, .called⟩]) := by
  refine ⟨fun index executor found => ⟨executor, ?_, rfl⟩, fun honest executor member => ?_⟩
  · exact (List.getElem?_append_left (List.getElem?_eq_some_iff.mp found).1).trans found
  · rcases List.mem_append.mp member with old | new
    · exact honest executor old
    · obtain rfl := List.mem_singleton.mp new
      intro _ _ sending
      cases sending

theorem seats_act {s : Actions.State} {index : Nat} {executor : Executor} (found : s.executors[index]? = some executor)
    (action : Actions.Action) : Seats s.executors (Actions.act s index executor action).executors := by
  rcases act_executors s index executor action with same | ⟨next, changed, row, honest⟩
  · rw [same]
    exact seats_refl _
  · rw [changed]
    refine ⟨fun place other there => ?_, fun all other member => ?_⟩
    · by_cases here : index = place
      · subst here
        obtain rfl : executor = other := Option.some.inj (found.symm.trans there)
        exact ⟨next, List.getElem?_set_self (List.getElem?_eq_some_iff.mp found).1, row⟩
      · exact ⟨other, (List.getElem?_set_ne here).trans there, rfl⟩
    · rcases List.mem_or_eq_of_mem_set member with old | rfl
      · exact all other old
      · exact honest

theorem actions_seats (s : Actions.State) (e : Actions.Event) : Seats s.executors (Actions.step s e).executors := by
  cases e with
  | sends e => exact seats_refl _
  | stage input id shortId now =>
    simp only [Actions.step]
    split <;> exact seats_refl _
  | decide input now =>
    simp only [Actions.step]
    split <;> exact seats_refl _
  | execute organizationId id ip =>
    simp only [Actions.step]
    split
    · exact seats_refl _
    · exact seats_called _ _ _
  | executor index action =>
    simp only [Actions.step]
    split
    · exact seats_refl _
    · rename_i executor found
      exact seats_act found action

theorem commands_seats (s : Commands.State) (e : Commands.Event) : Seats s.executors (Commands.step inbox s e).executors := by
  cases e with
  | replies e =>
    simp only [Commands.step]
    split
    · split <;> exact seats_refl _
    · exact seats_refl _
  | actions e =>
    simp only [Commands.step]
    split
    · exact seats_refl _
    · split <;> exact seats_refl _
    · exact actions_seats s.acting _
  | decide callback now =>
    simp only [Commands.step]
    split
    · split
      · split <;> exact seats_refl _
      · exact seats_refl _
    · exact seats_refl _
  | read callback =>
    simp only [Commands.step]
    split
    · split <;> exact seats_refl _
    · exact seats_refl _
  | acknowledge callback objectId id =>
    simp only [Commands.step]
    split <;> exact seats_refl _

end

/-! ### The texts in flight -/

def automaticText : Work → Option String
  | .automatic _ _ text _ _ _ _ => some text
  | _ => none

def requestText : Replies.Request → Option String
  | .automatic _ text _ _ _ _ => some text
  | _ => none

theorem work_text {request : Replies.Request} {stage : Replies.Stage} {work : Work} (asked : request.work stage = some work) :
    automaticText work = requestText request := by
  unfold Replies.Request.work at asked
  split at asked <;> cases asked <;> rfl

theorem issue_operations {s : Replies.State} {callback : Nat} {request : Replies.Request} {operation : Operation}
    (member : operation ∈ (Replies.step s (.issue callback request)).operations) :
    operation ∈ s.operations ∨ operation.callback = callback ∧ automaticText operation.work = requestText request := by
  simp only [Replies.step] at member
  split at member
  · exact Or.inl member
  · rename_i work issued
    rcases List.mem_append.mp member with old | new
    · exact Or.inl old
    · obtain rfl := List.mem_singleton.mp new
      obtain ⟨opened, -, asked⟩ := Option.bind_eq_some_iff.mp issued
      exact Or.inr ⟨rfl, work_text asked⟩

theorem replies_operations {s : Replies.State} {e : Replies.Event} {operation : Operation}
    (silent : ∀ callback request, e = .issue callback request → requestText request = none)
    (member : operation ∈ (Replies.step s e).operations) : operation ∈ s.operations ∨ automaticText operation.work = none := by
  cases e with
  | sends e =>
    simp only [Replies.step] at member
    split at member <;> exact Or.inl member
  | issue callback request =>
    rcases issue_operations member with old | ⟨-, text⟩
    · exact Or.inl old
    · exact Or.inr (text.trans (silent callback request rfl))
  | land index =>
    simp only [Replies.step] at member
    split at member
    · exact Or.inl member
    · split at member
      · exact Or.inl member
      · rcases Commands.land_works member with old | ⟨-, still⟩
        · exact Or.inl old
        · cases work : operation.work with
          | automatic => rw [work] at still; cases still
          | _ => exact Or.inr rfl
  | _ =>
    rw [(Commands.step_quiet rfl).2] at member
    exact Or.inl member

section
variable (inbox : AgentReplyScope → Option Commands.DirectMessage) [Datetimes]

theorem commands_operations {s : Commands.State} {e : Commands.Event} {operation : Operation}
    (silent : ∀ callback request, e = .replies (.issue callback request) → requestText request = none)
    (unacknowledged : ∀ callback objectId id, e ≠ .acknowledge callback objectId id)
    (member : operation ∈ (Commands.step inbox s e).replies.operations) :
    operation ∈ s.replies.operations ∨ automaticText operation.work = none := by
  cases e with
  | replies e =>
    simp only [Commands.step] at member
    split at member
    · split at member
      · exact Or.inl member
      · exact replies_operations (fun callback request same => silent callback request (congrArg _ same)) member
    · exact replies_operations (fun callback request same => silent callback request (congrArg _ same)) member
  | actions e =>
    simp only [Commands.step] at member
    split at member
    · exact Or.inl member
    · split at member <;> exact Or.inl member
    · exact Or.inl member
  | decide callback now =>
    simp only [Commands.step] at member
    split at member
    · split at member
      · split at member <;> exact Or.inl member
      · exact Or.inl member
    · exact Or.inl member
  | read callback =>
    simp only [Commands.step] at member
    split at member
    · split at member <;> exact Or.inl member
    · exact Or.inl member
  | acknowledge callback objectId id => exact (unacknowledged callback objectId id rfl).elim

end

/-! ### The invariant -/

/-- A text in flight is the outcome of its callback. -/
def Owed (askings : List Asking) (operation : Operation) : Prop :=
  ∀ text ∈ automaticText operation.work, ∃ asking ∈ askings, asking.callback = operation.callback ∧
    asking.outcome = some (.ok text)

section
variable [Normalization] [Datetimes]

/-- What the write would send, the gate would let through. -/
def Worded (write : Write) : Prop :=
  write.name = .groupSend → ∀ request, sendRequestFor write.staged.params = .ok request → Ai.Accepted write.links request.1

/-- The rows with this id are what the write asked for. -/
def Held (contents : List (String × String × Json)) (write : Write) (id : String) : Prop :=
  (∃ row ∈ contents, row.1 = id) ∧ ∀ row ∈ contents, row.1 = id → row.2 = (write.name.name, write.staged.params)

structure Gated (s : State) : Prop where
  once : (s.askings.map Asking.callback).Nodup
  answers : ∀ asking ∈ s.askings, ∀ text, asking.outcome = some (.ok text) → Ai.Accepted asking.links text
  operations : ∀ operation ∈ s.commands.replies.operations, Owed s.askings operation
  calls : ∀ call ∈ s.calls, Worded call.write
  rows : ∀ call ∈ s.calls, ∀ id, call.stage = .staged id → Held (s.commands.actions.map content) call.write id
  honest : ∀ executor ∈ s.commands.executors, Honest executor
  executors : ∀ call ∈ s.calls, ∀ index, call.executor = some index → ∃ executor : Executor,
    s.commands.executors[index]? = some executor ∧
      (executor.action.action, executor.action.params) = (call.write.name.name, call.write.staged.params)
  queued : ∀ send ∈ s.queued, send.row.waiting = true → Ai.Accepted send.links send.row.text

omit [Normalization] [Datetimes] in
theorem owed_subset {askings next : List Asking} {operation : Operation} (owed : Owed askings operation)
    (kept : ∀ asking ∈ askings, asking.outcome ≠ none → asking ∈ next) : Owed next operation := by
  intro text sent
  obtain ⟨asking, member, callback, outcome⟩ := owed text sent
  exact ⟨asking, kept asking member (by rw [outcome]; simp), callback, outcome⟩

omit [Normalization] [Datetimes] in
theorem held_staged {contents : List (String × String × Json)} {write : Write} {id other : String} {said : String × Json}
    (held : Held contents write id) (unused : ∀ row ∈ contents, row.1 ≠ other) : Held (contents ++ [(other, said)]) write id := by
  obtain ⟨⟨row, member, named⟩, all⟩ := held
  refine ⟨⟨row, List.mem_append_left _ member, named⟩, fun new present same => ?_⟩
  rcases List.mem_append.mp present with old | fresh
  · exact all new old same
  · obtain rfl := List.mem_singleton.mp fresh
    exact (unused row member (named.trans same.symm)).elim

/-! ### What keeps it -/

variable {s : State}

theorem gated_apply (inbox : AgentReplyScope → Option Commands.DirectMessage) (gated : Gated s) (e : Commands.Event)
    (owed : ∀ operation ∈ (Commands.step inbox s.commands e).replies.operations, Owed s.askings operation) :
    Gated (s.apply inbox e) := by
  obtain ⟨places, honest⟩ := commands_seats inbox s.commands e
  refine { gated with operations := owed, rows := ?_, honest := honest gated.honest, executors := ?_ }
  · intro call member id stage
    have held := gated.rows call member id stage
    show Held ((Commands.step inbox s.commands e).actions.map content) call.write id
    rcases commands_contents inbox s.commands e with same | ⟨input, other, shortId, now, -, unused, staged⟩
    · rw [same]
      exact held
    · rw [staged]
      refine held_staged held ?_
      intro row present
      obtain ⟨stored, listed, rfl⟩ := List.mem_map.mp present
      exact unused stored listed
  · intro call member index own
    obtain ⟨executor, found, row⟩ := gated.executors call member index own
    obtain ⟨after, there, same⟩ := places index executor found
    exact ⟨after, there, by rw [same]; exact row⟩

theorem gated_queue {before : SendDb} {links : List (List Char)} (gated : Gated s)
    (passed : ∀ row ∈ newRows before s.sends, row.waiting = true → Ai.Accepted links row.text) : Gated (s.queue before links) := by
  refine { gated with queued := ?_ }
  intro send member waiting
  rcases List.mem_append.mp member with old | new
  · exact gated.queued send old waiting
  · obtain ⟨row, listed, rfl⟩ := List.mem_map.mp new
    exact passed row listed waiting

theorem gated_opened {asking : Asking} (gated : Gated s) (unasked : s.asked asking.callback = false)
    (passed : ∀ text, asking.outcome = some (.ok text) → Ai.Accepted asking.links text) :
    Gated { s with askings := s.askings ++ [asking] } := by
  refine { gated with once := ?_, answers := ?_, operations := ?_ }
  · show ((s.askings ++ [asking]).map Asking.callback).Nodup
    rw [List.map_append, List.map_singleton]
    refine List.nodup_append.mpr ⟨gated.once, List.nodup_singleton _, ?_⟩
    intro callback old other new same
    obtain ⟨earlier, member, rfl⟩ := List.mem_map.mp old
    obtain rfl := List.mem_singleton.mp new
    have different := List.any_eq_false.mp unasked earlier member
    exact different (by simpa using same)
  · intro other member
    rcases List.mem_append.mp member with old | new
    · exact gated.answers other old
    · obtain rfl := List.mem_singleton.mp new
      exact passed
  · exact fun operation member => owed_subset (gated.operations operation member) fun other old _ => List.mem_append_left _ old

theorem gated_asking {index : Nat} {asking next : Asking} (gated : Gated s) (found : s.askings[index]? = some asking)
    (running : asking.outcome = none) (callback : next.callback = asking.callback)
    (passed : ∀ text, next.outcome = some (.ok text) → Ai.Accepted next.links text) : Gated (s.setAsking index next) := by
  refine { gated with once := ?_, answers := ?_, operations := ?_ }
  · show ((s.askings.set index next).map Asking.callback).Nodup
    rw [map_set_same found callback]
    exact gated.once
  · intro other member
    rcases List.mem_or_eq_of_mem_set member with old | rfl
    · exact gated.answers other old
    · exact passed
  · refine fun operation member => owed_subset (gated.operations operation member) fun other old closed => ?_
    obtain ⟨place, there⟩ := List.mem_iff_getElem?.mp old
    have apart : index ≠ place := by
      rintro rfl
      obtain rfl : asking = other := Option.some.inj (found.symm.trans there)
      exact closed running
    exact List.mem_of_getElem? ((List.getElem?_set_ne apart).trans there)

theorem gated_called {write : Write} (gated : Gated s) (worded : Worded write) :
    Gated { s with calls := s.calls ++ [⟨write, .called, none, false⟩] } := by
  have each {P : Call → Prop} (old : ∀ call ∈ s.calls, P call) (new : P ⟨write, .called, none, false⟩) :
      ∀ call ∈ s.calls ++ [⟨write, .called, none, false⟩], P call := by
    intro call member
    rcases List.mem_append.mp member with earlier | added
    · exact old call earlier
    · rw [List.mem_singleton.mp added]
      exact new
  refine { gated with calls := each gated.calls worded, rows := each gated.rows ?_, executors := each gated.executors ?_ }
  · intro id stage
    cases stage
  · intro index own
    cases own

theorem gated_call {index : Nat} {call next : Call} (gated : Gated s) (found : s.calls[index]? = some call)
    (same : next.write = call.write)
    (rows : ∀ id, next.stage = .staged id → Held (s.commands.actions.map content) call.write id)
    (executors : ∀ index, next.executor = some index → ∃ executor : Executor, s.commands.executors[index]? = some executor ∧
      (executor.action.action, executor.action.params) = (call.write.name.name, call.write.staged.params)) :
    Gated (s.setCall index next) := by
  have each {P : Call → Prop} (old : ∀ call ∈ s.calls, P call) (new : P next) : ∀ call ∈ s.calls.set index next, P call := by
    intro call member
    rcases List.mem_or_eq_of_mem_set member with earlier | rfl
    · exact old call earlier
    · exact new
  refine { gated with calls := each gated.calls ?_, rows := each gated.rows ?_, executors := each gated.executors ?_ }
  · exact same ▸ gated.calls call (List.mem_of_getElem? found)
  · exact same ▸ rows
  · exact same ▸ executors

theorem gated_execute (gated : Gated s) (row : ActionRow) (ip : String) :
    Gated { s with commands := { s.commands with executors := s.commands.executors ++ [⟨row, ip, .called⟩] } } := by
  obtain ⟨places, honest⟩ := seats_called s.commands.executors row ip
  refine { gated with honest := honest gated.honest, executors := ?_ }
  intro call member index own
  obtain ⟨executor, found, said⟩ := gated.executors call member index own
  obtain ⟨after, there, same⟩ := places index executor found
  exact ⟨after, there, by rw [same]; exact said⟩

/-! ### A round trip of a call -/

omit [Normalization] [Datetimes] in
theorem groupSend_named {name : StagedGroupWriteToolName} (named : name.name = "group_send") : name = .groupSend := by
  cases name with
  | groupSend => rfl
  | _ => exact absurd named (by decide)

variable (inbox : AgentReplyScope → Option Commands.DirectMessage)

theorem gated_quiet {s : State} (gated : Gated s) {e : Commands.Event}
    (silent : ∀ callback request, e = .replies (.issue callback request) → requestText request = none)
    (unacknowledged : ∀ callback objectId id, e ≠ .acknowledge callback objectId id) : Gated (s.apply inbox e) := by
  refine gated_apply inbox gated e fun operation present => ?_
  rcases commands_operations inbox silent unacknowledged present with old | none
  · exact gated.operations operation old
  · intro text sent
    rw [none] at sent
    cases sent

omit [Normalization] in
theorem staged_held {s : State} {write : Write} {id shortId : String} {now : Time}
    (stored : Surfaces.stored s.commands.acting (s.apply inbox (.actions (.stage write.input id shortId now))).commands.acting = true) :
    Held ((s.apply inbox (.actions (.stage write.input id shortId now))).commands.actions.map content) write id := by
  rcases commands_contents inbox s.commands (.actions (.stage write.input id shortId now)) with
    same | ⟨input, other, otherShort, later, asked, unused, staged⟩
  · have length := congrArg List.length same
    rw [List.length_map, List.length_map] at length
    have grew : s.commands.actions.length < (Commands.step inbox s.commands (.actions (.stage write.input id shortId now))).actions.length :=
      of_decide_eq_true stored
    omega
  · obtain ⟨rfl, rfl, rfl, rfl⟩ : write.input = input ∧ id = other ∧ shortId = otherShort ∧ now = later := by
      simpa using asked
    show Held ((Commands.step inbox s.commands _).actions.map content) write id
    rw [staged]
    refine ⟨⟨_, List.mem_append_right _ (List.mem_singleton_self _), rfl⟩, fun row member same => ?_⟩
    rcases List.mem_append.mp member with old | new
    · obtain ⟨stored, listed, rfl⟩ := List.mem_map.mp old
      exact (unused stored listed same).elim
    · rw [List.mem_singleton.mp new]
      rfl

theorem executed_passed {s : State} {call : Call} {executor : Nat} {action : Actions.Action} {row : SendRow} (gated : Gated s)
    (member : call ∈ s.calls) (own : call.executor = some executor)
    (new : row ∈ newRows s.sends (s.apply inbox (.actions (.executor executor action))).sends) (waiting : row.waiting = true) :
    Ai.Accepted call.write.links row.text := by
  obtain ⟨there, absent⟩ := List.mem_filter.mp new
  obtain ⟨running, found, said⟩ := gated.executors call member executor own
  have there : row ∈ (Actions.act s.commands.acting executor running action).sends.db.requests := by
    have acted : Actions.step s.commands.acting (.executor executor action) =
        Actions.act s.commands.acting executor running action := by
      have found : s.commands.acting.executors[executor]? = some running := found
      simp only [Actions.step, found]
    rw [← acted]
    exact there
  rcases act_rows there with old | gone | ⟨due, sending⟩
  · exact absurd old (of_decide_eq_true absent)
  · rw [waiting] at gone
    cases gone
  · obtain ⟨read, named⟩ := gated.honest running (List.mem_of_getElem? found) _ _ sending
    obtain ⟨action_, params⟩ := Prod.mk.inj said
    exact gated.calls call member (groupSend_named (action_.symm.trans named)) _ (params ▸ read)

theorem gated_act {s : State} {index : Nat} {call : Call} (gated : Gated s) (found : s.calls[index]? = some call)
    (action : CallAction) : Gated (act inbox s index call action) := by
  have member : call ∈ s.calls := List.mem_of_getElem? found
  have quiet {e : Actions.Event} : Gated (s.apply inbox (.actions e)) :=
    gated_quiet inbox gated (by intro _ _ h; cases h) (by intro _ _ _ h; cases h)
  cases action with
  | stage id shortId now =>
    simp only [act]
    split
    · rename_i stored
      refine gated_call quiet found rfl ?_ (quiet.executors call member)
      intro other same
      obtain rfl := CallStage.staged.inj same
      exact staged_held inbox stored.2
    · exact gated
  | decide now =>
    simp only [act]
    split
    · rename_i id staged
      split
      · split
        · exact gated_call gated found rfl (by intro _ h; cases h) (gated.executors call member)
        · rename_i row decided
          refine gated_call (gated_execute quiet row "internal") found rfl (by intro _ h; cases h) ?_
          intro place own
          obtain rfl := Option.some.inj own
          refine ⟨⟨row, "internal", .called⟩, by simp, ?_⟩
          obtain ⟨before, matched, rfl, -⟩ := transact_cases decided
          have stored := List.mem_of_find?_eq_some matched
          have same : before.id = id := by
            have filtered := List.find?_some matched
            simp only [undecided, autonomyInput, refFilter, Bool.and_eq_true, beq_iff_eq] at filtered
            exact filtered.2
          exact (gated.rows call member id staged).2 _ (List.mem_map_of_mem stored) same
      · exact gated
    · exact gated
  | execute action =>
    simp only [act]
    split
    · rename_i executor staged own
      refine gated_call (gated_queue quiet ?_) found rfl (quiet.rows call member) (quiet.executors call member)
      exact fun row new waiting => executed_passed inbox gated member own new waiting
    · exact gated
  | answer => exact gated_call gated found rfl (by intro _ h; cases h) (gated.executors call member)

/-! ### A landing -/

omit [Normalization] [Datetimes] in
theorem linksOf_asking {s : State} (once : (s.askings.map Asking.callback).Nodup) {asking : Asking} (member : asking ∈ s.askings) :
    s.linksOf asking.callback = asking.links := by
  have alone := filter_unique once member
  have found : (s.askings.find? fun other => other.callback == asking.callback) = some asking := by
    rw [← List.head?_filter, alone]
    rfl
  rw [State.linksOf, found]
  rfl

theorem landed_passed {s : State} {index : Nat} {operation : Operation} {row : SendRow} (gated : Gated s)
    (found : s.commands.replies.operations[index]? = some operation)
    (new : row ∈ newRows s.sends (s.apply inbox (.replies (.land index))).sends) (waiting : row.waiting = true) :
    Ai.Accepted (s.linksOf operation.callback) row.text := by
  obtain ⟨there, absent⟩ := List.mem_filter.mp new
  have old (member : row ∈ s.sends.requests) : Ai.Accepted (s.linksOf operation.callback) row.text :=
    absurd member (of_decide_eq_true absent)
  have there : row ∈ (Replies.step s.commands.replies (.land index)).sends.db.requests := there
  simp only [Replies.step, found] at there
  split at there
  · exact old there
  · rcases Commands.land_sends there with before | queued
    · exact old before
    · cases queued with
      | @automatic run chatKind text batches facts objectId id work _ =>
        obtain ⟨asking, member, callback, outcome⟩ :=
          gated.operations operation (List.mem_of_getElem? found) text (by rw [work]; exact rfl)
        rw [← callback, linksOf_asking gated.once member]
        exact gated.answers asking member text outcome
      | humanReview _ => cases waiting

end

/-! ### The result -/

section
variable (inbox : AgentReplyScope → Option Commands.DirectMessage)
variable [Runtime] [Normalization] [Datetimes] [DateStrings]

/-- The gate would let through the text of a `group_send` call, and that of an acknowledgement. -/
def Gateable (s : State) : Event → Prop
  | .tool index .groupSend input now => ∀ write ∈ s.writing index .groupSend input now, ∀ parsed ∈ sendParams input,
      Ai.Accepted write.links parsed.1
  | .commands (.acknowledge callback _ _) => ∀ asking ∈ s.acknowledgement inbox callback, ∀ text,
      asking.outcome = some (.ok text) → Ai.Accepted asking.links text
  | _ => True

omit [Runtime] [Normalization] in
theorem stageSend_text {now : Time} {input : Json} {staged : Staged} (read : stageSend now input = some staged) :
    ∃ parsed, sendParams input = some parsed ∧ ∀ request, sendRequestFor staged.params = .ok request → request.1 = parsed.1 := by
  obtain ⟨⟨text, sendAt⟩, parsed, read⟩ := Option.bind_eq_some_iff.mp read
  refine ⟨_, parsed, fun request sent => ?_⟩
  obtain ⟨body, textRead, parsed⟩ := Option.bind_eq_some_iff.mp parsed
  obtain ⟨once, -⟩ := bounded_field textRead
  have again := trimmed_again once
  have same : body = text := by
    split at parsed
    · exact (Prod.mk.inj (Option.some.inj parsed)).1
    · obtain ⟨_, -, same⟩ := Option.map_eq_some_iff.mp parsed
      exact (Prod.mk.inj same).1
  subst same
  cases sendAt with
  | none =>
    obtain rfl := Option.some.inj read
    have whole : sendRequestFor (.obj [("text", .str body)]) = .ok (body, none) := by simp [sendRequestFor, Json.field, again]
    rw [← Except.ok.inj (whole.symm.trans sent)]
  | some sendAt =>
    obtain ⟨due, -, rfl⟩ := Option.map_eq_some_iff.mp read
    have text : ((Json.obj [("text", .str body), ("scheduledFor", .str (toISOString due))]).field "text").bind trimmed =
        some body := by simp [Json.field, again]
    simp only [sendRequestFor, text] at sent
    split at sent
    · obtain rfl := Except.ok.inj sent
      simp_all
    · split at sent
      · obtain rfl := Except.ok.inj sent
        simp_all
      · cases sent
    · cases sent

theorem writing_worded {s : State} {index : Nat} {name : StagedGroupWriteToolName} {input : Json} {now : Time} {write : Write}
    (wrote : s.writing index name input now = some write) (gateable : Gateable inbox s (.tool index name input now)) :
    Worded write := by
  intro send request sent
  have wrote_ := wrote
  obtain ⟨asking, found, wrote⟩ := Option.bind_eq_some_iff.mp wrote
  obtain ⟨groupJid, -, wrote⟩ := Option.bind_eq_some_iff.mp wrote
  obtain ⟨staged, read, wrote⟩ := Option.bind_eq_some_iff.mp wrote
  split at wrote
  · obtain rfl := Option.some.inj wrote
    obtain rfl : name = .groupSend := send
    obtain ⟨parsed, params, text⟩ := stageSend_text read
    rw [text request sent]
    exact gateable _ wrote_ parsed params
  · cases wrote

omit [Runtime] [Normalization] [Datetimes] [DateStrings] in
theorem opening_some {s : State} {callback : Nat} {chatKind : ChatKind} {authorizedJids evidence : List String} {asking : Asking}
    (opening : s.opening inbox callback chatKind authorizedJids evidence = some asking) :
    s.asked asking.callback = false ∧ asking.outcome = none := by
  unfold State.opening at opening
  split at opening
  · cases opening
  · rename_i free
    obtain ⟨_, _, rfl⟩ := Option.map_eq_some_iff.mp opening
    simp only [Bool.not_eq_true, Bool.or_eq_false_iff] at free
    exact ⟨free.1.1, rfl⟩

omit [Runtime] [Datetimes] [DateStrings] in
theorem answer_callback (asking : Asking) (text : String) (elapsedMs : Int) :
    (asking.answer text elapsedMs).callback = asking.callback := by
  unfold Asking.answer
  split
  · rfl
  · split <;> rfl

omit [Runtime] [Datetimes] [DateStrings] in
/-- An answer becomes a text only through the gate. -/
theorem answer_accepted {asking : Asking} (running : asking.outcome = none) {text : String} {elapsedMs : Int} (accepted : String)
    (outcome : (asking.answer text elapsedMs).outcome = some (.ok accepted)) :
    Ai.Accepted (asking.answer text elapsedMs).links accepted := by
  unfold Asking.answer at outcome ⊢
  split
  · rename_i passed
    rw [passed] at outcome
    obtain rfl := Outcome.ok.inj (Option.some.inj outcome)
    exact ⟨text, passed⟩
  · rename_i refused
    rw [refused] at outcome
    dsimp only at outcome
    split at outcome
    · cases outcome
    · exact absurd (running.symm.trans outcome) (by simp)

omit [Runtime] [Normalization] [Datetimes] [DateStrings] in
theorem acknowledgement_some {s : State} {callback : Nat} {asking : Asking} (known : s.acknowledgement inbox callback = some asking) :
    asking.callback = callback ∧ s.asked callback = false ∧ ∃ job decision, s.commands.jobAt inbox callback = some job ∧
      s.commands.handlers callback = some (.answered decision) ∧
      asking.outcome = some (.ok (decisionReply job.command decision)) := by
  unfold State.acknowledgement at known
  split at known
  · cases known
  · rename_i unasked
    split at known
    · rename_i job decision found handled
      obtain rfl := Option.some.inj known
      exact ⟨rfl, Bool.eq_false_iff.mpr unasked, job, decision, found, handled, rfl⟩
    · cases known

theorem gated_commands (s : State) (e : Commands.Event) (gated : Gated s) (gateable : Gateable inbox s (.commands e)) :
    Gated (step inbox s (.commands e)) := by
  simp only [step]
  split
  · rename_i callback request
    split
    · exact gated
    · rename_i still
      refine gated_quiet inbox gated ?_ (by intro _ _ _ h; cases h)
      rintro _ _ same
      cases same
      cases request with
      | automatic => exact (still rfl).elim
      | _ => rfl
  · exact gated
  · rename_i index
    split
    · exact gated
    · rename_i operation found
      refine gated_queue (gated_quiet inbox gated (by intro _ _ h; cases h) (by intro _ _ _ h; cases h)) ?_
      exact fun row new waiting => landed_passed inbox gated found new waiting
  · split
    · exact gated
    · exact gated_quiet inbox gated (by intro _ _ h; cases h) (by intro _ _ _ h; cases h)
  · rename_i callback objectId id
    split
    · exact gated
    · rename_i asking known
      obtain ⟨rfl, unasked, job, decision, found, handled, outcome⟩ := acknowledgement_some inbox known
      have opened := gated_opened gated unasked (gateable asking known)
      show Gated (State.apply inbox { s with askings := s.askings ++ [asking] } (.acknowledge asking.callback objectId id))
      refine gated_apply inbox opened _ fun operation present => ?_
      simp only [Commands.step, found, handled] at present
      rcases issue_operations present with old | ⟨callback, text⟩
      · exact opened.operations operation old
      · intro sent same
        obtain rfl : decisionReply job.command decision = sent := Option.some.inj (text.symm.trans same)
        exact ⟨asking, List.mem_append_right _ (List.mem_singleton_self _), callback.symm, outcome⟩
  · rename_i unissued _ _ _ unacknowledged
    exact gated_quiet inbox gated (fun callback request same => (unissued callback request same).elim) unacknowledged

theorem gated_step (s : State) (e : Event) (gated : Gated s) (gateable : Gateable inbox s e) : Gated (step inbox s e) := by
  cases e with
  | commands e => exact gated_commands inbox s e gated gateable
  | groups groups => exact { gated with }
  | ask callback chatKind authorizedJids evidence =>
    simp only [step]
    split
    · exact gated
    · rename_i asking opening
      have fresh := opening_some inbox opening
      have opened := gated_opened gated fresh.1 (by intro _ h; rw [fresh.2] at h; cases h)
      show Gated (State.apply inbox { s with askings := s.askings ++ [asking] } (.replies (.callModel callback)))
      exact gated_quiet inbox opened (by intro _ _ h; cases h) (by intro _ _ _ h; cases h)
  | shown index text =>
    simp only [step]
    split
    · exact gated
    · rename_i asking found
      split
      · rename_i running
        have running := Option.isNone_iff_eq_none.mp running
        exact gated_asking gated found running rfl (by intro _ h; exact absurd (running.symm.trans h) (by simp))
      · exact gated
  | tool index name input now =>
    simp only [step]
    split
    · exact gated
    · rename_i write wrote
      exact gated_called gated (writing_worded inbox wrote gateable)
  | call index action =>
    simp only [step]
    split
    · exact gated
    · rename_i call found
      split
      · exact gated_act inbox gated found action
      · exact gated
  | answer index text elapsedMs =>
    simp only [step]
    split
    · exact gated
    · rename_i asking found
      split
      · rename_i running
        refine gated_asking gated found (Option.isNone_iff_eq_none.mp running) (answer_callback asking text elapsedMs) ?_
        exact answer_accepted (Option.isNone_iff_eq_none.mp running)
      · exact gated
  | fail index isProtocol =>
    simp only [step]
    split
    · exact gated
    · rename_i asking found
      split
      · rename_i running
        have running := Option.isNone_iff_eq_none.mp running
        refine gated_asking gated found running ?_ ?_
        · unfold Asking.fail
          split <;> rfl
        · intro text outcome
          unfold Asking.fail at outcome
          split at outcome
          · cases outcome
          · exact absurd (running.symm.trans outcome) (by simp)
      · exact gated
  | send index memoryBatchIds memoryFactIds objectId id =>
    simp only [step]
    split
    · exact gated
    · rename_i asking found
      split
      · rename_i text outcome
        refine gated_apply inbox gated _ fun operation present => ?_
        simp only [Commands.step] at present
        split at present
        · exact gated.operations operation present
        · rcases issue_operations present with old | ⟨callback, sent⟩
          · exact gated.operations operation old
          · intro other same
            obtain rfl : text = other := Option.some.inj (sent.symm.trans same)
            exact ⟨asking, List.mem_of_getElem? found, callback.symm, outcome⟩
      · exact gated
  | review index objectId id =>
    simp only [step]
    split
    · exact gated
    · rename_i asking found
      split
      · refine gated_quiet inbox gated (fun _ _ same => ?_) fun _ _ _ same => ?_
        · cases same
          rfl
        · cases same
      · exact gated

omit [Runtime] [DateStrings] in
theorem start_gated (messages : List Ingest.MessageRow) (clock : Time) : Gated (start messages clock) where
  once := List.nodup_nil
  answers _ member := by cases member
  operations _ member := by cases member
  calls _ member := by cases member
  rows _ member := by cases member
  honest _ member := by cases member
  executors _ member := by cases member
  queued _ member := by cases member

end

/-! ### Text the gate refuses -/

theorem plain_accepted : @Ai.Accepted asciiNormalization [] "hello" := ⟨"hello", by decide +kernel⟩

end GroupButler.Replies.Generation
