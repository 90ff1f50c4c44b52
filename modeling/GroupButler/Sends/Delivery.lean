import GroupButler.Sends.Dispatch

/-!
# At most one delivery

A delivery is outstanding while its dispatcher works on it or its call may still reach WhatsApp. Its
row is then one that neither `claim` nor `approveSend` takes, so no second delivery starts. The one
gap is a connection that breaks under an applied call: its failure is recorded as retryable.
-/

namespace GroupButler.Sends
open Foundation Store Ingest

def Call.mayDeliver (call : Call) : Bool := call.appliable && call != .ended .broken

def Stage.busy : Stage → Bool
  | .working | .marking _ => true
  | _ => false

def Delivery.outstanding (delivery : Delivery) : Bool := delivery.stage.busy || delivery.call.mayDeliver

/-- No claim and no retry takes the row. -/
def SendRow.Holds (row : SendRow) : Prop :=
  row.status = .sending ∨ row.status = .sent ∨ (row.status = .failed ∧ row.dispatch.errorClass = some .ambiguous)

/-! ### One delivery -/

structure Delivery.Sound (delivery : Delivery) : Prop where
  applied : delivery.applied = true → delivery.call.mayDeliver = true
  outcome : ∀ outcome, delivery.stage = .marking outcome ∨ delivery.stage = .recorded outcome →
    delivery.call = .notMade ∨ ∃ ending, delivery.call = .ended ending ∧ outcome = sendText ending
  cancelled : delivery.call = .ended .cancelled → delivery.live = false
  recorded : ∀ outcome, delivery.stage = .recorded outcome → delivery.call ≠ .ended .cancelled

inductive Delivery.Acts (delivery : Delivery) : Action → Delivery → Prop
  | refused {readable bridged : Bool} {err : SendError} :
      delivery.stage = .working → delivery.call = .notMade →
      delivery.Acts (.prepare readable bridged) { delivery with stage := .marking (.error err) }
  | called {readable bridged : Bool} {send : OutboundSend} :
      delivery.stage = .working → delivery.call = .notMade →
      delivery.Acts (.prepare readable bridged) { delivery with call := .pending send }
  | applied : delivery.call.appliable = true → delivery.Acts .apply { delivery with applied := true }
  | answered {send : OutboundSend} {ending : CallEnd} :
      delivery.stage = .working → delivery.call = .pending send →
      (delivery.applied = true → ending.mayHaveApplied = true) → (ending = .cancelled → delivery.live = false) →
      delivery.Acts (.answer ending) { delivery with call := .ended ending, stage := .marking (sendText ending) }
  | cancelled : delivery.Acts .cancel { delivery with live := false }
  | abandoned {send : OutboundSend} :
      delivery.stage = .working → delivery.call = .pending send →
      delivery.Acts .stop { delivery with stage := .lost, call := .abandoned }
  | left : delivery.stage.busy = true → delivery.Acts .stop { delivery with stage := .lost }

theorem act_cases {messages : List MessageRow} {action : Action} {delivery next : Delivery}
    (h : delivery.act messages action = some next) : delivery.Acts action next := by
  obtain ⟨request, workerId, call, stage, live, applied⟩ := delivery
  unfold Delivery.act at h
  split at h
  · rename_i working notMade
    split at h
    · cases h
      exact .refused working notMade
    · split at h
      · cases h
        exact .called working notMade
      · cases h
        exact .refused working notMade
  · split at h
    · cases h
    · rename_i admitted
      cases h
      simp only [Bool.or_eq_true, Bool.not_eq_true', not_or, Bool.not_eq_false] at admitted
      exact .applied admitted.2
  · rename_i working pending
    split at h
    · cases h
    · rename_i admitted
      cases h
      simp only [Bool.or_eq_true, Bool.and_eq_true, Bool.not_eq_true', beq_iff_eq, not_or, not_and,
        Bool.not_eq_false] at admitted
      refine .answered working pending admitted.1 ?_
      intro cancelled
      exact Bool.eq_false_iff.mpr fun live => admitted.2 live cancelled
  · cases h
    exact .cancelled
  · rename_i working
    cases h
    cases call with
    | pending send => exact .abandoned working rfl
    | _ => exact .left (by rw [working]; rfl)
  · rename_i marking
    cases h
    exact .left (by rw [marking]; rfl)
  · cases h

theorem act_request {messages : List MessageRow} {action : Action} {delivery next : Delivery}
    (h : delivery.act messages action = some next) : next.request = delivery.request := by
  cases act_cases h <;> rfl

theorem act_outstanding {messages : List MessageRow} {action : Action} {delivery next : Delivery}
    (h : delivery.act messages action = some next) (outstanding : next.outstanding = true) :
    delivery.outstanding = true := by
  have working : delivery.stage.busy = true → delivery.outstanding = true := by
    intro busy
    simp [Delivery.outstanding, busy]
  cases act_cases h with
  | refused stage _ | called stage _ | answered stage _ _ _ | abandoned stage _ =>
    exact working (by rw [stage]; rfl)
  | left busy => exact working busy
  | applied _ | cancelled => exact outstanding

/-- The condition on one delivery. -/
def Delivery.Unbroken (delivery : Delivery) : Action → Prop
  | .apply => delivery.call ≠ .ended .broken
  | .answer ending => ending = .broken → delivery.applied = false
  | _ => True

instance (delivery : Delivery) : (action : Action) → Decidable (delivery.Unbroken action)
  | .apply => inferInstanceAs (Decidable (delivery.call ≠ .ended .broken))
  | .answer ending => inferInstanceAs (Decidable (ending = .broken → delivery.applied = false))
  | .prepare _ _ | .cancel | .stop => .isTrue trivial

theorem act_sound {messages : List MessageRow} {action : Action} {delivery next : Delivery}
    (h : delivery.act messages action = some next) (unbroken : delivery.Unbroken action) (sound : delivery.Sound) :
    next.Sound := by
  obtain ⟨applied, outcome, cancelled, recorded⟩ := sound
  cases act_cases h with
  | refused stage call =>
    refine ⟨applied, fun _ _ => Or.inl call, cancelled, ?_⟩
    intro _ h
    cases h
  | called stage call =>
    refine ⟨fun _ => rfl, ?_, ?_, ?_⟩
    · intro outcome ended
      rw [stage] at ended
      rcases ended with ended | ended <;> cases ended
    · intro h
      cases h
    · intro _ _
      simp
  | applied may =>
    refine ⟨fun _ => ?_, outcome, cancelled, recorded⟩
    simpa [Call.mayDeliver, may] using show delivery.call ≠ .ended .broken from unbroken
  | @answered send ending stage call reached done =>
    refine ⟨?_, ?_, ?_, ?_⟩
    · intro before
      have different : ending ≠ .broken := by
        intro broken
        have after := unbroken broken
        rw [show delivery.applied = true from before] at after
        cases after
      simpa [Call.mayDeliver, Call.appliable, reached before] using different
    · rintro _ (ended | ended)
      · cases ended
        exact Or.inr ⟨ending, rfl, rfl⟩
      · cases ended
    · intro same
      exact done (by simpa using same)
    · intro _ h
      cases h
  | cancelled => exact ⟨applied, outcome, fun _ => rfl, recorded⟩
  | abandoned stage call =>
    refine ⟨fun _ => rfl, ?_, ?_, ?_⟩
    · rintro _ (ended | ended) <;> cases ended
    · intro h
      cases h
    · intro _ h
      cases h
  | left busy =>
    refine ⟨applied, ?_, cancelled, ?_⟩
    · rintro _ (ended | ended) <;> cases ended
    · intro _ h
      cases h

/-- A recorded outcome leaves its delivery outstanding only where the row forbids a retry. -/
theorem recorded_rejected {delivery : Delivery} {err : SendError} (sound : delivery.Sound)
    (recorded : delivery.stage = .recorded (.error err)) (rejected : classifySendFailure err = .rejected) :
    delivery.call.mayDeliver = false := by
  rcases sound.outcome _ (Or.inr recorded) with notMade | ⟨ending, ended, failed⟩
  · rw [notMade]
    rfl
  · have whole : ending.mayHaveApplied = true → ending = .broken ∨ ending = .cancelled :=
      fun may => (rejected_iff ending).mp ⟨err, failed.symm, rejected, may⟩
    have live : ending ≠ .cancelled := fun cancelled => sound.recorded _ recorded (cancelled ▸ ended)
    rw [ended]
    cases may : ending.mayHaveApplied with
    | false => simp [Call.mayDeliver, Call.appliable, may]
    | true =>
      rcases whole may with broken | cancelled
      · simp [Call.mayDeliver, broken]
      · exact (live cancelled).elim

/-! ### All deliveries -/

/-- No outstanding delivery is for this row unless the row is held for it. -/
def Held (deliveries : List Delivery) (row : SendRow) : Prop :=
  ∀ delivery ∈ deliveries, delivery.outstanding = true → row.name = delivery.request.name → row.Holds

structure Safe (requests : List SendRow) (deliveries : List Delivery) : Prop where
  unique : (requests.map SendRow.name).Nodup
  sound : ∀ delivery ∈ deliveries, delivery.Sound
  known : ∀ delivery ∈ deliveries, delivery.request.name ∈ requests.map SendRow.name
  held : ∀ row ∈ requests, Held deliveries row
  apart : deliveries.Pairwise fun first second =>
    first.request.name = second.request.name → ¬ (first.outstanding = true ∧ second.outstanding = true)

variable {requests : List SendRow} {deliveries : List Delivery}

theorem held_of_free {row changed : SendRow} (free : ¬ row.Holds) (name : changed.name = row.name)
    (held : Held deliveries row) : Held deliveries changed := by
  intro delivery member outstanding same
  exact (free (held delivery member outstanding (name.symm.trans same))).elim

theorem safe_insert {row : SendRow} (safe : Safe requests deliveries)
    (unused : ∀ other ∈ requests, other.id ≠ row.id) : Safe (requests ++ [row]) deliveries := by
  have fresh : row.name ∉ requests.map SendRow.name := by
    intro taken
    obtain ⟨other, member, same⟩ := List.mem_map.mp taken
    exact unused other member (congrArg Prod.snd same)
  refine ⟨?_, safe.sound, ?_, ?_, safe.apart⟩
  · rw [List.map_append, List.nodup_append]
    refine ⟨safe.unique, by simp, ?_⟩
    intro name old _ new same
    obtain rfl : _ = row.name := by simpa using new
    exact fresh (same ▸ old)
  · intro delivery member
    rw [List.map_append]
    exact List.mem_append_left _ (safe.known delivery member)
  · intro other member
    rcases List.mem_append.mp member with old | new
    · exact safe.held other old
    · obtain rfl := List.mem_singleton.mp new
      intro delivery present _ same
      exact (fresh (same ▸ safe.known delivery present)).elim

/-- A write to rows that no delivery holds. -/
theorem safe_update {filter : SendRow → Bool} {change : SendRow → SendRow} (safe : Safe requests deliveries)
    (name : ∀ row, (change row).name = row.name) (free : ∀ row, filter row = true → ¬ row.Holds) :
    Safe (updateOne filter change requests) deliveries := by
  have names : (updateOne filter change requests).map SendRow.name = requests.map SendRow.name :=
    map_updateOne fun row _ _ => name row
  refine ⟨names ▸ safe.unique, safe.sound, ?_, ?_, safe.apart⟩
  · intro delivery member
    rw [names]
    exact safe.known delivery member
  · exact forall_mem_updateOne safe.held fun row _ matched held => held_of_free (free row matched) (name row) held

theorem safe_claim {filter : SendRow → Bool} {change : SendRow → SendRow} {k : String × String} {row : SendRow}
    {delivery : Delivery} (safe : Safe requests deliveries) (member : row ∈ requests) (matched : filter row = true)
    (taken : ∀ row, filter row = true → row.name = k ∧ ¬ row.Holds)
    (kept : ∀ row, (change row).name = row.name ∧ (change row).Holds)
    (request : delivery.request = change row) (sound : delivery.Sound) :
    Safe (updateOne filter change requests) (deliveries ++ [delivery]) := by
  have names : (updateOne filter change requests).map SendRow.name = requests.map SendRow.name :=
    map_updateOne fun row _ _ => (kept row).1
  have requested : delivery.request.name = row.name := by rw [request, (kept row).1]
  refine ⟨names ▸ safe.unique, ?_, ?_, ?_, ?_⟩
  · intro other present
    rcases List.mem_append.mp present with old | new
    · exact safe.sound other old
    · exact List.mem_singleton.mp new ▸ sound
  · intro other present
    rw [names]
    rcases List.mem_append.mp present with old | new
    · exact safe.known other old
    · rw [List.mem_singleton.mp new, requested]
      exact List.mem_map_of_mem member
  · intro changed present
    rw [updateOne_eq_updateMany (k := k) safe.unique fun row _ matched => (taken row matched).1] at present
    obtain ⟨old, stored, rfl⟩ := mem_updateMany.mp present
    intro other listed outstanding same
    split
    · exact (kept old).2
    · rename_i unmatched
      rw [if_neg unmatched] at same
      rcases List.mem_append.mp listed with earlier | new
      · exact safe.held old stored other earlier outstanding same
      · rw [List.mem_singleton.mp new, requested] at same
        exact (unmatched (List.inj_on_of_nodup_map safe.unique stored member same ▸ matched)).elim
  · refine List.pairwise_append.mpr ⟨safe.apart, List.pairwise_singleton _ _, ?_⟩
    intro other listed new isNew same ⟨outstanding, _⟩
    rw [List.mem_singleton.mp isNew, requested] at same
    exact (taken row matched).2 (safe.held row member other listed outstanding same.symm)

theorem safe_set {index : Nat} {delivery next : Delivery} (safe : Safe requests deliveries)
    (found : deliveries[index]? = some delivery) (request : next.request = delivery.request) (sound : next.Sound)
    (outstanding : next.outstanding = true → delivery.outstanding = true) :
    Safe requests (deliveries.set index next) := by
  have member : delivery ∈ deliveries := List.mem_of_getElem? found
  refine ⟨safe.unique, ?_, ?_, ?_, ?_⟩
  · intro other present
    rcases List.mem_or_eq_of_mem_set present with old | rfl
    · exact safe.sound other old
    · exact sound
  · intro other present
    rcases List.mem_or_eq_of_mem_set present with old | rfl
    · exact safe.known other old
    · exact request ▸ safe.known delivery member
  · intro row stored other present busy same
    rcases List.mem_or_eq_of_mem_set present with old | rfl
    · exact safe.held row stored other old busy same
    · exact safe.held row stored delivery member (outstanding busy) (request ▸ same)
  · refine pairwise_set safe.apart found ?_ ?_
    · intro other _ apart same both
      exact apart (request ▸ same) ⟨both.1, outstanding both.2⟩
    · intro other _ apart same both
      exact apart (request ▸ same) ⟨outstanding both.1, both.2⟩

theorem marked_name (outcome : Except SendError String) (now : Time) (row : SendRow) :
    (row.marked outcome now).name = row.name := by
  cases outcome <;> rfl

theorem marked_holds {outcome : Except SendError String} {now : Time} {row : SendRow}
    (kept : ∀ err, outcome = .error err → classifySendFailure err ≠ .rejected) : (row.marked outcome now).Holds := by
  cases outcome with
  | ok messageId => exact Or.inr (Or.inl rfl)
  | error err =>
    refine Or.inr (Or.inr ⟨rfl, congrArg some ?_⟩)
    cases class_ : classifySendFailure err with
    | ambiguous => rfl
    | rejected => exact (kept err rfl class_).elim

theorem safe_mark {index : Nat} {delivery : Delivery} {outcome : Except SendError String} {now : Time}
    (safe : Safe requests deliveries) (found : deliveries[index]? = some delivery)
    (marking : delivery.stage = .marking outcome) (live : delivery.live = true) :
    Safe (updateOne (SendRow.heldFor delivery) (SendRow.marked outcome now) requests)
      (deliveries.set index { delivery with stage := .recorded outcome }) := by
  have busy : delivery.outstanding = true := by
    simp [Delivery.outstanding, Stage.busy, marking]
  have sound := safe.sound delivery (List.mem_of_getElem? found)
  have recorded : Delivery.Sound { delivery with stage := .recorded outcome } := by
    refine ⟨sound.applied, ?_, sound.cancelled, ?_⟩
    · rintro _ (ended | ended)
      · cases ended
      · cases ended
        exact sound.outcome outcome (Or.inl marking)
    · intro _ _ ended
      have done := sound.cancelled ended
      rw [live] at done
      cases done
  have settled : Safe requests (deliveries.set index { delivery with stage := .recorded outcome }) :=
    safe_set safe found rfl recorded fun _ => busy
  have names : (updateOne (SendRow.heldFor delivery) (SendRow.marked outcome now) requests).map SendRow.name =
      requests.map SendRow.name := map_updateOne fun row _ _ => marked_name outcome now row
  refine ⟨names ▸ settled.unique, settled.sound, ?_, ?_, settled.apart⟩
  · rw [names]
    exact settled.known
  · refine forall_mem_updateOne settled.held ?_
    intro row _ matched _ other present outstanding same
    have name : row.name = delivery.request.name := by
      simp only [SendRow.heldFor, Bool.and_eq_true] at matched
      exact named_iff.mp matched.1.1
    rw [marked_name, name] at same
    rcases mem_set_of_pairwise safe.apart found present with rfl | apart | apart
    · refine marked_holds fun err failed rejected => ?_
      subst failed
      have closed := recorded_rejected recorded rfl rejected
      simp [Delivery.outstanding, Stage.busy, show delivery.call.mayDeliver = false from closed] at outstanding
    · exact (apart same.symm ⟨outstanding, busy⟩).elim
    · exact (apart same ⟨busy, outstanding⟩).elim

/-! ### Runs -/

/-- The bridge applies no call whose connection breaks once it is open. -/
def Unbroken (s : State) : Event → Prop
  | .delivery index action => ∀ delivery ∈ s.deliveries[index]?, delivery.Unbroken action
  | _ => True

instance (s : State) : (e : Event) → Decidable (Unbroken s e)
  | .delivery index action => inferInstanceAs (Decidable (∀ delivery ∈ s.deliveries[index]?, delivery.Unbroken action))
  | .create .. | .reply .. | .save .. | .readApproval .. | .approve .. | .transition .. | .claim .. | .mark .. =>
    .isTrue trivial

theorem claimable_free {orgID : String} {maxAttempts : Nat} {now : Time} {row : SendRow}
    (due : claimable orgID maxAttempts now row = true) : ¬ row.Holds := by
  simp only [claimable, Bool.and_eq_true, Bool.or_eq_true, beq_iff_eq] at due
  obtain ⟨⟨⟨_, waiting⟩, _⟩, _⟩ := due
  intro holds
  rcases waiting with status | status <;> simp [SendRow.Holds, status] at holds

theorem approvable_free {initialApproval : Bool} {row : SendRow} (open_ : approvable initialApproval row = true) :
    ¬ row.Holds := by
  intro holds
  cases initialApproval with
  | true =>
    simp only [approvable, if_true, Bool.and_eq_true, beq_iff_eq] at open_
    simp [SendRow.Holds, open_.1] at holds
  | false =>
    simp only [approvable, Bool.false_eq_true, if_false, Bool.and_eq_true, beq_iff_eq, bne_iff_ne] at open_
    simp [SendRow.Holds, open_.1, open_.2] at holds

theorem allowed_free {action : SendAction} {row : SendRow} (open_ : action.allowed row = true) : ¬ row.Holds := by
  intro holds
  cases action with
  | reject =>
    have status : row.status = .pendingApproval := beq_iff_eq.mp open_
    simp [SendRow.Holds, status] at holds
  | cancel =>
    have status : row.status = .approved ∨ row.status = .scheduled := by
      simpa [SendAction.allowed] using open_
    rcases status with status | status <;> simp [SendRow.Holds, status] at holds

theorem createSend_safe {db : SendDb} {objectId : Nat} {id : String} {input : CreateSendInput} {now : Time}
    (safe : Safe db.requests deliveries) (unused : unusedId db objectId id = true) :
    Safe (createSend db objectId id input now).requests deliveries := by
  unfold createSend
  split
  · exact safe
  · apply safe_insert safe
    intro other member
    have differs := List.all_eq_true.mp unused other member
    simp only [Bool.and_eq_true, bne_iff_ne] at differs
    exact differs.2

theorem insertReplySend_safe {db next : SendDb} {objectId : Nat} {id : String} {target : ReplyTarget}
    {draft : ReplyDraft} {now : Time} (safe : Safe db.requests deliveries) (unused : unusedId db objectId id = true)
    (inserted : insertReplySend db objectId id target draft now = some next) : Safe next.requests deliveries := by
  unfold insertReplySend at inserted
  split at inserted
  · cases inserted
  · cases inserted
    apply safe_insert safe
    intro other member
    have differs := List.all_eq_true.mp unused other member
    simp only [Bool.and_eq_true, bne_iff_ne] at differs
    exact differs.2

theorem approveSend_safe {db : SendDb} (organizationId id : String) (initialApproval : Bool)
    (scheduledFor : Option Time) (actorIP : String) (now : Time) (safe : Safe db.requests deliveries) :
    Safe (approveSend db organizationId id initialApproval scheduledFor actorIP now).requests deliveries := by
  unfold approveSend
  dsimp only
  split
  · apply safe_update safe
    · exact fun _ => rfl
    · intro row matched
      exact approvable_free (Bool.and_eq_true_iff.mp matched).2
  · exact safe

theorem transitionSend_safe {db : SendDb} (organizationId id : String) (action : SendAction) (actorIP : String)
    (actor : Actor) (now : Time) (safe : Safe db.requests deliveries) :
    Safe (transitionSend db organizationId id action actorIP actor now).1.requests deliveries := by
  unfold transitionSend
  dsimp only
  split
  · apply safe_update safe
    · intro row
      cases action <;> rfl
    · intro row matched
      exact allowed_free (Bool.and_eq_true_iff.mp matched).2
  · exact safe

theorem claim_safe {s : State} (workerId orgID : String) (maxAttempts : Nat) (now : Time) (id : String)
    (safe : Safe s.db.requests s.deliveries) :
    Safe (claim s workerId orgID maxAttempts now id).db.requests (claim s workerId orgID maxAttempts now id).deliveries := by
  unfold claim
  dsimp only
  split
  · exact safe
  · rename_i row found
    refine safe_claim (k := (orgID, id)) safe (List.mem_of_find?_eq_some found)
      (by simpa using List.find?_some found) ?_ ?_ rfl ?_
    · intro other matched
      obtain ⟨named, due⟩ := Bool.and_eq_true_iff.mp matched
      exact ⟨named_iff.mp named, claimable_free (Bool.and_eq_true_iff.mp due).1⟩
    · exact fun _ => ⟨rfl, Or.inl rfl⟩
    · refine ⟨?_, fun _ _ => Or.inl rfl, ?_, ?_⟩
      · intro h
        cases h
      · intro h
        cases h
      · intro _ h
        cases h

theorem step_safe (s : State) (e : Event) (safe : Safe s.db.requests s.deliveries) (unbroken : Unbroken s e) :
    Safe (step s e).db.requests (step s e).deliveries := by
  cases e with
  | create objectId id input now =>
    unfold step
    dsimp only
    split
    · rename_i unused
      exact createSend_safe safe unused
    · exact safe
  | reply objectId id target draft now =>
    unfold step
    dsimp only
    split
    · rename_i unused
      split
      · exact safe
      · rename_i inserted
        exact insertReplySend_safe safe unused inserted
    · exact safe
  | save doc => exact safe
  | readApproval organizationId id =>
    unfold step
    dsimp only
    split <;> exact safe
  | approve organizationId id initialApproval scheduledFor actorIP now =>
    unfold step
    dsimp only
    split
    · exact approveSend_safe organizationId id initialApproval scheduledFor actorIP now safe
    · exact safe
  | transition organizationId id action actorIP actor now =>
    exact transitionSend_safe organizationId id action actorIP actor now safe
  | claim workerId orgID maxAttempts now id => exact claim_safe workerId orgID maxAttempts now id safe
  | delivery index action =>
    unfold step
    dsimp only
    split
    · exact safe
    · rename_i next acted
      obtain ⟨delivery, found, acted⟩ := Option.bind_eq_some_iff.mp acted
      refine safe_set safe found (act_request acted) ?_ (act_outstanding acted)
      exact act_sound acted (unbroken delivery found) (safe.sound delivery (List.mem_of_getElem? found))
  | mark index now =>
    unfold step
    dsimp only
    split
    · exact safe
    · rename_i delivery found
      split
      · rename_i outcome marking
        unfold mark
        split
        · rename_i live
          exact safe_mark safe found marking live
        · refine safe_set safe found rfl ?_ ?_
          · obtain ⟨applied, _, cancelled, _⟩ := safe.sound delivery (List.mem_of_getElem? found)
            refine ⟨applied, ?_, cancelled, ?_⟩
            · rintro _ (ended | ended) <;> cases ended
            · intro _ h
              cases h
          · intro _
            simp [Delivery.outstanding, Stage.busy, marking]
      · exact safe

/-- A request reaches WhatsApp at most once, and none does whose failure is recorded as retryable. -/
theorem applied_at_most_once (messages : List MessageRow) {events : List Event}
    (unbroken : Along step Unbroken (start messages) events) :
    (∀ organizationId id, (applications (run step (start messages) events) organizationId id).length ≤ 1) ∧
    ∀ delivery ∈ (run step (start messages) events).deliveries, ∀ err,
      delivery.stage = .recorded (.error err) → classifySendFailure err = .rejected → delivery.applied = false := by
  have empty : Safe (start messages).db.requests (start messages).deliveries :=
    ⟨List.nodup_nil, by simp [start], by simp [start], by simp [start], List.Pairwise.nil⟩
  have safe : Safe (run step (start messages) events).db.requests (run step (start messages) events).deliveries :=
    run_invariant_along (I := fun s => Safe s.db.requests s.deliveries) step_safe empty unbroken
  have reached : ∀ delivery ∈ (run step (start messages) events).deliveries, delivery.applied = true →
      delivery.call.mayDeliver = true := fun delivery member => (safe.sound delivery member).applied
  refine ⟨fun organizationId id => length_filter_le_one ?_, ?_⟩
  · refine safe.apart.imp_of_mem fun {first second} firstMember secondMember apart both => ?_
    simp only [Bool.and_eq_true, named_iff] at both
    obtain ⟨⟨firstName, firstApplied⟩, secondName, secondApplied⟩ := both
    refine apart (firstName.trans secondName.symm) ⟨?_, ?_⟩
    · simp [Delivery.outstanding, reached first firstMember firstApplied]
    · simp [Delivery.outstanding, reached second secondMember secondApplied]
  · intro delivery member err recorded rejected
    have closed := recorded_rejected (safe.sound delivery member) recorded rejected
    refine Bool.eq_false_iff.mpr fun applied => ?_
    rw [reached delivery member applied] at closed
    cases closed

/-! ### A lost answer -/

def plainSend : CreateSendInput := ⟨"o", "i", "1@g.us", "hello", "key", "::1", none⟩

/-- The owner approves one send, and retries it when its first call has ended. -/
def retried (firstCall secondCall : List Event) : List Event :=
  [.create 1 "s" plainSend 1000, .readApproval "o" "s", .approve "o" "s" true none "::1" 2000,
    .claim "w" "o" 3 3000 "s", .delivery 0 (.prepare true true)] ++ firstCall ++
  [.mark 0 4000, .readApproval "o" "s", .approve "o" "s" false none "::1" 5000,
    .claim "w" "o" 3 6000 "s", .delivery 1 (.prepare true true)] ++ secondCall

theorem applied_twice :
    let s := run step (start []) (retried [.delivery 0 .apply, .delivery 0 (.answer .broken)] [.delivery 1 .apply])
    (applications s "o" "s").length = 2 ∧
      ∃ delivery ∈ s.deliveries, ∃ err, delivery.stage = .recorded (.error err) ∧
        classifySendFailure err = .rejected ∧ delivery.applied = true := by
  intro s
  have twice : (applications s "o" "s").length = 2 := by decide
  exact ⟨twice, _, List.mem_cons_self, .bridgeUnreachable, rfl, rfl, rfl⟩

/-- The same two calls, the first to a bridge that is not there. -/
theorem applied_once_refused :
    (∀ organizationId id, (applications (run step (start []) (retried [.delivery 0 (.answer .refused)]
      [.delivery 1 .apply, .delivery 1 (.answer (.answered 200 (.messageId "wa"))), .mark 1 7000]))
        organizationId id).length ≤ 1) ∧
    ∀ delivery ∈ (run step (start []) (retried [.delivery 0 (.answer .refused)]
      [.delivery 1 .apply, .delivery 1 (.answer (.answered 200 (.messageId "wa"))), .mark 1 7000])).deliveries, ∀ err,
      delivery.stage = .recorded (.error err) → classifySendFailure err = .rejected → delivery.applied = false := by
  exact applied_at_most_once [] (by decide)

end GroupButler.Sends
