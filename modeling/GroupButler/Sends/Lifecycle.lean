import GroupButler.Sends.Delivery

/-!
# The life of one send request

Seen from one request, every step of the system is a turn: it leaves the request alone, or moves it
along one edge of its life with the audit rows and the claim that belong to the edge.
-/

namespace GroupButler.Sends
open Foundation Store Ingest

def aboutSend (organizationId id : String) (entry : AuditEntry) : Bool :=
  entry.organizationId == organizationId && entry.target == ⟨.send, id⟩

def audits (db : SendDb) (organizationId id : String) : List AuditEntry :=
  db.auditLog.filter (aboutSend organizationId id)

/-- The claims of a request so far. -/
def claims (s : State) (organizationId id : String) : Nat :=
  s.deliveries.countP fun delivery => delivery.request.named organizationId id

/-- Approved and not yet claimed or cancelled. -/
def SendRow.waiting (row : SendRow) : Bool := row.status == .approved || row.status == .scheduled

inductive Party where
  | bff | worker
  deriving DecidableEq, Repr

def Event.party : Event → Party
  | .create .. | .reply .. | .readApproval .. | .approve .. | .transition .. => .bff
  | .save _ | .claim .. | .delivery .. | .mark .. => .worker

inductive Turn (organizationId id : String) : Event → Option SendRow → Option SendRow → List AuditEntry → Nat → Prop
  | rests (e : Event) (row : Option SendRow) : Turn organizationId id e row row [] 0
  | created {objectId : Nat} {input : CreateSendInput} {now : Time} : input.organizationId = organizationId →
      Turn organizationId id (.create objectId id input now) none (some (candidateSend objectId id input now))
        [sendAudit organizationId ((input.decision.map SendDecision.decidedBy).getD .owner) .sendCreated id
          (.sendCreated input.instanceId input.groupJid (input.decision.map fun decision =>
            ((candidateSend objectId id input now).scheduledFor, decision.decidedBy))) input.actorIP] 0
  | replied {objectId : Nat} {target : ReplyTarget} {draft : ReplyDraft} {now : Time} :
      target.organizationId = organizationId →
      Turn organizationId id (.reply objectId id target draft now) none (some (replySend objectId id target draft now))
        [replyAudit id target draft] 0
  | approved {row : SendRow} {initialApproval : Bool} {scheduledFor : Option Time} {actorIP : String} {now : Time} :
      approvable initialApproval row = true →
      Turn organizationId id (.approve organizationId id initialApproval scheduledFor actorIP now) (some row)
        (some (row.approve initialApproval (scheduledFor.getD now) now))
        [sendAudit organizationId .owner .sendApproved id (.sendApproved (scheduledFor.getD now)) actorIP] 0
  | transitioned {row : SendRow} {action : SendAction} {actorIP : String} {actor : Actor} {now : Time} :
      action.allowed row = true →
      Turn organizationId id (.transition organizationId id action actorIP actor now) (some row)
        (some (row.transition action now))
        [sendAudit organizationId actor (match action with | .reject => .sendRejected | .cancel => .sendCancelled) id
          .empty actorIP] 0
  | claimed {row : SendRow} {workerId : String} {maxAttempts : Nat} {now : Time} :
      claimable organizationId maxAttempts now row = true →
      Turn organizationId id (.claim workerId organizationId maxAttempts now id) (some row)
        (some (row.claimed workerId now)) [] 1
  | marked {row : SendRow} {outcome : Except SendError String} {index : Nat} {now : Time} :
      row.status = .sending → (∀ messageId, outcome = .ok messageId → goTrimSpace messageId ≠ "") →
      Turn organizationId id (.mark index now) (some row) (some (row.marked outcome now)) [] 0

/-- What the turns rely on: requests have different names, and a delivery that went through has an id. -/
structure Kept (s : State) : Prop where
  unique : (s.db.requests.map SendRow.name).Nodup
  identified : ∀ delivery ∈ s.deliveries, ∀ messageId, delivery.stage = .marking (.ok messageId) →
    goTrimSpace messageId ≠ ""

theorem sendText_ok {ending : CallEnd} {messageId : String} (sent : sendText ending = .ok messageId) :
    goTrimSpace messageId ≠ "" := by
  cases ending with
  | deadline | refused | broken | cancelled => cases sent
  | answered status body =>
    unfold sendText at sent
    dsimp only at sent
    split at sent
    · cases sent
    · split at sent
      · cases sent
      · split at sent
        · cases sent
        · split at sent
          · split at sent
            · cases sent
            · rename_i named
              cases sent
              exact named
          · cases sent

theorem act_identified {messages : List MessageRow} {action : Action} {delivery next : Delivery}
    (acted : delivery.act messages action = some next)
    (identified : ∀ messageId, delivery.stage = .marking (.ok messageId) → goTrimSpace messageId ≠ "") :
    ∀ messageId, next.stage = .marking (.ok messageId) → goTrimSpace messageId ≠ "" := by
  intro messageId marking
  cases act_cases acted with
  | refused _ _ | abandoned _ _ | left _ => cases marking
  | called _ _ | applied _ | cancelled => exact identified messageId marking
  | answered _ _ _ _ =>
    have sent : sendText _ = .ok messageId := Stage.marking.inj marking
    exact sendText_ok sent

/-! ### One request in the collection -/

theorem getSend_of_mem {db : SendDb} {row : SendRow} (unique : (db.requests.map SendRow.name).Nodup)
    (member : row ∈ db.requests) : getSend db row.organizationId row.id = some row := by
  have alone := filter_unique unique member
  show db.requests.find? (fun other => other.name == row.name) = some row
  rw [← List.head?_filter, alone]
  rfl

theorem mem_of_getSend {db : SendDb} {organizationId id : String} {row : SendRow}
    (found : getSend db organizationId id = some row) : row ∈ db.requests ∧ row.name = (organizationId, id) :=
  ⟨List.mem_of_find?_eq_some found, named_iff.mp (List.find?_some found)⟩

theorem getSend_updateOne {db : SendDb} {log : List AuditEntry} {filter : SendRow → Bool}
    {change : SendRow → SendRow} {k : String × String} (unique : (db.requests.map SendRow.name).Nodup)
    (names : ∀ row, filter row = true → row.name = k) (keep : ∀ row, (change row).name = row.name)
    (organizationId id : String) :
    getSend ⟨updateOne filter change db.requests, log⟩ organizationId id =
      (getSend db organizationId id).map fun row => if filter row then change row else row := by
  apply find?_updateOne unique fun row _ matched => names row matched
  intro row _
  show ((change row).name == (organizationId, id)) = (row.name == (organizationId, id))
  rw [keep row]

/-- What a step does to one request, the audit rows about it and the claims of it. -/
def Turns (e : Event) (s t : State) (organizationId id : String) : Prop :=
  ∃ entries count,
    Turn organizationId id e (getSend s.db organizationId id) (getSend t.db organizationId id) entries count ∧
    audits t.db organizationId id = audits s.db organizationId id ++ entries ∧
    claims t organizationId id = claims s organizationId id + count

theorem turns_rest {e : Event} {s t : State} (db : t.db = s.db)
    (same : ∀ organizationId id, claims t organizationId id = claims s organizationId id) (organizationId id : String) :
    Turns e s t organizationId id := by
  refine ⟨[], 0, ?_, ?_, same organizationId id⟩
  · rw [db]
    exact .rests e _
  · rw [db, List.append_nil]

/-- A write to the one request its filter names. -/
theorem turns_write {e : Event} {s t : State} (owner target : String) (filter : SendRow → Bool) (change : SendRow → SendRow)
    (entries : List AuditEntry) (count : Nat) (kept : Kept s) (matched : ∃ row ∈ s.db.requests, filter row = true)
    (names : ∀ row, filter row = true → row.name = (owner, target)) (keep : ∀ row, (change row).name = row.name)
    (db : t.db = ⟨updateOne filter change s.db.requests, s.db.auditLog ++ entries⟩)
    (about : ∀ entry ∈ entries, entry.organizationId = owner ∧ entry.target = ⟨.send, target⟩)
    (claimed : ∀ organizationId id,
      claims t organizationId id = claims s organizationId id + if (owner, target) = (organizationId, id) then count else 0)
    (turn : ∀ row, filter row = true → Turn owner target e (some row) (some (change row)) entries count)
    (organizationId id : String) : Turns e s t organizationId id := by
  have after : getSend t.db organizationId id =
      (getSend s.db organizationId id).map fun row => if filter row then change row else row := by
    rw [db]
    exact getSend_updateOne kept.unique names keep organizationId id
  have log : audits t.db organizationId id = audits s.db organizationId id ++
      entries.filter (aboutSend organizationId id) := by
    rw [db]
    exact List.filter_append _ _
  by_cases same : (owner, target) = (organizationId, id)
  · obtain ⟨rfl, rfl⟩ := Prod.mk.inj same
    obtain ⟨row, member, hit⟩ := matched
    obtain ⟨organization, identifier⟩ := Prod.mk.inj (names row hit)
    have found : getSend s.db owner target = some row := by
      rw [← organization, ← identifier]
      exact getSend_of_mem kept.unique member
    refine ⟨entries, count, ?_, ?_, ?_⟩
    · rw [after, found]
      simpa [hit] using turn row hit
    · rw [log, List.filter_eq_self.mpr]
      intro entry listed
      obtain ⟨scope, subject⟩ := about entry listed
      simp [aboutSend, scope, subject]
    · rw [claimed, if_pos rfl]
  · refine ⟨[], 0, ?_, ?_, ?_⟩
    · have idle : getSend t.db organizationId id = getSend s.db organizationId id := by
        rw [after]
        cases found : getSend s.db organizationId id with
        | none => rfl
        | some row =>
          have other : filter row = false :=
            Bool.eq_false_iff.mpr fun hit => same ((names row hit).symm.trans (mem_of_getSend found).2)
          simp [other]
      rw [idle]
      exact .rests e _
    · rw [log, List.filter_eq_nil_iff.mpr]
      intro entry listed hit
      obtain ⟨scope, subject⟩ := about entry listed
      simp only [aboutSend, scope, subject, Bool.and_eq_true, beq_iff_eq, AuditTarget.mk.injEq, true_and] at hit
      exact same (Prod.ext hit.1 hit.2)
    · rw [claimed, if_neg same]

theorem turns_insert {e : Event} {s t : State} (row : SendRow) (entry : AuditEntry)
    (unused : ∀ other ∈ s.db.requests, other.id ≠ row.id)
    (db : t.db = ⟨s.db.requests ++ [row], s.db.auditLog ++ [entry]⟩)
    (about : entry.organizationId = row.organizationId ∧ entry.target = ⟨.send, row.id⟩)
    (same : ∀ organizationId id, claims t organizationId id = claims s organizationId id)
    (turn : Turn row.organizationId row.id e none (some row) [entry] 0) (organizationId id : String) :
    Turns e s t organizationId id := by
  have after : getSend t.db organizationId id = (getSend s.db organizationId id).or ([row].find? (SendRow.named organizationId id)) := by
    rw [db]
    exact List.find?_append
  have log : audits t.db organizationId id = audits s.db organizationId id ++
      [entry].filter (aboutSend organizationId id) := by
    rw [db]
    exact List.filter_append _ _
  by_cases named : row.named organizationId id = true
  · obtain ⟨rfl, rfl⟩ := Prod.mk.inj (named_iff.mp named)
    have fresh : getSend s.db row.organizationId row.id = none := by
      refine List.find?_eq_none.mpr fun other member hit => ?_
      exact unused other member (congrArg Prod.snd (named_iff.mp hit))
    refine ⟨[entry], 0, ?_, ?_, same _ _⟩
    · rw [after, fresh]
      simpa [named] using turn
    · rw [log, List.filter_eq_self.mpr]
      simp [aboutSend, about]
  · refine ⟨[], 0, ?_, ?_, same _ _⟩
    · rw [after]
      simpa [named] using Turn.rests e _
    · rw [log, List.filter_eq_nil_iff.mpr]
      intro other listed hit
      obtain rfl := List.mem_singleton.mp listed
      simp only [aboutSend, about, Bool.and_eq_true, beq_iff_eq, AuditTarget.mk.injEq, true_and] at hit
      exact named (named_iff.mpr (Prod.ext hit.1 hit.2))

/-! ### The operations -/

section
variable {s : State}

theorem unused_ids {objectId : Nat} {id : String} (unused : unusedId s.db objectId id = true) :
    ∀ other ∈ s.db.requests, other.id ≠ id := by
  intro other member
  have differs := List.all_eq_true.mp unused other member
  simp only [Bool.and_eq_true, bne_iff_ne] at differs
  exact differs.2

theorem createSend_turns {objectId : Nat} {id : String} (input : CreateSendInput) (now : Time)
    (unused : unusedId s.db objectId id = true) (owner target : String) :
    Turns (.create objectId id input now) s { s with db := createSend s.db objectId id input now } owner target := by
  unfold createSend
  split
  · exact turns_rest rfl (fun _ _ => rfl) owner target
  · apply turns_insert (candidateSend objectId id input now) _ (unused_ids unused)
    · rfl
    · exact ⟨rfl, rfl⟩
    · exact fun _ _ => rfl
    · exact .created rfl

theorem insertReplySend_turns {db : SendDb} {objectId : Nat} {id : String} {place : ReplyTarget} {draft : ReplyDraft}
    {now : Time} (unused : unusedId s.db objectId id = true)
    (inserted : insertReplySend s.db objectId id place draft now = some db) (owner target : String) :
    Turns (.reply objectId id place draft now) s { s with db } owner target := by
  unfold insertReplySend at inserted
  split at inserted
  · cases inserted
  · cases inserted
    apply turns_insert (replySend objectId id place draft now) _ (unused_ids unused)
    · rfl
    · exact ⟨rfl, rfl⟩
    · exact fun _ _ => rfl
    · exact .replied rfl

theorem claimable_waiting {orgID : String} {maxAttempts : Nat} {now : Time} {row : SendRow}
    (due : claimable orgID maxAttempts now row = true) : row.waiting = true := by
  simp only [claimable, Bool.and_eq_true] at due
  exact due.1.1.2

theorem claims_set {t : State} {index : Nat} {delivery next : Delivery} (found : s.deliveries[index]? = some delivery)
    (deliveries : t.deliveries = s.deliveries.set index next) (request : next.request = delivery.request)
    (organizationId id : String) : claims t organizationId id = claims s organizationId id := by
  have counted : ∀ t : State, claims t organizationId id =
      (t.deliveries.map Delivery.request).countP (SendRow.named organizationId id) := by
    intro t
    rw [List.countP_map]
    rfl
  rw [counted t, counted s, deliveries, map_set_same found request]

variable (kept : Kept s)
include kept

theorem approveSend_turns (organizationId id : String) (initialApproval : Bool) (scheduledFor : Option Time)
    (actorIP : String) (now : Time) (owner target : String) :
    Turns (.approve organizationId id initialApproval scheduledFor actorIP now) s
      { s with db := approveSend s.db organizationId id initialApproval scheduledFor actorIP now } owner target := by
  unfold approveSend
  dsimp only
  split
  · rename_i matched
    apply turns_write organizationId id _ _ _ 0 kept (List.any_eq_true.mp matched) _ _ rfl
    · simp [sendAudit]
    · simp [claims]
    · intro row hit
      exact .approved (Bool.and_eq_true_iff.mp hit).2
    · intro row hit
      exact named_iff.mp (Bool.and_eq_true_iff.mp hit).1
    · exact fun _ => rfl
  · exact turns_rest rfl (fun _ _ => rfl) owner target

theorem transitionSend_turns (organizationId id : String) (action : SendAction) (actorIP : String) (actor : Actor)
    (now : Time) (owner target : String) :
    Turns (.transition organizationId id action actorIP actor now) s
      { s with db := (transitionSend s.db organizationId id action actorIP actor now).1 } owner target := by
  unfold transitionSend
  dsimp only
  split
  · rename_i matched
    apply turns_write organizationId id _ _ _ 0 kept (List.any_eq_true.mp matched) _ _ rfl
    · simp [sendAudit]
    · simp [claims]
    · intro row hit
      exact .transitioned (Bool.and_eq_true_iff.mp hit).2
    · intro row hit
      exact named_iff.mp (Bool.and_eq_true_iff.mp hit).1
    · intro row
      cases action <;> rfl
  · exact turns_rest rfl (fun _ _ => rfl) owner target

theorem claim_turns (workerId orgID : String) (maxAttempts : Nat) (now : Time) (id : String) (owner target : String) :
    Turns (.claim workerId orgID maxAttempts now id) s (claim s workerId orgID maxAttempts now id) owner target := by
  unfold claim
  dsimp only
  split
  · exact turns_rest rfl (fun _ _ => rfl) owner target
  · rename_i row found
    have hit := List.find?_some found
    apply turns_write orgID id
      (fun row => row.named orgID id && oldestDue orgID maxAttempts now s.db.requests row) (SendRow.claimed workerId now)
      [] 1 kept ⟨row, List.mem_of_find?_eq_some found, hit⟩
    · intro row hit
      exact named_iff.mp (Bool.and_eq_true_iff.mp hit).1
    · exact fun _ => rfl
    · rw [List.append_nil]
    · simp
    · intro organizationId other
      have requested := named_iff.mp (Bool.and_eq_true_iff.mp hit).1
      show (s.deliveries ++ [_]).countP _ = _
      rw [List.countP_append, List.countP_singleton]
      congr 1
      refine if_congr ?_ rfl rfl
      show SendRow.named organizationId other row = true ↔ _
      rw [named_iff, requested]
    · intro row hit
      exact .claimed (Bool.and_eq_true_iff.mp (Bool.and_eq_true_iff.mp hit).2).1

theorem mark_turns {index : Nat} {delivery : Delivery} {outcome : Except SendError String} (now : Time)
    (found : s.deliveries[index]? = some delivery) (marking : delivery.stage = .marking outcome)
    (owner target : String) : Turns (.mark index now) s (mark s index delivery outcome now) owner target := by
  unfold mark
  split
  · by_cases matched : ∃ row ∈ s.db.requests, row.heldFor delivery = true
    · apply turns_write delivery.request.organizationId delivery.request.id _ (SendRow.marked outcome now) [] 0 kept matched
      · intro row held
        simp only [SendRow.heldFor, Bool.and_eq_true] at held
        exact named_iff.mp held.1.1
      · exact marked_name outcome now
      · rw [List.append_nil]
      · simp
      · intro organizationId id
        rw [ite_self]
        apply claims_set found
        · rfl
        · rfl
      · intro row held
        simp only [SendRow.heldFor, Bool.and_eq_true, beq_iff_eq] at held
        apply Turn.marked held.1.2
        intro messageId sent
        exact kept.identified delivery (List.mem_of_getElem? found) messageId (sent ▸ marking)
    · apply turns_rest
      · show SendDb.mk (updateOne _ _ _) _ = s.db
        rw [updateOne_of_no_match]
        intro row member
        exact Bool.eq_false_iff.mpr fun held => matched ⟨row, member, held⟩
      · apply claims_set found
        · rfl
        · rfl
  · apply turns_rest
    · rfl
    · apply claims_set found
      · rfl
      · rfl

theorem step_turns (e : Event) (owner target : String) : Turns e s (step s e) owner target := by
  cases e with
  | create objectId id input now =>
    unfold step
    dsimp only
    split
    · rename_i unused
      exact createSend_turns input now unused owner target
    · exact turns_rest rfl (fun _ _ => rfl) owner target
  | reply objectId id place draft now =>
    unfold step
    dsimp only
    split
    · rename_i unused
      split
      · exact turns_rest rfl (fun _ _ => rfl) owner target
      · rename_i inserted
        exact insertReplySend_turns unused inserted owner target
    · exact turns_rest rfl (fun _ _ => rfl) owner target
  | save doc => exact turns_rest rfl (fun _ _ => rfl) owner target
  | readApproval organizationId id =>
    unfold step
    dsimp only
    split <;> exact turns_rest rfl (fun _ _ => rfl) owner target
  | approve organizationId id initialApproval scheduledFor actorIP now =>
    unfold step
    dsimp only
    split
    · exact approveSend_turns kept organizationId id initialApproval scheduledFor actorIP now owner target
    · exact turns_rest rfl (fun _ _ => rfl) owner target
  | transition organizationId id action actorIP actor now =>
    exact transitionSend_turns kept organizationId id action actorIP actor now owner target
  | claim workerId orgID maxAttempts now id => exact claim_turns kept workerId orgID maxAttempts now id owner target
  | delivery index action =>
    unfold step
    dsimp only
    split
    · exact turns_rest rfl (fun _ _ => rfl) owner target
    · rename_i next acted
      obtain ⟨delivery, found, acted⟩ := Option.bind_eq_some_iff.mp acted
      apply turns_rest
      · rfl
      · apply claims_set found
        · rfl
        · exact act_request acted
  | mark index now =>
    unfold step
    dsimp only
    split
    · exact turns_rest rfl (fun _ _ => rfl) owner target
    · rename_i delivery found
      split
      · rename_i outcome marking
        exact mark_turns kept now found marking owner target
      · exact turns_rest rfl (fun _ _ => rfl) owner target
end

/-! ### Runs -/

theorem names_insert {requests : List SendRow} {row : SendRow} (unique : (requests.map SendRow.name).Nodup)
    (unused : ∀ other ∈ requests, other.id ≠ row.id) : ((requests ++ [row]).map SendRow.name).Nodup := by
  rw [List.map_append, List.nodup_append]
  refine ⟨unique, by simp, ?_⟩
  intro name old _ new same
  obtain ⟨other, member, rfl⟩ := List.mem_map.mp old
  obtain rfl : _ = row.name := by simpa using new
  exact unused other member (congrArg Prod.snd same)

theorem names_updateOne {requests : List SendRow} {filter : SendRow → Bool} {change : SendRow → SendRow}
    (unique : (requests.map SendRow.name).Nodup) (keep : ∀ row, (change row).name = row.name) :
    ((updateOne filter change requests).map SendRow.name).Nodup := by
  rw [map_updateOne fun row _ _ => keep row]
  exact unique

theorem step_names {s : State} (e : Event) (unique : (s.db.requests.map SendRow.name).Nodup) :
    ((step s e).db.requests.map SendRow.name).Nodup := by
  cases e with
  | create objectId id input now =>
    unfold step createSend
    dsimp only
    split
    · rename_i unused
      split
      · exact unique
      · exact names_insert unique (unused_ids unused)
    · exact unique
  | reply objectId id place draft now =>
    unfold step insertReplySend
    dsimp only
    split
    · rename_i unused
      by_cases taken : s.db.requests.any (SendRow.keyed place.organizationId place.idempotencyKey) = true
      · rw [if_pos taken]
        exact unique
      · rw [if_neg taken]
        exact names_insert unique (unused_ids unused)
    · exact unique
  | save doc => exact unique
  | readApproval organizationId id =>
    unfold step
    dsimp only
    split <;> exact unique
  | approve organizationId id initialApproval scheduledFor actorIP now =>
    unfold step approveSend
    dsimp only
    split
    · split
      · exact names_updateOne unique fun _ => rfl
      · exact unique
    · exact unique
  | transition organizationId id action actorIP actor now =>
    unfold step transitionSend
    dsimp only
    split
    · apply names_updateOne unique
      intro row
      cases action <;> rfl
    · exact unique
  | claim workerId orgID maxAttempts now id =>
    unfold step claim
    dsimp only
    split
    · exact unique
    · exact names_updateOne unique fun _ => rfl
  | delivery index action =>
    unfold step
    dsimp only
    split <;> exact unique
  | mark index now =>
    unfold step mark
    dsimp only
    split
    · exact unique
    · split
      · split
        · exact names_updateOne unique (marked_name _ now)
        · exact unique
      · exact unique

/-- How a delivery came to be as it is after a step. -/
inductive Delivers (s : State) (e : Event) (next : Delivery) : Prop
  | kept : next ∈ s.deliveries → Delivers s e next
  | claimed {workerId orgID : String} {maxAttempts : Nat} {now : Time} {id : String} {row : SendRow} :
      e = .claim workerId orgID maxAttempts now id → row ∈ s.db.requests → row.named orgID id = true →
      oldestDue orgID maxAttempts now s.db.requests row = true →
      next = ⟨row.claimed workerId now, workerId, .notMade, .working, true, false⟩ → Delivers s e next
  | acted {delivery : Delivery} {action : Action} :
      delivery ∈ s.deliveries → delivery.act s.messages action = some next → Delivers s e next
  | recorded {delivery : Delivery} {outcome : Except SendError String} :
      delivery ∈ s.deliveries → delivery.stage = .marking outcome → next = { delivery with stage := .recorded outcome } →
      Delivers s e next
  | lost {delivery : Delivery} {outcome : Except SendError String} :
      delivery ∈ s.deliveries → delivery.stage = .marking outcome → next = { delivery with stage := .lost } →
      Delivers s e next

theorem step_delivers (s : State) (e : Event) : ∀ next ∈ (step s e).deliveries, Delivers s e next := by
  intro next member
  cases e with
  | create _ _ _ _ | reply _ _ _ _ _ | readApproval _ _ | approve _ _ _ _ _ _ =>
    unfold step at member
    dsimp only at member
    repeat' split at member
    all_goals exact .kept member
  | save _ | transition _ _ _ _ _ _ => exact .kept member
  | claim workerId orgID maxAttempts now id =>
    unfold step claim at member
    dsimp only at member
    split at member
    · exact .kept member
    · rename_i row found
      have hit : (row.named orgID id && oldestDue orgID maxAttempts now s.db.requests row) = true := by
        simpa using List.find?_some found
      obtain ⟨named, oldest⟩ := Bool.and_eq_true_iff.mp hit
      rcases List.mem_append.mp member with old | new
      · exact .kept old
      · exact .claimed rfl (List.mem_of_find?_eq_some found) named oldest (List.mem_singleton.mp new)
  | delivery index action =>
    unfold step at member
    dsimp only at member
    split at member
    · exact .kept member
    · rename_i changed acted
      obtain ⟨delivery, found, acted⟩ := Option.bind_eq_some_iff.mp acted
      rcases List.mem_or_eq_of_mem_set member with old | rfl
      · exact .kept old
      · exact .acted (List.mem_of_getElem? found) acted
  | mark index now =>
    unfold step mark at member
    dsimp only at member
    split at member
    · exact .kept member
    · rename_i delivery found
      split at member
      · rename_i outcome marking
        split at member
        · rcases List.mem_or_eq_of_mem_set member with old | rfl
          · exact .kept old
          · exact .recorded (List.mem_of_getElem? found) marking rfl
        · rcases List.mem_or_eq_of_mem_set member with old | rfl
          · exact .kept old
          · exact .lost (List.mem_of_getElem? found) marking rfl
      · exact .kept member

theorem step_kept (s : State) (e : Event) (kept : Kept s) : Kept (step s e) := by
  refine ⟨step_names e kept.unique, ?_⟩
  intro next member messageId marking
  cases step_delivers s e next member with
  | kept old => exact kept.identified next old messageId marking
  | claimed _ _ _ _ same | recorded _ _ same | lost _ _ same =>
    rw [same] at marking
    cases marking
  | acted listed acted => exact act_identified acted (kept.identified _ listed) messageId marking

theorem run_kept (messages : List MessageRow) (events : List Event) : Kept (run step (start messages) events) := by
  apply run_invariant step_kept
  exact ⟨List.nodup_nil, fun _ listed => by cases listed⟩

/-! ### What a status promises -/

structure SendRow.Lawful (row : SendRow) : Prop where
  approved : row.waiting = true ∨ row.status = .sending ∨ row.status = .sent ∨ row.status = .failed →
    row.approval.state = .approved
  sent : row.status = .sent → ∃ messageId, row.dispatch.waMessageId = some messageId ∧ goTrimSpace messageId ≠ ""

theorem lawful_unapproved {row : SendRow} (status : row.status = .pendingApproval ∨ row.status = .rejected) : row.Lawful := by
  refine ⟨fun approved => ?_, fun sent => ?_⟩
  · rcases status with status | status <;> simp [SendRow.waiting, status] at approved
  · rcases status with status | status <;> simp [status] at sent

theorem candidateSend_lawful (objectId : Nat) (id : String) (input : CreateSendInput) (now : Time) :
    (candidateSend objectId id input now).Lawful := by
  unfold candidateSend
  cases input.decision with
  | none => exact lawful_unapproved (Or.inl rfl)
  | some decision =>
    refine ⟨fun _ => rfl, fun sent => ?_⟩
    dsimp only [Option.isNone_some] at sent
    split at sent
    · rename_i none
      cases none
    · split at sent <;> cases sent

theorem replySend_lawful (objectId : Nat) (id : String) (place : ReplyTarget) (draft : ReplyDraft) (now : Time) :
    (replySend objectId id place draft now).Lawful := by
  cases draft with
  | automatic text batches facts => exact ⟨fun _ => rfl, by intro h; cases h⟩
  | humanReview reason => exact lawful_unapproved (Or.inl rfl)

theorem approve_status (initialApproval : Bool) (due now : Time) (row : SendRow) :
    (row.approve initialApproval due now).status = .scheduled ∨ (row.approve initialApproval due now).status = .approved := by
  show (if now < due then SendStatus.scheduled else .approved) = _ ∨ (if now < due then SendStatus.scheduled else .approved) = _
  split
  · exact Or.inl rfl
  · exact Or.inr rfl

theorem approve_lawful {initialApproval : Bool} {row : SendRow} (due now : Time)
    (open_ : approvable initialApproval row = true) (lawful : row.Lawful) :
    (row.approve initialApproval due now).Lawful := by
  refine ⟨fun _ => ?_, fun sent => ?_⟩
  · cases initialApproval with
    | true => rfl
    | false =>
      simp only [approvable, Bool.false_eq_true, if_false, Bool.and_eq_true, beq_iff_eq] at open_
      exact lawful.approved (Or.inr (Or.inr (Or.inr open_.1)))
  · rcases approve_status initialApproval due now row with status | status
    · rw [status] at sent
      cases sent
    · rw [status] at sent
      cases sent

theorem marked_lawful {outcome : Except SendError String} {row : SendRow} (now : Time) (sending : row.status = .sending)
    (named : ∀ messageId, outcome = .ok messageId → goTrimSpace messageId ≠ "") (lawful : row.Lawful) :
    (row.marked outcome now).Lawful := by
  have approved := lawful.approved (Or.inr (Or.inl sending))
  cases outcome with
  | ok messageId => exact ⟨fun _ => approved, fun _ => ⟨messageId, rfl, named messageId rfl⟩⟩
  | error err => exact ⟨fun _ => approved, by intro h; cases h⟩

section
variable {organizationId id : String} {e : Event} {old new : Option SendRow} {entries : List AuditEntry} {count : Nat}

theorem turn_lawful (turn : Turn organizationId id e old new entries count) (lawful : ∀ row ∈ old, row.Lawful) :
    ∀ row ∈ new, row.Lawful := by
  intro next member
  cases turn with
  | rests _ row => exact lawful next member
  | created _ =>
    cases member
    exact candidateSend_lawful _ _ _ _
  | replied _ =>
    cases member
    exact replySend_lawful _ _ _ _ _
  | @approved row initialApproval scheduledFor actorIP now open_ =>
    cases member
    exact approve_lawful _ now open_ (lawful row rfl)
  | @transitioned row action actorIP actor now allowed =>
    cases member
    cases action with
    | reject => exact lawful_unapproved (Or.inr rfl)
    | cancel => exact ⟨fun _ => rfl, by intro h; cases h⟩
  | @claimed row workerId maxAttempts now due =>
    cases member
    exact ⟨fun _ => (lawful row rfl).approved (Or.inl (claimable_waiting due)), by intro h; cases h⟩
  | @marked row outcome index now sending named =>
    cases member
    exact marked_lawful now sending named (lawful row rfl)

/-- Sent, rejected and cancelled requests are done. -/
def SendRow.settled (row : SendRow) : Bool := row.status == .sent || row.status == .rejected || row.status == .cancelled

theorem turn_settled {row : SendRow} (turn : Turn organizationId id e (some row) new entries count)
    (settled : row.settled = true) : new = some row := by
  have status : row.status = .sent ∨ row.status = .rejected ∨ row.status = .cancelled := by
    simpa [SendRow.settled, or_assoc] using settled
  cases turn with
  | rests _ _ => rfl
  | @approved _ initialApproval _ _ _ open_ =>
    cases initialApproval <;> rcases status with status | status | status <;> simp [approvable, status] at open_
  | @transitioned _ action _ _ _ allowed =>
    cases action <;> rcases status with status | status | status <;> simp [SendAction.allowed, status] at allowed
  | claimed due =>
    have waiting := claimable_waiting due
    rcases status with status | status | status <;> simp [SendRow.waiting, status] at waiting
  | marked sending _ => rcases status with status | status | status <;> simp [status] at sending

theorem turn_claim {row : SendRow} {workerId orgID : String} {maxAttempts : Nat} {now : Time} {claimedId : String}
    (turn : Turn organizationId id (.claim workerId orgID maxAttempts now claimedId) (some row) new entries count)
    (idle : row.waiting = false) : new = some row ∧ count = 0 := by
  cases turn with
  | rests _ _ => exact ⟨rfl, rfl⟩
  | claimed due =>
    rw [claimable_waiting due] at idle
    cases idle

/-! ### Each release is used once -/

/-- The audit row of a write that made its request claimable. -/
def releasesSend (entry : AuditEntry) : Bool :=
  match entry.action, entry.details with
  | .sendApproved, _ => true
  | .sendCreated, .sendCreated _ _ decision => decision.isSome
  | .sendCreated, .replySend _ _ _ _ => true
  | _, _ => false

def cancelsSend (entry : AuditEntry) : Bool := entry.action == .sendCancelled

def waits (request : Option SendRow) : Nat := if request.any SendRow.waiting then 1 else 0

theorem approve_waiting (initialApproval : Bool) (due now : Time) (row : SendRow) :
    (row.approve initialApproval due now).waiting = true := by
  rcases approve_status initialApproval due now row with status | status <;> simp [SendRow.waiting, status]

theorem approvable_idle {initialApproval : Bool} {row : SendRow} (open_ : approvable initialApproval row = true) :
    row.waiting = false := by
  cases initialApproval with
  | true =>
    simp only [approvable, if_true, Bool.and_eq_true, beq_iff_eq] at open_
    simp [SendRow.waiting, open_.1]
  | false =>
    simp only [approvable, Bool.false_eq_true, if_false, Bool.and_eq_true, beq_iff_eq] at open_
    simp [SendRow.waiting, open_.1]

theorem candidateSend_waiting (objectId : Nat) (id : String) (input : CreateSendInput) (now : Time) :
    (candidateSend objectId id input now).waiting = input.decision.isSome := by
  unfold candidateSend SendRow.waiting
  cases input.decision with
  | none => rfl
  | some decision =>
    show ((if now < _ then SendStatus.scheduled else .approved) == .approved ||
      (if now < _ then SendStatus.scheduled else .approved) == .scheduled) = true
    split <;> rfl

theorem turn_conserves (turn : Turn organizationId id e old new entries count) :
    waits old + entries.countP releasesSend = count + entries.countP cancelsSend + waits new := by
  cases turn with
  | rests _ row => simp
  | @created objectId input now same =>
    simp only [waits, Option.any_some, candidateSend_waiting]
    cases input.decision <;> rfl
  | @replied objectId place draft now _ => cases draft <;> rfl
  | @approved row initialApproval scheduledFor actorIP now open_ =>
    simp [waits, approve_waiting, approvable_idle open_, releasesSend, cancelsSend, sendAudit]
  | @transitioned row action actorIP actor now allowed =>
    cases action with
    | reject =>
      have idle : row.waiting = false := by simp [SendRow.waiting, beq_iff_eq.mp allowed]
      have rejected : (row.transition .reject now).waiting = false := rfl
      simp [waits, idle, rejected, releasesSend, cancelsSend, sendAudit]
    | cancel =>
      have waiting : row.waiting = true := allowed
      have cancelled : (row.transition .cancel now).waiting = false := rfl
      simp [waits, waiting, cancelled, releasesSend, cancelsSend, sendAudit]
  | @claimed row workerId maxAttempts now due =>
    have taken : (row.claimed workerId now).waiting = false := rfl
    simp [waits, claimable_waiting due, taken]
  | @marked row outcome index now sending named =>
    have idle : row.waiting = false := by simp [SendRow.waiting, sending]
    have closed : (row.marked outcome now).waiting = false := by cases outcome <;> rfl
    simp [waits, idle, closed]

/-! ### Each change is recorded once -/

/-- The audit action that goes with a change of status. -/
def recordsChange (action : AuditAction) (before after : Option SendStatus) : Bool :=
  match action, before, after with
  | .sendCreated, none, some .pendingApproval | .sendCreated, none, some .approved
  | .sendCreated, none, some .scheduled | .replyOutputRejected, none, some .pendingApproval => true
  | .sendApproved, some .pendingApproval, some .approved | .sendApproved, some .pendingApproval, some .scheduled
  | .sendApproved, some .failed, some .approved | .sendApproved, some .failed, some .scheduled => true
  | .sendRejected, some .pendingApproval, some .rejected => true
  | .sendCancelled, some .approved, some .cancelled | .sendCancelled, some .scheduled, some .cancelled => true
  | _, _, _ => false

def statusOf (db : SendDb) (organizationId id : String) : Option SendStatus :=
  (getSend db organizationId id).map SendRow.status

/-- The changes the BFF made to a request's status, in order; its creation is the first. -/
def statusChanges (organizationId id : String) : State → List Event → List (Option SendStatus × Option SendStatus)
  | _, [] => []
  | s, e :: events =>
    let before := statusOf s.db organizationId id
    let after := statusOf (step s e).db organizationId id
    (if e.party = .bff ∧ before ≠ after then [(before, after)] else []) ++
      statusChanges organizationId id (step s e) events

/-- The changes and the audit rows about them go together, one to one and in order. -/
abbrev Recorded (changes : List (Option SendStatus × Option SendStatus)) (entries : List AuditEntry) : Prop :=
  List.Forall₂ (fun change entry => recordsChange entry.action change.1 change.2 = true) changes entries

theorem recordsChange_self (action : AuditAction) (status : Option SendStatus) :
    recordsChange action status status = false := by
  cases status with
  | none => cases action <;> rfl
  | some status => cases action <;> cases status <;> rfl

theorem recorded_one {before after : Option SendStatus} {entry : AuditEntry}
    (records : recordsChange entry.action before after = true) :
    Recorded (if Party.bff = .bff ∧ before ≠ after then [(before, after)] else []) [entry] := by
  have changed : before ≠ after := by
    intro same
    rw [same, recordsChange_self] at records
    cases records
  rw [if_pos ⟨rfl, changed⟩]
  exact .cons records .nil

theorem candidateSend_status (objectId : Nat) (id : String) (input : CreateSendInput) (now : Time) :
    (candidateSend objectId id input now).status = .pendingApproval ∨
      (candidateSend objectId id input now).status = .scheduled ∨
      (candidateSend objectId id input now).status = .approved := by
  unfold candidateSend
  dsimp only
  split
  · exact Or.inl rfl
  · split
    · exact Or.inr (Or.inl rfl)
    · exact Or.inr (Or.inr rfl)

theorem approvable_status {initialApproval : Bool} {row : SendRow} (open_ : approvable initialApproval row = true) :
    row.status = .pendingApproval ∨ row.status = .failed := by
  cases initialApproval with
  | true =>
    simp only [approvable, if_true, Bool.and_eq_true, beq_iff_eq] at open_
    exact Or.inl open_.1
  | false =>
    simp only [approvable, Bool.false_eq_true, if_false, Bool.and_eq_true, beq_iff_eq] at open_
    exact Or.inr open_.1

theorem turn_recorded (turn : Turn organizationId id e old new entries count) :
    Recorded (if e.party = .bff ∧ old.map SendRow.status ≠ new.map SendRow.status then
      [(old.map SendRow.status, new.map SendRow.status)] else []) entries := by
  cases turn with
  | rests _ row => simp
  | @created objectId input now same =>
    apply recorded_one
    rcases candidateSend_status objectId id input now with status | status | status <;> rw [Option.map_some, status] <;> rfl
  | @replied objectId place draft now _ =>
    apply recorded_one
    cases draft <;> rfl
  | @approved row initialApproval scheduledFor actorIP now open_ =>
    apply recorded_one
    rw [Option.map_some, Option.map_some]
    rcases approvable_status open_ with before | before <;>
      rcases approve_status initialApproval (scheduledFor.getD now) now row with after | after <;> rw [before, after] <;> rfl
  | @transitioned row action actorIP actor now allowed =>
    apply recorded_one
    rw [Option.map_some, Option.map_some]
    cases action with
    | reject =>
      rw [beq_iff_eq.mp allowed]
      rfl
    | cancel =>
      have before : row.status = .approved ∨ row.status = .scheduled := by simpa [SendAction.allowed] using allowed
      rcases before with before | before <;> rw [before] <;> rfl
  | claimed _ | marked _ _ => simp [Event.party]
end

section
variable (messages : List MessageRow) (events : List Event)

theorem run_lawful : ∀ row ∈ (run step (start messages) events).db.requests, row.Lawful := by
  suffices both : Kept (run step (start messages) events) ∧ _ from both.2
  apply run_invariant (I := fun s => Kept s ∧ ∀ row ∈ s.db.requests, row.Lawful)
  · rintro s e ⟨kept, lawful⟩
    have after := step_kept s e kept
    refine ⟨after, fun row member => ?_⟩
    obtain ⟨entries, count, turn, _, _⟩ := step_turns kept e row.organizationId row.id
    apply turn_lawful turn _ row (getSend_of_mem after.unique member)
    intro old found
    exact lawful old (mem_of_getSend found).1
  · exact ⟨run_kept messages [], fun _ listed => by cases listed⟩

theorem run_conserves (organizationId id : String) :
    (audits (run step (start messages) events).db organizationId id).countP releasesSend =
      claims (run step (start messages) events) organizationId id +
        (audits (run step (start messages) events).db organizationId id).countP cancelsSend +
        waits (getSend (run step (start messages) events).db organizationId id) := by
  suffices both : Kept (run step (start messages) events) ∧ _ from both.2
  apply run_invariant (I := fun s => Kept s ∧ (audits s.db organizationId id).countP releasesSend =
    claims s organizationId id + (audits s.db organizationId id).countP cancelsSend + waits (getSend s.db organizationId id))
  · rintro s e ⟨kept, conserved⟩
    refine ⟨step_kept s e kept, ?_⟩
    obtain ⟨entries, count, turn, log, claimed⟩ := step_turns kept e organizationId id
    have moved := turn_conserves turn
    rw [log, claimed, List.countP_append, List.countP_append]
    omega
  · exact ⟨run_kept messages [], rfl⟩

theorem run_recorded (organizationId id : String) {s : State} (kept : Kept s) :
    ∃ entries, audits (run step s events).db organizationId id = audits s.db organizationId id ++ entries ∧
      Recorded (statusChanges organizationId id s events) entries := by
  induction events generalizing s with
  | nil => exact ⟨[], by simp, .nil⟩
  | cons e events ih =>
    obtain ⟨first, count, turn, log, _⟩ := step_turns kept e organizationId id
    obtain ⟨rest, later, recorded⟩ := ih (step_kept s e kept)
    refine ⟨first ++ rest, ?_, ?_⟩
    · rw [run_cons, later, log, List.append_assoc]
    · exact List.rel_append (turn_recorded turn) recorded
end

variable {s : State}

theorem run_settled {row : SendRow} (kept : Kept s) (member : row ∈ s.db.requests) (settled : row.settled = true)
    (later : List Event) : row ∈ (run step s later).db.requests := by
  induction later generalizing s with
  | nil => exact member
  | cons e later ih =>
    apply ih (step_kept s e kept)
    obtain ⟨entries, count, turn, _, _⟩ := step_turns kept e row.organizationId row.id
    rw [getSend_of_mem kept.unique member] at turn
    exact (mem_of_getSend (turn_settled turn settled)).1

/-- A request that is not approved is no dispatcher's. -/
def SendRow.unapproved (row : SendRow) : Bool :=
  row.status == .pendingApproval || row.status == .rejected || row.status == .cancelled

theorem claim_unapproved {row : SendRow} (kept : Kept s) (member : row ∈ s.db.requests) (unapproved : row.unapproved = true)
    (workerId orgID : String) (maxAttempts : Nat) (now : Time) (id : String) :
    row ∈ (claim s workerId orgID maxAttempts now id).db.requests ∧
      claims (claim s workerId orgID maxAttempts now id) row.organizationId row.id = claims s row.organizationId row.id := by
  have status : row.status = .pendingApproval ∨ row.status = .rejected ∨ row.status = .cancelled := by
    simpa [SendRow.unapproved, or_assoc] using unapproved
  obtain ⟨entries, count, turn, _, claimed⟩ := claim_turns kept workerId orgID maxAttempts now id row.organizationId row.id
  rw [getSend_of_mem kept.unique member] at turn
  have idle : row.waiting = false := by
    rcases status with status | status | status <;> simp [SendRow.waiting, status]
  obtain ⟨same, none⟩ := turn_claim turn idle
  exact ⟨(mem_of_getSend same).1, by rw [claimed, none, Nat.add_zero]⟩

/-- How often a release of the request was used: by a claim or by a cancellation. -/
def uses (s : State) (organizationId id : String) : Nat :=
  claims s organizationId id + (audits s.db organizationId id).countP cancelsSend

/-- A step that releases nothing uses at most what was waiting. -/
theorem turns_uses {e : Event} {t : State} {organizationId id : String} (turns : Turns e s t organizationId id)
    (quiet : (audits t.db organizationId id).countP releasesSend = (audits s.db organizationId id).countP releasesSend) :
    uses t organizationId id + waits (getSend t.db organizationId id) =
        uses s organizationId id + waits (getSend s.db organizationId id) ∧
      uses s organizationId id ≤ uses t organizationId id := by
  obtain ⟨entries, count, turn, log, claimed⟩ := turns
  have moved := turn_conserves turn
  unfold uses
  rw [log, List.countP_append] at quiet
  rw [log, claimed, List.countP_append]
  omega

theorem transition_quiet (db : SendDb) (organizationId id : String) (action : SendAction) (actorIP : String)
    (actor : Actor) (now : Time) (owner target : String) :
    (audits (transitionSend db organizationId id action actorIP actor now).1 owner target).countP releasesSend =
      (audits db owner target).countP releasesSend := by
  unfold transitionSend audits
  dsimp only
  split
  · rw [List.filter_append, List.countP_append, Nat.add_eq_left, List.countP_eq_zero]
    intro entry listed
    obtain rfl := List.mem_singleton.mp (List.mem_filter.mp listed).1
    cases action <;> simp [releasesSend, sendAudit]
  · rfl

theorem claim_quiet (workerId orgID : String) (maxAttempts : Nat) (now : Time) (id : String) (owner target : String) :
    (audits (claim s workerId orgID maxAttempts now id).db owner target).countP releasesSend =
      (audits s.db owner target).countP releasesSend := by
  unfold claim
  dsimp only
  split <;> rfl

theorem cancel_waits (kept : Kept s) (organizationId id : String) (actorIP : String) (actor : Actor) (now : Time) :
    waits (getSend (transitionSend s.db organizationId id .cancel actorIP actor now).1 organizationId id) = 0 := by
  unfold transitionSend
  dsimp only
  split
  · rw [getSend_updateOne kept.unique (k := (organizationId, id))]
    · cases found : getSend s.db organizationId id with
      | none => rfl
      | some row =>
        have named := named_iff.mpr (mem_of_getSend found).2
        cases waiting : row.waiting with
        | true =>
          have hit : (row.named organizationId id && SendAction.cancel.allowed row) = true := by
            rw [named]
            exact waiting
          rw [Option.map_some, if_pos hit]
          rfl
        | false =>
          have missed : ¬ (row.named organizationId id && SendAction.cancel.allowed row) = true := by
            intro hit
            have allowed : row.waiting = true := (Bool.and_eq_true_iff.mp hit).2
            rw [waiting] at allowed
            cases allowed
          rw [Option.map_some, if_neg missed, waits, Option.any_some, waiting]
          rfl
    · intro row hit
      exact named_iff.mp (Bool.and_eq_true_iff.mp hit).1
    · exact fun _ => rfl
  · rename_i missed
    unfold waits
    rw [if_neg]
    intro waiting
    obtain ⟨row, found, ready⟩ := (Option.any_eq_true _ _).mp waiting
    apply missed
    refine List.any_eq_true.mpr ⟨row, (mem_of_getSend found).1, ?_⟩
    rw [named_iff.mpr (mem_of_getSend found).2]
    exact ready

/-- In either order, one of a cancellation and a claim of a waiting request takes effect. -/
theorem cancel_claim_race {row : SendRow} (kept : Kept s) (member : row ∈ s.db.requests) (waiting : row.waiting = true)
    (actorIP : String) (actor : Actor) (workerId : String) (maxAttempts : Nat) (cancelledAt claimedAt : Time) :
    let cancel := Event.transition row.organizationId row.id .cancel actorIP actor cancelledAt
    let claim := Event.claim workerId row.organizationId maxAttempts claimedAt row.id
    uses (run step s [cancel, claim]) row.organizationId row.id = uses s row.organizationId row.id + 1 ∧
      uses (run step s [claim, cancel]) row.organizationId row.id = uses s row.organizationId row.id + 1 := by
  intro cancel claim
  have one : waits (getSend s.db row.organizationId row.id) = 1 := by
    rw [getSend_of_mem kept.unique member, waits, Option.any_some, waiting]
    rfl
  have cancels : ∀ t : State, Kept t →
      uses (step t cancel) row.organizationId row.id + waits (getSend (step t cancel).db row.organizationId row.id) =
        uses t row.organizationId row.id + waits (getSend t.db row.organizationId row.id) ∧ _ :=
    fun t kept => turns_uses (step_turns kept cancel row.organizationId row.id) (transition_quiet t.db _ _ _ _ _ _ _ _)
  have claims : ∀ t : State, Kept t →
      uses (step t claim) row.organizationId row.id + waits (getSend (step t claim).db row.organizationId row.id) =
        uses t row.organizationId row.id + waits (getSend t.db row.organizationId row.id) ∧ _ :=
    fun t kept => turns_uses (step_turns kept claim row.organizationId row.id) (claim_quiet _ _ _ _ _ _ _)
  constructor
  · have first := cancels s kept
    have second := claims (step s cancel) (step_kept s cancel kept)
    have done : waits (getSend (step s cancel).db row.organizationId row.id) = 0 := cancel_waits kept _ _ _ _ _
    simp only [run_cons, run_nil]
    omega
  · have first := claims s kept
    have second := cancels (step s claim) (step_kept s claim kept)
    have done : waits (getSend (step (step s claim) cancel).db row.organizationId row.id) = 0 :=
      cancel_waits (step_kept s claim kept) _ _ _ _ _
    simp only [run_cons, run_nil]
    omega

theorem send_lifecycle (messages : List MessageRow) (events : List Event) :
    let s := run step (start messages) events
    (∀ row ∈ s.db.requests, row.unapproved = true → ∀ workerId orgID maxAttempts now id,
      let t := step s (.claim workerId orgID maxAttempts now id)
      row ∈ t.db.requests ∧ claims t row.organizationId row.id = claims s row.organizationId row.id) ∧
    (∀ row ∈ s.db.requests, row.waiting = true → ∀ actorIP actor workerId maxAttempts cancelledAt claimedAt,
      let cancel := Event.transition row.organizationId row.id .cancel actorIP actor cancelledAt
      let claim := Event.claim workerId row.organizationId maxAttempts claimedAt row.id
      uses (run step s [cancel, claim]) row.organizationId row.id = uses s row.organizationId row.id + 1 ∧
        uses (run step s [claim, cancel]) row.organizationId row.id = uses s row.organizationId row.id + 1) ∧
    (∀ organizationId id, (audits s.db organizationId id).countP releasesSend =
      uses s organizationId id + waits (getSend s.db organizationId id)) ∧
    (∀ row ∈ s.db.requests, row.settled = true → ∀ later, row ∈ (run step s later).db.requests) ∧
    (∀ row ∈ s.db.requests, row.status = .sent → row.approval.state = .approved ∧
      ∃ messageId, row.dispatch.waMessageId = some messageId ∧ goTrimSpace messageId ≠ "") ∧
    ∀ organizationId id,
      Recorded (statusChanges organizationId id (start messages) events) (audits s.db organizationId id) := by
  intro s
  have kept := run_kept messages events
  refine ⟨?_, ?_, run_conserves messages events, ?_, ?_, ?_⟩
  · intro row member unapproved workerId orgID maxAttempts now id
    exact claim_unapproved kept member unapproved workerId orgID maxAttempts now id
  · intro row member waiting actorIP actor workerId maxAttempts cancelledAt claimedAt
    exact cancel_claim_race kept member waiting actorIP actor workerId maxAttempts cancelledAt claimedAt
  · intro row member settled later
    exact run_settled kept member settled later
  · intro row member sent
    have lawful := run_lawful messages events row member
    exact ⟨lawful.approved (Or.inr (Or.inr (Or.inl sent))), lawful.sent sent⟩
  · intro organizationId id
    obtain ⟨entries, log, recorded⟩ := run_recorded events organizationId id (run_kept messages [])
    have all : audits s.db organizationId id = entries := log
    rw [all]
    exact recorded

end GroupButler.Sends
