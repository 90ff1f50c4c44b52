import GroupButler.Sends.Dispatch

/-!
# What every step of the send system keeps

A step rewrites one request or inserts one under a free key. No write removes a request, touches what
identifies it or takes it out of `cancelled`, and every audit row it adds is about a send.
-/

namespace GroupButler.Sends
open Foundation Store

/-- The fields a request is created with and keeps. -/
structure SendRow.Same (row next : SendRow) : Prop where
  objectId : next.objectId = row.objectId
  name : next.name = row.name
  instanceId : next.instanceId = row.instanceId
  groupJid : next.groupJid = row.groupJid
  text : next.text = row.text
  idempotencyKey : next.idempotencyKey = row.idempotencyKey
  provenance : next.provenance = row.provenance

structure SendRow.Becomes (row next : SendRow) : Prop extends row.Same next where
  cancelled : row.status = .cancelled → next.status = .cancelled

theorem SendRow.Becomes.refl (row : SendRow) : row.Becomes row := ⟨⟨rfl, rfl, rfl, rfl, rfl, rfl, rfl⟩, fun h => h⟩

/-- The unique index of `sendRequests`. -/
def SendRow.key (row : SendRow) : String × String := (row.organizationId, row.idempotencyKey)

theorem SendRow.Same.key {row next : SendRow} (same : row.Same next) : next.key = row.key :=
  congrArg₂ Prod.mk (congrArg Prod.fst same.name) same.idempotencyKey

inductive Moves (inserted : SendRow → Prop) (old new : SendDb) : Prop
  | rewrites (filter : SendRow → Bool) (change : SendRow → SendRow) (entries : List AuditEntry) :
      (∀ row, filter row = true → row.Becomes (change row)) → (∀ entry ∈ entries, entry.target.type = .send) →
      new = ⟨updateOne filter change old.requests, old.auditLog ++ entries⟩ → Moves inserted old new
  | inserts (row : SendRow) (entry : AuditEntry) :
      (∀ other ∈ old.requests, other.key ≠ row.key) → inserted row → entry.target.type = .send →
      new = ⟨old.requests ++ [row], old.auditLog ++ [entry]⟩ → Moves inserted old new

theorem moves_refl (inserted : SendRow → Prop) (db : SendDb) : Moves inserted db db := by
  refine .rewrites (fun _ => false) (fun row => row) [] (fun row _ => .refl row) (by simp) ?_
  rw [updateOne_of_no_match (by simp), List.append_nil]

theorem moves_insert {inserted : SendRow → Prop} {db : SendDb} {row : SendRow} {entry : AuditEntry}
    (free : ¬ db.requests.any (SendRow.keyed row.organizationId row.idempotencyKey) = true) (allowed : inserted row)
    (send : entry.target.type = .send) : Moves inserted db ⟨db.requests ++ [row], db.auditLog ++ [entry]⟩ := by
  refine .inserts row entry (fun other member same => free ?_) allowed send rfl
  obtain ⟨organization, idempotency⟩ := Prod.ext_iff.mp same
  refine List.any_eq_true.mpr ⟨other, member, ?_⟩
  exact Bool.and_eq_true_iff.mpr ⟨beq_iff_eq.mpr organization, beq_iff_eq.mpr idempotency⟩

/-! ### The writers -/

theorem createSend_moves (db : SendDb) (objectId : Nat) (id : String) (input : CreateSendInput) (now : Time) :
    Moves (fun row => row.provenance = none) db (createSend db objectId id input now) := by
  unfold createSend
  split
  · exact moves_refl _ db
  · rename_i free
    exact moves_insert free rfl rfl

theorem insertReplySend_moves {db next : SendDb} {objectId : Nat} {id : String} {target : ReplyTarget}
    {draft : ReplyDraft} {now : Time} (inserted : insertReplySend db objectId id target draft now = some next) :
    Moves (fun row => row = replySend objectId id target draft now) db next := by
  unfold insertReplySend at inserted
  split at inserted
  · cases inserted
  · rename_i free
    cases inserted
    exact moves_insert free rfl rfl

theorem approveSend_moves (inserted : SendRow → Prop) (db : SendDb) (organizationId id : String) (initialApproval : Bool)
    (scheduledFor : Option Time) (actorIP : String) (now : Time) :
    Moves inserted db (approveSend db organizationId id initialApproval scheduledFor actorIP now) := by
  unfold approveSend
  dsimp only
  split
  · refine .rewrites _ _ [_] ?_ (by simp [sendAudit]) rfl
    intro row matched
    refine ⟨⟨rfl, rfl, rfl, rfl, rfl, rfl, rfl⟩, fun cancelled => ?_⟩
    have open_ := (Bool.and_eq_true_iff.mp matched).2
    cases initialApproval <;> simp [approvable, cancelled] at open_
  · exact moves_refl inserted db

theorem transitionSend_moves (inserted : SendRow → Prop) (db : SendDb) (organizationId id : String) (action : SendAction)
    (actorIP : String) (actor : Actor) (now : Time) :
    Moves inserted db (transitionSend db organizationId id action actorIP actor now).1 := by
  unfold transitionSend
  dsimp only
  split
  · refine .rewrites _ _ [_] ?_ (by simp [sendAudit]) rfl
    intro row matched
    have allowed := (Bool.and_eq_true_iff.mp matched).2
    refine ⟨by cases action <;> exact ⟨rfl, rfl, rfl, rfl, rfl, rfl, rfl⟩, fun cancelled => ?_⟩
    cases action <;> simp [SendAction.allowed, cancelled] at allowed
  · exact moves_refl inserted db

theorem claim_moves (inserted : SendRow → Prop) (s : State) (workerId orgID : String) (maxAttempts : Nat) (now : Time)
    (id : String) : Moves inserted s.db (claim s workerId orgID maxAttempts now id).db := by
  unfold claim
  dsimp only
  split
  · exact moves_refl inserted s.db
  · refine .rewrites _ _ [] ?_ (by simp) (congrArg (SendDb.mk _) (List.append_nil _).symm)
    intro row matched
    refine ⟨⟨rfl, rfl, rfl, rfl, rfl, rfl, rfl⟩, fun cancelled => ?_⟩
    simp [oldestDue, claimable, cancelled] at matched

theorem mark_moves (inserted : SendRow → Prop) (s : State) (index : Nat) (delivery : Delivery)
    (outcome : Except SendError String) (now : Time) : Moves inserted s.db (mark s index delivery outcome now).db := by
  unfold mark
  split
  · refine .rewrites _ _ [] ?_ (by simp) (congrArg (SendDb.mk _) (List.append_nil _).symm)
    intro row matched
    refine ⟨by cases outcome <;> exact ⟨rfl, rfl, rfl, rfl, rfl, rfl, rfl⟩, fun cancelled => ?_⟩
    simp [SendRow.heldFor, cancelled] at matched
  · exact moves_refl inserted s.db

/-- Queued by a reply's transaction. -/
def Event.isReply : Event → Bool
  | .reply .. => true
  | _ => false

theorem Moves.weaken {inserted weaker : SendRow → Prop} {old new : SendDb} (moves : Moves inserted old new)
    (implies : ∀ row, inserted row → weaker row) : Moves weaker old new := by
  cases moves with
  | rewrites filter change entries becomes sends same => exact .rewrites filter change entries becomes sends same
  | inserts row entry free allowed send same => exact .inserts row entry free (implies row allowed) send same

theorem step_moves (s : State) (e : Event) :
    Moves (fun row => e.isReply = false → row.provenance = none) s.db (step s e).db := by
  cases e with
  | create objectId id input now =>
    unfold step
    dsimp only
    split
    · exact (createSend_moves s.db objectId id input now).weaken fun _ none _ => none
    · exact moves_refl _ s.db
  | reply objectId id target draft now =>
    unfold step
    dsimp only
    split
    · split
      · exact moves_refl _ s.db
      · rename_i inserted
        exact (insertReplySend_moves inserted).weaken fun _ _ foreign => by cases foreign
    · exact moves_refl _ s.db
  | save doc => exact moves_refl _ s.db
  | readApproval organizationId id =>
    unfold step
    dsimp only
    split <;> exact moves_refl _ s.db
  | approve organizationId id initialApproval scheduledFor actorIP now =>
    unfold step
    dsimp only
    split
    · exact approveSend_moves _ s.db organizationId id initialApproval scheduledFor actorIP now
    · exact moves_refl _ s.db
  | transition organizationId id action actorIP actor now =>
    exact transitionSend_moves _ s.db organizationId id action actorIP actor now
  | claim workerId orgID maxAttempts now id => exact claim_moves _ s workerId orgID maxAttempts now id
  | delivery index action =>
    unfold step
    dsimp only
    split <;> exact moves_refl _ s.db
  | mark index now =>
    unfold step
    dsimp only
    split
    · exact moves_refl _ s.db
    · split
      · exact mark_moves _ s index _ _ now
      · exact moves_refl _ s.db

/-! ### What a move keeps -/

variable {inserted : SendRow → Prop} {old new : SendDb}

theorem moves_rows (moves : Moves inserted old new) :
    ∀ row ∈ old.requests, ∃ next ∈ new.requests, row.Becomes next := by
  intro row member
  cases moves with
  | rewrites filter change entries becomes sends same =>
    subst same
    rcases mem_updateOne_of_mem member with kept | ⟨matched, changed⟩
    · exact ⟨row, kept, .refl row⟩
    · exact ⟨change row, changed, becomes row matched⟩
  | inserts fresh entry free allowed send same =>
    subst same
    exact ⟨row, List.mem_append_left _ member, .refl row⟩

theorem moves_origin (moves : Moves inserted old new) :
    ∀ next ∈ new.requests, (∃ row ∈ old.requests, row.Same next) ∨ inserted next := by
  intro next member
  cases moves with
  | rewrites filter change entries becomes sends same =>
    subst same
    rcases mem_updateOne member with kept | ⟨row, stored, matched, rfl⟩
    · exact Or.inl ⟨next, kept, (SendRow.Becomes.refl next).toSame⟩
    · exact Or.inl ⟨row, stored, (becomes row matched).toSame⟩
  | inserts fresh entry free allowed send same =>
    subst same
    rcases List.mem_append.mp member with kept | isNew
    · exact Or.inl ⟨next, kept, (SendRow.Becomes.refl next).toSame⟩
    · exact Or.inr (List.mem_singleton.mp isNew ▸ allowed)

theorem moves_keys (moves : Moves inserted old new) (unique : (old.requests.map SendRow.key).Nodup) :
    (new.requests.map SendRow.key).Nodup := by
  cases moves with
  | rewrites filter change entries becomes sends same =>
    subst same
    rw [map_updateOne fun row _ matched => (becomes row matched).toSame.key]
    exact unique
  | inserts fresh entry free allowed send same =>
    subst same
    rw [List.map_append, List.nodup_append]
    refine ⟨unique, by simp, ?_⟩
    intro key taken other isNew equal
    obtain ⟨row, stored, rfl⟩ := List.mem_map.mp taken
    obtain rfl : other = fresh.key := by simpa using isNew
    exact free row stored equal

theorem moves_audit (moves : Moves inserted old new) :
    ∃ entries, new.auditLog = old.auditLog ++ entries ∧ ∀ entry ∈ entries, entry.target.type = .send := by
  cases moves with
  | rewrites filter change entries becomes sends same => exact ⟨entries, same ▸ rfl, sends⟩
  | inserts fresh entry free allowed send same => exact ⟨[entry], same ▸ rfl, by simpa using send⟩

end GroupButler.Sends
