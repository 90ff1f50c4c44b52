import GroupButler.Actions.Execute
import GroupButler.Actions.Trail

/-!
# Performed once, and recorded truthfully

An executor owns its row from the claim it won to the outcome it stored: the row is then approved and
running, and no other call can claim it. What the ledger holds for the row is fixed by the owner's
stage, and the settlement it stores by the ledger.
-/

namespace GroupButler.Actions
open Foundation Store Sends

/-- What was done for a row, in order. -/
def deedsOf (ledger : List Effect) (name : String × String) : List Deed :=
  (ledger.filter fun effect => effect.name == name).map Effect.deed

def Deed.performs : Deed → Bool
  | .answered _ => false
  | _ => true

/-! ### Ownership -/

def Stage.owns : Stage → Bool
  | .called | .done _ | .stopped => false
  | _ => true

def ActionRow.InFlight (row : ActionRow) : Prop := row.state = .approved ∧ row.result = some .running

/-- The settlements the ledger of a row supports. -/
inductive Grounded (requests : List SendRow) (name : String × String) : List Deed → Settlement → Prop
  | refused (failure : Failure) : Grounded requests name [] (refuse failure)
  | answered (request : GroupAdminRequest) (answer : WorkerResult) :
      Grounded requests name [.called request, .answered answer] (answerSettlement request answer)
  | queued (sendId : String) (status : SendStatus) (scheduledFor : Time) :
      (∃ send ∈ requests, send.keyed name.1 ("action:" ++ name.2) = true ∧ send.id = sendId) →
      Grounded requests name [.created] ⟨.queued sendId status scheduledFor, none⟩
  | withdrawn (sendId : String) (status : SendStatus) (text : String) :
      (∃ send ∈ requests, send.name = (name.1, sendId) ∧ send.status = .cancelled) →
      Grounded requests name [.cancelled sendId] ⟨.withdrawn sendId status text, none⟩

/-- What the ledger holds for an executor's row, by its stage. -/
def Accounts (requests : List SendRow) (name : String × String) (deeds : List Deed) : Stage → Prop
  | .called | .done _ | .stopped => True
  | .claimed | .cancelling _ | .sending _ _ | .calling _ => deeds = []
  | .awaiting request => deeds = [.called request]
  | .sent => deeds = [.created]
  | .cancelled sendId =>
    deeds = [.cancelled sendId] ∧ ∃ send ∈ requests, send.name = (name.1, sendId) ∧ send.status = .cancelled
  | .settling settlement => Grounded requests name deeds settlement

inductive RowSound (requests : List SendRow) (deeds : List Deed) (row : ActionRow) : Prop
  | idle : row.state ≠ .executed → row.state ≠ .failed → row.result = none → deeds = [] → RowSound requests deeds row
  | inFlight : row.InFlight → deeds.countP Deed.performs ≤ 1 → RowSound requests deeds row
  | settled (settlement : Settlement) : Grounded requests row.name deeds settlement →
      row.state = settlement.state → row.result = some settlement.result → RowSound requests deeds row

structure Sound (s : State) : Prop where
  unique : (s.actions.map ActionRow.name).Nodup
  rows : ∀ row ∈ s.actions, RowSound s.sends.db.requests (deedsOf s.ledger row.name) row
  noted : ∀ effect ∈ s.ledger, effect.name ∈ s.actions.map ActionRow.name
  known : ∀ executor ∈ s.executors, executor.action.name ∈ s.actions.map ActionRow.name
  owned : ∀ row ∈ s.actions, ∀ executor ∈ s.executors, executor.stage.owns = true →
    row.name = executor.action.name → row.InFlight
  apart : s.executors.Pairwise fun first second =>
    first.action.name = second.action.name → ¬ (first.stage.owns = true ∧ second.stage.owns = true)
  accounts : ∀ executor ∈ s.executors,
    Accounts s.sends.db.requests executor.action.name (deedsOf s.ledger executor.action.name) executor.stage
  answers : ∀ executor ∈ s.executors, ∀ row, executor.stage = .done (.executed row) →
    row ∈ s.actions ∧ row.state = .executed
  audit : AuditExact s.actions s.sends.db.auditLog

theorem accounts_of_free {requests : List SendRow} {name : String × String} {deeds : List Deed} {stage : Stage}
    (free : stage.owns = false) : Accounts requests name deeds stage := by
  cases stage <;> trivial

theorem grounded_once {requests : List SendRow} {name : String × String} {deeds : List Deed} {settlement : Settlement}
    (grounded : Grounded requests name deeds settlement) : deeds.countP Deed.performs ≤ 1 := by
  cases grounded with
  | refused failure => exact Nat.zero_le 1
  | answered request answer => exact Nat.le_refl 1
  | queued sendId status scheduledFor exists_ => exact Nat.le_refl 1
  | withdrawn sendId status text exists_ => exact Nat.le_refl 1

theorem rowSound_once {requests : List SendRow} {deeds : List Deed} {row : ActionRow}
    (sound : RowSound requests deeds row) : deeds.countP Deed.performs ≤ 1 := by
  cases sound with
  | idle _ _ _ none => simp [none]
  | inFlight _ once => exact once
  | settled _ grounded _ _ => exact grounded_once grounded

/-! ### Other writers of sends -/

theorem grounded_moves {old new : SendDb} {name : String × String} {deeds : List Deed} {settlement : Settlement}
    {inserted : SendRow → Prop} (moves : Moves inserted old new) (grounded : Grounded old.requests name deeds settlement) :
    Grounded new.requests name deeds settlement := by
  cases grounded with
  | refused failure => exact .refused failure
  | answered request answer => exact .answered request answer
  | queued sendId status scheduledFor exists_ =>
    obtain ⟨send, member, keyed, id⟩ := exists_
    obtain ⟨next, nextMember, becomes⟩ := moves_rows moves send member
    obtain ⟨organization, sameId⟩ := Prod.ext_iff.mp becomes.name
    refine .queued sendId status scheduledFor ⟨next, nextMember, ?_, sameId.trans id⟩
    simp only [SendRow.keyed, Bool.and_eq_true, beq_iff_eq] at keyed ⊢
    exact ⟨organization.trans keyed.1, becomes.idempotencyKey.trans keyed.2⟩
  | withdrawn sendId status text exists_ =>
    obtain ⟨send, member, named, cancelled⟩ := exists_
    obtain ⟨next, nextMember, becomes⟩ := moves_rows moves send member
    exact .withdrawn sendId status text ⟨next, nextMember, becomes.name.trans named, becomes.cancelled cancelled⟩

theorem accounts_moves {old new : SendDb} {name : String × String} {deeds : List Deed} {stage : Stage}
    {inserted : SendRow → Prop} (moves : Moves inserted old new) (accounts : Accounts old.requests name deeds stage) :
    Accounts new.requests name deeds stage := by
  cases stage with
  | cancelled sendId =>
    obtain ⟨same, send, member, named, cancelled⟩ := accounts
    obtain ⟨next, nextMember, becomes⟩ := moves_rows moves send member
    exact ⟨same, next, nextMember, becomes.name.trans named, becomes.cancelled cancelled⟩
  | settling settlement => exact grounded_moves moves accounts
  | _ => exact accounts

theorem rowSound_moves {old new : SendDb} {deeds : List Deed} {row : ActionRow}
    {inserted : SendRow → Prop} (moves : Moves inserted old new) (sound : RowSound old.requests deeds row) : RowSound new.requests deeds row := by
  cases sound with
  | idle executed failed result none => exact .idle executed failed result none
  | inFlight flying once => exact .inFlight flying once
  | settled settlement grounded state result => exact .settled settlement (grounded_moves moves grounded) state result

theorem sound_sends {s : State} {sends : Sends.State} {inserted : SendRow → Prop} (sound : Sound s)
    (moves : Moves inserted s.sends.db sends.db) :
    Sound { s with sends } := by
  obtain ⟨entries, logged, about⟩ := moves_audit moves
  refine { sound with rows := ?_, accounts := ?_, audit := ?_ }
  · intro row member
    exact rowSound_moves moves (sound.rows row member)
  · intro executor member
    exact accounts_moves moves (sound.accounts executor member)
  · rw [logged]
    exact audit_sends sound.audit about

/-! ### Steps of one executor -/

theorem sound_advance {s : State} {index : Nat} {executor : Executor} {stage : Stage} (sound : Sound s)
    (found : s.executors[index]? = some executor) (owns : stage.owns = true → executor.stage.owns = true)
    (accounts : Accounts s.sends.db.requests executor.action.name (deedsOf s.ledger executor.action.name) stage)
    (answers : ∀ row, stage = .done (.executed row) → row ∈ s.actions ∧ row.state = .executed) :
    Sound (s.advance index executor stage) := by
  have member : executor ∈ s.executors := List.mem_of_getElem? found
  refine { sound with known := ?_, owned := ?_, apart := ?_, accounts := ?_, answers := ?_ }
  · intro other present
    rcases List.mem_or_eq_of_mem_set present with old | rfl
    · exact sound.known other old
    · exact sound.known executor member
  · intro row stored other present owning same
    rcases List.mem_or_eq_of_mem_set present with old | rfl
    · exact sound.owned row stored other old owning same
    · exact sound.owned row stored executor member (owns owning) same
  · refine pairwise_set sound.apart found ?_ ?_
    · intro other _ apart same both
      exact apart same ⟨both.1, owns both.2⟩
    · intro other _ apart same both
      exact apart same ⟨owns both.1, both.2⟩
  · intro other present
    rcases List.mem_or_eq_of_mem_set present with old | rfl
    · exact sound.accounts other old
    · exact accounts
  · intro other present row done
    rcases List.mem_or_eq_of_mem_set present with old | rfl
    · exact sound.answers other old row done
    · exact answers row done

theorem deedsOf_note_same (ledger : List Effect) (name : String × String) (deed : Deed) :
    deedsOf (ledger ++ [⟨name, deed⟩]) name = deedsOf ledger name ++ [deed] := by
  simp [deedsOf]

theorem deedsOf_note_other {ledger : List Effect} {name other : String × String} {deed : Deed} (different : name ≠ other) :
    deedsOf (ledger ++ [⟨name, deed⟩]) other = deedsOf ledger other := by
  simp [deedsOf, different]

/-- The owner does something for its row. -/
theorem sound_deed {s : State} {index : Nat} {executor : Executor} {deed : Deed} {stage : Stage} (sound : Sound s)
    (found : s.executors[index]? = some executor) (owning : executor.stage.owns = true)
    (once : (deedsOf s.ledger executor.action.name ++ [deed]).countP Deed.performs ≤ 1)
    (accounts : Accounts s.sends.db.requests executor.action.name (deedsOf s.ledger executor.action.name ++ [deed]) stage)
    (undone : ∀ outcome, stage ≠ .done outcome) :
    Sound ((s.note executor.action deed).advance index executor stage) := by
  have member : executor ∈ s.executors := List.mem_of_getElem? found
  have rows : ∀ row ∈ s.actions,
      RowSound s.sends.db.requests (deedsOf (s.ledger ++ [⟨executor.action.name, deed⟩]) row.name) row := by
    intro row stored
    by_cases same : executor.action.name = row.name
    · rw [← same, deedsOf_note_same]
      exact .inFlight (sound.owned row stored executor member owning same.symm) once
    · rw [deedsOf_note_other same]
      exact sound.rows row stored
  have noted : ∀ effect ∈ s.ledger ++ [⟨executor.action.name, deed⟩], effect.name ∈ s.actions.map ActionRow.name := by
    intro effect present
    rcases List.mem_append.mp present with old | new
    · exact sound.noted effect old
    · rw [List.mem_singleton.mp new]
      exact sound.known executor member
  refine { sound with rows := rows, noted := noted, known := ?_, owned := ?_, apart := ?_, accounts := ?_, answers := ?_ }
  · intro other present
    rcases List.mem_or_eq_of_mem_set present with old | rfl
    · exact sound.known other old
    · exact sound.known executor member
  · intro row stored other present others same
    rcases List.mem_or_eq_of_mem_set present with old | rfl
    · exact sound.owned row stored other old others same
    · exact sound.owned row stored executor member owning same
  · refine pairwise_set sound.apart found ?_ ?_
    · intro other _ apart same both
      exact apart same ⟨both.1, owning⟩
    · intro other _ apart same both
      exact apart same ⟨owning, both.2⟩
  · intro other present
    show Accounts _ _ (deedsOf (s.ledger ++ [⟨executor.action.name, deed⟩]) other.action.name) _
    rcases mem_set_of_pairwise sound.apart found present with rfl | apart
    · rw [deedsOf_note_same]
      exact accounts
    · by_cases same : executor.action.name = other.action.name
      · refine accounts_of_free (Bool.eq_false_iff.mpr fun others => ?_)
        rcases apart with apart | apart
        · exact apart same.symm ⟨others, owning⟩
        · exact apart same ⟨owning, others⟩
      · rw [deedsOf_note_other same]
        rcases List.mem_or_eq_of_mem_set present with old | rfl
        · exact sound.accounts other old
        · exact (same rfl).elim
  · intro other present row done
    rcases List.mem_or_eq_of_mem_set present with old | rfl
    · exact sound.answers other old row done
    · exact (undone _ done).elim

/-! ### Transactions on the rows -/

theorem sound_transact {s : State} {filter : ActionRow → Bool} {change : ActionRow → ActionRow} {row : ActionRow}
    {entry : AuditEntry} (sound : Sound s) (found : s.actions.find? filter = some row)
    (name : ∀ row, (change row).name = row.name) (open_ : ∀ row, filter row = true → row.state.terminal = false)
    (free : ∀ row ∈ s.actions, filter row = true → ∀ executor ∈ s.executors, executor.stage.owns = true →
      row.name ≠ executor.action.name)
    (rows : ∀ row ∈ s.actions, filter row = true → RowSound s.sends.db.requests (deedsOf s.ledger row.name) row →
      RowSound s.sends.db.requests (deedsOf s.ledger row.name) (change row))
    (concerns : Concerns entry row) (fresh : row.shows entry.action = false)
    (shows : ∀ kind, (change row).shows kind = (row.shows kind || kind == entry.action)) :
    Sound (s.commit ⟨updateOne filter change s.actions, s.sends.db.auditLog ++ [entry]⟩) := by
  have names : (updateOne filter change s.actions).map ActionRow.name = s.actions.map ActionRow.name :=
    map_updateOne fun row _ _ => name row
  have changedRows : ∀ changed ∈ updateOne filter change s.actions,
      RowSound s.sends.db.requests (deedsOf s.ledger changed.name) changed := by
    refine forall_mem_updateOne sound.rows fun row stored matched before => ?_
    rw [name]
    exact rows row stored matched before
  refine { sound with unique := ?_, rows := changedRows, noted := ?_, known := ?_, owned := ?_, answers := ?_, audit := ?_ }
  · exact names ▸ sound.unique
  · intro effect present
    exact names ▸ sound.noted effect present
  · intro executor present
    exact names ▸ sound.known executor present
  · refine forall_mem_updateOne sound.owned fun row stored matched _ executor present owning same => ?_
    exact (free row stored matched executor present owning ((name row).symm.trans same)).elim
  · intro executor present answered done
    obtain ⟨stored, state⟩ := sound.answers executor present answered done
    refine ⟨?_, state⟩
    rcases mem_updateOne_of_mem stored with kept | ⟨matched, _⟩
    · exact kept
    · have closed := open_ answered matched
      rw [state] at closed
      cases closed
  · exact audit_update sound.audit found concerns (name row) fresh shows

theorem sound_stage {s : State} (sound : Sound s) (input : StageActionInput) {id : String} (shortId : String)
    (now : Time) (unused : ∀ row ∈ s.actions, row.id ≠ id) : Sound (s.commit (stageAction s.db input id shortId now)) := by
  unfold stageAction
  split
  · exact sound
  · have fresh : (stagedRow input id shortId now).name ∉ s.actions.map ActionRow.name := by
      intro taken
      obtain ⟨other, member, same⟩ := List.mem_map.mp taken
      exact unused other member (congrArg Prod.snd same)
    have untouched : deedsOf s.ledger (stagedRow input id shortId now).name = [] := by
      refine List.map_eq_nil_iff.mpr (List.filter_eq_nil_iff.mpr fun effect present same => ?_)
      exact fresh (beq_iff_eq.mp same ▸ sound.noted effect present)
    have names : ∀ name ∈ s.actions.map ActionRow.name,
        name ∈ (s.actions ++ [stagedRow input id shortId now]).map ActionRow.name := by
      intro name member
      rw [List.map_append]
      exact List.mem_append_left _ member
    refine { sound with unique := ?_, rows := ?_, noted := ?_, known := ?_, owned := ?_, answers := ?_, audit := ?_ }
    · show ((s.actions ++ [stagedRow input id shortId now]).map ActionRow.name).Nodup
      rw [List.map_append, List.nodup_append]
      refine ⟨sound.unique, by simp, ?_⟩
      intro name old _ new same
      obtain rfl : _ = (stagedRow input id shortId now).name := by simpa using new
      exact fresh (same ▸ old)
    · intro row member
      rcases List.mem_append.mp member with old | new
      · exact sound.rows row old
      · obtain rfl := List.mem_singleton.mp new
        exact .idle (by intro h; cases h) (by intro h; cases h) rfl untouched
    · exact fun effect present => names _ (sound.noted effect present)
    · exact fun executor present => names _ (sound.known executor present)
    · intro row member executor present owning same
      rcases List.mem_append.mp member with old | new
      · exact sound.owned row old executor present owning same
      · obtain rfl := List.mem_singleton.mp new
        exact (fresh (same ▸ sound.known executor present)).elim
    · intro executor present row done
      obtain ⟨stored, state⟩ := sound.answers executor present row done
      exact ⟨List.mem_append_left _ stored, state⟩
    · refine audit_insert sound.audit ⟨rfl, rfl⟩ fun kind => ?_
      cases kind <;> rfl

theorem sound_decide {s : State} (sound : Sound s) {input : DecideActionInput} {now : Time} {db : ActionDb}
    {row : ActionRow} (decided : decideAction s.db input now = some (db, row)) : Sound (s.commit db) := by
  obtain ⟨row, found, rfl, rfl⟩ := transact_cases decided
  have pending : ∀ row, undecided input row = true → row.state = .pending := by
    intro row matched
    simp only [undecided, Bool.and_eq_true, beq_iff_eq] at matched
    exact matched.1.2
  have state := pending row (by simpa using List.find?_some found)
  refine sound_transact sound found (fun _ => rfl) ?_ ?_ ?_ ⟨rfl, rfl⟩ ?_ ?_
  · intro row matched
    rw [pending row matched]
    rfl
  · intro row stored matched executor present owning same
    have flying := sound.owned row stored executor present owning same
    rw [ActionRow.InFlight, pending row matched] at flying
    cases flying.1
  · intro row stored matched before
    have state := pending row matched
    cases before with
    | idle _ _ result none =>
      refine .idle ?_ ?_ result none <;> simp only [ActionRow.decide] <;> cases input.decision <;> rintro ⟨⟩
    | inFlight flying _ =>
      rw [ActionRow.InFlight, state] at flying
      cases flying.1
    | settled settlement _ same _ =>
      rw [state] at same
      unfold Settlement.state at same
      split at same <;> cases same
  · simp only [actionAudit]
    cases input.decision <;> simp [PendingActionDecision.audit, ActionRow.shows, state]
  · intro kind
    simp only [actionAudit]
    cases decision : input.decision <;> cases kind <;>
      simp only [PendingActionDecision.audit, ActionRow.shows, ActionRow.decide, PendingActionDecision.state, decision,
        state] <;> first | rfl | exact (Bool.or_false _).symm

theorem approvedAs_iff {action row : ActionRow} :
    action.approvedAs row = true ↔ row.name = action.name ∧ row.state = .approved := by
  simp [ActionRow.approvedAs, ActionRow.name]

theorem concerns_copy {action row : ActionRow} (name : row.name = action.name) (actor : Actor) (kind : AuditAction)
    (details : AuditMeta) (ip : String) : Concerns (actionAudit action actor kind details ip) row := by
  obtain ⟨organization, id⟩ := Prod.ext_iff.mp name
  exact ⟨organization.symm, congrArg (AuditTarget.mk .action) id.symm⟩

/-- A won claim makes its executor the row's owner. -/
theorem sound_claim {s : State} {index : Nat} {executor : Executor} {now : Time} {db : ActionDb} {after : ActionRow}
    (sound : Sound s) (found : s.executors[index]? = some executor)
    (won : claim s.db executor.action executor.ip now = some (db, after)) :
    Sound ((s.commit db).advance index executor .claimed) := by
  have member : executor ∈ s.executors := List.mem_of_getElem? found
  obtain ⟨row, rowFound, rfl, rfl⟩ := transact_cases won
  have admitted : ∀ row, (executor.action.approvedAs row && row.result == none) = true →
      row.name = executor.action.name ∧ row.state = .approved ∧ row.result = none := by
    intro row matched
    obtain ⟨approved, none⟩ := Bool.and_eq_true_iff.mp matched
    exact ⟨(approvedAs_iff.mp approved).1, (approvedAs_iff.mp approved).2, beq_iff_eq.mp none⟩
  have stored : row ∈ s.actions := List.mem_of_find?_eq_some rowFound
  obtain ⟨name, state, result⟩ := admitted row (by simpa using List.find?_some rowFound)
  have unowned : ∀ row ∈ s.actions, row.result = none → ∀ other ∈ s.executors, other.stage.owns = true →
      row.name ≠ other.action.name := by
    intro row stored result other present owning same
    have flying := sound.owned row stored other present owning same
    rw [ActionRow.InFlight, result] at flying
    cases flying.2
  have untouched : ∀ row, row.result = none → RowSound s.sends.db.requests (deedsOf s.ledger row.name) row →
      deedsOf s.ledger row.name = [] := by
    intro row result before
    cases before with
    | idle _ _ _ none => exact none
    | inFlight flying _ =>
      rw [ActionRow.InFlight, result] at flying
      cases flying.2
    | settled settlement _ _ same =>
      rw [result] at same
      cases same
  have committed : Sound (s.commit ⟨updateOne (fun row => executor.action.approvedAs row && row.result == none)
      (ActionRow.start now) s.actions, s.sends.db.auditLog ++ [attemptAudit executor.action executor.ip]⟩) := by
    refine sound_transact sound rowFound (fun _ => rfl) ?_ ?_ ?_ (concerns_copy name _ _ _ _) ?_ ?_
    · intro row matched
      rw [(admitted row matched).2.1]
      rfl
    · intro row stored matched other present owning
      exact unowned row stored (admitted row matched).2.2 other present owning
    · intro row _ matched before
      refine .inFlight ⟨(admitted row matched).2.1, rfl⟩ ?_
      rw [untouched row (admitted row matched).2.2 before]
      exact Nat.zero_le 1
    · simp [attemptAudit, actionAudit, ActionRow.shows, result]
    · intro kind
      cases kind <;> simp only [attemptAudit, actionAudit, ActionRow.shows, ActionRow.start, result] <;>
        first | rfl | exact (Bool.or_false _).symm
  have flying : ∀ changed ∈ updateOne (fun row => executor.action.approvedAs row && row.result == none)
      (ActionRow.start now) s.actions, changed.name = executor.action.name → changed.InFlight := by
    intro changed present same
    rw [updateOne_eq_updateMany (k := executor.action.name) sound.unique fun row _ matched => (admitted row matched).1] at present
    obtain ⟨old, oldStored, rfl⟩ := mem_updateMany.mp present
    split
    · rename_i matched
      exact ⟨(admitted old matched).2.1, rfl⟩
    · rename_i unmatched
      rw [if_neg unmatched] at same
      have equal := List.inj_on_of_nodup_map sound.unique oldStored stored (same.trans name.symm)
      exact (unmatched (equal ▸ by simpa using List.find?_some rowFound)).elim
  refine { committed with known := ?_, owned := ?_, apart := ?_, accounts := ?_, answers := ?_ }
  · intro other present
    rcases List.mem_or_eq_of_mem_set present with old | rfl
    · exact committed.known other old
    · exact committed.known executor member
  · intro changed present other listed owning same
    rcases List.mem_or_eq_of_mem_set listed with old | rfl
    · exact committed.owned changed present other old owning same
    · exact flying changed present same
  · have free : ∀ other ∈ s.executors, executor.action.name = other.action.name → other.stage.owns = false := by
      intro other present same
      exact Bool.eq_false_iff.mpr fun owning => unowned row stored result other present owning (name.trans same)
    refine pairwise_set sound.apart found ?_ ?_
    · intro other present _ same both
      rw [free other present same.symm] at both
      cases both.1
    · intro other present _ same both
      rw [free other present same] at both
      cases both.2
  · intro other present
    rcases List.mem_or_eq_of_mem_set present with old | rfl
    · exact committed.accounts other old
    · show deedsOf s.ledger executor.action.name = []
      rw [← name]
      exact untouched row result (sound.rows row stored)
  · intro other present answered done
    rcases List.mem_or_eq_of_mem_set present with old | rfl
    · exact committed.answers other old answered done
    · cases done

/-- The owner stores its outcome, and owns the row no more. -/
theorem sound_settle {s : State} {index : Nat} {executor : Executor} {settlement : Settlement} {now : Time}
    {db : ActionDb} {after : ActionRow} (sound : Sound s) (found : s.executors[index]? = some executor)
    (settling : executor.stage = .settling settlement)
    (stored : settle s.db executor.action settlement executor.ip now = some (db, after)) :
    Sound ((s.commit db).advance index executor (.done (outcome executor.action settlement (some after)))) := by
  have member : executor ∈ s.executors := List.mem_of_getElem? found
  have owning : executor.stage.owns = true := by rw [settling]; rfl
  have grounded : Grounded s.sends.db.requests executor.action.name (deedsOf s.ledger executor.action.name) settlement := by
    have accounts := sound.accounts executor member
    rwa [settling] at accounts
  obtain ⟨row, rowFound, afterSame, dbSame⟩ := transact_cases stored
  have admitted : ∀ row, (executor.action.approvedAs row && row.result == some .running) = true →
      row.name = executor.action.name ∧ row.state = .approved ∧ row.result = some .running := by
    intro row matched
    obtain ⟨approved, running⟩ := Bool.and_eq_true_iff.mp matched
    exact ⟨(approvedAs_iff.mp approved).1, (approvedAs_iff.mp approved).2, beq_iff_eq.mp running⟩
  obtain ⟨name, state, result⟩ := admitted row (by simpa using List.find?_some rowFound)
  have left : Sound (s.advance index executor .stopped) :=
    sound_advance sound found (by intro h; cases h) trivial (by intro _ h; cases h)
  have placed : (s.advance index executor .stopped).executors[index]? = some { executor with stage := .stopped } := by
    have inside : index < s.executors.length := (List.getElem?_eq_some_iff.mp found).1
    simp [State.advance, inside]
  have committed : Sound ((s.advance index executor .stopped).commit db) := by
    rw [dbSame]
    refine sound_transact left rowFound (fun _ => rfl) ?_ ?_ ?_ (concerns_copy name _ _ _ _) ?_ ?_
    · intro row matched
      rw [(admitted row matched).2.1]
      rfl
    · intro row _ matched other present others same
      rcases mem_set_of_pairwise sound.apart found present with rfl | apart | apart
      · cases others
      · exact apart (same.symm.trans (admitted row matched).1) ⟨others, owning⟩
      · exact apart ((admitted row matched).1.symm.trans same) ⟨owning, others⟩
    · intro row _ matched _
      refine .settled settlement ?_ rfl rfl
      show Grounded s.sends.db.requests row.name (deedsOf s.ledger row.name) settlement
      rw [(admitted row matched).1]
      exact grounded
    · simp only [outcomeAudit, actionAudit, Settlement.audit]
      cases settlement.failure <;> simp [ActionRow.shows, state]
    · intro kind
      simp only [outcomeAudit, actionAudit, Settlement.audit]
      cases failure : settlement.failure <;> cases kind <;>
        simp [ActionRow.shows, ActionRow.finish, Settlement.state, failure, state, result] <;> rfl
  have answered : ∀ reported, outcome executor.action settlement (some after) = .executed reported →
      reported ∈ db.actions ∧ reported.state = .executed := by
    intro reported same
    rw [afterSame] at same
    unfold outcome at same
    cases failure : settlement.failure with
    | none =>
      rw [failure] at same
      cases same
      rw [dbSame]
      exact ⟨mem_updateOne_found rowFound, by simp [ActionRow.finish, Settlement.state, failure]⟩
    | some failed =>
      rw [failure] at same
      cases same
  have whole : Sound (((s.advance index executor .stopped).commit db).advance index { executor with stage := .stopped }
      (.done (outcome executor.action settlement (some after)))) := by
    refine sound_advance committed placed (by intro h; cases h) trivial ?_
    intro reported done
    exact answered reported (Stage.done.inj done)
  simpa [State.advance, State.commit] using whole

/-! ### Every step -/

theorem sound_begin [Datetimes] {s : State} {index : Nat} {executor : Executor} (sound : Sound s)
    (found : s.executors[index]? = some executor) (claimed : executor.stage = .claimed) :
    Sound (s.advance index executor (begin s.sends.db.requests executor.action)) := by
  have untouched : deedsOf s.ledger executor.action.name = [] := by
    have accounts := sound.accounts executor (List.mem_of_getElem? found)
    rwa [claimed] at accounts
  have refused : ∀ failure, Grounded s.sends.db.requests executor.action.name
      (deedsOf s.ledger executor.action.name) (refuse failure) := by
    intro failure
    rw [untouched]
    exact .refused failure
  refine sound_advance sound found (by rw [claimed]; exact fun _ => rfl) ?_ ?_
  · unfold begin
    dsimp only
    repeat' split
    all_goals first | exact refused _ | exact untouched
  · intro row done
    unfold begin at done
    dsimp only at done
    repeat' split at done
    all_goals cases done

theorem cancelled_named {db : SendDb} {organizationId sendId : String} {actorIP : String} {actor : Actor} {now : Time}
    (changed : (transitionSend db organizationId sendId .cancel actorIP actor now).2 = true) :
    ∃ send ∈ (transitionSend db organizationId sendId .cancel actorIP actor now).1.requests,
      send.name = (organizationId, sendId) ∧ send.status = .cancelled := by
  unfold transitionSend at changed ⊢
  dsimp only at changed ⊢
  split
  · rename_i matched
    obtain ⟨send, found⟩ := List.find?_isSome.mpr (List.any_eq_true.mp matched) |> Option.isSome_iff_exists.mp
    have named := (Bool.and_eq_true_iff.mp (by simpa using List.find?_some found)).1
    exact ⟨_, mem_updateOne_found found, named_iff.mp named, rfl⟩
  · rename_i unmatched
    rw [if_neg unmatched] at changed
    cases changed

theorem sound_readBack {s : State} {index : Nat} {executor : Executor} (sound : Sound s)
    (found : s.executors[index]? = some executor) (owning : executor.stage.owns = true) :
    Sound (s.advance index executor (readBack s.sends.db executor.action executor.stage)) := by
  have accounts := sound.accounts executor (List.mem_of_getElem? found)
  refine sound_advance sound found (fun _ => owning) ?_ ?_
  · unfold readBack
    split
    · rename_i sendId stage
      rw [stage] at accounts
      obtain ⟨same, cancelled⟩ := accounts
      split
      · rename_i send read
        have named := named_iff.mp (by simpa using List.find?_some read)
        obtain rfl : send.id = sendId := congrArg Prod.snd named
        rw [same]
        exact .withdrawn send.id send.status send.text cancelled
      · trivial
    · rename_i stage
      rw [stage] at accounts
      have same : deedsOf s.ledger executor.action.name = [.created] := accounts
      split
      · rename_i send read
        have keyed : send.keyed executor.action.organizationId (sendKey executor.action) = true := List.find?_some read
        rw [same]
        exact .queued send.id send.status send.scheduledFor ⟨send, List.mem_of_find?_eq_some read, keyed, rfl⟩
      · trivial
    · exact accounts
  · intro row done
    unfold readBack at done
    split at done
    · split at done <;> cases done
    · split at done <;> cases done
    · rw [done] at owning
      cases owning

theorem sound_refused {s : State} {index : Nat} {executor : Executor} (sound : Sound s)
    (found : s.executors[index]? = some executor) (failure : Failure) :
    Sound (s.advance index executor (.done (.refused failure))) :=
  sound_advance sound found (by intro h; cases h) trivial (by intro _ h; cases h)

theorem act_sound [Datetimes] {s : State} {index : Nat} {executor : Executor} (sound : Sound s)
    (found : s.executors[index]? = some executor) (action : Action) : Sound (act s index executor action) := by
  have accounts := sound.accounts executor (List.mem_of_getElem? found)
  unfold act
  split
  · -- claim
    split
    · split
      · exact sound_refused sound found notApproved
      · rename_i won
        exact sound_claim sound found won
    · exact sound_refused sound found notApproved
  · -- begin
    rename_i claimed
    exact sound_begin sound found claimed
  · -- cancel
    rename_i now sendId stage
    rw [stage] at accounts
    have untouched : deedsOf s.ledger executor.action.name = [] := accounts
    have owning : executor.stage.owns = true := by rw [stage]; rfl
    dsimp only
    split
    · rename_i changed
      have written : Sound (s.write (transitionSend s.sends.db executor.action.organizationId sendId .cancel executor.ip
          .assistant now).1) := sound_sends sound (transitionSend_moves (fun _ => False) _ _ _ _ _ _ _)
      refine sound_deed written found owning ?_ ?_ (by intro _ h; cases h)
      · show (deedsOf s.ledger executor.action.name ++ [Deed.cancelled sendId]).countP Deed.performs ≤ 1
        rw [untouched]
        exact Nat.le_refl 1
      · show deedsOf s.ledger executor.action.name ++ [Deed.cancelled sendId] = [.cancelled sendId] ∧ _
        rw [untouched]
        exact ⟨rfl, cancelled_named changed⟩
    · refine sound_advance sound found (fun _ => owning) ?_ (by intro _ h; cases h)
      rw [untouched]
      exact .refused nothingQueued
  · -- create
    rename_i objectId sendId now text scheduledFor stage
    rw [stage] at accounts
    have untouched : deedsOf s.ledger executor.action.name = [] := accounts
    have owning : executor.stage.owns = true := by rw [stage]; rfl
    split
    · have written : Sound (s.write (createSend s.sends.db objectId sendId
          (sendInput executor.action executor.ip text scheduledFor) now)) :=
        sound_sends sound (createSend_moves _ _ _ _ _)
      refine sound_deed written found owning ?_ ?_ (by intro _ h; cases h)
      · show (deedsOf s.ledger executor.action.name ++ [Deed.created]).countP Deed.performs ≤ 1
        rw [untouched]
        exact Nat.le_refl 1
      · show deedsOf s.ledger executor.action.name ++ [Deed.created] = [.created]
        rw [untouched]
        rfl
    · exact sound
  · -- call
    rename_i request stage
    rw [stage] at accounts
    have untouched : deedsOf s.ledger executor.action.name = [] := accounts
    refine sound_deed sound found (by rw [stage]; rfl) ?_ ?_ (by intro _ h; cases h)
    · rw [untouched]
      exact Nat.le_refl 1
    · rw [untouched]
      rfl
  · -- answer
    rename_i answer request stage
    rw [stage] at accounts
    have called : deedsOf s.ledger executor.action.name = [.called request] := accounts
    refine sound_deed sound found (by rw [stage]; rfl) ?_ ?_ (by intro _ h; cases h)
    · rw [called]
      exact Nat.le_refl 1
    · rw [called]
      exact .answered request answer
  · -- readBack, of a cancelled send
    rename_i sendId stage
    rw [← stage]
    exact sound_readBack sound found (by rw [stage]; rfl)
  · -- readBack, of a created send
    rename_i stage
    rw [← stage]
    exact sound_readBack sound found (by rw [stage]; rfl)
  · -- settle
    rename_i now settlement stage
    split
    · exact sound_advance sound found (by intro h; cases h) trivial (by intro _ h; cases h)
    · rename_i stored
      exact sound_settle sound found stage stored
  · exact sound
  · exact sound_advance sound found (by intro h; cases h) trivial (by intro _ h; cases h)
  · exact sound

theorem sound_push {s : State} {executor : Executor} (sound : Sound s)
    (known : executor.action.name ∈ s.actions.map ActionRow.name) (called : executor.stage = .called) :
    Sound { s with executors := s.executors ++ [executor] } := by
  have idle : executor.stage.owns = false := by
    rw [called]
    rfl
  refine { sound with known := ?_, owned := ?_, apart := ?_, accounts := ?_, answers := ?_ }
  · intro other present
    rcases List.mem_append.mp present with old | new
    · exact sound.known other old
    · rw [List.mem_singleton.mp new]
      exact known
  · intro row stored other present owning same
    rcases List.mem_append.mp present with old | new
    · exact sound.owned row stored other old owning same
    · rw [List.mem_singleton.mp new, idle] at owning
      cases owning
  · refine List.pairwise_append.mpr ⟨sound.apart, List.pairwise_singleton _ _, ?_⟩
    intro other _ new isNew _ both
    rw [List.mem_singleton.mp isNew, idle] at both
    cases both.2
  · intro other present
    rcases List.mem_append.mp present with old | new
    · exact sound.accounts other old
    · rw [List.mem_singleton.mp new]
      exact accounts_of_free idle
  · intro other present answered done
    rcases List.mem_append.mp present with old | new
    · exact sound.answers other old answered done
    · rw [List.mem_singleton.mp new, called] at done
      cases done

theorem step_sound [Datetimes] (s : State) (e : Event) (sound : Sound s) : Sound (step s e) := by
  cases e with
  | sends e => exact sound_sends sound (step_moves s.sends e)
  | stage input id shortId now =>
    unfold step
    dsimp only
    split
    · rename_i unused
      refine sound_stage sound input shortId now fun row member => ?_
      simpa using List.all_eq_true.mp unused row member
    · exact sound
  | decide input now =>
    unfold step
    dsimp only
    split
    · exact sound
    · rename_i decided
      exact sound_decide sound decided
  | execute organizationId id ip =>
    unfold step
    dsimp only
    split
    · exact sound
    · rename_i row found
      have member : row ∈ s.actions := List.mem_of_find?_eq_some found
      exact sound_push sound (List.mem_map_of_mem member) rfl
  | executor index action =>
    unfold step
    dsimp only
    split
    · exact sound
    · rename_i executor found
      exact act_sound sound found action

/-! ### Terminal states -/

theorem act_terminal [Datetimes] {s : State} {row : ActionRow} (member : row ∈ s.actions)
    (terminal : row.state.terminal = true) (index : Nat) (executor : Executor) (action : Action) :
    row ∈ (act s index executor action).actions := by
  have unapproved : executor.action.approvedAs row = false := by
    refine Bool.eq_false_iff.mpr fun approved => ?_
    rw [(approvedAs_iff.mp approved).2] at terminal
    cases terminal
  unfold act
  split
  · split
    · split
      · exact member
      · rename_i won
        exact transact_keeps won member (by rw [unapproved]; rfl)
    · exact member
  · exact member
  · dsimp only
    split <;> exact member
  · split <;> exact member
  · exact member
  · exact member
  · exact member
  · exact member
  · split
    · exact member
    · rename_i stored
      exact transact_keeps stored member (by rw [unapproved]; rfl)
  · exact member
  · exact member
  · exact member

theorem step_terminal [Datetimes] {s : State} {row : ActionRow} (member : row ∈ s.actions)
    (terminal : row.state.terminal = true) (e : Event) : row ∈ (step s e).actions := by
  unfold step
  split
  · exact member
  · split
    · unfold State.commit stageAction
      split
      · exact member
      · exact List.mem_append_left _ member
    · exact member
  · split
    · exact member
    · rename_i decided
      refine transact_keeps decided member (Bool.eq_false_iff.mpr fun matched => ?_)
      simp only [undecided, Bool.and_eq_true, beq_iff_eq] at matched
      rw [matched.1.2] at terminal
      cases terminal
  · split <;> exact member
  · split
    · exact member
    · exact act_terminal member terminal _ _ _

theorem run_terminal [Datetimes] {s : State} {row : ActionRow} (member : row ∈ s.actions)
    (terminal : row.state.terminal = true) (events : List Event) : row ∈ (run step s events).actions :=
  run_invariant (I := fun s : State => row ∈ s.actions) (fun _ e member => step_terminal member terminal e) member events

/-! ### Runs -/

structure Truthful (s : State) : Prop where
  once : ∀ name, (deedsOf s.ledger name).countP Deed.performs ≤ 1
  approved : ∀ name, deedsOf s.ledger name ≠ [] → s.sends.db.auditLog.countP (audits .actionApproved name) = 1
  executed : ∀ row ∈ s.actions, row.state = .executed →
    (∃ request data, deedsOf s.ledger row.name = [.called request, .answered (.ok data)] ∧ data.ok = true ∧
      row.result = some (.answer data)) ∨
    (deedsOf s.ledger row.name = [.created] ∧
      ∃ send ∈ s.sends.db.requests, send.keyed row.organizationId (sendKey row) = true) ∨
    (∃ send ∈ s.sends.db.requests, deedsOf s.ledger row.name = [.cancelled send.id] ∧
      send.organizationId = row.organizationId ∧ send.status = .cancelled)
  failed : ∀ row ∈ s.actions, row.state = .failed →
    (∃ result, row.result = some result ∧ result.code.isSome = true ∧ result.ok ≠ some true) ∧
    ∀ data, .answered (.ok data) ∈ deedsOf s.ledger row.name → data.ok = false
  answers : ∀ executor ∈ s.executors, ∀ row, executor.stage = .done (.executed row) →
    row ∈ s.actions ∧ row.state = .executed
  audit : ∀ row ∈ s.actions, ∀ kind,
    s.sends.db.auditLog.countP (audits kind row.name) = if row.shows kind then 1 else 0
  unstaged : ∀ name, name ∉ s.actions.map ActionRow.name → ∀ kind, s.sends.db.auditLog.countP (audits kind name) = 0

theorem sound_audit {s : State} (sound : Sound s) {row : ActionRow} (member : row ∈ s.actions) (kind : AuditAction) :
    s.sends.db.auditLog.countP (audits kind row.name) = if row.shows kind then 1 else 0 := by
  have one := filter_unique sound.unique member
  rw [sound.audit kind row.name]
  have swapped : (s.actions.countP fun other => other.name == row.name && other.shows kind) =
      (s.actions.filter fun other => other.name == row.name).countP (ActionRow.shows kind) := by
    rw [List.countP_filter]
    exact congrArg (List.countP · s.actions) (funext fun other => Bool.and_comm _ _)
  rw [swapped, one, List.countP_singleton]

theorem sound_executed {s : State} {row : ActionRow} (sound : RowSound s.sends.db.requests (deedsOf s.ledger row.name) row)
    (executed : row.state = .executed) :
    (∃ request data, deedsOf s.ledger row.name = [.called request, .answered (.ok data)] ∧ data.ok = true ∧
      row.result = some (.answer data)) ∨
    (deedsOf s.ledger row.name = [.created] ∧
      ∃ send ∈ s.sends.db.requests, send.keyed row.organizationId (sendKey row) = true) ∨
    (∃ send ∈ s.sends.db.requests, deedsOf s.ledger row.name = [.cancelled send.id] ∧
      send.organizationId = row.organizationId ∧ send.status = .cancelled) := by
  cases sound with
  | idle notExecuted _ _ _ => exact (notExecuted executed).elim
  | inFlight flying _ =>
    rw [flying.1] at executed
    cases executed
  | settled settlement grounded state result =>
    rw [executed] at state
    generalize deedsOf s.ledger row.name = deeds at grounded
    cases grounded with
    | refused failure => cases state
    | answered request answer =>
      cases answer with
      | error failure => cases state
      | ok data =>
        cases ok : data.ok with
        | true =>
          rw [answerSettlement_done ok] at result
          exact Or.inl ⟨request, data, rfl, ok, result⟩
        | false =>
          rw [answerSettlement_refused ok] at state
          cases state
    | queued sendId status scheduledFor exists_ =>
      obtain ⟨send, member, keyed, _⟩ := exists_
      exact Or.inr (Or.inl ⟨rfl, send, member, keyed⟩)
    | withdrawn sendId status text exists_ =>
      obtain ⟨send, member, named, cancelled⟩ := exists_
      obtain ⟨organization, id⟩ := Prod.ext_iff.mp named
      refine Or.inr (Or.inr ⟨send, member, ?_, organization, cancelled⟩)
      exact congrArg (fun id => [Deed.cancelled id]) id.symm

theorem sound_failed {s : State} {row : ActionRow} (sound : RowSound s.sends.db.requests (deedsOf s.ledger row.name) row)
    (failed : row.state = .failed) :
    (∃ result, row.result = some result ∧ result.code.isSome = true ∧ result.ok ≠ some true) ∧
    ∀ data, .answered (.ok data) ∈ deedsOf s.ledger row.name → data.ok = false := by
  cases sound with
  | idle _ notFailed _ _ => exact (notFailed failed).elim
  | inFlight flying _ =>
    rw [flying.1] at failed
    cases failed
  | settled settlement grounded state result =>
    rw [failed] at state
    generalize deedsOf s.ledger row.name = deeds at grounded
    cases grounded with
    | refused failure => exact ⟨⟨_, result, rfl, by intro h; cases h⟩, fun _ member => by cases member⟩
    | answered request answer =>
      cases answer with
      | error failure => exact ⟨⟨_, result, rfl, by intro h; cases h⟩, fun _ member => by simp at member⟩
      | ok data =>
        cases ok : data.ok with
        | true =>
          rw [answerSettlement_done ok] at state
          cases state
        | false =>
          rw [answerSettlement_refused ok] at result
          refine ⟨⟨_, result, rfl, ?_⟩, ?_⟩
          · simp [ActionResult.ok, ok]
          · intro other member
            obtain rfl : other = data := by simpa using member
            exact ok
    | queued sendId status scheduledFor exists_ => cases state
    | withdrawn sendId status text exists_ => cases state

theorem sound_truthful {s : State} (sound : Sound s) : Truthful s := by
  have once : ∀ name, (deedsOf s.ledger name).countP Deed.performs ≤ 1 := by
    intro name
    by_cases staged : name ∈ s.actions.map ActionRow.name
    · obtain ⟨row, member, rfl⟩ := List.mem_map.mp staged
      exact rowSound_once (sound.rows row member)
    · have untouched : deedsOf s.ledger name = [] := by
        refine List.map_eq_nil_iff.mpr (List.filter_eq_nil_iff.mpr fun effect present same => ?_)
        exact staged (beq_iff_eq.mp same ▸ sound.noted effect present)
      rw [untouched]
      exact Nat.zero_le 1
  have approved : ∀ name, deedsOf s.ledger name ≠ [] →
      s.sends.db.auditLog.countP (audits .actionApproved name) = 1 := by
    intro name touched
    obtain ⟨deed, present⟩ := List.exists_mem_of_ne_nil _ touched
    obtain ⟨effect, filtered, rfl⟩ := List.mem_map.mp present
    obtain ⟨noted, same⟩ := List.mem_filter.mp filtered
    obtain ⟨row, member, rowName⟩ := List.mem_map.mp (sound.noted effect noted)
    obtain rfl : row.name = name := rowName.trans (beq_iff_eq.mp same)
    rw [sound_audit sound member]
    cases sound.rows row member with
    | idle _ _ _ none => exact (touched none).elim
    | inFlight flying _ => simp [ActionRow.shows, flying.1]
    | settled settlement _ state _ =>
      unfold Settlement.state at state
      split at state <;> simp [ActionRow.shows, state]
  refine ⟨once, approved, ?_, ?_, sound.answers, ?_, ?_⟩
  · exact fun row member => sound_executed (sound.rows row member)
  · exact fun row member => sound_failed (sound.rows row member)
  · exact fun row member kind => sound_audit sound member kind
  · intro name unstaged kind
    rw [sound.audit kind name]
    refine List.countP_eq_zero.mpr fun row member shown => unstaged ?_
    simp only [Bool.and_eq_true, beq_iff_eq] at shown
    exact List.mem_map.mpr ⟨row, member, shown.1⟩

theorem start_sound (messages : List Ingest.MessageRow) : Sound (start messages) := by
  refine ⟨List.nodup_nil, ?_, ?_, ?_, ?_, List.Pairwise.nil, ?_, ?_, fun _ _ => rfl⟩ <;> simp [start]

/-- Every run of deciders, executors and the send system tells the truth about every staged row, and no
row leaves `rejected`, `executed` or `failed`. -/
theorem staged_actions_truthful [Datetimes] (messages : List Ingest.MessageRow) (events : List Event) :
    Truthful (run step (start messages) events) ∧
    ∀ row ∈ (run step (start messages) events).actions, row.state.terminal = true →
      ∀ later, row ∈ (run step (start messages) (events ++ later)).actions := by
  have sound : Sound (run step (start messages) events) := run_invariant step_sound (start_sound messages) events
  refine ⟨sound_truthful sound, fun row member terminal later => ?_⟩
  rw [run_append]
  exact run_terminal member terminal later

/-- Two callers race for one approved rename, and the owner has rejected another action. -/
def renameRace : List Event :=
  let rename : StageActionInput := ⟨"o", "i", "1@g.us", "group_rename", .obj [("name", .str " Team ")], "Rename", "agent", "internal"⟩
  [.stage rename "a" "AAAAAA" 1, .stage rename "b" "BBBBBB" 2, .decide ⟨.shortId "bbb-bbb", "o", .reject, "owner", "worker"⟩ 3,
    .decide ⟨.id "a", "o", .approve, "owner", "::1"⟩ 4, .execute "o" "a" "::1", .execute "o" "a" "::1", .executor 0 (.claim 5),
    .executor 1 (.claim 6), .executor 0 .begin, .executor 1 .begin, .executor 0 .call, .executor 1 .call,
    .executor 0 (.answer (.ok ⟨true, none, none, none, none⟩)), .executor 0 (.settle 7)]

example :
    letI : Datetimes := ⟨fun _ => none⟩
    let s := run step (start []) renameRace
    (s.actions.map ActionRow.state, s.ledger.length, s.sends.db.auditLog.map AuditEntry.action) =
      ([.executed, .rejected], 2,
        [.actionStaged, .actionStaged, .actionRejected, .actionApproved, .actionExecutionAttempted, .actionExecuted]) := by
  decide

end GroupButler.Actions
