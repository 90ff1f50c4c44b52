import GroupButler.Actions.Model

/-!
# The audit trail of staged actions

A transition of a row and its audit row are one commit: the trail holds, for each row and each kind of
transition, as many rows as the stored state says were made.
-/

namespace GroupButler.Actions
open Foundation Store

/-- The row is past the transition that writes audit rows of this kind. -/
def ActionRow.shows (kind : AuditAction) (row : ActionRow) : Bool :=
  match kind with
  | .actionStaged => true
  | .actionApproved => row.state == .approved || row.state == .executed || row.state == .failed
  | .actionRejected => row.state == .rejected
  | .actionExecutionAttempted => row.result.isSome
  | .actionExecuted => row.state == .executed
  | .actionExecutionFailed => row.state == .failed
  | _ => false

def audits (kind : AuditAction) (name : String × String) (entry : AuditEntry) : Bool :=
  entry.action == kind && entry.organizationId == name.1 && entry.target == ⟨.action, name.2⟩

def AuditExact (actions : List ActionRow) (auditLog : List AuditEntry) : Prop :=
  ∀ kind name, auditLog.countP (audits kind name) = actions.countP fun row => row.name == name && row.shows kind

/-- The entry is about this row. -/
def Concerns (entry : AuditEntry) (row : ActionRow) : Prop :=
  entry.organizationId = row.organizationId ∧ entry.target = ⟨.action, row.id⟩

theorem audits_of_concerns {entry : AuditEntry} {row : ActionRow} (concerns : Concerns entry row) (kind : AuditAction)
    (name : String × String) : audits kind name entry = (row.name == name && kind == entry.action) := by
  obtain ⟨organization, target⟩ := concerns
  rw [Bool.eq_iff_iff]
  simp only [audits, organization, target, ActionRow.name, Bool.and_eq_true, beq_iff_eq, Prod.ext_iff,
    AuditTarget.mk.injEq, true_and]
  constructor
  · rintro ⟨⟨kindSame, organizationSame⟩, idSame⟩
    exact ⟨⟨organizationSame, idSame⟩, kindSame.symm⟩
  · rintro ⟨⟨organizationSame, idSame⟩, kindSame⟩
    exact ⟨⟨kindSame.symm, organizationSame⟩, idSame⟩

theorem audit_sends {actions : List ActionRow} {auditLog entries : List AuditEntry} (exact_ : AuditExact actions auditLog)
    (sends : ∀ entry ∈ entries, entry.target.type = .send) : AuditExact actions (auditLog ++ entries) := by
  intro kind name
  have none : entries.countP (audits kind name) = 0 := by
    refine List.countP_eq_zero.mpr fun entry member audited => ?_
    have type := sends entry member
    simp only [audits, Bool.and_eq_true, beq_iff_eq] at audited
    rw [audited.2] at type
    cases type
  rw [List.countP_append, none, Nat.add_zero]
  exact exact_ kind name

theorem audit_insert {actions : List ActionRow} {auditLog : List AuditEntry} {row : ActionRow} {entry : AuditEntry}
    (exact_ : AuditExact actions auditLog) (concerns : Concerns entry row)
    (shows : ∀ kind, row.shows kind = (kind == entry.action)) : AuditExact (actions ++ [row]) (auditLog ++ [entry]) := by
  intro kind name
  rw [List.countP_append, List.countP_append, exact_ kind name, List.countP_singleton, List.countP_singleton,
    audits_of_concerns concerns, shows]

theorem audit_update {actions : List ActionRow} {auditLog : List AuditEntry} {filter : ActionRow → Bool}
    {change : ActionRow → ActionRow} {row : ActionRow} {entry : AuditEntry} (exact_ : AuditExact actions auditLog)
    (found : actions.find? filter = some row) (concerns : Concerns entry row) (name : (change row).name = row.name)
    (fresh : row.shows entry.action = false)
    (shows : ∀ kind, (change row).shows kind = (row.shows kind || kind == entry.action)) :
    AuditExact (updateOne filter change actions) (auditLog ++ [entry]) := by
  intro kind other
  have moved := countP_updateOne (fun row => row.name == other && row.shows kind) change found
  rw [List.countP_append, List.countP_singleton, exact_ kind other, audits_of_concerns concerns]
  rw [name, shows kind] at moved
  by_cases same : row.name = other
  · by_cases kindSame : kind = entry.action
    · subst kindSame
      simp only [same, fresh, beq_self_eq_true, Bool.and_false, Bool.or_true, Bool.and_true, if_true,
        Bool.false_eq_true, if_false] at moved ⊢
      omega
    · have otherKind : (kind == entry.action) = false := beq_eq_false_iff_ne.mpr kindSame
      simp only [otherKind, Bool.or_false, Bool.and_false, Bool.false_eq_true, if_false] at moved ⊢
      omega
  · have otherRow : (row.name == other) = false := beq_eq_false_iff_ne.mpr same
    simp only [otherRow, Bool.false_and, Bool.false_eq_true, if_false] at moved ⊢
    omega

end GroupButler.Actions
