import GroupButler.Config.Rows

/-!
# The whitelist mirror

`config.whitelisted` on a row and membership of its JID in the instance's list are one fact kept
twice. `config.assigned` follows them, except after a patch that names `assigned` alone.
-/

namespace GroupButler.Config
open Foundation Store

def GroupDoc.ownedBy (group : GroupDoc) (doc : InstanceDoc) : Prop :=
  doc.named group.key.organizationId group.key.instanceId = true

instance (group : GroupDoc) (doc : InstanceDoc) : Decidable (group.ownedBy doc) :=
  inferInstanceAs (Decidable (_ = true))

def GroupDoc.whitelisted (group : GroupDoc) : Prop := group.config.whitelisted = some true

def GroupDoc.assigned (group : GroupDoc) : Prop := group.config.assigned = some true

def hasRow (db : ConfigDb) (key : GroupKey) : Prop := ∃ group ∈ db.groups, group.key = key

/-- The row flag and the list agree, and neither the list nor a checked request names a JID without
a row. -/
structure Mirrored (s : State) : Prop where
  indexed : Indexed s.db
  mirror : ∀ group ∈ s.db.groups, ∀ doc ∈ s.db.instances, group.ownedBy doc →
    (group.whitelisted ↔ group.key.groupJid ∈ doc.stored)
  listed : ∀ doc ∈ s.db.instances, ∀ jid ∈ doc.stored, hasRow s.db ⟨doc.organizationId, doc.id, jid⟩
  checked : ∀ caller request doc, s.callers caller = .checked request doc →
    ∀ jid ∈ request.after, hasRow s.db ⟨request.organizationId, request.instanceId, jid⟩

/-- Both flags false, an empty list, and no call under way. -/
structure Fresh (s : State) : Prop where
  indexed : Indexed s.db
  flags : ∀ group ∈ s.db.groups, group.config.assigned = some false ∧ group.config.whitelisted = some false
  lists : ∀ doc ∈ s.db.instances, doc.stored = []
  callers : ∀ caller, s.callers caller = .idle

theorem fresh_mirrored {s : State} (fresh : Fresh s) : Mirrored s where
  indexed := fresh.indexed
  mirror group member doc present _ := by
    simp [GroupDoc.whitelisted, (fresh.flags group member).2, fresh.lists doc present]
  listed doc present jid member := by simp [fresh.lists doc present] at member
  checked caller request doc phase := by simp [fresh.callers caller] at phase

theorem mem_moveJid {on : Bool} {jid other : String} {list : List String} :
    other ∈ moveJid on jid list ↔ if other = jid then on = true else other ∈ list := by
  cases on <;> by_cases same : other = jid <;> simp [moveJid, same]
  · split <;> simp_all
  · split <;> simp [same]

theorem step_hasRow {s : State} (indexed : Indexed s.db) (event : Event) {key : GroupKey}
    (row : hasRow s.db key) : hasRow (step s event).db key := by
  obtain ⟨group, member, rfl⟩ := row
  refine ⟨(effect s event).row group, ?_, row_key _ group⟩
  rw [step_groups indexed]
  exact List.mem_append_left _ (List.mem_map_of_mem member)

theorem unknownGroups_empty {db : ConfigDb} {organizationId instanceId : String} {jids : List String}
    (none : (unknownGroups db organizationId instanceId jids).isEmpty = true) {jid : String} (member : jid ∈ jids) :
    hasRow db ⟨organizationId, instanceId, jid⟩ := by
  rw [List.isEmpty_iff, unknownGroups, List.filter_eq_nil_iff] at none
  have known := none jid member
  simp only [Bool.not_eq_true', Bool.not_eq_false, List.any_eq_true, beq_iff_eq] at known
  exact known

/-- A checked request was checked by this step or was already checked before it. -/
theorem step_checked {s : State} {event : Event} {caller : Nat} {request : WhitelistRequest} {doc : InstanceDoc}
    (phase : (step s event).callers caller = .checked request doc) :
    s.callers caller = .checked request doc ∨
      (unknownGroups s.db request.organizationId request.instanceId request.after).isEmpty = true := by
  cases event with
  | updateGroupConfig organizationId groupJid patch ip => exact Or.inl phase
  | upsertObserved key => exact Or.inl phase
  | readInstanceConfig other req =>
    simp only [step] at phase
    split at phase <;> simp only [State.at] at phase <;> split at phase
    all_goals first | exact Or.inl phase | cases phase
  | checkGroups other =>
    simp only [step] at phase
    split at phase
    · rename_i req read _
      split at phase <;> simp only [State.at] at phase <;> split at phase
      · rename_i known _
        obtain ⟨rfl, rfl⟩ := Phase.checked.inj phase
        exact Or.inr known
      · exact Or.inl phase
      · cases phase
      · exact Or.inl phase
    · exact Or.inl phase
  | commitWhitelist other =>
    simp only [step] at phase
    split at phase
    · simp only [State.at] at phase
      split at phase
      · cases phase
      · exact Or.inl phase
    · exact Or.inl phase
  | crash other =>
    simp only [step, State.at] at phase
    split at phase
    · cases phase
    · exact Or.inl phase

/-- What a step leaves in an instance's list was there before, or is the patched row's own JID, or
was checked. -/
theorem list_rows {s : State} (mirrored : Mirrored s) (event : Event) {doc : InstanceDoc}
    (member : doc ∈ s.db.instances) {jid : String} (listed : jid ∈ ((effect s event).list doc).stored) :
    hasRow s.db ⟨doc.organizationId, doc.id, jid⟩ := by
  cases written : effect s event with
  | untouched =>
    rw [written] at listed
    exact mirrored.listed doc member jid listed
  | patched patch current =>
    simp only [written, Effect.list, InstanceDoc.moved] at listed
    split at listed
    · exact mirrored.listed doc member jid listed
    · split at listed
      · rename_i named
        obtain ⟨sameId, sameOrganization⟩ := named_iff.mp named
        have moved := mem_moveJid.mp listed
        split at moved
        · rename_i sameJid
          exact ⟨current, effect_patched written, by rw [sameJid, sameId, sameOrganization]⟩
        · exact mirrored.listed doc member jid moved
      · exact mirrored.listed doc member jid listed
  | replaced request read =>
    simp only [written, Effect.list, InstanceDoc.replaced] at listed
    split at listed
    · rename_i named
      obtain ⟨sameId, sameOrganization⟩ := named_iff.mp named
      obtain ⟨caller, _, phase⟩ := effect_replaced written
      rw [sameId, sameOrganization]
      exact mirrored.checked caller request read phase jid listed
    · exact mirrored.listed doc member jid listed

theorem mirrored_flags {request : WhitelistRequest} {group : GroupDoc} (owned : request.scopes group = true) :
    (group.mirrored request).config.assigned = some (request.after.contains group.key.groupJid) ∧
      (group.mirrored request).config.whitelisted = some (request.after.contains group.key.groupJid) := by
  unfold GroupDoc.mirrored
  dsimp only
  split
  · exact ⟨rfl, rfl⟩
  · rename_i agrees
    simp only [owned, Bool.true_and, GroupConfig.differs, Bool.or_eq_true, bne_iff_ne, not_or, not_not] at agrees
    exact ⟨agrees.2, agrees.1⟩

theorem mirrored_outside {request : WhitelistRequest} {group : GroupDoc} (outside : request.scopes group = false) :
    group.mirrored request = group := by
  simp [GroupDoc.mirrored, outside]

theorem patched_assigned (patch : GroupConfigPatch) (group : GroupDoc) :
    (GroupDoc.patched patch group group).config.assigned = patch.changes.assigned.or group.config.assigned := by
  rw [GroupDoc.patched, if_pos rfl, GroupDoc.write]
  dsimp only
  split <;> rfl

theorem patched_whitelisted (patch : GroupConfigPatch) (group : GroupDoc) :
    (GroupDoc.patched patch group group).config.whitelisted =
      patch.changes.whitelisted.or group.config.whitelisted := by
  rw [GroupDoc.patched, if_pos rfl, GroupDoc.write]
  dsimp only
  split <;> rfl

theorem moved_stored_other {patch : GroupConfigPatch} {current group : GroupDoc} {doc : InstanceDoc}
    (owned : group.ownedBy doc) (other : group.key ≠ current.key) :
    group.key.groupJid ∈ (doc.moved patch current).stored ↔ group.key.groupJid ∈ doc.stored := by
  unfold InstanceDoc.moved
  split
  · rfl
  · split
    · rename_i named
      obtain ⟨sameId, sameOrganization⟩ := named_iff.mp named
      obtain ⟨ownId, ownOrganization⟩ := named_iff.mp owned
      have different : group.key.groupJid ≠ current.key.groupJid := by
        intro sameJid
        apply other
        cases hg : group.key
        cases hc : current.key
        simp_all
      show group.key.groupJid ∈ moveJid _ current.key.groupJid doc.stored ↔ _
      rw [mem_moveJid, if_neg different]
    · rfl

theorem effect_mirror {s : State} (mirrored : Mirrored s) (event : Event) {group : GroupDoc} {doc : InstanceDoc}
    (member : group ∈ s.db.groups) (present : doc ∈ s.db.instances) (owned : group.ownedBy doc) :
    ((effect s event).row group).whitelisted ↔
      group.key.groupJid ∈ ((effect s event).list doc).stored := by
  have before := mirrored.mirror group member doc present owned
  have ownRow : doc.named group.key.organizationId group.key.instanceId = true := owned
  cases written : effect s event with
  | untouched => exact before
  | patched patch current =>
    simp only [Effect.row, Effect.list]
    by_cases same : group.key = current.key
    · obtain rfl := mirrored.indexed.same_group member (effect_patched written) same
      rw [GroupDoc.whitelisted, patched_whitelisted]
      cases named : patch.whitelisted with
      | none =>
        simp only [GroupConfigPatch.changes, InstanceDoc.moved, named, Option.none_or]
        exact before
      | some on =>
        have list : (doc.moved patch group).stored = moveJid on group.key.groupJid doc.stored := by
          simp only [InstanceDoc.moved, named, if_pos ownRow]
          rfl
        rw [list, mem_moveJid, if_pos rfl]
        simp [GroupConfigPatch.changes, named]
    · rw [moved_stored_other owned same]
      simpa only [GroupDoc.patched, if_neg same] using before
  | replaced request read =>
    simp only [Effect.row, Effect.list]
    cases inScope : request.scopes group with
    | true =>
      have named : doc.named request.organizationId request.instanceId = true := by
        obtain ⟨sameOrganization, sameInstance⟩ := scopes_iff.mp inScope
        rw [← sameOrganization, ← sameInstance]
        exact ownRow
      rw [GroupDoc.whitelisted, (mirrored_flags inScope).2, InstanceDoc.replaced, if_pos named]
      simp [InstanceDoc.stored]
    | false =>
      have named : ¬ doc.named request.organizationId request.instanceId = true := by
        intro named
        obtain ⟨sameId, sameOrganization⟩ := named_iff.mp named
        obtain ⟨ownId, ownOrganization⟩ := named_iff.mp ownRow
        have within := scopes_iff.mpr ⟨ownOrganization.symm.trans sameOrganization, ownId.symm.trans sameId⟩
        simp [inScope] at within
      rw [mirrored_outside inScope, InstanceDoc.replaced, if_neg named]
      exact before

theorem step_mirrored {s : State} (event : Event) (mirrored : Mirrored s) : Mirrored (step s event) where
  indexed := step_indexed event mirrored.indexed
  mirror := by
    rw [step_groups mirrored.indexed, step_instances mirrored.indexed]
    intro group member doc present owned
    obtain ⟨oldDoc, oldPresent, rfl⟩ := List.mem_map.mp present
    have ownedBefore : group.ownedBy oldDoc := by simpa [GroupDoc.ownedBy] using owned
    rcases List.mem_append.mp member with old | fresh
    · obtain ⟨oldGroup, oldMember, rfl⟩ := List.mem_map.mp old
      rw [row_key]
      exact effect_mirror mirrored event oldMember oldPresent (by simpa [GroupDoc.ownedBy] using ownedBefore)
    · obtain ⟨isFresh, unseen⟩ := mem_inserted fresh
      refine ⟨fun on => ?_, fun listed => ?_⟩
      · rw [isFresh] at on
        simp [GroupDoc.whitelisted, freshGroup] at on
      · obtain ⟨row, rowMember, rowKey⟩ := list_rows mirrored event oldPresent listed
        obtain ⟨sameId, sameOrganization⟩ := named_iff.mp ownedBefore
        rw [sameId, sameOrganization] at rowKey
        exact (unseen row rowMember rowKey).elim
  listed := by
    rw [step_instances mirrored.indexed]
    intro doc present jid listed
    obtain ⟨old, oldPresent, rfl⟩ := List.mem_map.mp present
    rw [(list_id _ old).1, (list_id _ old).2]
    exact step_hasRow mirrored.indexed event (list_rows mirrored event oldPresent listed)
  checked caller request doc phase jid member := by
    apply step_hasRow mirrored.indexed event
    rcases step_checked phase with before | known
    · exact mirrored.checked caller request doc before jid member
    · exact unknownGroups_empty known member

/-! ### The last write to a row's flags -/

/-- Whether a step writes the flags of `key`'s row, and then whether it names `assigned` alone. -/
def Effect.alone (key : GroupKey) : Effect → Option Bool
  | .untouched => none
  | .patched patch current =>
    if key = current.key then
      if patch.whitelisted.isSome then some false else if patch.assigned.isSome then some true else none
    else none
  | .replaced request _ =>
    if key.organizationId = request.organizationId ∧ key.instanceId = request.instanceId then some false else none

/-- Whether the last write to the flags of `key`'s row named `assigned` alone. -/
def lastAlone (key : GroupKey) : State → List Event → Bool → Bool
  | _, [], alone => alone
  | s, event :: events, alone => lastAlone key (step s event) events (((effect s event).alone key).getD alone)

/-- Rows whose last write was not a lone `assigned` carry both flags or neither. -/
def Paired (alone : GroupKey → Bool) (s : State) : Prop :=
  ∀ group ∈ s.db.groups, alone group.key = false → (group.assigned ↔ group.whitelisted)

theorem step_paired {s : State} (event : Event) (indexed : Indexed s.db) {alone : GroupKey → Bool}
    (paired : Paired alone s) :
    Paired (fun key => ((effect s event).alone key).getD (alone key)) (step s event) := by
  intro group member pair
  rw [step_groups indexed] at member
  rcases List.mem_append.mp member with old | fresh
  · obtain ⟨group, oldMember, rfl⟩ := List.mem_map.mp old
    simp only [row_key] at pair
    have before := paired group oldMember
    cases written : effect s event with
    | untouched =>
      rw [written] at pair
      exact before pair
    | patched patch current =>
      simp only [written, Effect.alone] at pair
      simp only [Effect.row]
      by_cases same : group.key = current.key
      · obtain rfl := indexed.same_group oldMember (effect_patched written) same
        rw [if_pos rfl] at pair
        rw [GroupDoc.assigned, GroupDoc.whitelisted, patched_assigned, patched_whitelisted]
        cases named : patch.whitelisted with
        | some on => simp [GroupConfigPatch.changes, named]
        | none =>
          cases lone : patch.assigned with
          | some on => simp [named, lone] at pair
          | none =>
            simp only [GroupConfigPatch.changes, named, lone, Option.none_or]
            exact before (by simpa [named, lone] using pair)
      · rw [if_neg same] at pair
        simpa only [GroupDoc.patched, if_neg same] using before pair
    | replaced request read =>
      simp only [written, Effect.alone] at pair
      simp only [Effect.row]
      cases inScope : request.scopes group with
      | true =>
        obtain ⟨assigned, whitelisted⟩ := mirrored_flags inScope
        rw [GroupDoc.assigned, GroupDoc.whitelisted, assigned, whitelisted]
      | false =>
        have outside : ¬ (group.key.organizationId = request.organizationId ∧
            group.key.instanceId = request.instanceId) := by
          rw [← scopes_iff, inScope]
          exact Bool.false_ne_true
        rw [if_neg outside] at pair
        rw [mirrored_outside inScope]
        exact before pair
  · rw [(mem_inserted fresh).1]
    simp [GroupDoc.assigned, GroupDoc.whitelisted, freshGroup]

theorem run_paired {s : State} (events : List Event) (indexed : Indexed s.db) {alone : GroupKey → Bool}
    (paired : Paired alone s) : Paired (fun key => lastAlone key s events (alone key)) (run step s events) := by
  induction events generalizing s alone with
  | nil => exact paired
  | cons event events ih => exact ih (step_indexed event indexed) (step_paired event indexed paired)

theorem fresh_paired {s : State} (fresh : Fresh s) : Paired (fun _ => false) s := by
  intro group member _
  simp [GroupDoc.assigned, GroupDoc.whitelisted, fresh.flags group member]

/-- The mirror over every interleaving: the row flag is the list, `assigned` is the row flag unless
the row was last written by a lone `assigned`, and no flag changes without a new version. -/
theorem flags_mirror_list {s : State} (fresh : Fresh s) (events : List Event) :
    (∀ group ∈ (run step s events).db.groups, ∀ doc ∈ (run step s events).db.instances, group.ownedBy doc →
      (group.whitelisted ↔ group.key.groupJid ∈ doc.stored) ∧
      (lastAlone group.key s events false = false → (group.assigned ↔ group.whitelisted))) ∧
    (∀ event, ∀ group ∈ (run step s events).db.groups, ∀ next ∈ (step (run step s events) event).db.groups,
      next.key = group.key → next.config.flags ≠ group.config.flags →
      group.config.version < next.config.version) := by
  have mirrored : Mirrored (run step s events) :=
    run_invariant (fun _ event => step_mirrored event) (fresh_mirrored fresh) events
  refine ⟨fun group member doc present owned => ⟨mirrored.mirror group member doc present owned, ?_⟩, ?_⟩
  · exact run_paired events fresh.indexed (fresh_paired fresh) group member
  · intro event group member next present same changed
    rcases step_bumped mirrored.indexed event member present same with still | ⟨_, moved⟩
    · exact (changed (by rw [still])).elim
    · omega

def oneGroup : State where
  db := { instances := [⟨"i", "o", some []⟩], groups := [freshGroup ⟨"o", "i", "1@g.us"⟩], auditLog := [] }
  callers _ := .idle

theorem oneGroup_fresh : Fresh oneGroup where
  indexed := ⟨by decide, by decide⟩
  flags := by decide
  lists := by decide
  callers _ := rfl

theorem flags_mirror_list_oneGroup :
    let events := [Event.updateGroupConfig "o" "1@g.us" ⟨none, some true, none⟩ "ip"]
    (∀ group ∈ (run step oneGroup events).db.groups, ∀ doc ∈ (run step oneGroup events).db.instances,
      group.ownedBy doc → (group.whitelisted ↔ group.key.groupJid ∈ doc.stored) ∧
      (lastAlone group.key oneGroup events false = false → (group.assigned ↔ group.whitelisted))) ∧
    (∀ event, ∀ group ∈ (run step oneGroup events).db.groups,
      ∀ next ∈ (step (run step oneGroup events) event).db.groups,
      next.key = group.key → next.config.flags ≠ group.config.flags →
      group.config.version < next.config.version) :=
  flags_mirror_list oneGroup_fresh _

/-- A patch that names `assigned` alone leaves a row with one flag. -/
theorem lone_assigned_splits_flags :
    let patch : GroupConfigPatch := ⟨some true, none, none⟩
    let s := run step oneGroup [.updateGroupConfig "o" "1@g.us" patch "ip"]
    Fresh oneGroup ∧ patch.Admitted ∧
      ∃ group ∈ s.db.groups, ∃ doc ∈ s.db.instances, group.ownedBy doc ∧ group.assigned ∧ ¬ group.whitelisted := by
  refine ⟨oneGroup_fresh, ⟨Or.inl rfl, fun _ named => by cases named⟩, ?_⟩
  exact ⟨⟨⟨"o", "i", "1@g.us"⟩, ⟨some true, some false, some 1⟩, 0⟩, by decide, ⟨"i", "o", some []⟩, by decide, by decide,
    rfl, by unfold GroupDoc.whitelisted; decide⟩

end GroupButler.Config
