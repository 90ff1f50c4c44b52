import GroupButler.Config.Model

/-!
# What one step does to each row

Under the unique indexes every step rewrites each group row and each instance on its own, and may
add one group row. `Effect` says what was written, `inserted` what was added.
-/

namespace GroupButler.Config
open Foundation Store

/-- The unique indexes of `groups` and `instances`. -/
structure Indexed (db : ConfigDb) : Prop where
  groups : (db.groups.map GroupDoc.key).Nodup
  instances : (db.instances.map InstanceDoc.id).Nodup

theorem Indexed.same_group {db : ConfigDb} (indexed : Indexed db) {a b : GroupDoc}
    (ha : a ∈ db.groups) (hb : b ∈ db.groups) (same : a.key = b.key) : a = b :=
  List.inj_on_of_nodup_map indexed.groups ha hb same

theorem named_iff {organizationId instanceId : String} {doc : InstanceDoc} :
    doc.named organizationId instanceId = true ↔ doc.id = instanceId ∧ doc.organizationId = organizationId := by
  simp [InstanceDoc.named]

theorem scopes_iff {request : WhitelistRequest} {group : GroupDoc} :
    request.scopes group = true ↔
      group.key.organizationId = request.organizationId ∧ group.key.instanceId = request.instanceId := by
  simp [WhitelistRequest.scopes]

theorem patchTarget_ok {db : ConfigDb} {organizationId groupJid : String} {patch : GroupConfigPatch}
    {current : GroupDoc} (h : patchTarget db organizationId groupJid patch = .ok current) :
    current ∈ db.groups ∧ current.key = ⟨organizationId, current.key.instanceId, groupJid⟩ := by
  unfold patchTarget at h
  split at h
  · cases h
  · rename_i first others matched
    split at h
    · cases h
    · obtain rfl := Except.ok.inj h
      have member : first ∈ matchedGroups db organizationId groupJid patch := by simp [matched]
      obtain ⟨present, named⟩ := List.mem_filter.mp member
      simp only [Bool.and_eq_true, beq_iff_eq] at named
      obtain ⟨⟨sameOrganization, sameJid⟩, _⟩ := named
      exact ⟨present, by rw [← sameOrganization, ← sameJid]⟩

theorem updateGroupConfig_refused {db : ConfigDb} {organizationId groupJid : String} {patch : GroupConfigPatch}
    {refusal : GroupConfigUpdate} (ip : String) (h : patchTarget db organizationId groupJid patch = .error refusal) :
    (updateGroupConfig db organizationId groupJid patch ip).1 = db := by
  simp only [updateGroupConfig, h]

theorem updateGroupConfig_ok {db : ConfigDb} {organizationId groupJid : String} {patch : GroupConfigPatch}
    {current : GroupDoc} (ip : String) (h : patchTarget db organizationId groupJid patch = .ok current) :
    (updateGroupConfig db organizationId groupJid patch ip).1 =
      patchRow db current.key patch (patch.changes.eligibilityChanged current.config) ip := by
  simp only [updateGroupConfig, h, ← (patchTarget_ok h).2]

def GroupDoc.patched (patch : GroupConfigPatch) (current group : GroupDoc) : GroupDoc :=
  if group.key = current.key then group.write patch.changes (patch.changes.eligibilityChanged current.config)
  else group

def InstanceDoc.moved (patch : GroupConfigPatch) (current : GroupDoc) (doc : InstanceDoc) : InstanceDoc :=
  match patch.whitelisted with
  | none => doc
  | some whitelisted =>
    if doc.named current.key.organizationId current.key.instanceId then
      { doc with groupJidWhitelist := some (moveJid whitelisted current.key.groupJid doc.stored) }
    else doc

def GroupDoc.mirrored (request : WhitelistRequest) (group : GroupDoc) : GroupDoc :=
  let granted := request.after.contains group.key.groupJid
  if request.scopes group && group.config.differs granted then group.mirror granted else group

def InstanceDoc.replaced (request : WhitelistRequest) (doc : InstanceDoc) : InstanceDoc :=
  if doc.named request.organizationId request.instanceId then
    { doc with groupJidWhitelist := some request.after }
  else doc

/-- What a step writes to the rows already there. -/
inductive Effect where
  | untouched
  | patched (patch : GroupConfigPatch) (current : GroupDoc)
  | replaced (request : WhitelistRequest) (read : InstanceDoc)

def effect (s : State) : Event → Effect
  | .updateGroupConfig organizationId groupJid patch _ =>
    match patchTarget s.db organizationId groupJid patch with
    | .error _ => .untouched
    | .ok current => .patched patch current
  | .commitWhitelist caller =>
    match s.callers caller with
    | .checked request read => .replaced request read
    | _ => .untouched
  | _ => .untouched

def Effect.row : Effect → GroupDoc → GroupDoc
  | .untouched => id
  | .patched patch current => GroupDoc.patched patch current
  | .replaced request _ => GroupDoc.mirrored request

def Effect.list : Effect → InstanceDoc → InstanceDoc
  | .untouched => id
  | .patched patch current => InstanceDoc.moved patch current
  | .replaced request _ => InstanceDoc.replaced request

theorem effect_patched {s : State} {event : Event} {patch : GroupConfigPatch} {current : GroupDoc}
    (h : effect s event = .patched patch current) : current ∈ s.db.groups := by
  unfold effect at h
  split at h
  · split at h
    · cases h
    · rename_i target
      obtain ⟨rfl, rfl⟩ := Effect.patched.inj h
      exact (patchTarget_ok target).1
  · split at h <;> cases h
  · cases h

theorem effect_replaced {s : State} {event : Event} {request : WhitelistRequest} {read : InstanceDoc}
    (h : effect s event = .replaced request read) :
    ∃ caller, event = .commitWhitelist caller ∧ s.callers caller = .checked request read := by
  unfold effect at h
  split at h
  · split at h <;> cases h
  · split at h
    · rename_i caller _ _ _ phase
      obtain ⟨rfl, rfl⟩ := Effect.replaced.inj h
      exact ⟨caller, rfl, phase⟩
    · cases h
  · cases h

def freshGroup (key : GroupKey) : GroupDoc := ⟨key, ⟨some false, some false, some 0⟩, 0⟩

def inserted (s : State) : Event → List GroupDoc
  | .upsertObserved key => if s.db.groups.any (·.key == key) then [] else [freshGroup key]
  | _ => []

@[simp] theorem patched_key (patch : GroupConfigPatch) (current group : GroupDoc) :
    (GroupDoc.patched patch current group).key = group.key := by
  unfold GroupDoc.patched
  split <;> rfl

@[simp] theorem mirrored_key (request : WhitelistRequest) (group : GroupDoc) :
    (group.mirrored request).key = group.key := by
  unfold GroupDoc.mirrored
  dsimp only
  split <;> rfl

@[simp] theorem moved_named (patch : GroupConfigPatch) (current : GroupDoc) (doc : InstanceDoc)
    (organizationId instanceId : String) :
    (doc.moved patch current).named organizationId instanceId = doc.named organizationId instanceId := by
  unfold InstanceDoc.moved
  split
  · rfl
  · split <;> rfl

@[simp] theorem replaced_named (request : WhitelistRequest) (doc : InstanceDoc)
    (organizationId instanceId : String) :
    (doc.replaced request).named organizationId instanceId = doc.named organizationId instanceId := by
  unfold InstanceDoc.replaced
  split <;> rfl

@[simp] theorem row_key (effect : Effect) (group : GroupDoc) : (effect.row group).key = group.key := by
  cases effect <;> simp [Effect.row]

@[simp] theorem list_named (effect : Effect) (doc : InstanceDoc) (organizationId instanceId : String) :
    (effect.list doc).named organizationId instanceId = doc.named organizationId instanceId := by
  cases effect <;> simp [Effect.list]

theorem list_id (effect : Effect) (doc : InstanceDoc) :
    (effect.list doc).id = doc.id ∧ (effect.list doc).organizationId = doc.organizationId := by
  have same := list_named effect doc doc.organizationId doc.id
  exact named_iff.mp (same.trans (named_iff.mpr ⟨rfl, rfl⟩))

theorem patchRow_rows {db : ConfigDb} (indexed : Indexed db) {current : GroupDoc} (patch : GroupConfigPatch)
    (ip : String) :
    let next := patchRow db current.key patch (patch.changes.eligibilityChanged current.config) ip
    next.groups = db.groups.map (GroupDoc.patched patch current) ∧
      next.instances = db.instances.map (InstanceDoc.moved patch current) := by
  have groupRows : updateOne (fun group : GroupDoc => group.key == current.key)
      (GroupDoc.write patch.changes (patch.changes.eligibilityChanged current.config)) db.groups =
        db.groups.map (GroupDoc.patched patch current) := by
    rw [updateOne_eq_updateMany (k := current.key) indexed.groups (by simp)]
    simp [updateMany, GroupDoc.patched]
  unfold patchRow
  cases named : patch.whitelisted with
  | none =>
    have still : InstanceDoc.moved patch current = id := by
      funext doc
      simp [InstanceDoc.moved, named]
    exact ⟨groupRows, by rw [still, List.map_id]⟩
  | some whitelisted =>
    let move (doc : InstanceDoc) : InstanceDoc :=
      { doc with groupJidWhitelist := some (moveJid whitelisted current.key.groupJid doc.stored) }
    have instanceRows : updateOne (InstanceDoc.named current.key.organizationId current.key.instanceId) move
        db.instances = updateMany (InstanceDoc.named current.key.organizationId current.key.instanceId) move
        db.instances :=
      updateOne_eq_updateMany (k := current.key.instanceId) indexed.instances
        (fun doc _ matched => (named_iff.mp matched).1)
    dsimp only [moveGroupWhitelistJid]
    split
    · exact ⟨groupRows, by rw [instanceRows]; simp [updateMany, move, InstanceDoc.moved, named]⟩
    · rename_i absent
      refine ⟨groupRows, ?_⟩
      have still : ∀ doc ∈ db.instances, InstanceDoc.moved patch current doc = id doc := by
        intro doc member
        have other : doc.named current.key.organizationId current.key.instanceId = false := by
          simpa using fun h => absent (List.any_eq_true.mpr ⟨doc, member, h⟩)
        simp [InstanceDoc.moved, named, other]
      rw [List.map_congr_left still, List.map_id]

theorem replaceWhitelist_groups (db : ConfigDb) (request : WhitelistRequest) (before : List String) :
    (replaceWhitelist db request before).groups = db.groups.map (GroupDoc.mirrored request) := by
  simp only [replaceWhitelist, updateMany, List.map_map]
  apply List.map_congr_left
  intro group _
  simp only [Function.comp, GroupDoc.mirrored]
  rcases Bool.eq_false_or_eq_true (request.after.contains group.key.groupJid) with listed | listed
  · simp only [listed, Bool.not_true, Bool.and_false, Bool.false_and, Bool.false_eq_true, if_false, Bool.and_true]
  · -- The second update leaves alone what the first one cleared.
    have absent : group.key.groupJid ∉ request.after := by simpa using listed
    simp only [listed, Bool.not_false, Bool.and_true]
    split
    · have skipped : (GroupDoc.mirror false group).key = group.key := rfl
      simp [skipped, absent]
    · simp [absent]

theorem replaceWhitelist_instances {db : ConfigDb} (indexed : Indexed db) (request : WhitelistRequest)
    (before : List String) :
    (replaceWhitelist db request before).instances = db.instances.map (InstanceDoc.replaced request) :=
  updateOne_eq_updateMany (k := request.instanceId) indexed.instances
    (fun _ _ matched => (named_iff.mp matched).1)

theorem step_groups {s : State} (indexed : Indexed s.db) (event : Event) :
    (step s event).db.groups = s.db.groups.map (effect s event).row ++ inserted s event := by
  cases event with
  | updateGroupConfig organizationId groupJid patch ip =>
    simp only [step, inserted, effect, List.append_nil]
    cases target : patchTarget s.db organizationId groupJid patch with
    | error refusal => simp [updateGroupConfig_refused ip target, Effect.row]
    | ok current =>
      rw [updateGroupConfig_ok ip target]
      exact (patchRow_rows indexed patch ip).1
  | readInstanceConfig caller request =>
    simp only [step, effect, Effect.row, inserted, List.map_id, List.append_nil]
    split <;> rfl
  | checkGroups caller =>
    simp only [step, effect, Effect.row, inserted, List.map_id, List.append_nil]
    split
    · split <;> rfl
    · rfl
  | commitWhitelist caller =>
    simp only [step, effect, inserted, List.append_nil]
    cases s.callers caller with
    | checked request doc => exact replaceWhitelist_groups _ _ _
    | _ => exact (List.map_id _).symm
  | crash caller =>
    simp only [effect, Effect.row, inserted, List.map_id, List.append_nil]
    rfl
  | upsertObserved key =>
    simp only [step, upsertObserved, insertUnique, effect, Effect.row, inserted, List.map_id]
    split <;> simp [freshGroup]

theorem step_instances {s : State} (indexed : Indexed s.db) (event : Event) :
    (step s event).db.instances = s.db.instances.map (effect s event).list := by
  cases event with
  | updateGroupConfig organizationId groupJid patch ip =>
    simp only [step, effect]
    cases target : patchTarget s.db organizationId groupJid patch with
    | error refusal => simp [updateGroupConfig_refused ip target, Effect.list]
    | ok current =>
      rw [updateGroupConfig_ok ip target]
      exact (patchRow_rows indexed patch ip).2
  | readInstanceConfig caller request =>
    simp only [step, effect, Effect.list, List.map_id]
    split <;> rfl
  | checkGroups caller =>
    simp only [step, effect, Effect.list, List.map_id]
    split
    · split <;> rfl
    · rfl
  | commitWhitelist caller =>
    simp only [step, effect]
    cases s.callers caller with
    | checked request doc => exact replaceWhitelist_instances indexed _ _
    | _ => exact (List.map_id _).symm
  | crash caller => exact (List.map_id _).symm
  | upsertObserved key => exact (List.map_id _).symm

theorem mem_inserted {s : State} {event : Event} {group : GroupDoc} (member : group ∈ inserted s event) :
    group = freshGroup group.key ∧ ∀ old ∈ s.db.groups, old.key ≠ group.key := by
  unfold inserted at member
  split at member
  · split at member
    · cases member
    · rename_i absent
      obtain rfl := List.mem_singleton.mp member
      exact ⟨rfl, fun old present same => absent (List.any_eq_true.mpr ⟨old, present, beq_iff_eq.mpr same⟩)⟩
  · cases member

theorem step_indexed {s : State} (event : Event) (indexed : Indexed s.db) : Indexed (step s event).db := by
  refine ⟨?_, ?_⟩
  · rw [step_groups indexed, List.map_append, List.map_map]
    have keys : GroupDoc.key ∘ (effect s event).row = GroupDoc.key := funext (row_key _)
    rw [keys]
    refine List.nodup_append.mpr ⟨indexed.groups, ?_, ?_⟩
    · unfold inserted
      split
      · split <;> simp
      · simp
    · intro old member fresh added
      obtain ⟨group, present, rfl⟩ := List.mem_map.mp member
      obtain ⟨new, isNew, rfl⟩ := List.mem_map.mp added
      exact (mem_inserted isNew).2 group present
  · rw [step_instances indexed, List.map_map]
    have ids : InstanceDoc.id ∘ (effect s event).list = InstanceDoc.id :=
      funext fun doc => (list_id _ doc).1
    rw [ids]
    exact indexed.instances

/-! ### Flags and version -/

def GroupConfig.flags (config : GroupConfig) : Option Bool × Option Bool := (config.assigned, config.whitelisted)

/-- What a write did to a config: nothing, or a change of flags with the version moved by one. -/
def Bumped (config next : GroupConfig) : Prop :=
  next = config ∨ next.flags ≠ config.flags ∧ next.version = config.version + 1

theorem set_of_unchanged {changes : Changes} {config : GroupConfig}
    (same : changes.eligibilityChanged config = false) : changes.set config = config := by
  obtain ⟨assigned, whitelisted, version⟩ := config
  obtain ⟨setAssigned, setWhitelisted⟩ := changes
  cases setAssigned <;> cases setWhitelisted <;>
    simp_all [Changes.eligibilityChanged, Changes.set]

theorem set_flags_of_changed {changes : Changes} {config : GroupConfig}
    (changed : changes.eligibilityChanged config = true) : (changes.set config).flags ≠ config.flags := by
  obtain ⟨assigned, whitelisted, version⟩ := config
  obtain ⟨setAssigned, setWhitelisted⟩ := changes
  cases setAssigned <;> cases setWhitelisted <;>
    simp_all [Changes.eligibilityChanged, Changes.set, GroupConfig.flags]
  intro same
  simpa [same] using changed

theorem write_bumped (changes : Changes) (group : GroupDoc) :
    Bumped group.config (group.write changes (changes.eligibilityChanged group.config)).config := by
  unfold GroupDoc.write
  cases changed : changes.eligibilityChanged group.config with
  | false => exact Or.inl (set_of_unchanged changed)
  | true => exact Or.inr ⟨set_flags_of_changed changed, rfl⟩

theorem mirrored_bumped (request : WhitelistRequest) (group : GroupDoc) :
    Bumped group.config (group.mirrored request).config := by
  unfold GroupDoc.mirrored
  dsimp only
  split
  · rename_i changed
    refine Or.inr ⟨?_, rfl⟩
    intro same
    simp only [GroupConfig.flags, GroupDoc.mirror, GroupConfig.bump, Prod.mk.injEq] at same
    simp [GroupConfig.differs, ← same.1, ← same.2] at changed
  · exact Or.inl rfl

theorem effect_bumped {s : State} (indexed : Indexed s.db) (event : Event) {group : GroupDoc}
    (member : group ∈ s.db.groups) : Bumped group.config ((effect s event).row group).config := by
  cases written : effect s event with
  | untouched => exact Or.inl rfl
  | patched patch current =>
    simp only [Effect.row, GroupDoc.patched]
    split
    · rename_i sameKey
      obtain rfl := indexed.same_group member (effect_patched written) sameKey
      exact write_bumped _ _
    · exact Or.inl rfl
  | replaced request read => exact mirrored_bumped _ _

/-- Across a step a row that is still there was either left alone or moved to a new version. -/
theorem step_bumped {s : State} (indexed : Indexed s.db) (event : Event) {group next : GroupDoc}
    (member : group ∈ s.db.groups) (present : next ∈ (step s event).db.groups) (same : next.key = group.key) :
    Bumped group.config next.config := by
  have written : (effect s event).row group ∈ (step s event).db.groups := by
    rw [step_groups indexed]
    exact List.mem_append_left _ (List.mem_map_of_mem member)
  have equal := (step_indexed event indexed).same_group present written (by rw [same, row_key])
  rw [equal]
  exact effect_bumped indexed event member

end GroupButler.Config
