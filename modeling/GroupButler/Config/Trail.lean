import GroupButler.Config.Rows

/-!
# The whitelist audit trail

Every change to an instance's list leaves a row. Folding the rows over an earlier list gives the
list now stored; a whole-list row's `before` is the list it replaced only if the caller's read was
still current when it committed.
-/

namespace GroupButler.Config
open Foundation Store

/-- The instance's `instance.whitelist.updated` rows, oldest first. -/
def trail (db : ConfigDb) (organizationId instanceId : String) : List AuditMeta :=
  (db.auditLog.filter fun entry =>
    entry.organizationId == organizationId && entry.action == .instanceWhitelistUpdated &&
      entry.target == ⟨.instanceDoc, instanceId⟩).map AuditEntry.details

/-- Fold the rows over a list, refusing a `before` that is not the list it replaces. -/
def replay (list : List String) : List AuditMeta → Option (List String)
  | [] => some list
  | .whitelistReplaced before after :: rows => if before = readList list then replay after rows else none
  | .whitelistMoved groupJid whitelisted :: rows => replay (moveJid whitelisted groupJid list) rows
  | _ :: rows => replay list rows

theorem replay_append (list : List String) (first rest : List AuditMeta) :
    replay list (first ++ rest) = (replay list first).bind fun next => replay next rest := by
  induction first generalizing list with
  | nil => rfl
  | cons row first ih =>
    cases row with
    | whitelistReplaced before after =>
      simp only [List.cons_append, replay]
      split
      · exact ih after
      · rfl
    | whitelistMoved groupJid whitelisted => exact ih _
    | _ => exact ih list

theorem readList_eq_iff {first second : List String} :
    readList first = readList second ↔ ∀ jid, jid ∈ readList first ↔ jid ∈ readList second := by
  constructor
  · intro same jid
    rw [same]
  · intro same
    apply jsSort_ext (List.nodup_dedup _) (List.nodup_dedup _)
    intro jid
    exact mem_jsSort.symm.trans ((same jid).trans mem_jsSort)

/-- The row a step records for the instance. -/
def Effect.recorded (organizationId instanceId : String) : Effect → List AuditMeta
  | .untouched => []
  | .patched patch current =>
    match patch.whitelisted with
    | none => []
    | some on =>
      if current.key.organizationId = organizationId ∧ current.key.instanceId = instanceId then
        [.whitelistMoved current.key.groupJid on]
      else []
  | .replaced request read =>
    if request.organizationId = organizationId ∧ request.instanceId = instanceId then
      [.whitelistReplaced (whitelistOf read) request.after]
    else []

/-- The caller's read of the instance holds the JIDs the list holds now. -/
def ReadCurrent (organizationId instanceId : String) (s : State) (event : Event) : Prop :=
  ∀ caller request read current, event = .commitWhitelist caller → s.callers caller = .checked request read →
    request.organizationId = organizationId → request.instanceId = instanceId →
    readInstance s.db organizationId instanceId = some current →
    ∀ jid, jid ∈ whitelistOf read ↔ jid ∈ whitelistOf current

theorem step_read {s : State} (indexed : Indexed s.db) (event : Event) {organizationId instanceId : String}
    {doc : InstanceDoc} (present : readInstance s.db organizationId instanceId = some doc) :
    readInstance (step s event).db organizationId instanceId = some ((effect s event).list doc) := by
  have names : InstanceDoc.named organizationId instanceId ∘ (effect s event).list =
      InstanceDoc.named organizationId instanceId := funext fun doc => list_named _ doc _ _
  unfold readInstance at present ⊢
  rw [step_instances indexed, List.find?_map, names, present]
  rfl

/-- A whitelist row for one instance is on the trail of that instance only. -/
theorem trail_append (db : ConfigDb) (instances : List InstanceDoc) (groups : List GroupDoc)
    (owner target ip : String) (details : AuditMeta) (organizationId instanceId : String) :
    trail ⟨instances, groups, db.auditLog ++
        [⟨owner, .owner, .instanceWhitelistUpdated, ⟨.instanceDoc, target⟩, details, ip⟩]⟩ organizationId instanceId =
      trail db organizationId instanceId ++
        if owner = organizationId ∧ target = instanceId then [details] else [] := by
  simp only [trail, List.filter_append, List.map_append, List.filter_cons, List.filter_nil]
  by_cases own : owner = organizationId ∧ target = instanceId
  · simp [own]
  · rw [if_neg own, if_neg]
    · rfl
    · simpa using own

theorem step_trail {s : State} (event : Event) {organizationId instanceId : String}
    {doc : InstanceDoc} (present : readInstance s.db organizationId instanceId = some doc) :
    trail (step s event).db organizationId instanceId =
      trail s.db organizationId instanceId ++ (effect s event).recorded organizationId instanceId := by
  cases event with
  | updateGroupConfig org groupJid patch ip =>
    simp only [step, effect]
    cases target : patchTarget s.db org groupJid patch with
    | error refusal => simp [updateGroupConfig_refused ip target, Effect.recorded]
    | ok current =>
      rw [updateGroupConfig_ok ip target]
      simp only [patchRow, Effect.recorded]
      cases patch.whitelisted with
      | none => simp [trail]
      | some on =>
        dsimp only [moveGroupWhitelistJid]
        split
        · exact trail_append ..
        · rename_i absent
          have other : ¬ (current.key.organizationId = organizationId ∧ current.key.instanceId = instanceId) := by
            rintro ⟨rfl, rfl⟩
            exact absent (List.any_eq_true.mpr ⟨doc, List.mem_of_find?_eq_some present, List.find?_some present⟩)
          rw [if_neg other, List.append_nil]
          rfl
  | readInstanceConfig caller request =>
    simp only [step, effect, Effect.recorded, List.append_nil]
    split <;> rfl
  | checkGroups caller =>
    simp only [step, effect, Effect.recorded, List.append_nil]
    split
    · split <;> rfl
    · rfl
  | commitWhitelist caller =>
    simp only [step, effect]
    cases s.callers caller with
    | checked request read => exact trail_append ..
    | _ => simp [Effect.recorded]
  | crash caller =>
    simp only [effect, Effect.recorded, List.append_nil]
    rfl
  | upsertObserved key =>
    simp only [effect, Effect.recorded, List.append_nil]
    rfl

/-- The row a step records replays exactly when the caller's read was current. -/
theorem step_replay {s : State} (event : Event) {organizationId instanceId : String}
    {doc : InstanceDoc} (present : readInstance s.db organizationId instanceId = some doc) :
    (ReadCurrent organizationId instanceId s event →
      replay doc.stored ((effect s event).recorded organizationId instanceId) =
        some ((effect s event).list doc).stored) ∧
    (¬ ReadCurrent organizationId instanceId s event →
      replay doc.stored ((effect s event).recorded organizationId instanceId) = none) := by
  have matched : doc.named organizationId instanceId = true := List.find?_some present
  obtain ⟨sameId, sameOrganization⟩ := named_iff.mp matched
  cases written : effect s event with
  | untouched =>
    refine ⟨fun _ => rfl, fun stale => (stale ?_).elim⟩
    intro caller request read current isCommit phase
    simp [effect, isCommit, phase] at written
  | patched patch current =>
    refine ⟨fun _ => ?_, fun stale => (stale ?_).elim⟩
    · simp only [Effect.recorded, Effect.list, InstanceDoc.moved]
      cases patch.whitelisted with
      | none => rfl
      | some on =>
        by_cases own : current.key.organizationId = organizationId ∧ current.key.instanceId = instanceId
        · obtain ⟨rfl, rfl⟩ := own
          simp only [matched, and_self, if_true]
          rfl
        · have other : ¬ doc.named current.key.organizationId current.key.instanceId = true := by
            rw [named_iff, sameId, sameOrganization]
            exact fun same => own ⟨same.2.symm, same.1.symm⟩
          dsimp only
          rw [if_neg own, if_neg other]
          rfl
    · intro caller request read _ isCommit phase
      simp [effect, isCommit, phase] at written
  | replaced request read =>
    obtain ⟨caller, rfl, phase⟩ := effect_replaced written
    by_cases own : request.organizationId = organizationId ∧ request.instanceId = instanceId
    · obtain ⟨rfl, rfl⟩ := own
      have recorded : (Effect.replaced request read).recorded request.organizationId request.instanceId =
          [.whitelistReplaced (whitelistOf read) request.after] := by simp [Effect.recorded]
      have stored : ((Effect.replaced request read).list doc).stored = request.after := by
        simp only [Effect.list, InstanceDoc.replaced, if_pos matched]
        rfl
      have current : ReadCurrent request.organizationId request.instanceId s (.commitWhitelist caller) ↔
          whitelistOf read = readList doc.stored := by
        rw [whitelistOf, readList_eq_iff]
        constructor
        · intro h
          exact h caller request read doc rfl phase rfl rfl present
        · intro h other req stale now same phase' _ _ present' jid
          obtain rfl := Event.commitWhitelist.inj same
          obtain ⟨rfl, rfl⟩ := Phase.checked.inj (phase.symm.trans phase')
          obtain rfl := Option.some.inj (present.symm.trans present')
          exact h jid
      rw [recorded, stored, current]
      simp only [replay]
      exact ⟨fun same => if_pos same, fun differ => if_neg differ⟩
    · have other : ¬ doc.named request.organizationId request.instanceId = true := by
        rw [named_iff, sameId, sameOrganization]
        exact fun same => own ⟨same.2.symm, same.1.symm⟩
      refine ⟨fun _ => ?_, fun stale => (stale ?_).elim⟩
      · simp only [Effect.recorded, Effect.list, InstanceDoc.replaced, if_neg own, if_neg other]
        rfl
      · intro other req stale now same phase' sameOrg sameInst
        obtain rfl := Event.commitWhitelist.inj same
        obtain ⟨rfl, rfl⟩ := Phase.checked.inj (phase.symm.trans phase')
        exact (own ⟨sameOrg, sameInst⟩).elim

/-- The rows a run records fold the list it started from into the list it stored, exactly when every
whole-list commit of the run acted on a current read. -/
theorem trail_replays_iff {s : State} (indexed : Indexed s.db) {organizationId instanceId : String}
    {doc : InstanceDoc} (present : readInstance s.db organizationId instanceId = some doc) (events : List Event) :
    ∃ rows now, trail (run step s events).db organizationId instanceId =
        trail s.db organizationId instanceId ++ rows ∧
      readInstance (run step s events).db organizationId instanceId = some now ∧
      (replay doc.stored rows = some now.stored ↔
        Along step (ReadCurrent organizationId instanceId) s events) := by
  induction events generalizing s doc with
  | nil => exact ⟨[], doc, (List.append_nil _).symm, present, iff_of_true rfl trivial⟩
  | cons event events ih =>
    obtain ⟨rows, now, grown, stored, folds⟩ := ih (step_indexed event indexed) (step_read indexed event present)
    obtain ⟨current, stale⟩ := step_replay event present
    refine ⟨(effect s event).recorded organizationId instanceId ++ rows, now, ?_, stored, ?_⟩
    · rw [run_cons, grown, step_trail event present, List.append_assoc]
    · rw [replay_append, along_cons]
      by_cases isCurrent : ReadCurrent organizationId instanceId s event
      · rw [current isCurrent, Option.bind_some, folds]
        exact ⟨fun rest => ⟨isCurrent, rest⟩, fun both => both.2⟩
      · rw [stale isCurrent]
        exact iff_of_false (fun impossible => by cases impossible) fun both => isCurrent both.1

def listlessGroup : State where
  db := { instances := [⟨"i", "o", none⟩], groups := [freshGroup ⟨"o", "i", "1@g.us"⟩], auditLog := [] }
  callers _ := .idle

def grant : Event := .updateGroupConfig "o" "1@g.us" ⟨none, some true, none⟩ "ip"

def replaceBy (jids : List String) : List Event :=
  [.readInstanceConfig 0 ⟨"o", "i", jids, "ip"⟩, .checkGroups 0, .commitWhitelist 0]

theorem trail_replays_listlessGroup :
    ∃ rows now, trail (run step listlessGroup (grant :: replaceBy ["1@g.us"])).db "o" "i" =
        trail listlessGroup.db "o" "i" ++ rows ∧
      readInstance (run step listlessGroup (grant :: replaceBy ["1@g.us"])).db "o" "i" = some now ∧
      (replay [] rows = some now.stored ↔
        Along step (ReadCurrent "o" "i") listlessGroup (grant :: replaceBy ["1@g.us"])) := by
  have present : readInstance listlessGroup.db "o" "i" = some ⟨"i", "o", none⟩ := rfl
  exact trail_replays_iff ⟨by decide, by decide⟩ present _

/-- A grant that commits between a replacement's read and its commit is missing from its `before`. -/
theorem stale_before_breaks_trail :
    let s := run step listlessGroup
      [.readInstanceConfig 0 ⟨"o", "i", ["1@g.us"], "ip"⟩, .checkGroups 0, grant, .commitWhitelist 0]
    trail s.db "o" "i" = [.whitelistMoved "1@g.us" true, .whitelistReplaced [] ["1@g.us"]] ∧
      replay [] (trail s.db "o" "i") = none := by
  decide

end GroupButler.Config
