import GroupButler.Memory.Watermark

/-!
# The eligibility fence

A summary is committed only under the config version its work was claimed at. Versions never fall and
rise with every change of a flag, so the flags did not change in between.
-/

namespace GroupButler.Memory
open Foundation Store Ingest

/-! ### The group rows -/

theorem step_config (s : State) (e : Event) :
    (∃ event, e = .config event ∧ (step s e).config = Config.step s.config event) ∨
      (∃ key version, (step s e).config = fence key version s.config) ∨ (step s e).config = s.config := by
  have summary : ∀ {t : State} {batch : Batch} {leaseToken : Nat} {workToken : Option Nat} {text : String}
      {redactions : Nat} {now : Time},
      ((insertSummary t batch leaseToken workToken text redactions now).getD t).config = t.config := by
    intro t batch leaseToken workToken text redactions now
    cases inserted : insertSummary t batch leaseToken workToken text redactions now with
    | none => rfl
    | some next => rw [Option.getD_some, (insertSummary_some inserted).2]
  have authorization : ∀ batch workToken now,
      (resolveAuthorizationRevokedMemoryBatch s batch workToken now).config = s.config := by
    intro batch workToken now
    rcases resolveAuthorizationRevoked_cases s batch workToken now with same | ⟨lease, _, same⟩
    · rw [same]
    · rw [same, summary]
  cases e with
  | config event => exact Or.inl ⟨event, rfl, rfl⟩
  | complete caller output now =>
    refine Or.inr ?_
    simp only [step]
    split
    · rename_i batch token _
      split
      · exact Or.inr rfl
      · rename_i lease _
        rcases completeMemoryBatch_cases s batch lease token output now with
          ⟨_, _, same⟩ | ⟨_, _, _, _, _, same⟩ | ⟨group, _, _, next, inserted, same⟩
        · rw [same]
          exact Or.inr rfl
        · rw [same]
          exact Or.inr rfl
        · rw [same, (insertSummary_some inserted).2]
          exact Or.inl ⟨batch.scope, group.config.version, rfl⟩
    · exact Or.inr rfl
  | resolveAuthorizationRevoked caller now =>
    refine Or.inr (Or.inr ?_)
    simp only [step]
    split
    · exact authorization ..
    · exact authorization ..
    · exact authorization ..
    · rfl
  | resolveRevoked id now =>
    refine Or.inr (Or.inr ?_)
    simp only [step]
    rcases resolveRevoked_cases s id now with same | ⟨batch, _, lease, _, _, same⟩
    · rw [same]
    · rw [same, summary]
  | _ =>
    refine Or.inr (Or.inr ?_)
    simp only [step, State.build, State.session, State.write]
    repeat' split
    all_goals rfl

/-- Each row is still there, at a version that rose if its flags changed. -/
def RowsKept (before after : Config.ConfigDb) : Prop :=
  ∀ group ∈ before.groups, ∃ next ∈ after.groups, next.key = group.key ∧ Config.Bumped group.config next.config

theorem fence_keys (key : GroupKey) (version : Int) (config : Config.State) :
    (fence key version config).db.groups.map Config.GroupDoc.key = config.db.groups.map Config.GroupDoc.key :=
  map_updateOne fun _ _ _ => rfl

theorem fence_rows (key : GroupKey) (version : Int) (config : Config.State) :
    RowsKept config.db (fence key version config).db := by
  intro group member
  let held (group : Config.GroupDoc) : Bool :=
    group.key == key && group.config.eligible && group.config.version == version
  let touch (group : Config.GroupDoc) : Config.GroupDoc := { group with memoryReadFence := group.memoryReadFence + 1 }
  have columns : (updateOne held touch config.db.groups).map (fun group => (group.key, group.config)) =
      config.db.groups.map fun group => (group.key, group.config) := map_updateOne fun _ _ _ => rfl
  have present : (group.key, group.config) ∈ (updateOne held touch config.db.groups).map fun group =>
      (group.key, group.config) := by
    rw [columns]
    exact List.mem_map_of_mem member
  obtain ⟨next, nextMember, same⟩ := List.mem_map.mp present
  obtain ⟨sameKey, sameConfig⟩ := Prod.mk.inj same
  exact ⟨next, nextMember, sameKey, Or.inl sameConfig⟩

theorem step_rowsKept {s : State} (indexed : Config.Indexed s.config.db) (e : Event) :
    Config.Indexed (step s e).config.db ∧ RowsKept s.config.db (step s e).config.db := by
  rcases step_config s e with ⟨event, _, same⟩ | ⟨key, version, same⟩ | same
  · rw [same]
    refine ⟨Config.step_indexed event indexed, fun group member => ?_⟩
    refine ⟨(Config.effect s.config event).row group, ?_, Config.row_key _ group, Config.effect_bumped indexed event member⟩
    rw [Config.step_groups indexed]
    exact List.mem_append_left _ (List.mem_map_of_mem member)
  · rw [same]
    refine ⟨⟨?_, indexed.instances⟩, fence_rows key version s.config⟩
    rw [fence_keys]
    exact indexed.groups
  · rw [same]
    exact ⟨indexed, fun group member => ⟨group, member, rfl, Or.inl rfl⟩⟩

theorem bumped_le {config next : Config.GroupConfig} (bumped : Config.Bumped config next) :
    config.version ≤ next.version := by
  rcases bumped with same | ⟨_, moved⟩
  · rw [same]
  · omega

/-- Later states have every row, at no lower version. -/
def Later (s later : State) : Prop :=
  ∀ group ∈ s.config.db.groups, ∃ next ∈ later.config.db.groups, next.key = group.key ∧
    group.config.version ≤ next.config.version

theorem run_later {s : State} (indexed : Config.Indexed s.config.db) (events : List Event) :
    Later s (run step s events) := by
  refine run_relates (I := fun s => Config.Indexed s.config.db) (fun s e indexed => (step_rowsKept indexed e).1)
    ?_ ?_ ?_ indexed events
  · exact fun s group member => ⟨group, member, rfl, le_refl _⟩
  · intro a b c first second group member
    obtain ⟨next, present, sameKey, le⟩ := first group member
    obtain ⟨last, lastPresent, lastKey, lastLe⟩ := second next present
    exact ⟨last, lastPresent, lastKey.trans sameKey, le.trans lastLe⟩
  · intro s e indexed group member
    obtain ⟨next, present, sameKey, bumped⟩ := (step_rowsKept indexed e).2 group member
    exact ⟨next, present, sameKey, bumped_le bumped⟩

/-- The group was eligible at `version`, and is while it has that version. -/
def Since (s : State) (key : GroupKey) (version : Int) : Prop :=
  ∃ group ∈ s.config.db.groups, group.key = key ∧ version ≤ group.config.version ∧
    (group.config.version = version → group.config.eligible = true)

theorem eligibleRow_some {s : State} {key : GroupKey} {group : Config.GroupDoc} (found : eligibleRow s key = some group) :
    group ∈ s.config.db.groups ∧ group.key = key ∧ group.config.eligible = true := by
  have named := List.find?_some found
  simp only [Bool.and_eq_true, beq_iff_eq] at named
  exact ⟨List.mem_of_find?_eq_some found, named⟩

theorem eligibleRow_since {s : State} {key : GroupKey} {group : Config.GroupDoc} (found : eligibleRow s key = some group) :
    Since s key group.config.version := by
  obtain ⟨member, named, eligible⟩ := eligibleRow_some found
  exact ⟨group, member, named, le_refl _, fun _ => eligible⟩

theorem step_since {s : State} (indexed : Config.Indexed s.config.db) (e : Event) {key : GroupKey} {version : Int}
    (since : Since s key version) : Since (step s e) key version := by
  obtain ⟨group, member, named, le, eligible⟩ := since
  obtain ⟨next, present, sameKey, bumped⟩ := (step_rowsKept indexed e).2 group member
  refine ⟨next, present, sameKey.trans named, le.trans (bumped_le bumped), fun same => ?_⟩
  rcases bumped with still | ⟨_, moved⟩
  · rw [still] at same ⊢
    exact eligible same
  · omega

/-! ### The version a session read -/

structure Fenced (s : State) : Prop where
  lifecycle : Lifecycle s
  indexed : Config.Indexed s.config.db
  reads : ∀ caller batch version, s.sessions caller = .eligible batch version → Since s batch.scope version

theorem step_session {s : State} {e : Event} {caller : Nat} {batch : Batch} {version : Int}
    (held : (step s e).sessions caller = .eligible batch version) :
    s.sessions caller = .eligible batch version ∨
      ∃ group, eligibleRow s batch.scope = some group ∧ version = group.config.version := by
  have other : ∀ {actor : Nat} {next : Session}, (∀ batch version, next ≠ .eligible batch version) →
      (s.session actor next).sessions caller = .eligible batch version → s.sessions caller = .eligible batch version := by
    intro actor next away held
    by_cases same : caller = actor
    · subst same
      exact absurd (by simpa [State.session] using held) (away batch version)
    · simpa [State.session, same] using held
  cases e with
  | load actor id now =>
    simp only [step] at held
    split at held
    · exact Or.inl (other (by simp) held)
    · exact Or.inl (other (by simp) held)
  | readGroup actor =>
    simp only [step] at held
    split at held
    · rename_i loaded _
      split at held
      · exact Or.inl held
      · rename_i group found
        by_cases same : caller = actor
        · subst same
          obtain ⟨rfl, rfl⟩ : loaded = batch ∧ group.config.version = version := by simpa [State.session] using held
          exact Or.inr ⟨group, found, rfl⟩
        · exact Or.inl (by simpa [State.session, same] using held)
    · exact Or.inl held
  | claimWork actor now =>
    simp only [step] at held
    split at held
    · split at held
      · exact Or.inl (other (by simp) held)
      · split at held
        · exact Or.inl (other (by simp) held)
        · exact Or.inl (other (by simp) held)
    · exact Or.inl held
  | stopSession actor => exact Or.inl (other (by simp) held)
  | complete actor output now => exact Or.inl (by rwa [(complete_framed s actor output now).sessions] at held)
  | resolveAuthorizationRevoked actor now => exact Or.inl (by rwa [(authorization_framed s actor now).sessions] at held)
  | resolveRevoked id now => exact Or.inl (by rwa [step, (resolveRevoked_framed s id now).sessions] at held)
  | _ =>
    refine Or.inl ?_
    simp only [step, State.build, State.write] at held
    repeat' split at held
    all_goals exact held

theorem step_fenced {s : State} (e : Event) (fenced : Fenced s) : Fenced (step s e) where
  lifecycle := step_lifecycle e fenced.lifecycle
  indexed := (step_rowsKept fenced.indexed e).1
  reads caller batch version held := by
    refine step_since fenced.indexed e ?_
    rcases step_session held with before | ⟨group, found, rfl⟩
    · exact fenced.reads caller batch version before
    · exact eligibleRow_since found

theorem start_fenced {config : Config.State} (indexed : Config.Indexed config.db) : Fenced (start config) where
  lifecycle := start_lifecycle config
  indexed := indexed
  reads caller batch version held := by cases held

/-! ### The version the work was claimed at -/

/-- The work of `token` was claimed at `version`, wherever it still stands. -/
structure Stands (s : State) (version : Int) (token : Nat) : Prop where
  old : token < s.fresh
  version : ∀ batch ∈ s.batches, ∀ work, batch.summaryWork = some work → work.token = token →
    work.configVersion = version

theorem Move.work {s : State} {e : Event} {batch next : Batch} (move : Move s e batch next) {work : SummaryWork}
    (held : next.summaryWork = some work) :
    (∃ old, batch.summaryWork = some old ∧ old.token = work.token ∧ old.configVersion = work.configVersion) ∨
      ∃ caller loaded now, e = .claimWork caller now ∧ s.sessions caller = .eligible loaded work.configVersion ∧
        work.token = s.fresh := by
  cases move with
  | kept => exact Or.inl ⟨work, held, rfl, rfl⟩
  | completed completes named matched summaries => cases held
  | @wrote write sent matched fresh =>
    rcases change_work held with kept | ⟨scope, leaseToken, now, rfl⟩
    · exact Or.inl kept
    · generalize batch.id = id at sent
      cases sent with
      | @claimWork caller now loaded version lease inSession leased =>
        exact Or.inr ⟨caller, loaded, now, rfl, inSession, rfl⟩

theorem step_stands {s : State} (numbered : Numbered s) (e : Event) {version : Int} {token : Nat}
    (stands : Stands s version token) : Stands (step s e) version token where
  old := lt_of_lt_of_le stands.old (step_fresh s e)
  version := by
    intro next member work held owned
    rcases step_origin numbered member with ⟨batch, stored, move⟩ | born
    · rcases move.work held with ⟨old, oldHeld, same, sameVersion⟩ | ⟨_, _, _, _, _, issued⟩
      · exact sameVersion.symm.trans (stands.version batch stored old oldHeld (same.trans owned))
      · exact absurd stands.old (by omega)
    · cases born
      cases held

theorem claimWork_issued {s : State} {caller : Nat} {batch : Batch} {version : Int} {now : Time} {token : Nat}
    (read : s.sessions caller = .eligible batch version)
    (claimed : (step s (.claimWork caller now)).sessions caller = .working batch token) :
    token = s.fresh ∧ (step s (.claimWork caller now)).fresh = s.fresh + 1 := by
  simp only [step, read] at claimed ⊢
  split at claimed
  · simp [State.session] at claimed
  · split at claimed
    · rename_i hits
      obtain rfl : s.fresh = token := by simpa [State.session] using claimed
      exact ⟨rfl, by simp [hits]⟩
    · simp [State.session] at claimed

/-- A successful claim leaves the work standing at the version its caller had read. -/
theorem claimWork_stands {s : State} (numbered : Numbered s) {caller : Nat} {batch : Batch} {version : Int} {now : Time}
    {token : Nat} (read : s.sessions caller = .eligible batch version)
    (claimed : (step s (.claimWork caller now)).sessions caller = .working batch token) :
    Stands (step s (.claimWork caller now)) version token := by
  obtain ⟨rfl, fresh⟩ := claimWork_issued read claimed
  refine ⟨by omega, ?_⟩
  intro next present work held owned
  rcases step_origin numbered present with ⟨before, beforeStored, move⟩ | born
  · rcases move.work held with ⟨old, oldHeld, same, _⟩ | ⟨actor, loaded, _, event, inSession, _⟩
    · exact absurd ((numbered.below before beforeStored).work old oldHeld) (by omega)
    · obtain ⟨rfl, _⟩ := Event.claimWork.inj event
      exact (Session.eligible.inj (read.symm.trans inSession)).2.symm
  · cases born
    cases held

theorem run_stands {s : State} (numbered : Numbered s) {caller : Nat} {batch : Batch} {version : Int} {now : Time}
    {token : Nat} (read : s.sessions caller = .eligible batch version)
    (claimed : (step s (.claimWork caller now)).sessions caller = .working batch token) (rest : List Event) :
    Stands (run step (step s (.claimWork caller now)) rest) version token := by
  let invariant (s : State) : Prop := Numbered s ∧ Stands s version token
  have keep : ∀ s e, invariant s → invariant (step s e) :=
    fun s e ⟨numbered, stands⟩ => ⟨step_numbered e numbered, step_stands numbered e stands⟩
  exact (run_invariant keep ⟨step_numbered _ numbered, claimWork_stands numbered read claimed⟩ rest).2

theorem run_since {s : State} (indexed : Config.Indexed s.config.db) {key : GroupKey} {version : Int}
    (since : Since s key version) (events : List Event) : Since (run step s events) key version := by
  let invariant (s : State) : Prop := Config.Indexed s.config.db ∧ Since s key version
  have keep : ∀ s e, invariant s → invariant (step s e) :=
    fun s e ⟨indexed, since⟩ => ⟨(step_rowsKept indexed e).1, step_since indexed e since⟩
  exact (run_invariant keep ⟨indexed, since⟩ events).2

/-- A completion with a new summary finds the group eligible at the version of its work. -/
theorem completed_version {s : State} {batch : Batch} {lease : Lease} {token : Nat} {output : String} {now : Time}
    (completed : (completeMemoryBatch s batch lease token output now).2 = .completed) :
    ∃ group, eligibleRow s batch.scope = some group ∧ ∃ stored ∈ s.batches, ∃ work, stored.summaryWork = some work ∧
      work.token = token ∧ work.configVersion = group.config.version := by
  rcases completeMemoryBatch_cases s batch lease token output now with
    ⟨outcome, different, same⟩ | ⟨_, _, _, outcome, different, same⟩ |
      ⟨group, eligible, ⟨stored, work, found, held, owned, current⟩, _⟩
  · rw [same] at completed
    exact absurd completed different
  · rw [same] at completed
    exact absurd completed different
  · exact ⟨group, eligible, stored, List.mem_of_find?_eq_some found, work, held, owned, current⟩

/-- From the caller's read of the group row, through its claim of the work, to the commit of its
summary, the group is assigned and whitelisted in every state. -/
theorem eligible_throughout {config : Config.State} (indexed : Config.Indexed config.db)
    {first between rest seen : List Event} {caller : Nat} {batch : Batch} {lease : Lease} {version : Int} {token : Nat}
    {output : String} {claimedAt completedAt : Time}
    (read : (run step (start config) first).sessions caller = .eligible batch version)
    (held : (run step (start config) (first ++ between)).sessions caller = .eligible batch version)
    (claimed : (run step (start config) (first ++ between ++ [.claimWork caller claimedAt])).sessions caller =
      .working batch token)
    (completed : (completeMemoryBatch (run step (start config) (first ++ between ++ .claimWork caller claimedAt :: rest))
      batch lease token output completedAt).2 = .completed)
    (sofar : seen <+: between ++ .claimWork caller claimedAt :: rest) :
    (eligibleRow (run step (start config) (first ++ seen)) batch.scope).isSome = true := by
  have reachable : ∀ events, Fenced (run step (start config) events) := fun events =>
    run_invariant (fun _ e => step_fenced e) (start_fenced indexed) events
  obtain ⟨group, eligible, stored, storedMember, work, workHeld, owned, current⟩ := completed_version completed
  obtain ⟨groupMember, groupKey, _⟩ := eligibleRow_some eligible
  -- the work that commits is the one this caller claimed
  have committed : group.config.version = version := by
    have stands := run_stands (reachable (first ++ between)).lifecycle.numbered held
      (by simpa [run_append] using claimed) rest
    rw [← run_cons, ← run_append] at stands
    exact current.symm.trans (stands.version stored storedMember work workHeld owned)
  -- the state after `seen` lies between the read and the commit
  obtain ⟨remaining, whole⟩ := sofar
  obtain ⟨row, rowMember, rowKey, atLeast, ifSame⟩ : Since (run step (start config) (first ++ seen)) batch.scope version := by
    rw [run_append]
    exact run_since (reachable first).indexed ((reachable first).reads caller batch version read) seen
  have last : row.config.version ≤ version := by
    obtain ⟨next, present, nextKey, le⟩ := run_later (reachable (first ++ seen)).indexed remaining row rowMember
    have commit : run step (run step (start config) (first ++ seen)) remaining =
        run step (start config) (first ++ between ++ .claimWork caller claimedAt :: rest) := by
      rw [← run_append, List.append_assoc, whole, ← List.append_assoc]
    rw [commit] at present
    obtain rfl := (reachable _).indexed.same_group present groupMember (nextKey.trans (rowKey.trans groupKey.symm))
    omega
  have eligibleNow := ifSame (by omega)
  refine List.find?_isSome.mpr ⟨row, rowMember, ?_⟩
  simp [rowKey, eligibleNow]

def claimedBatch : Batch where
  id := 0
  scope := oneGroup
  first := ⟨1700000050000, "B"⟩
  last := ⟨1700000050000, "B"⟩
  predecessor := "origin"
  sourceCount := 1
  sourceWaMessageIds := ["B"]
  sourceTextBytes := 5
  state := .processing
  lease := some ⟨"worker", 1, 122000⟩
  summaryWork := none
  attempts := 1
  nextAttemptAt := some 1000
  failure := none
  summaryId := none
  createdAt := 1000
  startedAt := some 2000
  completedAt := none
  updatedAt := 2000

def untilRead : List Event :=
  [.save late, .scan 0 "o", .checkOutstanding 0, .readWatermark 0, .select 0, .insert 0 1000, .claim "o" "worker" 2000 0,
    .load 0 0 3000, .readGroup 0]

def otherGroupAppears : List Event := [.config (.upsertObserved ⟨"o", "i", "2@g.us"⟩)]

/-- Another group appears between the read and the claim, and the work is renewed before the commit. -/
theorem eligible_throughout_renewed :
    (eligibleRow (run step (start oneEligibleGroup)
      (untilRead ++ (otherGroupAppears ++ [.claimWork 0 3000, .renewWork 0 3500]))) oneGroup).isSome = true := by
  have indexed : Config.Indexed oneEligibleGroup.db := ⟨by decide, by decide⟩
  have read : (run step (start oneEligibleGroup) untilRead).sessions 0 = .eligible claimedBatch 1 := rfl
  have held : (run step (start oneEligibleGroup) (untilRead ++ otherGroupAppears)).sessions 0 = .eligible claimedBatch 1 :=
    rfl
  have claimed : (run step (start oneEligibleGroup) (untilRead ++ otherGroupAppears ++ [.claimWork 0 3000])).sessions 0 =
      .working claimedBatch 2 := rfl
  have completed : (completeMemoryBatch (run step (start oneEligibleGroup)
      (untilRead ++ otherGroupAppears ++ .claimWork 0 3000 :: [.renewWork 0 3500])) claimedBatch ⟨"worker", 1, 122000⟩ 2
      "summary" 4000).2 = .completed := rfl
  exact eligible_throughout indexed read held claimed completed (List.prefix_refl _)

end GroupButler.Memory
