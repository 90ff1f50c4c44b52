import GroupButler.Groups.Sync

/-!
# What a sync leaves behind

The rows after each loop, and from them the membership, names, config and states after the sync.
-/

namespace GroupButler.Groups
open Foundation Store Ingest Sends

theorem row_eq_some {store : GroupStore} {key : GroupKey} {doc : GroupDoc} :
    store.row key = some doc ↔ doc ∈ store.docs ∧ doc.key = key := by
  constructor
  · intro found
    exact ⟨List.mem_of_find?_eq_some found, by simpa using List.find?_some found⟩
  · rintro ⟨member, named⟩
    have named_ : (doc.key == key) = true := by simp [named]
    obtain ⟨other, found⟩ := Option.isSome_iff_exists.mp
      (List.find?_isSome.mpr ⟨doc, member, named_⟩ : (store.docs.find? fun doc => doc.key == key).isSome)
    have otherKey : other.key = key := by simpa using List.find?_some found
    have same := List.inj_on_of_nodup_map store.unique (List.mem_of_find?_eq_some found) member (otherKey.trans named.symm)
    rw [GroupStore.row, found, same]

theorem row_upsertObserved (store : GroupStore) (key other : GroupKey) (observed : Observed) (fromSync : Bool) (now : Time) :
    (upsertObserved store key observed fromSync now).row other =
      if other = key then
        some ((store.row key).elim (.inserted key observed fromSync now) (GroupDoc.observe observed fromSync))
      else store.row other :=
  @find?_upsertOne_key _ _ (GroupDoc.observe observed fromSync) store.docs _ GroupDoc.key key
    (.inserted key observed fromSync now) (fun _ => rfl) rfl other

theorem row_markLeft (store : GroupStore) (key other : GroupKey) (state : GroupState) (now : Time) :
    (markLeft store key state now).row other =
      if other = key then (store.row key).map (GroupDoc.leave state now) else store.row other :=
  @find?_updateOne_key _ _ (GroupDoc.leave state now) store.docs _ GroupDoc.key key (fun _ => rfl) other

/-- The groups of the instance that are not known to be gone. -/
def Joined (store : GroupStore) (scope : Scope) (jid : String) : Prop :=
  ∃ doc, store.row (scope.group jid) = some doc ∧ doc.observed.state.gone = false

theorem mem_knownGroupJids {store : GroupStore} {scope : Scope} {jid : String} :
    jid ∈ knownGroupJids store scope ↔ Joined store scope jid := by
  simp only [knownGroupJids, loadObserved, List.mem_map, List.mem_filter, Joined, row_eq_some]
  constructor
  · rintro ⟨entry, ⟨⟨doc, ⟨member, held⟩, rfl⟩, here⟩, rfl⟩
    simp only [Scope.holds, Bool.and_eq_true, beq_iff_eq] at held
    refine ⟨doc, ⟨member, ?_⟩, by simpa using here⟩
    rw [Scope.group, ← held.1, ← held.2]
  · rintro ⟨doc, ⟨member, named⟩, here⟩
    refine ⟨_, ⟨⟨doc, ⟨member, ?_⟩, rfl⟩, by simpa using here⟩, by rw [named]; rfl⟩
    simp [Scope.holds, named, Scope.group]

/-! ### One pass over the entries -/

/-- What the upserts of some groups may change: rows of those groups, which become active and keep
their config. -/
structure Merged (scope : Scope) (listed : List String) (before after : GroupStore) : Prop where
  outside : ∀ key, (∀ jid ∈ listed, key ≠ scope.group jid) → after.row key = before.row key
  config : ∀ key old, before.row key = some old → ∃ new, after.row key = some new ∧ new.config = old.config
  active : ∀ key new, after.row key = some new → before.row key = some new ∨ new.observed.state = .active

theorem Merged.refl (scope : Scope) (listed : List String) (store : GroupStore) : Merged scope listed store store :=
  ⟨fun _ _ => rfl, fun _ old found => ⟨old, found, rfl⟩, fun _ _ found => Or.inl found⟩

theorem Merged.trans {scope : Scope} {listed : List String} {a b c : GroupStore} (first : Merged scope listed a b)
    (second : Merged scope listed b c) : Merged scope listed a c where
  outside key away := (second.outside key away).trans (first.outside key away)
  config key old found := by
    obtain ⟨mid, midFound, midConfig⟩ := first.config key old found
    obtain ⟨new, newFound, newConfig⟩ := second.config key mid midFound
    exact ⟨new, newFound, newConfig.trans midConfig⟩
  active key new found := by
    rcases second.active key new found with mid | active
    · exact first.active key new mid
    · exact Or.inr active

theorem Merged.mono {scope : Scope} {few many : List String} {a b : GroupStore} (merged : Merged scope few a b)
    (within : ∀ jid ∈ few, jid ∈ many) : Merged scope many a b :=
  ⟨fun key away => merged.outside key fun jid member => away jid (within jid member), merged.config, merged.active⟩

theorem upsert_merged {scope : Scope} (store : GroupStore) (jid : String) {observed : Observed} (active : observed.state = .active)
    (now : Time) : Merged scope [jid] store (upsertObserved store (scope.group jid) observed true now) where
  outside key away := by rw [row_upsertObserved, if_neg (away jid List.mem_cons_self)]
  config key old found := by
    rw [row_upsertObserved]
    by_cases same : key = scope.group jid
    · subst same
      exact ⟨_, if_pos rfl, by rw [found]; rfl⟩
    · exact ⟨old, by rw [if_neg same, found], rfl⟩
  active key new found := by
    rw [row_upsertObserved] at found
    by_cases same : key = scope.group jid
    · rw [if_pos same] at found
      obtain rfl := Option.some.inj found
      right
      cases store.row (scope.group jid) with
      | none => exact active
      | some doc => exact active
    · rw [if_neg same] at found
      exact Or.inl found

theorem upsert_active (store : GroupStore) (key : GroupKey) {observed : Observed} (active : observed.state = .active) (now : Time) :
    ∃ doc, (upsertObserved store key observed true now).row key = some doc ∧ doc.observed.state = .active := by
  rw [row_upsertObserved, if_pos rfl]
  cases store.row key with
  | none => exact ⟨_, rfl, active⟩
  | some doc => exact ⟨_, rfl, active⟩

section
variable [Unicode] (scope : Scope) (source : SyncSource) (calls : Calls)

theorem merge_merged (stored : List (String × Observed)) (entry : BridgeGroupSummary) (jid : String) (now : Time) (p : Progress) :
    Merged scope [jid] p.store (p.merge scope source calls stored entry jid now).store :=
  upsert_merged p.store jid (mergeSnapshot_state _ entry source calls.moment) now

theorem merge_active (stored : List (String × Observed)) (entry : BridgeGroupSummary) (jid : String) (now : Time) (p : Progress) :
    ∃ doc, (p.merge scope source calls stored entry jid now).store.row (scope.group jid) = some doc ∧
      doc.observed.state = .active :=
  upsert_active p.store (scope.group jid) (mergeSnapshot_state _ entry source calls.moment) now

@[simp] theorem merge_returned (stored : List (String × Observed)) (entry : BridgeGroupSummary) (jid : String) (now : Time)
    (p : Progress) : (p.merge scope source calls stored entry jid now).returned = jid :: p.returned := rfl

/-- The loop over the entries touches the groups they list. -/
theorem mergeEntries_merged (stored : List (String × Observed)) (entries : List BridgeGroupSummary) (n : Nat) (p : Progress) :
    Merged scope (entries.filterMap groupAddress) p.store (mergeEntries scope source calls stored entries n p).store := by
  induction entries generalizing n p with
  | nil => exact Merged.refl _ _ _
  | cons entry rest ih =>
    rw [mergeEntries]
    cases address : groupAddress entry with
    | none =>
      rw [List.filterMap_cons_none address]
      exact ih n p
    | some jid =>
      rw [List.filterMap_cons_some address]
      have head : Merged scope (jid :: rest.filterMap groupAddress) p.store
          (p.merge scope source calls stored entry jid (calls.upsert n).2).store :=
        (merge_merged scope source calls stored entry jid _ p).mono (by simp)
      simp only
      generalize p.merge scope source calls stored entry jid (calls.upsert n).2 = next at head ⊢
      cases (calls.upsert n).1 with
      | answered => exact head.trans ((ih (n + 1) next).mono fun _ member => List.mem_cons_of_mem jid member)
      | unanswered => exact head
      | failed => exact Merged.refl _ _ _

/-- A loop that ends without an error has returned what the entries list, and each of these groups is active. -/
theorem mergeEntries_complete (stored : List (String × Observed)) (entries : List BridgeGroupSummary) (n : Nat) (p : Progress)
    (done : (mergeEntries scope source calls stored entries n p).error = none) :
    (∀ jid, jid ∈ (mergeEntries scope source calls stored entries n p).returned ↔
      jid ∈ p.returned ∨ jid ∈ entries.filterMap groupAddress) ∧
    ∀ jid ∈ entries.filterMap groupAddress,
      ∃ doc, (mergeEntries scope source calls stored entries n p).store.row (scope.group jid) = some doc ∧
        doc.observed.state = .active := by
  induction entries generalizing n p with
  | nil => simp [mergeEntries]
  | cons entry rest ih =>
    rw [mergeEntries] at done ⊢
    cases address : groupAddress entry with
    | none =>
      simp only [address] at done
      rw [List.filterMap_cons_none address]
      exact ih n p done
    | some jid =>
      have head := merge_active scope source calls stored entry jid (calls.upsert n).2 p
      have grown := merge_returned scope source calls stored entry jid (calls.upsert n).2 p
      simp only [address] at done ⊢
      rw [List.filterMap_cons_some address]
      generalize p.merge scope source calls stored entry jid (calls.upsert n).2 = next at head grown done ⊢
      cases outcome : (calls.upsert n).1 with
      | unanswered => simp [outcome] at done
      | failed => simp [outcome] at done
      | answered =>
        simp only [outcome] at done ⊢
        obtain ⟨returned, active⟩ := ih (n + 1) next done
        constructor
        · intro other
          rw [returned, grown, List.mem_cons, List.mem_cons, or_assoc, or_left_comm]
        · intro other member
          rcases List.mem_cons.mp member with rfl | later
          · -- written active by this entry, and active ever after
            have merged := mergeEntries_merged scope source calls stored rest (n + 1) next
            obtain ⟨doc, written, here⟩ := head
            obtain ⟨new, found, -⟩ := merged.config _ _ written
            refine ⟨new, found, ?_⟩
            rcases merged.active _ _ found with before | now
            · rwa [Option.some.inj (before.symm.trans written)]
            · exact now
          · exact active other later

end

/-! ### One pass over the baseline -/

section
variable (scope : Scope) (calls : Calls)

/-- The absence pass leaves a row as it was, or marks it left where the baseline names its group and
the list did not. -/
theorem markAbsent_rows (baseline : List String) (n : Nat) (p : Progress) (key : GroupKey) :
    (markAbsent scope calls baseline n p).store.row key = p.store.row key ∨
      (∃ jid ∈ baseline, jid ∉ p.returned ∧ key = scope.group jid) ∧
        ∃ now, (markAbsent scope calls baseline n p).store.row key = (p.store.row key).map (GroupDoc.leave .left now) := by
  induction baseline generalizing n p with
  | nil => exact Or.inl rfl
  | cons jid rest ih =>
    rw [markAbsent]
    split
    · rcases ih n p with same | ⟨⟨other, member, absent, named⟩, marked⟩
      · exact Or.inl same
      · exact Or.inr ⟨⟨other, List.mem_cons_of_mem _ member, absent, named⟩, marked⟩
    · rename_i absent
      have written : (p.leave scope jid (calls.mark n).2).store.row key =
          if key = scope.group jid then (p.store.row (scope.group jid)).map (GroupDoc.leave .left (calls.mark n).2)
          else p.store.row key := row_markLeft p.store (scope.group jid) key .left (calls.mark n).2
      by_cases own : key = scope.group jid
      · subst own
        rw [if_pos rfl] at written
        have named : ∃ other ∈ jid :: rest, other ∉ p.returned ∧ scope.group jid = scope.group other :=
          ⟨jid, List.mem_cons_self, absent, rfl⟩
        cases (calls.mark n).1 with
        | unanswered => exact Or.inr ⟨named, _, written⟩
        | failed => exact Or.inl rfl
        | answered =>
          rcases ih (n + 1) (p.leave scope jid (calls.mark n).2) with same | ⟨-, now, again⟩
          · exact Or.inr ⟨named, _, same.trans written⟩
          · exact Or.inr ⟨named, now, again.trans (by rw [written, Option.map_map]; rfl)⟩
      · rw [if_neg own] at written
        cases (calls.mark n).1 with
        | unanswered => exact Or.inl written
        | failed => exact Or.inl rfl
        | answered =>
          rcases ih (n + 1) (p.leave scope jid (calls.mark n).2) with same | ⟨⟨other, member, away, named⟩, now, again⟩
          · exact Or.inl (same.trans written)
          · exact Or.inr ⟨⟨other, List.mem_cons_of_mem _ member, away, named⟩, now, again.trans (by rw [written])⟩

@[simp] theorem markAbsent_returned (baseline : List String) (n : Nat) (p : Progress) :
    (markAbsent scope calls baseline n p).returned = p.returned := by
  induction baseline generalizing n p with
  | nil => rfl
  | cons jid rest ih =>
    rw [markAbsent]
    split
    · exact ih n p
    · cases (calls.mark n).1 with
      | answered => exact ih (n + 1) (p.leave scope jid (calls.mark n).2)
      | unanswered => rfl
      | failed => rfl

/-- A loop that ends without an error has marked every group of the baseline the list did not name. -/
theorem markAbsent_complete (baseline : List String) (n : Nat) (p : Progress)
    (done : (markAbsent scope calls baseline n p).error = none) :
    ∀ jid ∈ baseline, jid ∉ p.returned →
      ∃ now, (markAbsent scope calls baseline n p).store.row (scope.group jid) =
        (p.store.row (scope.group jid)).map (GroupDoc.leave .left now) := by
  induction baseline generalizing n p with
  | nil => simp
  | cons head rest ih =>
    intro jid member absent
    rw [markAbsent] at done ⊢
    by_cases listed : head ∈ p.returned
    · rw [if_pos listed] at done ⊢
      rcases List.mem_cons.mp member with rfl | later
      · exact absurd listed absent
      · exact ih n p done jid later absent
    · rw [if_neg listed] at done ⊢
      have written := row_markLeft p.store (scope.group head) (scope.group jid) .left (calls.mark n).2
      cases outcome : (calls.mark n).1 with
      | unanswered => simp [outcome] at done
      | failed => simp [outcome] at done
      | answered =>
        simp only [outcome] at done ⊢
        have row : (p.leave scope head (calls.mark n).2).store.row (scope.group jid) =
            if scope.group jid = scope.group head then
              (p.store.row (scope.group head)).map (GroupDoc.leave .left (calls.mark n).2)
            else p.store.row (scope.group jid) := written
        by_cases own : scope.group jid = scope.group head
        · rw [if_pos own, ← own] at row
          rcases markAbsent_rows scope calls rest (n + 1) (p.leave scope head (calls.mark n).2) (scope.group jid) with
            same | ⟨-, now, again⟩
          · exact ⟨_, same.trans row⟩
          · exact ⟨now, again.trans (by rw [row, Option.map_map]; rfl)⟩
        · rw [if_neg own] at row
          have later : jid ∈ rest := (List.mem_cons.mp member).resolve_left fun same => own (by rw [same])
          obtain ⟨now, marked⟩ := ih (n + 1) (p.leave scope head (calls.mark n).2) done jid later absent
          exact ⟨now, marked.trans (by rw [row])⟩

/-- The absence pass leaves every row as it was, or marks it left: a joined group the list did not name. -/
theorem pruneAbsent_rows (prune : Bool) (p : Progress) (key : GroupKey) :
    (pruneAbsent scope calls prune p).store.row key = p.store.row key ∨
      (prune = true ∧ ∃ jid, Joined p.store scope jid ∧ jid ∉ p.returned ∧ key = scope.group jid) ∧
        ∃ now, (pruneAbsent scope calls prune p).store.row key = (p.store.row key).map (GroupDoc.leave .left now) := by
  rw [pruneAbsent]
  split
  · exact Or.inl rfl
  · rename_i live
    have on : prune = true := by
      cases prune <;> simp_all
    split
    · rcases markAbsent_rows scope calls (calls.order (knownGroupJids p.store scope)) 0 p key with
        same | ⟨⟨jid, member, absent, named⟩, marked⟩
      · exact Or.inl same
      · have joined := mem_knownGroupJids.mp ((calls.order_perm _).mem_iff.mp member)
        exact Or.inr ⟨⟨on, jid, joined, absent, named⟩, marked⟩
    · exact Or.inl rfl

theorem pruneAbsent_complete {p : Progress} (done : (pruneAbsent scope calls true p).error = none) :
    p.error = none ∧ ∀ jid, Joined p.store scope jid → jid ∉ p.returned →
      ∃ now, (pruneAbsent scope calls true p).store.row (scope.group jid) =
        (p.store.row (scope.group jid)).map (GroupDoc.leave .left now) := by
  rw [pruneAbsent] at done ⊢
  cases failed : p.error with
  | some error => simp [failed] at done
  | none =>
    refine ⟨rfl, fun jid joined absent => ?_⟩
    simp only [failed, Option.isSome_none, Bool.not_true, Bool.or_false, Bool.false_eq_true, if_false] at done ⊢
    by_cases known : calls.known = true
    · rw [if_pos known] at done ⊢
      have member := (calls.order_perm _).mem_iff.mpr (mem_knownGroupJids.mpr joined)
      exact markAbsent_complete scope calls _ 0 p done jid member absent
    · simp [known] at done

theorem pruneAbsent_error {p : Progress} {prune : Bool} (done : (pruneAbsent scope calls prune p).error = none) :
    p.error = none := by
  cases prune with
  | true => exact (pruneAbsent_complete scope calls done).1
  | false => simpa [pruneAbsent] using done

@[simp] theorem gauge_store (p : Progress) : (gauge scope calls p).store = p.store := by
  unfold gauge
  split_ifs <;> rfl

theorem gauge_error {p : Progress} (done : (gauge scope calls p).error = none) : p.error = none := by
  unfold gauge at done
  split_ifs at done <;> simp_all

end

/-! ### The postcondition -/

/-- The valid group addresses the answer lists. -/
def listed (answer : GroupsAnswer) : List String :=
  match bridgeGroups answer with
  | .ok groups => groups.filterMap groupAddress
  | .error _ => []

/-- The call succeeded and its answer carries a groups list. -/
def CarriesList (answer : GroupsAnswer) : Prop := ∃ groups, bridgeDo answer = .ok (some groups)

def GroupStore.state (store : GroupStore) (key : GroupKey) : Option GroupState := (store.row key).map fun doc => doc.observed.state

/-- What a full sync of one instance promises. -/
structure Postcondition (scope : Scope) (answer : GroupsAnswer) (prune : Bool) (before : GroupStore) (after : Progress) : Prop where
  membership : after.error = none → prune = true → ∀ jid, Joined after.store scope jid ↔ jid ∈ listed answer
  others : after.error = none → prune = true → ∀ key old, before.row key = some old →
    (∀ jid ∈ listed answer, key ≠ scope.group jid) →
      ∃ new, after.store.row key = some new ∧ new.observed.subject = old.observed.subject ∧
        new.observed.subjectHistory = old.observed.subjectHistory ∧ new.config = old.config
  unreported : ¬ CarriesList answer → ∀ key, after.store.state key = before.state key
  config : ∀ key old, before.row key = some old → ∃ new, after.store.row key = some new ∧ new.config = old.config
  unpruned : prune = false → ∀ key new, after.store.row key = some new → new.observed.state = .left →
    ∃ old, before.row key = some old ∧ old.observed.state = .left

section
variable [Unicode] (scope : Scope) (source : SyncSource) (calls : Calls) (prune : Bool) (before : GroupStore)

/-- The sync after both loops. -/
def reconciled (groups : List BridgeGroupSummary) : Progress :=
  pruneAbsent scope calls prune
    (mergeEntries scope source calls (loadObserved before scope) groups 0 ⟨before, [], { source }, none⟩)

/-- A sync that fails before its first write changes nothing; any other leaves what both loops leave. -/
theorem runGroupSync_cases (answer : GroupsAnswer) :
    ((runGroupSync scope source calls answer prune before).store = before ∧
        (runGroupSync scope source calls answer prune before).error ≠ none) ∨
      ∃ groups, bridgeGroups answer = .ok groups ∧
        (runGroupSync scope source calls answer prune before).store = (reconciled scope source calls prune before groups).store ∧
        ((runGroupSync scope source calls answer prune before).error = none →
          (reconciled scope source calls prune before groups).error = none) := by
  unfold runGroupSync
  cases bridgeGroups answer with
  | error error => exact Or.inl ⟨rfl, by simp [Progress.finish]⟩
  | ok groups =>
    by_cases loaded : calls.load = true
    · simp only [loaded, if_true, Progress.finish, gauge_store]
      exact Or.inr ⟨groups, rfl, rfl, gauge_error scope calls⟩
    · simp [loaded, Progress.finish]

variable {groups : List BridgeGroupSummary}

/-- After both loops the joined groups are the listed ones. -/
theorem reconciled_membership (done : (reconciled scope source calls true before groups).error = none) (jid : String) :
    Joined (reconciled scope source calls true before groups).store scope jid ↔ jid ∈ groups.filterMap groupAddress := by
  unfold reconciled at done ⊢
  obtain ⟨mergedDone, marked⟩ := pruneAbsent_complete scope calls done
  obtain ⟨returned, active⟩ := mergeEntries_complete scope source calls (loadObserved before scope) groups 0 _ mergedDone
  generalize mergeEntries scope source calls (loadObserved before scope) groups 0 ⟨before, [], { source }, none⟩ = p at *
  have named (other : String) : other ∈ p.returned ↔ other ∈ groups.filterMap groupAddress := by simpa using returned other
  have notJoined (now : Time) (doc : Option GroupDoc) : ∀ row, doc.map (GroupDoc.leave .left now) = some row →
      row.observed.state.gone = true := by
    intro row found
    obtain ⟨_, -, rfl⟩ := Option.map_eq_some_iff.mp found
    rfl
  constructor
  · rintro ⟨doc, found, here⟩
    by_contra absent
    rw [← named] at absent
    rcases pruneAbsent_rows scope calls true p (scope.group jid) with same | ⟨-, now, left⟩
    · obtain ⟨now, left⟩ := marked jid ⟨doc, same.symm.trans found, here⟩ absent
      exact absurd (notJoined now _ doc (left.symm.trans found)) (by simp [here])
    · exact absurd (notJoined now _ doc (left.symm.trans found)) (by simp [here])
  · intro member
    obtain ⟨doc, found, here⟩ := active jid member
    rcases pruneAbsent_rows scope calls true p (scope.group jid) with same | ⟨⟨-, other, -, absent, key⟩, -⟩
    · exact ⟨doc, same.trans found, by rw [here]; rfl⟩
    · have same : jid = other := congrArg GroupKey.groupJid key
      exact absurd ((named jid).mpr member) (same ▸ absent)

/-- Groups the list does not name keep their name, history and config. -/
theorem reconciled_others {key : GroupKey} {old : GroupDoc} (found : before.row key = some old)
    (away : ∀ jid ∈ groups.filterMap groupAddress, key ≠ scope.group jid) :
    ∃ new, (reconciled scope source calls prune before groups).store.row key = some new ∧
      new.observed.subject = old.observed.subject ∧ new.observed.subjectHistory = old.observed.subjectHistory ∧
      new.config = old.config := by
  have merged := mergeEntries_merged scope source calls (loadObserved before scope) groups 0 ⟨before, [], { source }, none⟩
  have kept := (merged.outside key away).trans found
  unfold reconciled
  rcases pruneAbsent_rows scope calls prune _ key with same | ⟨-, now, left⟩
  · exact ⟨old, same.trans kept, rfl, rfl, rfl⟩
  · exact ⟨old.leave .left now, by rw [left, kept]; rfl, rfl, rfl, rfl⟩

theorem reconciled_config {key : GroupKey} {old : GroupDoc} (found : before.row key = some old) :
    ∃ new, (reconciled scope source calls prune before groups).store.row key = some new ∧ new.config = old.config := by
  have merged := mergeEntries_merged scope source calls (loadObserved before scope) groups 0 ⟨before, [], { source }, none⟩
  obtain ⟨mid, kept, config⟩ := merged.config key old found
  unfold reconciled
  rcases pruneAbsent_rows scope calls prune _ key with same | ⟨-, now, left⟩
  · exact ⟨mid, same.trans kept, config⟩
  · exact ⟨mid.leave .left now, by rw [left, kept]; rfl, config⟩

theorem reconciled_unpruned {key : GroupKey} {new : GroupDoc}
    (found : (reconciled scope source calls false before groups).store.row key = some new) (left : new.observed.state = .left) :
    before.row key = some new := by
  have merged := mergeEntries_merged scope source calls (loadObserved before scope) groups 0 ⟨before, [], { source }, none⟩
  unfold reconciled at found
  rcases pruneAbsent_rows scope calls false _ key with same | ⟨⟨off, -⟩, -⟩
  · rcases merged.active key new (same.symm.trans found) with old | active
    · exact old
    · rw [left] at active
      cases active
  · cases off

/-- Without a list there is nothing to merge: states move only where pruning finds a joined group. -/
theorem reconciled_nil (quiet : prune = false ∨ ∀ jid, ¬ Joined before scope jid) (key : GroupKey) :
    (reconciled scope source calls prune before []).store.row key = before.row key := by
  unfold reconciled
  rcases pruneAbsent_rows scope calls prune (mergeEntries scope source calls (loadObserved before scope) [] 0
    ⟨before, [], { source }, none⟩) key with same | ⟨⟨on, jid, joined, -⟩, -⟩
  · exact same
  · rcases quiet with off | none
    · rw [off] at on
      cases on
    · exact absurd joined (none jid)

end

/-! ### Every call answered -/

/-- A store that answers every call, in the order of its rows. -/
def answeredCalls : Calls where
  started := 0
  moment := 0
  finished := 0
  load := true
  upsert _ := (.answered, 0)
  known := true
  order := id
  order_perm _ := List.Perm.refl _
  mark _ := (.answered, 0)
  count := true

theorem markAbsent_answered (scope : Scope) (baseline : List String) (n : Nat) {p : Progress} (live : p.error = none) :
    (markAbsent scope answeredCalls baseline n p).error = none := by
  induction baseline generalizing n p with
  | nil => exact live
  | cons jid rest ih =>
    rw [markAbsent]
    split
    · exact ih n live
    · exact ih (n + 1) rfl

section
variable [Unicode] (scope : Scope) (source : SyncSource)

theorem answered_empty {answer : GroupsAnswer} (empty : bridgeGroups answer = .ok []) (before : GroupStore) :
    (runGroupSync scope source answeredCalls answer true before).error = none := by
  have marked := markAbsent_answered scope (knownGroupJids before scope) 0 (p := ⟨before, [], { source }, none⟩) rfl
  simp only [runGroupSync, empty, mergeEntries, pruneAbsent, answeredCalls, Progress.finish, gauge] at marked ⊢
  simp [marked]

/-- The postcondition holds, whatever the store answers, unless the answer carries no list, pruning is
on, and some stored group is believed joined. -/
theorem sync_postcondition_iff (answer : GroupsAnswer) (prune : Bool) (before : GroupStore) :
    (∀ calls, Postcondition scope answer prune before (runGroupSync scope source calls answer prune before)) ↔
      CarriesList answer ∨ (∃ error, bridgeDo answer = .error error) ∨ prune = false ∨ ∀ jid, ¬ Joined before scope jid := by
  constructor
  · intro holds
    by_contra fails
    push Not at fails
    obtain ⟨noList, noError, on, jid, joined⟩ := fails
    have onTrue : prune = true := by simpa using on
    subst onTrue
    have empty : bridgeGroups answer = .ok [] := by
      unfold bridgeGroups
      cases answered : bridgeDo answer with
      | error error => exact absurd answered (noError error)
      | ok groups =>
        cases groups with
        | none => rfl
        | some groups => exact absurd ⟨groups, answered⟩ noList
    obtain ⟨doc, found, here⟩ := joined
    have post := holds answeredCalls
    have gone := (post.membership (answered_empty scope source empty before) rfl jid).not.mpr (by simp [listed, empty])
    have kept := post.unreported noList (scope.group jid)
    rw [GroupStore.state, GroupStore.state, found] at kept
    obtain ⟨new, newFound, same⟩ := Option.map_eq_some_iff.mp kept
    exact gone ⟨new, newFound, by rw [same]; exact here⟩
  · intro condition calls
    rcases runGroupSync_cases scope source calls prune before answer with ⟨same, failed⟩ | ⟨groups, ok, same, live⟩
    · exact {
        membership := fun done => absurd done failed
        others := fun done => absurd done failed
        unreported := fun _ key => by rw [same]
        config := fun key old found => ⟨old, by rw [same, found], rfl⟩
        unpruned := fun _ key new found left => ⟨new, by rw [← same]; exact found, left⟩ }
    · have named : listed answer = groups.filterMap groupAddress := by rw [listed, ok]
      refine ⟨fun done on jid => ?_, fun _ _ key old found away => ?_, fun noList key => ?_, fun key old found => ?_,
        fun off key new found left => ?_⟩
      · subst on
        rw [named, ← reconciled_membership scope source calls before (live done), Joined, Joined, same]
      · rw [same]
        exact reconciled_others scope source calls prune before found (by rwa [named] at away)
      · obtain ⟨none, quiet⟩ : groups = [] ∧ (prune = false ∨ ∀ jid, ¬ Joined before scope jid) := by
          rw [bridgeGroups] at ok
          cases answered : bridgeDo answer with
          | error error => rw [answered] at ok; cases ok
          | ok found =>
            cases found with
            | some list => exact absurd ⟨list, answered⟩ noList
            | none =>
              rw [answered] at ok
              refine ⟨(Except.ok.inj ok).symm, ?_⟩
              rcases condition with carries | ⟨error, failed⟩ | quiet
              · exact absurd carries noList
              · rw [answered] at failed
                cases failed
              · exact quiet
        subst none
        rw [GroupStore.state, GroupStore.state, same, reconciled_nil scope source calls prune before quiet]
      · rw [same]
        exact reconciled_config scope source calls prune before found
      · subst off
        rw [same] at found
        exact ⟨new, reconciled_unpruned scope source calls before found left, left⟩

end

/-- One stored group the account is in. -/
def joinedStore : GroupStore where
  docs := [⟨⟨"org", "one", "12@g.us"⟩, { subject := "Team", state := .active }, {}, 0, 0⟩]
  unique := by decide

/-- `200 {}` reads as an empty membership. -/
theorem empty_answer_prunes :
    ¬ ∀ (_ : Unicode) (scope : Scope) (source : SyncSource) (answer : GroupsAnswer) (prune : Bool) (before : GroupStore)
      (calls : Calls), Postcondition scope answer prune before (runGroupSync scope source calls answer prune before) := by
  intro all
  have post := all Unicode.ascii ⟨"org", "one"⟩ .timer (.answered 200 (.json (.obj []))) true joinedStore answeredCalls
  have noList : ¬ CarriesList (.answered 200 (.json (.obj []))) := by
    rintro ⟨groups, carried⟩
    cases carried
  have kept := post.unreported noList ⟨"org", "one", "12@g.us"⟩
  revert kept
  decide

end GroupButler.Groups
