import Mathlib.Data.List.Dedup
import GroupButler.Groups.Renames

/-!
# One group under several spellings

The rows of a list are canonicalised before they meet what is stored, but what is stored is read once, in
front of the loop. What a sync reports and leaves is right where each group is listed once.
-/

namespace GroupButler.Groups
open Foundation Store Ingest Sends

/-- The observation a merge starts from. -/
def GroupStore.observation (store : GroupStore) (key : GroupKey) : Observed :=
  ((store.row key).map GroupDoc.observed).getD {}

/-- The rows of one group, in the order listed. -/
def entriesOf (groups : List BridgeGroupSummary) (jid : String) : List BridgeGroupSummary :=
  groups.filter fun entry => groupAddress entry = some jid

theorem entriesOf_absent {groups : List BridgeGroupSummary} {jid : String} (absent : jid ∉ groups.filterMap groupAddress) :
    entriesOf groups jid = [] := by
  rw [entriesOf, List.filter_eq_nil_iff]
  intro entry member address
  exact absent (List.mem_filterMap.mpr ⟨entry, member, by simpa using address⟩)

theorem holds_group (scope : Scope) (key : GroupKey) (jid : String) :
    (scope.holds key && jid == key.groupJid) = (key == scope.group jid) := by
  obtain ⟨organization, instance_, group⟩ := key
  rw [Bool.eq_iff_iff, Bool.and_eq_true, Scope.holds, Bool.and_eq_true, beq_iff_eq, beq_iff_eq, beq_iff_eq, beq_iff_eq,
    Scope.group, GroupKey.mk.injEq]
  constructor
  · rintro ⟨⟨rfl, rfl⟩, rfl⟩
    exact ⟨rfl, rfl, rfl⟩
  · rintro ⟨rfl, rfl, rfl⟩
    exact ⟨⟨rfl, rfl⟩, rfl⟩

/-- The loaded observations are those of the rows. -/
theorem lookup_loadObserved (store : GroupStore) (scope : Scope) (jid : String) :
    (loadObserved store scope).lookup jid = (store.row (scope.group jid)).map GroupDoc.observed := by
  rw [loadObserved, GroupStore.row]
  induction store.docs with
  | nil => rfl
  | cons doc rest ih =>
    have own := holds_group scope doc.key jid
    rw [List.find?_cons, ← own, List.filter_cons]
    cases held : scope.holds doc.key with
    | false => exact ih
    | true =>
      rw [if_pos rfl, List.map_cons, List.lookup_cons, Bool.true_and]
      cases jid == doc.key.groupJid with
      | false => exact ih
      | true => rfl

/-! ### The counts -/

@[simp] theorem tally_total (summary : SyncSummary) (exists_ : Bool) (changes : List SnapshotChange) :
    (summary.tally exists_ changes).total = summary.total + 1 := by
  unfold SyncSummary.tally
  split_ifs <;> rfl

@[simp] theorem tally_added (summary : SyncSummary) (exists_ : Bool) (changes : List SnapshotChange) :
    (summary.tally exists_ changes).added = summary.added + if exists_ then 0 else 1 := by
  cases exists_ with
  | false => rfl
  | true =>
    unfold SyncSummary.tally
    dsimp only
    split_ifs <;> first | rfl | contradiction

section
variable (scope : Scope) (calls : Calls)

theorem markAbsent_counts (baseline : List String) (n : Nat) (p : Progress) :
    (markAbsent scope calls baseline n p).summary.total = p.summary.total ∧
      (markAbsent scope calls baseline n p).summary.added = p.summary.added := by
  induction baseline generalizing n p with
  | nil => exact ⟨rfl, rfl⟩
  | cons jid rest ih =>
    rw [markAbsent]
    split
    · exact ih n p
    · dsimp only
      cases (calls.mark n).1 with
      | answered => exact ih (n + 1) _
      | unanswered => exact ⟨rfl, rfl⟩
      | failed => exact ⟨rfl, rfl⟩

theorem pruneAbsent_counts (prune : Bool) (p : Progress) :
    (pruneAbsent scope calls prune p).summary.total = p.summary.total ∧
      (pruneAbsent scope calls prune p).summary.added = p.summary.added := by
  rw [pruneAbsent]
  split
  · exact ⟨rfl, rfl⟩
  · split
    · exact markAbsent_counts scope calls _ 0 p
    · exact ⟨rfl, rfl⟩

theorem gauge_counts (p : Progress) :
    (gauge scope calls p).summary.total = p.summary.total ∧ (gauge scope calls p).summary.added = p.summary.added := by
  unfold gauge
  split_ifs <;> exact ⟨rfl, rfl⟩

end

section
variable [Unicode] (scope : Scope) (source : SyncSource) (calls : Calls)

theorem mergeEntries_counts (stored : List (String × Observed)) (entries : List BridgeGroupSummary) (n : Nat) (p : Progress)
    (done : (mergeEntries scope source calls stored entries n p).error = none) :
    (mergeEntries scope source calls stored entries n p).summary.total =
        p.summary.total + (entries.filterMap groupAddress).length ∧
      (mergeEntries scope source calls stored entries n p).summary.added =
        p.summary.added + (entries.filterMap groupAddress).countP fun jid => (stored.lookup jid).isNone := by
  induction entries generalizing n p with
  | nil => exact ⟨rfl, rfl⟩
  | cons entry rest ih =>
    rw [mergeEntries] at done ⊢
    cases address : groupAddress entry with
    | none =>
      simp only [address] at done
      rw [List.filterMap_cons_none address]
      exact ih n p done
    | some jid =>
      have total : (p.merge scope source calls stored entry jid (calls.upsert n).2).summary.total = p.summary.total + 1 :=
        tally_total _ _ _
      have added : (p.merge scope source calls stored entry jid (calls.upsert n).2).summary.added =
          p.summary.added + if (stored.lookup jid).isSome then 0 else 1 := tally_added _ _ _
      simp only [address] at done ⊢
      rw [List.filterMap_cons_some address, List.length_cons, List.countP_cons]
      generalize p.merge scope source calls stored entry jid (calls.upsert n).2 = next at total added done ⊢
      cases outcome : (calls.upsert n).1 with
      | unanswered => simp [outcome] at done
      | failed => simp [outcome] at done
      | answered =>
        simp only [outcome] at done ⊢
        obtain ⟨laterTotal, laterAdded⟩ := ih (n + 1) next done
        constructor
        · omega
        · cases found : stored.lookup jid <;> simp [found] at added ⊢ <;> omega

/-! ### The observations -/

/-- The reads of one group. -/
def readsOf (groups : List BridgeGroupSummary) (jid : String) : List SnapshotRead :=
  (entriesOf groups jid).map fun entry => ⟨entry, source, calls.moment⟩

theorem set_read (cur : Observed) (read : SnapshotRead) : cur.set (cur.read read) true = cur.read read := by
  have rest := read_rest cur read
  rw [Observed.set, ← rest.lastActivityAt, ← rest.messageCount, ← rest.mediaStored]
  rfl

theorem merge_row {before : GroupStore} (entry : BridgeGroupSummary) (jid : String) (now : Time) {p : Progress}
    (fresh : p.store.row (scope.group jid) = before.row (scope.group jid)) :
    ∃ doc, (p.merge scope source calls (loadObserved before scope) entry jid now).store.row (scope.group jid) = some doc ∧
      doc.observed = (before.observation (scope.group jid)).read ⟨entry, source, calls.moment⟩ := by
  have start : ((loadObserved before scope).lookup jid).getD {} = before.observation (scope.group jid) := by
    rw [lookup_loadObserved]
    rfl
  have written := row_upsertObserved p.store (scope.group jid) (scope.group jid)
    ((before.observation (scope.group jid)).read ⟨entry, source, calls.moment⟩) true now
  rw [if_pos rfl, fresh] at written
  refine ⟨_, Eq.trans (congrArg (fun cur => (upsertObserved p.store (scope.group jid)
    (mergeSnapshot cur entry source calls.moment).1 true now).row (scope.group jid)) start) written, ?_⟩
  have same := set_read (before.observation (scope.group jid)) ⟨entry, source, calls.moment⟩
  rw [GroupStore.observation] at same ⊢
  cases found : before.row (scope.group jid) with
  | none =>
    rw [found] at same
    exact same
  | some doc =>
    rw [found] at same
    exact same

/-- Where each group is listed once, the loop leaves what its reads make of what was stored. -/
theorem mergeEntries_rows {before : GroupStore} (entries : List BridgeGroupSummary) (n : Nat) (p : Progress)
    (done : (mergeEntries scope source calls (loadObserved before scope) entries n p).error = none)
    (once : (entries.filterMap groupAddress).Nodup)
    (fresh : ∀ jid ∈ entries.filterMap groupAddress, p.store.row (scope.group jid) = before.row (scope.group jid)) :
    ∀ jid ∈ entries.filterMap groupAddress,
      ∃ doc, (mergeEntries scope source calls (loadObserved before scope) entries n p).store.row (scope.group jid) = some doc ∧
        doc.observed = mergeAll (before.observation (scope.group jid)) (readsOf source calls entries jid) := by
  induction entries generalizing n p with
  | nil => intro jid member; cases member
  | cons entry rest ih =>
    rw [mergeEntries] at done ⊢
    cases address : groupAddress entry with
    | none =>
      have same (jid : String) : readsOf source calls (entry :: rest) jid = readsOf source calls rest jid := by
        simp [readsOf, entriesOf, address]
      simp only [address] at done
      rw [List.filterMap_cons_none address] at once fresh ⊢
      intro jid member
      rw [same]
      exact ih n p done once fresh jid member
    | some jid =>
      rw [List.filterMap_cons_some address] at once fresh ⊢
      obtain ⟨alone, onceRest⟩ := List.nodup_cons.mp once
      have own := merge_row scope source calls entry jid (calls.upsert n).2 (fresh jid List.mem_cons_self)
      have others := merge_merged scope source calls (loadObserved before scope) entry jid (calls.upsert n).2 p
      simp only [address] at done ⊢
      generalize p.merge scope source calls (loadObserved before scope) entry jid (calls.upsert n).2 = next at own others done ⊢
      cases outcome : (calls.upsert n).1 with
      | unanswered => simp [outcome] at done
      | failed => simp [outcome] at done
      | answered =>
        simp only [outcome] at done ⊢
        have different {other : String} (member : other ∈ rest.filterMap groupAddress) : other ≠ jid := by
          rintro rfl
          exact alone member
        have freshRest : ∀ other ∈ rest.filterMap groupAddress,
            next.store.row (scope.group other) = before.row (scope.group other) := by
          intro other member
          have outside := others.outside (scope.group other) fun listed member_ same =>
            different member ((congrArg GroupKey.groupJid same).trans (List.mem_singleton.mp member_))
          exact outside.trans (fresh other (List.mem_cons_of_mem jid member))
        intro other member
        rcases List.mem_cons.mp member with rfl | later
        · obtain ⟨doc, found, observed⟩ := own
          have kept := (mergeEntries_merged scope source calls (loadObserved before scope) rest (n + 1) next).outside
            (scope.group other) fun listed member_ same => by
              obtain rfl : other = listed := congrArg GroupKey.groupJid same
              exact alone member_
          refine ⟨doc, kept.trans found, ?_⟩
          have one : readsOf source calls (entry :: rest) other = [⟨entry, source, calls.moment⟩] := by
            rw [readsOf, entriesOf, List.filter_cons_of_pos (by simp [address])]
            have none := entriesOf_absent alone
            rw [entriesOf] at none
            rw [none]
            rfl
          rw [one]
          exact observed
        · have same : readsOf source calls (entry :: rest) other = readsOf source calls rest other := by
            simp [readsOf, entriesOf, address, (different later).symm]
          rw [same]
          exact ih (n + 1) next done onceRest freshRest other later

/-! ### The whole sync -/

/-- Each group counts once, and its rows are merged one after another into what was stored. -/
structure CountedOnce (groups : List BridgeGroupSummary) (before : GroupStore) (after : Progress) : Prop where
  total : after.summary.total = (groups.filterMap groupAddress).dedup.length
  added : after.summary.added =
    ((groups.filterMap groupAddress).dedup.filter fun jid => (before.row (scope.group jid)).isNone).length
  merged : ∀ jid ∈ groups.filterMap groupAddress, ∃ doc, after.store.row (scope.group jid) = some doc ∧
    doc.observed = mergeAll (before.observation (scope.group jid)) (readsOf source calls groups jid)

variable {prune : Bool} {before : GroupStore} {answer : GroupsAnswer} {groups : List BridgeGroupSummary}

theorem runGroupSync_counts (listed : bridgeGroups answer = .ok groups)
    (done : (runGroupSync scope source calls answer prune before).error = none) :
    (runGroupSync scope source calls answer prune before).summary.total = (groups.filterMap groupAddress).length ∧
      (runGroupSync scope source calls answer prune before).summary.added =
        (groups.filterMap groupAddress).countP fun jid => ((loadObserved before scope).lookup jid).isNone := by
  unfold runGroupSync at done ⊢
  simp only [listed] at done ⊢
  by_cases loaded : calls.load = true
  · rw [if_pos loaded] at done ⊢
    have live := gauge_error scope calls done
    obtain ⟨gaugeTotal, gaugeAdded⟩ := gauge_counts scope calls (pruneAbsent scope calls prune
      (mergeEntries scope source calls (loadObserved before scope) groups 0 ⟨before, [], { source }, none⟩))
    obtain ⟨pruneTotal, pruneAdded⟩ := pruneAbsent_counts scope calls prune
      (mergeEntries scope source calls (loadObserved before scope) groups 0 ⟨before, [], { source }, none⟩)
    obtain ⟨total, added⟩ := mergeEntries_counts scope source calls (loadObserved before scope) groups 0
      ⟨before, [], { source }, none⟩ (pruneAbsent_error scope calls live)
    rw [Nat.zero_add] at total added
    exact ⟨gaugeTotal.trans (pruneTotal.trans total), gaugeAdded.trans (pruneAdded.trans added)⟩
  · simp [loaded, Progress.finish] at done

/-- The absence pass leaves the listed groups alone. -/
theorem reconciled_row (done : (reconciled scope source calls prune before groups).error = none) {jid : String}
    (member : jid ∈ groups.filterMap groupAddress) :
    (reconciled scope source calls prune before groups).store.row (scope.group jid) =
      (mergeEntries scope source calls (loadObserved before scope) groups 0 ⟨before, [], { source }, none⟩).store.row
        (scope.group jid) := by
  have complete := (mergeEntries_complete scope source calls (loadObserved before scope) groups 0 _
    (pruneAbsent_error scope calls done)).1
  rcases pruneAbsent_rows scope calls prune
    (mergeEntries scope source calls (loadObserved before scope) groups 0 ⟨before, [], { source }, none⟩) (scope.group jid) with
    same | ⟨⟨-, other, -, absent, key⟩, -⟩
  · exact same
  · obtain rfl : jid = other := congrArg GroupKey.groupJid key
    exact absurd ((complete jid).mpr (Or.inr member)) absent

/-- A sync that ends without an error counts and merges as it should exactly where no two rows of the list
name one group. -/
theorem counted_once_iff (listed : bridgeGroups answer = .ok groups)
    (done : (runGroupSync scope source calls answer prune before).error = none) :
    CountedOnce scope source calls groups before (runGroupSync scope source calls answer prune before) ↔
      (groups.filterMap groupAddress).Nodup := by
  obtain ⟨total, added⟩ := runGroupSync_counts scope source calls listed done
  constructor
  · intro counted
    have lengths := total.symm.trans counted.total
    exact List.dedup_eq_self.mp ((List.dedup_sublist _).eq_of_length lengths.symm)
  · intro once
    have distinct := List.dedup_eq_self.mpr once
    constructor
    · rw [total, distinct]
    · rw [added, distinct, List.countP_eq_length_filter]
      congr 2
      funext jid
      rw [lookup_loadObserved, Option.isNone_map]
    · intro jid member
      rcases runGroupSync_cases scope source calls prune before answer with ⟨-, failed⟩ | ⟨_, found, same, live⟩
      · exact absurd done failed
      · obtain rfl := Except.ok.inj (listed.symm.trans found)
        rw [same, reconciled_row scope source calls (live done) member]
        exact mergeEntries_rows scope source calls groups 0 _ (pruneAbsent_error scope calls (live done)) once
          (fun _ _ => rfl) jid member

end

/-- `200` with the rows of a list. -/
def listAnswer (rows : List (String × String)) : GroupsAnswer :=
  .answered 200 (.json (.obj [("groups", .arr (rows.map fun (jid, subject) => .obj [("jid", .str jid), ("subject", .str subject)]))]))

/-- One row with a device suffix, of a stored group, and one of another. -/
theorem counted_once_two : @CountedOnce Unicode.ascii ⟨"org", "one"⟩ .timer answeredCalls
    [{ jid := "12:3@g.us", subject := "Sales" }, { jid := "34@g.us", subject := "Shop" }] joinedStore
    (@runGroupSync Unicode.ascii ⟨"org", "one"⟩ .timer answeredCalls
      (listAnswer [("12:3@g.us", "Sales"), ("34@g.us", "Shop")]) true joinedStore) := by
  refine (@counted_once_iff Unicode.ascii ⟨"org", "one"⟩ .timer answeredCalls true joinedStore
    (listAnswer [("12:3@g.us", "Sales"), ("34@g.us", "Shop")]) _ ?_ ?_).mpr ?_
  · rfl
  · decide +kernel
  · decide +kernel

/-- Two rows of one group count as two groups. -/
theorem repeated_group_counts_twice :
    bridgeGroups (listAnswer [("12@g.us", "Sales"), ("12:3@g.us", "Shop")]) =
        .ok [{ jid := "12@g.us", subject := "Sales" }, { jid := "12:3@g.us", subject := "Shop" }] ∧
      (@runGroupSync Unicode.ascii ⟨"org", "one"⟩ .timer answeredCalls
        (listAnswer [("12@g.us", "Sales"), ("12:3@g.us", "Shop")]) true joinedStore).error = none ∧
      ¬ @CountedOnce Unicode.ascii ⟨"org", "one"⟩ .timer answeredCalls
        [{ jid := "12@g.us", subject := "Sales" }, { jid := "12:3@g.us", subject := "Shop" }] joinedStore
        (@runGroupSync Unicode.ascii ⟨"org", "one"⟩ .timer answeredCalls
          (listAnswer [("12@g.us", "Sales"), ("12:3@g.us", "Shop")]) true joinedStore) := by
  refine ⟨rfl, by decide +kernel, ?_⟩
  intro counted
  have total := @CountedOnce.total Unicode.ascii _ _ _ _ _ _ counted
  revert total
  decide +kernel

end GroupButler.Groups
