import GroupButler.Foundation.Prefixes
import GroupButler.Groups.Membership

/-!
# Merging what the bridge reads of a group

One read after another is merged into a stored observation. What no read carries stays, a read without a name
leaves the name alone, and each name that gives way enters the ring.
-/

namespace GroupButler.Groups
open Foundation Store Ingest

/-- One row of the bridge's list, and the sync that merges it. -/
structure SnapshotRead where
  entry : BridgeGroupSummary
  source : SyncSource
  moment : Time
  deriving DecidableEq, Repr

/-- The insert of `Touch`: a group seen in traffic first. -/
def touchedObserved (moment : Time) : Observed :=
  { subjectSource := .fallback, state := .active, lastActivityAt := moment, messageCount := 1 }

/-- The name in force. -/
def Observed.name (cur : Observed) : SubjectHistoryEntry := ⟨cur.subject, cur.subjectUpdatedAt, cur.subjectSetBy⟩

/-- The names that give way while reads come in, newest first. -/
def superseded (current : SubjectHistoryEntry) : List SnapshotRead → List SubjectHistoryEntry
  | [] => []
  | read :: rest =>
    if read.entry.subject = "" ∨ read.entry.subject = current.name then superseded current rest
    else superseded ⟨read.entry.subject, read.moment, ""⟩ rest ++ (if current.name = "" then [] else [current])

section
variable [Unicode]

def Observed.read (cur : Observed) (read : SnapshotRead) : Observed :=
  (mergeSnapshot cur read.entry read.source read.moment).1

def mergeAll (cur : Observed) (reads : List SnapshotRead) : Observed := reads.foldl Observed.read cur

/-- What the worker's writes leave in a row, beside every name superseded on the way. A merge may start from
an observation read before other writes, and a write keeps the counters of the row it meets. -/
inductive Stored : List SubjectHistoryEntry → Observed → Prop where
  | absent : Stored [] {}
  | touched (moment : Time) : Stored [] (touchedObserved moment)
  | merged {past cur} (stored : Stored past cur) (read : SnapshotRead) :
      Stored (superseded cur.name [read] ++ past) (cur.read read)
  | written {past cur} (stored : Stored past cur) (row : Observed) (fromSync : Bool) : Stored past (row.set cur fromSync)
  | left {past cur} (stored : Stored past cur) (state : GroupState) (moment : Time) :
      Stored past { cur with state, leftDetectedAt := moment }

end

/-! ### One read -/

theorem mergeSubject_silent {cur snap : Observed} (moment : Time) (silent : snap.subject = "") :
    mergeSubject cur snap moment = (cur, []) := by
  simp [mergeSubject, silent]

theorem mergeSubject_kept {cur snap : Observed} (moment : Time) (kept : ¬ (snap.subject ≠ "" ∧ snap.subject ≠ cur.subject)) :
    (mergeSubject cur snap moment).1.name = cur.name ∧ (mergeSubject cur snap moment).1.subjectHistory = cur.subjectHistory := by
  rw [mergeSubject, if_neg kept]
  split <;> exact ⟨rfl, rfl⟩

theorem mergeSubject_moved {cur snap : Observed} (moment : Time) (moved : snap.subject ≠ "" ∧ snap.subject ≠ cur.subject) :
    (mergeSubject cur snap moment).1.name = ⟨snap.subject, moment, ""⟩ ∧
      (mergeSubject cur snap moment).1.subjectHistory =
        if cur.subject ≠ "" then appendSubjectHistory cur.subjectHistory cur.name else cur.subjectHistory := by
  rw [mergeSubject, if_pos moved]
  exact ⟨rfl, rfl⟩

/-- The fields about the name. -/
structure SameName (before after : Observed) : Prop where
  subject : after.subject = before.subject
  subjectSearch : after.subjectSearch = before.subjectSearch
  subjectUpdatedAt : after.subjectUpdatedAt = before.subjectUpdatedAt
  subjectObservedAt : after.subjectObservedAt = before.subjectObservedAt
  subjectSetBy : after.subjectSetBy = before.subjectSetBy
  subjectSetByLid : after.subjectSetByLid = before.subjectSetByLid
  subjectSource : after.subjectSource = before.subjectSource
  subjectHistory : after.subjectHistory = before.subjectHistory

/-- The fields no read carries. -/
structure SameRest (before after : Observed) : Prop where
  topic : after.topic = before.topic
  topicUpdatedAt : after.topicUpdatedAt = before.topicUpdatedAt
  isEphemeral : after.isEphemeral = before.isEphemeral
  isDefaultSubGroup : after.isDefaultSubGroup = before.isDefaultSubGroup
  members : after.members = before.members
  groupCreatedAt : after.groupCreatedAt = before.groupCreatedAt
  lastActivityAt : after.lastActivityAt = before.lastActivityAt
  messageCount : after.messageCount = before.messageCount
  mediaStored : after.mediaStored = before.mediaStored
  leftDetectedAt : after.leftDetectedAt = before.leftDetectedAt

theorem SameRest.trans {a b c : Observed} (first : SameRest a b) (second : SameRest b c) : SameRest a c := by
  constructor
  · exact second.topic.trans first.topic
  · exact second.topicUpdatedAt.trans first.topicUpdatedAt
  · exact second.isEphemeral.trans first.isEphemeral
  · exact second.isDefaultSubGroup.trans first.isDefaultSubGroup
  · exact second.members.trans first.members
  · exact second.groupCreatedAt.trans first.groupCreatedAt
  · exact second.lastActivityAt.trans first.lastActivityAt
  · exact second.messageCount.trans first.messageCount
  · exact second.mediaStored.trans first.mediaStored
  · exact second.leftDetectedAt.trans first.leftDetectedAt

theorem mergeSubject_rest (cur snap : Observed) (moment : Time) : SameRest cur (mergeSubject cur snap moment).1 := by
  unfold mergeSubject
  split
  · constructor <;> rfl
  · split <;> constructor <;> rfl

section
variable [Unicode]

/-- A second merge of the same row finds nothing to do. -/
theorem mergeSnapshot_again (cur : Observed) (entry : BridgeGroupSummary) (source again : SyncSource) (moment later : Time) :
    mergeSnapshot (mergeSnapshot cur entry source moment).1 entry again later =
      ({ (mergeSnapshot cur entry source moment).1 with lastSyncedAt := later, lastSyncSource := again }, []) := by
  by_cases silent : entry.subject = ""
  · simp [mergeSnapshot, mergeSubject, observedFromSnapshot, silent]
  · by_cases same : entry.subject = cur.subject
    · by_cases fallback : cur.subjectSource = .fallback
      · simp [mergeSnapshot, mergeSubject, observedFromSnapshot, same ▸ silent, same, fallback]
      · simp [mergeSnapshot, mergeSubject, observedFromSnapshot, same ▸ silent, same, fallback]
    · simp [mergeSnapshot, mergeSubject, observedFromSnapshot, silent, same]

theorem read_silent (cur : Observed) {read : SnapshotRead} (silent : read.entry.subject = "") : SameName cur (cur.read read) := by
  have kept := @mergeSubject_silent cur (observedFromSnapshot read.entry read.source read.moment) read.moment silent
  constructor <;> simp [Observed.read, mergeSnapshot, kept]

theorem read_rest (cur : Observed) (read : SnapshotRead) : SameRest cur (cur.read read) := by
  obtain ⟨topic, topicAt, ephemeral, sub, members, created, activity, messages, media, left⟩ :=
    mergeSubject_rest cur (observedFromSnapshot read.entry read.source read.moment) read.moment
  exact ⟨topic, topicAt, ephemeral, sub, members, created, activity, messages, media, left⟩

theorem mergeAll_rest (cur : Observed) (reads : List SnapshotRead) : SameRest cur (mergeAll cur reads) := by
  induction reads generalizing cur with
  | nil => constructor <;> rfl
  | cons read rest ih => exact (read_rest cur read).trans (ih (cur.read read))

end

/-! ### The ring -/

/-- A ring within its cap, whose newest name is not the one in force; a group that never had a name has none. -/
structure Named (cur : Observed) : Prop where
  capped : cur.subjectHistory.length ≤ subjectHistoryMax
  newest : ∀ entry, cur.subjectHistory.head? = some entry → entry.name ≠ cur.subject
  nameless : cur.subject = "" → cur.subjectHistory = []

theorem Named.of_sameName {before after : Observed} (named : Named before) (subject : after.subject = before.subject)
    (history : after.subjectHistory = before.subjectHistory) : Named after :=
  ⟨history ▸ named.capped, by rw [history, subject]; exact named.newest, by rw [history, subject]; exact named.nameless⟩

theorem appendSubjectHistory_fresh {history : List SubjectHistoryEntry} {entry : SubjectHistoryEntry}
    (fresh : ∀ newest, history.head? = some newest → newest.name ≠ entry.name) :
    appendSubjectHistory history entry = (entry :: history).take subjectHistoryMax := by
  cases history with
  | nil => rfl
  | cons newest rest =>
    have other := fresh newest rfl
    simp [appendSubjectHistory, other]

/-- A read that moves the name. -/
def Renames (cur : Observed) (read : SnapshotRead) : Prop := read.entry.subject ≠ "" ∧ read.entry.subject ≠ cur.subject

theorem superseded_unrenamed {cur : Observed} {read : SnapshotRead} (kept : ¬ Renames cur read) (rest : List SnapshotRead) :
    superseded cur.name (read :: rest) = superseded cur.name rest := by
  rw [superseded, if_pos]
  rw [Renames, not_and_or, not_not, not_not] at kept
  exact kept

theorem superseded_renamed {cur : Observed} {read : SnapshotRead} (moved : Renames cur read) (rest : List SnapshotRead) :
    superseded cur.name (read :: rest) =
      superseded ⟨read.entry.subject, read.moment, ""⟩ rest ++ (if cur.subject = "" then [] else [cur.name]) := by
  rw [superseded, if_neg]
  · rfl
  · rintro (silent | same)
    · exact moved.1 silent
    · exact moved.2 same

theorem superseded_names (current : SubjectHistoryEntry) (reads : List SnapshotRead) :
    ∀ entry ∈ superseded current reads, entry.name ≠ "" := by
  induction reads generalizing current with
  | nil => intro entry member; cases member
  | cons read rest ih =>
    intro entry member
    rw [superseded] at member
    split at member
    · exact ih current entry member
    · rcases List.mem_append.mp member with later | now
      · exact ih _ entry later
      · split at now
        · cases now
        · rename_i some_
          rw [List.mem_singleton.mp now]
          exact some_

/-- What a stored observation keeps of its past. -/
structure Remembers (past : List SubjectHistoryEntry) (cur : Observed) : Prop extends Named cur where
  ring : cur.subjectHistory = past.take subjectHistoryMax
  names : ∀ entry ∈ past, entry.name ≠ ""

theorem remembers_nil {cur : Observed} (empty : cur.subjectHistory = []) : Remembers [] cur := by
  refine ⟨⟨?_, ?_, fun _ => empty⟩, empty, fun _ member => by cases member⟩
  · rw [empty]
    exact Nat.zero_le _
  · intro entry first
    rw [empty] at first
    cases first

section
variable [Unicode]

theorem read_unrenamed {cur : Observed} {read : SnapshotRead} (kept : ¬ Renames cur read) :
    (cur.read read).name = cur.name ∧ (cur.read read).subjectHistory = cur.subjectHistory :=
  @mergeSubject_kept cur (observedFromSnapshot read.entry read.source read.moment) read.moment kept

theorem read_renamed {cur : Observed} {read : SnapshotRead} (moved : Renames cur read) :
    (cur.read read).name = ⟨read.entry.subject, read.moment, ""⟩ ∧
      (cur.read read).subjectHistory =
        if cur.subject ≠ "" then appendSubjectHistory cur.subjectHistory cur.name else cur.subjectHistory :=
  @mergeSubject_moved cur (observedFromSnapshot read.entry read.source read.moment) read.moment moved

/-- One read pushes the name that gave way, if there was one. -/
theorem read_ring {cur : Observed} (named : Named cur) (read : SnapshotRead) :
    (cur.read read).subjectHistory = (superseded cur.name [read] ++ cur.subjectHistory).take subjectHistoryMax := by
  by_cases moved : Renames cur read
  · rw [(read_renamed moved).2, superseded_renamed moved]
    by_cases unnamed : cur.subject = ""
    · simp [unnamed, named.nameless unnamed, superseded]
    · rw [if_pos unnamed, if_neg unnamed]
      exact appendSubjectHistory_fresh named.newest
  · rw [(read_unrenamed moved).2, superseded_unrenamed moved]
    exact (List.take_of_length_le named.capped).symm

theorem read_named {cur : Observed} (named : Named cur) (read : SnapshotRead) : Named (cur.read read) := by
  have ring := read_ring named read
  by_cases moved : Renames cur read
  · have subject : (cur.read read).subject = read.entry.subject := congrArg SubjectHistoryEntry.name (read_renamed moved).1
    refine ⟨by rw [ring]; exact List.length_take_le _ _, ?_, fun silent => absurd (subject.symm.trans silent) moved.1⟩
    intro entry first
    rw [superseded_renamed moved] at ring
    rw [ring, subject] at *
    by_cases unnamed : cur.subject = ""
    · simp [unnamed, named.nameless unnamed, superseded] at first
    · rw [if_neg unnamed] at first
      obtain rfl : cur.name = entry := by simpa [superseded, subjectHistoryMax] using first
      exact moved.2.symm
  · obtain ⟨name, history⟩ := read_unrenamed moved
    have subject : (cur.read read).subject = cur.subject := congrArg SubjectHistoryEntry.name name
    exact ⟨history ▸ named.capped, by rw [history, subject]; exact named.newest, by rw [history, subject]; exact named.nameless⟩

/-- Reads one after another supersede what each supersedes of the name it meets. -/
theorem superseded_cons (cur : Observed) (read : SnapshotRead) (rest : List SnapshotRead) :
    superseded cur.name (read :: rest) = superseded (cur.read read).name rest ++ superseded cur.name [read] := by
  by_cases moved : Renames cur read
  · rw [superseded_renamed moved, superseded_renamed moved, (read_renamed moved).1]
    rfl
  · rw [superseded_unrenamed moved, superseded_unrenamed moved, (read_unrenamed moved).1]
    simp [superseded]

theorem mergeAll_ring {cur : Observed} (named : Named cur) (reads : List SnapshotRead) :
    (mergeAll cur reads).subjectHistory = (superseded cur.name reads ++ cur.subjectHistory).take subjectHistoryMax := by
  induction reads generalizing cur with
  | nil => exact (List.take_of_length_le named.capped).symm
  | cons read rest ih =>
    have later := ih (read_named named read)
    rw [read_ring named read, take_append_take, ← List.append_assoc, ← superseded_cons] at later
    exact later

theorem Stored.remembers {past : List SubjectHistoryEntry} {cur : Observed} (stored : Stored past cur) : Remembers past cur := by
  induction stored with
  | absent => exact remembers_nil rfl
  | touched moment => exact remembers_nil rfl
  | @merged past cur stored read ih =>
    refine ⟨read_named ih.toNamed read, ?_, ?_⟩
    · rw [read_ring ih.toNamed, ih.ring, take_append_take]
    · intro entry member
      rcases List.mem_append.mp member with now | before
      · exact superseded_names cur.name [read] entry now
      · exact ih.names entry before
  | written stored row fromSync ih => exact ⟨ih.toNamed.of_sameName rfl rfl, ih.ring, ih.names⟩
  | left stored state moment ih => exact ⟨ih.toNamed.of_sameName rfl rfl, ih.ring, ih.names⟩

/-- What merging promises a stored observation, whatever reads come in. -/
structure MergeLaws (past : List SubjectHistoryEntry) (cur : Observed) (reads : List SnapshotRead) : Prop where
  again : ∀ entry source moment again later,
    mergeSnapshot (mergeSnapshot (mergeAll cur reads) entry source moment).1 entry again later =
      ({ (mergeSnapshot (mergeAll cur reads) entry source moment).1 with lastSyncedAt := later, lastSyncSource := again }, [])
  silent : ∀ read : SnapshotRead, read.entry.subject = "" → SameName (mergeAll cur reads) ((mergeAll cur reads).read read)
  rest : SameRest cur (mergeAll cur reads)
  ring : (mergeAll cur reads).subjectHistory = (superseded cur.name reads ++ past).take subjectHistoryMax
  capped : (mergeAll cur reads).subjectHistory.length ≤ subjectHistoryMax
  names : ∀ entry ∈ superseded cur.name reads ++ past, entry.name ≠ ""

end

example : superseded ⟨"Sales", 5, "62811@lid"⟩
    [⟨{ subject := "Shop" }, .timer, 9⟩, ⟨{}, .timer, 10⟩, ⟨{ subject := "Sales" }, .manual, 12⟩] =
      [⟨"Shop", 9, ""⟩, ⟨"Sales", 5, "62811@lid"⟩] := by decide

/-! ### The rows of a sync -/

section
variable [Unicode]

/-- Every row is a stored observation. -/
def AllStored (store : GroupStore) : Prop := ∀ doc ∈ store.docs, ∃ past, Stored past doc.observed

theorem upsertObserved_stored {store : GroupStore} (all : AllStored store) {past : List SubjectHistoryEntry} {observed : Observed}
    (stored : Stored past observed) (key : GroupKey) (fromSync : Bool) (now : Time) :
    AllStored (upsertObserved store key observed fromSync now) := by
  intro doc member
  rcases mem_upsertOne member with old | ⟨old, _, _, rfl⟩ | ⟨_, rfl⟩
  · exact all doc old
  · exact ⟨past, stored.written old.observed fromSync⟩
  · exact ⟨past, stored.written {} fromSync⟩

theorem markLeft_stored {store : GroupStore} (all : AllStored store) (key : GroupKey) (state : GroupState) (now : Time) :
    AllStored (markLeft store key state now) := by
  intro doc member
  rcases mem_updateOne member with old | ⟨old, present, _, rfl⟩
  · exact all doc old
  · obtain ⟨past, stored⟩ := all old present
    exact ⟨past, stored.left state now⟩

theorem lookup_stored {store : GroupStore} (all : AllStored store) (scope : Scope) (jid : String) :
    ∃ past, Stored past (((loadObserved store scope).lookup jid).getD {}) := by
  cases found : (loadObserved store scope).lookup jid with
  | none => exact ⟨[], .absent⟩
  | some observed =>
    obtain ⟨earlier, later, split, -⟩ := List.lookup_eq_some_iff.mp found
    have member : (jid, observed) ∈ loadObserved store scope := by rw [split]; simp
    obtain ⟨doc, held, same⟩ := List.mem_map.mp member
    rw [Option.getD_some, ← (Prod.mk.inj same).2]
    exact all doc (List.mem_filter.mp held).1

variable (scope : Scope) (source : SyncSource) (calls : Calls)

theorem mergeEntries_stored {before : GroupStore} (began : AllStored before) (entries : List BridgeGroupSummary) (n : Nat)
    {p : Progress} (all : AllStored p.store) :
    AllStored (mergeEntries scope source calls (loadObserved before scope) entries n p).store := by
  induction entries generalizing n p with
  | nil => exact all
  | cons entry rest ih =>
    rw [mergeEntries]
    cases groupAddress entry with
    | none => exact ih n all
    | some jid =>
      obtain ⟨past, stored⟩ := lookup_stored began scope jid
      have written := upsertObserved_stored all (stored.merged ⟨entry, source, calls.moment⟩) (scope.group jid) true
        (calls.upsert n).2
      dsimp only
      cases (calls.upsert n).1 with
      | answered => exact ih (n + 1) written
      | unanswered => exact written
      | failed => exact all

theorem markAbsent_stored (baseline : List String) (n : Nat) {p : Progress} (all : AllStored p.store) :
    AllStored (markAbsent scope calls baseline n p).store := by
  induction baseline generalizing n p with
  | nil => exact all
  | cons jid rest ih =>
    rw [markAbsent]
    have marked := markLeft_stored all (scope.group jid) .left (calls.mark n).2
    split
    · exact ih n all
    · dsimp only
      cases (calls.mark n).1 with
      | answered => exact ih (n + 1) marked
      | unanswered => exact marked
      | failed => exact all

/-- However a sync ends, the rows it leaves are stored observations. -/
theorem runGroupSync_stored (answer : GroupsAnswer) (prune : Bool) {before : GroupStore} (all : AllStored before) :
    AllStored (runGroupSync scope source calls answer prune before).store := by
  rcases runGroupSync_cases scope source calls prune before answer with ⟨same, -⟩ | ⟨groups, -, same, -⟩
  · rw [same]
    exact all
  · rw [same, reconciled, pruneAbsent]
    have merged := mergeEntries_stored scope source calls all groups 0 (p := ⟨before, [], { source }, none⟩) all
    split
    · exact merged
    · split
      · exact markAbsent_stored scope calls _ 0 merged
      · exact merged

end

end GroupButler.Groups
