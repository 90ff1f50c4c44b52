import GroupButler.Foundation.IsoDate
import GroupButler.Foundation.Tally
import GroupButler.Ingest.Counters

/-!
# What is counted

The worker adds to one row a day, instance and group for each message it stored, attachment it settled and
send it made, and the console writes one row for each call of the model. Any of these writes may be lost.
-/

namespace GroupButler.Usage
open Foundation Store Ingest
open Ingest.Counters (DayGroup dayGroup stamp dayOf zeroTime)

/-! ### The worker's rows -/

inductive DayCounter where
  | receipts | messagesIn | mediaStored | mediaUnparsed | sendsSent | sendsFailed
  deriving DecidableEq, Repr

structure StatsKey where
  organizationId : String
  day : Date
  instanceId : String
  groupJid : String
  deriving DecidableEq, Repr

/-- A counter the row does not hold is 0. -/
structure StatsRow where
  key : StatsKey
  counters : DayCounter → Nat
  updatedAt : Time

/-- The arguments of `bump`. -/
structure Bump where
  organizationId : String
  instanceId : String
  groupJid : String
  counter : DayCounter
  count : Nat
  moment : Time

def Bump.key (b : Bump) : StatsKey := ⟨b.organizationId, dayOf b.moment, b.instanceId, b.groupJid⟩

def Bump.amount (counter : DayCounter) (b : Bump) : Nat := if b.counter = counter then b.count else 0

def bump : Tally StatsRow StatsKey Bump where
  key := StatsRow.key
  place := Bump.key
  add b row := { row with counters := fun counter => row.counters counter + b.amount counter, updatedAt := b.moment }
  fresh b := ⟨b.key, fun counter => b.amount counter, b.moment⟩
  key_add _ _ := rfl
  key_fresh _ := rfl

/-- The documents of a group, with their latest stamp. -/
def storedBump (organizationId : String) (now : Time) (docs : List MessageDoc) (group : DayGroup) : Bump :=
  let own := docs.filter fun doc => dayGroup now doc == group
  ⟨organizationId, group.instanceId, group.groupJid, .messagesIn, own.length, (own.map (stamp now)).foldl max zeroTime⟩

/-- One bump for each of the groups, in the order the map gives them. -/
def recordStored (organizationId : String) (now : Time) (docs : List MessageDoc) (groups : List DayGroup) : List Bump :=
  groups.map (storedBump organizationId now docs)

def recordMedia (organizationId : String) (now : Time) (doc : MessageDoc) : List Bump :=
  match doc.media.status with
  | .stored => [⟨organizationId, doc.instanceId, doc.groupJid, .mediaStored, 1, now⟩]
  | .unparsed => [⟨organizationId, doc.instanceId, doc.groupJid, .mediaUnparsed, 1, now⟩]
  | _ => []

def recordSend (organizationId instanceId groupJid : String) (ok : Bool) (moment : Time) : List Bump :=
  [⟨organizationId, instanceId, groupJid, if ok then .sendsSent else .sendsFailed, 1, moment⟩]

/-! ### The console's rows -/

structure TokenUsage where
  inputTokens : Option Nat
  outputTokens : Option Nat
  totalTokens : Option Nat
  deriving DecidableEq, Repr

structure AiCallRow where
  organizationId : String
  instanceId : String
  usage : TokenUsage
  createdAt : Time
  deriving DecidableEq, Repr

/-! ### Histories -/

/-- One thing that is counted, and which of its writes land. -/
inductive Event where
  | stored (organizationId : String) (docs : List MessageDoc) (now : Time) (order : List DayGroup) (lands : DayGroup → Bool)
  | media (organizationId : String) (doc : MessageDoc) (now : Time) (lands : Bool)
  | send (organizationId instanceId groupJid : String) (ok : Bool) (moment : Time) (lands : Bool)
  | call (row : AiCallRow) (lands : Bool)

def Event.bumps : Event → List Bump
  | .stored organizationId docs now order lands =>
    if order.Perm (docs.map (dayGroup now)).dedup then recordStored organizationId now docs (order.filter lands) else []
  | .media organizationId doc now lands => if lands then recordMedia organizationId now doc else []
  | .send organizationId instanceId groupJid ok moment lands =>
    if lands then recordSend organizationId instanceId groupJid ok moment else []
  | .call _ _ => []

def Event.calls : Event → List AiCallRow
  | .call row true => [row]
  | _ => []

structure State where
  statsDaily : List StatsRow
  aiCalls : List AiCallRow

def start : State := ⟨[], []⟩

def step (s : State) (e : Event) : State := ⟨run bump.post s.statsDaily e.bumps, s.aiCalls ++ e.calls⟩

/-! ### What there was to count -/

structure Counted where
  organizationId : String
  day : Date
  instanceId : String
  counter : DayCounter
  deriving DecidableEq, Repr

/-- No day is before the first one of a time that is set. -/
def countedOn (day : Date) : Date := dateOfDays (max (daysOfDate day) (zeroTime / 86400000))

/-- One entry for each message, attachment and send whose write landed. -/
def Event.counted : Event → List Counted
  | .stored organizationId docs now order lands =>
    if order.Perm (docs.map (dayGroup now)).dedup then
      (docs.filter fun doc => lands (dayGroup now doc)).map fun doc =>
        ⟨organizationId, countedOn (dayOf (stamp now doc)), doc.instanceId, .messagesIn⟩
    else []
  | .media organizationId doc now lands =>
    if lands then
      match doc.media.status with
      | .stored => [⟨organizationId, dayOf now, doc.instanceId, .mediaStored⟩]
      | .unparsed => [⟨organizationId, dayOf now, doc.instanceId, .mediaUnparsed⟩]
      | _ => []
    else []
  | .send organizationId instanceId _ ok moment lands =>
    if lands then [⟨organizationId, dayOf moment, instanceId, if ok then .sendsSent else .sendsFailed⟩] else []
  | .call _ _ => []

/-- The rows of an instance on a day. -/
def onDay (organizationId : String) (day : Date) (instanceId : String) (key : StatsKey) : Bool :=
  key.organizationId == organizationId && key.day == day && key.instanceId == instanceId

def added (organizationId : String) (day : Date) (instanceId : String) (counter : DayCounter) (bumps : List Bump) : Nat :=
  ((bumps.filter fun b => onDay organizationId day instanceId b.key).map (Bump.amount counter)).sum

/-! ### One event -/

variable {organizationId instanceId : String} {day : Date} {counter : DayCounter}

theorem added_append (first rest : List Bump) :
    added organizationId day instanceId counter (first ++ rest) =
      added organizationId day instanceId counter first + added organizationId day instanceId counter rest := by
  rw [added, List.filter_append, List.map_append, List.sum_append]
  rfl

theorem added_single (b : Bump) (one : b.count = 1) :
    added organizationId day instanceId counter [b] =
      [(⟨b.organizationId, dayOf b.moment, b.instanceId, b.counter⟩ : Counted)].count ⟨organizationId, day, instanceId, counter⟩ := by
  rw [added, List.count_singleton]
  by_cases same : (⟨b.organizationId, dayOf b.moment, b.instanceId, b.counter⟩ : Counted) = ⟨organizationId, day, instanceId, counter⟩
  · obtain ⟨rfl, rfl, rfl, rfl⟩ := Counted.mk.inj same
    simp [onDay, Bump.key, Bump.amount, one]
  · rw [if_neg (by simpa using same)]
    by_cases place : onDay organizationId day instanceId b.key = true
    · have other : b.counter ≠ counter := by
        intro equal
        simp only [onDay, Bump.key, Bool.and_eq_true, beq_iff_eq] at place
        obtain ⟨⟨rfl, rfl⟩, rfl⟩ := place
        exact same (by rw [equal])
      simp [place, Bump.amount, other]
    · simp [place]

theorem foldl_max_day (floor : Time) (stamps : List Time) (days : Int) (same : ∀ stamp ∈ stamps, stamp / 86400000 = days)
    (some : stamps ≠ []) : (stamps.foldl max floor) / 86400000 = max days (floor / 86400000) := by
  have later (a b : Int) : max a b / 86400000 = max (a / 86400000) (b / 86400000) := by omega
  induction stamps generalizing floor with
  | nil => exact absurd rfl some
  | cons stamp stamps ih =>
    have first := same stamp List.mem_cons_self
    rw [List.foldl_cons]
    by_cases last : stamps = []
    · rw [last, List.foldl_nil, later, first, max_comm]
    · rw [ih (max floor stamp) (fun other member => same other (List.mem_cons_of_mem stamp member)) last, later, first,
        max_comm (floor / 86400000) days, ← max_assoc, max_self]

/-- The row of a group of documents is the row of its day. -/
theorem latest_day {now : Time} {docs : List MessageDoc} {group : DayGroup} (listed : group ∈ docs.map (dayGroup now)) :
    dayOf (((docs.filter fun doc => dayGroup now doc == group).map (stamp now)).foldl max zeroTime) = countedOn group.day := by
  have own : ∀ moment ∈ (docs.filter fun doc => dayGroup now doc == group).map (stamp now),
      moment / 86400000 = daysOfDate group.day := by
    intro moment member
    obtain ⟨doc, inside, rfl⟩ := List.mem_map.mp member
    have same := beq_iff_eq.mp (List.mem_filter.mp inside).2
    rw [← same]
    exact (daysOfDate_dateOfDays _).symm
  have some : (docs.filter fun doc => dayGroup now doc == group).map (stamp now) ≠ [] := by
    obtain ⟨doc, member, same⟩ := List.mem_map.mp listed
    exact List.ne_nil_of_mem (List.mem_map_of_mem (List.mem_filter.mpr ⟨member, beq_iff_eq.mpr same⟩))
  rw [dayOf, foldl_max_day _ _ _ own some, countedOn]

theorem storedBump_onDay {owner : String} {now : Time} {docs : List MessageDoc} {group : DayGroup}
    (listed : group ∈ docs.map (dayGroup now)) :
    onDay organizationId day instanceId (storedBump owner now docs group).key =
      (owner == organizationId && countedOn group.day == day && group.instanceId == instanceId) := by
  rw [onDay, Bump.key, storedBump]
  dsimp only
  rw [latest_day listed]

/-- The grouped bumps add what one bump for each document would. -/
theorem added_recordStored (owner : String) (now : Time) (docs : List MessageDoc) {order : List DayGroup}
    (whole : order.Perm (docs.map (dayGroup now)).dedup) (lands : DayGroup → Bool) :
    added organizationId day instanceId counter (recordStored owner now docs (order.filter lands)) =
      ((docs.filter fun doc => lands (dayGroup now doc)).map fun doc =>
        (⟨owner, countedOn (dayOf (stamp now doc)), doc.instanceId, .messagesIn⟩ : Counted)).count
          ⟨organizationId, day, instanceId, counter⟩ := by
  have listed : ∀ group ∈ order.filter lands, group ∈ docs.map (dayGroup now) := fun group member =>
    List.mem_dedup.mp (whole.mem_iff.mp (List.mem_filter.mp member).1)
  let here (group : DayGroup) : Bool := owner == organizationId && countedOn group.day == day && group.instanceId == instanceId
  have rows : (order.filter lands).filter ((fun b => onDay organizationId day instanceId b.key) ∘ storedBump owner now docs) =
      order.filter fun group => here group && lands group := by
    rw [← List.filter_filter]
    exact List.filter_congr fun group member => storedBump_onDay (listed group member)
  rw [added, recordStored, List.filter_map, List.map_map, rows, List.count, List.countP_map, List.countP_filter]
  by_cases messages : counter = .messagesIn
  · have amounts : ((order.filter fun group => here group && lands group).map (Bump.amount counter ∘ storedBump owner now docs)) =
        (order.filter fun group => here group && lands group).map fun group => (docs.map (dayGroup now)).count group := by
      refine List.map_congr_left fun group _ => ?_
      rw [List.count, List.countP_map, List.countP_eq_length_filter]
      exact if_pos messages.symm
    rw [amounts, ((whole.filter _).map _).sum_eq, List.sum_map_count_dedup_filter_eq_countP, List.countP_map]
    refine List.countP_congr fun doc _ => ?_
    rw [messages]
    simp only [here, dayGroup, Function.comp_apply, Bool.and_eq_true, beq_iff_eq, Counted.mk.injEq, and_true]
    tauto
  · have none : ∀ x ∈ (order.filter fun group => here group && lands group).map (Bump.amount counter ∘ storedBump owner now docs),
        x = 0 := by
      intro x member
      obtain ⟨group, -, rfl⟩ := List.mem_map.mp member
      exact if_neg (Ne.symm messages)
    rw [List.sum_eq_zero none]
    refine (List.countP_eq_zero.mpr fun doc _ matched => ?_).symm
    simp [Ne.symm messages] at matched

theorem added_bumps (e : Event) :
    added organizationId day instanceId counter e.bumps = e.counted.count ⟨organizationId, day, instanceId, counter⟩ := by
  cases e with
  | stored owner docs now order lands =>
    simp only [Event.bumps, Event.counted]
    split
    · rename_i whole
      exact added_recordStored owner now docs whole lands
    · rfl
  | media owner doc now lands =>
    simp only [Event.bumps, Event.counted, recordMedia]
    split
    · split
      · exact added_single _ rfl
      · exact added_single _ rfl
      · rfl
    · rfl
  | send owner place group ok moment lands =>
    simp only [Event.bumps, Event.counted]
    split
    · exact added_single _ rfl
    · rfl
  | call row lands => rfl

/-! ### A history -/

theorem run_step (s : State) (events : List Event) :
    run step s events = ⟨run bump.post s.statsDaily (events.flatMap Event.bumps), s.aiCalls ++ events.flatMap Event.calls⟩ := by
  induction events generalizing s with
  | nil => simp [run]
  | cons e events ih =>
    show run step (step s e) events = _
    rw [ih, step, List.flatMap_cons, List.flatMap_cons, run_append, List.append_assoc]

theorem added_history (events : List Event) :
    added organizationId day instanceId counter (events.flatMap Event.bumps) =
      (events.flatMap Event.counted).count ⟨organizationId, day, instanceId, counter⟩ := by
  induction events with
  | nil => rfl
  | cons e events ih => rw [List.flatMap_cons, added_append, added_bumps, ih, List.flatMap_cons, List.count_append]

/-- A day's rows of an instance hold one for each thing counted there on that day. -/
theorem statsDaily_sum (events : List Event) :
    (((run step start events).statsDaily.filter fun row => onDay organizationId day instanceId row.key).map
      fun row => row.counters counter).sum = (events.flatMap Event.counted).count ⟨organizationId, day, instanceId, counter⟩ := by
  rw [run_step]
  have sums := bump.sum_post (fun row => row.counters counter) (Bump.amount counter) (fun _ _ => rfl) (fun _ => rfl)
    (onDay organizationId day instanceId) [] (events.flatMap Event.bumps)
  exact sums.trans ((Nat.zero_add _).trans (added_history events))

end GroupButler.Usage
