import GroupButler.Usage.Counters
import Mathlib.Algebra.Order.BigOperators.Group.List

/-!
# The usage page

One organisation's day: the counters and the calls of the model, an instance at a time.
-/

namespace GroupButler.Usage
open Foundation Store
open Ingest.Counters (dayOf)

structure InstanceDoc where
  id : String
  organizationId : String
  label : Option String
  deletedAt : Option Time

structure UsageCounters where
  messagesIn : Nat
  mediaStored : Nat
  mediaUnparsed : Nat
  sendsOk : Nat
  sendsFailed : Nat
  receipts : Nat
  deriving DecidableEq, Repr

/-- The page's name for a counter of the day rows. -/
def UsageCounters.get (counters : UsageCounters) : DayCounter → Nat
  | .receipts => counters.receipts
  | .messagesIn => counters.messagesIn
  | .mediaStored => counters.mediaStored
  | .mediaUnparsed => counters.mediaUnparsed
  | .sendsSent => counters.sendsOk
  | .sendsFailed => counters.sendsFailed

def emptyCounters : UsageCounters := ⟨0, 0, 0, 0, 0, 0⟩

structure UsageTokens where
  calls : Nat
  inputTokens : Option Nat
  outputTokens : Option Nat
  totalTokens : Option Nat
  deriving DecidableEq, Repr

structure UsageInstance where
  instanceId : String
  label : String
  recorded : Bool
  counters : UsageCounters
  tokens : UsageTokens
  deriving DecidableEq, Repr

structure UsageDay where
  day : Date
  maxTokensPerDay : Option Nat
  recorded : Bool
  instances : List UsageInstance
  deriving DecidableEq, Repr

/-! ### Aggregates -/

/-- `$group` by a key: each key once, with its documents. -/
def grouped {ρ κ : Type} [DecidableEq κ] (key : ρ → κ) (docs : List ρ) : List (κ × List ρ) :=
  (docs.map key).dedup.map fun k => (k, docs.filter fun doc => decide (key doc = k))

/-- `map.get(key)` on the rows of an aggregate. -/
def lookup {κ ρ : Type} [DecidableEq κ] (rows : List (κ × ρ)) (k : κ) : Option ρ := (rows.find? fun row => decide (row.1 = k)).map Prod.snd

def counterRow (rows : List StatsRow) : UsageCounters :=
  let sum (counter : DayCounter) : Nat := (rows.map fun row => row.counters counter).sum
  ⟨sum .messagesIn, sum .mediaStored, sum .mediaUnparsed, sum .sendsSent, sum .sendsFailed, sum .receipts⟩

structure TokenRow where
  calls : Nat
  inputReported : Nat
  outputReported : Nat
  totalReported : Nat
  inputTokens : Nat
  outputTokens : Nat
  totalTokens : Nat

def tokenRow (calls : List AiCallRow) : TokenRow :=
  let reported (figure : TokenUsage → Option Nat) : Nat := (calls.map fun call => if (figure call.usage).isSome then 1 else 0).sum
  let sum (figure : TokenUsage → Option Nat) : Nat := (calls.map fun call => (figure call.usage).getD 0).sum
  ⟨calls.length, reported TokenUsage.inputTokens, reported TokenUsage.outputTokens, reported TokenUsage.totalTokens,
    sum TokenUsage.inputTokens, sum TokenUsage.outputTokens, sum TokenUsage.totalTokens⟩

/-! ### Reading -/

def isLive (organizationId : String) (doc : InstanceDoc) : Bool := doc.organizationId == organizationId && doc.deletedAt.isNone

/-- The labels of the live instances, and of those that only show up in `recorded`. -/
def labels (instances : List InstanceDoc) (organizationId : String) (recorded : List String) : List (String × String) :=
  let live := instances.filter (isLive organizationId)
  let noDocumentYet := recorded.filter fun id => !(live.map InstanceDoc.id).contains id
  let removed := instances.filter fun doc => doc.organizationId == organizationId && noDocumentYet.contains doc.id
  (live ++ removed).map fun doc => (doc.id, doc.label.getD "")

def usageInstance (counter : Option UsageCounters) (token : Option TokenRow) (instanceId label : String) : UsageInstance :=
  let counters := counter.getD emptyCounters
  let tokens : UsageTokens :=
    { calls := (token.map TokenRow.calls).getD 0
      inputTokens := token.bind fun row => if 0 < row.inputReported then some row.inputTokens else none
      outputTokens := token.bind fun row => if 0 < row.outputReported then some row.outputTokens else none
      totalTokens := token.bind fun row => if 0 < row.totalReported then some row.totalTokens else none }
  { instanceId, label
    recorded := decide (0 < tokens.calls) ||
      [counters.messagesIn, counters.mediaStored, counters.mediaUnparsed, counters.sendsOk, counters.sendsFailed,
        counters.receipts].any fun count => decide (0 < count)
    counters, tokens }

def readUsage (s : State) (instances : List InstanceDoc) (maxTokensPerDay : Option Nat) (organizationId : String) (now : Time) : UsageDay :=
  let day := dayOf now
  let dayStart := now / 86400000 * 86400000
  let dayEnd := dayStart + 86400000
  let counters := (grouped (fun row => row.key.instanceId) (s.statsDaily.filter fun row =>
    row.key.organizationId == organizationId && row.key.day == day)).map fun row => (row.1, counterRow row.2)
  let tokens := (grouped AiCallRow.instanceId (s.aiCalls.filter fun call =>
    call.organizationId == organizationId && decide (dayStart ≤ call.createdAt) && decide (call.createdAt < dayEnd))).map
      fun row => (row.1, tokenRow row.2)
  let recorded := (counters.map Prod.fst ++ tokens.map Prod.fst).dedup
  let labelOf := labels instances organizationId recorded
  let instanceIds := jsSort (labelOf.map Prod.fst ++ recorded).dedup
  let rows := instanceIds.map fun id => usageInstance (lookup counters id) (lookup tokens id) id ((lookup labelOf.reverse id).getD "")
  ⟨day, maxTokensPerDay, rows.any UsageInstance.recorded, rows⟩

/-! ### What the page shows -/

/-- What calls spent on a figure; none where none of them reported it. -/
def spent (figure : TokenUsage → Option Nat) (calls : List AiCallRow) : Option Nat :=
  let reported := calls.filterMap fun call => figure call.usage
  if reported = [] then none else some reported.sum

def tokensOf (calls : List AiCallRow) : UsageTokens :=
  ⟨calls.length, spent TokenUsage.inputTokens calls, spent TokenUsage.outputTokens calls, spent TokenUsage.totalTokens calls⟩

/-- The calls of an instance on a day. -/
def callsOn (calls : List AiCallRow) (organizationId : String) (day : Date) (instanceId : String) : List AiCallRow :=
  calls.filter fun call => call.organizationId == organizationId && dayOf call.createdAt == day && call.instanceId == instanceId

theorem lookup_grouped {ρ κ σ : Type} [DecidableEq κ] (key : ρ → κ) (docs : List ρ) (make : List ρ → σ) (k : κ) :
    lookup ((grouped key docs).map fun row => (row.1, make row.2)) k =
      if k ∈ docs.map key then some (make (docs.filter fun doc => decide (key doc = k))) else none := by
  have found : ∀ keys : List κ, lookup ((keys.map fun k => (k, docs.filter fun doc => decide (key doc = k))).map fun row => (row.1, make row.2)) k =
      if k ∈ keys then some (make (docs.filter fun doc => decide (key doc = k))) else none := by
    intro keys
    induction keys with
    | nil => rfl
    | cons other keys ih =>
      unfold lookup at ih ⊢
      rw [List.map_cons, List.map_cons]
      by_cases same : other = k
      · subst same
        rw [List.find?_cons_of_pos (by simp), if_pos List.mem_cons_self]
        rfl
      · rw [List.find?_cons_of_neg (by simpa using same), ih]
        simp [Ne.symm same]
  rw [grouped, found]
  simp only [List.mem_dedup]

/-- What the sums of an aggregate say of a figure. -/
theorem spent_eq (figure : TokenUsage → Option Nat) (calls : List AiCallRow) :
    (if 0 < (calls.map fun call => if (figure call.usage).isSome then 1 else 0).sum then
      some (calls.map fun call => (figure call.usage).getD 0).sum else none) = spent figure calls := by
  have sums : (calls.map fun call => if (figure call.usage).isSome then 1 else 0).sum =
      (calls.filterMap fun call => figure call.usage).length ∧
        (calls.map fun call => (figure call.usage).getD 0).sum = (calls.filterMap fun call => figure call.usage).sum := by
    induction calls with
    | nil => exact ⟨rfl, rfl⟩
    | cons call calls ih =>
      obtain ⟨reported, total⟩ := ih
      rw [List.map_cons, List.map_cons, List.sum_cons, List.sum_cons, reported, total]
      cases here : figure call.usage with
      | none =>
        have skipped : (call :: calls).filterMap (fun call => figure call.usage) = calls.filterMap fun call => figure call.usage :=
          List.filterMap_cons_none here
        rw [skipped]
        exact ⟨Nat.zero_add _, Nat.zero_add _⟩
      | some n =>
        have taken : (call :: calls).filterMap (fun call => figure call.usage) = n :: calls.filterMap fun call => figure call.usage :=
          List.filterMap_cons_some here
        rw [taken, List.length_cons, List.sum_cons]
        exact ⟨Nat.add_comm _ _, rfl⟩
  rw [sums.1, sums.2, spent]
  by_cases none : (calls.filterMap fun call => figure call.usage) = []
  · rw [none]
    rfl
  · rw [if_pos (List.length_pos_of_ne_nil none), if_neg none]

theorem bumps_positive {e : Event} : ∀ b ∈ e.bumps, 0 < b.count := by
  intro b member
  cases e with
  | stored owner docs now order lands =>
    simp only [Event.bumps] at member
    split at member
    · rename_i whole
      obtain ⟨group, listed, rfl⟩ := List.mem_map.mp member
      have there := List.mem_dedup.mp (whole.mem_iff.mp (List.mem_filter.mp listed).1)
      obtain ⟨doc, inside, same⟩ := List.mem_map.mp there
      exact List.length_pos_of_mem (List.mem_filter.mpr ⟨inside, beq_iff_eq.mpr same⟩)
    · cases member
  | media owner doc now lands =>
    simp only [Event.bumps, recordMedia] at member
    split at member
    · split at member
      · rw [List.mem_singleton.mp member]
        exact Nat.one_pos
      · rw [List.mem_singleton.mp member]
        exact Nat.one_pos
      · cases member
    · cases member
  | send owner place group ok moment lands =>
    simp only [Event.bumps] at member
    split at member
    · rw [List.mem_singleton.mp member]
      exact Nat.one_pos
    · cases member
  | call row lands => cases member

variable {organizationId instanceId : String} {day : Date}

/-- An instance has a row on a day once something of it was counted there. -/
theorem row_iff_counted (events : List Event) :
    (∃ row ∈ (run step start events).statsDaily, onDay organizationId day instanceId row.key = true) ↔
      ∃ counter, 0 < (events.flatMap Event.counted).count ⟨organizationId, day, instanceId, counter⟩ := by
  constructor
  · intro found
    obtain ⟨row, member, here⟩ := found
    rw [run_step] at member
    have placed := bump.mem_keys_post.mp (List.mem_map_of_mem member)
    rcases placed with earlier | ⟨b, inside, same⟩
    · cases earlier
    · refine ⟨b.counter, ?_⟩
      rw [← added_history]
      obtain ⟨e, -, own⟩ := List.mem_flatMap.mp inside
      have place : onDay organizationId day instanceId b.key = true := by rw [show b.key = row.key from same]; exact here
      have amount : b.amount b.counter ∈ ((events.flatMap Event.bumps).filter fun b =>
          onDay organizationId day instanceId b.key).map (Bump.amount b.counter) :=
        List.mem_map_of_mem (List.mem_filter.mpr ⟨inside, place⟩)
      have bound := List.le_sum_of_mem amount
      rw [Bump.amount, if_pos rfl] at bound
      exact Nat.lt_of_lt_of_le (bumps_positive b own) bound
  · intro counted
    obtain ⟨counter, some⟩ := counted
    rw [← statsDaily_sum] at some
    by_contra none
    have empty : (run step start events).statsDaily.filter (fun row => onDay organizationId day instanceId row.key) = [] :=
      List.filter_eq_nil_iff.mpr fun row member here => none ⟨row, member, here⟩
    rw [empty] at some
    exact absurd some (by simp)

theorem dayOf_eq_iff {a b : Int} : dayOf a = dayOf b ↔ a / 86400000 = b / 86400000 := by
  constructor
  · intro same
    have days := congrArg daysOfDate same
    rwa [dayOf, dayOf, daysOfDate_dateOfDays, daysOfDate_dateOfDays] at days
  · intro same
    rw [dayOf, dayOf, same]

/-- A stretch of 24 hours from a day's start is the day. -/
theorem within_day (now created : Int) :
    (now / 86400000 * 86400000 ≤ created ∧ created < now / 86400000 * 86400000 + 86400000) ↔ dayOf created = dayOf now := by
  rw [dayOf_eq_iff]
  omega

/-! ### One row -/

theorem counters_lookup (events : List Event) (counter : DayCounter) :
    ((lookup ((grouped (fun row : StatsRow => row.key.instanceId) ((run step start events).statsDaily.filter fun row =>
        row.key.organizationId == organizationId && row.key.day == day)).map fun row => (row.1, counterRow row.2)) instanceId).getD
          emptyCounters).get counter =
      (events.flatMap Event.counted).count ⟨organizationId, day, instanceId, counter⟩ := by
  have own : ((run step start events).statsDaily.filter fun row => row.key.organizationId == organizationId && row.key.day == day).filter
      (fun row => decide (row.key.instanceId = instanceId)) =
        (run step start events).statsDaily.filter fun row => onDay organizationId day instanceId row.key := by
    rw [List.filter_filter]
    exact List.filter_congr fun row _ => Bool.and_comm _ _
  rw [lookup_grouped, own, ← statsDaily_sum]
  split
  · cases counter <;> rfl
  · rename_i absent
    have none : (run step start events).statsDaily.filter (fun row => onDay organizationId day instanceId row.key) = [] := by
      rw [← own]
      exact List.filter_eq_nil_iff.mpr fun row member here => absent (List.mem_map.mpr ⟨row, member, of_decide_eq_true here⟩)
    rw [none]
    cases counter <;> rfl

theorem tokens_lookup (calls : List AiCallRow) (counter : Option UsageCounters) (label : String) :
    (usageInstance counter (lookup ((grouped AiCallRow.instanceId calls).map fun row => (row.1, tokenRow row.2)) instanceId)
      instanceId label).tokens = tokensOf (calls.filter fun call => decide (call.instanceId = instanceId)) := by
  rw [lookup_grouped]
  split
  · simp only [usageInstance, tokensOf, ← spent_eq]
    rfl
  · rename_i absent
    have none : calls.filter (fun call => decide (call.instanceId = instanceId)) = [] :=
      List.filter_eq_nil_iff.mpr fun call member here => absent (List.mem_map.mpr ⟨call, member, of_decide_eq_true here⟩)
    rw [none]
    rfl

theorem mem_grouped {ρ κ σ : Type} [DecidableEq κ] {key : ρ → κ} {docs : List ρ} {make : List ρ → σ} {k : κ} :
    k ∈ ((grouped key docs).map fun row => (row.1, make row.2)).map Prod.fst ↔ ∃ doc ∈ docs, key doc = k := by
  rw [grouped, List.map_map, List.map_map]
  simp [Function.comp_def]

/-- The instances with a label are live or were recorded. -/
theorem mem_labels {instances : List InstanceDoc} {recorded : List String} {id : String} :
    id ∈ (labels instances organizationId recorded).map Prod.fst ++ recorded ↔
      (∃ doc ∈ instances, isLive organizationId doc = true ∧ doc.id = id) ∨ id ∈ recorded := by
  rw [labels, List.mem_append, List.map_map, List.map_append, List.mem_append]
  constructor
  · intro listed
    rcases listed with (live | removed) | now
    · obtain ⟨doc, member, rfl⟩ := List.mem_map.mp live
      obtain ⟨stored, alive⟩ := List.mem_filter.mp member
      exact Or.inl ⟨doc, stored, alive, rfl⟩
    · obtain ⟨doc, member, rfl⟩ := List.mem_map.mp removed
      have named := (List.mem_filter.mp member).2
      simp only [Bool.and_eq_true, List.contains_iff_mem] at named
      exact Or.inr (List.mem_filter.mp named.2).1
    · exact Or.inr now
  · intro found
    rcases found with ⟨doc, stored, alive, rfl⟩ | now
    · exact Or.inl (Or.inl (List.mem_map_of_mem (List.mem_filter.mpr ⟨stored, alive⟩)))
    · exact Or.inr now

theorem usageInstance_recorded (counter : Option UsageCounters) (token : Option TokenRow) (id label : String) :
    (usageInstance counter token id label).recorded = true ↔
      (∃ name, 0 < (usageInstance counter token id label).counters.get name) ∨ 0 < (usageInstance counter token id label).tokens.calls := by
  generalize shown : usageInstance counter token id label = row
  have recorded : row.recorded = (decide (0 < row.tokens.calls) ||
      [row.counters.messagesIn, row.counters.mediaStored, row.counters.mediaUnparsed, row.counters.sendsOk, row.counters.sendsFailed,
        row.counters.receipts].any fun count => decide (0 < count)) := by
    rw [← shown]
    rfl
  rw [recorded, Bool.or_eq_true, decide_eq_true_iff, List.any_eq_true]
  constructor
  · intro found
    rcases found with spent | ⟨count, member, some⟩
    · exact Or.inr spent
    · have positive := of_decide_eq_true some
      simp only [List.mem_cons, List.not_mem_nil, or_false] at member
      rcases member with rfl | rfl | rfl | rfl | rfl | rfl
      · exact Or.inl ⟨.messagesIn, positive⟩
      · exact Or.inl ⟨.mediaStored, positive⟩
      · exact Or.inl ⟨.mediaUnparsed, positive⟩
      · exact Or.inl ⟨.sendsSent, positive⟩
      · exact Or.inl ⟨.sendsFailed, positive⟩
      · exact Or.inl ⟨.receipts, positive⟩
  · intro found
    rcases found with ⟨name, some⟩ | spent
    · refine Or.inr ⟨row.counters.get name, ?_, decide_eq_true some⟩
      cases name <;> simp [UsageCounters.get]
    · exact Or.inl spent

/-- The calls a day's aggregate sees. -/
theorem callsOn_eq (calls : List AiCallRow) (now : Time) :
    (calls.filter fun call => call.organizationId == organizationId && decide (now / 86400000 * 86400000 ≤ call.createdAt) &&
      decide (call.createdAt < now / 86400000 * 86400000 + 86400000)).filter (fun call => decide (call.instanceId = instanceId)) =
        callsOn calls organizationId (dayOf now) instanceId := by
  rw [List.filter_filter]
  refine List.filter_congr fun call _ => ?_
  rw [Bool.eq_iff_iff]
  have today := within_day now call.createdAt
  simp only [Bool.and_eq_true, decide_eq_true_eq, beq_iff_eq]
  tauto

/-- What a row of the page says of the calls. -/
theorem readUsage_tokens {s : State} {instances : List InstanceDoc} {limit : Option Nat} {now : Time} {row : UsageInstance}
    (listed : row ∈ (readUsage s instances limit organizationId now).instances) :
    row.tokens = tokensOf (callsOn s.aiCalls organizationId (dayOf now) row.instanceId) := by
  obtain ⟨id, -, rfl⟩ := List.mem_map.mp listed
  rw [← callsOn_eq]
  exact tokens_lookup _ _ _

/-! ### The page -/

/-- What the page says of one organisation's day: each live or recorded instance once and in order, with one
for each message, attachment and send whose write landed, and with what its calls reported. -/
theorem usage_of_history (events : List Event) (instances : List InstanceDoc) (limit : Option Nat) (organizationId : String)
    (now : Time) :
    let usage := readUsage (run step start events) instances limit organizationId now
    let counted (instanceId : String) (counter : DayCounter) : Nat :=
      (events.flatMap Event.counted).count ⟨organizationId, dayOf now, instanceId, counter⟩
    let calls (instanceId : String) := callsOn (events.flatMap Event.calls) organizationId (dayOf now) instanceId
    (usage.instances.map UsageInstance.instanceId).Pairwise (fun first second => JsLe first second ∧ first ≠ second) ∧
      (∀ id, id ∈ usage.instances.map UsageInstance.instanceId ↔
        (∃ doc ∈ instances, isLive organizationId doc = true ∧ doc.id = id) ∨ (∃ counter, 0 < counted id counter) ∨ calls id ≠ []) ∧
      ∀ row ∈ usage.instances,
        (∀ counter, row.counters.get counter = counted row.instanceId counter) ∧
          row.tokens = tokensOf (calls row.instanceId) ∧
          (row.recorded = true ↔ (∃ counter, 0 < counted row.instanceId counter) ∨ calls row.instanceId ≠ []) := by
  intro usage counted calls
  let rows := (run step start events).statsDaily.filter fun row => row.key.organizationId == organizationId && row.key.day == dayOf now
  let today := (run step start events).aiCalls.filter fun call => call.organizationId == organizationId &&
    decide (now / 86400000 * 86400000 ≤ call.createdAt) && decide (call.createdAt < now / 86400000 * 86400000 + 86400000)
  let counters := (grouped (fun row : StatsRow => row.key.instanceId) rows).map fun row => (row.1, counterRow row.2)
  let tokens := (grouped AiCallRow.instanceId today).map fun row => (row.1, tokenRow row.2)
  let recorded := (counters.map Prod.fst ++ tokens.map Prod.fst).dedup
  have own (id : String) : today.filter (fun call => decide (call.instanceId = id)) = calls id := by
    have stored : (run step start events).aiCalls = events.flatMap Event.calls := by rw [run_step]; rfl
    show ((run step start events).aiCalls.filter _).filter _ = _
    rw [stored, callsOn_eq]
  have active (id : String) : id ∈ recorded ↔ (∃ counter, 0 < counted id counter) ∨ calls id ≠ [] := by
    rw [List.mem_dedup, List.mem_append, mem_grouped, mem_grouped, ← row_iff_counted, ← own, Ne, List.filter_eq_nil_iff]
    refine or_congr ?_ ?_
    · simp only [rows, List.mem_filter, onDay, Bool.and_eq_true, beq_iff_eq, and_assoc]
    · simp only [decide_eq_true_eq, not_forall, not_not, exists_prop]
  have ids : usage.instances.map UsageInstance.instanceId =
      jsSort ((labels instances organizationId recorded).map Prod.fst ++ recorded).dedup := by
    show ((jsSort _).map _).map _ = _
    rw [List.map_map]
    exact List.map_id _
  rw [ids]
  refine ⟨?_, fun id => ?_, fun row member => ?_⟩
  · exact (jsSort_sorted _).and ((jsSort_perm _).nodup_iff.mpr (List.nodup_dedup _))
  · rw [mem_jsSort, List.mem_dedup, mem_labels, active]
  · obtain ⟨id, -, rfl⟩ := List.mem_map.mp member
    have counts (counter : DayCounter) : ((lookup counters id).getD emptyCounters).get counter = counted id counter :=
      counters_lookup events counter
    have stored : (run step start events).aiCalls = events.flatMap Event.calls := by rw [run_step]; rfl
    have spent := (readUsage_tokens member).trans
      (congrArg (fun stored => tokensOf (callsOn stored organizationId (dayOf now) id)) stored)
    refine ⟨counts, spent, ?_⟩
    rw [usageInstance_recorded]
    refine or_congr (exists_congr fun counter => ?_) ?_
    · exact iff_of_eq (congrArg (0 < ·) (counts counter))
    · rw [spent]
      exact List.length_pos_iff

end GroupButler.Usage
