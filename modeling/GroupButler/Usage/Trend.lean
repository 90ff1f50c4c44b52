import GroupButler.Usage.Day

/-!
# The token trend

The calls of the last week, an instance and a day at a time, beside what the usage page says of each of these
days.
-/

namespace GroupButler.Usage
open Foundation Store
open Ingest.Counters (dayOf)

structure TokenDay where
  day : Date
  calls : Nat
  inputTokens : Option Nat
  outputTokens : Option Nat
  totalTokens : Option Nat
  deriving DecidableEq, Repr

structure TokenTrendInstance where
  instanceId : String
  label : String
  days : List TokenDay

structure TokenTrend where
  days : List Date
  instances : List TokenTrendInstance

def tokenWindowDays : Nat := 7

/-- Midnight of the window's first day. -/
def windowStart (now : Int) : Int := (now / 86400000 - (tokenWindowDays - 1)) * 86400000

def windowEnd (now : Int) : Int := now / 86400000 * 86400000 + 86400000

def windowDays (now : Int) : List Date := (List.range tokenWindowDays).map fun (index : Nat) => dayOf (windowStart now + (index : Int) * 86400000)

/-- No call is a zero; calls that reported nothing are none. -/
def tokenDay (row : Option TokenRow) (day : Date) : TokenDay :=
  match row with
  | none => ⟨day, 0, some 0, some 0, some 0⟩
  | some row =>
    if row.calls = 0 then ⟨day, 0, some 0, some 0, some 0⟩
    else
      ⟨day, row.calls, if 0 < row.inputReported then some row.inputTokens else none,
        if 0 < row.outputReported then some row.outputTokens else none,
        if 0 < row.totalReported then some row.totalTokens else none⟩

/-- `localeCompare` is the runtime's. -/
def readTokenTrend (localeCompare : String → String → Ordering) (s : State) (instances : List InstanceDoc) (organizationId : String)
    (now : Time) : TokenTrend :=
  let days := windowDays now
  let rows := (grouped (fun call : AiCallRow => (call.instanceId, dayOf call.createdAt)) (s.aiCalls.filter fun call =>
    call.organizationId == organizationId && decide (windowStart now ≤ call.createdAt) && decide (call.createdAt < windowEnd now))).map
      fun row => (row.1, tokenRow row.2)
  let called := (rows.map fun row => row.1.1).dedup
  let labelOf := labels instances organizationId called
  let shown (id : String) : String := (lookup labelOf.reverse id).getD id
  let ids := (labelOf.map Prod.fst ++ called).dedup.mergeSort fun a b =>
    ((localeCompare (shown a) (shown b)).then (localeCompare a b)).isLE
  ⟨days, ids.map fun id => ⟨id, (lookup labelOf.reverse id).getD "", days.map fun day => tokenDay (lookup rows (id, day)) day⟩⟩

/-! ### The window -/

theorem mem_windowDays {now moment : Int} (inside : windowStart now ≤ moment ∧ moment < windowEnd now) :
    dayOf moment ∈ windowDays now := by
  simp only [windowStart, windowEnd, tokenWindowDays] at inside
  refine List.mem_map.mpr ⟨(moment / 86400000 - (now / 86400000 - 6)).toNat, List.mem_range.mpr ?_, ?_⟩
  · simp only [tokenWindowDays]
    omega
  · rw [dayOf_eq_iff]
    simp only [windowStart, tokenWindowDays]
    omega

theorem inside_windowDays {now moment : Int} (listed : dayOf moment ∈ windowDays now) :
    windowStart now ≤ moment ∧ moment < windowEnd now := by
  obtain ⟨index, small, same⟩ := List.mem_map.mp listed
  have days := dayOf_eq_iff.mp same
  have bound := List.mem_range.mp small
  simp only [windowStart, windowEnd, tokenWindowDays] at days bound ⊢
  omega

theorem windowDays_nodup (now : Int) : (windowDays now).Nodup := by
  refine List.Nodup.map_on ?_ List.nodup_range
  intro first _ second _ same
  have days := dayOf_eq_iff.mp same
  omega

/-! ### One day of an instance -/

variable {organizationId instanceId : String}

theorem tokenDay_lookup (calls : List AiCallRow) {now : Int} {day : Date} (listed : day ∈ windowDays now) :
    tokenDay (lookup ((grouped (fun call : AiCallRow => (call.instanceId, dayOf call.createdAt)) (calls.filter fun call =>
      call.organizationId == organizationId && decide (windowStart now ≤ call.createdAt) && decide (call.createdAt < windowEnd now))).map
        fun row => (row.1, tokenRow row.2)) (instanceId, day)) day =
      if callsOn calls organizationId day instanceId = [] then ⟨day, 0, some 0, some 0, some 0⟩
      else
        let tokens := tokensOf (callsOn calls organizationId day instanceId)
        ⟨day, tokens.calls, tokens.inputTokens, tokens.outputTokens, tokens.totalTokens⟩ := by
  have own : (calls.filter fun call => call.organizationId == organizationId && decide (windowStart now ≤ call.createdAt) &&
      decide (call.createdAt < windowEnd now)).filter (fun call => decide ((call.instanceId, dayOf call.createdAt) = (instanceId, day))) =
        callsOn calls organizationId day instanceId := by
    rw [List.filter_filter]
    refine List.filter_congr fun call _ => ?_
    rw [Bool.eq_iff_iff]
    have within (same : dayOf call.createdAt = day) : windowStart now ≤ call.createdAt ∧ call.createdAt < windowEnd now :=
      inside_windowDays (by rw [same]; exact listed)
    simp only [Bool.and_eq_true, decide_eq_true_eq, beq_iff_eq, Prod.mk.injEq]
    tauto
  rw [lookup_grouped, own]
  split
  · rename_i there
    obtain ⟨call, member, same⟩ := List.mem_map.mp there
    have some : callsOn calls organizationId day instanceId ≠ [] := by
      rw [← own]
      exact List.ne_nil_of_mem (List.mem_filter.mpr ⟨member, decide_eq_true same⟩)
    rw [if_neg some]
    have ran : (tokenRow (callsOn calls organizationId day instanceId)).calls ≠ 0 := by
      simpa [tokenRow] using some
    simp only [tokenDay, if_neg ran, tokensOf, ← spent_eq]
    rfl
  · rename_i absent
    have none : callsOn calls organizationId day instanceId = [] := by
      rw [← own]
      exact List.filter_eq_nil_iff.mpr fun call member here => absent (List.mem_map.mpr ⟨call, member, of_decide_eq_true here⟩)
    rw [if_pos none]
    rfl

/-- The calls of an instance in the window. -/
def callsWithin (calls : List AiCallRow) (organizationId : String) (now : Int) (instanceId : String) : List AiCallRow :=
  calls.filter fun call => call.organizationId == organizationId && decide (windowStart now ≤ call.createdAt) &&
    decide (call.createdAt < windowEnd now) && call.instanceId == instanceId

theorem calls_by_day (calls : List AiCallRow) (now : Int) :
    ((windowDays now).map fun day => (callsOn calls organizationId day instanceId).length).sum =
      (callsWithin calls organizationId now instanceId).length := by
  have inside : ∀ call ∈ callsWithin calls organizationId now instanceId, dayOf call.createdAt ∈ windowDays now := by
    intro call member
    have within := (List.mem_filter.mp member).2
    simp only [Bool.and_eq_true, decide_eq_true_eq] at within
    exact mem_windowDays ⟨within.1.1.2, within.1.2⟩
  rw [← sum_length_by_key (windowDays_nodup now) inside]
  refine congrArg List.sum (List.map_congr_left fun day listed => congrArg List.length ?_)
  rw [callsWithin, List.filter_filter]
  refine List.filter_congr fun call _ => ?_
  rw [Bool.eq_iff_iff]
  have within (same : dayOf call.createdAt = day) : windowStart now ≤ call.createdAt ∧ call.createdAt < windowEnd now :=
    inside_windowDays (by rw [same]; exact listed)
  simp only [Bool.and_eq_true, decide_eq_true_eq, beq_iff_eq]
  tauto

/-- A day of the trend is what the usage page says on that day, but for the figures of a day without calls. -/
def Agrees (shown : TokenDay) (row : UsageInstance) : Prop :=
  shown.calls = row.tokens.calls ∧
    if row.tokens.calls = 0 then shown.inputTokens = some 0 ∧ shown.outputTokens = some 0 ∧ shown.totalTokens = some 0
    else
      shown.inputTokens = row.tokens.inputTokens ∧ shown.outputTokens = row.tokens.outputTokens ∧
        shown.totalTokens = row.tokens.totalTokens

/-- The trend has each instance that is live or called in the window once, with every day of the window; its
days count each call once, and each agrees with the usage page at every moment of the day. -/
theorem trend_agrees (localeCompare : String → String → Ordering) (s : State) (instances : List InstanceDoc) (limit : Option Nat)
    (organizationId : String) (now : Time) :
    let trend := readTokenTrend localeCompare s instances organizationId now
    (trend.instances.map TokenTrendInstance.instanceId).Nodup ∧
      (∀ id, id ∈ trend.instances.map TokenTrendInstance.instanceId ↔
        (∃ doc ∈ instances, isLive organizationId doc = true ∧ doc.id = id) ∨ callsWithin s.aiCalls organizationId now id ≠ []) ∧
      ∀ entry ∈ trend.instances,
        entry.days.map TokenDay.day = windowDays now ∧
          (entry.days.map TokenDay.calls).sum = (callsWithin s.aiCalls organizationId now entry.instanceId).length ∧
          ∀ moment, windowStart now ≤ moment → moment < windowEnd now →
            ∀ row ∈ (readUsage s instances limit organizationId moment).instances, row.instanceId = entry.instanceId →
              ∃ shown ∈ entry.days, shown.day = dayOf moment ∧ Agrees shown row := by
  intro trend
  let today := s.aiCalls.filter fun call => call.organizationId == organizationId && decide (windowStart now ≤ call.createdAt) &&
    decide (call.createdAt < windowEnd now)
  let rows := (grouped (fun call : AiCallRow => (call.instanceId, dayOf call.createdAt)) today).map fun row => (row.1, tokenRow row.2)
  let called := (rows.map fun row => row.1.1).dedup
  have ids : (trend.instances.map TokenTrendInstance.instanceId).Perm ((labels instances organizationId called).map Prod.fst ++ called).dedup := by
    show (((List.mergeSort _ _).map _).map _).Perm _
    rw [List.map_map]
    exact (List.Perm.of_eq (List.map_id _)).trans (List.mergeSort_perm _ _)
  refine ⟨ids.nodup_iff.mpr (List.nodup_dedup _), fun id => ?_, fun entry listed => ?_⟩
  · rw [ids.mem_iff, List.mem_dedup, mem_labels]
    refine or_congr Iff.rfl ?_
    have own : callsWithin s.aiCalls organizationId now id = today.filter fun call => call.instanceId == id := by
      rw [List.filter_filter]
      exact List.filter_congr fun call _ => Bool.and_comm _ _
    rw [own, Ne, List.filter_eq_nil_iff, List.mem_dedup]
    constructor
    · intro there
      obtain ⟨row, member, rfl⟩ := List.mem_map.mp there
      obtain ⟨call, inside, same⟩ := mem_grouped.mp (List.mem_map_of_mem member)
      exact fun none => none call inside (beq_iff_eq.mpr (congrArg Prod.fst same))
    · intro some
      by_contra absent
      refine some fun call inside same => absent ?_
      have key : (call.instanceId, dayOf call.createdAt) ∈ rows.map Prod.fst := mem_grouped.mpr ⟨call, inside, rfl⟩
      obtain ⟨row, member, named⟩ := List.mem_map.mp key
      exact List.mem_map.mpr ⟨row, member, by rw [named]; exact beq_iff_eq.mp same⟩
  · obtain ⟨id, -, rfl⟩ := List.mem_map.mp listed
    have shown (day : Date) (there : day ∈ windowDays now) : tokenDay (lookup rows (id, day)) day =
        if callsOn s.aiCalls organizationId day id = [] then ⟨day, 0, some 0, some 0, some 0⟩
        else
          let tokens := tokensOf (callsOn s.aiCalls organizationId day id)
          ⟨day, tokens.calls, tokens.inputTokens, tokens.outputTokens, tokens.totalTokens⟩ := tokenDay_lookup s.aiCalls there
    refine ⟨?_, ?_, fun moment from_ until_ row onPage same => ?_⟩
    · show ((windowDays now).map fun day => tokenDay (lookup rows (id, day)) day).map TokenDay.day = _
      rw [List.map_map]
      refine (List.map_congr_left fun day there => ?_).trans (List.map_id _)
      rw [Function.comp_apply, shown day there]
      split
      all_goals rfl
    · show (((windowDays now).map fun day => tokenDay (lookup rows (id, day)) day).map TokenDay.calls).sum = _
      rw [← calls_by_day, List.map_map]
      refine congrArg List.sum (List.map_congr_left fun day there => ?_)
      rw [Function.comp_apply, shown day there]
      split
      · rename_i none
        rw [none]
        rfl
      · rfl
    · have there := mem_windowDays ⟨from_, until_⟩
      refine ⟨_, List.mem_map_of_mem there, ?_⟩
      have tokens := readUsage_tokens onPage
      rw [same] at tokens
      rw [shown _ there, Agrees, tokens]
      split
      · rename_i none
        rw [none]
        exact ⟨rfl, rfl, by simp [tokensOf]⟩
      · rename_i some
        have ran : (tokensOf (callsOn s.aiCalls organizationId (dayOf moment) id)).calls ≠ 0 := by simpa [tokensOf] using some
        refine ⟨rfl, rfl, ?_⟩
        rw [if_neg ran]
        exact ⟨rfl, rfl, rfl⟩

end GroupButler.Usage
