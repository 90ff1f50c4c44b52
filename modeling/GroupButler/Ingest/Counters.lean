import Mathlib.Algebra.BigOperators.Group.List.Lemmas
import GroupButler.Foundation.Rfc3339
import GroupButler.Ingest.Flush

/-!
# Day counters

A flush counts the documents it inserted as `messagesIn`, and every attachment of its batch that was
stored or kept unparsed as `mediaStored` or `mediaUnparsed`, from a goroutine of its own.
-/

namespace GroupButler.Ingest.Counters
open Foundation Store

inductive DayCounter where
  | messagesIn | mediaStored | mediaUnparsed
  deriving DecidableEq, Repr

structure DayCounters where
  messagesIn : Nat := 0
  mediaStored : Nat := 0
  mediaUnparsed : Nat := 0
  deriving DecidableEq, Repr

def DayCounters.get (counters : DayCounters) : DayCounter → Nat
  | .messagesIn => counters.messagesIn
  | .mediaStored => counters.mediaStored
  | .mediaUnparsed => counters.mediaUnparsed

/-- `$inc` -/
def DayCounters.inc (counters : DayCounters) (counter : DayCounter) (count : Nat) : DayCounters :=
  match counter with
  | .messagesIn => { counters with messagesIn := counters.messagesIn + count }
  | .mediaStored => { counters with mediaStored := counters.mediaStored + count }
  | .mediaUnparsed => { counters with mediaUnparsed := counters.mediaUnparsed + count }

structure StatsRow where
  organizationId : String
  day : Date
  instanceId : String
  groupJid : String
  counters : DayCounters
  updatedAt : Time
  deriving DecidableEq, Repr

/-- The UTC day of an instant. -/
def dayOf (moment : Time) : Date := dateOfDays (moment / 86400000)

def bump (stats : List StatsRow) (organizationId instanceId groupJid : String) (counter : DayCounter) (count : Nat)
    (moment : Time) : List StatsRow :=
  upsertOne
    (fun row => row.organizationId == organizationId && row.day == dayOf moment && row.instanceId == instanceId &&
      row.groupJid == groupJid)
    (fun row => { row with counters := row.counters.inc counter count, updatedAt := moment })
    ⟨organizationId, dayOf moment, instanceId, groupJid, ({} : DayCounters).inc counter count, moment⟩ stats

/-- One counter over every day. -/
def total (counter : DayCounter) (stats : List StatsRow) : Nat := (stats.map fun row => row.counters.get counter).sum

/-! ### What is counted -/

structure DayGroup where
  day : Date
  instanceId : String
  groupJid : String
  deriving DecidableEq, Repr

/-- `time.Time{}` -/
def zeroTime : Time := -62135596800000

def stamp (now : Time) (doc : MessageDoc) : Time := if doc.timestamp = zeroTime then now else doc.timestamp

def dayGroup (now : Time) (doc : MessageDoc) : DayGroup := ⟨dayOf (stamp now doc), doc.instanceId, doc.groupJid⟩

/-- One update for each day and group of the new documents. -/
def recordStored (organizationId : String) (now : Time) (stats : List StatsRow) (docs : List MessageDoc) : List StatsRow :=
  (docs.map (dayGroup now)).dedup.foldl (fun stats group =>
    let own := docs.filter fun doc => dayGroup now doc == group
    bump stats organizationId group.instanceId group.groupJid .messagesIn own.length
      ((own.map (stamp now)).foldl max zeroTime)) stats

def recordMedia (organizationId : String) (now : Time) (stats : List StatsRow) (doc : MessageDoc) : List StatsRow :=
  match doc.media.status with
  | .stored => bump stats organizationId doc.instanceId doc.groupJid .mediaStored 1 now
  | .unparsed => bump stats organizationId doc.instanceId doc.groupJid .mediaUnparsed 1 now
  | _ => stats

/-- The attachments `countMediaOutcomes` takes from a batch. -/
def counts (doc : MessageDoc) : Bool :=
  match doc.media.status with
  | .stored | .unparsed => true
  | _ => false

structure State where
  rows : List MessageRow
  stats : List StatsRow
  /-- The `recordMedia` calls on their way. -/
  outcomes : List MessageDoc
  /-- The message of each call that landed. -/
  counted : List MessageKey

def start : State := ⟨[], [], [], []⟩

inductive Event where
  | flush (docs : List MessageDoc) (write : BulkWrite) (now : Time)
  | count (index : Nat) (now : Time)

def State.save (organizationId : String) (s : State) (docs : List MessageDoc) (write : BulkWrite) (now : Time) : State :=
  if write.failed then { s with rows := saveAll s.rows (write.written docs) }
  else
    { s with
      rows := saveAll s.rows (write.written docs)
      stats := recordStored organizationId now s.stats (upserted s.rows (write.written docs))
      outcomes := s.outcomes ++ docs.filter counts }

/-- Every counter write succeeds. -/
def step (organizationId : String) (s : State) : Event → State
  | .flush docs write now => if write.Of docs then s.save organizationId docs write now else s
  | .count index now =>
    match s.outcomes[index]? with
    | none => s
    | some doc =>
      { s with
        stats := recordMedia organizationId now s.stats doc
        outcomes := s.outcomes.eraseIdx index
        counted := s.counted ++ [doc.key] }

/-! ### Totals -/

theorem get_inc (counters : DayCounters) (counter other : DayCounter) (count : Nat) :
    (counters.inc other count).get counter = counters.get counter + if counter = other then count else 0 := by
  cases counter <;> cases other <;> rfl

theorem total_bump (stats : List StatsRow) (organizationId instanceId groupJid : String) (counter other : DayCounter)
    (count : Nat) (moment : Time) : total counter (bump stats organizationId instanceId groupJid other count moment) =
      total counter stats + if counter = other then count else 0 := by
  apply sum_upsertOne
  · exact fun row => get_inc row.counters counter other count
  · rw [get_inc]
    cases counter <;> simp [DayCounters.get]

theorem total_recordStored (organizationId : String) (now : Time) (stats : List StatsRow) (docs : List MessageDoc)
    (counter : DayCounter) : total counter (recordStored organizationId now stats docs) =
      total counter stats + if counter = .messagesIn then docs.length else 0 := by
  -- the documents of a group, one group after another
  have groups : ∀ (keys : List DayGroup) (stats : List StatsRow), total counter (keys.foldl (fun stats group =>
      bump stats organizationId group.instanceId group.groupJid .messagesIn
        (docs.filter fun doc => dayGroup now doc == group).length
        (((docs.filter fun doc => dayGroup now doc == group).map (stamp now)).foldl max zeroTime)) stats) =
      total counter stats + if counter = .messagesIn then (keys.map fun group => (docs.map (dayGroup now)).count group).sum
        else 0 := by
    intro keys
    induction keys with
    | nil => simp
    | cons group keys ih =>
      intro stats
      have own : (docs.filter fun doc => dayGroup now doc == group).length = (docs.map (dayGroup now)).count group := by
        rw [List.count, List.countP_map, List.countP_eq_length_filter]
        rfl
      rw [List.foldl_cons, ih, total_bump, own]
      split
      · rw [List.map_cons, List.sum_cons]
        omega
      · rfl
  have all := groups (docs.map (dayGroup now)).dedup stats
  rw [List.sum_map_count_dedup_eq_length, List.length_map] at all
  exact all

theorem total_recordMedia (organizationId : String) (now : Time) (stats : List StatsRow) {doc : MessageDoc}
    (counted : counts doc = true) :
    total .messagesIn (recordMedia organizationId now stats doc) = total .messagesIn stats ∧
      total .mediaStored (recordMedia organizationId now stats doc) +
        total .mediaUnparsed (recordMedia organizationId now stats doc) =
      total .mediaStored stats + total .mediaUnparsed stats + 1 := by
  unfold counts at counted
  unfold recordMedia
  split at counted
  · rw [total_bump, total_bump, total_bump]
    simp only [reduceCtorEq, if_false, if_true]
    omega
  · rw [total_bump, total_bump, total_bump]
    simp only [reduceCtorEq, if_false, if_true]
    omega
  · cases counted

/-! ### Redelivery -/

/-- What the counters say of the rows. -/
structure Idempotent (s : State) : Prop where
  distinct : UniqueRows s.rows
  messagesIn : total .messagesIn s.stats = s.rows.length
  media : total .mediaStored s.stats + total .mediaUnparsed s.stats = s.counted.length
  once : s.counted.Nodup
  stored : ∀ key ∈ s.counted, ∃ row ∈ s.rows, row.key = key

/-- A bulk write that fails has inserted nothing, and a batch brings no stored or unparsed attachment of
a message that an earlier flush, or the batch itself, has brought before. -/
def BroughtOnce (s : State) : Event → Prop
  | .flush docs write _ => write.Of docs →
      if write.failed then ∀ doc ∈ write.written docs, doc.key ∈ s.rows.map MessageRow.key
      else (s.counted ++ (s.outcomes ++ docs.filter counts).map MessageDoc.key).Nodup
  | .count _ _ => True

instance (s : State) : (e : Event) → Decidable (BroughtOnce s e)
  | .flush docs write _ => inferInstanceAs (Decidable (write.Of docs →
      if write.failed then ∀ doc ∈ write.written docs, doc.key ∈ s.rows.map MessageRow.key
      else (s.counted ++ (s.outcomes ++ docs.filter counts).map MessageDoc.key).Nodup))
  | .count _ _ => .isTrue trivial

structure Sound (s : State) : Prop where
  idempotent : Idempotent s
  counts : ∀ doc ∈ s.outcomes, counts doc = true
  pending : (s.counted ++ s.outcomes.map MessageDoc.key).Nodup
  known : ∀ doc ∈ s.outcomes, doc.key ∈ s.rows.map MessageRow.key

theorem firsts_known {known : List MessageKey} {docs : List MessageDoc} (all : ∀ doc ∈ docs, doc.key ∈ known) :
    firsts known docs = [] := by
  induction docs with
  | nil => rfl
  | cons doc docs ih =>
    unfold firsts
    rw [if_pos (all doc List.mem_cons_self)]
    exact ih fun other later => all other (List.mem_cons_of_mem _ later)

theorem sound_flush {organizationId : String} {s : State} {docs : List MessageDoc} {write : BulkWrite} {now : Time}
    (sound : Sound s) (of : write.Of docs) (once : BroughtOnce s (.flush docs write now)) :
    Sound (s.save organizationId docs write now) := by
  obtain ⟨⟨distinct, messagesIn, media, countedOnce, stored⟩, counting, pending, known⟩ := sound
  have unique := saveAll_unique distinct (write.written docs)
  have kept : ∀ key ∈ s.rows.map MessageRow.key, key ∈ (saveAll s.rows (write.written docs)).map MessageRow.key :=
    fun key present => mem_saveAll_keys.mpr (Or.inl present)
  have storedAfter : ∀ key ∈ s.counted, ∃ row ∈ saveAll s.rows (write.written docs), row.key = key := by
    intro key listed
    obtain ⟨row, member, same⟩ := stored key listed
    exact List.mem_map.mp (kept key (List.mem_map.mpr ⟨row, member, same⟩))
  have met := once of
  unfold State.save
  split
  · rename_i failed
    rw [if_pos failed] at met
    refine ⟨⟨unique, ?_, media, countedOnce, storedAfter⟩, counting, pending, fun doc there => kept _ (known doc there)⟩
    have none : upserted s.rows (write.written docs) = [] := by
      rw [upserted_eq_firsts]
      exact firsts_known met
    rw [saveAll_length, none]
    exact messagesIn
  · rename_i succeeded
    rw [if_neg succeeded] at met
    have landed := written_perm of (Bool.eq_false_iff.mpr succeeded)
    refine ⟨⟨unique, ?_, ?_, countedOnce, storedAfter⟩, ?_, met, ?_⟩
    · show total .messagesIn (recordStored _ _ _ _) = (saveAll _ _).length
      rw [total_recordStored, saveAll_length, messagesIn]
      rfl
    · show total .mediaStored (recordStored _ _ _ _) + total .mediaUnparsed (recordStored _ _ _ _) = _
      rw [total_recordStored, total_recordStored]
      exact media
    · intro doc there
      rcases List.mem_append.mp there with old | new
      · exact counting doc old
      · exact (List.mem_filter.mp new).2
    · intro doc there
      rcases List.mem_append.mp there with old | new
      · exact kept _ (known doc old)
      · exact mem_saveAll_keys.mpr (Or.inr ⟨doc, landed.mem_iff.mpr (List.mem_filter.mp new).1, rfl⟩)

theorem sound_count {organizationId : String} {s : State} {index : Nat} {doc : MessageDoc} (sound : Sound s)
    (found : s.outcomes[index]? = some doc) (now : Time) :
    Sound { s with
      stats := recordMedia organizationId now s.stats doc
      outcomes := s.outcomes.eraseIdx index
      counted := s.counted ++ [doc.key] } := by
  obtain ⟨⟨distinct, messagesIn, media, countedOnce, stored⟩, counting, pending, known⟩ := sound
  have member := List.mem_of_getElem? found
  obtain ⟨unmoved, counted⟩ := total_recordMedia organizationId now s.stats (counting doc member)
  have same : (doc :: s.outcomes.eraseIdx index).Perm s.outcomes := eraseIdx_perm found
  have moved : (s.counted ++ [doc.key] ++ (s.outcomes.eraseIdx index).map MessageDoc.key).Nodup := by
    rw [List.append_assoc]
    exact ((same.map MessageDoc.key).append_left s.counted).nodup_iff.mpr pending
  refine ⟨⟨distinct, ?_, ?_, (List.nodup_append.mp moved).1, ?_⟩, ?_, moved, ?_⟩
  · exact unmoved.trans messagesIn
  · show total .mediaStored (recordMedia _ _ _ _) + total .mediaUnparsed (recordMedia _ _ _ _) = _
    rw [counted, media, List.length_append]
    rfl
  · intro key listed
    rcases List.mem_append.mp listed with old | new
    · exact stored key old
    · rw [List.mem_singleton.mp new]
      exact List.mem_map.mp (known doc member)
  · exact fun other there => counting other (List.mem_of_mem_eraseIdx there)
  · exact fun other there => known other (List.mem_of_mem_eraseIdx there)

theorem step_sound {organizationId : String} (s : State) (e : Event) (sound : Sound s) (once : BroughtOnce s e) :
    Sound (step organizationId s e) := by
  cases e with
  | flush docs write now =>
    simp only [step]
    split
    · rename_i of
      exact sound_flush sound of once
    · exact sound
  | count index now =>
    simp only [step]
    split
    · exact sound
    · rename_i doc found
      exact sound_count sound found now

theorem start_sound : Sound start :=
  ⟨⟨List.nodup_nil, rfl, rfl, List.nodup_nil, (by intro _ h; cases h)⟩, (by intro _ h; cases h), List.nodup_nil,
    (by intro _ h; cases h)⟩

/-- Every run whose flushes bring each attachment once. -/
theorem counters_idempotent (organizationId : String) {events : List Event}
    (once : Along (step organizationId) BroughtOnce start events) : Idempotent (run (step organizationId) start events) :=
  (run_invariant_along (I := Sound) step_sound start_sound once).idempotent

/-- A stored picture, as the bridge path accepts it. -/
def pictureDoc (waMessageId : String) : MessageDoc where
  organizationId := "o"
  instanceId := "i"
  groupJid := "1@g.us"
  chatJid := "1@g.us"
  isGroup := true
  waMessageId
  senderJid := "2@s.whatsapp.net"
  pushName := ""
  fromMe := false
  timestamp := 1700000000000
  receivedAt := 1700000001000
  serverSkewMs := 1000
  kind := .image
  text := ""
  textSearch := ""
  rawSearch := ""
  links := []
  mentions := []
  media := {
    status := .stored
    kind := some .image
    declaredType := some .image
    r2Key := "org/o/instance/i/group/1_g.us/2023/11/" ++ waMessageId ++ ".png" }
  raw := ⟨[], false, 2⟩
  parseState := .ok
  parseErrors := []
  schemaVersion := 1

/-- The bridge sends the picture again, and both flushes are counted. -/
def twice : State :=
  run (step "o") start [.flush [pictureDoc "M"] ⟨[0], false⟩ 1700000002000, .count 0 1700000002000,
    .flush [pictureDoc "M"] ⟨[0], false⟩ 1700000012000, .count 0 1700000012000]

/-- A bulk write fails after one of its two documents has landed. -/
def partlyWritten : State := run (step "o") start [.flush [pictureDoc "M", pictureDoc "N"] ⟨[0], true⟩ 1700000002000]

theorem redelivery_counted_twice : ¬ Idempotent twice ∧ ¬ Idempotent partlyWritten := by
  constructor
  · intro idempotent
    have repeated : ¬ twice.counted.Nodup := by decide +kernel
    exact repeated idempotent.once
  · intro idempotent
    have uncounted : total .messagesIn partlyWritten.stats = 0 ∧ partlyWritten.rows.length = 1 := by decide +kernel
    have equal := idempotent.messagesIn
    omega

/-- One picture that could not be stored at first and is stored when it comes again, beside another. -/
theorem counters_idempotent_retried :
    Idempotent (run (step "o") start
      [.flush [{ pictureDoc "M" with media := { status := .failed, kind := some .image, declaredType := some .image } },
        pictureDoc "N"] ⟨[1, 0], false⟩ 1700000002000, .flush [pictureDoc "M"] ⟨[0], false⟩ 1700000012000,
        .count 1 1700000012000, .flush [pictureDoc "N"] ⟨[], true⟩ 1700000013000, .count 0 1700000013000]) :=
  counters_idempotent "o" (by decide +kernel)

end GroupButler.Ingest.Counters
