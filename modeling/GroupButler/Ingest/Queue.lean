import GroupButler.Foundation.Run
import GroupButler.Ingest.Flush

/-!
# Ingest queue

Producers hand documents over under the lock and count what they could not buffer after it. The
consumer drains the buffer into batches, and closes the queue when its context is done.
-/

namespace GroupButler.Ingest.Queue
open Foundation Store

structure IngestQueue where
  size : Int
  flushEvery : Int
  flushMax : Int

/-- `cap(q.ch)` -/
def IngestQueue.capacity (q : IngestQueue) : Nat := if q.size < 1 then 1 else q.size.toNat

/-- A document, and the number of the `Enqueue` call that brought it. -/
structure Handover where
  call : Nat
  doc : MessageDoc

/-- Where `Run` stands. The `last` flush is the one after which it returns. -/
inductive Consumer where
  | waiting
  | saving (last : Bool)
  | returned
  deriving DecidableEq, Repr

structure State where
  rows : List MessageRow
  calls : Nat
  ch : List Handover
  stopped : Bool
  batch : List Handover
  consumer : Consumer
  dropped : Nat
  /-- Past the lock, with `dropped.Add(1)` to come. -/
  counting : List Handover
  /-- Landed by a `Save`. -/
  persisted : List Handover
  /-- What `dropped` has counted. -/
  lost : List Handover

def start : State := ⟨[], 0, [], false, [], .waiting, 0, [], [], []⟩

def State.buffered (s : State) : List Handover := s.ch ++ s.batch

inductive Event where
  | enqueue (doc : MessageDoc)
  | add (index : Nat)
  | receive
  | tick
  | done
  | saved (write : BulkWrite)

def State.enqueue (q : IngestQueue) (s : State) (doc : MessageDoc) : State :=
  if s.stopped then { s with calls := s.calls + 1, counting := s.counting ++ [⟨s.calls, doc⟩] }
  else if s.ch.length < q.capacity then { s with calls := s.calls + 1, ch := s.ch ++ [⟨s.calls, doc⟩] }
  else { s with calls := s.calls + 1, counting := s.counting ++ [⟨s.calls, doc⟩] }

/-- An empty batch is not handed to the store. -/
def State.flush (s : State) (last : Bool) : State :=
  { s with consumer := if s.batch.isEmpty then (if last then .returned else .waiting) else .saving last }

/-- `stop`, and what it returns joins the batch. -/
def State.stop (s : State) : State := { s with stopped := true, ch := [], batch := s.batch ++ s.ch }

def landed (batch : List Handover) (write : BulkWrite) : List Handover :=
  write.order.filterMap fun index => batch[index]?

/-- `Save` returns. An upsert that lands after the error is taken to land with it. -/
def State.settle (s : State) (write : BulkWrite) (last : Bool) : State :=
  let dropping := if write.failed then s.batch else []
  { s with
    rows := saveAll s.rows (write.written (s.batch.map Handover.doc))
    persisted := s.persisted ++ landed s.batch write
    dropped := s.dropped + dropping.length
    lost := s.lost ++ dropping
    batch := []
    consumer := if last then .returned else .waiting }

def step (q : IngestQueue) (s : State) : Event → State
  | .enqueue doc => s.enqueue q doc
  | .add index =>
    match s.counting[index]? with
    | none => s
    | some handover =>
      { s with
        counting := s.counting.eraseIdx index
        dropped := s.dropped + 1
        lost := s.lost ++ [handover] }
  | .receive =>
    match s.consumer, s.ch with
    | .waiting, handover :: ch =>
      let next := { s with ch := ch, batch := s.batch ++ [handover] }
      if 0 < q.flushMax ∧ q.flushMax ≤ next.batch.length then next.flush false else next
    | _, _ => s
  | .tick => if s.consumer = .waiting ∧ 0 < q.flushEvery then s.flush false else s
  | .done => if s.consumer = .waiting then s.stop.flush true else s
  | .saved write =>
    match s.consumer with
    | .saving last => if write.Of (s.batch.map Handover.doc) then s.settle write last else s
    | _ => s

/-! ### Conservation -/

/-- Every place a handover can be at. -/
def State.placed (s : State) : List Nat :=
  (s.counting ++ (s.buffered ++ (s.persisted ++ s.lost))).map Handover.call

/-- The calls that have returned and whose document is neither buffered nor in the store. -/
def State.unreached (s : State) : List Nat :=
  (List.range s.calls).filter fun call => call ∉ (s.counting ++ (s.buffered ++ s.persisted)).map Handover.call

structure Conserved (s : State) : Prop where
  once : s.placed.Perm (List.range s.calls)
  drained : s.consumer = .returned → s.buffered = []
  dropped : s.dropped = s.unreached.length
  reached : ∀ key, key ∈ s.rows.map MessageRow.key ↔ ∃ handover ∈ s.persisted, handover.doc.key = key

/-- A `Save` that returns an error has landed nothing. -/
def FailsWhole (s : State) : Event → Prop
  | .saved write => ∀ last, s.consumer = .saving last → write.Of (s.batch.map Handover.doc) → write.failed = true →
      write.order = []
  | _ => True

instance (s : State) : (e : Event) → Decidable (FailsWhole s e)
  | .saved write => inferInstanceAs (Decidable (∀ last, s.consumer = .saving last →
      write.Of (s.batch.map Handover.doc) → write.failed = true → write.order = []))
  | .enqueue _ | .add _ | .receive | .tick | .done => .isTrue trivial

/-- What holds whatever a failed write has landed. -/
structure Sound (s : State) : Prop where
  counted : s.dropped = s.lost.length
  closed : s.consumer = .saving true → s.ch = []
  drained : s.consumer = .returned → s.buffered = []
  reached : ∀ key, key ∈ s.rows.map MessageRow.key ↔ ∃ handover ∈ s.persisted, handover.doc.key = key
  accepting : s.stopped = false → s.consumer ≠ .saving true ∧ s.consumer ≠ .returned

theorem count_placed (s : State) (call : Nat) :
    s.placed.count call = (s.counting.map Handover.call).count call + (s.ch.map Handover.call).count call +
      (s.batch.map Handover.call).count call + (s.persisted.map Handover.call).count call +
      (s.lost.map Handover.call).count call := by
  unfold State.placed State.buffered
  simp only [List.map_append, List.count_append]
  omega

/-- Of a list split in two parts, what is not in the one is the other. -/
theorem length_filter_rest {all part rest : List Nat} (split : (part ++ rest).Perm all) (distinct : all.Nodup) :
    (all.filter fun item => item ∉ part).length = rest.length := by
  have apart : (part ++ rest).Nodup := split.nodup_iff.mpr distinct
  have none : part.filter (fun item => item ∉ part) = [] := List.filter_eq_nil_iff.mpr fun item there => by simpa using there
  have every : rest.filter (fun item => item ∉ part) = rest := by
    apply List.filter_eq_self.mpr
    intro item there
    simpa using fun elsewhere => List.disjoint_of_nodup_append apart elsewhere there
  have same := (split.filter fun item => item ∉ part).length_eq
  rw [List.filter_append, none, every] at same
  exact same.symm

theorem conserved_of {s : State} (sound : Sound s) (once : s.placed.Perm (List.range s.calls)) : Conserved s := by
  refine ⟨once, sound.drained, ?_, sound.reached⟩
  unfold State.placed at once
  rw [← List.append_assoc s.buffered, ← List.append_assoc s.counting, List.map_append] at once
  unfold State.unreached
  rw [length_filter_rest once List.nodup_range, List.length_map, sound.counted]

/-! ### One step -/

theorem enqueue_perm (q : IngestQueue) (s : State) (doc : MessageDoc) :
    (s.enqueue q doc).calls = s.calls + 1 ∧ (s.enqueue q doc).placed.Perm (s.placed ++ [s.calls]) := by
  refine ⟨by unfold State.enqueue; split <;> [rfl; (split <;> rfl)], List.perm_iff_count.mpr fun call => ?_⟩
  rw [List.count_append, count_placed, count_placed]
  unfold State.enqueue
  split
  · simp only [List.map_append, List.map_singleton, List.count_append]
    omega
  · split
    · simp only [List.map_append, List.map_singleton, List.count_append]
      omega
    · simp only [List.map_append, List.map_singleton, List.count_append]
      omega

theorem stop_perm (s : State) : s.stop.placed.Perm s.placed := by
  apply List.perm_iff_count.mpr
  intro call
  rw [count_placed, count_placed]
  simp only [State.stop, List.map_append, List.map_nil, List.count_append, List.count_nil]
  omega

theorem take_perm {s : State} {handover : Handover} {ch : List Handover} (buffer : s.ch = handover :: ch) :
    ({ s with ch := ch, batch := s.batch ++ [handover] } : State).placed.Perm s.placed := by
  apply List.perm_iff_count.mpr
  intro call
  rw [count_placed, count_placed, buffer]
  simp only [List.map_append, List.map_cons, List.map_nil, List.count_append, List.count_cons, List.count_nil]
  omega

theorem add_perm {s : State} {index : Nat} {handover : Handover} (found : s.counting[index]? = some handover) :
    ({ s with
      counting := s.counting.eraseIdx index
      dropped := s.dropped + 1
      lost := s.lost ++ [handover] } : State).placed.Perm s.placed := by
  have same : (handover :: s.counting.eraseIdx index).Perm s.counting := eraseIdx_perm found
  apply List.perm_iff_count.mpr
  intro call
  have counts := (same.map Handover.call).count_eq call
  rw [List.map_cons, List.count_cons] at counts
  rw [count_placed, count_placed, ← counts]
  simp only [List.map_append, List.map_cons, List.map_nil, List.count_append, List.count_cons, List.count_nil]
  omega

theorem landed_docs (batch : List Handover) (write : BulkWrite) :
    (landed batch write).map Handover.doc = write.written (batch.map Handover.doc) := by
  unfold landed BulkWrite.written
  simp only [List.map_filterMap, List.getElem?_map]

theorem landed_perm {batch : List Handover} {write : BulkWrite} (of : write.Of (batch.map Handover.doc))
    (succeeded : write.failed = false) : (landed batch write).Perm batch := by
  have places := places_perm of succeeded
  rw [List.length_map] at places
  have whole := places.filterMap fun index => batch[index]?
  rw [filterMap_getElem?] at whole
  exact whole

theorem landed_mem {batch : List Handover} {write : BulkWrite} (of : write.Of (batch.map Handover.doc))
    (some_ : write.order ≠ []) : ∃ handover ∈ batch, handover ∈ landed batch write := by
  obtain ⟨index, listed⟩ := List.exists_mem_of_ne_nil _ some_
  have inside := of.2.1 index listed
  rw [List.length_map] at inside
  exact ⟨batch[index], List.getElem_mem inside,
    List.mem_filterMap.mpr ⟨index, listed, List.getElem?_eq_getElem inside⟩⟩

/-- A flush loses nothing and doubles nothing unless its write has failed after a part of it landed. -/
theorem settle_perm_iff {s : State} {write : BulkWrite} (of : write.Of (s.batch.map Handover.doc))
    (once : s.placed.Perm (List.range s.calls)) (last : Bool) :
    (s.settle write last).placed.Perm (List.range s.calls) ↔ (write.failed = true → write.order = []) := by
  have kept : (∀ call, ((landed s.batch write).map Handover.call).count call +
        ((if write.failed then s.batch else []).map Handover.call).count call =
      (s.batch.map Handover.call).count call) → (s.settle write last).placed.Perm (List.range s.calls) := by
    intro accounted
    refine (List.perm_iff_count.mpr fun call => ?_).trans once
    have own := accounted call
    rw [count_placed, count_placed]
    simp only [State.settle, List.map_append, List.map_nil, List.count_append, List.count_nil]
    omega
  cases failed : write.failed with
  | false =>
    refine ⟨fun _ wrong => Bool.noConfusion wrong, fun _ => kept fun call => ?_⟩
    rw [failed, ((landed_perm of failed).map Handover.call).count_eq call]
    rfl
  | true =>
    constructor
    · intro still _
      by_contra some_
      obtain ⟨handover, inBatch, inLanded⟩ := landed_mem of some_
      have distinct : (s.settle write last).placed.Nodup := still.nodup_iff.mpr List.nodup_range
      have one := List.nodup_iff_count_le_one.mp distinct handover.call
      have persisted := List.count_pos_iff.mpr (List.mem_map_of_mem (f := Handover.call) inLanded)
      have lost := List.count_pos_iff.mpr (List.mem_map_of_mem (f := Handover.call) inBatch)
      rw [count_placed] at one
      simp only [State.settle, failed, if_true, List.map_append, List.count_append] at one
      omega
    · intro whole
      apply kept
      intro call
      rw [failed, landed, whole rfl]
      simp

theorem settle_reached {s : State} (sound : Sound s) (write : BulkWrite) (last : Bool) (key : MessageKey) :
    key ∈ (s.settle write last).rows.map MessageRow.key ↔
      ∃ handover ∈ (s.settle write last).persisted, handover.doc.key = key := by
  show key ∈ (saveAll s.rows (write.written (s.batch.map Handover.doc))).map MessageRow.key ↔
    ∃ handover ∈ s.persisted ++ landed s.batch write, handover.doc.key = key
  rw [mem_saveAll_keys, sound.reached, ← landed_docs]
  constructor
  · rintro (⟨handover, there, same⟩ | ⟨doc, there, same⟩)
    · exact ⟨handover, List.mem_append_left _ there, same⟩
    · obtain ⟨handover, new, rfl⟩ := List.mem_map.mp there
      exact ⟨handover, List.mem_append_right _ new, same.symm⟩
  · rintro ⟨handover, there, same⟩
    rcases List.mem_append.mp there with old | new
    · exact Or.inl ⟨handover, old, same⟩
    · exact Or.inr ⟨handover.doc, List.mem_map_of_mem new, same.symm⟩

theorem sound_waiting {s : State} (waiting : s.consumer = .waiting) (counted : s.dropped = s.lost.length)
    (reached : ∀ key, key ∈ s.rows.map MessageRow.key ↔ ∃ handover ∈ s.persisted, handover.doc.key = key) : Sound s := by
  refine ⟨counted, fun saving => ?_, fun returned => ?_, reached, fun _ => ?_⟩
  · cases waiting.symm.trans saving
  · cases waiting.symm.trans returned
  · rw [waiting]
    exact ⟨Consumer.noConfusion, Consumer.noConfusion⟩

theorem flush_sound {s : State} {last : Bool} (sound : Sound s) (closed : last = true → s.ch = [] ∧ s.stopped = true) :
    Sound (s.flush last) := by
  obtain ⟨counted, _, _, reached, _⟩ := sound
  cases last with
  | false =>
    cases empty : s.batch.isEmpty with
    | true =>
      have waits : (s.flush false).consumer = .waiting := by
        unfold State.flush
        rw [empty]
        rfl
      exact sound_waiting waits counted reached
    | false =>
      have saves : (s.flush false).consumer = .saving false := by
        unfold State.flush
        rw [empty]
        rfl
      refine ⟨counted, fun saving => ?_, fun returned => ?_, reached, fun _ => ?_⟩
      · cases saves.symm.trans saving
      · cases saves.symm.trans returned
      · rw [saves]
        exact ⟨by decide, Consumer.noConfusion⟩
  | true =>
    obtain ⟨drained, stopped⟩ := closed rfl
    refine ⟨counted, fun _ => drained, fun returned => ?_, reached, fun open_ => ?_⟩
    · show s.ch ++ s.batch = []
      cases empty : s.batch.isEmpty with
      | true => rw [drained, List.isEmpty_iff.mp empty, List.append_nil]
      | false =>
        unfold State.flush at returned
        rw [empty] at returned
        cases returned
    · exact absurd (stopped.symm.trans open_) Bool.noConfusion

theorem step_sound (q : IngestQueue) (s : State) (e : Event) (sound : Sound s) : Sound (step q s e) := by
  obtain ⟨counted, closed, drained, reached, accepting⟩ := sound
  cases e with
  | enqueue doc =>
    simp only [step, State.enqueue]
    split
    · exact ⟨counted, closed, drained, reached, accepting⟩
    · rename_i open_
      obtain ⟨early, running⟩ := accepting (Bool.eq_false_iff.mpr open_)
      split
      · exact ⟨counted, fun saving => absurd saving early, fun returned => absurd returned running, reached, accepting⟩
      · exact ⟨counted, closed, drained, reached, accepting⟩
  | add index =>
    simp only [step]
    split
    · exact ⟨counted, closed, drained, reached, accepting⟩
    · refine ⟨?_, closed, drained, reached, accepting⟩
      show s.dropped + 1 = (s.lost ++ _).length
      rw [counted, List.length_append]
      rfl
  | receive =>
    simp only [step]
    split
    · rename_i waiting _
      split
      · exact flush_sound (sound_waiting waiting counted reached) fun wrong => Bool.noConfusion wrong
      · exact sound_waiting waiting counted reached
    · exact ⟨counted, closed, drained, reached, accepting⟩
  | tick =>
    simp only [step]
    split
    · exact flush_sound ⟨counted, closed, drained, reached, accepting⟩ fun wrong => Bool.noConfusion wrong
    · exact ⟨counted, closed, drained, reached, accepting⟩
  | done =>
    simp only [step]
    split
    · rename_i waiting
      have stopped : Sound s.stop := sound_waiting waiting counted reached
      exact flush_sound stopped fun _ => ⟨rfl, rfl⟩
    · exact ⟨counted, closed, drained, reached, accepting⟩
  | saved write =>
    simp only [step]
    split
    · rename_i last saving
      split
      · refine ⟨?_, ?_, ?_, settle_reached ⟨counted, closed, drained, reached, accepting⟩ write last, ?_⟩
        · show s.dropped + _ = (s.lost ++ _).length
          rw [counted, List.length_append]
        · intro final
          cases last <;> cases final
        · intro returned
          cases last with
          | true =>
            show s.ch ++ [] = []
            rw [closed saving]
            rfl
          | false => cases returned
        · intro open_
          cases last with
          | true => exact absurd saving (accepting open_).1
          | false => exact ⟨Consumer.noConfusion, Consumer.noConfusion⟩
      · exact ⟨counted, closed, drained, reached, accepting⟩
    · exact ⟨counted, closed, drained, reached, accepting⟩

theorem step_conserved_iff (q : IngestQueue) (s : State) (e : Event) (sound : Sound s) (conserved : Conserved s) :
    Conserved (step q s e) ↔ FailsWhole s e := by
  have after := step_sound q s e sound
  have once := conserved.once
  cases e with
  | enqueue doc =>
    refine ⟨fun _ => trivial, fun _ => conserved_of after ?_⟩
    obtain ⟨calls, moved⟩ := enqueue_perm q s doc
    show (s.enqueue q doc).placed.Perm (List.range (s.enqueue q doc).calls)
    rw [calls, List.range_succ]
    exact moved.trans (once.append_right [s.calls])
  | add index =>
    refine ⟨fun _ => trivial, fun _ => conserved_of after ?_⟩
    simp only [step]
    split
    · exact once
    · rename_i found
      exact (add_perm found).trans once
  | receive =>
    refine ⟨fun _ => trivial, fun _ => conserved_of after ?_⟩
    simp only [step]
    split
    · rename_i buffer
      have moved := (take_perm buffer).trans once
      split
      · exact moved
      · exact moved
    · exact once
  | tick =>
    refine ⟨fun _ => trivial, fun _ => conserved_of after ?_⟩
    simp only [step]
    split
    · exact once
    · exact once
  | done =>
    refine ⟨fun _ => trivial, fun _ => conserved_of after ?_⟩
    simp only [step]
    split
    · exact (stop_perm s).trans once
    · exact once
  | saved write =>
    simp only [step, FailsWhole] at after ⊢
    split
    · rename_i last saving
      simp only [saving] at after
      split
      · rename_i of
        rw [if_pos of] at after
        have settled := settle_perm_iff of once last
        constructor
        · intro kept other _ _
          exact settled.mp kept.once
        · intro whole
          exact conserved_of after (settled.mpr (whole last saving of))
      · rename_i bad
        exact ⟨fun _ _ _ of => absurd of bad, fun _ => conserved⟩
    · rename_i idle
      exact ⟨fun _ last saving => absurd saving (idle last), fun _ => conserved⟩

theorem start_sound : Sound start :=
  ⟨rfl, fun _ => rfl, fun _ => rfl, fun _ => ⟨(by intro h; cases h), (by rintro ⟨_, ⟨⟩, _⟩)⟩, fun _ => by decide⟩

/-- Every state of a run conserves the documents exactly when no failing `Save` of it lands any. -/
theorem conserved_iff (q : IngestQueue) (events : List Event) :
    (∀ n, Conserved (run (step q) start (events.take n))) ↔ Along (step q) FailsWhole start events := by
  apply prefixes_iff_along (I := Sound) (step_sound q) (step_conserved_iff q)
  · exact start_sound
  · exact conserved_of start_sound (List.Perm.refl _)

def textDoc (waMessageId : String) : MessageDoc where
  organizationId := "o"
  instanceId := "i"
  groupJid := "1@g.us"
  chatJid := "1@g.us"
  isGroup := true
  waMessageId
  senderJid := "2@s.whatsapp.net"
  pushName := ""
  fromMe := false
  timestamp := 1700000000000
  receivedAt := 1700000001000
  serverSkewMs := 1000
  kind := .text
  text := "ok"
  textSearch := "ok"
  rawSearch := ""
  links := []
  mentions := []
  media := { status := .none, kind := none, declaredType := none }
  raw := ⟨[], false, 2⟩
  parseState := .ok
  parseErrors := []
  schemaVersion := 1

/-- Two texts fill a batch, and the write of the second fails. -/
def partlyWritten : State :=
  run (step ⟨8, 0, 2⟩) start [.enqueue (textDoc "M"), .enqueue (textDoc "N"), .receive, .receive, .saved ⟨[0], true⟩]

theorem partial_failure_counted : ¬ Conserved partlyWritten := by
  intro conserved
  have facts : partlyWritten.dropped = 2 ∧ partlyWritten.unreached.length = 1 := by decide +kernel
  have equal := conserved.dropped
  omega

end GroupButler.Ingest.Queue
