import GroupButler.Ingest.Attachment
import GroupButler.Ingest.Flush

/-!
# From an accepted event to its attachment's record

The bytes are stored before the event is accepted, its row is written by a later flush, and the `media`
subdocument by a goroutine of that flush. A `saveMedia` may land late, in any order, or never; a crash
forgets every accepted document and every one of these writes.
-/

namespace GroupButler.Ingest.Pipeline
open Foundation Store

/-- A `saveMedia` on its way. -/
structure MediaWrite where
  key : MessageKey
  media : Media
  deriving DecidableEq, Repr

structure State where
  rows : List MessageRow
  /-- The keys of the objects put into R2. -/
  bucket : List String
  /-- Queued, or in the batch of the consumer. -/
  accepted : List MessageDoc
  writes : List MediaWrite

def start : State := ⟨[], [], [], []⟩

inductive Event where
  /-- `ingestExternalEvent`; not `kept` where the queue is full or closed, or the process ends first. -/
  | receive (ingest : ExternalIngest) (attempt : Attempt) (evt : ExternalEvent) (receivedAt : Time) (kept : Bool)
  /-- A flush of the oldest documents. -/
  | flush (count : Nat) (write : BulkWrite)
  | land (index : Nat)
  | lose (index : Nat)
  | crash

/-- The outcomes that only `storeMedia` produces. -/
def externalStoredMedia (media : Media) : Bool :=
  match media.status with
  | .stored | .unparsed | .unavailable | .failed => true
  | .none | .pending => false

def recordSaved (docs : List MessageDoc) : List MediaWrite :=
  (docs.filter fun doc => externalStoredMedia doc.media).map fun doc => ⟨doc.key, doc.media⟩

def State.flush (s : State) (docs : List MessageDoc) (write : BulkWrite) : State :=
  { s with
    rows := saveAll s.rows (write.written docs)
    accepted := s.accepted.drop docs.length
    writes := if write.failed then s.writes else s.writes ++ recordSaved docs }

section
variable [Unicode] [GoLibrary] (limits : RawLimits)

def step (s : State) : Event → State
  | .receive ingest attempt evt receivedAt kept =>
    match ingestDoc limits ingest attempt evt receivedAt with
    | .error _ => s
    | .ok (doc, objects) =>
      { s with
        bucket := s.bucket ++ objects
        accepted := if kept then s.accepted ++ [doc] else s.accepted }
  | .flush count write =>
    if write.Of (s.accepted.take count) then s.flush (s.accepted.take count) write else s
  | .land index =>
    match s.writes[index]? with
    | none => s
    | some write => { s with rows := saveMedia s.rows write.key write.media, writes := s.writes.eraseIdx index }
  | .lose index => { s with writes := s.writes.eraseIdx index }
  | .crash => { s with accepted := [], writes := [] }

end

/-! ### Invariants -/

structure Sound (s : State) : Prop where
  unique : UniqueRows s.rows
  accepted : ∀ doc ∈ s.accepted, doc.media.Fetchable s.bucket
  writes : ∀ write ∈ s.writes, write.media.Fetchable s.bucket

theorem fetchable_grows {bucket : List String} {media : Media} (objects : List String) (fetchable : media.Fetchable bucket) :
    media.Fetchable (bucket ++ objects) := by
  intro stored
  obtain ⟨named, present⟩ := fetchable stored
  exact ⟨named, List.mem_append_left _ present⟩

theorem recordSaved_mem {docs : List MessageDoc} {write : MediaWrite} (member : write ∈ recordSaved docs) :
    ∃ doc ∈ docs, write = ⟨doc.key, doc.media⟩ := by
  obtain ⟨doc, kept, rfl⟩ := List.mem_map.mp member
  exact ⟨doc, (List.mem_filter.mp kept).1, rfl⟩

theorem start_sound : Sound start := ⟨List.nodup_nil, (by intro _ h; cases h), (by intro _ h; cases h)⟩

/-- The row of a key carries what was saved last, and every other row what it had. -/
theorem saveMedia_rows {rows : List MessageRow} (unique : UniqueRows rows) (key : MessageKey) (media : Media)
    {row : MessageRow} (member : row ∈ saveMedia rows key media) :
    (row.key = key → row.media = media) ∧ (row.key ≠ key → row ∈ rows) := by
  unfold saveMedia at member
  rw [updateOne_eq_updateMany (k := key) unique (by simp)] at member
  obtain ⟨old, present, same⟩ := mem_updateMany.mp member
  by_cases own : old.key = key
  · rw [if_pos (beq_iff_eq.mpr own)] at same
    subst same
    exact ⟨fun _ => rfl, fun other => (other own).elim⟩
  · rw [if_neg (by simpa using own)] at same
    subst same
    exact ⟨fun same => (own same).elim, fun _ => present⟩

theorem saveMedia_keeps {rows : List MessageRow} {row : MessageRow} (member : row ∈ rows) (key : MessageKey) (media : Media) :
    ∃ same ∈ saveMedia rows key media, same.key = row.key := by
  have keys : row.key ∈ (saveMedia rows key media).map MessageRow.key := by
    rw [saveMedia_keys]
    exact List.mem_map_of_mem member
  exact List.mem_map.mp keys

section
variable [Unicode] [GoLibrary] {limits : RawLimits}

theorem step_sound (s : State) (e : Event) (sound : Sound s) : Sound (step limits s e) := by
  obtain ⟨unique, accepted, writes⟩ := sound
  cases e with
  | receive ingest attempt evt receivedAt kept =>
    simp only [step]
    split
    · exact ⟨unique, accepted, writes⟩
    · rename_i doc objects ingested
      refine ⟨unique, ?_, fun write present => fetchable_grows objects (writes write present)⟩
      have old : ∀ doc ∈ s.accepted, doc.media.Fetchable (s.bucket ++ objects) :=
        fun doc present => fetchable_grows objects (accepted doc present)
      intro other present
      dsimp only at present
      split at present
      · rcases List.mem_append.mp present with before | new
        · exact old other before
        · obtain rfl := List.mem_singleton.mp new
          intro stored
          obtain ⟨named, put⟩ := ingestDoc_fetchable ingested stored
          exact ⟨named, List.mem_append_right _ put⟩
      · exact old other present
  | flush count write =>
    simp only [step]
    split
    · refine ⟨saveAll_unique unique _, fun doc present => accepted doc (List.mem_of_mem_drop present), ?_⟩
      intro other present
      simp only [State.flush] at present
      split at present
      · exact writes other present
      · rcases List.mem_append.mp present with before | new
        · exact writes other before
        · obtain ⟨doc, flushed, rfl⟩ := recordSaved_mem new
          exact accepted doc (List.mem_of_mem_take flushed)
    · exact ⟨unique, accepted, writes⟩
  | land index =>
    simp only [step]
    split
    · exact ⟨unique, accepted, writes⟩
    · refine ⟨?_, accepted, fun other present => writes other (List.mem_of_mem_eraseIdx present)⟩
      show ((saveMedia s.rows _ _).map MessageRow.key).Nodup
      rw [saveMedia_keys]
      exact unique
  | lose index => exact ⟨unique, accepted, fun other present => writes other (List.mem_of_mem_eraseIdx present)⟩
  | crash => exact ⟨unique, (by intro _ h; cases h), (by intro _ h; cases h)⟩

end

/-! ### A stored attachment can be fetched -/

def StoredFetchable (s : State) : Prop := ∀ row ∈ s.rows, row.media.Fetchable s.bucket

/-- No flush writes the first row of a message whose attachment was stored. -/
def RowFirst (s : State) : Event → Prop
  | .flush count write => write.Of (s.accepted.take count) →
      ∀ doc ∈ firsts (s.rows.map MessageRow.key) (write.written (s.accepted.take count)), doc.media.status ≠ .stored
  | _ => True

instance (s : State) : (e : Event) → Decidable (RowFirst s e)
  | .flush count write => inferInstanceAs (Decidable (write.Of (s.accepted.take count) →
      ∀ doc ∈ firsts (s.rows.map MessageRow.key) (write.written (s.accepted.take count)), doc.media.status ≠ .stored))
  | .receive _ _ _ _ _ | .land _ | .lose _ | .crash => .isTrue trivial

/-- The parsed descriptor that a new row starts with names no object. -/
theorem freshRow_fetchable {doc : MessageDoc} {bucket : List String} :
    (freshRow doc).media.Fetchable bucket ↔ doc.media.status ≠ .stored := by
  constructor
  · intro fetchable stored
    exact (fetchable stored).1 rfl
  · intro other stored
    exact (other stored).elim

section
variable [Unicode] [GoLibrary] {limits : RawLimits}

theorem step_fetchable_iff (s : State) (e : Event) (sound : Sound s) (fetchable : StoredFetchable s) :
    StoredFetchable (step limits s e) ↔ RowFirst s e := by
  cases e with
  | receive ingest attempt evt receivedAt kept =>
    refine ⟨fun _ => trivial, fun _ => ?_⟩
    simp only [step]
    split
    · exact fetchable
    · exact fun row member => fetchable_grows _ (fetchable row member)
  | flush count write =>
    simp only [step, RowFirst]
    split
    · rename_i of
      constructor
      · intro after _ doc first
        rw [← upserted_eq_firsts] at first
        obtain ⟨row, present, _, media⟩ := upserted_row first
        have promised : row.media.Fetchable s.bucket := after row present
        rw [media] at promised
        exact freshRow_fetchable.mp promised
      · intro unpromised row present
        show row.media.Fetchable s.bucket
        rcases saveAll_origin present with ⟨old, before, _, media⟩ | ⟨doc, inserted, _, media⟩
        · rw [← media]
          exact fetchable old before
        · rw [upserted_eq_firsts] at inserted
          rw [← media]
          exact freshRow_fetchable.mpr (unpromised of doc inserted)
    · rename_i impossible
      exact ⟨fun _ of => (impossible of).elim, fun _ => fetchable⟩
  | land index =>
    refine ⟨fun _ => trivial, fun _ => ?_⟩
    simp only [step]
    split
    · exact fetchable
    · rename_i write found
      intro row member
      obtain ⟨own, others⟩ := saveMedia_rows sound.unique write.key write.media member
      by_cases same : row.key = write.key
      · rw [own same]
        exact sound.writes write (List.mem_of_getElem? found)
      · exact fetchable row (others same)
  | lose index => exact ⟨fun _ => trivial, fun _ => fetchable⟩
  | crash => exact ⟨fun _ => trivial, fun _ => fetchable⟩

/-- Every state of a run keeps the promise exactly when no flush of it writes a row before its object's
key can be recorded. -/
theorem stored_fetchable_iff (events : List Event) :
    (∀ n, StoredFetchable (run (step limits) start (events.take n))) ↔ Along (step limits) RowFirst start events := by
  apply prefixes_iff_along step_sound
  · exact fun s e sound fetchable => step_fetchable_iff s e sound fetchable
  · exact start_sound
  · intro _ listed
    cases listed

end

def hermes : ExternalIngest := ⟨"o", "i", "", some "", 1024⟩

def picture : ExternalEvent where
  messageId := "M"
  chatId := "1@g.us"
  senderId := "2@s.whatsapp.net"
  hasMedia := true
  mediaType := "image"
  mediaUrls := some ["/opt/data/cache/img_1.png"]
  timestamp := 1700000000

def pngSignature : Bytes := [0x89, 0x50, 0x4E, 0x47, 0x0D, 0x0A, 0x1A, 0x0A]

/-- The digest of the bytes below, and the quoting of a plain path. -/
@[reducible] def pictureLibrary : GoLibrary where
  quote path := "\"" ++ path ++ "\""
  sha256Hex _ := "4c4b6a3be1314ab86138bef4314dde022e600960d8689a2c8f8631802d20dab6"

/-- The picture is put into the bucket, its row is flushed, and the worker crashes before `saveMedia`. -/
def flushedThenCrashed : List Event :=
  [.receive hermes ⟨.ok pngSignature, none, none⟩ picture 1700000001000 true, .flush 1 ⟨[0], false⟩, .crash]

def crashed : State :=
  letI := Unicode.ascii
  letI := pictureLibrary
  run (step {}) start flushedThenCrashed

theorem stored_without_key : ¬ StoredFetchable crashed := by
  intro fetchable
  have facts : ∃ row ∈ crashed.rows, row.media.status = .stored ∧ row.media.r2Key = "" := by decide +kernel
  obtain ⟨row, member, stored, unnamed⟩ := facts
  exact (fetchable row member stored).1 unnamed

/-! ### A stored attachment stays stored -/

/-- Stored, with a key. -/
def MediaHeld (media : Media) : Prop := media.status = .stored ∧ media.r2Key ≠ ""

instance (media : Media) : Decidable (MediaHeld media) := inferInstanceAs (Decidable (_ ∧ _))

def KeepsStored (s t : State) : Prop :=
  ∀ row ∈ s.rows, MediaHeld row.media → ∃ same ∈ t.rows, same.key = row.key ∧ MediaHeld same.media

/-- An attempt whose record lands on a stored attachment has stored it too. -/
def StoredAgain (s : State) : Event → Prop
  | .land index => ∀ write ∈ s.writes[index]?, ∀ row ∈ s.rows, row.key = write.key → MediaHeld row.media →
      MediaHeld write.media
  | _ => True

instance (s : State) : (e : Event) → Decidable (StoredAgain s e)
  | .land index => inferInstanceAs (Decidable (∀ write ∈ s.writes[index]?, ∀ row ∈ s.rows, row.key = write.key →
      MediaHeld row.media → MediaHeld write.media))
  | .receive _ _ _ _ _ | .flush _ _ | .lose _ | .crash => .isTrue trivial

theorem keepsStored_refl (s : State) : KeepsStored s s := fun row member held => ⟨row, member, rfl, held⟩

theorem keepsStored_trans {s t u : State} (first : KeepsStored s t) (second : KeepsStored t u) : KeepsStored s u := by
  intro row member held
  obtain ⟨next, present, key, still⟩ := first row member held
  obtain ⟨last, there, same, kept⟩ := second next present still
  exact ⟨last, there, same.trans key, kept⟩

section
variable [Unicode] [GoLibrary] {limits : RawLimits}

theorem step_keeps_iff (s : State) (e : Event) (sound : Sound s) : KeepsStored s (step limits s e) ↔ StoredAgain s e := by
  cases e with
  | receive ingest attempt evt receivedAt kept =>
    refine ⟨fun _ => trivial, fun _ => ?_⟩
    simp only [step]
    split <;> exact keepsStored_refl s
  | flush count write =>
    refine ⟨fun _ => trivial, fun _ => ?_⟩
    simp only [step]
    split
    · intro row member held
      obtain ⟨same, present, key, media⟩ := saveAll_keeps member (write.written (s.accepted.take count))
      exact ⟨same, present, key, by rw [media]; exact held⟩
    · exact keepsStored_refl s
  | land index =>
    simp only [step, StoredAgain]
    split
    · rename_i none
      refine ⟨fun _ write found => ?_, fun _ => keepsStored_refl s⟩
      rw [none] at found
      cases found
    · rename_i write found
      constructor
      · intro keeps other same row member key held
        obtain rfl : write = other := Option.some.inj (found.symm.trans same)
        obtain ⟨next, present, sameKey, still⟩ := keeps row member held
        have media := (saveMedia_rows sound.unique write.key write.media present).1 (sameKey.trans key)
        exact media ▸ still
      · intro again row member held
        obtain ⟨next, present, sameKey⟩ := saveMedia_keeps member write.key write.media
        refine ⟨next, present, sameKey, ?_⟩
        obtain ⟨own, others⟩ := saveMedia_rows sound.unique write.key write.media present
        by_cases key : row.key = write.key
        · rw [own (sameKey.trans key)]
          exact again write found row member key held
        · have old : next ∈ s.rows := others fun same => key (sameKey.symm.trans same)
          obtain rfl : next = row := List.inj_on_of_nodup_map sound.unique old member sameKey
          exact held
  | lose index => exact ⟨fun _ => trivial, fun _ => keepsStored_refl s⟩
  | crash => exact ⟨fun _ => trivial, fun _ => keepsStored_refl s⟩

/-- From every state of a run on, a stored attachment stays stored, exactly when no record of an attempt
that stored nothing lands on it. -/
theorem stored_kept_iff (events : List Event) :
    (∀ first later rest, events = first ++ later ++ rest →
      KeepsStored (run (step limits) start first) (run (step limits) start (first ++ later))) ↔
        Along (step limits) StoredAgain start events := by
  apply relates_iff_along step_sound keepsStored_refl keepsStored_trans
  · exact fun s e sound => step_keeps_iff s e sound
  · exact start_sound

end

/-- The picture is stored and recorded. -/
def recorded : List Event :=
  [.receive hermes ⟨.ok pngSignature, none, none⟩ picture 1700000001000 true, .flush 1 ⟨[0], false⟩, .land 0]

/-- The bridge sends it again when its cache file is gone. -/
def redelivered : List Event :=
  [.receive hermes ⟨.error ⟨"read hermes attachment: open /opt/data/cache/img_1.png: no such file or directory", false⟩,
    none, none⟩ picture 1700000009000 true, .flush 1 ⟨[0], false⟩, .land 0]

def afterRecord : State :=
  letI := Unicode.ascii
  letI := pictureLibrary
  run (step {}) start recorded

def afterRedelivery : State :=
  letI := Unicode.ascii
  letI := pictureLibrary
  run (step {}) start (recorded ++ redelivered)

theorem redelivery_loses_attachment : ¬ KeepsStored afterRecord afterRedelivery := by
  intro keeps
  have held : ∃ row ∈ afterRecord.rows, MediaHeld row.media := by decide +kernel
  have lost : ∀ row ∈ afterRedelivery.rows, ¬ MediaHeld row.media := by decide +kernel
  obtain ⟨row, member, stored⟩ := held
  obtain ⟨same, present, _, still⟩ := keeps row member stored
  exact lost same present still

end GroupButler.Ingest.Pipeline
