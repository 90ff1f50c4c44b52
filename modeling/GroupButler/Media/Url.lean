import GroupButler.Ingest.Keys
import GroupButler.Ingest.Pipeline
import GroupButler.Media.Objects

/-!
# A message's signed URL

The worker files an attachment under its message's organisation and records the key; the dashboard signs a
recorded key under the session's organisation. Whatever the worker has been through, the two agree on whose
object it is.
-/

namespace GroupButler.Media
open Foundation Store Ingest

inductive MediaAnswer where
  | unauthorized
  | instanceRequired
  | notFound
  | mediaUnavailable
  | signed (media : PresignedMedia)
  deriving DecidableEq, Repr

def MediaAnswer.status : MediaAnswer → Nat
  | .unauthorized => 401
  | .instanceRequired => 400
  | .notFound => 404
  | .mediaUnavailable => 503
  | .signed _ => 200

def messageMediaKey (rows : List MessageRow) (key : MessageKey) : Option String :=
  ((rows.find? fun row => row.key == key).map fun row => row.media.r2Key).filter fun r2Key => r2Key != ""

/-- `GET /api/media/[messageId]/url`, with the organisation of the session, if there is one. -/
def getMediaUrl (storage : Storage) (rows : List MessageRow) (session : Option String) (instanceId : Option String)
    (messageId : String) : MediaAnswer :=
  match session with
  | none => .unauthorized
  | some organizationId =>
    match instanceId.filter fun instanceId => instanceId != "" with
    | none => .instanceRequired
    | some instanceId =>
      match messageMediaKey rows ⟨organizationId, instanceId, messageId⟩ with
      | none => .notFound
      | some r2Key =>
        match presignMediaUrl storage r2Key organizationId with
        | .error .foreignKey => .notFound
        | .error _ => .mediaUnavailable
        | .ok signed => .signed signed

/-! ### Keys and organisations -/

theorem toList_orgPrefix (organizationId : String) :
    orgPrefix organizationId = "org/".toList ++ (organizationId.toList ++ ['/']) := by
  unfold orgPrefix
  rw [String.toList_append, String.toList_append, List.append_assoc]
  rfl

theorem objectKeyAt_own (organizationId instanceId groupJid messageId ext : String) (moment : Time) :
    ownKey (objectKeyAt organizationId instanceId groupJid messageId ext moment) organizationId = true := by
  rw [ownKey, List.isPrefixOf_iff_prefix, toList_objectKeyAt, toList_orgPrefix]
  refine ⟨"instance/".toList ++ (instanceId.toList ++ ("/group/".toList ++
    (objectStem groupJid messageId moment ++ '.' :: ext.toList))), ?_⟩
  simp [String.toList_append]

/-- A key is filed under one organisation only, where their names hold no slash. -/
theorem ownKey_iff {organizationId other instanceId groupJid messageId ext : String} {moment : Time}
    (plain : '/' ∉ organizationId.toList) (plain' : '/' ∉ other.toList) :
    ownKey (objectKeyAt organizationId instanceId groupJid messageId ext moment) other = true ↔ other = organizationId := by
  constructor
  · intro own
    rw [ownKey, List.isPrefixOf_iff_prefix, toList_objectKeyAt, toList_orgPrefix] at own
    obtain ⟨rest, same⟩ := own
    have split : "org/".toList ++ (other.toList ++ '/' :: rest) = "org/".toList ++ (organizationId.toList ++ '/' ::
        ("instance/".toList ++ (instanceId.toList ++ ("/group/".toList ++
          (objectStem groupJid messageId moment ++ '.' :: ext.toList))))) := by
      simpa [String.toList_append] using same
    exact String.toList_inj.mp (append_sep_inj plain' plain (List.append_cancel_left split)).1
  · intro same
    rw [same]
    exact objectKeyAt_own _ _ _ _ _ _

/-! ### Recorded keys -/

/-- A key that is recorded for a message is that of an object in the bucket, filed under the message itself. -/
def Filed (bucket : List String) (key : MessageKey) (media : Media) : Prop :=
  media.r2Key ≠ "" → media.r2Key ∈ bucket ∧ ∃ groupJid ext moment,
    media.r2Key = objectKeyAt key.organizationId key.instanceId groupJid key.waMessageId ext moment

theorem filed_unnamed {bucket : List String} {key : MessageKey} {media : Media} (unnamed : media.r2Key = "") :
    Filed bucket key media :=
  fun named => (named unnamed).elim

theorem filed_grows {bucket : List String} {key : MessageKey} {media : Media} (objects : List String)
    (filed : Filed bucket key media) : Filed (bucket ++ objects) key media := by
  intro named
  obtain ⟨present, name⟩ := filed named
  exact ⟨List.mem_append_left _ present, name⟩

theorem persist_filed {publicBaseURL key sidecarKey : String} {attempt : Attempt} {media : Media} {message : MessageKey}
    (name : ∃ groupJid ext moment,
      key = objectKeyAt message.organizationId message.instanceId groupJid message.waMessageId ext moment) :
    Filed (persist publicBaseURL key sidecarKey attempt media).objects message
      (persist publicBaseURL key sidecarKey attempt media).media := by
  unfold persist
  split
  · exact filed_unnamed rfl
  · dsimp only
    split
    · exact filed_unnamed rfl
    · exact fun _ => ⟨List.mem_cons_self, name⟩

section
variable [Unicode] [GoLibrary]

theorem pipelineStore_filed (ingest : ExternalIngest) (publicBaseURL : String) (attempt : Attempt) (doc : MessageDoc)
    (moment : Time) : Filed (pipelineStore ingest publicBaseURL attempt doc moment).objects ⟨ingest.orgID, ingest.instanceID, doc.waMessageId⟩
      (pipelineStore ingest publicBaseURL attempt doc moment).media := by
  unfold pipelineStore
  dsimp only
  split
  · exact filed_unnamed rfl
  · split
    · exact filed_unnamed rfl
    · split
      · exact filed_unnamed rfl
      · split
        · exact persist_filed ⟨_, _, _, rfl⟩
        · exact persist_filed ⟨_, _, _, rfl⟩

theorem storeMedia_filed (ingest : ExternalIngest) (attempt : Attempt) (evt : ExternalEvent) {doc : MessageDoc} (moment : Time)
    (unnamed : doc.media.r2Key = "") :
    Filed (storeMedia ingest attempt evt doc moment).objects ⟨ingest.orgID, ingest.instanceID, doc.waMessageId⟩
      (storeMedia ingest attempt evt doc moment).media := by
  unfold storeMedia
  split
  · exact filed_unnamed unnamed
  · split
    · exact filed_unnamed rfl
    · split
      · exact filed_unnamed rfl
      · exact pipelineStore_filed ingest _ attempt doc moment

omit [GoLibrary] in
theorem externalDoc_address {limits : RawLimits} {evt : ExternalEvent} {organizationId instanceId : String} {receivedAt : Time}
    {doc : MessageDoc} (h : externalDoc limits evt organizationId instanceId receivedAt = .ok doc) :
    doc.organizationId = organizationId ∧ doc.instanceId = instanceId ∧ doc.media.r2Key = "" := by
  unfold externalDoc at h
  dsimp only at h
  split at h
  · cases h
  · obtain rfl := Except.ok.inj h
    exact ⟨rfl, rfl, rfl⟩

theorem ingestDoc_filed {limits : RawLimits} {ingest : ExternalIngest} {attempt : Attempt} {evt : ExternalEvent}
    {receivedAt : Time} {doc : MessageDoc} {objects : List String} (h : ingestDoc limits ingest attempt evt receivedAt = .ok (doc, objects)) :
    Filed objects doc.key doc.media := by
  unfold ingestDoc at h
  split at h
  · cases h
  · rename_i source parsed
    obtain ⟨rfl, rfl⟩ := Prod.mk.inj (Except.ok.inj h)
    obtain ⟨organization, instance_, unnamed⟩ := externalDoc_address parsed
    have filed := storeMedia_filed ingest attempt evt receivedAt unnamed
    rw [← organization, ← instance_] at filed
    exact filed

end

structure AllFiled (s : Pipeline.State) : Prop where
  unique : UniqueRows s.rows
  accepted : ∀ doc ∈ s.accepted, Filed s.bucket doc.key doc.media
  writes : ∀ write ∈ s.writes, Filed s.bucket write.key write.media
  rows : ∀ row ∈ s.rows, Filed s.bucket row.key row.media

theorem start_allFiled : AllFiled Pipeline.start :=
  ⟨List.nodup_nil, (by intro _ h; cases h), (by intro _ h; cases h), (by intro _ h; cases h)⟩

section
variable [Unicode] [GoLibrary] {limits : RawLimits}

theorem step_allFiled (s : Pipeline.State) (e : Pipeline.Event) (filed : AllFiled s) : AllFiled (Pipeline.step limits s e) := by
  obtain ⟨unique, accepted, writes, rows⟩ := filed
  cases e with
  | receive ingest attempt evt receivedAt kept =>
    simp only [Pipeline.step]
    split
    · exact ⟨unique, accepted, writes, rows⟩
    · rename_i doc objects ingested
      refine ⟨unique, ?_, fun write present => filed_grows objects (writes write present),
        fun row present => filed_grows objects (rows row present)⟩
      intro other present
      dsimp only at present
      split at present
      · rcases List.mem_append.mp present with before | new
        · exact filed_grows objects (accepted other before)
        · obtain rfl := List.mem_singleton.mp new
          intro named
          obtain ⟨put, name⟩ := ingestDoc_filed ingested named
          exact ⟨List.mem_append_right _ put, name⟩
      · exact filed_grows objects (accepted other present)
  | flush count write =>
    simp only [Pipeline.step]
    split
    · refine ⟨saveAll_unique unique _, fun doc present => accepted doc (List.mem_of_mem_drop present), ?_, ?_⟩
      · intro other present
        simp only [Pipeline.State.flush] at present
        split at present
        · exact writes other present
        · rcases List.mem_append.mp present with before | new
          · exact writes other before
          · obtain ⟨doc, flushed, rfl⟩ := Pipeline.recordSaved_mem new
            exact accepted doc (List.mem_of_mem_take flushed)
      · intro row present
        show Filed s.bucket row.key row.media
        rcases saveAll_origin present with ⟨old, before, key, media⟩ | ⟨doc, -, -, media⟩
        · rw [← key, ← media]
          exact rows old before
        · rw [← media]
          exact filed_unnamed rfl
    · exact ⟨unique, accepted, writes, rows⟩
  | land index =>
    simp only [Pipeline.step]
    split
    · exact ⟨unique, accepted, writes, rows⟩
    · rename_i write found
      refine ⟨?_, accepted, fun other present => writes other (List.mem_of_mem_eraseIdx present), ?_⟩
      · show ((saveMedia s.rows _ _).map MessageRow.key).Nodup
        rw [saveMedia_keys]
        exact unique
      · intro row present
        obtain ⟨own, others⟩ := Pipeline.saveMedia_rows unique write.key write.media present
        by_cases same : row.key = write.key
        · rw [own same, same]
          exact writes write (List.mem_of_getElem? found)
        · exact rows row (others same)
  | lose index => exact ⟨unique, accepted, fun other present => writes other (List.mem_of_mem_eraseIdx present), rows⟩
  | crash => exact ⟨unique, (by intro _ h; cases h), (by intro _ h; cases h), rows⟩

end

/-! ### Answers -/

/-- The key recorded for a message is that of its one row. -/
theorem messageMediaKey_iff {rows : List MessageRow} (unique : UniqueRows rows) {key : MessageKey} {r2Key : String} :
    messageMediaKey rows key = some r2Key ↔ r2Key ≠ "" ∧ ∃ row ∈ rows, row.key = key ∧ row.media.r2Key = r2Key := by
  rw [messageMediaKey, Option.filter_eq_some_iff, Option.map_eq_some_iff]
  constructor
  · intro found
    obtain ⟨⟨row, first, recorded⟩, named⟩ := found
    exact ⟨by simpa using named, row, List.mem_of_find?_eq_some first, by simpa using List.find?_some first, recorded⟩
  · intro found
    obtain ⟨named, row, member, same, recorded⟩ := found
    refine ⟨⟨row, ?_, recorded⟩, by simpa using named⟩
    cases first : rows.find? fun row => row.key == key with
    | none => exact absurd same (by simpa using List.find?_eq_none.mp first row member)
    | some other =>
      have equal : other.key = row.key := (by simpa using List.find?_some first : other.key = key).trans same.symm
      rw [List.inj_on_of_nodup_map unique (List.mem_of_find?_eq_some first) member equal]

theorem getMediaUrl_recorded {storage : Storage} {config : R2Config} {rows : List MessageRow}
    {organizationId instanceId messageId r2Key : String} (named : instanceId ≠ "") (configured : r2Config storage = .ok config)
    (recorded : messageMediaKey rows ⟨organizationId, instanceId, messageId⟩ = some r2Key)
    (own : ownKey r2Key organizationId = true) :
    getMediaUrl storage rows (some organizationId) (some instanceId) messageId =
      .signed ⟨storage.getSignedUrl config r2Key, config.ttlSeconds⟩ := by
  have given : (some instanceId).filter (fun instanceId => instanceId != "") = some instanceId := by simp [named]
  have signed : presignMediaUrl storage r2Key organizationId = .ok ⟨storage.getSignedUrl config r2Key, config.ttlSeconds⟩ := by
    rw [presignMediaUrl, own, if_neg (by decide), configured]
    rfl
  simp only [getMediaUrl, given, recorded, signed]

theorem getMediaUrl_unrecorded {storage : Storage} {rows : List MessageRow} {organizationId instanceId messageId : String}
    (named : instanceId ≠ "") (unrecorded : messageMediaKey rows ⟨organizationId, instanceId, messageId⟩ = none) :
    getMediaUrl storage rows (some organizationId) (some instanceId) messageId = .notFound := by
  have given : (some instanceId).filter (fun instanceId => instanceId != "") = some instanceId := by simp [named]
  simp only [getMediaUrl, given, unrecorded]

theorem AllFiled.signed_iff {s : Pipeline.State} (filed : AllFiled s) {storage : Storage} {config : R2Config}
    (configured : r2Config storage = .ok config) {organizationId instanceId messageId : String} {answer : PresignedMedia}
    (named : instanceId ≠ "") :
    getMediaUrl storage s.rows (some organizationId) (some instanceId) messageId = .signed answer ↔
      ∃ row ∈ s.rows, row.key = ⟨organizationId, instanceId, messageId⟩ ∧ row.media.r2Key ≠ "" ∧
        answer = ⟨storage.getSignedUrl config row.media.r2Key, config.ttlSeconds⟩ := by
  cases recorded : messageMediaKey s.rows ⟨organizationId, instanceId, messageId⟩ with
  | none =>
    rw [getMediaUrl_unrecorded named recorded]
    constructor
    · intro signed
      cases signed
    · intro found
      obtain ⟨row, member, same, some_, -⟩ := found
      have present := (messageMediaKey_iff filed.unique).mpr ⟨some_, row, member, same, rfl⟩
      rw [recorded] at present
      cases present
  | some r2Key =>
    obtain ⟨some_, row, member, same, rfl⟩ := (messageMediaKey_iff filed.unique).mp recorded
    have own : ownKey row.media.r2Key organizationId = true := by
      obtain ⟨-, groupJid, ext, moment, name⟩ := filed.rows row member some_
      rw [name, same]
      exact objectKeyAt_own _ _ _ _ _ _
    rw [getMediaUrl_recorded named configured recorded own]
    constructor
    · intro signed
      exact ⟨row, member, same, some_, (MediaAnswer.signed.inj signed).symm⟩
    · intro found
      obtain ⟨other, present, sameKey, -, rfl⟩ := found
      rw [List.inj_on_of_nodup_map filed.unique present member (sameKey.trans same.symm)]

theorem presign_foreign_iff {storage : Storage} {config : R2Config} (configured : r2Config storage = .ok config)
    {key other : String} : presignMediaUrl storage key other = .error .foreignKey ↔ ownKey key other = false := by
  rw [presignMediaUrl, configured]
  split
  · rename_i foreign
    exact ⟨fun _ => foreign, fun _ => rfl⟩
  · rename_i ours
    constructor
    · intro refused
      cases refused
    · intro foreign
      exact (ours foreign).elim

section
variable [Unicode] [GoLibrary] {limits : RawLimits}

/-- Whatever the worker has been through, a session is given a URL exactly for the messages of its own organisation whose
record names an object, and the object is in the bucket, filed under that very message. The same key is foreign to every
other organisation. -/
theorem signed_iff_recorded (storage : Storage) (events : List Pipeline.Event) (config : R2Config)
    (configured : r2Config storage = .ok config) :
    let s := run (Pipeline.step limits) Pipeline.start events
    (∀ organizationId instanceId messageId answer, instanceId ≠ "" →
      (getMediaUrl storage s.rows (some organizationId) (some instanceId) messageId = .signed answer ↔
        ∃ row ∈ s.rows, row.key = ⟨organizationId, instanceId, messageId⟩ ∧ row.media.r2Key ≠ "" ∧
          answer = ⟨storage.getSignedUrl config row.media.r2Key, config.ttlSeconds⟩)) ∧
    ∀ row ∈ s.rows, row.media.r2Key ≠ "" →
      row.media.r2Key ∈ s.bucket ∧
      (∃ groupJid ext moment, row.media.r2Key =
        objectKeyAt row.key.organizationId row.key.instanceId groupJid row.key.waMessageId ext moment) ∧
      ('/' ∉ row.key.organizationId.toList → ∀ other : String, '/' ∉ other.toList →
        (presignMediaUrl storage row.media.r2Key other = .error .foreignKey ↔ other ≠ row.key.organizationId)) := by
  intro s
  have filed : AllFiled s := run_invariant (@step_allFiled _ _ limits) start_allFiled events
  refine ⟨fun organizationId instanceId messageId answer named => filed.signed_iff configured named, ?_⟩
  intro row member some_
  obtain ⟨present, groupJid, ext, moment, name⟩ := filed.rows row member some_
  refine ⟨present, ⟨groupJid, ext, moment, name⟩, ?_⟩
  intro plain other plain'
  have own : ownKey row.media.r2Key other = true ↔ other = row.key.organizationId := by
    rw [name]
    exact ownKey_iff plain plain'
  rw [presign_foreign_iff configured, ← Bool.not_eq_true, own]

end

/-- The picture that was stored and recorded. -/
theorem signed_iff_recorded_picture :
    ∃ row ∈ Pipeline.afterRecord.rows, getMediaUrl deployment Pipeline.afterRecord.rows (some "o") (some "i") "M" =
      .signed ⟨"https://butler.acct123.r2.cloudflarestorage.com/" ++ row.media.r2Key, 300⟩ := by
  have facts : ∃ row ∈ Pipeline.afterRecord.rows, row.key = ⟨"o", "i", "M"⟩ ∧ row.media.r2Key ≠ "" := by decide +kernel
  obtain ⟨row, member, same, named⟩ := facts
  have answers := (@signed_iff_recorded Unicode.ascii Pipeline.pictureLibrary {} deployment Pipeline.recorded _ deployment_config).1
  exact ⟨row, member, (answers "o" "i" "M" _ (by decide)).mpr ⟨row, member, same, named, rfl⟩⟩

end GroupButler.Media
