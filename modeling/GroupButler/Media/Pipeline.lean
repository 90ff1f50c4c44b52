import GroupButler.Foundation.Utf8
import GroupButler.Ingest.Keys
import GroupButler.Media.Duration
import GroupButler.Media.Image

/-!
# The media pipeline

`Store` takes one attachment through download, identification and two uploads, and reports the record its
message keeps. What the downloader, the bucket and the JSON encoder answer is an input.
-/

namespace GroupButler.Media
open Foundation Ingest Store

/-! ### What the pipeline is given -/

structure MediaDescriptor where
  kind : Option Kind
  declaredType : Option Kind
  mime : String
  fileName : String
  size : Nat
  messageID : String
  groupJID : String
  viewOnce : Bool

/-- The configuration accepts every positive 64-bit cap. -/
structure MediaPipeline where
  orgID : String
  instanceID : String
  publicBaseURL : String
  maxBytes : Int
  moment : Time
  maxBytes_pos : 0 < maxBytes
  maxBytes_word : maxBytes < 2 ^ 63

structure DownloadError extends ReadError where
  /-- The error wraps `errMediaTooLarge`. -/
  tooLarge : Bool

/-- A reader: the bytes it hands out, and the error it ends with, if any. -/
structure Stream where
  bytes : Bytes
  ends : Option DownloadError

inductive SidecarValue where
  | text (value : String)
  | status (value : MediaStatus)
  | kind (value : Option Kind)
  | int (value : Nat)
  | float (value : ℚ)

/-- What the rest of the process and the world answer one attempt. -/
structure Answers where
  /-- The caller gave up waiting for a slot. -/
  slot : Option DownloadError
  download : Except DownloadError (Option Stream)
  put : Option String
  marshalIndent : List (String × SidecarValue) → Except String Bytes
  putSidecar : Option String

structure Upload where
  key : String
  data : Bytes
  mime : String
  deriving DecidableEq, Repr

/-- The record. Its duration is exact, before the rounding to a float. -/
structure MediaRecord extends Media where
  width : Nat := 0
  height : Nat := 0
  durationSec : ℚ := 0
  text : String := ""
  attempts : Nat

/-- The record, and what was put into the bucket on the way. -/
structure StoreResult where
  media : MediaRecord
  uploads : List Upload

/-! ### Reading -/

/-- `io.Copy` from a reader limited to `max + 1` bytes, a 64-bit sum. -/
def copyCapped (src : Stream) (max : Int) : Except DownloadError Bytes :=
  let limit := (int64 (max + 1)).toNat
  let copied := src.bytes.take limit
  match if src.bytes.length < limit then src.ends else none with
  | some err => .error err
  | none =>
    if max < copied.length then .error { message := errMediaTooLarge, transient := false, tooLarge := true }
    else .ok copied

def MediaPipeline.download (pipeline : MediaPipeline) (answers : Answers) : Except DownloadError Bytes :=
  match answers.slot with
  | some err => .error err
  | none =>
    match answers.download with
    | .error err => .error err
    | .ok none => .error { message := "media downloader returned no stream", transient := false, tooLarge := false }
    | .ok (some stream) => copyCapped stream pipeline.maxBytes

def classifyDownloadFailure [Unicode] (err : DownloadError) : MediaStatus × String :=
  if err.tooLarge then (.unavailable, "too_large")
  else
    let reason := permanentDownloadReason err.toReadError
    if reason = "" then (.failed, "") else (.unavailable, reason)

/-- The downloader hands out these bytes and no error. -/
def Answers.Delivers (answers : Answers) (data : Bytes) : Prop :=
  answers.slot = none ∧ answers.download = .ok (some ⟨data, none⟩)

theorem limit_small {max : Int} (pos : 0 < max) (small : max < 2 ^ 63 - 1) : (int64 (max + 1)).toNat = max.toNat + 1 := by
  rw [int64_small (by omega) (by omega)]
  omega

/-- What is copied is the whole stream, when it fits and ends well. -/
theorem copyCapped_ok {max : Int} (pos : 0 < max) (small : max < 2 ^ 63 - 1) {src : Stream} {data : Bytes}
    (copied : copyCapped src max = .ok data) : src = ⟨data, none⟩ ∧ data.length ≤ max := by
  obtain ⟨bytes, ends⟩ := src
  unfold copyCapped at copied
  rw [limit_small pos small] at copied
  dsimp only at copied
  split at copied
  · cases copied
  · rename_i whole
    split at copied
    · cases copied
    · rename_i fits
      obtain rfl := Except.ok.inj copied
      rw [List.length_take] at fits
      have short : bytes.length < max.toNat + 1 := by omega
      rw [if_pos short] at whole
      rw [List.take_of_length_le (by omega), whole]
      exact ⟨rfl, by omega⟩

theorem copyCapped_delivered {max : Int} (pos : 0 < max) (small : max < 2 ^ 63 - 1) (data : Bytes) :
    copyCapped ⟨data, none⟩ max =
      if max < data.length then .error { message := errMediaTooLarge, transient := false, tooLarge := true } else .ok data := by
  unfold copyCapped
  rw [limit_small pos small]
  dsimp only
  rw [ite_self]
  dsimp only
  rw [List.length_take]
  by_cases large : max < data.length
  · rw [if_pos (by omega), if_pos large]
  · rw [if_neg (by omega), if_neg large, List.take_of_length_le (by omega)]

theorem download_ok {pipeline : MediaPipeline} (small : pipeline.maxBytes < 2 ^ 63 - 1) {answers : Answers} {data : Bytes}
    (read : pipeline.download answers = .ok data) : answers.Delivers data ∧ data.length ≤ pipeline.maxBytes := by
  unfold MediaPipeline.download at read
  split at read
  · cases read
  · rename_i slot
    split at read
    · cases read
    · cases read
    · rename_i stream opened
      obtain ⟨rfl, fits⟩ := copyCapped_ok pipeline.maxBytes_pos small read
      exact ⟨⟨slot, opened⟩, fits⟩

theorem download_delivered {pipeline : MediaPipeline} (small : pipeline.maxBytes < 2 ^ 63 - 1) {answers : Answers}
    {data : Bytes} (delivers : answers.Delivers data) :
    pipeline.download answers =
      if pipeline.maxBytes < data.length then
        .error { message := errMediaTooLarge, transient := false, tooLarge := true }
      else .ok data := by
  rw [MediaPipeline.download, delivers.1, delivers.2]
  exact copyCapped_delivered pipeline.maxBytes_pos small data

/-- Under the largest cap the sum wraps, and nothing of the stream is read. -/
theorem copyCapped_wraps (src : Stream) : copyCapped src (2 ^ 63 - 1) = .ok [] := by
  have wrapped : int64 (2 ^ 63 - 1 + 1) = 2 ^ 63 - 1 + 1 - 2 ^ 64 := int64_large (by omega) (by omega)
  have limit : (int64 (2 ^ 63 - 1 + 1)).toNat = 0 := by
    rw [wrapped]
    omega
  unfold copyCapped
  rw [limit]
  dsimp only
  rw [List.take_zero, if_neg (Nat.not_lt_zero _)]
  exact if_neg (by simp)

/-! ### Text documents -/

/-- The characters of a byte string, when it is UTF-8. -/
def utf8Text (data : Bytes) : Option (List Char) :=
  let cs := ofUtf8 none (data.map UInt8.toNat)
  if toUtf8 cs = data.map UInt8.toNat then some cs else none

/-- Bytes are dropped from the end until the rest is UTF-8. -/
def validFront : Nat → Bytes → Bytes
  | 0, data => data
  | length + 1, data => if (utf8Text data).isSome then data else validFront length data.dropLast

def documentText (data : Bytes) : String :=
  if (utf8Text data).isNone then ""
  else
    let max := 64 * 1024
    let data := if max < data.length then validFront max (data.take max) else data
    goTrimSpace (String.ofList ((utf8Text data).getD []))

def declaredTextDocument (mime : String) : Bool :=
  mime.startsWith "text/" || mime == "application/json" || mime == "application/csv"

/-! ### The record, step by step -/

def failedMedia (media : MediaRecord) (error : String) : MediaRecord :=
  { media with toMedia := Ingest.failedMedia media.toMedia error }

def omitEmpty (name text : String) : List (String × SidecarValue) := if text = "" then [] else [(name, .text text)]

def omitZero (name : String) (n : Nat) : List (String × SidecarValue) := if n = 0 then [] else [(name, .int n)]

def mediaSidecar (pipeline : MediaPipeline) (desc : MediaDescriptor) (media : MediaRecord) : List (String × SidecarValue) :=
  [("organizationId", .text pipeline.orgID), ("instanceId", .text pipeline.instanceID), ("groupJid", .text desc.groupJID),
    ("waMessageId", .text desc.messageID), ("status", .status media.status), ("kind", .kind media.kind),
    ("declaredType", .kind media.declaredType), ("mime", .text media.mime)] ++
    omitEmpty "fileName" media.fileName ++ [("size", .int media.size), ("sha256", .text media.sha256)] ++
    omitZero "width" media.width ++ omitZero "height" media.height ++
    (if media.durationSec = 0 then [] else [("durationSec", .float media.durationSec)]) ++
    omitEmpty "reason" media.reason ++ [("r2Key", .text media.r2Key)]

def sidecarJSON (pipeline : MediaPipeline) (answers : Answers) (desc : MediaDescriptor) (media : MediaRecord) :
    Except String Bytes :=
  match answers.marshalIndent (mediaSidecar pipeline desc media) with
  | .error err => .error ("media sidecar: " ++ err)
  | .ok payload => .ok (payload ++ [0x0A])

def MediaPipeline.key (pipeline : MediaPipeline) (desc : MediaDescriptor) (ext : String) : String :=
  objectKeyAt pipeline.orgID pipeline.instanceID desc.groupJID desc.messageID ext pipeline.moment

def sidecarMime : String := "application/json"

def MediaPipeline.publicURL (pipeline : MediaPipeline) (key : String) : String :=
  if pipeline.publicBaseURL = "" then "" else pipeline.publicBaseURL ++ "/" ++ key

def MediaPipeline.persist (pipeline : MediaPipeline) (answers : Answers) (media : MediaRecord) (desc : MediaDescriptor)
    (data : Bytes) (ext : String) : StoreResult :=
  let key := pipeline.key desc ext
  match answers.put with
  | some err => ⟨failedMedia media ("r2 put " ++ key ++ ": " ++ err), []⟩
  | none =>
    let uploaded : Upload := ⟨key, data, media.mime⟩
    let media := { media with r2Key := key, publicUrl := pipeline.publicURL key }
    match sidecarJSON pipeline answers desc media with
    | .error err => ⟨failedMedia media err, [uploaded]⟩
    | .ok sidecar =>
      let sidecarKey := pipeline.key desc sidecarExt
      match answers.putSidecar with
      | some err => ⟨failedMedia media ("r2 put " ++ sidecarKey ++ ": " ++ err), [uploaded]⟩
      | none => ⟨media, [uploaded, ⟨sidecarKey, sidecar, sidecarMime⟩]⟩

/-- Both uploads took place and the record names them, or the attempt failed and it names nothing. -/
theorem persist_cases (pipeline : MediaPipeline) (answers : Answers) (media : MediaRecord) (desc : MediaDescriptor)
    (data : Bytes) (ext : String) {result : StoreResult} (persisted : pipeline.persist answers media desc data ext = result) :
    result.media.status = .failed ∧ result.media.r2Key = "" ∧ result.media.publicUrl = "" ∨
      ∃ sidecar, result.media =
          { media with r2Key := pipeline.key desc ext, publicUrl := pipeline.publicURL (pipeline.key desc ext) } ∧
        sidecarJSON pipeline answers desc result.media = .ok sidecar ∧
        result.uploads =
          [⟨result.media.r2Key, data, result.media.mime⟩, ⟨pipeline.key desc sidecarExt, sidecar, sidecarMime⟩] := by
  unfold MediaPipeline.persist at persisted
  dsimp only at persisted
  split at persisted
  · subst persisted
    exact Or.inl ⟨rfl, rfl, rfl⟩
  · split at persisted
    · subst persisted
      exact Or.inl ⟨rfl, rfl, rfl⟩
    · rename_i sidecar encoded
      split at persisted
      · subst persisted
        exact Or.inl ⟨rfl, rfl, rfl⟩
      · subst persisted
        exact Or.inr ⟨sidecar, rfl, encoded, rfl⟩

section
variable [Unicode] [GoLibrary]

def unparsedMedia (media : MediaRecord) (data : Bytes) : MediaRecord :=
  { media with toMedia := Ingest.unparsedMedia media.toMedia data }

/-- What the bytes are taken for: a container, or text that was declared as such. -/
def readableMime (desc : MediaDescriptor) (data : Bytes) : Option String :=
  match sniffMedia data with
  | some mime => some mime
  | none => if documentText data ≠ "" ∧ declaredTextDocument desc.mime then some "text/plain" else none

/-- `Store`: one attempt at one attachment. It does not return where a header reader faults. -/
def MediaPipeline.store (pipeline : MediaPipeline) (desc : MediaDescriptor) (answers : Answers) : Except Fault StoreResult :=
  let media : MediaRecord := {
    status := .pending
    kind := desc.kind
    declaredType := desc.declaredType
    mime := desc.mime
    fileName := desc.fileName
    size := desc.size
    attempts := 1 }
  if desc.viewOnce ∨ desc.declaredType = some .viewOnce then
    .ok ⟨{ media with status := .unavailable, reason := "view_once" }, []⟩
  else
    match pipeline.download answers with
    | .error err =>
      let failure := classifyDownloadFailure err
      .ok ⟨{ media with status := failure.1, reason := failure.2, error := err.message }, []⟩
    | .ok data =>
      match readableMime desc data with
      | none => .ok (pipeline.persist answers (unparsedMedia media data) desc data unparsedExt)
      | some mime => do
        let size ← imageDimensions data
        let seconds ← mediaDurationSeconds data
        let media : MediaRecord := { media with
          toMedia := storedMedia media.toMedia mime data
          width := size.1
          height := size.2
          durationSec := seconds
          text := documentText data }
        return pipeline.persist answers media desc data (extensionForMime mime desc.fileName)

/-! ### What a record promises -/

def MediaDescriptor.Fetched (desc : MediaDescriptor) : Prop := ¬ (desc.viewOnce ∨ desc.declaredType = some .viewOnce)

/-- The kind of the bytes: their container's, or a document for declared text. -/
def bytesKind (desc : MediaDescriptor) (data : Bytes) : Kind :=
  match readableMime desc data with
  | some mime => kindForMime mime
  | none => .raw

/-- A record that claims an object describes it, every other one claims none, and only what is too large is refused so. -/
structure Kept (pipeline : MediaPipeline) (desc : MediaDescriptor) (answers : Answers) (result : StoreResult) : Prop where
  complete : result.media.Complete → ∃ data sidecar, answers.Delivers data ∧
    sidecarJSON pipeline answers desc result.media = .ok sidecar ∧
    result.uploads = [⟨result.media.r2Key, data, result.media.mime⟩, ⟨pipeline.key desc sidecarExt, sidecar, sidecarMime⟩] ∧
    result.media.size = data.length ∧ result.media.sha256 = GoLibrary.sha256Hex data ∧
    result.media.kind = some (bytesKind desc data)
  incomplete : ¬ result.media.Complete → result.media.r2Key = "" ∧ result.media.publicUrl = ""
  refused : ∀ data, answers.Delivers data → desc.Fetched →
    (result.media.status = .unavailable ∧ result.media.reason = "too_large" ↔ pipeline.maxBytes < data.length)

omit [GoLibrary] in
theorem classifyDownloadFailure_incomplete (err : DownloadError) :
    (classifyDownloadFailure err).1 = .unavailable ∨ (classifyDownloadFailure err).1 = .failed := by
  unfold classifyDownloadFailure
  split
  · exact Or.inl rfl
  · dsimp only
    split
    · exact Or.inr rfl
    · exact Or.inl rfl

/-- The record that an upload starts from: the bytes described, and no object yet. -/
structure Described (desc : MediaDescriptor) (data : Bytes) (media : MediaRecord) : Prop where
  complete : media.Complete
  size : media.size = data.length
  sha256 : media.sha256 = GoLibrary.sha256Hex data
  kind : media.kind = some (bytesKind desc data)

omit [Unicode] in
theorem persist_kept {pipeline : MediaPipeline} {desc : MediaDescriptor} {answers : Answers} {media : MediaRecord}
    {data : Bytes} (small : pipeline.maxBytes < 2 ^ 63 - 1) (read : pipeline.download answers = .ok data)
    (described : Described desc data media) (ext : String) :
    Kept pipeline desc answers (pipeline.persist answers media desc data ext) := by
  obtain ⟨delivers, fits⟩ := download_ok small read
  have refused : ∀ data', answers.Delivers data' → ¬ pipeline.maxBytes < data'.length := by
    intro data' delivers'
    have same := delivers.2.symm.trans delivers'.2
    obtain rfl := (Stream.mk.inj (Option.some.inj (Except.ok.inj same))).1
    omega
  rcases persist_cases pipeline answers media desc data ext rfl with ⟨failed, key, url⟩ | ⟨sidecar, kept, encoded, uploads⟩
  · exact {
      complete := fun complete => by rcases complete with status | status <;> rw [failed] at status <;> cases status
      incomplete := fun _ => ⟨key, url⟩
      refused := fun data' delivers' _ =>
        iff_of_false (fun ⟨status, _⟩ => by rw [failed] at status; cases status) (refused data' delivers') }
  · have status : (pipeline.persist answers media desc data ext).media.Complete := by
      rw [kept]
      exact described.complete
    refine {
      complete := fun _ => ⟨data, sidecar, delivers, encoded, uploads, ?_⟩
      incomplete := fun incomplete => absurd status incomplete
      refused := fun data' delivers' _ => iff_of_false ?_ (refused data' delivers') }
    · rw [kept]
      exact ⟨described.size, described.sha256, described.kind⟩
    · rintro ⟨unavailable, _⟩
      rcases status with status | status <;> rw [unavailable] at status <;> cases status

/-- One attempt, under a cap that leaves room for the byte that proves a stream too large. -/
theorem store_kept {pipeline : MediaPipeline} {desc : MediaDescriptor} {answers : Answers} {result : StoreResult}
    (small : pipeline.maxBytes < 2 ^ 63 - 1) (stored : pipeline.store desc answers = .ok result) :
    Kept pipeline desc answers result := by
  unfold MediaPipeline.store at stored
  dsimp only at stored
  split at stored
  · rename_i consumed
    obtain rfl := Except.ok.inj stored
    exact {
      complete := by rintro (status | status) <;> cases status
      incomplete := fun _ => ⟨rfl, rfl⟩
      refused := fun _ _ fetched => absurd consumed fetched }
  · split at stored
    · rename_i err failed
      obtain rfl := Except.ok.inj stored
      refine {
        complete := ?_
        incomplete := fun _ => ⟨rfl, rfl⟩
        refused := ?_ }
      · intro complete
        rcases classifyDownloadFailure_incomplete err with status | status
        · rcases complete with complete | complete <;> rw [status] at complete <;> cases complete
        · rcases complete with complete | complete <;> rw [status] at complete <;> cases complete
      · intro data delivers _
        rw [download_delivered small delivers] at failed
        split at failed
        · rename_i large
          obtain rfl := Except.error.inj failed
          exact iff_of_true ⟨rfl, rfl⟩ large
        · cases failed
    · rename_i data read
      split at stored
      · rename_i unread
        obtain rfl := Except.ok.inj stored
        refine persist_kept small read ⟨Or.inr rfl, rfl, rfl, ?_⟩ _
        rw [bytesKind, unread]
        rfl
      · rename_i mime readable
        obtain ⟨size, measured⟩ := imageDimensions_ok data
        rw [measured] at stored
        cases timed : mediaDurationSeconds data with
        | error fault =>
          rw [timed] at stored
          cases stored
        | ok seconds =>
          rw [timed] at stored
          obtain rfl := Except.ok.inj stored
          refine persist_kept small read ⟨Or.inl rfl, rfl, rfl, ?_⟩ _
          rw [bytesKind, readable]
          rfl

/-- One byte in a stream, and a bucket that takes both objects. -/
def oneByte : Answers := ⟨none, .ok (some ⟨[0], none⟩), none, fun _ => .ok [], none⟩

def plainDescriptor : MediaDescriptor := ⟨none, none, "", "", 0, "", "", false⟩

theorem store_wrapped {pipeline : MediaPipeline} (largest : pipeline.maxBytes = 2 ^ 63 - 1) :
    ∃ result, pipeline.store plainDescriptor oneByte = .ok result ∧ result.media.Complete ∧ result.media.size = 0 := by
  have read : pipeline.download oneByte = .ok [] := by
    show copyCapped _ pipeline.maxBytes = .ok []
    rw [largest, copyCapped_wraps]
  have unread : readableMime plainDescriptor [] = none := rfl
  unfold MediaPipeline.store
  dsimp only
  rw [if_neg (by rintro (view | view) <;> cases view), read]
  dsimp only
  rw [unread]
  exact ⟨_, rfl, Or.inr rfl, rfl⟩

end

/-- Records are kept so just when the cap is not the largest 64-bit integer. -/
theorem records_kept_iff [Unicode] [GoLibrary] (pipeline : MediaPipeline) :
    (∀ desc answers result, pipeline.store desc answers = .ok result → Kept pipeline desc answers result) ↔
      pipeline.maxBytes < 2 ^ 63 - 1 := by
  constructor
  · intro kept
    have word := pipeline.maxBytes_word
    by_contra large
    obtain ⟨result, stored, complete, size⟩ := store_wrapped (by omega : pipeline.maxBytes = 2 ^ 63 - 1)
    obtain ⟨data, sidecar, delivers, -, -, length, -⟩ := (kept _ _ _ stored).complete complete
    have same := Option.some.inj (Except.ok.inj delivers.2)
    rw [size, ← (Stream.mk.inj same).1] at length
    cases length
  · intro small desc answers result stored
    exact store_kept small stored

/-- `MEDIA_MAX_BYTES=9223372036854775807`: a payload of one byte is filed as an object of none. -/
theorem largest_cap_empties :
    let _ := Unicode.ascii
    let _ : GoLibrary := ⟨id, fun _ => ""⟩
    let pipeline : MediaPipeline := ⟨"org", "inst", "", 2 ^ 63 - 1, 0, by decide, by decide⟩
    ∃ result, pipeline.store plainDescriptor oneByte = .ok result ∧ oneByte.Delivers [0] ∧ result.media.Complete ∧
      result.media.size = 0 := by
  intro unicode library pipeline
  obtain ⟨result, stored, complete, size⟩ := store_wrapped (rfl : pipeline.maxBytes = 2 ^ 63 - 1)
  exact ⟨result, stored, ⟨rfl, rfl⟩, complete, size⟩

/-! ### The ingest path -/

/-- The answers of the bridge's cache file: no wait for a slot, and a reader that ends well. -/
def Answers.ofAttempt (attempt : Attempt) (marshalIndent : List (String × SidecarValue) → Except String Bytes) : Answers where
  slot := none
  download := match attempt.file with
    | .error err => .error { err with tooLarge := false }
    | .ok data => .ok (some ⟨data, none⟩)
  put := attempt.put
  marshalIndent := marshalIndent
  putSidecar := attempt.putSidecar

def MediaDescriptor.ofDoc (doc : MessageDoc) : MediaDescriptor :=
  ⟨doc.media.kind, doc.media.declaredType, "", doc.media.fileName, 0, doc.waMessageId, doc.groupJid, false⟩

section
variable [Unicode] [GoLibrary]

omit [Unicode] [GoLibrary] in
theorem persist_ofAttempt {pipeline : MediaPipeline} {attempt : Attempt} {marshalIndent : List (String × SidecarValue) → Except String Bytes}
    (encodes : ∀ fields, ∃ payload, marshalIndent fields = .ok payload) (media : MediaRecord) (desc : MediaDescriptor)
    (data : Bytes) (ext : String) :
    Ingest.persist pipeline.publicBaseURL (pipeline.key desc ext) (pipeline.key desc sidecarExt) attempt media.toMedia =
      ⟨(pipeline.persist (.ofAttempt attempt marshalIndent) media desc data ext).media.toMedia,
        (pipeline.persist (.ofAttempt attempt marshalIndent) media desc data ext).uploads.map Upload.key⟩ := by
  unfold Ingest.persist MediaPipeline.persist Answers.ofAttempt
  dsimp only
  cases attempt.put with
  | some err => rfl
  | none =>
    dsimp only
    unfold sidecarJSON
    dsimp only
    obtain ⟨payload, encoded⟩ := encodes (mediaSidecar pipeline desc
      { media with r2Key := pipeline.key desc ext, publicUrl := pipeline.publicURL (pipeline.key desc ext) })
    rw [encoded]
    cases attempt.putSidecar with
    | some err => rfl
    | none => rfl

/-- The ingest path's attempt is the pipeline's, when the pipeline returns. -/
theorem pipelineStore_refines {ingest : ExternalIngest} {pipeline : MediaPipeline} {attempt : Attempt} {doc : MessageDoc}
    {marshalIndent : List (String × SidecarValue) → Except String Bytes} {result : StoreResult}
    (org : pipeline.orgID = ingest.orgID) (inst : pipeline.instanceID = ingest.instanceID)
    (cap : pipeline.maxBytes = ingest.mediaMaxBytes) (small : pipeline.maxBytes < 2 ^ 63 - 1)
    (encodes : ∀ fields, ∃ payload, marshalIndent fields = .ok payload)
    (stored : pipeline.store (.ofDoc doc) (.ofAttempt attempt marshalIndent) = .ok result) :
    pipelineStore ingest pipeline.publicBaseURL attempt doc pipeline.moment =
      ⟨result.media.toMedia, result.uploads.map Upload.key⟩ := by
  have key (ext : String) : objectKeyAt ingest.orgID ingest.instanceID doc.groupJid doc.waMessageId ext pipeline.moment =
      pipeline.key (.ofDoc doc) ext := by
    rw [MediaPipeline.key, org, inst]
    rfl
  unfold pipelineStore
  dsimp only
  simp only [key]
  unfold MediaPipeline.store at stored
  dsimp only at stored
  by_cases consumed : doc.media.declaredType = some .viewOnce
  · have viewed : (MediaDescriptor.ofDoc doc).viewOnce = true ∨ (MediaDescriptor.ofDoc doc).declaredType = some .viewOnce :=
      Or.inr consumed
    rw [if_pos consumed]
    rw [if_pos viewed] at stored
    obtain rfl := Except.ok.inj stored
    rfl
  · have unviewed : ¬ ((MediaDescriptor.ofDoc doc).viewOnce = true ∨
        (MediaDescriptor.ofDoc doc).declaredType = some .viewOnce) := by
      rintro (view | view)
      · exact Bool.noConfusion view
      · exact consumed view
    rw [if_neg consumed]
    rw [if_neg unviewed] at stored
    cases file : attempt.file with
    | error err =>
      have failed : pipeline.download (.ofAttempt attempt marshalIndent) = .error { err with tooLarge := false } := by
        simp only [MediaPipeline.download, Answers.ofAttempt, file]
      rw [failed] at stored
      obtain rfl := Except.ok.inj stored
      dsimp only
      rw [downloadFailure]
      simp only [classifyDownloadFailure, Bool.false_eq_true, if_false]
      by_cases transient : permanentDownloadReason err = ""
      · rw [if_pos transient, if_pos transient, transient]
        rfl
      · rw [if_neg transient, if_neg transient]
        rfl
    | ok data =>
      have delivers : (Answers.ofAttempt attempt marshalIndent).Delivers data := ⟨rfl, by simp only [Answers.ofAttempt, file]⟩
      rw [download_delivered small delivers, cap] at stored
      dsimp only
      by_cases large : ingest.mediaMaxBytes < data.length
      · rw [if_pos large]
        rw [if_pos (by omega)] at stored
        obtain rfl := Except.ok.inj stored
        rfl
      · rw [if_neg large]
        rw [if_neg (by omega)] at stored
        have undeclared : declaredTextDocument (MediaDescriptor.ofDoc doc).mime = false := by
          show declaredTextDocument "" = false
          decide
        dsimp only at stored
        unfold readableMime at stored
        rw [undeclared] at stored
        simp only [Bool.false_eq_true, and_false, if_false] at stored
        cases sniffed : sniffMedia data with
        | none =>
          rw [sniffed] at stored
          obtain rfl := Except.ok.inj stored
          dsimp only
          exact @persist_ofAttempt pipeline attempt marshalIndent encodes
            (unparsedMedia
              { status := .pending, kind := doc.media.kind, declaredType := doc.media.declaredType,
                fileName := doc.media.fileName, attempts := 1 } data) (.ofDoc doc) data unparsedExt
        | some mime =>
          rw [sniffed] at stored
          obtain ⟨size, measured⟩ := imageDimensions_ok data
          dsimp only at stored
          rw [measured] at stored
          cases timed : mediaDurationSeconds data with
          | error fault =>
            rw [timed] at stored
            cases stored
          | ok seconds =>
            rw [timed] at stored
            obtain rfl := Except.ok.inj stored
            dsimp only
            exact @persist_ofAttempt pipeline attempt marshalIndent encodes
              { toMedia := storedMedia
                  { status := .pending, kind := doc.media.kind, declaredType := doc.media.declaredType,
                    fileName := doc.media.fileName } mime data
                width := size.1
                height := size.2
                durationSec := seconds
                text := documentText data
                attempts := 1 }
              (.ofDoc doc) data (extensionForMime mime doc.media.fileName)

end

end GroupButler.Media
