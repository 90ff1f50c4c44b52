import GroupButler.Foundation.Rfc3339
import GroupButler.Ingest.External

/-!
# Attachments

`storeMedia` turns the bridge's cache file into the `media` subdocument of its message: the bytes are
read under a cap, identified by their first bytes and put under a key of their own, with a descriptor
beside them. What the file system and the bucket answer is an input.
-/

namespace GroupButler.Ingest
open Foundation Store

abbrev Bytes := List UInt8

/-- What the code asks of Go's `fmt` and `crypto/sha256`. -/
class GoLibrary where
  /-- `%q` -/
  quote : String → String
  sha256Hex : Bytes → String

/-! ### Identifying the bytes -/

def ascii (s : String) : Bytes := s.toList.map fun c => UInt8.ofNat c.toNat

def hasPrefix (data expected : Bytes) : Bool := expected.isPrefixOf data

def hasPrefixAt (offset : Nat) (data expected : Bytes) : Bool := expected.isPrefixOf (data.drop offset)

def bytesContain (data expected : Bytes) : Bool := data.tails.any fun rest => expected.isPrefixOf rest

def isWebP (data : Bytes) : Bool :=
  decide (16 ≤ data.length) && hasPrefix data (ascii "RIFF") && hasPrefixAt 8 data (ascii "WEBP")

def ebmlMime (data : Bytes) : String :=
  if bytesContain (data.take 128) (ascii "webm") then "video/webm" else "video/x-matroska"

def isMP3Frame (data : Bytes) : Bool :=
  match data with
  | first :: second :: _ => first == 0xFF && second &&& 0xE0 == 0xE0 && second &&& 0x06 != 0
  | _ => false

def isoBMFFMime (data : Bytes) : String :=
  let brand := (data.drop 8).take 4
  if brand ∈ ["M4A ", "M4B "].map ascii then "audio/mp4"
  else if brand ∈ ["3gp4", "3gp5", "3gp6", "3gp7", "3ge6", "3gg6"].map ascii then "video/3gpp"
  else if brand = ascii "qt  " then "video/quicktime"
  else "video/mp4"

/-- The MIME of a container the worker knows. -/
def sniffMedia (data : Bytes) : Option String :=
  if hasPrefix data [0x89, 0x50, 0x4E, 0x47, 0x0D, 0x0A, 0x1A, 0x0A] then some "image/png"
  else if hasPrefix data [0xFF, 0xD8, 0xFF] then some "image/jpeg"
  else if isWebP data then some "image/webp"
  else if hasPrefix data (ascii "RIFF") && hasPrefixAt 8 data (ascii "WAVE") then some "audio/wav"
  else if hasPrefix data [0x1A, 0x45, 0xDF, 0xA3] then some (ebmlMime data)
  else if hasPrefix data (ascii "GIF87a") || hasPrefix data (ascii "GIF89a") then some "image/gif"
  else if decide (12 ≤ data.length) && hasPrefixAt 4 data (ascii "ftyp") then some (isoBMFFMime data)
  else if hasPrefix data (ascii "OggS") then some "audio/ogg"
  else if hasPrefix data (ascii "ID3") || isMP3Frame data then some "audio/mpeg"
  else if hasPrefix data (ascii "%PDF") then some "application/pdf"
  else if hasPrefix data [0x50, 0x4B, 0x03, 0x04] then some "application/zip"
  else none

def kindForMime (mime : String) : Kind :=
  if mime.startsWith "image/" then .image
  else if mime.startsWith "video/" then .video
  else if mime.startsWith "audio/" then .audio
  else if mime.startsWith "text/" then .document
  else if mime ∈ ["application/pdf", "application/zip",
    "application/vnd.openxmlformats-officedocument.wordprocessingml.document",
    "application/vnd.openxmlformats-officedocument.spreadsheetml.sheet"] then .document
  else .raw

/-! ### Object keys -/

def mimeExtensions : List (String × String) := [
  ("image/jpeg", "jpg"), ("image/jpg", "jpg"), ("image/png", "png"), ("image/webp", "webp"), ("image/gif", "gif"),
  ("video/mp4", "mp4"), ("video/3gpp", "3gp"), ("video/quicktime", "mov"), ("video/webm", "webm"),
  ("video/x-matroska", "mkv"), ("audio/ogg", "ogg"), ("audio/mpeg", "mp3"), ("audio/mp4", "m4a"),
  ("audio/x-m4a", "m4a"), ("audio/wav", "wav"), ("application/pdf", "pdf"),
  ("application/vnd.openxmlformats-officedocument.wordprocessingml.document", "docx"),
  ("application/vnd.openxmlformats-officedocument.spreadsheetml.sheet", "xlsx"), ("text/plain", "txt"),
  ("text/csv", "csv"), ("application/zip", "zip")]

def genericContainerMimes : List String := ["application/zip"]

def knownExtensions : List String := ["jpg", "jpeg", "png", "webp", "gif", "mp4", "mov", "3gp", "webm", "mkv", "ogg",
  "mp3", "m4a", "wav", "pdf", "docx", "xlsx", "txt", "csv", "zip"]

def unparsedMime : String := "application/octet-stream"

def unparsedExt : String := "bin"

def sidecarExt : String := "meta.json"

section
variable [Unicode]

def normalizeMime (mime : String) : String :=
  let mime := toLower (goTrimSpace mime)
  if ';' ∈ mime.toList then goTrimSpace (String.ofList (mime.toList.takeWhile (· != ';'))) else mime

def declaredExtension (fileName : String) : String :=
  if '.' ∈ fileName.toList then
    let ext := toLower (String.ofList (fileName.toList.reverse.takeWhile (· != '.')).reverse)
    if ext ∈ knownExtensions then ext else ""
  else ""

def extensionForMime (mime fileName : String) : String :=
  let mime := normalizeMime mime
  let mapped := mimeExtensions.lookup mime
  if mapped.isSome && !genericContainerMimes.contains mime then mapped.getD unparsedExt
  else if declaredExtension fileName != "" then declaredExtension fileName
  else mapped.getD unparsedExt

end

def jidKey (jid : String) : String := String.ofList (jid.toList.map fun c => if c == '@' || c == ':' then '_' else c)

def objectKeyAt (orgID instanceID groupJID messageID ext : String) (moment : Time) : String :=
  let date := dateOfDays (moment / 86400000)
  "org/" ++ orgID ++ "/instance/" ++ instanceID ++ "/group/" ++ jidKey groupJID ++ "/" ++
    String.ofList (renderYear date.year) ++ "/" ++ String.ofList (padded 2 date.month) ++ "/" ++ messageID ++ "." ++ ext

theorem append_ne_empty {first : String} (h : first ≠ "") (rest : String) : first ++ rest ≠ "" := by
  intro empty
  have letters := congrArg String.toList empty
  rw [String.toList_append] at letters
  exact h (String.toList_inj.mp (List.append_eq_nil_iff.mp letters).1)

theorem objectKeyAt_ne_empty (orgID instanceID groupJID messageID ext : String) (moment : Time) :
    objectKeyAt orgID instanceID groupJID messageID ext moment ≠ "" := by
  unfold objectKeyAt
  iterate 13 apply append_ne_empty
  decide

/-! ### The cache file -/

/-- `filepath.Clean` -/
def cleanPath (path : String) : String :=
  let rooted := path.toList.head? == some '/'
  let parts := (path.toList.splitOn '/').foldl (fun out part =>
    if part = [] ∨ part = ['.'] then out
    else if part = ['.', '.'] then
      match out.getLast? with
      | none => if rooted then out else out ++ [part]
      | some last => if last = ['.', '.'] then out ++ [part] else out.dropLast
    else out ++ [part]) []
  let body := String.ofList (['/'].intercalate parts)
  if rooted then "/" ++ body else if body = "" then "." else body

def hermesContainerDataDir : String := "/opt/data"

def firstMediaPath (evt : ExternalEvent) : String := (evt.mediaUrls.getD []).headD ""

/-- The host path of the cache file, or the error's text. -/
def hostPath [GoLibrary] (dataDir raw : String) : Except String String :=
  let path := cleanPath (goTrimSpace raw)
  if (hermesContainerDataDir ++ "/").toList.isPrefixOf path.toList then
    if dataDir = "" then .ok path
    else .ok (cleanPath (dataDir ++ String.ofList (path.toList.drop hermesContainerDataDir.length)))
  else .error ("attachment path " ++ GoLibrary.quote raw ++ " is not below " ++ hermesContainerDataDir)

/-! ### Failures -/

structure ReadError where
  message : String
  /-- A deadline, a cancelled context, an early end of the file, or a network error. -/
  transient : Bool

def errMediaTooLarge : String := "media exceeds MEDIA_MAX_BYTES"

section
variable [Unicode]

def mentions (message : String) (needles : List String) : Bool :=
  needles.any fun needle => (toLower message).toList.tails.any fun rest => needle.toList.isPrefixOf rest

def isTransientMediaError (err : ReadError) : Bool :=
  err.transient || mentions err.message ["timeout", "timed out", "connection reset", "connection refused", "broken pipe",
    "temporarily", "too many requests", "slow down", "throttl", "service unavailable", "internal error", "unexpected eof"]

/-- The reason no retry can change, or `""`. -/
def permanentDownloadReason (err : ReadError) : String :=
  if isTransientMediaError err then ""
  else if mentions err.message ["view once", "viewonce"] then "view_once"
  else if mentions err.message ["expired", "too old", "not available"] then "expired"
  else if mentions err.message ["media key", "keys"] then "no_keys"
  else "download_failed"

def downloadFailure (media : Media) (err : ReadError) : Media :=
  let reason := permanentDownloadReason err
  { media with status := if reason = "" then .failed else .unavailable, reason, error := err.message }

end

def tooLarge (media : Media) : Media :=
  { media with status := .unavailable, reason := "too_large", error := errMediaTooLarge }

/-- Nothing the record could point at is complete. -/
def failedMedia (media : Media) (error : String) : Media :=
  { media with status := .failed, reason := "", error, r2Key := "", publicUrl := "" }

def externalMediaUnavailable (media : Media) (cause : String) : Media :=
  { media with status := .unavailable, reason := "download_failed", error := cause, r2Key := "", publicUrl := "" }

/-! ### Storing -/

/-- What the process is configured with. -/
structure ExternalIngest where
  orgID : String
  instanceID : String
  dataDir : String
  /-- R2's public base URL, or `none` without credentials. -/
  uploader : Option String
  mediaMaxBytes : Nat

/-- What the file system and the bucket answer: the file, and an error for each put that fails. -/
structure Attempt where
  file : Except ReadError Bytes
  put : Option String
  putSidecar : Option String

/-- An attachment's record, and the keys put into the bucket on the way. -/
structure Stored where
  media : Media
  objects : List String

/-- `persist` -/
def persist (publicBaseURL : String) (key sidecarKey : String) (attempt : Attempt) (media : Media) : Stored :=
  match attempt.put with
  | some err => ⟨failedMedia media ("r2 put " ++ key ++ ": " ++ err), []⟩
  | none =>
    let media := { media with r2Key := key, publicUrl := if publicBaseURL = "" then "" else publicBaseURL ++ "/" ++ key }
    match attempt.putSidecar with
    | some err => ⟨failedMedia media ("r2 put " ++ sidecarKey ++ ": " ++ err), [key]⟩
    | none => ⟨media, [key, sidecarKey]⟩

def unparsedMedia [GoLibrary] (media : Media) (data : Bytes) : Media :=
  { media with
    status := .unparsed
    kind := some .raw
    mime := unparsedMime
    reason := "unsupported_type"
    size := data.length
    sha256 := GoLibrary.sha256Hex data }

def storedMedia [GoLibrary] (media : Media) (mime : String) (data : Bytes) : Media :=
  { media with
    status := .stored
    kind := some (kindForMime mime)
    mime
    size := data.length
    sha256 := GoLibrary.sha256Hex data }

/-- The pipeline's `Store`, for a descriptor that declares no MIME. -/
def pipelineStore [Unicode] [GoLibrary] (ingest : ExternalIngest) (publicBaseURL : String) (attempt : Attempt)
    (doc : MessageDoc) (moment : Time) : Stored :=
  let media : Media := {
    status := .pending
    kind := doc.media.kind
    declaredType := doc.media.declaredType
    fileName := doc.media.fileName }
  let key (ext : String) : String := objectKeyAt ingest.orgID ingest.instanceID doc.groupJid doc.waMessageId ext moment
  if doc.media.declaredType = some .viewOnce then ⟨{ media with status := .unavailable, reason := "view_once" }, []⟩
  else
    match attempt.file with
    | .error err => ⟨downloadFailure media err, []⟩
    | .ok data =>
      if ingest.mediaMaxBytes < data.length then ⟨tooLarge media, []⟩
      else
        match sniffMedia data with
        | none => persist publicBaseURL (key unparsedExt) (key sidecarExt) attempt (unparsedMedia media data)
        | some mime =>
          persist publicBaseURL (key (extensionForMime mime media.fileName)) (key sidecarExt) attempt
            (storedMedia media mime data)

def storeMedia [Unicode] [GoLibrary] (ingest : ExternalIngest) (attempt : Attempt) (evt : ExternalEvent)
    (doc : MessageDoc) (moment : Time) : Stored :=
  if doc.media.status ≠ .pending then ⟨doc.media, []⟩
  else
    match ingest.uploader with
    | none => ⟨externalMediaUnavailable doc.media "media storage is not configured (no R2 credentials)", []⟩
    | some publicBaseURL =>
      match hostPath ingest.dataDir (firstMediaPath evt) with
      | .error cause => ⟨externalMediaUnavailable doc.media cause, []⟩
      | .ok _ => pipelineStore ingest publicBaseURL attempt doc moment

/-- `externalIngest.doc` -/
def ingestDoc [Unicode] [GoLibrary] (limits : RawLimits) (ingest : ExternalIngest) (attempt : Attempt)
    (evt : ExternalEvent) (receivedAt : Time) : Except IngestError (MessageDoc × List String) :=
  match externalDoc limits evt ingest.orgID ingest.instanceID receivedAt with
  | .error err => .error err
  | .ok doc =>
    let stored := storeMedia ingest attempt evt doc receivedAt
    .ok ({ doc with media := stored.media }, stored.objects)

/-! ### What a record promises -/

/-- The record names an object, and it is in the bucket. -/
def Media.Fetchable (bucket : List String) (media : Media) : Prop :=
  media.status = .stored → media.r2Key ≠ "" ∧ media.r2Key ∈ bucket

theorem persist_fetchable {publicBaseURL key sidecarKey : String} {attempt : Attempt} {media : Media} (named : key ≠ "") :
    (persist publicBaseURL key sidecarKey attempt media).media.Fetchable
      (persist publicBaseURL key sidecarKey attempt media).objects := by
  unfold persist
  split
  · intro h
    cases h
  · dsimp only
    split
    · intro h
      cases h
    · exact fun _ => ⟨named, List.mem_cons_self⟩

theorem pipelineStore_fetchable [Unicode] [GoLibrary] (ingest : ExternalIngest) (publicBaseURL : String)
    (attempt : Attempt) (doc : MessageDoc) (moment : Time) :
    (pipelineStore ingest publicBaseURL attempt doc moment).media.Fetchable
      (pipelineStore ingest publicBaseURL attempt doc moment).objects := by
  unfold pipelineStore
  dsimp only
  split
  · intro h
    cases h
  · split
    · intro stored
      simp only [downloadFailure] at stored
      split at stored <;> cases stored
    · split
      · intro h
        cases h
      · split
        · exact persist_fetchable (objectKeyAt_ne_empty _ _ _ _ _ _)
        · exact persist_fetchable (objectKeyAt_ne_empty _ _ _ _ _ _)

theorem storeMedia_fetchable [Unicode] [GoLibrary] (ingest : ExternalIngest) (attempt : Attempt) (evt : ExternalEvent)
    {doc : MessageDoc} (moment : Time) (parsed : doc.media.status ≠ .stored) :
    (storeMedia ingest attempt evt doc moment).media.Fetchable (storeMedia ingest attempt evt doc moment).objects := by
  unfold storeMedia
  split
  · exact fun stored => (parsed stored).elim
  · split
    · intro h
      cases h
    · split
      · intro h
        cases h
      · exact pipelineStore_fetchable ingest _ attempt doc moment

theorem externalDoc_media [Unicode] {limits : RawLimits} {evt : ExternalEvent} {organizationId instanceId : String}
    {receivedAt : Time} {doc : MessageDoc}
    (h : externalDoc limits evt organizationId instanceId receivedAt = .ok doc) : doc.media.status ≠ .stored := by
  unfold externalDoc at h
  dsimp only at h
  split at h
  · cases h
  · obtain rfl := Except.ok.inj h
    show (if evt.hasMedia then MediaStatus.pending else .none) ≠ .stored
    split <;> rintro ⟨⟩

/-- Every document the worker accepts promises only what it has put into the bucket. -/
theorem ingestDoc_fetchable [Unicode] [GoLibrary] {limits : RawLimits} {ingest : ExternalIngest} {attempt : Attempt}
    {evt : ExternalEvent} {receivedAt : Time} {doc : MessageDoc} {objects : List String}
    (h : ingestDoc limits ingest attempt evt receivedAt = .ok (doc, objects)) : doc.media.Fetchable objects := by
  unfold ingestDoc at h
  split at h
  · cases h
  · rename_i source parsed
    obtain ⟨rfl, rfl⟩ := Prod.mk.inj (Except.ok.inj h)
    exact storeMedia_fetchable ingest attempt evt receivedAt (externalDoc_media parsed)

end GroupButler.Ingest
