import GroupButler.Ingest.Message

/-!
# Bridge events

`externalDoc` maps one event of the Hermes bridge onto a `messages` document. It fails only for an
event without a message id or without a chat.
-/

namespace GroupButler.Ingest
open Foundation Store

/-- The decoded payload. A list the payload omits is `none`. -/
structure ExternalEvent where
  messageId : String
  chatId : String
  senderId : String
  senderName : String := ""
  chatName : String := ""
  isGroup : Bool := true
  fromMe : Bool := false
  body : String := ""
  hasMedia : Bool := false
  mediaType : String := ""
  mediaUrls : Option (List String) := none
  mentionedIds : Option (List String) := none
  quotedMessageId : String := ""
  quotedParticipant : String := ""
  quotedRemoteJid : String := ""
  hasQuotedMessage : Bool := false
  botIds : Option (List String) := none
  timestamp : Int := 0
  deriving DecidableEq, Repr

def millisecondsEpoch : Int := 10000000000

/-- The instant in milliseconds, and whether the event's value was taken as given. -/
def externalTimestampAt (seconds : Int) (receivedAt : Time) : Time × Bool :=
  if seconds ≤ 0 then (receivedAt, false)
  else if millisecondsEpoch ≤ seconds then (seconds / 1000 * 1000, false)
  else (seconds * 1000, true)

/-- `time.Time.Sub` in milliseconds: a `Duration` saturates at 64 bits of nanoseconds. -/
def durationMs (later earlier : Time) : Int := max (-9223372036854) (min 9223372036854 (later - earlier))

section
variable [Unicode]

/-- `kind`, `media.kind` and `media.declaredType`. -/
def externalKind (evt : ExternalEvent) : Kind × Option Kind × Option Kind :=
  if !evt.hasMedia then
    if goTrimSpace evt.body != "" then (.text, none, none) else (.unknown, none, none)
  else
    let mediaType := toLower (goTrimSpace evt.mediaType)
    if mediaType == "image" then (.image, some .image, some .image)
    else if mediaType == "video" then (.video, some .video, some .video)
    else if mediaType == "audio" || mediaType == "ptt" then (.audio, some .audio, some .audio)
    else if mediaType == "document" then (.document, some .document, some .document)
    else (.unknown, none, none)

end

def externalText (evt : ExternalEvent) : String :=
  if evt.hasMedia && evt.body == "[" ++ evt.mediaType ++ " received]" then "" else evt.body

/-- `filepath.Base` -/
def basePath (path : List Char) : List Char :=
  if path.isEmpty then ['.']
  else
    let trimmed := trimRight ['/'] path
    if trimmed.isEmpty then ['/'] else (trimmed.reverse.takeWhile (· != '/')).reverse

/-- The name inside `doc_<hex>_<name>`. -/
def cachedName (path : String) : Option String :=
  let base := basePath path.toList
  if "doc_".toList.isPrefixOf base then
    match (base.drop 4).dropWhile (· != '_') with
    | [] => none
    | _ :: name => if name.isEmpty then none else some (String.ofList name)
  else none

def externalFileName (evt : ExternalEvent) : String :=
  if !evt.hasMedia || (goTrimSpace evt.mediaType).toLower != "document" then ""
  else ((evt.mediaUrls.getD []).findSome? cachedName).getD ""

/-- An `int64` as the nearest `float64`, ties to even. -/
def nearestFloat64 (n : Int) : Int :=
  let ulp := 2 ^ (n.natAbs.log2 - 52)
  let down := n.natAbs / ulp * ulp
  let rest := n.natAbs - down
  let mantissa := if 2 * rest < ulp ∨ 2 * rest = ulp ∧ n.natAbs / ulp % 2 = 0 then down else down + ulp
  if n < 0 then -(mantissa : Int) else mantissa

def jsonStrings : Option (List String) → Json
  | none => .null
  | some items => .arr (items.map .str)

/-- The payload's fields in declaration order, with its timestamp as `timestamp`. -/
def eventFields (evt : ExternalEvent) (timestamp : Int) : List (String × Json) := [
  ("messageId", .str evt.messageId), ("chatId", .str evt.chatId), ("senderId", .str evt.senderId),
  ("senderName", .str evt.senderName), ("chatName", .str evt.chatName), ("isGroup", .bool evt.isGroup),
  ("fromMe", .bool evt.fromMe), ("body", .str evt.body), ("hasMedia", .bool evt.hasMedia),
  ("mediaType", .str evt.mediaType), ("mediaUrls", jsonStrings evt.mediaUrls),
  ("mentionedIds", jsonStrings evt.mentionedIds), ("quotedMessageId", .str evt.quotedMessageId),
  ("quotedParticipant", .str evt.quotedParticipant), ("quotedRemoteJid", .str evt.quotedRemoteJid),
  ("hasQuotedMessage", .bool evt.hasQuotedMessage), ("botIds", jsonStrings evt.botIds),
  ("timestamp", .num timestamp)]

section
variable [Unicode]

/-- The raw tree and its search text. The decoded tree holds the timestamp as a `float64`. -/
def externalRaw (limits : RawLimits) (evt : ExternalEvent) : RawMessage × String :=
  let bytes := (Json.obj (eventFields evt evt.timestamp)).marshalled
  let tree := eventFields evt (nearestFloat64 evt.timestamp)
  let (message, truncated) :=
    if limits.rawJSONMaxBytes < bytes then pruneRaw tree limits.rawJSONMaxBytes else (tree, false)
  (⟨message, truncated, bytes⟩, rawSearchText tree limits.rawSearchMaxBytes)

inductive IngestError where
  | invalidRequest (message : String)
  deriving DecidableEq, Repr

def externalDoc (limits : RawLimits) (evt : ExternalEvent) (organizationId instanceId : String)
    (receivedAt : Time) : Except IngestError MessageDoc :=
  let messageId := goTrimSpace evt.messageId
  let chatId := goTrimSpace evt.chatId
  if messageId = "" ∨ chatId = "" then
    .error (.invalidRequest "event without a messageId or chatId")
  else
    let (timestamp, dated) := externalTimestampAt evt.timestamp receivedAt
    let (kind, mediaKind, declared) := externalKind evt
    let text := externalText evt
    let parseErrors :=
      (if dated then [] else ["event carried no usable timestamp; receivedAt was used instead"]) ++
      (if kind = .unknown then ["no text and no recognized media type"] else [])
    let (raw, rawSearch) := externalRaw limits evt
    .ok {
      organizationId, instanceId
      groupJid := chatId
      chatJid := chatId
      isGroup := evt.isGroup
      waMessageId := messageId
      senderJid := goTrimSpace evt.senderId
      pushName := evt.senderName
      fromMe := evt.fromMe
      timestamp, receivedAt
      serverSkewMs := durationMs receivedAt timestamp
      kind, text
      textSearch := foldText text
      links := collectLinks text
      mentions := dedupeStrings (evt.mentionedIds.getD [])
      media := {
        status := if evt.hasMedia then .pending else .none
        kind := mediaKind
        declaredType := declared
        fileName := externalFileName evt }
      raw, rawSearch
      parseState := if parseErrors.isEmpty then .ok else .partiallyParsed
      parseErrors
      schemaVersion := 1 }

theorem externalKind_ne_revoked (evt : ExternalEvent) : (externalKind evt).1 ≠ .revoked := by
  unfold externalKind
  split
  · split <;> simp
  · dsimp only
    repeat' split
    all_goals simp

theorem externalDoc_kind {limits : RawLimits} {evt : ExternalEvent} {organizationId instanceId : String}
    {receivedAt : Time} {doc : MessageDoc}
    (h : externalDoc limits evt organizationId instanceId receivedAt = .ok doc) : doc.kind ≠ .revoked := by
  unfold externalDoc at h
  dsimp only at h
  split at h
  · cases h
  · obtain rfl := Except.ok.inj h
    exact externalKind_ne_revoked evt

end

/-- What the bridge path can hand to the queue, whatever became of the attachment. -/
def MessageDoc.FromBridge (doc : MessageDoc) : Prop :=
  ∃ (_ : Unicode) (limits : RawLimits) (evt : ExternalEvent) (organizationId instanceId : String)
    (receivedAt : Time) (source : MessageDoc) (media : Media),
    externalDoc limits evt organizationId instanceId receivedAt = .ok source ∧ doc = { source with media }

abbrev BridgeDoc := { doc : MessageDoc // doc.FromBridge }

/-- The document of an accepted event as it is parsed. -/
def BridgeDoc.parsed [tables : Unicode] (limits : RawLimits) (evt : ExternalEvent) (organizationId instanceId : String)
    (receivedAt : Time) : Option BridgeDoc :=
  match accepted : externalDoc limits evt organizationId instanceId receivedAt with
  | .ok doc => some ⟨doc, tables, limits, evt, organizationId, instanceId, receivedAt, doc, doc.media, accepted, rfl⟩
  | .error _ => none

theorem BridgeDoc.kind_ne_revoked (doc : BridgeDoc) : doc.val.kind ≠ .revoked := by
  obtain ⟨_, _, _, _, _, _, source, media, produced, same⟩ := doc.property
  rw [same]
  show source.kind ≠ .revoked
  exact externalDoc_kind produced

end GroupButler.Ingest
