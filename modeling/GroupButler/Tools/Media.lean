import GroupButler.Actions.Execute
import GroupButler.Foundation.Agreement

/-!
# The chat a tool is bound to, and the media tools

Every tool is bound to one chat descriptor. A media tool names a message: in a group job it is looked up
in the job's group, in a direct chat by its id alone, and then it has to lie in that chat or in a group
the instance monitors.
-/

namespace GroupButler.Tools
open Foundation Store Sends Actions

/-! ### What is stored -/

structure StoredMedia where
  kind : Option String
  status : Option String
  mime : Option String
  r2Key : Option String
  deriving DecidableEq, Repr

/-- A field is `none` where the document holds no string, or no date. -/
structure StoredMessage where
  organizationId : String
  instanceId : String
  waMessageId : String
  groupJid : Option String
  senderJid : Option String
  pushName : Option String
  fromMe : Bool
  text : Option String
  timestamp : Option Time
  media : Option StoredMedia
  deriving DecidableEq, Repr

def StoredMessage.key (row : StoredMessage) : String × String × String :=
  (row.organizationId, row.instanceId, row.waMessageId)

structure StoredGroup where
  organizationId : String
  instanceId : String
  groupJid : String
  /-- `observed.subject` -/
  subject : Option String
  assigned : Bool
  whitelisted : Bool
  deriving DecidableEq, Repr

def StoredGroup.key (row : StoredGroup) : String × String × String :=
  (row.organizationId, row.instanceId, row.groupJid)

def StoredGroup.monitored (row : StoredGroup) : Bool := row.assigned && row.whitelisted

structure Database where
  groups : List StoredGroup
  messages : List StoredMessage
  sends : SendDb
  actions : List ActionRow

/-- The unique indexes, and the random ids of the sends. -/
structure Indexed (db : Database) : Prop where
  groups : (db.groups.map StoredGroup.key).Nodup
  messages : (db.messages.map StoredMessage.key).Nodup
  sends : (db.sends.requests.map SendRow.name).Nodup

/-! ### The chat -/

inductive ChatKind where
  | group | user
  deriving DecidableEq, Repr

/-- One reply job's verified chat descriptor. -/
structure ToolChatContext where
  organizationId : String
  instanceId : String
  chatKind : ChatKind
  chatJid : String
  groupJid : Option String
  authorizedJids : List String
  deriving DecidableEq, Repr

def usableChatContext (context : ToolChatContext) : Bool :=
  context.organizationId != "" && context.instanceId != "" && context.chatJid != "" &&
    !context.authorizedJids.isEmpty && context.authorizedJids.all (· != "") &&
    (match context.chatKind with | .group => context.groupJid.isSome | .user => context.groupJid.isNone)

/-- The live re-authorization: assigned and whitelisted right now. -/
def monitoredGroup (db : Database) (context : ToolChatContext) (groupJid : String) : Bool :=
  (db.groups.find? fun row => row.key == (context.organizationId, context.instanceId, groupJid)).any StoredGroup.monitored

/-! ### Reading one attachment -/

inductive MediaToolName where
  | mediaGetImage | mediaReadCsv | mediaReadDocument | mediaTranscribeAudio | mediaDescribeVideo
  deriving DecidableEq, Repr

structure MediaToolInput where
  waMessageId : String
  maxRows : Option Int
  maxColumns : Option Int
  maxChars : Option Int
  maxSeconds : Option Int
  maxFrames : Option Int
  deriving DecidableEq, Repr

structure BoundedMediaInput where
  waMessageId : String
  maxRows : Int
  maxColumns : Int
  maxChars : Int
  maxSeconds : Int
  maxFrames : Int
  deriving DecidableEq, Repr

def clampCount (value : Option Int) (fallback maximum : Int) : Int :=
  match value with
  | none => fallback
  | some value => min (max value 1) maximum

/-- The caps of `MEDIA_TOOL_LIMITS`, whatever the caller sent. -/
def MediaToolInput.bounded (input : MediaToolInput) : BoundedMediaInput where
  waMessageId := input.waMessageId
  maxRows := clampCount input.maxRows 100 500
  maxColumns := clampCount input.maxColumns 30 50
  maxChars := clampCount input.maxChars 12000 24000
  maxSeconds := clampCount input.maxSeconds 120 600
  maxFrames := clampCount input.maxFrames 8 16

def imageMimes : List String := ["image/jpeg", "image/png", "image/webp", "image/gif"]

def csvMimes : List String := ["text/csv", "application/csv"]

def documentMimes : List String :=
  ["text/plain", "text/csv", "application/json", "application/pdf",
    "application/vnd.openxmlformats-officedocument.wordprocessingml.document",
    "application/vnd.openxmlformats-officedocument.spreadsheetml.sheet",
    "application/zip", "application/x-zip-compressed"]

def audioMimes : List String :=
  ["audio/ogg", "audio/opus", "audio/mpeg", "audio/mp3", "audio/wav", "audio/x-wav", "audio/wave", "audio/mp4", "audio/m4a",
    "audio/x-m4a"]

def videoMimes : List String := ["video/mp4", "video/webm"]

/-- `CONSUMABLE_MIMES` -/
def consumableMimes : MediaToolName → List String
  | .mediaGetImage => imageMimes
  | .mediaReadCsv => csvMimes
  | .mediaReadDocument => documentMimes
  | .mediaTranscribeAudio => audioMimes
  | .mediaDescribeVideo => videoMimes

/-- `String.prototype.toLowerCase`, and what else the runtime knows of Unicode and of time zones. -/
class Runtime where
  toLowerCase : String → String
  toLocaleLowerCase : String → String
  /-- The instant on the display clock, with its offset. -/
  toZonedIso : Time → String
  /-- A literal occurs in a text, case aside, as the database's regular expressions compare it. -/
  occursIn : List Char → String → Bool

section
variable [Runtime]

def consumableMime (name : MediaToolName) (mime : String) : Bool :=
  (consumableMimes name).contains (Runtime.toLowerCase mime)

structure ScopedMedia where
  groupJid : String
  messageId : String
  status : String
  mime : String
  r2Key : String
  deriving DecidableEq, Repr

/-- The message read: in a group job inside its group, in a direct chat by id alone and then checked. -/
def scopedMessage (db : Database) (context : ToolChatContext) (waMessageId : String) : Option StoredMessage :=
  match context.chatKind with
  | .group =>
    context.groupJid.bind fun groupJid =>
      if monitoredGroup db context groupJid then
        db.messages.find? fun row =>
          row.key == (context.organizationId, context.instanceId, waMessageId) && row.groupJid == some groupJid
      else none
  | .user =>
    (db.messages.find? fun row => row.key == (context.organizationId, context.instanceId, waMessageId)).filter fun row =>
      row.groupJid.any fun groupJid => groupJid == context.chatJid || monitoredGroup db context groupJid

def scopedMedia (message : StoredMessage) (waMessageId : String) : ScopedMedia where
  groupJid := message.groupJid.getD ""
  messageId := waMessageId
  status := (message.media.bind StoredMedia.status).getD "unknown"
  mime := ((message.media.bind StoredMedia.mime).map Runtime.toLowerCase).getD ""
  r2Key := (message.media.bind StoredMedia.r2Key).getD ""

def loadScopedMedia (db : Database) (context : ToolChatContext) (input : BoundedMediaInput) : Option ScopedMedia :=
  if usableChatContext context && input.waMessageId != "" then
    (scopedMessage db context input.waMessageId).map fun message => scopedMedia message input.waMessageId
  else none

inductive MediaToolResult where
  | notAvailable
  | notStored (status message : String)
  | unsupportedType (mime message : String)
  /-- A payload's JSON text. -/
  | payload (text : String)
  deriving DecidableEq, Repr

/-- Object storage, and what the local extractors make of an object's bytes within a tool's bounds. -/
structure MediaReader where
  readObject : String → String → Nat → Option (List Nat)
  extract : MediaToolName → ScopedMedia → BoundedMediaInput → List Nat → Option String

/-- The size of source each tool reads. -/
def sourceBytes : MediaToolName → Nat
  | .mediaGetImage => 8 * 1024 * 1024
  | .mediaDescribeVideo => 25 * 1024 * 1024
  | .mediaReadCsv => 10 * 1024 * 1024
  | .mediaReadDocument | .mediaTranscribeAudio => 20 * 1024 * 1024

def readCapability (reader : MediaReader) (name : MediaToolName) (media : ScopedMedia) (input : BoundedMediaInput)
    (organizationId : String) : MediaToolResult :=
  if consumableMime name media.mime = false then .notAvailable
  -- no speech-to-text here
  else if name = .mediaTranscribeAudio then .notAvailable
  else
    match (reader.readObject media.r2Key organizationId (sourceBytes name)).bind (reader.extract name media input) with
    | none => .notAvailable
    | some text => .payload text

def notStored (status : String) : MediaToolResult :=
  .notStored status ("That attachment is not stored (the capture left it " ++ status ++
    "), so there is nothing to read yet. Tell the owner it has to be sent again; do not claim the file was read.")

def unsupportedType (mime : String) : MediaToolResult :=
  .unsupportedType mime ("This tool cannot read " ++ mime ++
    ". Say which kind of file it is and which tool would read it, rather than that nothing arrived.")

/-- `runMediaTool`; its audit row and its log line are left out. -/
def runMediaTool (reader : MediaReader) (db : Database) (context : ToolChatContext) (name : MediaToolName)
    (input : MediaToolInput) : MediaToolResult :=
  match loadScopedMedia db context input.bounded with
  | none => .notAvailable
  | some media =>
    if media.status ≠ "stored" then notStored media.status
    else if consumableMime name media.mime = false then unsupportedType media.mime
    else readCapability reader name media input.bounded context.organizationId

end

end GroupButler.Tools
