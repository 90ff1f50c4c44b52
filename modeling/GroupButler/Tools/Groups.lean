import GroupButler.Messages.TypeAhead
import GroupButler.Tools.Answer
import GroupButler.Tools.Media
import GroupButler.Tools.Params

/-!
# The group tools

Reads of one group, reads of the instance's groups and queue, the cancellation of a queued send, and the
writes that go through the owner's queue. All but the reads of the instance and the cancellation resolve
the one group they may act on first.
-/

namespace GroupButler.Tools
open Foundation Store Sends Actions Ai Messages

inductive GroupToolName where
  | groupInfo | groupParticipants | groupMessages | monitoredGroups | scheduledSends | cancelScheduled
  | staged (name : StagedGroupWriteToolName)
  deriving DecidableEq, Repr

namespace GroupToolLimits

def resultChars : Int := 32000
def recapHoursDefault : Int := 12
def recapHoursMax : Int := 168
def recapMessagesDefault : Nat := 60
def recapTextChars : Int := 800
def scheduledMax : Nat := 50

end GroupToolLimits

def stringField (input : Json) (key : String) : Option String :=
  match input.field key with
  | some (.str value) => some value
  | _ => none

def intField (input : Json) (key : String) : Option Int :=
  match input.field key with
  | some (.num value) => some value
  | _ => none

def includeAddresses (input : Json) : Bool :=
  match input.field "includeAddresses" with
  | some (.bool value) => value
  | _ => false

/-! ### The worker and the draws -/

structure WorkerGroupInfo where
  groupJid : String
  name : String
  topic : String
  isAnnounce : Bool
  isLocked : Bool
  participantCount : Nat
  botIsAdmin : Bool
  botIsSuperAdmin : Bool

structure WorkerGroupParticipant where
  jid : String
  isAdmin : Bool
  isSuperAdmin : Bool
  displayName : Option String

structure WorkerGroupParticipants where
  groupJid : String
  participants : List WorkerGroupParticipant

/-- What a call meets outside the database: the worker's answers, object storage, the clock as it is read,
and the random ids it draws. -/
structure Surroundings where
  info : String → String → Except Failure WorkerGroupInfo
  participants : String → String → Except Failure WorkerGroupParticipants
  runAction : String → String → GroupAdminRequest → WorkerResult
  reader : MediaReader
  clock : Nat → Time
  actionId : String
  shortIds : Nat → String
  sendId : String
  objectId : Nat

section
variable [Runtime] [Normalization]

/-! ### The group a call may act on -/

def monitoredGroups (db : Database) (context : ToolChatContext) : List StoredGroup :=
  db.groups.filter fun row =>
    row.organizationId == context.organizationId && row.instanceId == context.instanceId && row.monitored

/-- An address, or the name of exactly one monitored group. -/
def resolveMonitoredGroup (db : Database) (context : ToolChatContext) (reference : String) : Option String :=
  let trimmed := jsTrim reference
  if trimmed.toList.contains '@' then (if monitoredGroup db context trimmed then some trimmed else none)
  else
    let wanted := Runtime.toLocaleLowerCase (normalizeUntrustedText trimmed)
    if wanted = "" then none
    else
      match (monitoredGroups db context).filter fun row =>
          row.subject.any fun subject => Runtime.toLocaleLowerCase (jsTrim (normalizeUntrustedText subject)) == wanted with
      | [row] => some row.groupJid
      | _ => none

def scopedGroup (db : Database) (context : ToolChatContext) (input : Json) : Option String :=
  if !usableChatContext context then none
  else
    match context.chatKind with
    | .group => context.groupJid.filter (monitoredGroup db context)
    | .user =>
      match stringField input "group" with
      | none => none
      | some reference => if jsTrim reference = "" then none else resolveMonitoredGroup db context reference

/-! ### Reads of one group -/

def boundedInfo (info : WorkerGroupInfo) (addresses : Bool) : Json :=
  let shape (name topic : String) (truncated : Bool) : Json := .obj <| [("ok", .bool true)] ++
    optionalField addresses "groupJid" info.groupJid ++
    [("name", .str name), ("topic", .str topic), ("isAnnounce", .bool info.isAnnounce), ("isLocked", .bool info.isLocked),
      ("participantCount", .num info.participantCount), ("botIsAdmin", .bool info.botIsAdmin),
      ("botIsSuperAdmin", .bool info.botIsSuperAdmin), ("truncated", .bool truncated)]
  let remaining := GroupToolLimits.resultChars - jsonLength (shape "" "" false)
  let name := clipJson (normalizeUntrustedText info.name) remaining
  let topic := clipJson (normalizeUntrustedText info.topic) (remaining - jsonChars name.value)
  shape name.value topic.value (name.truncated || topic.truncated)

/-- The part of a text before a mark. -/
def before (mark : Char) (s : String) : String := String.ofList (s.toList.takeWhile (· != mark))

/-- The address without its device, and its number alone. -/
def identityKeys (jid : String) : List String :=
  let domain := before '@' (String.ofList (jid.toList.dropWhile (· != '@')).tail)
  let user := before ':' (before '@' jid)
  if user = "" then [] else if domain = "" then [user] else [user ++ "@" ++ domain, user]

def nameSourceMessages : Nat := 2000

/-- Newest first; a document without an instant comes last. -/
def newestFirst {α : Type} (at_ : α → Option Time) (docs : List α) : List α :=
  docs.mergeSort fun a b =>
    match at_ a, at_ b with
    | some a, some b => decide (b ≤ a)
    | none, some _ => false
    | _, none => true

def groupMessages (db : Database) (context : ToolChatContext) (groupJid : String) : List StoredMessage :=
  db.messages.filter fun row =>
    row.organizationId == context.organizationId && row.instanceId == context.instanceId && row.groupJid == some groupJid

/-- The names the group's own messages established, by address; the first entry of an address counts. -/
def knownNames (db : Database) (context : ToolChatContext) (groupJid : String) : List (String × String) :=
  let named := (groupMessages db context groupJid).filter fun row => row.pushName.any (· != "")
  ((newestFirst StoredMessage.timestamp named).take nameSourceMessages).flatMap fun row =>
    match row.senderJid, row.pushName with
    | some senderJid, some pushName =>
      if jsTrim pushName = "" then [] else (identityKeys senderJid).map fun key => (key, pushName)
    | _, _ => []

def participantEntry (names : List (String × String)) (addresses : Bool) (participant : WorkerGroupParticipant) : Json × Bool :=
  let known := participant.displayName.or
    ((identityKeys participant.jid).findSome? fun key => (names.find? fun entry => entry.1 == key).map Prod.snd)
  let displayName := known.map fun name => clipJson (normalizeUntrustedText name) GroupToolLimits.labelChars
  (.obj <| [("isAdmin", .bool participant.isAdmin), ("isSuperAdmin", .bool participant.isSuperAdmin)] ++
    optionalField addresses "jid" participant.jid ++
    (displayName.toList.map fun name => ("displayName", .str name.value)), displayName.any Clipped.truncated)

/-- The entries that fit, in order, and whether one was cut or left out. -/
def fitting : Int → List (Json × Bool) → List Json × Bool
  | _, [] => ([], false)
  | remaining, (entry, cut) :: entries =>
    let spent : Int := jsonLength entry + 1
    if remaining < spent then ([], true)
    else
      let (rest, truncated) := fitting (remaining - spent) entries
      (entry :: rest, cut || truncated)

def boundedParticipants (result : WorkerGroupParticipants) (addresses : Bool) (names : List (String × String)) : Json :=
  let shape (participants : List Json) (truncated : Bool) : Json := .obj <| [("ok", .bool true)] ++
    optionalField addresses "groupJid" result.groupJid ++
    [("participants", .arr participants), ("total", .num result.participants.length), ("truncated", .bool truncated)]
  let (participants, truncated) := fitting (GroupToolLimits.resultChars - jsonLength (shape [] false))
    (result.participants.map (participantEntry names addresses))
  shape participants (truncated || decide (participants.length < result.participants.length))

/-- `{at, text, messageId}` of a line the assistant sent, or a member's row. -/
inductive RecapLine where
  | incoming (row : StoredMessage) (at_ : Time)
  | outgoing (text messageId : String) (at_ : Time)

def RecapLine.at : RecapLine → Time
  | .incoming _ at_ | .outgoing _ _ at_ => at_

def senderLabel (row : StoredMessage) : String :=
  let pushName := (row.pushName.map fun name => jsTrim (normalizeUntrustedText name)).getD ""
  if row.fromMe then "Assistant"
  else if pushName ≠ "" then String.ofList (ofUtf16 ((utf16 pushName).take GroupToolLimits.labelChars))
  else before ':' (before '@' (row.senderJid.getD ""))

def recapEntry (remaining : Int) (line : RecapLine) : Json × Clipped :=
  let clip (text : String) : Clipped := clipJson (normalizeUntrustedText text) (min GroupToolLimits.recapTextChars (max remaining 0))
  match line with
  | .outgoing text messageId at_ =>
    let text := clip text
    (.obj [("messageId", .str messageId), ("at", .str (Runtime.toZonedIso at_)), ("from", .str "Assistant"),
      ("text", .str text.value)], text)
  | .incoming row at_ =>
    let text := clip (row.text.getD "")
    (.obj <| [("messageId", .str row.waMessageId), ("at", .str (Runtime.toZonedIso at_)), ("from", .str (senderLabel row)),
      ("text", .str text.value)] ++
      (((row.media.bind StoredMedia.kind).filter (· ≠ "")).toList.map fun kind => ("attachment", .str kind)), text)

def recapEntries : Int → List RecapLine → List Json × Bool
  | _, [] => ([], false)
  | remaining, line :: lines =>
    let (entry, text) := recapEntry remaining line
    let (rest, clipped) := recapEntries (remaining - jsonChars text.value) lines
    (entry :: rest, text.truncated || clipped)

/-- The rows of one group's sends that were sent. -/
def sentRows (db : Database) (context : ToolChatContext) (groupJid : String) : List SendRow :=
  db.sends.requests.filter fun row =>
    row.organizationId == context.organizationId && row.instanceId == context.instanceId && row.groupJid == groupJid &&
      row.status == .sent

/-- The escaped query is a literal. -/
def matchesQuery (query : String) (text : String) : Bool :=
  (literalOf (escapeRegExp query.toList)).any fun literal => Runtime.occursIn literal text

def readGroupMessages (now : Time) (db : Database) (context : ToolChatContext) (groupJid : String) (input : Json)
    (addresses : Bool) : Json :=
  let query := (stringField input "query").filter (· ≠ "")
  let hours := (intField input "hours").getD
    (if query.isSome then GroupToolLimits.recapHoursMax else GroupToolLimits.recapHoursDefault)
  let limit := ((intField input "limit").map Int.toNat).getD GroupToolLimits.recapMessagesDefault
  let since := now - hours * 60 * 60 * 1000
  let found (text : Option String) : Bool := query.all fun query => text.any (matchesQuery query)
  let received := (groupMessages db context groupJid).filter fun row =>
    row.timestamp.any (fun timestamp => decide (since ≤ timestamp)) && found row.text
  let sent := (sentRows db context groupJid).filter fun row => decide (since ≤ row.scheduledFor) && found (some row.text)
  let rows := (newestFirst StoredMessage.timestamp received).take limit
  let spoken := (newestFirst (fun row => some row.scheduledFor) sent).take limit
  let total := received.length + sent.length
  let merged :=
    (rows.filterMap fun row => row.timestamp.map fun timestamp => RecapLine.incoming row timestamp) ++
    ((spoken.filter fun row => row.text ≠ "").map fun row =>
      RecapLine.outgoing row.text (row.dispatch.waMessageId.getD "") row.scheduledFor)
  let windowed := (newestFirst (fun line => some line.at) merged).take limit
  -- a recap reads in the order it happened, a search its newest match first
  let (messages, clipped) := recapEntries GroupToolLimits.resultChars (if query.isSome then windowed else windowed.reverse)
  .obj <| [("ok", .bool true)] ++ optionalField addresses "groupJid" groupJid ++
    [("name", .str ""), ("hours", .num hours), ("messages", .arr messages), ("total", .num total),
      ("truncated", .bool (clipped || decide (rows.length < total)))]

def readGroup (surroundings : Surroundings) (db : Database) (context : ToolChatContext) (groupJid : String)
    (participants addresses : Bool) : Json :=
  if participants then
    match surroundings.participants context.instanceId groupJid with
    | .ok result => boundedParticipants result addresses (knownNames db context groupJid)
    | .error _ => notAvailable
  else
    match surroundings.info context.instanceId groupJid with
    | .ok info => boundedInfo info addresses
    | .error _ => notAvailable

/-! ### Reads of the instance -/

/-- A missing subject sorts first; `simple` collation compares scalar values. -/
def subjectOrder (a b : StoredGroup) : Bool :=
  match a.subject, b.subject with
  | none, none => decide (a.groupJid ≤ b.groupJid)
  | none, some _ => true
  | some _, none => false
  | some x, some y => if x = y then decide (a.groupJid ≤ b.groupJid) else decide (x ≤ y)

/-- The job's own group is a precondition here too. -/
def listMonitoredGroups (db : Database) (context : ToolChatContext) (addresses : Bool) : Json :=
  if !usableChatContext context then notAvailable
  else if context.chatKind = .group ∧ ¬ context.groupJid.any (monitoredGroup db context) then notAvailable
  else
    let groups := (monitoredGroups db context).mergeSort subjectOrder
    let shape (listed : List Json) (truncated : Bool) : Json :=
      .obj [("ok", .bool true), ("groups", .arr listed), ("total", .num groups.length), ("truncated", .bool truncated)]
    let (listed, truncated) := fitting (GroupToolLimits.resultChars - jsonLength (shape [] false)) <| groups.map fun group =>
      let name := clipJson (normalizeUntrustedText (group.subject.getD "")) GroupToolLimits.labelChars
      (.obj (optionalField addresses "groupJid" group.groupJid ++ [("name", .str name.value)]), name.truncated)
    shape listed (truncated || decide (listed.length < groups.length))

/-- What is queued to go out for the instance, oldest due first. -/
def queued (db : Database) (context : ToolChatContext) : List SendRow :=
  ((db.sends.requests.filter fun row =>
    row.organizationId == context.organizationId && row.instanceId == context.instanceId && row.status == .scheduled).mergeSort
      fun a b => decide (a.scheduledFor ≤ b.scheduledFor)).take GroupToolLimits.scheduledMax

/-- The name a queued send's group is shown by. -/
def queuedName (db : Database) (context : ToolChatContext) (groupJid : String) : String :=
  let group := db.groups.find? fun row => row.key == (context.organizationId, context.instanceId, groupJid)
  (clipJson (normalizeUntrustedText ((group.bind StoredGroup.subject).getD "")) GroupToolLimits.labelChars).value

def queuedEntry (addresses : Bool) (name : String → String) (row : SendRow) : Json :=
  .obj [("sendId", .str row.id), ("group", .str (if addresses then row.groupJid else name row.groupJid)),
    ("text", .str (clipJson (normalizeUntrustedText row.text) GroupToolLimits.recapTextChars).value),
    ("at", .str (Runtime.toZonedIso row.scheduledFor)), ("status", .str "scheduled")]

def queuedAnswer (rows : List SendRow) (addresses : Bool) (name : String → String) : Json :=
  .obj [("ok", .bool true), ("sends", .arr (rows.map (queuedEntry addresses name))), ("total", .num rows.length)]

def listScheduledSends (db : Database) (context : ToolChatContext) (addresses : Bool) : Json :=
  if !usableChatContext context then notAvailable
  else queuedAnswer (queued db context) addresses (queuedName db context)

end

end GroupButler.Tools
