import GroupButler.Foundation.Buffer
import GroupButler.Foundation.IsoDate
import GroupButler.Foundation.Keyset
import GroupButler.Messages.TypeAhead
import Mathlib.Algebra.Order.Floor.Defs
import Mathlib.Data.Rat.Floor
import Mathlib.Data.Prod.Lex
import Mathlib.Data.String.Basic
import Mathlib.Data.Int.ConditionallyCompleteOrder

/-!
# Message search

`searchMessages` reads one page of an organization's messages, newest first: a filtered page, or the
cut of the union of a text page and a type-ahead page. The cursor of the next page is the last row's
ordering key.
-/

namespace GroupButler.Messages
open Foundation Ingest Store

/-! ### Rows -/

structure MediaDoc where
  status : Option String := none
  declaredType : Option String := none
  r2Key : Option String := none
  mime : Option String := none
  fileName : Option String := none
  reason : Option String := none
  deriving DecidableEq, Repr

/-- A stored `messages` document, as far as a search reads it. -/
structure MessageDoc where
  organizationId : String
  waMessageId : Option String
  instanceId : Option String
  groupJid : Option String := none
  senderJid : Option String := none
  pushName : Option String := none
  fromMe : Option Bool := none
  timestamp : Option Time
  kind : Option String := none
  text : Option String := none
  textSearch : Option String := none
  rawSearch : Option String := none
  media : Option MediaDoc := none
  deriving DecidableEq, Repr

structure MessageMediaRow where
  status : String
  declaredType : Option String
  r2Key : Option String
  mime : Option String
  fileName : Option String
  reason : Option String
  deriving DecidableEq, Repr

structure MessageRow where
  waMessageId : String
  instanceId : String
  groupJid : String
  senderJid : String
  pushName : String
  fromMe : Bool
  timestamp : Option String
  kind : String
  text : String
  media : MessageMediaRow
  deriving DecidableEq, Repr

def toMessageRow (doc : MessageDoc) : MessageRow :=
  let media := doc.media.getD {}
  {
    waMessageId := doc.waMessageId.getD ""
    instanceId := doc.instanceId.getD ""
    groupJid := doc.groupJid.getD ""
    senderJid := doc.senderJid.getD ""
    pushName := doc.pushName.getD ""
    fromMe := doc.fromMe.getD false
    timestamp := doc.timestamp.map toISOString
    kind := doc.kind.getD "unknown"
    text := doc.text.getD ""
    media := {
      status := media.status.getD "none"
      declaredType := media.declaredType
      r2Key := media.r2Key
      mime := media.mime
      fileName := media.fileName
      reason := media.reason
    }
  }

structure MessageSearchInput where
  organizationId : String
  query : Option String := none
  instanceId : Option String := none
  groupJid : Option String := none
  senderJid : Option String := none
  kinds : Option (List String) := none
  mediaStatus : Option String := none
  fromTime : Option Time := none
  toTime : Option Time := none
  /-- A finite number, or `none` for a missing or unparseable one. -/
  limit : Option ℚ := none
  cursor : Option String := none
  deriving DecidableEq, Repr

def messageDefaultLimit : Nat := 50

def messageMaxLimit : Nat := 200

def clampMessageLimit (value : Option ℚ) : Nat :=
  match value with
  | none => messageDefaultLimit
  | some value => (min (max ⌊value⌋ 1) messageMaxLimit).toNat

theorem clampMessageLimit_bounds (value : Option ℚ) : 1 ≤ clampMessageLimit value ∧ clampMessageLimit value ≤ messageMaxLimit := by
  have most : messageMaxLimit = 200 := rfl
  cases value with
  | none => decide
  | some value =>
    simp only [clampMessageLimit, most]
    omega

/-! ### Cursors -/

/-- A JSON array of a string or null and two strings, as `JSON.stringify` writes it. -/
def cursorText (row : MessageRow) : List Char :=
  '[' :: ((match row.timestamp with | none => "null".toList | some timestamp => quote timestamp.toList) ++
    ',' :: (quote row.waMessageId.toList ++ ',' :: (quote row.instanceId.toList ++ [']'])))

def encodeMessageCursor (row : MessageRow) : String := String.ofList (toBase64url (toUtf8 (cursorText row)))

structure MessageCursorKey where
  timestamp : Time
  waMessageId : String
  instanceId : String
  deriving DecidableEq, Repr

inductive SearchError where
  | invalidCursor
  deriving DecidableEq, Repr

/-- Three strings in a JSON array. Whatever else the text is, the cursor is refused. -/
def parseStrings (cs : List Char) : Option (List Char × List Char × List Char) := do
  let rest ← expect '[' cs
  let (first, rest) ← readString rest
  let rest ← expect ',' rest
  let (second, rest) ← readString rest
  let rest ← expect ',' rest
  let (third, rest) ← readString rest
  let rest ← expect ']' rest
  if rest.all isJsonSpace then some (first, second, third) else none

section
variable [DateStrings]

def decodeMessageCursor (cursor : String) : Except SearchError MessageCursorKey :=
  match parseStrings (ofUtf8 none (ofBase64url cursor.toList)) with
  | none => .error .invalidCursor
  | some (timestamp, waMessageId, instanceId) =>
    if waMessageId = [] ∨ instanceId = [] then .error .invalidCursor
    else match readDate (String.ofList timestamp) with
      | none => .error .invalidCursor
      | some at_ => .ok ⟨at_, String.ofList waMessageId, String.ofList instanceId⟩

end

def nextMessageCursor (rows : List MessageRow) (limit : Nat) : Option String :=
  if rows.length < limit then none
  else match rows.getLast? with
    | none => none
    | some last => if last.timestamp = none then none else some (encodeMessageCursor last)

/-! ### One page -/

/-- A string JavaScript takes for true. -/
def given (value : Option String) : Option String := value.filter (· ≠ "")

/-- The tenant and the compound filters. -/
def compoundFilter (input : MessageSearchInput) (doc : MessageDoc) : Bool :=
  doc.organizationId = input.organizationId &&
  (given input.instanceId).all (fun value => doc.instanceId = some value) &&
  (given input.groupJid).all (fun value => doc.groupJid = some value) &&
  (given input.senderJid).all (fun value => doc.senderJid = some value) &&
  (input.kinds.filter (!·.isEmpty)).all (fun kinds => doc.kind.any fun kind => decide (kind ∈ kinds)) &&
  (given input.mediaStatus).all (fun value => (doc.media.bind (·.status)) = some value) &&
  input.fromTime.all (fun earliest => doc.timestamp.any fun sent => decide (earliest ≤ sent)) &&
  input.toTime.all (fun latest => doc.timestamp.any fun sent => decide (sent ≤ latest))

/-- The cursor predicate. -/
def olderThan (key : MessageCursorKey) (doc : MessageDoc) : Bool :=
  doc.timestamp.any (fun sent => decide (sent < key.timestamp)) ||
  doc.timestamp = some key.timestamp && doc.waMessageId.any (fun id => decide (id < key.waMessageId)) ||
  doc.timestamp = some key.timestamp && doc.waMessageId = some key.waMessageId &&
    doc.instanceId.any (fun id => decide (id < key.instanceId))

def messageFilter [DateStrings] (input : MessageSearchInput) : Except SearchError (MessageDoc → Bool) :=
  match given input.cursor with
  | none => .ok (compoundFilter input)
  | some cursor => (decodeMessageCursor cursor).map fun key doc => compoundFilter input doc && olderThan key doc

/-- The database's order of two documents: a missing field sorts before every value. -/
abbrev SortKey := Lex (WithBot Time × Lex (WithBot String × WithBot String))

def sortKey (doc : MessageDoc) : SortKey := toLex (doc.timestamp, toLex (doc.waMessageId, doc.instanceId))

/-- `SORT` -/
def newestFirst (first second : MessageDoc) : Prop := sortKey second ≤ sortKey first

instance : DecidableRel newestFirst := fun first second => inferInstanceAs (Decidable (sortKey second ≤ sortKey first))

/-- `find(filter).sort(SORT).limit(limit)` -/
def findPage (docs : List MessageDoc) (filter : MessageDoc → Bool) (limit : Nat) : List MessageDoc :=
  ((docs.filter filter).insertionSort newestFirst).take limit

def identity (row : MessageRow) : String := row.instanceId ++ "\u0000" ++ row.waMessageId

/-- The first row of each identity. -/
def byIdentity (rows : List MessageRow) : List MessageRow :=
  rows.foldl (fun kept row => if kept.any fun other => identity other = identity row then kept else kept ++ [row]) []

def compareRows (left right : MessageRow) : Int :=
  let leftAt := left.timestamp.getD ""
  let rightAt := right.timestamp.getD ""
  if leftAt ≠ rightAt then (if utf16 leftAt < utf16 rightAt then 1 else -1)
  else if left.waMessageId ≠ right.waMessageId then
    (if utf16 left.waMessageId < utf16 right.waMessageId then 1 else -1)
  else if left.instanceId = right.instanceId then 0
  else if utf16 left.instanceId < utf16 right.instanceId then 1 else -1

def sortsBefore (left right : MessageRow) : Prop := compareRows left right ≤ 0

instance : DecidableRel sortsBefore := fun left right => inferInstanceAs (Decidable (compareRows left right ≤ 0))

section
variable [Unicode] [Casing] [DateStrings]

/-- `textMatch` is what the text index makes of a term. -/
def searchMessages (textMatch : List Char → MessageDoc → Bool) (docs : List MessageDoc) (input : MessageSearchInput) :
    Except SearchError (List MessageRow) := do
  let limit := clampMessageLimit input.limit
  let filter ← messageFilter input
  let term := searchTerm input.query
  if term.isEmpty then return (findPage docs filter limit).map toMessageRow
  let byText := findPage docs (fun doc => filter doc && textMatch term doc) limit
  let byTypeahead := findPage docs (fun doc => filter doc && doc.textSearch.any (typeaheadMatches input.query)) limit
  return ((byIdentity ((byText ++ byTypeahead).map toMessageRow)).insertionSort sortsBefore).take limit

/-- One request of the listing routes: the page and the cursor of the next. -/
def listMessages (textMatch : List Char → MessageDoc → Bool) (docs : List MessageDoc) (input : MessageSearchInput) :
    Except SearchError (List MessageRow × Option String) := do
  let limit := clampMessageLimit input.limit
  let messages ← searchMessages textMatch docs { input with limit := some limit }
  return (messages, nextMessageCursor messages limit)

end

end GroupButler.Messages
