import GroupButler.Foundation.Json
import GroupButler.Ingest.Message
import GroupButler.Sends.Outbound
import Mathlib.Algebra.Group.Int.Defs

/-!
# The bridge's group list and what it makes of a stored group

`GET /groups` lists every group the account is in. Each row is merged into the stored observation of
its group.
-/

namespace GroupButler.Groups
open Foundation Store Ingest Sends

/-! ### The answer -/

structure BridgeGroupSummary where
  jid : String := ""
  subject : String := ""
  announce : Bool := false
  locked : Bool := false
  participantCount : Int := 0
  deriving DecidableEq, Repr

/-- Go matches the keys of an object without case, where `ſ` and `K` fold to letters. -/
def foldName (name : String) : String :=
  String.ofList (name.toList.map fun c => if c.toNat = 0x17F then 's' else if c.toNat = 0x212A then 'k' else c.toLower)

def decodeString (old : String) : Json → Option String
  | .str value => some value
  | .null => some old
  | _ => none

def decodeBool (old : Bool) : Json → Option Bool
  | .bool value => some value
  | .null => some old
  | _ => none

def decodeInt (old : Int) : Json → Option Int
  | .num value => if -(2 ^ 63) ≤ value ∧ value < 2 ^ 63 then some value else none
  | .null => some old
  | _ => none

/-- One key of a row. -/
def decodeSummaryField (row : BridgeGroupSummary) (field : String × Json) : Option BridgeGroupSummary :=
  let name := foldName field.1
  if name = "jid" then (decodeString row.jid field.2).map fun jid => { row with jid }
  else if name = "subject" then (decodeString row.subject field.2).map fun subject => { row with subject }
  else if name = "announce" then (decodeBool row.announce field.2).map fun announce => { row with announce }
  else if name = "locked" then (decodeBool row.locked field.2).map fun locked => { row with locked }
  else if name = "participantcount" then
    (decodeInt row.participantCount field.2).map fun participantCount => { row with participantCount }
  else some row

def decodeSummary : Json → Option BridgeGroupSummary
  | .obj fields => fields.foldlM decodeSummaryField {}
  | .null => some {}
  | _ => none

/-- A slice: `null` makes it nil. -/
def decodeSummaries : Json → Option (Option (List BridgeGroupSummary))
  | .arr items => (items.mapM decodeSummary).map some
  | .null => some none
  | _ => none

/-- `json.Unmarshal` into `{Groups []bridgeGroupSummary}`, with `none` for an error. The slice stays nil
where no key carries it. -/
def decodeGroups : Json → Option (Option (List BridgeGroupSummary))
  | .obj fields =>
    fields.foldlM (fun groups (key, value) => if foldName key = "groups" then decodeSummaries value else some groups) none
  | .null => some none
  | _ => none

inductive AnswerText where
  /-- Cut off, or past the size cap. -/
  | unreadable
  | blank
  | malformed
  | json (value : Json)

/-- How the call ends. -/
inductive GroupsAnswer where
  | noAnswer (timedOut : Bool)
  | answered (status : Nat) (body : AnswerText)

/-- `do`, up to the decoded answer. -/
def bridgeDo : GroupsAnswer → Except SendError (Option (List BridgeGroupSummary))
  | .noAnswer timedOut => .error (transportFailure timedOut)
  | .answered status body =>
    match body with
    | .unreadable => .error (.bridgeRefusal status)
    | body =>
      if status = 503 then .error .bridgeNotConnected
      else if status < 200 ∨ 299 < status then .error (.bridgeRefusal status)
      else
        match body with
        | .json value =>
          match decodeGroups value with
          | some groups => .ok groups
          | none => .error (.bridgeRefusal status)
        | _ => .error (.bridgeRefusal status)

/-- `Groups`: a nil slice is an empty one. -/
def bridgeGroups (answer : GroupsAnswer) : Except SendError (List BridgeGroupSummary) :=
  (bridgeDo answer).map fun groups => groups.getD []

/-! ### Observations -/

inductive GroupState where
  | unset | active | left | deleted | suspended
  deriving DecidableEq, Repr

inductive SubjectSource where
  | unset | sync | event | fallback
  deriving DecidableEq, Repr

inductive SyncSource where
  | unset | connect | timer | manual | event | message
  deriving DecidableEq, Repr

structure SubjectHistoryEntry where
  name : String
  moment : Time
  by_ : String
  deriving DecidableEq, Repr

structure GroupMember where
  jid : String
  phoneJid : String
  lid : String
  isAdmin : Bool
  isSuperAdmin : Bool
  displayName : String
  deriving DecidableEq, Repr

/-- `time.Time{}` -/
def zeroTime : Time := -62135596800000

structure Observed where
  subject : String := ""
  subjectSearch : String := ""
  subjectUpdatedAt : Time := zeroTime
  subjectObservedAt : Time := zeroTime
  subjectSetBy : String := ""
  subjectSetByLid : String := ""
  subjectSource : SubjectSource := .unset
  subjectHistory : List SubjectHistoryEntry := []
  topic : String := ""
  topicUpdatedAt : Time := zeroTime
  isAnnounce : Bool := false
  isLocked : Bool := false
  isEphemeral : Bool := false
  isDefaultSubGroup : Bool := false
  participantCount : Int := 0
  participantCountDirty : Bool := false
  members : List GroupMember := []
  groupCreatedAt : Time := zeroTime
  state : GroupState := .unset
  lastActivityAt : Time := zeroTime
  messageCount : Int := 0
  mediaStored : Int := 0
  lastSyncedAt : Time := zeroTime
  lastSyncSource : SyncSource := .unset
  leftDetectedAt : Time := zeroTime
  deriving DecidableEq, Repr

def subjectHistoryMax : Nat := 20

/-- Newest first, and capped. -/
def appendSubjectHistory (history : List SubjectHistoryEntry) (entry : SubjectHistoryEntry) : List SubjectHistoryEntry :=
  match history with
  | newest :: _ =>
    if newest.name = entry.name ∧ newest.moment = entry.moment then history else (entry :: history).take subjectHistoryMax
  | [] => [entry]

inductive SnapshotChange where
  | subject | state | participantCount | participantCountDirty | announce | locked
  deriving DecidableEq, Repr

section
variable [Unicode]

def observedFromSnapshot (snap : BridgeGroupSummary) (source : SyncSource) (moment : Time) : Observed where
  subject := snap.subject
  subjectSearch := foldText snap.subject
  subjectUpdatedAt := moment
  subjectObservedAt := moment
  subjectSource := if snap.subject = "" then .fallback else .sync
  isAnnounce := snap.announce
  isLocked := snap.locked
  participantCount := snap.participantCount
  state := .active
  lastSyncedAt := moment
  lastSyncSource := source

/-- The name: kept when it is unchanged, else moved into the ring. -/
def mergeSubject (cur snap : Observed) (moment : Time) : Observed × List SnapshotChange :=
  if snap.subject ≠ "" ∧ snap.subject ≠ cur.subject then
    ({ cur with
      subjectHistory := if cur.subject ≠ "" then
        appendSubjectHistory cur.subjectHistory ⟨cur.subject, cur.subjectUpdatedAt, cur.subjectSetBy⟩ else cur.subjectHistory
      subject := snap.subject
      subjectSearch := snap.subjectSearch
      subjectUpdatedAt := moment
      subjectObservedAt := moment
      subjectSetBy := ""
      subjectSetByLid := ""
      subjectSource := snap.subjectSource }, [.subject])
  else if snap.subject ≠ "" ∧ cur.subjectSource = .fallback then
    ({ cur with subjectSource := snap.subjectSource }, [.subject])
  else (cur, [])

/-- Folds one snapshot entry into the stored observation. -/
def mergeSnapshot (cur : Observed) (entry : BridgeGroupSummary) (source : SyncSource) (moment : Time) :
    Observed × List SnapshotChange :=
  let snap := observedFromSnapshot entry source moment
  let (named, changes) := mergeSubject cur snap moment
  ({ named with
    state := snap.state
    participantCount := snap.participantCount
    participantCountDirty := false
    isAnnounce := snap.isAnnounce
    isLocked := snap.isLocked
    lastSyncedAt := snap.lastSyncedAt
    lastSyncSource := snap.lastSyncSource },
    changes ++ (if snap.state ≠ cur.state then [.state] else []) ++
      (if snap.participantCount ≠ cur.participantCount then [.participantCount] else []) ++
      (if cur.participantCountDirty then [.participantCountDirty] else []) ++
      (if snap.isAnnounce ≠ cur.isAnnounce then [.announce] else []) ++
      (if snap.isLocked ≠ cur.isLocked then [.locked] else []))

@[simp] theorem mergeSnapshot_state (cur : Observed) (entry : BridgeGroupSummary) (source : SyncSource) (moment : Time) :
    (mergeSnapshot cur entry source moment).1.state = .active := rfl

end

end GroupButler.Groups
