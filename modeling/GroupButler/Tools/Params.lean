import GroupButler.Groups.Admin
import GroupButler.Foundation.IsoDate

/-!
# The write tools' parameters

A write tool parses its own fields of a call and stages what it read, or refuses the call.
-/

namespace GroupButler.Tools
open Foundation Store Actions Groups

namespace GroupToolLimits

def nameChars : Nat := 100
def membersMax : Nat := 1024
def dataUrlChars : Nat := 1400000
def labelChars : Nat := 256
def sendTextChars : Nat := 4000
def sendAheadMs : Int := 31 * 24 * 60 * 60 * 1000

end GroupToolLimits

inductive StagedGroupWriteToolName where
  | groupRename | groupSetAnnounce | groupSetLocked | groupSetPhoto | groupMembers | groupLeave | messageRevoke | groupSend
  deriving DecidableEq, Repr

def StagedGroupWriteToolName.name : StagedGroupWriteToolName → String
  | .groupRename => "group_rename"
  | .groupSetAnnounce => "group_set_announce"
  | .groupSetLocked => "group_set_locked"
  | .groupSetPhoto => "group_set_photo"
  | .groupMembers => "group_members"
  | .groupLeave => "group_leave"
  | .messageRevoke => "message_revoke"
  | .groupSend => "group_send"

/-! ### The schemas -/

/-- `.max(n)` on a string counts code units. -/
def atMost (max : Nat) (s : String) : Option String := if (utf16 s).length ≤ max then some s else none

/-- `z.string().trim().min(1).max(max)` -/
def bounded (max : Nat) (value : Json) : Option String := (trimmed value).bind (atMost max)

/-- `NAME_PARAMS` -/
def nameParams (input : Json) : Option String := (input.field "name").bind (bounded GroupToolLimits.nameChars)

/-- `ANNOUNCE_PARAMS` -/
def announceParams (input : Json) : Option Bool := (input.field "announce").bind flag

/-- `LOCKED_PARAMS` -/
def lockedParams (input : Json) : Option Bool := (input.field "locked").bind flag

/-- `PHOTO_PARAMS` -/
def photoParams (input : Json) : Option String := (input.field "dataUrl").bind (bounded GroupToolLimits.dataUrlChars)

/-- `MEMBERS_PARAMS` -/
def membersParams (input : Json) : Option (Membership × List String) :=
  (input.field "membership").bind fun value => (membership value).bind fun membership =>
    ((input.field "jids").bind memberJids).bind fun jids =>
      if jids.length ≤ GroupToolLimits.membersMax then some (membership, jids) else none

/-- `LEAVE_PARAMS` -/
def leaveParams (input : Json) : Option String := (input.field "reason").bind (bounded GroupToolLimits.labelChars)

/-- `REVOKE_PARAMS` -/
def revokeParams (input : Json) : Option String := (input.field "waMessageId").bind trimmed

/-- `SEND_PARAMS`: the text, and `sendAt` where the call has one. -/
def sendParams (input : Json) : Option (String × Option String) :=
  ((input.field "text").bind (bounded GroupToolLimits.sendTextChars)).bind fun text =>
    match input.field "sendAt" with
    | none => some (text, none)
    | some sendAt => (trimmed sendAt).map fun sendAt => (text, some sendAt)

/-! ### Staging -/

structure Staged where
  params : Json
  summary : String

/-- `MEMBERSHIP_SUMMARY` -/
def membershipSummary (membership : Membership) (count : Nat) : String :=
  let members := if count = 1 then "member" else "members"
  match membership with
  | .add => "Add " ++ toString count ++ " " ++ members ++ " to the group."
  | .remove => "Remove " ++ toString count ++ " " ++ members ++ " from the group."
  | .promote => "Promote " ++ toString count ++ " " ++ members ++ " to admin."
  | .demote => "Demote " ++ toString count ++ " " ++ members ++ " from admin."

/-- A time the caller got wrong is refused: unparseable, past, or too far ahead. -/
def dueAt [DateStrings] (now : Time) (sendAt : String) : Option Time :=
  (readDate sendAt).bind fun due =>
    if due - now ≤ 0 ∨ GroupToolLimits.sendAheadMs < due - now then none else some due

def stageSend [DateStrings] (now : Time) (input : Json) : Option Staged :=
  (sendParams input).bind fun (text, sendAt) =>
    match sendAt with
    | none => some ⟨.obj [("text", .str text)], "Send this message to the group: " ++ text⟩
    | some sendAt => (dueAt now sendAt).map fun due =>
      ⟨.obj [("text", .str text), ("scheduledFor", .str (toISOString due))],
        "Send this message to the group at " ++ toISOString due ++ ": " ++ text⟩

/-- `WRITE_TOOLS[name].stage`, where `now` is the clock at the call. -/
def stage [DateStrings] (now : Time) (tool : StagedGroupWriteToolName) (input : Json) : Option Staged :=
  match tool with
  | .groupRename => (nameParams input).map fun name => ⟨.obj [("name", .str name)], "Rename the group to " ++ name ++ "."⟩
  | .groupSetAnnounce => (announceParams input).map fun announce =>
    ⟨.obj [("announce", .bool announce)],
      if announce then "Only admins may post in this group." else "Everyone may post in this group."⟩
  | .groupSetLocked => (lockedParams input).map fun locked =>
    ⟨.obj [("locked", .bool locked)],
      if locked then "Only admins may edit this group's info." else "Everyone may edit this group's info."⟩
  | .groupSetPhoto => (photoParams input).map fun dataUrl => ⟨.obj [("dataUrl", .str dataUrl)], "Change the group photo."⟩
  | .groupMembers => (membersParams input).map fun (membership, jids) =>
    ⟨.obj [("membership", .str (membershipWord membership)), ("jids", .arr (jids.map .str))], membershipSummary membership jids.length⟩
  | .groupLeave => (leaveParams input).map fun reason =>
    ⟨.obj [("reason", .str reason)], "Leave the group. Reason given: " ++ reason⟩
  | .messageRevoke => (revokeParams input).map fun waMessageId =>
    ⟨.obj [("waMessageId", .str waMessageId)], "Revoke the message " ++ waMessageId ++ "."⟩
  | .groupSend => stageSend now input

/-! ### What a schema lets through -/

theorem trimmed_eq_some {value : Json} {s : String} (read : trimmed value = some s) :
    ∃ raw, value = .str raw ∧ s = jsTrim raw ∧ s ≠ "" := by
  cases value with
  | str raw =>
    rw [trimmed] at read
    split at read
    · cases read
    · rename_i some_
      obtain rfl := Option.some.inj read
      exact ⟨raw, rfl, rfl, some_⟩
  | _ => cases read

theorem trimmed_str {value : Json} {s : String} (read : trimmed value = some s) : trimmed (.str s) = some s := by
  obtain ⟨raw, -, rfl, some_⟩ := trimmed_eq_some read
  have same : jsTrim (jsTrim raw) = jsTrim raw := trimChars_trimChars isJsSpace raw
  rw [trimmed, same, if_neg some_]

theorem bounded_eq_some {max : Nat} {value : Json} {s : String} (read : bounded max value = some s) :
    trimmed value = some s ∧ (utf16 s).length ≤ max := by
  obtain ⟨t, once, within⟩ := Option.bind_eq_some_iff.mp read
  rw [atMost] at within
  split at within
  · obtain rfl := Option.some.inj within
    exact ⟨once, by assumption⟩
  · cases within

end GroupButler.Tools
