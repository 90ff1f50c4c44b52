import GroupButler.Tools.Calls

/-!
# The scope of a call

The rows of the chat's organisation and instance that belong to the chat itself or to a group assigned
and whitelisted now; for the two queue tools, the instance's queue as well. Two databases that agree on
these read alike through every query of the tools but one: the names of queued sends' groups.
-/

namespace GroupButler.Tools
open Foundation Store Sends Actions

def ownChat (context : ToolChatContext) (groupJid : String) : Bool :=
  groupJid == context.chatJid || context.groupJid == some groupJid

def chatScope (db : Database) (context : ToolChatContext) (groupJid : String) : Bool :=
  ownChat context groupJid || monitoredGroup db context groupJid

def groupScope (context : ToolChatContext) (row : StoredGroup) : Bool :=
  row.organizationId == context.organizationId && row.instanceId == context.instanceId &&
    (ownChat context row.groupJid || row.monitored)

def messageScope (db : Database) (context : ToolChatContext) (row : StoredMessage) : Bool :=
  row.organizationId == context.organizationId && row.instanceId == context.instanceId &&
    row.groupJid.any (chatScope db context)

def ToolCall.readsQueue : ToolCall → Bool
  | .group .scheduledSends _ | .group .cancelScheduled _ => true
  | _ => false

def sendScope (db : Database) (context : ToolChatContext) (call : ToolCall) (row : SendRow) : Bool :=
  row.organizationId == context.organizationId && row.instanceId == context.instanceId &&
    (call.readsQueue || chatScope db context row.groupJid)

/-- Two databases the call may not tell apart. A short id that is drawn is taken in both or in neither. -/
structure Agrees (surroundings : Surroundings) (context : ToolChatContext) (call : ToolCall) (db db' : Database) : Prop where
  groups : Agree (groupScope context) db.groups db'.groups
  messages : Agree (messageScope db context) db.messages db'.messages
  sends : Agree (sendScope db context call) db.sends.requests db'.sends.requests
  draws : ∀ n, shortIdTaken db context.organizationId (surroundings.shortIds n) =
    shortIdTaken db' context.organizationId (surroundings.shortIds n)

/-- A database the call can meet: its unique indexes hold, and the random ids the call draws are new. -/
structure Possible (surroundings : Surroundings) (context : ToolChatContext) (db : Database) : Prop extends Indexed db where
  action : ∀ row ∈ db.actions, row.id ≠ surroundings.actionId
  key : ∀ row ∈ db.sends.requests, row.keyed context.organizationId ("action:" ++ surroundings.actionId) = false

section
variable {surroundings : Surroundings} {context : ToolChatContext} {call : ToolCall} {db db' : Database}

/-! ### Groups -/

theorem groupScope_key {groupJid : String} {row : StoredGroup}
    (named : row.key = (context.organizationId, context.instanceId, groupJid)) :
    groupScope context row = (ownChat context groupJid || row.monitored) := by
  obtain ⟨organization, rest⟩ := Prod.mk.inj named
  obtain ⟨instance_, jid⟩ := Prod.mk.inj rest
  simp [groupScope, organization, instance_, jid]

theorem find?_groupScope {groupJid : String} (inScope : chatScope db context groupJid = true) :
    (db.groups.find? fun row => row.key == (context.organizationId, context.instanceId, groupJid)).filter (groupScope context) =
      db.groups.find? fun row => row.key == (context.organizationId, context.instanceId, groupJid) := by
  cases found : db.groups.find? fun row => row.key == (context.organizationId, context.instanceId, groupJid) with
  | none => rfl
  | some row =>
    have named : row.key = (context.organizationId, context.instanceId, groupJid) := by simpa using List.find?_some found
    have monitored : monitoredGroup db context groupJid = row.monitored := by rw [monitoredGroup, found]; rfl
    rw [chatScope, monitored] at inScope
    rw [Option.filter_some, groupScope_key named, if_pos inScope]

theorem monitoredGroup_eq (indexed : Indexed db) (indexed' : Indexed db')
    (agree : Agree (groupScope context) db.groups db'.groups) (groupJid : String) :
    monitoredGroup db context groupJid = monitoredGroup db' context groupJid := by
  have narrow (db : Database) : monitoredGroup db context groupJid =
      ((db.groups.find? fun row => row.key == (context.organizationId, context.instanceId, groupJid)).filter
        (groupScope context)).any StoredGroup.monitored := by
    rw [monitoredGroup]
    cases found : db.groups.find? fun row => row.key == (context.organizationId, context.instanceId, groupJid) with
    | none => rfl
    | some row =>
      have named : row.key = (context.organizationId, context.instanceId, groupJid) := by simpa using List.find?_some found
      rw [Option.filter_some, groupScope_key named]
      cases monitored : row.monitored <;> cases ownChat context groupJid <;> simp [monitored]
  rw [narrow db, narrow db', agree.find?_unique indexed.groups indexed'.groups]

theorem chatScope_eq (indexed : Indexed db) (indexed' : Indexed db')
    (agree : Agree (groupScope context) db.groups db'.groups) : chatScope db context = chatScope db' context := by
  funext groupJid
  rw [chatScope, chatScope, monitoredGroup_eq indexed indexed' agree]

theorem monitoredGroups_eq (agree : Agree (groupScope context) db.groups db'.groups) :
    monitoredGroups db context = monitoredGroups db' context := by
  refine agree.filter fun row inside => ?_
  simp only [Bool.and_eq_true] at inside
  simp [groupScope, inside]

theorem monitoredGroup_of_mem (indexed : Indexed db) {row : StoredGroup} (member : row ∈ monitoredGroups db context) :
    monitoredGroup db context row.groupJid = true := by
  obtain ⟨stored, inside⟩ := List.mem_filter.mp member
  simp only [Bool.and_eq_true, beq_iff_eq] at inside
  obtain ⟨⟨organization, instance_⟩, monitored⟩ := inside
  have named : row.key = (context.organizationId, context.instanceId, row.groupJid) := by
    rw [StoredGroup.key, organization, instance_]
  have found : (db.groups.find? fun other => other.key == (context.organizationId, context.instanceId, row.groupJid)) = some row := by
    rw [← named, ← List.head?_filter, filter_unique indexed.groups stored]
    rfl
  rw [monitoredGroup, found]
  exact monitored

/-- The name a queued send's group in scope is shown by. -/
theorem queuedName_eq [Ai.Normalization] (indexed : Indexed db) (indexed' : Indexed db')
    (agree : Agree (groupScope context) db.groups db'.groups) {groupJid : String} (inScope : chatScope db context groupJid = true) :
    queuedName db context groupJid = queuedName db' context groupJid := by
  have inScope' : chatScope db' context groupJid = true := by rwa [← chatScope_eq indexed indexed' agree]
  rw [queuedName, queuedName, ← find?_groupScope inScope, ← find?_groupScope inScope',
    agree.find?_unique indexed.groups indexed'.groups]

/-! ### Messages and sends -/

theorem groupMessages_eq (agree : Agree (messageScope db context) db.messages db'.messages) {groupJid : String}
    (inScope : chatScope db context groupJid = true) : groupMessages db context groupJid = groupMessages db' context groupJid := by
  refine agree.filter fun row inside => ?_
  simp only [Bool.and_eq_true, beq_iff_eq] at inside
  obtain ⟨⟨organization, instance_⟩, jid⟩ := inside
  simp [messageScope, organization, instance_, jid, inScope]

theorem sentRows_eq (agree : Agree (sendScope db context call) db.sends.requests db'.sends.requests) {groupJid : String}
    (inScope : chatScope db context groupJid = true) : sentRows db context groupJid = sentRows db' context groupJid := by
  refine agree.filter fun row inside => ?_
  simp only [Bool.and_eq_true, beq_iff_eq] at inside
  obtain ⟨⟨⟨organization, instance_⟩, jid⟩, -⟩ := inside
  simp [sendScope, organization, instance_, jid, inScope]

theorem queued_eq (agree : Agree (sendScope db context call) db.sends.requests db'.sends.requests)
    (queue : call.readsQueue = true) : queued db context = queued db' context := by
  rw [queued, queued, agree.filter]
  intro row inside
  simp only [Bool.and_eq_true] at inside
  simp [sendScope, inside, queue]

theorem ownSend_eq (indexed : Indexed db) (indexed' : Indexed db')
    (agree : Agree (sendScope db context call) db.sends.requests db'.sends.requests) (queue : call.readsQueue = true)
    (sendId : String) : ownSend db context sendId = ownSend db' context sendId := by
  have narrow (db : Database) (scope : SendRow → Bool)
      (same : ∀ row, row.name = (context.organizationId, sendId) → scope row = (row.instanceId == context.instanceId)) :
      ownSend db context sendId =
        (db.sends.requests.find? fun row => row.name == (context.organizationId, sendId)).filter scope := by
    have lookup : getSend db.sends context.organizationId sendId =
        db.sends.requests.find? fun row => row.name == (context.organizationId, sendId) := rfl
    rw [ownSend, lookup]
    cases found : db.sends.requests.find? fun row => row.name == (context.organizationId, sendId) with
    | none => rfl
    | some row =>
      have named : row.name = (context.organizationId, sendId) := by simpa using List.find?_some found
      rw [Option.filter_some, Option.filter_some, same row named]
  have same (row : SendRow) (named : row.name = (context.organizationId, sendId)) :
      sendScope db context call row = (row.instanceId == context.instanceId) := by
    obtain ⟨organization, -⟩ := Prod.mk.inj named
    simp [sendScope, organization, queue]
  rw [narrow db _ same, narrow db' _ same]
  exact agree.find?_unique indexed.sends indexed'.sends _

theorem scopedMessage_eq (indexed : Indexed db) (indexed' : Indexed db')
    (groups : Agree (groupScope context) db.groups db'.groups)
    (agree : Agree (messageScope db context) db.messages db'.messages) (usable : usableChatContext context = true)
    (waMessageId : String) : scopedMessage db context waMessageId = scopedMessage db' context waMessageId := by
  unfold scopedMessage
  cases kind : context.chatKind with
  | group =>
    cases own : context.groupJid with
    | none => rfl
    | some groupJid =>
      simp only [Option.bind_some]
      rw [monitoredGroup_eq indexed indexed' groups]
      congr 1
      refine agree.find? fun row inside => ?_
      simp only [Bool.and_eq_true, beq_iff_eq] at inside
      obtain ⟨named, jid⟩ := inside
      obtain ⟨organization, rest⟩ := Prod.mk.inj named
      obtain ⟨instance_, -⟩ := Prod.mk.inj rest
      simp [messageScope, organization, instance_, jid, chatScope, ownChat, own]
  | user =>
    have noGroup : context.groupJid = none := by
      simp only [usableChatContext, kind, Bool.and_eq_true] at usable
      simpa using usable.2
    have narrow (db : Database) (scope : StoredMessage → Bool)
        (same : ∀ row, row.key = (context.organizationId, context.instanceId, waMessageId) → scope row =
          row.groupJid.any fun groupJid => groupJid == context.chatJid || monitoredGroup db context groupJid) :
        ((db.messages.find? fun row => row.key == (context.organizationId, context.instanceId, waMessageId)).filter fun row =>
          row.groupJid.any fun groupJid => groupJid == context.chatJid || monitoredGroup db context groupJid) =
        (db.messages.find? fun row => row.key == (context.organizationId, context.instanceId, waMessageId)).filter scope := by
      cases found : db.messages.find? fun row => row.key == (context.organizationId, context.instanceId, waMessageId) with
      | none => rfl
      | some row =>
        have named : row.key = (context.organizationId, context.instanceId, waMessageId) := by simpa using List.find?_some found
        rw [Option.filter_some, Option.filter_some, same row named]
    have same (row : StoredMessage) (named : row.key = (context.organizationId, context.instanceId, waMessageId)) :
        messageScope db context row =
          row.groupJid.any fun groupJid => groupJid == context.chatJid || monitoredGroup db context groupJid := by
      obtain ⟨organization, rest⟩ := Prod.mk.inj named
      obtain ⟨instance_, -⟩ := Prod.mk.inj rest
      simp only [messageScope, organization, instance_, beq_self_eq_true, Bool.true_and]
      congr 1
      funext groupJid
      simp [chatScope, ownChat, noGroup]
    rw [narrow db _ same, narrow db' (messageScope db context)]
    · exact agree.find?_unique indexed.messages indexed'.messages _
    · intro row named
      rw [same row named]
      congr 1
      funext groupJid
      rw [monitoredGroup_eq indexed indexed' groups]

end

end GroupButler.Tools
