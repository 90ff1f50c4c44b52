import GroupButler.Tools.Scope
import GroupButler.Tools.Writes
import Mathlib.Data.List.Infix

/-!
# Confinement

A call answers alike over databases that agree on its scope, and in a group job whose group is not
monitored it is refused and changes nothing. The two queue tools do not look at the job's group, and the
listing shows the name of any group a send is queued for.
-/

namespace GroupButler.Tools
open Foundation Store Sends Actions Ai

section
variable [Runtime] [Normalization] {surroundings : Surroundings} {context : ToolChatContext} {call : ToolCall}
  {db db' : Database} {input : Json}

/-! ### The group a call resolves -/

theorem resolved_monitored (indexed : Indexed db) {reference groupJid : String}
    (resolved : resolveMonitoredGroup db context reference = some groupJid) : monitoredGroup db context groupJid = true := by
  unfold resolveMonitoredGroup at resolved
  dsimp only at resolved
  split at resolved
  · split at resolved
    · obtain rfl := Option.some.inj resolved
      assumption
    · cases resolved
  · split at resolved
    · cases resolved
    · split at resolved
      · rename_i row named
        obtain rfl := Option.some.inj resolved
        have member : row ∈ monitoredGroups db context := by
          have listed : row ∈ [row] := List.mem_singleton_self row
          rw [← named] at listed
          exact List.mem_of_mem_filter listed
        exact monitoredGroup_of_mem indexed member
      · cases resolved

theorem scopedGroup_monitored (indexed : Indexed db) {groupJid : String}
    (resolved : scopedGroup db context input = some groupJid) : monitoredGroup db context groupJid = true := by
  unfold scopedGroup at resolved
  split at resolved
  · cases resolved
  · split at resolved
    · exact (Option.filter_eq_some_iff.mp resolved).2
    · split at resolved
      · cases resolved
      · split at resolved
        · cases resolved
        · exact resolved_monitored indexed resolved

theorem scopedGroup_eq (indexed : Indexed db) (indexed' : Indexed db')
    (agree : Agree (groupScope context) db.groups db'.groups) (input : Json) :
    scopedGroup db context input = scopedGroup db' context input := by
  have monitored : monitoredGroup db context = monitoredGroup db' context := funext (monitoredGroup_eq indexed indexed' agree)
  unfold scopedGroup resolveMonitoredGroup
  rw [monitored, monitoredGroups_eq agree]

/-- In a group job the group is the job's own, and has to be monitored. -/
theorem scopedGroup_refused (kind : context.chatKind = .group)
    (unmonitored : context.groupJid.any (monitoredGroup db context) = false) (input : Json) :
    scopedGroup db context input = none := by
  unfold scopedGroup
  split
  · rfl
  · rw [kind]
    cases own : context.groupJid with
    | none => rfl
    | some groupJid =>
      rw [own] at unmonitored
      exact (Option.filter_some).trans (if_neg (by simpa using unmonitored))

/-! ### Each family -/

omit [Normalization] in
theorem runMediaTool_eq (indexed : Indexed db) (indexed' : Indexed db') (agrees : Agrees surroundings context call db db')
    (reader : MediaReader) (name : MediaToolName) (input : MediaToolInput) :
    runMediaTool reader db context name input = runMediaTool reader db' context name input := by
  have loaded : loadScopedMedia db context input.bounded = loadScopedMedia db' context input.bounded := by
    unfold loadScopedMedia
    cases usable : usableChatContext context with
    | false => rfl
    | true => rw [scopedMessage_eq indexed indexed' agrees.groups agrees.messages usable]
  rw [runMediaTool, runMediaTool, loaded]

omit [Normalization] in
theorem runMediaTool_refused (kind : context.chatKind = .group)
    (unmonitored : context.groupJid.any (monitoredGroup db context) = false) (reader : MediaReader) (name : MediaToolName)
    (input : MediaToolInput) : runMediaTool reader db context name input = .notAvailable := by
  have unread : scopedMessage db context input.waMessageId = none := by
    unfold scopedMessage
    rw [kind]
    cases own : context.groupJid with
    | none => rfl
    | some groupJid =>
      rw [own] at unmonitored
      exact if_neg (by simpa using unmonitored)
  have unloaded : loadScopedMedia db context input.bounded = none := by
    unfold loadScopedMedia
    split
    · exact Option.map_eq_none_iff.mpr unread
    · rfl
  rw [runMediaTool, unloaded]

omit [Runtime] in
theorem readGroup_eq (agrees : Agrees surroundings context call db db') {groupJid : String}
    (inScope : chatScope db context groupJid = true) (participants addresses : Bool) :
    readGroup surroundings db context groupJid participants addresses =
      readGroup surroundings db' context groupJid participants addresses := by
  have names : knownNames db context groupJid = knownNames db' context groupJid := by
    rw [knownNames, knownNames, groupMessages_eq agrees.messages inScope]
  rw [readGroup, readGroup, names]

theorem readGroupMessages_eq (agrees : Agrees surroundings context call db db') {groupJid : String}
    (inScope : chatScope db context groupJid = true) (now : Time) (addresses : Bool) :
    readGroupMessages now db context groupJid input addresses = readGroupMessages now db' context groupJid input addresses := by
  rw [readGroupMessages, readGroupMessages, groupMessages_eq agrees.messages inScope, sentRows_eq agrees.sends inScope]

omit [Runtime] in
theorem listMonitoredGroups_eq (indexed : Indexed db) (indexed' : Indexed db') (agrees : Agrees surroundings context call db db')
    (addresses : Bool) : listMonitoredGroups db context addresses = listMonitoredGroups db' context addresses := by
  have monitored : monitoredGroup db context = monitoredGroup db' context :=
    funext (monitoredGroup_eq indexed indexed' agrees.groups)
  rw [listMonitoredGroups, listMonitoredGroups, monitored, monitoredGroups_eq agrees.groups]

omit [Runtime] in
/-- A cancellation that names a send of the instance. -/
theorem cancelScheduledSend_answer (indexed : Indexed db) (usable : usableChatContext context = true) {sendId : String}
    (named : cancelParams input = some sendId) {send : SendRow} (own : ownSend db context sendId = some send) :
    (cancelScheduledSend surroundings db context input).2 =
      if SendAction.cancel.allowed send then
        cancelledAnswer send.text (send.transition .cancel (surroundings.clock 0)) sendId
      else actionFailed nothingToCancel := by
  have found : getSend db.sends context.organizationId sendId = some send := (Option.filter_eq_some_iff.mp own).1
  have lookup : db.sends.requests.find? (SendRow.named context.organizationId sendId) = some send := found
  have sendNamed := List.find?_some lookup
  have member := List.mem_of_find?_eq_some lookup
  have names : ∀ row ∈ db.sends.requests, (row.named context.organizationId sendId && SendAction.cancel.allowed row) = true →
      row.name = (context.organizationId, sendId) := by
    intro row _ matched
    exact named_iff.mp (Bool.and_eq_true_iff.mp matched).1
  simp only [cancelScheduledSend, usable, Bool.not_true, Bool.false_eq_true, if_false, named, own, transitionSend]
  cases allowed : SendAction.cancel.allowed send with
  | true =>
    have some_ : (db.sends.requests.any fun row => row.named context.organizationId sendId && SendAction.cancel.allowed row) = true :=
      List.any_eq_true.mpr ⟨send, member, by rw [sendNamed, allowed]; rfl⟩
    have after : (updateOne (fun row => row.named context.organizationId sendId && SendAction.cancel.allowed row)
        (SendRow.transition .cancel (surroundings.clock 0)) db.sends.requests).find? (SendRow.named context.organizationId sendId) =
          some (send.transition .cancel (surroundings.clock 0)) := by
      have keep : ∀ row : SendRow, (row.named context.organizationId sendId && SendAction.cancel.allowed row) = true →
          (row.transition .cancel (surroundings.clock 0)).named context.organizationId sendId =
            row.named context.organizationId sendId := fun _ _ => rfl
      rw [find?_updateOne indexed.sends names keep, lookup, Option.map_some, sendNamed, allowed]
      rfl
    simp only [some_, if_true, getSend, after]
  | false =>
    have none_ : (db.sends.requests.any fun row => row.named context.organizationId sendId && SendAction.cancel.allowed row) = false := by
      rw [List.any_eq_false]
      intro row present matched
      obtain ⟨rowNamed, rowAllowed⟩ := Bool.and_eq_true_iff.mp matched
      obtain rfl : row = send := List.inj_on_of_nodup_map indexed.sends present member
        ((named_iff.mp rowNamed).trans (named_iff.mp sendNamed).symm)
      rw [allowed] at rowAllowed
      cases rowAllowed
    simp only [none_, Bool.false_eq_true, if_false]

omit [Runtime] in
theorem cancelScheduledSend_none (unnamed : ∀ sendId, cancelParams input = some sendId → ownSend db context sendId = none) :
    cancelScheduledSend surroundings db context input = (db, notAvailable) := by
  unfold cancelScheduledSend
  split
  · rfl
  · split
    · rfl
    · rename_i sendId named
      rw [unnamed sendId named]

omit [Runtime] in
theorem cancelScheduledSend_eq (indexed : Indexed db) (indexed' : Indexed db') (usable : usableChatContext context = true)
    (agree : Agree (sendScope db context call) db.sends.requests db'.sends.requests) (queue : call.readsQueue = true) :
    (cancelScheduledSend surroundings db context input).2 = (cancelScheduledSend surroundings db' context input).2 := by
  have same := ownSend_eq indexed indexed' agree queue
  by_cases unnamed : ∀ sendId, cancelParams input = some sendId → ownSend db context sendId = none
  · rw [cancelScheduledSend_none unnamed, cancelScheduledSend_none fun sendId named => (same sendId).symm.trans (unnamed sendId named)]
  · push Not at unnamed
    obtain ⟨sendId, named, some_⟩ := unnamed
    obtain ⟨send, own⟩ := Option.ne_none_iff_exists'.mp some_
    rw [cancelScheduledSend_answer indexed usable named own,
      cancelScheduledSend_answer indexed' usable named ((same sendId).symm.trans own)]

section
variable [Datetimes] [DateStrings]

omit [Runtime] [Normalization] [Datetimes] [DateStrings] in
theorem drawShortId_eq (agrees : Agrees surroundings context call db db') :
    drawShortId surroundings db context.organizationId = drawShortId surroundings db' context.organizationId := by
  unfold drawShortId
  induction (List.range shortIdAttempts) with
  | nil => rfl
  | cons n ns ih => rw [List.map_cons, List.find?_cons, List.find?_cons, agrees.draws n, ih]

omit [Runtime] [Normalization] in
/-- What a staging call answers, where it draws a short id. -/
theorem stageGroupAction_answer (possible : Possible surroundings context db) {groupJid : String}
    {name : StagedGroupWriteToolName} {staged : Staged} (read : stage (surroundings.clock 0) name input = some staged)
    {shortId : String} (drawn : drawShortId surroundings db context.organizationId = some shortId) :
    (stageGroupAction surroundings db context groupJid name input).2 = performedAnswer surroundings name
      (stagedRow (stageInput context groupJid name staged) surroundings.actionId shortId (surroundings.clock 1)) := by
  have free : shortIdTaken db context.organizationId shortId = false := by simpa using List.find?_some drawn
  rw [shortIdTaken] at free
  simp only [stageGroupAction, read, drawn]
  have inserted : (stageAction db.actionDb (stageInput context groupJid name staged) surroundings.actionId shortId
      (surroundings.clock 1)).actions =
        db.actions ++ [stagedRow (stageInput context groupJid name staged) surroundings.actionId shortId (surroundings.clock 1)] := by
    simp [stageAction, Database.actionDb, stageInput, free]
  exact perform_last inserted possible.action rfl rfl rfl rfl possible.key

omit [Runtime] [Normalization] in
theorem stageGroupAction_eq (possible : Possible surroundings context db) (possible' : Possible surroundings context db')
    (agrees : Agrees surroundings context call db db') (groupJid : String) (name : StagedGroupWriteToolName) :
    (stageGroupAction surroundings db context groupJid name input).2 =
      (stageGroupAction surroundings db' context groupJid name input).2 := by
  cases read : stage (surroundings.clock 0) name input with
  | none => simp [stageGroupAction, read]
  | some staged =>
    cases drawn : drawShortId surroundings db context.organizationId with
    | none => simp [stageGroupAction, read, drawn, ← drawShortId_eq agrees]
    | some shortId =>
      rw [stageGroupAction_answer possible read drawn,
        stageGroupAction_answer possible' read ((drawShortId_eq agrees).symm.trans drawn)]

end

/-! ### The names of queued sends' groups -/

theorem queuedAnswer_names {rows : List SendRow} {name name' : String → String}
    (same : queuedAnswer rows false name = queuedAnswer rows false name') {row : SendRow} (member : row ∈ rows) :
    name row.groupJid = name' row.groupJid := by
  have entries : rows.map (queuedEntry false name) = rows.map (queuedEntry false name') := by
    have sends := congrArg (fun answer : Json => answer.field "sends") same
    exact Json.arr.inj (Option.some.inj sends)
  have entry := List.map_eq_map_iff.mp entries row member
  have group := congrArg (fun entry : Json => entry.field "group") entry
  exact Json.str.inj (Option.some.inj group)

theorem queuedAnswer_addresses (rows : List SendRow) (name name' : String → String) :
    queuedAnswer rows true name = queuedAnswer rows true name' := rfl

omit [Runtime] in
theorem shown_a : (clipJson (normalizeUntrustedText "a") GroupToolLimits.labelChars).value = "a" := by
  have plain : Normalization.nfc "a" = "a" := Normalization.nfc_ascii "a" (forall_mem_of_all (by decide))
  rw [normalizeUntrustedText, plain]
  decide

omit [Runtime] in
theorem shown_empty : (clipJson (normalizeUntrustedText "") GroupToolLimits.labelChars).value = "" := by
  have plain : Normalization.nfc "" = "" := Normalization.nfc_ascii "" (by simp)
  rw [normalizeUntrustedText, plain]
  decide

/-- The database with the groups outside the scope replaced by one, called `subject`. -/
def renamed (db : Database) (context : ToolChatContext) (groupJid subject : String) : Database :=
  { db with groups := db.groups.filter (groupScope context) ++
      [⟨context.organizationId, context.instanceId, groupJid, some subject, false, false⟩] }

omit [Runtime] [Normalization] in
theorem absent_outside (indexed : Indexed db) {groupJid : String} (outside : chatScope db context groupJid = false) :
    ∀ row ∈ db.groups.filter (groupScope context), row.key ≠ (context.organizationId, context.instanceId, groupJid) := by
  intro row member named
  obtain ⟨stored, inside⟩ := List.mem_filter.mp member
  have found : (db.groups.find? fun other => other.key == (context.organizationId, context.instanceId, groupJid)) = some row := by
    rw [← named, ← List.head?_filter, filter_unique indexed.groups stored]
    rfl
  have monitored : monitoredGroup db context groupJid = row.monitored := by rw [monitoredGroup, found]; rfl
  rw [groupScope_key named, ← monitored] at inside
  rw [chatScope, inside] at outside
  cases outside

omit [Runtime] in
theorem queuedName_renamed (indexed : Indexed db) {groupJid : String} (outside : chatScope db context groupJid = false)
    (subject : String) : queuedName (renamed db context groupJid subject) context groupJid =
      (clipJson (normalizeUntrustedText subject) GroupToolLimits.labelChars).value := by
  have none : (db.groups.filter (groupScope context)).find? (fun row =>
      row.key == (context.organizationId, context.instanceId, groupJid)) = none :=
    List.find?_eq_none.mpr fun row member => by simpa using absent_outside indexed outside row member
  rw [queuedName, renamed, List.find?_append, none]
  simp [StoredGroup.key]

omit [Runtime] [Normalization] in
theorem renamed_possible (possible : Possible surroundings context db) {groupJid : String}
    (outside : chatScope db context groupJid = false) (subject : String) :
    Possible surroundings context (renamed db context groupJid subject) where
  groups := by
    rw [renamed, List.map_append, List.map_singleton]
    refine List.nodup_append.mpr ⟨possible.groups.sublist ((List.filter_sublist).map _), by simp, ?_⟩
    intro key member new isNew same
    obtain ⟨row, inside, rfl⟩ := List.mem_map.mp member
    obtain rfl := List.mem_singleton.mp isNew
    exact absent_outside possible.toIndexed outside row inside same
  messages := possible.messages
  sends := possible.sends
  action := possible.action
  key := possible.key

omit [Runtime] [Normalization] in
theorem renamed_agrees {groupJid : String} (outside : chatScope db context groupJid = false)
    (subject : String) : Agrees surroundings context call db (renamed db context groupJid subject) where
  groups := by
    apply agree_outside
    rw [groupScope_key rfl]
    rw [chatScope, Bool.or_eq_false_iff] at outside
    simp [outside.1, StoredGroup.monitored]
  messages := rfl
  sends := rfl
  draws _ := rfl

/-! ### The result -/

/-- The call answers alike over every database that agrees with this one on its scope, and in a group job
whose group is not monitored it is refused and leaves everything as it was. -/
def Confined [Datetimes] [DateStrings] (surroundings : Surroundings) (db : Database) (context : ToolChatContext)
    (call : ToolCall) : Prop :=
  (∀ db', Possible surroundings context db' → Agrees surroundings context call db db' →
    (runTool surroundings db' context call).2 = (runTool surroundings db context call).2) ∧
  (context.chatKind = .group → context.groupJid.any (monitoredGroup db context) = false →
    runTool surroundings db context call = (db, call.refusal))

/-- What the two queue tools rely on and do not check. -/
def Confining (db : Database) (context : ToolChatContext) : ToolCall → Prop
  | .group .scheduledSends input =>
    (context.chatKind = .group → context.groupJid.any (monitoredGroup db context) = true) ∧
      (includeAddresses input = true ∨ ∀ row ∈ queued db context, chatScope db context row.groupJid = true)
  | .group .cancelScheduled input =>
    context.chatKind = .group → context.groupJid.any (monitoredGroup db context) = true ∨
      ∀ sendId, cancelParams input = some sendId → ownSend db context sendId = none
  | _ => True

section
variable [Datetimes] [DateStrings]

omit [Runtime] [Normalization] [Datetimes] [DateStrings] in
theorem elim_eq {α : Type} {resolved resolved' : Option String} (same : resolved = resolved') {refused : α}
    {read read' : String → α} (inside : ∀ groupJid, resolved = some groupJid → read groupJid = read' groupJid) :
    resolved.elim refused read = resolved'.elim refused read' := by
  subst same
  cases found : resolved with
  | none => rfl
  | some groupJid => exact inside groupJid found

/-- Everything but the queue tools: a call resolves its group first. -/
theorem confined_scoped (possible : Possible surroundings context db) {name : GroupToolName}
    (one : name = .groupInfo ∨ name = .groupParticipants ∨ name = .groupMessages ∨ ∃ write, name = .staged write) :
    Confined surroundings db context (.group name input) := by
  constructor
  · intro db' possible' agrees
    have resolved := scopedGroup_eq possible.toIndexed possible'.toIndexed agrees.groups input
    have inScope {groupJid : String} (found : scopedGroup db context input = some groupJid) :
        chatScope db context groupJid = true := by
      rw [chatScope, scopedGroup_monitored possible.toIndexed found, Bool.or_true]
    refine congrArg ToolResult.group ?_
    rcases one with rfl | rfl | rfl | ⟨write, rfl⟩
    · exact (elim_eq resolved fun _ found => readGroup_eq agrees (inScope found) false _).symm
    · exact (elim_eq resolved fun _ found => readGroup_eq agrees (inScope found) true _).symm
    · exact (elim_eq resolved fun _ found => readGroupMessages_eq agrees (inScope found) _ _).symm
    · have staged (db : Database) : (runGroupTool surroundings db context (.staged write) input).2 =
          (scopedGroup db context input).elim notAvailable fun groupJid =>
            (stageGroupAction surroundings db context groupJid write input).2 := by
        rw [runGroupTool]
        cases scopedGroup db context input <;> rfl
      show (runGroupTool surroundings db' context (.staged write) input).2 = (runGroupTool surroundings db context (.staged write) input).2
      rw [staged db, staged db']
      exact (elim_eq resolved fun groupJid _ => stageGroupAction_eq possible possible' agrees groupJid write).symm
  · intro kind unmonitored
    have refused := scopedGroup_refused kind unmonitored input
    rcases one with rfl | rfl | rfl | ⟨write, rfl⟩ <;> simp only [runTool, runGroupTool, refused] <;> rfl

theorem confined_iff (possible : Possible surroundings context db) (usable : usableChatContext context = true) :
    Confined surroundings db context call ↔ Confining db context call := by
  match call with
  | .media name input =>
    refine iff_of_true ⟨?_, ?_⟩ trivial
    · intro db' possible' agrees
      exact congrArg ToolResult.media
        (runMediaTool_eq possible.toIndexed possible'.toIndexed agrees surroundings.reader name input).symm
    · intro kind unmonitored
      rw [runTool, runMediaTool_refused kind unmonitored]
      rfl
  | .group .groupInfo input => exact iff_of_true (confined_scoped possible (Or.inl rfl)) trivial
  | .group .groupParticipants input => exact iff_of_true (confined_scoped possible (Or.inr (Or.inl rfl))) trivial
  | .group .groupMessages input => exact iff_of_true (confined_scoped possible (Or.inr (Or.inr (Or.inl rfl)))) trivial
  | .group (.staged write) input =>
    exact iff_of_true (confined_scoped possible (Or.inr (Or.inr (Or.inr ⟨write, rfl⟩)))) trivial
  | .group .monitoredGroups input =>
    refine iff_of_true ⟨?_, ?_⟩ trivial
    · intro db' possible' agrees
      exact congrArg ToolResult.group (listMonitoredGroups_eq possible.toIndexed possible'.toIndexed agrees _).symm
    · intro kind unmonitored
      have refused : listMonitoredGroups db context (includeAddresses input) = notAvailable := by
        rw [listMonitoredGroups, usable]
        simp [kind, unmonitored]
      simp only [runTool, runGroupTool, refused]
      rfl
  | .group .scheduledSends input =>
    have listed (db : Database) : listScheduledSends db context (includeAddresses input) =
        queuedAnswer (queued db context) (includeAddresses input) (queuedName db context) := by
      rw [listScheduledSends, usable]
      rfl
    constructor
    · rintro ⟨alike, refused⟩
      refine ⟨fun kind => ?_, ?_⟩
      · by_contra unmonitored
        have answer := congrArg Prod.snd (refused kind (by simpa using unmonitored))
        simp only [runTool, runGroupTool, listed, ToolCall.refusal, ToolResult.group.injEq] at answer
        have ok := congrArg (fun answer : Json => answer.field "ok") answer
        cases Json.bool.inj (Option.some.inj ok)
      · by_contra neither
        push Not at neither
        obtain ⟨names, row, member, outside⟩ := neither
        have outside : chatScope db context row.groupJid = false := by simpa using outside
        have hidden : includeAddresses input = false := by simpa using names
        -- two databases that call the group differently
        have shown (subject : String) : queuedName db context row.groupJid =
            (clipJson (normalizeUntrustedText subject) GroupToolLimits.labelChars).value := by
          have same : listScheduledSends (renamed db context row.groupJid subject) context (includeAddresses input) =
              listScheduledSends db context (includeAddresses input) :=
            ToolResult.group.inj (alike _ (renamed_possible possible outside subject) (renamed_agrees outside subject))
          rw [listed, listed, hidden] at same
          rw [← queuedName_renamed possible.toIndexed outside subject]
          exact (queuedAnswer_names same member).symm
        have clash := (shown "a").symm.trans (shown "")
        rw [shown_a, shown_empty] at clash
        exact absurd clash (by decide)
    · rintro ⟨monitored, names⟩
      refine ⟨?_, fun kind unmonitored => ?_⟩
      · intro db' possible' agrees
        refine congrArg ToolResult.group ?_
        show listScheduledSends db' context (includeAddresses input) = listScheduledSends db context (includeAddresses input)
        rw [listed, listed, ← queued_eq agrees.sends rfl]
        rcases names with addresses | inScope
        · rw [addresses]
          exact queuedAnswer_addresses _ _ _
        · have entries : (queued db context).map (queuedEntry (includeAddresses input) (queuedName db' context)) =
              (queued db context).map (queuedEntry (includeAddresses input) (queuedName db context)) := by
            refine List.map_congr_left fun row member => ?_
            rw [queuedEntry, queuedEntry,
              queuedName_eq possible.toIndexed possible'.toIndexed agrees.groups (inScope row member)]
          rw [queuedAnswer, queuedAnswer, entries]
      · rw [monitored kind] at unmonitored
        cases unmonitored
  | .group .cancelScheduled input =>
    constructor
    · rintro ⟨-, refused⟩ kind
      by_contra neither
      push Not at neither
      obtain ⟨unmonitored, sendId, named, some_⟩ := neither
      obtain ⟨send, own⟩ := Option.ne_none_iff_exists'.mp some_
      have answer := congrArg Prod.snd (refused kind (by simpa using unmonitored))
      simp only [runTool, runGroupTool, ToolCall.refusal, ToolResult.group.injEq] at answer
      rw [cancelScheduledSend_answer possible.toIndexed usable named own] at answer
      have code := congrArg (fun answer : Json => answer.field "code") answer
      split at code
      · cases code
      · exact absurd (Json.str.inj (Option.some.inj code)) (by decide)
    · intro condition
      refine ⟨?_, fun kind unmonitored => ?_⟩
      · intro db' possible' agrees
        exact congrArg ToolResult.group
          (cancelScheduledSend_eq possible.toIndexed possible'.toIndexed usable agrees.sends rfl).symm
      · rcases condition kind with monitored | unnamed
        · rw [monitored] at unmonitored
          cases unmonitored
        · simp only [runTool, runGroupTool, cancelScheduledSend_none unnamed]
          rfl

end

end

/-! ### A job whose group is not monitored -/

@[reducible] def asciiRuntime : Runtime where
  toLowerCase s := s.toLower
  toLocaleLowerCase s := s.toLower
  toZonedIso := toISOString
  occursIn literal text := decide (literal <:+: text.toList)

@[reducible] def asciiNormalization : Normalization := ⟨id, fun _ _ => rfl⟩

def unreachable : Failure := ⟨502, "worker_unreachable", "the WhatsApp service could not be reached"⟩

def idleSurroundings : Surroundings where
  info _ _ := .error unreachable
  participants _ _ := .error unreachable
  runAction _ _ _ := .error unreachable
  reader := ⟨fun _ _ _ => none, fun _ _ _ _ => none⟩
  clock n := n
  actionId := "a2"
  shortIds n := toString n
  sendId := "s2"
  objectId := 2

/-- One message queued for a group the instance does not monitor. -/
def queuedElsewhere : Database where
  groups := []
  messages := []
  sends := ⟨[candidateSend 1 "s1" ⟨"org", "inst", "other@g.us", "see you at nine", "key", "internal", some ⟨.owner, some 9⟩⟩ 0], []⟩
  actions := []

def unassignedJob : ToolChatContext := ⟨"org", "inst", .group, "own@g.us", some "own@g.us", ["62811@s.whatsapp.net"]⟩

theorem queuedElsewhere_possible : Possible idleSurroundings unassignedJob queuedElsewhere where
  groups := List.nodup_nil
  messages := List.nodup_nil
  sends := List.nodup_singleton _
  action := by simp [queuedElsewhere]
  key := by decide

theorem confined_iff_refused :
    let _ := asciiRuntime
    let _ := asciiNormalization
    let _ : Datetimes := ⟨fun _ => none⟩
    let _ : DateStrings := ⟨fun _ => none⟩
    Confined idleSurroundings queuedElsewhere unassignedJob (.group .cancelScheduled (.obj [("sendId", .str "s3")])) := by
  intro _ _ _ _
  refine (confined_iff queuedElsewhere_possible (by decide)).mpr fun _ => Or.inr ?_
  rintro _ named
  obtain rfl := Option.some.inj named
  decide

/-- The listing answers a group job whose group is not monitored. -/
theorem queue_listed_unmonitored :
    let _ := asciiRuntime
    let _ := asciiNormalization
    let _ : Datetimes := ⟨fun _ => none⟩
    let _ : DateStrings := ⟨fun _ => none⟩
    ¬ Confined idleSurroundings queuedElsewhere unassignedJob (.group .scheduledSends (.obj [("includeAddresses", .bool true)])) := by
  intro _ _ _ _ confined
  have answer := congrArg Prod.snd (confined.2 rfl (by decide))
  have ok := congrArg (fun answer : Json => answer.field "ok") (ToolResult.group.inj answer)
  cases Json.bool.inj (Option.some.inj ok)

end GroupButler.Tools
