import GroupButler.Tools.Transcript
import Mathlib.Algebra.Order.BigOperators.Group.List

/-!
# The size of an answer

What `JSON.stringify` spends on an answer, part by part, and the answers of the group tools held against
their budget of characters.
-/

namespace GroupButler.Tools
open Foundation Store Sends Actions Ai Messages Replies

/-! ### What is written, part by part -/

def charUnits (cs : List Char) : Nat := (cs.flatMap utf16Units).length

@[simp] theorem charUnits_nil : charUnits [] = 0 := rfl

@[simp] theorem charUnits_append (cs ds : List Char) : charUnits (cs ++ ds) = charUnits cs + charUnits ds := by
  simp [charUnits]

@[simp] theorem charUnits_cons (c : Char) (cs : List Char) : charUnits (c :: cs) = (utf16Units c).length + charUnits cs := by
  simp [charUnits]

def fieldLength (field : String × Json) : Nat := charUnits (quote field.1.toList) + 1 + jsonLength field.2

theorem charUnits_stringify (value : Json) : charUnits (stringify value) = jsonLength value := rfl

theorem units_items (items : List Json) :
    charUnits (stringifyItems items) = (items.map jsonLength).sum + (items.length - 1) := by
  have comma : (utf16Units ',').length = 1 := rfl
  induction items with
  | nil => rfl
  | cons item rest ih =>
    cases rest with
    | nil => simp [stringifyItems, charUnits_stringify]
    | cons next rest =>
      rw [stringifyItems, charUnits_append, charUnits_cons, ih, comma, charUnits_stringify]
      · simp only [List.map_cons, List.sum_cons, List.length_cons]
        omega
      · simp

theorem units_fields (fields : List (String × Json)) :
    charUnits (stringifyFields fields) = (fields.map fieldLength).sum + (fields.length - 1) := by
  have colon : (utf16Units ':').length = 1 := rfl
  have comma : (utf16Units ',').length = 1 := rfl
  induction fields with
  | nil => rfl
  | cons field rest ih =>
    obtain ⟨key, value⟩ := field
    cases rest with
    | nil =>
      rw [stringifyFields, charUnits_append, charUnits_cons, colon, charUnits_stringify]
      simp only [List.map_cons, List.map_nil, List.sum_cons, List.sum_nil, List.length_cons, List.length_nil, fieldLength]
      omega
    | cons next rest =>
      rw [stringifyFields, charUnits_append, charUnits_cons, charUnits_append, charUnits_cons, ih, colon, comma,
        charUnits_stringify]
      · simp only [List.map_cons, List.sum_cons, List.length_cons, fieldLength]
        omega
      · simp

theorem jsonLength_obj (fields : List (String × Json)) :
    jsonLength (.obj fields) = 2 + (fields.map fieldLength).sum + (fields.length - 1) := by
  have braces : (utf16Units '\x7b').length = 1 ∧ charUnits ['\x7d'] = 1 := ⟨rfl, rfl⟩
  have parts := units_fields fields
  have whole : jsonLength (.obj fields) = charUnits (stringify (.obj fields)) := rfl
  rw [whole, stringify, charUnits_append, charUnits_cons, parts, braces.1, braces.2]
  omega

theorem jsonLength_arr (items : List Json) :
    jsonLength (.arr items) = 2 + (items.map jsonLength).sum + (items.length - 1) := by
  have brackets : (utf16Units '[').length = 1 ∧ charUnits [']'] = 1 := ⟨rfl, rfl⟩
  have parts := units_items items
  have whole : jsonLength (.arr items) = charUnits (stringify (.arr items)) := rfl
  rw [whole, stringify, charUnits_append, charUnits_cons, parts, brackets.1, brackets.2]
  omega

theorem jsonChars_eq (s : String) : jsonChars s = charUnits (s.toList.flatMap quoteChar) := by
  have one : (utf16Units '"').length = 1 ∧ charUnits ['"'] = 1 := ⟨rfl, rfl⟩
  have chars : jsonChars s = charUnits (quote s.toList) - 2 := rfl
  rw [chars, quote, charUnits_cons, charUnits_append, one.1, one.2]
  omega

theorem jsonLength_str (s : String) : jsonLength (.str s) = 2 + jsonChars s := by
  have one : (utf16Units '"').length = 1 ∧ charUnits ['"'] = 1 := ⟨rfl, rfl⟩
  have whole : jsonLength (.str s) = charUnits (quote s.toList) := by
    rw [jsonLength, stringify]
    rfl
  rw [whole, jsonChars_eq, quote, charUnits_cons, charUnits_append, one.1, one.2]
  omega

theorem jsonLength_bool (b : Bool) : jsonLength (.bool b) = if b then 4 else 5 := by
  cases b <;> decide

/-! ### Clipped texts -/

/-- The characters of a text a budget keeps. -/
def kept (text : String) (budget : Int) : String := String.ofList (text.toList.take (textShare text budget))

/-- More code units than the share. -/
def Clips (text : String) (budget : Int) : Prop := textShare text budget < (utf16 text).length

instance (text : String) (budget : Int) : Decidable (Clips text budget) := Nat.decLt _ _

theorem clipJson_value (text : String) (budget : Int) : (clipJson text budget).value = kept text budget :=
  clipScalars_value text _

theorem clipJson_truncated (text : String) (budget : Int) : (clipJson text budget).truncated = decide (Clips text budget) :=
  clipScalars_truncated text _

theorem kept_whole {text : String} {budget : Int} (fits : ¬ Clips text budget) : kept text budget = text := by
  rw [kept, List.take_of_length_le ((length_le_units text.toList).trans (Nat.le_of_not_lt fits)), String.ofList_toList]

/-! ### One group's metadata -/

def infoShape (info : WorkerGroupInfo) (addresses : Bool) (name topic : String) (truncated : Bool) : Json :=
  .obj <| [("ok", .bool true)] ++ optionalField addresses "groupJid" info.groupJid ++
    [("name", .str name), ("topic", .str topic), ("isAnnounce", .bool info.isAnnounce), ("isLocked", .bool info.isLocked),
      ("participantCount", .num info.participantCount), ("botIsAdmin", .bool info.botIsAdmin),
      ("botIsSuperAdmin", .bool info.botIsSuperAdmin), ("truncated", .bool truncated)]

theorem jsonLength_infoShape (info : WorkerGroupInfo) (addresses : Bool) (name topic : String) (truncated : Bool) :
    jsonLength (infoShape info addresses name topic truncated) + (if truncated then 1 else 0) =
      jsonLength (infoShape info addresses "" "" false) + jsonChars name + jsonChars topic := by
  have blank : jsonChars "" = 0 := rfl
  unfold infoShape
  rw [jsonLength_obj, jsonLength_obj]
  cases truncated <;> simp [fieldLength, jsonLength_str, jsonLength_bool, blank] <;> omega

theorem infoShape_ok (info : WorkerGroupInfo) (addresses : Bool) (name topic : String) (truncated : Bool) :
    (infoShape info addresses name topic truncated).field "ok" = some (.bool true) := by
  cases addresses <;> rfl

section
variable [Normalization]

/-- What the two long fields may spend. -/
def infoRoom (info : WorkerGroupInfo) (addresses : Bool) : Int :=
  GroupToolLimits.resultChars - jsonLength (infoShape info addresses "" "" false)

/-- What is left for the topic. -/
def topicRoom (info : WorkerGroupInfo) (addresses : Bool) : Int :=
  infoRoom info addresses - jsonChars (kept (normalizeUntrustedText info.name) (infoRoom info addresses))

/-- One of the two is clipped. -/
def InfoClips (info : WorkerGroupInfo) (addresses : Bool) : Prop :=
  Clips (normalizeUntrustedText info.name) (infoRoom info addresses) ∨
    Clips (normalizeUntrustedText info.topic) (topicRoom info addresses)

instance (info : WorkerGroupInfo) (addresses : Bool) : Decidable (InfoClips info addresses) :=
  inferInstanceAs (Decidable (_ ∨ _))

theorem boundedInfo_eq (info : WorkerGroupInfo) (addresses : Bool) :
    boundedInfo info addresses =
      infoShape info addresses (kept (normalizeUntrustedText info.name) (infoRoom info addresses))
        (kept (normalizeUntrustedText info.topic) (topicRoom info addresses)) (decide (InfoClips info addresses)) := by
  have clips : decide (InfoClips info addresses) =
      (decide (Clips (normalizeUntrustedText info.name) (infoRoom info addresses)) ||
        decide (Clips (normalizeUntrustedText info.topic) (topicRoom info addresses))) := Bool.decide_or _ _
  rw [clips, ← clipJson_truncated, ← clipJson_truncated, ← clipJson_value, ← clipJson_value, topicRoom, ← clipJson_value]
  rfl

/-- The answer fits where the characters kept of both cost no more than the room. -/
def InfoAffordable (info : WorkerGroupInfo) (addresses : Bool) : Prop :=
  (jsonChars (kept (normalizeUntrustedText info.name) (infoRoom info addresses)) : Int) +
      jsonChars (kept (normalizeUntrustedText info.topic) (topicRoom info addresses)) ≤
    infoRoom info addresses + if InfoClips info addresses then 1 else 0

theorem info_fits_iff (info : WorkerGroupInfo) (addresses : Bool) :
    (jsonLength (boundedInfo info addresses) : Int) ≤ GroupToolLimits.resultChars ↔ InfoAffordable info addresses := by
  have size := jsonLength_infoShape info addresses (kept (normalizeUntrustedText info.name) (infoRoom info addresses))
    (kept (normalizeUntrustedText info.topic) (topicRoom info addresses)) (decide (InfoClips info addresses))
  rw [boundedInfo_eq, InfoAffordable]
  have room : infoRoom info addresses = GroupToolLimits.resultChars - jsonLength (infoShape info addresses "" "" false) := rfl
  by_cases clips : InfoClips info addresses
  · rw [if_pos (decide_eq_true clips)] at size
    rw [if_pos clips]
    omega
  · rw [if_neg (by simpa using clips)] at size
    rw [if_neg clips]
    omega

/-- An answer that is not marked has its name and topic whole. -/
theorem info_whole (info : WorkerGroupInfo) (addresses : Bool)
    (unmarked : (boundedInfo info addresses).field "truncated" = some (.bool false)) :
    boundedInfo info addresses =
      infoShape info addresses (normalizeUntrustedText info.name) (normalizeUntrustedText info.topic) false := by
  rw [boundedInfo_eq] at unmarked ⊢
  have marked (name topic : String) (truncated : Bool) :
      (infoShape info addresses name topic truncated).field "truncated" = some (.bool truncated) := by
    cases addresses <;> rfl
  rw [marked, Option.some.injEq, Json.bool.injEq, decide_eq_false_iff_not, InfoClips, not_or] at unmarked
  rw [kept_whole unmarked.1, kept_whole unmarked.2, decide_eq_false (by rw [InfoClips, not_or]; exact unmarked)]

end

/-! ### Lists that stop at the budget -/

theorem fitting_spent (remaining : Int) (entries : List (Json × Bool)) :
    ((((fitting remaining entries).1.map jsonLength).sum + (fitting remaining entries).1.length : Nat) : Int) ≤ max remaining 0 := by
  induction entries generalizing remaining with
  | nil => simp [fitting]
  | cons entry rest ih =>
    obtain ⟨entry, cut⟩ := entry
    rw [fitting]
    split
    · simp
    · have later := ih (remaining - (jsonLength entry + 1))
      simp only [List.map_cons, List.sum_cons, List.length_cons] at later ⊢
      omega

theorem fitting_negative {remaining : Int} (short : remaining < 0) (entries : List (Json × Bool)) :
    fitting remaining entries = ([], !entries.isEmpty) := by
  cases entries with
  | nil => rfl
  | cons entry rest =>
    obtain ⟨entry, cut⟩ := entry
    rw [fitting]
    rw [if_pos (by omega)]
    rfl

/-- Without the mark every entry is listed and none was cut. -/
theorem fitting_unmarked {remaining : Int} {entries : List (Json × Bool)} (unmarked : (fitting remaining entries).2 = false) :
    (fitting remaining entries).1 = entries.map Prod.fst ∧ ∀ entry ∈ entries, entry.2 = false := by
  induction entries generalizing remaining with
  | nil => exact ⟨rfl, fun _ member => by cases member⟩
  | cons entry rest ih =>
    obtain ⟨entry, cut⟩ := entry
    rw [fitting] at unmarked ⊢
    dsimp only at unmarked ⊢
    split at unmarked
    · cases unmarked
    · rename_i room
      rw [if_neg room]
      rw [Bool.or_eq_false_iff] at unmarked
      obtain ⟨listed, whole⟩ := ih unmarked.2
      refine ⟨by rw [listed]; rfl, ?_⟩
      intro other member
      rcases List.mem_cons.mp member with rfl | later
      · exact unmarked.1
      · exact whole other later

/-- An answer with a list, its length and the mark. -/
def listShape (front : List (String × Json)) (key : String) (items : List Json) (total : Nat) (truncated : Bool) : Json :=
  .obj (front ++ [(key, .arr items), ("total", .num total), ("truncated", .bool truncated)])

theorem jsonLength_listShape (front : List (String × Json)) (key : String) (items : List Json) (total : Nat) (truncated : Bool) :
    jsonLength (listShape front key items total truncated) + (if truncated then 1 else 0) =
      jsonLength (listShape front key [] total false) + (items.map jsonLength).sum + (items.length - 1) := by
  unfold listShape
  rw [jsonLength_obj, jsonLength_obj]
  simp only [List.map_append, List.sum_append, List.length_append, List.map_cons, List.map_nil, List.sum_cons, List.sum_nil,
    List.length_cons, List.length_nil, fieldLength, jsonLength_arr, jsonLength_bool]
  cases truncated <;> simp <;> omega

theorem listShape_ok {front : List (String × Json)} (ok : (Json.obj front).field "ok" = some (.bool true)) {key : String}
    (other : key ≠ "ok") (items : List Json) (total : Nat) (truncated : Bool) :
    (listShape front key items total truncated).field "ok" = some (.bool true) := by
  rw [← ok]
  simp [listShape, Json.field, other]

/-- The list as the code answers it. -/
def fittedList (front : List (String × Json)) (key : String) (entries : List (Json × Bool)) : Json :=
  let fitted := fitting (GroupToolLimits.resultChars - jsonLength (listShape front key [] entries.length false)) entries
  listShape front key fitted.1 entries.length (fitted.2 || decide (fitted.1.length < entries.length))

/-- Such an answer fits unless its frame alone does not. -/
theorem fittedList_fits_iff (front : List (String × Json)) (key : String) (entries : List (Json × Bool)) :
    (jsonLength (fittedList front key entries) : Int) ≤ GroupToolLimits.resultChars ↔
      (jsonLength (listShape front key [] entries.length false) : Int) ≤
        GroupToolLimits.resultChars + if entries = [] then 0 else 1 := by
  unfold fittedList
  have frame : ∀ items truncated, jsonLength (listShape front key items entries.length truncated) +
      (if truncated then 1 else 0) = jsonLength (listShape front key [] entries.length false) + (items.map jsonLength).sum +
        (items.length - 1) := fun items truncated => jsonLength_listShape front key items entries.length truncated
  by_cases room : (jsonLength (listShape front key [] entries.length false) : Int) ≤ GroupToolLimits.resultChars
  · have spent := fitting_spent (GroupToolLimits.resultChars - jsonLength (listShape front key [] entries.length false)) entries
    generalize fitting (GroupToolLimits.resultChars - jsonLength (listShape front key [] entries.length false)) entries =
      fitted at spent ⊢
    have size := frame fitted.1 (fitted.2 || decide (fitted.1.length < entries.length))
    refine iff_of_true ?_ (room.trans (by split <;> omega))
    dsimp only
    omega
  · rw [fitting_negative (by omega)]
    have size := frame [] (!entries.isEmpty || decide (([] : List Json).length < entries.length))
    cases entries with
    | nil =>
      simp only [if_true, List.isEmpty_nil, Bool.not_true, List.length_nil, Nat.lt_irrefl, decide_false, Bool.or_self,
        Int.add_zero]
    | cons entry rest =>
      simp only [List.isEmpty_cons, Bool.not_false, Bool.true_or, if_true, List.map_nil, List.sum_nil, List.length_nil] at size ⊢
      rw [if_neg (List.cons_ne_nil _ _)]
      omega

theorem fittedList_whole {front : List (String × Json)} {key : String} {entries : List (Json × Bool)}
    (unmarked : (fittedList front key entries).field "truncated" = some (.bool false)) :
    fittedList front key entries = listShape front key (entries.map Prod.fst) entries.length false ∧
      ∀ entry ∈ entries, entry.2 = false := by
  have marked (items : List Json) (truncated : Bool) :
      (listShape front key items entries.length truncated).field "truncated" = some (.bool truncated) := by
    simp [listShape, Json.field]
  unfold fittedList at unmarked ⊢
  dsimp only at unmarked ⊢
  rw [marked, Option.some.injEq, Json.bool.injEq] at unmarked
  have parts := Bool.or_eq_false_iff.mp unmarked
  obtain ⟨listed, whole⟩ := fitting_unmarked parts.1
  exact ⟨by rw [unmarked, listed], whole⟩

/-! ### Members and groups -/

section
variable [Normalization]

def memberShape (addresses : Bool) (participant : WorkerGroupParticipant) (name : Option String) : Json :=
  .obj <| [("isAdmin", .bool participant.isAdmin), ("isSuperAdmin", .bool participant.isSuperAdmin)] ++
    optionalField addresses "jid" participant.jid ++ (name.toList.map fun name => ("displayName", .str name))

/-- The worker's own name, or the one the group's messages established. -/
def knownName (names : List (String × String)) (participant : WorkerGroupParticipant) : Option String :=
  participant.displayName.or
    ((identityKeys participant.jid).findSome? fun key => (names.find? fun entry => entry.1 == key).map Prod.snd)

theorem participantEntry_whole {names : List (String × String)} {addresses : Bool} {participant : WorkerGroupParticipant}
    (uncut : (participantEntry names addresses participant).2 = false) :
    (participantEntry names addresses participant).1 =
      memberShape addresses participant ((knownName names participant).map normalizeUntrustedText) := by
  unfold participantEntry at uncut ⊢
  rw [← knownName] at uncut ⊢
  cases known : knownName names participant with
  | none => rfl
  | some name =>
    have fits : ¬ Clips (normalizeUntrustedText name) GroupToolLimits.labelChars := by
      simpa [known, clipJson_truncated] using uncut
    simp only [Option.map_some, clipJson_value, kept_whole fits, memberShape, Option.toList_some, List.map_cons, List.map_nil]

def membersFront (result : WorkerGroupParticipants) (addresses : Bool) : List (String × Json) :=
  [("ok", .bool true)] ++ optionalField addresses "groupJid" result.groupJid

theorem boundedParticipants_eq (result : WorkerGroupParticipants) (addresses : Bool) (names : List (String × String)) :
    boundedParticipants result addresses names =
      fittedList (membersFront result addresses) "participants" (result.participants.map (participantEntry names addresses)) := by
  unfold fittedList
  rw [List.length_map]
  rfl

theorem participants_fit_iff (result : WorkerGroupParticipants) (addresses : Bool) (names : List (String × String)) :
    (jsonLength (boundedParticipants result addresses names) : Int) ≤ GroupToolLimits.resultChars ↔
      (jsonLength (listShape (membersFront result addresses) "participants" [] result.participants.length false) : Int) ≤
        GroupToolLimits.resultChars + if result.participants = [] then 0 else 1 := by
  rw [boundedParticipants_eq, fittedList_fits_iff, List.length_map]
  simp only [List.map_eq_nil_iff]

/-- Every member with the whole of the name. -/
def wholeMembers (result : WorkerGroupParticipants) (addresses : Bool) (names : List (String × String)) : Json :=
  listShape (membersFront result addresses) "participants"
    (result.participants.map fun participant =>
      memberShape addresses participant ((knownName names participant).map normalizeUntrustedText)) result.participants.length false

theorem participants_whole {result : WorkerGroupParticipants} {addresses : Bool} {names : List (String × String)}
    (unmarked : (boundedParticipants result addresses names).field "truncated" = some (.bool false)) :
    boundedParticipants result addresses names = wholeMembers result addresses names := by
  rw [boundedParticipants_eq] at unmarked ⊢
  obtain ⟨listed, uncut⟩ := fittedList_whole unmarked
  have entries : (result.participants.map (participantEntry names addresses)).map Prod.fst =
      result.participants.map fun participant =>
        memberShape addresses participant ((knownName names participant).map normalizeUntrustedText) := by
    rw [List.map_map]
    apply List.map_congr_left
    intro participant member
    exact participantEntry_whole (uncut _ (List.mem_map_of_mem member))
  rw [listed, entries, List.length_map, wholeMembers]

def groupShape (addresses : Bool) (group : StoredGroup) (name : String) : Json :=
  .obj (optionalField addresses "groupJid" group.groupJid ++ [("name", .str name)])

def groupName (group : StoredGroup) : String := normalizeUntrustedText (group.subject.getD "")

def groupEntry (addresses : Bool) (group : StoredGroup) : Json × Bool :=
  (groupShape addresses group (clipJson (groupName group) GroupToolLimits.labelChars).value,
    (clipJson (groupName group) GroupToolLimits.labelChars).truncated)

def listedGroups (db : Database) (context : ToolChatContext) : List StoredGroup := (monitoredGroups db context).mergeSort subjectOrder

/-- The instance's groups may be listed. -/
def MayList (db : Database) (context : ToolChatContext) : Prop :=
  usableChatContext context = true ∧ ¬ (context.chatKind = .group ∧ ¬ context.groupJid.any (monitoredGroup db context))

variable {db : Database} {context : ToolChatContext}

theorem groups_refused (refused : ¬ MayList db context) (addresses : Bool) : listMonitoredGroups db context addresses = notAvailable := by
  unfold listMonitoredGroups
  split
  · rfl
  · rename_i usable
    rw [if_pos]
    by_contra allowed
    exact refused ⟨by simpa using usable, allowed⟩

theorem groups_listed (allowed : MayList db context) (addresses : Bool) :
    listMonitoredGroups db context addresses =
      fittedList [("ok", .bool true)] "groups" ((listedGroups db context).map (groupEntry addresses)) := by
  unfold listMonitoredGroups
  rw [if_neg (by simp [allowed.1]), if_neg allowed.2]
  unfold fittedList
  rw [List.length_map]
  rfl

theorem groups_fit_iff (allowed : MayList db context) (addresses : Bool) :
    (jsonLength (listMonitoredGroups db context addresses) : Int) ≤ GroupToolLimits.resultChars ↔
      (jsonLength (listShape [("ok", .bool true)] "groups" [] (listedGroups db context).length false) : Int) ≤
        GroupToolLimits.resultChars + if listedGroups db context = [] then 0 else 1 := by
  rw [groups_listed allowed, fittedList_fits_iff, List.length_map]
  simp only [List.map_eq_nil_iff]

/-- Every group with the whole of its name. -/
def wholeGroups (db : Database) (context : ToolChatContext) (addresses : Bool) : Json :=
  listShape [("ok", .bool true)] "groups" ((listedGroups db context).map fun group => groupShape addresses group (groupName group))
    (listedGroups db context).length false

theorem groups_whole {addresses : Bool}
    (unmarked : (listMonitoredGroups db context addresses).field "truncated" = some (.bool false)) :
    listMonitoredGroups db context addresses = wholeGroups db context addresses := by
  by_cases allowed : MayList db context
  · rw [groups_listed allowed] at unmarked ⊢
    obtain ⟨all, uncut⟩ := fittedList_whole unmarked
    have entries : ((listedGroups db context).map (groupEntry addresses)).map Prod.fst =
        (listedGroups db context).map fun group => groupShape addresses group (groupName group) := by
      rw [List.map_map]
      apply List.map_congr_left
      intro group member
      have fits : ¬ Clips (groupName group) GroupToolLimits.labelChars := by
        simpa [groupEntry, clipJson_truncated] using uncut _ (List.mem_map_of_mem member)
      simp only [Function.comp_apply, groupEntry, clipJson_value, kept_whole fits]
    rw [all, entries, List.length_map, wholeGroups]
  · rw [groups_refused allowed] at unmarked
    cases unmarked

end

/-! ### A recap -/

section
variable [Runtime] [Normalization]

def lineShape (line : RecapLine) (sender text : String) : Json :=
  .obj <| [("messageId", .str line.messageId), ("at", .str (Runtime.toZonedIso line.at)), ("from", .str sender),
    ("text", .str text)] ++ (line.attachment.toList.map fun kind => ("attachment", .str kind))

/-- What a line spends beside its text. -/
def lineCost (line : RecapLine) : Nat := jsonLength (lineShape line line.sender "")

/-- The texts as they are shown, one after another. -/
def keptTexts (remaining : Int) : List String → List String
  | [] => []
  | text :: rest =>
    kept text (min GroupToolLimits.recapTextChars (max remaining 0)) ::
      keptTexts (remaining - jsonChars (kept text (min GroupToolLimits.recapTextChars (max remaining 0)))) rest

theorem recapEntry_eq (remaining : Int) (line : RecapLine) :
    (recapEntry remaining line).1 = lineShape line line.sender (recapEntry remaining line).2.value := by
  cases line <;> simp only [recapEntry, lineShape, RecapLine.messageId, RecapLine.sender, RecapLine.attachment, RecapLine.at,
    Option.toList_none, List.map_nil, List.append_nil]

theorem recapEntry_value (remaining : Int) (line : RecapLine) :
    (recapEntry remaining line).2.value = kept line.fullText (min GroupToolLimits.recapTextChars (max remaining 0)) := by
  rw [recapEntry_clip, kept, clipScalars_value]

theorem jsonLength_lineShape (line : RecapLine) (text : String) :
    jsonLength (lineShape line line.sender text) = lineCost line + jsonChars text := by
  have blank : jsonChars "" = 0 := rfl
  unfold lineCost lineShape
  rw [jsonLength_obj, jsonLength_obj]
  simp only [List.map_append, List.sum_append, List.length_append, List.map_cons, List.map_nil, List.sum_cons, List.sum_nil,
    List.length_cons, List.length_nil, fieldLength, jsonLength_str, blank]
  omega

theorem recapEntries_spent (remaining : Int) (lines : List RecapLine) :
    ((recapEntries remaining lines).1.map jsonLength).sum =
      (lines.map lineCost).sum + ((keptTexts remaining (lines.map RecapLine.fullText)).map jsonChars).sum := by
  induction lines generalizing remaining with
  | nil => rfl
  | cons line rest ih =>
    rw [recapEntries_cons, recapEntry_eq, recapEntry_value]
    simp only [List.map_cons, List.sum_cons, keptTexts, jsonLength_lineShape, ih]
    omega

theorem length_recapEntries (remaining : Int) (lines : List RecapLine) :
    (recapEntries remaining lines).1.length = lines.length := by
  have frames := congrArg List.length (recapEntries_frames remaining lines)
  rwa [List.length_map, List.length_map] at frames

/-- Where no text is overlong each line shows the whole of it. -/
theorem recapEntries_whole {remaining : Int} {lines : List RecapLine}
    (fits : ¬ Overlong remaining (lines.map RecapLine.fullText)) :
    (recapEntries remaining lines).1 = lines.map fun line => lineShape line line.sender line.fullText := by
  induction lines generalizing remaining with
  | nil => rfl
  | cons line rest ih =>
    rw [List.map_cons, Overlong, shares, List.exists_mem_cons_iff, not_or] at fits
    have whole : kept line.fullText (min GroupToolLimits.recapTextChars (max remaining 0)) = line.fullText := kept_whole fits.1
    rw [recapEntries_cons, recapEntry_eq, recapEntry_value, whole, ih fits.2]
    rfl

variable (now : Time) (db : Database) (context : ToolChatContext) (groupJid : String) (input : Json) (addresses : Bool)

def recapFront : List (String × Json) :=
  [("ok", .bool true)] ++ optionalField addresses "groupJid" groupJid ++ [("name", .str ""), ("hours", .num (recapHours input))]

/-- Everything in scope, both sides of it. -/
def recapTotal : Nat := (receivedRows now db context groupJid input).length + (spokenRows now db context groupJid input).length

/-- The whole texts of the listed lines, in the order listed. -/
def listedTexts : List String := (recapOrder input (recapLines now db context groupJid input)).map RecapLine.fullText

/-- The mark is set. -/
def RecapMarked : Prop :=
  Overlong GroupToolLimits.resultChars (listedTexts now db context groupJid input) ∨
    min (recapLimit input) (receivedRows now db context groupJid input).length < recapTotal now db context groupJid input

instance : Decidable (RecapMarked now db context groupJid input) := inferInstanceAs (Decidable (_ ∨ _))

variable {now db context groupJid input addresses}

theorem recapFlag_eq : (recapEntries GroupToolLimits.resultChars (recapOrder input (recapLines now db context groupJid input))).2 =
    decide (Overlong GroupToolLimits.resultChars (listedTexts now db context groupJid input)) := by
  rw [Bool.eq_iff_iff, decide_eq_true_iff, recapEntries_flag]
  rfl

theorem readGroupMessages_eq_list :
    readGroupMessages now db context groupJid input addresses =
      listShape (recapFront groupJid input addresses) "messages"
        (recapEntries GroupToolLimits.resultChars (recapOrder input (recapLines now db context groupJid input))).1
        (recapTotal now db context groupJid input) (decide (RecapMarked now db context groupJid input)) := by
  have marked : decide (RecapMarked now db context groupJid input) =
      ((recapEntries GroupToolLimits.resultChars (recapOrder input (recapLines now db context groupJid input))).2 ||
        decide (((newestFirst StoredMessage.timestamp (receivedRows now db context groupJid input)).take (recapLimit input)).length <
          recapTotal now db context groupJid input)) := by
    rw [recapFlag_eq, List.length_take, newestFirst, List.length_mergeSort]
    exact Bool.decide_or _ _
  rw [readGroupMessages_parts, marked]
  cases addresses <;> rfl

variable (now db context groupJid input addresses)

/-- The frame, what each listed line spends beside its text, the texts kept and the commas fit. -/
def RecapAffordable : Prop :=
  ((jsonLength (listShape (recapFront groupJid input addresses) "messages" [] (recapTotal now db context groupJid input) false) +
      ((recapLines now db context groupJid input).map lineCost).sum +
      ((keptTexts GroupToolLimits.resultChars (listedTexts now db context groupJid input)).map jsonChars).sum +
      ((recapLines now db context groupJid input).length - 1) : Nat) : Int) ≤
    GroupToolLimits.resultChars + if RecapMarked now db context groupJid input then 1 else 0

theorem recap_fits_iff : (jsonLength (readGroupMessages now db context groupJid input addresses) : Int) ≤ GroupToolLimits.resultChars ↔
    RecapAffordable now db context groupJid input addresses := by
  have size := jsonLength_listShape (recapFront groupJid input addresses) "messages"
    (recapEntries GroupToolLimits.resultChars (recapOrder input (recapLines now db context groupJid input))).1
    (recapTotal now db context groupJid input) (decide (RecapMarked now db context groupJid input))
  have costs : ((recapOrder input (recapLines now db context groupJid input)).map lineCost).sum =
      ((recapLines now db context groupJid input).map lineCost).sum := by
    unfold recapOrder
    split
    · rfl
    · rw [List.map_reverse, List.sum_reverse]
  rw [← readGroupMessages_eq_list, recapEntries_spent, length_recapEntries, length_recapOrder, costs, ← listedTexts] at size
  rw [RecapAffordable]
  by_cases marked : RecapMarked now db context groupJid input
  · rw [if_pos (decide_eq_true marked)] at size
    rw [if_pos marked]
    omega
  · rw [if_neg (by simpa using marked)] at size
    rw [if_neg marked]
    omega

/-- Every line in scope with the whole of its text and sender. -/
def wholeRecap : Json :=
  listShape (recapFront groupJid input addresses) "messages"
    ((recapOrder input (recapConversation now db context groupJid input)).map fun line =>
      lineShape line line.fullSender line.fullText) (recapTotal now db context groupJid input) false

/-- A recap of everything in scope cuts no sender's name. -/
def RecapHonest : Prop :=
  spokenRows now db context groupJid input = [] → (receivedRows now db context groupJid input).length ≤ recapLimit input →
    ¬ Overlong GroupToolLimits.resultChars
      ((recapOrder input (recapConversation now db context groupJid input)).map RecapLine.fullText) →
    ∀ line ∈ recapConversation now db context groupJid input, ¬ line.LongSender

omit [Normalization] in
/-- Where no send is in scope and the limit is not reached, every line is listed. -/
theorem recapLines_all (silent : spokenRows now db context groupJid input = [])
    (few : (receivedRows now db context groupJid input).length ≤ recapLimit input) :
    recapLines now db context groupJid input = recapConversation now db context groupJid input := by
  have texts : ∀ row ∈ spokenRows now db context groupJid input, row.text ≠ "" := by
    rw [silent]
    exact fun _ member => by cases member
  have count : (recapConversation now db context groupJid input).length = (receivedRows now db context groupJid input).length := by
    rw [recapConversation, newestFirst, List.length_mergeSort, silent, List.filterMap_nil, List.append_nil, received_lines]
  rw [recapLines_eq texts, List.take_of_length_le (by rw [count]; exact few)]

theorem recap_unmarked : ¬ RecapMarked now db context groupJid input ↔
    spokenRows now db context groupJid input = [] ∧ (receivedRows now db context groupJid input).length ≤ recapLimit input ∧
      ¬ Overlong GroupToolLimits.resultChars
        ((recapOrder input (recapConversation now db context groupJid input)).map RecapLine.fullText) := by
  rw [RecapMarked, not_or, recapTotal, listedTexts]
  constructor
  · rintro ⟨fits, all⟩
    have silent : spokenRows now db context groupJid input = [] := by
      apply List.eq_nil_of_length_eq_zero
      omega
    have few : (receivedRows now db context groupJid input).length ≤ recapLimit input := by omega
    exact ⟨silent, few, recapLines_all now db context groupJid input silent few ▸ fits⟩
  · rintro ⟨silent, few, fits⟩
    rw [recapLines_all now db context groupJid input silent few, silent, List.length_nil]
    exact ⟨fits, by omega⟩

omit [Normalization] in
theorem lineShape_sender (line : RecapLine) (sender text : String) : stringField (lineShape line sender text) "from" = some sender := by
  unfold lineShape
  cases line.attachment <;> rfl

/-- Without the mark the recap is whole exactly where no sender's name is cut. -/
theorem recap_whole_iff :
    ((readGroupMessages now db context groupJid input addresses).field "truncated" = some (.bool false) →
      readGroupMessages now db context groupJid input addresses = wholeRecap now db context groupJid input addresses) ↔
    RecapHonest now db context groupJid input := by
  have marked (items : List Json) (truncated : Bool) : (listShape (recapFront groupJid input addresses) "messages" items
      (recapTotal now db context groupJid input) truncated).field "truncated" = some (.bool truncated) := by
    cases addresses <;> rfl
  have listed (items : List Json) (truncated : Bool) : (listShape (recapFront groupJid input addresses) "messages" items
      (recapTotal now db context groupJid input) truncated).field "messages" = some (.arr items) := by
    cases addresses <;> rfl
  rw [readGroupMessages_eq_list, marked, Option.some.injEq, Json.bool.injEq, decide_eq_false_iff_not, recap_unmarked]
  constructor
  · intro whole silent few fits line member long
    have answer := congrArg (Json.field · "messages") (whole ⟨silent, few, fits⟩)
    rw [wholeRecap, listed, listed, recapLines_all now db context groupJid input silent few, recapEntries_whole fits,
      Option.some.injEq, Json.arr.injEq, List.map_inj_left] at answer
    have same := congrArg (stringField · "from") (answer line (mem_recapOrder.mpr member))
    rw [lineShape_sender, lineShape_sender, Option.some.injEq] at same
    exact sender_whole.mpr long same
  · rintro honest ⟨silent, few, fits⟩
    have unmarked := (recap_unmarked now db context groupJid input).mpr ⟨silent, few, fits⟩
    have entries : ((recapOrder input (recapConversation now db context groupJid input)).map fun line =>
          lineShape line line.sender line.fullText) =
        (recapOrder input (recapConversation now db context groupJid input)).map fun line =>
          lineShape line line.fullSender line.fullText := by
      apply List.map_congr_left
      intro line member
      have short := mt sender_whole.mp (honest silent few fits line (mem_recapOrder.mp member))
      rw [not_not.mp short]
    rw [recapLines_all now db context groupJid input silent few, recapEntries_whole fits, entries, decide_eq_false unmarked,
      wholeRecap]

end

/-! ### What is queued -/

section
variable [Runtime] [Normalization]

def sendShape (addresses : Bool) (name : String → String) (row : SendRow) (text : String) : Json :=
  .obj [("sendId", .str row.id), ("group", .str (if addresses then row.groupJid else name row.groupJid)), ("text", .str text),
    ("at", .str (Runtime.toZonedIso row.scheduledFor)), ("status", .str "scheduled")]

def sendCost (addresses : Bool) (name : String → String) (row : SendRow) : Nat :=
  jsonLength (sendShape addresses name row "") + jsonChars (kept (normalizeUntrustedText row.text) GroupToolLimits.recapTextChars)

theorem jsonLength_queuedEntry (addresses : Bool) (name : String → String) (row : SendRow) :
    jsonLength (queuedEntry addresses name row) = sendCost addresses name row := by
  have blank : jsonChars "" = 0 := rfl
  have entry : queuedEntry addresses name row =
      sendShape addresses name row (kept (normalizeUntrustedText row.text) GroupToolLimits.recapTextChars) := by
    simp only [queuedEntry, sendShape, clipJson_value]
  rw [entry, sendCost, sendShape, sendShape, jsonLength_obj, jsonLength_obj]
  simp only [List.map_cons, List.map_nil, List.sum_cons, List.sum_nil, List.length_cons, List.length_nil, fieldLength, jsonLength_str,
    blank]
  omega

/-- The frame, every entry and the commas fit. -/
def SendsAffordable (rows : List SendRow) (addresses : Bool) (name : String → String) : Prop :=
  ((jsonLength (.obj [("ok", .bool true), ("sends", .arr []), ("total", .num rows.length)]) +
    (rows.map (sendCost addresses name)).sum + (rows.length - 1) : Nat) : Int) ≤ GroupToolLimits.resultChars

theorem sends_fit_iff (rows : List SendRow) (addresses : Bool) (name : String → String) :
    (jsonLength (queuedAnswer rows addresses name) : Int) ≤ GroupToolLimits.resultChars ↔ SendsAffordable rows addresses name := by
  have costs : (rows.map (queuedEntry addresses name)).map jsonLength = rows.map (sendCost addresses name) := by
    rw [List.map_map]
    exact List.map_congr_left fun row _ => jsonLength_queuedEntry addresses name row
  rw [SendsAffordable, queuedAnswer, jsonLength_obj, jsonLength_obj]
  simp only [List.map_cons, List.map_nil, List.sum_cons, List.sum_nil, List.length_cons, List.length_nil, fieldLength, jsonLength_arr,
    costs, List.length_map]
  omega

end

/-! ### Every call -/

section
variable [Runtime] [Normalization] [Datetimes] [DateStrings]
variable (surroundings : Surroundings) (db : Database) (context : ToolChatContext) (input : Json)

def readTools : List GroupToolName := [.groupInfo, .groupParticipants, .monitoredGroups, .groupMessages, .scheduledSends]

/-- The answers in which nothing is clipped or left out. -/
inductive WholeAnswer : GroupToolName → Json → Prop where
  | info {groupJid : String} {info : WorkerGroupInfo} (resolved : scopedGroup db context input = some groupJid)
      (answered : surroundings.info context.instanceId groupJid = .ok info) :
      WholeAnswer .groupInfo
        (infoShape info (includeAddresses input) (normalizeUntrustedText info.name) (normalizeUntrustedText info.topic) false)
  | participants {groupJid : String} {result : WorkerGroupParticipants} (resolved : scopedGroup db context input = some groupJid)
      (answered : surroundings.participants context.instanceId groupJid = .ok result) :
      WholeAnswer .groupParticipants (wholeMembers result (includeAddresses input) (knownNames db context groupJid))
  | groups : WholeAnswer .monitoredGroups (wholeGroups db context (includeAddresses input))
  | messages {groupJid : String} (resolved : scopedGroup db context input = some groupJid) :
      WholeAnswer .groupMessages (wholeRecap (surroundings.clock 0) db context groupJid input (includeAddresses input))

/-- An answer that is ok fits the cap, and is whole unless it is marked. -/
def CappedCall (name : GroupToolName) : Prop :=
  (runGroupTool surroundings db context name input).2.field "ok" = some (.bool true) →
    (jsonLength (runGroupTool surroundings db context name input).2 : Int) ≤ GroupToolLimits.resultChars ∧
      ((runGroupTool surroundings db context name input).2.field "truncated" = some (.bool false) →
        WholeAnswer surroundings db context input name (runGroupTool surroundings db context name input).2)

/-- What the data must meet for a call to be capped. -/
inductive Affordable : GroupToolName → Prop where
  | info (afford : ∀ groupJid info, scopedGroup db context input = some groupJid →
      surroundings.info context.instanceId groupJid = .ok info → InfoAffordable info (includeAddresses input)) :
      Affordable .groupInfo
  | participants (afford : ∀ groupJid result, scopedGroup db context input = some groupJid →
      surroundings.participants context.instanceId groupJid = .ok result →
        (jsonLength (listShape (membersFront result (includeAddresses input)) "participants" [] result.participants.length false) : Int) ≤
          GroupToolLimits.resultChars + if result.participants = [] then 0 else 1) :
      Affordable .groupParticipants
  | groups (afford : MayList db context →
      (jsonLength (listShape [("ok", .bool true)] "groups" [] (listedGroups db context).length false) : Int) ≤
        GroupToolLimits.resultChars + if listedGroups db context = [] then 0 else 1) :
      Affordable .monitoredGroups
  | messages (afford : ∀ groupJid, scopedGroup db context input = some groupJid →
      RecapAffordable (surroundings.clock 0) db context groupJid input (includeAddresses input) ∧
        RecapHonest (surroundings.clock 0) db context groupJid input) :
      Affordable .groupMessages
  | sends (afford : usableChatContext context = true →
      SendsAffordable (queued db context) (includeAddresses input) (queuedName db context)) :
      Affordable .scheduledSends

variable {surroundings db context input}

/-- A call answers what its source produces, or nothing; what holds of each product holds of the call. -/
theorem capped_of_products {name : GroupToolName} {Source : Type} {reached : Source → Prop} {product : Source → Json}
    {condition : Source → Prop}
    (refused : (∀ source, ¬ reached source) → (runGroupTool surroundings db context name input).2 = notAvailable)
    (produced : ∀ source, reached source → (runGroupTool surroundings db context name input).2 = product source)
    (ok : ∀ source, (product source).field "ok" = some (.bool true))
    (fits : ∀ source, reached source → ((jsonLength (product source) : Int) ≤ GroupToolLimits.resultChars ∧
      ((product source).field "truncated" = some (.bool false) → WholeAnswer surroundings db context input name (product source)) ↔
        condition source)) :
    CappedCall surroundings db context input name ↔ ∀ source, reached source → condition source := by
  unfold CappedCall
  constructor
  · intro capped source here
    rw [produced source here] at capped
    exact (fits source here).mp (capped (ok source))
  · intro affords
    by_cases some_ : ∃ source, reached source
    · obtain ⟨source, here⟩ := some_
      rw [produced source here]
      exact fun _ => (fits source here).mpr (affords source here)
    · rw [refused (by simpa using some_)]
      intro accepted
      cases accepted

theorem info_capped_iff : CappedCall surroundings db context input .groupInfo ↔ Affordable surroundings db context input .groupInfo := by
  have capped := @capped_of_products _ _ _ _ surroundings db context input .groupInfo (String × WorkerGroupInfo)
    (fun (groupJid, info) => scopedGroup db context input = some groupJid ∧
      surroundings.info context.instanceId groupJid = .ok info)
    (fun (_, info) => boundedInfo info (includeAddresses input)) (fun (_, info) => InfoAffordable info (includeAddresses input))
    ?_ ?_ ?_ ?_
  · rw [capped]
    constructor
    · exact fun affords => .info fun groupJid info resolved answered => affords (groupJid, info) ⟨resolved, answered⟩
    · rintro affordable ⟨groupJid, info⟩ ⟨resolved, answered⟩
      cases affordable with
      | info afford => exact afford groupJid info resolved answered
  · intro none
    rw [runGroupTool]
    cases resolved : scopedGroup db context input with
    | none => rfl
    | some groupJid =>
      simp only [Option.elim_some, readGroup, Bool.false_eq_true, if_false]
      cases answered : surroundings.info context.instanceId groupJid with
      | error failure => rfl
      | ok info => exact absurd ⟨resolved, answered⟩ (none (groupJid, info))
  · rintro ⟨groupJid, info⟩ ⟨resolved, answered⟩
    simp only [runGroupTool, resolved, Option.elim_some, readGroup, Bool.false_eq_true, if_false, answered]
  · rintro ⟨groupJid, info⟩
    dsimp only
    rw [boundedInfo_eq]
    exact infoShape_ok _ _ _ _ _
  · rintro ⟨groupJid, info⟩ ⟨resolved, answered⟩
    dsimp only
    rw [info_fits_iff, and_iff_left_iff_imp]
    intro _ unmarked
    rw [info_whole info _ unmarked]
    exact .info resolved answered

theorem participants_capped_iff :
    CappedCall surroundings db context input .groupParticipants ↔ Affordable surroundings db context input .groupParticipants := by
  have capped := @capped_of_products _ _ _ _ surroundings db context input .groupParticipants (String × WorkerGroupParticipants)
    (fun (groupJid, result) => scopedGroup db context input = some groupJid ∧
      surroundings.participants context.instanceId groupJid = .ok result)
    (fun (groupJid, result) => boundedParticipants result (includeAddresses input) (knownNames db context groupJid))
    (fun (_, result) =>
      (jsonLength (listShape (membersFront result (includeAddresses input)) "participants" [] result.participants.length false) : Int) ≤
        GroupToolLimits.resultChars + if result.participants = [] then 0 else 1)
    ?_ ?_ ?_ ?_
  · rw [capped]
    constructor
    · exact fun affords => .participants fun groupJid result resolved answered => affords (groupJid, result) ⟨resolved, answered⟩
    · rintro affordable ⟨groupJid, result⟩ ⟨resolved, answered⟩
      cases affordable with
      | participants afford => exact afford groupJid result resolved answered
  · intro none
    rw [runGroupTool]
    cases resolved : scopedGroup db context input with
    | none => rfl
    | some groupJid =>
      simp only [Option.elim_some, readGroup, if_true]
      cases answered : surroundings.participants context.instanceId groupJid with
      | error failure => rfl
      | ok result => exact absurd ⟨resolved, answered⟩ (none (groupJid, result))
  · rintro ⟨groupJid, result⟩ ⟨resolved, answered⟩
    simp only [runGroupTool, resolved, Option.elim_some, readGroup, if_true, answered]
  · rintro ⟨groupJid, result⟩
    dsimp only
    rw [boundedParticipants_eq]
    exact listShape_ok (by unfold membersFront; cases includeAddresses input <;> rfl) (by decide) _ _ _
  · rintro ⟨groupJid, result⟩ ⟨resolved, answered⟩
    dsimp only
    rw [participants_fit_iff, and_iff_left_iff_imp]
    intro _ unmarked
    rw [participants_whole unmarked]
    exact .participants resolved answered

theorem groups_capped_iff :
    CappedCall surroundings db context input .monitoredGroups ↔ Affordable surroundings db context input .monitoredGroups := by
  have capped := @capped_of_products _ _ _ _ surroundings db context input .monitoredGroups Unit (fun _ => MayList db context)
    (fun _ => fittedList [("ok", .bool true)] "groups" ((listedGroups db context).map (groupEntry (includeAddresses input))))
    (fun _ => (jsonLength (listShape [("ok", .bool true)] "groups" [] (listedGroups db context).length false) : Int) ≤
      GroupToolLimits.resultChars + if listedGroups db context = [] then 0 else 1)
    ?_ ?_ ?_ ?_
  · rw [capped]
    constructor
    · exact fun affords => .groups (affords ())
    · intro affordable _
      cases affordable with
      | groups afford => exact afford
  · exact fun none => groups_refused (none ()) _
  · exact fun _ allowed => groups_listed allowed _
  · exact fun _ => listShape_ok rfl (by decide) _ _ _
  · intro _ allowed
    rw [← groups_listed allowed, groups_fit_iff allowed, and_iff_left_iff_imp]
    intro _ unmarked
    rw [groups_whole unmarked]
    exact .groups

theorem messages_capped_iff :
    CappedCall surroundings db context input .groupMessages ↔ Affordable surroundings db context input .groupMessages := by
  have capped := @capped_of_products _ _ _ _ surroundings db context input .groupMessages String
    (fun groupJid => scopedGroup db context input = some groupJid)
    (fun groupJid => readGroupMessages (surroundings.clock 0) db context groupJid input (includeAddresses input))
    (fun groupJid => RecapAffordable (surroundings.clock 0) db context groupJid input (includeAddresses input) ∧
      RecapHonest (surroundings.clock 0) db context groupJid input)
    ?_ ?_ ?_ ?_
  · rw [capped]
    constructor
    · exact fun affords => .messages affords
    · intro affordable
      cases affordable with
      | messages afford => exact afford
  · intro none
    rw [runGroupTool]
    cases resolved : scopedGroup db context input with
    | none => rfl
    | some groupJid => exact absurd resolved (none groupJid)
  · intro groupJid resolved
    simp only [runGroupTool, resolved, Option.elim_some]
  · intro groupJid
    rw [readGroupMessages_eq_list]
    exact listShape_ok (by unfold recapFront; cases includeAddresses input <;> rfl) (by decide) _ _ _
  · intro groupJid resolved
    have whole := @recap_whole_iff _ _ (surroundings.clock 0) db context groupJid input (includeAddresses input)
    rw [recap_fits_iff, ← whole]
    apply and_congr_right'
    apply imp_congr_right
    intro _
    constructor
    · intro whole
      generalize readGroupMessages _ _ _ _ _ _ = answer at whole ⊢
      cases whole with
      | messages found => rw [Option.some.inj (resolved.symm.trans found)]
    · intro same
      rw [same]
      exact .messages resolved

theorem sends_capped_iff :
    CappedCall surroundings db context input .scheduledSends ↔ Affordable surroundings db context input .scheduledSends := by
  have capped := @capped_of_products _ _ _ _ surroundings db context input .scheduledSends Unit
    (fun _ => usableChatContext context = true)
    (fun _ => queuedAnswer (queued db context) (includeAddresses input) (queuedName db context))
    (fun _ => SendsAffordable (queued db context) (includeAddresses input) (queuedName db context))
    ?_ ?_ ?_ ?_
  · rw [capped]
    constructor
    · exact fun affords => .sends (affords ())
    · intro affordable _
      cases affordable with
      | sends afford => exact afford
  · intro none
    have unusable := none ()
    simp [runGroupTool, listScheduledSends, unusable]
  · intro _ usable
    simp [runGroupTool, listScheduledSends, usable]
  · exact fun _ => rfl
  · intro _ _
    rw [sends_fit_iff, and_iff_left_iff_imp]
    intro _ unmarked
    cases unmarked

end

/-! ### A recap, and a full queue -/

def teamEchoed : Database := ⟨[⟨"org", "inst", "12@g.us", some "Team", true, true⟩], [echoed], ⟨[], []⟩, []⟩

def longText (n : Nat) : String := String.ofList (List.replicate n 'x')

theorem jsonChars_longText (n : Nat) : jsonChars (longText n) = n := by
  have one : charUnits (quoteChar 'x') = 1 := rfl
  rw [jsonChars_eq, longText, String.toList_ofList]
  induction n with
  | zero => rfl
  | succ n ih => rw [List.replicate_succ, List.flatMap_cons, charUnits_append, one, ih, Nat.add_comm]

theorem longText_plain (n : Nat) : @normalizeUntrustedText asciiNormalization (longText n) = longText n := by
  have visible : (!isControl 'x' && !isForbiddenFormat 'x') = true := by decide
  have same : @normalizeUntrustedText asciiNormalization (longText n) =
      String.ofList ((longText n).toList.filter fun c => !isControl c && !isForbiddenFormat c) := rfl
  rw [same, longText, String.toList_ofList]
  exact congrArg String.ofList (List.filter_replicate_of_pos visible)

theorem longText_clips (n : Nat) : ¬ Clips (longText n) n := by
  have units : (utf16 (longText n)).length = n := by
    rw [longText, utf16, String.toList_ofList]
    induction n with
    | zero => rfl
    | succ n ih =>
      have one : (utf16Units 'x').length = 1 := rfl
      rw [List.replicate_succ, List.flatMap_cons, List.length_append, one, ih, Nat.add_comm]
  rw [Clips, textShare, jsonChars_longText, units]
  omega

/-- Fifty queued sends of eight hundred characters each. -/
def fullQueue : Database where
  groups := []
  messages := []
  sends := ⟨(List.range 50).map fun n =>
    candidateSend n ("s" ++ toString n) ⟨"org", "inst", "12@g.us", longText 800, "key", "internal", some ⟨.owner, some 9⟩⟩ 0, []⟩
  actions := []

end GroupButler.Tools
