import GroupButler.Replies.History
import GroupButler.Tools.Confined

/-!
# What a recap shows of a conversation

The lines of `group_messages`, each with its text and its sender, and what the answer says about whether they
are the whole conversation.
-/

namespace GroupButler.Tools
open Foundation Store Sends Actions Ai Messages Replies

/-! ### Shares of the budget -/

/-- The characters of a text a budget pays for. -/
def textShare (text : String) (budget : Int) : Nat := (budget - ((jsonChars text : Int) - (utf16 text).length)).toNat

theorem clipJson_eq (text : String) (budget : Int) : clipJson text budget = clipScalars text (textShare text budget) := rfl

/-- Each text beside its share, where every text in front of it is shown whole. -/
def shares (remaining : Int) : List String → List (String × Nat)
  | [] => []
  | text :: rest =>
    (text, textShare text (min GroupToolLimits.recapTextChars (max remaining 0))) :: shares (remaining - jsonChars text) rest

/-- A text of more code units than its share. -/
def Overlong (remaining : Int) (texts : List String) : Prop := ∃ text ∈ shares remaining texts, text.2 < (utf16 text.1).length

/-- A text of more characters than its share. -/
def Cut (remaining : Int) (texts : List String) : Prop := ∃ text ∈ shares remaining texts, text.2 < text.1.toList.length

instance (remaining : Int) (texts : List String) : Decidable (Overlong remaining texts) :=
  inferInstanceAs (Decidable (∃ text ∈ shares remaining texts, text.2 < (utf16 text.1).length))

instance (remaining : Int) (texts : List String) : Decidable (Cut remaining texts) :=
  inferInstanceAs (Decidable (∃ text ∈ shares remaining texts, text.2 < text.1.toList.length))

theorem overlong_of_cut {remaining : Int} {texts : List String} (cut : Cut remaining texts) : Overlong remaining texts := by
  obtain ⟨text, member, short⟩ := cut
  exact ⟨text, member, Nat.lt_of_lt_of_le short (length_le_units text.1.toList)⟩

/-! ### The lines -/

/-- The WhatsApp message a line shows. -/
def RecapLine.id : RecapLine → Option String
  | .incoming row _ => some row.waMessageId |>.filter (· ≠ "")
  | .outgoing _ messageId _ => some messageId |>.filter (· ≠ "")

section
variable [Runtime] [Normalization]

/-- The whole text of a line. -/
def RecapLine.fullText : RecapLine → String
  | .incoming row _ => normalizeUntrustedText (row.text.getD "")
  | .outgoing text _ _ => normalizeUntrustedText text

/-- The name a member shows. -/
def shownName (row : StoredMessage) : String := (row.pushName.map fun name => jsTrim (normalizeUntrustedText name)).getD ""

/-- The whole sender of a line. -/
def RecapLine.fullSender : RecapLine → String
  | .incoming row _ =>
    if row.fromMe then "Assistant"
    else if shownName row ≠ "" then shownName row
    else before ':' (before '@' (row.senderJid.getD ""))
  | .outgoing _ _ _ => "Assistant"

/-- A member's line whose name is longer than a label. -/
def RecapLine.LongSender : RecapLine → Prop
  | .incoming row _ => row.fromMe = false ∧ GroupToolLimits.labelChars < (utf16 (shownName row)).length
  | .outgoing _ _ _ => False

instance (line : RecapLine) : Decidable line.LongSender :=
  match line with
  | .incoming row _ =>
    inferInstanceAs (Decidable (row.fromMe = false ∧ GroupToolLimits.labelChars < (utf16 (shownName row)).length))
  | .outgoing _ _ _ => inferInstanceAs (Decidable False)

def RecapLine.sender : RecapLine → String
  | .incoming row _ => senderLabel row
  | .outgoing _ _ _ => "Assistant"

theorem recapEntry_id (remaining : Int) (line : RecapLine) :
    (stringField (recapEntry remaining line).1 "messageId").filter (· ≠ "") = line.id := by
  cases line with
  | incoming row at_ =>
    dsimp only [recapEntry]
    cases (row.media.bind StoredMedia.kind).filter (· ≠ "") <;> rfl
  | outgoing text messageId at_ => rfl

theorem recapEntry_sender (remaining : Int) (line : RecapLine) :
    stringField (recapEntry remaining line).1 "from" = some line.sender := by
  cases line with
  | incoming row at_ =>
    dsimp only [recapEntry]
    cases (row.media.bind StoredMedia.kind).filter (· ≠ "") <;> rfl
  | outgoing text messageId at_ => rfl

theorem recapEntry_clip (remaining : Int) (line : RecapLine) :
    (recapEntry remaining line).2 =
      clipScalars line.fullText (textShare line.fullText (min GroupToolLimits.recapTextChars (max remaining 0))) := by
  cases line <;> simp only [recapEntry, RecapLine.fullText, clipJson_eq]

theorem recapEntry_text (remaining : Int) (line : RecapLine) :
    stringField (recapEntry remaining line).1 "text" = some (recapEntry remaining line).2.value := by
  cases line with
  | incoming row at_ =>
    dsimp only [recapEntry]
    cases (row.media.bind StoredMedia.kind).filter (· ≠ "") <;> rfl
  | outgoing text messageId at_ => rfl

theorem recapEntries_cons (remaining : Int) (line : RecapLine) (lines : List RecapLine) :
    recapEntries remaining (line :: lines) =
      ((recapEntry remaining line).1 :: (recapEntries (remaining - jsonChars (recapEntry remaining line).2.value) lines).1,
        (recapEntry remaining line).2.truncated ||
          (recapEntries (remaining - jsonChars (recapEntry remaining line).2.value) lines).2) := rfl

theorem recapEntries_ids (remaining : Int) (lines : List RecapLine) :
    (recapEntries remaining lines).1.filterMap (fun entry => (stringField entry "messageId").filter (· ≠ "")) =
      lines.filterMap RecapLine.id := by
  induction lines generalizing remaining with
  | nil => rfl
  | cons line rest ih => rw [recapEntries_cons, List.filterMap_cons, recapEntry_id, ih, List.filterMap_cons]

theorem recapEntries_senders (remaining : Int) (lines : List RecapLine) :
    (recapEntries remaining lines).1.map (stringField · "from") = lines.map fun line => some line.sender := by
  induction lines generalizing remaining with
  | nil => rfl
  | cons line rest ih => rw [recapEntries_cons, List.map_cons, recapEntry_sender, ih, List.map_cons]

/-- The flag is up where a text has more code units than its share. -/
theorem recapEntries_flag (remaining : Int) (lines : List RecapLine) :
    (recapEntries remaining lines).2 = true ↔ Overlong remaining (lines.map RecapLine.fullText) := by
  induction lines generalizing remaining with
  | nil => simp [recapEntries, Overlong, shares]
  | cons line rest ih =>
    rw [recapEntries_cons, Bool.or_eq_true, List.map_cons, Overlong, shares, List.exists_mem_cons_iff, recapEntry_clip,
      clipScalars_truncated, decide_eq_true_iff]
    apply or_congr_right'
    intro fits
    have whole := clipScalars_whole.mpr ((length_le_units line.fullText.toList).trans (Nat.le_of_not_lt fits))
    rw [whole]
    exact ih _

/-- A text is not shown whole where it has more characters than its share. -/
theorem recapEntries_texts (remaining : Int) (lines : List RecapLine) :
    (recapEntries remaining lines).1.map (stringField · "text") ≠ lines.map (fun line => some line.fullText) ↔
      Cut remaining (lines.map RecapLine.fullText) := by
  induction lines generalizing remaining with
  | nil => simp [recapEntries, Cut, shares]
  | cons line rest ih =>
    rw [recapEntries_cons, List.map_cons, List.map_cons, List.map_cons, Cut, shares, List.exists_mem_cons_iff, recapEntry_text,
      recapEntry_clip, ne_eq, List.cons.injEq, not_and_or, Option.some.injEq, clipScalars_whole, Nat.not_le]
    apply or_congr_right'
    intro fits
    rw [clipScalars_whole.mpr (Nat.le_of_not_lt fits)]
    exact ih _

omit [Runtime] in
theorem senderLabel_eq (row : StoredMessage) :
    senderLabel row =
      if row.fromMe then "Assistant"
      else if shownName row ≠ "" then String.ofList (ofUtf16 ((utf16 (shownName row)).take GroupToolLimits.labelChars))
      else before ':' (before '@' (row.senderJid.getD "")) := rfl

omit [Runtime] in
theorem sender_whole {line : RecapLine} : line.sender ≠ line.fullSender ↔ line.LongSender := by
  cases line with
  | outgoing text messageId at_ => exact iff_of_false (fun differs => differs rfl) id
  | incoming row at_ =>
    simp only [RecapLine.sender, RecapLine.fullSender, RecapLine.LongSender, senderLabel_eq]
    cases row.fromMe with
    | true => simp
    | false =>
      rw [if_neg Bool.false_ne_true, if_neg Bool.false_ne_true]
      by_cases named : shownName row = ""
      · simp [named, utf16]
      · rw [if_pos named, if_pos named, ne_eq, ← String.toList_inj, String.toList_ofList]
        have whole := @ofUtf16_take_eq (shownName row).toList GroupToolLimits.labelChars
        rw [utf16, whole, Nat.not_le]
        simp

omit [Runtime] in
theorem senders_whole (lines : List RecapLine) :
    (lines.map fun line => some line.sender) ≠ (lines.map fun line => some line.fullSender) ↔
      ∃ line ∈ lines, line.LongSender := by
  simp only [ne_eq, List.map_inj_left, Option.some.injEq, not_forall, exists_prop]
  constructor
  · rintro ⟨line, member, differs⟩
    exact ⟨line, member, sender_whole.mp differs⟩
  · rintro ⟨line, member, long⟩
    exact ⟨line, member, sender_whole.mpr long⟩

/-! ### The call -/

variable (now : Time) (db : Database) (context : ToolChatContext) (groupJid : String) (input : Json)

def searchedFor (input : Json) : Option String := (stringField input "query").filter (· ≠ "")

def recapHours (input : Json) : Int :=
  (intField input "hours").getD
    (if (searchedFor input).isSome then GroupToolLimits.recapHoursMax else GroupToolLimits.recapHoursDefault)

def recapLimit (input : Json) : Nat := ((intField input "limit").map Int.toNat).getD GroupToolLimits.recapMessagesDefault

def recapSince : Time := now - recapHours input * 60 * 60 * 1000

def foundText (text : Option String) : Bool := (searchedFor input).all fun query => text.any (matchesQuery query)

/-- The archived messages in scope. -/
def receivedRows : List StoredMessage :=
  (groupMessages db context groupJid).filter fun row =>
    row.timestamp.any (fun timestamp => decide (recapSince now input ≤ timestamp)) && foundText input row.text

/-- The sends in scope. -/
def spokenRows : List SendRow :=
  (sentRows db context groupJid).filter fun row =>
    decide (recapSince now input ≤ row.scheduledFor) && foundText input (some row.text)

def receivedLine (row : StoredMessage) : Option RecapLine := row.timestamp.map fun timestamp => .incoming row timestamp

def spokenLine (row : SendRow) : Option RecapLine :=
  if row.text ≠ "" then some (.outgoing row.text (row.dispatch.waMessageId.getD "") row.scheduledFor) else none

/-- The merged conversation in scope, newest first. -/
def recapConversation : List RecapLine :=
  newestFirst (fun line => some line.at)
    ((receivedRows now db context groupJid input).filterMap receivedLine ++
      (spokenRows now db context groupJid input).filterMap spokenLine)

/-- The lines the code lists, newest first. -/
def recapLines : List RecapLine :=
  let rows := (newestFirst StoredMessage.timestamp (receivedRows now db context groupJid input)).take (recapLimit input)
  let spoken := (newestFirst (fun row : SendRow => some row.scheduledFor) (spokenRows now db context groupJid input)).take
    (recapLimit input)
  (newestFirst (fun line => some line.at) ((rows.filterMap receivedLine) ++
    ((spoken.filter fun row => row.text ≠ "").map fun row =>
      .outgoing row.text (row.dispatch.waMessageId.getD "") row.scheduledFor))).take (recapLimit input)

/-- A recap reads in the order it happened, a search its newest match first. -/
def recapOrder (lines : List RecapLine) : List RecapLine := if (searchedFor input).isSome then lines else lines.reverse

theorem readGroupMessages_parts (addresses : Bool) :
    readGroupMessages now db context groupJid input addresses =
      .obj ([("ok", .bool true)] ++ optionalField addresses "groupJid" groupJid ++
        [("name", .str ""), ("hours", .num (recapHours input)),
          ("messages", .arr (recapEntries GroupToolLimits.resultChars
            (recapOrder input (recapLines now db context groupJid input))).1),
          ("total", .num ((receivedRows now db context groupJid input).length + (spokenRows now db context groupJid input).length : Nat)),
          ("truncated", .bool ((recapEntries GroupToolLimits.resultChars
            (recapOrder input (recapLines now db context groupJid input))).2 ||
              decide (((newestFirst StoredMessage.timestamp (receivedRows now db context groupJid input)).take
                (recapLimit input)).length <
                (receivedRows now db context groupJid input).length + (spokenRows now db context groupJid input).length)))]) := rfl

/-! ### What is listed -/

omit [Runtime] [Normalization] in
theorem spoken_lines (rows : List SendRow) :
    ((rows.filter fun row => row.text ≠ "").map fun row =>
      RecapLine.outgoing row.text (row.dispatch.waMessageId.getD "") row.scheduledFor) = rows.filterMap spokenLine := by
  induction rows with
  | nil => rfl
  | cons row rest ih =>
    by_cases silent : row.text = ""
    · rw [List.filter_cons_of_neg (by simp [silent]), ih, List.filterMap_cons_none (by simp [spokenLine, silent])]
    · rw [List.filter_cons_of_pos (by simp [silent]), List.map_cons, ih,
        List.filterMap_cons_some (by rw [spokenLine, if_pos silent])]

omit [Normalization] in
theorem received_dated : ∀ row ∈ receivedRows now db context groupJid input,
    ∃ line, receivedLine row = some line ∧ row.timestamp = some line.at := by
  intro row member
  have kept := (List.mem_filter.mp member).2
  rw [Bool.and_eq_true, Option.any_eq_true] at kept
  obtain ⟨⟨timestamp, dated, -⟩, -⟩ := kept
  exact ⟨.incoming row timestamp, by rw [receivedLine, dated]; rfl, dated⟩

variable {now db context groupJid input}

omit [Normalization] in
/-- Limiting each store first loses no line. -/
theorem recapLines_eq (texts : ∀ row ∈ spokenRows now db context groupJid input, row.text ≠ "") :
    recapLines now db context groupJid input = (recapConversation now db context groupJid input).take (recapLimit input) := by
  have spoken : ∀ row ∈ spokenRows now db context groupJid input,
      ∃ line, spokenLine row = some line ∧ some row.scheduledFor = some line.at := by
    intro row member
    rw [spokenLine, if_pos (texts row member)]
    exact ⟨_, rfl, rfl⟩
  rw [recapLines]
  simp only [spoken_lines]
  exact newest_merge (received_dated now db context groupJid input) spoken (recapLimit input)

omit [Normalization] in
theorem spoken_stored : ∀ row ∈ spokenRows now db context groupJid input, row ∈ db.sends.requests :=
  fun _ member => (List.mem_filter.mp (List.mem_filter.mp member).1).1

omit [Normalization] in
theorem received_lines : ((receivedRows now db context groupJid input).filterMap receivedLine).length =
    (receivedRows now db context groupJid input).length := by
  have dated := received_dated now db context groupJid input
  generalize receivedRows now db context groupJid input = rows at dated
  induction rows with
  | nil => rfl
  | cons row rest ih =>
    obtain ⟨line, found, -⟩ := dated row List.mem_cons_self
    rw [List.filterMap_cons_some found, List.length_cons, List.length_cons,
      ih fun other member => dated other (List.mem_cons_of_mem row member)]

omit [Normalization] in
/-- The unique index tells the archived messages of one instance apart. -/
theorem received_ids (indexed : Indexed db) :
    (((receivedRows now db context groupJid input).filterMap receivedLine).filterMap RecapLine.id).Nodup := by
  have ids : ((receivedRows now db context groupJid input).map StoredMessage.waMessageId).Nodup := by
    have keys : ((receivedRows now db context groupJid input).map StoredMessage.key).Nodup :=
      indexed.messages.sublist (((List.filter_sublist).trans List.filter_sublist).map StoredMessage.key)
    have named : ∀ row ∈ receivedRows now db context groupJid input,
        row.key = (context.organizationId, context.instanceId, row.waMessageId) := by
      intro row member
      have inside := (List.mem_filter.mp (List.mem_filter.mp member).1).2
      simp only [Bool.and_eq_true, beq_iff_eq] at inside
      rw [StoredMessage.key, inside.1.1, inside.1.2]
    rw [List.map_congr_left named] at keys
    exact List.Nodup.of_map (fun id => (context.organizationId, context.instanceId, id)) (by rwa [List.map_map])
  rw [List.filterMap_filterMap]
  refine List.Nodup.sublist (filterMap_sublist_map ?_ _) ids
  intro row id found
  obtain ⟨line, read, shown⟩ := Option.bind_eq_some_iff.mp found
  obtain ⟨timestamp, -, rfl⟩ := Option.map_eq_some_iff.mp read
  have named : (some row.waMessageId).filter (· ≠ "") = some id := shown
  exact (Option.some.inj (Option.filter_eq_some_iff.mp named).1).symm

/-! ### The laws of a transcript -/

def answerItems (answer : Json) : List Json :=
  match answer.field "messages" with
  | some (.arr items) => items
  | _ => []

def RecapLine.messageId : RecapLine → String
  | .incoming row _ => row.waMessageId
  | .outgoing _ messageId _ => messageId

def RecapLine.attachment : RecapLine → Option String
  | .incoming row _ => (row.media.bind StoredMedia.kind).filter (· ≠ "")
  | .outgoing _ _ _ => none

/-- What an entry shows of its line beside the text. -/
def entryFrame (entry : Json) : List (Option String) :=
  [stringField entry "messageId", stringField entry "at", stringField entry "from", stringField entry "attachment"]

def RecapLine.frame (line : RecapLine) : List (Option String) :=
  [some line.messageId, some (Runtime.toZonedIso line.at), some line.sender, line.attachment]

variable (fileName : StoredMessage → Option String) (now db context groupJid input)

/-- The archive, with the names of the files. -/
def archiveOf (fileName : StoredMessage → Option String) (db : Database) : List ArchivedMessage :=
  db.messages.map fun row => ⟨row, fileName row⟩

def chatKey (context : ToolChatContext) (groupJid : String) : ChatKey := ⟨context.organizationId, context.instanceId, groupJid⟩

/-- The distinct lines in scope, newest first. -/
def distinctLines : List RecapLine := distinctBy RecapLine.id (recapConversation now db context groupJid input)

/-- The newest lines in scope. -/
def newestLines : List RecapLine := (recapConversation now db context groupJid input).take (recapLimit input)

/-- Each message once, the newest lines, the truth about what is missing, and each message once in the history. -/
structure Transcript (addresses : Bool) : Prop where
  once : ((answerItems (readGroupMessages now db context groupJid input addresses)).filterMap fun entry =>
    (stringField entry "messageId").filter (· ≠ "")).Nodup
  newest : (answerItems (readGroupMessages now db context groupJid input addresses)).map entryFrame =
    (recapOrder input ((distinctLines now db context groupJid input).take (recapLimit input))).map RecapLine.frame
  told : (readGroupMessages now db context groupJid input addresses).field "truncated" = some (.bool true) ↔
    (answerItems (readGroupMessages now db context groupJid input addresses)).length <
        (distinctLines now db context groupJid input).length ∨
      (answerItems (readGroupMessages now db context groupJid input addresses)).map (stringField · "text") ≠
        (recapOrder input (newestLines now db context groupJid input)).map (fun line => some line.fullText) ∨
      (answerItems (readGroupMessages now db context groupJid input addresses)).map (stringField · "from") ≠
        (recapOrder input (newestLines now db context groupJid input)).map (fun line => some line.fullSender)
  history : ((historyLines (archiveOf fileName db) db.sends.requests (chatKey context groupJid)).filterMap HistoryLine.id).Nodup

/-- More distinct lines are in scope than the answer may list. -/
def Beyond : Prop := recapLimit input < (distinctLines now db context groupJid input).length

instance : Decidable (Beyond now db context groupJid input) := Nat.decLt _ _

/-- The whole texts of the newest lines, in the order listed. -/
def newestTexts : List String := (recapOrder input (newestLines now db context groupJid input)).map RecapLine.fullText

/-- No message twice among the newest lines, no alarm without a cause, and no cause without an alarm. -/
structure Plain : Prop where
  lines : ((newestLines now db context groupJid input).filterMap RecapLine.id).Nodup
  alarm : spokenRows now db context groupJid input ≠ [] ∨
      Overlong GroupToolLimits.resultChars (newestTexts now db context groupJid input) →
    Beyond now db context groupJid input ∨ Cut GroupToolLimits.resultChars (newestTexts now db context groupJid input) ∨
      ∃ line ∈ newestLines now db context groupJid input, line.LongSender
  senders : (∃ line ∈ newestLines now db context groupJid input, line.LongSender) →
    spokenRows now db context groupJid input ≠ [] ∨ Beyond now db context groupJid input ∨
      Overlong GroupToolLimits.resultChars (newestTexts now db context groupJid input)
  history : (((chatLines (archiveOf fileName db) db.sends.requests (chatKey context groupJid)).take historyMax).filterMap
    HistoryLine.id).Nodup

variable {fileName now db context groupJid input}

theorem answer_items (addresses : Bool) :
    answerItems (readGroupMessages now db context groupJid input addresses) =
      (recapEntries GroupToolLimits.resultChars (recapOrder input (recapLines now db context groupJid input))).1 := by
  rw [readGroupMessages_parts]
  cases addresses <;> rfl

theorem answer_flag (addresses : Bool) :
    (readGroupMessages now db context groupJid input addresses).field "truncated" = some (.bool
      ((recapEntries GroupToolLimits.resultChars (recapOrder input (recapLines now db context groupJid input))).2 ||
        decide (min (recapLimit input) (receivedRows now db context groupJid input).length <
          (receivedRows now db context groupJid input).length + (spokenRows now db context groupJid input).length))) := by
  have taken : ((newestFirst StoredMessage.timestamp (receivedRows now db context groupJid input)).take (recapLimit input)).length =
      min (recapLimit input) (receivedRows now db context groupJid input).length := by
    rw [List.length_take, newestFirst, List.length_mergeSort]
  rw [← taken, readGroupMessages_parts]
  cases addresses <;> rfl

theorem answer_truncated (addresses : Bool) :
    (readGroupMessages now db context groupJid input addresses).field "truncated" = some (.bool true) ↔
      (recapEntries GroupToolLimits.resultChars (recapOrder input (recapLines now db context groupJid input))).2 = true ∨
        min (recapLimit input) (receivedRows now db context groupJid input).length <
          (receivedRows now db context groupJid input).length + (spokenRows now db context groupJid input).length := by
  rw [answer_flag, Option.some.injEq, Json.bool.injEq, Bool.or_eq_true, decide_eq_true_iff]

theorem recapEntries_frames (remaining : Int) (lines : List RecapLine) :
    (recapEntries remaining lines).1.map entryFrame = lines.map RecapLine.frame := by
  have one (remaining : Int) (line : RecapLine) : entryFrame (recapEntry remaining line).1 = line.frame := by
    cases line with
    | incoming row at_ =>
      dsimp only [recapEntry, RecapLine.frame, RecapLine.attachment]
      cases (row.media.bind StoredMedia.kind).filter (· ≠ "") <;> rfl
    | outgoing text messageId at_ => rfl
  induction lines generalizing remaining with
  | nil => rfl
  | cons line rest ih => rw [recapEntries_cons, List.map_cons, one, ih, List.map_cons]

omit [Runtime] [Normalization] in
theorem length_recapOrder (lines : List RecapLine) : (recapOrder input lines).length = lines.length := by
  unfold recapOrder
  split
  · rfl
  · exact List.length_reverse

omit [Runtime] [Normalization] in
theorem mem_recapOrder {lines : List RecapLine} {line : RecapLine} : line ∈ recapOrder input lines ↔ line ∈ lines := by
  unfold recapOrder
  split
  · exact Iff.rfl
  · exact List.mem_reverse

omit [Runtime] [Normalization] in
theorem recapOrder_ids (lines : List RecapLine) :
    ((recapOrder input lines).filterMap RecapLine.id).Nodup ↔ (lines.filterMap RecapLine.id).Nodup := by
  unfold recapOrder
  split
  · exact Iff.rfl
  · rw [List.filterMap_reverse, List.nodup_reverse]

omit [Normalization] in
/-- With no send in scope the archived messages are the distinct lines. -/
theorem distinct_received (indexed : Indexed db) (silent : spokenRows now db context groupJid input = []) :
    (distinctLines now db context groupJid input).length = (receivedRows now db context groupJid input).length := by
  have ids := @received_ids _ now db context groupJid input indexed
  have sorted : (recapConversation now db context groupJid input).Perm
      ((receivedRows now db context groupJid input).filterMap receivedLine) := by
    rw [recapConversation, silent, List.filterMap_nil, List.append_nil]
    exact List.mergeSort_perm _ _
  rw [distinctLines, distinctBy_of_nodup RecapLine.id ((sorted.filterMap RecapLine.id).nodup_iff.mpr ids), sorted.length_eq,
    received_lines]

/-- The answer and the history are right exactly where the conversation is plain. -/
theorem transcript_iff (indexed : Indexed db) (entered : Entered (archiveOf fileName db) db.sends.requests) (addresses : Bool) :
    Transcript now db context groupJid input fileName addresses ↔ Plain now db context groupJid input fileName := by
  have listed : recapLines now db context groupJid input = newestLines now db context groupJid input :=
    recapLines_eq fun row member => entered.texts row (spoken_stored row member)
  have items := @answer_items _ _ now db context groupJid input addresses
  rw [listed] at items
  have once : ((answerItems (readGroupMessages now db context groupJid input addresses)).filterMap fun entry =>
      (stringField entry "messageId").filter (· ≠ "")).Nodup ↔
        ((newestLines now db context groupJid input).filterMap RecapLine.id).Nodup := by
    rw [items, recapEntries_ids, recapOrder_ids]
  have beyond : (answerItems (readGroupMessages now db context groupJid input addresses)).length <
      (distinctLines now db context groupJid input).length ↔ Beyond now db context groupJid input := by
    have count := length_distinctFrom RecapLine.id [] (recapConversation now db context groupJid input)
    have entries := congrArg List.length (recapEntries_frames GroupToolLimits.resultChars
      (recapOrder input (newestLines now db context groupJid input)))
    rw [List.length_map, List.length_map, length_recapOrder, newestLines, List.length_take] at entries
    rw [items, newestLines, entries, Beyond]
    unfold distinctLines distinctBy
    omega
  have texts := recapEntries_texts GroupToolLimits.resultChars (recapOrder input (newestLines now db context groupJid input))
  have senders := senders_whole (recapOrder input (newestLines now db context groupJid input))
  simp only [mem_recapOrder] at senders
  rw [← recapEntries_senders GroupToolLimits.resultChars] at senders
  have flag := recapEntries_flag GroupToolLimits.resultChars (recapOrder input (newestLines now db context groupJid input))
  have told := @answer_truncated _ _ now db context groupJid input addresses
  rw [listed, flag] at told
  rw [← items] at texts senders
  have counted : min (recapLimit input) (receivedRows now db context groupJid input).length <
      (receivedRows now db context groupJid input).length + (spokenRows now db context groupJid input).length ↔
        spokenRows now db context groupJid input ≠ [] ∨ Beyond now db context groupJid input := by
    by_cases silent : spokenRows now db context groupJid input = []
    · have lengths := distinct_received indexed silent
      rw [Beyond, lengths, silent, List.length_nil]
      simp
    · have some_ := List.length_pos_of_ne_nil silent
      refine iff_of_true ?_ (Or.inl silent)
      omega
  rw [counted] at told
  have history := history_once_iff entered (chatKey context groupJid)
  constructor
  · intro transcript
    have spec := transcript.told
    rw [told, beyond, texts, senders] at spec
    refine ⟨once.mp transcript.once, ?_, ?_, history.mp transcript.history⟩
    · rintro (spoken | overlong)
      · exact spec.mp (Or.inr (Or.inl spoken))
      · exact spec.mp (Or.inl overlong)
    · intro long
      rcases spec.mpr (Or.inr (Or.inr long)) with overlong | spoken | far
      · exact Or.inr (Or.inr overlong)
      · exact Or.inl spoken
      · exact Or.inr (Or.inl far)
  · intro plain
    refine ⟨once.mpr plain.lines, ?_, ?_, history.mpr plain.history⟩
    · have distinct := (take_distinctBy RecapLine.id (recapConversation now db context groupJid input) (recapLimit input)).mpr
        plain.lines
      rw [items, recapEntries_frames, distinctLines, distinct, newestLines]
    · rw [told, beyond, texts, senders]
      constructor
      · rintro (overlong | spoken | far)
        · exact plain.alarm (Or.inr overlong)
        · exact plain.alarm (Or.inl spoken)
        · exact Or.inl far
      · rintro (far | cut | long)
        · exact Or.inr (Or.inr far)
        · exact Or.inl (overlong_of_cut cut)
        · rcases plain.senders long with spoken | far | overlong
          · exact Or.inr (Or.inl spoken)
          · exact Or.inr (Or.inr far)
          · exact Or.inl overlong

end

/-! ### A send and its own echo -/

/-- The account's own message as the bridge forwards it. -/
def echoed : StoredMessage := ⟨"org", "inst", "3EB0", some "12@g.us", some "62811@s.whatsapp.net", none, true, some "at nine", some 1000, none⟩

/-- The same message as the send that made it. -/
def delivered : SendRow :=
  { candidateSend 1 "s1" ⟨"org", "inst", "12@g.us", "at nine", "key", "internal", none⟩ 900 with
    status := .sent, dispatch := { undispatched with waMessageId := some "3EB0" } }

def ownGroupJob : ToolChatContext := ⟨"org", "inst", .group, "12@g.us", some "12@g.us", ["62811@s.whatsapp.net"]⟩

def oneEchoed : Database := ⟨[], [echoed], ⟨[], []⟩, []⟩

def bothStored : Database := ⟨[], [echoed], ⟨[delivered], []⟩, []⟩

theorem echoed_entered {db : Database} (messages : db.messages = [echoed]) (texts : ∀ row ∈ db.sends.requests, row.text ≠ "") :
    Entered (archiveOf (fun _ => none) db) db.sends.requests := by
  have only : ∀ row ∈ archiveOf (fun _ => none) db, row = ⟨echoed, none⟩ := by
    rw [archiveOf, messages]
    exact fun row member => List.mem_singleton.mp member
  refine ⟨?_, ?_, texts⟩
  · intro row member
    rw [only row member]
    exact ⟨_, rfl⟩
  · intro row member
    rw [only row member]
    exact ⟨_, rfl⟩

/-- A message the account sent from its phone is listed once. -/
theorem transcript_echoed :
    @Transcript asciiRuntime asciiNormalization 2000 oneEchoed ownGroupJob "12@g.us" (.obj []) (fun _ => none) true := by
  have indexed : Indexed oneEchoed := ⟨List.nodup_nil, List.nodup_singleton _, List.nodup_nil⟩
  refine (@transcript_iff asciiRuntime asciiNormalization 2000 oneEchoed ownGroupJob "12@g.us" (.obj []) (fun _ => none) indexed
    (echoed_entered rfl (by decide)) true).mpr (@Plain.mk asciiRuntime asciiNormalization _ _ _ _ _ _ ?_ ?_ ?_ ?_)
  · decide +kernel
  · decide +kernel
  · decide +kernel
  · decide +kernel

/-- The echo of a send is listed beside it. -/
theorem echo_listed_twice : Indexed bothStored ∧ Entered (archiveOf (fun _ => none) bothStored) bothStored.sends.requests ∧
    ¬ @Transcript asciiRuntime asciiNormalization 2000 bothStored ownGroupJob "12@g.us" (.obj []) (fun _ => none) true := by
  let _ := asciiRuntime
  let _ := asciiNormalization
  refine ⟨⟨List.nodup_nil, List.nodup_singleton _, List.nodup_singleton _⟩, echoed_entered rfl (by decide), ?_⟩
  intro transcript
  have once := transcript.once
  rw [answer_items, recapEntries_ids, recapOrder_ids, recapLines_eq (by decide +kernel)] at once
  have lines : (recapConversation 2000 bothStored ownGroupJob "12@g.us" (.obj [])).Perm
      [.incoming echoed 1000, .outgoing "at nine" "3EB0" 900] := List.mergeSort_perm _ _
  rw [List.take_of_length_le (by rw [lines.length_eq]; decide), (lines.filterMap RecapLine.id).nodup_iff] at once
  revert once
  decide

end GroupButler.Tools
