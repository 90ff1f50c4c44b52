import GroupButler.Foundation.Newest
import GroupButler.Prompt.Assemble
import GroupButler.Tools.Groups

/-!
# The conversation a reply job reads

The chat's archived messages and the sends that went out, merged in the order they happened. Each store is
limited before the merge, and the merge once more.
-/

namespace GroupButler.Replies
open Foundation Store Sends Tools

/-! ### The newest of two stores -/

def newestLe {α : Type} (at_ : α → Option Time) (a b : α) : Bool :=
  match at_ a, at_ b with
  | some a, some b => decide (b ≤ a)
  | none, some _ => false
  | _, none => true

section
variable {α β : Type} {at_ : α → Option Time} {docs : List α}

theorem newestLe_trans (at_ : α → Option Time) (a b c : α) (first : newestLe at_ a b = true) (second : newestLe at_ b c = true) :
    newestLe at_ a c = true := by
  unfold newestLe at *
  generalize at_ a = x at *
  generalize at_ b = y at *
  generalize at_ c = z at *
  match x, y, z with
  | none, none, none | some _, none, none | some _, some _, none | none, some _, none => rfl
  | _, none, some _ => cases second
  | none, some _, some _ => cases first
  | some x, some y, some z => exact decide_eq_true (Int.le_trans (of_decide_eq_true second) (of_decide_eq_true first))

theorem newestLe_total (at_ : α → Option Time) (a b : α) : (newestLe at_ a b || newestLe at_ b a) = true := by
  unfold newestLe
  cases at_ a with
  | none => cases at_ b <;> rfl
  | some x =>
    cases at_ b with
    | none => rfl
    | some y =>
      rw [Bool.or_eq_true, decide_eq_true_iff, decide_eq_true_iff]
      exact Int.le_total y x

variable {line : α → Option β} {moment : β → Time}

/-- Reading the newest documents as lines is taking the newest lines. -/
theorem newest_filterMap (dated : ∀ doc ∈ docs, ∃ l, line doc = some l ∧ at_ doc = some (moment l)) (n : Nat) :
    ((newestFirst at_ docs).take n).filterMap line = (newestFirst (fun l => some (moment l)) (docs.filterMap line)).take n := by
  cases docs with
  | nil => simp [newestFirst]
  | cons doc rest =>
    obtain ⟨first, -⟩ := dated doc List.mem_cons_self
    generalize doc :: rest = docs at dated
    let read (doc : α) : β := (line doc).getD first
    have reads : ∀ doc ∈ docs, line doc = some (read doc) ∧ at_ doc = some (moment (read doc)) := by
      intro doc member
      obtain ⟨l, found, at_l⟩ := dated doc member
      have same : read doc = l := by simp only [read, found, Option.getD_some]
      rw [same]
      exact ⟨found, at_l⟩
    have mapped : ∀ part : List α, (∀ doc ∈ part, doc ∈ docs) → part.filterMap line = part.map read := by
      intro part inside
      rw [← List.filterMap_eq_map]
      exact List.filterMap_congr fun doc member => (reads doc (inside doc member)).1
    have sorted : ∀ doc ∈ newestFirst at_ docs, doc ∈ docs := fun doc member => List.mem_mergeSort.mp member
    have order : (newestFirst at_ docs).map read = newestFirst (fun l => some (moment l)) (docs.map read) := by
      apply List.map_mergeSort
      intro a memberA b memberB
      rw [(reads a memberA).2, (reads b memberB).2]
    rw [mapped _ fun doc member => sorted doc (List.mem_of_mem_take member), mapped docs fun _ => id, List.map_take, order]

/-- What is limited store by store and then merged is the newest of the whole. -/
theorem newest_merge {γ : Type} {other : List γ} {at' : γ → Option Time} {line' : γ → Option β}
    (dated : ∀ doc ∈ docs, ∃ l, line doc = some l ∧ at_ doc = some (moment l))
    (dated' : ∀ doc ∈ other, ∃ l, line' doc = some l ∧ at' doc = some (moment l)) (n : Nat) :
    (newestFirst (fun l => some (moment l))
        (((newestFirst at_ docs).take n).filterMap line ++ ((newestFirst at' other).take n).filterMap line')).take n =
      (newestFirst (fun l => some (moment l)) (docs.filterMap line ++ other.filterMap line')).take n := by
  rw [newest_filterMap dated, newest_filterMap dated']
  exact take_mergeSort_append (newestLe_trans fun l => some (moment l)) (newestLe_total _) n _ _

end

/-! ### The history -/

/-- A stored message, with the name of the file it carries. -/
structure ArchivedMessage extends StoredMessage where
  /-- `media.fileName` -/
  fileName : Option String

structure ChatKey where
  organizationId : String
  instanceId : String
  groupJid : String

inductive HistoryLine where
  | incoming (row : ArchivedMessage) (at_ : Time) (senderJid : String)
  | outgoing (row : SendRow)

def HistoryLine.at : HistoryLine → Time
  | .incoming _ at_ _ => at_
  | .outgoing row => row.scheduledFor

/-- The WhatsApp message a line shows. -/
def HistoryLine.id : HistoryLine → Option String
  | .incoming row _ _ => some row.waMessageId |>.filter (· ≠ "")
  | .outgoing row => row.dispatch.waMessageId.filter (· ≠ "")

def historyMax : Nat := 20

/-- A message with a text or an attachment. -/
def inHistory (chat : ChatKey) (row : ArchivedMessage) : Bool :=
  row.organizationId == chat.organizationId && row.instanceId == chat.instanceId && row.groupJid == some chat.groupJid &&
    (row.text.any (· ≠ "") || (row.media.bind StoredMedia.kind).any (· ≠ ""))

def wentOut (chat : ChatKey) (row : SendRow) : Bool :=
  row.organizationId == chat.organizationId && row.instanceId == chat.instanceId && row.groupJid == chat.groupJid &&
    row.status == .sent

def incomingLine (row : ArchivedMessage) : Option HistoryLine :=
  match row.timestamp, row.senderJid with
  | some timestamp, some senderJid => some (.incoming row timestamp senderJid)
  | _, _ => none

def outgoingLine (row : SendRow) : Option HistoryLine := if row.text ≠ "" then some (.outgoing row) else none

def historyLines (archive : List ArchivedMessage) (requests : List SendRow) (chat : ChatKey) : List HistoryLine :=
  let history := (newestFirst (fun row : ArchivedMessage => row.timestamp) (archive.filter (inHistory chat))).take historyMax
  let said := (newestFirst (fun row : SendRow => some row.scheduledFor) (requests.filter (wentOut chat))).take historyMax
  let merged := history.filterMap incomingLine ++ said.filterMap outgoingLine
  ((newestFirst (fun line => some line.at) merged).take historyMax).reverse

/-- One line as the prompt carries it. -/
def contextMessage (chat : ChatKey) : HistoryLine → Prompt.ReplyContextMessage
  | .outgoing row => ⟨chat.groupJid, some "Assistant", row.text, row.scheduledFor, none, none⟩
  | .incoming row timestamp senderJid =>
    ⟨senderJid, row.pushName.filter (jsTrim · ≠ ""), row.text.getD "", timestamp, some row.waMessageId,
      ((row.media.bind StoredMedia.kind).filter (· ≠ "")).map fun kind => ⟨kind, row.fileName⟩⟩

def contextMessages (archive : List ArchivedMessage) (requests : List SendRow) (chat : ChatKey) : List Prompt.ReplyContextMessage :=
  (historyLines archive requests chat).map (contextMessage chat)

/-! ### The newest lines -/

/-- What the writers see to: a message has its sender and its instant, and a send says something. -/
structure Entered (archive : List ArchivedMessage) (requests : List SendRow) : Prop where
  senders : ∀ row ∈ archive, ∃ senderJid, row.senderJid = some senderJid
  instants : ∀ row ∈ archive, ∃ timestamp, row.timestamp = some timestamp
  texts : ∀ row ∈ requests, row.text ≠ ""

/-- Every line of the chat, newest first. -/
def chatLines (archive : List ArchivedMessage) (requests : List SendRow) (chat : ChatKey) : List HistoryLine :=
  newestFirst (fun line => some line.at)
    ((archive.filter (inHistory chat)).filterMap incomingLine ++ (requests.filter (wentOut chat)).filterMap outgoingLine)

theorem historyLines_eq {archive : List ArchivedMessage} {requests : List SendRow} (written : Entered archive requests)
    (chat : ChatKey) : historyLines archive requests chat = ((chatLines archive requests chat).take historyMax).reverse := by
  have incoming : ∀ row ∈ archive.filter (inHistory chat), ∃ line, incomingLine row = some line ∧ row.timestamp = some line.at := by
    intro row member
    obtain ⟨senderJid, sender⟩ := written.senders row (List.mem_filter.mp member).1
    obtain ⟨timestamp, instant⟩ := written.instants row (List.mem_filter.mp member).1
    rw [incomingLine, sender, instant]
    exact ⟨_, rfl, rfl⟩
  have outgoing : ∀ row ∈ requests.filter (wentOut chat),
      ∃ line, outgoingLine row = some line ∧ some row.scheduledFor = some line.at := by
    intro row member
    rw [outgoingLine, if_pos (written.texts row (List.mem_filter.mp member).1)]
    exact ⟨_, rfl, rfl⟩
  exact congrArg List.reverse (newest_merge incoming outgoing historyMax)

/-- The history shows each message once exactly where the newest lines of the chat do. -/
theorem history_once_iff {archive : List ArchivedMessage} {requests : List SendRow} (written : Entered archive requests)
    (chat : ChatKey) : ((historyLines archive requests chat).filterMap HistoryLine.id).Nodup ↔
      (((chatLines archive requests chat).take historyMax).filterMap HistoryLine.id).Nodup := by
  rw [historyLines_eq written, List.filterMap_reverse, List.nodup_reverse]

end GroupButler.Replies
