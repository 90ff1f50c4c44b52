import GroupButler.Foundation.Chunks
import GroupButler.Foundation.EventStream
import GroupButler.Foundation.IsoDate
import GroupButler.Foundation.JsonRead

/-!
# The live channel on the wire

What a connection writes for a change, and what the reader at the other end makes of the bytes when they
break off anywhere.
-/

namespace GroupButler.Live
open Foundation

/-! ### Frames -/

def eventNames : List String := ["group.updated", "message.created", "message.updated", "send.updated", "instance.updated"]

structure StreamFrame where
  event : String
  data : Json
  named : event ∈ eventNames

/-- Go's zero `time.Time` and before stand for no stamp. -/
def isoStamp (stamp : Option Int) : Option String :=
  (stamp.filter fun ms => decide (-62135596800000 < ms)).map toISOString

def groupChanges : List String := ["subject", "topic", "announce", "locked", "state", "participants"]

def groupChangeByPath (path : String) : Option String :=
  (([("observed.subject", "subject"), ("observed.topic", "topic"), ("observed.isAnnounce", "announce"),
    ("observed.isLocked", "locked"), ("observed.state", "state"), ("observed.participantCount", "participants")] :
      List (String × String)).find? fun entry => entry.1 == path).map Prod.snd

/-- `observed` of a stored group. `keys` are the names of all its fields. -/
structure Observed where
  keys : List String
  subject : Option String
  state : Option String
  subjectUpdatedAt : Option Int

structure GroupDoc where
  instanceId : Option String
  groupJid : Option String
  observed : Observed

structure SendDoc where
  id : Option String
  instanceId : Option String
  groupJid : Option String
  status : Option String
  approvalState : Option String
  errorClass : Option String
  updatedAt : Option Int

/-- The changed document, by its collection. The rows of messages and instances are read as they are listed. -/
inductive Document where
  | groups (doc : GroupDoc) (subjectBefore : Option String)
  | messages (row : Json)
  | sendRequests (doc : SendDoc)
  | instances (row : Json)
  | other

structure ChangeLike where
  organizationId : String
  operationType : String
  /-- The keys of `updateDescription.updatedFields`. -/
  updatedFields : List String
  document : Document
  /-- Seconds. -/
  clusterTime : Option Int
  /-- `_id`, the resume token. -/
  token : Option Json

def nullable (text : Option String) : Json := text.elim .null .str

def changedPaths (change : ChangeLike) (observed : Observed) : List String :=
  if change.operationType = "update" then change.updatedFields else observed.keys.map ("observed." ++ ·)

def changesOf (paths : List String) : List String :=
  groupChanges.filter fun change => (paths.filterMap groupChangeByPath).contains change

def groupEvent (now : Int) (change : ChangeLike) (doc : GroupDoc) (subjectBefore : Option String) : Json :=
  .obj [("type", .str "group.updated"), ("instanceId", .str (doc.instanceId.getD "")), ("groupJid", .str (doc.groupJid.getD "")),
    ("changes", .arr ((changesOf (changedPaths change doc.observed)).map .str)),
    ("name", .str (doc.observed.subject.getD "")), ("previousName", nullable subjectBefore),
    ("nameSetAt", nullable (isoStamp doc.observed.subjectUpdatedAt)), ("state", .str (doc.observed.state.getD "active")),
    ("occurredAt", .str (toISOString (change.clusterTime.elim now (· * 1000))))]

def sendPatch (doc : SendDoc) : Json :=
  .obj [("id", .str (doc.id.getD "")), ("instanceId", .str (doc.instanceId.getD "")), ("groupJid", .str (doc.groupJid.getD "")),
    ("status", .str (doc.status.getD "draft")), ("approval", .str (doc.approvalState.getD "pending")),
    ("dispatch", .str (doc.errorClass.getD "")), ("updatedAt", nullable (isoStamp doc.updatedAt))]

def frameFor (now : Int) (change : ChangeLike) : Option StreamFrame :=
  match change.document with
  | .groups doc subjectBefore => some ⟨"group.updated", groupEvent now change doc subjectBefore, by decide⟩
  | .messages row =>
    if change.operationType = "insert" then some ⟨"message.created", row, by decide⟩
    else some ⟨"message.updated", row, by decide⟩
  | .sendRequests doc => some ⟨"send.updated", sendPatch doc, by decide⟩
  | .instances row => some ⟨"instance.updated", row, by decide⟩
  | .other => none

/-! ### Tokens -/

def encodeResumeToken : Option Json → Option (List Char)
  | some (.obj fields) => some (toBase64url (toUtf8 (Json.obj fields).text))
  | some (.arr items) => some (toBase64url (toUtf8 (Json.arr items).text))
  | _ => none

def decodeResumeToken (value : Option (List Char)) : Option JsonValue :=
  match value with
  | none | some [] => none
  | some value =>
    match parseJson (ofUtf8 none (ofBase64url value)) with
    | some (.obj fields) => some (.obj fields)
    | _ => none

/-! ### The body -/

def frameLines (id : Option (List Char)) (frame : StreamFrame) : List (List Char) :=
  (match id with
    | none | some [] => []
    | some id => ["id".toList ++ ": ".toList ++ id]) ++
  ["event".toList ++ ": ".toList ++ frame.event.toList, "data".toList ++ ": ".toList ++ frame.data.text]

def serializeFrame (id : Option (List Char)) (frame : StreamFrame) : List Char :=
  ['\n'].intercalate (frameLines id frame) ++ "\n\n".toList

/-- What the body hands to its controller. -/
inductive Chunk where
  | opened
  | ping
  | frame (token : Option Json) (sent : StreamFrame)

def Chunk.text : Chunk → List Char
  | .opened => ": open\n\n".toList
  | .ping => ": ping\n\n".toList
  | .frame token sent => serializeFrame (encodeResumeToken token) sent

/-- `encoder.encode(chunk)` -/
def Chunk.bytes (chunk : Chunk) : List Nat := toUtf8 chunk.text

def bodyOf (chunks : List Chunk) : List Nat := chunks.flatMap Chunk.bytes

/-! ### What a reader makes of it -/

/-- An event as a client uses it: its name, its payload, and where it resumes from afterwards. -/
structure Patch where
  event : List Char
  data : Option JsonValue
  resume : Option JsonValue

def patchOf (e : StreamEvent) : Patch := ⟨e.type, parseJson e.data, decodeResumeToken (some e.lastEventId)⟩

def received (id : List Char) (bytes : List Nat) : List StreamEvent :=
  ((EventReader.initial id).read (decodeBody bytes)).events

/-- Where a client resumes after a frame. One without a token leaves it where it was. -/
def resumesAt (resume : Option JsonValue) : Option Json → Option JsonValue
  | some (.obj fields) => some (Json.obj fields).value
  | some (.arr _) => none
  | _ => resume

/-- The patches that chunks carry. -/
def patches (resume : Option JsonValue) : List Chunk → List Patch
  | [] => []
  | .frame token sent :: rest =>
    ⟨sent.event.toList, some sent.data.value, resumesAt resume token⟩ :: patches (resumesAt resume token) rest
  | _ :: rest => patches resume rest

/-! ### What is written reads back -/

theorem changesOf_perm {paths paths' : List String} (same : paths.Perm paths') : changesOf paths = changesOf paths' := by
  unfold changesOf
  congr 1
  funext change
  exact Bool.eq_iff_iff.mpr (by simp only [List.contains_iff_mem, (same.filterMap _).mem_iff])

theorem sextetChar_plain (sextet : Nat) : sextetChar sextet ∈ sextetDigits := by
  rw [sextetChar, List.getD_eq_getElem?_getD]
  cases found : sextetDigits[sextet]? with
  | none => decide
  | some c => exact List.mem_of_getElem? found

theorem base64url_visible {bytes : List Nat} {c : Char} (member : c ∈ toBase64url bytes) : 0x20 < c.toNat := by
  obtain ⟨sextet, -, rfl⟩ := List.mem_map.mp member
  have digits : ∀ d ∈ sextetDigits, 0x20 < d.toNat := forall_mem_of_all (by decide)
  exact digits _ (sextetChar_plain sextet)

theorem token_octets (v : Json) : ∀ byte ∈ toUtf8 v.text, byte < 256 := by
  intro byte member
  obtain ⟨c, -, inside⟩ := List.mem_flatMap.mp member
  exact utf8Bytes_lt c byte inside

theorem token_ne_nil (v : Json) : toBase64url (toUtf8 v.text) ≠ [] := by
  intro none
  have back := ofBase64url_toBase64url (token_octets v)
  obtain ⟨c, rest, shape, -⟩ := text_head v
  have text := ofUtf8_toUtf8 v.text
  rw [← back, none, shape] at text
  cases text

theorem encodeResumeToken_some {token : Option Json} {id : List Char} (encoded : encodeResumeToken token = some id) :
    ∃ v : Json, token = some v ∧ id = toBase64url (toUtf8 v.text) := by
  unfold encodeResumeToken at encoded
  split at encoded
  · exact ⟨_, rfl, (Option.some.inj encoded).symm⟩
  · exact ⟨_, rfl, (Option.some.inj encoded).symm⟩
  · cases encoded

theorem decodeResumeToken_text (v : Json) : decodeResumeToken (some (toBase64url (toUtf8 v.text))) =
    match v.value with
    | .obj fields => some (.obj fields)
    | _ => none := by
  obtain ⟨c, rest, shape⟩ := List.exists_cons_of_ne_nil (token_ne_nil v)
  have back := ofBase64url_toBase64url (token_octets v)
  rw [shape] at back ⊢
  unfold decodeResumeToken
  dsimp only
  rw [back, ofUtf8_toUtf8, parseJson_text]
  cases v <;> rfl

/-- A token that is a document comes back from the id it rides out as. -/
theorem decodeResumeToken_encode (fields : List (String × Json)) :
    decodeResumeToken (encodeResumeToken (some (.obj fields))) = some (Json.obj fields).value :=
  decodeResumeToken_text (.obj fields)

theorem resumesAt_encode (id : List Char) (token : Option Json) :
    decodeResumeToken (some ((encodeResumeToken token).getD id)) = resumesAt (decodeResumeToken (some id)) token := by
  cases token with
  | none => rfl
  | some v =>
    cases v with
    | obj fields => exact decodeResumeToken_text (.obj fields)
    | arr items => exact decodeResumeToken_text (.arr items)
    | null => rfl
    | bool b => rfl
    | num n => rfl
    | str s => rfl

def Chunk.lines : Chunk → List (List Char)
  | .opened => [": open".toList]
  | .ping => [": ping".toList]
  | .frame token sent => frameLines (encodeResumeToken token) sent

theorem intercalate_lines {line : List Char} (lines : List (List Char)) :
    ['\n'].intercalate (line :: lines) ++ "\n\n".toList = blockText (line :: lines) := by
  induction lines generalizing line with
  | nil => simp [blockText, List.intercalate]
  | cons next lines ih =>
    have rest := @ih next
    unfold blockText at rest ⊢
    rw [List.intercalate_cons_cons, List.cons_append, List.flatMap_cons, List.append_assoc, rest]

theorem Chunk.text_lines (chunk : Chunk) : chunk.text = blockText chunk.lines := by
  cases chunk with
  | opened => rfl
  | ping => rfl
  | frame token sent =>
    show serializeFrame (encodeResumeToken token) sent = _
    obtain ⟨line, lines, shape⟩ := List.exists_cons_of_ne_nil (show frameLines (encodeResumeToken token) sent ≠ [] by simp [frameLines])
    rw [serializeFrame, shape, intercalate_lines]
    show _ = blockText (frameLines (encodeResumeToken token) sent)
    rw [shape]

theorem unbroken_of_visible {cs : List Char} (visible : ∀ c ∈ cs, 0x20 ≤ c.toNat) : Unbroken cs := by
  intro c member
  have large := visible c member
  constructor
  · rintro rfl
    exact absurd large (by decide)
  · rintro rfl
    exact absurd large (by decide)

theorem solid_append {lines more : List (List Char)} (solid : Solid lines) (others : Solid more) : Solid (lines ++ more) where
  unbroken := fun line member => (List.mem_append.mp member).elim (solid.unbroken line) (others.unbroken line)
  filled := fun line member => (List.mem_append.mp member).elim (solid.filled line) (others.filled line)
  unmarked := fun line member => (List.mem_append.mp member).elim (solid.unmarked line) (others.unmarked line)

/-- One line whose value holds no control character. -/
theorem solid_line {front : List Char} (opens : ∀ c ∈ front, 0x20 ≤ c.toNat ∧ c ≠ '\uFEFF') (some : front ≠ []) {value : List Char}
    (visible : ∀ c ∈ value, 0x20 ≤ c.toNat) : Solid [front ++ value] := by
  obtain ⟨first, rest, rfl⟩ := List.exists_cons_of_ne_nil some
  refine ⟨fun line member => ?_, fun line member => ?_, fun line member => ?_⟩
  · rw [List.mem_singleton.mp member]
    refine unbroken_of_visible fun c inside => ?_
    rcases List.mem_append.mp inside with name | text
    · exact (opens c name).1
    · exact visible c text
  · rw [List.mem_singleton.mp member]
    nofun
  · rw [List.mem_singleton.mp member]
    intro marked
    exact (opens first List.mem_cons_self).2 (Option.some.inj marked)

theorem event_visible {event : String} (named : event ∈ eventNames) : (∀ c ∈ event.toList, 0x20 ≤ c.toNat) ∧ event.toList ≠ [] := by
  simp only [eventNames, List.mem_cons, List.not_mem_nil, or_false] at named
  rcases named with rfl | rfl | rfl | rfl | rfl
  all_goals exact ⟨forall_mem_of_all (by decide), by decide⟩

theorem frameLines_solid (token : Option Json) (sent : StreamFrame) : Solid (frameLines (encodeResumeToken token) sent) := by
  have id : Solid (match encodeResumeToken token with
      | none | some [] => []
      | some id => ["id".toList ++ ": ".toList ++ id]) := by
    split
    · exact ⟨nofun, nofun, nofun⟩
    · exact ⟨nofun, nofun, nofun⟩
    · rename_i id _ encoded
      obtain ⟨v, -, rfl⟩ := encodeResumeToken_some encoded
      exact solid_line (forall_mem_of_all (by decide)) (by decide) fun c member => Nat.le_of_lt (base64url_visible member)
  have event := @solid_line ("event".toList ++ ": ".toList) (forall_mem_of_all (by decide)) (by decide) _ (event_visible sent.named).1
  have data := @solid_line ("data".toList ++ ": ".toList) (forall_mem_of_all (by decide)) (by decide) _ (text_visible sent.data)
  exact solid_append id (solid_append event data)

theorem Chunk.solid (chunk : Chunk) : Solid chunk.lines := by
  cases chunk with
  | opened => exact @solid_line ": ".toList (forall_mem_of_all (by decide)) (by decide) "open".toList (forall_mem_of_all (by decide))
  | ping => exact @solid_line ": ".toList (forall_mem_of_all (by decide)) (by decide) "ping".toList (forall_mem_of_all (by decide))
  | frame token sent => exact frameLines_solid token sent

/-! ### The reader -/

/-- Nothing is gathered for the next event. -/
def Idle (r : EventReader) : Prop := r.data = [] ∧ r.type = []

theorem readBlock_comment {r : EventReader} (idle : Idle r) (comment : List Char) : r.readBlock [':' :: comment] = r := by
  show (r.readLine (':' :: comment)).readLine [] = r
  show r.dispatch = r
  rw [EventReader.dispatch, if_pos idle.1]
  obtain ⟨-, type⟩ := idle
  cases r
  cases type
  rfl

theorem readLines_frame {r : EventReader} (idle : Idle r) (sent : StreamFrame) :
    ((r.readLine ("event".toList ++ ": ".toList ++ sent.event.toList)).readLine
      ("data".toList ++ ": ".toList ++ sent.data.text)).readLine [] =
        { r with events := r.events ++ [⟨sent.event.toList, sent.data.text, r.id⟩] } := by
  obtain ⟨data, type⟩ := idle
  have event := @EventReader.readLine_field r "event".toList (forall_mem_of_all (by decide)) (by decide) sent.event.toList
  rw [event, EventReader.field_event, EventReader.readLine_field _ (forall_mem_of_all (by decide)) (by decide),
    EventReader.field_data]
  show EventReader.dispatch _ = _
  rw [@EventReader.dispatch_data _ sent.data.text (congrArg (· ++ sent.data.text ++ ['\n']) data) (event_visible sent.named).2]
  cases r
  cases data
  cases type
  rfl

theorem readBlock_frame {r : EventReader} (idle : Idle r) (token : Option Json) (sent : StreamFrame) :
    r.readBlock (frameLines (encodeResumeToken token) sent) =
      { r with
        id := (encodeResumeToken token).getD r.id
        events := r.events ++ [⟨sent.event.toList, sent.data.text, (encodeResumeToken token).getD r.id⟩] } := by
  cases encoded : encodeResumeToken token with
  | none => exact readLines_frame idle sent
  | some id =>
    obtain ⟨v, -, rfl⟩ := encodeResumeToken_some encoded
    obtain ⟨c, rest, shape⟩ := List.exists_cons_of_ne_nil (token_ne_nil v)
    have noNull : '\x00' ∉ toBase64url (toUtf8 v.text) := fun null => absurd (base64url_visible null) (by decide)
    rw [shape] at noNull ⊢
    have id := @EventReader.readLine_field r "id".toList (forall_mem_of_all (by decide)) (by decide) (c :: rest)
    show (((r.readLine ("id".toList ++ ": ".toList ++ (c :: rest))).readLine _).readLine _).readLine [] = _
    rw [id, EventReader.field_id _ noNull]
    exact @readLines_frame { r with id := c :: rest } idle sent

theorem patches_read (chunks : List Chunk) {r : EventReader} (idle : Idle r) :
    (chunks.foldl (fun r chunk => r.readBlock chunk.lines) r).events.map patchOf =
      r.events.map patchOf ++ patches (decodeResumeToken (some r.id)) chunks := by
  induction chunks generalizing r with
  | nil => exact (List.append_nil _).symm
  | cons chunk chunks ih =>
    rw [List.foldl_cons]
    cases chunk with
    | opened =>
      have comment := readBlock_comment idle " open".toList
      rw [show r.readBlock Chunk.opened.lines = r from comment]
      exact ih idle
    | ping =>
      have comment := readBlock_comment idle " ping".toList
      rw [show r.readBlock Chunk.ping.lines = r from comment]
      exact ih idle
    | frame token sent =>
      rw [show r.readBlock (Chunk.frame token sent).lines = _ from readBlock_frame idle token sent]
      have rest := @ih { r with
        id := (encodeResumeToken token).getD r.id
        events := r.events ++ [⟨sent.event.toList, sent.data.text, (encodeResumeToken token).getD r.id⟩] } idle
      refine rest.trans ?_
      rw [List.map_append, List.append_assoc]
      refine congrArg (r.events.map patchOf ++ ·) ?_
      rw [patches, ← resumesAt_encode, List.map_singleton, patchOf, parseJson_text]
      rfl

theorem received_cut (id : List Char) (chunks : List Chunk) (n : Nat) :
    (received id ((bodyOf chunks).take n)).map patchOf =
      patches (decodeResumeToken (some id)) (chunks.take (wholeIn Chunk.bytes n chunks)) := by
  have bytes : Chunk.bytes = fun chunk => toUtf8 (blockText chunk.lines) := funext fun chunk => congrArg toUtf8 chunk.text_lines
  have start : (EventReader.initial id).AtLine := ⟨rfl, rfl⟩
  have cut := EventReader.read_cut (fun chunk (_ : chunk ∈ chunks) => chunk.solid) start n
  rw [received, bodyOf, bytes, cut, patches_read _ ⟨rfl, rfl⟩]
  rfl

/-- A body reads back as what was written to it; and wherever it breaks off, its reader has the events of the
frames that arrived whole, each with its payload and the point it resumes from. -/
theorem stream_round_trip (id : List Char) (chunks : List Chunk) :
    (received id (bodyOf chunks)).map patchOf = patches (decodeResumeToken (some id)) chunks ∧
      ∀ n, (received id ((bodyOf chunks).take n)).map patchOf =
        patches (decodeResumeToken (some id)) (chunks.take (wholeIn Chunk.bytes n chunks)) := by
  refine ⟨?_, received_cut id chunks⟩
  have whole := received_cut id chunks (bodyOf chunks).length
  have all : wholeIn Chunk.bytes (bodyOf chunks).length chunks = chunks.length := wholeIn_of_length_le (Nat.le_refl _)
  rwa [List.take_length, all, List.take_length] at whole

end GroupButler.Live
