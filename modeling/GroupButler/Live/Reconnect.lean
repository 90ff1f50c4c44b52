import GroupButler.Live.Stream
import GroupButler.Live.Wire

/-!
# One client over many connections

A client of the live channel whose connections break off anywhere, and that comes back with the id of the
last event it took: the address of a replaced source carries it, and a source that reconnects by itself
sends it as a header.
-/

namespace GroupButler.Live
open Foundation

/-! ### The bytes of a connection -/

/-- What the connections of a tenant tail. -/
structure Feed where
  organizationId : String
  change : Nat → ChangeLike
  /-- `frameFor` and `JSON.stringify` complete on the change. -/
  renders : Nat → Bool
  /-- The clock, for a change without a cluster time. -/
  clock : Nat → Int
  /-- Where the deployment resumes for a token. -/
  place : JsonValue → Nat

def Document.coll : Document → String
  | .groups _ _ => "groups"
  | .messages _ => "messages"
  | .sendRequests _ => "sendRequests"
  | .instances _ => "instances"
  | .other => ""

def Feed.log (feed : Feed) (i : Nat) : Change where
  organizationId := (feed.change i).organizationId
  coll := (feed.change i).document.coll
  identified := (feed.change i).token.isSome
  renders := feed.renders i

/-- A chunk by the place of its change. -/
inductive Part where
  | opened
  | ping
  | frame (i : Nat)

def Part.place? : Part → Option Nat
  | .frame i => some i
  | _ => none

/-- The chunk a step hands to a controller that takes it. -/
def Connection.part (o : Opening) (s : Connection) : Event → List Part
  | .opened true => if s.phase = .opening then [.opened] else []
  | .heartbeat true => if s.phase = .done ∨ s.closed = true then [] else [.ping]
  | .change gap true _ =>
    if s.phase = .reading ∧ o.arrives s.position gap = true ∧ s.closed = false ∧ (o.log (s.position + gap)).renders = true then
      [.frame (s.position + gap)]
    else []
  | _ => []

def parts (o : Opening) : Connection → List Event → List Part
  | _, [] => []
  | s, e :: events => s.part o e ++ parts o (step o s e) events

def Feed.chunk (feed : Feed) : Part → Option Chunk
  | .opened => some .opened
  | .ping => some .ping
  | .frame i => (frameFor (feed.clock i) (feed.change i)).map fun frame => .frame (feed.change i).token frame

/-! ### The client -/

/-- One connection: how it comes about, what the server finds and goes through, and how much of the body
arrives. -/
structure Session where
  /-- A replacement opens a source of its own; otherwise the same source reconnects. -/
  replaces : Bool
  /-- The tenant's row. -/
  persisted : Option Nat
  startAt : Option Nat
  now : Nat
  events : List Event
  arrived : Nat

structure Client where
  /-- `?resume=` in the source's address. -/
  query : Option (List Char)
  /-- The last event id of the source, empty at first. -/
  lastEventId : List Char
  taken : List StreamEvent

def Client.initial : Client := ⟨none, [], []⟩

def Client.lastId (client : Client) : Option (List Char) := client.taken.getLast?.map StreamEvent.lastEventId

/-- The source of the next connection. -/
def Client.source (client : Client) (session : Session) : Client :=
  if session.replaces then { client with query := client.lastId, lastEventId := [] } else client

/-- The `Last-Event-ID` header; an empty id is not sent. -/
def Client.header (client : Client) : Option (List Char) := if client.lastEventId = [] then none else some client.lastEventId

/-- `clientToken` -/
def Client.token (client : Client) : Option JsonValue := decodeResumeToken (client.header.or client.query)

/-- The connection that answers a request of the client. -/
def Feed.opening (feed : Feed) (client : Client) (session : Session) : Opening where
  organizationId := feed.organizationId
  log := feed.log
  resume := (client.token.map feed.place).or session.persisted
  startAt := session.startAt
  now := session.now

def Feed.body (feed : Feed) (o : Opening) (events : List Event) : List Chunk :=
  (parts o o.initial events).filterMap feed.chunk

def Feed.connect (feed : Feed) (client : Client) (session : Session) : Client :=
  let source := client.source session
  let events := received source.lastEventId
    ((bodyOf (feed.body (feed.opening source session) session.events)).take session.arrived)
  { source with
    lastEventId := (events.getLast?.map StreamEvent.lastEventId).getD source.lastEventId
    taken := source.taken ++ events }

/-- The deployment resumes where it is asked to: the attempt that reads is the first. -/
def FirstAttempt (_ : Opening) (s : Connection) : Event → Prop
  | .watch _ => s.phase = .loop → s.attempt = 0
  | _ => True

def Feed.Resumes (feed : Feed) (client : Client) (session : Session) : Prop :=
  let o := feed.opening (client.source session) session
  Along (step o) (FirstAttempt o) o.initial session.events

/-- The connection still reads and all it has sent has arrived. -/
def Feed.UpToDate (feed : Feed) (o : Opening) (session : Session) : Prop :=
  (run (step o) o.initial session.events).closed = false ∧ (run (step o) o.initial session.events).phase = .reading ∧
    (bodyOf (feed.body o session.events)).length ≤ session.arrived

/-- The tenant's changes in a stretch of the log. -/
def Feed.matched (feed : Feed) (i : Nat) : Bool :=
  watched.contains (feed.log i).coll && (feed.log i).organizationId == feed.organizationId

def Feed.changes (feed : Feed) (first count : Nat) : List Nat := (List.range' first count).filter feed.matched

/-- Every change of the tenant carries a token, and the deployment knows which. -/
structure Feed.Identified (feed : Feed) : Prop where
  document : ∀ i, feed.matched i = true → ∃ fields, (feed.change i).token = some (.obj fields)
  place : ∀ i, feed.matched i = true → ∀ token, (feed.change i).token = some token → feed.place token.value = i

/-- What a client shows for a change. -/
def Feed.patch (feed : Feed) (i : Nat) : Option Patch :=
  (frameFor (feed.clock i) (feed.change i)).map fun frame =>
    ⟨frame.event.toList, some frame.data.value, (feed.change i).token.map Json.value⟩

/-! ### One connection -/

theorem parts_append (o : Opening) (s : Connection) (first rest : List Event) :
    parts o s (first ++ rest) = parts o s first ++ parts o (run (step o) s first) rest := by
  induction first generalizing s with
  | nil => rfl
  | cons e first ih =>
    rw [List.cons_append, parts, parts, ih, List.append_assoc]
    rfl

theorem send_enqueued (s : Connection) (taken : Bool) : (s.send taken).enqueued = s.enqueued := by
  unfold Connection.send
  split
  all_goals rfl

theorem saves_enqueued (s : Connection) (due : Bool) : (s.saves due).enqueued = s.enqueued := by
  unfold Connection.saves
  split
  all_goals rfl

theorem caught_enqueued (s : Connection) (o : Opening) : (s.caught o).enqueued = s.enqueued := by
  unfold Connection.caught
  split_ifs
  all_goals rfl

theorem read_enqueued (s : Connection) (o : Opening) (i : Nat) (taken due : Bool) :
    (s.read o i taken due).enqueued = s.enqueued ++ if taken && (o.log i).renders then [i] else [] := by
  unfold Connection.read
  cases renders : (o.log i).renders
  · simp only [Bool.not_false, if_true, caught_enqueued, Bool.and_false, Bool.false_eq_true, if_false, List.append_nil]
  · simp only [Bool.not_true, Bool.false_eq_true, if_false, saves_enqueued, send_enqueued, Bool.and_true]
    cases taken
    · simp
    · simp

/-- The frames of a step are what it adds to the changes enqueued. -/
theorem step_enqueued (o : Opening) (s : Connection) (e : Event) :
    (step o s e).enqueued = s.enqueued ++ (s.part o e).filterMap Part.place? := by
  cases e with
  | opened taken =>
    have none : (s.part o (.opened taken)).filterMap Part.place? = [] := by
      unfold Connection.part
      cases taken
      · rfl
      · split_ifs
        all_goals rfl
    rw [none, List.append_nil]
    simp only [step]
    split
    · exact send_enqueued s taken
    · rfl
  | watch now =>
    simp only [step, Connection.part, List.filterMap_nil, List.append_nil]
    split_ifs
    all_goals rfl
  | change gap taken due =>
    simp only [step]
    split_ifs with reads closed
    · have idle : s.part o (.change gap taken due) = [] := by
        unfold Connection.part
        cases taken
        · rfl
        · exact if_neg fun open_ => by simp [closed] at open_
      rw [idle]
      simp
    · rw [read_enqueued]
      congr 1
      cases taken
      · rfl
      · cases renders : (o.log (s.position + gap)).renders
        · simp [Connection.part, renders]
        · simp [Connection.part, reads.1, reads.2, closed, renders, Part.place?]
    · have idle : s.part o (.change gap taken due) = [] := by
        unfold Connection.part
        cases taken
        · rfl
        · exact if_neg fun open_ => reads ⟨open_.1, open_.2.1⟩
      rw [idle]
      simp
  | saved written =>
    simp only [step, Connection.part, List.filterMap_nil, List.append_nil]
    split_ifs
    all_goals rfl
  | streamEnds =>
    simp only [step, Connection.part, List.filterMap_nil, List.append_nil]
    split_ifs
    all_goals rfl
  | streamFails =>
    simp only [step, Connection.part, List.filterMap_nil, List.append_nil]
    split_ifs
    · exact caught_enqueued s o
    · rfl
  | abort => simp [step, Connection.part]
  | heartbeat taken =>
    have none : (s.part o (.heartbeat taken)).filterMap Part.place? = [] := by
      unfold Connection.part
      cases taken
      · rfl
      · split_ifs
        all_goals rfl
    rw [none, List.append_nil]
    simp only [step]
    split
    · rfl
    · exact send_enqueued s taken
  | finish written =>
    simp only [step, Connection.part, List.filterMap_nil, List.append_nil]
    split_ifs
    all_goals rfl

theorem run_enqueued (o : Opening) (s : Connection) (events : List Event) :
    (run (step o) s events).enqueued = s.enqueued ++ (parts o s events).filterMap Part.place? := by
  induction events generalizing s with
  | nil => exact (List.append_nil _).symm
  | cons e events ih =>
    show (run (step o) (step o s e) events).enqueued = _
    rw [ih, step_enqueued, parts, List.filterMap_append, List.append_assoc]

theorem filter_arrives {o : Opening} {start n gap : Nat} (arrives : o.arrives (start + n) gap = true) :
    (List.range' start (n + gap + 1)).filter o.matched = (List.range' start n).filter o.matched ++ [start + n + gap] := by
  have passed : (List.range' (start + n) gap).filter o.matched = [] := by
    refine List.filter_eq_nil_iff.mpr fun i member => ?_
    obtain ⟨low, high⟩ := List.mem_range'_1.mp member
    rw [arrives_between arrives low high]
    nofun
  have here : o.matched (start + n + gap) = true := by
    simp only [Opening.arrives, Bool.and_eq_true] at arrives
    exact arrives.1
  have shape : List.range' start (n + gap + 1) = List.range' start n ++ (List.range' (start + n) gap ++ [start + n + gap]) := by
    rw [List.range'_concat, ← List.range'_append_1, List.append_assoc]
    simp [Nat.add_assoc]
  rw [shape, List.filter_append, List.filter_append, passed, List.nil_append, List.filter_cons_of_pos here, List.filter_nil]

/-- What an attempt from the connection's own starting point has enqueued. -/
structure Tails (o : Opening) (s : Connection) : Prop where
  gapless : ∃ n, s.enqueued = (List.range' o.start n).filter o.matched ∧
    (s.closed = false → s.phase = .reading ∨ s.phase = .saving → s.position = o.start + n)
  unread : s.delivered = false → s.enqueued = []
  retry : s.phase = .opening ∨ s.phase = .loop → s.delivered = false

theorem Tails.kept {o : Opening} {s t : Connection} (tails : Tails o s) (enqueued : t.enqueued = s.enqueued)
    (delivered : t.delivered = s.delivered)
    (reads : t.closed = false → t.phase = .reading ∨ t.phase = .saving →
      s.closed = false ∧ (s.phase = .reading ∨ s.phase = .saving) ∧ t.position = s.position)
    (retry : t.phase = .opening ∨ t.phase = .loop → s.delivered = false) : Tails o t where
  gapless := by
    obtain ⟨n, stretch, reached⟩ := tails.gapless
    refine ⟨n, enqueued.trans stretch, fun open_ phase => ?_⟩
    obtain ⟨wasOpen, wasReading, same⟩ := reads open_ phase
    exact same.trans (reached wasOpen wasReading)
  unread := by rw [delivered, enqueued]; exact tails.unread
  retry := by rw [delivered]; exact retry

theorem Tails.send {o : Opening} {s : Connection} (tails : Tails o s) (taken : Bool) : Tails o (s.send taken) := by
  unfold Connection.send
  split
  · exact tails
  · exact tails.kept rfl rfl (fun open_ => by cases open_) tails.retry

theorem Tails.saves {o : Opening} {s : Connection} (tails : Tails o s) (reading : s.phase = .reading) (due : Bool) :
    Tails o (s.saves due) := by
  unfold Connection.saves
  split
  · exact tails.kept rfl rfl (fun open_ _ => ⟨open_, Or.inl reading, rfl⟩) fun again => by simp at again
  · exact tails

theorem Tails.caught {o : Opening} {s : Connection} (tails : Tails o s) : Tails o (s.caught o) := by
  unfold Connection.caught
  split
  · exact tails.kept rfl rfl (fun _ phase => by simp at phase) fun again => by simp at again
  · split
    · rename_i again
      exact tails.kept rfl rfl (fun _ phase => by simp at phase) fun _ => again.2.2
    · exact tails.kept rfl rfl (fun _ phase => by simp at phase) fun again => by simp at again

theorem caught_closing {o : Opening} {s : Connection} (delivered : s.delivered = true) : (s.caught o).phase = .closing := by
  unfold Connection.caught
  split
  · rfl
  · rw [if_neg (by simp [delivered])]

theorem caught_delivered (o : Opening) (s : Connection) : (s.caught o).delivered = s.delivered := by
  unfold Connection.caught
  split_ifs
  all_goals rfl

/-- The connection once it has the change at `i`. -/
def Connection.seen (s : Connection) (o : Opening) (i : Nat) : Connection :=
  { s with
    delivered := true
    position := i + 1
    pending := if (o.log i).identified then some i else s.pending }

theorem read_failed {s : Connection} {o : Opening} {i : Nat} (renders : (o.log i).renders = false) (taken due : Bool) :
    s.read o i taken due = (s.seen o i).caught o := by
  simp only [Connection.read, renders, Bool.not_false, if_true]
  rfl

theorem read_refused {s : Connection} {o : Opening} {i : Nat} (renders : (o.log i).renders = true) (due : Bool) :
    s.read o i false due = ({ s.seen o i with closed := true } : Connection).saves due := by
  simp only [Connection.read, renders, Bool.not_true, Bool.false_eq_true, if_false, Connection.send]
  rfl

theorem read_taken {s : Connection} {o : Opening} {i : Nat} (renders : (o.log i).renders = true) (due : Bool) :
    s.read o i true due = ({ s.seen o i with enqueued := s.enqueued ++ [i] } : Connection).saves due := by
  simp only [Connection.read, renders, Bool.not_true, Bool.false_eq_true, if_false, if_true, Connection.send]
  rfl

theorem Tails.read {o : Opening} {s : Connection} {gap : Nat} (tails : Tails o s) (isOpen : s.closed = false)
    (reading : s.phase = .reading) (arrives : o.arrives s.position gap = true) (taken due : Bool) :
    Tails o (s.read o (s.position + gap) taken due) := by
  obtain ⟨n, stretch, reached⟩ := tails.gapless
  have position := reached isOpen (Or.inl reading)
  rw [position] at arrives ⊢
  have again : ¬ (s.phase = .opening ∨ s.phase = .loop) := by simp [reading]
  cases renders : (o.log (o.start + n + gap)).renders with
  | false =>
    rw [read_failed renders]
    have closing : ((s.seen o (o.start + n + gap)).caught o).phase = .closing := caught_closing rfl
    refine ⟨⟨n, (caught_enqueued _ o).trans stretch, fun _ phase => ?_⟩, fun never => ?_, fun again => ?_⟩
    · rw [closing] at phase
      simp at phase
    · rw [caught_delivered] at never
      cases never
    · rw [closing] at again
      simp at again
  | true =>
    cases taken with
    | false =>
      rw [read_refused renders]
      refine Tails.saves ?_ ?_ due
      · exact ⟨⟨n, stretch, fun open_ => by cases open_⟩, fun never => (by cases never), fun retry => absurd retry again⟩
      · exact reading
    | true =>
      rw [read_taken renders]
      refine Tails.saves ?_ ?_ due
      · refine ⟨⟨n + gap + 1, ?_, fun _ _ => ?_⟩, fun never => (by cases never), fun retry => absurd retry again⟩
        · rw [filter_arrives arrives, ← stretch]
        · simp [Connection.seen, Nat.add_assoc]
      · exact reading

theorem step_tails {o : Opening} (s : Connection) (e : Event) (tails : Tails o s) (first : FirstAttempt o s e) :
    Tails o (step o s e) := by
  cases e with
  | opened taken =>
    simp only [step]
    split
    · rename_i opening
      refine (tails.send taken).kept rfl rfl (fun _ phase => by simp at phase) fun _ => ?_
      have same : (s.send taken).delivered = s.delivered := by
        unfold Connection.send
        split
        all_goals rfl
      rw [same]
      exact tails.retry (Or.inl opening)
    · exact tails
  | watch now =>
    simp only [step]
    split
    · rename_i atLoop
      have unread := tails.retry (Or.inr atLoop)
      split
      · refine ⟨⟨0, tails.unread unread, fun _ _ => ?_⟩, tails.unread, fun again => by simp at again⟩
        exact if_pos (first atLoop)
      · exact tails.kept rfl rfl (fun _ phase => by simp at phase) fun again => by simp at again
    · exact tails
  | change gap taken due =>
    simp only [step]
    split
    · rename_i reads
      split
      · exact tails.kept rfl rfl (fun _ phase => by simp at phase) fun again => by simp at again
      · rename_i open_
        exact tails.read (by simpa using open_) reads.1 reads.2 taken due
    · exact tails
  | saved written =>
    simp only [step]
    split
    · rename_i saving
      exact tails.kept rfl rfl (fun open_ _ => ⟨open_, Or.inr saving, rfl⟩) fun again => by simp at again
    · exact tails
  | streamEnds =>
    simp only [step]
    split
    · exact tails.kept rfl rfl (fun _ phase => by simp at phase) fun again => by simp at again
    · exact tails
  | streamFails =>
    simp only [step]
    split
    · exact tails.caught
    · exact tails
  | abort => exact tails.kept rfl rfl (fun open_ => by cases open_) tails.retry
  | heartbeat taken =>
    simp only [step]
    split
    · exact tails
    · exact tails.send taken
  | finish written =>
    simp only [step]
    split
    · rename_i closing
      exact tails.kept rfl rfl (fun _ phase => by simp at phase) fun again => by simp at again
    · exact tails

theorem initial_tails (o : Opening) : Tails o o.initial :=
  ⟨⟨0, rfl, fun _ phase => by simp [Opening.initial] at phase⟩, fun _ => rfl, fun _ => rfl⟩

/-! ### What arrives of it -/

variable {feed : Feed}

theorem frameFor_matched {i : Nat} (matched : feed.matched i = true) :
    ∃ frame, frameFor (feed.clock i) (feed.change i) = some frame := by
  simp only [Feed.matched, Bool.and_eq_true, Feed.log] at matched
  unfold frameFor
  cases kind : (feed.change i).document with
  | groups doc subjectBefore => exact ⟨_, rfl⟩
  | messages row =>
    dsimp only
    split
    · exact ⟨_, rfl⟩
    · exact ⟨_, rfl⟩
  | sendRequests doc => exact ⟨_, rfl⟩
  | instances row => exact ⟨_, rfl⟩
  | other =>
    rw [kind] at matched
    exact absurd matched.1 (by decide)

theorem patches_parts (identified : feed.Identified) {ps : List Part}
    (matched : ∀ i ∈ ps.filterMap Part.place?, feed.matched i = true) (resume : Option JsonValue) :
    (patches resume (ps.filterMap feed.chunk)).map some = (ps.filterMap Part.place?).map feed.patch := by
  induction ps generalizing resume with
  | nil => rfl
  | cons p ps ih =>
    cases p with
    | opened => exact ih matched resume
    | ping => exact ih matched resume
    | frame i =>
      have here := matched i List.mem_cons_self
      obtain ⟨frame, framed⟩ := frameFor_matched here
      obtain ⟨fields, token⟩ := identified.document i here
      have rest := ih (fun j member => matched j (List.mem_cons_of_mem i member)) (some (Json.obj fields).value)
      have chunk : feed.chunk (.frame i) = some (.frame (some (.obj fields)) frame) := by
        rw [Feed.chunk, framed, token]
        rfl
      have patch : feed.patch i = some ⟨frame.event.toList, some frame.data.value, some (Json.obj fields).value⟩ := by
        rw [Feed.patch, framed, token]
        rfl
      have place : (Part.frame i :: ps).filterMap Part.place? = i :: ps.filterMap Part.place? := rfl
      rw [List.filterMap_cons_some chunk, place, List.map_cons, patch, ← rest]
      rfl

/-- The first changes of a stretch are a stretch. -/
theorem changes_prefix {first count : Nat} {ids : List Nat} (front : ids <+: feed.changes first count) :
    ∃ n, ids = feed.changes first n := by
  obtain ⟨stretch, inside, rfl⟩ := List.prefix_filter_iff.mp front
  obtain ⟨rest, whole⟩ := inside
  obtain ⟨n, -, rfl, -⟩ := List.range'_eq_append_iff.mp whole.symm
  exact ⟨n, rfl⟩

/-- Wherever a connection breaks off, the client has taken the tenant's changes from its starting point on,
up to some place, in order and once each. -/
theorem received_gapless (identified : feed.Identified) {o : Opening} (tenant : o.matched = feed.matched) (session : Session)
    (resumes : Along (step o) (FirstAttempt o) o.initial session.events) (id : List Char) :
    ∃ n, (received id ((bodyOf (feed.body o session.events)).take session.arrived)).map (some ∘ patchOf) =
        (feed.changes o.start n).map feed.patch ∧
      (feed.UpToDate o session → (run (step o) o.initial session.events).position = o.start + n) := by
  obtain ⟨count, stretch, reached⟩ := (run_invariant_along step_tails (initial_tails o) resumes).gapless
  have placed := run_enqueued o o.initial session.events
  rw [stretch, show o.initial.enqueued = [] from rfl, List.nil_append, tenant] at placed
  have shows : ∀ {ps : List Part} {n : Nat}, ps.filterMap Part.place? = feed.changes o.start n →
      (feed.body o session.events).take (wholeIn Chunk.bytes session.arrived (feed.body o session.events)) = ps.filterMap feed.chunk →
      (received id ((bodyOf (feed.body o session.events)).take session.arrived)).map (some ∘ patchOf) =
        (feed.changes o.start n).map feed.patch := by
    intro ps n shown arrived
    have matched : ∀ i ∈ ps.filterMap Part.place?, feed.matched i = true := by
      rw [shown]
      exact fun i member => (List.mem_filter.mp member).2
    rw [← List.map_map, received_cut, arrived, patches_parts identified matched, shown]
  by_cases whole : (bodyOf (feed.body o session.events)).length ≤ session.arrived
  · refine ⟨count, shows placed.symm ?_, fun upToDate => reached upToDate.1 (Or.inl upToDate.2.1)⟩
    rw [wholeIn_of_length_le whole, List.take_length]
    rfl
  · obtain ⟨ps, front, arrived⟩ := List.prefix_filterMap_iff.mp (List.take_prefix (wholeIn Chunk.bytes session.arrived
      (feed.body o session.events)) (feed.body o session.events))
    have frames : ps.filterMap Part.place? <+: feed.changes o.start count := by
      rw [Feed.changes, placed]
      exact front.filterMap _
    obtain ⟨n, shown⟩ := changes_prefix frames
    exact ⟨n, shows shown arrived, fun upToDate => absurd upToDate.2.2 whole⟩

/-! ### Over many connections -/

/-- A stretch that ends with a change is the stretch up to it. -/
theorem changes_last {first count i : Nat} (last : (feed.changes first count).getLast? = some i) :
    first ≤ i ∧ feed.matched i = true ∧ feed.changes first count = feed.changes first (i + 1 - first) := by
  obtain ⟨inside, matched⟩ := List.mem_filter.mp (List.mem_of_getLast? last)
  obtain ⟨low, high⟩ := List.mem_range'_1.mp inside
  have split : feed.changes first count = feed.changes first (i + 1 - first) ++ feed.changes (i + 1) (first + count - (i + 1)) := by
    have shape : List.range' first count = List.range' first (i + 1 - first) ++ List.range' (i + 1) (first + count - (i + 1)) := by
      have joined := @List.range'_append_1 first (i + 1 - first) (first + count - (i + 1))
      rw [show first + (i + 1 - first) = i + 1 by omega,
        show i + 1 - first + (first + count - (i + 1)) = count by omega] at joined
      exact joined.symm
    rw [Feed.changes, shape, List.filter_append]
    rfl
  refine ⟨low, matched, ?_⟩
  rcases List.eq_nil_or_concat (feed.changes (i + 1) (first + count - (i + 1))) with none | ⟨front, j, shape⟩
  · rw [split, none, List.append_nil]
  · have later : j ∈ feed.changes (i + 1) (first + count - (i + 1)) := by rw [shape]; simp
    have beyond := List.mem_range'_1.mp (List.mem_filter.mp later).1
    rw [split, shape, List.concat_eq_append, ← List.append_assoc, List.getLast?_concat] at last
    obtain rfl := Option.some.inj last
    omega

theorem changes_append (first n m : Nat) : feed.changes first n ++ feed.changes (first + n) m = feed.changes first (n + m) := by
  rw [Feed.changes, Feed.changes, Feed.changes, ← List.filter_append, List.range'_append_1]

/-- A client that has taken a stretch, and asks to resume at its end. -/
structure Current (feed : Feed) (client : Client) : Prop where
  taken : ∃ first count, client.taken.map (some ∘ patchOf) = (feed.changes first count).map feed.patch
  header : client.lastEventId ≠ [] → client.lastId = some client.lastEventId
  query : client.lastEventId = [] → client.query = client.lastId

theorem Current.source {client : Client} (current : Current feed client) (session : Session) : Current feed (client.source session) := by
  unfold Client.source
  split
  · exact ⟨current.taken, fun some => absurd rfl some, fun _ => rfl⟩
  · exact current

theorem Current.token {client : Client} (current : Current feed client) : client.token = decodeResumeToken client.lastId := by
  unfold Client.token Client.header
  split
  · rename_i empty
    rw [Option.none_or, current.query empty]
  · rename_i some
    rw [Option.some_or, current.header some]

/-- The last event taken resumes at its change. -/
theorem last_resumes (identified : feed.Identified) {taken : List StreamEvent} {first count : Nat}
    (stretch : taken.map (some ∘ patchOf) = (feed.changes first count).map feed.patch) {e : StreamEvent}
    (last : taken.getLast? = some e) :
    ∃ i token, (feed.changes first count).getLast? = some i ∧ decodeResumeToken (some e.lastEventId) = some token ∧
      feed.place token = i := by
  have ends := congrArg List.getLast? stretch
  rw [List.getLast?_map, List.getLast?_map, last] at ends
  obtain ⟨i, lastChange, patch⟩ := Option.map_eq_some_iff.mp ends.symm
  obtain ⟨-, matched, -⟩ := changes_last lastChange
  obtain ⟨fields, token⟩ := identified.document i matched
  obtain ⟨frame, framed⟩ := frameFor_matched matched
  rw [Feed.patch, framed, token] at patch
  exact ⟨i, (Json.obj fields).value, lastChange, (congrArg Patch.resume (Option.some.inj patch)).symm,
    identified.place i matched _ token⟩

theorem Current.start (identified : feed.Identified) {client : Client} (current : Current feed client) {first count : Nat}
    (taken : client.taken.map (some ∘ patchOf) = (feed.changes first count).map feed.patch) {e : StreamEvent}
    (last : client.taken.getLast? = some e) (session : Session) :
    ∃ i, (feed.changes first count).getLast? = some i ∧ (feed.opening client session).start = i + 1 := by
  obtain ⟨i, token, lastChange, resume, place⟩ := last_resumes identified taken last
  have asked : client.token = some token := by rw [current.token, Client.lastId, last, Option.map_some, resume]
  refine ⟨i, lastChange, ?_⟩
  rw [Opening.start, Feed.opening, asked]
  show feed.place token + 1 = i + 1
  rw [place]

theorem connect_taken (identified : feed.Identified) {client : Client} (current : Current feed client) (session : Session)
    (resumes : feed.Resumes client session) :
    ∃ first count, (feed.connect client session).taken.map (some ∘ patchOf) = (feed.changes first count).map feed.patch ∧
      (feed.UpToDate (feed.opening (client.source session) session) session →
        (run (step (feed.opening (client.source session) session)) (feed.opening (client.source session) session).initial
          session.events).position = first + count) := by
  have source := current.source session
  obtain ⟨n, arrived, upTo⟩ := @received_gapless feed identified (feed.opening (client.source session) session) rfl session resumes
    (client.source session).lastEventId
  obtain ⟨first, count, taken⟩ := source.taken
  have joined : (feed.connect client session).taken.map (some ∘ patchOf) = (feed.changes first count).map feed.patch ++
      (feed.changes (feed.opening (client.source session) session).start n).map feed.patch := by
    rw [← taken, ← arrived]
    exact List.map_append
  cases last : (client.source session).taken.getLast? with
  | none =>
    refine ⟨(feed.opening (client.source session) session).start, n, ?_, upTo⟩
    rw [joined, ← taken, List.getLast?_eq_none_iff.mp last]
    rfl
  | some e =>
    obtain ⟨i, lastChange, start⟩ := source.start identified taken last session
    obtain ⟨low, -, stretch⟩ := changes_last lastChange
    have seam : first + (i + 1 - first) = i + 1 := by omega
    refine ⟨first, i + 1 - first + n, ?_, fun upToDate => ?_⟩
    · rw [joined, stretch, start, ← changes_append, seam, List.map_append]
    · rw [upTo upToDate, start]
      omega

theorem connect_current (identified : feed.Identified) (client : Client) (session : Session) (current : Current feed client)
    (resumes : feed.Resumes client session) : Current feed (feed.connect client session) := by
  obtain ⟨first, count, taken, -⟩ := connect_taken identified current session resumes
  have source := current.source session
  generalize arrived : received (client.source session).lastEventId
    ((bodyOf (feed.body (feed.opening (client.source session) session) session.events)).take session.arrived) = events
  have after : feed.connect client session =
      { client.source session with
        lastEventId := (events.getLast?.map StreamEvent.lastEventId).getD (client.source session).lastEventId
        taken := (client.source session).taken ++ events } := by
    rw [← arrived]
    rfl
  cases last : events.getLast? with
  | none =>
    have none := List.getLast?_eq_none_iff.mp last
    rw [after, none, List.append_nil]
    exact source
  | some e =>
    have ends : (feed.connect client session).taken.getLast? = some e := by
      rw [after]
      show ((client.source session).taken ++ events).getLast? = some e
      rw [List.getLast?_append, last, Option.some_or]
    have id : (feed.connect client session).lastEventId = e.lastEventId := by
      rw [after, last]
      rfl
    have lastId : (feed.connect client session).lastId = some e.lastEventId := by rw [Client.lastId, ends, Option.map_some]
    have named : e.lastEventId ≠ [] := by
      intro empty
      obtain ⟨i, token, -, resume, -⟩ := last_resumes identified taken ends
      rw [empty] at resume
      cases resume
    exact ⟨⟨first, count, taken⟩, fun _ => by rw [lastId, id], fun empty => absurd (id.symm.trans empty) named⟩

theorem initial_current : Current feed Client.initial :=
  ⟨⟨0, 0, rfl⟩, fun some => absurd rfl some, fun _ => rfl⟩

/-- Over any connections, broken off at any byte, a client has taken the tenant's changes from the first one
it got on, in order, each once and none left out; and once its last connection reads and all of it has
arrived, up to where the deployment has been read. -/
theorem client_misses_nothing (identified : feed.Identified) (sessions : List Session) (session : Session)
    (resumes : Along feed.connect feed.Resumes Client.initial (sessions ++ [session])) :
    ∃ first count,
      (run feed.connect Client.initial (sessions ++ [session])).taken.map (some ∘ patchOf) =
        (feed.changes first count).map feed.patch ∧
      let source := (run feed.connect Client.initial sessions).source session
      let o := feed.opening source session
      (feed.UpToDate o session → (run (step o) o.initial session.events).position = first + count) := by
  obtain ⟨earlier, now⟩ := (along_append feed.connect feed.Resumes Client.initial sessions [session]).mp resumes
  have current := run_invariant_along (connect_current identified) initial_current earlier
  rw [run_append]
  exact connect_taken identified current session now.1

/-- A log of messages alone. -/
def plainFeed : Feed where
  organizationId := "org_default"
  change := fun i =>
    { organizationId := "org_default", operationType := "insert", updatedFields := [], document := .messages (.str "hi"),
      clusterTime := none, token := some (.obj [("_data", .num i)]) }
  renders := fun _ => true
  clock := fun _ => 0
  place
    | .obj [(_, .num d)] => d.digits
    | _ => 0

theorem plainFeed_identified : plainFeed.Identified where
  document := fun i _ => ⟨_, rfl⟩
  place := by
    intro i _ token found
    cases found
    exact Int.natAbs_natCast i

/-- Two changes are read, and the second breaks off on the way. -/
def brokenOff : Session :=
  ⟨true, none, some 3, 0, [.opened true, .watch 0, .change 0 true true, .saved true, .change 0 true false, .streamFails], 100⟩

def backAgain : Session := ⟨false, some 9, some 9, 0, [.opened true, .watch 0, .change 0 true true], 200⟩

theorem client_misses_nothing_back :
    ∃ first count,
      (run plainFeed.connect Client.initial ([brokenOff] ++ [backAgain])).taken.map (some ∘ patchOf) =
        (plainFeed.changes first count).map plainFeed.patch ∧
      let source := (run plainFeed.connect Client.initial [brokenOff]).source backAgain
      let o := plainFeed.opening source backAgain
      (plainFeed.UpToDate o backAgain → (run (step o) o.initial backAgain.events).position = first + count) :=
  client_misses_nothing plainFeed_identified [brokenOff] backAgain
    ⟨⟨trivial, fun _ => rfl, trivial, trivial, trivial, trivial, trivial⟩, ⟨trivial, fun _ => rfl, trivial, trivial⟩, trivial⟩

end GroupButler.Live
