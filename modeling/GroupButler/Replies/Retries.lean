import GroupButler.Replies.Generation
import GroupButler.Tools.Confined

/-!
# A change and the attempts of its job

Neither a write call nor its executor looks at what an earlier attempt of the job has done: the send it
creates is keyed by the row it has just staged. So a job's changes are made by one attempt only when an attempt
begins while no other attempt of the job can still act, and none has changed anything.
-/

namespace GroupButler.Replies.Generation
open Foundation Store Sends Actions Ai Tools

/-! ### What can still act, or has -/

/-- An attempt that is running, or a call of it that has acted or still may. -/
def Alive (askings : List Asking) (calls : List Call) (scope : AgentReplyScope) (generation : Nat × Nat) : Prop :=
  (∃ asking, askings[generation.1]? = some asking ∧ asking.outcome = none ∧ asking.scope = scope ∧
    asking.attempt = generation.2) ∨
  ∃ call ∈ calls, call.write.scope = scope ∧ call.write.generation = generation ∧
    (call.executed = true ∨ call.acting = true)

/-- Every job has one such attempt at most. -/
def Single (askings : List Asking) (calls : List Call) : Prop :=
  ∀ scope first second, Alive askings calls scope first → Alive askings calls scope second → first = second

/-- No other asking of the job runs, and none of its calls has acted or still may. -/
def Clear (s : State) (scope : AgentReplyScope) (index : Nat) : Prop :=
  (∀ call ∈ s.calls, call.write.scope = scope → call.executed = false ∧ call.acting = false) ∧
  ∀ other < s.askings.length, other ≠ index → ∀ asking ∈ s.askings[other]?, asking.scope = scope → asking.outcome ≠ none

instance (s : State) (scope : AgentReplyScope) (index : Nat) : Decidable (Clear s scope index) := by
  unfold Clear
  infer_instance

section
variable {askings : List Asking} {calls : List Call} {scope : AgentReplyScope} {generation : Nat × Nat} {index : Nat}

theorem alive_set {asking next : Asking} (found : askings[index]? = some asking)
    (alive : Alive (askings.set index next) calls scope generation) :
    Alive askings calls scope generation ∧ (generation.1 = index → ∃ call ∈ calls, call.write.scope = scope ∧
        (call.executed = true ∨ call.acting = true)) ∨
      next.outcome = none ∧ next.scope = scope ∧ generation = (index, next.attempt) := by
  obtain ⟨other, present, running, of, attempt⟩ | ⟨call, member, of, made, acts⟩ := alive
  · by_cases same : index = generation.1
    · have there := List.getElem?_set_self (a := next) (List.getElem?_eq_some_iff.mp found).1
      rw [← same, there] at present
      obtain rfl := Option.some.inj present
      exact Or.inr ⟨running, of, Prod.ext same.symm attempt.symm⟩
    · rw [List.getElem?_set_ne same] at present
      exact Or.inl ⟨Or.inl ⟨other, present, running, of, attempt⟩, fun equal => (same equal.symm).elim⟩
  · exact Or.inl ⟨Or.inr ⟨call, member, of, made, acts⟩, fun _ => ⟨call, member, of, acts⟩⟩

theorem alive_opened {asking : Asking} (alive : Alive (askings ++ [asking]) calls scope generation) :
    Alive askings calls scope generation ∨
      asking.outcome = none ∧ asking.scope = scope ∧ generation = (askings.length, asking.attempt) := by
  obtain ⟨other, present, running, of, attempt⟩ | calling := alive
  · rcases Nat.lt_or_ge generation.1 askings.length with old | new
    · rw [List.getElem?_append_left old] at present
      exact Or.inl (Or.inl ⟨other, present, running, of, attempt⟩)
    · rw [List.getElem?_append_right new, List.getElem?_singleton] at present
      split at present
      · obtain rfl := Option.some.inj present
        exact Or.inr ⟨running, of, Prod.ext (by omega) attempt.symm⟩
      · cases present
  · exact Or.inl (Or.inr calling)

theorem alive_wrote {write : Write} {asking : Asking} (found : askings[write.asking]? = some asking)
    (running : asking.outcome = none) (of : asking.scope = write.scope) (attempt : asking.attempt = write.attempt)
    (alive : Alive askings (calls ++ [⟨write, .called, none, false⟩]) scope generation) :
    Alive askings calls scope generation := by
  obtain asked | ⟨call, member, job, made, acts⟩ := alive
  · exact Or.inl asked
  · rcases List.mem_append.mp member with old | new
    · exact Or.inr ⟨call, old, job, made, acts⟩
    · -- the attempt that made the call is running
      obtain rfl := List.mem_singleton.mp new
      obtain rfl : write.generation = generation := made
      exact Or.inl ⟨asking, found, running, of.trans job, attempt⟩

theorem alive_advanced {call next : Call} (found : calls[index]? = some call) (acting : call.acting = true)
    (same : next.write = call.write) (alive : Alive askings (calls.set index next) scope generation) :
    Alive askings calls scope generation := by
  obtain asked | ⟨other, member, job, made, acts⟩ := alive
  · exact Or.inl asked
  · rcases List.mem_or_eq_of_mem_set member with old | rfl
    · exact Or.inr ⟨other, old, job, made, acts⟩
    · exact Or.inr ⟨call, List.mem_of_getElem? found, same ▸ job, same ▸ made, Or.inr acting⟩

end

section
variable {s : State} {scope : AgentReplyScope} {index : Nat} {generation : Nat × Nat}

theorem clear_idle (clear : Clear s scope index) :
    ¬ ∃ call ∈ s.calls, call.write.scope = scope ∧ (call.executed = true ∨ call.acting = true) := by
  rintro ⟨call, member, job, acts⟩
  obtain ⟨unexecuted, idle⟩ := clear.1 call member job
  rw [unexecuted, idle] at acts
  simp at acts

/-- In a clear job nothing is alive but the asking itself. -/
theorem clear_alive (clear : Clear s scope index) (alive : Alive s.askings s.calls scope generation) :
    generation.1 = index ∧ index < s.askings.length := by
  obtain ⟨asking, present, running, of, _⟩ | ⟨call, member, job, _, acts⟩ := alive
  · have inside := (List.getElem?_eq_some_iff.mp present).1
    have same : generation.1 = index := by
      by_contra different
      exact clear.2 _ inside different asking present of running
    exact ⟨same, same ▸ inside⟩
  · exact (clear_idle clear ⟨call, member, job, acts⟩).elim

end

section
variable (inbox : AgentReplyScope → Option Commands.DirectMessage)
variable [Runtime] [Normalization] [Datetimes] [DateStrings]

/-! ### Beginning -/

/-- The asking goes on with another attempt. -/
def retried (s : State) (index : Nat) (change : Asking → Asking) : Option (AgentReplyScope × Nat) :=
  s.askings[index]?.bind fun asking =>
    if asking.outcome.isNone && (change asking).outcome.isNone then some (asking.scope, index) else none

omit [Runtime] [Datetimes] [DateStrings] in
/-- The job and the asking of the attempt that a step begins. -/
def begins (s : State) : Event → Option (AgentReplyScope × Nat)
  | .ask callback chatKind authorizedJids evidence =>
    (s.opening inbox callback chatKind authorizedJids evidence).map fun asking => (asking.scope, s.askings.length)
  | .answer index text elapsedMs => retried s index fun asking => asking.answer text elapsedMs
  | .fail index isProtocol => retried s index fun asking => asking.fail isProtocol
  | _ => none

omit [Runtime] [Datetimes] [DateStrings] in
/-- An attempt begins only in a clear job. -/
def Fresh (s : State) (e : Event) : Prop := ∀ begun ∈ begins inbox s e, Clear s begun.1 begun.2

omit [Runtime] [Datetimes] [DateStrings] in
instance (s : State) (e : Event) : Decidable (Fresh inbox s e) := by
  unfold Fresh
  infer_instance

/-! ### What a step does to the attempts -/

/-- The askings and the calls after a step. -/
inductive Attempts (s : State) (e : Event) : List Asking → List Call → Prop
  | same : Attempts s e s.askings s.calls
  | opened {asking : Asking} : (asking.outcome = none → begins inbox s e = some (asking.scope, s.askings.length)) →
      Attempts s e (s.askings ++ [asking]) s.calls
  | changed {index : Nat} {asking next : Asking} : s.askings[index]? = some asking → asking.outcome = none →
      next.scope = asking.scope →
      (next.outcome = none → next.attempt = asking.attempt ∨ begins inbox s e = some (asking.scope, index)) →
      Attempts s e (s.askings.set index next) s.calls
  | wrote {index : Nat} {name : StagedGroupWriteToolName} {input : Json} {now : Time} {write : Write} :
      e = .tool index name input now → s.writing index name input now = some write →
      Attempts s e s.askings (s.calls ++ [⟨write, .called, none, false⟩])
  | advanced {index : Nat} {call next : Call} : s.calls[index]? = some call → call.acting = true →
      next.write = call.write → Attempts s e s.askings (s.calls.set index next)

omit [Runtime] [Normalization] [DateStrings] in
theorem act_attempts (s : State) (index : Nat) (call : Call) (action : CallAction) :
    (act inbox s index call action).askings = s.askings ∧
      ((act inbox s index call action).calls = s.calls ∨
        ∃ next : Call, (act inbox s index call action).calls = s.calls.set index next ∧ next.write = call.write) := by
  cases action with
  | stage id shortId now =>
    simp only [act]
    split
    · exact ⟨rfl, Or.inr ⟨_, rfl, rfl⟩⟩
    · exact ⟨rfl, Or.inl rfl⟩
  | decide now =>
    simp only [act]
    split
    · split
      · split
        · exact ⟨rfl, Or.inr ⟨_, rfl, rfl⟩⟩
        · exact ⟨rfl, Or.inr ⟨_, rfl, rfl⟩⟩
      · exact ⟨rfl, Or.inl rfl⟩
    · exact ⟨rfl, Or.inl rfl⟩
  | execute action =>
    simp only [act]
    split
    · exact ⟨rfl, Or.inr ⟨_, rfl, rfl⟩⟩
    · exact ⟨rfl, Or.inl rfl⟩
  | answer => exact ⟨rfl, Or.inr ⟨_, rfl, rfl⟩⟩

omit [Runtime] [Normalization] [Datetimes] [DateStrings] in
theorem retried_some {s : State} {index : Nat} {change : Asking → Asking} {asking : Asking}
    (found : s.askings[index]? = some asking) (running : asking.outcome = none) (still : (change asking).outcome = none) :
    retried s index change = some (asking.scope, index) := by
  simp [retried, found, running, still]

omit [Runtime] [Datetimes] [DateStrings] in
theorem answer_scope (asking : Asking) (text : String) (elapsedMs : Int) :
    (asking.answer text elapsedMs).scope = asking.scope := by
  unfold Asking.answer
  split
  · rfl
  · split <;> rfl

omit [Runtime] [Normalization] [Datetimes] [DateStrings] in
theorem fail_scope (asking : Asking) (isProtocol : Bool) : (asking.fail isProtocol).scope = asking.scope := by
  unfold Asking.fail
  split <;> rfl

theorem commands_attempts (s : State) (e : Commands.Event) :
    Attempts inbox s (.commands e) (step inbox s (.commands e)).askings (step inbox s (.commands e)).calls := by
  simp only [step]
  split
  · split <;> exact .same
  · exact .same
  · split <;> exact .same
  · split <;> exact .same
  · split
    · exact .same
    · rename_i asking known
      refine .opened fun running => ?_
      -- the text of an acknowledgement is there at once
      unfold State.acknowledgement at known
      split at known
      · cases known
      · split at known
        · obtain rfl := Option.some.inj known
          cases running
        · cases known
  · exact .same

theorem step_attempts (s : State) (e : Event) : Attempts inbox s e (step inbox s e).askings (step inbox s e).calls := by
  cases e with
  | commands e => exact commands_attempts inbox s e
  | groups groups => exact .same
  | ask callback chatKind authorizedJids evidence =>
    simp only [step]
    split
    · exact .same
    · rename_i asking opening
      exact .opened fun _ => by simp [begins, opening]
  | shown index text =>
    simp only [step]
    split
    · exact .same
    · rename_i asking found
      split
      · rename_i running
        exact .changed found (Option.isNone_iff_eq_none.mp running) rfl fun _ => Or.inl rfl
      · exact .same
  | tool index name input now =>
    simp only [step]
    split
    · exact .same
    · rename_i write wrote
      exact .wrote rfl wrote
  | call index action =>
    simp only [step]
    split
    · exact .same
    · rename_i call found
      split
      · rename_i acting
        obtain ⟨askings, same | ⟨next, changed, write⟩⟩ := act_attempts inbox s index call action
        · rw [askings, same]
          exact .same
        · rw [askings, changed]
          exact .advanced found acting write
      · exact .same
  | answer index text elapsedMs =>
    simp only [step]
    split
    · exact .same
    · rename_i asking found
      split
      · rename_i running
        have running := Option.isNone_iff_eq_none.mp running
        exact .changed found running (answer_scope asking text elapsedMs) fun still =>
          Or.inr (retried_some found running still)
      · exact .same
  | fail index isProtocol =>
    simp only [step]
    split
    · exact .same
    · rename_i asking found
      split
      · rename_i running
        have running := Option.isNone_iff_eq_none.mp running
        exact .changed found running (fail_scope asking isProtocol) fun still => Or.inr (retried_some found running still)
      · exact .same
  | send index memoryBatchIds memoryFactIds objectId id =>
    simp only [step]
    split
    · exact .same
    · split <;> exact .same
  | review index objectId id =>
    simp only [step]
    split
    · exact .same
    · split <;> exact .same

/-! ### One attempt a job -/

omit [Datetimes] in
theorem writing_attempt {s : State} {index : Nat} {name : StagedGroupWriteToolName} {input : Json} {now : Time} {write : Write}
    (wrote : s.writing index name input now = some write) : ∃ asking, s.askings[write.asking]? = some asking ∧
      asking.outcome = none ∧ asking.scope = write.scope ∧ asking.attempt = write.attempt := by
  obtain ⟨asking, found, wrote⟩ := Option.bind_eq_some_iff.mp wrote
  obtain ⟨groupJid, -, wrote⟩ := Option.bind_eq_some_iff.mp wrote
  obtain ⟨staged, -, wrote⟩ := Option.bind_eq_some_iff.mp wrote
  split at wrote
  · rename_i running
    obtain rfl := Option.some.inj wrote
    exact ⟨asking, found, Option.isNone_iff_eq_none.mp running, rfl, rfl⟩
  · cases wrote

theorem single_step (s : State) (e : Event) (single : Single s.askings s.calls) (fresh : Fresh inbox s e) :
    Single (step inbox s e).askings (step inbox s e).calls := by
  have attempts := step_attempts inbox s e
  generalize (step inbox s e).askings = askings, (step inbox s e).calls = calls at attempts ⊢
  intro scope first second firstAlive secondAlive
  cases attempts with
  | same => exact single scope first second firstAlive secondAlive
  | @opened asking begun =>
    have cleared (running : asking.outcome = none) : Clear s asking.scope s.askings.length := fresh _ (begun running)
    rcases alive_opened firstAlive with first_ | ⟨running, rfl, rfl⟩
    · rcases alive_opened secondAlive with second_ | ⟨running, rfl, rfl⟩
      · exact single scope first second first_ second_
      · exact absurd (clear_alive (cleared running) first_).2 (Nat.lt_irrefl _)
    · rcases alive_opened secondAlive with second_ | ⟨_, _, rfl⟩
      · exact absurd (clear_alive (cleared running) second_).2 (Nat.lt_irrefl _)
      · rfl
  | @changed index asking next found running of begun =>
    have kept (still : next.outcome = none) (job : next.scope = scope) :
        Alive s.askings s.calls scope (index, next.attempt) ∨ Clear s scope index := by
      rcases begun still with same | begins
      · exact Or.inl (Or.inl ⟨asking, found, running, of.symm.trans job, same.symm⟩)
      · have clear : Clear s asking.scope index := fresh _ begins
        exact Or.inr (of.symm.trans job ▸ clear)
    have dead {generation : Nat × Nat} (clear : Clear s scope index) (old : Alive s.askings s.calls scope generation)
        (called : generation.1 = index → ∃ call ∈ s.calls, call.write.scope = scope ∧
          (call.executed = true ∨ call.acting = true)) : False :=
      clear_idle clear (called (clear_alive clear old).1)
    rcases alive_set found firstAlive with ⟨first_, called⟩ | ⟨still, job, rfl⟩
    · rcases alive_set found secondAlive with ⟨second_, _⟩ | ⟨still, job, rfl⟩
      · exact single scope first second first_ second_
      · rcases kept still job with second_ | clear
        · exact single scope _ _ first_ second_
        · exact (dead clear first_ called).elim
    · rcases alive_set found secondAlive with ⟨second_, called⟩ | ⟨_, _, rfl⟩
      · rcases kept still job with first_ | clear
        · exact single scope _ _ first_ second_
        · exact (dead clear second_ called).elim
      · rfl
  | wrote _ wrote =>
    obtain ⟨asking, found, running, of, attempt⟩ := writing_attempt wrote
    exact single scope first second (alive_wrote found running of attempt firstAlive)
      (alive_wrote found running of attempt secondAlive)
  | advanced found acting same =>
    exact single scope first second (alive_advanced found acting same firstAlive) (alive_advanced found acting same secondAlive)

/-! ### The messages of one attempt -/

/-- The group and the text of a message. -/
def Write.message (write : Write) : Option (String × String) :=
  if write.name = .groupSend then (stringField write.staged.params "text").map fun text => (write.groupJid, text) else none

/-- A change of the second write is not one the first has asked for. -/
def Write.Apart (first second : Write) : Prop := ∀ message ∈ second.message, first.message ≠ some message

instance (first second : Write) : Decidable (first.Apart second) :=
  inferInstanceAs (Decidable (∀ message ∈ second.message, first.message ≠ some message))

omit [Datetimes] in
/-- The model does not ask for the same message twice in one attempt. -/
def Distinct (s : State) : Event → Prop
  | .tool index name input now => ∀ write ∈ s.writing index name input now, ∀ call ∈ s.calls,
      call.write.generation = write.generation → call.write.Apart write
  | _ => True

omit [Datetimes] in
instance (s : State) : (e : Event) → Decidable (Distinct s e)
  | .tool index name input now => inferInstanceAs (Decidable (∀ write ∈ s.writing index name input now, ∀ call ∈ s.calls,
      call.write.generation = write.generation → call.write.Apart write))
  | .commands _ | .groups _ | .ask _ _ _ _ | .shown _ _ | .call _ _ | .answer _ _ _ | .fail _ _ | .send _ _ _ _ _
  | .review _ _ _ => .isTrue trivial

/-- The calls of each attempt ask for different messages. -/
def Apart (calls : List Call) : Prop :=
  (calls.map Call.write).Pairwise fun first second => first.generation = second.generation → first.Apart second

theorem apart_step (s : State) (e : Event) (apart : Apart s.calls) (distinct : Distinct s e) : Apart (step inbox s e).calls := by
  have attempts := step_attempts inbox s e
  generalize (step inbox s e).askings = askings, (step inbox s e).calls = calls at attempts ⊢
  cases attempts with
  | same | opened _ | changed _ _ _ _ => exact apart
  | @wrote index name input now write asked wrote =>
    subst asked
    show ((s.calls ++ [_]).map Call.write).Pairwise _
    rw [List.map_append, List.map_singleton]
    refine List.pairwise_append.mpr ⟨apart, List.pairwise_singleton _ _, ?_⟩
    intro first member second new generation
    obtain ⟨call, present, rfl⟩ := List.mem_map.mp member
    obtain rfl := List.mem_singleton.mp new
    exact distinct second wrote call present generation
  | @advanced index call next found _ same =>
    show ((s.calls.set index next).map Call.write).Pairwise _
    rw [map_set_same found same]
    exact apart

/-! ### The result -/

/-- The same change of the same job: one tool, one group, the same parameters. -/
def Write.Repeats (first second : Write) : Prop :=
  first.scope = second.scope ∧ first.name = second.name ∧ first.groupJid = second.groupJid ∧
    first.staged.params = second.staged.params

/-- What was executed in one attempt of a job is executed in no other. -/
def Unrepeated (s : State) : Prop :=
  ∀ first ∈ s.calls, ∀ second ∈ s.calls, first.executed = true → second.executed = true →
    first.write.Repeats second.write → first.write.generation = second.write.generation

/-- No job has put the same text into a group twice. -/
def SentOnce (s : State) : Prop :=
  (s.calls.filter Call.executed).Pairwise fun first second =>
    first.write.scope = second.write.scope → first.write.Apart second.write

omit [Runtime] [Normalization] [Datetimes] [DateStrings] in
instance (s : State) : Decidable (SentOnce s) := by
  unfold SentOnce
  infer_instance

omit [Runtime] [Normalization] [Datetimes] [DateStrings] in
theorem single_executed {askings : List Asking} {calls : List Call} (single : Single askings calls) {first second : Call}
    (firstMember : first ∈ calls) (secondMember : second ∈ calls) (firstDone : first.executed = true)
    (secondDone : second.executed = true) (job : first.write.scope = second.write.scope) :
    first.write.generation = second.write.generation :=
  single second.write.scope _ _ (Or.inr ⟨first, firstMember, job, rfl, Or.inl firstDone⟩)
    (Or.inr ⟨second, secondMember, rfl, rfl, Or.inl secondDone⟩)

end

/-! ### A message that is posted again -/

def groupJob : AgentReplyScope := ⟨"o", "i", "1@g.us", "M"⟩

/-- A callback claims the run of a group job, and asks. -/
def asking : List Event :=
  [.groups [⟨"o", "i", "1@g.us", some "Team", true, true⟩], .commands (.replies (.call groupJob)),
    .commands (.replies (.readClock 0)), .commands (.replies (.claim 0)), .commands (.replies (.claim 0)),
    .ask 0 .group ["2@s.whatsapp.net"] ["say hello in the group"]]

/-- The attempt that runs posts a message, from the tool call to its answer. -/
def posting (text : String) (index : Nat) (id sendId : String) : List Event :=
  [.tool 0 .groupSend (.obj [("text", .str text)]) 10, .call index (.stage id id 11), .call index (.decide 12),
    .call index (.execute (.claim 13)), .call index (.execute .begin), .call index (.execute (.create index sendId 14)),
    .call index (.execute .readBack), .call index (.execute (.settle 15)), .call index .answer]

/-- Then it answers with a tool call written as text, and is asked again. -/
def markup : Event := .answer 0 "<|tool|>" 1000

def runPlain (events : List Event) : State :=
  letI := asciiRuntime
  letI := asciiNormalization
  letI : Datetimes := ⟨fun _ => none⟩
  letI : DateStrings := ⟨fun _ => none⟩
  run (step fun _ => none) (start [] 0) events

def onlyText : Json → Option String
  | .obj [(key, .str text)] => if key = "text" then some text else none
  | _ => none

theorem onlyText_some {params : Json} {text : String} (read : onlyText params = some text) :
    params = .obj [("text", .str text)] := by
  unfold onlyText at read
  split at read
  · split at read
    · rename_i named
      obtain rfl := Option.some.inj read
      rw [named]
    · cases read
  · cases read

end GroupButler.Replies.Generation
