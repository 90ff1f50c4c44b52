import GroupButler.Foundation.Run
import Mathlib.Data.List.Basic

/-!
# The live stream

One connection of the live channel: it tails the tenant's changes, hands each to the client as a
frame, and persists how far it got, now and then and once more when it closes. A connection without
a token of its own resumes where the tenant's row says.
-/

namespace GroupButler.Live
open Foundation

/-! ### Changes -/

/-- One entry of the change log. -/
structure Change where
  organizationId : String
  coll : String
  /-- The change carries its `_id`, which is its resume token. -/
  identified : Bool := true
  /-- `frameFor` and `JSON.stringify` complete on it. -/
  renders : Bool := true
  deriving DecidableEq, Repr

def watched : List String := ["messages", "groups", "sendRequests", "instances"]

/-- What a connection is opened with. A resume token is the place of its change in the log, and so is
a cluster time. -/
structure Opening where
  organizationId : String
  log : Nat → Change
  /-- `clientToken ?? persisted` -/
  resume : Option Nat
  /-- The cluster time of the probe. -/
  startAt : Option Nat
  /-- Where a stream without either point starts. -/
  now : Nat

/-- The pipeline's `$match`. -/
def Opening.matched (o : Opening) (i : Nat) : Bool :=
  watched.contains (o.log i).coll && (o.log i).organizationId == o.organizationId

/-- Where the connection's first stream starts: after the token, or at the cluster time. -/
def Opening.start (o : Opening) : Nat := ((o.resume.map (· + 1)).or o.startAt).getD o.now

/-- The next change of a stream that has read up to `position` is `gap` entries further. -/
def Opening.arrives (o : Opening) (position gap : Nat) : Bool :=
  o.matched (position + gap) && (List.range gap).all fun j => !o.matched (position + j)

/-! ### The connection -/

/-- Where the body stands: `opening` before its first chunk, `loop` at the head of the attempt loop,
`reading` at the next change, `saving` in the awaited save, `closing` after the loop. -/
inductive Phase where
  | opening | loop | reading | saving | closing | done
  deriving DecidableEq, Repr

structure Connection where
  phase : Phase
  attempt : Nat
  closed : Bool
  delivered : Bool
  pending : Option Nat
  /-- What the open change stream has read. -/
  position : Nat
  /-- The changes whose frames the controller took. -/
  enqueued : List Nat
  /-- The tenant's row, as this connection wrote it. -/
  cursor : Option Nat
  deriving Repr

def Opening.initial (o : Opening) : Connection where
  phase := .opening
  attempt := 0
  closed := false
  delivered := false
  pending := none
  position := o.start
  enqueued := []
  cursor := none

/-- What happens next. `taken` says whether the controller takes the chunk, `due` whether the last save
is long enough ago, `written` whether the row is. -/
inductive Event where
  | opened (taken : Bool)
  | watch (now : Nat)
  | change (gap : Nat) (taken due : Bool)
  | saved (written : Bool)
  | streamEnds
  | streamFails
  | abort
  | heartbeat (taken : Bool)
  | finish (written : Bool)
  deriving DecidableEq, Repr

/-- `send(chunk)`: a controller that does not take a chunk closes the connection. -/
def Connection.send (s : Connection) (taken : Bool) : Connection := if taken then s else { s with closed := true }

/-- The `catch` around an attempt: one more is made when the first read nothing after a token. -/
def Connection.caught (s : Connection) (o : Opening) : Connection :=
  if s.closed then { s with phase := .closing }
  else if s.attempt = 0 ∧ o.resume.isSome ∧ s.delivered = false then { s with attempt := 1, phase := .loop }
  else { s with phase := .closing }

/-- The throttled save. -/
def Connection.saves (s : Connection) (due : Bool) : Connection :=
  if s.pending.isSome && due then { s with phase := .saving } else s

/-- The body of `for await`, for the change at `i`. -/
def Connection.read (s : Connection) (o : Opening) (i : Nat) (taken due : Bool) : Connection :=
  let seen := { s with
    delivered := true
    position := i + 1
    pending := if (o.log i).identified then some i else s.pending }
  if !(o.log i).renders then seen.caught o
  else
    let sent := if taken then { seen with enqueued := seen.enqueued ++ [i] } else seen
    (sent.send taken).saves due

/-- Where the next attempt's stream starts. -/
def Connection.opensAt (s : Connection) (o : Opening) (now : Nat) : Nat :=
  if s.attempt = 0 then o.start else o.startAt.getD now

def step (o : Opening) (s : Connection) : Event → Connection
  | .opened taken => if s.phase = .opening then { s.send taken with phase := .loop } else s
  | .watch now =>
    if s.phase = .loop then
      if s.closed = false ∧ s.attempt < 2 then { s with position := s.opensAt o now, phase := .reading }
      else { s with phase := .closing }
    else s
  | .change gap taken due =>
    if s.phase = .reading ∧ o.arrives s.position gap then
      if s.closed then { s with phase := .closing } else s.read o (s.position + gap) taken due
    else s
  | .saved written =>
    if s.phase = .saving then { s with cursor := if written then s.pending else s.cursor, phase := .reading } else s
  | .streamEnds => if s.phase = .reading then { s with phase := .closing } else s
  | .streamFails => if s.phase = .loop ∨ s.phase = .reading then s.caught o else s
  | .abort => { s with closed := true }
  | .heartbeat taken => if s.phase = .done ∨ s.closed then s else s.send taken
  | .finish written =>
    if s.phase = .closing then
      { s with cursor := if written ∧ s.pending.isSome then s.pending else s.cursor, phase := .done }
    else s

/-- The persisted token is past no change, from where the connection started, whose frame it did not
enqueue. -/
def Caught (o : Opening) (s : Connection) : Prop :=
  ∀ token, s.cursor = some token → ∀ i, o.start ≤ i → i ≤ token → o.matched i = true → i ∈ s.enqueued

/-- A later connection without a token of its own. -/
def Opening.later (o : Opening) (token : Nat) : Opening := { o with resume := some token }

/-- What this connection did not enqueue, a later one that resumes from the row still reads. -/
def Receives (o : Opening) (s : Connection) : Prop :=
  ∀ token, s.cursor = some token → ∀ i, o.start ≤ i → o.matched i = true → i ∉ s.enqueued → (o.later token).start ≤ i

/-- The frame of a change that is read is built and taken, and a second attempt passes over no change. -/
def Delivers (o : Opening) (s : Connection) : Event → Prop
  | .change gap taken _ => s.phase = .reading → s.closed = false → o.arrives s.position gap = true →
    (o.log (s.position + gap)).renders = true ∧ taken = true
  | .watch now => s.phase = .loop → s.closed = false → ∀ i < s.opensAt o now, o.start ≤ i → o.matched i = false
  | _ => True

/-! ### What the connection has read, it has enqueued -/

structure Sound (o : Opening) (s : Connection) : Prop where
  behind : ∀ i, o.start ≤ i → i < s.position → o.matched i = true → i ∈ s.enqueued
  pending : ∀ token, s.pending = some token → token < s.position
  cursor : ∀ token, s.cursor = some token → token < s.position
  taken : ∀ i ∈ s.enqueued, i < s.position
  fresh : s.delivered = false → s.pending = none ∧ s.cursor = none ∧ s.enqueued = []
  retry : s.phase = .opening ∨ s.phase = .loop → s.delivered = false

theorem initial_sound (o : Opening) : Sound o o.initial where
  behind := fun i first read => absurd first (Nat.not_le.mpr read)
  pending := fun _ none => by cases none
  cursor := fun _ none => by cases none
  taken := fun _ member => by cases member
  fresh := fun _ => ⟨rfl, rfl, rfl⟩
  retry := fun _ => rfl

/-- A step that moves only the phase and the flags. -/
theorem Sound.moved {o : Opening} {s t : Connection} (sound : Sound o s) (position : t.position = s.position)
    (enqueued : t.enqueued = s.enqueued) (pending : t.pending = s.pending) (cursor : t.cursor = s.cursor)
    (delivered : t.delivered = s.delivered)
    (retry : t.phase = .opening ∨ t.phase = .loop → s.delivered = false) : Sound o t where
  behind := by rw [position, enqueued]; exact sound.behind
  pending := by rw [position, pending]; exact sound.pending
  cursor := by rw [position, cursor]; exact sound.cursor
  taken := by rw [position, enqueued]; exact sound.taken
  fresh := by rw [delivered, pending, cursor, enqueued]; exact sound.fresh
  retry := by rw [delivered]; exact retry

theorem Sound.send {o : Opening} {s : Connection} (sound : Sound o s) (taken : Bool) : Sound o (s.send taken) := by
  unfold Connection.send
  split
  · exact sound
  · exact sound.moved rfl rfl rfl rfl rfl sound.retry

theorem Sound.caught {o : Opening} {s : Connection} (sound : Sound o s) : Sound o (s.caught o) := by
  unfold Connection.caught
  split
  · exact sound.moved rfl rfl rfl rfl rfl fun again => by simp at again
  · split
    · rename_i again
      exact sound.moved rfl rfl rfl rfl rfl fun _ => again.2.2
    · exact sound.moved rfl rfl rfl rfl rfl fun again => by simp at again

theorem Sound.saves {o : Opening} {s : Connection} (sound : Sound o s) (due : Bool) : Sound o (s.saves due) := by
  unfold Connection.saves
  split
  · exact sound.moved rfl rfl rfl rfl rfl fun again => by simp at again
  · exact sound

/-- A save writes a token the stream has read. -/
theorem Sound.written {o : Opening} {s t : Connection} (sound : Sound o s) (position : t.position = s.position)
    (enqueued : t.enqueued = s.enqueued) (pending : t.pending = s.pending) (cursor : t.cursor = s.cursor ∨ t.cursor = s.pending)
    (delivered : t.delivered = s.delivered) (elsewhere : t.phase ≠ .opening ∧ t.phase ≠ .loop) : Sound o t where
  behind := by rw [position, enqueued]; exact sound.behind
  pending := by rw [position, pending]; exact sound.pending
  cursor := by
    rw [position]
    rcases cursor with kept | saved
    · rw [kept]; exact sound.cursor
    · rw [saved]; exact sound.pending
  taken := by rw [position, enqueued]; exact sound.taken
  fresh := by
    rw [delivered, pending, enqueued]
    intro never
    obtain ⟨pendingNone, cursorNone, none⟩ := sound.fresh never
    rcases cursor with kept | saved
    · exact ⟨pendingNone, by rw [kept, cursorNone], none⟩
    · exact ⟨pendingNone, by rw [saved, pendingNone], none⟩
  retry := fun again => absurd again (by simp [elsewhere])

/-- The stream passes over nothing of the tenant on its way to the next change. -/
theorem arrives_between {o : Opening} {position gap i : Nat} (arrives : o.arrives position gap = true)
    (low : position ≤ i) (high : i < position + gap) : o.matched i = false := by
  simp only [Opening.arrives, Bool.and_eq_true, List.all_eq_true, List.mem_range, Bool.not_eq_true'] at arrives
  have passed := arrives.2 (i - position) (by omega)
  rwa [Nat.add_sub_cancel' low] at passed

theorem Sound.read {o : Opening} {s : Connection} {gap : Nat} (sound : Sound o s)
    (arrives : o.arrives s.position gap = true) (renders : (o.log (s.position + gap)).renders = true)
    (reading : s.phase = .reading) (due : Bool) : Sound o (s.read o (s.position + gap) true due) := by
  have sent : Sound o { s with
      delivered := true
      position := s.position + gap + 1
      pending := if (o.log (s.position + gap)).identified then some (s.position + gap) else s.pending
      enqueued := s.enqueued ++ [s.position + gap] } := by
    refine ⟨?_, ?_, ?_, ?_, fun never => (by cases never), fun again => (by simp [reading] at again)⟩
    · intro i first read matched
      rcases Nat.lt_or_ge i s.position with old | new
      · exact List.mem_append_left _ (sound.behind i first old matched)
      · rcases Nat.lt_or_ge i (s.position + gap) with passed | here
        · rw [arrives_between arrives new passed] at matched
          cases matched
        · obtain rfl : i = s.position + gap := by
            have : i < s.position + gap + 1 := read
            omega
          exact List.mem_append_right _ List.mem_cons_self
    · intro token pending
      dsimp only at pending ⊢
      split at pending
      · cases pending
        exact Nat.lt_succ_self _
      · have := sound.pending token pending
        omega
    · intro token cursor
      have := sound.cursor token cursor
      dsimp only
      omega
    · intro i member
      rcases List.mem_append.mp member with earlier | here
      · have := sound.taken i earlier
        dsimp only
        omega
      · rw [List.mem_singleton.mp here]
        exact Nat.lt_succ_self _
  have lively : ¬ (!(o.log (s.position + gap)).renders) = true := by simp [renders]
  simp only [Connection.read, if_neg lively, if_true]
  exact (sent.send true).saves due

theorem step_sound {o : Opening} (s : Connection) (e : Event) (sound : Sound o s) (delivers : Delivers o s e) :
    Sound o (step o s e) := by
  cases e with
  | opened taken =>
    simp only [step]
    split
    · rename_i opening
      have same := sound.send taken
      refine same.moved rfl rfl rfl rfl rfl fun _ => ?_
      unfold Connection.send
      split
      · exact sound.retry (Or.inl opening)
      · exact sound.retry (Or.inl opening)
    · exact sound
  | watch now =>
    simp only [step]
    split
    · rename_i atLoop
      split
      · rename_i open_
        have fresh := sound.retry (Or.inr atLoop)
        obtain ⟨pendingNone, cursorNone, enqueuedNone⟩ := sound.fresh fresh
        refine ⟨?_, ?_, ?_, ?_, fun _ => ⟨pendingNone, cursorNone, enqueuedNone⟩, fun again => by simp at again⟩
        · intro i first read matched
          rw [delivers atLoop open_.1 i read first] at matched
          cases matched
        · intro token pending
          rw [show s.pending = some token from pending] at pendingNone
          cases pendingNone
        · intro token cursor
          rw [show s.cursor = some token from cursor] at cursorNone
          cases cursorNone
        · intro i member
          rw [show s.enqueued = [] from enqueuedNone] at member
          cases member
      · exact sound.moved rfl rfl rfl rfl rfl fun again => by simp at again
    · exact sound
  | change gap taken due =>
    simp only [step]
    split
    · rename_i reads
      split
      · exact sound.moved rfl rfl rfl rfl rfl fun again => by simp at again
      · rename_i open_
        obtain ⟨renders, rfl⟩ := delivers reads.1 (by simpa using open_) reads.2
        exact sound.read reads.2 renders reads.1 due
    · exact sound
  | saved written =>
    simp only [step]
    split
    · refine sound.written rfl rfl rfl ?_ rfl ⟨by simp, by simp⟩
      cases written
      · exact Or.inl rfl
      · exact Or.inr rfl
    · exact sound
  | streamEnds =>
    simp only [step]
    split
    · exact sound.moved rfl rfl rfl rfl rfl fun again => by simp at again
    · exact sound
  | streamFails =>
    simp only [step]
    split
    · exact sound.caught
    · exact sound
  | abort => exact sound.moved rfl rfl rfl rfl rfl sound.retry
  | heartbeat taken =>
    simp only [step]
    split
    · exact sound
    · exact sound.send taken
  | finish written =>
    simp only [step]
    split
    · refine sound.written rfl rfl rfl ?_ rfl ⟨by simp, by simp⟩
      by_cases saves : written = true ∧ s.pending.isSome = true
      · exact Or.inr (if_pos saves)
      · exact Or.inl (if_neg saves)
    · exact sound

theorem Sound.caughtUp {o : Opening} {s : Connection} (sound : Sound o s) : Caught o s := by
  intro token cursor i first upTo matched
  exact sound.behind i first (Nat.lt_of_le_of_lt upTo (sound.cursor token cursor)) matched

theorem Caught.receives {o : Opening} {s : Connection} (caught : Caught o s) : Receives o s := by
  intro token cursor i first matched missed
  by_contra before
  refine missed (caught token cursor i first ?_ matched)
  have start : (o.later token).start = token + 1 := rfl
  omega

/-- While frames are built and taken, and no second attempt skips a change, the tenant's row never
passes a change the connection did not enqueue. -/
theorem cursor_behind_frames (o : Opening) (events : List Event) (delivers : Along (step o) (Delivers o) o.initial events)
    (n : Nat) : Caught o (run (step o) o.initial (events.take n)) ∧ Receives o (run (step o) o.initial (events.take n)) := by
  have sound := run_invariant_along step_sound (initial_sound o) (along_take delivers n)
  exact ⟨sound.caughtUp, sound.caughtUp.receives⟩

/-- A frame the controller refuses is passed over as soon as the row is written once more. -/
theorem refused_frame_passed {o : Opening} {s : Connection} (sound : Sound o s) {gap : Nat} (reading : s.phase = .reading)
    (isOpen : s.closed = false) (ahead : o.start ≤ s.position + gap) (arrives : o.arrives s.position gap = true)
    (identified : (o.log (s.position + gap)).identified = true) (renders : (o.log (s.position + gap)).renders = true) :
    ¬ Caught o (run (step o) s [.change gap false false, .streamEnds, .finish true]) := by
  have matched : o.matched (s.position + gap) = true := by
    simp only [Opening.arrives, Bool.and_eq_true] at arrives
    exact arrives.1
  have fresh : s.position + gap ∉ s.enqueued := by
    intro member
    have := sound.taken _ member
    omega
  intro caught
  have passed : ∀ i, o.start ≤ i → i ≤ s.position + gap → o.matched i = true → i ∈ s.enqueued := by
    simpa [step, reading, isOpen, arrives, Connection.read, Connection.send, Connection.saves, identified, renders] using
      caught (s.position + gap)
  exact fresh (passed _ ahead (Nat.le_refl _) matched)

/-- The first change of a tenant, whose frame a cancelled client's controller no longer takes. -/
def cancelled : Opening where
  organizationId := "org_default"
  log := fun _ => { organizationId := "org_default", coll := "messages" }
  resume := none
  startAt := some 7
  now := 0

def cancelledRun : List Event := [.opened true, .watch 0, .change 0 false true, .saved true, .abort, .streamFails, .finish true]

theorem cursor_passes_frame :
    ¬ (Caught cancelled (run (step cancelled) cancelled.initial cancelledRun) ∧
      Receives cancelled (run (step cancelled) cancelled.initial cancelledRun)) := by
  rintro ⟨caught, -⟩
  exact absurd (caught 7 (by decide) 7 (by decide) (by decide) (by decide)) (by decide)

theorem cursor_behind_frames_delivered :
    Caught cancelled (run (step cancelled) cancelled.initial
        ([.opened true, .watch 0, .change 0 true true, .saved true, .abort, .streamFails, .finish true].take 7)) ∧
      Receives cancelled (run (step cancelled) cancelled.initial
        ([.opened true, .watch 0, .change 0 true true, .saved true, .abort, .streamFails, .finish true].take 7)) :=
  cursor_behind_frames cancelled [.opened true, .watch 0, .change 0 true true, .saved true, .abort, .streamFails, .finish true]
    ⟨trivial, fun _ _ => by decide, fun _ _ _ => ⟨rfl, rfl⟩, trivial, trivial, trivial, trivial, trivial⟩ 7

end GroupButler.Live
