import Mathlib.Data.List.Induction
import GroupButler.Memory.Callback

/-!
# What the batch callback answers and stores

A request that answers that its batch is complete has left it complete with its one summary. Every summary of
the store was put there for a request that carried the secret: with the model's own words, or empty, and then
because the group was no longer eligible or a message was revoked.
-/

namespace GroupButler.Memory.Callback
open Foundation Store Ingest

/-! ### Whose session a step is about -/

def sessionOf : Memory.Event → Option Nat
  | .load caller _ _ | .readGroup caller | .claimWork caller _ | .renewWork caller _ | .releaseWork caller _
  | .complete caller _ _ | .resolveAuthorizationRevoked caller _ | .stopSession caller => some caller
  | _ => none

theorem session_other {s : Memory.State} {actor caller : Nat} (next : Session) (other : caller ≠ actor) :
    (s.session actor next).sessions caller = s.sessions caller := by
  simp [State.session, other]

theorem session_same (s : Memory.State) (caller : Nat) (next : Session) : (s.session caller next).sessions caller = next := by
  simp [State.session]

theorem step_session_other (s : Memory.State) {event : Memory.Event} {caller : Nat} (other : sessionOf event ≠ some caller) :
    (Memory.step s event).sessions caller = s.sessions caller := by
  have apart {actor : Nat} (named : sessionOf event = some actor) : caller ≠ actor := fun same => other (same ▸ named)
  cases event with
  | load actor id now =>
    simp only [Memory.step]
    split <;> exact session_other _ (apart rfl)
  | readGroup actor =>
    simp only [Memory.step]
    split
    · split
      · rfl
      · exact session_other _ (apart rfl)
    · rfl
  | claimWork actor now =>
    simp only [Memory.step]
    split
    · split
      · exact session_other _ (apart rfl)
      · split <;> exact session_other _ (apart rfl)
    · rfl
  | stopSession actor => exact session_other _ (apart rfl)
  | complete actor output now => rw [(complete_framed s actor output now).sessions]
  | resolveAuthorizationRevoked actor now => rw [(authorization_framed s actor now).sessions]
  | resolveRevoked id now => rw [Memory.step, (resolveRevoked_framed s id now).sessions]
  | _ =>
    simp only [Memory.step, State.build, State.write]
    repeat' split
    all_goals rfl

/-! ### Completed batches -/

def Finished (s : Memory.State) (id : Nat) : Prop := ∃ batch ∈ s.batches, batch.id = id ∧ batch.state = .complete

theorem step_finished {s : Memory.State} (lifecycle : Lifecycle s) (event : Memory.Event) {id : Nat} (finished : Finished s id) :
    Finished (Memory.step s event) id := by
  obtain ⟨batch, stored, named, done⟩ := finished
  obtain ⟨next, present, move⟩ := step_next lifecycle.numbered event stored
  obtain rfl := move.absorbed (Or.inl done)
  exact ⟨next, present, named, done⟩

theorem complete_finished {batches : List Batch} (unique : (batches.map Batch.id).Nodup) {id leaseToken summaryId : Nat}
    {scope : GroupKey} {workToken : Option Nat} {now : Time}
    (hits : (BatchWrite.complete scope leaseToken workToken now summaryId).hits id batches = true) :
    ∃ batch ∈ (BatchWrite.complete scope leaseToken workToken now summaryId).apply id batches, batch.id = id ∧
      batch.state = .complete := by
  obtain ⟨batch, stored, named, matched⟩ := hits_iff.mp hits
  refine ⟨_, ?_, (change_id (.complete scope leaseToken workToken now summaryId) batch).trans named, rfl⟩
  rw [apply_eq_map unique]
  refine List.mem_map.mpr ⟨batch, stored, ?_⟩
  rw [BatchWrite.at, if_pos (by rw [named, matched, beq_self_eq_true]; rfl)]

theorem insertSummary_finished {s next : Memory.State} (lifecycle : Lifecycle s) {batch : Batch} {leaseToken redactions : Nat}
    {workToken : Option Nat} {text : String} {now : Time}
    (inserted : insertSummary s batch leaseToken workToken text redactions now = some next) : Finished next batch.id := by
  obtain ⟨hits, rfl⟩ := insertSummary_some inserted
  exact complete_finished lifecycle.numbered.unique hits

theorem completeMemoryBatch_finished {s : Memory.State} (lifecycle : Lifecycle s) {batch : Batch} {lease : Lease} {token : Nat}
    {output : String} {now : Time} (kept : (completeMemoryBatch s batch lease token output now).2 ≠ .lostLease) :
    Finished (completeMemoryBatch s batch lease token output now).1 batch.id := by
  unfold completeMemoryBatch at kept ⊢
  cases found : s.summaries.find? fun summary => summary.scope == batch.scope && summary.batchId == batch.id with
  | some existing =>
    rw [found] at kept
    dsimp only at kept ⊢
    split at kept
    · rename_i current
      rw [if_pos current]
      obtain ⟨stored, read, done⟩ := (Option.any_eq_true _ _).mp current
      have named := List.find?_some read
      simp only [Bool.and_eq_true, beq_iff_eq] at named done
      exact ⟨stored, List.mem_of_find?_eq_some read, named.1, done.1⟩
    · rename_i current
      rw [if_neg current]
      split at kept
      · rename_i hits
        exact complete_finished lifecycle.numbered.unique hits
      · exact absurd rfl kept
  | none =>
    rw [found] at kept
    dsimp only at kept ⊢
    split at kept
    · rename_i group work eligible claimed
      split at kept
      · rename_i current
        split at kept
        · rename_i next inserted
          rw [if_pos current]
          obtain ⟨hits, rfl⟩ := insertSummary_some inserted
          exact complete_finished lifecycle.numbered.unique hits
        · exact absurd rfl kept
      · exact absurd rfl kept
    · exact absurd rfl kept

theorem authorizationRevoked_finished {s : Memory.State} (lifecycle : Lifecycle s) {batch : Batch} {workToken : Option Nat}
    {now : Time} (resolved : (authorizationRevoked s batch workToken now).isSome = true) :
    Finished (resolveAuthorizationRevokedMemoryBatch s batch workToken now) batch.id := by
  obtain ⟨next, revoked⟩ := Option.isSome_iff_exists.mp resolved
  rw [authorizationRevoked_eq, revoked, Option.getD_some]
  unfold authorizationRevoked at revoked
  split at revoked
  · split at revoked
    · cases revoked
    · exact insertSummary_finished lifecycle revoked
  · cases revoked

theorem sourcesRevoked_finished {s : Memory.State} (lifecycle : Lifecycle s) {id : Nat} {now : Time}
    (resolved : (sourcesRevoked s id now).isSome = true) : Finished (resolveRevokedMemoryBatch s id now) id := by
  obtain ⟨next, revoked⟩ := Option.isSome_iff_exists.mp resolved
  rw [sourcesRevoked_eq, revoked, Option.getD_some]
  unfold sourcesRevoked at revoked
  split at revoked
  · cases revoked
  · rename_i batch found
    have named := List.find?_some found
    simp only [Bool.and_eq_true, beq_iff_eq] at named
    split at revoked
    · cases revoked
    · split at revoked
      · exact named.1.1 ▸ insertSummary_finished lifecycle revoked
      · cases revoked

/-! ### What a request's own steps do to its session -/

theorem put_same (s : State) (caller : Nat) (request : Request) : (s.put caller request).requests caller = request := by
  simp [State.put]

theorem put_other (s : State) {caller other : Nat} (request : Request) (apart : other ≠ caller) :
    (s.put caller request).requests other = s.requests other := by
  simp [State.put, apart]

theorem load_session {s : Memory.State} {caller id : Nat} {now : Time} {batch : Batch} {messages : List MessageRow}
    (loaded : loadedOf s id now = .batch batch messages) :
    (Memory.step s (.load caller id now)).sessions caller = .loaded batch ∧ batch.id = id := by
  have read : loadMemoryBatch s id now = some batch := by rw [loadMemoryBatch_eq, loaded]
  refine ⟨by rw [Memory.step, read]; exact session_same .., ?_⟩
  unfold loadedOf at loaded
  split at loaded
  · cases loaded
  · rename_i stored found
    have named := List.find?_some found
    simp only [Bool.and_eq_true, beq_iff_eq] at named
    dsimp only at loaded
    split_ifs at loaded
    obtain ⟨rfl, _⟩ := Loaded.batch.inj loaded
    exact named.1.1

theorem readGroup_session {s : Memory.State} {caller : Nat} {batch : Batch} {group : Config.GroupDoc}
    (held : s.sessions caller = .loaded batch) (found : eligibleRow s batch.scope = some group) :
    (Memory.step s (.readGroup caller)).sessions caller = .eligible batch group.config.version := by
  simp only [Memory.step, held, found]
  exact session_same ..

theorem claimWork_session {s : Memory.State} {caller : Nat} {now : Time} {batch : Batch} {lease : Lease} {version : Int}
    (held : s.sessions caller = .eligible batch version) (leased : batch.lease = some lease)
    (hits : (BatchWrite.claimWork batch.scope lease.token now
      ⟨s.fresh, min lease.expiresAt (now + summaryWorkLease), version⟩).hits batch.id s.batches = true) :
    (Memory.step s (.claimWork caller now)).sessions caller = .working batch s.fresh := by
  simp only [Memory.step, held, leased, hits, if_true]
  exact session_same ..

theorem renewWork_sessions (s : Memory.State) (caller : Nat) (now : Time) :
    (Memory.step s (.renewWork caller now)).sessions = s.sessions := by
  simp only [Memory.step]
  repeat' split
  all_goals rfl

/-! ### What the store has for a request -/

def Working (session : Session) (id : Nat) : Prop := ∃ batch token, session = .working batch token ∧ batch.id = id

section
variable (posted : Nat → Prop) (heard : Nat → String → Prop)

/-- Where a request's output comes from, or its batch is finished. -/
def Said (store : Memory.State) (id : Nat) : Option String → Prop
  | none => Finished store id
  | some text => heard id text

def Stage.Fits (store : Memory.State) (session : Session) (id : Nat) : Stage → Prop
  | .waiting | .loading | .catching _ | .releasing _ | .redacting _ | .crashed => True
  | .authorizing | .resolvingLoaded | .claiming => ∃ batch, session = .loaded batch ∧ batch.id = id
  | .taking version => ∃ batch, session = .eligible batch version ∧ batch.id = id
  | .looking | .rereading | .resolving _ | .summarizing | .checking => Working session id
  | .settling output | .completing output => Working session id ∧ Said heard store id output
  | .answered answer => answer = complete → Finished store id

/-- A request past its checks was posted, and the store has what its stage says. -/
structure Request.Fits (store : Memory.State) (session : Session) (request : Request) : Prop where
  posted : request.stage = .waiting ∨ (∃ answer, request.stage = .answered answer ∧ answer ≠ complete) ∨ posted request.id
  stage : request.stage.Fits heard store session request.id

def State.Fits (s : State) (caller : Nat) : Prop :=
  (s.requests caller).Fits posted heard s.store (s.store.sessions caller)

variable {posted heard}

theorem Stage.Fits.mono {store next : Memory.State} {session : Session} {id : Nat} {stage : Stage}
    (fits : stage.Fits heard store session id) (later : Finished store id → Finished next id) :
    stage.Fits heard next session id := by
  cases stage with
  | settling output | completing output =>
    refine ⟨fits.1, ?_⟩
    cases output with
    | none => exact later fits.2
    | some text => exact fits.2
  | answered answer => exact fun done => later (fits done)
  | _ => exact fits

theorem Request.Fits.mono {store next : Memory.State} {session : Session} {request : Request}
    (fits : request.Fits posted heard store session) (later : ∀ id, Finished store id → Finished next id) :
    request.Fits posted heard next session := ⟨fits.posted, fits.stage.mono (later _)⟩

theorem Request.Fits.begun {store : Memory.State} {session : Session} {request : Request}
    (fits : request.Fits posted heard store session) (active : request.stage ≠ .waiting)
    (open_ : ∀ answer, request.stage ≠ .answered answer) : posted request.id := by
  rcases fits.posted with waiting | ⟨answer, answered, _⟩ | posted
  · exact absurd waiting active
  · exact absurd answered (open_ answer)
  · exact posted

theorem fits_put {s : State} {caller : Nat} {request : Request} (begun : posted request.id)
    (fits : request.stage.Fits heard s.store (s.store.sessions caller) request.id) : (s.put caller request).Fits posted heard caller := by
  rw [State.Fits, put_same]
  exact ⟨Or.inr (Or.inr begun), fits⟩

/-- A request that goes to a stage the store fits. -/
theorem fits_to {s : State} {caller : Nat} (begun : posted (s.requests caller).id) {stage : Stage}
    (fits : stage.Fits heard s.store (s.store.sessions caller) (s.requests caller).id) :
    (s.to caller stage).Fits posted heard caller := fits_put begun fits

theorem unfinished {store : Memory.State} {session : Session} {id : Nat} {answer : Answer} (other : answer ≠ complete) :
    (Stage.answered answer).Fits heard store session id := fun same => absurd same other

theorem refusal_ne_complete (error : Thrown) : refusal error ≠ complete := by
  unfold refusal
  split
  · decide
  · split
    · split <;> decide
    · decide

variable {s : State} {caller : Nat} (begun : posted (s.requests caller).id)
include begun

theorem refuse_fits (error : Thrown) : (s.refuse caller error).Fits posted heard caller := by
  unfold State.refuse
  split
  · exact fits_to begun trivial
  · exact fits_to begun (unfinished (refusal_ne_complete error))

theorem read_fits (call : Call) {next : State} (fits : next.Fits posted heard caller) :
    (s.read caller call next).Fits posted heard caller := by
  unfold State.read
  split
  · exact fits
  · exact fits_to begun trivial
  · exact fits_to begun trivial

theorem load_fits (now : Time) : (s.load caller now).Fits posted heard caller := by
  unfold State.load
  dsimp only
  split
  · exact @fits_to _ _ (s.send _) _ begun _ (unfinished (by decide))
  · exact @fits_to _ _ (s.send _) _ begun _ trivial
  · rename_i batch messages loaded
    refine @fits_put _ _ (s.send _) _ _ begun ?_
    exact ⟨batch, load_session loaded⟩

theorem authorize_fits {batch : Batch} (held : s.store.sessions caller = .loaded batch) (named : batch.id = (s.requests caller).id) :
    (s.authorize caller batch).Fits posted heard caller := by
  unfold State.authorize
  split
  · split
    · exact fits_to begun (unfinished (by decide))
    · exact fits_to begun ⟨batch, held, named⟩
  · exact fits_to begun ⟨batch, held, named⟩

theorem resolveLoaded_fits {batch : Batch} (lifecycle : Lifecycle s.store) (held : s.store.sessions caller = .loaded batch)
    (named : batch.id = (s.requests caller).id) (call : Call) (now : Time) :
    (s.resolveLoaded caller batch call now).Fits posted heard caller := by
  unfold State.resolveLoaded
  dsimp only
  split
  · split
    · rename_i resolved
      refine @fits_to _ _ (s.send _) _ begun _ fun _ => ?_
      have finished := authorizationRevoked_finished lifecycle resolved
      rw [named] at finished
      simpa only [State.send, Memory.step, held] using finished
    · exact @fits_to _ _ (s.send _) _ begun _ (unfinished (by decide))
  · exact @fits_to _ _ (s.send _) _ begun _ (unfinished (by decide))
  · exact fits_to begun (unfinished (by decide))

theorem claim_fits {batch : Batch} (held : s.store.sessions caller = .loaded batch) (named : batch.id = (s.requests caller).id) :
    (s.claim caller batch).Fits posted heard caller := by
  unfold State.claim
  split
  · rename_i lease group _ found
    exact @fits_to _ _ (s.send _) _ begun _ ⟨batch, readGroup_session held found, named⟩
  · exact fits_to begun (unfinished (by decide))

theorem take_fits {batch : Batch} {lease : Lease} {version : Int} (held : s.store.sessions caller = .eligible batch version)
    (leased : batch.lease = some lease) (named : batch.id = (s.requests caller).id) (call : Call) (now : Time) :
    (s.take caller batch lease version call now).Fits posted heard caller := by
  unfold State.take
  dsimp only
  split
  · split
    · rename_i hits
      exact @fits_put _ _ (s.send _) _ _ begun ⟨batch, _, claimWork_session held leased hits, named⟩
    · exact @fits_to _ _ (s.send _) _ begun _ (unfinished (by decide))
  · exact @fits_to _ _ ((s.send _).send _) _ begun _ trivial
  · exact fits_to begun trivial

theorem reread_fits {batch : Batch} (working : Working (s.store.sessions caller) (s.requests caller).id) :
    (s.reread caller batch).Fits posted heard caller := by
  unfold State.reread
  split
  · exact fits_to begun working
  · split
    · exact fits_to begun working
    · split
      · exact fits_to begun trivial
      · exact fits_to begun working

theorem resolve_fits {batch : Batch} {token : Nat} (lifecycle : Lifecycle s.store)
    (held : s.store.sessions caller = .working batch token) (named : batch.id = (s.requests caller).id) (completed : Bool)
    (call : Call) (now : Time) : (s.resolve caller batch token completed call now).Fits posted heard caller := by
  unfold State.resolve
  dsimp only
  split
  · split
    · rename_i resolved
      refine @fits_to _ _ (s.send _) _ begun _ fun _ => ?_
      have finished := authorizationRevoked_finished lifecycle resolved
      rw [named] at finished
      simpa only [State.send, Memory.step, held] using finished
    · exact @fits_to _ _ (s.send _) _ begun _ trivial
  · exact @fits_to _ _ (s.send _) _ begun _ trivial
  · exact fits_to begun trivial

theorem complete_fits {batch : Batch} {lease : Lease} {token : Nat} (lifecycle : Lifecycle s.store)
    (held : s.store.sessions caller = .working batch token) (leased : batch.lease = some lease)
    (named : batch.id = (s.requests caller).id) (output : Option String) (call : Call) (now : Time) :
    (s.complete caller batch lease token output call now).Fits posted heard caller := by
  have sent : (s.send (.complete caller (output.getD "") now)).store =
      (completeMemoryBatch s.store batch lease token (output.getD "") now).1 := by
    simp only [State.send, Memory.step, held, leased]
  have working (store : Memory.State) (kept : store.sessions = s.store.sessions) :
      Working (store.sessions caller) (s.requests caller).id := ⟨batch, token, by rw [kept, held], named⟩
  have lost (t : State) (requests : t.requests = s.requests) (kept : t.store.sessions = s.store.sessions) :
      (t.to caller (completedStage output .lostLease)).Fits posted heard caller := by
    refine fits_to (by rw [requests]; exact begun) ?_
    cases output with
    | none => exact unfinished (by decide)
    | some text => exact requests ▸ working t.store kept
  unfold State.complete
  dsimp only
  split
  · refine @fits_to _ _ (s.send _) _ begun _ ?_
    by_cases kept : (completeMemoryBatch s.store batch lease token (output.getD "") now).2 = .lostLease
    · rw [kept]
      cases output with
      | none => exact unfinished (by decide)
      | some text => exact working _ (complete_framed ..).sessions
    · have finished := completeMemoryBatch_finished lifecycle kept
      rw [named, ← sent] at finished
      unfold completedStage
      split
      · exact fun _ => finished
      · split
        · exact fun _ => finished
        · exact working _ (complete_framed ..).sessions
  · exact lost (s.send _) rfl (complete_framed ..).sessions
  · exact lost s rfl rfl

theorem release_fits (error : Thrown) (call : Call) (now : Time) : (s.release caller error call now).Fits posted heard caller := by
  unfold State.release
  dsimp only
  split
  · exact @refuse_fits _ _ (s.send _) _ begun _
  · exact @fits_to _ _ (s.send _) _ begun _ trivial
  · exact fits_to begun trivial

theorem redact_fits (lifecycle : Lifecycle s.store) (error : Thrown) (call : Call) (now : Time) :
    (s.redact caller error call now).Fits posted heard caller := by
  unfold State.redact
  dsimp only
  split
  · split
    · rename_i resolved
      exact @fits_to _ _ (s.send _) _ begun _ fun _ => sourcesRevoked_finished lifecycle resolved
    · exact @fits_to _ _ (s.send _) _ begun _ (unfinished (refusal_ne_complete error))
  · exact @fits_to _ _ (s.send _) _ begun _ (unfinished (refusal_ne_complete error))
  · exact fits_to begun (unfinished (refusal_ne_complete error))

end

section
variable {posted : Nat → Prop} {heard : Nat → String → Prop} {s : State} {caller : Nat}

theorem turn_fits (lifecycle : Lifecycle s.store) (fits : s.Fits posted heard caller) (call : Call) (now : Time) :
    (s.turn caller call now).Fits posted heard caller := by
  have begun {stage : Stage} (at_ : (s.requests caller).stage = stage) (active : stage ≠ .waiting)
      (open_ : ∀ answer, stage ≠ .answered answer) : posted (s.requests caller).id :=
    fits.begun (by rw [at_]; exact active) (by rw [at_]; exact open_)
  have link := fits.stage
  unfold State.turn
  dsimp only
  split
  · rename_i at_
    have begun := begun at_ nofun nofun
    exact read_fits begun call (load_fits begun now)
  · rename_i batch at_ held
    have begun := begun at_ nofun nofun
    rw [at_, held] at link
    obtain ⟨_, same, named⟩ := link
    obtain rfl := Session.loaded.inj same
    exact read_fits begun call (authorize_fits begun held named)
  · rename_i batch at_ held
    rw [at_, held] at link
    obtain ⟨_, same, named⟩ := link
    obtain rfl := Session.loaded.inj same
    exact resolveLoaded_fits (begun at_ nofun nofun) lifecycle held named call now
  · rename_i batch at_ held
    have begun := begun at_ nofun nofun
    rw [at_, held] at link
    obtain ⟨_, same, named⟩ := link
    obtain rfl := Session.loaded.inj same
    exact read_fits begun call (claim_fits begun held named)
  · rename_i version batch read at_ held
    rw [at_, held] at link
    obtain ⟨_, same, named⟩ := link
    obtain ⟨rfl, rfl⟩ := Session.eligible.inj same
    split
    · exact fits
    · rename_i lease leased
      exact take_fits (begun at_ nofun nofun) held leased named call now
  · rename_i batch token at_ held
    have begun := begun at_ nofun nofun
    rw [at_] at link
    refine read_fits begun call (fits_to begun ?_)
    split
    · rename_i present
      refine ⟨link, ?_⟩
      obtain ⟨summary, member, same⟩ := List.any_eq_true.mp present
      simp only [Bool.and_eq_true, beq_iff_eq] at same
      obtain ⟨stored, storedMember, record⟩ := lifecycle.recorded.owned summary member
      obtain ⟨working, _, session, named⟩ := link
      obtain ⟨rfl, _⟩ := Session.working.inj (held.symm.trans session)
      exact ⟨stored, storedMember, record.id.symm.trans (same.2.trans named), record.complete⟩
    · exact link
  · rename_i batch token at_ held
    have begun := begun at_ nofun nofun
    rw [at_] at link
    exact read_fits begun call (reread_fits begun link)
  · rename_i completed batch token at_ held
    rw [at_, held] at link
    obtain ⟨_, _, same, named⟩ := link
    obtain ⟨rfl, _⟩ := Session.working.inj same
    exact resolve_fits (begun at_ nofun nofun) lifecycle held named completed call now
  · rename_i output at_
    have begun := begun at_ nofun nofun
    rw [at_] at link
    split
    · exact fits
    · split
      · exact fits_to begun trivial
      · exact fits_to begun link
  · rename_i output batch token at_ held
    rw [at_, held] at link
    obtain ⟨⟨_, _, same, named⟩, _⟩ := link
    obtain ⟨rfl, _⟩ := Session.working.inj same
    split
    · exact fits
    · rename_i lease leased
      exact complete_fits (begun at_ nofun nofun) lifecycle held leased named output call now
  · rename_i batch token at_ held
    have begun := begun at_ nofun nofun
    rw [at_] at link
    refine read_fits begun call (fits_to begun ?_)
    split
    · trivial
    · exact link
  · rename_i error at_
    have begun := begun at_ nofun nofun
    split
    · exact fits
    · split
      · exact fits_to begun trivial
      · exact refuse_fits begun error
  · rename_i error batch token at_ held
    exact release_fits (begun at_ nofun nofun) error call now
  · rename_i error at_
    exact redact_fits (begun at_ nofun nofun) lifecycle error call now
  · exact fits

/-- A step of the store that keeps the session and a change to the request that keeps its stage. -/
theorem fits_kept (lifecycle : Lifecycle s.store) (fits : s.Fits posted heard caller) {event : Memory.Event} {request : Request}
    (kept : (Memory.step s.store event).sessions caller = s.store.sessions caller) (stage : request.stage = (s.requests caller).stage)
    (id : request.id = (s.requests caller).id) : ((s.send event).put caller request).Fits posted heard caller := by
  have later : ∀ id, Finished s.store id → Finished (Memory.step s.store event) id := fun _ => step_finished lifecycle event
  have next := Request.Fits.mono fits later
  rw [State.Fits, put_same]
  refine ⟨by rw [stage, id]; exact next.posted, ?_⟩
  rw [stage, id]
  show Stage.Fits heard (Memory.step s.store event) ((Memory.step s.store event).sessions caller) _ _
  rw [kept]
  exact next.stage

theorem fits_same (fits : s.Fits posted heard caller) {request : Request} (stage : request.stage = (s.requests caller).stage)
    (id : request.id = (s.requests caller).id) : (s.put caller request).Fits posted heard caller := by
  rw [State.Fits, put_same]
  exact ⟨by rw [stage, id]; exact fits.posted, by rw [stage, id]; exact fits.stage⟩

theorem renew_fits (lifecycle : Lifecycle s.store) (fits : s.Fits posted heard caller) (call : Call) (now : Time) :
    (s.renew caller call now).Fits posted heard caller := by
  have kept : (Memory.step s.store (.renewWork caller now)).sessions caller = s.store.sessions caller :=
    congrFun (renewWork_sessions ..) caller
  unfold State.renew
  dsimp only
  split
  · split
    · split
      · split
        · exact fits_kept lifecycle fits kept rfl rfl
        · exact fits_kept lifecycle fits kept rfl rfl
      · exact fits_same fits rfl rfl
      · exact fits_same fits rfl rfl
    · exact fits
  · exact fits

end

/-! ### Steps of others -/

def Event.caller : Event → Option Nat
  | .store _ => none
  | .post caller _ _ | .turn caller _ _ | .model caller _ | .tick caller | .renew caller _ _ | .land caller _
  | .watchdog caller _ | .disconnect caller => some caller

/-- Changes to no request and no session but the actor's. -/
inductive Local (actor : Option Nat) (s : State) : State → Prop where
  | same : Local actor s s
  | send {t : State} {event : Memory.Event} (local_ : Local actor s t)
    (own : ∀ caller, sessionOf event = some caller → actor = some caller) : Local actor s (t.send event)
  | put {t : State} {caller : Nat} {request : Request} (local_ : Local actor s t) (own : actor = some caller) :
    Local actor s (t.put caller request)

theorem Local.other {actor : Option Nat} {s t : State} (local_ : Local actor s t) {caller : Nat} (apart : actor ≠ some caller) :
    t.requests caller = s.requests caller ∧ t.store.sessions caller = s.store.sessions caller := by
  induction local_ with
  | same => exact ⟨rfl, rfl⟩
  | send _ own ih => exact ⟨ih.1, (step_session_other _ fun named => apart (own caller named)).trans ih.2⟩
  | put _ own ih => exact ⟨(put_other _ _ fun same => apart (own.trans (congrArg some same.symm))).trans ih.1, ih.2⟩

theorem Local.lifecycle {actor : Option Nat} {s t : State} (local_ : Local actor s t) (lifecycle : Lifecycle s.store) :
    Lifecycle t.store := by
  induction local_ with
  | same => exact lifecycle
  | send _ own ih => exact step_lifecycle _ ih
  | put _ own ih => exact ih

theorem Local.finished {actor : Option Nat} {s t : State} (local_ : Local actor s t) (lifecycle : Lifecycle s.store) {id : Nat}
    (finished : Finished s.store id) : Finished t.store id := by
  induction local_ with
  | same => exact finished
  | send before own ih => exact step_finished (before.lifecycle lifecycle) _ ih
  | put _ own ih => exact ih

theorem turn_local (s : State) (caller : Nat) (call : Call) (now : Time) : Local (some caller) s (s.turn caller call now) := by
  have own {event : Memory.Event} (named : sessionOf event = some caller) :
      ∀ other, sessionOf event = some other → some caller = some other := fun other same => named.symm.trans same
  have goes (stage : Stage) : Local (some caller) s (s.to caller stage) := .put .same rfl
  have sent {event : Memory.Event} (named : sessionOf event = some caller) (request : Request) :
      Local (some caller) s ((s.send event).put caller request) := .put (.send .same (own named)) rfl
  have refused (t : State) (local_ : Local (some caller) s t) (error : Thrown) : Local (some caller) s (t.refuse caller error) := by
    unfold State.refuse
    split <;> exact .put local_ rfl
  have read (next : State) (local_ : Local (some caller) s next) : Local (some caller) s (s.read caller call next) := by
    unfold State.read
    split
    · exact local_
    · exact goes _
    · exact goes _
  unfold State.turn
  dsimp only
  split
  · refine read _ ?_
    unfold State.load
    dsimp only
    split <;> exact sent rfl _
  · refine read _ ?_
    unfold State.authorize
    split
    · split <;> exact goes _
    · exact goes _
  · unfold State.resolveLoaded
    dsimp only
    split
    · split <;> exact sent rfl _
    · exact sent rfl _
    · exact goes _
  · refine read _ ?_
    unfold State.claim
    split
    · exact sent rfl _
    · exact goes _
  · split
    · exact .same
    · unfold State.take
      dsimp only
      split
      · split <;> exact sent rfl _
      · exact .put (.send (.send .same (own rfl)) (own rfl)) rfl
      · exact goes _
  · exact read _ (goes _)
  · refine read _ ?_
    unfold State.reread
    split
    · exact goes _
    · split
      · exact goes _
      · split <;> exact goes _
  · unfold State.resolve
    dsimp only
    split
    · split <;> exact sent rfl _
    · exact sent rfl _
    · exact goes _
  · split
    · exact .same
    · split <;> exact goes _
  · split
    · exact .same
    · unfold State.complete
      dsimp only
      split
      · exact sent rfl _
      · exact sent rfl _
      · exact goes _
  · exact read _ (goes _)
  · split
    · exact .same
    · split
      · exact goes _
      · exact refused s .same _
  · unfold State.release
    dsimp only
    split
    · exact refused _ (.send .same (own rfl)) _
    · exact sent rfl _
    · exact goes _
  · have revoked (stage : Stage) : Local (some caller) s ((s.send (.resolveRevoked (s.requests caller).id now)).to caller stage) :=
      .put (.send .same nofun) rfl
    unfold State.redact
    dsimp only
    split
    · split <;> exact revoked _
    · exact revoked _
    · exact goes _
  · exact .same

theorem foreign_session {event : Memory.Event} (outside : foreign event = true) : sessionOf event = none := by
  cases event <;> first | rfl | cases outside

theorem step_local (bff : Bff) (s : State) (e : Event) : Local e.caller s (step bff s e) := by
  have own {caller : Nat} {now : Time} :
      ∀ other, sessionOf (.renewWork caller now) = some other → some caller = some other := fun other same => same
  cases e with
  | store event =>
    unfold step
    dsimp only
    split
    · rename_i outside
      exact .send .same fun caller named => absurd (named.symm.trans (foreign_session outside)) nofun
    · exact .same
  | post caller authorization body =>
    unfold step
    dsimp only
    split
    · split
      · exact .put .same rfl
      · split <;> exact .put .same rfl
    · exact .same
  | turn caller call now => exact turn_local s caller call now
  | model caller result =>
    unfold step
    dsimp only
    split
    · exact .put .same rfl
    · exact .put .same rfl
    · exact .same
  | tick caller =>
    unfold step
    dsimp only
    split
    · exact .put .same rfl
    · exact .same
  | renew caller call now =>
    unfold step State.renew
    dsimp only
    split
    · split
      · split
        · split <;> exact .put (.send .same own) rfl
        · exact .put .same rfl
        · exact .put .same rfl
      · exact .same
    · exact .same
  | land caller now =>
    unfold step
    dsimp only
    split
    · exact .same
    · exact .put (.send .same own) rfl
  | watchdog caller now =>
    unfold step
    dsimp only
    split
    · exact .put .same rfl
    · exact .same
  | disconnect caller => exact .put .same rfl

/-! ### Runs -/

section
variable {posted : Nat → Prop} {heard : Nat → String → Prop} {s : State} {caller : Nat}

theorem Request.Fits.weaken {posted' : Nat → Prop} {heard' : Nat → String → Prop} {store : Memory.State} {session : Session}
    {request : Request} (fits : request.Fits posted heard store session) (post : ∀ id, posted id → posted' id)
    (hear : ∀ id text, heard id text → heard' id text) : request.Fits posted' heard' store session := by
  refine ⟨fits.posted.imp_right fun rest => rest.imp_right (post _), ?_⟩
  have stage := fits.stage
  cases at_ : request.stage with
  | settling output | completing output =>
    rw [at_] at stage
    refine ⟨stage.1, ?_⟩
    cases output with
    | none => exact stage.2
    | some text => exact hear _ _ stage.2
  | _ =>
    rw [at_] at stage
    exact stage

theorem own_fits {bff : Bff} {e : Event} (lifecycle : Lifecycle s.store) (fits : s.Fits posted heard caller)
    (mine : e.caller = some caller)
    (told : ∀ authorization body id, e = .post caller authorization (some body) → sameSecret bff authorization = true →
      batchIdOf bff body = some id → posted id)
    (said : ∀ text, e = .model caller (.ok text) → (s.requests caller).stage = .summarizing →
      heard (s.requests caller).id text) : (step bff s e).Fits posted heard caller := by
  cases e with
  | store event => cases mine
  | post actor authorization body =>
    obtain rfl := Option.some.inj mine
    unfold step
    dsimp only
    split
    · split
      · rw [State.Fits, State.to, put_same]
        exact ⟨Or.inr (Or.inl ⟨_, rfl, by decide⟩), unfinished (by decide)⟩
      · rename_i secret
        rw [Bool.not_eq_true, Bool.not_eq_false'] at secret
        split
        · rw [State.Fits, State.to, put_same]
          exact ⟨Or.inr (Or.inl ⟨_, rfl, by decide⟩), unfinished (by decide)⟩
        · rename_i id read
          obtain ⟨value, rfl, named⟩ := Option.bind_eq_some_iff.mp read
          exact fits_put (told authorization value id rfl secret named) trivial
    · exact fits
  | turn actor call now =>
    obtain rfl := Option.some.inj mine
    exact turn_fits lifecycle fits call now
  | model actor result =>
    obtain rfl := Option.some.inj mine
    have link := fits.stage
    unfold step
    dsimp only
    split
    · rename_i output at_
      rw [at_] at link
      exact fits_to (fits.begun (by rw [at_]; nofun) (by rw [at_]; nofun)) ⟨link, said output rfl at_⟩
    · rename_i error at_
      exact fits_to (fits.begun (by rw [at_]; nofun) (by rw [at_]; nofun)) trivial
    · exact fits
  | tick actor =>
    obtain rfl := Option.some.inj mine
    unfold step
    dsimp only
    split
    · exact fits_same fits rfl rfl
    · exact fits
  | renew actor call now =>
    obtain rfl := Option.some.inj mine
    exact renew_fits lifecycle fits call now
  | land actor now =>
    obtain rfl := Option.some.inj mine
    unfold step
    dsimp only
    split
    · exact fits
    · exact fits_kept lifecycle fits (congrFun (renewWork_sessions ..) actor) rfl rfl
  | watchdog actor now =>
    obtain rfl := Option.some.inj mine
    unfold step
    dsimp only
    split
    · exact fits_same fits rfl rfl
    · exact fits
  | disconnect actor =>
    obtain rfl := Option.some.inj mine
    exact fits_same fits rfl rfl

end

/-- A call with the secret named this batch. -/
def Posted (bff : Bff) (events : List Event) (caller id : Nat) : Prop :=
  ∃ authorization body, .post caller authorization (some body) ∈ events ∧ sameSecret bff authorization = true ∧
    batchIdOf bff body = some id

/-- The model gave the request this text for this batch. -/
def Heard (bff : Bff) (config : Config.State) (events : List Event) (caller id : Nat) (text : String) : Prop :=
  Once (step bff) (fun s e => e = .model caller (.ok text) ∧ (s.requests caller).stage = .summarizing ∧
    (s.requests caller).id = id) (start config) events

structure Consistent (bff : Bff) (config : Config.State) (events : List Event) : Prop where
  lifecycle : Lifecycle (run (step bff) (start config) events).store
  fits : ∀ caller, (run (step bff) (start config) events).Fits (Posted bff events caller) (Heard bff config events caller) caller

theorem run_consistent (bff : Bff) (config : Config.State) (events : List Event) : Consistent bff config events := by
  induction events using List.reverseRecOn with
  | nil => exact ⟨start_lifecycle config, fun caller => ⟨Or.inl rfl, trivial⟩⟩
  | append_singleton events e ih =>
    have here := step_local bff (run (step bff) (start config) events) e
    refine ⟨by rw [run_concat]; exact here.lifecycle ih.lifecycle, fun caller => ?_⟩
    let s := run (step bff) (start config) events
    have before : s.Fits (Posted bff (events ++ [e]) caller) (Heard bff config (events ++ [e]) caller) caller := (ih.fits caller).weaken
      (fun id ⟨authorization, body, member, known⟩ => ⟨authorization, body, List.mem_append_left _ member, known⟩)
      fun id text once => once_append once [e]
    rw [run_concat]
    by_cases mine : e.caller = some caller
    · refine own_fits ih.lifecycle before mine ?_ ?_
      · intro authorization body id event secret named
        exact ⟨authorization, body, by rw [event]; exact List.mem_append_right _ (List.mem_singleton_self _), secret, named⟩
      · intro text event at_
        exact once_last ⟨event, at_, rfl⟩
    · obtain ⟨sameRequest, sameSession⟩ := here.other mine
      have later := before.mono fun id => here.finished ih.lifecycle
      rw [State.Fits, sameRequest, sameSession]
      exact later

/-! ### Where summaries come from -/

/-- The steps of the store that store no summary. -/
def quiet : Memory.Event → Bool
  | .complete _ _ _ | .resolveAuthorizationRevoked _ _ | .resolveRevoked _ _ => false
  | _ => true

theorem step_quiet {s : Memory.State} {event : Memory.Event} (silent : quiet event = true) :
    (Memory.step s event).summaries = s.summaries := by
  cases step_effect s event with
  | untouched batches summaries => exact summaries
  | wrote write id sent batches summaries fresh => exact summaries
  | inserted builder now group watermark oldest rows rest event selected batches summaries fresh => exact summaries
  | summarized batch leaseToken workToken text redactions now completes hits batches summaries =>
    cases completes <;> cases silent

/-- Why the summary `summary` was stored for a request by a step from `s`. -/
inductive Reason (s : State) (caller : Nat) (summary : Summary) : Prop where
  | output {batch : Batch} {group : Config.GroupDoc} {text : String} {now : Time}
    (at_ : (s.requests caller).stage = .completing (some text)) (found : eligibleRow s.store batch.scope = some group)
    (same : summary = summaryOf batch s.store.fresh text 0 now)
  | ineligible {batch : Batch} {group : Config.GroupDoc} {now : Time} (found : groupRow s.store batch.scope = some group)
    (closed : group.config.eligible = false) (same : summary = summaryOf batch s.store.fresh "" batch.sourceCount now)
  | revoked {batch : Batch} {row : MessageRow} {now : Time} (stored : batch ∈ s.store.batches) (member : row ∈ s.store.messages)
    (source : sourceRow batch row = true) (gone : row.revoked = true)
    (same : summary = summaryOf batch s.store.fresh "" batch.sourceCount now)

/-- A summary that was there, or one of this request's batch that was stored for a reason. -/
def Accounted (s : State) (caller : Nat) (summary : Summary) : Prop :=
  summary ∈ s.store.summaries ∨ summary.batchId = (s.requests caller).id ∧ Reason s caller summary

theorem authorizationRevoked_accounted {s : State} {caller : Nat} {batch : Batch} {workToken : Option Nat} {now : Time}
    (named : batch.id = (s.requests caller).id) {summary : Summary}
    (member : summary ∈ (resolveAuthorizationRevokedMemoryBatch s.store batch workToken now).summaries) : Accounted s caller summary := by
  rw [authorizationRevoked_eq] at member
  unfold authorizationRevoked at member
  split at member
  · rename_i lease group leased found
    split at member
    · exact Or.inl member
    · rename_i closed
      cases inserted : insertSummary s.store batch lease.token workToken "" batch.sourceCount now with
      | none =>
        rw [inserted] at member
        exact Or.inl member
      | some next =>
        rw [inserted, Option.getD_some, (insertSummary_some inserted).2] at member
        rcases List.mem_append.mp member with old | new
        · exact Or.inl old
        · obtain rfl := List.mem_singleton.mp new
          exact Or.inr ⟨named, .ineligible found (by simpa using closed) rfl⟩
  · exact Or.inl member

theorem sourcesRevoked_accounted {s : State} {caller : Nat} {now : Time} {summary : Summary}
    (member : summary ∈ (resolveRevokedMemoryBatch s.store (s.requests caller).id now).summaries) : Accounted s caller summary := by
  rw [sourcesRevoked_eq] at member
  unfold sourcesRevoked at member
  split at member
  · exact Or.inl member
  · rename_i batch found
    have named := List.find?_some found
    simp only [Bool.and_eq_true, beq_iff_eq] at named
    split at member
    · exact Or.inl member
    · rename_i lease leased
      split at member
      · rename_i gone
        obtain ⟨row, stored, revoked⟩ := List.any_eq_true.mp gone
        rw [Bool.and_eq_true] at revoked
        cases inserted : insertSummary s.store batch lease.token none "" batch.sourceCount now with
        | none =>
          rw [inserted] at member
          exact Or.inl member
        | some next =>
          rw [inserted, Option.getD_some, (insertSummary_some inserted).2] at member
          rcases List.mem_append.mp member with old | new
          · exact Or.inl old
          · obtain rfl := List.mem_singleton.mp new
            exact Or.inr ⟨named.1.1, .revoked (List.mem_of_find?_eq_some found) stored revoked.1 revoked.2 rfl⟩
      · exact Or.inl member

/-- A completion with the empty output of a summary that is there stores nothing. -/
theorem complete_accounted {s : State} {caller : Nat} {batch : Batch} {lease : Lease} {token : Nat} {output : Option String}
    {now : Time} {posted : Nat → Prop} {heard : Nat → String → Prop} (lifecycle : Lifecycle s.store)
    (fits : s.Fits posted heard caller) (at_ : (s.requests caller).stage = .completing output)
    (named : batch.id = (s.requests caller).id) {summary : Summary}
    (member : summary ∈ (completeMemoryBatch s.store batch lease token (output.getD "") now).1.summaries) :
    Accounted s caller summary := by
  rcases completeMemoryBatch_cases s.store batch lease token (output.getD "") now with
    ⟨_, _, same⟩ | ⟨_, _, _, _, _, same⟩ | ⟨group, eligible, _, next, inserted, same⟩
  · rw [same] at member
    exact Or.inl member
  · rw [same] at member
    exact Or.inl member
  · obtain ⟨hits, rfl⟩ := insertSummary_some inserted
    rw [same] at member
    rcases List.mem_append.mp member with old | new
    · exact Or.inl old
    · obtain rfl := List.mem_singleton.mp new
      cases output with
      | some text => exact Or.inr ⟨named, .output at_ eligible rfl⟩
      | none =>
        have stage := fits.stage
        rw [at_] at stage
        obtain ⟨done, doneStored, doneNamed, finished⟩ := stage.2
        obtain ⟨open_, openStored, openNamed, matched⟩ := hits_iff.mp hits
        obtain rfl := lifecycle.numbered.same doneStored openStored (doneNamed.trans (named.symm.trans openNamed.symm))
        rw [(liveFilter_iff.mp matched).2.1] at finished
        cases finished

theorem turn_accounted {s : State} {caller : Nat} {posted : Nat → Prop} {heard : Nat → String → Prop} (lifecycle : Lifecycle s.store)
    (fits : s.Fits posted heard caller) (call : Call) (now : Time) {summary : Summary}
    (member : summary ∈ (s.turn caller call now).store.summaries) : Accounted s caller summary := by
  have link := fits.stage
  have sent {event : Memory.Event} (silent : quiet event = true) (member : summary ∈ (Memory.step s.store event).summaries) :
      Accounted s caller summary := Or.inl (step_quiet silent ▸ member)
  have read {next : State} (inner : summary ∈ next.store.summaries → Accounted s caller summary)
      (member : summary ∈ (s.read caller call next).store.summaries) : Accounted s caller summary := by
    unfold State.read at member
    split at member
    · exact inner member
    · exact Or.inl member
    · exact Or.inl member
  have refused {t : State} {error : Thrown} (member : summary ∈ (t.refuse caller error).store.summaries) :
      summary ∈ t.store.summaries := by
    unfold State.refuse at member
    split at member <;> exact member
  unfold State.turn at member
  dsimp only at member
  split at member
  · refine read (fun member => ?_) member
    unfold State.load at member
    dsimp only at member
    split at member <;> exact sent rfl member
  · refine read (fun member => ?_) member
    unfold State.authorize at member
    split at member
    · split at member <;> exact Or.inl member
    · exact Or.inl member
  · rename_i batch at_ held
    rw [at_, held] at link
    obtain ⟨_, same, named⟩ := link
    obtain rfl := Session.loaded.inj same
    have revoked (member : summary ∈ (s.send (.resolveAuthorizationRevoked caller now)).store.summaries) :
        Accounted s caller summary := by
      have member : summary ∈ (resolveAuthorizationRevokedMemoryBatch s.store batch none now).summaries := by
        simpa only [State.send, Memory.step, held] using member
      exact authorizationRevoked_accounted named member
    unfold State.resolveLoaded at member
    dsimp only at member
    split at member
    · split at member <;> exact revoked member
    · exact revoked member
    · exact Or.inl member
  · refine read (fun member => ?_) member
    unfold State.claim at member
    split at member
    · exact sent rfl member
    · exact Or.inl member
  · split at member
    · exact Or.inl member
    · unfold State.take at member
      dsimp only at member
      split at member
      · split at member <;> exact sent rfl member
      · exact sent rfl ((step_quiet rfl : (Memory.step _ (.stopSession caller)).summaries = _) ▸ member)
      · exact Or.inl member
  · refine read (fun member => ?_) member
    exact Or.inl member
  · refine read (fun member => ?_) member
    unfold State.reread at member
    split at member
    · exact Or.inl member
    · split at member
      · exact Or.inl member
      · split at member <;> exact Or.inl member
  · rename_i completed batch token at_ held
    rw [at_, held] at link
    obtain ⟨_, _, same, named⟩ := link
    obtain ⟨rfl, rfl⟩ := Session.working.inj same
    have revoked (member : summary ∈ (s.send (.resolveAuthorizationRevoked caller now)).store.summaries) :
        Accounted s caller summary := by
      have member : summary ∈ (resolveAuthorizationRevokedMemoryBatch s.store batch (some token) now).summaries := by
        simpa only [State.send, Memory.step, held] using member
      exact authorizationRevoked_accounted named member
    unfold State.resolve at member
    dsimp only at member
    split at member
    · split at member <;> exact revoked member
    · exact revoked member
    · exact Or.inl member
  · split at member
    · exact Or.inl member
    · split at member <;> exact Or.inl member
  · rename_i output batch token at_ held
    split at member
    · exact Or.inl member
    · rename_i lease leased
      rw [at_, held] at link
      obtain ⟨⟨_, _, same, named⟩, _⟩ := link
      obtain ⟨rfl, rfl⟩ := Session.working.inj same
      have completed (member : summary ∈ (s.send (.complete caller (output.getD "") now)).store.summaries) :
          Accounted s caller summary := by
        have member : summary ∈ (completeMemoryBatch s.store batch lease token (output.getD "") now).1.summaries := by
          simpa only [State.send, Memory.step, held, leased] using member
        exact complete_accounted lifecycle fits at_ named member
      unfold State.complete at member
      dsimp only at member
      split at member
      · exact completed member
      · exact completed member
      · exact Or.inl member
  · refine read (fun member => ?_) member
    exact Or.inl member
  · split at member
    · exact Or.inl member
    · split at member
      · exact Or.inl member
      · exact Or.inl (refused member)
  · unfold State.release at member
    dsimp only at member
    split at member
    · exact sent rfl (refused member)
    · exact sent rfl member
    · exact Or.inl member
  · unfold State.redact at member
    dsimp only at member
    split at member
    · split at member <;> exact sourcesRevoked_accounted member
    · exact sourcesRevoked_accounted member
    · exact Or.inl member
  · exact Or.inl member

theorem foreign_quiet {event : Memory.Event} (outside : foreign event = true) : quiet event = true := by
  cases event <;> first | rfl | cases outside

theorem step_accounted {bff : Bff} {s : State} {e : Event} {posted : Nat → Nat → Prop} {heard : Nat → Nat → String → Prop}
    (lifecycle : Lifecycle s.store) (fits : ∀ caller, s.Fits (posted caller) (heard caller) caller) {summary : Summary}
    (member : summary ∈ (step bff s e).store.summaries) :
    summary ∈ s.store.summaries ∨ ∃ caller call now, e = .turn caller call now ∧ posted caller (s.requests caller).id ∧
      summary.batchId = (s.requests caller).id ∧ Reason s caller summary := by
  have renewed {caller : Nat} {now : Time} (member : summary ∈ (Memory.step s.store (.renewWork caller now)).summaries) :
      summary ∈ s.store.summaries := (step_quiet rfl : (Memory.step _ (.renewWork caller now)).summaries = _) ▸ member
  cases e with
  | turn caller call now =>
    have idle (at_ : s.turn caller call now = s) : summary ∈ s.store.summaries := at_ ▸ member
    rcases (fits caller).posted with waiting | ⟨answer, answered, _⟩ | posted
    · exact Or.inl (idle (by simp only [State.turn, waiting]))
    · exact Or.inl (idle (by simp only [State.turn, answered]))
    · rcases turn_accounted lifecycle (fits caller) call now member with old | ⟨named, reason⟩
      · exact Or.inl old
      · exact Or.inr ⟨caller, call, now, rfl, posted, named, reason⟩
  | store event =>
    unfold step at member
    dsimp only at member
    split at member
    · rename_i outside
      exact Or.inl (step_quiet (foreign_quiet outside) ▸ member)
    · exact Or.inl member
  | post caller authorization body =>
    unfold step at member
    dsimp only at member
    split at member
    · split at member
      · exact Or.inl member
      · split at member <;> exact Or.inl member
    · exact Or.inl member
  | model caller result =>
    unfold step at member
    dsimp only at member
    split at member <;> exact Or.inl member
  | tick caller =>
    unfold step at member
    dsimp only at member
    split at member <;> exact Or.inl member
  | renew caller call now =>
    unfold step State.renew at member
    dsimp only at member
    split at member
    · split at member
      · split at member
        · split at member <;> exact Or.inl (renewed member)
        · exact Or.inl member
        · exact Or.inl member
      · exact Or.inl member
    · exact Or.inl member
  | land caller now =>
    unfold step at member
    dsimp only at member
    split at member
    · exact Or.inl member
    · exact Or.inl (renewed member)
  | watchdog caller now =>
    unfold step at member
    dsimp only at member
    split at member <;> exact Or.inl member
  | disconnect caller => exact Or.inl member

/-- A summary, and what became of the run before it was stored: a request with the secret had named its batch, and either
the model's answer to that request is its text and its group was eligible, or it is empty and the group was not, or a
message of its batch had been revoked. -/
def Provided (bff : Bff) (config : Config.State) (events : List Event) (summary : Summary) : Prop :=
  ∃ before caller call now after, events = before ++ .turn caller call now :: after ∧ Posted bff before caller summary.batchId ∧
    let s := run (step bff) (start config) before
    ((∃ group, eligibleRow s.store summary.scope = some group) ∧ summary.redactions = 0 ∧
        Heard bff config before caller summary.batchId summary.summary) ∨
      (summary.summary = "" ∧ summary.redactions = summary.sourceCount ∧
        ((∃ group, groupRow s.store summary.scope = some group ∧ group.config.eligible = false) ∨
          ∃ row ∈ s.store.messages, scopeOf row = summary.scope ∧ row.key.waMessageId ∈ summary.sourceMessageIds ∧
            row.revoked = true))

theorem run_provided (bff : Bff) (config : Config.State) (events : List Event) :
    ∀ summary ∈ (run (step bff) (start config) events).store.summaries, Provided bff config events summary := by
  induction events using List.reverseRecOn with
  | nil => exact fun summary none => absurd none List.not_mem_nil
  | append_singleton events e ih =>
    intro summary member
    rw [run_concat] at member
    have consistent := run_consistent bff config events
    rcases step_accounted consistent.lifecycle consistent.fits member with old | ⟨caller, call, now, rfl, posted, named, reason⟩
    · obtain ⟨before, caller, call, now, after, split, rest⟩ := ih summary old
      exact ⟨before, caller, call, now, after ++ [e], by rw [split, List.append_assoc, List.cons_append], rest⟩
    · refine ⟨events, caller, call, now, [], rfl, by rw [named]; exact posted, ?_⟩
      cases reason with
      | output at_ found same =>
        have said := (consistent.fits caller).stage
        rw [at_] at said
        subst same
        exact Or.inl ⟨⟨_, found⟩, rfl, named ▸ said.2⟩
      | ineligible found closed same =>
        subst same
        exact Or.inr ⟨rfl, rfl, Or.inl ⟨_, found, closed⟩⟩
      | revoked stored row source gone same =>
        subst same
        rw [sourceRow, Bool.and_eq_true, beq_iff_eq, List.contains_iff_mem] at source
        exact Or.inr ⟨rfl, rfl, Or.inr ⟨_, row, source.1, source.2, gone⟩⟩

/-- A request that answers that its batch is complete was posted with the secret, and its batch is complete with the one
summary of it. Whatever is summarized was provided. -/
theorem callback_sound (bff : Bff) (config : Config.State) (events : List Event) :
    (∀ caller, ((run (step bff) (start config) events).requests caller).stage = .answered complete →
      Posted bff events caller ((run (step bff) (start config) events).requests caller).id ∧
      ∃ batch ∈ (run (step bff) (start config) events).store.batches, ∃ summary,
        batch.id = ((run (step bff) (start config) events).requests caller).id ∧ batch.RecordedBy summary ∧
        (run (step bff) (start config) events).store.summaries.filter (fun stored => stored.batchId == batch.id) = [summary]) ∧
    ∀ summary ∈ (run (step bff) (start config) events).store.summaries, Provided bff config events summary := by
  refine ⟨fun caller at_ => ?_, run_provided bff config events⟩
  have consistent := run_consistent bff config events
  have fits := consistent.fits caller
  have finished := fits.stage
  rw [at_] at finished
  obtain ⟨batch, stored, named, done⟩ := finished rfl
  obtain ⟨summary, present, record⟩ := consistent.lifecycle.recorded.recorded batch stored done
  refine ⟨?_, batch, stored, summary, named, record, ?_⟩
  · rcases fits.posted with waiting | ⟨answer, answered, other⟩ | posted
    · rw [at_] at waiting
      cases waiting
    · rw [at_] at answered
      exact absurd (Stage.answered.inj answered).symm other
    · exact posted
  · rw [← record.id]
    exact filter_unique consistent.lifecycle.recorded.single present

/-! ### A call nobody disturbs -/

/-- The steps of one call, whose calls to MongoDB come back. -/
def undisturbed (caller : Nat) (authorization : Option String) (body : JsonValue) (text : String) (loadedAt claimedAt completedAt : Time) :
    List Event :=
  [.post caller authorization (some body), .turn caller .answered loadedAt, .turn caller .answered loadedAt,
    .turn caller .answered claimedAt, .turn caller .answered claimedAt, .turn caller .answered claimedAt,
    .turn caller .answered claimedAt, .model caller (.ok text), .turn caller .answered completedAt, .turn caller .answered completedAt]

section
variable {s : State} {caller : Nat}

/-- `s` but for its store and one request. -/
def State.at (s : State) (store : Memory.State) (caller : Nat) (request : Request) : State :=
  ⟨store, Function.update s.requests caller request⟩

@[simp] theorem at_store (store : Memory.State) (request : Request) : (s.at store caller request).store = store := rfl

@[simp] theorem at_requests (store : Memory.State) (request : Request) : (s.at store caller request).requests caller = request := by
  simp [State.at]

@[simp] theorem at_put (store : Memory.State) (request next : Request) :
    (s.at store caller request).put caller next = s.at store caller next := by
  simp [State.at, State.put]

@[simp] theorem at_send (store : Memory.State) (request : Request) (event : Memory.Event) :
    (s.at store caller request).send event = s.at (Memory.step store event) caller request := rfl

@[simp] theorem at_to (store : Memory.State) (request : Request) (stage : Stage) :
    (s.at store caller request).to caller stage = s.at store caller { request with stage } := by
  rw [State.to, at_requests, at_put]

end

theorem eligibleRow_of_groupRow {s : Memory.State} {scope : GroupKey} {group : Config.GroupDoc} (found : groupRow s scope = some group)
    (eligible : group.config.eligible = true) : eligibleRow s scope = some group := by
  obtain ⟨keyed, before, after, split, earlier⟩ := List.find?_eq_some_iff_append.mp found
  refine List.find?_eq_some_iff_append.mpr ⟨by rw [keyed, eligible]; rfl, before, after, split, fun other member => ?_⟩
  have apart := earlier other member
  simp only [Bool.not_eq_true'] at apart ⊢
  rw [apart, Bool.false_and]

theorem find_unique {s : Memory.State} (numbered : Numbered s) {p : Batch → Bool} {batch : Batch} (stored : batch ∈ s.batches)
    (names : ∀ other, p other = true → other.id = batch.id) (holds : p batch = true) : s.batches.find? p = some batch := by
  cases found : s.batches.find? p with
  | none => exact absurd holds (List.find?_eq_none.mp found batch stored)
  | some other =>
    have same := numbered.same (List.mem_of_find?_eq_some found) stored (names other (List.find?_some found))
    rw [same]

/-- What a call needs of the store it finds. -/
structure Ready (s : Memory.State) (batch : Batch) (lease : Lease) (group : Config.GroupDoc) (loadedAt claimedAt completedAt : Time) :
    Prop where
  stored : batch ∈ s.batches
  processing : batch.state = .processing
  leased : batch.lease = some lease
  listed : batch.sourceWaMessageIds.length = batch.sourceCount
  nonempty : 0 < batch.sourceCount
  present : (s.messages.filter fun row => sourceRow batch row && !row.revoked).length = batch.sourceCount
  found : groupRow s batch.scope = some group
  eligible : group.config.eligible = true
  free : ∀ work, batch.summaryWork = some work → work.expiresAt ≤ claimedAt
  atLoad : loadedAt < lease.expiresAt
  atClaim : claimedAt < lease.expiresAt
  atComplete : completedAt < min lease.expiresAt (claimedAt + summaryWorkLease)

section
variable {s : Memory.State} {batch : Batch} {lease : Lease} {group : Config.GroupDoc} {loadedAt claimedAt completedAt : Time}

def sourcesOf (s : Memory.State) (batch : Batch) : List MessageRow :=
  (s.messages.filter fun row => sourceRow batch row && !row.revoked).insertionSort rowLe

def workOf (s : Memory.State) (lease : Lease) (group : Config.GroupDoc) (claimedAt : Time) : SummaryWork :=
  ⟨s.fresh, min lease.expiresAt (claimedAt + summaryWorkLease), group.config.version⟩

theorem Ready.loads (ready : Ready s batch lease group loadedAt claimedAt completedAt) (numbered : Numbered s) :
    loadedOf s batch.id loadedAt = .batch batch (sourcesOf s batch) := by
  have holds : (batch.id == batch.id && batch.state == .processing && batch.leaseLive loadedAt) = true := by
    rw [beq_self_eq_true, ready.processing, Batch.leaseLive, ready.leased]
    simpa using ready.atLoad
  have names (other : Batch) (matched : (other.id == batch.id && other.state == .processing && other.leaseLive loadedAt) = true) :
      other.id = batch.id := by
    simp only [Bool.and_eq_true, beq_iff_eq] at matched
    exact matched.1.1
  have whole : (sourcesOf s batch).length = batch.sourceCount := (List.length_insertionSort _ _).trans ready.present
  unfold loadedOf
  rw [find_unique numbered ready.stored names holds]
  dsimp only
  rw [if_neg (not_not.mpr ready.listed)]
  exact if_neg (not_not.mpr whole)

theorem Ready.claims (ready : Ready s batch lease group loadedAt claimedAt completedAt) :
    (BatchWrite.claimWork batch.scope lease.token claimedAt (workOf s lease group claimedAt)).filter batch = true := by
  rw [BatchWrite.filter, Bool.and_eq_true, liveFilter_iff]
  refine ⟨⟨rfl, ready.processing, ?_, ?_, fun _ none => by cases none⟩, ?_⟩
  · rw [Batch.leasedBy, ready.leased, Option.any_some, beq_self_eq_true]
  · rw [Batch.leaseLive, ready.leased, Option.any_some]
    exact decide_eq_true ready.atClaim
  · cases work : batch.summaryWork with
    | none => rfl
    | some work' => exact decide_eq_true (ready.free work' work)

/-- The store once the work is claimed. -/
def claimedStore (s : Memory.State) (batch : Batch) (lease : Lease) (group : Config.GroupDoc) (claimedAt : Time) (sessions : Nat → Session) :
    Memory.State :=
  { s with
    batches := (BatchWrite.claimWork batch.scope lease.token claimedAt (workOf s lease group claimedAt)).apply batch.id s.batches
    sessions, fresh := s.fresh + 1 }

theorem Ready.completes (ready : Ready s batch lease group loadedAt claimedAt completedAt) (lifecycle : Lifecycle s) (text : String)
    (sessions : Nat → Session) :
    ∃ next, completeMemoryBatch (claimedStore s batch lease group claimedAt sessions) batch lease s.fresh text completedAt =
      (next, .completed) ∧ next.summaries = s.summaries ++ [summaryOf batch (s.fresh + 1) text 0 completedAt] := by
  let write := BatchWrite.claimWork batch.scope lease.token claimedAt (workOf s lease group claimedAt)
  have absent := lifecycle.unsummarized ready.stored (by rw [ready.processing]; nofun)
  have unseen : s.summaries.find? (fun summary => summary.scope == batch.scope && summary.batchId == batch.id) = none := by
    refine List.find?_eq_none.mpr fun summary member same => ?_
    rw [Bool.and_eq_true, beq_iff_eq, beq_iff_eq] at same
    exact absent summary member same.2
  have untaken : (s.summaries.any fun stored => stored.scope.organizationId == batch.scope.organizationId && stored.batchId == batch.id) =
      false := by
    refine List.any_eq_false.mpr fun summary member same => ?_
    rw [Bool.and_eq_true, beq_iff_eq, beq_iff_eq] at same
    exact absent summary member same.2
  have changed : write.at batch.id batch = write.change batch := by
    rw [BatchWrite.at, if_pos (by rw [beq_self_eq_true]; exact ready.claims)]
  have held : (write.apply batch.id s.batches).find? (fun stored => stored.id == batch.id) = some (write.change batch) := by
    rw [apply_eq_map lifecycle.numbered.unique, List.find?_map]
    have same : ((fun stored : Batch => stored.id == batch.id) ∘ write.at batch.id) = fun stored => stored.id == batch.id := by
      funext stored
      rcases at_cases write batch.id stored with kept | ⟨_, _, kept⟩
      · rw [Function.comp_apply, kept]
      · rw [Function.comp_apply, kept, change_id]
    rw [same, find_unique lifecycle.numbered ready.stored (fun other named => beq_iff_eq.mp named) (beq_self_eq_true _), Option.map_some,
      changed]
  have live : (BatchWrite.complete batch.scope lease.token (some s.fresh) completedAt (s.fresh + 1)).hits batch.id
      (write.apply batch.id s.batches) = true := by
    refine hits_iff.mpr ⟨_, List.mem_of_find?_eq_some held, change_id write batch, ?_⟩
    refine liveFilter_iff.mpr ⟨rfl, ready.processing, ?_, ?_, fun token same => ?_⟩
    · show batch.leasedBy lease.token = true
      rw [Batch.leasedBy, ready.leased, Option.any_some, beq_self_eq_true]
    · show batch.leaseLive completedAt = true
      rw [Batch.leaseLive, ready.leased, Option.any_some]
      exact decide_eq_true (lt_of_lt_of_le ready.atComplete (min_le_left _ _))
    · obtain rfl := Option.some.inj same
      exact ⟨_, rfl, rfl, ready.atComplete⟩
  have row : eligibleRow (claimedStore s batch lease group claimedAt sessions) batch.scope = some group :=
    eligibleRow_of_groupRow ready.found ready.eligible
  have work : (((claimedStore s batch lease group claimedAt sessions).batches.find? fun stored => stored.id == batch.id).bind
      Batch.summaryWork) = some (workOf s lease group claimedAt) := by
    show ((write.apply batch.id s.batches).find? fun stored => stored.id == batch.id).bind Batch.summaryWork = _
    rw [held]
    rfl
  unfold completeMemoryBatch
  rw [show (claimedStore s batch lease group claimedAt sessions).summaries = s.summaries from rfl, unseen]
  dsimp only
  rw [row, work]
  dsimp only
  rw [if_pos ⟨rfl, rfl⟩, insertSummary, if_pos (by rw [Bool.and_eq_true, Bool.not_eq_true']; exact ⟨untaken, live⟩)]
  exact ⟨_, rfl, rfl⟩

end

/-- The steps of the call one by one. -/
theorem undisturbed_run {bff : Bff} {s : State} (lifecycle : Lifecycle s.store) {caller : Nat} {authorization : Option String}
    {body : JsonValue} {batch : Batch} {lease : Lease} {group : Config.GroupDoc} (text : String) {loadedAt claimedAt completedAt : Time}
    (new : s.requests caller = .initial) (secret : sameSecret bff authorization = true) (named : batchIdOf bff body = some batch.id)
    (ready : Ready s.store batch lease group loadedAt claimedAt completedAt) :
    let after := run (step bff) s (undisturbed caller authorization body text loadedAt claimedAt completedAt)
    (after.requests caller).stage = .answered complete ∧
      after.store.summaries = s.store.summaries ++ [summaryOf batch (s.store.fresh + 1) text 0 completedAt] := by
  intro after
  have initial : s.at s.store caller .initial = s := by
    show (⟨s.store, Function.update s.requests caller .initial⟩ : State) = s
    rw [← new, Function.update_eq_self]
  let asked : Request := { Request.initial with stage := .loading, id := batch.id }
  let shown : Request := { asked with stage := .authorizing, messages := sourcesOf s.store batch }
  let working : Request :=
    { shown with
      stage := .looking, claimed := true, configVersion := group.config.version
      workExpiresAt := min lease.expiresAt (claimedAt + summaryWorkLease) }
  let loadedStore := s.store.session caller (.loaded batch)
  let readStore := loadedStore.session caller (.eligible batch group.config.version)
  let held : Nat → Session := Function.update readStore.sessions caller (.working batch s.store.fresh)
  let store := claimedStore s.store batch lease group claimedAt held
  have row : eligibleRow s.store batch.scope = some group := eligibleRow_of_groupRow ready.found ready.eligible
  have loads := ready.loads lifecycle.numbered
  have some_ : (sourcesOf s.store batch).isEmpty = false := by
    rw [List.isEmpty_eq_false_iff, ← List.length_pos_iff]
    have length : (sourcesOf s.store batch).length = batch.sourceCount := (List.length_insertionSort _ _).trans ready.present
    rw [length]
    exact ready.nonempty
  have hits : (BatchWrite.claimWork batch.scope lease.token claimedAt (workOf s.store lease group claimedAt)).hits batch.id
      s.store.batches = true := hits_iff.mpr ⟨batch, ready.stored, rfl, ready.claims⟩
  have absent := lifecycle.unsummarized ready.stored (by rw [ready.processing]; nofun)
  have unseen : summaryExists store batch = false := by
    refine List.any_eq_false.mpr fun summary member same => ?_
    rw [Bool.and_eq_true, beq_iff_eq, beq_iff_eq] at same
    exact absent summary member same.2
  obtain ⟨next, completes, summaries⟩ := ready.completes lifecycle text held
  have posted : step bff (s.at s.store caller .initial) (.post caller authorization (some body)) = s.at s.store caller asked := by
    simp [step, secret, named, Request.initial, asked]
  have read : loadMemoryBatch s.store batch.id loadedAt = some batch := by rw [loadMemoryBatch_eq, loads]
  have loaded : step bff (s.at s.store caller asked) (.turn caller .answered loadedAt) = s.at loadedStore caller shown := by
    simp [step, State.turn, asked, shown, State.read, State.load, loads, Memory.step, read, loadedStore]
  have seesLoaded : loadedStore.sessions caller = .loaded batch := session_same ..
  have authorized : step bff (s.at loadedStore caller shown) (.turn caller .answered loadedAt) =
      s.at loadedStore caller { shown with stage := .claiming } := by
    have open_ : eligibleNow loadedStore batch.scope = true := by
      show (groupRow s.store batch.scope).any _ = true
      rw [ready.found, Option.any_some, ready.eligible]
    simp [step, State.turn, shown, seesLoaded, State.read, State.authorize, open_, some_]
  have rowThen : eligibleRow loadedStore batch.scope = some group := row
  have claims : step bff (s.at loadedStore caller { shown with stage := .claiming }) (.turn caller .answered claimedAt) =
      s.at readStore caller { shown with stage := .taking group.config.version } := by
    simp [step, State.turn, seesLoaded, State.read, State.claim, ready.leased, rowThen, Memory.step, readStore]
  have seesEligible : readStore.sessions caller = .eligible batch group.config.version := session_same ..
  have takes : step bff (s.at readStore caller { shown with stage := .taking group.config.version }) (.turn caller .answered claimedAt) =
      s.at store caller working := by
    have hitsThen : (BatchWrite.claimWork batch.scope lease.token claimedAt
        ⟨readStore.fresh, min lease.expiresAt (claimedAt + summaryWorkLease), group.config.version⟩).hits batch.id readStore.batches = true := hits
    have sent : Memory.step readStore (.claimWork caller claimedAt) = store := by
      simp only [Memory.step, seesEligible, ready.leased, hitsThen, if_true]
      rfl
    simp [step, State.turn, seesEligible, ready.leased, State.take, hitsThen, sent, working]
  have seesWorking : store.sessions caller = .working batch s.store.fresh := Function.update_self ..
  have looked : step bff (s.at store caller working) (.turn caller .answered claimedAt) =
      s.at store caller { working with stage := .rereading } := by
    simp [step, State.turn, working, seesWorking, State.read, unseen]
  have foundThen : groupRow store batch.scope = some group := ready.found
  have reread : step bff (s.at store caller { working with stage := .rereading }) (.turn caller .answered claimedAt) =
      s.at store caller { working with stage := .summarizing } := by
    simp [step, State.turn, working, seesWorking, State.read, State.reread, foundThen, ready.eligible]
  have told : step bff (s.at store caller { working with stage := .summarizing }) (.model caller (.ok text)) =
      s.at store caller { working with stage := .settling (some text) } := by
    simp [step]
  have settled : step bff (s.at store caller { working with stage := .settling (some text) }) (.turn caller .answered completedAt) =
      s.at store caller { working with stage := .completing (some text) } := by
    simp [step, State.turn, working, shown, asked, Request.initial]
  have sentLast : Memory.step store (.complete caller text completedAt) = next := by
    simp only [Memory.step, seesWorking, ready.leased]
    exact congrArg Prod.fst completes
  have done : step bff (s.at store caller { working with stage := .completing (some text) }) (.turn caller .answered completedAt) =
      s.at next caller { working with stage := .answered complete } := by
    simp [step, State.turn, seesWorking, ready.leased, State.complete, sentLast, store, completes, completedStage]
  have last : after = s.at next caller { working with stage := .answered complete } := by
    show run (step bff) s _ = _
    nth_rewrite 1 [← initial]
    rw [undisturbed, run_cons, posted, run_cons, loaded, run_cons, authorized, run_cons, claims, run_cons, takes, run_cons, looked,
      run_cons, reread, run_cons, told, run_cons, settled, run_cons, done, run_nil]
  rw [last]
  exact ⟨by rw [at_requests], summaries⟩

/-- What others do leaves the requests. -/
theorem run_foreign (bff : Bff) (s : State) {events : List Memory.Event} (outside : ∀ event ∈ events, foreign event = true) :
    run (step bff) s (events.map .store) = { s with store := run Memory.step s.store events } := by
  induction events generalizing s with
  | nil => rfl
  | cons event events ih =>
    have first : step bff s (.store event) = s.send event := by
      rw [step, if_pos (outside event List.mem_cons_self)]
    rw [List.map_cons, run_cons, first, ih _ fun other member => outside other (List.mem_cons_of_mem _ member)]
    rfl

def workerHolds : List Memory.Event :=
  [.save late, .scan 0 "o", .checkOutstanding 0, .readWatermark 0, .select 0, .insert 0 1000, .claim "o" "worker" 2000 0]

def oneBatch : Bff := ⟨"secret", fun text => if text = "65f1c0de65f1c0de65f1c0de" then some 0 else none⟩

def callBody : JsonValue := .obj [("batchId".toList, .str "65f1c0de65f1c0de65f1c0de".toList)]

end GroupButler.Memory.Callback
