import GroupButler.Foundation.Decimal
import GroupButler.Groups.Accounts

/-!
# What became of each participant

The bridge answers a membership change participant by participant. The worker's own answer is derived from
those entries, and a partial change must never read as a complete one.
-/

namespace GroupButler.Groups
open Foundation Ingest

structure BridgeMemberResult where
  jid : String := ""
  ok : Bool := false
  error : String := ""
  deriving DecidableEq, Repr

structure BridgeMembersAnswer where
  ok : Bool := false
  results : List BridgeMemberResult := []
  failed : List String := []
  deriving DecidableEq, Repr

inductive MembershipStatus where
  | ok | failed | unreported
  deriving DecidableEq, Repr

structure MembershipOutcome where
  jid : String
  status : MembershipStatus
  /-- Left out of the answer at zero. -/
  errorCode : Int := 0
  deriving DecidableEq, Repr

structure MembershipResponse where
  ok : Bool
  results : List MembershipOutcome
  failed : List String
  deriving DecidableEq, Repr

/-- Anything that is not a number is not a code. -/
def membershipErrorCode (raw : String) : Int := (parseInt64 (goTrimSpace raw).toList).getD 0

section
variable [Unicode]

/-- The inner loop: the first entry of the account decides. -/
def outcomeOf (want : String) : List BridgeMemberResult → MembershipOutcome
  | [] => { jid := want, status := .unreported }
  | result :: rest =>
    if !sameAccount result.jid want then outcomeOf want rest
    else if result.ok then { jid := want, status := .ok }
    else { jid := want, status := .failed, errorCode := membershipErrorCode result.error }

/-- One round of the outer loop. -/
def reportOutcome (answer : BridgeMembersAnswer) (response : MembershipResponse) (want : String) : MembershipResponse :=
  let outcome := outcomeOf want answer.results
  let response :=
    if outcome.status ≠ .ok then { response with ok := false, failed := response.failed ++ [outcome.jid] } else response
  { response with results := response.results ++ [outcome] }

def membershipOutcomes (requested : List String) (answer : BridgeMembersAnswer) : MembershipResponse :=
  requested.foldl (reportOutcome answer) { ok := true, results := [], failed := [] }

/-! ### One participant -/

/-- The first entry that names the account has `ok` true. -/
def Confirmed (answer : BridgeMembersAnswer) (want : String) : Prop :=
  ∃ earlier entry later, answer.results = earlier ++ entry :: later ∧ (∀ e ∈ earlier, sameAccount e.jid want = false) ∧
    sameAccount entry.jid want = true ∧ entry.ok = true

@[simp] theorem outcomeOf_jid (want : String) (results : List BridgeMemberResult) : (outcomeOf want results).jid = want := by
  induction results with
  | nil => rfl
  | cons result rest ih =>
    rw [outcomeOf]
    split
    · exact ih
    · split <;> rfl

theorem outcomeOf_skip {want : String} {earlier : List BridgeMemberResult} (others : ∀ e ∈ earlier, sameAccount e.jid want = false)
    (later : List BridgeMemberResult) : outcomeOf want (earlier ++ later) = outcomeOf want later := by
  induction earlier with
  | nil => rfl
  | cons entry rest ih =>
    rw [List.cons_append, outcomeOf, others entry List.mem_cons_self]
    exact ih fun e member => others e (List.mem_cons_of_mem _ member)

/-- Either no entry names the account, or the first that does decides. -/
theorem entries_cases (want : String) (results : List BridgeMemberResult) :
    (∀ e ∈ results, sameAccount e.jid want = false) ∨
      ∃ earlier entry later, results = earlier ++ entry :: later ∧ (∀ e ∈ earlier, sameAccount e.jid want = false) ∧
        sameAccount entry.jid want = true := by
  cases found : results.find? fun e => sameAccount e.jid want with
  | none =>
    left
    intro e member
    simpa using List.find?_eq_none.mp found e member
  | some entry =>
    obtain ⟨named, earlier, later, split, others⟩ := List.find?_eq_some_iff_append.mp found
    exact Or.inr ⟨earlier, entry, later, split, by simpa using others, named⟩

theorem outcomeOf_status (answer : BridgeMembersAnswer) (want : String) :
    (outcomeOf want answer.results).status = .ok ↔ Confirmed answer want := by
  constructor
  · intro status
    rcases entries_cases want answer.results with unnamed | ⟨earlier, entry, later, split, others, named⟩
    · have skipped := outcomeOf_skip unnamed []
      rw [List.append_nil] at skipped
      rw [skipped] at status
      cases status
    · refine ⟨earlier, entry, later, split, others, named, ?_⟩
      rw [split, outcomeOf_skip others, outcomeOf, named] at status
      by_contra refused
      simp [refused] at status
  · rintro ⟨earlier, entry, later, split, others, named, ok⟩
    rw [split, outcomeOf_skip others, outcomeOf, named, ok]
    rfl

/-! ### The whole answer -/

theorem foldl_reportOutcome (answer : BridgeMembersAnswer) (requested : List String) (response : MembershipResponse) :
    requested.foldl (reportOutcome answer) response =
      { ok := response.ok && requested.all fun want => (outcomeOf want answer.results).status = .ok
        results := response.results ++ requested.map fun want => outcomeOf want answer.results
        failed := response.failed ++ requested.filter fun want => (outcomeOf want answer.results).status ≠ .ok } := by
  induction requested generalizing response with
  | nil => simp
  | cons want rest ih =>
    rw [List.foldl_cons, ih]
    by_cases confirmed : (outcomeOf want answer.results).status = .ok
    · simp [reportOutcome, confirmed]
    · simp [reportOutcome, confirmed]

theorem membershipOutcomes_eq (requested : List String) (answer : BridgeMembersAnswer) :
    membershipOutcomes requested answer =
      { ok := requested.all fun want => (outcomeOf want answer.results).status = .ok
        results := requested.map fun want => outcomeOf want answer.results
        failed := requested.filter fun want => (outcomeOf want answer.results).status ≠ .ok } := by
  rw [membershipOutcomes, foldl_reportOutcome]
  simp

/-- One outcome per request in the order asked, complete only where each is confirmed, and what is not is
listed. -/
structure Reported (requested : List String) (answer : BridgeMembersAnswer) (response : MembershipResponse) : Prop where
  asked : response.results.map MembershipOutcome.jid = requested
  confirmed : ∀ outcome ∈ response.results, outcome.status = .ok ↔ Confirmed answer outcome.jid
  complete : response.ok = true ↔ ∀ want ∈ requested, Confirmed answer want
  failed : response.failed = (response.results.filter fun outcome => outcome.status ≠ .ok).map MembershipOutcome.jid

theorem membershipOutcomes_reported (requested : List String) (answer : BridgeMembersAnswer) :
    Reported requested answer (membershipOutcomes requested answer) := by
  rw [membershipOutcomes_eq]
  constructor
  · rw [List.map_map]
    exact (List.map_congr_left fun want _ => outcomeOf_jid want answer.results).trans (List.map_id requested)
  · rw [List.forall_mem_map]
    intro want _
    rw [outcomeOf_jid]
    exact outcomeOf_status answer want
  · rw [List.all_eq_true]
    apply forall₂_congr
    intro want _
    rw [decide_eq_true_iff]
    exact outcomeOf_status answer want
  · rw [List.filter_map, List.map_map]
    exact ((List.map_congr_left fun want _ => outcomeOf_jid want answer.results).trans (List.map_id _)).symm

end

end GroupButler.Groups
