import GroupButler.Foundation.Run
import GroupButler.Foundation.Text
import Mathlib.Logic.Function.Basic
import Mathlib.Tactic.Common

/-!
# Login attempts

A login request reads the limiter, waits for its body, and then verifies and records. The requests of all
clients interleave at the wait. Each window a failure opens keeps count of the failed verifications
performed before its end.
-/

namespace GroupButler.Owner
open Foundation

/-! ### Credentials -/

/-- What the check asks of scrypt and of the runtime's Unicode tables. -/
class Passwords where
  verifyPassword : String → String → Bool
  toLowerCase : String → String

/-- The environment the check reads; an unset variable is empty. -/
structure OwnerEnv where
  ownerEmail : String
  ownerPasswordHash : String
  ownerPassword : String
  organizationId : String
  production : Bool

structure OwnerIdentity where
  email : String
  organizationId : String
  deriving DecidableEq, Repr

def verifyOwnerCredentials [Passwords] (env : OwnerEnv) (email password : String) : Option OwnerIdentity :=
  let configuredEmail := jsTrim env.ownerEmail
  let emailMatches := configuredEmail ≠ "" ∧ Passwords.toLowerCase (jsTrim email) = Passwords.toLowerCase configuredEmail
  let owner : OwnerIdentity := ⟨configuredEmail, if env.organizationId = "" then "org_default" else env.organizationId⟩
  let storedHash := jsTrim env.ownerPasswordHash
  if storedHash ≠ "" then
    if emailMatches ∧ Passwords.verifyPassword password storedHash then some owner else none
  else if env.production ∨ env.ownerPassword = "" then none
  else if emailMatches ∧ password = env.ownerPassword then some owner else none

/-! ### The limiter -/

def rateWindowMs : Int := 15 * 60 * 1000

structure Entry where
  count : Nat
  resetAt : Int
  deriving DecidableEq, Repr

/-- A window from the failure that opened it: the failed verifications performed so far before its end. -/
structure Window where
  ip : String
  resetAt : Int
  performed : Nat
  deriving DecidableEq, Repr

structure Logins where
  now : Int
  loginFailures : String → Option Entry
  /-- The requests that passed the limiter and wait for their body. -/
  waiting : List (Nat × String)
  windows : List Window

def Logins.start (now : Int) : Logins := ⟨now, fun _ => none, [], []⟩

/-- The seconds to wait, or `none`, and what the call leaves of the counters. -/
def rateLimit (limit : Nat) (s : Logins) (ip : String) : Option Int × Logins :=
  match s.loginFailures ip with
  | none => (none, s)
  | some entry =>
    if entry.resetAt ≤ s.now then (none, { s with loginFailures := Function.update s.loginFailures ip none })
    else if entry.count < limit then (none, s)
    else (some (max 1 ((entry.resetAt - s.now + 999) / 1000)), s)

theorem rateLimit_admits {limit : Nat} {s : Logins} {ip : String} :
    (rateLimit limit s ip).1 = none ↔
      ∀ entry, s.loginFailures ip = some entry → s.now < entry.resetAt → entry.count < limit := by
  unfold rateLimit
  split
  · rename_i absent
    simp [absent]
  · rename_i entry found
    simp only [found, Option.some.injEq, forall_eq']
    split
    · rename_i past
      exact ⟨fun _ still => by omega, fun _ => rfl⟩
    · rename_i running
      split
      · rename_i few
        exact ⟨fun _ _ => few, fun _ => rfl⟩
      · rename_i many
        exact ⟨fun refused => (Option.some_ne_none _ refused).elim, fun admitted => absurd (admitted (by omega)) many⟩

def recordLoginFailure (s : Logins) (ip : String) : Logins :=
  let opened : Logins := { s with
    loginFailures := Function.update s.loginFailures ip (some ⟨1, s.now + rateWindowMs⟩)
    windows := ⟨ip, s.now + rateWindowMs, 0⟩ :: s.windows }
  match s.loginFailures ip with
  | none => opened
  | some entry =>
    if entry.resetAt ≤ s.now then opened
    else { s with loginFailures := Function.update s.loginFailures ip (some { entry with count := entry.count + 1 }) }

def clearLoginFailures (s : Logins) (ip : String) : Logins :=
  { s with loginFailures := Function.update s.loginFailures ip none }

/-- A failed verification counts in every window of its client that has not ended. -/
def performed (s : Logins) (ip : String) : Logins :=
  { s with windows := s.windows.map fun window =>
      if window.ip = ip ∧ s.now < window.resetAt then { window with performed := window.performed + 1 } else window }

/-! ### Requests -/

inductive LoginEvent where
  | tick (ms : Nat)
  | request (id : Nat) (ip : String)
  /-- The body of a request: its credentials, or none when it does not carry two strings. -/
  | body (id : Nat) (credentials : Option (String × String))
  deriving DecidableEq, Repr

/-- `POST` up to its first `await`. -/
def arrive (limit : Nat) (s : Logins) (id : Nat) (ip : String) : Logins :=
  match rateLimit limit s ip with
  | (some _, s) => s
  | (none, s) => { s with waiting := (id, ip) :: s.waiting }

/-- The rest of `POST`. -/
def finish [Passwords] (env : OwnerEnv) (s : Logins) (ip : String) : Option (String × String) → Logins
  | none => recordLoginFailure s ip
  | some (email, password) =>
    match verifyOwnerCredentials env email password with
    | none => performed (recordLoginFailure s ip) ip
    | some _ => clearLoginFailures s ip

def loginStep [Passwords] (env : OwnerEnv) (limit : Nat) (s : Logins) : LoginEvent → Logins
  | .tick ms => { s with now := s.now + ms }
  | .request id ip => if (s.waiting.lookup id).isSome then s else arrive limit s id ip
  | .body id credentials =>
    match s.waiting.lookup id with
    | none => s
    | some ip => finish env { s with waiting := s.waiting.filter (·.1 != id) } ip credentials

/-! ### The condition -/

/-- An unexpired count for the client. -/
def Counting (s : Logins) (ip : String) : Prop := ∃ entry, s.loginFailures ip = some entry ∧ s.now < entry.resetAt

instance (s : Logins) (ip : String) : Decidable (Counting s ip) :=
  match found : s.loginFailures ip with
  | none => .isFalse (by rintro ⟨entry, some, -⟩; rw [found] at some; cases some)
  | some entry =>
    decidable_of_iff (s.now < entry.resetAt) (by simp [Counting, found])

/-- A verification that fails is one the limiter would still admit, and one that succeeds ends no open count. -/
def InTurn [Passwords] (env : OwnerEnv) (limit : Nat) (s : Logins) : LoginEvent → Prop
  | .body id (some (email, password)) =>
    ∀ ip, s.waiting.lookup id = some ip →
      if verifyOwnerCredentials env email password = none then (rateLimit limit s ip).1 = none else ¬ Counting s ip
  | _ => True

instance [Passwords] (env : OwnerEnv) (limit : Nat) (s : Logins) (e : LoginEvent) : Decidable (InTurn env limit s e) :=
  match e with
  | .tick _ => .isTrue trivial
  | .request _ _ => .isTrue trivial
  | .body _ none => .isTrue trivial
  | .body id (some (email, password)) =>
    match found : s.waiting.lookup id with
    | none => .isTrue (by rintro ip some; rw [found] at some; cases some)
    | some ip =>
      decidable_of_iff
        (if verifyOwnerCredentials env email password = none then (rateLimit limit s ip).1 = none else ¬ Counting s ip)
        (by simp [InTurn, found])

/-! ### The invariant -/

/-- Every window is within the limit, and an open one is the client's current count. -/
def Throttled (limit : Nat) (s : Logins) : Prop :=
  ∀ window ∈ s.windows, window.performed ≤ limit ∧
    (s.now < window.resetAt →
      ∃ entry, s.loginFailures window.ip = some entry ∧ entry.resetAt = window.resetAt ∧ window.performed ≤ entry.count)

theorem recordLoginFailure_now (s : Logins) (ip : String) : (recordLoginFailure s ip).now = s.now := by
  unfold recordLoginFailure
  dsimp only
  split
  · rfl
  · split <;> rfl

/-- A recorded failure leaves the client's open window with room for the verification behind it. -/
theorem recordLoginFailure_room {limit : Nat} {s : Logins} (throttled : Throttled limit s) (ip : String) :
    ∀ window ∈ (recordLoginFailure s ip).windows, window.performed ≤ limit ∧
      (s.now < window.resetAt →
        ∃ entry, (recordLoginFailure s ip).loginFailures window.ip = some entry ∧ entry.resetAt = window.resetAt ∧
          window.performed + (if window.ip = ip then 1 else 0) ≤ entry.count) := by
  have old : ∀ window ∈ s.windows, window.ip ≠ ip → ∀ found, window.performed ≤ limit ∧
      (s.now < window.resetAt →
        ∃ entry, Function.update s.loginFailures ip found window.ip = some entry ∧ entry.resetAt = window.resetAt ∧
          window.performed + (if window.ip = ip then 1 else 0) ≤ entry.count) := by
    intro window member other found
    obtain ⟨within, current⟩ := throttled window member
    refine ⟨within, fun still => ?_⟩
    rw [Function.update_of_ne other, if_neg other]
    exact current still
  -- an open window of the client rules out that its count is missing or expired
  have opened : (∀ entry, s.loginFailures ip = some entry → entry.resetAt ≤ s.now) →
      ∀ window ∈ (⟨ip, s.now + rateWindowMs, 0⟩ : Window) :: s.windows, window.performed ≤ limit ∧
        (s.now < window.resetAt →
          ∃ entry, Function.update s.loginFailures ip (some ⟨1, s.now + rateWindowMs⟩) window.ip = some entry ∧
            entry.resetAt = window.resetAt ∧ window.performed + (if window.ip = ip then 1 else 0) ≤ entry.count) := by
    intro expired window member
    rcases List.mem_cons.mp member with rfl | member
    · exact ⟨Nat.zero_le _, fun _ => ⟨_, Function.update_self .., rfl, by simp⟩⟩
    · by_cases same : window.ip = ip
      · obtain ⟨within, current⟩ := throttled window member
        refine ⟨within, fun still => ?_⟩
        obtain ⟨entry, found, ends, -⟩ := current still
        rw [same] at found
        have past := expired entry found
        omega
      · exact old window member same _
  unfold recordLoginFailure
  dsimp only
  split
  · rename_i none
    refine opened fun entry found => ?_
    rw [none] at found
    cases found
  · rename_i entry found
    split
    · rename_i past
      refine opened fun other same => ?_
      rw [found] at same
      obtain rfl := Option.some.inj same
      exact past
    · intro window member
      by_cases same : window.ip = ip
      · obtain ⟨within, current⟩ := throttled window member
        refine ⟨within, fun still => ?_⟩
        obtain ⟨first, stored, ends, counted⟩ := current still
        rw [same, found] at stored
        obtain rfl := Option.some.inj stored
        refine ⟨{ entry with count := entry.count + 1 }, by rw [same]; exact Function.update_self _ _ _, ends, ?_⟩
        rw [if_pos same]
        exact Nat.succ_le_succ counted
      · exact old window member same _

theorem recordLoginFailure_throttled {limit : Nat} {s : Logins} (throttled : Throttled limit s) (ip : String) :
    Throttled limit (recordLoginFailure s ip) := by
  intro window member
  obtain ⟨within, current⟩ := recordLoginFailure_room throttled ip window member
  refine ⟨within, fun still => ?_⟩
  rw [recordLoginFailure_now] at still
  obtain ⟨entry, found, ends, counted⟩ := current still
  exact ⟨entry, found, ends, by omega⟩

/-- A failure that the limiter admits is counted within the limit. -/
theorem recordLoginFailure_count {limit : Nat} (positive : 0 < limit) {s : Logins} {ip : String}
    (admitted : (rateLimit limit s ip).1 = none) :
    ∀ entry, (recordLoginFailure s ip).loginFailures ip = some entry → entry.count ≤ limit := by
  intro entry recorded
  unfold recordLoginFailure at recorded
  dsimp only at recorded
  split at recorded
  · dsimp only at recorded
    rw [Function.update_self] at recorded
    obtain rfl := Option.some.inj recorded
    exact positive
  · rename_i known found
    split at recorded
    · dsimp only at recorded
      rw [Function.update_self] at recorded
      obtain rfl := Option.some.inj recorded
      exact positive
    · rename_i running
      dsimp only at recorded
      rw [Function.update_self] at recorded
      obtain rfl := Option.some.inj recorded
      exact rateLimit_admits.mp admitted known found (by omega)

theorem performed_throttled {limit : Nat} (positive : 0 < limit) {s : Logins} (throttled : Throttled limit s) {ip : String}
    (admitted : (rateLimit limit s ip).1 = none) : Throttled limit (performed (recordLoginFailure s ip) ip) := by
  have room := recordLoginFailure_room throttled ip
  have count := recordLoginFailure_count positive admitted
  intro window member
  obtain ⟨before, inside, rfl⟩ := List.mem_map.mp member
  obtain ⟨within, current⟩ := room before inside
  have clock := recordLoginFailure_now s ip
  split
  · rename_i counted
    obtain ⟨same, still⟩ := counted
    rw [clock] at still
    obtain ⟨entry, found, ends, more⟩ := current still
    rw [if_pos same] at more
    have bounded := count entry (same ▸ found)
    exact ⟨by show before.performed + 1 ≤ limit; omega, fun _ => ⟨entry, found, ends, more⟩⟩
  · refine ⟨within, fun still => ?_⟩
    have still : s.now < before.resetAt := clock ▸ still
    obtain ⟨entry, found, ends, more⟩ := current still
    exact ⟨entry, found, ends, by omega⟩

theorem arrive_throttled {limit : Nat} {s : Logins} (throttled : Throttled limit s) (id : Nat) (ip : String) :
    Throttled limit (arrive limit s id ip) := by
  have dropped : ∀ entry, s.loginFailures ip = some entry → entry.resetAt ≤ s.now →
      Throttled limit { s with loginFailures := Function.update s.loginFailures ip none, waiting := (id, ip) :: s.waiting } := by
    intro entry found past window member
    obtain ⟨within, current⟩ := throttled window member
    refine ⟨within, fun still => ?_⟩
    obtain ⟨first, stored, ends, counted⟩ := current still
    by_cases same : window.ip = ip
    · rw [same, found] at stored
      obtain rfl := Option.some.inj stored
      have still : s.now < window.resetAt := still
      omega
    · refine ⟨first, ?_, ends, counted⟩
      show Function.update s.loginFailures ip none window.ip = some first
      rw [Function.update_of_ne same]
      exact stored
  unfold arrive rateLimit
  split
  · rename_i refused
    split at refused
    · cases refused
    · split at refused
      · cases refused
      · split at refused
        · cases refused
        · obtain ⟨-, rfl⟩ := Prod.mk.inj refused
          exact throttled
  · rename_i admitted
    split at admitted
    · obtain ⟨-, rfl⟩ := Prod.mk.inj admitted
      exact throttled
    · rename_i entry found
      split at admitted
      · rename_i past
        obtain ⟨-, rfl⟩ := Prod.mk.inj admitted
        exact dropped entry found past
      · split at admitted
        · obtain ⟨-, rfl⟩ := Prod.mk.inj admitted
          exact throttled
        · cases admitted

theorem clearLoginFailures_throttled {limit : Nat} {s : Logins} (throttled : Throttled limit s) {ip : String}
    (idle : ¬ Counting s ip) : Throttled limit (clearLoginFailures s ip) := by
  intro window member
  obtain ⟨within, current⟩ := throttled window member
  refine ⟨within, fun still => ?_⟩
  have still : s.now < window.resetAt := still
  obtain ⟨entry, found, ends, counted⟩ := current still
  have other : window.ip ≠ ip := by
    intro same
    exact idle ⟨entry, same ▸ found, by omega⟩
  refine ⟨entry, ?_, ends, counted⟩
  show Function.update s.loginFailures ip none window.ip = some entry
  rw [Function.update_of_ne other]
  exact found

/-- What one step keeps, where it verifies in turn. -/
theorem loginStep_throttled [Passwords] (env : OwnerEnv) {limit : Nat} (positive : 0 < limit) {s : Logins}
    (throttled : Throttled limit s) (e : LoginEvent) (inTurn : InTurn env limit s e) :
    Throttled limit (loginStep env limit s e) := by
  cases e with
  | tick ms =>
    intro window member
    obtain ⟨within, current⟩ := throttled window member
    refine ⟨within, fun still => current ?_⟩
    have still : s.now + ms < window.resetAt := still
    omega
  | request id ip =>
    rw [loginStep]
    split
    · exact throttled
    · exact arrive_throttled throttled id ip
  | body id credentials =>
    rw [loginStep]
    split
    · exact throttled
    · rename_i ip found
      have started : Throttled limit { s with waiting := s.waiting.filter (·.1 != id) } := throttled
      unfold finish
      split
      · exact recordLoginFailure_throttled started ip
      · rename_i email password
        have turn := inTurn ip found
        split
        · rename_i refused
          rw [if_pos refused] at turn
          refine performed_throttled positive started ?_
          rw [rateLimit_admits] at turn ⊢
          exact turn
        · rename_i owner accepted
          rw [if_neg (by rw [accepted]; simp)] at turn
          exact clearLoginFailures_throttled started turn

/-- In every run whose verifications come in turn, no window sees more failed verifications than the limit. -/
theorem failed_verifications_bounded [Passwords] (env : OwnerEnv) (limit : Nat) (positive : 0 < limit) (now : Int)
    (events : List LoginEvent) (inTurn : Along (loginStep env limit) (InTurn env limit) (Logins.start now) events) :
    ∀ n, ∀ window ∈ (run (loginStep env limit) (Logins.start now) (events.take n)).windows, window.performed ≤ limit := by
  intro n window member
  have kept := run_invariant_along (fun s e throttled met => loginStep_throttled env positive throttled e met)
    (fun _ none => absurd none List.not_mem_nil) (along_take inTurn n)
  exact (kept window member).1

/-- A request whose body arrives before anything else happens is in turn: the limiter would admit it again. -/
theorem rateLimit_again {limit : Nat} {s s' : Logins} {ip : String} (admitted : rateLimit limit s ip = (none, s')) :
    (rateLimit limit s' ip).1 = none := by
  rw [rateLimit_admits]
  intro entry found still
  have admits := rateLimit_admits.mp (congrArg Prod.fst admitted)
  unfold rateLimit at admitted
  split at admitted
  · obtain rfl := (Prod.mk.inj admitted).2
    exact admits entry found still
  · split at admitted
    · obtain rfl := (Prod.mk.inj admitted).2
      dsimp only at found
      rw [Function.update_self] at found
      cases found
    · split at admitted
      · obtain rfl := (Prod.mk.inj admitted).2
        exact admits entry found still
      · cases (Prod.mk.inj admitted).1

/-- Two wrong passwords, one after the other's answer. -/
theorem failed_verifications_bounded_one :
    let _ : Passwords := ⟨fun _ _ => false, id⟩
    let env : OwnerEnv := ⟨"owner@local", "hash", "", "", true⟩
    let events : List LoginEvent := [.request 1 "direct", .body 1 (some ("owner@local", "a")), .request 2 "direct",
      .body 2 (some ("owner@local", "b"))]
    ∀ n, ∀ window ∈ (run (loginStep env 1) (Logins.start 0) (events.take n)).windows, window.performed ≤ 1 := by
  intro _ env events
  exact failed_verifications_bounded env 1 (by decide) 0 events (by decide)

/-- Two wrong passwords whose requests both passed the limiter before either was verified. -/
theorem concurrent_failures_exceed :
    let _ : Passwords := ⟨fun _ _ => false, id⟩
    let env : OwnerEnv := ⟨"owner@local", "hash", "", "", true⟩
    let events : List LoginEvent := [.request 1 "direct", .request 2 "direct", .body 1 (some ("owner@local", "a")),
      .body 2 (some ("owner@local", "b"))]
    ∃ window ∈ (run (loginStep env 1) (Logins.start 0) events).windows, 1 < window.performed := by
  decide

end GroupButler.Owner
