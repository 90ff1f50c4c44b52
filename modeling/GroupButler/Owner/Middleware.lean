import GroupButler.Foundation.Form
import GroupButler.Owner.Client

/-!
# The gate in front of the console

Every request but those for the framework's own files passes `middleware` first. Without a session's cookie a page is
answered with the sign-in, which remembers the page, and an API route with a refusal.
-/

namespace GroupButler.Owner
open Foundation

/-- `OPEN_API_PATHS` -/
def openApiPaths : List (List Char) :=
  ["/api/auth/login".toList, "/api/health".toList, "/api/internal/reply-jobs".toList, "/api/mcp".toList]

/-- `PUBLIC_PAGES` -/
def publicPages : List (List Char) := ["/login".toList]

def apiRoot : List Char := "/api/".toList

/-- `login` carries the `next` of the redirect, if any. -/
inductive Passage where
  | next
  | unauthorized
  | login (next : Option (List Char))
  deriving DecidableEq, Repr

def middleware (pathname search : List Char) (authenticated : Bool) : Passage :=
  if apiRoot.isPrefixOf pathname then
    if openApiPaths.contains pathname || authenticated then .next else .unauthorized
  else if authenticated || publicPages.contains pathname then .next
  else .login (if pathname ≠ defaultLanding then some (pathname ++ search) else none)

/-- `config.matcher`: all but the framework's own files and the icon. -/
def matched (pathname : List Char) : Bool :=
  match pathname with
  | '/' :: rest =>
    !("_next/static".toList.isPrefixOf rest || "_next/image".toList.isPrefixOf rest ||
      "favicon".toList.isPrefixOf rest && "ico".toList.isPrefixOf (rest.drop 8))
  | _ => false

def passage (pathname search : List Char) (authenticated : Bool) : Passage :=
  if matched pathname then middleware pathname search authenticated else .next

def Passage.status : Passage → Option Nat
  | .next => none
  | .unauthorized => some 401
  | .login _ => some 307

/-! ### Back from the sign-in -/

def nextField : List Char := "next".toList

/-- The query of the redirect. -/
def loginQuery (next : Option (List Char)) : List Char := formText (next.toList.map fun next => (nextField, next))

/-- Where the sign-in a request was answered with sends the owner. -/
def landing (pathname search : List Char) : Option (List Char) :=
  match passage pathname search false with
  | .login next => some (safeNextPath (formValue nextField (loginQuery next)))
  | _ => none

theorem formValue_loginQuery (next : Option (List Char)) : formValue nextField (loginQuery next) = next := by
  cases next with
  | none => rfl
  | some next => exact formValue_single nextField next

/-- A path that `safeNextPath` lets through. -/
def Honoured (value : List Char) : Prop :=
  (∃ rest, value = '/' :: rest ∧ rest.head? ≠ some '/') ∧ ∀ c ∈ value, 0x1f < c.toNat ∧ c.toNat ≠ 0x7f ∧ c ≠ '\\'

theorem safeNextPath_honoured {value : List Char} (honoured : Honoured value) : safeNextPath (some value) = value := by
  obtain ⟨⟨rest, rfl, single⟩, visible⟩ := honoured
  have path : ¬ (¬ ['/'].isPrefixOf ('/' :: rest) ∨ ['/', '/'].isPrefixOf ('/' :: rest)) := by
    cases rest with
    | nil => decide
    | cons c rest =>
      have other : ('/' == c) = false := beq_eq_false_iff_ne.mpr fun same => single (same ▸ rfl)
      simp [List.isPrefixOf, other]
  have shown : ¬ (('/' :: rest).any fun c => c.toNat ≤ 0x1f || c.toNat == 0x7f || c == '\\') = true := by
    intro hidden
    obtain ⟨c, member, bad⟩ := List.any_eq_true.mp hidden
    obtain ⟨high, delete, slash⟩ := visible c member
    simp only [Bool.or_eq_true, decide_eq_true_eq, beq_iff_eq] at bad
    rcases bad with (low | same) | same
    · omega
    · exact delete same
    · exact slash same
  simp only [safeNextPath, if_neg path, if_neg shown]

theorem safeNextPath_refused {value : List Char} (refused : ¬ Honoured value) : safeNextPath (some value) = defaultLanding := by
  simp only [safeNextPath]
  split
  · rfl
  · rename_i path
    split
    · rfl
    · rename_i shown
      exfalso
      apply refused
      rw [not_or, not_not] at path
      obtain ⟨slash, single⟩ := path
      constructor
      · cases value with
        | nil => cases slash
        | cons c rest =>
          have first : '/' = c := by simpa [List.isPrefixOf] using slash
          refine ⟨rest, by rw [first], ?_⟩
          intro second
          obtain ⟨tail, rfl⟩ : ∃ tail, rest = '/' :: tail := by
            cases rest with
            | nil => cases second
            | cons d tail => exact ⟨tail, by rw [Option.some.inj second]⟩
          exact single (by simp [← first, List.isPrefixOf])
      · intro c member
        rw [Bool.not_eq_true, List.any_eq_false] at shown
        have visible := shown c member
        simp only [Bool.or_eq_true, decide_eq_true_eq, beq_iff_eq, not_or] at visible
        exact ⟨by omega, visible.1.2, visible.2⟩

theorem honoured_of_all {rest : List Char} (single : rest.head? ≠ some '/')
    (visible : ('/' :: rest).all (fun c => decide (0x1f < c.toNat) && c.toNat != 0x7f && c != '\\') = true) :
    Honoured ('/' :: rest) := by
  refine ⟨⟨rest, rfl, single⟩, ?_⟩
  intro c member
  have shown := List.all_eq_true.mp visible c member
  simp only [Bool.and_eq_true, decide_eq_true_eq, bne_iff_ne] at shown
  exact ⟨shown.1.1, shown.1.2, shown.2⟩

theorem defaultLanding_honoured : Honoured defaultLanding := honoured_of_all (by decide) (by decide)

/-- Whoever asks for a page without a session comes back from the sign-in to that page and its query, unless `safeNextPath`
does not honour them, or there is a query to the root itself: those end at the root. -/
theorem landing_back {pathname search : List Char} (kept : matched pathname = true)
    (page : apiRoot.isPrefixOf pathname = false) (closed : pathname ∉ publicPages) :
    (landing pathname search = some (pathname ++ search) ↔
      if pathname = defaultLanding then search = [] else Honoured (pathname ++ search)) ∧
    (landing pathname search = some (pathname ++ search) ∨ landing pathname search = some defaultLanding) := by
  have answer : landing pathname search =
      some (safeNextPath (if pathname ≠ defaultLanding then some (pathname ++ search) else none)) := by
    have gate : passage pathname search false =
        .login (if pathname ≠ defaultLanding then some (pathname ++ search) else none) := by
      rw [passage, kept, if_pos rfl, middleware, page, if_neg (by decide), if_neg (by simpa using closed)]
    rw [landing, gate]
    simp only [formValue_loginQuery]
  rw [answer]
  by_cases root : pathname = defaultLanding
  · rw [if_pos root, if_neg (not_not.mpr root), root]
    refine ⟨?_, .inr rfl⟩
    constructor
    · intro back
      have same : defaultLanding = defaultLanding ++ search := Option.some.inj back
      simpa using same
    · intro none_
      rw [none_, List.append_nil]
      rfl
  · rw [if_neg root, if_pos root]
    by_cases honoured : Honoured (pathname ++ search)
    · rw [safeNextPath_honoured honoured]
      exact ⟨⟨fun _ => honoured, fun _ => rfl⟩, .inl rfl⟩
    · rw [safeNextPath_refused honoured]
      refine ⟨⟨?_, fun good => (honoured good).elim⟩, .inr rfl⟩
      intro back
      rw [← Option.some.inj back]
      exact defaultLanding_honoured

theorem landing_back_instances : landing "/instances/abc/groups".toList "?tab=a+b&q=100%25".toList =
    some ("/instances/abc/groups".toList ++ "?tab=a+b&q=100%25".toList) :=
  (landing_back (by decide) (by decide) (by decide)).1.mpr (by
    rw [if_neg (by decide)]
    exact @honoured_of_all "instances/abc/groups?tab=a+b&q=100%25".toList (by decide) (by decide))

end GroupButler.Owner
