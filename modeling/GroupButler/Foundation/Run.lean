/-!
# Runs of a step function

A system is a step function on states. An interleaving of its parties is a list of events: each
event is one atomic step of one party, and an event the state does not admit changes nothing.
-/

namespace GroupButler.Foundation

universe u v
variable {σ : Type u} {ε : Type v} (step : σ → ε → σ)

/-- The state after `events`, in order. -/
def run (s : σ) (events : List ε) : σ := events.foldl step s

@[simp] theorem run_nil (s : σ) : run step s [] = s := rfl

@[simp] theorem run_cons (s : σ) (e : ε) (events : List ε) :
    run step s (e :: events) = run step (step s e) events := rfl

theorem run_append (s : σ) (first rest : List ε) :
    run step s (first ++ rest) = run step (run step s first) rest := by
  simp [run]

/-- Every step of the run meets `C`, which sees the event and the state before it. -/
def Along (C : σ → ε → Prop) : σ → List ε → Prop
  | _, [] => True
  | s, e :: events => C s e ∧ Along C (step s e) events

@[simp] theorem along_nil (C : σ → ε → Prop) (s : σ) : Along step C s [] := trivial

@[simp] theorem along_cons (C : σ → ε → Prop) (s : σ) (e : ε) (events : List ε) :
    Along step C s (e :: events) ↔ C s e ∧ Along step C (step s e) events := Iff.rfl

instance instDecidableAlong (C : σ → ε → Prop) [∀ s e, Decidable (C s e)] :
    (s : σ) → (events : List ε) → Decidable (Along step C s events)
  | _, [] => .isTrue trivial
  | s, e :: events =>
    have := instDecidableAlong C (step s e) events
    inferInstanceAs (Decidable (C s e ∧ Along step C (step s e) events))

theorem along_append (C : σ → ε → Prop) (s : σ) (first rest : List ε) :
    Along step C s (first ++ rest) ↔ Along step C s first ∧ Along step C (run step s first) rest := by
  induction first generalizing s with
  | nil => simp
  | cons e first ih => simp [ih, and_assoc]

variable {step}

theorem along_take {C : σ → ε → Prop} {s : σ} {events : List ε} (along : Along step C s events) (n : Nat) :
    Along step C s (events.take n) := by
  rw [← List.take_append_drop n events, along_append] at along
  exact along.1

/-- An invariant that every admitted step keeps holds after the run. -/
theorem run_invariant_along {I : σ → Prop} {C : σ → ε → Prop}
    (keep : ∀ s e, I s → C s e → I (step s e)) {s : σ} (start : I s) {events : List ε}
    (along : Along step C s events) : I (run step s events) := by
  induction events generalizing s with
  | nil => exact start
  | cons e events ih => exact ih (keep s e start along.1) along.2

theorem along_of_forall {C : ε → Prop} {events : List ε} (all : ∀ e ∈ events, C e) (s : σ) :
    Along step (fun _ e => C e) s events := by
  induction events generalizing s with
  | nil => trivial
  | cons e events ih =>
    exact ⟨all e List.mem_cons_self, ih (fun other member => all other (List.mem_cons_of_mem _ member)) _⟩

theorem run_invariant {I : σ → Prop} (keep : ∀ s e, I s → I (step s e)) {s : σ} (start : I s)
    (events : List ε) : I (run step s events) := by
  induction events generalizing s with
  | nil => exact start
  | cons e events ih => exact ih (keep s e start)

/-- A transitive relation that holds across each step from an invariant state holds across the run. -/
theorem run_relates {I : σ → Prop} {R : σ → σ → Prop} (keep : ∀ s e, I s → I (step s e))
    (refl : ∀ s, R s s) (trans : ∀ {a b c}, R a b → R b c → R a c)
    (related : ∀ s e, I s → R s (step s e)) {s : σ} (start : I s) (events : List ε) :
    R s (run step s events) := by
  induction events generalizing s with
  | nil => exact refl s
  | cons e events ih => exact trans (related s e start) (ih (keep s e start))

/-- A property that a step keeps exactly under a condition holds in every state of a run exactly when
the condition is met along it. -/
theorem prefixes_iff_along {I P : σ → Prop} {C : σ → ε → Prop} (keep : ∀ s e, I s → I (step s e))
    (exact_ : ∀ s e, I s → P s → (P (step s e) ↔ C s e)) {s : σ} (start : I s) (holds : P s) (events : List ε) :
    (∀ n, P (run step s (events.take n))) ↔ Along step C s events := by
  induction events generalizing s with
  | nil => simp [holds]
  | cons e events ih =>
    have tail := ih (keep s e start)
    constructor
    · intro all
      have next : P (step s e) := all 1
      exact ⟨(exact_ s e start holds).mp next, (tail next).mp fun n => all (n + 1)⟩
    · rintro ⟨met, along⟩ n
      have next : P (step s e) := (exact_ s e start holds).mpr met
      cases n with
      | zero => exact holds
      | succ n => exact (tail next).mpr along n

/-- The same for a relation between the states of a run, which each step keeps exactly under a condition. -/
theorem relates_iff_along {I : σ → Prop} {R : σ → σ → Prop} {C : σ → ε → Prop} (keep : ∀ s e, I s → I (step s e))
    (refl : ∀ s, R s s) (trans : ∀ {a b c}, R a b → R b c → R a c) (exact_ : ∀ s e, I s → (R s (step s e) ↔ C s e))
    {s : σ} (start : I s) (events : List ε) :
    (∀ first later rest, events = first ++ later ++ rest → R (run step s first) (run step s (first ++ later))) ↔
      Along step C s events := by
  induction events generalizing s with
  | nil =>
    refine ⟨fun _ => trivial, fun _ first later rest split => ?_⟩
    obtain ⟨rfl, rfl, rfl⟩ : first = [] ∧ later = [] ∧ rest = [] := by simpa using split
    exact refl s
  | cons e events ih =>
    have tail := ih (keep s e start)
    constructor
    · intro all
      refine ⟨(exact_ s e start).mp (all [] [e] events rfl), tail.mp fun first later rest split => ?_⟩
      exact all (e :: first) later rest (by rw [split]; rfl)
    · rintro ⟨met, along⟩ first later rest split
      have step_ : R s (step s e) := (exact_ s e start).mpr met
      cases first with
      | cons head first =>
        obtain ⟨rfl, same⟩ := List.cons_eq_cons.mp split
        exact tail.mpr along first later rest same
      | nil =>
        cases later with
        | nil => exact refl s
        | cons head later =>
          obtain ⟨rfl, same⟩ := List.cons_eq_cons.mp split
          exact trans step_ (tail.mpr along [] later rest same)

/-! ### Histories -/

theorem run_concat (step : σ → ε → σ) (s : σ) (events : List ε) (e : ε) :
    run step s (events ++ [e]) = step (run step s events) e := by
  rw [run_append, run_cons, run_nil]

/-- A step of the run met `C`, which sees the event and the state before it. -/
def Once (step : σ → ε → σ) (C : σ → ε → Prop) (s : σ) (events : List ε) : Prop :=
  ∃ before e after, events = before ++ e :: after ∧ C (run step s before) e

theorem once_last {C : σ → ε → Prop} {s : σ} {events : List ε} {e : ε} (met : C (run step s events) e) :
    Once step C s (events ++ [e]) := ⟨events, e, [], rfl, met⟩

theorem once_append {C : σ → ε → Prop} {s : σ} {events : List ε} (once : Once step C s events) (rest : List ε) :
    Once step C s (events ++ rest) := by
  obtain ⟨before, e, after, split, met⟩ := once
  exact ⟨before, e, after ++ rest, by rw [split, List.append_assoc, List.cons_append], met⟩

end GroupButler.Foundation
