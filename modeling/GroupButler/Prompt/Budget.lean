import GroupButler.Foundation.Run
import GroupButler.Prompt.Tokens

/-!
# The tool-result allowance of one reply

Every tool call of a reply spends one allowance. A call reads it when it starts and spends it when
its result arrives, so calls that run in parallel interleave at these two points.
-/

namespace GroupButler.Prompt
open Foundation

/-- `REPLY_TOOL_RESULT_RESERVE_TOKENS`. -/
def replyToolResultReserveTokens : ℚ := 32000

/-- `TOOL_BUDGET_SPENT`: what the model reads once nothing is left. -/
def toolBudgetSpent : String := "[tool result omitted: this reply's tool budget is exhausted]"

/-- `tokenResultBudget`: what is left of the allowance, in the counter's unit. -/
structure ToolResultBudget where
  tokens : ℚ

def tokenResultBudget (tokens : ℚ) : ToolResultBudget := ⟨tokens⟩

def ToolResultBudget.spent (remaining : ToolResultBudget) : Bool := remaining.tokens ≤ 0

def ToolResultBudget.clip (counter : TokenCounter) (remaining : ToolResultBudget) (text : String) : String × ToolResultBudget :=
  let clipped := clipToTokens counter text remaining.tokens
  -- not one code point fits: the allowance is spent too
  if clipped.text = "" ∧ text ≠ "" then (clipped.text, ⟨0⟩) else (clipped.text, ⟨remaining.tokens - clipped.used⟩)

/-- The tool loop of one reply: the shared allowance, the calls under way, and the texts returned. -/
structure ToolLoop where
  remaining : ToolResultBudget
  inFlight : List Nat
  returned : List String

inductive ToolEvent where
  /-- The model calls a tool of any set. -/
  | call (id : Nat)
  /-- The tool answered; the text is its result without the images lifted out of it. -/
  | result (id : Nat) (withoutImages : String)
  /-- The tool call threw, and `execute` with it. -/
  | throws (id : Nat)

/-- `toolSetOf.execute` up to the tool call, and from its answer on. -/
def execute (counter : TokenCounter) (s : ToolLoop) : ToolEvent → ToolLoop
  | .call id =>
    if id ∈ s.inFlight then s
    else if s.remaining.spent then { s with returned := s.returned ++ [toolBudgetSpent] }
    else { s with inFlight := id :: s.inFlight }
  | .result id withoutImages =>
    if id ∈ s.inFlight then
      let (text, remaining) := s.remaining.clip counter withoutImages
      let answer := if text = "" ∧ withoutImages ≠ "" then toolBudgetSpent else text
      { remaining, inFlight := s.inFlight.erase id, returned := s.returned ++ [answer] }
    else s
  | .throws id => { s with inFlight := s.inFlight.erase id }

/-- A reply starts with the whole reserve. -/
def ToolLoop.start : ToolLoop := ⟨tokenResultBudget replyToolResultReserveTokens, [], []⟩

/-- The accounted tokens of all the texts returned so far. -/
def ToolLoop.total (counter : TokenCounter) (s : ToolLoop) : ℚ := (s.returned.map (accountedCount counter)).sum

@[simp] theorem total_start (counter : TokenCounter) : ToolLoop.start.total counter = 0 := rfl

theorem total_append (counter : TokenCounter) (s : ToolLoop) (remaining : ToolResultBudget) (inFlight : List Nat) (text : String) :
    ToolLoop.total counter ⟨remaining, inFlight, s.returned ++ [text]⟩ = s.total counter + accountedCount counter text := by
  simp [ToolLoop.total]

/-- What is returned and what is left never come to more than the reserve, and the rest is never negative. -/
structure Kept (counter : TokenCounter) (s : ToolLoop) : Prop where
  room : 0 ≤ s.remaining.tokens
  within : s.total counter + s.remaining.tokens ≤ replyToolResultReserveTokens

/-- A text returned without a charge still fits: what is left after it is `left`. -/
def Fits (counter : TokenCounter) (s : ToolLoop) (text : String) (left : ℚ) : Prop :=
  s.total counter + accountedCount counter text + left ≤ replyToolResultReserveTokens

/-- Each answer is charged for, or fits without a charge. -/
def Covered (counter : TokenCounter) (s : ToolLoop) : ToolEvent → Prop
  | .call id => id ∈ s.inFlight ∨ s.remaining.spent = false ∨ Fits counter s toolBudgetSpent 0
  | .result id withoutImages =>
    id ∉ s.inFlight ∨ Charged counter s.remaining.tokens withoutImages ∨
      if withoutImages = "" then Fits counter s "" s.remaining.tokens else Fits counter s toolBudgetSpent 0
  | .throws _ => True

instance (counter : TokenCounter) (s : ToolLoop) (text : String) (left : ℚ) : Decidable (Fits counter s text left) :=
  inferInstanceAs (Decidable (_ ≤ _))

instance (counter : TokenCounter) (s : ToolLoop) : (e : ToolEvent) → Decidable (Covered counter s e)
  | .call _ => inferInstanceAs (Decidable (_ ∨ _ ∨ _))
  | .result id withoutImages =>
    inferInstanceAs (Decidable (id ∉ s.inFlight ∨ Charged counter s.remaining.tokens withoutImages ∨
      if withoutImages = "" then Fits counter s "" s.remaining.tokens else Fits counter s toolBudgetSpent 0))
  | .throws _ => .isTrue trivial

theorem start_kept (counter : TokenCounter) : Kept counter ToolLoop.start :=
  ⟨by simp [ToolLoop.start, tokenResultBudget, replyToolResultReserveTokens],
    by rw [total_start, zero_add]; rfl⟩

theorem clip_charged (counter : SubadditiveCounter) {remaining : ToolResultBudget} {text : String}
    (room : 0 ≤ remaining.tokens) (charged : Charged counter.toTokenCounter remaining.tokens text) :
    0 ≤ (remaining.clip counter.toTokenCounter text).2.tokens ∧
      accountedCount counter.toTokenCounter (remaining.clip counter.toTokenCounter text).1 +
        (remaining.clip counter.toTokenCounter text).2.tokens ≤ remaining.tokens ∧
      ¬ ((remaining.clip counter.toTokenCounter text).1 = "" ∧ text ≠ "") := by
  obtain ⟨paid, empty⟩ := clipToTokens_charged counter charged
  have within := clipToTokens_used counter.toTokenCounter text room
  have some_ : ¬ ((clipToTokens counter.toTokenCounter text remaining.tokens).text = "" ∧ text ≠ "") :=
    fun none => none.2 (empty none.1)
  rw [ToolResultBudget.clip, if_neg some_]
  exact ⟨by linarith, by linarith, some_⟩

/-- Any other result is dropped; the allowance goes with it unless the result was empty. -/
theorem clip_uncharged {counter : TokenCounter} {remaining : ToolResultBudget} {text : String}
    (uncharged : ¬ Charged counter remaining.tokens text) :
    remaining.clip counter text = ("", if text = "" then remaining else ⟨0⟩) := by
  rw [ToolResultBudget.clip, clipToTokens_uncharged uncharged]
  by_cases none : text = ""
  · simp [none]
  · simp [none]

theorem call_kept {counter : TokenCounter} {s : ToolLoop} (kept : Kept counter s) (id : Nat)
    (covered : Covered counter s (.call id)) : Kept counter (execute counter s (.call id)) := by
  rw [execute]
  split
  · exact kept
  · rename_i fresh
    split
    · rename_i spent
      have none : s.remaining.tokens ≤ 0 := by simpa [ToolResultBudget.spent] using spent
      have fits := (covered.resolve_left fresh).resolve_left (by simp [spent])
      refine ⟨kept.room, ?_⟩
      rw [total_append]
      have exact_ := kept.room
      rw [Fits] at fits
      linarith
    · exact ⟨kept.room, kept.within⟩

theorem result_kept (counter : SubadditiveCounter) {s : ToolLoop} (kept : Kept counter.toTokenCounter s) (id : Nat)
    (withoutImages : String) (covered : Covered counter.toTokenCounter s (.result id withoutImages)) :
    Kept counter.toTokenCounter (execute counter.toTokenCounter s (.result id withoutImages)) := by
  rw [execute]
  split
  · rename_i running
    have answered := covered.resolve_left (not_not.mpr running)
    by_cases charged : Charged counter.toTokenCounter s.remaining.tokens withoutImages
    · obtain ⟨room, paid, some_⟩ := clip_charged counter kept.room charged
      refine ⟨room, ?_⟩
      rw [total_append, if_neg some_]
      linarith [kept.within]
    · have fits := answered.resolve_left charged
      rw [clip_uncharged charged]
      by_cases none : withoutImages = ""
      · rw [if_pos none] at fits
        refine ⟨by simpa [none] using kept.room, ?_⟩
        rw [total_append]
        simpa [none, Fits] using fits
      · rw [if_neg none] at fits
        refine ⟨by simp [none], ?_⟩
        rw [total_append]
        simpa [none, Fits] using fits
  · exact kept

/-- One step keeps the sum of what is returned and what is left within the reserve. -/
theorem execute_kept (counter : SubadditiveCounter) (s : ToolLoop) (e : ToolEvent) (kept : Kept counter.toTokenCounter s)
    (covered : Covered counter.toTokenCounter s e) : Kept counter.toTokenCounter (execute counter.toTokenCounter s e) := by
  cases e with
  | call id => exact call_kept kept id covered
  | result id withoutImages => exact result_kept counter kept id withoutImages covered
  | throws id => exact ⟨kept.room, kept.within⟩

/-- A document of `n` letters. -/
def letters (n : Nat) : String := String.ofList (List.replicate n 'a')

theorem letters_bytes (n : Nat) : accountedCount byteUpperBoundCounter (letters n) = n := by
  induction n with
  | zero => rfl
  | succ n ih =>
    have split : letters (n + 1) = "a" ++ letters n := by
      rw [letters, List.replicate_succ, String.ofList_cons, String.singleton_eq_ofList]
      rfl
    have tail : accountTokens (letters n) = n := ih
    have whole : accountTokens ("a" ++ letters n) = 1 + n := by
      rw [byte_count_append, tail]
      rfl
    calc accountedCount byteUpperBoundCounter (letters (n + 1)) = accountTokens ("a" ++ letters n) := by rw [split]; rfl
      _ = ((n + 1 : Nat) : ℚ) := by rw [whole]; push_cast; ring

/-- A result of exactly the reserve is returned whole and leaves nothing. -/
theorem reserve_filled {counter : TokenCounter} {text : String} (nonempty : text ≠ "")
    (price : accountedCount counter text = replyToolResultReserveTokens) :
    run (execute counter) ToolLoop.start [.call 0, .result 0 text] = ⟨⟨0⟩, [], [text]⟩ := by
  have called : execute counter ToolLoop.start (.call 0) = ⟨⟨replyToolResultReserveTokens⟩, [0], []⟩ := by
    have unspent : ToolLoop.start.remaining.spent = false := by decide
    rw [execute, if_neg (by simp [ToolLoop.start]), unspent, if_neg Bool.false_ne_true]
    rfl
  have clipped : ToolResultBudget.clip counter ⟨replyToolResultReserveTokens⟩ text = (text, ⟨0⟩) := by
    rw [ToolResultBudget.clip, clipToTokens_whole price.le, if_neg (fun none => nonempty none.1), price, sub_self]
  rw [run_cons, called, run_cons, run_nil, execute, if_pos (by simp), clipped]
  simp [nonempty]

end GroupButler.Prompt
