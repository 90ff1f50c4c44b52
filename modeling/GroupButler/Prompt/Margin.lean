import GroupButler.Prompt.Ceiling

/-!
# A declared margin and the ceiling

The line break after a charged line is charged one token. A counter with a margin accounts more for
it, so for every multiplier above one some prompt passes the ceiling.
-/

namespace GroupButler.Prompt
open Foundation

/-! ### A counter by weights -/

/-- What a line break costs. -/
def breakWeight (m : ℚ) : ℚ := min m (4 / 3)

/-- `R`, `T` and `q` each occur once in one kind of header, and bring its three line breaks to four. -/
def weigh (m : ℚ) (c : Char) : ℚ :=
  if c = '\n' then breakWeight m
  else if c = 'R' ∨ c = 'T' ∨ c = 'q' then 4 - 3 * breakWeight m
  else if c = '#' then 1
  else 0

def weight (m : ℚ) (s : String) : ℚ := (s.toList.map (weigh m)).sum

@[simp] theorem weight_append (m : ℚ) (a b : String) : weight m (a ++ b) = weight m a + weight m b := by
  simp [weight]

def breaks (s : String) : Nat := s.toList.countP (· = '\n')

def initials (s : String) : Nat := s.toList.countP fun c => c = 'R' ∨ c = 'T' ∨ c = 'q'

def fillers (s : String) : Nat := s.toList.countP (· = '#')

/-- The weight of a text by what it holds. -/
theorem weight_eq (m : ℚ) (s : String) :
    weight m s = breakWeight m * breaks s + (4 - 3 * breakWeight m) * initials s + fillers s := by
  rw [weight, breaks, initials, fillers]
  induction s.toList with
  | nil => simp
  | cons c cs ih =>
    rw [List.map_cons, List.sum_cons, ih, List.countP_cons, List.countP_cons, List.countP_cons, weigh]
    by_cases line : c = '\n'
    · subst line
      simp
      ring
    · by_cases initial : c = 'R' ∨ c = 'T' ∨ c = 'q'
      · have other : c ≠ '#' := by rintro rfl; simp at initial
        simp [line, initial, other]
        ring
      · by_cases filler : c = '#'
        · subst filler
          simp
          ring
        · simp [line, initial, filler]

theorem weigh_bounds {m : ℚ} (margin : 1 < m) (c : Char) : 0 ≤ weigh m c ∧ weigh m c ≤ m := by
  have low : 1 ≤ breakWeight m := le_min margin.le (by norm_num)
  have high : breakWeight m ≤ 4 / 3 := min_le_right _ _
  have within : breakWeight m ≤ m := min_le_left _ _
  rw [weigh]
  split_ifs
  all_goals constructor <;> linarith

theorem weight_bounds {m : ℚ} (margin : 1 < m) (s : String) : 0 ≤ weight m s ∧ weight m s ≤ s.length * m := by
  rw [weight, ← String.length_toList]
  induction s.toList with
  | nil => simp
  | cons c cs ih =>
    have head := weigh_bounds margin c
    rw [List.map_cons, List.sum_cons, List.length_cons]
    push_cast
    constructor <;> linarith

/-- The weights as a counter of multiplier `m`. -/
def marginCounter (m : ℚ) (margin : 1 < m) : CharacterCounter where
  id := "weights"
  kind := .upperBound
  note := "one weight per character"
  multiplier := some m
  count s := weight m s / m
  count_append a b := by rw [weight_append, add_div]
  factor_nonneg := by show (0 : ℚ) ≤ m; linarith
  count_nonneg s := div_nonneg (weight_bounds margin s).1 (by linarith)
  count_le_length s := (div_le_iff₀ (by linarith)).mpr (weight_bounds margin s).2

theorem marginCounter_cost {m : ℚ} (margin : 1 < m) (s : String) :
    accountedCount (marginCounter m margin).toTokenCounter s = ⌈weight m s⌉ := by
  have factor : (marginCounter m margin).factor = m := rfl
  have scaled : (marginCounter m margin).count s * m = weight m s := div_mul_cancel₀ _ (by linarith)
  simp only [accountedCount, factor, if_neg margin.ne', scaled]

theorem marginCounter_cost_nat {m : ℚ} (margin : 1 < m) {s : String} {n : Nat} (whole : weight m s = n) :
    accountedCount (marginCounter m margin).toTokenCounter s = n := by
  rw [marginCounter_cost, whole, Int.ceil_natCast, Int.cast_natCast]

/-! ### A prompt that fills the content budget -/

def hashes (n : Nat) : String := String.ofList (List.replicate n '#')

@[simp] theorem weight_hashes (m : ℚ) (n : Nat) : weight m (hashes n) = n := by
  simp [weight, hashes, weigh]

theorem weight_plain (m : ℚ) {s : String} (plain : breaks s = 0 ∧ initials s = 0 ∧ fillers s = 0) : weight m s = 0 := by
  simp [weight_eq, plain]

/-- The shape every header has. -/
def Header (s : String) : Prop := breaks s = 3 ∧ initials s = 1 ∧ fillers s = 0

theorem memoryHeader_shape : Header memoryHeader := by unfold Header; decide

theorem historyHeader_shape : Header historyHeader := by unfold Header; decide

theorem toolsHeader_shape : Header toolsHeader := by unfold Header; decide

theorem requestHeader_shape : Header requestHeader := by unfold Header; decide

theorem weight_header (m : ℚ) {s : String} (header : Header s) : weight m s = 4 := by
  rw [weight_eq, header.1, header.2.1, header.2.2]
  push_cast
  ring

theorem weight_break (m : ℚ) : weight m "\n" = breakWeight m := by
  simp [weight, weigh]

/-- The stamp of a message sent at the epoch. -/
@[reducible] def epochStamp : HistoryStamp := ⟨fun _ => "1 Jan 1970, 00:00"⟩

def fillerMessage (n : Nat) : ReplyContextMessage := ⟨"", none, hashes n, 0, none, none⟩

def fillerFact (n : Nat) : RecalledFact := ⟨"", "", .decision, hashes n, .stated, []⟩

def fillerResult (n : Nat) : ReplyToolResult := ⟨"", hashes n⟩

theorem weight_fillerMessage (m : ℚ) (n : Nat) : weight m (@renderMessage epochStamp (fillerMessage n)) = n := by
  have shown : @renderMessage epochStamp (fillerMessage n) = "- 1 Jan 1970, 00:00 unknown sender: " ++ hashes n ++ "" := rfl
  rw [shown, String.append_empty, weight_append, weight_plain m (by decide), weight_hashes, zero_add]

theorem weight_fillerFact (m : ℚ) (n : Nat) : weight m (renderFact (fillerFact n)) = n := by
  have shown : renderFact (fillerFact n) = "- [decision] " ++ hashes n ++ " (batch ; source )" := by
    simp only [renderFact, fillerFact, MemoryFactKind.name, List.take_nil, String.intercalate_nil, String.append_assoc]
    rfl
  rw [shown, weight_append, weight_append, weight_plain m (by decide), weight_hashes, weight_plain m (by decide), zero_add, add_zero]

theorem weight_fillerResult (m : ℚ) (n : Nat) : weight m (renderToolResult (fillerResult n)) = n := by
  have shown : renderToolResult (fillerResult n) = "[] " ++ hashes n := rfl
  rw [shown, weight_append, weight_plain m (by decide), weight_hashes, zero_add]

theorem fillSegment_nil {α : Type} (counter : TokenCounter) (used segmentMax : ℚ) (header : String) (render : α → String) :
    fillSegment counter used header [] render segmentMax = ⟨[], used, 0⟩ := rfl

theorem fillSegment_one {α : Type} {counter : TokenCounter} {used segmentMax : ℚ} {header : String} {item : α} {render : α → String}
    (withinMax : lineCost counter (render item) ≤ segmentMax) (charged : 0 ≤ lineCost counter (render item))
    (within : used + accountedCount counter header + lineCost counter (render item) ≤ ceilingForContent) :
    fillSegment counter used header [item] render segmentMax =
      ⟨[render item], used + accountedCount counter header + lineCost counter (render item), 0⟩ := by
  have fits : ¬ (lineCost counter (render item) > segmentMax ∨
      lineCost counter (render item) > ceilingForContent - used - accountedCount counter header) := by
    rw [not_or, not_lt, not_lt]
    constructor <;> linarith
  have headed : used + accountedCount counter header ≤ ceilingForContent := by linarith
  simp [fillSegment, retain, retainLoop, headed, -not_or, -gt_iff_lt, fits]

/-- One filler line in every segment but the summaries'. -/
def fillerInput (request message fact tool : Nat) : ReplyInput where
  chatKind := .group
  currentRequest := hashes request
  messages := [fillerMessage message]
  «recall» := ⟨[], [fillerFact fact]⟩
  toolResults := [fillerResult tool]

def fillerPrompt (request message fact tool : Nat) : String :=
  memoryBlock [renderFact (fillerFact fact)] ++ block historyHeader [@renderMessage epochStamp (fillerMessage message)] ++
    block toolsHeader [renderToolResult (fillerResult tool)] ++ requestHeader ++ hashes request

/-- Its four headers, its fillers, and the three line breaks after its lines. -/
theorem weight_fillerPrompt (m : ℚ) (request message fact tool : Nat) :
    weight m (fillerPrompt request message fact tool) =
      16 + request + message + fact + tool + 3 * breakWeight m := by
  have memory : weight m (memoryBlock [renderFact (fillerFact fact)]) = 4 + fact + breakWeight m := by
    rw [memoryBlock, if_neg (by simp), joinLines, String.intercalate_singleton, weight_append, weight_append,
      weight_header m memoryHeader_shape, weight_fillerFact, weight_break]
  have shown {header line : String} {n : Nat} (shape : Header header) (whole : weight m line = n) :
      weight m (block header [line]) = 4 + n + breakWeight m := by
    rw [block, if_neg (by simp), joinLines, String.intercalate_singleton, weight_append, weight_append, weight_header m shape,
      whole, weight_break]
  rw [fillerPrompt, weight_append, weight_append, weight_append, weight_append, memory,
    shown historyHeader_shape (weight_fillerMessage m message), shown toolsHeader_shape (weight_fillerResult m tool),
    weight_header m requestHeader_shape, weight_hashes]
  ring

section Full
variable {m : ℚ} (margin : 1 < m)

theorem cost_header {s : String} (header : Header s) :
    accountedCount (marginCounter m margin).toTokenCounter s = 4 := by
  have whole : weight m s = (4 : Nat) := by simpa using weight_header m header
  simpa using marginCounter_cost_nat margin whole

/-- A segment whose one line is filler text keeps it, and charges four for its header. -/
theorem fillSegment_filler {α : Type} {used segmentMax : ℚ} {header : String} {item : α} {render : α → String} {n : Nat}
    (shape : Header header) (whole : weight m (render item) = n)
    (withinMax : (n : ℚ) + 1 ≤ segmentMax) (within : used + 4 + (n + 1) ≤ ceilingForContent) :
    fillSegment (marginCounter m margin).toTokenCounter used header [item] render segmentMax =
      ⟨[render item], used + 4 + (n + 1), 0⟩ := by
  have line : lineCost (marginCounter m margin).toTokenCounter (render item) = n + 1 := by
    rw [lineCost, marginCounter_cost_nat margin whole]
  have headerCost := cost_header margin shape
  have nonneg : (0 : ℚ) ≤ n := Nat.cast_nonneg n
  rw [fillSegment_one (by rw [line]; exact withinMax) (by rw [line]; linarith) (by rw [line, headerCost]; exact within),
    line, headerCost]

/-- Every segment keeps its line while the four together stay within the content budget. -/
theorem filler_assembled (request message fact tool : Nat) {system : Clip}
    (systemClip : clipToTokens (marginCounter m margin).toTokenCounter (replySystemPrompts .group) ReplySegmentMax.system = system)
    (requestMax : (request : ℚ) ≤ ReplySegmentMax.request)
    (messageMax : (message : ℚ) + 1 ≤ ReplySegmentMax.messages) (factMax : (fact : ℚ) + 1 ≤ ReplySegmentMax.facts)
    (toolMax : (tool : ℚ) + 1 ≤ ReplySegmentMax.tools)
    (within : accountedCount (marginCounter m margin).toTokenCounter system.text + 4 + request + 4 + (message + 1) + 4 +
      (fact + 1) + 4 + (tool + 1) ≤ ceilingForContent) :
    ∃ result, @assembleReplyPrompt epochStamp (marginCounter m margin).toTokenCounter (fillerInput request message fact tool) =
        .ok result ∧
      result.accountedTokens = accountedCount (marginCounter m margin).toTokenCounter system.text +
        accountedCount (marginCounter m margin).toTokenCounter (fillerPrompt request message fact tool) + reserveTokens := by
  have requestNonneg : (0 : ℚ) ≤ request := Nat.cast_nonneg _
  have messageNonneg : (0 : ℚ) ≤ message := Nat.cast_nonneg _
  have factNonneg : (0 : ℚ) ≤ fact := Nat.cast_nonneg _
  have toolNonneg : (0 : ℚ) ≤ tool := Nat.cast_nonneg _
  have requestCost := marginCounter_cost_nat margin (weight_hashes m request)
  have requestClip : clipToTokens (marginCounter m margin).toTokenCounter (hashes request) ReplySegmentMax.request =
      ⟨hashes request, request, false⟩ := by
    rw [clipToTokens_whole (by rw [requestCost]; exact requestMax), requestCost]
  have start : accountedCount (marginCounter m margin).toTokenCounter system.text +
      accountedCount (marginCounter m margin).toTokenCounter requestHeader +
      accountedCount (marginCounter m margin).toTokenCounter (hashes request) =
      accountedCount (marginCounter m margin).toTokenCounter system.text + 4 + request := by
    rw [requestCost, cost_header margin requestHeader_shape]
  have messages : fillSegment (marginCounter m margin).toTokenCounter
      (accountedCount (marginCounter m margin).toTokenCounter system.text +
        accountedCount (marginCounter m margin).toTokenCounter requestHeader +
        accountedCount (marginCounter m margin).toTokenCounter (hashes request)) historyHeader [fillerMessage message]
      (@renderMessage epochStamp) ReplySegmentMax.messages =
      ⟨[@renderMessage epochStamp (fillerMessage message)],
        accountedCount (marginCounter m margin).toTokenCounter system.text + 4 + request + 4 + (message + 1), 0⟩ := by
    rw [start]
    exact fillSegment_filler margin historyHeader_shape (weight_fillerMessage m message) messageMax (by linarith)
  have facts := fillSegment_filler margin memoryHeader_shape (weight_fillerFact m fact) factMax
    (show accountedCount (marginCounter m margin).toTokenCounter system.text + 4 + request + 4 + (message + 1) + 4 + (fact + 1) ≤
      ceilingForContent by linarith)
  have tools := fillSegment_filler margin toolsHeader_shape (weight_fillerResult m tool) toolMax within
  have small := start.trans_le (show accountedCount (marginCounter m margin).toTokenCounter system.text + 4 + request ≤
    ceilingForContent by linarith)
  clear start within requestMax messageMax factMax toolMax
  obtain ⟨result, ok, accounted⟩ := @assembleReplyPrompt_accounted epochStamp _ (fillerInput request message fact tool) _ _ _ _ _ _ systemClip requestClip
    small messages (fillSegment_nil _ _ _ _ _) facts tools
  exact ⟨result, ok, by rw [fillerPrompt]; exact accounted⟩

/-- The three line breaks were charged one token each and cost more. -/
theorem margin_exceeds : ∃ input result,
    @assembleReplyPrompt epochStamp (marginCounter m margin).toTokenCounter input = .ok result ∧
      replyPromptCeiling < result.accountedTokens := by
  obtain ⟨system, systemClip⟩ : ∃ system, clipToTokens (marginCounter m margin).toTokenCounter (replySystemPrompts .group)
      ReplySegmentMax.system = system := ⟨_, rfl⟩
  have within : accountedCount (marginCounter m margin).toTokenCounter system.text ≤ 5000 :=
    systemClip ▸ clip_cost_le (marginCounter m margin) (replySystemPrompts .group) ReplySegmentMax.system (by decide)
  have nonneg := cost_nonneg (marginCounter m margin) system.text
  obtain ⟨tool, left⟩ : ∃ tool : Nat, (tool : ℚ) = 22983 - accountedCount (marginCounter m margin).toTokenCounter system.text := by
    rw [marginCounter_cost] at within ⊢
    have high : ⌈weight m system.text⌉ ≤ 5000 := by exact_mod_cast within
    refine ⟨(22983 - ⌈weight m system.text⌉).toNat, ?_⟩
    have exact_ := Int.toNat_of_nonneg (show (0 : ℤ) ≤ 22983 - ⌈weight m system.text⌉ by omega)
    exact_mod_cast exact_
  obtain ⟨request, requestIs⟩ : ∃ request : Nat, (request : ℚ) = 4000 := ⟨4000, by norm_num⟩
  obtain ⟨message, messageIs⟩ : ∃ message : Nat, (message : ℚ) = 17999 := ⟨17999, by norm_num⟩
  obtain ⟨fact, factIs⟩ : ∃ fact : Nat, (fact : ℚ) = 15999 := ⟨15999, by norm_num⟩
  obtain ⟨result, ok, accounted⟩ := filler_assembled margin request message fact tool systemClip
    (by rw [ReplySegmentMax.request, requestIs]) (by rw [ReplySegmentMax.messages, messageIs]; norm_num)
    (by rw [ReplySegmentMax.facts, factIs]; norm_num) (by rw [ReplySegmentMax.tools]; linarith)
    (by rw [ceilingForContent_eq]; linarith)
  refine ⟨_, result, ok, ?_⟩
  have low : 1 < breakWeight m := lt_min margin (by norm_num)
  have ceil := Int.le_ceil (weight m (fillerPrompt request message fact tool))
  rw [← marginCounter_cost margin, weight_fillerPrompt] at ceil
  have content : ceilingForContent + reserveTokens = replyPromptCeiling := sub_add_cancel _ _
  rw [accounted, ← content, ceilingForContent_eq]
  linarith

end Full

end GroupButler.Prompt
