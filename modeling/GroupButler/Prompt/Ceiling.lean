import GroupButler.Prompt.Assemble
import Mathlib.Tactic.NormNum

/-!
# What the assembled prompt costs

Lines are charged one by one, each with one token for the line break after it, and the total is the
accounted count of the joined strings. The two agree for a counter that declares no margin.
-/

namespace GroupButler.Prompt
open Foundation

/-- A counter that counts at most one token per character. -/
structure CharacterCounter extends SubadditiveCounter where
  count_nonneg : ∀ s, 0 ≤ count s
  count_le_length : ∀ s, count s ≤ s.length

section Accounting
variable (counter : CharacterCounter)

/-- The accounted figure, in the counter's own unit. -/
abbrev CharacterCounter.cost (s : String) : ℚ := accountedCount counter.toTokenCounter s

theorem cost_append (a b : String) : counter.cost (a ++ b) ≤ counter.cost a + counter.cost b :=
  accountedCount_append counter.toSubadditiveCounter a b

theorem cost_nonneg (s : String) : 0 ≤ counter.cost s := by
  have raw := counter.count_nonneg s
  rw [CharacterCounter.cost, accountedCount]
  by_cases unit : counter.factor = 1
  · simpa only [if_pos unit] using raw
  · simp only [if_neg unit]
    exact_mod_cast Int.ceil_nonneg (mul_nonneg raw counter.factor_nonneg)

@[simp] theorem cost_empty : counter.cost "" = 0 := by
  have raw : counter.count "" = 0 := le_antisymm (by simpa using counter.count_le_length "") (counter.count_nonneg "")
  simp [CharacterCounter.cost, accountedCount, raw]

theorem clip_cost_le (value : String) (max : ℚ) (room : 0 ≤ max) :
    counter.cost (clipToTokens counter.toTokenCounter value max).text ≤ max := by
  by_cases charged : Charged counter.toTokenCounter max value
  · exact (clipToTokens_charged counter.toSubadditiveCounter charged).1.trans (clipToTokens_used _ _ room)
  · rw [clipToTokens_uncharged charged]
    exact (cost_empty counter).trans_le room

/-- Joined lines and the break after them cost no more than the lines were charged for. -/
theorem cost_joinLines (separator : counter.cost "\n" ≤ 1) {lines : List String} (some_ : lines ≠ []) :
    counter.cost (joinLines lines ++ "\n") ≤ (lines.map (lineCost counter.toTokenCounter)).sum := by
  induction lines with
  | nil => exact absurd rfl some_
  | cons line rest ih =>
    have first : counter.cost (line ++ "\n") ≤ lineCost counter.toTokenCounter line :=
      (cost_append counter line "\n").trans (by rw [lineCost]; linarith)
    rw [List.map_cons, List.sum_cons]
    cases rest with
    | nil => simpa [joinLines] using first
    | cons next rest =>
      have split : joinLines (line :: next :: rest) ++ "\n" = (line ++ "\n") ++ (joinLines (next :: rest) ++ "\n") := by
        rw [joinLines, String.intercalate_cons_cons, joinLines, ← String.append_assoc]
      rw [split]
      exact (cost_append counter _ _).trans (add_le_add first (ih (List.cons_ne_nil _ _)))

end Accounting

/-! ### Segments -/

theorem retainLoop_spec {α : Type} {counter : TokenCounter} {render : α → String} {segmentMax budget : ℚ} (items : List α)
    {kept : List String} {used : ℚ} (charged : used = (kept.map (lineCost counter)).sum) (withinMax : used ≤ segmentMax)
    (withinBudget : used ≤ budget) :
    let result := retainLoop counter render segmentMax budget items kept used
    result.2 = (result.1.map (lineCost counter)).sum ∧ result.2 ≤ segmentMax ∧ result.2 ≤ budget := by
  induction items generalizing kept used with
  | nil => exact ⟨charged, withinMax, withinBudget⟩
  | cons item rest ih =>
    simp only [retainLoop]
    by_cases full : used + lineCost counter (render item) > segmentMax ∨ used + lineCost counter (render item) > budget
    · rw [if_pos full]
      exact ⟨charged, withinMax, withinBudget⟩
    · rw [if_neg full]
      rw [not_or, not_lt, not_lt] at full
      exact ih (by simp [charged]) full.1 full.2

theorem retain_spec {α : Type} (counter : TokenCounter) (items : List α) (render : α → String) {segmentMax budget : ℚ}
    (room : 0 ≤ segmentMax) (left : 0 ≤ budget) :
    (retain counter items render segmentMax budget).used =
        ((retain counter items render segmentMax budget).kept.map (lineCost counter)).sum ∧
      (retain counter items render segmentMax budget).used ≤ segmentMax ∧
      (retain counter items render segmentMax budget).used ≤ budget :=
  retainLoop_spec items rfl room left

/-- What a segment that kept `lines` charges. -/
def segmentCharge (counter : TokenCounter) (header : String) (lines : List String) : ℚ :=
  if lines.isEmpty then 0 else accountedCount counter header + (lines.map (lineCost counter)).sum

/-- A segment charges its header and its lines, and stays within its maximum and the content budget. -/
theorem fillSegment_spec {α : Type} (counter : TokenCounter) {used : ℚ} (header : String) (items : List α)
    (render : α → String) (segmentMax : ℚ) (room : 0 ≤ segmentMax) (within : used ≤ ceilingForContent) :
    let segment := fillSegment counter used header items render segmentMax
    segment.used = used + segmentCharge counter header segment.lines ∧ segment.used ≤ ceilingForContent ∧
      (segment.lines.map (lineCost counter)).sum ≤ segmentMax := by
  simp only [fillSegment]
  by_cases none : items.isEmpty
  · simp [none, segmentCharge, within, room]
  · rw [if_neg none]
    by_cases fits : used + accountedCount counter header ≤ ceilingForContent
    · rw [if_pos fits]
      have budget : (0 : ℚ) ≤ ceilingForContent - used - accountedCount counter header := by linarith
      obtain ⟨charged, withinMax, withinBudget⟩ := retain_spec counter items render room budget
      generalize retain counter items render segmentMax (ceilingForContent - used - accountedCount counter header) =
        retained at charged withinMax withinBudget ⊢
      by_cases empty : retained.kept.isEmpty
      · simp [empty, segmentCharge, within, room]
      · simp only [empty, segmentCharge, Bool.false_eq_true, if_false, ← charged]
        exact ⟨by ring, by linarith, withinMax⟩
    · simp [if_neg fits, segmentCharge, within, room]

/-! ### The total -/

theorem ceilingForContent_eq : ceilingForContent = 61000 := by
  norm_num [ceilingForContent, reserveTokens, replyPromptCeiling, replyToolReserveTokens, replyToolResultReserveTokens,
    replyToolLoopHistoryReserveTokens, replyStructuralReserveTokens, replyOutputReserveTokens]

section Total
variable (counter : CharacterCounter)

/-- A block costs at most what its segment charged, whatever the order of its lines. -/
theorem cost_block (separator : counter.cost "\n" ≤ 1) (header : String) {lines shown : List String}
    (same : shown.Perm lines) :
    counter.cost (block header shown) ≤ segmentCharge counter.toTokenCounter header lines := by
  rw [block, segmentCharge, same.isEmpty_eq]
  split
  · exact (cost_empty counter).le
  · rename_i some_
    rw [String.append_assoc, ← (same.map (lineCost counter.toTokenCounter)).sum_eq]
    have nonempty : shown ≠ [] := fun none => some_ (by rw [← same.isEmpty_eq, none]; rfl)
    exact (cost_append counter _ _).trans (add_le_add le_rfl (cost_joinLines counter separator nonempty))

/-- Recalled memory under one header costs at most what its two segments charged. -/
theorem cost_memoryBlock (separator : counter.cost "\n" ≤ 1) {summaries facts : List String} (some_ : summaries ++ facts ≠ []) :
    counter.cost (memoryBlock (summaries ++ facts)) ≤
      segmentCharge counter.toTokenCounter memoryHeader summaries + segmentCharge counter.toTokenCounter memoryHeader facts := by
  have shown : memoryBlock (summaries ++ facts) = memoryHeader ++ (joinLines (summaries ++ facts) ++ "\n") := by
    rw [memoryBlock, if_neg (by simpa using some_), String.append_assoc]
  have lines := cost_joinLines counter separator some_
  have header := cost_nonneg counter memoryHeader
  rw [List.map_append, List.sum_append] at lines
  refine (shown ▸ cost_append counter memoryHeader _).trans ?_
  cases summaries with
  | nil =>
    have some_ : facts ≠ [] := some_
    simp only [segmentCharge, List.isEmpty_nil, if_true, List.isEmpty_iff, if_neg some_]
    simp only [List.map_nil, List.sum_nil] at lines
    linarith
  | cons summary summaries =>
    simp only [segmentCharge, List.isEmpty_cons, Bool.false_eq_true, if_false]
    cases facts with
    | nil =>
      simp only [List.map_nil, List.sum_nil] at lines
      simp only [List.isEmpty_nil, if_true]
      linarith
    | cons fact facts =>
      simp only [List.isEmpty_cons, Bool.false_eq_true, if_false]
      linarith

theorem segmentCharge_le (header : String) {lines : List String} (segmentMax : ℚ) (room : 0 ≤ segmentMax)
    (within : (lines.map (lineCost counter.toTokenCounter)).sum ≤ segmentMax) :
    segmentCharge counter.toTokenCounter header lines ≤ counter.cost header + segmentMax := by
  have headerCost := cost_nonneg counter header
  rw [segmentCharge]
  split
  · linarith
  · exact add_le_add le_rfl within

theorem cost_prompt (memory history tools request : String) :
    counter.cost (memory ++ history ++ tools ++ requestHeader ++ request) ≤
      counter.cost memory + counter.cost history + counter.cost tools + counter.cost requestHeader + counter.cost request := by
  have first := cost_append counter memory history
  have second := cost_append counter (memory ++ history) tools
  have third := cost_append counter (memory ++ history ++ tools) requestHeader
  have fourth := cost_append counter (memory ++ history ++ tools ++ requestHeader) request
  linarith

/-- The assembled prompt stays under the ceiling when a line break costs one token and the texts that
are never charged fit beside the segments' maxima. -/
theorem ceiling_of_separator [HistoryStamp] (separator : counter.cost "\n" ≤ 1)
    (fixed : counter.cost requestHeader + counter.cost historyHeader + counter.cost toolsHeader +
      counter.cost (memoryBlock []) ≤ 2000) {input : ReplyInput} {result : AssembledReplyPrompt}
    (ok : assembleReplyPrompt counter.toTokenCounter input = .ok result) : result.accountedTokens ≤ replyPromptCeiling := by
  have system := clip_cost_le counter (replySystemPrompts input.chatKind) ReplySegmentMax.system (by decide)
  have request := clip_cost_le counter input.currentRequest ReplySegmentMax.request (by decide)
  simp only [assembleReplyPrompt] at ok
  generalize clipToTokens counter.toTokenCounter (replySystemPrompts input.chatKind) ReplySegmentMax.system = systemClip at *
  generalize clipToTokens counter.toTokenCounter input.currentRequest ReplySegmentMax.request = requestClip at *
  split at ok
  · cases ok
  · rename_i start
    rw [not_lt] at start
    obtain ⟨messagesUsed, messagesWithin, messagesMax⟩ := fillSegment_spec counter.toTokenCounter historyHeader
      input.messages.reverse renderMessage ReplySegmentMax.messages (by decide) start
    generalize fillSegment counter.toTokenCounter _ historyHeader _ _ _ = messages at *
    obtain ⟨summariesUsed, summariesWithin, -⟩ := fillSegment_spec counter.toTokenCounter memoryHeader
      input.recall.summaries renderSummary ReplySegmentMax.summaries (by decide) messagesWithin
    generalize fillSegment counter.toTokenCounter _ memoryHeader _ renderSummary _ = summaries at *
    obtain ⟨factsUsed, factsWithin, -⟩ := fillSegment_spec counter.toTokenCounter memoryHeader
      input.recall.facts renderFact ReplySegmentMax.facts (by decide) summariesWithin
    generalize fillSegment counter.toTokenCounter _ memoryHeader _ renderFact _ = facts at *
    obtain ⟨toolsUsed, toolsWithin, toolsMax⟩ := fillSegment_spec counter.toTokenCounter toolsHeader
      input.toolResults renderToolResult ReplySegmentMax.tools (by decide) factsWithin
    generalize fillSegment counter.toTokenCounter _ toolsHeader _ _ _ = tools at *
    cases ok
    have history := cost_block counter separator historyHeader (List.reverse_perm messages.lines)
    have toolResults := cost_block counter separator toolsHeader (List.Perm.refl tools.lines)
    have prompt := cost_prompt counter (memoryBlock (summaries.lines ++ facts.lines)) (block historyHeader messages.lines.reverse)
      (block toolsHeader tools.lines) requestClip.text
    have content : counter.cost systemClip.text + counter.cost (memoryBlock (summaries.lines ++ facts.lines) ++
        block historyHeader messages.lines.reverse ++ block toolsHeader tools.lines ++ requestHeader ++ requestClip.text) ≤
        ceilingForContent := by
      by_cases recalled : summaries.lines ++ facts.lines = []
      · -- nothing recalled: the memory block is in nobody's charge, but four segments cannot fill the content
        obtain ⟨noSummaries, noFacts⟩ := List.append_eq_nil_iff.mp recalled
        have messagesCharge := segmentCharge_le counter historyHeader ReplySegmentMax.messages (by decide) messagesMax
        have toolsCharge := segmentCharge_le counter toolsHeader ReplySegmentMax.tools (by decide) toolsMax
        have maxima : ReplySegmentMax.system + ReplySegmentMax.request + ReplySegmentMax.messages + ReplySegmentMax.tools + 2000 =
            ceilingForContent := by
          rw [ceilingForContent_eq, ReplySegmentMax.system, ReplySegmentMax.request, ReplySegmentMax.messages,
            ReplySegmentMax.tools]
          norm_num
        rw [recalled] at prompt ⊢
        linarith
      · have memory := cost_memoryBlock counter separator recalled
        linarith
    have total : ceilingForContent + reserveTokens = replyPromptCeiling := sub_add_cancel _ _
    show counter.cost systemClip.text + counter.cost _ + reserveTokens ≤ replyPromptCeiling
    linarith

/-- A counter that declares no margin meets the ceiling on every input. -/
theorem ceiling_of_exact [HistoryStamp] (exact_ : counter.factor = 1) {input : ReplyInput} {result : AssembledReplyPrompt}
    (ok : assembleReplyPrompt counter.toTokenCounter input = .ok result) : result.accountedTokens ≤ replyPromptCeiling := by
  have length (s : String) : counter.cost s ≤ s.length := by
    simpa only [CharacterCounter.cost, accountedCount, if_pos exact_] using counter.count_le_length s
  have lengths : requestHeader.length + historyHeader.length + toolsHeader.length + (memoryBlock []).length ≤ 2000 := by
    decide +kernel
  refine ceiling_of_separator counter (length "\n") ?_ ok
  have cast : ((requestHeader.length + historyHeader.length + toolsHeader.length + (memoryBlock []).length : Nat) : ℚ) ≤ 2000 := by
    exact_mod_cast lengths
  push_cast at cast
  linarith [length requestHeader, length historyHeader, length toolsHeader, length (memoryBlock [])]

end Total

end GroupButler.Prompt
