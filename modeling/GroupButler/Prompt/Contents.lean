import GroupButler.Prompt.Ceiling

/-!
# What a prompt holds

The counts, the flags, the provenance and the text of an assembled prompt are built separately. They all
speak of the same items: the newest messages and the fronts of the other lists.
-/

namespace GroupButler.Prompt

/-- An answer that speaks of `messages`, `summaries`, `facts` and `tools`, and of nothing else. -/
structure Holds [HistoryStamp] (input : ReplyInput) (request : String) (result : AssembledReplyPrompt)
    (messages : List ReplyContextMessage) (summaries : List RecalledSummary) (facts : List RecalledFact)
    (tools : List ReplyToolResult) : Prop where
  newest : messages <:+ input.messages
  firstSummaries : summaries <+: input.recall.summaries
  firstFacts : facts <+: input.recall.facts
  firstTools : tools <+: input.toolResults
  included : result.included = ⟨messages.length, summaries.length, facts.length, tools.length⟩
  given_messages : result.included.messages + result.dropped.messages = input.messages.length
  given_summaries : result.included.summaries + result.dropped.summaries = input.recall.summaries.length
  given_facts : result.included.facts + result.dropped.facts = input.recall.facts.length
  given_tools : result.included.tools + result.dropped.tools = input.toolResults.length
  truncated_messages : result.truncated.messages = true ↔ 0 < result.dropped.messages
  truncated_summaries : result.truncated.summaries = true ↔ 0 < result.dropped.summaries
  truncated_facts : result.truncated.facts = true ↔ 0 < result.dropped.facts
  truncated_tools : result.truncated.tools = true ↔ 0 < result.dropped.tools
  hasMemory : result.hasMemory = true ↔ summaries ≠ [] ∨ facts ≠ []
  prompt : result.prompt =
    memoryBlock (summaries.map renderSummary ++ facts.map renderFact) ++ block historyHeader (messages.map renderMessage) ++
      block toolsHeader (tools.map renderToolResult) ++ requestHeader ++ request
  summaryIds : result.provenance.summaryIds = summaries.map (·.summaryId)
  factIds : result.provenance.factIds = facts.map (·.factId)
  batches : result.provenance.batchIds.Nodup
  batchIds : ∀ id, id ∈ result.provenance.batchIds ↔ id ∈ summaries.map (·.batchId) ∨ id ∈ facts.map (·.batchId)

/-! ### A set built in order -/

theorem insert_nodup {set ids : List String} (distinct : set.Nodup) :
    (ids.foldl (fun set id => if id ∈ set then set else set ++ [id]) set).Nodup := by
  induction ids generalizing set with
  | nil => exact distinct
  | cons id ids ih =>
    rw [List.foldl_cons]
    apply ih
    split
    · exact distinct
    · rename_i fresh
      exact distinct.append (List.nodup_singleton id) (by simpa using fresh)

theorem mem_insert {set ids : List String} {id : String} :
    id ∈ ids.foldl (fun set id => if id ∈ set then set else set ++ [id]) set ↔ id ∈ set ∨ id ∈ ids := by
  induction ids generalizing set with
  | nil => simp
  | cons first ids ih =>
    rw [List.foldl_cons, ih, List.mem_cons]
    split
    · rename_i listed
      constructor
      · rintro (old | rest)
        · exact Or.inl old
        · exact Or.inr (Or.inr rest)
      · rintro (old | rfl | rest)
        · exact Or.inl old
        · exact Or.inl listed
        · exact Or.inr rest
    · rw [List.mem_append, List.mem_singleton, or_assoc]

theorem insertionSet_nodup (ids : List String) : (insertionSet ids).Nodup := insert_nodup List.nodup_nil

theorem mem_insertionSet {ids : List String} {id : String} : id ∈ insertionSet ids ↔ id ∈ ids := by
  rw [insertionSet, mem_insert]
  simp

/-! ### Segments -/

/-- A segment that holds a front of its items, and has dropped the others. -/
structure Front {α : Type} (render : α → String) (items kept : List α) (segment : Segment) : Prop where
  front : kept <+: items
  lines : segment.lines = kept.map render
  counted : kept.length + segment.dropped = items.length

section
variable {α : Type} (counter : TokenCounter) (render : α → String)

theorem retainLoop_front (segmentMax budget : ℚ) (items : List α) (kept : List String) (used : ℚ) :
    ∃ front, front <+: items ∧
      (retainLoop counter render segmentMax budget items kept used).1 = kept ++ front.map render := by
  induction items generalizing kept used with
  | nil => exact ⟨[], List.prefix_rfl, by simp [retainLoop]⟩
  | cons item rest ih =>
    simp only [retainLoop]
    split
    · exact ⟨[], List.nil_prefix, by simp⟩
    · obtain ⟨front, first, lines⟩ := ih (kept ++ [render item]) (used + lineCost counter (render item))
      refine ⟨item :: front, List.cons_prefix_cons.mpr ⟨rfl, first⟩, ?_⟩
      rw [lines, List.append_assoc, List.map_cons]
      rfl

/-- A segment keeps a front of its items and counts the others as dropped. -/
theorem fillSegment_front (used : ℚ) (header : String) (items : List α) (segmentMax : ℚ) :
    ∃ kept, Front render items kept (fillSegment counter used header items render segmentMax) := by
  unfold fillSegment
  split
  · rename_i none
    rw [List.isEmpty_iff] at none
    exact ⟨[], List.nil_prefix, rfl, by rw [none]; rfl⟩
  · dsimp only
    split
    · obtain ⟨front, first, lines⟩ :=
        retainLoop_front counter render segmentMax (ceilingForContent - used - accountedCount counter header) items [] 0
      rw [List.nil_append] at lines
      have dropped : (retain counter items render segmentMax (ceilingForContent - used - accountedCount counter header)).dropped =
          items.length - front.length := by
        show items.length - (retainLoop counter render segmentMax _ items [] 0).1.length = _
        rw [lines, List.length_map]
      have counted : front.length + (items.length - front.length) = items.length := by
        have le := first.length_le
        omega
      split
      · rename_i empty
        rw [List.isEmpty_iff] at empty
        exact ⟨front, first, empty.symm.trans lines, by rw [dropped, counted]⟩
      · exact ⟨front, first, lines, by rw [dropped, counted]⟩
    · exact ⟨[], List.nil_prefix, rfl, by simp⟩

end

theorem Front.length {α : Type} {render : α → String} {items kept : List α} {segment : Segment}
    (front : Front render items kept segment) : segment.lines.length = kept.length := by
  rw [front.lines, List.length_map]

theorem Front.take {α : Type} {render : α → String} {items kept : List α} {segment : Segment}
    (front : Front render items kept segment) : items.take segment.lines.length = kept := by
  rw [front.length]
  exact (List.prefix_iff_eq_take.mp front.front).symm

theorem Front.isEmpty {α : Type} {render : α → String} {items kept : List α} {segment : Segment}
    (front : Front render items kept segment) : segment.lines = [] ↔ kept = [] := by
  rw [front.lines, List.map_eq_nil_iff]

/-- Whatever the costs, an assembled prompt accounts for everything it was given. -/
theorem assembleReplyPrompt_holds [HistoryStamp] {counter : TokenCounter} {input : ReplyInput} {result : AssembledReplyPrompt}
    (assembled : assembleReplyPrompt counter input = .ok result) :
    ∃ messages summaries facts tools,
      Holds input (clipToTokens counter input.currentRequest ReplySegmentMax.request).text result messages summaries facts tools := by
  unfold assembleReplyPrompt at assembled
  dsimp only at assembled
  split at assembled
  · cases assembled
  · generalize accountedCount counter (clipToTokens counter (replySystemPrompts input.chatKind) ReplySegmentMax.system).text +
      accountedCount counter requestHeader +
      accountedCount counter (clipToTokens counter input.currentRequest ReplySegmentMax.request).text = used at assembled
    -- each segment is filled from what the ones before it left
    obtain ⟨newest, messagesFront⟩ :=
      fillSegment_front counter renderMessage used historyHeader input.messages.reverse ReplySegmentMax.messages
    generalize fillSegment counter used historyHeader input.messages.reverse renderMessage ReplySegmentMax.messages = messages
      at assembled messagesFront
    obtain ⟨summaries, summariesFront⟩ :=
      fillSegment_front counter renderSummary messages.used memoryHeader input.recall.summaries ReplySegmentMax.summaries
    generalize fillSegment counter messages.used memoryHeader input.recall.summaries renderSummary ReplySegmentMax.summaries =
      summariesSegment at assembled summariesFront
    obtain ⟨facts, factsFront⟩ :=
      fillSegment_front counter renderFact summariesSegment.used memoryHeader input.recall.facts ReplySegmentMax.facts
    generalize fillSegment counter summariesSegment.used memoryHeader input.recall.facts renderFact ReplySegmentMax.facts =
      factsSegment at assembled factsFront
    obtain ⟨tools, toolsFront⟩ :=
      fillSegment_front counter renderToolResult factsSegment.used toolsHeader input.toolResults ReplySegmentMax.tools
    generalize fillSegment counter factsSegment.used toolsHeader input.toolResults renderToolResult ReplySegmentMax.tools =
      toolsSegment at assembled toolsFront
    obtain rfl := Except.ok.inj assembled
    refine ⟨newest.reverse, summaries, facts, tools, ?_⟩
    constructor
    · exact List.reverse_prefix.mp (by rw [List.reverse_reverse]; exact messagesFront.front)
    · exact summariesFront.front
    · exact factsFront.front
    · exact toolsFront.front
    · simp [messagesFront.length, summariesFront.length, factsFront.length, toolsFront.length]
    · simpa [messagesFront.length] using messagesFront.counted
    · simpa [summariesFront.length] using summariesFront.counted
    · simpa [factsFront.length] using factsFront.counted
    · simpa [toolsFront.length] using toolsFront.counted
    · simp
    · simp
    · simp
    · simp
    · simp [summariesFront.isEmpty, factsFront.isEmpty, imp_iff_not_or]
    · simp [messagesFront.lines, summariesFront.lines, factsFront.lines, toolsFront.lines]
    · simp [summariesFront.take]
    · simp [factsFront.take]
    · exact insertionSet_nodup _
    · intro id
      rw [mem_insertionSet, List.mem_append, summariesFront.take, factsFront.take]

/-- One token for a text of any length. -/
def flatCounter : TokenCounter := ⟨"flat", .exact, "", none, fun _ => 1⟩

def noteInput : ReplyInput where
  chatKind := .group
  currentRequest := "When?"
  messages := [⟨"1@s.whatsapp.net", some "Ann", "At two.", 0, some "A", none⟩, ⟨"2@s.whatsapp.net", none, "Fine.", 1, none, none⟩]
  «recall» := ⟨[⟨"s", "b", 0, 1, "Plans.", ["A"]⟩], [⟨"f", "b", .fact, "They meet at two.", .stated, ["A"]⟩]⟩
  toolResults := []

theorem note_holds :
    letI : HistoryStamp := ⟨fun _ => "1 Jan 1970, 00:00"⟩
    ∃ result, assembleReplyPrompt flatCounter noteInput = .ok result ∧ ∃ messages summaries facts tools,
      Holds noteInput (clipToTokens flatCounter noteInput.currentRequest ReplySegmentMax.request).text result messages summaries facts
        tools := by
  let _ : HistoryStamp := ⟨fun _ => "1 Jan 1970, 00:00"⟩
  have start : accountedCount flatCounter
      (clipToTokens flatCounter (replySystemPrompts noteInput.chatKind) ReplySegmentMax.system).text +
        accountedCount flatCounter requestHeader +
        accountedCount flatCounter (clipToTokens flatCounter noteInput.currentRequest ReplySegmentMax.request).text ≤
      ceilingForContent := by
    have one (text : String) : accountedCount flatCounter text = 1 := by
      rw [accountedCount, if_pos (by rfl)]
      rfl
    rw [one, one, one, ceilingForContent_eq]
    norm_num
  obtain ⟨result, assembled, -⟩ := assembleReplyPrompt_accounted rfl rfl start rfl rfl rfl rfl
  exact ⟨result, assembled, assembleReplyPrompt_holds assembled⟩

end GroupButler.Prompt
