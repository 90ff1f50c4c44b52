import GroupButler.Foundation.Prefixes
import GroupButler.Memory.Select

/-!
# Exactly the rows of one batch

A batch is the longest prefix of the candidates that one batch may hold. So rows of one instant are parted
only by a batch that is full.
-/

namespace GroupButler.Memory
open Foundation Store Ingest

/-- What one batch may hold of the candidates: their first `n`, all within a day of the first, and at most
a hundred of them or more of the instant the hundredth has. -/
structure Admits (rows : List MessageRow) (n : Nat) : Prop where
  bound : n ≤ rows.length
  window : ∀ oldest ∈ rows.head?, ∀ row ∈ rows.take n, (keyOf row).timestamp ≤ (keyOf oldest).timestamp + memoryBatchWindow
  limit : n ≤ memoryBatchLimit ∨ n ≤ memoryBatchEqualLimit ∧ ∀ limit ∈ rows[memoryBatchLimit - 1]?,
    ∀ row ∈ (rows.take n).drop memoryBatchLimit, (keyOf row).timestamp = (keyOf limit).timestamp

theorem timestamp_mono {a b : MessageRow} (le : rowLe a b) : (keyOf a).timestamp ≤ (keyOf b).timestamp := by
  have lex : (keyOf a).lex ≤ (keyOf b).lex := le
  rcases Prod.Lex.le_iff.mp lex with before | ⟨same, -⟩
  · exact before.le
  · exact same.le

/-- A batch with room takes the next row of its last row's instant. -/
theorem Admits.extend {rows : List MessageRow} {k : Nat} {last next : MessageRow} (admits : Admits rows (k + 1))
    (ends : rows[k]? = some last) (follows : rows[k + 1]? = some next)
    (same : (keyOf next).timestamp = (keyOf last).timestamp) (room : k + 1 < memoryBatchEqualLimit) : Admits rows (k + 2) := by
  obtain ⟨long, there⟩ := List.getElem?_eq_some_iff.mp follows
  have longer : rows.take (k + 2) = rows.take (k + 1) ++ [next] := by
    rw [List.take_succ_eq_append_getElem long, there]
  have lastTaken : last ∈ rows.take (k + 1) := by
    apply List.mem_of_getElem? (i := k)
    rw [List.getElem?_take_of_lt (by omega), ends]
  refine ⟨by omega, ?_, ?_⟩
  · intro oldest first row member
    rw [longer] at member
    rcases List.mem_append.mp member with earlier | new
    · exact admits.window oldest first row earlier
    · obtain rfl := List.mem_singleton.mp new
      rw [same]
      exact admits.window oldest first last lastTaken
  · by_cases small : k + 2 ≤ memoryBatchLimit
    · exact Or.inl small
    · refine Or.inr ⟨by omega, ?_⟩
      intro limit here row member
      rw [longer, List.drop_append_of_le_length (by rw [List.length_take]; omega)] at member
      rcases List.mem_append.mp member with earlier | new
      · rcases admits.limit with few | ⟨-, equal⟩
        · rw [List.drop_eq_nil_of_le (by rw [List.length_take]; omega)] at earlier
          cases earlier
        · exact equal limit here row earlier
      · obtain rfl := List.mem_singleton.mp new
        rw [same]
        by_cases hundredth : k = memoryBatchLimit - 1
        · rw [← hundredth, ends] at here
          rw [Option.some.inj here]
        · rcases admits.limit with few | ⟨-, equal⟩
          · omega
          · apply equal limit here last
            apply List.mem_of_getElem? (i := k - memoryBatchLimit)
            rw [List.getElem?_drop, Nat.add_sub_of_le (by omega), List.getElem?_take_of_lt (by omega), ends]

section
variable (messages : List MessageRow) (group : GroupKey) (watermark : Option BatchKey)

theorem nextMessages_nil (none : candidates messages group watermark = []) : nextMessages messages group watermark = [] := by
  unfold candidates at none
  rw [nextMessages, none, List.take_nil]

/-- The batch from its candidates: those of the window that were read, cut after the hundredth instant. -/
theorem nextMessages_cons {oldest : MessageRow} {later : List MessageRow}
    (found : candidates messages group watermark = oldest :: later) :
    ∃ bounded, bounded = ((oldest :: later).take (memoryBatchEqualLimit + 1)).takeWhile (fun row =>
        decide ((keyOf row).timestamp ≤ (keyOf oldest).timestamp + memoryBatchWindow)) ∧
      (bounded.length < memoryBatchLimit ∧ nextMessages messages group watermark = bounded ∨
        ∃ limit, bounded[memoryBatchLimit - 1]? = some limit ∧
          nextMessages messages group watermark = bounded.take memoryBatchLimit ++
            ((bounded.take memoryBatchEqualLimit).drop memoryBatchLimit).takeWhile fun row =>
              (keyOf row).timestamp == (keyOf limit).timestamp) := by
  refine ⟨_, rfl, ?_⟩
  unfold candidates at found
  rw [nextMessages, found]
  generalize memoryBatchWindow = window
  rw [List.take_succ_cons]
  dsimp only
  split
  · rename_i few
    left
    have short := List.drop_eq_nil_iff.mp few
    refine ⟨?_, rfl⟩
    rw [show memoryBatchLimit = (memoryBatchLimit - 1) + 1 from rfl]
    omega
  · rename_i limit rest many
    right
    refine ⟨limit, ?_, rfl⟩
    rw [← List.head?_drop, many]
    rfl

theorem nextMessages_admits :
    Admits (candidates messages group watermark) (nextMessages messages group watermark).length := by
  have front := nextMessages_front messages group watermark
  have taken := List.prefix_iff_eq_take.mp front
  cases found : candidates messages group watermark with
  | nil =>
    rw [nextMessages_nil messages group watermark found]
    refine ⟨Nat.le_refl 0, fun oldest first => ?_, Or.inl (Nat.zero_le _)⟩
    cases first
  | cons oldest later =>
    rw [found] at front taken
    obtain ⟨bounded, read, batch⟩ := nextMessages_cons messages group watermark found
    have inside : ∀ row ∈ bounded, (keyOf row).timestamp ≤ (keyOf oldest).timestamp + memoryBatchWindow := by
      intro row member
      rw [read] at member
      have kept := List.mem_takeWhile_imp member
      exact of_decide_eq_true kept
    refine ⟨front.length_le, ?_, ?_⟩
    · intro first head row member
      obtain rfl := Option.some.inj head
      rw [← taken] at member
      apply inside
      rcases batch with ⟨-, whole⟩ | ⟨limit, -, cut⟩
      · rwa [whole] at member
      · rw [cut] at member
        rcases List.mem_append.mp member with early | late
        · exact List.mem_of_mem_take early
        · exact List.mem_of_mem_take (List.mem_of_mem_drop ((List.takeWhile_prefix _).subset late))
    · rw [← taken]
      rcases batch with ⟨short, whole⟩ | ⟨limit, placed, cut⟩
      · left
        rw [whole]
        omega
      · right
        have hundred : (bounded.take memoryBatchLimit).length = memoryBatchLimit := by
          have long := (List.getElem?_eq_some_iff.mp placed).1
          rw [List.length_take]
          simp only [memoryBatchLimit] at long ⊢
          omega
        constructor
        · have run := (List.takeWhile_prefix (l := (bounded.take memoryBatchEqualLimit).drop memoryBatchLimit)
            fun row => (keyOf row).timestamp == (keyOf limit).timestamp).length_le
          rw [cut, List.length_append, hundred]
          rw [List.length_drop, List.length_take] at run
          simp only [memoryBatchLimit, memoryBatchEqualLimit] at run ⊢
          omega
        · intro other here row member
          have same : other = limit := by
            obtain ⟨rest, whole⟩ : bounded <+: oldest :: later := by
              rw [read]
              exact (List.takeWhile_prefix _).trans (List.take_prefix _ _)
            rw [← whole, List.getElem?_append_left (List.getElem?_eq_some_iff.mp placed).1, placed] at here
            exact (Option.some.inj here).symm
          rw [cut, List.drop_left' hundred] at member
          rw [same]
          simpa using List.mem_takeWhile_imp member

theorem nextMessages_greatest {n : Nat} (admits : Admits (candidates messages group watermark) n) :
    n ≤ (nextMessages messages group watermark).length := by
  have few : n ≤ memoryBatchEqualLimit := by
    rcases admits.limit with small | ⟨small, -⟩
    · simp only [memoryBatchLimit, memoryBatchEqualLimit] at small ⊢
      omega
    · exact small
  cases found : candidates messages group watermark with
  | nil =>
    have none := admits.bound
    rw [found] at none
    exact Nat.le_trans none (Nat.zero_le _)
  | cons oldest later =>
    obtain ⟨bound, window, limited⟩ := admits
    rw [found] at bound window limited
    obtain ⟨bounded, read, batch⟩ := nextMessages_cons messages group watermark found
    have inside : n ≤ bounded.length := by
      rw [read]
      apply takeWhile_longest
      · rw [List.length_take]
        omega
      · intro row member
        rw [List.take_take, Nat.min_eq_left (by omega)] at member
        simpa using window oldest rfl row member
    have front : bounded.take n = (oldest :: later).take n := by
      obtain ⟨rest, whole⟩ : bounded <+: oldest :: later := by
        rw [read]
        exact (List.takeWhile_prefix _).trans (List.take_prefix _ _)
      rw [← whole, List.take_append_of_le_length inside]
    rcases batch with ⟨-, whole⟩ | ⟨limit, placed, cut⟩
    · rwa [whole]
    · have long := (List.getElem?_eq_some_iff.mp placed).1
      rw [cut, List.length_append, List.length_take]
      by_cases small : n ≤ memoryBatchLimit
      · omega
      · -- past the hundredth the candidates have its instant, and so the run goes as far
        have run : n - memoryBatchLimit ≤ (((bounded.take memoryBatchEqualLimit).drop memoryBatchLimit).takeWhile fun row =>
            (keyOf row).timestamp == (keyOf limit).timestamp).length := by
          apply takeWhile_longest
          · rw [List.length_drop, List.length_take]
            omega
          · intro row member
            rw [List.take_drop, List.take_take, Nat.add_sub_of_le (by omega), Nat.min_eq_left few, front] at member
            have here : (oldest :: later)[memoryBatchLimit - 1]? = some limit := by
              have within : memoryBatchLimit - 1 < n := by omega
              rw [← List.getElem?_take_of_lt within, ← front, List.getElem?_take_of_lt within, placed]
            rcases limited with impossible | ⟨-, equal⟩
            · exact absurd impossible small
            · simpa using equal limit here row member
        omega

theorem candidates_sorted : (candidates messages group watermark).Pairwise rowLe := List.pairwise_insertionSort ..

/-- Rows of one instant are parted by a full batch alone. -/
theorem nextMessages_parts {taken left : MessageRow} (inside : taken ∈ nextMessages messages group watermark)
    (candidate : left ∈ candidates messages group watermark) (outside : left ∉ nextMessages messages group watermark)
    (same : (keyOf taken).timestamp = (keyOf left).timestamp) :
    (nextMessages messages group watermark).length = memoryBatchEqualLimit := by
  have admits := nextMessages_admits messages group watermark
  have greatest := @nextMessages_greatest messages group watermark
  rw [List.prefix_iff_eq_take.mp (nextMessages_front messages group watermark)] at inside outside
  have sorted := List.pairwise_iff_getElem.mp (candidates_sorted messages group watermark)
  generalize (nextMessages messages group watermark).length = k at *
  generalize candidates messages group watermark = rows at *
  obtain ⟨i, early, rfl⟩ := List.mem_take_iff_getElem.mp inside
  obtain ⟨j, late, rfl⟩ := List.mem_iff_getElem.mp candidate
  have beyond : k ≤ j := by
    by_contra within
    exact outside (List.mem_take_iff_getElem.mpr ⟨j, by omega, rfl⟩)
  have mono : ∀ a b (ha : a < rows.length) (hb : b < rows.length), a ≤ b →
      (keyOf rows[a]).timestamp ≤ (keyOf rows[b]).timestamp := by
    intro a b ha hb le
    rcases Nat.lt_or_eq_of_le le with lt | rfl
    · exact timestamp_mono (sorted a b ha hb lt)
    · exact Int.le_refl _
  cases k with
  | zero => omega
  | succ k =>
    have equal : (keyOf rows[k + 1]).timestamp = (keyOf rows[k]).timestamp := by
      have first := mono i k (by omega) (by omega) (by omega)
      have between := mono k (k + 1) (by omega) (by omega) (by omega)
      have last := mono (k + 1) j (by omega) late beyond
      rw [← same] at last
      exact le_antisymm (last.trans first) between
    by_contra room
    have small : k + 1 ≤ memoryBatchEqualLimit := by
      rcases admits.limit with few | ⟨few, -⟩
      · simp only [memoryBatchLimit, memoryBatchEqualLimit] at few ⊢
        omega
      · exact few
    have longer := greatest (admits.extend (List.getElem?_eq_getElem _) (List.getElem?_eq_getElem _) equal (by omega))
    omega

/-- The batch is the longest run of the ordered candidates that one batch may hold. -/
theorem batch_selection_exact :
    ∃ eligible : List MessageRow, eligible.Perm (messages.filter (selectable group watermark)) ∧ eligible.Pairwise rowLe ∧
      (∃ k, nextMessages messages group watermark = eligible.take k ∧ IsGreatest {n | Admits eligible n} k) ∧
      ∀ taken ∈ nextMessages messages group watermark, ∀ left ∈ eligible, left ∉ nextMessages messages group watermark →
        (keyOf taken).timestamp = (keyOf left).timestamp →
          (nextMessages messages group watermark).length = memoryBatchEqualLimit := by
  refine ⟨candidates messages group watermark, List.perm_insertionSort .., candidates_sorted ..,
    ⟨(nextMessages messages group watermark).length, ?_, ?_, ?_⟩, ?_⟩
  · exact List.prefix_iff_eq_take.mp (nextMessages_front messages group watermark)
  · exact nextMessages_admits messages group watermark
  · exact fun n admits => nextMessages_greatest messages group watermark admits
  · exact fun taken inside left candidate outside => nextMessages_parts messages group watermark inside candidate outside

end

end GroupButler.Memory
