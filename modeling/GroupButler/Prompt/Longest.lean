import GroupButler.Prompt.Tokens

/-!
# The longest prefix

`clipToTokens` charges a text one code point at a time, while its cap is on the text as a whole. A counter
may charge a text less than its characters one by one, and there the clip stops early: this module says
exactly when it does not.
-/

namespace GroupButler.Prompt

/-- A counter that charges a text at least what it charges its front, and is never scaled down. -/
structure MonotoneCounter extends SubadditiveCounter where
  count_le_append : ∀ a b, count a ≤ count (a ++ b)
  one_le_factor : 1 ≤ toTokenCounter.factor

/-- A text charged one code point at a time. -/
def charge (counter : TokenCounter) (cs : List Char) : ℚ := (cs.map fun c => accountedCount counter c.toString).sum

/-- The first code points of a text. -/
def firstPoints (value : String) (n : Nat) : String := String.ofList (value.toList.take n)

/-- What the comment over `clipToTokens` promises of its answer. -/
structure ExactClip (counter : TokenCounter) (value : String) (max : ℚ) (clip : Clip) : Prop where
  points : ∃ n, clip.text = firstPoints value n
  paid : accountedCount counter clip.text ≤ clip.used
  within : clip.used ≤ max
  shortened : clip.clipped = true ↔ clip.text ≠ value
  longest : ∀ n, clip.text.length < (firstPoints value n).length → max < accountedCount counter (firstPoints value n)

theorem firstPoints_all {value : String} {n : Nat} (all : value.toList.length ≤ n) : firstPoints value n = value := by
  rw [firstPoints, List.take_of_length_le all, String.ofList_toList]

theorem length_firstPoints (value : String) (n : Nat) : (firstPoints value n).length = min n value.toList.length := by
  rw [firstPoints, String.length_ofList, List.length_take]

theorem take_parts {m n : Nat} (cs : List Char) (le : m ≤ n) : cs.take n = cs.take m ++ (cs.take n).drop m := by
  have parts := (List.take_append_drop m (cs.take n)).symm
  rwa [List.take_take, min_eq_left le] at parts

section
variable (counter : MonotoneCounter)

theorem accountedCount_le_append (a b : String) :
    accountedCount counter.toTokenCounter a ≤ accountedCount counter.toTokenCounter (a ++ b) := by
  have raw := counter.count_le_append a b
  by_cases unit : counter.factor = 1
  · simpa only [accountedCount, if_pos unit] using raw
  · have scaled := mul_le_mul_of_nonneg_right raw counter.factor_nonneg
    simp only [accountedCount, if_neg unit]
    exact_mod_cast Int.ceil_mono scaled

theorem accountedCount_nonneg (a : String) : 0 ≤ accountedCount counter.toTokenCounter a := by
  have none := accountedCount_empty_nonneg counter.toSubadditiveCounter
  have front := accountedCount_le_append counter "" a
  rw [String.empty_append] at front
  exact none.trans front

theorem accountedCount_firstPoints {m n : Nat} (value : String) (le : m ≤ n) :
    accountedCount counter.toTokenCounter (firstPoints value m) ≤ accountedCount counter.toTokenCounter (firstPoints value n) := by
  rw [firstPoints, firstPoints, take_parts value.toList le, String.ofList_append]
  exact accountedCount_le_append counter _ _

theorem charge_append (cs ds : List Char) :
    charge counter.toTokenCounter (cs ++ ds) = charge counter.toTokenCounter cs + charge counter.toTokenCounter ds := by
  rw [charge, List.map_append, List.sum_append, charge, charge]

theorem charge_nonneg (cs : List Char) : 0 ≤ charge counter.toTokenCounter cs := by
  induction cs with
  | nil => exact le_rfl
  | cons c cs ih =>
    have cost := accountedCount_nonneg counter c.toString
    rw [charge, List.map_cons, List.sum_cons, ← charge]
    linarith

theorem charge_take {m n : Nat} (cs : List Char) (le : m ≤ n) :
    charge counter.toTokenCounter (cs.take m) ≤ charge counter.toTokenCounter (cs.take n) := by
  have rest := charge_nonneg counter ((cs.take n).drop m)
  rw [take_parts cs le, charge_append]
  linarith

end

/-- The loop keeps a front of the characters, at the sum of their costs, and stops at the first that does not fit. -/
theorem clipScan_front (counter : TokenCounter) (max : ℚ) (cs : List Char) (used : ℚ) (text : String) :
    ∃ n ≤ cs.length,
      clipScan counter max cs used text = ⟨text ++ String.ofList (cs.take n), used + charge counter (cs.take n), true⟩ ∧
        (n < cs.length → max < used + charge counter (cs.take (n + 1))) := by
  induction cs generalizing used text with
  | nil => exact ⟨0, le_rfl, by simp [clipScan, charge], fun more => absurd more (lt_irrefl 0)⟩
  | cons c cs ih =>
    rw [clipScan]
    split
    · rename_i large
      refine ⟨0, Nat.zero_le _, by simp [charge], fun _ => ?_⟩
      simpa [charge] using large
    · obtain ⟨n, le, kept, stopped⟩ := ih (used + accountedCount counter c.toString) (text ++ c.toString)
      refine ⟨n + 1, Nat.succ_le_succ le, ?_, fun more => ?_⟩
      · rw [kept]
        simp only [List.take_succ_cons, charge, List.map_cons, List.sum_cons, add_assoc, String.append_assoc,
          Clip.mk.injEq, and_true]
        rw [← String.toList_inj]
        simp
      · have large := stopped (Nat.lt_of_succ_lt_succ more)
        simpa only [List.take_succ_cons, charge, List.map_cons, List.sum_cons, ← add_assoc] using large

section
variable {counter : MonotoneCounter} {value : String} {max : ℚ}

/-- A text that does not fit whole comes back as the front the loop kept. -/
theorem clipToTokens_front (large : max < accountedCount counter.toTokenCounter value) :
    ∃ n ≤ value.toList.length,
      clipToTokens counter.toTokenCounter value max =
          ⟨firstPoints value n, charge counter.toTokenCounter (value.toList.take n), true⟩ ∧
        (n < value.toList.length → max < charge counter.toTokenCounter (value.toList.take (n + 1))) := by
  obtain ⟨n, le, kept, stopped⟩ := clipScan_front counter.toTokenCounter max value.toList 0 ""
  simp only [zero_add, String.empty_append] at kept stopped
  exact ⟨n, le, by rw [clipToTokens, if_neg (not_le.mpr large), kept, firstPoints], stopped⟩

theorem clipToTokens_paid
    (empty : accountedCount counter.toTokenCounter "" ≤ 0 ∨
      ∃ c ∈ value.toList.head?, accountedCount counter.toTokenCounter c.toString ≤ max) :
    accountedCount counter.toTokenCounter (clipToTokens counter.toTokenCounter value max).text ≤
      (clipToTokens counter.toTokenCounter value max).used := by
  by_cases charged : Charged counter.toTokenCounter max value
  · exact (clipToTokens_charged counter.toSubadditiveCounter charged).1
  · have free := empty.resolve_right fun first => charged (Or.inr first)
    rw [clipToTokens_uncharged charged]
    exact free

theorem exact_of_fits (fits : accountedCount counter.toTokenCounter value ≤ max) :
    ExactClip counter.toTokenCounter value max (clipToTokens counter.toTokenCounter value max) := by
  rw [clipToTokens_whole fits]
  refine ⟨⟨value.toList.length, (firstPoints_all le_rfl).symm⟩, le_rfl, fits, by simp, fun n longer => ?_⟩
  have le : (firstPoints value n).length ≤ value.length := by
    rw [length_firstPoints, String.length_toList]
    exact min_le_right _ _
  exact absurd longer (not_lt.mpr le)

theorem exact_of_tight (room : 0 ≤ max)
    (empty : accountedCount counter.toTokenCounter "" ≤ 0 ∨
      ∃ c ∈ value.toList.head?, accountedCount counter.toTokenCounter c.toString ≤ max)
    (tight : ∀ n, max < charge counter.toTokenCounter (value.toList.take n) →
      max < accountedCount counter.toTokenCounter (firstPoints value n))
    (large : max < accountedCount counter.toTokenCounter value) :
    ExactClip counter.toTokenCounter value max (clipToTokens counter.toTokenCounter value max) := by
  obtain ⟨n, le, kept, stopped⟩ := clipToTokens_front large
  have paid := clipToTokens_paid empty
  have within := clipToTokens_used counter.toTokenCounter value room
  rw [kept] at paid within ⊢
  have cut : firstPoints value n ≠ value := by
    intro all
    rw [all] at paid
    exact absurd (paid.trans within) (not_le.mpr large)
  have short : n < value.toList.length := lt_of_le_of_ne le fun all => cut (firstPoints_all all.ge)
  refine ⟨⟨n, rfl⟩, paid, within, by simp [cut], fun m longer => ?_⟩
  rw [length_firstPoints, length_firstPoints] at longer
  exact (tight _ (stopped short)).trans_le (accountedCount_firstPoints counter value (by omega))

theorem tight_of_exact (large : max < accountedCount counter.toTokenCounter value)
    (exact_ : ExactClip counter.toTokenCounter value max (clipToTokens counter.toTokenCounter value max)) :
    value ≠ "" ∧ 0 ≤ max ∧
      (accountedCount counter.toTokenCounter "" ≤ 0 ∨
        ∃ c ∈ value.toList.head?, accountedCount counter.toTokenCounter c.toString ≤ max) ∧
      ∀ n, max < charge counter.toTokenCounter (value.toList.take n) →
        max < accountedCount counter.toTokenCounter (firstPoints value n) := by
  obtain ⟨k, le, kept, -⟩ := clipToTokens_front large
  have cut : firstPoints value k ≠ value := by
    have shortened := exact_.shortened
    rw [kept] at shortened
    exact shortened.mp rfl
  have within := exact_.within
  rw [kept] at within
  refine ⟨?_, (charge_nonneg counter _).trans within, ?_, fun n over_ => ?_⟩
  · rintro rfl
    exact cut (firstPoints_all (Nat.zero_le k))
  · by_cases charged : Charged counter.toTokenCounter max value
    · exact Or.inr (charged.resolve_left (not_le.mpr large))
    · have paid := exact_.paid
      rw [clipToTokens_uncharged charged] at paid
      exact Or.inl paid
  · have short : k < value.toList.length := lt_of_le_of_ne le fun all => cut (firstPoints_all all.ge)
    have longer : k < n := by
      by_contra front
      exact absurd ((charge_take counter value.toList (not_lt.mp front)).trans within) (not_le.mpr over_)
    apply exact_.longest n
    rw [kept, length_firstPoints, length_firstPoints]
    omega

end

/-- Bytes, with a margin of one half. -/
def halfAgainCounter : MonotoneCounter where
  toTokenCounter := { byteUpperBoundCounter with multiplier := some (3 / 2) }
  count_append := byteCounter.count_append
  factor_nonneg := by norm_num [TokenCounter.factor]
  count_le_append a b := by
    have sum := byte_count_append a b
    have rest : 0 ≤ accountTokens b := by simp [accountTokens]
    show accountTokens a ≤ accountTokens (a ++ b)
    linarith
  one_le_factor := by norm_num [TokenCounter.factor]

end GroupButler.Prompt
