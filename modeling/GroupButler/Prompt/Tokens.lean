import Mathlib.Data.Rat.Floor
import Mathlib.Tactic.Linarith

/-!
# Token counters

A counter measures a text for one provider. Every budget of a reply uses the accounted figure: the
counter's own count scaled by the factor it declares and rounded up.
-/

namespace GroupButler.Prompt

/-- Whether a count is the provider's own or a bound on it. -/
inductive CounterKind where
  | exact
  | upperBound
  deriving DecidableEq, Repr

structure TokenCounter where
  id : String
  kind : CounterKind
  note : String
  multiplier : Option ℚ
  count : String → ℚ

/-- The declared scaling; a counter for the provider's own tokenizer declares nothing. -/
def TokenCounter.factor (counter : TokenCounter) : ℚ := counter.multiplier.getD 1

def accountedCount (counter : TokenCounter) (value : String) : ℚ :=
  let raw := counter.count value
  let multiplier := counter.factor
  if multiplier = 1 then raw else ⌈raw * multiplier⌉

/-- Byte length, the only measure that needs no tokenizer package. -/
def accountTokens (value : String) : ℚ := value.utf8ByteSize

/-- `BYTE_UPPER_BOUND_COUNTER`. -/
def byteUpperBoundCounter : TokenCounter where
  id := "bytes-upper-bound"
  kind := .upperBound
  note := "UTF-8 byte length; test/utility upper bound under byte-level BPE without structural tokens, plus the structural reserve"
  multiplier := none
  count := accountTokens

/-- A counter that never charges a text more than its two parts. -/
structure SubadditiveCounter extends TokenCounter where
  count_append : ∀ a b, count (a ++ b) ≤ count a + count b
  factor_nonneg : 0 ≤ toTokenCounter.factor

theorem byte_count_append (a b : String) : accountTokens (a ++ b) = accountTokens a + accountTokens b := by
  simp [accountTokens]

def byteCounter : SubadditiveCounter where
  toTokenCounter := byteUpperBoundCounter
  count_append a b := (byte_count_append a b).le
  factor_nonneg := by simp [TokenCounter.factor, byteUpperBoundCounter]

/-- Scaling and rounding up keep what the counter promises. -/
theorem accountedCount_append (counter : SubadditiveCounter) (a b : String) :
    accountedCount counter.toTokenCounter (a ++ b) ≤
      accountedCount counter.toTokenCounter a + accountedCount counter.toTokenCounter b := by
  have raw := counter.count_append a b
  by_cases unit : counter.factor = 1
  · simpa only [accountedCount, if_pos unit] using raw
  · have scaled := mul_le_mul_of_nonneg_right raw counter.factor_nonneg
    rw [add_mul] at scaled
    simp only [accountedCount, if_neg unit]
    exact_mod_cast (Int.ceil_mono scaled).trans (Int.ceil_add_le _ _)

theorem accountedCount_empty_nonneg (counter : SubadditiveCounter) : 0 ≤ accountedCount counter.toTokenCounter "" := by
  have twice := accountedCount_append counter "" ""
  rw [String.append_empty] at twice
  linarith

/-- What `clipToTokens` answers: the prefix, the tokens it spent, and whether anything was cut. -/
structure Clip where
  text : String
  used : ℚ
  clipped : Bool

/-- The loop over the code points, with what it has spent and kept: `break` at the first that does not fit. -/
def clipScan (counter : TokenCounter) (max : ℚ) : List Char → ℚ → String → Clip
  | [], used, text => ⟨text, used, true⟩
  | character :: rest, used, text =>
    let cost := accountedCount counter character.toString
    if used + cost > max then ⟨text, used, true⟩ else clipScan counter max rest (used + cost) (text ++ character.toString)

def clipToTokens (counter : TokenCounter) (value : String) (max : ℚ) : Clip :=
  let whole := accountedCount counter value
  if whole ≤ max then ⟨value, whole, false⟩ else clipScan counter max value.toList 0 ""

/-- Whether a text is charged for at all: it fits whole, or its first code point does. -/
def Charged (counter : TokenCounter) (max : ℚ) (value : String) : Prop :=
  accountedCount counter value ≤ max ∨ ∃ c ∈ value.toList.head?, accountedCount counter c.toString ≤ max

instance (counter : TokenCounter) (max : ℚ) (value : String) : Decidable (Charged counter max value) :=
  @instDecidableOr _ _ (Rat.instDecidableLe _ _) (Option.decidableExistsMem _)

theorem clipToTokens_whole {counter : TokenCounter} {value : String} {max : ℚ} (fits : accountedCount counter value ≤ max) :
    clipToTokens counter value max = ⟨value, accountedCount counter value, false⟩ := by
  rw [clipToTokens, if_pos fits]

theorem clipScan_used {counter : TokenCounter} {max : ℚ} (cs : List Char) {used : ℚ} {text : String} (within : used ≤ max) :
    (clipScan counter max cs used text).used ≤ max := by
  induction cs generalizing used text with
  | nil => exact within
  | cons c cs ih =>
    rw [clipScan]
    split
    · exact within
    · exact ih (by linarith)

/-- The characters charged one by one are at least the price of the text they form. -/
theorem clipScan_text (counter : SubadditiveCounter) {max : ℚ} (cs : List Char) {used : ℚ} {text : String}
    (paid : accountedCount counter.toTokenCounter text ≤ used) :
    accountedCount counter.toTokenCounter (clipScan counter.toTokenCounter max cs used text).text ≤
      (clipScan counter.toTokenCounter max cs used text).used := by
  induction cs generalizing used text with
  | nil => exact paid
  | cons c cs ih =>
    rw [clipScan]
    split
    · exact paid
    · exact ih ((accountedCount_append counter text c.toString).trans (by linarith))

theorem clipScan_nonempty {counter : TokenCounter} {max : ℚ} (cs : List Char) {used : ℚ} {text : String} (some_ : text ≠ "") :
    (clipScan counter max cs used text).text ≠ "" := by
  induction cs generalizing used text with
  | nil => exact some_
  | cons c cs ih =>
    rw [clipScan]
    split
    · exact some_
    · exact ih (by simp)

theorem clipToTokens_used (counter : TokenCounter) (value : String) {max : ℚ} (room : 0 ≤ max) :
    (clipToTokens counter value max).used ≤ max := by
  by_cases whole : accountedCount counter value ≤ max
  · rw [clipToTokens_whole whole]
    exact whole
  · rw [clipToTokens, if_neg whole]
    exact clipScan_used _ room

/-- A text that is charged is paid for in full, and comes back empty only when it is. -/
theorem clipToTokens_charged (counter : SubadditiveCounter) {value : String} {max : ℚ}
    (charged : Charged counter.toTokenCounter max value) :
    accountedCount counter.toTokenCounter (clipToTokens counter.toTokenCounter value max).text ≤
        (clipToTokens counter.toTokenCounter value max).used ∧
      ((clipToTokens counter.toTokenCounter value max).text = "" → value = "") := by
  by_cases whole : accountedCount counter.toTokenCounter value ≤ max
  · rw [clipToTokens_whole whole]
    exact ⟨le_rfl, id⟩
  · obtain ⟨c, first, fits⟩ := charged.resolve_left whole
    obtain ⟨rest, chars⟩ : ∃ rest, value.toList = c :: rest := by
      cases chars : value.toList with
      | nil => simp [chars] at first
      | cons d rest => exact ⟨rest, by simp_all⟩
    rw [clipToTokens, if_neg whole, chars, clipScan, if_neg (by linarith), String.empty_append, zero_add]
    exact ⟨clipScan_text counter rest le_rfl, fun none => absurd none (clipScan_nonempty rest (by simp))⟩

/-- Any other text comes back empty, at no charge. -/
theorem clipToTokens_uncharged {counter : TokenCounter} {value : String} {max : ℚ}
    (uncharged : ¬ Charged counter max value) : clipToTokens counter value max = ⟨"", 0, true⟩ := by
  rw [Charged, not_or] at uncharged
  rw [clipToTokens, if_neg uncharged.1]
  cases chars : value.toList with
  | nil => rfl
  | cons c rest =>
    have large : max < accountedCount counter c.toString := by
      by_contra fits
      exact uncharged.2 ⟨c, by simp [chars], not_lt.mp fits⟩
    rw [clipScan, if_pos (by linarith)]

end GroupButler.Prompt
