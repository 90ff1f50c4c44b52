import Mathlib.Tactic.Linarith
import Mathlib.Data.List.Basic

/-!
# RFC 3339 instants

Go's `time.RFC3339Nano` of a UTC instant given in milliseconds, over the proleptic Gregorian
calendar. Two instants with one rendering are the same instant.
-/

namespace GroupButler.Foundation

/-! ### The calendar -/

/-- A day of the Gregorian calendar. -/
structure Date where
  year : Int
  month : Nat
  day : Nat
  deriving DecidableEq, Repr

def isLeap (year : Int) : Bool := year % 4 = 0 && (year % 100 ≠ 0 || year % 400 = 0)

def monthLengths (leap : Bool) : List Nat := [31, if leap then 29 else 28, 31, 30, 31, 30, 31, 31, 30, 31, 30, 31]

/-- Month and day, both from one, of a day counted from zero. -/
def monthDay : List Nat → Nat → Nat × Nat
  | [], n => (1, n + 1)
  | length :: lengths, n =>
    if n < length then (1, n + 1) else ((monthDay lengths (n - length)).1 + 1, (monthDay lengths (n - length)).2)

def dayOfYear (lengths : List Nat) (month day : Nat) : Nat := (lengths.take (month - 1)).sum + (day - 1)

theorem monthDay_pos (lengths : List Nat) (n : Nat) : 1 ≤ (monthDay lengths n).1 := by
  cases lengths with
  | nil => exact Nat.le_refl 1
  | cons length lengths =>
    unfold monthDay
    split <;> simp

theorem dayOfYear_monthDay (lengths : List Nat) (n : Nat) :
    dayOfYear lengths (monthDay lengths n).1 (monthDay lengths n).2 = n := by
  induction lengths generalizing n with
  | nil => simp [monthDay, dayOfYear]
  | cons length lengths ih =>
    unfold monthDay
    split
    · simp [dayOfYear]
    · rename_i large
      have rest := ih (n - length)
      have positive := monthDay_pos lengths (n - length)
      obtain ⟨earlier, same⟩ : ∃ earlier, (monthDay lengths (n - length)).1 = earlier + 1 :=
        ⟨_, (Nat.succ_pred_eq_of_pos positive).symm⟩
      simp only [dayOfYear, same, Nat.add_sub_cancel, List.take_succ_cons, List.sum_cons] at rest ⊢
      omega

/-- The 400-, 100-, 4- and 1-year parts of a day counted from 0001-01-01, and the day in its year. -/
def yearParts (days : Int) : Int × Nat × Nat × Nat × Nat :=
  let era := days / 146097
  let dayOfEra := (days % 146097).toNat
  let century := min 3 (dayOfEra / 36524)
  let dayOfCentury := dayOfEra - 36524 * century
  let four := dayOfCentury / 1461
  let dayOfFour := dayOfCentury - 1461 * four
  let one := min 3 (dayOfFour / 365)
  (era, century, four, one, dayOfFour - 365 * one)

/-- The date of a day counted from 1970-01-01. -/
def dateOfDays (days : Int) : Date :=
  let (era, century, four, one, yearDay) := yearParts (days + 719162)
  let year : Int := 400 * era + 100 * century + 4 * four + one + 1
  let (month, day) := monthDay (monthLengths (isLeap year)) yearDay
  ⟨year, month, day⟩

theorem yearParts_spec (days : Int) :
    let (era, century, four, one, yearDay) := yearParts days
    days = 146097 * era + 36524 * century + 1461 * four + 365 * one + yearDay ∧
      century ≤ 3 ∧ four ≤ 24 ∧ one ≤ 3 := by
  simp only [yearParts]
  omega

theorem yearParts_inj {era era' : Int} {century four one century' four' one' : Nat}
    (small : century ≤ 3 ∧ four ≤ 24 ∧ one ≤ 3) (small' : century' ≤ 3 ∧ four' ≤ 24 ∧ one' ≤ 3)
    (h : 400 * era + 100 * century + 4 * four + one + 1 = 400 * era' + 100 * century' + 4 * four' + one' + 1) :
    era = era' ∧ century = century' ∧ four = four' ∧ one = one' := by
  obtain rfl : era = era' := by omega
  obtain rfl : century = century' := by omega
  obtain rfl : four = four' := by omega
  exact ⟨rfl, rfl, rfl, by omega⟩

theorem dateOfDays_inj {first second : Int} (h : dateOfDays first = dateOfDays second) : first = second := by
  have firstParts := yearParts_spec (first + 719162)
  have secondParts := yearParts_spec (second + 719162)
  unfold dateOfDays at h
  generalize yearParts (first + 719162) = a at firstParts h
  generalize yearParts (second + 719162) = b at secondParts h
  obtain ⟨era₁, century₁, four₁, one₁, day₁⟩ := a
  obtain ⟨era₂, century₂, four₂, one₂, day₂⟩ := b
  simp only [Date.mk.injEq] at firstParts secondParts h
  obtain ⟨year, month, day⟩ := h
  obtain ⟨sum₁, small₁⟩ := firstParts
  obtain ⟨sum₂, small₂⟩ := secondParts
  have yearDay : day₁ = day₂ := by
    have left := dayOfYear_monthDay (monthLengths (isLeap (400 * era₁ + 100 * century₁ + 4 * four₁ + one₁ + 1))) day₁
    have right := dayOfYear_monthDay (monthLengths (isLeap (400 * era₂ + 100 * century₂ + 4 * four₂ + one₂ + 1))) day₂
    rw [← left, ← right, month, day, year]
  obtain ⟨rfl, rfl, rfl, rfl⟩ := yearParts_inj small₁ small₂ year
  omega

/-! ### The rendering -/

/-- Decimal digits with leading zeros up to `width`. -/
def padded (width n : Nat) : List Char :=
  List.replicate (width - (Nat.toDigits 10 n).length) '0' ++ Nat.toDigits 10 n

theorem padded_value (width n : Nat) : Nat.ofDigitChars 10 (padded width n) 0 = n := by
  rw [padded, Nat.ofDigitChars_append, Nat.ofDigitChars_replicate_zero, Nat.mul_zero, Nat.ofDigitChars_ten_toDigits]

theorem padded_inj {width m n : Nat} (h : padded width m = padded width n) : m = n := by
  rw [← padded_value width m, ← padded_value width n, h]

theorem padded_digit {width n : Nat} {c : Char} (member : c ∈ padded width n) : c.isDigit = true := by
  rcases List.mem_append.mp member with zero | digit
  · rw [List.eq_of_mem_replicate zero]
    decide
  · exact Nat.isDigit_of_mem_toDigits (by decide) (by decide) digit

theorem padded_ne_nil (width n : Nat) : padded width n ≠ [] := by
  simp [padded, Nat.toDigits_ne_nil]

theorem padded_length {width n : Nat} (positive : 0 < width) (small : n < 10 ^ width) :
    (padded width n).length = width := by
  have digits : (Nat.toDigits 10 n).length ≤ width := (Nat.length_toDigits_le_iff (by decide) positive).mpr small
  simp only [padded, List.length_append, List.length_replicate]
  omega

/-- The year, four digits wide, with a sign when negative. -/
def renderYear (year : Int) : List Char :=
  if year < 0 then '-' :: padded 4 year.natAbs else padded 4 year.natAbs

/-- The fraction of a second without its trailing zeros. -/
def renderFraction (ms : Nat) : List Char :=
  if ms = 0 then []
  else if ms % 100 = 0 then '.' :: padded 1 (ms / 100)
  else if ms % 10 = 0 then '.' :: padded 2 (ms / 10)
  else '.' :: padded 3 ms

def rfc3339Nano (ms : Int) : List Char :=
  let date := dateOfDays (ms / 86400000)
  let time := (ms % 86400000).toNat
  renderYear date.year ++ '-' :: (padded 2 date.month ++ '-' :: (padded 2 date.day ++ 'T' ::
    (padded 2 (time / 3600000) ++ ':' :: (padded 2 (time / 60000 % 60) ++ ':' ::
      ((padded 2 (time / 1000 % 60) ++ renderFraction (time % 1000)) ++ 'Z' :: [])))))

example : String.ofList (rfc3339Nano 1700000000120) = "2023-11-14T22:13:20.12Z" := by decide
example : String.ofList (rfc3339Nano (-62135596800001)) = "0000-12-31T23:59:59.999Z" := by decide

/-- A separator that neither side holds splits both in one place. -/
theorem append_sep_inj {sep : Char} {a b rest rest' : List Char} (ha : sep ∉ a) (hb : sep ∉ b)
    (h : a ++ sep :: rest = b ++ sep :: rest') : a = b ∧ rest = rest' := by
  induction a generalizing b with
  | nil =>
    cases b with
    | nil => exact ⟨rfl, (List.cons.inj h).2⟩
    | cons c b => exact (hb (by rw [(List.cons.inj h).1]; exact List.mem_cons_self)).elim
  | cons c a ih =>
    cases b with
    | nil => exact (ha (by rw [← (List.cons.inj h).1]; exact List.mem_cons_self)).elim
    | cons d b =>
      obtain ⟨same, tail⟩ := List.cons.inj h
      obtain ⟨sameRest, rests⟩ := ih (fun m => ha (List.mem_cons_of_mem _ m)) (fun m => hb (List.mem_cons_of_mem _ m)) tail
      exact ⟨by rw [same, sameRest], rests⟩

theorem sep_not_padded {sep : Char} (notDigit : sep.isDigit = false) (width n : Nat) : sep ∉ padded width n := by
  intro member
  rw [padded_digit member] at notDigit
  cases notDigit

theorem renderYear_inj {year year' : Int} {rest rest' : List Char}
    (h : renderYear year ++ '-' :: rest = renderYear year' ++ '-' :: rest') : year = year' ∧ rest = rest' := by
  have digits (n : Nat) : '-' ∉ padded 4 n := sep_not_padded (by decide) 4 n
  -- A rendering without a sign starts with a digit.
  have unsigned : ∀ (n : Nat) (rest tail : List Char), padded 4 n ++ '-' :: rest ≠ '-' :: tail := by
    intro n rest tail same
    cases shape : padded 4 n with
    | nil => exact padded_ne_nil 4 n shape
    | cons c cs =>
      rw [shape, List.cons_append] at same
      exact digits n (by rw [shape, (List.cons.inj same).1]; exact List.mem_cons_self)
  unfold renderYear at h
  split at h <;> split at h
  · obtain ⟨same, rests⟩ := append_sep_inj (digits _) (digits _) (List.cons.inj h).2
    have := padded_inj same
    exact ⟨by omega, rests⟩
  · exact (unsigned _ _ _ h.symm).elim
  · exact (unsigned _ _ _ h).elim
  · obtain ⟨same, rests⟩ := append_sep_inj (digits _) (digits _) h
    have := padded_inj same
    exact ⟨by omega, rests⟩

/-- Read a fraction back: its length says what its trailing zeros were. -/
def fractionValue (cs : List Char) : Nat :=
  match cs.length with
  | 0 => 0
  | 2 => 100 * Nat.ofDigitChars 10 (cs.drop 1) 0
  | 3 => 10 * Nat.ofDigitChars 10 (cs.drop 1) 0
  | _ => Nat.ofDigitChars 10 (cs.drop 1) 0

theorem fractionValue_renderFraction {ms : Nat} (small : ms < 1000) : fractionValue (renderFraction ms) = ms := by
  unfold renderFraction
  split
  · rename_i zero
    exact zero.symm
  · split
    · have length : (padded 1 (ms / 100)).length = 1 := padded_length (by decide) (by omega)
      simp only [fractionValue, List.length_cons, length, List.drop_one, List.tail_cons, padded_value]
      omega
    · split
      · have length : (padded 2 (ms / 10)).length = 2 := padded_length (by decide) (by omega)
        simp only [fractionValue, List.length_cons, length, List.drop_one, List.tail_cons, padded_value]
        omega
      · have length : (padded 3 ms).length = 3 := padded_length (by decide) (by omega)
        simp only [fractionValue, List.length_cons, length, List.drop_one, List.tail_cons, padded_value]

theorem renderFraction_inj {m n : Nat} (hm : m < 1000) (hn : n < 1000) (h : renderFraction m = renderFraction n) :
    m = n := by
  rw [← fractionValue_renderFraction hm, ← fractionValue_renderFraction hn, h]

theorem renderFraction_no_z (ms : Nat) : 'Z' ∉ renderFraction ms := by
  have notZ (width n : Nat) : 'Z' ∉ '.' :: padded width n := by
    intro member
    rcases List.mem_cons.mp member with dot | digit
    · exact absurd dot (by decide)
    · exact sep_not_padded (by decide) width n digit
  unfold renderFraction
  split
  · simp
  · split
    · exact notZ _ _
    · split <;> exact notZ _ _

/-- An instant and what follows its rendering can be read back. -/
theorem rfc3339Nano_append_inj {ms ms' : Int} {rest rest' : List Char}
    (h : rfc3339Nano ms ++ rest = rfc3339Nano ms' ++ rest') : ms = ms' ∧ rest = rest' := by
  unfold rfc3339Nano at h
  simp only [List.append_assoc, List.cons_append, List.nil_append] at h
  obtain ⟨year, h⟩ := renderYear_inj h
  have digits {sep : Char} (notDigit : sep.isDigit = false) (n : Nat) : sep ∉ padded 2 n :=
    sep_not_padded notDigit 2 n
  obtain ⟨month, h⟩ := append_sep_inj (digits (by decide) _) (digits (by decide) _) h
  obtain ⟨day, h⟩ := append_sep_inj (digits (by decide) _) (digits (by decide) _) h
  obtain ⟨hour, h⟩ := append_sep_inj (digits (by decide) _) (digits (by decide) _) h
  obtain ⟨minute, h⟩ := append_sep_inj (digits (by decide) _) (digits (by decide) _) h
  have seconds (n m : Nat) : 'Z' ∉ padded 2 n ++ renderFraction m := by
    intro member
    rcases List.mem_append.mp member with digit | fraction
    · exact digits (by decide) n digit
    · exact renderFraction_no_z m fraction
  rw [← List.append_assoc, ← List.append_assoc] at h
  obtain ⟨second, rests⟩ := append_sep_inj (seconds _ _) (seconds _ _) h
  obtain ⟨second, fraction⟩ := List.append_inj second
    ((padded_length (by decide) (by omega)).trans (padded_length (by decide) (by omega)).symm)
  have fraction := renderFraction_inj (Nat.mod_lt _ (by decide)) (Nat.mod_lt _ (by decide)) fraction
  have day : ms / 86400000 = ms' / 86400000 := by
    apply dateOfDays_inj
    cases hd : dateOfDays (ms / 86400000)
    cases hd' : dateOfDays (ms' / 86400000)
    simp only [hd, hd'] at year month day
    rw [year, padded_inj month, padded_inj day]
  have hour := padded_inj hour
  have minute := padded_inj minute
  have second := padded_inj second
  refine ⟨?_, rests⟩
  omega

end GroupButler.Foundation
