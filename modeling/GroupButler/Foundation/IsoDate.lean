import GroupButler.Foundation.Rfc3339
import GroupButler.Foundation.Text
import Mathlib.Data.Char
import Mathlib.Tactic.Ring

/-!
# ISO instants

JavaScript's `Date.prototype.toISOString` of an instant in milliseconds. While years have four digits
its renderings order as the instants do, and `new Date` reads them back.
-/

namespace GroupButler.Foundation

/-- Four digits, or a sign and six. -/
def isoYear (year : Int) : List Char :=
  if year < 0 then '-' :: padded 6 year.natAbs
  else if year < 10000 then padded 4 year.natAbs
  else '+' :: padded 6 year.natAbs

def isoTime (time : Nat) : List Char :=
  padded 2 (time / 3600000) ++ (':' :: padded 2 (time / 60000 % 60) ++ (':' :: padded 2 (time / 1000 % 60) ++
    ('.' :: padded 3 (time % 1000) ++ ['Z'])))

def isoChars (ms : Int) : List Char :=
  let date := dateOfDays (ms / 86400000)
  isoYear date.year ++ ('-' :: padded 2 date.month ++ ('-' :: padded 2 date.day ++
    ('T' :: isoTime (ms % 86400000).toNat)))

def toISOString (ms : Int) : String := String.ofList (isoChars ms)

example : toISOString 1700000000120 = "2023-11-14T22:13:20.120Z" := by decide

/-- The instants from 0000-01-01 to the end of 9999. -/
def FourDigitYear (ms : Int) : Prop := -62167219200000 ≤ ms ∧ ms < 253402300800000

instance (ms : Int) : Decidable (FourDigitYear ms) := inferInstanceAs (Decidable (_ ∧ _))

/-! ### Order -/

theorem append_lt_of_lt {α : Type} [LT α] {a b rest rest' : List α} (length : a.length = b.length) (h : a < b) :
    a ++ rest < b ++ rest' := by
  induction h with
  | nil => simp at length
  | cons _ ih => exact List.Lex.cons (ih (by simpa using length))
  | rel head => exact List.Lex.rel head

theorem ofDigitChars_bounds {cs : List Char} (digits : ∀ c ∈ cs, c.isDigit = true) (value : Nat) :
    value * 10 ^ cs.length ≤ Nat.ofDigitChars 10 cs value ∧
      Nat.ofDigitChars 10 cs value < (value + 1) * 10 ^ cs.length := by
  induction cs generalizing value with
  | nil => simp
  | cons c cs ih =>
    have digit : c.toNat - '0'.toNat < 10 := by
      have bounds := isDigit_iff.mp (digits c List.mem_cons_self)
      have zero : '0'.toNat = 48 := rfl
      omega
    obtain ⟨low, high⟩ := ih (fun d member => digits d (List.mem_cons_of_mem _ member)) (10 * value + (c.toNat - '0'.toNat))
    rw [Nat.ofDigitChars_cons, List.length_cons, Nat.pow_succ]
    constructor
    · calc value * (10 ^ cs.length * 10) = 10 * value * 10 ^ cs.length := by ring
        _ ≤ (10 * value + (c.toNat - '0'.toNat)) * 10 ^ cs.length := Nat.mul_le_mul_right _ (Nat.le_add_right _ _)
        _ ≤ _ := low
    · calc Nat.ofDigitChars 10 cs (10 * value + (c.toNat - '0'.toNat))
          < (10 * value + (c.toNat - '0'.toNat) + 1) * 10 ^ cs.length := high
        _ ≤ (10 * (value + 1)) * 10 ^ cs.length := Nat.mul_le_mul_right _ (by omega)
        _ = (value + 1) * (10 ^ cs.length * 10) := by ring

theorem digits_lt {a b : List Char} (digitsA : ∀ c ∈ a, c.isDigit = true) (digitsB : ∀ c ∈ b, c.isDigit = true)
    (length : a.length = b.length) (h : a < b) (value : Nat) :
    Nat.ofDigitChars 10 a value < Nat.ofDigitChars 10 b value := by
  induction h generalizing value with
  | nil => simp at length
  | @cons c a b _ ih =>
    rw [Nat.ofDigitChars_cons, Nat.ofDigitChars_cons]
    exact ih (fun d member => digitsA d (List.mem_cons_of_mem _ member))
      (fun d member => digitsB d (List.mem_cons_of_mem _ member)) (by simpa using length) _
  | @rel c a d b head =>
    have same : a.length = b.length := by simpa using length
    have low := (ofDigitChars_bounds (fun d member => digitsB d (List.mem_cons_of_mem _ member))
      (10 * value + (d.toNat - '0'.toNat))).1
    have high := (ofDigitChars_bounds (fun d member => digitsA d (List.mem_cons_of_mem _ member))
      (10 * value + (c.toNat - '0'.toNat))).2
    have less : c.toNat < d.toNat := head
    have zero : 48 ≤ c.toNat := (isDigit_iff.mp (digitsA c List.mem_cons_self)).1
    have zero' : '0'.toNat = 48 := rfl
    rw [Nat.ofDigitChars_cons, Nat.ofDigitChars_cons]
    calc Nat.ofDigitChars 10 a (10 * value + (c.toNat - '0'.toNat))
        < (10 * value + (c.toNat - '0'.toNat) + 1) * 10 ^ a.length := high
      _ ≤ (10 * value + (d.toNat - '0'.toNat)) * 10 ^ b.length := by
        rw [same]
        exact Nat.mul_le_mul_right _ (by omega)
      _ ≤ _ := low

/-- Numbers of one width order as their digits do. -/
theorem padded_lt {width m n : Nat} (positive : 0 < width) (small : n < 10 ^ width) (h : m < n) :
    padded width m < padded width n := by
  have length : (padded width m).length = (padded width n).length :=
    (padded_length positive (h.trans small)).trans (padded_length positive small).symm
  rcases lt_trichotomy (padded width m) (padded width n) with less | same | more
  · exact less
  · exact absurd (padded_inj same) (Nat.ne_of_lt h)
  · have value := digits_lt (fun _ => padded_digit) (fun _ => padded_digit) length.symm more 0
    rw [padded_value, padded_value] at value
    exact absurd h (Nat.lt_asymm value)

/-- One field of a rendering and all that follows it. -/
theorem field_lt {width m n : Nat} {rest rest' : List Char} (positive : 0 < width) (smallM : m < 10 ^ width)
    (smallN : n < 10 ^ width) (h : m < n ∨ m = n ∧ rest < rest') : padded width m ++ rest < padded width n ++ rest' := by
  rcases h with less | ⟨rfl, less⟩
  · exact append_lt_of_lt ((padded_length positive smallM).trans (padded_length positive smallN).symm)
      (padded_lt positive smallN less)
  · exact List.append_left_lt less

theorem isoTime_lt {t t' : Nat} (day : t' < 86400000) (h : t < t') : isoTime t < isoTime t' := by
  unfold isoTime
  simp only [List.cons_append]
  refine field_lt (by decide) (by omega) (by omega) ?_
  by_cases hour : t / 3600000 < t' / 3600000
  · exact Or.inl hour
  refine Or.inr ⟨by omega, List.Lex.cons (field_lt (by decide) (by omega) (by omega) ?_)⟩
  by_cases minute : t / 60000 % 60 < t' / 60000 % 60
  · exact Or.inl minute
  refine Or.inr ⟨by omega, List.Lex.cons (field_lt (by decide) (by omega) (by omega) ?_)⟩
  by_cases second : t / 1000 % 60 < t' / 1000 % 60
  · exact Or.inl second
  exact Or.inr ⟨by omega, List.Lex.cons (field_lt (by decide) (by omega) (by omega) (Or.inl (by omega)))⟩

/-! ### The calendar's order -/

theorem monthDay_lt {lengths : List Nat} {m n : Nat} (h : m < n) :
    (monthDay lengths m).1 < (monthDay lengths n).1 ∨
      (monthDay lengths m).1 = (monthDay lengths n).1 ∧ (monthDay lengths m).2 < (monthDay lengths n).2 := by
  induction lengths generalizing m n with
  | nil => exact Or.inr ⟨rfl, Nat.succ_lt_succ h⟩
  | cons length lengths ih =>
    simp only [monthDay]
    have later := monthDay_pos lengths (n - length)
    split <;> split
    · exact Or.inr ⟨rfl, Nat.succ_lt_succ h⟩
    · exact Or.inl (by omega)
    · omega
    · rcases ih (m := m - length) (n := n - length) (by omega) with less | ⟨same, less⟩
      · exact Or.inl (Nat.succ_lt_succ less)
      · exact Or.inr ⟨congrArg (· + 1) same, less⟩

theorem monthDay_bounds (lengths : List Nat) (short : ∀ length ∈ lengths, length ≤ 31) (n : Nat) :
    (monthDay lengths n).1 ≤ lengths.length + 1 ∧ (monthDay lengths n).2 ≤ 31 + (n - lengths.sum) := by
  induction lengths generalizing n with
  | nil =>
    simp only [monthDay, List.length_nil, List.sum_nil]
    omega
  | cons length lengths ih =>
    have head := short length List.mem_cons_self
    obtain ⟨month, day⟩ := ih (fun l member => short l (List.mem_cons_of_mem _ member)) (n - length)
    simp only [monthDay, List.length_cons, List.sum_cons]
    split
    · constructor <;> dsimp only <;> omega
    · exact ⟨Nat.succ_le_succ month, by dsimp only; omega⟩

theorem yearParts_day (days : Int) : (yearParts days).2.2.2.2 ≤ 365 := by
  simp only [yearParts]
  omega

theorem dateOfDays_bounds (days : Int) : (dateOfDays days).month ≤ 13 ∧ (dateOfDays days).day < 100 := by
  have day := yearParts_day (days + 719162)
  unfold dateOfDays
  generalize yearParts (days + 719162) = parts at day
  obtain ⟨era, century, four, one, yearDay⟩ := parts
  have short : ∀ leap, ∀ length ∈ monthLengths leap, length ≤ 31 := by decide
  have months : ∀ leap, (monthLengths leap).length = 12 := by decide
  have sum : ∀ leap, 365 ≤ (monthLengths leap).sum := by decide
  have long := sum (isLeap (400 * era + 100 * century + 4 * four + one + 1))
  have bounds := monthDay_bounds (monthLengths (isLeap (400 * era + 100 * century + 4 * four + one + 1))) (short _) yearDay
  rw [months] at bounds
  dsimp only at day ⊢
  omega

theorem min_div_mono (cap size : Nat) {m n : Nat} (h : m ≤ n) : min cap (m / size) ≤ min cap (n / size) :=
  min_le_min_left cap (Nat.div_le_div_right h)

theorem year_mono {days days' : Int} (h : days ≤ days') : (dateOfDays days).year ≤ (dateOfDays days').year := by
  have parts := yearParts_spec (days + 719162)
  have parts' := yearParts_spec (days' + 719162)
  simp only [dateOfDays, yearParts] at parts parts' ⊢
  have era : (days + 719162) / 146097 ≤ (days' + 719162) / 146097 := Int.ediv_le_ediv (by decide) (by omega)
  rcases lt_or_eq_of_le era with less | same
  · omega
  have dayOfEra : ((days + 719162) % 146097).toNat ≤ ((days' + 719162) % 146097).toNat := by omega
  generalize ((days + 719162) % 146097).toNat = d at *
  generalize ((days' + 719162) % 146097).toNat = d' at *
  rcases lt_or_eq_of_le (min_div_mono 3 36524 dayOfEra) with less | sameCentury
  · omega
  have dayOfCentury : d - 36524 * min 3 (d / 36524) ≤ d' - 36524 * min 3 (d' / 36524) := by omega
  generalize d - 36524 * min 3 (d / 36524) = c at *
  generalize d' - 36524 * min 3 (d' / 36524) = c' at *
  rcases lt_or_eq_of_le (Nat.div_le_div_right (c := 1461) dayOfCentury) with less | sameFour
  · omega
  have one := min_div_mono 3 365 (by omega : c - 1461 * (c / 1461) ≤ c' - 1461 * (c' / 1461))
  omega

theorem dateOfDays_lt {days days' : Int} (h : days < days') :
    (dateOfDays days).year < (dateOfDays days').year ∨ (dateOfDays days).year = (dateOfDays days').year ∧
      ((dateOfDays days).month < (dateOfDays days').month ∨ (dateOfDays days).month = (dateOfDays days').month ∧
        (dateOfDays days).day < (dateOfDays days').day) := by
  rcases lt_or_eq_of_le (year_mono h.le) with less | same
  · exact Or.inl less
  · refine Or.inr ⟨same, ?_⟩
    have firstParts := yearParts_spec (days + 719162)
    have secondParts := yearParts_spec (days' + 719162)
    unfold dateOfDays at same ⊢
    generalize yearParts (days + 719162) = a at firstParts same ⊢
    generalize yearParts (days' + 719162) = b at secondParts same ⊢
    obtain ⟨era, century, four, one, yearDay⟩ := a
    obtain ⟨era', century', four', one', yearDay'⟩ := b
    dsimp only at firstParts secondParts same ⊢
    obtain ⟨rfl, rfl, rfl, rfl⟩ := yearParts_inj firstParts.2 secondParts.2 same
    exact monthDay_lt (by omega)

theorem year_bounds {ms : Int} (years : FourDigitYear ms) :
    0 ≤ (dateOfDays (ms / 86400000)).year ∧ (dateOfDays (ms / 86400000)).year < 10000 := by
  obtain ⟨low, high⟩ := years
  have first := year_mono (by omega : -719528 ≤ ms / 86400000)
  have last := year_mono (by omega : ms / 86400000 ≤ 2932896)
  have first' : (dateOfDays (-719528)).year = 0 := by decide
  have last' : (dateOfDays 2932896).year = 9999 := by decide
  omega

theorem isoYear_eq {year : Int} (bounds : 0 ≤ year ∧ year < 10000) : isoYear year = padded 4 year.natAbs := by
  rw [isoYear, if_neg (by omega), if_pos bounds.2]

theorem year_outside {ms : Int} (outside : ¬ FourDigitYear ms) :
    (dateOfDays (ms / 86400000)).year < 0 ∨ 10000 ≤ (dateOfDays (ms / 86400000)).year := by
  have last : (dateOfDays (-719529)).year = -1 := by decide
  have first : (dateOfDays 2932897).year = 10000 := by decide
  by_cases low : -62167219200000 ≤ ms
  · have high : 253402300800000 ≤ ms := by
      by_contra short
      exact outside ⟨low, by omega⟩
    have year := year_mono (by omega : 2932897 ≤ ms / 86400000)
    omega
  · have year := year_mono (by omega : ms / 86400000 ≤ -719529)
    omega

/-- Years of more digits are written with a sign. -/
theorem isoChars_head (ms : Int) : (∃ c ∈ (isoChars ms).head?, c.isDigit = true) ↔ FourDigitYear ms := by
  unfold isoChars
  dsimp only
  constructor
  · rintro ⟨c, first, digit⟩
    by_contra outside
    rcases year_outside outside with before | after
    · rw [isoYear, if_pos before] at first
      obtain rfl := Option.some.inj first
      cases digit
    · rw [isoYear, if_neg (by omega), if_neg (by omega)] at first
      obtain rfl := Option.some.inj first
      cases digit
  · intro years
    have year := year_bounds years
    rw [isoYear_eq year]
    have width : (padded 4 (dateOfDays (ms / 86400000)).year.natAbs).length = 4 := padded_length (by decide) (by omega)
    have digits : ∀ c ∈ padded 4 (dateOfDays (ms / 86400000)).year.natAbs, c.isDigit = true := fun _ => padded_digit
    cases shape : padded 4 (dateOfDays (ms / 86400000)).year.natAbs with
    | nil => rw [shape] at width; cases width
    | cons c cs => exact ⟨c, rfl, digits c (shape ▸ List.mem_cons_self)⟩

theorem isoChars_lt {ms ms' : Int} (years : FourDigitYear ms) (years' : FourDigitYear ms') (h : ms < ms') :
    isoChars ms < isoChars ms' := by
  have year := year_bounds years
  have year' := year_bounds years'
  have bounds := dateOfDays_bounds (ms / 86400000)
  have bounds' := dateOfDays_bounds (ms' / 86400000)
  unfold isoChars
  simp only [isoYear_eq year, isoYear_eq year', List.cons_append]
  rcases lt_or_eq_of_le (Int.ediv_le_ediv (by decide : (0 : Int) < 86400000) h.le) with earlier | same
  · refine field_lt (by decide) (by omega) (by omega) ?_
    rcases dateOfDays_lt earlier with less | ⟨sameYear, rest⟩
    · exact Or.inl (by omega)
    refine Or.inr ⟨by rw [sameYear], List.Lex.cons (field_lt (by decide) (by omega) (by omega) ?_)⟩
    rcases rest with less | ⟨sameMonth, less⟩
    · exact Or.inl less
    · exact Or.inr ⟨sameMonth, List.Lex.cons (field_lt (by decide) (by omega) (by omega) (Or.inl less))⟩
  · rw [same]
    refine List.append_left_lt (List.Lex.cons (List.append_left_lt (List.Lex.cons (List.append_left_lt
      (List.Lex.cons (isoTime_lt ?_ ?_))))))
    all_goals omega

theorem utf16_ascii {cs : List Char} (ascii : ∀ c ∈ cs, c.toNat < 128) : cs.flatMap utf16Units = cs.map Char.toNat := by
  induction cs with
  | nil => rfl
  | cons c cs ih =>
    have unit : utf16Units c = [c.toNat] := if_pos (by have := ascii c List.mem_cons_self; omega)
    rw [List.flatMap_cons, unit, ih fun d member => ascii d (List.mem_cons_of_mem _ member)]
    rfl

/-- On ASCII, code units order as characters do. -/
theorem utf16_lt_of_ascii {cs ds : List Char} (asciiC : ∀ c ∈ cs, c.toNat < 128) (asciiD : ∀ d ∈ ds, d.toNat < 128)
    (h : cs < ds) : cs.flatMap utf16Units < ds.flatMap utf16Units := by
  rw [utf16_ascii asciiC, utf16_ascii asciiD]
  clear asciiC asciiD
  induction h with
  | nil => exact List.Lex.nil
  | cons _ ih => exact List.Lex.cons ih
  | rel head => exact List.Lex.rel head

theorem padded_ascii {width n : Nat} {c : Char} (member : c ∈ padded width n) : c.toNat < 128 := by
  have digit := isDigit_iff.mp (padded_digit member)
  omega

theorem isoChars_ascii {ms : Int} {c : Char} (member : c ∈ isoChars ms) : c.toNat < 128 := by
  have year : ∀ d ∈ isoYear (dateOfDays (ms / 86400000)).year, d.toNat < 128 := by
    intro d member
    unfold isoYear at member
    split at member
    · rcases List.mem_cons.mp member with rfl | digit
      · decide
      · exact padded_ascii digit
    · split at member
      · exact padded_ascii member
      · rcases List.mem_cons.mp member with rfl | digit
        · decide
        · exact padded_ascii digit
  simp only [isoChars, isoTime, List.mem_append, List.mem_cons, List.not_mem_nil, or_false] at member
  rcases member with member | (rfl | member) | (rfl | member) | rfl | member | (rfl | member) | (rfl | member) |
    (rfl | member) | rfl
  all_goals first | decide | exact padded_ascii member | exact year c member

theorem toISOString_lt {ms ms' : Int} (years : FourDigitYear ms) (years' : FourDigitYear ms') (h : ms < ms') :
    utf16 (toISOString ms) < utf16 (toISOString ms') := by
  simp only [utf16, toISOString, String.toList_ofList]
  exact utf16_lt_of_ascii (fun _ => isoChars_ascii) (fun _ => isoChars_ascii) (isoChars_lt years years' h)

/-! ### Reading -/

def daysOfDate (date : Date) : Int :=
  let before := date.year - 1
  365 * before + before / 4 - before / 100 + before / 400 +
    dayOfYear (monthLengths (isLeap date.year)) date.month date.day - 719162

theorem daysOfDate_dateOfDays (days : Int) : daysOfDate (dateOfDays days) = days := by
  have parts := yearParts_spec (days + 719162)
  unfold dateOfDays
  generalize yearParts (days + 719162) = a at parts
  obtain ⟨era, century, four, one, yearDay⟩ := a
  simp only [daysOfDate, dayOfYear_monthDay] at parts ⊢
  omega

/-- What `new Date` makes of a string that is no four-digit-year ISO instant. -/
class DateStrings where
  other : String → Option Int

/-- The fields of `YYYY-MM-DDTHH:mm:ss.sssZ`, put together. -/
def isoMillis (cs : List Char) : Int :=
  let number (start width : Nat) : Nat := Nat.ofDigitChars 10 ((cs.drop start).take width) 0
  daysOfDate ⟨number 0 4, number 5 2, number 8 2⟩ * 86400000 + number 11 2 * 3600000 + number 14 2 * 60000 +
    number 17 2 * 1000 + number 20 3

/-- `new Date(s).getTime()`, with `none` for `NaN`. -/
def readDate [DateStrings] (s : String) : Option Int :=
  if toISOString (isoMillis s.toList) = s then some (isoMillis s.toList) else DateStrings.other s

theorem padded_two {n : Nat} (small : n < 100) : ∃ a b, padded 2 n = [a, b] :=
  List.length_eq_two.mp (padded_length (by decide) (by omega))

theorem padded_three {n : Nat} (small : n < 1000) : ∃ a b c, padded 3 n = [a, b, c] :=
  List.length_eq_three.mp (padded_length (by decide) (by omega))

theorem padded_four {n : Nat} (small : n < 10000) : ∃ a b c d, padded 4 n = [a, b, c, d] := by
  have length : (padded 4 n).length = 4 := padded_length (by decide) (by omega)
  match padded 4 n, length with
  | [a, b, c, d], _ => exact ⟨a, b, c, d, rfl⟩

theorem isoMillis_isoChars {ms : Int} (years : FourDigitYear ms) : isoMillis (isoChars ms) = ms := by
  have year := year_bounds years
  have bounds := dateOfDays_bounds (ms / 86400000)
  have days := daysOfDate_dateOfDays (ms / 86400000)
  have shape : isoChars ms = isoYear (dateOfDays (ms / 86400000)).year ++ ('-' :: padded 2 (dateOfDays (ms / 86400000)).month ++
    ('-' :: padded 2 (dateOfDays (ms / 86400000)).day ++ ('T' :: isoTime (ms % 86400000).toNat))) := rfl
  rw [shape]
  generalize dateOfDays (ms / 86400000) = date at *
  rw [isoYear_eq year]
  have time : (ms % 86400000).toNat < 86400000 := by omega
  obtain ⟨y₁, y₂, y₃, y₄, yearIs⟩ := padded_four (n := date.year.natAbs) (by omega)
  obtain ⟨m₁, m₂, monthIs⟩ := padded_two (n := date.month) (by omega)
  obtain ⟨d₁, d₂, dayIs⟩ := padded_two bounds.2
  obtain ⟨h₁, h₂, hourIs⟩ := padded_two (n := (ms % 86400000).toNat / 3600000) (by omega)
  obtain ⟨n₁, n₂, minuteIs⟩ := padded_two (n := (ms % 86400000).toNat / 60000 % 60) (by omega)
  obtain ⟨s₁, s₂, secondIs⟩ := padded_two (n := (ms % 86400000).toNat / 1000 % 60) (by omega)
  obtain ⟨f₁, f₂, f₃, millisIs⟩ := padded_three (n := (ms % 86400000).toNat % 1000) (by omega)
  -- With every digit named, each field is read where it stands.
  simp only [isoTime, yearIs, monthIs, dayIs, hourIs, minuteIs, secondIs, millisIs, List.cons_append, List.nil_append,
    isoMillis, List.drop_succ_cons, List.drop_zero, List.take_succ_cons, List.take_zero]
  rw [← yearIs, ← monthIs, ← dayIs, ← hourIs, ← minuteIs, ← secondIs, ← millisIs]
  simp only [padded_value]
  have same : (⟨(date.year.natAbs : Int), date.month, date.day⟩ : Date) = date := by
    cases date
    simp only [Date.mk.injEq, and_true]
    exact Int.natAbs_of_nonneg year.1
  rw [same, days]
  omega

theorem readDate_toISOString [DateStrings] {ms : Int} (years : FourDigitYear ms) :
    readDate (toISOString ms) = some ms := by
  have chars : (toISOString ms).toList = isoChars ms := String.toList_ofList
  rw [readDate, chars, isoMillis_isoChars years, if_pos rfl]

end GroupButler.Foundation
