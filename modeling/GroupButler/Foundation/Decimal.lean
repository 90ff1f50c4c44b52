import Mathlib.Data.List.TakeWhile
import GroupButler.Foundation.IsoDate

/-!
# Decimal texts

What Go's `strconv` reads of a decimal text: a 64-bit integer, or the double nearest to it.
-/

namespace GroupButler.Foundation

def splitSign : List Char → Bool × List Char
  | '-' :: cs => (true, cs)
  | '+' :: cs => (false, cs)
  | cs => (false, cs)

def signed (negative : Bool) (n : Nat) : Int := if negative then -(n : Int) else n

/-- `strconv.ParseInt(s, 10, 64)`, with `none` for an error. -/
def parseInt64 (cs : List Char) : Option Int :=
  let (negative, digits) := splitSign cs
  if !digits.isEmpty && digits.all Char.isDigit then
    let n := signed negative (Nat.ofDigitChars 10 digits 0)
    if -(2 ^ 63) ≤ n ∧ n < 2 ^ 63 then some n else none
  else none

/-- `digits * 10 ^ power`, under a sign. -/
structure Decimal where
  negative : Bool
  digits : Nat
  power : Int
  deriving DecidableEq, Repr

/-- An exponent, or none. -/
def readPower : List Char → Option Int
  | [] => some 0
  | e :: rest =>
    let (negative, digits) := splitSign rest
    if (e == 'e' || e == 'E') && !digits.isEmpty && digits.all Char.isDigit then
      some (signed negative (Nat.ofDigitChars 10 digits 0))
    else none

/-- The digits after a point. -/
def splitFraction : List Char → List Char × List Char
  | '.' :: rest => (rest.takeWhile Char.isDigit, rest.dropWhile Char.isDigit)
  | rest => ([], rest)

/-- A decimal number, with a digit on at least one side of its point. -/
def readDecimal (cs : List Char) : Option Decimal :=
  let (negative, unsigned) := splitSign cs
  let whole := unsigned.takeWhile Char.isDigit
  let (fraction, rest) := splitFraction (unsigned.dropWhile Char.isDigit)
  if (whole ++ fraction).isEmpty then none
  else (readPower rest).map fun power => ⟨negative, Nat.ofDigitChars 10 (whole ++ fraction) 0, power - fraction.length⟩

/-- The size of a decimal number is `num / den`. -/
def Decimal.num (d : Decimal) : Nat := d.digits * 10 ^ d.power.toNat

def Decimal.den (d : Decimal) : Nat := 10 ^ (-d.power).toNat

/-- The number is a whole one. -/
def Decimal.Denotes (d : Decimal) (value : Int) : Prop := signed d.negative d.num = value * d.den

instance (d : Decimal) (value : Int) : Decidable (d.Denotes value) := inferInstanceAs (Decidable (_ = _))

/-! ### Doubles -/

/-- The whole number nearest to `num / den`, ties to even. -/
def roundHalfEven (num den : Nat) : Nat :=
  if 2 * (num % den) < den ∨ 2 * (num % den) = den ∧ num / den % 2 = 0 then num / den else num / den + 1

/-- The whole part of the double nearest to `num / den`: 53 bits, of which the whole part takes the first. -/
def wholeDouble (num den : Nat) : Nat :=
  let whole := num / den
  if whole = 0 then roundHalfEven (num * 2 ^ 53) den / 2 ^ 53
  else if whole < 2 ^ 53 then roundHalfEven (num * 2 ^ (52 - whole.log2)) den / 2 ^ (52 - whole.log2)
  else roundHalfEven num (den * 2 ^ (whole.log2 - 52)) * 2 ^ (whole.log2 - 52)

/-- `strconv.ParseFloat(s, 64)` of a decimal text, without its fraction; `none` where it is no number or none
that a double can hold. -/
def parseFloat (cs : List Char) : Option Int :=
  (readDecimal cs).bind fun d =>
    let whole := wholeDouble d.num d.den
    if whole < 2 ^ 1024 then some (signed d.negative whole) else none

example : parseInt64 "-42".toList = some (-42) ∧ parseInt64 "4.2".toList = none ∧
    parseFloat "1757750000.9".toList = some 1757750000 ∧ parseFloat "9007199254740993.0".toList = some 9007199254740992 ∧
    parseFloat "-25e-1".toList = some (-2) := by
  decide +kernel

/-! ### Whole numbers -/

theorem readDecimal_of_parseInt64 {cs : List Char} {n : Int} (read : parseInt64 cs = some n) :
    ∃ d, readDecimal cs = some d ∧ ∀ value, d.Denotes value ↔ value = n := by
  unfold parseInt64 at read
  dsimp only at read
  split at read
  · rename_i digits
    rw [Bool.and_eq_true, Bool.not_eq_true', List.isEmpty_eq_false_iff, List.all_eq_true] at digits
    obtain ⟨some_, all⟩ := digits
    split at read
    · have whole : (splitSign cs).2.takeWhile Char.isDigit = (splitSign cs).2 := List.takeWhile_eq_self_iff.mpr all
      have rest : (splitSign cs).2.dropWhile Char.isDigit = [] := List.dropWhile_eq_nil_iff.mpr all
      refine ⟨⟨(splitSign cs).1, Nat.ofDigitChars 10 (splitSign cs).2 0, 0⟩, ?_, ?_⟩
      · unfold readDecimal
        dsimp only
        rw [whole, rest, splitFraction, List.append_nil, if_neg (by simpa using some_)]
        · rfl
        · simp
      · intro value
        rw [← Option.some.inj read]
        simp [Decimal.Denotes, Decimal.num, Decimal.den, eq_comm]
    · cases read
  · cases read

theorem roundHalfEven_exact {num den : Nat} (exact_ : num % den = 0) (positive : 0 < den) : roundHalfEven num den = num / den := by
  rw [roundHalfEven, exact_]
  exact if_pos (Or.inl positive)

theorem roundHalfEven_scale {num den scale : Nat} (positive : 0 < scale) :
    roundHalfEven (num * scale) (den * scale) = roundHalfEven num den := by
  have quotient : num * scale / (den * scale) = num / den := Nat.mul_div_mul_right num den positive
  have rest : num * scale % (den * scale) = num % den * scale := Nat.mul_mod_mul_right scale num den
  have less : 2 * (num % den * scale) < den * scale ↔ 2 * (num % den) < den := by
    rw [← Nat.mul_assoc]
    exact Nat.mul_lt_mul_right positive
  have even : 2 * (num % den * scale) = den * scale ↔ 2 * (num % den) = den := by
    rw [← Nat.mul_assoc]
    exact Nat.mul_left_inj (Nat.ne_of_gt positive)
  unfold roundHalfEven
  rw [quotient, rest]
  simp only [less, even]

theorem roundHalfEven_le {num den bound : Nat} (positive : 0 < den) (le : num ≤ bound * den) : roundHalfEven num den ≤ bound := by
  have quotient : num / den ≤ bound := Nat.div_le_of_le_mul (by rwa [Nat.mul_comm])
  have parts := Nat.div_add_mod' num den
  unfold roundHalfEven
  split
  · exact quotient
  · rename_i up
    by_contra beyond
    have top : num / den = bound := by omega
    rw [top] at parts
    exact up (Or.inl (by omega))

/-- Whole numbers of up to 53 bits are doubles. -/
theorem wholeDouble_exact {value den : Nat} (small : value < 2 ^ 53) (positive : 0 < den) :
    wholeDouble (value * den) den = value := by
  have whole : value * den / den = value := Nat.mul_div_cancel _ positive
  have exact_ (grid : Nat) : roundHalfEven (value * den * 2 ^ grid) den / 2 ^ grid = value := by
    have times : value * den * 2 ^ grid = value * 2 ^ grid * den := by ring
    rw [times, roundHalfEven_exact (Nat.mul_mod_left _ _) positive, Nat.mul_div_cancel _ positive,
      Nat.mul_div_cancel _ (Nat.two_pow_pos grid)]
  unfold wholeDouble
  dsimp only
  rw [whole]
  split
  · exact exact_ 53
  · exact exact_ _

/-- Beyond, the fraction a whole number is written as does not count. -/
theorem wholeDouble_whole {value den : Nat} (large : 2 ^ 53 ≤ value) (positive : 0 < den) :
    wholeDouble (value * den) den = roundHalfEven value (2 ^ (value.log2 - 52)) * 2 ^ (value.log2 - 52) := by
  have whole : value * den / den = value := Nat.mul_div_cancel _ positive
  have some_ : value ≠ 0 := by omega
  unfold wholeDouble
  dsimp only
  rw [whole, if_neg some_, if_neg (Nat.not_lt.mpr large), Nat.mul_comm den, roundHalfEven_scale positive]

end GroupButler.Foundation
