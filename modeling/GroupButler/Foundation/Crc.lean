import Mathlib.Data.BitVec
import Mathlib.Tactic.Common

/-!
# Cyclic redundancy checks

The remainder of a polynomial division, the lowest bit first: a bit at a time, a byte at a time from a
table, and which changes of a message the remainder shows.
-/

namespace GroupButler.Foundation.Crc

section
variable {w : Nat} (poly : BitVec w)

/-- One place of the division. -/
def shift (c : BitVec w) : BitVec w := if c.getLsbD 0 then (c >>> 1) ^^^ poly else c >>> 1

def shifts : Nat → BitVec w → BitVec w
  | 0, c => c
  | n + 1, c => shifts n (shift poly c)

def octet (byte : UInt8) : BitVec w := byte.toBitVec.setWidth w

/-- The division goes on over one byte. -/
def absorb (c : BitVec w) (byte : UInt8) : BitVec w := shifts poly 8 (c ^^^ octet byte)

/-! ### The division is linear -/

theorem shift_xor (a b : BitVec w) : shift poly (a ^^^ b) = shift poly a ^^^ shift poly b := by
  have swap (x y : BitVec w) : (x ^^^ poly) ^^^ (y ^^^ poly) = x ^^^ y := by
    rw [BitVec.xor_comm y, BitVec.xor_assoc, ← BitVec.xor_assoc poly, BitVec.xor_self, BitVec.zero_xor]
  unfold shift
  rw [BitVec.getLsbD_xor, BitVec.ushiftRight_xor_distrib]
  cases a.getLsbD 0 <;> cases b.getLsbD 0
  · rfl
  · exact BitVec.xor_assoc _ _ _
  · show (a >>> 1 ^^^ b >>> 1) ^^^ poly = (a >>> 1 ^^^ poly) ^^^ b >>> 1
    rw [BitVec.xor_assoc, BitVec.xor_comm (b >>> 1), BitVec.xor_assoc]
  · exact (swap _ _).symm

theorem shifts_xor (n : Nat) (a b : BitVec w) : shifts poly n (a ^^^ b) = shifts poly n a ^^^ shifts poly n b := by
  induction n generalizing a b with
  | zero => rfl
  | succ n ih => rw [shifts, shift_xor, ih, shifts, shifts]

theorem shifts_add (m n : Nat) (c : BitVec w) : shifts poly (m + n) c = shifts poly n (shifts poly m c) := by
  induction m generalizing c with
  | zero => rw [Nat.zero_add, shifts]
  | succ m ih => rw [Nat.succ_add, shifts, ih, shifts]

/-- Where the lowest bits are clear nothing is divided. -/
theorem shifts_clear {n : Nat} {c : BitVec w} (clear : ∀ i < n, c.getLsbD i = false) : shifts poly n c = c >>> n := by
  induction n generalizing c with
  | zero => rw [shifts, BitVec.ushiftRight_zero]
  | succ n ih =>
    have first : shift poly c = c >>> 1 := by rw [shift, if_neg (by rw [clear 0 (Nat.succ_pos n)]; decide)]
    have rest : ∀ i < n, (c >>> 1).getLsbD i = false := by
      intro i low
      rw [BitVec.getLsbD_ushiftRight]
      exact clear (1 + i) (by omega)
    rw [shifts, first, ih rest, ← BitVec.shiftRight_add, Nat.add_comm]

/-- The low bits of a remainder and the high ones go their own ways. -/
theorem shifts_split (n : Nat) (c : BitVec w) :
    shifts poly n c = shifts poly n (c &&& BitVec.ofNat w (2 ^ n - 1)) ^^^ c >>> n := by
  have mask (i : Nat) : (BitVec.ofNat w (2 ^ n - 1)).getLsbD i = (decide (i < w) && decide (i < n)) := by
    rw [BitVec.getLsbD_ofNat, Nat.testBit_two_pow_sub_one]
  have parts : c = (c &&& BitVec.ofNat w (2 ^ n - 1)) ^^^ (c &&& ~~~BitVec.ofNat w (2 ^ n - 1)) := by
    apply BitVec.eq_of_getLsbD_eq
    intro i small
    simp only [BitVec.getLsbD_xor, BitVec.getLsbD_and, BitVec.getLsbD_not, small, decide_true, Bool.true_and]
    cases c.getLsbD i <;> cases (BitVec.ofNat w (2 ^ n - 1)).getLsbD i <;> rfl
  have high : ∀ i < n, (c &&& ~~~BitVec.ofNat w (2 ^ n - 1)).getLsbD i = false := by
    intro i low
    rw [BitVec.getLsbD_and, BitVec.getLsbD_not, mask, decide_eq_true low, Bool.and_true]
    cases decide (i < w) <;> simp
  have moved : (c &&& ~~~BitVec.ofNat w (2 ^ n - 1)) >>> n = c >>> n := by
    apply BitVec.eq_of_getLsbD_eq
    intro i small
    rw [BitVec.getLsbD_ushiftRight, BitVec.getLsbD_ushiftRight, BitVec.getLsbD_and, BitVec.getLsbD_not, mask,
      decide_eq_false (show ¬ n + i < n by omega), Bool.and_false, Bool.not_false, Bool.and_true]
    by_cases inside : n + i < w
    · rw [decide_eq_true inside, Bool.and_true]
    · rw [BitVec.getLsbD_of_ge c _ (by omega), Bool.false_and]
  calc shifts poly n c
      = shifts poly n ((c &&& BitVec.ofNat w (2 ^ n - 1)) ^^^ (c &&& ~~~BitVec.ofNat w (2 ^ n - 1))) := by rw [← parts]
    _ = shifts poly n (c &&& BitVec.ofNat w (2 ^ n - 1)) ^^^ c >>> n := by rw [shifts_xor, shifts_clear poly high, moved]

end

/-! ### What a remainder shows -/

section
variable {w : Nat} {poly : BitVec w}

/-- A polynomial whose highest coefficient is one loses nothing. -/
theorem shift_inj (top : poly.getLsbD (w - 1) = true) {a b : BitVec w} (same : shift poly a = shift poly b) : a = b := by
  have wide : 0 < w := by
    by_contra none
    rw [BitVec.getLsbD_of_ge poly _ (by omega)] at top
    cases top
  have last (c : BitVec w) : (shift poly c).getLsbD (w - 1) = c.getLsbD 0 := by
    have out : (c >>> 1).getLsbD (w - 1) = false := by
      rw [BitVec.getLsbD_ushiftRight]
      exact BitVec.getLsbD_of_ge c _ (by omega)
    unfold shift
    cases c.getLsbD 0
    · exact out
    · show ((c >>> 1) ^^^ poly).getLsbD (w - 1) = true
      rw [BitVec.getLsbD_xor, out, top, Bool.false_xor]
  have low : a.getLsbD 0 = b.getLsbD 0 := by rw [← last, ← last, same]
  have rest : a >>> 1 = b >>> 1 := by
    unfold shift at same
    rw [low] at same
    cases bit : b.getLsbD 0
    · rwa [bit] at same
    · rw [bit] at same
      exact (BitVec.xor_left_inj poly).mp same
  apply BitVec.eq_of_getLsbD_eq
  intro i small
  cases i with
  | zero => exact low
  | succ i =>
    have bit := congrArg (fun c => c.getLsbD i) rest
    rwa [BitVec.getLsbD_ushiftRight, BitVec.getLsbD_ushiftRight, Nat.add_comm] at bit

theorem shifts_inj (top : poly.getLsbD (w - 1) = true) {n : Nat} {a b : BitVec w} (same : shifts poly n a = shifts poly n b) :
    a = b := by
  induction n generalizing a b with
  | zero => exact same
  | succ n ih => exact shift_inj top (ih same)

theorem foldl_absorb_inj (top : poly.getLsbD (w - 1) = true) {bytes : List UInt8} {a b : BitVec w}
    (same : bytes.foldl (absorb poly) a = bytes.foldl (absorb poly) b) : a = b := by
  induction bytes generalizing a b with
  | nil => exact same
  | cons byte bytes ih => exact (BitVec.xor_left_inj _).mp (shifts_inj top (ih same))

/-- The bytes as one number, the first the lowest. -/
def word : List UInt8 → BitVec w
  | [] => 0
  | byte :: bytes => octet byte ^^^ (word bytes <<< 8)

theorem octet_high (byte : UInt8) {i : Nat} (high : 8 ≤ i) : (octet byte : BitVec w).getLsbD i = false := by
  rw [octet, BitVec.getLsbD_setWidth, BitVec.getLsbD_of_ge _ _ high, Bool.and_false]

theorem word_high (bytes : List UInt8) {i : Nat} (high : 8 * bytes.length ≤ i) : (word bytes : BitVec w).getLsbD i = false := by
  induction bytes generalizing i with
  | nil => exact BitVec.getLsbD_zero
  | cons byte bytes ih =>
    rw [List.length_cons] at high
    rw [word, BitVec.getLsbD_xor, octet_high byte (by omega), BitVec.getLsbD_shiftLeft, ih (by omega), Bool.and_false,
      Bool.false_xor]

/-- As many bytes as the remainder holds are divided as one number. -/
theorem foldl_absorb_word {bytes : List UInt8} (fits : 8 * bytes.length ≤ w) (c : BitVec w) :
    bytes.foldl (absorb poly) c = shifts poly (8 * bytes.length) (c ^^^ word bytes) := by
  induction bytes generalizing c with
  | nil => exact BitVec.xor_zero.symm
  | cons byte bytes ih =>
    rw [List.length_cons] at fits
    have low : ∀ i < 8, (word bytes <<< 8 : BitVec w).getLsbD i = false := by
      intro i small
      rw [BitVec.getLsbD_shiftLeft, decide_eq_true small, Bool.not_true, Bool.and_false, Bool.false_and]
    have back : (word bytes <<< 8 : BitVec w) >>> 8 = word bytes := by
      apply BitVec.eq_of_getLsbD_eq
      intro i small
      rw [BitVec.getLsbD_ushiftRight, BitVec.getLsbD_shiftLeft, decide_eq_false (show ¬ 8 + i < 8 by omega),
        Nat.add_sub_cancel_left, Bool.not_false, Bool.and_true]
      by_cases inside : 8 + i < w
      · rw [decide_eq_true inside, Bool.true_and]
      · rw [decide_eq_false inside, Bool.false_and, word_high bytes (by omega)]
    have count : 8 * (bytes.length + 1) = 8 + 8 * bytes.length := by omega
    rw [List.foldl_cons, ih (by omega), List.length_cons, count, shifts_add, word, ← BitVec.xor_assoc, shifts_xor poly 8,
      shifts_clear poly low, back, absorb]

theorem octet_inj (wide : 8 ≤ w) {a b : UInt8} (same : (octet a : BitVec w) = octet b) : a = b := by
  apply UInt8.toBitVec_inj.mp
  apply BitVec.eq_of_getLsbD_eq
  intro i small
  have bit := congrArg (fun c : BitVec w => c.getLsbD i) same
  simp only [octet, BitVec.getLsbD_setWidth, decide_eq_true (show i < w by omega), Bool.true_and] at bit
  exact bit

theorem word_inj {first second : List UInt8} (fits : 8 * first.length ≤ w) (length : first.length = second.length)
    (same : (word first : BitVec w) = word second) : first = second := by
  induction first generalizing second with
  | nil => exact (List.eq_nil_of_length_eq_zero length.symm).symm
  | cons a first ih =>
    cases second with
    | nil => cases length
    | cons b second =>
      rw [List.length_cons] at fits
      rw [List.length_cons, List.length_cons, Nat.succ_inj] at length
      have bits (i : Nat) : ((octet a ^^^ word first <<< 8 : BitVec w)).getLsbD i = (octet b ^^^ word second <<< 8 : BitVec w).getLsbD i :=
        congrArg (fun c : BitVec w => c.getLsbD i) same
      have head : (octet a : BitVec w) = octet b := by
        apply BitVec.eq_of_getLsbD_eq
        intro i small
        by_cases low : i < 8
        · have bit := bits i
          simpa [low] using bit
        · rw [octet_high a (by omega), octet_high b (by omega)]
      have tail : (word first : BitVec w) = word second := by
        apply BitVec.eq_of_getLsbD_eq
        intro i small
        by_cases low : i + 8 < w
        · have bit := bits (i + 8)
          rwa [BitVec.getLsbD_xor, BitVec.getLsbD_xor, octet_high a (by omega), octet_high b (by omega), Bool.false_xor,
            Bool.false_xor, BitVec.getLsbD_shiftLeft, BitVec.getLsbD_shiftLeft, decide_eq_true low,
            decide_eq_false (show ¬ i + 8 < 8 by omega), Bool.not_false, Bool.true_and, Bool.true_and, Nat.add_sub_cancel] at bit
        · rw [word_high first (by omega), word_high second (by omega)]
      rw [octet_inj (by omega) head, ih (by omega) length tail]

/-- Messages that differ only inside a stretch no longer than the remainder have different remainders. -/
theorem burst (top : poly.getLsbD (w - 1) = true) {c : BitVec w} {front first second rest : List UInt8}
    (fits : 8 * first.length ≤ w) (length : first.length = second.length)
    (same : (front ++ (first ++ rest)).foldl (absorb poly) c = (front ++ (second ++ rest)).foldl (absorb poly) c) :
    first = second := by
  rw [List.foldl_append, List.foldl_append, List.foldl_append, List.foldl_append] at same
  have middle := foldl_absorb_inj top same
  generalize front.foldl (absorb poly) c = c at middle
  rw [foldl_absorb_word fits, foldl_absorb_word (by omega), ← length] at middle
  exact word_inj fits length ((BitVec.xor_right_inj _).mp (shifts_inj top middle))

end

end GroupButler.Foundation.Crc
