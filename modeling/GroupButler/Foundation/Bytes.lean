import Mathlib.Data.List.Basic
import Mathlib.Data.List.TakeDrop
import Mathlib.Data.List.Induction
import Mathlib.Tactic.Common
import Mathlib.Tactic.Ring

/-!
# Reads of a byte string

Indexing and slicing with 64-bit signed offsets, each of which faults out of range, and the numbers that
fixed-width fields hold.
-/

namespace GroupButler.Foundation

/-- What ends a computation on bytes without a result. -/
inductive Fault where
  | outOfRange
  | unfinished
  deriving DecidableEq, Repr

/-- `data[i]` -/
def byteAt (data : List UInt8) (i : Int) : Except Fault UInt8 :=
  if 0 ≤ i then
    match data[i.toNat]? with
    | some byte => .ok byte
    | none => .error .outOfRange
  else .error .outOfRange

/-- `data[low:high]` -/
def slice (data : List UInt8) (low high : Int) : Except Fault (List UInt8) :=
  if 0 ≤ low ∧ low ≤ high ∧ high ≤ data.length then .ok ((data.drop low.toNat).take (high - low).toNat)
  else .error .outOfRange

/-- The bytes of a range. -/
def range (data : List UInt8) (low high : Nat) : List UInt8 := (data.drop low).take (high - low)

theorem byteAt_nat {data : List UInt8} {i : Nat} (inside : i < data.length) : byteAt data i = .ok data[i] := by
  rw [byteAt, if_pos (Int.natCast_nonneg i), Int.toNat_natCast, List.getElem?_eq_getElem inside]

theorem slice_nat {data : List UInt8} {low high : Nat} (ordered : low ≤ high) (inside : high ≤ data.length) :
    slice data low high = .ok (range data low high) := by
  rw [slice, if_pos ⟨by omega, by omega, by omega⟩, range]
  congr 3
  omega

theorem length_range {data : List UInt8} {low high : Nat} (inside : high ≤ data.length) :
    (range data low high).length = high - low := by
  rw [range, List.length_take, List.length_drop]
  omega

theorem range_range {data : List UInt8} {low high first last : Nat} (inside : low + last ≤ high) :
    range (range data low high) first last = range data (low + first) (low + last) := by
  rw [range, range, range, List.drop_take, List.drop_drop, List.take_take]
  congr 1
  omega

/-- The bytes a text was put together from. -/
theorem range_append (before data after : List UInt8) :
    range (before ++ (data ++ after)) before.length (before.length + data.length) = data := by
  rw [range, List.drop_left, Nat.add_sub_cancel_left, List.take_left]

theorem range_at {bytes before data after : List UInt8} {low high : Nat} (split : bytes = before ++ (data ++ after))
    (starts : low = before.length) (ends : high = low + data.length) : range bytes low high = data := by
  rw [split, ends, starts, range_append]

/-- The signed 64-bit value of an integer. -/
def int64 (x : Int) : Int := x.bmod (2 ^ 64)

theorem int64_small {x : Int} (low : -2 ^ 63 ≤ x) (high : x < 2 ^ 63) : int64 x = x :=
  Int.bmod_eq_of_le (by omega) (by omega)

theorem int64_large {x : Int} (low : 2 ^ 63 ≤ x) (high : x < 2 ^ 64) : int64 x = x - 2 ^ 64 := by
  rw [int64, Int.bmod_def, Int.emod_eq_of_lt (by omega) (by omega), if_neg (by omega)]
  rfl

/-! ### Fixed-width fields -/

def bigEndian (bytes : List UInt8) : Nat := bytes.foldl (fun value byte => 256 * value + byte.toNat) 0

def littleEndian (bytes : List UInt8) : Nat := bytes.foldr (fun byte value => byte.toNat + 256 * value) 0

theorem bigEndian_append_singleton (bytes : List UInt8) (byte : UInt8) :
    bigEndian (bytes ++ [byte]) = 256 * bigEndian bytes + byte.toNat := by
  rw [bigEndian, List.foldl_append]
  rfl

theorem bigEndian_lt (bytes : List UInt8) : bigEndian bytes < 256 ^ bytes.length := by
  induction bytes using List.reverseRecOn with
  | nil => decide
  | append_singleton bytes byte ih =>
    have small := byte.toNat_lt
    rw [bigEndian_append_singleton, List.length_append, List.length_singleton, pow_succ]
    omega

/-- A number in `width` bytes, the most significant first. -/
def beBytes : Nat → Nat → List UInt8
  | 0, _ => []
  | width + 1, n => beBytes width (n / 256) ++ [UInt8.ofNat n]

@[simp] theorem length_beBytes (width n : Nat) : (beBytes width n).length = width := by
  induction width generalizing n with
  | zero => rfl
  | succ width ih => rw [beBytes, List.length_append, ih, List.length_singleton]

theorem bigEndian_beBytes_mod (width n : Nat) : bigEndian (beBytes width n) = n % 256 ^ width := by
  induction width generalizing n with
  | zero => rw [pow_zero, Nat.mod_one, beBytes, bigEndian, List.foldl_nil]
  | succ width ih =>
    have digit := Nat.mod_mul (a := 256) (b := 256 ^ width) (x := n)
    rw [← Nat.pow_succ'] at digit
    rw [beBytes, bigEndian_append_singleton, ih, UInt8.toNat_ofNat', digit]
    omega

theorem bigEndian_beBytes {width n : Nat} (fits : n < 256 ^ width) : bigEndian (beBytes width n) = n := by
  rw [bigEndian_beBytes_mod, Nat.mod_eq_of_lt fits]

/-- A field is its high part before its low part. -/
theorem beBytes_add (high low n : Nat) : beBytes (high + low) n = beBytes high (n / 256 ^ low) ++ beBytes low n := by
  induction low generalizing n with
  | zero => rw [pow_zero, Nat.div_one, Nat.add_zero, beBytes, List.append_nil]
  | succ low ih =>
    rw [← Nat.add_assoc, beBytes, beBytes, ih, Nat.div_div_eq_div_mul, ← Nat.pow_succ', List.append_assoc]

end GroupButler.Foundation
