import GroupButler.Foundation.Text

/-!
# Untrusted text

The boundary every untrusted string passes before it is shown or handed to a model.
-/

namespace GroupButler.Ai
open Foundation

/-- `String.prototype.normalize("NFC")`, which leaves ASCII alone. -/
class Normalization where
  nfc : String → String
  nfc_ascii : ∀ s, (∀ c ∈ s.toList, c.toNat < 128) → nfc s = s

/-- `CONTROL` -/
def isControl (c : Char) : Bool :=
  let n := c.toNat
  n ≤ 0x08 || n = 0x0B || n = 0x0C || (0x0E ≤ n && n ≤ 0x1F) || (0x7F ≤ n && n ≤ 0x9F)

/-- `FORBIDDEN_FORMAT` -/
def isForbiddenFormat (c : Char) : Bool :=
  let n := c.toNat
  n = 0xAD || n = 0x61C || n = 0x180E || (0x200B ≤ n && n ≤ 0x200F) || (0x202A ≤ n && n ≤ 0x202E) ||
    (0x2060 ≤ n && n ≤ 0x206F) || n = 0xFEFF

def normalizeUntrustedText [Normalization] (value : String) : String :=
  String.ofList ((Normalization.nfc value).toList.filter fun c => !isControl c && !isForbiddenFormat c)

structure Clipped where
  value : String
  truncated : Bool
  deriving DecidableEq, Repr

/-- Cut to `maximum` scalar values, of at most twice as many code units. -/
def clipScalars (value : String) (maximum : Nat) : Clipped :=
  if (utf16 value).length ≤ maximum then ⟨value, false⟩
  else ⟨String.ofList ((ofUtf16 ((utf16 value).take (maximum * 2))).take maximum), true⟩

theorem clipScalars_value (value : String) (maximum : Nat) :
    (clipScalars value maximum).value = String.ofList (value.toList.take maximum) := by
  unfold clipScalars
  split
  · rename_i short
    rw [List.take_of_length_le ((length_le_units value.toList).trans short), String.ofList_toList]
  · have front := @take_ofUtf16 value.toList maximum (maximum * 2) (by omega)
    exact congrArg String.ofList front

theorem clipScalars_truncated (value : String) (maximum : Nat) :
    (clipScalars value maximum).truncated = decide (maximum < (utf16 value).length) := by
  unfold clipScalars
  split
  · rename_i short
    exact (decide_eq_false (by omega)).symm
  · rename_i long
    exact (decide_eq_true (by omega)).symm

theorem clipScalars_whole {value : String} {maximum : Nat} :
    (clipScalars value maximum).value = value ↔ value.toList.length ≤ maximum := by
  rw [clipScalars_value]
  constructor
  · intro whole
    have same := congrArg String.toList whole
    rw [String.toList_ofList] at same
    rw [← same]
    exact List.length_take_le _ _
  · intro short
    rw [List.take_of_length_le short, String.ofList_toList]

/-- The cut is the first scalars of the text. It is reported as one just when there are more of them, but for a
text of few enough scalars in too many code units. -/
theorem clipScalars_iff (value : String) (maximum : Nat) :
    ((clipScalars value maximum).value.toList = value.toList.take (min maximum value.toList.length) ∧
      ((clipScalars value maximum).truncated = true ↔ maximum < value.toList.length)) ↔
      ((utf16 value).length ≤ maximum ∨ maximum < value.toList.length) := by
  have units : value.toList.length ≤ (utf16 value).length := length_le_units value.toList
  have first : (clipScalars value maximum).value.toList = value.toList.take (min maximum value.toList.length) := by
    rw [clipScalars_value, String.toList_ofList, List.take_eq_take_min]
  rw [clipScalars_truncated, decide_eq_true_iff]
  constructor
  · rintro ⟨-, cut⟩
    omega
  · intro exact_
    refine ⟨first, ?_⟩
    omega

/-- One face is one scalar and two code units. -/
theorem face_reported_cut : clipScalars "😀" 1 = ⟨"😀", true⟩ ∧ "😀".toList.length = 1 ∧
    ¬ ((clipScalars "😀" 1).value.toList = "😀".toList.take (min 1 "😀".toList.length) ∧
      ((clipScalars "😀" 1).truncated = true ↔ 1 < "😀".toList.length)) := by
  refine ⟨by decide, by decide, fun holds => ?_⟩
  exact absurd (holds.2.mp (by decide)) (by decide)

end GroupButler.Ai
