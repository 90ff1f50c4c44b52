import GroupButler.Foundation.Points
import GroupButler.Tools.Answer

/-!
# Clipping, unit by unit

`clipScalars` and `clipJson` over code units, paired or not. A text that is cut keeps as many code points as
the budget leaves characters once the whole string is escaped.
-/

namespace GroupButler.Tools.Units
open Foundation

/-- The code points of a string, as the string iterator yields them. -/
def codePoints (value : List Nat) : List (List Nat) := points isHighSurrogate isLowSurrogate value

structure Clipped where
  value : List Nat
  truncated : Bool
  deriving DecidableEq, Repr

def clipScalars (value : List Nat) (maximum : Nat) : Clipped :=
  if value.length ≤ maximum then ⟨value, false⟩
  else ⟨((codePoints (value.take (maximum * 2))).take maximum).flatten, true⟩

/-- The four digits of an escaped code unit. -/
def hexUnit (unit : Nat) : List Nat :=
  [unit / 0x1000, unit / 0x100 % 16, unit / 16 % 16, unit % 16].map fun digit => (hexDigit digit).toNat

/-- One code point of a string as `JSON.stringify` writes it: half of a pair is escaped. -/
def quotePoint : List Nat → List Nat
  | [unit] =>
    if unit = 0x22 ∨ unit = 0x5C then [0x5C, unit]
    else if unit = 0x08 then [0x5C, 0x62]
    else if unit = 0x09 then [0x5C, 0x74]
    else if unit = 0x0A then [0x5C, 0x6E]
    else if unit = 0x0C then [0x5C, 0x66]
    else if unit = 0x0D then [0x5C, 0x72]
    else if unit < 0x20 ∨ isHighSurrogate unit = true ∨ isLowSurrogate unit = true then [0x5C, 0x75] ++ hexUnit unit
    else [unit]
  | point => point

def quote (value : List Nat) : List Nat := 0x22 :: ((codePoints value).flatMap quotePoint ++ [0x22])

example : quote [0x61, 0x0A, 0xD83D, 0xDE00, 0xD83D] =
    [0x22, 0x61, 0x5C, 0x6E, 0xD83D, 0xDE00, 0x5C, 0x75, 0x64, 0x38, 0x33, 0x64, 0x22] := by decide

def jsonChars (value : List Nat) : Nat := (quote value).length - 2

def clipJson (value : List Nat) (budget : Int) : Clipped :=
  clipScalars value (budget - ((jsonChars value : Int) - value.length)).toNat

/-! ### What escaping costs -/

/-- What escaping adds to these code points. -/
def escaping (cps : List (List Nat)) : Nat := (cps.map fun point => (quotePoint point).length - point.length).sum

/-- How many of these code points are pairs. -/
def pairs (cps : List (List Nat)) : Nat := cps.countP fun point => point.length == 2

theorem length_quotePoint {point : List Nat} (shape : point.length = 1 ∨ point.length = 2) :
    point.length ≤ (quotePoint point).length := by
  unfold quotePoint
  split
  · repeat' split
    all_goals simp [hexUnit]
  · exact Nat.le_refl _

theorem length_quoted {cps : List (List Nat)} (shape : ∀ point ∈ cps, point.length = 1 ∨ point.length = 2) :
    (cps.flatMap quotePoint).length = cps.flatten.length + escaping cps := by
  induction cps with
  | nil => rfl
  | cons point cps ih =>
    have rest := ih fun other member => shape other (List.mem_cons_of_mem _ member)
    have more := length_quotePoint (shape point List.mem_cons_self)
    rw [List.flatMap_cons, List.length_append, rest, List.flatten_cons, List.length_append, escaping, escaping, List.map_cons,
      List.sum_cons]
    omega

theorem length_flatten_pairs {cps : List (List Nat)} (shape : ∀ point ∈ cps, point.length = 1 ∨ point.length = 2) :
    cps.flatten.length = cps.length + pairs cps := by
  induction cps with
  | nil => rfl
  | cons point cps ih =>
    have rest := ih fun other member => shape other (List.mem_cons_of_mem _ member)
    rw [List.flatten_cons, List.length_append, rest, List.length_cons, pairs, pairs, List.countP_cons]
    rcases shape point List.mem_cons_self with one | two
    · rw [one, if_neg (by decide)]
      omega
    · rw [two, if_pos (by decide)]
      omega

theorem escaping_append (first second : List (List Nat)) : escaping (first ++ second) = escaping first + escaping second := by
  rw [escaping, List.map_append, List.sum_append]
  rfl

theorem jsonChars_eq (value : List Nat) : jsonChars value = value.length + escaping (codePoints value) := by
  have quoted := @length_quoted (codePoints value) fun _ => length_point
  rw [codePoints, flatten_points] at quoted
  rw [jsonChars, quote, List.length_cons, List.length_append, List.length_singleton, codePoints, quoted]
  omega

/-! ### Cutting -/

/-- The characters that the budget leaves once the whole string is escaped. -/
def room (value : List Nat) (budget : Int) : Nat := (budget - (escaping (codePoints value) : Int)).toNat

theorem clipJson_eq (value : List Nat) (budget : Int) : clipJson value budget = clipScalars value (room value budget) := by
  have same : budget - ((jsonChars value : Int) - value.length) = budget - (escaping (codePoints value) : Int) := by
    rw [jsonChars_eq]
    omega
  rw [clipJson, same, room]

theorem clipScalars_value (value : List Nat) (maximum : Nat) :
    (clipScalars value maximum).value = ((codePoints value).take maximum).flatten := by
  unfold clipScalars
  split
  · rename_i short
    have few : (codePoints value).length ≤ maximum := by
      have whole := @length_flatten_pairs (codePoints value) fun _ => length_point
      rw [codePoints, flatten_points] at whole
      rw [codePoints]
      omega
    rw [List.take_of_length_le few, codePoints, flatten_points]
  · exact congrArg List.flatten (take_points value (by omega))

theorem clipScalars_truncated (value : List Nat) (maximum : Nat) :
    (clipScalars value maximum).truncated = decide (maximum < value.length) := by
  unfold clipScalars
  split
  · rename_i short
    exact (decide_eq_false (by omega)).symm
  · rename_i long
    exact (decide_eq_true (by omega)).symm

/-- What a prefix of whole code points spends. -/
theorem jsonChars_take (value : List Nat) (n : Nat) :
    jsonChars ((codePoints value).take n).flatten =
      ((codePoints value).take n).length + pairs ((codePoints value).take n) + escaping ((codePoints value).take n) := by
  have shape : ∀ point ∈ (codePoints value).take n, point.length = 1 ∨ point.length = 2 := fun _ member =>
    length_point (List.mem_of_mem_take member)
  rw [jsonChars_eq, length_flatten_pairs shape]
  exact congrArg (_ + escaping ·) (points_take value n)

theorem flatten_take_shorter (value : List Nat) (n : Nat) :
    ((codePoints value).take n).flatten.length < value.length ↔ n < (codePoints value).length := by
  have shape : ∀ point ∈ (codePoints value).drop n, point.length = 1 ∨ point.length = 2 := fun _ member =>
    length_point (List.mem_of_mem_drop member)
  have left := length_flatten_pairs shape
  have whole := congrArg List.length (@flatten_points _ isHighSurrogate isLowSurrogate value)
  change (codePoints value).flatten.length = value.length at whole
  rw [← List.take_append_drop n (codePoints value), List.flatten_append, List.length_append, left, List.length_drop] at whole
  have none : (codePoints value).length ≤ n → pairs ((codePoints value).drop n) = 0 := fun all => by
    rw [List.drop_eq_nil_of_le all]
    rfl
  omega

/-- The cut is a prefix that fits the budget, reported as cut just when it is one, exactly for a string no longer
than the room, and for a string with more code points than the room whose rest costs as much to escape as the
kept code points have pairs. -/
theorem clipJson_iff (value : List Nat) (budget : Int) :
    ((clipJson value budget).value <+: value ∧ (jsonChars (clipJson value budget).value : Int) ≤ max budget 0 ∧
      ((clipJson value budget).truncated = true ↔ (clipJson value budget).value.length < value.length)) ↔
      value.length ≤ room value budget ∨
        room value budget < (codePoints value).length ∧
          pairs ((codePoints value).take (room value budget)) ≤ escaping ((codePoints value).drop (room value budget)) := by
  have split := escaping_append ((codePoints value).take (room value budget)) ((codePoints value).drop (room value budget))
  rw [List.take_append_drop] at split
  have whole : room value budget = (budget - (escaping (codePoints value) : Int)).toNat := rfl
  rw [clipJson_eq, clipScalars_value, clipScalars_truncated, decide_eq_true_iff, flatten_take_shorter, jsonChars_take]
  generalize room value budget = n at split whole ⊢
  have front : ((codePoints value).take n).flatten <+: value := by
    refine ⟨((codePoints value).drop n).flatten, ?_⟩
    rw [← List.flatten_append, List.take_append_drop, codePoints, flatten_points]
  have units := @length_flatten_pairs (codePoints value) fun _ => length_point
  rw [codePoints, flatten_points, ← codePoints] at units
  have kept := List.length_take (i := n) (l := codePoints value)
  have nothing : n = 0 → pairs ((codePoints value).take n) = 0 ∧ escaping ((codePoints value).take n) = 0 := by
    rintro rfl
    exact ⟨rfl, rfl⟩
  have everything : (codePoints value).length ≤ n → escaping ((codePoints value).drop n) = 0 ∧
      pairs ((codePoints value).take n) = pairs (codePoints value) := fun all => by
    rw [List.drop_eq_nil_of_le all, List.take_of_length_le all]
    exact ⟨rfl, rfl⟩
  constructor
  · rintro ⟨-, fits, cut⟩
    omega
  · intro fits
    refine ⟨front, ?_, ?_⟩
    · omega
    · omega

/-- One face spends two characters of a budget of one, and is reported as cut. -/
theorem face_over_budget : let face := [0xD83D, 0xDE00]
    clipJson face 1 = ⟨face, true⟩ ∧ jsonChars face = 2 ∧
      ¬ ((clipJson face 1).value <+: face ∧ (jsonChars (clipJson face 1).value : Int) ≤ max 1 0 ∧
        ((clipJson face 1).truncated = true ↔ (clipJson face 1).value.length < face.length)) := by
  refine ⟨by decide, by decide, fun holds => ?_⟩
  exact absurd holds.2.1 (by decide)

/-! ### Well-formed strings -/

theorem codePoints_units (c : Char) (rest : List Nat) : codePoints (utf16Units c ++ rest) = utf16Units c :: codePoints rest := by
  have valid := char_not_surrogate c
  unfold utf16Units
  split
  · rename_i small
    have single : isHighSurrogate c.toNat = false := by
      simp only [isHighSurrogate, Bool.and_eq_false_iff, decide_eq_false_iff_not]
      omega
    cases rest with
    | nil => rfl
    | cons next rest => exact points_single (by simp [single]) rest
  · rename_i large
    have pair : (isHighSurrogate (0xD800 + (c.toNat - 0x10000) / 0x400) &&
        isLowSurrogate (0xDC00 + (c.toNat - 0x10000) % 0x400)) = true := by
      simp only [isHighSurrogate, isLowSurrogate, Bool.and_eq_true, decide_eq_true_eq]
      omega
    exact points_pair pair rest

theorem codePoints_utf16 (cs : List Char) : codePoints (cs.flatMap utf16Units) = cs.map utf16Units := by
  induction cs with
  | nil => rfl
  | cons c cs ih => rw [List.flatMap_cons, codePoints_units, ih, List.map_cons]

theorem quotePoint_control : ∀ n < 0x20, quotePoint [n] = (quoteChar (Char.ofNat n)).flatMap utf16Units := by decide

theorem quoteChar_plain {c : Char} (quotation : c ≠ '"') (backslash : c ≠ '\\') (visible : 0x20 ≤ c.toNat) : quoteChar c = [c] := by
  rw [quoteChar, if_neg quotation, if_neg backslash, if_neg (by omega), if_neg (by omega), if_neg (by omega), if_neg (by omega),
    if_neg (by omega), if_neg (by omega)]

theorem quotePoint_units (c : Char) : quotePoint (utf16Units c) = (quoteChar c).flatMap utf16Units := by
  have valid := char_not_surrogate c
  by_cases quotation : c = '"'
  · subst quotation
    decide
  by_cases backslash : c = '\\'
  · subst backslash
    decide
  by_cases control : c.toNat < 0x20
  · have small : utf16Units c = [c.toNat] := if_pos (by omega)
    have same := quotePoint_control c.toNat control
    rw [Char.ofNat_toNat] at same
    rw [small, same]
  · rw [quoteChar_plain quotation backslash (by omega), List.flatMap_singleton]
    unfold utf16Units
    split
    · have single : isHighSurrogate c.toNat = false ∧ isLowSurrogate c.toNat = false := by
        simp only [isHighSurrogate, isLowSurrogate, Bool.and_eq_false_iff, decide_eq_false_iff_not]
        omega
      have other : ¬ (c.toNat = 0x22 ∨ c.toNat = 0x5C) := by
        rintro (code | code)
        · exact quotation (char_eq_of_toNat code)
        · exact backslash (char_eq_of_toNat code)
      rw [quotePoint, if_neg other, if_neg (by omega), if_neg (by omega), if_neg (by omega), if_neg (by omega), if_neg (by omega),
        if_neg (by simp [single]; omega)]
    · rfl

theorem quote_utf16 (value : String) : quote (utf16 value) = (Foundation.quote value.toList).flatMap utf16Units := by
  have marks : utf16Units '"' = [0x22] := by decide
  rw [quote, utf16, codePoints_utf16, Foundation.quote, List.flatMap_cons, List.flatMap_append, List.flatMap_singleton, marks,
    List.flatMap_map, List.flatMap_assoc, funext quotePoint_units]
  rfl

theorem jsonChars_utf16 (value : String) : jsonChars (utf16 value) = Tools.jsonChars value := by
  rw [jsonChars, quote_utf16, Tools.jsonChars]

theorem clipScalars_utf16 (value : String) (maximum : Nat) : clipScalars (utf16 value) maximum =
    ⟨utf16 (Ai.clipScalars value maximum).value, (Ai.clipScalars value maximum).truncated⟩ := by
  have text := clipScalars_value (utf16 value) maximum
  have flag := clipScalars_truncated (utf16 value) maximum
  rw [utf16, codePoints_utf16, ← List.map_take, ← List.flatMap_def] at text
  rw [Ai.clipScalars_value, Ai.clipScalars_truncated, ← flag, utf16, utf16, String.toList_ofList, ← text]

/-- On a well-formed string the units cut are those of the characters cut. -/
theorem clipJson_utf16 (value : String) (budget : Int) : clipJson (utf16 value) budget =
    ⟨utf16 (Tools.clipJson value budget).value, (Tools.clipJson value budget).truncated⟩ := by
  rw [clipJson, jsonChars_utf16, clipScalars_utf16, Tools.clipJson]

end GroupButler.Tools.Units
