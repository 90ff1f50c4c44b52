import Mathlib.Data.List.Sort
import Mathlib.Data.List.Lex
import Mathlib.Order.Basic

/-!
# Strings as the two runtimes see them

JavaScript compares strings by UTF-16 code unit and trims its own white space; Go trims the Unicode
`White_Space` property. Both are stated over the characters of a `String`.
-/

namespace GroupButler.Foundation

/-- A check of the members alone: deciding the same bound by its type can go through every character. -/
theorem forall_mem_of_all {α : Type} {p : α → Prop} [DecidablePred p] {xs : List α}
    (all : (xs.all fun x => decide (p x)) = true) : ∀ x ∈ xs, p x :=
  fun x member => of_decide_eq_true (List.all_eq_true.mp all x member)

/-- The UTF-16 code units of one scalar value. -/
def utf16Units (c : Char) : List Nat :=
  if c.toNat < 0x10000 then [c.toNat]
  else [0xD800 + (c.toNat - 0x10000) / 0x400, 0xDC00 + (c.toNat - 0x10000) % 0x400]

def utf16 (s : String) : List Nat := s.toList.flatMap utf16Units

theorem char_not_surrogate (c : Char) : c.toNat < 0xD800 ∨ 0xDFFF < c.toNat ∧ c.toNat < 0x110000 :=
  c.valid

theorem char_eq_of_toNat {c d : Char} (h : c.toNat = d.toNat) : c = d :=
  Char.ext (UInt32.toNat_inj.mp h)

/-- One scalar value can be split off the front of a code unit sequence in one way only. -/
theorem utf16Units_append_inj {c d : Char} {xs ys : List Nat}
    (h : utf16Units c ++ xs = utf16Units d ++ ys) : c = d ∧ xs = ys := by
  have hc := char_not_surrogate c
  have hd := char_not_surrogate d
  unfold utf16Units at h
  split at h <;> split at h <;> simp only [List.cons_append, List.nil_append, List.cons.injEq] at h
  · exact ⟨char_eq_of_toNat h.1, h.2⟩
  · omega
  · omega
  · exact ⟨char_eq_of_toNat (by omega), h.2.2⟩

theorem flatMap_utf16Units_inj {cs ds : List Char}
    (h : cs.flatMap utf16Units = ds.flatMap utf16Units) : cs = ds := by
  have nonempty : ∀ c, utf16Units c ≠ [] := by
    intro c
    unfold utf16Units
    split <;> simp
  induction cs generalizing ds with
  | nil =>
    cases ds with
    | nil => rfl
    | cons d ds => simp [List.flatMap_cons, nonempty d] at h
  | cons c cs ih =>
    cases ds with
    | nil => simp [List.flatMap_cons, nonempty c] at h
    | cons d ds =>
      rw [List.flatMap_cons, List.flatMap_cons] at h
      obtain ⟨rfl, rest⟩ := utf16Units_append_inj h
      rw [ih rest]

theorem utf16_inj {s t : String} (h : utf16 s = utf16 t) : s = t :=
  String.toList_inj.mp (flatMap_utf16Units_inj h)

def isHighSurrogate (unit : Nat) : Bool := 0xD800 ≤ unit && unit < 0xDC00

def isLowSurrogate (unit : Nat) : Bool := 0xDC00 ≤ unit && unit < 0xE000

/-- A code unit on its own: half of a pair is stored as U+FFFD. -/
def unitChar (unit : Nat) : Char := if isHighSurrogate unit || isLowSurrogate unit then '\uFFFD' else Char.ofNat unit

/-- The text of a code unit sequence. -/
def ofUtf16 : List Nat → List Char
  | [] => []
  | [unit] => [unitChar unit]
  | unit :: low :: rest =>
    if isHighSurrogate unit && isLowSurrogate low then
      Char.ofNat (0x10000 + (unit - 0xD800) * 0x400 + (low - 0xDC00)) :: ofUtf16 rest
    else unitChar unit :: ofUtf16 (low :: rest)

theorem ofUtf16_unit {unit : Nat} (single : isHighSurrogate unit = false) (units : List Nat) :
    ofUtf16 (unit :: units) = unitChar unit :: ofUtf16 units := by
  cases units with
  | nil => rfl
  | cons low rest => rw [ofUtf16, single, Bool.false_and, if_neg Bool.false_ne_true]

theorem ofUtf16_eq_nil {units : List Nat} (none : ofUtf16 units = []) : units = [] := by
  match units with
  | [] => rfl
  | [unit] => cases none
  | unit :: low :: rest =>
    rw [ofUtf16] at none
    split at none <;> cases none

theorem ofUtf16_append_units (c : Char) (units : List Nat) : ofUtf16 (utf16Units c ++ units) = c :: ofUtf16 units := by
  have valid := char_not_surrogate c
  unfold utf16Units
  split
  · rename_i small
    have single : isHighSurrogate c.toNat = false ∧ isLowSurrogate c.toNat = false := by
      simp only [isHighSurrogate, isLowSurrogate, Bool.and_eq_false_iff, decide_eq_false_iff_not]
      omega
    rw [List.cons_append, List.nil_append, ofUtf16_unit single.1, unitChar, single.1, single.2, Bool.or_self,
      if_neg Bool.false_ne_true, Char.ofNat_toNat]
  · rename_i large
    have high : isHighSurrogate (0xD800 + (c.toNat - 0x10000) / 0x400) = true := by
      simp only [isHighSurrogate, Bool.and_eq_true, decide_eq_true_eq]
      omega
    have low : isLowSurrogate (0xDC00 + (c.toNat - 0x10000) % 0x400) = true := by
      simp only [isLowSurrogate, Bool.and_eq_true, decide_eq_true_eq]
      omega
    rw [List.cons_append, List.cons_append, List.nil_append, ofUtf16, high, low, Bool.and_self, if_pos rfl]
    have point : 0x10000 + (0xD800 + (c.toNat - 0x10000) / 0x400 - 0xD800) * 0x400 +
        (0xDC00 + (c.toNat - 0x10000) % 0x400 - 0xDC00) = c.toNat := by omega
    rw [point, Char.ofNat_toNat]

@[simp] theorem ofUtf16_units (cs : List Char) : ofUtf16 (cs.flatMap utf16Units) = cs := by
  induction cs with
  | nil => rfl
  | cons c cs ih => rw [List.flatMap_cons, ofUtf16_append_units, ih]

/-- The first `n` code units are whole characters, or end in half of a pair. -/
theorem take_utf16 (cs : List Char) (n : Nat) :
    ∃ k, ofUtf16 ((cs.flatMap utf16Units).take n) = cs.take k ∨
      ofUtf16 ((cs.flatMap utf16Units).take n) = cs.take k ++ ['\uFFFD'] := by
  induction cs generalizing n with
  | nil => exact ⟨0, Or.inl (by simp [ofUtf16])⟩
  | cons c cs ih =>
    rw [List.flatMap_cons, List.take_append]
    by_cases whole : (utf16Units c).length ≤ n
    · obtain ⟨k, rest⟩ := ih (n - (utf16Units c).length)
      rw [List.take_of_length_le whole, ofUtf16_append_units]
      refine ⟨k + 1, ?_⟩
      rcases rest with rest | rest
      · exact Or.inl (by rw [rest, List.take_succ_cons])
      · exact Or.inr (by rw [rest, List.take_succ_cons, List.cons_append])
    · have rest : n - (utf16Units c).length = 0 := by omega
      rw [rest, List.take_zero, List.append_nil]
      unfold utf16Units at whole ⊢
      split at whole
      · obtain rfl : n = 0 := by simpa using whole
        exact ⟨0, Or.inl (by simp [ofUtf16])⟩
      · rename_i large
        rw [if_neg large]
        have high : isHighSurrogate (0xD800 + (c.toNat - 0x10000) / 0x400) = true := by
          have valid := char_not_surrogate c
          simp only [isHighSurrogate, Bool.and_eq_true, decide_eq_true_eq]
          omega
        have few : n = 0 ∨ n = 1 := by
          simp only [List.length_cons, List.length_nil] at whole
          omega
        rcases few with rfl | rfl
        · exact ⟨0, Or.inl (by simp [ofUtf16])⟩
        · exact ⟨0, Or.inr (by simp [ofUtf16, unitChar, high])⟩

theorem length_utf16Units (c : Char) : 1 ≤ (utf16Units c).length ∧ (utf16Units c).length ≤ 2 := by
  unfold utf16Units
  split <;> simp

theorem length_le_units (cs : List Char) : cs.length ≤ (cs.flatMap utf16Units).length := by
  induction cs with
  | nil => exact Nat.le_refl _
  | cons c cs ih =>
    have one := length_utf16Units c
    rw [List.flatMap_cons, List.length_append, List.length_cons]
    omega

/-- Twice as many code units hold at least as many characters. -/
theorem take_ofUtf16 (cs : List Char) {n m : Nat} (room : 2 * n ≤ m) :
    (ofUtf16 ((cs.flatMap utf16Units).take m)).take n = cs.take n := by
  induction cs generalizing n m with
  | nil => simp [ofUtf16]
  | cons c cs ih =>
    cases n with
    | zero => rfl
    | succ n =>
      have one := length_utf16Units c
      have whole : (utf16Units c).length ≤ m := by omega
      rw [List.flatMap_cons, List.take_append, List.take_of_length_le whole, ofUtf16_append_units, List.take_succ_cons,
        List.take_succ_cons, ih (by omega)]

theorem mem_utf16Units {c : Char} {unit : Nat} (member : unit ∈ utf16Units c) : unit < 0x10000 := by
  have valid := char_not_surrogate c
  unfold utf16Units at member
  split at member <;> simp only [List.mem_cons, List.not_mem_nil, or_false] at member <;> omega

theorem length_unitChar {unit : Nat} (small : unit < 0x10000) : (utf16Units (unitChar unit)).length = 1 := by
  have low : (unitChar unit).toNat < 0x10000 := by
    unfold unitChar
    split
    · decide
    · unfold Char.ofNat
      by_cases valid : unit.isValidChar
      · rw [dif_pos valid]
        exact small
      · rw [dif_neg valid]
        decide
  rw [utf16Units, if_pos low]
  rfl

theorem length_units_ofUtf16 {units : List Nat} (small : ∀ unit ∈ units, unit < 0x10000) :
    ((ofUtf16 units).flatMap utf16Units).length ≤ units.length := by
  fun_induction ofUtf16 units with
  | case1 => exact Nat.le_refl _
  | case2 unit =>
    have one := length_unitChar (small unit List.mem_cons_self)
    simp [one]
  | case3 unit low rest pair ih =>
    have two := (length_utf16Units (Char.ofNat (0x10000 + (unit - 0xD800) * 0x400 + (low - 0xDC00)))).2
    have later := ih fun other member => small other (List.mem_cons_of_mem _ (List.mem_cons_of_mem _ member))
    rw [List.flatMap_cons, List.length_append, List.length_cons, List.length_cons]
    omega
  | case4 unit low rest single ih =>
    have one := length_unitChar (small unit List.mem_cons_self)
    have later := ih fun other member => small other (List.mem_cons_of_mem _ member)
    rw [List.flatMap_cons, List.length_append, one, List.length_cons]
    omega

/-- A text is whole in its first code units only where it has no more. -/
theorem ofUtf16_take_eq {cs : List Char} {n : Nat} :
    ofUtf16 ((cs.flatMap utf16Units).take n) = cs ↔ (cs.flatMap utf16Units).length ≤ n := by
  constructor
  · intro whole
    have units : ∀ unit ∈ (cs.flatMap utf16Units).take n, unit < 0x10000 := by
      intro unit member
      obtain ⟨c, -, inside⟩ := List.mem_flatMap.mp (List.mem_of_mem_take member)
      exact mem_utf16Units inside
    have bound := length_units_ofUtf16 units
    rw [whole] at bound
    exact bound.trans (List.length_take_le _ _)
  · intro short
    rw [List.take_of_length_le short, ofUtf16_units]

/-- The order of JavaScript's default `sort`. -/
def JsLe (s t : String) : Prop := utf16 s ≤ utf16 t

instance : DecidableRel JsLe := fun s t => inferInstanceAs (Decidable (utf16 s ≤ utf16 t))

instance : Std.Total JsLe := ⟨fun s t => le_total (utf16 s) (utf16 t)⟩

instance : IsTrans String JsLe := ⟨fun _ _ _ h₁ h₂ => le_trans (α := List Nat) h₁ h₂⟩

instance : Std.Antisymm JsLe := ⟨fun _ _ h₁ h₂ => utf16_inj (le_antisymm h₁ h₂)⟩

/-- `[...].sort()`. -/
def jsSort (xs : List String) : List String := xs.insertionSort JsLe

theorem jsSort_perm (xs : List String) : (jsSort xs).Perm xs := List.perm_insertionSort _ _

theorem mem_jsSort {x : String} {xs : List String} : x ∈ jsSort xs ↔ x ∈ xs := (jsSort_perm xs).mem_iff

theorem jsSort_sorted (xs : List String) : (jsSort xs).Pairwise JsLe := List.pairwise_insertionSort _ _

theorem jsSort_ext {xs ys : List String} (hx : xs.Nodup) (hy : ys.Nodup) (same : ∀ x, x ∈ xs ↔ x ∈ ys) :
    jsSort xs = jsSort ys := by
  have perm : (jsSort xs).Perm (jsSort ys) :=
    (jsSort_perm xs).trans (((List.perm_ext_iff_of_nodup hx hy).mpr same).trans (jsSort_perm ys).symm)
  exact perm.eq_of_pairwise' (jsSort_sorted xs) (jsSort_sorted ys)

theorem isUpper_iff {c : Char} : c.isUpper = true ↔ 0x41 ≤ c.toNat ∧ c.toNat ≤ 0x5A := by
  unfold Char.isUpper
  rw [decide_eq_true_iff]
  exact Iff.rfl

theorem isLower_iff {c : Char} : c.isLower = true ↔ 0x61 ≤ c.toNat ∧ c.toNat ≤ 0x7A := by
  unfold Char.isLower
  rw [Bool.and_eq_true, decide_eq_true_iff, decide_eq_true_iff]
  exact Iff.rfl

theorem isDigit_iff {c : Char} : c.isDigit = true ↔ 0x30 ≤ c.toNat ∧ c.toNat ≤ 0x39 := by
  unfold Char.isDigit
  rw [Bool.and_eq_true, decide_eq_true_iff, decide_eq_true_iff]
  exact Iff.rfl

theorem isAlpha_iff {c : Char} : c.isAlpha = true ↔ c.isUpper = true ∨ c.isLower = true := by
  unfold Char.isAlpha
  rw [Bool.or_eq_true]

theorem toLower_of_not_upper {c : Char} (plain : ¬ c.isUpper = true) : c.toLower = c := by
  unfold Char.toLower
  exact dif_neg fun range => plain (isUpper_iff.mpr range)

theorem toUpper_of_not_lower {c : Char} (plain : ¬ c.isLower = true) : c.toUpper = c := by
  unfold Char.toUpper
  exact dif_neg fun range => plain (isLower_iff.mpr range)

/-- ECMAScript `WhiteSpace` and `LineTerminator`, which `String.prototype.trim` removes. -/
def isJsSpace (c : Char) : Bool :=
  c.toNat ∈ [0x09, 0x0A, 0x0B, 0x0C, 0x0D, 0x20, 0xA0, 0x1680, 0x2028, 0x2029, 0x202F, 0x205F, 0x3000, 0xFEFF]
    || (0x2000 ≤ c.toNat && c.toNat ≤ 0x200A)

/-- Go's `unicode.IsSpace`, which `strings.TrimSpace` removes. -/
def isGoSpace (c : Char) : Bool :=
  c.toNat ∈ [0x09, 0x0A, 0x0B, 0x0C, 0x0D, 0x20, 0x85, 0xA0, 0x1680, 0x2028, 0x2029, 0x202F, 0x205F, 0x3000]
    || (0x2000 ≤ c.toNat && c.toNat ≤ 0x200A)

theorem blank_code {c : Char} (blank : isGoSpace c = true ∨ isJsSpace c = true) : c.toNat ≤ 0x20 ∨ 0x85 ≤ c.toNat := by
  rcases blank with blank | blank
  · simp [isGoSpace] at blank
    omega
  · simp [isJsSpace] at blank
    omega

/-- Drop the characters of a class from both ends. -/
def trimChars (space : Char → Bool) (s : String) : String :=
  String.ofList (((s.toList.dropWhile space).reverse.dropWhile space).reverse)

theorem dropWhile_of_head {α : Type} {p : α → Bool} {xs : List α} (kept : ∀ x ∈ xs.head?, p x = false) : xs.dropWhile p = xs := by
  cases xs with
  | nil => rfl
  | cons x xs => rw [List.dropWhile_cons_of_neg (by simp [kept x rfl])]

theorem head_dropWhile (space : Char → Bool) (cs : List Char) : ∀ c ∈ (cs.dropWhile space).head?, space c = false := by
  intro c first
  induction cs with
  | nil => cases first
  | cons d cs ih =>
    by_cases blank : space d = true
    · rw [List.dropWhile_cons_of_pos blank] at first
      exact ih first
    · rw [List.dropWhile_cons_of_neg blank] at first
      obtain rfl := Option.some.inj first
      simpa using blank

theorem trimChars_of_ends {space : Char → Bool} {s : String} (first : ∀ c ∈ s.toList.head?, space c = false)
    (last : ∀ c ∈ s.toList.getLast?, space c = false) : trimChars space s = s := by
  rw [trimChars, dropWhile_of_head first, dropWhile_of_head (by rwa [List.head?_reverse]), List.reverse_reverse,
    String.ofList_toList]

theorem getLast_trimChars (space : Char → Bool) (s : String) : ∀ c ∈ (trimChars space s).toList.getLast?, space c = false := by
  intro c last
  rw [trimChars, String.toList_ofList, List.getLast?_reverse] at last
  exact head_dropWhile space _ c last

theorem head_trimChars (space : Char → Bool) (s : String) : ∀ c ∈ (trimChars space s).toList.head?, space c = false := by
  intro c first
  have front : ((s.toList.dropWhile space).reverse.dropWhile space).reverse <+: s.toList.dropWhile space := by
    rw [← List.reverse_suffix, List.reverse_reverse]
    exact List.dropWhile_suffix _
  obtain ⟨rest, whole⟩ := front
  rw [trimChars, String.toList_ofList] at first
  apply head_dropWhile space s.toList c
  rw [← whole]
  exact List.mem_head?_append_of_mem_head? first

/-- Trimming takes both ends off. -/
theorem trimChars_split (space : Char → Bool) (s : String) : ∃ front back, s.toList = front ++ (trimChars space s).toList ++ back := by
  obtain ⟨back, ends⟩ := List.dropWhile_suffix (l := (s.toList.dropWhile space).reverse) space
  refine ⟨s.toList.takeWhile space, back.reverse, ?_⟩
  rw [trimChars, String.toList_ofList, List.append_assoc, ← List.reverse_append, ends, List.reverse_reverse,
    List.takeWhile_append_dropWhile]

theorem trimChars_trimChars (space : Char → Bool) (s : String) : trimChars space (trimChars space s) = trimChars space s :=
  trimChars_of_ends (head_trimChars space s) (getLast_trimChars space s)

/-- Trimming goes past a map that keeps the blanks blank. -/
theorem trimChars_map {space : Char → Bool} {f : Char → Char} (keep : ∀ c, space (f c) = space c) (s : String) :
    trimChars space (String.ofList (s.toList.map f)) = String.ofList ((trimChars space s).toList.map f) := by
  have same : space ∘ f = space := funext keep
  simp only [trimChars, String.toList_ofList, List.dropWhile_map, same, ← List.map_reverse]

def jsTrim (s : String) : String := trimChars isJsSpace s

def goTrimSpace (s : String) : String := trimChars isGoSpace s

/-- The UTF-8 bytes of one scalar value. -/
def utf8Bytes (c : Char) : List Nat :=
  let n := c.toNat
  if n < 0x80 then [n]
  else if n < 0x800 then [0xC0 + n / 0x40, 0x80 + n % 0x40]
  else if n < 0x10000 then [0xE0 + n / 0x1000, 0x80 + n / 0x40 % 0x40, 0x80 + n % 0x40]
  else [0xF0 + n / 0x40000, 0x80 + n / 0x1000 % 0x40, 0x80 + n / 0x40 % 0x40, 0x80 + n % 0x40]

/-- Letters, digits and the marks `encodeURIComponent` leaves alone. -/
def isUriUnreserved (c : Char) : Bool :=
  c.isAlphanum || c.toNat ∈ [0x21, 0x27, 0x28, 0x29, 0x2A, 0x2D, 0x2E, 0x5F, 0x7E]

def percentEncoded (byte : Nat) : List Char :=
  ['%', (Nat.digitChar (byte / 16)).toUpper, (Nat.digitChar (byte % 16)).toUpper]

def encodeURIComponent (s : String) : String :=
  String.ofList (s.toList.flatMap fun c => if isUriUnreserved c then [c] else (utf8Bytes c).flatMap percentEncoded)

example : jsTrim " a b\t" = "a b" := by decide

example : encodeURIComponent "a@b:é" = "a%40b%3A%C3%A9" := by decide

end GroupButler.Foundation
