import GroupButler.Ai.Scan

/-!
# Untrusted text of any code units

A JavaScript string need not be well formed. Normalisation leaves a surrogate without its partner where it is,
and joins nothing with it.
-/

namespace GroupButler.Ai
open Foundation

inductive CodePoint where
  | scalar (c : Char)
  | surrogate (unit : Nat)
  deriving DecidableEq, Repr

def codePoint (unit : Nat) : CodePoint :=
  if isHighSurrogate unit || isLowSurrogate unit then .surrogate unit else .scalar (Char.ofNat unit)

/-- The code points of a code unit sequence. -/
def codePoints : List Nat → List CodePoint
  | [] => []
  | [unit] => [codePoint unit]
  | unit :: low :: rest =>
    if isHighSurrogate unit && isLowSurrogate low then
      .scalar (Char.ofNat (0x10000 + (unit - 0xD800) * 0x400 + (low - 0xDC00))) :: codePoints rest
    else codePoint unit :: codePoints (low :: rest)

/-- No surrogate is without its partner. -/
def WellFormed (units : List Nat) : Prop := ∀ point ∈ codePoints units, ∃ c, point = .scalar c

/-- `normalize("NFC")` of the characters between surrogates, `run` being those read since the last one. -/
def nfcPoints [Normalization] (run : List Char) : List CodePoint → List CodePoint
  | [] => (Normalization.nfc (String.ofList run)).toList.map .scalar
  | .scalar c :: rest => nfcPoints (run ++ [c]) rest
  | .surrogate unit :: rest => (Normalization.nfc (String.ofList run)).toList.map .scalar ++ .surrogate unit :: nfcPoints [] rest

/-- What the three replacements leave of a code point. -/
def keptPoint : CodePoint → Option Char
  | .scalar c => if isControl c || isForbiddenFormat c then none else some c
  | .surrogate _ => none

/-- `normalizeUntrustedText` of any string. -/
def normalizeUntrustedUnits [Normalization] (units : List Nat) : String :=
  String.ofList ((nfcPoints [] (codePoints units)).filterMap keptPoint)

/-- `sanitizeWhatsAppOutput` of any string. -/
def sanitizeWhatsAppUnits [Normalization] (units : List Nat) (sourceLinks : List (List Char)) : Except WhatsAppOutputCode String :=
  checkBody sourceLinks (trimmedBody (normalizeUntrustedUnits units))

/-! ### Well-formed text -/

theorem codePoints_unit {unit : Nat} (single : isHighSurrogate unit = false) (units : List Nat) :
    codePoints (unit :: units) = codePoint unit :: codePoints units := by
  cases units with
  | nil => rfl
  | cons low rest => rw [codePoints, single, Bool.false_and, if_neg Bool.false_ne_true]

theorem codePoints_append_units (c : Char) (units : List Nat) :
    codePoints (utf16Units c ++ units) = .scalar c :: codePoints units := by
  have valid := char_not_surrogate c
  unfold utf16Units
  split
  · have single : isHighSurrogate c.toNat = false ∧ isLowSurrogate c.toNat = false := by
      simp only [isHighSurrogate, isLowSurrogate, Bool.and_eq_false_iff, decide_eq_false_iff_not]
      omega
    rw [List.cons_append, List.nil_append, codePoints_unit single.1, codePoint, single.1, single.2, Bool.or_self,
      if_neg Bool.false_ne_true, Char.ofNat_toNat]
  · have high : isHighSurrogate (0xD800 + (c.toNat - 0x10000) / 0x400) = true := by
      simp only [isHighSurrogate, Bool.and_eq_true, decide_eq_true_eq]
      omega
    have low : isLowSurrogate (0xDC00 + (c.toNat - 0x10000) % 0x400) = true := by
      simp only [isLowSurrogate, Bool.and_eq_true, decide_eq_true_eq]
      omega
    have point : 0x10000 + (0xD800 + (c.toNat - 0x10000) / 0x400 - 0xD800) * 0x400 +
        (0xDC00 + (c.toNat - 0x10000) % 0x400 - 0xDC00) = c.toNat := by omega
    rw [List.cons_append, List.cons_append, List.nil_append, codePoints, high, low, Bool.and_self, if_pos rfl, point,
      Char.ofNat_toNat]

theorem codePoints_utf16 (s : String) : codePoints (utf16 s) = s.toList.map .scalar := by
  unfold utf16
  induction s.toList with
  | nil => rfl
  | cons c cs ih => rw [List.flatMap_cons, codePoints_append_units, ih, List.map_cons]

theorem wellFormed_utf16 (s : String) : WellFormed (utf16 s) := by
  intro point member
  rw [codePoints_utf16] at member
  obtain ⟨c, -, rfl⟩ := List.mem_map.mp member
  exact ⟨c, rfl⟩

theorem kept_scalars (cs : List Char) :
    (cs.map CodePoint.scalar).filterMap keptPoint = cs.filter fun c => !isControl c && !isForbiddenFormat c := by
  induction cs with
  | nil => rfl
  | cons c cs ih =>
    rw [List.map_cons, List.filterMap_cons, ih, List.filter_cons, keptPoint]
    cases isControl c <;> cases isForbiddenFormat c <;> rfl

section
variable [Normalization]

theorem nfcPoints_scalars (run cs : List Char) :
    nfcPoints run (cs.map .scalar) = (Normalization.nfc (String.ofList (run ++ cs))).toList.map .scalar := by
  induction cs generalizing run with
  | nil => rw [List.map_nil, nfcPoints, List.append_nil]
  | cons c cs ih => rw [List.map_cons, nfcPoints, ih, List.append_assoc, List.singleton_append]

/-- On well-formed text this is the boundary itself. -/
theorem normalizeUntrustedUnits_utf16 (value : String) : normalizeUntrustedUnits (utf16 value) = normalizeUntrustedText value := by
  rw [normalizeUntrustedUnits, codePoints_utf16, nfcPoints_scalars, List.nil_append, String.ofList_toList, kept_scalars,
    normalizeUntrustedText]

theorem sanitizeWhatsAppUnits_utf16 (value : String) (sourceLinks : List (List Char)) :
    sanitizeWhatsAppUnits (utf16 value) sourceLinks = sanitizeWhatsAppOutput value sourceLinks := by
  rw [sanitizeWhatsAppUnits, normalizeUntrustedUnits_utf16, sanitize_eq]

end

/-! ### One composition -/

/-- An e with an acute accent on it is one character. -/
def composeAcute : List Char → List Char
  | [] => []
  | [c] => [c]
  | c :: d :: rest => if c = 'e' ∧ d = '\u0301' then 'é' :: composeAcute rest else c :: composeAcute (d :: rest)

theorem composeAcute_ascii {cs : List Char} (ascii : ∀ c ∈ cs, c.toNat < 128) : composeAcute cs = cs := by
  fun_induction composeAcute cs with
  | case1 => rfl
  | case2 => rfl
  | case3 c d rest accent ih =>
    have mark := ascii d (by simp)
    rw [accent.2] at mark
    exact absurd mark (by decide)
  | case4 c d rest plain ih => rw [ih fun x member => ascii x (List.mem_cons_of_mem _ member)]

@[reducible] def acuteNormalization : Normalization where
  nfc s := String.ofList (composeAcute s.toList)
  nfc_ascii s ascii := by rw [composeAcute_ascii ascii, String.ofList_toList]

end GroupButler.Ai
