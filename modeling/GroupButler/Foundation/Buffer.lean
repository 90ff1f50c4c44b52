import GroupButler.Foundation.Text

/-!
# Byte strings and JSON text

Node's `Buffer` between text and bytes (`utf8`, `base64url`), and JSON's strings. On ASCII text every
one of them reads back what it wrote.
-/

namespace GroupButler.Foundation

/-! ### Base64url -/

def sextetDigits : List Char := "ABCDEFGHIJKLMNOPQRSTUVWXYZabcdefghijklmnopqrstuvwxyz0123456789-_".toList

def sextetChar (sextet : Nat) : Char := sextetDigits.getD sextet 'A'

/-- Both alphabets are read. -/
def charSextet? (c : Char) : Option Nat :=
  if c = '+' then some 62 else if c = '/' then some 63 else sextetDigits.idxOf? c

def toSextets : List Nat → List Nat
  | a :: b :: c :: bytes => [a / 4, a % 4 * 16 + b / 16, b % 16 * 4 + c / 64, c % 64] ++ toSextets bytes
  | [a, b] => [a / 4, a % 4 * 16 + b / 16, b % 16 * 4]
  | [a] => [a / 4, a % 4 * 16]
  | [] => []

def ofSextets : List Nat → List Nat
  | w :: x :: y :: z :: sextets => [w * 4 + x / 16, x % 16 * 16 + y / 4, y % 4 * 64 + z] ++ ofSextets sextets
  | [w, x, y] => [w * 4 + x / 16, x % 16 * 16 + y / 4]
  | [w, x] => [w * 4 + x / 16]
  | _ => []

/-- `buffer.toString("base64url")` -/
def toBase64url (bytes : List Nat) : List Char := (toSextets bytes).map sextetChar

/-- `Buffer.from(text, "base64url")`, which passes over what is outside the alphabet. -/
def ofBase64url (cs : List Char) : List Nat := ofSextets (cs.filterMap charSextet?)

theorem ofSextets_toSextets {bytes : List Nat} (octets : ∀ byte ∈ bytes, byte < 256) :
    ofSextets (toSextets bytes) = bytes := by
  induction bytes using toSextets.induct with
  | case1 a b c bytes ih =>
    have hb := octets b (by simp)
    have hc := octets c (by simp)
    simp only [toSextets, List.cons_append, List.nil_append, ofSextets,
      ih fun byte member => octets byte (by simp [member]), List.cons.injEq, and_true]
    omega
  | case2 a b =>
    have hb := octets b (by simp)
    simp only [toSextets, ofSextets, List.cons.injEq, and_true]
    omega
  | case3 a =>
    simp only [toSextets, ofSextets, List.cons.injEq, and_true]
    omega
  | case4 => rfl

theorem toSextets_lt {bytes : List Nat} (octets : ∀ byte ∈ bytes, byte < 256) : ∀ sextet ∈ toSextets bytes, sextet < 64 := by
  induction bytes using toSextets.induct with
  | case1 a b c bytes ih =>
    have ha := octets a (by simp)
    have hb := octets b (by simp)
    have hc := octets c (by simp)
    have rest := ih fun byte member => octets byte (by simp [member])
    simp only [toSextets, List.cons_append, List.nil_append, List.forall_mem_cons]
    exact ⟨by omega, by omega, by omega, by omega, rest⟩
  | case2 a b =>
    have ha := octets a (by simp)
    have hb := octets b (by simp)
    simp only [toSextets, List.forall_mem_cons, List.not_mem_nil, false_implies, implies_true, and_true]
    omega
  | case3 a =>
    have ha := octets a (by simp)
    simp only [toSextets, List.forall_mem_cons, List.not_mem_nil, false_implies, implies_true, and_true]
    omega
  | case4 => simp [toSextets]

theorem charSextet?_sextetChar : ∀ sextet < 64, charSextet? (sextetChar sextet) = some sextet := by decide +kernel

theorem ofBase64url_toBase64url {bytes : List Nat} (octets : ∀ byte ∈ bytes, byte < 256) :
    ofBase64url (toBase64url bytes) = bytes := by
  have read : ∀ {sextets : List Nat}, (∀ sextet ∈ sextets, sextet < 64) →
      (sextets.map sextetChar).filterMap charSextet? = sextets := by
    intro sextets small
    induction sextets with
    | nil => rfl
    | cons sextet sextets ih =>
      rw [List.map_cons, List.filterMap_cons_some (charSextet?_sextetChar sextet (small sextet List.mem_cons_self)),
        ih fun s member => small s (List.mem_cons_of_mem _ member)]
  rw [ofBase64url, toBase64url, read (toSextets_lt octets), ofSextets_toSextets octets]

example : String.ofList (toBase64url [0xFB, 0xFF, 0x41]) = "-_9B" := by decide

/-! ### UTF-8 -/

/-- A character under way: how many bytes are owed, the range of the next one, the bits so far. -/
structure Pending where
  owed : Nat
  low : Nat
  high : Nat
  bits : Nat

inductive Lead where
  | char (c : Char)
  | opens (pending : Pending)
  | refused

def leadByte (byte : Nat) : Lead :=
  if byte < 0x80 then .char (Char.ofNat byte)
  else if 0xC2 ≤ byte ∧ byte ≤ 0xDF then .opens ⟨1, 0x80, 0xBF, byte - 0xC0⟩
  else if 0xE0 ≤ byte ∧ byte ≤ 0xEF then
    .opens ⟨2, if byte = 0xE0 then 0xA0 else 0x80, if byte = 0xED then 0x9F else 0xBF, byte - 0xE0⟩
  else if 0xF0 ≤ byte ∧ byte ≤ 0xF4 then
    .opens ⟨3, if byte = 0xF0 then 0x90 else 0x80, if byte = 0xF4 then 0x8F else 0xBF, byte - 0xF0⟩
  else .refused

/-- `buffer.toString("utf8")`: a sequence that breaks off becomes U+FFFD. -/
def ofUtf8 : Option Pending → List Nat → List Char
  | none, [] => []
  | some _, [] => ['\uFFFD']
  | pending, byte :: bytes =>
    let fresh := match leadByte byte with
      | .char c => c :: ofUtf8 none bytes
      | .opens pending => ofUtf8 (some pending) bytes
      | .refused => '\uFFFD' :: ofUtf8 none bytes
    match pending with
    | none => fresh
    | some pending =>
      if pending.low ≤ byte ∧ byte ≤ pending.high then
        let bits := pending.bits * 64 + (byte - 0x80)
        if pending.owed = 1 then Char.ofNat bits :: ofUtf8 none bytes
        else ofUtf8 (some ⟨pending.owed - 1, 0x80, 0xBF, bits⟩) bytes
      else '\uFFFD' :: fresh

/-- `Buffer.from(text, "utf8")` -/
def toUtf8 (cs : List Char) : List Nat := cs.flatMap utf8Bytes

example : String.ofList (ofUtf8 none (toUtf8 "aé€😀".toList ++ [0xE2, 0x41])) = "aé€😀\uFFFDA" := by decide

theorem toUtf8_ascii {cs : List Char} (ascii : ∀ c ∈ cs, c.toNat < 128) : toUtf8 cs = cs.map Char.toNat := by
  induction cs with
  | nil => rfl
  | cons c cs ih =>
    have byte : utf8Bytes c = [c.toNat] := if_pos (ascii c List.mem_cons_self)
    unfold toUtf8 at ih ⊢
    rw [List.flatMap_cons, byte, ih fun d member => ascii d (List.mem_cons_of_mem _ member)]
    rfl

theorem ofUtf8_ascii {cs : List Char} (ascii : ∀ c ∈ cs, c.toNat < 128) : ofUtf8 none (cs.map Char.toNat) = cs := by
  induction cs with
  | nil => rfl
  | cons c cs ih =>
    have lead : leadByte c.toNat = .char c := by
      rw [leadByte, if_pos (ascii c List.mem_cons_self), Char.ofNat_toNat]
    rw [List.map_cons, ofUtf8]
    simp only [lead]
    rw [ih fun d member => ascii d (List.mem_cons_of_mem _ member)]

theorem ofUtf8_toUtf8_ascii {cs : List Char} (ascii : ∀ c ∈ cs, c.toNat < 128) : ofUtf8 none (toUtf8 cs) = cs := by
  rw [toUtf8_ascii ascii, ofUtf8_ascii ascii]

/-! ### JSON strings -/

def hexDigit (n : Nat) : Char := Nat.digitChar n

def hexValue? (c : Char) : Option Nat :=
  if c.isDigit then some (c.toNat - 48)
  else if 'a' ≤ c ∧ c ≤ 'f' then some (c.toNat - 87)
  else if 'A' ≤ c ∧ c ≤ 'F' then some (c.toNat - 55)
  else none

def hexUnit? (a b c d : Char) : Option Nat := do
  return (((← hexValue? a) * 16 + (← hexValue? b)) * 16 + (← hexValue? c)) * 16 + (← hexValue? d)

/-- One character of a JSON string as `JSON.stringify` writes it. -/
def quoteChar (c : Char) : List Char :=
  if c = '"' then ['\\', '"']
  else if c = '\\' then ['\\', '\\']
  else if c.toNat = 0x08 then ['\\', 'b']
  else if c.toNat = 0x09 then ['\\', 't']
  else if c.toNat = 0x0A then ['\\', 'n']
  else if c.toNat = 0x0C then ['\\', 'f']
  else if c.toNat = 0x0D then ['\\', 'r']
  else if c.toNat < 0x20 then ['\\', 'u', '0', '0', hexDigit (c.toNat / 16), hexDigit (c.toNat % 16)]
  else [c]

def quote (cs : List Char) : List Char := '"' :: (cs.flatMap quoteChar ++ ['"'])

/-- The code unit behind a backslash and one character. -/
def escaped? (c : Char) : Option Nat :=
  if c = '"' ∨ c = '\\' ∨ c = '/' then some c.toNat
  else if c = 'b' then some 0x08
  else if c = 't' then some 0x09
  else if c = 'n' then some 0x0A
  else if c = 'f' then some 0x0C
  else if c = 'r' then some 0x0D
  else none

/-- The code units up to the closing quote, and what follows it. -/
def readUnits : List Char → Option (List Nat × List Char)
  | [] => none
  | c :: rest =>
    if c = '"' then some ([], rest)
    else if c = '\\' then
      match rest with
      | [] => none
      | e :: rest =>
        if e = 'u' then
          match rest with
          | a :: b :: c :: d :: rest =>
            (hexUnit? a b c d).bind fun unit => (readUnits rest).map fun (units, rest) => (unit :: units, rest)
          | _ => none
        else (escaped? e).bind fun unit => (readUnits rest).map fun (units, rest) => (unit :: units, rest)
    else if c.toNat < 0x20 then none
    else (readUnits rest).map fun (units, rest) => (utf16Units c ++ units, rest)

theorem readUnits_plain {c : Char} (quoted : c ≠ '"') (slash : c ≠ '\\') (printable : ¬ c.toNat < 0x20) (rest : List Char) :
    readUnits (c :: rest) = (readUnits rest).map fun (units, rest) => (utf16Units c ++ units, rest) := by
  rw [readUnits.eq_def]
  simp only [if_neg quoted, if_neg slash, if_neg printable]

theorem readUnits_escaped {e : Char} {unit : Nat} (known : escaped? e = some unit) (rest : List Char) :
    readUnits ('\\' :: e :: rest) = (readUnits rest).map fun (units, rest) => (unit :: units, rest) := by
  have notUnit : e ≠ 'u' := by
    rintro rfl
    cases known
  have slash : '\\' ≠ '"' := by decide
  rw [readUnits.eq_def]
  simp only [if_neg slash, if_true, if_neg notUnit, known, Option.bind_some]

theorem readUnits_unit {a b c d : Char} {unit : Nat} (known : hexUnit? a b c d = some unit) (rest : List Char) :
    readUnits ('\\' :: 'u' :: a :: b :: c :: d :: rest) = (readUnits rest).map fun (units, rest) => (unit :: units, rest) := by
  have slash : '\\' ≠ '"' := by decide
  rw [readUnits.eq_def]
  simp only [if_neg slash, if_true, known, Option.bind_some]

theorem hexUnit?_digits : ∀ n < 0x20, hexUnit? '0' '0' (hexDigit (n / 16)) (hexDigit (n % 16)) = some n := by decide +kernel

theorem readUnits_quoteChar (c : Char) (rest : List Char) : readUnits (quoteChar c ++ rest) =
    (readUnits rest).map fun (units, rest) => (utf16Units c ++ units, rest) := by
  have control {n : Nat} (code : c.toNat = n) (small : n < 0x20) : utf16Units c = [n] := by
    rw [utf16Units, if_pos (by omega), code]
  unfold quoteChar
  split_ifs with quoted slash backspace tab newline formFeed carriage small
  · subst quoted
    exact readUnits_escaped (show escaped? '"' = some 0x22 from rfl) rest
  · subst slash
    exact readUnits_escaped (show escaped? '\\' = some 0x5C from rfl) rest
  · rw [control backspace (by decide)]
    exact readUnits_escaped rfl rest
  · rw [control tab (by decide)]
    exact readUnits_escaped rfl rest
  · rw [control newline (by decide)]
    exact readUnits_escaped rfl rest
  · rw [control formFeed (by decide)]
    exact readUnits_escaped rfl rest
  · rw [control carriage (by decide)]
    exact readUnits_escaped rfl rest
  · rw [control rfl small]
    exact readUnits_unit (hexUnit?_digits c.toNat small) rest
  · exact readUnits_plain quoted slash small rest

theorem readUnits_quoted (cs rest : List Char) :
    readUnits (cs.flatMap quoteChar ++ '"' :: rest) = some (cs.flatMap utf16Units, rest) := by
  induction cs with
  | nil =>
    change readUnits ('"' :: rest) = some ([], rest)
    rw [readUnits.eq_def]
    simp only [if_true]
  | cons c cs ih => rw [List.flatMap_cons, List.append_assoc, readUnits_quoteChar, ih, List.flatMap_cons, Option.map_some]

theorem quoteChar_ascii {c : Char} (ascii : c.toNat < 128) : ∀ d ∈ quoteChar c, d.toNat < 128 := by
  have hex : ∀ n < 0x20, (hexDigit (n / 16)).toNat < 128 ∧ (hexDigit (n % 16)).toNat < 128 := by decide
  unfold quoteChar
  split_ifs with quoted slash backspace tab newline formFeed carriage small
  · exact forall_mem_of_all (by decide)
  · exact forall_mem_of_all (by decide)
  · exact forall_mem_of_all (by decide)
  · exact forall_mem_of_all (by decide)
  · exact forall_mem_of_all (by decide)
  · exact forall_mem_of_all (by decide)
  · exact forall_mem_of_all (by decide)
  · simpa using hex c.toNat small
  · simpa using ascii

/-- JSON's white space. -/
def isJsonSpace (c : Char) : Bool := c.toNat ∈ [0x20, 0x09, 0x0A, 0x0D]

/-- The next token is this character. -/
def expect (c : Char) (cs : List Char) : Option (List Char) :=
  match cs.dropWhile isJsonSpace with
  | d :: rest => if d = c then some rest else none
  | [] => none

def readString (cs : List Char) : Option (List Char × List Char) :=
  ((expect '"' cs).bind readUnits).map fun (units, rest) => (ofUtf16 units, rest)

theorem expect_cons {c : Char} (visible : isJsonSpace c = false) (rest : List Char) : expect c (c :: rest) = some rest := by
  rw [expect, List.dropWhile_cons_of_neg (by simp [visible])]
  simp

theorem readString_quote (cs rest : List Char) : readString (quote cs ++ rest) = some (cs, rest) := by
  have tail : quote cs ++ rest = '"' :: (cs.flatMap quoteChar ++ '"' :: rest) := by simp [quote]
  rw [readString, tail, expect_cons (by decide), Option.bind_some, readUnits_quoted]
  exact congrArg (fun text => some (text, rest)) (ofUtf16_units cs)

end GroupButler.Foundation
