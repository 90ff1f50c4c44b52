import GroupButler.Foundation.IsoDate
import GroupButler.Foundation.Utf8
import GroupButler.Owner.Throttle

/-!
# Stored passwords

The text a password hash is stored as, the one call of scrypt behind a verification, and what a login costs.
-/

namespace GroupButler.Owner
open Foundation

/-! ### Hexadecimal -/

/-- `buffer.toString("hex")` -/
def toHex (bytes : List Nat) : List Char := bytes.flatMap fun byte => [hexDigit (byte / 16), hexDigit (byte % 16)]

/-- `Buffer.from(text, "hex")` -/
def ofHex : List Char → List Nat
  | a :: b :: rest =>
    match hexValue? a, hexValue? b with
    | some x, some y => (x * 16 + y) :: ofHex rest
    | _, _ => []
  | _ => []

def isLowerHex (cs : List Char) : Bool := !cs.isEmpty && cs.all fun c => c.isDigit || ('a' ≤ c && c ≤ 'f')

def isDecimal (cs : List Char) : Bool := !cs.isEmpty && cs.all Char.isDigit

/-! ### The stored text -/

structure ScryptCall where
  password : List Char
  salt : List Nat
  keyLength : Nat
  n : Nat
  r : Nat
  p : Nat
  deriving DecidableEq, Repr

/-- `scryptSync`; `none` for parameters the runtime refuses. -/
class Scrypt where
  scryptSync : ScryptCall → Option (List Nat)

structure StoredHash where
  n : Nat
  r : Nat
  p : Nat
  salt : List Nat
  expected : List Nat
  deriving DecidableEq, Repr

def minN : Nat := 2
def maxN : Nat := 32768
def maxR : Nat := 16
def maxP : Nat := 8
def minSaltBytes : Nat := 8
def maxSaltBytes : Nat := 64
def minKeyBytes : Nat := 16
def maxKeyBytes : Nat := 64

/-- `verifyPassword` up to its call of scrypt. -/
def readStored (stored : List Char) : Option StoredHash :=
  match stored.splitOn '$' with
  | [name, nRaw, rRaw, pRaw, saltHex, hashHex] =>
    if name ≠ "scrypt".toList then none
    else if !isDecimal nRaw || !isDecimal rRaw || !isDecimal pRaw then none
    else if !isLowerHex saltHex || !isLowerHex hashHex then none
    else if saltHex.length % 2 ≠ 0 ∨ hashHex.length % 2 ≠ 0 then none
    else
      let n := Nat.ofDigitChars 10 nRaw 0
      let r := Nat.ofDigitChars 10 rRaw 0
      let p := Nat.ofDigitChars 10 pRaw 0
      if n < minN ∨ maxN < n ∨ n &&& (n - 1) ≠ 0 then none
      else if r < 1 ∨ maxR < r ∨ p < 1 ∨ maxP < p then none
      else
        let salt := ofHex saltHex
        let expected := ofHex hashHex
        if salt.length < minSaltBytes ∨ maxSaltBytes < salt.length then none
        else if expected.length < minKeyBytes ∨ maxKeyBytes < expected.length then none
        else some ⟨n, r, p, salt, expected⟩
  | _ => none

def StoredHash.call (h : StoredHash) (password : List Char) : ScryptCall := ⟨password, h.salt, h.expected.length, h.n, h.r, h.p⟩

/-- Whether the password is the stored one, and the calls of scrypt it took to say so. -/
def verifyPassword [Scrypt] (password stored : List Char) : Bool × List ScryptCall :=
  match readStored stored with
  | none => (false, [])
  | some h =>
    match Scrypt.scryptSync (h.call password) with
    | none => (false, [h.call password])
    | some derived => (derived == h.expected, [h.call password])

/-- `scrypt$N$r$p$salt$hash` -/
def hashPassword [Scrypt] (salt : List Nat) (password : List Char) : Option (List Char) :=
  (Scrypt.scryptSync ⟨password, salt, 32, 16384, 8, 1⟩).map fun derived =>
    ['$'].intercalate ["scrypt".toList, Nat.toDigits 10 16384, Nat.toDigits 10 8, Nat.toDigits 10 1, toHex salt, toHex derived]

/-! ### Hexadecimal texts read back -/

theorem hexValue?_hexDigit : ∀ n < 16, hexValue? (hexDigit n) = some n := by decide +kernel

theorem ofHex_toHex {bytes : List Nat} (octets : ∀ byte ∈ bytes, byte < 256) : ofHex (toHex bytes) = bytes := by
  induction bytes with
  | nil => rfl
  | cons byte bytes ih =>
    have small := octets byte List.mem_cons_self
    have step : toHex (byte :: bytes) = hexDigit (byte / 16) :: hexDigit (byte % 16) :: toHex bytes := rfl
    have whole : byte / 16 * 16 + byte % 16 = byte := by omega
    rw [step, ofHex, hexValue?_hexDigit _ (by omega), hexValue?_hexDigit _ (by omega)]
    dsimp only
    rw [whole, ih fun other member => octets other (List.mem_cons_of_mem _ member)]

theorem length_toHex (bytes : List Nat) : (toHex bytes).length = 2 * bytes.length := by
  induction bytes with
  | nil => rfl
  | cons byte bytes ih =>
    have step : toHex (byte :: bytes) = hexDigit (byte / 16) :: hexDigit (byte % 16) :: toHex bytes := rfl
    rw [step, List.length_cons, List.length_cons, ih, List.length_cons]
    omega

/-- A lower-case digit is the digit of its value. -/
theorem hexDigit_value {c : Char} (lower : (c.isDigit || ('a' ≤ c && c ≤ 'f')) = true) :
    ∃ value, hexValue? c = some value ∧ value < 16 ∧ hexDigit value = c := by
  have range : (48 ≤ c.toNat ∧ c.toNat ≤ 57) ∨ (97 ≤ c.toNat ∧ c.toNat ≤ 102) := by
    rw [Bool.or_eq_true, isDigit_iff, Bool.and_eq_true, decide_eq_true_eq, decide_eq_true_eq] at lower
    exact lower
  have all : ∀ code < 103, (48 ≤ code ∧ code ≤ 57) ∨ (97 ≤ code ∧ code ≤ 102) →
      ∃ value < 16, hexValue? (Char.ofNat code) = some value ∧ hexDigit value = Char.ofNat code := by
    decide +kernel
  obtain ⟨value, small, read, digit⟩ := all c.toNat (by omega) range
  rw [Char.ofNat_toNat] at read digit
  exact ⟨value, read, small, digit⟩

theorem toHex_ofHex {cs : List Char} (lower : ∀ c ∈ cs, (c.isDigit || ('a' ≤ c && c ≤ 'f')) = true) (even : cs.length % 2 = 0) :
    toHex (ofHex cs) = cs ∧ ∀ byte ∈ ofHex cs, byte < 256 := by
  induction cs using ofHex.induct with
  | case1 a b rest x y second first ih =>
    obtain ⟨u, readA, smallA, digitA⟩ := hexDigit_value (lower a List.mem_cons_self)
    obtain ⟨v, readB, smallB, digitB⟩ := hexDigit_value (lower b (List.mem_cons_of_mem _ List.mem_cons_self))
    obtain rfl := Option.some.inj (first.symm.trans readA)
    obtain rfl := Option.some.inj (second.symm.trans readB)
    rw [List.length_cons, List.length_cons] at even
    obtain ⟨tail, octets⟩ := ih (fun c member => lower c (List.mem_cons_of_mem _ (List.mem_cons_of_mem _ member))) (by omega)
    have step : toHex ((x * 16 + y) :: ofHex rest) = hexDigit ((x * 16 + y) / 16) :: hexDigit ((x * 16 + y) % 16) :: toHex (ofHex rest) := rfl
    have high : (x * 16 + y) / 16 = x := by omega
    have low : (x * 16 + y) % 16 = y := by omega
    rw [ofHex, first, second]
    dsimp only
    rw [step, high, low, digitA, digitB, tail]
    refine ⟨rfl, fun byte member => ?_⟩
    rcases List.mem_cons.mp member with rfl | later
    · omega
    · exact octets byte later
  | case2 a b rest none_ =>
    obtain ⟨u, readA, -, -⟩ := hexDigit_value (lower a List.mem_cons_self)
    obtain ⟨v, readB, -, -⟩ := hexDigit_value (lower b (List.mem_cons_of_mem _ List.mem_cons_self))
    exact (none_ u v readA readB).elim
  | case3 cs short =>
    match cs, short, even with
    | [], _, _ => exact ⟨rfl, fun byte none => absurd none List.not_mem_nil⟩
    | [_], _, even => cases even
    | a :: b :: rest, short, _ => exact absurd rfl (short a b rest)

/-! ### What is accepted -/

/-- The bounds on what is stored. -/
structure StoredHash.Sound (h : StoredHash) : Prop where
  power : ∃ k, 1 ≤ k ∧ k ≤ 15 ∧ h.n = 2 ^ k
  blocks : 1 ≤ h.r ∧ h.r ≤ 16
  lanes : 1 ≤ h.p ∧ h.p ≤ 8
  salted : 8 ≤ h.salt.length ∧ h.salt.length ≤ 64
  keyed : 16 ≤ h.expected.length ∧ h.expected.length ≤ 64
  saltOctets : ∀ byte ∈ h.salt, byte < 256
  keyOctets : ∀ byte ∈ h.expected, byte < 256

/-- Decimal digits of a number, zeros before them or not. -/
def Spells (cs : List Char) (n : Nat) : Prop := isDecimal cs = true ∧ Nat.ofDigitChars 10 cs 0 = n

theorem spells_toDigits (n : Nat) : Spells (Nat.toDigits 10 n) n := by
  refine ⟨?_, Nat.ofDigitChars_ten_toDigits⟩
  rw [isDecimal, Bool.and_eq_true, Bool.not_eq_true', List.isEmpty_eq_false_iff, List.all_eq_true]
  exact ⟨Nat.toDigits_ne_nil, fun c member => Nat.isDigit_of_mem_toDigits (by decide) (by decide) member⟩

theorem power_iff {n : Nat} : ¬ (n < minN ∨ maxN < n ∨ n &&& (n - 1) ≠ 0) ↔ ∃ k, 1 ≤ k ∧ k ≤ 15 ∧ n = 2 ^ k := by
  rw [not_or, not_or, not_not, Nat.not_lt, Nat.not_lt]
  constructor
  · intro bounds
    obtain ⟨low, high, single⟩ := bounds
    have positive : n ≠ 0 := by
      have two : minN = 2 := rfl
      omega
    obtain ⟨k, rfl⟩ := (Nat.and_sub_one_eq_zero_iff_isPowerOfTwo positive).mp single
    refine ⟨k, ?_, ?_, rfl⟩
    · by_contra none
      obtain rfl : k = 0 := by omega
      exact absurd low (by decide)
    · by_contra large
      have beyond : 2 ^ 16 ≤ 2 ^ k := Nat.pow_le_pow_right Nat.two_pos (by omega)
      have most : maxN = 32768 := rfl
      omega
  · intro given
    obtain ⟨k, low, high, rfl⟩ := given
    refine ⟨?_, ?_, (Nat.and_sub_one_eq_zero_iff_isPowerOfTwo (Nat.ne_of_gt (Nat.two_pow_pos k))).mpr ⟨k, rfl⟩⟩
    · exact Nat.pow_le_pow_right Nat.two_pos low
    · exact Nat.pow_le_pow_right Nat.two_pos high

theorem isLowerHex_toHex {bytes : List Nat} (octets : ∀ byte ∈ bytes, byte < 256) (some_ : bytes ≠ []) : isLowerHex (toHex bytes) = true := by
  have digit : ∀ n < 16, ((hexDigit n).isDigit || ('a' ≤ hexDigit n && hexDigit n ≤ 'f')) = true := by decide +kernel
  rw [isLowerHex, Bool.and_eq_true, Bool.not_eq_true', List.isEmpty_eq_false_iff, List.all_eq_true]
  constructor
  · intro none
    have length := length_toHex bytes
    rw [none] at length
    exact some_ (List.eq_nil_of_length_eq_zero (by rw [List.length_nil] at length; omega))
  · intro c member
    obtain ⟨byte, listed, inside⟩ := List.mem_flatMap.mp member
    have small := octets byte listed
    rcases List.mem_cons.mp inside with rfl | inside
    · exact digit _ (by omega)
    · rw [List.mem_singleton.mp inside]
      exact digit _ (by omega)

theorem decimal_no_dollar {cs : List Char} (decimal : isDecimal cs = true) : '$' ∉ cs := by
  intro member
  rw [isDecimal, Bool.and_eq_true, List.all_eq_true] at decimal
  exact absurd (decimal.2 '$' member) (by decide)

theorem hex_no_dollar {cs : List Char} (hex : isLowerHex cs = true) : '$' ∉ cs := by
  intro member
  rw [isLowerHex, Bool.and_eq_true, List.all_eq_true] at hex
  exact absurd (hex.2 '$' member) (by decide)

/-- The texts that are read as a hash, and the only ones: five fields behind the name, every cost within its bounds. -/
theorem readStored_iff (stored : List Char) (h : StoredHash) : readStored stored = some h ↔
    h.Sound ∧ ∃ nRaw rRaw pRaw, Spells nRaw h.n ∧ Spells rRaw h.r ∧ Spells pRaw h.p ∧
      stored = ['$'].intercalate ["scrypt".toList, nRaw, rRaw, pRaw, toHex h.salt, toHex h.expected] := by
  constructor
  · intro read
    unfold readStored at read
    split at read
    · rename_i name nRaw rRaw pRaw saltHex hashHex parts
      have whole : ['$'].intercalate (stored.splitOn '$') = stored := List.intercalate_splitOn '$'
      rw [parts] at whole
      dsimp only at read
      split_ifs at read with named decimal hex even power blocks salted keyed
      rw [not_not] at named
      simp only [Bool.or_eq_true, Bool.not_eq_true', not_or, Bool.not_eq_false] at decimal hex
      have lowerSalt : ∀ c ∈ saltHex, (c.isDigit || ('a' ≤ c && c ≤ 'f')) = true :=
        List.all_eq_true.mp (Bool.and_eq_true_iff.mp hex.1).2
      have lowerHash : ∀ c ∈ hashHex, (c.isDigit || ('a' ≤ c && c ≤ 'f')) = true :=
        List.all_eq_true.mp (Bool.and_eq_true_iff.mp hex.2).2
      obtain ⟨sameSalt, saltOctets⟩ := toHex_ofHex lowerSalt (by omega)
      obtain ⟨sameHash, keyOctets⟩ := toHex_ofHex lowerHash (by omega)
      simp only [maxR, maxP, minSaltBytes, maxSaltBytes, minKeyBytes, maxKeyBytes] at blocks salted keyed
      obtain rfl := Option.some.inj read
      refine ⟨⟨power_iff.mp power, by dsimp only; omega, by dsimp only; omega, by dsimp only; omega, by dsimp only; omega, saltOctets, keyOctets⟩,
        nRaw, rRaw, pRaw, ⟨decimal.1.1, rfl⟩, ⟨decimal.1.2, rfl⟩, ⟨decimal.2, rfl⟩, ?_⟩
      rw [sameSalt, sameHash, ← named, whole]
    · cases read
  · intro given
    obtain ⟨sound, nRaw, rRaw, pRaw, ⟨nDigits, n⟩, ⟨rDigits, r⟩, ⟨pDigits, p⟩, rfl⟩ := given
    have someSalt : h.salt ≠ [] := fun none => absurd sound.salted.1 (by rw [none]; decide)
    have someKey : h.expected ≠ [] := fun none => absurd sound.keyed.1 (by rw [none]; decide)
    have saltHex := isLowerHex_toHex sound.saltOctets someSalt
    have hashHex := isLowerHex_toHex sound.keyOctets someKey
    have parts : (['$'].intercalate ["scrypt".toList, nRaw, rRaw, pRaw, toHex h.salt, toHex h.expected]).splitOn '$' =
        ["scrypt".toList, nRaw, rRaw, pRaw, toHex h.salt, toHex h.expected] := by
      apply List.splitOn_intercalate
      · intro part member
        simp only [List.mem_cons, List.not_mem_nil, or_false] at member
        rcases member with rfl | rfl | rfl | rfl | rfl | rfl
        · decide
        · exact decimal_no_dollar nDigits
        · exact decimal_no_dollar rDigits
        · exact decimal_no_dollar pDigits
        · exact hex_no_dollar saltHex
        · exact hex_no_dollar hashHex
      · exact List.cons_ne_nil _ _
    have power := power_iff.mpr sound.power
    have blocks := sound.blocks
    have lanes := sound.lanes
    have salted := sound.salted
    have keyed := sound.keyed
    unfold readStored
    rw [parts]
    dsimp only
    rw [if_neg (by simp), nDigits, rDigits, pDigits, saltHex, hashHex, if_neg (by decide), if_neg (by decide), length_toHex, length_toHex,
      if_neg (by omega), n, r, p, if_neg power, if_neg (by simp only [maxR, maxP]; omega), ofHex_toHex sound.saltOctets,
      ofHex_toHex sound.keyOctets, if_neg (by simp only [minSaltBytes, maxSaltBytes]; omega),
      if_neg (by simp only [minKeyBytes, maxKeyBytes]; omega)]

/-- A hash that was stored verifies the passwords that derive its key, each with one call at the cost it names. -/
theorem hash_verifies [Scrypt] {salt derived : List Nat} {password : List Char} (drawn : salt.length = 16) (octets : ∀ byte ∈ salt, byte < 256)
    (derives : Scrypt.scryptSync ⟨password, salt, 32, 16384, 8, 1⟩ = some derived) (key : derived.length = 32)
    (bytes : ∀ byte ∈ derived, byte < 256) :
    ∃ stored, hashPassword salt password = some stored ∧ ∀ candidate, verifyPassword candidate stored =
      (decide (Scrypt.scryptSync ⟨candidate, salt, 32, 16384, 8, 1⟩ = some derived), [⟨candidate, salt, 32, 16384, 8, 1⟩]) := by
  refine ⟨_, by rw [hashPassword, derives, Option.map_some], fun candidate => ?_⟩
  have sound : StoredHash.Sound ⟨16384, 8, 1, salt, derived⟩ :=
    ⟨⟨14, by decide, by decide, rfl⟩, by dsimp only; omega, by dsimp only; omega, by dsimp only; omega, by dsimp only; omega, octets, bytes⟩
  have read := (readStored_iff _ ⟨16384, 8, 1, salt, derived⟩).mpr
    ⟨sound, _, _, _, spells_toDigits 16384, spells_toDigits 8, spells_toDigits 1, rfl⟩
  rw [verifyPassword, read]
  dsimp only
  rw [StoredHash.call, key]
  cases called : Scrypt.scryptSync ⟨candidate, salt, 32, 16384, 8, 1⟩ with
  | none => rfl
  | some other =>
    dsimp only
    congr 1
    rw [Bool.eq_iff_iff, beq_iff_eq, decide_eq_true_eq, Option.some.injEq]

/-- A runtime that derives one key from one password and another from any other. -/
theorem hash_verifies_drawn :
    let _ : Scrypt := ⟨fun call => if 67108864 < 128 * call.n * call.r then none
      else some (List.replicate call.keyLength (if call.password = "open sesame".toList then 7 else 9))⟩
    ∃ stored, hashPassword (List.range 16) "open sesame".toList = some stored ∧ ∀ candidate, verifyPassword candidate stored =
      (decide (Scrypt.scryptSync ⟨candidate, List.range 16, 32, 16384, 8, 1⟩ = some (List.replicate 32 7)),
        [⟨candidate, List.range 16, 32, 16384, 8, 1⟩]) := by
  intro _
  exact hash_verifies (by decide) (by decide) rfl (by decide) (by decide)

/-! ### What a login costs -/

def constantTimeEqual (left right : String) : Bool := toUtf8 left.toList == toUtf8 right.toList

/-- `DUMMY_PASSWORD_HASH` -/
def dummyPasswordHash : List Char :=
  "scrypt$16384$8$1$e3ee6b033ff78c6cfc44ce65577d94c0$e210b5d43acd12d7d011c297421d250297b0dfd6e8fd8598b45eb4e602cf6d53".toList

/-- `verifyOwnerCredentials`, with the calls of scrypt it makes. -/
def checkOwner [Scrypt] (toLowerCase : String → String) (env : OwnerEnv) (email password : String) : Option OwnerIdentity × List ScryptCall :=
  let configuredEmail := jsTrim env.ownerEmail
  let emailMatches := configuredEmail != "" && constantTimeEqual (toLowerCase (jsTrim email)) (toLowerCase configuredEmail)
  let owner : OwnerIdentity := ⟨configuredEmail, if env.organizationId = "" then "org_default" else env.organizationId⟩
  let storedHash := jsTrim env.ownerPasswordHash
  if storedHash ≠ "" then
    let (passwordMatches, calls) := verifyPassword password.toList storedHash.toList
    (if emailMatches && passwordMatches then some owner else none, calls)
  else
    let (_, calls) := verifyPassword password.toList dummyPasswordHash
    if env.production || env.ownerPassword == "" then (none, calls)
    else (if emailMatches && constantTimeEqual password env.ownerPassword then some owner else none, calls)

theorem constantTimeEqual_iff (left right : String) : constantTimeEqual left right = true ↔ left = right := by
  rw [constantTimeEqual, beq_iff_eq, toUtf8_injective.eq_iff, String.toList_inj]

theorem readStored_dummy : ∃ h, readStored dummyPasswordHash = some h := Option.isSome_iff_exists.mp (by decide +kernel)

/-- The hash a login verifies against. -/
def verifiedHash (env : OwnerEnv) : List Char :=
  if jsTrim env.ownerPasswordHash ≠ "" then (jsTrim env.ownerPasswordHash).toList else dummyPasswordHash

section
variable [Scrypt]

theorem checkOwner_calls (toLowerCase : String → String) (env : OwnerEnv) (email password : String) :
    (checkOwner toLowerCase env email password).2 = (verifyPassword password.toList (verifiedHash env)).2 := by
  unfold checkOwner verifiedHash
  dsimp only
  by_cases stored : jsTrim env.ownerPasswordHash ≠ ""
  · rw [if_pos stored, if_pos stored]
  · rw [if_neg stored, if_neg stored]
    generalize verifyPassword password.toList dummyPasswordHash = found
    split <;> rfl

theorem checkOwner_owner (toLowerCase : String → String) (env : OwnerEnv) (email password : String) :
    (checkOwner toLowerCase env email password).1 =
      @verifyOwnerCredentials ⟨fun password stored => (verifyPassword password.toList stored.toList).1, toLowerCase⟩ env email password := by
  unfold checkOwner verifyOwnerCredentials
  dsimp only
  split
  · simp only [Bool.and_eq_true, bne_iff_ne, ne_eq, constantTimeEqual_iff]
  · simp only [Bool.or_eq_true, beq_iff_eq]
    split
    · rfl
    · simp only [Bool.and_eq_true, bne_iff_ne, ne_eq, constantTimeEqual_iff]

/-- A verification calls scrypt once at most, on the given password, for at most 64 MiB and a key of at most 64 bytes. -/
theorem verifyPassword_calls (password stored : List Char) : (verifyPassword password stored).2 = [] ∧ readStored stored = none ∨
    ∃ call, (verifyPassword password stored).2 = [call] ∧ call.password = password ∧ 128 * call.n * call.r ≤ 64 * 1024 * 1024 ∧
      call.p ≤ 8 ∧ call.keyLength ≤ 64 := by
  unfold verifyPassword
  cases read : readStored stored with
  | none => exact Or.inl ⟨rfl, rfl⟩
  | some h =>
    have sound := ((readStored_iff stored h).mp read).1
    obtain ⟨k, -, small, power⟩ := sound.power
    have cost : 2 ^ k ≤ 2 ^ 15 := Nat.pow_le_pow_right Nat.two_pos small
    have memory : 128 * h.n * h.r ≤ 128 * 2 ^ 15 * 16 := by
      rw [power]
      exact Nat.mul_le_mul (Nat.mul_le_mul_left 128 cost) sound.blocks.2
    refine Or.inr ⟨h.call password, ?_, rfl, ?_, sound.lanes.2, sound.keyed.2⟩
    · dsimp only
      split <;> rfl
    · exact Nat.le_trans memory (by decide)

end

end GroupButler.Owner
