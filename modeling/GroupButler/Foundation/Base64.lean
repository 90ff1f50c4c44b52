import GroupButler.Foundation.Json
import Mathlib.Tactic.Ring

/-!
# Base64

Go's `base64.StdEncoding`: quanta of four characters, the last one padded, line breaks skipped. A text
decodes exactly when it is alphabet characters and at most two pads, in whole quanta.
-/

namespace GroupButler.Foundation

def base64Value (c : Char) : Option Nat :=
  if 'A' ≤ c ∧ c ≤ 'Z' then some (c.toNat - 65)
  else if 'a' ≤ c ∧ c ≤ 'z' then some (c.toNat - 71)
  else if '0' ≤ c ∧ c ≤ '9' then some (c.toNat + 4)
  else if c = '+' then some 62
  else if c = '/' then some 63
  else none

/-- The bytes of one quantum; only the last may be padded. -/
def decodeQuantum (a b c d : Char) (last : Bool) : Option (List Nat) :=
  match base64Value a, base64Value b with
  | some x, some y =>
    if last ∧ d = '=' then
      if c = '=' then some [x * 4 + y / 16]
      else (base64Value c).map fun z => [x * 4 + y / 16, y % 16 * 16 + z / 4]
    else
      match base64Value c, base64Value d with
      | some z, some w => some [x * 4 + y / 16, y % 16 * 16 + z / 4, z % 4 * 64 + w]
      | _, _ => none
  | _, _ => none

def decodeQuanta : List Char → Option (List Nat)
  | [] => some []
  | a :: b :: c :: d :: rest =>
    (decodeQuantum a b c d rest.isEmpty).bind fun bytes => (decodeQuanta rest).map (bytes ++ ·)
  | _ => none

def skipBreaks (cs : List Char) : List Char := cs.filter fun c => c != '\r' && c != '\n'

/-- `DecodeString` -/
def decodeBase64 (s : String) : Option (List Nat) := decodeQuanta (skipBreaks s.toList)

/-- `DecodedLen` -/
def decodedLen (n : Nat) : Nat := n / 4 * 3

example : decodeBase64 "aGk=\n" = some [104, 105] := by decide

/-- Alphabet characters and at most two pads, in whole quanta. -/
def Padded (cs : List Char) : Prop :=
  ∃ body pads, cs = body ++ List.replicate pads '=' ∧ pads ≤ 2 ∧ (∀ c ∈ body, (base64Value c).isSome) ∧
    (body.length + pads) % 4 = 0

theorem pad_not_alphabet : base64Value '=' = none := rfl

theorem decodeQuantum_isSome {a b c d : Char} {last : Bool} :
    (decodeQuantum a b c d last).isSome ↔ (base64Value a).isSome ∧ (base64Value b).isSome ∧
      ((base64Value c).isSome ∧ (base64Value d).isSome ∨ last = true ∧ d = '=' ∧ (c = '=' ∨ (base64Value c).isSome)) := by
  unfold decodeQuantum
  cases base64Value a with
  | none => simp
  | some x =>
    cases base64Value b with
    | none => simp
    | some y =>
      by_cases padded : last = true ∧ d = '='
      · obtain ⟨rfl, rfl⟩ := padded
        by_cases two : c = '='
        · simp [two]
        · simp [two, pad_not_alphabet]
      · have unpadded : ¬ (last = true ∧ d = '=' ∧ (c = '=' ∨ (base64Value c).isSome)) := fun h => padded ⟨h.1, h.2.1⟩
        simp only [if_neg padded, Option.isSome_some, true_and, unpadded, or_false]
        cases base64Value c with
        | none => simp
        | some z => cases base64Value d <;> simp

theorem Padded.length_mod {cs : List Char} (padded : Padded cs) : cs.length % 4 = 0 := by
  obtain ⟨body, pads, rfl, -, -, quanta⟩ := padded
  rwa [List.length_append, List.length_replicate]

/-- A whole quantum of the alphabet in front of padded text. -/
theorem padded_cons {a b c d : Char} {rest : List Char} (alphabet : ∀ x ∈ [a, b, c, d], (base64Value x).isSome) :
    Padded (a :: b :: c :: d :: rest) ↔ Padded rest := by
  constructor
  · rintro ⟨body, pads, whole, few, valid, quanta⟩
    -- the body cannot end inside this quantum, since no pad is of the alphabet
    have longer : 4 ≤ body.length := by
      by_contra short
      have pad : (a :: b :: c :: d :: rest)[body.length]? = some '=' := by
        rw [whole, List.getElem?_append_right le_rfl, Nat.sub_self, List.getElem?_replicate]
        have total := congrArg List.length whole
        simp only [List.length_cons, List.length_append, List.length_replicate] at total
        rw [if_pos (by omega)]
      have inside : ∃ x ∈ [a, b, c, d], (a :: b :: c :: d :: rest)[body.length]? = some x := by
        match body.length, short with
        | 0, _ => exact ⟨a, by simp, rfl⟩
        | 1, _ => exact ⟨b, by simp, rfl⟩
        | 2, _ => exact ⟨c, by simp, rfl⟩
        | 3, _ => exact ⟨d, by simp, rfl⟩
        | n + 4, short => omega
      obtain ⟨x, member, found⟩ := inside
      have valid := alphabet x member
      rw [Option.some.inj (found.symm.trans pad)] at valid
      cases valid
    match body, longer with
    | w :: x :: y :: z :: body, _ =>
      simp only [List.cons_append, List.cons.injEq] at whole
      refine ⟨body, pads, whole.2.2.2.2, few, fun e member => valid e (by simp [member]), ?_⟩
      simp only [List.length_cons] at quanta
      omega
  · rintro ⟨body, pads, rfl, few, valid, quanta⟩
    refine ⟨a :: b :: c :: d :: body, pads, rfl, few, ?_, by simp only [List.length_cons]; omega⟩
    intro x member
    rcases (by simpa [or_assoc] using member : x ∈ [a, b, c, d] ∨ x ∈ body) with front | later
    · exact alphabet x front
    · exact valid x later

theorem decodeQuanta_isSome_iff (cs : List Char) : (decodeQuanta cs).isSome ↔ Padded cs := by
  induction cs using decodeQuanta.induct with
  | case1 => exact ⟨fun _ => ⟨[], 0, rfl, by omega, by simp, rfl⟩, fun _ => rfl⟩
  | case2 a b c d rest ih =>
    have split : (decodeQuanta (a :: b :: c :: d :: rest)).isSome ↔
        (decodeQuantum a b c d rest.isEmpty).isSome ∧ (decodeQuanta rest).isSome := by
      rw [decodeQuanta]
      cases decodeQuantum a b c d rest.isEmpty <;> simp
    rw [split, decodeQuantum_isSome, ih]
    constructor
    · rintro ⟨⟨first, second, both | ⟨last, rfl, third⟩⟩, tail⟩
      · exact (padded_cons (by simp [first, second, both])).mpr tail
      · obtain rfl : rest = [] := List.isEmpty_iff.mp last
        rcases third with rfl | third
        · exact ⟨[a, b], 2, rfl, by omega, by simp [first, second], by simp⟩
        · exact ⟨[a, b, c], 1, rfl, by omega, by simp [first, second, third], by simp⟩
    · intro padded
      by_cases alphabet : ∀ x ∈ [a, b, c, d], (base64Value x).isSome
      · have tail := (padded_cons alphabet).mp padded
        simp only [List.mem_cons, List.not_mem_nil, or_false, forall_eq_or_imp, forall_eq] at alphabet
        exact ⟨⟨alphabet.1, alphabet.2.1, Or.inl alphabet.2.2⟩, tail⟩
      · obtain ⟨body, pads, whole, few, valid, quanta⟩ := padded
        have total := congrArg List.length whole
        simp only [List.length_cons, List.length_append, List.length_replicate] at total
        match body with
        | w :: x :: y :: z :: body =>
          simp only [List.cons_append, List.cons.injEq] at whole
          obtain ⟨rfl, rfl, rfl, rfl, -⟩ := whole
          exact absurd (fun x member => valid x (by simp at member ⊢; tauto)) alphabet
        | [x, y, z] =>
          obtain rfl : pads = 1 := by simp only [List.length_cons, List.length_nil] at quanta; omega
          obtain ⟨rfl, rfl, rfl, rfl, rfl⟩ : a = x ∧ b = y ∧ c = z ∧ d = '=' ∧ rest = [] := by simpa using whole
          simp only [List.mem_cons, List.not_mem_nil, or_false, forall_eq_or_imp, forall_eq] at valid
          exact ⟨⟨valid.1, valid.2.1, Or.inr ⟨rfl, rfl, Or.inr valid.2.2⟩⟩, ih.mp rfl⟩
        | [x, y] =>
          obtain rfl : pads = 2 := by simp only [List.length_cons, List.length_nil] at quanta; omega
          obtain ⟨rfl, rfl, rfl, rfl, rfl⟩ : a = x ∧ b = y ∧ c = '=' ∧ d = '=' ∧ rest = [] := by
            simpa [List.replicate] using whole
          simp only [List.mem_cons, List.not_mem_nil, or_false, forall_eq_or_imp, forall_eq] at valid
          exact ⟨⟨valid.1, valid.2, Or.inr ⟨rfl, rfl, Or.inl rfl⟩⟩, ih.mp rfl⟩
        | [x] => simp only [List.length_cons, List.length_nil] at quanta; omega
        | [] => simp only [List.length_nil] at quanta total; omega
  | case3 cs nonempty short =>
    have broken (odd : cs.length % 4 ≠ 0) (none : decodeQuanta cs = none) : (decodeQuanta cs).isSome ↔ Padded cs := by
      simp only [none, Option.isSome_none, Bool.false_eq_true, false_iff]
      exact fun padded => odd padded.length_mod
    match cs, nonempty, short, broken with
    | [], nonempty, _, _ => exact absurd rfl nonempty
    | [_], _, _, broken => exact broken (by simp) rfl
    | [_, _], _, _, broken => exact broken (by simp) rfl
    | [_, _, _], _, _, broken => exact broken (by simp) rfl
    | a :: b :: c :: d :: rest, _, short, _ => exact absurd rfl (short a b c d rest)

/-- Text decodes to no bytes only when there is none. -/
theorem decodeQuanta_eq_nil {cs : List Char} (empty : decodeQuanta cs = some []) : cs = [] := by
  match cs with
  | [] => rfl
  | a :: b :: c :: d :: rest =>
    rw [decodeQuanta] at empty
    obtain ⟨bytes, quantum, rest⟩ := Option.bind_eq_some_iff.mp empty
    obtain ⟨tail, -, joined⟩ := Option.map_eq_some_iff.mp rest
    obtain ⟨rfl, -⟩ := List.append_eq_nil_iff.mp joined
    unfold decodeQuantum at quantum
    split at quantum
    · split_ifs at quantum
      · simp at quantum
      · simp at quantum
      · split at quantum <;> simp at quantum
    · cases quantum
  | [_] => cases empty
  | [_, _] => cases empty
  | [_, _, _] => cases empty

/-- A text decodes to at least one byte exactly when it is padded text with something in it. -/
theorem decodeBase64_nonempty_iff (s : String) :
    (∃ bytes, decodeBase64 s = some bytes ∧ bytes ≠ []) ↔ Padded (skipBreaks s.toList) ∧ skipBreaks s.toList ≠ [] := by
  rw [← decodeQuanta_isSome_iff, Option.isSome_iff_exists, decodeBase64]
  constructor
  · rintro ⟨bytes, decoded, some_⟩
    refine ⟨⟨bytes, decoded⟩, fun none => ?_⟩
    rw [none] at decoded
    exact some_ (Option.some.inj decoded).symm
  · rintro ⟨⟨bytes, decoded⟩, some_⟩
    exact ⟨bytes, decoded, fun none => some_ (decodeQuanta_eq_nil (none ▸ decoded))⟩

/-! ### Encoding -/

def base64Digits : List Char := "ABCDEFGHIJKLMNOPQRSTUVWXYZabcdefghijklmnopqrstuvwxyz0123456789+/".toList

def base64Char (sextet : Nat) : Char := base64Digits.getD sextet '='

/-- `buffer.toString("base64")` -/
def encodeBase64 : List Nat → List Char
  | [] => []
  | [a] => [base64Char (a / 4), base64Char (a % 4 * 16), '=', '=']
  | [a, b] => [base64Char (a / 4), base64Char (a % 4 * 16 + b / 16), base64Char (b % 16 * 4), '=']
  | a :: b :: c :: rest =>
    base64Char (a / 4) :: base64Char (a % 4 * 16 + b / 16) :: base64Char (b % 16 * 4 + c / 64) :: base64Char (c % 64) ::
      encodeBase64 rest

theorem base64Value_base64Char : ∀ sextet < 64, base64Value (base64Char sextet) = some sextet := by decide +kernel

theorem base64Char_ne_pad {sextet : Nat} (small : sextet < 64) : base64Char sextet ≠ '=' := by
  intro pad
  have value := base64Value_base64Char sextet small
  rw [pad] at value
  cases value

/-- What is encoded decodes to the same bytes. -/
theorem decodeQuanta_encodeBase64 {bytes : List Nat} (octets : ∀ byte ∈ bytes, byte < 256) :
    decodeQuanta (encodeBase64 bytes) = some bytes := by
  induction bytes using encodeBase64.induct with
  | case1 => rfl
  | case2 a =>
    have first := octets a List.mem_cons_self
    rw [encodeBase64, decodeQuanta, decodeQuantum, base64Value_base64Char _ (by omega), base64Value_base64Char _ (by omega)]
    show some [a / 4 * 4 + a % 4 * 16 / 16] = some [a]
    rw [show a / 4 * 4 + a % 4 * 16 / 16 = a by omega]
  | case3 a b =>
    have first := octets a List.mem_cons_self
    have second := octets b (by simp)
    have third : base64Char (b % 16 * 4) ≠ '=' := base64Char_ne_pad (by omega)
    rw [encodeBase64, decodeQuanta, decodeQuantum, base64Value_base64Char _ (by omega), base64Value_base64Char _ (by omega)]
    dsimp only
    rw [if_pos ⟨rfl, rfl⟩, if_neg third, base64Value_base64Char _ (by omega)]
    show some [a / 4 * 4 + (a % 4 * 16 + b / 16) / 16, (a % 4 * 16 + b / 16) % 16 * 16 + b % 16 * 4 / 4] = some [a, b]
    rw [show a / 4 * 4 + (a % 4 * 16 + b / 16) / 16 = a by omega,
      show (a % 4 * 16 + b / 16) % 16 * 16 + b % 16 * 4 / 4 = b by omega]
  | case4 a b c rest ih =>
    have first := octets a List.mem_cons_self
    have second := octets b (by simp)
    have third := octets c (by simp)
    have last : base64Char (c % 64) ≠ '=' := base64Char_ne_pad (by omega)
    rw [encodeBase64, decodeQuanta, decodeQuantum, base64Value_base64Char _ (by omega), base64Value_base64Char _ (by omega)]
    dsimp only
    rw [if_neg fun both => last both.2, base64Value_base64Char _ (by omega), base64Value_base64Char _ (by omega),
      ih fun byte member => octets byte (by simp [member])]
    show some ([a / 4 * 4 + (a % 4 * 16 + b / 16) / 16, (a % 4 * 16 + b / 16) % 16 * 16 + (b % 16 * 4 + c / 64) / 4,
      (b % 16 * 4 + c / 64) % 4 * 64 + c % 64] ++ rest) = some (a :: b :: c :: rest)
    rw [show a / 4 * 4 + (a % 4 * 16 + b / 16) / 16 = a by omega,
      show (a % 4 * 16 + b / 16) % 16 * 16 + (b % 16 * 4 + c / 64) / 4 = b by omega,
      show (b % 16 * 4 + c / 64) % 4 * 64 + c % 64 = c by omega]
    rfl

end GroupButler.Foundation
