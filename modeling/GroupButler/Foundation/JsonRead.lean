import GroupButler.Foundation.Decimal
import GroupButler.Foundation.Json
import GroupButler.Foundation.JsonText

/-!
# JSON values

`JSON.stringify` without spaces, and the values `JSON.parse` makes of a text. What is written reads back as
the value it was written from.
-/

namespace GroupButler.Foundation

/-- A number is the decimal it is written as. -/
inductive JsonValue where
  | null
  | bool (value : Bool)
  | num (value : Decimal)
  | str (text : List Char)
  | arr (items : List JsonValue)
  | obj (fields : List (List Char × JsonValue))
  deriving Repr

/-- `value[key]`; of repeated keys the last counts. -/
def JsonValue.field (value : JsonValue) (key : String) : Option JsonValue :=
  match value with
  | .obj fields => (fields.reverse.find? fun field => field.1 == key.toList).map Prod.snd
  | _ => none

/-! ### Writing -/

def intText (n : Int) : List Char := (if n < 0 then ['-'] else []) ++ Nat.toDigits 10 n.natAbs

mutual

/-- `JSON.stringify(value)` -/
def Json.text : Json → List Char
  | .null => ['n', 'u', 'l', 'l']
  | .bool true => ['t', 'r', 'u', 'e']
  | .bool false => ['f', 'a', 'l', 's', 'e']
  | .num n => intText n
  | .str s => quote s.toList
  | .arr items => '[' :: (Json.itemsText items ++ [']'])
  | .obj fields => '{' :: (Json.fieldsText fields ++ ['}'])

def Json.itemsText : List Json → List Char
  | [] => []
  | [item] => item.text
  | item :: items => item.text ++ ',' :: Json.itemsText items

def Json.fieldsText : List (String × Json) → List Char
  | [] => []
  | [(key, value)] => quote key.toList ++ ':' :: value.text
  | (key, value) :: fields => quote key.toList ++ ':' :: (value.text ++ ',' :: Json.fieldsText fields)

end

mutual

/-- The value behind a written one. -/
def Json.value : Json → JsonValue
  | .null => .null
  | .bool b => .bool b
  | .num n => .num ⟨decide (n < 0), n.natAbs, 0⟩
  | .str s => .str s.toList
  | .arr items => .arr (Json.itemValues items)
  | .obj fields => .obj (Json.fieldValues fields)

def Json.itemValues : List Json → List JsonValue
  | [] => []
  | item :: items => item.value :: Json.itemValues items

def Json.fieldValues : List (String × Json) → List (List Char × JsonValue)
  | [] => []
  | (key, value) :: fields => (key.toList, value.value) :: Json.fieldValues fields

end

/-! ### Reading -/

/-- The digits before a point: a zero stands alone. -/
def wholeDigits (cs : List Char) : List Char × List Char :=
  match cs with
  | '0' :: rest => (['0'], rest)
  | cs => (cs.takeWhile Char.isDigit, cs.dropWhile Char.isDigit)

def fractionDigits (cs : List Char) : Option (List Char × List Char) :=
  match cs with
  | '.' :: rest => if (rest.takeWhile Char.isDigit).isEmpty then none else some (rest.takeWhile Char.isDigit, rest.dropWhile Char.isDigit)
  | rest => some ([], rest)

def exponentOf (cs : List Char) : Option (Int × List Char) :=
  match cs with
  | [] => some (0, [])
  | e :: rest =>
    if e = 'e' ∨ e = 'E' then
      let (negative, digits) := splitSign rest
      if (digits.takeWhile Char.isDigit).isEmpty then none
      else some (signed negative (Nat.ofDigitChars 10 (digits.takeWhile Char.isDigit) 0), digits.dropWhile Char.isDigit)
    else some (0, e :: rest)

def parseUnsigned (negative : Bool) (cs : List Char) : Option (Decimal × List Char) :=
  let (whole, rest) := wholeDigits cs
  if whole.isEmpty then none
  else
    (fractionDigits rest).bind fun (fraction, rest) => (exponentOf rest).map fun (power, rest) =>
      (⟨negative, Nat.ofDigitChars 10 (whole ++ fraction) 0, power - fraction.length⟩, rest)

def parseNumber (cs : List Char) : Option (Decimal × List Char) :=
  match cs with
  | '-' :: rest => parseUnsigned true rest
  | rest => parseUnsigned false rest

mutual

/-- A value, with at most `fuel` nested or consecutive ones in it. -/
def parseValue : Nat → List Char → Option (JsonValue × List Char)
  | 0, _ => none
  | fuel + 1, cs =>
    match skipBlank cs with
    | '"' :: rest => (readUnits rest).map fun (units, rest) => (.str (ofUtf16 units), rest)
    | '[' :: rest =>
      match skipBlank rest with
      | ']' :: rest => some (.arr [], rest)
      | rest => (parseItems fuel rest).map fun (items, rest) => (.arr items, rest)
    | '{' :: rest =>
      match skipBlank rest with
      | '}' :: rest => some (.obj [], rest)
      | rest => (parseFields fuel rest).map fun (fields, rest) => (.obj fields, rest)
    | 't' :: 'r' :: 'u' :: 'e' :: rest => some (.bool true, rest)
    | 'f' :: 'a' :: 'l' :: 's' :: 'e' :: rest => some (.bool false, rest)
    | 'n' :: 'u' :: 'l' :: 'l' :: rest => some (.null, rest)
    | rest => (parseNumber rest).map fun (value, rest) => (.num value, rest)

def parseItems : Nat → List Char → Option (List JsonValue × List Char)
  | 0, _ => none
  | fuel + 1, cs =>
    (parseValue fuel cs).bind fun (item, rest) =>
      match skipBlank rest with
      | ',' :: rest => (parseItems fuel rest).map fun (items, rest) => (item :: items, rest)
      | ']' :: rest => some ([item], rest)
      | _ => none

def parseFields : Nat → List Char → Option (List (List Char × JsonValue) × List Char)
  | 0, _ => none
  | fuel + 1, cs =>
    match skipBlank cs with
    | '"' :: rest =>
      (readUnits rest).bind fun (units, rest) =>
        match skipBlank rest with
        | ':' :: rest =>
          (parseValue fuel rest).bind fun (value, rest) =>
            match skipBlank rest with
            | ',' :: rest => (parseFields fuel rest).map fun (fields, rest) => ((ofUtf16 units, value) :: fields, rest)
            | '}' :: rest => some ([(ofUtf16 units, value)], rest)
            | _ => none
        | _ => none
    | _ => none

end

/-- `JSON.parse(text)`, with `none` where it throws. -/
def parseJson (cs : List Char) : Option JsonValue :=
  (parseValue (2 * cs.length + 2) cs).bind fun (value, rest) => if (skipBlank rest).isEmpty then some value else none

/-! ### Numbers -/

/-- What may follow a number. -/
def Ends (rest : List Char) : Prop := ∀ c ∈ rest.head?, c.isDigit = false ∧ c ≠ '.' ∧ c ≠ 'e' ∧ c ≠ 'E'

theorem toDigits_head {n : Nat} (positive : 0 < n) : (Nat.toDigits 10 n).head? ≠ some '0' := by
  intro zero
  obtain ⟨rest, digits⟩ := List.head?_eq_some_iff.mp zero
  have value : Nat.ofDigitChars 10 (Nat.toDigits 10 n) 0 = n := Nat.ofDigitChars_ten_toDigits
  have all : ∀ c ∈ rest, c.isDigit = true := fun c member =>
    Nat.isDigit_of_mem_toDigits (by decide) (by decide) (digits ▸ List.mem_cons_of_mem _ member)
  rw [digits, Nat.ofDigitChars_cons] at value
  have small := (ofDigitChars_bounds all (10 * 0 + ('0'.toNat - '0'.toNat))).2
  rw [value] at small
  have zero_ : (10 * 0 + ('0'.toNat - '0'.toNat) + 1) * 10 ^ rest.length = 10 ^ rest.length := by
    rw [Nat.sub_self, Nat.mul_zero, Nat.zero_add, Nat.one_mul]
  rw [zero_] at small
  have length := congrArg List.length digits
  rw [List.length_cons] at length
  rcases Nat.eq_zero_or_pos rest.length with none | some_
  · rw [none, Nat.pow_zero] at small
    omega
  · have short := (Nat.length_toDigits_le_iff (by decide) some_).mpr small
    omega

theorem wholeDigits_toDigits (n : Nat) {rest : List Char} (ends : Ends rest) :
    wholeDigits (Nat.toDigits 10 n ++ rest) = (Nat.toDigits 10 n, rest) := by
  rcases Nat.eq_zero_or_pos n with rfl | positive
  · rfl
  · have all : ∀ c ∈ Nat.toDigits 10 n, c.isDigit = true := fun c member => Nat.isDigit_of_mem_toDigits (by decide) (by decide) member
    have stop : ∀ c ∈ rest.head?, c.isDigit = false := fun c head => (ends c head).1
    have taken : (Nat.toDigits 10 n ++ rest).takeWhile Char.isDigit = Nat.toDigits 10 n := by
      rw [List.takeWhile_append_of_pos all]
      cases rest with
      | nil => rw [List.takeWhile_nil, List.append_nil]
      | cons c rest => rw [List.takeWhile_cons_of_neg (by rw [stop c rfl]; decide), List.append_nil]
    have left : (Nat.toDigits 10 n ++ rest).dropWhile Char.isDigit = rest := by
      rw [List.dropWhile_append_of_pos all, dropWhile_of_head stop]
    have first : (Nat.toDigits 10 n ++ rest).head? ≠ some '0' := by
      rw [List.head?_append_of_ne_nil _ Nat.toDigits_ne_nil]
      exact toDigits_head positive
    unfold wholeDigits
    split
    · rename_i zero
      rw [zero] at first
      exact absurd rfl first
    · rw [taken, left]

theorem parseUnsigned_toDigits (negative : Bool) (n : Nat) {rest : List Char} (ends : Ends rest) :
    parseUnsigned negative (Nat.toDigits 10 n ++ rest) = some (⟨negative, n, 0⟩, rest) := by
  have some_ : (Nat.toDigits 10 n).isEmpty = false := List.isEmpty_eq_false_iff.mpr Nat.toDigits_ne_nil
  have fraction : fractionDigits rest = some ([], rest) := by
    cases rest with
    | nil => rfl
    | cons c rest =>
      have point := (ends c rfl).2.1
      unfold fractionDigits
      split
      · rename_i same
        exact absurd (List.cons.inj same).1 point
      · rfl
  have power : exponentOf rest = some (0, rest) := by
    cases rest with
    | nil => rfl
    | cons c rest =>
      have letter := (ends c rfl).2.2
      rw [exponentOf, if_neg (by tauto)]
  unfold parseUnsigned
  rw [wholeDigits_toDigits n ends]
  dsimp only
  rw [some_, if_neg (by decide), fraction, Option.bind_some]
  dsimp only
  rw [power, Option.map_some, List.append_nil, Nat.ofDigitChars_ten_toDigits]
  rfl

theorem toDigits_plain (n : Nat) : ∃ c rest, Nat.toDigits 10 n = c :: rest ∧ c.isDigit = true := by
  obtain ⟨c, rest, digits⟩ := List.exists_cons_of_ne_nil (@Nat.toDigits_ne_nil n 10)
  exact ⟨c, rest, digits, Nat.isDigit_of_mem_toDigits (by decide) (by decide) (digits ▸ List.mem_cons_self)⟩

theorem parseNumber_intText (n : Int) {rest : List Char} (ends : Ends rest) :
    parseNumber (intText n ++ rest) = some (⟨decide (n < 0), n.natAbs, 0⟩, rest) := by
  unfold intText
  split
  · rename_i negative
    rw [List.append_assoc, List.singleton_append, parseNumber, parseUnsigned_toDigits true _ ends, decide_eq_true negative]
  · rename_i positive
    obtain ⟨c, digits, shape, digit⟩ := toDigits_plain n.natAbs
    rw [List.nil_append, decide_eq_false positive, ← parseUnsigned_toDigits false _ ends]
    unfold parseNumber
    split
    · rename_i minus
      rw [shape, List.cons_append] at minus
      rw [(List.cons.inj minus).1] at digit
      cases digit
    · rfl

/-! ### Trees -/

theorem skipBlank_cons {c : Char} (visible : isJsonSpace c = false) (rest : List Char) : skipBlank (c :: rest) = c :: rest :=
  List.dropWhile_cons_of_neg (by rw [visible]; decide)

theorem ends_cons {c : Char} {rest : List Char} (plain : c.isDigit = false ∧ c ≠ '.' ∧ c ≠ 'e' ∧ c ≠ 'E') : Ends (c :: rest) := by
  intro d head
  obtain rfl := Option.some.inj head
  exact plain

/-- A number begins with a digit or its sign. -/
theorem parseNumber_start {cs : List Char} {number : Decimal × List Char} (read : parseNumber cs = some number) :
    ∃ c rest, cs = c :: rest ∧ (c.isDigit = true ∨ c = '-') := by
  cases cs with
  | nil => cases read
  | cons c rest =>
    refine ⟨c, rest, rfl, ?_⟩
    by_cases sign : c = '-'
    · exact Or.inr sign
    · by_cases digit : c.isDigit = true
      · exact Or.inl digit
      · have unsigned : parseNumber (c :: rest) = parseUnsigned false (c :: rest) := by
          rw [parseNumber]
          intro _ same
          exact sign (List.cons.inj same).1
        have none_ : wholeDigits (c :: rest) = ([], c :: rest) := by
          rw [wholeDigits, List.takeWhile_cons_of_neg digit, List.dropWhile_cons_of_neg digit]
          intro _ same
          rw [(List.cons.inj same).1] at digit
          exact digit rfl
        rw [unsigned, parseUnsigned, none_] at read
        cases read

theorem digit_visible {c : Char} (start : c.isDigit = true ∨ c = '-') : isJsonSpace c = false ∧ c ≠ ']' ∧ c ≠ '}' := by
  rcases start with digit | rfl
  · have bounds := isDigit_iff.mp digit
    refine ⟨?_, ?_, ?_⟩
    · rw [← Bool.not_eq_true]
      intro blank
      simp only [isJsonSpace, List.mem_cons, List.not_mem_nil, or_false, decide_eq_true_eq] at blank
      omega
    · intro close
      rw [close] at digit
      cases digit
    · intro close
      rw [close] at digit
      cases digit
  · exact ⟨by decide, by decide, by decide⟩

/-- A runtime's numbers: the one it holds for a decimal, unless that is too large, and how it writes that one. -/
structure Numbers where
  held : Decimal → Option Decimal
  digits : Decimal → List Char
  settled : ∀ {d e : Decimal}, held d = some e → held e = some e
  reads : ∀ {d e : Decimal} {rest : List Char}, held d = some e → Ends rest → parseNumber (digits e ++ rest) = some (e, rest)

section
variable (numbers : Numbers)

mutual

/-- `JSON.stringify(value)`; a number too large is written as null. -/
def JsonValue.text : JsonValue → List Char
  | .null => ['n', 'u', 'l', 'l']
  | .bool true => ['t', 'r', 'u', 'e']
  | .bool false => ['f', 'a', 'l', 's', 'e']
  | .num d => (numbers.held d).elim ['n', 'u', 'l', 'l'] numbers.digits
  | .str cs => quote cs
  | .arr items => '[' :: (JsonValue.itemsText items ++ [']'])
  | .obj fields => '{' :: (JsonValue.fieldsText fields ++ ['}'])

def JsonValue.itemsText : List JsonValue → List Char
  | [] => []
  | [item] => item.text
  | item :: items => item.text ++ ',' :: JsonValue.itemsText items

def JsonValue.fieldsText : List (List Char × JsonValue) → List Char
  | [] => []
  | [(key, value)] => quote key ++ ':' :: value.text
  | (key, value) :: fields => quote key ++ ':' :: (value.text ++ ',' :: JsonValue.fieldsText fields)

end

mutual

/-- A value with its numbers as the runtime holds them. -/
def JsonValue.rounded : JsonValue → JsonValue
  | .null => .null
  | .bool b => .bool b
  | .num d => (numbers.held d).elim .null .num
  | .str cs => .str cs
  | .arr items => .arr (JsonValue.roundedItems items)
  | .obj fields => .obj (JsonValue.roundedFields fields)

def JsonValue.roundedItems : List JsonValue → List JsonValue
  | [] => []
  | item :: items => item.rounded :: JsonValue.roundedItems items

def JsonValue.roundedFields : List (List Char × JsonValue) → List (List Char × JsonValue)
  | [] => []
  | (key, value) :: fields => (key, value.rounded) :: JsonValue.roundedFields fields

end

variable {numbers}

theorem parseValue_number {fuel : Nat} {cs : List Char} {d : Decimal} {rest : List Char} (read : parseNumber cs = some (d, rest)) :
    parseValue (fuel + 1) cs = some (.num d, rest) := by
  obtain ⟨c, tail, rfl, start⟩ := parseNumber_start read
  have other {e : Char} {xs ys : List Char} (same : c :: xs = e :: ys) (differs : ¬ (e.isDigit = true ∨ e = '-')) : False := by
    rw [(List.cons.inj same).1] at start
    exact differs start
  rw [parseValue, skipBlank_cons (digit_visible start).1]
  split
  case h_7 => rw [read, Option.map_some]
  all_goals
    rename_i same
    exact (other same (by decide)).elim

theorem parseValue_num (fuel : Nat) (d : Decimal) {rest : List Char} (ends : Ends rest) :
    parseValue (fuel + 1) ((JsonValue.num d).text numbers ++ rest) = some ((JsonValue.num d).rounded numbers, rest) := by
  rw [JsonValue.text, JsonValue.rounded]
  cases held : numbers.held d with
  | none =>
    rw [parseValue]
    rfl
  | some e => exact parseValue_number (numbers.reads held ends)

theorem parseValue_quote (fuel : Nat) (cs rest : List Char) : parseValue (fuel + 1) (quote cs ++ rest) = some (.str cs, rest) := by
  have tail : quote cs ++ rest = '"' :: (cs.flatMap quoteChar ++ '"' :: rest) := by
    rw [quote, List.cons_append, List.append_assoc]
    rfl
  rw [parseValue, tail, skipBlank_cons (by decide)]
  show (readUnits (cs.flatMap quoteChar ++ '"' :: rest)).map _ = _
  rw [readUnits_quoted, Option.map_some]
  exact congrArg (fun text => some (JsonValue.str text, rest)) (ofUtf16_units cs)

/-- What a value's text begins with opens no other one and closes nothing. -/
theorem JsonValue.text_head (v : JsonValue) : ∃ c rest, v.text numbers = c :: rest ∧ isJsonSpace c = false ∧ c ≠ ']' ∧ c ≠ '}' := by
  cases v with
  | null => exact ⟨_, _, rfl, by decide, by decide, by decide⟩
  | bool b => cases b <;> exact ⟨_, _, rfl, by decide, by decide, by decide⟩
  | str cs => exact ⟨_, _, rfl, by decide, by decide, by decide⟩
  | arr items => exact ⟨_, _, rfl, by decide, by decide, by decide⟩
  | obj fields => exact ⟨_, _, rfl, by decide, by decide, by decide⟩
  | num d =>
    rw [JsonValue.text]
    cases held : numbers.held d with
    | none => exact ⟨_, _, rfl, by decide, by decide, by decide⟩
    | some e =>
      have read := @Numbers.reads numbers d e [] held (fun _ none => by cases none)
      rw [List.append_nil] at read
      obtain ⟨c, rest, shape, start⟩ := parseNumber_start read
      exact ⟨c, rest, shape, digit_visible start⟩

theorem itemsText_cons (item next : JsonValue) (items : List JsonValue) :
    JsonValue.itemsText numbers (item :: next :: items) = item.text numbers ++ ',' :: JsonValue.itemsText numbers (next :: items) := rfl

theorem fieldsText_cons (field next : List Char × JsonValue) (fields : List (List Char × JsonValue)) :
    JsonValue.fieldsText numbers (field :: next :: fields) =
      quote field.1 ++ ':' :: (field.2.text numbers ++ ',' :: JsonValue.fieldsText numbers (next :: fields)) := by
  obtain ⟨key, value⟩ := field
  rfl

theorem itemsText_head (item : JsonValue) (items : List JsonValue) :
    ∃ c rest, JsonValue.itemsText numbers (item :: items) = c :: rest ∧ isJsonSpace c = false ∧ c ≠ ']' := by
  obtain ⟨c, tail, shape, visible, open_, -⟩ := @JsonValue.text_head numbers item
  cases items with
  | nil => exact ⟨c, tail, shape, visible, open_⟩
  | cons next items => exact ⟨c, _, by rw [itemsText_cons, shape]; rfl, visible, open_⟩

theorem parseValue_bracket (fuel : Nat) (rest : List Char) : parseValue (fuel + 1) ('[' :: rest) =
    match skipBlank rest with
    | ']' :: rest => some (.arr [], rest)
    | rest => (parseItems fuel rest).map fun read => (.arr read.1, read.2) := by
  rw [parseValue, skipBlank_cons (by decide)]
  rfl

theorem parseValue_arr {fuel : Nat} {item : JsonValue} {items values : List JsonValue} {rest : List Char}
    (inner : parseItems fuel (JsonValue.itemsText numbers (item :: items) ++ ']' :: rest) = some (values, rest)) :
    parseValue (fuel + 1) ((JsonValue.arr (item :: items)).text numbers ++ rest) = some (.arr values, rest) := by
  obtain ⟨c, tail, shape, visible, open_⟩ := @itemsText_head numbers item items
  have text : (JsonValue.arr (item :: items)).text numbers ++ rest =
      '[' :: (JsonValue.itemsText numbers (item :: items) ++ ']' :: rest) := by
    rw [JsonValue.text, List.cons_append, List.append_assoc, List.singleton_append]
  have skip : skipBlank (JsonValue.itemsText numbers (item :: items) ++ ']' :: rest) =
      JsonValue.itemsText numbers (item :: items) ++ ']' :: rest := by
    rw [shape, List.cons_append, skipBlank_cons visible]
  rw [text, parseValue_bracket, skip]
  split
  · rename_i close
    rw [shape, List.cons_append] at close
    exact absurd (List.cons.inj close).1 open_
  · rw [inner, Option.map_some]

theorem fieldsText_shape (field : List Char × JsonValue) (fields : List (List Char × JsonValue)) :
    ∃ more, JsonValue.fieldsText numbers (field :: fields) = quote field.1 ++ ':' :: (field.2.text numbers ++ more) := by
  cases fields with
  | nil => exact ⟨[], by rw [List.append_nil]; rfl⟩
  | cons next fields => exact ⟨_, fieldsText_cons field next fields⟩

theorem parseValue_brace (fuel : Nat) (rest : List Char) : parseValue (fuel + 1) ('{' :: rest) =
    match skipBlank rest with
    | '}' :: rest => some (.obj [], rest)
    | rest => (parseFields fuel rest).map fun read => (.obj read.1, read.2) := by
  rw [parseValue, skipBlank_cons (by decide)]
  rfl

theorem parseValue_obj {fuel : Nat} {field : List Char × JsonValue} {fields values : List (List Char × JsonValue)}
    {rest : List Char} (inner : parseFields fuel (JsonValue.fieldsText numbers (field :: fields) ++ '}' :: rest) = some (values, rest)) :
    parseValue (fuel + 1) ((JsonValue.obj (field :: fields)).text numbers ++ rest) = some (.obj values, rest) := by
  obtain ⟨more, shape⟩ := @fieldsText_shape numbers field fields
  have text : (JsonValue.obj (field :: fields)).text numbers ++ rest =
      '{' :: (JsonValue.fieldsText numbers (field :: fields) ++ '}' :: rest) := by
    rw [JsonValue.text, List.cons_append, List.append_assoc, List.singleton_append]
  have skip : skipBlank (JsonValue.fieldsText numbers (field :: fields) ++ '}' :: rest) =
      JsonValue.fieldsText numbers (field :: fields) ++ '}' :: rest := by
    rw [shape, quote]
    exact skipBlank_cons (by decide) _
  rw [text, parseValue_brace, skip]
  split
  · rename_i close
    rw [shape, quote] at close
    exact absurd (List.cons.inj close).1 (by decide)
  · rw [inner, Option.map_some]

/-- The key and the value at the front of an object's text. -/
theorem parseFields_front {fuel : Nat} {key text rest : List Char} {value : JsonValue}
    (inner : parseValue fuel (text ++ rest) = some (value, rest)) :
    parseFields (fuel + 1) (quote key ++ ':' :: (text ++ rest)) =
      match skipBlank rest with
      | ',' :: rest => (parseFields fuel rest).map fun (fields, rest) => ((key, value) :: fields, rest)
      | '}' :: rest => some ([(key, value)], rest)
      | _ => none := by
  have front : quote key ++ ':' :: (text ++ rest) = '"' :: (key.flatMap quoteChar ++ '"' :: ':' :: (text ++ rest)) := by
    rw [quote, List.cons_append, List.append_assoc]
    rfl
  rw [parseFields, front, skipBlank_cons (by decide)]
  change (readUnits (key.flatMap quoteChar ++ '"' :: ':' :: (text ++ rest))).bind _ = _
  rw [readUnits_quoted, Option.bind_some]
  change (parseValue fuel (text ++ rest)).bind _ = _
  rw [inner, Option.bind_some]
  simp only [ofUtf16_units]

mutual

theorem parseValue_text : (v : JsonValue) → {fuel : Nat} → 2 * (v.text numbers).length < fuel → {rest : List Char} → Ends rest →
    parseValue fuel (v.text numbers ++ rest) = some (v.rounded numbers, rest)
  | _, 0, never, _, _ => absurd never (Nat.not_lt_zero _)
  | .null, fuel + 1, _, rest, _ => by rw [parseValue]; rfl
  | .bool true, fuel + 1, _, rest, _ => by rw [parseValue]; rfl
  | .bool false, fuel + 1, _, rest, _ => by rw [parseValue]; rfl
  | .num d, fuel + 1, _, rest, ends => parseValue_num fuel d ends
  | .str cs, fuel + 1, _, rest, _ => parseValue_quote fuel cs rest
  | .arr [], fuel + 1, _, rest, _ => by rw [parseValue]; rfl
  | .obj [], fuel + 1, _, rest, _ => by rw [parseValue]; rfl
  | .arr (item :: items), fuel + 1, enough, rest, _ => by
    rw [JsonValue.text, List.length_cons, List.length_append, List.length_singleton] at enough
    exact parseValue_arr (parseItems_text item items (by omega) rest)
  | .obj (field :: fields), fuel + 1, enough, rest, _ => by
    rw [JsonValue.text, List.length_cons, List.length_append, List.length_singleton] at enough
    exact parseValue_obj (parseFields_text field fields (by omega) rest)

theorem parseItems_text : (item : JsonValue) → (items : List JsonValue) → {fuel : Nat} →
    2 * (JsonValue.itemsText numbers (item :: items)).length + 1 < fuel → (rest : List Char) →
    parseItems fuel (JsonValue.itemsText numbers (item :: items) ++ ']' :: rest) =
      some (JsonValue.roundedItems numbers (item :: items), rest)
  | _, _, 0, never, _ => absurd never (Nat.not_lt_zero _)
  | item, [], fuel + 1, enough, rest => by
    have last : JsonValue.itemsText numbers [item] = item.text numbers := rfl
    rw [last] at enough ⊢
    rw [parseItems, parseValue_text item (by omega) (ends_cons (by decide)), Option.bind_some]
    rfl
  | item, next :: items, fuel + 1, enough, rest => by
    rw [itemsText_cons, List.length_append, List.length_cons] at enough
    have later := @parseItems_text next items fuel (by omega) rest
    rw [itemsText_cons, List.append_assoc, List.cons_append, parseItems,
      parseValue_text item (by omega) (ends_cons (by decide)), Option.bind_some]
    change (parseItems fuel (JsonValue.itemsText numbers (next :: items) ++ ']' :: rest)).map _ = _
    rw [later]
    rfl

theorem parseFields_text : (field : List Char × JsonValue) → (fields : List (List Char × JsonValue)) → {fuel : Nat} →
    2 * (JsonValue.fieldsText numbers (field :: fields)).length + 1 < fuel → (rest : List Char) →
    parseFields fuel (JsonValue.fieldsText numbers (field :: fields) ++ '}' :: rest) =
      some (JsonValue.roundedFields numbers (field :: fields), rest)
  | _, _, 0, never, _ => absurd never (Nat.not_lt_zero _)
  | (key, value), [], fuel + 1, enough, rest => by
    have last : JsonValue.fieldsText numbers [(key, value)] = quote key ++ ':' :: value.text numbers := rfl
    rw [last, List.length_append, List.length_cons] at enough
    rw [last, List.append_assoc, List.cons_append, parseFields_front (parseValue_text value (by omega) (ends_cons (by decide)))]
    rfl
  | (key, value), next :: fields, fuel + 1, enough, rest => by
    rw [fieldsText_cons, List.length_append, List.length_cons, List.length_append, List.length_cons] at enough
    dsimp only at enough
    have later := @parseFields_text next fields fuel (by omega) rest
    rw [fieldsText_cons, List.append_assoc, List.cons_append, List.append_assoc, List.cons_append,
      parseFields_front (parseValue_text value (by omega) (ends_cons (by decide)))]
    change (parseFields fuel (JsonValue.fieldsText numbers (next :: fields) ++ '}' :: rest)).map _ = _
    rw [later]
    rfl

end

/-- What `JSON.stringify` writes `JSON.parse` reads. -/
theorem JsonValue.parseJson_text (v : JsonValue) : parseJson (v.text numbers) = some (v.rounded numbers) := by
  have nothing : Ends [] := fun c none => by cases none
  have read := @parseValue_text numbers v (2 * (v.text numbers).length + 2) (by omega) [] nothing
  rw [List.append_nil] at read
  rw [parseJson, read, Option.bind_some]
  rfl

end

/-! ### Trees of whole numbers -/

theorem signed_natAbs (negative : Bool) (n : Nat) : (signed negative n).natAbs = n := by
  unfold signed
  split <;> omega

theorem signed_neg (negative : Bool) (n : Nat) : signed negative n < 0 ↔ negative = true ∧ n ≠ 0 := by
  unfold signed
  split
  · rename_i minus
    constructor
    · intro below
      exact ⟨minus, by omega⟩
    · intro nonzero
      have positive := nonzero.2
      omega
  · rename_i plus
    constructor
    · intro below
      omega
    · intro nonzero
      exact absurd nonzero.1 plus

/-- A runtime that holds whole numbers and no other ones. -/
def wholeNumbers : Numbers where
  held d := if d.power = 0 then some ⟨decide (d.negative = true ∧ d.digits ≠ 0), d.digits, 0⟩ else none
  digits d := intText (signed d.negative d.digits)
  settled := by
    intro d e held
    split at held
    · obtain rfl := Option.some.inj held
      simp
    · cases held
  reads := by
    intro d e rest held ends
    split at held
    · obtain rfl := Option.some.inj held
      rw [parseNumber_intText _ ends, signed_natAbs]
      simp only [signed_neg, decide_eq_true_eq, and_assoc, and_self]
    · cases held

theorem held_whole (n : Int) : wholeNumbers.held ⟨decide (n < 0), n.natAbs, 0⟩ = some ⟨decide (n < 0), n.natAbs, 0⟩ := by
  have sign : (n < 0 ∧ n.natAbs ≠ 0) ↔ n < 0 := by omega
  simp only [wholeNumbers, if_true, decide_eq_true_eq, sign]

theorem digits_whole (n : Int) : wholeNumbers.digits ⟨decide (n < 0), n.natAbs, 0⟩ = intText n := by
  have same : signed (decide (n < 0)) n.natAbs = n := by
    unfold signed
    split
    · rename_i below
      have below := of_decide_eq_true below
      omega
    · rename_i above
      have above := of_decide_eq_false (Bool.not_eq_true _ ▸ above)
      omega
  exact congrArg intText same

mutual

/-- A tree is written as the value behind it. -/
theorem value_text : (v : Json) → v.value.text wholeNumbers = v.text
  | .null => rfl
  | .bool true => rfl
  | .bool false => rfl
  | .num n => by
    rw [Json.value, JsonValue.text, held_whole, Option.elim_some, digits_whole]
    rfl
  | .str s => rfl
  | .arr items => by rw [Json.value, JsonValue.text, itemValues_text items]; rfl
  | .obj fields => by rw [Json.value, JsonValue.text, fieldValues_text fields]; rfl

theorem itemValues_text : (items : List Json) → JsonValue.itemsText wholeNumbers (Json.itemValues items) = Json.itemsText items
  | [] => rfl
  | [item] => value_text item
  | item :: next :: items => by
    have later := itemValues_text (next :: items)
    rw [Json.itemValues] at later ⊢
    rw [Json.itemValues, itemsText_cons, later, value_text item]
    rfl

theorem fieldValues_text : (fields : List (String × Json)) →
    JsonValue.fieldsText wholeNumbers (Json.fieldValues fields) = Json.fieldsText fields
  | [] => rfl
  | [(key, value)] => by
    rw [Json.fieldValues, Json.fieldValues, JsonValue.fieldsText, value_text value]
    rfl
  | (key, value) :: next :: fields => by
    have later := fieldValues_text (next :: fields)
    rw [Json.fieldValues] at later ⊢
    rw [Json.fieldValues, fieldsText_cons, later, value_text value]
    rfl

end

mutual

theorem value_rounded : (v : Json) → v.value.rounded wholeNumbers = v.value
  | .null => rfl
  | .bool _ => rfl
  | .num n => by rw [Json.value, JsonValue.rounded, held_whole]; rfl
  | .str _ => rfl
  | .arr items => by rw [Json.value, JsonValue.rounded, itemValues_rounded items]
  | .obj fields => by rw [Json.value, JsonValue.rounded, fieldValues_rounded fields]

theorem itemValues_rounded : (items : List Json) → JsonValue.roundedItems wholeNumbers (Json.itemValues items) = Json.itemValues items
  | [] => rfl
  | item :: items => by rw [Json.itemValues, JsonValue.roundedItems, value_rounded item, itemValues_rounded items]

theorem fieldValues_rounded : (fields : List (String × Json)) →
    JsonValue.roundedFields wholeNumbers (Json.fieldValues fields) = Json.fieldValues fields
  | [] => rfl
  | (key, value) :: fields => by
    rw [Json.fieldValues, JsonValue.roundedFields, value_rounded value, fieldValues_rounded fields]

end

theorem text_head (v : Json) : ∃ c rest, v.text = c :: rest ∧ isJsonSpace c = false ∧ c ≠ ']' ∧ c ≠ '}' :=
  value_text v ▸ v.value.text_head

/-- A tree written reads as the value behind it. -/
theorem parseJson_text (v : Json) : parseJson v.text = some v.value := by
  rw [← value_text v, JsonValue.parseJson_text, value_rounded]

/-! ### A text of one line -/

theorem quoteChar_visible (c : Char) : ∀ d ∈ quoteChar c, 0x20 ≤ d.toNat := by
  have hex : ∀ n < 0x20, 0x20 ≤ (hexDigit (n / 16)).toNat ∧ 0x20 ≤ (hexDigit (n % 16)).toNat := by decide
  unfold quoteChar
  split_ifs with quoted slash backspace tab newline formFeed carriage small
  · exact forall_mem_of_all (by decide)
  · exact forall_mem_of_all (by decide)
  · exact forall_mem_of_all (by decide)
  · exact forall_mem_of_all (by decide)
  · exact forall_mem_of_all (by decide)
  · exact forall_mem_of_all (by decide)
  · exact forall_mem_of_all (by decide)
  · simpa using hex c.toNat small
  · simpa using small

theorem quote_visible {cs : List Char} {c : Char} (member : c ∈ quote cs) : 0x20 ≤ c.toNat := by
  rcases List.mem_cons.mp member with rfl | inside
  · decide
  · rcases List.mem_append.mp inside with text | close
    · obtain ⟨d, -, escaped⟩ := List.mem_flatMap.mp text
      exact quoteChar_visible d c escaped
    · rw [List.mem_singleton.mp close]
      decide

mutual

/-- No control character stands in what `JSON.stringify` writes. -/
theorem text_visible : (v : Json) → ∀ c ∈ v.text, 0x20 ≤ c.toNat
  | .null => forall_mem_of_all (by decide)
  | .bool true => forall_mem_of_all (by decide)
  | .bool false => forall_mem_of_all (by decide)
  | .num n => by
    intro c member
    rw [Json.text, intText] at member
    rcases List.mem_append.mp member with sign | digit
    · split at sign
      · rw [List.mem_singleton.mp sign]
        decide
      · cases sign
    · have bounds := isDigit_iff.mp (Nat.isDigit_of_mem_toDigits (by omega) (by omega) digit)
      omega
  | .str s => fun c member => quote_visible member
  | .arr items => by
    intro c member
    rcases List.mem_cons.mp member with rfl | inside
    · decide
    · rcases List.mem_append.mp inside with item | close
      · exact itemsText_visible items c item
      · rw [List.mem_singleton.mp close]
        decide
  | .obj fields => by
    intro c member
    rcases List.mem_cons.mp member with rfl | inside
    · decide
    · rcases List.mem_append.mp inside with field | close
      · exact fieldsText_visible fields c field
      · rw [List.mem_singleton.mp close]
        decide

theorem itemsText_visible : (items : List Json) → ∀ c ∈ Json.itemsText items, 0x20 ≤ c.toNat
  | [] => fun c none => by cases none
  | [item] => text_visible item
  | item :: next :: items => by
    intro c member
    rw [Json.itemsText.eq_3 _ _ (by intro none; cases none)] at member
    rcases List.mem_append.mp member with first | rest
    · exact text_visible item c first
    · rcases List.mem_cons.mp rest with rfl | later
      · decide
      · exact itemsText_visible (next :: items) c later

theorem fieldsText_visible : (fields : List (String × Json)) → ∀ c ∈ Json.fieldsText fields, 0x20 ≤ c.toNat
  | [] => fun c none => by cases none
  | [(key, value)] => by
    intro c member
    rcases List.mem_append.mp member with name | rest
    · exact quote_visible name
    · rcases List.mem_cons.mp rest with rfl | later
      · decide
      · exact text_visible value c later
  | (key, value) :: next :: fields => by
    intro c member
    rw [Json.fieldsText.eq_3 _ _ _ (by intro none; cases none)] at member
    rcases List.mem_append.mp member with name | rest
    · exact quote_visible name
    · rcases List.mem_cons.mp rest with rfl | later
      · decide
      · rcases List.mem_append.mp later with first | more
        · exact text_visible value c first
        · rcases List.mem_cons.mp more with rfl | others
          · decide
          · exact fieldsText_visible (next :: fields) c others

end

end GroupButler.Foundation
