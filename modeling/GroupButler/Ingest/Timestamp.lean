import Mathlib.Tactic.Linarith
import Mathlib.Tactic.Positivity
import GroupButler.Foundation.Decimal
import GroupButler.Groups.Snapshot
import GroupButler.Ingest.External

/-!
# The timestamp of a bridge event

The one field of an event that arrives in several shapes: seconds or milliseconds, as a number, a text of one,
or the two words of a long. An event whose timestamp does not decode is refused whole.
-/

namespace GroupButler.Ingest
open Foundation Store Groups

/-- Go leaves the conversion of a double beyond 64 bits to the platform. -/
class Int64Conversion where
  beyond : Int → Int

def toInt64 [Int64Conversion] (n : Int) : Int := if -(2 ^ 63) ≤ n ∧ n < 2 ^ 63 then n else Int64Conversion.beyond n

/-- The field as it stands in the payload: a number and a text as they are written. -/
inductive TimestampJson where
  | absent
  | null
  | bool (value : Bool)
  | number (text : List Char)
  | str (body : List Char)
  | arr
  | obj (fields : List (String × Json))

/-- The bytes handed to `UnmarshalJSON`, without what brackets hold. -/
def TimestampJson.data : TimestampJson → List Char
  | .absent => []
  | .null => "null".toList
  | .bool value => (toString value).toList
  | .number text => text
  | .str body => '"' :: body ++ ['"']
  | .arr => ['[', ']']
  | .obj _ => ['{', '}']

/-- A field of Go's `uint32` or `int32`. -/
def decodeWord (least beyond old : Int) : Json → Option Int
  | .num value => if least ≤ value ∧ value < beyond then some value else none
  | .null => some old
  | _ => none

def decodeLow (old : Int) (field : String × Json) : Option Int := decodeWord 0 (2 ^ 32) old field.2

def decodeHigh (old : Int) (field : String × Json) : Option Int := decodeWord (-(2 ^ 31)) (2 ^ 31) old field.2

def isLow (field : String × Json) : Bool := foldName field.1 == "low"

def isHigh (field : String × Json) : Bool := foldName field.1 == "high"

/-- One key of `{Low uint32; High int32}`. -/
def decodeLongField (long : Int × Int) (field : String × Json) : Option (Int × Int) :=
  if isLow field then (decodeLow long.1 field).map fun low => (low, long.2)
  else if isHigh field then (decodeHigh long.2 field).map fun high => (long.1, high)
  else some long

def decodeLong (fields : List (String × Json)) : Option (Int × Int) := fields.foldlM decodeLongField (0, 0)

/-- `externalTimestamp.UnmarshalJSON`, with `none` for an error. A field that is absent keeps its zero. -/
def unmarshalTimestamp [Int64Conversion] (value : TimestampJson) : Option Int :=
  match value with
  | .absent => some 0
  | value =>
    let trimmed := (trimChars (· == '"') (goTrimSpace (String.ofList value.data))).toList
    match parseInt64 trimmed with
    | some seconds => some seconds
    | none =>
      match parseFloat trimmed with
      | some seconds => some (toInt64 seconds)
      | none =>
        match value with
        | .obj fields => (decodeLong fields).map fun long => long.2 * 2 ^ 32 + long.1
        | _ => none

/-- `POST /ingest`, up to the document, for a payload whose other fields are those of `evt`. -/
def ingestPayload [Unicode] [Int64Conversion] (limits : RawLimits) (evt : ExternalEvent) (timestamp : TimestampJson)
    (organizationId instanceId : String) (receivedAt : Time) : Option MessageDoc :=
  (unmarshalTimestamp timestamp).bind fun seconds =>
    (externalDoc limits { evt with timestamp := seconds } organizationId instanceId receivedAt).toOption

/-! ### Longs -/

/-- An object as long.js writes it: each word once, as a signed 32-bit integer. -/
structure LongJs (fields : List (String × Json)) (low high : Int) : Prop where
  lowOnce : fields.filter isLow = [("low", .num low)]
  highOnce : fields.filter isHigh = [("high", .num high)]
  lowSigned : -(2 ^ 31) ≤ low ∧ low < 2 ^ 31
  highSigned : -(2 ^ 31) ≤ high ∧ high < 2 ^ 31

theorem isHigh_of_isLow {field : String × Json} (low : isLow field = true) : isHigh field = false := by
  unfold isLow at low
  unfold isHigh
  rw [eq_of_beq low]
  decide

/-- The two words do not meet: each is decoded from its own keys. -/
theorem foldlM_decodeLongField (fields : List (String × Json)) (low high : Int) :
    fields.foldlM decodeLongField (low, high) =
      ((fields.filter isLow).foldlM decodeLow low).bind fun low =>
        ((fields.filter isHigh).foldlM decodeHigh high).map fun high => (low, high) := by
  induction fields generalizing low high with
  | nil => rfl
  | cons field fields ih =>
    rw [List.foldlM_cons, decodeLongField]
    cases isLow_ : isLow field with
    | true =>
      rw [if_pos rfl, List.filter_cons_of_pos isLow_, List.filter_cons_of_neg (by simp [isHigh_of_isLow isLow_]),
        List.foldlM_cons]
      cases decodeLow low field with
      | none => rfl
      | some low => exact ih low high
    | false =>
      rw [if_neg Bool.false_ne_true, List.filter_cons_of_neg (by simp [isLow_])]
      cases isHigh_ : isHigh field with
      | true =>
        rw [if_pos rfl, List.filter_cons_of_pos isHigh_, List.foldlM_cons]
        cases decodeHigh high field with
        | none =>
          cases (fields.filter isLow).foldlM decodeLow low <;> rfl
        | some high => exact ih low high
      | false =>
        rw [if_neg Bool.false_ne_true, List.filter_cons_of_neg (by simp [isHigh_])]
        exact ih low high

theorem decodeLong_words {fields : List (String × Json)} {low high : Int} (words : LongJs fields low high) :
    decodeLong fields = if 0 ≤ low then some (low, high) else none := by
  obtain ⟨lows, highs, lowSigned, highSigned⟩ := words
  have read : decodeHigh 0 ("high", .num high) = some high := if_pos highSigned
  rw [decodeLong, foldlM_decodeLongField, lows, highs]
  simp only [List.foldlM_cons, List.foldlM_nil, read]
  by_cases nonnegative : 0 ≤ low
  · have taken : decodeLow 0 ("low", .num low) = some low := if_pos ⟨nonnegative, by omega⟩
    rw [taken, if_pos nonnegative]
    rfl
  · have refused : decodeLow 0 ("low", .num low) = none := if_neg fun bounds => nonnegative bounds.1
    rw [refused, if_neg nonnegative]
    rfl

/-! ### Texts -/

theorem splitSign_mem {cs : List Char} {c : Char} (member : c ∈ cs) : c ∈ ['+', '-'] ∨ c ∈ (splitSign cs).2 := by
  unfold splitSign
  split
  · rcases List.mem_cons.mp member with rfl | rest
    · exact Or.inl (by decide)
    · exact Or.inr rest
  · rcases List.mem_cons.mp member with rfl | rest
    · exact Or.inl (by decide)
    · exact Or.inr rest
  · exact Or.inr member

theorem splitFraction_mem {cs : List Char} {c : Char} (member : c ∈ cs) :
    c = '.' ∨ c.isDigit = true ∨ c ∈ (splitFraction cs).2 := by
  unfold splitFraction
  split
  · rename_i rest
    rcases List.mem_cons.mp member with rfl | later
    · exact Or.inl rfl
    · rw [← List.takeWhile_append_dropWhile (p := Char.isDigit) (l := rest)] at later
      rcases List.mem_append.mp later with digit | after
      · exact Or.inr (Or.inl (List.mem_takeWhile_imp digit))
      · exact Or.inr (Or.inr after)
  · exact Or.inr (Or.inr member)

theorem readPower_mem {cs : List Char} {power : Int} (read : readPower cs = some power) {c : Char} (member : c ∈ cs) :
    c ∈ ['e', 'E', '+', '-'] ∨ c.isDigit = true := by
  cases cs with
  | nil => cases member
  | cons e rest =>
    unfold readPower at read
    dsimp only at read
    split at read
    · rename_i shape
      simp only [Bool.and_eq_true, Bool.or_eq_true, beq_iff_eq, List.all_eq_true] at shape
      rcases List.mem_cons.mp member with rfl | later
      · rcases shape.1.1 with rfl | rfl <;> exact Or.inl (by decide)
      · rcases splitSign_mem later with sign | digit
        · rcases List.mem_cons.mp sign with rfl | sign
          · exact Or.inl (by decide)
          · obtain rfl := List.mem_singleton.mp sign
            exact Or.inl (by decide)
        · exact Or.inr (shape.2 c digit)
    · cases read

/-- No blank and no quote is part of a number. -/
theorem readDecimal_plain {cs : List Char} {d : Decimal} (read : readDecimal cs = some d) :
    ∀ c ∈ cs, isGoSpace c = false ∧ (c == '"') = false := by
  intro c member
  have shape : c ∈ ['+', '-', '.', 'e', 'E'] ∨ c.isDigit = true := by
    unfold readDecimal at read
    dsimp only at read
    split at read
    · cases read
    · obtain ⟨power, powerRead, -⟩ := Option.map_eq_some_iff.mp read
      rcases splitSign_mem member with sign | unsigned
      · left
        rcases List.mem_cons.mp sign with rfl | sign
        · decide
        · obtain rfl := List.mem_singleton.mp sign
          decide
      · rw [← List.takeWhile_append_dropWhile (p := Char.isDigit) (l := (splitSign cs).2)] at unsigned
        rcases List.mem_append.mp unsigned with digit | rest
        · exact Or.inr (List.mem_takeWhile_imp digit)
        · rcases splitFraction_mem rest with rfl | digit | after
          · exact Or.inl (by decide)
          · exact Or.inr digit
          · rcases readPower_mem powerRead after with mark | digit
            · left
              simp only [List.mem_cons, List.not_mem_nil, or_false] at mark ⊢
              tauto
            · exact Or.inr digit
  rcases shape with mark | digit
  · simp only [List.mem_cons, List.not_mem_nil, or_false] at mark
    rcases mark with rfl | rfl | rfl | rfl | rfl <;> decide
  · have code := isDigit_iff.mp digit
    constructor
    · rw [Bool.eq_false_iff]
      intro blank
      have apart := blank_code (Or.inl blank)
      omega
    · rw [beq_eq_false_iff_ne]
      rintro rfl
      exact absurd code.1 (by decide)

theorem trimChars_plain {space : Char → Bool} {cs : List Char} (plain : ∀ c ∈ cs, space c = false) :
    trimChars space (String.ofList cs) = String.ofList cs := by
  apply trimChars_of_ends
  · intro c first
    rw [String.toList_ofList] at first
    exact plain c (List.mem_of_mem_head? first)
  · intro c last
    rw [String.toList_ofList] at last
    exact plain c (List.mem_of_getLast? last)

theorem trim_number {text : List Char} {d : Decimal} (read : readDecimal text = some d) :
    (trimChars (· == '"') (goTrimSpace (String.ofList text))).toList = text := by
  have plain := readDecimal_plain read
  rw [goTrimSpace, trimChars_plain fun c member => (plain c member).1, trimChars_plain fun c member => (plain c member).2,
    String.toList_ofList]

/-- The quotes come off, and nothing else. -/
theorem trim_str {body : List Char} {d : Decimal} (read : readDecimal body = some d) :
    (trimChars (· == '"') (goTrimSpace (String.ofList ('"' :: body ++ ['"'])))).toList = body := by
  have plain := readDecimal_plain read
  have spaced : goTrimSpace (String.ofList ('"' :: body ++ ['"'])) = String.ofList ('"' :: body ++ ['"']) := by
    apply trimChars_of_ends
    · intro c first
      rw [String.toList_ofList] at first
      obtain rfl := Option.some.inj first
      decide
    · intro c last
      rw [String.toList_ofList, List.getLast?_concat] at last
      obtain rfl := Option.some.inj last
      decide
  have some_ : body ≠ [] := by
    rintro rfl
    cases read
  have bare : (body ++ ['"']).dropWhile (· == '"') = body ++ ['"'] := by
    apply dropWhile_of_head
    intro c first
    rw [List.head?_append_of_ne_nil _ some_] at first
    exact (plain c (List.mem_of_mem_head? first)).2
  have back : body.reverse.dropWhile (· == '"') = body.reverse := by
    apply dropWhile_of_head
    intro c last
    exact (plain c (List.mem_reverse.mp (List.mem_of_mem_head? last))).2
  rw [spaced, trimChars, String.toList_ofList, String.toList_ofList, List.cons_append, List.dropWhile_cons_of_pos (by decide), bare,
    List.reverse_append, List.reverse_singleton, List.singleton_append, List.dropWhile_cons_of_pos (by decide), back,
    List.reverse_reverse]

/-! ### What decodes -/

section
variable [Int64Conversion]

/-- A number, or a text of one. -/
def parseTimestamp (text : List Char) : Option Int := (parseInt64 text).or ((parseFloat text).map toInt64)

theorem unmarshal_number {text : List Char} {d : Decimal} (read : readDecimal text = some d) :
    unmarshalTimestamp (.number text) = parseTimestamp text := by
  unfold unmarshalTimestamp parseTimestamp
  dsimp only [TimestampJson.data]
  rw [trim_number read]
  cases parseInt64 text with
  | some seconds => rfl
  | none => cases parseFloat text <;> rfl

theorem unmarshal_str {body : List Char} {d : Decimal} (read : readDecimal body = some d) :
    unmarshalTimestamp (.str body) = parseTimestamp body := by
  unfold unmarshalTimestamp parseTimestamp
  dsimp only [TimestampJson.data]
  rw [trim_str read]
  cases parseInt64 body with
  | some seconds => rfl
  | none => cases parseFloat body <;> rfl

theorem unmarshal_null : unmarshalTimestamp .null = none := by
  have word : (trimChars (· == '"') (goTrimSpace (String.ofList "null".toList))).toList = "null".toList := by decide
  have noInt : parseInt64 "null".toList = none := by decide
  have noFloat : parseFloat "null".toList = none := by decide
  unfold unmarshalTimestamp
  dsimp only [TimestampJson.data]
  rw [word, noInt, noFloat]

theorem unmarshal_obj {fields : List (String × Json)} {low high : Int} (words : LongJs fields low high) :
    unmarshalTimestamp (.obj fields) = if 0 ≤ low then some (high * 2 ^ 32 + low) else none := by
  have braces : (trimChars (· == '"') (goTrimSpace (String.ofList ['{', '}']))).toList = ['{', '}'] := by decide
  have noInt : parseInt64 ['{', '}'] = none := by decide
  have noFloat : parseFloat ['{', '}'] = none := by decide
  unfold unmarshalTimestamp
  dsimp only [TimestampJson.data]
  rw [braces, noInt, noFloat, decodeLong_words words]
  dsimp only
  by_cases nonnegative : 0 ≤ low
  · rw [if_pos nonnegative, if_pos nonnegative]
    rfl
  · rw [if_neg nonnegative, if_neg nonnegative]
    rfl

end

/-! ### The instant -/

/-- The values the bridge and its clients are known to write. -/
inductive Listed : TimestampJson → Prop where
  | absent : Listed .absent
  | null : Listed .null
  | number {text : List Char} {d : Decimal} (read : readDecimal text = some d) : Listed (.number text)
  | str {body : List Char} {d : Decimal} (read : readDecimal body = some d) : Listed (.str body)
  | obj {fields : List (String × Json)} {low high : Int} (words : LongJs fields low high) : Listed (.obj fields)

/-- The 64-bit value that is written. -/
inductive Encodes : TimestampJson → Int → Prop where
  | number {text : List Char} {d : Decimal} {value : Int} (read : readDecimal text = some d) (denotes : d.Denotes value)
      (range : -(2 ^ 63) ≤ value ∧ value < 2 ^ 63) : Encodes (.number text) value
  | str {body : List Char} {d : Decimal} {value : Int} (read : readDecimal body = some d) (denotes : d.Denotes value)
      (range : -(2 ^ 63) ≤ value ∧ value < 2 ^ 63) : Encodes (.str body) value
  | obj {fields : List (String × Json)} {low high : Int} (words : LongJs fields low high) :
      Encodes (.obj fields) (high * 2 ^ 32 + low % 2 ^ 32)

theorem externalTimestampAt_seconds {value : Int} (positive : 0 < value) (small : value < millisecondsEpoch) (receivedAt : Time) :
    (externalTimestampAt value receivedAt).1 = value * 1000 := by
  rw [externalTimestampAt, if_neg (by omega), if_neg (by omega)]

theorem externalTimestampAt_milliseconds {value : Int} (large : millisecondsEpoch ≤ value) (receivedAt : Time) :
    (externalTimestampAt value receivedAt).1 = value / 1000 * 1000 := by
  have positive : ¬ value ≤ 0 := by
    unfold millisecondsEpoch at large
    omega
  rw [externalTimestampAt, if_neg positive, if_pos large]

theorem externalTimestampAt_unusable {value : Int} (unusable : value ≤ 0) (receivedAt : Time) :
    (externalTimestampAt value receivedAt).1 = receivedAt := by
  rw [externalTimestampAt, if_pos unusable]

/-! ### Doubles of whole numbers -/

theorem nearestFloat64_natCast (n : Nat) :
    nearestFloat64 n = ((roundHalfEven n (2 ^ (n.log2 - 52)) * 2 ^ (n.log2 - 52) : Nat) : Int) := by
  have rest : n - n / 2 ^ (n.log2 - 52) * 2 ^ (n.log2 - 52) = n % 2 ^ (n.log2 - 52) := by
    have parts := Nat.div_add_mod' n (2 ^ (n.log2 - 52))
    omega
  unfold nearestFloat64 roundHalfEven
  dsimp only
  rw [Int.natAbs_natCast, rest, if_neg (by omega)]
  split
  · rfl
  · rw [Nat.add_mul, Nat.one_mul]

theorem nearestFloat64_small {n : Nat} (small : n < 2 ^ 53) : nearestFloat64 n = n := by
  have grid : n.log2 - 52 = 0 := by
    by_cases nought : n = 0
    · rw [nought]
      rfl
    · have bits := (Nat.log2_lt nought).mpr small
      omega
  rw [nearestFloat64_natCast, grid, Nat.pow_zero, Nat.mul_one, roundHalfEven_exact (Nat.mod_one n) Nat.one_pos, Nat.div_one]

/-- However a positive whole number is written, its double is the one nearest to it. -/
theorem signed_wholeDouble {d : Decimal} {value : Int} (denotes : d.Denotes value) (positive : 0 < value) :
    signed d.negative (wholeDouble d.num d.den) = nearestFloat64 value := by
  have den : 0 < d.den := Nat.pow_pos (by decide)
  unfold Decimal.Denotes at denotes
  have size : (0 : Int) < value * d.den := Int.mul_pos positive (by omega)
  cases negative : d.negative with
  | true =>
    rw [negative, signed, if_pos rfl] at denotes
    omega
  | false =>
    rw [negative, signed, if_neg Bool.false_ne_true] at denotes
    obtain ⟨n, rfl⟩ := Int.eq_ofNat_of_zero_le positive.le
    have same : d.num = n * d.den := by exact_mod_cast denotes
    rw [signed, if_neg Bool.false_ne_true, same]
    by_cases small : n < 2 ^ 53
    · rw [wholeDouble_exact small den, nearestFloat64_small small]
    · rw [wholeDouble_whole (Nat.le_of_not_lt small) den, nearestFloat64_natCast]

theorem nearestFloat64_le {n : Nat} (bound : n ≤ 2 ^ 63) : nearestFloat64 n ≤ 2 ^ 63 := by
  have grid : n.log2 - 52 ≤ 63 := by
    by_cases nought : n = 0
    · rw [nought]
      decide
    · have bits := (Nat.log2_lt nought).mpr (Nat.lt_of_le_of_lt bound (by decide : 2 ^ 63 < 2 ^ 64))
      omega
  have split : (2 : Nat) ^ 63 = 2 ^ (63 - (n.log2 - 52)) * 2 ^ (n.log2 - 52) := by
    rw [← Nat.pow_add, Nat.sub_add_cancel grid]
  rw [nearestFloat64_natCast]
  have rounded := roundHalfEven_le (Nat.two_pow_pos (n.log2 - 52)) (bound.trans_eq split)
  have scaled := Nat.mul_le_mul_right (2 ^ (n.log2 - 52)) rounded
  rw [← split] at scaled
  exact_mod_cast scaled

/-- A number that is not positive stays so, and within 64 bits. -/
theorem signed_wholeDouble_nonpos {d : Decimal} {value : Int} (denotes : d.Denotes value) (unusable : value ≤ 0)
    (range : -(2 ^ 63) ≤ value) :
    -(2 ^ 63) ≤ signed d.negative (wholeDouble d.num d.den) ∧ signed d.negative (wholeDouble d.num d.den) ≤ 0 := by
  have den : 0 < d.den := Nat.pow_pos (by decide)
  obtain ⟨n, size⟩ := Int.eq_ofNat_of_zero_le (show 0 ≤ -value by omega)
  obtain rfl : value = -(n : Int) := by omega
  have whole : (wholeDouble (n * d.den) d.den : Int) = nearestFloat64 n := by
    by_cases small : n < 2 ^ 53
    · rw [wholeDouble_exact small den, nearestFloat64_small small]
    · rw [wholeDouble_whole (Nat.le_of_not_lt small) den, nearestFloat64_natCast]
  have bound : nearestFloat64 n ≤ 2 ^ 63 := nearestFloat64_le (by omega)
  unfold Decimal.Denotes at denotes
  cases negative : d.negative with
  | true =>
    rw [negative, signed, if_pos rfl] at denotes
    have same : d.num = n * d.den := by
      have flipped : (d.num : Int) = n * d.den := by linarith
      exact_mod_cast flipped
    rw [signed, if_pos rfl, same, whole]
    constructor
    · omega
    · rw [← whole]
      omega
  | false =>
    rw [negative, signed, if_neg Bool.false_ne_true] at denotes
    have nought : d.num = 0 * d.den := by
      have none : (n : Int) * d.den ≥ 0 := by positivity
      rw [neg_mul] at denotes
      omega
    rw [nought, wholeDouble_exact (by decide) den]
    decide

/-! ### Events -/

section
variable [Unicode] {limits : RawLimits} {evt : ExternalEvent} {organizationId instanceId : String} {receivedAt : Time}
  {doc : MessageDoc}

theorem externalDoc_timestamp (accepted : externalDoc limits evt organizationId instanceId receivedAt = .ok doc) :
    doc.timestamp = (externalTimestampAt evt.timestamp receivedAt).1 := by
  unfold externalDoc at accepted
  dsimp only at accepted
  split at accepted
  · cases accepted
  · rw [← Except.ok.inj accepted]

theorem externalDoc_identified (limits : RawLimits) (organizationId instanceId : String) (receivedAt : Time)
    (messageId : goTrimSpace evt.messageId ≠ "") (chatId : goTrimSpace evt.chatId ≠ "") :
    ∃ doc, externalDoc limits evt organizationId instanceId receivedAt = .ok doc := by
  unfold externalDoc
  dsimp only
  rw [if_neg (not_or.mpr ⟨messageId, chatId⟩)]
  exact ⟨_, rfl⟩

variable [Int64Conversion] {timestamp : TimestampJson}

theorem ingestPayload_some (taken : ingestPayload limits evt timestamp organizationId instanceId receivedAt = some doc) :
    ∃ seconds, unmarshalTimestamp timestamp = some seconds ∧ doc.timestamp = (externalTimestampAt seconds receivedAt).1 := by
  unfold ingestPayload at taken
  cases read : unmarshalTimestamp timestamp with
  | none =>
    rw [read] at taken
    cases taken
  | some seconds =>
    rw [read, Option.bind_some] at taken
    cases made : externalDoc limits { evt with timestamp := seconds } organizationId instanceId receivedAt with
    | error _ =>
      rw [made] at taken
      cases taken
    | ok doc' =>
      rw [made] at taken
      obtain rfl := Option.some.inj taken
      exact ⟨seconds, rfl, externalDoc_timestamp made⟩

theorem ingestPayload_identified {seconds : Int} (read : unmarshalTimestamp timestamp = some seconds) (limits : RawLimits)
    (organizationId instanceId : String) (receivedAt : Time) (messageId : goTrimSpace evt.messageId ≠ "")
    (chatId : goTrimSpace evt.chatId ≠ "") :
    ∃ doc, ingestPayload limits evt timestamp organizationId instanceId receivedAt = some doc := by
  obtain ⟨doc, made⟩ := @externalDoc_identified _ { evt with timestamp := seconds } limits organizationId instanceId receivedAt
    messageId chatId
  refine ⟨doc, ?_⟩
  rw [ingestPayload, read, Option.bind_some, made]
  rfl

end

/-- The first second of 2001. -/
def start2001 : Int := 978307200

/-- An event is taken whatever its timestamp, and filed at the instant that was meant. -/
structure TimestampKept [Unicode] [Int64Conversion] (evt : ExternalEvent) (timestamp : TimestampJson) : Prop where
  taken : ∀ limits organizationId instanceId receivedAt,
    ∃ doc, ingestPayload limits evt timestamp organizationId instanceId receivedAt = some doc
  instant : ∀ value, Encodes timestamp value → ∀ limits organizationId instanceId receivedAt doc,
    ingestPayload limits evt timestamp organizationId instanceId receivedAt = some doc →
      doc.timestamp = (externalTimestampAt value receivedAt).1
  seconds : ∀ value, Encodes timestamp value → start2001 ≤ value → value < millisecondsEpoch →
    ∀ limits organizationId instanceId receivedAt doc,
      ingestPayload limits evt timestamp organizationId instanceId receivedAt = some doc → doc.timestamp = value * 1000
  milliseconds : ∀ value, Encodes timestamp value → start2001 * 1000 ≤ value → value < millisecondsEpoch * 1000 →
    ∀ limits organizationId instanceId receivedAt doc,
      ingestPayload limits evt timestamp organizationId instanceId receivedAt = some doc → doc.timestamp = value / 1000 * 1000

/-- The value that is decoded serves for the one that was written. -/
def Serves (decoded value : Int) : Prop :=
  ∀ receivedAt, (externalTimestampAt decoded receivedAt).1 = (externalTimestampAt value receivedAt).1

/-- A long serves wherever its low word is not negative. -/
theorem long_serves {low high : Int} (lowSigned : -(2 ^ 31) ≤ low ∧ low < 2 ^ 31) (nonnegative : 0 ≤ low) :
    Serves (high * 2 ^ 32 + low) (high * 2 ^ 32 + low % 2 ^ 32) := by
  have word : low % 2 ^ 32 = low := Int.emod_eq_of_lt nonnegative (by omega)
  rw [word]
  exact fun _ => rfl

theorem longJs_unique {fields : List (String × Json)} {low high low' high' : Int} (words : LongJs fields low high)
    (words' : LongJs fields low' high') : low = low' ∧ high = high' := by
  have lows := words.lowOnce.symm.trans words'.lowOnce
  have highs := words.highOnce.symm.trans words'.highOnce
  simp only [List.cons.injEq, Prod.mk.injEq, Json.num.injEq, true_and, and_true] at lows highs
  exact ⟨lows, highs⟩

section
variable [Int64Conversion]

/-- A text of digits alone, or a decimal that a double holds to the second. -/
def ReadableText (text : List Char) : Prop :=
  (parseInt64 text).isSome ∨ ∃ d, readDecimal text = some d ∧ wholeDouble d.num d.den < 2 ^ 1024 ∧
    ∀ value, d.Denotes value → 0 < value → value < 2 ^ 63 → toInt64 (nearestFloat64 value) / 1000 = value / 1000

/-- What the decoder has room for: no null, and no long whose low word is negative. -/
def Readable : TimestampJson → Prop
  | .absent => True
  | .number text | .str text => ReadableText text
  | .obj fields => ∀ low high, LongJs fields low high → 0 ≤ low
  | _ => False

theorem toInt64_of_range {n : Int} (low : -(2 ^ 63) ≤ n) (high : n < 2 ^ 63) : toInt64 n = n := if_pos ⟨low, high⟩

/-- A double serves for a whole number where it is in the same second. -/
theorem serves_nearest_iff {value : Int} (positive : 0 < value) (bound : value < 2 ^ 63) :
    Serves (toInt64 (nearestFloat64 value)) value ↔ toInt64 (nearestFloat64 value) / 1000 = value / 1000 := by
  obtain ⟨n, rfl⟩ := Int.eq_ofNat_of_zero_le positive.le
  by_cases small : n < 2 ^ 53
  · rw [nearestFloat64_small small, toInt64_of_range (by omega) bound]
    exact iff_of_true (fun _ => rfl) rfl
  · have large : millisecondsEpoch ≤ (n : Int) := by
      unfold millisecondsEpoch
      omega
    generalize toInt64 (nearestFloat64 n) = decoded
    constructor
    · intro serves
      have here : @Eq Int (externalTimestampAt decoded (-1)).1 (externalTimestampAt n (-1)).1 := serves (-1)
      rw [externalTimestampAt_milliseconds large] at here
      by_cases unusable : decoded ≤ 0
      · rw [externalTimestampAt_unusable unusable] at here
        omega
      · by_cases seconds : decoded < millisecondsEpoch
        · rw [externalTimestampAt_seconds (by omega) seconds] at here
          unfold millisecondsEpoch at seconds
          omega
        · rw [externalTimestampAt_milliseconds (by omega)] at here
          omega
    · intro second receivedAt
      have decodedLarge : millisecondsEpoch ≤ decoded := by
        unfold millisecondsEpoch
        omega
      rw [externalTimestampAt_milliseconds large, externalTimestampAt_milliseconds decodedLarge, second]

theorem readableText_iff {text : List Char} {d : Decimal} (read : readDecimal text = some d) :
    ReadableText text ↔ ∃ decoded, parseTimestamp text = some decoded ∧
      ∀ value, d.Denotes value → -(2 ^ 63) ≤ value ∧ value < 2 ^ 63 → Serves decoded value := by
  cases whole : parseInt64 text with
  | some n =>
    refine iff_of_true (Or.inl (by rw [whole]; rfl)) ⟨n, by rw [parseTimestamp, whole]; rfl, ?_⟩
    obtain ⟨d', read', only⟩ := readDecimal_of_parseInt64 whole
    obtain rfl := Option.some.inj (read.symm.trans read')
    intro value denotes _ receivedAt
    rw [(only value).mp denotes]
  | none =>
    have float : parseFloat text =
        if wholeDouble d.num d.den < 2 ^ 1024 then some (signed d.negative (wholeDouble d.num d.den)) else none := by
      rw [parseFloat, read, Option.bind_some]
    rw [ReadableText, whole, parseTimestamp, whole, float]
    constructor
    · rintro (impossible | ⟨d', read', fits, second⟩)
      · cases impossible
      · obtain rfl := Option.some.inj (read.symm.trans read')
        refine ⟨_, by rw [if_pos fits]; rfl, ?_⟩
        intro value denotes range
        by_cases positive : 0 < value
        · rw [signed_wholeDouble denotes positive]
          exact (serves_nearest_iff positive range.2).mpr (second value denotes positive range.2)
        · obtain ⟨low, high⟩ := signed_wholeDouble_nonpos denotes (by omega) range.1
          intro receivedAt
          rw [toInt64_of_range low (by omega), externalTimestampAt_unusable high, externalTimestampAt_unusable (by omega)]
    · rintro ⟨decoded, parsed, serves⟩
      by_cases fits : wholeDouble d.num d.den < 2 ^ 1024
      · rw [if_pos fits] at parsed
        refine Or.inr ⟨d, read, fits, ?_⟩
        intro value denotes positive bound
        have served := serves value denotes ⟨by omega, bound⟩
        rw [← Option.some.inj parsed, signed_wholeDouble denotes positive] at served
        exact (serves_nearest_iff positive bound).mp served
      · rw [if_neg fits] at parsed
        cases parsed

theorem readable_iff {timestamp : TimestampJson} (listed : Listed timestamp) :
    Readable timestamp ↔ ∃ decoded, unmarshalTimestamp timestamp = some decoded ∧
      ∀ value, Encodes timestamp value → Serves decoded value := by
  cases listed with
  | absent =>
    refine iff_of_true trivial ⟨0, rfl, ?_⟩
    intro value encodes
    cases encodes
  | null =>
    refine iff_of_false id ?_
    rintro ⟨decoded, read, -⟩
    rw [unmarshal_null] at read
    cases read
  | number read =>
    rw [Readable, readableText_iff read, unmarshal_number read]
    constructor
    · rintro ⟨decoded, parsed, serves⟩
      refine ⟨decoded, parsed, ?_⟩
      rintro value (⟨read', denotes, range⟩ | _ | _)
      obtain rfl := Option.some.inj (read.symm.trans read')
      exact serves value denotes range
    · rintro ⟨decoded, parsed, serves⟩
      exact ⟨decoded, parsed, fun value denotes range => serves value (.number read denotes range)⟩
  | str read =>
    rw [Readable, readableText_iff read, unmarshal_str read]
    constructor
    · rintro ⟨decoded, parsed, serves⟩
      refine ⟨decoded, parsed, ?_⟩
      rintro value (_ | ⟨read', denotes, range⟩ | _)
      obtain rfl := Option.some.inj (read.symm.trans read')
      exact serves value denotes range
    · rintro ⟨decoded, parsed, serves⟩
      exact ⟨decoded, parsed, fun value denotes range => serves value (.str read denotes range)⟩
  | @obj fields low high words =>
    rw [unmarshal_obj words]
    constructor
    · intro readable
      have nonnegative := readable low high words
      refine ⟨_, if_pos nonnegative, ?_⟩
      rintro value (_ | _ | words')
      obtain ⟨rfl, rfl⟩ := longJs_unique words words'
      exact long_serves words.lowSigned nonnegative
    · rintro ⟨decoded, read, -⟩ low' high' words'
      obtain ⟨rfl, rfl⟩ := longJs_unique words words'
      by_contra negative
      rw [if_neg negative] at read
      cases read

end

section
variable [Unicode] [Int64Conversion] {evt : ExternalEvent} {timestamp : TimestampJson}

theorem kept_of_serves {decoded : Int} (messageId : goTrimSpace evt.messageId ≠ "") (chatId : goTrimSpace evt.chatId ≠ "")
    (read : unmarshalTimestamp timestamp = some decoded) (serves : ∀ value, Encodes timestamp value → Serves decoded value) :
    TimestampKept evt timestamp := by
  have instant : ∀ value, Encodes timestamp value → ∀ limits organizationId instanceId receivedAt doc,
      ingestPayload limits evt timestamp organizationId instanceId receivedAt = some doc →
        doc.timestamp = (externalTimestampAt value receivedAt).1 := by
    intro value encodes limits organizationId instanceId receivedAt doc taken
    obtain ⟨seconds, read', stored⟩ := ingestPayload_some taken
    obtain rfl := Option.some.inj (read.symm.trans read')
    rw [stored]
    exact serves value encodes receivedAt
  refine ⟨?_, instant, ?_, ?_⟩
  · intro limits organizationId instanceId receivedAt
    exact ingestPayload_identified read limits organizationId instanceId receivedAt messageId chatId
  · intro value encodes low high limits organizationId instanceId receivedAt doc taken
    rw [instant value encodes limits organizationId instanceId receivedAt doc taken]
    unfold start2001 at low
    exact externalTimestampAt_seconds (by omega) high receivedAt
  · intro value encodes low high limits organizationId instanceId receivedAt doc taken
    rw [instant value encodes limits organizationId instanceId receivedAt doc taken]
    unfold start2001 at low
    apply externalTimestampAt_milliseconds
    unfold millisecondsEpoch
    omega

end

/-- What the conversion gives on amd64. -/
@[reducible] def Int64Conversion.amd64 : Int64Conversion := ⟨fun _ => -(2 ^ 63)⟩

end GroupButler.Ingest
