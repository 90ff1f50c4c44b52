import GroupButler.Foundation.Buffer
import GroupButler.Foundation.Frames
import GroupButler.Foundation.Replace

/-!
# The text of an OOXML part

`documentXmlText` is a chain of global replacements: line breaks, then tags, then the named references, then the
decimal and the hexadecimal ones. A character that one of them decodes is text to the next.
-/

namespace GroupButler.Tools.Ooxml
open Foundation

/-- A numeric character reference, refused when out of range. -/
def decodeCodePoint (value : Nat) : List Char :=
  if 0x10FFFF < value ∨ 0xD800 ≤ value ∧ value ≤ 0xDFFF then [] else [Char.ofNat value]

def literalMatch (word written : List Char) : Matcher Char := fun cs =>
  if word.isPrefixOf cs then some (written, word.length - 1) else none

/-- `[^>]*` in front of a `>` -/
def untilClose (cs : List Char) : Option (List Char) := if '>' ∈ cs then some (cs.takeWhile (· ≠ '>')) else none

/-- `\w` -/
def isWordChar (c : Char) : Bool := c.isAlphanum || c = '_'

/-- The name, `\b[^>]*\/>` -/
def emptyTagMatch (name : List Char) (written : Char) : Matcher Char := fun cs =>
  if name.isPrefixOf cs && !(cs.drop name.length).head?.any isWordChar then
    match untilClose (cs.drop name.length) with
    | some body => if body.getLast? = some '/' then some ([written], name.length + body.length) else none
    | none => none
  else none

/-- `/<w:(?:tab|br)\b[^>]*\/>/` -/
def breakMatch : Matcher Char := fun cs => (emptyTagMatch "<w:tab".toList '\t' cs).or (emptyTagMatch "<w:br".toList '\n' cs)

/-- `/<[^>]*>/` -/
def tagMatch : Matcher Char
  | [] => none
  | c :: cs => if c = '<' then (untilClose cs).map fun body => ([], body.length + 1) else none

def isHexDigit (c : Char) : Bool := (hexValue? c).isSome

def numberOf (base : Nat) (digits : List Char) : Nat := digits.foldl (fun n c => n * base + (hexValue? c).getD 0) 0

/-- Digits and a semicolon. -/
def digitsOf (digit : Char → Bool) (cs : List Char) : Option (List Char) :=
  let digits := cs.takeWhile digit
  if digits ≠ [] ∧ (cs.drop digits.length).head? = some ';' then some digits else none

/-- `/&#(\d+);/` -/
def decimalMatch : Matcher Char
  | c :: d :: cs =>
    if c = '&' ∧ d = '#' then (digitsOf Char.isDigit cs).map fun digits => (decodeCodePoint (numberOf 10 digits), digits.length + 2)
    else none
  | _ => none

/-- `/&#x([0-9a-f]+);/i` -/
def hexadecimalMatch : Matcher Char
  | c :: d :: x :: cs =>
    if c = '&' ∧ d = '#' ∧ (x = 'x' ∨ x = 'X') then
      (digitsOf isHexDigit cs).map fun digits => (decodeCodePoint (numberOf 16 digits), digits.length + 3)
    else none
  | _ => none

/-- In the order they are decoded. -/
def namedReferences : List (List Char × Char) :=
  [("&lt;".toList, '<'), ("&gt;".toList, '>'), ("&quot;".toList, '"'), ("&apos;".toList, '\''), ("&amp;".toList, '&')]

def documentXmlText (xml : List Char) : List Char :=
  let text := replaceEach (literalMatch "</w:p>".toList ['\n']) 0 xml
  let text := replaceEach breakMatch 0 text
  let text := replaceEach tagMatch 0 text
  let text := namedReferences.foldl (fun text (name, c) => replaceEach (literalMatch name [c]) 0 text) text
  let text := replaceEach decimalMatch 0 text
  replaceEach hexadecimalMatch 0 text

example : documentXmlText "<w:p><w:t a='b'>1 &lt;<w:tab/>&#x2A;&#x110000;</w:t><w:tabs/></w:p>".toList = "1 <\t*\n".toList := by decide

/-! ### Writing -/

/-- A character as it is written. -/
inductive Escaped where
  | literal (c : Char) (plain : c ∉ ['&', '<', '>', '"', '\''])
  | named (name : List Char) (c : Char) (known : (name, c) ∈ namedReferences)
  | decimal (digits : List Char) (c : Char) (some_ : digits ≠ []) (digit : ∀ d ∈ digits, d.isDigit = true)
      (value : numberOf 10 digits = c.toNat)
  | hexadecimal (digits : List Char) (c : Char) (some_ : digits ≠ []) (digit : ∀ d ∈ digits, isHexDigit d = true)
      (value : numberOf 16 digits = c.toNat)

def Escaped.value : Escaped → Char
  | .literal c _ | .named _ c _ | .decimal _ c _ _ _ | .hexadecimal _ c _ _ _ => c

def decimalReference (digits : List Char) : List Char := '&' :: '#' :: (digits ++ [';'])

def hexadecimalReference (digits : List Char) : List Char := '&' :: '#' :: 'x' :: (digits ++ [';'])

def Escaped.chars : Escaped → List Char
  | .literal c _ => [c]
  | .named name _ _ => name
  | .decimal digits _ _ _ _ => decimalReference digits
  | .hexadecimal digits _ _ _ _ => hexadecimalReference digits

/-- A tag that stands for no character: no end of a paragraph, no tab and no break. -/
structure SilentTag where
  body : List Char
  inner : ∀ c ∈ body, c ≠ '<' ∧ c ≠ '>'
  paragraph : body ≠ "/w:p".toList
  break_ : breakMatch ('<' :: (body ++ ['>'])) = none

inductive Piece where
  | escaped (character : Escaped)
  | tag (silent : SilentTag)

def Piece.chars : Piece → List Char
  | .escaped character => character.chars
  | .tag silent => '<' :: (silent.body ++ ['>'])

def Piece.escaped? : Piece → Option Escaped
  | .escaped character => some character
  | .tag _ => none

/-- The characters of a written text, without its tags. -/
def characters (pieces : List Piece) : List Escaped := pieces.filterMap Piece.escaped?

/-- What is shown of a character once the named references are decoded. -/
def Escaped.afterNamed : Escaped → Option Char
  | .literal c _ | .named _ c _ => some c
  | _ => none

/-- What is shown of it once the decimal ones are decoded too. -/
def Escaped.afterDecimal : Escaped → Option Char
  | .literal c _ | .named _ c _ | .decimal _ c _ _ _ => some c
  | _ => none

/-- `&#`, digits and `;` -/
def IsDecimalReference (word : List Char) : Prop :=
  ∃ digits, word = decimalReference digits ∧ digits ≠ [] ∧ ∀ d ∈ digits, d.isDigit = true

/-- `&#x`, digits and `;`, with either case of the `x` -/
def IsHexadecimalReference (word : List Char) : Prop :=
  ∃ x digits, word = '&' :: '#' :: x :: (digits ++ [';']) ∧ (x = 'x' ∨ x = 'X') ∧ digits ≠ [] ∧ ∀ d ∈ digits, isHexDigit d = true

theorem length_decodeCodePoint (value : Nat) : (decodeCodePoint value).length ≤ 1 := by
  unfold decodeCodePoint
  split
  · exact Nat.zero_le _
  · exact Nat.le_refl _

theorem decodeCodePoint_toNat (c : Char) : decodeCodePoint c.toNat = [c] := by
  have valid := char_not_surrogate c
  rw [decodeCodePoint, if_neg (by omega), Char.ofNat_toNat]

/-! ### Tags -/

theorem untilClose_body {body : List Char} (open_ : '>' ∉ body) (rest : List Char) : untilClose (body ++ '>' :: rest) = some body := by
  have before : (body ++ '>' :: rest).takeWhile (· ≠ '>') = body := by
    rw [List.takeWhile_append_of_pos]
    · simp
    · intro c member
      exact decide_eq_true fun same => open_ (same ▸ member)
  rw [untilClose, if_pos (by simp), before]

theorem emptyTagMatch_closed {name : List Char} (free : '>' ∉ name) (written : Char) {front : List Char} (open_ : '>' ∉ front)
    (rest : List Char) : emptyTagMatch name written (front ++ '>' :: rest) = emptyTagMatch name written (front ++ ['>']) := by
  by_cases start : name <+: front
  · obtain ⟨body, rfl⟩ := start
    have inner : '>' ∉ body := fun held => open_ (List.mem_append_right _ held)
    unfold emptyTagMatch
    simp only [List.append_assoc, List.drop_left, untilClose_body inner]
    cases body <;> simp
  · have one := mt (prefix_mark free front rest).mp start
    have two := mt (prefix_mark free front []).mp start
    rw [← List.isPrefixOf_iff_prefix, Bool.not_eq_true] at one two
    unfold emptyTagMatch
    rw [one, two]
    rfl

theorem SilentTag.open_ (tag : SilentTag) : '>' ∉ '<' :: tag.body := by
  intro held
  rcases List.mem_cons.mp held with same | held
  · cases same
  · exact (tag.inner '>' held).2 rfl

theorem breakMatch_silent (tag : SilentTag) (rest : List Char) : breakMatch ('<' :: (tag.body ++ '>' :: rest)) = none := by
  have tab := @emptyTagMatch_closed "<w:tab".toList (by decide) '\t' _ tag.open_ rest
  have br := @emptyTagMatch_closed "<w:br".toList (by decide) '\n' _ tag.open_ rest
  have none := tag.break_
  unfold breakMatch at none ⊢
  rw [← List.cons_append, tab, br]
  exact none

theorem paragraphMatch_silent (tag : SilentTag) (rest : List Char) :
    literalMatch "</w:p>".toList ['\n'] ('<' :: (tag.body ++ '>' :: rest)) = none := by
  apply if_neg
  rw [List.isPrefixOf_iff_prefix]
  rintro ⟨more, same⟩
  have bodies : "/w:p".toList ++ '>' :: more = tag.body ++ '>' :: rest := (List.cons.inj same).2
  have inner : '>' ∉ tag.body := fun held => tag.open_ (List.mem_cons_of_mem _ held)
  exact tag.paragraph (content_ends (by decide) inner bodies).1.symm

theorem named_cases {name : List Char} {c : Char} (known : (name, c) ∈ namedReferences) :
    name = "&lt;".toList ∧ c = '<' ∨ name = "&gt;".toList ∧ c = '>' ∨ name = "&quot;".toList ∧ c = '"' ∨
      name = "&apos;".toList ∧ c = '\'' ∨ name = "&amp;".toList ∧ c = '&' := by
  simpa only [namedReferences, List.mem_cons, Prod.mk.injEq, List.not_mem_nil, or_false] using known

theorem name_free {name : List Char} {c : Char} (known : (name, c) ∈ namedReferences) :
    '<' ∉ name ∧ ∃ body, name = '&' :: body ∧ body ≠ [] ∧ '&' ∉ body := by
  rcases named_cases known with ⟨rfl, -⟩ | ⟨rfl, -⟩ | ⟨rfl, -⟩ | ⟨rfl, -⟩ | ⟨rfl, -⟩
  all_goals exact ⟨by decide, _, rfl, by decide, by decide⟩

theorem digit_free {digit : Char → Bool} {c : Char} (other : digit c = false) {digits : List Char} (all : ∀ d ∈ digits, digit d = true) :
    c ∉ digits := by
  intro held
  have isDigit := all c held
  rw [other] at isDigit
  cases isDigit

theorem less_free (e : Escaped) : '<' ∉ e.chars := by
  cases e with
  | literal c plain =>
    rintro held
    obtain rfl := List.mem_singleton.mp held
    simp at plain
  | named name c known => exact (name_free known).1
  | decimal digits c some_ digit value =>
    have free := digit_free (by decide : '<'.isDigit = false) digit
    simp [Escaped.chars, decimalReference, free]
  | hexadecimal digits c some_ digit value =>
    have free := digit_free (by decide : isHexDigit '<' = false) digit
    simp [Escaped.chars, hexadecimalReference, free]

theorem replaceEach_pieces {m : Matcher Char} (starts : StartsWith '<' m)
    (silent : ∀ (tag : SilentTag) rest, m ('<' :: (tag.body ++ '>' :: rest)) = none) (pieces : List Piece) :
    replaceEach m 0 (pieces.flatMap Piece.chars) = pieces.flatMap Piece.chars := by
  induction pieces with
  | nil => rfl
  | cons piece pieces ih =>
    rw [List.flatMap_cons]
    cases piece with
    | escaped e => rw [Piece.chars, replaceEach_free starts (less_free e), ih]
    | tag silent_ =>
      have inner : '<' ∉ silent_.body ++ ['>'] := by
        intro held
        rcases List.mem_append.mp held with held | held
        · exact (silent_.inner '<' held).1 rfl
        · simp at held
      have none := silent silent_ (pieces.flatMap Piece.chars)
      have parts : silent_.body ++ '>' :: pieces.flatMap Piece.chars = silent_.body ++ ['>'] ++ pieces.flatMap Piece.chars := by simp
      rw [Piece.chars, List.cons_append, List.append_assoc, List.singleton_append, replaceEach_none none, parts,
        replaceEach_free starts inner, ih]

theorem replaceEach_tags (pieces : List Piece) :
    replaceEach tagMatch 0 (pieces.flatMap Piece.chars) = (characters pieces).flatMap Escaped.chars := by
  have starts : StartsWith '<' tagMatch := fun c cs other => if_neg other
  induction pieces with
  | nil => rfl
  | cons piece pieces ih =>
    rw [List.flatMap_cons]
    cases piece with
    | escaped e =>
      rw [Piece.chars, replaceEach_free starts (less_free e), ih]
      rfl
    | tag silent =>
      have inner : '>' ∉ silent.body := fun held => silent.open_ (List.mem_cons_of_mem _ held)
      have found : tagMatch ('<' :: (silent.body ++ '>' :: pieces.flatMap Piece.chars)) = some ([], silent.body.length + 1) := by
        rw [tagMatch, if_pos rfl, untilClose_body inner]
        rfl
      have rest : (silent.body ++ '>' :: pieces.flatMap Piece.chars).drop (silent.body.length + 1) = pieces.flatMap Piece.chars := by
        rw [List.append_cons]
        exact List.drop_left' (by simp)
      rw [Piece.chars, List.cons_append, List.append_assoc, List.singleton_append, replaceEach_some found, rest, ih]
      rfl

/-! ### The named references -/

/-- A character as a token, once some of the names are decoded. -/
def Escaped.token (done : List (List Char)) : Escaped → Token Char
  | .literal c _ => .plain c
  | .named name c _ => if done.contains name then .plain c else .reference name c
  | .decimal digits c _ _ _ => .reference (decimalReference digits) c
  | .hexadecimal digits c _ _ _ => .reference (hexadecimalReference digits) c

def tokens (done : List (List Char)) (cs : List Escaped) : List (Token Char) := cs.map (Escaped.token done)

theorem literalMatch_reads {body : List Char} (some_ : body ≠ []) (free : '&' ∉ body) (c : Char) :
    Reads '&' (· = '&' :: body) (fun _ => [c]) (literalMatch ('&' :: body) [c]) where
  marked := fun w known => ⟨body, known, some_, free⟩
  short := fun _ _ => Nat.le_refl _
  found := fun cs result => by
    simp only [literalMatch, List.isPrefixOf_iff_prefix]
    constructor
    · intro found
      split at found
      · rename_i start
        exact ⟨_, rfl, start, (Option.some.inj found).symm⟩
      · cases found
    · rintro ⟨w, rfl, start, rfl⟩
      rw [if_pos start]

theorem reference_tokens {done : List (List Char)} {cs : List Escaped} {text : List Char} {c : Char}
    (member : .reference text c ∈ tokens done cs) :
    ((text, c) ∈ namedReferences ∧ text ∉ done) ∨
      (∃ digits, text = decimalReference digits ∧ digits ≠ [] ∧ (∀ d ∈ digits, d.isDigit = true) ∧ numberOf 10 digits = c.toNat) ∨
      ∃ digits, text = hexadecimalReference digits ∧ digits ≠ [] ∧ (∀ d ∈ digits, isHexDigit d = true) ∧ numberOf 16 digits = c.toNat := by
  obtain ⟨e, -, shape⟩ := List.mem_map.mp member
  cases e with
  | literal d plain => cases shape
  | named name d known =>
    rw [Escaped.token] at shape
    split at shape
    · cases shape
    · rename_i new
      obtain ⟨rfl, rfl⟩ := Token.reference.inj shape
      exact Or.inl ⟨known, fun known' => new (List.contains_iff_mem.mpr known')⟩
  | decimal digits d some_ digit value =>
    obtain ⟨rfl, rfl⟩ := Token.reference.inj shape
    exact Or.inr (Or.inl ⟨digits, rfl, some_, digit, value⟩)
  | hexadecimal digits d some_ digit value =>
    obtain ⟨rfl, rfl⟩ := Token.reference.inj shape
    exact Or.inr (Or.inr ⟨digits, rfl, some_, digit, value⟩)

theorem reference_body {done : List (List Char)} {cs : List Escaped} {text : List Char} {c : Char}
    (member : .reference text c ∈ tokens done cs) : ∃ body, text = '&' :: body ∧ '&' ∉ body := by
  rcases reference_tokens member with ⟨known, -⟩ | ⟨digits, rfl, -, digit, -⟩ | ⟨digits, rfl, -, digit, -⟩
  · obtain ⟨-, body, shape, -, free⟩ := name_free known
    exact ⟨body, shape, free⟩
  · have free := digit_free (by decide : '&'.isDigit = false) digit
    exact ⟨_, rfl, by simp [free]⟩
  · have free := digit_free (by decide : isHexDigit '&' = false) digit
    exact ⟨_, rfl, by simp [free]⟩

/-- A name is matched by its own replacement and by no other. -/
theorem literalMatch_name {name other : List Char} {c d : Char} (known : (name, c) ∈ namedReferences)
    (known' : (other, d) ∈ namedReferences) (rest : List Char) :
    literalMatch name [c] (other ++ rest) = if other == name then some ([d], other.length - 1) else none := by
  rcases named_cases known with ⟨rfl, rfl⟩ | ⟨rfl, rfl⟩ | ⟨rfl, rfl⟩ | ⟨rfl, rfl⟩ | ⟨rfl, rfl⟩ <;>
    rcases named_cases known' with ⟨rfl, rfl⟩ | ⟨rfl, rfl⟩ | ⟨rfl, rfl⟩ | ⟨rfl, rfl⟩ | ⟨rfl, rfl⟩ <;> rfl

theorem literalMatch_numeric {name : List Char} {c : Char} (known : (name, c) ∈ namedReferences) (rest : List Char) :
    literalMatch name [c] ('&' :: '#' :: rest) = none ∧ ('&' :: '#' :: rest == name) = false := by
  rcases named_cases known with ⟨rfl, rfl⟩ | ⟨rfl, rfl⟩ | ⟨rfl, rfl⟩ | ⟨rfl, rfl⟩ | ⟨rfl, rfl⟩ <;> exact ⟨rfl, rfl⟩

theorem refers_named {name : List Char} {c : Char} (known : (name, c) ∈ namedReferences) (done : List (List Char)) (cs : List Escaped) :
    Refers '&' (literalMatch name [c]) (· == name) (tokens done cs) := by
  intro text d member
  refine ⟨reference_body member, fun rest => ?_⟩
  rcases reference_tokens member with ⟨known', -⟩ | ⟨digits, rfl, -⟩ | ⟨digits, rfl, -⟩
  · exact literalMatch_name known known' rest
  · obtain ⟨none, -⟩ := literalMatch_numeric known (digits ++ [';'] ++ rest)
    obtain ⟨-, other⟩ := literalMatch_numeric known (digits ++ [';'])
    rw [decimalReference, List.cons_append, List.cons_append, none]
    exact (if_neg (ne_true_of_eq_false other)).symm
  · obtain ⟨none, -⟩ := literalMatch_numeric known ('x' :: (digits ++ [';']) ++ rest)
    obtain ⟨-, other⟩ := literalMatch_numeric known ('x' :: (digits ++ [';']))
    rw [hexadecimalReference, List.cons_append, List.cons_append, none]
    exact (if_neg (ne_true_of_eq_false other)).symm

/-- The ampersand comes last: until then none is plain. -/
theorem plain_tokens {done : List (List Char)} (later : "&amp;".toList ∉ done) {cs : List Escaped} {c : Char}
    (member : .plain c ∈ tokens done cs) : c ≠ '&' := by
  obtain ⟨e, -, shape⟩ := List.mem_map.mp member
  rintro rfl
  cases e with
  | literal d plain =>
    obtain rfl := Token.plain.inj shape
    simp at plain
  | named name d known =>
    rw [Escaped.token] at shape
    split at shape
    · rename_i decoded
      obtain rfl := Token.plain.inj shape
      have amp : name = "&amp;".toList := by
        simpa [namedReferences] using known
      exact later (amp ▸ List.contains_iff_mem.mp decoded)
    · cases shape
  | decimal digits d some_ digit value => cases shape
  | hexadecimal digits d some_ digit value => cases shape

theorem decode_token {name : List Char} {c : Char} (known : (name, c) ∈ namedReferences) (done : List (List Char)) (e : Escaped) :
    (e.token done).decode (· == name) = e.token (name :: done) := by
  cases e with
  | literal d plain => rfl
  | named other d known' =>
    rw [Escaped.token, Escaped.token, List.contains_cons]
    by_cases decoded : done.contains other = true
    · rw [if_pos decoded, decoded, Bool.or_true]
      rfl
    · by_cases same : other = name
      · subst same
        rw [if_neg decoded, beq_self_eq_true, Bool.true_or, if_pos rfl, Token.decode, if_pos (beq_self_eq_true other)]
      · have apart : (other == name) = false := beq_eq_false_iff_ne.mpr same
        rw [if_neg decoded, apart, Bool.false_or, if_neg decoded, Token.decode, apart, if_neg Bool.false_ne_true]
  | decimal digits d some_ digit value =>
    obtain ⟨-, other⟩ := literalMatch_numeric known (digits ++ [';'])
    simp only [Escaped.token, Token.decode, decimalReference, other]
    rfl
  | hexadecimal digits d some_ digit value =>
    obtain ⟨-, other⟩ := literalMatch_numeric known ('x' :: (digits ++ [';']))
    simp only [Escaped.token, Token.decode, hexadecimalReference, other]
    rfl

theorem replaceEach_name {name : List Char} {c : Char} (known : (name, c) ∈ namedReferences) {done : List (List Char)}
    (later : "&amp;".toList ∉ done) (cs : List Escaped) :
    replaceEach (literalMatch name [c]) 0 ((tokens done cs).flatMap Token.chars) = (tokens (name :: done) cs).flatMap Token.chars := by
  obtain ⟨-, body, shape, some_, free⟩ := name_free known
  have decoder : Decoder '&' (literalMatch name [c]) := by
    rw [shape]
    exact (literalMatch_reads some_ free c).decoder
  have quiet : ¬ Spells (literalMatch name [c]) (tokens done cs) := quiet_of_free decoder.starts fun d => plain_tokens later
  rw [replaceEach_tokens decoder (refers_named known done cs), replaceTokens_quiet quiet, tokens, List.map_map]
  congr 1
  apply List.map_congr_left
  intro e _
  exact decode_token known done e

def names : List (List Char) := ["&amp;".toList, "&apos;".toList, "&quot;".toList, "&gt;".toList, "&lt;".toList]

theorem replaceEach_names (cs : List Escaped) :
    namedReferences.foldl (fun text (name, c) => replaceEach (literalMatch name [c]) 0 text) (cs.flatMap Escaped.chars) =
      (tokens names cs).flatMap Token.chars := by
  have start : cs.flatMap Escaped.chars = (tokens [] cs).flatMap Token.chars := by
    rw [tokens, List.flatMap_map]
    congr 1
    funext e
    cases e <;> rfl
  simp only [namedReferences, List.foldl_cons, List.foldl_nil]
  rw [start, replaceEach_name (by simp [namedReferences]) (by decide), replaceEach_name (by simp [namedReferences]) (by decide),
    replaceEach_name (by simp [namedReferences]) (by decide), replaceEach_name (by simp [namedReferences]) (by decide),
    replaceEach_name (by simp [namedReferences]) (by decide)]
  rfl

/-! ### The numeric references -/

theorem digitsOf_iff {digit : Char → Bool} (stop : digit ';' = false) (cs digits : List Char) :
    digitsOf digit cs = some digits ↔ digits ≠ [] ∧ (∀ d ∈ digits, digit d = true) ∧ digits ++ [';'] <+: cs := by
  unfold digitsOf
  dsimp only
  constructor
  · intro found
    split at found
    · rename_i shape
      obtain ⟨some_, next⟩ := shape
      obtain rfl := Option.some.inj found
      refine ⟨some_, fun d => List.mem_takeWhile_imp, ?_⟩
      obtain ⟨rest, behind⟩ := List.head?_eq_some_iff.mp next
      have parts := List.take_append_drop (cs.takeWhile digit).length cs
      rw [behind, ← List.prefix_iff_eq_take.mp (List.takeWhile_prefix digit)] at parts
      exact ⟨rest, by simpa using parts⟩
    · cases found
  · rintro ⟨some_, all, rest, rfl⟩
    have front : (digits ++ [';'] ++ rest).takeWhile digit = digits := by
      rw [List.append_assoc, List.takeWhile_append_of_pos all]
      simp [stop]
    rw [front, if_pos ⟨some_, by simp⟩]

/-- The digits between a reference's front and its semicolon. -/
def digitsIn (front : Nat) (word : List Char) : List Char := (word.drop front).dropLast

theorem decimalMatch_reads :
    Reads '&' IsDecimalReference (fun w => decodeCodePoint (numberOf 10 (digitsIn 2 w))) decimalMatch where
  marked := fun w known => by
    obtain ⟨digits, rfl, some_, digit⟩ := known
    have free := digit_free (by decide : '&'.isDigit = false) digit
    exact ⟨_, rfl, by simp, by simp [free]⟩
  short := fun w _ => length_decodeCodePoint _
  found := fun cs result => by
    constructor
    · intro found
      unfold decimalMatch at found
      split at found
      · split at found
        · rename_i c d rest front
          obtain ⟨rfl, rfl⟩ := front
          obtain ⟨digits, inside, rfl⟩ := Option.map_eq_some_iff.mp found
          obtain ⟨some_, all, start⟩ := (digitsOf_iff (by decide) _ _).mp inside
          refine ⟨decimalReference digits, ⟨digits, rfl, some_, all⟩, ?_, ?_⟩
          · exact List.cons_prefix_cons.mpr ⟨rfl, List.cons_prefix_cons.mpr ⟨rfl, start⟩⟩
          · simp [digitsIn, decimalReference]
        · cases found
      · cases found
    · rintro ⟨w, ⟨digits, rfl, some_, all⟩, ⟨rest, rfl⟩, rfl⟩
      have inside : digitsOf Char.isDigit (digits ++ [';'] ++ rest) = some digits :=
        (digitsOf_iff (by decide) _ _).mpr ⟨some_, all, List.prefix_append _ _⟩
      simp only [decimalReference, List.cons_append, decimalMatch, and_self, if_true, inside, Option.map_some]
      simp [digitsIn]

theorem hexadecimalMatch_reads :
    Reads '&' IsHexadecimalReference (fun w => decodeCodePoint (numberOf 16 (digitsIn 3 w))) hexadecimalMatch where
  marked := fun w known => by
    obtain ⟨x, digits, rfl, sign, some_, digit⟩ := known
    have free := digit_free (by decide : isHexDigit '&' = false) digit
    have other : '&' ≠ x := by rcases sign with rfl | rfl <;> decide
    exact ⟨_, rfl, by simp, by simp [free, other]⟩
  short := fun w _ => length_decodeCodePoint _
  found := fun cs result => by
    constructor
    · intro found
      unfold hexadecimalMatch at found
      split at found
      · split at found
        · rename_i c d x rest front
          obtain ⟨rfl, rfl, sign⟩ := front
          obtain ⟨digits, inside, rfl⟩ := Option.map_eq_some_iff.mp found
          obtain ⟨some_, all, start⟩ := (digitsOf_iff (by decide) _ _).mp inside
          refine ⟨'&' :: '#' :: x :: (digits ++ [';']), ⟨x, digits, rfl, sign, some_, all⟩, ?_, ?_⟩
          · exact List.cons_prefix_cons.mpr ⟨rfl, List.cons_prefix_cons.mpr ⟨rfl, List.cons_prefix_cons.mpr ⟨rfl, start⟩⟩⟩
          · simp [digitsIn]
        · cases found
      · cases found
    · rintro ⟨w, ⟨x, digits, rfl, sign, some_, all⟩, ⟨rest, rfl⟩, rfl⟩
      have inside : digitsOf isHexDigit (digits ++ [';'] ++ rest) = some digits :=
        (digitsOf_iff (by decide) _ _).mpr ⟨some_, all, List.prefix_append _ _⟩
      simp only [List.cons_append, hexadecimalMatch, sign, and_self, if_true, inside, Option.map_some]
      simp [digitsIn]

theorem decimalMatch_decimal {digits : List Char} (some_ : digits ≠ []) (digit : ∀ d ∈ digits, d.isDigit = true) {c : Char}
    (value : numberOf 10 digits = c.toNat) (rest : List Char) :
    decimalMatch (decimalReference digits ++ rest) = some ([c], (decimalReference digits).length - 1) := by
  refine (decimalMatch_reads.found _ _).mpr ⟨_, ⟨digits, rfl, some_, digit⟩, List.prefix_append _ _, ?_⟩
  have inside : digitsIn 2 (decimalReference digits) = digits := by simp [digitsIn, decimalReference]
  rw [inside, value, decodeCodePoint_toNat]

theorem decimalMatch_hexadecimal (digits rest : List Char) : decimalMatch (hexadecimalReference digits ++ rest) = none := rfl

theorem hexadecimalMatch_hexadecimal {digits : List Char} (some_ : digits ≠ []) (digit : ∀ d ∈ digits, isHexDigit d = true) {c : Char}
    (value : numberOf 16 digits = c.toNat) (rest : List Char) :
    hexadecimalMatch (hexadecimalReference digits ++ rest) = some ([c], (hexadecimalReference digits).length - 1) := by
  refine (hexadecimalMatch_reads.found _ _).mpr ⟨_, ⟨'x', digits, rfl, Or.inl rfl, some_, digit⟩, List.prefix_append _ _, ?_⟩
  have inside : digitsIn 3 (hexadecimalReference digits) = digits := by simp [digitsIn, hexadecimalReference]
  have same : '&' :: '#' :: 'x' :: (digits ++ [';']) = hexadecimalReference digits := rfl
  rw [same, inside, value, decodeCodePoint_toNat]

theorem names_known {name : List Char} {c : Char} (known : (name, c) ∈ namedReferences) : name ∈ names := by
  rcases named_cases known with ⟨rfl, -⟩ | ⟨rfl, -⟩ | ⟨rfl, -⟩ | ⟨rfl, -⟩ | ⟨rfl, -⟩ <;> decide

/-- What the decimal pass decodes of the references. -/
def isDecimal (text : List Char) : Bool := (decimalMatch text).isSome

def isHexadecimal (text : List Char) : Bool := (hexadecimalMatch text).isSome

theorem refers_decimal (cs : List Escaped) : Refers '&' decimalMatch isDecimal (tokens names cs) := by
  intro text c member
  refine ⟨reference_body member, fun rest => ?_⟩
  rcases reference_tokens member with ⟨known, new⟩ | ⟨digits, rfl, some_, digit, value⟩ | ⟨digits, rfl, -⟩
  · exact absurd (names_known known) new
  · have alone := decimalMatch_decimal some_ digit value []
    rw [List.append_nil] at alone
    rw [decimalMatch_decimal some_ digit value, isDecimal, alone]
    rfl
  · rfl

theorem refers_hexadecimal {cs : List Escaped} {ts : List (Token Char)}
    (left : ∀ text c, .reference text c ∈ ts → .reference text c ∈ tokens names cs ∧ isDecimal text = false) :
    Refers '&' hexadecimalMatch isHexadecimal ts ∧ ∀ text c, .reference text c ∈ ts → isHexadecimal text = true := by
  have hexadecimal : ∀ text c, .reference text c ∈ ts →
      ∀ rest, hexadecimalMatch (text ++ rest) = some ([c], text.length - 1) := by
    intro text c member rest
    obtain ⟨there, other⟩ := left text c member
    rcases reference_tokens there with ⟨known, new⟩ | ⟨digits, rfl, some_, digit, value⟩ | ⟨digits, rfl, some_, digit, value⟩
    · exact absurd (names_known known) new
    · have alone := decimalMatch_decimal some_ digit value []
      rw [List.append_nil] at alone
      rw [isDecimal, alone] at other
      cases other
    · exact hexadecimalMatch_hexadecimal some_ digit value rest
  have target : ∀ text c, .reference text c ∈ ts → isHexadecimal text = true := by
    intro text c member
    have alone := hexadecimal text c member []
    rw [List.append_nil] at alone
    rw [isHexadecimal, alone]
    rfl
  refine ⟨fun text c member => ⟨reference_body (left text c member).1, fun rest => ?_⟩, target⟩
  rw [hexadecimal text c member rest, if_pos (target text c member)]

/-! ### The law -/

theorem not_in_front {word : List Char} {mark c : Char} (front : word.head? = some mark) (other : c ≠ mark) (cs : List Char) :
    word.isPrefixOf (c :: cs) = false := by
  obtain ⟨rest, rfl⟩ := List.head?_eq_some_iff.mp front
  rw [← Bool.not_eq_true, List.isPrefixOf_iff_prefix, List.cons_prefix_cons]
  exact fun start => other start.1.symm

theorem paragraph_starts : StartsWith '<' (literalMatch "</w:p>".toList ['\n']) := by
  intro c cs other
  rw [literalMatch, not_in_front (by decide) other]
  rfl

theorem break_starts : StartsWith '<' breakMatch := by
  intro c cs other
  have tab := @not_in_front "<w:tab".toList '<' c (by decide) other cs
  have br := @not_in_front "<w:br".toList '<' c (by decide) other cs
  unfold breakMatch emptyTagMatch
  rw [tab, br]
  rfl

/-- The chain as two passes over the characters as tokens. -/
theorem documentXmlText_tokens (pieces : List Piece) :
    documentXmlText (pieces.flatMap Piece.chars) =
      (replaceTokens hexadecimalMatch isHexadecimal 0
        (replaceTokens decimalMatch isDecimal 0 (tokens names (characters pieces)))).map Token.value := by
  have refers := refers_decimal (characters pieces)
  obtain ⟨refers', all⟩ := @refers_hexadecimal (characters pieces) _
    fun text c member => @reference_replaceTokens _ decimalMatch isDecimal _ 0 text c member
  unfold documentXmlText
  dsimp only
  rw [replaceEach_pieces paragraph_starts paragraphMatch_silent, replaceEach_pieces break_starts breakMatch_silent, replaceEach_tags,
    replaceEach_names, replaceEach_tokens decimalMatch_reads.decoder refers, replaceEach_tokens hexadecimalMatch_reads.decoder refers',
    chars_plain]
  intro text c held
  obtain ⟨there, other⟩ := reference_replaceTokens held
  rw [all text c there] at other
  cases other

theorem shown_afterNamed (cs : List Escaped) : (tokens names cs).map Token.shown = cs.map Escaped.afterNamed := by
  rw [tokens, List.map_map]
  apply List.map_congr_left
  intro e _
  cases e with
  | named name c known => simp [Escaped.token, names_known known, Token.shown, Escaped.afterNamed]
  | _ => rfl

theorem shown_afterDecimal (cs : List Escaped) :
    ((tokens names cs).map (Token.decode isDecimal)).map Token.shown = cs.map Escaped.afterDecimal := by
  rw [tokens, List.map_map, List.map_map]
  apply List.map_congr_left
  intro e _
  cases e with
  | literal c plain => rfl
  | named name c known => simp [Escaped.token, names_known known, Token.decode, Token.shown, Escaped.afterDecimal]
  | decimal digits c some_ digit value =>
    have alone := decimalMatch_decimal some_ digit value []
    rw [List.append_nil] at alone
    simp [Escaped.token, Token.decode, isDecimal, alone, Token.shown, Escaped.afterDecimal]
  | hexadecimal digits c some_ digit value =>
    have alone := decimalMatch_hexadecimal digits []
    rw [List.append_nil] at alone
    simp [Escaped.token, Token.decode, isDecimal, alone, Token.shown, Escaped.afterDecimal]

theorem values_tokens (cs : List Escaped) : (tokens names cs).map Token.value = cs.map Escaped.value := by
  rw [tokens, List.map_map]
  apply List.map_congr_left
  intro e _
  cases e with
  | named name c known => simp [Escaped.token, names_known known, Token.value, Escaped.value]
  | _ => rfl

/-- The text `&#65;`, its ampersand escaped. -/
def spelledReference : List Piece :=
  [.escaped (.named "&amp;".toList '&' (by decide)), .escaped (.literal '#' (by decide)), .escaped (.literal '6' (by decide)),
    .escaped (.literal '5' (by decide)), .escaped (.literal ';' (by decide))]

end GroupButler.Tools.Ooxml
