import GroupButler.Foundation.Chunks
import GroupButler.Foundation.Prefixes
import GroupButler.Foundation.Utf8

/-!
# Event streams

The reader of a `text/event-stream` body, a character at a time. A blank line dispatches what the lines
before it gathered, and a line that begins with a colon is a comment. What a body that breaks off leaves
unfinished is not dispatched.
-/

namespace GroupButler.Foundation

structure StreamEvent where
  type : List Char
  data : List Char
  lastEventId : List Char
  deriving DecidableEq, Repr

structure EventReader where
  line : List Char
  /-- The last line ended at a carriage return, and a line feed after it belongs to it. -/
  afterCr : Bool
  data : List Char
  type : List Char
  /-- The last event id, which stays for the events after it. -/
  id : List Char
  events : List StreamEvent

def EventReader.initial (id : List Char) : EventReader := ⟨[], false, [], [], id, []⟩

namespace EventReader

variable (r : EventReader)

/-- The reconnection time of `retry` is no part of an event. -/
def field (name value : List Char) : EventReader :=
  if name = "event".toList then { r with type := value }
  else if name = "data".toList then { r with data := r.data ++ value ++ ['\n'] }
  else if name = "id".toList then if '\x00' ∈ value then r else { r with id := value }
  else r

def dispatch : EventReader :=
  if r.data = [] then { r with type := [] }
  else
    { r with
      data := []
      type := []
      events := r.events ++ [⟨if r.type = [] then "message".toList else r.type, r.data.dropLast, r.id⟩] }

/-- One space after the colon is not part of the value. -/
def fieldValue : List Char → List Char
  | ':' :: ' ' :: value => value
  | ':' :: value => value
  | _ => []

def readLine (line : List Char) : EventReader :=
  match line with
  | [] => r.dispatch
  | ':' :: _ => r
  | _ => r.field (line.takeWhile (· ≠ ':')) (fieldValue (line.dropWhile (· ≠ ':')))

def endLine : EventReader := { r with line := [] }.readLine r.line

def readChar (c : Char) : EventReader :=
  if c = '\n' then if r.afterCr then { r with afterCr := false } else r.endLine
  else if c = '\r' then { r.endLine with afterCr := true }
  else { r with line := r.line ++ [c], afterCr := false }

def read (cs : List Char) : EventReader := cs.foldl readChar r

end EventReader

example : ((EventReader.initial []).read "id: 7\r\nevent: a\r\ndata: x\ndata:y\r\r: ping\n\ndata\n\ndata: cut\n".toList).events =
    [⟨['a'], "x\ny".toList, ['7']⟩, ⟨"message".toList, [], ['7']⟩] := by decide

/-! ### Lines -/

def Unbroken (cs : List Char) : Prop := ∀ c ∈ cs, c ≠ '\n' ∧ c ≠ '\r'

/-- The reader stands at the start of a line. -/
def EventReader.AtLine (r : EventReader) : Prop := r.line = [] ∧ r.afterCr = false

namespace EventReader

variable {r : EventReader} {line : List Char}

theorem read_append (r : EventReader) (first rest : List Char) : r.read (first ++ rest) = (r.read first).read rest :=
  List.foldl_append

theorem read_unbroken (unbroken : Unbroken line) (start : r.afterCr = false) : r.read line = { r with line := r.line ++ line } := by
  induction line generalizing r with
  | nil => simp [read]
  | cons c line ih =>
    obtain ⟨feed, carriage⟩ := unbroken c List.mem_cons_self
    have step : r.readChar c = { r with line := r.line ++ [c], afterCr := false } := by
      rw [readChar, if_neg feed, if_neg carriage]
    have rest := @ih (r.readChar c) (fun d member => unbroken d (List.mem_cons_of_mem c member)) (by rw [step])
    rw [read, List.foldl_cons, ← read, rest, step, ← start]
    simp

theorem atLine_field (start : r.AtLine) (name value : List Char) : (r.field name value).AtLine := by
  unfold field
  split_ifs
  all_goals exact start

theorem atLine_readLine (start : r.AtLine) (line : List Char) : (r.readLine line).AtLine := by
  unfold readLine
  split
  · unfold dispatch
    split
    · exact start
    · exact start
  · exact start
  · exact atLine_field start _ _

theorem read_line (unbroken : Unbroken line) (start : r.AtLine) : r.read (line ++ ['\n']) = r.readLine line := by
  obtain ⟨atStart, noReturn⟩ := start
  have gathered : r.read line = { r with line := line } := by rw [read_unbroken unbroken noReturn, atStart, List.nil_append]
  have cleared : { r with line := [] } = r := by rw [← atStart]
  rw [read_append, gathered]
  show readChar { r with line := line } '\n' = _
  rw [readChar, if_pos rfl, if_neg (by simp [noReturn]), endLine]
  show ({ r with line := [] } : EventReader).readLine line = _
  rw [cleared]

/-- A text of whole lines is read line by line. -/
theorem read_lines {lines : List (List Char)} (unbroken : ∀ line ∈ lines, Unbroken line) (start : r.AtLine) :
    r.read (lines.flatMap (· ++ ['\n'])) = lines.foldl readLine r ∧ (lines.foldl readLine r).AtLine := by
  induction lines generalizing r with
  | nil => exact ⟨rfl, start⟩
  | cons line lines ih =>
    have rest := ih (fun other member => unbroken other (List.mem_cons_of_mem line member)) (atLine_readLine start line)
    rw [List.flatMap_cons, read_append, read_line (unbroken line List.mem_cons_self) start]
    exact rest

theorem events_field (r : EventReader) (name value : List Char) : (r.field name value).events = r.events := by
  unfold field
  split_ifs
  all_goals rfl

/-- Only a blank line dispatches. -/
theorem events_readLine (r : EventReader) (filled : line ≠ []) : (r.readLine line).events = r.events := by
  unfold readLine
  split
  · exact absurd rfl filled
  · rfl
  · exact events_field r _ _

theorem events_readLines {lines : List (List Char)} (filled : ∀ line ∈ lines, line ≠ []) (r : EventReader) :
    (lines.foldl readLine r).events = r.events := by
  induction lines generalizing r with
  | nil => rfl
  | cons line lines ih =>
    rw [List.foldl_cons, ih (fun other member => filled other (List.mem_cons_of_mem line member)),
      events_readLine r (filled line List.mem_cons_self)]

/-- A block of filled lines whose end is cut off dispatches nothing, whatever takes the place of the end. -/
theorem events_cut {lines : List (List Char)} (unbroken : ∀ line ∈ lines, Unbroken line) (filled : ∀ line ∈ lines, line ≠ [])
    (start : r.AtLine) {n : Nat} (short : n < ((lines ++ [[]]).flatMap (· ++ ['\n'])).length) {tail : List Char}
    (stub : Unbroken tail) : (r.read (((lines ++ [[]]).flatMap (· ++ ['\n'])).take n ++ tail)).events = r.events := by
  obtain ⟨k, cut, inside⟩ := take_flatMap (· ++ ['\n']) n (lines ++ [[]])
  have before := wholeIn_lt short
  generalize wholeIn (· ++ ['\n']) n (lines ++ [[]]) = m at cut inside before
  rw [List.length_append, List.length_singleton] at before
  rw [List.take_append_of_le_length (by omega)] at cut
  have whole : ∀ line ∈ lines.take m, Unbroken line := fun line member => unbroken line (List.mem_of_mem_take member)
  obtain ⟨read, atLine⟩ := read_lines whole start
  have part : Unbroken (((lines ++ [[]])[m]?.elim [] (· ++ ['\n'])).take k ++ tail) := by
    intro c member
    rcases List.mem_append.mp member with early | late
    · cases found : (lines ++ [[]])[m]? with
      | none =>
        rw [found] at early
        simp at early
      | some line =>
        rw [found] at early inside
        have short := inside line rfl
        rw [List.length_append, List.length_singleton] at short
        rw [Option.elim_some, List.take_append_of_le_length (by omega)] at early
        have member := List.mem_of_mem_take early
        rcases List.mem_append.mp (List.mem_of_getElem? found) with line | blank
        · exact unbroken _ line c member
        · rw [List.mem_singleton.mp blank] at member
          cases member
    · exact stub c late
  rw [cut, List.append_assoc, read_append, read, read_unbroken part atLine.2]
  exact events_readLines (fun line member => filled line (List.mem_of_mem_take member)) r

end EventReader

/-! ### Fields -/

theorem fieldValue_spaced (value : List Char) : EventReader.fieldValue (':' :: ' ' :: value) = value := rfl

/-- A line `name: value`. -/
theorem EventReader.readLine_field (r : EventReader) {name : List Char} (plain : ∀ c ∈ name, c ≠ ':') (named : name ≠ [])
    (value : List Char) : r.readLine (name ++ ": ".toList ++ value) = r.field name value := by
  obtain ⟨c, rest, rfl⟩ := List.exists_cons_of_ne_nil named
  have colon := plain c List.mem_cons_self
  have shape : c :: rest ++ ": ".toList ++ value = c :: rest ++ ':' :: ' ' :: value := by simp
  have front : ∀ d ∈ c :: rest, (decide (d ≠ ':')) = true := fun d member => decide_eq_true (plain d member)
  have name : (c :: rest ++ ':' :: ' ' :: value).takeWhile (· ≠ ':') = c :: rest := by
    rw [List.takeWhile_append_of_pos front]
    simp
  have left : (c :: rest ++ ':' :: ' ' :: value).dropWhile (· ≠ ':') = ':' :: ' ' :: value := by
    rw [List.dropWhile_append_of_pos front]
    simp
  rw [shape]
  unfold EventReader.readLine
  split
  · rename_i empty
    cases empty
  · rename_i comment
    exact absurd (List.cons.inj comment).1 colon
  · rw [name, left, fieldValue_spaced]

namespace EventReader

variable (r : EventReader) (value : List Char)

theorem field_event : r.field "event".toList value = { r with type := value } := if_pos rfl

theorem field_data : r.field "data".toList value = { r with data := r.data ++ value ++ ['\n'] } := by
  rw [field, if_neg (by decide), if_pos rfl]

theorem field_id {value : List Char} (noNull : '\x00' ∉ value) : r.field "id".toList value = { r with id := value } := by
  rw [field, if_neg (by decide), if_neg (by decide), if_pos rfl, if_neg noNull]

theorem dispatch_data {data : List Char} (data_ : r.data = data ++ ['\n']) (named : r.type ≠ []) :
    r.dispatch = { r with data := [], type := [], events := r.events ++ [⟨r.type, data, r.id⟩] } := by
  rw [dispatch, if_neg (by simp [data_]), if_neg named, data_, List.dropLast_concat]

end EventReader

/-! ### Bodies -/

/-- "UTF-8 decode": a byte order mark in front is no text. -/
def decodeBody (bytes : List Nat) : List Char :=
  match ofUtf8 none bytes with
  | '\uFEFF' :: cs => cs
  | cs => cs

theorem decodeBody_plain {bytes : List Nat} (plain : (ofUtf8 none bytes).head? ≠ some '\uFEFF') : decodeBody bytes = ofUtf8 none bytes := by
  unfold decodeBody
  split
  · rename_i marked
    rw [marked] at plain
    exact absurd rfl plain
  · rfl

/-- A text whose bytes break off is read up to there, with a replacement character for a broken one. -/
theorem ofUtf8_take (cs : List Char) (n : Nat) :
    ∃ k tail, ofUtf8 none ((toUtf8 cs).take n) = cs.take k ++ tail ∧ (tail = [] ∨ tail = ['\uFFFD']) ∧
      (n < (toUtf8 cs).length → k < cs.length) := by
  obtain ⟨k, cut, short⟩ := take_flatMap utf8Bytes n cs
  have before : n < (toUtf8 cs).length → wholeIn utf8Bytes n cs < cs.length := wholeIn_lt
  generalize wholeIn utf8Bytes n cs = m at cut short before
  have text : (cs.take m).flatMap utf8Bytes = toUtf8 (cs.take m) := rfl
  refine ⟨m, ofUtf8 none ((cs[m]?.elim [] utf8Bytes).take k), ?_, ?_, before⟩
  · rw [toUtf8, cut, text, ofUtf8_toUtf8_append]
  · cases found : cs[m]? with
    | none => exact Or.inl (by simp [ofUtf8])
    | some c =>
      have more := short c found
      by_cases some : (utf8Bytes c).take k = []
      · exact Or.inl (by rw [Option.elim_some, some, ofUtf8])
      · have split : utf8Bytes c = (utf8Bytes c).take k ++ (utf8Bytes c).drop k := (List.take_append_drop k _).symm
        exact Or.inr (ofUtf8_front split some (by simp [more])).1

/-- The text of lines that a blank line ends. -/
def blockText (lines : List (List Char)) : List Char := (lines ++ [[]]).flatMap (· ++ ['\n'])

/-- What reading a whole block does. -/
def EventReader.readBlock (r : EventReader) (lines : List (List Char)) : EventReader := (lines ++ [[]]).foldl EventReader.readLine r

/-- Lines that hold no line break, and something that is no byte order mark. -/
structure Solid (lines : List (List Char)) : Prop where
  unbroken : ∀ line ∈ lines, Unbroken line
  filled : ∀ line ∈ lines, line ≠ []
  unmarked : ∀ line ∈ lines, line.head? ≠ some '\uFEFF'

theorem unbroken_nil : Unbroken [] := fun c none => by cases none

theorem Solid.ended {lines : List (List Char)} (solid : Solid lines) : ∀ line ∈ lines ++ [[]], Unbroken line := by
  intro line member
  rcases List.mem_append.mp member with inside | blank
  · exact solid.unbroken line inside
  · rw [List.mem_singleton.mp blank]
    exact unbroken_nil

theorem Solid.head {lines : List (List Char)} (solid : Solid lines) : (blockText lines).head? ≠ some '\uFEFF' := by
  cases lines with
  | nil => simp [blockText]
  | cons line rest =>
    obtain ⟨c, cs, rfl⟩ := List.exists_cons_of_ne_nil (solid.filled line List.mem_cons_self)
    have plain := solid.unmarked (c :: cs) List.mem_cons_self
    simpa [blockText] using plain

theorem blockText_ne_nil (lines : List (List Char)) : blockText lines ≠ [] := by simp [blockText]

theorem Solid.head_take {lines : List (List Char)} (solid : Solid lines) (n : Nat) :
    (ofUtf8 none ((toUtf8 (blockText lines)).take n)).head? ≠ some '\uFEFF' := by
  obtain ⟨k, tail, broken, stub, -⟩ := ofUtf8_take (blockText lines) n
  have ends : tail.head? ≠ some '\uFEFF' := by
    rcases stub with rfl | rfl
    · nofun
    · decide
  obtain ⟨c, cs, shape⟩ := List.exists_cons_of_ne_nil (blockText_ne_nil lines)
  have first := solid.head
  rw [broken]
  rw [shape] at first ⊢
  cases k with
  | zero => exact ends
  | succ k => exact first

namespace EventReader

variable {β : Type*} {lines : β → List (List Char)}

theorem read_blocks {blocks : List β} (solid : ∀ b ∈ blocks, Solid (lines b)) {r : EventReader} (start : r.AtLine) :
    r.read (blocks.flatMap fun b => blockText (lines b)) = blocks.foldl (fun r b => r.readBlock (lines b)) r ∧
      (blocks.foldl (fun r b => r.readBlock (lines b)) r).AtLine := by
  induction blocks generalizing r with
  | nil => exact ⟨rfl, start⟩
  | cons b blocks ih =>
    obtain ⟨read, atLine⟩ := read_lines (solid b List.mem_cons_self).ended start
    rw [List.flatMap_cons, read_append, blockText, read]
    exact ih (fun other member => solid other (List.mem_cons_of_mem b member)) atLine

/-- The reader of a body that breaks off anywhere has taken the blocks that arrived whole, and nothing of
the next. -/
theorem read_cut {blocks : List β} (solid : ∀ b ∈ blocks, Solid (lines b)) {r : EventReader} (start : r.AtLine) (n : Nat) :
    (r.read (decodeBody ((blocks.flatMap fun b => toUtf8 (blockText (lines b))).take n))).events =
      ((blocks.take (wholeIn (fun b => toUtf8 (blockText (lines b))) n blocks)).foldl (fun r b => r.readBlock (lines b)) r).events := by
  obtain ⟨k, cut, short⟩ := take_flatMap (fun b => toUtf8 (blockText (lines b))) n blocks
  generalize wholeIn (fun b => toUtf8 (blockText (lines b))) n blocks = m at cut short
  have text : (blocks.take m).flatMap (fun b => toUtf8 (blockText (lines b))) =
      toUtf8 ((blocks.take m).flatMap fun b => blockText (lines b)) := by
    rw [toUtf8, List.flatMap_assoc]
    rfl
  obtain ⟨whole, atLine⟩ := read_blocks (fun b member => solid b (List.mem_of_mem_take member)) start
  have decoded : ofUtf8 none ((blocks.flatMap fun b => toUtf8 (blockText (lines b))).take n) =
      ((blocks.take m).flatMap fun b => blockText (lines b)) ++
        ofUtf8 none ((blocks[m]?.elim [] fun b => toUtf8 (blockText (lines b))).take k) := by
    rw [cut, text, ofUtf8_toUtf8_append]
  have rest : ∀ r : EventReader, r.AtLine →
      (r.read (ofUtf8 none ((blocks[m]?.elim [] fun b => toUtf8 (blockText (lines b))).take k))).events = r.events := by
    intro r start
    cases found : blocks[m]? with
    | none => simp [ofUtf8, EventReader.read]
    | some b =>
      have inside := solid b (List.mem_of_getElem? found)
      obtain ⟨j, tail, broken, stub, before⟩ := ofUtf8_take (blockText (lines b)) k
      have unbroken : Unbroken tail := by
        intro c member
        rcases stub with rfl | rfl
        · cases member
        · rw [List.mem_singleton.mp member]
          decide
      rw [Option.elim_some, broken]
      exact events_cut inside.unbroken inside.filled start (before (short b found)) unbroken
  have plain : (ofUtf8 none ((blocks.flatMap fun b => toUtf8 (blockText (lines b))).take n)).head? ≠ some '\uFEFF' := by
    rw [decoded]
    cases front : blocks.take m with
    | nil =>
      cases found : blocks[m]? with
      | none => simp [ofUtf8]
      | some b => exact (solid b (List.mem_of_getElem? found)).head_take k
    | cons b rest =>
      have member : b ∈ blocks.take m := by rw [front]; exact List.mem_cons_self
      obtain ⟨c, cs, shape⟩ := List.exists_cons_of_ne_nil (blockText_ne_nil (lines b))
      have first := (solid b (List.mem_of_mem_take member)).head
      rw [List.flatMap_cons, shape]
      rwa [shape] at first
  rw [decodeBody_plain plain, decoded, read_append, whole]
  exact rest _ atLine

end EventReader

end GroupButler.Foundation
