import GroupButler.Ai.Sanitize

/-!
# Comma-separated values

The hand-rolled reader of an attachment's table, and what it makes of a table written in its grammar.
-/

namespace GroupButler.Tools.Csv
open Foundation Ai

/-- `MEDIA_TOOL_LIMITS.cellScalars` -/
def cellScalars : Nat := 2000

structure CsvTable where
  columns : List String
  rows : List (List String)
  truncated : Bool
  deriving DecidableEq, Repr

/-- The reader's variables. -/
structure Reader where
  records : List (List String) := []
  row : List String := []
  field : List Char := []
  quoted : Bool := false
  truncated : Bool := false
  deriving DecidableEq, Repr

section
variable (maxRows maxColumns : Nat)

def Reader.endField (s : Reader) : Reader :=
  let clipped := clipScalars (String.ofList s.field) cellScalars
  let narrow := decide (s.row.length < maxColumns)
  { s with
    row := if narrow then s.row ++ [clipped.value] else s.row
    field := []
    truncated := s.truncated || clipped.truncated || !narrow }

def Reader.endRecord (s : Reader) : Reader :=
  let s := s.endField maxColumns
  let short := decide (s.records.length < maxRows + 1)
  { s with
    records := if short then s.records ++ [s.row] else s.records
    row := []
    truncated := s.truncated || !short }

/-- One character with the next one, and whether the next one was read with it. -/
def Reader.step (s : Reader) (c : Char) (next : Option Char) : Reader × Bool :=
  if s.quoted then
    if c ≠ '"' then ({ s with field := s.field ++ [c] }, false)
    else if next = some '"' then ({ s with field := s.field ++ ['"'] }, true)
    else ({ s with quoted := false }, false)
  else if c = '"' then ({ s with quoted := true }, false)
  else if c = ',' then (s.endField maxColumns, false)
  else if c ≠ '\n' ∧ c ≠ '\r' then ({ s with field := s.field ++ [c] }, false)
  else (s.endRecord maxRows maxColumns, decide (c = '\r' ∧ next = some '\n'))

/-- The loop over the source. -/
def readCsv : Reader → List Char → Reader
  | s, [] => s
  | s, [c] => (s.step maxRows maxColumns c none).1
  | s, c :: next :: rest =>
    let (s, both) := s.step maxRows maxColumns c (some next)
    if both then readCsv s rest else readCsv s (next :: rest)

def Reader.finish (s : Reader) : Reader :=
  let s := if s.field ≠ [] ∨ 0 < s.row.length then s.endRecord maxRows maxColumns else s
  { s with truncated := s.truncated || s.quoted }

def withoutMark (text : List Char) : List Char :=
  match text with
  | [] => []
  | c :: rest => if c = '\uFEFF' then rest else c :: rest

def parseCsv (text : String) : CsvTable :=
  let s := (readCsv maxRows maxColumns {} (withoutMark text.toList)).finish maxRows maxColumns
  { columns := s.records.head?.getD [], rows := s.records.drop 1, truncated := s.truncated }

end

example : parseCsv 9 2 "a,\"b\"\"\r\n\"\r\n\n1,2,3" = ⟨["a", "b\"\r\n"], [[""], ["1", "2"]], true⟩ := by decide

/-! ### Writing -/

inductive Ending where
  | lf | cr | crlf
  deriving DecidableEq, Repr

def Ending.chars : Ending → List Char
  | .lf => ['\n']
  | .cr => ['\r']
  | .crlf => ['\r', '\n']

/-- A quote, a comma or a line end. -/
def special (c : Char) : Bool := c = '"' || c = ',' || c = '\r' || c = '\n'

/-- A cell as it is written; one with a special character is quoted. -/
structure WrittenCell where
  text : String
  quoted : Bool
  plain : quoted = false → ∀ c ∈ text.toList, special c = false

def doubled (cs : List Char) : List Char := cs.flatMap fun c => if c = '"' then ['"', '"'] else [c]

def WrittenCell.chars (cell : WrittenCell) : List Char :=
  if cell.quoted then '"' :: (doubled cell.text.toList ++ ['"']) else cell.text.toList

structure WrittenRecord where
  cells : List WrittenCell
  some_ : cells ≠ []
  ending : Ending

def WrittenRecord.chars (record : WrittenRecord) : List Char :=
  [','].intercalate (record.cells.map WrittenCell.chars) ++ record.ending.chars

def WrittenRecord.texts (record : WrittenRecord) : List String := record.cells.map WrittenCell.text

structure WrittenTable where
  mark : Bool
  records : List WrittenRecord

def WrittenTable.text (table : WrittenTable) : String :=
  String.ofList ((if table.mark then ['\uFEFF'] else []) ++ table.records.flatMap WrittenRecord.chars)

def WrittenTable.cells (table : WrittenTable) : List (List String) := table.records.map WrittenRecord.texts

def cutCell (cell : String) : String := String.ofList (cell.toList.take cellScalars)

/-- A table within the three bounds. -/
def cutTable (maxRows maxColumns : Nat) (table : List (List String)) : List (List String) :=
  (table.take (maxRows + 1)).map fun record => (record.take maxColumns).map cutCell

/-! ### Reading what was written -/

section
variable (maxRows maxColumns : Nat)

theorem readCsv_cons (s : Reader) (c : Char) (rest : List Char) :
    readCsv maxRows maxColumns s (c :: rest) =
      if (s.step maxRows maxColumns c rest.head?).2 then readCsv maxRows maxColumns (s.step maxRows maxColumns c rest.head?).1 rest.tail
      else readCsv maxRows maxColumns (s.step maxRows maxColumns c rest.head?).1 rest := by
  cases rest with
  | nil =>
    rw [List.head?_nil, List.tail_nil, readCsv, readCsv, ite_self]
  | cons next rest => rw [readCsv, List.head?_cons, List.tail_cons]

theorem readCsv_plain {s : Reader} (closed : s.quoted = false) {cs : List Char} (plain : ∀ c ∈ cs, special c = false) (rest : List Char) :
    readCsv maxRows maxColumns s (cs ++ rest) = readCsv maxRows maxColumns { s with field := s.field ++ cs } rest := by
  induction cs generalizing s with
  | nil => simp
  | cons c cs ih =>
    have other := plain c List.mem_cons_self
    simp only [special, Bool.or_eq_false_iff, decide_eq_false_iff_not] at other
    obtain ⟨⟨⟨quote, comma⟩, carriage⟩, feed⟩ := other
    have step : s.step maxRows maxColumns c (cs ++ rest).head? = ({ s with field := s.field ++ [c] }, false) := by
      simp [Reader.step, closed, quote, comma, carriage, feed]
    rw [List.cons_append, readCsv_cons, step]
    have next := ih (s := { s with field := s.field ++ [c] }) closed fun c member => plain c (List.mem_cons_of_mem _ member)
    simpa using next

theorem readCsv_doubled {s : Reader} (inside : s.quoted = true) (cs : List Char) {rest : List Char} (next : rest.head? ≠ some '"') :
    readCsv maxRows maxColumns s (doubled cs ++ '"' :: rest) =
      readCsv maxRows maxColumns { s with field := s.field ++ cs, quoted := false } rest := by
  induction cs generalizing s with
  | nil =>
    have step : s.step maxRows maxColumns '"' rest.head? = ({ s with quoted := false }, false) := by
      simp [Reader.step, inside, next]
    rw [doubled, List.flatMap_nil, List.nil_append, readCsv_cons, step, List.append_nil]
    rfl
  | cons c cs ih =>
    have more := ih (s := { s with field := s.field ++ [c] }) inside
    rw [List.append_assoc, List.singleton_append] at more
    rw [← more]
    by_cases quote : c = '"'
    · subst quote
      have step : s.step maxRows maxColumns '"' (some '"') = ({ s with field := s.field ++ ['"'] }, true) := by
        simp [Reader.step, inside]
      have front : doubled ('"' :: cs) ++ '"' :: rest = '"' :: '"' :: (doubled cs ++ '"' :: rest) := by simp [doubled]
      rw [front, readCsv_cons, List.head?_cons, step]
      rfl
    · have step : s.step maxRows maxColumns c (doubled cs ++ '"' :: rest).head? = ({ s with field := s.field ++ [c] }, false) := by
        simp [Reader.step, inside, quote]
      have front : doubled (c :: cs) ++ '"' :: rest = c :: (doubled cs ++ '"' :: rest) := by simp [doubled, quote]
      rw [front, readCsv_cons, step]
      rfl

/-- Between two cells. -/
def Reader.Fresh (s : Reader) : Prop := s.field = [] ∧ s.quoted = false

theorem readCsv_cell {s : Reader} (fresh : s.Fresh) (cell : WrittenCell) {rest : List Char} (next : rest.head? ≠ some '"') :
    readCsv maxRows maxColumns s (cell.chars ++ rest) = readCsv maxRows maxColumns { s with field := cell.text.toList } rest := by
  obtain ⟨none, closed⟩ := fresh
  unfold WrittenCell.chars
  cases quoted : cell.quoted with
  | false =>
    have plain := readCsv_plain maxRows maxColumns closed (cell.plain quoted) rest
    simpa [none] using plain
  | true =>
    have step : s.step maxRows maxColumns '"' (doubled cell.text.toList ++ '"' :: rest).head? = ({ s with quoted := true }, false) := by
      simp [Reader.step, closed]
    have body := readCsv_doubled maxRows maxColumns (s := { s with quoted := true }) rfl
      cell.text.toList next
    have front : '"' :: (doubled cell.text.toList ++ ['"']) ++ rest = '"' :: (doubled cell.text.toList ++ '"' :: rest) := by simp
    rw [if_pos rfl, front, readCsv_cons, step]
    simpa [none, closed] using body

/-- A record's last cell is ended by its line end. -/
def Reader.addCell (s : Reader) (text : String) : Reader := { s with field := text.toList }.endField maxColumns

def Reader.close (s : Reader) : Reader :=
  let short := decide (s.records.length < maxRows + 1)
  { s with
    records := if short then s.records ++ [s.row] else s.records
    row := []
    truncated := s.truncated || !short }

def Reader.addRecord (s : Reader) (texts : List String) : Reader := (texts.foldl (Reader.addCell maxColumns) s).close maxRows

theorem addCell_fresh {s : Reader} (fresh : s.Fresh) (text : String) : (s.addCell maxColumns text).Fresh := ⟨rfl, fresh.2⟩

theorem step_line_end {s : Reader} (closed : s.quoted = false) {c : Char} (ends : c = '\n' ∨ c = '\r') (next : Option Char) :
    s.step maxRows maxColumns c next = ((s.endField maxColumns).close maxRows, decide (c = '\r' ∧ next = some '\n')) := by
  have quote : c ≠ '"' := by rcases ends with rfl | rfl <;> decide
  have comma : c ≠ ',' := by rcases ends with rfl | rfl <;> decide
  have ends : ¬ (c ≠ '\n' ∧ c ≠ '\r') := by tauto
  rw [Reader.step, closed, if_neg (by decide), if_neg quote, if_neg comma, if_neg ends]
  rfl

theorem readCsv_ending {s : Reader} (closed : s.quoted = false) (ending : Ending) {rest : List Char}
    (single : ending = .cr → rest.head? ≠ some '\n') :
    readCsv maxRows maxColumns s (ending.chars ++ rest) = readCsv maxRows maxColumns ((s.endField maxColumns).close maxRows) rest := by
  cases ending with
  | lf => rw [Ending.chars, List.singleton_append, readCsv_cons, step_line_end _ _ closed (Or.inl rfl), if_neg (by simp)]
  | cr =>
    have alone := single rfl
    rw [Ending.chars, List.singleton_append, readCsv_cons, step_line_end _ _ closed (Or.inr rfl), if_neg (by simp [alone])]
  | crlf =>
    rw [Ending.chars, List.cons_append, readCsv_cons, step_line_end _ _ closed (Or.inr rfl), if_pos (by simp)]
    rfl

/-- No quote follows a cell: a comma does, or a line end. -/
theorem ending_head (ending : Ending) (rest : List Char) : (ending.chars ++ rest).head? ≠ some '"' := by
  cases ending <;> simp [Ending.chars]

theorem readCsv_cells {s : Reader} (fresh : s.Fresh) {cells : List WrittenCell} (some_ : cells ≠ []) (ending : Ending)
    {rest : List Char} (single : ending = .cr → rest.head? ≠ some '\n') :
    readCsv maxRows maxColumns s ([','].intercalate (cells.map WrittenCell.chars) ++ (ending.chars ++ rest)) =
      readCsv maxRows maxColumns (s.addRecord maxRows maxColumns (cells.map WrittenCell.text)) rest := by
  induction cells generalizing s with
  | nil => exact absurd rfl some_
  | cons cell cells ih =>
    cases cells with
    | nil =>
      rw [List.map_singleton, List.intercalate_singleton, readCsv_cell _ _ fresh cell (ending_head ending rest)]
      exact readCsv_ending maxRows maxColumns (s := { s with field := cell.text.toList }) fresh.2 ending single
    | cons next cells =>
      have step : { s with field := cell.text.toList }.step maxRows maxColumns ','
          ([','].intercalate ((next :: cells).map WrittenCell.chars) ++ (ending.chars ++ rest)).head? =
            (s.addCell maxColumns cell.text, false) := by
        simp [Reader.step, fresh.2, Reader.addCell]
      rw [List.map_cons, List.map_cons, List.intercalate_cons_cons, List.append_assoc, List.append_assoc,
        readCsv_cell _ _ fresh cell (by simp), List.singleton_append, readCsv_cons, ← List.map_cons, step]
      exact ih (addCell_fresh maxColumns fresh cell.text) (List.cons_ne_nil _ _)

theorem addRecord_fresh {s : Reader} (fresh : s.Fresh) {texts : List String} : (s.addRecord maxRows maxColumns texts).Fresh := by
  have cells : (texts.foldl (Reader.addCell maxColumns) s).Fresh := by
    induction texts generalizing s with
    | nil => exact fresh
    | cons text texts ih => exact ih (addCell_fresh maxColumns fresh text)
  exact cells

theorem special_feed : special '\n' = true := by decide

/-- Only an empty record that ends in a line feed starts with one. -/
theorem record_head {record : WrittenRecord} (feed : record.chars.head? = some '\n') : record.chars = ['\n'] := by
  obtain ⟨cells, some_, ending⟩ := record
  obtain ⟨cell, cells, rfl⟩ := List.exists_cons_of_ne_nil some_
  have empty : cell.chars = [] := by
    cases chars : cell.chars with
    | nil => rfl
    | cons c cs =>
      have first : c = '\n' := by
        cases cells <;> simpa [WrittenRecord.chars, List.intercalate_cons_cons, chars] using feed
      unfold WrittenCell.chars at chars
      split at chars
      · obtain ⟨rfl, -⟩ := List.cons.inj chars
        exact absurd first (by decide)
      · rename_i open_
        have plain := cell.plain (by simpa using open_) c (by rw [chars]; exact List.mem_cons_self)
        rw [first, special_feed] at plain
        cases plain
  cases cells with
  | nil => cases ending <;> simp_all [WrittenRecord.chars, Ending.chars]
  | cons next cells => simp [WrittenRecord.chars, List.intercalate_cons_cons, empty] at feed

/-- No record that ends in a carriage return stands in front of a bare line feed. -/
def Parted (records : List WrittenRecord) : Prop := records.IsChain fun record next => record.ending = .cr → next.chars ≠ ['\n']

theorem readCsv_records {s : Reader} (fresh : s.Fresh) {records : List WrittenRecord} (parted : Parted records) :
    readCsv maxRows maxColumns s (records.flatMap WrittenRecord.chars) =
      (records.map WrittenRecord.texts).foldl (Reader.addRecord maxRows maxColumns) s := by
  induction records generalizing s with
  | nil => simp [readCsv]
  | cons record records ih =>
    have single : record.ending = .cr → (records.flatMap WrittenRecord.chars).head? ≠ some '\n' := by
      intro carriage feed
      cases records with
      | nil => simp at feed
      | cons next records =>
        have nonempty : next.chars ≠ [] := by
          cases ending : next.ending <;> simp [WrittenRecord.chars, Ending.chars, ending]
        rw [List.flatMap_cons, List.head?_append_of_ne_nil _ nonempty] at feed
        exact (List.isChain_cons_cons.mp parted).1 carriage (record_head feed)
    have cells := readCsv_cells maxRows maxColumns fresh record.some_ record.ending single
    rw [List.flatMap_cons, WrittenRecord.chars, List.append_assoc, cells]
    exact ih (addRecord_fresh maxRows maxColumns fresh) (List.isChain_of_isChain_cons parted)

/-! ### What the records amount to -/

/-- A cell `clipScalars` reports as cut. -/
def long (cell : String) : Bool := decide (cellScalars < (utf16 cell).length)

theorem addCell_eq (s : Reader) (text : String) :
    s.addCell maxColumns text =
      { s with
        row := if s.row.length < maxColumns then s.row ++ [cutCell text] else s.row
        field := []
        truncated := s.truncated || long text || !decide (s.row.length < maxColumns) } := by
  have value := clipScalars_value text cellScalars
  have flag := clipScalars_truncated text cellScalars
  unfold Reader.addCell Reader.endField
  simp only [String.ofList_toList, value, flag, decide_eq_true_eq]
  rfl

theorem cells_eq {s : Reader} (narrow : s.row.length ≤ maxColumns) (texts : List String) :
    (texts.foldl (Reader.addCell maxColumns) s).records = s.records ∧
      (texts.foldl (Reader.addCell maxColumns) s).row = (s.row ++ texts.map cutCell).take maxColumns ∧
      (texts.foldl (Reader.addCell maxColumns) s).truncated =
        (s.truncated || texts.any long || decide (maxColumns < s.row.length + texts.length)) := by
  induction texts generalizing s with
  | nil =>
    refine ⟨rfl, ?_, ?_⟩
    · rw [List.map_nil, List.append_nil, List.take_of_length_le narrow]
      rfl
    · simp [Nat.not_lt.mpr narrow]
  | cons text texts ih =>
    have cell := addCell_eq maxColumns s text
    rw [List.foldl_cons]
    by_cases room : s.row.length < maxColumns
    · rw [if_pos room] at cell
      have grown : (s.addCell maxColumns text).row.length = s.row.length + 1 := by rw [cell]; simp
      obtain ⟨records, row, flag⟩ := ih (s := s.addCell maxColumns text) (by omega)
      refine ⟨by rw [records, cell], ?_, ?_⟩
      · rw [row, cell]
        simp
      · rw [flag, grown, cell]
        simp [room, Bool.or_assoc, Nat.add_assoc, Nat.add_comm 1]
    · rw [if_neg room] at cell
      have full : s.row.length = maxColumns := by omega
      have kept : (s.addCell maxColumns text).row = s.row := by rw [cell]
      obtain ⟨records, row, flag⟩ := ih (s := s.addCell maxColumns text) (by rw [kept]; exact narrow)
      refine ⟨by rw [records, cell], ?_, ?_⟩
      · rw [row, kept, List.take_append_of_le_length full.ge, List.take_append_of_le_length full.ge]
      · rw [flag, kept, cell]
        simp [full]

theorem records_fresh {s : Reader} (fresh : s.Fresh) (table : List (List String)) :
    (table.foldl (Reader.addRecord maxRows maxColumns) s).Fresh := by
  induction table generalizing s with
  | nil => exact fresh
  | cons texts table ih => exact ih (addRecord_fresh maxRows maxColumns fresh)

/-- A record cut to the columns and the cells. -/
def cutRecord (texts : List String) : List String := (texts.take maxColumns).map cutCell

theorem addRecord_eq {s : Reader} (start : s.row = []) (texts : List String) :
    (s.addRecord maxRows maxColumns texts).row = [] ∧
      (s.addRecord maxRows maxColumns texts).records =
        (if s.records.length < maxRows + 1 then s.records ++ [cutRecord maxColumns texts] else s.records) ∧
      (s.addRecord maxRows maxColumns texts).truncated =
        (s.truncated || (texts.any long || decide (maxColumns < texts.length)) || !decide (s.records.length < maxRows + 1)) := by
  obtain ⟨records, row, flag⟩ := cells_eq maxColumns (by rw [start]; exact Nat.zero_le _) texts
  rw [start, List.nil_append, ← List.map_take] at row
  rw [start, List.length_nil, Nat.zero_add] at flag
  unfold Reader.addRecord Reader.close
  dsimp only
  rw [records, row, flag]
  refine ⟨rfl, ?_, ?_⟩
  · simp only [decide_eq_true_eq]
    rfl
  · simp only [Bool.or_assoc]

theorem records_eq {s : Reader} (start : s.row = []) (short : s.records.length ≤ maxRows + 1) (table : List (List String)) :
    (table.foldl (Reader.addRecord maxRows maxColumns) s).row = [] ∧
      (table.foldl (Reader.addRecord maxRows maxColumns) s).records = (s.records ++ table.map (cutRecord maxColumns)).take (maxRows + 1) ∧
      (table.foldl (Reader.addRecord maxRows maxColumns) s).truncated =
        (s.truncated || table.any (fun texts => texts.any long || decide (maxColumns < texts.length)) ||
          decide (maxRows + 1 < s.records.length + table.length)) := by
  induction table generalizing s with
  | nil =>
    refine ⟨start, ?_, ?_⟩
    · rw [List.map_nil, List.append_nil, List.take_of_length_le short]
      rfl
    · simp [Nat.not_lt.mpr short]
  | cons texts table ih =>
    obtain ⟨row, records, flag⟩ := addRecord_eq maxRows maxColumns start texts
    rw [List.foldl_cons]
    by_cases room : s.records.length < maxRows + 1
    · rw [if_pos room] at records
      obtain ⟨rest, all, cut⟩ := ih row (by rw [records]; simp; omega)
      refine ⟨rest, ?_, ?_⟩
      · rw [all, records]
        simp
      · rw [cut, flag, records]
        simp [room, Bool.or_assoc, Nat.add_assoc, Nat.add_comm 1]
    · rw [if_neg room] at records
      have full : s.records.length = maxRows + 1 := by omega
      obtain ⟨rest, all, cut⟩ := ih row (by rw [records]; exact short)
      refine ⟨rest, ?_, ?_⟩
      · rw [all, records, List.take_append_of_le_length full.ge, List.take_append_of_le_length full.ge]
      · rw [cut, flag, records]
        simp [full]

end

/-! ### The round trip -/

/-- The text can be read one way only: a mark in front is no part of a cell, and a carriage return with the line
feed behind it is one line end. -/
structure WrittenTable.Unambiguous (table : WrittenTable) : Prop where
  mark : table.mark = false → ∀ record ∈ table.records.head?, ∀ cell ∈ record.cells.head?, cell.quoted = false →
    cell.text.toList.head? ≠ some '\uFEFF'
  parted : Parted table.records

theorem withoutMark_other {text : List Char} (other : text.head? ≠ some '\uFEFF') : withoutMark text = text := by
  cases text with
  | nil => rfl
  | cons c rest => exact if_neg fun mark => other (by rw [mark]; rfl)

theorem cell_mark {cell : WrittenCell} (mark : cell.chars.head? = some '\uFEFF') :
    cell.quoted = false ∧ cell.text.toList.head? = some '\uFEFF' := by
  unfold WrittenCell.chars at mark
  cases quoted : cell.quoted with
  | true => simp [quoted] at mark
  | false => exact ⟨rfl, by simpa [quoted] using mark⟩

theorem chars_ne_nil (record : WrittenRecord) : record.chars ≠ [] := by
  cases ending : record.ending <;> simp [WrittenRecord.chars, Ending.chars, ending]

theorem record_mark {record : WrittenRecord} (mark : record.chars.head? = some '\uFEFF') :
    ∃ cell ∈ record.cells.head?, cell.chars.head? = some '\uFEFF' := by
  obtain ⟨cells, some_, ending⟩ := record
  obtain ⟨cell, cells, rfl⟩ := List.exists_cons_of_ne_nil some_
  refine ⟨cell, rfl, ?_⟩
  cases chars : cell.chars with
  | cons c cs => cases cells <;> simpa [WrittenRecord.chars, List.intercalate_cons_cons, chars] using mark
  | nil =>
    cases cells with
    | nil => cases ending <;> simp [WrittenRecord.chars, Ending.chars, chars] at mark
    | cons next cells => simp [WrittenRecord.chars, List.intercalate_cons_cons, chars] at mark

theorem withoutMark_eq {table : WrittenTable} (clear : table.Unambiguous) :
    withoutMark table.text.toList = table.records.flatMap WrittenRecord.chars := by
  rw [WrittenTable.text, String.toList_ofList]
  cases marked : table.mark with
  | true => rfl
  | false =>
    apply withoutMark_other
    intro mark
    cases records : table.records with
    | nil => simp [records] at mark
    | cons record records' =>
      have first : record.chars.head? = some '\uFEFF' := by
        simpa [records, List.head?_append_of_ne_nil _ (chars_ne_nil record)] using mark
      obtain ⟨cell, front, chars⟩ := record_mark first
      obtain ⟨plain, text⟩ := cell_mark chars
      exact clear.mark marked record (by rw [records]; rfl) cell front plain text

/-- The reader's answer, bound by bound. -/
theorem parseCsv_eq (maxRows maxColumns : Nat) {table : WrittenTable} (clear : table.Unambiguous) :
    parseCsv maxRows maxColumns table.text =
      { columns := (cutTable maxRows maxColumns table.cells).head?.getD []
        rows := (cutTable maxRows maxColumns table.cells).drop 1
        truncated := table.cells.any (fun texts => texts.any long || decide (maxColumns < texts.length)) ||
          decide (maxRows + 1 < table.cells.length) } := by
  have read := readCsv_records maxRows maxColumns (s := {}) ⟨rfl, rfl⟩ clear.parted
  obtain ⟨row, records, flag⟩ := records_eq maxRows maxColumns (s := {}) rfl (Nat.zero_le _) table.cells
  obtain ⟨field, quoted⟩ := records_fresh maxRows maxColumns (s := {}) ⟨rfl, rfl⟩ table.cells
  have finished : (table.cells.foldl (Reader.addRecord maxRows maxColumns) {}).finish maxRows maxColumns =
      table.cells.foldl (Reader.addRecord maxRows maxColumns) {} := by
    generalize table.cells.foldl (Reader.addRecord maxRows maxColumns) {} = s at *
    obtain ⟨_, _, _, _, _⟩ := s
    subst row field quoted
    simp [Reader.finish]
  have cut : cutTable maxRows maxColumns table.cells = (table.cells.map (cutRecord maxColumns)).take (maxRows + 1) := List.map_take
  rw [List.nil_append, ← cut] at records
  unfold parseCsv
  rw [withoutMark_eq clear, read, ← WrittenTable.cells, finished]
  dsimp only
  rw [records, flag]
  simp

theorem cutTable_whole {maxRows maxColumns : Nat} {table : List (List String)} (whole : cutTable maxRows maxColumns table = table) :
    table.length ≤ maxRows + 1 ∧ ∀ texts ∈ table, texts.length ≤ maxColumns := by
  have short : table.length ≤ maxRows + 1 := by
    have length := congrArg List.length whole
    rw [cutTable, List.length_map, List.length_take] at length
    omega
  refine ⟨short, fun texts member => ?_⟩
  rw [cutTable, List.take_of_length_le short] at whole
  have same := List.map_inj_left.mp (whole.trans (List.map_id _).symm) texts member
  have length := congrArg List.length same
  rw [List.length_map, List.length_take] at length
  simp only [id] at length
  omega

/-- What is not reported is within the bounds. -/
theorem cutTable_within {maxRows maxColumns : Nat} {table : List (List String)} (short : table.length ≤ maxRows + 1)
    (within : ∀ texts ∈ table, texts.length ≤ maxColumns ∧ ∀ cell ∈ texts, long cell = false) :
    cutTable maxRows maxColumns table = table := by
  rw [cutTable, List.take_of_length_le short]
  conv_rhs => rw [← List.map_id table]
  apply List.map_congr_left
  intro texts member
  obtain ⟨narrow, cells⟩ := within texts member
  rw [List.take_of_length_le narrow, id]
  conv_rhs => rw [← List.map_id texts]
  apply List.map_congr_left
  intro cell inside
  have units := of_decide_eq_false (cells cell inside)
  rw [cutCell, List.take_of_length_le ((length_le_units cell.toList).trans (Nat.le_of_not_lt units)), String.ofList_toList, id]

/-- Reading undoes writing within the three bounds. -/
theorem parseCsv_written {table : WrittenTable} (some_ : table.records ≠ []) (clear : table.Unambiguous) (maxRows maxColumns : Nat) :
    (parseCsv maxRows maxColumns table.text).columns :: (parseCsv maxRows maxColumns table.text).rows =
        cutTable maxRows maxColumns table.cells ∧
      (cutTable maxRows maxColumns table.cells ≠ table.cells → (parseCsv maxRows maxColumns table.text).truncated = true) ∧
      ((parseCsv maxRows maxColumns table.text).truncated = true → cutTable maxRows maxColumns table.cells ≠ table.cells ∨
        ∃ texts ∈ table.cells, ∃ cell ∈ texts, cellScalars < (utf16 cell).length) := by
  rw [parseCsv_eq maxRows maxColumns clear]
  refine ⟨?_, fun removed => ?_, fun truncated => ?_⟩
  · have nonempty : cutTable maxRows maxColumns table.cells ≠ [] := by
      simp [cutTable, WrittenTable.cells, some_]
    obtain ⟨first, rest, shape⟩ := List.exists_cons_of_ne_nil nonempty
    rw [shape]
    rfl
  · by_contra kept
    dsimp only at kept
    simp only [Bool.not_eq_true, Bool.or_eq_false_iff, List.any_eq_false, decide_eq_false_iff_not, Nat.not_lt] at kept
    obtain ⟨within, short⟩ := kept
    apply removed
    apply cutTable_within short
    intro texts member
    obtain ⟨cells, narrow⟩ := within texts member
    exact ⟨narrow, cells⟩
  · by_contra none
    rw [not_or, not_not] at none
    obtain ⟨whole, short⟩ := none
    obtain ⟨rows, columns⟩ := cutTable_whole whole
    simp only [Bool.or_eq_true, List.any_eq_true, decide_eq_true_eq] at truncated
    rcases truncated with ⟨texts, member, ⟨cell, inside, units⟩ | wide⟩ | tall
    · exact short ⟨texts, member, cell, inside, of_decide_eq_true units⟩
    · exact absurd (columns texts member) (Nat.not_le.mpr wide)
    · exact absurd rows (Nat.not_le.mpr tall)

/-- A mark, a quoted cell, an empty one and two line ends. -/
def quotedTable : WrittenTable where
  mark := true
  records := [⟨[⟨"a,\n\"", true, by simp⟩, ⟨"", false, by simp⟩], by simp, .cr⟩, ⟨[⟨"1", false, fun _ => forall_mem_of_all (by decide)⟩], by simp, .crlf⟩]

theorem quotedTable_clear : quotedTable.Unambiguous where
  mark := by simp [quotedTable]
  parted := by simp [quotedTable, Parted, WrittenRecord.chars, WrittenCell.chars, Ending.chars]

theorem quotedTable_read :
    (parseCsv 5 1 quotedTable.text).columns :: (parseCsv 5 1 quotedTable.text).rows = cutTable 5 1 quotedTable.cells ∧
      (cutTable 5 1 quotedTable.cells ≠ quotedTable.cells → (parseCsv 5 1 quotedTable.text).truncated = true) ∧
      ((parseCsv 5 1 quotedTable.text).truncated = true → cutTable 5 1 quotedTable.cells ≠ quotedTable.cells ∨
        ∃ texts ∈ quotedTable.cells, ∃ cell ∈ texts, cellScalars < (utf16 cell).length) :=
  parseCsv_written (by simp [quotedTable]) quotedTable_clear 5 1

/-- A cell that starts with a mark, and none in front. -/
def markedCell : WrittenTable := ⟨false, [⟨[⟨"\uFEFFa", false, fun _ => forall_mem_of_all (by decide)⟩], by simp, .lf⟩]⟩

/-- A carriage return, and a record that is a line feed. -/
def splitEnding : WrittenTable :=
  ⟨false, [⟨[⟨"a", false, fun _ => forall_mem_of_all (by decide)⟩], by simp, .cr⟩, ⟨[⟨"", false, by simp⟩], by simp, .lf⟩]⟩

theorem mark_and_feed_lost :
    (parseCsv 1 1 markedCell.text).columns :: (parseCsv 1 1 markedCell.text).rows ≠ cutTable 1 1 markedCell.cells ∧
      (parseCsv 1 1 splitEnding.text).columns :: (parseCsv 1 1 splitEnding.text).rows ≠ cutTable 1 1 splitEnding.cells := by
  decide

end GroupButler.Tools.Csv
