import GroupButler.Ai.Gate
import GroupButler.Foundation.Utf8
import GroupButler.Tools.Answer
import GroupButler.Tools.Confined
import GroupButler.Tools.Csv
import GroupButler.Tools.Media
import GroupButler.Tools.Ooxml

/-!
# The text of an attachment

What `media_read_csv` and `media_read_document` make of a stored file. The local extractors are parameters: any
bytes may come out of them.
-/

namespace GroupButler.Tools.Documents
open Foundation Ai Ooxml

/-! ### A workbook's parts -/

/-- `<name\b[^>]*>`: what stands in it behind the name. -/
def startTag (name cs : List Char) : Option (List Char) :=
  if ('<' :: name).isPrefixOf cs && !(cs.drop (name.length + 1)).head?.any isWordChar then untilClose (cs.drop (name.length + 1))
  else none

/-- `[\s\S]*?` in front of a word -/
def textBefore (word : List Char) : List Char → Option (List Char)
  | [] => none
  | c :: cs => if word.isPrefixOf (c :: cs) then some [] else (textBefore word cs).map (c :: ·)

/-- `<name\b[^>]*>([\s\S]*?)<\/name>`, with its length -/
def enclosed (name cs : List Char) : Option (List Char × Nat) :=
  (startTag name cs).bind fun attributes =>
    (textBefore ('<' :: '/' :: (name ++ ['>'])) (cs.drop (name.length + attributes.length + 2))).map fun inner =>
      (inner, name.length + attributes.length + 2 + inner.length + name.length + 3)

/-- `<name\b[^>]*\/>|<name\b[^>]*>([\s\S]*?)<\/name>`, with its length -/
def element (name cs : List Char) : Option (Option (List Char) × Nat) :=
  (startTag name cs).bind fun attributes =>
    if attributes.getLast? = some '/' then some (none, name.length + attributes.length + 2)
    else (enclosed name cs).map fun (inner, length) => (some inner, length)

def matchesOf {α : Type} (find : List Char → Option (α × Nat)) (cs : List Char) : List α :=
  (matchAll (fun _ => find) 0 0 none cs).map Prod.snd

/-- `<name\b[^>]*>` as a whole, with its length -/
def wholeTag (name cs : List Char) : Option (List Char × Nat) :=
  (startTag name cs).map fun attributes => ('<' :: (name ++ attributes ++ ['>']), name.length + attributes.length + 2)

def isAttributeChar (c : Char) : Bool := isWordChar c || c = ':' || c = '.' || c = '-'

/-- `([\w:.-]+)="([^"]*)"`, with its length -/
def attributeAt (cs : List Char) : Option ((List Char × List Char) × Nat) :=
  let name := cs.takeWhile isAttributeChar
  if name ≠ [] ∧ "=\"".toList.isPrefixOf (cs.drop name.length) then
    let rest := cs.drop (name.length + 2)
    let value := rest.takeWhile (· ≠ '"')
    if value.length < rest.length then some ((name, value), name.length + value.length + 3) else none
  else none

def tagAttributes (tag : List Char) : List (List Char × List Char) := matchesOf attributeAt tag

/-- Of repeated names the last counts. -/
def attributeOf (name : String) (tag : List Char) : Option (List Char) :=
  ((tagAttributes tag).reverse.find? fun entry => entry.1 == name.toList).map Prod.snd

def firstTag (name cs : List Char) : List Char := (matchesOf (wholeTag name) cs).head?.getD []

def sharedStringTable (xml : List Char) : List (List Char) :=
  (matchesOf (element "si".toList) xml).map fun inner => documentXmlText (inner.getD [])

/-- The local programs, the digest and the runtime's `Number`. -/
structure Extractors where
  /-- `pdftotext`'s output, if it ends well. -/
  pdftotext : List Nat → Option (List Nat)
  /-- `unzip -p`'s output for a member of an archive. -/
  unzip : List Nat → List Char → Option (List Nat)
  sha256 : List Nat → String
  /-- `Number(value)` where it is an index. -/
  numberIndex : List Char → Option Nat

section
variable (x : Extractors)

def cellText (cell : List Char) (shared : List (List Char)) : List Char :=
  let type := attributeOf "t" (firstTag "c".toList cell)
  if type = some "inlineStr".toList then documentXmlText ((matchesOf (enclosed "is".toList) cell).head?.getD [])
  else
    let value := documentXmlText ((matchesOf (enclosed "v".toList) cell).head?.getD [])
    if type ≠ some "s".toList then value else ((x.numberIndex value).bind fun index => shared[index]?).getD []

/-- A cell as it stands in its row. -/
def cellAt (cs : List Char) : Option (List Char × Nat) := (element "c".toList cs).map fun (_, length) => (cs.take length, length)

def worksheetText (xml : List Char) (shared : List (List Char)) : List Char :=
  let rows := (matchesOf (element "row".toList) xml).map fun body =>
    ['\t'].intercalate ((matchesOf cellAt (body.getD [])).map fun cell => cellText x cell shared)
  if rows.isEmpty then [] else ['\n'].intercalate rows ++ ['\n']

/-- The worksheet a manifest names first. -/
def firstWorksheetPath (workbook relationships : List Char) : Option (List Char) := do
  let id ← attributeOf "r:id" (firstTag "sheet".toList workbook)
  let tag ← (matchesOf (wholeTag "Relationship".toList) relationships).find? fun tag => attributeOf "Id" tag == some id
  let target ← attributeOf "Target" tag
  let member := if target.head? = some '/' then target.drop 1 else "xl/".toList ++ target
  let sheet := member.drop "xl/worksheets/".length
  if "xl/worksheets/".toList.isPrefixOf member && !sheet.isEmpty && sheet.all (fun c => isWordChar c || c = '.' || c = '-') then
    some member
  else none

/-! ### Extraction -/

/-- `MEDIA_TOOL_LIMITS.extractBytes` -/
def extractBytes : Nat := 1024 * 1024

/-- Nothing, or too much, is no output. -/
def extracted (output : Option (List Nat)) : Option (List Nat) :=
  output.filter fun bytes => 0 < bytes.length && bytes.length ≤ extractBytes

/-- `new TextDecoder("utf-8").decode(bytes)`, which drops a byte order mark. -/
def decodeText (bytes : List Nat) : List Char :=
  ofUtf8 none (if [0xEF, 0xBB, 0xBF].isPrefixOf bytes then bytes.drop 3 else bytes)

def pdfText (bytes : List Nat) : Option (List Char) := (extracted (x.pdftotext bytes)).map decodeText

def packageMember (bytes : List Nat) (member : List Char) : Option (List Char) := (extracted (x.unzip bytes member)).map decodeText

def docxText (bytes : List Nat) : Option (List Char) := (packageMember x bytes "word/document.xml".toList).map documentXmlText

def xlsxText [Normalization] (bytes : List Nat) : Option (List Char) := do
  let workbook ← packageMember x bytes "xl/workbook.xml".toList
  let relationships ← packageMember x bytes "xl/_rels/workbook.xml.rels".toList
  let worksheet ← firstWorksheetPath workbook relationships
  let sheet ← packageMember x bytes worksheet
  let shared := ((packageMember x bytes "xl/sharedStrings.xml".toList).map sharedStringTable).getD []
  let text := (normalizeUntrustedText (String.ofList (worksheetText x sheet shared))).toList
  if text.all isJsSpace then none else some text

def ooxmlText [Normalization] (bytes : List Nat) : Option (List Char) := (xlsxText x bytes).or (docxText x bytes)

def pdfMime : String := "application/pdf"
def docxMime : String := "application/vnd.openxmlformats-officedocument.wordprocessingml.document"
def xlsxMime : String := "application/vnd.openxmlformats-officedocument.spreadsheetml.sheet"
def zipMimes : List String := ["application/zip", "application/x-zip-compressed"]

def clipExtracted (text : Option (List Char)) (maxChars : Nat) : Option Clipped :=
  text.map fun text => clipScalars (String.ofList text) maxChars

def extractDocument [Normalization] (mime : String) (bytes : List Nat) (maxChars : Nat) : Option Clipped :=
  if mime = pdfMime then clipExtracted (pdfText x bytes) maxChars
  else if mime = docxMime then clipExtracted (docxText x bytes) maxChars
  else if mime = xlsxMime then clipExtracted (xlsxText x bytes) maxChars
  else if mime ∈ zipMimes then clipExtracted (ooxmlText x bytes) maxChars
  else
    let text := (normalizeUntrustedText (String.ofList (decodeText bytes))).toList
    if mime = "application/json" ∧ parsesJson text = false then none else clipExtracted (some text) maxChars

/-! ### The two tools -/

/-- `MEDIA_TOOL_LIMITS.resultChars` -/
def resultChars : Nat := 32000

inductive TextPayload where
  | table (messageId : String) (columns : List String) (rows : List (List String)) (truncated : Bool) (sha256 : String)
  | document (messageId mime text : String) (truncated : Bool) (sha256 : String)
  deriving DecidableEq, Repr

def stringsJson (values : List String) : Json := .arr (values.map .str)

def TextPayload.json : TextPayload → Json
  | .table messageId columns rows truncated sha256 =>
    .obj [("ok", .bool true), ("messageId", .str messageId), ("columns", stringsJson columns), ("rows", .arr (rows.map stringsJson)),
      ("truncated", .bool truncated), ("sha256", .str sha256)]
  | .document messageId mime text truncated sha256 =>
    .obj [("ok", .bool true), ("messageId", .str messageId), ("mime", .str mime), ("text", .str text),
      ("truncated", .bool truncated), ("sha256", .str sha256)]

/-- The document text, or every column name and every cell. -/
def TextPayload.texts : TextPayload → List String
  | .table _ columns rows _ _ => columns ++ rows.flatten
  | .document _ _ text _ _ => [text]

/-- The loop that drops rows from the end until the answer fits, for as many rows as there are. -/
def fitRows (answer : List (List String) → Bool → TextPayload) : Nat → List (List String) → Bool → TextPayload
  | 0, rows, truncated => answer rows truncated
  | n + 1, rows, truncated =>
    if rows ≠ [] ∧ resultChars < jsonLength (answer rows truncated).json then fitRows answer n rows.dropLast true
    else answer rows truncated

def fitting (payload : TextPayload) : Option TextPayload := if resultChars < jsonLength payload.json then none else some payload

/-- The `media_read_csv` and `media_read_document` branches, the object's bytes read. -/
def readText [Normalization] (name : MediaToolName) (media : ScopedMedia) (input : BoundedMediaInput) (bytes : List Nat) :
    Option TextPayload :=
  match name with
  | .mediaReadCsv =>
    let table := Csv.parseCsv input.maxRows.toNat input.maxColumns.toNat (String.ofList (decodeText bytes))
    fitting (fitRows (fun rows truncated => .table media.messageId table.columns rows truncated (x.sha256 bytes)) table.rows.length
      table.rows table.truncated)
  | .mediaReadDocument =>
    (extractDocument x media.mime bytes input.maxChars.toNat).bind fun text =>
      fitting (.document media.messageId media.mime text.value text.truncated (x.sha256 bytes))
  | _ => none

/-- The extractors of the text tools, over the store and what the other tools extract. -/
def textReader [Normalization] (reader : MediaReader) : MediaReader where
  readObject := reader.readObject
  extract name media input bytes :=
    if name = .mediaReadCsv ∨ name = .mediaReadDocument then
      (readText x name media input bytes).map fun payload => String.ofList (stringify payload.json)
    else reader.extract name media input bytes

end

/-! ### What is normalised -/

/-- None of the characters `normalizeUntrustedText` takes out. -/
def CleanText (cs : List Char) : Prop := ∀ c ∈ cs, isControl c = false ∧ isForbiddenFormat c = false

theorem normalized_clean [Normalization] (text : String) : CleanText (normalizeUntrustedText text).toList := by
  intro c member
  rw [normalizeUntrustedText, String.toList_ofList] at member
  simpa using (List.mem_filter.mp member).2

theorem CleanText.take {cs : List Char} (clean : CleanText cs) (n : Nat) : CleanText (cs.take n) :=
  fun c member => clean c (List.mem_of_mem_take member)

section
variable (x : Extractors)

theorem xlsxText_clean [Normalization] {bytes : List Nat} {text : List Char} (read : xlsxText x bytes = some text) : CleanText text := by
  unfold xlsxText at read
  simp only [Option.bind_eq_bind, Option.bind_eq_some_iff] at read
  obtain ⟨workbook, -, relationships, -, worksheet, -, sheet, -, shown⟩ := read
  split at shown
  · cases shown
  · obtain rfl := Option.some.inj shown
    exact normalized_clean _

/-- The text a document read takes over as it is: a PDF's and a Word body's. -/
def rawText [Normalization] (mime : String) (bytes : List Nat) : Option (List Char) :=
  if mime = pdfMime then pdfText x bytes
  else if mime = docxMime ∨ mime ∈ zipMimes ∧ xlsxText x bytes = none then docxText x bytes
  else none

theorem clipExtracted_value {text : Option (List Char)} {maxChars : Nat} {clipped : Clipped}
    (read : clipExtracted text maxChars = some clipped) : ∃ cs, text = some cs ∧ clipped.value.toList = cs.take maxChars := by
  obtain ⟨cs, rfl, rfl⟩ := Option.map_eq_some_iff.mp read
  exact ⟨cs, rfl, by rw [clipScalars_value, String.toList_ofList, String.toList_ofList]⟩

theorem extractDocument_clean_iff [Normalization] {mime : String} {bytes : List Nat} {maxChars : Nat} {clipped : Clipped}
    (read : extractDocument x mime bytes maxChars = some clipped) :
    CleanText clipped.value.toList ↔ ∀ text, rawText x mime bytes = some text → CleanText (text.take maxChars) := by
  have raw : ∀ {text : Option (List Char)}, clipExtracted text maxChars = some clipped → rawText x mime bytes = text →
      (CleanText clipped.value.toList ↔ ∀ text, rawText x mime bytes = some text → CleanText (text.take maxChars)) := by
    intro text read same
    obtain ⟨cs, rfl, value⟩ := clipExtracted_value read
    rw [value, same]
    simp
  have normalised : ∀ {text : Option (List Char)}, clipExtracted text maxChars = some clipped →
      (∀ cs, text = some cs → CleanText cs) → rawText x mime bytes = none →
      (CleanText clipped.value.toList ↔ ∀ text, rawText x mime bytes = some text → CleanText (text.take maxChars)) := by
    intro text read clean none
    obtain ⟨cs, rfl, value⟩ := clipExtracted_value read
    rw [value, none]
    simpa using (clean cs rfl).take maxChars
  unfold extractDocument at read
  by_cases pdf : mime = pdfMime
  · rw [if_pos pdf] at read
    exact raw read (if_pos pdf)
  · rw [if_neg pdf] at read
    by_cases docx : mime = docxMime
    · rw [if_pos docx] at read
      exact raw read (by rw [rawText, if_neg pdf, if_pos (Or.inl docx)])
    · rw [if_neg docx] at read
      by_cases xlsx : mime = xlsxMime
      · have noZip : mime ∉ zipMimes := by
          rw [xlsx]
          decide
        rw [if_pos xlsx] at read
        exact normalised read (fun cs => xlsxText_clean x) (by rw [rawText, if_neg pdf, if_neg (by tauto)])
      · rw [if_neg xlsx] at read
        by_cases zip : mime ∈ zipMimes
        · rw [if_pos zip] at read
          cases workbook : xlsxText x bytes with
          | none =>
            rw [ooxmlText, workbook, Option.none_or] at read
            exact raw read (by rw [rawText, if_neg pdf, if_pos (Or.inr ⟨zip, workbook⟩)])
          | some text =>
            rw [ooxmlText, workbook, Option.some_or] at read
            refine normalised read (fun cs same => ?_) (by rw [rawText, if_neg pdf, if_neg (by simp [docx, workbook])])
            exact xlsxText_clean x (workbook.trans same)
        · rw [if_neg zip] at read
          dsimp only at read
          split at read
          · cases read
          · refine normalised read (fun cs same => ?_) (by rw [rawText, if_neg pdf, if_neg (by tauto)])
            rw [← Option.some.inj same]
            exact normalized_clean _

/-! ### The rows that fit -/

theorem fitRows_spec (answer : List (List String) → Bool → TextPayload) {n : Nat} {rows : List (List String)} (enough : rows.length ≤ n)
    (truncated : Bool) :
    ∃ k ≤ rows.length, fitRows answer n rows truncated = answer (rows.take k) (truncated || decide (k < rows.length)) ∧
      ∀ j, k < j → j ≤ rows.length →
        resultChars < jsonLength (answer (rows.take j) (truncated || decide (j < rows.length))).json := by
  induction n generalizing rows truncated with
  | zero =>
    obtain rfl := List.length_eq_zero_iff.mp (Nat.le_zero.mp enough)
    exact ⟨0, Nat.le_refl _, by simp [fitRows], fun j less within => absurd less (Nat.not_lt.mpr within)⟩
  | succ n ih =>
    have whole : rows.take rows.length = rows := List.take_length
    by_cases large : rows ≠ [] ∧ resultChars < jsonLength (answer rows truncated).json
    · have long : 0 < rows.length := List.length_pos_of_ne_nil large.1
      have shorter : rows.dropLast.length = rows.length - 1 := List.length_dropLast
      have front : ∀ k ≤ rows.length - 1, rows.dropLast.take k = rows.take k := by
        intro k within
        rw [List.dropLast_eq_take, List.take_take, Nat.min_eq_left within]
      obtain ⟨k, within, same, larger⟩ := @ih rows.dropLast (by omega) true
      refine ⟨k, by omega, ?_, fun j less bound => ?_⟩
      · rw [fitRows, if_pos large, same, front k (by omega), Bool.true_or, decide_eq_true (by omega : k < rows.length), Bool.or_true]
      · by_cases last : j = rows.length
        · subst last
          rw [whole, decide_eq_false (Nat.lt_irrefl _), Bool.or_false]
          exact large.2
        · have inner := larger j less (by omega)
          rw [front j (by omega), Bool.true_or] at inner
          rw [decide_eq_true (by omega : j < rows.length), Bool.or_true]
          exact inner
    · refine ⟨rows.length, Nat.le_refl _, ?_, fun j less within => absurd less (Nat.not_lt.mpr within)⟩
      rw [fitRows, if_neg large, whole, decide_eq_false (Nat.lt_irrefl _), Bool.or_false]

/-- The table of a stored file. -/
def fileTable (input : BoundedMediaInput) (bytes : List Nat) : Csv.CsvTable :=
  Csv.parseCsv input.maxRows.toNat input.maxColumns.toNat (String.ofList (decodeText bytes))

/-- The answer with the first rows of the table. -/
def firstRows (media : ScopedMedia) (input : BoundedMediaInput) (bytes : List Nat) (n : Nat) : TextPayload :=
  .table media.messageId (fileTable input bytes).columns ((fileTable input bytes).rows.take n)
    ((fileTable input bytes).truncated || decide (n < (fileTable input bytes).rows.length)) (x.sha256 bytes)

/-- What a read takes over as it is holds none of the characters: the header and the rows that fit, a PDF's text or
a Word body's. -/
def Spared [Normalization] (name : MediaToolName) (media : ScopedMedia) (input : BoundedMediaInput) (bytes : List Nat) : Prop :=
  match name with
  | .mediaReadCsv =>
    ∀ n ≤ (fileTable input bytes).rows.length, jsonLength (firstRows x media input bytes n).json ≤ resultChars →
      ∀ cell ∈ (fileTable input bytes).columns ++ ((fileTable input bytes).rows.take n).flatten, CleanText cell.toList
  | .mediaReadDocument => ∀ text, rawText x media.mime bytes = some text → CleanText (text.take input.maxChars.toNat)
  | _ => True

theorem readCsv_clean_iff [Normalization] {media : ScopedMedia} {input : BoundedMediaInput} {bytes : List Nat} {payload : TextPayload}
    (read : readText x .mediaReadCsv media input bytes = some payload) :
    (∀ shown ∈ payload.texts, CleanText shown.toList) ↔ Spared x .mediaReadCsv media input bytes := by
  obtain ⟨k, within, same, larger⟩ := fitRows_spec
    (fun rows truncated => .table media.messageId (fileTable input bytes).columns rows truncated (x.sha256 bytes))
    (Nat.le_refl (fileTable input bytes).rows.length) (fileTable input bytes).truncated
  have answer : fitting (firstRows x media input bytes k) = some payload := by
    rw [← read, readText]
    exact (congrArg fitting same).symm
  unfold fitting at answer
  split at answer
  · cases answer
  · rename_i fits
    obtain rfl := Option.some.inj answer
    constructor
    · intro clean n bound small cell member
      have le : n ≤ k := by
        by_contra more
        exact absurd (larger n (Nat.lt_of_not_le more) bound) (Nat.not_lt.mpr small)
      apply clean cell
      rcases List.mem_append.mp member with column | inside
      · exact List.mem_append_left _ column
      · obtain ⟨row, taken, here⟩ := List.mem_flatten.mp inside
        exact List.mem_append_right _ (List.mem_flatten.mpr ⟨row, (List.take_subset_take_left _ le) taken, here⟩)
    · intro spared shown member
      exact spared k within (Nat.le_of_not_lt fits) shown member

theorem readText_clean_iff [Normalization] {name : MediaToolName} {media : ScopedMedia} {input : BoundedMediaInput} {bytes : List Nat}
    {payload : TextPayload} (read : readText x name media input bytes = some payload) :
    (∀ shown ∈ payload.texts, CleanText shown.toList) ↔ Spared x name media input bytes := by
  cases name with
  | mediaReadCsv => exact readCsv_clean_iff x read
  | mediaReadDocument =>
    obtain ⟨clipped, document, answer⟩ := Option.bind_eq_some_iff.mp read
    unfold fitting at answer
    split at answer
    · cases answer
    · obtain rfl := Option.some.inj answer
      rw [Spared, ← extractDocument_clean_iff x document]
      simp [TextPayload.texts]
  | _ => cases read

/-- A payload the tools hand out is a stored file's, read within the tool's bounds. -/
theorem runMediaTool_payload [Normalization] [Runtime] {reader : MediaReader} {db : Database} {context : ToolChatContext}
    {name : MediaToolName} {input : MediaToolInput} {text : String} (textual : name = .mediaReadCsv ∨ name = .mediaReadDocument)
    (done : runMediaTool (textReader x reader) db context name input = .payload text) :
    ∃ media bytes payload, loadScopedMedia db context input.bounded = some media ∧ media.status = "stored" ∧
      reader.readObject media.r2Key context.organizationId (sourceBytes name) = some bytes ∧
      readText x name media input.bounded bytes = some payload ∧ text = String.ofList (stringify payload.json) := by
  unfold runMediaTool at done
  cases loaded : loadScopedMedia db context input.bounded with
  | none =>
    rw [loaded] at done
    cases done
  | some media =>
    rw [loaded] at done
    dsimp only at done
    split at done
    · cases done
    · rename_i stored
      split at done
      · cases done
      · unfold readCapability at done
        split at done
        · cases done
        · split at done
          · cases done
          · split at done
            · cases done
            · rename_i shown found
              obtain rfl := MediaToolResult.payload.inj done
              obtain ⟨bytes, object, answer⟩ := Option.bind_eq_some_iff.mp found
              simp only [textReader, if_pos textual] at answer
              obtain ⟨payload, read, json⟩ := Option.map_eq_some_iff.mp answer
              exact ⟨media, bytes, payload, rfl, not_not.mp stored, object, read, json.symm⟩

end

/-! ### A stored table -/

def noExtractors : Extractors := ⟨fun _ => none, fun _ _ => none, fun _ => "digest", fun _ => none⟩

def storing (bytes : List Nat) : MediaReader := ⟨fun _ _ _ => some bytes, fun _ _ _ _ => none⟩

def storedTable : Database where
  groups := []
  messages := [⟨"org", "inst", "m1", some "chat", none, none, false, none, none,
    some ⟨some "document", some "stored", some "text/csv", some "key"⟩⟩]
  sends := ⟨[], []⟩
  actions := []

def tableChat : ToolChatContext := ⟨"org", "inst", .user, "chat", none, ["owner"]⟩

def tableInput : MediaToolInput := ⟨"m1", none, none, none, none, none⟩

theorem storedTable_read :
    @runMediaTool asciiRuntime (@textReader noExtractors asciiNormalization (storing [0x61, 0x0A])) storedTable tableChat .mediaReadCsv tableInput =
      .payload "\x7b\"ok\":true,\"messageId\":\"m1\",\"columns\":[\"a\"],\"rows\":[],\"truncated\":false,\"sha256\":\"digest\"\x7d" := by
  decide +kernel

end GroupButler.Tools.Documents
