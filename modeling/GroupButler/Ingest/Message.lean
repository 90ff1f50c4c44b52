import GroupButler.Foundation.Json
import GroupButler.Store.Audit

/-!
# Parsed messages

The `messages` vocabulary and the text the worker derives from a message: the folded search text,
the links, the pruned raw tree and the search text of its leaves. Unicode's own tables are a
parameter.
-/

namespace GroupButler.Ingest
open Foundation Store

/-- What the code asks of Go's `unicode` package. -/
class Unicode where
  toLower : Char → Char
  isLetter : Char → Bool
  isNumber : Char → Bool

/-- The tables on ASCII. -/
@[reducible] def Unicode.ascii : Unicode where
  toLower := Char.toLower
  isLetter := Char.isAlpha
  isNumber := Char.isDigit

inductive Kind where
  | text | image | video | audio | document | sticker | location | contact | poll | reaction | system
  | revoked | unknown | ptv | raw | viewOnce
  deriving DecidableEq, Repr

inductive MediaStatus where
  | none | pending | stored | unparsed | unavailable | failed
  deriving DecidableEq, Repr

inductive ParseState where
  | ok | partiallyParsed | failed
  deriving DecidableEq, Repr

structure Media where
  status : MediaStatus
  kind : Option Kind
  declaredType : Option Kind
  mime : String := ""
  fileName : String := ""
  size : Nat := 0
  sha256 : String := ""
  r2Key : String := ""
  publicUrl : String := ""
  reason : String := ""
  error : String := ""
  deriving DecidableEq, Repr

structure RawMessage where
  message : List (String × Json)
  truncated : Bool
  bytes : Nat
  deriving Repr

structure MessageDoc where
  organizationId : String
  instanceId : String
  groupJid : String
  chatJid : String
  isGroup : Bool
  waMessageId : String
  senderJid : String
  senderLid : String := ""
  pushName : String
  fromMe : Bool
  timestamp : Time
  receivedAt : Time
  serverSkewMs : Int
  kind : Kind
  text : String
  textSearch : String
  rawSearch : String
  links : List String
  mentions : List String
  media : Media
  raw : RawMessage
  historical : Bool := false
  parseState : ParseState
  parseErrors : List String
  schemaVersion : Nat
  deriving Repr

structure RawLimits where
  rawJSONMaxBytes : Nat := 32768
  rawSearchMaxBytes : Nat := 8192

/-! ### Text -/

section
variable [Unicode]

/-- `strings.ToLower` -/
def toLower (s : String) : String := String.ofList (s.toList.map Unicode.toLower)

/-- `strings.Fields` -/
def fields (cs : List Char) : List (List Char) := (cs.splitOnP isGoSpace).filter fun word => !word.isEmpty

def foldText (s : String) : String :=
  let spaced := (toLower s).toList.map fun r => if Unicode.isLetter r || Unicode.isNumber r then r else ' '
  String.ofList ([' '].intercalate (fields spaced))

end

def isWordChar (c : Char) : Bool := c.isAlphanum || c == '_'

/-- A literal of the link pattern under `(?i)`, where `s` also folds to U+017F. -/
def foldsTo (literal c : Char) : Bool := c.toLower == literal || (literal == 's' && c.toNat == 0x17F)

def stripFolded : List Char → List Char → Option (List Char × List Char)
  | [], cs => some ([], cs)
  | _ :: _, [] => none
  | literal :: literals, c :: cs =>
    if foldsTo literal c then (stripFolded literals cs).map fun (taken, rest) => (c :: taken, rest) else none

/-- `https?://` or `www\.` -/
def linkPrefix (cs : List Char) : Option (List Char × List Char) :=
  (stripFolded "https://".toList cs).or ((stripFolded "http://".toList cs).or (stripFolded "www.".toList cs))

def isLinkChar (c : Char) : Bool :=
  !(c.toNat ∈ [0x09, 0x0A, 0x0C, 0x0D, 0x20] || c == '"' || c == '\'' || c == '<' || c == '>')

/-- One match of the link pattern. Its `\b` holds where the character before is no word character. -/
def linkAt (afterWord : Bool) (cs : List Char) : Option (List Char × List Char) :=
  if afterWord then none
  else match linkPrefix cs with
    | none => none
    | some (taken, rest) =>
      let body := rest.takeWhile isLinkChar
      if body.isEmpty then none else some (taken ++ body, rest.dropWhile isLinkChar)

/-- `linkPattern.FindAllString`. Every step consumes a character, so `fuel` is the text's length. -/
def findLinks : Nat → Bool → List Char → List (List Char)
  | 0, _, _ => []
  | _ + 1, _, [] => []
  | fuel + 1, afterWord, c :: cs =>
    match linkAt afterWord (c :: cs) with
    | some (found, rest) => found :: findLinks fuel ((found.getLast?.map isWordChar).getD false) rest
    | none => findLinks fuel (isWordChar c) cs

def dedupeStrings (input : List String) : List String :=
  input.foldl (fun out s => if s = "" ∨ s ∈ out then out else out ++ [s]) []

def trimRight (cutset : List Char) (cs : List Char) : List Char :=
  (cs.reverse.dropWhile fun c => cutset.contains c).reverse

def collectLinks (text : String) : List String :=
  dedupeStrings ((findLinks text.toList.length false text.toList).map fun found =>
    String.ofList (trimRight ".,;:!?".toList found))

/-! ### Raw trees -/

section
variable [Unicode] {α : Type}

def rawKeyLe (first second : String × α) : Prop :=
  toLower first.1 < toLower second.1 ∨ toLower first.1 = toLower second.1 ∧ first.1 ≤ second.1

instance : DecidableRel (rawKeyLe (α := α)) := fun first second =>
  inferInstanceAs (Decidable (toLower first.1 < toLower second.1 ∨ toLower first.1 = toLower second.1 ∧ first.1 ≤ second.1))

/-- The entries of a node by key, ignoring case first. -/
def sortRawKeys (entries : List (String × α)) : List (String × α) := entries.insertionSort rawKeyLe

def pruneRaw (tree : List (String × Json)) (max : Nat) : List (String × Json) × Bool :=
  let (kept, _) := (sortRawKeys tree).foldl (fun (kept, used) (key, value) =>
    let size := byteLength key + 4 + value.marshalled
    if max < used + size then (kept, used) else (kept ++ [(key, value)], used + size)) ([], 2)
  if kept.isEmpty then ([("<truncated>", .obj [])], true) else (kept, kept.length != tree.length)

end

/-- The longest prefix of whole characters within `max` bytes. -/
def takeBytes : Nat → List Char → List Char
  | _, [] => []
  | max, c :: cs => if c.utf8Size ≤ max then c :: takeBytes (max - c.utf8Size) cs else []

def truncateUTF8 (s : String) (max : Nat) : String := String.ofList (takeBytes max s.toList)

structure BoundedText where
  buf : String
  max : Nat
  full : Bool
  deriving DecidableEq, Repr

def BoundedText.add (b : BoundedText) (leaf : String) : BoundedText :=
  if b.full || leaf == "" then b
  else if b.buf != "" && b.max < byteLength b.buf + 1 then { b with full := true }
  else
    let buf := if b.buf != "" then b.buf ++ "\n" else b.buf
    let room := b.max - byteLength buf
    if room = 0 then { b with buf, full := true }
    else if room < byteLength leaf then { b with buf := buf ++ truncateUTF8 leaf room, full := true }
    else { b with buf := buf ++ leaf }

section
variable [Unicode]

mutual

def collectStringLeaves : Json → BoundedText → BoundedText
  | .obj entries, out =>
    if out.full then out else (sortRawKeys (walkFields entries)).foldl (fun out entry => entry.2 out) out
  | .arr items, out => if out.full then out else walkItems items out
  | .str s, out => out.add s
  | _, out => out

/-- The walk of each value, so that the keys can be sorted before any value is walked. -/
def walkFields : List (String × Json) → List (String × (BoundedText → BoundedText))
  | [] => []
  | (key, value) :: entries => (key, collectStringLeaves value) :: walkFields entries

def walkItems : List Json → BoundedText → BoundedText
  | [], out => out
  | item :: items, out => walkItems items (collectStringLeaves item out)

end

def rawSearchText (tree : List (String × Json)) (max : Nat) : String :=
  (collectStringLeaves (.obj tree) ⟨"", max, false⟩).buf

end

end GroupButler.Ingest
