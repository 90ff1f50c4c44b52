import GroupButler.Ai.Sanitize
import GroupButler.Foundation.JsonText

/-!
# The WhatsApp output gate

`sanitizeWhatsAppOutput` is the last step before a model's text is queued. Its regular expressions have no
choice to take back: each is read off the front of a text, and a text is searched from left to right.
-/

namespace GroupButler.Ai
open Foundation

/-! ### Searching -/

/-- `matchAll`: the matches from the left, each with its place, none overlapping. A match is read off the front of
the rest of the text, and told the character before it. -/
def matchAll {α : Type} (find : Option Char → List Char → Option (α × Nat)) : Nat → Nat → Option Char → List Char → List (Nat × α)
  | _, _, _, [] => []
  | place, skip + 1, _, c :: cs => matchAll find (place + 1) skip (some c) cs
  | place, 0, before, c :: cs =>
    match find before (c :: cs) with
    | none => matchAll find (place + 1) 0 (some c) cs
    | some (found, length) => (place, found) :: matchAll find (place + 1) (length - 1) (some c) cs

/-! ### Links -/

/-- `[a-z]` under the flags `iu`: the long s and the Kelvin sign fold into it. -/
def isSchemeLetter (c : Char) : Bool := c.isAlpha || c.toNat = 0x17F || c.toNat = 0x212A

def isSchemeChar (c : Char) : Bool := isSchemeLetter c || c.isDigit || c == '+' || c == '.' || c == '-'

/-- `\w` under the flags `iu` -/
def isSchemeWord (c : Char) : Bool := isSchemeLetter c || c.isDigit || c == '_'

/-- `\b([a-z][a-z0-9+.-]*):`, and what follows it. -/
def schemeAt (before : Option Char) (cs : List Char) : Option (List Char × List Char) :=
  if cs.head?.any isSchemeLetter && !before.any isSchemeWord then
    match cs.dropWhile isSchemeChar with
    | ':' :: rest => some (cs.takeWhile isSchemeChar, rest)
    | _ => none
  else none

/-- No white space, quote, backtick or angle bracket. -/
def isLinkChar (c : Char) : Bool := !isJsSpace c && c.toNat ∉ [0x22, 0x27, 0x3C, 0x3E, 0x60]

structure Link where
  scheme : List Char
  text : List Char
  deriving DecidableEq, Repr

/-- `ABSOLUTE_URL` -/
def absoluteUrl (before : Option Char) (cs : List Char) : Option (Link × Nat) :=
  (schemeAt before cs).bind fun (scheme, rest) =>
    match rest with
    | '/' :: '/' :: rest =>
      let text := scheme ++ ':' :: '/' :: '/' :: rest.takeWhile isLinkChar
      if rest.head?.any isLinkChar then some (⟨scheme, text⟩, text.length) else none
    | _ => none

/-- `BARE_SCHEME` -/
def bareScheme (before : Option Char) (cs : List Char) : Option (List Char × Nat) :=
  (schemeAt before cs).bind fun (scheme, rest) =>
    if rest.head?.any fun c => !isJsSpace c then some (scheme, scheme.length + 2) else none

def sourceLinksOf (values : List String) : List (List Char) :=
  values.flatMap fun value => (matchAll absoluteUrl 0 0 none value.toList).map fun found => found.2.text

/-- `toLowerCase` on the characters of a scheme. -/
def lowerScheme (scheme : List Char) : List Char := scheme.map fun c => if c.toNat = 0x212A then 'k' else c.toLower

def allowedSchemes : List (List Char) := ["http", "https", "mailto", "tel"].map String.toList

/-- `^https?:\/\/wa\.me\/` -/
def isWhatsAppLink (link : Link) : Bool :=
  let folded := link.text.map fun c => if c.toNat = 0x17F then 's' else c.toLower
  "http://wa.me/".toList.isPrefixOf folded || "https://wa.me/".toList.isPrefixOf folded

def unsafeLink (sourceLinks : List (List Char)) (link : Link) : Bool :=
  (lowerScheme link.scheme != "https".toList && lowerScheme link.scheme != "http".toList) ||
    (isWhatsAppLink link && !sourceLinks.contains link.text)

/-! ### Markup -/

/-- `MODEL_CONTROL` -/
def hasModelControl : List Char → Bool
  | [] => false
  | c :: cs => c.toNat = 0xFF5C || (c == '<' && cs.head? == some '|') || hasModelControl cs

/-- `HTML_TAG` -/
def htmlTagAt (cs : List Char) : Bool :=
  match cs with
  | '<' :: rest =>
    let rest := match rest with
      | '/' :: rest => rest
      | rest => rest
    rest.head?.any isSchemeLetter &&
      match rest.dropWhile fun c => isSchemeLetter c || c.isDigit || c == '-' with
      | '>' :: _ | '/' :: '>' :: _ => true
      | c :: rest => isJsSpace c && (rest.dropWhile fun c => c != '<' && c != '>').head? == some '>'
      | [] => false
  | _ => false

/-- `MARKDOWN_LINK` -/
def markdownLinkAt (cs : List Char) : Bool :=
  match cs with
  | '[' :: rest =>
    match rest.dropWhile fun c => c != ']' && c != '\n' with
    | ']' :: '(' :: rest => (rest.dropWhile fun c => c != ')' && c != '\n').head? == some ')'
    | _ => false
  | _ => false

def looksLikeToolJson (cs : List Char) : Bool := cs.head?.any (fun c => c == '{' || c == '[') && parsesJson cs

/-! ### The gate -/

/-- The lines of tabs and spaces alone at the front of a text: how many, and what follows them. -/
def blankLines : Nat → List Char → Nat × List Char
  | 0, cs => (0, cs)
  | fuel + 1, cs =>
    match cs.dropWhile fun c => c == '\t' || c == ' ' with
    | '\n' :: rest =>
      let (more, after) := blankLines fuel rest
      (more + 1, after)
    | _ => (0, cs)

/-- Each newline with two blank lines or more becomes two newlines. -/
def collapseBlankLines : Nat → List Char → List Char
  | 0, cs => cs
  | _, [] => []
  | fuel + 1, c :: cs =>
    if c = '\n' then
      let (lines, rest) := blankLines cs.length cs
      if 2 ≤ lines then '\n' :: '\n' :: collapseBlankLines fuel rest else c :: collapseBlankLines fuel cs
    else c :: collapseBlankLines fuel cs

inductive WhatsAppOutputCode where
  | empty | unsafeLink | unsafeMarkup | unsafeJson | modelMarkup
  deriving DecidableEq, Repr

def maxScalars : Nat := 3500

def sanitizeWhatsAppOutput [Normalization] (value : String) (sourceLinks : List (List Char)) : Except WhatsAppOutputCode String :=
  let normalized := (normalizeUntrustedText value).toList
  let text := jsTrim (String.ofList (collapseBlankLines normalized.length normalized))
  let cs := text.toList
  let links := matchAll absoluteUrl 0 0 none cs
  -- the colon of an accepted link is not a scheme of its own
  let inLink (place : Nat) : Bool := links.any fun (start, link) => start ≤ place && place < start + link.text.length
  if text = "" then .error .empty
  else if hasModelControl cs then .error .modelMarkup
  else if links.any fun (_, link) => unsafeLink sourceLinks link then .error .unsafeLink
  else if looksLikeToolJson cs then .error .unsafeJson
  else if (matchAll bareScheme 0 0 none cs).any fun (place, scheme) =>
    !inLink place && !allowedSchemes.contains (lowerScheme scheme) then .error .unsafeLink
  else if cs.tails.any htmlTagAt || cs.tails.any markdownLinkAt then .error .unsafeMarkup
  else .ok (clipScalars text maxScalars).value

/-- A text that the gate has let through, with these links as its evidence. -/
def Accepted [Normalization] (sourceLinks : List (List Char)) (text : String) : Prop :=
  ∃ value, sanitizeWhatsAppOutput value sourceLinks = .ok text

/-! ### What it has let through -/

/-- Cutting a text and closing it with a plain character makes no markup. -/
theorem control_take {cs rest : List Char} (free : hasModelControl cs = false) (plain : hasModelControl rest = false)
    (head : rest.head? ≠ some '|') (k : Nat) : hasModelControl (cs.take k ++ rest) = false := by
  induction cs generalizing k with
  | nil => simpa using plain
  | cons c cs ih =>
    cases k with
    | zero => simpa using plain
    | succ k =>
      simp only [hasModelControl, Bool.or_eq_false_iff, Bool.and_eq_false_iff] at free
      obtain ⟨⟨bar, pair⟩, later⟩ := free
      have next : (c == '<') = false ∨ ((cs.take k ++ rest).head? == some '|') = false := by
        rcases pair with other | follows
        · exact Or.inl other
        · refine Or.inr ?_
          cases k with
          | zero => simpa using head
          | succ k =>
            cases cs with
            | nil => simpa using head
            | cons d cs => simpa using follows
      rw [List.take_succ_cons, List.cons_append, hasModelControl, ih later k, bar]
      rcases next with other | follows
      · rw [other]
        rfl
      · rw [follows, Bool.and_false]
        rfl

theorem clip_control {text : String} (free : hasModelControl text.toList = false) (maximum : Nat) :
    hasModelControl (clipScalars text maximum).value.toList = false := by
  unfold clipScalars
  split
  · exact free
  · rw [String.toList_ofList]
    obtain ⟨k, whole | cut⟩ := take_utf16 text.toList (maximum * 2)
    · rw [utf16, whole, List.take_take]
      have taken := @control_take _ [] free rfl (by simp) (min maximum k)
      rwa [List.append_nil] at taken
    · rw [utf16, cut, List.take_append, List.take_take]
      cases maximum - (text.toList.take k).length with
      | zero => exact @control_take _ [] free rfl (by simp) _
      | succ n =>
        have whole : ['\uFFFD'].take (n + 1) = ['\uFFFD'] := by simp
        rw [whole]
        exact @control_take _ ['\uFFFD'] free (by decide) (by decide) _

/-- Markup is refused, and none comes of clipping what was accepted. -/
theorem accepted_control [Normalization] {sourceLinks : List (List Char)} {text : String} (accepted : Accepted sourceLinks text) :
    hasModelControl text.toList = false := by
  obtain ⟨value, passed⟩ := accepted
  unfold sanitizeWhatsAppOutput at passed
  dsimp only at passed
  split at passed
  · cases passed
  · split at passed
    · cases passed
    · rename_i free
      have clipped := clip_control (Bool.eq_false_iff.mpr free) maxScalars
      split at passed
      · cases passed
      · split at passed
        · cases passed
        · split at passed
          · cases passed
          · split at passed
            · cases passed
            · rw [← Except.ok.inj passed]
              exact clipped

end GroupButler.Ai
