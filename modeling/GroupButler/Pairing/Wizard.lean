import GroupButler.Foundation.Chunks
import GroupButler.Foundation.Path

/-!
# The pairing wizard's output

The pairing service appends what the wizard prints, chunk by chunk, answers each `[y/N]` question once,
and reports the last QR block it finds in the text.
-/

namespace GroupButler.Pairing
open Foundation

def qrMarker : List Char := "Scan this QR code".toList

def pairedMarkers : List (List Char) := ["is configured and paired", "paired successfully"].map String.toList

def rePairPrompt : List Char := "Re-pair?".toList

def maxAnswers : Nat := 8

/-! ### Reading the text -/

/-- `text.includes(needle)` -/
def includes (needle : List Char) : List Char → Bool
  | [] => needle.isEmpty
  | c :: cs => needle.isPrefixOf (c :: cs) || includes needle cs

def lastLine (output : List Char) : Option String :=
  let lines := (output.splitOn '\n').map fun line => jsTrim (String.ofList line)
  (lines.filter (· != "")).getLast?

def reportsPaired (output : List Char) : Bool := pairedMarkers.any fun marker => includes marker output

section
variable {α : Type} (char : α → Char)

/-- `text.slice(text.lastIndexOf(needle))` -/
def fromLast (needle : List Char) : List α → Option (List α)
  | [] => none
  | a :: text =>
    match fromLast needle text with
    | some found => some found
    | none => if needle.isPrefixOf ((a :: text).map char) then some (a :: text) else none

def isGlyph (c : Char) : Bool := c ∈ ['█', '▀', '▄', ' ']

/-- A line of blocks and blanks only, where the number of code units is that of characters. -/
def isQrLine (bare : List α) : Bool := 30 ≤ bare.length && bare.all fun a => isGlyph (char a)

/-- The lines of the most recent QR block, over characters that may carry a mark of their own. -/
def qrLines (text : List α) : List (List α) :=
  match fromLast char qrMarker text with
  | none => []
  | some found =>
    ((found.splitOnP (char · == '\n')).map fun line => line.filter (char · != '\r')).filter (isQrLine char)

end

def latestQr (output : List Char) : Option (List Char) :=
  if qrLines id output = [] then none else some (['\n'].intercalate (qrLines id output))

def escape : Char := '\x1b'

def isParam (c : Char) : Bool := c.isDigit || c == ';' || c == '?'

def isLetter (c : Char) : Bool := ('a' ≤ c && c ≤ 'z') || ('A' ≤ c && c ≤ 'Z')

/-- `text.replace(/\x1b\[[0-9;?]*[a-zA-Z]/g, "")`: an escape is held back until its letter shows it is one. -/
def stripFrom : List Char → List Char → List Char
  | held, [] => held
  | held, c :: cs =>
    if c = escape then held ++ stripFrom [escape] cs
    else if held = [escape] ∧ c = '[' then stripFrom [escape, '['] cs
    else if 2 ≤ held.length ∧ isParam c then stripFrom (held ++ [c]) cs
    else if 2 ≤ held.length ∧ isLetter c then stripFrom [] cs
    else held ++ c :: stripFrom [] cs

def stripAnsi (output : List Char) : List Char := stripFrom [] output

/-- `[y/N]`, from its end. -/
def promptBack : List Char := "]N/y[".toList

/-- `plain.split("[y/N]")` without its last piece: a question ends where its prompt does. -/
def questionsFrom : List Char → List Char → List (List Char)
  | _, [] => []
  | back, c :: cs =>
    if promptBack.isPrefixOf (c :: back) then ((c :: back).drop promptBack.length).reverse :: questionsFrom [] cs
    else questionsFrom (c :: back) cs

def questions (output : List Char) : List (List Char) := questionsFrom [] (stripAnsi output)

def answer (question : List Char) : String := if includes rePairPrompt question then "y\n" else "\n"

/-! ### The session -/

structure Session where
  output : List Char
  answered : Nat
  /-- What was written to the wizard. -/
  written : List String
  deriving DecidableEq, Repr

def Session.start : Session := ⟨[], 0, []⟩

def onData (s : Session) (chunk : List Nat) : Session :=
  let output := s.output ++ ofUtf8 none chunk
  -- the loop answers the questions from `answered` on, as long as both bounds allow
  let asked := ((questions output).take maxAnswers).drop s.answered
  ⟨output, s.answered + asked.length, s.written ++ asked.map answer⟩

inductive PairingState where
  | idle | paired | awaitingScan | failed | starting
  deriving DecidableEq, Repr

structure Snapshot where
  state : PairingState
  qr : Option (List Char)
  message : Option String
  running : Bool
  deriving DecidableEq, Repr

/-- `snapshot`, for a session whose child is running or not. -/
def snapshot (s : Session) (running : Bool) : Snapshot :=
  if reportsPaired s.output then ⟨.paired, none, lastLine s.output, running⟩
  else if (latestQr s.output).isSome ∧ running then ⟨.awaitingScan, latestQr s.output, some "Scan the QR", running⟩
  else if s.output.contains '✗' ∨ !running then
    ⟨.failed, none, some ((lastLine s.output).getD "the pairing command did not finish"), running⟩
  else ⟨.starting, none, lastLine s.output, running⟩

/-! ### Questions come in order -/

/-- What is held back never ends a prompt, and what was let through stays. -/
theorem stripFrom_append (held first rest : List Char) (open_ : ']' ∉ held) :
    ∃ out held', ']' ∉ held' ∧ stripFrom held first = out ++ held' ∧
      stripFrom held (first ++ rest) = out ++ stripFrom held' rest := by
  induction first generalizing held with
  | nil => exact ⟨[], held, open_, rfl, rfl⟩
  | cons c first ih =>
    rw [List.cons_append, stripFrom, stripFrom]
    split
    · obtain ⟨out, held', plain, before, after⟩ := ih [escape] (by decide)
      exact ⟨held ++ out, held', plain, by rw [before, List.append_assoc], by rw [after, List.append_assoc]⟩
    · split
      · exact ih [escape, '['] (by decide)
      · split
        · rename_i param
          refine ih (held ++ [c]) fun bracket => ?_
          rcases List.mem_append.mp bracket with member | member
          · exact open_ member
          · rw [← List.mem_singleton.mp member] at param
            exact absurd param.2 (by decide)
        · split
          · exact ih [] List.not_mem_nil
          · obtain ⟨out, held', plain, before, after⟩ := ih [] List.not_mem_nil
            refine ⟨held ++ c :: out, held', plain, ?_, ?_⟩
            · rw [before, List.append_assoc, List.cons_append]
            · rw [after, List.append_assoc, List.cons_append]

theorem questionsFrom_append (back first rest : List Char) :
    ∃ back', questionsFrom back (first ++ rest) = questionsFrom back first ++ questionsFrom back' rest := by
  induction first generalizing back with
  | nil => exact ⟨back, rfl⟩
  | cons c first ih =>
    rw [List.cons_append, questionsFrom, questionsFrom]
    split
    · obtain ⟨back', same⟩ := ih []
      exact ⟨back', by rw [same, List.cons_append]⟩
    · exact ih (c :: back)

theorem questionsFrom_open {back cs : List Char} (open_ : ']' ∉ cs) : questionsFrom back cs = [] := by
  induction cs generalizing back with
  | nil => rfl
  | cons c cs ih =>
    have other : c ≠ ']' := fun same => open_ (by rw [same]; exact List.mem_cons_self)
    rw [questionsFrom, if_neg ?_]
    · exact ih fun member => open_ (List.mem_cons_of_mem _ member)
    · intro ends
      have head : promptBack = ']' :: "N/y[".toList := by decide
      rw [head, List.isPrefixOf_cons_cons, Bool.and_eq_true, beq_iff_eq] at ends
      exact other ends.1.symm

/-- The questions seen so far are the first ones of any longer output. -/
theorem questions_prefix (output more : List Char) : questions output <+: questions (output ++ more) := by
  obtain ⟨out, held, plain, before, after⟩ := stripFrom_append [] output more List.not_mem_nil
  rw [questions, questions, stripAnsi, stripAnsi, before, after]
  obtain ⟨back, first⟩ := questionsFrom_append [] out held
  obtain ⟨back', second⟩ := questionsFrom_append [] out (stripFrom held more)
  rw [first, questionsFrom_open plain, List.append_nil, second]
  exact List.prefix_append _ _

/-- Every question so far is answered once, in order. -/
def Session.Answered (s : Session) : Prop :=
  s.answered = ((questions s.output).take maxAnswers).length ∧ s.written = ((questions s.output).take maxAnswers).map answer

theorem onData_answered {s : Session} (answered : s.Answered) (chunk : List Nat) : (onData s chunk).Answered := by
  obtain ⟨count, written⟩ := answered
  obtain ⟨more, whole⟩ := questions_prefix s.output (ofUtf8 none chunk)
  unfold onData Session.Answered
  dsimp only
  rw [← whole, count, List.take_append, List.drop_left, List.length_append, written, List.map_append]
  exact ⟨rfl, rfl⟩

theorem foldl_onData (s : Session) (answered : s.Answered) (chunks : List (List Nat)) :
    (chunks.foldl onData s).Answered ∧ (chunks.foldl onData s).output = s.output ++ decodeChunks chunks := by
  induction chunks generalizing s with
  | nil => exact ⟨answered, (List.append_nil _).symm⟩
  | cons chunk chunks ih =>
    obtain ⟨kept, output⟩ := ih (onData s chunk) (onData_answered answered chunk)
    refine ⟨kept, ?_⟩
    rw [List.foldl_cons, output, decodeChunks_cons, ← List.append_assoc]
    rfl

end GroupButler.Pairing
