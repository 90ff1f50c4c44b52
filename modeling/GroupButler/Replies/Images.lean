import GroupButler.Foundation.Run
import GroupButler.Prompt.Budget
import GroupButler.Tools.Images

/-!
# Where the model sees an image

A tool's images leave its result for a user message before the next step of the tool loop, whether or not
the messages of earlier steps were changed in the same way.
-/

namespace GroupButler.Replies
open Foundation Tools

universe u

/-! ### What a call returns -/

/-- A call of a round: the tool's content and what the allowance left of its text, or neither where the
allowance was spent before. -/
structure ToolCall where
  toolCallId : Nat
  answer : Option (JsonValue × List Char)

def budgetSpent : BridgedToolResult := ⟨Prompt.toolBudgetSpent.toList, []⟩

/-- `toolSetOf.execute` -/
def executed (numbers : Numbers) (call : ToolCall) : BridgedToolResult :=
  match call.answer with
  | none => budgetSpent
  | some (content, clipped) =>
    let lifted := liftImages numbers (toolResultText content)
    if clipped = [] ∧ lifted.text ≠ [] then budgetSpent else ⟨clipped, lifted.images⟩

inductive OutputPart where
  | file (image : LiftedImage)
  | text (text : List Char)
  deriving DecidableEq, Repr

inductive ToolOutput where
  | text (value : List Char)
  | content (value : List OutputPart)
  | errorText (value : List Char)
  deriving DecidableEq, Repr

def toModelOutput (bridged : BridgedToolResult) : ToolOutput :=
  if bridged.images = [] then .text bridged.text else .content (bridged.images.map .file ++ [.text bridged.text])

/-! ### Messages -/

/-- Parts and messages of other kinds stand for themselves. -/
inductive ToolPart (α : Type u) where
  | toolResult (toolCallId : Nat) (output : ToolOutput)
  | other (part : α)

inductive UserPart where
  | file (image : LiftedImage)
  | text (text : List Char)
  deriving DecidableEq, Repr

inductive ModelMessage (α : Type u) where
  | tool (content : List (ToolPart α))
  | user (content : List UserPart)
  | other (message : α)

def OutputPart.file? : OutputPart → Option LiftedImage
  | .file image => some image
  | .text _ => none

def UserPart.file? : UserPart → Option LiftedImage
  | .file image => some image
  | .text _ => none

variable {α : Type u}

/-- What a part of a tool message becomes, and the images pushed for it. -/
def liftPart : ToolPart α → ToolPart α × List LiftedImage
  | .toolResult toolCallId (.content value) =>
    let files := value.filterMap OutputPart.file?
    if files = [] then (.toolResult toolCallId (.content value), [])
    else (.toolResult toolCallId (.content (value.filter fun entry => entry.file? = none)), files)
  | part => (part, [])

def liftMessage : ModelMessage α → ModelMessage α × List LiftedImage
  | .tool content => (.tool (content.map fun part => (liftPart part).1), content.flatMap fun part => (liftPart part).2)
  | message => (message, [])

def imagesSentence : List Char := "The image(s) the tool returned, sent as images: read them and answer from what they show.".toList

def liftToolResultImages (messages : List (ModelMessage α)) : Option (List (ModelMessage α)) :=
  let images := messages.flatMap fun message => (liftMessage message).2
  let rewritten := messages.map fun message => (liftMessage message).1
  if images = [] then none else some (rewritten ++ [.user (images.map .file ++ [.text imagesSentence])])

/-- `prepareStep`: the messages of the next step. -/
def stepMessages (messages : List (ModelMessage α)) : List (ModelMessage α) := (liftToolResultImages messages).getD messages

/-! ### Conversations -/

/-- A round of the tool loop appends what the model said and the results of its calls. The provider's library
may go on from the messages a step was given, or from those it had before. -/
inductive LoopEvent (α : Type u) where
  | round (said : α) (calls : List ToolCall)
  | prepared

def resultPart (numbers : Numbers) (call : ToolCall) : ToolPart α := .toolResult call.toolCallId (toModelOutput (executed numbers call))

def loopStep (numbers : Numbers) (messages : List (ModelMessage α)) : LoopEvent α → List (ModelMessage α)
  | .round said calls => messages ++ [.other said, .tool (calls.map (resultPart numbers))]
  | .prepared => stepMessages messages

def outputFiles : ToolOutput → List LiftedImage
  | .content value => value.filterMap OutputPart.file?
  | _ => []

def partFiles : ToolPart α → List LiftedImage
  | .toolResult _ output => outputFiles output
  | .other _ => []

def toolFilesOf : ModelMessage α → List LiftedImage
  | .tool content => content.flatMap partFiles
  | .user _ => []
  | .other _ => []

def userFilesOf : ModelMessage α → List LiftedImage
  | .tool _ => []
  | .user content => content.filterMap UserPart.file?
  | .other _ => []

/-- The images in tool results. -/
def toolFiles (messages : List (ModelMessage α)) : List LiftedImage := messages.flatMap toolFilesOf

/-- The images in user messages. -/
def userFiles (messages : List (ModelMessage α)) : List LiftedImage := messages.flatMap userFilesOf

/-- A message but for its images: what is left of a tool's results, and nothing where a user message carries images. -/
def wordOf : ModelMessage α → Option (ModelMessage α)
  | .tool content => some (.tool (content.map fun part => (liftPart part).1))
  | .user content => if content.filterMap UserPart.file? = [] then some (.user content) else none
  | .other message => some (.other message)

def wordsOf (messages : List (ModelMessage α)) : List (ModelMessage α) := messages.filterMap wordOf

/-- The images in the document a tool answered with, unless nothing of its text was left. -/
def imagesIn (numbers : Numbers) (call : ToolCall) : List LiftedImage :=
  match call.answer with
  | none => []
  | some (content, clipped) =>
    let raw := toolResultText content
    if clipped = [] ∧ (liftImages numbers raw).text ≠ [] then [] else ((documentOf numbers raw).map imagesOf).getD []

def roundImages (numbers : Numbers) : LoopEvent α → List LiftedImage
  | .round _ calls => calls.flatMap (imagesIn numbers)
  | .prepared => []

/-- What a round adds that is no image. -/
def roundWords (numbers : Numbers) : LoopEvent α → List (ModelMessage α)
  | .round said calls => wordsOf [.other said, .tool (calls.map (resultPart numbers))]
  | .prepared => []

/-! ### One step -/

theorem filterMap_rest (value : List OutputPart) :
    (value.filter fun entry => entry.file? = none).filterMap OutputPart.file? = [] := by
  rw [List.filterMap_eq_nil_iff]
  intro entry member
  exact of_decide_eq_true (List.mem_filter.mp member).2

theorem rest_of_no_file {value : List OutputPart} (none_ : value.filterMap OutputPart.file? = []) :
    (value.filter fun entry => entry.file? = none) = value := by
  rw [List.filter_eq_self]
  intro entry member
  exact decide_eq_true (List.filterMap_eq_nil_iff.mp none_ entry member)

theorem liftPart_files (part : ToolPart α) : (liftPart part).2 = partFiles part := by
  cases part with
  | other part => rfl
  | toolResult toolCallId output =>
    cases output with
    | content value =>
      rw [liftPart]
      split
      · rename_i none_
        exact none_.symm
      · rfl
    | _ => rfl

theorem partFiles_lifted (part : ToolPart α) : partFiles (liftPart part).1 = [] := by
  cases part with
  | other part => rfl
  | toolResult toolCallId output =>
    cases output with
    | content value =>
      rw [liftPart]
      split
      · rename_i none_
        exact none_
      · exact filterMap_rest value
    | _ => rfl

theorem liftPart_lifted (part : ToolPart α) : (liftPart (liftPart part).1).1 = (liftPart part).1 := by
  cases part with
  | other part => rfl
  | toolResult toolCallId output =>
    cases output with
    | content value =>
      have again : liftPart (α := α) (.toolResult toolCallId (.content (value.filter fun entry => entry.file? = none))) =
          (.toolResult toolCallId (.content (value.filter fun entry => entry.file? = none)), []) := by
        rw [liftPart, filterMap_rest, if_pos rfl]
      by_cases none_ : value.filterMap OutputPart.file? = []
      · have same := rest_of_no_file none_
        rw [same] at again
        rw [again, again]
      · have lifted : liftPart (α := α) (.toolResult toolCallId (.content value)) =
            (.toolResult toolCallId (.content (value.filter fun entry => entry.file? = none)), value.filterMap OutputPart.file?) := by
          rw [liftPart, if_neg none_]
        rw [lifted, again]
    | _ => rfl

theorem toolFiles_append (first rest : List (ModelMessage α)) : toolFiles (first ++ rest) = toolFiles first ++ toolFiles rest :=
  List.flatMap_append

theorem userFiles_append (first rest : List (ModelMessage α)) : userFiles (first ++ rest) = userFiles first ++ userFiles rest :=
  List.flatMap_append

theorem wordsOf_append (first rest : List (ModelMessage α)) : wordsOf (first ++ rest) = wordsOf first ++ wordsOf rest :=
  List.filterMap_append

theorem liftMessage_files (message : ModelMessage α) : (liftMessage message).2 = toolFiles [message] := by
  cases message with
  | tool content =>
    have parts : content.flatMap (fun part => (liftPart part).2) = content.flatMap partFiles := by
      congr 1
      funext part
      exact liftPart_files part
    rw [liftMessage, parts]
    simp [toolFiles, toolFilesOf]
  | user content => rfl
  | other message => rfl

theorem toolFiles_lifted (message : ModelMessage α) : toolFiles [(liftMessage message).1] = [] := by
  cases message with
  | tool content =>
    simp only [liftMessage, toolFiles, toolFilesOf, List.flatMap_cons, List.flatMap_nil, List.append_nil,
      List.flatMap_eq_nil_iff, List.mem_map]
    intro part member
    obtain ⟨before, -, rfl⟩ := member
    exact partFiles_lifted before
  | user content => rfl
  | other message => rfl

theorem userFiles_lifted (message : ModelMessage α) : userFiles [(liftMessage message).1] = userFiles [message] := by
  cases message <;> rfl

theorem wordOf_lifted (message : ModelMessage α) : wordOf (liftMessage message).1 = wordOf message := by
  cases message with
  | tool content =>
    simp only [liftMessage, wordOf, List.map_map]
    congr 3
    funext part
    exact liftPart_lifted part
  | user content => rfl
  | other message => rfl

theorem wordsOf_lifted (message : ModelMessage α) : wordsOf [(liftMessage message).1] = wordsOf [message] := by
  rw [wordsOf, List.filterMap_cons, wordOf_lifted, ← List.filterMap_cons]
  rfl

/-- The messages rewritten carry the same words and no image in a result, and the images pushed are those taken out. -/
theorem lifted_messages (messages : List (ModelMessage α)) :
    (messages.flatMap fun message => (liftMessage message).2) = toolFiles messages ∧
      toolFiles (messages.map fun message => (liftMessage message).1) = [] ∧
      userFiles (messages.map fun message => (liftMessage message).1) = userFiles messages ∧
      wordsOf (messages.map fun message => (liftMessage message).1) = wordsOf messages := by
  induction messages with
  | nil => exact ⟨rfl, rfl, rfl, rfl⟩
  | cons message messages ih =>
    obtain ⟨pushed, results, users, words⟩ := ih
    have front (ms : List (ModelMessage α)) (m : ModelMessage α) : m :: ms = [m] ++ ms := rfl
    rw [List.flatMap_cons, List.map_cons, front _ message, front _ (liftMessage message).1, toolFiles_append, toolFiles_append,
      userFiles_append, userFiles_append, wordsOf_append, wordsOf_append, pushed, results, users, words, liftMessage_files,
      toolFiles_lifted, userFiles_lifted, wordsOf_lifted]
    exact ⟨rfl, rfl, rfl, rfl⟩

theorem file_parts (images : List LiftedImage) :
    (images.map UserPart.file ++ [UserPart.text imagesSentence]).filterMap UserPart.file? = images := by
  induction images with
  | nil => rfl
  | cons image images ih => exact congrArg (image :: ·) ih

/-- A step's messages have the words there were, no image in a tool's result, and each image there was in a user message. -/
theorem stepMessages_spec (messages : List (ModelMessage α)) :
    toolFiles (stepMessages messages) = [] ∧ userFiles (stepMessages messages) = userFiles messages ++ toolFiles messages ∧
      wordsOf (stepMessages messages) = wordsOf messages := by
  obtain ⟨pushed, results, users, words⟩ := lifted_messages messages
  rw [stepMessages, liftToolResultImages, pushed]
  split
  · rename_i none_
    rw [Option.getD_none, none_, List.append_nil]
    exact ⟨rfl, rfl, rfl⟩
  · rename_i found
    rw [Option.getD_some, toolFiles_append, userFiles_append, wordsOf_append, results, users, words]
    refine ⟨rfl, ?_, ?_⟩
    · have sent : userFiles (α := α) [.user ((toolFiles messages).map .file ++ [.text imagesSentence])] = toolFiles messages := by
        rw [userFiles, List.flatMap_singleton, userFilesOf, file_parts]
      rw [sent]
    · have dropped : wordsOf (α := α) [.user ((toolFiles messages).map .file ++ [.text imagesSentence])] = [] := by
        simp only [wordsOf, wordOf, List.filterMap_cons, List.filterMap_nil, file_parts, if_neg found]
      rw [dropped, List.append_nil]

/-! ### Whole loops -/

theorem executed_images (numbers : Numbers) (call : ToolCall) : (executed numbers call).images = imagesIn numbers call := by
  unfold executed imagesIn
  split
  · rfl
  · dsimp only
    split
    · rfl
    · exact liftImages_images _

theorem outputFiles_toModelOutput (bridged : BridgedToolResult) : outputFiles (toModelOutput bridged) = bridged.images := by
  rw [toModelOutput]
  split
  · rename_i none_
    exact none_.symm
  · rw [outputFiles, List.filterMap_append]
    have all : (bridged.images.map OutputPart.file).filterMap OutputPart.file? = bridged.images := by
      rw [List.filterMap_map]
      exact List.filterMap_some
    rw [all]
    exact List.append_nil _

theorem partFiles_resultPart (numbers : Numbers) (call : ToolCall) :
    partFiles (α := α) (resultPart numbers call) = imagesIn numbers call := by
  rw [resultPart, partFiles, outputFiles_toModelOutput, executed_images]

theorem roundFiles (numbers : Numbers) (said : α) (calls : List ToolCall) :
    toolFiles [.other said, .tool (calls.map (resultPart numbers))] = roundImages numbers (.round said calls) := by
  have parts : (calls.map (resultPart (α := α) numbers)).flatMap partFiles = calls.flatMap (imagesIn numbers) := by
    rw [List.flatMap_map]
    congr 1
    funext call
    exact partFiles_resultPart numbers call
  simp only [toolFiles, toolFilesOf, List.flatMap_cons, List.flatMap_nil, List.nil_append, List.append_nil, parts, roundImages]

/-- One step of the loop keeps the words and the images there were, and adds those of its round. -/
theorem loopStep_spec (numbers : Numbers) (messages : List (ModelMessage α)) (e : LoopEvent α) :
    userFiles (loopStep numbers messages e) ++ toolFiles (loopStep numbers messages e) =
        userFiles messages ++ toolFiles messages ++ roundImages numbers e ∧
      wordsOf (loopStep numbers messages e) = wordsOf messages ++ roundWords numbers e := by
  cases e with
  | prepared =>
    obtain ⟨results, users, words⟩ := stepMessages_spec messages
    rw [loopStep, results, users, words]
    exact ⟨rfl, (List.append_nil _).symm⟩
  | round said calls =>
    have none_ : userFiles [.other said, .tool (calls.map (resultPart numbers))] = [] := rfl
    rw [loopStep, userFiles_append, toolFiles_append, wordsOf_append, roundFiles, none_, List.append_nil, List.append_assoc]
    exact ⟨rfl, rfl⟩

theorem run_spec (numbers : Numbers) (opening : List (ModelMessage α)) (events : List (LoopEvent α)) :
    userFiles (run (loopStep numbers) opening events) ++ toolFiles (run (loopStep numbers) opening events) =
        userFiles opening ++ toolFiles opening ++ events.flatMap (roundImages numbers) ∧
      wordsOf (run (loopStep numbers) opening events) = wordsOf opening ++ events.flatMap (roundWords numbers) := by
  induction events generalizing opening with
  | nil => simp
  | cons e events ih =>
    obtain ⟨files, words⟩ := loopStep_spec numbers opening e
    obtain ⟨laterFiles, laterWords⟩ := ih (loopStep numbers opening e)
    rw [files] at laterFiles
    rw [words] at laterWords
    rw [run_cons, laterFiles, laterWords, List.flatMap_cons, List.flatMap_cons]
    exact ⟨List.append_assoc _ _ _, List.append_assoc _ _ _⟩

/-- Before every step of a reply's tool loop, each image the answers so far contained, at any depth of their documents, is
one part of a user message, in their order, and no tool result holds one; what else was said is as it was. -/
theorem images_reach_once (numbers : Numbers) (opening : List (ModelMessage α)) (events : List (LoopEvent α)) :
    let shown := stepMessages (run (loopStep numbers) opening events)
    toolFiles shown = [] ∧
      userFiles shown = userFiles opening ++ toolFiles opening ++ events.flatMap (roundImages numbers) ∧
      wordsOf shown = wordsOf opening ++ events.flatMap (roundWords numbers) ∧
      liftToolResultImages shown = none := by
  obtain ⟨results, users, words⟩ := stepMessages_spec (run (loopStep numbers) opening events)
  obtain ⟨files, kept⟩ := run_spec numbers opening events
  refine ⟨results, by rw [users, files], by rw [words, kept], ?_⟩
  rw [liftToolResultImages, (lifted_messages _).1, results]
  rfl

end GroupButler.Replies
