import GroupButler.Actions.Surfaces
import Mathlib.Data.List.TakeWhile

/-!
# Short ids, as an owner types them

A short id is drawn when an action is staged and typed back in a direct chat. `normalizeShortId` forgives
the spaces and dashes of the typing; the grammar of the command sees them first.
-/

namespace GroupButler.Actions
open Foundation Store

def shortIdLength : Nat := 6

def shortIdAlphabet : List Char := "23456789ABCDEFGHJKMNPQRSTUVWXYZ".toList

def newShortId (randomInt : Fin shortIdLength → Fin shortIdAlphabet.length) : String :=
  String.ofList (List.ofFn fun index => shortIdAlphabet.get (randomInt index))

/-- The dashes of Unicode. -/
def isDash (c : Char) : Bool :=
  c.toNat ∈ [0x2D, 0x58A, 0x5BE, 0x1400, 0x1806, 0x2E17, 0x2E1A, 0x2E3A, 0x2E3B, 0x2E40, 0x2E5D, 0x301C, 0x3030, 0x30A0,
      0xFE31, 0xFE32, 0xFE58, 0xFE63, 0xFF0D, 0x10D6E, 0x10EAD]
    || (0x2010 ≤ c.toNat && c.toNat ≤ 0x2015)

/-- A text is one way of typing a short id: its characters in either case, with spaces and dashes anywhere. -/
inductive Typing : List Char → List Char → Prop
  | done : Typing [] []
  | space {c : Char} {typed shortId : List Char} : isJsSpace c = true → Typing typed shortId → Typing (c :: typed) shortId
  | dash {c : Char} {typed shortId : List Char} : isDash c = true → Typing typed shortId → Typing (c :: typed) shortId
  | char {c d : Char} {typed shortId : List Char} : c.toUpper = d → Typing typed shortId → Typing (c :: typed) (d :: shortId)

def decisionWord : PendingActionDecision → String
  | .approve => "approve"
  | .reject => "reject"

/-- The first word of a message, in lower case. -/
def firstWord (text : String) : String :=
  String.ofList (((text.toList.dropWhile isJsSpace).takeWhile fun c => !isJsSpace c).map Char.toLower)

theorem shortIdAlphabet_upper : shortIdAlphabet.all (fun c => c.isAlphanum && c.toUpper == c) = true := by decide

theorem newShortId_char {randomInt : Fin shortIdLength → Fin shortIdAlphabet.length} {c : Char}
    (member : c ∈ (newShortId randomInt).toList) : c ∈ shortIdAlphabet := by
  rw [newShortId, String.toList_ofList, List.mem_ofFn] at member
  obtain ⟨index, rfl⟩ := member
  exact List.get_mem _ _

theorem isAlphanum_code {c : Char} (alphanumeric : c.isAlphanum = true) :
    (0x30 ≤ c.toNat ∧ c.toNat ≤ 0x39) ∨ (0x41 ≤ c.toNat ∧ c.toNat ≤ 0x5A) ∨ (0x61 ≤ c.toNat ∧ c.toNat ≤ 0x7A) := by
  unfold Char.isAlphanum at alphanumeric
  rw [Bool.or_eq_true, isAlpha_iff, isUpper_iff, isLower_iff, isDigit_iff] at alphanumeric
  omega

theorem space_stripped {c : Char} (space : isJsSpace c = true) : c.isAlphanum = false := by
  rw [← Bool.not_eq_true]
  intro alphanumeric
  have code := isAlphanum_code alphanumeric
  simp [isJsSpace] at space
  omega

theorem dash_stripped {c : Char} (dash : isDash c = true) : c.isAlphanum = false := by
  rw [← Bool.not_eq_true]
  intro alphanumeric
  have code := isAlphanum_code alphanumeric
  simp [isDash] at dash
  omega

theorem isAlphanum_of_isAlpha {c : Char} (alpha : c.isAlpha = true) : c.isAlphanum = true := by
  unfold Char.isAlphanum
  rw [alpha, Bool.true_or]

/-- What folds to a letter or a digit is one. -/
theorem isAlphanum_of_toUpper {c : Char} (alphanumeric : c.toUpper.isAlphanum = true) : c.isAlphanum = true := by
  by_cases lower : c.isLower = true
  · exact isAlphanum_of_isAlpha (isAlpha_iff.mpr (Or.inr lower))
  · rwa [toUpper_of_not_lower lower] at alphanumeric

theorem isAlphanum_of_toLower {c : Char} (alphanumeric : c.toLower.isAlphanum = true) : c.isAlphanum = true := by
  by_cases upper : c.isUpper = true
  · exact isAlphanum_of_isAlpha (isAlpha_iff.mpr (Or.inl upper))
  · rwa [toLower_of_not_upper upper] at alphanumeric

theorem normalize_typing {typed shortId : List Char} (typing : Typing typed shortId)
    (alphanumeric : ∀ c ∈ shortId, c.isAlphanum = true) :
    (typed.filter Char.isAlphanum).map Char.toUpper = shortId := by
  induction typing with
  | done => rfl
  | space blank _ ih =>
    rw [List.filter_cons_of_neg (by simp [space_stripped blank])]
    exact ih alphanumeric
  | dash dash _ ih =>
    rw [List.filter_cons_of_neg (by simp [dash_stripped dash])]
    exact ih alphanumeric
  | char same _ ih =>
    have first := alphanumeric _ (List.mem_cons_self ..)
    rw [← same] at first
    rw [List.filter_cons_of_pos (isAlphanum_of_toUpper first), List.map_cons, same,
      ih fun c member => alphanumeric c (List.mem_cons_of_mem _ member)]

theorem newShortId_alphanumeric {randomInt : Fin shortIdLength → Fin shortIdAlphabet.length} {c : Char}
    (member : c ∈ (newShortId randomInt).toList) : c.isAlphanum = true :=
  (Bool.and_eq_true_iff.mp (List.all_eq_true.mp shortIdAlphabet_upper c (newShortId_char member))).1

theorem newShortId_ne_nil (randomInt : Fin shortIdLength → Fin shortIdAlphabet.length) : (newShortId randomInt).toList ≠ [] := by
  intro none
  have length := congrArg List.length none
  rw [newShortId, String.toList_ofList, List.length_ofFn] at length
  cases length

theorem normalizeShortId_typing {typed : List Char} {randomInt : Fin shortIdLength → Fin shortIdAlphabet.length}
    (typing : Typing typed (newShortId randomInt).toList) : normalizeShortId (String.ofList typed) = newShortId randomInt := by
  rw [normalizeShortId, String.toList_ofList, normalize_typing typing fun _ => newShortId_alphanumeric, String.ofList_toList]

/-! ### The command and the typing -/

/-- A text with no white space after its first run is that run, once trimmed. -/
theorem trim_run {cs : List Char} (blank : ∀ c ∈ cs.dropWhile fun c => !isJsSpace c, isJsSpace c = true) :
    (cs.reverse.dropWhile isJsSpace).reverse = cs.takeWhile fun c => !isJsSpace c := by
  have front : ∀ c ∈ cs.takeWhile fun c => !isJsSpace c, isJsSpace c = false := by
    intro c member
    simpa using List.mem_takeWhile_imp member
  have split := congrArg List.reverse (List.takeWhile_append_dropWhile (p := fun c => !isJsSpace c) (l := cs))
  rw [← split, List.reverse_append, List.dropWhile_append_of_pos fun c back => blank c (List.mem_reverse.mp back),
    dropWhile_of_head, List.reverse_reverse]
  rw [List.head?_reverse]
  intro c last
  exact front c (List.mem_of_getLast? last)

/-- `(\S+)\s*$` takes a text whole exactly when no white space stands inside it. -/
theorem any_space_false {cs : List Char} : cs.any isJsSpace = false ↔ ∀ c ∈ cs, isJsSpace c = false := by
  simp only [List.any_eq_false, Bool.not_eq_true]

theorem inner_space_iff (cs : List Char) :
    (∀ c ∈ cs.dropWhile fun c => !isJsSpace c, isJsSpace c = true) ↔
      ∀ c ∈ (cs.reverse.dropWhile isJsSpace).reverse, isJsSpace c = false := by
  constructor
  · intro blank c member
    rw [trim_run blank] at member
    simpa using List.mem_takeWhile_imp member
  · intro visible
    have split : cs = (cs.reverse.dropWhile isJsSpace).reverse ++ (cs.reverse.takeWhile isJsSpace).reverse := by
      rw [← List.reverse_append, List.takeWhile_append_dropWhile, List.reverse_reverse]
    have blank : ∀ c ∈ (cs.reverse.takeWhile isJsSpace).reverse, isJsSpace c = true := fun c back =>
      List.mem_takeWhile_imp (List.mem_reverse.mp back)
    rw [split, List.dropWhile_append_of_pos fun c member => by rw [visible c member]; rfl]
    intro c member
    exact blank c ((List.dropWhile_suffix _).subset member)

theorem approvalCommand_words {word gap typed : List Char} (plain : ∀ c ∈ word, isJsSpace c = false) (some_ : word ≠ [])
    (blank : ∀ c ∈ gap, isJsSpace c = true) (apart : gap ≠ []) :
    approvalCommand (String.ofList (word ++ gap ++ typed)) =
      if ((typed.dropWhile isJsSpace).takeWhile fun c => !isJsSpace c).isEmpty ||
          !(((typed.dropWhile isJsSpace).dropWhile fun c => !isJsSpace c).all isJsSpace) then none
      else if String.ofList (word.map Char.toLower) = "approve" then
        some ⟨.approve, String.ofList ((typed.dropWhile isJsSpace).takeWhile fun c => !isJsSpace c)⟩
      else if String.ofList (word.map Char.toLower) = "reject" then
        some ⟨.reject, String.ofList ((typed.dropWhile isJsSpace).takeWhile fun c => !isJsSpace c)⟩
      else none := by
  obtain ⟨g, gap, rfl⟩ := List.exists_cons_of_ne_nil apart
  have space : isJsSpace g = true := blank g (List.mem_cons_self ..)
  have lead : (word ++ g :: gap ++ typed).dropWhile isJsSpace = word ++ g :: gap ++ typed := by
    apply dropWhile_of_head
    obtain ⟨w, word, rfl⟩ := List.exists_cons_of_ne_nil some_
    rintro c ⟨⟩
    exact plain w (List.mem_cons_self ..)
  have visible : ∀ c ∈ word, (!isJsSpace c) = true := fun c member => by rw [plain c member]; rfl
  have taken : (word ++ g :: gap ++ typed).takeWhile (fun c => !isJsSpace c) = word := by
    rw [List.append_assoc, List.takeWhile_append_of_pos visible, List.cons_append, List.takeWhile_cons_of_neg (by simp [space]),
      List.append_nil]
  have dropped : ((word ++ g :: gap ++ typed).dropWhile fun c => !isJsSpace c).dropWhile isJsSpace = typed.dropWhile isJsSpace := by
    rw [List.append_assoc, List.dropWhile_append_of_pos visible, List.cons_append, List.dropWhile_cons_of_neg (by simp [space]),
      ← List.cons_append, List.dropWhile_append_of_pos blank]
  rw [approvalCommand, String.toList_ofList]
  simp only [lead, taken, dropped]

/-- A short id is the one its row answers to, and no other row of the organization does. -/
def Reaches (actions : List ActionRow) (row : ActionRow) (decision : PendingActionDecision) (text : String) : Prop :=
  ∃ command, approvalCommand text = some command ∧ command.decision = decision ∧
    ∀ other ∈ actions, other.organizationId = row.organizationId →
      (refFilter (.shortId command.shortId) other = true ↔ other = row)

theorem decisionWord_plain (decision : PendingActionDecision) {word : List Char}
    (same : word.map Char.toLower = (decisionWord decision).toList) :
    (∀ c ∈ word, isJsSpace c = false) ∧ word ≠ [] := by
  have length : 0 < word.length := by
    have lengths := congrArg List.length same
    rw [List.length_map] at lengths
    cases decision <;> simp [decisionWord] at lengths <;> omega
  refine ⟨fun c member => ?_, List.ne_nil_of_length_pos length⟩
  have lower : c.toLower ∈ (decisionWord decision).toList := same ▸ List.mem_map_of_mem member
  have letters : (decisionWord decision).toList.all Char.isAlphanum = true := by cases decision <;> decide
  have alphanumeric := isAlphanum_of_toLower (List.all_eq_true.mp letters _ lower)
  rw [← Bool.not_eq_true]
  intro space
  rw [space_stripped space] at alphanumeric
  cases alphanumeric

/-- Typed over blanks and dashes, a short id still shows its first character. -/
theorem typing_ne_nil {typed shortId : List Char} (typing : Typing typed shortId) (some_ : shortId ≠ [])
    (alphanumeric : ∀ c ∈ shortId, c.isAlphanum = true) : typed.dropWhile isJsSpace ≠ [] := by
  intro none
  have blank := List.dropWhile_eq_nil_iff.mp none
  have stripped := normalize_typing typing alphanumeric
  rw [List.filter_eq_nil_iff.mpr fun c member => by simp [space_stripped (blank c member)]] at stripped
  exact some_ stripped.symm

theorem decisionWord_lower {decision : PendingActionDecision} {word : List Char}
    (same : word.map Char.toLower = (decisionWord decision).toList) (shortId : String) :
    (if String.ofList (word.map Char.toLower) = "approve" then some (⟨.approve, shortId⟩ : ApprovalCommand)
      else if String.ofList (word.map Char.toLower) = "reject" then some ⟨.reject, shortId⟩ else none) =
      some ⟨decision, shortId⟩ := by
  rw [same, String.ofList_toList]
  cases decision <;> rfl

/-- The command carries everything of the typing but the white space around it, and refuses a typing with
white space inside. -/
theorem approvalCommand_typing {decision : PendingActionDecision} {word gap typed shortId : List Char}
    (same : word.map Char.toLower = (decisionWord decision).toList) (blank : ∀ c ∈ gap, isJsSpace c = true) (apart : gap ≠ [])
    (typing : Typing typed shortId) (some_ : shortId ≠ []) (alphanumeric : ∀ c ∈ shortId, c.isAlphanum = true) :
    approvalCommand (String.ofList (word ++ gap ++ typed)) =
      if (jsTrim (String.ofList typed)).toList.any isJsSpace then none
      else some ⟨decision, jsTrim (String.ofList typed)⟩ := by
  obtain ⟨plain, spelled⟩ := decisionWord_plain decision same
  have shown := typing_ne_nil typing some_ alphanumeric
  have trimmed : (jsTrim (String.ofList typed)).toList = ((typed.dropWhile isJsSpace).reverse.dropWhile isJsSpace).reverse := by
    rw [jsTrim, trimChars, String.toList_ofList, String.toList_ofList]
  have first : (typed.dropWhile isJsSpace).takeWhile (fun c => !isJsSpace c) ≠ [] := by
    obtain ⟨c, rest, chars⟩ := List.exists_cons_of_ne_nil shown
    have visible := head_dropWhile isJsSpace typed c (by rw [chars]; rfl)
    rw [chars, List.takeWhile_cons_of_pos (by rw [visible]; rfl)]
    exact List.cons_ne_nil _ _
  rw [approvalCommand_words plain spelled blank apart, decisionWord_lower same]
  by_cases whole : ∀ c ∈ (typed.dropWhile isJsSpace).dropWhile fun c => !isJsSpace c, isJsSpace c = true
  · have text : jsTrim (String.ofList typed) = String.ofList ((typed.dropWhile isJsSpace).takeWhile fun c => !isJsSpace c) := by
      rw [← trim_run whole, ← trimmed, String.ofList_toList]
    have visible : (jsTrim (String.ofList typed)).toList.any isJsSpace = false :=
      any_space_false.mpr (trimmed ▸ (inner_space_iff _).mp whole)
    rw [visible, if_neg Bool.false_ne_true, text, if_neg]
    simpa [first] using whole
  · have spaced : (jsTrim (String.ofList typed)).toList.any isJsSpace = true := by
      rw [← Bool.not_eq_false, any_space_false, trimmed]
      exact fun visible => whole ((inner_space_iff _).mpr visible)
    rw [if_pos spaced, if_pos]
    simpa [first] using whole

theorem filter_dropWhile (cs : List Char) : (cs.dropWhile isJsSpace).filter Char.isAlphanum = cs.filter Char.isAlphanum := by
  induction cs with
  | nil => rfl
  | cons c cs ih =>
    by_cases space : isJsSpace c = true
    · rw [List.dropWhile_cons_of_pos space, ih, List.filter_cons_of_neg (by simp [space_stripped space])]
    · rw [List.dropWhile_cons_of_neg space]

theorem normalizeShortId_trim (value : String) : normalizeShortId (jsTrim value) = normalizeShortId value := by
  rw [normalizeShortId, jsTrim, trimChars, String.toList_ofList, List.filter_reverse, filter_dropWhile, List.filter_reverse,
    List.reverse_reverse, filter_dropWhile, normalizeShortId]

/-- A message that starts with neither word is no command. -/
theorem approvalCommand_other {text : String} (approve : firstWord text ≠ decisionWord .approve)
    (reject : firstWord text ≠ decisionWord .reject) : approvalCommand text = none := by
  simp only [firstWord, decisionWord] at approve reject
  unfold approvalCommand
  dsimp only
  rw [if_neg approve, if_neg reject, ite_self]

/-! ### The rows of a run -/

def Drawn (shortId : String) : Prop := ∃ randomInt, shortId = newShortId randomInt

/-- The key of the unique index on short ids. -/
def slot (row : ActionRow) : String × String := (row.organizationId, row.shortId)

structure Numbered (actions : List ActionRow) : Prop where
  drawn : ∀ row ∈ actions, Drawn row.shortId
  unique : (actions.map slot).Nodup

theorem Numbered.same {actions next : List ActionRow} (numbered : Numbered actions) (same : next.map slot = actions.map slot) :
    Numbered next := by
  refine ⟨fun row member => ?_, same ▸ numbered.unique⟩
  have listed : slot row ∈ actions.map slot := same ▸ List.mem_map_of_mem member
  obtain ⟨old, stored, key⟩ := List.mem_map.mp listed
  have shortId : old.shortId = row.shortId := congrArg Prod.snd key
  exact shortId ▸ numbered.drawn old stored

theorem Numbered.only {actions : List ActionRow} (numbered : Numbered actions) {row other : ActionRow} (member : row ∈ actions)
    (stored : other ∈ actions) (organization : other.organizationId = row.organizationId) (shortId : other.shortId = row.shortId) :
    other = row :=
  List.inj_on_of_nodup_map numbered.unique stored member (Prod.ext organization shortId)

theorem reaches_iff {actions : List ActionRow} {row : ActionRow} {decision : PendingActionDecision} {word gap typed : List Char}
    {randomInt : Fin shortIdLength → Fin shortIdAlphabet.length} (numbered : Numbered actions) (member : row ∈ actions)
    (shortId : row.shortId = newShortId randomInt) (same : word.map Char.toLower = (decisionWord decision).toList)
    (apart : gap ≠ []) (blank : ∀ c ∈ gap, isJsSpace c = true) (typing : Typing typed row.shortId.toList) :
    Reaches actions row decision (String.ofList (word ++ gap ++ typed)) ↔
      ∀ c ∈ (jsTrim (String.ofList typed)).toList, isJsSpace c = false := by
  rw [shortId] at typing
  have command := approvalCommand_typing same blank apart typing (newShortId_ne_nil randomInt) fun _ => newShortId_alphanumeric
  constructor
  · rintro ⟨found, parsed, -⟩
    rw [← any_space_false]
    by_contra spaced
    rw [command, if_pos (Bool.eq_true_of_not_eq_false spaced)] at parsed
    cases parsed
  · intro whole
    rw [any_space_false.mpr whole, if_neg Bool.false_ne_true] at command
    refine ⟨_, command, rfl, fun other stored organization => ?_⟩
    rw [refFilter, beq_iff_eq, normalizeShortId_trim, normalizeShortId_typing typing, ← shortId]
    constructor
    · intro answers
      exact numbered.only member stored organization answers
    · rintro rfl
      rfl

theorem stageAction_numbered {db : ActionDb} (numbered : Numbered db.actions) (input : StageActionInput) (id : String)
    {shortId : String} (drawn : Drawn shortId) (now : Time) : Numbered (stageAction db input id shortId now).actions := by
  unfold stageAction
  split
  · exact numbered
  · rename_i free
    refine ⟨fun row member => ?_, ?_⟩
    · rcases List.mem_append.mp member with old | new
      · exact numbered.drawn row old
      · obtain rfl := List.mem_singleton.mp new
        exact drawn
    · show ((db.actions ++ [stagedRow input id shortId now]).map slot).Nodup
      rw [List.map_append, List.nodup_append]
      refine ⟨numbered.unique, List.nodup_singleton _, ?_⟩
      rintro taken listed _ (_ | ⟨_, ⟨⟩⟩) rfl
      obtain ⟨row, stored, key⟩ := List.mem_map.mp listed
      apply free
      rw [List.any_eq_true]
      refine ⟨row, stored, ?_⟩
      rw [Bool.and_eq_true, beq_iff_eq, beq_iff_eq]
      exact ⟨congrArg Prod.fst key, congrArg Prod.snd key⟩

namespace Surfaces
open Sends

/-- A staged action gets a short id that was drawn for it. -/
def Draws (_ : State) : Event → Prop
  | .stage _ _ shortId _ => Drawn shortId
  | _ => True

section
variable [Datetimes]

theorem step_numbered (s : State) (e : Event) (numbered : Numbered s.actions.actions) (draws : Draws s e) :
    Numbered (step s e).actions.actions := by
  cases e with
  | sends e => exact numbered
  | stage input id shortId now =>
    have staged : Numbered (Actions.step s.actions (.stage input id shortId now)).actions := by
      simp only [Actions.step]
      split
      · exact stageAction_numbered numbered input id draws now
      · exact numbered
    simp only [step]
    split <;> exact staged
  | console organizationId id decision decidedBy ip => exact numbered
  | message organizationId text ownerJid =>
    simp only [step]
    split <;> exact numbered
  | decide index now =>
    simp only [step]
    split
    · exact numbered
    · split
      · split
        · exact numbered
        · rename_i done
          have kept : Numbered (s.actions.commit _).actions := numbered.same (transact_map done fun _ => rfl)
          unfold decided
          split
          · split <;> exact kept
          · exact kept
      · exact numbered
  | executor index action =>
    simp only [step, Actions.step]
    split
    · exact numbered
    · exact numbered.same (act_map (fun _ _ => rfl) (fun _ _ _ => rfl) _ _ _ _)
  | answer index =>
    simp only [step]
    split
    · exact numbered
    · split
      · exact numbered
      · split <;> exact numbered
      · exact numbered

omit [Datetimes] in
theorem start_numbered (messages : List Ingest.MessageRow) : Numbered (start messages).actions.actions := by
  refine ⟨fun row listed => ?_, List.nodup_nil⟩
  cases listed

theorem run_numbered (messages : List Ingest.MessageRow) {events : List Event} (draws : Along step Draws (start messages) events) :
    Numbered (run step (start messages) events).actions.actions :=
  run_invariant_along (I := fun s => Numbered s.actions.actions) step_numbered (start_numbered messages) draws

/-- A command reaches its action exactly when no white space stands inside the typing of the short id; and a message
that starts with neither word asks for no decision. -/
theorem typing_reaches_iff (messages : List Ingest.MessageRow) {events : List Event}
    (draws : Along step Draws (start messages) events) :
    (∀ row ∈ (run step (start messages) events).actions.actions, ∀ decision, ∀ word gap typed : List Char,
      word.map Char.toLower = (decisionWord decision).toList → gap ≠ [] → (∀ c ∈ gap, isJsSpace c = true) →
        Typing typed row.shortId.toList →
          (Reaches (run step (start messages) events).actions.actions row decision (String.ofList (word ++ gap ++ typed)) ↔
            ∀ c ∈ (jsTrim (String.ofList typed)).toList, isJsSpace c = false)) ∧
      ∀ organizationId text ownerJid, firstWord text ≠ decisionWord .approve → firstWord text ≠ decisionWord .reject →
        step (run step (start messages) events) (.message organizationId text ownerJid) = run step (start messages) events := by
  constructor
  · intro row member decision word gap typed same apart blank typing
    have numbered := run_numbered messages draws
    obtain ⟨randomInt, shortId⟩ := numbered.drawn row member
    exact reaches_iff numbered member shortId same apart blank typing
  · intro organizationId text ownerJid approve reject
    rw [step, approvalCommand_other approve reject]

end

/-- A staged action, answered to as `ABCDEF`. -/
def stagedLeaving : List Event := [.stage leaving "a" "ABCDEF" 1]

theorem drawn_leaving : Drawn "ABCDEF" :=
  ⟨fun index => ⟨8 + index.val, (Nat.add_lt_add_left index.isLt 8).trans (by decide)⟩, by decide⟩

theorem typing_reaches_dashed :
    letI : Datetimes := ⟨fun _ => none⟩
    Reaches (run step (start []) stagedLeaving).actions.actions (stagedRow leaving "a" "ABCDEF" 1) .approve
      (String.ofList ("Approve".toList ++ [' '] ++ " ab-Cdef".toList)) :=
  letI : Datetimes := ⟨fun _ => none⟩
  ((typing_reaches_iff [] (show Along step Draws (start []) stagedLeaving from ⟨drawn_leaving, trivial⟩)).1 (stagedRow leaving "a" "ABCDEF" 1)
    (List.mem_singleton_self _) .approve "Approve".toList [' '] " ab-Cdef".toList (by decide) (by decide)
    (forall_mem_of_all (by decide))
    (.space (by decide) (.char (by decide) (.char (by decide) (.dash (by decide) (.char (by decide) (.char (by decide)
      (.char (by decide) (.char (by decide) .done))))))))).mpr (forall_mem_of_all (by decide))

/-- `approve ABC DEF` is left to the model as a question. -/
theorem spaced_typing_missed :
    letI : Datetimes := ⟨fun _ => none⟩
    Along step Draws (start []) stagedLeaving ∧
      ¬ ∀ row ∈ (run step (start []) stagedLeaving).actions.actions, ∀ decision, ∀ word gap typed : List Char,
        word.map Char.toLower = (decisionWord decision).toList → gap ≠ [] → (∀ c ∈ gap, isJsSpace c = true) →
          Typing typed row.shortId.toList →
            Reaches (run step (start []) stagedLeaving).actions.actions row decision (String.ofList (word ++ gap ++ typed)) := by
  let _ : Datetimes := ⟨fun _ => none⟩
  refine ⟨⟨drawn_leaving, trivial⟩, fun all => ?_⟩
  have typing : Typing "ABC DEF".toList "ABCDEF".toList :=
    .char (by decide) (.char (by decide) (.char (by decide) (.space (by decide) (.char (by decide) (.char (by decide)
      (.char (by decide) .done))))))
  obtain ⟨command, parsed, -⟩ := all (stagedRow leaving "a" "ABCDEF" 1) (List.mem_singleton_self _) .approve "approve".toList [' ']
    "ABC DEF".toList (by decide) (by decide) (forall_mem_of_all (by decide)) typing
  have missed : approvalCommand (String.ofList ("approve".toList ++ [' '] ++ "ABC DEF".toList)) = none := by decide
  rw [missed] at parsed
  cases parsed

end Surfaces

end GroupButler.Actions
