import GroupButler.Ingest.Message
import Mathlib.Data.List.Chain
import Mathlib.Data.List.TakeWhile

/-!
# Type-ahead

A search trims and bounds its query, lower-cases it and matches it, quoted, against the start of the
folded text the worker stored. The fold makes punctuation a space and collapses white space; the
query keeps both.
-/

namespace GroupButler.Messages
open Foundation Ingest

/-! ### The query -/

def maxQueryLength : Nat := 256

/-- `(query ?? "").trim().slice(0, MAX_QUERY_LENGTH)`, as it is stored. -/
def searchTerm (query : Option String) : List Char :=
  ofUtf16 ((utf16 (jsTrim (query.getD ""))).take maxQueryLength)

/-- The properties Unicode's `Final_Sigma` condition asks for. -/
class Casing where
  isCased : Char → Bool
  isCaseIgnorable : Char → Bool

section
variable [Casing]

/-- A cased letter comes first, passing over what case ignores. -/
def meetsCased (cs : List Char) : Bool := (cs.dropWhile Casing.isCaseIgnorable).head?.any Casing.isCased

/-- A sigma that ends its word. What stands before it is given backwards. -/
def finalSigma (before after : List Char) : Bool := meetsCased before && !meetsCased after

variable [Unicode]

/-- `String.prototype.toLowerCase`: the simple mapping, but for a dotted capital I and a final sigma. -/
def lowerFrom (before : List Char) : List Char → List Char
  | [] => []
  | c :: after =>
    (if c = 'İ' then ['i', '\u0307']
      else if c = 'Σ' ∧ finalSigma before after = true then ['ς']
      else [Unicode.toLower c]) ++ lowerFrom (c :: before) after

def toLowerCase (cs : List Char) : List Char := lowerFrom [] cs

end

def isRegExpMeta (c : Char) : Bool := c ∈ ".*+?^${}()|[]\\".toList

def escapeRegExp (cs : List Char) : List Char := cs.flatMap fun c => if isRegExpMeta c then ['\\', c] else [c]

/-- The text a pattern without operators stands for. -/
def literalOf : List Char → Option (List Char)
  | [] => some []
  | c :: pattern =>
    if c = '\\' then
      match pattern with
      | [] => none
      | d :: pattern => if isRegExpMeta d then (literalOf pattern).map (d :: ·) else none
    else if isRegExpMeta c then none
    else (literalOf pattern).map (c :: ·)

/-- A pattern anchored at the start, as the database matches it. -/
def matchesRegExp (pattern text : List Char) : Bool :=
  match pattern with
  | [] => true
  | c :: pattern => if c = '^' then (literalOf pattern).any fun literal => literal.isPrefixOf text else false

section
variable [Casing] [Unicode]

/-- `^${escapeRegExp(term.toLowerCase())}` -/
def typeaheadPattern (term : List Char) : List Char := '^' :: escapeRegExp (toLowerCase term)

/-- The type-ahead branch of a search finds the row. An empty term has no such branch. -/
def typeaheadMatches (query : Option String) (textSearch : String) : Bool :=
  !(searchTerm query).isEmpty && matchesRegExp (typeaheadPattern (searchTerm query)) textSearch.toList

end

theorem literalOf_escapeRegExp (cs : List Char) : literalOf (escapeRegExp cs) = some cs := by
  unfold escapeRegExp
  induction cs with
  | nil => rfl
  | cons c cs ih =>
    rw [List.flatMap_cons]
    split
    · rename_i special
      rw [List.cons_append, List.cons_append, List.nil_append, literalOf, if_pos rfl]
      simp only [special, if_true, ih, Option.map_some]
    · rename_i plain
      have slash : c ≠ '\\' := by
        rintro rfl
        exact plain (by decide)
      rw [List.cons_append, List.nil_append, literalOf.eq_def]
      simp only [if_neg slash, if_neg plain, ih, Option.map_some]

theorem matchesRegExp_escaped (cs text : List Char) :
    matchesRegExp ('^' :: escapeRegExp cs) text = cs.isPrefixOf text := by
  simp only [matchesRegExp, if_true, literalOf_escapeRegExp, Option.any_some]

/-! ### The fold, a character at a time -/

theorem intercalate_space (word : List Char) (words : List (List Char)) :
    [' '].intercalate (word :: words) = word ++ words.flatMap (' ' :: ·) := by
  induction words generalizing word with
  | nil => simp
  | cons next words ih => rw [List.intercalate_cons_cons, ih, List.flatMap_cons, List.append_assoc]; rfl

/-- Where the fold stands: before the first word, in a word, or past one with a space owed. -/
inductive Gap where
  | fresh | inWord | owed
  deriving DecidableEq, Repr

section
variable [Unicode]

def isWord (c : Char) : Bool := Unicode.isLetter c || Unicode.isNumber c

/-- The fold keeps this character, lower-cased. -/
def folds (c : Char) : Bool := isWord (Unicode.toLower c)

def emit : Gap → List Char → List Char
  | _, [] => []
  | gap, c :: cs =>
    if folds c then
      (if gap = .owed then [' ', Unicode.toLower c] else [Unicode.toLower c]) ++ emit .inWord cs
    else emit (if gap = .fresh then .fresh else .owed) cs

/-- What is documented of Unicode's tables and used here. -/
class UnicodeLaws : Prop where
  white : ∀ c, isGoSpace c = true ∨ isJsSpace c = true → isWord c = false ∧ Unicode.toLower c = c
  space : ∀ c, Unicode.toLower c = ' ' → c = ' '
  sigma : Unicode.toLower 'Σ' = 'σ' ∧ isWord 'σ' = true
  dot : isWord '\u0307' = false
  replacement : isWord '\uFFFD' = false ∧ Unicode.toLower '\uFFFD' = '\uFFFD'

theorem mem_emit {gap : Gap} {cs : List Char} {c : Char} (member : c ∈ emit gap cs) : isWord c = true ∨ c = ' ' := by
  induction cs generalizing gap with
  | nil => simp [emit] at member
  | cons d cs ih =>
    rw [emit] at member
    split at member
    · rename_i keeps
      rcases List.mem_append.mp member with here | later
      · split at here
        · rcases List.mem_cons.mp here with rfl | here
          · exact Or.inr rfl
          · rw [List.mem_singleton.mp here]
            exact Or.inl keeps
        · rw [List.mem_singleton.mp here]
          exact Or.inl keeps
      · exact ih later
    · exact ih member

/-- A folded text starts with a word, and an owed space is followed by one. -/
theorem emit_fresh (cs : List Char) : emit .fresh cs = [] ∨ ∃ c rest, emit .fresh cs = c :: rest ∧ isWord c = true := by
  induction cs with
  | nil => exact Or.inl rfl
  | cons c cs ih =>
    by_cases keeps : folds c = true
    · exact Or.inr ⟨Unicode.toLower c, emit .inWord cs, by simp [emit, keeps], keeps⟩
    · simpa [emit, keeps] using ih

theorem emit_owed (cs : List Char) :
    (∃ c ∈ cs, folds c = true) ∧ (∃ c rest, emit .owed cs = ' ' :: c :: rest ∧ isWord c = true) ∨
      (¬ ∃ c ∈ cs, folds c = true) ∧ emit .owed cs = [] := by
  induction cs with
  | nil => exact Or.inr ⟨by simp, rfl⟩
  | cons c cs ih =>
    by_cases keeps : folds c = true
    · exact Or.inl ⟨⟨c, List.mem_cons_self, keeps⟩, Unicode.toLower c, emit .inWord cs, by simp [emit, keeps], keeps⟩
    · have same : emit .owed (c :: cs) = emit .owed cs := by simp [emit, keeps]
      rw [same]
      simpa [keeps] using ih

/-- What the fold keeps of a character comes out at once. -/
theorem emit_folded {c : Char} (keeps : folds c = true) (cs : List Char) :
    emit .inWord (c :: cs) = Unicode.toLower c :: emit .inWord cs ∧
      emit .owed (c :: cs) = ' ' :: Unicode.toLower c :: emit .inWord cs := by
  simp [emit, keeps]

theorem emit_dropped {c : Char} (drops : ¬ folds c = true) (cs : List Char) :
    emit .inWord (c :: cs) = emit .owed cs ∧ emit .owed (c :: cs) = emit .owed cs := by
  simp [emit, drops]

variable [laws : UnicodeLaws]

/-- The fold's words, and what each state of `emit` makes of them. -/
theorem emit_words (cs : List Char) :
    ∃ word words, (cs.map fun c => if folds c then Unicode.toLower c else ' ').splitOnP isGoSpace = word :: words ∧
      emit .inWord cs = word ++ (words.filter fun word => !word.isEmpty).flatMap (' ' :: ·) ∧
      emit .owed cs = ((word :: words).filter fun word => !word.isEmpty).flatMap (' ' :: ·) ∧
      emit .fresh cs = [' '].intercalate ((word :: words).filter fun word => !word.isEmpty) := by
  induction cs with
  | nil => exact ⟨[], [], by simp [emit]⟩
  | cons c cs ih =>
    obtain ⟨word, words, split, inWord, owed, fresh⟩ := ih
    rw [List.map_cons, List.splitOnP_cons_eq_if_modifyHead, split]
    by_cases keeps : folds c = true
    · have visible : isGoSpace (Unicode.toLower c) = false := by
        by_contra space
        have apart := (laws.white _ (Or.inl (Bool.not_eq_false _ ▸ space))).1
        rw [folds, apart] at keeps
        cases keeps
      refine ⟨Unicode.toLower c :: word, words, ?_, ?_, ?_, ?_⟩
      · rw [if_pos keeps, visible, if_neg Bool.false_ne_true]
        rfl
      all_goals simp [emit, keeps, inWord, intercalate_space]
    · refine ⟨[], word :: words, ?_, ?_, ?_, ?_⟩
      · rw [if_neg keeps, if_pos (by decide)]
      all_goals simp [emit, keeps, owed, fresh]

theorem foldText_eq (s : String) : (foldText s).toList = emit .fresh s.toList := by
  obtain ⟨word, words, split, -, -, fresh⟩ := emit_words s.toList
  have spaced : (toLower s).toList.map (fun r => if (Unicode.isLetter r || Unicode.isNumber r) = true then r else ' ') =
      s.toList.map fun c => if folds c then Unicode.toLower c else ' ' := by
    rw [toLower, String.toList_ofList, List.map_map]
    rfl
  rw [fresh, ← split, ← spaced, foldText, String.toList_ofList]
  rfl

/-! ### Terms the fold keeps -/

variable [Casing]

/-- A term the fold leaves as it lower-cases it, between what stands before it and what follows. -/
structure Typed (before term after : List Char) : Prop where
  letters : ∀ c ∈ term, folds c = true ∨ c = ' '
  single : term.IsChain fun a b => ¬ (a = ' ' ∧ b = ' ')
  ends : term.getLast? = some ' ' → ∃ c ∈ after, folds c = true
  dotless : 'İ' ∉ term
  sigma : ∀ front rest, term = front ++ 'Σ' :: rest → finalSigma (front.reverse ++ before) rest = false

omit laws in
theorem typed_nil (before after : List Char) : Typed before [] after where
  letters := by simp
  single := .nil
  ends := by simp
  dotless := by simp
  sigma := by simp

omit laws in
theorem typed_cons {before term after : List Char} {c : Char} : Typed before (c :: term) after ↔
    (folds c = true ∨ c = ' ') ∧ (c = ' ' → term.head? ≠ some ' ') ∧
      (c = ' ' → term = [] → ∃ d ∈ after, folds d = true) ∧ c ≠ 'İ' ∧
      (c = 'Σ' → finalSigma before term = false) ∧ Typed (c :: before) term after := by
  constructor
  · rintro ⟨letters, single, ends, dotless, sigma⟩
    refine ⟨letters c List.mem_cons_self, ?_, ?_, ?_, ?_, ?_, ?_, ?_, ?_, ?_⟩
    · intro blank again
      cases term with
      | nil => cases again
      | cons d term =>
        obtain rfl : d = ' ' := by simpa using again
        exact (List.isChain_cons_cons.mp single).1 ⟨blank, rfl⟩
    · rintro rfl rfl
      exact ends rfl
    · rintro rfl
      exact dotless List.mem_cons_self
    · rintro rfl
      exact sigma [] term rfl
    · exact fun d member => letters d (List.mem_cons_of_mem _ member)
    · exact single.tail
    · intro last
      refine ends ?_
      cases term with
      | nil => cases last
      | cons d term => rwa [List.getLast?_cons_cons]
    · exact fun member => dotless (List.mem_cons_of_mem _ member)
    · intro front rest shape
      have whole := sigma (c :: front) rest (by rw [shape, List.cons_append])
      rwa [List.reverse_cons, List.append_assoc] at whole
  · rintro ⟨letter, next, last, dotted, sigma, rest⟩
    refine ⟨?_, ?_, ?_, ?_, ?_⟩
    · intro d member
      rcases List.mem_cons.mp member with rfl | later
      · exact letter
      · exact rest.letters d later
    · cases term with
      | nil => exact .singleton c
      | cons d term =>
        refine List.isChain_cons_cons.mpr ⟨?_, rest.single⟩
        rintro ⟨blank, rfl⟩
        exact next blank rfl
    · intro ended
      cases term with
      | nil => exact last (by simpa using ended) rfl
      | cons d term => exact rest.ends (by rwa [List.getLast?_cons_cons] at ended)
    · intro member
      rcases List.mem_cons.mp member with same | later
      · exact dotted same.symm
      · exact rest.dotless later
    · intro front tail shape
      cases front with
      | nil =>
        obtain ⟨rfl, rfl⟩ := List.cons.inj shape
        exact sigma rfl
      | cons d front =>
        obtain ⟨rfl, later⟩ := List.cons.inj shape
        rw [List.reverse_cons, List.append_assoc]
        exact rest.sigma front tail later

omit laws in
theorem lowerFrom_dotted (before term : List Char) (dotted : 'İ' ∈ term) : '\u0307' ∈ lowerFrom before term := by
  induction term generalizing before with
  | nil => cases dotted
  | cons c term ih =>
    rw [lowerFrom]
    rcases List.mem_cons.mp dotted with rfl | later
    · simp
    · exact List.mem_append_right _ (ih _ later)

omit laws in
theorem lowerFrom_plain {before term : List Char} {c : Char} (dotless : c ≠ 'İ')
    (plain : ¬ (c = 'Σ' ∧ finalSigma before term = true)) :
    lowerFrom before (c :: term) = Unicode.toLower c :: lowerFrom (c :: before) term := by
  rw [lowerFrom, if_neg dotless, if_neg plain]
  rfl

omit laws in
theorem lowerFrom_final {before term : List Char} (final : finalSigma before term = true) :
    lowerFrom before ('Σ' :: term) = 'ς' :: lowerFrom ('Σ' :: before) term := by
  rw [lowerFrom, if_neg (by decide), if_pos ⟨rfl, final⟩]
  rfl

omit [Casing] in
theorem dot_not_emitted (gap : Gap) (cs : List Char) : '\u0307' ∉ emit gap cs := by
  intro member
  rcases mem_emit member with letter | blank
  · rw [laws.dot] at letter
    cases letter
  · exact absurd blank (by decide)

omit [Casing] in
theorem folds_space : folds ' ' = false ∧ Unicode.toLower ' ' = ' ' := by
  obtain ⟨apart, same⟩ := laws.white ' ' (Or.inl (by decide))
  exact ⟨by rw [folds, same, apart], same⟩

omit [Casing] in
theorem folds_sigma : folds 'Σ' = true := by rw [folds, laws.sigma.1, laws.sigma.2]

/-- The lower-cased term starts what is emitted exactly when the fold keeps it, within a word and
after a space. -/
def Decides (before term after : List Char) : Prop :=
  (lowerFrom before term <+: emit .inWord (term ++ after) ↔ Typed before term after) ∧
  ∀ earlier, before = ' ' :: earlier →
    (' ' :: lowerFrom before term <+: emit .owed (term ++ after) ↔ Typed earlier (' ' :: term) after)

omit laws in
theorem decides_nil (before after : List Char) : Decides before [] after := by
  refine ⟨⟨fun _ => typed_nil _ _, fun _ => List.nil_prefix⟩, ?_⟩
  rintro earlier rfl
  rw [typed_cons, lowerFrom, List.nil_append]
  rcases emit_owed after with ⟨more, c, rest, shape, -⟩ | ⟨none, shape⟩
  · simp [shape, more, typed_nil]
  · rw [shape]
    constructor
    · intro starts
      cases List.prefix_nil.mp starts
    · rintro ⟨-, -, more, -⟩
      exact (none (more rfl rfl)).elim

/-- The combining dot is never stored. -/
theorem decides_dotted (before term after : List Char) : Decides before ('İ' :: term) after := by
  constructor
  · constructor
    · intro starts
      exact (dot_not_emitted _ _ (starts.subset (lowerFrom_dotted _ _ List.mem_cons_self))).elim
    · intro typed
      exact (typed.dotless List.mem_cons_self).elim
  · rintro earlier rfl
    constructor
    · intro starts
      have dot := lowerFrom_dotted (' ' :: earlier) ('İ' :: term) List.mem_cons_self
      exact (dot_not_emitted _ _ (starts.subset (List.mem_cons_of_mem _ dot))).elim
    · intro typed
      exact (typed.dotless (List.mem_cons_of_mem _ List.mem_cons_self)).elim

/-- The fold lower-cases every sigma one way. -/
theorem decides_final {before term : List Char} (final : finalSigma before term = true) (after : List Char) :
    Decides before ('Σ' :: term) after := by
  obtain ⟨word, owed⟩ := emit_folded folds_sigma (term ++ after)
  unfold Decides
  rw [List.cons_append, word, owed, lowerFrom_final final, laws.sigma.1]
  refine ⟨?_, ?_⟩
  · rw [List.cons_prefix_cons]
    constructor
    · rintro ⟨same, -⟩
      exact absurd same (by decide)
    · intro typed
      have plain := typed.sigma [] term rfl
      rw [List.reverse_nil, List.nil_append, final] at plain
      cases plain
  · rintro earlier rfl
    rw [List.cons_prefix_cons, List.cons_prefix_cons]
    constructor
    · rintro ⟨-, same, -⟩
      exact absurd same (by decide)
    · intro typed
      have plain := typed.sigma [' '] term rfl
      rw [List.reverse_singleton, List.singleton_append, final] at plain
      cases plain

theorem decides_kept {before term after : List Char} {c : Char} (dotless : c ≠ 'İ')
    (plain : ¬ (c = 'Σ' ∧ finalSigma before term = true)) (keeps : folds c = true)
    (rest : Decides (c :: before) term after) : Decides before (c :: term) after := by
  have visible : c ≠ ' ' := by
    rintro rfl
    rw [folds_space.1] at keeps
    cases keeps
  have sigma : c = 'Σ' → finalSigma before term = false := by
    intro same
    by_contra ends
    exact plain ⟨same, Bool.not_eq_false _ ▸ ends⟩
  have whole : Typed before (c :: term) after ↔ Typed (c :: before) term after := by
    rw [typed_cons]
    simp only [keeps, visible, true_or, ne_eq, false_implies, dotless, not_false_eq_true, true_and,
      and_iff_right_iff_imp]
    exact fun _ => sigma
  obtain ⟨word, owed⟩ := emit_folded keeps (term ++ after)
  unfold Decides
  rw [List.cons_append, lowerFrom_plain dotless plain, word, owed]
  refine ⟨?_, ?_⟩
  · rw [List.cons_prefix_cons, whole, ← rest.1]
    exact and_iff_right rfl
  · rintro earlier rfl
    rw [List.cons_prefix_cons, List.cons_prefix_cons, rest.1, ← whole]
    constructor
    · rintro ⟨-, -, typed⟩
      rw [typed_cons]
      simp [visible, typed]
    · intro typed
      exact ⟨rfl, rfl, (typed_cons.mp typed).2.2.2.2.2⟩

theorem decides_dropped {before term after : List Char} {c : Char} (dotless : c ≠ 'İ')
    (plain : ¬ (c = 'Σ' ∧ finalSigma before term = true)) (drops : ¬ folds c = true)
    (rest : Decides (c :: before) term after) : Decides before (c :: term) after := by
  obtain ⟨word, owed⟩ := emit_dropped drops (term ++ after)
  unfold Decides
  rw [List.cons_append, lowerFrom_plain dotless plain, word, owed]
  refine ⟨?_, ?_⟩
  · by_cases blank : c = ' '
    · subst blank
      rw [folds_space.2]
      exact rest.2 before rfl
    · constructor
      · intro starts
        rcases emit_owed (term ++ after) with ⟨-, d, tail, shape, -⟩ | ⟨-, shape⟩
        · rw [shape, List.cons_prefix_cons] at starts
          exact (blank (laws.space c starts.1)).elim
        · rw [shape] at starts
          cases List.prefix_nil.mp starts
      · intro typed
        rcases typed.letters c List.mem_cons_self with kept | same
        · exact (drops kept).elim
        · exact (blank same).elim
  · rintro earlier rfl
    constructor
    · intro starts
      -- An owed space is followed by a word, never by a second one.
      rcases emit_owed (term ++ after) with ⟨-, d, tail, shape, letter⟩ | ⟨-, shape⟩
      · rw [shape, List.cons_prefix_cons, List.cons_prefix_cons] at starts
        exact (drops (by rw [folds, starts.2.1, letter])).elim
      · rw [shape] at starts
        cases List.prefix_nil.mp starts
    · intro typed
      rcases typed.letters c (List.mem_cons_of_mem _ List.mem_cons_self) with kept | blank
      · exact (drops kept).elim
      · subst blank
        exact ((typed_cons.mp typed).2.1 rfl rfl).elim

theorem decides (before term after : List Char) : Decides before term after := by
  induction term generalizing before with
  | nil => exact decides_nil before after
  | cons c term ih =>
    by_cases dotted : c = 'İ'
    · subst dotted
      exact decides_dotted before term after
    by_cases final : c = 'Σ' ∧ finalSigma before term = true
    · obtain ⟨rfl, final⟩ := final
      exact decides_final final after
    by_cases keeps : folds c = true
    · exact decides_kept dotted final keeps (ih (c :: before))
    · exact decides_dropped dotted final keeps (ih (c :: before))

/-! ### The term of a prefix -/

/-- What follows the term in the text. -/
def restAfter (text : String) (term : List Char) : List Char := (text.toList.dropWhile isJsSpace).drop term.length

omit [Casing] in
theorem word_visible {c : Char} (word : isWord c = true) : isJsSpace c = false := by
  by_contra blank
  rw [(laws.white c (Or.inr (Bool.not_eq_false _ ▸ blank))).1] at word
  cases word

omit [Casing] in
theorem emit_trimmed (cs : List Char) : emit .fresh (cs.dropWhile isJsSpace) = emit .fresh cs := by
  induction cs with
  | nil => rfl
  | cons c cs ih =>
    by_cases blank : isJsSpace c = true
    · obtain ⟨apart, same⟩ := laws.white c (Or.inr blank)
      have drops : folds c = false := by rw [folds, same, apart]
      rw [List.dropWhile_cons_of_pos blank, ih]
      simp [emit, drops]
    · rw [List.dropWhile_cons_of_neg blank]

omit laws [Casing] [Unicode] in
theorem jsTrim_starts (s : String) : (jsTrim s).toList <+: s.toList.dropWhile isJsSpace := by
  rw [jsTrim, trimChars, String.toList_ofList, ← List.reverse_suffix, List.reverse_reverse]
  exact List.dropWhile_suffix _

omit [Casing] in
theorem query_starts {text query : String} (starts : query.toList <+: text.toList)
    (word : ∃ c ∈ query.toList, isWord c = true) :
    query.toList.dropWhile isJsSpace <+: text.toList.dropWhile isJsSpace := by
  obtain ⟨rest, whole⟩ := starts
  obtain ⟨c, member, letter⟩ := word
  have some_ : query.toList.dropWhile isJsSpace ≠ [] := by
    intro none
    have blank := List.dropWhile_eq_nil_iff.mp none c member
    rw [word_visible letter] at blank
    cases blank
  rw [← whole, List.dropWhile_append, if_neg (by simpa using some_)]
  exact List.prefix_append _ _

omit [Casing] in
/-- A term without half a pair at its end is where the text starts. -/
theorem term_starts {text query : String} (starts : query.toList <+: text.toList)
    (word : ∃ c ∈ query.toList, isWord c = true) :
    '\uFFFD' ∈ searchTerm (some query) ∨
      text.toList.dropWhile isJsSpace = searchTerm (some query) ++ restAfter text (searchTerm (some query)) := by
  obtain ⟨k, whole | half⟩ := take_utf16 (jsTrim query).toList maxQueryLength
  · refine Or.inr ?_
    have term : searchTerm (some query) = (jsTrim query).toList.take k := whole
    have front : searchTerm (some query) <+: text.toList.dropWhile isJsSpace := by
      rw [term]
      exact (List.take_prefix _ _).trans ((jsTrim_starts query).trans (query_starts starts word))
    exact (List.prefix_iff_eq_append.mp front).symm
  · refine Or.inl ?_
    have term : searchTerm (some query) = (jsTrim query).toList.take k ++ ['\uFFFD'] := half
    rw [term]
    simp

omit [Casing] in
theorem term_nonempty {query : String} (word : ∃ c ∈ query.toList, isWord c = true) : searchTerm (some query) ≠ [] := by
  obtain ⟨c, member, letter⟩ := word
  have visible := word_visible letter
  have kept : c ∈ query.toList.dropWhile isJsSpace := by
    rw [← List.takeWhile_append_dropWhile (p := isJsSpace) (l := query.toList)] at member
    rcases List.mem_append.mp member with blank | kept
    · rw [List.mem_takeWhile_imp blank] at visible
      cases visible
    · exact kept
  have trimmed : (jsTrim query).toList ≠ [] := by
    intro none
    rw [jsTrim, trimChars, String.toList_ofList, List.reverse_eq_nil_iff, List.dropWhile_eq_nil_iff] at none
    rw [none c (List.mem_reverse.mpr kept)] at visible
    cases visible
  obtain ⟨d, rest, shape⟩ := List.exists_cons_of_ne_nil trimmed
  have units : utf16Units d ≠ [] := by
    unfold utf16Units
    split <;> simp
  intro none
  have cut : (utf16 (jsTrim query)).take maxQueryLength = [] := ofUtf16_eq_nil none
  rw [utf16, shape, List.flatMap_cons, List.take_eq_nil_iff] at cut
  rcases cut with zero | empty
  · exact absurd zero (by decide)
  · exact units (List.append_eq_nil_iff.mp empty).1

theorem lowerFrom_replacement (before term : List Char) (half : '\uFFFD' ∈ term) : '\uFFFD' ∈ lowerFrom before term := by
  induction term generalizing before with
  | nil => cases half
  | cons c term ih =>
    rcases List.mem_cons.mp half with rfl | later
    · rw [lowerFrom_plain (by decide) (fun same => absurd same.1 (by decide)), laws.replacement.2]
      exact List.mem_cons_self
    · rw [lowerFrom]
      exact List.mem_append_right _ (ih _ later)

omit [Casing] in
theorem replacement_not_emitted (gap : Gap) (cs : List Char) : '\uFFFD' ∉ emit gap cs := by
  intro member
  rcases mem_emit member with letter | blank
  · rw [laws.replacement.1] at letter
    cases letter
  · exact absurd blank (by decide)

/-- Before the first word, a term that starts with no blank is decided as within one. -/
theorem fresh_decides {c : Char} {term after : List Char} (visible : c ≠ ' ') :
    lowerFrom [] (c :: term) <+: emit .fresh (c :: term ++ after) ↔ Typed [] (c :: term) after := by
  by_cases keeps : folds c = true
  · have same : emit .fresh (c :: term ++ after) = emit .inWord (c :: term ++ after) := by simp [emit, keeps]
    rw [same]
    exact (decides [] (c :: term) after).1
  · constructor
    · intro starts
      have dotless : c ≠ 'İ' := by
        rintro rfl
        exact dot_not_emitted _ _ (starts.subset (lowerFrom_dotted _ _ List.mem_cons_self))
      have plain : ¬ (c = 'Σ' ∧ finalSigma [] term = true) := by
        rintro ⟨rfl, -⟩
        exact keeps folds_sigma
      rw [lowerFrom_plain dotless plain] at starts
      rcases emit_fresh (c :: term ++ after) with none | ⟨d, rest, shape, letter⟩
      · rw [none] at starts
        cases List.prefix_nil.mp starts
      · rw [shape, List.cons_prefix_cons] at starts
        exact (keeps (by rw [folds, starts.1, letter])).elim
    · intro typed
      rcases typed.letters c List.mem_cons_self with kept | blank
      · exact (keeps kept).elim
      · exact (visible blank).elim

/-- The type-ahead branch finds a text by its prefix exactly when the fold keeps the prefix's term. -/
theorem typeahead_iff (text query : String) (starts : query.toList <+: text.toList)
    (word : ∃ c ∈ query.toList, isWord c = true) :
    typeaheadMatches (some query) (foldText text) = true ↔
      Typed [] (searchTerm (some query)) (restAfter text (searchTerm (some query))) := by
  rw [typeaheadMatches, typeaheadPattern, matchesRegExp_escaped, foldText_eq, ← emit_trimmed, Bool.and_eq_true,
    List.isPrefixOf_iff_prefix, toLowerCase]
  have nonempty : (!(searchTerm (some query)).isEmpty) = true := by simpa using term_nonempty word
  rw [nonempty, and_iff_right rfl]
  rcases term_starts starts word with half | whole
  · -- U+FFFD is never stored, and no fold keeps it.
    constructor
    · intro found
      exact (replacement_not_emitted _ _ (found.subset (lowerFrom_replacement _ _ half))).elim
    · intro typed
      rcases typed.letters _ half with kept | blank
      · rw [folds, laws.replacement.2, laws.replacement.1] at kept
        cases kept
      · exact absurd blank (by decide)
  · rw [whole]
    obtain ⟨c, rest, shape⟩ := List.exists_cons_of_ne_nil (term_nonempty word)
    have visible : c ≠ ' ' := by
      rintro rfl
      have head := List.head?_dropWhile_not isJsSpace text.toList
      rw [whole, shape, List.cons_append, List.head?_cons] at head
      exact absurd (show isJsSpace ' ' = false from head) (by decide)
    rw [shape]
    exact fresh_decides visible

end

/-- The tables on ASCII and the Greek sigmas. -/
@[reducible] def latinTables : Unicode where
  toLower c := if c = 'Σ' then 'σ' else c.toLower
  isLetter c := c.isAlpha || c = 'Σ' || c = 'σ' || c = 'ς'
  isNumber := Char.isDigit

@[reducible] def latinCasing : Casing where
  isCased c := c.isAlpha || c = 'Σ' || c = 'σ' || c = 'ς'
  isCaseIgnorable c := c ∈ "'.:^`".toList

theorem ascii_apart {c : Char} (code : c.toNat ≤ 0x20 ∨ 0x85 ≤ c.toNat) :
    c.isAlpha = false ∧ c.isDigit = false ∧ c.toLower = c := by
  have alpha : c.isAlpha = false := by
    rw [← Bool.not_eq_true, isAlpha_iff, isUpper_iff, isLower_iff]
    omega
  have digit : c.isDigit = false := by
    rw [← Bool.not_eq_true, isDigit_iff]
    omega
  have upper : ¬ c.isUpper = true := by
    rw [isUpper_iff]
    omega
  exact ⟨alpha, digit, toLower_of_not_upper upper⟩

theorem toLower_space {c : Char} (h : c.toLower = ' ') : c = ' ' := by
  unfold Char.toLower at h
  split at h
  · rename_i upper
    have low : 65 ≤ c.toNat := upper.1
    have high : c.toNat ≤ 90 := upper.2
    have code := congrArg (fun d : Char => d.val.toNat) h
    simp only [UInt32.toNat_add] at code
    simp at code
    omega
  · exact h

theorem latinTables_laws : @UnicodeLaws latinTables := by
  let _ := latinTables
  refine ⟨?_, ?_, ?_, ?_, ?_⟩
  · intro c blank
    obtain ⟨alpha, digit, lower⟩ := ascii_apart (blank_code blank)
    have other : ∀ d : Char, isGoSpace d = false → isJsSpace d = false → c ≠ d := by
      rintro d go js rfl
      rw [go, js] at blank
      simp at blank
    have sigma := other 'Σ' (by decide) (by decide)
    have small := other 'σ' (by decide) (by decide)
    have final := other 'ς' (by decide) (by decide)
    constructor
    · change (c.isAlpha || decide (c = 'Σ') || decide (c = 'σ') || decide (c = 'ς') || c.isDigit) = false
      simp [alpha, digit, sigma, small, final]
    · exact (if_neg sigma).trans lower
  · intro c lowered
    by_cases sigma : c = 'Σ'
    · subst sigma
      exact absurd lowered (by decide)
    · exact toLower_space ((if_neg sigma).symm.trans lowered)
  · decide
  · decide
  · decide

/-- A name typed as it was written is not found once it holds a hyphen. -/
theorem hyphen_not_found : letI := latinTables; letI := latinCasing
    ¬ ∀ text query : String, query.toList <+: text.toList → (∃ c ∈ query.toList, isWord c = true) →
      typeaheadMatches (some query) (foldText text) = true := by
  intro every
  have found := every "deploy-green is live" "deploy-g" (by decide) ⟨'d', by decide, by decide⟩
  revert found
  decide +kernel

theorem typeahead_iff_deploy : letI := latinTables; letI := latinCasing
    typeaheadMatches (some "Deploy g") (foldText "Deploy green is live") = true ↔
      Typed [] (searchTerm (some "Deploy g")) (restAfter "Deploy green is live" (searchTerm (some "Deploy g"))) :=
  letI := latinTables
  letI := latinCasing
  letI := latinTables_laws
  typeahead_iff "Deploy green is live" "Deploy g" (by decide) ⟨'D', by decide, by decide⟩

end GroupButler.Messages
