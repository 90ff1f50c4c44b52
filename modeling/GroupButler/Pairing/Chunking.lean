import GroupButler.Pairing.Wizard

/-!
# Pairing output and its chunks

A chunk boundary inside a character leaves replacement characters behind. No prompt and no marker can
hold one, so every answer stays what it is. A QR line can, and is then no QR line.
-/

namespace GroupButler.Pairing
open Foundation

/-! ### Split characters -/

theorem includes_garbled {text : List (Char × Bool)} {out needle : List Char} (garbled : Garbled text out)
    (ascii : Ascii needle) (named : needle ≠ []) : includes needle (text.map Prod.fst) = includes needle out := by
  have skip : ∀ n (rest : List Char), includes needle (List.replicate n '\uFFFD' ++ rest) = includes needle rest := by
    intro n rest
    induction n with
    | zero => rfl
    | succ n ih =>
      obtain ⟨d, needle, rfl⟩ := List.exists_cons_of_ne_nil named
      have other : (d == '\uFFFD') = false := by
        rw [beq_eq_false_iff_ne]
        rintro rfl
        exact absurd (ascii _ List.mem_cons_self) (by decide)
      rw [List.replicate_succ, List.cons_append, includes, List.isPrefixOf_cons_cons, other, Bool.false_and, Bool.false_or, ih]
  induction garbled with
  | nil => rfl
  | kept c rest ih =>
    rw [List.map_cons, includes, includes, ih, ← List.map_cons (f := Prod.fst) (a := (c, false)),
      isPrefixOf_garbled (Garbled.kept c rest) ascii]
  | broken c n large rest ih =>
    have first := isPrefixOf_garbled (Garbled.broken c n large rest) ascii
    rw [List.map_cons, includes, ih, skip]
    rw [List.map_cons] at first
    obtain ⟨d, needle, rfl⟩ := List.exists_cons_of_ne_nil named
    have other : (d == '\uFFFD') = false := by
      rw [beq_eq_false_iff_ne]
      rintro rfl
      exact absurd (ascii _ List.mem_cons_self) (by decide)
    rw [first, List.replicate_succ, List.cons_append, List.isPrefixOf_cons_cons, other, Bool.false_and, Bool.false_or]

theorem mark_ascii {c : Char} (large : 128 ≤ c.toNat) : isParam c = false ∧ isLetter c = false ∧ c ≠ escape ∧ c ≠ '[' := by
  have param : isParam c = false := by
    simp only [isParam, Char.isDigit, Bool.or_eq_false_iff, Bool.and_eq_false_iff, decide_eq_false_iff_not, beq_eq_false_iff_ne]
    refine ⟨⟨Or.inr fun low => ?_, ?_⟩, ?_⟩
    · have code : c.toNat ≤ 57 := low
      omega
    · rintro rfl
      exact absurd large (by decide)
    · rintro rfl
      exact absurd large (by decide)
  have letter : isLetter c = false := by
    simp only [isLetter, Bool.or_eq_false_iff, Bool.and_eq_false_iff, decide_eq_false_iff_not]
    refine ⟨Or.inr fun low => ?_, Or.inr fun low => ?_⟩
    · have code : c.toNat ≤ 122 := low
      omega
    · have code : c.toNat ≤ 90 := low
      omega
  refine ⟨param, letter, ?_, ?_⟩
  · rintro rfl
    exact absurd large (by decide)
  · rintro rfl
    exact absurd large (by decide)

theorem stripFrom_mark {c : Char} (large : 128 ≤ c.toNat) (held cs : List Char) :
    stripFrom held (c :: cs) = held ++ c :: stripFrom [] cs := by
  obtain ⟨param, letter, not_escape, not_bracket⟩ := mark_ascii large
  rw [stripFrom, if_neg not_escape, if_neg fun both => not_bracket both.2, param, letter]
  simp

theorem stripFrom_marks (n : Nat) (held cs : List Char) :
    stripFrom held (List.replicate (n + 1) '\uFFFD' ++ cs) = held ++ (List.replicate (n + 1) '\uFFFD' ++ stripFrom [] cs) := by
  induction n generalizing held with
  | zero => exact stripFrom_mark replacement_large held cs
  | succ n ih =>
    rw [List.replicate_succ, List.cons_append, stripFrom_mark replacement_large, ih, List.nil_append, List.cons_append]

/-- Stripping leaves the same text, garbled where it was. -/
theorem stripFrom_garbled {text : List (Char × Bool)} {out : List Char} (garbled : Garbled text out) (held : List Char) :
    ∃ stripped, Garbled stripped (stripFrom held out) ∧ stripped.map Prod.fst = stripFrom held (text.map Prod.fst) := by
  induction garbled generalizing held with
  | nil => exact ⟨held.map (·, false), garbled_whole held, map_fst_whole held⟩
  | kept c _ ih =>
    rw [List.map_cons, stripFrom, stripFrom]
    split
    · obtain ⟨stripped, rest, same⟩ := ih [escape]
      exact ⟨held.map (·, false) ++ stripped, garbled_append (garbled_whole held) rest,
        by rw [List.map_append, map_fst_whole, same]⟩
    · split
      · exact ih [escape, '[']
      · split
        · exact ih (held ++ [c])
        · split
          · exact ih []
          · obtain ⟨stripped, rest, same⟩ := ih []
            exact ⟨held.map (·, false) ++ (c, false) :: stripped,
              garbled_append (garbled_whole held) (Garbled.kept c rest),
              by rw [List.map_append, map_fst_whole, List.map_cons, same]⟩
  | broken c n large _ ih =>
    obtain ⟨stripped, rest, same⟩ := ih []
    refine ⟨held.map (·, false) ++ (c, true) :: stripped, ?_, ?_⟩
    · rw [stripFrom_marks]
      exact garbled_append (garbled_whole held) (Garbled.broken c n large rest)
    · rw [List.map_append, map_fst_whole, List.map_cons, same, List.map_cons, stripFrom_mark large]

theorem promptBack_ascii : Ascii promptBack := by decide

theorem prompt_mark {c : Char} (large : 128 ≤ c.toNat) (back : List Char) : promptBack.isPrefixOf (c :: back) = false := by
  have head : promptBack = ']' :: "N/y[".toList := by decide
  have other : (']' == c) = false := by
    rw [beq_eq_false_iff_ne]
    rintro rfl
    exact absurd large (by decide)
  rw [head, List.isPrefixOf_cons_cons, other, Bool.false_and]

theorem questionsFrom_marks (n : Nat) (back cs : List Char) :
    questionsFrom back (List.replicate n '\uFFFD' ++ cs) = questionsFrom (List.replicate n '\uFFFD' ++ back) cs := by
  induction n generalizing back with
  | zero => rfl
  | succ n ih =>
    have same : List.replicate n '\uFFFD' ++ '\uFFFD' :: back = '\uFFFD' :: (List.replicate n '\uFFFD' ++ back) := by
      rw [← List.singleton_append, ← List.append_assoc, ← List.replicate_succ', List.replicate_succ, List.cons_append]
    rw [List.replicate_succ, List.cons_append, questionsFrom, if_neg (by rw [prompt_mark replacement_large]; simp), ih, same,
      List.cons_append]

theorem questionsFrom_garbled {text : List (Char × Bool)} {out : List Char} (garbled : Garbled text out)
    {back : List (Char × Bool)} {back' : List Char} (so_far : Garbled back back') :
    (questionsFrom (back.map Prod.fst) (text.map Prod.fst)).map answer = (questionsFrom back' out).map answer := by
  induction garbled generalizing back back' with
  | nil => rfl
  | kept c _ ih =>
    have here := Garbled.kept c so_far
    have ends := isPrefixOf_garbled here promptBack_ascii
    rw [List.map_cons] at ends
    rw [List.map_cons, questionsFrom, questionsFrom, ends]
    split
    · rename_i prompt
      have question := reverse_garbled (drop_garbled here promptBack_ascii prompt)
      have answers := includes_garbled question (by decide) (by decide : rePairPrompt ≠ [])
      have rest := ih Garbled.nil
      rw [List.map_nil] at rest
      rw [List.map_cons, List.map_cons, rest, answer, answer, ← answers, List.map_reverse, List.map_drop, List.map_cons]
    · exact ih here
  | broken c n large _ ih =>
    have more := ih (Garbled.broken c n large so_far)
    rw [List.map_cons] at more
    rw [List.map_cons, questionsFrom, if_neg (by rw [prompt_mark large]; simp), questionsFrom_marks]
    exact more

theorem questions_garbled {text : List (Char × Bool)} {out : List Char} (garbled : Garbled text out) :
    (questions (text.map Prod.fst)).map answer = (questions out).map answer := by
  obtain ⟨stripped, rest, same⟩ := stripFrom_garbled garbled []
  rw [questions, questions, stripAnsi, stripAnsi, ← same]
  exact questionsFrom_garbled rest Garbled.nil

theorem reportsPaired_garbled {text : List (Char × Bool)} {out : List Char} (garbled : Garbled text out) :
    reportsPaired (text.map Prod.fst) = reportsPaired out := by
  have marker : ∀ word ∈ pairedMarkers, Ascii word ∧ word ≠ [] := by decide
  unfold reportsPaired
  rw [Bool.eq_iff_iff, List.any_eq_true, List.any_eq_true]
  constructor
  · rintro ⟨word, member, found⟩
    exact ⟨word, member, includes_garbled garbled (marker word member).1 (marker word member).2 ▸ found⟩
  · rintro ⟨word, member, found⟩
    exact ⟨word, member, (includes_garbled garbled (marker word member).1 (marker word member).2).symm ▸ found⟩

/-! ### The QR block -/

theorem fromLast_garbled {needle : List Char} (ascii : Ascii needle) (named : needle ≠ []) {text : List (Char × Bool)}
    {out : List Char} (garbled : Garbled text out) :
    (fromLast Prod.fst needle text = none ∧ fromLast id needle out = none) ∨
      ∃ found found', fromLast Prod.fst needle text = some found ∧ fromLast id needle out = some found' ∧ Garbled found found' := by
  obtain ⟨d, word, rfl⟩ := List.exists_cons_of_ne_nil named
  have other : ∀ e : Char, 128 ≤ e.toNat → ∀ rest : List Char, (d :: word).isPrefixOf (e :: rest) = false := by
    intro e above rest
    have apart : (d == e) = false := by
      rw [beq_eq_false_iff_ne]
      rintro rfl
      exact absurd (ascii _ List.mem_cons_self) (by omega)
    rw [List.isPrefixOf_cons_cons, apart, Bool.false_and]
  have skip : ∀ n (rest : List Char), fromLast id (d :: word) (List.replicate n '\uFFFD' ++ rest) = fromLast id (d :: word) rest := by
    intro n rest
    induction n with
    | zero => rfl
    | succ n ih =>
      rw [List.replicate_succ, List.cons_append, fromLast, ih, List.map_cons, id, other _ replacement_large,
        if_neg Bool.false_ne_true]
      split
      · rename_i found
        exact found.symm
      · rename_i none
        exact none.symm
  induction garbled with
  | nil => exact Or.inl ⟨rfl, rfl⟩
  | kept c rest ih =>
    rw [fromLast, fromLast]
    rcases ih with ⟨none, none'⟩ | ⟨found, found', at_, at', inner⟩
    · have starts := isPrefixOf_garbled (Garbled.kept c rest) ascii
      rw [none, none', List.map_id]
      dsimp only
      rw [starts]
      split
      · exact Or.inr ⟨_, _, rfl, rfl, Garbled.kept c rest⟩
      · exact Or.inl ⟨rfl, rfl⟩
    · rw [at_, at']
      exact Or.inr ⟨found, found', rfl, rfl, inner⟩
  | broken c n large rest ih =>
    rw [skip, fromLast, List.map_cons, other c large, if_neg Bool.false_ne_true]
    rcases ih with ⟨none, none'⟩ | ⟨found, found', at_, at', inner⟩
    · rw [none, none']
      exact Or.inl ⟨rfl, rfl⟩
    · rw [at_, at']
      exact Or.inr ⟨found, found', rfl, rfl, inner⟩

/-- The text itself is its own garbling, so both readings of it agree. -/
theorem fromLast_map (needle : List Char) (text : List (Char × Bool)) :
    fromLast id needle (text.map Prod.fst) = (fromLast Prod.fst needle text).map (List.map Prod.fst) := by
  induction text with
  | nil => rfl
  | cons a text ih =>
    rw [List.map_cons, fromLast, fromLast, ih]
    cases fromLast Prod.fst needle text with
    | some found => rfl
    | none =>
      rw [Option.map_none, List.map_id]
      dsimp only
      rw [List.map_cons]
      split <;> rfl

theorem splitOnP_map (text : List (Char × Bool)) :
    (text.map Prod.fst).splitOnP (id · == '\n') = (text.splitOnP (Prod.fst · == '\n')).map (List.map Prod.fst) := by
  induction text with
  | nil => rfl
  | cons a text ih =>
    rw [List.map_cons, List.splitOnP_cons_eq_if_modifyHead, List.splitOnP_cons_eq_if_modifyHead, ih]
    dsimp only [id]
    by_cases newline : (a.1 == '\n') = true
    · rw [if_pos newline, if_pos newline]
      rfl
    · rw [if_neg newline, if_neg newline]
      cases text.splitOnP (Prod.fst · == '\n') <;> rfl

theorem splitOnP_garbled {text : List (Char × Bool)} {out : List Char} (garbled : Garbled text out) :
    List.Forall₂ Garbled (text.splitOnP (Prod.fst · == '\n')) (out.splitOnP (id · == '\n')) := by
  have marks : ∀ n (rest : List Char), (List.replicate n '\uFFFD' ++ rest).splitOnP (id · == '\n') =
      (rest.splitOnP (id · == '\n')).modifyHead (List.replicate n '\uFFFD' ++ ·) := by
    intro n rest
    obtain ⟨first, lines, whole⟩ := List.exists_cons_of_ne_nil (List.splitOnP_ne_nil (id · == '\n') rest)
    induction n with
    | zero => rw [whole]; simpa using whole
    | succ n ih =>
      rw [List.replicate_succ, List.cons_append, List.splitOnP_cons_eq_if_modifyHead, if_neg (by decide), ih, whole]
      rfl
  induction garbled with
  | nil => exact List.Forall₂.cons Garbled.nil List.Forall₂.nil
  | @kept c text out rest ih =>
    rw [List.splitOnP_cons_eq_if_modifyHead, List.splitOnP_cons_eq_if_modifyHead]
    dsimp only [id]
    split
    · exact List.Forall₂.cons Garbled.nil ih
    · obtain ⟨first, lines, whole⟩ := List.exists_cons_of_ne_nil (List.splitOnP_ne_nil (Prod.fst · == '\n') text)
      rw [whole] at ih ⊢
      obtain ⟨first', lines', head, tail, whole'⟩ := List.forall₂_cons_left_iff.mp ih
      dsimp only [id] at whole'
      rw [whole']
      exact List.Forall₂.cons (Garbled.kept c head) tail
  | @broken c n text out large rest ih =>
    have other : (c == '\n') = false := by
      rw [beq_eq_false_iff_ne]
      rintro rfl
      exact absurd large (by decide)
    rw [List.splitOnP_cons_eq_if_modifyHead, marks]
    dsimp only
    rw [other, if_neg Bool.false_ne_true]
    obtain ⟨first, lines, whole⟩ := List.exists_cons_of_ne_nil (List.splitOnP_ne_nil (Prod.fst · == '\n') text)
    rw [whole] at ih ⊢
    obtain ⟨first', lines', head, tail, whole'⟩ := List.forall₂_cons_left_iff.mp ih
    rw [whole']
    exact List.Forall₂.cons (Garbled.broken c n large head) tail

theorem filter_garbled {text : List (Char × Bool)} {out : List Char} (garbled : Garbled text out) :
    Garbled (text.filter (Prod.fst · != '\r')) (out.filter (id · != '\r')) := by
  induction garbled with
  | nil => exact Garbled.nil
  | kept c _ ih =>
    rw [List.filter_cons, List.filter_cons]
    dsimp only [id]
    split
    · exact Garbled.kept c ih
    · exact ih
  | broken c n large _ ih =>
    have mark : (c != '\r') = true := by
      rw [bne_iff_ne]
      rintro rfl
      exact absurd large (by decide)
    rw [List.filter_cons, if_pos mark, List.filter_append, List.filter_replicate_of_pos (by decide)]
    exact Garbled.broken c n large ih

/-- A line no character of which was split. -/
def Unsplit (line : List (Char × Bool)) : Prop := ∀ glyph ∈ line, glyph.2 = false

instance (line : List (Char × Bool)) : Decidable (Unsplit line) :=
  inferInstanceAs (Decidable (∀ glyph ∈ line, glyph.2 = false))

/-- An unsplit line is read as it is, and a split one holds a replacement character. -/
theorem garbled_unsplit {text : List (Char × Bool)} {out : List Char} (garbled : Garbled text out) :
    if Unsplit text then out = text.map Prod.fst else '\uFFFD' ∈ out := by
  induction garbled with
  | nil => exact if_pos (fun _ member => absurd member List.not_mem_nil) ▸ rfl
  | @kept c text out _ ih =>
    have same : Unsplit ((c, false) :: text) ↔ Unsplit text := by simp [Unsplit]
    by_cases unsplit : Unsplit text
    · rw [if_pos unsplit] at ih
      rw [if_pos (same.mpr unsplit), ih, List.map_cons]
    · rw [if_neg unsplit] at ih
      rw [if_neg fun whole => unsplit (same.mp whole)]
      exact List.mem_cons_of_mem _ ih
  | broken c n large _ ih =>
    rw [if_neg fun whole => Bool.noConfusion (whole _ List.mem_cons_self)]
    exact List.mem_append_left _ (by simp)

theorem isQrLine_garbled {text : List (Char × Bool)} {out : List Char} (garbled : Garbled text out) :
    isQrLine id out = (isQrLine Prod.fst text && decide (Unsplit text)) := by
  have read := garbled_unsplit garbled
  by_cases unsplit : Unsplit text
  · rw [if_pos unsplit] at read
    rw [read, decide_eq_true unsplit, Bool.and_true]
    simp [isQrLine, List.all_map, Function.comp_def]
  · rw [if_neg unsplit] at read
    rw [decide_eq_false unsplit, Bool.and_false, isQrLine, Bool.and_eq_false_iff]
    right
    rw [List.all_eq_false]
    exact ⟨_, read, by decide⟩

/-- The QR block of garbled output is the block without its split lines. -/
theorem qrLines_garbled {text : List (Char × Bool)} {out : List Char} (garbled : Garbled text out) :
    qrLines id out = ((qrLines Prod.fst text).filter fun line => decide (Unsplit line)).map (List.map Prod.fst) := by
  have marker : Ascii qrMarker ∧ qrMarker ≠ [] := by decide
  unfold qrLines
  rcases fromLast_garbled marker.1 marker.2 garbled with ⟨none, none'⟩ | ⟨found, found', at_, at', inner⟩
  · rw [none, none']
    rfl
  · rw [at_, at']
    dsimp only
    have lines := splitOnP_garbled inner
    generalize found.splitOnP (Prod.fst · == '\n') = before at lines
    generalize found'.splitOnP (id · == '\n') = after at lines
    induction lines with
    | nil => rfl
    | @cons line line' before after here _ ih =>
      have bare := filter_garbled here
      have qr := isQrLine_garbled bare
      have read := garbled_unsplit bare
      rw [List.map_cons, List.map_cons, List.filter_cons, List.filter_cons, qr, ih]
      by_cases glyphs : isQrLine Prod.fst (line.filter (Prod.fst · != '\r')) = true
      · by_cases unsplit : Unsplit (line.filter (Prod.fst · != '\r'))
        · rw [if_pos unsplit] at read
          rw [glyphs, decide_eq_true unsplit, Bool.and_self, if_pos rfl, if_pos rfl, List.filter_cons,
            if_pos (decide_eq_true unsplit), List.map_cons, read]
        · rw [glyphs, decide_eq_false unsplit, Bool.and_false, if_neg Bool.false_ne_true, if_pos rfl, List.filter_cons,
            if_neg (by simpa using unsplit)]
      · rw [Bool.eq_false_iff.mpr glyphs, Bool.false_and, if_neg Bool.false_ne_true, if_neg Bool.false_ne_true]

theorem qrLines_map (text : List (Char × Bool)) :
    qrLines id (text.map Prod.fst) = (qrLines Prod.fst text).map (List.map Prod.fst) := by
  unfold qrLines
  rw [fromLast_map]
  cases fromLast Prod.fst qrMarker text with
  | none => rfl
  | some found =>
    rw [Option.map_some]
    dsimp only
    have bare : (fun line : List Char => line.filter (id · != '\r')) ∘ List.map (Prod.fst (β := Bool)) =
        List.map Prod.fst ∘ fun line => line.filter (Prod.fst · != '\r') := by
      funext line
      exact List.filter_map
    have qr : isQrLine id ∘ List.map Prod.fst = isQrLine (Prod.fst (α := Char) (β := Bool)) := by
      funext line
      simp [isQrLine, List.all_map, Function.comp_def]
    rw [splitOnP_map, List.map_map, bare, ← List.map_map, List.filter_map, qr]

theorem qrLine_no_break {output line : List Char} (member : line ∈ qrLines id output) : line ≠ [] ∧ '\n' ∉ line := by
  unfold qrLines at member
  split at member
  · cases member
  · obtain ⟨-, glyphs⟩ := List.mem_filter.mp member
    rw [isQrLine, Bool.and_eq_true, decide_eq_true_eq, List.all_eq_true] at glyphs
    refine ⟨?_, fun break_ => absurd (glyphs.2 _ break_) (by decide)⟩
    rintro rfl
    exact absurd glyphs.1 (by decide)

theorem latestQr_inj {first second : List Char} (same : latestQr first = latestQr second) :
    qrLines id first = qrLines id second := by
  unfold latestQr at same
  split at same
  · rename_i none
    split at same
    · rename_i none'
      rw [none, none']
    · cases same
  · rename_i some
    split at same
    · cases same
    · rename_i some'
      have lines := congrArg (List.splitOn '\n') (Option.some.inj same)
      rwa [List.splitOn_intercalate '\n' (fun _ member => (qrLine_no_break member).2) some,
        List.splitOn_intercalate '\n' (fun _ member => (qrLine_no_break member).2) some'] at lines

theorem latestQr_garbled {text : List (Char × Bool)} {out : List Char} (garbled : Garbled text out) :
    latestQr out = latestQr (text.map Prod.fst) ↔ ∀ line ∈ qrLines Prod.fst text, Unsplit line := by
  have left := qrLines_garbled garbled
  have whole := qrLines_map text
  constructor
  · intro same line member
    have lines := latestQr_inj same
    rw [left, whole] at lines
    have lengths := congrArg List.length lines
    rw [List.length_map, List.length_map] at lengths
    simpa using List.length_filter_eq_length_iff.mp lengths line member
  · intro unsplit
    have all : (qrLines Prod.fst text).filter (fun line => decide (Unsplit line)) = qrLines Prod.fst text :=
      List.filter_eq_self.mpr fun line member => decide_eq_true (unsplit line member)
    rw [all, ← whole] at left
    rw [latestQr, latestQr, left]

theorem snapshot_qr (s : Session) (running : Bool) :
    (snapshot s running).qr = if running ∧ reportsPaired s.output = false then latestQr s.output else none := by
  unfold snapshot
  split
  · rename_i paired
    rw [if_neg (by simp [paired])]
  · rename_i unpaired
    cases running with
    | false => simp
    | true =>
      cases found : latestQr s.output with
      | none =>
        simp [unpaired]
        split <;> rfl
      | some qr => simp [unpaired]

/-- However the output is split into chunks, the wizard gets the same answers; the QR block reported is the same just
when no chunk ends inside a character of it, or none is reported at all. -/
theorem pairing_chunks_iff (printed : List Char) (chunks : List (List Nat)) (whole : chunks.flatten = toUtf8 printed)
    (running : Bool) :
    (chunks.foldl onData Session.start).written = (onData Session.start (toUtf8 printed)).written ∧
      ((snapshot (chunks.foldl onData Session.start) running).qr = (snapshot (onData Session.start (toUtf8 printed)) running).qr ↔
        (running = true ∧ reportsPaired printed = false →
          ∀ line ∈ qrLines Prod.fst (tagSplit (cutOffsets 0 chunks) 0 printed), Unsplit line)) := by
  have fresh : Session.start.Answered := ⟨by decide, by decide⟩
  obtain ⟨⟨-, written⟩, output⟩ := foldl_onData Session.start fresh chunks
  obtain ⟨⟨-, written'⟩, output'⟩ := foldl_onData Session.start fresh [toUtf8 printed]
  have one : decodeChunks [toUtf8 printed] = printed := by
    rw [decodeChunks_cons, ofUtf8_toUtf8, decodeChunks_nil, List.append_nil]
  rw [show Session.start.output = [] from rfl, List.nil_append] at output output'
  rw [one] at output'
  have garbled := @garbled_decodeChunks printed 0 [] chunks (by simp) whole
  rw [List.nil_append] at garbled
  have text := map_fst_tagSplit (cutOffsets 0 chunks) 0 printed
  have questions := questions_garbled garbled
  have paired := reportsPaired_garbled garbled
  have qr := latestQr_garbled garbled
  rw [text] at questions paired qr
  rw [List.foldl_cons, List.foldl_nil] at written' output'
  constructor
  · rw [written, written', output, output', List.map_take, List.map_take, questions]
  · rw [snapshot_qr, snapshot_qr, output, output', ← paired]
    by_cases reported : running = true ∧ reportsPaired printed = false
    · rw [if_pos reported, if_pos reported, qr]
      exact ⟨fun all _ => all, fun all => all reported⟩
    · rw [if_neg reported, if_neg reported]
      exact ⟨fun _ now => absurd now reported, fun _ => rfl⟩

theorem prompt_in_chunks :
    ([toUtf8 "Re-pair? [y".toList, toUtf8 "/N]✓".toList].foldl onData Session.start).written =
      (onData Session.start (toUtf8 "Re-pair? [y/N]✓".toList)).written :=
  (pairing_chunks_iff "Re-pair? [y/N]✓".toList [toUtf8 "Re-pair? [y".toList, toUtf8 "/N]✓".toList] (by decide) true).1

/-- A code of one line, printed after its marker. -/
def oneLineCode : List Char := "Scan this QR code\n".toList ++ List.replicate 30 '█'

/-- A chunk that ends after the first byte of a block takes the block's line out of the code. -/
theorem split_block_lost :
    let bytes := toUtf8 oneLineCode
    [bytes.take 19, bytes.drop 19].flatten = bytes ∧
      (snapshot ([bytes.take 19, bytes.drop 19].foldl onData Session.start) true).qr = none ∧
      (snapshot (onData Session.start bytes) true).qr = some (List.replicate 30 '█') := by
  decide +kernel

end GroupButler.Pairing
