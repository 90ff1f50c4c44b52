import GroupButler.Pairing.Wizard
import Mathlib.Data.List.DropRight

/-!
# The QR code read back from the terminal

The bridge prints a code two rows of modules to a line of half blocks. `modulesFromTerminalQr` takes the module matrix
back out of the printed text.
-/

namespace GroupButler.Pairing.TerminalQr
open Foundation

/-! ### Reading -/

/-- `MODULES_BY_GLYPH`: the upper module and the lower one, black where true. -/
def modulesByGlyph (c : Char) : Option (Bool × Bool) :=
  if c = '█' then some (false, false)
  else if c = '▀' then some (false, true)
  else if c = '▄' then some (true, false)
  else if c = ' ' then some (true, true)
  else none

def minQrLineChars : Nat := 30

def isQrLine (line : List Char) : Bool := minQrLineChars ≤ line.length && line.all fun c => (modulesByGlyph c).isSome

/-- The rows of one line between its margins. -/
def readRows (line : List Char) : Option (List Bool × List Bool) :=
  ((line.drop 1).dropLast.mapM modulesByGlyph).map List.unzip

def uniform (row : List Bool) : Bool := row.all fun module => some module == row.head?

def linesOf (text : List Char) : List (List Char) := ((stripAnsi text).filter (· != '\r')).splitOn '\n'

def modulesFromTerminalQr (text : List Char) : Option (List (List Bool)) :=
  match ((linesOf text).filter isQrLine).mapM readRows with
  | none => none
  | some pairs =>
    let rows := pairs.flatMap fun pair => [pair.1, pair.2]
    if rows.length = 0 then none
    else
      let width := (rows.head?.getD []).length
      let rows := (rows.dropWhile uniform).rdropWhile uniform
      if width = 0 ∨ rows.length < width then none
      else
        let square := rows.take width
        if square.any (·.length != width) then none else some square

/-- The pairing service looks for the same lines. -/
theorem isQrLine_eq (line : List Char) : isQrLine line = Pairing.isQrLine id line := by
  have glyph (c : Char) : (modulesByGlyph c).isSome = isGlyph c := by
    unfold modulesByGlyph isGlyph
    split_ifs <;> simp_all
  rw [isQrLine, Pairing.isQrLine]
  simp only [glyph]
  rfl

/-! ### Matrices -/

structure Symbol (n : Nat) where
  rows : List (List Bool)
  height : rows.length = n
  width : ∀ row ∈ rows, row.length = n

/-- Whatever is read is a square. -/
theorem modulesFromTerminalQr_square {text : List Char} {rows : List (List Bool)} (read : modulesFromTerminalQr text = some rows) :
    ∃ n, 0 < n ∧ ∃ symbol : Symbol n, symbol.rows = rows := by
  unfold modulesFromTerminalQr at read
  split at read
  · cases read
  · dsimp only at read
    split at read
    · cases read
    · split at read
      · cases read
      · rename_i large
        split at read
        · cases read
        · rename_i square
          obtain rfl := Option.some.inj read
          rw [not_or, Nat.not_lt] at large
          refine ⟨_, Nat.pos_of_ne_zero large.1, ⟨_, List.length_take_of_le large.2, fun row member => ?_⟩, rfl⟩
          by_contra other
          exact square (List.any_eq_true.mpr ⟨row, member, bne_iff_ne.mpr other⟩)

/-! ### Printing -/

def glyph : Bool → Bool → Char
  | false, false => '█'
  | false, true => '▀'
  | true, false => '▄'
  | true, true => ' '

/-- The rows two by two, an odd last one over white. -/
def rowPairs (n : Nat) : List (List Bool) → List (List Bool × List Bool)
  | [] => []
  | [row] => [(row, List.replicate n false)]
  | top :: bottom :: rows => (top, bottom) :: rowPairs n rows

def printRows (pair : List Bool × List Bool) : List Char := '█' :: (List.zipWith glyph pair.1 pair.2 ++ ['█'])

/-- The border line is one glyph throughout. -/
def render {n : Nat} (border : Bool × Bool) (symbol : Symbol n) : List (List Char) :=
  List.replicate (n + 2) (glyph border.1 border.2) :: (rowPairs n symbol.rows).map printRows

/-- A line with colour escapes and carriage returns anywhere in it. -/
inductive Noisy : List Char → List Char → Prop where
  | nil : Noisy [] []
  | glyph (c : Char) {line printed : List Char} : Noisy line printed → Noisy (c :: line) (c :: printed)
  | colour {params : List Char} {letter : Char} {line printed : List Char} : (∀ c ∈ params, isParam c = true) →
      isLetter letter = true → Noisy line printed → Noisy line (escape :: '[' :: (params ++ letter :: printed))
  | carriage {line printed : List Char} : Noisy line printed → Noisy line ('\r' :: printed)

/-- What a line is read as. -/
def bare (line : List Char) : List Char := (stripAnsi line).filter (· != '\r')

/-- A line that is no part of a code. -/
def Other (line : List Char) : Prop := '\n' ∉ line ∧ isQrLine (bare line) = false

instance : DecidablePred Other := fun line => inferInstanceAs (Decidable ('\n' ∉ line ∧ isQrLine (bare line) = false))

/-! ### Noise -/

section
variable {line printed : List Char}

theorem letter_no_param {c : Char} (letter : isLetter c = true) : isParam c = false := by
  rw [← Bool.not_eq_true]
  intro param
  simp only [isLetter, isParam, Bool.or_eq_true, Bool.and_eq_true, decide_eq_true_eq, beq_iff_eq, isDigit_iff] at letter param
  rcases param with (digit | rfl) | rfl
  · rcases letter with lower | upper
    · have low : 97 ≤ c.toNat := lower.1
      omega
    · have low : 65 ≤ c.toNat := upper.1
      omega
  · revert letter
    decide
  · revert letter
    decide

theorem stripFrom_params {params : List Char} (all : ∀ c ∈ params, isParam c = true) {held : List Char} (open_ : 2 ≤ held.length)
    (rest : List Char) : stripFrom held (params ++ rest) = stripFrom (held ++ params) rest := by
  induction params generalizing held with
  | nil => rw [List.append_nil, List.nil_append]
  | cons c params ih =>
    have param := all c List.mem_cons_self
    have plain : c ≠ escape := by
      rintro rfl
      exact absurd param (by decide)
    have second : ¬ (held = [escape] ∧ c = '[') := by
      rintro ⟨rfl, -⟩
      exact absurd open_ (by decide)
    rw [List.cons_append, stripFrom, if_neg plain, if_neg second, if_pos ⟨open_, param⟩,
      ih (fun d member => all d (List.mem_cons_of_mem _ member)) (by rw [List.length_append]; omega), List.append_assoc]
    rfl

theorem stripAnsi_colour {params : List Char} {letter : Char} (all : ∀ c ∈ params, isParam c = true) (last : isLetter letter = true)
    (rest : List Char) : stripAnsi (escape :: '[' :: (params ++ letter :: rest)) = stripAnsi rest := by
  have plain : letter ≠ escape := by
    rintro rfl
    exact absurd last (by decide)
  have second : ¬ ([escape, '['] ++ params = [escape] ∧ letter = '[') := by
    rintro ⟨none, -⟩
    cases none
  have started : stripAnsi (escape :: '[' :: (params ++ letter :: rest)) = stripFrom [escape, '['] (params ++ letter :: rest) := by
    rw [stripAnsi, stripFrom, if_pos rfl, List.nil_append, stripFrom, if_neg (by decide), if_pos ⟨rfl, rfl⟩]
  rw [started, stripFrom_params all (by decide), stripFrom, if_neg plain, if_neg second, letter_no_param last, if_neg (by simp),
    if_pos ⟨by simp, last⟩, stripAnsi]

theorem stripAnsi_plain {c : Char} (plain : c ≠ escape) (rest : List Char) : stripAnsi (c :: rest) = c :: stripAnsi rest := by
  have none : ¬ (([] : List Char) = [escape] ∧ c = '[') := fun both => List.cons_ne_nil _ _ both.1.symm
  rw [stripAnsi, stripFrom, if_neg plain, if_neg none, if_neg (by simp), if_neg (by simp), List.nil_append, stripAnsi]

theorem bare_noisy (noisy : Noisy line printed) (glyphs : ∀ c ∈ line, (modulesByGlyph c).isSome) : bare printed = line := by
  induction noisy with
  | nil => rfl
  | glyph c _ ih =>
    have here := glyphs c List.mem_cons_self
    have plain : c ≠ escape := by
      rintro rfl
      exact absurd here (by decide)
    have still : c ≠ '\r' := by
      rintro rfl
      exact absurd here (by decide)
    rw [bare, stripAnsi_plain plain, List.filter_cons, if_pos (by simpa using still), ← bare,
      ih fun d member => glyphs d (List.mem_cons_of_mem _ member)]
  | colour all last _ ih =>
    rw [bare, stripAnsi_colour all last, ← bare]
    exact ih glyphs
  | carriage _ ih =>
    rw [bare, stripAnsi_plain (by decide), List.filter_cons, if_neg (by decide), ← bare]
    exact ih glyphs

theorem param_no_break {c : Char} (param : isParam c = true) : c ≠ '\n' := by
  rintro rfl
  exact absurd param (by decide)

theorem noisy_no_break (noisy : Noisy line printed) (glyphs : ∀ c ∈ line, (modulesByGlyph c).isSome) : '\n' ∉ printed := by
  induction noisy with
  | nil => exact List.not_mem_nil
  | glyph c _ ih =>
    intro member
    rcases List.mem_cons.mp member with rfl | later
    · exact absurd (glyphs '\n' List.mem_cons_self) (by decide)
    · exact ih (fun d there => glyphs d (List.mem_cons_of_mem _ there)) later
  | @colour params letter _ _ all last _ ih =>
    intro member
    simp only [List.mem_cons, List.mem_append] at member
    rcases member with start | start | inside | here | later
    · exact absurd start (by decide)
    · exact absurd start (by decide)
    · exact param_no_break (all _ inside) rfl
    · subst here
      exact absurd last (by decide)
    · exact ih glyphs later
  | carriage _ ih =>
    intro member
    rcases List.mem_cons.mp member with start | later
    · exact absurd start (by decide)
    · exact ih glyphs later

/-- No escape goes on over the end of a line. -/
theorem stripAnsi_break (front rest : List Char) : stripAnsi (front ++ '\n' :: rest) = stripAnsi front ++ '\n' :: stripAnsi rest := by
  obtain ⟨out, held, -, before, after⟩ := stripFrom_append [] front ('\n' :: rest) List.not_mem_nil
  have flushed : stripFrom held ('\n' :: rest) = held ++ '\n' :: stripAnsi rest := by
    rw [stripFrom, if_neg (by decide), if_neg fun both => absurd both.2 (by decide), if_neg fun both => absurd both.2 (by decide),
      if_neg fun both => absurd both.2 (by decide), stripAnsi]
  have last : stripAnsi front = out ++ held := before
  rw [last, stripAnsi, after, flushed, List.append_assoc]

theorem mem_stripFrom {c : Char} {held cs : List Char} (member : c ∈ stripFrom held cs) : c ∈ held ∨ c ∈ cs := by
  induction cs generalizing held with
  | nil =>
    rw [stripFrom] at member
    exact Or.inl member
  | cons d cs ih =>
    have later {held' : List Char} (left : c ∈ held' → c ∈ held ∨ c = d) (here : c ∈ stripFrom held' cs) : c ∈ held ∨ c ∈ d :: cs := by
      rcases ih here with kept | rest
      · exact (left kept).imp id fun same => List.mem_cons.mpr (Or.inl same)
      · exact Or.inr (List.mem_cons_of_mem _ rest)
    rw [stripFrom] at member
    split at member
    · rename_i start
      rcases List.mem_append.mp member with kept | rest
      · exact Or.inl kept
      · exact later (fun only => Or.inr ((List.mem_singleton.mp only).trans start.symm)) rest
    · split at member
      · rename_i opens
        refine later (fun only => ?_) member
        rcases List.mem_cons.mp only with rfl | bracket
        · exact Or.inl (opens.1 ▸ List.mem_cons_self)
        · exact Or.inr ((List.mem_singleton.mp bracket).trans opens.2.symm)
      · split at member
        · exact later (fun only => (List.mem_append.mp only).imp id List.mem_singleton.mp) member
        · split at member
          · exact later (fun none => absurd none List.not_mem_nil) member
          · rcases List.mem_append.mp member with kept | rest
            · exact Or.inl kept
            · rcases List.mem_cons.mp rest with rfl | rest
              · exact Or.inr List.mem_cons_self
              · exact later (fun none => absurd none List.not_mem_nil) rest

theorem bare_no_break (whole : '\n' ∉ line) : '\n' ∉ bare line := by
  intro member
  rcases mem_stripFrom (List.mem_filter.mp member).1 with none | there
  · cases none
  · exact whole there

theorem linesOf_intercalate {lines : List (List Char)} (some_ : lines ≠ []) (whole : ∀ line ∈ lines, '\n' ∉ line) :
    linesOf (['\n'].intercalate lines) = lines.map bare := by
  have joined : (stripAnsi (['\n'].intercalate lines)).filter (· != '\r') = ['\n'].intercalate (lines.map bare) := by
    induction lines with
    | nil => exact absurd rfl some_
    | cons line lines ih =>
      cases lines with
      | nil => rw [List.map_singleton, List.intercalate_singleton, List.intercalate_singleton, bare]
      | cons next lines =>
        have rest := ih (List.cons_ne_nil _ _) fun line member => whole line (List.mem_cons_of_mem _ member)
        have more : (next :: lines).map bare ≠ [] := List.cons_ne_nil _ _
        rw [List.map_cons, intercalate_cons (bare line) more, intercalate_cons line (List.cons_ne_nil _ _), stripAnsi_break,
          List.filter_append, List.filter_cons, if_pos (by decide), rest, ← bare]
  rw [linesOf, joined]
  apply List.splitOn_intercalate
  · intro line member
    obtain ⟨line, listed, rfl⟩ := List.mem_map.mp member
    exact bare_no_break (whole line listed)
  · simpa using some_

end

/-! ### The code's own lines -/

theorem modulesByGlyph_glyph (top bottom : Bool) : modulesByGlyph (glyph top bottom) = some (top, bottom) := by
  cases top <;> cases bottom <;> rfl

theorem mapM_zipWith (tops bottoms : List Bool) :
    (List.zipWith glyph tops bottoms).mapM modulesByGlyph = some (tops.zip bottoms) := by
  induction tops generalizing bottoms with
  | nil => rfl
  | cons top tops ih =>
    cases bottoms with
    | nil => rfl
    | cons bottom bottoms =>
      rw [List.zipWith_cons_cons, List.mapM_cons, modulesByGlyph_glyph, ih]
      rfl

theorem readRows_margins {tops bottoms : List Bool} (same : tops.length = bottoms.length) (left right : Char) :
    readRows (left :: (List.zipWith glyph tops bottoms ++ [right])) = some (tops, bottoms) := by
  have core : ((left :: (List.zipWith glyph tops bottoms ++ [right])).drop 1).dropLast = List.zipWith glyph tops bottoms :=
    List.dropLast_concat
  rw [readRows, core, mapM_zipWith, Option.map_some, List.unzip_zip same]

theorem zipWith_replicate (n : Nat) (top bottom : Bool) :
    List.zipWith glyph (List.replicate n top) (List.replicate n bottom) = List.replicate n (glyph top bottom) := by
  rw [List.zipWith_replicate, Nat.min_self]

theorem readRows_border (n : Nat) (border : Bool × Bool) :
    readRows (List.replicate (n + 2) (glyph border.1 border.2)) = some (List.replicate n border.1, List.replicate n border.2) := by
  rw [List.replicate_succ, List.replicate_succ', ← zipWith_replicate]
  exact readRows_margins (by rw [List.length_replicate, List.length_replicate]) _ _

section
variable {n : Nat} {rows : List (List Bool)}

theorem rowPairs_width (width : ∀ row ∈ rows, row.length = n) :
    ∀ pair ∈ rowPairs n rows, pair.1.length = n ∧ pair.2.length = n := by
  induction rows using rowPairs.induct with
  | case1 => simp [rowPairs]
  | case2 row =>
    intro pair member
    rw [rowPairs, List.mem_singleton] at member
    subst member
    exact ⟨width row List.mem_cons_self, List.length_replicate⟩
  | case3 top bottom rows ih =>
    intro pair member
    rw [rowPairs] at member
    rcases List.mem_cons.mp member with rfl | later
    · exact ⟨width top List.mem_cons_self, width bottom (List.mem_cons_of_mem _ List.mem_cons_self)⟩
    · exact ih (fun row listed => width row (List.mem_cons_of_mem _ (List.mem_cons_of_mem _ listed))) pair later

/-- The pairs are the rows, and white under an odd last one. -/
theorem flatMap_rowPairs : (rowPairs n rows).flatMap (fun pair => [pair.1, pair.2]) =
    rows ++ if rows.length % 2 = 1 then [List.replicate n false] else [] := by
  induction rows using rowPairs.induct with
  | case1 => rfl
  | case2 row => rfl
  | case3 top bottom rows ih =>
    have parity : (top :: bottom :: rows).length % 2 = rows.length % 2 := by
      rw [List.length_cons, List.length_cons]
      omega
    rw [rowPairs, List.flatMap_cons, ih, parity]
    rfl

theorem isQrLine_print {left right : Char} {tops bottoms : List Bool} (margins : (modulesByGlyph left).isSome ∧ (modulesByGlyph right).isSome)
    (large : 28 ≤ n) (top : tops.length = n) (bottom : bottoms.length = n) :
    isQrLine (left :: (List.zipWith glyph tops bottoms ++ [right])) = true := by
  rw [isQrLine, Bool.and_eq_true, decide_eq_true_eq, List.all_eq_true]
  constructor
  · rw [List.length_cons, List.length_append, List.length_zipWith, top, bottom, List.length_singleton, minQrLineChars]
    omega
  · intro c member
    rcases List.mem_cons.mp member with rfl | member
    · exact margins.1
    · rcases List.mem_append.mp member with inner | last
      · obtain ⟨i, -, rfl⟩ := List.mem_iff_getElem.mp inner
        rw [List.getElem_zipWith, modulesByGlyph_glyph]
        rfl
      · rw [List.mem_singleton.mp last]
        exact margins.2

theorem mapM_printed (width : ∀ row ∈ rows, row.length = n) :
    ((rowPairs n rows).map printRows).mapM readRows = some (rowPairs n rows) := by
  have sizes := rowPairs_width width
  generalize rowPairs n rows = pairs at sizes
  induction pairs with
  | nil => rfl
  | cons pair pairs ih =>
    have here := sizes pair List.mem_cons_self
    have read : readRows (printRows pair) = some pair := readRows_margins (here.1.trans here.2.symm) _ _
    rw [List.map_cons, List.mapM_cons, read, ih fun other member => sizes other (List.mem_cons_of_mem _ member)]
    rfl

end

/-! ### Uniform rows -/

theorem uniform_replicate (n : Nat) (module : Bool) : uniform (List.replicate n module) = true := by
  rw [uniform, List.all_eq_true]
  intro other member
  rw [List.eq_of_mem_replicate member, List.head?_replicate, if_neg (by rintro rfl; cases member), beq_self_eq_true]

theorem uniform_eq {row : List Bool} (same : uniform row = true) : ∃ module, row = List.replicate row.length module := by
  cases row with
  | nil => exact ⟨false, rfl⟩
  | cons module row =>
    refine ⟨module, List.eq_replicate_of_mem fun other member => ?_⟩
    rw [uniform, List.all_eq_true] at same
    exact Option.some.inj (beq_iff_eq.mp (same other member))

section
variable {α : Type} {p : α → Bool} {front core back : List α}

/-- What stands between elements that are dropped is left. -/
theorem trim_core (some_ : core ≠ []) (before : ∀ x ∈ front, p x = true) (after : ∀ x ∈ back, p x = true)
    (first : ∀ x ∈ core.head?, p x = false) (last : ∀ x ∈ core.getLast?, p x = false) :
    ((front ++ (core ++ back)).dropWhile p).rdropWhile p = core := by
  have head : (core ++ back).head? = core.head? := List.head?_append_of_ne_nil _ some_
  have dropped : ∀ x ∈ back.reverse, p x = true := fun x member => after x (List.mem_reverse.mp member)
  rw [List.dropWhile_append_of_pos before, dropWhile_of_head (by rwa [head]), List.rdropWhile, List.reverse_append,
    List.dropWhile_append_of_pos dropped, dropWhile_of_head (by rwa [List.head?_reverse]), List.reverse_reverse]

end

/-! ### The law -/

section
variable {n : Nat} {border : Bool × Bool} {symbol : Symbol n}

theorem render_isQrLine (large : 28 ≤ n) : ∀ line ∈ render border symbol, isQrLine line = true := by
  intro line member
  rcases List.mem_cons.mp member with rfl | printed
  · rw [List.replicate_succ, List.replicate_succ', ← zipWith_replicate]
    have margin := congrArg Option.isSome (modulesByGlyph_glyph border.1 border.2)
    exact isQrLine_print ⟨margin, margin⟩ large List.length_replicate List.length_replicate
  · obtain ⟨pair, listed, rfl⟩ := List.mem_map.mp printed
    have sizes := rowPairs_width symbol.width pair listed
    exact isQrLine_print ⟨rfl, rfl⟩ large sizes.1 sizes.2

theorem isQrLine_glyphs {line : List Char} (code : isQrLine line = true) : ∀ c ∈ line, (modulesByGlyph c).isSome := by
  rw [isQrLine, Bool.and_eq_true, List.all_eq_true] at code
  exact code.2

/-- Of the printed lines the code's own are left, without the noise. -/
theorem printed_bare {lines printed : List (List Char)} (noisy : List.Forall₂ Noisy lines printed)
    (code : ∀ line ∈ lines, isQrLine line = true) : printed.map bare = lines ∧ ∀ line ∈ printed, '\n' ∉ line := by
  induction noisy with
  | nil => exact ⟨rfl, fun line none => absurd none List.not_mem_nil⟩
  | @cons line out lines printed here _ ih =>
    obtain ⟨rest, whole⟩ := ih fun line member => code line (List.mem_cons_of_mem _ member)
    have glyphs := isQrLine_glyphs (code line List.mem_cons_self)
    refine ⟨by rw [List.map_cons, bare_noisy here glyphs, rest], fun other member => ?_⟩
    rcases List.mem_cons.mp member with rfl | later
    · exact noisy_no_break here glyphs
    · exact whole other later

theorem filter_others {lines : List (List Char)} (others : ∀ line ∈ lines, Other line) : (lines.map bare).filter isQrLine = [] := by
  rw [List.filter_eq_nil_iff]
  intro line member
  obtain ⟨line, listed, rfl⟩ := List.mem_map.mp member
  rw [(others line listed).2]
  exact Bool.false_ne_true

/-- The lines that are read as a code are the code's own. -/
theorem qrLines_rendered (large : 28 ≤ n) {before printed after : List (List Char)} (noisy : List.Forall₂ Noisy (render border symbol) printed)
    (first : ∀ line ∈ before, Other line) (last : ∀ line ∈ after, Other line) :
    (linesOf (['\n'].intercalate (before ++ (printed ++ after)))).filter isQrLine = render border symbol := by
  have code := @render_isQrLine n border symbol large
  obtain ⟨same, whole⟩ := printed_bare noisy code
  have some_ : before ++ (printed ++ after) ≠ [] := by
    intro none
    have printed_none := (List.append_eq_nil_iff.mp (List.append_eq_nil_iff.mp none).2).1
    rw [printed_none] at same
    exact List.cons_ne_nil _ _ same.symm
  rw [linesOf_intercalate some_, List.map_append, List.map_append, List.filter_append, List.filter_append, filter_others first,
    filter_others last, same, List.nil_append, List.append_nil, List.filter_eq_self.mpr code]
  intro line member
  rcases List.mem_append.mp member with early | member
  · exact (first line early).1
  · rcases List.mem_append.mp member with own | late
    · exact whole line own
    · exact (last line late).1

end

/-- A code of odd size, printed with any noise among other lines, is read back module for module. -/
theorem modulesFromTerminalQr_render {n : Nat} (odd : n % 2 = 1) (large : 29 ≤ n) (symbol : Symbol n)
    (top : ∀ row ∈ symbol.rows.head?, ∀ module, row ≠ List.replicate n module)
    (bottom : ∀ row ∈ symbol.rows.getLast?, ∀ module, row ≠ List.replicate n module) (border : Bool × Bool)
    (before printed after : List (List Char)) (noisy : List.Forall₂ Noisy (render border symbol) printed)
    (first : ∀ line ∈ before, Other line) (last : ∀ line ∈ after, Other line) :
    modulesFromTerminalQr (['\n'].intercalate (before ++ (printed ++ after))) = some symbol.rows := by
  have read : (render border symbol).mapM readRows =
      some ((List.replicate n border.1, List.replicate n border.2) :: rowPairs n symbol.rows) := by
    rw [render, List.mapM_cons, readRows_border, mapM_printed symbol.width]
    rfl
  have some_ : symbol.rows ≠ [] := by
    intro none
    have height := symbol.height
    rw [none] at height
    cases height
    cases odd
  have mixed {row : List Bool} (member : row ∈ symbol.rows) (other : ∀ module, row ≠ List.replicate n module) : uniform row = false := by
    rw [← Bool.not_eq_true]
    intro same
    obtain ⟨module, filled⟩ := uniform_eq same
    exact other module (symbol.width row member ▸ filled)
  -- Only the border's rows and the white one under the last are uniform at the ends.
  have trimmed := @trim_core _ uniform [List.replicate n border.1, List.replicate n border.2] symbol.rows [List.replicate n false] some_
    (by simp [uniform_replicate]) (by simp [uniform_replicate])
    (fun row member => mixed (List.mem_of_mem_head? member) (top row member))
    (fun row member => mixed (List.mem_of_mem_getLast? member) (bottom row member))
  have rows : ((List.replicate n border.1, List.replicate n border.2) :: rowPairs n symbol.rows).flatMap (fun pair => [pair.1, pair.2]) =
      [List.replicate n border.1, List.replicate n border.2] ++ (symbol.rows ++ [List.replicate n false]) := by
    rw [List.flatMap_cons, flatMap_rowPairs, symbol.height, if_pos odd]
  unfold modulesFromTerminalQr
  rw [qrLines_rendered (by omega) noisy first last, read]
  dsimp only
  have width : (([List.replicate n border.1, List.replicate n border.2] ++ (symbol.rows ++ [List.replicate n false])).head?.getD []).length = n :=
    List.length_replicate
  have square : symbol.rows.take n = symbol.rows := List.take_of_length_le symbol.height.le
  rw [rows, trimmed, width, if_neg (by simp), if_neg (by rw [symbol.height]; omega), square, if_neg]
  rw [List.any_eq_true]
  rintro ⟨row, member, other⟩
  exact bne_iff_ne.mp other (symbol.width row member)

/-- A board of squares. -/
def checkers (n : Nat) : Symbol n where
  rows := (List.range n).map fun i => (List.range n).map fun j => (i + j) % 2 == 0
  height := by rw [List.length_map, List.length_range]
  width := by
    intro row member
    obtain ⟨i, -, rfl⟩ := List.mem_map.mp member
    rw [List.length_map, List.length_range]

/-- As a terminal prints a line: in colour, and ended by a carriage return. -/
def coloured (line : List Char) : List Char := escape :: '[' :: (['3', '7', 'm'] ++ (line ++ ['\r']))

theorem coloured_noisy (line : List Char) : Noisy line (coloured line) := by
  have ended : Noisy line (line ++ ['\r']) := by
    induction line with
    | nil => exact .carriage .nil
    | cons c line ih => exact .glyph c ih
  have params : ∀ c ∈ ['3', '7'], isParam c = true := List.all_eq_true.mp (by decide)
  exact @Noisy.colour ['3', '7'] 'm' line (line ++ ['\r']) params (by decide) ended

theorem checkers_read :
    modulesFromTerminalQr (['\n'].intercalate
      (["Scan this QR code".toList] ++ ((render (true, false) (checkers 29)).map coloured ++ ["Waiting for scan...".toList]))) =
      some (checkers 29).rows := by
  refine modulesFromTerminalQr_render (by decide) (by decide) (checkers 29) ?_ ?_ (true, false) _ _ _ ?_ (by decide) (by decide)
  · intro row first module filled
    obtain rfl := Option.some.inj first
    cases module <;> exact absurd filled (by decide)
  · intro row last module filled
    obtain rfl := Option.some.inj last
    cases module <;> exact absurd filled (by decide)
  exact List.forall₂_map_right_iff.mpr (List.forall₂_same.mpr fun line _ => coloured_noisy line)

end GroupButler.Pairing.TerminalQr
