import GroupButler.Ai.Scan

/-!
# The body of a message

Collapsing the blank lines of a text and trimming it leaves nothing to collapse or trim, in it or in a part of it.
-/

namespace GroupButler.Ai
open Foundation

/-! ### Blank lines -/

def isBlank (c : Char) : Bool := c == '\t' || c == ' '

/-- What follows the line at the front of a text, where that line is blank. -/
def nextLine (cs : List Char) : Option (List Char) :=
  match cs.dropWhile isBlank with
  | '\n' :: rest => some rest
  | _ => none

/-- Two blank lines at the front of a text. -/
def TwoBlank (cs : List Char) : Prop := ((nextLine cs).bind nextLine).isSome = true

/-- No newline is in front of two blank lines. -/
def Collapsed (cs : List Char) : Prop := ∀ front rest, cs = front ++ '\n' :: rest → ¬ TwoBlank rest

theorem nextLine_blank {c : Char} (blank : isBlank c = true) (cs : List Char) : nextLine (c :: cs) = nextLine cs := by
  rw [nextLine, List.dropWhile_cons_of_pos blank, nextLine]

theorem nextLine_newline (cs : List Char) : nextLine ('\n' :: cs) = some cs := rfl

theorem nextLine_eq_some {cs rest : List Char} : nextLine cs = some rest ↔ cs.dropWhile isBlank = '\n' :: rest := by
  unfold nextLine
  constructor
  · intro next
    split at next
    · rename_i dropped
      rw [dropped, Option.some.inj next]
    · cases next
  · intro dropped
    rw [dropped]
    rfl

theorem nextLine_none {cs : List Char} (visible : ∀ rest, cs.dropWhile isBlank ≠ '\n' :: rest) : nextLine cs = none :=
  Option.eq_none_iff_forall_ne_some.mpr fun rest next => visible rest (nextLine_eq_some.mp next)

theorem nextLine_other {c : Char} (visible : isBlank c = false) (other : c ≠ '\n') (cs : List Char) :
    nextLine (c :: cs) = none := by
  apply nextLine_none
  intro rest
  rw [List.dropWhile_cons_of_neg (by simp [visible])]
  exact fun same => other (List.cons.inj same).1

theorem nextLine_split {cs rest : List Char} (next : nextLine cs = some rest) : ∃ front, cs = front ++ '\n' :: rest :=
  ⟨cs.takeWhile isBlank, by rw [← nextLine_eq_some.mp next, List.takeWhile_append_dropWhile]⟩

theorem nextLine_append {cs rest : List Char} (next : nextLine cs = some rest) (more : List Char) :
    nextLine (cs ++ more) = some (rest ++ more) := by
  rw [nextLine_eq_some] at next ⊢
  rw [List.dropWhile_append, next]
  rfl

theorem twoBlank_append {cs : List Char} (two : TwoBlank cs) (more : List Char) : TwoBlank (cs ++ more) := by
  unfold TwoBlank at two ⊢
  obtain ⟨last, found⟩ := Option.isSome_iff_exists.mp two
  obtain ⟨next, first, second⟩ := Option.bind_eq_some_iff.mp found
  rw [nextLine_append first, Option.bind_some, nextLine_append second]
  rfl

theorem Collapsed.part {front cs back : List Char} (collapsed : Collapsed (front ++ cs ++ back)) : Collapsed cs := by
  intro before rest split two
  apply collapsed (front ++ before) (rest ++ back)
  · rw [split]
    simp
  · exact twoBlank_append two back

theorem blankLines_none {cs : List Char} (visible : ∀ rest, cs.dropWhile isBlank ≠ '\n' :: rest) (fuel : Nat) :
    blankLines (fuel + 1) cs = (0, cs) := by
  rw [blankLines]
  split
  · rename_i dropped
    exact absurd dropped (visible _)
  · rfl

theorem blankLines_some {cs rest : List Char} (dropped : cs.dropWhile isBlank = '\n' :: rest) (fuel : Nat) :
    blankLines (fuel + 1) cs = ((blankLines fuel rest).1 + 1, (blankLines fuel rest).2) := by
  rw [blankLines]
  split
  · rename_i found
    obtain rfl := (List.cons.inj (dropped.symm.trans found)).2
    rfl
  · rename_i other
    exact absurd dropped (other rest)

theorem blankLines_succ (fuel : Nat) (cs : List Char) :
    blankLines (fuel + 1) cs =
      match nextLine cs with
      | some rest => ((blankLines fuel rest).1 + 1, (blankLines fuel rest).2)
      | none => (0, cs) := by
  by_cases line : ∃ rest, cs.dropWhile isBlank = '\n' :: rest
  · obtain ⟨rest, dropped⟩ := line
    rw [blankLines_some dropped, nextLine_eq_some.mpr dropped]
  · have visible : ∀ rest, cs.dropWhile isBlank ≠ '\n' :: rest := fun rest dropped => line ⟨rest, dropped⟩
    rw [blankLines_none visible, nextLine_none visible]

theorem twoBlank_of_lines {fuel : Nat} {cs : List Char} (lines : 2 ≤ (blankLines fuel cs).1) : TwoBlank cs := by
  cases fuel with
  | zero => exact absurd lines (by simp [blankLines])
  | succ fuel =>
    rw [blankLines_succ] at lines
    cases first : nextLine cs with
    | none => simp [first] at lines
    | some rest =>
      rw [first] at lines
      dsimp only at lines
      cases fuel with
      | zero => exact absurd lines (by simp [blankLines])
      | succ fuel =>
        rw [blankLines_succ] at lines
        cases second : nextLine rest with
        | none => simp [second] at lines
        | some last =>
          rw [TwoBlank, first, Option.bind_some, second]
          rfl

theorem length_nextLine {cs rest : List Char} (next : nextLine cs = some rest) : rest.length < cs.length := by
  obtain ⟨front, rfl⟩ := nextLine_split next
  rw [List.length_append, List.length_cons]
  omega

theorem lines_of_twoBlank {cs : List Char} (two : TwoBlank cs) : 2 ≤ (blankLines cs.length cs).1 := by
  obtain ⟨last, found⟩ := Option.isSome_iff_exists.mp two
  obtain ⟨next, first, second⟩ := Option.bind_eq_some_iff.mp found
  have long := length_nextLine first
  have long' := length_nextLine second
  obtain ⟨fuel, enough⟩ : ∃ fuel, cs.length = fuel + 1 + 1 := ⟨cs.length - 2, by omega⟩
  rw [enough, blankLines_succ, first]
  dsimp only
  rw [blankLines_succ, second]
  dsimp only
  omega

/-- The text that follows the blank lines begins with no blank line. -/
theorem blankLines_rest {fuel : Nat} {cs : List Char} (enough : cs.length ≤ fuel) : nextLine (blankLines fuel cs).2 = none := by
  induction fuel generalizing cs with
  | zero =>
    obtain rfl := List.length_eq_zero_iff.mp (Nat.le_zero.mp enough)
    rfl
  | succ fuel ih =>
    rw [blankLines_succ]
    cases next : nextLine cs with
    | none => exact next
    | some rest =>
      have shorter := length_nextLine next
      exact ih (by omega)

theorem blankLines_split {fuel : Nat} {cs : List Char} (some_ : 0 < (blankLines fuel cs).1) :
    ∃ front, cs = front ++ '\n' :: (blankLines fuel cs).2 := by
  induction fuel generalizing cs with
  | zero => exact absurd some_ (by simp [blankLines])
  | succ fuel ih =>
    rw [blankLines_succ] at some_ ⊢
    cases next : nextLine cs with
    | none => simp [next] at some_
    | some rest =>
      obtain ⟨front, rfl⟩ := nextLine_split next
      dsimp only
      by_cases more : 0 < (blankLines fuel rest).1
      · obtain ⟨between, split⟩ := ih more
        refine ⟨front ++ '\n' :: between, ?_⟩
        rw [List.append_assoc, List.cons_append, ← split]
      · refine ⟨front, ?_⟩
        cases fuel with
        | zero => rfl
        | succ fuel =>
          rw [blankLines_succ] at more ⊢
          cases again : nextLine rest with
          | none => rfl
          | some last => simp [again] at more

/-! ### Collapsing -/

theorem collapse_other {fuel : Nat} {c : Char} (other : c ≠ '\n') (cs : List Char) :
    collapseBlankLines (fuel + 1) (c :: cs) = c :: collapseBlankLines fuel cs := by
  rw [collapseBlankLines, if_neg other]

theorem collapse_newline (fuel : Nat) (cs : List Char) : collapseBlankLines (fuel + 1) ('\n' :: cs) =
    if 2 ≤ (blankLines cs.length cs).1 then '\n' :: '\n' :: collapseBlankLines fuel (blankLines cs.length cs).2
    else '\n' :: collapseBlankLines fuel cs := by
  rw [collapseBlankLines, if_pos rfl]

theorem collapse_self {fuel : Nat} {cs : List Char} (collapsed : Collapsed cs) : collapseBlankLines fuel cs = cs := by
  induction fuel generalizing cs with
  | zero => rfl
  | succ fuel ih =>
    cases cs with
    | nil => rfl
    | cons c cs =>
      have rest : Collapsed cs := fun front rest split => collapsed (c :: front) rest (by rw [split, List.cons_append])
      by_cases newline : c = '\n'
      · subst newline
        rw [collapse_newline, if_neg fun lines => collapsed [] cs rfl (twoBlank_of_lines lines), ih rest]
      · rw [collapse_other newline, ih rest]

/-- A text begins with a blank line only if it did before it was collapsed. -/
theorem nextLine_collapse {fuel : Nat} {cs : List Char} (next : (nextLine (collapseBlankLines fuel cs)).isSome = true) :
    (nextLine cs).isSome = true := by
  induction fuel generalizing cs with
  | zero => exact next
  | succ fuel ih =>
    cases cs with
    | nil => exact next
    | cons c cs =>
      by_cases newline : c = '\n'
      · rw [newline]
        rfl
      · rw [collapse_other newline] at next
        cases blank : isBlank c with
        | true =>
          rw [nextLine_blank blank] at next ⊢
          exact ih next
        | false => simp [nextLine_other blank newline] at next

theorem twoBlank_collapse {fuel : Nat} {cs : List Char} (two : TwoBlank (collapseBlankLines fuel cs)) : TwoBlank cs := by
  induction fuel generalizing cs with
  | zero => exact two
  | succ fuel ih =>
    cases cs with
    | nil => exact two
    | cons c cs =>
      by_cases newline : c = '\n'
      · subst newline
        rw [collapse_newline] at two
        split at two
        · rename_i lines
          obtain ⟨last, found⟩ := Option.isSome_iff_exists.mp (twoBlank_of_lines lines)
          obtain ⟨next, first, -⟩ := Option.bind_eq_some_iff.mp found
          rw [TwoBlank, nextLine_newline, Option.bind_some, first]
          rfl
        · rw [TwoBlank, nextLine_newline, Option.bind_some] at two ⊢
          exact nextLine_collapse two
      · rw [collapse_other newline] at two
        cases blank : isBlank c with
        | true =>
          rw [TwoBlank, nextLine_blank blank] at two ⊢
          exact ih two
        | false => simp [TwoBlank, nextLine_other blank newline] at two

theorem collapsed_cons {c : Char} {cs : List Char} (rest : Collapsed cs) (first : c = '\n' → ¬ TwoBlank cs) : Collapsed (c :: cs) := by
  intro front after split
  cases front with
  | nil =>
    obtain ⟨rfl, rfl⟩ := List.cons.inj split
    exact first rfl
  | cons d front => exact rest front after (List.cons.inj split).2

/-- Collapsing once collapses all there is. -/
theorem collapsed_collapse {fuel : Nat} {cs : List Char} (enough : cs.length ≤ fuel) : Collapsed (collapseBlankLines fuel cs) := by
  induction fuel generalizing cs with
  | zero =>
    obtain rfl := List.length_eq_zero_iff.mp (Nat.le_zero.mp enough)
    exact fun front rest split => absurd split (by simp [collapseBlankLines])
  | succ fuel ih =>
    cases cs with
    | nil => exact fun front rest split => absurd split (by simp [collapseBlankLines])
    | cons c cs =>
      have short : cs.length ≤ fuel := Nat.le_of_succ_le_succ enough
      by_cases newline : c = '\n'
      · subst newline
        rw [collapse_newline]
        split
        · rename_i lines
          obtain ⟨front, split⟩ := blankLines_split (Nat.lt_of_lt_of_le Nat.zero_lt_two lines)
          have length := congrArg List.length split
          rw [List.length_append, List.length_cons] at length
          have none : ¬ (nextLine (collapseBlankLines fuel (blankLines cs.length cs).2)).isSome = true := by
            intro next
            have before := nextLine_collapse next
            rw [blankLines_rest (Nat.le_refl _)] at before
            cases before
          refine collapsed_cons (collapsed_cons (ih (by omega)) fun _ two => none ?_) fun _ two => none ?_
          · exact Option.isSome_of_isSome_bind two
          · rwa [TwoBlank, nextLine_newline, Option.bind_some] at two
        · rename_i few
          exact collapsed_cons (ih short) fun _ two => few (lines_of_twoBlank (twoBlank_collapse two))
      · rw [collapse_other newline]
        exact collapsed_cons (ih short) fun same => absurd same newline

theorem mem_collapse {fuel : Nat} {cs : List Char} {c : Char} (member : c ∈ collapseBlankLines fuel cs) : c ∈ cs := by
  induction fuel generalizing cs with
  | zero => exact member
  | succ fuel ih =>
    cases cs with
    | nil => exact member
    | cons d cs =>
      by_cases newline : d = '\n'
      · subst newline
        rw [collapse_newline] at member
        split at member
        · rename_i lines
          obtain ⟨front, split⟩ := blankLines_split (Nat.lt_of_lt_of_le Nat.zero_lt_two lines)
          rcases List.mem_cons.mp member with same | member
          · exact same ▸ List.mem_cons_self
          · rcases List.mem_cons.mp member with same | member
            · exact same ▸ List.mem_cons_self
            · rw [split]
              simp [ih member]
        · rcases List.mem_cons.mp member with same | member
          · exact same ▸ List.mem_cons_self
          · exact List.mem_cons_of_mem _ (ih member)
      · rw [collapse_other newline] at member
        rcases List.mem_cons.mp member with same | member
        · exact same ▸ List.mem_cons_self
        · exact List.mem_cons_of_mem _ (ih member)

/-! ### The body -/

theorem body_part (normalized : String) : ∃ front back,
    collapseBlankLines normalized.toList.length normalized.toList = front ++ (trimmedBody normalized).toList ++ back := by
  obtain ⟨front, back, split⟩ := trimChars_split isJsSpace
    (String.ofList (collapseBlankLines normalized.toList.length normalized.toList))
  rw [String.toList_ofList] at split
  exact ⟨front, back, split⟩

theorem body_collapsed (normalized : String) : Collapsed (trimmedBody normalized).toList := by
  obtain ⟨front, back, split⟩ := body_part normalized
  exact (split ▸ collapsed_collapse (Nat.le_refl _) : Collapsed (front ++ _ ++ back)).part

theorem mem_body {normalized : String} {c : Char} (member : c ∈ (trimmedBody normalized).toList) : c ∈ normalized.toList := by
  obtain ⟨front, back, split⟩ := body_part normalized
  exact mem_collapse (split ▸ List.mem_append_left back (List.mem_append_right front member))

theorem trimmedBody_collapsed {text : String} (collapsed : Collapsed text.toList) : trimmedBody text = jsTrim text := by
  rw [trimmedBody, collapse_self collapsed, String.ofList_toList]

end GroupButler.Ai
