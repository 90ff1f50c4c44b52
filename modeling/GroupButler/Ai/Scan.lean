import GroupButler.Ai.Gate
import GroupButler.Foundation.Prefixes
import Mathlib.Data.List.Infix

/-!
# Scanning a text from the left

Which matches `matchAll` finds, and what it finds in the front of a text.
-/

namespace GroupButler.Ai
open Foundation

/-- The character before the rest of a text. -/
def lastOf (before : Option Char) : List Char → Option Char
  | [] => before
  | c :: cs => lastOf (some c) cs

theorem lastOf_none (front : List Char) : lastOf none front = front.getLast? := by
  have last (c : Char) (cs : List Char) : lastOf (some c) cs = (c :: cs).getLast? := by
    induction cs generalizing c with
    | nil => rfl
    | cons d cs ih => exact ih d
  cases front with
  | nil => rfl
  | cons c cs => exact last c cs

section
variable {α : Type} {find : Option Char → List Char → Option (α × Nat)}

theorem place_le {place skip p : Nat} {before : Option Char} {cs : List Char} {found : α}
    (member : (p, found) ∈ matchAll find place skip before cs) : place + skip ≤ p := by
  induction cs generalizing place skip before with
  | nil => simp [matchAll] at member
  | cons c cs ih =>
    cases skip with
    | succ skip =>
      have later := ih member
      omega
    | zero =>
      rw [matchAll] at member
      split at member
      · have later := ih member
        omega
      · rcases List.mem_cons.mp member with here | member
        · have same := congrArg Prod.fst here
          exact Nat.le_of_eq same.symm
        · have later := ih member
          omega

theorem find_of_mem {place skip p : Nat} {before : Option Char} {cs : List Char} {found : α}
    (member : (p, found) ∈ matchAll find place skip before cs) :
    ∃ front rest length, cs = front ++ rest ∧ p = place + front.length ∧ find (lastOf before front) rest = some (found, length) := by
  induction cs generalizing place skip before with
  | nil => simp [matchAll] at member
  | cons c cs ih =>
    have later {skip : Nat} (member : (p, found) ∈ matchAll find (place + 1) skip (some c) cs) :
        ∃ front rest length, c :: cs = front ++ rest ∧ p = place + front.length ∧
          find (lastOf before front) rest = some (found, length) := by
      obtain ⟨front, rest, length, rfl, rfl, here⟩ := ih member
      exact ⟨c :: front, rest, length, rfl, by rw [List.length_cons]; omega, here⟩
    cases skip with
    | succ skip => exact later member
    | zero =>
      rw [matchAll] at member
      split at member
      · exact later member
      · rename_i other length here
        rcases List.mem_cons.mp member with same | member
        · obtain ⟨rfl, rfl⟩ := Prod.mk.inj same
          exact ⟨[], c :: cs, length, rfl, rfl, here⟩
        · exact later member

/-- A match is found, or begins inside one that is. -/
theorem matchAll_finds {place skip length : Nat} {before : Option Char} {front cs : List Char} {found : α}
    (here : find (lastOf before front) cs = some (found, length)) (nonempty : cs ≠ []) (reached : skip ≤ front.length) :
    (place + front.length, found) ∈ matchAll find place skip before (front ++ cs) ∨
      ∃ start mid other reach, front = start ++ mid ∧ mid ≠ [] ∧
        find (lastOf before start) (mid ++ cs) = some (other, reach) ∧ mid.length < reach := by
  induction front generalizing place skip before with
  | nil =>
    obtain rfl : skip = 0 := Nat.le_zero.mp reached
    cases cs with
    | nil => exact absurd rfl nonempty
    | cons c cs =>
      rw [lastOf] at here
      rw [List.nil_append, matchAll, here]
      exact Or.inl List.mem_cons_self
  | cons d front ih =>
    have place_eq : place + (d :: front).length = place + 1 + front.length := by
      rw [List.length_cons]
      omega
    have later (skip : Nat) (reached : skip ≤ front.length) :
        (place + (d :: front).length, found) ∈ matchAll find (place + 1) skip (some d) (front ++ cs) ∨
          ∃ start mid other reach, d :: front = start ++ mid ∧ mid ≠ [] ∧
            find (lastOf before start) (mid ++ cs) = some (other, reach) ∧ mid.length < reach := by
      rw [place_eq]
      rcases ih here reached with member | ⟨start, mid, other, reach, rfl, inside⟩
      · exact Or.inl member
      · exact Or.inr ⟨d :: start, mid, other, reach, rfl, inside⟩
    cases skip with
    | succ skip => exact later skip (Nat.le_of_succ_le_succ reached)
    | zero =>
      rw [List.cons_append, matchAll]
      cases first : find before (d :: (front ++ cs)) with
      | none => exact later 0 (Nat.zero_le _)
      | some match_ =>
        obtain ⟨other, reach⟩ := match_
        by_cases within : reach - 1 ≤ front.length
        · exact (later (reach - 1) within).imp_left fun member => List.mem_cons_of_mem _ member
        · refine Or.inr ⟨[], d :: front, other, reach, rfl, List.cons_ne_nil _ _, first, ?_⟩
          rw [List.length_cons]
          omega

theorem matchAll_none {place : Nat} {before : Option Char} {cs : List Char}
    (nowhere : ∀ front rest, cs = front ++ rest → ∀ before, find before rest = none) : matchAll find place 0 before cs = [] := by
  induction cs generalizing place before with
  | nil => rfl
  | cons c cs ih =>
    rw [matchAll, nowhere [] (c :: cs) rfl]
    exact ih fun front rest split => nowhere (c :: front) rest (by rw [split, List.cons_append])

/-- A match is decided by the first `needs` characters of the rest; what it takes in of a text is cut with the text. -/
structure Cuttable (find : Option Char → List Char → Option (α × Nat)) (needs : α → Nat) (cut : Nat → α → α) : Prop where
  positive : ∀ found, 0 < needs found
  length : ∀ before cs found length, find before cs = some (found, length) → needs found ≤ length
  kept : ∀ before cs more found length, find before (cs ++ more) = some (found, length) → needs found ≤ cs.length →
    find before cs = some (cut cs.length found, min length cs.length)
  grown : ∀ before cs more found length, find before cs = some (found, length) →
    ∃ found length, find before (cs ++ more) = some (found, length) ∧ needs found ≤ cs.length
  lost : ∀ before cs more found length, find before (cs ++ more) = some (found, length) → cs.length < needs found →
    ∀ front rest, cs = front ++ rest → ∀ before, find before rest = none

/-- What the front of a text keeps of a match. -/
def cutMatch (needs : α → Nat) (cut : Nat → α → α) (stop : Nat) (found : Nat × α) : Option (Nat × α) :=
  if found.1 + needs found.2 ≤ stop then some (found.1, cut (stop - found.1) found.2) else none

/-- The front of a text has the matches of the whole that begin in it, cut with it. -/
theorem matchAll_cut {needs : α → Nat} {cut : Nat → α → α} (cuttable : Cuttable find needs cut) {place skip skip' : Nat}
    {before : Option Char} {cs more : List Char} (skips : skip = skip' ∨ cs.length ≤ skip ∧ cs.length ≤ skip') :
    matchAll find place skip before cs =
      (matchAll find place skip' before (cs ++ more)).filterMap (cutMatch needs cut (place + cs.length)) := by
  have late (place stop skip : Nat) (before : Option Char) (cs : List Char) (past : stop ≤ place + skip) :
      (matchAll find place skip before cs).filterMap (cutMatch needs cut stop) = [] := by
    rw [List.filterMap_eq_nil_iff]
    rintro ⟨p, found⟩ member
    have bound := place_le member
    have positive := cuttable.positive found
    exact if_neg (by dsimp only; omega)
  induction cs generalizing place skip skip' before with
  | nil => exact (late place _ skip' before _ (by simp)).symm
  | cons c cs ih =>
    have stop : place + (c :: cs).length = place + 1 + cs.length := by
      rw [List.length_cons]
      omega
    cases skip with
    | succ skip =>
      cases skip' with
      | zero => simp at skips
      | succ skip' =>
        rw [List.cons_append, matchAll, matchAll, stop]
        exact ih (by simpa using skips)
    | zero =>
      obtain rfl : 0 = skip' := by simpa using skips
      rw [List.cons_append, matchAll, matchAll, stop]
      cases whole : find before (c :: (cs ++ more)) with
      | none =>
        have part : find before (c :: cs) = none := by
          cases part : find before (c :: cs) with
          | none => rfl
          | some match_ =>
            obtain ⟨found, length, grown, -⟩ := cuttable.grown before (c :: cs) more _ _ part
            rw [List.cons_append, whole] at grown
            cases grown
        rw [part]
        exact ih (Or.inl rfl)
      | some match_ =>
        obtain ⟨found, length⟩ := match_
        have long := cuttable.length _ _ _ _ whole
        by_cases enough : needs found ≤ (c :: cs).length
        · have part := cuttable.kept before (c :: cs) more found length whole enough
          have here : cutMatch needs cut (place + 1 + cs.length) (place, found) = some (place, cut (c :: cs).length found) := by
            rw [← stop, cutMatch, if_pos (by dsimp only; omega), Nat.add_sub_cancel_left]
          rw [part]
          dsimp only
          rw [List.filterMap_cons_some here]
          congr 1
          apply ih
          rw [List.length_cons]
          omega
        · have part := cuttable.lost before (c :: cs) more found length whole (by omega)
          have away : cutMatch needs cut (place + 1 + cs.length) (place, found) = none := by
            rw [← stop, cutMatch, if_neg (by dsimp only; omega)]
          rw [part [] (c :: cs) rfl]
          dsimp only
          rw [List.filterMap_cons_none away, late _ _ _ _ _ (by rw [List.length_cons] at enough; omega)]
          exact matchAll_none fun front rest split => part (c :: front) rest (by rw [split, List.cons_append])

end

/-! ### Schemes -/

theorem schemeChar_code {c : Char} (scheme : isSchemeChar c = true) :
    (c.toNat = 43 ∨ c.toNat = 45 ∨ c.toNat = 46 ∨ 48 ≤ c.toNat ∧ c.toNat ≤ 57) ∨
      65 ≤ c.toNat ∧ c.toNat ≤ 90 ∨ 97 ≤ c.toNat ∧ c.toNat ≤ 122 ∨ c.toNat = 0x17F ∨ c.toNat = 0x212A := by
  simp only [isSchemeChar, isSchemeLetter, Bool.or_eq_true, isAlpha_iff, isUpper_iff, isLower_iff, isDigit_iff, decide_eq_true_eq,
    beq_iff_eq] at scheme
  rcases scheme with ((((alpha | long) | digit) | rfl) | rfl) | rfl
  · omega
  · omega
  · omega
  · exact Or.inl (Or.inl rfl)
  · exact Or.inl (Or.inr (Or.inr (Or.inl rfl)))
  · exact Or.inl (Or.inr (Or.inl rfl))

theorem schemeChar_link {c : Char} (scheme : isSchemeChar c = true) : isLinkChar c = true := by
  have code := schemeChar_code scheme
  simp only [isLinkChar, isJsSpace, Bool.and_eq_true, Bool.not_eq_true', Bool.or_eq_false_iff, Bool.and_eq_false_iff,
    decide_eq_false_iff_not, decide_eq_true_eq, List.mem_cons, List.not_mem_nil, or_false]
  omega

/-- A scheme at the front of a text, where no word goes on before it. -/
structure Scheme (before : Option Char) (scheme : List Char) : Prop where
  boundary : before.any isSchemeWord = false
  letter : scheme.head?.any isSchemeLetter = true
  chars : ∀ c ∈ scheme, isSchemeChar c = true

theorem schemeAt_eq_some {before : Option Char} {cs scheme rest : List Char} :
    schemeAt before cs = some (scheme, rest) ↔ Scheme before scheme ∧ cs = scheme ++ ':' :: rest := by
  have colon : isSchemeChar ':' = false := by decide
  unfold schemeAt
  constructor
  · intro found
    split at found
    · rename_i starts
      simp only [Bool.and_eq_true, Bool.not_eq_true'] at starts
      split at found
      · rename_i after dropped
        obtain ⟨rfl, rfl⟩ := Prod.mk.inj (Option.some.inj found)
        have whole : cs = cs.takeWhile isSchemeChar ++ ':' :: after := by rw [← dropped, List.takeWhile_append_dropWhile]
        refine ⟨⟨starts.2, ?_, fun c member => List.mem_takeWhile_imp member⟩, whole⟩
        cases cs with
        | nil => exact absurd starts.1 (by simp)
        | cons c cs =>
          have letter : isSchemeLetter c = true := starts.1
          rw [List.takeWhile_cons_of_pos (by simp [isSchemeChar, letter])]
          exact letter
      · cases found
    · cases found
  · rintro ⟨⟨boundary, letter, chars⟩, rfl⟩
    have first : (scheme ++ ':' :: rest).head?.any isSchemeLetter = true := by
      cases scheme with
      | nil => exact absurd letter (by simp)
      | cons c cs => exact letter
    rw [first, boundary, List.dropWhile_append_of_pos chars, List.takeWhile_append_of_pos chars,
      List.dropWhile_cons_of_neg (by rw [colon]; exact Bool.false_ne_true),
      List.takeWhile_cons_of_neg (by rw [colon]; exact Bool.false_ne_true), List.append_nil]
    rfl

/-- The link characters at the front of a text, up to where it is cut. -/
theorem takeWhile_cut (p : Char → Bool) (cs more : List Char) :
    cs.takeWhile p = ((cs ++ more).takeWhile p).take cs.length := by
  induction cs with
  | nil => rfl
  | cons c cs ih =>
    cases holds : p c with
    | true => rw [List.cons_append, List.takeWhile_cons_of_pos holds, List.takeWhile_cons_of_pos holds, List.length_cons,
        List.take_succ_cons, ← ih]
    | false => simp [holds]

/-- A link is as long as the run of characters it begins. -/
theorem takeWhile_link {scheme : List Char} (rest : List Char) (chars : ∀ c ∈ scheme, isSchemeChar c = true) :
    (scheme ++ ':' :: '/' :: '/' :: rest).takeWhile isLinkChar = scheme ++ ':' :: '/' :: '/' :: rest.takeWhile isLinkChar := by
  have marks : isLinkChar ':' = true ∧ isLinkChar '/' = true := by decide
  rw [List.takeWhile_append_of_pos fun c member => schemeChar_link (chars c member), List.takeWhile_cons_of_pos marks.1,
    List.takeWhile_cons_of_pos marks.2, List.takeWhile_cons_of_pos marks.2]

theorem absoluteUrl_eq_some {before : Option Char} {cs : List Char} {link : Link} {length : Nat} :
    absoluteUrl before cs = some (link, length) ↔
      Scheme before link.scheme ∧ link.text = cs.takeWhile isLinkChar ∧ length = link.text.length ∧
        ∃ c rest, isLinkChar c = true ∧ cs = link.scheme ++ ':' :: '/' :: '/' :: c :: rest := by
  unfold absoluteUrl
  constructor
  · intro found
    obtain ⟨⟨scheme, rest⟩, at_, read⟩ := Option.bind_eq_some_iff.mp found
    obtain ⟨lawful, rfl⟩ := schemeAt_eq_some.mp at_
    dsimp only at read
    split at read
    · rename_i rest
      split at read
      · rename_i visible
        obtain ⟨rfl, rfl⟩ := Prod.mk.inj (Option.some.inj read)
        cases rest with
        | nil => exact absurd visible (by simp)
        | cons c rest => exact ⟨lawful, (takeWhile_link _ lawful.chars).symm, rfl, c, rest, visible, rfl⟩
      · cases read
    · cases read
  · rintro ⟨lawful, text, rfl, c, rest, visible, rfl⟩
    rw [schemeAt_eq_some.mpr ⟨lawful, rfl⟩]
    rw [takeWhile_link _ lawful.chars] at text
    have shown : (c :: rest).head?.any isLinkChar = true := visible
    simp only [Option.bind_some]
    rw [if_pos shown, ← text]

theorem bareScheme_eq_some {before : Option Char} {cs scheme : List Char} {length : Nat} :
    bareScheme before cs = some (scheme, length) ↔
      Scheme before scheme ∧ length = scheme.length + 2 ∧ ∃ c rest, isJsSpace c = false ∧ cs = scheme ++ ':' :: c :: rest := by
  unfold bareScheme
  constructor
  · intro found
    obtain ⟨⟨name, rest⟩, at_, read⟩ := Option.bind_eq_some_iff.mp found
    obtain ⟨lawful, rfl⟩ := schemeAt_eq_some.mp at_
    dsimp only at read
    split at read
    · rename_i visible
      obtain ⟨rfl, rfl⟩ := Prod.mk.inj (Option.some.inj read)
      cases rest with
      | nil => exact absurd visible (by simp)
      | cons c rest => exact ⟨lawful, rfl, c, rest, by simpa using visible, rfl⟩
    · cases read
  · rintro ⟨lawful, rfl, c, rest, visible, rfl⟩
    rw [schemeAt_eq_some.mpr ⟨lawful, rfl⟩]
    have shown : ((c :: rest).head?.any fun c => !isJsSpace c) = true := by simp [visible]
    simp only [Option.bind_some]
    rw [if_pos shown]

theorem front_of_append {xs more front rest : List Char} (whole : xs ++ more = front ++ rest) (short : front.length ≤ xs.length) :
    ∃ rest, xs = front ++ rest := by
  obtain ⟨rest, same⟩ := List.prefix_of_prefix_length_le (List.prefix_append front rest)
    (whole ▸ List.prefix_append xs more) short
  exact ⟨rest, same.symm⟩

/-- No scheme is left in a text cut before the end of one. -/
theorem scheme_lost {cs more scheme tail front rest name : List Char} {n : Nat} (chars : ∀ c ∈ scheme, isSchemeChar c = true)
    (whole : cs ++ more = scheme ++ tail) (short : cs.length < scheme.length + n) (split : cs = front ++ rest)
    (marked : ∃ after, rest = name ++ ':' :: after ∧ n ≤ after.length + 1) : False := by
  obtain ⟨after, rfl, long⟩ := marked
  subst split
  have inside : front.length + name.length < scheme.length := by
    simp only [List.length_append, List.length_cons] at short
    omega
  have colon := congrArg (fun cs : List Char => cs[front.length + name.length]?) whole
  have left : (front ++ (name ++ ':' :: after) ++ more)[front.length + name.length]? = some ':' := by
    simp
  rw [left, List.getElem?_append_left inside] at colon
  have bad := chars ':' (List.mem_of_getElem? colon.symm)
  revert bad
  decide

theorem absoluteUrl_cuttable :
    Cuttable absoluteUrl (fun link => link.scheme.length + 4) (fun n link => ⟨link.scheme, link.text.take n⟩) where
  positive _ := Nat.succ_pos _
  length := by
    intro before cs link length found
    obtain ⟨lawful, text, rfl, c, rest, visible, rfl⟩ := absoluteUrl_eq_some.mp found
    rw [text, takeWhile_link _ lawful.chars, List.takeWhile_cons_of_pos visible]
    simp
  kept := by
    intro before cs more link length found enough
    obtain ⟨lawful, text, rfl, c, rest, visible, whole⟩ := absoluteUrl_eq_some.mp found
    obtain ⟨rest, rfl⟩ := front_of_append (show cs ++ more = (link.scheme ++ [':', '/', '/', c]) ++ rest by simp [whole])
      (by simpa using enough)
    refine absoluteUrl_eq_some.mpr ⟨lawful, ?_, ?_, c, rest, visible, by simp⟩
    · rw [takeWhile_cut _ _ more, ← text]
    · rw [List.length_take, Nat.min_comm]
  grown := by
    intro before cs more link length found
    obtain ⟨lawful, text, rfl, c, rest, visible, rfl⟩ := absoluteUrl_eq_some.mp found
    refine ⟨⟨link.scheme, ((link.scheme ++ ':' :: '/' :: '/' :: c :: rest) ++ more).takeWhile isLinkChar⟩, _,
      absoluteUrl_eq_some.mpr ⟨lawful, rfl, rfl, c, rest ++ more, visible, by simp⟩, ?_⟩
    simp
  lost := by
    intro before cs more link length found short front rest split before'
    obtain ⟨lawful, text, rfl, c, tail, visible, whole⟩ := absoluteUrl_eq_some.mp found
    rw [Option.eq_none_iff_forall_ne_some]
    rintro ⟨other, length⟩ again
    obtain ⟨-, -, -, d, after, -, rfl⟩ := absoluteUrl_eq_some.mp again
    exact scheme_lost lawful.chars whole short split ⟨_, rfl, by simp⟩

theorem bareScheme_cuttable : Cuttable bareScheme (fun scheme => scheme.length + 2) (fun _ scheme => scheme) where
  positive _ := Nat.succ_pos _
  length := by
    intro before cs scheme length found
    obtain ⟨-, rfl, -⟩ := bareScheme_eq_some.mp found
    exact Nat.le_refl _
  kept := by
    intro before cs more scheme length found enough
    obtain ⟨lawful, rfl, c, rest, visible, whole⟩ := bareScheme_eq_some.mp found
    obtain ⟨rest, rfl⟩ := front_of_append (show cs ++ more = (scheme ++ [':', c]) ++ rest by simp [whole]) (by simpa using enough)
    exact bareScheme_eq_some.mpr ⟨lawful, Nat.min_eq_left enough, c, rest, visible, by simp⟩
  grown := by
    intro before cs more scheme length found
    obtain ⟨lawful, rfl, c, rest, visible, rfl⟩ := bareScheme_eq_some.mp found
    exact ⟨scheme, _, bareScheme_eq_some.mpr ⟨lawful, rfl, c, rest ++ more, visible, by simp⟩, by simp⟩
  lost := by
    intro before cs more scheme length found short front rest split before'
    obtain ⟨lawful, rfl, c, tail, visible, whole⟩ := bareScheme_eq_some.mp found
    rw [Option.eq_none_iff_forall_ne_some]
    rintro ⟨other, length⟩ again
    obtain ⟨-, -, d, after, -, rfl⟩ := bareScheme_eq_some.mp again
    exact scheme_lost lawful.chars whole short split ⟨_, rfl, by simp⟩

/-! ### The body and its checks -/

/-- What the gate checks of a normalised text. -/
def trimmedBody (normalized : String) : String :=
  jsTrim (String.ofList (collapseBlankLines normalized.toList.length normalized.toList))

/-- The colon of an accepted link is not a scheme of its own. -/
def inLink (cs : List Char) (place : Nat) : Bool :=
  (matchAll absoluteUrl 0 0 none cs).any fun (start, link) => start ≤ place && place < start + link.text.length

def checkBody (sourceLinks : List (List Char)) (text : String) : Except WhatsAppOutputCode String :=
  let cs := text.toList
  if text = "" then .error .empty
  else if hasModelControl cs then .error .modelMarkup
  else if (matchAll absoluteUrl 0 0 none cs).any fun (_, link) => unsafeLink sourceLinks link then .error .unsafeLink
  else if looksLikeToolJson cs then .error .unsafeJson
  else if (matchAll bareScheme 0 0 none cs).any fun (place, scheme) =>
    !inLink cs place && !allowedSchemes.contains (lowerScheme scheme) then .error .unsafeLink
  else if cs.tails.any htmlTagAt || cs.tails.any markdownLinkAt then .error .unsafeMarkup
  else .ok (clipScalars text maxScalars).value

theorem sanitize_eq [Normalization] (value : String) (sourceLinks : List (List Char)) :
    sanitizeWhatsAppOutput value sourceLinks = checkBody sourceLinks (trimmedBody (normalizeUntrustedText value)) := rfl

/-- The checks a body passes. -/
structure Passes (sourceLinks : List (List Char)) (cs : List Char) : Prop where
  nonempty : cs ≠ []
  plain : hasModelControl cs = false
  links : ∀ found ∈ matchAll absoluteUrl 0 0 none cs, unsafeLink sourceLinks found.2 = false
  json : looksLikeToolJson cs = false
  schemes : ∀ found ∈ matchAll bareScheme 0 0 none cs, inLink cs found.1 = true ∨ lowerScheme found.2 ∈ allowedSchemes
  markup : ∀ tail, tail <:+ cs → htmlTagAt tail = false ∧ markdownLinkAt tail = false

theorem passes_iff {sourceLinks : List (List Char)} {cs : List Char} :
    Passes sourceLinks cs ↔ cs ≠ [] ∧ hasModelControl cs = false ∧
      ((matchAll absoluteUrl 0 0 none cs).any fun (_, link) => unsafeLink sourceLinks link) = false ∧ looksLikeToolJson cs = false ∧
      ((matchAll bareScheme 0 0 none cs).any fun (place, scheme) =>
        !inLink cs place && !allowedSchemes.contains (lowerScheme scheme)) = false ∧
      (cs.tails.any htmlTagAt || cs.tails.any markdownLinkAt) = false := by
  simp only [List.any_eq_false, Bool.or_eq_false_iff, List.mem_tails, Bool.not_eq_true, Bool.and_eq_false_iff, Bool.not_eq_false',
    List.contains_iff_mem]
  constructor
  · intro passes
    exact ⟨passes.nonempty, passes.plain, passes.links, passes.json, passes.schemes,
      fun tail within => (passes.markup tail within).1, fun tail within => (passes.markup tail within).2⟩
  · rintro ⟨nonempty, plain, links, json, schemes, tags, markdown⟩
    exact ⟨nonempty, plain, links, json, schemes, fun tail within => ⟨tags tail within, markdown tail within⟩⟩

theorem checkBody_eq_ok {sourceLinks : List (List Char)} {text out : String} :
    checkBody sourceLinks text = .ok out ↔ Passes sourceLinks text.toList ∧ out = String.ofList (text.toList.take maxScalars) := by
  have refusals (blank : Prop) [Decidable blank] (control links json schemes markup : Bool) (value : String) :
      (if blank then .error .empty else if control then .error .modelMarkup else if links then .error .unsafeLink
        else if json then .error .unsafeJson else if schemes then .error .unsafeLink else if markup then .error .unsafeMarkup
        else .ok value : Except WhatsAppOutputCode String) = .ok out ↔
      (¬ blank ∧ control = false ∧ links = false ∧ json = false ∧ schemes = false ∧ markup = false) ∧ out = value := by
    by_cases none : blank
    · simp [none]
    · cases control <;> cases links <;> cases json <;> cases schemes <;> cases markup <;> simp [none, eq_comm]
  have empty : text = "" ↔ text.toList = [] := String.toList_inj.symm
  unfold checkBody
  dsimp only
  rw [refusals, clipScalars_value, passes_iff, empty]

end GroupButler.Ai
