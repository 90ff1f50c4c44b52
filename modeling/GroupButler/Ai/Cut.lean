import GroupButler.Ai.Links

/-!
# A body that is cut

What passes the gate's checks passes them still once it is cut, unless the cut makes JSON of it or runs through
a link.
-/

namespace GroupButler.Ai
open Foundation

/-! ### Markup -/

theorem dropWhile_front {p : Char → Bool} {cs after : List Char} {c : Char} (dropped : cs.dropWhile p = c :: after)
    (more : List Char) : (cs ++ more).dropWhile p = c :: (after ++ more) := by
  rw [List.dropWhile_append, dropped]
  rfl

theorem markdown_append {cs : List Char} (markdown : markdownLinkAt cs = true) (more : List Char) :
    markdownLinkAt (cs ++ more) = true := by
  unfold markdownLinkAt at markdown
  split at markdown
  · split at markdown
    · rename_i dropped
      obtain ⟨after, closed⟩ := List.head?_eq_some_iff.mp (beq_iff_eq.mp markdown)
      rw [List.cons_append, markdownLinkAt, dropWhile_front dropped]
      simp [dropWhile_front closed]
    · cases markdown
  · cases markdown

/-- A tag behind its opening bracket. -/
def tagEnds (rest : List Char) : Bool :=
  rest.head?.any isSchemeLetter &&
    match rest.dropWhile fun c => isSchemeLetter c || c.isDigit || c == '-' with
    | '>' :: _ | '/' :: '>' :: _ => true
    | c :: rest => isJsSpace c && (rest.dropWhile fun c => c != '<' && c != '>').head? == some '>'
    | [] => false

theorem tagEnds_append {rest : List Char} (ends : tagEnds rest = true) (more : List Char) : tagEnds (rest ++ more) = true := by
  unfold tagEnds at ends ⊢
  rw [Bool.and_eq_true] at ends ⊢
  obtain ⟨letter, ends⟩ := ends
  refine ⟨?_, ?_⟩
  · cases rest with
    | nil => exact absurd letter (by simp)
    | cons c rest => exact letter
  · cases dropped : rest.dropWhile fun c => isSchemeLetter c || c.isDigit || c == '-' with
    | nil => simp [dropped] at ends
    | cons c after =>
      rw [dropWhile_front dropped]
      rw [dropped] at ends
      split at ends
      · rename_i closed
        rw [(List.cons.inj closed).1]
        rfl
      · rename_i closed
        obtain ⟨rfl, rfl⟩ := List.cons.inj closed
        rfl
      · rename_i d inner _ _ blank
        obtain ⟨rfl, rfl⟩ := List.cons.inj blank
        rw [Bool.and_eq_true, beq_iff_eq] at ends
        obtain ⟨closing, closed⟩ := List.head?_eq_some_iff.mp ends.2
        split
        · rfl
        · rfl
        · rename_i again
          obtain ⟨rfl, rfl⟩ := List.cons.inj again
          rw [ends.1, dropWhile_front closed]
          rfl
        · rename_i again
          cases again
      · cases ends

theorem htmlTagAt_open (rest : List Char) :
    htmlTagAt ('<' :: rest) = tagEnds (match rest with | '/' :: rest => rest | rest => rest) := rfl

theorem htmlTag_append {cs : List Char} (tag : htmlTagAt cs = true) (more : List Char) : htmlTagAt (cs ++ more) = true := by
  cases cs with
  | nil => cases tag
  | cons c rest =>
    by_cases bracket : c = '<'
    · subst bracket
      rw [List.cons_append, htmlTagAt_open]
      rw [htmlTagAt_open] at tag
      split at tag
      · exact tagEnds_append tag more
      · rename_i opened
        split
        · rename_i inner closed
          cases rest with
          | nil => cases tag
          | cons d rest =>
            obtain ⟨rfl, -⟩ := List.cons.inj closed
            exact absurd rfl (opened rest)
        · exact tagEnds_append tag more
    · unfold htmlTagAt at tag
      split at tag
      · rename_i same
        exact absurd (List.cons.inj same).1 bracket
      · cases tag

/-! ### Links and schemes -/

section
variable {sourceLinks : List (List Char)} {cs more : List Char}

theorem mem_links_cut {p : Nat} {link : Link} : (p, link) ∈ matchAll absoluteUrl 0 0 none cs ↔
    ∃ whole, (p, whole) ∈ matchAll absoluteUrl 0 0 none (cs ++ more) ∧ p + (whole.scheme.length + 4) ≤ cs.length ∧
      link = ⟨whole.scheme, whole.text.take (cs.length - p)⟩ := by
  rw [@matchAll_cut _ _ _ _ absoluteUrl_cuttable 0 0 0 none cs more (Or.inl rfl), List.mem_filterMap, Nat.zero_add]
  constructor
  · rintro ⟨⟨q, whole⟩, member, found⟩
    unfold cutMatch at found
    split at found
    · rename_i enough
      obtain ⟨rfl, rfl⟩ := Prod.mk.inj (Option.some.inj found)
      exact ⟨whole, member, enough, rfl⟩
    · cases found
  · rintro ⟨whole, member, enough, rfl⟩
    exact ⟨(p, whole), member, if_pos enough⟩

theorem mem_schemes_cut {p : Nat} {scheme : List Char} (member : (p, scheme) ∈ matchAll bareScheme 0 0 none cs) (more : List Char) :
    (p, scheme) ∈ matchAll bareScheme 0 0 none (cs ++ more) ∧ p + (scheme.length + 2) ≤ cs.length := by
  rw [@matchAll_cut _ _ _ _ bareScheme_cuttable 0 0 0 none cs more (Or.inl rfl), List.mem_filterMap, Nat.zero_add] at member
  obtain ⟨⟨q, whole⟩, member, found⟩ := member
  unfold cutMatch at found
  split at found
  · rename_i enough
    obtain ⟨rfl, rfl⟩ := Prod.mk.inj (Option.some.inj found)
    exact ⟨member, enough⟩
  · cases found

/-- No link that the cut runs through is left a `wa.me` link of its own. -/
def CutLinks (sourceLinks : List (List Char)) (cs more : List Char) : Prop :=
  ∀ found ∈ matchAll absoluteUrl 0 0 none (cs ++ more), found.1 < cs.length → cs.length < found.1 + found.2.text.length →
    isInvite (found.2.text.take (cs.length - found.1)) = true → found.2.text.take (cs.length - found.1) ∈ sourceLinks

theorem web_letters {scheme : List Char} (web : isWeb scheme = true) : ∀ c ∈ scheme, isSchemeLetter c = true := by
  have letters : ∀ name ∈ ["https".toList, "http".toList], name.all Char.isAlpha = true := by decide
  have named : lowerScheme scheme ∈ ["https".toList, "http".toList] := by simpa [isWeb] using web
  intro c member
  have alpha := List.all_eq_true.mp (letters _ named) _ (List.mem_map_of_mem member)
  by_cases kelvin : c.toNat = 0x212A
  · simp [isSchemeLetter, kelvin]
  · rw [if_neg kelvin] at alpha
    simp [isSchemeLetter, alpha_of_toLower alpha]

theorem web_allowed {scheme : List Char} (web : isWeb scheme = true) : lowerScheme scheme ∈ allowedSchemes := by
  have named : lowerScheme scheme = "https".toList ∨ lowerScheme scheme = "http".toList := by simpa [isWeb] using web
  rcases named with named | named <;> rw [named] <;> decide

theorem takeWhile_scheme {scheme : List Char} (chars : ∀ c ∈ scheme, isSchemeChar c = true) (after : List Char) :
    (scheme ++ ':' :: after).takeWhile isSchemeChar = scheme := by
  have colon : isSchemeChar ':' = false := by decide
  rw [List.takeWhile_append_of_pos chars, List.takeWhile_cons_of_neg (by rw [colon]; exact Bool.false_ne_true), List.append_nil]

/-- A scheme that stands in the scheme of a link, where no word goes on, is that scheme. -/
theorem own_scheme {front rest front' rest' scheme name : List Char} (same : front ++ rest = front' ++ rest')
    (letters : ∀ c ∈ scheme, isSchemeLetter c = true) (marked : ∃ after, rest = scheme ++ ':' :: after)
    (lawful : Scheme front'.getLast? name) (named : ∃ after, rest' = name ++ ':' :: after)
    (behind : front.length ≤ front'.length) (within : front'.length ≤ front.length + scheme.length) : name = scheme := by
  obtain ⟨after, rfl⟩ := marked
  obtain ⟨after', rfl⟩ := named
  have chars : ∀ c ∈ scheme, isSchemeChar c = true := fun c member => by simp [isSchemeChar, letters c member]
  obtain ⟨mid, rfl⟩ := front_of_append same.symm behind
  rw [List.append_assoc, List.append_cancel_left_eq] at same
  obtain ⟨tail, rfl⟩ := front_of_append same (by simpa using within)
  rw [List.append_assoc, List.append_cancel_left_eq] at same
  have equal : tail = name := by
    have heads := congrArg (List.takeWhile isSchemeChar) same
    rwa [takeWhile_scheme (fun c member => chars c (List.mem_append_right _ member)), takeWhile_scheme lawful.chars] at heads
  cases mid.eq_nil_or_concat with
  | inl empty => rw [empty, equal, List.nil_append]
  | inr ends =>
    obtain ⟨front'', c, rfl⟩ := ends
    have boundary := lawful.boundary
    rw [List.concat_eq_append, ← List.append_assoc, List.getLast?_concat, Option.any_some, isSchemeWord,
      letters c (by simp)] at boundary
    cases boundary

theorem passes_cut (passes : Passes sourceLinks (cs ++ more)) (nonempty : cs ≠ []) :
    Passes sourceLinks cs ↔ looksLikeToolJson cs = false ∧ CutLinks sourceLinks cs more := by
  constructor
  · intro cut
    refine ⟨cut.json, ?_⟩
    rintro ⟨p, link⟩ member before past invite
    have enough : p + (link.scheme.length + 4) ≤ cs.length := by
      obtain ⟨front, rest, length, -, -, here⟩ := find_of_mem member
      obtain ⟨lawful, text, -, c, after, -, rfl⟩ := absoluteUrl_eq_some.mp here
      rw [takeWhile_link _ lawful.chars] at text
      obtain ⟨scheme, host, tail, split, -, host_eq⟩ := isInvite_iff.mp invite
      by_contra short
      dsimp only at before split
      refine scheme_lost lawful.chars (n := 4) ((List.take_append_drop (cs.length - p) link.text).trans text)
        (by rw [List.length_take]; omega) (List.nil_append _).symm ⟨_, split, ?_⟩
      cases host with
      | nil => cases host_eq
      | cons d host =>
        simp only [List.length_cons, List.length_append]
        omega
    have kept := mem_links_cut.mpr ⟨link, member, enough, rfl⟩
    exact (safe_link.mp (cut.links _ kept)).2 invite
  · rintro ⟨json, links⟩
    refine ⟨nonempty, ?_, ?_, json, ?_, ?_⟩
    · have free := @control_take (cs ++ more) [] passes.plain rfl (by simp) cs.length
      rwa [List.take_left, List.append_nil] at free
    · rintro ⟨p, link⟩ member
      obtain ⟨whole, found, enough, rfl⟩ := (@mem_links_cut cs more p link).mp member
      have safe := safe_link.mp (passes.links _ found)
      refine safe_link.mpr ⟨safe.1, fun invite => ?_⟩
      by_cases past : cs.length < p + whole.text.length
      · exact links _ found (by dsimp only; omega) past invite
      · dsimp only at invite ⊢
        rw [List.take_of_length_le (by omega)] at invite ⊢
        exact safe.2 invite
    · rintro ⟨p, scheme⟩ member
      obtain ⟨found, enough⟩ := mem_schemes_cut member more
      obtain ⟨front', rest', length', split', place', here'⟩ := find_of_mem found
      rw [lastOf_none] at here'
      obtain ⟨lawful, -, c, after', -, named⟩ := bareScheme_eq_some.mp here'
      rcases passes.schemes _ found with inside | allowed
      · obtain ⟨⟨start, whole⟩, link, bounds⟩ := List.any_eq_true.mp inside
        simp only [Bool.and_eq_true, decide_eq_true_eq] at bounds
        by_cases kept : start + (whole.scheme.length + 4) ≤ cs.length
        · refine Or.inl (List.any_eq_true.mpr ⟨_, mem_links_cut.mpr ⟨whole, link, kept, rfl⟩, ?_⟩)
          simp only [Bool.and_eq_true, decide_eq_true_eq, List.length_take]
          omega
        · obtain ⟨front, rest, length, split, place, here⟩ := find_of_mem link
          obtain ⟨-, -, -, d, after, -, marked⟩ := absoluteUrl_eq_some.mp here
          have web : isWeb whole.scheme = true := (safe_link.mp (passes.links _ link)).1
          have some_ : 0 < scheme.length := List.length_pos_of_ne_nil fun empty => by
            have letter := lawful.letter
            rw [empty] at letter
            cases letter
          have own := own_scheme (split.symm.trans split') (web_letters web) ⟨_, marked⟩ lawful ⟨_, named⟩ (by omega) (by omega)
          exact Or.inr (own ▸ web_allowed web)
      · exact Or.inr allowed
    · rintro tail ⟨front, rfl⟩
      have whole : tail ++ more <:+ front ++ tail ++ more := ⟨front, by rw [List.append_assoc]⟩
      obtain ⟨tag, markdown⟩ := passes.markup _ whole
      exact ⟨Bool.eq_false_iff.mpr fun here => Bool.eq_false_iff.mp tag (htmlTag_append here more),
        Bool.eq_false_iff.mpr fun here => Bool.eq_false_iff.mp markdown (markdown_append here more)⟩

end

end GroupButler.Ai
