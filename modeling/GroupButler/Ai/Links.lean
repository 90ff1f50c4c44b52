import GroupButler.Ai.Points
import GroupButler.Foundation.Uri
import Mathlib.Data.List.DropRight

/-!
# The links of an accepted text

The gate looks at the links its scan sees. The scan passes by what follows a word character and what an earlier
link runs into, and the text is cut once its links are looked at.
-/

namespace GroupButler.Ai
open Foundation

/-! ### Links as a reader sees them -/

/-- A `wa.me` link at the front of a text, in any letter case. -/
def isInvite (cs : List Char) : Bool := isWhatsAppLink ⟨[], cs⟩

/-- The scheme a text ends in. -/
def schemeBefore (front : List Char) : List Char := (front.rtakeWhile isSchemeChar).dropWhile fun c => !isSchemeLetter c

def isWeb (scheme : List Char) : Bool := lowerScheme scheme == "https".toList || lowerScheme scheme == "http".toList

/-- Every `wa.me` link is one of the sources', and every scheme in front of `://` is `http` or `https`. -/
structure SafeLinks (sourceLinks : List (List Char)) (cs : List Char) : Prop where
  invites : ∀ front rest, cs = front ++ rest → isInvite rest = true → rest.takeWhile isLinkChar ∈ sourceLinks
  schemes : ∀ front rest, cs = front ++ "://".toList ++ rest → schemeBefore front ≠ [] → isWeb (schemeBefore front) = true

theorem safe_link {sourceLinks : List (List Char)} {link : Link} :
    unsafeLink sourceLinks link = false ↔ isWeb link.scheme = true ∧ (isInvite link.text = true → link.text ∈ sourceLinks) := by
  have invite : isWhatsAppLink link = isInvite link.text := rfl
  simp only [unsafeLink, invite, Bool.or_eq_false_iff, Bool.and_eq_false_iff, bne_eq_false_iff_eq, Bool.not_eq_false',
    List.contains_iff_mem, isWeb, Bool.or_eq_true, beq_iff_eq]
  refine and_congr Iff.rfl ?_
  cases isInvite link.text <;> simp

/-! ### What the scan sees -/

/-- A word goes on at this place, or an earlier link does. -/
def Unseen (front rest : List Char) : Prop :=
  front.getLast?.any isSchemeWord = true ∨
    ∃ start mid, front = start ++ mid ∧ mid ≠ [] ∧ (absoluteUrl start.getLast? (mid ++ rest)).isSome = true ∧
      ∀ c ∈ mid, isLinkChar c = true

theorem all_of_takeWhile {p : Char → Bool} {mid rest : List Char} (long : mid.length ≤ ((mid ++ rest).takeWhile p).length) :
    ∀ c ∈ mid, p c = true := by
  induction mid with
  | nil => simp
  | cons d mid ih =>
    cases holds : p d with
    | false => simp [holds] at long
    | true =>
      rw [List.cons_append, List.takeWhile_cons_of_pos holds] at long
      intro c member
      rcases List.mem_cons.mp member with rfl | member
      · exact holds
      · exact ih (Nat.le_of_succ_le_succ long) c member

/-- A link is found unless it is passed by. -/
theorem link_found {front rest : List Char} {link : Link} {length : Nat} (here : absoluteUrl front.getLast? rest = some (link, length))
    (seen : ¬ Unseen front rest) : (front.length, link) ∈ matchAll absoluteUrl 0 0 none (front ++ rest) := by
  have nonempty : rest ≠ [] := by
    obtain ⟨-, -, -, c, tail, -, whole⟩ := absoluteUrl_eq_some.mp here
    rw [whole]
    simp
  rw [← lastOf_none] at here
  have found := @matchAll_finds _ absoluteUrl 0 0 length none front rest link here nonempty (Nat.zero_le _)
  rw [Nat.zero_add] at found
  rcases found with member | ⟨start, mid, other, reach, split, moved, earlier, inside⟩
  · exact member
  · rw [lastOf_none] at earlier
    obtain ⟨-, text, rfl, -⟩ := absoluteUrl_eq_some.mp earlier
    rw [text] at inside
    exact absurd (Or.inr ⟨start, mid, split, moved, by rw [earlier]; rfl, all_of_takeWhile inside.le⟩) seen

/-! ### Invites -/

def foldChar (c : Char) : Char := if c.toNat = 0x17F then 's' else c.toLower

theorem alpha_of_toLower {c : Char} (alpha : c.toLower.isAlpha = true) : c.isAlpha = true := by
  by_cases upper : c.isUpper = true
  · exact isAlpha_iff.mpr (Or.inl upper)
  · rwa [toLower_of_not_upper upper] at alpha

theorem letter_of_fold {c : Char} (alpha : (foldChar c).isAlpha = true) : isSchemeLetter c = true := by
  unfold foldChar at alpha
  split at alpha
  · rename_i long
    simp [isSchemeLetter, long]
  · simp [isSchemeLetter, alpha_of_toLower alpha]

theorem mark_of_fold {c d : Char} (fold : foldChar c = d) (mark : d.toNat < 97) : c = d := by
  unfold foldChar at fold
  split at fold
  · subst fold
    exact absurd mark (by decide)
  · exact eq_of_toLower fold mark

/-- The characters in front of a `wa.me` link's path. -/
theorem isInvite_iff {cs : List Char} : isInvite cs = true ↔
    ∃ scheme host tail, cs = scheme ++ ':' :: '/' :: '/' :: (host ++ tail) ∧
      scheme.map foldChar ∈ ["http".toList, "https".toList] ∧ host.map foldChar = "wa.me/".toList := by
  have fold : isInvite cs = ("http://wa.me/".toList.isPrefixOf (cs.map foldChar) || "https://wa.me/".toList.isPrefixOf (cs.map foldChar)) :=
    rfl
  have front (name : List Char) : name ++ ':' :: '/' :: '/' :: "wa.me/".toList <+: cs.map foldChar ↔
      ∃ scheme host tail, cs = scheme ++ ':' :: '/' :: '/' :: (host ++ tail) ∧ scheme.map foldChar = name ∧
        host.map foldChar = "wa.me/".toList := by
    constructor
    · rintro ⟨tail, whole⟩
      obtain ⟨read, tail, rfl, folded, -⟩ := List.map_eq_append_iff.mp whole.symm
      obtain ⟨scheme, marked, rfl, scheme_eq, marks⟩ := List.map_eq_append_iff.mp folded
      obtain ⟨colon, marked, rfl, colon_eq, marks⟩ := List.map_eq_cons_iff.mp marks
      obtain ⟨slash, marked, rfl, slash_eq, marks⟩ := List.map_eq_cons_iff.mp marks
      obtain ⟨slash', host, rfl, slash'_eq, host_eq⟩ := List.map_eq_cons_iff.mp marks
      refine ⟨scheme, host, tail, ?_, scheme_eq, host_eq⟩
      rw [mark_of_fold colon_eq (by decide), mark_of_fold slash_eq (by decide), mark_of_fold slash'_eq (by decide)]
      simp
    · rintro ⟨scheme, host, tail, rfl, rfl, host_eq⟩
      refine ⟨tail.map foldChar, ?_⟩
      have marks : foldChar ':' = ':' ∧ foldChar '/' = '/' := by decide
      simp [marks, host_eq]
  have http := front "http".toList
  have https := front "https".toList
  rw [fold, Bool.or_eq_true, List.isPrefixOf_iff_prefix, List.isPrefixOf_iff_prefix]
  constructor
  · rintro (plain | secure)
    · obtain ⟨scheme, host, tail, whole, name, host_eq⟩ := http.mp plain
      exact ⟨scheme, host, tail, whole, by simp [name], host_eq⟩
    · obtain ⟨scheme, host, tail, whole, name, host_eq⟩ := https.mp secure
      exact ⟨scheme, host, tail, whole, by simp [name], host_eq⟩
  · rintro ⟨scheme, host, tail, whole, name, host_eq⟩
    rcases List.mem_cons.mp name with name | name
    · exact Or.inl (http.mpr ⟨scheme, host, tail, whole, name, host_eq⟩)
    · exact Or.inr (https.mpr ⟨scheme, host, tail, whole, List.mem_singleton.mp name, host_eq⟩)

theorem scheme_of_fold {scheme : List Char} (name : scheme.map foldChar ∈ ["http".toList, "https".toList]) :
    scheme ≠ [] ∧ ∀ c ∈ scheme, isSchemeLetter c = true := by
  have letters : ∀ name ∈ ["http".toList, "https".toList], name ≠ [] ∧ name.all Char.isAlpha = true := by decide
  obtain ⟨nonempty, alpha⟩ := letters _ name
  refine ⟨fun empty => nonempty (by rw [empty, List.map_nil]), fun c member => letter_of_fold (List.all_eq_true.mp alpha _ ?_)⟩
  exact List.mem_map_of_mem member

theorem host_of_fold {host : List Char} (name : host.map foldChar = "wa.me/".toList) :
    ∀ c ∈ host, isLinkChar c = true := by
  have marks : ∀ c ∈ "wa.me/".toList, c.isAlpha = true ∨ c.toNat < 97 ∧ isLinkChar c = true := forall_mem_of_all (by decide)
  intro c member
  rcases marks (foldChar c) (name ▸ List.mem_map_of_mem member) with alpha | ⟨mark, visible⟩
  · exact schemeChar_link (by simp [isSchemeChar, letter_of_fold alpha])
  · rwa [mark_of_fold rfl mark]

theorem isInvite_append {cs : List Char} (invite : isInvite cs = true) (more : List Char) : isInvite (cs ++ more) = true := by
  obtain ⟨scheme, host, tail, rfl, name, host_eq⟩ := isInvite_iff.mp invite
  exact isInvite_iff.mpr ⟨scheme, host, tail ++ more, by simp, name, host_eq⟩

/-- Where no word goes on, the scan reads an invite, up to where it ends. -/
theorem invite_read {before : Option Char} {cs : List Char} (invite : isInvite cs = true)
    (boundary : before.any isSchemeWord = false) :
    ∃ link, absoluteUrl before cs = some (link, link.text.length) ∧ link.text = cs.takeWhile isLinkChar ∧
      isInvite link.text = true := by
  obtain ⟨scheme, host, tail, rfl, name, host_eq⟩ := isInvite_iff.mp invite
  obtain ⟨nonempty, letters⟩ := scheme_of_fold name
  have chars : ∀ c ∈ scheme, isSchemeChar c = true := fun c member => by simp [isSchemeChar, letters c member]
  have visible := host_of_fold host_eq
  have run : (scheme ++ ':' :: '/' :: '/' :: (host ++ tail)).takeWhile isLinkChar =
      scheme ++ ':' :: '/' :: '/' :: (host ++ tail.takeWhile isLinkChar) := by
    rw [takeWhile_link _ chars, List.takeWhile_append_of_pos visible]
  refine ⟨⟨scheme, _⟩, absoluteUrl_eq_some.mpr ⟨⟨boundary, ?_, chars⟩, rfl, rfl, ?_⟩, rfl, ?_⟩
  · cases scheme with
    | nil => exact absurd rfl nonempty
    | cons c scheme => exact letters c List.mem_cons_self
  · cases host with
    | nil => cases host_eq
    | cons c host => exact ⟨c, host ++ tail, visible c List.mem_cons_self, rfl⟩
  · rw [run]
    exact isInvite_iff.mpr ⟨scheme, host, _, rfl, name, host_eq⟩

/-! ### The scheme in front of a mark -/

/-- What stands in front of the scheme a text ends in. -/
def schemeStart (front : List Char) : List Char := front.take (front.length - (schemeBefore front).length)

theorem schemeStart_append (front : List Char) : schemeStart front ++ schemeBefore front = front :=
  List.suffix_iff_eq_append.mp ((List.dropWhile_suffix _).trans (List.rtakeWhile_suffix _ front))

theorem schemeBefore_lawful {before : Option Char} {front : List Char} (named : schemeBefore front ≠ [])
    (boundary : before.any isSchemeWord = false) : Scheme before (schemeBefore front) where
  boundary := boundary
  letter := by
    obtain ⟨c, name, whole⟩ := List.exists_cons_of_ne_nil named
    have first := head_dropWhile (fun c => !isSchemeLetter c) (front.rtakeWhile isSchemeChar) c
    rw [schemeBefore] at whole
    rw [whole] at first
    rw [schemeBefore, whole]
    simpa using first rfl
  chars c member := List.mem_rtakeWhile_imp ((List.dropWhile_suffix _).subset member)

/-! ### What is passed by -/

/-- The cut runs through the link characters of this place. -/
def CutThrough (rest beyond : List Char) : Prop := (∀ c ∈ rest, isLinkChar c = true) ∧ beyond.head?.any isLinkChar = true

theorem takeWhile_uncut {rest beyond : List Char} (uncut : ¬ CutThrough rest beyond) :
    rest.takeWhile isLinkChar = (rest ++ beyond).takeWhile isLinkChar := by
  rw [List.takeWhile_append]
  split
  · rename_i all
    have same := (List.takeWhile_sublist isLinkChar).eq_of_length all
    have every : ∀ c ∈ rest, isLinkChar c = true := List.takeWhile_eq_self_iff.mp same
    have stop : beyond.takeWhile isLinkChar = [] := by
      cases beyond with
      | nil => rfl
      | cons c beyond =>
        rw [List.takeWhile_cons_of_neg]
        exact fun visible => uncut ⟨every, visible⟩
    rw [stop, List.append_nil, same]
  · rfl

/-- What the scan does not see, or sees whole before the cut, is safe by itself. -/
structure HiddenSafe (sourceLinks : List (List Char)) (shown beyond : List Char) : Prop where
  invites : ∀ front rest, shown = front ++ rest → isInvite rest = true → Unseen front (rest ++ beyond) ∨ CutThrough rest beyond →
    rest.takeWhile isLinkChar ∈ sourceLinks
  schemes : ∀ front rest, shown = front ++ "://".toList ++ rest → schemeBefore front ≠ [] →
    Unseen (schemeStart front) (schemeBefore front ++ "://".toList ++ (rest ++ beyond)) ∨
      (rest ++ beyond).head?.any isLinkChar = false → isWeb (schemeBefore front) = true

/-- The cut text of a body that passes is safe exactly where what the scan passes by is. -/
theorem safe_iff_hidden {sourceLinks : List (List Char)} {shown beyond : List Char} (passes : Passes sourceLinks (shown ++ beyond)) :
    SafeLinks sourceLinks shown ↔ HiddenSafe sourceLinks shown beyond := by
  have safe {front rest : List Char} {link : Link} {length : Nat} (whole : shown ++ beyond = front ++ rest)
      (here : absoluteUrl front.getLast? rest = some (link, length)) (seen : ¬ Unseen front rest) :
      isWeb link.scheme = true ∧ (isInvite link.text = true → link.text ∈ sourceLinks) :=
    safe_link.mp (passes.links _ (whole ▸ link_found here seen))
  constructor
  · intro safe
    exact ⟨fun front rest whole invite _ => safe.invites front rest whole invite,
      fun front rest whole named _ => safe.schemes front rest whole named⟩
  · intro hidden
    refine ⟨fun front rest whole invite => ?_, fun front rest whole named => ?_⟩
    · by_cases unseen : Unseen front (rest ++ beyond) ∨ CutThrough rest beyond
      · exact hidden.invites front rest whole invite unseen
      · obtain ⟨seen, uncut⟩ := not_or.mp unseen
        obtain ⟨boundary, -⟩ := not_or.mp seen
        obtain ⟨link, read, text, invites⟩ := invite_read (isInvite_append invite beyond) (Bool.eq_false_iff.mpr boundary)
        rw [takeWhile_uncut uncut, ← text]
        exact (safe (by rw [whole, List.append_assoc]) read seen).2 invites
    · by_cases unseen : Unseen (schemeStart front) (schemeBefore front ++ "://".toList ++ (rest ++ beyond)) ∨
          (rest ++ beyond).head?.any isLinkChar = false
      · exact hidden.schemes front rest whole named unseen
      · obtain ⟨seen, visible⟩ := not_or.mp unseen
        obtain ⟨boundary, -⟩ := not_or.mp seen
        have lawful := schemeBefore_lawful named (Bool.eq_false_iff.mpr boundary)
        have read : ∃ link length, absoluteUrl (schemeStart front).getLast?
            (schemeBefore front ++ "://".toList ++ (rest ++ beyond)) = some (link, length) ∧ link.scheme = schemeBefore front := by
          cases tail : rest ++ beyond with
          | nil => exact absurd (by rw [tail]; rfl) visible
          | cons c after =>
            rw [tail] at visible
            exact ⟨⟨schemeBefore front, _⟩, _, absoluteUrl_eq_some.mpr
              ⟨lawful, rfl, rfl, c, after, by simpa using visible, by rw [List.append_assoc]; rfl⟩, rfl⟩
        obtain ⟨link, length, read, scheme⟩ := read
        rw [← scheme]
        refine (safe ?_ read seen).1
        rw [whole, ← List.append_assoc, ← List.append_assoc (schemeStart front), schemeStart_append, List.append_assoc]

/-! ### What the gate lets through -/

section
variable [Normalization]

/-- The checked text of a string, and what is shown of it. -/
def bodyOf (units : List Nat) : List Char := (trimmedBody (normalizeUntrustedUnits units)).toList

end

def hiddenInvite : List Nat := utf16 "1https://wa.me/628"

def suppliedInvite : List Nat := utf16 "see https://wa.me/628 now"

end GroupButler.Ai
