import GroupButler.Ai.Body
import GroupButler.Ai.Cut
import GroupButler.Foundation.Windows

/-!
# Text that has been through the boundary

What the boundary and the gate return, put through them once more.
-/

namespace GroupButler.Ai
open Foundation

/-! ### Normalisation form C -/

/-- The text is in NFC. -/
def InNfc [Normalization] (cs : List Char) : Prop := Normalization.nfc (String.ofList cs) = String.ofList cs

/-- What Unicode says of NFC. A starter has the canonical combining class zero. -/
class Composition extends Normalization where
  starter : Char → Bool
  newline : starter '\n' = true
  nfc_nfc : ∀ s, nfc (nfc s) = nfc s
  nfc_back : ∀ cs ds, InNfc (cs ++ ds) → InNfc ds
  nfc_iff : ∀ cs, InNfc cs ↔ Settled InNfc starter [] cs

def pointChar : CodePoint → Option Char
  | .scalar c => some c
  | .surrogate _ => none

section
variable [Composition]

/-- Where the boundary took something out between a starter and what follows it, up to the next one, the rest of
that stretch is in NFC. -/
def Apart (units : List Nat) : Prop :=
  Joined InNfc Composition.starter keptPoint [] false (nfcPoints [] (codePoints units))

theorem settled_nfc (s : String) : Settled InNfc Composition.starter [] (Normalization.nfc s).toList := by
  apply (Composition.nfc_iff _).mp
  rw [InNfc, String.ofList_toList]
  exact Composition.nfc_nfc s

theorem runsSettled_scalars (window cs : List Char) (rest : List CodePoint) (later : RunsSettled InNfc Composition.starter pointChar [] rest)
    (closed : rest = [] ∨ ∃ unit tail, rest = .surrogate unit :: tail)
    (settled : Settled InNfc Composition.starter window cs) :
    RunsSettled InNfc Composition.starter pointChar window (cs.map .scalar ++ rest) := by
  induction cs generalizing window with
  | nil =>
    rcases closed with rfl | ⟨unit, tail, rfl⟩
    · trivial
    · exact later
  | cons c cs ih => exact ⟨settled.1, ih _ settled.2⟩

theorem runsSettled_nfcPoints (run : List Char) (points : List CodePoint) :
    RunsSettled InNfc Composition.starter pointChar [] (nfcPoints run points) := by
  induction points generalizing run with
  | nil =>
    have settled := runsSettled_scalars [] _ [] trivial (Or.inl rfl) (settled_nfc (String.ofList run))
    rwa [List.append_nil] at settled
  | cons point points ih =>
    cases point with
    | scalar c => exact ih (run ++ [c])
    | surrogate unit => exact runsSettled_scalars [] _ _ (ih []) (Or.inr ⟨unit, _, rfl⟩) (settled_nfc _)

omit [Composition] in
theorem kept_char {point : CodePoint} {c : Char} (kept : keptPoint point = some c) :
    pointChar point = some c ∧ isControl c = false ∧ isForbiddenFormat c = false := by
  cases point with
  | surrogate unit => cases kept
  | scalar d =>
    rw [keptPoint] at kept
    split at kept
    · cases kept
    · rename_i visible
      obtain rfl := Option.some.inj kept
      exact ⟨rfl, by simpa using visible⟩

/-- What the boundary returns is in NFC exactly where nothing it took out stood apart. -/
theorem nfc_normalized_iff (units : List Nat) : InNfc (normalizeUntrustedUnits units).toList ↔ Apart units := by
  rw [Composition.nfc_iff, normalizeUntrustedUnits, String.toList_ofList]
  exact settled_filterMap (fun _ _ kept => (kept_char kept).1) (runsSettled_nfcPoints [] _) fun _ => rfl

theorem normalized_visible {units : List Nat} {c : Char} (member : c ∈ (normalizeUntrustedUnits units).toList) :
    isControl c = false ∧ isForbiddenFormat c = false := by
  rw [normalizeUntrustedUnits, String.toList_ofList] at member
  obtain ⟨point, -, kept⟩ := List.mem_filterMap.mp member
  exact (kept_char kept).2

theorem normalize_self {text : String} (nfc : InNfc text.toList)
    (visible : ∀ c ∈ text.toList, isControl c = false ∧ isForbiddenFormat c = false) : normalizeUntrustedText text = text := by
  rw [InNfc, String.ofList_toList] at nfc
  rw [normalizeUntrustedText, nfc, List.filter_eq_self.mpr fun c member => by simp [visible c member], String.ofList_toList]

/-! ### The body -/

theorem settled_collapse {fuel : Nat} {window cs : List Char} (settled : Settled InNfc Composition.starter window cs) :
    Settled InNfc Composition.starter window (collapseBlankLines fuel cs) := by
  have ascii : InNfc ['\n', '\n'] := Normalization.nfc_ascii _ (forall_mem_of_all (by decide))
  induction fuel generalizing window cs with
  | zero => exact settled
  | succ fuel ih =>
    cases cs with
    | nil => exact settled
    | cons c cs =>
      by_cases newline : c = '\n'
      · subst newline
        have behind : stretch Composition.starter window '\n' = ['\n'] := if_pos Composition.newline
        have again : stretch Composition.starter ['\n'] '\n' = ['\n'] := if_pos Composition.newline
        obtain ⟨here, rest⟩ := settled
        rw [collapse_newline]
        split
        · rename_i lines
          obtain ⟨front, split⟩ := blankLines_split (Nat.lt_of_lt_of_le Nat.zero_lt_two lines)
          rw [split] at rest
          refine ⟨here, ?_⟩
          rw [behind]
          refine ⟨ascii, ?_⟩
          rw [again]
          exact ih (settled_behind Composition.newline rest)
        · exact ⟨here, ih rest⟩
      · rw [collapse_other newline]
        exact ⟨settled.1, ih settled.2⟩

/-! ### Once more -/

/-- What the boundary promises of a text. -/
structure Normal (text : String) : Prop where
  nfc : Normalization.nfc text = text
  wellFormed : WellFormed (utf16 text)
  visible : ∀ c ∈ text.toList, isControl c = false ∧ isForbiddenFormat c = false
  again : normalizeUntrustedText text = text

/-- The boundary's text is normal, and the gate returns its own output as it is. -/
def FixedPoint (units : List Nat) (sourceLinks : List (List Char)) : Prop :=
  Normal (normalizeUntrustedUnits units) ∧
    ∀ out, sanitizeWhatsAppUnits units sourceLinks = .ok out → sanitizeWhatsAppOutput out sourceLinks = .ok out

/-- The cut leaves no white space at the end, no JSON, and no link that is not supplied. -/
structure CutClean (sourceLinks : List (List Char)) (shown beyond : List Char) : Prop where
  last : ∀ c ∈ shown.getLast?, isJsSpace c = false
  json : looksLikeToolJson shown = false
  links : CutLinks sourceLinks shown beyond

theorem normal_iff (units : List Nat) : Normal (normalizeUntrustedUnits units) ↔ Apart units := by
  rw [← nfc_normalized_iff, InNfc, String.ofList_toList]
  constructor
  · exact Normal.nfc
  · intro nfc
    have visible : ∀ c ∈ (normalizeUntrustedUnits units).toList, isControl c = false ∧ isForbiddenFormat c = false :=
      fun c member => normalized_visible member
    exact ⟨nfc, wellFormed_utf16 _, visible, normalize_self (by rwa [InNfc, String.ofList_toList]) visible⟩

/-- The front of the body of a text in NFC is in NFC. -/
theorem body_nfc {normalized : String} {front back : List Char} (nfc : InNfc normalized.toList)
    (body : (trimmedBody normalized).toList = front ++ back) : InNfc front := by
  obtain ⟨before, after, split⟩ := body_part normalized
  have settled := @settled_collapse _ normalized.toList.length _ _ ((Composition.nfc_iff _).mp nfc)
  rw [split, body] at settled
  exact (Composition.nfc_iff _).mpr (settled_front (settled_back Composition.nfc_back (settled_front settled)))

omit [Composition] in
theorem trim_eq_iff {s : String} (first : ∀ c ∈ s.toList.head?, isJsSpace c = false) :
    jsTrim s = s ↔ ∀ c ∈ s.toList.getLast?, isJsSpace c = false := by
  constructor
  · intro same
    rw [← same]
    exact getLast_trimChars isJsSpace s
  · exact trimChars_of_ends first

omit [Composition] in
/-- What a cut and trimmed text is checked to be is the text itself, or it is not the text. -/
theorem checkBody_self {sourceLinks : List (List Char)} {s : String} (short : s.toList.length ≤ maxScalars) :
    checkBody sourceLinks (jsTrim s) = .ok s ↔ jsTrim s = s ∧ Passes sourceLinks s.toList := by
  rw [checkBody_eq_ok]
  constructor
  · rintro ⟨passes, same⟩
    obtain ⟨front, back, split⟩ := trimChars_split isJsSpace s
    have lengths := congrArg List.length split
    have kept := congrArg List.length (String.toList_inj.mpr same)
    rw [String.toList_ofList, List.length_take] at kept
    rw [List.length_append, List.length_append] at lengths
    have trimmed : (trimChars isJsSpace s).toList.length = (jsTrim s).toList.length := rfl
    obtain rfl := List.length_eq_zero_iff.mp (show front.length = 0 by omega)
    obtain rfl := List.length_eq_zero_iff.mp (show back.length = 0 by omega)
    rw [List.nil_append, List.append_nil] at split
    have whole : jsTrim s = s := String.toList_inj.mp split.symm
    exact ⟨whole, whole ▸ passes⟩
  · rintro ⟨whole, passes⟩
    rw [whole, List.take_of_length_le short, String.ofList_toList]
    exact ⟨passes, rfl⟩

/-- The gate takes the front of a body for what it is, unless the cut made it another. -/
theorem again_front {sourceLinks : List (List Char)} {normalized : String} {shown beyond : List Char}
    (nfc : InNfc normalized.toList) (visible : ∀ c ∈ normalized.toList, isControl c = false ∧ isForbiddenFormat c = false)
    (body : (trimmedBody normalized).toList = shown ++ beyond) (passes : Passes sourceLinks (shown ++ beyond))
    (nonempty : shown ≠ []) (short : shown.length ≤ maxScalars) :
    sanitizeWhatsAppOutput (String.ofList shown) sourceLinks = .ok (String.ofList shown) ↔
      CutClean sourceLinks shown beyond := by
  have same : normalizeUntrustedText (String.ofList shown) = String.ofList shown := by
    apply normalize_self
    · rw [String.toList_ofList]
      exact body_nfc nfc body
    · intro c member
      rw [String.toList_ofList] at member
      exact visible c (mem_body (body ▸ List.mem_append_left beyond member))
  have collapsed : Collapsed (String.ofList shown).toList := by
    rw [String.toList_ofList]
    exact (show Collapsed ([] ++ shown ++ beyond) from body ▸ body_collapsed normalized).part
  have first : ∀ c ∈ (String.ofList shown).toList.head?, isJsSpace c = false := by
    intro c member
    rw [String.toList_ofList] at member
    apply head_trimChars isJsSpace _ c
    exact (show c ∈ (trimmedBody normalized).toList.head? from body ▸ List.mem_head?_append_of_mem_head? member)
  rw [sanitize_eq, same, trimmedBody_collapsed collapsed, checkBody_self (by rwa [String.toList_ofList]), trim_eq_iff first,
    String.toList_ofList, passes_cut passes nonempty]
  exact ⟨fun clean => ⟨clean.1, clean.2.1, clean.2.2⟩, fun clean => ⟨clean.last, clean.json, clean.links⟩⟩

omit [Composition] in
/-- A body that is not cut is clean. -/
theorem clean_whole {sourceLinks : List (List Char)} {normalized : String} (passes : Passes sourceLinks (trimmedBody normalized).toList) :
    CutClean sourceLinks (trimmedBody normalized).toList [] where
  last := getLast_trimChars isJsSpace _
  json := passes.json
  links := by
    rintro ⟨p, link⟩ member before past -
    rw [List.append_nil] at member
    obtain ⟨front, rest, length, split, place, here⟩ := find_of_mem member
    obtain ⟨-, text, -⟩ := absoluteUrl_eq_some.mp here
    have bound := (List.takeWhile_sublist isLinkChar (l := rest)).length_le
    have whole := congrArg List.length split
    rw [List.length_append] at whole
    rw [← text] at bound
    dsimp only at past
    omega

/-- What the gate has returned of a text in NFC it returns again, unless the cut made it another. -/
theorem again_iff {units : List Nat} {sourceLinks : List (List Char)} {out : String} (apart : Apart units)
    (accepted : sanitizeWhatsAppUnits units sourceLinks = .ok out) :
    sanitizeWhatsAppOutput out sourceLinks = .ok out ↔
      (maxScalars < (bodyOf units).length →
        CutClean sourceLinks ((bodyOf units).take maxScalars) ((bodyOf units).drop maxScalars)) := by
  obtain ⟨passes, rfl⟩ := checkBody_eq_ok.mp accepted
  have body : (trimmedBody (normalizeUntrustedUnits units)).toList = bodyOf units := rfl
  rw [body] at passes ⊢
  have split : bodyOf units = (bodyOf units).take maxScalars ++ (bodyOf units).drop maxScalars :=
    (List.take_append_drop _ _).symm
  have nonempty : (bodyOf units).take maxScalars ≠ [] := by
    have positive : maxScalars ≠ 0 := by decide
    simp [passes.nonempty, positive]
  have parts : Passes sourceLinks ((bodyOf units).take maxScalars ++ (bodyOf units).drop maxScalars) := by
    rwa [List.take_append_drop]
  have clean := again_front ((nfc_normalized_iff units).mpr apart) (fun c member => normalized_visible member) (body.trans split)
    parts nonempty (List.length_take_le _ _)
  rw [clean]
  constructor
  · exact fun clean _ => clean
  · intro cut
    by_cases long : maxScalars < (bodyOf units).length
    · exact cut long
    · rw [List.take_of_length_le (Nat.le_of_not_lt long), List.drop_of_length_le (Nat.le_of_not_lt long)]
      exact clean_whole passes

end

/-! ### An accent behind a joiner -/

/-- No e is followed by the accent that composes with it. -/
def Unaccented (cs : List Char) : Prop := cs.IsChain fun c d => ¬ (c = 'e' ∧ d = '\u0301')

theorem composeAcute_eq_iff {cs : List Char} : composeAcute cs = cs ↔ Unaccented cs := by
  unfold Unaccented
  fun_induction composeAcute cs with
  | case1 => simp
  | case2 => simp
  | case3 c d rest accent ih =>
    have other : 'é' ≠ c := by
      rw [accent.1]
      decide
    exact iff_of_false (fun same => other (List.cons.inj same).1) fun chain => (List.isChain_cons_cons.mp chain).1 accent
  | case4 c d rest plain ih => rw [List.cons.injEq, ih, List.isChain_cons_cons, and_iff_right rfl, and_iff_right plain]

theorem head_composeAcute (c : Char) (cs : List Char) :
    (composeAcute (c :: cs)).head? = some c ∨ (composeAcute (c :: cs)).head? = some 'é' := by
  cases cs with
  | nil => exact Or.inl rfl
  | cons d rest =>
    rw [composeAcute]
    split
    · exact Or.inr rfl
    · exact Or.inl rfl

theorem unaccented_composeAcute (cs : List Char) : Unaccented (composeAcute cs) := by
  unfold Unaccented
  fun_induction composeAcute cs with
  | case1 => exact List.IsChain.nil
  | case2 c => exact List.IsChain.singleton c
  | case3 c d rest accent ih =>
    apply ih.cons
    rintro x - ⟨same, -⟩
    exact absurd same (by decide)
  | case4 c d rest plain ih =>
    apply ih.cons
    rintro x first ⟨rfl, rfl⟩
    rcases head_composeAcute d rest with same | same
    · rw [same] at first
      exact plain ⟨rfl, Option.some.inj first⟩
    · rw [same] at first
      exact absurd (Option.some.inj first) (by decide)

theorem inNfc_acute (cs : List Char) : @InNfc acuteNormalization cs ↔ Unaccented cs := by
  have composed : @InNfc acuteNormalization cs ↔ String.ofList (composeAcute (String.ofList cs).toList) = String.ofList cs := Iff.rfl
  rw [composed, String.toList_ofList, String.ofList_inj, composeAcute_eq_iff]

@[reducible] def acuteComposition : Composition where
  toNormalization := acuteNormalization
  starter c := c ≠ '\u0301'
  newline := by decide
  nfc_nfc s := by
    show String.ofList (composeAcute (String.ofList (composeAcute s.toList)).toList) = String.ofList (composeAcute s.toList)
    rw [String.toList_ofList, composeAcute_eq_iff.mpr (unaccented_composeAcute s.toList)]
  nfc_back cs ds composed := by
    rw [inNfc_acute] at composed ⊢
    exact composed.right_of_append
  nfc_iff cs := by
    have form : @InNfc acuteNormalization = List.IsChain fun c d => ¬ (c = 'e' ∧ d = '\u0301') :=
      funext fun cs => propext (inNfc_acute cs)
    rw [form]
    exact (settled_isChain List.IsChain.nil).symm

end GroupButler.Ai
