import GroupButler.Foundation.Utf8
import GroupButler.Foundation.Path

/-!
# Percent-encoded path segments

What `encodeURIComponent` writes for a segment decodes to the segment's UTF-8 bytes, holds no slash, and
is a dot segment for a URL parser just when the segment is one.
-/

namespace GroupButler.Foundation

/-- `encodeURIComponent`, over characters. -/
def encodeChars (cs : List Char) : List Char :=
  cs.flatMap fun c => if isUriUnreserved c then [c] else (utf8Bytes c).flatMap percentEncoded

theorem toList_encodeURIComponent (s : String) : (encodeURIComponent s).toList = encodeChars s.toList :=
  String.toList_ofList

@[simp] theorem encodeChars_nil : encodeChars [] = [] := rfl

theorem encodeChars_cons (c : Char) (cs : List Char) :
    encodeChars (c :: cs) =
      (if isUriUnreserved c then [c] else (utf8Bytes c).flatMap percentEncoded) ++ encodeChars cs := rfl

/-- Go's `unescape`: the bytes of a percent-encoded path. -/
def percentDecode : List Char → Option (List Nat)
  | [] => some []
  | c :: rest =>
    if c = '%' then
      match rest with
      | high :: low :: rest =>
        match hexValue? high, hexValue? low with
        | some h, some l => (percentDecode rest).map ((16 * h + l) :: ·)
        | _, _ => none
      | _ => none
    else (percentDecode rest).map (utf8Bytes c ++ ·)

theorem hexValue_digit : ∀ n < 16, hexValue? (Nat.digitChar n).toUpper = some n := by decide

theorem percentDecode_escape {byte : Nat} (small : byte < 256) (rest : List Char) :
    percentDecode (percentEncoded byte ++ rest) = (percentDecode rest).map (byte :: ·) := by
  have value : 16 * (byte / 16) + byte % 16 = byte := by omega
  rw [percentEncoded, List.cons_append, List.cons_append, List.singleton_append, percentDecode, if_pos rfl]
  simp only [hexValue_digit _ (show byte / 16 < 16 by omega), hexValue_digit _ (show byte % 16 < 16 by omega), value]

theorem percentDecode_escapes {bytes : List Nat} (small : ∀ byte ∈ bytes, byte < 256) (rest : List Char) :
    percentDecode (bytes.flatMap percentEncoded ++ rest) = (percentDecode rest).map (bytes ++ ·) := by
  induction bytes with
  | nil => simp
  | cons byte bytes ih =>
    rw [List.flatMap_cons, List.append_assoc, percentDecode_escape (small byte List.mem_cons_self),
      ih fun other member => small other (List.mem_cons_of_mem _ member), Option.map_map]
    rfl

theorem percentDecode_plain {c : Char} (plain : c ≠ '%') (rest : List Char) :
    percentDecode (c :: rest) = (percentDecode rest).map (utf8Bytes c ++ ·) := by
  rw [percentDecode.eq_def]
  simp only [if_neg plain]

/-- An encoded segment decodes to its UTF-8 bytes. -/
theorem percentDecode_encodeChars (cs rest : List Char) :
    percentDecode (encodeChars cs ++ rest) = (percentDecode rest).map (toUtf8 cs ++ ·) := by
  induction cs with
  | nil => simp [toUtf8]
  | cons c cs ih =>
    rw [encodeChars_cons, toUtf8, List.flatMap_cons]
    split
    · rename_i unreserved
      have plain : c ≠ '%' := by
        rintro rfl
        exact absurd unreserved (by decide)
      rw [List.append_assoc, List.singleton_append, percentDecode_plain plain, ih, Option.map_map]
      simp [Function.comp_def, toUtf8]
    · rw [List.append_assoc, percentDecode_escapes (utf8Bytes_lt c), ih, Option.map_map]
      simp [Function.comp_def, toUtf8]

theorem digit_unreserved : ∀ n < 16, isUriUnreserved (Nat.digitChar n).toUpper = true := by decide

/-- A reserved character stands in no encoded segment, but for the percent sign of an escape. -/
theorem not_mem_encodeChars {d : Char} (reserved : isUriUnreserved d = false) (plain : d ≠ '%') (cs : List Char) :
    d ∉ encodeChars cs := by
  intro member
  obtain ⟨c, -, member⟩ := List.mem_flatMap.mp member
  split at member
  · rename_i unreserved
    obtain rfl := List.mem_singleton.mp member
    exact absurd unreserved (by simp [reserved])
  · obtain ⟨byte, inside, member⟩ := List.mem_flatMap.mp member
    have small := utf8Bytes_lt c byte inside
    have digit : ∀ n < 16, d ≠ (Nat.digitChar n).toUpper := by
      rintro n below rfl
      exact absurd (digit_unreserved n below) (by simp [reserved])
    unfold percentEncoded at member
    rcases List.mem_cons.mp member with percent | member
    · exact plain percent
    · rcases List.mem_cons.mp member with high | member
      · exact digit _ (by omega) high
      · exact digit _ (by omega) (List.mem_singleton.mp member)

theorem slash_not_mem_encodeChars (cs : List Char) : '/' ∉ encodeChars cs :=
  not_mem_encodeChars (by decide) (by decide) cs

theorem encodeChars_injective : Function.Injective encodeChars := by
  intro cs ds same
  have left := percentDecode_encodeChars cs []
  have right := percentDecode_encodeChars ds []
  rw [List.append_nil] at left right
  rw [same, right] at left
  simp only [percentDecode, Option.map_some, List.append_nil, Option.some.injEq] at left
  exact toUtf8_injective left.symm

theorem encodeURIComponent_injective : Function.Injective encodeURIComponent := by
  intro s t same
  have chars := congrArg String.toList same
  rw [toList_encodeURIComponent, toList_encodeURIComponent] at chars
  exact String.toList_injective (encodeChars_injective chars)

/-! ### Dot segments -/

/-- A URL parser's single-dot path segment. -/
def isSingleDot (segment : List Char) : Bool := segment.map Char.toLower ∈ [['.'], ['%', '2', 'e']]

/-- A URL parser's double-dot path segment. -/
def isDoubleDot (segment : List Char) : Bool :=
  segment.map Char.toLower ∈ [['.', '.'], ['.', '%', '2', 'e'], ['%', '2', 'e', '.'], ['%', '2', 'e', '%', '2', 'e']]

/-- A URL parser's path state: the segments after those of the path so far. -/
def resolvePath : List (List Char) → List (List Char) → List (List Char)
  | path, [] => path
  | path, [segment] =>
    if isDoubleDot segment then path.dropLast ++ [[]]
    else if isSingleDot segment then path ++ [[]]
    else path ++ [segment]
  | path, segment :: next :: rest =>
    resolvePath (if isDoubleDot segment then path.dropLast else if isSingleDot segment then path else path ++ [segment])
      (next :: rest)

theorem toLower_code (c : Char) : c.toLower = c ∨ 97 ≤ c.toLower.toNat := by
  unfold Char.toLower
  split
  · rename_i upper
    right
    have low : 65 ≤ c.val.toNat := upper.1
    have high : c.val.toNat ≤ 90 := upper.2
    have shift : ('a'.val - 'A'.val).toNat = 32 := by decide
    show 97 ≤ (c.val + ('a'.val - 'A'.val)).toNat
    rw [UInt32.toNat_add, shift]
    omega
  · exact Or.inl rfl

theorem eq_of_toLower {c d : Char} (lower : c.toLower = d) (mark : d.toNat < 97) : c = d := by
  rcases toLower_code c with same | high
  · rw [← same, lower]
  · rw [lower] at high
    omega

theorem digit_two : ∀ n < 16, (Nat.digitChar n).toUpper.toLower = '2' → n = 2 := by decide

theorem digit_e : ∀ n < 16, (Nat.digitChar n).toUpper.toLower = 'e' → n = 14 := by decide

theorem utf8Bytes_dot {c : Char} {rest : List Nat} (first : utf8Bytes c = 0x2E :: rest) : c = '.' := by
  unfold utf8Bytes at first
  dsimp only at first
  repeat' split at first
  · exact char_eq_of_toNat (List.cons.inj first).1
  all_goals
    have head := (List.cons.inj first).1
    omega

/-- An encoded segment never spells a dot as an escape. -/
theorem encodeChars_no_escaped_dot (cs rest : List Char) : (encodeChars cs).map Char.toLower ≠ '%' :: '2' :: 'e' :: rest := by
  intro escaped
  cases cs with
  | nil => cases escaped
  | cons c cs =>
    rw [encodeChars_cons] at escaped
    split at escaped
    · rename_i unreserved
      rw [List.singleton_append, List.map_cons] at escaped
      obtain rfl := eq_of_toLower (List.cons.inj escaped).1 (by decide)
      exact absurd unreserved (by decide)
    · rename_i reserved
      have small := utf8Bytes_lt c
      cases bytes : utf8Bytes c with
      | nil => exact absurd bytes (utf8Bytes_ne_nil c)
      | cons byte more =>
        rw [bytes] at small escaped
        have bound := small byte List.mem_cons_self
        rw [List.flatMap_cons, percentEncoded] at escaped
        simp only [List.cons_append, List.map_cons, List.cons.injEq] at escaped
        have high := digit_two _ (by omega) escaped.2.1
        have low := digit_e _ (by omega) escaped.2.2.1
        have value : byte = 0x2E := by omega
        rw [value] at bytes
        obtain rfl := utf8Bytes_dot bytes
        exact reserved (by decide)

/-- A dot in front of an encoded segment is one in front of the segment. -/
theorem encodeChars_dot {cs rest : List Char} (dot : (encodeChars cs).map Char.toLower = '.' :: rest) :
    ∃ ds, cs = '.' :: ds ∧ (encodeChars ds).map Char.toLower = rest := by
  cases cs with
  | nil => cases dot
  | cons c cs =>
    rw [encodeChars_cons] at dot
    split at dot
    · rw [List.singleton_append, List.map_cons] at dot
      obtain ⟨first, tail⟩ := List.cons.inj dot
      obtain rfl := eq_of_toLower first (by decide)
      exact ⟨cs, rfl, tail⟩
    · cases bytes : utf8Bytes c with
      | nil => exact absurd bytes (utf8Bytes_ne_nil c)
      | cons byte more =>
        rw [bytes, List.flatMap_cons, percentEncoded] at dot
        simp only [List.cons_append, List.map_cons, List.cons.injEq] at dot
        exact absurd dot.1 (by decide)

theorem encodeChars_eq_nil {cs : List Char} (empty : (encodeChars cs).map Char.toLower = []) : cs = [] := by
  cases cs with
  | nil => rfl
  | cons c cs =>
    have whole := percentDecode_encodeChars (c :: cs) []
    rw [List.map_eq_nil_iff.mp empty, List.nil_append, percentDecode, Option.map_some, List.append_nil] at whole
    exact toUtf8_injective (Option.some.inj whole).symm

theorem isSingleDot_encodeChars {cs : List Char} : isSingleDot (encodeChars cs) = true ↔ cs = ['.'] := by
  constructor
  · intro dot
    simp only [isSingleDot, decide_eq_true_eq, List.mem_cons, List.not_mem_nil, or_false] at dot
    rcases dot with dot | escaped
    · obtain ⟨ds, rfl, tail⟩ := encodeChars_dot dot
      rw [encodeChars_eq_nil tail]
    · exact absurd escaped (encodeChars_no_escaped_dot cs _)
  · rintro rfl
    decide

theorem isDoubleDot_encodeChars {cs : List Char} : isDoubleDot (encodeChars cs) = true ↔ cs = ['.', '.'] := by
  constructor
  · intro dots
    simp only [isDoubleDot, decide_eq_true_eq, List.mem_cons, List.not_mem_nil, or_false] at dots
    rcases dots with dots | half | half | escaped
    · obtain ⟨ds, rfl, second⟩ := encodeChars_dot dots
      obtain ⟨es, rfl, empty⟩ := encodeChars_dot second
      rw [encodeChars_eq_nil empty]
    · obtain ⟨ds, rfl, tail⟩ := encodeChars_dot half
      exact absurd tail (encodeChars_no_escaped_dot ds _)
    · exact absurd half (encodeChars_no_escaped_dot cs _)
    · exact absurd escaped (encodeChars_no_escaped_dot cs _)
  · rintro rfl
    decide

/-- A segment the URL parser keeps as it is. -/
def DotSegment (cs : List Char) : Prop := cs = ['.'] ∨ cs = ['.', '.']

/-- Resolving encoded segments leaves encoded segments that are no dots, and an empty one at the end at most. -/
theorem resolvePath_encoded {path segments : List (List Char)} (some : segments ≠ [])
    (kept : ∀ segment ∈ path, ¬ DotSegment segment) :
    ∃ left : List (List Char), (∀ segment ∈ left, ¬ DotSegment segment ∧ (segment ∈ path ∨ segment ∈ segments)) ∧
      (resolvePath (path.map encodeChars) (segments.map encodeChars) = left.map encodeChars ∨
        resolvePath (path.map encodeChars) (segments.map encodeChars) = left.map encodeChars ++ [[]]) := by
  induction segments generalizing path with
  | nil => exact absurd rfl some
  | cons segment rest ih =>
    have up : path.dropLast.map encodeChars = (path.map encodeChars).dropLast := List.map_dropLast ..
    cases rest with
    | nil =>
      rw [List.map_cons, List.map_nil, resolvePath]
      split
      · refine ⟨path.dropLast, fun other member => ?_, Or.inr (by rw [up])⟩
        exact ⟨kept other (List.dropLast_subset _ member), Or.inl (List.dropLast_subset _ member)⟩
      · split
        · exact ⟨path, fun other member => ⟨kept other member, Or.inl member⟩, Or.inr rfl⟩
        · rename_i not_up not_dot
          refine ⟨path ++ [segment], fun other member => ?_, Or.inl (by simp)⟩
          rcases List.mem_append.mp member with member | member
          · exact ⟨kept other member, Or.inl member⟩
          · obtain rfl := List.mem_singleton.mp member
            refine ⟨?_, Or.inr List.mem_cons_self⟩
            rintro (rfl | rfl)
            · exact not_dot (isSingleDot_encodeChars.mpr rfl)
            · exact not_up (isDoubleDot_encodeChars.mpr rfl)
    | cons next rest =>
      have step : ∀ path' : List (List Char), (∀ other ∈ path', ¬ DotSegment other) →
          (∀ other ∈ path', other ∈ path ∨ other = segment) →
          ∃ left : List (List Char), (∀ other ∈ left, ¬ DotSegment other ∧ (other ∈ path ∨ other ∈ segment :: next :: rest)) ∧
            (resolvePath (path'.map encodeChars) ((next :: rest).map encodeChars) = left.map encodeChars ∨
              resolvePath (path'.map encodeChars) ((next :: rest).map encodeChars) = left.map encodeChars ++ [[]]) := by
        intro path' plain inside
        obtain ⟨left, from_here, resolved⟩ := ih (List.cons_ne_nil next rest) plain
        refine ⟨left, fun other member => ⟨(from_here other member).1, ?_⟩, resolved⟩
        rcases (from_here other member).2 with early | late
        · rcases inside other early with early | rfl
          · exact Or.inl early
          · exact Or.inr List.mem_cons_self
        · exact Or.inr (List.mem_cons_of_mem _ late)
      rw [List.map_cons, List.map_cons, resolvePath, ← List.map_cons]
      split
      · rw [← up]
        exact step path.dropLast (fun other member => kept other (List.dropLast_subset _ member))
          fun other member => Or.inl (List.dropLast_subset _ member)
      · split
        · exact step path kept fun other member => Or.inl member
        · rename_i not_up not_dot
          have plain : ¬ DotSegment segment := by
            rintro (rfl | rfl)
            · exact not_dot (isSingleDot_encodeChars.mpr rfl)
            · exact not_up (isDoubleDot_encodeChars.mpr rfl)
          have pushed : path.map encodeChars ++ [encodeChars segment] = (path ++ [segment]).map encodeChars := by simp
          rw [pushed]
          refine step (path ++ [segment]) (fun other member => ?_) fun other member => ?_
          · rcases List.mem_append.mp member with member | member
            · exact kept other member
            · obtain rfl := List.mem_singleton.mp member
              exact plain
          · rcases List.mem_append.mp member with member | member
            · exact Or.inl member
            · exact Or.inr (List.mem_singleton.mp member)

theorem resolvePath_plain {path segments : List (List Char)} (some : segments ≠ [])
    (plain : ∀ segment ∈ segments, ¬ DotSegment segment) :
    resolvePath path (segments.map encodeChars) = path ++ segments.map encodeChars := by
  induction segments generalizing path with
  | nil => exact absurd rfl some
  | cons segment rest ih =>
    have here := plain segment List.mem_cons_self
    have not_up : ¬ isDoubleDot (encodeChars segment) = true := fun up => here (Or.inr (isDoubleDot_encodeChars.mp up))
    have not_dot : ¬ isSingleDot (encodeChars segment) = true := fun dot => here (Or.inl (isSingleDot_encodeChars.mp dot))
    cases rest with
    | nil => rw [List.map_cons, List.map_nil, resolvePath, if_neg not_up, if_neg not_dot]
    | cons next rest =>
      rw [List.map_cons, List.map_cons, resolvePath, if_neg not_up, if_neg not_dot, ← List.map_cons,
        ih (List.cons_ne_nil _ _) fun other member => plain other (List.mem_cons_of_mem _ member), List.append_assoc]
      rfl

end GroupButler.Foundation
