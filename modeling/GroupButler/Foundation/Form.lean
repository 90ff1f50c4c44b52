import GroupButler.Foundation.Uri

/-!
# Form fields

The query of a URL as `URLSearchParams` writes and reads it. What is written for a list of fields is read as that list.
-/

namespace GroupButler.Foundation

def isFormPlain (c : Char) : Bool := c.isAlphanum || c.toNat ∈ [0x2A, 0x2D, 0x2E, 0x5F]

def formChar (c : Char) : List Char :=
  if c = ' ' then ['+'] else if isFormPlain c then [c] else (utf8Bytes c).flatMap percentEncoded

def formEncode (cs : List Char) : List Char := cs.flatMap formChar

/-- A percent sign that opens no escape stands for itself. -/
def formBytes : List Char → List Nat
  | [] => []
  | c :: rest =>
    if c = '+' then 0x20 :: formBytes rest
    else if c = '%' then
      match rest with
      | high :: low :: after =>
        match hexValue? high, hexValue? low with
        | some h, some l => (16 * h + l) :: formBytes after
        | _, _ => 0x25 :: formBytes (high :: low :: after)
      | [last] => 0x25 :: formBytes [last]
      | [] => [0x25]
    else utf8Bytes c ++ formBytes rest

def formDecode (cs : List Char) : List Char := ofUtf8 none (formBytes cs)

/-! ### One text -/

theorem formBytes_blank (rest : List Char) : formBytes ('+' :: rest) = 0x20 :: formBytes rest := by
  rw [formBytes.eq_def]
  rfl

theorem formBytes_plain {c : Char} (blank : c ≠ '+') (percent : c ≠ '%') (rest : List Char) :
    formBytes (c :: rest) = utf8Bytes c ++ formBytes rest := by
  rw [formBytes.eq_def]
  simp only [if_neg blank, if_neg percent]

theorem formBytes_escape {byte : Nat} (small : byte < 256) (rest : List Char) :
    formBytes (percentEncoded byte ++ rest) = byte :: formBytes rest := by
  have value : 16 * (byte / 16) + byte % 16 = byte := by omega
  rw [percentEncoded, List.cons_append, List.cons_append, List.singleton_append, formBytes.eq_def]
  simp only [hexValue_digit _ (show byte / 16 < 16 by omega), hexValue_digit _ (show byte % 16 < 16 by omega), value,
    show ('%' : Char) ≠ '+' by decide, if_false, if_true]

theorem formBytes_escapes {bytes : List Nat} (small : ∀ byte ∈ bytes, byte < 256) (rest : List Char) :
    formBytes (bytes.flatMap percentEncoded ++ rest) = bytes ++ formBytes rest := by
  induction bytes with
  | nil => rfl
  | cons byte bytes ih =>
    rw [List.flatMap_cons, List.append_assoc, formBytes_escape (small byte List.mem_cons_self),
      ih fun other member => small other (List.mem_cons_of_mem _ member)]
    rfl

theorem formBytes_formChar (c : Char) (rest : List Char) : formBytes (formChar c ++ rest) = utf8Bytes c ++ formBytes rest := by
  unfold formChar
  split
  · rename_i blank
    subst blank
    exact formBytes_blank rest
  · split
    · rename_i plain
      refine formBytes_plain ?_ ?_ rest
      · intro same
        subst same
        exact absurd plain (by decide)
      · intro same
        subst same
        exact absurd plain (by decide)
    · exact formBytes_escapes (utf8Bytes_lt c) rest

theorem formBytes_formEncode (cs : List Char) : formBytes (formEncode cs) = toUtf8 cs := by
  induction cs with
  | nil => rfl
  | cons c cs ih =>
    rw [formEncode, List.flatMap_cons, formBytes_formChar]
    show utf8Bytes c ++ formBytes (formEncode cs) = _
    rw [ih]
    rfl

theorem formDecode_formEncode (cs : List Char) : formDecode (formEncode cs) = cs := by
  rw [formDecode, formBytes_formEncode, ofUtf8_toUtf8]

theorem digit_formPlain : ∀ n < 16, isFormPlain (Nat.digitChar n).toUpper = true := by decide

/-- What parts the fields stands in no written text. -/
theorem not_mem_formEncode {d : Char} (special : isFormPlain d = false) (blank : d ≠ '+') (percent : d ≠ '%') (cs : List Char) :
    d ∉ formEncode cs := by
  intro member
  obtain ⟨c, -, inside⟩ := List.mem_flatMap.mp member
  unfold formChar at inside
  split at inside
  · exact blank (List.mem_singleton.mp inside)
  · split at inside
    · rename_i plain
      rw [← List.mem_singleton.mp inside, special] at plain
      cases plain
    · obtain ⟨byte, stored, digit⟩ := List.mem_flatMap.mp inside
      have small := utf8Bytes_lt c byte stored
      rw [percentEncoded] at digit
      rcases List.mem_cons.mp digit with same | rest
      · exact percent same
      · have hex : ∃ n < 16, d = (Nat.digitChar n).toUpper := by
          rcases List.mem_cons.mp rest with same | last
          · exact ⟨byte / 16, by omega, same⟩
          · exact ⟨byte % 16, by omega, List.mem_singleton.mp last⟩
        obtain ⟨n, below, same⟩ := hex
        have plain := digit_formPlain n below
        rw [← same, special] at plain
        cases plain

/-! ### Fields -/

def fieldText (field : List Char × List Char) : List Char := formEncode field.1 ++ '=' :: formEncode field.2

def formText (fields : List (List Char × List Char)) : List Char := ['&'].intercalate (fields.map fieldText)

def readField (part : List Char) : List Char × List Char :=
  (formDecode (part.takeWhile (· != '=')), formDecode ((part.dropWhile (· != '=')).drop 1))

def parseForm (text : List Char) : List (List Char × List Char) :=
  ((text.splitOn '&').filter fun part => !part.isEmpty).map readField

/-- `searchParams.get` -/
def formValue (name text : List Char) : Option (List Char) := ((parseForm text).find? fun field => field.1 == name).map Prod.snd

theorem readField_fieldText (field : List Char × List Char) : readField (fieldText field) = field := by
  have plain : ∀ c ∈ formEncode field.1, (c != '=') = true := by
    intro c member
    rw [bne_iff_ne]
    intro same
    exact not_mem_formEncode (by decide) (by decide) (by decide) field.1 (same ▸ member)
  have front : (fieldText field).takeWhile (· != '=') = formEncode field.1 := by
    rw [fieldText, List.takeWhile_append_of_pos plain]
    simp
  have back : (fieldText field).dropWhile (· != '=') = '=' :: formEncode field.2 := by
    rw [fieldText, List.dropWhile_append_of_pos plain]
    simp
  rw [readField, front, back, List.drop_succ_cons, List.drop_zero, formDecode_formEncode, formDecode_formEncode]

theorem parseForm_formText (fields : List (List Char × List Char)) : parseForm (formText fields) = fields := by
  have parts : (formText fields).splitOn '&' = fields.map fieldText ∨ fields = [] := by
    by_cases none_ : fields = []
    · exact .inr none_
    · refine .inl (List.splitOn_intercalate '&' ?_ (by simpa using none_))
      intro part member inside
      obtain ⟨field, -, rfl⟩ := List.mem_map.mp member
      rcases List.mem_append.mp inside with first | rest
      · exact not_mem_formEncode (by decide) (by decide) (by decide) field.1 first
      · rcases List.mem_cons.mp rest with same | last
        · exact absurd same (by decide)
        · exact not_mem_formEncode (by decide) (by decide) (by decide) field.2 last
  rcases parts with parts | rfl
  · have whole : (fields.map fieldText).filter (fun part => !part.isEmpty) = fields.map fieldText := by
      apply List.filter_eq_self.mpr
      intro part member
      obtain ⟨field, -, rfl⟩ := List.mem_map.mp member
      simp [fieldText]
    rw [parseForm, parts, whole, List.map_map]
    exact (List.map_congr_left fun field _ => readField_fieldText field).trans (List.map_id fields)
  · rfl

theorem formValue_single (name value : List Char) : formValue name (formText [(name, value)]) = some value := by
  rw [formValue, parseForm_formText]
  simp

end GroupButler.Foundation
