import GroupButler.Foundation.Greedy
import GroupButler.Ingest.SearchText

/-!
# Pruned raw trees

`pruneRaw` keeps the entries of a raw tree while their encodings fit a cap, in the order of the search text. The
encoder is `json.Marshal`; numbers and the text they are written as are a parameter.
-/

namespace GroupButler.Ingest.Pruning
open Foundation

/-! ### The encoder -/

/-- What `json.Unmarshal` makes of a document. A map is its entries in the order one iteration yields them. -/
inductive RawValue (ν : Type) where
  | null
  | bool (value : Bool)
  | num (value : ν)
  | str (value : String)
  | arr (items : List (RawValue ν))
  | obj (fields : List (String × RawValue ν))

/-- One character of a string, escaped for HTML as well. -/
def marshalChar (c : Char) : List Char :=
  if c = '"' ∨ c = '\\' then ['\\', c]
  else if c.toNat = 0x08 then ['\\', 'b']
  else if c.toNat = 0x09 then ['\\', 't']
  else if c.toNat = 0x0A then ['\\', 'n']
  else if c.toNat = 0x0C then ['\\', 'f']
  else if c.toNat = 0x0D then ['\\', 'r']
  else if c.toNat < 0x20 ∨ c = '<' ∨ c = '>' ∨ c = '&' then
    ['\\', 'u', '0', '0', hexDigit (c.toNat / 16), hexDigit (c.toNat % 16)]
  else if c.toNat = 0x2028 ∨ c.toNat = 0x2029 then ['\\', 'u', '2', '0', '2', hexDigit (c.toNat % 16)]
  else [c]

def marshalString (s : String) : List Char := '"' :: (s.toList.flatMap marshalChar ++ ['"'])

def marshalEntry (entry : String × List Char) : List Char := marshalString entry.1 ++ ':' :: entry.2

def bytes (cs : List Char) : Nat := (toUtf8 cs).length

/-- A map is written by its keys. -/
def sortKeys {α : Type} (entries : List (String × α)) : List (String × α) :=
  entries.insertionSort fun first second => first.1 ≤ second.1

section
variable {ν : Type} (number : ν → List Char)

mutual

def marshal : RawValue ν → List Char
  | .null => ['n', 'u', 'l', 'l']
  | .bool true => ['t', 'r', 'u', 'e']
  | .bool false => ['f', 'a', 'l', 's', 'e']
  | .num n => number n
  | .str s => marshalString s
  | .arr items => '[' :: ([','].intercalate (marshalItems items) ++ [']'])
  | .obj fields => '\x7b' :: ([','].intercalate ((sortKeys (marshalFields fields)).map marshalEntry) ++ ['\x7d'])

def marshalItems : List (RawValue ν) → List (List Char)
  | [] => []
  | item :: items => marshal item :: marshalItems items

def marshalFields : List (String × RawValue ν) → List (String × List Char)
  | [] => []
  | (key, value) :: fields => (key, marshal value) :: marshalFields fields

end

/-- `len(json.Marshal(value))` -/
def encodedLength (value : RawValue ν) : Nat := bytes (marshal number value)

end

/-! ### Pruning -/

section
variable {α : Type} (marshalled : α → Nat) (nothing : α) (toLower : String → String)

def entrySize (entry : String × α) : Nat := byteLength entry.1 + 4 + marshalled entry.2

/-- What a tree is reduced to when not one of its entries is kept. -/
def marker : List (String × α) := [("<truncated>", nothing)]

/-- `marshalled` is the length of an encoded value and `nothing` the empty object. -/
def pruneRaw (tree : List (String × α)) (max : Nat) : List (String × α) × Bool :=
  let (kept, _) := (SearchText.sortRawKeys toLower tree).foldl (fun (kept, used) entry =>
    let size := entrySize marshalled entry
    if max < used + size then (kept, used) else (kept ++ [entry], used + size)) ([], 2)
  if kept.isEmpty then (marker nothing, true) else (kept, kept.length != tree.length)

theorem pruneRaw_json [Unicode] (tree : List (String × Json)) (max : Nat) :
    Ingest.pruneRaw tree max = pruneRaw Json.marshalled (.obj []) Ingest.toLower tree max := rfl

end

/-! ### Lengths -/

theorem bytes_append (cs ds : List Char) : bytes (cs ++ ds) = bytes cs + bytes ds := by
  rw [bytes, toUtf8_append, List.length_append, bytes, bytes]

theorem bytes_cons (c : Char) (cs : List Char) : bytes (c :: cs) = c.utf8Size + bytes cs := by
  rw [bytes, toUtf8, List.flatMap_cons, List.length_append, SearchText.length_utf8Bytes]
  rfl

theorem bytes_intercalate {parts : List (List Char)} (some_ : parts ≠ []) :
    bytes ([','].intercalate parts) + 1 = (parts.map fun part => bytes part + 1).sum := by
  induction parts with
  | nil => exact absurd rfl some_
  | cons part parts ih =>
    cases parts with
    | nil => simp
    | cons next parts =>
      have rest := ih (List.cons_ne_nil _ _)
      have comma : Char.utf8Size ',' = 1 := by decide
      rw [intercalate_cons part (List.cons_ne_nil _ _), bytes_append, bytes_cons, comma, List.map_cons, List.sum_cons]
      omega

section
variable {ν : Type} {number : ν → List Char}

theorem marshalFields_eq (fields : List (String × RawValue ν)) :
    marshalFields number fields = fields.map fun field => (field.1, marshal number field.2) := by
  induction fields with
  | nil => rw [marshalFields]; rfl
  | cons field fields ih =>
    obtain ⟨key, value⟩ := field
    rw [marshalFields, ih]
    rfl

/-- The bytes of an entry and of the comma behind it. -/
def entryBytes (number : ν → List Char) (entry : String × RawValue ν) : Nat :=
  bytes (marshalString entry.1) + 1 + encodedLength number entry.2 + 1

theorem encodedLength_obj {fields : List (String × RawValue ν)} (some_ : fields ≠ []) :
    encodedLength number (.obj fields) = 1 + (fields.map (entryBytes number)).sum := by
  have written : (sortKeys (marshalFields number fields)).map marshalEntry ≠ [] := by
    intro none
    have lengths := congrArg List.length none
    rw [List.length_map, sortKeys, List.length_insertionSort, marshalFields_eq, List.length_map] at lengths
    exact some_ (List.length_eq_zero_iff.mp lengths)
  have perm : ((sortKeys (marshalFields number fields)).map fun entry => bytes (marshalEntry entry) + 1).sum =
      ((marshalFields number fields).map fun entry => bytes (marshalEntry entry) + 1).sum :=
    ((List.perm_insertionSort _ _).map _).sum_nat
  have each : ((marshalFields number fields).map fun entry => bytes (marshalEntry entry) + 1) = fields.map (entryBytes number) := by
    rw [marshalFields_eq, List.map_map]
    apply List.map_congr_left
    intro entry _
    have colon : Char.utf8Size ':' = 1 := by decide
    simp only [Function.comp_apply, marshalEntry, entryBytes, bytes_append, bytes_cons, colon, encodedLength]
    omega
  have joined := bytes_intercalate written
  rw [List.map_map, Function.comp_def, perm, each] at joined
  have opening : Char.utf8Size '\x7b' = 1 := by decide
  have closing : bytes ['\x7d'] = 1 := by decide
  have whole : encodedLength number (.obj fields) =
      bytes ('\x7b' :: ([','].intercalate ((sortKeys (marshalFields number fields)).map marshalEntry) ++ ['\x7d'])) := by
    rw [encodedLength, marshal]
  rw [whole, bytes_cons, bytes_append, opening, closing]
  omega

/-- No character of the key is escaped. -/
def Unescaped (key : String) : Prop := ∀ c ∈ key.toList, marshalChar c = [c]

instance : DecidablePred Unescaped := fun key => List.decidableBAll (fun c => marshalChar c = [c]) key.toList

theorem bytes_unescaped {key : String} (plain : Unescaped key) : bytes (marshalString key) = byteLength key + 2 := by
  have same : key.toList.flatMap marshalChar = key.toList := (List.flatMap_congr plain).trans (List.flatMap_singleton' _)
  have quotation : Char.utf8Size '"' = 1 := by decide
  have closing : bytes ['"'] = 1 := by decide
  have chars : bytes key.toList = byteLength key := SearchText.length_octets key
  rw [marshalString, same, bytes_cons, bytes_append, quotation, closing, chars]
  omega

theorem entryBytes_unescaped {entry : String × RawValue ν} (plain : Unescaped entry.1) :
    entryBytes number entry = entrySize (encodedLength number) entry := by
  rw [entryBytes, bytes_unescaped plain, entrySize]
  omega

theorem spent_sum {α : Type} (size : α → Nat) (used : Nat) (xs : List α) : spent size used xs = used + (xs.map size).sum := by
  induction xs generalizing used with
  | nil => rfl
  | cons x xs ih =>
    rw [spent_cons, ih, List.map_cons, List.sum_cons]
    omega

/-- The estimate counts one comma that is not written. -/
theorem spent_encoded {entries : List (String × RawValue ν)} (some_ : entries ≠ []) (plain : ∀ entry ∈ entries, Unescaped entry.1) :
    spent (entrySize (encodedLength number)) 2 entries = encodedLength number (.obj entries) + 1 := by
  have each : entries.map (entryBytes number) = entries.map (entrySize (encodedLength number)) :=
    List.map_congr_left fun entry member => entryBytes_unescaped (plain entry member)
  rw [spent_sum, encodedLength_obj some_, each]
  omega

end

/-! ### What is kept -/

section
variable {α : Type} (marshalled : α → Nat) (nothing : α) (toLower : String → String)

/-- The entries that are kept, of the tree or none. -/
def keptEntries (tree : List (String × α)) (max : Nat) : List (String × α) :=
  greedy (entrySize marshalled) max 2 (SearchText.sortRawKeys toLower tree)

theorem foldl_greedy (max : Nat) (entries kept : List (String × α)) (used : Nat) :
    entries.foldl (fun (kept, used) entry =>
      let size := entrySize marshalled entry
      if max < used + size then (kept, used) else (kept ++ [entry], used + size)) (kept, used) =
      (kept ++ greedy (entrySize marshalled) max used entries,
        spent (entrySize marshalled) used (greedy (entrySize marshalled) max used entries)) := by
  induction entries generalizing kept used with
  | nil => simp [greedy, spent]
  | cons entry entries ih =>
    rw [List.foldl_cons]
    dsimp only
    by_cases exceeds : max < used + entrySize marshalled entry
    · rw [if_pos exceeds, ih, greedy_over exceeds]
    · rw [if_neg exceeds, ih, greedy_within exceeds, spent_cons, List.append_assoc, List.singleton_append]

theorem pruneRaw_eq (tree : List (String × α)) (max : Nat) : pruneRaw marshalled nothing toLower tree max =
    if (keptEntries marshalled toLower tree max).isEmpty then (marker nothing, true)
    else (keptEntries marshalled toLower tree max, (keptEntries marshalled toLower tree max).length != tree.length) := by
  rw [pruneRaw, foldl_greedy]
  rfl

variable {marshalled nothing toLower} {tree : List (String × α)} {max : Nat}

theorem kept_sublist : (keptEntries marshalled toLower tree max).Sublist (SearchText.sortRawKeys toLower tree) := greedy_sublist _ _

theorem mem_sortRawKeys {entry : String × α} : entry ∈ SearchText.sortRawKeys toLower tree ↔ entry ∈ tree :=
  (List.perm_insertionSort _ tree).mem_iff

theorem mem_kept {entry : String × α} (kept : entry ∈ keptEntries marshalled toLower tree max) : entry ∈ tree :=
  mem_sortRawKeys.mp (kept_sublist.subset kept)

theorem sortRawKeys_nodup (distinct : (tree.map Prod.fst).Nodup) : (SearchText.sortRawKeys toLower tree).Nodup :=
  (List.perm_insertionSort _ tree).nodup_iff.mpr (List.Nodup.of_map _ distinct)

theorem sortRawKeys_kept : SearchText.sortRawKeys toLower (keptEntries marshalled toLower tree max) = keptEntries marshalled toLower tree max := by
  have total : Std.Total (SearchText.rawKeyLe toLower (α := α)) := ⟨SearchText.rawKeyLe_total⟩
  have trans : IsTrans (String × α) (SearchText.rawKeyLe toLower) := ⟨fun _ _ _ => SearchText.rawKeyLe_trans⟩
  exact ((List.pairwise_insertionSort _ tree).sublist kept_sublist).insertionSort_eq

theorem kept_kept : keptEntries marshalled toLower (keptEntries marshalled toLower tree max) max = keptEntries marshalled toLower tree max := by
  rw [keptEntries, sortRawKeys_kept]
  exact greedy_greedy _ _

theorem kept_perm {tree' : List (String × α)} (distinct : (tree.map Prod.fst).Nodup) (perm : tree.Perm tree') :
    keptEntries marshalled toLower tree' max = keptEntries marshalled toLower tree max := by
  rw [keptEntries, ← SearchText.sortRawKeys_perm distinct perm, keptEntries]

theorem kept_distinct (distinct : (tree.map Prod.fst).Nodup) : ((keptEntries marshalled toLower tree max).map Prod.fst).Nodup :=
  (((List.perm_insertionSort _ tree).map _).nodup_iff.mpr distinct).sublist (kept_sublist.map _)

theorem pruneRaw_perm {tree' : List (String × α)} (distinct : (tree.map Prod.fst).Nodup) (perm : tree.Perm tree') :
    pruneRaw marshalled nothing toLower tree' max = pruneRaw marshalled nothing toLower tree max := by
  rw [pruneRaw_eq, pruneRaw_eq, kept_perm distinct perm, perm.length_eq]

theorem pruneRaw_again {again : List (String × α)} (distinct : (tree.map Prod.fst).Nodup)
    (perm : again.Perm (pruneRaw marshalled nothing toLower tree max).1) :
    (pruneRaw marshalled nothing toLower again max).1 = (pruneRaw marshalled nothing toLower tree max).1 := by
  by_cases none : (keptEntries marshalled toLower tree max).isEmpty = true
  · have reduced : (pruneRaw marshalled nothing toLower tree max).1 = marker nothing := by rw [pruneRaw_eq, if_pos none]
    rw [reduced] at perm ⊢
    rw [List.perm_singleton.mp perm, pruneRaw_eq]
    split
    · rfl
    · rename_i some_
      have part : (keptEntries marshalled toLower (marker nothing) max).Sublist (marker nothing) := kept_sublist
      rcases List.sublist_singleton.mp part with none | whole
      · exact absurd (List.isEmpty_iff.mpr none) some_
      · exact whole
  · have same : (pruneRaw marshalled nothing toLower tree max).1 = keptEntries marshalled toLower tree max := by
      rw [pruneRaw_eq, if_neg none]
    rw [same] at perm ⊢
    rw [pruneRaw_perm (kept_distinct distinct) perm.symm, pruneRaw_eq, kept_kept, if_neg none]

theorem marker_fresh (plain : ∀ entry ∈ tree, Unescaped entry.1) {entry : String × α} (member : entry ∈ tree) :
    entry ∉ marker nothing := by
  intro marked
  obtain rfl := List.mem_singleton.mp marked
  have escaped : '<' ∈ "<truncated>".toList := by decide
  exact absurd (plain _ member '<' escaped) (by decide)

/-- The result holds the kept entries of the tree and no others. -/
theorem mem_pruned (plain : ∀ entry ∈ tree, Unescaped entry.1) {entry : String × α} (member : entry ∈ tree) :
    entry ∈ (pruneRaw marshalled nothing toLower tree max).1 ↔ entry ∈ keptEntries marshalled toLower tree max := by
  rw [pruneRaw_eq]
  split
  · rename_i none
    rw [List.isEmpty_iff.mp none]
    exact iff_of_false (marker_fresh plain member) List.not_mem_nil
  · rfl

theorem kept_all_iff (distinct : (tree.map Prod.fst).Nodup) :
    (keptEntries marshalled toLower tree max).length = tree.length ↔ ∀ entry ∈ tree, entry ∈ keptEntries marshalled toLower tree max := by
  have length : (SearchText.sortRawKeys toLower tree).length = tree.length := List.length_insertionSort _ _
  constructor
  · intro same entry member
    rw [kept_sublist.eq_of_length (same.trans length.symm)]
    exact mem_sortRawKeys.mpr member
  · intro all
    refine Nat.le_antisymm (kept_sublist.length_le.trans length.le) ?_
    exact (List.subperm_of_subset (List.Nodup.of_map _ distinct) fun entry member => all entry member).length_le

theorem pruneRaw_truncated (distinct : (tree.map Prod.fst).Nodup) (plain : ∀ entry ∈ tree, Unescaped entry.1) :
    (pruneRaw marshalled nothing toLower tree max).2 = true ↔
      tree = [] ∨ ∃ entry ∈ tree, entry ∉ (pruneRaw marshalled nothing toLower tree max).1 := by
  have members : (∃ entry ∈ tree, entry ∉ (pruneRaw marshalled nothing toLower tree max).1) ↔
      ∃ entry ∈ tree, entry ∉ keptEntries marshalled toLower tree max :=
    exists_congr fun entry => and_congr_right fun member => not_congr (mem_pruned plain member)
  rw [members, pruneRaw_eq]
  split
  · rename_i none
    rw [List.isEmpty_iff.mp none]
    refine iff_of_true rfl ?_
    cases tree with
    | nil => exact Or.inl rfl
    | cons entry tree => exact Or.inr ⟨entry, List.mem_cons_self, List.not_mem_nil⟩
  · rename_i some_
    have filled : tree ≠ [] := by
      rintro rfl
      exact some_ rfl
    rw [or_iff_right filled, bne_iff_ne, ne_eq, kept_all_iff distinct, not_forall]
    exact exists_congr fun entry => by rw [Classical.not_imp]

end

/-! ### The result -/

section
variable {ν : Type} (number : ν → List Char) (toLower : String → String)

theorem encodedLength_marker : encodedLength number (.obj (marker (.obj []))) = 28 := by
  have empty : encodedLength number (.obj []) = 2 := rfl
  have key : bytes (marshalString "<truncated>") = 23 := by decide
  rw [marker, encodedLength_obj (List.cons_ne_nil _ _), List.map_singleton, List.sum_singleton, entryBytes, empty, key]

variable {number toLower} {tree : List (String × RawValue ν)} {max : Nat}

/-- The entries before one that is left out are kept or not as they are without it. -/
theorem kept_before {before after : List (String × RawValue ν)} {entry : String × RawValue ν}
    (distinct : (tree.map Prod.fst).Nodup) (plain : ∀ entry ∈ tree, Unescaped entry.1)
    (split : SearchText.sortRawKeys toLower tree = before ++ entry :: after) {kept : List (String × RawValue ν)}
    (part : kept.Sublist before)
    (same : ∀ x ∈ before, x ∈ kept ↔ x ∈ (pruneRaw (encodedLength number) (.obj []) toLower tree max).1) :
    kept.Perm (greedy (entrySize (encodedLength number)) max 2 before) := by
  have once : (before ++ entry :: after).Nodup := split ▸ sortRawKeys_nodup distinct
  have front : before.Nodup := (List.nodup_append.mp once).1
  refine (List.perm_ext_iff_of_nodup (front.sublist part) (front.sublist (greedy_sublist _ _))).mpr fun x => ?_
  have known : x ∈ before → x ∈ tree := fun member => mem_sortRawKeys.mp (split ▸ List.mem_append_left _ member)
  have cut : x ∈ before → (x ∈ keptEntries (encodedLength number) toLower tree max ↔
      x ∈ greedy (entrySize (encodedLength number)) max 2 before) := fun member => by
    rw [keptEntries, split, greedy_append, List.mem_append]
    refine or_iff_left fun later => ?_
    exact (List.nodup_append.mp once).2.2 x member x ((greedy_sublist _ _).subset later) rfl
  constructor
  · intro member
    have inside := part.subset member
    exact (cut inside).mp ((mem_pruned plain (known inside)).mp ((same x inside).mp member))
  · intro member
    have inside := (greedy_sublist _ _).subset member
    exact (same x inside).mpr ((mem_pruned plain (known inside)).mpr ((cut inside).mpr member))

theorem encodedLength_perm {entries entries' : List (String × RawValue ν)} (some_ : entries ≠ []) (perm : entries.Perm entries') :
    encodedLength number (.obj entries) = encodedLength number (.obj entries') := by
  have some' : entries' ≠ [] := fun none => some_ (none ▸ perm).eq_nil
  rw [encodedLength_obj some_, encodedLength_obj some', (perm.map _).sum_nat]

/-- A cap that holds the marker holds the result. An entry that is left out comes, beside the entries kept before
it, to the cap at least. -/
theorem pruneRaw_holds (number : ν → List Char) (toLower : String → String) (tree : List (String × RawValue ν)) (max : Nat)
    (distinct : (tree.map Prod.fst).Nodup) (plain : ∀ entry ∈ tree, Unescaped entry.1)
    (room : encodedLength number (.obj (marker (.obj []))) ≤ max) :
    let out := pruneRaw (encodedLength number) (.obj []) toLower tree max
    encodedLength number (.obj out.1) ≤ max ∧
      (out.1.Sublist (SearchText.sortRawKeys toLower tree) ∧ out.1 ≠ [] ∨
        out.1 = marker (.obj []) ∧ ∀ entry ∈ tree, max ≤ encodedLength number (.obj [entry])) ∧
      (out.2 = true ↔ tree = [] ∨ ∃ entry ∈ tree, entry ∉ out.1) ∧
      (∀ before entry after, SearchText.sortRawKeys toLower tree = before ++ entry :: after → entry ∉ out.1 →
        ∀ kept : List (String × RawValue ν), kept.Sublist before → (∀ x ∈ before, x ∈ kept ↔ x ∈ out.1) →
          max ≤ encodedLength number (.obj (kept ++ [entry]))) ∧
      (∀ again : List (String × RawValue ν), again.Perm out.1 →
        (pruneRaw (encodedLength number) (.obj []) toLower again max).1 = out.1) ∧
      ∀ tree' : List (String × RawValue ν), tree.Perm tree' → pruneRaw (encodedLength number) (.obj []) toLower tree' max = out := by
  have start : 2 ≤ max := by
    rw [encodedLength_marker] at room
    omega
  have keys : ∀ entry ∈ keptEntries (encodedLength number) toLower tree max, Unescaped entry.1 := fun entry kept =>
    plain entry (mem_kept kept)
  refine ⟨?_, ?_, pruneRaw_truncated distinct plain, ?_, fun again perm => pruneRaw_again distinct perm,
    fun tree' perm => pruneRaw_perm distinct perm⟩
  · rw [pruneRaw_eq]
    split
    · exact room
    · rename_i some_
      have fits := @spent_greedy _ _ _ (entrySize (encodedLength number)) max _ 2 start (SearchText.sortRawKeys toLower tree)
      rw [← keptEntries, spent_encoded (fun none => some_ (List.isEmpty_iff.mpr none)) keys] at fits
      exact Nat.le_of_succ_le fits
  · rw [pruneRaw_eq]
    split
    · rename_i none
      refine Or.inr ⟨rfl, fun entry member => ?_⟩
      have exceeds := greedy_eq_nil (List.isEmpty_iff.mp none) entry (mem_sortRawKeys.mpr member)
      have alone : spent (entrySize (encodedLength number)) 2 [entry] = encodedLength number (.obj [entry]) + 1 :=
        spent_encoded (List.cons_ne_nil _ _) fun other single => List.mem_singleton.mp single ▸ plain entry member
      rw [spent_sum, List.map_singleton, List.sum_singleton] at alone
      omega
    · rename_i some_
      exact Or.inl ⟨kept_sublist, fun none => some_ (List.isEmpty_iff.mpr none)⟩
  · intro before entry after split omitted kept part same
    have listed : entry ∈ tree := mem_sortRawKeys.mp (split ▸ List.mem_append_right _ List.mem_cons_self)
    have perm := kept_before distinct plain split part same
    have out : entry ∉ greedy (entrySize (encodedLength number)) max 2 (before ++ entry :: after) := by
      rw [← split]
      exact fun kept => omitted ((mem_pruned plain listed).mpr kept)
    have exceeds := greedy_omitted out
    have some_ : greedy (entrySize (encodedLength number)) max 2 before ++ [entry] ≠ [] := by simp
    rw [spent_encoded some_ ?_, ← encodedLength_perm (by simp) (perm.append_right [entry])] at exceeds
    · omega
    · intro x member
      rcases List.mem_append.mp member with kept | last
      · exact plain x (mem_sortRawKeys.mp (split ▸ List.mem_append_left _ ((greedy_sublist _ _).subset kept)))
      · exact List.mem_singleton.mp last ▸ plain entry listed

/-- `strings.ToLower` on ASCII. -/
def asciiLower (s : String) : String := String.ofList (s.toList.map Char.toLower)

/-- A picture's bytes are left out beside its caption. -/
theorem caption_kept :
    let number := fun n : Int => (toString n).toList
    let tree : List (String × RawValue Int) := [("JPEGThumbnail", .str "/9j/4AAQSkZJRgABAQAA"), ("caption", .str "hi")]
    let out := pruneRaw (encodedLength number) (.obj []) asciiLower tree 40
    out.2 = true ∧ encodedLength number (.obj out.1) ≤ 40 := by
  intro number tree out
  have holds := pruneRaw_holds number asciiLower tree 40 (by decide) (by decide) (by rw [encodedLength_marker]; decide)
  exact ⟨by decide, holds.1⟩

/-- An entry whose object is exactly the cap is left out, and the empty object is reported as cut. -/
theorem exact_entry_left_out :
    let number := fun n : Int => (toString n).toList
    let prune := pruneRaw (encodedLength number) (.obj []) asciiLower
    let entry : String × RawValue Int := ("a", .str "twenty characters ok")
    ¬ (entry ∉ (prune [entry] 28).1 → 28 < encodedLength number (.obj [entry])) ∧
      ¬ ((prune [] 28).2 = true ↔ ∃ entry ∈ ([] : List (String × RawValue Int)), entry ∉ (prune [] 28).1) := by
  intro number prune entry
  have reduced : (prune [entry] 28).1.map Prod.fst = ["<truncated>"] := by decide
  have exact_ : encodedLength number (.obj [entry]) = 28 := by decide
  have cut : (prune [] 28).2 = true := by decide
  constructor
  · intro large
    have exceeds := large fun kept => by
      have key := @List.mem_map_of_mem _ _ _ _ Prod.fst kept
      rw [reduced] at key
      exact absurd key (by decide)
    omega
  · intro exactly
    obtain ⟨entry, member, -⟩ := exactly.mp cut
    cases member

end

/-! ### The messages' trees -/

theorem utf8Size_ascii {c : Char} (ascii : c.toNat < 128) : c.utf8Size = 1 := by
  have low : c.val ≤ 0x7f := by
    rw [UInt32.le_iff_toNat_le]
    exact Nat.le_of_lt_succ ascii
  exact if_pos low

theorem utf8Size_hexDigit : ∀ n < 16, (hexDigit n).utf8Size = 1 := by decide

theorem bytes_ascii {cs : List Char} (ascii : ∀ c ∈ cs, c.utf8Size = 1) : bytes cs = cs.length := by
  induction cs with
  | nil => rfl
  | cons c cs ih =>
    rw [bytes_cons, ascii c List.mem_cons_self, ih fun d member => ascii d (List.mem_cons_of_mem _ member), List.length_cons,
      Nat.add_comm]

theorem bytes_marshalChar (c : Char) : bytes (marshalChar c) = marshalledChar c := by
  unfold marshalChar marshalledChar
  by_cases quoted : c = '"' ∨ c = '\\'
  · rw [if_pos quoted, if_pos quoted]
    rcases quoted with rfl | rfl <;> decide
  rw [if_neg quoted, if_neg quoted]
  by_cases short : c.toNat ∈ [0x08, 0x09, 0x0A, 0x0C, 0x0D]
  · rw [if_pos short]
    simp only [List.mem_cons, List.not_mem_nil, or_false] at short
    split_ifs
    iterate 5 decide
    all_goals omega
  · rw [if_neg short]
    simp only [List.mem_cons, List.not_mem_nil, or_false, not_or] at short
    obtain ⟨b, t, n, f, r⟩ := short
    rw [if_neg b, if_neg t, if_neg n, if_neg f, if_neg r]
    by_cases html : c.toNat < 0x20 ∨ c = '<' ∨ c = '>' ∨ c = '&'
    · have high : c.toNat / 16 < 16 := by
        rcases html with control | rfl | rfl | rfl
        · omega
        all_goals decide
      have low : c.toNat % 16 < 16 := Nat.mod_lt _ (by decide)
      rw [if_pos html, bytes_ascii]
      · by_cases control : c.toNat < 0x20
        · rw [if_pos control]
          rfl
        · rw [if_neg control, if_pos (html.resolve_left control)]
          rfl
      · intro d member
        simp only [List.mem_cons, List.not_mem_nil, or_false] at member
        rcases member with rfl | rfl | rfl | rfl | rfl | rfl
        iterate 4 decide
        · exact utf8Size_hexDigit _ high
        · exact utf8Size_hexDigit _ low
    · rw [if_neg html, if_neg fun control => html (Or.inl control), if_neg fun sign => html (Or.inr sign)]
      by_cases separator : c.toNat = 0x2028 ∨ c.toNat = 0x2029
      · rw [if_pos separator, if_pos separator]
        rcases separator with line | paragraph
        · rw [line]
          decide
        · rw [paragraph]
          decide
      · rw [if_neg separator, if_neg separator, bytes_cons]
        rfl

mutual

def ofJson : Json → RawValue Int
  | .null => .null
  | .bool value => .bool value
  | .num value => .num value
  | .str value => .str value
  | .arr items => .arr (ofItems items)
  | .obj fields => .obj (ofFields fields)

def ofItems : List Json → List (RawValue Int)
  | [] => []
  | item :: items => ofJson item :: ofItems items

def ofFields : List (String × Json) → List (String × RawValue Int)
  | [] => []
  | (key, value) :: fields => (key, ofJson value) :: ofFields fields

end

/-- An integer in decimal. -/
def decimal (n : Int) : List Char := (toString n).toList

theorem bytes_decimal (n : Int) : bytes (decimal n) = marshalledInt n := by
  have digits (n : Nat) : ∀ c ∈ n.repr.toList, c.utf8Size = 1 := by
    intro c member
    rw [Nat.toList_repr] at member
    have digit := Nat.isDigit_of_mem_toDigits (by decide) (by decide) member
    exact utf8Size_ascii (by rw [isDigit_iff] at digit; omega)
  refine (bytes_ascii ?_).trans String.length_toList
  cases n with
  | ofNat n => exact digits n
  | negSucc n =>
    intro c member
    have sign : decimal (Int.negSucc n) = '-' :: (n + 1).repr.toList := String.toList_append (s := "-")
    rw [sign] at member
    rcases List.mem_cons.mp member with rfl | digit
    · rfl
    · exact digits _ c digit

theorem bytes_flatMap (cs : List Char) : bytes (cs.flatMap marshalChar) = (cs.map marshalledChar).sum := by
  induction cs with
  | nil => rfl
  | cons c cs ih => rw [List.flatMap_cons, bytes_append, bytes_marshalChar, ih, List.map_cons, List.sum_cons]

theorem bytes_marshalString (s : String) : bytes (marshalString s) = marshalledString s := by
  have quotation : Char.utf8Size '"' = 1 := by decide
  have closing : bytes ['"'] = 1 := by decide
  rw [marshalString, bytes_cons, bytes_append, bytes_flatMap, quotation, closing, marshalledString]
  omega

mutual

theorem marshalled_encoded : (value : Json) → value.marshalled = encodedLength decimal (ofJson value)
  | .null => by decide
  | .bool true => by decide
  | .bool false => by decide
  | .num n => (bytes_decimal n).symm
  | .str s => (bytes_marshalString s).symm
  | .arr items => by
    have opening : Char.utf8Size '[' = 1 := by decide
    have closing : bytes [']'] = 1 := by decide
    rw [Json.marshalled, marshalledItems_encoded items, ofJson, encodedLength, marshal, bytes_cons, bytes_append, opening, closing]
    omega
  | .obj [] => by decide
  | .obj (field :: fields) => by
    have rest := marshalledFields_encoded (field :: fields) (List.cons_ne_nil _ _)
    rw [Json.marshalled, ofJson, encodedLength_obj (by rw [ofFields]; exact List.cons_ne_nil _ _), ← rest]
    omega

theorem marshalledItems_encoded :
    (items : List Json) → Json.marshalledItems items = bytes ([','].intercalate (marshalItems decimal (ofItems items)))
  | [] => rfl
  | [item] => by
    rw [Json.marshalledItems, marshalled_encoded item, ofItems, ofItems, marshalItems, marshalItems, List.intercalate_singleton,
      encodedLength]
  | item :: next :: items => by
    have comma : Char.utf8Size ',' = 1 := by decide
    have some_ : marshalItems decimal (ofItems (next :: items)) ≠ [] := by
      rw [ofItems, marshalItems]
      exact List.cons_ne_nil _ _
    have whole : marshalItems decimal (ofItems (item :: next :: items)) =
        marshal decimal (ofJson item) :: marshalItems decimal (ofItems (next :: items)) := by
      rw [ofItems, marshalItems]
    rw [Json.marshalledItems, marshalled_encoded item, marshalledItems_encoded (next :: items), whole,
      intercalate_cons _ some_, bytes_append, bytes_cons, comma, ← encodedLength]
    · omega
    · exact List.cons_ne_nil _ _

theorem marshalledFields_encoded : (fields : List (String × Json)) → fields ≠ [] →
    Json.marshalledFields fields + 1 = ((ofFields fields).map (entryBytes decimal)).sum
  | [], some_ => absurd rfl some_
  | [(key, value)], _ => by
    rw [Json.marshalledFields, marshalled_encoded value, ofFields, ofFields, List.map_singleton, List.sum_singleton, entryBytes,
      bytes_marshalString]
  | (key, value) :: next :: fields, _ => by
    have rest := marshalledFields_encoded (next :: fields) (List.cons_ne_nil _ _)
    rw [Json.marshalledFields, marshalled_encoded value, ofFields, List.map_cons, List.sum_cons, ← rest, entryBytes,
      bytes_marshalString]
    · dsimp only
      omega
    · exact List.cons_ne_nil _ _

end

theorem ofFields_eq (fields : List (String × Json)) : ofFields fields = fields.map fun field => (field.1, ofJson field.2) := by
  induction fields with
  | nil => rw [ofFields]; rfl
  | cons field fields ih =>
    obtain ⟨key, value⟩ := field
    rw [ofFields, ih]
    rfl

/-- A message's pruned tree comes to the cap at most. -/
theorem pruned_message_fits [Unicode] {tree : List (String × Json)} {max : Nat} (plain : ∀ entry ∈ tree, Unescaped entry.1)
    (room : 28 ≤ max) : (Json.obj (Ingest.pruneRaw tree max).1).marshalled ≤ max := by
  rw [pruneRaw_json, pruneRaw_eq]
  split
  · have reduced : (Json.obj (marker (.obj []))).marshalled = 28 := by decide
    rwa [reduced]
  · rename_i some_
    have kept_some : keptEntries Json.marshalled Ingest.toLower tree max ≠ [] := fun none => some_ (List.isEmpty_iff.mpr none)
    have fits := @spent_greedy _ _ _ (entrySize Json.marshalled) max _ 2 (by omega) (SearchText.sortRawKeys Ingest.toLower tree)
    have each : (ofFields (keptEntries Json.marshalled Ingest.toLower tree max)).map (entryBytes decimal) =
        (keptEntries Json.marshalled Ingest.toLower tree max).map (entrySize Json.marshalled) := by
      rw [ofFields_eq, List.map_map]
      apply List.map_congr_left
      intro entry kept
      rw [Function.comp_apply, entryBytes_unescaped (plain entry (mem_kept kept)), entrySize, entrySize, marshalled_encoded]
    have written := marshalledFields_encoded _ kept_some
    rw [← keptEntries, spent_sum] at fits
    rw [each] at written
    show (Json.obj (keptEntries Json.marshalled Ingest.toLower tree max)).marshalled ≤ max
    rw [Json.marshalled]
    omega

end GroupButler.Ingest.Pruning
