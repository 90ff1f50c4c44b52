import GroupButler.Media.Duration

/-!
# ISO media files

The format of an ISO media file with one movie header, written box by box, and what
`mediaDurationSeconds` makes of it.
-/

namespace GroupButler.Media
open Foundation

/-! ### Boxes -/

/-- How a box says its size: in 32 bits, in 64 bits, or by running to the end of its container. -/
inductive SizeForm where
  | short | long | toEnd
  deriving DecidableEq, Repr

structure FormatBox where
  typ : List UInt8
  form : SizeForm
  content : List UInt8
  typ_length : typ.length = 4
  short_fits : form = .short → 8 + content.length < 2 ^ 32

def FormatBox.front (box : FormatBox) : List UInt8 :=
  match box.form with
  | .short => beBytes 4 (8 + box.content.length) ++ box.typ
  | .long => beBytes 4 1 ++ (box.typ ++ beBytes 8 (16 + box.content.length))
  | .toEnd => beBytes 4 0 ++ box.typ

def FormatBox.encode (box : FormatBox) : List UInt8 := box.front ++ box.content

def encodeAll (boxes : List FormatBox) : List UInt8 := boxes.flatMap FormatBox.encode

theorem encodeAll_cons (box : FormatBox) (boxes : List FormatBox) : encodeAll (box :: boxes) = box.encode ++ encodeAll boxes :=
  List.flatMap_cons

theorem encodeAll_append (first second : List FormatBox) : encodeAll (first ++ second) = encodeAll first ++ encodeAll second :=
  List.flatMap_append

/-- Only the last box may run to the end. -/
def LastToEnd : List FormatBox → Prop
  | [] => True
  | box :: boxes => (box.form = .toEnd → boxes = []) ∧ LastToEnd boxes

theorem LastToEnd.right {before after : List FormatBox} (formed : LastToEnd (before ++ after)) : LastToEnd after := by
  induction before with
  | nil => exact formed
  | cons box boxes ih => exact ih formed.2

/-- The boxes that a walk finds, from the offset they start at. -/
def placed : Nat → List FormatBox → List IsoBox
  | _, [] => []
  | off, box :: boxes =>
    ⟨off, ↑(off + box.front.length), ↑(off + box.encode.length), box.typ⟩ :: placed (off + box.encode.length) boxes

theorem FormatBox.length_front (box : FormatBox) : box.front.length = if box.form = .long then 16 else 8 := by
  have typ := box.typ_length
  unfold FormatBox.front
  cases box.form <;> simp [typ]

theorem FormatBox.length_encode (box : FormatBox) : box.encode.length = box.front.length + box.content.length :=
  List.length_append

theorem fits_inside {data : List UInt8} {off header size : Nat} (addressable : Addressable data) (long : header ≤ size)
    (inside : off + size ≤ data.length) : fits data off header size = .box header size := by
  have limit : data.length ≤ 2 ^ 48 := addressable
  rw [fits, if_neg (by omega), if_neg (by omega), if_neg (by omega)]

theorem headerAt_encode {before after : List UInt8} {box : FormatBox} (last : box.form = .toEnd → after = [])
    (addressable : Addressable (before ++ (box.encode ++ after))) :
    headerAt (before ++ (box.encode ++ after)) before.length = .box box.front.length box.encode.length := by
  have typ := box.typ_length
  have fronts := box.length_front
  have encoded := box.length_encode
  have total : (before ++ (box.encode ++ after)).length = before.length + (box.encode.length + after.length) := by
    rw [List.length_append, List.length_append]
  have limit : before.length + (box.encode.length + after.length) ≤ 2 ^ 48 := total ▸ addressable
  have inside := @fits_inside _ before.length box.front.length box.encode.length addressable (by omega) (by omega)
  have word {n : Nat} {rest : List UInt8} (small : n < 2 ^ 32) (front : box.front = beBytes 4 n ++ rest) :
      bigEndian (range (before ++ (box.encode ++ after)) before.length (before.length + 4)) = n := by
    rw [@range_at _ before (beBytes 4 n) (rest ++ (box.content ++ after)) _ _
      (by rw [FormatBox.encode, front]; simp only [List.append_assoc]) rfl (by rw [length_beBytes])]
    exact bigEndian_beBytes small
  unfold headerAt
  dsimp only
  rw [if_neg (by split at fronts <;> omega)]
  cases form : box.form with
  | short =>
    rw [if_neg (by rw [form]; exact SizeForm.noConfusion)] at fronts
    have small := box.short_fits form
    rw [word small (by rw [FormatBox.front, form]), if_neg (by omega), if_neg (by omega), ← inside, encoded, fronts]
  | toEnd =>
    rw [if_neg (by rw [form]; exact SizeForm.noConfusion)] at fronts
    have ends : after.length = 0 := by rw [last form, List.length_nil]
    have size : (before ++ (box.encode ++ after)).length - before.length = box.encode.length := by omega
    rw [@word 0 box.typ (by decide) (by rw [FormatBox.front, form]), if_neg (by decide), if_pos rfl, size, ← inside, fronts]
  | long =>
    rw [if_pos form] at fronts
    have wide : 16 + box.content.length < 256 ^ 8 := by omega
    rw [@word 1 _ (by decide) (by rw [FormatBox.front, form]), if_pos rfl, if_neg (by omega)]
    rw [@range_at _ (before ++ beBytes 4 1 ++ box.typ) (beBytes 8 (16 + box.content.length)) (box.content ++ after) _ _
      (by rw [FormatBox.encode, FormatBox.front, form]; simp only [List.append_assoc])
      (by simp only [List.length_append, length_beBytes, typ]) (by rw [length_beBytes])]
    rw [bigEndian_beBytes wide, ← inside, encoded, fronts]

theorem boxAt_encode {before after : List UInt8} (box : FormatBox) :
    boxAt (before ++ (box.encode ++ after)) before.length box.front.length box.encode.length =
      ⟨before.length, ↑(before.length + box.front.length), ↑(before.length + box.encode.length), box.typ⟩ := by
  have typ := box.typ_length
  have field {word rest : List UInt8} (four : word.length = 4) (front : box.front = word ++ (box.typ ++ rest)) :
      range (before ++ (box.encode ++ after)) (before.length + 4) (before.length + 8) = box.typ :=
    @range_at _ (before ++ word) box.typ (rest ++ (box.content ++ after)) _ _
      (by rw [FormatBox.encode, front]; simp only [List.append_assoc]) (by rw [List.length_append, four]) (by rw [typ])
  rw [boxAt]
  cases form : box.form with
  | short => rw [@field (beBytes 4 (8 + box.content.length)) [] (length_beBytes _ _) (by
      rw [FormatBox.front, form, List.append_nil])]
  | toEnd => rw [@field (beBytes 4 0) [] (length_beBytes _ _) (by rw [FormatBox.front, form, List.append_nil])]
  | long => rw [@field (beBytes 4 1) _ (length_beBytes _ _) (by rw [FormatBox.front, form])]

/-- The walk of well-formed boxes finds each of them at its place. -/
theorem walk_encode {boxes : List FormatBox} (formed : LastToEnd boxes) :
    ∀ before : List UInt8, Addressable (before ++ encodeAll boxes) →
      Walk (before ++ encodeAll boxes) before.length (placed before.length boxes) := by
  induction boxes with
  | nil =>
    intro before addressable
    refine .stop ?_
    rw [headerAt, if_pos (by simp [encodeAll])]
  | cons box boxes ih =>
    intro before addressable
    have split : before ++ encodeAll (box :: boxes) = before ++ (box.encode ++ encodeAll boxes) := by
      rw [encodeAll_cons]
    have last (form : box.form = .toEnd) : encodeAll boxes = [] := by
      rw [formed.1 form]
      rfl
    have rest := ih formed.2 (before ++ box.encode)
    rw [List.append_assoc, List.length_append] at rest
    rw [split] at addressable ⊢
    rw [placed, ← @boxAt_encode before (encodeAll boxes) box]
    exact .box (headerAt_encode last addressable) (rest addressable)

/-! ### One box among others -/

theorem placed_append (off : Nat) (first second : List FormatBox) :
    placed off (first ++ second) = placed off first ++ placed (off + (encodeAll first).length) second := by
  induction first generalizing off with
  | nil => rfl
  | cons box first ih =>
    rw [List.cons_append, placed, ih, placed, List.cons_append, encodeAll_cons, List.length_append, Nat.add_assoc]

theorem placed_typ {off : Nat} {boxes : List FormatBox} {typ : List UInt8} (other : ∀ box ∈ boxes, box.typ ≠ typ) :
    ∀ box ∈ placed off boxes, box.typ ≠ typ := by
  induction boxes generalizing off with
  | nil => simp [placed]
  | cons box boxes ih =>
    intro found member
    rcases List.mem_cons.mp member with rfl | member
    · exact other box List.mem_cons_self
    · exact ih (fun box inside => other box (List.mem_cons_of_mem _ inside)) found member

theorem fileSeconds_skip {data : List UInt8} {boxes : List IsoBox} (other : ∀ box ∈ boxes, box.typ ≠ moovType)
    (rest : List IsoBox) : fileSeconds data (boxes ++ rest) = fileSeconds data rest := by
  induction boxes with
  | nil => rfl
  | cons box boxes ih =>
    rw [List.cons_append, fileSeconds, if_pos (other box List.mem_cons_self)]
    exact ih fun box inside => other box (List.mem_cons_of_mem _ inside)

theorem movieSeconds_skip {content : List UInt8} {boxes : List IsoBox} (other : ∀ box ∈ boxes, box.typ ≠ mvhdType)
    (rest : List IsoBox) : movieSeconds content (boxes ++ rest) = movieSeconds content rest := by
  induction boxes with
  | nil => rfl
  | cons box boxes ih =>
    rw [List.cons_append, movieSeconds, if_pos (other box List.mem_cons_self)]
    exact ih fun box inside => other box (List.mem_cons_of_mem _ inside)

/-- A box with others on both sides of it. -/
structure Among (typ : List UInt8) where
  before : List FormatBox
  box : FormatBox
  after : List FormatBox
  box_typ : box.typ = typ
  others : ∀ other ∈ before ++ after, other.typ ≠ typ
  formed : LastToEnd (before ++ box :: after)

section
variable {typ : List UInt8}

def Among.bytes (among : Among typ) : List UInt8 := encodeAll (among.before ++ among.box :: among.after)

/-- Where the box stands. -/
def Among.off (among : Among typ) : Nat := (encodeAll among.before).length

theorem Among.bytes_split (among : Among typ) :
    among.bytes = encodeAll among.before ++ (among.box.encode ++ encodeAll among.after) := by
  rw [Among.bytes, encodeAll_append, encodeAll_cons]

theorem Among.walk (among : Among typ) (addressable : Addressable among.bytes) :
    ∃ before after, (∀ box ∈ before, box.typ ≠ typ) ∧ (∀ box ∈ after, box.typ ≠ typ) ∧
      isoBoxes among.bytes =
        .ok (before ++ boxAt among.bytes among.off among.box.front.length among.box.encode.length :: after) := by
  have walk := walk_encode among.formed [] addressable
  refine ⟨placed 0 among.before, placed (among.off + among.box.encode.length) among.after, ?_, ?_, ?_⟩
  · exact placed_typ fun box member => among.others box (List.mem_append_left _ member)
  · exact placed_typ fun box member => among.others box (List.mem_append_right _ member)
  · rw [isoBoxes_walk addressable walk, List.length_nil, placed_append, placed, Nat.zero_add, among.bytes_split,
      Among.off, boxAt_encode]

theorem Among.boxAt_typ (among : Among typ) :
    (boxAt among.bytes among.off among.box.front.length among.box.encode.length).typ = typ := by
  rw [among.bytes_split, Among.off, boxAt_encode]
  exact among.box_typ

theorem Among.slices (among : Among typ) (addressable : Addressable among.bytes) :
    slice among.bytes (boxAt among.bytes among.off among.box.front.length among.box.encode.length).start
        (boxAt among.bytes among.off among.box.front.length among.box.encode.length).stop = .ok among.box.encode ∧
      slice among.bytes (boxAt among.bytes among.off among.box.front.length among.box.encode.length).content
        (boxAt among.bytes among.off among.box.front.length among.box.encode.length).stop = .ok among.box.content := by
  have last (form : among.box.form = .toEnd) : encodeAll among.after = [] := by
    rw [among.formed.right.1 form]
    rfl
  rw [among.bytes_split] at addressable ⊢
  have header := headerAt_encode last addressable
  obtain ⟨whole, content⟩ := slice_boxAt header
  rw [Among.off, whole, content, range_append]
  refine ⟨rfl, congrArg Except.ok (@range_at _ (encodeAll among.before ++ among.box.front) _ (encodeAll among.after) _ _ ?_ ?_ ?_)⟩
  · rw [FormatBox.encode]
    simp only [List.append_assoc]
  · rw [List.length_append]
  · rw [among.box.length_encode, Nat.add_assoc]

end

/-! ### A file with one movie header -/

/-- The content of a movie header box. Version 1 has eight bytes for a time, version 0 four. -/
structure MovieHeader where
  version : Fin 2
  flags : List UInt8
  creation : Nat
  modification : Nat
  timescale : Nat
  duration : Nat
  rest : List UInt8
  flags_length : flags.length = 3
  rest_length : rest.length = 80
  creation_fits : creation < 256 ^ (4 + 4 * version.val)
  modification_fits : modification < 256 ^ (4 + 4 * version.val)
  timescale_fits : timescale < 256 ^ 4
  timescale_pos : 0 < timescale
  duration_fits : duration < 256 ^ (4 + 4 * version.val)

/-- The width of the header's times. -/
def MovieHeader.width (header : MovieHeader) : Nat := 4 + 4 * header.version.val

def MovieHeader.encode (header : MovieHeader) : List UInt8 :=
  UInt8.ofNat header.version.val :: header.flags ++ beBytes header.width header.creation ++
    beBytes header.width header.modification ++ beBytes 4 header.timescale ++ beBytes header.width header.duration ++
    header.rest

/-- A file with one `moov` box, and in it one `mvhd` box. -/
structure MovieFile where
  header : MovieHeader
  mvhd : Among mvhdType
  moov : Among moovType
  mvhd_content : mvhd.box.content = header.encode
  moov_content : moov.box.content = mvhd.bytes
  addressable : Addressable moov.bytes

def MovieFile.bytes (file : MovieFile) : List UInt8 := file.moov.bytes

theorem MovieFile.seconds (file : MovieFile) :
    mediaDurationSeconds file.bytes =
      .ok (match movieTimes file.mvhd.box.encode with
        | none => 0
        | some (timescale, duration) => duration / timescale) := by
  obtain ⟨before, after, plain, plain', boxes⟩ := file.moov.walk file.addressable
  have inside : Addressable file.mvhd.bytes := by
    have outer := file.addressable
    rw [file.moov.bytes_split, FormatBox.encode, file.moov_content] at outer
    simp only [Addressable, List.length_append] at outer ⊢
    omega
  obtain ⟨before', after', silent, silent', inner⟩ := file.mvhd.walk inside
  obtain ⟨whole, -⟩ := file.mvhd.slices inside
  obtain ⟨-, content⟩ := file.moov.slices file.addressable
  rw [file.moov_content] at content
  have none_after : movieSeconds file.mvhd.bytes after' = .ok none := by
    rw [← List.append_nil after', movieSeconds_skip silent']
    rfl
  have zero_after : fileSeconds file.moov.bytes after = .ok 0 := by
    rw [← List.append_nil after, fileSeconds_skip plain']
    rfl
  rw [mediaDurationSeconds, MovieFile.bytes, boxes]
  simp only [bind, Except.bind]
  rw [fileSeconds_skip plain, fileSeconds, if_neg (not_not.mpr file.moov.boxAt_typ), content]
  simp only [bind, Except.bind]
  rw [inner]
  dsimp only
  rw [movieSeconds_skip silent, movieSeconds, if_neg (not_not.mpr file.mvhd.boxAt_typ), whole]
  simp only [bind, Except.bind, parseMvhd_eq]
  cases times : movieTimes file.mvhd.box.encode with
  | none => rw [none_after, zero_after]
  | some pair =>
    obtain ⟨timescale, duration⟩ := pair
    dsimp only
    by_cases positive : 0 < timescale
    · rw [if_pos positive]
    · obtain rfl : timescale = 0 := by omega
      rw [if_neg positive, none_after]
      dsimp only
      rw [zero_after, Nat.cast_zero, div_zero]

/-! ### The fields by the header's form -/

section
variable {box : FormatBox} {header : MovieHeader}

theorem getElem?_at {bytes before after : List UInt8} {byte : UInt8} {i : Nat} (split : bytes = before ++ byte :: after)
    (place : i = before.length) : bytes[i]? = some byte := by
  rw [split, place, List.getElem?_append_right (Nat.le_refl _), Nat.sub_self, List.getElem?_cons_zero]

theorem MovieHeader.length_encode (header : MovieHeader) : header.encode.length = 88 + 3 * header.width := by
  simp only [MovieHeader.encode, List.length_append, List.length_cons, length_beBytes, header.flags_length,
    header.rest_length]
  omega

theorem MovieHeader.width_cases (header : MovieHeader) :
    header.version = 0 ∧ header.width = 4 ∨ header.version = 1 ∧ header.width = 8 := by
  unfold MovieHeader.width
  match header.version with
  | 0 => exact Or.inl ⟨rfl, rfl⟩
  | 1 => exact Or.inr ⟨rfl, rfl⟩

/-- After an eight-byte header the fields stand where they are read. -/
theorem movieTimes_short (content : box.content = header.encode) (form : box.form ≠ .long) :
    movieTimes box.encode = some (header.timescale, header.duration) := by
  have front := box.length_front
  rw [if_neg form] at front
  have length := box.length_encode
  rw [front, content, header.length_encode] at length
  have flags := header.flags_length
  have version : box.encode[8]? = some (UInt8.ofNat header.version.val) :=
    @getElem?_at _ box.front (header.flags ++ (beBytes header.width header.creation ++ (beBytes header.width
      header.modification ++ (beBytes 4 header.timescale ++ (beBytes header.width header.duration ++ header.rest))))) _ _
      (by rw [FormatBox.encode, content, MovieHeader.encode]; simp only [List.append_assoc, List.cons_append]) front.symm
  have timescale : range box.encode (12 + 2 * header.width) (16 + 2 * header.width) = beBytes 4 header.timescale :=
    @range_at _ (box.front ++ UInt8.ofNat header.version.val :: header.flags ++ beBytes header.width header.creation ++
      beBytes header.width header.modification) _ (beBytes header.width header.duration ++ header.rest) _ _
      (by rw [FormatBox.encode, content, MovieHeader.encode]; simp only [List.append_assoc, List.cons_append])
      (by simp only [List.length_append, List.length_cons, length_beBytes, front, flags]; omega)
      (by rw [length_beBytes]; omega)
  have duration : range box.encode (16 + 2 * header.width) (16 + 3 * header.width) = beBytes header.width header.duration :=
    @range_at _ (box.front ++ UInt8.ofNat header.version.val :: header.flags ++ beBytes header.width header.creation ++
      beBytes header.width header.modification ++ beBytes 4 header.timescale) _ header.rest _ _
      (by rw [FormatBox.encode, content, MovieHeader.encode]; simp only [List.append_assoc, List.cons_append])
      (by simp only [List.length_append, List.length_cons, length_beBytes, front, flags]; omega)
      (by rw [length_beBytes]; omega)
  have fits := header.duration_fits
  rw [← MovieHeader.width] at fits
  rcases header.width_cases with ⟨zero, width⟩ | ⟨one, width⟩
  · rw [width] at timescale duration fits length
    rw [zero] at version
    rw [movieTimes, version, if_neg (by decide), if_neg (by omega), timescale, duration,
      bigEndian_beBytes header.timescale_fits, bigEndian_beBytes fits]
  · rw [width] at timescale duration fits length
    rw [one] at version
    rw [movieTimes, version, if_pos (by decide), if_neg (by omega), timescale, duration,
      bigEndian_beBytes header.timescale_fits, bigEndian_beBytes fits]

/-- What is read as timescale and duration after a sixteen-byte header: the times in front of them. -/
def MovieHeader.misread (header : MovieHeader) : Nat × Nat :=
  if header.version = 0 then (header.creation, header.modification)
  else (header.creation / 256 ^ 4, header.creation % 256 ^ 4)

theorem movieTimes_long (content : box.content = header.encode) (form : box.form = .long) :
    movieTimes box.encode = some header.misread := by
  have front := box.length_front
  rw [if_pos form] at front
  have length := box.length_encode
  rw [front, content, header.length_encode] at length
  have flags := header.flags_length
  have typ := box.typ_length
  -- The byte taken for the version is the first of the 64-bit size.
  have version : box.encode[8]? = some 0 := by
    have size : beBytes 8 (16 + box.content.length) = 0 :: beBytes 7 (16 + box.content.length) := by
      rw [content, header.length_encode]
      rcases header.width_cases with ⟨-, width⟩ | ⟨-, width⟩ <;> rw [width] <;> decide
    refine @getElem?_at _ (beBytes 4 1 ++ box.typ) (beBytes 7 (16 + box.content.length) ++ box.content) _ _ ?_ ?_
    · rw [FormatBox.encode, FormatBox.front, form]
      simp only [size, List.append_assoc, List.cons_append]
    · rw [List.length_append, length_beBytes, typ]
  have field {first second rest : List UInt8} (four : first.length = 4) (four' : second.length = 4)
      (times : header.encode = UInt8.ofNat header.version.val :: header.flags ++ (first ++ (second ++ rest))) :
      range box.encode 20 24 = first ∧ range box.encode 24 28 = second := by
    constructor
    · exact @range_at _ (box.front ++ UInt8.ofNat header.version.val :: header.flags) _ (second ++ rest) _ _
        (by rw [FormatBox.encode, content, times]; simp only [List.append_assoc, List.cons_append])
        (by simp only [List.length_append, List.length_cons, front, flags]) (by rw [four])
    · exact @range_at _ (box.front ++ UInt8.ofNat header.version.val :: header.flags ++ first) _ rest _ _
        (by rw [FormatBox.encode, content, times]; simp only [List.append_assoc, List.cons_append])
        (by simp only [List.length_append, List.length_cons, front, flags, four]) (by rw [four'])
  have fits := header.creation_fits
  have fits' := header.modification_fits
  rw [← MovieHeader.width] at fits fits'
  rw [movieTimes, version, if_neg (by decide), if_neg (by omega), MovieHeader.misread]
  rcases header.width_cases with ⟨zero, width⟩ | ⟨one, width⟩
  · rw [width] at fits fits'
    obtain ⟨first, second⟩ := @field (beBytes 4 header.creation) (beBytes 4 header.modification)
      (beBytes 4 header.timescale ++ (beBytes 4 header.duration ++ header.rest)) (length_beBytes _ _) (length_beBytes _ _)
      (by rw [MovieHeader.encode, width]; simp only [List.append_assoc, List.cons_append])
    rw [first, second, if_pos zero, bigEndian_beBytes fits, bigEndian_beBytes fits']
  · rw [width] at fits
    obtain ⟨first, second⟩ := @field (beBytes 4 (header.creation / 256 ^ 4)) (beBytes 4 header.creation)
      (beBytes 8 header.modification ++ (beBytes 4 header.timescale ++ (beBytes 8 header.duration ++ header.rest)))
      (length_beBytes _ _) (length_beBytes _ _)
      (by
        rw [MovieHeader.encode, width, beBytes_add 4 4 header.creation]
        simp only [List.append_assoc, List.cons_append])
    have high : header.creation / 256 ^ 4 < 256 ^ 4 := by
      rw [Nat.div_lt_iff_lt_mul (by decide), ← pow_add]
      exact fits
    rw [first, second, if_neg (by rw [one]; decide), bigEndian_beBytes high, bigEndian_beBytes_mod]

end

/-- The duration is right just when the movie header box is not in the 64-bit form, or when the times in front of
its fields have the same ratio. -/
theorem movie_duration_iff (file : MovieFile) :
    mediaDurationSeconds file.bytes = .ok (file.header.duration / file.header.timescale) ↔
      file.mvhd.box.form ≠ .long ∨
        (file.header.misread.2 : ℚ) / file.header.misread.1 = file.header.duration / file.header.timescale := by
  rw [file.seconds]
  by_cases form : file.mvhd.box.form = .long
  · rw [movieTimes_long file.mvhd_content form]
    exact ⟨fun same => Or.inr (Except.ok.inj same), fun same => congrArg Except.ok (same.resolve_left (not_not.mpr form))⟩
  · rw [movieTimes_short file.mvhd_content form]
    exact iff_of_true rfl (Or.inl form)

/-- A movie of five seconds, its `mvhd` box in the 64-bit form. -/
def fiveSeconds : MovieHeader where
  version := 0
  flags := [0, 0, 0]
  creation := 0
  modification := 0
  timescale := 1000
  duration := 5000
  rest := List.replicate 80 0
  flags_length := rfl
  rest_length := rfl
  creation_fits := by decide
  modification_fits := by decide
  timescale_fits := by decide
  timescale_pos := by decide
  duration_fits := by decide

def fiveSecondsMvhd : Among mvhdType where
  before := []
  box := ⟨mvhdType, .long, fiveSeconds.encode, rfl, nofun⟩
  after := []
  box_typ := rfl
  others := nofun
  formed := ⟨fun _ => rfl, trivial⟩

def fiveSecondsFile : MovieFile where
  header := fiveSeconds
  mvhd := fiveSecondsMvhd
  moov :=
    { before := [⟨[0x66, 0x74, 0x79, 0x70], .short, [0x69, 0x73, 0x6F, 0x6D, 0, 0, 0, 0], rfl, fun _ => by decide⟩]
      box := ⟨moovType, .short, fiveSecondsMvhd.bytes, rfl, fun _ => by decide⟩
      after := []
      box_typ := rfl
      others := by decide
      formed := ⟨nofun, nofun, trivial⟩ }
  mvhd_content := rfl
  moov_content := rfl
  addressable := by
    unfold Addressable
    decide +kernel

theorem movie_duration_lost :
    mediaDurationSeconds fiveSecondsFile.bytes = .ok 0 ∧
      fiveSecondsFile.header.duration = 5 * fiveSecondsFile.header.timescale := by
  decide +kernel

end GroupButler.Media
