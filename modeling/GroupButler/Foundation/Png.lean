import GroupButler.Foundation.Bytes
import GroupButler.Foundation.Crc

/-!
# Grey pictures as files

A strict reader of the PNG format, for pictures of eight bits a pixel, neither filtered nor interlaced: the
signature, chunks with their checksums, and the scanlines behind the inflated data.
-/

namespace GroupButler.Foundation.Png

def signature : List UInt8 := [0x89, 0x50, 0x4e, 0x47, 0x0d, 0x0a, 0x1a, 0x0a]

def ihdr : List UInt8 := [73, 72, 68, 82]
def idat : List UInt8 := [73, 68, 65, 84]
def iend : List UInt8 := [73, 69, 78, 68]

def polynomial : BitVec 32 := 0xedb88320

/-- The checksum by long division. -/
def checksum (bytes : List UInt8) : BitVec 32 := bytes.foldl (Crc.absorb polynomial) 0xffffffff ^^^ 0xffffffff

structure Chunk where
  type : List UInt8
  data : List UInt8
  deriving DecidableEq, Repr

/-- The chunk at the front, and what follows it. -/
def readChunk (bytes : List UInt8) : Option (Chunk × List UInt8) :=
  let length := bigEndian (bytes.take 4)
  let body := (bytes.drop 4).take (4 + length)
  let rest := bytes.drop (8 + length)
  if 2 ^ 31 ≤ length ∨ bytes.length < 12 + length then none
  else if bigEndian (rest.take 4) ≠ (checksum body).toNat then none
  else some (⟨body.take 4, body.drop 4⟩, rest.drop 4)

/-- The chunks before the last one, which ends the file. -/
def readChunks : Nat → List UInt8 → Option (List Chunk)
  | 0, _ => none
  | fuel + 1, bytes =>
    (readChunk bytes).bind fun (chunk, rest) =>
      if chunk.type = iend then if chunk.data = [] ∧ rest = [] then some [] else none
      else (readChunks fuel rest).map (chunk :: ·)

/-- Lines of one filter byte, which filters nothing, and `width` pixels each. -/
def readRows (width : Nat) : Nat → List UInt8 → Option (List (List UInt8))
  | 0, raw => if raw = [] then some [] else none
  | _ + 1, [] => none
  | height + 1, filter :: raw =>
    if filter ≠ 0 ∨ raw.length < width then none
    else (readRows width height (raw.drop width)).map (raw.take width :: ·)

structure Picture where
  width : Nat
  height : Nat
  rows : List (List UInt8)
  deriving DecidableEq, Repr

/-- Eight bits of grey, deflated, adaptive filtering, no interlace. -/
def plainGrey : List UInt8 := [8, 0, 0, 0, 0]

def readPicture (inflate : List UInt8 → Option (List UInt8)) (header : List UInt8) (parts : List Chunk) : Option Picture :=
  let width := bigEndian (header.take 4)
  let height := bigEndian ((header.drop 4).take 4)
  if header.drop 8 ≠ plainGrey ∨ width = 0 ∨ height = 0 ∨ 2 ^ 31 ≤ width ∨ 2 ^ 31 ≤ height ∨ parts.any (·.type != idat) then none
  else (inflate (parts.flatMap Chunk.data)).bind fun raw => (readRows width height raw).map fun rows => ⟨width, height, rows⟩

def readPng (inflate : List UInt8 → Option (List UInt8)) (bytes : List UInt8) : Option Picture :=
  if bytes.take 8 ≠ signature then none
  else
    match readChunks bytes.length (bytes.drop 8) with
    | some (header :: parts) => if header.type = ihdr then readPicture inflate header.data parts else none
    | _ => none

/-! ### Written files -/

/-- A chunk as the format writes it. -/
def writeChunk (chunk : Chunk) : List UInt8 :=
  beBytes 4 chunk.data.length ++ (chunk.type ++ chunk.data ++ beBytes 4 (checksum (chunk.type ++ chunk.data)).toNat)

theorem readChunk_written {chunk : Chunk} (named : chunk.type.length = 4) (fits : chunk.data.length < 2 ^ 31) (rest : List UInt8) :
    readChunk (writeChunk chunk ++ rest) = some (chunk, rest) := by
  obtain ⟨type, data⟩ := chunk
  dsimp only at named fits
  have front : (writeChunk ⟨type, data⟩ ++ rest) =
      beBytes 4 data.length ++ ((type ++ data) ++ (beBytes 4 (checksum (type ++ data)).toNat ++ rest)) := by
    simp only [writeChunk, List.append_assoc]
  have length : bigEndian ((writeChunk ⟨type, data⟩ ++ rest).take 4) = data.length := by
    rw [front, List.take_left' (length_beBytes 4 _), bigEndian_beBytes (by omega)]
  have after : (writeChunk ⟨type, data⟩ ++ rest).drop 4 = (type ++ data) ++ (beBytes 4 (checksum (type ++ data)).toNat ++ rest) := by
    rw [front, List.drop_left' (length_beBytes 4 _)]
  have size : (type ++ data).length = 4 + data.length := by rw [List.length_append, named]
  have tail : (writeChunk ⟨type, data⟩ ++ rest).drop (8 + data.length) = beBytes 4 (checksum (type ++ data)).toNat ++ rest := by
    rw [show 8 + data.length = 4 + (4 + data.length) by omega, ← List.drop_drop, after, List.drop_left' size]
  have total : (writeChunk ⟨type, data⟩ ++ rest).length = 12 + data.length + rest.length := by
    rw [front, List.length_append, List.length_append, size, List.length_append, length_beBytes, length_beBytes]
    omega
  have sum : (checksum (type ++ data)).toNat < 256 ^ 4 := (checksum (type ++ data)).isLt
  unfold readChunk
  dsimp only
  rw [length, tail, after, total, List.take_left' size, if_neg (by omega), List.take_left' (length_beBytes 4 _),
    bigEndian_beBytes sum, if_neg (by simp), List.drop_left' (length_beBytes 4 _), List.take_left' named, List.drop_left' named]

/-- The chunks of a written file come back, given one round for each and one for the end. -/
theorem readChunks_written {chunks : List Chunk} (proper : ∀ chunk ∈ chunks, chunk.type.length = 4 ∧ chunk.data.length < 2 ^ 31)
    (inner : ∀ chunk ∈ chunks, chunk.type ≠ iend) {fuel : Nat} (enough : chunks.length < fuel) :
    readChunks fuel (chunks.flatMap writeChunk ++ writeChunk ⟨iend, []⟩) = some chunks := by
  induction chunks generalizing fuel with
  | nil =>
    obtain ⟨fuel, rfl⟩ := Nat.exists_eq_succ_of_ne_zero (Nat.ne_of_gt enough)
    have last := @readChunk_written ⟨iend, []⟩ rfl (by decide) []
    rw [List.append_nil] at last
    rw [List.flatMap_nil, List.nil_append, readChunks, last, Option.bind_some]
    exact (if_pos rfl).trans (if_pos ⟨rfl, rfl⟩)
  | cons chunk chunks ih =>
    obtain ⟨fuel, rfl⟩ := Nat.exists_eq_succ_of_ne_zero (Nat.ne_of_gt (Nat.lt_of_le_of_lt (Nat.zero_le _) enough))
    have here := proper chunk List.mem_cons_self
    rw [List.length_cons] at enough
    have later := ih (fun other member => proper other (List.mem_cons_of_mem _ member))
      (fun other member => inner other (List.mem_cons_of_mem _ member)) (show chunks.length < fuel by omega)
    rw [List.flatMap_cons, List.append_assoc, readChunks, readChunk_written here.1 here.2, Option.bind_some]
    dsimp only
    rw [if_neg (inner chunk List.mem_cons_self), later, Option.map_some]

theorem readRows_written {width : Nat} {rows : List (List UInt8)} (wide : ∀ row ∈ rows, row.length = width) :
    readRows width rows.length (rows.flatMap fun row => 0 :: row) = some rows := by
  induction rows with
  | nil => rfl
  | cons row rows ih =>
    have here := wide row List.mem_cons_self
    have long : ¬ (row ++ rows.flatMap fun row => 0 :: row).length < width := by
      rw [List.length_append, here]
      omega
    rw [List.flatMap_cons, List.cons_append, List.length_cons, readRows, if_neg (by simp only [ne_eq, not_true, false_or]; exact long),
      List.drop_left' here, List.take_left' here, ih fun other member => wide other (List.mem_cons_of_mem _ member), Option.map_some]

/-- A header, one part of data and the end are read as the picture whose lines they hold. -/
theorem readPng_written {inflate : List UInt8 → Option (List UInt8)} {width height : Nat} {rows : List (List UInt8)} {data : List UInt8}
    (large : 0 < width ∧ 0 < height) (small : width < 2 ^ 31 ∧ height < 2 ^ 31) (tall : rows.length = height)
    (wide : ∀ row ∈ rows, row.length = width) (fits : data.length < 2 ^ 31)
    (inverse : inflate data = some (rows.flatMap fun row => 0 :: row)) :
    readPng inflate (signature ++ (writeChunk ⟨ihdr, beBytes 4 width ++ (beBytes 4 height ++ plainGrey)⟩ ++
      (writeChunk ⟨idat, data⟩ ++ writeChunk ⟨iend, []⟩))) = some ⟨width, height, rows⟩ := by
  generalize bytes : signature ++ (writeChunk ⟨ihdr, beBytes 4 width ++ (beBytes 4 height ++ plainGrey)⟩ ++
      (writeChunk ⟨idat, data⟩ ++ writeChunk ⟨iend, []⟩)) = file
  have front : file.take 8 = signature := by rw [← bytes]; rfl
  have back : file.drop 8 = [Chunk.mk ihdr (beBytes 4 width ++ (beBytes 4 height ++ plainGrey)), ⟨idat, data⟩].flatMap writeChunk ++
      writeChunk ⟨iend, []⟩ := by
    rw [← bytes, List.drop_left' (show signature.length = 8 from rfl), List.flatMap_cons, List.flatMap_cons, List.flatMap_nil,
      List.append_nil, List.append_assoc]
  have header : (beBytes 4 width ++ (beBytes 4 height ++ plainGrey)).length < 2 ^ 31 := by
    rw [List.length_append, List.length_append, length_beBytes, length_beBytes]
    decide
  have long : 2 < file.length := by
    rw [← bytes, List.length_append]
    have eight : signature.length = 8 := rfl
    omega
  have chunks := @readChunks_written [⟨ihdr, beBytes 4 width ++ (beBytes 4 height ++ plainGrey)⟩, ⟨idat, data⟩]
    (by
      intro chunk member
      rcases List.mem_cons.mp member with rfl | member
      · exact ⟨rfl, header⟩
      · rw [List.mem_singleton.mp member]
        exact ⟨rfl, fits⟩)
    (by
      intro chunk member
      rcases List.mem_cons.mp member with rfl | member
      · show ihdr ≠ iend
        decide
      · rw [List.mem_singleton.mp member]
        show idat ≠ iend
        decide) _ long
  have across : bigEndian ((beBytes 4 width ++ (beBytes 4 height ++ plainGrey)).take 4) = width := by
    rw [List.take_left' (length_beBytes 4 _), bigEndian_beBytes (by omega)]
  have rest : (beBytes 4 width ++ (beBytes 4 height ++ plainGrey)).drop 4 = beBytes 4 height ++ plainGrey :=
    List.drop_left' (length_beBytes 4 _)
  have down : bigEndian (((beBytes 4 width ++ (beBytes 4 height ++ plainGrey)).drop 4).take 4) = height := by
    rw [rest, List.take_left' (length_beBytes 4 _), bigEndian_beBytes (by omega)]
  have kind : (beBytes 4 width ++ (beBytes 4 height ++ plainGrey)).drop 8 = plainGrey := by
    rw [show 8 = 4 + 4 from rfl, ← List.drop_drop, rest, List.drop_left' (length_beBytes 4 _)]
  have parts : [Chunk.mk idat data].any (·.type != idat) = false := by
    rw [List.any_cons, List.any_nil, Bool.or_false, bne_self_eq_false]
  unfold readPng
  rw [if_neg (by rw [front]; simp), back, chunks]
  dsimp only
  rw [if_pos rfl]
  unfold readPicture
  rw [across, down, kind, parts, if_neg]
  · rw [List.flatMap_cons, List.flatMap_nil, List.append_nil, inverse, Option.bind_some, ← tall, readRows_written wide, Option.map_some]
  · simp only [ne_eq, not_true, false_or, Bool.false_eq_true, or_false]
    omega

end GroupButler.Foundation.Png
