import GroupButler.Foundation.Base64
import GroupButler.Foundation.Png
import GroupButler.Foundation.Prefixes
import GroupButler.Pairing.TerminalQr

/-!
# The QR code as a picture

The module matrix read from the terminal is drawn as a PNG and handed to the console as a data URL.
-/

namespace GroupButler.Pairing.TerminalQr
open Foundation

/-! ### Chunks -/

def pngSignature : List UInt8 := [0x89, 0x50, 0x4e, 0x47, 0x0d, 0x0a, 0x1a, 0x0a]

def crcRound (c : BitVec 32) : BitVec 32 := if c &&& 1 ≠ 0 then 0xedb88320 ^^^ (c >>> 1) else c >>> 1

/-- `CRC_TABLE` -/
def crcTable : List (BitVec 32) :=
  (List.range 256).map fun n => (List.range 8).foldl (fun c _ => crcRound c) (BitVec.ofNat 32 n)

def crc32 (bytes : List UInt8) : BitVec 32 :=
  bytes.foldl (fun c byte => crcTable.getD ((c ^^^ BitVec.ofNat 32 byte.toNat) &&& 0xff).toNat 0 ^^^ (c >>> 8)) 0xffffffff ^^^
    0xffffffff

/-- A number of more than four bytes is a `RangeError`. -/
def writeUInt32BE (n : Nat) : Except Fault (List UInt8) := if n < 2 ^ 32 then .ok (beBytes 4 n) else .error .outOfRange

def latin1 (text : String) : List UInt8 := text.toList.map fun c => UInt8.ofNat c.toNat

def chunk (type : String) (data : List UInt8) : Except Fault (List UInt8) := do
  let length ← writeUInt32BE data.length
  let typeAndData := latin1 type ++ data
  let crc ← writeUInt32BE (crc32 typeAndData).toNat
  return length ++ (typeAndData ++ crc)

/-! ### Pixels -/

/-- `raw.fill(value, low, high)`; the loops stay inside the buffer. -/
def fill (value : UInt8) (low high : Nat) (raw : List UInt8) : List UInt8 :=
  raw.mapIdx fun i byte => if low ≤ i ∧ i < high then value else byte

def paintModule (stride scale quietZone my mx : Nat) (raw : List UInt8) : List UInt8 :=
  let y0 := (my + quietZone) * scale
  let x0 := (mx + quietZone) * scale
  (List.range scale).foldl (fun raw dy => fill 0x00 ((y0 + dy) * stride + 1 + x0) ((y0 + dy) * stride + 1 + x0 + scale) raw) raw

/-- `raw`: a filter byte and the pixels of a line, line after line. -/
def scanlines (modules : List (List Bool)) (scale quietZone : Nat) : List UInt8 :=
  let moduleCount := modules.length
  let size := (moduleCount + quietZone * 2) * scale
  let stride := size + 1
  let raw := List.replicate (size * stride) 0xff
  let raw := (List.range size).foldl (fun raw y => raw.set (y * stride) 0) raw
  (List.range moduleCount).foldl (fun raw my =>
    let row := modules.getD my []
    (List.range moduleCount).foldl (fun raw mx =>
      if row[mx]? = some true then paintModule stride scale quietZone my mx raw else raw) raw) raw

section
variable (deflateSync : List UInt8 → List UInt8)

def pngFromModules (modules : List (List Bool)) (scale quietZone : Nat) : Except Fault (List UInt8) := do
  let size := (modules.length + quietZone * 2) * scale
  let side ← writeUInt32BE size
  let header := side ++ (side ++ [8, 0, 0, 0, 0])
  let ihdr ← chunk "IHDR" header
  let idat ← chunk "IDAT" (deflateSync (scanlines modules scale quietZone))
  let iend ← chunk "IEND" []
  return pngSignature ++ (ihdr ++ (idat ++ iend))

def dataUrlHead : List Char := "data:image/png;base64,".toList

def qrDataUrlFromTerminal (text : List Char) : Except Fault (Option (List Char)) :=
  match modulesFromTerminalQr text with
  | none => .ok none
  | some modules => (pngFromModules deflateSync modules 8 4).map fun png => some (dataUrlHead ++ encodeBase64 (png.map UInt8.toNat))

def readQr (output : List Char) : Except Fault (Option (List Char)) :=
  match fromLast id qrMarker output with
  | none => .ok none
  | some found => qrDataUrlFromTerminal deflateSync found

end

/-! ### The table's checksum is the division's -/

theorem crcRound_eq (c : BitVec 32) : crcRound c = Crc.shift Png.polynomial c := by
  have bit : c &&& 1 ≠ 0 ↔ c.getLsbD 0 = true := by
    rw [show (1 : BitVec 32) = 1#32 from rfl, BitVec.and_one_eq_setWidth_ofBool_getLsbD]
    cases c.getLsbD 0 <;> decide
  unfold crcRound Crc.shift
  rw [BitVec.xor_comm]
  exact if_congr bit rfl rfl

theorem foldl_crcRound (n : Nat) (c : BitVec 32) :
    (List.range n).foldl (fun c _ => crcRound c) c = Crc.shifts Png.polynomial n c := by
  induction n with
  | zero => rfl
  | succ n ih => rw [List.range_succ, List.foldl_append, ih, List.foldl_cons, List.foldl_nil, crcRound_eq, Crc.shifts_add]; rfl

theorem crcTable_getD (x : BitVec 32) : crcTable.getD (x &&& 0xff).toNat 0 = Crc.shifts Png.polynomial 8 (x &&& 0xff) := by
  have small : (x &&& 0xff).toNat < 256 := by
    rw [BitVec.toNat_and]
    exact Nat.lt_of_le_of_lt Nat.and_le_right (by decide)
  rw [crcTable, List.getD_eq_getElem?_getD, List.getElem?_map, List.getElem?_range small, Option.map_some, Option.getD_some,
    foldl_crcRound, BitVec.ofNat_toNat, BitVec.setWidth_eq]

theorem crc32_eq (bytes : List UInt8) : crc32 bytes = Png.checksum bytes := by
  have step : (fun (c : BitVec 32) (byte : UInt8) =>
      crcTable.getD ((c ^^^ BitVec.ofNat 32 byte.toNat) &&& 0xff).toNat 0 ^^^ (c >>> 8)) = Crc.absorb Png.polynomial := by
    funext c byte
    have octet : BitVec.ofNat 32 byte.toNat = Crc.octet byte := by
      apply BitVec.eq_of_toNat_eq
      rw [Crc.octet, BitVec.toNat_setWidth, BitVec.toNat_ofNat]
      rfl
    have gone : (Crc.octet byte : BitVec 32) >>> 8 = 0 := by
      apply BitVec.eq_of_getLsbD_eq
      intro i small
      rw [BitVec.getLsbD_ushiftRight, Crc.octet_high byte (by omega)]
      exact BitVec.getLsbD_zero.symm
    rw [crcTable_getD, octet, Crc.absorb, Crc.shifts_split _ 8 (c ^^^ _), BitVec.ushiftRight_xor_distrib, gone]
    show _ = _ ^^^ (c >>> 8 ^^^ 0#32)
    rw [BitVec.xor_zero]
    rfl
  rw [crc32, step, Png.checksum]

theorem writeUInt32BE_small {n : Nat} (small : n < 2 ^ 32) : writeUInt32BE n = .ok (beBytes 4 n) := if_pos small

theorem chunk_eq {data : List UInt8} (type : String) (small : data.length < 2 ^ 32) :
    chunk type data = .ok (Png.writeChunk ⟨latin1 type, data⟩) := by
  have sum := writeUInt32BE_small (crc32 (latin1 type ++ data)).isLt
  unfold chunk
  rw [writeUInt32BE_small small]
  show (writeUInt32BE (crc32 (latin1 type ++ data)).toNat).bind (fun crc =>
    Except.ok (beBytes 4 data.length ++ ((latin1 type ++ data) ++ crc))) = _
  rw [sum, crc32_eq]
  rfl

/-! ### Painting -/

section
variable {n : Nat} {f : Nat → UInt8}

theorem fill_map (value : UInt8) (low high : Nat) :
    fill value low high ((List.range n).map f) = (List.range n).map fun i => if (decide (low ≤ i) && decide (i < high)) = true then value else f i := by
  apply List.ext_getElem
  · rw [fill, List.length_mapIdx, List.length_map, List.length_map]
  · intro i _ _
    simp only [fill, List.getElem_mapIdx, List.getElem_map, List.getElem_range, Bool.and_eq_true, decide_eq_true_eq]

theorem set_map (k : Nat) (value : UInt8) :
    ((List.range n).map f).set k value = (List.range n).map fun i => if (i == k) = true then value else f i := by
  apply List.ext_getElem
  · rw [List.length_set, List.length_map, List.length_map]
  · intro i _ _
    rw [List.getElem_set, List.getElem_map, List.getElem_map, List.getElem_range]
    simp only [beq_iff_eq, eq_comm (a := k)]

/-- Steps that each paint what they cover paint together what any of them covers. -/
theorem foldl_paint {κ : Type} {value : UInt8} {step : List UInt8 → κ → List UInt8} {cover : κ → Nat → Bool}
    (one : ∀ f k, step ((List.range n).map f) k = (List.range n).map fun i => if cover k i = true then value else f i) (ks : List κ) :
    ks.foldl step ((List.range n).map f) = (List.range n).map fun i => if (ks.any fun k => cover k i) = true then value else f i := by
  induction ks generalizing f with
  | nil => rfl
  | cons k ks ih =>
    rw [List.foldl_cons, one, ih]
    apply List.map_congr_left
    intro i _
    rw [List.any_cons]
    cases cover k i
    · rw [Bool.false_or]
      rfl
    · rw [Bool.true_or]
      exact ite_self _

theorem range_mul (height width : Nat) :
    (List.range (height * width)).map f = (List.range height).flatMap fun y => (List.range width).map fun j => f (y * width + j) := by
  induction height with
  | zero => rw [Nat.zero_mul, List.range_zero, List.map_nil, List.flatMap_nil]
  | succ height ih =>
    rw [Nat.succ_mul, List.range_add, List.map_append, ih, List.map_map, List.range_succ, List.flatMap_append, List.flatMap_cons,
      List.flatMap_nil, List.append_nil]
    rfl

end

/-- What the drawing of one module covers. -/
def covers (stride scale quietZone my mx i : Nat) : Bool :=
  (List.range scale).any fun dy =>
    decide (((my + quietZone) * scale + dy) * stride + 1 + (mx + quietZone) * scale ≤ i) &&
      decide (i < ((my + quietZone) * scale + dy) * stride + 1 + (mx + quietZone) * scale + scale)

def painted (modules : List (List Bool)) (stride scale quietZone i : Nat) : Bool :=
  (List.range modules.length).any fun my => (List.range modules.length).any fun mx =>
    decide ((modules.getD my [])[mx]? = some true) && covers stride scale quietZone my mx i

theorem scanlines_painted (modules : List (List Bool)) (scale quietZone : Nat) :
    let size := (modules.length + quietZone * 2) * scale
    scanlines modules scale quietZone = (List.range (size * (size + 1))).map fun i =>
      if painted modules (size + 1) scale quietZone i = true then 0
      else if ((List.range size).any fun y => i == y * (size + 1)) = true then 0 else 0xff := by
  intro size
  have start : List.replicate (size * (size + 1)) (0xff : UInt8) = (List.range (size * (size + 1))).map fun _ => 0xff := by
    rw [List.map_const', List.length_range]
  unfold scanlines
  dsimp only
  rw [start, @foldl_paint _ _ _ _ _ (fun y i => i == y * (size + 1)) fun f k => set_map _ _]
  apply foldl_paint
  intro f my
  apply foldl_paint
  intro f mx
  by_cases black : (modules.getD my [])[mx]? = some true
  · rw [if_pos black, decide_eq_true black]
    simp only [Bool.true_and]
    exact foldl_paint (fun f k => fill_map _ _ _) _
  · rw [if_neg black, decide_eq_false black]
    simp only [Bool.false_and, Bool.false_eq_true, if_false]

/-! ### The picture -/

/-- Whether a module of the matrix lies at this pixel and is black. -/
def black (modules : List (List Bool)) (scale quietZone x y : Nat) : Bool :=
  decide (quietZone ≤ x / scale) && decide (quietZone ≤ y / scale) && decide (x / scale - quietZone < modules.length) &&
    decide ((modules.getD (y / scale - quietZone) [])[x / scale - quietZone]? = some true)

/-- Each module a square of `scale` pixels, and white around them. -/
def picture (modules : List (List Bool)) (scale quietZone : Nat) : Png.Picture :=
  let size := (modules.length + quietZone * 2) * scale
  ⟨size, size, (List.range size).map fun y => (List.range size).map fun x => if black modules scale quietZone x y then 0 else 0xff⟩

theorem painted_pixel {modules : List (List Bool)} {scale quietZone x y : Nat}
    (small : x < (modules.length + quietZone * 2) * scale) :
    painted modules ((modules.length + quietZone * 2) * scale + 1) scale quietZone
      (y * ((modules.length + quietZone * 2) * scale + 1) + (x + 1)) = black modules scale quietZone x y := by
  generalize count : modules.length = n at small
  generalize side : (n + quietZone * 2) * scale = size at small
  have iff : painted modules (size + 1) scale quietZone (y * (size + 1) + (x + 1)) = true ↔ black modules scale quietZone x y = true := by
    unfold painted covers black
    simp only [List.any_eq_true, List.mem_range, Bool.and_eq_true, decide_eq_true_eq, count]
    constructor
    · rintro ⟨my, -, mx, inside, module, dy, low, left, right⟩
      have wide : (mx + quietZone) * scale + scale ≤ size := by
        rw [← side, ← Nat.succ_mul]
        exact Nat.mul_le_mul_right _ (by omega)
      generalize line : (my + quietZone) * scale + dy = Y at left right
      have same : Y = y := by
        rcases Nat.lt_trichotomy Y y with before | same | after
        · have next := Nat.mul_le_mul_right (size + 1) (Nat.succ_le_of_lt before)
          rw [Nat.succ_mul] at next
          omega
        · exact same
        · have next := Nat.mul_le_mul_right (size + 1) (Nat.succ_le_of_lt after)
          rw [Nat.succ_mul] at next
          omega
      subst same
      have down : Y / scale = my + quietZone := Nat.div_eq_of_lt_le (by omega) (by rw [Nat.succ_mul]; omega)
      have across : x / scale = mx + quietZone := Nat.div_eq_of_lt_le (by omega) (by rw [Nat.succ_mul]; omega)
      rw [down, across, Nat.add_sub_cancel, Nat.add_sub_cancel]
      exact ⟨⟨⟨by omega, by omega⟩, inside⟩, module⟩
    · rintro ⟨⟨⟨across, down⟩, inside⟩, module⟩
      have positive : 0 < scale := by
        rw [Nat.pos_iff_ne_zero]
        rintro rfl
        rw [Nat.mul_zero] at side
        omega
      have tall : y / scale - quietZone < n := by
        by_contra outside
        have missing : modules[y / scale - quietZone]? = none := List.getElem?_eq_none (by omega)
        rw [List.getD_eq_getElem?_getD, missing] at module
        cases module
      have row := Nat.div_add_mod' y scale
      have column := Nat.div_add_mod' x scale
      have y_rest := Nat.mod_lt y positive
      have x_rest := Nat.mod_lt x positive
      refine ⟨_, tall, _, inside, module, y % scale, y_rest, ?_⟩
      rw [Nat.sub_add_cancel across, Nat.sub_add_cancel down, row]
      omega
  exact Bool.eq_iff_iff.mpr iff

/-- The buffer holds the picture's lines, each behind a filter byte. -/
theorem scanlines_eq (modules : List (List Bool)) (scale quietZone : Nat) :
    scanlines modules scale quietZone = (picture modules scale quietZone).rows.flatMap fun row => 0 :: row := by
  have pixels := scanlines_painted modules scale quietZone
  dsimp only at pixels
  rw [pixels, range_mul, picture, List.flatMap_map]
  generalize side : (modules.length + quietZone * 2) * scale = size
  apply List.flatMap_congr
  intro y member
  rw [List.range_succ_eq_map, List.map_cons, List.map_map]
  have filter : ((List.range size).any fun other => y * (size + 1) + 0 == other * (size + 1)) = true :=
    List.any_eq_true.mpr ⟨y, member, beq_iff_eq.mpr (Nat.add_zero _)⟩
  rw [filter, if_pos rfl, ite_self]
  congr 1
  apply List.map_congr_left
  intro x inside
  rw [List.mem_range] at inside
  have plain : ((List.range size).any fun other => y * (size + 1) + (x + 1) == other * (size + 1)) = false := by
    rw [List.any_eq_false]
    intro other _ same
    have place : (y * (size + 1) + (x + 1)) % (size + 1) = other * (size + 1) % (size + 1) := congrArg (· % (size + 1)) (beq_iff_eq.mp same)
    rw [Nat.mul_add_mod', Nat.mul_mod_left, Nat.mod_eq_of_lt (by omega)] at place
    omega
  have pixel := @painted_pixel modules scale quietZone x y (side.symm ▸ inside)
  rw [side] at pixel
  show (if painted modules (size + 1) scale quietZone (y * (size + 1) + (x + 1)) = true then (0 : UInt8) else
    if ((List.range size).any fun other => y * (size + 1) + (x + 1) == other * (size + 1)) = true then 0 else 0xff) = _
  rw [pixel, plain]
  rfl

/-- A matrix whose picture has between one and 2^31 - 1 pixels a side is drawn as a file that reads as its picture. -/
theorem pngFromModules_reads {deflateSync : List UInt8 → List UInt8} {inflate : List UInt8 → Option (List UInt8)}
    {modules : List (List Bool)} {scale quietZone : Nat} (large : 0 < (modules.length + quietZone * 2) * scale)
    (small : (modules.length + quietZone * 2) * scale < 2 ^ 31)
    (inverse : inflate (deflateSync (scanlines modules scale quietZone)) = some (scanlines modules scale quietZone))
    (fits : (deflateSync (scanlines modules scale quietZone)).length < 2 ^ 31) :
    ∃ png, pngFromModules deflateSync modules scale quietZone = .ok png ∧
      Png.readPng inflate png = some (picture modules scale quietZone) := by
  generalize side : (modules.length + quietZone * 2) * scale = size at large small
  generalize data : deflateSync (scanlines modules scale quietZone) = packed at inverse fits
  have header : (beBytes 4 size ++ (beBytes 4 size ++ [8, 0, 0, 0, 0])).length < 2 ^ 32 := by
    rw [List.length_append, List.length_append, length_beBytes]
    decide
  have wide : ∀ row ∈ (picture modules scale quietZone).rows, row.length = size := by
    intro row member
    obtain ⟨y, -, rfl⟩ := List.mem_map.mp member
    rw [List.length_map, List.length_range, side]
  have tall : (picture modules scale quietZone).rows.length = size := by
    rw [picture, List.length_map, List.length_range, side]
  rw [scanlines_eq] at inverse
  refine ⟨_, ?_, (Png.readPng_written ⟨large, large⟩ ⟨small, small⟩ tall wide fits inverse).trans ?_⟩
  · unfold pngFromModules
    dsimp only
    rw [side, data, writeUInt32BE_small (by omega)]
    show ((chunk "IHDR" (beBytes 4 size ++ (beBytes 4 size ++ [8, 0, 0, 0, 0]))).bind fun ihdr =>
      (chunk "IDAT" packed).bind fun idat => (chunk "IEND" []).bind fun iend => Except.ok (pngSignature ++ (ihdr ++ (idat ++ iend)))) = _
    rw [chunk_eq "IHDR" header, chunk_eq "IDAT" (by omega), chunk_eq "IEND" (by decide)]
    rfl
  · rw [picture, side]

/-! ### The code below the marker -/

section
variable {line : List Char}

theorem readRows_isSome (code : isQrLine line = true) : ∃ pair, readRows line = some pair := by
  have glyphs := isQrLine_glyphs code
  have inner : ∀ c ∈ (line.drop 1).dropLast, (modulesByGlyph c).isSome := fun c member =>
    glyphs c (List.mem_of_mem_drop (List.mem_of_mem_dropLast member))
  have read : ∀ cs : List Char, (∀ c ∈ cs, (modulesByGlyph c).isSome) → ∃ pairs, cs.mapM modulesByGlyph = some pairs := by
    intro cs all
    induction cs with
    | nil => exact ⟨[], rfl⟩
    | cons c cs ih =>
      obtain ⟨pair, here⟩ := Option.isSome_iff_exists.mp (all c List.mem_cons_self)
      obtain ⟨pairs, later⟩ := ih fun d member => all d (List.mem_cons_of_mem _ member)
      exact ⟨pair :: pairs, by rw [List.mapM_cons, here, later]; rfl⟩
  obtain ⟨pairs, whole⟩ := read _ inner
  exact ⟨pairs.unzip, by rw [readRows, whole, Option.map_some]⟩

theorem mapM_readRows {lines : List (List Char)} (code : ∀ line ∈ lines, isQrLine line = true) : ∃ pairs, lines.mapM readRows = some pairs := by
  induction lines with
  | nil => exact ⟨[], rfl⟩
  | cons line lines ih =>
    obtain ⟨pair, here⟩ := readRows_isSome (code line List.mem_cons_self)
    obtain ⟨pairs, later⟩ := ih fun other member => code other (List.mem_cons_of_mem _ member)
    exact ⟨pair :: pairs, by rw [List.mapM_cons, here, later]; rfl⟩

end

section
variable {n : Nat} {symbol : Symbol n}

/-- Of several codes printed one after the other the first is read. -/
theorem modules_first (large : 28 ≤ n) (top : ∀ row ∈ symbol.rows.head?, ∀ module, row ≠ List.replicate n module)
    (bottom : ∀ row ∈ symbol.rows.getLast?, ∀ module, row ≠ List.replicate n module) {border : Bool × Bool} {text : List Char}
    {more : List (List Char)} (lines : (linesOf text).filter isQrLine = render border symbol ++ more) :
    modulesFromTerminalQr text = some symbol.rows := by
  have others : ∀ line ∈ more, isQrLine line = true := fun line member =>
    (List.mem_filter.mp (lines ▸ List.mem_append_right _ member)).2
  obtain ⟨pairs, later⟩ := mapM_readRows others
  have read : (render border symbol ++ more).mapM readRows =
      some (((List.replicate n border.1, List.replicate n border.2) :: rowPairs n symbol.rows) ++ pairs) := by
    have own : (render border symbol).mapM readRows =
        some ((List.replicate n border.1, List.replicate n border.2) :: rowPairs n symbol.rows) := by
      rw [render, List.mapM_cons, readRows_border, mapM_printed symbol.width]
      rfl
    rw [List.mapM_append, own, later]
    rfl
  have mixed {row : List Bool} (member : row ∈ symbol.rows) (other : ∀ module, row ≠ List.replicate n module) : uniform row = false := by
    rw [← Bool.not_eq_true]
    intro same
    obtain ⟨module, filled⟩ := uniform_eq same
    exact other module (symbol.width row member ▸ filled)
  have first : ∀ row ∈ symbol.rows.head?, uniform row = false := fun row member => mixed (List.mem_of_mem_head? member) (top row member)
  have last : ∀ row ∈ symbol.rows.getLast?, uniform row = false := fun row member =>
    mixed (List.mem_of_mem_getLast? member) (bottom row member)
  obtain ⟨tail, rows⟩ : ∃ tail, (((List.replicate n border.1, List.replicate n border.2) :: rowPairs n symbol.rows) ++ pairs).flatMap
      (fun pair => [pair.1, pair.2]) = [List.replicate n border.1, List.replicate n border.2] ++ (symbol.rows ++ tail) := by
    refine ⟨(if symbol.rows.length % 2 = 1 then [List.replicate n false] else []) ++ pairs.flatMap fun pair => [pair.1, pair.2], ?_⟩
    rw [List.flatMap_append, List.flatMap_cons, flatMap_rowPairs, List.append_assoc, List.append_assoc]
  have some_ : symbol.rows ≠ [] := by
    intro none
    have height := symbol.height
    rw [none] at height
    exact absurd height (by rw [List.length_nil]; omega)
  have ahead : (symbol.rows ++ tail).head? = symbol.rows.head? := List.head?_append_of_ne_nil _ some_
  have trimmed : (([List.replicate n border.1, List.replicate n border.2] ++ (symbol.rows ++ tail)).dropWhile uniform) = symbol.rows ++ tail := by
    rw [List.dropWhile_append_of_pos (by simp [uniform_replicate]), dropWhile_of_head (by rwa [ahead])]
  obtain ⟨kept, -, cut⟩ := @rdropWhile_append _ uniform symbol.rows tail last
  have width : (([List.replicate n border.1, List.replicate n border.2] ++ (symbol.rows ++ tail)).head?.getD []).length = n :=
    List.length_replicate
  have square : (symbol.rows ++ kept).take n = symbol.rows := List.take_left' symbol.height
  have tall : ¬ (n = 0 ∨ (symbol.rows ++ kept).length < n) := by
    rw [List.length_append, symbol.height]
    omega
  unfold modulesFromTerminalQr
  rw [lines, read]
  dsimp only
  rw [rows, trimmed, cut, width, if_neg (by simp), if_neg tall, square, if_neg]
  rw [List.any_eq_true]
  intro wrong
  obtain ⟨row, member, other⟩ := wrong
  exact bne_iff_ne.mp other (symbol.width row member)

end

theorem fromLast_none {needle text : List Char} (none_ : includes needle text = false) :
    fromLast id needle text = none := by
  induction text with
  | nil => rfl
  | cons c text ih =>
    rw [includes, Bool.or_eq_false_iff] at none_
    rw [fromLast, ih none_.2, List.map_id, none_.1]
    rfl

theorem qrMarker_cons : qrMarker = 'S' :: "can this QR code".toList := by decide

/-- The marker begins nowhere inside itself. -/
theorem includes_inside {inside : List Char} (other : 'S' ∉ inside) (rest : List Char) :
    includes qrMarker (inside ++ rest) = includes qrMarker rest := by
  induction inside with
  | nil => rfl
  | cons c inside ih =>
    have start : qrMarker.isPrefixOf (c :: (inside ++ rest)) = false := by
      have differs : ('S' == c) = false := beq_eq_false_iff_ne.mpr fun same => other (same ▸ List.mem_cons_self)
      rw [qrMarker_cons, List.isPrefixOf_cons_cons, differs, Bool.false_and]
    rw [List.cons_append, includes, start, Bool.false_or, ih fun member => other (List.mem_cons_of_mem _ member)]

theorem fromLast_newest {rest : List Char} (newest : includes qrMarker rest = false) (shown : List Char) :
    fromLast id qrMarker (shown ++ (qrMarker ++ rest)) = some (qrMarker ++ rest) := by
  induction shown with
  | nil =>
    have later : fromLast id qrMarker ("can this QR code".toList ++ rest) = none :=
      fromLast_none ((includes_inside (by decide) rest).trans newest)
    have here : qrMarker.isPrefixOf (qrMarker ++ rest) = true := List.isPrefixOf_iff_prefix.mpr (List.prefix_append _ _)
    rw [qrMarker_cons, List.cons_append] at here
    rw [List.nil_append, qrMarker_cons, List.cons_append, fromLast, ← qrMarker_cons, later]
    dsimp only
    rw [List.map_id, qrMarker_cons, here]
    rfl
  | cons c shown ih => rw [List.cons_append, fromLast, ih]

theorem marker_line (heading : List Char) : isQrLine (bare (qrMarker ++ heading)) = false := by
  rw [← Bool.not_eq_true]
  intro code
  have member : 'S' ∈ bare (qrMarker ++ heading) := by
    rw [bare, qrMarker_cons, List.cons_append, stripAnsi_plain (by decide)]
    exact List.mem_filter.mpr ⟨List.mem_cons_self, by decide⟩
  exact absurd (isQrLine_glyphs code 'S' member) (by decide)

/-- The first column black. -/
def barred : Symbol 29 where
  rows := List.replicate 29 (true :: List.replicate 28 false)
  height := rfl
  width := by
    intro row member
    rw [List.eq_of_mem_replicate member]
    rfl

/-- Its pixels, compressed. -/
def barredDeflated : List UInt8 :=
  [120, 218, 237, 208, 49, 17, 0, 0, 8, 4, 160, 239, 95, 90, 23, 3, 184, 234, 65, 4, 82, 172, 68, 129, 40, 81, 162, 68, 137, 18, 133, 40, 81,
    162, 68, 137, 18, 37, 10, 81, 162, 68, 137, 18, 37, 10, 81, 162, 68, 137, 18, 37, 74, 20, 162, 68, 137, 18, 245, 46, 42, 67, 148, 40, 81,
    162, 68, 137, 18] ++ (List.replicate 32 [37, 74, 148, 40, 81, 162, 68, 137, 18]).flatten ++
  [37, 74, 148, 40, 81, 136, 18, 37, 74, 148, 40, 81, 162, 16, 37, 74, 148, 40, 81, 162, 16, 37, 74, 148, 40, 81, 162, 68, 33, 74, 148, 40,
    81, 162, 68, 137, 66, 148, 40, 81, 162, 206, 107, 186, 167, 196, 132]

/-- The table gives the remainder of the long division, and no change within four bytes of a chunk keeps its checksum. -/
theorem crc32_division_burst (bytes : List UInt8) :
    crc32 bytes = Png.checksum bytes ∧
      ∀ front first second rest : List UInt8, first.length ≤ 4 → first.length = second.length → bytes = front ++ (first ++ rest) →
        crc32 (front ++ (second ++ rest)) = crc32 bytes → second = first := by
  refine ⟨crc32_eq bytes, fun front first second rest short length split same => ?_⟩
  subst split
  rw [crc32_eq, crc32_eq, Png.checksum, Png.checksum, BitVec.xor_left_inj] at same
  exact Crc.burst (by decide) (by omega) length.symm same

end GroupButler.Pairing.TerminalQr
