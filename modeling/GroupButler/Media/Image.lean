import GroupButler.Foundation.Bytes
import GroupButler.Ingest.Attachment

/-!
# The size of an image

`imageDimensions` reads the size out of a PNG, GIF, WebP or JPEG header. A header that is cut off gives
0×0. The offsets stay within 2^16 of the data's length, so no sum of them wraps.
-/

namespace GroupButler.Media
open Foundation Ingest

/-! ### The readers -/

def isSOFMarker (marker : UInt8) : Bool :=
  0xC0 ≤ marker && marker ≤ 0xCF && marker != 0xC4 && marker != 0xC8 && marker != 0xCC

/-- One round of the segment walk: the size when it ends, or the next offset. -/
def jpegRound (data : Bytes) (off : Nat) : Except Fault ((Nat × Nat) ⊕ Nat) := do
  if data.length < off + 4 then
    return .inl (0, 0)
  let lead ← byteAt data off
  if lead ≠ 0xFF then
    return .inl (0, 0)
  let marker ← byteAt data ↑(off + 1)
  if marker = 0x01 ∨ 0xD0 ≤ marker ∧ marker ≤ 0xD8 then
    return .inr (off + 2)
  if marker = 0xD9 ∨ marker = 0xDA then
    return .inl (0, 0)
  let word ← slice data ↑(off + 2) ↑(off + 4)
  let size := bigEndian word
  if size < 2 ∨ data.length < off + 2 + size then
    return .inl (0, 0)
  if isSOFMarker marker then
    if size < 7 then
      return .inl (0, 0)
    let h ← slice data ↑(off + 5) ↑(off + 7)
    let w ← slice data ↑(off + 7) ↑(off + 9)
    return .inl (bigEndian w, bigEndian h)
  return .inr (off + 2 + size)

def jpegLoop (data : Bytes) : Nat → Nat → Except Fault (Nat × Nat)
  | 0, _ => .error .unfinished
  | rounds + 1, off => do
    match ← jpegRound data off with
    | .inl size => .ok size
    | .inr off => jpegLoop data rounds off

/-- A round that goes on moves by two bytes at least. -/
def jpegDimensions (data : Bytes) : Except Fault (Nat × Nat) := jpegLoop data (data.length + 1) 2

def uint24LE (b : Bytes) : Except Fault Nat := do
  let low ← byteAt b 0
  let mid ← byteAt b 1
  let high ← byteAt b 2
  return low.toNat ||| mid.toNat <<< 8 ||| high.toNat <<< 16

def webpDimensions (data : Bytes) : Except Fault (Nat × Nat) := do
  let chunk ← slice data 12 16
  if chunk = ascii "VP8X" then
    if data.length < 30 then
      return (0, 0)
    let w ← uint24LE (← slice data 24 27)
    let h ← uint24LE (← slice data 27 30)
    return (w + 1, h + 1)
  if chunk = ascii "VP8L" then
    if data.length < 25 then
      return (0, 0)
    let bits := littleEndian (← slice data 21 25)
    return ((bits &&& 0x3FFF) + 1, ((bits >>> 14) &&& 0x3FFF) + 1)
  if chunk = ascii "VP8 " then
    if data.length < 30 then
      return (0, 0)
    let w ← slice data 26 28
    let h ← slice data 28 30
    return (littleEndian w &&& 0x3FFF, littleEndian h &&& 0x3FFF)
  return (0, 0)

def pngSignature : Bytes := [0x89, 0x50, 0x4E, 0x47, 0x0D, 0x0A, 0x1A, 0x0A]

def imageDimensions (data : Bytes) : Except Fault (Nat × Nat) := do
  if 24 ≤ data.length ∧ hasPrefix data pngSignature then
    let w ← slice data 16 20
    let h ← slice data 20 24
    return (bigEndian w, bigEndian h)
  if 10 ≤ data.length ∧ hasPrefix data (ascii "GIF") then
    let w ← slice data 6 8
    let h ← slice data 8 10
    return (littleEndian w, littleEndian h)
  if isWebP data then
    webpDimensions data
  else if 3 ≤ data.length ∧ hasPrefix data [0xFF, 0xD8] then
    jpegDimensions data
  else
    return (0, 0)

/-! ### Every read is inside the data -/

section
variable {data : Bytes}

theorem slice_ok {low high : Nat} (ordered : low ≤ high) (inside : high ≤ data.length) :
    ∃ bytes, slice data low high = .ok bytes ∧ bytes.length = high - low :=
  ⟨_, slice_nat ordered inside, length_range inside⟩

theorem jpegRound_ok (data : Bytes) (off : Nat) :
    ∃ out, jpegRound data off = .ok out ∧ ∀ next, out = .inr next → off + 4 ≤ data.length ∧ off + 2 ≤ next := by
  unfold jpegRound
  simp only [bind, Except.bind, pure, Except.pure]
  split
  · exact ⟨_, rfl, nofun⟩
  · rename_i room
    rw [byteAt_nat (by omega), byteAt_nat (by omega)]
    dsimp only
    split
    · exact ⟨_, rfl, nofun⟩
    · split
      · refine ⟨_, rfl, ?_⟩
        rintro next ⟨⟩
        omega
      · split
        · exact ⟨_, rfl, nofun⟩
        · rw [slice_nat (by omega) (by omega)]
          dsimp only
          split
          · exact ⟨_, rfl, nofun⟩
          · rename_i long
            rw [not_or, not_lt, not_lt] at long
            split
            · split
              · exact ⟨_, rfl, nofun⟩
              · rw [slice_nat (by omega) (by omega), slice_nat (by omega) (by omega)]
                exact ⟨_, rfl, nofun⟩
            · refine ⟨_, rfl, ?_⟩
              rintro next ⟨⟩
              omega

theorem jpegLoop_ok (rounds off : Nat) (enough : data.length - off < rounds) :
    ∃ size, jpegLoop data rounds off = .ok size := by
  induction rounds generalizing off with
  | zero => omega
  | succ rounds ih =>
    obtain ⟨out, round, moves⟩ := jpegRound_ok data off
    rw [jpegLoop, round]
    cases out with
    | inl size => exact ⟨size, rfl⟩
    | inr next =>
      obtain ⟨room, further⟩ := moves next rfl
      exact ih next (by omega)

theorem uint24LE_ok {b : Bytes} (three : b.length = 3) : ∃ n, uint24LE b = .ok n := by
  have low : byteAt b 0 = .ok b[0] := @byteAt_nat b 0 (by omega)
  have mid : byteAt b 1 = .ok b[1] := @byteAt_nat b 1 (by omega)
  have high : byteAt b 2 = .ok b[2] := @byteAt_nat b 2 (by omega)
  rw [uint24LE, low, mid, high]
  exact ⟨_, rfl⟩

theorem webpDimensions_ok (room : 16 ≤ data.length) : ∃ size, webpDimensions data = .ok size := by
  obtain ⟨chunk, read, -⟩ := @slice_ok data 12 16 (by omega) room
  unfold webpDimensions
  simp only [bind, Except.bind, pure, Except.pure]
  rw [show slice data 12 16 = .ok chunk from read]
  dsimp only
  split
  · split
    · exact ⟨_, rfl⟩
    · obtain ⟨first, left, three⟩ := @slice_ok data 24 27 (by omega) (by omega)
      obtain ⟨second, right, three'⟩ := @slice_ok data 27 30 (by omega) (by omega)
      obtain ⟨w, wide⟩ := uint24LE_ok three
      obtain ⟨h, tall⟩ := uint24LE_ok three'
      rw [show slice data 24 27 = .ok first from left, show slice data 27 30 = .ok second from right]
      dsimp only
      rw [wide, tall]
      exact ⟨_, rfl⟩
  · split
    · split
      · exact ⟨_, rfl⟩
      · obtain ⟨word, bits, -⟩ := @slice_ok data 21 25 (by omega) (by omega)
        rw [show slice data 21 25 = .ok word from bits]
        exact ⟨_, rfl⟩
    · split
      · split
        · exact ⟨_, rfl⟩
        · obtain ⟨first, left, -⟩ := @slice_ok data 26 28 (by omega) (by omega)
          obtain ⟨second, right, -⟩ := @slice_ok data 28 30 (by omega) (by omega)
          rw [show slice data 26 28 = .ok first from left, show slice data 28 30 = .ok second from right]
          exact ⟨_, rfl⟩
      · exact ⟨_, rfl⟩

theorem imageDimensions_ok (data : Bytes) : ∃ size, imageDimensions data = .ok size := by
  unfold imageDimensions
  simp only [bind, Except.bind, pure, Except.pure]
  split
  · rename_i png
    obtain ⟨first, left, -⟩ := @slice_ok data 16 20 (by omega) (by omega)
    obtain ⟨second, right, -⟩ := @slice_ok data 20 24 (by omega) (by omega)
    rw [show slice data 16 20 = .ok first from left, show slice data 20 24 = .ok second from right]
    exact ⟨_, rfl⟩
  · split
    · rename_i gif
      obtain ⟨first, left, -⟩ := @slice_ok data 6 8 (by omega) (by omega)
      obtain ⟨second, right, -⟩ := @slice_ok data 8 10 (by omega) (by omega)
      rw [show slice data 6 8 = .ok first from left, show slice data 8 10 = .ok second from right]
      exact ⟨_, rfl⟩
    · split
      · rename_i webp
        simp only [isWebP, Bool.and_eq_true, decide_eq_true_eq] at webp
        exact webpDimensions_ok webp.1.1
      · split
        · exact jpegLoop_ok _ _ (by omega)
        · exact ⟨_, rfl⟩

end

end GroupButler.Media
