import GroupButler.Media.Image

/-!
# JPEG files

The format of a JPEG file up to its first frame header, and what `imageDimensions` makes of it. The format lets
any number of 0xFF bytes stand in front of a marker.
-/

namespace GroupButler.Media
open Foundation Ingest

/-! ### The format -/

/-- A marker without a length: TEM and RST0 to RST7. -/
def Standalone (marker : UInt8) : Prop := marker = 0x01 ∨ 0xD0 ≤ marker ∧ marker ≤ 0xD7

instance (marker : UInt8) : Decidable (Standalone marker) := inferInstanceAs (Decidable (_ ∨ _))

/-- The frame headers: SOF0 to SOF15 without DHT, JPG and DAC. -/
def frameMarkers : List UInt8 := [0xC0, 0xC1, 0xC2, 0xC3, 0xC5, 0xC6, 0xC7, 0xC9, 0xCA, 0xCB, 0xCD, 0xCE, 0xCF]

/-- A marker segment in front of the frame header. -/
structure Segment where
  fill : Nat
  marker : UInt8
  payload : Bytes
  /-- No stuffed byte, fill byte, start or end of an image, start of a scan or frame header. -/
  marker_code : marker ∉ [0x00, 0xFF, 0xD8, 0xD9, 0xDA] ++ frameMarkers
  payload_fits : 2 + payload.length < 2 ^ 16

def Segment.encode (segment : Segment) : Bytes :=
  List.replicate segment.fill 0xFF ++ (0xFF :: segment.marker ::
    if Standalone segment.marker then [] else beBytes 2 (2 + segment.payload.length) ++ segment.payload)

structure FrameHeader where
  fill : Nat
  marker : UInt8
  precision : UInt8
  height : Nat
  width : Nat
  components : Bytes
  marker_code : marker ∈ frameMarkers
  height_fits : height < 256 ^ 2
  width_fits : width < 256 ^ 2
  components_length : ∃ count < 256, components.length = 3 * count

def FrameHeader.encode (frame : FrameHeader) : Bytes :=
  List.replicate frame.fill 0xFF ++ (0xFF :: frame.marker :: (beBytes 2 (8 + frame.components.length) ++
    (frame.precision :: (beBytes 2 frame.height ++ (beBytes 2 frame.width ++
      (UInt8.ofNat (frame.components.length / 3) :: frame.components))))))

/-- A JPEG file up to its first frame header, and the bytes after it. -/
structure JpegFile where
  segments : List Segment
  frame : FrameHeader
  after : Bytes

def JpegFile.bytes (file : JpegFile) : Bytes :=
  [0xFF, 0xD8] ++ (file.segments.flatMap Segment.encode ++ (file.frame.encode ++ file.after))

/-- No marker up to the frame header has a fill byte. -/
def JpegFile.Unfilled (file : JpegFile) : Prop := (∀ segment ∈ file.segments, segment.fill = 0) ∧ file.frame.fill = 0

/-! ### The walk -/

theorem isSOFMarker_iff (marker : UInt8) : isSOFMarker marker = true ↔ marker ∈ frameMarkers := by
  have all : ∀ n < 256, isSOFMarker (UInt8.ofNat n) = true ↔ UInt8.ofNat n ∈ frameMarkers := by decide +kernel
  have this := all marker.toNat marker.toNat_lt
  rwa [UInt8.ofNat_toNat] at this

section
variable {before rest : Bytes}

theorem byteAt_append (byte : UInt8) : byteAt (before ++ byte :: rest) before.length = .ok byte := by
  rw [byteAt_nat (by rw [List.length_append, List.length_cons]; omega), List.getElem_append_right (Nat.le_refl _)]
  simp only [Nat.sub_self, List.getElem_cons_zero]

/-- A marker segment without fill bytes is passed. -/
theorem jpegRound_segment {segment : Segment} (unfilled : segment.fill = 0) (room : 2 ≤ rest.length) :
    jpegRound (before ++ (segment.encode ++ rest)) before.length = .ok (.inr (before.length + segment.encode.length)) := by
  have code := segment.marker_code
  have fits := segment.payload_fits
  simp only [List.mem_append, List.mem_cons, List.not_mem_nil, or_false, not_or] at code
  obtain ⟨⟨zero, fill, soi, eoi, sos⟩, plain⟩ := code
  have lead : byteAt (before ++ (segment.encode ++ rest)) before.length = .ok 0xFF := by
    rw [Segment.encode, unfilled]
    exact byteAt_append 0xFF
  have marker : byteAt (before ++ (segment.encode ++ rest)) ↑(before.length + 1) = .ok segment.marker := by
    have := @byteAt_append (before ++ [0xFF]) ((if Standalone segment.marker then [] else
      beBytes 2 (2 + segment.payload.length) ++ segment.payload) ++ rest) segment.marker
    rw [List.length_append, List.append_assoc] at this
    rw [Segment.encode, unfilled]
    exact this
  have total : (before ++ (segment.encode ++ rest)).length = before.length + (segment.encode.length + rest.length) := by
    rw [List.length_append, List.length_append]
  by_cases alone : Standalone segment.marker
  · have length : segment.encode.length = 2 := by
      rw [Segment.encode, unfilled, if_pos alone]
      rfl
    have skipped : segment.marker = 0x01 ∨ 0xD0 ≤ segment.marker ∧ segment.marker ≤ 0xD8 := by
      rcases alone with tem | ⟨low, high⟩
      · exact Or.inl tem
      · exact Or.inr ⟨low, UInt8.le_trans high (by decide)⟩
    unfold jpegRound
    rw [if_neg (by omega), lead, marker]
    simp only [bind, Except.bind, pure, Except.pure]
    rw [if_neg (by decide), if_pos skipped, length]
  · have length : segment.encode.length = 4 + segment.payload.length := by
      rw [Segment.encode, unfilled, if_neg alone]
      simp only [List.replicate_zero, List.nil_append, List.length_cons, List.length_append, length_beBytes]
      omega
    have word : bigEndian (range (before ++ (segment.encode ++ rest)) (before.length + 2) (before.length + 4)) =
        2 + segment.payload.length := by
      rw [@range_at _ (before ++ [0xFF, segment.marker]) (beBytes 2 (2 + segment.payload.length))
        (segment.payload ++ rest) _ _
        (by rw [Segment.encode, unfilled, if_neg alone]; simp only [List.replicate_zero, List.nil_append, List.append_assoc,
          List.cons_append])
        (by rw [List.length_append]; rfl) (by rw [length_beBytes])]
      exact bigEndian_beBytes fits
    have kept : ¬ (segment.marker = 0x01 ∨ 0xD0 ≤ segment.marker ∧ segment.marker ≤ 0xD8) := by
      rintro (tem | ⟨low, high⟩)
      · exact alone (Or.inl tem)
      · refine alone (Or.inr ⟨low, ?_⟩)
        rw [UInt8.le_iff_toNat_le] at high ⊢
        have apart : segment.marker.toNat ≠ 0xD8 := fun same => soi (UInt8.toNat_inj.mp same)
        have : (0xD8 : UInt8).toNat = 0xD8 := rfl
        have : (0xD7 : UInt8).toNat = 0xD7 := rfl
        omega
    unfold jpegRound
    rw [if_neg (by omega), lead, marker]
    simp only [bind, Except.bind, pure, Except.pure]
    rw [if_neg (by decide), if_neg kept, if_neg (by rintro (h | h); exacts [eoi h, sos h]),
      slice_nat (by omega) (by omega)]
    dsimp only
    rw [word, if_neg (by omega), if_neg (fun frame => plain ((isSOFMarker_iff _).mp frame)), length]
    congr 2
    omega

/-- At a frame header without fill bytes the walk ends with its size. -/
theorem jpegRound_frame {frame : FrameHeader} (unfilled : frame.fill = 0) :
    jpegRound (before ++ (frame.encode ++ rest)) before.length = .ok (.inl (frame.width, frame.height)) := by
  obtain ⟨count, few, components⟩ := frame.components_length
  have other : ∀ marker ∈ frameMarkers, ¬ (marker = 0x01 ∨ 0xD0 ≤ marker ∧ marker ≤ 0xD8) ∧
      ¬ (marker = 0xD9 ∨ marker = 0xDA) := forall_mem_of_all (by decide)
  obtain ⟨kept, open_⟩ := other _ frame.marker_code
  have split : before ++ (frame.encode ++ rest) = before ++ 0xFF :: frame.marker :: (beBytes 2 (8 + frame.components.length) ++
      (frame.precision :: (beBytes 2 frame.height ++ (beBytes 2 frame.width ++
        (UInt8.ofNat (frame.components.length / 3) :: (frame.components ++ rest)))))) := by
    rw [FrameHeader.encode, unfilled]
    simp only [List.replicate_zero, List.nil_append, List.append_assoc, List.cons_append]
  have total : (before ++ (frame.encode ++ rest)).length = before.length + (10 + frame.components.length + rest.length) := by
    rw [split]
    simp only [List.length_append, List.length_cons, length_beBytes]
    omega
  have lead : byteAt (before ++ (frame.encode ++ rest)) before.length = .ok 0xFF := by
    rw [split]
    exact byteAt_append 0xFF
  have marker : byteAt (before ++ (frame.encode ++ rest)) ↑(before.length + 1) = .ok frame.marker := by
    have := @byteAt_append (before ++ [0xFF]) (beBytes 2 (8 + frame.components.length) ++
      (frame.precision :: (beBytes 2 frame.height ++ (beBytes 2 frame.width ++
        (UInt8.ofNat (frame.components.length / 3) :: (frame.components ++ rest)))))) frame.marker
    rw [List.length_append, List.append_assoc] at this
    rw [split]
    exact this
  have word : bigEndian (range (before ++ (frame.encode ++ rest)) (before.length + 2) (before.length + 4)) =
      8 + frame.components.length := by
    rw [@range_at _ (before ++ [0xFF, frame.marker]) (beBytes 2 (8 + frame.components.length)) _ _ _
      (by rw [split]; simp only [List.append_assoc, List.cons_append, List.nil_append]; rfl) (by rw [List.length_append]; rfl)
      (by rw [length_beBytes])]
    exact bigEndian_beBytes (by omega)
  have height : range (before ++ (frame.encode ++ rest)) (before.length + 5) (before.length + 7) = beBytes 2 frame.height :=
    @range_at _ (before ++ [0xFF, frame.marker] ++ beBytes 2 (8 + frame.components.length) ++ [frame.precision]) _ _ _ _
      (by rw [split]; simp only [List.append_assoc, List.cons_append, List.nil_append]; rfl)
      (by simp only [List.length_append, length_beBytes, List.length_cons, List.length_nil]) (by rw [length_beBytes])
  have width : range (before ++ (frame.encode ++ rest)) (before.length + 7) (before.length + 9) = beBytes 2 frame.width :=
    @range_at _ (before ++ [0xFF, frame.marker] ++ beBytes 2 (8 + frame.components.length) ++ [frame.precision] ++
      beBytes 2 frame.height) _ _ _ _
      (by rw [split]; simp only [List.append_assoc, List.cons_append, List.nil_append]; rfl)
      (by simp only [List.length_append, length_beBytes, List.length_cons, List.length_nil]) (by rw [length_beBytes])
  unfold jpegRound
  rw [if_neg (by omega), lead, marker]
  simp only [bind, Except.bind, pure, Except.pure]
  rw [if_neg (by decide), if_neg kept, if_neg open_, slice_nat (by omega) (by omega)]
  dsimp only
  rw [word, if_neg (by omega), if_pos ((isSOFMarker_iff _).mpr frame.marker_code), if_neg (by omega),
    slice_nat (by omega) (by omega), slice_nat (by omega) (by omega), height, width]
  dsimp only
  rw [bigEndian_beBytes frame.width_fits, bigEndian_beBytes frame.height_fits]

theorem two_le_encode (segment : Segment) : 2 ≤ segment.encode.length := by
  rw [Segment.encode, List.length_append, List.length_cons, List.length_cons]
  omega

theorem jpegLoop_segments {segments : List Segment} (unfilled : ∀ segment ∈ segments, segment.fill = 0) :
    ∀ {before : Bytes} (rounds : Nat), 2 ≤ rest.length →
      jpegLoop (before ++ (segments.flatMap Segment.encode ++ rest)) (segments.length + rounds) before.length =
        jpegLoop (before ++ (segments.flatMap Segment.encode ++ rest)) rounds
          (before ++ segments.flatMap Segment.encode).length := by
  induction segments with
  | nil =>
    intro before rounds room
    rw [List.length_nil, Nat.zero_add, List.flatMap_nil, List.append_nil]
  | cons segment segments ih =>
    intro before rounds room
    have more : 2 ≤ (segments.flatMap Segment.encode ++ rest).length := by
      rw [List.length_append]
      omega
    have rounds_succ : (segment :: segments).length + rounds = (segments.length + rounds) + 1 := by
      rw [List.length_cons]
      omega
    rw [rounds_succ, jpegLoop, List.flatMap_cons, List.append_assoc,
      jpegRound_segment (unfilled segment List.mem_cons_self) more]
    have passed := @ih (fun segment member => unfilled segment (List.mem_cons_of_mem _ member)) (before ++ segment.encode)
      rounds room
    rw [List.append_assoc, List.append_assoc, List.length_append] at passed
    exact passed

end

theorem length_le_segments (segments : List Segment) : segments.length ≤ (segments.flatMap Segment.encode).length := by
  induction segments with
  | nil => exact Nat.le_refl _
  | cons segment segments ih =>
    have := two_le_encode segment
    rw [List.length_cons, List.flatMap_cons, List.length_append]
    omega

theorem FrameHeader.length_encode (frame : FrameHeader) :
    frame.encode.length = frame.fill + (10 + frame.components.length) := by
  simp only [FrameHeader.encode, List.length_append, List.length_replicate, List.length_cons, length_beBytes]
  omega

/-- The walk comes to the frame header. -/
theorem jpegLoop_file (file : JpegFile) (unfilled : ∀ segment ∈ file.segments, segment.fill = 0) :
    ∃ rounds, imageDimensions file.bytes =
      jpegLoop file.bytes (rounds + 1) ([0xFF, 0xD8] ++ file.segments.flatMap Segment.encode).length := by
  have frame := file.frame.length_encode
  have many := length_le_segments file.segments
  have length : file.bytes.length = 2 + ((file.segments.flatMap Segment.encode).length + (file.frame.encode.length +
      file.after.length)) := by
    simp only [JpegFile.bytes, List.length_append, List.length_cons, List.length_nil]
  obtain ⟨rounds, enough⟩ : ∃ rounds, file.bytes.length + 1 = file.segments.length + (rounds + 1) :=
    ⟨file.bytes.length - file.segments.length, by omega⟩
  have room : 2 ≤ (file.frame.encode ++ file.after).length := by
    rw [List.length_append]
    omega
  refine ⟨rounds, ?_⟩
  unfold imageDimensions
  have png : hasPrefix file.bytes pngSignature = false := rfl
  have gif : hasPrefix file.bytes (ascii "GIF") = false := rfl
  have webp : isWebP file.bytes = false := by
    rw [isWebP, show hasPrefix file.bytes (ascii "RIFF") = false from rfl, Bool.and_false, Bool.false_and]
  have jpeg : hasPrefix file.bytes [0xFF, 0xD8] = true := rfl
  rw [if_neg (by rw [png]; simp), if_neg (by rw [gif]; simp), if_neg (by rw [webp]; simp),
    if_pos ⟨by omega, jpeg⟩, jpegDimensions, enough]
  exact jpegLoop_segments unfilled (rounds + 1) room

theorem JpegFile.dimensions (file : JpegFile) (unfilled : file.Unfilled) :
    imageDimensions file.bytes = .ok (file.frame.width, file.frame.height) := by
  obtain ⟨rounds, walked⟩ := jpegLoop_file file unfilled.1
  have split : file.bytes = ([0xFF, 0xD8] ++ file.segments.flatMap Segment.encode) ++ (file.frame.encode ++ file.after) := by
    rw [JpegFile.bytes, List.append_assoc]
  rw [walked, jpegLoop, split, jpegRound_frame unfilled.2]
  rfl

/-! ### Fill bytes -/

/-- A fill byte is taken for a marker, and the two bytes after the next one for its length. -/
theorem jpegRound_fill {before more : Bytes} {high low : UInt8} (long : 0xC0 ≤ high)
    (short : more.length + 4 < 2 + 0xC000) :
    jpegRound (before ++ 0xFF :: 0xFF :: high :: low :: more) before.length = .ok (.inl (0, 0)) := by
  have lead : byteAt (before ++ 0xFF :: 0xFF :: high :: low :: more) before.length = .ok 0xFF := byteAt_append 0xFF
  have marker : byteAt (before ++ 0xFF :: 0xFF :: high :: low :: more) ↑(before.length + 1) = .ok 0xFF := by
    have := @byteAt_append (before ++ [0xFF]) (high :: low :: more) 0xFF
    rwa [List.length_append, List.append_assoc] at this
  have total : (before ++ 0xFF :: 0xFF :: high :: low :: more).length = before.length + (more.length + 4) := by
    rw [List.length_append]
    rfl
  have word : range (before ++ 0xFF :: 0xFF :: high :: low :: more) (before.length + 2) (before.length + 4) = [high, low] :=
    @range_at _ (before ++ [0xFF, 0xFF]) [high, low] more _ _ (by simp) (by rw [List.length_append]; rfl) rfl
  have large : 0xC000 ≤ bigEndian [high, low] := by
    rw [UInt8.le_iff_toNat_le] at long
    have : (0xC0 : UInt8).toNat = 0xC0 := rfl
    simp only [bigEndian, List.foldl_cons, List.foldl_nil]
    omega
  unfold jpegRound
  rw [if_neg (by omega), lead, marker]
  simp only [bind, Except.bind, pure, Except.pure]
  rw [if_neg (by decide), if_neg (by decide), if_neg (by decide), slice_nat (by omega) (by omega), word]
  exact if_pos (Or.inr (by omega))

theorem FrameHeader.encode_filled {frame : FrameHeader} (filled : frame.fill ≠ 0) :
    ∃ high low more, 0xC0 ≤ high ∧ frame.encode = 0xFF :: 0xFF :: high :: low :: more := by
  have code : ∀ marker ∈ frameMarkers, 0xC0 ≤ marker := forall_mem_of_all (by decide)
  obtain ⟨fill, fills⟩ := Nat.exists_eq_succ_of_ne_zero filled
  have moved (tail : Bytes) : List.replicate (fill + 1) 0xFF ++ (0xFF :: tail) = List.replicate (fill + 2) 0xFF ++ tail := by
    have more : List.replicate (fill + 2) (0xFF : UInt8) = List.replicate (fill + 1) 0xFF ++ [0xFF] := List.replicate_succ'
    rw [more, List.append_assoc]
    rfl
  rw [FrameHeader.encode, fills, moved]
  cases fill with
  | zero => exact ⟨frame.marker, _, _, code _ frame.marker_code, rfl⟩
  | succ fill =>
    cases fill with
    | zero => exact ⟨0xFF, frame.marker, _, by decide, rfl⟩
    | succ fill => exact ⟨0xFF, 0xFF, _, by decide, rfl⟩

/-- With fill bytes at the frame header, an image of less than 48 KiB from there on has no size. -/
theorem JpegFile.filled (file : JpegFile) (unfilled : ∀ segment ∈ file.segments, segment.fill = 0)
    (filled : file.frame.fill ≠ 0) (short : file.frame.encode.length + file.after.length < 0xC000) :
    imageDimensions file.bytes = .ok (0, 0) := by
  obtain ⟨rounds, walked⟩ := jpegLoop_file file unfilled
  obtain ⟨high, low, more, long, frame⟩ := file.frame.encode_filled filled
  have split : file.bytes = ([0xFF, 0xD8] ++ file.segments.flatMap Segment.encode) ++
      0xFF :: 0xFF :: high :: low :: (more ++ file.after) := by
    rw [JpegFile.bytes, frame]
    simp only [List.append_assoc, List.cons_append]
  rw [frame] at short
  simp only [List.length_cons] at short
  rw [walked, jpegLoop, split, jpegRound_fill long (by rw [List.length_append]; omega)]
  rfl

/-- A grey image of one pixel. -/
def onePixel : FrameHeader where
  fill := 0
  marker := 0xC0
  precision := 8
  height := 1
  width := 1
  components := [1, 0x11, 0]
  marker_code := by decide
  height_fits := by decide
  width_fits := by decide
  components_length := ⟨1, by decide, rfl⟩

end GroupButler.Media
