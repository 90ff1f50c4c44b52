import GroupButler.Foundation.Bytes

/-!
# ISO media boxes

`isoBoxes` walks the sibling boxes of a byte string. The offsets are 64-bit signed integers and their
sums wrap, so a box size near the word limit can take the walk out of the data.
-/

namespace GroupButler.Media
open Foundation

/-! ### The walk -/

structure IsoBox where
  start : Int
  content : Int
  stop : Int
  typ : List UInt8
  deriving DecidableEq, Repr

/-- The end of a round: the box is kept and the next offset taken, or the walk stops. -/
def isoClose (data : List UInt8) (off : Int) (boxes : List IsoBox) (typ : List UInt8) (size header : Int) :
    List IsoBox ⊕ Int × List IsoBox :=
  if size < header ∨ data.length < int64 (off + size) then .inl boxes
  else .inr (int64 (off + size), boxes ++ [⟨off, int64 (off + header), int64 (off + size), typ⟩])

/-- One round of the loop: the boxes when it ends, or the next offset and the boxes with one more. -/
def isoRound (data : List UInt8) (off : Int) (boxes : List IsoBox) : Except Fault (List IsoBox ⊕ Int × List IsoBox) := do
  if data.length < int64 (off + 8) then
    return .inl boxes
  let word ← slice data off (int64 (off + 4))
  let typ ← slice data (int64 (off + 4)) (int64 (off + 8))
  if bigEndian word = 1 then
    if data.length < int64 (off + 16) then
      return .inl boxes
    let long ← slice data (int64 (off + 8)) (int64 (off + 16))
    return isoClose data off boxes typ (int64 (bigEndian long)) 16
  if bigEndian word = 0 then
    return isoClose data off boxes typ (data.length - off) 8
  return isoClose data off boxes typ (bigEndian word) 8

def isoLoop (data : List UInt8) : Nat → Int → List IsoBox → Except Fault (List IsoBox)
  | 0, _, _ => .error .unfinished
  | rounds + 1, off, boxes => do
    match ← isoRound data off boxes with
    | .inl boxes => .ok boxes
    | .inr (off, boxes) => isoLoop data rounds off boxes

/-- A round that goes on moves by eight bytes at least, or out of the data. -/
def isoBoxes (data : List UInt8) : Except Fault (List IsoBox) := isoLoop data (data.length + 2) 0 []

/-! ### The format -/

/-- A byte string a Go program can hold: the allocator serves no larger slice. -/
def Addressable (data : List UInt8) : Prop := data.length ≤ 2 ^ 48

/-- What stands at an offset: no box that fits, a 64-bit size past the word limit, or a box with its header's length. -/
inductive Header where
  | stops
  | overflows
  | box (header size : Nat)
  deriving DecidableEq, Repr

/-- A declared size, against the header's length, the word limit and the data. -/
def fits (data : List UInt8) (off header size : Nat) : Header :=
  if size < header ∨ 2 ^ 63 ≤ size then .stops
  else if 2 ^ 63 ≤ off + size then .overflows
  else if data.length < off + size then .stops
  else .box header size

def headerAt (data : List UInt8) (off : Nat) : Header :=
  if data.length < off + 8 then .stops
  else
    let short := bigEndian (range data off (off + 4))
    if short = 1 then
      if data.length < off + 16 then .stops else fits data off 16 (bigEndian (range data (off + 8) (off + 16)))
    else fits data off 8 (if short = 0 then data.length - off else short)

/-- The box that a header opens. -/
def boxAt (data : List UInt8) (off header size : Nat) : IsoBox :=
  ⟨off, ↑(off + header), ↑(off + size), range data (off + 4) (off + 8)⟩

theorem fits_box {data : List UInt8} {off length size header size' : Nat}
    (found : fits data off length size = .box header size') : header = length ∧ header ≤ size' ∧ off + size' ≤ data.length := by
  unfold fits at found
  split at found
  · cases found
  · split at found
    · cases found
    · split at found
      · cases found
      · obtain ⟨rfl, rfl⟩ := Header.box.inj found
        omega

theorem headerAt_box {data : List UInt8} {off header size : Nat} (found : headerAt data off = .box header size) :
    8 ≤ header ∧ header ≤ size ∧ off + size ≤ data.length := by
  unfold headerAt at found
  dsimp only at found
  split at found
  · cases found
  · split at found
    · split at found
      · cases found
      · obtain ⟨rfl, rest⟩ := fits_box found
        exact ⟨by decide, rest⟩
    · obtain ⟨rfl, rest⟩ := fits_box found
      exact ⟨by decide, rest⟩

/-! ### One round -/

section
variable {data : List UInt8} {off : Nat}

theorem int64_near (addressable : Addressable data) (inside : off ≤ data.length) {n : Nat} (small : n ≤ 16) :
    int64 (off + n) = ↑(off + n) := by
  unfold Addressable at addressable
  rw [int64_small (by omega) (by omega)]
  exact (Int.natCast_add off n).symm

/-- What a round makes of a header. -/
def Header.round (boxes : List IsoBox) (data : List UInt8) (off : Nat) : Header → (List IsoBox ⊕ Int × List IsoBox) → Prop
  | .stops, out => out = .inl boxes
  | .overflows, out => ∃ next boxes', -2 ^ 63 ≤ next ∧ next + 8 ≤ 0 ∧ out = .inr (next, boxes')
  | .box header size, out => out = .inr (↑(off + size), boxes ++ [boxAt data off header size])

theorem isoClose_spec (addressable : Addressable data) (inside : off ≤ data.length) (boxes : List IsoBox) {size header : Nat}
    (word : size < 2 ^ 64) (short : header ≤ 16) :
    (fits data off header size).round boxes data off
      (isoClose data off boxes (range data (off + 4) (off + 8)) (int64 size) header) := by
  have limit : data.length ≤ 2 ^ 48 := addressable
  unfold fits
  split
  · rename_i refused
    refine if_pos (Or.inl ?_)
    rcases refused with small | large
    · rw [int64_small (by omega) (by omega)]
      omega
    · rw [int64_large (by omega) (by omega)]
      omega
  · rename_i accepted
    have exact_ : int64 (size : Int) = size := int64_small (by omega) (by omega)
    unfold isoClose
    rw [exact_]
    split
    · rename_i past
      have wrapped : int64 (off + size) = off + size - 2 ^ 64 := int64_large (by omega) (by omega)
      rw [wrapped]
      rw [if_neg (by omega)]
      exact ⟨_, _, by omega, by omega, rfl⟩
    · have sum : int64 (off + size) = ↑(off + size) := by
        rw [int64_small (by omega) (by omega)]
        exact (Int.natCast_add off size).symm
      rw [sum]
      split
      · exact if_pos (Or.inr (by omega))
      · rw [if_neg (by omega), int64_near addressable inside short]
        rfl

theorem bigEndian_range {high : Nat} (inside : high ≤ data.length) (width : Nat) {bound : Nat} (bits : 256 ^ width = bound)
    (wide : high = off + width) : bigEndian (range data off high) < bound := by
  have limit := bigEndian_lt (range data off high)
  rw [length_range inside, wide, Nat.add_sub_cancel_left, bits] at limit
  rwa [wide]

theorem isoRound_spec (addressable : Addressable data) (inside : off ≤ data.length) (boxes : List IsoBox) :
    ∃ out, isoRound data off boxes = .ok out ∧ (headerAt data off).round boxes data off out := by
  have four : int64 (off + 4) = ↑(off + 4) := int64_near addressable inside (n := 4) (by decide)
  have eight : int64 (off + 8) = ↑(off + 8) := int64_near addressable inside (n := 8) (by decide)
  have sixteen : int64 (off + 16) = ↑(off + 16) := int64_near addressable inside (n := 16) (by decide)
  unfold isoRound headerAt
  rw [four, eight, sixteen]
  split
  · rename_i ends
    rw [if_pos (by omega)]
    exact ⟨_, rfl, rfl⟩
  · rename_i room
    rw [if_neg (by omega), slice_nat (by omega) (by omega), slice_nat (by omega) (by omega)]
    simp only [bind, Except.bind, pure, Except.pure]
    split
    · split
      · rw [if_pos (by omega)]
        exact ⟨_, rfl, rfl⟩
      · rename_i long
        rw [if_neg (by omega), slice_nat (by omega) (by omega)]
        exact ⟨_, rfl, isoClose_spec addressable inside boxes (bigEndian_range (by omega) 8 (by decide) rfl) (by decide)⟩
    · have short : bigEndian (range data off (off + 4)) < 2 ^ 32 := bigEndian_range (by omega) 4 (by decide) rfl
      have near {size : Nat} (small : size < 2 ^ 63) : int64 (size : Int) = size := int64_small (by omega) (by omega)
      have limit : data.length ≤ 2 ^ 48 := addressable
      split
      · have closes := @isoClose_spec data off addressable inside boxes (data.length - off) 8 (by omega) (by decide)
        rw [near (by omega), Int.ofNat_sub inside] at closes
        exact ⟨_, rfl, closes⟩
      · have closes := @isoClose_spec data off addressable inside boxes (bigEndian (range data off (off + 4))) 8
          (by omega) (by decide)
        rw [near (by omega)] at closes
        exact ⟨_, rfl, closes⟩

/-- An offset that the addition took below zero is out of the data. -/
theorem isoRound_negative {next : Int} (low : -2 ^ 63 ≤ next) (below : next + 8 ≤ 0) (boxes : List IsoBox) :
    isoRound data next boxes = .error .outOfRange := by
  have sum : int64 (next + 8) = next + 8 := int64_small (by omega) (by omega)
  unfold isoRound
  rw [sum, if_neg (by omega), slice, if_neg (by omega)]
  rfl

end

/-! ### The whole walk -/

/-- The boxes from an offset, up to a header that stops the walk. -/
inductive Walk (data : List UInt8) : Nat → List IsoBox → Prop
  | stop {off : Nat} (header : headerAt data off = .stops) : Walk data off []
  | box {off length size : Nat} {boxes : List IsoBox} (header : headerAt data off = .box length size)
      (rest : Walk data (off + size) boxes) : Walk data off (boxAt data off length size :: boxes)

/-- The walk from an offset reaches a size that passes the word limit. -/
inductive Overflows (data : List UInt8) : Nat → Prop
  | here {off : Nat} (header : headerAt data off = .overflows) : Overflows data off
  | next {off length size : Nat} (header : headerAt data off = .box length size)
      (rest : Overflows data (off + size)) : Overflows data off

section
variable {data : List UInt8} {off : Nat}

theorem walk_or_overflows (data : List UInt8) (off : Nat) : (∃ boxes, Walk data off boxes) ∨ Overflows data off := by
  cases header : headerAt data off with
  | stops => exact Or.inl ⟨[], .stop header⟩
  | overflows => exact Or.inr (.here header)
  | box length size =>
    obtain ⟨eight, long, ends⟩ := headerAt_box header
    rcases walk_or_overflows data (off + size) with ⟨boxes, walk⟩ | overflows
    · exact Or.inl ⟨_, .box header walk⟩
    · exact Or.inr (.next header overflows)
termination_by data.length - off

theorem Walk.not_overflows {boxes : List IsoBox} (walk : Walk data off boxes) : ¬ Overflows data off := by
  induction walk with
  | stop header =>
    rintro (here | ⟨there, _⟩)
    · rw [header] at here
      cases here
    · rw [header] at there
      cases there
  | box header _ ih =>
    rintro (here | ⟨there, rest⟩)
    · rw [header] at here
      cases here
    · rw [header] at there
      obtain ⟨rfl, rfl⟩ := Header.box.inj there
      exact ih rest

theorem isoLoop_walk (addressable : Addressable data) {boxes : List IsoBox} (walk : Walk data off boxes) :
    ∀ {rounds : Nat} (kept : List IsoBox), off ≤ data.length → data.length - off < rounds →
      isoLoop data rounds off kept = .ok (kept ++ boxes) := by
  induction walk with
  | stop header =>
    intro rounds kept inside enough
    obtain ⟨rounds, rfl⟩ := Nat.exists_eq_succ_of_ne_zero (by omega : rounds ≠ 0)
    obtain ⟨out, round, made⟩ := isoRound_spec addressable inside kept
    rw [header] at made
    obtain rfl : out = .inl kept := made
    rw [isoLoop, round, List.append_nil]
    rfl
  | @box off length size boxes header _ ih =>
    intro rounds kept inside enough
    obtain ⟨rounds, rfl⟩ := Nat.exists_eq_succ_of_ne_zero (by omega : rounds ≠ 0)
    obtain ⟨out, round, made⟩ := isoRound_spec addressable inside kept
    rw [header] at made
    obtain rfl : out = .inr (↑(off + size), kept ++ [boxAt data off length size]) := made
    obtain ⟨eight, long, ends⟩ := headerAt_box header
    rw [isoLoop, round]
    refine (ih (kept ++ [boxAt data off length size]) ends (by omega)).trans ?_
    rw [List.append_assoc, List.singleton_append]

theorem isoLoop_overflows (addressable : Addressable data) (overflows : Overflows data off) :
    ∀ {rounds : Nat} (kept : List IsoBox), off ≤ data.length → data.length - off + 1 < rounds →
      isoLoop data rounds off kept = .error .outOfRange := by
  induction overflows with
  | here header =>
    intro rounds kept inside enough
    obtain ⟨rounds, rfl⟩ := Nat.exists_eq_add_of_le' (by omega : 2 ≤ rounds)
    obtain ⟨out, round, made⟩ := isoRound_spec addressable inside kept
    rw [header] at made
    obtain ⟨next, boxes, low, below, rfl⟩ := made
    rw [isoLoop, round]
    show isoLoop data (rounds + 1) next boxes = _
    rw [isoLoop, isoRound_negative low below]
    rfl
  | @next off length size header _ ih =>
    intro rounds kept inside enough
    obtain ⟨rounds, rfl⟩ := Nat.exists_eq_succ_of_ne_zero (by omega : rounds ≠ 0)
    obtain ⟨out, round, made⟩ := isoRound_spec addressable inside kept
    rw [header] at made
    obtain rfl : out = .inr (↑(off + size), kept ++ [boxAt data off length size]) := made
    obtain ⟨eight, long, ends⟩ := headerAt_box header
    rw [isoLoop, round]
    exact ih _ ends (by omega)

theorem isoBoxes_walk (addressable : Addressable data) {boxes : List IsoBox} (walk : Walk data 0 boxes) :
    isoBoxes data = .ok boxes :=
  isoLoop_walk addressable walk [] (Nat.zero_le _) (by omega)

theorem isoBoxes_overflows (addressable : Addressable data) (overflows : Overflows data 0) :
    isoBoxes data = .error .outOfRange :=
  isoLoop_overflows addressable overflows [] (Nat.zero_le _) (by omega)

/-! ### What the boxes are -/

/-- Ranges inside the data, each after the one before it. -/
def Ordered (data : List UInt8) (boxes : List IsoBox) : Prop :=
  (∀ box ∈ boxes, 0 ≤ box.start ∧ box.start < box.content ∧ box.content ≤ box.stop ∧ box.stop ≤ data.length) ∧
    boxes.Pairwise fun first second => first.stop ≤ second.start

theorem Walk.ordered {boxes : List IsoBox} (walk : Walk data off boxes) :
    Ordered data boxes ∧ ∀ box ∈ boxes, (off : Int) ≤ box.start := by
  induction walk with
  | stop header => exact ⟨⟨by simp, List.Pairwise.nil⟩, by simp⟩
  | @box off length size boxes header _ ih =>
    obtain ⟨⟨inside, apart⟩, after⟩ := ih
    obtain ⟨eight, long, ends⟩ := headerAt_box header
    refine ⟨⟨?_, ?_⟩, ?_⟩
    · intro box member
      rcases List.mem_cons.mp member with rfl | member
      · dsimp only [boxAt]
        omega
      · exact inside box member
    · exact List.Pairwise.cons (fun box member => after box member) apart
    · intro box member
      rcases List.mem_cons.mp member with rfl | member
      · exact Int.le_refl _
      · have := after box member
        omega

/-- The content of a box that the walk returns. -/
theorem slice_boxAt {length size : Nat} (header : headerAt data off = .box length size) :
    slice data (boxAt data off length size).start (boxAt data off length size).stop = .ok (range data off (off + size)) ∧
      slice data (boxAt data off length size).content (boxAt data off length size).stop =
        .ok (range data (off + length) (off + size)) := by
  obtain ⟨eight, long, ends⟩ := headerAt_box header
  exact ⟨slice_nat (by omega) ends, slice_nat (by omega) ends⟩

end

end GroupButler.Media
