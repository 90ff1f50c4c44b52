import GroupButler.Media.IsoBoxes
import Mathlib.Data.Rat.Defs

/-!
# The duration of a movie

`mediaDurationSeconds` walks the boxes of the file, and in each `moov` box the boxes of its content, to the
first movie header with a timescale.
-/

namespace GroupButler.Media
open Foundation

/-- `"moov"` -/
def moovType : List UInt8 := [0x6D, 0x6F, 0x6F, 0x76]

/-- `"mvhd"` -/
def mvhdType : List UInt8 := [0x6D, 0x76, 0x68, 0x64]

/-- The timescale and the duration of a movie header. -/
def parseMvhd (box : List UInt8) : Except Fault (Option (Nat × Nat)) := do
  if box.length < 12 then
    return none
  let body ← slice box 12 box.length
  let version ← byteAt box 8
  if version = 1 then
    if body.length < 28 then
      return none
    let timescale ← slice body 16 20
    let duration ← slice body 20 28
    return some (bigEndian timescale, bigEndian duration)
  if body.length < 16 then
    return none
  let timescale ← slice body 8 12
  let duration ← slice body 12 16
  return some (bigEndian timescale, bigEndian duration)

/-- The loop over the boxes of one `moov` box. -/
def movieSeconds (content : List UInt8) : List IsoBox → Except Fault (Option ℚ)
  | [] => .ok none
  | inner :: boxes => do
    if inner.typ ≠ mvhdType then
      movieSeconds content boxes
    else
      let box ← slice content inner.start inner.stop
      match ← parseMvhd box with
      | none => movieSeconds content boxes
      | some (timescale, duration) =>
        if 0 < timescale then .ok (some (duration / timescale)) else movieSeconds content boxes

/-- The loop over the boxes of the file. -/
def fileSeconds (data : List UInt8) : List IsoBox → Except Fault ℚ
  | [] => .ok 0
  | outer :: boxes => do
    if outer.typ ≠ moovType then
      fileSeconds data boxes
    else
      let content ← slice data outer.content outer.stop
      let inner ← isoBoxes content
      match ← movieSeconds content inner with
      | some seconds => .ok seconds
      | none => fileSeconds data boxes

def mediaDurationSeconds (data : List UInt8) : Except Fault ℚ := do
  let boxes ← isoBoxes data
  fileSeconds data boxes

/-! ### Movie headers -/

/-- The fields that `parseMvhd` reads, by their place in the box. -/
def movieTimes (box : List UInt8) : Option (Nat × Nat) :=
  if box[8]? = some 1 then
    if box.length < 40 then none else some (bigEndian (range box 28 32), bigEndian (range box 32 40))
  else
    if box.length < 28 then none else some (bigEndian (range box 20 24), bigEndian (range box 24 28))

theorem slice_body {box : List UInt8} (low high : Nat) (ordered : low ≤ high) (inside : 12 + high ≤ box.length) :
    slice (range box 12 box.length) low high = .ok (range box (12 + low) (12 + high)) := by
  rw [slice_nat ordered (by rw [length_range (Nat.le_refl _)]; omega), range_range (by omega)]

theorem parseMvhd_eq (box : List UInt8) : parseMvhd box = .ok (movieTimes box) := by
  unfold parseMvhd movieTimes
  split
  · rename_i short
    split <;> rw [if_pos (by omega)] <;> rfl
  · rename_i long
    have body : slice box 12 box.length = .ok (range box 12 box.length) :=
      @slice_nat box 12 _ (by omega) (Nat.le_refl _)
    have version : byteAt box 8 = .ok box[8] := @byteAt_nat box 8 (by omega)
    rw [body, version, List.getElem?_eq_getElem (by omega)]
    simp only [bind, Except.bind, pure, Except.pure, Option.some.injEq, length_range (Nat.le_refl _)]
    split
    · split
      · rw [if_pos (by omega)]
      · have timescale : slice (range box 12 box.length) 16 20 = .ok (range box 28 32) :=
          slice_body 16 20 (by omega) (by omega)
        have duration : slice (range box 12 box.length) 20 28 = .ok (range box 32 40) :=
          slice_body 20 28 (by omega) (by omega)
        rw [if_neg (by omega), timescale, duration]
    · split
      · rw [if_pos (by omega)]
      · have timescale : slice (range box 12 box.length) 8 12 = .ok (range box 20 24) :=
          slice_body 8 12 (by omega) (by omega)
        have duration : slice (range box 12 box.length) 12 16 = .ok (range box 24 28) :=
          slice_body 12 16 (by omega) (by omega)
        rw [if_neg (by omega), timescale, duration]

/-! ### Where the duration is looked for -/

/-- The walk of a `moov` box's content from an offset meets a movie header with a timescale. -/
inductive Timed (content : List UInt8) : Nat → Prop
  | here {off length size timescale duration : Nat} (header : headerAt content off = .box length size)
      (typ : range content (off + 4) (off + 8) = mvhdType)
      (times : movieTimes (range content off (off + size)) = some (timescale, duration)) (positive : 0 < timescale) :
      Timed content off
  | next {off length size : Nat} (header : headerAt content off = .box length size) (rest : Timed content (off + size)) :
      Timed content off

/-- The walk of the file from an offset meets a `moov` box with a size in it that passes the word limit, before
one with a timescale. -/
inductive MoovOverflows (data : List UInt8) : Nat → Prop
  | here {off length size : Nat} (header : headerAt data off = .box length size)
      (typ : range data (off + 4) (off + 8) = moovType) (overflows : Overflows (range data (off + length) (off + size)) 0) :
      MoovOverflows data off
  | next {off length size : Nat} (header : headerAt data off = .box length size)
      (untimed : range data (off + 4) (off + 8) = moovType → ¬ Timed (range data (off + length) (off + size)) 0)
      (rest : MoovOverflows data (off + size)) : MoovOverflows data off

section
variable {data : List UInt8} {off : Nat} {boxes : List IsoBox}

/-- The inner loop gives a duration just when a movie header has a timescale. -/
theorem movieSeconds_walk (walk : Walk data off boxes) :
    ∃ found, movieSeconds data boxes = .ok found ∧ (found.isSome ↔ Timed data off) := by
  induction walk with
  | stop header =>
    refine ⟨none, rfl, iff_of_false (by simp) ?_⟩
    rintro (⟨there, _, _, _⟩ | ⟨there, _⟩)
    · rw [header] at there
      cases there
    · rw [header] at there
      cases there
  | @box off length size boxes header _ ih =>
    obtain ⟨found, rest, timed⟩ := ih
    have passed (silent : range data (off + 4) (off + 8) = mvhdType → ∀ timescale duration,
        movieTimes (range data off (off + size)) = some (timescale, duration) → timescale = 0) :
        Timed data (off + size) ↔ Timed data off := by
      refine ⟨Timed.next header, ?_⟩
      rintro (⟨there, typ, times, positive⟩ | ⟨there, rest⟩)
      · rw [header] at there
        obtain ⟨rfl, rfl⟩ := Header.box.inj there
        exact absurd (silent typ _ _ times) (by omega)
      · rw [header] at there
        obtain ⟨rfl, rfl⟩ := Header.box.inj there
        exact rest
    rw [movieSeconds, (slice_boxAt header).1]
    simp only [bind, Except.bind, parseMvhd_eq]
    split
    · rename_i other
      exact ⟨found, rest, timed.trans (passed fun typ => absurd typ other)⟩
    · rename_i typ
      rw [not_not] at typ
      split
      · rename_i unread
        exact ⟨found, rest, timed.trans (passed fun _ timescale duration times => by rw [times] at unread; cases unread)⟩
      · rename_i timescale duration times
        split
        · rename_i positive
          exact ⟨_, rfl, iff_of_true rfl (.here header typ times positive)⟩
        · refine ⟨found, rest, timed.trans (passed fun _ timescale' duration' times' => ?_)⟩
          rw [times] at times'
          obtain ⟨rfl, rfl⟩ := Prod.mk.inj (Option.some.inj times')
          omega

theorem addressable_range (addressable : Addressable data) (low high : Nat) : Addressable (range data low high) := by
  unfold Addressable range at *
  rw [List.length_take, List.length_drop]
  omega

theorem fileSeconds_walk (addressable : Addressable data) (walk : Walk data off boxes) :
    (∃ seconds, fileSeconds data boxes = .ok seconds) ↔ ¬ MoovOverflows data off := by
  induction walk with
  | stop header =>
    refine iff_of_true ⟨0, rfl⟩ ?_
    rintro (⟨there, _, _⟩ | ⟨there, _, _⟩)
    · rw [header] at there
      cases there
    · rw [header] at there
      cases there
  | @box off length size boxes header _ ih =>
    rw [fileSeconds, (slice_boxAt header).2]
    have inside := addressable_range addressable (off + length) (off + size)
    -- Past a box that gives no duration, the rest decides.
    have passed (plain : range data (off + 4) (off + 8) = moovType →
        ¬ Overflows (range data (off + length) (off + size)) 0 ∧ ¬ Timed (range data (off + length) (off + size)) 0) :
        MoovOverflows data (off + size) ↔ MoovOverflows data off := by
      refine ⟨MoovOverflows.next header fun typ => (plain typ).2, ?_⟩
      rintro (⟨there, typ, overflows⟩ | ⟨there, _, rest⟩)
      · rw [header] at there
        obtain ⟨rfl, rfl⟩ := Header.box.inj there
        exact absurd overflows (plain typ).1
      · rw [header] at there
        obtain ⟨rfl, rfl⟩ := Header.box.inj there
        exact rest
    simp only [bind, Except.bind]
    split
    · rename_i other
      rw [ih, passed fun typ => absurd typ other]
    · rename_i typ
      rw [not_not] at typ
      rcases walk_or_overflows (range data (off + length) (off + size)) 0 with ⟨inner, walk⟩ | overflows
      · rw [isoBoxes_walk inside walk]
        obtain ⟨found, seconds, timed⟩ := movieSeconds_walk walk
        dsimp only
        rw [seconds]
        cases found with
        | some value =>
          refine iff_of_true ⟨value, rfl⟩ ?_
          rintro (⟨there, _, overflows⟩ | ⟨there, untimed, _⟩)
          · rw [header] at there
            obtain ⟨rfl, rfl⟩ := Header.box.inj there
            exact walk.not_overflows overflows
          · rw [header] at there
            obtain ⟨rfl, rfl⟩ := Header.box.inj there
            exact untimed typ (timed.mp rfl)
        | none =>
          have silent : ¬ Timed (range data (off + length) (off + size)) 0 := fun there => by cases timed.mpr there
          rw [← passed fun _ => ⟨walk.not_overflows, silent⟩]
          exact ih
      · rw [isoBoxes_overflows inside overflows]
        refine iff_of_false ?_ (not_not.mpr (.here header typ overflows))
        rintro ⟨_, error⟩
        cases error

end

/-- The walk does not run on: without a result it ends at a read. -/
theorem isoBoxes_finishes {data : List UInt8} (addressable : Addressable data) :
    isoBoxes data ≠ .error .unfinished := by
  rcases walk_or_overflows data 0 with ⟨boxes, walk⟩ | overflows
  · rw [isoBoxes_walk addressable walk]
    rintro ⟨⟩
  · rw [isoBoxes_overflows addressable overflows]
    rintro ⟨⟩

end GroupButler.Media
