import GroupButler.Foundation.Buffer

/-!
# UTF-8 read back

The decoder of `Buffer.toString` takes the characters of an encoded text off the front one by one, so it
is a left inverse of the encoder, also in front of other bytes.
-/

namespace GroupButler.Foundation

theorem utf8Bytes_lt (c : Char) : ∀ byte ∈ utf8Bytes c, byte < 256 := by
  have valid := char_not_surrogate c
  intro byte member
  unfold utf8Bytes at member
  dsimp only at member
  repeat' split at member
  all_goals
    simp only [List.mem_cons, List.not_mem_nil, or_false] at member
    omega

theorem utf8Bytes_ne_nil (c : Char) : utf8Bytes c ≠ [] := by
  unfold utf8Bytes
  dsimp only
  repeat' split
  all_goals simp

theorem ofUtf8_opens {byte : Nat} {pending : Pending} (lead : leadByte byte = .opens pending) (bytes : List Nat) :
    ofUtf8 none (byte :: bytes) = ofUtf8 (some pending) bytes := by
  rw [ofUtf8]
  simp only [lead]

theorem ofUtf8_more {pending : Pending} {byte : Nat} (low : pending.low ≤ byte) (high : byte ≤ pending.high)
    (owed : pending.owed ≠ 1) (bytes : List Nat) :
    ofUtf8 (some pending) (byte :: bytes) =
      ofUtf8 (some ⟨pending.owed - 1, 0x80, 0xBF, pending.bits * 64 + (byte - 0x80)⟩) bytes := by
  rw [ofUtf8]
  simp only [if_pos (And.intro low high), if_neg owed]

theorem ofUtf8_last {pending : Pending} {byte : Nat} (low : pending.low ≤ byte) (high : byte ≤ pending.high)
    (owed : pending.owed = 1) (bytes : List Nat) :
    ofUtf8 (some pending) (byte :: bytes) = Char.ofNat (pending.bits * 64 + (byte - 0x80)) :: ofUtf8 none bytes := by
  rw [ofUtf8]
  simp only [if_pos (And.intro low high), if_pos owed]

/-- Decoding reads one encoded character off the front. -/
theorem ofUtf8_utf8Bytes (c : Char) (rest : List Nat) : ofUtf8 none (utf8Bytes c ++ rest) = c :: ofUtf8 none rest := by
  have valid := char_not_surrogate c
  unfold utf8Bytes
  dsimp only
  split
  · rename_i one
    rw [List.singleton_append, ofUtf8]
    simp only [leadByte, one, if_true, Char.ofNat_toNat]
  · split
    · rename_i one two
      have lead : leadByte (0xC0 + c.toNat / 0x40) = .opens ⟨1, 0x80, 0xBF, c.toNat / 0x40⟩ := by
        rw [leadByte, if_neg (by omega), if_pos (by omega), Nat.add_sub_cancel_left]
      have point : c.toNat / 0x40 * 64 + (0x80 + c.toNat % 0x40 - 0x80) = c.toNat := by omega
      rw [List.cons_append, List.singleton_append, ofUtf8_opens lead, ofUtf8_last (by simp) (by simp; omega) rfl, point,
        Char.ofNat_toNat]
    · split
      · rename_i one two three
        have lead : leadByte (0xE0 + c.toNat / 0x1000) = .opens ⟨2, if 0xE0 + c.toNat / 0x1000 = 0xE0 then 0xA0 else 0x80,
            if 0xE0 + c.toNat / 0x1000 = 0xED then 0x9F else 0xBF, c.toNat / 0x1000⟩ := by
          rw [leadByte, if_neg (by omega), if_neg (by omega), if_pos (by omega), Nat.add_sub_cancel_left]
        have point : (c.toNat / 0x1000 * 64 + (0x80 + c.toNat / 0x40 % 0x40 - 0x80)) * 64 +
            (0x80 + c.toNat % 0x40 - 0x80) = c.toNat := by omega
        rw [List.cons_append, List.cons_append, List.singleton_append, ofUtf8_opens lead,
          ofUtf8_more (by dsimp only; split <;> omega) (by dsimp only; split <;> omega) (by simp),
          ofUtf8_last (by simp) (by simp; omega) rfl, point, Char.ofNat_toNat]
      · rename_i one two three
        have lead : leadByte (0xF0 + c.toNat / 0x40000) = .opens ⟨3, if 0xF0 + c.toNat / 0x40000 = 0xF0 then 0x90 else 0x80,
            if 0xF0 + c.toNat / 0x40000 = 0xF4 then 0x8F else 0xBF, c.toNat / 0x40000⟩ := by
          rw [leadByte, if_neg (by omega), if_neg (by omega), if_neg (by omega), if_pos (by omega), Nat.add_sub_cancel_left]
        have point : ((c.toNat / 0x40000 * 64 + (0x80 + c.toNat / 0x1000 % 0x40 - 0x80)) * 64 +
            (0x80 + c.toNat / 0x40 % 0x40 - 0x80)) * 64 + (0x80 + c.toNat % 0x40 - 0x80) = c.toNat := by omega
        rw [List.cons_append, List.cons_append, List.cons_append, List.singleton_append, ofUtf8_opens lead,
          ofUtf8_more (by dsimp only; split <;> omega) (by dsimp only; split <;> omega) (by simp),
          ofUtf8_more (by simp) (by simp; omega) (by simp), ofUtf8_last (by simp) (by simp; omega) rfl, point,
          Char.ofNat_toNat]

theorem ofUtf8_toUtf8_append (cs : List Char) (rest : List Nat) : ofUtf8 none (toUtf8 cs ++ rest) = cs ++ ofUtf8 none rest := by
  induction cs with
  | nil => rfl
  | cons c cs ih =>
    rw [toUtf8, List.flatMap_cons, List.append_assoc, ofUtf8_utf8Bytes]
    exact congrArg (c :: ·) ih

theorem ofUtf8_toUtf8 (cs : List Char) : ofUtf8 none (toUtf8 cs) = cs := by
  have whole := ofUtf8_toUtf8_append cs []
  rwa [List.append_nil, ofUtf8, List.append_nil] at whole

theorem toUtf8_injective : Function.Injective toUtf8 := Function.LeftInverse.injective ofUtf8_toUtf8

theorem toUtf8_append (cs ds : List Char) : toUtf8 (cs ++ ds) = toUtf8 cs ++ toUtf8 ds := List.flatMap_append

end GroupButler.Foundation
