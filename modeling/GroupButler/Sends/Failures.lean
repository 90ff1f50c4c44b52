import GroupButler.Ingest.SearchText
import GroupButler.Sends.Dispatch

/-!
# What a failed send leaves behind

A failed delivery is recorded with the text of its error, cut to 512 bytes. The cut is made byte by byte, and the
store takes no text that is not UTF-8.
-/

namespace GroupButler.Sends
open Foundation Store Ingest.SearchText

/-! ### The texts of the bridge's errors -/

/-- `error` is what the envelope's field decodes to, if the answer is an envelope at all. -/
def refusalMessage (error : Option String) (status : String) : String :=
  match error with
  | none => status
  | some error => if goTrimSpace error ≠ "" then goTrimSpace error else status

/-- `bridgeRefusal.Error` -/
def refusalError (status : Nat) (message : String) : String := "hermes bridge refused (" ++ toString status ++ "): " ++ message

/-! ### The write -/

/-- The `dispatch.error` of a failed send. -/
def failureText (message : String) : Octets :=
  let message := octets (goTrimSpace message)
  if 512 < message.length then message.take 512 else message

/-- A request and its `dispatch.error`. -/
structure FailureDoc where
  row : SendRow
  error : Option Octets

def FailureDoc.failed (err : SendError) (message : String) (now : Time) (doc : FailureDoc) : FailureDoc :=
  { row := doc.row.marked (.error err) now, error := some (failureText message) }

/-- `accepts` is whether the store takes a text; a refused update changes nothing. -/
def failed (accepts : Octets → Bool) (delivery : Delivery) (err : SendError) (message : String) (now : Time)
    (docs : List FailureDoc) : Option (List FailureDoc) :=
  if accepts (failureText message) then
    some (updateOne (fun doc => doc.row.heldFor delivery) (FailureDoc.failed err message now) docs)
  else none

/-- The dispatcher's own mark, where the store takes the text. -/
theorem failed_mark {accepts : Octets → Bool} {delivery : Delivery} {err : SendError} {message : String} {now : Time}
    {docs after : List FailureDoc} (recorded : failed accepts delivery err message now docs = some after) (s : State)
    (index : Nat) (stored : docs.map FailureDoc.row = s.db.requests) (live : delivery.live = true) :
    after.map FailureDoc.row = (mark s index delivery (.error err) now).db.requests := by
  rw [failed] at recorded
  split at recorded
  · rw [← Option.some.inj recorded, mark, if_pos live, ← stored]
    exact map_updateOne_view fun doc => rfl
  · cases recorded

/-! ### The cut -/

/-- A valid text cut at a byte is valid where that byte begins a character. -/
theorem valid_take_iff (cs : List Char) (n : Nat) :
    Valid ((toUtf8 cs).take n) ↔ ∀ b ∈ (toUtf8 cs)[n]?, utf8Start b = true := by
  constructor
  · rintro ⟨kept, front⟩ b next
    -- Read back, the text is the kept characters and more of them.
    have whole : toUtf8 cs = toUtf8 kept ++ (toUtf8 cs).drop n := by rw [← front, List.take_append_drop]
    have chars : cs = kept ++ ofUtf8 none ((toUtf8 cs).drop n) := by
      have read := congrArg (ofUtf8 none) whole
      rwa [ofUtf8_toUtf8, ofUtf8_toUtf8_append] at read
    have rest : (toUtf8 cs).drop n = toUtf8 (ofUtf8 none ((toUtf8 cs).drop n)) := by
      have again := congrArg toUtf8 chars
      rw [toUtf8_append] at again
      exact List.append_cancel_left (whole.symm.trans again)
    have head := toUtf8_head (ofUtf8 none ((toUtf8 cs).drop n))
    rw [← rest, List.head?_drop] at head
    exact head b next
  · intro begins
    by_cases long : n < (toUtf8 cs).length
    · have same : truncateUTF8 (toUtf8 cs) n = (toUtf8 cs).take n := by
        rw [truncateUTF8, cutTo_cut long]
        congr 1
        cases n with
        | zero => rfl
        | succ n =>
          apply cutBack_start
          rw [List.getElem?_eq_getElem long] at begins ⊢
          exact begins _ rfl
      rw [← same]
      exact Valid.truncate ⟨cs, rfl⟩ n
    · rw [List.take_of_length_le (Nat.le_of_not_lt long)]
      exact ⟨cs, rfl⟩

theorem failureText_eq (message : String) : failureText message = (octets (goTrimSpace message)).take 512 := by
  rw [failureText]
  split
  · rfl
  · rename_i short
    exact (List.take_of_length_le (Nat.le_of_not_lt short)).symm

/-- The trimmed message fits, or a character of it begins where it is cut. -/
def CutsCleanly (message : String) : Prop :=
  (octets (goTrimSpace message)).length ≤ 512 ∨ ∃ b, (octets (goTrimSpace message))[512]? = some b ∧ utf8Start b = true

theorem failureText_valid_iff (message : String) : Valid (failureText message) ↔ CutsCleanly message := by
  rw [failureText_eq, octets, valid_take_iff, CutsCleanly, octets]
  by_cases long : 512 < (toUtf8 (goTrimSpace message).toList).length
  · rw [List.getElem?_eq_getElem long]
    simp only [Option.mem_def, Option.some.injEq, forall_eq', exists_eq_left', Nat.not_le.mpr long, false_or]
  · rw [List.getElem?_eq_none (Nat.le_of_not_lt long)]
    simp [Nat.le_of_not_lt long]

theorem truncated_valid (message : String) :
    Valid (truncateUTF8 (octets (goTrimSpace message)) 512) ∧ (truncateUTF8 (octets (goTrimSpace message)) 512).length ≤ 512 :=
  ⟨Valid.truncate ⟨_, rfl⟩ 512, length_cutTo _ _⟩

/-! ### The law -/

/-- A store that takes every valid text records a failure where the cut splits no character. -/
theorem failed_recorded_iff (accepts : Octets → Bool) (takes : ∀ text, Valid text → accepts text = true) (message : String) :
    (Valid (failureText message) ∧ (failureText message).length ≤ 512 ∧
        failureText message <+: octets (goTrimSpace message) ∧
        ∀ (delivery : Delivery) (err : SendError) (now : Time) (before : List FailureDoc) (doc : FailureDoc)
          (after : List FailureDoc), (∀ other ∈ before, other.row.heldFor delivery = false) →
          doc.row.heldFor delivery = true →
          failed accepts delivery err message now (before ++ doc :: after) =
              some (before ++ doc.failed err message now :: after) ∧
            (doc.failed err message now).row.status = .failed) ↔
      CutsCleanly message := by
  rw [← failureText_valid_iff]
  constructor
  · exact fun holds => holds.1
  · intro valid
    refine ⟨valid, ?_, ?_, ?_⟩
    · rw [failureText_eq]
      exact List.length_take_le _ _
    · rw [failureText_eq]
      exact List.take_prefix _ _
    · intro delivery err now before doc after first held
      refine ⟨?_, rfl⟩
      rw [failed, if_pos (takes _ valid), updateOne_append first, updateOne, if_pos held]

/-- Whether the bytes are UTF-8, decided by reading and writing them back. -/
def isUtf8 (text : Octets) : Bool := toUtf8 (ofUtf8 none text) == text

theorem isUtf8_of_valid (text : Octets) (valid : Valid text) : isUtf8 text = true := by
  obtain ⟨cs, rfl⟩ := valid
  rw [isUtf8, ofUtf8_toUtf8, beq_self_eq_true]

theorem short_refusal_recorded :
    Valid (failureText (refusalError 500 "item-not-found")) ∧ (failureText (refusalError 500 "item-not-found")).length ≤ 512 := by
  have holds := (failed_recorded_iff isUtf8 isUtf8_of_valid (refusalError 500 "item-not-found")).mpr (Or.inl (by decide))
  exact ⟨holds.1, holds.2.1⟩

/-- A reason of the bridge's: letters, and an accented one. -/
def accentedReason (letters : Nat) : String := String.ofList (List.replicate letters 'a' ++ ['é'])

theorem accentedReason_octets (letters : Nat) :
    octets (goTrimSpace (refusalError 500 (refusalMessage (some (accentedReason (letters + 1))) "500 Internal Server Error"))) =
      octets "hermes bridge refused (500): " ++ List.replicate (letters + 1) 97 ++ [0xC3, 0xA9] := by
  have last : (accentedReason (letters + 1)).toList.getLast? = some 'é' := by
    rw [accentedReason, String.toList_ofList, List.getLast?_concat]
  have reason : goTrimSpace (accentedReason (letters + 1)) = accentedReason (letters + 1) := by
    apply trimChars_of_ends
    · intro c first
      rw [accentedReason, String.toList_ofList, List.replicate_succ] at first
      obtain rfl := Option.some.inj first
      decide
    · intro c end_
      rw [last] at end_
      obtain rfl := Option.some.inj end_
      decide
  have some_ : accentedReason (letters + 1) ≠ "" := by
    intro none
    rw [none] at last
    cases last
  have error (message : String) : refusalError 500 message = "hermes bridge refused (500): " ++ message := rfl
  have whole : goTrimSpace ("hermes bridge refused (500): " ++ accentedReason (letters + 1)) =
      "hermes bridge refused (500): " ++ accentedReason (letters + 1) := by
    apply trimChars_of_ends
    · intro c first
      rw [String.toList_append] at first
      obtain rfl := Option.some.inj first
      decide
    · intro c end_
      rw [String.toList_append, List.getLast?_append, last] at end_
      obtain rfl := Option.some.inj end_
      decide
  have plain : toUtf8 (List.replicate (letters + 1) 'a') = List.replicate (letters + 1) 97 := by
    rw [toUtf8_ascii fun c letter => by rw [List.eq_of_mem_replicate letter]; decide, List.map_replicate]
    rfl
  have accented : toUtf8 ['é'] = [0xC3, 0xA9] := by decide
  have text : octets (accentedReason (letters + 1)) = List.replicate (letters + 1) 97 ++ [0xC3, 0xA9] := by
    rw [octets, accentedReason, String.toList_ofList, toUtf8_append, plain, accented]
  rw [refusalMessage, reason, if_pos some_, error, whole, octets_append, text, List.append_assoc]

theorem splits_accent {message : String} {front : Octets} (bytes : octets (goTrimSpace message) = front ++ [0xC3, 0xA9])
    (last : front.length = 511) : ¬ CutsCleanly message := by
  rw [CutsCleanly, bytes]
  rintro (short | ⟨b, next, begins⟩)
  · rw [List.length_append, last] at short
    exact absurd short (by decide)
  · rw [List.getElem?_append_right (by omega), last] at next
    obtain rfl := Option.some.inj next
    cases begins

/-- With the words in front of 482 letters the cut falls inside the accented one, and no store that takes only valid
texts records the refusal. -/
theorem accented_refusal_lost :
    let message := refusalError 500 (refusalMessage (some (accentedReason 482)) "500 Internal Server Error")
    ¬ Valid (failureText message) ∧
      ∀ accepts : Octets → Bool, (∀ text, accepts text = true → Valid text) →
        ∀ (delivery : Delivery) (err : SendError) (now : Time) (docs : List FailureDoc),
          failed accepts delivery err message now docs = none := by
  intro message
  have invalid : ¬ Valid (failureText message) := by
    rw [failureText_valid_iff]
    refine splits_accent (accentedReason_octets 481) ?_
    have words : (octets "hermes bridge refused (500): ").length = 29 := by decide
    rw [List.length_append, List.length_replicate, words]
  refine ⟨invalid, fun accepts takes delivery err now docs => ?_⟩
  rw [failed, if_neg fun taken => invalid (takes _ taken)]

end GroupButler.Sends
