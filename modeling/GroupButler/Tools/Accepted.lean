import GroupButler.Tools.Params

/-!
# Staged parameters downstream

What a write tool staged is parsed again when the action runs, and a group change a third time by the
worker. The executor takes every stage but a send due after the year 9999; the worker holds a name, a
photo, an address and a message id to rules of its own.
-/

namespace GroupButler.Tools
open Foundation Sends Store Actions Groups

/-- The schema's date and time have a four-digit year, so it reads back such an instant's rendering and
no other. -/
class IsoDatetimes extends Datetimes where
  parse_toISOString : ∀ ms, parse (toISOString ms) = if FourDigitYear ms then some ms else none

/-- Nothing downstream refuses the action for its parameters: a send is requested, anything else becomes
a body the worker resolves. -/
def Accepted [Datetimes] (tool : StagedGroupWriteToolName) (params : Json) : Prop :=
  if tool = .groupSend then ∃ request, sendRequestFor params = .ok request
  else ∃ request, workerRequestFor tool.name params = .ok request ∧ accepts (adminBody request)

/-- What the worker, and the schema of an instant, hold a call's own fields to. -/
def Fits [DateStrings] (tool : StagedGroupWriteToolName) (input : Json) : Prop :=
  match tool with
  | .groupRename => ∀ name, input.field "name" = some (.str name) →
    goTrimSpace (jsTrim name) ≠ "" ∧ (goTrimSpace (jsTrim name)).length ≤ maxGroupNameLength
  | .groupSetPhoto => ∀ dataUrl, input.field "dataUrl" = some (.str dataUrl) → PhotoDataUrl (jsTrim dataUrl)
  | .groupMembers => ∀ items, input.field "jids" = some (.arr items) →
    ∀ jid, Json.str jid ∈ items → (participantAddress (jsTrim jid)).isSome
  | .messageRevoke => ∀ waMessageId, input.field "waMessageId" = some (.str waMessageId) →
    goTrimSpace (jsTrim waMessageId) ≠ ""
  | .groupSend => ∀ sendAt due, input.field "sendAt" = some (.str sendAt) →
    readDate (jsTrim sendAt) = some due → FourDigitYear due
  | .groupSetAnnounce | .groupSetLocked | .groupLeave => True

/-! ### The size of a photo -/

theorem utf8Size_le_units (c : Char) : c.utf8Size ≤ 3 * (utf16Units c).length := by
  unfold utf16Units
  split
  · have small : c.toNat < 0x10000 := by assumption
    have three : c.utf8Size ≠ 4 := by
      intro four
      have large := UInt32.lt_iff_toNat_lt.mp (Char.utf8Size_eq_four_iff.mp four)
      exact absurd small (Nat.not_lt.mpr large)
    have bound := Char.utf8Size_le_four c
    simp only [List.length_singleton]
    omega
  · have bound := Char.utf8Size_le_four c
    simp only [List.length_cons, List.length_nil]
    omega

theorem bytes_le_units (cs : List Char) :
    (cs.map fun c => c.utf8Size).sum ≤ 3 * (cs.flatMap utf16Units).length := by
  induction cs with
  | nil => simp
  | cons c cs ih =>
    have head := utf8Size_le_units c
    simp only [List.map_cons, List.sum_cons, List.flatMap_cons, List.length_append]
    omega

theorem payload_sublist {s header payload : String} (cut : cutComma s = some (header, payload)) :
    payload.toList.Sublist s.toList := by
  unfold cutComma at cut
  split at cut
  · obtain ⟨-, rfl⟩ := Prod.mk.inj (Option.some.inj cut)
    rw [String.toList_ofList]
    exact (List.tail_sublist _).trans (List.dropWhile_sublist _)
  · cases cut

theorem units_sublist {cs ds : List Char} (part : cs.Sublist ds) :
    (cs.flatMap utf16Units).length ≤ (ds.flatMap utf16Units).length := by
  induction part with
  | slnil => exact le_rfl
  | cons d _ ih => simp only [List.flatMap_cons, List.length_append]; omega
  | cons_cons c _ ih => simp only [List.flatMap_cons, List.length_append]; omega

/-- The tool's bound on a data URL is the tighter one. -/
theorem photoFits_of_staged {dataUrl : String} (short : (utf16 dataUrl).length ≤ GroupToolLimits.dataUrlChars) :
    PhotoFits dataUrl := by
  intro header payload cut
  have bytes := bytes_le_units payload.toList
  have units := units_sublist (payload_sublist cut)
  have cap : maxGroupPhotoBytes = 4194304 := rfl
  have chars : GroupToolLimits.dataUrlChars = 1400000 := rfl
  unfold utf16 at short
  unfold decodedLen byteLength
  omega

/-! ### What was staged is read back -/

theorem trimmed_field {name : String} {input : Json} {s : String} (read : (input.field name).bind trimmed = some s) :
    ∃ raw, input.field name = some (.str raw) ∧ s = jsTrim raw := by
  obtain ⟨value, found, once⟩ := Option.bind_eq_some_iff.mp read
  obtain ⟨raw, rfl, same, -⟩ := trimmed_eq_some once
  exact ⟨raw, found, same⟩

theorem bounded_field {name : String} {max : Nat} {input : Json} {s : String}
    (read : (input.field name).bind (bounded max) = some s) :
    (input.field name).bind trimmed = some s ∧ (utf16 s).length ≤ max := by
  obtain ⟨value, found, once⟩ := Option.bind_eq_some_iff.mp read
  obtain ⟨trimmed_, short⟩ := bounded_eq_some once
  exact ⟨by rw [found]; exact trimmed_, short⟩

theorem trimmed_again {name : String} {input : Json} {s : String} (read : (input.field name).bind trimmed = some s) :
    trimmed (.str s) = some s := by
  obtain ⟨value, -, once⟩ := Option.bind_eq_some_iff.mp read
  exact trimmed_str once

theorem mapM_trimmed {items : List Json} {jids : List String} (read : items.mapM trimmed = some jids) :
    (jids.map Json.str).mapM trimmed = some jids ∧
      ∀ jid, jid ∈ jids ↔ ∃ raw, Json.str raw ∈ items ∧ jsTrim raw = jid := by
  induction items generalizing jids with
  | nil =>
    obtain rfl := Option.some.inj read
    exact ⟨rfl, by simp⟩
  | cons item items ih =>
    rw [List.mapM_cons] at read
    obtain ⟨jid, once, rest⟩ := Option.bind_eq_some_iff.mp read
    obtain ⟨tail, later, joined⟩ := Option.bind_eq_some_iff.mp rest
    obtain rfl := Option.some.inj joined
    obtain ⟨again, members⟩ := ih later
    obtain ⟨raw, rfl, rfl, -⟩ := trimmed_eq_some once
    constructor
    · rw [List.map_cons, List.mapM_cons, trimmed_str once, again]
      rfl
    · intro other
      rw [List.mem_cons, members]
      constructor
      · rintro (rfl | ⟨found, member, same⟩)
        · exact ⟨raw, List.mem_cons_self, rfl⟩
        · exact ⟨found, List.mem_cons_of_mem _ member, same⟩
      · rintro ⟨found, member, same⟩
        rcases List.mem_cons.mp member with head | member
        · obtain rfl := Json.str.inj head
          exact Or.inl same.symm
        · exact Or.inr ⟨found, member, same⟩

/-! ### Each tool -/

theorem accepted_iff [Datetimes] {tool : StagedGroupWriteToolName} {params : Json} {request : GroupAdminRequest}
    (worker : tool ≠ .groupSend) (read : workerRequestFor tool.name params = .ok request) :
    Accepted tool params ↔ accepts (adminBody request) := by
  rw [Accepted, if_neg worker]
  constructor
  · rintro ⟨other, again, accepted⟩
    rw [read] at again
    obtain rfl := Except.ok.inj again
    exact accepted
  · exact fun accepted => ⟨request, read, accepted⟩

section
variable [DateStrings] [IsoDatetimes] {input : Json}

theorem accepted_rename {name : String} (read : nameParams input = some name) :
    Accepted .groupRename (.obj [("name", .str name)]) ↔ Fits .groupRename input := by
  obtain ⟨once, -⟩ := bounded_field read
  obtain ⟨raw, found, rfl⟩ := trimmed_field once
  have request : workerRequestFor StagedGroupWriteToolName.groupRename.name (.obj [("name", .str (jsTrim raw))]) =
      .ok (.rename (jsTrim raw)) := by
    simp [workerRequestFor, StagedGroupWriteToolName.name, Json.field, orInvalid, trimmed_again once]
  rw [accepted_iff (by decide) request, accepts_rename]
  simp [Fits, found]

theorem accepted_photo {dataUrl : String} (read : photoParams input = some dataUrl) :
    Accepted .groupSetPhoto (.obj [("dataUrl", .str dataUrl)]) ↔ Fits .groupSetPhoto input := by
  obtain ⟨once, short⟩ := bounded_field read
  obtain ⟨raw, found, rfl⟩ := trimmed_field once
  have request : workerRequestFor StagedGroupWriteToolName.groupSetPhoto.name (.obj [("dataUrl", .str (jsTrim raw))]) =
      .ok (.photo (jsTrim raw)) := by
    simp [workerRequestFor, StagedGroupWriteToolName.name, Json.field, orInvalid, trimmed_again once]
  rw [accepted_iff (by decide) request, accepts_photo, and_iff_left (photoFits_of_staged short)]
  simp [Fits, found]

theorem accepted_revoke {waMessageId : String} (read : revokeParams input = some waMessageId) :
    Accepted .messageRevoke (.obj [("waMessageId", .str waMessageId)]) ↔ Fits .messageRevoke input := by
  obtain ⟨raw, found, rfl⟩ := trimmed_field read
  have request : workerRequestFor StagedGroupWriteToolName.messageRevoke.name (.obj [("waMessageId", .str (jsTrim raw))]) =
      .ok (.revoke (jsTrim raw)) := by
    simp [workerRequestFor, StagedGroupWriteToolName.name, Json.field, orInvalid, trimmed_again read]
  rw [accepted_iff (by decide) request, accepts_revoke]
  simp [Fits, found]

theorem accepted_members {membership : Membership} {jids : List String} (read : membersParams input = some (membership, jids)) :
    Accepted .groupMembers (.obj [("membership", .str (membershipWord membership)), ("jids", .arr (jids.map .str))]) ↔
      Fits .groupMembers input := by
  obtain ⟨_, -, read⟩ := Option.bind_eq_some_iff.mp read
  obtain ⟨verb, -, read⟩ := Option.bind_eq_some_iff.mp read
  obtain ⟨all, listed, read⟩ := Option.bind_eq_some_iff.mp read
  split at read
  case isFalse => cases read
  obtain ⟨rfl, rfl⟩ : verb = membership ∧ all = jids := Prod.mk.inj (Option.some.inj read)
  obtain ⟨value, found, listed⟩ := Option.bind_eq_some_iff.mp listed
  match value, listed with
  | .arr (item :: items), listed =>
    obtain ⟨again, members⟩ := mapM_trimmed listed
    have some_ : all ≠ [] := by
      rintro rfl
      rw [memberJids, List.mapM_cons] at listed
      obtain ⟨_, -, rest⟩ := Option.bind_eq_some_iff.mp listed
      obtain ⟨_, -, joined⟩ := Option.bind_eq_some_iff.mp rest
      cases joined
    have jidsAgain : memberJids (.arr (all.map .str)) = some all := by
      cases all with
      | nil => exact absurd rfl some_
      | cons jid jids => exact again
    have verbAgain : Actions.membership (.str (membershipWord verb)) = some verb := by
      cases verb <;> rfl
    have request : workerRequestFor StagedGroupWriteToolName.groupMembers.name
        (.obj [("membership", .str (membershipWord verb)), ("jids", .arr (all.map .str))]) =
          .ok (.members verb all) := by
      simp [workerRequestFor, StagedGroupWriteToolName.name, Json.field, orInvalid, jidsAgain, verbAgain]
    rw [accepted_iff (by decide) request, accepts_members, and_iff_right some_]
    simp only [Fits, found, Option.some.injEq, Json.arr.injEq, forall_eq', members]
    constructor
    · exact fun named raw member => named _ ⟨raw, member, rfl⟩
    · rintro named _ ⟨raw, member, rfl⟩
      exact named raw member

/-- A send says in its parameters when it is due as the executor's schema reads it, or not at all. -/
theorem accepted_send {now : Time} {staged : Staged} (read : stageSend now input = some staged) :
    Accepted .groupSend staged.params ↔ Fits .groupSend input := by
  obtain ⟨⟨text, sendAt⟩, parsed, read⟩ := Option.bind_eq_some_iff.mp read
  obtain ⟨body, textRead, parsed⟩ := Option.bind_eq_some_iff.mp parsed
  obtain ⟨once, -⟩ := bounded_field textRead
  have again := trimmed_again once
  rw [Accepted, if_pos rfl]
  cases given : input.field "sendAt" with
  | none =>
    rw [given] at parsed
    obtain ⟨rfl, rfl⟩ := Prod.mk.inj (Option.some.inj parsed)
    obtain rfl := Option.some.inj read
    have request : sendRequestFor (.obj [("text", .str body)]) = .ok (body, none) := by
      simp [sendRequestFor, Json.field, again]
    simp [Fits, given, request]
  | some value =>
    rw [given] at parsed
    obtain ⟨sendAt', timeRead, same⟩ := Option.map_eq_some_iff.mp parsed
    obtain ⟨rfl, rfl⟩ := Prod.mk.inj same
    obtain ⟨due, dueRead, rfl⟩ := Option.map_eq_some_iff.mp read
    obtain ⟨raw, rfl, rfl, -⟩ := trimmed_eq_some timeRead
    obtain ⟨instant, readAs, bounds⟩ := Option.bind_eq_some_iff.mp dueRead
    obtain rfl : instant = due := by
      split at bounds
      · cases bounds
      · exact Option.some.inj bounds
    have fits : Fits .groupSend input ↔ FourDigitYear instant := by
      simp only [Fits, given, Option.some.injEq, Json.str.injEq]
      constructor
      · exact fun all => all raw instant rfl readAs
      · rintro years _ due rfl other
        obtain rfl := Option.some.inj (readAs.symm.trans other)
        exact years
    rw [fits]
    by_cases years : FourDigitYear instant
    · have request : sendRequestFor (.obj [("text", .str body), ("scheduledFor", .str (toISOString instant))]) =
          .ok (body, some instant) := by
        simp [sendRequestFor, Json.field, again, IsoDatetimes.parse_toISOString, years]
      exact iff_of_true ⟨_, request⟩ years
    · have refused : sendRequestFor (.obj [("text", .str body), ("scheduledFor", .str (toISOString instant))]) =
          .error invalidParams := by
        simp [sendRequestFor, Json.field, again, IsoDatetimes.parse_toISOString, years]
      refine iff_of_false ?_ years
      rintro ⟨_, accepted⟩
      cases refused.symm.trans accepted

end

/-- A reader and a schema that know the one format `toISOString` writes. -/
@[reducible] def isoDateStrings : DateStrings := ⟨fun _ => none⟩

@[reducible] def isoDatetimes : IsoDatetimes where
  parse s := if toISOString (isoMillis s.toList) = s ∧ FourDigitYear (isoMillis s.toList) then some (isoMillis s.toList) else none
  parse_toISOString ms := by
    have chars (ms : Int) : (toISOString ms).toList = isoChars ms := String.toList_ofList
    rw [chars]
    by_cases years : FourDigitYear ms
    · rw [isoMillis_isoChars years, if_pos ⟨rfl, years⟩, if_pos years]
    · rw [if_neg years, if_neg]
      rintro ⟨same, other⟩
      rw [← isoChars_head, ← chars, same, chars, isoChars_head] at other
      exact years other

end GroupButler.Tools
