import GroupButler.Actions.Execute
import GroupButler.Foundation.Base64

/-!
# The worker's check of a group change

`POST .../admin` decodes one body for every action, and `validate` resolves the parameters of the
action it names.
-/

namespace GroupButler.Groups
open Foundation Sends Actions

/-- `maxGroupNameLength` -/
def maxGroupNameLength : Nat := 25

/-- `maxGroupPhotoBytes` -/
def maxGroupPhotoBytes : Nat := 4 * 2 ^ 20

structure GroupAdminBody where
  action : String
  name : String := ""
  announce : Option Bool := none
  locked : Option Bool := none
  dataUrl : String := ""
  membership : String := ""
  jids : List String := []
  waMessageId : String := ""
  /-- Resolved by `validate`. -/
  participants : List String := []
  deriving DecidableEq, Repr

def membershipWord : Membership → String
  | .add => "add"
  | .remove => "remove"
  | .promote => "promote"
  | .demote => "demote"

/-- The body the dashboard posts for a request, as the worker decodes it. -/
def adminBody : GroupAdminRequest → GroupAdminBody
  | .rename name => { action := "rename", name }
  | .announce announce => { action := "announce", announce := some announce }
  | .locked locked => { action := "locked", locked := some locked }
  | .photo dataUrl => { action := "photo", dataUrl }
  | .members membership jids => { action := "members", membership := membershipWord membership, jids }
  | .leave => { action := "leave" }
  | .revoke waMessageId => { action := "revoke", waMessageId }

/-- `errInvalidRequest`, with the text that names the parameter. -/
def invalidRequest {α : Type} (text : String) : Except String α := .error ("invalid request: " ++ text)

/-- `strings.Cut(s, ",")` -/
def cutComma (s : String) : Option (String × String) :=
  if ',' ∈ s.toList then
    some (String.ofList (s.toList.takeWhile (· != ',')), String.ofList (s.toList.dropWhile (· != ',')).tail)
  else none

def isImageHeader (header : String) : Bool :=
  "data:image/".toList.isPrefixOf header.toList && ";base64".toList.isSuffixOf header.toList

/-- `validatePhotoDataURL` -/
def validatePhotoDataUrl (dataUrl : String) : Except String Unit :=
  match cutComma dataUrl with
  | none => invalidRequest "dataUrl must be a base64 image data URL"
  | some (header, payload) =>
    if !isImageHeader header then
      invalidRequest "dataUrl must be a base64 image data URL"
    else if maxGroupPhotoBytes < decodedLen (byteLength payload) then
      invalidRequest ("photo is larger than " ++ toString maxGroupPhotoBytes ++ " bytes")
    else
      match decodeBase64 payload with
      | none => invalidRequest "dataUrl is not valid base64"
      | some photo => if photo = [] then invalidRequest "photo is empty" else .ok ()

def membershipVerb (verb : String) : Except String String :=
  if verb ∈ ["add", "remove", "promote", "demote"] then .ok verb
  else invalidRequest "membership must be add, remove, promote or demote"

/-- The account a raw address names, if it names one. -/
def participantAddress (raw : String) : Option WaAddress := (parseAddress raw).filter WaAddress.isUser

def participantTarget (raw : String) : Except String String :=
  match participantAddress raw with
  | some address => .ok address.render
  -- `%q`
  | none => invalidRequest (raw.quote ++ " is not a participant jid")

def validate (r : GroupAdminBody) : Except String GroupAdminBody :=
  match r.action with
  | "rename" =>
    let name := goTrimSpace r.name
    if name = "" then invalidRequest "name is required"
    else if maxGroupNameLength < name.length then
      invalidRequest ("name is longer than " ++ toString maxGroupNameLength ++ " characters")
    else .ok { r with name }
  | "announce" => if r.announce.isNone then invalidRequest "announce is required" else .ok r
  | "locked" => if r.locked.isNone then invalidRequest "locked is required" else .ok r
  | "photo" => (validatePhotoDataUrl r.dataUrl).map fun _ => r
  | "members" =>
    match membershipVerb r.membership with
    | .error text => .error text
    | .ok verb =>
      if r.jids = [] then invalidRequest "jids is required"
      else (r.jids.mapM participantTarget).map fun participants => { r with participants, membership := verb }
  | "leave" => .ok r
  | "revoke" =>
    let waMessageId := goTrimSpace r.waMessageId
    if waMessageId = "" then invalidRequest "waMessageId is required" else .ok { r with waMessageId }
  | action => invalidRequest ("unknown action " ++ action.quote)

def accepts (r : GroupAdminBody) : Prop := ∃ resolved, validate r = .ok resolved

/-! ### What each action accepts -/

theorem accepts_rename (name : String) :
    accepts (adminBody (.rename name)) ↔ goTrimSpace name ≠ "" ∧ (goTrimSpace name).length ≤ maxGroupNameLength := by
  simp only [accepts, validate, adminBody]
  by_cases blank : goTrimSpace name = ""
  · simp [blank, invalidRequest]
  · by_cases long : maxGroupNameLength < (goTrimSpace name).length
    · simp [blank, long, invalidRequest]
    · simp [blank, long, Nat.le_of_not_lt]

theorem accepts_announce (announce : Bool) : accepts (adminBody (.announce announce)) := ⟨_, rfl⟩

theorem accepts_locked (locked : Bool) : accepts (adminBody (.locked locked)) := ⟨_, rfl⟩

theorem accepts_leave : accepts (adminBody .leave) := ⟨_, rfl⟩

theorem accepts_revoke (waMessageId : String) :
    accepts (adminBody (.revoke waMessageId)) ↔ goTrimSpace waMessageId ≠ "" := by
  simp only [accepts, validate, adminBody]
  by_cases blank : goTrimSpace waMessageId = ""
  · simp [blank, invalidRequest]
  · simp [blank]

theorem mapM_participants {raws : List String} :
    (∃ participants, raws.mapM participantTarget = .ok participants) ↔ ∀ raw ∈ raws, (participantAddress raw).isSome := by
  induction raws with
  | nil => simp [pure, Except.pure]
  | cons raw raws ih =>
    rw [List.mapM_cons]
    cases address : participantAddress raw with
    | none => simp [participantTarget, address, invalidRequest, bind, Except.bind]
    | some found =>
      simp only [participantTarget, address, List.forall_mem_cons, Option.isSome_some, true_and, ← ih]
      cases raws.mapM participantTarget <;> simp [bind, Except.bind, pure, Except.pure]

theorem accepts_members (membership : Membership) (jids : List String) :
    accepts (adminBody (.members membership jids)) ↔ jids ≠ [] ∧ ∀ jid ∈ jids, (participantAddress jid).isSome := by
  have verb : membershipVerb (membershipWord membership) = .ok (membershipWord membership) := by
    cases membership <;> rfl
  simp only [accepts, validate, adminBody, verb, ← mapM_participants]
  by_cases none : jids = []
  · simp [none, invalidRequest]
  · simp only [ne_eq, none, not_false_eq_true, true_and]
    cases jids.mapM participantTarget <;> simp [Except.map]

/-- A base64 image: `data:image/`, anything without a comma, `;base64,`, and padded base64 with something
in it, line breaks aside. -/
def PhotoDataUrl (dataUrl : String) : Prop :=
  ∃ header payload, cutComma dataUrl = some (header, payload) ∧ isImageHeader header = true ∧
    Padded (skipBreaks payload.toList) ∧ skipBreaks payload.toList ≠ []

/-- The size of the photo a data URL may carry. -/
def PhotoFits (dataUrl : String) : Prop :=
  ∀ header payload, cutComma dataUrl = some (header, payload) → decodedLen (byteLength payload) ≤ maxGroupPhotoBytes

theorem accepts_photo (dataUrl : String) :
    accepts (adminBody (.photo dataUrl)) ↔ PhotoDataUrl dataUrl ∧ PhotoFits dataUrl := by
  have photo : accepts (adminBody (.photo dataUrl)) ↔ validatePhotoDataUrl dataUrl = .ok () := by
    simp only [accepts, validate, adminBody]
    cases validatePhotoDataUrl dataUrl <;> simp [Except.map]
  rw [photo, validatePhotoDataUrl]
  cases cut : cutComma dataUrl with
  | none => simp [PhotoDataUrl, cut, invalidRequest]
  | some parts =>
    obtain ⟨header, payload⟩ := parts
    have shape : PhotoDataUrl dataUrl ↔ isImageHeader header = true ∧ ∃ bytes, decodeBase64 payload = some bytes ∧ bytes ≠ [] := by
      rw [decodeBase64_nonempty_iff]
      constructor
      · rintro ⟨_, _, found, framed, padded, some_⟩
        obtain ⟨rfl, rfl⟩ := Prod.mk.inj (Option.some.inj (cut.symm.trans found))
        exact ⟨framed, padded, some_⟩
      · rintro ⟨framed, padded, some_⟩
        exact ⟨header, payload, cut, framed, padded, some_⟩
    have fits : PhotoFits dataUrl ↔ ¬ maxGroupPhotoBytes < decodedLen (byteLength payload) := by
      rw [not_lt]
      constructor
      · exact fun all => all header payload cut
      · intro small _ _ found
        obtain ⟨rfl, rfl⟩ := Prod.mk.inj (Option.some.inj (cut.symm.trans found))
        exact small
    rw [shape, fits]
    simp only [Bool.not_eq_true']
    generalize maxGroupPhotoBytes = cap
    generalize decodedLen (byteLength payload) = size
    cases isImageHeader header with
    | false => simp [invalidRequest]
    | true =>
      by_cases large : cap < size
      · simp [large, invalidRequest]
      · cases decodeBase64 payload with
        | none => simp [large, invalidRequest]
        | some bytes => by_cases none : bytes = [] <;> simp [large, none, invalidRequest]

end GroupButler.Groups
