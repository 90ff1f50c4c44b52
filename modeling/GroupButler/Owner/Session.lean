import GroupButler.Foundation.JsonRead
import GroupButler.Foundation.Utf8
import GroupButler.Owner.Throttle

/-!
# The session cookie

A cookie carries the owner's identity and a tag over it. What is accepted, over any history of logins, of
the clock and of the secret.
-/

namespace GroupButler.Owner
open Foundation

/-- `createHmac("sha256", secret).update(payload).digest("base64url")`, whose alphabet has no dot. -/
class Hmac where
  digest : String → List Char → List Char
  plain : ∀ secret payload, '.' ∉ digest secret payload

inductive SessionError where
  | weakSecret
  deriving DecidableEq, Repr

def sessionTtlSeconds : Int := 7 * 24 * 60 * 60

def clockSkewSeconds : Int := 60

structure OwnerSession where
  email : String
  organizationId : String
  iat : Int
  exp : Int
  deriving DecidableEq, Repr

/-! ### Writing -/

def OwnerSession.json (session : OwnerSession) : Json :=
  .obj [("sub", .str "owner"), ("email", .str session.email), ("organizationId", .str session.organizationId),
    ("iat", .num session.iat), ("exp", .num session.exp)]

def OwnerSession.payload (session : OwnerSession) : List Char := toBase64url (toUtf8 session.json.text)

/-- `sign`; an unset secret is empty. -/
def sign [Hmac] (secret : String) (payload : List Char) : Except SessionError (List Char) :=
  if (utf16 secret).length < 32 then .error .weakSecret else .ok (Hmac.digest secret payload)

def issueSession [Hmac] (secret : String) (now : Int) (owner : OwnerIdentity) (ttlSeconds : Int) : Except SessionError (List Char) :=
  let session : OwnerSession := ⟨owner.email, owner.organizationId, now, now + ttlSeconds⟩
  (sign secret session.payload).map fun tag => session.payload ++ '.' :: tag

/-! ### Reading -/

/-- The text before the last dot and the text behind it. -/
def splitLastDot : List Char → Option (List Char × List Char)
  | [] => none
  | c :: cs =>
    match splitLastDot cs with
    | some (payload, tag) => some (c :: payload, tag)
    | none => if c = '.' then some ([], cs) else none

/-- The order of two numbers as they are written. -/
def decimalLt (a b : Decimal) : Prop := signed a.negative a.num * b.den < signed b.negative b.num * a.den

instance (a b : Decimal) : Decidable (decimalLt a b) := inferInstanceAs (Decidable (_ < _))

def wholeDecimal (n : Int) : Decimal := ⟨decide (n < 0), n.natAbs, 0⟩

/-- A session as it is read. -/
structure ReadSession where
  email : List Char
  organizationId : List Char
  iat : Decimal
  exp : Decimal
  deriving DecidableEq, Repr

def checkSession (now : Int) (value : JsonValue) : Option ReadSession :=
  match value.field "sub", value.field "email", value.field "organizationId", value.field "iat", value.field "exp" with
  | some (.str sub), some (.str email), some (.str organizationId), some (.num iat), some (.num exp) =>
    if sub ≠ "owner".toList then none
    else if decimalLt (wholeDecimal (now + clockSkewSeconds)) iat then none
    else if ¬ decimalLt (wholeDecimal now) exp ∨ ¬ decimalLt iat exp then none
    else some ⟨email, organizationId, iat, exp⟩
  | _, _, _, _, _ => none

def readSession [Hmac] (secret : String) (now : Int) (token : List Char) : Except SessionError (Option ReadSession) :=
  match splitLastDot token with
  | none => .ok none
  | some ([], _) => .ok none
  | some (payload, provided) =>
    (sign secret payload).map fun expected =>
      if toUtf8 provided ≠ toUtf8 expected then none
      else (parseJson (ofUtf8 none (ofBase64url payload))).bind (checkSession now)

/-! ### The token -/

theorem splitLastDot_token (payload : List Char) {tag : List Char} (plain : '.' ∉ tag) :
    splitLastDot (payload ++ '.' :: tag) = some (payload, tag) := by
  have behind : ∀ cs : List Char, '.' ∉ cs → splitLastDot cs = none := by
    intro cs free
    induction cs with
    | nil => rfl
    | cons c cs ih =>
      have other : c ≠ '.' := fun same => free (same ▸ List.mem_cons_self)
      rw [splitLastDot, ih fun member => free (List.mem_cons_of_mem _ member)]
      exact if_neg other
  induction payload with
  | nil =>
    rw [List.nil_append, splitLastDot, behind tag plain]
    rfl
  | cons c payload ih => rw [List.cons_append, splitLastDot, ih]

theorem eq_of_splitLastDot {token payload tag : List Char} (split : splitLastDot token = some (payload, tag)) :
    token = payload ++ '.' :: tag := by
  induction token generalizing payload tag with
  | nil => cases split
  | cons c token ih =>
    rw [splitLastDot] at split
    cases later : splitLastDot token with
    | some parts =>
      obtain ⟨front, back⟩ := parts
      rw [later] at split
      obtain ⟨rfl, rfl⟩ := Prod.mk.inj (Option.some.inj split)
      rw [ih later, List.cons_append]
    | none =>
      rw [later] at split
      dsimp only at split
      split at split
      · rename_i dot
        obtain ⟨rfl, rfl⟩ := Prod.mk.inj (Option.some.inj split)
        rw [dot, List.nil_append]
      · cases split

theorem decimalLt_whole (a b : Int) : decimalLt (wholeDecimal a) (wholeDecimal b) ↔ a < b := by
  have value (n : Int) : signed (wholeDecimal n).negative (wholeDecimal n).num = n := by
    simp only [signed, wholeDecimal, Decimal.num, decide_eq_true_eq, Int.toNat_zero, pow_zero, Nat.mul_one]
    split <;> omega
  have den (n : Int) : (wholeDecimal n).den = 1 := rfl
  rw [decimalLt, value, value, den, den]
  omega

theorem text_octets (session : OwnerSession) : ∀ byte ∈ toUtf8 session.json.text, byte < 256 := by
  intro byte member
  obtain ⟨c, -, inside⟩ := List.mem_flatMap.mp member
  exact utf8Bytes_lt c byte inside

theorem ofBase64url_payload (session : OwnerSession) : ofUtf8 none (ofBase64url session.payload) = session.json.text := by
  rw [OwnerSession.payload, ofBase64url_toBase64url (text_octets session), ofUtf8_toUtf8]

theorem payload_ne_nil (session : OwnerSession) : session.payload ≠ [] := by
  intro none
  have text := ofBase64url_payload session
  rw [none] at text
  cases text

/-- A payload reads back as the session it was written from. -/
theorem parse_payload (session : OwnerSession) : parseJson (ofUtf8 none (ofBase64url session.payload)) = some session.json.value := by
  rw [ofBase64url_payload, parseJson_text]

theorem checkSession_json (now : Int) (session : OwnerSession) : checkSession now session.json.value =
    if session.iat ≤ now + clockSkewSeconds ∧ now < session.exp ∧ session.iat < session.exp then
      some ⟨session.email.toList, session.organizationId.toList, wholeDecimal session.iat, wholeDecimal session.exp⟩
    else none := by
  have fields : checkSession now session.json.value =
      if ("owner".toList : List Char) ≠ "owner".toList then none
      else if decimalLt (wholeDecimal (now + clockSkewSeconds)) (wholeDecimal session.iat) then none
      else if ¬ decimalLt (wholeDecimal now) (wholeDecimal session.exp) ∨ ¬ decimalLt (wholeDecimal session.iat) (wholeDecimal session.exp) then none
      else some ⟨session.email.toList, session.organizationId.toList, wholeDecimal session.iat, wholeDecimal session.exp⟩ := rfl
  rw [fields, if_neg (by simp)]
  simp only [decimalLt_whole]
  split
  · rw [if_neg (by omega)]
  · split
    · rw [if_neg (by omega)]
    · rw [if_pos (by omega)]

section
variable [Hmac]

theorem readSession_token {secret : String} {now : Int} {session : OwnerSession} {tag : List Char}
    (signed : sign secret session.payload = .ok tag) :
    readSession secret now (session.payload ++ '.' :: tag) = .ok (checkSession now session.json.value) := by
  have plain : '.' ∉ tag := by
    unfold sign at signed
    split at signed
    · cases signed
    · rw [← Except.ok.inj signed]
      exact Hmac.plain _ _
  obtain ⟨c, payload, shape⟩ := List.exists_cons_of_ne_nil (payload_ne_nil session)
  have read := parse_payload session
  rw [shape] at signed read
  rw [readSession, splitLastDot_token _ plain, shape]
  show (sign secret (c :: payload)).map _ = _
  rw [signed]
  show Except.ok (if toUtf8 tag ≠ toUtf8 tag then none else (parseJson (ofUtf8 none (ofBase64url (c :: payload)))).bind (checkSession now)) = _
  rw [if_neg (by simp), read, Option.bind_some]

/-- Whatever is read as a session carries the right tag. -/
theorem readSession_signed {secret : String} {now : Int} {token : List Char} {session : ReadSession}
    (read : readSession secret now token = .ok (some session)) : ∃ payload tag, sign secret payload = .ok tag ∧ token = payload ++ '.' :: tag := by
  unfold readSession at read
  split at read
  · cases read
  · cases read
  · rename_i payload provided _ split
    cases signed : sign secret payload with
    | error e =>
      rw [signed] at read
      cases read
    | ok expected =>
      rw [signed] at read
      have inner : (if toUtf8 provided ≠ toUtf8 expected then none
          else (parseJson (ofUtf8 none (ofBase64url payload))).bind (checkSession now)) = some session := Except.ok.inj read
      split at inner
      · cases inner
      · rename_i same
        rw [not_not] at same
        rw [toUtf8_injective same] at split
        exact ⟨payload, expected, signed, eq_of_splitLastDot split⟩

end

/-! ### Histories -/

structure Console where
  /-- `Date.now()` -/
  now : Int
  /-- `AUTH_SECRET` -/
  secret : String
  env : OwnerEnv

inductive ConsoleEvent where
  | clock (ms : Int)
  | rotate (secret : String)
  | configure (env : OwnerEnv)
  | login (email password : String)

def seconds (s : Console) : Int := s.now / 1000

def consoleStep (s : Console) : ConsoleEvent → Console
  | .clock ms => { s with now := ms }
  | .rotate secret => { s with secret := secret }
  | .configure env => { s with env := env }
  | .login _ _ => s

section
variable [Passwords] [Hmac]

/-- The cookie a login sets. -/
def login (s : Console) (email password : String) : Except SessionError (Option (List Char)) :=
  match verifyOwnerCredentials s.env email password with
  | none => .ok none
  | some owner => (issueSession s.secret (seconds s) owner sessionTtlSeconds).map some

/-- The owner a request with this cookie is. -/
def currentOwner (s : Console) (token : List Char) : Except SessionError (Option OwnerIdentity) :=
  (readSession s.secret (seconds s) token).map fun found =>
    found.map fun session => ⟨String.ofList session.email, String.ofList session.organizationId⟩

/-- A login of the history sets this cookie, under the secret that still holds. -/
def SetBy (start : Console) (events : List ConsoleEvent) (token : List Char) : Prop :=
  ∃ before email password after, events = before ++ .login email password :: after ∧
    (run consoleStep start before).secret = (run consoleStep start events).secret ∧
    login (run consoleStep start before) email password = .ok (some token)

theorem login_token {s : Console} {email password : String} {token : List Char} (issued : login s email password = .ok (some token)) :
    ∃ owner tag, verifyOwnerCredentials s.env email password = some owner ∧
      sign s.secret (OwnerSession.payload ⟨owner.email, owner.organizationId, seconds s, seconds s + sessionTtlSeconds⟩) = .ok tag ∧
      token = OwnerSession.payload ⟨owner.email, owner.organizationId, seconds s, seconds s + sessionTtlSeconds⟩ ++ '.' :: tag := by
  unfold login at issued
  split at issued
  · cases issued
  · rename_i owner verified
    unfold issueSession at issued
    dsimp only at issued
    cases signed : sign s.secret (OwnerSession.payload ⟨owner.email, owner.organizationId, seconds s, seconds s + sessionTtlSeconds⟩) with
    | error e =>
      rw [signed] at issued
      cases issued
    | ok tag =>
      rw [signed] at issued
      exact ⟨owner, tag, verified, signed, (Option.some.inj (Except.ok.inj issued)).symm⟩

/-- What a cookie of a login is worth under the same secret. -/
theorem currentOwner_login {s t : Console} {email password : String} {token : List Char} {owner : OwnerIdentity}
    (issued : login t email password = .ok (some token)) (same : t.secret = s.secret) :
    currentOwner s token = .ok (some owner) ↔ verifyOwnerCredentials t.env email password = some owner ∧
      seconds t ≤ seconds s + clockSkewSeconds ∧ seconds s < seconds t + sessionTtlSeconds := by
  obtain ⟨identity, tag, verified, signed, rfl⟩ := login_token issued
  rw [same] at signed
  have ttl : (0 : Int) < sessionTtlSeconds := by decide
  rw [currentOwner, readSession_token signed, checkSession_json, verified]
  show Except.ok _ = Except.ok _ ↔ _
  rw [Except.ok.injEq]
  constructor
  · intro found
    split at found
    · rename_i within
      simp only [Option.map_some, String.ofList_toList, Option.some.injEq] at found
      exact ⟨congrArg some found, within.1, within.2.1⟩
    · cases found
  · intro given
    obtain ⟨known, early, late⟩ := given
    rw [if_pos ⟨early, late, by dsimp only; omega⟩]
    simp only [Option.map_some, String.ofList_toList]
    exact known

/-- Over every history of clock changes, secrets, configurations and logins, and for every cookie that nobody tagged but
the console: a cookie makes its bearer the owner exactly when a login under the secret that still holds set it, for the
identity the credentials proved, no more than seven days ago, and no more than a minute ahead of the clock. -/
theorem cookie_accepted_iff (start : Console) (events : List ConsoleEvent) (token : List Char) (owner : OwnerIdentity)
    (unforged : ∀ payload, token = payload ++ '.' :: Hmac.digest (run consoleStep start events).secret payload → SetBy start events token) :
    currentOwner (run consoleStep start events) token = .ok (some owner) ↔
      ∃ before email password after, events = before ++ .login email password :: after ∧
        (run consoleStep start before).secret = (run consoleStep start events).secret ∧
        login (run consoleStep start before) email password = .ok (some token) ∧
        verifyOwnerCredentials (run consoleStep start before).env email password = some owner ∧
        seconds (run consoleStep start before) ≤ seconds (run consoleStep start events) + 60 ∧
        seconds (run consoleStep start events) < seconds (run consoleStep start before) + 604800 := by
  constructor
  · intro accepted
    have tagged : ∃ payload, token = payload ++ '.' :: Hmac.digest (run consoleStep start events).secret payload := by
      cases read : readSession (run consoleStep start events).secret (seconds (run consoleStep start events)) token with
      | error e =>
        rw [currentOwner, read] at accepted
        cases accepted
      | ok found =>
        cases found with
        | none =>
          rw [currentOwner, read] at accepted
          cases accepted
        | some session =>
          obtain ⟨payload, tag, signed, split⟩ := readSession_signed read
          unfold sign at signed
          split at signed
          · cases signed
          · exact ⟨payload, by rw [split, Except.ok.inj signed]⟩
    obtain ⟨payload, split⟩ := tagged
    obtain ⟨before, email, password, after, parts, same, issued⟩ := unforged payload split
    exact ⟨before, email, password, after, parts, same, issued, (currentOwner_login issued same).mp accepted⟩
  · intro given
    obtain ⟨before, email, password, after, -, same, issued, known⟩ := given
    exact (currentOwner_login issued same).mpr known

end

/-- A cookie set and presented a minute later. -/
theorem cookie_accepted_minute :
    let _ : Passwords := ⟨fun password _ => password == "open sesame", id⟩
    let _ : Hmac := ⟨fun _ _ => "KGyjyaKGHGnwmGV7Oi-1lQzfDKrmk7OvdjyRtbmb9ak".toList, fun _ _ => by decide⟩
    let start : Console := ⟨1757750000000, "0123456789abcdef0123456789abcdef", ⟨"owner@local", "scrypt", "", "", true⟩⟩
    currentOwner (run consoleStep start [.login "owner@local" "open sesame", .clock 1757750060000])
      ("eyJzdWIiOiJvd25lciIsImVtYWlsIjoib3duZXJAbG9jYWwiLCJvcmdhbml6YXRpb25JZCI6Im9yZ19kZWZhdWx0IiwiaWF0IjoxNzU3NzUwMDAwLCJleHAiOjE3NTgzNTQ4MDB9".toList
        ++ '.' :: "KGyjyaKGHGnwmGV7Oi-1lQzfDKrmk7OvdjyRtbmb9ak".toList) = .ok (some ⟨"owner@local", "org_default"⟩) := by
  intro _ _ start
  have issued : login start "owner@local" "open sesame" = .ok (some
      ("eyJzdWIiOiJvd25lciIsImVtYWlsIjoib3duZXJAbG9jYWwiLCJvcmdhbml6YXRpb25JZCI6Im9yZ19kZWZhdWx0IiwiaWF0IjoxNzU3NzUwMDAwLCJleHAiOjE3NTgzNTQ4MDB9".toList
        ++ '.' :: "KGyjyaKGHGnwmGV7Oi-1lQzfDKrmk7OvdjyRtbmb9ak".toList)) := by
    decide +kernel
  refine (cookie_accepted_iff start _ _ _ fun _ _ => ⟨[], "owner@local", "open sesame", [.clock 1757750060000], rfl, rfl, issued⟩).mpr
    ⟨[], "owner@local", "open sesame", [.clock 1757750060000], rfl, rfl, issued, by decide, by decide, by decide⟩

end GroupButler.Owner
