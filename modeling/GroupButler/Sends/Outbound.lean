import GroupButler.Ingest.Store
import GroupButler.Sends.Model

/-!
# From a claimed request to the bridge's answer

What the worker refuses before it calls the bridge, how the call may end, and which failures it calls
retryable.
-/

namespace GroupButler.Sends
open Foundation Store Ingest

/-! ### Addresses -/

structure WaAddress where
  user : String
  server : String
  deriving DecidableEq, Repr

def isAddressPart (part : List Char) : Bool := part.all fun c => !(isGoSpace c || c == '/' || c == '@' || c == ',')

def parseAddress (raw : String) : Option WaAddress :=
  let address := (goTrimSpace raw).toList
  if '@' ∈ address then
    let user := (address.takeWhile (· != '@')).takeWhile (· != ':')
    let server := (address.dropWhile (· != '@')).tail
    if user.isEmpty || server.isEmpty || !isAddressPart user || !isAddressPart server then none
    else some ⟨String.ofList user, String.ofList server⟩
  else none

def WaAddress.render (address : WaAddress) : String := address.user ++ "@" ++ address.server

def WaAddress.isGroup (address : WaAddress) : Bool := address.server == "g.us"

def WaAddress.isUser (address : WaAddress) : Bool := address.server == "s.whatsapp.net" || address.server == "lid"

/-- A row without a kind is a group. -/
def checkChatKind (kind : Option String) (jid : WaAddress) : Bool :=
  let kind := kind.getD ""
  if kind = "" ∨ kind = "group" then jid.isGroup else if kind = "user" then jid.isUser else false

/-! ### Refusals before the call -/

/-- The errors `sendText` and `quoteTarget` return, without the texts they wrap. -/
inductive SendError where
  | quoteTargetUnavailable
  | quoteUnreadable
  | unsendable
  | noBridge
  | bridgeUnreachable
  | bridgeTimeout
  | bridgeNotConnected
  | bridgeRefusal (status : Nat)
  deriving DecidableEq, Repr

structure QuotedMessage where
  id : String
  participant : String
  deriving DecidableEq, Repr

/-- `readable` is whether the read of the stored message succeeded. -/
def quoteTarget (messages : List MessageRow) (request : SendRow) (readable : Bool) : Except SendError QuotedMessage :=
  let id := goTrimSpace ((request.provenance.map Provenance.replyToMessageId).getD "")
  if id = "" then .ok ⟨"", ""⟩
  else if readable then
    match messages.find? fun row => row.key == ⟨request.organizationId, request.instanceId, id⟩ with
    | none => .error .quoteTargetUnavailable
    | some row =>
      if row.identity.senderJid = "" then .error .quoteTargetUnavailable else .ok ⟨id, row.identity.senderJid⟩
  else .error .quoteUnreadable

structure OutboundSend where
  chatId : String
  text : String
  reply : QuotedMessage
  deriving DecidableEq, Repr

def buildOutboundSend (groupJid : String) (chatKind : Option String) (text : String) (quote : QuotedMessage) :
    Except SendError OutboundSend :=
  let text := goTrimSpace text
  if text = "" then .error .unsendable
  else
    match parseAddress groupJid with
    | none => .error .unsendable
    | some jid =>
      if checkChatKind chatKind jid then
        let quote : QuotedMessage := ⟨goTrimSpace quote.id, goTrimSpace quote.participant⟩
        if quote.id = "" ∧ quote.participant = "" then .ok ⟨jid.render, text, ⟨"", ""⟩⟩
        else if quote.id = "" ∨ quote.participant = "" then .error .unsendable
        else
          match parseAddress quote.participant with
          | none => .error .unsendable
          | some participant => .ok ⟨jid.render, text, ⟨quote.id, participant.render⟩⟩
      else .error .unsendable

/-! ### The call -/

inductive AnswerBody where
  /-- Cut off, or past the size cap. -/
  | unreadable
  | empty
  | malformed
  | messageId (id : String)
  deriving DecidableEq, Repr

/-- How a call to the bridge may end. The connection is `refused` before anything is written to it,
and `broken` after; `cancelled` is the caller's own context, done for another reason than a deadline. -/
inductive CallEnd where
  | deadline
  | refused
  | broken
  | cancelled
  | answered (status : Nat) (body : AnswerBody)
  deriving DecidableEq, Repr

def transportFailure (timedOut : Bool) : SendError := if timedOut then .bridgeTimeout else .bridgeUnreachable

/-- `do`, and what `SendText` makes of its answer. -/
def sendText : CallEnd → Except SendError String
  | .deadline => .error (transportFailure true)
  | .refused | .broken | .cancelled => .error (transportFailure false)
  | .answered status body =>
    if body = .unreadable then .error (.bridgeRefusal status)
    else if status = 503 then .error .bridgeNotConnected
    else if status < 200 ∨ 299 < status then .error (.bridgeRefusal status)
    else
      match body with
      | .messageId id => if goTrimSpace id = "" then .error (.bridgeRefusal 200) else .ok id
      | _ => .error (.bridgeRefusal status)

/-- `errors.Is`: two of the bridge's errors wrap a third. -/
def SendError.is (err target : SendError) : Bool :=
  err == target || (target == .bridgeUnreachable && (err == .bridgeTimeout || err == .bridgeNotConnected))

def classifySendFailure (err : SendError) : ErrorClass :=
  if err.is .quoteTargetUnavailable || err.is .bridgeNotConnected then .rejected
  else if err.is .bridgeTimeout then .ambiguous
  else if err.is .bridgeUnreachable || err.is .noBridge then .rejected
  else .ambiguous

/-- Whether the text can have reached WhatsApp: not through a connection that never opened, nor where
the bridge answered that its session is down. -/
def CallEnd.mayHaveApplied : CallEnd → Bool
  | .refused => false
  | .answered status _ => status != 503
  | _ => true

theorem answered_not_rejected {status : Nat} {body : AnswerBody} {err : SendError}
    (failed : sendText (.answered status body) = .error err) (up : status ≠ 503) :
    classifySendFailure err = .ambiguous := by
  have refusal : ∃ code, err = .bridgeRefusal code := by
    unfold sendText at failed
    cases body with
    | messageId id =>
      simp only [reduceCtorEq, if_false, if_neg up] at failed
      split at failed
      · exact ⟨_, (Except.error.inj failed).symm⟩
      · split at failed
        · exact ⟨_, (Except.error.inj failed).symm⟩
        · cases failed
    | _ =>
      simp only [reduceCtorEq, if_neg up, ite_self] at failed
      exact ⟨_, (Except.error.inj failed).symm⟩
  obtain ⟨code, rfl⟩ := refusal
  rfl

/-- The calls that end in a retryable failure although the bridge may have the text: `transportFailure`
tells a deadline from the rest, not a connection it opened from one it could not. -/
theorem rejected_iff (ending : CallEnd) :
    (∃ err, sendText ending = .error err ∧ classifySendFailure err = .rejected ∧ ending.mayHaveApplied = true) ↔
      ending = .broken ∨ ending = .cancelled := by
  constructor
  · rintro ⟨err, failed, rejected, may⟩
    cases ending with
    | deadline =>
      obtain rfl := Except.error.inj failed
      cases rejected
    | refused => cases may
    | broken => exact Or.inl rfl
    | cancelled => exact Or.inr rfl
    | answered status body =>
      have up : status ≠ 503 := by simpa [CallEnd.mayHaveApplied] using may
      rw [answered_not_rejected failed up] at rejected
      cases rejected
  · rintro (rfl | rfl)
    · exact ⟨.bridgeUnreachable, rfl, rfl, rfl⟩
    · exact ⟨.bridgeUnreachable, rfl, rfl, rfl⟩

end GroupButler.Sends
