import DearAgent.Auth.Gates
import DearAgent.Lib.Json

/-!
# The webhook front end

`inbound.py` turns one HTTP request into a message. Its payload is the sender's, so that
every field of the message is a JSON value until the code has looked at it, and a text may
hold lone surrogates.
-/

namespace DearAgent.Inbound

open DearAgent.Lib.Text DearAgent.Lib.CodePoints DearAgent.Lib.Values DearAgent.Lib.Json
open DearAgent.Queue (Instant)

set_option autoImplicit false

section Messages

structure Attachment where
  name : PyStr
  contentType : PyStr
  size : Int

/-- A message as it is parsed: three of its fields are not looked at. -/
structure RawMessage where
  transportId : PyStr
  threadId : Value
  sender : Value
  subject : Value
  body : PyStr
  attachments : List Attachment
  headers : List (PyStr × PyStr)

def inboundError (text : Str) : Raised :=
  { classes := ["InboundError".toList, "ValueError".toList, "Exception".toList]
    text := ofText text }

/-- `if found is not ...: raise InboundError(text)`. -/
def require {α : Type} (found : Option α) (text : Str) : Except Raised α :=
  found.elim (.error (inboundError text)) .ok

/-- `payload or b"{}"`. -/
def orEmpty (payload : List UInt8) : List UInt8 := if payload.isEmpty then [0x7B, 0x7D] else payload

/-- `value or 0`. -/
def orZero (value : Value) : Value := if value.truthy then value else .int 0

/-- `data.get("id")`, where it is a text that is not empty. -/
def idOf (data : List (PyStr × Value)) : Option PyStr :=
  (getOr .null "id" data).str?.filter fun id => !id.isEmpty

def bodyOf (data : List (PyStr × Value)) : Option PyStr := (getOr (.str []) "body" data).str?

def headersOf (data : List (PyStr × Value)) : Option (List (PyStr × Value)) :=
  (getOr (.dict []) "headers" data).entries?

variable [Unicode] [Interpreter]

def attachmentOf (item : List (PyStr × Value)) : Except Raised Attachment := do
  let name ← (getOr (.str []) "name" item).text
  let contentType ← (getOr (.str []) "content_type" item).text
  let size ← (orZero (getOr (.int 0) "size" item)).toInt
  return ⟨name, contentType, size⟩

def attachmentsOf (value : Value) : Except Raised (List Attachment) := do
  let items ← value.iterate
  (items.filterMap Value.entries?).mapM attachmentOf

def headerText (entry : PyStr × Value) : Except Raised (PyStr × PyStr) := do
  let text ← entry.2.text
  return (entry.1, text)

def load (payload : List UInt8) : Except Raised Value :=
  match loads (orEmpty payload) with
  | .ok data => .ok data
  | .error error =>
      .error (if error.isA "JSONDecodeError" then inboundError "body is not valid JSON" else error)

/-- The fields of an object whose id, body and headers are what they have to be. -/
def messageOf (transportId body : PyStr) (headers data : List (PyStr × Value)) :
    Except Raised RawMessage := do
  let attachments ← attachmentsOf (getOr (.list []) "attachments" data)
  let headers ← headers.mapM headerText
  return {
    transportId
    threadId := getOr .null "thread_id" data
    sender := getOr .null "sender" data
    subject := getOr .null "subject" data
    body
    attachments
    headers }

def parseMessage (payload : List UInt8) : Except Raised RawMessage := do
  let data ← load payload
  let data ← require data.entries? "body must be a JSON object"
  let transportId ← require (idOf data) "'id' is required and must be a non-empty string"
  let body ← require (bodyOf data) "'body' must be a string"
  let headers ← require (headersOf data) "'headers' must be an object"
  messageOf transportId body headers data

end Messages

section Gate

/-- `hash(value)`, which a set and a dictionary ask for first. -/
def hashed : Value → Except Raised Unit
  | .list _ | .dict _ => .error typeError
  | _ => .ok ()

/-- `sender in allowlist`. -/
def isIn (allowlist : List Str) (sender : Value) : Except Raised Bool := do
  hashed sender
  return sender.str?.any fun s => allowlist.any fun allowed => ofText allowed = s

/-- `not self.allowlist or sender in self.allowlist`. -/
def allows (authorizer : InboundAuthorizer) (sender : Value) : Except Raised Bool :=
  if authorizer.allowlist.isEmpty then .ok true else isIn authorizer.allowlist sender

def authError (className : Str) (text : PyStr) : Raised :=
  { classes := [className, "AuthError".toList, "Exception".toList], text }

def isAscii (s : PyStr) : Bool := s.all fun c => decide (c.val < 128)

/-- `hmac.compare_digest`, which only takes ASCII texts. -/
def compareDigest (first second : PyStr) : Except Raised Bool :=
  if isAscii first && isAscii second then .ok (first = second) else .error typeError

/-- `signature_header`, which a request may lack. -/
def signatureOf (headers : List (PyStr × PyStr)) : PyStr :=
  (headers.lookup (ofText signatureHeader)).getD []

/-- `sender or "<unknown>"`. -/
def keyOf (sender : Value) : Value := if sender.truthy then sender else .str "<unknown>"

/-- Whether two keys of a dictionary are one: equal texts or equal numbers. -/
def sameKey : Value → Value → Bool
  | .str s, .str t => s = t
  | first, second =>
      match first.number?.bind Number.place, second.number?.bind Number.place with
      | some place, some place' => place = place'
      | _, _ => false

abbrev Seen := List (Value × List Instant)

def Seen.set (key : Value) (moments : List Instant) : Seen → Seen
  | [] => [(key, moments)]
  | entry :: rest =>
      if sameKey entry.1 key then (entry.1, moments) :: rest else entry :: Seen.set key moments rest

/-- The digest is written in ASCII, in hexadecimal digits. -/
class HmacHex extends HmacSha256 where
  hex : ∀ secret message, ∀ c ∈ hexdigest secret message, c.toNat < 128

variable [Unicode] [Interpreter] [HmacSha256]

def signedText (body : PyStr) : Value → Except Raised PyStr
  | .null => .ok body
  | sender => do
      let sender ← sender.text
      return sender ++ ofChar '\n' :: body

def sign (body : PyStr) (secret : Str) (sender : Value) : Except Raised PyStr := do
  let message ← signedText body sender
  match toText? message with
  | none => .error unicodeEncodeError
  | some message => .ok (ofText ("sha256=".toList ++ HmacSha256.hexdigest secret message))

def authorize (authorizer : InboundAuthorizer) (body : PyStr) (headers : List (PyStr × PyStr))
    (sender : Value) : Except Raised Unit := do
  let allowed ← allows authorizer sender
  if !allowed then
    .error (authError "UnauthorizedSenderError" (sender.text.toOption.getD []))
  else if (signatureOf headers).isEmpty then
    .error (authError "MissingSignatureError" "missing signature header")
  else
    let expected ← sign body authorizer.secret sender
    let same ← compareDigest (signatureOf headers) expected
    if same then .ok () else .error (authError "BadSignatureError" "signature mismatch")

/-- `RateLimiter.check`, with the reading of its clock. -/
def check (limiter : RateLimiter) (sender : Value) (now : Instant) (seen : Seen) :
    Except Raised Unit × Seen :=
  let key := keyOf sender
  match hashed key with
  | .error error => (.error error, seen)
  | .ok _ =>
      let moments := ((seen.find? fun entry => sameKey entry.1 key).map Prod.snd).getD []
      let recent := moments.filter fun moment => now - limiter.window < moment
      if limiter.limit ≤ recent.length then
        (.error (authError "RateLimitedError" (key.text.toOption.getD [] ++
          ofText (" exceeded ".toList ++ (toString limiter.limit).toList ++
            " messages per ".toList ++ durationText limiter.window))), seen.set key recent)
      else (.ok (), seen.set key (recent ++ [now]))

/-- `InboundGate.admit`. -/
def admitted (gate : InboundGate) (body : PyStr) (headers : List (PyStr × PyStr)) (sender : Value)
    (now : Instant) (seen : Seen) : Except Raised Unit × Seen :=
  match authorize gate.authorizer body headers sender with
  | .error error => (.error error, seen)
  | .ok _ => check gate.rateLimiter sender now seen

inductive Answer
  | badRequest (error : PyStr)
  | unauthorized (error : PyStr)
  | ingest (message : RawMessage)

/-- `InboundWebhook.__call__` up to `ingest`. -/
def InboundWebhook.call (gate : Option InboundGate) (payload : List UInt8)
    (headers : List (PyStr × PyStr)) (now : Instant) (seen : Seen) : Except Raised Answer × Seen :=
  match parseMessage payload with
  | .error error =>
      if error.isA "InboundError" then (.ok (.badRequest error.text), seen) else (.error error, seen)
  | .ok message =>
      match gate with
      | none => (.ok (.ingest message), seen)
      | some gate =>
          match admitted gate (decodeReplacing payload) headers message.sender now seen with
          | (.ok _, seen) => (.ok (.ingest message), seen)
          | (.error error, seen) =>
              if error.isA "AuthError" then (.ok (.unauthorized error.text), seen)
              else (.error error, seen)

end Gate

/-!
## Texts without surrogates
-/

section Texts

variable (authorizer : InboundAuthorizer) (secret body : Str) (headers : Headers)
  (sender : Option Str)

theorem is_ascii_text (s : Str) : isAscii (ofText s) = s.all fun c => decide (c.toNat < 128) := by
  unfold isAscii ofText
  rw [List.all_map]
  rfl

def senderOf : Option Str → Value
  | none => .null
  | some sender => .str (ofText sender)

def textHeaders (headers : Headers) : List (PyStr × PyStr) :=
  headers.map fun header => (ofText header.1, ofText header.2)

theorem lookup_text (name : Str) :
    (textHeaders headers).lookup (ofText name) = (headers.lookup name).map ofText := by
  unfold textHeaders
  induction headers with
  | nil => rfl
  | cons header rest ih =>
      rw [List.map_cons, List.lookup_cons, List.lookup_cons, ih]
      by_cases same : name = header.1
      · rw [same, beq_self_eq_true, beq_self_eq_true]
        rfl
      · rw [beq_false_of_ne same, beq_false_of_ne fun texts => same (of_text_injective texts)]

theorem signature_of_text :
    signatureOf (textHeaders headers) = ofText ((headers.lookup signatureHeader).getD []) := by
  unfold signatureOf
  rw [lookup_text]
  cases headers.lookup signatureHeader <;> rfl

theorem allows_text :
    allows authorizer (senderOf sender) =
      .ok (authorizer.allowlist.isEmpty || sender.any authorizer.allowlist.contains) := by
  unfold allows
  cases authorizer.allowlist.isEmpty with
  | true => rfl
  | false =>
      cases sender with
      | none => rfl
      | some sender =>
          have same : (authorizer.allowlist.any fun allowed => decide (ofText allowed = ofText sender)) =
              authorizer.allowlist.contains sender := by
            simp only [of_text_injective.eq_iff, List.contains_eq_any_beq]
            apply List.any_congr rfl
            intro allowed
            rw [Bool.beq_comm, beq_eq_decide]
          exact congrArg Except.ok same

theorem compare_digest_text (first second : Str) :
    (compareDigest (ofText first) (ofText second)).mapError (fun error => error.classes.headD []) =
      (DearAgent.compareDigest first second).mapError Exn.className := by
  unfold compareDigest DearAgent.compareDigest
  rw [is_ascii_text, is_ascii_text]
  split_ifs
  · simp only [of_text_injective.eq_iff]
    rfl
  · rfl

variable [Unicode] [Interpreter] [HmacSha256]

theorem sign_of_signed {message : PyStr} {text : Str} {body : PyStr} {sender : Value}
    (signed : signedText body sender = .ok message) (encoded : toText? message = some text) :
    sign body secret sender =
      .ok (ofText ("sha256=".toList ++ HmacSha256.hexdigest secret text)) := by
  unfold sign
  rw [signed, ok_bind, encoded]

theorem sign_text :
    sign (ofText body) secret (senderOf sender) = .ok (ofText (DearAgent.sign body secret sender)) := by
  cases sender with
  | none => exact sign_of_signed secret rfl (to_text_of_text body)
  | some sender =>
      have message : ofText sender ++ ofChar '\n' :: ofText body = ofText (sender ++ '\n' :: body) := by
        unfold ofText
        rw [List.map_append, List.map_cons]
      have signed : signedText (ofText body) (.str (ofText sender)) =
          .ok (ofText (sender ++ '\n' :: body)) := congrArg Except.ok message
      exact sign_of_signed secret signed (to_text_of_text _)

/-- On texts without surrogates the gate does what it does where a text is one of characters. -/
theorem authorize_text :
    (authorize authorizer (ofText body) (textHeaders headers) (senderOf sender)).mapError
        (fun error => error.classes.headD []) =
      (authorizer.authorize body headers sender).mapError Exn.className := by
  have digests := compare_digest_text ((headers.lookup signatureHeader).getD [])
    (DearAgent.sign body authorizer.secret sender)
  unfold authorize InboundAuthorizer.authorize
  rw [allows_text, ok_bind, signature_of_text, sign_text, ok_bind]
  simp only [Bool.not_or]
  have empty : (ofText ((headers.lookup signatureHeader).getD [])).isEmpty =
      ((headers.lookup signatureHeader).getD []).isEmpty := by
    unfold ofText
    rw [List.isEmpty_map]
  rw [empty]
  split_ifs
  · rfl
  · rfl
  · revert digests
    generalize compareDigest (ofText ((headers.lookup signatureHeader).getD []))
      (ofText (DearAgent.sign body authorizer.secret sender)) = wide
    generalize DearAgent.compareDigest ((headers.lookup signatureHeader).getD [])
      (DearAgent.sign body authorizer.secret sender) = narrow
    intro digests
    cases wide with
    | error raised =>
        cases narrow with
        | error other => exact congrArg Except.error (Except.error.inj digests)
        | ok _ => cases digests
    | ok same =>
        cases narrow with
        | error other => cases digests
        | ok same' =>
            cases digests
            cases same with
            | true => rfl
            | false => rfl

end Texts

end DearAgent.Inbound
