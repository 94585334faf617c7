import DearAgent.Auth

/-!
# From mail to messages

How the adapters of `transports/` and the JMAP client make a message of what a
server delivers. Over IMAP the thread of a message is read from its header; the
other two services tell it for every message.
-/

namespace DearAgent

open DearAgent.Lib.Text DearAgent.Queue

set_option autoImplicit false

class MailLibrary where
  parseaddr : Str → Str × Str
  hexdigest : List UInt8 → Str

/-- `value or None` of a text. -/
def nonempty (text : Str) : Option Str := if text.isEmpty then none else some text

/-!
## IMAP
-/

/-- What `get_content` comes to; where it fails, the payload with its bad bytes replaced. -/
inductive Content
  | text (content : Str)
  | other
  | failed (replaced : Option Str)

def Content.partText : Content → Option Str
  | .text content => some content
  | .other => none
  | .failed replaced => replaced

structure MailPart where
  contentType : Str
  filename : Option Str := none
  disposition : Option Str := none
  size : Nat := 0
  content : Content

/-- What the `email` package parses: the header fields, the parts that `walk`
comes to, and the content of the message itself. -/
structure Mail where
  fields : List (Str × Str)
  parts : List MailPart
  content : Content
  raw : List UInt8 := []

namespace Mail

variable [Unicode]

def get (mail : Mail) (name : Str) : Option Str :=
  (mail.fields.find? fun field => Unicode.lower field.1 = Unicode.lower name).map Prod.snd

def isAttachment (part : MailPart) : Bool :=
  Unicode.lower (part.disposition.getD []) = "attachment".toList || truthy part.filename

def attachmentOf (part : MailPart) : Attachment where
  name := orElse part.filename "attachment"
  contentType := part.contentType
  size := part.size

def extractBody (mail : Mail) : Str × List Attachment :=
  let attachments := (mail.parts.filter isAttachment).map attachmentOf
  let plain := mail.parts.filter fun part =>
    !isAttachment part && part.contentType = "text/plain".toList
  let text := plain.findSome? fun part => part.content.partText
  ((text.or mail.content.partText).getD [], attachments)

def fallbackId [MailLibrary] (mail : Mail) : Str :=
  "<imap-".toList ++ (MailLibrary.hexdigest mail.raw).take 32 ++ "@dear-agent>".toList

/-- `thread_id` of `_parse_message`. -/
def threadId (mail : Mail) : Option Str :=
  let inReplyTo := strip ((mail.get "In-Reply-To").getD [])
  let references := strip ((mail.get "References").getD [])
  if !inReplyTo.isEmpty then some inReplyTo
  else if !references.isEmpty then (words references).getLast?
  else none

def parseMessage [MailLibrary] (mail : Mail) : RawMessage where
  transportId := orElse (some (strip ((mail.get "Message-ID").getD []))) mail.fallbackId
  threadId := mail.threadId
  sender := nonempty (MailLibrary.parseaddr ((mail.get "From").getD [])).2
  subject := mail.get "Subject"
  body := mail.extractBody.1
  attachments := mail.extractBody.2
  headers := collectHeaders mail.fields

end Mail

/-- What `make_msgid` returns: no blanks around it, and not empty. -/
abbrev MessageId := { id : Str // strip id = id ∧ id ≠ [] }

/-- `ImapSmtpTransport.send` up to the mail it hands to SMTP, which gets this
`Message-ID`. -/
def smtpSend (sender : Str) (messageId : MessageId) (message : OutboundMessage) :
    Except Exn Mail :=
  match message.headers.lookup "to".toList with
  | none => .error (.valueError "outbound message needs a 'to' header")
  | some recipient =>
      if recipient.isEmpty then .error (.valueError "outbound message needs a 'to' header")
      else
        let inReplyTo := (message.headers.lookup "in-reply-to".toList).getD []
        .ok {
          fields := [("From".toList, sender), ("To".toList, recipient),
              ("Subject".toList, message.subject), ("Message-ID".toList, messageId.1)] ++
            if inReplyTo.isEmpty then []
            else [("In-Reply-To".toList, inReplyTo), ("References".toList, inReplyTo)]
          parts := [{ contentType := "text/plain", content := .text message.body }]
          content := .text message.body }

/-!
## JMAP
-/

/-- The properties of a JMAP `Email` that `_to_record` reads. -/
structure JmapItem where
  id : Str
  messageId : List Str := []
  threadId : Option Str
  senders : List (Option Str) := []
  subject : Option Str := none
  textBody : List Str
  bodyValues : List (Str × Str)
  hasAttachment : Bool := false
  headers : List (Option Str × Option Str) := []

structure EmailRecord where
  id : Str
  messageId : Str
  threadId : Option Str
  sender : Option Str
  subject : Option Str
  body : Str
  hasAttachment : Bool
  headers : Headers

namespace JmapItem

def extractTextBody (item : JmapItem) : Str :=
  join "\n" ((item.textBody.filterMap fun part => item.bodyValues.lookup part).filter fun value =>
    !value.isEmpty)

/-- The fields `_to_headers` collects. -/
def fields (item : JmapItem) : List (Str × Str) :=
  item.headers.filterMap fun header => match header with
    | (some name, some value) => if name.isEmpty then none else some (name, value)
    | _ => none

def toRecord [Unicode] (item : JmapItem) : EmailRecord where
  id := item.id
  messageId := item.messageId.headD []
  threadId := item.threadId
  sender := item.senders.head?.join
  subject := item.subject
  body := item.extractTextBody
  hasAttachment := item.hasAttachment
  headers := collectHeaders item.fields

end JmapItem

def EmailRecord.toRaw (record : EmailRecord) : RawMessage where
  transportId := orElse (some record.messageId) record.id
  threadId := record.threadId
  sender := record.sender
  subject := record.subject
  body := record.body
  attachments := if record.hasAttachment then
    [{ name := "attachment", contentType := "application/octet-stream" }] else []
  headers := record.headers

/-!
## AgentMail
-/

/-- A sender is given as one address or as a list of them. -/
inductive AddressField
  | one (address : Str)
  | many (addresses : List Str)

structure AgentAttachment where
  filename : Option Str := none
  contentType : Option Str := none
  size : Option Nat := none

/-- What `AgentMailTransport._to_raw` reads of a message of the API. -/
structure AgentMessage where
  messageId : Option Str
  id : Option Str := none
  threadId : Option Str
  sender_ : Option AddressField := none
  sender : Option AddressField := none
  subject : Option Str := none
  text : Option Str
  extractedText : Option Str := none
  attachments : List AgentAttachment := []
  headers : Headers := []

def AddressField.truthy : AddressField → Bool
  | .one address => !address.isEmpty
  | .many addresses => !addresses.isEmpty

def firstAddress [MailLibrary] (field : Option AddressField) : Option Str :=
  let value := match field with
    | some (.one address) => some address
    | some (.many addresses) => addresses.head?
    | none => none
  match value with
  | some value =>
      if value.isEmpty then none
      else some (orElse (some (MailLibrary.parseaddr value).2) value)
  | none => none

namespace AgentMessage

def attachmentOf (attachment : AgentAttachment) : Attachment where
  name := orElse attachment.filename "attachment"
  contentType := orElse attachment.contentType "application/octet-stream"
  size := attachment.size.getD 0

def toRaw [MailLibrary] (message : AgentMessage) : RawMessage where
  transportId := orElse message.messageId (message.id.getD "None")
  threadId := message.threadId
  sender := firstAddress (if message.sender_.any AddressField.truthy then message.sender_
    else message.sender)
  subject := message.subject
  body := orElse message.text (orElse message.extractedText [])
  attachments := message.attachments.map attachmentOf
  headers := message.headers

end AgentMessage

end DearAgent
