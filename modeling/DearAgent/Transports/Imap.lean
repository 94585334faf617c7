import DearAgent.Transports.Courier
import Mathlib.Data.List.Sort
import Mathlib.Logic.Relation

/-!
# Mail over IMAP

`transports/imap.py` and `imap/client.py`: a pass lists the unread messages,
fetches and parses them, hands them to the control plane and files them away.
Beside the code runs an account with the flags of its messages, so that what a
stop at any point leaves behind can be told.
-/

namespace DearAgent.Imap

open DearAgent.Lib.Text DearAgent.Lib.Effects DearAgent.Lib.Dictionaries DearAgent.Queue

set_option autoImplicit false

abbrev Uid := Nat

abbrev Bytes := List UInt8

structure Stamp where
  aware : Bool := true
  time : Instant
deriving DecidableEq

/-- What `FETCH` answers: the status, and the first part with a body. -/
structure Fetched where
  ok : Bool
  body : Option Bytes
deriving DecidableEq

/-- What is asked of `imaplib`, and the parsing of a message. -/
inductive Command
  | openConnection | login | closeMailbox | logout
  | select (mailbox : Str)
  | create (mailbox : Str)
  | searchUnseen
  | fetch (uid : Uid)
  | copy (uid : Uid) (target : Str)
  | storeDeleted (uid : Uid)
  | expunge
  | parseMessage (raw : Bytes)

@[reducible] def Command.Result : Command → Type
  | .select _ | .copy _ _ => Bool
  | .searchUnseen => Bool × List Uid
  | .fetch _ => Fetched
  | .parseMessage _ => RawMessage × Stamp
  | _ => Unit

/-- The fields of the client and of the transport. -/
inductive Field
  | conn
  | setConn (value : Bool)
  | connected
  | setConnected (value : Bool)
  | hasPending
  | setPending (transportId : Str) (uid : Uid)
  | popPending (transportId : Str)

@[reducible] def Field.Value : Field → Type
  | .conn | .connected | .hasPending => Bool
  | .popPending _ => Option Uid
  | _ => Unit

/-- Everything a pass asks. `processed` is no request of the code: it marks the
end of a round of the loop of `ingest`. -/
inductive Request
  | command (command : Command)
  | field (field : Field)
  | port (request : DearAgent.Request)
  | processed (uid : Uid)

@[reducible] def Request.Reply : Request → Type
  | .command asked => Except Exn asked.Result
  | .field used => used.Value
  | .port request => Except Exn request.Result
  | .processed _ => Unit

@[reducible] def signature : Signature where
  Request := Request
  Reply := Request.Reply
  Raised := Exn

abbrev Code (α : Type) := Program signature α

def call (command : Command) : Code command.Result :=
  .ask (.command command) (@unwrap signature _)

def use (field : Field) : Code field.Value := .ask (.field field) .ret

def mark (uid : Uid) : Code Unit := .ask (.processed uid) .ret

def imapError (text : Str) : Exn := .otherException "ImapError" text

/-- `repr` of a UID. -/
def uidRepr (uid : Uid) : Str := "b'".toList ++ (toString uid).toList ++ "'".toList

/-!
## The client
-/

namespace Client

/-- The exceptions `close` suppresses: those of `imaplib` and the family of `OSError`. -/
def suppressed : Exn → Bool
  | .otherException className _ =>
      (["error", "abort", "readonly", "OSError", "BlockingIOError", "BrokenPipeError",
        "ConnectionError", "ConnectionAbortedError", "ConnectionRefusedError",
        "ConnectionResetError", "InterruptedError", "TimeoutError", "gaierror", "herror",
        "SSLError", "SSLEOFError", "SSLZeroReturnError", "SSLSyscallError", "SSLWantReadError",
        "SSLWantWriteError", "SSLCertVerificationError"].map String.toList).contains className
  | _ => false

def require : Code Unit := do
  if ← use .conn then .ret ()
  else .raise (imapError "client is not connected; call connect() first")

def connect : Code Unit := do
  call .openConnection
  use (.setConn true)
  call .login

def select [Unicode] (mailbox : Str) : Code Unit := do
  require
  let selected ← call (.select mailbox)
  if selected then .ret ()
  else do
    call (.create mailbox)
    let selected ← call (.select mailbox)
    if selected then .ret ()
    else .raise (imapError ("cannot select mailbox ".toList ++ reprText mailbox))

def unreadUids : Code (List Uid) := do
  require
  let (ok, uids) ← call .searchUnseen
  if ok then .ret uids else .raise (imapError "SEARCH UNSEEN failed")

def fetchRaw (uid : Uid) : Code Bytes := do
  require
  let fetched ← call (.fetch uid)
  if !fetched.ok then .raise (imapError ("FETCH ".toList ++ uidRepr uid ++ " failed".toList))
  else match fetched.body with
    | some raw => .ret raw
    | none => .raise (imapError ("FETCH ".toList ++ uidRepr uid ++ " returned no body".toList))

/-- The end of `move`: the message is deleted where it was copied. -/
def discard (uid : Uid) : Code Unit := do
  call (.storeDeleted uid)
  call .expunge

def move [Unicode] (uid : Uid) (target : Str) : Code Unit := do
  require
  let copied ← call (.copy uid target)
  if copied then discard uid
  else do
    call (.create target)
    let copied ← call (.copy uid target)
    if copied then discard uid
    else .raise (imapError ("COPY ".toList ++ uidRepr uid ++ " -> ".toList ++ reprText target ++
      " failed".toList))

/-- `contextlib.suppress` around one command. -/
def suppressing (command : Code Unit) : Code Unit :=
  exceptWhere suppressed command fun _ => .ret ()

def close : Code Unit := do
  if ← use .conn then do
    suppressing (call .closeMailbox)
    suppressing (call .logout)
    use (.setConn false)
  else .ret ()

end Client

/-!
## The transport
-/

/-- A parsed message, beside the UID it was fetched by. -/
structure Polled where
  message : RawMessage
  receivedAt : Stamp
  uid : Uid
deriving DecidableEq

/-- `messages.sort(key=...)`, which cannot compare a time with a zone to one without. -/
def sortReceived (messages : List Polled) : Except Exn (List Polled) :=
  if messages.all (fun polled => polled.receivedAt.aware) ||
      messages.all (fun polled => !polled.receivedAt.aware) then
    .ok (messages.insertionSort fun first second =>
      first.receivedAt.time ≤ second.receivedAt.time)
  else .error (.otherException "TypeError" "can't compare offset-naive and offset-aware datetimes")

/-- `uids[:limit]`. -/
def sliceTo (limit : Int) (uids : List Uid) : List Uid :=
  uids.take (if 0 ≤ limit then limit else uids.length + limit).toNat

structure ImapSmtpTransport where
  mailbox : Str := "INBOX"
  doneMailbox : Str := "Dear-Agent-Done"

namespace ImapSmtpTransport

def connect : Code Unit := do
  if ← use .connected then .ret ()
  else do
    Client.connect
    use (.setConnected true)

def disconnect : Code Unit := do
  if ← use .connected then do
    Client.close
    use (.setConnected false)
  else .ret ()

/-- The loop of `poll`. -/
def fetchAll : List Uid → List Polled → Code (List Polled)
  | [], messages => .ret messages
  | uid :: rest, messages => do
      let raw ← Client.fetchRaw uid
      let (message, receivedAt) ← call (.parseMessage raw)
      use (.setPending message.transportId uid)
      fetchAll rest (messages ++ [⟨message, receivedAt, uid⟩])

variable [Unicode]

/-- The body of the `try` statement of `poll`. -/
def pollSelected (transport : ImapSmtpTransport) (limit : Int) : Code (List Polled) := do
  Client.select transport.mailbox
  let uids ← Client.unreadUids
  let messages ← fetchAll (sliceTo limit uids) []
  let messages ← @unwrap signature _ (sortReceived messages)
  if messages.isEmpty then disconnect
  .ret messages

def poll (transport : ImapSmtpTransport) (limit : Int) : Code (List Polled) := do
  connect
  exceptWhere Exn.isException (transport.pollSelected limit) fun error => do
    disconnect
    .raise error

/-- The loop of `ack`. -/
def fileAll (transport : ImapSmtpTransport) : List RawMessage → Code Unit
  | [] => .ret ()
  | message :: rest => do
      match ← use (.popPending message.transportId) with
      | none => transport.fileAll rest
      | some uid => do
          exceptWhere Exn.isException (Client.move uid transport.doneMailbox) fun _ => .ret ()
          transport.fileAll rest

def ack (transport : ImapSmtpTransport) (messages : List RawMessage) : Code Unit := do
  if messages.isEmpty then disconnect
  else do
    if ← use .hasPending then
      andFinally (do
        Client.select transport.mailbox
        transport.fileAll messages) disconnect
    else disconnect

/-!
## A pass
-/

def courier (transport : ImapSmtpTransport) : Courier signature Polled where
  raised := id
  port request := .ask (.port request) .ret
  poll := transport.poll
  message := Polled.message
  mark polled := mark polled.uid
  ack messages := settle (transport.ack messages)

/-- `_handle_poll`: one poll and the ingest of what it returned. -/
def handlePoll (transport : ImapSmtpTransport) (plane : ControlPlane) (limit : Int)
    (recipient : Option Str) : Code IngestReport :=
  transport.courier.handlePoll plane recipient limit

/-- `_handle_poll` with the marks. -/
def pass (transport : ImapSmtpTransport) (plane : ControlPlane) (limit : Int)
    (recipient : Option Str) : Code IngestReport :=
  transport.courier.pass plane recipient limit

def silent : (request : signature.Request) → Option (signature.Reply request)
  | .processed _ => some ()
  | _ => none

theorem unmarked_pass (transport : ImapSmtpTransport) (plane : ControlPlane)
    (limit : Int) (recipient : Option Str) :
    erase silent (transport.pass plane limit recipient) =
      erase silent (transport.handlePoll plane limit recipient) :=
  transport.courier.erased_pass plane recipient (fun _ => rfl) limit

end ImapSmtpTransport

end DearAgent.Imap
