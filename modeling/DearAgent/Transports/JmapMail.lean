import DearAgent.Transports.Adapters
import DearAgent.Transports.Courier
import Mathlib.Data.List.Induction
import Mathlib.Data.List.Sort
import Mathlib.Data.Prod.Lex

/-!
# Mail over JMAP

`transports/jmap.py` over `jmap/client.py`: a poll lists the task mailbox and fetches what it
listed, and an acknowledgement files the messages of the last poll one by one, each under the
state it was read in. The account runs beside the code: mail comes in, other clients change the
state, and a call may fail after it was carried out.
-/

namespace DearAgent.JmapMail

open DearAgent.Lib.Text DearAgent.Lib.Effects DearAgent.Lib.Dictionaries DearAgent.Queue

set_option autoImplicit false

abbrev EmailId := Str

/-- A record, beside the time it was received at. -/
structure Received where
  record : EmailRecord
  receivedAt : Instant

def Received.id (received : Received) : EmailId := received.record.id

/-- The calls of the client. A state is what `Email/get` returns with the records. -/
inductive Command
  | getOrCreateMailbox (name : Str)
  | queryIds (mailbox : Str) (limit : Int)
  | get (ids : List EmailId)
  | update (email : EmailId) (target source : Str) (ifInState : Nat)

@[reducible] def Command.Result : Command → Type
  | .getOrCreateMailbox _ => Str
  | .queryIds _ _ => List EmailId
  | .get _ => Nat × List Received
  | .update _ _ _ _ => Nat

inductive Field
  | setPending (pending : Dict Str EmailId)
  | hasPending
  | popPending (transportId : Str)

@[reducible] def Field.Value : Field → Type
  | .setPending _ => Unit
  | .hasPending => Bool
  | .popPending _ => Option EmailId

/-- Everything a pass asks. `processed` is no request of the code: it marks the end of a round
of the loop of `ingest`. -/
inductive Request
  | command (command : Command)
  | field (field : Field)
  | port (request : DearAgent.Request)
  | processed (email : EmailId)

@[reducible] def Request.Reply : Request → Type
  | .command asked => Except Exn asked.Result
  | .field used => used.Value
  | .port request => Except Exn request.Result
  | .processed _ => Unit

@[reducible] def signature : Signature where
  Request := Request
  Reply := Request.Reply
  Raised := Exn

abbrev Code (α : Type) := Program signature α

def call (command : Command) : Code command.Result :=
  .ask (.command command) (@unwrap signature _)

def use (field : Field) : Code field.Value := .ask (.field field) .ret

def mark (email : EmailId) : Code Unit := .ask (.processed email) .ret

/-!
## The transport
-/

structure JmapTransport where
  mailboxName : Str := "Dear Agent"
  processedMailboxName : Str := "Dear-Agent-Done"

/-- The sort key `(record.received_at, record.id)`. -/
def sortKey (received : Received) : Instant ×ₗ Str := toLex (received.receivedAt, received.id)

def sortReceived (records : List Received) : List Received :=
  records.insertionSort fun first second => sortKey first ≤ sortKey second

def Received.message (received : Received) : RawMessage := received.record.toRaw

/-- `{(record.message_id or record.id): record.id for record in records}`. -/
def pendingOf (records : List Received) : Dict Str EmailId :=
  Dict.ofEntries (records.map fun received => (received.message.transportId, received.id))

namespace JmapTransport

/-- The end of `poll`. -/
def remember (records : List Received) : Code (List Received) := do
  use (.setPending (pendingOf records))
  .ret records

def poll (transport : JmapTransport) (limit : Int) : Code (List Received) := do
  let mailbox ← call (.getOrCreateMailbox transport.mailboxName)
  let ids ← call (.queryIds mailbox limit)
  if ids.isEmpty then .ret []
  else do
    let answered ← call (.get ids)
    remember (sortReceived answered.2)

/-- The body of the `try` statement of `ack`. -/
def file (source target : Str) (email : EmailId) : Code Unit := do
  let answered ← call (.get [email])
  if answered.2.isEmpty then .ret ()
  else do
    let _ ← call (.update email target source answered.1)
    .ret ()

/-- The loop of `ack`. -/
def fileAll (source target : Str) : List RawMessage → Code Unit
  | [] => .ret ()
  | message :: rest => do
      match ← use (.popPending message.transportId) with
      | none => fileAll source target rest
      | some email => do
          exceptWhere Exn.isException (file source target email) fun _ => .ret ()
          fileAll source target rest

def ack (transport : JmapTransport) (messages : List RawMessage) : Code Unit := do
  let hasPending ← use .hasPending
  if messages.isEmpty || !hasPending then .ret ()
  else do
    let source ← call (.getOrCreateMailbox transport.mailboxName)
    let target ← call (.getOrCreateMailbox transport.processedMailboxName)
    fileAll source target messages

/-!
## A pass
-/

def courier (transport : JmapTransport) : Courier signature Received where
  raised := id
  port request := .ask (.port request) .ret
  poll := transport.poll
  message := Received.message
  mark received := mark received.id
  ack messages := settle (transport.ack messages)

variable [Unicode]

/-- `IngestOnChange.__call__` of a change of mail, and `_handle_poll`: one poll and the ingest of
what it returned. -/
def handlePoll (transport : JmapTransport) (plane : ControlPlane) (limit : Int)
    (recipient : Option Str) : Code IngestReport :=
  transport.courier.handlePoll plane recipient limit

/-- `handle_poll` with the marks. -/
def pass (transport : JmapTransport) (plane : ControlPlane) (limit : Int)
    (recipient : Option Str) : Code IngestReport :=
  transport.courier.pass plane recipient limit

omit [Unicode] in
def silent : (request : signature.Request) → Option (signature.Reply request)
  | .processed _ => some ()
  | _ => none

theorem unmarked_pass (transport : JmapTransport) (plane : ControlPlane) (limit : Int)
    (recipient : Option Str) :
    erase silent (transport.pass plane limit recipient) =
      erase silent (transport.handlePoll plane limit recipient) :=
  transport.courier.erased_pass plane recipient (fun _ => rfl) limit

end JmapTransport

/-!
## The account
-/

/-- The mail that came into the task mailbox, what was filed away from it, the state `Email/get`
returns, the pending ids of the process, and the messages whose round has ended. -/
structure Account where
  mails : List Received := []
  filed : List EmailId := []
  state : Nat := 0
  pending : Dict Str EmailId := Dict.empty
  handled : List EmailId := []

namespace Account

def ids (account : Account) : List EmailId := account.mails.map Received.id

/-- What `Email/query` lists. -/
def listed (account : Account) : List EmailId :=
  account.ids.filter fun id => !account.filed.contains id

def deliver (account : Account) (received : Received) : Account :=
  { account with mails := account.mails ++ [received], state := account.state + 1 }

def touch (account : Account) : Account := { account with state := account.state + 1 }

/-- The patch of `ack`: of two entries for one mailbox the `None` is kept. -/
def file (account : Account) (email : EmailId) : Account :=
  { account with filed := account.filed ++ [email], state := account.state + 1 }

def handle (account : Account) (email : EmailId) : Account :=
  { account with handled := account.handled ++ [email] }

/-- A pass is over; a process that died with it leaves no pending ids behind. -/
def stopped (account : Account) (died : Bool) : Account :=
  if died then { account with pending := Dict.empty } else account

end Account

/-- The task mailbox and the ids the server has for the names of mailboxes. -/
structure Site where
  transport : JmapTransport := {}
  mailboxes : Str → Str := id

def Site.source (site : Site) : Str := site.mailboxes site.transport.mailboxName

inductive Arrival : Account → Account → Prop
  | deliver {account : Account} (received : Received) (fresh : received.id ∉ account.ids) :
      Arrival account (account.deliver received)
  | touch (account : Account) : Arrival account account.touch

abbrev Arrives : Account → Account → Prop := Relation.ReflTransGen Arrival

/-- What an answer says and leaves behind. A call may fail after it was carried out. -/
def Answers (site : Site) : Env signature Account
  | .command (.getOrCreateMailbox name), account, reply, after =>
      after = account ∧ ∀ mailbox, reply = .ok mailbox → mailbox = site.mailboxes name
  | .command (.queryIds mailbox limit), account, reply, after =>
      after = account ∧ ∀ ids, reply = .ok ids → mailbox = site.source →
        (∀ id ∈ ids, id ∈ account.listed) ∧ (0 < limit → ids = [] → account.listed = [])
  | .command (.get ids), account, reply, after =>
      after = account ∧ ∀ state records, reply = .ok (state, records) →
        state = account.state ∧ records.Perm (account.mails.filter fun mail => ids.contains mail.id)
  | .command (.update email _ source ifInState), account, reply, after =>
      (after = account ∧ ∀ state, reply ≠ .ok state) ∨
        (ifInState = account.state ∧
          after = if source = site.source then account.file email else account.touch)
  | .field (.setPending pending), account, _, after => after = { account with pending := pending }
  | .field .hasPending, account, reply, after =>
      reply = !account.pending.entries.isEmpty ∧ after = account
  | .field (.popPending transportId), account, reply, after =>
      reply = account.pending.get transportId ∧
        after = { account with pending := account.pending.erase transportId }
  | .port _, account, _, after => after = account
  | .processed email, account, _, after => after = account.handle email

def server (site : Site) : Env signature Account :=
  fun request account reply after =>
    ∃ middle, Arrives account middle ∧ Answers site request middle reply after

/-- Only a message whose round has ended is filed. -/
def may : Account → Request → Prop
  | account, .command (.update email _ _ _) => email ∈ account.handled
  | _, _ => True

/-!
## What every answer keeps
-/

structure Kept (account : Account) : Prop where
  distinct : account.ids.Nodup
  handled : ∀ id ∈ account.filed, id ∈ account.handled

theorem arrives_keeps {account after : Account} (arrives : Arrives account after) :
    after.filed = account.filed ∧ after.pending = account.pending ∧
      after.handled = account.handled ∧ (account.ids.Nodup → after.ids.Nodup) := by
  induction arrives with
  | refl => exact ⟨rfl, rfl, rfl, id⟩
  | tail _ arrival ih =>
      have ⟨filed, pending, handled, distinct⟩ := ih
      cases arrival with
      | deliver received fresh =>
          refine ⟨filed, pending, handled, fun before => ?_⟩
          unfold Account.deliver Account.ids
          rw [List.map_append]
          exact List.nodup_append.mpr ⟨distinct before, List.nodup_singleton _, by
            intro id member other single same
            rw [List.mem_singleton.mp single] at same
            exact fresh (same ▸ member)⟩
      | touch => exact ⟨filed, pending, handled, distinct⟩

variable {site : Site}

theorem server_keeps {request : Request} {account after : Account} {reply : request.Reply}
    (kept : Kept account) (permitted : may account request)
    (answered : server site request account reply after) : Kept after := by
  have ⟨middle, arrives, answers⟩ := answered
  have ⟨filed, pending, handled, distinct⟩ := arrives_keeps arrives
  have still : Kept middle := by
    constructor
    · exact distinct kept.distinct
    · rw [filed, handled]
      exact kept.handled
  cases request with
  | command asked =>
      cases asked with
      | getOrCreateMailbox name => rwa [answers.1]
      | queryIds mailbox limit => rwa [answers.1]
      | get ids => rwa [answers.1]
      | update email target source ifInState =>
          cases answers with
          | inl failed => rwa [failed.1]
          | inr carried =>
              rw [carried.2]
              split_ifs
              · constructor
                · exact still.distinct
                · intro id member
                  cases List.mem_append.mp member with
                  | inl before => exact still.handled id before
                  | inr now =>
                      rw [List.mem_singleton.mp now]
                      exact handled ▸ permitted
              · exact ⟨still.distinct, still.handled⟩
  | field used =>
      cases used with
      | setPending pending =>
          rw [show after = _ from answers]
          exact ⟨still.distinct, still.handled⟩
      | hasPending => rwa [answers.2]
      | popPending transportId =>
          rw [answers.2]
          exact ⟨still.distinct, still.handled⟩
  | port request => rwa [show after = middle from answers]
  | processed email =>
      rw [show after = _ from answers]
      exact ⟨still.distinct, fun id member => List.mem_append_left _ (still.handled id member)⟩

/-!
## A pass
-/

section Passes

variable {α : Type} {account after : Account} {filed waiting : List EmailId}

/-- What is pending is handled, or waits for its round. -/
def PendingWithin (waiting : List EmailId) (account : Account) : Prop :=
  ∀ transportId email, account.pending.get transportId = some email →
    email ∈ account.handled ∨ email ∈ waiting

/-- Nothing new is pending, and only these messages are filed. -/
def Steady (filed : List EmailId) : Request → Prop
  | .command (.update email _ _ _) => email ∈ filed
  | .field (.setPending _) => False
  | _ => True

/-- What was pending or handled, as a steady request leaves it. -/
def Calm (account after : Account) : Prop :=
  (∀ transportId email, after.pending.get transportId = some email →
    account.pending.get transportId = some email) ∧
  ∀ email ∈ account.handled, email ∈ after.handled

theorem Calm.refl (account : Account) : Calm account account := ⟨fun _ _ found => found, fun _ => id⟩

theorem Calm.trans {middle : Account} (first : Calm account middle) (second : Calm middle after) :
    Calm account after :=
  ⟨fun transportId email found => first.1 _ _ (second.1 transportId email found),
    fun email member => second.2 _ (first.2 email member)⟩

theorem Calm.within (calm : Calm account after) (within : PendingWithin waiting account) :
    PendingWithin waiting after :=
  fun transportId email found => (within _ _ (calm.1 transportId email found)).imp_left (calm.2 email)

theorem server_calm {request : Request} {reply : request.Reply} (steady : Steady filed request)
    (answered : server site request account reply after) : Calm account after := by
  have ⟨middle, arrives, answers⟩ := answered
  have ⟨_, pending, handled, _⟩ := arrives_keeps arrives
  have came : Calm account middle := by
    constructor
    · exact fun transportId email found => pending ▸ found
    · exact fun email member => handled ▸ member
  apply came.trans
  cases request with
  | command asked =>
      cases asked with
      | getOrCreateMailbox name => exact answers.1 ▸ .refl middle
      | queryIds mailbox limit => exact answers.1 ▸ .refl middle
      | get ids => exact answers.1 ▸ .refl middle
      | update email target source ifInState =>
          cases answers with
          | inl failed => exact failed.1 ▸ .refl middle
          | inr carried =>
              rw [carried.2]
              split_ifs
              · exact .refl middle
              · exact .refl middle
  | field used =>
      cases used with
      | setPending pending => exact steady.elim
      | hasPending => exact answers.2 ▸ .refl middle
      | popPending transportId =>
          rw [answers.2]
          constructor
          · intro other email found
            change (middle.pending.erase transportId).get other = some email at found
            rw [Dict.get_erase] at found
            split_ifs at found
            exact found
          · exact fun _ => id
  | port request => exact (show after = middle from answers) ▸ .refl middle
  | processed email =>
      rw [show after = _ from answers]
      exact ⟨fun _ _ found => found, fun _ member => List.mem_append_left _ member⟩

theorem steady_meets {program : Code α} (asks : Asks (Steady filed) program)
    (handled : ∀ email ∈ filed, email ∈ account.handled) :
    Meets (server site) may program account fun after _ => Calm account after := by
  apply asks.meets (Calm account) _ _ (.refl account)
  · intro s request calm steady
    cases request with
    | command asked =>
        cases asked with
        | update email target source ifInState => exact calm.2 _ (handled email steady)
        | _ => trivial
    | _ => trivial
  · exact fun s request reply s' calm steady answered => calm.trans (server_calm steady answered)

theorem asks_call {command : Command} (steady : Steady filed (.command command)) :
    Asks (Steady filed) (call command) := by
  apply And.intro steady
  intro reply
  cases reply <;> trivial

theorem asks_file (source target : Str) (email : EmailId) :
    Asks (Steady [email]) (JmapTransport.file source target email) := by
  have reads : Asks (Steady [email]) (call (.get [email])) := by
    apply asks_call
    trivial
  apply asks_bind reads
  intro answered
  split_ifs
  · trivial
  · exact asks_bind (asks_call (List.mem_singleton_self email)) fun _ => trivial

theorem nothing_filed : ∀ email ∈ ([] : List EmailId), email ∈ account.handled :=
  fun _ member => absurd member List.not_mem_nil

theorem file_all_meets (source target : Str) (messages : List RawMessage)
    (within : PendingWithin [] account) :
    Meets (server site) may (JmapTransport.fileAll source target messages) account
      fun after _ => Calm account after := by
  induction messages generalizing account with
  | nil => exact .refl account
  | cons message rest ih =>
      apply And.intro trivial
      intro reply middle answered
      have steady : Steady [] (.field (.popPending message.transportId)) := trivial
      have popped := server_calm steady answered
      cases reply with
      | none => exact (ih (popped.within within)).post fun _ _ later => popped.trans later
      | some email =>
          have handled : email ∈ middle.handled := by
            have ⟨came, arrives, found, _⟩ := answered
            have ⟨_, pending, _, _⟩ := arrives_keeps arrives
            rw [pending] at found
            exact popped.2 _ ((within _ _ found.symm).resolve_right List.not_mem_nil)
          have filing : Meets (server site) may (exceptWhere Exn.isException
              (JmapTransport.file source target email) fun _ => .ret ()) middle
              fun after _ => Calm middle after :=
            steady_meets (asks_except (asks_file source target email) fun _ => trivial)
              (List.forall_mem_singleton.mpr handled)
          apply filing.seq
          · intro s _ calm
            have before := popped.trans calm
            exact (ih (before.within within)).post fun _ _ later => before.trans later
          · exact fun _ _ calm => popped.trans calm

theorem calls_meet {command : Command} (steady : Steady [] (.command command)) :
    Meets (server site) may (call command) account fun after _ => Calm account after :=
  steady_meets (asks_call steady) nothing_filed

theorem ack_meets (transport : JmapTransport) (messages : List RawMessage)
    (within : messages ≠ [] → PendingWithin [] account) :
    Meets (server site) may (transport.ack messages) account fun after _ => Calm account after := by
  apply And.intro trivial
  intro pending middle answered
  have steady : Steady [] (.field .hasPending) := trivial
  have looked := server_calm steady answered
  change Meets (server site) may (if messages.isEmpty || !pending then _ else _) middle _
  split_ifs with idle
  · exact looked
  · have present : messages ≠ [] := by
      intro none
      exact idle (by rw [none]; rfl)
    have source : Meets (server site) may (call (.getOrCreateMailbox transport.mailboxName)) middle
        fun after _ => Calm middle after := calls_meet trivial
    apply source.seq
    · intro s₁ source' first
      have target : Meets (server site) may (call (.getOrCreateMailbox transport.processedMailboxName))
          s₁ fun after _ => Calm s₁ after := calls_meet trivial
      apply target.seq
      · intro s₂ target' second
        have calm := looked.trans (first.trans second)
        have vouched := calm.within (within present)
        exact (file_all_meets source' target' messages vouched).post fun _ _ later => calm.trans later
      · exact fun _ _ second => looked.trans (first.trans second)
    · exact fun _ _ first => looked.trans first

theorem acknowledge_meets (transport : JmapTransport) (plane : ControlPlane)
    (messages : List RawMessage) (within : messages ≠ [] → PendingWithin [] account) :
    Meets (server site) may (transport.courier.inbound (plane.acknowledge messages)) account
      fun _ _ => True := by
  have acked : Meets (server site) may (transport.ack messages) account fun _ _ => True :=
    (ack_meets transport messages within).post fun _ _ _ => trivial
  exact transport.courier.acknowledge_meets plane (fun _ => True) ((meets_settle _ _ _).mpr acked)
    trivial

theorem pending_of_records {records : List Received} {transportId : Str} {email : EmailId}
    (found : (pendingOf records).get transportId = some email) :
    ∃ received ∈ records, received.message.transportId = transportId ∧ received.id = email := by
  unfold pendingOf Dict.ofEntries at found
  induction records using List.reverseRecOn with
  | nil => cases found
  | append_singleton front received ih =>
      rw [List.map_append, List.foldl_append] at found
      simp only [List.map_cons, List.map_nil, List.foldl_cons, List.foldl_nil, Dict.get_set] at found
      split_ifs at found with same
      · exact ⟨received, List.mem_append_right _ (List.mem_singleton_self _), same.symm,
          Option.some.inj found⟩
      · have ⟨other, member, named⟩ := ih found
        exact ⟨other, List.mem_append_left _ member, named⟩

theorem poll_meets (transport : JmapTransport) (limit : Int) :
    Meets (server site) may (transport.poll limit) account fun after outcome =>
      ∀ records, outcome = .ok records → records ≠ [] →
        PendingWithin (records.map Received.id) after := by
  have box : Meets (server site) may (call (.getOrCreateMailbox transport.mailboxName)) account
      fun after _ => Calm account after := calls_meet trivial
  apply box.seq
  · intro s₁ mailbox _
    have query : Meets (server site) may (call (.queryIds mailbox limit)) s₁
        fun after _ => Calm s₁ after := calls_meet trivial
    apply query.seq
    · intro s₂ ids _
      cases ids with
      | nil =>
          intro records same present
          cases same
          exact absurd rfl present
      | cons first rest =>
          have reading : Meets (server site) may (call (.get (first :: rest))) s₂
              fun after _ => Calm s₂ after := calls_meet trivial
          apply reading.seq
          · intro s₃ answered _
            apply And.intro trivial
            intro _ s₄ stored records returned _
            have same : sortReceived answered.2 = records := Except.ok.inj returned
            have ⟨middle, _, set⟩ := stored
            rw [← same, set]
            intro transportId email found
            have ⟨received, member, _, named⟩ := pending_of_records found
            exact .inr (named ▸ List.mem_map_of_mem member)
          · exact fun _ _ _ _ raised => by cases raised
    · exact fun _ _ _ _ raised => by cases raised
  · exact fun _ _ _ _ raised => by cases raised

variable [Unicode]

theorem rounds_meet (transport : JmapTransport) (plane : ControlPlane) (recipient : Option Str)
    (records : List Received) (report : IngestReport)
    (within : PendingWithin (records.map Received.id) account) :
    Meets (server site) may (transport.courier.ingestEach plane recipient records report) account
      fun after outcome => ∀ ended, outcome = .ok ended → PendingWithin [] after := by
  let holds (waiting : List Received) : Account → Prop := PendingWithin (waiting.map Received.id)
  have ingested : ∀ waiting s (program : DearAgent.Code IngestReport), holds waiting s →
      Asks ControlPlane.Looping program → Meets (server site) may
        (transport.courier.inbound program) s fun after _ => holds waiting after := by
    intro waiting s program held asks
    have steady : Asks (Steady []) (transport.courier.inbound program) :=
      transport.courier.asks_inbound (fun _ _ => ⟨trivial, fun _ => trivial⟩) asks
    exact (steady_meets steady nothing_filed).post fun _ _ calm => calm.within held
  have marked : ∀ first rest s, holds (first :: rest) s →
      Meets (server site) may (transport.courier.mark first) s fun after outcome =>
        outcome = .ok () ∧ holds rest after := by
    intro first rest s held
    apply And.intro trivial
    intro _ s' answered
    apply And.intro rfl
    have steady : Steady [] (.processed first.id) := trivial
    have before := (server_calm steady answered).within held
    obtain ⟨middle, _, handled⟩ := answered
    intro transportId email found
    cases before transportId email found with
    | inl done => exact .inl done
    | inr waits =>
        cases List.mem_cons.mp waits with
        | inl own =>
            left
            rw [show s' = middle.handle first.id from handled, own]
            exact List.mem_append_right _ (List.mem_singleton_self _)
        | inr later => exact .inr later
  apply (transport.courier.rounds_meet plane recipient holds ingested marked report within).post
  intro after outcome ended report returned
  obtain ⟨waiting, held, none⟩ := ended
  rw [none report returned] at held
  exact held

/-- A pass files only what was handled, in whatever state it begins and wherever it stops. -/
theorem pass_meets (transport : JmapTransport) (plane : ControlPlane) (limit : Int)
    (recipient : Option Str) :
    Meets (server site) may (transport.pass plane limit recipient) account fun _ _ => True := by
  apply (poll_meets transport limit).seq
  · intro s records polled
    by_cases none : records = []
    · subst none
      have idle : ([] : List RawMessage) ≠ [] → PendingWithin [] s := fun present => absurd rfl present
      exact (acknowledge_meets transport plane [] idle).seq (fun _ _ _ => trivial) fun _ _ _ => trivial
    · have within := polled records rfl none
      apply (rounds_meet transport plane recipient records {} within).seq
      · intro s' report ended
        apply (acknowledge_meets transport plane _ fun _ => ended report rfl).seq
        · exact fun _ _ _ => trivial
        · exact fun _ _ _ => trivial
      · exact fun _ _ _ => trivial
  · exact fun _ _ _ => trivial

end Passes

/-!
## Passes nothing disturbs
-/

section Progress

variable {α : Type} {account after : Account}

/-- The calls of the client are carried out. -/
def Granted : (request : Request) → request.Reply → Prop
  | .command _, reply => ∃ value, reply = .ok value
  | _, _ => True

/-- No mail comes in, no other client changes anything, and no call fails. What the control plane
asks of its other ports, sending a reply among it, leaves the task mailbox as it is. -/
def undisturbed (site : Site) : Env signature Account :=
  fun request account reply after => Answers site request account reply after ∧ Granted request reply

def anything : Account → Request → Prop := fun _ _ => True

/-- The same mail, and nothing comes back to the task mailbox. -/
def Onward (account after : Account) : Prop :=
  after.mails = account.mails ∧ ∀ email ∈ account.filed, email ∈ after.filed

theorem Onward.refl (account : Account) : Onward account account := ⟨rfl, fun _ => id⟩

theorem Onward.trans {middle : Account} (first : Onward account middle)
    (second : Onward middle after) : Onward account after :=
  ⟨second.1.trans first.1, fun email member => second.2 _ (first.2 email member)⟩

theorem answer_onward {request : Request} {reply : request.Reply}
    (answers : Answers site request account reply after) : Onward account after := by
  cases request with
  | command asked =>
      cases asked with
      | getOrCreateMailbox name => exact answers.1 ▸ .refl account
      | queryIds mailbox limit => exact answers.1 ▸ .refl account
      | get ids => exact answers.1 ▸ .refl account
      | update email target source ifInState =>
          cases answers with
          | inl failed => exact failed.1 ▸ .refl account
          | inr carried =>
              rw [carried.2]
              split_ifs
              · exact ⟨rfl, fun _ member => List.mem_append_left _ member⟩
              · exact .refl account
  | field used =>
      cases used with
      | setPending pending => exact (show after = _ from answers) ▸ ⟨rfl, fun _ => id⟩
      | hasPending => exact answers.2 ▸ .refl account
      | popPending transportId => exact answers.2 ▸ ⟨rfl, fun _ => id⟩
  | port request => exact (show after = account from answers) ▸ .refl account
  | processed email => exact (show after = _ from answers) ▸ ⟨rfl, fun _ => id⟩

theorem goes_onward (program : Code α) :
    Meets (undisturbed site) anything program account fun after _ => Onward account after :=
  (asks_any program).meets (Onward account) (fun _ _ _ _ => trivial)
    (fun _ _ _ _ before _ answered => before.trans (answer_onward answered.1)) (.refl account)

/-- Requests that leave the pending ids alone. -/
def Aside : Request → Prop
  | .field (.setPending _) | .field (.popPending _) => False
  | _ => True

theorem aside_keeps {request : Request} {reply : request.Reply} (aside : Aside request)
    (answers : Answers site request account reply after) : after.pending = account.pending := by
  cases request with
  | command asked =>
      cases asked with
      | getOrCreateMailbox name => rw [answers.1]
      | queryIds mailbox limit => rw [answers.1]
      | get ids => rw [answers.1]
      | update email target source ifInState =>
          cases answers with
          | inl failed => rw [failed.1]
          | inr carried =>
              rw [carried.2]
              split_ifs <;> rfl
  | field used =>
      cases used with
      | setPending pending => exact aside.elim
      | hasPending => rw [answers.2]
      | popPending transportId => exact aside.elim
  | port request => rw [show after = account from answers]
  | processed email => rw [show after = _ from answers]; rfl

/-- What the rounds of `ingest` leave of the account, of which they see nothing. -/
def Beside (account after : Account) : Prop :=
  Onward account after ∧ after.pending = account.pending

theorem aside_meets {program : Code α} (asks : Asks Aside program) :
    Meets (undisturbed site) anything program account fun after _ => Beside account after :=
  asks.meets (Beside account) (fun _ _ _ _ => trivial)
    (fun _ _ _ _ before aside answered =>
      ⟨before.1.trans (answer_onward answered.1), (aside_keeps aside answered.1).trans before.2⟩)
    ⟨.refl account, rfl⟩

theorem meets_call {command : Command} {next : command.Result → Code α}
    {post : Account → Except Exn α → Prop}
    (returned : ∀ value after, Answers site (.command command) account (.ok value) after →
      Meets (undisturbed site) anything (next value) after post) :
    Meets (undisturbed site) anything (call command >>= next) account post := by
  apply And.intro trivial
  intro reply after answered
  have ⟨answers, granted⟩ := answered
  have ⟨value, same⟩ := granted
  subst same
  exact returned value after answers

theorem file_files {target : Str} {email : EmailId} (known : email ∈ account.ids) :
    Meets (undisturbed site) anything (JmapTransport.file site.source target email) account
      fun after _ => email ∈ after.filed := by
  apply meets_call
  intro answered middle answers
  obtain ⟨same, gives⟩ := answers
  obtain ⟨current, shown⟩ := gives answered.1 answered.2 rfl
  rw [same]
  obtain ⟨mail, stored, named⟩ := List.mem_map.mp known
  have found : mail ∈ answered.2 := by
    apply shown.mem_iff.mpr
    exact List.mem_filter.mpr ⟨stored, by simpa using named⟩
  have present : answered.2.isEmpty = false := List.isEmpty_eq_false_iff_exists_mem.mpr ⟨mail, found⟩
  simp only [present, Bool.false_eq_true, if_false]
  apply meets_call
  intro state filed updated
  cases updated with
  | inl failed => exact absurd rfl (failed.2 state)
  | inr carried =>
      rw [carried.2, if_pos rfl]
      exact List.mem_append_right _ (List.mem_singleton_self _)

theorem pending_of_member {records : List Received} {received : Received}
    (member : received ∈ records) :
    ∃ email, (pendingOf records).get received.message.transportId = some email := by
  unfold pendingOf Dict.ofEntries
  induction records using List.reverseRecOn with
  | nil => cases member
  | append_singleton front last ih =>
      rw [List.map_append, List.foldl_append]
      simp only [List.map_cons, List.map_nil, List.foldl_cons, List.foldl_nil, Dict.get_set]
      split_ifs with same
      · exact ⟨last.id, rfl⟩
      · cases List.mem_append.mp member with
        | inl before => exact ih before
        | inr own => exact absurd (by rw [List.mem_singleton.mp own]) same

theorem sort_perm (records : List Received) : (sortReceived records).Perm records :=
  List.perm_insertionSort _ records

theorem poll_lists {limit : Int} (positive : 0 < limit) :
    Meets (undisturbed site) anything (site.transport.poll limit) account
      fun after outcome => ∀ records, outcome = .ok records →
        (account.listed ≠ [] → records ≠ []) ∧
          (∀ received ∈ records, received.id ∈ account.listed) ∧ Onward account after ∧
            (records ≠ [] → after.pending = pendingOf records) := by
  apply meets_call
  intro mailbox s₁ named
  have box : mailbox = site.source := named.2 mailbox rfl
  rw [named.1]
  apply meets_call
  intro ids s₂ queried
  obtain ⟨within, empty⟩ := queried.2 ids rfl box
  rw [queried.1]
  cases ids with
  | nil =>
      intro records same
      cases same
      exact ⟨fun listed => absurd (empty positive rfl) listed,
        fun _ member => absurd member List.not_mem_nil, .refl account, fun present => absurd rfl present⟩
  | cons first rest =>
      apply meets_call
      intro answered s₃ fetched
      have shown := (fetched.2 answered.1 answered.2 rfl).2
      rw [fetched.1]
      apply And.intro trivial
      intro _ s₄ stored records returned
      have same : sortReceived answered.2 = records := Except.ok.inj returned
      have held := (sort_perm answered.2).trans shown
      rw [same] at held
      have set : s₄ = { account with pending := pendingOf (sortReceived answered.2) } := stored.1
      rw [set, same]
      obtain ⟨mail, known, called⟩ := List.mem_map.mp
        (List.mem_filter.mp (within first List.mem_cons_self)).1
      have listed : mail ∈ records := by
        apply held.mem_iff.mpr
        exact List.mem_filter.mpr ⟨known, by simp [called]⟩
      refine ⟨fun _ => List.ne_nil_of_mem listed, ?_, ⟨rfl, fun _ => id⟩, fun _ => rfl⟩
      intro received member
      have chosen := (List.mem_filter.mp (held.mem_iff.mp member)).2
      exact within received.id (List.contains_iff_mem.mp chosen)

theorem ack_files {message : RawMessage} {rest : List RawMessage} {email : EmailId}
    (pending : account.pending.get message.transportId = some email) (known : email ∈ account.ids) :
    Meets (undisturbed site) anything (site.transport.ack (message :: rest)) account
      fun after _ => email ∈ after.filed := by
  apply And.intro trivial
  intro reply middle answered
  have ⟨told, same⟩ := answered.1
  have present : account.pending.entries.isEmpty = false :=
    List.isEmpty_eq_false_iff_exists_mem.mpr ⟨_, (Dict.get_eq_some_iff _ _ _).mp pending⟩
  rw [present] at told
  subst told same
  apply meets_call
  intro source s₁ named
  have box : source = site.source := named.2 source rfl
  rw [named.1, box]
  apply meets_call
  intro target s₂ called
  rw [called.1]
  apply And.intro trivial
  intro popped s₃ taken
  have ⟨found, erased⟩ := taken.1
  rw [pending] at found
  subst found
  have still : email ∈ s₃.ids := by
    rw [erased]
    exact known
  have filed : Meets (undisturbed site) anything (exceptWhere Exn.isException
      (JmapTransport.file site.source target email) fun _ => .ret ()) s₃
      fun after _ => email ∈ after.filed := by
    apply (meets_catch _ _ _ _).mpr
    apply (file_files still).post
    intro after outcome done
    cases outcome with
    | ok value => exact done
    | error error =>
        change Meets _ _ (if error.isException then _ else _) after _
        split_ifs
        · exact done
        · exact done
  apply filed.seq
  · intro s₄ _ done
    exact (goes_onward _).post fun after _ onward => onward.2 _ done
  · exact fun _ _ done => done

theorem acknowledge_files {plane : ControlPlane} (acks : plane.ack = true) {message : RawMessage}
    {rest : List RawMessage} {email : EmailId}
    (pending : account.pending.get message.transportId = some email) (known : email ∈ account.ids) :
    Meets (undisturbed site) anything
      (site.transport.courier.inbound (plane.acknowledge (message :: rest))) account
      fun after _ => email ∈ after.filed := by
  unfold ControlPlane.acknowledge
  rw [if_pos acks]
  have settled : Meets (undisturbed site) anything (settle (site.transport.ack (message :: rest)))
      account fun after _ => email ∈ after.filed :=
    (meets_settle _ _ _).mpr (ack_files pending known)
  apply settled.seq
  · intro after outcome done
    exact (goes_onward _).post fun _ _ onward => onward.2 _ done
  · exact fun _ _ done => done

theorem listed_or_filed {email : EmailId} (arrived : email ∈ account.ids) :
    email ∈ account.listed ∨ email ∈ account.filed := by
  by_cases filed : email ∈ account.filed
  · exact .inr filed
  · exact .inl (List.mem_filter.mpr ⟨arrived, by simpa using filed⟩)

theorem listed_shrinks {email : EmailId} (onward : Onward account after)
    (listed : email ∈ account.listed) (filed : email ∈ after.filed) :
    after.listed.length < account.listed.length := by
  have same : after.ids = account.ids := by
    unfold Account.ids
    rw [onward.1]
  have narrower : after.listed = account.listed.filter fun id => id ∉ after.filed := by
    unfold Account.listed
    rw [same, List.filter_filter]
    apply List.filter_congr
    intro id _
    by_cases gone : id ∈ after.filed
    · simp [gone]
    · have before : id ∉ account.filed := fun member => gone (onward.2 id member)
      simp [gone, before]
  rw [narrower]
  apply List.length_filter_lt_length_iff_exists.mpr
  exact ⟨email, listed, by simpa using filed⟩

variable [Unicode]

theorem pass_advances {plane : ControlPlane} (acks : plane.ack = true) {limit : Int}
    (positive : 0 < limit) (recipient : Option Str) :
    Meets (undisturbed site) anything (site.transport.pass plane limit recipient) account
      fun after outcome => Onward account after ∧ ∀ report, outcome = .ok report →
        account.listed ≠ [] → ∃ email ∈ account.listed, email ∈ after.filed := by
  apply (goes_onward _).and
  apply (poll_lists positive).seq
  · intro s₁ records polled
    have ⟨lists, within, onward, remembers⟩ := polled records rfl
    have rounds : Asks Aside (site.transport.courier.ingestEach plane recipient records {}) :=
      site.transport.courier.asks_rounds plane recipient (fun _ _ => ⟨trivial, fun _ => trivial⟩)
        (fun _ => ⟨trivial, fun _ => trivial⟩) records {}
    apply (aside_meets rounds).seq
    · intro s₂ report beside
      cases records with
      | nil =>
          apply (goes_onward _).post
          intro _ _ _ _ _ listed
          exact absurd rfl (lists listed)
      | cons received rest =>
          have ⟨email, pending⟩ := pending_of_member (List.mem_cons_self (a := received) (l := rest))
          have ⟨other, member, _, named⟩ := pending_of_records pending
          have listed : email ∈ account.listed := named ▸ within other member
          have known : email ∈ s₂.ids := by
            unfold Account.ids
            rw [beside.1.1, onward.1]
            exact (List.mem_filter.mp listed).1
          have stored : s₂.pending.get received.message.transportId = some email := by
            rw [beside.2, remembers (List.cons_ne_nil _ _)]
            exact pending
          apply (acknowledge_files acks stored known).seq
          · intro after _ done report same _
            exact ⟨email, listed, done⟩
          · exact fun _ _ _ _ raised => by cases raised
    · exact fun _ _ _ _ raised => by cases raised
  · exact fun _ _ _ _ raised => by cases raised

end Progress

/-!
## Runs
-/

section Runs

variable [Unicode] {site : Site} {account after : Account} {limit : Int}

/-- Mail comes in, another client changes something, or a pass begins and is over wherever it
stopped: at its end, with an exception, or because the process died. -/
inductive Step (site : Site) : Account → Account → Prop
  | arrive {account after : Account} (arrival : Arrival account after) : Step site account after
  | pass {account stop : Account} (plane : ControlPlane) (limit : Int) (recipient : Option Str)
      (died : Bool)
      (reached : Reaches (server site) (site.transport.pass plane limit recipient) account stop) :
      Step site account (stop.stopped died)

/-- Some passes that all come to their end and that nothing disturbs. -/
inductive Passes (site : Site) (limit : Int) : Nat → Account → Account → Prop
  | none (account : Account) : Passes site limit 0 account account
  | pass {n : Nat} {account middle after : Account} {plane : ControlPlane} {recipient : Option Str}
      {trace : List (Exchange signature)} {report : IngestReport} (acks : plane.ack = true)
      (completed : Exec (undisturbed site) (site.transport.pass plane limit recipient) account trace
        (.ok report) middle)
      (later : Passes site limit n middle after) : Passes site limit (n + 1) account after

theorem step_keeps (kept : Kept account) (step : Step site account after) : Kept after := by
  cases step with
  | arrive arrival =>
      have ⟨filed, _, handled, distinct⟩ := arrives_keeps (.single arrival)
      constructor
      · exact distinct kept.distinct
      · rw [filed, handled]
        exact kept.handled
  | @pass stop plane limit recipient died reached =>
      have still := (pass_meets site.transport plane limit recipient).reaches reached
        (fun _ _ _ _ before permitted answered => server_keeps before permitted answered) kept
      unfold Account.stopped
      split_ifs
      · exact ⟨still.distinct, still.handled⟩
      · exact still

theorem run_keeps (run : Relation.ReflTransGen (Step site) account after) (kept : Kept account) :
    Kept after := by
  induction run with
  | refl => exact kept
  | tail _ step ih => exact step_keeps ih step

theorem Passes.run {n : Nat} (passes : Passes site limit n account after) :
    Relation.ReflTransGen (Step site) account after := by
  induction passes with
  | none account => exact .refl
  | @pass n account middle after plane recipient trace report acks completed later ih =>
      have anyhow := exec_where completed (fun _ _ => trivial) fun request s reply s' _ answered =>
        (⟨s, .refl, answered.1⟩ : server site request s reply s')
      exact .head (.pass plane limit recipient false (reaches_end anyhow)) ih

theorem Passes.onward {n : Nat} (passes : Passes site limit n account after) :
    Onward account after := by
  induction passes with
  | none account => exact .refl account
  | pass acks completed later ih => exact ((goes_onward _).sound completed).trans ih

theorem passes_file {n : Nat} {email : EmailId} (positive : 0 < limit)
    (passes : Passes site limit n account after) (enough : account.listed.length ≤ n)
    (arrived : email ∈ account.ids) : email ∈ after.filed := by
  induction passes with
  | none account =>
      have empty := List.length_eq_zero_iff.mp (Nat.le_zero.mp enough)
      have place := listed_or_filed arrived
      rw [empty] at place
      exact place.resolve_left List.not_mem_nil
  | @pass n account middle after plane recipient trace report acks completed later ih =>
      have ⟨onward, advances⟩ := (pass_advances acks positive recipient).sound completed
      by_cases empty : account.listed = []
      · have place := listed_or_filed arrived
        rw [empty] at place
        exact later.onward.2 _ (onward.2 _ (place.resolve_left List.not_mem_nil))
      · have ⟨other, listed, filed⟩ := advances report rfl empty
        have shorter := listed_shrinks onward listed filed
        apply ih
        · omega
        · unfold Account.ids
          rw [onward.1]
          exact arrived

/-- Whatever raises, dies or comes between, a message that is not handled yet is still listed, and
is handled by the time as many passes have come to their end as messages are listed. -/
theorem unhandled_mail_is_polled
    (run : Relation.ReflTransGen (Step site) {} account) (email : EmailId)
    (arrived : email ∈ account.ids) (waiting : email ∉ account.handled) :
    email ∈ account.listed ∧ ∀ (limit : Int) (n : Nat) (after : Account), 0 < limit →
      Passes site limit n account after → account.listed.length ≤ n → email ∈ after.handled := by
  have empty : Kept {} := ⟨List.nodup_nil, fun _ member => absurd member List.not_mem_nil⟩
  have kept := run_keeps run empty
  constructor
  · exact (listed_or_filed arrived).resolve_right fun filed => waiting (kept.handled email filed)
  · intro limit n after positive passes enough
    have still := run_keeps passes.run kept
    exact still.handled email (passes_file positive passes enough arrived)

end Runs

section Stopped

local instance jmapTables : Unicode := asciiTables

def mail (id messageId : Str) : Received where
  record := {
    id
    messageId
    threadId := none
    sender := some "ada@example.com"
    subject := none
    body := "repo: acme/widget"
    hasAttachment := false
    headers := [] }
  receivedAt := 0

/-- A server that carries out what it is asked, in a system that denies every message. -/
def denying : (request : signature.Request) → Account → signature.Reply request × Account
  | .command (.getOrCreateMailbox name), account => (.ok name, account)
  | .command (.queryIds _ limit), account => (.ok (account.listed.take limit.toNat), account)
  | .command (.get ids), account =>
      (.ok (account.state, account.mails.filter fun mail => ids.contains mail.id), account)
  | .command (.update email _ source ifInState), account =>
      if ifInState = account.state then
        (.ok account.state,
          if source = Site.source {} then account.file email else account.touch)
      else (.error (.otherException "JmapError" "stateMismatch"), account)
  | .field (.setPending pending), account => ((), { account with pending := pending })
  | .field .hasPending, account => (!account.pending.entries.isEmpty, account)
  | .field (.popPending transportId), account =>
      (account.pending.get transportId,
        { account with pending := account.pending.erase transportId })
  | .port _, account => (.error (.unauthorizedSender none), account)
  | .processed email, account => ((), account.handle email)

theorem denying_answers (request : signature.Request) (account : Account) :
    Answers {} request account (denying request account).1 (denying request account).2 := by
  cases request with
  | command asked =>
      cases asked with
      | getOrCreateMailbox name =>
          apply And.intro rfl
          intro mailbox same
          cases same
          rfl
      | queryIds mailbox limit =>
          apply And.intro rfl
          intro ids same _
          cases same
          apply And.intro fun _ member => List.mem_of_mem_take member
          intro positive empty
          cases List.take_eq_nil_iff.mp empty with
          | inl none => omega
          | inr none => exact none
      | get ids =>
          apply And.intro rfl
          intro state records same
          cases same
          exact ⟨rfl, .refl _⟩
      | update email target source ifInState =>
          by_cases current : ifInState = account.state
          · simp only [denying, if_pos current]
            exact .inr ⟨current, rfl⟩
          · simp only [denying, if_neg current]
            exact .inl ⟨rfl, fun _ same => by cases same⟩
  | field used =>
      cases used with
      | setPending pending => rfl
      | hasPending => exact ⟨rfl, rfl⟩
      | popPending transportId => exact ⟨rfl, rfl⟩
  | port request => rfl
  | processed email => rfl

def passOf (limit : Int) : Code IngestReport :=
  JmapTransport.pass {} { gate := true, ack := true } limit none

def onePass (account : Account) : List (Exchange signature) × Except Exn IngestReport × Account :=
  run denying (passOf 1) account

def carriedOut : Exchange signature → Bool
  | ⟨.command _, reply⟩ => reply.isOk
  | _ => true

theorem one_pass_returns (account : Account)
    (ended : ((onePass account).2.1.isOk && (onePass account).1.all carriedOut) = true) :
    ∃ report, Exec (undisturbed {}) (passOf 1) account (onePass account).1 (.ok report)
      (onePass account).2.2 := by
  obtain ⟨returned, all⟩ := Bool.and_eq_true_iff.mp ended
  have executed := exec_run (Answers {}) denying denying_answers (passOf 1) account
  have granted := exec_where executed (List.all_eq_true.mp all)
    (fun request s reply s' carried answers => (⟨answers, by
      cases request with
      | command asked =>
          cases reply with
          | ok value => exact ⟨value, rfl⟩
          | error error => cases carried
      | _ => trivial⟩ : undisturbed {} request s reply s'))
  cases outcome : (onePass account).2.1 with
  | ok report => exact ⟨report, outcome ▸ granted⟩
  | error error =>
      rw [outcome] at returned
      cases returned

def twoMails : Account :=
  (({} : Account).deliver (mail "M1" "<widget@example.com>")).deliver
    (mail "M2" "<gadget@example.com>")

/-- The process dies in the round of the second of two messages, and another client changes
something. -/
def interrupted : Account := ((stopAfter denying 7 (passOf 50) twoMails).stopped true).touch

/-- Both messages are still listed, and two passes of one message handle the second one too. -/
theorem stopped_pass_leaves_mail :
    "M2".toList ∈ interrupted.listed ∧
      "M2".toList ∈ (onePass (onePass interrupted).2.2).2.2.handled := by
  have came : Relation.ReflTransGen (Step {}) {} twoMails :=
    (Relation.ReflTransGen.single (.arrive (.deliver _ (by decide)))).tail
      (.arrive (.deliver _ (by decide)))
  have stopped := reaches_stop (server {}) denying
    (fun request account => ⟨account, .refl, denying_answers request account⟩) 7 (passOf 50) twoMails
  have run : Relation.ReflTransGen (Step {}) {} interrupted :=
    (came.tail (.pass _ 50 none true stopped)).tail (.arrive (.touch _))
  have left := unhandled_mail_is_polled run "M2" (by decide) (by decide)
  apply And.intro left.1
  obtain ⟨_, first⟩ := one_pass_returns interrupted (by decide)
  obtain ⟨_, second⟩ := one_pass_returns (onePass interrupted).2.2 (by decide)
  exact left.2 1 2 _ (by decide) (.pass rfl first (.pass rfl second (.none _))) (by decide)

end Stopped

end DearAgent.JmapMail
