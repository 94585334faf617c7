import DearAgent.Transports.Adapters
import DearAgent.Transports.Courier
import Mathlib.Data.List.Sort

/-!
# The AgentMail inbox

`transports/agentmail.py`: a poll lists the first messages labelled `received`, skips the ones that
carry the done label and fetches the rest, and an acknowledgement adds the done label. It never
takes a message out of the listing. The inbox runs beside the code: mail comes in at any place of
the listing, and a call may fail after it was carried out.
-/

namespace DearAgent.AgentMail

open DearAgent.Lib.Text DearAgent.Lib.Effects DearAgent.Queue

set_option autoImplicit false

structure Listed where
  message : AgentMessage
  labels : List Str := []
  timestamp : Option Str := none
  createdAt : Option Str := none

inductive Command
  | listMessages (labels : List Str) (limit : Int)
  | getMessage (messageId : Str)
  | updateLabels (messageId : Str) (add : List Str)

@[reducible] def Command.Result : Command → Type
  | .listMessages _ _ => List Listed
  | .getMessage _ => AgentMessage
  | .updateLabels _ _ => Unit

/-- Everything a pass asks. `processed` is no request of the code: it marks the end of a round
of the loop of `ingest`. -/
inductive Request
  | command (command : Command)
  | port (request : DearAgent.Request)
  | processed (transportId : Str)

@[reducible] def Request.Reply : Request → Type
  | .command asked => Except Exn asked.Result
  | .port request => Except Exn request.Result
  | .processed _ => Unit

@[reducible] def signature : Signature where
  Request := Request
  Reply := Request.Reply
  Raised := Exn

abbrev Code (α : Type) := Program signature α

def call (command : Command) : Code command.Result :=
  .ask (.command command) (@unwrap signature _)

def mark (transportId : Str) : Code Unit := .ask (.processed transportId) .ret

/-!
## The transport
-/

def receivedLabel : Str := "received"

structure AgentMailTransport where
  doneLabel : Str := "dear-agent-done"

/-- The sort key of `poll`. -/
def sortKey (listed : Listed) : Str := orElse listed.timestamp (listed.createdAt.getD [])

def sortListed (messages : List Listed) : List Listed :=
  messages.insertionSort fun first second => sortKey first ≤ sortKey second

def full (listed : Listed) : Code AgentMessage :=
  let messageId := listed.message.messageId.getD []
  if messageId.isEmpty then .ret listed.message
  else exceptWhere Exn.isException (call (.getMessage messageId)) fun _ => .ret listed.message

namespace AgentMailTransport

def fresh (transport : AgentMailTransport) (messages : List Listed) : List Listed :=
  messages.filter fun listed => !listed.labels.contains transport.doneLabel

variable [MailLibrary]

/-- `[self._to_raw(self._full(message)) for message in fresh]`. -/
def fetchAll : List Listed → Code (List RawMessage)
  | [] => .ret []
  | listed :: rest => do
      let fetched ← full listed
      let later ← fetchAll rest
      .ret (fetched.toRaw :: later)

def poll (transport : AgentMailTransport) (limit : Int) : Code (List RawMessage) := do
  let messages ← call (.listMessages [receivedLabel] limit)
  fetchAll (sortListed (transport.fresh messages))

omit [MailLibrary] in
def ack (transport : AgentMailTransport) : List RawMessage → Code Unit
  | [] => .ret ()
  | message :: rest => do
      exceptWhere Exn.isException (call (.updateLabels message.transportId [transport.doneLabel]))
        fun _ => .ret ()
      transport.ack rest

/-!
## A pass
-/

def courier (transport : AgentMailTransport) : Courier signature RawMessage where
  raised := id
  port request := .ask (.port request) .ret
  poll := transport.poll
  message := id
  mark message := mark message.transportId
  ack messages := settle (transport.ack messages)

variable [Unicode]

/-- `_handle_poll`: one poll and the ingest of what it returned. -/
def handlePoll (transport : AgentMailTransport) (plane : ControlPlane) (limit : Int)
    (recipient : Option Str) : Code IngestReport :=
  transport.courier.handlePoll plane recipient limit

/-- `handle_poll` with the marks. -/
def pass (transport : AgentMailTransport) (plane : ControlPlane) (limit : Int)
    (recipient : Option Str) : Code IngestReport :=
  transport.courier.pass plane recipient limit

omit [MailLibrary] [Unicode] in
def silent : (request : signature.Request) → Option (signature.Reply request)
  | .processed _ => some ()
  | _ => none

theorem unmarked_pass (transport : AgentMailTransport) (plane : ControlPlane) (limit : Int)
    (recipient : Option Str) :
    erase silent (transport.pass plane limit recipient) =
      erase silent (transport.handlePoll plane limit recipient) :=
  transport.courier.erased_pass plane recipient (fun _ => rfl) limit

end AgentMailTransport

/-!
## The inbox
-/

/-- A message of the inbox: the API gives every message a `message_id`, tells it in the listing and
with the full record, and finds the message by it. -/
structure Mail where
  id : Str
  listed : Listed
  full : AgentMessage
  named : id ≠ []
  listedId : listed.message.messageId = some id
  fullId : full.messageId = some id

def Mail.label (mail : Mail) (add : List Str) : Mail :=
  { mail with listed := { mail.listed with labels := mail.listed.labels ++ add } }

/-- The received mail in the order of the listing, and the messages whose round has ended. -/
structure Inbox where
  mails : List Mail := []
  handled : List Str := []

namespace Inbox

def ids (inbox : Inbox) : List Str := inbox.mails.map Mail.id

def ahead (inbox : Inbox) (id : Str) : Nat := inbox.ids.idxOf id

def Labelled (inbox : Inbox) (label id : Str) : Prop :=
  ∃ mail ∈ inbox.mails, mail.id = id ∧ label ∈ mail.listed.labels

def label (inbox : Inbox) (id : Str) (add : List Str) : Inbox :=
  { inbox with mails := inbox.mails.map fun mail => if mail.id = id then mail.label add else mail }

def handle (inbox : Inbox) (id : Str) : Inbox := { inbox with handled := inbox.handled ++ [id] }

end Inbox

/-- New mail has an id that no mail had before and no done label; the listing may have it anywhere. -/
inductive Arrival (doneLabel : Str) : Inbox → Inbox → Prop
  | deliver {inbox : Inbox} (front back : List Mail) (mail : Mail)
      (split : inbox.mails = front ++ back) (fresh : mail.id ∉ inbox.ids)
      (unlabelled : doneLabel ∉ mail.listed.labels) :
      Arrival doneLabel inbox { inbox with mails := front ++ mail :: back }

abbrev Arrives (doneLabel : Str) : Inbox → Inbox → Prop := Relation.ReflTransGen (Arrival doneLabel)

/-- What an answer says and leaves behind. A call may fail after it was carried out. -/
def Answers : Env signature Inbox
  | .command (.listMessages labels limit), inbox, reply, after =>
      after = inbox ∧ ∀ messages, reply = .ok messages → labels = [receivedLabel] → 0 < limit →
        messages = (inbox.mails.take limit.toNat).map Mail.listed
  | .command (.getMessage messageId), inbox, reply, after =>
      after = inbox ∧ ∀ message, reply = .ok message →
        ∃ mail ∈ inbox.mails, mail.id = messageId ∧ mail.full = message
  | .command (.updateLabels messageId add), inbox, reply, after =>
      (after = inbox ∧ ∀ value, reply ≠ .ok value) ∨ after = inbox.label messageId add
  | .port _, inbox, _, after => after = inbox
  | .processed id, inbox, _, after => after = inbox.handle id

def server (doneLabel : Str) : Env signature Inbox :=
  fun request inbox reply after =>
    ∃ middle, Arrives doneLabel inbox middle ∧ Answers request middle reply after

/-- Only a message whose round has ended is labelled, and only these are handled. -/
def may (chosen : Str → Prop) : Inbox → Request → Prop
  | inbox, .command (.updateLabels messageId _) => messageId ∈ inbox.handled
  | _, .processed id => chosen id
  | _, _ => True

/-!
## What every answer keeps
-/

section Invariants

variable {doneLabel id : Str} {inbox after : Inbox}

/-- The listing keeps its order, only fresh mail comes in without the label, and what is handled
stays handled. -/
structure Grown (doneLabel : Str) (inbox after : Inbox) : Prop where
  order : inbox.ids.Sublist after.ids
  distinct : inbox.ids.Nodup → after.ids.Nodup
  handled : ∀ id ∈ inbox.handled, id ∈ after.handled
  labelled : ∀ id ∈ inbox.ids, inbox.Labelled doneLabel id → after.Labelled doneLabel id

theorem Grown.refl (inbox : Inbox) : Grown doneLabel inbox inbox :=
  ⟨.refl _, id, fun _ => id, fun _ _ => id⟩

theorem Grown.trans {middle : Inbox} (first : Grown doneLabel inbox middle)
    (second : Grown doneLabel middle after) : Grown doneLabel inbox after where
  order := first.order.trans second.order
  distinct before := second.distinct (first.distinct before)
  handled id member := second.handled id (first.handled id member)
  labelled id member before :=
    second.labelled id (first.order.subset member) (first.labelled id member before)

/-- In a list without repetitions nothing comes nearer to the front when others are put in. -/
theorem idx_of_sublist {items more : List Str} (sub : items.Sublist more) (distinct : more.Nodup)
    (member : id ∈ items) : items.idxOf id ≤ more.idxOf id := by
  induction sub with
  | slnil => cases member
  | @cons items more other sub ih =>
      have ⟨absent, rest⟩ := List.nodup_cons.mp distinct
      have differs : other ≠ id := fun same => absent (same ▸ sub.subset member)
      rw [List.idxOf_cons_ne _ differs]
      exact Nat.le_succ_of_le (ih rest member)
  | @cons_cons items more first sub ih =>
      by_cases same : first = id
      · rw [same, List.idxOf_cons_self]
        exact Nat.zero_le _
      · have later : id ∈ items := (List.mem_cons.mp member).resolve_left fun own => same own.symm
        rw [List.idxOf_cons_ne _ same, List.idxOf_cons_ne _ same]
        exact Nat.succ_le_succ (ih (List.nodup_cons.mp distinct).2 later)

theorem Grown.ahead (grown : Grown doneLabel inbox after) (distinct : inbox.ids.Nodup)
    (arrived : id ∈ inbox.ids) : inbox.ahead id ≤ after.ahead id :=
  idx_of_sublist grown.order (grown.distinct distinct) arrived

theorem label_ids (messageId : Str) (add : List Str) : (inbox.label messageId add).ids = inbox.ids := by
  unfold Inbox.label Inbox.ids
  rw [List.map_map]
  apply List.map_congr_left
  intro mail _
  change (if mail.id = messageId then mail.label add else mail).id = mail.id
  split_ifs <;> rfl

theorem arrives_grown (arrives : Arrives doneLabel inbox after) :
    Grown doneLabel inbox after ∧ after.handled = inbox.handled ∧
      ∀ id, after.Labelled doneLabel id → inbox.Labelled doneLabel id := by
  induction arrives with
  | refl => exact ⟨.refl _, rfl, fun _ => id⟩
  | tail _ arrival ih =>
      obtain ⟨grown, handled, labels⟩ := ih
      cases arrival with
      | deliver front back mail split fresh unlabelled =>
          have sub : (front ++ back).Sublist (front ++ mail :: back) :=
            (List.Sublist.refl front).append (List.sublist_cons_self mail back)
          apply And.intro
          · apply grown.trans
            constructor
            · unfold Inbox.ids
              rw [split]
              exact sub.map Mail.id
            · intro before
              unfold Inbox.ids at before fresh ⊢
              rw [split] at before fresh
              rw [List.map_append] at before fresh ⊢
              exact List.nodup_middle.mpr (List.nodup_cons.mpr ⟨fresh, before⟩)
            · exact fun _ => id
            · intro other _ before
              obtain ⟨found, member, named, has⟩ := before
              exact ⟨found, sub.subset (split ▸ member), named, has⟩
          apply And.intro handled
          intro other carried
          obtain ⟨found, member, named, has⟩ := carried
          apply labels other
          refine ⟨found, ?_, named, has⟩
          rw [split]
          cases List.mem_append.mp member with
          | inl before => exact List.mem_append_left _ before
          | inr rest =>
              cases List.mem_cons.mp rest with
              | inl own => exact absurd (own ▸ has) unlabelled
              | inr later => exact List.mem_append_right _ later

theorem label_labelled {messageId : Str} {add : List Str} :
    (inbox.label messageId add).Labelled doneLabel id →
      inbox.Labelled doneLabel id ∨ id = messageId := by
  intro carried
  obtain ⟨mail, member, named, has⟩ := carried
  obtain ⟨old, stored, same⟩ := List.mem_map.mp member
  split_ifs at same with own
  · right
    rw [← named, ← same]
    exact own
  · left
    exact ⟨old, stored, by rw [same]; exact named, by rw [same]; exact has⟩

theorem labels_stay {messageId : Str} {add : List Str} (carried : inbox.Labelled doneLabel id) :
    (inbox.label messageId add).Labelled doneLabel id := by
  obtain ⟨mail, member, named, has⟩ := carried
  refine ⟨_, List.mem_map_of_mem member, ?_, ?_⟩
  · split_ifs
    · exact named
    · exact named
  · split_ifs
    · exact List.mem_append_left _ has
    · exact has

/-- An answer changes the inbox in two cases only: a label is added, or a round has ended. -/
theorem answer_cases {request : Request} {reply : request.Reply}
    (answers : Answers request inbox reply after) :
    after = inbox ∨
      (∃ messageId add, request = .command (.updateLabels messageId add) ∧
        after = inbox.label messageId add) ∨
      ∃ id, request = .processed id ∧ after = inbox.handle id := by
  cases request with
  | command asked =>
      cases asked with
      | listMessages labels limit => exact .inl answers.1
      | getMessage messageId => exact .inl answers.1
      | updateLabels messageId add =>
          cases answers with
          | inl failed => exact .inl failed.1
          | inr carried => exact .inr (.inl ⟨messageId, add, rfl, carried⟩)
  | port request => exact .inl answers
  | processed id => exact .inr (.inr ⟨id, rfl, answers⟩)

theorem label_grown (messageId : Str) (add : List Str) :
    Grown doneLabel inbox (inbox.label messageId add) := by
  constructor
  · rw [label_ids]
  · rw [label_ids]
    exact id
  · exact fun _ => id
  · exact fun _ _ => labels_stay

theorem handle_grown (id : Str) : Grown doneLabel inbox (inbox.handle id) where
  order := .refl _
  distinct before := before
  handled _ member := List.mem_append_left _ member
  labelled _ _ before := before

theorem server_grown {request : Request} {reply : request.Reply}
    (answered : server doneLabel request inbox reply after) : Grown doneLabel inbox after := by
  obtain ⟨middle, arrives, answers⟩ := answered
  apply (arrives_grown arrives).1.trans
  obtain same | ⟨messageId, add, _, labelled⟩ | ⟨id, _, handled⟩ := answer_cases answers
  · rw [same]
    exact .refl middle
  · rw [labelled]
    exact label_grown messageId add
  · rw [handled]
    exact handle_grown id

structure Kept (doneLabel : Str) (inbox : Inbox) : Prop where
  distinct : inbox.ids.Nodup
  handled : ∀ id, inbox.Labelled doneLabel id → id ∈ inbox.handled

theorem server_keeps {chosen : Str → Prop} {request : Request} {reply : request.Reply}
    (kept : Kept doneLabel inbox) (permitted : may chosen inbox request)
    (answered : server doneLabel request inbox reply after) : Kept doneLabel after := by
  have grown := server_grown answered
  obtain ⟨middle, arrives, answers⟩ := answered
  obtain ⟨_, handled, labels⟩ := arrives_grown arrives
  have still : ∀ id, middle.Labelled doneLabel id → id ∈ middle.handled := by
    intro id carried
    rw [handled]
    exact kept.handled id (labels id carried)
  apply Kept.mk (grown.distinct kept.distinct)
  intro id carried
  obtain same | ⟨messageId, add, asked, labelled⟩ | ⟨other, _, ended⟩ := answer_cases answers
  · rw [same] at carried ⊢
    exact still id carried
  · rw [labelled] at carried ⊢
    cases label_labelled carried with
    | inl before => exact still id before
    | inr own =>
        rw [asked] at permitted
        change id ∈ middle.handled
        rw [own, handled]
        exact permitted
  · rw [ended] at carried ⊢
    exact List.mem_append_left _ (still id carried)

end Invariants

/-!
## What a pass does
-/

section Passes

variable {α : Type} {doneLabel id : Str} {chosen : Str → Prop} {inbox after : Inbox}

/-- Requests after which nothing is labelled and nothing is handled. -/
def Reading : Request → Prop
  | .command (.updateLabels _ _) | .processed _ => False
  | _ => True

theorem asks_grown {program : Code α} {allowed : Request → Prop}
    (permitted : ∀ inbox request, allowed request → may chosen inbox request)
    (asks : Asks allowed program) :
    Meets (server doneLabel) (may chosen) program inbox fun after _ => Grown doneLabel inbox after :=
  asks.meets (Grown doneLabel inbox) (fun _ _ _ allowed => permitted _ _ allowed)
    (fun _ _ _ _ before _ answered => before.trans (server_grown answered)) (.refl inbox)

theorem reading_may (inbox : Inbox) (request : Request) (reading : Reading request) :
    may chosen inbox request := by
  cases request with
  | command asked =>
      cases asked with
      | updateLabels messageId add => exact reading.elim
      | _ => trivial
  | port request => trivial
  | processed id => exact reading.elim

theorem full_meets {listed : Listed} (named : listed.message.messageId = some id)
    (present : id ≠ []) :
    Meets (server doneLabel) (may chosen) (full listed) inbox fun after outcome =>
      Grown doneLabel inbox after ∧ ∀ message, outcome = .ok message → message.messageId = some id := by
  have nonempty : (listed.message.messageId.getD []).isEmpty = false := by
    rw [named]
    exact List.isEmpty_eq_false_iff.mpr present
  unfold full
  simp only [nonempty, Bool.false_eq_true, if_false]
  apply (meets_catch _ _ _ _).mpr
  apply And.intro trivial
  intro reply middle answered
  have grown := server_grown answered
  cases reply with
  | error error =>
      change Meets _ _ (if error.isException then _ else _) middle _
      split_ifs
      · exact ⟨grown, fun message same => Except.ok.inj same ▸ named⟩
      · exact ⟨grown, fun _ same => by cases same⟩
  | ok fetched =>
      apply And.intro grown
      intro message same
      obtain ⟨_, _, answers⟩ := answered
      obtain ⟨mail, _, own, whole⟩ := answers.2 fetched rfl
      rw [← Except.ok.inj same, ← whole, mail.fullId, own, named]
      rfl

def called (listed : Listed) : Str := listed.message.messageId.getD []

theorem called_listed (mail : Mail) : called mail.listed = mail.id := by
  unfold called
  rw [mail.listedId]
  rfl

/-- The messages of a poll are the ones without the label among the first of the listing. -/
structure Window (doneLabel : Str) (limit : Int) (inbox after : Inbox) (polled : List Str) : Prop where
  within : ∀ id ∈ polled, id ∈ inbox.ids → inbox.ahead id < limit.toNat
  whole : ∀ id ∈ inbox.ids, after.ahead id < limit.toNat → ¬inbox.Labelled doneLabel id → id ∈ polled

theorem sort_perm (messages : List Listed) : (sortListed messages).Perm messages :=
  List.perm_insertionSort _ _

theorem mem_fresh {transport : AgentMailTransport} {mails : List Mail} :
    id ∈ (sortListed (transport.fresh (mails.map Mail.listed))).map called ↔
      ∃ mail ∈ mails, mail.id = id ∧ transport.doneLabel ∉ mail.listed.labels := by
  rw [((sort_perm _).map called).mem_iff]
  unfold AgentMailTransport.fresh
  constructor
  · intro member
    obtain ⟨listed, kept, named⟩ := List.mem_map.mp member
    obtain ⟨stored, unlabelled⟩ := List.mem_filter.mp kept
    obtain ⟨mail, found, same⟩ := List.mem_map.mp stored
    subst same
    rw [called_listed] at named
    exact ⟨mail, found, named, by simpa using unlabelled⟩
  · intro present
    obtain ⟨mail, found, named, unlabelled⟩ := present
    rw [← named, ← called_listed]
    apply List.mem_map_of_mem
    exact List.mem_filter.mpr ⟨List.mem_map_of_mem found, by simpa using unlabelled⟩

theorem mem_first (inbox : Inbox) (n : Nat) (arrived : id ∈ inbox.ids) :
    (∃ mail ∈ inbox.mails.take n, mail.id = id) ↔ inbox.ahead id < n := by
  rw [← List.mem_map, List.map_take]
  exact List.mem_take_iff_idxOf_lt arrived

section Polls

variable [MailLibrary]

theorem raw_id {message : AgentMessage} (named : message.messageId = some id) (present : id ≠ []) :
    message.toRaw.transportId = id := by
  unfold AgentMessage.toRaw
  rw [named]
  exact if_neg fun empty => present (List.isEmpty_iff.mp empty)

theorem fetch_all_meets {messages : List Listed}
    (known : ∀ listed ∈ messages, ∃ mail : Mail, mail.listed = listed) :
    Meets (server doneLabel) (may chosen) (AgentMailTransport.fetchAll messages) inbox
      fun after outcome => Grown doneLabel inbox after ∧ ∀ fetched, outcome = .ok fetched →
        fetched.map RawMessage.transportId = messages.map called := by
  induction messages generalizing inbox with
  | nil => exact ⟨.refl inbox, fun fetched same => Except.ok.inj same ▸ rfl⟩
  | cons listed rest ih =>
      obtain ⟨mail, same⟩ := known listed List.mem_cons_self
      subst same
      apply (full_meets mail.listedId mail.named).seq
      · intro s message first
        obtain ⟨grown, names⟩ := first
        apply (ih fun listed member => known listed (List.mem_cons_of_mem _ member)).seq
        · intro after later second
          apply And.intro (grown.trans second.1)
          intro fetched same
          rw [← Except.ok.inj same, List.map_cons, List.map_cons, second.2 later rfl, called_listed]
          exact congrArg (· :: _) (raw_id (names message rfl) mail.named)
        · exact fun after error second => ⟨grown.trans second.1, fun _ same => by cases same⟩
      · exact fun after error first => ⟨first.1, fun _ same => by cases same⟩

theorem poll_meets (transport : AgentMailTransport) {limit : Int} (positive : 0 < limit)
    (distinct : inbox.ids.Nodup) :
    Meets (server transport.doneLabel) (may chosen) (transport.poll limit) inbox
      fun after outcome => Grown transport.doneLabel inbox after ∧ ∀ messages, outcome = .ok messages →
        Window transport.doneLabel limit inbox after (messages.map RawMessage.transportId) := by
  apply And.intro trivial
  intro reply s answered
  have grown := server_grown answered
  cases reply with
  | error error => exact ⟨grown, fun _ same => by cases same⟩
  | ok messages =>
      obtain ⟨middle, arrives, same, lists⟩ := answered
      subst same
      obtain ⟨_, _, labels⟩ := arrives_grown arrives
      have shown := lists messages rfl rfl positive
      subst shown
      apply (fetch_all_meets _).post
      · intro after outcome fetched
        apply And.intro (grown.trans fetched.1)
        intro messages ended
        rw [fetched.2 messages ended]
        constructor
        · intro id member arrived
          obtain ⟨mail, listed, named, _⟩ := mem_fresh.mp member
          have still := (mem_first s limit.toNat (grown.order.subset arrived)).mp ⟨mail, listed, named⟩
          exact Nat.lt_of_le_of_lt (grown.ahead distinct arrived) still
        · intro id arrived early unlabelled
          have stored := grown.order.subset arrived
          have before := Nat.lt_of_le_of_lt (fetched.1.ahead (grown.distinct distinct) stored) early
          obtain ⟨mail, listed, named⟩ := (mem_first s limit.toNat stored).mpr before
          apply mem_fresh.mpr
          refine ⟨mail, listed, named, fun carries => unlabelled (labels id ?_)⟩
          exact ⟨mail, List.mem_of_mem_take listed, named, carries⟩
      · intro listed member
        obtain ⟨stored, _⟩ := List.mem_filter.mp ((sort_perm _).mem_iff.mp member)
        obtain ⟨mail, _, same⟩ := List.mem_map.mp stored
        exact ⟨mail, same⟩

end Polls

theorem ack_meets (transport : AgentMailTransport) {messages : List RawMessage}
    (handled : ∀ message ∈ messages, message.transportId ∈ inbox.handled) :
    Meets (server transport.doneLabel) (may chosen) (transport.ack messages) inbox
      fun after _ => Grown transport.doneLabel inbox after := by
  induction messages generalizing inbox with
  | nil => exact .refl inbox
  | cons message rest ih =>
      have labels : Meets (server transport.doneLabel) (may chosen) (exceptWhere Exn.isException
          (call (.updateLabels message.transportId [transport.doneLabel])) fun _ => .ret ()) inbox
          fun after _ => Grown transport.doneLabel inbox after := by
        apply (meets_catch _ _ _ _).mpr
        apply And.intro (handled message List.mem_cons_self)
        intro reply middle answered
        have grown := server_grown answered
        cases reply with
        | ok value => exact grown
        | error error =>
            change Meets _ _ (if error.isException then _ else _) middle _
            split_ifs
            · exact grown
            · exact grown
      apply labels.seq
      · intro middle _ grown
        apply (ih _).post
        · exact fun _ _ later => grown.trans later
        · intro later member
          exact grown.handled _ (handled later (List.mem_cons_of_mem _ member))
      · exact fun _ _ grown => grown

theorem acknowledge_meets [MailLibrary] (transport : AgentMailTransport) (plane : ControlPlane)
    {messages : List RawMessage}
    (handled : ∀ message ∈ messages, message.transportId ∈ inbox.handled) :
    Meets (server transport.doneLabel) (may chosen)
      (transport.courier.inbound (plane.acknowledge messages)) inbox
      fun after _ => Grown transport.doneLabel inbox after :=
  transport.courier.acknowledge_meets plane (Grown transport.doneLabel inbox)
    ((meets_settle _ _ _).mpr (ack_meets transport handled)) (.refl inbox)

theorem rounds_meet [MailLibrary] [Unicode] (transport : AgentMailTransport) (plane : ControlPlane)
    (recipient : Option Str) {messages : List RawMessage} (report : IngestReport)
    (choose : ∀ message ∈ messages, chosen message.transportId) :
    Meets (server doneLabel) (may chosen)
      (transport.courier.ingestEach plane recipient messages report) inbox
      fun after outcome => Grown doneLabel inbox after ∧ ∀ report, outcome = .ok report →
        ∀ message ∈ messages, message.transportId ∈ after.handled := by
  let holds (waiting : List RawMessage) (s : Inbox) : Prop := Grown doneLabel inbox s ∧
    waiting ⊆ messages ∧ ∀ message ∈ messages, message ∈ waiting ∨ message.transportId ∈ s.handled
  have ingested : ∀ waiting s (program : DearAgent.Code IngestReport), holds waiting s →
      Asks ControlPlane.Looping program → Meets (server doneLabel) (may chosen)
        (transport.courier.inbound program) s fun after _ => holds waiting after := by
    intro waiting s program held asks
    have reading : Asks Reading (transport.courier.inbound program) :=
      transport.courier.asks_inbound (fun _ _ => ⟨trivial, fun _ => trivial⟩) asks
    apply (asks_grown reading_may reading).post
    intro after _ grown
    refine ⟨held.1.trans grown, held.2.1, fun message member => ?_⟩
    exact (held.2.2 message member).imp_right (grown.handled _)
  have marked : ∀ first rest s, holds (first :: rest) s →
      Meets (server doneLabel) (may chosen) (transport.courier.mark first) s fun after outcome =>
        outcome = .ok () ∧ holds rest after := by
    intro first rest s held
    apply And.intro (choose first (held.2.1 List.mem_cons_self))
    intro _ s' answered
    have grown := server_grown answered
    have own : first.transportId ∈ s'.handled := by
      obtain ⟨middle, _, done⟩ := answered
      rw [show s' = middle.handle first.transportId from done]
      exact List.mem_append_right _ (List.mem_singleton_self _)
    refine ⟨rfl, held.1.trans grown, fun _ later => held.2.1 (List.mem_cons_of_mem _ later), ?_⟩
    intro message member
    cases held.2.2 message member with
    | inl waits =>
        cases List.mem_cons.mp waits with
        | inl same => exact .inr (same ▸ own)
        | inr later => exact .inl later
    | inr done => exact .inr (grown.handled _ done)
  have start : holds messages inbox :=
    ⟨.refl inbox, List.Subset.refl messages, fun _ member => .inl member⟩
  apply (transport.courier.rounds_meet plane recipient holds ingested marked report start).post
  intro after outcome ended
  obtain ⟨waiting, held, none⟩ := ended
  apply And.intro held.1
  intro report returned message member
  cases held.2.2 message member with
  | inl waits =>
      rw [none report returned] at waits
      exact absurd waits List.not_mem_nil
  | inr done => exact done

variable [Unicode]

/-- A pass handles what its window holds, and a message behind the window it leaves alone. -/
theorem pass_meets [MailLibrary] (transport : AgentMailTransport) (plane : ControlPlane) {limit : Int}
    (positive : 0 < limit) (recipient : Option Str) (distinct : inbox.ids.Nodup)
    (choose : ∀ id, (id ∈ inbox.ids → inbox.ahead id < limit.toNat) → chosen id) :
    Meets (server transport.doneLabel) (may chosen) (transport.pass plane limit recipient) inbox
      fun after outcome => Grown transport.doneLabel inbox after ∧ ∀ report, outcome = .ok report →
        ∀ id ∈ inbox.ids, after.ahead id < limit.toNat →
          ¬inbox.Labelled transport.doneLabel id → id ∈ after.handled := by
  apply (poll_meets transport positive distinct).seq
  · intro s messages polled
    obtain ⟨grown, shows⟩ := polled
    have window := shows messages rfl
    have wanted : ∀ message ∈ messages, chosen message.transportId := by
      intro message member
      exact choose _ (window.within _ (List.mem_map_of_mem member))
    apply (rounds_meet transport plane recipient {} wanted).seq
    · intro s' report ended
      have handled := ended.2 report rfl
      have acknowledged : ∀ message ∈ messages.map id, message.transportId ∈ s'.handled := by
        rw [List.map_id]
        exact handled
      apply (acknowledge_meets transport plane acknowledged).seq
      · intro after _ labelled
        have onward := grown.trans (ended.1.trans labelled)
        apply And.intro onward
        intro _ _ id arrived early unlabelled
        have later := (ended.1.trans labelled).ahead (grown.distinct distinct)
          (grown.order.subset arrived)
        have polled := window.whole id arrived (Nat.lt_of_le_of_lt later early) unlabelled
        obtain ⟨message, member, named⟩ := List.mem_map.mp polled
        exact labelled.handled id (named ▸ handled message member)
      · exact fun _ _ labelled => ⟨grown.trans (ended.1.trans labelled), fun _ same => by cases same⟩
    · exact fun _ _ ended => ⟨grown.trans ended.1, fun _ same => by cases same⟩
  · exact fun _ _ polled => ⟨polled.1, fun _ same => by cases same⟩

end Passes

/-!
## Runs
-/

section Runs

variable [MailLibrary] [Unicode] {transport : AgentMailTransport} {inbox after : Inbox} {id : Str}

/-- Mail comes in, or a pass that polls at most so many messages begins and is over wherever it
stopped: at its end, with an exception, or because the process died. -/
inductive Step (transport : AgentMailTransport) (widest : Nat) : Inbox → Inbox → Prop
  | arrive {inbox after : Inbox} (arrival : Arrival transport.doneLabel inbox after) :
      Step transport widest inbox after
  | pass {inbox stop : Inbox} (plane : ControlPlane) (limit : Int) (recipient : Option Str)
      (positive : 0 < limit) (narrow : limit.toNat ≤ widest)
      (reached : Reaches (server transport.doneLabel) (transport.pass plane limit recipient)
        inbox stop) : Step transport widest inbox stop

abbrev Run (transport : AgentMailTransport) (widest : Nat) : Inbox → Inbox → Prop :=
  Relation.ReflTransGen (Step transport widest)

variable {widest : Nat}

theorem any_pass_meets (transport : AgentMailTransport) (plane : ControlPlane) {limit : Int}
    (positive : 0 < limit) (recipient : Option Str) (distinct : inbox.ids.Nodup) :
    Meets (server transport.doneLabel) (may fun _ => True) (transport.pass plane limit recipient)
      inbox fun after outcome => Grown transport.doneLabel inbox after ∧ ∀ report,
        outcome = .ok report → ∀ id ∈ inbox.ids, after.ahead id < limit.toNat →
          ¬inbox.Labelled transport.doneLabel id → id ∈ after.handled :=
  pass_meets transport plane positive recipient distinct fun _ _ => trivial

theorem step_keeps (kept : Kept transport.doneLabel inbox) (step : Step transport widest inbox after) :
    Kept transport.doneLabel after := by
  cases step with
  | arrive arrival =>
      obtain ⟨grown, handled, labels⟩ := arrives_grown (.single arrival)
      constructor
      · exact grown.distinct kept.distinct
      · intro id carried
        rw [handled]
        exact kept.handled id (labels id carried)
  | pass plane limit recipient positive _ reached =>
      have meets := any_pass_meets transport plane positive recipient kept.distinct
      exact meets.reaches reached
        (fun _ _ _ _ before permitted answered => server_keeps before permitted answered) kept

theorem run_keeps (run : Run transport widest inbox after) (kept : Kept transport.doneLabel inbox) :
    Kept transport.doneLabel after := by
  induction run with
  | refl => exact kept
  | tail _ step ih => exact step_keeps ih step

/-- Too many messages are listed before this one. -/
structure Starved (widest : Nat) (id : Str) (inbox : Inbox) : Prop where
  distinct : inbox.ids.Nodup
  arrived : id ∈ inbox.ids
  behind : widest ≤ inbox.ahead id
  unhandled : id ∉ inbox.handled

omit [MailLibrary] [Unicode] in
theorem Starved.grown {doneLabel : Str} (starved : Starved widest id inbox)
    (grown : Grown doneLabel inbox after) (unhandled : id ∉ after.handled) :
    Starved widest id after where
  distinct := grown.distinct starved.distinct
  arrived := grown.order.subset starved.arrived
  behind := Nat.le_trans starved.behind (grown.ahead starved.distinct starved.arrived)
  unhandled := unhandled

omit [MailLibrary] [Unicode] in
theorem server_spares {doneLabel : Str} {request : Request} {reply : request.Reply}
    (starved : Starved widest id inbox) (permitted : may (· ≠ id) inbox request)
    (answered : server doneLabel request inbox reply after) : Starved widest id after := by
  apply starved.grown (server_grown answered)
  obtain ⟨middle, arrives, answers⟩ := answered
  have before : id ∉ middle.handled := by
    rw [(arrives_grown arrives).2.1]
    exact starved.unhandled
  obtain same | ⟨messageId, add, _, labelled⟩ | ⟨other, asked, ended⟩ := answer_cases answers
  · rwa [same]
  · rw [labelled]
    exact before
  · rw [asked] at permitted
    rw [ended]
    intro member
    cases List.mem_append.mp member with
    | inl earlier => exact before earlier
    | inr own => exact permitted (List.mem_singleton.mp own).symm

theorem step_starves (starved : Starved widest id inbox) (step : Step transport widest inbox after) :
    Starved widest id after := by
  cases step with
  | arrive arrival =>
      obtain ⟨grown, handled, _⟩ := arrives_grown (.single arrival)
      apply starved.grown grown
      rw [handled]
      exact starved.unhandled
  | pass plane limit recipient positive narrow reached =>
      have others : ∀ other, (other ∈ inbox.ids → inbox.ahead other < limit.toNat) → other ≠ id := by
        intro other early same
        subst same
        have near := early starved.arrived
        have far := starved.behind
        omega
      exact (pass_meets transport plane positive recipient starved.distinct others).reaches reached
        (fun _ _ _ _ before permitted answered => server_spares before permitted answered) starved

theorem run_starves (run : Run transport widest inbox after) (starved : Starved widest id inbox) :
    Starved widest id after := by
  induction run with
  | refl => exact starved
  | tail _ step ih => exact step_starves ih step

/-- What becomes of a message is decided by the number of messages listed before it: the done
messages among them count, for a label takes nothing out of the listing. -/
structure Decided (transport : AgentMailTransport) (inbox : Inbox) (id : Str) : Prop where
  labelledLast : inbox.Labelled transport.doneLabel id → id ∈ inbox.handled
  reached : ∀ (plane : ControlPlane) (limit : Int) (recipient : Option Str)
    (trace : List (Exchange signature)) (report : IngestReport) (after : Inbox), 0 < limit →
    Exec (server transport.doneLabel) (transport.pass plane limit recipient) inbox trace
      (.ok report) after → after.ahead id < limit.toNat → id ∈ after.handled
  starved : ∀ (widest : Nat) (after : Inbox), widest ≤ inbox.ahead id → id ∉ inbox.handled →
    Run transport widest inbox after →
    id ∉ after.handled ∧ ¬after.Labelled transport.doneLabel id ∧ widest ≤ after.ahead id

/-- Wherever passes stopped before and wherever mail came in: a message is handled by the next pass
that comes to its end with fewer messages before it than the pass polls, and with as many messages
before it as any pass polls it is handled by none. -/
theorem window_decides (run : Run transport widest {} inbox) (id : Str) (arrived : id ∈ inbox.ids) :
    Decided transport inbox id := by
  have empty : Kept transport.doneLabel {} := by
    constructor
    · exact List.nodup_nil
    · intro id carried
      obtain ⟨mail, member, _⟩ := carried
      exact absurd member List.not_mem_nil
  have kept := run_keeps run empty
  constructor
  · exact kept.handled id
  · intro plane limit recipient trace report after positive completed early
    have meets := any_pass_meets transport plane positive recipient kept.distinct
    obtain ⟨grown, handles⟩ := meets.sound completed
    by_cases labelled : inbox.Labelled transport.doneLabel id
    · exact grown.handled id (kept.handled id labelled)
    · exact handles report rfl id arrived early labelled
  · intro narrow after behind unhandled later
    have still := run_starves later ⟨kept.distinct, arrived, behind, unhandled⟩
    have keeps := run_keeps later kept
    exact ⟨still.unhandled, fun labelled => still.unhandled (keeps.handled id labelled), still.behind⟩

end Runs

section Example

local instance agentTables : Unicode := asciiTables

local instance agentMail : MailLibrary where
  parseaddr address := ([], address)
  hexdigest _ := []

def letter (id : Str) (named : id ≠ []) : Mail where
  id := id
  listed := { message := { messageId := some id, threadId := none, text := none } }
  full := { messageId := some id, threadId := none, text := some "repo: acme/widget" }
  named := named
  listedId := rfl
  fullId := rfl

def older : Mail := letter "<m1@agentmail.to>" (by decide)

def newer : Mail := letter "<m2@agentmail.to>" (by decide)

def twoLetters : Inbox := { mails := [older, newer] }

def Inbox.lookup (inbox : Inbox) (messageId : Str) : Except Exn AgentMessage :=
  match inbox.mails.find? fun mail => mail.id = messageId with
  | some mail => .ok mail.full
  | none => .error (.otherException "AgentMailError" "404")

theorem lookup_found {inbox : Inbox} {messageId : Str} {message : AgentMessage}
    (looked : inbox.lookup messageId = .ok message) :
    ∃ mail ∈ inbox.mails, mail.id = messageId ∧ mail.full = message := by
  unfold Inbox.lookup at looked
  split at looked
  · rename_i mail found
    have named := List.find?_some found
    exact ⟨mail, List.mem_of_find?_eq_some found, of_decide_eq_true named, Except.ok.inj looked⟩
  · cases looked

/-- A server that carries out what it is asked, in a system that denies every message. -/
def denying : (request : signature.Request) → Inbox → signature.Reply request × Inbox
  | .command (.listMessages _ limit), inbox =>
      (.ok ((inbox.mails.take limit.toNat).map Mail.listed), inbox)
  | .command (.getMessage messageId), inbox => (inbox.lookup messageId, inbox)
  | .command (.updateLabels messageId add), inbox => (.ok (), inbox.label messageId add)
  | .port _, inbox => (.error (.unauthorizedSender none), inbox)
  | .processed id, inbox => ((), inbox.handle id)

theorem denying_answers (doneLabel : Str) (request : signature.Request) (inbox : Inbox) :
    server doneLabel request inbox (denying request inbox).1 (denying request inbox).2 := by
  refine ⟨inbox, .refl, ?_⟩
  cases request with
  | command asked =>
      cases asked with
      | listMessages labels limit => exact ⟨rfl, fun _ same _ _ => (Except.ok.inj same).symm⟩
      | getMessage messageId => exact ⟨rfl, fun _ same => lookup_found same⟩
      | updateLabels messageId add => exact .inr rfl
  | port request => rfl
  | processed id => rfl

def onePass (inbox : Inbox) : List (Exchange signature) × Except Exn IngestReport × Inbox :=
  run denying (AgentMailTransport.pass {} { gate := true, ack := true } 1 none) inbox

/-- Passes that poll one message handle the first of two, and never the second. -/
theorem second_letter_waits :
    older.id ∈ (onePass (onePass twoLetters).2.2).2.2.handled ∧
      newer.id ∉ (onePass (onePass twoLetters).2.2).2.2.handled := by
  have executed := exec_run (server ({} : AgentMailTransport).doneLabel) denying (denying_answers _)
    (AgentMailTransport.pass {} { gate := true, ack := true } 1 none)
  have first : Step {} 1 twoLetters (onePass twoLetters).2.2 :=
    .pass _ 1 none (by decide) (by decide) (reaches_end (executed _))
  have second : Step {} 1 (onePass twoLetters).2.2 (onePass (onePass twoLetters).2.2).2.2 :=
    .pass _ 1 none (by decide) (by decide) (reaches_end (executed _))
  have came : Run {} 1 {} twoLetters :=
    (Relation.ReflTransGen.single (.arrive (.deliver [] [] older rfl (by decide) (by decide)))).tail
      (.arrive (.deliver [older] [] newer rfl (by decide) (by decide)))
  have later : Run {} 1 twoLetters (onePass (onePass twoLetters).2.2).2.2 := .tail (.single first) second
  constructor
  · have completed := executed (onePass twoLetters).2.2
    exact (window_decides (came.tail first) older.id (by decide)).reached _ 1 none _ _ _ (by decide)
      completed (by decide)
  · exact ((window_decides came newer.id (by decide)).starved 1 _ (by decide) (by decide) later).1

end Example

end DearAgent.AgentMail
