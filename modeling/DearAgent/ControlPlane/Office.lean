import DearAgent.World
import DearAgent.ControlPlane

/-!
# An ingest where everything but the mail works

The surroundings of one `ingest` whose stores, policies, deciders and gate do
what they are asked for, while a message may be refused by the transport. What
a round of the loop does is told from the desk it leaves: the stores, the gate
and the mail that went out.
-/

namespace DearAgent.ControlPlane

open DearAgent.Lib.Text DearAgent.Lib.Effects DearAgent.Queue

set_option autoImplicit false

/-- The collaborators of an ingest. A gate may keep a state of its own, with the
readings of its clock in it; `delivers` says what sending a message can come to. -/
structure Office (G : Type) where
  admission : Str → Headers → Option Str → G → Except Exn Unit × G
  policies : List ProjectPolicy
  policyForRepo : Str → Option ProjectPolicy
  judges : Request → Bool → Prop
  judged : ∀ request, ∃ verdict, judges request verdict
  delivers : OutboundMessage → Except Exn Unit → Prop

structure Desk (Q : QueueBackend) (A : ApprovalBackend) (G : Type) where
  world : World Q A
  gate : G
  sent : List OutboundMessage := []

variable {Q : QueueBackend} {A : ApprovalBackend} {G : Type}

namespace Desk

def board (desk : Desk Q A G) : Board := desk.world.board

def ledger (desk : Desk Q A G) : Ledger := desk.world.ledger

end Desk

/-- The event log and the acknowledgement fail with an `Exception` at most. -/
def BestEffort {α : Type} (reply : Except Exn α) : Prop :=
  ∀ error, reply = .error error → error.isException = true

def Office.surroundings (office : Office G) : Env ports (Desk Q A G)
  | .queue op, desk, reply, after =>
      ∃ world, Served Q A (.queue op) desk.world reply world ∧ after = { desk with world := world }
  | .issue taskId action, desk, reply, after =>
      (∃ approval, reply = .ok approval) ∧ ∃ world,
        Served Q A (.issue taskId action) desk.world reply world ∧
          after = { desk with world := world }
  | .approvalOf token, desk, reply, after => ∃ world,
      Served Q A (.approvalOf token) desk.world reply world ∧ after = { desk with world := world }
  | .redeem decided, desk, reply, after => ∃ world,
      Served Q A (.redeem decided) desk.world reply world ∧ after = { desk with world := world }
  | .admission body headers sender, desk, reply, after =>
      reply = (office.admission body headers sender desk.gate).1 ∧
        after = { desk with gate := (office.admission body headers sender desk.gate).2 }
  | .listPolicies, desk, reply, after => reply = .ok office.policies ∧ after = desk
  | .policyForRepo repo, desk, reply, after =>
      reply = .ok (office.policyForRepo repo) ∧ after = desk
  | .scan body, desk, reply, after =>
      (∃ verdict, office.judges (.scan body) verdict ∧ reply = .ok verdict) ∧ after = desk
  | .assess body, desk, reply, after =>
      (∃ verdict, office.judges (.assess body) verdict ∧ reply = .ok verdict) ∧ after = desk
  | .needsHuman text, desk, reply, after =>
      (∃ verdict, office.judges (.needsHuman text) verdict ∧ reply = .ok verdict) ∧ after = desk
  | .send message, desk, reply, after => office.delivers message reply ∧
      after = if reply = .ok () then { desk with sent := desk.sent ++ [message] } else desk
  | .record _ _ _, desk, reply, after => BestEffort reply ∧ after = desk
  | .ack _, desk, reply, after => BestEffort reply ∧ after = desk
  | _, desk, _, after => after = desk

/-!
## Which tasks are known
-/

/-- A task with this id or with this transport id is stored. -/
def Known (board : Board) (id : Str) : Prop :=
  ∃ key stored, board key = some stored ∧ (key = id ∨ stored.transportId = id)

theorem taken_iff_known {board : Board} {task : Task} {id : Str} (same : task.id = id)
    (sameTransport : task.transportId = id) : Taken board task ↔ Known board id := by
  unfold Taken Known
  rw [same, sameTransport]

section Boards

variable {board board' : Board} {reply : Except Exn Task} {id : Str} {now : Instant}

theorem put_known {stored moved : Task} (found : board moved.id = some stored)
    (same : moved.transportId = stored.transportId) :
    Known (board.put moved) id ↔ Known board id := by
  constructor
  · rintro ⟨key, other, located, names⟩
    by_cases equal : key = moved.id
    · rw [equal] at located names
      have put := Option.some.inj ((board_put_self board moved).symm.trans located)
      exact ⟨moved.id, stored, found, names.imp_right fun transport => by rw [← same, put, transport]⟩
    · rw [board_put_ne _ _ _ equal] at located
      exact ⟨key, other, located, names⟩
  · rintro ⟨key, other, located, names⟩
    by_cases equal : key = moved.id
    · rw [equal] at located names
      obtain rfl : stored = other := Option.some.inj (found.symm.trans located)
      exact ⟨moved.id, moved, board_put_self board moved, names.imp_right same.trans⟩
    · exact ⟨key, other, by rw [board_put_ne _ _ _ equal]; exact located, names⟩

theorem transition_known {task : Task} {toState : TaskState} {evidence : Option Evidence}
    (filed : board.Filed)
    (spec : Spec now (.transition task toState evidence) board reply board') :
    Known board' id ↔ Known board id := by
  obtain ⟨_, _, rfl⟩ | ⟨_, _, _, _, rfl⟩ | ⟨stored, moved, found, _, ⟨merged, _, same⟩, _, rfl⟩ := spec
  · rfl
  · rfl
  · have own : stored.id = task.id := filed _ _ found
    have movedId : moved.id = task.id := by rw [same, own]
    have transport : moved.transportId = stored.transportId := by rw [same]
    exact put_known (movedId ▸ found) transport

theorem enqueue_known {task : Task} {state : TaskState} {own : Str}
    {reply : Except Exn (Option Task)} (same : task.id = own) (sameTransport : task.transportId = own)
    (spec : Spec now (.enqueue task state) board reply board') :
    Known board' id ↔ Known board id ∨ id = own := by
  rcases spec with ⟨taken, _, rfl⟩ | ⟨free, stored, stores, _, rfl⟩
  · have known := (taken_iff_known same sameTransport).mp taken
    exact ⟨.inl, fun either => either.elim (fun before => before) fun equal => equal ▸ known⟩
  · have storedId : stored.id = own := stores.id.trans same
    have storedTransport : stored.transportId = own := stores.transportId.trans sameTransport
    have fresh : ∀ key other, board key = some other → key ≠ own := fun key other found equal =>
      free ((taken_iff_known same sameTransport).mpr ⟨key, other, found, .inl equal⟩)
    constructor
    · rintro ⟨key, other, located, names⟩
      by_cases equal : key = stored.id
      · rw [equal] at located names
        have put := Option.some.inj ((board_put_self board stored).symm.trans located)
        rw [← put, storedId, storedTransport] at names
        exact .inr (names.elim Eq.symm Eq.symm)
      · rw [board_put_ne _ _ _ equal] at located
        exact .inl ⟨key, other, located, names⟩
    · rintro (⟨key, other, located, names⟩ | rfl)
      · refine ⟨key, other, ?_, names⟩
        rw [board_put_ne _ _ _ fun equal => fresh key other located (equal.trans storedId)]
        exact located
      · exact ⟨stored.id, stored, board_put_self board stored, .inl storedId⟩

end Boards

/-!
## Which messages are taken
-/

section Messages

variable [Unicode] (plane : ControlPlane) (office : Office G) (recipient : Option Str)

/-- What `_authorize` comes to. -/
def verdict (message : RawMessage) (gate : G) : Except Exn Unit :=
  if plane.gate then (office.admission message.body message.headers message.sender gate).1 else .ok ()

/-- How a verdict comes back from `_authorize`. -/
def heard : Except Exn Unit → Except Exn (Except Exn Unit)
  | .ok _ => .ok (.ok ())
  | .error error => if error.isAuthError then .ok (.error error) else .error error

def gateAfter (message : RawMessage) (gate : G) : G :=
  if plane.gate then (office.admission message.body message.headers message.sender gate).2 else gate

def gateAfterAll (messages : List RawMessage) (gate : G) : G :=
  messages.foldl (fun gate message => gateAfter plane office message gate) gate

/-- What `_repo_allowed` comes to. -/
def allows (repo : Str) : Bool :=
  if !plane.policies || office.policies.isEmpty then !plane.requirePolicy
  else (office.policyForRepo repo).any ProjectPolicy.enabled

def decides (message : RawMessage) : Bool := (decisionOf message).isSome && plane.approvals

/-- The task of a message that normalizes to an allowed repository, or why it is
turned down. -/
def taskFor (message : RawMessage) : Except Rejected NormalizedTask :=
  match normalize message recipient with
  | .error rejected => .error rejected
  | .ok result =>
      if allows plane office result.spec.repoUrl then .ok result
      else .error ⟨message.transportId, .notAllowed, result.spec.repoUrl⟩

/-- The gate admits the message, and it is no decision and not turned down. -/
def Acceptable (message : RawMessage) (gate : G) : Prop :=
  verdict plane office message gate = .ok () ∧ decides plane message = false ∧
    ∃ result, taskFor plane office recipient message = .ok result

end Messages

/-!
## What an answer leaves behind
-/

section Turns

variable {α : Type} {office : Office G} {desk after : Desk Q A G}

/-- No task becomes known and the gate is not asked. -/
structure Undisturbed (desk after : Desk Q A G) : Prop where
  gate : after.gate = desk.gate
  known : ∀ id, Known after.board id ↔ Known desk.board id

theorem Undisturbed.refl (desk : Desk Q A G) : Undisturbed desk desk := ⟨rfl, fun _ => Iff.rfl⟩

theorem Undisturbed.trans {middle : Desk Q A G} (first : Undisturbed desk middle)
    (second : Undisturbed middle after) : Undisturbed desk after :=
  ⟨second.gate.trans first.gate, fun id => (second.known id).trans (first.known id)⟩

/-- Neither a message is admitted nor a task enqueued. -/
def Tame : Request → Prop
  | .admission _ _ _ => False
  | .queue op => match op with
    | .get _ | .transition _ _ _ => True
    | _ => False
  | _ => True

theorem tame_undisturbed {request : Request} {reply : ports.Reply request} (tame : Tame request)
    (answered : office.surroundings request desk reply after) : Undisturbed desk after := by
  have same : ∀ world : World Q A, world.board = desk.board →
      Undisturbed desk { desk with world := world } :=
    fun world equal => ⟨rfl, fun id => by change Known world.board id ↔ _; rw [equal]⟩
  cases request with
  | queue op =>
      obtain ⟨world, served, rfl⟩ := answered
      obtain ⟨⟨now, spec⟩, _⟩ := served_spec served
      cases op with
      | get id => exact same world spec.2
      | transition task toState evidence =>
          exact ⟨rfl, fun id => transition_known (Q.filed _) spec⟩
      | _ => exact absurd tame not_false
  | issue taskId action =>
      obtain ⟨_, world, ⟨readings, _, served⟩, rfl⟩ := answered
      exact same world (approval_served served).2
  | approvalOf token =>
      obtain ⟨world, ⟨readings, served⟩, rfl⟩ := answered
      exact same world (approval_served served).2
  | redeem decided =>
      obtain ⟨world, ⟨readings, served⟩, rfl⟩ := answered
      exact same world (approval_served served).2
  | send message =>
      obtain ⟨_, rfl⟩ := answered
      split_ifs
      · exact ⟨rfl, fun _ => Iff.rfl⟩
      · exact .refl desk
  | record _ _ _ | ack _ | listPolicies | policyForRepo _ | scan _ | assess _ | needsHuman _ =>
      obtain ⟨_, rfl⟩ := answered
      exact .refl _
  | _ =>
      first
      | exact absurd tame not_false
      | obtain rfl : after = desk := answered
        exact .refl after

theorem tame_meets {program : Code α} (asks : Asks Tame program) {base : Desk Q A G}
    (undisturbed : Undisturbed base desk) :
    Meets office.surroundings (fun _ _ => True) program desk fun after _ => Undisturbed base after :=
  asks.meets (Undisturbed base) (fun _ _ _ _ => trivial)
    (fun _ _ _ _ before tame answered => before.trans (tame_undisturbed tame answered)) undisturbed

theorem answering_tame (request : Request) (answering : Answering request) : Tame request := by
  cases request <;> trivial

theorem deciding_tame (request : Request) (deciding : Deciding request) : Tame request := by
  cases request with
  | queue op => cases op <;> trivial
  | _ => trivial

end Turns

/-!
## An office to run a plane in
-/

section Plain

variable (sends : OutboundMessage → Except Exn Unit)

/-- Everything is admitted, nothing is flagged, there are no policies, and the
transport sends what it can. -/
def plainOffice : Office Unit where
  admission _ _ _ gate := (.ok (), gate)
  policies := []
  policyForRepo _ := none
  judges _ verdict := verdict = false
  judged _ := ⟨false, rfl⟩
  delivers message reply := reply = sends message

def plainReply (request : Request) : Except Exn request.Result :=
  match request with
  | .listPolicies => .ok []
  | .policyForRepo _ => .ok none
  | .scan _ | .assess _ | .needsHuman _ => .ok false
  | .admission _ _ _ | .ack _ => .ok ()
  | _ => .error .assertionError

/-- The answers of such an office, with one reading of the clock and one token. -/
def plainly (readings : Readings) (request : Request) (desk : Desk Q A Unit) :
    Except Exn request.Result × Desk Q A Unit :=
  match request with
  | .send message =>
      (sends message,
        if sends message = .ok () then { desk with sent := desk.sent ++ [message] } else desk)
  | request =>
      let answer := answering readings plainReply request desk.world
      (answer.1, { desk with world := answer.2 })

def issues : Exchange ports → Bool
  | ⟨.issue _ _, .error _⟩ => false
  | _ => true

variable {sends}

theorem plainly_faithful {readings : Readings} (request : Request) (desk : Desk Q A Unit)
    (issued : issues ⟨request, (plainly sends readings request desk).1⟩ = true) :
    (plainOffice sends).surroundings request desk (plainly sends readings request desk).1
      (plainly sends readings request desk).2 := by
  have works := answering_works readings plainReply request desk.world
  cases request with
  | queue op => exact ⟨_, works.2, rfl⟩
  | issue taskId action =>
      have succeeds : ∃ approval, (plainly sends readings (.issue taskId action) desk).1 =
          .ok approval := by
        generalize (plainly sends readings (.issue taskId action) desk).1 = reply at issued
        cases reply with
        | ok approval => exact ⟨approval, rfl⟩
        | error error => cases issued
      refine ⟨succeeds, _, ?_, rfl⟩
      rcases works.1 with served | ⟨_, ⟨error, refused, _⟩, _⟩
      · exact served
      · obtain ⟨approval, granted⟩ := succeeds
        have same : (plainly sends readings (.issue taskId action) desk).1 = .error error := refused
        rw [granted] at same
        cases same
  | approvalOf token => exact ⟨_, ⟨readings, rfl, rfl⟩, rfl⟩
  | redeem decided => exact ⟨_, ⟨readings, rfl, rfl⟩, rfl⟩
  | send message => exact ⟨rfl, rfl⟩
  | scan body | assess body | needsHuman body => exact ⟨⟨false, rfl, rfl⟩, rfl⟩
  | record taskId kind data => exact ⟨(by rintro _ ⟨⟩), rfl⟩
  | ack messages => exact ⟨(by rintro _ ⟨⟩), rfl⟩
  | listPolicies | policyForRepo repo => exact ⟨rfl, rfl⟩
  | _ => first | exact rfl | exact ⟨rfl, rfl⟩

theorem plain_executes {α : Type} {program : Code α} {readings : Readings} {desk : Desk Q A Unit}
    (issued : ∀ event ∈ (run (plainly sends readings) program desk).1, issues event = true) :
    Exec (plainOffice sends).surroundings program desk (run (plainly sends readings) program desk).1
      (run (plainly sends readings) program desk).2.1
      (run (plainly sends readings) program desk).2.2 := by
  have observed := exec_run (fun request desk reply after => (reply, after) =
    plainly sends readings request desk) (plainly sends readings) (fun _ _ => rfl) program desk
  refine exec_where observed issued fun request desk reply after issued same => ?_
  obtain ⟨rfl, rfl⟩ := Prod.mk.inj same
  exact plainly_faithful request desk issued

end Plain

end DearAgent.ControlPlane
