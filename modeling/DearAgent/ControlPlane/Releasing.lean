import DearAgent.System.Terminal

/-!
# Whether a parked task can be released

A task that an ingest stores in `action` runs only after a reply that names one
of its tokens, so it has to have one. The task is stored first and the token is
issued afterwards, and a message that comes a second time is not taken again:
what is lost in between stays lost.
-/

namespace DearAgent.ControlPlane

open DearAgent.Lib.Text DearAgent.Lib.Effects DearAgent.Queue

set_option autoImplicit false

/-!
## The wiring of the inbound side
-/

/-- The plane of `_inbound_plane`, over a transport with or without `ack` and with
`DEAR_AGENT_REQUIRE_REPO_POLICY` set or not. Its notifier is built without an
approval service. -/
def inboundPlane (ack requirePolicy : Bool) : ControlPlane where
  notifier := some { approvals := false }
  gate := true
  approvals := true
  scanner := true
  security := true
  humanGate := true
  events := true
  policies := true
  requirePolicy := requirePolicy
  ack := ack

/-- The plane of `build_inbound`: its gate is on the webhook. -/
def webhookPlane (ack requirePolicy : Bool) : ControlPlane :=
  { inboundPlane ack requirePolicy with gate := false }

/-- Where the notifier is to send the request, it can issue the token. -/
def Wired (plane : ControlPlane) (recipient : Option Str) : Prop :=
  ∀ notifier, plane.notifier = some notifier → truthy recipient = true → notifier.approvals = true

theorem wired_iff_of_unwired {plane : ControlPlane} (unwired : plane.notifier = some ⟨false⟩)
    (recipient : Option Str) : Wired plane recipient ↔ truthy recipient = false := by
  unfold Wired
  rw [unwired]
  cases truthy recipient with
  | true => simp
  | false => simp

theorem inbound_wired_iff (ack requirePolicy : Bool) (recipient : Option Str) :
    (Wired (inboundPlane ack requirePolicy) recipient ↔ truthy recipient = false) ∧
      (Wired (webhookPlane ack requirePolicy) recipient ↔ truthy recipient = false) :=
  ⟨wired_iff_of_unwired rfl recipient, wired_iff_of_unwired rfl recipient⟩

/-!
## Parked tasks
-/

/-- The tasks that ingests stored in `action`, and the one of them whose token is
still to be issued. -/
structure Parking where
  parked : List Str := []
  awaiting : Option Str := none
deriving DecidableEq

namespace Parking

def observe (parking : Parking) : Exchange ports → Parking
  | ⟨.queue (.enqueue _ .action), .ok (some stored)⟩ =>
      ⟨parking.parked ++ [stored.id], some stored.id⟩
  | ⟨.issue taskId action, .ok _⟩ =>
      if parking.awaiting = some taskId ∧ action = "run".toList then
        { parking with awaiting := none }
      else parking
  | _ => parking

/-- While a token is still to be issued, the approval store issues it and the event
log raises nothing but an `Exception`. -/
def Sound (parking : Parking) : Exchange ports → Prop
  | ⟨.issue _ _, .error _⟩ => parking.awaiting = none
  | ⟨.record _ _ _, .error error⟩ => parking.awaiting = none ∨ error.isException = true
  | _ => True

instance (parking : Parking) (event : Exchange ports) : Decidable (parking.Sound event) := by
  unfold Sound
  split <;> infer_instance

end Parking

variable {Q : QueueBackend} {A : ApprovalBackend}

abbrev Parked (Q : QueueBackend) (A : ApprovalBackend) := World Q A × Parking

def Meanwhile : World Q A → World Q A → Prop :=
  Relation.ReflTransGen fun world after => ∃ request reply,
    surroundings Q A request world reply after

variable (Q A)

def contended : Env ports (World Q A) := fun request world reply after =>
  ∃ middle, Meanwhile world middle ∧ surroundings Q A request middle reply after

def careful : Env ports (Parked Q A) := watching (contended Q A) Parking.observe Parking.Sound

variable {Q A}

def Releasable (world : World Q A) (taskId : Str) : Prop :=
  ∃ token approval, world.ledger token = some approval ∧ approval.taskId = taskId ∧
    approval.action = "run".toList

def Idle (state : Parked Q A) : Prop := state.2.awaiting = none

theorem Idle.same {state after : Parked Q A} (nothing : Idle state) (same : after.2 = state.2) :
    Idle after := by
  unfold Idle
  rw [same]
  exact nothing

/-- Every parked task has a token, but for the one whose token is about to be issued. -/
def Releasing (state : Parked Q A) : Prop :=
  ∀ taskId ∈ state.2.parked, Releasable state.1 taskId ∨ state.2.awaiting = some taskId

/-- Nothing is stored while a token is still to be issued. -/
def MayPark : Parked Q A → Request → Prop
  | state, .queue (.enqueue _ _) => Idle state
  | _, _ => True

section Turns

variable {world after : World Q A} {taskId action : Str}

theorem releasable_kept {request : Request} {reply : ports.Reply request}
    (answered : surroundings Q A request world reply after)
    (releasable : Releasable world taskId) : Releasable after taskId := by
  obtain ⟨token, approval, found, of, use⟩ := releasable
  obtain ⟨kept, still, same⟩ := ledger_keeps_issue answered found
  exact ⟨token, kept, still, same.taskId.trans of, same.action.trans use⟩

theorem releasable_meanwhile (meanwhile : Meanwhile world after)
    (releasable : Releasable world taskId) : Releasable after taskId := by
  induction meanwhile with
  | refl => exact releasable
  | tail _ turn ih =>
      obtain ⟨request, reply, answered⟩ := turn
      exact releasable_kept answered ih

theorem issued_found {approval : Approval}
    (answered : surroundings Q A (.issue taskId action) world (.ok approval) after) :
    after.ledger approval.token = some approval ∧ approval.taskId = taskId ∧
      approval.action = action := by
  have effect := ledger_effect answered approval.token
  generalize world.ledger approval.token = found at effect
  generalize after.ledger approval.token = found' at effect
  cases effect with
  | kept _ _ _ untouched => exact absurd rfl untouched
  | issued _ _ _ _ of use => exact ⟨rfl, of, use⟩

theorem parks_next {parking : Parking} (releasing : Releasing (world, parking))
    (nothing : parking.awaiting = none)
    (still : ∀ id, Releasable world id → Releasable after id) (taskId : Str) :
    Releasing (after, (⟨parking.parked ++ [taskId], some taskId⟩ : Parking)) := by
  intro id member
  rcases List.mem_append.mp member with before | new
  · refine .inl (still id ((releasing id before).resolve_right fun awaited => ?_))
    have awaits : parking.awaiting = some id := awaited
    rw [nothing] at awaits
    cases awaits
  · exact .inr (congrArg some (List.mem_singleton.mp new).symm)

theorem turn_releasing {request : Request} {state final : Parked Q A}
    {reply : ports.Reply request} (releasing : Releasing state) (permitted : MayPark state request)
    (answered : careful Q A request state reply final) : Releasing final := by
  obtain ⟨world, parking⟩ := state
  obtain ⟨after, parking'⟩ := final
  obtain ⟨⟨⟨middle, meanwhile, turn⟩, same⟩, _⟩ := answered
  obtain rfl : parking' = parking.observe ⟨request, reply⟩ := same
  have still : ∀ id, Releasable world id → Releasable after id := fun id releasable =>
    releasable_kept turn (releasable_meanwhile meanwhile releasable)
  have unchanged : parking.observe ⟨request, reply⟩ = parking →
      Releasing (after, parking.observe ⟨request, reply⟩) := by
    intro same
    rw [same]
    exact fun id member => (releasing id member).imp_left (still id)
  cases request with
  | queue op =>
      cases op with
      | enqueue task state =>
          cases state with
          | action =>
              cases reply with
              | error error => exact unchanged rfl
              | ok taken =>
                  cases taken with
                  | none => exact unchanged rfl
                  | some stored => exact parks_next releasing permitted still stored.id
          | _ => exact unchanged rfl
      | _ => exact unchanged rfl
  | issue issuedTo use =>
      cases reply with
      | error error => exact unchanged rfl
      | ok approval =>
          by_cases own : parking.awaiting = some issuedTo ∧ use = "run".toList
          · have cleared : parking.observe ⟨.issue issuedTo use, .ok approval⟩ =
                { parking with awaiting := none } := if_pos own
            rw [cleared]
            obtain ⟨found, of, used⟩ := issued_found turn
            refine fun id member => .inl ((releasing id member).elim (still id) fun awaited => ?_)
            have equal : some id = some issuedTo := Eq.trans (Eq.symm awaited) own.1
            exact ⟨approval.token, approval, found, of.trans (Option.some.inj equal).symm,
              used.trans own.2⟩
          · exact unchanged (if_neg own)
  | _ => exact unchanged rfl

end Turns

/-!
## What an ingest leaves waiting
-/

section Passes

variable {α β : Type} {state : Parked Q A} {recipient : Option Str}

def Unparking : Request → Prop
  | .queue (.enqueue _ _) | .issue _ _ => False
  | _ => True

/-- No token is left to be issued, wherever the program ends. -/
def Settles (program : Code α) (state : Parked Q A) : Prop :=
  Meets (careful Q A) MayPark program state fun after _ => Idle after

theorem unparking_same {request : Request} {after : Parked Q A} {reply : ports.Reply request}
    (unparking : Unparking request) (answered : careful Q A request state reply after) :
    after.2 = state.2 := by
  rw [answered.1.2]
  cases request with
  | queue op =>
      cases op with
      | enqueue task state => exact absurd unparking not_false
      | _ => rfl
  | issue taskId action => exact absurd unparking not_false
  | _ => rfl

theorem unparking_settles {program : Code α} (asks : Asks Unparking program)
    (nothing : Idle state) : Settles program state := by
  refine asks.meets Idle ?_ ?_ nothing
  · intro s request _ unparking
    cases request with
    | queue op =>
        cases op with
        | enqueue task state => exact absurd unparking not_false
        | _ => trivial
    | _ => trivial
  · intro s request reply after nothing unparking answered
    exact Idle.same nothing (unparking_same unparking answered)

theorem Settles.seq {program : Code α} {next : α → Code β} (first : Settles program state)
    (rest : ∀ (after : Parked Q A) value, Idle after → Settles (next value) after) :
    Settles (program >>= next) state :=
  Meets.seq first rest fun _ _ nothing => nothing

theorem answering_unparking (request : Request) (answering : Answering request) :
    Unparking request := by
  cases request <;> trivial

theorem judging_unparking (request : Request) (judging : Judging request) : Unparking request := by
  cases request <;> trivial

theorem deciding_unparking (request : Request) (deciding : Deciding request) :
    Unparking request := by
  cases request with
  | queue op => cases op <;> trivial
  | _ => trivial

theorem emit_awaits {taskId : Str} (awaits : state.2.awaiting = some taskId) (events : Bool)
    (about kind : Str) (data : EventData) :
    Meets (careful Q A) MayPark (emit events about kind data) state fun after outcome =>
      outcome = .ok () ∧ after.2.awaiting = some taskId := by
  unfold emit
  split_ifs
  · have permitted : MayPark state (.record about kind data) := trivial
    apply meets_effort permitted
    intro reply after answered
    constructor
    · rintro error rfl
      have sound : state.2.awaiting = none ∨ error.isException = true := answered.2
      rw [awaits] at sound
      exact sound.resolve_left (Option.some_ne_none taskId)
    · rw [unparking_same (by trivial) answered]
      exact awaits
  · exact ⟨rfl, awaits⟩

theorem request_settles {taskId : Str} (awaits : state.2.awaiting = some taskId)
    {next : Str → Code α}
    (rest : ∀ (after : Parked Q A) token, Idle after → Settles (next token) after) :
    Settles (ApprovalService.request taskId "run" >>= next) state := by
  have permitted : MayPark state (.issue taskId "run") := trivial
  have issued : Meets (careful Q A) MayPark (ApprovalService.request taskId "run") state
      fun after _ => Idle after := by
    refine meets_call_bind permitted (fun approval after answered => ?_) fun error after answered => ?_
    · have observed : after.2 = state.2.observe ⟨.issue taskId "run", .ok approval⟩ := answered.1.2
      change after.2.awaiting = none
      rw [observed]
      exact congrArg Parking.awaiting (if_pos ⟨awaits, rfl⟩)
    · have sound : state.2.awaiting = none := answered.2
      rw [awaits] at sound
      cases sound
  exact Settles.seq issued rest

theorem request_approval_settles {plane : ControlPlane} (wired : Wired plane recipient)
    (task : Task) (reason : GateReason) (awaits : state.2.awaiting = some task.id) :
    Settles (plane.requestApproval task recipient reason) state := by
  refine (emit_awaits awaits plane.events _ _ _).seq (fun s _ emitted => ?_) fun _ _ emitted => ?_
  · split
    · rename_i notifier present addressed
      rw [if_neg (by simp [wired notifier present addressed])]
      refine request_settles emitted.2 fun after token nothing => ?_
      exact unparking_settles (asks_call trivial) nothing
    · exact request_settles emitted.2 fun _ _ nothing => nothing
  · cases emitted.1

theorem store_settles {plane : ControlPlane} (wired : Wired plane recipient)
    (report : IngestReport) (result : NormalizedTask) (reason : Option GateReason)
    (nothing : Idle state) :
    Settles (plane.store recipient report result reason) state := by
  refine meets_call_bind nothing (fun taken after answered => ?_) fun error after answered => ?_
  · have observed := answered.1.2
    cases taken with
    | none =>
        refine nothing.same ?_
        rw [observed]
        cases reason <;> rfl
    | some stored =>
        cases reason with
        | none =>
            have same : after.2 = state.2 := observed
            exact (unparking_settles (asks_event answering_unparking plane _ _ _)
              (nothing.same same)).seq
              fun _ _ nothing => nothing
        | some reason =>
            have awaits : after.2.awaiting = some stored.id := congrArg Parking.awaiting observed
            refine (emit_awaits awaits plane.events _ _ _).seq (fun s _ emitted => ?_)
              fun _ _ emitted => by cases emitted.1
            exact Settles.seq (request_approval_settles wired stored reason emitted.2)
              fun _ _ nothing => nothing
  · refine nothing.same ?_
    rw [answered.1.2]
    cases reason <;> rfl

theorem accept_settles {plane : ControlPlane} (wired : Wired plane recipient)
    (message : RawMessage) (report : IngestReport) (result : NormalizedTask)
    (nothing : Idle state) :
    Settles (plane.accept message recipient report result) state := by
  refine (unparking_settles (asks_flag_suspicious judging_unparking plane message report)
    nothing).seq fun s flag nothing => ?_
  obtain ⟨suspicious, report⟩ := flag
  simp only
  split_ifs
  · exact (unparking_settles (asks_gate_reason judging_unparking plane _ _) nothing).seq
      fun _ reason nothing => store_settles wired report result reason nothing
  · exact store_settles wired report result none nothing

variable [Unicode]

theorem intake_settles {plane : ControlPlane} (wired : Wired plane recipient)
    (report : IngestReport) (message : RawMessage) (nothing : Idle state) :
    Settles (plane.intake recipient report message) state := by
  unfold intake
  split
  · exact unparking_settles (asks_reject answering_unparking plane _ _ _ _ _) nothing
  · refine (unparking_settles (asks_repo_allowed answering_unparking plane _) nothing).seq
      fun _ permitted nothing => ?_
    split_ifs
    · exact accept_settles wired message report _ nothing
    · exact unparking_settles (asks_reject answering_unparking plane _ _ _ _ _) nothing

theorem message_settles {plane : ControlPlane} (wired : Wired plane recipient)
    (report : IngestReport) (message : RawMessage) (nothing : Idle state) :
    Settles (plane.ingestMessage recipient report message) state := by
  refine (unparking_settles (asks_authorize (fun _ _ _ => trivial) plane message) nothing).seq
    fun _ admitted nothing => ?_
  cases admitted with
  | error error =>
      exact unparking_settles
        (asks_bind (asks_event answering_unparking plane _ _ _) fun _ => trivial) nothing
  | ok _ =>
      simp only
      split
      · refine (unparking_settles (asks_decision deciding_unparking plane _ _ _) nothing).seq
          fun _ decided nothing => ?_
        split_ifs <;> exact nothing
      · exact intake_settles wired report message nothing

theorem ingest_settles {plane : ControlPlane} (wired : Wired plane recipient)
    (messages : List RawMessage) (nothing : Idle state) :
    Settles (plane.ingest messages recipient) state := by
  have all : ∀ (messages : List RawMessage) (report : IngestReport) (state : Parked Q A),
      Idle state → Settles (plane.ingestAll recipient messages report) state := by
    intro messages
    induction messages with
    | nil => exact fun _ _ nothing => nothing
    | cons message rest ih =>
        exact fun report state nothing => (message_settles wired report message nothing).seq
          fun s report nothing => ih report s nothing
  refine (all messages {} state nothing).seq fun _ report nothing => ?_
  have acknowledges : Asks Unparking (plane.acknowledge messages) := by
    unfold acknowledge
    split_ifs
    · exact asks_bind (asks_attempt trivial) fun _ => trivial
    · trivial
  exact (unparking_settles acknowledges nothing).seq fun _ _ nothing => nothing

end Passes

/-!
## Runs
-/

section Runs

variable [Unicode]

/-- Others act on the stores, or a pass goes over some messages, new ones or ones
that come again: to its end, or until its process is stopped. -/
inductive Pass (env : Env ports (Parked Q A)) (allowed : ControlPlane → Option Str → Prop)
    (safe : Parked Q A → Prop) : Parked Q A → Parked Q A → Prop
  | others {world after : World Q A} {parking : Parking} (meanwhile : Meanwhile world after) :
      Pass env allowed safe (world, parking) (after, parking)
  | ended {state after : Parked Q A} {trace : List (Exchange ports)}
      {outcome : Except Exn IngestReport} (plane : ControlPlane) (messages : List RawMessage)
      (recipient : Option Str) (wired : allowed plane recipient)
      (execution : Exec env (plane.ingest messages recipient) state trace outcome after) :
      Pass env allowed safe state after
  | stopped {state after : Parked Q A} (plane : ControlPlane) (messages : List RawMessage)
      (recipient : Option Str) (wired : allowed plane recipient)
      (reached : Reaches env (plane.ingest messages recipient) state after) (harmless : safe after) :
      Pass env allowed safe state after

theorem pass_keeps {state after : Parked Q A} (pass : Pass (careful Q A) Wired Idle state after)
    (between : Releasing state ∧ Idle state) : Releasing after ∧ Idle after := by
  obtain ⟨releasing, nothing⟩ := between
  cases pass with
  | others meanwhile =>
      exact ⟨fun id member => (releasing id member).imp_left (releasable_meanwhile meanwhile), nothing⟩
  | ended plane messages recipient wired execution =>
      have settles := ingest_settles wired messages nothing
      exact ⟨Meets.reaches settles (reaches_end execution)
        (fun _ _ _ _ => turn_releasing) releasing, settles.sound execution⟩
  | stopped plane messages recipient wired reached harmless =>
      have settles := ingest_settles wired messages nothing
      exact ⟨settles.reaches reached (fun _ _ _ _ => turn_releasing) releasing, harmless⟩

/-- Where the notifiers can request approvals and nothing fails between the storing
of a parked task and the issue of its token, every parked task has a token. -/
theorem parked_task_is_releasable {world : World Q A} {state : Parked Q A}
    (run : Relation.ReflTransGen (Pass (careful Q A) Wired Idle) (world, {}) state) :
    ∀ taskId ∈ state.2.parked, Releasable state.1 taskId := by
  have between : Releasing state ∧ Idle state := by
    induction run with
    | refl => exact ⟨fun _ member => absurd member List.not_mem_nil, rfl⟩
    | tail _ pass ih => exact pass_keeps pass ih
  intro taskId member
  refine (between.1 taskId member).resolve_right fun awaited => ?_
  have nothing : state.2.awaiting = none := between.2
  rw [nothing] at awaited
  cases awaited

end Runs

section Example

open DearAgent.Work

local instance inboundTables : Unicode := asciiTables

/-- A gate that admits everything, no policies, and a scanner that flags every message. -/
def flaggedInbox (request : Request) : Except Exn request.Result :=
  match request with
  | .admission _ _ _ | .send _ | .ack _ => .ok ()
  | .scan _ => .ok true
  | .assess _ | .needsHuman _ => .ok false
  | .listPolicies => .ok []
  | _ => .error .assertionError

abbrev InboxWorld := World MemoryQueue.backend (MemoryApprovalStore.backend 1)

def flaggedPass (plane : ControlPlane) (world : InboxWorld) :=
  Lib.Effects.run (answering zeroReadings flaggedInbox)
    (plane.ingest [widgetMessage] (some "ops@example.com")) world

theorem flagged_pass_executes (plane : ControlPlane) (world : InboxWorld) :
    Exec (contended _ _) (plane.ingest [widgetMessage] (some "ops@example.com")) world
      (flaggedPass plane world).1 (flaggedPass plane world).2.1 (flaggedPass plane world).2.2 :=
  exec_run (contended _ _) (answering zeroReadings flaggedInbox) (fun request world =>
    ⟨world, .refl, (answering_works zeroReadings flaggedInbox request world).1⟩) _ _

theorem flagged_pass_ends {plane : ControlPlane} {world : InboxWorld} {outcome : Except Exn IngestReport}
    (ended : (flaggedPass plane world).2.1 = outcome) :
    ∃ trace, Exec (contended _ _) (plane.ingest [widgetMessage] (some "ops@example.com")) world trace
      outcome (flaggedPass plane world).2.2 :=
  ⟨_, ended ▸ flagged_pass_executes plane world⟩

/-- The plane of `_inbound_plane` with a notifier that has the approval service. -/
def wiredPlane : ControlPlane := { inboundPlane true false with notifier := some {} }

theorem flagged_task_is_releasable :
    Releasable (flaggedPass wiredPlane (emptyWorld 1)).2.2 "m1".toList := by
  have watched : Watched Parking.observe Parking.Sound {} (flaggedPass wiredPlane (emptyWorld 1)).1 := by
    decide
  have parked : "m1".toList ∈
      ((flaggedPass wiredPlane (emptyWorld 1)).1.foldl Parking.observe {}).parked := by
    decide
  have execution := exec_watched (flagged_pass_executes wiredPlane (emptyWorld 1)) watched
  have wired : Wired wiredPlane (some "ops@example.com") := by
    rintro _ ⟨⟩ _
    rfl
  exact parked_task_is_releasable (.single (.ended _ _ _ wired execution)) _ parked

/-- What the first pass of `_inbound_plane` leaves behind. -/
def strandedWorld : InboxWorld := (flaggedPass (inboundPlane true false) (emptyWorld 1)).2.2

/-- The pass of `_inbound_plane` raises after it has stored the flagged task, the
pass over the same message that follows comes to its end, and the task waits
for a reply with a token that was never issued. -/
theorem inbound_task_is_stranded :
    ∃ (first second : List (Exchange ports)) (error : Exn) (report : IngestReport)
      (middle final : InboxWorld),
      Exec (contended _ _) ((inboundPlane true false).ingest [widgetMessage]
        (some "ops@example.com")) (emptyWorld 1) first (.error error) middle ∧
      Exec (contended _ _) ((inboundPlane true false).ingest [widgetMessage]
        (some "ops@example.com")) middle second (.ok report) final ∧
      (final.board "m1".toList).map Task.state = some .action ∧
      ¬Releasable final "m1".toList := by
  have raises : (flaggedPass (inboundPlane true false) (emptyWorld 1)).2.1 =
      .error (.runtimeError "approval requests require an ApprovalService") := by decide
  have ends : (flaggedPass (inboundPlane true false) strandedWorld).2.1 =
      .ok { suspicious := ["m1".toList] } := by decide
  obtain ⟨first, raised⟩ := flagged_pass_ends raises
  obtain ⟨second, ended⟩ := flagged_pass_ends ends
  have waiting : ((flaggedPass (inboundPlane true false) strandedWorld).2.2.board "m1".toList).map
      Task.state = some .action := by decide
  have tokens : (flaggedPass (inboundPlane true false) strandedWorld).2.2.approvals.val.byToken.entries =
      [] := by decide
  generalize (flaggedPass (inboundPlane true false) strandedWorld).2.2 = final at ended waiting tokens
  refine ⟨first, second, _, _, strandedWorld, final, raised, ended, waiting, ?_⟩
  rintro ⟨token, approval, found, _⟩
  have looked : final.approvals.val.byToken.get token = some approval := found
  unfold Lib.Dictionaries.Dict.get at looked
  rw [tokens] at looked
  cases looked

end Example

end DearAgent.ControlPlane
