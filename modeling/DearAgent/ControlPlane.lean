import DearAgent.ApprovalsService
import DearAgent.Normalizer

/-!
# The control plane

`control_plane.py`: every polled message is authorized, taken as an approval
decision or normalized, flagged, and stored; whoever sent it is told when it is
turned down.
-/

namespace DearAgent

open DearAgent.Lib.Text DearAgent.Lib.Effects DearAgent.Queue

set_option autoImplicit false

/-- `REJECT_BODIES`. -/
def RejectReason.body : RejectReason → Str
  | .attachments =>
      "Dear Agent does not accept source code, patches or attachments. Code travels over Git only; resend your task as plain text with a repo and instructions."
  | .noRepo =>
      "Dear Agent could not find a repository. Add a 'repo: <url>' line or send to an owner-repo@ routing address."
  | .empty =>
      "Dear Agent could not find instructions. Describe the task in the message body."
  | .notAllowed =>
      "Dear Agent is not allowed to work on that repository. Ask an operator to add it to the project policy."

inductive GateReason
  | suspicious | needsHuman
deriving DecidableEq

def GateReason.value : GateReason → Str
  | .suspicious => "suspicious"
  | .needsHuman => "needs-human"

/-- `_GATE_SUMMARIES`. -/
def GateReason.summary : GateReason → Str
  | .suspicious => "message flagged as suspicious; approve to run it"
  | .needsHuman => "the decider says a human should approve this; approve to run it"

structure IngestReport where
  accepted : List Str := []
  rejected : List Str := []
  denied : List Str := []
  decided : List Str := []
  suspicious : List Str := []
  gated : List Str := []
  needsHuman : List Str := []
deriving DecidableEq

/-- A notifier; it can request approvals where it has an approval service. -/
structure NotifierPort where
  approvals : Bool := true
deriving DecidableEq

/-- The configuration of a control plane: which of its collaborators are there,
and whether its transport knows acknowledgements. -/
structure ControlPlane where
  notifier : Option NotifierPort := none
  gate : Bool := false
  approvals : Bool := false
  scanner : Bool := false
  security : Bool := false
  humanGate : Bool := false
  events : Bool := false
  policies : Bool := false
  requirePolicy : Bool := false
  ack : Bool := false
deriving DecidableEq

namespace ControlPlane

/-- `_authorize`, with the `AuthError` that denies a message as a value. -/
def authorize (plane : ControlPlane) (message : RawMessage) : Code (Except Exn Unit) :=
  if !plane.gate then .ret (.ok ())
  else attempt Exn.isAuthError (.admission message.body message.headers message.sender)

def replyRejectionMessage (plane : ControlPlane) (message : RawMessage) (body : Str)
    (recipient : Option Str) : Code Unit :=
  match plane.notifier, recipient with
  | some _, some recipient =>
      call (.send {
        threadId := message.threadId
        subject := "[dear-agent] could not process: ".toList ++
          orElse message.subject message.transportId
        body := body
        headers := [("to".toList, recipient), ("in-reply-to".toList, message.transportId)] })
  | _, _ => .ret ()

def replyRejection (plane : ControlPlane) (message : RawMessage) (rejected : Rejected)
    (recipient : Option Str) : Code Unit :=
  plane.replyRejectionMessage message rejected.reason.body recipient

section Deciding

variable [Unicode]

def decisionOf (message : RawMessage) : Option ApprovalReply :=
  if message.threadId.isSome then parseReply message.body else none

/-- What `except (ApprovalError, QueueError)` catches. -/
def explained (error : Exn) : Bool := error.isApprovalError || error.isQueueError

def applyDecision (plane : ControlPlane) (message : RawMessage) (decision : ApprovalReply)
    (recipient : Option Str) : Code Bool :=
  exceptWhere explained
    (do
      let _ ← ApprovalService.apply decision message.sender message.threadId
      .ret true)
    fun error => do
      plane.replyRejectionMessage message error.str recipient
      .ret false

end Deciding

def repoAllowed (plane : ControlPlane) (repo : Str) : Code Bool :=
  if !plane.policies then .ret !plane.requirePolicy
  else do
    let policies ← call .listPolicies
    if policies.isEmpty then .ret !plane.requirePolicy
    else do
      let policy ← call (.policyForRepo repo)
      .ret (policy.any ProjectPolicy.enabled)

def asked (configured : Bool) (request : Request) (answer : request.Result → Bool) : Code Bool :=
  if configured then do
    let reply ← call request
    .ret (answer reply)
  else .ret false

/-- `_flag_suspicious`. A verdict does not count for a message that the report
lists already. -/
def flagSuspicious (plane : ControlPlane) (message : RawMessage) (report : IngestReport) :
    Code (Bool × IngestReport) := do
  let scanned ← asked plane.scanner (.scan message.body) id
  let report := if scanned then
    { report with suspicious := report.suspicious ++ [message.transportId] } else report
  let assessed ← asked plane.security (.assess message.body) id
  if assessed && !report.suspicious.contains message.transportId then
    .ret (true, { report with suspicious := report.suspicious ++ [message.transportId] })
  else .ret (scanned, report)

def humanState (result : NormalizedTask) : Str :=
  join "\n" ([result.task.subject.getD [], result.spec.instructions].filter fun part =>
    !part.isEmpty)

def gateReason (plane : ControlPlane) (suspicious : Bool) (result : NormalizedTask) :
    Code (Option GateReason) :=
  if suspicious then .ret (some .suspicious)
  else do
    let human ← asked plane.humanGate (.needsHuman (humanState result)) id
    .ret (if human then some .needsHuman else none)

/-- `_request_approval`, with `Notifier.request_approval`. -/
def requestApproval (plane : ControlPlane) (task : Task) (recipient : Option Str)
    (reason : GateReason) : Code Unit := do
  emit plane.events task.id "approval.requested" [("reason".toList, .text reason.value)]
  match plane.notifier, truthy recipient with
  | some notifier, true =>
      if !notifier.approvals then
        .raise (.runtimeError "approval requests require an ApprovalService")
      else do
        let token ← ApprovalService.request task.id "run"
        call (.send (Notifier.requestMessage task (recipient.getD []) reason.summary none token))
  | _, _ => dropValue (ApprovalService.request task.id "run")

/-- A normalized task is stored, in `action` where there is a reason to park it. -/
def store (plane : ControlPlane) (recipient : Option Str) (report : IngestReport)
    (result : NormalizedTask) (reason : Option GateReason) : Code IngestReport := do
  match ← Queue.enqueue result.task (if reason.isSome then .action else .queued) with
  | none => .ret report
  | some stored => do
      emit plane.events result.task.id "task.accepted"
        [("repo".toList, .text result.spec.repoUrl)]
      let report := { report with accepted := report.accepted ++ [result.task.id] }
      match reason with
      | none => .ret report
      | some reason => do
          plane.requestApproval stored recipient reason
          .ret { report with
            gated := report.gated ++ [result.task.id]
            needsHuman := if reason = .needsHuman then report.needsHuman ++ [result.task.id]
              else report.needsHuman }

def accept (plane : ControlPlane) (message : RawMessage) (recipient : Option Str)
    (report : IngestReport) (result : NormalizedTask) : Code IngestReport := do
  let (suspicious, report) ← plane.flagSuspicious message report
  let reason ← if plane.approvals then plane.gateReason suspicious result else .ret none
  plane.store recipient report result reason

def reject (plane : ControlPlane) (message : RawMessage) (recipient : Option Str)
    (report : IngestReport) (rejected : Rejected) (data : EventData) : Code IngestReport := do
  emit plane.events message.transportId "task.rejected" data
  plane.replyRejection message rejected recipient
  .ret { report with rejected := report.rejected ++ [message.transportId] }

section Loop

variable [Unicode]

def intake (plane : ControlPlane) (recipient : Option Str) (report : IngestReport)
    (message : RawMessage) : Code IngestReport :=
  match normalize message recipient with
  | .error rejected =>
      plane.reject message recipient report rejected
        [("reason".toList, .text rejected.reason.value)]
  | .ok result => do
      if ← plane.repoAllowed result.spec.repoUrl then
        plane.accept message recipient report result
      else
        plane.reject message recipient report
          ⟨message.transportId, .notAllowed, result.spec.repoUrl⟩
          [("reason".toList, .text RejectReason.notAllowed.value),
            ("repo".toList, .text result.spec.repoUrl)]

/-- One round of the loop of `ingest`. -/
def ingestMessage (plane : ControlPlane) (recipient : Option Str) (report : IngestReport)
    (message : RawMessage) : Code IngestReport := do
  match ← plane.authorize message with
  | .error _ => do
      emit plane.events message.transportId "task.denied"
      .ret { report with denied := report.denied ++ [message.transportId] }
  | .ok _ =>
      match decisionOf message, plane.approvals with
      | some decision, true => do
          if ← plane.applyDecision message decision recipient then
            .ret { report with decided := report.decided ++ [message.transportId] }
          else .ret report
      | _, _ => plane.intake recipient report message

/-- The loop of `ingest`. -/
def ingestAll (plane : ControlPlane) (recipient : Option Str) :
    List RawMessage → IngestReport → Code IngestReport
  | [], report => .ret report
  | message :: rest, report => do
      let report ← plane.ingestMessage recipient report message
      plane.ingestAll recipient rest report

/-- `_ack`: a failure to acknowledge never gets out. -/
def acknowledge (plane : ControlPlane) (messages : List RawMessage) : Code Unit :=
  if plane.ack then do
    let _ ← attempt Exn.isException (.ack messages)
    .ret ()
  else .ret ()

def ingest (plane : ControlPlane) (messages : List RawMessage) (recipient : Option Str) :
    Code IngestReport := do
  let report ← plane.ingestAll recipient messages {}
  plane.acknowledge messages
  .ret report

end Loop

/-!
## What the parts of an ingest ask
-/

/-- Nothing here decides on a task, flags a message or stores one. -/
def Inbound : Request → Prop
  | .admission _ _ _ | .record _ _ _ | .send _ | .listPolicies | .policyForRepo _ | .issue _ _
  | .ack _ => True
  | _ => False

/-- The part of it that neither asks the gate nor a store, before a batch is acknowledged. -/
def Answering : Request → Prop
  | .record _ _ _ | .send _ | .listPolicies | .policyForRepo _ => True
  | _ => False

def Judging : Request → Prop
  | .scan _ | .assess _ | .needsHuman _ => True
  | _ => False

/-- What a message that is no decision can ask. -/
def Taking : Request → Prop
  | .queue (.enqueue _ _) | .issue _ _ | .scan _ | .assess _ | .needsHuman _ => True
  | request => Answering request

def Deciding : Request → Prop
  | .approvalOf _ | .queue (.get _) | .redeem _ | .queue (.transition _ _ _) => True
  | request => Answering request

/-- A batch is only acknowledged after the loop. -/
def Looping : Request → Prop
  | .ack _ => False
  | _ => True

theorem Answering.inbound (request : Request) (answering : Answering request) :
    Inbound request := by
  cases request <;> trivial

theorem Answering.taking (request : Request) (answering : Answering request) :
    Taking request := by
  cases request <;> trivial

theorem Answering.deciding (request : Request) (answering : Answering request) :
    Deciding request := by
  cases request <;> trivial

theorem Judging.taking (request : Request) (judging : Judging request) : Taking request := by
  cases request <;> trivial

theorem Taking.looping (request : Request) (taking : Taking request) : Looping request := by
  cases request <;> trivial

theorem Deciding.looping (request : Request) (deciding : Deciding request) : Looping request := by
  cases request <;> trivial

theorem asks_authorize {allowed : Request → Prop}
    (admitting : ∀ body headers sender, allowed (.admission body headers sender)) (plane : ControlPlane)
    (message : RawMessage) : Asks allowed (plane.authorize message) := by
  unfold authorize
  split_ifs
  · trivial
  · exact asks_attempt (admitting _ _ _)

section Parts

variable {allowed : Request → Prop} (answering : ∀ request, Answering request → allowed request)

include answering

theorem asks_event (plane : ControlPlane) (taskId kind : Str) (data : EventData) :
    Asks allowed (emit plane.events taskId kind data) :=
  asks_emit (fun _ _ _ => answering _ trivial) plane.events taskId kind data

theorem asks_reply (plane : ControlPlane) (message : RawMessage) (body : Str)
    (recipient : Option Str) :
    Asks allowed (plane.replyRejectionMessage message body recipient) := by
  unfold replyRejectionMessage
  split
  · exact asks_call (answering _ trivial)
  · trivial

theorem asks_reject (plane : ControlPlane) (message : RawMessage) (recipient : Option Str)
    (report : IngestReport) (rejected : Rejected) (data : EventData) :
    Asks allowed (plane.reject message recipient report rejected data) :=
  asks_bind (asks_event answering plane _ _ _) fun _ =>
    asks_bind (asks_reply answering plane _ _ _) fun _ => trivial

theorem asks_repo_allowed (plane : ControlPlane) (repo : Str) :
    Asks allowed (plane.repoAllowed repo) := by
  unfold repoAllowed
  split_ifs
  · trivial
  · refine asks_bind (asks_call (answering _ trivial)) fun policies => ?_
    split_ifs
    · trivial
    · exact asks_bind (asks_call (answering _ trivial)) fun _ => trivial

theorem asks_request_approval (issuing : ∀ taskId action, allowed (.issue taskId action))
    (plane : ControlPlane) (task : Task) (recipient : Option Str)
    (reason : GateReason) : Asks allowed (plane.requestApproval task recipient reason) := by
  have issuing : Asks allowed (ApprovalService.request task.id "run") :=
    asks_bind (asks_call (issuing _ _)) fun _ => trivial
  refine asks_bind (asks_event answering plane _ _ _) fun _ => ?_
  split
  · split_ifs
    · trivial
    · exact asks_bind issuing fun _ => asks_call (answering _ trivial)
  · exact asks_bind issuing fun _ => trivial

end Parts

section Whole

variable {allowed : Request → Prop}

theorem asks_asked {configured : Bool} {request : Request} {answer : request.Result → Bool}
    (permitted : allowed request) : Asks allowed (asked configured request answer) := by
  unfold asked
  split_ifs
  · exact asks_bind (asks_call permitted) fun _ => trivial
  · trivial

section Judges

variable (judging : ∀ request, Judging request → allowed request) (plane : ControlPlane)

include judging

theorem asks_flag_suspicious (message : RawMessage) (report : IngestReport) :
    Asks allowed (plane.flagSuspicious message report) := by
  refine asks_bind (asks_asked (judging _ trivial)) fun scanned =>
    asks_bind (asks_asked (judging _ trivial)) fun assessed => ?_
  split_ifs <;> trivial

theorem asks_gate_reason (suspicious : Bool) (result : NormalizedTask) :
    Asks allowed (plane.gateReason suspicious result) := by
  unfold gateReason
  split_ifs
  · trivial
  · exact asks_bind (asks_asked (judging _ trivial)) fun _ => trivial

end Judges

theorem asks_decision [Unicode] (deciding : ∀ request, Deciding request → allowed request)
    (plane : ControlPlane) (message : RawMessage) (decision : ApprovalReply)
    (recipient : Option Str) :
    Asks allowed (plane.applyDecision message decision recipient) := by
  refine asks_except (asks_bind ?_ fun _ => trivial) fun error =>
    asks_bind (asks_reply (fun request answers => deciding request (Answering.deciding request answers))
      plane _ _ _) fun _ => trivial
  refine asks_bind (asks_call (deciding _ trivial)) fun approval => ?_
  split
  · trivial
  · refine asks_bind (asks_call (deciding _ trivial)) fun task => ?_
    split
    · trivial
    · split_ifs
      · trivial
      · trivial
      · trivial
      · exact asks_bind (asks_call (deciding _ trivial)) fun _ => asks_call (deciding _ trivial)

section Takes

variable (taking : ∀ request, Taking request → allowed request) (plane : ControlPlane)

include taking

theorem asks_store (recipient : Option Str) (report : IngestReport) (result : NormalizedTask)
    (reason : Option GateReason) : Asks allowed (plane.store recipient report result reason) := by
  have answering := fun request answers => taking request (Answering.taking request answers)
  refine asks_bind (asks_call (taking _ trivial)) fun stored => ?_
  cases stored with
  | none => trivial
  | some stored =>
      refine asks_bind (asks_event answering plane _ _ _) fun _ => ?_
      cases reason with
      | none => trivial
      | some reason =>
          exact asks_bind (asks_request_approval answering (fun _ _ => taking _ trivial) plane _ _ _)
            fun _ => trivial

theorem asks_accept (message : RawMessage) (recipient : Option Str) (report : IngestReport)
    (result : NormalizedTask) : Asks allowed (plane.accept message recipient report result) := by
  have judging := fun request judges => taking request (Judging.taking request judges)
  refine asks_bind (asks_flag_suspicious judging plane message report) fun flag => ?_
  obtain ⟨suspicious, report⟩ := flag
  simp only
  split_ifs
  · exact asks_bind (asks_gate_reason judging plane _ _) fun _ => asks_store taking plane _ _ _ _
  · exact asks_store taking plane recipient report result none

theorem asks_intake [Unicode] (recipient : Option Str) (report : IngestReport)
    (message : RawMessage) : Asks allowed (plane.intake recipient report message) := by
  have answering := fun request answers => taking request (Answering.taking request answers)
  unfold intake
  split
  · exact asks_reject answering plane _ _ _ _ _
  · refine asks_bind (asks_repo_allowed answering plane _) fun permitted => ?_
    split_ifs
    · exact asks_accept taking plane _ _ _ _
    · exact asks_reject answering plane _ _ _ _ _

end Takes

end Whole

theorem asks_acknowledge (plane : ControlPlane) (messages : List RawMessage) :
    Asks Inbound (plane.acknowledge messages) := by
  unfold acknowledge
  split_ifs
  · exact asks_bind (asks_attempt trivial) fun _ => trivial
  · trivial

theorem asks_message [Unicode] (plane : ControlPlane) (recipient : Option Str)
    (report : IngestReport) (message : RawMessage) :
    Asks Looping (plane.ingestMessage recipient report message) := by
  have answering := fun request answers => Taking.looping request (Answering.taking request answers)
  refine asks_bind (asks_authorize (fun _ _ _ => trivial) plane message) fun admitted => ?_
  cases admitted with
  | error error => exact asks_bind (asks_event answering plane _ _ _) fun _ => trivial
  | ok _ =>
      simp only
      split
      · refine asks_bind (asks_decision Deciding.looping plane _ _ _) fun decided => ?_
        split_ifs <;> trivial
      · exact asks_intake Taking.looping plane _ _ _

end ControlPlane

end DearAgent
