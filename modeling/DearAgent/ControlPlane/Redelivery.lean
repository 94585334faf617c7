import DearAgent.ControlPlane.Splits

/-!
# A message that comes again

A message that was stored is known to the queue and is not stored again. A
message that is turned down leaves no trace in the queue: it is turned down
once more, with one more reply.
-/

namespace DearAgent.ControlPlane

open DearAgent.Lib.Text DearAgent.Lib.Effects DearAgent.Queue DearAgent.Work

set_option autoImplicit false

/-- What `_reply_rejection` sends. -/
def rejectionReply (message : RawMessage) (rejected : Rejected) (recipient : Str) :
    OutboundMessage where
  threadId := message.threadId
  subject := "[dear-agent] could not process: ".toList ++
    orElse message.subject message.transportId
  body := rejected.reason.body
  headers := [("to".toList, recipient), ("in-reply-to".toList, message.transportId)]

section Repeating

variable {Q : DedupingQueue} {A : ApprovalBackend} {office : Office Unit} {plane : ControlPlane}
  {recipient : Option Str} {message : RawMessage} {desk : Desk Q.toQueueBackend A Unit}

theorem reply_rejection_eq {rejected : Rejected} {address : Str}
    (notified : plane.notifier.isSome = true) :
    plane.replyRejection message rejected (some address) =
      call (.send (rejectionReply message rejected address)) := by
  obtain ⟨notifier, found⟩ := Option.isSome_iff_exists.mp notified
  unfold replyRejection replyRejectionMessage
  rw [found]
  rfl

theorem reject_leaves {rejected : Rejected} (report : IngestReport) (data : EventData)
    (silent : ∀ address, plane.notifier.isSome = true → recipient = some address →
      ¬office.delivers (rejectionReply message rejected address) (.ok ())) :
    Meets office.surroundings Anything (plane.reject message recipient report rejected data) desk
      fun after _ => after = desk := by
  refine (emit_looks _ _ _).meets_seq serves_anything fun _ _ => ?_
  cases recipient with
  | none =>
      unfold replyRejection replyRejectionMessage
      cases plane.notifier <;> exact rfl
  | some address =>
      by_cases notified : plane.notifier.isSome = true
      · rw [reply_rejection_eq notified]
        refine meets_call_bind trivial (fun _ after answered => ?_) fun error after answered => ?_
        · exact absurd answered.1 (silent address notified rfl)
        · exact answered.2.trans (if_neg fun same => by cases same)
      · have unnotified := Option.not_isSome_iff_eq_none.mp notified
        unfold replyRejection replyRejectionMessage
        rw [unnotified]
        exact rfl

variable [Unicode]

/-- The message is turned down, and its reply can be sent. -/
def Replied (plane : ControlPlane) (office : Office Unit) (recipient : Option Str)
    (message : RawMessage) : Prop :=
  verdict plane office message () = .ok () ∧ plane.notifier.isSome = true ∧
    ∃ rejected address, taskFor plane office recipient message = .error rejected ∧
      recipient = some address ∧ office.delivers (rejectionReply message rejected address) (.ok ())

/-- A message that is known if it is acceptable, and gets no reply, leaves everything as it is. -/
theorem repeated_round (undecided : decides plane message = false)
    (known : Acceptable plane office recipient message () → Known desk.board message.transportId)
    (silent : ¬Replied plane office recipient message) (report : IngestReport) :
    Meets office.surroundings Anything (plane.ingestMessage recipient report message) desk
      fun after _ => after = desk := by
  refine meets_message serves_anything (fun _ _ _ => rfl) (fun _ _ _ => ?_) fun admitted =>
    meets_handle (fun decision deciding => ?_) fun _ => meets_intake serves_anything
      (fun rejected data turned => ?_) fun result taken same sameTransport => ?_
  · exact (emit_looks _ _ _).meets_seq serves_anything fun _ _ => rfl
  · cases deciding.symm.trans undecided
  · exact reject_leaves report data fun address notified addressed delivers =>
      silent ⟨admitted, notified, rejected, address, turned, addressed, delivers⟩
  · have stored := known ⟨admitted, undecided, result, taken⟩
    have looks := @accept_looks Q A Unit office plane recipient desk message report result stored
      same sameTransport
    exact looks.mono serves_anything fun _ _ looked => looked.1

theorem repeated_ingest (undecided : decides plane message = false)
    (known : Acceptable plane office recipient message () → Known desk.board message.transportId)
    (silent : ¬Replied plane office recipient message) :
    Meets office.surroundings Anything (plane.ingest [message] recipient) desk
      fun after _ => after = desk := by
  have round : Meets office.surroundings Anything (plane.ingestAll recipient [message] {}) desk
      fun after _ => after = desk :=
    Meets.seq (repeated_round undecided known silent {}) (fun _ _ same => same) fun _ _ same => same
  refine Meets.seq round (fun s report same => ?_) fun _ _ same => same
  rw [same]
  exact (acknowledge_looks [message]).meets_seq serves_anything fun _ _ => rfl

def Office.sending (office : Office Unit) (message : OutboundMessage) : Office Unit :=
  { office with delivers := fun other reply => other = message ∧ reply = .ok () }

theorem replied_round {rejected : Rejected} {address : Str}
    (undecided : decides plane message = false) (admitted : verdict plane office message () = .ok ())
    (notified : plane.notifier.isSome = true)
    (turned : taskFor plane office (some address) message = .error rejected)
    (report : IngestReport) :
    Meets (office.sending (rejectionReply message rejected address)).surroundings
      (Serves (office.sending (rejectionReply message rejected address)).surroundings)
      (plane.ingestMessage (some address) report message) desk fun after _ =>
        after.sent = desk.sent ++ [rejectionReply message rejected address] := by
  refine meets_message (fun _ _ served => served) (fun error said _ => ?_) (fun error said _ => ?_)
    fun _ => meets_handle (fun decision deciding => ?_) fun _ =>
      meets_intake (fun _ _ served => served) (fun other data found => ?_) fun result found _ _ => ?_
  · cases said.symm.trans admitted
  · cases said.symm.trans admitted
  · cases deciding.symm.trans undecided
  · obtain rfl : rejected = other := Except.error.inj (turned.symm.trans found)
    refine (emit_looks _ _ _).meets_seq (fun _ _ served => served) fun _ _ => ?_
    rw [reply_rejection_eq notified]
    refine meets_call_bind ⟨.ok (), _, ⟨rfl, rfl⟩, rfl⟩ (fun _ after answered => ?_)
      fun error after answered => ?_
    · obtain ⟨_, rfl⟩ := answered
      rfl
    · cases answered.1.2
  · cases found.symm.trans turned

omit [Unicode] in
theorem sending_executes {α : Type} {reply : OutboundMessage} {program : Code α}
    (delivers : office.delivers reply (.ok ())) {trace : List (Exchange ports)}
    {outcome : Except Exn α} {final : Desk Q.toQueueBackend A Unit}
    (execution : Exec (office.sending reply).surroundings program desk trace outcome final) :
    Exec office.surroundings program desk trace outcome final := by
  refine @exec_where _ _ _ _ _ (fun _ => True) _ _ _ _ _ execution (fun _ _ => trivial) ?_
  intro request s answer s' _ answered
  cases request with
  | send message =>
      obtain ⟨⟨rfl, rfl⟩, same⟩ := answered
      exact ⟨delivers, same⟩
  | _ => exact answered

theorem replied_ingest (undecided : decides plane message = false)
    (replied : Replied plane office recipient message) :
    ∃ reply, CanEnd office.surroundings (plane.ingest [message] recipient) desk
      fun _ final => final.sent = desk.sent ++ [reply] := by
  obtain ⟨admitted, notified, rejected, address, turned, rfl, delivers⟩ := replied
  have once : Meets (office.sending (rejectionReply message rejected address)).surroundings
      (Serves (office.sending (rejectionReply message rejected address)).surroundings)
      (plane.ingestAll (some address) [message] {}) desk fun after _ =>
        after.sent = desk.sent ++ [rejectionReply message rejected address] :=
    Meets.seq (replied_round undecided admitted notified turned {}) (fun _ _ sent => sent)
      fun _ _ sent => sent
  have whole : Meets (office.sending (rejectionReply message rejected address)).surroundings
      (Serves (office.sending (rejectionReply message rejected address)).surroundings)
      (plane.ingest [message] (some address)) desk fun after _ =>
        after.sent = desk.sent ++ [rejectionReply message rejected address] := by
    refine Meets.seq once (fun s report sent => ?_) fun _ _ sent => sent
    exact (acknowledge_looks [message]).meets_seq (fun _ _ served => served) fun _ _ => sent
  obtain ⟨trace, outcome, final, execution, sent⟩ := whole.can_end
  exact ⟨_, trace, outcome, final, sending_executes delivers execution, sent⟩

/-- However the message is ingested once more, everything stays as it is. -/
def Settled (plane : ControlPlane) (office : Office Unit) (recipient : Option Str)
    (message : RawMessage) (desk : Desk Q.toQueueBackend A Unit) : Prop :=
  ∀ trace outcome final,
    Exec office.surroundings (plane.ingest [message] recipient) desk trace outcome final →
      final = desk

theorem redelivery_settled_iff {trace : List (Exchange ports)} {outcome : Except Exn IngestReport}
    {after : Desk Q.toQueueBackend A Unit} (undecided : decides plane message = false)
    (execution : Exec office.surroundings (plane.ingest [message] recipient) desk trace outcome
      after) :
    Settled plane office recipient message after ↔ ¬Replied plane office recipient message := by
  have known : Acceptable plane office recipient message () →
      Known after.board message.transportId := by
    intro acceptable
    exact (ingest_known acceptable).sound execution
  constructor
  · intro settled replied
    have repeats := @replied_ingest Q A office plane recipient message after _ undecided replied
    obtain ⟨reply, again, ended, final, executes, sent⟩ := repeats
    rw [settled again ended final executes] at sent
    exact absurd (congrArg List.length sent) (by simp)
  · intro silent again ended final executes
    exact (repeated_ingest undecided known silent).sound executes

end Repeating

section Example

local instance repeatedTables : Unicode := asciiTables

/-- `MemoryTransport.send` takes every message. -/
def memorySend (_ : OutboundMessage) : Except Exn Unit := .ok ()

def firstDelivery :=
  run (plainly memorySend zeroReadings)
    (notifyingPlane.ingest [strayMessage] (some "ops@example.com")) emptyDesk

def secondDelivery :=
  run (plainly memorySend zeroReadings)
    (notifyingPlane.ingest [strayMessage] (some "ops@example.com")) firstDelivery.2.2

theorem first_delivery_executes :
    Exec (plainOffice memorySend).surroundings
      (notifyingPlane.ingest [strayMessage] (some "ops@example.com")) emptyDesk
      firstDelivery.1 firstDelivery.2.1 firstDelivery.2.2 :=
  plain_executes (by decide)

theorem second_delivery_executes :
    Exec (plainOffice memorySend).surroundings
      (notifyingPlane.ingest [strayMessage] (some "ops@example.com")) firstDelivery.2.2
      secondDelivery.1 secondDelivery.2.1 secondDelivery.2.2 :=
  plain_executes (by decide)

theorem stray_redelivery_settled_iff :
    Settled notifyingPlane (plainOffice memorySend) (some "ops@example.com") strayMessage
        firstDelivery.2.2 ↔
      ¬Replied notifyingPlane (plainOffice memorySend) (some "ops@example.com") strayMessage := by
  have same := redelivery_settled_iff (by decide) first_delivery_executes
  exact same

/-- Whoever sent the stray message is told twice that it names no repository. -/
theorem stray_message_answered_twice :
    decides notifyingPlane strayMessage = false ∧
    ∃ (trace : List (Exchange ports)) (outcome : Except Exn IngestReport)
      (after : Desk MemoryQueue.deduping.toQueueBackend (MemoryApprovalStore.backend 1) Unit),
      Exec (plainOffice memorySend).surroundings
        (notifyingPlane.ingest [strayMessage] (some "ops@example.com")) emptyDesk trace outcome
        after ∧
      ¬Settled notifyingPlane (plainOffice memorySend) (some "ops@example.com") strayMessage
        after := by
  have once : firstDelivery.2.2.sent.length = 1 := by decide
  have twice : secondDelivery.2.2.sent.length = 2 := by decide
  refine ⟨by decide, _, _, _, first_delivery_executes, fun settled => ?_⟩
  have same := settled _ _ _ second_delivery_executes
  rw [same, once] at twice
  cases twice

end Example

end DearAgent.ControlPlane
