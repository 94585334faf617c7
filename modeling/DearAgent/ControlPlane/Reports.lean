import DearAgent.ControlPlane

/-!
# What a round reads of its report

A round of `ingest` appends to the report and reads of it only whether its
message is listed as suspicious already. Up to what the reports held before,
rounds that start with different reports are the same program.
-/

namespace DearAgent

open DearAgent.Lib.Text DearAgent.Lib.Effects DearAgent.Queue

set_option autoImplicit false

def IngestReport.add (report added : IngestReport) : IngestReport where
  accepted := report.accepted ++ added.accepted
  rejected := report.rejected ++ added.rejected
  denied := report.denied ++ added.denied
  decided := report.decided ++ added.decided
  suspicious := report.suspicious ++ added.suspicious
  gated := report.gated ++ added.gated
  needsHuman := report.needsHuman ++ added.needsHuman

namespace ControlPlane

section Adding

/-- On these reports the round is one program, whose additions it appends. -/
def Adds (reports : IngestReport → Prop) (round : IngestReport → Code IngestReport) : Prop :=
  ∃ additions : Code IngestReport, ∀ report, reports report →
    round report = additions >>= fun added => .ret (report.add added)

variable {reports : IngestReport → Prop}

theorem adds_nothing : Adds reports fun report => .ret report :=
  ⟨.ret {}, fun report _ => by simp [IngestReport.add]⟩

theorem adds_bind {α : Type} (program : Code α) {next : α → IngestReport → Code IngestReport}
    (rest : ∀ value, Adds reports (next value)) :
    Adds reports fun report => program >>= fun value => next value report := by
  refine ⟨program >>= fun value => (rest value).choose, fun report among => ?_⟩
  change (program >>= fun value => next value report) = _
  rw [bind_bind]
  exact congrArg (program >>= ·) (funext fun value => (rest value).choose_spec report among)

end Adding

section Rounds

variable (plane : ControlPlane) {message : RawMessage} {listed : Bool}

/-- The reports that list the message as suspicious, or those that do not. -/
def Listing (listed : Bool) (message : RawMessage) (report : IngestReport) : Prop :=
  report.suspicious.contains message.transportId = listed

theorem reject_adds {reports : IngestReport → Prop} (recipient : Option Str) (rejected : Rejected)
    (data : EventData) :
    Adds reports fun report => plane.reject message recipient report rejected data := by
  refine adds_bind _ fun _ => adds_bind _ fun _ => ?_
  exact ⟨.ret { rejected := [message.transportId] }, fun report _ => by simp [IngestReport.add]⟩

theorem store_adds {reports : IngestReport → Prop} (recipient : Option Str)
    (result : NormalizedTask) (reason : Option GateReason) :
    Adds reports fun report => plane.store recipient report result reason := by
  refine adds_bind _ fun stored => ?_
  cases stored with
  | none => exact adds_nothing
  | some stored =>
      refine adds_bind _ fun _ => ?_
      cases reason with
      | none =>
          exact ⟨.ret { accepted := [result.task.id] }, fun report _ => by simp [IngestReport.add]⟩
      | some reason =>
          refine adds_bind _ fun _ => ?_
          cases reason with
          | suspicious =>
              exact ⟨.ret { accepted := [result.task.id], gated := [result.task.id] },
                fun report _ => by simp [IngestReport.add]⟩
          | needsHuman =>
              exact ⟨.ret { accepted := [result.task.id], gated := [result.task.id],
                            needsHuman := [result.task.id] },
                fun report _ => by simp [IngestReport.add]⟩

/-- The flag of a message, with what is added to the suspicious ones. -/
def suspicion (message : RawMessage) (listed : Bool) : Code (Bool × List Str) := do
  let scanned ← asked plane.scanner (.scan message.body) id
  let assessed ← asked plane.security (.assess message.body) id
  if assessed && !(scanned || listed) then .ret (true, [message.transportId])
  else .ret (scanned, if scanned then [message.transportId] else [])

theorem flag_suspicious_eq {report : IngestReport} (listing : Listing listed message report) :
    plane.flagSuspicious message report = plane.suspicion message listed >>= fun flag =>
      .ret (flag.1, report.add { suspicious := flag.2 }) := by
  unfold flagSuspicious suspicion
  unfold Listing at listing
  rw [bind_bind]
  refine congrArg (_ >>= ·) (funext fun scanned => ?_)
  simp only
  rw [bind_bind]
  refine congrArg (_ >>= ·) (funext fun assessed => ?_)
  cases scanned with
  | true => cases assessed <;> simp [IngestReport.add]
  | false =>
      simp only [Bool.false_eq_true, if_false, Bool.false_or, listing]
      split_ifs <;> simp [IngestReport.add]

/-- Whether there is a reason to park the task; without approvals there is none. -/
def parking (result : NormalizedTask) (suspicious : Bool) : Code (Option GateReason) :=
  if plane.approvals then plane.gateReason suspicious result else .ret none

theorem accept_eq (recipient : Option Str) (report : IngestReport) (result : NormalizedTask) :
    plane.accept message recipient report result =
      plane.flagSuspicious message report >>= fun flag =>
        plane.parking result flag.1 >>= fun reason => plane.store recipient flag.2 result reason := by
  unfold accept parking
  refine congrArg (plane.flagSuspicious message report >>= ·) (funext fun flag => ?_)
  simp only
  split_ifs <;> rfl

theorem accept_adds (recipient : Option Str) (result : NormalizedTask) :
    Adds (Listing listed message) fun report => plane.accept message recipient report result := by
  have flagged : ∀ flag : Bool × List Str, Adds (Listing listed message) fun report =>
      plane.parking result flag.1 >>= fun reason =>
        plane.store recipient (report.add { suspicious := flag.2 }) result reason := by
    intro flag
    refine adds_bind _ fun reason => ?_
    obtain ⟨additions, same⟩ := @store_adds plane (fun _ => True) recipient result reason
    refine ⟨additions >>= fun added => .ret (({ suspicious := flag.2 } : IngestReport).add added),
      fun report _ => ?_⟩
    rw [same _ trivial, bind_bind]
    refine congrArg (additions >>= ·) (funext fun added => ?_)
    simp [IngestReport.add]
  obtain ⟨additions, same⟩ := adds_bind (plane.suspicion message listed) flagged
  refine ⟨additions, fun report listing => Eq.trans ?_ (same report listing)⟩
  change plane.accept message recipient report result = _
  rw [accept_eq, flag_suspicious_eq plane listing, bind_bind]
  rfl

def deny (report : IngestReport) (message : RawMessage) : Code IngestReport := do
  emit plane.events message.transportId "task.denied"
  .ret { report with denied := report.denied ++ [message.transportId] }

theorem deny_adds {reports : IngestReport → Prop} :
    Adds reports fun report => plane.deny report message :=
  adds_bind _ fun _ =>
    ⟨.ret { denied := [message.transportId] }, fun report _ => by simp [IngestReport.add]⟩

variable [Unicode]

def takeDecision (recipient : Option Str) (report : IngestReport) (message : RawMessage)
    (decision : ApprovalReply) : Code IngestReport := do
  if ← plane.applyDecision message decision recipient then
    .ret { report with decided := report.decided ++ [message.transportId] }
  else .ret report

def handle (recipient : Option Str) (report : IngestReport) (message : RawMessage) :
    Code IngestReport :=
  match decisionOf message, plane.approvals with
  | some decision, true => plane.takeDecision recipient report message decision
  | _, _ => plane.intake recipient report message

theorem ingest_message_eq (recipient : Option Str) (report : IngestReport) (message : RawMessage) :
    plane.ingestMessage recipient report message = plane.authorize message >>= fun admitted =>
      match admitted with
      | .error _ => plane.deny report message
      | .ok _ => plane.handle recipient report message := by
  unfold ingestMessage
  refine congrArg (plane.authorize message >>= ·) (funext fun admitted => ?_)
  cases admitted <;> rfl

theorem take_decision_adds {reports : IngestReport → Prop} (decision : ApprovalReply)
    (recipient : Option Str) :
    Adds reports fun report => plane.takeDecision recipient report message decision := by
  refine adds_bind _ fun decided => ?_
  cases decided with
  | true =>
      exact ⟨.ret { decided := [message.transportId] }, fun report _ => by simp [IngestReport.add]⟩
  | false => exact adds_nothing

theorem intake_adds (recipient : Option Str) :
    Adds (Listing listed message) fun report => plane.intake recipient report message := by
  unfold intake
  cases normalize message recipient with
  | error rejected => exact reject_adds plane recipient _ _
  | ok result =>
      refine adds_bind _ fun permitted => ?_
      cases permitted with
      | true => exact accept_adds plane recipient result
      | false => exact reject_adds plane recipient _ _

theorem handle_adds (recipient : Option Str) :
    Adds (Listing listed message) fun report => plane.handle recipient report message := by
  unfold handle
  cases decisionOf message with
  | none => exact intake_adds plane recipient
  | some decision =>
      cases plane.approvals with
      | false => exact intake_adds plane recipient
      | true => exact take_decision_adds plane decision recipient

end Rounds

end ControlPlane

end DearAgent
