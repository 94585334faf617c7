import DearAgent.Idle.Loop
import DearAgent.Lib.Simulation
import DearAgent.System.Discipline

/-!
# The system with its idle loop

Ticks of the idle loop run beside the other operations. A program asks for a
token only right after it parked the task of the token, and a tick submits the
first proposals one after the other where few tasks are queued.
-/

namespace DearAgent.Idle

open DearAgent.Lib.Text DearAgent.Lib.Effects DearAgent.Lib.Interleaving DearAgent.Queue

set_option autoImplicit false

/-- What runs: ticks of the idle loop and the other operations. -/
inductive Activity
  | idle (command : IdleCommand)
  | other (operation : Operation)

def Activity.start [Unicode] [Sha256] : Activity → Code Unit
  | .idle command => dropValue command.tick
  | .other operation => operation.start

abbrev Past := History ports Activity

/-- The task that is parked and has no token yet, after one more exchange. -/
def holding (held : Option Str) : Exchange ports → Option Str
  | ⟨.queue (.enqueue _ .action), .ok (some stored)⟩ => some stored.id
  | ⟨.queue _, _⟩ => none
  | ⟨.issue _ _, _⟩ => none
  | _ => held

def parked (own : Own) : Option Str := own.foldl holding none

/-- A token is asked for only for the task that was parked last, and once. -/
def MayIssue (own : Own) : Request → Prop
  | .issue taskId action => parked own = some taskId ∧ action = "run".toList
  | _ => True

def submitted (own : Own) : Nat :=
  own.countP fun event => match event.1 with
    | .queue (.enqueue _ _) => true
    | _ => false

/-- Fewer tasks were queued than the budget asks for. -/
def Roomy (command : IdleCommand) (own : Own) : Prop :=
  ∃ page, (⟨.queue (.list .queued 1000), .ok page⟩ : Exchange ports) ∈ own ∧
    command.budget.allows page.length = true

/-- What a tick may ask: the chosen proposals are submitted one after the other. -/
def MayTick [Sha256] (command : IdleCommand) (own : Own) : Request → Prop
  | .queue (.list _ _) | .issue _ _ | .send _ => True
  | .queue (.enqueue task state) => Roomy command own ∧ state = command.stateOf ∧
      ∃ signals proposal, command.collected = .ok signals ∧
        (command.chosen signals)[submitted own]? = some proposal ∧ task = command.taskOf proposal
  | _ => False

namespace Activity

def may [Sha256] : Activity → Own → Request → Prop
  | .idle command, own, request => MayIssue own request ∧ MayTick command own request
  | .other operation, own, request => MayIssue own request ∧ May operation own request

end Activity

/-!
## Every program keeps to it
-/

variable {own : Own} {α β : Type}

abbrev Issues (program : Code α) (own : Own) (post : Own → Except Exn α → Prop) : Prop :=
  Meets (heard Honest) MayIssue program own post

def Unissuing : Request → Prop
  | .issue _ _ => False
  | _ => True

/-- Neither the queue nor a token is asked for. -/
def Unparking : Request → Prop
  | .queue _ | .issue _ _ => False
  | _ => True

theorem parked_concat (own : Own) (event : Exchange ports) :
    parked (own ++ [event]) = holding (parked own) event := by
  unfold parked
  rw [List.foldl_append]
  rfl

theorem unparking_holds {event : Exchange ports} (unparking : Unparking event.1)
    (held : Option Str) : holding held event = held := by
  obtain ⟨request, reply⟩ := event
  cases request with
  | queue op => exact absurd unparking not_false
  | issue taskId action => exact absurd unparking not_false
  | _ => rfl

theorem unissuing_issues {program : Code α} (asks : Asks Unissuing program) :
    Issues program own fun _ _ => True := by
  apply asks.meets (fun _ => True)
  · intro own request _ unissuing
    cases request with
    | issue taskId action => exact absurd unissuing not_false
    | _ => trivial
  · exact fun _ _ _ _ _ _ _ => trivial
  · trivial

theorem unparking_issues {program : Code α} (asks : Asks Unparking program) {held : Option Str}
    (holds : parked own = held) : Issues program own fun after _ => parked after = held := by
  apply asks.meets fun own => parked own = held
  · intro own request _ unparking
    cases request with
    | issue taskId action => exact absurd unparking not_false
    | _ => trivial
  · intro own request reply after holds unparking answered
    obtain ⟨_, rfl⟩ := answered
    rw [parked_concat, unparking_holds unparking]
    exact holds
  · exact holds

theorem issues_seq {program : Code α} {next : α → Code β} {middle : Own → Except Exn α → Prop}
    (first : Issues program own middle)
    (rest : ∀ own value, middle own (.ok value) → Issues (next value) own fun _ _ => True) :
    Issues (program >>= next) own fun _ _ => True :=
  first.seq (fun own value reached => rest own value reached) fun _ _ _ => trivial

theorem issues_drop {program : Code α} (issues : Issues program own fun _ _ => True) :
    Issues (dropValue program) own fun _ _ => True :=
  issues_seq issues fun _ _ _ => trivial

theorem issues_request {taskId : Str} (holds : parked own = some taskId) :
    Issues (ApprovalService.request taskId "run") own fun _ _ => True := by
  apply meets_call_bind
  · exact And.intro holds rfl
  · intro approval after _
    trivial
  · intro error after _
    trivial

theorem issues_any {program : Code α} (asks : Asks Unparking program) :
    Issues program own fun _ _ => True :=
  (unparking_issues asks rfl).post fun _ _ _ => trivial

section Ingesting

open ControlPlane

variable (plane : ControlPlane)

theorem Answering.unissuing (request : Request) (answering : Answering request) :
    Unissuing request := by
  cases request <;> trivial

theorem Deciding.unissuing (request : Request) (deciding : Deciding request) :
    Unissuing request := by
  cases request with
  | issue taskId action => exact absurd deciding not_false
  | _ => trivial

theorem issues_request_approval (stored : Task) (recipient : Option Str) (reason : GateReason)
    (holds : parked own = some stored.id) :
    Issues (plane.requestApproval stored recipient reason) own fun _ _ => True := by
  have telling : Asks Unparking (emit plane.events stored.id "approval.requested"
      [("reason".toList, .text reason.value)]) := asks_emit (fun _ _ _ => trivial) _ _ _ _
  apply issues_seq (unparking_issues telling holds)
  intro own _ holds
  split
  · split_ifs
    · trivial
    · apply issues_seq (issues_request holds)
      intro own token _
      exact issues_any (asks_call trivial)
  · exact issues_drop (issues_request holds)

theorem issues_store (recipient : Option Str) (report : IngestReport) (result : NormalizedTask)
    (reason : Option GateReason) :
    Issues (plane.store recipient report result reason) own fun _ _ => True := by
  apply meets_call_bind
  · trivial
  · intro stored after answered
    obtain ⟨_, rfl⟩ := answered
    cases stored with
    | none => trivial
    | some stored =>
        have telling : Asks Unparking (emit plane.events result.task.id "task.accepted"
            [("repo".toList, .text result.spec.repoUrl)]) := asks_emit (fun _ _ _ => trivial) _ _ _ _
        cases reason with
        | none => exact issues_seq (issues_any telling) fun _ _ _ => trivial
        | some reason =>
            apply issues_seq (unparking_issues telling (parked_concat _ _))
            intro own _ holds
            exact issues_seq (issues_request_approval plane stored recipient reason holds)
              fun _ _ _ => trivial
  · intro error after _
    trivial

theorem issues_accept (message : RawMessage) (recipient : Option Str) (report : IngestReport)
    (result : NormalizedTask) :
    Issues (plane.accept message recipient report result) own fun _ _ => True := by
  have judging : ∀ request, Judging request → Unissuing request := by
    intro request judges
    cases request <;> trivial
  apply issues_seq (unissuing_issues (asks_flag_suspicious judging plane message report))
  intro own flag _
  obtain ⟨suspicious, report⟩ := flag
  simp only
  split_ifs
  · apply issues_seq (unissuing_issues (asks_gate_reason judging plane _ _))
    intro own reason _
    exact issues_store plane recipient report result reason
  · exact issues_store plane recipient report result none

variable [Unicode]

theorem issues_intake (recipient : Option Str) (report : IngestReport) (message : RawMessage) :
    Issues (plane.intake recipient report message) own fun _ _ => True := by
  unfold ControlPlane.intake
  split
  · exact unissuing_issues (asks_reject Answering.unissuing plane _ _ _ _ _)
  · apply issues_seq (unissuing_issues (asks_repo_allowed Answering.unissuing plane _))
    intro own permitted _
    split_ifs
    · exact issues_accept plane message recipient report _
    · exact unissuing_issues (asks_reject Answering.unissuing plane _ _ _ _ _)

theorem issues_message (recipient : Option Str) (report : IngestReport) (message : RawMessage) :
    Issues (plane.ingestMessage recipient report message) own fun _ _ => True := by
  apply issues_seq (unissuing_issues (asks_authorize (fun _ _ _ => trivial) plane message))
  intro own admitted _
  cases admitted with
  | error error =>
      exact issues_seq (issues_any (asks_emit (fun _ _ _ => trivial) _ _ _ _)) fun _ _ _ => trivial
  | ok _ =>
      simp only
      split
      · apply issues_seq (unissuing_issues (asks_decision Deciding.unissuing plane _ _ _))
        intro own decided _
        split_ifs
        · trivial
        · trivial
      · exact issues_intake plane recipient report message

theorem issues_all (recipient : Option Str) (messages : List RawMessage) (report : IngestReport) :
    Issues (plane.ingestAll recipient messages report) own fun _ _ => True := by
  induction messages generalizing report own with
  | nil => trivial
  | cons message rest ih =>
      apply issues_seq (issues_message plane recipient report message)
      intro own report _
      exact ih report

theorem issues_ingest (messages : List RawMessage) (recipient : Option Str) :
    Issues (plane.ingest messages recipient) own fun _ _ => True := by
  have acknowledging : Asks Unparking (plane.acknowledge messages) := by
    unfold ControlPlane.acknowledge
    split_ifs
    · exact asks_bind (asks_attempt trivial) fun _ => trivial
    · trivial
  apply issues_seq (issues_all plane recipient messages {})
  intro own report _
  exact issues_seq (issues_any acknowledging) fun _ _ _ => trivial

end Ingesting

section Others

variable [Unicode] [Sha256]

omit [Unicode] [Sha256] in
theorem unissuing_looking {program : Code α} (asks : Asks TaskWorker.Looking program) :
    Asks Unissuing program :=
  asks.mono fun request looking => by
    cases request with
    | issue taskId action => exact absurd looking not_false
    | _ => trivial

omit [Unicode] [Sha256] in
theorem unissuing_guarding {task : Task} {program : Code α}
    (asks : Asks (TaskWorker.Guarding task) program) : Asks Unissuing program :=
  asks.mono fun request guarding => by
    cases request with
    | issue taskId action => exact absurd guarding not_false
    | _ => trivial

omit [Unicode] [Sha256] in
theorem asks_drop {allowed : Request → Prop} {program : Code α} (asks : Asks allowed program) :
    Asks allowed (dropValue program) :=
  asks_bind asks fun _ => trivial

theorem unissuing_execute (executor : TaskExecutor) (task : Task) (spec : TaskSpec)
    (recipient : Option Str) (claimed : Bool) (verifier : Option CommandVerifier) :
    Asks Unissuing (executor.execute task spec recipient claimed verifier) := by
  have running : ∀ running, Asks Unissuing
      (executor.executeRunning task running spec recipient verifier) := fun running =>
    (TaskExecutor.asks_execute_running executor task running spec verifier recipient).mono
      fun request executing => by
        cases request with
        | issue taskId action => exact absurd executing not_false
        | _ => trivial
  have begun : Asks Unissuing (executor.executeClaimed task spec recipient verifier) := by
    apply asks_bind (asks_call trivial)
    intro found
    cases found with
    | none => trivial
    | some found => exact running found
  cases claimed with
  | true => exact begun
  | false =>
      apply asks_bind (asks_call trivial)
      intro taken
      cases taken with
      | false => trivial
      | true => exact begun

theorem unissuing_run (worker : TaskWorker) (taskId : Str) :
    Asks Unissuing (worker.run taskId) := by
  apply asks_bind (asks_call trivial)
  intro found
  cases found with
  | none => trivial
  | some task =>
      apply asks_bind (unissuing_looking (TaskWorker.asks_guard_budget worker task.id))
      intro _
      apply asks_bind (unissuing_guarding (TaskWorker.asks_guard_attempts worker task))
      intro _
      apply asks_bind (unissuing_guarding (TaskWorker.asks_guard_dependencies worker task))
      intro _
      apply asks_bind (unissuing_guarding (TaskWorker.asks_guard_policy worker task))
      intro _
      apply asks_bind (asks_call trivial)
      intro spec
      apply asks_bind (unissuing_looking (TaskWorker.asks_effective worker task spec))
      intro effective
      exact unissuing_execute worker.executor task _ _ _ _

theorem unissuing_run_first (worker : TaskWorker) (tasks : List Task) :
    Asks Unissuing (worker.runFirst tasks) := by
  induction tasks with
  | nil => trivial
  | cons task rest ih =>
      have telling : ∀ kind data, Asks Unissuing (emit worker.events task.id kind data) :=
        fun kind data => asks_emit (fun _ _ _ => trivial) worker.events task.id kind data
      apply asks_bind (unissuing_looking (TaskWorker.asks_dependencies task))
      intro status
      cases status.state with
      | failed =>
          apply asks_bind (asks_call trivial)
          intro _
          exact asks_bind (telling _ _) fun _ => ih
      | blocked => exact asks_bind (telling _ _) fun _ => ih
      | ready =>
          apply asks_bind (unissuing_guarding (TaskWorker.asks_runnable worker task))
          intro passed
          cases passed with
          | false => exact ih
          | true =>
              apply asks_bind (asks_call trivial)
              intro taken
              cases taken with
              | false => exact ih
              | true =>
                  apply asks_bind (asks_call trivial)
                  intro spec
                  apply asks_bind (unissuing_looking (TaskWorker.asks_effective worker task spec))
                  intro effective
                  exact unissuing_execute worker.executor task _ _ true _

theorem unissuing_work (job : Work) : Asks Unissuing job.program := by
  cases job with
  | run worker taskId => exact asks_drop (unissuing_run worker taskId)
  | runNext worker =>
      apply asks_drop
      apply asks_bind (unissuing_looking (TaskWorker.asks_guard_budget worker _))
      intro _
      exact asks_bind (asks_call trivial) fun tasks => unissuing_run_first worker tasks
  | execute executor task spec recipient verifier =>
      exact asks_drop (unissuing_execute executor task spec recipient false verifier)
  | executeNext executor lease spec recipient verifier =>
      apply asks_bind (asks_call trivial)
      intro taken
      cases taken with
      | none => trivial
      | some task => exact asks_drop (unissuing_execute executor task spec recipient true verifier)

omit [Sha256] in
theorem unissuing_apply (reply : ApprovalReply) (sender threadId : Option Str) :
    Asks Unissuing (ApprovalService.apply reply sender threadId) := by
  apply asks_bind (asks_call trivial)
  intro approval
  cases approval with
  | none => trivial
  | some approval =>
      apply asks_bind (asks_call trivial)
      intro task
      cases task with
      | none => trivial
      | some task =>
          simp only
          split_ifs
          · trivial
          · trivial
          · trivial
          · exact asks_bind (asks_call trivial) fun _ => asks_call trivial

omit [Unicode] [Sha256] in
theorem unissuing_dispatch (dispatcher : TaskDispatcher) (tasks : List Task) :
    Asks Unissuing (dispatcher.dispatchAll tasks) := by
  induction tasks with
  | nil => trivial
  | cons task rest ih =>
      unfold TaskDispatcher.dispatchAll
      split_ifs
      · exact ih
      · apply asks_bind (unissuing_looking (TaskWorker.asks_dependencies task))
        intro status
        cases status.state with
        | failed => exact asks_bind (asks_call trivial) fun _ => ih
        | blocked => exact ih
        | ready =>
            apply asks_bind (asks_call trivial)
            intro job
            apply asks_bind (asks_call trivial)
            intro _
            exact asks_bind ih fun _ => trivial

theorem issues_operation (operation : Operation) :
    Issues operation.start own fun _ _ => True := by
  cases operation with
  | ingest plane messages recipient => exact issues_drop (issues_ingest plane messages recipient)
  | apply reply sender threadId =>
      exact unissuing_issues (asks_drop (unissuing_apply reply sender threadId))
  | dispatchOnce dispatcher =>
      apply unissuing_issues
      apply asks_drop
      exact asks_bind (asks_call trivial) fun tasks => unissuing_dispatch dispatcher tasks
  | work job => exact unissuing_issues (unissuing_work job)
  | releaseStale now => exact unissuing_issues (asks_drop (asks_call trivial))

end Others

section Ticking

variable {command : IdleCommand}

abbrev Ticks [Sha256] (command : IdleCommand) (program : Code α) (own : Own)
    (post : Own → Except Exn α → Prop) : Prop :=
  Meets (heard Honest) (fun own request => MayIssue own request ∧ MayTick command own request)
    program own post

structure Submitting (command : IdleCommand) (signals : Signals) (own : Own)
    (proposals : List Proposal) : Prop where
  roomy : Roomy command own
  left : (command.chosen signals).drop (submitted own) = proposals

theorem Roomy.later (roomy : Roomy command own) (more : Own) : Roomy command (own ++ more) := by
  obtain ⟨page, member, allowed⟩ := roomy
  exact ⟨page, List.mem_append_left _ member, allowed⟩

theorem submitted_enqueue (own : Own) (task : Task) (state : TaskState)
    (reply : ports.Reply (.queue (.enqueue task state))) :
    submitted (own ++ [⟨.queue (.enqueue task state), reply⟩]) = submitted own + 1 :=
  List.countP_append

variable {signals : Signals} {proposals : List Proposal}

theorem Submitting.and (submitting : Submitting command signals own proposals)
    {event : Exchange ports} (other : ∀ op, event.1 ≠ .queue op) :
    Submitting command signals (own ++ [event]) proposals where
  roomy := submitting.roomy.later _
  left := by
    obtain ⟨request, reply⟩ := event
    have same : submitted (own ++ [⟨request, reply⟩]) = submitted own := by
      unfold submitted
      rw [List.countP_append]
      cases request with
      | queue op => exact absurd rfl (other op)
      | _ => rfl
    rw [same]
    exact submitting.left

theorem Submitting.next {proposal : Proposal} {task : Task} {state : TaskState}
    (submitting : Submitting command signals own (proposal :: proposals))
    (reply : ports.Reply (.queue (.enqueue task state))) :
    Submitting command signals (own ++ [⟨.queue (.enqueue task state), reply⟩]) proposals where
  roomy := submitting.roomy.later _
  left := by
    rw [submitted_enqueue, ← List.drop_drop, submitting.left]
    rfl

theorem Submitting.first {proposal : Proposal}
    (submitting : Submitting command signals own (proposal :: proposals)) :
    (command.chosen signals)[submitted own]? = some proposal := by
  have left := congrArg List.head? submitting.left
  rw [List.head?_drop] at left
  exact left

variable [Sha256]

theorem ticks_request {stored : Task} (submitting : Submitting command signals own proposals)
    (holds : parked own = some stored.id) :
    Ticks command (ApprovalService.request stored.id "run") own fun after outcome =>
      ∀ token, outcome = .ok token → Submitting command signals after proposals := by
  apply meets_call_bind
  · exact ⟨⟨holds, rfl⟩, trivial⟩
  · intro approval after answered token _
    obtain ⟨_, rfl⟩ := answered
    exact submitting.and fun op other => by cases other
  · intro error after _ token never
    cases never

theorem ticks_request_approval (stored : Task) (proposal : Proposal)
    (submitting : Submitting command signals own proposals) (holds : parked own = some stored.id) :
    Ticks command (command.requestApproval stored proposal) own fun after outcome =>
      outcome = .ok () → Submitting command signals after proposals := by
  unfold IdleCommand.requestApproval
  split
  · apply (ticks_request submitting holds).seq
    · intro own token asked
      apply meets_call
      · exact ⟨trivial, trivial⟩
      · intro reply after answered _
        obtain ⟨_, rfl⟩ := answered
        exact (asked token rfl).and fun op other => by cases other
    · intro own error _ never
      cases never
  · apply (ticks_request submitting holds).seq
    · exact fun own token asked _ => asked token rfl
    · intro own error _ never
      cases never

theorem ticks_submit {proposal : Proposal} (collected : command.collected = .ok signals)
    (submitting : Submitting command signals own (proposal :: proposals)) :
    Ticks command (command.submit proposal) own fun after outcome =>
      ∀ value, outcome = .ok value → Submitting command signals after proposals := by
  apply meets_call_bind
  · apply And.intro trivial
    exact ⟨submitting.roomy, rfl, signals, proposal, collected, submitting.first, rfl⟩
  · intro found after answered
    obtain ⟨_, rfl⟩ := answered
    have next := submitting.next (.ok found)
    cases found with
    | none => exact fun _ _ => next
    | some stored =>
        simp only
        split_ifs with open_
        · exact fun _ _ => next
        · have holds : parked (own ++ [⟨.queue (.enqueue (command.taskOf proposal) command.stateOf),
              .ok (some stored)⟩]) = some stored.id := by
            rw [parked_concat, IdleCommand.stateOf, if_neg open_]
            rfl
          apply (ticks_request_approval stored proposal next holds).seq
          · intro own value reached _ _
            exact reached rfl
          · intro own error _ value never
            cases never
  · intro error after _ value never
    cases never

theorem ticks_submit_all (collected : command.collected = .ok signals) (proposed : List Str)
    (submitting : Submitting command signals own proposals) :
    Ticks command (command.submitAll proposals proposed) own fun _ _ => True := by
  induction proposals generalizing own proposed with
  | nil => trivial
  | cons proposal rest ih =>
      apply (ticks_submit collected submitting).seq
      · intro own submitted reached
        have later := reached submitted rfl
        cases submitted with
        | none => exact ih proposed later
        | some id => exact ih (proposed ++ [id]) later
      · exact fun _ _ _ => trivial

theorem ticks_tick (command : IdleCommand) : Ticks command command.tick [] fun _ _ => True := by
  apply meets_call_bind
  · exact ⟨trivial, trivial⟩
  · intro page after answered
    obtain ⟨_, rfl⟩ := answered
    simp only
    split_ifs with full
    · trivial
    · unfold IdleCommand.collect
      cases collected : command.collected with
      | error error => trivial
      | ok signals =>
          have submitting : Submitting command signals [⟨.queue (.list .queued 1000), .ok page⟩]
              (command.chosen signals) := by
            constructor
            · exact ⟨page, List.mem_singleton_self _, by simpa using full⟩
            · rfl
          apply (ticks_submit_all collected [] submitting).seq
          · exact fun _ _ _ => trivial
          · exact fun _ _ _ => trivial
  · exact fun _ _ _ => trivial

end Ticking

def activities [Unicode] [Sha256] (Q : QueueBackend) (A : ApprovalBackend) :
    Discipline (surroundings Q A) Activity.start where
  honest := Honest
  may := Activity.may
  truthful _ _ _ _ answered := surroundings_honest answered
  programs activity := by
    cases activity with
    | idle command =>
        apply (ticks_tick command).seq
        · exact fun _ _ _ => trivial
        · exact fun _ _ _ => trivial
    | other operation => exact (issues_operation operation).both ((discipline Q A).programs operation)

end DearAgent.Idle
