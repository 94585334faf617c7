import DearAgent.Executor
import DearAgent.Lib.Mirrors

/-!
# The output of the harness stays where it is

Two executions whose collaborators behave alike, only that the harness prints something
else. They ask the same of everyone else: the same messages, events, pull request and
transition.
-/

namespace DearAgent

open DearAgent.Lib.Text DearAgent.Lib.Effects DearAgent.Queue

set_option autoImplicit false

namespace Output

/-- Two runs of a harness that differ in what was printed and in the extra values. -/
structure SameButOutput (run run' : RunResult) : Prop where
  exitCode : run.exitCode = run'.exitCode
  branch : run.branch = run'.branch
  commit : run.commit = run'.commit
  prUrl : run.prUrl = run'.prUrl

theorem SameButOutput.refl (run : RunResult) : SameButOutput run run := ⟨rfl, rfl, rfl, rfl⟩

theorem SameButOutput.ok {run run' : RunResult} (same : SameButOutput run run') : run.ok = run'.ok := by
  unfold RunResult.ok
  rw [same.exitCode]

/-- What two harnesses answer that differ in their output alone. -/
def AlikeRuns : Except Exn RunResult → Except Exn RunResult → Prop
  | .ok run, .ok run' => SameButOutput run run'
  | .error error, .error error' => error = error'
  | _, _ => False

/-- Replies that differ in the output of the harness alone. -/
def AlikeReplies : (request : Request) → ports.Reply request → ports.Reply request → Prop
  | .runHarness _ _ _ => AlikeRuns
  | _ => Eq

/-- All requests but the run of the harness. -/
def Aside : Request → Prop
  | .runHarness _ _ _ => False
  | _ => True

abbrev Same {α β : Type} (related : α → β → Prop) (code : Code α) (code' : Code β) : Prop :=
  Mirrors AlikeReplies related code code'

variable {α : Type}

theorem aside_same {code : Code α} (asks : Asks Aside code) : Same Eq code code := by
  apply asks.mirrors
  intro request reply reply' aside alike
  cases request with
  | runHarness task spec worktree => exact aside.elim
  | _ => exact alike

theorem aside_emit (events : Bool) (taskId kind : Str) (data : EventData) :
    Asks Aside (emit events taskId kind data) :=
  asks_emit (fun _ _ _ => trivial) events taskId kind data

theorem aside_bind {β γ : Type} {related : β → γ → Prop} {code : Code α} {next : α → Code β}
    {next' : α → Code γ} (asks : Asks Aside code)
    (rest : ∀ value, Same related (next value) (next' value)) :
    Same related (code >>= next) (code >>= next') := by
  apply (aside_same asks).bind
  rintro value _ rfl
  exact rest value

section Executing

open TaskExecutor

variable (executor : TaskExecutor) (task running : Task) (spec : TaskSpec) (worktree : Worktree)
  (verifier : Option CommandVerifier)

variable {executor verifier} in
theorem beside_aside {out : Exchange ports → Option Exn} {code : Code α}
    (lets : LetsOut (Beside executor verifier) out code) : Asks Aside code :=
  lets.asks.mono fun request asked => by
    cases request with
    | runHarness task spec worktree => exact asked
    | _ => trivial

theorem same_run_harness :
    Same SameButOutput (runHarness task spec worktree) (runHarness task spec worktree) := by
  refine .ask _ _ _ fun reply reply' alike => ?_
  cases reply with
  | ok run =>
      cases reply' with
      | ok run' => exact .ret run run' alike
      | error error => exact alike.elim
  | error error =>
      cases reply' with
      | ok run' => exact alike.elim
      | error error' =>
          obtain rfl : error = error' := alike
          change Mirrors _ _ (Lib.Effects.bind (if error.isException = true then _ else _) _)
            (Lib.Effects.bind (if error.isException = true then _ else _) _)
          by_cases caught : error.isException = true
          · rw [if_pos caught]
            exact .ret _ _ (.refl _)
          · rw [if_neg caught]
            exact Mirrors.raise (S := ports) error

/-- Where a debate stands, but for the output of its last run. -/
structure SameDebated (debated debated' : Debated) : Prop where
  run : SameButOutput debated.run debated'.run
  spec : debated.spec = debated'.spec
  failure : debated.failure = debated'.failure
  review : debated.review = debated'.review

include verifier in
theorem same_debate_round {current current' : Debated} (same : SameDebated current current')
    {revise revise' : ReviewVerdict → Code Debated}
    (revises : ∀ verdict, Same SameDebated (revise verdict) (revise' verdict)) :
    Same SameDebated (executor.debateRound task worktree current revise)
      (executor.debateRound task worktree current' revise') := by
  obtain ⟨run', _, _, _⟩ := current'
  obtain ⟨ran, rfl, rfl, rfl⟩ := same
  apply aside_bind (beside_aside (review_diff_lets executor current.spec worktree verifier))
  intro reviewed
  cases reviewed with
  | error error =>
      apply aside_bind (aside_emit executor.events task.id _ _)
      exact fun _ => .ret _ _ ⟨ran, rfl, rfl, rfl⟩
  | ok verdict =>
      apply aside_bind (aside_emit executor.events task.id _ _)
      intro _
      by_cases approved : verdict.approved
      · rw [if_pos approved, if_pos approved]
        exact .ret _ _ ⟨ran, rfl, rfl, rfl⟩
      · rw [if_neg approved, if_neg approved]
        exact revises verdict

theorem same_debate_from (rounds : Nat) {current current' : Debated}
    (same : SameDebated current current') :
    Same SameDebated (executor.debateFrom task worktree verifier rounds current)
      (executor.debateFrom task worktree verifier rounds current') := by
  induction rounds generalizing current current' with
  | zero =>
      apply same_debate_round executor task worktree verifier same
      exact fun verdict => .ret _ _ ⟨same.run, same.spec, same.failure, rfl⟩
  | succ remaining ih =>
      apply same_debate_round executor task worktree verifier same
      intro verdict
      obtain ⟨run', _, _, _⟩ := current'
      obtain ⟨ran, rfl, rfl, rfl⟩ := same
      unfold reviseRun
      refine (same_run_harness task _ worktree).bind fun next next' reran => ?_
      rw [reran.ok]
      by_cases failed : !next'.ok
      · rw [if_pos failed, if_pos failed]
        exact .ret _ _ ⟨ran, rfl, rfl, rfl⟩
      · rw [if_neg failed, if_neg failed]
        apply aside_bind (beside_aside (verify_lets executor task _ worktree verifier))
        intro failure
        by_cases stopped : failure.isSome
        · rw [if_pos stopped, if_pos stopped]
          exact .ret _ _ ⟨reran, rfl, rfl, rfl⟩
        · rw [if_neg stopped, if_neg stopped]
          exact ih ⟨reran, rfl, rfl, rfl⟩

theorem same_debate {run run' : RunResult} (same : SameButOutput run run')
    (failure : Option FailureKind) :
    Same SameDebated (executor.debate task spec worktree run failure verifier)
      (executor.debate task spec worktree run' failure verifier) := by
  unfold debate
  by_cases undebated : !executor.reviewer || executor.debateRounds ≤ 0
  · rw [if_pos undebated, if_pos undebated]
    exact .ret _ _ ⟨same, rfl, rfl, rfl⟩
  · rw [if_neg undebated, if_neg undebated]
    exact same_debate_from executor task worktree verifier _ ⟨same, rfl, rfl, rfl⟩

/-- What an execution came to, but for the output of its last run. -/
structure SameDelivery (delivery delivery' : Delivery) : Prop where
  run : SameButOutput delivery.run delivery'.run
  spec : delivery.spec = delivery'.spec
  failure : delivery.failure = delivery'.failure
  commit : delivery.commit = delivery'.commit
  prUrl : delivery.prUrl = delivery'.prUrl
  review : delivery.review = delivery'.review

theorem same_exit_failure {run run' : RunResult} (same : SameButOutput run run') :
    exitFailure run = exitFailure run' := by
  unfold exitFailure
  rw [same.exitCode]

theorem same_deliver :
    Same SameDelivery (executor.deliver task spec worktree verifier)
      (executor.deliver task spec worktree verifier) := by
  refine (same_run_harness task spec worktree).bind fun run run' ran => ?_
  rw [ran.ok]
  by_cases failed : !run'.ok
  · rw [if_pos failed, if_pos failed, same_exit_failure ran]
    exact .ret _ _ ⟨ran, rfl, rfl, rfl, rfl, rfl⟩
  · rw [if_neg failed, if_neg failed]
    apply aside_bind (beside_aside (verify_lets executor task spec worktree verifier))
    intro failure
    cases failure with
    | some kind => exact .ret _ _ ⟨ran, rfl, rfl, rfl, rfl, rfl⟩
    | none =>
        refine (same_debate executor task spec worktree verifier ran none).bind
          fun debated debated' same => ?_
        obtain ⟨last', _, _, _⟩ := debated'
        obtain ⟨last, spec, failure, review⟩ := debated
        obtain ⟨reran, rfl, rfl, rfl⟩ := same
        cases failure with
        | some kind => exact .ret _ _ ⟨reran, rfl, rfl, rfl, rfl, rfl⟩
        | none =>
            apply aside_bind (beside_aside (publish_lets executor task spec worktree verifier review))
            exact fun published => .ret _ _ ⟨reran, rfl, rfl, rfl, rfl, rfl⟩

/-- The evidence of an execution, but for the output of its run. -/
structure SameEvidence (evidence evidence' : ExecutedTask) : Prop where
  taskId : evidence.taskId = evidence'.taskId
  branch : evidence.branch = evidence'.branch
  commit : evidence.commit = evidence'.commit
  prUrl : evidence.prUrl = evidence'.prUrl
  run : SameButOutput evidence.run evidence'.run
  failure : evidence.failure = evidence'.failure
  detail : evidence.detail = evidence'.detail
  review : evidence.review = evidence'.review

theorem same_evidence {delivery delivery' : Delivery} (same : SameDelivery delivery delivery') :
    SameEvidence (evidenceOf running worktree delivery) (evidenceOf running worktree delivery') := by
  obtain ⟨ran, spec, failure, commit, prUrl, review⟩ := same
  refine ⟨rfl, rfl, commit, prUrl, ran, failure, ?_, review⟩
  simp only [evidenceOf]
  rw [spec, failure]

theorem report_aside (evidence : ExecutedTask) (recipient : Option Str) :
    Asks Aside (executor.report evidence recipient) :=
  (asks_report executor evidence recipient).mono fun request asked => by
    cases request with
    | runHarness task spec worktree => exact asked
    | _ => trivial

theorem same_report {evidence evidence' : ExecutedTask} (same : SameEvidence evidence evidence')
    (recipient : Option Str) :
    Same Eq (executor.report evidence recipient) (executor.report evidence' recipient) := by
  have equal : executor.report evidence recipient = executor.report evidence' recipient := by
    obtain ⟨taskId, branch, commit, prUrl, run, failure, detail, review⟩ := same
    unfold report ExecutedTask.ok
    rw [taskId, branch, commit, prUrl, run.exitCode, failure, detail]
  rw [← equal]
  exact aside_same (report_aside executor evidence recipient)

theorem same_finish {evidence evidence' : ExecutedTask} (same : SameEvidence evidence evidence')
    (recipient : Option Str) :
    Same SameEvidence (executor.finish running evidence recipient)
      (executor.finish running evidence' recipient) := by
  obtain ⟨_, _, _, _, run', _, _, _⟩ := evidence'
  obtain ⟨rfl, rfl, rfl, rfl, ran, rfl, rfl, rfl⟩ := same
  apply aside_bind (asks_call (by exact trivial))
  intro final
  apply aside_bind (aside_emit executor.events final.id _ _)
  intro _
  have named : SameEvidence { evidence with taskId := final.id }
      { evidence with taskId := final.id, run := run' } := ⟨rfl, rfl, rfl, rfl, ran, rfl, rfl, rfl⟩
  exact (same_report executor named recipient).bind fun _ _ _ => .ret _ _ named

theorem cleanup_aside (session : Option Sandbox) :
    Asks Aside (executor.cleanup session worktree) :=
  (asks_cleanup executor session worktree).mono fun request asked => by
    cases request with
    | runHarness task spec worktree => exact asked
    | _ => trivial

theorem session_aside : Asks Aside (executor.runSession task spec worktree) := by
  unfold runSession
  split_ifs
  · trivial
  · exact asks_catch (asks_call (by exact trivial)) fun error =>
      asks_bind (cleanup_aside executor worktree none) fun _ => trivial

theorem same_run_in (recipient : Option Str) :
    Same SameEvidence (executor.runIn task running spec recipient verifier worktree)
      (executor.runIn task running spec recipient verifier worktree) := by
  apply aside_bind (session_aside executor task spec worktree)
  intro session
  apply Mirrors.finally
  · refine (same_deliver executor task spec worktree _).bind fun delivery delivery' same => ?_
    exact same_finish executor running (same_evidence running worktree same) recipient
  · exact aside_same (cleanup_aside executor worktree session)

variable [Unicode] [Sha256]

theorem same_execute_claimed (recipient : Option Str) :
    Same SameEvidence (executor.executeClaimed task spec recipient verifier)
      (executor.executeClaimed task spec recipient verifier) := by
  apply aside_bind (asks_call (by exact trivial))
  intro found
  cases found with
  | none => exact Mirrors.raise (S := ports) .assertionError
  | some running =>
      apply aside_bind (aside_emit executor.events task.id _ _)
      intro _
      apply aside_bind (asks_attempt (by exact trivial))
      intro created
      cases created with
      | error error =>
          apply aside_bind (asks_call (by exact trivial))
          exact fun _ => Mirrors.raise (S := ports) error
      | ok worktree => exact same_run_in executor task running spec worktree verifier recipient

theorem same_execute (recipient : Option Str) (claimed : Bool) :
    Same SameEvidence (executor.execute task spec recipient claimed verifier)
      (executor.execute task spec recipient claimed verifier) := by
  unfold execute
  by_cases already : claimed
  · rw [if_pos already]
    exact same_execute_claimed executor task spec verifier recipient
  · rw [if_neg already]
    apply aside_bind (asks_call (by exact trivial))
    intro taken
    by_cases own : taken
    · rw [if_pos own]
      exact same_execute_claimed executor task spec verifier recipient
    · rw [if_neg own]
      exact Mirrors.raise (S := ports) _

end Executing

/-- Collaborators that behave alike, only that the harness prints something else. -/
abbrev SameCollaborators {σ : Type} (answer answer' : (request : Request) → σ →
    ports.Reply request × σ) : Prop :=
  AnswersAlike (S := ports) AlikeReplies answer answer'

/-- Two executions among such collaborators ask the same in the same order and leave the
same state, so that they send the same messages, record the same events, open the same
pull request and end the task alike; what they return differs in the output at most. -/
theorem output_stays_home [Unicode] [Sha256] {σ : Type}
    {answer answer' : (request : Request) → σ → ports.Reply request × σ}
    (alike : SameCollaborators answer answer') (executor : TaskExecutor) (task : Task)
    (spec : TaskSpec) (recipient : Option Str) (claimed : Bool) (verifier : Option CommandVerifier)
    (state : σ) :
    let first := run answer (executor.execute task spec recipient claimed verifier) state
    let second := run answer' (executor.execute task spec recipient claimed verifier) state
    requests first.1 = requests second.1 ∧ EndsRelated SameEvidence first.2.1 second.2.1 ∧
      first.2.2 = second.2.2 :=
  Mirrors.run (S := ports) alike (same_execute executor task spec verifier recipient claimed) state

section Example

local instance outputTables : Unicode := asciiTables

local instance outputSha256 : Sha256 := ⟨id⟩

def printingTask : Task where
  id := "m1"
  transportId := "m1"
  state := .running
  createdAt := 0

def printing (printed : Str) (request : Request) (state : Nat) : ports.Reply request × Nat :=
  match request with
  | .runHarness _ _ _ => (.ok { exitCode := 1, stdout := printed, stderr := printed }, state + 1)
  | .queue (.get _) => (.ok (some printingTask), state)
  | .queue (.transition task _ _) => (.ok task, state)
  | .createWorktree repoPath root slug _ => (.ok ⟨repoPath, root, slug⟩, state)
  | .send _ => (.ok (), state + 1)
  | .record _ _ _ => (.ok (), state + 1)
  | .removeWorktree _ => (.ok (), state)
  | _ => (.error .assertionError, state)

def printingExecutor : TaskExecutor where
  repoPath := "/repo"
  worktreesRoot := "/worktrees"
  escalator := true
  events := true

theorem printing_alike (printed printed' : Str) :
    SameCollaborators (printing printed) (printing printed') := by
  intro request state
  cases request with
  | runHarness task spec worktree => exact ⟨⟨rfl, rfl, rfl, rfl⟩, rfl⟩
  | queue op => cases op <;> exact ⟨rfl, rfl⟩
  | _ => exact ⟨rfl, rfl⟩

def printedRun (printed : Str) :=
  run (printing printed) (printingExecutor.execute printingTask { repoUrl := "a/b" }
    (some "ann@example.org") true none) 0

/-- An escalation of a harness that printed a line says what it says of a silent one. -/
theorem printed_line_stays_home :
    requests (printedRun "API_KEY=1").1 = requests (printedRun "").1 ∧
      EndsRelated SameEvidence (printedRun "API_KEY=1").2.1 (printedRun "").2.1 ∧
      (printedRun "API_KEY=1").2.2 = (printedRun "").2.2 :=
  output_stays_home (printing_alike _ _) printingExecutor printingTask { repoUrl := "a/b" }
    (some "ann@example.org") true none 0

end Example

end Output

end DearAgent
