import DearAgent.Ports

/-!
# The executor

`executor.py`: one claimed task from the worktree over the harness, the verify
gate and the review to the draft pull request, and the transition that ends it.
-/

namespace DearAgent

open DearAgent.Lib.Text DearAgent.Lib.Effects DearAgent.Queue

set_option autoImplicit false

/-- `hashlib.sha256(text.encode()).hexdigest()`. -/
class Sha256 where
  hexdigest : Str → Str

structure ExecutedTask where
  taskId : Str
  branch : Str
  commit : Option Str
  prUrl : Option Str
  run : RunResult
  failure : Option FailureKind := none
  detail : Option Str := none
  review : Option ReviewVerdict := none
deriving DecidableEq

def ExecutedTask.ok (evidence : ExecutedTask) : Bool := evidence.failure.isNone

/-- The configuration of an executor. The collaborators it may have are there or
not; `sessionProvider` says that its runner names the session of a task. -/
structure TaskExecutor where
  repoPath : Str
  worktreesRoot : Str
  notifier : Bool := false
  escalator : Bool := false
  verifier : Option CommandVerifier := none
  events : Bool := false
  lease : Duration := 6 * 3600 * 1000000
  session : Option Sandbox := none
  reviewer : Bool := false
  debateRounds : Int := 0
  sessionProvider : Bool := false
deriving DecidableEq

namespace TaskExecutor

section Texts

variable [Unicode] [Sha256]

def slug (task : Task) : Str :=
  let raw := orElse task.subject task.id
  let dashed := (Unicode.lower raw).map fun c => if Unicode.isAlnum c then c else '-'
  let pieces := (splitAt (fun c => c = '-') dashed).filter fun piece => !piece.isEmpty
  let name := (join "-" pieces).take 40
  orElse (some name) "task" ++ '-' :: (Sha256.hexdigest task.id).take 8

omit [Unicode] [Sha256]

def commitMessage (task : Task) (spec : TaskSpec) : Str :=
  orElse task.subject ("dear-agent: ".toList ++
    if spec.instructions.isEmpty then task.id else (splitlines spec.instructions).headD [])

def prTitle (task : Task) : Str := orElse task.subject ("dear-agent: ".toList ++ task.id)

def prBody (task : Task) (review : Option ReviewVerdict) : Str :=
  join "\n" (["Task: \x60".toList ++ task.id ++ "\x60".toList, [],
      "Opened by an agent. A human reviews and lands it; agents never write \x60main\x60.".toList] ++
    match review with
    | none => []
    | some verdict =>
        [[], "Reviewer: ".toList ++
            (if verdict.approved then "approved".toList else "requested a revision".toList) ++ ['.']] ++
          if verdict.summary.isEmpty then [] else ['_' :: verdict.summary ++ ['_']])

def reviseInstructions (instructions notes : Str) : Str :=
  if (strip notes).isEmpty then instructions
  else instructions ++
    "\n\n---\nA reviewer asked for a revision. Address these points:\n".toList ++ strip notes

end Texts

/-- `_run_harness`: a runner that raises is a run that failed. -/
def runHarness (task : Task) (spec : TaskSpec) (worktree : Worktree) : Code RunResult := do
  match ← attempt Exn.isException (.runHarness task spec worktree) with
  | .ok run => .ret run
  | .error error =>
      .ret {
        exitCode := 1
        stderr := "runner raised ".toList ++ error.className
        branch := some worktree.branch }

def verify (executor : TaskExecutor) (task : Task) (spec : TaskSpec) (worktree : Worktree)
    (verifier : Option CommandVerifier) : Code (Option FailureKind) :=
  if !truthy spec.verify then .ret none
  else
    let command := spec.verify.getD []
    match verifier.or executor.verifier with
    | none => do
        emit executor.events task.id "verify.blocked" [("command".toList, .text command)]
        .ret (some .verifyBlocked)
    | some active => do
        match ← attempt Exn.isException (.verify active command worktree.path) with
        | .error _ => do
            emit executor.events task.id "verify.failed"
              [("command".toList, .text command), ("error".toList, .text "verifier raised")]
            .ret (some .verifyFailed)
        | .ok result =>
            if result.blocked then do
              emit executor.events task.id "verify.blocked" [("command".toList, .text command)]
              .ret (some .verifyBlocked)
            else if !result.ok then do
              emit executor.events task.id "verify.failed"
                [("command".toList, .text command), ("exit_code".toList, .number result.exitCode)]
              .ret (some .verifyFailed)
            else do
              emit executor.events task.id "verify.passed" [("command".toList, .text command)]
              .ret none

/-- The diff and its review, the body of the `try` statement of `_debate`. -/
def reviewDiff (spec : TaskSpec) (worktree : Worktree) : Code (Except Exn ReviewVerdict) := do
  match ← attempt Exn.isException (.diff worktree spec.baseBranch) with
  | .error error => .ret (.error error)
  | .ok diff => attempt Exn.isException (.review diff spec.instructions)

structure Debated where
  run : RunResult
  spec : TaskSpec
  failure : Option FailureKind
  review : Option ReviewVerdict

/-- One pass of the loop of `_debate`, which goes on only where a revision is
asked for. -/
def debateRound (executor : TaskExecutor) (task : Task) (worktree : Worktree) (current : Debated)
    (revise : ReviewVerdict → Code Debated) : Code Debated := do
  match ← reviewDiff current.spec worktree with
  | .error _ => do
      emit executor.events task.id "review.skipped"
      .ret current
  | .ok verdict => do
      emit executor.events task.id
        (if verdict.approved then "review.approved" else "review.revise")
      if verdict.approved then .ret { current with review := some verdict }
      else revise verdict

/-- The re-run a verdict asks for, and `again` where it passed the gate. -/
def reviseRun (executor : TaskExecutor) (task : Task) (worktree : Worktree)
    (verifier : Option CommandVerifier) (current : Debated) (verdict : ReviewVerdict)
    (again : Debated → Code Debated) : Code Debated := do
  let revised := { current.spec with
    instructions := reviseInstructions current.spec.instructions verdict.notes }
  let nextRun ← runHarness task revised worktree
  -- The change published then is the prior one and whatever this run left behind.
  if !nextRun.ok then .ret { current with review := some verdict }
  else do
    let nextFailure ← executor.verify task revised worktree verifier
    let next : Debated := ⟨nextRun, revised, nextFailure, some verdict⟩
    if nextFailure.isSome then .ret next else again next

/-- The loop of `_debate`. -/
def debateFrom (executor : TaskExecutor) (task : Task) (worktree : Worktree)
    (verifier : Option CommandVerifier) : Nat → Debated → Code Debated
  | 0, current => executor.debateRound task worktree current fun verdict =>
      .ret { current with review := some verdict }
  | remaining + 1, current => executor.debateRound task worktree current fun verdict =>
      executor.reviseRun task worktree verifier current verdict
        (executor.debateFrom task worktree verifier remaining)

def debate (executor : TaskExecutor) (task : Task) (spec : TaskSpec) (worktree : Worktree)
    (run : RunResult) (failure : Option FailureKind) (verifier : Option CommandVerifier) :
    Code Debated :=
  if !executor.reviewer || executor.debateRounds ≤ 0 then .ret ⟨run, spec, failure, none⟩
  else executor.debateFrom task worktree verifier executor.debateRounds.toNat
    ⟨run, spec, failure, none⟩

/-- The failure, the commit and the pull request after publishing. -/
structure Published where
  failure : Option FailureKind
  commit : Option Str
  prUrl : Option Str

/-- The `except GitError` clause of the publishing. -/
def publishFailed (executor : TaskExecutor) (task : Task) (commit : Option Str) :
    Code Published := do
  emit executor.events task.id "publish.failed"
  .ret ⟨some .publishFailed, commit, none⟩

def publish (executor : TaskExecutor) (task : Task) (spec : TaskSpec) (worktree : Worktree)
    (review : Option ReviewVerdict) : Code Published := do
  match ← attempt Exn.isGitError (.commitAll worktree (commitMessage task spec)) with
  | .error _ => executor.publishFailed task none
  | .ok commit => do
      match ← attempt Exn.isGitError (.hasChangesSince worktree spec.baseBranch) with
      | .error _ => executor.publishFailed task (some commit)
      | .ok false => .ret ⟨some .noChanges, some commit, none⟩
      | .ok true => do
          match ← attempt Exn.isGitError (.push worktree) with
          | .error _ => executor.publishFailed task (some commit)
          | .ok _ => do
              match ← attempt Exn.isGitError
                (.openDraftPr worktree spec.baseBranch (prTitle task) (prBody task review)) with
              | .error _ => executor.publishFailed task (some commit)
              | .ok pr => .ret ⟨none, some commit, some pr.url⟩

def exitFailure (run : RunResult) : FailureKind :=
  if run.exitCode = 127 then .harnessMissing
  else if run.exitCode = 124 then .timeout
  else .harnessFailed

structure Delivery where
  run : RunResult
  spec : TaskSpec
  failure : Option FailureKind := none
  commit : Option Str := none
  prUrl : Option Str := none
  review : Option ReviewVerdict := none

def deliver (executor : TaskExecutor) (task : Task) (spec : TaskSpec) (worktree : Worktree)
    (verifier : Option CommandVerifier) : Code Delivery := do
  let run ← runHarness task spec worktree
  if !run.ok then .ret { run := run, spec := spec, failure := some (exitFailure run) }
  else do
    match ← executor.verify task spec worktree verifier with
    | some kind => .ret { run := run, spec := spec, failure := some kind }
    | none => do
        let debated ← executor.debate task spec worktree run none verifier
        match debated.failure with
        | some kind =>
            .ret {
              run := debated.run, spec := debated.spec, failure := some kind
              review := debated.review }
        | none => do
            let published ← executor.publish task debated.spec worktree debated.review
            .ret {
              run := debated.run, spec := debated.spec, failure := published.failure
              commit := published.commit, prUrl := published.prUrl, review := debated.review }

def isVerifyFailure (kind : FailureKind) : Bool := kind = .verifyFailed || kind = .verifyBlocked

def evidenceOf (running : Task) (worktree : Worktree) (delivery : Delivery) : ExecutedTask where
  taskId := running.id
  branch := worktree.branch
  commit := delivery.commit
  prUrl := delivery.prUrl
  run := delivery.run
  failure := delivery.failure
  detail := if delivery.failure.any isVerifyFailure then delivery.spec.verify else none
  review := delivery.review

def report (executor : TaskExecutor) (evidence : ExecutedTask) (recipient : Option Str) :
    Code Unit :=
  if !truthy recipient then .ret ()
  else do
    match ← Queue.get evidence.taskId with
    | none => .ret ()
    | some task =>
        match evidence.failure, executor.escalator with
        | some kind, true =>
            call (.send (Escalator.message task evidence.run.exitCode (recipient.getD [])
              (some evidence.branch) kind evidence.detail))
        | _, _ =>
            if !executor.notifier then .ret ()
            else
              call (.send (Notifier.statusMessage task (recipient.getD [])
                (if evidence.ok then "completed" else "harness failed")
                (some ⟨some evidence.branch, evidence.commit, evidence.prUrl⟩)))

def finish (executor : TaskExecutor) (running : Task) (evidence : ExecutedTask)
    (recipient : Option Str) : Code ExecutedTask := do
  let final ← Queue.transition running (if evidence.ok then .done else .failed)
    (some ⟨some evidence.branch, evidence.commit, evidence.prUrl⟩)
  let evidence := { evidence with taskId := final.id }
  emit executor.events final.id (if evidence.ok then "task.done" else "task.failed")
    [("failure".toList, Datum.ofOption (evidence.failure.map FailureKind.value)),
      ("pr_url".toList, Datum.ofOption evidence.prUrl)]
  executor.report evidence recipient
  .ret evidence

def close (session : Option Sandbox) : Code Unit :=
  match session with
  | none => .ret ()
  | some session => call (.closeSession session)

/-- The `finally` clause: the sessions end before the worktree disappears. -/
def cleanup (executor : TaskExecutor) (runSession : Option Sandbox) (worktree : Worktree) :
    Code Unit := do
  close (if runSession = executor.session then none else runSession)
  close executor.session
  call (.removeWorktree worktree)

/-- The session of a routing runner. The `finally` clause is under way here
already, with no session to end. -/
def runSession (executor : TaskExecutor) (task : Task) (spec : TaskSpec) (worktree : Worktree) :
    Code (Option Sandbox) :=
  if !executor.sessionProvider then .ret none
  else catchWith (call (.sessionFor task spec)) fun error => do
    executor.cleanup none worktree
    .raise error

def activeVerifier (executor : TaskExecutor) (verifier : Option CommandVerifier)
    (session : Option Sandbox) : Option CommandVerifier :=
  (verifier.or executor.verifier).map fun active =>
    if session.isSome then { active with sandbox := session } else active

def runIn (executor : TaskExecutor) (task running : Task) (spec : TaskSpec)
    (recipient : Option Str) (verifier : Option CommandVerifier) (worktree : Worktree) :
    Code ExecutedTask := do
  let session ← executor.runSession task spec worktree
  andFinally
    (do
      let delivery ← executor.deliver task spec worktree (executor.activeVerifier verifier session)
      executor.finish running (evidenceOf running worktree delivery) recipient)
    (executor.cleanup session worktree)

variable [Unicode] [Sha256]

/-- `execute` once the task was read after its claim. -/
def executeRunning (executor : TaskExecutor) (task running : Task) (spec : TaskSpec)
    (recipient : Option Str) (verifier : Option CommandVerifier) : Code ExecutedTask := do
  emit executor.events task.id "task.claimed"
  match ← attempt Exn.isException
    (.createWorktree executor.repoPath executor.worktreesRoot (slug task) spec.baseBranch) with
  | .error error => do
      let _ ← Queue.transition running .failed
      .raise error
  | .ok worktree => executor.runIn task running spec recipient verifier worktree

/-- `execute` once the task is claimed. -/
def executeClaimed (executor : TaskExecutor) (task : Task) (spec : TaskSpec)
    (recipient : Option Str) (verifier : Option CommandVerifier) : Code ExecutedTask := do
  match ← Queue.get task.id with
  | none => .raise .assertionError
  | some running => executor.executeRunning task running spec recipient verifier

def execute (executor : TaskExecutor) (task : Task) (spec : TaskSpec) (recipient : Option Str)
    (claimed : Bool) (verifier : Option CommandVerifier) : Code ExecutedTask :=
  if claimed then executor.executeClaimed task spec recipient verifier
  else do
    if ← Queue.claim task executor.lease then
      executor.executeClaimed task spec recipient verifier
    else .raise (.runtimeError ("task ".toList ++ task.id ++ " is not claimable".toList))

/-!
## What the parts of an execution ask
-/

/-- A report reads the task and sends a message. -/
def Reporting : Request → Prop
  | .queue (.get _) | .record _ _ _ | .send _ => True
  | _ => False

/-- A cleanup ends sessions and removes the worktree. -/
def Closing : Request → Prop
  | .closeSession _ | .removeWorktree _ => True
  | _ => False

omit [Unicode] [Sha256]

/-- The exceptions of its ports that the executor has a handler for. -/
def handledAt : Request → Exn → Bool
  | .record _ _ _ | .createWorktree _ _ _ _ | .runHarness _ _ _ | .verify _ _ _ | .diff _ _
  | .review _ _ => Exn.isException
  | .commitAll _ _ | .hasChangesSince _ _ | .push _ | .openDraftPr _ _ _ _ => Exn.isGitError
  | _ => fun _ => false

theorem report_lets {asked : Request → Prop} (reads : ∀ taskId, asked (.queue (.get taskId)))
    (sends : ∀ message, asked (.send message)) (executor : TaskExecutor) (evidence : ExecutedTask)
    (recipient : Option Str) :
    LetsOut asked (unhandled handledAt) (executor.report evidence recipient) := by
  unfold report
  by_cases unread : !truthy recipient
  · rw [if_pos unread]
    trivial
  · rw [if_neg unread]
    apply lets_bind (lets_call (reads _) rfl)
    intro found
    cases found with
    | none => trivial
    | some task =>
        simp only
        split
        · exact lets_call (sends _) rfl
        · by_cases silent : !executor.notifier
          · rw [if_pos silent]
            trivial
          · rw [if_neg silent]
            exact lets_call (sends _) rfl

theorem asks_report (executor : TaskExecutor) (evidence : ExecutedTask)
    (recipient : Option Str) : Asks Reporting (executor.report evidence recipient) :=
  (report_lets (fun _ => trivial) (fun _ => trivial) executor evidence recipient).asks

theorem close_lets (session : Option Sandbox) :
    LetsOut Closing (unhandled handledAt) (close session) := by
  cases session with
  | none => trivial
  | some session => exact lets_call trivial rfl

theorem cleanup_lets (executor : TaskExecutor) (session : Option Sandbox) (worktree : Worktree) :
    LetsOut Closing (unhandled handledAt) (executor.cleanup session worktree) := by
  apply lets_bind (close_lets _)
  intro _
  apply lets_bind (close_lets _)
  exact fun _ => lets_call trivial rfl

theorem asks_cleanup (executor : TaskExecutor) (session : Option Sandbox) (worktree : Worktree) :
    Asks Closing (executor.cleanup session worktree) :=
  (cleanup_lets executor session worktree).asks

def deliveryKinds : List Str :=
  ["verify.blocked", "verify.failed", "verify.passed", "review.skipped", "review.approved",
    "review.revise", "publish.failed"]

def Gating (executor : TaskExecutor) (verifier : Option CommandVerifier) : Request → Prop
  | .record _ kind _ => kind ∈ deliveryKinds
  | .verify active _ _ => verifier.or executor.verifier = some active
  | _ => False

/-- What a delivery asks beside the harness. -/
def Beside (executor : TaskExecutor) (verifier : Option CommandVerifier) : Request → Prop
  | .record _ kind _ => kind ∈ deliveryKinds
  | .verify active _ _ => verifier.or executor.verifier = some active
  | .diff _ _ | .review _ _ | .commitAll _ _ | .hasChangesSince _ _ | .push _
  | .openDraftPr _ _ _ _ => True
  | _ => False

def Delivering (executor : TaskExecutor) (task : Task) (verifier : Option CommandVerifier) :
    Request → Prop
  | .runHarness asked _ _ => asked = task
  | request => Beside executor verifier request

section Delivering

variable (executor : TaskExecutor) (task : Task) (spec : TaskSpec) (worktree : Worktree)
  (verifier : Option CommandVerifier)

variable {executor task verifier} in
theorem beside_delivering (request : Request) (asked : Beside executor verifier request) :
    Delivering executor task verifier request := by
  cases request with
  | runHarness task spec worktree => exact asked.elim
  | _ => exact asked

theorem run_harness_lets :
    LetsOut (Delivering executor task verifier) (unhandled handledAt)
      (runHarness task spec worktree) := by
  apply lets_bind (lets_attempt (by exact rfl) rfl)
  intro outcome
  cases outcome <;> trivial

theorem verify_gate_lets :
    LetsOut (Gating executor verifier) (unhandled handledAt)
      (executor.verify task spec worktree verifier) := by
  have noted : ∀ {kind : Str} (data : EventData) (result : Option FailureKind),
      kind ∈ deliveryKinds → LetsOut (Gating executor verifier) (unhandled handledAt) (do
        emit executor.events task.id kind data
        (.ret result : Code (Option FailureKind))) :=
    fun data result listed => lets_bind (lets_emit listed rfl _) fun _ => trivial
  unfold verify
  by_cases ungated : !truthy spec.verify
  · rw [if_pos ungated]
    trivial
  · rw [if_neg ungated]
    simp only
    cases gate : verifier.or executor.verifier with
    | none => exact noted _ _ (by decide)
    | some active =>
        apply lets_bind (lets_attempt gate rfl)
        intro outcome
        cases outcome with
        | error error => exact noted _ _ (by decide)
        | ok result =>
            simp only
            split_ifs
            · exact noted _ _ (by decide)
            · exact noted _ _ (by decide)
            · exact noted _ _ (by decide)

theorem verify_lets :
    LetsOut (Beside executor verifier) (unhandled handledAt)
      (executor.verify task spec worktree verifier) := by
  apply (verify_gate_lets executor task spec worktree verifier).mono
  intro request asked
  cases request <;> first | exact asked | exact absurd asked id

theorem review_diff_lets :
    LetsOut (Beside executor verifier) (unhandled handledAt) (reviewDiff spec worktree) := by
  apply lets_bind (lets_attempt (by exact trivial) rfl)
  intro outcome
  cases outcome with
  | error error => trivial
  | ok diff => exact lets_attempt trivial rfl

theorem debate_round_lets (current : Debated) (revise : ReviewVerdict → Code Debated)
    (revising : ∀ verdict,
      LetsOut (Delivering executor task verifier) (unhandled handledAt) (revise verdict)) :
    LetsOut (Delivering executor task verifier) (unhandled handledAt)
      (executor.debateRound task worktree current revise) := by
  apply lets_bind ((review_diff_lets executor current.spec worktree verifier).mono beside_delivering)
  intro outcome
  cases outcome with
  | error error =>
      exact lets_bind (lets_emit (by decide : _ ∈ deliveryKinds) rfl _) fun _ => trivial
  | ok verdict =>
      have listed : (if verdict.approved then "review.approved" else "review.revise" : Str) ∈
          deliveryKinds := by split_ifs <;> decide
      apply lets_bind (lets_emit listed rfl _)
      intro _
      split_ifs
      · trivial
      · exact revising verdict

theorem debate_from_lets (rounds : Nat) (current : Debated) :
    LetsOut (Delivering executor task verifier) (unhandled handledAt)
      (executor.debateFrom task worktree verifier rounds current) := by
  induction rounds generalizing current with
  | zero => exact debate_round_lets executor task worktree verifier current _ fun _ => trivial
  | succ remaining ih =>
      apply debate_round_lets executor task worktree verifier current
      intro verdict
      apply lets_bind (run_harness_lets executor task _ worktree verifier)
      intro nextRun
      split_ifs
      · trivial
      · apply lets_bind ((verify_lets executor task _ worktree verifier).mono beside_delivering)
        intro failure
        simp only
        split_ifs
        · trivial
        · exact ih _

theorem debate_lets (run : RunResult) (failure : Option FailureKind) :
    LetsOut (Delivering executor task verifier) (unhandled handledAt)
      (executor.debate task spec worktree run failure verifier) := by
  unfold debate
  split_ifs
  · trivial
  · exact debate_from_lets executor task worktree verifier _ _

theorem publish_lets (review : Option ReviewVerdict) :
    LetsOut (Beside executor verifier) (unhandled handledAt)
      (executor.publish task spec worktree review) := by
  have failing : ∀ commit, LetsOut (Beside executor verifier) (unhandled handledAt)
      (executor.publishFailed task commit) := by
    intro commit
    exact lets_bind (lets_emit (by decide : _ ∈ deliveryKinds) rfl _) fun _ => trivial
  apply lets_bind (lets_attempt (by exact trivial) rfl)
  intro committed
  cases committed with
  | error error => exact failing none
  | ok commit =>
      apply lets_bind (lets_attempt (by exact trivial) rfl)
      intro changed
      cases changed with
      | error error => exact failing (some commit)
      | ok changes =>
          cases changes with
          | false => trivial
          | true =>
              apply lets_bind (lets_attempt (by exact trivial) rfl)
              intro pushed
              cases pushed with
              | error error => exact failing (some commit)
              | ok _ =>
                  apply lets_bind (lets_attempt (by exact trivial) rfl)
                  intro opened
                  cases opened with
                  | error error => exact failing (some commit)
                  | ok pr => trivial

theorem deliver_lets :
    LetsOut (Delivering executor task verifier) (unhandled handledAt)
      (executor.deliver task spec worktree verifier) := by
  apply lets_bind (run_harness_lets executor task spec worktree verifier)
  intro run
  split_ifs
  · trivial
  · apply lets_bind ((verify_lets executor task spec worktree verifier).mono beside_delivering)
    intro failure
    cases failure with
    | some kind => trivial
    | none =>
        apply lets_bind (debate_lets executor task spec worktree verifier run none)
        intro debated
        cases debated.failure with
        | some kind => trivial
        | none =>
            exact lets_bind ((publish_lets executor task _ worktree verifier _).mono
              beside_delivering) fun _ => trivial

end Delivering

/-- Publishing records events and works on the repository. -/
def Publishes : Request → Prop
  | .record _ _ _ | .commitAll _ _ | .hasChangesSince _ _ | .push _ | .openDraftPr _ _ _ _ => True
  | _ => False

/-- The requests of a delivery with a verifier are among these. -/
structure Delivers (allowed : Request → Prop) (executor : TaskExecutor) (task : Task)
    (verifier : Option CommandVerifier) : Prop where
  records : ∀ taskId kind data, allowed (.record taskId kind data)
  runs : ∀ spec worktree, allowed (.runHarness task spec worktree)
  verifies : ∀ active command path, verifier.or executor.verifier = some active →
    allowed (.verify active command path)
  diffs : ∀ worktree baseBranch, allowed (.diff worktree baseBranch)
  reviews : ∀ diff instructions, allowed (.review diff instructions)
  publishes : ∀ request, Publishes request → allowed request

theorem deliver_asks {allowed : Request → Prop} {executor : TaskExecutor} {task : Task}
    {verifier : Option CommandVerifier} (spec : TaskSpec) (worktree : Worktree)
    (delivers : Delivers allowed executor task verifier) :
    Asks allowed (executor.deliver task spec worktree verifier) := by
  apply (deliver_lets executor task spec worktree verifier).asks.mono
  intro request asked
  cases request with
  | record taskId kind data => exact delivers.records taskId kind data
  | runHarness other spec worktree =>
      obtain rfl : other = task := asked
      exact delivers.runs spec worktree
  | verify active command path => exact delivers.verifies active command path asked
  | diff worktree baseBranch => exact delivers.diffs worktree baseBranch
  | review diff instructions => exact delivers.reviews diff instructions
  | commitAll worktree message => exact delivers.publishes _ trivial
  | hasChangesSince worktree baseBranch => exact delivers.publishes _ trivial
  | push worktree => exact delivers.publishes _ trivial
  | openDraftPr worktree baseBranch title body => exact delivers.publishes _ trivial
  | _ => exact asked.elim

/-- What an execution asks once it has read its task back: it runs the harness
on the task it was given and ends the one it read. -/
def Executing (task running : Task) : Request → Prop
  | .queue (.get _) => True
  | .queue (.transition asked toState _) =>
      asked = running ∧ (toState = .done ∨ toState = .failed)
  | .runHarness asked _ _ | .sessionFor asked _ => asked = task
  | .record _ _ _ | .send _ | .createWorktree _ _ _ _ | .removeWorktree _ | .closeSession _
  | .verify _ _ _ | .diff _ _ | .review _ _ | .commitAll _ _ | .hasChangesSince _ _ | .push _
  | .openDraftPr _ _ _ _ => True
  | _ => False

section Executing

variable (executor : TaskExecutor) (task running : Task) (spec : TaskSpec) (worktree : Worktree)
  (verifier : Option CommandVerifier)

theorem asks_event (taskId kind : Str) (data : EventData) :
    Asks (Executing task running) (emit executor.events taskId kind data) :=
  asks_emit (fun _ _ _ => trivial) executor.events taskId kind data

theorem executing_delivers : Delivers (Executing task running) executor task verifier where
  records _ _ _ := trivial
  runs _ _ := rfl
  verifies _ _ _ _ := trivial
  diffs _ _ := trivial
  reviews _ _ := trivial
  publishes request asked := by
    cases request with
    | queue op => exact asked.elim
    | _ => trivial

theorem asks_finish (evidence : ExecutedTask) (recipient : Option Str) :
    Asks (Executing task running) (executor.finish running evidence recipient) := by
  have final : (if evidence.ok then TaskState.done else .failed) = .done ∨
      (if evidence.ok then TaskState.done else .failed) = .failed := by
    cases evidence.ok
    · exact .inr rfl
    · exact .inl rfl
  have reporting : ∀ evidence, Asks (Executing task running) (executor.report evidence recipient) :=
    fun evidence => (asks_report executor evidence recipient).mono fun request asked => by
      cases request with
      | queue op => cases op <;> trivial
      | _ => trivial
  exact asks_bind (asks_call ⟨rfl, final⟩) fun _ =>
    asks_bind (asks_event executor task running _ _ _) fun _ =>
      asks_bind (reporting _) fun _ => trivial

theorem asks_run_in (recipient : Option Str) :
    Asks (Executing task running)
      (executor.runIn task running spec recipient verifier worktree) := by
  have closing : ∀ session, Asks (Executing task running) (executor.cleanup session worktree) :=
    fun session => (asks_cleanup executor session worktree).mono fun request asked => by
      cases request <;> trivial
  have session : Asks (Executing task running) (executor.runSession task spec worktree) := by
    unfold runSession
    split_ifs
    · trivial
    · exact asks_catch (asks_call rfl) fun error => asks_bind (closing none) fun _ => trivial
  refine asks_bind session fun session => asks_finally ?_ (closing session)
  exact asks_bind (deliver_asks spec worktree (executing_delivers executor task running _)) fun delivery =>
    asks_finish executor task running _ recipient

theorem asks_execute_running [Unicode] [Sha256] (recipient : Option Str) :
    Asks (Executing task running)
      (executor.executeRunning task running spec recipient verifier) := by
  refine asks_bind (asks_event executor task running _ _ _) fun _ =>
    asks_bind (asks_attempt trivial) fun created => ?_
  cases created with
  | error error => exact asks_bind (asks_call ⟨rfl, .inr rfl⟩) fun _ => trivial
  | ok worktree => exact asks_run_in executor task running spec worktree verifier recipient

end Executing

end TaskExecutor

end DearAgent
