import DearAgent.Deps
import DearAgent.Executor

/-!
# The worker

`worker.py`: the guards before a task is run, the policy that shapes its run,
and the two entry points, one for a given task and one for the oldest task that
can run.
-/

namespace DearAgent

open DearAgent.Lib.Text DearAgent.Lib.Effects DearAgent.Queue

set_option autoImplicit false

/-- The configuration of a worker; `policies` says whether it has a policy store. -/
structure TaskWorker where
  executor : TaskExecutor
  repoPath : Str
  recipient : Option Str := none
  maxAttempts : Int := 3
  lease : Duration := 6 * 3600 * 1000000
  events : Bool := false
  budget : ErrorBudget := {}
  policies : Bool := false
  verifier : Option CommandVerifier := none
deriving DecidableEq

def ProjectPolicy.extraAllowed (policy : ProjectPolicy) : Except Exn (List (List Str)) :=
  (policy.verifyAllow.filter fun entry => !(strip entry).isEmpty).mapM Shlex.split

namespace TaskWorker

section Guards

variable [Unicode]

/-- `repr` of a tuple of strings. -/
def tupleText (items : List Str) : Str :=
  '(' :: join ", " (items.map reprText) ++ if items.length = 1 then [',', ')'] else [')']

def policyFor (worker : TaskWorker) (task : Task) : Code (Option ProjectPolicy) :=
  match worker.policies, task.spec with
  | true, some spec => call (.policyForRepo spec.repoUrl)
  | _, _ => .ret none

def guardPolicy (worker : TaskWorker) (task : Task) : Code Unit := do
  match ← worker.policyFor task with
  | none => .ret ()
  | some policy =>
      if policy.enabled then .ret ()
      else do
        let _ ← Queue.transition task .failed
        emit worker.events task.id "policy.denied" [("project".toList, .text policy.project)]
        .raise (.taskWorkerError
          ("project ".toList ++ reprText policy.project ++ " is disabled".toList))

/-- The base branch a policy gives a task that names none of its own. -/
def baseBranchOf (policy : ProjectPolicy) (spec : TaskSpec) : Str :=
  if truthy policy.baseBranch && (spec.baseBranch = [] || spec.baseBranch = "main".toList) then
    policy.baseBranch.getD []
  else spec.baseBranch

def verifierWith (worker : TaskWorker) (extra : List (List Str)) : CommandVerifier :=
  match worker.verifier with
  | some verifier => { verifier with allowed := verifier.allowed ++ extra }
  | none => { allowed := extra }

def effective (worker : TaskWorker) (task : Task) (spec : TaskSpec) :
    Code (TaskSpec × Option CommandVerifier) := do
  match ← worker.policyFor task with
  | none => .ret (spec, worker.verifier)
  | some policy => do
      let spec := { spec with baseBranch := baseBranchOf policy spec }
      if policy.verifyAllow.isEmpty then .ret (spec, worker.verifier)
      else
        match policy.extraAllowed with
        | .error error => .raise error
        | .ok extra => .ret (spec, some (worker.verifierWith extra))

def guardDependencies (worker : TaskWorker) (task : Task) : Code Unit := do
  let status ← dependencyStatus task
  match status.state with
  | .failed => do
      let _ ← Queue.transition task .failed
      emit worker.events task.id "task.dependency_failed"
        [("failed_on".toList, .texts status.failedOn)]
      .raise (.taskWorkerError ("task ".toList ++ reprText task.id ++
        " depends on failed ".toList ++ tupleText status.failedOn))
  | .blocked => do
      emit worker.events task.id "task.blocked" [("blocked_on".toList, .texts status.blockedOn)]
      .raise (.taskWorkerError ("task ".toList ++ reprText task.id ++
        " is blocked on ".toList ++ tupleText status.blockedOn))
  | .ready => .ret ()

def guardBudget (worker : TaskWorker) (taskId : Str) : Code Unit :=
  if !worker.events then .ret ()
  else do
    if ← worker.budget.exhausted then do
      emit worker.events taskId "budget.exhausted"
      .raise (.taskWorkerError ("error budget exhausted (".toList ++
        intText worker.budget.maxFailures ++ " failures in ".toList ++
        intText worker.budget.windowSeconds ++ "s); not starting new runs".toList))
    else .ret ()

def guardAttempts (worker : TaskWorker) (task : Task) : Code Unit :=
  if task.attempts ≥ worker.maxAttempts then do
    let _ ← Queue.transition task .failed
    .raise (.taskWorkerError ("task ".toList ++ reprText task.id ++ " exceeded ".toList ++
      intText worker.maxAttempts ++ " attempts; left failed".toList))
  else .ret ()

end Guards

variable [Unicode] [Sha256]

def run (worker : TaskWorker) (taskId : Str) : Code ExecutedTask := do
  match ← Queue.get taskId with
  | none => .raise (.taskWorkerError
      ("no task ".toList ++ reprText taskId ++ " in the queue".toList))
  | some task => do
      worker.guardBudget task.id
      worker.guardAttempts task
      worker.guardDependencies task
      worker.guardPolicy task
      let resolved ← call (.resolveSpec task worker.repoPath)
      let (spec, verifier) ← worker.effective task resolved
      worker.executor.execute task spec worker.recipient false verifier

/-- The guards of `run_next`, whose own refusals only pass a task over. -/
def runnable (worker : TaskWorker) (task : Task) : Code Bool :=
  exceptWhere Exn.isTaskWorkerError
    (do
      worker.guardAttempts task
      worker.guardPolicy task
      .ret true)
    fun _ => .ret false

/-- `run_next` once a task is claimed. -/
def runClaimed (worker : TaskWorker) (task : Task) : Code ExecutedTask := do
  let resolved ← call (.resolveSpec task worker.repoPath)
  let (spec, verifier) ← worker.effective task resolved
  worker.executor.execute task spec worker.recipient true verifier

/-- The loop of `run_next`. -/
def runFirst (worker : TaskWorker) : List Task → Code ExecutedTask
  | [] => .raise (.taskWorkerError "no runnable task")
  | task :: rest => do
      let status ← dependencyStatus task
      match status.state with
      | .failed => do
          let _ ← Queue.transition task .failed
          emit worker.events task.id "task.dependency_failed"
            [("failed_on".toList, .texts status.failedOn)]
          worker.runFirst rest
      | .blocked => do
          emit worker.events task.id "task.blocked"
            [("blocked_on".toList, .texts status.blockedOn)]
          worker.runFirst rest
      | .ready => do
          if ← worker.runnable task then do
            if ← Queue.claim task worker.lease then worker.runClaimed task
            else worker.runFirst rest
          else worker.runFirst rest

def runNext (worker : TaskWorker) : Code ExecutedTask := do
  worker.guardBudget "<dispatch>"
  let queued ← Queue.list .queued 100
  worker.runFirst queued

/-!
## What the guards ask
-/

/-- The guards read the queue and the policies, and may fail their task. -/
def Guarding (task : Task) : Request → Prop
  | .queue (.get _) | .record _ _ _ | .utcnow | .countEvents _ _ | .policyForRepo _ => True
  | .queue (.transition asked toState _) => asked = task ∧ toState = .failed
  | _ => False

omit [Unicode] [Sha256]

/-- What the decisions of a guard are read from. -/
def Looking : Request → Prop
  | .queue (.get _) | .record _ _ _ | .utcnow | .countEvents _ _ | .policyForRepo _ => True
  | _ => False

theorem asks_policy_for (worker : TaskWorker) (task : Task) :
    Asks Looking (worker.policyFor task) := by
  unfold policyFor
  split
  · exact asks_call trivial
  · trivial

theorem asks_effective (worker : TaskWorker) (task : Task) (spec : TaskSpec) :
    Asks Looking (worker.effective task spec) := by
  refine asks_bind (asks_policy_for worker task) fun policy => ?_
  cases policy with
  | none => trivial
  | some policy =>
      simp only
      split_ifs
      · trivial
      · cases policy.extraAllowed <;> trivial

theorem guarding_of_looking {α : Type} {program : Code α} (task : Task)
    (asks : Asks Looking program) : Asks (Guarding task) program :=
  asks.mono fun request looking => by
    cases request with
    | queue op => cases op <;> trivial
    | _ => trivial

theorem asks_guard_attempts [Unicode] (worker : TaskWorker) (task : Task) :
    Asks (Guarding task) (worker.guardAttempts task) := by
  unfold guardAttempts
  split_ifs
  · exact asks_bind (asks_call ⟨rfl, rfl⟩) fun _ => trivial
  · trivial

theorem asks_guard_policy [Unicode] (worker : TaskWorker) (task : Task) :
    Asks (Guarding task) (worker.guardPolicy task) := by
  refine asks_bind (guarding_of_looking task (asks_policy_for worker task)) fun policy => ?_
  cases policy with
  | none => trivial
  | some policy =>
      simp only
      split_ifs
      · trivial
      · exact asks_bind (asks_call ⟨rfl, rfl⟩) fun _ =>
          asks_bind (asks_emit (fun _ _ _ => trivial) _ _ _ _) fun _ => trivial

theorem asks_dependencies (task : Task) : Asks Looking (dependencyStatus task) :=
  (asks_dependency_status task).mono fun request reading => by
    cases request with
    | queue op => cases op <;> trivial
    | _ => cases reading

theorem asks_guard_dependencies [Unicode] (worker : TaskWorker) (task : Task) :
    Asks (Guarding task) (worker.guardDependencies task) := by
  refine asks_bind (guarding_of_looking task (asks_dependencies task)) fun status => ?_
  cases status.state with
  | failed =>
      exact asks_bind (asks_call ⟨rfl, rfl⟩) fun _ =>
        asks_bind (asks_emit (fun _ _ _ => trivial) _ _ _ _) fun _ => trivial
  | blocked => exact asks_bind (asks_emit (fun _ _ _ => trivial) _ _ _ _) fun _ => trivial
  | ready => trivial

theorem asks_guard_budget [Unicode] (worker : TaskWorker) (taskId : Str) :
    Asks Looking (worker.guardBudget taskId) := by
  unfold guardBudget
  split_ifs
  · trivial
  · have exhausting : Asks Looking worker.budget.exhausted := by
      unfold ErrorBudget.exhausted
      split_ifs
      · trivial
      · exact asks_bind (asks_call trivial) fun _ => asks_bind (asks_call trivial) fun _ => trivial
    refine asks_bind exhausting fun exhausted => ?_
    split_ifs
    · exact asks_bind (asks_emit (fun _ _ _ => trivial) _ _ _ _) fun _ => trivial
    · trivial

theorem asks_runnable [Unicode] (worker : TaskWorker) (task : Task) :
    Asks (Guarding task) (worker.runnable task) :=
  asks_except (asks_bind (asks_guard_attempts worker task) fun _ =>
    asks_bind (asks_guard_policy worker task) fun _ => trivial) fun _ => trivial

end TaskWorker

/-- The ways a task is run: by its id, as the next one, by an executor that
claims it, and by an executor whose caller took it with `claim_next`. -/
inductive Work
  | run (worker : TaskWorker) (taskId : Str)
  | runNext (worker : TaskWorker)
  | execute (executor : TaskExecutor) (task : Task) (spec : TaskSpec) (recipient : Option Str)
      (verifier : Option CommandVerifier)
  | executeNext (executor : TaskExecutor) (lease : Duration) (spec : TaskSpec)
      (recipient : Option Str) (verifier : Option CommandVerifier)
deriving DecidableEq

def Work.claimedId : Exchange ports → Option Str
  | ⟨.queue (.claim task _), .ok true⟩ => some task.id
  | ⟨.queue (.claimNext _), .ok (some task)⟩ => some task.id
  | _ => none

def Work.program [Unicode] [Sha256] : Work → Code Unit
  | .run worker taskId => dropValue (worker.run taskId)
  | .runNext worker => dropValue worker.runNext
  | .execute executor task spec recipient verifier =>
      dropValue (executor.execute task spec recipient false verifier)
  | .executeNext executor lease spec recipient verifier => do
      match ← Queue.claimNext lease with
      | none => .ret ()
      | some task => dropValue (executor.execute task spec recipient true verifier)

end DearAgent
