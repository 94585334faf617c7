import DearAgent.Queue.Postgres
import DearAgent.Worker.Progress

/-!
# The two entry points of the worker

`run` and `run_next` put a task through the same guards in a different order,
and `run_next` claims it before it is resolved. On the only queued task they
come to the same exactly where a task with spent attempts is not blocked, and
where nothing is raised between the guards and the executor.
-/

namespace DearAgent.Work

open DearAgent.Lib.Text DearAgent.Lib.Effects DearAgent.Lib.Dictionaries DearAgent.Queue

set_option autoImplicit false

/-- The surroundings of a worker: what the event log counts and the policies say
stays the same; the resolver and everything the executor asks may answer
anything and change as they do. -/
structure Site (E : Type) where
  failures : Except Exn Int
  policies : Str → Except Exn (Option ProjectPolicy)
  acts : Env ports E
  answers : ∀ request e, ∃ reply after, acts request e reply after

variable {Q : SteadyQueue} {E : Type}

/-- The queue serves what it is asked for, whatever the clock reads. -/
def Site.env (Q : SteadyQueue) (site : Site E) : Env ports (Q.Store × E)
  | .queue op, state, reply, after => ∃ now : Instant,
      reply = (Q.step op now state.1).1 ∧ after = ((Q.step op now state.1).2, state.2)
  | .utcnow, state, reply, after => (∃ now, reply = .ok now) ∧ after = state
  | .countEvents _ _, state, reply, after => reply = site.failures ∧ after = state
  | .policyForRepo repo, state, reply, after => reply = site.policies repo ∧ after = state
  | request, state, reply, after => after.1 = state.1 ∧ site.acts request state.2 reply after.2

/-- The task is the only one that is queued; any others may be stored beside it. -/
structure Alone (board : Board) (task : Task) : Prop where
  stored : board task.id = some task
  queued : task.state = .queued
  only : ∀ id other, board id = some other → other.state = .queued → other = task

/-!
## What comes before the executor
-/

structure Handed where
  task : Task
  spec : TaskSpec
  verifier : Option CommandVerifier

def handOver [Unicode] [Sha256] (worker : TaskWorker) (claimed : Bool) (handed : Handed) :
    Code ExecutedTask :=
  worker.executor.execute handed.task handed.spec worker.recipient claimed handed.verifier

/-- An entry point is what it does before the executor, and then the executor. -/
structure Entry [Unicode] [Sha256] (worker : TaskWorker) (program : Code ExecutedTask) where
  prepare : Code Handed
  claimed : Bool
  splits : program = prepare >>= handOver worker claimed

section Preparing

variable [Unicode]

def resolving (worker : TaskWorker) (task : Task) : Code Handed := do
  let resolved ← call (.resolveSpec task worker.repoPath)
  let (spec, verifier) ← worker.effective task resolved
  .ret ⟨task, spec, verifier⟩

/-- The guards of `run`, in their order. -/
def guardsOfRun (worker : TaskWorker) (task : Task) : Code Unit := do
  worker.guardBudget task.id
  worker.guardAttempts task
  worker.guardDependencies task
  worker.guardPolicy task

def preparing (worker : TaskWorker) (taskId : Str) : Code Handed := do
  match ← Queue.get taskId with
  | none => .raise (.taskWorkerError
      ("no task ".toList ++ reprText taskId ++ " in the queue".toList))
  | some task => do
      guardsOfRun worker task
      resolving worker task

def preparingFirst (worker : TaskWorker) : List Task → Code Handed
  | [] => .raise (.taskWorkerError "no runnable task")
  | task :: rest => do
      if ← passes worker task then do
        if ← Queue.claim task worker.lease then resolving worker task
        else preparingFirst worker rest
      else preparingFirst worker rest

def preparingNext (worker : TaskWorker) : Code Handed := do
  worker.guardBudget "<dispatch>"
  let queued ← Queue.list .queued 100
  preparingFirst worker queued

variable [Sha256]

theorem resolving_split (worker : TaskWorker) (task : Task) (claimed : Bool) :
    (resolving worker task >>= handOver worker claimed) = (do
      let resolved ← call (.resolveSpec task worker.repoPath)
      let (spec, verifier) ← worker.effective task resolved
      worker.executor.execute task spec worker.recipient claimed verifier) := by
  unfold resolving
  rw [bind_bind]
  apply congrArg
  funext resolved
  rw [bind_bind]
  rfl

theorem run_split (worker : TaskWorker) (taskId : Str) :
    worker.run taskId = preparing worker taskId >>= handOver worker false := by
  unfold TaskWorker.run preparing
  rw [bind_bind]
  apply congrArg
  funext found
  cases found with
  | none => rfl
  | some task =>
      simp only [guardsOfRun, bind_bind]
      rw [resolving_split]

theorem run_first_split (worker : TaskWorker) (tasks : List Task) :
    worker.runFirst tasks = preparingFirst worker tasks >>= handOver worker true := by
  induction tasks with
  | nil => rfl
  | cons task rest ih =>
      rw [run_first_cons, preparingFirst, bind_bind]
      apply congrArg
      funext fit
      cases fit with
      | false => exact ih
      | true =>
          simp only [if_true]
          rw [bind_bind]
          apply congrArg
          funext won
          cases won with
          | false => exact ih
          | true => exact (resolving_split worker task true).symm

theorem run_next_split (worker : TaskWorker) :
    worker.runNext = preparingNext worker >>= handOver worker true := by
  unfold TaskWorker.runNext preparingNext
  rw [bind_bind]
  apply congrArg
  funext _
  rw [bind_bind]
  apply congrArg
  funext queued
  exact run_first_split worker queued

def runEntry (worker : TaskWorker) (taskId : Str) : Entry worker (worker.run taskId) where
  prepare := preparing worker taskId
  claimed := false
  splits := run_split worker taskId

def nextEntry (worker : TaskWorker) : Entry worker worker.runNext where
  prepare := preparingNext worker
  claimed := true
  splits := run_next_split worker

end Preparing

/-!
## What the guards say of the task
-/

/-- What a guard says: nothing, or the state in which it leaves a task it refuses. -/
abbrev Verdict := Option TaskState

def budgetVerdict (site : Site E) (worker : TaskWorker) : Verdict :=
  if worker.events = false ∨ worker.budget.maxFailures ≤ 0 then none
  else
    match site.failures with
    | .ok failures => if failures < worker.budget.maxFailures then none else some .queued
    | .error _ => some .queued

def attemptsVerdict (worker : TaskWorker) (task : Task) : Verdict :=
  if task.attempts ≥ worker.maxAttempts then some .failed else none

def dependencyVerdict (board : Board) (task : Task) : Verdict :=
  match (statusOn board task).state with
  | .ready => none
  | .blocked => some .queued
  | .failed => some .failed

def policyOf (site : Site E) (worker : TaskWorker) (task : Task) :
    Except Exn (Option ProjectPolicy) :=
  match worker.policies, task.spec with
  | true, some spec => site.policies spec.repoUrl
  | _, _ => .ok none

def policyVerdict (site : Site E) (worker : TaskWorker) (task : Task) : Verdict :=
  match policyOf site worker task with
  | .error _ => some .queued
  | .ok none => none
  | .ok (some policy) => if policy.enabled then none else some .failed

section Judging

variable {site : Site E} {worker : TaskWorker} {task : Task} {state after : Q.Store × E}

/-- The state the task is in. -/
def stateOf (task : Task) (state : Q.Store × E) : Option TaskState :=
  (Q.board state.1 task.id).map Task.state

theorem site_serves (request : Request) : Serves (site.env Q) state request := by
  cases request with
  | queue op => exact ⟨_, _, 0, rfl, rfl⟩
  | utcnow => exact ⟨.ok 0, state, ⟨0, rfl⟩, rfl⟩
  | countEvents kind since => exact ⟨_, state, rfl, rfl⟩
  | policyForRepo repo => exact ⟨_, state, rfl, rfl⟩
  | _ =>
      obtain ⟨reply, e, acted⟩ := site.answers _ state.2
      exact ⟨reply, (state.1, e), rfl, acted⟩

theorem site_spec {op : QueueOp} {reply : op.Reply}
    (answered : site.env Q (.queue op) state reply after) :
    ∃ now, Spec now op (Q.board state.1) reply (Q.board after.1) := by
  obtain ⟨now, rfl, rfl⟩ := answered
  exact ⟨now, Q.refines op now state.1⟩

theorem get_looks (id : Str) : Looks (site.env Q) (Queue.get id) state (· = Q.board state.1 id) := by
  apply meets_call (site_serves _)
  intro reply after answered
  obtain ⟨now, rfl, rfl⟩ := answered
  obtain ⟨replied, _⟩ := Q.refines (.get id) now state.1
  exact ⟨Prod.ext (Q.got id now state.1) rfl, _, replied, rfl⟩

theorem reads_site : ReadsTasks (site.env Q) (fun state after => after = state)
    fun state => Q.board state.1 where
  refl _ := rfl
  trans first second := second.trans first
  board same := by rw [same]
  reads _ id := get_looks id

theorem dependencies_look (task : Task) :
    Looks (site.env Q) (dependencyStatus task) state (· = statusOn (Q.board state.1) task) :=
  dependency_status_told reads_site task state

theorem list_looks (alone : Alone (Q.board state.1) task) :
    Looks (site.env Q) (Queue.list .queued 100) state (· = [task]) := by
  apply meets_call (site_serves _)
  intro reply after answered
  obtain ⟨now, rfl, rfl⟩ := answered
  obtain ⟨_, ⟨page, replied, paged⟩ | ⟨outside, _⟩⟩ := Q.refines (.list .queued 100) now state.1
  · refine ⟨Prod.ext (Q.listed .queued 100 now state.1) rfl, page, replied, ?_⟩
    have own : ∀ listed ∈ page, listed = task := fun listed member =>
      alone.only listed.id listed (paged.stored listed member).1 (paged.stored listed member).2
    have once : (page.map Task.id).Nodup := by
      apply Q.distinct state.1 100 page
      rw [← Q.lists 100 now]
      exact replied
    have listed : task ∈ page := by
      rcases paged.complete (by decide) task.id task alone.stored alone.queued with listed | ⟨full, _⟩
      · exact listed
      · cases page with
        | nil => cases full
        | cons first rest => exact own first List.mem_cons_self ▸ List.mem_cons_self
    cases page with
    | nil => cases listed
    | cons first rest =>
        obtain rfl := own first List.mem_cons_self
        cases rest with
        | nil => rfl
        | cons second more =>
            obtain rfl := own second (List.mem_cons_of_mem _ List.mem_cons_self)
            simp at once
  · rcases outside with below | above
    · exact absurd below (by decide)
    · exact absurd above (by decide)

theorem emit_leaves (events : Bool) (taskId kind : Str) (data : EventData) :
    Meets (site.env Q) (Serves (site.env Q)) (emit events taskId kind data) state
      fun after _ => after.1 = state.1 := by
  unfold emit
  split_ifs
  · apply meets_attempt_bind (site_serves _)
    · exact fun _ _ answered => answered.1
    · exact fun _ _ answered _ => answered.1
    · exact fun _ _ answered _ => answered.1
  · rfl

theorem fail_leaves (stored : Q.board state.1 task.id = some task) :
    Meets (site.env Q) (Serves (site.env Q)) (Queue.transition task .failed) state
      fun after outcome => (∃ moved, outcome = .ok moved) ∧ stateOf task after = some .failed := by
  apply meets_call (site_serves _)
  intro reply after answered
  obtain ⟨now, spec⟩ := site_spec answered
  obtain ⟨_, ⟨merged, _, rfl⟩, replied, board⟩ := transition_moves spec stored rfl
  refine ⟨⟨_, replied⟩, ?_⟩
  unfold stateOf
  rw [board]
  exact congrArg (Option.map Task.state) (board_put_self _ _)

/-- A guard returns its value and leaves everything as it is, or refuses the task,
which is left in the state of the verdict. -/
def Judges {α : Type} (site : Site E) (program : Code α) (value : α) (task : Task)
    (state : Q.Store × E) (verdict : Verdict) : Prop :=
  Meets (site.env Q) (Serves (site.env Q)) program state fun after outcome =>
    (verdict = none ∧ outcome = .ok value ∧ after = state) ∨
      (outcome ≠ .ok value ∧ ∃ left, verdict = some left ∧ stateOf task after = some left)

/-- The program does not return the value, and leaves the task in this state. -/
def Refuses {α : Type} (site : Site E) (program : Code α) (value : α) (task : Task)
    (state : Q.Store × E) (left : TaskState) : Prop :=
  Meets (site.env Q) (Serves (site.env Q)) program state fun after outcome =>
    outcome ≠ .ok value ∧ stateOf task after = some left

variable {α : Type} {value : α} {verdict verdict' : Verdict} {left : TaskState}

theorem error_ne_ok (error : Exn) (value : α) : (Except.error error : Except Exn α) ≠ .ok value := by
  intro never
  cases never

theorem Refuses.judges {program : Code α} (refuses : Refuses site program value task state left) :
    Judges site program value task state (some left) :=
  Meets.post refuses fun _ _ refused => .inr ⟨refused.1, left, rfl, refused.2⟩

theorem Judges.seq {program : Code Unit} {next : Code α}
    (judges : Judges site program () task state verdict)
    (rest : verdict = none → Judges site next value task state verdict') :
    Judges site (program >>= fun _ => next) value task state (verdict.or verdict') := by
  apply Meets.seq judges
  · intro after _ judged
    rcases judged with ⟨passed, _, rfl⟩ | ⟨never, _⟩
    · rw [passed]
      exact rest passed
    · exact absurd rfl never
  · intro after error judged
    rcases judged with ⟨_, never, _⟩ | ⟨_, left, refused, leaves⟩
    · cases never
    · rw [refused]
      exact .inr ⟨error_ne_ok error value, left, rfl, leaves⟩

theorem emit_refuses {events : Bool} {taskId kind : Str} {data : EventData} {next : Code α}
    (leaves : stateOf task state = some left)
    (refuses : ∀ after : Q.Store × E, stateOf task after = some left →
      Refuses site next value task after left) :
    Refuses site (emit events taskId kind data >>= fun _ => next) value task state left := by
  have stays : ∀ after : Q.Store × E, after.1 = state.1 → stateOf task after = some left := by
    intro after kept
    unfold stateOf
    rw [kept]
    exact leaves
  apply (emit_leaves events taskId kind data).seq
  · exact fun after _ kept => refuses after (stays after kept)
  · exact fun after error kept => ⟨error_ne_ok error value, stays after kept⟩

theorem failing_refuses {next : Code α} (stored : Q.board state.1 task.id = some task)
    (refuses : ∀ after : Q.Store × E, stateOf task after = some .failed →
      Refuses site next value task after .failed) :
    Refuses site (Queue.transition task .failed >>= fun _ => next) value task state .failed := by
  apply (fail_leaves stored).seq
  · exact fun after moved failed => refuses after failed.2
  · intro after error failed
    obtain ⟨⟨_, never⟩, _⟩ := failed
    cases never

theorem raise_refuses {error : Exn} (leaves : stateOf task state = some left) :
    Refuses site (.raise error) value task state left := ⟨error_ne_ok error value, leaves⟩

theorem guard_budget_judges [Unicode] (taskId : Str) (queued : stateOf task state = some .queued) :
    Judges site (worker.guardBudget taskId) () task state (budgetVerdict site worker) := by
  unfold TaskWorker.guardBudget ErrorBudget.exhausted budgetVerdict
  cases recorded : worker.events with
  | false => exact .inl ⟨by simp, rfl, rfl⟩
  | true =>
      by_cases unbounded : worker.budget.maxFailures ≤ 0
      · simp only [Bool.not_true, unbounded, if_true]
        exact .inl ⟨by simp, rfl, rfl⟩
      · simp only [Bool.not_true, Bool.false_eq_true, unbounded, if_false, bind_bind]
        apply meets_call_bind (site_serves _)
        · intro now after answered
          obtain ⟨_, rfl⟩ := answered
          apply meets_call_bind (site_serves _)
          · intro failures last answered
            obtain ⟨counted, rfl⟩ := answered
            rw [← counted]
            by_cases few : failures < worker.budget.maxFailures
            · have left : decide (failures ≥ worker.budget.maxFailures) = false :=
                decide_eq_false (not_le.mpr few)
              simp only [left, few]
              exact .inl ⟨rfl, rfl, rfl⟩
            · have spent : decide (failures ≥ worker.budget.maxFailures) = true :=
                decide_eq_true (not_lt.mp few)
              simp only [spent, few, if_false]
              exact (emit_refuses queued fun _ => raise_refuses).judges
          · intro error last answered
            obtain ⟨counted, rfl⟩ := answered
            rw [← counted]
            exact .inr ⟨error_ne_ok error (), .queued, rfl, queued⟩
        · intro error after answered
          obtain ⟨⟨_, never⟩, _⟩ := answered
          cases never

theorem guard_attempts_judges [Unicode] (stored : Q.board state.1 task.id = some task) :
    Judges site (worker.guardAttempts task) () task state (attemptsVerdict worker task) := by
  unfold TaskWorker.guardAttempts attemptsVerdict
  split_ifs
  · exact (failing_refuses stored fun _ => raise_refuses).judges
  · exact .inl ⟨rfl, rfl, rfl⟩

theorem guard_dependencies_judges [Unicode] (stored : Q.board state.1 task.id = some task)
    (queued : stateOf task state = some .queued) :
    Judges site (worker.guardDependencies task) () task state
      (dependencyVerdict (Q.board state.1) task) := by
  apply (dependencies_look task).meets_seq fun _ _ served => served
  intro status told
  unfold dependencyVerdict
  rw [← told]
  cases status.state with
  | ready => exact .inl ⟨rfl, rfl, rfl⟩
  | blocked => exact (emit_refuses queued fun _ => raise_refuses).judges
  | failed =>
      apply Refuses.judges
      exact failing_refuses stored fun _ failed => emit_refuses failed fun _ => raise_refuses

theorem policy_looks (task : Task) :
    Meets (site.env Q) (Serves (site.env Q)) (worker.policyFor task) state fun after outcome =>
      after = state ∧ outcome = policyOf site worker task := by
  unfold TaskWorker.policyFor policyOf
  cases worker.policies with
  | false => exact ⟨rfl, rfl⟩
  | true =>
      cases task.spec with
      | none => exact ⟨rfl, rfl⟩
      | some spec =>
          apply meets_call (site_serves _)
          intro reply after answered
          obtain ⟨replied, rfl⟩ := answered
          exact ⟨rfl, replied⟩

theorem guard_policy_judges [Unicode] (stored : Q.board state.1 task.id = some task)
    (queued : stateOf task state = some .queued) :
    Judges site (worker.guardPolicy task) () task state (policyVerdict site worker task) := by
  apply (policy_looks task).seq
  · intro after found looked
    obtain ⟨rfl, told⟩ := looked
    unfold policyVerdict
    rw [← told]
    cases found with
    | none => exact .inl ⟨rfl, rfl, rfl⟩
    | some policy =>
        cases enabled : policy.enabled with
        | true =>
            simp only [enabled, if_true]
            exact .inl ⟨trivial, rfl, rfl⟩
        | false =>
            simp only [enabled]
            apply Refuses.judges
            exact failing_refuses stored fun _ failed => emit_refuses failed fun _ => raise_refuses
  · intro after error looked
    obtain ⟨rfl, told⟩ := looked
    unfold policyVerdict
    rw [← told]
    exact .inr ⟨error_ne_ok error (), .queued, rfl, queued⟩

theorem runnable_judges [Unicode] (stored : Q.board state.1 task.id = some task)
    (queued : stateOf task state = some .queued) :
    Judges site (worker.runnable task) true task state
      ((attemptsVerdict worker task).or (policyVerdict site worker task)) := by
  have guards : Judges site (do worker.guardAttempts task; worker.guardPolicy task; .ret true) true
      task state ((attemptsVerdict worker task).or (policyVerdict site worker task)) := by
    apply (guard_attempts_judges stored).seq
    intro _
    have returns : Judges site (.ret true) true task state none := .inl ⟨rfl, rfl, rfl⟩
    rw [← @Option.or_none _ (policyVerdict site worker task)]
    exact (guard_policy_judges stored queued).seq fun _ => returns
  unfold TaskWorker.runnable exceptWhere Judges
  rw [meets_catch]
  apply Meets.post guards
  intro after outcome judged
  rcases judged with ⟨passed, rfl, same⟩ | ⟨other, refused⟩
  · exact .inl ⟨passed, rfl, same⟩
  · cases outcome with
    | ok value => exact .inr ⟨other, refused⟩
    | error error =>
        rw [handled_error]
        split_ifs
        · exact .inr ⟨by simp, refused⟩
        · exact .inr ⟨error_ne_ok error true, refused⟩

theorem passes_judges [Unicode] (stored : Q.board state.1 task.id = some task)
    (queued : stateOf task state = some .queued) :
    Judges site (passes worker task) true task state
      ((dependencyVerdict (Q.board state.1) task).or
        ((attemptsVerdict worker task).or (policyVerdict site worker task))) := by
  apply (dependencies_look task).meets_seq fun _ _ served => served
  intro status told
  have passed_over : ∀ (after : Q.Store × E) left, stateOf task after = some left →
      Refuses site (.ret false) true task after left := fun _ _ leaves => ⟨by simp, leaves⟩
  unfold dependencyVerdict
  rw [← told]
  cases status.state with
  | ready => exact runnable_judges stored queued
  | blocked => exact (emit_refuses queued fun after => passed_over after _).judges
  | failed =>
      apply Refuses.judges
      exact failing_refuses stored fun _ failed =>
        emit_refuses failed fun after => passed_over after _

/-- What becomes of a task in front of the guards of `run`. -/
def runVerdict (site : Site E) (worker : TaskWorker) (board : Board) (task : Task) : Verdict :=
  (budgetVerdict site worker).or ((attemptsVerdict worker task).or
    ((dependencyVerdict board task).or (policyVerdict site worker task)))

/-- What becomes of it in front of those of `run_next`. -/
def nextVerdict (site : Site E) (worker : TaskWorker) (board : Board) (task : Task) : Verdict :=
  (budgetVerdict site worker).or ((dependencyVerdict board task).or
    ((attemptsVerdict worker task).or (policyVerdict site worker task)))

theorem guards_of_run_judge [Unicode] (stored : Q.board state.1 task.id = some task)
    (queued : stateOf task state = some .queued) :
    Judges site (guardsOfRun worker task) () task state
      (runVerdict site worker (Q.board state.1) task) := by
  apply (guard_budget_judges task.id queued).seq
  intro _
  apply (guard_attempts_judges stored).seq
  intro _
  apply (guard_dependencies_judges stored queued).seq
  intro _
  exact guard_policy_judges stored queued

theorem Judges.looks {program : Code α} (judges : Judges site program value task state none) :
    Looks (site.env Q) program state (· = value) := by
  apply Meets.post judges
  intro after outcome judged
  rcases judged with ⟨_, rfl, same⟩ | ⟨_, _, never, _⟩
  · exact ⟨same, value, rfl, rfl⟩
  · cases never

theorem Judges.refuses {program : Code α}
    (judges : Judges site program value task state (some left)) :
    Refuses site program value task state left := by
  apply Meets.post judges
  intro after outcome judged
  rcases judged with ⟨never, _⟩ | ⟨refused, other, same, leaves⟩
  · cases never
  · obtain rfl := Option.some.inj same
    exact ⟨refused, leaves⟩

/-!
## What the entry points come to
-/

section Ending

variable [Unicode] [Sha256]

/-- How the preparation of a task can go on: it raised, or the executor ends with
the task in this state. -/
def Handing (site : Site E) (worker : TaskWorker) (claimed : Bool) (task : Task)
    (left : Option TaskState) (handed : Bool) : Except Exn Handed → Q.Store × E → Prop
  | .ok given, middle => handed = true ∧
      CanEnd (site.env Q) (handOver worker claimed given) middle fun _ final =>
        stateOf task final = left
  | .error _, final => handed = false ∧ stateOf task final = left

/-- The entry point can end with the task in this state, handed to the executor or not. -/
def Ends {program : Code ExecutedTask} (site : Site E) (entry : Entry worker program) (task : Task)
    (state : Q.Store × E) (left : Option TaskState) (handed : Bool) : Prop :=
  CanEnd (site.env Q) entry.prepare state (Handing site worker entry.claimed task left handed)

omit [Unicode] [Sha256] in
/-- The preparation raises, and leaves the task in this state. -/
def TurnsDown (site : Site E) (program : Code Handed) (task : Task) (state : Q.Store × E)
    (left : TaskState) : Prop :=
  Meets (site.env Q) (Serves (site.env Q)) program state fun after outcome =>
    (∃ error, outcome = .error error) ∧ stateOf task after = some left

theorem turned_down_ends {program : Code Handed} {claimed handed : Bool} {left' : Option TaskState}
    (down : TurnsDown site program task state left) :
    CanEnd (site.env Q) program state (Handing site worker claimed task left' handed) ↔
      handed = false ∧ left' = some left := by
  apply down.can_end_iff
  intro after outcome ended
  obtain ⟨⟨error, rfl⟩, leaves⟩ := ended
  change handed = false ∧ stateOf task after = left' ↔ _
  rw [leaves, @eq_comm _ left']

omit [Unicode] [Sha256] in
theorem Refuses.turns_down {program : Code Unit} {next : Code Handed}
    (refuses : Refuses site program () task state left) :
    TurnsDown site (program >>= fun _ => next) task state left := by
  apply Meets.seq refuses
  · exact fun after _ refused => absurd rfl refused.1
  · exact fun after error refused => ⟨⟨error, rfl⟩, refused.2⟩

omit [Unicode] [Sha256] in
theorem Alone.state_of (alone : Alone (Q.board state.1) task) :
    stateOf task state = some .queued := by
  unfold stateOf
  rw [alone.stored, Option.map_some, alone.queued]

omit [Sha256] in
theorem run_turns_down (alone : Alone (Q.board state.1) task)
    (refused : runVerdict site worker (Q.board state.1) task = some left) :
    TurnsDown site (preparing worker task.id) task state left := by
  have guards := @guards_of_run_judge Q E site worker task state _ alone.stored alone.state_of
  rw [refused] at guards
  apply (get_looks task.id).meets_seq fun _ _ served => served
  intro found told
  rw [told, alone.stored]
  exact guards.refuses.turns_down

omit [Sha256] in
theorem next_turns_down (alone : Alone (Q.board state.1) task)
    (refused : nextVerdict site worker (Q.board state.1) task = some left) :
    TurnsDown site (preparingNext worker) task state left := by
  have budget := @guard_budget_judges Q E site worker task state _ "<dispatch>" alone.state_of
  unfold nextVerdict at refused
  cases spent : budgetVerdict site worker with
  | some other =>
      rw [spent] at budget refused
      obtain rfl := Option.some.inj refused
      exact budget.refuses.turns_down
  | none =>
      rw [spent] at budget refused
      apply budget.looks.meets_seq fun _ _ served => served
      intro _ _
      apply (list_looks alone).meets_seq fun _ _ served => served
      intro tasks told
      have passing := @passes_judges Q E site worker task state _ alone.stored alone.state_of
      rw [Option.none_or] at refused
      rw [refused] at passing
      rw [told]
      apply Meets.seq passing.refuses
      · intro after fit refused
        cases fit with
        | false => exact ⟨⟨_, rfl⟩, refused.2⟩
        | true => exact absurd rfl refused.1
      · exact fun after error refused => ⟨⟨error, rfl⟩, refused.2⟩

end Ending

/-!
## A task that passes
-/

/-- `_effective` under the policy that was found. -/
def shapedBy (worker : TaskWorker) (spec : TaskSpec) :
    Option ProjectPolicy → Except Exn (TaskSpec × Option CommandVerifier)
  | none => .ok (spec, worker.verifier)
  | some policy =>
      let spec := { spec with baseBranch := TaskWorker.baseBranchOf policy spec }
      if policy.verifyAllow.isEmpty then .ok (spec, worker.verifier)
      else policy.extraAllowed.map fun extra => (spec, some (worker.verifierWith extra))

/-- What the executor is given when the resolver gave this answer, if it is given anything. -/
def resolvedAs (site : Site E) (worker : TaskWorker) (task : Task) (reply : Except Exn TaskSpec) :
    Except Exn Handed :=
  let shaped := reply.bind fun spec => (policyOf site worker task).bind (shapedBy worker spec)
  shaped.map fun shaped => ⟨task, shaped.1, shaped.2⟩

theorem effective_looks (spec : TaskSpec) :
    Meets (site.env Q) (Serves (site.env Q)) (worker.effective task spec) state fun after outcome =>
      after = state ∧ outcome = (policyOf site worker task).bind (shapedBy worker spec) := by
  apply (policy_looks task).seq
  · intro after found looked
    obtain ⟨rfl, told⟩ := looked
    have under : (policyOf site worker task).bind (shapedBy worker spec) =
        shapedBy worker spec found := by rw [← told]; rfl
    rw [under]
    unfold shapedBy
    cases found with
    | none => exact ⟨rfl, rfl⟩
    | some policy =>
        by_cases plain : policy.verifyAllow.isEmpty = true
        · simp only [plain, if_true]
          exact ⟨rfl, rfl⟩
        · rw [Bool.not_eq_true] at plain
          simp only [plain]
          cases policy.extraAllowed with
          | error error => exact ⟨rfl, rfl⟩
          | ok extra => exact ⟨rfl, rfl⟩
  · intro after error looked
    obtain ⟨rfl, told⟩ := looked
    rw [← told]
    exact ⟨rfl, rfl⟩

theorem resolving_can_end {post : Except Exn Handed → Q.Store × E → Prop} :
    CanEnd (site.env Q) (resolving worker task) state post ↔
      ∃ reply e, site.acts (.resolveSpec task worker.repoPath) state.2 reply e ∧
        post (resolvedAs site worker task reply) (state.1, e) := by
  have shapes : ∀ (spec : TaskSpec) (e : E),
      CanEnd (site.env Q) (worker.effective task spec >>= fun shaped =>
          .ret (⟨task, shaped.1, shaped.2⟩ : Handed)) (state.1, e) post ↔
        post (resolvedAs site worker task (.ok spec)) (state.1, e) := by
    intro spec e
    have ends : Meets (site.env Q) (Serves (site.env Q)) (worker.effective task spec >>= fun shaped =>
        .ret (⟨task, shaped.1, shaped.2⟩ : Handed)) (state.1, e) fun after outcome =>
          after = (state.1, e) ∧ outcome = resolvedAs site worker task (.ok spec) := by
      have same : ∀ shaped, (policyOf site worker task).bind (shapedBy worker spec) = shaped →
          resolvedAs site worker task (.ok spec) =
            shaped.map fun shaped => (⟨task, shaped.1, shaped.2⟩ : Handed) := by
        intro shaped under
        rw [← under]
        rfl
      apply (effective_looks spec).seq
      · intro after shaped looked
        rw [same _ looked.2.symm]
        exact ⟨looked.1, rfl⟩
      · intro after error looked
        rw [same _ looked.2.symm]
        exact ⟨looked.1, rfl⟩
    apply ends.can_end_iff
    intro after outcome ended
    rw [ended.1, ended.2]
  constructor
  · intro ends
    obtain ⟨trace, outcome, final, execution, holds⟩ := ends
    obtain ⟨reply, middle, rest, ⟨kept, acted⟩, _, later⟩ := execution
    have reached : middle = (state.1, middle.2) := Prod.ext kept rfl
    refine ⟨reply, middle.2, acted, ?_⟩
    rw [← reached]
    cases reply with
    | error error =>
        obtain ⟨_, rfl, rfl⟩ := later
        exact holds
    | ok spec =>
        rw [reached] at later
        rw [reached]
        exact (shapes spec middle.2).mp ⟨rest, outcome, final, later, holds⟩
  · intro acts
    obtain ⟨reply, e, acted, holds⟩ := acts
    have answered : site.env Q (.resolveSpec task worker.repoPath) state reply (state.1, e) :=
      ⟨rfl, acted⟩
    apply can_end_ask reply answered
    cases reply with
    | error error => exact ⟨[], _, _, ⟨rfl, rfl, rfl⟩, holds⟩
    | ok spec => exact (shapes spec e).mpr holds

def claimedStore (Q : SteadyQueue) (store : Q.Store) (task : Task) (deadline : Instant) : Q.Store :=
  (Q.step (.claim task 0) deadline store).2

theorem claim_can_end {α : Type} {next : Bool → Code α} {lease : Duration}
    {post : Except Exn α → Q.Store × E → Prop} (alone : Alone (Q.board state.1) task) :
    CanEnd (site.env Q) (Queue.claim task lease >>= next) state post ↔
      ∃ deadline, CanEnd (site.env Q) (next true) (claimedStore Q state.1 task deadline, state.2)
        post := by
  have won : ∀ now, (Q.step (.claim task lease) now state.1).1 = .ok true := by
    intro now
    rcases Q.refines (.claim task lease) now state.1 with ⟨_, _, _, replied, _⟩ | ⟨unqueued, _⟩
    · exact replied
    · exact absurd alone.queued (unqueued task alone.stored)
  have claims : ∀ now, (Q.step (.claim task lease) now state.1).2 =
      claimedStore Q state.1 task (now + lease) := by
    intro now
    unfold claimedStore
    rw [Q.leased task lease 0 now (now + lease) state.1 (Int.add_zero _).symm]
  constructor
  · intro ends
    obtain ⟨trace, outcome, final, ⟨reply, middle, rest, ⟨now, rfl, rfl⟩, _, later⟩, holds⟩ := ends
    rw [won now, claims now] at later
    exact ⟨now + lease, rest, outcome, final, later, holds⟩
  · intro ends
    obtain ⟨deadline, ends⟩ := ends
    have answered : site.env Q (.queue (.claim task lease)) state (.ok true)
        (claimedStore Q state.1 task deadline, state.2) := by
      refine ⟨deadline - lease, (won _).symm, ?_⟩
      rw [claims, Int.sub_add_cancel]
    exact can_end_ask _ answered ends

theorem claimed_state (alone : Alone (Q.board state.1) task) (deadline : Instant) (e : E) :
    stateOf task (claimedStore Q state.1 task deadline, e) = some .running := by
  unfold stateOf claimedStore
  rcases Q.refines (.claim task 0) deadline state.1 with ⟨stored, found, _, _, board⟩ | ⟨unqueued, _⟩
  · rw [board]
    obtain rfl := Option.some.inj (alone.stored.symm.trans found)
    exact congrArg (Option.map Task.state) (board_put_self _ (claimed (deadline + 0) task))
  · exact absurd alone.queued (unqueued task alone.stored)

theorem resolved_task {reply : Except Exn TaskSpec} {given : Handed}
    (resolved : resolvedAs site worker task reply = .ok given) : given.task = task := by
  unfold resolvedAs at resolved
  cases shaped : reply.bind fun spec => (policyOf site worker task).bind (shapedBy worker spec) with
  | error error =>
      rw [shaped] at resolved
      cases resolved
  | ok both =>
      rw [shaped] at resolved
      exact congrArg Handed.task (Except.ok.inj resolved).symm

/-- Something is raised between the guards and the executor. -/
def ResolvingRaises (site : Site E) (worker : TaskWorker) (task : Task) (e : E) : Prop :=
  ∃ reply e' error, site.acts (.resolveSpec task worker.repoPath) e reply e' ∧
    resolvedAs site worker task reply = .error error

section Passing

variable [Unicode] [Sha256]

theorem hand_over_claims {given : Handed} {post : Except Exn ExecutedTask → Q.Store × E → Prop}
    (alone : Alone (Q.board state.1) given.task) :
    CanEnd (site.env Q) (handOver worker false given) state post ↔
      ∃ deadline, CanEnd (site.env Q) (handOver worker true given)
        (claimedStore Q state.1 given.task deadline, state.2) post :=
  claim_can_end alone

theorem run_passes (alone : Alone (Q.board state.1) task)
    (passed : runVerdict site worker (Q.board state.1) task = none) (left : Option TaskState)
    (handed : Bool) :
    Ends site (runEntry worker task.id) task state left handed ↔
      CanEnd (site.env Q) (resolving worker task) state
        (Handing site worker false task left handed) := by
  have guards := @guards_of_run_judge Q E site worker task state _ alone.stored alone.state_of
  rw [passed] at guards
  have found : Looks (site.env Q) (Queue.get task.id) state (· = some task) :=
    alone.stored ▸ get_looks task.id
  exact found.can_end_iff.trans guards.looks.can_end_iff

theorem next_passes (alone : Alone (Q.board state.1) task)
    (passed : nextVerdict site worker (Q.board state.1) task = none) (left : Option TaskState)
    (handed : Bool) :
    Ends site (nextEntry worker) task state left handed ↔
      ∃ deadline, CanEnd (site.env Q) (resolving worker task)
        (claimedStore Q state.1 task deadline, state.2)
        (Handing site worker true task left handed) := by
  unfold nextVerdict at passed
  rw [Option.or_eq_none_iff] at passed
  have budget := @guard_budget_judges Q E site worker task state _ "<dispatch>" alone.state_of
  have passing := @passes_judges Q E site worker task state _ alone.stored alone.state_of
  rw [passed.1] at budget
  rw [passed.2] at passing
  refine budget.looks.can_end_iff.trans ((list_looks alone).can_end_iff.trans ?_)
  exact passing.looks.can_end_iff.trans (claim_can_end alone)

/-- A task that passes and is not handed over is left queued by `run` and running by
`run_next`. -/
theorem raising_disagree (alone : Alone (Q.board state.1) task)
    (run : runVerdict site worker (Q.board state.1) task = none)
    (next : nextVerdict site worker (Q.board state.1) task = none)
    (raises : ResolvingRaises site worker task state.2) :
    Ends site (runEntry worker task.id) task state (some .queued) false ∧
      ¬Ends site (nextEntry worker) task state (some .queued) false := by
  rw [run_passes alone run, next_passes alone next]
  constructor
  · obtain ⟨reply, e, error, acted, raised⟩ := raises
    refine resolving_can_end.mpr ⟨reply, e, acted, ?_⟩
    rw [raised]
    exact ⟨rfl, alone.state_of⟩
  · intro ends
    obtain ⟨deadline, ends⟩ := ends
    obtain ⟨reply, e, _, handing⟩ := resolving_can_end.mp ends
    cases resolved : resolvedAs site worker task reply with
    | ok given =>
        rw [resolved] at handing
        cases handing.1
    | error error =>
        rw [resolved] at handing
        cases (claimed_state alone deadline e).symm.trans handing.2

theorem resolving_agree (alone : Alone (Q.board state.1) task)
    (run : runVerdict site worker (Q.board state.1) task = none)
    (next : nextVerdict site worker (Q.board state.1) task = none)
    (quiet : ¬ResolvingRaises site worker task state.2) (left : Option TaskState) (handed : Bool) :
    Ends site (runEntry worker task.id) task state left handed ↔
      Ends site (nextEntry worker) task state left handed := by
  have resolves : ∀ reply e, site.acts (.resolveSpec task worker.repoPath) state.2 reply e →
      ∃ given, resolvedAs site worker task reply = .ok given ∧ given.task = task := by
    intro reply e acted
    cases resolved : resolvedAs site worker task reply with
    | error error => exact absurd ⟨reply, e, error, acted, resolved⟩ quiet
    | ok given => exact ⟨given, rfl, resolved_task resolved⟩
  simp only [run_passes alone run, next_passes alone next, resolving_can_end]
  constructor
  · intro ends
    obtain ⟨reply, e, acted, handing⟩ := ends
    obtain ⟨given, resolved, same⟩ := resolves reply e acted
    rw [resolved] at handing
    obtain ⟨rfl, ended⟩ := handing
    subst same
    have stored : Alone (Q.board (state.1, e).1) given.task := alone
    obtain ⟨deadline, ended⟩ := (hand_over_claims stored).mp ended
    refine ⟨deadline, reply, e, acted, ?_⟩
    rw [resolved]
    exact ⟨rfl, ended⟩
  · intro ends
    obtain ⟨deadline, reply, e, acted, handing⟩ := ends
    obtain ⟨given, resolved, same⟩ := resolves reply e acted
    rw [resolved] at handing
    obtain ⟨rfl, ended⟩ := handing
    subst same
    refine ⟨reply, e, acted, ?_⟩
    rw [resolved]
    have stored : Alone (Q.board (state.1, e).1) given.task := alone
    exact ⟨rfl, (hand_over_claims stored).mpr ⟨deadline, ended⟩⟩

end Passing

/-!
## Where they agree
-/

def BudgetLets (site : Site E) (worker : TaskWorker) : Prop :=
  worker.events = false ∨ worker.budget.maxFailures ≤ 0 ∨
    ∃ failures, site.failures = .ok failures ∧ failures < worker.budget.maxFailures

structure Clear (site : Site E) (worker : TaskWorker) (board : Board) (task : Task) : Prop where
  budget : BudgetLets site worker
  attempts : task.attempts < worker.maxAttempts
  ready : (statusOn board task).state = .ready
  permitted : ∃ found, policyOf site worker task = .ok found ∧
    ∀ policy, found = some policy → policy.enabled = true

/-- The task has no attempts left, and waits for a dependency. -/
structure SpentInWait (site : Site E) (worker : TaskWorker) (board : Board) (task : Task) : Prop where
  budget : BudgetLets site worker
  spent : worker.maxAttempts ≤ task.attempts
  blocked : (statusOn board task).state = .blocked

/-- The resolver does not raise for the task, and what the policy adds to the allowlist
can be split. -/
structure Resolves (site : Site E) (worker : TaskWorker) (task : Task) (e : E) : Prop where
  resolver : ∀ error e', ¬site.acts (.resolveSpec task worker.repoPath) e (.error error) e'
  allowlist : ∀ policy, policyOf site worker task = .ok (some policy) →
    policy.verifyAllow.isEmpty = true ∨ ∃ extra, policy.extraAllowed = .ok extra

theorem budget_verdict_iff : budgetVerdict site worker = none ↔ BudgetLets site worker := by
  unfold budgetVerdict BudgetLets
  rw [← or_assoc]
  split_ifs with unbounded
  · simp [unbounded]
  · cases site.failures with
    | error error => simp [unbounded]
    | ok failures => simp [unbounded]

theorem dependency_verdict_iff {board : Board} :
    dependencyVerdict board task = none ↔ (statusOn board task).state = .ready := by
  unfold dependencyVerdict
  cases (statusOn board task).state <;> simp

theorem attempts_verdict_iff :
    attemptsVerdict worker task = none ↔ task.attempts < worker.maxAttempts := by
  unfold attemptsVerdict
  split_ifs with spent
  · simp only [false_iff]
    exact not_lt.mpr spent
  · simp only [true_iff]
    exact not_le.mp spent

theorem policy_verdict_iff : policyVerdict site worker task = none ↔
    ∃ found, policyOf site worker task = .ok found ∧
      ∀ policy, found = some policy → policy.enabled = true := by
  unfold policyVerdict
  cases policyOf site worker task with
  | error error => simp
  | ok found =>
      cases found with
      | none => simp
      | some policy => cases enabled : policy.enabled <;> simp [enabled]

theorem clear_iff {board : Board} :
    Clear site worker board task ↔ runVerdict site worker board task = none := by
  unfold runVerdict
  simp only [Option.or_eq_none_iff, budget_verdict_iff, attempts_verdict_iff, dependency_verdict_iff,
    policy_verdict_iff]
  constructor
  · exact fun clear => ⟨clear.budget, clear.attempts, clear.ready, clear.permitted⟩
  · exact fun all => ⟨all.1, all.2.1, all.2.2.1, all.2.2.2⟩

theorem verdicts_agree {board : Board} (other : ¬SpentInWait site worker board task) :
    runVerdict site worker board task = nextVerdict site worker board task := by
  unfold runVerdict nextVerdict
  cases budget : budgetVerdict site worker with
  | some left => rfl
  | none =>
      cases attempts : attemptsVerdict worker task with
      | none => rfl
      | some left =>
          unfold attemptsVerdict at attempts
          split_ifs at attempts with spent
          obtain rfl := Option.some.inj attempts
          unfold dependencyVerdict
          cases known : (statusOn board task).state with
          | ready => rfl
          | failed => rfl
          | blocked => exact absurd ⟨budget_verdict_iff.mp budget, spent, known⟩ other

theorem spent_verdicts {board : Board} (spent : SpentInWait site worker board task) :
    runVerdict site worker board task = some .failed ∧
      nextVerdict site worker board task = some .queued := by
  unfold runVerdict nextVerdict attemptsVerdict dependencyVerdict
  rw [budget_verdict_iff.mpr spent.budget, if_pos spent.spent, spent.blocked]
  exact ⟨rfl, rfl⟩

theorem shaped_iff {spec : TaskSpec} {found : Option ProjectPolicy} :
    (∃ shaped, shapedBy worker spec found = .ok shaped) ↔ ∀ policy, found = some policy →
      policy.verifyAllow.isEmpty = true ∨ ∃ extra, policy.extraAllowed = .ok extra := by
  unfold shapedBy
  cases found with
  | none => simp
  | some policy =>
      by_cases plain : policy.verifyAllow.isEmpty = true
      · simp [List.isEmpty_iff.mp plain]
      · have kept : policy.verifyAllow ≠ [] := fun none => plain (List.isEmpty_iff.mpr none)
        simp only [plain]
        cases split : policy.extraAllowed with
        | error error => simp [split, Except.map, kept]
        | ok extra => simp [split, Except.map]

theorem resolves_iff {board : Board} {e : E} (clear : Clear site worker board task) :
    Resolves site worker task e ↔ ¬ResolvingRaises site worker task e := by
  obtain ⟨found, known, _⟩ := clear.permitted
  have resolved : ∀ spec, resolvedAs site worker task (.ok spec) =
      (shapedBy worker spec found).map fun shaped => ⟨task, shaped.1, shaped.2⟩ := by
    intro spec
    unfold resolvedAs
    rw [known]
    rfl
  constructor
  · intro resolves raises
    obtain ⟨reply, e', error, acted, raised⟩ := raises
    cases reply with
    | error raisedBy => exact resolves.resolver raisedBy e' acted
    | ok spec =>
        have splits : ∀ policy, found = some policy →
            policy.verifyAllow.isEmpty = true ∨ ∃ extra, policy.extraAllowed = .ok extra :=
          fun policy same => resolves.allowlist policy (same ▸ known)
        obtain ⟨shaped, same⟩ := (@shaped_iff worker spec found).mpr splits
        rw [resolved, same] at raised
        cases raised
  · intro quiet
    have resolver : ∀ error e', ¬site.acts (.resolveSpec task worker.repoPath) e (.error error) e' :=
      fun error e' acted => quiet ⟨.error error, e', error, acted, rfl⟩
    refine ⟨resolver, fun policy own => ?_⟩
    obtain rfl := Except.ok.inj (known.symm.trans own)
    obtain ⟨reply, e', acted⟩ := site.answers (.resolveSpec task worker.repoPath) e
    cases reply with
    | error error => exact absurd acted (resolver error e')
    | ok spec =>
        cases shaped : shapedBy worker spec (some policy) with
        | ok both => exact shaped_iff.mp ⟨both, shaped⟩ policy rfl
        | error error =>
            refine absurd ⟨.ok spec, e', error, acted, ?_⟩ quiet
            rw [resolved, shaped]
            rfl

variable [Unicode] [Sha256]

/-- `run` and `run_next` can end with the task in the same states, and hand it to the
executor or not. -/
def EntriesAgree (site : Site E) (worker : TaskWorker) (task : Task) (state : Q.Store × E) : Prop :=
  ∀ left handed, Ends site (runEntry worker task.id) task state left handed ↔
    Ends site (nextEntry worker) task state left handed

theorem spent_disagree (alone : Alone (Q.board state.1) task)
    (spent : SpentInWait site worker (Q.board state.1) task) :
    Ends site (runEntry worker task.id) task state (some .failed) false ∧
      ¬Ends site (nextEntry worker) task state (some .failed) false := by
  obtain ⟨run, next⟩ := spent_verdicts spent
  constructor
  · exact (turned_down_ends (run_turns_down alone run)).mpr ⟨rfl, rfl⟩
  · intro ends
    obtain ⟨_, never⟩ := (turned_down_ends (next_turns_down alone next)).mp ends
    cases never

/-- The two entry points agree on the only queued task unless it waits for a
dependency with its attempts spent, or comes past every guard and cannot be resolved. -/
theorem entries_agree_iff (alone : Alone (Q.board state.1) task) :
    EntriesAgree site worker task state ↔
      ¬SpentInWait site worker (Q.board state.1) task ∧
        (Clear site worker (Q.board state.1) task → Resolves site worker task state.2) := by
  by_cases spent : SpentInWait site worker (Q.board state.1) task
  · apply iff_of_false
    · intro agree
      obtain ⟨run, next⟩ := spent_disagree alone spent
      exact next ((agree _ _).mp run)
    · exact fun both => both.1 spent
  · have same := verdicts_agree spent
    rw [and_iff_right spent]
    cases run : runVerdict site worker (Q.board state.1) task with
    | some left =>
        apply iff_of_true
        · intro left' handed
          exact (turned_down_ends (run_turns_down alone run)).trans
            (turned_down_ends (next_turns_down alone (same ▸ run))).symm
        · intro clear
          cases run.symm.trans (clear_iff.mp clear)
    | none =>
        have clear := clear_iff.mpr run
        have next := same ▸ run
        rw [imp_iff_right clear, resolves_iff clear]
        constructor
        · intro agree raises
          obtain ⟨queued, never⟩ := raising_disagree alone run next raises
          exact never ((agree _ _).mp queued)
        · exact fun quiet => resolving_agree alone run next quiet

end Judging

section Example

def queuedWidget : Task := { widgetTask with state := .queued, createdAt := (0 : Nat) }

def widgetStore : MemoryQueue.steady.Store × Unit := ((heldUpWorld 0).queue, ())

theorem widget_alone : Alone (MemoryQueue.steady.board widgetStore.1) queuedWidget where
  stored := (Dict.get_eq_some_iff _ _ _).mpr (List.mem_singleton_self _)
  queued := rfl
  only id other found _ := by
    have member := (Dict.get_eq_some_iff _ _ _).mp found
    exact congrArg Prod.snd (List.mem_singleton.mp member)

def brokenSite : Site Unit where
  failures := .ok 0
  policies _ := .ok none
  acts _ _ reply _ := reply = .error .assertionError
  answers _ _ := ⟨_, (), rfl⟩

theorem widget_entries_agree_iff :
    let _ := asciiTables
    let _ := widgetSha256
    EntriesAgree brokenSite plainWorker queuedWidget widgetStore ↔
      ¬SpentInWait brokenSite plainWorker (MemoryQueue.steady.board widgetStore.1) queuedWidget ∧
        (Clear brokenSite plainWorker (MemoryQueue.steady.board widgetStore.1) queuedWidget →
          Resolves brokenSite plainWorker queuedWidget ()) := by
  let _ := asciiTables
  let _ := widgetSha256
  exact entries_agree_iff widget_alone

/-- Where the resolver raises `run` leaves the task queued, and `run_next` does not. -/
theorem unresolved_task_claimed :
    let _ := asciiTables
    let _ := widgetSha256
    Alone (MemoryQueue.steady.board widgetStore.1) queuedWidget ∧
      Ends brokenSite (runEntry plainWorker queuedWidget.id) queuedWidget widgetStore (some .queued)
        false ∧
      ¬Ends brokenSite (nextEntry plainWorker) queuedWidget widgetStore (some .queued) false := by
  let _ := asciiTables
  let _ := widgetSha256
  have raises : ResolvingRaises brokenSite plainWorker queuedWidget () :=
    ⟨_, (), .assertionError, rfl, rfl⟩
  exact ⟨widget_alone, raising_disagree widget_alone (by decide) (by decide) raises⟩

end Example

end DearAgent.Work
