import DearAgent.Dispatch
import DearAgent.Executor.Gate
import DearAgent.Worker
import DearAgent.Queue.Claims

/-!
# Passes beside other workers

One pass of the dispatcher or of a worker over the tasks it listed, while others claim and
move tasks of the same queue. A task that was moved since makes a transition of the pass
conflict, and the exception ends the pass.
-/

namespace DearAgent.Conflicts

open DearAgent.Lib.Text DearAgent.Lib.Effects DearAgent.Queue

set_option autoImplicit false

inductive Meanwhile (Q : QueueBackend) : Q.Store → Q.Store → Prop
  | nothing (store : Q.Store) : Meanwhile Q store store
  | call (op : QueueOp) (now : Instant) {store after : Q.Store}
      (later : Meanwhile Q (Q.step op now store).2 after) : Meanwhile Q store after

/-- `StateConflictError`. -/
def isConflict : Exn → Bool
  | .stateConflict _ _ _ => true
  | _ => false

section Surroundings

variable (Q : QueueBackend)

/-- The queue does what it is asked for, and a launch may fail. The log, the policies and the
template work; what an execution uses may do anything but raise a conflict. -/
def answers : Env ports Q.Store
  | .queue op, store, reply, after => ∃ now : Instant,
      reply = (Q.step op now store).1 ∧ after = (Q.step op now store).2
  | .launchJob _, store, _, after => after = store
  | .record _ _ _, store, reply, after =>
      (∀ error, reply = .error error → error.isException = true) ∧ after = store
  | .utcnow, store, reply, after => (∃ now, reply = .ok now) ∧ after = store
  | .countEvents _ _, store, reply, after => (∃ count, reply = .ok count) ∧ after = store
  | .policyForRepo _, store, reply, after => (∃ policy, reply = .ok policy) ∧ after = store
  | .renderJob _ _, store, reply, after => (∃ job, reply = .ok job) ∧ after = store
  | _, store, reply, after =>
      (∀ error, reply = .error error → isConflict error = false) ∧ after = store

def amid : Env ports Q.Store := fun request store reply after =>
  ∃ before, Meanwhile Q store before ∧ answers Q request before reply after

end Surroundings

/-- The task to be moved is in another state now, or the launch fails. -/
def Disturbed (board : Board) : (request : Request) → Except Exn request.Result → Prop
  | .queue (.transition task _ _), _ =>
      ∃ stored, board task.id = some stored ∧ stored.state ≠ task.state
  | .launchJob _, reply => ∃ error, reply = .error error
  | _, _ => False

def undisturbed (Q : QueueBackend) : Env ports Q.Store := fun request store reply after =>
  ∃ before, Meanwhile Q store before ∧ answers Q request before reply after ∧
    ¬Disturbed (Q.board before) request reply

inductive Pass
  | dispatch (dispatcher : TaskDispatcher)
  | next (worker : TaskWorker)

section Passing

variable [Unicode] [Sha256]

def Pass.program : Pass → Code Unit
  | .dispatch dispatcher => dropValue dispatcher.dispatchOnce
  | .next worker => dropValue worker.runNext

def lists : Exchange ports → Bool
  | ⟨.queue (.list _ _), .ok _⟩ => true
  | _ => false

def claims (event : Exchange ports) : Bool := (Work.claimedId event).isSome

def noRunnableTask : Exn := .taskWorkerError "no runnable task"

/-- The loop over the listed tasks came to its end, for a worker at the latest with the task
it claimed. -/
def Pass.Completes (trace : List (Exchange ports)) (outcome : Except Exn Unit) : Pass → Prop
  | .dispatch _ => outcome = .ok ()
  | .next _ => trace.any claims = true ∨ outcome = .error noRunnableTask

/-- What others do to the tasks does not end the pass. -/
structure Unaborted (pass : Pass) (trace : List (Exchange ports)) (outcome : Except Exn Unit) :
    Prop where
  unconflicted : ∀ error, outcome = .error error → isConflict error = false
  considers : trace.any lists = true → pass.Completes trace outcome

end Passing

/-!
## What the parts of a pass raise
-/

def Fine : (request : Request) → Except Exn request.Result → Prop
  | .record _ _ _, reply => ∀ error, reply = .error error → error.isException = true
  | _, reply => ∃ value, reply = .ok value

def Unconflicted : (request : Request) → Except Exn request.Result → Prop
  | .record _ _ _, reply => ∀ error, reply = .error error → error.isException = true
  | _, reply => ∀ error, reply = .error error → isConflict error = false

abbrev Calm {α : Type} (program : Code α) : Prop := RaisesOnly Fine (fun _ => False) program

abbrev Mild {α : Type} (program : Code α) : Prop :=
  RaisesOnly Unconflicted (fun error => isConflict error = false) program

section Calm

theorem calm_emit (events : Bool) (taskId kind : Str) (data : EventData) :
    Calm (emit events taskId kind data) := by
  apply raises_emit
  intro error replied escaped
  have caught := replied error rfl
  rw [escaped] at caught
  cases caught

theorem calm_call {request : Request}
    (plain : ∀ reply, Fine request reply → ∃ value, reply = .ok value) : Calm (call request) := by
  apply raises_call
  intro error replied
  obtain ⟨_, never⟩ := plain _ replied
  cases never

theorem calm_get (id : Str) : Calm (Queue.get id) := calm_call (by exact fun _ replied => replied)

theorem calm_check_dependencies (ids blocked failed : List Str) :
    Calm (checkDependencies blocked failed ids) := by
  induction ids generalizing blocked failed with
  | nil => trivial
  | cons depId rest ih =>
      apply raises_bind (calm_get depId)
      intro dependency
      cases dependency.map Task.state with
      | none => exact ih _ _
      | some state => cases state <;> exact ih _ _

theorem calm_dependency_status (task : Task) : Calm (dependencyStatus task) := by
  unfold dependencyStatus
  by_cases independent : ((task.spec.map TaskSpec.dependsOn).getD []).isEmpty
  · simp only [independent, if_true]
    trivial
  · simp only [independent, Bool.false_eq_true, if_false]
    apply raises_bind (calm_check_dependencies _ _ _)
    intro found
    split_ifs
    · trivial
    · trivial
    · trivial

theorem calm_transition (task : Task) (state : TaskState) (evidence : Option Evidence) :
    Calm (Queue.transition task state evidence) :=
  calm_call (by exact fun _ replied => replied)

variable (worker : TaskWorker) (task : Task)

theorem calm_policy_for : Calm (worker.policyFor task) := by
  unfold TaskWorker.policyFor
  split
  · exact calm_call (by exact fun _ replied => replied)
  · trivial

variable [Unicode]

theorem calm_guards :
    RaisesOnly (S := ports) Fine (fun error => error.isTaskWorkerError = true) (do
      worker.guardAttempts task
      worker.guardPolicy task
      .ret true) := by
  have calm : ∀ {α : Type} {program : Code α}, Calm program →
      RaisesOnly (S := ports) Fine (fun error => error.isTaskWorkerError = true) program :=
    fun raises => raises.mono fun _ never => False.elim never
  apply raises_bind
  · unfold TaskWorker.guardAttempts
    split_ifs
    · exact raises_bind (calm (calm_transition _ _ _)) fun _ => rfl
    · trivial
  · intro _
    refine raises_bind (raises_bind (calm (calm_policy_for worker task)) fun policy => ?_) fun _ => trivial
    cases policy with
    | none => trivial
    | some policy =>
        simp only
        split_ifs
        · trivial
        · apply raises_bind (calm (calm_transition _ _ _))
          intro _
          exact raises_bind (calm (calm_emit _ _ _ _)) fun _ => rfl

theorem calm_runnable : Calm (worker.runnable task) := by
  apply raises_catch (calm_guards worker task)
  intro error refused
  rw [if_pos refused]
  trivial

omit [Unicode] in
theorem mild_guard_budget (taskId : Str) :
    RaisesOnly (S := ports) Fine (fun error => isConflict error = false)
      (worker.guardBudget taskId) := by
  have calm : ∀ {α : Type} {program : Code α}, Calm program →
      RaisesOnly (S := ports) Fine (fun error => isConflict error = false) program :=
    fun raises => raises.mono fun _ never => False.elim never
  unfold TaskWorker.guardBudget
  split_ifs
  · trivial
  · have exhausting : Calm worker.budget.exhausted := by
      unfold ErrorBudget.exhausted
      split_ifs
      · trivial
      · apply raises_bind (calm_call (by exact fun _ replied => replied))
        intro now
        exact raises_bind (calm_call (by exact fun _ replied => replied)) fun _ => trivial
    apply raises_bind (calm exhausting)
    intro exhausted
    split_ifs
    · exact raises_bind (calm (calm_emit _ _ _ _)) fun _ => rfl
    · trivial

end Calm

section Dispatching

theorem calm_dispatch_all (dispatcher : TaskDispatcher) (tasks : List Task) :
    Calm (dispatcher.dispatchAll tasks) := by
  induction tasks with
  | nil => trivial
  | cons task rest ih =>
      unfold TaskDispatcher.dispatchAll
      split_ifs
      · exact ih
      · apply raises_bind (calm_dependency_status task)
        intro status
        cases status.state with
        | failed => exact raises_bind (calm_transition _ _ _) fun _ => ih
        | blocked => exact ih
        | ready =>
            apply raises_bind (calm_call (by exact fun _ replied => replied))
            intro job
            apply raises_bind (calm_call (by exact fun _ replied => replied))
            intro _
            exact raises_bind ih fun _ => trivial

end Dispatching

section Mild

variable (executor : TaskExecutor) (task running : Task) (spec : TaskSpec) (worktree : Worktree)

theorem mild_call {request : Request} (plain : ∀ reply, Unconflicted request reply →
    ∀ error, reply = .error error → isConflict error = false) : Mild (call request) :=
  raises_call fun error replied => plain _ replied error rfl

theorem mild_emit (events : Bool) (taskId kind : Str) (data : EventData) :
    Mild (emit events taskId kind data) := by
  apply raises_emit
  intro error replied escaped
  have caught := replied error rfl
  rw [escaped] at caught
  cases caught

theorem mild_lets {α : Type} {asked : Request → Prop} {program : Code α}
    (lets : LetsOut asked (unhandled TaskExecutor.handledAt) program) : Mild program := by
  apply lets.raises
  intro request reply error _ replied escapes
  cases reply with
  | ok value => cases escapes
  | error other =>
      simp only [unhandled] at escapes
      split_ifs at escapes with handled
      cases escapes
      cases request with
      | record taskId kind data => exact absurd (replied error rfl) handled
      | _ => exact replied error rfl

theorem mild_finish (evidence : ExecutedTask) (recipient : Option Str) :
    Mild (executor.finish running evidence recipient) := by
  have finishing : LetsOut (fun _ => True) (unhandled TaskExecutor.handledAt)
      (executor.finish running evidence recipient) := by
    apply lets_bind (lets_call trivial rfl)
    intro final
    apply lets_bind (lets_emit trivial rfl _)
    intro _
    exact lets_bind (TaskExecutor.report_lets (fun _ => trivial) (fun _ => trivial) executor _
      recipient) fun _ => trivial
  exact mild_lets finishing

theorem mild_run_in (recipient : Option Str) (verifier : Option CommandVerifier) :
    Mild (executor.runIn task running spec recipient verifier worktree) := by
  have session : Mild (executor.runSession task spec worktree) := by
    unfold TaskExecutor.runSession
    split_ifs
    · trivial
    · apply raises_catch (mild_call (by exact fun _ replied => replied))
      intro error mild
      exact raises_bind (mild_lets (TaskExecutor.cleanup_lets executor none worktree)) fun _ => mild
  apply raises_bind session
  intro session
  apply raises_finally
  · apply raises_bind (mild_lets (TaskExecutor.deliver_lets executor task spec worktree _))
    exact fun delivery => mild_finish executor running _ recipient
  · exact mild_lets (TaskExecutor.cleanup_lets executor session worktree)

variable [Unicode] [Sha256]

theorem mild_execute (recipient : Option Str) (claimed : Bool) (verifier : Option CommandVerifier) :
    Mild (executor.execute task spec recipient claimed verifier) := by
  have created : ∀ running, Mild (executor.executeRunning task running spec recipient verifier) := by
    intro running
    apply raises_bind (mild_emit _ _ _ _)
    intro _ reply replied
    have mild : ∀ error, reply = .error error → isConflict error = false := replied
    cases reply with
    | ok worktree => exact mild_run_in executor task running spec worktree recipient verifier
    | error error =>
        simp only
        split_ifs
        · apply raises_bind (mild_call (by exact fun _ replied => replied))
          exact fun _ => mild error rfl
        · exact mild error rfl
  have running : Mild (executor.executeClaimed task spec recipient verifier) := by
    apply raises_bind (mild_call (by exact fun _ replied => replied))
    intro found
    cases found with
    | none => rfl
    | some running => exact created running
  unfold TaskExecutor.execute
  split_ifs
  · exact running
  · apply raises_bind (mild_call (by exact fun _ replied => replied))
    intro won
    split_ifs
    · exact running
    · rfl

end Mild

section Claimed

variable (worker : TaskWorker) (task : Task)

theorem extra_allowed_error {policy : ProjectPolicy} {error : Exn}
    (failed : policy.extraAllowed = .error error) : isConflict error = false := by
  have scanned : ∀ entries : List Str, entries.mapM Shlex.split = .error error →
      isConflict error = false := by
    intro entries
    induction entries with
    | nil => intro never; cases never
    | cons entry rest ih =>
        intro failed
        rw [List.mapM_cons] at failed
        cases first : Shlex.split entry with
        | error reason =>
            rw [first] at failed
            obtain ⟨text, rfl⟩ := Shlex.split_error entry reason first
            cases failed
            rfl
        | ok tokens =>
            rw [first] at failed
            cases later : rest.mapM Shlex.split with
            | error reason =>
                rw [later] at failed
                cases failed
                exact ih later
            | ok more =>
                rw [later] at failed
                cases failed
  exact scanned _ failed

variable [Unicode] [Sha256]

theorem mild_run_claimed : Mild (worker.runClaimed task) := by
  apply raises_bind (mild_call (by exact fun _ replied => replied))
  intro resolved
  have effective : Mild (worker.effective task resolved) := by
    have policy : Mild (worker.policyFor task) := by
      unfold TaskWorker.policyFor
      split
      · exact mild_call (by exact fun _ replied => replied)
      · trivial
    apply raises_bind policy
    intro policy
    cases policy with
    | none => trivial
    | some policy =>
        simp only
        split_ifs
        · trivial
        · cases extra : policy.extraAllowed with
          | error error => exact extra_allowed_error extra
          | ok extra => trivial
  apply raises_bind effective
  exact fun used => mild_execute worker.executor task used.1 worker.recipient true used.2

end Claimed

/-!
## One pass
-/

/-- What was seen of a pass: that it listed its tasks, and that it claimed one. -/
structure Seen where
  listed : Bool := false
  claimed : Bool := false

def note (seen : Seen) (event : Exchange ports) : Seen where
  listed := seen.listed || lists event
  claimed := seen.claimed || claims event

theorem noted_listed (seen : Seen) (trace : List (Exchange ports)) :
    (trace.foldl note seen).listed = (seen.listed || trace.any lists) := by
  induction trace generalizing seen with
  | nil => exact (Bool.or_false _).symm
  | cons event rest ih =>
      rw [List.foldl_cons, ih, List.any_cons, ← Bool.or_assoc]
      rfl

theorem noted_claimed (seen : Seen) (trace : List (Exchange ports)) :
    (trace.foldl note seen).claimed = (seen.claimed || trace.any claims) := by
  induction trace generalizing seen with
  | nil => exact (Bool.or_false _).symm
  | cons event rest ih =>
      rw [List.foldl_cons, ih, List.any_cons, ← Bool.or_assoc]
      rfl

section Passing

variable {Q : QueueBackend}

theorem meanwhile_keeps {store after : Q.Store} (meanwhile : Meanwhile Q store after) (id : Str)
    (present : (Q.board store id).isSome = true) : (Q.board after id).isSome = true := by
  induction meanwhile with
  | nothing store => exact present
  | call op now _ ih => exact ih (spec_keeps (Q.filed _) (Q.refines op now _) present)

/-- The tasks are stored, and this was seen. -/
def Present (tasks : List Task) (seen : Seen) (s : Q.Store × Seen) : Prop :=
  (∀ task ∈ tasks, (Q.board s.1 task.id).isSome = true) ∧ s.2 = seen

/-- What the loop over the tasks asks, beside the claims. -/
def Steps (tasks : List Task) : Request → Prop
  | .queue (.get _) | .record _ _ _ | .utcnow | .countEvents _ _ | .policyForRepo _
  | .renderJob _ _ | .launchJob _ => True
  | .queue (.transition task _ _) => task ∈ tasks
  | _ => False

theorem met_queue {op : QueueOp} {s after : Q.Store × Seen} {reply : Except Exn op.Result}
    (answered : recording (undisturbed Q) note (.queue op) s reply after) :
    ∃ before now, Meanwhile Q s.1 before ∧
      Spec now op (Q.board before) reply (Q.board after.1) ∧
      ¬Disturbed (Q.board before) (.queue op) reply ∧ after.2 = note s.2 ⟨.queue op, reply⟩ := by
  obtain ⟨⟨before, meanwhile, ⟨now, replied, reached⟩, calm⟩, seen⟩ := answered
  refine ⟨before, now, meanwhile, ?_, calm, seen⟩
  rw [replied, reached]
  exact Q.refines op now before

theorem answered_keeps {request : Request} {s after : Q.Store × Seen}
    {reply : Except Exn request.Result}
    (answered : recording (undisturbed Q) note request s reply after) (id : Str)
    (present : (Q.board s.1 id).isSome = true) : (Q.board after.1 id).isSome = true := by
  obtain ⟨⟨before, meanwhile, answer, _⟩, _⟩ := answered
  have still := meanwhile_keeps meanwhile id present
  have elsewhere : after.1 = before → (Q.board after.1 id).isSome = true := by
    intro same
    rw [same]
    exact still
  cases request with
  | queue op =>
      obtain ⟨now, _, reached⟩ := answer
      rw [reached]
      exact spec_keeps (Q.filed _) (Q.refines op now before) still
  | launchJob job => exact elsewhere answer
  | _ => exact elsewhere answer.2

theorem steps_answered {tasks : List Task} {seen : Seen} {s after : Q.Store × Seen}
    {request : Request} {reply : Except Exn request.Result} (held : Present tasks seen s)
    (step : Steps tasks request) (answered : recording (undisturbed Q) note request s reply after) :
    Present tasks seen after ∧ Fine request reply := by
  have unseen : lists ⟨request, reply⟩ = false ∧ claims ⟨request, reply⟩ = false := by
    cases request with
    | queue op =>
        cases op with
        | get => exact ⟨rfl, rfl⟩
        | transition => exact ⟨rfl, rfl⟩
        | _ => exact step.elim
    | _ => exact ⟨rfl, rfl⟩
  have seen : after.2 = seen := by
    rw [answered.2, ← held.2]
    simp [note, unseen]
  refine ⟨⟨fun task listed => answered_keeps answered task.id (held.1 task listed), seen⟩, ?_⟩
  cases request with
  | queue op =>
      cases op with
      | get id =>
          obtain ⟨before, now, _, spec, _⟩ := met_queue answered
          exact ⟨_, spec.1⟩
      | transition task toState evidence =>
          obtain ⟨before, now, meanwhile, spec, undisturbed, _⟩ := met_queue answered
          rcases spec with ⟨absent, _⟩ | ⟨stored, found, moved, _⟩ | ⟨_, moved, _, _, _, replied, _⟩
          · have present := meanwhile_keeps meanwhile task.id (held.1 task step)
            rw [absent] at present
            cases present
          · exact absurd ⟨stored, found, moved⟩ undisturbed
          · exact ⟨moved, replied⟩
      | _ => exact step.elim
  | launchJob job =>
      obtain ⟨⟨_, _, _, launched⟩, _⟩ := answered
      cases reply with
      | ok value => exact ⟨value, rfl⟩
      | error error => exact absurd ⟨error, rfl⟩ launched
  | record | utcnow | countEvents | policyForRepo | renderJob =>
      obtain ⟨⟨_, _, answer, _⟩, _⟩ := answered
      exact answer.1
  | _ => exact step.elim

theorem plain_error {error : Exn} (plain : error.isQueueError = false) :
    isConflict error = false := by
  cases error with
  | stateConflict => cases plain
  | _ => rfl

theorem unconflicted {s after : Q.Store × Seen} {request : Request}
    {reply : Except Exn request.Result}
    (answered : recording (undisturbed Q) note request s reply after) :
    Unconflicted request reply := by
  cases request with
  | queue op =>
      intro error raised
      subst raised
      obtain ⟨before, now, _, spec, undisturbed, _⟩ := met_queue answered
      cases op with
      | enqueue task state => rcases spec with ⟨_, never, _⟩ | ⟨_, _, _, never, _⟩ <;> cases never
      | get id => cases spec.1
      | list state limit =>
          rcases spec.2 with ⟨_, never, _⟩ | ⟨_, other, same, plain⟩
          · cases never
          · cases same
            exact plain_error plain
      | claim task lease => rcases spec with ⟨_, _, _, never, _⟩ | ⟨_, never, _⟩ <;> cases never
      | claimNext lease => rcases spec with ⟨_, _, _, _, never, _⟩ | ⟨_, never, _⟩ <;> cases never
      | transition task toState evidence =>
          rcases spec with ⟨_, absent, _⟩ | ⟨stored, found, moved, _⟩ | ⟨_, _, _, _, _, never, _⟩
          · cases absent
            rfl
          · exact absurd ⟨stored, found, moved⟩ undisturbed
          · cases never
      | releaseStale limit =>
          rcases spec with ⟨_, never, _⟩ | ⟨_, ⟨other, same, plain⟩, _⟩
          · cases never
          · cases same
            exact plain_error plain
  | launchJob job =>
      obtain ⟨⟨_, _, _, launched⟩, _⟩ := answered
      intro error raised
      exact absurd ⟨error, raised⟩ launched
  | utcnow | countEvents | policyForRepo | renderJob =>
      obtain ⟨⟨_, _, ⟨⟨value, replied⟩, _⟩, _⟩, _⟩ := answered
      intro error raised
      rw [replied] at raised
      cases raised
  | _ =>
      obtain ⟨⟨_, _, answer, _⟩, _⟩ := answered
      exact answer.1

section Parts

variable {tasks : List Task} {seen : Seen} {s : Q.Store × Seen} {α β : Type}

/-- What the loop does between two claims ends as it does with collaborators that work. -/
theorem meets_steps {raised : Exn → Prop} {program : Code α}
    (raises : @RaisesOnly ports _ Fine raised program) (asks : Asks (Steps tasks) program)
    (held : Present tasks seen s) :
    Meets (recording (undisturbed Q) note) (fun _ _ => True) program s fun after outcome =>
      Present tasks seen after ∧ ∀ error, outcome = .error error → raised error :=
  raises.meets asks (Present tasks seen) (fun _ _ _ _ => trivial)
    (fun _ _ _ _ held step answered => steps_answered held step answered) held

theorem calm_seq {program : Code α} {next : α → Code β} {post : Q.Store × Seen → Except Exn β → Prop}
    (calm : Calm program) (asks : Asks (Steps tasks) program) (held : Present tasks seen s)
    (rest : ∀ value after, Present tasks seen after →
      Meets (recording (undisturbed Q) note) (fun _ _ => True) (next value) after post) :
    Meets (recording (undisturbed Q) note) (fun _ _ => True) (program >>= next) s post := by
  apply (meets_steps calm asks held).seq
  · intro after value reached
    exact rest value after reached.1
  · intro after error reached
    exact (reached.2 error rfl).elim

theorem steps_looking {program : Code α} (asks : Asks TaskWorker.Looking program) :
    Asks (Steps tasks) program :=
  asks.mono fun request looking => by
    cases request with
    | queue op =>
        cases op with
        | get id => trivial
        | _ => exact looking.elim
    | record | utcnow | countEvents | policyForRepo => trivial
    | _ => exact looking.elim

theorem steps_guarding {task : Task} {program : Code α} (listed : task ∈ tasks)
    (asks : Asks (TaskWorker.Guarding task) program) : Asks (Steps tasks) program :=
  asks.mono fun request guarding => by
    cases request with
    | queue op =>
        cases op with
        | get id => trivial
        | transition asked toState evidence =>
            obtain ⟨rfl, _⟩ := guarding
            exact listed
        | _ => exact guarding.elim
    | record | utcnow | countEvents | policyForRepo => trivial
    | _ => exact guarding.elim

theorem steps_dispatch_all (dispatcher : TaskDispatcher) (rest : List Task)
    (listed : ∀ task ∈ rest, task ∈ tasks) : Asks (Steps tasks) (dispatcher.dispatchAll rest) := by
  induction rest with
  | nil => trivial
  | cons task rest ih =>
      have later := ih fun other member => listed other (List.mem_cons_of_mem _ member)
      unfold TaskDispatcher.dispatchAll
      split_ifs
      · exact later
      · apply asks_bind (steps_looking (TaskWorker.asks_dependencies task))
        intro status
        cases status.state with
        | failed => exact asks_bind (asks_call (listed task List.mem_cons_self)) fun _ => later
        | blocked => exact later
        | ready =>
            apply asks_bind (asks_call trivial)
            intro job
            apply asks_bind (asks_call trivial)
            intro _
            exact asks_bind later fun _ => trivial

/-- The tasks of the page are stored, and a page that could not be read is no conflict. -/
theorem meets_listing {limit : Int} {next : List Task → Code β}
    {post : Q.Store × Seen → Except Exn β → Prop} (fresh : s.2 = {})
    (listed : ∀ tasks after, Present tasks { listed := true } after →
      Meets (recording (undisturbed Q) note) (fun _ _ => True) (next tasks) after post)
    (unlisted : ∀ error after, after.2 = {} → isConflict error = false → post after (.error error)) :
    Meets (recording (undisturbed Q) note) (fun _ _ => True) (Queue.list .queued limit >>= next) s
      post := by
  apply meets_call_bind trivial
  · intro tasks after answered
    obtain ⟨before, now, _, ⟨same, spec⟩, _, seen⟩ := met_queue answered
    apply listed
    constructor
    · intro task member
      rcases spec with ⟨page, replied, isPage⟩ | ⟨_, _, never, _⟩
      · cases replied
        rw [same, (isPage.stored task member).1]
        rfl
      · cases never
    · rw [seen, fresh]
      rfl
  · intro error after answered
    apply unlisted
    · rw [answered.2, fresh]
      rfl
    · exact unconflicted answered error rfl

end Parts

section Passes

variable [Unicode] [Sha256] {s : Q.Store × Seen}

omit [Unicode] [Sha256] in
theorem meets_dispatch_once (dispatcher : TaskDispatcher) (fresh : s.2 = {}) :
    Meets (recording (undisturbed Q) note) (fun _ _ => True) dispatcher.dispatchOnce s
      fun after outcome => (∀ error, outcome = .error error → isConflict error = false) ∧
        (after.2.listed = true → ∃ created, outcome = .ok created) := by
  apply meets_listing fresh
  · intro tasks after held
    have asks := steps_dispatch_all dispatcher tasks fun _ member => member
    apply (meets_steps (calm_dispatch_all dispatcher tasks) asks held).post
    intro final outcome ended
    cases outcome with
    | ok created =>
        constructor
        · intro error never
          cases never
        · exact fun _ => ⟨created, rfl⟩
    | error error => exact (ended.2 error rfl).elim
  · intro error after unlisted mild
    constructor
    · intro other same
      cases same
      exact mild
    · intro listed
      rw [unlisted] at listed
      cases listed

theorem meets_claimed (worker : TaskWorker) (task : Task) (claimed : s.2.claimed = true) :
    Meets (recording (undisturbed Q) note) (fun _ _ => True) (worker.runClaimed task) s
      fun after outcome => after.2.claimed = true ∧
        ∀ error, outcome = .error error → isConflict error = false := by
  apply (mild_run_claimed worker task).meets (asks_any _)
    (fun state : Q.Store × Seen => state.2.claimed = true) (fun _ _ _ _ => trivial) ?_ claimed
  intro before request reply after held _ answered
  constructor
  · rw [answered.2]
    change (before.2.claimed || _) = true
    rw [held]
    rfl
  · exact unconflicted answered

def Considered (after : Q.Store × Seen) (outcome : Except Exn ExecutedTask) : Prop :=
  (∀ error, outcome = .error error → isConflict error = false) ∧
    (after.2.claimed = true ∨ outcome = .error noRunnableTask)

theorem meets_run_first (worker : TaskWorker) {tasks : List Task} (rest : List Task)
    (listed : ∀ task ∈ rest, task ∈ tasks) (held : Present tasks { listed := true } s) :
    Meets (recording (undisturbed Q) note) (fun _ _ => True) (worker.runFirst rest) s
      Considered := by
  induction rest generalizing s with
  | nil =>
      refine ⟨fun error same => ?_, .inr rfl⟩
      cases same
      rfl
  | cons task rest ih =>
      have own : task ∈ tasks := listed task List.mem_cons_self
      have later := fun (after : Q.Store × Seen) (held : Present tasks { listed := true } after) =>
        ih (fun other member => listed other (List.mem_cons_of_mem _ member)) held
      have noting : ∀ kind data, Asks (Steps tasks) (emit worker.events task.id kind data) :=
        fun kind data => asks_emit (fun _ _ _ => trivial) _ _ _ _
      apply calm_seq (calm_dependency_status task)
        (steps_looking (TaskWorker.asks_dependencies task)) held
      intro status after held
      cases status.state with
      | failed =>
          apply calm_seq (calm_transition task .failed none) (asks_call own) held
          intro _ after held
          apply calm_seq (calm_emit _ _ _ _) (noting _ _) held
          exact fun _ after held => later after held
      | blocked =>
          apply calm_seq (calm_emit _ _ _ _) (noting _ _) held
          exact fun _ after held => later after held
      | ready =>
          apply calm_seq (calm_runnable worker task)
            (steps_guarding own (TaskWorker.asks_runnable worker task)) held
          intro runnable after held
          cases runnable with
          | false => exact later after held
          | true =>
              apply meets_call_bind trivial
              · intro won stop answered
                cases won with
                | true =>
                    have claimed : stop.2.claimed = true := by
                      rw [answered.2]
                      exact Bool.or_true _
                    apply (meets_claimed worker task claimed).post
                    exact fun final outcome ended => ⟨ended.2, .inl ended.1⟩
                | false =>
                    apply later stop
                    constructor
                    · exact fun other member => answered_keeps answered other.id (held.1 other member)
                    · rw [answered.2, held.2]
                      rfl
              · intro error stop answered
                obtain ⟨before, now, _, spec, _⟩ := met_queue answered
                rcases spec with ⟨_, _, _, never, _⟩ | ⟨_, never, _⟩ <;> cases never

theorem meets_run_next (worker : TaskWorker) (fresh : s.2 = {}) :
    Meets (recording (undisturbed Q) note) (fun _ _ => True) worker.runNext s
      fun after outcome => (∀ error, outcome = .error error → isConflict error = false) ∧
        (after.2.listed = true →
          after.2.claimed = true ∨ outcome = .error noRunnableTask) := by
  have unlisted : ∀ (after : Q.Store × Seen) (error : Exn), after.2 = {} →
      isConflict error = false →
      (∀ other, Except.error error = (.error other : Except Exn ExecutedTask) →
        isConflict other = false) ∧
        (after.2.listed = true → after.2.claimed = true ∨
          (Except.error error : Except Exn ExecutedTask) = .error noRunnableTask) := by
    intro after error unseen mild
    constructor
    · intro other same
      cases same
      exact mild
    · intro listed
      rw [unseen] at listed
      cases listed
  have started : Present [] {} s := ⟨fun task never => absurd never List.not_mem_nil, fresh⟩
  apply (meets_steps (mild_guard_budget worker _)
    (steps_looking (TaskWorker.asks_guard_budget worker _)) started).seq
  · intro after _ held
    apply meets_listing held.1.2
    · intro tasks after held
      apply (meets_run_first worker tasks (fun _ member => member) held).post
      exact fun final outcome ended => ⟨ended.1, fun _ => ended.2⟩
    · exact fun error after unseen mild => unlisted after error unseen mild
  · exact fun after error ended => unlisted after error ended.1.2 (ended.2 error rfl)

/-- In a run where every task to be moved is as it was listed when it is moved, and every launch
succeeds, what others do to the tasks does not end the pass. -/
theorem undisturbed_pass (pass : Pass) {store final : Q.Store} {trace : List (Exchange ports)}
    {outcome : Except Exn Unit}
    (execution : Exec (undisturbed Q) pass.program store trace outcome final) :
    Unaborted pass trace outcome := by
  have seenListed := noted_listed {} trace
  have seenClaimed := noted_claimed {} trace
  cases pass with
  | dispatch dispatcher =>
      obtain ⟨before, dispatched, rfl⟩ := (exec_map fun _ => ()).mp execution
      have ended := (meets_dispatch_once dispatcher (s := (store, {})) rfl).sound
        (exec_recorded dispatched note {})
      constructor
      · intro error raised
        cases before with
        | ok _ => cases raised
        | error other =>
            cases raised
            exact ended.1 error rfl
      · intro listed
        rw [listed] at seenListed
        obtain ⟨created, rfl⟩ := ended.2 seenListed
        rfl
  | next worker =>
      obtain ⟨before, ran, rfl⟩ := (exec_map fun _ => ()).mp execution
      have ended := (meets_run_next worker (s := (store, {})) rfl).sound
        (exec_recorded ran note {})
      constructor
      · intro error raised
        cases before with
        | ok _ => cases raised
        | error other =>
            cases raised
            exact ended.1 error rfl
      · intro listed
        rw [listed] at seenListed
        rcases ended.2 seenListed with claimed | rfl
        · rw [seenClaimed] at claimed
          exact .inl claimed
        · exact .inr rfl

end Passes

end Passing

section Example

def afterCalls (Q : QueueBackend) (calls : List (QueueOp × Instant)) (store : Q.Store) : Q.Store :=
  calls.foldl (fun store call => (Q.step call.1 call.2 store).2) store

theorem meanwhile_calls (Q : QueueBackend) (calls : List (QueueOp × Instant)) (store : Q.Store) :
    Meanwhile Q store (afterCalls Q calls store) := by
  induction calls generalizing store with
  | nil => exact .nothing store
  | cons first rest ih => exact .call first.1 first.2 (ih _)

/-- Surroundings in which others make calls before some of the requests. -/
def racing (Q : QueueBackend) (others : Request → List (QueueOp × Instant)) (request : Request)
    (store : Q.Store) : Except Exn request.Result × Q.Store :=
  let before := afterCalls Q (others request) store
  match request with
  | .queue op => Q.step op 0 before
  | .launchJob _ | .record _ _ _ => (.ok (), before)
  | .utcnow => (.ok 0, before)
  | .countEvents _ _ => (.ok 0, before)
  | .policyForRepo _ => (.ok none, before)
  | .renderJob template _ => (.ok template, before)
  | _ => (.error (.runtimeError "not reached"), before)

theorem racing_amid (Q : QueueBackend) (others : Request → List (QueueOp × Instant))
    (request : Request) (store : Q.Store) :
    amid Q request store (racing Q others request store).1 (racing Q others request store).2 := by
  refine ⟨afterCalls Q (others request) store, meanwhile_calls Q _ store, ?_⟩
  cases request with
  | queue op => exact ⟨0, rfl, rfl⟩
  | launchJob => rfl
  | utcnow | countEvents | policyForRepo | renderJob => exact ⟨⟨_, rfl⟩, rfl⟩
  | record =>
      refine ⟨fun error never => ?_, rfl⟩
      cases never
  | _ =>
      refine ⟨fun error raised => ?_, rfl⟩
      cases raised
      rfl

def smooth : Exchange ports → Bool
  | ⟨.queue (.transition _ _ _), .error _⟩ | ⟨.launchJob _, .error _⟩ => false
  | _ => true

theorem smooth_undisturbed {Q : QueueBackend} {request : Request} {reply : Except Exn request.Result}
    {store after : Q.Store} (passed : smooth ⟨request, reply⟩ = true)
    (answered : amid Q request store reply after) : undisturbed Q request store reply after := by
  obtain ⟨before, meanwhile, answer⟩ := answered
  refine ⟨before, meanwhile, answer, ?_⟩
  cases reply with
  | error error =>
      cases request with
      | queue op =>
          cases op with
          | transition task toState evidence => cases passed
          | _ => exact not_false
      | launchJob job => cases passed
      | _ => exact not_false
  | ok value =>
      cases request with
      | queue op =>
          cases op with
          | transition task toState evidence =>
              obtain ⟨now, replied, _⟩ := answer
              have spec := Q.refines (.transition task toState evidence) now before
              rw [← replied] at spec
              rintro ⟨stored, found, moved⟩
              rcases spec with ⟨_, never, _⟩ | ⟨_, _, _, never, _⟩ | ⟨_, _, again, same, _⟩
              · cases never
              · cases never
              · rw [found] at again
                cases again
                exact moved same
          | _ => exact not_false
      | launchJob job =>
          rintro ⟨error, never⟩
          cases never
      | _ => exact not_false

def baseTask : Task where
  id := "base"
  transportId := "base"
  createdAt := 0

def dependentTask : Task where
  id := "dependent"
  transportId := "dependent"
  state := .queued
  createdAt := 1
  spec := some { repoUrl := "acme/widget", dependsOn := ["base"] }

def freeTask : Task where
  id := "free"
  transportId := "free"
  state := .queued
  createdAt := 2

def dependentQueue : MemoryQueue.backend.Store :=
  afterCalls MemoryQueue.backend
    [(.enqueue baseTask .failed, 0), (.enqueue dependentTask .queued, 1),
      (.enqueue freeTask .queued, 2)] ⟨MemoryQueue.empty, MemoryQueue.empty_well_formed⟩

def claiming (task : Task) : Request → List (QueueOp × Instant)
  | .queue (.get _) => [(.claim task 60, 3)]
  | _ => []

def plainDispatcher : TaskDispatcher := { template := "kind: Job" }

def plainRunner : TaskWorker where
  executor := { repoPath := "/repo", worktreesRoot := "/worktrees" }
  repoPath := "/repo"

local instance passTables : Unicode := asciiTables

local instance passDigests : Sha256 := TaskExecutor.exampleSha256

def racedPass (pass : Pass) (task : Task) : List (Exchange ports) × Except Exn Unit ×
    MemoryQueue.backend.Store :=
  run (racing MemoryQueue.backend (claiming task)) pass.program dependentQueue

/-- The claim of the other task does not disturb the dispatcher. -/
theorem free_claim_passes :
    (racedPass (.dispatch plainDispatcher) freeTask).1.any lists = true ∧
      Unaborted (.dispatch plainDispatcher) (racedPass (.dispatch plainDispatcher) freeTask).1
        (racedPass (.dispatch plainDispatcher) freeTask).2.1 := by
  refine ⟨by decide, ?_⟩
  apply undisturbed_pass (Q := MemoryQueue.backend)
  apply exec_where (exec_run (amid MemoryQueue.backend) _ (racing_amid _ (claiming freeTask)) _ _)
  · exact List.all_eq_true.mp (by decide :
      (racedPass (.dispatch plainDispatcher) freeTask).1.all smooth = true)
  · exact fun request s reply s' passed answered => smooth_undisturbed passed answered

/-- A pass that what others do to the tasks ends. -/
def Aborts (pass : Pass) (store : MemoryQueue.backend.Store) : Prop :=
  ∃ trace outcome final, Exec (amid MemoryQueue.backend) pass.program store trace outcome final ∧
    ¬Unaborted pass trace outcome

theorem aborts_of_conflict {pass : Pass} {task : Task} {error : Exn}
    (raised : (racedPass pass task).2.1 = .error error) (conflict : isConflict error = true) :
    Aborts pass dependentQueue := by
  refine ⟨_, _, _, exec_run (amid MemoryQueue.backend) _ (racing_amid _ (claiming task)) _ _, ?_⟩
  intro unaborted
  have never := unaborted.unconflicted error raised
  rw [conflict] at never
  cases never

/-- Another worker claims the task whose dependency failed before the pass moves it. -/
theorem dependent_claim_aborts :
    Aborts (.dispatch plainDispatcher) dependentQueue ∧ Aborts (.next plainRunner) dependentQueue := by
  have dispatching : (racedPass (.dispatch plainDispatcher) dependentTask).2.1 =
      .error (.stateConflict "dependent" .queued .running) := by decide
  have working : (racedPass (.next plainRunner) dependentTask).2.1 =
      .error (.stateConflict "dependent" .queued .running) := by decide
  exact ⟨aborts_of_conflict dispatching rfl, aborts_of_conflict working rfl⟩

end Example

end DearAgent.Conflicts
