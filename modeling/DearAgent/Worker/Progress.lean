import DearAgent.Lib.Simulation
import DearAgent.Dispatch
import DearAgent.Worker.Settling

/-!
# Getting past tasks that are stuck

`dispatch_once` and `run_next` look at one page of the queued tasks and pass
over those that cannot run. Nothing moves a blocked task out of the page, so a
task that can run is only reached where the page has room for it.
-/

namespace DearAgent

open DearAgent.Lib.Text DearAgent.Lib.Effects DearAgent.Lib.Dictionaries DearAgent.Queue

set_option autoImplicit false

namespace Work

/-- The collaborators of one sweep or one worker, all of them working. -/
structure Plant where
  policies : Str → Option ProjectPolicy
  failures : Int := 0

variable {Q : QueueBackend} {A : ApprovalBackend}

/-- The queue, the policies, the event log, the template, the launcher and the
resolver do what they are asked for. The ports of an execution may do anything. -/
def Plant.calm (plant : Plant) : Env ports (World Q A)
  | .queue op, world, reply, after => Served Q A (.queue op) world reply after
  | .record _ _ _, world, reply, after =>
      (∀ error, reply = .error error → error.isException = true) ∧ after = world
  | .utcnow, world, reply, after => (∃ now, reply = .ok now) ∧ after = world
  | .countEvents _ _, world, reply, after => reply = .ok plant.failures ∧ after = world
  | .policyForRepo repo, world, reply, after => reply = .ok (plant.policies repo) ∧ after = world
  | .renderJob _ _, world, reply, after => (∃ job, reply = .ok job) ∧ after = world
  | .launchJob _, world, reply, after => reply = .ok () ∧ after = world
  | .resolveSpec _ _, world, reply, after => (∃ spec, reply = .ok spec) ∧ after = world
  | _, world, _, after => after = world

/-!
## Which tasks can run
-/

def Done (board : Board) (id : Str) : Prop :=
  ∃ task, board id = some task ∧ task.state = .done

def DependenciesDone (board : Board) (task : Task) : Prop :=
  ∀ spec, task.spec = some spec → ∀ id ∈ spec.dependsOn, Done board id

/-- The policy of the task, where the worker has policies, is enabled or absent. -/
def Permitted (worker : TaskWorker) (plant : Plant) (task : Task) : Prop :=
  worker.policies = true → ∀ spec, task.spec = some spec →
    ∀ policy, plant.policies spec.repoUrl = some policy → policy.enabled = true

structure Ready (worker : TaskWorker) (plant : Plant) (board : Board) (task : Task) : Prop where
  stored : board task.id = some task
  queued : task.state = .queued
  dependencies : DependenciesDone board task
  permitted : Permitted worker plant task
  attempts : task.attempts < worker.maxAttempts

/-- The commands that the policy of the task adds to the allowlist can be split. -/
def AllowlistSplits (worker : TaskWorker) (plant : Plant) (task : Task) : Prop :=
  worker.policies = true → ∀ spec, task.spec = some spec →
    ∀ policy, plant.policies spec.repoUrl = some policy →
      policy.verifyAllow.isEmpty = true ∨ ∃ extra, policy.extraAllowed = .ok extra

/-!
## What the two calls come to
-/

/-- A job for the task is rendered and launched. -/
def Launches (dispatcher : TaskDispatcher) (task : Task) (trace : List (Exchange ports)) : Prop :=
  ∃ job before after, trace = before ++ ⟨.renderJob dispatcher.template task, .ok job⟩ ::
    ⟨.launchJob job, .ok ()⟩ :: after

/-- The task is moved to `failed`. -/
def Fails (task : Task) (trace : List (Exchange ports)) : Prop :=
  ∃ moved, (⟨.queue (.transition task .failed none), .ok moved⟩ : Exchange ports) ∈ trace

/-- The worker claims the task and makes a worktree to run it in. -/
def Executes [Unicode] [Sha256] (worker : TaskWorker) (task : Task)
    (trace : List (Exchange ports)) : Prop :=
  ∃ before after, trace = before ++ ⟨.queue (.claim task worker.lease), .ok true⟩ :: after ∧
    ∃ base reply, (⟨.createWorktree worker.executor.repoPath worker.executor.worktreesRoot
      (TaskExecutor.slug task) base, reply⟩ : Exchange ports) ∈ after

section Calm

variable {α : Type} {plant : Plant} {worker : TaskWorker} {world after : World Q A}

/-- What a program must be allowed to ask here: whatever is served. -/
abbrev Calmly (program : Code α) (plant : Plant) (world : World Q A)
    (post : World Q A → Except Exn α → Prop) : Prop :=
  Meets plant.calm (Serves plant.calm) program world post

theorem queue_serves (op : QueueOp) : Serves plant.calm world (.queue op) :=
  ⟨_, _, 0, rfl, rfl⟩

theorem calm_get {id : Str} {reply : Except Exn (Option Task)}
    (answered : plant.calm (.queue (.get id)) world reply after) :
    reply = .ok (world.board id) ∧ after.board = world.board := by
  have served : Served Q A (.queue (.get id)) world reply after := answered
  obtain ⟨⟨_, spec⟩, _⟩ := served_spec served
  exact spec

/-- The call is answered, and the board stays as it is. -/
def Consults (program : Code α) (plant : Plant) (world : World Q A) (tells : α → Prop) : Prop :=
  Calmly program plant world fun after outcome =>
    after.board = world.board ∧ ∃ value, outcome = .ok value ∧ tells value

theorem Consults.seq {β : Type} {program : Code α} {next : α → Code β} {tells : α → Prop}
    {post : World Q A → Except Exn β → Prop} (consults : Consults program plant world tells)
    (rest : ∀ after value, after.board = world.board → tells value →
      Calmly (next value) plant after post) :
    Calmly (program >>= next) plant world post := by
  have reports : Reports plant.calm (fun (world after : World Q A) => after.board = world.board)
    program world tells := consults
  exact reports.seq rest

theorem emit_consults (events : Bool) (taskId kind : Str) (data : EventData) :
    Consults (emit events taskId kind data) plant world fun _ => True := by
  unfold emit
  split_ifs
  · have serves : Serves plant.calm world (.record taskId kind data) :=
      ⟨.ok (), world, (by intro error never; cases never), rfl⟩
    apply (meets_effort serves fun _ _ answered => answered).post
    rintro _ _ ⟨returned, rfl⟩
    exact ⟨rfl, (), returned, trivial⟩
  · exact ⟨rfl, _, rfl, trivial⟩

theorem done_iff {board : Board} {id : Str} :
    Done board id ↔ (board id).map Task.state = some .done := by
  unfold Done
  rw [Option.map_eq_some_iff]

theorem done_iff_neither {board : Board} {id : Str} :
    Done board id ↔ awaited board id = false ∧ sunk board id = false := by
  rw [done_iff, awaited, sunk]
  cases (board id).map Task.state with
  | none => simp
  | some state => cases state <;> simp

theorem reads_calm : ReadsTasks (@Plant.calm Q A plant) (fun world after => after.board = world.board)
    World.board where
  refl _ := rfl
  trans first second := second.trans first
  board same := same
  reads world id := by
    apply meets_call (queue_serves _)
    intro reply after answered
    obtain ⟨replied, board⟩ := calm_get answered
    exact ⟨board, _, replied, rfl⟩

theorem dependency_status_reports (task : Task) :
    Consults (dependencyStatus task) plant world fun status => status = statusOn world.board task :=
  dependency_status_told reads_calm task world

theorem dependencies_done_iff {board : Board} {task : Task} :
    DependenciesDone board task ↔ ∀ id ∈ dependencies task, Done board id := by
  unfold DependenciesDone dependencies
  cases task.spec <;> simp

theorem status_ready_iff {board : Board} {task : Task} :
    (statusOn board task).state = .ready ↔ DependenciesDone board task := by
  rw [dependencies_done_iff, statusOn]
  simp only [done_iff_neither]
  split_ifs with failed blocked
  · apply iff_of_false not_false
    intro all
    obtain ⟨id, member, is_sunk⟩ := List.exists_mem_of_ne_nil _ failed |>.imp fun _ =>
      List.mem_filter.mp
    rw [(all id member).2] at is_sunk
    cases is_sunk
  · apply iff_of_false not_false
    intro all
    obtain ⟨id, member, waits⟩ := List.exists_mem_of_ne_nil _ blocked |>.imp fun _ =>
      List.mem_filter.mp
    rw [(all id member).1] at waits
    cases waits
  · apply iff_of_true rfl
    intro id member
    rw [not_not, List.filter_eq_nil_iff] at failed blocked
    exact ⟨Bool.eq_false_iff.mpr (blocked id member), Bool.eq_false_iff.mpr (failed id member)⟩

theorem dependency_status_consults (task : Task) :
    Consults (dependencyStatus task) plant world fun status =>
      status.state = .ready ↔ DependenciesDone world.board task := by
  apply Meets.post (dependency_status_reports task)
  intro after outcome both
  obtain ⟨kept, status, returned, rfl⟩ := both
  exact ⟨kept, _, returned, status_ready_iff⟩

/-- Only the task itself is moved, and not to a state that lets another one run. -/
structure Spares (id : Str) (board board' : Board) : Prop where
  others : ∀ other, other ≠ id → board' other = board other
  done : ∀ other, Done board' other ↔ Done board other

theorem Spares.of_eq {id : Str} {board board' : Board} (same : board' = board) :
    Spares id board board' := by
  rw [same]
  exact ⟨fun _ _ => rfl, fun _ => Iff.rfl⟩

variable {task : Task}

theorem spares_put {board : Board} {id : Str} {stored moved : Task} (own : moved.id = id)
    (found : board id = some stored) (before : stored.state ≠ .done)
    (afterwards : moved.state ≠ .done) : Spares id board (board.put moved) where
  others other differs := board_put_ne _ _ _ (own ▸ differs)
  done other := by
    rw [done_iff, done_iff]
    by_cases same : other = moved.id
    · rw [same, board_put_self, own, found]
      simp [before, afterwards]
    · rw [board_put_ne _ _ _ same]

theorem fail_calm (stored : world.board task.id = some task) (queued : task.state = .queued) :
    Calmly (Queue.transition task .failed) plant world fun after outcome =>
      (∃ moved, outcome = .ok moved) ∧ Spares task.id world.board after.board := by
  apply meets_call (queue_serves _)
  intro reply after answered
  have served : Served Q A (.queue (.transition task .failed none)) world reply after := answered
  obtain ⟨⟨_, spec⟩, _⟩ := served_spec served
  obtain ⟨_, ⟨merged, _, rfl⟩, replied, board⟩ := transition_moves spec stored rfl
  refine ⟨⟨_, replied⟩, ?_⟩
  rw [board]
  apply spares_put (by rfl) stored
  · rw [queued]
    decide
  · simp

/-- The program ends in one of two values, the second one with the task out of the way. -/
def Decides (program : Code Bool) (plant : Plant) (world : World Q A) (id : Str) (holds : Prop) :
    Prop :=
  Calmly program plant world fun after outcome =>
    (outcome = .ok true ∧ holds ∧ after.board = world.board) ∨
      (outcome = .ok false ∧ ¬holds ∧ Spares id world.board after.board)

section Guards

variable [Unicode]

/-- A guard passes and changes nothing, or fails the task and refuses it. -/
def Guards (program : Code Unit) (plant : Plant) (world : World Q A) (id : Str) (holds : Prop) :
    Prop :=
  Calmly program plant world fun after outcome =>
    (outcome = .ok () ∧ holds ∧ after.board = world.board) ∨
      ((∃ error, outcome = .error error ∧ error.isTaskWorkerError = true) ∧ ¬holds ∧
        Spares id world.board after.board)

theorem guard_attempts_calm (stored : world.board task.id = some task)
    (queued : task.state = .queued) :
    Guards (worker.guardAttempts task) plant world task.id
      (task.attempts < worker.maxAttempts) := by
  unfold TaskWorker.guardAttempts
  split_ifs with many
  · apply (fail_calm stored queued).seq
    · intro after moved both
      exact .inr ⟨⟨_, rfl, rfl⟩, not_lt.mpr many, both.2⟩
    · intro after error both
      obtain ⟨⟨_, never⟩, _⟩ := both
      cases never
  · exact .inl ⟨rfl, not_le.mp many, rfl⟩

omit [Unicode] in
theorem policy_for_consults (task : Task) :
    Consults (worker.policyFor task) plant world fun found =>
      found = if worker.policies then task.spec.bind fun spec => plant.policies spec.repoUrl
        else none := by
  unfold TaskWorker.policyFor
  cases worker.policies with
  | false => exact ⟨rfl, _, rfl, rfl⟩
  | true =>
      cases task.spec with
      | none => exact ⟨rfl, _, rfl, rfl⟩
      | some spec =>
          apply meets_call
          · exact ⟨_, world, rfl, rfl⟩
          · intro reply after answered
            obtain ⟨replied, rfl⟩ := answered
            exact ⟨rfl, _, replied, rfl⟩

omit [Unicode] in
theorem permitted_iff :
    Permitted worker plant task ↔
      ∀ policy, (if worker.policies then task.spec.bind fun spec => plant.policies spec.repoUrl
        else none) = some policy → policy.enabled = true := by
  unfold Permitted
  cases worker.policies <;> cases task.spec <;> simp

theorem guard_policy_calm (stored : world.board task.id = some task)
    (queued : task.state = .queued) :
    Guards (worker.guardPolicy task) plant world task.id (Permitted worker plant task) := by
  apply (policy_for_consults task).seq
  intro after found board told
  have stored : after.board task.id = some task := by rw [board]; exact stored
  rw [permitted_iff, ← told]
  cases found with
  | none => exact .inl ⟨rfl, by simp, board⟩
  | some policy =>
      by_cases enabled : policy.enabled = true
      · simp only [enabled, if_true]
        exact .inl ⟨rfl, by simpa using enabled, board⟩
      · rw [Bool.not_eq_true] at enabled
        simp only [enabled]
        apply (fail_calm stored queued).seq
        · intro last moved both
          apply (emit_consults _ _ _ _).seq
          intro ended _ kept _
          refine .inr ⟨⟨_, rfl, rfl⟩, (by simp [enabled]), ?_⟩
          rw [kept, ← board]
          exact both.2
        · intro last error both
          obtain ⟨⟨_, never⟩, _⟩ := both
          cases never

theorem guards_calm (stored : world.board task.id = some task) (queued : task.state = .queued) :
    Calmly (do worker.guardAttempts task; worker.guardPolicy task; .ret true) plant world
      fun after outcome =>
        (outcome = .ok true ∧ (task.attempts < worker.maxAttempts ∧ Permitted worker plant task) ∧
            after.board = world.board) ∨
          ((∃ error, outcome = .error error ∧ error.isTaskWorkerError = true) ∧
            ¬(task.attempts < worker.maxAttempts ∧ Permitted worker plant task) ∧
            Spares task.id world.board after.board) := by
  apply (guard_attempts_calm stored queued).seq
  · intro after _ guarded
    rcases guarded with ⟨_, few, board⟩ | ⟨⟨_, never, _⟩, _⟩
    · have stored : after.board task.id = some task := by rw [board]; exact stored
      apply (guard_policy_calm stored queued).seq
      · intro last _ guarded
        rcases guarded with ⟨_, permitted, kept⟩ | ⟨⟨_, never, _⟩, _⟩
        · exact .inl ⟨rfl, ⟨few, permitted⟩, kept.trans board⟩
        · cases never
      · intro last error guarded
        rcases guarded with ⟨never, _⟩ | ⟨⟨other, same, caught⟩, denied, spares⟩
        · cases never
        · obtain rfl := Except.error.inj same
          exact .inr ⟨⟨_, rfl, caught⟩, fun both => denied both.2, board ▸ spares⟩
    · cases never
  · intro after error guarded
    rcases guarded with ⟨never, _⟩ | ⟨⟨other, same, caught⟩, many, spares⟩
    · cases never
    · obtain rfl := Except.error.inj same
      exact .inr ⟨⟨_, rfl, caught⟩, fun both => many both.1, spares⟩

theorem runnable_calm (stored : world.board task.id = some task) (queued : task.state = .queued) :
    Decides (worker.runnable task) plant world task.id
      (task.attempts < worker.maxAttempts ∧ Permitted worker plant task) := by
  unfold TaskWorker.runnable exceptWhere Decides Calmly
  rw [meets_catch]
  apply Meets.post (guards_calm stored queued)
  intro after outcome guarded
  rcases guarded with ⟨rfl, holds, board⟩ | ⟨⟨error, rfl, caught⟩, fails, spares⟩
  · exact .inl ⟨rfl, holds, board⟩
  · rw [handled_error, if_pos caught]
    exact Or.inr ⟨rfl, fails, spares⟩

/-- What `run_next` does with a task before it claims it, if it does. -/
def passes (worker : TaskWorker) (task : Task) : Code Bool := do
  let status ← dependencyStatus task
  match status.state with
  | .failed => do
      let _ ← Queue.transition task .failed
      emit worker.events task.id "task.dependency_failed"
        [("failed_on".toList, .texts status.failedOn)]
      .ret false
  | .blocked => do
      emit worker.events task.id "task.blocked" [("blocked_on".toList, .texts status.blockedOn)]
      .ret false
  | .ready => worker.runnable task

theorem passes_calm (stored : world.board task.id = some task) (queued : task.state = .queued) :
    Decides (passes worker task) plant world task.id (Ready worker plant world.board task) := by
  have ready_iff : Ready worker plant world.board task ↔ DependenciesDone world.board task ∧
      task.attempts < worker.maxAttempts ∧ Permitted worker plant task := by
    constructor
    · exact fun ready => ⟨ready.dependencies, ready.attempts, ready.permitted⟩
    · exact fun both => ⟨stored, queued, both.1, both.2.2, both.2.1⟩
  apply (dependency_status_consults task).seq
  intro after status board told
  have stored : after.board task.id = some task := by rw [board]; exact stored
  have unready : status.state ≠ .ready → ¬Ready worker plant world.board task := by
    intro other ready
    exact other (told.mpr ready.dependencies)
  cases state : status.state with
  | failed =>
      apply (fail_calm stored queued).seq
      · intro last moved both
        apply (emit_consults _ _ _ _).seq
        intro ended _ kept _
        refine .inr ⟨rfl, unready (by rw [state]; decide), ?_⟩
        rw [kept, ← board]
        exact both.2
      · intro last error both
        obtain ⟨⟨_, never⟩, _⟩ := both
        cases never
  | blocked =>
      apply (emit_consults _ _ _ _).seq
      intro ended _ kept _
      exact .inr ⟨rfl, unready (by rw [state]; decide), .of_eq (kept.trans board)⟩
  | ready =>
      apply Meets.post (runnable_calm stored queued)
      intro last outcome decided
      rw [ready_iff]
      have depends := told.mp state
      rcases decided with ⟨rfl, holds, kept⟩ | ⟨rfl, fails, spares⟩
      · exact .inl ⟨rfl, ⟨depends, holds⟩, kept.trans board⟩
      · exact .inr ⟨rfl, fun both => fails both.2, board ▸ spares⟩

end Guards

section Claimed

variable [Unicode] [Sha256]

omit [Unicode] [Sha256] in
theorem allowlist_splits_iff :
    AllowlistSplits worker plant task ↔
      ∀ policy, (if worker.policies then task.spec.bind fun spec => plant.policies spec.repoUrl
        else none) = some policy →
        policy.verifyAllow.isEmpty = true ∨ ∃ extra, policy.extraAllowed = .ok extra := by
  unfold AllowlistSplits
  cases worker.policies <;> cases task.spec <;> simp

omit [Unicode] [Sha256] in
theorem effective_calm (spec : TaskSpec) :
    Calmly (worker.effective task spec) plant world fun after outcome =>
      after.board = world.board ∧
        ((∃ shaped, outcome = .ok shaped) ↔ AllowlistSplits worker plant task) := by
  apply (policy_for_consults task).seq
  intro after found board told
  rw [allowlist_splits_iff, ← told]
  cases found with
  | none => exact ⟨board, by simp⟩
  | some policy =>
      by_cases plain : policy.verifyAllow.isEmpty = true
      · simp only [plain, if_true]
        exact ⟨board, by simp [List.isEmpty_iff.mp plain]⟩
      · have some : policy.verifyAllow ≠ [] := fun none => plain (List.isEmpty_iff.mpr none)
        rw [Bool.not_eq_true] at plain
        simp only [plain]
        cases split : policy.extraAllowed with
        | error error => exact ⟨board, by simp [some, split]⟩
        | ok extra => exact ⟨board, by simp [split]⟩

/-- Requests that do not start an execution. -/
def Unstarting : Request → Prop
  | .createWorktree _ _ _ _ => False
  | _ => True

theorem run_claimed_starts (stored : ∃ running, world.board task.id = some running)
    (splits : AllowlistSplits worker plant task) {trace : List (Exchange ports)}
    {outcome : Except Exn ExecutedTask} {final : World Q A}
    (execution : Exec plant.calm (worker.runClaimed task) world trace outcome final) :
    ∃ base reply, (⟨.createWorktree worker.executor.repoPath worker.executor.worktreesRoot
      (TaskExecutor.slug task) base, reply⟩ : Exchange ports) ∈ trace := by
  obtain ⟨reply, resolved, rest, ⟨⟨spec, rfl⟩, rfl⟩, rfl, later⟩ := execution
  have later : Exec plant.calm (worker.effective task spec >>= fun shaped =>
      worker.executor.execute task shaped.1 worker.recipient true shaped.2) resolved rest outcome
      final := later
  have shapes := @effective_calm _ _ plant worker resolved task spec
  rcases exec_bind later with ⟨error, raised, _⟩ | ⟨shaped, middle, first, second, returned,
      continued, rfl⟩
  · obtain ⟨_, never⟩ := (shapes.sound raised).2.mpr splits
    cases never
  · have board := (shapes.sound returned).1
    obtain ⟨found, read, tail, answered, rfl, executing⟩ := continued
    obtain ⟨rfl, kept⟩ := calm_get answered
    obtain ⟨running, located⟩ := stored
    rw [board, located] at executing
    have claimed := @emit_consults Q A plant read worker.executor.events task.id "task.claimed" []
    have executing : Exec plant.calm (worker.executor.executeRunning task running shaped.1
        worker.recipient shaped.2) read tail outcome final := executing
    unfold TaskExecutor.executeRunning at executing
    rcases exec_bind executing with ⟨error, raised, _⟩ | ⟨_, started, emitted, remaining, _,
        creating, rfl⟩
    · obtain ⟨_, _, never, _⟩ := claimed.sound raised
      cases never
    · obtain ⟨worktree, _, _, _, rfl, _⟩ := creating
      refine ⟨shaped.1.baseBranch, worktree, ?_⟩
      simp

theorem run_claimed_stops (unsplit : ¬AllowlistSplits worker plant task) :
    Meets plant.calm (fun s request => Serves plant.calm s request ∧ Unstarting request)
      (worker.runClaimed task) world fun _ _ => True := by
  apply meets_call_bind
  · exact ⟨⟨.ok { repoUrl := [], instructions := [] }, world, ⟨_, rfl⟩, rfl⟩, trivial⟩
  · intro spec after answered
    have asks : Asks Unstarting (worker.effective task spec) :=
      (TaskWorker.asks_effective worker task spec).mono fun request looking => by
        cases request <;> trivial
    apply ((effective_calm spec).among asks).seq
    · intro last shaped both
      exact absurd (both.2.mp ⟨_, rfl⟩) unsplit
    · exact fun _ _ _ => trivial
  · exact fun _ _ _ => trivial

/-!
## The loops
-/

theorem run_first_cons (rest : List Task) :
    worker.runFirst (task :: rest) = passes worker task >>= fun fit =>
      if fit then Queue.claim task worker.lease >>= fun won =>
        if won then worker.runClaimed task else worker.runFirst rest
      else worker.runFirst rest := by
  have same : ∀ status : DependencyStatus, (match status.state with
      | .failed => (do
          let _ ← Queue.transition task .failed
          emit worker.events task.id "task.dependency_failed"
            [("failed_on".toList, .texts status.failedOn)]
          worker.runFirst rest : Code ExecutedTask)
      | .blocked => do
          emit worker.events task.id "task.blocked"
            [("blocked_on".toList, .texts status.blockedOn)]
          worker.runFirst rest
      | .ready => do
          if ← worker.runnable task then do
            if ← Queue.claim task worker.lease then worker.runClaimed task
            else worker.runFirst rest
          else worker.runFirst rest) =
      (match status.state with
      | .failed => (do
          let _ ← Queue.transition task .failed
          emit worker.events task.id "task.dependency_failed"
            [("failed_on".toList, .texts status.failedOn)]
          .ret false : Code Bool)
      | .blocked => do
          emit worker.events task.id "task.blocked" [("blocked_on".toList, .texts status.blockedOn)]
          .ret false
      | .ready => worker.runnable task) >>= fun fit =>
        if fit then Queue.claim task worker.lease >>= fun won =>
          if won then worker.runClaimed task else worker.runFirst rest
        else worker.runFirst rest := by
    intro status
    cases status.state with
    | failed => rw [bind_bind]; simp only [bind_bind, bind_ret]; rfl
    | blocked => rw [bind_bind]; simp only [bind_ret]; rfl
    | ready => rfl
  unfold passes
  rw [bind_bind]
  exact congrArg (dependencyStatus task >>= ·) (funext same)

/-- The tasks that are still to be looked at are stored as they were listed. -/
structure Listed (board : Board) (tasks : List Task) : Prop where
  stored : ∀ task ∈ tasks, board task.id = some task ∧ task.state = .queued
  distinct : (tasks.map Task.id).Nodup

omit [Unicode] [Sha256] in
theorem Listed.kept {board board' : Board} {rest : List Task}
    (listed : Listed board (task :: rest)) (spares : Spares task.id board board') :
    ∀ other ∈ rest, board' other.id = board other.id := by
  have distinct := listed.distinct
  rw [List.map_cons, List.nodup_cons] at distinct
  intro other member
  apply spares.others
  intro same
  exact distinct.1 (same ▸ List.mem_map_of_mem member)

omit [Unicode] [Sha256] in
theorem Listed.rest {board board' : Board} {rest : List Task}
    (listed : Listed board (task :: rest)) (spares : Spares task.id board board') :
    Listed board' rest := by
  constructor
  · intro other member
    rw [listed.kept spares other member]
    exact listed.stored other (List.mem_cons_of_mem _ member)
  · exact (List.nodup_cons.mp listed.distinct).2

omit [Unicode] [Sha256] in
theorem Spares.dependencies {board board' : Board} {id : Str} (spares : Spares id board board')
    (other : Task) : DependenciesDone board' other ↔ DependenciesDone board other := by
  unfold DependenciesDone
  simp only [spares.done]

omit [Unicode] [Sha256] in
theorem Listed.ready {board board' : Board} {rest : List Task}
    (listed : Listed board (task :: rest)) (spares : Spares task.id board board') :
    ∀ other ∈ rest, Ready worker plant board' other ↔ Ready worker plant board other := by
  intro other member
  have kept := listed.kept spares other member
  constructor
  · intro ready
    exact ⟨kept ▸ ready.stored, ready.queued, (spares.dependencies other).mp ready.dependencies,
      ready.permitted, ready.attempts⟩
  · intro ready
    exact ⟨kept ▸ ready.stored, ready.queued, (spares.dependencies other).mpr ready.dependencies,
      ready.permitted, ready.attempts⟩

/-- One of the tasks can run, and the first one of these has an allowlist that splits. -/
def LetsThrough (worker : TaskWorker) (plant : Plant) (board : Board) (tasks : List Task) : Prop :=
  ∃ ahead task behind, tasks = ahead ++ task :: behind ∧
    (∀ other ∈ ahead, ¬Ready worker plant board other) ∧ Ready worker plant board task ∧
    AllowlistSplits worker plant task

omit [Unicode] [Sha256] in
theorem lets_through_ready {board : Board} {rest : List Task}
    (ready : Ready worker plant board task) :
    LetsThrough worker plant board (task :: rest) ↔ AllowlistSplits worker plant task := by
  constructor
  · intro lets
    obtain ⟨ahead, other, behind, shape, unready, _, splits⟩ := lets
    cases ahead with
    | nil =>
        obtain ⟨rfl, rfl⟩ := List.cons.inj shape
        exact splits
    | cons first more =>
        obtain ⟨rfl, rfl⟩ := List.cons.inj shape
        exact absurd ready (unready task List.mem_cons_self)
  · intro splits
    exact ⟨[], task, rest, rfl, by simp, ready, splits⟩

omit [Unicode] [Sha256] in
theorem lets_through_unready {board board' : Board} {rest : List Task}
    (unready : ¬Ready worker plant board task)
    (same : ∀ other ∈ rest, Ready worker plant board' other ↔ Ready worker plant board other) :
    LetsThrough worker plant board (task :: rest) ↔ LetsThrough worker plant board' rest := by
  constructor
  · intro lets
    obtain ⟨ahead, other, behind, shape, passed, ready, splits⟩ := lets
    cases ahead with
    | nil =>
        obtain ⟨rfl, rfl⟩ := List.cons.inj shape
        exact absurd ready unready
    | cons first more =>
        obtain ⟨rfl, rfl⟩ := List.cons.inj shape
        refine ⟨more, other, behind, rfl, ?_, ?_, splits⟩
        · intro skipped member
          rw [same skipped (List.mem_append_left _ member)]
          exact passed skipped (List.mem_cons_of_mem _ member)
        · rw [same other (List.mem_append_right _ List.mem_cons_self)]
          exact ready
  · intro lets
    obtain ⟨ahead, other, behind, rfl, passed, ready, splits⟩ := lets
    refine ⟨task :: ahead, other, behind, rfl, ?_, ?_, splits⟩
    · intro skipped member
      cases List.mem_cons.mp member with
      | inl own => rw [own]; exact unready
      | inr among =>
          rw [← same skipped (List.mem_append_left _ among)]
          exact passed skipped among
    · rw [← same other (List.mem_append_right _ List.mem_cons_self)]
      exact ready

omit [Unicode] [Sha256] in
theorem claim_calm {lease : Duration} {reply : Except Exn Bool}
    (stored : world.board task.id = some task) (queued : task.state = .queued)
    (answered : plant.calm (.queue (.claim task lease)) world reply after) :
    reply = .ok true ∧ ∃ running, after.board task.id = some running := by
  have served : Served Q A (.queue (.claim task lease)) world reply after := answered
  obtain ⟨⟨now, spec⟩, _⟩ := served_spec served
  rcases spec with ⟨found, located, _, replied, board⟩ | ⟨unqueued, _⟩
  · refine ⟨replied, claimed (now + lease) found, ?_⟩
    obtain rfl := Option.some.inj (stored.symm.trans located)
    rw [board]
    exact board_put_self world.board (claimed (now + lease) task)
  · exact absurd queued (unqueued task stored)

theorem run_first_executes {tasks : List Task} (listed : Listed world.board tasks)
    (lets : LetsThrough worker plant world.board tasks) {trace : List (Exchange ports)}
    {outcome : Except Exn ExecutedTask} {final : World Q A}
    (execution : Exec plant.calm (worker.runFirst tasks) world trace outcome final) :
    ∃ task ∈ tasks, Ready worker plant world.board task ∧ Executes worker task trace := by
  induction tasks generalizing world trace with
  | nil =>
      obtain ⟨ahead, task, behind, shape, _⟩ := lets
      simp at shape
  | cons task rest ih =>
      obtain ⟨stored, queued⟩ := listed.stored task List.mem_cons_self
      have decides := @passes_calm Q A plant worker world task _ stored queued
      rw [run_first_cons] at execution
      rcases exec_bind execution with ⟨error, raised, _⟩ | ⟨fit, middle, first, second, returned,
          continued, rfl⟩
      · rcases decides.sound raised with ⟨never, _⟩ | ⟨never, _⟩ <;> cases never
      · rcases decides.sound returned with ⟨same, ready, board⟩ | ⟨same, unready, spares⟩
        · obtain rfl := Except.ok.inj same
          obtain ⟨reply, claimed, tail, answered, rfl, running⟩ := continued
          rw [← board] at stored
          obtain ⟨rfl, kept⟩ := claim_calm stored queued answered
          have running : Exec plant.calm (worker.runClaimed task) claimed tail outcome final := running
          refine ⟨task, List.mem_cons_self, ready, first, tail, rfl, ?_⟩
          exact run_claimed_starts kept ((lets_through_ready ready).mp lets) running
        · obtain rfl := Except.ok.inj same
          have left := listed.rest spares
          have alike := @Listed.ready plant worker task _ _ rest listed spares
          obtain ⟨other, member, ready, before, later, rfl, starts⟩ :=
            ih left ((lets_through_unready unready alike).mp lets) continued
          refine ⟨other, List.mem_cons_of_mem _ member, (alike other member).mp ready,
            first ++ before, later, ?_, starts⟩
          rw [List.append_assoc]

omit [Sha256] in
theorem asks_passes (task : Task) : Asks Unstarting (passes worker task) := by
  have guarding : ∀ request, TaskWorker.Guarding task request → Unstarting request := by
    intro request guards
    cases request <;> trivial
  apply asks_bind ((TaskWorker.guarding_of_looking task
    (TaskWorker.asks_dependencies task)).mono guarding)
  intro status
  cases status.state with
  | failed =>
      apply asks_bind (asks_call trivial)
      intro _
      exact asks_bind (asks_emit (fun _ _ _ => trivial) _ _ _ _) fun _ => trivial
  | blocked => exact asks_bind (asks_emit (fun _ _ _ => trivial) _ _ _ _) fun _ => trivial
  | ready => exact (TaskWorker.asks_runnable worker task).mono guarding

theorem run_first_stops {tasks : List Task} (listed : Listed world.board tasks)
    (stops : ¬LetsThrough worker plant world.board tasks) :
    Meets plant.calm (fun s request => Serves plant.calm s request ∧ Unstarting request)
      (worker.runFirst tasks) world fun _ _ => True := by
  induction tasks generalizing world with
  | nil => trivial
  | cons task rest ih =>
      obtain ⟨stored, queued⟩ := listed.stored task List.mem_cons_self
      rw [run_first_cons]
      apply ((passes_calm stored queued).among (asks_passes task)).seq
      · intro after fit decided
        rcases decided with ⟨same, ready, board⟩ | ⟨same, unready, spares⟩
        · obtain rfl := Except.ok.inj same
          rw [← board] at stored
          apply meets_call_bind
          · exact ⟨queue_serves _, trivial⟩
          · intro won last answered
            obtain ⟨replied, _⟩ := claim_calm stored queued answered
            obtain rfl := Except.ok.inj replied
            exact run_claimed_stops fun splits => stops ((lets_through_ready ready).mpr splits)
          · exact fun _ _ _ => trivial
        · obtain rfl := Except.ok.inj same
          have left := listed.rest spares
          have alike := @Listed.ready plant worker task _ _ rest listed spares
          apply ih left
          intro lets
          exact stops ((lets_through_unready unready alike).mpr lets)
      · exact fun _ _ _ => trivial

end Claimed

section Dispatched

variable {dispatcher : TaskDispatcher}

theorem dispatch_all_step {first : Task} {rest : List Task}
    (listed : Listed world.board (first :: rest)) {trace : List (Exchange ports)}
    {outcome : Except Exn (List Str)} {final : World Q A}
    (execution : Exec plant.calm (dispatcher.dispatchAll (first :: rest)) world trace outcome final) :
    ∃ middle front later ended, trace = front ++ later ∧
      Spares first.id world.board middle.board ∧
      Exec plant.calm (dispatcher.dispatchAll rest) middle later ended final ∧
      (DependenciesDone world.board first → Launches dispatcher first front) ∧
      ((statusOn world.board first).state = .failed → Fails first front) := by
  obtain ⟨stored, queued⟩ := listed.stored first List.mem_cons_self
  have waiting : TaskDispatcher.alreadyRunning first = false := by
    simp [TaskDispatcher.alreadyRunning, queued]
  have statuses := @dependency_status_reports Q A plant world first
  unfold TaskDispatcher.dispatchAll at execution
  rw [waiting] at execution
  rcases exec_bind execution with ⟨error, raised, _⟩ | ⟨status, middle, before, later, returned,
      continued, rfl⟩
  · obtain ⟨_, _, never, _⟩ := statuses.sound raised
    cases never
  · obtain ⟨board, other, same, rfl⟩ := statuses.sound returned
    obtain rfl := Except.ok.inj same
    have stored : middle.board first.id = some first := by rw [board]; exact stored
    rw [← status_ready_iff]
    cases state : (statusOn world.board first).state with
    | failed =>
        rw [state] at continued
        have fails := @fail_calm Q A plant middle first stored queued
        rcases exec_bind continued with ⟨error, raised, _⟩ | ⟨moved, failed, second, last, came,
            ending, rfl⟩
        · obtain ⟨⟨_, never⟩, _⟩ := fails.sound raised
          cases never
        · have spares := (fails.sound came).2
          rw [board] at spares
          obtain ⟨rfl, _⟩ := exec_call came
          exact ⟨failed, _, last, outcome, (List.append_assoc ..).symm, spares, ending,
            fun never => Readiness.noConfusion never,
            fun _ => ⟨moved, List.mem_append_right _ (List.mem_singleton_self _)⟩⟩
    | blocked =>
        rw [state] at continued
        exact ⟨middle, before, later, outcome, rfl, .of_eq board, continued,
          fun never => Readiness.noConfusion never, fun never => Readiness.noConfusion never⟩
    | ready =>
        rw [state] at continued
        obtain ⟨rendered, drawn, tail, ⟨⟨job, rfl⟩, rfl⟩, rfl, continued⟩ := continued
        obtain ⟨launched, up, last, ⟨rfl, rfl⟩, rfl, continued⟩ := continued
        have continued : Exec plant.calm (dispatcher.dispatchAll rest >>= fun created =>
            .ret (first.id :: created)) _ last outcome final := continued
        obtain ⟨ended, continued, _⟩ := (exec_map _).mp continued
        refine ⟨_, before ++ [⟨.renderJob dispatcher.template first, .ok job⟩,
          ⟨.launchJob job, .ok ()⟩], last, ended, ?_, .of_eq board, continued, ?_, ?_⟩
        · rw [List.append_assoc]
          rfl
        · exact fun _ => ⟨job, before, [], rfl⟩
        · exact fun never => Readiness.noConfusion never

theorem dispatch_all_reaches {tasks : List Task} (listed : Listed world.board tasks)
    {trace : List (Exchange ports)} {outcome : Except Exn (List Str)} {final : World Q A}
    (execution : Exec plant.calm (dispatcher.dispatchAll tasks) world trace outcome final) :
    ∀ task ∈ tasks, DependenciesDone world.board task → Launches dispatcher task trace := by
  induction tasks generalizing world trace outcome with
  | nil => simp
  | cons first rest ih =>
      obtain ⟨middle, front, later, ended, rfl, spares, continued, launches, _⟩ :=
        dispatch_all_step listed execution
      intro task member depends
      cases List.mem_cons.mp member with
      | inl own =>
          subst own
          obtain ⟨job, before, after, rfl⟩ := launches depends
          exact ⟨job, before, after ++ later, by simp⟩
      | inr among =>
          obtain ⟨job, before, after, rfl⟩ := ih (listed.rest spares) continued task among
            ((spares.dependencies task).mpr depends)
          exact ⟨job, front ++ before, after, by rw [List.append_assoc]⟩

def RendersAmong (tasks : List Task) : Request → Prop
  | .renderJob _ task => task ∈ tasks
  | _ => True

theorem asks_dispatch_all (tasks : List Task) :
    Asks (RendersAmong tasks) (dispatcher.dispatchAll tasks) := by
  induction tasks with
  | nil => trivial
  | cons task rest ih =>
      have later : Asks (RendersAmong (task :: rest)) (dispatcher.dispatchAll rest) :=
        ih.mono fun request among => by
          cases request <;> first | trivial | exact List.mem_cons_of_mem _ among
      have reading : Asks (RendersAmong (task :: rest)) (dependencyStatus task) :=
        (asks_dependency_status task).mono fun request reads => by
          cases request <;> trivial
      unfold TaskDispatcher.dispatchAll
      split_ifs
      · exact later
      · apply asks_bind reading
        intro status
        cases status.state with
        | failed => exact asks_bind (asks_call trivial) fun _ => later
        | blocked => exact later
        | ready =>
            have own : RendersAmong (task :: rest) (.renderJob dispatcher.template task) :=
              List.mem_cons_self
            apply asks_bind (asks_call own)
            intro job
            apply asks_bind (asks_call trivial)
            intro _
            exact asks_bind later fun _ => trivial

theorem dispatch_all_ends {tasks : List Task} (listed : Listed world.board tasks) :
    Calmly (dispatcher.dispatchAll tasks) plant world fun _ outcome =>
      ∃ created, outcome = .ok created := by
  induction tasks generalizing world with
  | nil => exact ⟨[], rfl⟩
  | cons task rest ih =>
      obtain ⟨stored, queued⟩ := listed.stored task List.mem_cons_self
      have waiting : TaskDispatcher.alreadyRunning task = false := by
        simp [TaskDispatcher.alreadyRunning, queued]
      have goes : ∀ after : World Q A, Spares task.id world.board after.board →
          Calmly (dispatcher.dispatchAll rest) plant after fun _ outcome =>
            ∃ created, outcome = .ok created := fun after spares => ih (listed.rest spares)
      unfold TaskDispatcher.dispatchAll
      rw [waiting]
      apply (dependency_status_consults task).seq
      intro after status board _
      have stored : after.board task.id = some task := by rw [board]; exact stored
      cases status.state with
      | failed =>
          apply (fail_calm stored queued).seq
          · exact fun last _ both => goes last (board ▸ both.2)
          · intro last error both
            obtain ⟨⟨_, never⟩, _⟩ := both
            cases never
      | blocked => exact goes after (.of_eq board)
      | ready =>
          apply meets_call_bind
          · exact ⟨.ok [], after, ⟨_, rfl⟩, rfl⟩
          · intro job drawn answered
            obtain ⟨_, rfl⟩ := answered
            apply meets_call_bind
            · exact ⟨.ok (), drawn, rfl, rfl⟩
            · intro _ up answered
              obtain ⟨_, rfl⟩ := answered
              apply (goes up (.of_eq board)).seq
              · exact fun _ created _ => ⟨_, rfl⟩
              · intro _ _ ended
                obtain ⟨_, never⟩ := ended
                cases never
            · intro error up answered
              cases answered.1
          · intro error drawn answered
            obtain ⟨⟨_, never⟩, _⟩ := answered
            cases never

end Dispatched

end Calm

/-!
## One sweep and one run of the worker
-/

section Sweeping

variable {Q : PagingQueue} {A : ApprovalBackend} {plant : Plant} {worker : TaskWorker}
  {dispatcher : TaskDispatcher} {world : World Q.toQueueBackend A}

/-- Every sweep launches a job for a task that can run. -/
def DispatchesReady (dispatcher : TaskDispatcher) (worker : TaskWorker) (plant : Plant)
    (world : World Q.toQueueBackend A) : Prop :=
  ∀ trace outcome final,
    Exec plant.calm dispatcher.dispatchOnce world trace outcome final →
      ∃ task, Ready worker plant world.board task ∧ Launches dispatcher task trace

/-- Every run of the worker executes a task that can run. -/
def RunsReady [Unicode] [Sha256] (worker : TaskWorker) (plant : Plant)
    (world : World Q.toQueueBackend A) : Prop :=
  ∀ trace outcome final,
    Exec plant.calm worker.runNext world trace outcome final →
      ∃ task, Ready worker plant world.board task ∧ Executes worker task trace

def Unexhausted (worker : TaskWorker) (plant : Plant) : Prop :=
  worker.events = false ∨ worker.budget.maxFailures ≤ 0 ∨ plant.failures < worker.budget.maxFailures

theorem list_calm {limit : Int} {reply : Except Exn (List Task)}
    {after : World Q.toQueueBackend A}
    (answered : plant.calm (.queue (.list .queued limit)) world reply after) :
    reply = Q.page world.queue limit ∧ after.board = world.board ∧
      ∀ tasks, reply = .ok tasks → Listed world.board tasks := by
  have served : Served Q.toQueueBackend A (.queue (.list .queued limit)) world reply after := answered
  obtain ⟨⟨_, kept, spec⟩, _⟩ := served_spec served
  obtain ⟨now, same, _⟩ := served
  have paged : reply = Q.page world.queue limit := same.trans (Q.lists limit now world.queue)
  refine ⟨paged, kept, fun tasks listed => ?_⟩
  constructor
  · rcases spec with ⟨page, replied, isPage⟩ | ⟨_, error, refused, _⟩
    · obtain rfl := Except.ok.inj (listed.symm.trans replied)
      exact isPage.stored
    · cases listed.symm.trans refused
  · exact Q.distinct world.queue limit tasks (paged.symm.trans listed)

/-- A page of the queue has a task that can run. -/
def PageHasReady (worker : TaskWorker) (plant : Plant) (world : World Q.toQueueBackend A)
    (limit : Int) : Prop :=
  ∃ tasks, Q.page world.queue limit = .ok tasks ∧ ∃ task ∈ tasks, Ready worker plant world.board task

theorem dispatches_ready_iff :
    DispatchesReady dispatcher worker plant world ↔
      PageHasReady worker plant world dispatcher.limit := by
  constructor
  · intro dispatches
    have ends : Calmly dispatcher.dispatchOnce plant world fun _ _ => True := by
      apply meets_call_bind (queue_serves _)
      · intro tasks after answered
        obtain ⟨_, board, listed⟩ := list_calm answered
        have listed : Listed after.board tasks := by rw [board]; exact listed tasks rfl
        exact (dispatch_all_ends listed).post fun _ _ _ => trivial
      · exact fun _ _ _ => trivial
    obtain ⟨trace, outcome, final, execution, _⟩ := ends.can_end
    obtain ⟨task, ready, job, before, after, shape⟩ := dispatches trace outcome final execution
    obtain ⟨reply, paged, rest, answered, rfl, later⟩ := execution
    obtain ⟨same, _, _⟩ := list_calm answered
    cases reply with
    | error error =>
        obtain ⟨rfl, _⟩ := later
        cases before with
        | nil => cases shape
        | cons first more => cases more <;> cases shape
    | ok tasks =>
        refine ⟨tasks, same.symm, task, ?_, ready⟩
        have member : (⟨.renderJob dispatcher.template task, .ok job⟩ : Exchange ports) ∈ rest := by
          cases before with
          | nil => cases shape
          | cons first more =>
              obtain ⟨_, rfl⟩ := List.cons.inj shape
              simp
        exact (asks_dispatch_all tasks).exchanged later _ member
  · intro pages trace outcome final execution
    obtain ⟨tasks, paged, task, member, ready⟩ := pages
    obtain ⟨reply, after, rest, answered, rfl, later⟩ := execution
    obtain ⟨same, board, listed⟩ := list_calm answered
    rw [paged] at same
    obtain rfl := same
    have listed : Listed after.board tasks := by rw [board]; exact listed tasks rfl
    have depends : DependenciesDone after.board task := by rw [board]; exact ready.dependencies
    obtain ⟨job, before, behind, rfl⟩ := dispatch_all_reaches listed later task member depends
    exact ⟨task, ready, job, _ :: before, behind, rfl⟩

section Running

variable [Unicode] [Sha256]

omit [Unicode] [Sha256] in
theorem guard_budget_calm (unexhausted : Unexhausted worker plant) (taskId : Str) :
    Calmly (worker.guardBudget taskId) plant world fun after outcome =>
      after = world ∧ outcome = .ok () := by
  unfold TaskWorker.guardBudget ErrorBudget.exhausted
  cases recorded : worker.events with
  | false => exact ⟨rfl, rfl⟩
  | true =>
      by_cases unbounded : worker.budget.maxFailures ≤ 0
      · simp only [Bool.not_true, unbounded, if_true]
        exact ⟨rfl, rfl⟩
      · have few : plant.failures < worker.budget.maxFailures := by
          rcases unexhausted with never | never | few
          · cases recorded.symm.trans never
          · exact absurd never unbounded
          · exact few
        simp only [Bool.not_true, Bool.false_eq_true, unbounded, if_false, bind_bind]
        apply meets_call_bind
        · exact ⟨.ok 0, world, ⟨0, rfl⟩, rfl⟩
        · intro now after answered
          obtain ⟨_, rfl⟩ := answered
          apply meets_call_bind
          · exact ⟨_, after, rfl, rfl⟩
          · intro failures last answered
            obtain ⟨counted, rfl⟩ := answered
            obtain rfl := Except.ok.inj counted
            have left : decide (plant.failures ≥ worker.budget.maxFailures) = false :=
              decide_eq_false (not_le.mpr few)
            simp only [left]
            exact ⟨rfl, rfl⟩
          · intro error last answered
            cases answered.1
        · intro error after answered
          obtain ⟨⟨_, never⟩, _⟩ := answered
          cases never

omit [Sha256] in
theorem asks_guard_budget_unstarting (taskId : Str) :
    Asks Unstarting (worker.guardBudget taskId) :=
  (TaskWorker.asks_guard_budget worker taskId).mono fun request looks => by
    cases request <;> trivial

/-- The worker executes a task that can run where its page has one, and where the
policy of the first of these can be applied. -/
theorem runs_ready_iff (unexhausted : Unexhausted worker plant) :
    RunsReady worker plant world ↔
      ∃ tasks, Q.page world.queue 100 = .ok tasks ∧
        LetsThrough worker plant world.board tasks := by
  have budget := @guard_budget_calm Q A plant worker world unexhausted "<dispatch>"
  constructor
  · intro runs
    by_contra stops
    have ends : Meets plant.calm (fun s request => Serves plant.calm s request ∧ Unstarting request)
        worker.runNext world fun _ _ => True := by
      apply (budget.among (asks_guard_budget_unstarting _)).seq
      · intro after _ both
        obtain ⟨rfl, _⟩ := both
        apply meets_call_bind ⟨queue_serves _, trivial⟩
        · intro tasks last answered
          obtain ⟨paged, board, listed⟩ := list_calm answered
          have listed : Listed last.board tasks := by rw [board]; exact listed tasks rfl
          apply run_first_stops listed
          rw [board]
          exact fun lets => stops ⟨tasks, paged.symm, lets⟩
        · exact fun _ _ _ => trivial
      · exact fun _ _ _ => trivial
    obtain ⟨trace, outcome, final, execution, _⟩ :=
      (ends.mono (fun _ _ both => both.1) fun _ _ _ => trivial).can_end
    obtain ⟨task, _, before, after, rfl, base, reply, member⟩ := runs trace outcome final execution
    obtain ⟨_, _, unstarting⟩ := ends.requested execution _
      (List.mem_append_right _ (List.mem_cons_of_mem _ member))
    exact unstarting
  · intro pages trace outcome final execution
    obtain ⟨tasks, paged, lets⟩ := pages
    rcases exec_bind execution with ⟨error, raised, _⟩ | ⟨_, middle, first, second, returned,
        continued, rfl⟩
    · cases (budget.sound raised).2
    · obtain ⟨rfl, _⟩ := budget.sound returned
      obtain ⟨reply, after, rest, answered, rfl, later⟩ := continued
      obtain ⟨same, board, listed⟩ := list_calm answered
      rw [paged] at same
      obtain rfl := same
      have listed : Listed after.board tasks := by rw [board]; exact listed tasks rfl
      have later : Exec plant.calm (worker.runFirst tasks) after rest outcome final := later
      rw [← board] at lets
      obtain ⟨task, _, ready, before, behind, rfl, starts⟩ := run_first_executes listed lets later
      rw [board] at ready
      refine ⟨task, ready, first ++ ⟨.queue (.list .queued 100), .ok tasks⟩ :: before, behind, ?_,
        starts⟩
      rw [List.append_assoc]
      rfl

theorem stuck_tasks_passed_iff (unexhausted : Unexhausted worker plant) :
    (DispatchesReady dispatcher worker plant world ∧ RunsReady worker plant world) ↔
      PageHasReady worker plant world dispatcher.limit ∧
        ∃ tasks, Q.page world.queue 100 = .ok tasks ∧
          LetsThrough worker plant world.board tasks :=
  and_congr dispatches_ready_iff (runs_ready_iff unexhausted)

end Running

end Sweeping

section Example

def holding (tasks : List Task) (ids : (tasks.map Task.id).Nodup)
    (transports : (tasks.map Task.transportId).Nodup) : MemoryQueue where
  tasks := ⟨tasks.map fun task => (task.id, task), by rw [List.map_map]; exact ids⟩
  byTransport := ⟨tasks.map fun task => (task.transportId, task.id), by
    rw [List.map_map]
    exact transports⟩

theorem holding_well_formed (tasks : List Task) (ids : (tasks.map Task.id).Nodup)
    (transports : (tasks.map Task.transportId).Nodup) :
    (holding tasks ids transports).WellFormed := by
  have stored : ∀ id task, (holding tasks ids transports).tasks.get id = some task ↔
      task ∈ tasks ∧ task.id = id := by
    intro id task
    rw [Dict.get_eq_some_iff]
    simp only [holding, List.mem_map, Prod.mk.injEq]
    constructor
    · rintro ⟨other, member, rfl, rfl⟩
      exact ⟨member, rfl⟩
    · exact fun both => ⟨task, both.1, both.2, rfl⟩
  constructor
  · exact fun id task found => ((stored id task).mp found).2
  · intro transportId id
    rw [Dict.get_eq_some_iff]
    simp only [holding, List.mem_map, Prod.mk.injEq]
    constructor
    · rintro ⟨task, member, own, rfl⟩
      exact ⟨task, (stored _ task).mpr ⟨member, rfl⟩, own⟩
    · rintro ⟨task, found, own⟩
      obtain ⟨member, same⟩ := (stored id task).mp found
      exact ⟨task, member, own, same⟩

def waitingTask (n : Nat) : Task where
  id := List.replicate n 'w'
  transportId := List.replicate n 'w'
  state := .queued
  createdAt := n
  spec := some { repoUrl := "acme/widget", instructions := "fix the build", dependsOn := ["missing"] }

def heldUpTasks (count : Nat) : List Task :=
  (List.range count).map waitingTask ++ [{ widgetTask with state := .queued, createdAt := count }]

theorem held_up_names {count : Nat} {name : Task → Str}
    (waiting : ∀ n, name (waitingTask n) = List.replicate n 'w')
    (widget : name { widgetTask with state := .queued, createdAt := count } = "m1") :
    ((heldUpTasks count).map name).Nodup := by
  have same : (heldUpTasks count).map name =
      (List.range count).map (fun n => List.replicate n 'w') ++ ["m1".toList] := by
    unfold heldUpTasks
    rw [List.map_append, List.map_map, List.map_singleton, widget]
    exact congrArg (· ++ _) (List.map_congr_left fun n _ => waiting n)
  rw [same]
  apply List.Nodup.append
  · apply List.Nodup.map _ List.nodup_range
    intro first second equal
    simpa using congrArg List.length equal
  · exact List.nodup_singleton _
  · intro id among own
    obtain ⟨n, _, rfl⟩ := List.mem_map.mp among
    rw [List.mem_singleton] at own
    have digit : '1' ∈ List.replicate n 'w' := by rw [own]; decide
    cases List.eq_of_mem_replicate digit

def heldUpQueue (count : Nat) : MemoryQueue :=
  holding (heldUpTasks count) (held_up_names (fun _ => rfl) rfl) (held_up_names (fun _ => rfl) rfl)

theorem held_up_sorted (count : Nat) :
    sortTasks ((heldUpQueue count).inState .queued) = heldUpTasks count := by
  have queued : (heldUpQueue count).inState .queued = heldUpTasks count := by
    have values : (heldUpQueue count).tasks.values = heldUpTasks count := by
      simp only [heldUpQueue, holding, Dict.values, List.map_map, Function.comp_def]
      exact List.map_id _
    unfold MemoryQueue.inState
    rw [values]
    apply List.filter_eq_self.mpr
    intro task member
    cases List.mem_append.mp member with
    | inl among =>
        obtain ⟨n, _, rfl⟩ := List.mem_map.mp among
        rfl
    | inr own =>
        rw [List.mem_singleton.mp own]
        rfl
  rw [queued]
  have older : ∀ first second : Task, first.createdAt < second.createdAt →
      sortedBefore first second := fun _ _ earlier => Prod.Lex.toLex_le_toLex.mpr (.inl earlier)
  apply List.Pairwise.insertionSort_eq
  apply List.pairwise_append.mpr
  refine ⟨?_, List.pairwise_singleton _ _, ?_⟩
  · apply List.pairwise_map.mpr
    apply List.pairwise_lt_range.imp
    intro first second earlier
    exact older _ _ (Int.ofNat_lt.mpr earlier)
  · intro task among last own
    obtain ⟨n, below, rfl⟩ := List.mem_map.mp among
    rw [List.mem_singleton.mp own]
    exact older _ _ (Int.ofNat_lt.mpr (List.mem_range.mp below))

def heldUpWorld (count : Nat) :
    World MemoryQueue.paging.toQueueBackend (MemoryApprovalStore.backend 0) where
  queue := ⟨heldUpQueue count, holding_well_formed _ _ _⟩
  approvals := ⟨Registry.empty, Registry.empty_well_formed⟩

def plainWorker : TaskWorker where
  executor := { repoPath := "/repo", worktreesRoot := "/worktrees" }
  repoPath := "/repo"

def plainPlant : Plant := { policies := fun _ => none }

theorem unexhausted_plain : Unexhausted plainWorker plainPlant := .inl rfl

def waits (task : Task) : Bool :=
  task.spec.any fun spec => spec.dependsOn.contains "missing".toList

theorem waits_unready {board : Board} {task : Task} (missing : board "missing" = none)
    (waiting : waits task = true) : ¬Ready plainWorker plainPlant board task := by
  intro ready
  unfold waits at waiting
  rw [Option.any_eq_true] at waiting
  obtain ⟨spec, found, listed⟩ := waiting
  have member : "missing".toList ∈ spec.dependsOn := by simpa using listed
  obtain ⟨other, stored, _⟩ := ready.dependencies spec found "missing" member
  rw [missing] at stored
  cases stored

theorem page_waits {count : Nat} {limit : Int} {tasks : List Task} (positive : 0 ≤ limit)
    (filled : limit ≤ count)
    (paged : MemoryQueue.paging.page (heldUpWorld count).queue limit = .ok tasks) :
    ∀ task ∈ tasks, ¬Ready plainWorker plainPlant (heldUpWorld count).board task := by
  have listed : tasks = ((List.range count).map waitingTask).take limit.toNat := by
    obtain rfl := Except.ok.inj paged
    change (heldUpQueue count).list .queued limit = _
    unfold MemoryQueue.list sliceTo
    rw [held_up_sorted, if_pos positive, heldUpTasks, List.take_append_of_le_length]
    rw [List.length_map, List.length_range]
    omega
  have missing : (heldUpWorld count).board "missing" = none := by
    cases found : (heldUpWorld count).board "missing" with
    | none => rfl
    | some task =>
        have member := (Dict.get_eq_some_iff _ _ _).mp found
        obtain ⟨other, among, same⟩ := List.mem_map.mp member
        have named : other.id = "missing".toList := congrArg Prod.fst same
        cases List.mem_append.mp among with
        | inl waiting =>
            obtain ⟨n, _, rfl⟩ := List.mem_map.mp waiting
            have letter : 'm' ∈ List.replicate n 'w' := by
              change 'm' ∈ (waitingTask n).id
              rw [named]
              decide
            cases List.eq_of_mem_replicate letter
        | inr own =>
            rw [List.mem_singleton.mp own] at named
            cases named
  intro task member
  rw [listed] at member
  obtain ⟨n, _, rfl⟩ := List.mem_map.mp (List.mem_of_mem_take member)
  exact waits_unready missing rfl

theorem widget_can_run (count : Nat) :
    ∃ task, Ready plainWorker plainPlant (heldUpWorld count).board task := by
  refine ⟨{ widgetTask with state := .queued, createdAt := count }, ?_, rfl, ?_, ?_,
    (by decide : ((0 : Nat) : Int) < 3)⟩
  · apply (Dict.get_eq_some_iff _ _ _).mpr
    apply List.mem_map.mpr
    exact ⟨_, List.mem_append_right _ (List.mem_singleton_self _), rfl⟩
  · intro spec found id member
    obtain rfl := Option.some.inj found
    cases member
  · intro never
    cases never

/-- Behind a hundred waiting tasks neither a sweep nor the worker comes to the one
that can run. -/
theorem waiting_tasks_hold_up :
    let _ := asciiTables
    let _ := widgetSha256
    (∃ task, Ready plainWorker plainPlant (heldUpWorld 100).board task) ∧
      Unexhausted plainWorker plainPlant ∧
      ¬DispatchesReady { template := [] } plainWorker plainPlant (heldUpWorld 100) ∧
      ¬RunsReady plainWorker plainPlant (heldUpWorld 100) := by
  let _ := asciiTables
  let _ := widgetSha256
  refine ⟨widget_can_run 100, unexhausted_plain, ?_, ?_⟩
  · rw [dispatches_ready_iff]
    intro pages
    obtain ⟨tasks, paged, task, member, ready⟩ := pages
    exact page_waits (by decide) (by decide) paged task member ready
  · rw [runs_ready_iff unexhausted_plain]
    intro pages
    obtain ⟨tasks, paged, ahead, task, behind, rfl, _, ready, _⟩ := pages
    exact page_waits (by decide) (by decide) paged task (by simp) ready

theorem widget_passed_iff :
    let _ := asciiTables
    let _ := widgetSha256
    (DispatchesReady { template := [] } plainWorker plainPlant (heldUpWorld 5) ∧
        RunsReady plainWorker plainPlant (heldUpWorld 5)) ↔
      PageHasReady plainWorker plainPlant (heldUpWorld 5) 20 ∧
        ∃ tasks, MemoryQueue.paging.page (heldUpWorld 5).queue 100 = .ok tasks ∧
          LetsThrough plainWorker plainPlant (heldUpWorld 5).board tasks := by
  let _ := asciiTables
  let _ := widgetSha256
  have same := @stuck_tasks_passed_iff MemoryQueue.paging (MemoryApprovalStore.backend 0) plainPlant
    plainWorker { template := [] } (heldUpWorld 5) _ _ unexhausted_plain
  exact same

end Example

end Work

end DearAgent
