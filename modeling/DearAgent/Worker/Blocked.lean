import DearAgent.Worker.Progress

/-!
# Tasks whose dependencies have ended

`dependency_status` knows two of the three terminal states that are not `done`. A task that
depends on one in the third of them waits for it, and neither a sweep nor a worker fails it.
-/

namespace DearAgent.Work

open DearAgent.Lib.Text DearAgent.Lib.Effects DearAgent.Lib.Dictionaries DearAgent.Queue

set_option autoImplicit false

/-- A dependency that is in a terminal state and not done. -/
def EndedUndone (board : Board) (id : Str) : Prop :=
  ∃ dependency, board id = some dependency ∧ dependency.state.terminal = true ∧
    dependency.state ≠ .done

/-- No dependency is approved, unless another one is failed or rejected. -/
def ApprovedAccompanied (board : Board) (task : Task) : Prop :=
  ∀ id ∈ dependencies task, (board id).map Task.state = some .approved →
    ∃ other ∈ dependencies task, (board other).map Task.state = some .failed ∨
      (board other).map Task.state = some .rejected

section Boards

variable {board board' : Board} {task : Task} {id : Str}

theorem ended_undone_iff :
    EndedUndone board id ↔ sunk board id = true ∨ (board id).map Task.state = some .approved := by
  unfold EndedUndone sunk
  cases board id with
  | none => simp
  | some dependency =>
      simp only [Option.some.injEq, exists_eq_left', Option.map_some]
      cases dependency.state <;> simp [TaskState.terminal]

theorem sunk_iff :
    sunk board id = true ↔ (board id).map Task.state = some .failed ∨
      (board id).map Task.state = some .rejected := by
  unfold sunk
  cases (board id).map Task.state with
  | none => simp
  | some state => cases state <;> simp

theorem status_failed_iff :
    (statusOn board task).state = .failed ↔ ∃ id ∈ dependencies task, sunk board id = true := by
  have some_sunk : (dependencies task).filter (sunk board) ≠ [] ↔
      ∃ id ∈ dependencies task, sunk board id = true := by
    rw [ne_eq, List.filter_eq_nil_iff]
    push Not
    rfl
  rw [← some_sunk, statusOn]
  split_ifs with failed blocked
  · exact iff_of_true rfl failed
  · exact iff_of_false not_false failed
  · exact iff_of_false not_false failed

/-- A dependency has ended without being done exactly if one is failed or rejected, where
the approved ones are accompanied. -/
theorem ended_iff_sunk (accompanied : ApprovedAccompanied board task) :
    (∃ id ∈ dependencies task, EndedUndone board id) ↔
      ∃ id ∈ dependencies task, sunk board id = true := by
  constructor
  · intro ended
    obtain ⟨id, member, ended⟩ := ended
    rcases ended_undone_iff.mp ended with is_sunk | approved
    · exact ⟨id, member, is_sunk⟩
    · obtain ⟨other, among, states⟩ := accompanied id member approved
      exact ⟨other, among, sunk_iff.mpr states⟩
  · intro sunk_one
    obtain ⟨id, member, is_sunk⟩ := sunk_one
    exact ⟨id, member, ended_undone_iff.mpr (.inl is_sunk)⟩

theorem still_sunk {first : Task} (spares : Spares first.id board board')
    (stored : board first.id = some first) (queued : first.state = .queued)
    (some_sunk : ∃ id ∈ dependencies task, sunk board id = true) :
    ∃ id ∈ dependencies task, sunk board' id = true := by
  obtain ⟨id, member, is_sunk⟩ := some_sunk
  have other : id ≠ first.id := by
    intro same
    rw [sunk_iff, same, stored, Option.map_some, queued] at is_sunk
    rcases is_sunk with never | never <;> cases never
  refine ⟨id, member, ?_⟩
  rw [sunk_iff] at is_sunk ⊢
  rw [spares.others id other]
  exact is_sunk

end Boards

section Looking

variable {Q : QueueBackend} {A : ApprovalBackend} {plant : Plant} {worker : TaskWorker}
  {dispatcher : TaskDispatcher} {world : World Q A} {task : Task}

/-- The status of a task says what has become of its dependencies. -/
def Classified (plant : Plant) (world : World Q A) (task : Task) : Prop :=
  ∀ trace outcome final, Exec plant.calm (dependencyStatus task) world trace outcome final →
    ∃ status, outcome = .ok status ∧
      (status.state = .ready ↔ ∀ id ∈ dependencies task, Done world.board id) ∧
      (status.state = .failed ↔ ∃ id ∈ dependencies task, EndedUndone world.board id) ∧
      (status.state = .blocked ↔ (¬∀ id ∈ dependencies task, Done world.board id) ∧
        ¬∃ id ∈ dependencies task, EndedUndone world.board id)

theorem classified_iff :
    Classified plant world task ↔ ApprovedAccompanied world.board task := by
  have reported := @dependency_status_reports Q A plant world task
  constructor
  · intro classified id member approved
    obtain ⟨trace, outcome, final, execution, _, value, rfl, rfl⟩ := reported.can_end
    obtain ⟨status, same, _, failed, _⟩ := classified trace _ final execution
    obtain rfl := Except.ok.inj same
    have ended : ∃ id ∈ dependencies task, EndedUndone world.board id :=
      ⟨id, member, ended_undone_iff.mpr (.inr approved)⟩
    obtain ⟨other, among, is_sunk⟩ := status_failed_iff.mp (failed.mpr ended)
    exact ⟨other, among, sunk_iff.mp is_sunk⟩
  · intro accompanied trace outcome final execution
    obtain ⟨_, status, returned, rfl⟩ := reported.sound execution
    have ready := @status_ready_iff world.board task
    have failed := @status_failed_iff world.board task
    rw [dependencies_done_iff] at ready
    rw [← ended_iff_sunk accompanied] at failed
    refine ⟨_, returned, ready, failed, ?_⟩
    rw [← ready, ← failed]
    cases (statusOn world.board task).state <;> simp

theorem dispatch_all_fails {tasks : List Task} (listed : Listed world.board tasks)
    (some_sunk : ∃ id ∈ dependencies task, sunk world.board id = true) (member : task ∈ tasks)
    {trace : List (Exchange ports)} {outcome : Except Exn (List Str)} {final : World Q A}
    (execution : Exec plant.calm (dispatcher.dispatchAll tasks) world trace outcome final) :
    Fails task trace := by
  induction tasks generalizing world trace outcome with
  | nil => exact absurd member List.not_mem_nil
  | cons first rest ih =>
      obtain ⟨stored, queued⟩ := listed.stored first List.mem_cons_self
      obtain ⟨middle, front, later, ended, rfl, spares, continued, _, fails⟩ :=
        dispatch_all_step listed execution
      cases List.mem_cons.mp member with
      | inl own =>
          subst own
          obtain ⟨moved, asked⟩ := fails (status_failed_iff.mpr some_sunk)
          exact ⟨moved, List.mem_append_left _ asked⟩
      | inr among =>
          obtain ⟨moved, asked⟩ := ih (listed.rest spares) (still_sunk spares stored queued some_sunk)
            among continued
          exact ⟨moved, List.mem_append_right _ asked⟩

section Running

variable [Unicode]

theorem passes_fails (stored : world.board task.id = some task) (queued : task.state = .queued)
    (some_sunk : ∃ id ∈ dependencies task, sunk world.board id = true)
    {trace : List (Exchange ports)} {outcome : Except Exn Bool} {final : World Q A}
    (execution : Exec plant.calm (passes worker task) world trace outcome final) :
    Fails task trace := by
  have statuses := @dependency_status_reports Q A plant world task
  rcases exec_bind execution with ⟨error, raised, _⟩ | ⟨status, middle, before, later, returned,
      continued, rfl⟩
  · obtain ⟨_, _, never, _⟩ := statuses.sound raised
    cases never
  · obtain ⟨board, other, same, rfl⟩ := statuses.sound returned
    obtain rfl := Except.ok.inj same
    rw [status_failed_iff.mpr some_sunk] at continued
    have stored : middle.board task.id = some task := by rw [board]; exact stored
    have fails := @fail_calm Q A plant middle task stored queued
    rcases exec_bind continued with ⟨error, raised, _⟩ | ⟨moved, failed, second, last, came, _, rfl⟩
    · obtain ⟨⟨_, never⟩, _⟩ := fails.sound raised
      cases never
    · obtain ⟨rfl, _⟩ := exec_call came
      exact ⟨moved, List.mem_append_right _ (List.mem_append_left _ (List.mem_singleton_self _))⟩

variable [Sha256]

theorem run_first_fails {ahead behind : List Task}
    (listed : Listed world.board (ahead ++ task :: behind))
    (unready : ∀ other ∈ ahead, ¬Ready worker plant world.board other)
    (some_sunk : ∃ id ∈ dependencies task, sunk world.board id = true)
    {trace : List (Exchange ports)} {outcome : Except Exn ExecutedTask} {final : World Q A}
    (execution : Exec plant.calm (worker.runFirst (ahead ++ task :: behind)) world trace outcome
      final) :
    Fails task trace := by
  induction ahead generalizing world trace with
  | nil =>
      obtain ⟨stored, queued⟩ := listed.stored task List.mem_cons_self
      rw [List.nil_append, run_first_cons] at execution
      rcases exec_bind execution with ⟨error, raised, _⟩ | ⟨fit, middle, first, second, returned,
          _, rfl⟩
      · exact passes_fails stored queued some_sunk raised
      · obtain ⟨moved, asked⟩ := passes_fails stored queued some_sunk returned
        exact ⟨moved, List.mem_append_left _ asked⟩
  | cons first rest ih =>
      rw [List.cons_append] at listed execution
      obtain ⟨stored, queued⟩ := listed.stored first List.mem_cons_self
      have decides := @passes_calm Q A plant worker world first _ stored queued
      rw [run_first_cons] at execution
      rcases exec_bind execution with ⟨error, raised, _⟩ | ⟨fit, middle, front, second, returned,
          continued, rfl⟩
      · rcases decides.sound raised with ⟨never, _⟩ | ⟨never, _⟩ <;> cases never
      · rcases decides.sound returned with ⟨_, ready, _⟩ | ⟨same, _, spares⟩
        · exact absurd ready (unready first List.mem_cons_self)
        · obtain rfl := Except.ok.inj same
          have alike := @Listed.ready plant worker first _ _ _ listed spares
          have later : ∀ other ∈ rest, ¬Ready worker plant middle.board other := by
            intro other member
            rw [alike other (List.mem_append_left _ member)]
            exact unready other (List.mem_cons_of_mem _ member)
          obtain ⟨moved, asked⟩ := ih (listed.rest spares) later
            (still_sunk spares stored queued some_sunk) continued
          exact ⟨moved, List.mem_append_right _ asked⟩

end Running

end Looking

section Sweeping

variable {Q : PagingQueue} {A : ApprovalBackend} {plant : Plant}
  {world : World Q.toQueueBackend A} {task : Task}

/-- Every sweep that has the task on its page fails it. -/
def DispatchFails (plant : Plant) (world : World Q.toQueueBackend A) (task : Task) : Prop :=
  ∀ (dispatcher : TaskDispatcher) tasks, Q.page world.queue dispatcher.limit = .ok tasks →
    task ∈ tasks → ∀ trace outcome final,
      Exec plant.calm dispatcher.dispatchOnce world trace outcome final → Fails task trace

variable [Unicode] [Sha256]

/-- Every run of a worker that gets to the task, since nothing before it can run, fails it. -/
def WorkerFails (plant : Plant) (world : World Q.toQueueBackend A) (task : Task) : Prop :=
  ∀ worker : TaskWorker, Unexhausted worker plant → ∀ ahead behind,
    Q.page world.queue 100 = .ok (ahead ++ task :: behind) →
    (∀ other ∈ ahead, ¬Ready worker plant world.board other) → ∀ trace outcome final,
      Exec plant.calm worker.runNext world trace outcome final → Fails task trace

/-- The status of a task is the one of its dependencies, and where one of them ended
without being done, whoever looks at the task next fails it. -/
structure BlockedMeansNotYet (plant : Plant) (world : World Q.toQueueBackend A) (task : Task) :
    Prop where
  classified : Classified plant world task
  dispatch : (∃ id ∈ dependencies task, EndedUndone world.board id) →
    DispatchFails plant world task
  worker : (∃ id ∈ dependencies task, EndedUndone world.board id) → WorkerFails plant world task

omit [Unicode] [Sha256] in
theorem dispatch_fails (some_sunk : ∃ id ∈ dependencies task, sunk world.board id = true) :
    DispatchFails plant world task := by
  intro dispatcher tasks paged member trace outcome final execution
  obtain ⟨reply, after, rest, answered, rfl, later⟩ := execution
  obtain ⟨same, board, listed⟩ := list_calm answered
  rw [paged] at same
  obtain rfl := same
  have listed : Listed after.board tasks := by rw [board]; exact listed tasks rfl
  rw [← board] at some_sunk
  obtain ⟨moved, asked⟩ := dispatch_all_fails listed some_sunk member later
  exact ⟨moved, List.mem_cons_of_mem _ asked⟩

theorem worker_fails (some_sunk : ∃ id ∈ dependencies task, sunk world.board id = true) :
    WorkerFails plant world task := by
  intro worker unexhausted ahead behind paged unready trace outcome final execution
  have budget := @guard_budget_calm Q A plant worker world unexhausted "<dispatch>"
  rcases exec_bind execution with ⟨error, raised, _⟩ | ⟨_, middle, first, second, returned,
      continued, rfl⟩
  · cases (budget.sound raised).2
  · obtain ⟨rfl, _⟩ := budget.sound returned
    obtain ⟨reply, after, rest, answered, rfl, later⟩ := continued
    obtain ⟨same, board, listed⟩ := list_calm answered
    rw [paged] at same
    obtain rfl := same
    have listed : Listed after.board (ahead ++ task :: behind) := by rw [board]; exact listed _ rfl
    rw [← board] at some_sunk unready
    obtain ⟨moved, asked⟩ := run_first_fails listed unready some_sunk later
    exact ⟨moved, List.mem_append_right _ (List.mem_cons_of_mem _ asked)⟩

/-- A blocked task may still become ready, and one that cannot is failed by who looks at
it, exactly if no dependency is approved without another one that is failed or rejected. -/
theorem blocked_means_not_yet_iff (plant : Plant) (world : World Q.toQueueBackend A) (task : Task) :
    BlockedMeansNotYet plant world task ↔ ApprovedAccompanied world.board task := by
  constructor
  · intro not_yet
    exact classified_iff.mp not_yet.classified
  · intro accompanied
    constructor
    · exact classified_iff.mpr accompanied
    · exact fun ended => dispatch_fails ((ended_iff_sunk accompanied).mp ended)
    · exact fun ended => worker_fails ((ended_iff_sunk accompanied).mp ended)

end Sweeping

def landedTask : Task := { widgetTask with id := "landed", transportId := "landed", state := .approved }

def nextTask : Task where
  id := "next"
  transportId := "next"
  state := .queued
  createdAt := 1
  spec := some { repoUrl := "acme/widget", instructions := "go on", dependsOn := ["landed"] }

def approvedWorld : World MemoryQueue.paging.toQueueBackend (MemoryApprovalStore.backend 0) where
  queue := ⟨holding [landedTask, nextTask] (by decide) (by decide), holding_well_formed _ _ _⟩
  approvals := ⟨Registry.empty, Registry.empty_well_formed⟩

/-- The task that waits for the approved one is told to be blocked. -/
theorem approved_blocks_next :
    (statusOn approvedWorld.board nextTask).state = .blocked ∧
      ¬@BlockedMeansNotYet MemoryQueue.paging (MemoryApprovalStore.backend 0) asciiTables
        widgetSha256 plainPlant approvedWorld nextTask := by
  have landed : (approvedWorld.board "landed").map Task.state = some .approved := by
    decide
  constructor
  · decide
  · intro not_yet
    obtain ⟨classified, _, _⟩ := not_yet
    have accompanied := classified_iff.mp classified
    obtain ⟨other, member, states⟩ := accompanied "landed" (List.mem_singleton_self _) landed
    obtain rfl := List.mem_singleton.mp member
    rw [landed] at states
    rcases states with never | never <;> cases never

end DearAgent.Work
