import DearAgent.System.Discipline
import DearAgent.Worker.Settling

/-!
# Terminal states

A task leaves a terminal state in one way only: an operation that runs tasks
moves a task on that it read in that state. A guard of `TaskWorker.run` does so
when it refuses a task that is finished already, and an executor when the task
was ended by somebody else between its claim and its reading it back.
-/

namespace DearAgent

open DearAgent.Lib.Text DearAgent.Lib.Effects DearAgent.Lib.Interleaving DearAgent.Queue

set_option autoImplicit false

/-- A turn that does not move a task on that its operation read in a terminal state. -/
def sparesTerminal (entry : Entry ports Operation) : Bool :=
  match entry.event.1 with
  | .queue (.transition task toState _) =>
      !(entry.operation.works && task.state.terminal && decide (toState ≠ task.state))
  | _ => true

theorem spared {entry : Entry ports Operation} {task : Task} {toState : TaskState}
    {evidence : Option Evidence} (spares : sparesTerminal entry = true)
    (asked : entry.event.1 = .queue (.transition task toState evidence))
    (works : entry.operation.works = true) (terminal : task.state.terminal = true) :
    toState = task.state := by
  unfold sparesTerminal at spares
  rw [asked] at spares
  simpa [works, terminal] using spares

theorem move_spares {operation : Operation} {own : Own} {task : Task} {toState : TaskState}
    (move : Moves operation own task toState)
    (spares : operation.works = true → task.state.terminal = true → toState = task.state)
    (terminal : task.state.terminal = true) : toState = task.state := by
  cases move with
  | decided _ reply approval redeemed awaiting =>
      rw [awaiting] at terminal
      cases terminal
  | unrunnable queued =>
      rw [queued] at terminal
      cases terminal
  | refused worker taskId running => exact spares (by rw [running]; rfl) terminal
  | ended toState working => exact spares working terminal

section Turns

variable {Q : QueueBackend} {A : ApprovalBackend}

theorem turn_keeps_terminal {entry : Entry ports Operation} {own : Own} {world after : World Q A}
    (permitted : May entry.operation own entry.event.1)
    (answered : surroundings Q A entry.event.1 world entry.event.2 after)
    (spares : sparesTerminal entry = true) {id : Str} {task : Task}
    (found : world.board id = some task) (terminal : task.state.terminal = true) :
    ∃ task', after.board id = some task' ∧ task'.state = task.state := by
  have asked := fun task toState evidence => @spared entry task toState evidence spares
  obtain ⟨pid, operation, request, reply⟩ := entry
  cases request with
  | queue op =>
      obtain ⟨now, effect⟩ := queue_effect answered id
      rw [found] at effect
      generalize after.board id = found' at effect
      cases effect with
      | kept => exact ⟨task, rfl, rfl⟩
      | claimed _ _ _ _ queued =>
          rw [queued] at terminal
          cases terminal
      | claimedNext _ _ _ queued =>
          rw [queued] at terminal
          cases terminal
      | moved read _ moved toState evidence _ matched move =>
          refine ⟨moved, rfl, ?_⟩
          rw [moved_state move, matched]
          exact move_spares permitted (fun works => asked read toState evidence rfl works)
            (matched ▸ terminal)
      | released limit _ _ expired =>
          simp only [stale, Bool.and_eq_true, decide_eq_true_eq] at expired
          rw [expired.1] at terminal
          cases terminal
  | _ =>
      have same := board_kept answered fun op other => by cases other
      exact ⟨task, by rw [same, found], rfl⟩

/-- A turn that does not spare a terminal state, and that the queue carries out,
moves a finished task to another state. -/
theorem unsparing_turn_moves {entry : Entry ports Operation} {world after : World Q A}
    (answered : surroundings Q A entry.event.1 world entry.event.2 after)
    (careless : sparesTerminal entry = false) (carried : ∃ value, entry.event.2 = .ok value) :
    ∃ id task task', world.board id = some task ∧ task.state.terminal = true ∧
      after.board id = some task' ∧ task'.state ≠ task.state := by
  obtain ⟨pid, operation, request, reply⟩ := entry
  unfold sparesTerminal at careless
  cases request with
  | queue op =>
      cases op with
      | transition read toState evidence =>
          simp only [Bool.not_eq_false', Bool.and_eq_true, decide_eq_true_eq] at careless
          obtain ⟨value, ok⟩ : ∃ value, reply = .ok value := carried
          rcases answered with served | ⟨_, ⟨error, raised, _⟩, _⟩
          · obtain ⟨⟨now, spec⟩, _⟩ := served_spec served
            rcases spec with ⟨_, missing, _⟩ | ⟨_, _, _, conflict, _⟩ | ⟨stored, moved, found, matched,
                move, _, put⟩
            · cases ok.symm.trans missing
            · cases ok.symm.trans conflict
            · have own : moved.id = read.id := (moved_id move).trans (Q.filed _ _ _ found)
              refine ⟨read.id, stored, moved, found, matched ▸ careless.1.2, ?_, ?_⟩
              · rw [put, ← own]
                exact board_put_self _ moved
              · rw [moved_state move, matched]
                exact careless.2
          · cases ok.symm.trans raised
      | _ => cases careless
  | _ => cases careless

variable [Unicode] [Sha256]

/-- Terminal states are kept in every run that moves no task on which was read
in a terminal state, from every reachable configuration. -/
theorem terminal_states_kept {world : World Q A} {c c' : Config ports Operation (World Q A)}
    (reachable : Reachable (surroundings Q A) Operation.start world c)
    (run : Run (surroundings Q A) Operation.start (sparesTerminal · = true) c c')
    (id : Str) (task : Task) (found : c.shared.board id = some task)
    (terminal : task.state.terminal = true) :
    ∃ task', c'.shared.board id = some task' ∧ task'.state = task.state := by
  have both : Reachable (surroundings Q A) Operation.start world c' ∧
      ∃ task', c'.shared.board id = some task' ∧ task'.state = task.state := by
    induction run with
    | refl => exact ⟨reachable, task, found, rfl⟩
    | tail _ step ih =>
        obtain ⟨reached, later, located, same⟩ := ih
        refine ⟨reached.tail step.any, ?_⟩
        cases step with
        | launch operation => exact ⟨later, located, same⟩
        | act entry next shared scheduled answered admitted =>
            have permitted := (discipline Q A).permits reached scheduled
            obtain ⟨task', kept, state⟩ := turn_keeps_terminal permitted answered admitted located
              (same ▸ terminal)
            exact ⟨task', kept, state.trans same⟩
  exact both.2

end Turns

section Example

open DearAgent.Work

def emptyWorld (ttl : Duration) : World MemoryQueue.backend (MemoryApprovalStore.backend ttl) where
  queue := ⟨MemoryQueue.empty, MemoryQueue.empty_well_formed⟩
  approvals := ⟨Registry.empty, Registry.empty_well_formed⟩

def widgetMessage : RawMessage where
  transportId := "m1"
  body := "repo: acme/widget\nFix it"

def disabledPolicy : ProjectPolicy where
  project := "widget"
  enabled := false
  repos := ["acme/widget"]

/-- Collaborators that do their work, beside a policy that disables the project. -/
def disabledProject (request : Request) : Except Exn request.Result :=
  match request with
  | .policyForRepo _ => .ok (some disabledPolicy)
  | request => forgeAnswers [("html_url".toList, .null)] request

abbrev WidgetConfig := Config ports Operation
  (World MemoryQueue.backend (MemoryApprovalStore.backend 0))

def widgetTurns (schedule : List (Turn Operation)) (c : WidgetConfig) : WidgetConfig :=
  let _ := asciiTables
  let _ := widgetSha256
  play (answering zeroReadings disabledProject) Operation.start schedule c

def widgetFinished : WidgetConfig :=
  widgetTurns ([.launch (.ingest {} [widgetMessage] none), .act 0, .launch (.work widgetWork)] ++
    List.replicate 12 (.act 1)) (initial (emptyWorld 0))

/-- A worker with or without policies is asked to run the task once more. -/
def widgetRunAgain (policies : Bool) : WidgetConfig :=
  let executor : TaskExecutor := { repoPath := "/repo", worktreesRoot := "/work" }
  widgetTurns (.launch (.work (.run { executor, repoPath := "/repo", policies } "m1")) ::
    List.replicate 6 (.act 2)) widgetFinished

def WidgetIs (c : WidgetConfig) (state : TaskState) : Prop :=
  ∃ task, c.shared.board "m1".toList = some task ∧ task.state = state

theorem widget_is {c : WidgetConfig} {state : TaskState}
    (computed : (c.shared.board "m1".toList).map Task.state = some state) : WidgetIs c state :=
  Option.map_eq_some_iff.mp computed

theorem widget_finished : WidgetIs widgetFinished .done := widget_is (by decide)

theorem widget_reachable :
    let _ := asciiTables
    let _ := widgetSha256
    Reachable (surroundings _ _) Operation.start (emptyWorld 0) widgetFinished := by
  let _ := asciiTables
  let _ := widgetSha256
  exact run_play (fun request world => (answering_works zeroReadings disabledProject request world).1)
    _ _ fun _ _ => trivial

theorem widget_kept_done : WidgetIs (widgetRunAgain false) .done := by
  let _ := asciiTables
  let _ := widgetSha256
  obtain ⟨task, found, done⟩ := widget_finished
  have spares : ∀ entry ∈ (widgetRunAgain false).history.drop widgetFinished.history.length,
      sparesTerminal entry = true := by decide
  have again := run_play
    (fun request world => (answering_works zeroReadings disabledProject request world).1) _
    widgetFinished spares
  obtain ⟨task', kept, same⟩ := terminal_states_kept widget_reachable again _ task found
    (by rw [done]; rfl)
  exact ⟨task', kept, same.trans done⟩

/-- Once the operator has disabled the project, the guard for the policy fails the
task that was done. -/
theorem disabled_project_fails_done_task :
    let _ := asciiTables
    let _ := widgetSha256
    ¬∀ c c' : WidgetConfig,
      Reachable (surroundings _ _) Operation.start (emptyWorld 0) c →
      Run (surroundings _ _) Operation.start anyTurn c c' →
      ∀ id task, c.shared.board id = some task → task.state.terminal = true →
        ∃ task', c'.shared.board id = some task' ∧ task'.state = task.state := by
  intro _ _ kept
  obtain ⟨task, found, done⟩ := widget_finished
  have again : Run (surroundings _ _) Operation.start anyTurn widgetFinished (widgetRunAgain true) :=
    run_play
      (fun request world => (answering_works zeroReadings disabledProject request world).1) _ _
      fun _ _ => trivial
  obtain ⟨task', located, same⟩ :=
    kept widgetFinished (widgetRunAgain true) widget_reachable again _ task found (by rw [done]; rfl)
  obtain ⟨failed, stored, state⟩ : WidgetIs (widgetRunAgain true) .failed :=
    widget_is (by decide)
  obtain rfl : task' = failed := Option.some.inj (located.symm.trans stored)
  rw [done, state] at same
  cases same

end Example

end DearAgent
