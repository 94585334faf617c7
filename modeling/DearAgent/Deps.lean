import DearAgent.Lib.Simulation
import DearAgent.Ports

/-!
# Dependencies

`deps.py`: whether the declared dependencies of a task let it run now.
-/

namespace DearAgent

open DearAgent.Lib.Text DearAgent.Lib.Effects DearAgent.Queue

set_option autoImplicit false

inductive Readiness
  | ready | blocked | failed
deriving DecidableEq

structure DependencyStatus where
  state : Readiness := .ready
  blockedOn : List Str := []
  failedOn : List Str := []
deriving DecidableEq

/-- The loop of `dependency_status` over the ids, after some of them. -/
def checkDependencies (blocked failed : List Str) : List Str → Code (List Str × List Str)
  | [] => .ret (blocked, failed)
  | depId :: rest => do
      let dependency ← Queue.get depId
      match dependency.map Task.state with
      -- It may not be enqueued yet, so an unknown id is not a failure.
      | none => checkDependencies (blocked ++ [depId]) failed rest
      | some .done => checkDependencies blocked failed rest
      | some .failed | some .rejected => checkDependencies blocked (failed ++ [depId]) rest
      | some _ => checkDependencies (blocked ++ [depId]) failed rest

def dependencyStatus (task : Task) : Code DependencyStatus := do
  let dependsOn := (task.spec.map TaskSpec.dependsOn).getD []
  if dependsOn.isEmpty then .ret {}
  else
    let (blocked, failed) ← checkDependencies [] [] dependsOn
    if !failed.isEmpty then
      .ret { state := .failed, blockedOn := blocked, failedOn := failed }
    else if !blocked.isEmpty then .ret { state := .blocked, blockedOn := blocked }
    else .ret {}

def Reading : Request → Prop
  | .queue (.get _) => True
  | _ => False

theorem asks_check_dependencies (ids blocked failed : List Str) :
    Asks Reading (checkDependencies blocked failed ids) := by
  induction ids generalizing blocked failed with
  | nil => trivial
  | cons depId rest ih =>
      refine asks_bind (asks_call trivial) fun dependency => ?_
      cases dependency.map Task.state with
      | none => exact ih _ _
      | some state => cases state <;> exact ih _ _

theorem asks_dependency_status (task : Task) : Asks Reading (dependencyStatus task) := by
  unfold dependencyStatus
  by_cases independent : ((task.spec.map TaskSpec.dependsOn).getD []).isEmpty
  · simp only [independent, if_true]
    trivial
  · simp only [independent, Bool.false_eq_true, if_false]
    refine asks_bind (asks_check_dependencies _ _ _) fun found => ?_
    by_cases failing : !found.2.isEmpty
    · rw [if_pos failing]
      trivial
    · rw [if_neg failing]
      by_cases blocking : !found.1.isEmpty
      · rw [if_pos blocking]
        trivial
      · rw [if_neg blocking]
        trivial

/-!
## What they say on a board
-/

def awaited (board : Board) (id : Str) : Bool :=
  match (board id).map Task.state with
  | some .done | some .failed | some .rejected => false
  | _ => true

/-- A dependency that fails the tasks that wait for it. -/
def sunk (board : Board) (id : Str) : Bool :=
  match (board id).map Task.state with
  | some .failed | some .rejected => true
  | _ => false

def dependencies (task : Task) : List Str := (task.spec.map TaskSpec.dependsOn).getD []

/-- What `dependency_status` says on a board. -/
def statusOn (board : Board) (task : Task) : DependencyStatus :=
  let blocked := (dependencies task).filter (awaited board)
  let failed := (dependencies task).filter (sunk board)
  if failed ≠ [] then { state := .failed, blockedOn := blocked, failedOn := failed }
  else if blocked ≠ [] then { state := .blocked, blockedOn := blocked }
  else {}

section Reporting

variable {σ : Type} {env : Env ports σ} {kept : σ → σ → Prop} {boardOf : σ → Board}

/-- Surroundings that read tasks off a board, which the reading does not change. -/
structure ReadsTasks (env : Env ports σ) (kept : σ → σ → Prop) (boardOf : σ → Board) : Prop where
  refl : ∀ state, kept state state
  trans : ∀ {first second third}, kept first second → kept second third → kept first third
  board : ∀ {state after}, kept state after → boardOf after = boardOf state
  reads : ∀ state id, Reports env kept (Queue.get id) state (· = boardOf state id)

theorem check_dependencies_told (reads : ReadsTasks env kept boardOf) (ids blocked failed : List Str)
    (state : σ) :
    Reports env kept (checkDependencies blocked failed ids) state fun found =>
      found = (blocked ++ ids.filter (awaited (boardOf state)),
        failed ++ ids.filter (sunk (boardOf state))) := by
  induction ids generalizing blocked failed state with
  | nil => exact ⟨reads.refl state, _, rfl, by simp⟩
  | cons depId rest ih =>
      apply (reads.reads state depId).seq
      intro after found same told
      subst told
      have board := reads.board same
      have goes (blocked' failed' : List Str)
          (sorted : (blocked' ++ rest.filter (awaited (boardOf state)),
              failed' ++ rest.filter (sunk (boardOf state))) =
            (blocked ++ (depId :: rest).filter (awaited (boardOf state)),
              failed ++ (depId :: rest).filter (sunk (boardOf state)))) :
          Meets env (Serves env) (checkDependencies blocked' failed' rest) after
            fun last outcome => kept state last ∧ ∃ value, outcome = .ok value ∧
              value = (blocked ++ (depId :: rest).filter (awaited (boardOf state)),
                failed ++ (depId :: rest).filter (sunk (boardOf state))) := by
        apply Meets.post (ih blocked' failed' after)
        intro last outcome reported
        obtain ⟨later, result, returned, told⟩ := reported
        rw [board] at told
        exact ⟨reads.trans same later, result, returned, told.trans sorted⟩
      cases known : (boardOf state depId).map Task.state with
      | none =>
          apply goes
          simp [awaited, sunk, known]
      | some dependency =>
          cases dependency with
          | done | failed | rejected | received | queued | running | action | approved =>
              apply goes
              simp [awaited, sunk, known]

theorem dependency_status_told (reads : ReadsTasks env kept boardOf) (task : Task) (state : σ) :
    Reports env kept (dependencyStatus task) state fun status =>
      status = statusOn (boardOf state) task := by
  unfold dependencyStatus statusOn dependencies
  generalize (task.spec.map TaskSpec.dependsOn).getD [] = ids
  cases ids with
  | nil => exact ⟨reads.refl state, _, rfl, rfl⟩
  | cons depId rest =>
      apply (check_dependencies_told reads (depId :: rest) [] [] state).seq
      intro after found same sorted
      subst sorted
      rw [List.nil_append, List.nil_append]
      cases (depId :: rest).filter (sunk (boardOf state)) with
      | cons first more => exact ⟨same, _, rfl, rfl⟩
      | nil =>
          cases (depId :: rest).filter (awaited (boardOf state)) with
          | cons first more => exact ⟨same, _, rfl, rfl⟩
          | nil => exact ⟨same, _, rfl, rfl⟩

end Reporting

end DearAgent
