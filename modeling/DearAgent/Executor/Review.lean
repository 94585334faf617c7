import DearAgent.Executor.Gate
import DearAgent.Lib.Stories

/-!
# What the reviewer can change

Beside an execution without a reviewer that publishes its change stands the same
execution with one: same surroundings, same answers until the first diff is
asked for. The reviewer is advisory exactly where no re-run it asked for is
turned down by the gate or leaves nothing to publish, and where a re-run that
fails leaves the worktree as it was. Nothing takes the edits of a failed re-run
back, and a re-run that succeeded is not undone where the gate turns it down.
-/

namespace DearAgent.Review

open DearAgent.Lib.Text DearAgent.Lib.Effects DearAgent.Lib.Stories DearAgent.Queue
open DearAgent.TaskExecutor

set_option autoImplicit false

abbrev Story (σ : Type) := List (Moment ports σ)

def rejects : Exchange ports → Bool
  | ⟨.verify _ _ _, .ok result⟩ => result.blocked || !result.ok
  | ⟨.verify _ _ _, .error _⟩ => true
  | _ => false

def findsNothing : Exchange ports → Bool
  | ⟨.hasChangesSince _ _, .ok changed⟩ => !changed
  | _ => false

def concludes : Exchange ports → Bool
  | ⟨.queue (.transition _ .done (some evidence)), .ok _⟩ => evidence.prUrl.isSome
  | _ => false

def isDiff : Exchange ports → Bool
  | ⟨.diff _ _, _⟩ => true
  | _ => false

section Statements

variable {σ T : Type} (answer : Answer ports σ) (tree : σ → T) (told : Story σ)

def noted (check : Exchange ports → Bool) : Bool := told.any fun item => check item.event

def runs : Nat := told.countP fun item => isHarnessRun item.event

/-- Where the last harness run failed, the tree that was committed afterwards is
the one before that run. -/
def Restored : Prop :=
  ∀ front rerun rest, told = front ++ rerun :: rest → isFailedRun rerun.event = true →
    (∀ item ∈ rest, isHarnessRun item.event = false) →
    ∀ commit ∈ rest, isCommit commit.event = true → tree commit.before = tree rerun.before

structure Advisory (debateRounds : Int) : Prop where
  done : noted told concludes = true
  bounded : runs told ≤ 1 + debateRounds.toNat
  restored : Restored tree told

/-- Whatever the harness left was accepted, and a run that failed left nothing. -/
structure Cooperative : Prop where
  accepted : noted told rejects = false
  changed : noted told findsNothing = false
  kept : ∀ item ∈ told, isFailedRun item.event = true → tree item.after = tree item.before

/-- Surroundings in which publishing succeeds, the queue moves the task that was
claimed, and nobody kills the process. -/
structure Obliging : Prop where
  commits : ∀ state worktree message, ∃ commit,
    (answer (.commitAll worktree message) state).1 = .ok commit
  compares : ∀ state worktree baseBranch, ∃ changed,
    (answer (.hasChangesSince worktree baseBranch) state).1 = .ok changed
  pushes : ∀ state worktree, (answer (.push worktree) state).1 = .ok ()
  opens : ∀ state worktree baseBranch title body, ∃ pr,
    (answer (.openDraftPr worktree baseBranch title body) state).1 = .ok pr
  moves : ∀ state task toState evidence, ∃ moved,
    (answer (.queue (.transition task toState evidence)) state).1 = .ok moved
  survives : ∀ request state error,
    (answer request state).1 = .error error → error.isException = true

end Statements

/-!
## How a story is told
-/

section Telling

variable {σ : Type} {told more : Story σ} {check : Exchange ports → Bool}

theorem noted_append : noted (told ++ more) check = (noted told check || noted more check) :=
  List.any_append

theorem noted_cons (item : Moment ports σ) :
    noted (item :: told) check = (check item.event || noted told check) := rfl

theorem runs_append : runs (told ++ more) = runs told + runs more := List.countP_append

theorem unnoted (silent : ∀ item ∈ told, check item.event = false) : noted told check = false := by
  apply List.any_eq_false.mpr
  intro item member
  rw [silent item member]
  exact Bool.false_ne_true

theorem no_runs (silent : ∀ item ∈ told, isHarnessRun item.event = false) : runs told = 0 := by
  apply List.countP_eq_zero.mpr
  intro item member
  rw [silent item member]
  exact Bool.false_ne_true

/-- A harness run that failed is followed by no other and by no commit of another
state, and no harness runs after a commit. -/
structure Orderly (first second : Moment ports σ) : Prop where
  failed : isFailedRun first.event = true → isHarnessRun second.event = false
  left : isFailedRun first.event = true → isCommit second.event = true →
    second.before = first.after
  committed : isCommit first.event = true → isHarnessRun second.event = false

/-- A request that none of the checks takes notice of. -/
def Aside : Request → Prop
  | .runHarness _ _ _ | .verify _ _ _ | .commitAll _ _ | .hasChangesSince _ _ | .diff _ _
  | .queue (.transition _ .done _) => False
  | _ => True

structure Overlooked (event : Exchange ports) : Prop where
  run : isHarnessRun event = false
  failed : isFailedRun event = false
  commit : isCommit event = false
  rejects : rejects event = false
  nothing : findsNothing event = false
  diff : isDiff event = false

theorem aside_overlooked {event : Exchange ports} (aside : Aside event.1) :
    Overlooked event ∧ concludes event = false := by
  obtain ⟨request, reply⟩ := event
  cases request with
  | queue op =>
      cases op with
      | transition task toState evidence =>
          refine ⟨⟨rfl, rfl, rfl, rfl, rfl, rfl⟩, ?_⟩
          cases toState with
          | done => exact absurd aside not_false
          | _ => rfl
      | _ => exact ⟨⟨rfl, rfl, rfl, rfl, rfl, rfl⟩, rfl⟩
  | runHarness | verify | commitAll | hasChangesSince | diff => exact absurd aside not_false
  | _ => exact ⟨⟨rfl, rfl, rfl, rfl, rfl, rfl⟩, rfl⟩

theorem orderly_first {first : Moment ports σ} (failed : isFailedRun first.event = false)
    (commit : isCommit first.event = false) (second : Moment ports σ) : Orderly first second where
  failed := by
    intro other
    rw [failed] at other
    cases other
  left := by
    intro other
    rw [failed] at other
    cases other
  committed := by
    intro other
    rw [commit] at other
    cases other

theorem orderly_second {first second : Moment ports σ} (run : isHarnessRun second.event = false)
    (commit : isCommit second.event = false) : Orderly first second where
  failed _ := run
  left _ other := by
    rw [commit] at other
    cases other
  committed _ := run

theorem failed_is_run {event : Exchange ports} (failed : isFailedRun event = true) :
    isHarnessRun event = true := by
  obtain ⟨request, reply⟩ := event
  cases request <;> first | rfl | cases failed

/-!
## What the parts of an execution tell
-/

variable {α : Type} {answer : Answer ports σ} {state : σ}

theorem tells_attempt (obliging : Obliging answer) {request : Request}
    {next : Except Exn request.Result → Code α} {post : Story σ → Except Exn α → σ → Prop}
    (later : Tells answer (next (answer request state).1) (answer request state).2
      fun more outcome final => post (moment answer request state :: more) outcome final) :
    Tells answer (attempt Exn.isException request >>= next) state post := by
  cases replied : (answer request state).1 with
  | ok value =>
      rw [replied] at later
      exact tells_ask replied later
  | error error =>
      rw [replied] at later
      apply tells_ask replied
      simp only
      rw [if_pos (obliging.survives request state error replied)]
      exact later

theorem tells_attempt_last (obliging : Obliging answer) {request : Request}
    {post : Story σ → Except Exn (Except Exn request.Result) → σ → Prop}
    (ended : post [moment answer request state] (.ok (answer request state).1)
      (answer request state).2) :
    Tells answer (attempt Exn.isException request) state post := by
  rw [← bind_return (attempt Exn.isException request)]
  exact tells_attempt obliging ended

theorem tells_emit (obliging : Obliging answer) (events : Bool) (taskId kind : Str)
    (data : EventData) :
    Tells answer (emit events taskId kind data) state fun told outcome _ =>
      (∀ item ∈ told, Aside item.event.1) ∧ outcome = .ok () := by
  unfold emit
  by_cases on : events
  · rw [if_pos on]
    apply tells_attempt obliging
    refine ⟨?_, rfl⟩
    intro item member
    rw [List.mem_singleton.mp member]
    trivial
  · rw [if_neg on]
    exact ⟨fun _ member => absurd member List.not_mem_nil, rfl⟩

theorem tells_emit_seq (obliging : Obliging answer) (events : Bool) (taskId kind : Str)
    (data : EventData) {next : Unit → Code α} {post : Story σ → Except Exn α → σ → Prop}
    (later : ∀ told s, (∀ item ∈ told, Aside item.event.1) →
      Tells answer (next ()) s fun more outcome final => post (told ++ more) outcome final) :
    Tells answer (emit events taskId kind data >>= next) state post := by
  apply (tells_emit obliging events taskId kind data).seq
  · intro told _ s both
    exact later told s both.1
  · intro told error s both
    cases both.2

theorem tells_emit_ret (obliging : Obliging answer) (events : Bool) (taskId kind : Str)
    (data : EventData) {value : α} {post : Story σ → Except Exn α → σ → Prop}
    (ends : ∀ told s, (∀ item ∈ told, Aside item.event.1) → post told (.ok value) s) :
    Tells answer (emit events taskId kind data >>= fun _ => .ret value) state post := by
  apply tells_emit_seq obliging
  intro told s aside
  have ended := ends told s aside
  rw [← List.append_nil told] at ended
  exact ended

theorem tells_run_harness (obliging : Obliging answer) (task : Task) (spec : TaskSpec)
    (worktree : Worktree) :
    Tells answer (runHarness task spec worktree) state fun told outcome final =>
      ∃ item run, told = [item] ∧ outcome = .ok run ∧ item.after = final ∧
        isHarnessRun item.event = true ∧ isFailedRun item.event = !run.ok := by
  apply tells_attempt obliging
  cases replied : (answer (.runHarness task spec worktree) state).1 with
  | ok run =>
      refine ⟨moment answer (.runHarness task spec worktree) state, run, rfl, rfl, rfl, rfl, ?_⟩
      unfold moment
      rw [replied]
      rfl
  | error error =>
      refine ⟨moment answer (.runHarness task spec worktree) state, _, rfl, rfl, rfl, rfl, ?_⟩
      unfold moment
      rw [replied]
      rfl

/-- There is a command to check with, or none to check. -/
def Configured (executor : TaskExecutor) (spec : TaskSpec) (verifier : Option CommandVerifier) :
    Prop :=
  truthy spec.verify = true → (verifier.or executor.verifier).isSome = true

/-- What the gate tells: it turns the change down where its command says so. -/
structure GateTold (configured : Prop) (told : Story σ) (failure : Option FailureKind) : Prop where
  runs : ∀ item ∈ told, isHarnessRun item.event = false
  commits : ∀ item ∈ told, isCommit item.event = false
  nothing : ∀ item ∈ told, findsNothing item.event = false
  concluded : ∀ item ∈ told, concludes item.event = false
  diffs : ∀ item ∈ told, isDiff item.event = false
  passed : failure = none → configured ∧ noted told rejects = false
  rejected : configured → failure.isSome = true → noted told rejects = true

theorem gate_told_aside {configured : Prop} {failure : Option FailureKind}
    (aside : ∀ item ∈ told, Aside item.event.1)
    (passed : failure = none → configured) (rejected : configured → failure.isSome = false) :
    GateTold configured told failure where
  runs item member := (aside_overlooked (aside item member)).1.run
  commits item member := (aside_overlooked (aside item member)).1.commit
  nothing item member := (aside_overlooked (aside item member)).1.nothing
  concluded item member := (aside_overlooked (aside item member)).2
  diffs item member := (aside_overlooked (aside item member)).1.diff
  passed none :=
    ⟨passed none, unnoted fun item member => (aside_overlooked (aside item member)).1.rejects⟩
  rejected holds some := by
    rw [rejected holds] at some
    cases some

theorem gate_told_verify {configured : Prop} {failure : Option FailureKind}
    {verifier : CommandVerifier} {command path : Str} (holds : configured)
    (aside : ∀ item ∈ told, Aside item.event.1)
    (verdict : failure.isSome =
      rejects (moment answer (.verify verifier command path) state).event) :
    GateTold configured (moment answer (.verify verifier command path) state :: told) failure where
  runs := List.forall_mem_cons.mpr
    ⟨rfl, fun item member => (aside_overlooked (aside item member)).1.run⟩
  commits := List.forall_mem_cons.mpr
    ⟨rfl, fun item member => (aside_overlooked (aside item member)).1.commit⟩
  nothing := List.forall_mem_cons.mpr
    ⟨rfl, fun item member => (aside_overlooked (aside item member)).1.nothing⟩
  concluded := List.forall_mem_cons.mpr
    ⟨rfl, fun item member => (aside_overlooked (aside item member)).2⟩
  diffs := List.forall_mem_cons.mpr
    ⟨rfl, fun item member => (aside_overlooked (aside item member)).1.diff⟩
  passed none := by
    refine ⟨holds, ?_⟩
    rw [noted_cons, ← verdict, none]
    exact unnoted fun item member => (aside_overlooked (aside item member)).1.rejects
  rejected _ some := by
    rw [noted_cons, ← verdict, some]
    rfl

theorem tells_verify (obliging : Obliging answer) (executor : TaskExecutor) (task : Task)
    (spec : TaskSpec) (worktree : Worktree) (verifier : Option CommandVerifier) :
    Tells answer (executor.verify task spec worktree verifier) state fun told outcome _ =>
      ∃ failure, outcome = .ok failure ∧ GateTold (Configured executor spec verifier) told failure := by
  have nothing : ∀ item ∈ ([] : Story σ), Aside item.event.1 :=
    fun _ member => absurd member List.not_mem_nil
  unfold verify
  by_cases silent : !truthy spec.verify
  · rw [if_pos silent]
    have configured : Configured executor spec verifier := by
      intro asked
      rw [asked] at silent
      cases silent
    exact ⟨none, rfl, gate_told_aside nothing (fun _ => configured) fun _ => rfl⟩
  · rw [if_neg silent]
    have asked : truthy spec.verify = true := by simpa using silent
    simp only
    cases active : verifier.or executor.verifier with
    | none =>
        apply tells_emit_ret obliging
        intro told s aside
        refine ⟨some .verifyBlocked, rfl, ?_⟩
        apply gate_told_aside aside
        · intro other
          cases other
        · intro configured
          have there := configured asked
          rw [active] at there
          cases there
    | some active' =>
        have configured : Configured executor spec verifier := by
          intro _
          rw [active]
          rfl
        apply tells_attempt obliging
        cases replied : (answer (.verify active' (spec.verify.getD []) worktree.path) state).1 with
        | error error =>
            apply tells_emit_ret obliging
            intro told s aside
            refine ⟨some .verifyFailed, rfl, ?_⟩
            apply gate_told_verify configured aside
            simp only [moment, replied]
            rfl
        | ok result =>
            have verdict : rejects (moment answer
                (.verify active' (spec.verify.getD []) worktree.path) state).event =
                  (result.blocked || !result.ok) := by
              unfold moment
              rw [replied]
              rfl
            simp only
            split_ifs with blocked failed
            · apply tells_emit_ret obliging
              intro told s aside
              refine ⟨some .verifyBlocked, rfl, ?_⟩
              apply gate_told_verify configured aside
              rw [verdict, blocked]
              rfl
            · apply tells_emit_ret obliging
              intro told s aside
              refine ⟨some .verifyFailed, rfl, ?_⟩
              apply gate_told_verify configured aside
              rw [verdict, failed, Bool.or_true]
              rfl
            · apply tells_emit_ret obliging
              intro told s aside
              refine ⟨none, rfl, ?_⟩
              apply gate_told_verify configured aside
              rw [verdict, Bool.of_not_eq_true blocked, Bool.of_not_eq_true failed]
              rfl

/-- An exchange that decides nothing in a debate. -/
structure Passing (event : Exchange ports) : Prop where
  failed : isFailedRun event = false
  commit : isCommit event = false
  rejects : rejects event = false
  nothing : findsNothing event = false
  concluded : concludes event = false

theorem aside_passing (aside : ∀ item ∈ told, Aside item.event.1) :
    ∀ item ∈ told, Passing item.event := by
  intro item member
  have overlooked := aside_overlooked (aside item member)
  exact ⟨overlooked.1.failed, overlooked.1.commit, overlooked.1.rejects, overlooked.1.nothing,
    overlooked.2⟩

theorem aside_runs (aside : ∀ item ∈ told, Aside item.event.1) : runs told = 0 :=
  no_runs fun item member => (aside_overlooked (aside item member)).1.run

/-- What a debate tells: it asks for so many runs at most, ends with the first one
that fails, and with the first change the gate turns down. -/
structure DebateTold (remaining : Nat) (told : Story σ) (final : σ)
    (failure : Option FailureKind) : Prop where
  bounded : runs told ≤ remaining
  orderly : told.Pairwise Orderly
  last : ∀ item ∈ told, isFailedRun item.event = true → item.after = final
  commits : ∀ item ∈ told, isCommit item.event = false
  nothing : ∀ item ∈ told, findsNothing item.event = false
  concluded : ∀ item ∈ told, concludes item.event = false
  verdict : failure.isSome = noted told rejects

theorem debate_told_nil (remaining : Nat) (final : σ) : DebateTold remaining [] final none where
  bounded := Nat.zero_le _
  orderly := .nil
  last _ member := absurd member List.not_mem_nil
  commits _ member := absurd member List.not_mem_nil
  nothing _ member := absurd member List.not_mem_nil
  concluded _ member := absurd member List.not_mem_nil
  verdict := rfl

theorem DebateTold.behind {remaining total : Nat} {final : σ} {failure : Option FailureKind}
    (debate : DebateTold remaining more final failure)
    (passing : ∀ item ∈ told, Passing item.event) (bounded : runs told + remaining ≤ total) :
    DebateTold total (told ++ more) final failure where
  bounded := by
    have inner := debate.bounded
    rw [runs_append]
    omega
  orderly := by
    apply List.pairwise_append.mpr
    refine ⟨?_, debate.orderly, ?_⟩
    · apply List.pairwise_of_forall_mem_list
      intro first member second _
      exact orderly_first (passing first member).failed (passing first member).commit second
    · intro first member second _
      exact orderly_first (passing first member).failed (passing first member).commit second
  last := by
    intro item member failed
    rcases List.mem_append.mp member with early | late
    · rw [(passing item early).failed] at failed
      cases failed
    · exact debate.last item late failed
  commits := List.forall_mem_append.mpr ⟨fun item member => (passing item member).commit,
    debate.commits⟩
  nothing := List.forall_mem_append.mpr ⟨fun item member => (passing item member).nothing,
    debate.nothing⟩
  concluded := List.forall_mem_append.mpr ⟨fun item member => (passing item member).concluded,
    debate.concluded⟩
  verdict := by
    rw [noted_append, unnoted fun item member => (passing item member).rejects, Bool.false_or]
    exact debate.verdict

theorem GateTold.ends {failure failure' : Option FailureKind} {final : σ} {configured : Prop}
    (gate : GateTold configured told failure) (verdict : failure'.isSome = noted told rejects) :
    DebateTold 0 told final failure' where
  bounded := (no_runs gate.runs).le
  orderly := by
    apply List.pairwise_of_forall_mem_list
    intro first _ second member
    exact orderly_second (gate.runs second member) (gate.commits second member)
  last := by
    intro item member failed
    have run := failed_is_run failed
    rw [gate.runs item member] at run
    cases run
  commits := gate.commits
  nothing := gate.nothing
  concluded := gate.concluded
  verdict := verdict

theorem GateTold.decides {failure : Option FailureKind} {final : σ} {configured : Prop}
    (gate : GateTold configured told failure) (holds : configured) :
    DebateTold 0 told final failure := by
  apply gate.ends
  cases failure with
  | none => exact (gate.passed rfl).2.symm
  | some kind => exact (gate.rejected holds rfl).symm

theorem GateTold.passing {configured : Prop} (gate : GateTold configured told none) :
    ∀ item ∈ told, Passing item.event := by
  intro item member
  have accepted := List.any_eq_false.mp (gate.passed rfl).2 item member
  refine ⟨?_, gate.commits item member, Bool.of_not_eq_true accepted, gate.nothing item member,
    gate.concluded item member⟩
  by_contra failed
  have run := failed_is_run (Bool.of_not_eq_false failed)
  rw [gate.runs item member] at run
  cases run

def Decides (remaining : Nat) (told : Story σ) (outcome : Except Exn Debated) (final : σ) : Prop :=
  ∃ debated, outcome = .ok debated ∧ DebateTold remaining told final debated.failure

theorem Decides.behind {remaining total : Nat} {outcome : Except Exn Debated} {final : σ}
    (decides : Decides remaining more outcome final)
    (passing : ∀ item ∈ told, Passing item.event) (bounded : runs told + remaining ≤ total) :
    Decides total (told ++ more) outcome final := by
  obtain ⟨debated, returned, debate⟩ := decides
  exact ⟨debated, returned, debate.behind passing bounded⟩

theorem decides_after {program : Code Debated} {remaining total : Nat}
    (inner : Tells answer program state (Decides remaining))
    (passing : ∀ item ∈ told, Passing item.event) (bounded : runs told + remaining ≤ total) :
    Tells answer program state fun more outcome final =>
      Decides total (told ++ more) outcome final :=
  inner.mono fun _ _ _ decides => decides.behind passing bounded

def Reviewing : Request → Prop
  | .diff _ _ | .review _ _ => True
  | _ => False

theorem reviewing_passes {event : Exchange ports} (reviewing : Reviewing event.1) :
    Passing event ∧ isHarnessRun event = false := by
  obtain ⟨request, reply⟩ := event
  cases request <;> first | exact ⟨⟨rfl, rfl, rfl, rfl, rfl⟩, rfl⟩ | cases reviewing

theorem tells_review_diff (obliging : Obliging answer) (spec : TaskSpec) (worktree : Worktree) :
    Tells answer (reviewDiff spec worktree) state fun told outcome _ =>
      (∀ item ∈ told, Reviewing item.event.1) ∧ ∃ reviewed, outcome = .ok reviewed := by
  apply tells_attempt obliging
  cases replied : (answer (.diff worktree spec.baseBranch) state).1 with
  | error error =>
      refine ⟨?_, _, rfl⟩
      intro item member
      rw [List.mem_singleton.mp member]
      trivial
  | ok diff =>
      apply tells_attempt_last obliging
      refine ⟨?_, _, rfl⟩
      intro item member
      rcases List.mem_cons.mp member with rfl | member
      · trivial
      · rw [List.mem_singleton.mp member]
        trivial

theorem tells_debate_round (obliging : Obliging answer) (executor : TaskExecutor) (task : Task)
    (worktree : Worktree) (current : Debated) (undecided : current.failure = none)
    (revise : ReviewVerdict → Code Debated) {remaining : Nat}
    (revised : ∀ verdict s, Tells answer (revise verdict) s (Decides remaining)) :
    Tells answer (executor.debateRound task worktree current revise) state (Decides remaining) := by
  have stays : ∀ next : Debated, next.failure = none → ∀ (told : Story σ) final,
      (∀ item ∈ told, Aside item.event.1) → Decides remaining told (.ok next) final := by
    intro next none told final aside
    refine ⟨next, rfl, ?_⟩
    have nothing := debate_told_nil remaining final
    rw [← none] at nothing
    have behind := nothing.behind (aside_passing aside) (by rw [aside_runs aside, Nat.zero_add])
    rwa [List.append_nil] at behind
  apply (tells_review_diff obliging current.spec worktree).seq
  · intro told outcome s both
    have passing : ∀ item ∈ told, Passing item.event :=
      fun item member => (reviewing_passes (both.1 item member)).1
    have silent : runs told = 0 := no_runs fun item member => (reviewing_passes (both.1 item member)).2
    apply decides_after _ passing (by rw [silent, Nat.zero_add])
    cases outcome with
    | error error =>
        apply tells_emit_ret obliging
        intro told s aside
        exact stays current undecided told s aside
    | ok verdict =>
        apply tells_emit_seq obliging
        intro told s aside
        apply decides_after _ (aside_passing aside) (by rw [aside_runs aside, Nat.zero_add])
        by_cases approved : verdict.approved
        · rw [if_pos approved]
          exact stays { current with review := some verdict } undecided [] s
            fun _ member => absurd member List.not_mem_nil
        · rw [if_neg approved]
          exact revised verdict s
  · intro told error s both
    obtain ⟨_, reviewed, returned⟩ := both
    cases returned

theorem run_alone {event : Exchange ports} (run : isHarnessRun event = true) :
    isCommit event = false ∧ rejects event = false ∧ findsNothing event = false ∧
      concludes event = false ∧ isDiff event = false := by
  obtain ⟨request, reply⟩ := event
  cases request <;> first | exact ⟨rfl, rfl, rfl, rfl, rfl⟩ | cases run

theorem runs_one {item : Moment ports σ} (run : isHarnessRun item.event = true) :
    runs [item] = 1 := by
  unfold runs
  rw [List.countP_singleton, if_pos run]

theorem debate_told_run {item : Moment ports σ} {final : σ} (run : isHarnessRun item.event = true)
    (after : item.after = final) : DebateTold 1 [item] final none := by
  have alone := run_alone run
  constructor
  · exact (runs_one run).le
  · exact List.pairwise_singleton _ _
  · intro other member _
    rw [List.mem_singleton.mp member]
    exact after
  · intro other member
    rw [List.mem_singleton.mp member]
    exact alone.1
  · intro other member
    rw [List.mem_singleton.mp member]
    exact alone.2.2.1
  · intro other member
    rw [List.mem_singleton.mp member]
    exact alone.2.2.2.1
  · rw [noted_cons, alone.2.1]
    rfl

theorem DebateTold.longer {remaining total : Nat} {final : σ} {failure : Option FailureKind}
    (debate : DebateTold remaining told final failure) (bounded : remaining ≤ total) :
    DebateTold total told final failure :=
  { debate with bounded := debate.bounded.trans bounded }

theorem tells_recheck (obliging : Obliging answer) (executor : TaskExecutor) (task : Task)
    (revised : TaskSpec) (worktree : Worktree) (verifier : Option CommandVerifier)
    (configured : Configured executor revised verifier) (nextRun : RunResult)
    (verdict : ReviewVerdict) (again : Debated → Code Debated) {remaining : Nat}
    (goesOn : ∀ (next : Debated) s, next.failure = none → Configured executor next.spec verifier →
      Tells answer (again next) s (Decides remaining)) (state : σ) :
    Tells answer (executor.verify task revised worktree verifier >>= fun nextFailure =>
      if nextFailure.isSome then .ret ⟨nextRun, revised, nextFailure, some verdict⟩
      else again ⟨nextRun, revised, nextFailure, some verdict⟩) state (Decides remaining) := by
  apply (tells_verify obliging executor task revised worktree verifier).seq
  · intro told nextFailure s gated
    obtain ⟨failure, returned, gate⟩ := gated
    obtain rfl := Except.ok.inj returned
    cases nextFailure with
    | some kind =>
        refine ⟨⟨nextRun, revised, some kind, some verdict⟩, rfl, ?_⟩
        change DebateTold remaining (told ++ []) s (some kind)
        rw [List.append_nil]
        exact (gate.decides configured).longer (by omega)
    | none =>
        have silent : runs told = 0 := no_runs gate.runs
        apply decides_after _ gate.passing (by rw [silent, Nat.zero_add])
        exact goesOn _ s rfl configured
  · intro told error s gated
    obtain ⟨failure, returned, _⟩ := gated
    cases returned

theorem tells_revise_run (obliging : Obliging answer) (executor : TaskExecutor) (task : Task)
    (worktree : Worktree) (verifier : Option CommandVerifier) (current : Debated)
    (undecided : current.failure = none)
    (configured : Configured executor current.spec verifier) (verdict : ReviewVerdict)
    (again : Debated → Code Debated) {remaining : Nat}
    (goesOn : ∀ (next : Debated) s, next.failure = none → Configured executor next.spec verifier →
      Tells answer (again next) s (Decides remaining)) :
    Tells answer (executor.reviseRun task worktree verifier current verdict again) state
      (Decides (remaining + 1)) := by
  apply (tells_run_harness obliging task _ worktree).seq
  · intro told nextRun s ran
    obtain ⟨item, run, rfl, returned, after, harness, failed⟩ := ran
    obtain rfl := Except.ok.inj returned
    by_cases unsuccessful : !nextRun.ok
    · rw [if_pos unsuccessful]
      -- The debate ends here, in the state the failed run left.
      refine ⟨{ current with review := some verdict }, rfl, ?_⟩
      change DebateTold (remaining + 1) ([item] ++ []) s current.failure
      rw [undecided, List.append_nil]
      exact (debate_told_run harness after).longer (by omega)
    · rw [if_neg unsuccessful]
      have passing : ∀ other ∈ [item], Passing other.event := by
        intro other member
        have alone := run_alone harness
        rw [List.mem_singleton.mp member]
        exact ⟨failed.trans (Bool.of_not_eq_true unsuccessful), alone.1, alone.2.1, alone.2.2.1,
          alone.2.2.2.1⟩
      have inner := tells_recheck obliging executor task { current.spec with
        instructions := reviseInstructions current.spec.instructions verdict.notes } worktree
        verifier configured nextRun verdict again goesOn
      exact decides_after (inner s) passing (by rw [runs_one harness, Nat.add_comm])
  · intro told error s ran
    obtain ⟨item, run, _, returned, _⟩ := ran
    cases returned

theorem tells_debate_from (obliging : Obliging answer) (executor : TaskExecutor) (task : Task)
    (worktree : Worktree) (verifier : Option CommandVerifier) (remaining : Nat) (current : Debated)
    (undecided : current.failure = none)
    (configured : Configured executor current.spec verifier) :
    Tells answer (executor.debateFrom task worktree verifier remaining current) state
      (Decides remaining) := by
  induction remaining generalizing current state with
  | zero =>
      apply tells_debate_round obliging executor task worktree current undecided
      intro verdict s
      refine ⟨{ current with review := some verdict }, rfl, ?_⟩
      change DebateTold 0 [] s current.failure
      rw [undecided]
      exact debate_told_nil 0 s
  | succ remaining ih =>
      apply tells_debate_round obliging executor task worktree current undecided
      intro verdict s
      apply tells_revise_run obliging executor task worktree verifier current undecided configured
      intro next s undecided configured
      exact ih next undecided configured

theorem tells_debate (obliging : Obliging answer) (executor : TaskExecutor) (task : Task)
    (spec : TaskSpec) (worktree : Worktree) (run : RunResult) (verifier : Option CommandVerifier)
    (configured : Configured executor spec verifier) :
    Tells answer (executor.debate task spec worktree run none verifier) state
      (Decides executor.debateRounds.toNat) := by
  unfold debate
  by_cases unreviewed : !executor.reviewer || executor.debateRounds ≤ 0
  · rw [if_pos unreviewed]
    exact ⟨⟨run, spec, none, none⟩, rfl, debate_told_nil _ _⟩
  · rw [if_neg unreviewed]
    exact tells_debate_from obliging executor task worktree verifier _ _ rfl configured

theorem tells_attempt_ok {caught : Exn → Bool} {request : Request} {value : request.Result}
    {next : Except Exn request.Result → Code α} {post : Story σ → Except Exn α → σ → Prop}
    (replied : (answer request state).1 = .ok value)
    (later : Tells answer (next (.ok value)) (answer request state).2
      fun more outcome final => post (moment answer request state :: more) outcome final) :
    Tells answer (attempt caught request >>= next) state post :=
  tells_ask replied later

/-- What publishing tells: the tree is committed as it is found. -/
structure PublishTold (start : σ) (told : Story σ) (published : Published) : Prop where
  commits : ∀ item ∈ told, isCommit item.event = true → item.before = start
  committed : noted told isCommit = true
  runs : ∀ item ∈ told, isHarnessRun item.event = false
  rejects : ∀ item ∈ told, rejects item.event = false
  concluded : ∀ item ∈ told, concludes item.event = false
  diffs : ∀ item ∈ told, isDiff item.event = false
  verdict : published.failure.isSome = noted told findsNothing
  opened : published.failure = none → published.prUrl.isSome = true

/-- The requests of a publishing after its commit. -/
def Publishing : Request → Prop
  | .hasChangesSince _ _ | .push _ | .openDraftPr _ _ _ _ => True
  | _ => False

theorem publish_told {start : σ} {worktree : Worktree} {message : Str} {published : Published}
    (publishing : ∀ item ∈ told, Publishing item.event.1)
    (verdict : published.failure.isSome = noted told findsNothing)
    (opened : published.failure = none → published.prUrl.isSome = true) :
    PublishTold start (moment answer (.commitAll worktree message) start :: told) published := by
  have quiet : ∀ item ∈ told, isCommit item.event = false ∧ isHarnessRun item.event = false ∧
      Review.rejects item.event = false ∧ concludes item.event = false ∧
      isDiff item.event = false := by
    intro item member
    have asked := publishing item member
    obtain ⟨before, ⟨request, reply⟩, after⟩ := item
    cases request <;> first | exact ⟨rfl, rfl, rfl, rfl, rfl⟩ | cases asked
  constructor
  · intro item member commit
    rcases List.mem_cons.mp member with rfl | later
    · rfl
    · rw [(quiet item later).1] at commit
      cases commit
  · rfl
  · exact List.forall_mem_cons.mpr ⟨rfl, fun item member => (quiet item member).2.1⟩
  · exact List.forall_mem_cons.mpr ⟨rfl, fun item member => (quiet item member).2.2.1⟩
  · exact List.forall_mem_cons.mpr ⟨rfl, fun item member => (quiet item member).2.2.2.1⟩
  · exact List.forall_mem_cons.mpr ⟨rfl, fun item member => (quiet item member).2.2.2.2⟩
  · exact verdict
  · exact opened

theorem tells_publish (obliging : Obliging answer) (executor : TaskExecutor) (task : Task)
    (spec : TaskSpec) (worktree : Worktree) (review : Option ReviewVerdict) :
    Tells answer (executor.publish task spec worktree review) state fun told outcome _ =>
      ∃ published, outcome = .ok published ∧ PublishTold state told published := by
  obtain ⟨commit, committed⟩ := obliging.commits state worktree (commitMessage task spec)
  apply tells_attempt_ok committed
  obtain ⟨changed, compared⟩ := obliging.compares
    (answer (.commitAll worktree (commitMessage task spec)) state).2 worktree spec.baseBranch
  apply tells_attempt_ok compared
  have verdict : findsNothing (moment answer (.hasChangesSince worktree spec.baseBranch)
      (answer (.commitAll worktree (commitMessage task spec)) state).2).event = !changed := by
    unfold moment
    rw [compared]
    rfl
  cases changed with
  | false =>
      refine ⟨⟨some .noChanges, some commit, none⟩, rfl, ?_⟩
      apply publish_told
      · intro item member
        rw [List.mem_singleton.mp member]
        trivial
      · rw [noted_cons, verdict]
        rfl
      · intro none
        cases none
  | true =>
      apply tells_attempt_ok (obliging.pushes _ worktree)
      obtain ⟨pr, opened⟩ := obliging.opens
        (answer (.push worktree) (answer (.hasChangesSince worktree spec.baseBranch)
          (answer (.commitAll worktree (commitMessage task spec)) state).2).2).2
        worktree spec.baseBranch (prTitle task) (prBody task review)
      apply tells_attempt_ok opened
      refine ⟨⟨none, some commit, some pr.url⟩, rfl, ?_⟩
      apply publish_told
      · have ended : ∀ item ∈ ([] : Story σ), Publishing item.event.1 :=
          fun _ member => absurd member List.not_mem_nil
        exact List.forall_mem_cons.mpr ⟨trivial, List.forall_mem_cons.mpr
          ⟨trivial, List.forall_mem_cons.mpr ⟨trivial, ended⟩⟩⟩
      · rw [noted_cons, verdict]
        rfl
      · intro _
        rfl

/-- What a delivery tells, from the harness to the pull request. -/
structure DeliverTold (debateRounds : Int) (told : Story σ) (delivery : Delivery) : Prop where
  bounded : runs told ≤ 1 + debateRounds.toNat
  orderly : told.Pairwise Orderly
  concluded : ∀ item ∈ told, concludes item.event = false
  done : delivery.failure = none → delivery.prUrl.isSome = true ∧ noted told isCommit = true ∧
    noted told rejects = false ∧ noted told findsNothing = false
  reviewed : noted told isDiff = true → noted told rejects = false →
    noted told findsNothing = false → delivery.failure = none

theorem deliver_told_published {debateRounds : Int} {first debate published : Story σ}
    {middle : σ} {delivery : Delivery} {outcome : Published}
    (passing : ∀ item ∈ first, Passing item.event) (one : runs first = 1)
    (debated : DebateTold debateRounds.toNat debate middle none)
    (publish : PublishTold middle published outcome)
    (failure : delivery.failure = outcome.failure) (prUrl : delivery.prUrl = outcome.prUrl) :
    DeliverTold debateRounds (first ++ (debate ++ published)) delivery := by
  have start := debated.behind passing (by rw [one])
  have rejected : noted (first ++ (debate ++ published)) rejects = false := by
    rw [← List.append_assoc, noted_append, ← start.verdict, unnoted publish.rejects]
    rfl
  have nothing : noted (first ++ (debate ++ published)) findsNothing =
      noted published findsNothing := by
    rw [← List.append_assoc, noted_append, unnoted start.nothing, Bool.false_or]
  constructor
  · rw [← List.append_assoc, runs_append, no_runs publish.runs, Nat.add_zero]
    exact start.bounded
  · rw [← List.append_assoc]
    apply List.pairwise_append.mpr
    refine ⟨start.orderly, ?_, ?_⟩
    · apply List.pairwise_of_forall_mem_list
      intro item member other later
      constructor
      · exact fun _ => publish.runs other later
      · intro failed
        have run := failed_is_run failed
        rw [publish.runs item member] at run
        cases run
      · exact fun _ => publish.runs other later
    · intro item member other later
      constructor
      · exact fun _ => publish.runs other later
      · intro failed commit
        rw [publish.commits other later commit, start.last item member failed]
      · exact fun _ => publish.runs other later
  · rw [← List.append_assoc]
    exact List.forall_mem_append.mpr ⟨start.concluded, publish.concluded⟩
  · intro none
    rw [failure] at none
    refine ⟨?_, ?_, rejected, ?_⟩
    · rw [prUrl]
      exact publish.opened none
    · rw [← List.append_assoc, noted_append, publish.committed, Bool.or_true]
    · rw [nothing, ← publish.verdict, none]
      rfl
  · intro _ _ changed
    rw [nothing, ← publish.verdict] at changed
    rw [failure]
    exact Option.isSome_eq_false_iff.mp changed |> Option.isNone_iff_eq_none.mp

theorem deliver_told_stopped {remaining : Nat} {debateRounds : Int} {final : σ}
    {failure : Option FailureKind} {delivery : Delivery} {kind : FailureKind}
    (debate : DebateTold remaining told final failure) (bounded : remaining ≤ 1 + debateRounds.toNat)
    (failed : delivery.failure = some kind)
    (unreviewed : noted told isDiff = true → noted told rejects = true) :
    DeliverTold debateRounds told delivery where
  bounded := debate.bounded.trans bounded
  orderly := debate.orderly
  concluded := debate.concluded
  done none := by
    rw [failed] at none
    cases none
  reviewed diff accepted := by
    rw [unreviewed diff] at accepted
    cases accepted

theorem tells_deliver (obliging : Obliging answer) (executor : TaskExecutor) (task : Task)
    (spec : TaskSpec) (worktree : Worktree) (verifier : Option CommandVerifier) :
    Tells answer (executor.deliver task spec worktree verifier) state fun told outcome _ =>
      ∃ delivery, outcome = .ok delivery ∧ DeliverTold executor.debateRounds told delivery := by
  apply (tells_run_harness obliging task spec worktree).seq
  · intro told run s ran
    obtain ⟨item, run', rfl, returned, after, harness, failed⟩ := ran
    obtain rfl := Except.ok.inj returned
    have alone := run_alone harness
    by_cases unsuccessful : !run.ok
    · rw [if_pos unsuccessful]
      refine ⟨{ run := run, spec := spec, failure := some (exitFailure run) }, rfl, ?_⟩
      change DeliverTold _ ([item] ++ []) _
      rw [List.append_nil]
      apply deliver_told_stopped (debate_told_run harness after) (by omega) rfl
      intro diff
      rw [noted_cons, alone.2.2.2.2] at diff
      cases diff
    · rw [if_neg unsuccessful]
      have passing : ∀ other ∈ [item], Passing other.event := by
        intro other member
        rw [List.mem_singleton.mp member]
        exact ⟨failed.trans (Bool.of_not_eq_true unsuccessful), alone.1, alone.2.1, alone.2.2.1,
          alone.2.2.2.1⟩
      have undiffed : noted [item] isDiff = false := by
        rw [noted_cons, alone.2.2.2.2]
        rfl
      apply (tells_verify obliging executor task spec worktree verifier).seq
      · intro gated failure s' both
        obtain ⟨failure', returned, gate⟩ := both
        obtain rfl := Except.ok.inj returned
        cases failure with
        | some kind =>
            refine ⟨{ run := run, spec := spec, failure := some kind }, rfl, ?_⟩
            change DeliverTold _ ([item] ++ (gated ++ [])) _
            rw [List.append_nil]
            have verdict : ∃ turned : Option FailureKind, turned.isSome = noted gated rejects := by
              cases noted gated rejects with
              | false => exact ⟨none, rfl⟩
              | true => exact ⟨some kind, rfl⟩
            obtain ⟨turned, verdict⟩ := verdict
            have ended : DebateTold 0 gated s' turned := gate.ends verdict
            apply deliver_told_stopped (ended.behind passing le_rfl) _ rfl
            · intro diff
              rw [noted_append, undiffed, unnoted gate.diffs] at diff
              cases diff
            · rw [runs_one harness]
              omega
        | none =>
            have first : ∀ other ∈ [item] ++ gated, Passing other.event :=
              List.forall_mem_append.mpr ⟨passing, gate.passing⟩
            have one : runs ([item] ++ gated) = 1 := by
              rw [runs_append, runs_one harness, no_runs gate.runs]
            apply (tells_debate obliging executor task spec worktree run verifier
              (gate.passed rfl).1).seq
            · intro debate debated middle both
              obtain ⟨debated', returned, debateTold⟩ := both
              obtain rfl := Except.ok.inj returned
              cases failed : debated.failure with
              | some kind =>
                  refine ⟨{
                    run := debated.run, spec := debated.spec, failure := some kind
                    review := debated.review }, rfl, ?_⟩
                  change DeliverTold _ ([item] ++ (gated ++ (debate ++ []))) _
                  rw [List.append_nil, ← List.append_assoc]
                  apply deliver_told_stopped (debateTold.behind first le_rfl) (by rw [one]) rfl
                  intro _
                  rw [noted_append, ← debateTold.verdict, failed]
                  exact Bool.or_true _
              | none =>
                  rw [failed] at debateTold
                  simp only
                  apply (tells_publish obliging executor task debated.spec worktree
                    debated.review).seq
                  · intro published outcome final both
                    obtain ⟨outcome', returned, publishTold⟩ := both
                    obtain rfl := Except.ok.inj returned
                    refine ⟨_, rfl, ?_⟩
                    change DeliverTold _ ([item] ++ (gated ++ (debate ++ (published ++ [])))) _
                    rw [List.append_nil, ← List.append_assoc]
                    exact deliver_told_published first one debateTold publishTold rfl rfl
                  · intro published error final both
                    obtain ⟨outcome', returned, _⟩ := both
                    cases returned
            · intro debate error middle both
              obtain ⟨debated', returned, _⟩ := both
              cases returned
      · intro gated error s' both
        obtain ⟨failure', returned, _⟩ := both
        cases returned
  · intro told error s ran
    obtain ⟨item, run', _, returned, _⟩ := ran
    cases returned

theorem tells_call_ok {request : Request} {value : request.Result}
    {next : request.Result → Code α} {post : Story σ → Except Exn α → σ → Prop}
    (replied : (answer request state).1 = .ok value)
    (later : Tells answer (next value) (answer request state).2
      fun more outcome final => post (moment answer request state :: more) outcome final) :
    Tells answer (call request >>= next) state post := by
  change Tells answer (Lib.Effects.bind (@unwrap ports _ (answer request state).1) next)
    (answer request state).2
    fun more outcome final => post (moment answer request state :: more) outcome final
  rw [replied]
  exact later

/-- What the end of an execution tells: the task is ended, and then reported. -/
structure FinishTold (told : Story σ) (concluded : Bool) : Prop where
  overlooked : ∀ item ∈ told, Overlooked item.event
  verdict : noted told concludes = concluded

theorem tells_finish (obliging : Obliging answer) (executor : TaskExecutor) (running : Task)
    (evidence : ExecutedTask) (recipient : Option Str) :
    Tells answer (executor.finish running evidence recipient) state fun told _ _ =>
      FinishTold told (evidence.ok && evidence.prUrl.isSome) := by
  obtain ⟨moved, replied⟩ := obliging.moves state running (if evidence.ok then .done else .failed)
    (some ⟨some evidence.branch, evidence.commit, evidence.prUrl⟩)
  apply tells_call_ok replied
  have reporting : ∀ evidence : ExecutedTask, Asks Aside (executor.report evidence recipient) := by
    intro evidence
    apply (asks_report executor evidence recipient).mono
    intro request asked
    cases request with
    | queue op => cases op <;> trivial
    | _ => trivial
  have recording : ∀ kind data, Asks Aside (emit executor.events moved.id kind data) :=
    fun kind data => asks_emit (fun _ _ _ => trivial) executor.events moved.id kind data
  have rest := asks_bind (recording (if evidence.ok then "task.done" else "task.failed")
    [("failure".toList, Datum.ofOption (evidence.failure.map FailureKind.value)),
      ("pr_url".toList, Datum.ofOption evidence.prUrl)]) fun _ =>
    asks_bind (reporting { evidence with taskId := moved.id }) fun _ =>
      asks_ret { evidence with taskId := moved.id }
  apply (tells_asked rest _).mono
  intro told _ _ aside
  have verdict : concludes (moment answer (.queue (.transition running
      (if evidence.ok then .done else .failed)
      (some ⟨some evidence.branch, evidence.commit, evidence.prUrl⟩))) state).event =
      (evidence.ok && evidence.prUrl.isSome) := by
    unfold moment
    rw [replied]
    cases evidence.ok <;> rfl
  constructor
  · intro item member
    rcases List.mem_cons.mp member with rfl | later
    · exact ⟨rfl, rfl, rfl, rfl, rfl, rfl⟩
    · exact (aside_overlooked (aside item later)).1
  · rw [noted_cons, verdict, unnoted fun item member => (aside_overlooked (aside item member)).2,
      Bool.or_false]

structure ExecuteTold (debateRounds : Int) (told : Story σ) : Prop where
  bounded : runs told ≤ 1 + debateRounds.toNat
  orderly : told.Pairwise Orderly
  done : noted told concludes = true →
    noted told isCommit = true ∧ noted told rejects = false ∧ noted told findsNothing = false
  reviewed : noted told isDiff = true → noted told rejects = false →
    noted told findsNothing = false → noted told concludes = true

theorem execute_told_finished {debateRounds : Int} {delivery : Delivery} {running : Task}
    {worktree : Worktree} (delivered : DeliverTold debateRounds told delivery)
    (finished : FinishTold more ((evidenceOf running worktree delivery).ok &&
      (evidenceOf running worktree delivery).prUrl.isSome)) :
    ExecuteTold debateRounds (told ++ more) := by
  have quiet : ∀ {check}, (∀ event, Overlooked event → check event = false) →
      noted (told ++ more) check = noted told check := by
    intro check ignores
    rw [noted_append, unnoted fun item member => ignores item.event (finished.overlooked item member),
      Bool.or_false]
  have concluded : noted (told ++ more) concludes =
      (delivery.failure.isNone && delivery.prUrl.isSome) := by
    rw [noted_append, unnoted delivered.concluded, finished.verdict]
    rfl
  constructor
  · rw [runs_append, no_runs fun item member => (finished.overlooked item member).run, Nat.add_zero]
    exact delivered.bounded
  · apply List.pairwise_append.mpr
    refine ⟨delivered.orderly, ?_, ?_⟩
    · apply List.pairwise_of_forall_mem_list
      intro first member second _
      exact orderly_first (finished.overlooked first member).failed
        (finished.overlooked first member).commit second
    · intro first _ second member
      exact orderly_second (finished.overlooked second member).run
        (finished.overlooked second member).commit
  · intro done
    rw [concluded, Bool.and_eq_true] at done
    have all := delivered.done (Option.isNone_iff_eq_none.mp done.1)
    rw [quiet fun _ overlooked => overlooked.commit, quiet fun _ overlooked => overlooked.rejects,
      quiet fun _ overlooked => overlooked.nothing]
    exact all.2
  · rw [quiet fun _ overlooked => overlooked.diff, quiet fun _ overlooked => overlooked.rejects,
      quiet fun _ overlooked => overlooked.nothing]
    intro diff accepted changed
    have succeeded := delivered.reviewed diff accepted changed
    rw [concluded, succeeded, (delivered.done succeeded).1]
    rfl

theorem execute_told_aside (debateRounds : Int) (aside : ∀ item ∈ told, Aside item.event.1) :
    ExecuteTold debateRounds told where
  bounded := by
    rw [aside_runs aside]
    exact Nat.zero_le _
  orderly := by
    apply List.pairwise_of_forall_mem_list
    intro first member second _
    have passing := aside_passing aside first member
    exact orderly_first passing.failed passing.commit second
  done done := by
    rw [unnoted fun item member => (aside_overlooked (aside item member)).2] at done
    cases done
  reviewed diff := by
    rw [unnoted fun item member => (aside_overlooked (aside item member)).1.diff] at diff
    cases diff

theorem ExecuteTold.around {debateRounds : Int} {early late : Story σ}
    (executed : ExecuteTold debateRounds told) (first : ∀ item ∈ early, Aside item.event.1)
    (last : ∀ item ∈ late, Aside item.event.1) :
    ExecuteTold debateRounds (early ++ (told ++ late)) := by
  have quiet : ∀ check, (∀ event : Exchange ports, Aside event.1 → check event = false) →
      noted (early ++ (told ++ late)) check = noted told check := by
    intro check ignores
    rw [noted_append, noted_append, unnoted fun item member => ignores item.event (first item member),
      unnoted fun item member => ignores item.event (last item member), Bool.false_or, Bool.or_false]
  have concluded := quiet concludes fun event aside => (aside_overlooked aside).2
  have committed := quiet isCommit fun event aside => (aside_overlooked aside).1.commit
  have rejected := quiet rejects fun event aside => (aside_overlooked aside).1.rejects
  have nothing := quiet findsNothing fun event aside => (aside_overlooked aside).1.nothing
  have diffed := quiet isDiff fun event aside => (aside_overlooked aside).1.diff
  constructor
  · rw [runs_append, runs_append, aside_runs first, aside_runs last, Nat.add_zero, Nat.zero_add]
    exact executed.bounded
  · apply List.pairwise_append.mpr
    refine ⟨(execute_told_aside debateRounds first).orderly, ?_, ?_⟩
    · apply List.pairwise_append.mpr
      refine ⟨executed.orderly, (execute_told_aside debateRounds last).orderly, ?_⟩
      intro item _ other member
      have overlooked := (aside_overlooked (last other member)).1
      exact orderly_second overlooked.run overlooked.commit
    · intro item member other _
      have overlooked := (aside_overlooked (first item member)).1
      exact orderly_first overlooked.failed overlooked.commit other
  · rw [concluded, committed, rejected, nothing]
    exact executed.done
  · rw [concluded, rejected, nothing, diffed]
    exact executed.reviewed

abbrev Executes (debateRounds : Int) (told : Story σ) (_ : Except Exn ExecutedTask) (_ : σ) : Prop :=
  ExecuteTold debateRounds told

theorem executes_aside {debateRounds : Int} {program : Code ExecutedTask} (asks : Asks Aside program) :
    Tells answer program state (Executes debateRounds) :=
  (tells_asked asks state).mono fun _ _ _ aside => execute_told_aside debateRounds aside

theorem executes_after {debateRounds : Int} {program : Code α} {next : α → Code ExecutedTask}
    (asks : Asks Aside program)
    (later : ∀ value s, Tells answer (next value) s (Executes debateRounds)) :
    Tells answer (program >>= next) state (Executes debateRounds) := by
  apply (tells_asked asks state).seq
  · intro told value s aside
    apply (later value s).mono
    intro more _ _ executed
    have nothing : ∀ item ∈ ([] : Story σ), Aside item.event.1 :=
      fun _ member => absurd member List.not_mem_nil
    have whole := executed.around aside nothing
    rwa [List.append_nil] at whole
  · intro told error s aside
    exact execute_told_aside debateRounds aside

theorem asks_cleanup_aside (executor : TaskExecutor) (session : Option Sandbox)
    (worktree : Worktree) : Asks Aside (executor.cleanup session worktree) := by
  apply (asks_cleanup executor session worktree).mono
  intro request asked
  cases request <;> trivial

theorem executes_run_in (obliging : Obliging answer) (executor : TaskExecutor)
    (task running : Task) (spec : TaskSpec) (recipient : Option Str)
    (verifier : Option CommandVerifier) (worktree : Worktree) :
    Tells answer (executor.runIn task running spec recipient verifier worktree) state
      (Executes executor.debateRounds) := by
  have session : Asks Aside (executor.runSession task spec worktree) := by
    unfold runSession
    by_cases plain : !executor.sessionProvider
    · rw [if_pos plain]
      trivial
    · rw [if_neg plain]
      apply asks_catch (asks_call (by exact trivial))
      intro error
      exact asks_bind (asks_cleanup_aside executor none worktree) fun _ => trivial
  apply executes_after session
  intro session s
  have body : Tells answer (executor.deliver task spec worktree
      (executor.activeVerifier verifier session) >>= fun delivery =>
        executor.finish running (evidenceOf running worktree delivery) recipient) s
      (Executes executor.debateRounds) := by
    apply (tells_deliver obliging executor task spec worktree _).seq
    · intro told delivery middle both
      obtain ⟨delivery', returned, delivered⟩ := both
      obtain rfl := Except.ok.inj returned
      apply (tells_finish obliging executor running _ recipient).mono
      intro more _ _ finished
      exact execute_told_finished delivered finished
    · intro told error middle both
      obtain ⟨delivery', returned, _⟩ := both
      cases returned
  apply body.finally
  intro told outcome middle executed
  apply (tells_asked (asks_cleanup_aside executor session worktree) middle).mono
  intro more ended final aside
  have nothing : ∀ item ∈ ([] : Story σ), Aside item.event.1 :=
    fun _ member => absurd member List.not_mem_nil
  have whole : ExecuteTold executor.debateRounds (told ++ more) := executed.around nothing aside
  exact ⟨fun _ => whole, fun _ _ => whole⟩

variable [Unicode] [Sha256]

theorem executes_claimed (obliging : Obliging answer) (executor : TaskExecutor) (task : Task)
    (spec : TaskSpec) (recipient : Option Str) (verifier : Option CommandVerifier) :
    Tells answer (executor.executeClaimed task spec recipient verifier) state
      (Executes executor.debateRounds) := by
  apply executes_after (asks_call (by exact trivial))
  intro found s
  cases found with
  | none => exact executes_aside (asks_raise _)
  | some running =>
      apply executes_after (asks_emit (fun _ _ _ => trivial) _ _ _ _)
      intro _ s
      apply executes_after (asks_attempt (by exact trivial))
      intro created s
      cases created with
      | error error =>
          apply executes_aside
          exact asks_bind (asks_call (by exact trivial)) fun _ => trivial
      | ok worktree =>
          exact executes_run_in obliging executor task running spec recipient verifier worktree

theorem executes (obliging : Obliging answer) (executor : TaskExecutor) (task : Task)
    (spec : TaskSpec) (recipient : Option Str) (claimed : Bool)
    (verifier : Option CommandVerifier) :
    Tells answer (executor.execute task spec recipient claimed verifier) state
      (Executes executor.debateRounds) := by
  unfold execute
  by_cases already : claimed
  · rw [if_pos already]
    exact executes_claimed obliging executor task spec recipient verifier
  · rw [if_neg already]
    apply executes_after (asks_call (by exact trivial))
    intro taken s
    by_cases won : taken
    · rw [if_pos won]
      exact executes_claimed obliging executor task spec recipient verifier
    · rw [if_neg won]
      exact executes_aside (asks_raise _)

end Telling

/-!
## With and without a reviewer
-/

def unreviewed (executor : TaskExecutor) : TaskExecutor := { executor with reviewer := false }

/-- A request for the diff, with which a debate begins. -/
def Diffs : Request → Prop
  | .diff _ _ => True
  | _ => False

section Parting

variable (executor : TaskExecutor)

theorem debate_opens (task : Task) (worktree : Worktree) (verifier : Option CommandVerifier)
    (remaining : Nat) (current : Debated) :
    ∃ next, executor.debateFrom task worktree verifier remaining current =
      .ask (.diff worktree current.spec.baseBranch) next := by
  cases remaining with
  | zero => exact ⟨_, rfl⟩
  | succ remaining => exact ⟨_, rfl⟩

theorem follows_debate (task : Task) (spec : TaskSpec) (worktree : Worktree) (run : RunResult)
    (verifier : Option CommandVerifier) :
    Follows Diffs ((unreviewed executor).debate task spec worktree run none verifier)
      (executor.debate task spec worktree run none verifier) := by
  unfold debate
  by_cases closed : !executor.reviewer || executor.debateRounds ≤ 0
  · rw [if_pos closed]
    exact .same _
  · rw [if_neg closed]
    obtain ⟨next, opens⟩ := debate_opens executor task worktree verifier
      executor.debateRounds.toNat ⟨run, spec, none, none⟩
    rw [opens]
    apply Follows.parts
    trivial

theorem follows_deliver (task : Task) (spec : TaskSpec) (worktree : Worktree)
    (verifier : Option CommandVerifier) :
    Follows Diffs ((unreviewed executor).deliver task spec worktree verifier)
      (executor.deliver task spec worktree verifier) := by
  apply follows_bind
  intro run
  by_cases failed : !run.ok
  · rw [if_pos failed, if_pos failed]
    exact .same _
  · rw [if_neg failed, if_neg failed]
    apply follows_bind
    intro failure
    cases failure with
    | some kind => exact .same _
    | none => exact (follows_debate executor task spec worktree run verifier).bind _

theorem follows_run_in (task running : Task) (spec : TaskSpec) (recipient : Option Str)
    (verifier : Option CommandVerifier) (worktree : Worktree) :
    Follows Diffs ((unreviewed executor).runIn task running spec recipient verifier worktree)
      (executor.runIn task running spec recipient verifier worktree) := by
  apply follows_bind
  intro session
  apply Follows.finally
  exact (follows_deliver executor task spec worktree _).bind _

variable [Unicode] [Sha256]

theorem follows_claimed (task : Task) (spec : TaskSpec) (recipient : Option Str)
    (verifier : Option CommandVerifier) :
    Follows Diffs ((unreviewed executor).executeClaimed task spec recipient verifier)
      (executor.executeClaimed task spec recipient verifier) := by
  apply follows_bind
  intro found
  cases found with
  | none => exact .same _
  | some running =>
      apply follows_bind
      intro _
      apply follows_bind
      intro created
      cases created with
      | error error => exact .same _
      | ok worktree => exact follows_run_in executor task running spec recipient verifier worktree

theorem follows_execute (task : Task) (spec : TaskSpec) (recipient : Option Str) (claimed : Bool)
    (verifier : Option CommandVerifier) :
    Follows Diffs ((unreviewed executor).execute task spec recipient claimed verifier)
      (executor.execute task spec recipient claimed verifier) := by
  unfold execute
  by_cases already : claimed
  · rw [if_pos already, if_pos already]
    exact follows_claimed executor task spec recipient verifier
  · rw [if_neg already, if_neg already]
    apply follows_bind
    intro taken
    by_cases won : taken
    · rw [if_pos won, if_pos won]
      exact follows_claimed executor task spec recipient verifier
    · rw [if_neg won, if_neg won]
      exact .same _

end Parting

section Comparing

variable {σ T : Type} {answer : Answer ports σ} {told : Story σ} {tree : σ → T}

theorem restored_iff_kept {debateRounds : Int} (executed : ExecuteTold debateRounds told)
    (committed : noted told isCommit = true) :
    Restored tree told ↔
      ∀ item ∈ told, isFailedRun item.event = true → tree item.after = tree item.before := by
  constructor
  · intro restored item member failed
    obtain ⟨front, rest, rfl⟩ := List.append_of_mem member
    have orders := List.pairwise_append.mp executed.orderly
    have later := List.pairwise_cons.mp orders.2.1
    obtain ⟨commit, listed, commits⟩ := List.any_eq_true.mp committed
    have after : commit ∈ rest := by
      rcases List.mem_append.mp listed with early | late
      · have order := orders.2.2 commit early item (List.mem_cons_self ..)
        have run := failed_is_run failed
        rw [order.committed commits] at run
        cases run
      · rcases List.mem_cons.mp late with rfl | late
        · rw [failed_no_commit commits] at failed
          cases failed
        · exact late
    have same := restored front item rest rfl failed
      (fun other member => (later.1 other member).failed failed) commit after commits
    rw [(later.1 commit after).left failed commits] at same
    exact same
  · intro kept front rerun rest split failed _ commit member commits
    subst split
    have orders := List.pairwise_append.mp executed.orderly
    have later := List.pairwise_cons.mp orders.2.1
    rw [(later.1 commit member).left failed commits]
    exact kept rerun (List.mem_append_right _ (List.mem_cons_self ..)) failed

variable [Unicode] [Sha256]

/-- Where an execution without a reviewer publishes, the reviewer is advisory
exactly if the re-runs it asks for cooperate. -/
theorem reviewer_advisory_iff (obliging : Obliging answer) (executor : TaskExecutor) (task : Task)
    (spec : TaskSpec) (recipient : Option Str) (claimed : Bool)
    (verifier : Option CommandVerifier) (state : σ) (tree : σ → T)
    (publishes : noted (story answer
      ((unreviewed executor).execute task spec recipient claimed verifier) state).1 concludes = true) :
    Advisory tree
        (story answer (executor.execute task spec recipient claimed verifier) state).1
        executor.debateRounds ↔
      Cooperative tree
        (story answer (executor.execute task spec recipient claimed verifier) state).1 := by
  have executed : ExecuteTold executor.debateRounds
      (story answer (executor.execute task spec recipient claimed verifier) state).1 :=
    executes obliging executor task spec recipient claimed verifier
  constructor
  · intro advisory
    have done := executed.done advisory.done
    exact ⟨done.2.1, done.2.2, (restored_iff_kept executed done.1).mp advisory.restored⟩
  · intro cooperative
    have done : noted (story answer (executor.execute task spec recipient claimed verifier)
        state).1 concludes = true := by
      by_cases diff : noted (story answer (executor.execute task spec recipient claimed verifier)
        state).1 isDiff = true
      · exact executed.reviewed diff cooperative.accepted cooperative.changed
      · -- Without a debate the two executions are one.
        rw [← (follows_execute executor task spec recipient claimed verifier).story state]
        · exact publishes
        · intro item member diffs
          apply diff
          apply List.any_eq_true.mpr
          refine ⟨item, member, ?_⟩
          obtain ⟨before, ⟨request, reply⟩, after⟩ := item
          cases request <;> first | rfl | cases diffs
    have committed := (executed.done done).1
    exact ⟨done, executed.bounded, (restored_iff_kept executed committed).mpr cooperative.kept⟩

end Comparing

section Example

/-- How the next harness runs exit and what the gate says of them, and how often
the tree was edited. -/
structure Bench where
  exits : List Int
  verdicts : List Bool
  edits : Nat
deriving DecidableEq

/-- A reviewer that always asks for a revision, and a harness that edits the tree
in every run. -/
def benchPorts (request : Request) (bench : Bench) : Except Exn request.Result × Bench :=
  match request with
  | .runHarness _ _ _ =>
      (.ok { exitCode := bench.exits.headD 0 },
        { bench with exits := bench.exits.tail, edits := bench.edits + 1 })
  | .verify _ _ _ =>
      (.ok { ok := bench.verdicts.headD true, exitCode := 0 },
        { bench with verdicts := bench.verdicts.tail })
  | request => ((revisingPorts request []).1, bench)

theorem bench_obliging : Obliging benchPorts where
  commits _ _ _ := ⟨_, rfl⟩
  compares _ _ _ := ⟨_, rfl⟩
  pushes _ _ := rfl
  opens _ _ _ _ _ := ⟨_, rfl⟩
  moves _ _ _ _ := ⟨_, rfl⟩
  survives request bench error raised := by
    cases request with
    | queue op =>
        cases op with
        | get | claim | transition => cases raised
        | _ =>
            cases raised
            rfl
    | createWorktree | runHarness | verify | diff | review | commitAll | hasChangesSince | push
    | removeWorktree | openDraftPr => cases raised
    | _ =>
        cases raised
        rfl

def benchStory (executor : TaskExecutor) (bench : Bench) : Story Bench :=
  let _ := asciiTables
  let _ := exampleSha256
  (story benchPorts (executor.execute reviewedTask reviewedSpec none false none) bench).1

theorem bench_executes (bench : Bench) :
    ExecuteTold 1 (benchStory reviewedExecutor bench) := by
  let _ := asciiTables
  let _ := exampleSha256
  exact executes bench_obliging reviewedExecutor reviewedTask reviewedSpec none false none

theorem accepted_revision_advisory :
    Advisory Bench.edits (benchStory reviewedExecutor ⟨[0, 0], [true, true], 0⟩) 1 ↔
      Cooperative Bench.edits (benchStory reviewedExecutor ⟨[0, 0], [true, true], 0⟩) := by
  let _ := asciiTables
  let _ := exampleSha256
  have publishes : noted (benchStory (unreviewed reviewedExecutor) ⟨[0, 0], [true, true], 0⟩)
      concludes = true := by decide
  exact reviewer_advisory_iff bench_obliging reviewedExecutor reviewedTask reviewedSpec none false
    none ⟨[0, 0], [true, true], 0⟩ Bench.edits publishes

/-- A revision that the gate turns down fails the task, and the edits of one that
failed are published. -/
theorem revisions_not_advisory :
    Obliging benchPorts ∧
      ∀ bench ∈ [(⟨[0, 0], [true, false], 0⟩ : Bench), ⟨[0, 1], [true], 0⟩],
        noted (benchStory (unreviewed reviewedExecutor) bench) concludes = true ∧
          ¬Advisory Bench.edits (benchStory reviewedExecutor bench) 1 := by
  refine ⟨bench_obliging, ?_⟩
  intro bench member
  rcases List.mem_cons.mp member with rfl | member
  · refine ⟨by decide, ?_⟩
    intro advisory
    have failed : noted (benchStory reviewedExecutor ⟨[0, 0], [true, false], 0⟩) concludes = false := by
      decide
    rw [advisory.done] at failed
    cases failed
  · obtain rfl := List.mem_singleton.mp member
    refine ⟨by decide, ?_⟩
    intro advisory
    have executed := bench_executes ⟨[0, 1], [true], 0⟩
    have kept := (restored_iff_kept executed (executed.done advisory.done).1).mp advisory.restored
    have spoiled : ((benchStory reviewedExecutor ⟨[0, 1], [true], 0⟩).any fun item =>
        isFailedRun item.event && decide (item.after.edits ≠ item.before.edits)) = true := by
      decide
    obtain ⟨item, listed, both⟩ := List.any_eq_true.mp spoiled
    rw [Bool.and_eq_true, decide_eq_true_eq] at both
    exact both.2 (kept item listed both.1)

end Example

end DearAgent.Review
