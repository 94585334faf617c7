import DearAgent.Executor
import DearAgent.Lib.Dict

/-!
# The routing runner

`runners/routing.py`: a runner that asks a decider which runner of a table fits the task,
and remembers the choice for one task. The executor names the session of a task before it
runs the harness, so the two go by the same choice.
-/

namespace DearAgent.Routing

open DearAgent.Lib.Text DearAgent.Lib.Effects DearAgent.Lib.Dictionaries DearAgent.Queue

set_option autoImplicit false

/-- A runner, known by its identity, and its attribute `sandbox`, if it has one. -/
structure Runner where
  identity : Nat
  sandbox : Option Sandbox
deriving DecidableEq

/-- `_state`. -/
def stateText (task : Task) (spec : TaskSpec) : Str :=
  join "\n" ([task.subject.getD [], spec.instructions].filter fun part => !part.isEmpty)

structure RoutingRunner where
  runners : Dict Str Runner
  decider : Bool := true
  default : Str := "hosted"
  taskField : Task → TaskSpec → Str := stateText

/-- `_cached_task` and `_cached_choice`. -/
structure RouteCache where
  task : Option Str := none
  choice : Option Str := none
deriving DecidableEq

inductive RoutedRequest
  | port (request : Request)
  | cached
  | remember (task choice : Str)
  /-- `decision.choice("harness")` of what the decider says to the state. -/
  | decide (state : Str)
  | run (runner : Runner) (task : Task) (spec : TaskSpec) (worktree : Worktree)

@[reducible] def RoutedRequest.Reply : RoutedRequest → Type
  | .port request => Except Exn request.Result
  | .cached => RouteCache
  | .remember _ _ => Unit
  | .decide _ => Except Exn (Option Str)
  | .run _ _ _ _ => Except Exn RunResult

@[reducible] def routed : Signature where
  Request := RoutedRequest
  Reply := RoutedRequest.Reply
  Raised := Exn

abbrev Routed (α : Type) := Program routed α

namespace RoutingRunner

variable [Unicode] (router : RoutingRunner)

def runnerFor (chosen : Str) : Except Exn Runner :=
  match (router.runners.get chosen).or (router.runners.get router.default) with
  | some runner => .ok runner
  | none => .error (.keyError ("no runner registered for ".toList ++ reprText chosen ++
      " or default ".toList ++ reprText router.default))

omit [Unicode] in
def decide (task : Task) (spec : TaskSpec) : Routed Str :=
  if !router.decider then .ret router.default
  else .ask (.decide (router.taskField task spec)) fun reply =>
    match reply with
    | .ok choice => .ret (orElse choice router.default)
    | .error error => if error.isException then .ret router.default else .raise error

omit [Unicode] in
def choose (task : Task) (spec : TaskSpec) : Routed Str := do
  let cache ← @request routed .cached
  match (if cache.task = some task.id then cache.choice else none) with
  | some choice => .ret choice
  | none => do
      let chosen ← router.decide task spec
      @request routed (.remember task.id chosen)
      .ret chosen

/-- `_runner_for(_choose(task, spec))`. -/
def chosenRunner (task : Task) (spec : TaskSpec) : Routed Runner := do
  let chosen ← router.choose task spec
  @unwrap routed _ (router.runnerFor chosen)

def run (task : Task) (spec : TaskSpec) (worktree : Worktree) : Routed RunResult := do
  let runner ← router.chosenRunner task spec
  .ask (.run runner task spec worktree) (@unwrap routed _)

def sessionFor (task : Task) (spec : TaskSpec) : Routed (Option Sandbox) := do
  let runner ← router.chosenRunner task spec
  .ret runner.sandbox

def implement (request : Request) : Routed (Except Exn request.Result) :=
  match request with
  | .runHarness task spec worktree => settle (router.run task spec worktree)
  | .sessionFor task spec => settle (router.sessionFor task spec)
  | request => .ask (.port request) .ret

end RoutingRunner

/-- The collaborators may answer anything; what a cache holds is what was remembered
last, and closing a session does not raise. -/
def collaborators : Env routed RouteCache
  | .cached, s, reply, after => reply = s ∧ after = s
  | .remember task choice, _, _, after => after = ⟨some task, some choice⟩
  | .port (.closeSession _), s, reply, after => reply = .ok () ∧ after = s
  | .port _, s, _, after | .decide _, s, _, after | .run _ _ _ _, s, _, after => after = s

structure ExecuteCall where
  task : Task
  spec : TaskSpec
  recipient : Option Str
  claimed : Bool
  verifier : Option CommandVerifier

section Calls

variable [Unicode] [Sha256]

/-- `execute` of an executor whose runner is this one, which provides the session. -/
def execute (router : RoutingRunner) (executor : TaskExecutor) (call : ExecuteCall) :
    Routed ExecutedTask :=
  @through ports routed _ router.implement id
    ({ executor with sessionProvider := true }.execute call.task call.spec call.recipient
      call.claimed call.verifier)

/-- Calls one after the other, with what each of them exchanged. -/
def Executes (router : RoutingRunner) (executor : TaskExecutor) :
    RouteCache → List (ExecuteCall × List (Exchange routed)) → RouteCache → Prop
  | cache, [], final => final = cache
  | cache, (call, trace) :: rest, final => ∃ outcome middle,
      Exec collaborators (execute router executor call) cache trace outcome middle ∧
        Executes router executor middle rest final

end Calls

/-- What is seen of a call: the runners that ran the harness, the sandboxes the verify
gate ran in, and the sessions that were closed since. -/
structure Tally where
  created : Bool := false
  ran : List Runner := []
  verified : List (Option Sandbox) := []
  closed : List Sandbox := []

def tally (t : Tally) : Exchange routed → Tally
  | ⟨.run runner _ _ _, _⟩ => { t with ran := runner :: t.ran, closed := [] }
  | ⟨.port (.verify verifier _ _), _⟩ =>
      { t with verified := verifier.sandbox :: t.verified, closed := [] }
  | ⟨.port (.closeSession session), _⟩ => { t with closed := session :: t.closed }
  | ⟨.port (.createWorktree _ _ _ _), .ok _⟩ => { t with created := true }
  | _ => t

/-- One runner ran, the gate ran in its sandbox, and after all of that this sandbox and
the session of the executor were closed. -/
structure Shared (executor : TaskExecutor) (t : Tally) : Prop where
  runner : ∀ runner ∈ t.ran, ∀ other ∈ t.ran, runner = other
  verified : ∀ runner ∈ t.ran, ∀ sandbox, runner.sandbox = some sandbox →
    ∀ used ∈ t.verified, used = some sandbox
  closed : t.created = true → ∀ sandbox,
    (executor.session = some sandbox ∨ ∃ runner ∈ t.ran, runner.sandbox = some sandbox) →
      sandbox ∈ t.closed

/-!
## What the ports of an executor with a routing runner come to
-/

section Carrying

variable [Unicode]

/-- The cache holds a choice for the task, and it names this runner. -/
def Chosen (router : RoutingRunner) (task : Task) (cache : RouteCache) (runner : Runner) : Prop :=
  ∃ choice, cache = ⟨some task.id, some choice⟩ ∧ router.runnerFor choice = .ok runner

/-- Once a session was named for a task, the harness runs on the runner of that session
until another one is named. -/
def carried (router : RoutingRunner) : Env ports (RouteCache × Tally)
  | .sessionFor task _, s, reply, after => after.2 = s.2 ∧
      ∀ session, reply = .ok session → ∃ runner,
        Chosen router task after.1 runner ∧ session = runner.sandbox
  | .runHarness task _ _, s, _, after => ∀ runner, Chosen router task s.1 runner →
      after = (s.1, { s.2 with ran := runner :: s.2.ran, closed := [] })
  | .closeSession session, s, reply, after => reply = .ok () ∧
      after = (s.1, { s.2 with closed := session :: s.2.closed })
  | request, s, reply, after => after = (s.1, tally s.2 ⟨.port request, reply⟩)

variable (router : RoutingRunner) (task : Task) (spec : TaskSpec) (s : RouteCache × Tally)
  {may : RouteCache × Tally → RoutedRequest → Prop}

omit [Unicode] in
theorem decide_met (permitted : ∀ s request, may s request) :
    Meets (recording collaborators tally) may (router.decide task spec) s
      fun after _ => after = s := by
  unfold RoutingRunner.decide
  split_ifs
  · rfl
  · apply And.intro (permitted _ _)
    intro reply after answered
    have kept : after = s := Prod.ext answered.1 answered.2
    cases reply with
    | ok choice => exact kept
    | error error =>
        simp only
        split_ifs
        · exact kept
        · exact kept

omit [Unicode] in
theorem choose_met (permitted : ∀ s request, may s request) :
    Meets (recording collaborators tally) may (router.choose task spec) s
      fun after outcome => after.2 = s.2 ∧
        (∀ choice, outcome = .ok choice → after.1 = ⟨some task.id, some choice⟩) ∧
        ∀ choice, s.1 = ⟨some task.id, some choice⟩ → after = s ∧ outcome = .ok choice := by
  unfold RoutingRunner.choose
  rw [meets_bind]
  apply And.intro (permitted _ _)
  intro cache after answered
  obtain rfl : cache = s.1 := answered.1.1
  obtain rfl : s = after := Eq.symm (Prod.ext answered.1.2 answered.2)
  rw [meets_ret, sequel_ok]
  cases known : (if s.1.task = some task.id then s.1.choice else none) with
  | some choice =>
      have cached : s.1.task = some task.id ∧ s.1.choice = some choice := by
        split_ifs at known with same
        exact ⟨same, known⟩
      have held : s.1 = ⟨some task.id, some choice⟩ := by rw [← cached.1, ← cached.2]
      apply And.intro rfl
      apply And.intro
      · intro other returned
        rw [held, Except.ok.inj returned]
      · intro other stored
        rw [stored] at cached
        exact ⟨rfl, congrArg Except.ok (Option.some.inj cached.2.symm)⟩
  | none =>
      have absent : ∀ choice, s.1 ≠ ⟨some task.id, some choice⟩ := by
        intro choice stored
        simp [stored] at known
      apply (decide_met router task spec s permitted).seq
      · intro after choice same
        obtain rfl : s = after := Eq.symm same
        apply And.intro (permitted _ _)
        intro reply after answered
        apply And.intro answered.2
        apply And.intro
        · intro other returned
          rw [answered.1, Except.ok.inj returned]
        · intro other stored
          exact absurd stored (absent other)
      · intro after error same
        obtain rfl : s = after := Eq.symm same
        apply And.intro rfl
        apply And.intro
        · intro choice returned
          cases returned
        · intro choice stored
          exact absurd stored (absent choice)

theorem chosen_runner_met (permitted : ∀ s request, may s request) :
    Meets (recording collaborators tally) may (router.chosenRunner task spec) s
      fun after outcome => after.2 = s.2 ∧
        (∀ runner, outcome = .ok runner → Chosen router task after.1 runner) ∧
        ∀ runner, Chosen router task s.1 runner → after = s ∧ outcome = .ok runner := by
  apply (choose_met router task spec s permitted).seq
  · intro after choice chosen
    have ended : Meets (recording collaborators tally) may
        (@unwrap routed _ (router.runnerFor choice)) after fun last outcome =>
          last = after ∧ outcome = router.runnerFor choice := by
      cases router.runnerFor choice
      · exact ⟨rfl, rfl⟩
      · exact ⟨rfl, rfl⟩
    apply ended.post
    intro last outcome both
    obtain ⟨rfl, rfl⟩ := both
    apply And.intro chosen.1
    apply And.intro
    · intro runner found
      exact ⟨choice, chosen.2.1 choice rfl, found⟩
    · intro runner stored
      obtain ⟨other, held, found⟩ := stored
      have again := chosen.2.2 other held
      rw [again.1, Except.ok.inj again.2]
      exact ⟨rfl, found⟩
  · intro after error chosen
    apply And.intro chosen.1
    apply And.intro
    · intro runner found
      cases found
    · intro runner stored
      obtain ⟨other, held, found⟩ := stored
      cases (chosen.2.2 other held).2

theorem carries (permitted : ∀ s request, may s request) (request : Request) :
    Meets (recording collaborators tally) may (router.implement request) s fun after outcome =>
      ∃ reply, outcome = .ok reply ∧ carried router request s reply after := by
  cases request with
  | sessionFor task spec =>
      apply (meets_settle _ _ _).mpr
      apply (chosen_runner_met router task spec s permitted).seq
      · intro after runner chosen
        refine ⟨_, rfl, chosen.1, ?_⟩
        intro session named
        exact ⟨runner, chosen.2.1 runner rfl, (Except.ok.inj named).symm⟩
      · intro after error chosen
        refine ⟨_, rfl, chosen.1, ?_⟩
        intro session named
        cases named
  | runHarness task spec worktree =>
      apply (meets_settle _ _ _).mpr
      apply (chosen_runner_met router task spec s permitted).seq
      · intro after runner chosen
        apply And.intro (permitted _ _)
        intro reply last answered
        have ended : ∀ outcome, ∃ result, (Except.ok outcome : Except Exn (Except Exn RunResult)) =
            .ok result ∧ carried router (.runHarness task spec worktree) s result last := by
          intro outcome
          refine ⟨outcome, rfl, ?_⟩
          intro known stored
          have again := chosen.2.2 known stored
          rw [← again.1, ← Except.ok.inj again.2]
          exact Prod.ext answered.1 answered.2
        cases reply
        · exact ended _
        · exact ended _
      · intro after error chosen
        refine ⟨_, rfl, ?_⟩
        intro known stored
        cases (chosen.2.2 known stored).2
  | closeSession session =>
      apply And.intro (permitted _ _)
      intro reply after answered
      exact ⟨reply, rfl, answered.1.1, Prod.ext answered.1.2 answered.2⟩
  | _ =>
      apply And.intro (permitted _ _)
      intro reply after answered
      exact ⟨reply, rfl, Prod.ext answered.1 answered.2⟩

end Carrying

/-!
## One execution on these ports
-/

section Executing

variable [Unicode] (router : RoutingRunner) (executor : TaskExecutor) (task : Task)

/-- What leaves no trace in the tally, and may come before the worktree is there. -/
def Quiet : Request → Prop
  | .createWorktree _ _ _ _ | .sessionFor _ _ | .closeSession _ | .runHarness _ _ _
  | .verify _ _ _ => False
  | _ => True

/-- What is asked in the worktree of a task, with the session of its run. -/
def Working (session : Option Sandbox) : Request → Prop
  | .runHarness asked _ _ => asked = task
  | .verify active _ _ => ∀ sandbox, session = some sandbox → active.sandbox = some sandbox
  | .createWorktree _ _ _ _ | .sessionFor _ _ | .closeSession _ => False
  | _ => True

/-- The work so far was done on the chosen runner and in its sandbox. -/
structure Together (runner : Runner) (s : RouteCache × Tally) : Prop where
  chosen : Chosen router task s.1 runner
  same : ∀ ran ∈ s.2.ran, ran = runner
  verified : ∀ sandbox, runner.sandbox = some sandbox → ∀ used ∈ s.2.verified, used = some sandbox

variable {router task}

theorem carried_quiet {request : Request} (quiet : Quiet request) {s after : RouteCache × Tally}
    {reply : Except Exn request.Result} (answered : carried router request s reply after) :
    after = s := by
  cases request with
  | createWorktree => exact quiet.elim
  | closeSession => exact quiet.elim
  | verify => exact quiet.elim
  | sessionFor => exact quiet.elim
  | runHarness => exact quiet.elim
  | _ => exact answered

theorem together_kept {runner : Runner} {request : Request} {s after : RouteCache × Tally}
    {reply : Except Exn request.Result} (together : Together router task runner s)
    (working : Working task runner.sandbox request)
    (answered : carried router request s reply after) : Together router task runner after := by
  have unchanged : Quiet request → Together router task runner after := by
    intro quiet
    rw [carried_quiet quiet answered]
    exact together
  cases request with
  | runHarness asked spec worktree =>
      obtain rfl : asked = task := working
      obtain rfl := answered runner together.chosen
      constructor
      · exact together.chosen
      · intro ran member
        cases member with
        | head => rfl
        | tail _ earlier => exact together.same ran earlier
      · exact together.verified
  | verify active command path =>
      obtain rfl : after = (s.1, tally s.2 ⟨.port (.verify active command path), reply⟩) := answered
      constructor
      · exact together.chosen
      · exact together.same
      · intro sandbox provided used member
        cases member with
        | head => exact working sandbox provided
        | tail _ earlier => exact together.verified sandbox provided used earlier
  | createWorktree => exact working.elim
  | sessionFor => exact working.elim
  | closeSession => exact working.elim
  | _ => exact unchanged trivial

omit [Unicode] in
theorem working_delivers (verifier : Option CommandVerifier) (session : Option Sandbox) :
    executor.Delivers (Working task session) task (executor.activeVerifier verifier session) where
  records _ _ _ := trivial
  runs _ _ := rfl
  verifies active command path gate := by
    intro sandbox provided
    unfold TaskExecutor.activeVerifier at gate
    cases own : verifier.or executor.verifier with
    | none =>
        cases verifier with
        | none =>
            rw [Option.none_or] at own
            simp [own] at gate
        | some given => cases own
    | some used =>
        simp only [own, provided, Option.map_some, Option.some_or, Option.isSome_some,
          if_true, Option.some.injEq] at gate
        rw [← gate]
  diffs _ _ := trivial
  reviews _ _ := trivial
  publishes request asked := by
    cases request with
    | createWorktree => exact asked.elim
    | closeSession => exact asked.elim
    | sessionFor => exact asked.elim
    | runHarness => exact asked.elim
    | verify => exact asked.elim
    | _ => trivial

omit [Unicode] in
theorem asks_finish_quiet (running : Task) (evidence : ExecutedTask) (recipient : Option Str) :
    Asks Quiet (executor.finish running evidence recipient) := by
  apply asks_bind (asks_call (by exact trivial))
  intro final
  apply asks_bind (asks_emit (fun _ _ _ => trivial) _ _ _ _)
  intro _
  refine asks_bind ?_ fun _ => trivial
  apply (TaskExecutor.asks_report executor _ recipient).mono
  intro request asked
  cases request with
  | queue op => trivial
  | record => trivial
  | send => trivial
  | _ => exact asked.elim

variable {may : RouteCache × Tally → Request → Prop} (s : RouteCache × Tally)

theorem close_met (permitted : ∀ s request, may s request) (session : Option Sandbox) :
    Meets (carried router) may (TaskExecutor.close session) s fun after outcome =>
      outcome = .ok () ∧ after = (s.1, { s.2 with closed := session.toList ++ s.2.closed }) := by
  cases session with
  | none => exact ⟨rfl, rfl⟩
  | some session =>
      apply meets_call (permitted _ _)
      intro reply after answered
      exact answered

theorem cleanup_met (permitted : ∀ s request, may s request) (session : Option Sandbox)
    (worktree : Worktree) :
    Meets (carried router) may (executor.cleanup session worktree) s fun after _ =>
      ∃ closed, after.2 = { s.2 with closed := closed } ∧ ∀ sandbox,
        (executor.session = some sandbox ∨ session = some sandbox) → sandbox ∈ closed := by
  apply (close_met s permitted _).seq
  · intro first _ ended
    obtain ⟨_, rfl⟩ := ended
    apply (close_met _ permitted _).seq
    · intro second _ ended
      obtain ⟨_, rfl⟩ := ended
      apply meets_call (permitted _ _)
      intro reply after answered
      rw [carried_quiet (by exact trivial) answered]
      refine ⟨_, rfl, ?_⟩
      intro sandbox one
      rw [List.mem_append, List.mem_append, Option.mem_toList, Option.mem_toList]
      cases one with
      | inl own => exact .inl own
      | inr used =>
          by_cases same : session = executor.session
          · exact .inl (same ▸ used)
          · rw [if_neg same]
            exact .inr (.inl used)
    · intro last error ended
      cases ended.1
  · intro last error ended
    cases ended.1

theorem run_in_met (permitted : ∀ s request, may s request) (running : Task) (spec : TaskSpec)
    (recipient : Option Str) (verifier : Option CommandVerifier) (worktree : Worktree)
    (provides : executor.sessionProvider = true) (unused : s.2.ran = [] ∧ s.2.verified = []) :
    Meets (carried router) may
      (executor.runIn task running spec recipient verifier worktree) s
      fun after _ => Shared executor after.2 := by
  have ends : ∀ (middle : RouteCache × Tally) (session : Option Sandbox),
      (∀ runner ∈ middle.2.ran, Together router task runner middle ∧ runner.sandbox = session) →
      Meets (carried router) may (executor.cleanup session worktree) middle
        fun after _ => Shared executor after.2 := by
    intro middle session together
    apply (cleanup_met executor middle permitted session worktree).post
    intro after _ cleaned
    obtain ⟨closed, kept, every⟩ := cleaned
    rw [kept]
    apply Shared.mk
    · intro runner member other member'
      rw [(together runner member).1.same other member']
    · intro runner member
      exact (together runner member).1.verified
    · intro _ sandbox one
      apply every
      cases one with
      | inl own => exact .inl own
      | inr used =>
          obtain ⟨runner, member, provided⟩ := used
          rw [← (together runner member).2]
          exact .inr provided
  have session : Meets (carried router) may (executor.runSession task spec worktree) s
      fun after outcome => (∀ session, outcome = .ok session → ∃ runner,
          Together router task runner after ∧ runner.sandbox = session) ∧
        ((∃ error, outcome = .error error) → Shared executor after.2) := by
    unfold TaskExecutor.runSession
    rw [if_neg (by simp [provides]), meets_catch]
    apply meets_call (permitted _ _)
    intro reply after answered
    cases reply with
    | ok session =>
        apply And.intro
        · intro other returned
          obtain ⟨runner, chosen, named⟩ := answered.2 session rfl
          refine ⟨runner, Together.mk chosen ?_ ?_, ?_⟩
          · simp [answered.1, unused.1]
          · simp [answered.1, unused.2]
          · rw [← named, Except.ok.inj returned]
        · intro failed
          cases failed with
          | intro error other => cases other
    | error error =>
        have cleaning := ends after none (by simp [answered.1, unused.1])
        apply cleaning.seq
        · intro last _ shared
          apply And.intro _ (fun _ => shared)
          intro session returned
          cases returned
        · intro last _ shared
          apply And.intro _ (fun _ => shared)
          intro session returned
          cases returned
  apply session.seq
  · intro after session named
    obtain ⟨runner, together, provided⟩ := named.1 session rfl
    subst provided
    have delivering : Asks (Working task runner.sandbox)
        (executor.deliver task spec worktree (executor.activeVerifier verifier runner.sandbox)
          >>= fun delivery =>
            executor.finish running (TaskExecutor.evidenceOf running worktree delivery) recipient) := by
      apply asks_bind
      · exact TaskExecutor.deliver_asks spec worktree (working_delivers executor verifier _)
      · intro delivery
        apply (asks_finish_quiet executor running _ recipient).mono
        intro request quiet
        cases request with
        | createWorktree => exact quiet.elim
        | closeSession => exact quiet.elim
        | sessionFor => exact quiet.elim
        | runHarness => exact quiet.elim
        | verify => exact quiet.elim
        | _ => trivial
    apply (delivering.meets (Together router task runner) (fun _ _ _ _ => permitted _ _)
      (fun _ _ _ _ => together_kept) together).finally
    intro middle outcome kept
    apply (ends middle runner.sandbox ?_).post
    · intro last ended shared
      exact ⟨fun _ => shared, fun _ _ => shared⟩
    · intro ran member
      rw [kept.same ran member]
      exact ⟨kept, rfl⟩
  · intro after error failed
    exact failed.2 ⟨error, rfl⟩

def Unseen (s : RouteCache × Tally) : Prop := s.2 = {}

omit [Unicode] in
theorem Unseen.shared {executor : TaskExecutor} {s : RouteCache × Tally} (unseen : Unseen s) :
    Shared executor s.2 := by
  rw [unseen]
  constructor
  · intro runner member
    cases member
  · intro runner member
    cases member
  · intro created
    cases created

theorem quiet_met {α : Type} {program : Code α} (permitted : ∀ s request, may s request)
    (asks : Asks Quiet program) (unseen : Unseen s) :
    Meets (carried router) may program s fun after _ => Unseen after := by
  apply asks.meets Unseen (fun _ _ _ _ => permitted _ _)
  · intro state request reply after before quiet answered
    rw [carried_quiet quiet answered]
    exact before
  · exact unseen

variable [Sha256]

theorem execute_met (permitted : ∀ s request, may s request) (spec : TaskSpec)
    (recipient : Option Str) (claimed : Bool) (verifier : Option CommandVerifier)
    (provides : executor.sessionProvider = true) (unseen : Unseen s) :
    Meets (carried router) may (executor.execute task spec recipient claimed verifier) s
      fun after _ => Shared executor after.2 := by
  have running : ∀ (running : Task) (s : RouteCache × Tally), Unseen s →
      Meets (carried router) may
        (executor.executeRunning task running spec recipient verifier) s
        fun after _ => Shared executor after.2 := by
    intro running s unseen
    have noted : Asks Quiet (emit executor.events task.id "task.claimed") :=
      asks_emit (fun _ _ _ => trivial) _ _ _ _
    apply (quiet_met s permitted noted unseen).seq
    · intro s _ unseen
      apply meets_attempt_bind (permitted _ _)
      · intro worktree after answered
        obtain rfl : after = (s.1, { s.2 with created := true }) := answered
        apply run_in_met executor _ permitted running spec recipient verifier worktree provides
        simp [show s.2 = {} from unseen]
      · intro error after answered _
        obtain rfl : s = after := Eq.symm answered
        have ending : Asks Quiet (do
            let _ ← Queue.transition running .failed
            (.raise error : Code ExecutedTask)) := asks_bind (asks_call trivial) fun _ => trivial
        exact (quiet_met s permitted ending unseen).post fun _ _ => Unseen.shared
      · intro error after answered _
        obtain rfl : s = after := Eq.symm answered
        exact unseen.shared
    · intro s _ unseen
      exact unseen.shared
  have claimed : ∀ s : RouteCache × Tally, Unseen s →
      Meets (carried router) may (executor.executeClaimed task spec recipient verifier) s
        fun after _ => Shared executor after.2 := by
    intro s unseen
    have reading : Asks Quiet (Queue.get task.id) := asks_call trivial
    apply (quiet_met s permitted reading unseen).seq
    · intro s found unseen
      cases found with
      | none => exact unseen.shared
      | some found => exact running found s unseen
    · intro s _ unseen
      exact unseen.shared
  unfold TaskExecutor.execute
  split_ifs
  · exact claimed s unseen
  · have claiming : Asks Quiet (Queue.claim task executor.lease) := asks_call trivial
    apply (quiet_met s permitted claiming unseen).seq
    · intro s won unseen
      split_ifs
      · exact claimed s unseen
      · exact unseen.shared
    · intro s _ unseen
      exact unseen.shared

end Executing

section Sharing

variable [Unicode] [Sha256]

theorem routed_met (router : RoutingRunner) (executor : TaskExecutor) (call : ExecuteCall)
    (cache : RouteCache) :
    Meets (recording collaborators tally) (fun _ _ => True) (execute router executor call) (cache, {})
      fun after _ => Shared executor after.2 := by
  have carried : ∀ request s, Meets (recording collaborators tally) (fun _ _ => True)
      (router.implement request) s fun after outcome =>
        ∃ reply, outcome = .ok reply ∧ carried router request s reply after :=
    fun request s => carries router s (fun _ _ => trivial) request
  have met : Meets (Routing.carried router) (fun _ _ => True)
      ({ executor with sessionProvider := true }.execute call.task call.spec call.recipient
        call.claimed call.verifier) (cache, {})
      fun after _ => Shared { executor with sessionProvider := true } after.2 :=
    execute_met _ _ (fun _ _ => trivial) _ _ _ _ rfl rfl
  apply Meets.through carried _ _ met
  · intro s _ shared
    exact ⟨shared.runner, shared.verified, shared.closed⟩
  · intro s _ shared
    exact ⟨shared.runner, shared.verified, shared.closed⟩

/-- In each of the calls, made one after the other, the harness runs on one runner, the
verify gate in its sandbox, and both sessions are closed at the end. -/
theorem session_shared (router : RoutingRunner) (executor : TaskExecutor) (cache final : RouteCache)
    (calls : List (ExecuteCall × List (Exchange routed)))
    (executes : Executes router executor cache calls final) :
    ∀ call ∈ calls, Shared executor (call.2.foldl tally {}) := by
  induction calls generalizing cache with
  | nil =>
      intro call member
      cases member
  | cons first rest ih =>
      obtain ⟨outcome, middle, execution, later⟩ := executes
      intro call member
      cases member with
      | tail _ further => exact ih middle later call further
      | head =>
          have recorded := exec_recorded execution tally {}
          exact (routed_met router executor first.1 cache).sound recorded

end Sharing

section Example

@[reducible] def routedSha256 : Sha256 :=
  ⟨fun _ => "ca0df2c95aa144c1d0ff2ff3c8f967fdc1de9ef0c4120b3726416701b519d619"⟩

def localRunner : Runner := ⟨1, some ⟨11⟩⟩

def hostedRunner : Runner := ⟨2, some ⟨12⟩⟩

def twoRunners : RoutingRunner where
  runners := (Dict.empty.set "local".toList localRunner).set "hosted".toList hostedRunner

def debatingExecutor : TaskExecutor where
  repoPath := "/repo"
  worktreesRoot := "/work"
  verifier := some { allowed := [["make".toList, "test".toList]] }
  session := some ⟨10⟩
  reviewer := true
  debateRounds := 1

def debatedCall (id : Str) : ExecuteCall where
  task := { id := id, transportId := id, state := .running, createdAt := 0 }
  spec := { repoUrl := "acme/widget", instructions := "Fix it", verify := some "make test" }
  recipient := none
  claimed := true
  verifier := none

/-- Surroundings in which the reviewer asks for a revision, and the decider says something
else once a choice was remembered. -/
def answerRouted (request : RoutedRequest) (cache : RouteCache) :
    RoutedRequest.Reply request × RouteCache :=
  match request with
  | .cached => (cache, cache)
  | .remember task choice => ((), ⟨some task, some choice⟩)
  | .decide _ => (.ok (some (if cache.task.isNone then "local" else "hosted")), cache)
  | .run _ _ _ _ => (.ok { exitCode := 0 }, cache)
  | .port request =>
      (match request with
      | .queue (.get id) => .ok (some { (debatedCall id).task with state := .running })
      | .queue (.transition task toState _) => .ok { task with state := toState }
      | .createWorktree repo root slug _ =>
          .ok ⟨repo, root ++ '/' :: slug, "dear-agent/".toList ++ slug⟩
      | .verify _ _ _ => .ok { ok := true, exitCode := 0 }
      | .diff _ _ => .ok []
      | .review _ _ => .ok { approved := false, notes := "Handle the empty case." }
      | .commitAll _ _ => .ok "0123abc"
      | .hasChangesSince _ _ => .ok true
      | .push _ | .removeWorktree _ | .closeSession _ => .ok ()
      | .openDraftPr _ _ _ _ => .ok { url := "https://forge.example/pr/1" }
      | _ => .error .assertionError, cache)

theorem answer_routed_collaborates (request : RoutedRequest) (cache : RouteCache) :
    collaborators request cache (answerRouted request cache).1 (answerRouted request cache).2 := by
  cases request with
  | cached => exact ⟨rfl, rfl⟩
  | port request =>
      cases request with
      | closeSession => exact ⟨rfl, rfl⟩
      | _ => rfl
  | _ => rfl

def debatedRun (id : Str) (cache : RouteCache) :=
  let _ := asciiTables
  let _ := routedSha256
  Lib.Effects.run answerRouted (execute twoRunners debatingExecutor (debatedCall id)) cache

def secondCache : RouteCache := (debatedRun "m1" {}).2.2

theorem two_tasks_shared :
    ((debatedRun "m1" {}).1.foldl tally {}).ran = [localRunner, localRunner] ∧
      ((debatedRun "m2" secondCache).1.foldl tally {}).ran = [hostedRunner, hostedRunner] ∧
      ∀ call ∈ [(debatedCall "m1", (debatedRun "m1" {}).1),
        (debatedCall "m2", (debatedRun "m2" secondCache).1)],
        Shared debatingExecutor (call.2.foldl tally {}) := by
  let _ := asciiTables
  let _ := routedSha256
  have executes : ∀ id cache, Exec collaborators
      (execute twoRunners debatingExecutor (debatedCall id)) cache (debatedRun id cache).1
      (debatedRun id cache).2.1 (debatedRun id cache).2.2 :=
    fun _ _ => exec_run collaborators answerRouted answer_routed_collaborates _ _
  apply And.intro (by decide)
  apply And.intro (by decide)
  exact session_shared twoRunners debatingExecutor {} (debatedRun "m2" secondCache).2.2 _
    ⟨_, _, executes "m1" {}, _, _, executes "m2" secondCache, rfl⟩

end Example

end DearAgent.Routing
