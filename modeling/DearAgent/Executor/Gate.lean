import Mathlib.Data.List.Induction
import DearAgent.Executor

/-!
# What the verify gate says about a published change

A watch over the exchanges of one execution: whether the gate passed since the
last harness run, whether a harness run failed, and whether the worktree was
committed. The gate is sound for an execution that publishes exactly where none
of its harness runs failed: a re-run of the debate that fails leaves its edits
behind, and the change is published without another look at it.
-/

namespace DearAgent.TaskExecutor

open DearAgent.Lib.Text DearAgent.Lib.Effects DearAgent.Queue

set_option autoImplicit false

def isHarnessRun : Exchange ports → Bool
  | ⟨.runHarness _ _ _, _⟩ => true
  | _ => false

def isFailedRun : Exchange ports → Bool
  | ⟨.runHarness _ _ _, .ok run⟩ => !run.ok
  | ⟨.runHarness _ _ _, .error _⟩ => true
  | _ => false

def passes (command : Str) : Exchange ports → Bool
  | ⟨.verify _ ran _, .ok result⟩ => ran = command && result.ok && !result.blocked
  | _ => false

def isCommit : Exchange ports → Bool
  | ⟨.commitAll _ _, _⟩ => true
  | _ => false

def isPush : Exchange ports → Bool
  | ⟨.push _, _⟩ => true
  | _ => false

/-- The gate passed and no harness ran after it. -/
def VerifiedLast (command : Str) (trace : List (Exchange ports)) : Prop :=
  ∃ earlier pass later, trace = earlier ++ pass :: later ∧ passes command pass = true ∧
    ∀ event ∈ later, isHarnessRun event = false

/-- Whatever was committed and pushed had passed the gate after the last harness run. -/
def GateSound (command : Str) (trace : List (Exchange ports)) : Prop :=
  ∀ before commit after, trace = before ++ commit :: after → isCommit commit = true →
    (∃ event ∈ after, isPush event = true) → VerifiedLast command before

/-- If anything is pushed, every harness run succeeded. -/
def PublishesAfterSuccess (trace : List (Exchange ports)) : Prop :=
  (∃ event ∈ trace, isPush event = true) → ∀ event ∈ trace, isFailedRun event = false

structure Watch where
  verified : Bool := false
  failed : Bool := false
  committed : Bool := false

section Watching

variable (command : Str)

def watch (w : Watch) (event : Exchange ports) : Watch where
  verified := if isHarnessRun event then false else w.verified || passes command event
  failed := w.failed || isFailedRun event
  committed := w.committed || isCommit event

theorem watched_failed (trace : List (Exchange ports)) (w : Watch) :
    (trace.foldl (watch command) w).failed = (w.failed || trace.any isFailedRun) := by
  induction trace generalizing w with
  | nil => simp
  | cons event rest ih => rw [List.foldl_cons, ih, List.any_cons, watch, Bool.or_assoc]

theorem watched_committed (trace : List (Exchange ports)) (w : Watch) :
    (trace.foldl (watch command) w).committed = (w.committed || trace.any isCommit) := by
  induction trace generalizing w with
  | nil => simp
  | cons event rest ih => rw [List.foldl_cons, ih, List.any_cons, watch, Bool.or_assoc]

theorem passes_no_run {event : Exchange ports} (pass : passes command event = true) :
    isHarnessRun event = false := by
  obtain ⟨request, reply⟩ := event
  cases request <;> first | rfl | cases pass

theorem watched_verified (trace : List (Exchange ports)) :
    (trace.foldl (watch command) {}).verified = true ↔ VerifiedLast command trace := by
  induction trace using List.reverseRecOn with
  | nil =>
      constructor
      · intro verified
        cases verified
      · rintro ⟨earlier, pass, later, shape, _⟩
        exact absurd shape.symm (List.append_ne_nil_of_right_ne_nil _ (List.cons_ne_nil _ _))
  | append_singleton trace event ih =>
      have step : (watch command (trace.foldl (watch command) {}) event).verified = true ↔
          isHarnessRun event = false ∧
            (VerifiedLast command trace ∨ passes command event = true) := by
        rw [← ih, watch]
        cases isHarnessRun event <;> simp
      rw [List.foldl_concat, step]
      constructor
      · rintro ⟨silent, ⟨earlier, pass, later, rfl, passed, quiet⟩ | passed⟩
        · refine ⟨earlier, pass, later ++ [event], by simp, passed, fun other member => ?_⟩
          rcases List.mem_append.mp member with inside | last
          · exact quiet other inside
          · rw [List.mem_singleton.mp last]
            exact silent
        · exact ⟨trace, event, [], rfl, passed, by simp⟩
      · rintro ⟨earlier, pass, later, shape, passed, quiet⟩
        rcases split_concat shape with ⟨_, _, rfl⟩ | ⟨tail, rfl, rfl⟩
        · exact ⟨passes_no_run command passed, .inr passed⟩
        · exact ⟨quiet event (by simp), .inl ⟨earlier, pass, tail, rfl, passed,
            fun other member => quiet other (by simp [member])⟩⟩

/-- What an execution asks as long as it keeps the gate: it commits a change
that passed unless a harness run failed, and what it pushes it has committed. -/
def mayAsk (w : Watch) : Request → Prop
  | .commitAll _ _ => w.verified = !w.failed
  | .runHarness _ _ _ => w.committed = false
  | .push _ => w.committed = true
  | _ => True

def Quiet : Request → Prop
  | .runHarness _ _ _ | .verify _ _ _ | .commitAll _ _ | .push _ => False
  | _ => True

theorem watch_quiet (w : Watch) (event : Exchange ports) (quiet : Quiet event.1) :
    watch command w event = w := by
  obtain ⟨request, reply⟩ := event
  cases request <;> first | exact absurd quiet id | simp [watch, isHarnessRun, passes, isFailedRun, isCommit]

variable {command} {α : Type}

theorem quiet_meets {program : Code α} (quiet : Asks Quiet program) (w : Watch) :
    Meets (observing (watch command)) mayAsk program w fun w' _ => w' = w := by
  refine quiet.meets (fun w' => w' = w) ?_ ?_ rfl
  · intro w' request _ asked
    cases request <;> first | exact absurd asked id | trivial
  · intro w' request reply after same asked answered
    have kept := watch_quiet command w' ⟨request, reply⟩ asked
    rw [answered, kept, same]

theorem quiet_bind {β : Type} {program : Code α} {next : α → Code β} {w : Watch}
    {post : Watch → Except Exn β → Prop} (quiet : Asks Quiet program)
    (returned : ∀ value, Meets (observing (watch command)) mayAsk (next value) w post)
    (raised : ∀ error, post w (.error error)) :
    Meets (observing (watch command)) mayAsk (program >>= next) w post :=
  (quiet_meets quiet w).seq (fun _ value same => same ▸ returned value)
    fun _ error same => same ▸ raised error

theorem quiet_emit (events : Bool) (taskId kind : Str) (data : EventData) :
    Asks Quiet (emit events taskId kind data) := asks_emit (fun _ _ _ => trivial) events taskId kind data

theorem run_harness_watched (task : Task) (spec : TaskSpec) (worktree : Worktree) (w : Watch)
    (pending : w.committed = false) :
    Meets (observing (watch command)) mayAsk (runHarness task spec worktree) w fun w' outcome =>
      ∀ run, outcome = .ok run → w' = ⟨false, w.failed || !run.ok, false⟩ := by
  have watched : ∀ reply, watch command w ⟨.runHarness task spec worktree, reply⟩ =
      ⟨false, w.failed || isFailedRun ⟨.runHarness task spec worktree, reply⟩, false⟩ := by
    intro reply
    rw [watch, pending]
    rfl
  refine meets_attempt_bind pending ?_ ?_ ?_
  · intro run after answered run' returned
    obtain rfl : run = run' := Except.ok.inj returned
    rw [answered, watched]
    rfl
  · intro error after answered _ run returned
    obtain rfl := Except.ok.inj returned
    rw [answered, watched]
    rfl
  · intro error after _ _ run returned
    cases returned

/-- Only a gate that passed lets the execution go on, and then the change is verified. -/
theorem verify_watched (executor : TaskExecutor) (task : Task) (spec : TaskSpec)
    (worktree : Worktree) (verifier : Option CommandVerifier) (own : spec.verify = some command)
    (gated : command ≠ []) (w : Watch) (pending : w.committed = false) :
    Meets (observing (watch command)) mayAsk (executor.verify task spec worktree verifier) w
      fun w' outcome => outcome = .ok none → w' = ⟨true, w.failed, false⟩ := by
  have asked : truthy spec.verify = true := by simp [truthy, own, gated]
  have failing : ∀ kind detail data state, Meets (observing (watch command)) mayAsk
      (emit executor.events task.id detail data >>= fun _ => Program.ret (some kind)) state
      fun w' outcome => outcome = .ok (none : Option FailureKind) → w' = ⟨true, w.failed, false⟩ :=
    fun kind detail data state => quiet_bind (quiet_emit _ _ _ _)
      (fun _ returned => by cases returned) fun _ returned => by cases returned
  unfold verify
  rw [asked, own]
  simp only [Bool.not_true, Bool.false_eq_true, if_false, Option.getD_some]
  cases verifier.or executor.verifier with
  | none => exact failing _ _ _ _
  | some active =>
      refine meets_attempt_bind trivial ?_ ?_ ?_
      · intro result after answered
        simp only
        split_ifs with blocked failed
        · exact failing _ _ _ _
        · exact failing _ _ _ _
        · have watched : after = ⟨true, w.failed, false⟩ := by
            have passed : passes command ⟨.verify active command worktree.path, .ok result⟩ = true := by
              simp [passes, Bool.of_not_eq_true blocked, by simpa using failed]
            rw [answered, watch, passed, pending, Bool.or_true]
            simp [isHarnessRun, isFailedRun, isCommit]
          exact quiet_bind (quiet_emit _ _ _ _) (fun _ _ => watched) fun _ returned => by
            cases returned
      · intro error after answered _
        exact failing _ _ _ _
      · intro error after _ _ returned
        cases returned

theorem quiet_review_diff (spec : TaskSpec) (worktree : Worktree) :
    Asks Quiet (reviewDiff spec worktree) := by
  refine asks_bind (asks_attempt trivial) fun result => ?_
  cases result with
  | error error => trivial
  | ok diff => exact asks_attempt trivial

/-- What the execution comes to the publishing with: the change is verified, or
a harness run failed after it was. -/
def ReadyToPublish (w : Watch) : Prop := w.verified = !w.failed ∧ w.committed = false

/-- Where a debate ends without a failure, the change is ready. -/
def EndsReady (w : Watch) (outcome : Except Exn Debated) : Prop :=
  ∀ debated, outcome = .ok debated → debated.failure = none → ReadyToPublish w

theorem ends_ready_error (w : Watch) (error : Exn) : EndsReady w (.error error) :=
  fun _ returned => by cases returned

theorem debate_round_watched (executor : TaskExecutor) (task : Task) (worktree : Worktree)
    (current : Debated) (revise : ReviewVerdict → Code Debated)
    (revised : ∀ verdict, Meets (observing (watch command)) mayAsk (revise verdict)
      ⟨true, false, false⟩ EndsReady) :
    Meets (observing (watch command)) mayAsk (executor.debateRound task worktree current revise)
      ⟨true, false, false⟩ EndsReady := by
  refine quiet_bind (quiet_review_diff _ _) (fun reviewed => ?_) (ends_ready_error _)
  cases reviewed with
  | error error =>
      exact quiet_bind (quiet_emit _ _ _ _) (fun _ _ _ _ => ⟨rfl, rfl⟩) (ends_ready_error _)
  | ok verdict =>
      refine quiet_bind (quiet_emit _ _ _ _) (fun _ => ?_) (ends_ready_error _)
      split_ifs
      · exact fun _ _ _ => ⟨rfl, rfl⟩
      · exact revised verdict

theorem revise_run_watched (executor : TaskExecutor) (task : Task) (worktree : Worktree)
    (verifier : Option CommandVerifier) (gated : command ≠ []) (current : Debated)
    (own : current.spec.verify = some command) (verdict : ReviewVerdict)
    (again : Debated → Code Debated)
    (goesOn : ∀ next : Debated, next.spec.verify = some command →
      Meets (observing (watch command)) mayAsk (again next) ⟨true, false, false⟩ EndsReady) :
    Meets (observing (watch command)) mayAsk
      (executor.reviseRun task worktree verifier current verdict again) ⟨true, false, false⟩
      EndsReady := by
  refine (run_harness_watched _ _ _ _ rfl).seq (fun w nextRun ran => ?_)
    fun _ _ _ => ends_ready_error _ _
  obtain rfl := ran nextRun rfl
  split_ifs with failed
  · -- The failed run is the last one, and it was not verified.
    have unsuccessful : nextRun.ok = false := by simpa using failed
    exact fun _ _ _ => ⟨by simp [unsuccessful], rfl⟩
  · have succeeded : nextRun.ok = true := by simpa using failed
    rw [succeeded]
    refine (verify_watched executor task _ worktree verifier own gated _ rfl).seq
      (fun w nextFailure verified => ?_) fun _ _ _ => ends_ready_error _ _
    cases nextFailure with
    | some kind =>
        intro debated returned passed
        obtain rfl := Except.ok.inj returned
        cases passed
    | none =>
        obtain rfl := verified rfl
        exact goesOn _ own

theorem debate_from_watched (executor : TaskExecutor) (task : Task) (worktree : Worktree)
    (verifier : Option CommandVerifier) (gated : command ≠ []) (remaining : Nat)
    (current : Debated) (own : current.spec.verify = some command) :
    Meets (observing (watch command)) mayAsk
      (executor.debateFrom task worktree verifier remaining current) ⟨true, false, false⟩
      EndsReady := by
  induction remaining generalizing current with
  | zero =>
      exact debate_round_watched executor task worktree current _ fun _ _ _ _ => ⟨rfl, rfl⟩
  | succ remaining ih =>
      exact debate_round_watched executor task worktree current _ fun verdict =>
        revise_run_watched executor task worktree verifier gated current own verdict _ ih

theorem debate_watched (executor : TaskExecutor) (task : Task) (spec : TaskSpec)
    (worktree : Worktree) (run : RunResult) (verifier : Option CommandVerifier)
    (gated : command ≠ []) (own : spec.verify = some command) :
    Meets (observing (watch command)) mayAsk
      (executor.debate task spec worktree run none verifier) ⟨true, false, false⟩ EndsReady := by
  unfold debate
  split_ifs
  · exact fun _ _ _ => ⟨rfl, rfl⟩
  · exact debate_from_watched executor task worktree verifier gated _ _ own

theorem publish_watched (executor : TaskExecutor) (task : Task) (spec : TaskSpec)
    (worktree : Worktree) (review : Option ReviewVerdict) (w : Watch) (ready : ReadyToPublish w) :
    Meets (observing (watch command)) mayAsk (executor.publish task spec worktree review) w
      fun _ _ => True := by
  have failing : ∀ commit state, Meets (observing (watch command)) mayAsk
      (executor.publishFailed task commit) state fun _ _ => True :=
    fun commit state => quiet_bind (quiet_emit _ _ _ _) (fun _ => trivial) fun _ => trivial
  refine meets_attempt_bind ready.1 ?_ (fun _ _ _ _ => failing _ _) fun _ _ _ _ => trivial
  intro commit after answered
  have committed : after.committed = true := by
    rw [answered, watch]
    simp [isCommit]
  refine quiet_bind (asks_attempt trivial) (fun changed => ?_) fun _ => trivial
  cases changed with
  | error error => exact failing _ _
  | ok changed =>
      cases changed with
      | false => trivial
      | true =>
          refine meets_attempt_bind committed ?_ (fun _ _ _ _ => failing _ _) fun _ _ _ _ => trivial
          intro _ pushed _
          refine quiet_bind (asks_attempt trivial) (fun opened => ?_) fun _ => trivial
          cases opened with
          | error error => exact failing _ _
          | ok pr => trivial

theorem deliver_watched (executor : TaskExecutor) (task : Task) (spec : TaskSpec)
    (worktree : Worktree) (verifier : Option CommandVerifier) (gated : command ≠ [])
    (own : spec.verify = some command) :
    Meets (observing (watch command)) mayAsk (executor.deliver task spec worktree verifier) {}
      fun _ _ => True := by
  refine (run_harness_watched task spec worktree {} rfl).seq (fun w run ran => ?_)
    fun _ _ _ => trivial
  obtain rfl := ran run rfl
  split_ifs with failed
  · trivial
  · have succeeded : run.ok = true := by simpa using failed
    rw [succeeded]
    refine (verify_watched executor task spec worktree verifier own gated _ rfl).seq
      (fun w failure verified => ?_) fun _ _ _ => trivial
    cases failure with
    | some kind => trivial
    | none =>
        obtain rfl := verified rfl
        refine (debate_watched executor task spec worktree run verifier gated own).seq
          (fun w debated ready => ?_) fun _ _ _ => trivial
        cases failed : debated.failure with
        | some kind => trivial
        | none =>
            exact (publish_watched executor task debated.spec worktree debated.review w
              (ready debated rfl failed)).seq (fun _ _ _ => trivial) fun _ _ _ => trivial

theorem quiet_report (executor : TaskExecutor) (evidence : ExecutedTask)
    (recipient : Option Str) : Asks Quiet (executor.report evidence recipient) :=
  (asks_report executor evidence recipient).mono fun request asked => by
    cases request <;> first | exact absurd asked id | trivial

theorem quiet_finish (executor : TaskExecutor) (running : Task) (evidence : ExecutedTask)
    (recipient : Option Str) : Asks Quiet (executor.finish running evidence recipient) :=
  asks_bind (asks_call trivial) fun _ => asks_bind (quiet_emit _ _ _ _) fun _ =>
    asks_bind (quiet_report _ _ _) fun _ => trivial

theorem quiet_cleanup (executor : TaskExecutor) (session : Option Sandbox) (worktree : Worktree) :
    Asks Quiet (executor.cleanup session worktree) :=
  (asks_cleanup executor session worktree).mono fun request asked => by
    cases request <;> first | exact absurd asked id | trivial

theorem quiet_run_session (executor : TaskExecutor) (task : Task) (spec : TaskSpec)
    (worktree : Worktree) : Asks Quiet (executor.runSession task spec worktree) := by
  unfold runSession
  split_ifs
  · trivial
  · exact asks_catch (asks_call trivial) fun _ => asks_bind (quiet_cleanup _ _ _) fun _ => trivial

theorem run_in_watched (executor : TaskExecutor) (task running : Task) (spec : TaskSpec)
    (recipient : Option Str) (verifier : Option CommandVerifier) (worktree : Worktree)
    (gated : command ≠ []) (own : spec.verify = some command) :
    Meets (observing (watch command)) mayAsk
      (executor.runIn task running spec recipient verifier worktree) {} fun _ _ => True := by
  refine quiet_bind (quiet_run_session _ _ _ _) (fun session => ?_) fun _ => trivial
  have body : Meets (observing (watch command)) mayAsk
      (executor.deliver task spec worktree (executor.activeVerifier verifier session) >>=
        fun delivery => executor.finish running (evidenceOf running worktree delivery) recipient)
      {} fun _ _ => True :=
    (deliver_watched executor task spec worktree _ gated own).seq
      (fun w _ _ => (quiet_meets (quiet_finish _ _ _ _) w).post fun _ _ _ => trivial)
      fun _ _ _ => trivial
  exact body.finally fun w _ _ => (quiet_meets (quiet_cleanup _ _ _) w).post fun _ _ _ =>
    ⟨fun _ => trivial, fun _ _ => trivial⟩

variable [Unicode] [Sha256]

theorem execute_claimed_watched (executor : TaskExecutor) (task : Task) (spec : TaskSpec)
    (recipient : Option Str) (verifier : Option CommandVerifier) (gated : command ≠ [])
    (own : spec.verify = some command) :
    Meets (observing (watch command)) mayAsk
      (executor.executeClaimed task spec recipient verifier) {} fun _ _ => True := by
  refine quiet_bind (asks_call trivial) (fun found => ?_) fun _ => trivial
  cases found with
  | none => trivial
  | some running =>
      refine quiet_bind (quiet_emit _ _ _ _) (fun _ => ?_) fun _ => trivial
      refine quiet_bind (asks_attempt trivial) (fun created => ?_) fun _ => trivial
      cases created with
      | error error => exact quiet_bind (asks_call trivial) (fun _ => trivial) fun _ => trivial
      | ok worktree =>
          exact run_in_watched executor task running spec recipient verifier worktree gated own

theorem execute_watched (executor : TaskExecutor) (task : Task) (spec : TaskSpec)
    (recipient : Option Str) (claimed : Bool) (verifier : Option CommandVerifier)
    (gated : command ≠ []) (own : spec.verify = some command) :
    Meets (observing (watch command)) mayAsk
      (executor.execute task spec recipient claimed verifier) {} fun _ _ => True := by
  unfold execute
  split_ifs
  · exact execute_claimed_watched executor task spec recipient verifier gated own
  · refine quiet_bind (asks_call trivial) (fun won => ?_) fun _ => trivial
    split_ifs
    · exact execute_claimed_watched executor task spec recipient verifier gated own
    · trivial

end Watching

variable [Unicode] [Sha256]

omit [Unicode] [Sha256] in
theorem failed_no_commit {event : Exchange ports} (commit : isCommit event = true) :
    isFailedRun event = false := by
  obtain ⟨request, reply⟩ := event
  cases request <;> first | rfl | exact absurd commit Bool.false_ne_true

omit [Unicode] [Sha256] in
theorem asked_commit {event : Exchange ports} {w : Watch} (commit : isCommit event = true)
    (asked : mayAsk w event.1) : w.verified = !w.failed := by
  obtain ⟨request, reply⟩ := event
  cases request <;> first | exact asked | exact absurd commit Bool.false_ne_true

omit [Unicode] [Sha256] in
theorem no_run_after_commit {command : Str} {trace front rest : List (Exchange ports)}
    {commit : Exchange ports}
    (permitted : ∀ before after event, trace = before ++ event :: after →
      mayAsk (before.foldl (watch command) {}) event.1)
    (whole : trace = front ++ commit :: rest) (committed : isCommit commit = true) :
    ∀ event ∈ rest, isFailedRun event = false := by
  intro event later
  by_contra ran
  rw [Bool.not_eq_false] at ran
  obtain ⟨between, final, rfl⟩ := List.append_of_mem later
  have asked := permitted (front ++ commit :: between) final event (by rw [whole]; simp)
  have pending : ((front ++ commit :: between).foldl (watch command) {}).committed = false := by
    obtain ⟨request, reply⟩ := event
    cases request <;> first | exact asked | exact absurd ran Bool.false_ne_true
  rw [watched_committed, Bool.false_or, List.any_eq_false] at pending
  exact pending commit (by simp) committed

/-- The gate is sound for an execution exactly where what it publishes was
preceded by no failed harness run. -/
theorem execute_gate_sound_iff {σ : Type} {env : Env ports σ} (executor : TaskExecutor)
    (task : Task) (spec : TaskSpec) (recipient : Option Str) (claimed : Bool)
    (verifier : Option CommandVerifier) (command : Str) (own : spec.verify = some command)
    (gated : command ≠ []) (state final : σ) (trace : List (Exchange ports))
    (outcome : Except Exn ExecutedTask)
    (execution : Exec env (executor.execute task spec recipient claimed verifier) state trace
      outcome final) :
    GateSound command trace ↔ PublishesAfterSuccess trace := by
  have meets := execute_watched executor task spec recipient claimed verifier gated own
  have watched := exec_observed execution (watch command) {}
  have permitted : ∀ before after event, trace = before ++ event :: after →
      mayAsk (before.foldl (watch command) {}) event.1 := by
    intro before after event split
    have observed : ∀ request s reply s', observing (watch command) request s reply s' →
        id s' = watch command (id s) ⟨request, reply⟩ := fun _ _ _ _ answered => answered
    obtain ⟨_, rfl, asked⟩ := meets.permits watched observed before after event split
    exact asked
  constructor
  · rintro sound ⟨push, member, pushed⟩ event inside
    obtain ⟨before, rest, split⟩ := List.append_of_mem member
    have committed : (before.foldl (watch command) {}).committed = true := by
      have asked := permitted before rest push split
      obtain ⟨request, reply⟩ := push
      cases request <;> first | exact asked | cases pushed
    rw [watched_committed, Bool.false_or, List.any_eq_true] at committed
    obtain ⟨commit, earlier, isCommitted⟩ := committed
    obtain ⟨front, middle, rfl⟩ := List.append_of_mem earlier
    have whole : trace = front ++ commit :: (middle ++ push :: rest) := by
      rw [split]
      simp
    have verified := (watched_verified command front).mpr
      (sound front commit _ whole isCommitted ⟨push, by simp, pushed⟩)
    have ready : (front.foldl (watch command) {}).verified =
        !(front.foldl (watch command) {}).failed := by
      have asked := permitted front _ commit whole
      exact asked_commit isCommitted asked
    have unfailed : (front.foldl (watch command) {}).failed = false := by
      simpa [verified] using ready.symm
    rw [watched_failed, Bool.false_or, List.any_eq_false] at unfailed
    rw [whole] at inside
    rcases List.mem_append.mp inside with early | late
    · exact Bool.of_not_eq_true (unfailed event early)
    · rcases List.mem_cons.mp late with rfl | later
      · exact failed_no_commit isCommitted
      · exact no_run_after_commit permitted whole isCommitted event later
  · intro successful before commit after split committed pushes
    have asked := permitted before after commit split
    have ready : (before.foldl (watch command) {}).verified =
        !(before.foldl (watch command) {}).failed := by
      exact asked_commit committed asked
    obtain ⟨push, later, pushed⟩ := pushes
    have succeeded := successful ⟨push, by rw [split]; simp [later], pushed⟩
    have unfailed : (before.foldl (watch command) {}).failed = false := by
      rw [watched_failed, Bool.false_or, List.any_eq_false]
      intro event inside
      rw [succeeded event (by rw [split]; simp [inside])]
      exact Bool.false_ne_true
    exact (watched_verified command before).mp (by rw [ready, unfailed]; rfl)

section Example

omit [Unicode] [Sha256]

@[reducible] def exampleSha256 : Sha256 :=
  ⟨fun _ => "ca0df2c95aa144c1d0ff2ff3c8f967fdc1de9ef0c4120b3726416701b519d619"⟩

def reviewedExecutor : TaskExecutor where
  repoPath := "/repo"
  worktreesRoot := "/work"
  verifier := some { allowed := [["make".toList, "test".toList]] }
  reviewer := true
  debateRounds := 1

def reviewedTask : Task where
  id := "m1"
  transportId := "m1"
  state := .queued
  createdAt := 0

def reviewedSpec : TaskSpec where
  repoUrl := "acme/widget"
  instructions := "Fix it"
  verify := some "make test"

/-- Surroundings in which the reviewer asks for a revision, and the harness runs
have these exit codes. -/
def revisingPorts (request : Request) (exits : List Int) :
    Except Exn request.Result × List Int :=
  match request with
  | .queue (.get _) => (.ok (some { reviewedTask with state := .running }), exits)
  | .queue (.claim _ _) => (.ok true, exits)
  | .queue (.transition task toState _) => (.ok { task with state := toState }, exits)
  | .createWorktree repo root slug _ =>
      (.ok ⟨repo, root ++ '/' :: slug, "dear-agent/".toList ++ slug⟩, exits)
  | .runHarness _ _ _ => (.ok { exitCode := exits.headD 0 }, exits.tail)
  | .verify _ _ _ => (.ok { ok := true, exitCode := 0 }, exits)
  | .diff _ _ => (.ok [], exits)
  | .review _ _ => (.ok { approved := false, notes := "Handle the empty case." }, exits)
  | .commitAll _ _ => (.ok "0123abc", exits)
  | .hasChangesSince _ _ => (.ok true, exits)
  | .push _ | .removeWorktree _ => (.ok (), exits)
  | .openDraftPr _ _ _ _ => (.ok { url := "https://forge.example/pr/1" }, exits)
  | _ => (.error .assertionError, exits)

/-- The execution of the task when the harness runs have these exit codes. -/
def reviewedExecution (exits : List Int) :=
  let _ := asciiTables
  let _ := exampleSha256
  run revisingPorts (reviewedExecutor.execute reviewedTask reviewedSpec none false none) exits

theorem revised_run_gate_sound :
    GateSound "make test" (reviewedExecution [0, 0]).1 ↔
      PublishesAfterSuccess (reviewedExecution [0, 0]).1 := by
  let _ := asciiTables
  let _ := exampleSha256
  let env : Env ports (List Int) := fun request exits reply after =>
    (reply, after) = revisingPorts request exits
  have execution := exec_run env revisingPorts (fun _ _ => rfl)
    (reviewedExecutor.execute reviewedTask reviewedSpec none false none) [0, 0]
  exact execute_gate_sound_iff reviewedExecutor reviewedTask reviewedSpec none false none "make test"
    rfl (by decide) [0, 0] _ _ _ execution

/-- The second harness run fails after the gate passed, and its edits are published. -/
theorem failed_revision_published : ¬GateSound "make test" (reviewedExecution [0, 1]).1 := by
  intro sound
  have eighth : (reviewedExecution [0, 1]).1[8]?.any isCommit = true := by decide
  obtain ⟨commit, found, committed⟩ := (Option.any_eq_true _ _).mp eighth
  obtain ⟨long, rfl⟩ := List.getElem?_eq_some_iff.mp found
  have split : (reviewedExecution [0, 1]).1 = (reviewedExecution [0, 1]).1.take 8 ++
      (reviewedExecution [0, 1]).1[8] :: (reviewedExecution [0, 1]).1.drop 9 := by
    rw [← List.drop_eq_getElem_cons long, List.take_append_drop]
  have pushes : ((reviewedExecution [0, 1]).1.drop 9).any isPush = true := by decide
  have verified := sound _ _ _ split committed (List.any_eq_true.mp pushes)
  rw [← watched_verified] at verified
  exact absurd verified (by decide)

end Example

end DearAgent.TaskExecutor
