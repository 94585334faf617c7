import Mathlib.Algebra.BigOperators.Intervals
import Mathlib.Algebra.Order.BigOperators.Group.Finset
import DearAgent.Executor.Gate
import DearAgent.Stores
import DearAgent.Worker

/-!
# The error budget

Calls of workers and executors, each exchange with the moment it was made at, in any
interleaving. The event log counts the failures that were recorded; the budget is exhausted
by those alone.
-/

namespace DearAgent.Budget

open DearAgent.Lib.Text DearAgent.Lib.Effects DearAgent.Queue
open DearAgent.Stores (TaskEvent)

set_option autoImplicit false

/-- The events of a `MemoryEventLog`. -/
abbrev EventLog := List TaskEvent

def EventLog.record (log : EventLog) (taskId kind : Str) (data : EventData) (now : Instant) :
    EventLog := log ++ [⟨taskId, kind, now, data⟩]

def EventLog.count (log : EventLog) (kind : Str) (since : Instant) : Int :=
  (log.countP fun event => event.kind = kind && since ≤ event.at_ : Nat)

structure Turn where
  call : Nat
  moment : Instant
  event : Exchange ports

def logged (log : EventLog) (turn : Turn) : EventLog :=
  match turn.event with
  | ⟨.record taskId kind data, .ok _⟩ => log.record taskId kind data turn.moment
  | _ => log

def logOf (turns : List Turn) : EventLog := turns.foldl logged []

/-- A transition to `FAILED` that was performed. -/
def fails : Exchange ports → Bool
  | ⟨.queue (.transition _ .failed _), .ok _⟩ => true
  | _ => false

def tally (check : Exchange ports → Bool) (turns : List Turn) (since : Instant) : Nat :=
  turns.countP fun turn => check turn.event && since ≤ turn.moment

def failures (turns : List Turn) (since : Instant) : Int := tally fails turns since

def own (turns : List Turn) (number : Nat) : List Turn :=
  turns.filter fun turn => turn.call = number

def anything : Env ports Unit := fun _ _ _ _ => True

def executorOf : Work → TaskExecutor
  | .run worker _ | .runNext worker => worker.executor
  | .execute executor _ _ _ _ | .executeNext executor _ _ _ _ => executor

/-- Calls with an event log that accepts every record, in any interleaving. -/
structure Ran [Unicode] [Sha256] (calls : List Work) (turns : List Turn) : Prop where
  logging : ∀ work ∈ calls, (executorOf work).events = true
  ordered : turns.Pairwise fun first second => first.moment ≤ second.moment
  made : ∀ turn ∈ turns, turn.call < calls.length
  complete : ∀ number work, calls[number]? = some work →
    ∃ outcome, Exec anything work.program () ((own turns number).map Turn.event) outcome ()
  accepted : ∀ turn ∈ turns, ∀ taskId kind data reply,
    turn.event = ⟨.record taskId kind data, reply⟩ → reply = .ok ()

def reading (log : EventLog) (now : Instant) : Env ports Unit := fun request _ reply _ =>
  match request, reply with
  | .utcnow, reply => reply = .ok now
  | .countEvents kind since, reply => reply = .ok (log.count kind since)
  | _, _ => True

structure SeesFailures (turns : List Turn) : Prop where
  counted : ∀ since, (logOf turns).count "task.failed" since = failures turns since
  tripped : ∀ (budget : ErrorBudget) (now : Instant), 0 < budget.maxFailures →
    budget.maxFailures ≤ failures turns (now - budget.windowSeconds * 1000000) →
    ∀ trace outcome, Exec (reading (logOf turns) now) budget.exhausted () trace outcome () →
      outcome = .ok true

/-- The final transition of a run that failed in its worktree: evidence goes with it. -/
def ends : Exchange ports → Bool
  | ⟨.queue (.transition _ .failed (some _)), .ok _⟩ => true
  | _ => false

/-- Any other transition to `FAILED`: of a guard, for a dependency, or without a worktree. -/
def drops : Exchange ports → Bool
  | ⟨.queue (.transition _ .failed none), .ok _⟩ => true
  | _ => false

/-- `task.failed` is recorded. -/
def tells : Exchange ports → Bool
  | ⟨.record _ kind _, .ok _⟩ => kind = "task.failed".toList
  | _ => false

/-- Where a run fails in its worktree, the clock stands still until the call goes on. -/
def Prompt (turns : List Turn) : Prop :=
  ∀ before failing next after, turns = before ++ failing :: next :: after →
    ends failing.event = true → next.moment = failing.moment

/-- No task is failed but at the end of a run in its worktree, at once. -/
structure EndsOnly (turns : List Turn) : Prop where
  undropped : ∀ turn ∈ turns, drops turn.event = false
  prompt : ∀ number, Prompt (own turns number)

/-!
## The events of one call
-/

def Quiet : Request → Prop
  | .record _ kind _ => kind ≠ "task.failed".toList
  | .queue (.transition _ _ evidence) => evidence = none
  | _ => True

section Quiet

theorem quiet_emit (events : Bool) (taskId : Str) {kind : Str} (data : EventData)
    (other : kind ≠ "task.failed".toList) : Asks Quiet (emit events taskId kind data) := by
  unfold emit
  split_ifs
  · exact asks_bind (asks_attempt other) fun _ => trivial
  · trivial

variable (executor : TaskExecutor) (task running : Task) (spec : TaskSpec) (worktree : Worktree)

theorem quiet_deliver (verifier : Option CommandVerifier) :
    Asks Quiet (executor.deliver task spec worktree verifier) := by
  apply (TaskExecutor.deliver_lets executor task spec worktree verifier).asks.mono
  intro request asked
  cases request with
  | record taskId kind data =>
      -- A delivery records nothing of its end.
      intro same
      rw [same] at asked
      exact absurd asked (by decide : "task.failed".toList ∉ TaskExecutor.deliveryKinds)
  | queue op => exact asked.elim
  | _ => trivial

theorem quiet_report (evidence : ExecutedTask) (recipient : Option Str) :
    Asks Quiet (executor.report evidence recipient) :=
  (TaskExecutor.report_lets (fun _ => trivial) (fun _ => trivial) executor evidence recipient).asks

theorem quiet_cleanup (session : Option Sandbox) :
    Asks Quiet (executor.cleanup session worktree) :=
  (TaskExecutor.asks_cleanup executor session worktree).mono fun request closing => by
    cases request with
    | closeSession session => trivial
    | removeWorktree worktree => trivial
    | _ => exact closing.elim

theorem quiet_run_session : Asks Quiet (executor.runSession task spec worktree) := by
  unfold TaskExecutor.runSession
  split_ifs
  · trivial
  · apply asks_catch (asks_call trivial)
    exact fun error => asks_bind (quiet_cleanup executor worktree none) fun _ => trivial

variable (worker : TaskWorker)

theorem quiet_policy_for : Asks Quiet (worker.policyFor task) := by
  unfold TaskWorker.policyFor
  split
  · exact asks_call trivial
  · trivial

theorem quiet_effective : Asks Quiet (worker.effective task spec) := by
  apply asks_bind (quiet_policy_for task worker)
  intro policy
  cases policy with
  | none => trivial
  | some policy =>
      simp only
      split_ifs
      · trivial
      · cases policy.extraAllowed <;> trivial

theorem quiet_dependencies : Asks Quiet (dependencyStatus task) :=
  (asks_dependency_status task).mono fun request reading => by
    cases request with
    | queue op =>
        cases op with
        | get id => trivial
        | _ => exact reading.elim
    | _ => exact reading.elim

theorem quiet_guard_budget (taskId : Str) : Asks Quiet (worker.guardBudget taskId) := by
  have exhausting : Asks Quiet worker.budget.exhausted := by
    unfold ErrorBudget.exhausted
    split_ifs
    · trivial
    · exact asks_bind (asks_call trivial) fun _ => asks_bind (asks_call trivial) fun _ => trivial
  unfold TaskWorker.guardBudget
  split_ifs
  · trivial
  · apply asks_bind exhausting
    intro exhausted
    split_ifs
    · exact asks_bind (quiet_emit _ _ _ (by decide)) fun _ => trivial
    · trivial

variable [Unicode]

theorem quiet_guard_attempts : Asks Quiet (worker.guardAttempts task) := by
  unfold TaskWorker.guardAttempts
  split_ifs
  · exact asks_bind (asks_call rfl) fun _ => trivial
  · trivial

theorem quiet_guard_policy : Asks Quiet (worker.guardPolicy task) := by
  apply asks_bind (quiet_policy_for task worker)
  intro policy
  cases policy with
  | none => trivial
  | some policy =>
      simp only
      split_ifs
      · trivial
      · apply asks_bind (asks_call (by exact rfl))
        exact fun _ => asks_bind (quiet_emit _ _ _ (by decide)) fun _ => trivial

theorem quiet_guard_dependencies : Asks Quiet (worker.guardDependencies task) := by
  apply asks_bind (quiet_dependencies task)
  intro status
  cases status.state with
  | failed =>
      apply asks_bind (asks_call (by exact rfl))
      exact fun _ => asks_bind (quiet_emit _ _ _ (by decide)) fun _ => trivial
  | blocked => exact asks_bind (quiet_emit _ _ _ (by decide)) fun _ => trivial
  | ready => trivial

theorem quiet_runnable : Asks Quiet (worker.runnable task) := by
  apply asks_except
  · apply asks_bind (quiet_guard_attempts task worker)
    exact fun _ => asks_bind (quiet_guard_policy task worker) fun _ => trivial
  · exact fun _ => trivial

end Quiet

/-!
## The end of a run
-/

def ending : Env ports Bool := observing fun _ event => ends event

/-- The record of a failure follows its transition, and nothing else does. -/
def mayTell (failed : Bool) : Request → Prop
  | .record _ kind _ => kind = "task.failed".toList ↔ failed = true
  | _ => failed = false

section Ending

variable {α : Type}

theorem quiet_tells {program : Code α} (asks : Asks Quiet program) :
    Meets ending mayTell program false fun after _ => after = false := by
  apply asks.meets (fun after => after = false) ?_ ?_ rfl
  · intro state request unended quiet
    subst unended
    cases request with
    | record taskId kind data => exact ⟨fun same => absurd same quiet, fun never => by cases never⟩
    | _ => rfl
  · intro state request reply after unended quiet answered
    rw [answered]
    cases request with
    | queue op =>
        cases op with
        | transition task toState evidence =>
            obtain rfl : evidence = none := quiet
            cases toState <;> cases reply <;> rfl
        | _ => rfl
    | _ => rfl

theorem quiet_first {β : Type} {program : Code α} {next : α → Code β} (asks : Asks Quiet program)
    (rest : ∀ value, Meets ending mayTell (next value) false fun after _ => after = false) :
    Meets ending mayTell (program >>= next) false fun after _ => after = false := by
  apply (quiet_tells asks).seq
  · intro after value unended
    subst unended
    exact rest value
  · exact fun _ _ unended => unended

theorem tells_record {failed : Bool} (taskId kind : Str) (data : EventData)
    (told : kind = "task.failed".toList ↔ failed = true) :
    Meets ending mayTell (emit true taskId kind data) failed fun after _ => after = false := by
  apply meets_attempt_bind (by exact told)
  · exact fun _ after answered => answered
  · exact fun error after answered _ => answered
  · exact fun error after answered _ => answered

variable (executor : TaskExecutor) (logging : executor.events = true) (task running : Task)
  (spec : TaskSpec) (recipient : Option Str)
include logging

theorem tells_finish (evidence : ExecutedTask) :
    Meets ending mayTell (executor.finish running evidence recipient) false
      fun after _ => after = false := by
  apply meets_call_bind (by exact rfl)
  · intro final after answered
    have told : (if evidence.ok then "task.done" else "task.failed" : Str) =
        "task.failed".toList ↔ after = true := by
      have other : "task.done".toList ≠ "task.failed".toList := by decide
      rw [answered]
      cases evidence.ok with
      | true => exact iff_of_false other Bool.false_ne_true
      | false => exact iff_of_true rfl rfl
    rw [logging]
    apply (tells_record final.id _ _ told).seq
    · intro state _ unended
      subst unended
      apply quiet_tells
      exact asks_bind (quiet_report executor _ recipient) fun _ => trivial
    · exact fun _ _ unended => unended
  · intro error after answered
    rw [answered]
    cases evidence.ok <;> rfl

theorem tells_run_in (worktree : Worktree) (verifier : Option CommandVerifier) :
    Meets ending mayTell (executor.runIn task running spec recipient verifier worktree) false
      fun after _ => after = false := by
  apply quiet_first (quiet_run_session executor task spec worktree)
  intro session
  have body := quiet_first
    (quiet_deliver executor task spec worktree (executor.activeVerifier verifier session))
    fun delivery => tells_finish executor logging running recipient
      (TaskExecutor.evidenceOf running worktree delivery)
  apply body.finally
  intro state outcome unended
  subst unended
  apply (quiet_tells (quiet_cleanup executor worktree session)).post
  exact fun after ended unended => ⟨fun _ => unended, fun _ _ => unended⟩

variable [Unicode] [Sha256]

theorem tells_claimed (verifier : Option CommandVerifier) :
    Meets ending mayTell (executor.executeClaimed task spec recipient verifier) false
      fun after _ => after = false := by
  apply quiet_first (asks_call (by exact trivial))
  intro found
  cases found with
  | none => rfl
  | some running =>
      apply quiet_first (quiet_emit _ _ _ (by decide))
      intro _
      apply quiet_first (asks_attempt (by exact trivial))
      intro created
      cases created with
      | error error =>
          exact quiet_tells (asks_bind (asks_call (by exact rfl)) fun _ => trivial)
      | ok worktree => exact tells_run_in executor logging task running spec recipient worktree verifier

theorem tells_execute (claimed : Bool) (verifier : Option CommandVerifier) :
    Meets ending mayTell (executor.execute task spec recipient claimed verifier) false
      fun after _ => after = false := by
  have running := tells_claimed executor logging task spec recipient verifier
  unfold TaskExecutor.execute
  split_ifs
  · exact running
  · apply quiet_first (asks_call (by exact trivial))
    intro won
    cases won with
    | true => exact running
    | false => rfl

omit logging

theorem tells_run_first (worker : TaskWorker) (logging : worker.executor.events = true)
    (tasks : List Task) :
    Meets ending mayTell (worker.runFirst tasks) false fun after _ => after = false := by
  induction tasks with
  | nil => rfl
  | cons task rest ih =>
      apply quiet_first (quiet_dependencies task)
      intro status
      cases status.state with
      | failed =>
          apply quiet_first (asks_call (by exact rfl))
          intro _
          exact quiet_first (quiet_emit _ _ _ (by decide)) fun _ => ih
      | blocked => exact quiet_first (quiet_emit _ _ _ (by decide)) fun _ => ih
      | ready =>
          apply quiet_first (quiet_runnable task worker)
          intro runnable
          cases runnable with
          | false => exact ih
          | true =>
              apply quiet_first (asks_call (by exact trivial))
              intro won
              cases won with
              | false => exact ih
              | true =>
                  apply quiet_first (asks_call (by exact trivial))
                  intro resolved
                  apply quiet_first (quiet_effective task resolved worker)
                  exact fun used => tells_execute _ logging task used.1 _ true used.2

theorem tells_program (work : Work) (logging : (executorOf work).events = true) :
    Meets ending mayTell work.program false fun after _ => after = false := by
  have dropped : ∀ {β : Type} {program : Code β},
      Meets ending mayTell program false (fun after _ => after = false) →
      Meets ending mayTell (dropValue program) false fun after _ => after = false := by
    intro β program meets
    apply meets.seq
    · exact fun _ _ unended => unended
    · exact fun _ _ unended => unended
  cases work with
  | run worker taskId =>
      apply dropped
      apply quiet_first (asks_call (by exact trivial))
      intro found
      cases found with
      | none => rfl
      | some task =>
          apply quiet_first (quiet_guard_budget worker task.id)
          intro _
          apply quiet_first (quiet_guard_attempts task worker)
          intro _
          apply quiet_first (quiet_guard_dependencies task worker)
          intro _
          apply quiet_first (quiet_guard_policy task worker)
          intro _
          apply quiet_first (asks_call (by exact trivial))
          intro resolved
          apply quiet_first (quiet_effective task resolved worker)
          exact fun used => tells_execute _ logging task used.1 _ false used.2
  | runNext worker =>
      apply dropped
      apply quiet_first (quiet_guard_budget worker _)
      intro _
      apply quiet_first (asks_call (by exact trivial))
      exact fun queued => tells_run_first worker logging queued
  | execute executor task spec recipient verifier =>
      exact dropped (tells_execute executor logging task spec recipient false verifier)
  | executeNext executor lease spec recipient verifier =>
      apply quiet_first (asks_call (by exact trivial))
      intro claimed
      cases claimed with
      | none => rfl
      | some task => exact dropped (tells_execute executor logging task spec recipient true verifier)

end Ending

/-!
## Failures and records of one call
-/

/-- Every failed end of a run is followed by its record, and there is no other record. -/
inductive Told : List Turn → Prop
  | nil : Told []
  | aside (turn : Turn) {rest : List Turn} (ended : ends turn.event = false)
      (silent : tells turn.event = false) (later : Told rest) : Told (turn :: rest)
  | told (failing record : Turn) {rest : List Turn} (ended : ends failing.event = true)
      (tellsIt : tells record.event = true) (later : Told rest) : Told (failing :: record :: rest)

theorem not_both {event : Exchange ports} (ended : ends event = true) : tells event = false := by
  obtain ⟨request, reply⟩ := event
  cases request with
  | record => cases ended
  | _ => rfl

theorem not_ended {event : Exchange ports} (told : tells event = true) : ends event = false := by
  cases ended : ends event with
  | false => rfl
  | true =>
      rw [not_both ended] at told
      cases told

theorem told_iff {failed : Bool} {event : Exchange ports} (may : mayTell failed event.1)
    (accepted : ∀ taskId kind data reply, event = ⟨.record taskId kind data, reply⟩ → reply = .ok ()) :
    tells event = failed := by
  obtain ⟨request, reply⟩ := event
  cases request with
  | record taskId kind data =>
      obtain rfl := accepted taskId kind data reply rfl
      change decide (kind = "task.failed".toList) = failed
      cases failed with
      | true => exact decide_eq_true (may.mpr rfl)
      | false => exact decide_eq_false fun same => Bool.false_ne_true (may.mp same)
  | _ =>
      obtain rfl : failed = false := may
      rfl

theorem told_of_trace (turns : List Turn)
    (may : ∀ before event after, turns.map Turn.event = before ++ event :: after →
      mayTell (before.foldl (fun _ event => ends event) false) event.1)
    (settled : (turns.map Turn.event).foldl (fun _ event => ends event) false = false)
    (accepted : ∀ turn ∈ turns, ∀ taskId kind data reply,
      turn.event = ⟨.record taskId kind data, reply⟩ → reply = .ok ()) : Told turns := by
  induction length : turns.length using Nat.strong_induction_on generalizing turns with
  | _ n ih =>
      cases turns with
      | nil => exact .nil
      | cons turn rest =>
          have silent := told_iff (may [] turn.event _ rfl) (accepted turn List.mem_cons_self)
          cases ended : ends turn.event with
          | false =>
              refine .aside turn ended silent (ih rest.length ?_ rest ?_ ?_ ?_ rfl)
              · rw [← length]
                exact Nat.lt_succ_self _
              · intro before event after split
                have asked := may (turn.event :: before) event after
                  (congrArg (turn.event :: ·) split)
                rw [List.foldl_cons, ended] at asked
                exact asked
              · rw [List.map_cons, List.foldl_cons, ended] at settled
                exact settled
              · exact fun other member => accepted other (List.mem_cons_of_mem _ member)
          | true =>
              cases rest with
              | nil =>
                  change ends turn.event = false at settled
                  rw [ended] at settled
                  cases settled
              | cons next more =>
                  have asked := may [turn.event] next.event _ rfl
                  rw [List.foldl_cons, ended] at asked
                  have told := told_iff asked
                    (accepted next (List.mem_cons_of_mem _ List.mem_cons_self))
                  refine .told turn next ended told (ih more.length ?_ more ?_ ?_ ?_ rfl)
                  · rw [← length, List.length_cons, List.length_cons]
                    omega
                  · intro before event after split
                    have asked := may (turn.event :: next.event :: before) event after
                      (congrArg (fun events => turn.event :: next.event :: events) split)
                    rw [List.foldl_cons, List.foldl_cons, not_ended told] at asked
                    exact asked
                  · rw [List.map_cons, List.map_cons, List.foldl_cons, List.foldl_cons,
                      not_ended told] at settled
                    exact settled
                  · exact fun other member => accepted other
                      (List.mem_cons_of_mem _ (List.mem_cons_of_mem _ member))

section Counting

variable {turns : List Turn}

theorem tally_cons (check : Exchange ports → Bool) (turn : Turn) (rest : List Turn)
    (since : Instant) : tally check (turn :: rest) since =
      tally check rest since + if check turn.event && since ≤ turn.moment then 1 else 0 := by
  unfold tally
  rw [List.countP_cons]

theorem tally_silent {check : Exchange ports → Bool} {turn : Turn} (rest : List Turn)
    (since : Instant) (silent : check turn.event = false) :
    tally check (turn :: rest) since = tally check rest since := by
  rw [tally_cons, silent]
  rfl

theorem tally_counts {check : Exchange ports → Bool} {turn : Turn} (rest : List Turn)
    (since : Instant) (checked : check turn.event = true) :
    tally check (turn :: rest) since =
      tally check rest since + if since ≤ turn.moment then 1 else 0 := by
  rw [tally_cons, checked, Bool.true_and]
  simp only [decide_eq_true_eq]

theorem later_since {early late : Instant} (since : Instant) (ordered : early ≤ late) :
    (if since ≤ early then 1 else 0) ≤ if since ≤ late then 1 else 0 := by
  by_cases reached : since ≤ early
  · rw [if_pos reached, if_pos (Int.le_trans reached ordered)]
  · rw [if_neg reached]
    exact Nat.zero_le _

theorem tally_le (told : Told turns)
    (ordered : turns.Pairwise fun first second => first.moment ≤ second.moment) (since : Instant) :
    tally ends turns since ≤ tally tells turns since := by
  induction told with
  | nil => exact Nat.le_refl _
  | aside turn ended silent later ih =>
      rw [tally_silent _ _ ended, tally_silent _ _ silent]
      exact ih (List.pairwise_cons.mp ordered).2
  | told failing record ended tellsIt later ih =>
      obtain ⟨first, ordered⟩ := List.pairwise_cons.mp ordered
      have following := first record List.mem_cons_self
      have rest := ih (List.pairwise_cons.mp ordered).2
      rw [tally_counts _ _ ended, tally_silent _ _ (not_ended tellsIt),
        tally_silent _ _ (not_both ended), tally_counts _ _ tellsIt]
      exact Nat.add_le_add rest (later_since since following)

theorem tally_all (told : Told turns) (since : Instant) (early : ∀ turn ∈ turns, since ≤ turn.moment) :
    tally ends turns since = tally tells turns since := by
  induction told with
  | nil => rfl
  | aside turn ended silent later ih =>
      rw [tally_silent _ _ ended, tally_silent _ _ silent]
      exact ih fun other member => early other (List.mem_cons_of_mem _ member)
  | told failing record ended tellsIt later ih =>
      have rest := ih fun other member =>
        early other (List.mem_cons_of_mem _ (List.mem_cons_of_mem _ member))
      rw [tally_counts _ _ ended, tally_silent _ _ (not_ended tellsIt),
        tally_silent _ _ (not_both ended), tally_counts _ _ tellsIt,
        if_pos (early failing List.mem_cons_self),
        if_pos (early record (List.mem_cons_of_mem _ List.mem_cons_self)), rest]

theorem prompt_aside {turn : Turn} {rest : List Turn} (ended : ends turn.event = false) :
    Prompt (turn :: rest) ↔ Prompt rest := by
  constructor
  · intro prompt before failing next after split
    exact prompt (turn :: before) failing next after (congrArg (turn :: ·) split)
  · intro prompt before failing next after split failed
    cases before with
    | nil =>
        obtain ⟨rfl, _⟩ := List.cons.inj split
        rw [ended] at failed
        cases failed
    | cons first more =>
        obtain ⟨_, behind⟩ := List.cons.inj split
        exact prompt more failing next after behind failed

theorem prompt_told {failing record : Turn} {rest : List Turn} (ended : ends failing.event = true)
    (tellsIt : tells record.event = true) :
    Prompt (failing :: record :: rest) ↔ record.moment = failing.moment ∧ Prompt rest := by
  have aside := @prompt_aside record rest (not_ended tellsIt)
  rw [← aside]
  constructor
  · intro prompt
    constructor
    · exact prompt [] failing record rest rfl ended
    · intro before other next after split
      exact prompt (failing :: before) other next after (congrArg (failing :: ·) split)
  · rintro ⟨same, prompt⟩ before other next after split failed
    cases before with
    | nil =>
        obtain ⟨rfl, behind⟩ := List.cons.inj split
        obtain ⟨rfl, _⟩ := List.cons.inj behind
        exact same
    | cons first more =>
        obtain ⟨_, behind⟩ := List.cons.inj split
        exact prompt more other next after behind failed

theorem prompt_iff (told : Told turns)
    (ordered : turns.Pairwise fun first second => first.moment ≤ second.moment) :
    (∀ since, tally ends turns since = tally tells turns since) ↔ Prompt turns := by
  induction told with
  | nil =>
      refine ⟨fun _ before failing next after split => ?_, fun _ _ => rfl⟩
      exact absurd split.symm (List.append_ne_nil_of_right_ne_nil _ (List.cons_ne_nil _ _))
  | aside turn ended silent later ih =>
      rw [prompt_aside ended, ← ih (List.pairwise_cons.mp ordered).2]
      apply forall_congr'
      intro since
      rw [tally_silent _ _ ended, tally_silent _ _ silent]
  | @told failing record rest ended tellsIt later ih =>
      obtain ⟨first, ordered⟩ := List.pairwise_cons.mp ordered
      have following := first record List.mem_cons_self
      have behind := (List.pairwise_cons.mp ordered).2
      rw [prompt_told ended tellsIt, ← ih behind]
      have peel : ∀ since, tally ends (failing :: record :: rest) since =
            tally tells (failing :: record :: rest) since ↔
          tally ends rest since + (if since ≤ failing.moment then 1 else 0) =
            tally tells rest since + if since ≤ record.moment then 1 else 0 := by
        intro since
        rw [tally_counts _ _ ended, tally_silent _ _ (not_ended tellsIt),
          tally_silent _ _ (not_both ended), tally_counts _ _ tellsIt]
      constructor
      · intro agree
        have same : record.moment = failing.moment := by
          have fewer := tally_le later behind record.moment
          have counted := (peel record.moment).mp (agree record.moment)
          rw [if_pos (Int.le_refl _)] at counted
          split_ifs at counted with late
          · exact Int.le_antisymm late following
          · omega
        refine ⟨same, fun since => ?_⟩
        have counted := (peel since).mp (agree since)
        rw [same] at counted
        exact Nat.add_right_cancel counted
      · rintro ⟨same, agree⟩ since
        rw [peel, same, agree since]

end Counting

/-!
## All calls together
-/

section Together

open Finset

variable {turns : List Turn} {check : Exchange ports → Bool}

theorem tally_own_cons (turn : Turn) (rest : List Turn) (number : Nat) (since : Instant) :
    tally check (own (turn :: rest) number) since = tally check (own rest number) since +
      if turn.call = number then tally check [turn] since else 0 := by
  unfold own
  by_cases mine : turn.call = number
  · rw [List.filter_cons_of_pos (by simpa using mine), if_pos mine, tally_cons, tally_cons]
    exact congrArg _ (Nat.zero_add _).symm
  · rw [List.filter_cons_of_neg (by simpa using mine), if_neg mine]
    rfl

theorem tally_by_call {count : Nat} (made : ∀ turn ∈ turns, turn.call < count) (since : Instant) :
    tally check turns since = ∑ number ∈ range count, tally check (own turns number) since := by
  induction turns with
  | nil => exact (sum_eq_zero fun _ _ => rfl).symm
  | cons turn rest ih =>
      have first : tally check (turn :: rest) since = tally check rest since + tally check [turn] since := by
        rw [tally_cons, tally_cons]
        exact congrArg _ (Nat.zero_add _).symm
      rw [sum_congr rfl fun number _ => tally_own_cons turn rest number since, sum_add_distrib,
        ← ih fun other member => made other (List.mem_cons_of_mem _ member),
        sum_ite_eq, if_pos (mem_range.mpr (made turn List.mem_cons_self)), first]

theorem fails_eq (event : Exchange ports) : fails event = (drops event || ends event) := by
  obtain ⟨request, reply⟩ := event
  cases request with
  | queue op =>
      cases op with
      | transition task toState evidence =>
          cases reply with
          | error error => cases toState <;> cases evidence <;> rfl
          | ok moved => cases toState <;> cases evidence <;> rfl
      | _ => rfl
  | _ => rfl

theorem drops_or_ends {event : Exchange ports} (ended : ends event = true) : drops event = false := by
  obtain ⟨request, reply⟩ := event
  cases request with
  | queue op =>
      cases op with
      | transition task toState evidence =>
          cases evidence with
          | none => cases toState <;> cases reply <;> cases ended
          | some evidence => cases toState <;> cases reply <;> rfl
      | _ => rfl
  | _ => rfl

theorem tally_fails (since : Instant) :
    tally fails turns since = tally drops turns since + tally ends turns since := by
  induction turns with
  | nil => rfl
  | cons turn rest ih =>
      rw [tally_cons, tally_cons, tally_cons, ih, fails_eq]
      cases ended : ends turn.event with
      | true =>
          rw [drops_or_ends ended]
          simp only [Bool.false_or, Bool.false_and, Bool.false_eq_true, if_false]
          omega
      | false =>
          simp only [Bool.or_false, Bool.false_and, Bool.false_eq_true, if_false]
          omega

theorem tally_undropped (undropped : ∀ turn ∈ turns, drops turn.event = false) (since : Instant) :
    tally drops turns since = 0 := by
  apply List.countP_eq_zero.mpr
  intro turn member counted
  rw [undropped turn member] at counted
  cases counted

def counts (since : Instant) (event : TaskEvent) : Bool :=
  event.kind = "task.failed".toList && since ≤ event.at_

theorem count_logged (log : EventLog) (since : Instant) :
    (turns.foldl logged log).countP (counts since) =
      log.countP (counts since) + tally tells turns since := by
  induction turns generalizing log with
  | nil => rfl
  | cons turn rest ih =>
      have first : (logged log turn).countP (counts since) = log.countP (counts since) +
          if tells turn.event && since ≤ turn.moment then 1 else 0 := by
        obtain ⟨number, moment, request, reply⟩ := turn
        cases request with
        | record taskId kind data =>
            cases reply with
            | ok _ => exact List.countP_append.trans (congrArg _ List.countP_singleton)
            | error error => rfl
        | _ => rfl
      rw [List.foldl_cons, ih, first, tally_cons, Nat.add_assoc, Nat.add_comm (tally tells rest since)]

theorem count_log (since : Instant) :
    (logOf turns).count "task.failed" since = tally tells turns since := by
  have counted := @count_logged turns [] since
  rw [List.countP_nil, Nat.zero_add] at counted
  exact congrArg Int.ofNat counted

theorem failures_eq (since : Instant) : failures turns since = tally fails turns since := rfl

theorem pairwise_own {number : Nat}
    (ordered : turns.Pairwise fun first second => first.moment ≤ second.moment) :
    (own turns number).Pairwise fun first second => first.moment ≤ second.moment :=
  ordered.sublist List.filter_sublist

theorem earliest (ordered : turns.Pairwise fun first second => first.moment ≤ second.moment) :
    ∃ start, ∀ turn ∈ turns, start ≤ turn.moment := by
  cases turns with
  | nil => exact ⟨0, fun turn never => absurd never List.not_mem_nil⟩
  | cons first rest =>
      refine ⟨first.moment, fun turn member => ?_⟩
      rcases List.mem_cons.mp member with rfl | later
      · exact Int.le_refl _
      · exact (List.pairwise_cons.mp ordered).1 turn later

variable [Unicode] [Sha256] {calls : List Work}

theorem ran_told (ran : Ran calls turns) {number : Nat} (bound : number < calls.length) :
    Told (own turns number) := by
  have found : calls[number]? = some calls[number] := List.getElem?_eq_getElem bound
  have meets := tells_program calls[number] (ran.logging _ (List.getElem_mem bound))
  obtain ⟨outcome, execution⟩ := ran.complete number _ found
  have observed := exec_observed execution (fun _ event => ends event) false
  have tracked : ∀ request failed reply after, ending request failed reply after →
      id after = (fun (_ : Bool) event => ends event) (id failed) ⟨request, reply⟩ :=
    fun _ _ _ _ answered => answered
  apply told_of_trace
  · intro before event after split
    obtain ⟨middle, rfl, permitted⟩ := @Meets.permits ports Unit Bool ending mayTell Bool _ _ _ _ _ _
      meets observed (fun _ event => ends event) id tracked before after event split
    exact permitted
  · exact meets.sound observed
  · exact fun turn member => ran.accepted turn (List.mem_of_mem_filter member)

omit [Unicode] [Sha256] in
theorem budget_trips {log : EventLog} {now : Instant} {budget : ErrorBudget}
    (enabled : 0 < budget.maxFailures)
    (reached : budget.maxFailures ≤
      log.count "task.failed" (now - budget.windowSeconds * 1000000))
    {trace : List (Exchange ports)} {outcome : Except Exn Bool}
    (execution : Exec (reading log now) budget.exhausted () trace outcome ()) :
    outcome = .ok true := by
  unfold ErrorBudget.exhausted at execution
  rw [if_neg (Int.not_le.mpr enabled)] at execution
  obtain ⟨clock, _, rest, told, _, execution⟩ := execution
  obtain rfl : clock = .ok now := told
  obtain ⟨count, _, rest, told, _, execution⟩ := execution
  obtain rfl : count = .ok _ := told
  obtain ⟨_, rfl, _⟩ := execution
  exact congrArg Except.ok (decide_eq_true reached)

/-- The budget sees every failure exactly where each of them ends a run in its worktree and
no time passes before its record. -/
theorem failures_seen_iff (ran : Ran calls turns) : SeesFailures turns ↔ EndsOnly turns := by
  have made := ran.made
  have below : ∀ number ∈ range calls.length, ∀ since,
      tally ends (own turns number) since ≤ tally tells (own turns number) since :=
    fun number member since =>
      tally_le (ran_told ran (mem_range.mp member)) (pairwise_own ran.ordered) since
  have agree : (∀ since, (logOf turns).count "task.failed" since = failures turns since) ↔
      ∀ since, tally tells turns since = tally drops turns since + tally ends turns since := by
    apply forall_congr'
    intro since
    rw [count_log, failures_eq, tally_fails]
    exact Int.ofNat_inj
  constructor
  · intro sees
    have counted := agree.mp sees.counted
    have undropped : ∀ turn ∈ turns, drops turn.event = false := by
      obtain ⟨start, early⟩ := earliest ran.ordered
      have ended : tally ends turns start = tally tells turns start := by
        rw [tally_by_call made start, tally_by_call made start]
        apply sum_congr rfl
        intro number member
        exact tally_all (ran_told ran (mem_range.mp member)) start fun turn kept =>
          early turn (List.mem_of_mem_filter kept)
      have none_ : tally drops turns start = 0 := by
        have all := counted start
        omega
      intro turn member
      have silent := List.countP_eq_zero.mp none_ turn member
      rw [decide_eq_true (early turn member), Bool.and_true] at silent
      exact Bool.of_not_eq_true silent
    refine ⟨undropped, fun number => ?_⟩
    by_cases bound : number < calls.length
    · apply (prompt_iff (ran_told ran bound) (pairwise_own ran.ordered)).mp
      intro since
      have all := counted since
      rw [tally_undropped undropped, Nat.zero_add, tally_by_call made since,
        tally_by_call made since] at all
      exact (sum_eq_sum_iff_of_le fun number member => below number member since).mp all.symm
        number (mem_range.mpr bound)
    · have none_ : own turns number = [] := by
        apply List.filter_eq_nil_iff.mpr
        intro turn member same
        exact bound (of_decide_eq_true same ▸ made turn member)
      rw [none_]
      intro before failing next after split
      exact absurd split.symm (List.append_ne_nil_of_right_ne_nil _ (List.cons_ne_nil _ _))
  · intro endsOnly
    have counted : ∀ since, (logOf turns).count "task.failed" since = failures turns since := by
      rw [agree]
      intro since
      rw [tally_undropped endsOnly.undropped, Nat.zero_add, tally_by_call made since,
        tally_by_call made since]
      apply sum_congr rfl
      intro number member
      exact ((prompt_iff (ran_told ran (mem_range.mp member)) (pairwise_own ran.ordered)).mpr
        (endsOnly.prompt number) since).symm
    refine ⟨counted, fun budget now enabled reached trace outcome execution => ?_⟩
    apply budget_trips enabled _ execution
    rw [counted]
    exact reached

end Together

section Example

def refuses : Exchange ports → Bool
  | ⟨.record _ _ _, .error _⟩ => true
  | _ => false

def turnsOf (events : List (Exchange ports)) : List Turn := events.map fun event => ⟨0, 0, event⟩

theorem ran_alone [Unicode] [Sha256] (work : Work) (logging : (executorOf work).events = true)
    (answer : (request : Request) → Unit → Except Exn request.Result × Unit)
    (accepted : (run answer work.program ()).1.any refuses = false) :
    Ran [work] (turnsOf (run answer work.program ()).1) where
  logging other member := by
    rw [List.mem_singleton.mp member]
    exact logging
  ordered := by
    apply List.pairwise_map.mpr
    exact List.pairwise_of_forall fun _ _ => Int.le_refl _
  made turn member := by
    obtain ⟨event, _, rfl⟩ := List.mem_map.mp member
    exact Nat.zero_lt_one
  complete number other found := by
    cases number with
    | succ n => cases found
    | zero =>
        cases found
        have execution := exec_run anything answer (fun _ _ => trivial) work.program ()
        refine ⟨(run answer work.program ()).2.1, ?_⟩
        have all : own (turnsOf (run answer work.program ()).1) 0 =
            turnsOf (run answer work.program ()).1 := by
          apply List.filter_eq_self.mpr
          intro turn member
          obtain ⟨event, _, rfl⟩ := List.mem_map.mp member
          rfl
        rw [all, turnsOf, List.map_map]
        exact (List.map_id _).symm ▸ execution
  accepted turn member taskId kind data reply same := by
    obtain ⟨event, among, rfl⟩ := List.mem_map.mp member
    have kept := List.any_eq_false.mp accepted event among
    cases reply with
    | ok value => rfl
    | error error =>
        change event = _ at same
        rw [same] at kept
        exact absurd rfl kept

def budgetTask : Task where
  id := "m1"
  transportId := "m1"
  state := .queued
  createdAt := 0

/-- One execution, whose harness fails where its worktree could be created. -/
def budgetWork : Work :=
  .execute { repoPath := "/repo", worktreesRoot := "/worktrees", events := true } budgetTask
    { repoUrl := "acme/widget", instructions := "Fix it" } none none

def routine (created : Except Exn Worktree) (request : Request) (_ : Unit) :
    Except Exn request.Result × Unit :=
  match request with
  | .queue (.claim _ _) => (.ok true, ())
  | .queue (.get _) => (.ok (some { budgetTask with state := .running }), ())
  | .queue (.transition task toState evidence) =>
      (.ok { task with state := toState, evidence := evidence }, ())
  | .record _ _ _ | .removeWorktree _ => (.ok (), ())
  | .createWorktree _ _ _ _ => (created, ())
  | .runHarness _ _ _ => (.ok { exitCode := 1 }, ())
  | _ => (.error (.runtimeError "not reached"), ())

local instance budgetTables : Unicode := asciiTables

local instance budgetDigests : Sha256 := TaskExecutor.exampleSha256

def budgetTurns (created : Except Exn Worktree) : List Turn :=
  turnsOf (run (routine created) budgetWork.program ()).1

def unwritable : Except Exn Worktree := .error (.worktreeError "cannot create the worktree")

def widgetTree : Except Exn Worktree := .ok ⟨"/repo", "/worktrees/m1", "dear-agent/m1"⟩

theorem widget_ends_only : EndsOnly (budgetTurns widgetTree) where
  undropped turn member := by
    have silent : (budgetTurns widgetTree).all (fun turn => !drops turn.event) = true := by
      decide
    exact Bool.not_eq_true' _ ▸ List.all_eq_true.mp silent turn member
  prompt number before failing next after split _ := by
    have each : ∀ turn ∈ own (budgetTurns widgetTree) number, turn.moment = 0 := by
      intro turn member
      obtain ⟨event, _, rfl⟩ := List.mem_map.mp (List.mem_of_mem_filter member)
      rfl
    rw [split] at each
    rw [each failing (by simp), each next (by simp)]

theorem failed_run_seen :
    SeesFailures (budgetTurns widgetTree) ∧ failures (budgetTurns widgetTree) 0 = 1 := by
  have ran : Ran [budgetWork] (budgetTurns widgetTree) :=
    ran_alone budgetWork rfl (routine widgetTree) (by decide)
  exact ⟨(failures_seen_iff ran).mpr widget_ends_only, by decide⟩

/-- A task that is failed since its worktree cannot be created is not. -/
theorem uncreated_worktree_unseen :
    Ran [budgetWork] (budgetTurns unwritable) ∧ ¬SeesFailures (budgetTurns unwritable) := by
  refine ⟨ran_alone budgetWork rfl (routine unwritable) (by decide), fun sees => ?_⟩
  have counted := sees.counted 0
  have never : (logOf (budgetTurns unwritable)).count "task.failed" 0 ≠
      failures (budgetTurns unwritable) 0 := by decide
  exact never counted

end Example

end DearAgent.Budget
