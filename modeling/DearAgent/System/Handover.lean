import DearAgent.System.Terminal
import DearAgent.WorkerFactory

/-!
# What the guards of a worker see

The guards of a worker read the spec stored with a task, and what it hands to
its executor is the spec the resolver returns. Where the two agree, the checks
were made for the spec that runs. A task stored without a spec passes the
guards unchecked, whatever the message says from which its spec is read later.
-/

namespace DearAgent.Handover

open DearAgent.Lib.Text DearAgent.Lib.Effects DearAgent.Lib.Interleaving DearAgent.Queue

set_option autoImplicit false

/-- The worker whose `run` or `run_next` an operation is. -/
def workerOf : Operation → Option TaskWorker
  | .work (.run worker _) | .work (.runNext worker) => some worker
  | _ => none

def ReadDone (own : Own) (id : Str) : Prop :=
  ∃ dependency, (⟨.queue (.get id), .ok (some dependency)⟩ : Exchange ports) ∈ own ∧
    dependency.state = .done

section Statements

variable [Unicode] (policies : List ProjectPolicy)

/-- The policy of the repository, if there is one, is enabled. -/
def Permits (repo : Str) : Prop := ∀ policy, forRepo policies repo = some policy → policy.enabled = true

/-- What was asked before was enough to run the spec. -/
structure Guarded (worker : TaskWorker) (spec : TaskSpec) (checked : Own) : Prop where
  dependencies : ∀ id ∈ spec.dependsOn, ReadDone checked id
  policy : worker.policies = true → Permits policies spec.repoUrl

/-- The worker resolved the spec after `checked`, and its executor has since
turned to the queue. -/
def HandedOver (worker : TaskWorker) (own : Own) (task : Task) (spec : TaskSpec)
    (checked : Own) : Prop :=
  ∃ after : Own, own = checked ++ ⟨.resolveSpec task worker.repoPath, .ok spec⟩ :: after ∧
    ∃ op, ∃ reply : op.Reply, (⟨.queue op, reply⟩ : Exchange ports) ∈ after

/-- What the guards read of the task is what they would have to read of the
spec, or there is nothing to find. -/
def SeenByGuards (worker : TaskWorker) (task : Task) (spec : TaskSpec) : Prop :=
  (∃ stored, task.spec = some stored ∧ stored.dependsOn = spec.dependsOn ∧
    stored.repoUrl = spec.repoUrl) ∨
  (spec.dependsOn = [] ∧ (worker.policies = true → Permits policies spec.repoUrl))

variable {σ : Type}

/-- A turn in which a worker resolves no spec but one its guards have seen. -/
def ResolvesSeen (_ : Config ports Operation σ) (entry : Entry ports Operation) : Prop :=
  ∀ worker task repoPath spec, workerOf entry.operation = some worker →
    entry.event = ⟨.resolveSpec task repoPath, .ok spec⟩ → SeenByGuards policies worker task spec

/-- A spec that a worker resolves was guarded by what it asked before. -/
def ResolvesGuarded (operation : Operation) (checked : Own) (event : Exchange ports) : Prop :=
  ∀ worker task repoPath spec, workerOf operation = some worker →
    event = ⟨.resolveSpec task repoPath, .ok spec⟩ → Guarded policies worker spec checked

/-- The policy store, where it answers, finds the first policy that matches. -/
def Governs : Exchange ports → Prop
  | ⟨.policyForRepo repo, .ok found⟩ => found = forRepo policies repo
  | _ => True

/-- The surroundings of the programs under a fixed list of policies. -/
def governed (Q : QueueBackend) (A : ApprovalBackend) : Env ports (World Q A) :=
  fun request world reply after =>
    surroundings Q A request world reply after ∧ Governs policies ⟨request, reply⟩

/-- A worker asks for a spec only after it checked the one stored with the task. -/
def May (operation : Operation) (own : Own) : Request → Prop
  | .resolveSpec task _ => ∀ worker stored, workerOf operation = some worker →
      task.spec = some stored → Guarded policies worker stored own
  | _ => True

end Statements

section Programs

variable [Unicode] {policies : List ProjectPolicy} {operation : Operation} {worker : TaskWorker}
  {own : Own} {task : Task} {α β : Type}

abbrev Keeps (policies : List ProjectPolicy) (operation : Operation) (program : Code α) (own : Own)
    (post : Own → Except Exn α → Prop) : Prop :=
  Meets (heard (Governs policies)) (May policies operation) program own post

omit [Unicode] in
theorem ReadDone.later {id : Str} (read : ReadDone own id) (more : Own) :
    ReadDone (own ++ more) id := by
  obtain ⟨dependency, asked, done⟩ := read
  exact ⟨dependency, List.mem_append_left _ asked, done⟩

def Unresolving : Request → Prop
  | .resolveSpec _ _ => False
  | _ => True

theorem may_unresolving {request : Request} (unresolving : Unresolving request) (own : Own) :
    May policies operation own request := by
  cases request with
  | resolveSpec task repoPath => exact absurd unresolving not_false
  | _ => trivial

theorem keeps_unresolving {program : Code α} (asks : Asks Unresolving program)
    (held : Own → Prop) (grows : ∀ own event, held own → held (own ++ [event])) (holds : held own) :
    Keeps policies operation program own fun after _ => held after := by
  apply asks.meets held _ _ holds
  · intro own request _ unresolving
    exact may_unresolving unresolving own
  · intro own request reply after holds _ answered
    rw [answered.2]
    exact grows own ⟨request, reply⟩ holds

theorem keeps_anything {program : Code α} (asks : Asks Unresolving program) :
    Keeps policies operation program own fun _ _ => True :=
  keeps_unresolving asks (fun _ => True) (fun _ _ _ => trivial) trivial

theorem meets_unbound (none : workerOf operation = none) (program : Code α) :
    Keeps policies operation program own fun _ _ => True := by
  induction program generalizing own with
  | ret value => trivial
  | raise error => trivial
  | ask request next ih =>
      constructor
      · cases request with
        | resolveSpec task repoPath =>
            intro worker stored works
            rw [none] at works
            cases works
        | _ => trivial
      · intro reply after _
        exact ih reply

theorem keeps_refusal {program : Code β} {error : Exn} (asks : Asks Unresolving program)
    (held : Own → Prop) (grows : ∀ own event, held own → held (own ++ [event])) (holds : held own) :
    Keeps policies operation (program >>= fun _ => (.raise error : Code α)) own
      fun after outcome => held after ∧ ∀ value, outcome ≠ .ok value := by
  apply (keeps_unresolving asks held grows holds).seq
  · intro after _ holds
    exact ⟨holds, fun value same => by cases same⟩
  · intro after raised holds
    exact ⟨holds, fun value same => by cases same⟩

omit [Unicode] in
theorem unresolving_guarding {program : Code α} (asks : Asks (TaskWorker.Guarding task) program) :
    Asks Unresolving program := by
  apply asks.mono
  intro request guarding
  cases request with
  | resolveSpec task repoPath => exact guarding
  | _ => trivial

omit [Unicode] in
theorem unresolving_looking {program : Code α} (asks : Asks TaskWorker.Looking program) :
    Asks Unresolving program := by
  apply asks.mono
  intro request looking
  cases request with
  | resolveSpec task repoPath => exact looking
  | _ => trivial

/-- The dependencies of the stored spec were all found done. -/
def DependenciesRead (task : Task) (own : Own) : Prop :=
  ∀ stored, task.spec = some stored → ∀ id ∈ stored.dependsOn, ReadDone own id

omit [Unicode] in
theorem dependencies_read_later (own : Own) (event : Exchange ports)
    (read : DependenciesRead task own) : DependenciesRead task (own ++ [event]) :=
  fun stored same id member => (read stored same id member).later _

theorem keeps_check_dependencies (ids blocked failed seen : List Str)
    (before : ∀ id ∈ seen, ReadDone own id) :
    Keeps policies operation (checkDependencies blocked failed ids) own fun after outcome =>
      outcome = .ok ([], []) →
        blocked = [] ∧ failed = [] ∧ ∀ id ∈ seen ++ ids, ReadDone after id := by
  induction ids generalizing own blocked failed seen with
  | nil =>
      intro ended
      cases ended
      exact ⟨rfl, rfl, by rwa [List.append_nil]⟩
  | cons depId rest ih =>
      apply meets_call_bind trivial
      · intro found after answered
        have known : ∀ id ∈ seen, ReadDone after id := by
          intro id member
          rw [answered.2]
          exact (before id member).later _
        have waiting : ∀ blocked' failed', blocked' ≠ [] ∨ failed' ≠ [] →
            Keeps policies operation (checkDependencies blocked' failed' rest) after
              fun after outcome => outcome = .ok ([], []) →
                blocked = [] ∧ failed = [] ∧ ∀ id ∈ seen ++ depId :: rest, ReadDone after id := by
          intro blocked' failed' kept
          apply (ih blocked' failed' seen known).post
          intro after outcome reached ended
          have empty := reached ended
          exact absurd kept (by simp [empty.1, empty.2.1])
        cases found with
        | none => exact waiting _ _ (.inl (by simp))
        | some dependency =>
            cases state : dependency.state with
            | done =>
                have read : ∀ id ∈ seen ++ [depId], ReadDone after id := by
                  intro id member
                  rcases List.mem_append.mp member with early | last
                  · exact known id early
                  · rw [List.mem_singleton.mp last, answered.2]
                    exact ⟨dependency, List.mem_append_right _ (List.mem_singleton_self _), state⟩
                simp only [Option.map_some, state]
                apply (ih blocked failed (seen ++ [depId]) read).post
                intro after outcome reached ended
                have empty := reached ended
                rw [List.append_assoc, List.singleton_append] at empty
                exact empty
            | failed | rejected =>
                simp only [Option.map_some, state]
                exact waiting _ _ (.inr (by simp))
            | received | queued | running | action | approved =>
                simp only [Option.map_some, state]
                exact waiting _ _ (.inl (by simp))
      · intro error after answered ended
        cases ended

theorem keeps_dependency_status :
    Keeps policies operation (dependencyStatus task) own fun after outcome =>
      ∀ status, outcome = .ok status → status.state = .ready → DependenciesRead task after := by
  unfold dependencyStatus
  by_cases independent : ((task.spec.map TaskSpec.dependsOn).getD []).isEmpty
  · simp only [independent, if_true]
    intro status _ _ stored own id member
    rw [own, List.isEmpty_iff] at independent
    change stored.dependsOn = [] at independent
    rw [independent] at member
    exact absurd member List.not_mem_nil
  · simp only [independent, Bool.false_eq_true, if_false]
    have nothing : ∀ id ∈ ([] : List Str), ReadDone own id :=
      fun id member => absurd member List.not_mem_nil
    apply (keeps_check_dependencies ((task.spec.map TaskSpec.dependsOn).getD []) [] [] []
      nothing).seq
    · intro after found reached
      by_cases failing : !found.2.isEmpty
      · rw [if_pos failing]
        intro status same ready
        cases same
        cases ready
      · rw [if_neg failing]
        by_cases blocking : !found.1.isEmpty
        · rw [if_pos blocking]
          intro status same ready
          cases same
          cases ready
        · rw [if_neg blocking]
          intro status _ _ stored own id member
          have empty : found = ([], []) := Prod.ext (by simpa using blocking) (by simpa using failing)
          have all := (reached (congrArg Except.ok empty)).2.2
          apply all id
          rw [own]
          exact member
    · intro after error _ status same
      cases same

theorem keeps_failing {program : Code β} {error : Exn} (asks : Asks Unresolving program)
    (held : Own → Prop) (grows : ∀ own event, held own → held (own ++ [event])) (holds : held own) :
    Keeps policies operation
      (Queue.transition task .failed >>= fun _ => program >>= fun _ => (.raise error : Code α)) own
      fun after outcome => held after ∧ ∀ value, outcome ≠ .ok value := by
  apply (keeps_unresolving (asks_call (by exact trivial)) held grows holds).seq
  · intro after _ holds
    exact keeps_refusal asks held grows holds
  · intro after raised holds
    exact ⟨holds, fun value same => by cases same⟩

theorem keeps_guard_dependencies :
    Keeps policies operation (worker.guardDependencies task) own fun after outcome =>
      outcome = .ok () → DependenciesRead task after := by
  have telling : ∀ kind data, Asks Unresolving (emit worker.events task.id kind data) :=
    fun kind data => asks_emit (fun _ _ _ => trivial) worker.events task.id kind data
  apply keeps_dependency_status.seq
  · intro after status reached
    cases state : status.state with
    | ready => exact fun _ => reached status rfl state
    | failed =>
        apply (keeps_failing (telling _ _) (fun _ => True) (fun _ _ _ => trivial) trivial).post
        intro last outcome refused ended
        exact absurd ended (refused.2 ())
    | blocked =>
        apply (keeps_refusal (telling _ _) (fun _ => True) (fun _ _ _ => trivial) trivial).post
        intro last outcome refused ended
        exact absurd ended (refused.2 ())
  · intro after error _ ended
    cases ended

/-- The repository of the stored spec is one the policies permit. -/
def PolicyRead (policies : List ProjectPolicy) (worker : TaskWorker) (task : Task) : Prop :=
  worker.policies = true → ∀ stored, task.spec = some stored → Permits policies stored.repoUrl

theorem keeps_policy_for (read : DependenciesRead task own) :
    Keeps policies operation (worker.policyFor task) own fun after outcome =>
      DependenciesRead task after ∧ ∀ found, outcome = .ok found →
        worker.policies = true → ∀ stored, task.spec = some stored →
          forRepo policies stored.repoUrl = found := by
  unfold TaskWorker.policyFor
  cases governs : worker.policies with
  | false =>
      refine ⟨read, ?_⟩
      intro found _ asked
      cases asked
  | true =>
      cases kept : task.spec with
      | none =>
          refine ⟨read, ?_⟩
          intro found _ _ stored same
          cases same
      | some stored =>
          apply meets_call trivial
          intro reply after answered
          rw [answered.2]
          refine ⟨dependencies_read_later _ _ read, ?_⟩
          intro found same _ other own
          cases same
          cases own
          exact answered.1.symm

theorem keeps_guard_policy (read : DependenciesRead task own) :
    Keeps policies operation (worker.guardPolicy task) own fun after outcome =>
      DependenciesRead task after ∧ (outcome = .ok () → PolicyRead policies worker task) := by
  apply (keeps_policy_for read).seq
  · intro after found reached
    have kept := reached.1
    have governed := reached.2 found rfl
    cases found with
    | none =>
        refine ⟨kept, ?_⟩
        intro _ configured stored own policy found
        rw [governed configured stored own] at found
        cases found
    | some policy =>
        simp only
        by_cases enabled : policy.enabled
        · rw [if_pos enabled]
          refine ⟨kept, ?_⟩
          intro _ configured stored own other found
          rw [governed configured stored own] at found
          cases found
          exact enabled
        · rw [if_neg enabled]
          apply (keeps_failing (asks_emit (fun _ _ _ => trivial) _ _ _ _) (DependenciesRead task)
            dependencies_read_later kept).post
          intro last outcome refused
          refine ⟨refused.1, ?_⟩
          intro ended
          exact absurd ended (refused.2 ())
  · intro after error reached
    refine ⟨reached.1, ?_⟩
    intro ended
    cases ended

theorem keeps_runnable (read : DependenciesRead task own) :
    Keeps policies operation (worker.runnable task) own fun after outcome =>
      DependenciesRead task after ∧ (outcome = .ok true → PolicyRead policies worker task) := by
  have guarded : Keeps policies operation (do
      worker.guardAttempts task
      worker.guardPolicy task
      .ret true) own fun after outcome =>
        DependenciesRead task after ∧ (outcome = .ok true → PolicyRead policies worker task) := by
    apply (keeps_unresolving (unresolving_guarding
      (TaskWorker.asks_guard_attempts worker task)) (DependenciesRead task) dependencies_read_later
      read).seq
    · intro after _ read
      apply (keeps_guard_policy read).seq
      · intro after _ reached
        exact ⟨reached.1, fun _ => reached.2 rfl⟩
      · intro after error reached
        exact ⟨reached.1, fun ended => by cases ended⟩
    · intro after error read
      exact ⟨read, fun ended => by cases ended⟩
  apply (meets_catch _ _ _ _).mpr
  apply guarded.post
  intro after outcome reached
  cases outcome with
  | ok value => exact reached
  | error error =>
      change Keeps policies operation (if error.isTaskWorkerError then .ret false else .raise error)
        after _
      by_cases refused : error.isTaskWorkerError
      · rw [if_pos refused]
        exact ⟨reached.1, fun ended => by cases ended⟩
      · rw [if_neg refused]
        exact ⟨reached.1, fun ended => by cases ended⟩

section Execution

variable [Sha256] (executor : TaskExecutor) (spec : TaskSpec) (recipient : Option Str)
  (verifier : Option CommandVerifier)

omit [Unicode] in
theorem unresolving_execute_claimed [Unicode] :
    Asks Unresolving (executor.executeClaimed task spec recipient verifier) := by
  apply asks_bind (asks_call (by exact trivial))
  intro found
  cases found with
  | none => trivial
  | some running =>
      apply (TaskExecutor.asks_execute_running executor task running spec verifier recipient).mono
      intro request executing
      cases request with
      | resolveSpec task repoPath => exact executing
      | _ => trivial

omit [Unicode] in
theorem unresolving_execute [Unicode] :
    Asks Unresolving (executor.execute task spec recipient false verifier) := by
  apply asks_bind (asks_call (by exact trivial))
  intro taken
  cases taken with
  | false => trivial
  | true => exact unresolving_execute_claimed executor spec recipient verifier

omit [Sha256] in
theorem keeps_resolved (works : workerOf operation = some worker)
    (read : DependenciesRead task own) (permitted : PolicyRead policies worker task)
    {next : TaskSpec → Code α} (asks : ∀ resolved, Asks Unresolving (next resolved)) :
    Keeps policies operation (call (.resolveSpec task worker.repoPath) >>= next) own
      fun _ _ => True := by
  apply meets_call_bind
  · intro worker' stored other same
    obtain rfl : worker = worker' := Option.some.inj (works.symm.trans other)
    exact ⟨read stored same, fun configured => permitted configured stored same⟩
  · intro resolved after _
    exact keeps_anything (asks resolved)
  · intro error after _
    trivial

omit [Unicode] [Sha256] in
theorem unresolving_effective (resolved : TaskSpec) :
    Asks Unresolving (worker.effective task resolved) :=
  unresolving_looking (TaskWorker.asks_effective worker task resolved)

theorem keeps_run (worker : TaskWorker) (taskId : Str) :
    Keeps policies (.work (.run worker taskId)) (worker.run taskId) own fun _ _ => True := by
  apply meets_call_bind trivial
  · intro found after _
    cases found with
    | none => trivial
    | some task =>
        apply (keeps_anything (unresolving_looking
          (TaskWorker.asks_guard_budget worker task.id))).seq _ fun _ _ _ => trivial
        intro own _ _
        apply (keeps_anything (unresolving_guarding
          (TaskWorker.asks_guard_attempts worker task))).seq _ fun _ _ _ => trivial
        intro own _ _
        apply keeps_guard_dependencies.seq _ fun _ _ _ => trivial
        intro own _ checked
        apply (keeps_guard_policy (checked rfl)).seq _ fun _ _ _ => trivial
        intro own _ reached
        have works : workerOf (.work (.run worker taskId)) = some worker := rfl
        apply keeps_resolved works reached.1 (reached.2 rfl)
        intro resolved
        apply asks_bind (unresolving_effective resolved)
        intro effective
        exact unresolving_execute worker.executor effective.1 worker.recipient effective.2
  · intro error after _
    trivial

theorem keeps_run_claimed (read : DependenciesRead task own)
    (permitted : PolicyRead policies worker task) :
    Keeps policies (.work (.runNext worker)) (worker.runClaimed task) own fun _ _ => True := by
  have works : workerOf (.work (.runNext worker)) = some worker := rfl
  apply keeps_resolved works read permitted
  intro resolved
  apply asks_bind (unresolving_effective resolved)
  intro effective
  exact unresolving_execute_claimed worker.executor effective.1 worker.recipient effective.2

theorem keeps_run_first (worker : TaskWorker) (tasks : List Task) :
    Keeps policies (.work (.runNext worker)) (worker.runFirst tasks) own fun _ _ => True := by
  induction tasks generalizing own with
  | nil => trivial
  | cons task rest ih =>
      have telling : ∀ kind data, Asks Unresolving (emit worker.events task.id kind data) :=
        fun kind data => asks_emit (fun _ _ _ => trivial) worker.events task.id kind data
      apply keeps_dependency_status.seq _ fun _ _ _ => trivial
      intro own status reached
      cases state : status.state with
      | failed =>
          apply meets_call_bind trivial _ fun _ _ _ => trivial
          intro moved own _
          apply (keeps_anything (telling _ _)).seq _ fun _ _ _ => trivial
          intro own _ _
          exact ih
      | blocked =>
          apply (keeps_anything (telling _ _)).seq _ fun _ _ _ => trivial
          intro own _ _
          exact ih
      | ready =>
          apply (keeps_runnable (reached status rfl state)).seq _ fun _ _ _ => trivial
          intro own passed checked
          cases passed with
          | false => exact ih
          | true =>
              apply meets_call_bind trivial _ fun _ _ _ => trivial
              intro taken after answered
              cases taken with
              | false => exact ih
              | true =>
                  have read : DependenciesRead task after := by
                    rw [answered.2]
                    exact dependencies_read_later _ _ checked.1
                  exact keeps_run_claimed read (checked.2 rfl)

theorem keeps_run_next (worker : TaskWorker) :
    Keeps policies (.work (.runNext worker)) worker.runNext own fun _ _ => True := by
  apply (keeps_anything (unresolving_looking
    (TaskWorker.asks_guard_budget worker _))).seq _ fun _ _ _ => trivial
  intro own _ _
  apply meets_call_bind trivial _ fun _ _ _ => trivial
  intro page after _
  exact keeps_run_first worker page

theorem keeps_work (job : Work) :
    Keeps policies (.work job) job.program [] fun _ _ => True := by
  cases job with
  | run worker taskId =>
      apply (keeps_run worker taskId).seq _ fun _ _ _ => trivial
      intro own _ _
      trivial
  | runNext worker =>
      apply (keeps_run_next worker).seq _ fun _ _ _ => trivial
      intro own _ _
      trivial
  | execute executor task spec recipient verifier =>
      apply keeps_anything
      apply asks_bind (unresolving_execute executor spec recipient verifier)
      intro _
      trivial
  | executeNext executor lease spec recipient verifier =>
      apply keeps_anything
      apply asks_bind (asks_call (by exact trivial))
      intro taken
      cases taken with
      | none => trivial
      | some task =>
          apply asks_bind (unresolving_execute_claimed executor spec recipient verifier)
          intro _
          trivial

end Execution

theorem keeps_start [Sha256] (operation : Operation) :
    Keeps policies operation operation.start [] fun _ _ => True := by
  cases operation with
  | work job => exact keeps_work job
  | ingest plane messages recipient => exact meets_unbound rfl _
  | apply reply sender threadId => exact meets_unbound rfl _
  | dispatchOnce dispatcher => exact meets_unbound rfl _
  | releaseStale now => exact meets_unbound rfl _

end Programs

section Runs

variable {Q : QueueBackend} {A : ApprovalBackend} [Unicode] [Sha256]
  {policies : List ProjectPolicy}

omit [Sha256] in
/-- The spec stored with a task that a covered turn resolves stands for the one that runs. -/
theorem guarded_of_seen {worker : TaskWorker} {task : Task} {spec : TaskSpec} {own : Own}
    (seen : SeenByGuards policies worker task spec)
    (checked : ∀ stored, task.spec = some stored → Guarded policies worker stored own) :
    Guarded policies worker spec own := by
  rcases seen with ⟨stored, same, dependencies, repo⟩ | ⟨independent, permitted⟩
  · have guarded := checked stored same
    constructor
    · rw [← dependencies]
      exact guarded.dependencies
    · rw [← repo]
      exact guarded.policy
  · constructor
    · intro id member
      rw [independent] at member
      exact absurd member List.not_mem_nil
    · exact permitted

omit [Sha256] in
/-- What the resolver of the workers finds for a task stored with a spec was seen. -/
theorem stored_seen {resolver : WorktreeSpecResolver} {worker : TaskWorker} {task : Task}
    {repoPath : Str} {stored spec : TaskSpec} (own : task.spec = some stored)
    (resolved : resolver.resolve task repoPath = .ok spec) :
    SeenByGuards policies worker task spec := by
  obtain rfl := WorktreeSpecResolver.resolve_stored own resolved
  exact .inl ⟨spec, own, rfl, rfl⟩

theorem read_was_done {world : World Q A} {c : Config ports Operation (World Q A)}
    (reachable : Reachable (governed policies Q A) Operation.start world c) {pid : Nat} {id : Str}
    (read : ReadDone (own c.history pid) id) :
    ∃ earlier, Run (governed policies Q A) Operation.start anyTurn earlier c ∧
      ∃ dependency, earlier.shared.board id = some dependency ∧ dependency.state = .done := by
  obtain ⟨dependency, asked, done⟩ := read
  obtain ⟨⟨reader, operation, exchange⟩, listed, _, rfl⟩ := mem_own asked
  obtain ⟨before, after, split⟩ := List.append_of_mem listed
  obtain ⟨earlier, next, later, _, _, scheduled, answered, run⟩ := reachable_before reachable split
  refine ⟨earlier, .head (.act earlier _ next later scheduled answered trivial) run, dependency, ?_,
    done⟩
  rcases answered.1 with served | ⟨_, ⟨error, raised, _⟩, _⟩
  · obtain ⟨now, spec⟩ := (served_spec served).1
    exact (Except.ok.inj spec.1).symm
  · cases raised

/-- The guards apply to what is executed, in every run in which the workers
resolve no spec but those their guards have seen. -/
theorem handed_over_guarded {world : World Q A} {c : Config ports Operation (World Q A)}
    (run : GuardedRun (governed policies Q A) Operation.start (ResolvesSeen policies)
      (initial world) c)
    {pid : Nat} {process : Process ports Operation} (found : c.processes[pid]? = some process)
    {worker : TaskWorker} (works : workerOf process.operation = some worker)
    {task : Task} {spec : TaskSpec} {checked : Own}
    (handed : HandedOver worker (own c.history pid) task spec checked) :
    Guarded policies worker spec checked ∧ ∀ id ∈ spec.dependsOn, ∃ earlier,
      Run (governed policies Q A) Operation.start anyTurn earlier c ∧
      ∃ dependency, earlier.shared.board id = some dependency ∧ dependency.state = .done := by
  obtain ⟨after, split, _⟩ := handed
  have truthful : ∀ (c : Config ports Operation (World Q A)) (entry : Entry ports Operation)
      (next : World Q A), Reachable (governed policies Q A) Operation.start world c →
      ResolvesSeen policies c entry →
      governed policies Q A entry.event.1 c.shared entry.event.2 next →
      Governs policies entry.event :=
    fun c entry next _ _ answered => answered.2
  have turn : ∀ (c : Config ports Operation (World Q A)) (entry : Entry ports Operation)
      (rest : ports.Reply entry.event.1 → Code Unit) (next : World Q A),
      GuardedRun (governed policies Q A) Operation.start (ResolvesSeen policies) (initial world) c →
      c.processes[entry.pid]? = some ⟨entry.operation, .ask entry.event.1 rest⟩ →
      ResolvesSeen policies c entry →
      governed policies Q A entry.event.1 c.shared entry.event.2 next →
      ResolvesGuarded policies entry.operation (own c.history entry.pid) entry.event := by
    intro c entry rest next earlier scheduled sees answered worker task repoPath spec works event
    have may := (meets_throughout truthful keeps_start earlier entry.pid _ scheduled).1
    obtain ⟨pid, operation, exchange⟩ := entry
    obtain rfl : exchange = ⟨.resolveSpec task repoPath, .ok spec⟩ := event
    apply guarded_of_seen (sees worker task repoPath spec works rfl)
    intro stored same
    exact may worker stored works same
  have guarded : Guarded policies worker spec checked :=
    turns_throughout turn run pid process found checked _ after split worker task _ spec works rfl
  refine ⟨guarded, ?_⟩
  intro id member
  apply read_was_done (GuardedRun.run run)
  rw [split]
  exact (guarded.dependencies id member).later _

end Runs

section Example

open DearAgent.Work

def resolved : Exchange ports → Option (Task × Str × TaskSpec)
  | ⟨.resolveSpec task repoPath, .ok spec⟩ => some (task, repoPath, spec)
  | _ => none

def asksQueue : Exchange ports → Bool
  | ⟨.queue _, _⟩ => true
  | _ => false

theorem handed_over_at {worker : TaskWorker} {own : Own} {n : Nat} {task : Task} {spec : TaskSpec}
    (resolves : own[n]?.bind resolved = some (task, worker.repoPath, spec))
    (asks : (own.drop (n + 1)).any asksQueue = true) :
    HandedOver worker own task spec (own.take n) := by
  obtain ⟨⟨request, reply⟩, found, same⟩ := Option.bind_eq_some_iff.mp resolves
  obtain ⟨⟨asked, answer⟩, member, queue⟩ := List.any_eq_true.mp asks
  have event : (⟨request, reply⟩ : Exchange ports) =
      ⟨.resolveSpec task worker.repoPath, .ok spec⟩ := by
    unfold resolved at same
    split at same
    · rename_i shape
      cases same
      exact shape
    · cases same
  refine ⟨own.drop (n + 1), ?_, ?_⟩
  · rw [← event]
    exact split_at found
  · cases asked with
    | queue op => exact ⟨op, answer, member⟩
    | _ => cases queue

/-- A message that waits for another task, and the task of which it is the only record. -/
def mailedMessage : RawMessage where
  transportId := "m1"
  body := "repo: acme/widget\ndepends-on: m0\nFix it"

def mailedTask : Task where
  id := "m1"
  transportId := "m1"
  createdAt := 0

def mailedSpec : TaskSpec where
  repoUrl := "acme/widget"
  instructions := "Fix it"
  dependsOn := ["m0"]

def awaitedTask : Task where
  id := "m0"
  transportId := "m0"
  createdAt := 0

def handoverWorld (state : TaskState) (task : Task) :
    World MemoryQueue.backend (MemoryApprovalStore.backend 0) :=
  let step := MemoryQueue.backend.step
  let empty := ⟨MemoryQueue.empty, MemoryQueue.empty_well_formed⟩
  { queue := (step (.enqueue task .queued) 0 (step (.enqueue awaitedTask state) 0 empty).2).2
    approvals := ⟨Registry.empty, Registry.empty_well_formed⟩ }

def policyWorker : TaskWorker where
  executor := { repoPath := "/repo", worktreesRoot := "/work" }
  repoPath := "/repo"
  policies := true

variable [Unicode]

/-- Collaborators that do their work, beside a resolver that reads one message. -/
def handoverAnswers (policies : List ProjectPolicy) (request : Request) :
    Except Exn request.Result :=
  match request with
  | .policyForRepo repo => .ok (forRepo policies repo)
  | .resolveSpec task repoPath =>
      WorktreeSpecResolver.resolve ⟨.ok [mailedMessage], fun _ _ => .ok ()⟩ task repoPath
  | request => forgeAnswers [("html_url".toList, .null)] request

theorem handover_answers_governed {Q : QueueBackend} {A : ApprovalBackend}
    (policies : List ProjectPolicy) (request : Request) (world : World Q A) :
    governed policies Q A request world
      (answering zeroReadings (handoverAnswers policies) request world).1
      (answering zeroReadings (handoverAnswers policies) request world).2 := by
  refine ⟨(answering_works zeroReadings (handoverAnswers policies) request world).1, ?_⟩
  cases request <;> trivial

end Example

section Example

open DearAgent.Work

local instance handoverTables : Unicode := asciiTables

local instance handoverSha256 : Sha256 := widgetSha256

def handover (policies : List ProjectPolicy) (state : TaskState) (task : Task) : WidgetConfig :=
  play (answering zeroReadings (handoverAnswers policies)) Operation.start
    (.launch (.work (.run policyWorker "m1")) :: List.replicate 12 (.act 0))
    (initial (handoverWorld state task))

/-- The message names a dependency that is not done and a project that is disabled. -/
theorem mailed_spec_unguarded : ¬∀ (policies : List ProjectPolicy)
    (world : World MemoryQueue.backend (MemoryApprovalStore.backend 0)) (c : WidgetConfig),
      Reachable (governed policies _ _) Operation.start world c →
      ∀ pid process worker task spec checked, c.processes[pid]? = some process →
        workerOf process.operation = some worker →
        HandedOver worker (own c.history pid) task spec checked →
        Guarded policies worker spec checked := by
  intro guards
  have reachable : Reachable (governed [disabledPolicy] _ _) Operation.start
      (handoverWorld .queued mailedTask) (handover [disabledPolicy] .queued mailedTask) :=
    run_play (handover_answers_governed [disabledPolicy]) _ _ fun _ _ => trivial
  have running : ((handover [disabledPolicy] .queued mailedTask).processes[0]?.bind
      fun process => workerOf process.operation) = some policyWorker := by
    decide
  obtain ⟨process, found, works⟩ := Option.bind_eq_some_iff.mp running
  have resolves : (own (handover [disabledPolicy] .queued mailedTask).history 0)[1]?.bind resolved =
      some ({ mailedTask with state := .queued }, policyWorker.repoPath, mailedSpec) := by
    decide
  have asks : ((own (handover [disabledPolicy] .queued mailedTask).history 0).drop 2).any
      asksQueue = true := by
    decide
  have guarded := guards _ _ _ reachable 0 process policyWorker _ _ _ found works
    (handed_over_at resolves asks)
  have denied : forRepo [disabledPolicy] mailedSpec.repoUrl = some disabledPolicy := by
    decide
  have enabled : disabledPolicy.enabled = true := guarded.policy rfl disabledPolicy denied
  cases enabled

def enabledPolicy : ProjectPolicy where
  project := "widget"
  repos := ["acme/widget"]

/-- A spec that was stored with its task is handed over guarded. -/
theorem stored_spec_guarded :
    let c := handover [enabledPolicy] .done { mailedTask with spec := some mailedSpec }
    Guarded [enabledPolicy] policyWorker mailedSpec ((own c.history 0).take 3) ∧
      ∀ id ∈ mailedSpec.dependsOn, ∃ earlier,
        Run (governed [enabledPolicy] _ _) Operation.start anyTurn earlier c ∧
        ∃ dependency, earlier.shared.board id = some dependency ∧ dependency.state = .done := by
  intro c
  have sound : ∀ (c : WidgetConfig) (pid : Nat) (operation : Operation) (request : Request),
      (match request with
        | .resolveSpec task _ => task.spec.isSome
        | _ => true) = true →
      ResolvesSeen [enabledPolicy] c ⟨pid, operation, ⟨request,
        (answering zeroReadings (handoverAnswers [enabledPolicy]) request c.shared).1⟩⟩ := by
    intro c pid operation request stored worker task repoPath spec _ event
    obtain ⟨same, replied⟩ := Sigma.mk.inj event
    subst same
    obtain ⟨kept, own⟩ := Option.isSome_iff_exists.mp stored
    exact stored_seen own (eq_of_heq replied)
  have run : GuardedRun (governed [enabledPolicy] _ _) Operation.start
      (ResolvesSeen [enabledPolicy])
      (initial (handoverWorld .done { mailedTask with spec := some mailedSpec })) c :=
    guarded_run_play (handover_answers_governed [enabledPolicy]) sound _ _ (by decide)
  have running : (c.processes[0]?.bind fun process => workerOf process.operation) =
      some policyWorker := by
    decide
  obtain ⟨process, found, works⟩ := Option.bind_eq_some_iff.mp running
  have resolves : (own c.history 0)[3]?.bind resolved =
      some ({ mailedTask with state := .queued, spec := some mailedSpec }, policyWorker.repoPath,
        mailedSpec) := by
    decide
  have asks : ((own c.history 0).drop 4).any asksQueue = true := by decide
  exact handed_over_guarded run found works (handed_over_at resolves asks)

end Example

end DearAgent.Handover
