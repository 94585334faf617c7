import DearAgent.Executor.Gate
import DearAgent.Verify.Allowlist
import DearAgent.Worker

/-!
# The processes of the verify gate

`CommandVerifier.run` under the executor and the worker. A task brings the text of a command; what
is started is what a sandbox makes of a list of words that an operator wrote down, in the
configuration or in the policy of a project.
-/

namespace DearAgent.VerifyGate

open DearAgent.Lib.Text DearAgent.Lib.Effects DearAgent.Queue

set_option autoImplicit false

/-- `subprocess.CompletedProcess`. -/
structure Completed where
  returncode : Int
  stdout : Option Str := none
  stderr : Option Str := none

/-- The requests of the ports, and those of a verifier. -/
inductive Deed
  | port (request : Request)
  | wrap (sandbox : Option Sandbox) (argv : List Str) (worktree : Str)
  | execute (argv : List Str) (cwd : Str) (timeout : Int)

@[reducible] def Deed.Result : Deed → Type
  | .port request => request.Result
  | .wrap _ _ _ => List Str
  | .execute _ _ _ => Completed

@[reducible] def deeds : Signature where
  Request := Deed
  Reply deed := Except Exn deed.Result
  Raised := Exn

/-- `OSError` and its subclasses. -/
def osErrors : List Str :=
  ["OSError", "BlockingIOError", "ChildProcessError", "ConnectionError", "BrokenPipeError",
    "ConnectionAbortedError", "ConnectionRefusedError", "ConnectionResetError", "FileExistsError",
    "FileNotFoundError", "InterruptedError", "IsADirectoryError", "NotADirectoryError",
    "PermissionError", "ProcessLookupError", "TimeoutError"]

def isOtherException (names : List Str) : Exn → Bool
  | .otherException className _ => names.contains className
  | _ => false

/-- `output[-2000:]`. -/
def lastChars (output : Str) : Str := output.drop (output.length - 2000)

def notAllowed : VerifyResult where
  ok := false
  exitCode := 126
  blocked := true
  output := "verify command is not allowed"

section Running

variable [Unicode]

/-- The `try` statement of `run`. -/
def resultOf (argv : List Str) : Except Exn Completed → Program deeds VerifyResult
  | .ok completed => .ret {
      ok := completed.returncode = 0
      exitCode := completed.returncode
      output := lastChars (completed.stdout.getD [] ++ completed.stderr.getD []) }
  | .error error =>
      if isOtherException ["FileNotFoundError"] error then .ret {
        ok := false
        exitCode := 127
        output := reprText (argv.headD []) ++ " not found".toList }
      else if isOtherException ["TimeoutExpired"] error then .ret {
        ok := false
        exitCode := 124
        output := "verify timed out" }
      else if isOtherException osErrors error then .ret {
        ok := false
        exitCode := 126
        output := error.str }
      else .raise error

/-- `CommandVerifier.run`. -/
def runCommand (verifier : CommandVerifier) (command worktreePath : Str) :
    Program deeds VerifyResult :=
  match argvOf command with
  | none => .ret notAllowed
  | some argv =>
      if verifier.allowed.contains argv then
        .ask (.wrap verifier.sandbox argv worktreePath) fun
          | .error error => .raise error
          | .ok wrapped =>
              .ask (.execute wrapped worktreePath verifier.timeoutSeconds) (resultOf argv)
      else .ret notAllowed

/-- The ports, where a verification is one of a `CommandVerifier`. -/
def perform : (request : Request) → Program deeds (ports.Reply request)
  | .verify verifier command worktreePath => settle (runCommand verifier command worktreePath)
  | request => .ask (.port request) .ret

def workOver [Sha256] (work : Work) : Program deeds Unit :=
  @through ports deeds Unit perform id work.program

end Running

/-!
## Who wrote the words down
-/

abbrev Past := List (Exchange deeds)

/-- What a policy that the store gave out adds to the verifier of a worker. -/
def AddedByPolicy (past : Past) (worker : TaskWorker) (base : CommandVerifier) : Prop :=
  ∃ repo policy extra, ⟨.port (.policyForRepo repo), .ok (some policy)⟩ ∈ past ∧
    policy.extraAllowed = .ok extra ∧ base = worker.verifierWith extra

/-- A verifier that was configured, alone or with what a policy adds to it. -/
def Configured (past : Past) (base : CommandVerifier) : Work → Prop
  | .run worker _ | .runNext worker =>
      worker.executor.verifier = some base ∨ worker.verifier = some base ∨
        AddedByPolicy past worker base
  | .execute executor _ _ _ verifier | .executeNext executor _ _ _ verifier =>
      executor.verifier = some base ∨ verifier = some base

/-- A verifier in a session that was opened for a task. -/
def InSession (past : Past) (base active : CommandVerifier) : Prop :=
  ∃ task spec session, ⟨.port (.sessionFor task spec), .ok (some session)⟩ ∈ past ∧
    active = { base with sandbox := some session }

/-- A configured verifier, in the session of the run if there is one. -/
def Armed (work : Work) (past : Past) (active : CommandVerifier) : Prop :=
  ∃ base, Configured past base work ∧ (active = base ∨ InSession past base active)

/-- Every process is what the sandbox of a verifier made, just before, of words from its
allowlist. -/
def OnlyListed (work : Work) (trace : Past) : Prop :=
  ∀ before argv cwd timeout reply after,
    trace = before ++ ⟨.execute argv cwd timeout, reply⟩ :: after →
      ∃ earlier active words, before = earlier ++ [⟨.wrap active.sandbox words cwd, .ok argv⟩] ∧
        Armed work earlier active ∧ words ∈ active.allowed ∧ timeout = active.timeoutSeconds

section Growing

variable {past later : Past}

theorem AddedByPolicy.mono {worker : TaskWorker} {base : CommandVerifier}
    (added : AddedByPolicy past worker base) (kept : past ⊆ later) : AddedByPolicy later worker base := by
  obtain ⟨repo, policy, extra, known, split, same⟩ := added
  exact ⟨repo, policy, extra, kept known, split, same⟩

theorem Configured.mono {base : CommandVerifier} {work : Work} (configured : Configured past base work)
    (kept : past ⊆ later) : Configured later base work := by
  cases work with
  | run worker taskId => exact configured.imp_right fun more => more.imp_right (·.mono kept)
  | runNext worker => exact configured.imp_right fun more => more.imp_right (·.mono kept)
  | execute executor task spec recipient verifier => exact configured
  | executeNext executor lease spec recipient verifier => exact configured

theorem InSession.mono {base active : CommandVerifier} (inside : InSession past base active)
    (kept : past ⊆ later) : InSession later base active := by
  obtain ⟨task, spec, session, known, same⟩ := inside
  exact ⟨task, spec, session, kept known, same⟩

theorem Armed.mono {work : Work} {active : CommandVerifier} (armed : Armed work past active)
    (kept : past ⊆ later) : Armed work later active := by
  obtain ⟨base, configured, either⟩ := armed
  exact ⟨base, configured.mono kept, either.imp_right (·.mono kept)⟩

end Growing

/-!
## What the ports are asked to verify
-/

def noting : Env ports Past := fun request past reply after =>
  past ⊆ after ∧ ((∀ verifier command path, request ≠ .verify verifier command path) →
    ⟨.port request, reply⟩ ∈ after)

/-- Only an armed verifier is asked to verify. -/
def mayVerify (work : Work) (past : Past) : Request → Prop
  | .verify active _ _ => Armed work past active
  | _ => True

section Asking

variable {work : Work} {past : Past} {α : Type} {program : Code α}

def Verifying (allowed : CommandVerifier → Prop) : Request → Prop
  | .verify active _ _ => allowed active
  | _ => True

theorem armed_meets {allowed : CommandVerifier → Prop} (asks : Asks (Verifying allowed) program)
    (armed : ∀ active, allowed active → Armed work past active) :
    Meets noting (mayVerify work) program past fun after _ => past ⊆ after := by
  refine asks.meets (past ⊆ ·) ?_ ?_ (List.Subset.refl past)
  · intro s request grown asked
    cases request with
    | verify active command path => exact (armed active asked).mono grown
    | _ => trivial
  · intro s request reply after grown _ answered
    exact List.Subset.trans grown answered.1

abbrev Idle (program : Code α) : Prop := Asks (Verifying fun _ => False) program

theorem idle_verifies {allowed : CommandVerifier → Prop} (request : Request)
    (idle : Verifying (fun _ => False) request) : Verifying allowed request := by
  cases request with
  | verify active command path => exact idle.elim
  | _ => trivial

theorem idle_meets (idle : Idle program) :
    Meets noting (mayVerify work) program past fun after _ => past ⊆ after :=
  armed_meets idle fun _ never => never.elim

theorem idle_seq {β : Type} {next : α → Code β} (idle : Idle program)
    (rest : ∀ after value, past ⊆ after →
      Meets noting (mayVerify work) (next value) after fun _ _ => True) :
    Meets noting (mayVerify work) (program >>= next) past fun _ _ => True :=
  (idle_meets idle).seq (fun after value grown => rest after value grown) fun _ _ _ => trivial

theorem idle_of_quiet (quiet : Asks TaskExecutor.Quiet program) : Idle program :=
  quiet.mono fun request asked => by
    cases request with
    | verify active command path => exact asked.elim
    | _ => trivial

theorem idle_of_looking (looking : Asks TaskWorker.Looking program) : Idle program :=
  looking.mono fun request asked => by
    cases request with
    | verify active command path => exact asked.elim
    | _ => trivial

theorem idle_of_guarding {task : Task} (guarding : Asks (TaskWorker.Guarding task) program) :
    Idle program :=
  guarding.mono fun request asked => by
    cases request with
    | verify active command path => exact asked.elim
    | _ => trivial

end Asking

section Executing

variable {work : Work} {past : Past} (executor : TaskExecutor) (task running : Task) (spec : TaskSpec)
  (recipient : Option Str) (verifier : Option CommandVerifier)

/-- The verifiers an execution can fall back on. -/
def Given (work : Work) (past : Past) (executor : TaskExecutor) (verifier : Option CommandVerifier) :
    Prop := ∀ base, verifier.or executor.verifier = some base → Configured past base work

theorem verifying_delivers (active : Option CommandVerifier) :
    TaskExecutor.Delivers (Verifying fun used => active.or executor.verifier = some used) executor task
      active where
  records _ _ _ := trivial
  runs _ _ := trivial
  verifies used _ _ same := same
  diffs _ _ := trivial
  reviews _ _ := trivial
  publishes request asked := by
    cases request with
    | verify active command path => exact asked.elim
    | _ => trivial

def Opened (task : Task) (spec : TaskSpec) (past after : Past) (session : Option Sandbox) : Prop :=
  past ⊆ after ∧ ∀ own, session = some own →
    ⟨.port (.sessionFor task spec), .ok (some own)⟩ ∈ after

theorem run_session_meets (worktree : Worktree) :
    Meets noting (mayVerify work) (executor.runSession task spec worktree) past
      fun after outcome => ∀ session, outcome = .ok session → Opened task spec past after session := by
  unfold TaskExecutor.runSession
  split_ifs
  · intro session same
    cases same
    exact ⟨List.Subset.refl past, nofun⟩
  · rw [meets_catch]
    refine ⟨trivial, fun reply after answered => ?_⟩
    have noted := answered.2 nofun
    cases reply with
    | ok value =>
        intro session same
        cases same
        refine ⟨answered.1, ?_⟩
        intro own same
        rw [← same]
        exact noted
    | error error =>
        have cleaning := idle_of_quiet (TaskExecutor.quiet_cleanup executor none worktree)
        apply (idle_meets cleaning).seq
        · intro last _ _
          exact nofun
        · intro last other _
          exact nofun

theorem active_armed {after : Past} {session : Option Sandbox} {used : CommandVerifier}
    (given : Given work past executor verifier) (opened : Opened task spec past after session)
    (same : (executor.activeVerifier verifier session).or executor.verifier = some used) :
    Armed work after used := by
  unfold TaskExecutor.activeVerifier at same
  cases chosen : verifier.or executor.verifier with
  | none =>
      rw [chosen] at same
      have unset : executor.verifier = none := (Option.or_eq_none_iff.mp chosen).2
      rw [unset] at same
      cases same
  | some base =>
      rw [chosen] at same
      have configured := (given base chosen).mono opened.1
      cases session with
      | none =>
          cases same
          exact ⟨base, configured, .inl rfl⟩
      | some own =>
          cases same
          exact ⟨base, configured, .inr ⟨task, spec, own, opened.2 own rfl, rfl⟩⟩

theorem run_in_meets (worktree : Worktree) (given : Given work past executor verifier) :
    Meets noting (mayVerify work)
      (executor.runIn task running spec recipient verifier worktree) past fun _ _ => True := by
  apply (run_session_meets executor task spec worktree).seq
  · intro after session opened
    have inside := opened session rfl
    have finishing : ∀ evidence, Idle (executor.finish running evidence recipient) :=
      fun evidence => idle_of_quiet (TaskExecutor.quiet_finish executor running evidence recipient)
    have cleaning := idle_of_quiet (TaskExecutor.quiet_cleanup executor session worktree)
    have asks : Asks (Verifying fun used =>
          (executor.activeVerifier verifier session).or executor.verifier = some used)
        (andFinally (do
          let delivery ← executor.deliver task spec worktree (executor.activeVerifier verifier session)
          executor.finish running (TaskExecutor.evidenceOf running worktree delivery) recipient)
          (executor.cleanup session worktree)) := by
      apply asks_finally
      · apply asks_bind
        · exact TaskExecutor.deliver_asks spec worktree (verifying_delivers executor task _)
        · intro delivery
          exact (finishing _).mono idle_verifies
      · exact cleaning.mono idle_verifies
    have armed : ∀ used, (executor.activeVerifier verifier session).or executor.verifier = some used →
        Armed work after used :=
      fun used same => active_armed executor task spec verifier given inside same
    exact (armed_meets asks armed).post fun _ _ _ => trivial
  · exact fun _ _ _ => trivial

theorem execute_claimed_meets [Unicode] [Sha256] (given : Given work past executor verifier) :
    Meets noting (mayVerify work)
      (executor.executeClaimed task spec recipient verifier) past fun _ _ => True := by
  apply idle_seq
  · exact asks_call trivial
  intro after found grown
  cases found with
  | none => trivial
  | some running =>
      apply idle_seq
      · exact idle_of_quiet (TaskExecutor.quiet_emit executor.events task.id _ _)
      intro claimed _ grown'
      apply idle_seq
      · exact asks_attempt trivial
      intro made created grown''
      cases created with
      | error error =>
          apply idle_seq
          · exact asks_call trivial
          · exact fun _ _ _ => trivial
      | ok worktree =>
          apply run_in_meets
          intro base chosen
          exact (given base chosen).mono (List.Subset.trans grown (List.Subset.trans grown' grown''))

theorem execute_meets (claimed : Bool) [Unicode] [Sha256] (given : Given work past executor verifier) :
    Meets noting (mayVerify work)
      (executor.execute task spec recipient claimed verifier) past fun _ _ => True := by
  unfold TaskExecutor.execute
  split_ifs
  · exact execute_claimed_meets executor task spec recipient verifier given
  · apply idle_seq
    · exact asks_call trivial
    intro after won grown
    split_ifs
    · apply execute_claimed_meets
      intro base chosen
      exact (given base chosen).mono grown
    · trivial

end Executing

section Working

variable {work : Work} {past : Past} (worker : TaskWorker) (task : Task) (spec : TaskSpec)

theorem effective_meets :
    Meets noting (mayVerify work) (worker.effective task spec) past fun after outcome =>
      past ⊆ after ∧ ∀ shaped verifier, outcome = .ok (shaped, verifier) →
        ∀ base, verifier = some base →
          worker.verifier = some base ∨ AddedByPolicy after worker base := by
  have alone : ∀ {after : Past} (given : TaskSpec), past ⊆ after →
      past ⊆ after ∧ ∀ shaped verifier,
        (.ok (given, worker.verifier) : Except Exn (TaskSpec × Option CommandVerifier)) =
          .ok (shaped, verifier) → ∀ base, verifier = some base →
          worker.verifier = some base ∨ AddedByPolicy after worker base := by
    intro after given grown
    apply And.intro grown
    intro shaped verifier same base chosen
    cases same
    exact .inl chosen
  unfold TaskWorker.effective TaskWorker.policyFor
  split
  · refine ⟨trivial, fun reply after answered => ?_⟩
    have noted := answered.2 nofun
    cases reply with
    | error error => exact ⟨answered.1, nofun⟩
    | ok found =>
        cases found with
        | none => exact alone spec answered.1
        | some policy =>
            simp only [unwrap, Lib.Effects.bind]
            split_ifs
            · exact alone _ answered.1
            · cases split : policy.extraAllowed with
              | error error => exact ⟨answered.1, nofun⟩
              | ok extra =>
                  apply And.intro answered.1
                  intro shaped verifier same base chosen
                  cases same
                  cases chosen
                  exact .inr ⟨_, policy, extra, noted, split, rfl⟩
  · exact alone spec (List.Subset.refl past)

/-- A work whose own verifiers are those of this worker. -/
def Works (worker : TaskWorker) : Work → Prop
  | .run own _ | .runNext own => own = worker
  | _ => False

theorem works_configured {worker : TaskWorker} (works : Works worker work) {base : CommandVerifier}
    (known : worker.executor.verifier = some base ∨ worker.verifier = some base ∨
      AddedByPolicy past worker base) : Configured past base work := by
  cases work with
  | run own taskId =>
      cases works
      exact known
  | runNext own =>
      cases works
      exact known
  | _ => exact works.elim

variable [Unicode] [Sha256]

theorem effective_execute_meets (works : Works worker work) (recipient : Option Str) (claimed : Bool) :
    Meets noting (mayVerify work) (do
      let (shaped, verifier) ← worker.effective task spec
      worker.executor.execute task shaped recipient claimed verifier) past fun _ _ => True := by
  apply (effective_meets worker task spec).seq
  · intro after shaped effective
    apply execute_meets
    intro base chosen
    apply works_configured works
    cases made : shaped.2 with
    | none =>
        rw [made] at chosen
        exact .inl chosen
    | some own =>
        rw [made] at chosen
        cases chosen
        exact .inr (effective.2 shaped.1 shaped.2 rfl _ made)
  · exact fun _ _ _ => trivial

theorem run_meets (works : Works worker work) (taskId : Str) :
    Meets noting (mayVerify work) (worker.run taskId) past fun _ _ => True := by
  apply idle_seq
  · exact asks_call trivial
  intro s₁ found _
  cases found with
  | none => trivial
  | some task =>
      apply idle_seq
      · exact idle_of_looking (TaskWorker.asks_guard_budget worker task.id)
      intro s₂ _ _
      apply idle_seq
      · exact idle_of_guarding (TaskWorker.asks_guard_attempts worker task)
      intro s₃ _ _
      apply idle_seq
      · exact idle_of_guarding (TaskWorker.asks_guard_dependencies worker task)
      intro s₄ _ _
      apply idle_seq
      · exact idle_of_guarding (TaskWorker.asks_guard_policy worker task)
      intro s₅ _ _
      apply idle_seq
      · exact asks_call trivial
      intro s₆ resolved _
      exact effective_execute_meets worker task resolved works worker.recipient false

theorem run_first_meets (works : Works worker work) (tasks : List Task) :
    Meets noting (mayVerify work) (worker.runFirst tasks) past fun _ _ => True := by
  induction tasks generalizing past with
  | nil => trivial
  | cons task rest ih =>
      apply idle_seq
      · exact idle_of_looking (TaskWorker.asks_dependencies task)
      intro s₁ status _
      cases status.state with
      | failed =>
          apply idle_seq
          · exact asks_call trivial
          intro s₂ _ _
          apply idle_seq
          · exact idle_of_quiet (TaskExecutor.quiet_emit worker.events task.id _ _)
          intro s₃ _ _
          exact ih
      | blocked =>
          apply idle_seq
          · exact idle_of_quiet (TaskExecutor.quiet_emit worker.events task.id _ _)
          intro s₂ _ _
          exact ih
      | ready =>
          apply idle_seq
          · exact idle_of_guarding (TaskWorker.asks_runnable worker task)
          intro s₂ runnable _
          split_ifs
          · apply idle_seq
            · exact asks_call trivial
            intro s₃ won _
            split_ifs
            · apply idle_seq
              · exact asks_call trivial
              intro s₄ resolved _
              exact effective_execute_meets worker task resolved works worker.recipient true
            · exact ih
          · exact ih

theorem run_next_meets (works : Works worker work) :
    Meets noting (mayVerify work) worker.runNext past fun _ _ => True := by
  apply idle_seq
  · exact idle_of_looking (TaskWorker.asks_guard_budget worker _)
  intro s₁ _ _
  apply idle_seq
  · exact asks_call trivial
  intro s₂ queued _
  exact run_first_meets worker works queued

end Working

section Verifying

theorem dropped_meets {α : Type} {work : Work} {past : Past} {program : Code α}
    (meets : Meets noting (mayVerify work) program past fun _ _ => True) :
    Meets noting (mayVerify work) (dropValue program) past fun _ _ => True :=
  meets.seq (fun _ _ _ => trivial) fun _ _ _ => trivial

variable [Unicode] [Sha256]

theorem work_meets (work : Work) :
    Meets noting (mayVerify work) work.program [] fun _ _ => True := by
  have given : ∀ {past : Past} {own : Work} (executor : TaskExecutor)
      (verifier : Option CommandVerifier),
      (∀ base, executor.verifier = some base ∨ verifier = some base → Configured past base own) →
        Given own past executor verifier := by
    intro past own executor verifier known base chosen
    apply known
    cases verifier with
    | none => exact .inl chosen
    | some given => exact .inr chosen
  cases work with
  | run worker taskId =>
      have works : Works worker (.run worker taskId) := rfl
      exact dropped_meets (run_meets worker works taskId)
  | runNext worker =>
      have works : Works worker (.runNext worker) := rfl
      exact dropped_meets (run_next_meets worker works)
  | execute executor task spec recipient verifier =>
      apply dropped_meets
      apply execute_meets
      exact given executor verifier fun base either => either
  | executeNext executor lease spec recipient verifier =>
      apply idle_seq
      · exact asks_call trivial
      intro after claimed _
      cases claimed with
      | none => trivial
      | some task =>
          apply dropped_meets
          apply execute_meets
          exact given executor verifier fun base either => either

/-!
## What is started
-/

def remember (past : Past) (event : Exchange deeds) : Past := past ++ [event]

/-- A process is started right after its words were wrapped, by a verifier that lists them. -/
def mayStart (work : Work) (past : Past) : Deed → Prop
  | .execute argv cwd timeout => ∃ earlier active words,
      past = earlier ++ [⟨.wrap active.sandbox words cwd, .ok argv⟩] ∧
        Armed work earlier active ∧ words ∈ active.allowed ∧ timeout = active.timeoutSeconds
  | _ => True

omit [Sha256] in
theorem result_of_meets {work : Work} {past : Past} (argv : List Str)
    (reply : Except Exn Completed) :
    Meets (observing remember) (mayStart work) (resultOf argv reply) past
      fun after _ => after = past := by
  cases reply with
  | ok completed => rfl
  | error error =>
      simp only [resultOf]
      split_ifs
      · rfl
      · rfl
      · rfl
      · rfl

omit [Sha256] in
theorem run_command_meets {work : Work} {past : Past} {active : CommandVerifier}
    (armed : Armed work past active) (command path : Str) :
    Meets (observing remember) (mayStart work) (runCommand active command path) past
      fun after _ => past ⊆ after := by
  have same : past ⊆ past := List.Subset.refl past
  unfold runCommand
  cases argvOf command with
  | none => exact same
  | some words =>
      simp only
      split_ifs with listed
      · refine ⟨trivial, fun wrapped s₁ told => ?_⟩
        have grown : past ⊆ s₁ := by
          rw [told]
          exact List.subset_append_left past _
        cases wrapped with
        | error error => exact grown
        | ok argv =>
            refine ⟨⟨past, active, words, told, armed, List.contains_iff_mem.mp listed, rfl⟩, ?_⟩
            intro reply s₂ told'
            apply (result_of_meets words reply).post
            intro last outcome unchanged
            rw [unchanged, told']
            exact List.Subset.trans grown (List.subset_append_left s₁ _)
      · exact same

omit [Sha256] in
theorem perform_meets {work : Work} (request : Request) (past : Past)
    (permitted : mayVerify work past request) :
    Meets (observing remember) (mayStart work) (perform request) past fun after outcome =>
      ∃ reply, outcome = .ok reply ∧ noting request past reply after := by
  have port : ∀ other : Request, perform other = .ask (.port other) .ret →
      Meets (observing remember) (mayStart work) (perform other) past fun after outcome =>
        ∃ reply, outcome = .ok reply ∧ noting other past reply after := by
    intro other shape
    rw [shape]
    refine ⟨trivial, fun reply after told => ⟨reply, rfl, ?_, fun _ => ?_⟩⟩
    · rw [told]
      exact List.subset_append_left past _
    · rw [told]
      exact List.mem_append_right past (List.mem_singleton_self _)
  cases request with
  | verify active command path =>
      apply (meets_settle _ _ _).mpr
      apply (run_command_meets permitted command path).post
      intro after outcome grown
      exact ⟨outcome, rfl, grown, fun other => absurd rfl (other active command path)⟩
  | _ => exact port _ rfl

/-- Whatever the ports and the processes do: a work starts no process but what a sandbox made of
words that its configuration lists, or a policy that the store gave out. -/
theorem only_listed_run (work : Work) {σ : Type} {env : Env deeds σ} {state final : σ} {trace : Past}
    {outcome : Except Exn Unit} (execution : Exec env (workOver work) state trace outcome final) :
    OnlyListed work trace := by
  have meets : Meets (observing remember) (mayStart work) (workOver work) [] fun _ _ => True :=
    (work_meets work).through_permitted perform_meets
  have observed := exec_observed execution remember []
  intro before argv cwd timeout reply after split
  have tracked : ∀ (request : Deed) past reply after,
      observing remember request past reply after → id after = remember (id past) ⟨request, reply⟩ :=
    fun _ _ _ _ told => told
  obtain ⟨past, same, started⟩ := meets.permits observed tracked before after _ split
  have kept : ∀ (items front : Past), items.foldl remember front = front ++ items := by
    intro items
    induction items with
    | nil => exact fun front => (List.append_nil front).symm
    | cons item rest ih =>
        intro front
        rw [List.foldl_cons, ih, remember, List.append_assoc, List.singleton_append]
  rw [kept] at same
  have reached : past = before := same
  rw [← reached]
  exact started

end Verifying

section Example

def gatedWork : Work := .execute { TaskExecutor.reviewedExecutor with reviewer := false }
  TaskExecutor.reviewedTask TaskExecutor.reviewedSpec none none

/-- Surroundings in which the command runs; the commit is interrupted. -/
def gatedWorld (deed : Deed) (started : List (List Str)) : Except Exn deed.Result × List (List Str) :=
  match deed with
  | .port request =>
      match request with
      | .commitAll _ _ => (.error (.baseException "KeyboardInterrupt" ""), started)
      | request => ((TaskExecutor.revisingPorts request []).1, started)
  | .wrap _ argv _ => (.ok argv, started)
  | .execute argv _ _ => (.ok { returncode := 0 }, started ++ [argv])

def gatedRun :=
  let _ := asciiTables
  let _ := TaskExecutor.exampleSha256
  run gatedWorld (workOver gatedWork) []

theorem listed_command_run :
    gatedRun.2.2 = [["make".toList, "test".toList]] ∧ OnlyListed gatedWork gatedRun.1 := by
  let _ := asciiTables
  let _ := TaskExecutor.exampleSha256
  let env : Env deeds (List (List Str)) := fun deed started reply after =>
    (reply, after) = gatedWorld deed started
  have execution := exec_run env gatedWorld (fun _ _ => rfl) (workOver gatedWork) []
  exact ⟨by decide, only_listed_run gatedWork execution⟩

end Example

end DearAgent.VerifyGate
