import DearAgent.Lib.Effects
import DearAgent.Queue.Port
import DearAgent.Replies
import DearAgent.Notify
import DearAgent.Policy
import DearAgent.Verify
import DearAgent.Gitplane.Forge

/-!
# Ports

Everything the programs of the system ask of their surroundings: the queue, the
approval store, the event log, the clock, the policies, the gate and the
deciders of the inbound side, the transport, and the worktree, harness, review
and publishing of the outbound side. A reply is a value of the declared type or
an exception.
-/

namespace DearAgent

open DearAgent.Lib.Text DearAgent.Lib.Effects DearAgent.Queue

set_option autoImplicit false

structure Worktree where
  repoPath : Str
  path : Str
  branch : Str
deriving DecidableEq

structure RunResult where
  exitCode : Int
  stdout : Str := ""
  stderr : Str := ""
  branch : Option Str := none
  commit : Option Str := none
  prUrl : Option Str := none
  extra : List (Str × Str) := []
deriving DecidableEq

def RunResult.ok (run : RunResult) : Bool := run.exitCode = 0

structure ReviewVerdict where
  approved : Bool
  summary : Str := ""
  notes : Str := ""
deriving DecidableEq

inductive Datum
  | none
  | text (value : Str)
  | number (value : Int)
  | texts (values : List Str)
deriving DecidableEq

abbrev EventData := List (Str × Datum)

def Datum.ofOption : Option Str → Datum
  | .none => .none
  | some value => .text value

inductive Request
  | queue (op : QueueOp)
  | issue (taskId action : Str)
  | approvalOf (token : Str)
  /-- Redeems the token of the reply; the decision travels along for the record. -/
  | redeem (reply : ApprovalReply)
  | record (taskId kind : Str) (data : EventData)
  | countEvents (kind : Str) (since : Instant)
  | utcnow
  | listPolicies
  | policyForRepo (repo : Str)
  | admission (body : Str) (headers : Headers) (sender : Option Str)
  | scan (body : Str)
  | assess (body : Str)
  | needsHuman (state : Str)
  | send (message : OutboundMessage)
  | ack (messages : List RawMessage)
  | renderJob (template : Str) (task : Task)
  | launchJob (job : Str)
  | resolveSpec (task : Task) (repoPath : Str)
  | createWorktree (repoPath worktreesRoot slug baseBranch : Str)
  | removeWorktree (worktree : Worktree)
  | sessionFor (task : Task) (spec : TaskSpec)
  | closeSession (session : Sandbox)
  | runHarness (task : Task) (spec : TaskSpec) (worktree : Worktree)
  | verify (verifier : CommandVerifier) (command worktreePath : Str)
  | diff (worktree : Worktree) (baseBranch : Str)
  | review (diff instructions : Str)
  | commitAll (worktree : Worktree) (message : Str)
  | hasChangesSince (worktree : Worktree) (baseBranch : Str)
  | push (worktree : Worktree)
  | openDraftPr (worktree : Worktree) (baseBranch title body : Str)
deriving DecidableEq

@[reducible] def Request.Result : Request → Type
  | .queue op => op.Result
  | .issue _ _ => Approval
  | .approvalOf _ => Option Approval
  | .redeem _ => Redeemed
  | .countEvents _ _ => Int
  | .utcnow => Instant
  | .listPolicies => List ProjectPolicy
  | .policyForRepo _ => Option ProjectPolicy
  | .scan _ | .assess _ | .needsHuman _ => Bool
  | .renderJob _ _ => Str
  | .resolveSpec _ _ => TaskSpec
  | .createWorktree _ _ _ _ => Worktree
  | .sessionFor _ _ => Option Sandbox
  | .runHarness _ _ _ => RunResult
  | .verify _ _ _ => VerifyResult
  | .diff _ _ => Str
  | .review _ _ => ReviewVerdict
  | .commitAll _ _ => Str
  | .hasChangesSince _ _ => Bool
  | .openDraftPr _ _ _ _ => PullRequest
  | .record _ _ _ | .admission _ _ _ | .send _ | .ack _ | .launchJob _ | .removeWorktree _
  | .closeSession _ | .push _ => Unit

@[reducible] def ports : Signature where
  Request := Request
  Reply request := Except Exn request.Result
  Raised := Exn

abbrev Code (α : Type) := Program ports α

def call (request : Request) : Code request.Result :=
  .ask request (@unwrap ports _)

/-- `try: value = port() except ...`: an exception of these classes comes back
as a value, any other one gets out. -/
def attempt (caught : Exn → Bool) (request : Request) : Code (Except Exn request.Result) :=
  .ask request fun reply =>
    match reply with
    | .ok value => .ret (.ok value)
    | .error error => if caught error then .ret (.error error) else .raise error

namespace Queue

/-! The calls of the queue under their own names. -/

def enqueue (task : Task) (state : TaskState) : Code (Option Task) :=
  call (.queue (.enqueue task state))

def get (taskId : Str) : Code (Option Task) := call (.queue (.get taskId))

def list (state : TaskState) (limit : Int) : Code (List Task) :=
  call (.queue (.list state limit))

def claim (task : Task) (lease : Duration) : Code Bool := call (.queue (.claim task lease))

def claimNext (lease : Duration) : Code (Option Task) := call (.queue (.claimNext lease))

def transition (task : Task) (toState : TaskState) (evidence : Option Evidence := none) :
    Code Task := call (.queue (.transition task toState evidence))

def releaseStale (now : Instant) : Code (List Task) := call (.queue (.releaseStale now))

end Queue

/-- `_emit`: events are best effort, so no `Exception` of the log gets out. -/
def emit (events : Bool) (taskId kind : Str) (data : EventData := []) : Code Unit :=
  if events then do
    let _ ← attempt Exn.isException (.record taskId kind data)
    .ret ()
  else .ret ()

section Asking

variable {σ : Type} {allowed : Request → Prop} {env : Env ports σ} {may : σ → Request → Prop}

theorem asks_call {request : Request} (asked : allowed request) :
    Asks allowed (call request) := by
  refine ⟨asked, fun reply => ?_⟩
  cases reply <;> trivial

theorem asks_attempt {caught : Exn → Bool} {request : Request} (asked : allowed request) :
    Asks allowed (attempt caught request) := by
  refine ⟨asked, fun reply => ?_⟩
  cases reply with
  | ok value => trivial
  | error error =>
      simp only
      split_ifs <;> trivial

theorem asks_emit (asked : ∀ taskId kind data, allowed (.record taskId kind data)) (events : Bool)
    (taskId kind : Str) (data : EventData) : Asks allowed (emit events taskId kind data) := by
  unfold emit
  split_ifs
  · exact asks_bind (asks_attempt (asked taskId kind data)) fun _ => trivial
  · trivial

theorem exec_call {request : Request} {state final : σ} {trace : List (Exchange ports)}
    {outcome : Except Exn request.Result}
    (execution : Exec env (call request) state trace outcome final) :
    trace = [⟨request, outcome⟩] ∧ env request state outcome final := by
  obtain ⟨reply, after, rest, answered, rfl, came⟩ := execution
  cases reply with
  | ok value =>
      obtain ⟨rfl, rfl, rfl⟩ := came
      exact ⟨rfl, answered⟩
  | error error =>
      obtain ⟨rfl, rfl, rfl⟩ := came
      exact ⟨rfl, answered⟩

section Raising

variable {replies : (request : Request) → Except Exn request.Result → Prop} {raised : Exn → Prop}

theorem raises_call {request : Request}
    (replied : ∀ error, replies request (.error error) → raised error) :
    @RaisesOnly ports _ replies raised (call request) := by
  intro reply answered
  cases reply with
  | ok value => trivial
  | error error => exact replied error answered

theorem raises_attempt {caught : Exn → Bool} {request : Request}
    (replied : ∀ error, replies request (.error error) → caught error = false → raised error) :
    @RaisesOnly ports _ replies raised (attempt caught request) := by
  intro reply answered
  cases reply with
  | ok value => trivial
  | error error =>
      simp only
      split_ifs with isCaught
      · trivial
      · exact replied error answered (Bool.of_not_eq_true isCaught)

theorem raises_emit (events : Bool) (taskId kind : Str) (data : EventData)
    (replied : ∀ error, replies (.record taskId kind data) (.error error) →
      error.isException = false → raised error) :
    @RaisesOnly ports _ replies raised (emit events taskId kind data) := by
  unfold emit
  split_ifs
  · exact raises_bind (raises_attempt replied) fun _ => trivial
  · trivial

end Raising

section Letting

variable {asked : Request → Prop} {handled : Request → Exn → Bool}

/-- An exception of a port that is not one of those handled for its request. -/
def unhandled (handled : Request → Exn → Bool) : Exchange ports → Option Exn
  | ⟨_, .ok _⟩ => none
  | ⟨request, .error error⟩ => if handled request error then none else some error

theorem lets_attempt {caught : Exn → Bool} {request : Request} (isAsked : asked request)
    (same : handled request = caught) :
    LetsOut asked (unhandled handled) (attempt caught request) := by
  subst same
  apply And.intro isAsked
  intro reply
  cases reply with
  | ok value =>
      constructor
      · intro error never
        cases never
      · exact fun _ => trivial
  | error error =>
      simp only [unhandled]
      split_ifs
      · constructor
        · intro other never
          cases never
        · exact fun _ => trivial
      · constructor
        · intro other lets
          rw [Option.some.inj lets]
        · intro never
          cases never

theorem lets_call {request : Request} (isAsked : asked request)
    (same : handled request = fun _ => false) :
    LetsOut asked (unhandled handled) (call request) := by
  apply And.intro isAsked
  intro reply
  cases reply with
  | ok value =>
      constructor
      · intro error never
        cases never
      · exact fun _ => trivial
  | error error =>
      simp only [unhandled, same]
      constructor
      · intro other lets
        rw [Option.some.inj lets]
        rfl
      · intro never
        cases never

theorem lets_emit {taskId kind : Str} {data : EventData}
    (isAsked : asked (.record taskId kind data))
    (same : handled (.record taskId kind data) = Exn.isException) (events : Bool) :
    LetsOut asked (unhandled handled) (emit events taskId kind data) := by
  unfold emit
  split_ifs
  · exact lets_bind (lets_attempt isAsked same) fun _ => trivial
  · trivial

end Letting

theorem meets_call {request : Request} {state : σ}
    {post : σ → Except Exn request.Result → Prop} (permitted : may state request)
    (replied : ∀ reply after, env request state reply after → post after reply) :
    Meets env may (call request) state post := by
  refine ⟨permitted, fun reply after answered => ?_⟩
  have ended := replied reply after answered
  cases reply <;> exact ended

theorem meets_call_bind {α : Type} {request : Request} {next : request.Result → Code α} {state : σ}
    {post : σ → Except Exn α → Prop} (permitted : may state request)
    (returned : ∀ value after, env request state (.ok value) after →
      Meets env may (next value) after post)
    (raised : ∀ error after, env request state (.error error) after → post after (.error error)) :
    Meets env may (call request >>= next) state post := by
  refine ⟨permitted, fun reply after answered => ?_⟩
  cases reply with
  | ok value => exact returned value after answered
  | error error => exact raised error after answered

/-- An attempt and what follows it: the program ends only where the exception
is not one of those caught. -/
theorem meets_attempt_bind {α : Type} {caught : Exn → Bool} {request : Request}
    {next : Except Exn request.Result → Code α} {state : σ} {post : σ → Except Exn α → Prop}
    (permitted : may state request)
    (returned : ∀ value after, env request state (.ok value) after →
      Meets env may (next (.ok value)) after post)
    (handled : ∀ error after, env request state (.error error) after → caught error = true →
      Meets env may (next (.error error)) after post)
    (escaped : ∀ error after, env request state (.error error) after → caught error = false →
      post after (.error error)) :
    Meets env may (attempt caught request >>= next) state post := by
  refine ⟨permitted, fun reply after answered => ?_⟩
  cases reply with
  | ok value => exact returned value after answered
  | error error =>
      simp only
      split_ifs with isCaught
      · exact handled error after answered isCaught
      · exact escaped error after answered (Bool.of_not_eq_true isCaught)

theorem meets_effort {caught : Exn → Bool} {request : Request} {state : σ} {kept : σ → Prop}
    (permitted : may state request)
    (effort : ∀ reply after, env request state reply after →
      (∀ error, reply = .error error → caught error = true) ∧ kept after) :
    Meets env may (attempt caught request >>= fun _ => .ret ()) state fun after outcome =>
      outcome = .ok () ∧ kept after := by
  apply meets_attempt_bind permitted
  · exact fun value after answered => ⟨rfl, (effort _ after answered).2⟩
  · exact fun error after answered _ => ⟨rfl, (effort _ after answered).2⟩
  · intro error after answered escaped
    have isCaught := (effort _ after answered).1 error rfl
    rw [escaped] at isCaught
    cases isCaught

end Asking

structure ErrorBudget where
  maxFailures : Int := 0
  windowSeconds : Int := 3600
deriving DecidableEq

def ErrorBudget.exhausted (budget : ErrorBudget) : Code Bool :=
  if budget.maxFailures ≤ 0 then .ret false
  else do
    let now ← call .utcnow
    let failures ← call (.countEvents "task.failed" (now - budget.windowSeconds * 1000000))
    .ret (failures ≥ budget.maxFailures)

end DearAgent
