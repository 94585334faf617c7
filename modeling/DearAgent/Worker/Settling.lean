import DearAgent.Queue.Memory
import DearAgent.World
import DearAgent.Worker

/-!
# What becomes of a claimed task

A worker that claimed a task ends it in `done` or `failed` exactly where no
collaborator behaved, after the claim, in a way that no handler is there for.
An exception that escapes leaves the task `running`.
-/

namespace DearAgent.Work

open DearAgent.Lib.Text DearAgent.Lib.Effects DearAgent.Queue

set_option autoImplicit false

/-- An answer that no handler of the worker or the executor is there for. -/
def escapes : Exchange ports → Bool
  | ⟨.resolveSpec _ _, .error _⟩ => true
  | ⟨.policyForRepo _, .error _⟩ => true
  | ⟨.policyForRepo _, .ok (some policy)⟩ => !policy.extraAllowed.isOk
  | ⟨.sessionFor _ _, .error _⟩ => true
  | ⟨.createWorktree _ _ _ _, .error error⟩ => !error.isException
  | ⟨.runHarness _ _ _, .error error⟩ => !error.isException
  | ⟨.verify _ _ _, .error error⟩ => !error.isException
  | ⟨.diff _ _, .error error⟩ => !error.isException
  | ⟨.review _ _, .error error⟩ => !error.isException
  | ⟨.commitAll _ _, .error error⟩ => !error.isGitError
  | ⟨.hasChangesSince _ _, .error error⟩ => !error.isGitError
  | ⟨.push _, .error error⟩ => !error.isGitError
  | ⟨.openDraftPr _ _ _ _, .error error⟩ => !error.isGitError
  | _ => false

/-- The task of the claim so far, and whether anything escaped since. -/
abbrev Phase := Option (Str × Bool)

def track (phase : Phase) (event : Exchange ports) : Phase :=
  match phase with
  | none => (claimedId event).map fun id => (id, false)
  | some (id, escaped) => some (id, escaped || escapes event)

def mayClaim {σ : Type} (state : σ × Phase) : Request → Prop
  | .queue (.claim _ _) | .queue (.claimNext _) => state.2 = none
  | _ => True

section Progress

variable {Q : QueueBackend} {A : ApprovalBackend}

abbrev Tracked (Q : QueueBackend) (A : ApprovalBackend) := World Q A × Phase

def HasState (world : World Q A) (id : Str) (states : TaskState → Prop) : Prop :=
  ∃ task, world.board id = some task ∧ states task.state

/-- The task is running, and nothing escaped. -/
def Pending (id : Str) (state : Tracked Q A) : Prop :=
  HasState state.1 id (· = .running) ∧ state.2 = some (id, false)

def Stuck (id : Str) (state : Tracked Q A) : Prop :=
  HasState state.1 id (· = .running) ∧ state.2 = some (id, true)

def Settled (id : Str) (state : Tracked Q A) : Prop :=
  HasState state.1 id (fun s => s = .done ∨ s = .failed) ∧ state.2 = some (id, false)

/-- A part of an execution after the claim: it goes on with the task pending, or
something escapes it. -/
def Pends {α : Type} (id : Str) (state : Tracked Q A) : Except Exn α → Prop
  | .ok _ => Pending id state
  | .error _ => Stuck id state

def env (Q : QueueBackend) (A : ApprovalBackend) : Env ports (Tracked Q A) :=
  recording (working Q A) track

variable {id : Str} {α β : Type}

/-- One port that is no store: the world stays as it is, and the phase says
whether the answer escapes. -/
theorem plain_tracked {request : Request} {reply : ports.Reply request} {state after : Tracked Q A}
    (plain : ¬Stored request) (answered : env Q A request state reply after) {escaped : Bool}
    (phase : state.2 = some (id, escaped)) :
    after.1 = state.1 ∧ after.2 = some (id, escaped || escapes ⟨request, reply⟩) := by
  obtain ⟨⟨served | outage, _⟩, tracked⟩ := answered
  · refine ⟨?_, by rw [tracked, phase]; rfl⟩
    cases request <;> first | exact served | exact absurd trivial plain
  · exact absurd outage.1 plain

/-- A port that is no store, and whose exceptions escape unless they are caught. -/
structure Plain (caught : Exn → Bool) (request : Request) : Prop where
  noStore : ¬Stored request
  returns : ∀ value, escapes ⟨request, .ok value⟩ = false
  raises : ∀ error, escapes ⟨request, .error error⟩ = !caught error

theorem may_claim_plain {request : Request} (plain : ¬Stored request) (state : Tracked Q A) :
    mayClaim state request := by
  cases request <;> first | trivial | exact absurd trivial plain

theorem pends_attempt {caught : Exn → Bool} {request : Request} (plain : Plain caught request)
    {state : Tracked Q A} (pending : Pending id state) :
    Meets (env Q A) mayClaim (attempt caught request) state (Pends id) := by
  refine ⟨may_claim_plain plain.noStore state, fun reply after answered => ?_⟩
  obtain ⟨same, phase⟩ := plain_tracked plain.noStore answered pending.2
  cases reply with
  | ok value =>
      rw [plain.returns] at phase
      exact ⟨same ▸ pending.1, phase⟩
  | error error =>
      rw [plain.raises] at phase
      simp only
      split_ifs with isCaught
      · rw [isCaught] at phase
        exact ⟨same ▸ pending.1, phase⟩
      · rw [Bool.of_not_eq_true isCaught] at phase
        exact ⟨same ▸ pending.1, phase⟩

/-- A request after which the tasks and the phase are what they were. -/
def Neutral : Request → Prop
  | .queue (.get _) | .record _ _ _ | .send _ | .closeSession _ | .removeWorktree _ => True
  | _ => False

theorem neutral_kept {request : Request} {reply : ports.Reply request} {state after : Tracked Q A}
    (neutral : Neutral request) (answered : env Q A request state reply after) :
    after.1.board = state.1.board ∧ after.2 = state.2 := by
  have tracked : after.2 = state.2 := by
    rw [answered.2]
    generalize state.2 = phase
    cases phase with
    | none =>
        cases request with
        | queue op => cases op <;> first | rfl | exact absurd neutral not_false
        | _ => rfl
    | some phase =>
        have silent : escapes ⟨request, reply⟩ = false := by
          cases request with
          | queue op => rfl
          | _ => first | rfl | exact absurd neutral not_false
        simp [track, silent]
  refine ⟨?_, tracked⟩
  cases request with
  | queue op =>
      cases op with
      | get taskId =>
          obtain ⟨now, _, same⟩ := working_spec answered.1
          exact same
      | _ => exact absurd neutral not_false
  | _ => exact board_kept answered.1.1 fun _ same => by cases same

theorem neutral_meets {program : Code α} (asks : Asks Neutral program) (state : Tracked Q A) :
    Meets (env Q A) mayClaim program state fun after _ =>
      after.1.board = state.1.board ∧ after.2 = state.2 := by
  refine asks.meets (fun after : Tracked Q A => after.1.board = state.1.board ∧ after.2 = state.2) ?_ ?_ ⟨rfl, rfl⟩
  · intro after request _ neutral
    cases request with
    | queue op => cases op <;> first | exact absurd neutral not_false | trivial
    | _ => trivial
  · intro middle request reply after same neutral answered
    obtain ⟨board, phase⟩ := neutral_kept neutral answered
    exact ⟨board.trans same.1, phase.trans same.2⟩

theorem pends_emit (events : Bool) (taskId kind : Str) (data : EventData) {state : Tracked Q A}
    (pending : Pending id state) :
    Meets (env Q A) mayClaim (emit events taskId kind data) state (Pends id) := by
  unfold emit
  by_cases on : events
  · rw [if_pos on]
    have kept : ∀ reply (after : Tracked Q A), env Q A (.record taskId kind data) state reply after →
        Pending id after := by
      intro reply after answered
      obtain ⟨board, phase⟩ := neutral_kept (show Neutral (.record taskId kind data) from trivial)
        answered
      obtain ⟨task, found, running⟩ := pending.1
      exact ⟨⟨task, by rw [board, found], running⟩, by rw [phase, pending.2]⟩
    refine meets_attempt_bind trivial (fun value after answered => kept _ after answered)
      (fun error after answered _ => kept _ after answered) fun error after answered _ => ?_
    cases answered.1.2
  · rw [if_neg on]
    exact pending

section Delivery

variable {executor : TaskExecutor} {task : Task} {verifier : Option CommandVerifier}

theorem delivering_plain {request : Request}
    (asked : TaskExecutor.Delivering executor task verifier request) : ¬Stored request := by
  cases request with
  | queue op => exact asked.elim
  | issue taskId action => exact asked.elim
  | approvalOf token => exact asked.elim
  | redeem reply => exact asked.elim
  | _ => exact not_false

theorem delivering_escapes {request : Request} {reply : ports.Reply request}
    {state after : Tracked Q A} (asked : TaskExecutor.Delivering executor task verifier request)
    (answered : env Q A request state reply after) :
    escapes ⟨request, reply⟩ = (unhandled TaskExecutor.handledAt ⟨request, reply⟩).isSome := by
  have escaping : ∀ caught (error : Exn),
      (!caught) = (if caught = true then none else some error).isSome := by
    intro caught error
    cases caught <;> rfl
  cases request with
  | record taskId kind data =>
      obtain rfl : reply = .ok () := answered.1.2
      rfl
  | runHarness | verify | diff | review | commitAll | hasChangesSince | push | openDraftPr =>
      cases reply with
      | ok value => rfl
      | error error => exact escaping _ error
  | _ => exact asked.elim

theorem pends_deliver (spec : TaskSpec) (worktree : Worktree) {state : Tracked Q A}
    (pending : Pending id state) :
    Meets (env Q A) mayClaim (executor.deliver task spec worktree verifier) state (Pends id) := by
  apply (TaskExecutor.deliver_lets executor task spec worktree verifier).meets (Pending id) _ _ _
    (fun _ _ pending => pending) pending
  · exact fun state request _ asked => may_claim_plain (delivering_plain asked) state
  · intro state request reply after pending asked answered kept
    obtain ⟨same, phase⟩ := plain_tracked (delivering_plain asked) answered pending.2
    rw [delivering_escapes asked answered, kept] at phase
    exact ⟨same ▸ pending.1, phase⟩
  · intro state request reply after error pending asked answered lets
    obtain ⟨same, phase⟩ := plain_tracked (delivering_plain asked) answered pending.2
    rw [delivering_escapes asked answered, lets] at phase
    exact ⟨same ▸ pending.1, phase⟩

end Delivery

/-- The claimed task is settled, or left running. -/
def Ended (id : Str) (state : Tracked Q A) : Prop := Settled id state ∨ Stuck id state

theorem has_state_kept {world after : World Q A} {states : TaskState → Prop}
    (same : after.board = world.board) (has : HasState world id states) : HasState after id states := by
  obtain ⟨task, found, inState⟩ := has
  exact ⟨task, by rw [same, found], inState⟩

theorem settled_kept {state after : Tracked Q A}
    (same : after.1.board = state.1.board ∧ after.2 = state.2) (settled : Settled id state) :
    Settled id after := ⟨has_state_kept same.1 settled.1, same.2.trans settled.2⟩

theorem stuck_kept {state after : Tracked Q A}
    (same : after.1.board = state.1.board ∧ after.2 = state.2) (stuck : Stuck id state) :
    Stuck id after := ⟨has_state_kept same.1 stuck.1, same.2.trans stuck.2⟩

theorem ended_kept {state after : Tracked Q A}
    (same : after.1.board = state.1.board ∧ after.2 = state.2) (ended : Ended id state) :
    Ended id after := ended.imp (settled_kept same) (stuck_kept same)

theorem transition_settles {running : Task} (own : running.id = id)
    (read : running.state = .running) {toState : TaskState}
    (final : toState = .done ∨ toState = .failed) {evidence : Option Evidence}
    {reply : QueueOp.Reply (.transition running toState evidence)} {state after : Tracked Q A}
    (pending : Pending id state)
    (answered : env Q A (.queue (.transition running toState evidence)) state reply after) :
    Settled id after := by
  obtain ⟨⟨stored, found, isRunning⟩, phase⟩ := pending
  have tracked : after.2 = some (id, false) := by
    rw [answered.2, phase]
    rfl
  refine ⟨?_, tracked⟩
  obtain ⟨now, spec⟩ := working_spec answered.1
  rw [← own] at found ⊢
  obtain ⟨moved, move, _, board⟩ := transition_moves spec found (isRunning.trans read.symm)
  have movedId : moved.id = running.id := (moved_id move).trans (Q.filed state.1.queue _ _ found)
  refine ⟨moved, ?_, by rw [moved_state move]; exact final⟩
  rw [board, ← movedId]
  exact board_put_self _ moved

theorem settles_finish (executor : TaskExecutor) (running : Task) (evidence : ExecutedTask)
    (recipient : Option Str) (own : running.id = id) (read : running.state = .running)
    {state : Tracked Q A} (pending : Pending id state) :
    Meets (env Q A) mayClaim (executor.finish running evidence recipient) state
      fun after _ => Settled id after := by
  have target : (if evidence.ok then TaskState.done else .failed) = .done ∨
      (if evidence.ok then TaskState.done else .failed) = .failed := by
    cases evidence.ok <;> simp
  refine meets_call_bind trivial (fun final after answered => ?_) fun error after answered =>
    transition_settles own read target pending answered
  have settled := transition_settles own read target pending answered
  have neutral : Asks Neutral (emit executor.events final.id
      (if evidence.ok then "task.done" else "task.failed")
      [("failure".toList, Datum.ofOption (evidence.failure.map FailureKind.value)),
        ("pr_url".toList, Datum.ofOption evidence.prUrl)] >>= fun _ =>
      executor.report { evidence with taskId := final.id } recipient >>= fun _ =>
        (Program.ret { evidence with taskId := final.id } : Code ExecutedTask)) := by
    refine asks_bind (asks_emit (fun _ _ _ => trivial) _ _ _ _) fun _ =>
      asks_bind ((TaskExecutor.asks_report _ _ _).mono ?_) fun _ => trivial
    intro request reporting
    cases request with
    | queue op => cases op <;> first | exact absurd reporting not_false | trivial
    | _ => first | exact absurd reporting not_false | trivial
  exact (neutral_meets neutral after).post fun _ _ same => settled_kept same settled

theorem neutral_cleanup (executor : TaskExecutor) (session : Option Sandbox)
    (worktree : Worktree) : Asks Neutral (executor.cleanup session worktree) :=
  (TaskExecutor.asks_cleanup executor session worktree).mono fun request closing => by
    cases request <;> first | exact absurd closing not_false | trivial

theorem pends_run_session (executor : TaskExecutor) (task : Task) (spec : TaskSpec)
    (worktree : Worktree) {state : Tracked Q A} (pending : Pending id state) :
    Meets (env Q A) mayClaim (executor.runSession task spec worktree) state (Pends id) := by
  unfold TaskExecutor.runSession
  by_cases plain : !executor.sessionProvider
  · rw [if_pos plain]
    exact pending
  · rw [if_neg plain]
    refine ⟨trivial, fun reply after answered => ?_⟩
    obtain ⟨same, phase⟩ := plain_tracked
      (show ¬Stored (.sessionFor task spec) from not_false) answered pending.2
    cases reply with
    | ok session => exact ⟨same ▸ pending.1, phase⟩
    | error error =>
        have stuck : Stuck id after := ⟨same ▸ pending.1, phase⟩
        exact (neutral_meets (neutral_cleanup executor none worktree) after).seq
          (fun _ _ same => stuck_kept same stuck) fun _ _ same => stuck_kept same stuck

theorem ends_run_in (executor : TaskExecutor) (task running : Task) (spec : TaskSpec)
    (recipient : Option Str) (verifier : Option CommandVerifier) (worktree : Worktree)
    (own : running.id = id) (read : running.state = .running) {state : Tracked Q A}
    (pending : Pending id state) :
    Meets (env Q A) mayClaim (executor.runIn task running spec recipient verifier worktree) state
      fun after _ => Ended id after := by
  refine (pends_run_session executor task spec worktree pending).seq (fun state session pending => ?_)
    fun _ _ stuck => .inr stuck
  have body : Meets (env Q A) mayClaim
      (executor.deliver task spec worktree (executor.activeVerifier verifier session) >>=
        fun delivery => executor.finish running (TaskExecutor.evidenceOf running worktree delivery)
          recipient) state fun after _ => Ended id after :=
    (pends_deliver spec worktree pending).seq
      (fun _ _ pending => (settles_finish executor running _ recipient own read pending).post
        fun _ _ settled => .inl settled)
      fun _ _ stuck => .inr stuck
  refine body.finally fun after outcome ended => ?_
  exact (neutral_meets (neutral_cleanup executor session worktree) after).post fun _ _ same =>
    ⟨fun _ => ended_kept same ended, fun _ _ => ended_kept same ended⟩

/-!
## The claim
-/

/-- What a worker comes to: it claimed nothing, or its task is settled or left running. -/
def Closed (state : Tracked Q A) : Prop := state.2 = none ∨ ∃ id, Ended id state

theorem unclaimed_track {event : Exchange ports} (unclaimed : claimedId event = none) :
    track none event = none := by
  rw [track, unclaimed]
  rfl

def Unclaiming : Request → Prop
  | .queue (.claim _ _) | .queue (.claimNext _) => False
  | _ => True

theorem unclaiming_claims {request : Request} (unclaiming : Unclaiming request)
    (reply : ports.Reply request) : claimedId ⟨request, reply⟩ = none := by
  cases request with
  | queue op => cases op <;> first | rfl | exact absurd unclaiming not_false
  | _ => rfl

theorem unclaiming_meets {program : Code α} (asks : Asks Unclaiming program)
    {state : Tracked Q A} (unclaimed : state.2 = none) :
    Meets (env Q A) mayClaim program state fun after _ => after.2 = none := by
  refine asks.meets (fun after : Tracked Q A => after.2 = none) ?_ ?_ unclaimed
  · intro after request none asked
    cases request with
    | queue op => cases op <;> first | exact none | trivial
    | _ => trivial
  · intro middle request reply after none asked answered
    rw [answered.2, none]
    exact unclaimed_track (unclaiming_claims asked reply)

theorem unclaiming_bind {program : Code α} {next : α → Code β} {state : Tracked Q A}
    (asks : Asks Unclaiming program) (unclaimed : state.2 = none)
    (rest : ∀ value (after : Tracked Q A), after.2 = none →
      Meets (env Q A) mayClaim (next value) after fun final _ => Closed final) :
    Meets (env Q A) mayClaim (program >>= next) state fun final _ => Closed final :=
  (unclaiming_meets asks unclaimed).seq (fun after value none => rest value after none)
    fun _ _ none => .inl none

theorem claim_pending {task : Task} {lease : Duration} {state after : Tracked Q A}
    (unclaimed : state.2 = none)
    (answered : env Q A (.queue (.claim task lease)) state (.ok true) after) :
    Pending task.id after := by
  refine ⟨?_, by rw [answered.2, unclaimed]; rfl⟩
  obtain ⟨now, spec⟩ := working_spec answered.1
  rcases spec with ⟨stored, found, _, _, board⟩ | ⟨_, lost, _⟩
  · have own : stored.id = task.id := Q.filed _ _ _ found
    refine ⟨claimed (now + lease) stored, ?_, rfl⟩
    rw [board, ← own]
    exact board_put_self _ (claimed (now + lease) stored)
  · cases lost

theorem claim_next_pending {task : Task} {lease : Duration} {state after : Tracked Q A}
    (unclaimed : state.2 = none)
    (answered : env Q A (.queue (.claimNext lease)) state (.ok (some task)) after) :
    Pending task.id after := by
  refine ⟨?_, by rw [answered.2, unclaimed]; rfl⟩
  obtain ⟨now, spec⟩ := working_spec answered.1
  rcases spec with ⟨stored, _, _, _, taken, board⟩ | ⟨_, empty, _⟩
  · obtain rfl := Option.some.inj (Except.ok.inj taken)
    exact ⟨claimed (now + lease) stored, by rw [board]; exact board_put_self _ _, rfl⟩
  · cases empty

theorem claim_bind {task : Task} {lease : Duration} {won lost : Code α} {state : Tracked Q A}
    (unclaimed : state.2 = none)
    (after_won : ∀ after : Tracked Q A, Pending task.id after →
      Meets (env Q A) mayClaim won after fun final _ => Closed final)
    (after_lost : ∀ after : Tracked Q A, after.2 = none →
      Meets (env Q A) mayClaim lost after fun final _ => Closed final) :
    Meets (env Q A) mayClaim (Queue.claim task lease >>= fun taken => if taken then won else lost)
      state fun final _ => Closed final := by
  refine meets_call_bind unclaimed (fun taken after answered => ?_) fun error after answered => ?_
  · cases taken with
    | true => exact after_won after (claim_pending unclaimed answered)
    | false =>
        refine after_lost after ?_
        rw [answered.2, unclaimed]
        rfl
  · refine .inl ?_
    rw [answered.2, unclaimed]
    rfl

variable [Unicode] [Sha256]

theorem ends_execute_claimed (executor : TaskExecutor) (task : Task) (spec : TaskSpec)
    (recipient : Option Str) (verifier : Option CommandVerifier) {state : Tracked Q A}
    (pending : Pending task.id state) :
    Meets (env Q A) mayClaim (executor.executeClaimed task spec recipient verifier) state
      fun after _ => Ended task.id after := by
  refine meets_call_bind trivial (fun found after answered => ?_) fun error after answered => ?_
  · obtain ⟨board, phase⟩ := neutral_kept (show Neutral (.queue (.get task.id)) from trivial) answered
    obtain ⟨now, read, _⟩ := working_spec answered.1
    obtain ⟨⟨stored, located, isRunning⟩, tracked⟩ := pending
    obtain rfl : found = some stored := (Except.ok.inj read).trans located
    have pending : Pending task.id after :=
      ⟨⟨stored, by rw [board, located], isRunning⟩, phase.trans tracked⟩
    refine (pends_emit _ _ _ _ pending).seq (fun state _ pending => ?_) fun _ _ stuck => .inr stuck
    refine (pends_attempt (by exact ⟨not_false, fun _ => rfl, fun _ => rfl⟩) pending).seq
      (fun state created pending => ?_) fun _ _ stuck => .inr stuck
    have own : stored.id = task.id := Q.filed _ _ _ located
    cases created with
    | error error =>
        exact meets_call_bind trivial
          (fun _ after answered => .inl (transition_settles own isRunning (.inr rfl) pending answered))
          fun _ after answered => .inl (transition_settles own isRunning (.inr rfl) pending answered)
    | ok worktree =>
        exact ends_run_in executor task stored spec recipient verifier worktree own isRunning pending
  · obtain ⟨now, read, _⟩ := working_spec answered.1
    cases read

omit [Unicode] [Sha256] in
theorem ends_closed {program : Code α} {state : Tracked Q A}
    (ends : Meets (env Q A) mayClaim program state fun after _ => Ended id after) :
    Meets (env Q A) mayClaim program state fun after _ => Closed after :=
  ends.post fun _ _ ended => .inr ⟨id, ended⟩

section Entries

variable (worker : TaskWorker)

omit [Unicode] [Sha256] in
theorem unclaiming_guarding {program : Code α} {task : Task}
    (asks : Asks (TaskWorker.Guarding task) program) : Asks Unclaiming program :=
  asks.mono fun request guarding => by
    cases request with
    | queue op => cases op <;> first | exact absurd guarding not_false | trivial
    | _ => trivial

omit [Unicode] [Sha256] in
theorem unclaiming_looking {program : Code α} (asks : Asks TaskWorker.Looking program) :
    Asks Unclaiming program :=
  asks.mono fun request looking => by
    cases request with
    | queue op => cases op <;> trivial
    | _ => trivial

omit [Unicode] [Sha256] in
/-- The policy of a claimed task: no handler is there for a store that raises,
nor for a command of the allowlist that cannot be split. -/
theorem pends_effective (task : Task) (spec : TaskSpec) {state : Tracked Q A}
    (pending : Pending id state) :
    Meets (env Q A) mayClaim (worker.effective task spec) state (Pends id) := by
  unfold TaskWorker.effective TaskWorker.policyFor
  split
  · rename_i taskSpec _ _
    refine meets_call_bind trivial (fun found after answered => ?_) fun error after answered => ?_
    · obtain ⟨same, phase⟩ := plain_tracked
        (show ¬Stored (.policyForRepo taskSpec.repoUrl) from not_false) answered pending.2
      have running := same ▸ pending.1
      cases found with
      | none => exact ⟨running, phase⟩
      | some policy =>
          simp only
          cases commands : policy.extraAllowed with
          | ok extra =>
              have kept : Pending id after := ⟨running, by
                rw [phase]
                simp [escapes, commands, Except.isOk, Except.toBool]⟩
              split_ifs <;> exact kept
          | error error =>
              have stuck : Stuck id after := ⟨running, by
                rw [phase]
                simp [escapes, commands, Except.isOk, Except.toBool]⟩
              have listed : policy.verifyAllow.isEmpty = false := by
                by_contra empty
                rw [Bool.not_eq_false, List.isEmpty_iff] at empty
                rw [ProjectPolicy.extraAllowed, empty] at commands
                cases commands
              rw [listed]
              exact stuck
    · obtain ⟨same, phase⟩ := plain_tracked
        (show ¬Stored (.policyForRepo taskSpec.repoUrl) from not_false) answered pending.2
      exact ⟨same ▸ pending.1, phase⟩
  · exact pending

theorem closed_run_claimed (task : Task) {state : Tracked Q A} (pending : Pending task.id state) :
    Meets (env Q A) mayClaim (worker.runClaimed task) state fun after _ => Closed after := by
  refine meets_call_bind trivial (fun resolved after answered => ?_) fun error after answered => ?_
  · obtain ⟨same, phase⟩ := plain_tracked
      (show ¬Stored (.resolveSpec task worker.repoPath) from not_false) answered pending.2
    have kept : Pending task.id after := ⟨same ▸ pending.1, phase⟩
    exact (pends_effective worker task resolved kept).seq
      (fun state shaped pending => ends_closed
        (ends_execute_claimed worker.executor task shaped.1 worker.recipient shaped.2 pending))
      fun _ _ stuck => .inr ⟨_, .inr stuck⟩
  · obtain ⟨same, phase⟩ := plain_tracked
      (show ¬Stored (.resolveSpec task worker.repoPath) from not_false) answered pending.2
    exact .inr ⟨task.id, .inr ⟨same ▸ pending.1, phase⟩⟩

theorem closed_run_first (tasks : List Task) {state : Tracked Q A} (unclaimed : state.2 = none) :
    Meets (env Q A) mayClaim (worker.runFirst tasks) state fun after _ => Closed after := by
  induction tasks generalizing state with
  | nil => exact .inl unclaimed
  | cons task rest ih =>
      refine unclaiming_bind (unclaiming_looking (TaskWorker.asks_dependencies task)) unclaimed
        fun status state unclaimed => ?_
      cases status.state with
      | failed =>
          refine unclaiming_bind (asks_call trivial) unclaimed fun _ state unclaimed => ?_
          exact unclaiming_bind (asks_emit (fun _ _ _ => trivial) _ _ _ _) unclaimed
            fun _ _ unclaimed => ih unclaimed
      | blocked =>
          exact unclaiming_bind (asks_emit (fun _ _ _ => trivial) _ _ _ _) unclaimed
            fun _ _ unclaimed => ih unclaimed
      | ready =>
          refine unclaiming_bind (unclaiming_guarding (TaskWorker.asks_runnable worker task)) unclaimed
            fun passed state unclaimed => ?_
          cases passed with
          | false => exact ih unclaimed
          | true =>
              exact claim_bind unclaimed (fun _ pending => closed_run_claimed worker task pending)
                fun _ unclaimed => ih unclaimed

theorem closed_execute (executor : TaskExecutor) (task : Task) (spec : TaskSpec)
    (recipient : Option Str) (verifier : Option CommandVerifier) {state : Tracked Q A}
    (unclaimed : state.2 = none) :
    Meets (env Q A) mayClaim (executor.execute task spec recipient false verifier) state
      fun after _ => Closed after :=
  claim_bind unclaimed
    (fun _ pending => ends_closed
      (ends_execute_claimed executor task spec recipient verifier pending))
    fun _ unclaimed => .inl unclaimed

theorem closed_run (taskId : Str) {state : Tracked Q A} (unclaimed : state.2 = none) :
    Meets (env Q A) mayClaim (worker.run taskId) state fun after _ => Closed after := by
  refine unclaiming_bind (asks_call trivial) unclaimed fun found state unclaimed => ?_
  cases found with
  | none => exact .inl unclaimed
  | some task =>
      refine unclaiming_bind (unclaiming_looking (TaskWorker.asks_guard_budget worker task.id))
        unclaimed fun _ state unclaimed => ?_
      refine unclaiming_bind (unclaiming_guarding (TaskWorker.asks_guard_attempts worker task))
        unclaimed fun _ state unclaimed => ?_
      refine unclaiming_bind (unclaiming_guarding (TaskWorker.asks_guard_dependencies worker task))
        unclaimed fun _ state unclaimed => ?_
      refine unclaiming_bind (unclaiming_guarding (TaskWorker.asks_guard_policy worker task))
        unclaimed fun _ state unclaimed => ?_
      refine unclaiming_bind (asks_call trivial) unclaimed fun resolved state unclaimed => ?_
      refine unclaiming_bind (unclaiming_looking (TaskWorker.asks_effective worker task resolved))
        unclaimed fun shaped state unclaimed => ?_
      exact closed_execute worker.executor task shaped.1 worker.recipient shaped.2 unclaimed

theorem closed_run_next {state : Tracked Q A} (unclaimed : state.2 = none) :
    Meets (env Q A) mayClaim worker.runNext state fun after _ => Closed after := by
  refine unclaiming_bind (unclaiming_looking (TaskWorker.asks_guard_budget worker _)) unclaimed fun _ state unclaimed => ?_
  exact unclaiming_bind (asks_call trivial) unclaimed fun queued state unclaimed =>
    closed_run_first worker queued unclaimed

end Entries

theorem closed_program (work : Work) {state : Tracked Q A} (unclaimed : state.2 = none) :
    Meets (env Q A) mayClaim work.program state fun after _ => Closed after := by
  cases work with
  | run worker taskId =>
      exact (closed_run worker taskId unclaimed).seq (fun _ _ closed => closed) fun _ _ closed => closed
  | runNext worker =>
      exact (closed_run_next worker unclaimed).seq (fun _ _ closed => closed) fun _ _ closed => closed
  | execute executor task spec recipient verifier =>
      exact (closed_execute executor task spec recipient verifier unclaimed).seq
        (fun _ _ closed => closed) fun _ _ closed => closed
  | executeNext executor lease spec recipient verifier =>
      refine meets_call_bind unclaimed (fun taken after answered => ?_) fun error after answered => ?_
      · cases taken with
        | none =>
            refine .inl ?_
            rw [answered.2, unclaimed]
            rfl
        | some task =>
            have pending := claim_next_pending unclaimed answered
            exact (ends_closed (ends_execute_claimed executor task spec recipient verifier
              pending)).seq (fun _ _ closed => closed) fun _ _ closed => closed
      · refine .inl ?_
        rw [answered.2, unclaimed]
        rfl

omit [Unicode] [Sha256] in
theorem tracked_since_claim (events : List (Exchange ports)) (id : Str) (escaped : Bool) :
    events.foldl track (some (id, escaped)) = some (id, escaped || events.any escapes) := by
  induction events generalizing escaped with
  | nil => simp
  | cons event rest ih => rw [List.foldl_cons, track, ih, List.any_cons, Bool.or_assoc]

/-- A task that was claimed ends in `done` or `failed` exactly where nothing
escaped since. -/
theorem claimed_task_settles_iff (work : Work) (world final : World Q A)
    (trace : List (Exchange ports)) (outcome : Except Exn Unit)
    (execution : Exec (working Q A) work.program world trace outcome final)
    (before after : List (Exchange ports)) (event : Exchange ports) (id : Str)
    (split : trace = before ++ event :: after) (claims : claimedId event = some id) :
    HasState final id (fun state => state = .done ∨ state = .failed) ↔
      ∀ later ∈ after, escapes later = false := by
  have recorded := exec_recorded execution track none
  have unclaimed : ((world, none) : Tracked Q A).2 = none := rfl
  have meets := closed_program work unclaimed
  have observed : ∀ request (s : Tracked Q A) reply s', env Q A request s reply s' →
      Prod.snd s' = track (Prod.snd s) ⟨request, reply⟩ := fun _ _ _ _ answered => answered.2
  obtain ⟨middle, summary, asked⟩ := meets.permits recorded observed before after event split
  have first : before.foldl track none = none := by
    rw [← summary]
    obtain ⟨request, reply⟩ := event
    cases request with
    | queue op => cases op <;> first | exact asked | cases claims
    | _ => cases claims
  have phase : trace.foldl track none = some (id, after.any escapes) := by
    rw [split, List.foldl_append, List.foldl_cons, first, track, claims]
    exact tracked_since_claim after id false
  rcases meets.sound recorded with nothing | ⟨other, settled | stuck⟩
  · rw [phase] at nothing
    cases nothing
  · obtain ⟨has, tracked⟩ := settled
    rw [phase] at tracked
    obtain ⟨rfl, quiet⟩ := Prod.mk.inj (Option.some.inj tracked)
    have silent : ∀ later ∈ after, escapes later = false := fun later member =>
      Bool.of_not_eq_true (List.any_eq_false.mp quiet later member)
    exact ⟨fun _ => silent, fun _ => has⟩
  · obtain ⟨⟨task, found, running⟩, tracked⟩ := stuck
    rw [phase] at tracked
    obtain ⟨rfl, escaped⟩ := Prod.mk.inj (Option.some.inj tracked)
    constructor
    · rintro ⟨same, located, ended⟩
      obtain rfl : task = same := Option.some.inj (found.symm.trans located)
      have running : task.state = .running := running
      rw [running] at ended
      rcases ended with ended | ended <;> cases ended
    · intro silent
      obtain ⟨later, member, escapes⟩ := List.any_eq_true.mp escaped
      rw [silent later member] at escapes
      cases escapes

end Progress

section Example

@[reducible] def widgetSha256 : Sha256 :=
  ⟨fun _ => "ca0df2c95aa144c1d0ff2ff3c8f967fdc1de9ef0c4120b3726416701b519d619"⟩

abbrev MemoryWorld := World MemoryQueue.backend (MemoryApprovalStore.backend 0)

def widgetTask : Task where
  id := "m1"
  transportId := "m1"
  createdAt := 0
  spec := some { repoUrl := "acme/widget", instructions := "Fix it" }

def widgetWorld : MemoryWorld where
  queue := (MemoryQueue.backend.step (.enqueue widgetTask .queued) 0
    ⟨MemoryQueue.empty, MemoryQueue.empty_well_formed⟩).2
  approvals := ⟨Registry.empty, Registry.empty_well_formed⟩

def widgetWork : Work :=
  .execute { repoPath := "/repo", worktreesRoot := "/work" } widgetTask
    { repoUrl := "acme/widget", instructions := "Fix it" } none none

def zeroReadings : Readings where
  now := 0
  later := 0
  token := ⟨List.replicate 32 '0', by decide, every_char (by decide)⟩

/-- Collaborators that do their work; the forge answers with a JSON object. -/
def forgeAnswers (answer : List (Str × Json)) (request : Request) : Except Exn request.Result :=
  match request with
  | .createWorktree repo root slug _ =>
      .ok ⟨repo, root ++ '/' :: slug, "dear-agent/".toList ++ slug⟩
  | .runHarness _ _ _ => .ok { exitCode := 0 }
  | .commitAll _ _ => .ok "0123abc"
  | .hasChangesSince _ _ => .ok true
  | .push _ | .removeWorktree _ => .ok ()
  | .openDraftPr _ _ _ _ => parseGithub (fun _ => "https://github.com/acme/widget/pull/1") answer
  | _ => .error .assertionError

def widgetRun (answer : List (Str × Json)) :=
  let _ := asciiTables
  let _ := widgetSha256
  Lib.Effects.run (answering zeroReadings (forgeAnswers answer)) widgetWork.program widgetWorld

theorem widget_settles_iff :
    HasState (widgetRun [("html_url".toList, .null)]).2.2 "m1".toList
        (fun state => state = .done ∨ state = .failed) ↔
      ∀ later ∈ (widgetRun [("html_url".toList, .null)]).1.tail, escapes later = false := by
  let _ := asciiTables
  let _ := widgetSha256
  have execution := exec_run (working _ _)
    (answering zeroReadings (forgeAnswers [("html_url".toList, .null)])) (answering_works _ _)
    widgetWork.program widgetWorld
  have first : (widgetRun [("html_url".toList, .null)]).1.head?.bind claimedId = some "m1".toList := by
    decide
  obtain ⟨event, head, claims⟩ := Option.bind_eq_some_iff.mp first
  obtain ⟨rest, shape⟩ := List.head?_eq_some_iff.mp head
  have tail : (widgetRun [("html_url".toList, .null)]).1.tail = rest := by rw [shape]; rfl
  rw [tail]
  exact claimed_task_settles_iff widgetWork widgetWorld _ _ _ execution [] rest event _ shape claims

/-- The forge answers with an object without the URL, and the claimed task is
left running. -/
theorem missing_url_leaves_running :
    let _ := asciiTables
    let _ := widgetSha256
    ∃ trace outcome final, Exec (working _ _) widgetWork.program widgetWorld trace outcome final ∧
      (∃ event ∈ trace, claimedId event = some widgetTask.id) ∧
        HasState final widgetTask.id (· = .running) := by
  let _ := asciiTables
  let _ := widgetSha256
  have execution := exec_run (working _ _) (answering zeroReadings (forgeAnswers []))
    (answering_works _ _) widgetWork.program widgetWorld
  refine ⟨_, _, _, execution, ?_, ?_⟩
  · have first : (widgetRun []).1.head?.bind claimedId = some "m1".toList := by decide
    obtain ⟨event, head, claims⟩ := Option.bind_eq_some_iff.mp first
    exact ⟨event, List.mem_of_mem_head? head, claims⟩
  · have left : ((widgetRun []).2.2.board widgetTask.id).map Task.state = some .running := by
      decide
    obtain ⟨task, found, running⟩ := Option.map_eq_some_iff.mp left
    exact ⟨task, found, running⟩

end Example

end DearAgent.Work
