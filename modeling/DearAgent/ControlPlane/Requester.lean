import DearAgent.System.Terminal

/-!
# Who decides on a task

A message that changes a task or one of its tokens comes from the thread of the
task and, where it has a sender at all, from the sender of the task. The
comparison of the senders is left out for a message without one.
-/

namespace DearAgent.ControlPlane

open DearAgent.Lib.Text DearAgent.Lib.Effects DearAgent.Queue

set_option autoImplicit false

/-- A message in the thread, from the sender or from nobody known. -/
structure FromRequester [Unicode] (sender thread : Str) (message : RawMessage) : Prop where
  thread : message.threadId = some thread
  sender : ∀ given, message.sender = some given → Unicode.lower given = Unicode.lower sender

variable {Q : QueueBackend} {A : ApprovalBackend}

/-- The task is as it was, and so are the tokens that were issued for it. -/
structure Untouched (task : Task) (ledger : Ledger) (world : World Q A) : Prop where
  stored : world.board task.id = some task
  tokens : ∀ token approval, ledger token = some approval → approval.taskId = task.id →
    world.ledger token = some approval

/-- A request that changes no task that is stored and no token that is issued. -/
def Harmless : Request → Prop
  | .queue (.enqueue _ _) | .queue (.get _) | .queue (.list _ _) => True
  | .queue _ | .redeem _ => False
  | _ => True

section Turns

variable {task : Task} {ledger : Ledger} {world after : World Q A}

theorem token_keeps {request : Request} {reply : ports.Reply request} {token : Str}
    {approval : Approval} (issued : world.ledger token = some approval)
    (spared : ∀ decided, request = .redeem decided → decided.token ≠ token)
    (answered : surroundings Q A request world reply after) : after.ledger token = some approval := by
  have effect := ledger_effect answered token
  rw [issued] at effect
  generalize after.ledger token = found' at effect
  cases effect with
  | kept | looked => rfl
  | redeemed decided _ _ _ same => exact absurd same (spared decided rfl)

theorem harmless_keeps {request : Request} {reply : ports.Reply request}
    (untouched : Untouched task ledger world) (harmless : Harmless request)
    (answered : surroundings Q A request world reply after) : Untouched task ledger after := by
  constructor
  · cases request with
    | queue op =>
        obtain ⟨now, effect⟩ := queue_effect answered task.id
        rw [untouched.stored] at effect
        generalize after.board task.id = found' at effect
        cases effect with
        | kept => rfl
        | _ => exact absurd harmless not_false
    | _ =>
        rw [board_kept answered fun op other => by cases other]
        exact untouched.stored
  · intro token approval issued of
    apply token_keeps (untouched.tokens token approval issued of) _ answered
    rintro decided rfl
    exact absurd harmless not_false

theorem redeem_keeps {decided : ApprovalReply} {reply : Except Exn Redeemed}
    (untouched : Untouched task ledger world)
    (other : ∀ token approval, ledger token = some approval → approval.taskId = task.id →
      token ≠ decided.token)
    (answered : surroundings Q A (.redeem decided) world reply after) :
    Untouched task ledger after := by
  constructor
  · rw [board_kept answered fun op other => by cases other]
    exact untouched.stored
  · intro token approval issued of
    apply token_keeps (untouched.tokens token approval issued of) _ answered
    intro spent redeems
    cases redeems
    exact (other token approval issued of).symm

theorem transition_keeps {read : Task} {toState : TaskState} {evidence : Option Evidence}
    {reply : Except Exn Task} (untouched : Untouched task ledger world) (other : read.id ≠ task.id)
    (answered : surroundings Q A (.queue (.transition read toState evidence)) world reply after) :
    Untouched task ledger after := by
  constructor
  · obtain ⟨now, effect⟩ := queue_effect answered task.id
    rw [untouched.stored] at effect
    generalize after.board task.id = found' at effect
    cases effect with
    | kept => rfl
    | moved _ _ _ _ _ same => exact absurd same other
  · intro token approval issued of
    apply token_keeps (untouched.tokens token approval issued of) _ answered
    intro decided redeems
    cases redeems

theorem got_task {id : Str} {read : Task}
    (answered : surroundings Q A (.queue (.get id)) world (.ok (some read)) after) :
    world.board id = some read ∧ read.id = id := by
  rcases answered with served | ⟨_, ⟨error, raised, _⟩, _⟩
  · obtain ⟨⟨now, spec⟩, _⟩ := served_spec served
    have found : world.board id = some read := (Except.ok.inj spec.1).symm
    exact ⟨found, Q.filed _ _ _ found⟩
  · cases raised

end Turns

/-!
## What a message can ask
-/

section Asking

theorem asks_harmless {α : Type} {program : Code α} (asks : Asks Inbound program) :
    Asks Harmless program :=
  asks.mono fun request inbound => by cases request <;> trivial

theorem Taking.harmless (request : Request) (taking : Taking request) : Harmless request := by
  cases request with
  | queue op => cases op <;> trivial
  | _ => trivial

end Asking

/-!
## The requester decides
-/

section Deciding

variable [Unicode] {task : Task} {ledger : Ledger} {world : World Q A} {sender thread : Str}

/-- An execution whose end, however it comes, leaves the task untouched. -/
abbrev KeepsTask (task : Task) (ledger : Ledger) {α : Type} (program : Code α)
    (world : World Q A) : Prop :=
  Meets (surroundings Q A) (fun _ _ => True) program world fun after _ =>
    Untouched task ledger after

omit [Unicode] in
theorem harmless_program_keeps {α : Type} {program : Code α} (asks : Asks Harmless program)
    (untouched : Untouched task ledger world) : KeepsTask task ledger program world :=
  asks.meets (Untouched task ledger) (fun _ _ _ _ => trivial)
    (fun _ _ _ _ held harmless answered => harmless_keeps held harmless answered) untouched

theorem mismatch_differs {message : RawMessage} (from_ : task.sender = some sender)
    (within : task.threadId = some thread) (threaded : message.threadId.isSome = true)
    (differs : ¬FromRequester sender thread message) :
    ApprovalService.senderDiffers message.sender task.sender = true ∨
      ApprovalService.threadDiffers message.threadId task.threadId = true := by
  rw [from_, within]
  by_contra neither
  simp only [not_or, Bool.not_eq_true] at neither
  refine differs ⟨?_, fun given known => ?_⟩
  · obtain ⟨given, known⟩ := Option.isSome_iff_exists.mp threaded
    rw [known] at neither ⊢
    simpa [ApprovalService.threadDiffers] using neither.2
  · rw [known] at neither
    simpa [ApprovalService.senderDiffers] using neither.1

omit [Unicode] in
theorem decide_keeps {reply : ApprovalReply} {read : Task} (untouched : Untouched task ledger world)
    (other : read.id ≠ task.id)
    (elsewhere : ∀ token approval, ledger token = some approval → approval.taskId = task.id →
      token ≠ reply.token) :
    KeepsTask task ledger (ApprovalService.decide reply read) world := by
  refine meets_call_bind trivial ?_ ?_
  · intro redeemed after answered
    have kept := redeem_keeps untouched elsewhere answered
    exact meets_call trivial fun _ _ answered => transition_keeps kept other answered
  · exact fun error after answered => redeem_keeps untouched elsewhere answered

theorem apply_keeps {reply : ApprovalReply} {message : RawMessage}
    (from_ : task.sender = some sender) (within : task.threadId = some thread)
    (threaded : message.threadId.isSome = true) (differs : ¬FromRequester sender thread message)
    (untouched : Untouched task ledger world) :
    KeepsTask task ledger (ApprovalService.apply reply message.sender message.threadId) world := by
  refine meets_call_bind trivial ?_ fun _ _ answered => harmless_keeps untouched (by trivial) answered
  intro looked first lookup
  have early := harmless_keeps untouched (by trivial) lookup
  have known : first.ledger reply.token = looked := by
    have effect := ledger_effect lookup reply.token
    generalize world.ledger reply.token = found at effect
    generalize first.ledger reply.token = found' at effect
    cases effect with
    | kept _ _ _ spared => exact absurd rfl spared
    | looked => rfl
  cases looked with
  | none => exact early
  | some approval =>
      refine meets_call_bind trivial ?_ fun _ _ answered => harmless_keeps early (by trivial) answered
      intro read second answered
      have later := harmless_keeps early (by trivial) answered
      cases read with
      | none => exact later
      | some read =>
          obtain ⟨found, own⟩ := got_task answered
          simp only
          split_ifs with awaits otherSender otherThread
          · exact later
          · exact later
          · exact later
          · have other : read.id ≠ task.id := by
              intro same
              rw [← own, same, early.stored] at found
              obtain rfl := Option.some.inj found
              rcases mismatch_differs from_ within threaded differs with refused | refused
              · exact otherSender refused
              · exact otherThread refused
            refine decide_keeps later other fun token issued filed of same => other ?_
            subst same
            obtain rfl := Option.some.inj (known.symm.trans (early.tokens _ _ filed of))
            rw [own, of]

theorem apply_decision_keeps (plane : ControlPlane) (decision : ApprovalReply)
    (recipient : Option Str) {message : RawMessage} (from_ : task.sender = some sender)
    (within : task.threadId = some thread) (threaded : message.threadId.isSome = true)
    (differs : ¬FromRequester sender thread message) (untouched : Untouched task ledger world) :
    KeepsTask task ledger (plane.applyDecision message decision recipient) world := by
  refine (meets_catch _ _ _ _).mpr ?_
  refine (apply_keeps from_ within threaded differs untouched).seq (fun _ _ kept => kept) ?_
  intro after error kept
  change KeepsTask task ledger (if explained error then _ else .raise error) after
  split_ifs
  · exact harmless_program_keeps
      (asks_bind (asks_harmless (asks_reply Answering.inbound plane _ _ _)) fun _ => trivial) kept
  · exact kept

theorem ingest_message_keeps (plane : ControlPlane) (recipient : Option Str)
    (report : IngestReport) {message : RawMessage} (from_ : task.sender = some sender)
    (within : task.threadId = some thread) (differs : ¬FromRequester sender thread message)
    (untouched : Untouched task ledger world) :
    KeepsTask task ledger (plane.ingestMessage recipient report message) world := by
  refine (harmless_program_keeps (asks_harmless (asks_authorize (fun _ _ _ => trivial) plane message)) untouched).seq ?_
    fun _ _ kept => kept
  intro admitted outcome kept
  cases outcome with
  | error error =>
      exact harmless_program_keeps
        (asks_bind (asks_harmless (asks_event Answering.inbound plane _ _ _)) fun _ => trivial) kept
  | ok _ =>
      simp only
      split
      · rename_i decision _ decided _
        have threaded : message.threadId.isSome = true := by
          unfold decisionOf at decided
          split_ifs at decided with threaded
          exact threaded
        refine (apply_decision_keeps plane _ recipient from_ within threaded differs kept).seq ?_
          fun _ _ kept => kept
        intro after decided kept
        split_ifs
        · exact kept
        · exact kept
      · exact harmless_program_keeps (asks_intake Taking.harmless plane _ _ _) kept

theorem ingest_all_keeps (plane : ControlPlane) (recipient : Option Str)
    (from_ : task.sender = some sender) (within : task.threadId = some thread)
    (messages : List RawMessage) (report : IngestReport)
    (differ : ∀ message ∈ messages, ¬FromRequester sender thread message)
    (untouched : Untouched task ledger world) :
    KeepsTask task ledger (plane.ingestAll recipient messages report) world := by
  induction messages generalizing report world with
  | nil => exact untouched
  | cons message rest ih =>
      have first := ingest_message_keeps plane recipient report from_ within
        (differ message (List.mem_cons_self ..)) untouched
      exact first.seq (fun _ report kept =>
        ih report (fun other member => differ other (List.mem_cons_of_mem _ member)) kept)
        fun _ _ kept => kept

theorem ingest_keeps (plane : ControlPlane) (recipient : Option Str)
    (from_ : task.sender = some sender) (within : task.threadId = some thread)
    (messages : List RawMessage)
    (differ : ∀ message ∈ messages, ¬FromRequester sender thread message)
    (untouched : Untouched task ledger world) :
    KeepsTask task ledger (plane.ingest messages recipient) world :=
  (ingest_all_keeps plane recipient from_ within messages {} differ untouched).seq
    (fun _ _ kept => harmless_program_keeps
      (asks_bind (asks_harmless (plane.asks_acknowledge messages)) fun _ => trivial) kept)
    fun _ _ kept => kept

/-- Whoever changes a task that awaits a decision, or one of its tokens, wrote in
the thread of the task and, as far as the sender is known, is its sender: one
message at a time, and for a batch as a whole. -/
theorem only_requester_decides {world : World Q A} {task : Task} {sender thread : Str}
    (found : world.board task.id = some task) (from_ : task.sender = some sender)
    (within : task.threadId = some thread) (plane : ControlPlane) (recipient : Option Str) :
    (∀ report message trace outcome after,
      Exec (surroundings Q A) (plane.ingestMessage recipient report message) world trace outcome
        after →
      ¬Untouched task world.ledger after → FromRequester sender thread message) ∧
    ∀ messages trace outcome after,
      Exec (surroundings Q A) (plane.ingest messages recipient) world trace outcome after →
      ¬Untouched task world.ledger after → ∃ message ∈ messages, FromRequester sender thread message := by
  have untouched : Untouched task world.ledger world := ⟨found, fun _ _ issued _ => issued⟩
  constructor
  · intro report message trace outcome after execution touched
    by_contra differs
    exact touched ((ingest_message_keeps plane recipient report from_ within differs
      untouched).sound execution)
  · intro messages trace outcome after execution touched
    by_contra nobody
    simp only [not_exists, not_and] at nobody
    exact touched ((ingest_keeps plane recipient from_ within messages nobody untouched).sound
      execution)

end Deciding

section Example

open DearAgent.Work

local instance : Unicode := asciiTables

abbrev RequesterWorld := World MemoryQueue.backend (MemoryApprovalStore.backend 1)

def waitingTask : Task where
  id := "m1"
  transportId := "m1"
  threadId := some "t1"
  sender := some "dev@example.com"
  state := .action
  createdAt := 0

def waitingWorld : RequesterWorld where
  queue := (MemoryQueue.backend.step (.enqueue waitingTask .action) 0 (emptyWorld 1).queue).2
  approvals := ((MemoryApprovalStore.backend 1).step (.issue "m1" "run") zeroReadings
    (emptyWorld 1).approvals).2

def waitingPlane : ControlPlane := { approvals := true }

def approvingMessage (sender : Option Str) : RawMessage where
  transportId := "m2"
  threadId := some "t1"
  sender := sender
  body := "approve 00000000000000000000000000000000"

def waitingRound (message : RawMessage) :=
  Lib.Effects.run (answering zeroReadings disabledProject)
    (waitingPlane.ingestMessage none {} message) waitingWorld

theorem waiting_found : waitingWorld.board waitingTask.id = some waitingTask := by decide

theorem waiting_round_executes (message : RawMessage) :
    Exec (surroundings _ _) (waitingPlane.ingestMessage none {} message) waitingWorld
      (waitingRound message).1 (waitingRound message).2.1 (waitingRound message).2.2 :=
  exec_run (surroundings _ _) (answering zeroReadings disabledProject)
    (fun request world => (answering_works zeroReadings disabledProject request world).1) _ _

theorem requester_decided :
    FromRequester "dev@example.com".toList "t1".toList
      (approvingMessage (some "Dev@example.com".toList)) := by
  have execution := waiting_round_executes (approvingMessage (some "Dev@example.com".toList))
  refine (only_requester_decides waiting_found rfl rfl waitingPlane none).1 _ _ _ _ _ execution
    fun untouched => ?_
  have moved : ((waitingRound (approvingMessage (some "Dev@example.com".toList))).2.2.board
      waitingTask.id).map Task.state = some .queued := by decide
  rw [untouched.stored] at moved
  cases moved

theorem unknown_sender_decides :
    ¬∀ (world after : RequesterWorld) (task : Task) (sender thread : Str) (plane : ControlPlane)
      (recipient : Option Str) (report : IngestReport) (message : RawMessage)
      (trace : List (Exchange ports)) (outcome : Except Exn IngestReport),
      world.board task.id = some task → task.state = .action → task.sender = some sender →
      task.threadId = some thread →
      Exec (surroundings _ _) (plane.ingestMessage recipient report message) world trace outcome
        after →
      (∃ moved, after.board task.id = some moved ∧ moved.state ≠ .action) →
      message.sender.map Unicode.lower = some (Unicode.lower sender) ∧
        message.threadId = some thread := by
  intro decides
  have moved : ((waitingRound (approvingMessage none)).2.2.board waitingTask.id).map Task.state =
      some .queued := by decide
  obtain ⟨task, found, queued⟩ := Option.map_eq_some_iff.mp moved
  have execution := waiting_round_executes (approvingMessage none)
  obtain ⟨known, _⟩ := decides _ _ waitingTask _ _ waitingPlane none _ _ _ _ waiting_found rfl rfl
    rfl execution ⟨task, found, by rw [queued]; simp⟩
  cases known

end Example

end DearAgent.ControlPlane
