import DearAgent.System.Runs
import DearAgent.System.Leases

/-!
# The human gate

A task that was stored because its message was flagged runs only after an
approval: while no token of the task was redeemed by an approving reply, the
task is neither queued nor running, and whoever runs tasks finds it in one of
these states first.
-/

namespace DearAgent

open DearAgent.Lib.Text DearAgent.Lib.Effects DearAgent.Lib.Interleaving DearAgent.Queue

set_option autoImplicit false

def storedId : Exchange ports → Option Str
  | ⟨.queue (.enqueue task _), .ok (some _)⟩ => some task.id
  | _ => none

theorem stored_id_spec {event : Exchange ports} {id : Str} (stores : storedId event = some id) :
    ∃ task state stored, task.id = id ∧ event = ⟨.queue (.enqueue task state), .ok (some stored)⟩ := by
  unfold storedId at stores
  split at stores
  · rename_i task state stored
    exact ⟨task, state, stored, Option.some.inj stores, rfl⟩
  · cases stores

/-- An ingest with an approval service stored the task for a message that was flagged. -/
def GatedBy (before : History ports Operation) (id : Str) (entry : Entry ports Operation) : Prop :=
  entry.operation.gates = true ∧ flagged (own before entry.pid) = true ∧
    storedId entry.event = some id

instance (before : History ports Operation) (id : Str) (entry : Entry ports Operation) :
    Decidable (GatedBy before id entry) :=
  inferInstanceAs (Decidable (_ ∧ _ ∧ _))

def Gated (history : History ports Operation) (id : Str) : Prop :=
  ∃ before entry after, history = before ++ entry :: after ∧ GatedBy before id entry

/-- The token was issued for the task and the action, before the run or in it. -/
def IssuedFor (ledger : Ledger) (history : History ports Operation) (token taskId action : Str) :
    Prop :=
  (∃ approval, ledger token = some approval ∧ approval.taskId = taskId ∧ approval.action = action) ∨
    ∃ entry ∈ history, ∃ approval, entry.event = ⟨.issue taskId action, .ok approval⟩ ∧
      approval.token = token

/-- A token to run the task was redeemed before its expiry by an approving reply. -/
def ApprovedRun (ledger : Ledger) (history : History ports Operation) (id : Str) : Prop :=
  ∃ before entry after reply redeemed, history = before ++ entry :: after ∧
    entry.event = ⟨.redeem reply, .ok redeemed⟩ ∧ reply.decision = .approved ∧
    redeemed.approval.taskId = id ∧ redeemed.approval.action = "run".toList ∧
    redeemed.checkedAt < redeemed.approval.expiresAt ∧
    IssuedFor ledger before reply.token id "run".toList

/-- The task goes to a runner: into a job, to a sandbox or to the harness. -/
def HandsOver (id : Str) (entry : Entry ports Operation) : Prop :=
  match entry.event.1 with
  | .renderJob _ task | .sessionFor task _ | .runHarness task _ _ => task.id = id
  | _ => False

section Histories

variable {ledger : Ledger} {history : History ports Operation} {entry : Entry ports Operation}
  {id token taskId action : Str}

theorem gated_concat (gated : Gated (history ++ [entry]) id) :
    Gated history id ∨ GatedBy history id entry := by
  obtain ⟨before, gating, after, split, stored⟩ := gated
  rcases split_concat split with ⟨_, rfl, rfl⟩ | ⟨rest, _, same⟩
  · exact .inr stored
  · exact .inl ⟨before, gating, rest, same, stored⟩

theorem IssuedFor.later (issued : IssuedFor ledger history token taskId action)
    (entry : Entry ports Operation) : IssuedFor ledger (history ++ [entry]) token taskId action := by
  rcases issued with early | ⟨issue, member, approval, event, same⟩
  · exact .inl early
  · exact .inr ⟨issue, List.mem_append_left _ member, approval, event, same⟩

theorem ApprovedRun.later (approved : ApprovedRun ledger history id)
    (more : History ports Operation) : ApprovedRun ledger (history ++ more) id := by
  obtain ⟨before, redeem, after, reply, redeemed, rfl, rest⟩ := approved
  exact ⟨before, redeem, after ++ more, reply, redeemed, by simp, rest⟩

end Histories

section Turns

variable {Q : QueueBackend} {A : ApprovalBackend} {world after : World Q A}

/-- Every token in the ledger was issued for what the ledger says. -/
def TokensIssued (ledger : Ledger) (world : World Q A) (history : History ports Operation) : Prop :=
  ∀ token approval, world.ledger token = some approval →
    IssuedFor ledger history token approval.taskId approval.action

theorem stored_was_untaken {task stored : Task} {state : TaskState}
    (answered : surroundings Q A (.queue (.enqueue task state)) world (.ok (some stored)) after) :
    ¬Taken world.board task := by
  rcases answered with served | ⟨_, ⟨error, raised, _⟩, _⟩
  · obtain ⟨⟨now, spec⟩, _⟩ := served_spec served
    rcases spec with ⟨_, refused, _⟩ | ⟨untaken, _⟩
    · cases refused
    · exact untaken
  · cases raised

theorem stored_is_found {task stored : Task} {state : TaskState}
    (answered : surroundings Q A (.queue (.enqueue task state)) world (.ok (some stored)) after) :
    after.board task.id = some stored := by
  rcases answered with served | ⟨_, ⟨error, raised, _⟩, _⟩
  · obtain ⟨⟨now, spec⟩, _⟩ := served_spec served
    rcases spec with ⟨_, refused, _⟩ | ⟨_, kept, stores, same, put⟩
    · cases refused
    · cases same
      rw [put, ← stores.id]
      exact board_put_self _ stored
  · cases raised

theorem offered_is_taken {task : Task} {state : TaskState} {stored : Option Task}
    (answered : surroundings Q A (.queue (.enqueue task state)) world (.ok stored) after) :
    Taken after.board task := by
  rcases answered with served | ⟨_, ⟨error, raised, _⟩, _⟩
  · obtain ⟨⟨now, spec⟩, _⟩ := served_spec served
    rcases spec with ⟨taken, _, same⟩ | ⟨_, kept, stores, _, put⟩
    · rw [same]
      exact taken
    · refine ⟨kept.id, kept, ?_, .inl stores.id⟩
      rw [put, board_put_self]
  · cases raised

theorem listed_was_stored {limit : Int} {state : TaskState} {page : List Task}
    (answered : surroundings Q A (.queue (.list state limit)) world (.ok page) after) :
    ∀ task ∈ page, world.board task.id = some task ∧ task.state = state := by
  rcases answered with served | ⟨_, ⟨error, raised, _⟩, _⟩
  · obtain ⟨⟨now, spec⟩, _⟩ := served_spec served
    rcases spec with ⟨_, ⟨listed, same, isPage⟩ | ⟨_, error, raised, _⟩⟩
    · cases same
      exact isPage.stored
    · cases raised
  · cases raised

theorem claimed_was_queued {request : Request} {reply : ports.Reply request} {id : Str}
    (claimed : Work.claimedId ⟨request, reply⟩ = some id)
    (answered : surroundings Q A request world reply after) :
    ∃ task, world.board id = some task ∧ task.state = .queued := by
  cases request with
  | queue op =>
      obtain ⟨now, effect⟩ := queue_effect answered id
      generalize world.board id = found at effect
      generalize after.board id = found' at effect
      cases effect with
      | kept _ _ _ untouched => exact absurd (claim_touches claimed) untouched
      | claimed task stored lease same queued => exact ⟨stored, rfl, queued⟩
      | claimedNext stored lease same queued => exact ⟨stored, rfl, queued⟩
      | _ => cases claimed
  | _ => cases claimed

theorem target_queued {decision : Decision} {action : Str}
    (queued : ApprovalService.target decision action = .queued) :
    decision = .approved ∧ action = "run".toList := by
  unfold ApprovalService.target at queued
  split_ifs at queued with rejects runs
  exact ⟨not_not.mp rejects, runs⟩

theorem target_not_running (decision : Decision) (action : Str) :
    ApprovalService.target decision action ≠ .running := by
  unfold ApprovalService.target
  split_ifs <;> simp

end Turns

section Runs

variable [Unicode] [Sha256] {Q : QueueBackend} {A : ApprovalBackend} {world : World Q A}
  {c earlier : Config ports Operation (World Q A)} {id : Str}

theorem gated_before_stored (run : Run (surroundings Q A) Operation.start anyTurn earlier c)
    {task : Task} (found : earlier.shared.board id = some task) (gated : Gated c.history id) :
    Gated earlier.history id := by
  induction run with
  | refl => exact gated
  | @tail middle c run step ih =>
      cases step with
      | launch operation => exact ih gated
      | act entry next shared scheduled answered admitted =>
          rcases gated_concat gated with old | ⟨_, _, stores⟩
          · exact ih old
          · obtain ⟨new, state, stored, rfl, event⟩ := stored_id_spec stores
            obtain ⟨kept, located, _⟩ := run_keeps_task run found
            obtain ⟨pid, operation, exchange⟩ := entry
            cases event
            exact absurd ⟨_, kept, located, .inl rfl⟩ (stored_was_untaken answered)

theorem tokens_are_issued (reachable : Reachable (surroundings Q A) Operation.start world c) :
    TokensIssued world.ledger c.shared c.history := by
  refine (discipline Q A).invariant ?_ ?_ reachable
  · exact fun token approval found => .inl ⟨approval, found, rfl, rfl⟩
  · intro before history entry after issued permitted answered token approval found
    have earlier := issued token
    obtain ⟨pid, operation, request, reply⟩ := entry
    have effect := ledger_effect answered token
    generalize before.ledger token = found₀ at effect earlier
    rw [found] at effect
    cases effect with
    | kept | looked => exact (earlier approval rfl).later _
    | issued taskId action _ same of use =>
        subst of use
        exact .inr ⟨_, List.mem_append_right _ (List.mem_singleton_self _), approval, rfl, same⟩
    | redeemed decided old usedAt checkedAt => exact (earlier old rfl).later _

theorem queueing_decision_approves
    (reachable : Reachable (surroundings Q A) Operation.start world c) {pid : Nat}
    {reply : ApprovalReply} {approval : Approval} {redeemed : Redeemed}
    (looked : (⟨.approvalOf reply.token, .ok (some approval)⟩ : Exchange ports) ∈ own c.history pid)
    (spent : (⟨.redeem reply, .ok redeemed⟩ : Exchange ports) ∈ own c.history pid)
    (queues : ApprovalService.target reply.decision redeemed.approval.action = .queued) :
    ApprovedRun world.ledger c.history approval.taskId := by
  obtain ⟨approves, runs⟩ := target_queued queues
  have task := redeemed_as_looked_up reachable looked spent
  obtain ⟨before, ⟨_, operation, exchange⟩, after, first, next, split, rfl, rfl, turn⟩ :=
    turn_of_own reachable spent
  obtain ⟨live, _, issued, found, _, issue⟩ := redeemed_was_live turn.answered
  have token := tokens_are_issued turn.reached reply.token issued found
  rw [← issue.taskId, ← issue.action, task, runs] at token
  exact ⟨first.history, _, after, reply, redeemed, split, rfl, approves, task, runs, live, token⟩

theorem gated_is_stored (reachable : Reachable (surroundings Q A) Operation.start world c)
    (gated : Gated c.history id) : ∃ task, c.shared.board id = some task := by
  obtain ⟨before, ⟨pid, operation, exchange⟩, after, split, _, _, stores⟩ := gated
  obtain ⟨task, state, stored, rfl, rfl⟩ := stored_id_spec stores
  obtain ⟨first, next, _, turn⟩ := turn_of_run reachable split
  obtain ⟨kept, located, _⟩ := run_keeps_task turn.goes (stored_is_found turn.answered)
  exact ⟨kept, located⟩

theorem offered_stays_taken (reachable : Reachable (surroundings Q A) Operation.start world c)
    {pid : Nat} {task : Task} (offered : Offered (own c.history pid) task.id)
    (dedupe : task.transportId = task.id) : Taken c.shared.board task := by
  obtain ⟨earlier, state, stored, same, transport, member⟩ := offered
  obtain ⟨before, ⟨_, operation, exchange⟩, after, first, next, _, rfl, _, turn⟩ :=
    turn_of_own reachable member
  obtain ⟨key, found, located, taken⟩ := offered_is_taken turn.answered
  obtain ⟨kept, filed, identity⟩ := run_keeps_task turn.goes located
  refine ⟨key, kept, filed, ?_⟩
  rw [identity.transportId, dedupe, ← same]
  rw [transport, ← same] at taken
  exact taken

theorem gated_task_waits (reachable : Reachable (surroundings Q A) Operation.start world c) :
    ∀ task, c.shared.board id = some task → Gated c.history id →
      task.state = .queued ∨ task.state = .running → ApprovedRun world.ledger c.history id := by
  induction reachable with
  | refl =>
      rintro task _ ⟨before, entry, after, split, _⟩
      exact absurd split.symm (List.append_ne_nil_of_right_ne_nil _ (List.cons_ne_nil _ _))
  | @tail c c' reached step ih =>
      cases step with
      | launch operation => exact ih
      | act entry next shared scheduled answered admitted =>
          intro task found gated runnable
          have permitted := (discipline Q A).permits reached scheduled
          have run : Run (surroundings Q A) Operation.start anyTurn c _ :=
            .single (.act c entry next shared scheduled answered admitted)
          -- A task that was there before and could run was approved before.
          have known : ∀ stored, c.shared.board id = some stored →
              stored.state = .queued ∨ stored.state = .running →
              ApprovedRun world.ledger (c.history ++ [entry]) id := fun stored located early =>
            (ih stored located (gated_before_stored run located gated) early).later [entry]
          change shared.board id = some task at found
          obtain ⟨pid, operation, request, reply⟩ := entry
          cases request with
          | queue op =>
              obtain ⟨now, effect⟩ := queue_effect answered id
              generalize first : c.shared.board id = found₀ at effect
              rw [found] at effect
              cases effect with
              | kept => exact known task first runnable
              | enqueued offered stored state same stores =>
                  rw [stores.state] at runnable
                  rcases gated_concat gated with old | ⟨gates, flags, _⟩
                  · obtain ⟨there, located⟩ := gated_is_stored reached old
                    cases first.symm.trans located
                  · rcases permitted with parked | ⟨_, dedupe, reported⟩
                    · rw [parked] at runnable
                      simp at runnable
                    -- A flag that does not park a message is one on a message offered before.
                    · exact absurd (offered_stays_taken reached (reported gates flags) dedupe)
                        (stored_was_untaken answered)
              | claimed offered stored lease same queued => exact known stored first (.inl queued)
              | claimedNext stored lease same queued => exact known stored first (.inl queued)
              | moved read stored moved toState evidence same matched move =>
                  rw [moved_state move] at runnable
                  cases permitted with
                  | decided _ reply approval redeemed awaiting looked of spent =>
                      have queues := runnable.resolve_right (target_not_running _ _)
                      have approved := queueing_decision_approves reached looked spent queues
                      rw [of, same] at approved
                      exact approved.later _
                  | unrunnable | refused => simp at runnable
                  | ended toState _ _ final => rcases final with rfl | rfl <;> simp at runnable
              | released limit released stored expired same listed =>
                  simp only [stale, Bool.and_eq_true, decide_eq_true_eq] at expired
                  exact known stored first (.inr expired.1)
          | _ =>
              have same := board_kept answered fun op other => by cases other
              exact known task (same ▸ found) runnable

theorem seen_queued_approved {next : Config ports Operation (World Q A)}
    {entry : Entry ports Operation} (turn : TurnOf world c earlier next entry) {task : Task}
    (found : earlier.shared.board id = some task) (queued : task.state = .queued)
    (gated : Gated c.history id) : ApprovedRun world.ledger earlier.history id :=
  gated_task_waits turn.reached task found
    (gated_before_stored (turn.took.trans turn.goes) found gated) (.inl queued)

theorem handed_over_was_queued {next : Config ports Operation (World Q A)}
    {entry : Entry ports Operation} (turn : TurnOf world c earlier next entry)
    (hands : HandsOver id entry) :
    ∃ before seeing after first second task, earlier.history = before ++ seeing :: after ∧
      first.history = before ∧ TurnOf world earlier first second seeing ∧
      first.shared.board id = some task ∧ task.state = .queued := by
  have permitted := turn.permitted
  have claims : Claims (own earlier.history entry.pid) id →
      ∃ before seeing after first second task, earlier.history = before ++ seeing :: after ∧
        first.history = before ∧ TurnOf world earlier first second seeing ∧
        first.shared.board id = some task ∧ task.state = .queued := by
    rintro ⟨event, member, claimed⟩
    obtain ⟨before, ⟨_, operation, exchange⟩, after, first, second, split, rfl, prior, claim⟩ :=
      turn_of_own turn.reached member
    obtain ⟨task, found, queued⟩ := claimed_was_queued claimed claim.answered
    exact ⟨before, _, after, first, second, task, split, prior, claim, found, queued⟩
  obtain ⟨pid, operation, request, reply⟩ := entry
  cases request with
  | renderJob template task =>
      obtain ⟨limit, page, read, member⟩ := permitted
      obtain ⟨before, ⟨_, operation, exchange⟩, after, first, second, split, rfl, prior, list⟩ :=
        turn_of_own turn.reached read
      obtain ⟨found, queued⟩ := listed_was_stored list.answered task member
      obtain rfl : task.id = id := hands
      exact ⟨before, _, after, first, second, task, split, prior, list, found, queued⟩
  | sessionFor task spec =>
      obtain rfl : task.id = id := hands
      exact claims permitted
  | runHarness task spec worktree =>
      obtain rfl : task.id = id := hands
      exact claims permitted
  | _ => exact absurd hands not_false

/-- A task stored for a flagged message runs, and is handed to a runner, only
after a token of it was redeemed by an approving reply in time. -/
theorem gated_task_runs_only_approved
    (reachable : Reachable (surroundings Q A) Operation.start world c) (id : Str)
    (gated : Gated c.history id) :
    (∀ task, c.shared.board id = some task → task.state = .running →
      ApprovedRun world.ledger c.history id) ∧
    ∀ before entry after, c.history = before ++ entry :: after → HandsOver id entry →
      ApprovedRun world.ledger before id := by
  constructor
  · exact fun task found running => gated_task_waits reachable task found gated (.inr running)
  · intro before entry after split hands
    obtain ⟨earlier, next, rfl, turn⟩ := turn_of_run reachable split
    obtain ⟨start, seeing, rest, first, second, task, shape, rfl, seen, found, queued⟩ :=
      handed_over_was_queued turn hands
    obtain ⟨kept, located, _⟩ := run_keeps_task (seen.took.trans seen.goes) found
    have known : Gated earlier.history id :=
      gated_before_stored (turn.took.trans turn.goes) located gated
    rw [shape]
    exact (seen_queued_approved seen found queued known).later (seeing :: rest)

end Runs

section Example

open DearAgent.Work

/-- Collaborators that do their work, beside a scanner that flags every message. -/
def suspectingAnswers (request : Request) : Except Exn request.Result :=
  match request with
  | .scan _ => .ok true
  | request => forgeAnswers [("html_url".toList, .null)] request

abbrev ApprovalConfig := Config ports Operation
  (World MemoryQueue.backend (MemoryApprovalStore.backend 1))

def widgetApproval : ApprovalReply := ⟨List.replicate 32 '0', .approved⟩

/-- A message was flagged and its task parked, approved and claimed. -/
def widgetApproved : ApprovalConfig :=
  let _ := asciiTables
  let _ := widgetSha256
  play (answering zeroReadings suspectingAnswers) Operation.start
    ([.launch (.ingest { approvals := true, scanner := true } [widgetMessage] none)] ++
      List.replicate 3 (.act 0) ++ [.launch (.apply widgetApproval none none)] ++
      List.replicate 4 (.act 1) ++ [.launch (.work widgetWork), .act 2]) (initial (emptyWorld 1))

theorem approved_widget_runs :
    ApprovedRun (emptyWorld 1).ledger widgetApproved.history "m1".toList := by
  let _ := asciiTables
  let _ := widgetSha256
  have reachable : Reachable (surroundings _ _) Operation.start (emptyWorld 1) widgetApproved :=
    run_play (fun request world => (answering_works zeroReadings suspectingAnswers request world).1)
      _ _ fun _ _ => trivial
  have gates : (widgetApproved.history[1]?.any fun entry =>
      GatedBy (widgetApproved.history.take 1) "m1".toList entry) = true := by decide
  have running : (widgetApproved.shared.board "m1".toList).map Task.state = some .running := by
    decide
  obtain ⟨entry, second, gated⟩ := (Option.any_eq_true _ _).mp gates
  obtain ⟨task, found, state⟩ := Option.map_eq_some_iff.mp running
  exact (gated_task_runs_only_approved reachable _
    ⟨_, entry, _, split_at second, of_decide_eq_true gated⟩).1 task found state

end Example

end DearAgent
