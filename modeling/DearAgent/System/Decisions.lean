import DearAgent.System.Runs
import DearAgent.ControlPlane.Requester

/-!
# Tokens and decisions

Any number of approval replies are applied while tokens are issued and the queue
is used in any other way. A reply spends its token before it moves its task, and
nothing keeps the task in `action` in between: spending and moving are one unit
where every transition of a reply still finds the task in `action` and the queue
is reached.
-/

namespace DearAgent

open DearAgent.Lib.Text DearAgent.Lib.Effects DearAgent.Lib.Interleaving DearAgent.Queue

set_option autoImplicit false

inductive DecisionCall
  | apply (reply : ApprovalReply) (sender threadId : Option Str)
  | request (taskId action : Str)
  | queue (op : QueueOp)
deriving DecidableEq

namespace DecisionCall

def start [Unicode] : DecisionCall → Code Unit
  | .apply reply sender threadId => dropValue (ApprovalService.apply reply sender threadId)
  | .request taskId action => dropValue (ApprovalService.request taskId action)
  | .queue op => dropValue (call (.queue op))

def applies : DecisionCall → Bool
  | .apply _ _ _ => true
  | _ => false

end DecisionCall

/-- The exchanges spend a token, and move the task it was issued for from
`action` to the state the decision implies. -/
def DecidedBy (own : Own) (reply : ApprovalReply) : Prop :=
  ∃ redeemed task moved, (⟨.redeem reply, .ok redeemed⟩ : Exchange ports) ∈ own ∧
    task.id = redeemed.approval.taskId ∧ task.state = .action ∧
    (⟨.queue (.transition task (ApprovalService.target reply.decision redeemed.approval.action) none),
      .ok moved⟩ : Exchange ports) ∈ own ∧
    moved.state = ApprovalService.target reply.decision redeemed.approval.action

section Exchanges

variable (Q : QueueBackend) (A : ApprovalBackend)

/-- An exchange that leaves both stores as they are. -/
def LeavesStores (event : Exchange ports) : Prop :=
  ∀ world after : World Q A, surroundings Q A event.1 world event.2 after →
    after.board = world.board ∧ after.ledger = world.ledger

def changesNothing : Exchange ports → Bool
  | ⟨.approvalOf _, _⟩ | ⟨.queue (.get _), _⟩ => true
  | ⟨.redeem _, .error _⟩ | ⟨.queue (.transition _ _ _), .error _⟩ => true
  | _ => false

variable {Q A}

theorem ledger_kept {event : Exchange ports} (nothing : changesNothing event = true)
    {world after : World Q A} (answered : surroundings Q A event.1 world event.2 after) :
    after.ledger = world.ledger := by
  funext token
  obtain ⟨request, reply⟩ := event
  have effect := ledger_effect answered token
  generalize world.ledger token = found at effect
  generalize after.ledger token = found' at effect
  cases effect with
  | kept | looked => rfl
  | _ => cases nothing

theorem changes_nothing_leaves {event : Exchange ports} (nothing : changesNothing event = true) :
    LeavesStores Q A event := by
  intro world after answered
  refine ⟨?_, ledger_kept nothing answered⟩
  funext id
  obtain ⟨request, reply⟩ := event
  cases request with
  | queue op =>
      obtain ⟨now, effect⟩ := queue_effect answered id
      generalize world.board id = found at effect
      generalize after.board id = found' at effect
      cases effect with
      | kept => rfl
      | _ => cases nothing
  | _ => rw [board_kept answered fun op other => by cases other]

end Exchanges

/-!
## One call alone
-/

/-- What a reply hears while its transitions succeed: the queue answers with the
task that was asked for, and moves the task that waits for a decision. -/
def HearsMove (operation : DecisionCall) (event : Exchange ports) : Prop :=
  Honest event ∧ ∀ task toState evidence, operation.applies = true → task.state = .action →
    event.1 = .queue (.transition task toState evidence) →
    ∃ moved, event = ⟨.queue (.transition task toState evidence), .ok moved⟩ ∧ moved.state = toState

/-- How a reply ends: with its token spent and its task moved, or without an effect. -/
def Settled : DecisionCall → Own → Except Exn Unit → Prop
  | .apply reply _ _, own, .ok _ => ∃ approval redeemed task moved,
      (⟨.approvalOf reply.token, .ok (some approval)⟩ : Exchange ports) ∈ own ∧
      (⟨.redeem reply, .ok redeemed⟩ : Exchange ports) ∈ own ∧
      task.id = approval.taskId ∧ task.state = .action ∧
      (⟨.queue (.transition task
        (ApprovalService.target reply.decision redeemed.approval.action) none), .ok moved⟩ :
          Exchange ports) ∈ own ∧
      moved.state = ApprovalService.target reply.decision redeemed.approval.action
  | .apply _ _ _, own, .error _ => ∀ event ∈ own, changesNothing event = true
  | _, _, _ => True

theorem changes_nothing_concat {own : Own} {event : Exchange ports}
    (quiet : ∀ earlier ∈ own, changesNothing earlier = true)
    (nothing : changesNothing event = true) :
    ∀ other ∈ own ++ [event], changesNothing other = true := by
  intro other member
  rcases List.mem_append.mp member with early | last
  · exact quiet other early
  · rw [List.mem_singleton.mp last]
    exact nothing

section Calls

variable [Unicode]

theorem apply_settles (reply : ApprovalReply) (sender threadId : Option Str) :
    Meets (heard (HearsMove (.apply reply sender threadId)))
      (fun _ _ => True)
      (ApprovalService.apply reply sender threadId) [] fun own outcome =>
        Settled (.apply reply sender threadId) own (outcome.map fun _ => ()) := by
  have silent : ∀ event ∈ ([] : Own), changesNothing event = true :=
    fun event member => absurd member List.not_mem_nil
  refine meets_call_bind trivial ?_ ?_
  · rintro looked after ⟨_, rfl⟩
    have look : changesNothing ⟨.approvalOf reply.token, .ok looked⟩ = true := rfl
    have quiet := changes_nothing_concat silent look
    cases looked with
    | none => exact quiet
    | some approval =>
        refine meets_call_bind trivial ?_ ?_
        · rintro read after ⟨hears, rfl⟩
          have look : changesNothing ⟨.queue (.get approval.taskId), .ok read⟩ = true := rfl
          have quiet := changes_nothing_concat quiet look
          cases read with
          | none => exact quiet
          | some task =>
              have own : task.id = approval.taskId := hears.1
              simp only
              split_ifs with awaits
              · exact quiet
              · exact quiet
              · exact quiet
              · refine meets_call_bind trivial ?_ ?_
                · rintro redeemed after ⟨_, rfl⟩
                  refine meets_call trivial ?_
                  rintro ended after ⟨hears, rfl⟩
                  obtain ⟨moved, event, state⟩ := hears.2 _ _ _ rfl (not_not.mp awaits) rfl
                  cases event
                  exact ⟨approval, redeemed, task, moved, by simp, by simp, own, not_not.mp awaits,
                    by simp, state⟩
                · rintro error after ⟨_, rfl⟩
                  exact changes_nothing_concat quiet (by rfl)
        · rintro error after ⟨_, rfl⟩
          exact changes_nothing_concat quiet (by rfl)
  · rintro error after ⟨_, rfl⟩
    exact changes_nothing_concat silent (by rfl)

theorem call_settles (operation : DecisionCall) :
    Meets (heard (HearsMove operation)) (fun _ _ => True) operation.start [] (Settled operation) := by
  cases operation with
  | apply reply sender threadId =>
      exact (apply_settles reply sender threadId).seq (fun _ _ settled => settled)
        fun _ _ settled => settled
  | request taskId action =>
      refine ⟨trivial, fun reply after _ => ?_⟩
      cases reply <;> exact trivial
  | queue op =>
      refine ⟨trivial, fun reply after _ => ?_⟩
      cases reply <;> exact trivial

/-- A call spends the token of its own reply only. -/
def SpendsOwn (operation : DecisionCall) : Request → Prop
  | .redeem reply => ∃ sender threadId, operation = .apply reply sender threadId
  | _ => True

theorem asks_start (operation : DecisionCall) : Asks (SpendsOwn operation) operation.start := by
  cases operation with
  | apply reply sender threadId =>
      refine asks_bind (asks_bind (asks_call trivial) fun looked => ?_) fun _ => trivial
      cases looked with
      | none => trivial
      | some approval =>
          refine asks_bind (asks_call trivial) fun read => ?_
          cases read with
          | none => trivial
          | some task =>
              simp only
              split_ifs
              · trivial
              · trivial
              · trivial
              · exact asks_bind (asks_call ⟨sender, threadId, rfl⟩) fun _ => asks_call trivial
  | request taskId action =>
      exact asks_bind (asks_bind (asks_call trivial) fun _ => trivial) fun _ => trivial
  | queue op => exact asks_bind (asks_call trivial) fun _ => trivial

def spending (Q : QueueBackend) (A : ApprovalBackend) :
    Discipline (surroundings Q A) DecisionCall.start where
  honest _ := True
  may operation _ := SpendsOwn operation
  truthful _ _ _ _ _ := trivial
  programs operation := ((asks_start operation).meets (fun _ => True) (fun _ _ _ asked => asked)
    (fun _ _ _ _ _ _ _ => trivial) trivial).post fun _ _ _ => trivial

/-!
## All of them together
-/

section Runs

variable {Q : QueueBackend} {A : ApprovalBackend} {world : World Q A}
  {c : Config ports DecisionCall (World Q A)}

omit [Unicode] in
/-- A transition of a reply is made while its task still waits, and the queue is reached. -/
def FindsWaiting (c : Config ports DecisionCall (World Q A)) (entry : Entry ports DecisionCall) :
    Prop :=
  ∀ task toState evidence, entry.operation.applies = true →
    entry.event.1 = .queue (.transition task toState evidence) →
    (∃ stored, c.shared.board task.id = some stored ∧ stored.state = .action) ∧
      ∃ after, Served Q A entry.event.1 c.shared entry.event.2 after

omit [Unicode] in
theorem waiting_hears_move (entry : Entry ports DecisionCall) (next : World Q A)
    (waits : FindsWaiting c entry)
    (answered : surroundings Q A entry.event.1 c.shared entry.event.2 next) :
    HearsMove entry.operation entry.event := by
  refine ⟨surroundings_honest answered, ?_⟩
  intro task toState evidence applies awaiting asked
  obtain ⟨⟨stored, found, state⟩, after, served⟩ := waits task toState evidence applies asked
  obtain ⟨pid, operation, request, reply⟩ := entry
  obtain rfl : request = .queue (.transition task toState evidence) := asked
  obtain ⟨⟨now, spec⟩, _⟩ := served_spec served
  obtain ⟨moved, move, same, _⟩ := transition_moves spec found (state.trans awaiting.symm)
  obtain rfl : reply = .ok moved := same
  exact ⟨moved, rfl, moved_state move⟩

/-- In every run in which each transition of a reply finds its task waiting, a reply
that fails has changed nothing, and once all replies have ended a token is used
exactly where the reply that spent it decided its task. -/
theorem decisions_are_units
    (run : GuardedRun (surroundings Q A) DecisionCall.start FindsWaiting (initial world) c) :
    (∀ pid process error, c.processes[pid]? = some process → process.operation.applies = true →
      process.outcome = some (.error error) →
      ∀ event ∈ own c.history pid, LeavesStores Q A event) ∧
    ((∀ process ∈ c.processes, process.operation.applies = true → process.outcome ≠ none) →
      ∀ token, Used c.shared token ↔ Used world token ∨ ∃ pid process reply sender threadId,
        c.processes[pid]? = some process ∧ process.operation = .apply reply sender threadId ∧
        reply.token = token ∧ DecidedBy (own c.history pid) reply) := by
  have reachable : Reachable (surroundings Q A) DecisionCall.start world c := GuardedRun.run run
  have throughout := meets_throughout
    (fun c entry next _ waits answered => waiting_hears_move entry next waits answered)
    call_settles run
  constructor
  · rintro pid ⟨operation, program⟩ error found applies ended event member
    have settled := meets_outcome (throughout pid _ found) ended
    cases operation with
    | apply reply sender threadId => exact changes_nothing_leaves (settled event member)
    | _ => cases applies
  · intro finished token
    rw [used_in_run reachable]
    refine or_congr_right ⟨?_, ?_⟩
    · rintro ⟨entry, member, decided, redeemed, event, same⟩
      obtain ⟨program, found⟩ := turn_has_process reachable entry member
      have spent := mem_own_of_mem member
      obtain ⟨before, after, split⟩ := List.append_of_mem member
      obtain ⟨_, _, _, reached, _, scheduled, _, _⟩ := reachable_before reachable split
      have spends := (spending Q A).permits reached scheduled
      obtain ⟨pid, operation, exchange⟩ := entry
      obtain rfl : exchange = ⟨.redeem decided, .ok redeemed⟩ := event
      obtain ⟨sender, threadId, rfl⟩ := spends
      obtain ⟨outcome, ended⟩ := Option.ne_none_iff_exists'.mp
        (finished _ (List.mem_of_getElem? found) rfl)
      have settled := meets_outcome (throughout pid _ found) ended
      refine ⟨pid, _, decided, sender, threadId, found, rfl, same, ?_⟩
      cases outcome with
      | error error => cases settled _ spent
      | ok _ =>
          obtain ⟨approval, redeemed, task, moved, looked, spent, of, awaiting, moves, state⟩ := settled
          exact ⟨redeemed, task, moved, spent,
            of.trans (redeemed_as_looked_up reachable looked spent).symm, awaiting, moves, state⟩
    · rintro ⟨pid, process, reply, sender, threadId, _, _, same, redeemed, task, moved, spent, _⟩
      obtain ⟨entry, member, _, event⟩ := mem_own spent
      exact ⟨entry, member, reply, redeemed, event, same⟩

end Runs

end Calls

section Example

open DearAgent.Work DearAgent.ControlPlane

local instance : Unicode := asciiTables

abbrev TokenConfig := Config ports DecisionCall RequesterWorld

def firstToken : Str := List.replicate 32 '0'

def secondToken : Str := List.replicate 32 '1'

def twoTokens : RequesterWorld :=
  { waitingWorld with
    approvals := ((MemoryApprovalStore.backend 1).step (.issue "m1" "run")
      ⟨0, 0, ⟨secondToken, by decide, every_char (by decide)⟩⟩ waitingWorld.approvals).2 }

def playTokens (schedule : List (Turn DecisionCall)) : TokenConfig :=
  play (answering zeroReadings disabledProject) DecisionCall.start schedule (initial twoTokens)

/-- The first token is redeemed by a reply that nobody gets in the way of. -/
def firstDecides : List (Turn DecisionCall) :=
  .launch (.apply ⟨firstToken, .approved⟩ none none) :: List.replicate 4 (.act 0)

def bothDecide : List (Turn DecisionCall) :=
  [.launch (.apply ⟨firstToken, .approved⟩ none none),
    .launch (.apply ⟨secondToken, .rejected⟩ none none), .act 0, .act 0, .act 1, .act 1, .act 0,
    .act 0, .act 1, .act 1]

def waitsFor (c : TokenConfig) (_ : DecisionCall) : Request → Bool
  | .queue (.transition task _ _) => (c.shared.board task.id).map Task.state = some .action
  | _ => true

theorem waits_for_sound (c : TokenConfig) (pid : Nat) (operation : DecisionCall)
    (request : Request) (waits : waitsFor c operation request = true) :
    FindsWaiting c ⟨pid, operation, ⟨request,
      (answering zeroReadings disabledProject request c.shared).1⟩⟩ := by
  rintro task toState evidence _ rfl
  exact ⟨Option.map_eq_some_iff.mp (of_decide_eq_true waits), _, zeroReadings.now, rfl, rfl⟩

theorem first_token_decides :
    Used (playTokens firstDecides).shared firstToken ↔ Used twoTokens firstToken ∨
      ∃ pid process reply sender threadId, (playTokens firstDecides).processes[pid]? = some process ∧
        process.operation = .apply reply sender threadId ∧ reply.token = firstToken ∧
        DecidedBy (own (playTokens firstDecides).history pid) reply := by
  have run : GuardedRun (surroundings _ _) DecisionCall.start FindsWaiting (initial twoTokens)
      (playTokens firstDecides) := guarded_run_play
    (fun request world => (answering_works zeroReadings disabledProject request world).1)
    waits_for_sound firstDecides (initial twoTokens) (by decide)
  have finished : ((playTokens firstDecides).processes.all fun process =>
      process.outcome.isSome) = true := by decide
  refine (decisions_are_units run).2 (fun process member _ => ?_) firstToken
  exact Option.isSome_iff_ne_none.mp (List.all_eq_true.mp finished process member)

def carriesOut : Exchange ports → Bool
  | ⟨.queue (.transition _ _ _), .ok _⟩ => true
  | _ => false

theorem second_token_burned :
    ¬∀ c : TokenConfig, Reachable (surroundings _ _) DecisionCall.start twoTokens c →
      (∀ process ∈ c.processes, process.operation.applies = true → process.outcome ≠ none) →
      ∀ token, Used c.shared token ↔ Used twoTokens token ∨ ∃ pid process reply sender threadId,
        c.processes[pid]? = some process ∧ process.operation = .apply reply sender threadId ∧
        reply.token = token ∧ DecidedBy (own c.history pid) reply := by
  intro units
  have reachable : Reachable (surroundings _ _) DecisionCall.start twoTokens (playTokens bothDecide) :=
    run_play (fun request world => (answering_works zeroReadings disabledProject request world).1) _ _
      fun _ _ => trivial
  have finished : ((playTokens bothDecide).processes.all fun process =>
      process.outcome.isSome) = true := by decide
  have used : ((playTokens bothDecide).shared.ledger secondToken).map Approval.used = some true := by
    decide
  have unused : (twoTokens.ledger secondToken).map Approval.used = some false := by decide
  have calls : (playTokens bothDecide).processes.map Process.operation =
      [.apply ⟨firstToken, .approved⟩ none none, .apply ⟨secondToken, .rejected⟩ none none] := by
    decide
  have idle : ((own (playTokens bothDecide).history 1).any carriesOut) = false := by decide
  rcases (units _ reachable (fun process member _ => Option.isSome_iff_ne_none.mp
    (List.all_eq_true.mp finished process member)) secondToken).mp
    (Option.map_eq_some_iff.mp used) with ⟨approval, found, earlier⟩ |
      ⟨pid, process, reply, sender, threadId, found, operation, same, redeemed, task, moved, _, _, _,
        moves, _⟩
  · rw [found] at unused
    simp [earlier] at unused
  · have call : ((playTokens bothDecide).processes.map Process.operation)[pid]? =
        some (.apply reply sender threadId) := by
      rw [List.getElem?_map, found, ← operation]
      rfl
    rw [calls] at call
    match pid, call with
    | 0, call =>
        cases call
        exact absurd same (by decide)
    | 1, call => exact absurd (List.any_eq_true.mpr ⟨_, moves, rfl⟩) (by rw [idle]; simp)

end Example

end DearAgent
