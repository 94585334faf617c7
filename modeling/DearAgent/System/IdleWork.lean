import Mathlib.Data.List.Induction
import DearAgent.System.IdleDiscipline
import DearAgent.System.HumanGate

/-!
# Idle work in the system

In every run with ticks of the idle loop a token is asked for only by the process
that stored its task, once and for no other task. So a proposal that was parked
runs only after the token of its own tick came back with an approving reply, and
one whose tick stopped before it asked for a token stays parked.
-/

namespace DearAgent.Idle

open DearAgent.Lib.Text DearAgent.Lib.Effects DearAgent.Lib.Interleaving DearAgent.Queue

set_option autoImplicit false

/-!
## Who asks for tokens
-/

def StoredBy (past : Past) (pid : Nat) (id : Str) : Prop :=
  ∃ entry ∈ past, entry.pid = pid ∧ storedId entry.event = some id

def askedFor : Exchange ports → Option Str
  | ⟨.issue taskId _, _⟩ => some taskId
  | _ => none

def storedIds (past : Past) : List Str := past.filterMap fun entry => storedId entry.event

def askedIds (past : Past) : List Str := past.filterMap fun entry => askedFor entry.event

/-- Tasks are stored once and given one token, which their own process asks for. -/
structure Entrusted (board : Board) (past : Past) : Prop where
  found : ∀ pid id, StoredBy past pid id → ∃ task, board id = some task
  stored : (storedIds past).Nodup
  held : ∀ pid id, parked (own past pid) = some id → StoredBy past pid id
  fresh : ∀ pid id, parked (own past pid) = some id → id ∉ askedIds past
  asked : (askedIds past).Nodup
  storer : ∀ entry ∈ past, ∀ id, askedFor entry.event = some id → StoredBy past entry.pid id

section Turns

variable {Q : QueueBackend} {A : ApprovalBackend} {world after : World Q A} {past : Past}
  {entry : Entry ports Activity} {id : Str} {pid : Nat}

theorem StoredBy.later (stored : StoredBy past pid id) (entry : Entry ports Activity) :
    StoredBy (past ++ [entry]) pid id := by
  obtain ⟨storing, member, same, stores⟩ := stored
  exact ⟨storing, List.mem_append_left _ member, same, stores⟩

theorem stored_concat (stored : StoredBy (past ++ [entry]) pid id) :
    StoredBy past pid id ∨ entry.pid = pid ∧ storedId entry.event = some id := by
  obtain ⟨storing, member, same, stores⟩ := stored
  rcases List.mem_append.mp member with old | new
  · exact .inl ⟨storing, old, same, stores⟩
  · rw [List.mem_singleton.mp new] at same stores
    exact .inr ⟨same, stores⟩

theorem stored_by_mem (member : id ∈ storedIds past) : ∃ pid, StoredBy past pid id := by
  obtain ⟨entry, listed, stores⟩ := List.mem_filterMap.mp member
  exact ⟨entry.pid, entry, listed, rfl, stores⟩

theorem stored_unique {past : Past} (once : (storedIds past).Nodup) {pid pid' : Nat} {id : Str}
    (stored : StoredBy past pid id) (stored' : StoredBy past pid' id) : pid = pid' := by
  induction past with
  | nil =>
      obtain ⟨entry, never, _⟩ := stored
      cases never
  | cons entry rest ih =>
      obtain ⟨first, member, rfl, stores⟩ := stored
      obtain ⟨second, member', rfl, stores'⟩ := stored'
      unfold storedIds at once
      rw [List.filterMap_cons] at once
      have listed : ∀ other ∈ rest, storedId other.event = some id → id ∈ storedIds rest :=
        fun other among stores => List.mem_filterMap.mpr ⟨other, among, stores⟩
      rcases List.mem_cons.mp member with rfl | among
      · rcases List.mem_cons.mp member' with rfl | among'
        · rfl
        · rw [stores] at once
          exact absurd (listed second among' stores') (List.nodup_cons.mp once).1
      · rcases List.mem_cons.mp member' with rfl | among'
        · rw [stores'] at once
          exact absurd (listed first among stores) (List.nodup_cons.mp once).1
        · apply ih
          · split at once
            · exact once
            · exact (List.nodup_cons.mp once).2
          · exact ⟨first, among, rfl, stores⟩
          · exact ⟨second, among', rfl, stores'⟩

theorem turn_stores (answered : surroundings Q A entry.event.1 world entry.event.2 after)
    (stores : storedId entry.event = some id) :
    world.board id = none ∧ ∃ task, after.board id = some task := by
  obtain ⟨pid, activity, event⟩ := entry
  obtain ⟨task, state, stored, rfl, rfl⟩ := stored_id_spec stores
  constructor
  · by_contra present
    obtain ⟨kept, located⟩ := Option.ne_none_iff_exists'.mp present
    exact stored_was_untaken answered ⟨_, kept, located, .inl rfl⟩
  · exact ⟨stored, stored_is_found answered⟩

/-- A task a process holds after its turn it held before, or it stored it in the turn. -/
theorem held_after (answered : surroundings Q A entry.event.1 world entry.event.2 after)
    {held : Option Str} (holds : holding held entry.event = some id) :
    storedId entry.event = some id ∨ held = some id ∧ askedFor entry.event = none := by
  obtain ⟨pid, activity, request, reply⟩ := entry
  unfold holding at holds
  split at holds
  · rename_i task stored event
    cases event
    left
    have found := stored_is_found answered
    have filed := Q.filed after.queue task.id stored found
    rw [filed] at holds
    exact holds
  · cases holds
  · cases holds
  · rename_i issues
    refine .inr ⟨holds, ?_⟩
    cases request with
    | issue taskId action => exact absurd rfl (issues taskId action reply)
    | _ => rfl

theorem entrusted_turn (entrusted : Entrusted world.board past)
    (permitted : MayIssue (own past entry.pid) entry.event.1)
    (answered : surroundings Q A entry.event.1 world entry.event.2 after) :
    Entrusted after.board (past ++ [entry]) := by
  -- A token is asked for only by the process that holds its task.
  have asks : ∀ id, askedFor entry.event = some id → parked (own past entry.pid) = some id := by
    intro id asked
    obtain ⟨pid, activity, request, reply⟩ := entry
    cases request with
    | issue taskId action =>
        obtain rfl : taskId = id := Option.some.inj asked
        exact permitted.1
    | _ => cases asked
  have elsewhere : ∀ pid, entry.pid ≠ pid → own (past ++ [entry]) pid = own past pid := by
    intro pid other
    rw [own_append, if_neg other, List.append_nil]
  have here : parked (own (past ++ [entry]) entry.pid) =
      holding (parked (own past entry.pid)) entry.event := by
    rw [own_append, if_pos rfl, parked_concat]
  have listed : ∀ id, id ∈ askedIds past → ∃ pid, StoredBy past pid id := by
    intro id member
    obtain ⟨asking, among, asked⟩ := List.mem_filterMap.mp member
    exact ⟨asking.pid, entrusted.storer asking among id asked⟩
  constructor
  · intro pid id stored
    rcases stored_concat stored with old | ⟨_, stores⟩
    · obtain ⟨task, located⟩ := entrusted.found pid id old
      obtain ⟨task', kept, _⟩ := turn_keeps_task answered located
      exact ⟨task', kept⟩
    · exact (turn_stores answered stores).2
  · unfold storedIds
    rw [List.filterMap_append]
    apply List.Nodup.append entrusted.stored
    · cases stores : storedId entry.event with
      | none => simp [stores]
      | some id => simp [stores]
    · intro id old new
      have stores : storedId entry.event = some id := by simpa using new
      obtain ⟨pid, stored⟩ := stored_by_mem old
      obtain ⟨task, located⟩ := entrusted.found pid id stored
      rw [(turn_stores answered stores).1] at located
      cases located
  · intro pid id holds
    by_cases same : entry.pid = pid
    · subst same
      rw [here] at holds
      rcases held_after answered holds with stores | ⟨before, _⟩
      · exact ⟨entry, List.mem_append_right _ (List.mem_singleton_self _), rfl, stores⟩
      · exact (entrusted.held _ id before).later entry
    · rw [elsewhere pid same] at holds
      exact (entrusted.held pid id holds).later entry
  · intro pid id holds member
    unfold askedIds at member
    rw [List.filterMap_append] at member
    by_cases same : entry.pid = pid
    · subst same
      rw [here] at holds
      rcases held_after answered holds with stores | ⟨before, silent⟩
      · rcases List.mem_append.mp member with old | new
        · obtain ⟨pid, stored⟩ := listed id old
          obtain ⟨task, located⟩ := entrusted.found pid id stored
          rw [(turn_stores answered stores).1] at located
          cases located
        · obtain ⟨task, state, stored, _, event⟩ := stored_id_spec stores
          simp [event, askedFor] at new
      · rcases List.mem_append.mp member with old | new
        · exact entrusted.fresh _ id before old
        · simp [silent] at new
    · rw [elsewhere pid same] at holds
      rcases List.mem_append.mp member with old | new
      · exact entrusted.fresh pid id holds old
      · have asked : askedFor entry.event = some id := by simpa using new
        exact same (stored_unique entrusted.stored (entrusted.held _ id (asks id asked))
          (entrusted.held pid id holds))
  · unfold askedIds
    rw [List.filterMap_append]
    apply List.Nodup.append entrusted.asked
    · cases asked : askedFor entry.event with
      | none => simp [asked]
      | some id => simp [asked]
    · intro id old new
      have asked : askedFor entry.event = some id := by simpa using new
      exact entrusted.fresh _ id (asks id asked) old
  · intro asking member id asked
    rcases List.mem_append.mp member with old | new
    · exact (entrusted.storer asking old id asked).later entry
    · rw [List.mem_singleton.mp new] at asked ⊢
      exact (entrusted.held _ id (asks id asked)).later entry

end Turns

/-!
## What becomes of a parked proposal
-/

def Activity.gates : Activity → Bool
  | .idle command => !command.noGate
  | .other _ => false

/-- A tick parked the task: it stored a gated proposal. -/
def ParkedBy (past : Past) (pid : Nat) (id : Str) : Prop :=
  ∃ entry ∈ past, entry.pid = pid ∧ storedId entry.event = some id ∧ entry.operation.gates = true

/-- The token was issued for the task before the run, or the process was given it. -/
def Given (ledger : Ledger) (past : Past) (pid : Nat) (token id action : Str) : Prop :=
  (∃ approval, ledger token = some approval ∧ approval.taskId = id ∧ approval.action = action) ∨
    ∃ entry ∈ past, entry.pid = pid ∧ ∃ approval,
      entry.event = ⟨.issue id action, .ok approval⟩ ∧ approval.token = token

/-- A token of the task that the process was given was redeemed in time. -/
def Spent (ledger : Ledger) (past : Past) (pid : Nat) (id : Str) (reply : ApprovalReply)
    (redeemed : Redeemed) : Prop :=
  ∃ before entry after, past = before ++ entry :: after ∧
    entry.event = ⟨.redeem reply, .ok redeemed⟩ ∧ redeemed.approval.taskId = id ∧
    redeemed.checkedAt < redeemed.approval.expiresAt ∧
    Given ledger before pid reply.token id redeemed.approval.action

def Released (ledger : Ledger) (past : Past) (pid : Nat) (id : Str) : Prop :=
  ∃ reply redeemed, Spent ledger past pid id reply redeemed ∧ reply.decision = .approved ∧
    redeemed.approval.action = "run".toList

/-- Where the task of a parked proposal can stand. -/
inductive Standing (ledger : Ledger) (past : Past) (pid : Nat) (id : Str) : TaskState → Prop
  | parked : Standing ledger past pid id .action
  | failed : Standing ledger past pid id .failed
  | decided (reply : ApprovalReply) (redeemed : Redeemed)
      (spent : Spent ledger past pid id reply redeemed) :
      Standing ledger past pid id (ApprovalService.target reply.decision redeemed.approval.action)
  | released (state : TaskState) (released : Released ledger past pid id) :
      Standing ledger past pid id state

/-- The task goes to a runner: into a job, to a sandbox or to the harness. -/
def Handed (id : Str) : Request → Prop
  | .renderJob _ task | .sessionFor task _ | .runHarness task _ _ => task.id = id
  | _ => False

section Histories

variable {ledger : Ledger} {past : Past} {entry : Entry ports Activity} {pid : Nat}
  {id token action : Str} {reply : ApprovalReply} {redeemed : Redeemed} {state : TaskState}

theorem ParkedBy.stored (parkedBy : ParkedBy past pid id) : StoredBy past pid id := by
  obtain ⟨storing, member, same, stores, _⟩ := parkedBy
  exact ⟨storing, member, same, stores⟩

theorem parked_concat_by (parkedBy : ParkedBy (past ++ [entry]) pid id) :
    ParkedBy past pid id ∨
      entry.pid = pid ∧ storedId entry.event = some id ∧ entry.operation.gates = true := by
  obtain ⟨storing, member, same, rest⟩ := parkedBy
  rcases List.mem_append.mp member with old | new
  · exact .inl ⟨storing, old, same, rest⟩
  · rw [List.mem_singleton.mp new] at same rest
    exact .inr ⟨same, rest⟩

theorem Given.later (given : Given ledger past pid token id action)
    (entry : Entry ports Activity) : Given ledger (past ++ [entry]) pid token id action := by
  rcases given with early | ⟨issue, member, rest⟩
  · exact .inl early
  · exact .inr ⟨issue, List.mem_append_left _ member, rest⟩

theorem Spent.later (spent : Spent ledger past pid id reply redeemed) (more : Past) :
    Spent ledger (past ++ more) pid id reply redeemed := by
  obtain ⟨before, entry, after, rfl, rest⟩ := spent
  exact ⟨before, entry, after ++ more, by simp, rest⟩

theorem Released.later (released : Released ledger past pid id) (more : Past) :
    Released ledger (past ++ more) pid id := by
  obtain ⟨reply, redeemed, spent, rest⟩ := released
  exact ⟨reply, redeemed, spent.later more, rest⟩

theorem Standing.later (standing : Standing ledger past pid id state)
    (more : Past) : Standing ledger (past ++ more) pid id state := by
  cases standing with
  | parked => exact .parked
  | failed => exact .failed
  | decided reply redeemed spent => exact .decided reply redeemed (spent.later more)
  | released state released => exact .released state (released.later more)

end Histories

section Runs

variable [Unicode] [Sha256] {Q : QueueBackend} {A : ApprovalBackend} {world : World Q A}
  {c earlier next : Config ports Activity (World Q A)} {entry : Entry ports Activity}
  {pid : Nat} {id : Str}

/-- A turn of a run to `c`, between the configurations before and after it. -/
structure Turned (world : World Q A) (c earlier next : Config ports Activity (World Q A))
    (entry : Entry ports Activity) : Prop where
  reached : Reachable (surroundings Q A) Activity.start world earlier
  permitted : entry.operation.may (own earlier.history entry.pid) entry.event.1
  answered : surroundings Q A entry.event.1 earlier.shared entry.event.2 next.shared
  took : Run (surroundings Q A) Activity.start anyTurn earlier next
  goes : Run (surroundings Q A) Activity.start anyTurn next c

def EntrustedIn (world : World Q A) (past : Past) : Prop := Entrusted world.board past

def TokensGiven (ledger : Ledger) (world : World Q A) (past : Past) : Prop :=
  ∀ token approval, world.ledger token = some approval →
    ∃ pid, Given ledger past pid token approval.taskId approval.action

theorem turned_of_run (reachable : Reachable (surroundings Q A) Activity.start world c)
    {before after : Past} (split : c.history = before ++ entry :: after) :
    ∃ earlier next, earlier.history = before ∧ Turned world c earlier next entry := by
  obtain ⟨earlier, next, later, reached, same, scheduled, answered, run⟩ :=
    reachable_before reachable split
  have took : Run (surroundings Q A) Activity.start anyTurn earlier _ :=
    .single (.act earlier entry next later scheduled answered trivial)
  exact ⟨earlier, _, same, reached, (activities Q A).permits reached scheduled, answered, took, run⟩

theorem turned_of_own (reachable : Reachable (surroundings Q A) Activity.start world c)
    {event : Exchange ports} (member : event ∈ own c.history pid) :
    ∃ before entry after earlier next, c.history = before ++ entry :: after ∧
      entry.event = event ∧ earlier.history = before ∧ Turned world c earlier next entry := by
  obtain ⟨entry, listed, _, same⟩ := mem_own member
  obtain ⟨before, after, split⟩ := List.append_of_mem listed
  obtain ⟨earlier, next, history, turn⟩ := turned_of_run reachable split
  exact ⟨before, entry, after, earlier, next, split, same, history, turn⟩

omit [Unicode] in
theorem may_issue {activity : Activity} {own : Own} {request : Request}
    (permitted : activity.may own request) : MayIssue own request := by
  cases activity with
  | idle command => exact permitted.1
  | other operation => exact permitted.1

theorem entrusted_run (reachable : Reachable (surroundings Q A) Activity.start world c) :
    Entrusted c.shared.board c.history := by
  change EntrustedIn c.shared c.history
  refine (activities Q A).invariant ?_ ?_ reachable
  · constructor
    · intro pid id stored
      obtain ⟨entry, never, _⟩ := stored
      cases never
    · exact List.nodup_nil
    · intro pid id never
      cases never
    · intro pid id never
      cases never
    · exact List.nodup_nil
    · intro entry never
      cases never
  · intro world past entry after entrusted permitted answered
    exact entrusted_turn entrusted (may_issue permitted) answered

theorem tokens_are_given (reachable : Reachable (surroundings Q A) Activity.start world c) :
    TokensGiven world.ledger c.shared c.history := by
  refine (activities Q A).invariant ?_ ?_ reachable
  · exact fun token approval found => ⟨0, .inl ⟨approval, found, rfl, rfl⟩⟩
  · intro before past entry after given permitted answered token approval found
    have earlier := given token
    obtain ⟨pid, activity, request, reply⟩ := entry
    have effect := ledger_effect answered token
    generalize before.ledger token = found₀ at effect earlier
    rw [found] at effect
    cases effect with
    | kept | looked =>
        obtain ⟨pid', old⟩ := earlier approval rfl
        exact ⟨pid', old.later _⟩
    | issued taskId action _ same of use =>
        subst of use
        have member : (⟨pid, activity, .issue approval.taskId approval.action, .ok approval⟩ :
            Entry ports Activity) ∈ past ++ [⟨pid, activity, _, _⟩] :=
          List.mem_append_right _ (List.mem_singleton_self _)
        exact ⟨pid, .inr ⟨_, member, rfl, approval, rfl, same⟩⟩
    | redeemed decided old usedAt checkedAt =>
        obtain ⟨pid', given⟩ := earlier old rfl
        exact ⟨pid', given.later _⟩

theorem redeemed_of_looked (reachable : Reachable (surroundings Q A) Activity.start world c)
    {pid : Nat} {reply : ApprovalReply} {approval : Approval} {redeemed : Redeemed}
    (looked : (⟨.approvalOf reply.token, .ok (some approval)⟩ : Exchange ports) ∈ own c.history pid)
    (spent : (⟨.redeem reply, .ok redeemed⟩ : Exchange ports) ∈ own c.history pid) :
    redeemed.approval.taskId = approval.taskId := by
  obtain ⟨_, ⟨_, _, _⟩, _, first, second, _, rfl, _, turn⟩ := turned_of_own reachable looked
  obtain ⟨kept, filed, same⟩ := run_keeps_issue turn.goes (looked_up_filed turn.answered)
  obtain ⟨_, ⟨_, _, _⟩, _, third, fourth, _, rfl, _, later⟩ := turned_of_own reachable spent
  obtain ⟨kept', located, lasting⟩ := run_keeps_issue later.goes (redeemed_was_live later.answered).2.1
  obtain rfl : kept = kept' := Option.some.inj (filed.symm.trans located)
  exact lasting.taskId.symm.trans same.taskId

/-- A token of a stored task that is redeemed was given to the process that stored it. -/
theorem spent_by_storer (reachable : Reachable (surroundings Q A) Activity.start world c)
    (stored : StoredBy c.history pid id) {actor : Nat} {reply : ApprovalReply}
    {approval : Approval} {redeemed : Redeemed} (of : approval.taskId = id)
    (looked : (⟨.approvalOf reply.token, .ok (some approval)⟩ : Exchange ports) ∈
      own c.history actor)
    (spent : (⟨.redeem reply, .ok redeemed⟩ : Exchange ports) ∈ own c.history actor) :
    Spent world.ledger c.history pid id reply redeemed := by
  have task := (redeemed_of_looked reachable looked spent).trans of
  obtain ⟨before, entry, after, first, second, split, event, rfl, turn⟩ :=
    turned_of_own reachable spent
  have answered := turn.answered
  obtain ⟨number, activity, exchange⟩ := entry
  cases event
  obtain ⟨live, _, issued, found, _, issue⟩ := redeemed_was_live answered
  obtain ⟨given, token⟩ := tokens_are_given turn.reached reply.token issued found
  rw [← issue.taskId, ← issue.action, task] at token
  refine ⟨first.history, _, after, split, rfl, task, live, ?_⟩
  rcases token with early | ⟨issuing, member, same, approval, event, reads⟩
  · exact .inl early
  · have asked : askedFor issuing.event = some id := by rw [event]; rfl
    have among : issuing ∈ c.history := by
      rw [split]
      exact List.mem_append_left _ member
    have entrusted := entrusted_run reachable
    have own_task := entrusted.storer issuing among id asked
    refine .inr ⟨issuing, member, ?_, approval, event, reads⟩
    exact stored_unique entrusted.stored own_task stored

omit [Unicode] [Sha256] in
theorem stored_in_state {task stored : Task} {state : TaskState} {world after : World Q A}
    (answered : surroundings Q A (.queue (.enqueue task state)) world (.ok (some stored)) after) :
    stored.state = state := by
  rcases answered with served | ⟨_, ⟨error, raised, _⟩, _⟩
  · obtain ⟨⟨now, spec⟩, _⟩ := served_spec served
    rcases spec with ⟨_, refused, _⟩ | ⟨_, kept, stores, same, _⟩
    · cases refused
    · cases same
      exact stores.state
  · cases raised

omit [Unicode] in
theorem parks_in_action {world after : World Q A} {own : Own} {task : Task}
    (gates : entry.operation.gates = true) (permitted : entry.operation.may own entry.event.1)
    (answered : surroundings Q A entry.event.1 world entry.event.2 after)
    (stores : storedId entry.event = some id) (found : after.board id = some task) :
    task.state = .action := by
  obtain ⟨number, activity, event⟩ := entry
  obtain ⟨offered, state, stored, rfl, rfl⟩ := stored_id_spec stores
  obtain rfl : stored = task := Option.some.inj ((stored_is_found answered).symm.trans found)
  cases activity with
  | idle command =>
      obtain ⟨_, _, inState, _⟩ := permitted
      have gated : command.noGate = false := by simpa [Activity.gates] using gates
      rw [stored_in_state answered, inState, IdleCommand.stateOf, gated]
      rfl
  | other operation => cases gates

theorem parked_before_found (run : Run (surroundings Q A) Activity.start anyTurn earlier c)
    {task : Task} (found : earlier.shared.board id = some task)
    (parkedBy : ParkedBy c.history pid id) : ParkedBy earlier.history pid id := by
  induction run with
  | refl => exact parkedBy
  | @tail middle c run step ih =>
      cases step with
      | launch operation => exact ih parkedBy
      | act entry next shared scheduled answered admitted =>
          rcases parked_concat_by parkedBy with old | ⟨_, stores, _⟩
          · exact ih old
          · obtain ⟨kept, located, _⟩ := run_keeps_task run found
            rw [(turn_stores answered stores).1] at located
            cases located

omit [Unicode] [Sha256] in
theorem target_released {reply : ApprovalReply} {redeemed : Redeemed} {past : Past} {ledger : Ledger}
    (spent : Spent ledger past pid id reply redeemed)
    (runs : ApprovalService.target reply.decision redeemed.approval.action = .queued) :
    Released ledger past pid id := by
  obtain ⟨approves, action⟩ := target_queued runs
  exact ⟨reply, redeemed, spent, approves, action⟩

theorem parked_task_waits (reachable : Reachable (surroundings Q A) Activity.start world c) :
    ∀ task, c.shared.board id = some task → ParkedBy c.history pid id →
      task.state = .queued ∨ task.state = .running → Released world.ledger c.history pid id := by
  induction reachable with
  | refl =>
      intro task _ parkedBy
      obtain ⟨entry, never, _⟩ := parkedBy
      cases never
  | @tail c c' reached step ih =>
      cases step with
      | launch operation => exact ih
      | act entry next shared scheduled answered admitted =>
          intro task found parkedBy runnable
          have permitted := (activities Q A).permits reached scheduled
          change shared.board id = some task at found
          rcases parked_concat_by parkedBy with old | ⟨_, stores, gates⟩
          · obtain ⟨task₀, first⟩ := (entrusted_run reached).found pid id old.stored
            have known : task₀.state = .queued ∨ task₀.state = .running →
                Released world.ledger (c.history ++ [entry]) pid id := fun early =>
              (ih task₀ first old early).later [entry]
            obtain ⟨number, activity, request, reply⟩ := entry
            cases request with
            | queue op =>
                obtain ⟨now, effect⟩ := queue_effect answered id
                rw [first, found] at effect
                cases effect with
                | kept => exact known runnable
                | claimed offered stored lease same queued => exact known (.inl queued)
                | claimedNext stored lease same queued => exact known (.inl queued)
                | moved read stored moved toState evidence same matched move =>
                    rw [moved_state move] at runnable
                    cases activity with
                    | idle command => exact absurd permitted.2 not_false
                    | other operation =>
                        cases permitted.2 with
                        | decided _ reply approval redeemed awaiting looked of spent =>
                            have queues := runnable.resolve_right (target_not_running _ _)
                            have paid := spent_by_storer reached old.stored (of.trans same) looked spent
                            exact (target_released paid queues).later _
                        | unrunnable | refused => simp at runnable
                        | ended toState _ _ final => rcases final with rfl | rfl <;> simp at runnable
                | released limit released stored expired same listed =>
                    simp only [stale, Bool.and_eq_true, decide_eq_true_eq] at expired
                    exact known (.inr expired.1)
            | _ =>
                have same := board_kept answered fun op other => by cases other
                rw [same, first] at found
                exact known (Option.some.inj found ▸ runnable)
          · have waits := parks_in_action gates permitted answered stores found
            rw [waits] at runnable
            simp at runnable

theorem seen_queued_released (turn : Turned world c earlier next entry) {task : Task}
    (found : earlier.shared.board id = some task) (queued : task.state = .queued)
    (parkedBy : ParkedBy c.history pid id) : Released world.ledger earlier.history pid id :=
  parked_task_waits turn.reached task found
    (parked_before_found (turn.took.trans turn.goes) found parkedBy) (.inl queued)

theorem claimed_was_released (reachable : Reachable (surroundings Q A) Activity.start world c)
    (parkedBy : ParkedBy c.history pid id) {actor : Nat} (claims : Claims (own c.history actor) id) :
    Released world.ledger c.history pid id := by
  obtain ⟨event, member, claimed⟩ := claims
  obtain ⟨before, entry, after, first, second, split, rfl, rfl, turn⟩ :=
    turned_of_own reachable member
  obtain ⟨task, found, queued⟩ := claimed_was_queued claimed turn.answered
  rw [split]
  exact (seen_queued_released turn found queued parkedBy).later (entry :: after)

theorem listed_was_released (reachable : Reachable (surroundings Q A) Activity.start world c)
    {task : Task} (parkedBy : ParkedBy c.history pid task.id) {actor : Nat}
    (listed : Listed (own c.history actor) task) :
    Released world.ledger c.history pid task.id := by
  obtain ⟨limit, page, read, member⟩ := listed
  obtain ⟨before, ⟨number, activity, exchange⟩, after, first, second, split, rfl, rfl, turn⟩ :=
    turned_of_own reachable read
  obtain ⟨found, queued⟩ := listed_was_stored turn.answered task member
  rw [split]
  exact (seen_queued_released turn found queued parkedBy).later (_ :: after)

theorem parked_task_stands (reachable : Reachable (surroundings Q A) Activity.start world c) :
    ∀ task, c.shared.board id = some task → ParkedBy c.history pid id →
      Standing world.ledger c.history pid id task.state := by
  induction reachable with
  | refl =>
      intro task _ parkedBy
      obtain ⟨entry, never, _⟩ := parkedBy
      cases never
  | @tail c c' reached step ih =>
      cases step with
      | launch operation => exact ih
      | act entry next shared scheduled answered admitted =>
          intro task found parkedBy
          have permitted := (activities Q A).permits reached scheduled
          have waits : task.state = .queued ∨ task.state = .running →
              Standing world.ledger (c.history ++ [entry]) pid id task.state := fun runnable =>
            .released _ (parked_task_waits (reached.tail (.act c entry next shared scheduled answered
              admitted)) task found parkedBy runnable)
          change shared.board id = some task at found
          rcases parked_concat_by parkedBy with old | ⟨_, stores, gates⟩
          · obtain ⟨task₀, first⟩ := (entrusted_run reached).found pid id old.stored
            have known := (ih task₀ first old).later [entry]
            obtain ⟨number, activity, request, reply⟩ := entry
            cases request with
            | queue op =>
                obtain ⟨now, effect⟩ := queue_effect answered id
                rw [first, found] at effect
                cases effect with
                | kept => exact known
                | claimed => exact waits (.inr rfl)
                | claimedNext => exact waits (.inr rfl)
                | moved read stored moved toState evidence same matched move =>
                    rw [moved_state move]
                    cases activity with
                    | idle command => exact absurd permitted.2 not_false
                    | other operation =>
                        cases permitted.2 with
                        | decided _ reply approval redeemed awaiting looked of spent =>
                            have paid := spent_by_storer reached old.stored (of.trans same) looked spent
                            exact (Standing.decided reply redeemed paid).later _
                        | unrunnable => exact .failed
                        | refused => exact .failed
                        | ended toState _ readBack final =>
                            have claims := readBack.claims
                            rw [same] at claims
                            exact .released _ ((claimed_was_released reached old claims).later _)
                | released => exact waits (.inl rfl)
            | _ =>
                have same := board_kept answered fun op other => by cases other
                rw [same, first] at found
                rw [← Option.some.inj found]
                exact known
          · rw [parks_in_action gates permitted answered stores found]
            exact .parked

theorem handed_was_released (reachable : Reachable (surroundings Q A) Activity.start world c)
    (parkedBy : ParkedBy c.history pid id) {before after : Past}
    (split : c.history = before ++ entry :: after) (handed : Handed id entry.event.1) :
    Released world.ledger before pid id := by
  obtain ⟨earlier, next, rfl, turn⟩ := turned_of_run reachable split
  have there : ∀ task, earlier.shared.board id = some task → ParkedBy earlier.history pid id :=
    fun task found => parked_before_found (turn.took.trans turn.goes) found parkedBy
  have permitted := turn.permitted
  have claims : ∀ actor, Claims (own earlier.history actor) id →
      Released world.ledger earlier.history pid id := by
    intro actor claims
    obtain ⟨event, member, claimed⟩ := claims
    obtain ⟨_, _, _, first, second, _, rfl, _, claim⟩ := turned_of_own turn.reached member
    obtain ⟨task, found, _⟩ := claimed_was_queued claimed claim.answered
    obtain ⟨kept, located, _⟩ := run_keeps_task (claim.took.trans claim.goes) found
    exact claimed_was_released turn.reached (there kept located) ⟨_, member, claimed⟩
  obtain ⟨number, activity, request, reply⟩ := entry
  cases activity with
  | idle command =>
      cases request with
      | renderJob template task => exact absurd permitted.2 not_false
      | sessionFor task spec => exact absurd permitted.2 not_false
      | runHarness task spec worktree => exact absurd permitted.2 not_false
      | _ => exact absurd handed not_false
  | other operation =>
      cases request with
      | renderJob template task =>
          obtain rfl : task.id = id := handed
          obtain ⟨limit, page, read, member⟩ := permitted.2
          obtain ⟨_, ⟨_, _, _⟩, _, first, second, _, rfl, _, list⟩ :=
            turned_of_own turn.reached read
          obtain ⟨found, _⟩ := listed_was_stored list.answered task member
          obtain ⟨kept, located, _⟩ := run_keeps_task (list.took.trans list.goes) found
          exact listed_was_released turn.reached (there kept located) ⟨limit, page, read, member⟩
      | sessionFor task spec =>
          obtain rfl : task.id = id := handed
          exact claims _ permitted.2
      | runHarness task spec worktree =>
          obtain rfl : task.id = id := handed
          exact claims _ permitted.2
      | _ => exact absurd handed not_false

end Runs

/-!
## What a tick stores
-/

section Budgets

variable [Sha256] {command : IdleCommand}

def IdleCommand.proposals (command : IdleCommand) : List Proposal :=
  match command.collected with
  | .ok signals => command.chosen signals
  | .error _ => []

/-- A tick stores some of its proposals in their order, each once, and none where many
tasks were queued. -/
structure Budgeted (command : IdleCommand) (own : Own) : Prop where
  chosen : (own.filterMap storedId).Sublist (command.proposals.map transportId)
  roomy : own.filterMap storedId ≠ [] → Roomy command own

theorem stored_in_turn {own : Own} (permitted : ∀ before event after, own = before ++ event :: after →
    MayTick command before event.1) :
    (own.filterMap storedId).Sublist ((command.proposals.take (submitted own)).map transportId) ∧
      (own.filterMap storedId ≠ [] → Roomy command own) := by
  induction own using List.reverseRecOn with
  | nil => exact ⟨List.Sublist.slnil, fun never => absurd rfl never⟩
  | append_singleton own event ih =>
      have earlier := ih fun before other after split =>
        permitted before other (after ++ [event]) (by rw [split]; simp)
      have last := permitted own event [] rfl
      rw [List.filterMap_append]
      cases stores : storedId event with
      | none =>
          have nothing : [event].filterMap storedId = [] := by simp [stores]
          have more : submitted own ≤ submitted (own ++ [event]) := by
            unfold submitted
            rw [List.countP_append]
            omega
          rw [nothing, List.append_nil]
          constructor
          · have longer := List.take_sublist_take_left (l := command.proposals) more
            exact earlier.1.trans (longer.map transportId)
          · exact fun some_stored => (earlier.2 some_stored).later _
      | some id =>
          obtain ⟨task, state, stored, rfl, rfl⟩ := stored_id_spec stores
          obtain ⟨roomy, _, signals, proposal, collected, next, rfl⟩ := last
          have whole : command.proposals = command.chosen signals := by
            rw [IdleCommand.proposals, collected]
          constructor
          · rw [submitted_enqueue, List.take_add_one, whole, next, List.map_append]
            rw [whole] at earlier
            exact earlier.1.append (List.Sublist.refl _)
          · exact fun _ => roomy.later _

theorem tick_budgeted {own : Own} (permitted : ∀ before event after, own = before ++ event :: after →
    MayTick command before event.1) : Budgeted command own where
  chosen := (stored_in_turn permitted).1.trans ((List.take_sublist _ _).map transportId)
  roomy := (stored_in_turn permitted).2

end Budgets

section System

variable [Unicode] [Sha256] {Q : QueueBackend} {A : ApprovalBackend} {world : World Q A}
  {c : Config ports Activity (World Q A)}

/-- What holds of the system with its idle loop: who asks for tokens, where the task of a
parked proposal can stand and to whom it was handed, and what a tick stores. -/
structure Orderly (world : World Q A) (c : Config ports Activity (World Q A)) : Prop where
  storedOnce : (storedIds c.history).Nodup
  askedOnce : (askedIds c.history).Nodup
  askedByStorer : ∀ before entry after id, c.history = before ++ entry :: after →
    askedFor entry.event = some id → StoredBy before entry.pid id
  stands : ∀ pid id task, ParkedBy c.history pid id → c.shared.board id = some task →
    Standing world.ledger c.history pid id task.state
  waits : ∀ pid id task, ParkedBy c.history pid id → c.shared.board id = some task →
    task.state = .queued ∨ task.state = .running → Released world.ledger c.history pid id
  handed : ∀ pid id before entry after, ParkedBy c.history pid id →
    c.history = before ++ entry :: after → Handed id entry.event.1 →
    Released world.ledger before pid id
  budgeted : ∀ pid command program, c.processes[pid]? = some ⟨.idle command, program⟩ →
    Budgeted command (own c.history pid)

theorem asked_by_storer (reachable : Reachable (surroundings Q A) Activity.start world c)
    {before after : Past} {entry : Entry ports Activity} {id : Str}
    (split : c.history = before ++ entry :: after) (asked : askedFor entry.event = some id) :
    StoredBy before entry.pid id := by
  obtain ⟨earlier, next, rfl, turn⟩ := turned_of_run reachable split
  have permitted := may_issue turn.permitted
  obtain ⟨number, activity, request, reply⟩ := entry
  cases request with
  | issue taskId action =>
      obtain rfl : taskId = id := Option.some.inj asked
      exact (entrusted_run turn.reached).held number taskId permitted.1
  | _ => cases asked

/-- What an activity exchanges next is what it may ask. -/
def Activity.Permitted (activity : Activity) (before : Own) (event : Exchange ports) : Prop :=
  activity.may before event.1

theorem ticks_budgeted (reachable : Reachable (surroundings Q A) Activity.start world c) {pid : Nat}
    {command : IdleCommand} {program : Code Unit}
    (running : c.processes[pid]? = some ⟨.idle command, program⟩) :
    Budgeted command (own c.history pid) := by
  have permitted : ∀ pid process, c.processes[pid]? = some process → ∀ before event after,
      own c.history pid = before ++ event :: after → process.operation.Permitted before event :=
    turns_throughout (fun c entry rest next run scheduled _ _ =>
      (activities Q A).permits (GuardedRun.run run) scheduled) (Run.guarded reachable)
  exact tick_budgeted fun before event after split => (permitted pid _ running before event after split).2

/-- Every run of the system with its idle loop is orderly. -/
theorem idle_work_waits (reachable : Reachable (surroundings Q A) Activity.start world c) :
    Orderly world c where
  storedOnce := (entrusted_run reachable).stored
  askedOnce := (entrusted_run reachable).asked
  askedByStorer _ _ _ _ split asked := asked_by_storer reachable split asked
  stands _ _ task parkedBy found := parked_task_stands reachable task found parkedBy
  waits _ _ task parkedBy found := parked_task_waits reachable task found parkedBy
  handed _ _ _ _ _ parkedBy split handed := handed_was_released reachable parkedBy split handed
  budgeted _ _ _ running := ticks_budgeted reachable running

end System

section Example

open DearAgent.Work

def markedSignals : Signals where
  repoPath := ["srv".toList, "w".toList]
  items := [⟨.todo, "TODO: tidy up", "a.py"⟩]

def widgetTick : IdleCommand where
  repoName := "w"
  collected := .ok markedSignals

def idleId : Str := "<idle-ca0df2c95aa144c1d0ff2ff3c8f967fd@dear-agent.local>"

/-- A tick parks a proposal, its token comes back, and an executor takes the task. -/
def widgetIdle : Config ports Activity
    (World MemoryQueue.backend (MemoryApprovalStore.backend 1)) :=
  let _ := asciiTables
  let _ := widgetSha256
  play (answering zeroReadings suspectingAnswers) Activity.start
    ([.launch (.idle widgetTick)] ++ List.replicate 3 (.act 0) ++
      [.launch (.other (.apply widgetApproval none none))] ++ List.replicate 4 (.act 1) ++
      [.launch (.other (.work (.executeNext { repoPath := "/repo", worktreesRoot := "/work" } 60000000
        { repoUrl := "/srv/w" } none none))), .act 2]) (initial (emptyWorld 1))

theorem approved_proposal_runs : (widgetIdle.shared.board idleId).map Task.state = some .running ∧
    Released (emptyWorld 1).ledger widgetIdle.history 0 idleId := by
  let _ := asciiTables
  let _ := widgetSha256
  have reachable : Reachable (surroundings _ _) Activity.start (emptyWorld 1) widgetIdle :=
    run_play (fun request world => (answering_works zeroReadings suspectingAnswers request world).1)
      _ _ fun _ _ => trivial
  have parks : (widgetIdle.history[1]?.any fun entry => entry.pid = 0 ∧
      storedId entry.event = some idleId ∧ entry.operation.gates = true) = true := by decide
  have running : (widgetIdle.shared.board idleId).map Task.state = some .running := by
    decide
  obtain ⟨entry, second, gated⟩ := (Option.any_eq_true _ _).mp parks
  obtain ⟨task, found, state⟩ := Option.map_eq_some_iff.mp running
  have parkedBy : ParkedBy widgetIdle.history 0 idleId :=
    ⟨entry, List.mem_of_getElem? second, of_decide_eq_true gated⟩
  exact ⟨running, (idle_work_waits reachable).waits 0 idleId task parkedBy found (.inr state)⟩

end Example

end DearAgent.Idle
