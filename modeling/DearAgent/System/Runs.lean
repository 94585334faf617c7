import DearAgent.System.Discipline

/-!
# What runs keep

A stored task keeps what identifies it and an issued token keeps what it was
issued for. Every turn of a run is found again in the configuration it was
taken in, together with what is left of it later.
-/

namespace DearAgent

open DearAgent.Lib.Text DearAgent.Lib.Effects DearAgent.Lib.Interleaving DearAgent.Queue

set_option autoImplicit false

theorem SameIssue.refl (approval : Approval) : SameIssue approval approval :=
  ⟨rfl, rfl, rfl, rfl, rfl⟩

theorem SameIssue.trans {first second third : Approval} (early : SameIssue first second)
    (late : SameIssue second third) : SameIssue first third where
  token := late.token.trans early.token
  taskId := late.taskId.trans early.taskId
  action := late.action.trans early.action
  createdAt := late.createdAt.trans early.createdAt
  expiresAt := late.expiresAt.trans early.expiresAt

variable {Q : QueueBackend} {A : ApprovalBackend}

theorem turn_keeps_task {request : Request} {world after : World Q A} {reply : ports.Reply request}
    (answered : surroundings Q A request world reply after) {id : Str} {task : Task}
    (found : world.board id = some task) :
    ∃ task', after.board id = some task' ∧ SameTask task task' := by
  cases request with
  | queue op =>
      obtain ⟨now, effect⟩ := queue_effect answered id
      exact effect_keeps_task effect found
  | _ =>
      have same := board_kept answered fun op other => by cases other
      exact ⟨task, by rw [same, found], .refl task⟩

theorem looked_up_filed {token : Str} {looked : Option Approval} {world after : World Q A}
    (answered : surroundings Q A (.approvalOf token) world (.ok looked) after) :
    after.ledger token = looked := by
  have effect := ledger_effect answered token
  generalize world.ledger token = found at effect
  generalize after.ledger token = found' at effect
  cases effect with
  | kept _ _ _ untouched => exact absurd rfl untouched
  | looked => rfl

theorem redeemed_was_live {reply : ApprovalReply} {redeemed : Redeemed}
    {world after : World Q A}
    (answered : surroundings Q A (.redeem reply) world (.ok redeemed) after) :
    redeemed.checkedAt < redeemed.approval.expiresAt ∧
      after.ledger reply.token = some redeemed.approval ∧
      ∃ approval, world.ledger reply.token = some approval ∧ approval.used = false ∧
        SameIssue approval redeemed.approval := by
  have effect := ledger_effect answered reply.token
  generalize world.ledger reply.token = found at effect
  generalize after.ledger reply.token = found' at effect
  cases effect with
  | kept _ _ _ untouched => exact absurd rfl untouched
  | redeemed _ approval usedAt checkedAt _ unused live =>
      exact ⟨live, rfl, approval, rfl, unused, rfl, rfl, rfl, rfl, rfl⟩

def Used (world : World Q A) (token : Str) : Prop :=
  ∃ approval, world.ledger token = some approval ∧ approval.used = true

theorem used_after_turn {request : Request} {world after : World Q A} {reply : ports.Reply request}
    (answered : surroundings Q A request world reply after) (token : Str) :
    Used after token ↔ Used world token ∨ ∃ decided redeemed,
      (⟨request, reply⟩ : Exchange ports) = ⟨.redeem decided, .ok redeemed⟩ ∧
        decided.token = token := by
  have effect := ledger_effect answered token
  unfold Used
  generalize world.ledger token = found at effect
  generalize after.ledger token = found' at effect
  cases effect with
  | kept _ _ _ untouched =>
      refine ⟨.inl, fun either => either.resolve_right ?_⟩
      rintro ⟨decided, redeemed, event, same⟩
      cases event
      exact untouched same
  | issued taskId action approval _ _ _ unused =>
      constructor
      · rintro ⟨_, same, used⟩
        obtain rfl := Option.some.inj same
        cases unused.symm.trans used
      · rintro (⟨_, missing, _⟩ | ⟨decided, redeemed, event, _⟩)
        · cases missing
        · cases event
  | redeemed decided approval usedAt checkedAt same =>
      exact ⟨fun _ => .inr ⟨decided, _, rfl, same⟩, fun _ => ⟨_, rfl, rfl⟩⟩
  | looked =>
      refine ⟨.inl, fun either => either.resolve_right ?_⟩
      rintro ⟨decided, redeemed, event, _⟩
      cases event

section Runs

variable {O : Type} {start : O → Code Unit} {world : World Q A} {c c' : Config ports O (World Q A)}
  {admissible : Entry ports O → Prop}

theorem run_keeps_task (run : Run (surroundings Q A) start admissible c c')
    {id : Str} {task : Task} (found : c.shared.board id = some task) :
    ∃ task', c'.shared.board id = some task' ∧ SameTask task task' := by
  refine run.preserves
    (fun world => ∃ task', world.board id = some task' ∧ SameTask task task') ?_
    ⟨task, found, .refl task⟩
  rintro entry s s' _ ⟨middle, located, early⟩ answered
  obtain ⟨task', kept, late⟩ := turn_keeps_task answered located
  exact ⟨task', kept, early.trans late⟩

theorem run_keeps_issue (run : Run (surroundings Q A) start admissible c c')
    {token : Str} {approval : Approval} (found : c.shared.ledger token = some approval) :
    ∃ kept, c'.shared.ledger token = some kept ∧ SameIssue approval kept := by
  refine run.preserves
    (fun world => ∃ kept, world.ledger token = some kept ∧ SameIssue approval kept) ?_
    ⟨approval, found, .refl approval⟩
  rintro entry s s' _ ⟨middle, located, early⟩ answered
  obtain ⟨kept, filed, late⟩ := ledger_keeps_issue answered located
  exact ⟨kept, filed, early.trans late⟩

theorem used_in_run (reachable : Reachable (surroundings Q A) start world c) (token : Str) :
    Used c.shared token ↔ Used world token ∨ ∃ entry ∈ c.history, ∃ decided redeemed,
      entry.event = ⟨.redeem decided, .ok redeemed⟩ ∧ decided.token = token := by
  induction reachable with
  | refl => simp [initial]
  | tail _ step ih =>
      cases step with
      | launch operation => exact ih
      | act entry next shared scheduled answered admitted =>
          change Used shared token ↔ _
          rw [used_after_turn answered, ih, or_assoc]
          refine or_congr_right ?_
          simp only [Config.after, List.mem_append, List.mem_singleton, or_and_right, exists_or,
            exists_eq_left]

theorem looked_up_issue (reachable : Reachable (surroundings Q A) start world c)
    {pid : Nat} {token : Str} {approval : Approval}
    (looked : (⟨.approvalOf token, .ok (some approval)⟩ : Exchange ports) ∈ own c.history pid) :
    ∃ kept, c.shared.ledger token = some kept ∧ SameIssue approval kept := by
  obtain ⟨⟨_, operation, exchange⟩, listed, _, rfl⟩ := mem_own looked
  obtain ⟨before, after, split⟩ := List.append_of_mem listed
  obtain ⟨earlier, next, later, _, _, _, answered, run⟩ := reachable_before reachable split
  exact run_keeps_issue run (looked_up_filed answered)

theorem redeemed_as_looked_up (reachable : Reachable (surroundings Q A) start world c)
    {pid pid' : Nat} {reply : ApprovalReply} {approval : Approval} {redeemed : Redeemed}
    (looked : (⟨.approvalOf reply.token, .ok (some approval)⟩ : Exchange ports) ∈ own c.history pid)
    (spent : (⟨.redeem reply, .ok redeemed⟩ : Exchange ports) ∈ own c.history pid') :
    redeemed.approval.taskId = approval.taskId := by
  obtain ⟨kept, filed, same⟩ := looked_up_issue reachable looked
  obtain ⟨⟨_, operation, exchange⟩, listed, _, rfl⟩ := mem_own spent
  obtain ⟨before, after, split⟩ := List.append_of_mem listed
  obtain ⟨earlier, next, later, _, _, _, answered, run⟩ := reachable_before reachable split
  obtain ⟨kept', located, lasting⟩ := run_keeps_issue run (redeemed_was_live answered).2.1
  obtain rfl : kept = kept' := Option.some.inj (filed.symm.trans located)
  exact lasting.taskId.symm.trans same.taskId

end Runs

section Turns

variable [Unicode] [Sha256] {world : World Q A} {c : Config ports Operation (World Q A)}

/-- A turn of a run to `c`, between the configurations before and after it. -/
structure TurnOf (world : World Q A) (c earlier next : Config ports Operation (World Q A))
    (entry : Entry ports Operation) : Prop where
  reached : Reachable (surroundings Q A) Operation.start world earlier
  permitted : May entry.operation (own earlier.history entry.pid) entry.event.1
  answered : surroundings Q A entry.event.1 earlier.shared entry.event.2 next.shared
  took : Run (surroundings Q A) Operation.start anyTurn earlier next
  goes : Run (surroundings Q A) Operation.start anyTurn next c

theorem turn_of_run (reachable : Reachable (surroundings Q A) Operation.start world c)
    {before after : History ports Operation} {entry : Entry ports Operation}
    (split : c.history = before ++ entry :: after) :
    ∃ earlier next, earlier.history = before ∧ TurnOf world c earlier next entry := by
  obtain ⟨earlier, next, later, reached, same, scheduled, answered, run⟩ :=
    reachable_before reachable split
  exact ⟨earlier, _, same, reached, (discipline Q A).permits reached scheduled, answered,
    .single (.act earlier entry next later scheduled answered trivial), run⟩

theorem turn_of_own (reachable : Reachable (surroundings Q A) Operation.start world c) {pid : Nat}
    {event : Exchange ports} (member : event ∈ own c.history pid) :
    ∃ before entry after earlier next, c.history = before ++ entry :: after ∧
      entry.event = event ∧ earlier.history = before ∧ TurnOf world c earlier next entry := by
  obtain ⟨entry, listed, _, same⟩ := mem_own member
  obtain ⟨before, after, split⟩ := List.append_of_mem listed
  obtain ⟨earlier, next, history, turn⟩ := turn_of_run reachable split
  exact ⟨before, entry, after, earlier, next, split, same, history, turn⟩

end Turns

end DearAgent
