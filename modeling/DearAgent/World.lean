import DearAgent.Ports

/-!
# The world of the programs

The state the programs share is that of the two stores. The queue and the
approval store answer as their backends do, whatever the clock reads, or fail
without an effect; everything else may answer anything and leaves the stores as
they are.
-/

namespace DearAgent

open DearAgent.Lib.Text DearAgent.Lib.Effects DearAgent.Queue

set_option autoImplicit false

variable (Q : QueueBackend) (A : ApprovalBackend)

structure World where
  queue : Q.Store
  approvals : A.Store

variable {Q A}

def World.board (world : World Q A) : Board := Q.board world.queue

def World.ledger (world : World Q A) : Ledger := A.ledger world.approvals

variable (Q A)

def ServedApproval (op : ApprovalOp) (readings : Readings) (world : World Q A) (reply : op.Reply)
    (after : World Q A) : Prop :=
  reply = (A.step op readings world.approvals).1 ∧
    after = { world with approvals := (A.step op readings world.approvals).2 }

/-- The stores do what they are asked for. A new token, sixteen random bytes, is
taken to be one that is not in use. -/
def Served : Env ports (World Q A)
  | .queue op, world, reply, after => ∃ now : Instant,
      reply = (Q.step op now world.queue).1 ∧
        after = { world with queue := (Q.step op now world.queue).2 }
  | .issue taskId action, world, reply, after => ∃ readings : Readings,
      world.ledger readings.token.1 = none ∧
        ServedApproval Q A (.issue taskId action) readings world reply after
  | .approvalOf token, world, reply, after => ∃ readings : Readings,
      ServedApproval Q A (.get token) readings world reply after
  | .redeem decided, world, reply, after => ∃ readings : Readings,
      ServedApproval Q A (.redeem decided.token) readings world reply after
  | _, world, _, after => after = world

def Stored : Request → Prop
  | .queue _ | .issue _ _ | .approvalOf _ | .redeem _ => True
  | _ => False

/-- A store cannot be reached: the call raises and nothing is changed. -/
def Outage : Env ports (World Q A) := fun request world reply after =>
  Stored request ∧ (∃ error : Exn, reply = .error error ∧ error.isQueueError = false ∧
    error.isApprovalError = false) ∧ after = world

def surroundings : Env ports (World Q A) := fun request world reply after =>
  Served Q A request world reply after ∨ Outage Q A request world reply after

/-- The queue and the event log do what they are asked for. -/
def Works : (request : Request) → World Q A → Except Exn request.Result → World Q A → Prop
  | .queue op, world, reply, after => Served Q A (.queue op) world reply after
  | .record _ _ _, _, reply, _ => reply = .ok ()
  | _, _, _, _ => True

def working : Env ports (World Q A) := fun request world reply after =>
  surroundings Q A request world reply after ∧ Works Q A request world reply after

variable {Q A}

theorem served_spec {op : QueueOp} {world after : World Q A} {reply : op.Reply}
    (served : Served Q A (.queue op) world reply after) :
    (∃ now, Spec now op world.board reply after.board) ∧ after.ledger = world.ledger := by
  obtain ⟨now, rfl, rfl⟩ := served
  exact ⟨⟨now, Q.refines op now world.queue⟩, rfl⟩

theorem working_spec {op : QueueOp} {world after : World Q A} {reply : op.Reply}
    (answered : working Q A (.queue op) world reply after) :
    ∃ now, Spec now op world.board reply after.board := by
  have served : Served Q A (.queue op) world reply after := answered.2
  exact (served_spec served).1

theorem queue_effect {op : QueueOp} {world after : World Q A} {reply : op.Reply}
    (answered : surroundings Q A (.queue op) world reply after) (id : Str) :
    ∃ now, Effect now id op reply (world.board id) (after.board id) := by
  rcases answered with served | ⟨_, ⟨error, rfl, _⟩, rfl⟩
  · obtain ⟨⟨now, spec⟩, _⟩ := served_spec served
    exact ⟨now, spec_effect (Q.filed world.queue) spec id⟩
  · exact ⟨0, effect_of_error 0 id op error _⟩

theorem board_kept {request : Request} {world after : World Q A} {reply : ports.Reply request}
    (answered : surroundings Q A request world reply after) (other : ∀ op, request ≠ .queue op) :
    after.board = world.board := by
  rcases answered with served | ⟨_, _, rfl⟩
  · cases request with
    | queue op => exact absurd rfl (other op)
    | issue taskId action =>
        obtain ⟨readings, _, _, rfl⟩ := served
        rfl
    | approvalOf token =>
        obtain ⟨readings, _, rfl⟩ := served
        rfl
    | redeem decided =>
        obtain ⟨readings, _, rfl⟩ := served
        rfl
    | _ =>
        obtain rfl := served
        rfl
  · rfl

theorem approval_served {op : ApprovalOp} {readings : Readings} {world after : World Q A}
    {reply : op.Reply} (served : ServedApproval Q A op readings world reply after) :
    ApprovalSpec A.ttl readings op world.ledger reply after.ledger ∧ after.board = world.board := by
  obtain ⟨rfl, rfl⟩ := served
  exact ⟨A.refines op readings world.approvals, rfl⟩

/-- The reply says that the token was issued, spent or looked up. -/
def TouchesToken (token : Str) : (request : Request) → ports.Reply request → Prop
  | .issue _ _, .ok approval => approval.token = token
  | .redeem decided, .ok _ => decided.token = token
  | .approvalOf asked, .ok _ => asked = token
  | _, _ => False

/-- What an exchange does to the approval under one token, with the reply that
goes with it. -/
inductive LedgerEffect (token : Str) :
    (request : Request) → ports.Reply request → Option Approval → Option Approval → Prop
  | kept (request : Request) (reply : ports.Reply request) (found : Option Approval)
      (untouched : ¬TouchesToken token request reply) : LedgerEffect token request reply found found
  | issued (taskId action : Str) (approval : Approval) (same : approval.token = token)
      (of : approval.taskId = taskId) (use : approval.action = action)
      (unused : approval.used = false) :
      LedgerEffect token (.issue taskId action) (.ok approval) none (some approval)
  | redeemed (decided : ApprovalReply) (approval : Approval) (usedAt checkedAt : Instant)
      (same : decided.token = token) (unused : approval.used = false)
      (live : checkedAt < approval.expiresAt) :
      LedgerEffect token (.redeem decided)
        (.ok ⟨{ approval with usedAt := some usedAt }, checkedAt⟩) (some approval)
        (some { approval with usedAt := some usedAt })
  | looked (found : Option Approval) :
      LedgerEffect token (.approvalOf token) (.ok found) found found

theorem ledger_effect {request : Request} {world after : World Q A} {reply : ports.Reply request}
    (answered : surroundings Q A request world reply after) (token : Str) :
    LedgerEffect token request reply (world.ledger token) (after.ledger token) := by
  rcases answered with served | ⟨stored, ⟨error, rfl, _⟩, rfl⟩
  · cases request with
    | queue op =>
        rw [(served_spec served).2]
        exact .kept _ _ _ not_false
    | issue taskId action =>
        obtain ⟨readings, fresh, served⟩ := served
        obtain ⟨⟨rfl, put⟩ | ⟨⟨error, rfl, _⟩, same⟩, _⟩ := approval_served served
        · rw [put]
          by_cases own : token = readings.token.1
          · subst own
            rw [fresh, ledger_put_same _ _ (by rfl)]
            exact .issued taskId action _ rfl rfl rfl rfl
          · rw [ledger_put_ne _ _ own]
            exact .kept _ _ _ fun touched => own touched.symm
        · rw [same]
          exact .kept _ _ _ not_false
    | approvalOf asked =>
        obtain ⟨readings, served⟩ := served
        obtain ⟨⟨rfl, same⟩, _⟩ := approval_served served
        rw [same]
        by_cases own : asked = token
        · subst own
          exact .looked _
        · exact .kept _ _ _ own
    | redeem decided =>
        obtain ⟨readings, served⟩ := served
        obtain ⟨⟨approval, usedAt, found, unused, live, rfl, put⟩ | ⟨⟨error, rfl, _⟩, same⟩, _⟩ :=
          approval_served served
        · have filed : approval.token = decided.token := A.filed _ _ _ found
          rw [put]
          by_cases own : decided.token = token
          · subst own
            rw [found, ledger_put_same world.ledger { approval with usedAt := some usedAt } filed.symm]
            refine .redeemed decided approval usedAt readings.now rfl unused ?_
            simpa [Approval.expired] using live
          · have other : token ≠ approval.token := fun equal => own (filed.symm.trans equal.symm)
            rw [ledger_put_ne world.ledger { approval with usedAt := some usedAt } other]
            exact .kept _ _ _ own
        · rw [same]
          exact .kept _ _ _ not_false
    | _ =>
        obtain rfl := served
        exact .kept _ _ _ not_false
  · cases request with
    | issue taskId action => exact .kept _ _ _ not_false
    | redeem decided => exact .kept _ _ _ not_false
    | approvalOf asked => exact .kept _ _ _ not_false
    | queue op => exact .kept _ _ _ not_false
    | _ => exact absurd stored not_false

structure SameIssue (first second : Approval) : Prop where
  token : second.token = first.token
  taskId : second.taskId = first.taskId
  action : second.action = first.action
  createdAt : second.createdAt = first.createdAt
  expiresAt : second.expiresAt = first.expiresAt

theorem ledger_keeps_issue {request : Request} {world after : World Q A}
    {reply : ports.Reply request} (answered : surroundings Q A request world reply after)
    {token : Str} {approval : Approval} (found : world.ledger token = some approval) :
    ∃ kept, after.ledger token = some kept ∧ SameIssue approval kept := by
  have effect := ledger_effect answered token
  rw [found] at effect
  generalize after.ledger token = found' at effect
  cases effect with
  | kept | looked => exact ⟨approval, rfl, rfl, rfl, rfl, rfl, rfl⟩
  | redeemed => exact ⟨_, rfl, rfl, rfl, rfl, rfl, rfl⟩

/-- Surroundings to evaluate a program in: the same readings for every call, so
that only one token is issued, and a given answer to everything else. -/
def answering (readings : Readings) (others : (request : Request) → Except Exn request.Result)
    (request : Request) (world : World Q A) : Except Exn request.Result × World Q A :=
  match request with
  | .queue op =>
      let step := Q.step op readings.now world.queue
      (step.1, { world with queue := step.2 })
  | .approvalOf token =>
      let step := A.step (.get token) readings world.approvals
      (step.1, { world with approvals := step.2 })
  | .redeem decided =>
      let step := A.step (.redeem decided.token) readings world.approvals
      (step.1, { world with approvals := step.2 })
  | .issue taskId action =>
      if world.ledger readings.token.1 = none then
        let step := A.step (.issue taskId action) readings world.approvals
        (step.1, { world with approvals := step.2 })
      else (.error (.otherException "OperationalError" "server closed the connection"), world)
  | .record _ _ _ => (.ok (), world)
  | request => (others request, world)

theorem answering_works (readings : Readings)
    (others : (request : Request) → Except Exn request.Result) (request : Request)
    (world : World Q A) : working Q A request world (answering readings others request world).1
      (answering readings others request world).2 := by
  cases request with
  | queue op => exact ⟨.inl ⟨readings.now, rfl, rfl⟩, readings.now, rfl, rfl⟩
  | approvalOf token => exact ⟨.inl ⟨readings, rfl, rfl⟩, trivial⟩
  | redeem decided => exact ⟨.inl ⟨readings, rfl, rfl⟩, trivial⟩
  | issue taskId action =>
      refine ⟨?_, trivial⟩
      simp only [answering]
      by_cases fresh : world.ledger readings.token.1 = none
      · rw [if_pos fresh]
        exact .inl ⟨readings, fresh, rfl, rfl⟩
      · rw [if_neg fresh]
        exact .inr ⟨trivial, ⟨_, rfl, rfl, rfl⟩, rfl⟩
  | record taskId kind data => exact ⟨.inl rfl, rfl⟩
  | _ => exact ⟨.inl rfl, trivial⟩

end DearAgent
