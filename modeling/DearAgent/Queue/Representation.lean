import DearAgent.Queue.Claims

/-!
# What the memory queue keeps

The invariant of the two dictionaries and the linked fields of a task, over all
sequences of calls on a queue that starts empty.
-/

namespace DearAgent.Queue

open DearAgent.Lib.Text DearAgent.Lib.Effects DearAgent.Lib.Dictionaries

set_option autoImplicit false

namespace MemoryQueue

def after (q : MemoryQueue) : List Caller → MemoryQueue
  | [] => q
  | caller :: rest => after (step caller.1 caller.2 q).2 rest

def replies (q : MemoryQueue) : List Caller → List (Exchange calls)
  | [] => []
  | caller :: rest => ⟨caller, (step caller.1 caller.2 q).1⟩ :: replies (step caller.1 caller.2 q).2 rest

/-- A call of `release_stale` that released the task under this id. -/
def releases (id : Str) : Exchange calls → Bool
  | ⟨(.releaseStale _, _), .ok released⟩ => released.any fun task => task.id = id
  | _ => false

/-- The call raises, or returns `False` or `None`. -/
def declines : (op : QueueOp) → op.Reply → Bool
  | .enqueue _ _, .ok none => true
  | .get _, .ok none => true
  | .claim _ _, .ok false => true
  | .claimNext _, .ok none => true
  | _, .error _ => true
  | _, .ok _ => false

/-- What holds of the queue after any calls. -/
structure Represents : Prop where
  filed : ∀ calls id task, (empty.after calls).tasks.get id = some task → task.id = id
  indexed : ∀ calls transportId id, (empty.after calls).byTransport.get transportId = some id ↔
    ∃ task, (empty.after calls).tasks.get id = some task ∧ task.transportId = transportId
  unique : ∀ calls id id' task task', (empty.after calls).tasks.get id = some task →
    (empty.after calls).tasks.get id' = some task' → task.transportId = task'.transportId → id = id'
  leased : ∀ calls id task, (empty.after calls).tasks.get id = some task →
    task.leaseUntil.isSome = true → task.state = .running
  /-- A task that has run since a claim has a lease. -/
  claimed : ∀ early (caller : Caller) later id value,
    (step caller.1 caller.2 (empty.after early)).1 = .ok value →
    claimedTask caller.1 value = some id →
    (∀ front back, later = front ++ back →
      InState (empty.after (early ++ caller :: front)).board id .running) →
    ∃ task, (empty.after (early ++ caller :: later)).tasks.get id = some task ∧
      task.leaseUntil.isSome = true
  attempts : ∀ calls id task, (empty.after calls).tasks.get id = some task →
    task.attempts = (empty.replies calls).countP (releases id)
  kept : ∀ calls later id task, (empty.after calls).tasks.get id = some task →
    ∃ task', (empty.after (calls ++ later)).tasks.get id = some task' ∧ SameTask task task'
  deduped : ∀ calls task state now,
    (step (.enqueue task state) now (empty.after calls)).1 = .ok none ↔
      ∃ id stored, (empty.after calls).tasks.get id = some stored ∧
        (id = task.id ∨ stored.transportId = task.transportId)
  unchanged : ∀ calls (caller : Caller),
    declines caller.1 (step caller.1 caller.2 (empty.after calls)).1 = true →
    (step caller.1 caller.2 (empty.after calls)).2 = empty.after calls

/-- The invariant, with the number of times each task was released. -/
structure Sound (q : MemoryQueue) (count : Str → Nat) : Prop where
  wellFormed : q.WellFormed
  leased : ∀ id task, q.board id = some task → task.leaseUntil.isSome = true → task.state = .running
  attempts : ∀ id task, q.board id = some task → task.attempts = count id
  absent : ∀ id, q.board id = none → count id = 0

section Steps

variable {q : MemoryQueue} {id : Str}

theorem touches_of_releases {op : QueueOp} {now : Instant} {reply : op.Reply}
    (released : releases id ⟨(op, now), reply⟩ = true) : Touches id op reply := by
  cases op with
  | releaseStale limit =>
      cases reply with
      | error error => cases released
      | ok tasks =>
          obtain ⟨task, member, same⟩ := List.any_eq_true.mp released
          exact ⟨task, member, of_decide_eq_true same⟩
  | _ => cases reply <;> cases released

theorem call_effect (wellFormed : q.WellFormed) (caller : Caller) (id : Str) :
    Effect caller.2 id caller.1 (step caller.1 caller.2 q).1 (q.board id)
      ((step caller.1 caller.2 q).2.board id) :=
  spec_effect wellFormed.filed (step_refines wellFormed caller.1 caller.2) id

/-- What one call makes of one task, in terms of its lease and its attempts. -/
structure Advances (released : Bool) (found later : Option Task) : Prop where
  leased : (∀ task, found = some task → task.leaseUntil.isSome = true → task.state = .running) →
    ∀ task, later = some task → task.leaseUntil.isSome = true → task.state = .running
  attempts : ∀ task, found = some task → ∀ task', later = some task' →
    task'.attempts = task.attempts + if released then 1 else 0
  fresh : found = none → ∀ task, later = some task → task.attempts = 0
  absent : found = none → released = false

/-- A call that leaves the task where it was found, in a state that fits its lease. -/
theorem advances_stored {stored later : Task} {released : Bool}
    (leased : (stored.leaseUntil.isSome = true → stored.state = .running) →
      later.leaseUntil.isSome = true → later.state = .running)
    (attempts : later.attempts = stored.attempts + if released then 1 else 0) :
    Advances released (some stored) (some later) := by
  constructor
  · intro before task located lease
    cases located
    exact leased (before stored rfl) lease
  · intro task found task' located
    cases found
    cases located
    exact attempts
  · intro missing
    cases missing
  · intro missing
    cases missing

theorem effect_advances {op : QueueOp} {now : Instant} {reply : op.Reply} {found later : Option Task}
    (effect : Effect now id op reply found later) :
    Advances (releases id ⟨(op, now), reply⟩) found later := by
  cases effect with
  | kept op reply found untouched =>
      have unreleased : releases id ⟨(op, now), reply⟩ = false := by
        apply Bool.of_not_eq_true
        exact fun released => untouched (touches_of_releases released)
      rw [unreleased]
      cases found with
      | some stored => exact advances_stored (fun before => before) rfl
      | none =>
          constructor
          · intro _ task located
            cases located
          · intro task found
            cases found
          · intro _ task located
            cases located
          · exact fun _ => rfl
  | enqueued task stored state same stores =>
      have unreleased : releases id ⟨(.enqueue task state, now), .ok (some stored)⟩ = false := rfl
      rw [unreleased]
      constructor
      · intro _ task' located lease
        cases located
        rw [stores.leaseUntil] at lease
        cases lease
      · intro _ found
        cases found
      · intro _ task' located
        cases located
        exact stores.attempts
      · exact fun _ => rfl
  | claimed task stored lease same queued => exact advances_stored (fun _ _ => rfl) rfl
  | claimedNext stored lease same queued => exact advances_stored (fun _ _ => rfl) rfl
  | moved task stored after toState evidence same matched moved =>
      obtain ⟨merged, _, rfl⟩ := moved
      refine advances_stored (fun _ lease => ?_) rfl
      by_cases running : toState = .running
      · exact running
      · rw [if_neg running] at lease
        cases lease
  | released limit released stored expired same listed =>
      have told : releases id ⟨(.releaseStale limit, now), .ok released⟩ = true :=
        List.any_eq_true.mpr ⟨release stored, listed, decide_eq_true same⟩
      rw [told]
      refine advances_stored (fun _ lease => ?_) rfl
      cases lease

theorem sound_step {count : Str → Nat} (sound : q.Sound count) (caller : Caller) :
    (step caller.1 caller.2 q).2.Sound fun id =>
      count id + if releases id ⟨caller, (step caller.1 caller.2 q).1⟩ then 1 else 0 := by
  have advances : ∀ id, Advances (releases id ⟨caller, (step caller.1 caller.2 q).1⟩) (q.board id)
      ((step caller.1 caller.2 q).2.board id) :=
    fun id => effect_advances (call_effect sound.wellFormed caller id)
  refine ⟨step_well_formed sound.wellFormed caller.1 caller.2, ?_, ?_, ?_⟩
  · intro id task located
    exact (advances id).leased (sound.leased id) task located
  · intro id task located
    cases found : q.board id with
    | none =>
        rw [(advances id).fresh found task located, sound.absent id found, (advances id).absent found]
        rfl
    | some stored =>
        rw [(advances id).attempts stored found task located, sound.attempts id stored found]
  · intro id missing
    have before : q.board id = none := by
      by_contra present
      obtain ⟨stored, found⟩ := Option.ne_none_iff_exists'.mp present
      obtain ⟨task, located, _⟩ := effect_keeps_task (call_effect sound.wellFormed caller id) found
      rw [located] at missing
      cases missing
    rw [sound.absent id before, (advances id).absent before]
    rfl

end Steps

/-!
## Runs
-/

section Runs

variable {q : MemoryQueue} {id : Str}

theorem after_append (early late : List Caller) :
    q.after (early ++ late) = (q.after early).after late := by
  induction early generalizing q with
  | nil => rfl
  | cons caller rest ih => exact ih

theorem sound_after {count : Str → Nat} (sound : q.Sound count) (callers : List Caller) :
    (q.after callers).Sound fun id => count id + (q.replies callers).countP (releases id) := by
  induction callers generalizing q count with
  | nil => exact sound
  | cons caller rest ih =>
      have later := ih (sound_step sound caller)
      have counted : (fun id => count id + (q.replies (caller :: rest)).countP (releases id)) =
          fun id => count id + (if releases id ⟨caller, (step caller.1 caller.2 q).1⟩ then 1 else 0) +
            ((step caller.1 caller.2 q).2.replies rest).countP (releases id) := by
        funext id
        change count id + List.countP (releases id) (_ :: _) = _
        rw [List.countP_cons]
        omega
      rw [counted]
      exact later

theorem sound_empty : empty.Sound fun _ => 0 where
  wellFormed := empty_well_formed
  leased _ _ found := by cases found
  attempts _ _ found := by cases found
  absent _ _ := rfl

theorem sound_since_empty (callers : List Caller) :
    (empty.after callers).Sound fun id => (empty.replies callers).countP (releases id) := by
  have sound := sound_after sound_empty callers
  simp only [Nat.zero_add] at sound
  exact sound

theorem well_formed_after (wellFormed : q.WellFormed) (callers : List Caller) :
    (q.after callers).WellFormed := by
  induction callers generalizing q with
  | nil => exact wellFormed
  | cons caller rest ih => exact ih (step_well_formed wellFormed caller.1 caller.2)

theorem kept_after (wellFormed : q.WellFormed) {task : Task} (found : q.board id = some task)
    (callers : List Caller) :
    ∃ task', (q.after callers).board id = some task' ∧ SameTask task task' := by
  induction callers generalizing q task with
  | nil => exact ⟨task, found, .refl task⟩
  | cons caller rest ih =>
      obtain ⟨next, located, same⟩ := effect_keeps_task (call_effect wellFormed caller id) found
      obtain ⟨task', final, later⟩ := ih (step_well_formed wellFormed caller.1 caller.2) located
      exact ⟨task', final, same.trans later⟩

def Leased (q : MemoryQueue) (id : Str) : Prop :=
  ∃ task, q.board id = some task ∧ task.state = .running ∧ task.leaseUntil.isSome = true

theorem leased_step (wellFormed : q.WellFormed) (leased : q.Leased id) (caller : Caller)
    (runs : InState (step caller.1 caller.2 q).2.board id .running) :
    (step caller.1 caller.2 q).2.Leased id := by
  have effect := call_effect wellFormed caller id
  obtain ⟨task, found, running, lease⟩ := leased
  obtain ⟨later, located, still⟩ := runs
  rw [found, located] at effect
  refine ⟨later, located, still, ?_⟩
  generalize (step caller.1 caller.2 q).1 = reply at effect
  obtain ⟨op, now⟩ := caller
  cases effect with
  | kept => exact lease
  | claimed => rfl
  | claimedNext => rfl
  | moved called _ _ toState evidence same matched moved =>
      obtain ⟨merged, _, rfl⟩ := moved
      have goesOn : toState = .running := still
      rw [if_pos goesOn]
      exact lease
  | released => cases still

theorem leased_after (wellFormed : q.WellFormed) (leased : q.Leased id) (callers : List Caller)
    (runs : ∀ front back, callers = front ++ back → InState (q.after front).board id .running) :
    (q.after callers).Leased id := by
  induction callers generalizing q with
  | nil => exact leased
  | cons caller rest ih =>
      have next := leased_step wellFormed leased caller (runs [caller] rest rfl)
      apply ih (step_well_formed wellFormed caller.1 caller.2) next
      intro front back shape
      exact runs (caller :: front) back (congrArg (List.cons caller) shape)

theorem leased_by_claim (wellFormed : q.WellFormed) (caller : Caller) {value : caller.1.Result}
    (returned : (step caller.1 caller.2 q).1 = .ok value) (claims : claimedTask caller.1 value = some id) :
    (step caller.1 caller.2 q).2.Leased id := by
  obtain ⟨op, now⟩ := caller
  have spec := step_refines wellFormed op now
  have claimsTask : ∀ stored lease, stored.id = id →
      (step op now q).2.board = q.board.put (Queue.claimed (now + lease) stored) →
      (step op now q).2.Leased id := by
    intro stored lease own put
    refine ⟨Queue.claimed (now + lease) stored, ?_, rfl, rfl⟩
    rw [put, ← own]
    exact board_put_self q.board (Queue.claimed (now + lease) stored)
  cases op with
  | claim task lease =>
      rcases spec with ⟨stored, found, _, replied, put⟩ | ⟨_, replied, _⟩
      · rw [replied] at returned
        cases returned
        exact claimsTask stored lease ((wellFormed.filed _ _ found).trans (Option.some.inj claims)) put
      · rw [replied] at returned
        cases returned
        cases claims
  | claimNext lease =>
      rcases spec with ⟨stored, _, _, _, replied, put⟩ | ⟨_, replied, _⟩
      · rw [replied] at returned
        cases returned
        exact claimsTask stored lease (Option.some.inj claims) put
      · rw [replied] at returned
        cases returned
        cases claims
  | _ => cases claims

theorem transition_declined {task : Task} {toState : TaskState} {evidence : Option Evidence} {error : Exn}
    (raised : (q.transition task toState evidence).1 = .error error) :
    (q.transition task toState evidence).2 = q := by
  unfold transition at raised ⊢
  split at raised
  · rfl
  · split_ifs at raised ⊢
    rfl

theorem enqueue_none_iff (task : Task) (state : TaskState) (now : Instant) :
    (q.enqueue task state now).1 = none ↔
      ((q.byTransport.get task.transportId).isSome || (q.tasks.get task.id).isSome) = true := by
  unfold enqueue
  split_ifs with taken
  · exact ⟨fun _ => taken, fun _ => rfl⟩
  · exact ⟨fun stored => (by cases stored), fun present => absurd present taken⟩

theorem declined_unchanged (caller : Caller)
    (declined : declines caller.1 (step caller.1 caller.2 q).1 = true) :
    (step caller.1 caller.2 q).2 = q := by
  obtain ⟨op, now⟩ := caller
  cases op with
  | enqueue task state =>
      simp only [step, enqueue] at declined ⊢
      split_ifs at declined ⊢
      · rfl
      · cases declined
  | get taskId => rfl
  | list state limit => rfl
  | claim task lease =>
      apply claim_refused
      cases refused : (q.claim task lease now).1 with
      | false => rfl
      | true =>
          simp only [step, refused] at declined
          cases declined
  | claimNext lease =>
      apply claim_next_refused
      cases refused : (q.claimNext lease now).1 with
      | none => rfl
      | some task =>
          simp only [step, refused] at declined
          cases declined
  | transition task toState evidence =>
      cases replied : (q.transition task toState evidence).1 with
      | error error => exact transition_declined replied
      | ok moved =>
          simp only [step, replied] at declined
          cases declined
  | releaseStale limit => cases declined

end Runs

/-- The representation invariant. -/
theorem represents : Represents where
  filed callers id task found := (well_formed_after empty_well_formed callers).filed id task found
  indexed callers := (well_formed_after empty_well_formed callers).indexed
  unique callers id id' task task' found found' same := by
    have indexed := (well_formed_after empty_well_formed callers).indexed
    have first := (indexed task'.transportId id).mpr ⟨task, found, same⟩
    have second := (indexed task'.transportId id').mpr ⟨task', found', rfl⟩
    rw [first] at second
    exact Option.some.inj second
  leased callers := (sound_since_empty callers).leased
  claimed early caller later id value returned claims runs := by
    have wellFormed := well_formed_after empty_well_formed early
    have leased := leased_by_claim wellFormed caller returned claims
    rw [after_append]
    have stays := leased_after (step_well_formed wellFormed caller.1 caller.2) leased later
      fun front back shape => ?_
    · obtain ⟨task, found, _, lease⟩ := stays
      exact ⟨task, found, lease⟩
    · have running := runs front back shape
      rw [after_append] at running
      exact running
  attempts callers := (sound_since_empty callers).attempts
  kept callers later id task found := by
    rw [after_append]
    exact kept_after (well_formed_after empty_well_formed callers) found later
  deduped callers task state now := by
    have taken := taken_iff (well_formed_after empty_well_formed callers) task
    rw [← enqueue_none_iff task state now] at taken
    constructor
    · intro returned
      exact taken.mpr (Except.ok.inj returned)
    · intro found
      exact congrArg Except.ok (taken.mp found)
  unchanged callers caller := declined_unchanged caller

end MemoryQueue

end DearAgent.Queue
