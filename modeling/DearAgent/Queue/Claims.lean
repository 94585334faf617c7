import DearAgent.Lib.Replays
import DearAgent.Queue.Memory

/-!
# Concurrent claims

Callers of a queue whose requests are answered one at a time. Each call is a process of
its own, so a worker that makes many calls is many processes; in whatever order their
requests are answered, two claims of one task are never without a requeue between them.
-/

namespace DearAgent.Queue

open DearAgent.Lib.Text DearAgent.Lib.Effects DearAgent.Lib.Interleaving

set_option autoImplicit false

def InState (board : Board) (id : Str) (state : TaskState) : Prop :=
  ∃ stored, board id = some stored ∧ stored.state = state

def claimedTask : (op : QueueOp) → op.Result → Option Str
  | .claim task _, true => some task.id
  | .claimNext _, some task => some task.id
  | _, _ => none

/-- A claim that returned `False` or `None`. -/
def refusesClaim : (op : QueueOp) → op.Result → Bool
  | .claim _ _, false => true
  | .claimNext _, none => true
  | _, _ => false

abbrev Caller := QueueOp × Instant

/-- A queue whose calls are made of requests that are answered one at a time. -/
structure AtomicQueue where
  S : Signature
  Store : Type
  answer : (request : S.Request) → Store → S.Reply request × Store
  call : (caller : Caller) → Program S caller.1.Result
  board : Store → Board
  /-- The task that an exchange claimed. -/
  claimed : Exchange S → Option Str
  takes : ∀ request store id, claimed ⟨request, (answer request store).1⟩ = some id →
    InState (board store) id .queued ∧ InState (board (answer request store).2) id .running
  keeps : ∀ request store id, (board store id).isSome = true →
    (board (answer request store).2 id).isSome = true
  told : ∀ caller trace value id, CameTo (call caller) trace value →
    claimedTask caller.1 value = some id → ∃ event ∈ trace, claimed event = some id
  untouched : ∀ caller trace value, CameTo (call caller) trace value →
    refusesClaim caller.1 value = true →
    ∀ event ∈ trace, ∀ store, (answer event.1 store).1 = event.2 → (answer event.1 store).2 = store

namespace AtomicQueue

variable (Q : AtomicQueue)

def start (caller : Caller) : Program Q.S Unit := dropValue (Q.call caller)

abbrev Calls := History Q.S Caller

/-- The configurations that callers in any number and any order lead to. -/
abbrev Concurrent (store : Q.Store) (c : Config Q.S Caller Q.Store) : Prop :=
  Reachable (answering Q.answer) Q.start store c

def boardAfter (store : Q.Store) (turns : Q.Calls) : Board := Q.board (replay Q.answer store turns)

/-- A turn that puts the task back to the queued ones. -/
def PutsBack (store : Q.Store) (before : Q.Calls) (turn : Entry Q.S Caller) (id : Str) : Prop :=
  (∃ state, state ≠ .queued ∧ InState (Q.boardAfter store before) id state) ∧
    InState (Q.boardAfter store (before ++ [turn])) id .queued

/-- What callers may rely on, however many they are. -/
structure ClaimsExclusive : Prop where
  /-- Between two claims of a task there is a turn that put it back. -/
  requeued : ∀ store c before first middle second after id, Q.Concurrent store c →
    c.history = before ++ first :: (middle ++ second :: after) →
    Q.claimed first.event = some id → Q.claimed second.event = some id →
    ∃ front turn back, middle = front ++ turn :: back ∧
      Q.PutsBack store (before ++ first :: front) turn id
  /-- So the task did not run from the one to the other. -/
  periods : ∀ store c before first middle second after id, Q.Concurrent store c →
    c.history = before ++ first :: (middle ++ second :: after) →
    Q.claimed first.event = some id → Q.claimed second.event = some id →
    ∃ front back, middle = front ++ back ∧
      ¬InState (Q.boardAfter store (before ++ first :: front)) id .running
  /-- A call that returned a task, or `True`, claimed a task that was queued. -/
  queued : ∀ store c pid caller value id, Q.Concurrent store c →
    ReturnedFrom Q.call c pid caller value → claimedTask caller.1 value = some id →
    ∃ before claim after, c.history = before ++ claim :: after ∧ claim.pid = pid ∧
      Q.claimed claim.event = some id ∧ InState (Q.boardAfter store before) id .queued
  /-- A call that returned `False` or `None` changed nothing. -/
  unchanged : ∀ store c pid caller value, Q.Concurrent store c →
    ReturnedFrom Q.call c pid caller value → refusesClaim caller.1 value = true →
    ∀ before turn after, c.history = before ++ turn :: after → turn.pid = pid →
      replay Q.answer store (before ++ [turn]) = replay Q.answer store before

variable {Q}

theorem claim_takes {store : Q.Store} {history before after : Q.Calls} {claim : Entry Q.S Caller}
    {id : Str} (replayed : Replayed Q.answer store history)
    (split : history = before ++ claim :: after) (claims : Q.claimed claim.event = some id) :
    InState (Q.boardAfter store before) id .queued ∧
      InState (Q.boardAfter store (before ++ [claim])) id .running := by
  have answered := replayed before claim after split
  have told : Q.claimed ⟨claim.event.1, (Q.answer claim.event.1 (replay Q.answer store before)).1⟩ =
      some id := by
    rw [answered]
    exact claims
  unfold boardAfter
  rw [replay_append]
  exact Q.takes _ _ _ told

theorem state_unique {board : Board} {id : Str} {state other : TaskState}
    (first : InState board id state) (second : InState board id other) : state = other := by
  obtain ⟨stored, found, rfl⟩ := first
  obtain ⟨again, located, rfl⟩ := second
  rw [found] at located
  rw [Option.some.inj located]

theorem requeue_between {store : Q.Store} {c : Config Q.S Caller Q.Store}
    {before middle after : Q.Calls} {first second : Entry Q.S Caller} {id : Str}
    (reachable : Q.Concurrent store c)
    (split : c.history = before ++ first :: (middle ++ second :: after))
    (firstClaims : Q.claimed first.event = some id) (secondClaims : Q.claimed second.event = some id) :
    ∃ front turn back, middle = front ++ turn :: back ∧
      Q.PutsBack store (before ++ first :: front) turn id := by
  have replayed := (reachable_replayed reachable).2
  have running := (claim_takes replayed split firstClaims).2
  have split' : c.history = (before ++ [first] ++ middle) ++ second :: after := by
    rw [split, List.append_assoc, List.append_assoc]
    rfl
  have queued := (claim_takes replayed split' secondClaims).1
  unfold boardAfter at running queued
  rw [replay_append] at queued
  have unqueued : ¬InState (Q.board (replay Q.answer store (before ++ [first]))) id .queued := by
    intro both
    cases state_unique running both
  obtain ⟨front, turn, back, shape, earlier, later⟩ :=
    turning_point (P := fun s => InState (Q.board s) id .queued) unqueued queued
  refine ⟨front, turn, back, shape, ?_, ?_⟩
  · obtain ⟨claimed, present, _⟩ := running
    have still : (Q.board (replay Q.answer (replay Q.answer store (before ++ [first])) front)
        id).isSome = true := by
      apply replay_keeps (P := fun s => (Q.board s id).isSome = true) (fun _ _ => Q.keeps _ _ id)
      rw [present]
      rfl
    obtain ⟨stored, found⟩ := Option.isSome_iff_exists.mp still
    refine ⟨stored.state, fun same => earlier ⟨stored, found, same⟩, ?_⟩
    unfold boardAfter
    rw [List.append_cons before first front, replay_append]
    exact ⟨stored, found, rfl⟩
  · unfold boardAfter
    rw [List.append_assoc, List.cons_append, List.append_cons before first, replay_append]
    exact later

theorem turn_among {c : Config Q.S Caller Q.Store} {pid : Nat} {before after : Q.Calls}
    {turn : Entry Q.S Caller} (split : c.history = before ++ turn :: after) (same : turn.pid = pid) :
    turn.event ∈ own c.history pid := by
  subst same
  apply mem_own_of_mem
  rw [split]
  exact List.mem_append_right _ List.mem_cons_self

theorem claims_exclusive (Q : AtomicQueue) : Q.ClaimsExclusive where
  requeued _ _ _ _ _ _ _ _ reachable split first second :=
    requeue_between reachable split first second
  periods store c before first middle second after id reachable split firstClaims secondClaims := by
    obtain ⟨front, turn, back, rfl, _, queued⟩ :=
      requeue_between reachable split firstClaims secondClaims
    refine ⟨front ++ [turn], back, by rw [List.append_assoc]; rfl, ?_⟩
    intro running
    rw [← List.cons_append, ← List.append_assoc] at running
    cases state_unique running queued
  queued store c pid caller value id reachable returned claimed := by
    obtain ⟨event, member, claims⟩ := Q.told caller _ value id returned.2 claimed
    obtain ⟨before, claim, after, split, same, rfl⟩ := own_turn member
    have replayed := (reachable_replayed reachable).2
    exact ⟨before, claim, after, split, same, claims, (claim_takes replayed split claims).1⟩
  unchanged store c pid caller value reachable returned refuses before turn after split same := by
    have answered := (reachable_replayed reachable).2 before turn after split
    rw [replay_append]
    exact Q.untouched caller _ value returned.2 refuses turn.event (turn_among split same) _ answered

end AtomicQueue

/-!
## The memory queue
-/

section Specified

variable {now : Instant} {op : QueueOp} {board board' : Board} {reply : op.Reply} {id : Str}

theorem spec_takes {value : op.Result} (filed : board.Filed)
    (spec : Spec now op board (.ok value) board') (claims : claimedTask op value = some id) :
    InState board id .queued ∧ InState board' id .running := by
  cases op with
  | claim task lease =>
      rcases spec with ⟨stored, found, queued, replied, rfl⟩ | ⟨_, replied, _⟩
      · cases replied
        obtain rfl := Option.some.inj claims
        have own : stored.id = task.id := filed _ _ found
        refine ⟨⟨stored, found, queued⟩, claimed (now + lease) stored, ?_, rfl⟩
        rw [← own]
        exact board_put_self board (claimed (now + lease) stored)
      · cases replied
        cases claims
  | claimNext lease =>
      rcases spec with ⟨stored, found, queued, _, replied, rfl⟩ | ⟨_, replied, _⟩
      · cases replied
        obtain rfl := Option.some.inj claims
        exact ⟨⟨stored, found, queued⟩, _, board_put_self _ _, rfl⟩
      · cases replied
        cases claims
  | _ => cases claims

theorem spec_keeps (filed : board.Filed) (spec : Spec now op board reply board')
    (present : (board id).isSome = true) : (board' id).isSome = true := by
  have effect := spec_effect filed spec id
  generalize board id = found at effect present
  generalize board' id = later at effect ⊢
  cases effect with
  | kept => exact present
  | _ => rfl

end Specified

namespace MemoryQueue

@[reducible] def calls : Signature where
  Request := Caller
  Reply caller := caller.1.Reply
  Raised := Exn

def call (caller : Caller) : Program calls caller.1.Result :=
  .ask caller (@unwrap calls _)

def claimedIn : Exchange calls → Option Str
  | ⟨(op, _), .ok value⟩ => claimedTask op value
  | ⟨_, .error _⟩ => none

theorem came_to_call {caller : Caller} {trace : List (Exchange calls)} {value : caller.1.Result}
    (came : CameTo (call caller) trace value) : trace = [⟨caller, .ok value⟩] := by
  obtain ⟨reply, _, rest, _, rfl, ended⟩ := came
  cases reply with
  | error error => cases ended.2.1
  | ok returned =>
      obtain ⟨rfl, same, _⟩ := ended
      rw [Except.ok.inj same]

theorem claim_refused {q : MemoryQueue} {task : Task} {lease : Duration} {now : Instant}
    (refused : (q.claim task lease now).1 = false) : (q.claim task lease now).2 = q := by
  unfold claim at refused ⊢
  split at refused
  · rfl
  · split_ifs at refused ⊢
    rfl

theorem claim_next_refused {q : MemoryQueue} {lease : Duration} {now : Instant}
    (refused : (q.claimNext lease now).1 = none) : (q.claimNext lease now).2 = q := by
  unfold claimNext at refused ⊢
  split at refused
  · rfl
  · cases refused

def atomic : AtomicQueue where
  S := calls
  Store := backend.Store
  answer caller store := backend.step caller.1 caller.2 store
  call := call
  board := backend.board
  claimed := claimedIn
  takes caller store id claims := by
    obtain ⟨op, now⟩ := caller
    have spec := backend.refines op now store
    cases replied : (backend.step op now store).1 with
    | error error =>
        rw [replied] at claims
        cases claims
    | ok value =>
        rw [replied] at claims spec
        exact spec_takes (backend.filed store) spec claims
  keeps caller store id present :=
    spec_keeps (backend.filed store) (backend.refines caller.1 caller.2 store) present
  told caller trace value id came claims := by
    rw [came_to_call came]
    exact ⟨_, List.mem_singleton_self _, claims⟩
  untouched caller trace value came refuses event member store answered := by
    rw [came_to_call came] at member
    obtain rfl := List.mem_singleton.mp member
    obtain ⟨op, now⟩ := caller
    cases op with
    | claim task lease =>
        cases value with
        | true => cases refuses
        | false => exact Subtype.ext (claim_refused (Except.ok.inj answered))
    | claimNext lease =>
        cases value with
        | some task => cases refuses
        | none => exact Subtype.ext (claim_next_refused (Except.ok.inj answered))
    | _ => cases refuses

end MemoryQueue

end DearAgent.Queue
