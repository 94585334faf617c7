import DearAgent.Errors

/-!
# The queue port

`QueueOp` lists the calls of the `Queue` protocol. `Spec` says what each call
does to the board, the map from task ids to the tasks a `get` would return;
it is what the callers rely on. A backend is a store together with the proof
that every call does what the specification says, whatever the clock reads.
-/

namespace DearAgent.Queue

open DearAgent.Lib.Text

set_option autoImplicit false

inductive QueueOp
  | enqueue (task : Task) (state : TaskState)
  | get (taskId : Str)
  | list (state : TaskState) (limit : Int)
  | claim (task : Task) (lease : Duration)
  | claimNext (lease : Duration)
  | transition (task : Task) (toState : TaskState) (evidence : Option Evidence)
  | releaseStale (now : Instant)
deriving DecidableEq

@[reducible] def QueueOp.Result : QueueOp → Type
  | .enqueue _ _ => Option Task
  | .get _ => Option Task
  | .list _ _ => List Task
  | .claim _ _ => Bool
  | .claimNext _ => Option Task
  | .transition _ _ _ => Task
  | .releaseStale _ => List Task

abbrev QueueOp.Reply (op : QueueOp) := Except Exn op.Result

abbrev Board := Str → Option Task

def Board.put (board : Board) (task : Task) : Board :=
  fun id => if id = task.id then some task else board id

@[simp] theorem board_put_self (board : Board) (task : Task) :
    board.put task task.id = some task := if_pos rfl

theorem board_put_ne (board : Board) (task : Task) (id : Str) (other : id ≠ task.id) :
    board.put task id = board id := if_neg other

/-- A task with this id or with this transport id is stored. -/
def Taken (board : Board) (task : Task) : Prop :=
  ∃ id stored, board id = some stored ∧ (id = task.id ∨ stored.transportId = task.transportId)

/-- The stored form of a new task: what identifies it is kept, its life starts anew. -/
structure Stores (task : Task) (state : TaskState) (now : Instant) (stored : Task) : Prop where
  id : stored.id = task.id
  transportId : stored.transportId = task.transportId
  threadId : stored.threadId = task.threadId
  sender : stored.sender = task.sender
  subject : stored.subject = task.subject
  state : stored.state = state
  attempts : stored.attempts = 0
  leaseUntil : stored.leaseUntil = none
  createdAt : stored.createdAt = now

def maxLimit : Int := 9223372036854775807

def maxAttempts : Nat := 2 ^ 31 - 1

/-- A task whose lease ran out before `now`. -/
def stale (now : Instant) (task : Task) : Bool :=
  task.state = .running && task.leaseUntil.any fun lease => lease < now

def release (task : Task) : Task :=
  { task with state := .queued, attempts := task.attempts + 1, leaseUntil := none }

def releaseIfStale (now : Instant) (task : Task) : Task :=
  if stale now task then release task else task

def claimed (until_ : Instant) (task : Task) : Task :=
  { task with state := .running, leaseUntil := some until_ }

/-- The task after a transition. How new evidence is merged is left to the backend. -/
def Moved (task : Task) (toState : TaskState) (evidence : Option Evidence) (moved : Task) : Prop :=
  ∃ merged, (evidence = none → merged = task.evidence) ∧
    moved = { task with
      state := toState
      leaseUntil := if toState = .running then task.leaseUntil else none
      evidence := merged }

/-- A page of the tasks in one state, oldest first: whatever is left out is
younger than all of a full page. -/
structure IsPage (board : Board) (state : TaskState) (limit : Int) (page : List Task) : Prop where
  stored : ∀ task ∈ page, board task.id = some task ∧ task.state = state
  ordered : page.Pairwise fun first second => first.createdAt ≤ second.createdAt
  complete : 0 ≤ limit → ∀ id task, board id = some task → task.state = state → task ∈ page ∨
    (limit ≤ page.length ∧ ∀ listed ∈ page, listed.createdAt ≤ task.createdAt)

/-- The effect and the reply of one call on the board, at a clock reading. -/
def Spec (now : Instant) : (op : QueueOp) → Board → op.Reply → Board → Prop
  | .enqueue task state, board, reply, board' =>
      (Taken board task ∧ reply = .ok none ∧ board' = board) ∨
      (¬Taken board task ∧ ∃ stored, Stores task state now stored ∧ reply = .ok (some stored) ∧
        board' = board.put stored)
  | .get id, board, reply, board' => reply = .ok (board id) ∧ board' = board
  | .list state limit, board, reply, board' => board' = board ∧
      ((∃ page, reply = .ok page ∧ IsPage board state limit page) ∨
        ((limit < 0 ∨ maxLimit < limit) ∧
          ∃ error : Exn, reply = .error error ∧ error.isQueueError = false))
  | .claim task lease, board, reply, board' =>
      (∃ stored, board task.id = some stored ∧ stored.state = .queued ∧ reply = .ok true ∧
        board' = board.put (claimed (now + lease) stored)) ∨
      ((∀ stored, board task.id = some stored → stored.state ≠ .queued) ∧ reply = .ok false ∧
        board' = board)
  | .claimNext lease, board, reply, board' =>
      (∃ stored, board stored.id = some stored ∧ stored.state = .queued ∧
        (∀ id other, board id = some other → other.state = .queued →
          stored.createdAt ≤ other.createdAt) ∧
        reply = .ok (some (claimed (now + lease) stored)) ∧
        board' = board.put (claimed (now + lease) stored)) ∨
      ((∀ id stored, board id = some stored → stored.state ≠ .queued) ∧ reply = .ok none ∧
        board' = board)
  | .transition task toState evidence, board, reply, board' =>
      (board task.id = none ∧ reply = .error (.taskNotFound task.id) ∧ board' = board) ∨
      (∃ stored, board task.id = some stored ∧ stored.state ≠ task.state ∧
        reply = .error (.stateConflict task.id task.state stored.state) ∧ board' = board) ∨
      (∃ stored moved, board task.id = some stored ∧ stored.state = task.state ∧
        Moved stored toState evidence moved ∧ reply = .ok moved ∧ board' = board.put moved)
  | .releaseStale limit, board, reply, board' =>
      (∃ released : List Task, reply = .ok released ∧
        board' = (fun id => (board id).map (releaseIfStale limit)) ∧
        ∀ task, task ∈ released ↔
          ∃ id stored, board id = some stored ∧ stale limit stored ∧ task = release stored) ∨
      ((∃ id stored, board id = some stored ∧ stale limit stored ∧ maxAttempts ≤ stored.attempts) ∧
        (∃ error : Exn, reply = .error error ∧ error.isQueueError = false) ∧ board' = board)

theorem transition_moves {now : Instant} {board board' : Board} {task stored : Task}
    {toState : TaskState} {evidence : Option Evidence}
    {reply : QueueOp.Reply (.transition task toState evidence)}
    (spec : Spec now (.transition task toState evidence) board reply board')
    (found : board task.id = some stored) (same : stored.state = task.state) :
    ∃ moved, Moved stored toState evidence moved ∧ reply = .ok moved ∧ board' = board.put moved := by
  rcases spec with ⟨missing, _⟩ | ⟨other, located, differs, _⟩ |
    ⟨other, moved, located, _, move, replied, put⟩
  · cases found.symm.trans missing
  · obtain rfl : stored = other := Option.some.inj (found.symm.trans located)
    exact absurd same differs
  · obtain rfl : stored = other := Option.some.inj (found.symm.trans located)
    exact ⟨moved, move, replied, put⟩

def Board.Filed (board : Board) : Prop := ∀ id task, board id = some task → task.id = id

theorem take_is_page {board : Board} {sorted : List Task} {state : TaskState} {limit : Int}
    {count : Nat} (listed : ∀ task, task ∈ sorted ↔ board task.id = some task ∧ task.state = state)
    (ordered : sorted.Pairwise fun first second => first.createdAt ≤ second.createdAt)
    (filed : board.Filed) (counted : 0 ≤ limit → limit ≤ count) :
    IsPage board state limit (sorted.take count) where
  stored task member := (listed task).mp (List.mem_of_mem_take member)
  ordered := ordered.sublist (List.take_sublist _ _)
  complete := by
    intro positive id task found inState
    have member : task ∈ sorted := by
      rw [listed, filed id task found]
      exact ⟨found, inState⟩
    rw [← List.take_append_drop count sorted] at member ordered
    rcases List.mem_append.mp member with taken | dropped
    · exact .inl taken
    · refine .inr ⟨?_, fun first early =>
        (List.pairwise_append.mp ordered).2.2 first early task dropped⟩
      have remaining : 0 < (sorted.drop count).length := List.length_pos_of_mem dropped
      have enough := counted positive
      rw [List.length_drop] at remaining
      rw [List.length_take]
      omega

structure QueueBackend where
  Store : Type
  board : Store → Board
  filed : ∀ store, (board store).Filed
  step : (op : QueueOp) → Instant → Store → op.Reply × Store
  refines : ∀ op now store,
    Spec now op (board store) (step op now store).1 (board (step op now store).2)

/-- A backend that does not touch its store for a task that is stored already. -/
structure DedupingQueue extends QueueBackend where
  leaves : ∀ task state now store, Taken (board store) task →
    (step (.enqueue task state) now store).2 = store

/-- A backend whose page of queued tasks is told by its store, with no task on it twice. -/
structure PagingQueue extends QueueBackend where
  page : Store → Int → Except Exn (List Task)
  lists : ∀ limit now store, (step (.list .queued limit) now store).1 = page store limit
  distinct : ∀ store limit tasks, page store limit = .ok tasks → (tasks.map Task.id).Nodup

/-- A backend whose reading calls change nothing, and that takes from its clock
only the end of a lease. -/
structure SteadyQueue extends PagingQueue where
  got : ∀ id now store, (step (.get id) now store).2 = store
  listed : ∀ state limit now store, (step (.list state limit) now store).2 = store
  leased : ∀ task lease lease' now now' store, now + lease = now' + lease' →
    step (.claim task lease) now store = step (.claim task lease') now' store

/-!
## What a call does to one task

`Effect` lists everything a call can do to the task under one id, with the
reply that goes with it. Every invariant of the board is read off this list.
-/

/-- The reply says that the call stored, claimed or released the task under this id. -/
def Touches (id : Str) : (op : QueueOp) → op.Reply → Prop
  | .enqueue task _, .ok (some _) => task.id = id
  | .claim task _, .ok true => task.id = id
  | .claimNext _, .ok (some task) => task.id = id
  | .releaseStale _, .ok released => ∃ task ∈ released, task.id = id
  | _, _ => False

inductive Effect (now : Instant) (id : Str) :
    (op : QueueOp) → op.Reply → Option Task → Option Task → Prop
  | kept (op : QueueOp) (reply : op.Reply) (found : Option Task) (untouched : ¬Touches id op reply) :
      Effect now id op reply found found
  | enqueued (task stored : Task) (state : TaskState) (same : task.id = id)
      (stores : Stores task state now stored) :
      Effect now id (.enqueue task state) (.ok (some stored)) none (some stored)
  | claimed (task stored : Task) (lease : Duration) (same : task.id = id)
      (queued : stored.state = .queued) :
      Effect now id (.claim task lease) (.ok true) (some stored)
        (some (claimed (now + lease) stored))
  | claimedNext (stored : Task) (lease : Duration) (same : stored.id = id)
      (queued : stored.state = .queued) :
      Effect now id (.claimNext lease) (.ok (some (Queue.claimed (now + lease) stored)))
        (some stored) (some (Queue.claimed (now + lease) stored))
  | moved (task stored after : Task) (toState : TaskState) (evidence : Option Evidence)
      (same : task.id = id) (matched : stored.state = task.state)
      (moved : Moved stored toState evidence after) :
      Effect now id (.transition task toState evidence) (.ok after) (some stored) (some after)
  | released (limit : Instant) (released : List Task) (stored : Task)
      (expired : stale limit stored = true) (same : stored.id = id)
      (listed : release stored ∈ released) :
      Effect now id (.releaseStale limit) (.ok released) (some stored) (some (release stored))

theorem moved_id {task moved : Task} {toState : TaskState} {evidence : Option Evidence}
    (move : Moved task toState evidence moved) : moved.id = task.id := by
  obtain ⟨merged, _, rfl⟩ := move
  rfl

theorem moved_state {task moved : Task} {toState : TaskState} {evidence : Option Evidence}
    (move : Moved task toState evidence moved) : moved.state = toState := by
  obtain ⟨merged, _, rfl⟩ := move
  rfl

theorem effect_of_error (now : Instant) (id : Str) (op : QueueOp) (error : Exn)
    (found : Option Task) : Effect now id op (.error error) found found :=
  .kept op (.error error) found (by cases op <;> exact not_false)

theorem spec_effect {now : Instant} {op : QueueOp} {board board' : Board} {reply : op.Reply}
    (filed : board.Filed) (spec : Spec now op board reply board') (id : Str) :
    Effect now id op reply (board id) (board' id) := by
  cases op with
  | enqueue task state =>
      rcases spec with ⟨_, rfl, rfl⟩ | ⟨untaken, stored, stores, rfl, rfl⟩
      · exact .kept _ _ _ not_false
      · by_cases same : id = stored.id
        · subst same
          have fresh : board stored.id = none := by
            by_contra present
            obtain ⟨other, found⟩ := Option.ne_none_iff_exists'.mp present
            exact untaken ⟨_, other, found, .inl stores.id⟩
          rw [fresh, board_put_self]
          exact .enqueued task stored state stores.id.symm stores
        · rw [board_put_ne _ _ _ same]
          exact .kept _ _ _ fun touched => same (touched.symm.trans stores.id.symm)
  | get taskId =>
      obtain ⟨_, rfl⟩ := spec
      exact .kept _ _ _ not_false
  | list state limit =>
      obtain ⟨rfl, _⟩ := spec
      exact .kept _ _ _ not_false
  | claim task lease =>
      rcases spec with ⟨stored, found, queued, rfl, rfl⟩ | ⟨_, rfl, rfl⟩
      · have own : stored.id = task.id := filed _ _ found
        by_cases same : id = task.id
        · subst same
          have put : board.put (claimed (now + lease) stored) task.id =
              some (claimed (now + lease) stored) := own ▸ board_put_self _ _
          rw [found, put]
          exact .claimed task stored lease rfl queued
        · have unchanged : board.put (claimed (now + lease) stored) id = board id :=
            board_put_ne _ _ _ fun equal => same (equal.trans own)
          rw [unchanged]
          exact .kept _ _ _ fun touched => same touched.symm
      · exact .kept _ _ _ not_false
  | claimNext lease =>
      rcases spec with ⟨stored, found, queued, _, rfl, rfl⟩ | ⟨_, rfl, rfl⟩
      · by_cases same : id = stored.id
        · subst same
          rw [found, show board.put (claimed (now + lease) stored) stored.id = _ from
            board_put_self _ (claimed (now + lease) stored)]
          exact .claimedNext stored lease rfl queued
        · have unchanged : board.put (claimed (now + lease) stored) id = board id :=
            board_put_ne _ _ _ same
          rw [unchanged]
          exact .kept _ _ _ fun touched => same touched.symm
      · exact .kept _ _ _ not_false
  | transition task toState evidence =>
      rcases spec with ⟨_, rfl, rfl⟩ | ⟨_, _, _, rfl, rfl⟩ | ⟨stored, after, found, matched, move,
          rfl, rfl⟩
      · exact .kept _ _ _ not_false
      · exact .kept _ _ _ not_false
      · have own : after.id = task.id := (moved_id move).trans (filed _ _ found)
        by_cases same : id = task.id
        · subst same
          rw [found, show board.put after task.id = some after from own ▸ board_put_self _ _]
          exact .moved task stored after toState evidence rfl matched move
        · rw [board_put_ne _ _ _ (fun equal => same (equal.trans own))]
          exact .kept _ _ _ not_false
  | releaseStale limit =>
      rcases spec with ⟨released, rfl, rfl, listed⟩ | ⟨_, ⟨error, rfl, _⟩, rfl⟩
      case inr => exact effect_of_error now id _ error _
      change Effect now id _ _ (board id) ((board id).map (releaseIfStale limit))
      have named : ∀ task ∈ released, task.id = id →
          ∃ stored, board id = some stored ∧ stale limit stored = true := by
        rintro task member rfl
        obtain ⟨other, stored, found, expired, rfl⟩ := (listed task).mp member
        have own : other = stored.id := (filed _ _ found).symm
        exact ⟨stored, own ▸ found, expired⟩
      cases found : board id with
      | none =>
          refine .kept _ _ _ ?_
          rintro ⟨task, member, same⟩
          obtain ⟨stored, located, _⟩ := named task member same
          rw [found] at located
          cases located
      | some stored =>
          simp only [Option.map_some, releaseIfStale]
          split_ifs with expired
          · exact .released limit released stored expired (filed _ _ found)
              ((listed _).mpr ⟨id, stored, found, expired, rfl⟩)
          · refine .kept _ _ _ ?_
            rintro ⟨task, member, same⟩
            obtain ⟨other, located, stale⟩ := named task member same
            rw [found] at located
            obtain rfl := Option.some.inj located
            exact expired stale

/-- What identifies a task never changes. -/
structure SameTask (first second : Task) : Prop where
  id : second.id = first.id
  transportId : second.transportId = first.transportId
  threadId : second.threadId = first.threadId
  sender : second.sender = first.sender
  subject : second.subject = first.subject
  createdAt : second.createdAt = first.createdAt
  spec : second.spec = first.spec

theorem SameTask.refl (task : Task) : SameTask task task := ⟨rfl, rfl, rfl, rfl, rfl, rfl, rfl⟩

theorem SameTask.trans {first second third : Task} (early : SameTask first second)
    (late : SameTask second third) : SameTask first third where
  id := late.id.trans early.id
  transportId := late.transportId.trans early.transportId
  threadId := late.threadId.trans early.threadId
  sender := late.sender.trans early.sender
  subject := late.subject.trans early.subject
  createdAt := late.createdAt.trans early.createdAt
  spec := late.spec.trans early.spec

theorem effect_keeps_task {now : Instant} {id : Str} {op : QueueOp} {reply : op.Reply}
    {found found' : Option Task} (effect : Effect now id op reply found found') {task : Task}
    (stored : found = some task) : ∃ task', found' = some task' ∧ SameTask task task' := by
  cases effect with
  | kept => exact ⟨task, stored, .refl task⟩
  | enqueued => cases stored
  | claimed | claimedNext | released =>
      cases stored
      exact ⟨_, rfl, ⟨rfl, rfl, rfl, rfl, rfl, rfl, rfl⟩⟩
  | moved _ _ _ _ _ _ _ move =>
      cases stored
      obtain ⟨merged, _, rfl⟩ := move
      exact ⟨_, rfl, ⟨rfl, rfl, rfl, rfl, rfl, rfl, rfl⟩⟩

end DearAgent.Queue
