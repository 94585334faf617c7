import DearAgent.Lib.Balances
import DearAgent.Lib.Text

/-!
# The slots of the HTTP server

`_DearAgentHTTPServer` takes a slot of a bounded semaphore before it starts a thread for a
connection, and the thread gives the slot back. The accept loop and the threads take turns in
any order, threads can fail to start, and handling or shutting down a connection can raise.
-/

namespace DearAgent.HttpServer.Slots

open DearAgent.Lib.Effects DearAgent.Lib.Interleaving DearAgent.Lib.Text

set_option autoImplicit false

/-- A connection, by the number of connections accepted before it. -/
abbrev Socket := Nat

/-- An exception of a class under `Exception`, or only under `BaseException`. -/
inductive Raised
  | exception (text : Str)
  | base (text : Str)
deriving DecidableEq

def isException : Raised → Bool
  | .exception _ => true
  | .base _ => false

inductive Request
  | getRequest
  | acquire
  | release
  | startThread (request : Socket)
  | begin (request : Socket)
  | finishRequest (request : Socket)
  | shutdownRequest (request : Socket)
deriving DecidableEq

/-- The calls of the server into sockets, threads and the semaphore. -/
@[reducible] def signature : Signature where
  Request := Request
  Reply
    | .getRequest => Option Socket
    | .acquire | .begin _ => Unit
    | .release | .startThread _ | .finishRequest _ | .shutdownRequest _ => Except Raised Unit
  Raised := Raised

abbrev Server := Program signature Unit

def acquire : Server := .ask .acquire .ret

def release : Server := .ask .release (@unwrap signature _)

def startThread (socket : Socket) : Server := .ask (.startThread socket) (@unwrap signature _)

def finishRequest (socket : Socket) : Server := .ask (.finishRequest socket) (@unwrap signature _)

def shutdownRequest (socket : Socket) : Server :=
  .ask (.shutdownRequest socket) (@unwrap signature _)

/-- The override of `handle_error` prints nothing and returns. -/
def handleError (_socket : Socket) : Server := pure ()

/-- `ThreadingMixIn.process_request_thread`. -/
def superProcessRequestThread (socket : Socket) : Server :=
  andFinally (exceptWhere isException (finishRequest socket) fun _ => handleError socket)
    (shutdownRequest socket)

def processRequestThread (socket : Socket) : Server :=
  andFinally (superProcessRequestThread socket) release

/-- `ThreadingMixIn.process_request`. -/
def superProcessRequest (socket : Socket) : Server := startThread socket

def processRequest (socket : Socket) : Server := do
  acquire
  catchWith (superProcessRequest socket) fun error => do
    release
    .raise error

/-- The `except` clauses of `_handle_request_noblock`. -/
def giveUp (socket : Socket) (error : Raised) : Server :=
  if isException error then do
    handleError socket
    shutdownRequest socket
  else do
    shutdownRequest socket
    .raise error

/-- `BaseServer._handle_request_noblock`; the server verifies every request. -/
def handleRequestNoblock : Server :=
  .ask .getRequest fun
  | none => pure ()
  | some socket => catchWith (processRequest socket) (giveUp socket)

/-- `BaseServer.serve_forever`, for some number of rounds of its loop. -/
def serveForever : Nat → Server
  | 0 => pure ()
  | rounds + 1 => do
      handleRequestNoblock
      serveForever rounds

inductive Operation
  | serve (rounds : Nat)
  | thread (request : Socket)
deriving DecidableEq

def start : Operation → Server
  | .serve rounds => serveForever rounds
  | .thread socket => .ask (.begin socket) fun _ => processRequestThread socket

/-- The semaphore, the threads that were started and have not run yet, how many connections were
accepted, and those that were shut down. -/
structure Pool where
  free : Nat
  spawned : List Socket
  accepted : Nat
  closed : List Socket
deriving DecidableEq

def Pool.fresh (maxWorkers : Nat) : Pool := ⟨maxWorkers, [], 0, []⟩

def tooManyReleases : Raised := .exception "Semaphore released too many times".toList

/-- What the calls can answer. A call of `acquire` waits for a free slot, a thread begins once,
after it was started. -/
def surroundings (maxWorkers : Nat) : Env signature Pool
  | .getRequest, pool, reply, after =>
      (reply = none ∧ after = pool) ∨
        (reply = some pool.accepted ∧ after = { pool with accepted := pool.accepted + 1 })
  | .acquire, pool, _, after => 0 < pool.free ∧ after = { pool with free := pool.free - 1 }
  | .release, pool, reply, after =>
      (pool.free < maxWorkers ∧ reply = .ok () ∧ after = { pool with free := pool.free + 1 }) ∨
        (maxWorkers ≤ pool.free ∧ reply = .error tooManyReleases ∧ after = pool)
  | .startThread socket, pool, reply, after =>
      (reply = .ok () ∧ after = { pool with spawned := socket :: pool.spawned }) ∨
        ((∃ error, reply = .error error) ∧ after = pool)
  | .begin socket, pool, _, after =>
      socket ∈ pool.spawned ∧ after = { pool with spawned := pool.spawned.erase socket }
  | .finishRequest _, pool, _, after => after = pool
  | .shutdownRequest socket, pool, _, after => after = { pool with closed := socket :: pool.closed }

/-!
## What a process holds
-/

/-- The slot a process gets or gives away. A release that raises counts too. -/
def slot : Exchange signature → Int
  | ⟨.acquire, _⟩ => 1
  | ⟨.begin _, _⟩ => 1
  | ⟨.release, _⟩ => -1
  | ⟨.startThread _, .ok _⟩ => -1
  | _ => 0

def owed (socket other : Nat) : Int := if other = socket then 1 else 0

/-- The duty to shut one connection down, as a process gets it and is rid of it. -/
def duty (socket : Socket) : Exchange signature → Int
  | ⟨.getRequest, some other⟩ => owed socket other
  | ⟨.begin other, _⟩ => owed socket other
  | ⟨.startThread other, .ok _⟩ => -owed socket other
  | ⟨.shutdownRequest other, _⟩ => -owed socket other
  | _ => 0

/-- The requests for which a process needs a slot. -/
def needsSlot : Request → Prop
  | .release | .startThread _ | .finishRequest _ => True
  | _ => False

/-- The requests that are only made by the process that has to shut the connection down. -/
def needsDuty (socket : Socket) : Request → Prop
  | .startThread other | .finishRequest other | .shutdownRequest other => other = socket
  | _ => False

section Programs

variable {weight : Exchange signature → Int} {honest : Exchange signature → Prop}
  {needs : Request → Prop} {held rest : Int} {socket : Socket}

theorem shutdown_moves (may : affords needs held (.shutdownRequest socket))
    (each : ∀ reply, held + weight ⟨.shutdownRequest socket, reply⟩ = rest) :
    Moves weight honest needs (shutdownRequest socket) held rest := by
  apply Meets.counted may
  intro reply _
  rw [each reply]
  exact moves_unwrap (S := signature) reply

theorem release_moves (may : affords needs held .release)
    (each : ∀ reply, held + weight ⟨.release, reply⟩ = rest) :
    Moves weight honest needs release held rest := by
  apply Meets.counted may
  intro reply _
  rw [each reply]
  exact moves_unwrap (S := signature) reply

/-- A thread that began: it handles the connection, shuts it down and gives the slot back, each
once and whatever raises. -/
theorem thread_moves {open_ : Int} (finish : affords needs open_ (.finishRequest socket))
    (finished : ∀ reply, open_ + weight ⟨.finishRequest socket, reply⟩ = open_)
    (shut : affords needs open_ (.shutdownRequest socket))
    (shutting : ∀ reply, open_ + weight ⟨.shutdownRequest socket, reply⟩ = held)
    (free : affords needs held .release) (freed : ∀ reply, held + weight ⟨.release, reply⟩ = rest) :
    Moves weight honest needs (processRequestThread socket) open_ rest := by
  have handled : Moves weight honest needs (finishRequest socket) open_ open_ := by
    apply Meets.counted finish
    intro reply _
    rw [finished reply]
    exact moves_unwrap (S := signature) reply
  have caught : Moves weight honest needs
      (exceptWhere isException (finishRequest socket) fun _ => handleError socket) open_ open_ := by
    apply Moves.catch handled
    intro error
    split_ifs
    · exact rfl
    · exact rfl
  exact (caught.finally (shutdown_moves shut shutting)).finally (release_moves free freed)

theorem give_up_moves (shut : affords needs held (.shutdownRequest socket))
    (shutting : ∀ reply, held + weight ⟨.shutdownRequest socket, reply⟩ = rest) (error : Raised) :
    Moves weight honest needs (giveUp socket error) held rest := by
  unfold giveUp
  split_ifs
  · exact shutdown_moves shut shutting
  · exact (shutdown_moves shut shutting).seq fun _ => rfl

end Programs

theorem process_request_slot (socket : Socket) :
    Moves slot (fun _ => True) needsSlot (processRequest socket) 0 0 := by
  apply Meets.counted (affords_none id)
  intro _ _
  apply Meets.counted affords_one
  intro started _
  cases started with
  | ok value => exact rfl
  | error error =>
      apply Meets.counted affords_one
      intro released _
      cases released <;> exact rfl

theorem thread_slot (socket : Socket) :
    Borrows slot (fun _ => True) needsSlot (start (.thread socket)) := by
  unfold Borrows Moves start
  apply Meets.counted (affords_none id)
  intro _ _
  exact thread_moves affords_one (fun _ => rfl) affords_one (fun _ => rfl) affords_one fun _ => rfl

theorem serve_slot (rounds : Nat) :
    Borrows slot (fun _ => True) needsSlot (start (.serve rounds)) := by
  induction rounds with
  | zero => exact rfl
  | succ rounds ih =>
      apply Moves.seq _ fun _ => ih
      apply Meets.counted (affords_none id)
      intro accepted _
      cases accepted with
      | none => exact rfl
      | some socket =>
          exact (process_request_slot socket).catch fun error =>
            give_up_moves (affords_none id) (fun _ => rfl) error

theorem affords_owed {socket other : Socket} {request : Request}
    (only : needsDuty socket request → other = socket) :
    affords (needsDuty socket) (owed socket other) request := by
  unfold owed
  split_ifs with same
  · exact affords_one
  · exact affords_none fun need => same (only need)

theorem process_request_duty (socket other : Socket) :
    Meets (counting (duty socket) fun _ => True) (affords (needsDuty socket)) (processRequest other)
      (owed socket other)
      fun held outcome => held = if outcome.isOk then 0 else owed socket other := by
  apply Meets.counted (affords_owed False.elim)
  intro acquired _
  rw [show owed socket other + duty socket ⟨.acquire, acquired⟩ = owed socket other from add_zero _]
  apply Meets.counted (affords_owed id)
  intro started _
  cases started with
  | ok value => exact add_neg_cancel _
  | error error =>
      rw [show owed socket other + duty socket ⟨.startThread other, .error error⟩ =
        owed socket other from add_zero _]
      apply Meets.counted (affords_owed False.elim)
      intro released _
      cases released <;> exact add_zero _

theorem thread_duty (socket other : Socket) :
    Borrows (duty socket) (fun _ => True) (needsDuty socket) (start (.thread other)) := by
  unfold Borrows Moves start
  apply Meets.counted (affords_none id)
  intro begun _
  rw [show 0 + duty socket ⟨.begin other, begun⟩ = owed socket other from zero_add _]
  exact thread_moves (affords_owed id) (fun _ => add_zero _) (affords_owed id)
    (fun _ => add_neg_cancel _) (affords_none id) fun _ => rfl

theorem serve_duty (socket : Socket) (rounds : Nat) :
    Borrows (duty socket) (fun _ => True) (needsDuty socket) (start (.serve rounds)) := by
  induction rounds with
  | zero => exact rfl
  | succ rounds ih =>
      apply Moves.seq _ fun _ => ih
      apply Meets.counted (affords_none id)
      intro accepted _
      cases accepted with
      | none => exact rfl
      | some other =>
          apply (meets_catch _ _ _ _).mpr
          rw [show 0 + duty socket ⟨.getRequest, some other⟩ = owed socket other from zero_add _]
          apply Meets.post (process_request_duty socket other)
          intro held outcome same
          cases outcome with
          | ok value => exact same
          | error error =>
              rw [same]
              exact give_up_moves (affords_owed id) (fun _ => add_neg_cancel _) error

theorem start_slot : ∀ operation, Borrows slot (fun _ => True) needsSlot (start operation)
  | .serve rounds => serve_slot rounds
  | .thread socket => thread_slot socket

theorem start_duty (socket : Socket) :
    ∀ operation, Borrows (duty socket) (fun _ => True) (needsDuty socket) (start operation)
  | .serve rounds => serve_duty socket rounds
  | .thread other => thread_duty socket other

/-!
## What the pool holds
-/

/-- The slots that are free or with a thread that has not run yet. -/
def slots (pool : Pool) : Int := pool.free + pool.spawned.length

/-- How often a connection is still to come, waits for its thread, or was shut down. -/
def places (socket : Socket) (pool : Pool) : Int :=
  (if pool.accepted ≤ socket then 1 else 0) + pool.spawned.count socket + pool.closed.count socket

def calm (maxWorkers : Nat) : Env signature Pool :=
  fun request pool reply after => surroundings maxWorkers request pool reply after ∧
    ∀ error, (⟨request, reply⟩ : Exchange signature) ≠ ⟨.release, .error error⟩

theorem slots_moved {maxWorkers : Nat} (request : Request) (pool : Pool)
    (reply : signature.Reply request) (after : Pool)
    (answered : calm maxWorkers request pool reply after) :
    slots after + slot ⟨request, reply⟩ = slots pool := by
  have ⟨moved, quiet⟩ := answered
  cases request with
  | getRequest =>
      cases moved with
      | inl same => rw [same.2]; exact add_zero _
      | inr taken => rw [taken.2]; exact add_zero _
  | acquire =>
      rw [moved.2]
      simp only [slots, slot]
      have positive := moved.1
      omega
  | release =>
      cases moved with
      | inl freed =>
          rw [freed.2.2]
          simp only [slots, slot]
          omega
      | inr refused => exact absurd (by rw [refused.2.1]) (quiet tooManyReleases)
  | startThread socket =>
      cases moved with
      | inl started =>
          have ⟨told, grown⟩ := started
          subst told grown
          simp only [slots, slot, List.length_cons]
          omega
      | inr failed =>
          have ⟨⟨error, told⟩, same⟩ := failed
          subst told same
          exact add_zero _
  | begin socket =>
      have ⟨waiting, taken⟩ := moved
      have shorter := List.length_erase_of_mem waiting
      have positive := List.length_pos_of_mem waiting
      subst taken
      simp only [slots, slot]
      omega
  | finishRequest socket =>
      rw [show after = pool from moved]
      exact add_zero _
  | shutdownRequest socket =>
      rw [show after = _ from moved]
      exact add_zero _

theorem places_moved {maxWorkers : Nat} (socket : Socket) (request : Request) (pool : Pool)
    (reply : signature.Reply request) (after : Pool)
    (answered : calm maxWorkers request pool reply after) :
    places socket after + duty socket ⟨request, reply⟩ = places socket pool := by
  have ⟨moved, _⟩ := answered
  cases request with
  | getRequest =>
      cases moved with
      | inl same =>
          rw [same.1, same.2]
          exact add_zero _
      | inr taken =>
          rw [taken.1, taken.2]
          simp only [places, duty, owed]
          split_ifs <;> omega
  | acquire =>
      rw [moved.2]
      exact add_zero _
  | release =>
      cases moved with
      | inl freed =>
          rw [freed.2.2]
          exact add_zero _
      | inr refused =>
          rw [refused.2.2]
          exact add_zero _
  | startThread other =>
      cases moved with
      | inl started =>
          have ⟨told, grown⟩ := started
          subst told grown
          simp only [places, duty, owed, List.count_cons, beq_iff_eq]
          split_ifs <;> omega
      | inr failed =>
          have ⟨⟨error, told⟩, same⟩ := failed
          subst told same
          exact add_zero _
  | begin other =>
      have ⟨waiting, taken⟩ := moved
      have some := List.count_pos_iff.mpr waiting
      subst taken
      by_cases same : other = socket
      · subst same
        simp only [places, duty, owed, List.count_erase_self, if_true]
        omega
      · simp only [places, duty, owed, List.count_erase_of_ne (Ne.symm same), if_neg same]
        omega
  | finishRequest other =>
      rw [show after = pool from moved]
      exact add_zero _
  | shutdownRequest other =>
      rw [show after = _ from moved]
      simp only [places, duty, owed, List.count_cons, beq_iff_eq]
      split_ifs <;> omega

/-!
## Runs of the server
-/

section Runs

variable {maxWorkers : Nat} {c : Config signature Operation Pool}

theorem calm_truthful : ∀ request pool reply after, calm maxWorkers request pool reply after →
    (fun _ : Exchange signature => True) ⟨request, reply⟩ :=
  fun _ _ _ _ _ => trivial

theorem release_returns (reachable : Reachable (calm maxWorkers) start (Pool.fresh maxWorkers) c)
    {pid : Nat} {operation : Operation} {next : signature.Reply .release → Server}
    (scheduled : c.processes[pid]? = some ⟨operation, .ask .release next⟩) :
    c.shared.free < maxWorkers := by
  have total := stock_and_holders calm_truthful start_slot reachable slots_moved
  have held := holds_where_needed calm_truthful start_slot reachable scheduled trivial
  have positive := Finset.card_pos.mpr ⟨pid, held⟩
  simp only [slots, Pool.fresh, List.length_nil] at total
  omega

theorem calm_reachable
    (reachable : Reachable (surroundings maxWorkers) start (Pool.fresh maxWorkers) c) :
    Reachable (calm maxWorkers) start (Pool.fresh maxWorkers) c := by
  induction reachable with
  | refl => exact .refl
  | @tail c d _ step ih =>
      apply ih.tail
      cases step with
      | launch operation => exact .launch c operation
      | act entry next after scheduled answered admitted =>
          have quiet : ∀ error, entry.event ≠ ⟨.release, .error error⟩ := by
            intro error same
            have ⟨pid, operation, event⟩ := entry
            subst same
            have room := release_returns ih scheduled
            cases answered with
            | inl freed => cases freed.2.1
            | inr refused => exact absurd refused.1 (not_le.mpr room)
          exact .act c entry next after scheduled ⟨answered, quiet⟩ trivial

def isHandling : Request → Bool
  | .finishRequest _ => true
  | _ => false

def handling (c : Config signature Operation Pool) : Finset Nat :=
  (Finset.range c.processes.length).filter fun pid => (c.asks pid).any fun asked => isHandling asked.2

/-- What the semaphore is for: no slot is lost or given back twice, and no connection is handled
twice, handled when it is already shut down, or left open. -/
structure Bounded (maxWorkers : Nat) (c : Config signature Operation Pool) : Prop where
  slots : c.shared.free + c.shared.spawned.length + (holders slot c).card = maxWorkers
  handlers : (handling c).card ≤ maxWorkers
  released : ∀ entry ∈ c.history, ∀ error, entry.event ≠ ⟨.release, .error error⟩
  once : c.shared.closed.Nodup
  handled : ∀ pid operation socket, c.asks pid = some (operation, .finishRequest socket) →
    socket ∉ c.shared.closed ∧
      ∀ pid' operation', c.asks pid' = some (operation', .finishRequest socket) → pid' = pid
  settled : (∀ process ∈ c.processes, process.outcome ≠ none) → c.shared.spawned = [] →
    c.shared.free = maxWorkers ∧ ∀ socket : Nat, socket ∈ c.shared.closed ↔ socket < c.shared.accepted

variable (reachable : Reachable (calm maxWorkers) start (Pool.fresh maxWorkers) c)

include reachable

/-- Every connection is in one place, or with the one process that has to shut it down. -/
theorem places_and_holders (socket : Socket) :
    places socket c.shared + (holders (duty socket) c).card = 1 := by
  have total := stock_and_holders calm_truthful (start_duty socket) reachable (places_moved socket)
  rw [total]
  simp [places, Pool.fresh]

theorem slots_and_holders :
    c.shared.free + c.shared.spawned.length + (holders slot c).card = maxWorkers := by
  have total := stock_and_holders calm_truthful start_slot reachable slots_moved
  simp only [slots, Pool.fresh, List.length_nil] at total
  omega

theorem handling_holds : handling c ⊆ holders slot c := by
  intro pid member
  have ⟨_, asking⟩ := Finset.mem_filter.mp member
  have ⟨⟨operation, asked⟩, found, handled⟩ := (Option.any_eq_true _ _).mp asking
  have ⟨_, scheduled⟩ := Config.asks_scheduled found
  apply holds_where_needed calm_truthful start_slot reachable scheduled
  cases asked with
  | finishRequest socket => exact trivial
  | _ => cases handled

theorem handled_held {pid : Nat} {operation : Operation} {socket : Socket}
    (asks : c.asks pid = some (operation, .finishRequest socket)) :
    pid ∈ holders (duty socket) c := by
  have ⟨_, scheduled⟩ := Config.asks_scheduled asks
  exact holds_where_needed calm_truthful (start_duty socket) reachable scheduled rfl

theorem release_never_raises :
    ∀ entry ∈ c.history, ∀ error, entry.event ≠ ⟨.release, .error error⟩ := by
  intro entry member
  have ⟨before, after, split⟩ := List.append_of_mem member
  have ⟨_, _, _, _, _, _, answered, _⟩ := reachable_before reachable split
  exact answered.2

theorem closed_once : c.shared.closed.Nodup := by
  apply List.nodup_iff_count_le_one.mpr
  intro socket
  have total := places_and_holders reachable socket
  unfold places at total
  split_ifs at total <;> omega

theorem all_settled (ended : ∀ process ∈ c.processes, process.outcome ≠ none)
    (begun : c.shared.spawned = []) (socket : Nat) :
    socket ∈ c.shared.closed ↔ socket < c.shared.accepted := by
  have total := stock_restored calm_truthful (start_duty socket) reachable (places_moved socket) ended
  have first : places socket (Pool.fresh maxWorkers) = 1 := by simp [places, Pool.fresh]
  rw [first] at total
  simp only [places, begun, List.count_nil, Nat.cast_zero, add_zero] at total
  rw [← List.count_pos_iff]
  split_ifs at total with later
  · constructor <;> intro <;> omega
  · constructor <;> intro <;> omega

end Runs

/-- However the accept loop and the threads take turns, and whatever fails, at most `max_workers`
connections are handled at a time, every connection is shut down once, and no slot leaks. -/
theorem slots_never_leak {maxWorkers : Nat} {c : Config signature Operation Pool}
    (run : Reachable (surroundings maxWorkers) start (Pool.fresh maxWorkers) c) :
    Bounded maxWorkers c := by
  have reachable := calm_reachable run
  have total := slots_and_holders reachable
  have handlers := Finset.card_le_card (handling_holds reachable)
  constructor
  · exact total
  · omega
  · exact release_never_raises reachable
  · exact closed_once reachable
  · intro pid operation socket asks
    have held := handled_held reachable asks
    have place := places_and_holders reachable socket
    have some := Finset.card_pos.mpr ⟨pid, held⟩
    unfold places at place
    constructor
    · intro closed
      have shut := List.count_pos_iff.mpr closed
      split_ifs at place <;> omega
    · intro pid' operation' asks'
      have single : (holders (duty socket) c).card ≤ 1 := by
        split_ifs at place <;> omega
      exact Finset.card_le_one.mp single pid' (handled_held reachable asks') pid held
  · intro ended begun
    have restored := stock_restored calm_truthful start_slot reachable slots_moved ended
    constructor
    · simp only [slots, begun, Pool.fresh, List.length_nil] at restored
      omega
    · exact all_settled reachable ended begun

/-- Surroundings that answer as soon as they can: a new connection each time, a thread that
cannot be started for the first one, and every handler raises. -/
def answer (maxWorkers : Nat) : (request : Request) → Pool → signature.Reply request × Pool
  | .getRequest, pool => (some pool.accepted, { pool with accepted := pool.accepted + 1 })
  | .acquire, pool => ((), { pool with free := pool.free - 1 })
  | .release, pool =>
      if pool.free < maxWorkers then (.ok (), { pool with free := pool.free + 1 })
      else (.error tooManyReleases, pool)
  | .startThread socket, pool =>
      if socket = 0 then (.error (.exception "can't start new thread".toList), pool)
      else (.ok (), { pool with spawned := socket :: pool.spawned })
  | .begin socket, pool => ((), { pool with spawned := pool.spawned.erase socket })
  | .finishRequest _, pool => (.error (.exception "timed out".toList), pool)
  | .shutdownRequest socket, pool => (.ok (), { pool with closed := socket :: pool.closed })

def ready : Request → Pool → Bool
  | .acquire, pool => decide (0 < pool.free)
  | .begin socket, pool => decide (socket ∈ pool.spawned)
  | _, _ => true

theorem answer_ready {maxWorkers : Nat} (request : Request) (pool : Pool)
    (waits : ready request pool = true) :
    surroundings maxWorkers request pool (answer maxWorkers request pool).1
      (answer maxWorkers request pool).2 := by
  cases request with
  | getRequest => exact .inr ⟨rfl, rfl⟩
  | acquire => exact ⟨of_decide_eq_true waits, rfl⟩
  | release =>
      simp only [answer]
      split_ifs with room
      · exact .inl ⟨room, rfl, rfl⟩
      · exact .inr ⟨not_lt.mp room, rfl, rfl⟩
  | startThread socket =>
      simp only [answer]
      split_ifs
      · exact .inr ⟨⟨_, rfl⟩, rfl⟩
      · exact .inl ⟨rfl, rfl⟩
  | begin socket => exact ⟨of_decide_eq_true waits, rfl⟩
  | finishRequest socket => exact rfl
  | shutdownRequest socket => exact rfl

/-- Three connections at two workers: the thread of the first cannot be started, the other two
are handled at the same time. -/
def crowd : List (Turn Operation) :=
  [.launch (.serve 3), .act 0, .act 0, .act 0, .act 0, .act 0, .act 0, .act 0, .act 0, .act 0, .act 0,
    .act 0, .launch (.thread 1), .launch (.thread 2), .act 1, .act 2, .act 1, .act 1, .act 2, .act 1,
    .act 2, .act 2]

theorem crowd_bounded : Bounded 2 (play (answer 2) start crowd (initial (Pool.fresh 2))) ∧
    (play (answer 2) start crowd (initial (Pool.fresh 2))).shared = ⟨2, [], 3, [2, 1, 0]⟩ :=
  ⟨slots_never_leak (run_play_ready answer_ready crowd _ (by decide)), by decide⟩

end DearAgent.HttpServer.Slots
