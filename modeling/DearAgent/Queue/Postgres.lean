import DearAgent.Queue.Memory

/-!
# The PostgreSQL queue

`queue/postgres.py`: one table with the id as its primary key and a unique
transport id, and each call one guarded statement. The server orders text by
the collation of the database, which the model leaves open. A JSON array of
strings is kept as the list it encodes.
-/

namespace DearAgent.Queue

open DearAgent.Lib.Text DearAgent.Lib.Dictionaries

set_option autoImplicit false

structure Row where
  id : Str
  transportId : Str
  threadId : Option Str
  sender : Option Str
  subject : Option Str
  state : TaskState
  attempts : Nat
  leaseUntil : Option Instant
  createdAt : Instant
  specRepoUrl : Option Str
  specBaseBranch : Option Str
  specInstructions : Option Str
  specModelRequest : Option Str
  specVerify : Option Str
  specDependsOn : Option (List Str)
  branch : Option Str
  commit : Option Str
  prUrl : Option Str
deriving DecidableEq

def taskFromRow (row : Row) : Task where
  id := row.id
  transportId := row.transportId
  threadId := row.threadId
  sender := row.sender
  subject := row.subject
  state := row.state
  attempts := row.attempts
  leaseUntil := row.leaseUntil
  createdAt := row.createdAt
  spec := row.specRepoUrl.map fun repoUrl => {
    repoUrl := repoUrl
    baseBranch := orElse row.specBaseBranch "main"
    instructions := orElse row.specInstructions ""
    modelRequest := row.specModelRequest
    verify := row.specVerify
    dependsOn := row.specDependsOn.getD [] }
  evidence :=
    if row.branch.isSome || row.commit.isSome || row.prUrl.isSome then
      some { branch := row.branch, commit := row.commit, prUrl := row.prUrl }
    else none

/-- The values an `INSERT` binds. -/
def rowOfTask (task : Task) (state : TaskState) (now : Instant) : Row where
  id := task.id
  transportId := task.transportId
  threadId := task.threadId
  sender := task.sender
  subject := task.subject
  state := state
  attempts := 0
  leaseUntil := none
  createdAt := now
  specRepoUrl := task.spec.map (·.repoUrl)
  specBaseBranch := task.spec.map (·.baseBranch)
  specInstructions := task.spec.map (·.instructions)
  specModelRequest := task.spec.bind (·.modelRequest)
  specVerify := task.spec.bind (·.verify)
  specDependsOn := task.spec.map (·.dependsOn)
  branch := none
  commit := none
  prUrl := none

def coalesce (value column : Option Str) : Option Str := value.or column

/-- The order the server gives to text. -/
structure Collation where
  le : Str → Str → Bool
  total : ∀ a b, le a b || le b a
  trans : ∀ a b c, le a b → le b c → le a c

section Ordering

variable (collation : Collation)

/-- `ORDER BY created_at, id`. -/
def orderedBefore (first second : Row) : Prop :=
  first.createdAt < second.createdAt ∨
    (first.createdAt = second.createdAt ∧ collation.le first.id second.id)

instance : DecidableRel (orderedBefore collation) := fun _ _ =>
  inferInstanceAs (Decidable (_ ∨ _))

def orderRows (rows : List Row) : List Row := rows.insertionSort (orderedBefore collation)

theorem order_rows_ordered (rows : List Row) :
    (orderRows collation rows).Pairwise fun first second =>
      first.createdAt ≤ second.createdAt := by
  have total : Std.Total (orderedBefore collation) := ⟨fun first second => by
    have names := collation.total first.id second.id
    rw [Bool.or_eq_true] at names
    rcases lt_trichotomy first.createdAt second.createdAt with earlier | same | later
    · exact .inl (.inl earlier)
    · exact names.imp (fun le => .inr ⟨same, le⟩) fun le => .inr ⟨same.symm, le⟩
    · exact .inr (.inl later)⟩
  have transitive : IsTrans Row (orderedBefore collation) := ⟨by
    rintro first second third (early | ⟨same, le⟩) (late | ⟨same', le'⟩)
    · exact .inl (lt_trans early late)
    · exact .inl (lt_of_lt_of_eq early same')
    · exact .inl (lt_of_eq_of_lt same late)
    · exact .inr ⟨same.trans same', collation.trans _ _ _ le le'⟩⟩
  refine (List.pairwise_insertionSort (orderedBefore collation) rows).imp fun before => ?_
  exact before.elim le_of_lt fun same => le_of_eq same.1

end Ordering

structure PostgresQueue where
  rows : Dict Str Row

namespace PostgresQueue

def insert (q : PostgresQueue) (row : Row) : Option Row × PostgresQueue :=
  if q.rows.values.any fun other => other.id = row.id || other.transportId = row.transportId then
    (none, q)
  else (some row, ⟨q.rows.set row.id row⟩)

/-- `UPDATE ... WHERE id = ... AND state = ... RETURNING ...`. -/
def updateWhere (q : PostgresQueue) (id : Str) (state : TaskState) (change : Row → Row) :
    Option Row × PostgresQueue :=
  match q.rows.get id with
  | none => (none, q)
  | some row =>
      if row.state = state then (some (change row), ⟨q.rows.set id (change row)⟩) else (none, q)

def enqueue (q : PostgresQueue) (task : Task) (state : TaskState) (now : Instant) :
    Option Task × PostgresQueue :=
  let inserted := q.insert (rowOfTask task state now)
  (inserted.1.map taskFromRow, inserted.2)

def get (q : PostgresQueue) (taskId : Str) : Option Task := (q.rows.get taskId).map taskFromRow

def inState (q : PostgresQueue) (state : TaskState) : List Row :=
  q.rows.values.filter fun row => row.state = state

/-- The server refuses a `LIMIT` that is negative or no `bigint`. -/
def list (collation : Collation) (q : PostgresQueue) (state : TaskState) (limit : Int) :
    Except Exn (List Task) :=
  if limit < 0 then .error (.otherException "InvalidRowCountInLimitClause"
    "LIMIT must not be negative")
  else if maxLimit < limit then .error (.otherException "DatatypeMismatch"
    "argument of LIMIT must be type bigint, not type numeric")
  else .ok (((orderRows collation (q.inState state)).take limit.toNat).map taskFromRow)

def toRunning (until_ : Instant) (row : Row) : Row :=
  { row with state := .running, leaseUntil := some until_ }

def claim (q : PostgresQueue) (task : Task) (lease : Duration) (now : Instant) :
    Bool × PostgresQueue :=
  let updated := q.updateWhere task.id .queued (toRunning (now + lease))
  (updated.1.isSome, updated.2)

def claimNext (collation : Collation) (q : PostgresQueue) (lease : Duration) (now : Instant) :
    Option Task × PostgresQueue :=
  match (orderRows collation (q.inState .queued)).head? with
  | none => (none, q)
  | some selected =>
      let updated := q.updateWhere selected.id .queued (toRunning (now + lease))
      (updated.1.map taskFromRow, updated.2)

def applyTransition (toState : TaskState) (evidence : Option Evidence) (row : Row) : Row :=
  { row with
    state := toState
    leaseUntil := if toState = .running then row.leaseUntil else none
    branch := coalesce (evidence.bind (·.branch)) row.branch
    commit := coalesce (evidence.bind (·.commit)) row.commit
    prUrl := coalesce (evidence.bind (·.prUrl)) row.prUrl }

def transition (q : PostgresQueue) (task : Task) (toState : TaskState)
    (evidence : Option Evidence) : Except Exn Task × PostgresQueue :=
  let updated := q.updateWhere task.id task.state (applyTransition toState evidence)
  match updated.1 with
  | some row => (.ok (taskFromRow row), updated.2)
  | none =>
      match (q.rows.get task.id).map (·.state) with
      | none => (.error (.taskNotFound task.id), q)
      | some current => (.error (.stateConflict task.id task.state current), q)

def expired (now : Instant) (row : Row) : Bool :=
  row.state = .running && row.leaseUntil.any fun lease => lease < now

def toQueued (row : Row) : Row :=
  { row with state := .queued, attempts := row.attempts + 1, leaseUntil := none }

/-- The statement as a whole fails where one of its rows has no next attempt. -/
def releaseStale (q : PostgresQueue) (now : Instant) : Except Exn (List Task) × PostgresQueue :=
  if q.rows.values.any fun row => expired now row && maxAttempts ≤ row.attempts then
    (.error (.otherException "NumericValueOutOfRange" "integer out of range"), q)
  else
    let rows := (q.rows.values.filter (expired now)).map toQueued
    (.ok (sortTasks (rows.map taskFromRow)),
      ⟨q.rows.mapValues fun _ row => if expired now row then toQueued row else row⟩)

def step (collation : Collation) (op : QueueOp) (now : Instant) (q : PostgresQueue) :
    op.Reply × PostgresQueue :=
  match op with
  | .enqueue task state => let r := q.enqueue task state now; (.ok r.1, r.2)
  | .get taskId => (.ok (q.get taskId), q)
  | .list state limit => (q.list collation state limit, q)
  | .claim task lease => let r := q.claim task lease now; (.ok r.1, r.2)
  | .claimNext lease => let r := q.claimNext collation lease now; (.ok r.1, r.2)
  | .transition task toState evidence => q.transition task toState evidence
  | .releaseStale limit => q.releaseStale limit

def board (q : PostgresQueue) : Board := fun id => (q.rows.get id).map taskFromRow

def WellFormed (q : PostgresQueue) : Prop := ∀ id row, q.rows.get id = some row → row.id = id

section Rows

@[simp] theorem task_from_row_id (row : Row) : (taskFromRow row).id = row.id := rfl

@[simp] theorem task_from_row_state (row : Row) : (taskFromRow row).state = row.state := rfl

@[simp] theorem stale_task_from_row (now : Instant) (row : Row) :
    stale now (taskFromRow row) = expired now row := rfl

theorem task_from_row_to_queued (row : Row) :
    taskFromRow (toQueued row) = release (taskFromRow row) := rfl

theorem task_from_row_moved (toState : TaskState) (evidence : Option Evidence) (row : Row) :
    Moved (taskFromRow row) toState evidence (taskFromRow (applyTransition toState evidence row)) :=
  ⟨_, by rintro rfl; rfl, rfl⟩

theorem row_of_task_stores (task : Task) (state : TaskState) (now : Instant) :
    Stores task state now (taskFromRow (rowOfTask task state now)) :=
  ⟨rfl, rfl, rfl, rfl, rfl, rfl, rfl, rfl, rfl⟩

theorem board_eq_some_iff (q : PostgresQueue) (id : Str) (task : Task) :
    q.board id = some task ↔ ∃ row, q.rows.get id = some row ∧ taskFromRow row = task :=
  Option.map_eq_some_iff

theorem filed {q : PostgresQueue} (wellFormed : q.WellFormed) : q.board.Filed := by
  intro id task found
  obtain ⟨row, stored, rfl⟩ := (board_eq_some_iff q id task).mp found
  exact wellFormed id row stored

theorem board_set (q : PostgresQueue) (row : Row) :
    (PostgresQueue.mk (q.rows.set row.id row)).board = q.board.put (taskFromRow row) := by
  funext id
  simp only [board, Board.put, Dict.get_set, task_from_row_id]
  by_cases same : id = row.id <;> simp [same]

theorem set_well_formed {q : PostgresQueue} (wellFormed : q.WellFormed) (row : Row) :
    (PostgresQueue.mk (q.rows.set row.id row)).WellFormed := by
  intro id other located
  rw [Dict.get_set] at located
  split_ifs at located with same
  · rw [same, ← Option.some.inj located]
  · exact wellFormed id other located

theorem mem_in_state {q : PostgresQueue} (wellFormed : q.WellFormed) (state : TaskState)
    (row : Row) : row ∈ q.inState state ↔ q.rows.get row.id = some row ∧ row.state = state := by
  simp only [inState, List.mem_filter, Dict.mem_values_iff, decide_eq_true_eq]
  refine and_congr_left fun _ => ⟨?_, fun found => ⟨row.id, found⟩⟩
  rintro ⟨key, found⟩
  rw [wellFormed key row found]
  exact found

theorem update_where_none {q : PostgresQueue} {id : Str} {state : TaskState} {change : Row → Row}
    (unchanged : (q.updateWhere id state change).1 = none) :
    (∀ row, q.rows.get id = some row → row.state ≠ state) ∧
      (q.updateWhere id state change).2 = q := by
  unfold updateWhere at unchanged ⊢
  cases found : q.rows.get id with
  | none => exact ⟨by simp, rfl⟩
  | some row =>
      rw [found] at unchanged
      by_cases inState : row.state = state
      · simp [inState] at unchanged
      · simp [inState]

theorem update_where_some {q : PostgresQueue} {id : Str} {state : TaskState} {change : Row → Row}
    {updated : Row} (changed : (q.updateWhere id state change).1 = some updated) :
    ∃ row, q.rows.get id = some row ∧ row.state = state ∧ updated = change row ∧
      (q.updateWhere id state change).2 = ⟨q.rows.set id updated⟩ := by
  unfold updateWhere at changed ⊢
  cases found : q.rows.get id with
  | none => simp [found] at changed
  | some row =>
      rw [found] at changed
      by_cases inState : row.state = state
      · simp only [inState, if_true, Option.some.injEq] at changed
        exact ⟨row, rfl, inState, changed.symm, by simp [inState, changed]⟩
      · simp [inState] at changed

theorem update_where_well_formed {q : PostgresQueue} (wellFormed : q.WellFormed) (id : Str)
    (state : TaskState) (change : Row → Row) (kept : ∀ row, (change row).id = row.id) :
    (q.updateWhere id state change).2.WellFormed := by
  cases outcome : (q.updateWhere id state change).1 with
  | none =>
      rw [(update_where_none outcome).2]
      exact wellFormed
  | some updated =>
      obtain ⟨row, found, _, rfl, after⟩ := update_where_some outcome
      rw [after, show id = (change row).id by rw [kept, wellFormed id row found]]
      exact set_well_formed wellFormed _

theorem step_well_formed (collation : Collation) {q : PostgresQueue} (wellFormed : q.WellFormed)
    (op : QueueOp) (now : Instant) : (step collation op now q).2.WellFormed := by
  cases op with
  | enqueue task state =>
      simp only [step, enqueue, insert]
      split_ifs
      · exact wellFormed
      · exact set_well_formed wellFormed _
  | get taskId => exact wellFormed
  | list state limit => exact wellFormed
  | claim task lease => exact update_where_well_formed wellFormed _ _ _ fun _ => rfl
  | claimNext lease =>
      simp only [step, claimNext]
      split
      · exact wellFormed
      · exact update_where_well_formed wellFormed _ _ _ fun _ => rfl
  | transition task toState evidence =>
      simp only [step, transition]
      split
      · exact update_where_well_formed wellFormed _ _ _ fun _ => rfl
      · split <;> exact wellFormed
  | releaseStale limit =>
      simp only [step, releaseStale]
      by_cases full : (q.rows.values.any fun row =>
          expired limit row && maxAttempts ≤ row.attempts) = true
      · rw [if_pos full]
        exact wellFormed
      · rw [if_neg full]
        intro id row located
        simp only [Dict.get_map_values, Option.map_eq_some_iff] at located
        obtain ⟨stored, found, rfl⟩ := located
        split_ifs <;> exact wellFormed id stored found

end Rows

section Refinement

variable {q : PostgresQueue} (wellFormed : q.WellFormed)

include wellFormed

theorem update_where_board {id : Str} {state : TaskState} {change : Row → Row} {updated : Row}
    (changed : (q.updateWhere id state change).1 = some updated)
    (kept : ∀ row, (change row).id = row.id) :
    ∃ row, q.rows.get id = some row ∧ row.state = state ∧ updated = change row ∧
      (q.updateWhere id state change).2.board = q.board.put (taskFromRow updated) := by
  obtain ⟨row, found, inState, rfl, after⟩ := update_where_some changed
  refine ⟨row, found, inState, rfl, ?_⟩
  rw [after, show id = (change row).id by rw [kept, wellFormed id row found], board_set]

theorem taken_iff (row : Row) (task : Task) (sameId : row.id = task.id)
    (sameTransport : row.transportId = task.transportId) :
    Taken q.board task ↔ (q.rows.values.any fun other =>
      other.id = row.id || other.transportId = row.transportId) = true := by
  simp only [List.any_eq_true, Dict.mem_values_iff, Bool.or_eq_true, decide_eq_true_eq, sameId,
    sameTransport, Taken, board_eq_some_iff]
  constructor
  · rintro ⟨id, _, ⟨other, found, rfl⟩, clash⟩
    rw [← wellFormed id other found] at clash
    exact ⟨other, ⟨id, found⟩, clash⟩
  · rintro ⟨other, ⟨id, found⟩, clash⟩
    refine ⟨id, _, ⟨other, found, rfl⟩, ?_⟩
    rw [← wellFormed id other found]
    exact clash

theorem claim_refines (task : Task) (lease : Duration) (now : Instant) :
    Spec now (.claim task lease) q.board (.ok (q.claim task lease now).1)
      (q.claim task lease now).2.board := by
  unfold claim
  cases outcome : (q.updateWhere task.id .queued (toRunning (now + lease))).1 with
  | none =>
      have unchanged := update_where_none outcome
      simp only [outcome, unchanged.2]
      refine .inr ⟨fun stored found => ?_, rfl, rfl⟩
      obtain ⟨row, located, rfl⟩ := (board_eq_some_iff _ _ _).mp found
      exact unchanged.1 row located
  | some updated =>
      obtain ⟨row, found, queued, rfl, after⟩ :=
        update_where_board wellFormed outcome fun _ => rfl
      simp only [outcome]
      exact .inl ⟨_, (board_eq_some_iff _ _ _).mpr ⟨row, found, rfl⟩, queued, rfl, after⟩

theorem claim_next_refines (collation : Collation) (lease : Duration) (now : Instant) :
    Spec now (.claimNext lease) q.board (.ok (q.claimNext collation lease now).1)
      (q.claimNext collation lease now).2.board := by
  have member : ∀ row, row ∈ orderRows collation (q.inState .queued) ↔
      q.rows.get row.id = some row ∧ row.state = .queued := fun row => by
    rw [orderRows, List.mem_insertionSort, mem_in_state wellFormed]
  have ordered := order_rows_ordered collation (q.inState .queued)
  unfold claimNext
  cases sorted : orderRows collation (q.inState .queued) with
  | nil =>
      rw [sorted] at member
      refine .inr ⟨fun id stored found queued => ?_, rfl, rfl⟩
      obtain ⟨row, located, rfl⟩ := (board_eq_some_iff _ _ _).mp found
      have listed := (member row).mpr ⟨by rw [wellFormed id row located]; exact located, queued⟩
      exact List.not_mem_nil listed
  | cons selected rest =>
      rw [sorted] at member ordered
      have selection := (member selected).mp (by simp)
      simp only [List.head?_cons]
      cases outcome : (q.updateWhere selected.id .queued (toRunning (now + lease))).1 with
      | none => exact absurd selection.2 ((update_where_none outcome).1 selected selection.1)
      | some updated =>
          obtain ⟨row, found, queued, rfl, after⟩ :=
            update_where_board wellFormed outcome fun _ => rfl
          obtain rfl : selected = row := Option.some.inj (selection.1.symm.trans found)
          refine .inl ⟨taskFromRow selected, (board_eq_some_iff _ _ _).mpr ⟨selected, found, rfl⟩,
            queued, fun id other present inState => ?_, rfl, after⟩
          obtain ⟨row, located, rfl⟩ := (board_eq_some_iff _ _ _).mp present
          have listed := (member row).mpr ⟨by rw [wellFormed id row located]; exact located, inState⟩
          rcases List.mem_cons.mp listed with rfl | later
          · exact le_refl _
          · exact (List.pairwise_cons.mp ordered).1 row later

theorem transition_refines (task : Task) (toState : TaskState) (evidence : Option Evidence)
    (now : Instant) :
    Spec now (.transition task toState evidence) q.board (q.transition task toState evidence).1
      (q.transition task toState evidence).2.board := by
  unfold transition
  cases outcome : (q.updateWhere task.id task.state (applyTransition toState evidence)).1 with
  | none =>
      have unchanged := update_where_none outcome
      simp only [outcome]
      cases found : q.rows.get task.id with
      | none => exact .inl ⟨by simp [board, found], rfl, rfl⟩
      | some row =>
          exact .inr (.inl ⟨_, (board_eq_some_iff _ _ _).mpr ⟨row, found, rfl⟩,
            unchanged.1 row found, rfl, rfl⟩)
  | some updated =>
      obtain ⟨row, found, inState, rfl, after⟩ :=
        update_where_board wellFormed outcome fun _ => rfl
      simp only [outcome]
      exact .inr (.inr ⟨_, _, (board_eq_some_iff _ _ _).mpr ⟨row, found, rfl⟩, inState,
        task_from_row_moved toState evidence row, rfl, after⟩)

omit wellFormed in
theorem release_refines (limit now : Instant) :
    Spec now (.releaseStale limit) q.board (q.releaseStale limit).1
      (q.releaseStale limit).2.board := by
  unfold releaseStale
  by_cases full : (q.rows.values.any fun row =>
      expired limit row && maxAttempts ≤ row.attempts) = true
  · rw [if_pos full]
    obtain ⟨row, member, both⟩ := List.any_eq_true.mp full
    obtain ⟨id, found⟩ := (Dict.mem_values_iff _ _).mp member
    rw [Bool.and_eq_true, decide_eq_true_eq] at both
    exact .inr ⟨⟨id, _, (board_eq_some_iff _ _ _).mpr ⟨row, found, rfl⟩, both.1, both.2⟩,
      ⟨_, rfl, rfl⟩, rfl⟩
  rw [if_neg full]
  refine .inl ⟨_, rfl, ?_, fun task => ?_⟩
  · funext id
    simp only [board, Dict.get_map_values, Option.map_map]
    refine Option.map_congr fun row _ => ?_
    simp only [Function.comp_apply, releaseIfStale, stale_task_from_row]
    by_cases ranOut : expired limit row <;> simp [ranOut, task_from_row_to_queued]
  · simp only [mem_sort_tasks, List.mem_map, List.mem_filter, Dict.mem_values_iff]
    constructor
    · rintro ⟨_, ⟨row, ⟨⟨id, found⟩, ranOut⟩, rfl⟩, rfl⟩
      exact ⟨id, _, (board_eq_some_iff _ _ _).mpr ⟨row, found, rfl⟩, ranOut, rfl⟩
    · rintro ⟨id, _, found, ranOut, rfl⟩
      obtain ⟨row, located, rfl⟩ := (board_eq_some_iff _ _ _).mp found
      exact ⟨_, ⟨row, ⟨⟨id, located⟩, ranOut⟩, rfl⟩, rfl⟩

theorem list_refines (collation : Collation) (state : TaskState) (limit : Int) (now : Instant) :
    Spec now (.list state limit) q.board (q.list collation state limit) q.board := by
  refine ⟨rfl, ?_⟩
  unfold list
  split_ifs with negative large
  · exact .inr ⟨.inl negative, _, rfl, rfl⟩
  · exact .inr ⟨.inr large, _, rfl, rfl⟩
  · refine .inl ⟨_, rfl, ?_⟩
    rw [List.map_take]
    refine take_is_page (fun task => ?_) ?_ (filed wellFormed) fun positive => by omega
    · rw [List.mem_map, board_eq_some_iff]
      constructor
      · rintro ⟨row, member, rfl⟩
        rw [orderRows, List.mem_insertionSort, mem_in_state wellFormed] at member
        exact ⟨⟨row, member.1, rfl⟩, member.2⟩
      · rintro ⟨⟨row, found, same⟩, inState⟩
        refine ⟨row, ?_, same⟩
        rw [orderRows, List.mem_insertionSort, mem_in_state wellFormed]
        rw [← same] at found inState
        exact ⟨found, inState⟩
    · exact List.pairwise_map.mpr (order_rows_ordered collation _)

theorem step_refines (collation : Collation) (op : QueueOp) (now : Instant) :
    Spec now op q.board (step collation op now q).1 (step collation op now q).2.board := by
  cases op with
  | enqueue task state =>
      simp only [step, enqueue, insert]
      split_ifs with taken
      · exact .inl ⟨(taken_iff wellFormed (rowOfTask task state now) task rfl rfl).mpr taken, rfl, rfl⟩
      · refine .inr ⟨fun found => taken ((taken_iff wellFormed _ task rfl rfl).mp found), _,
          row_of_task_stores task state now, rfl, board_set q _⟩
  | get taskId => exact ⟨rfl, rfl⟩
  | list state limit => exact list_refines wellFormed collation state limit now
  | claim task lease => exact claim_refines wellFormed task lease now
  | claimNext lease => exact claim_next_refines wellFormed collation lease now
  | transition task toState evidence => exact transition_refines wellFormed task toState evidence now
  | releaseStale limit => exact release_refines limit now

end Refinement

def backend (collation : Collation) : QueueBackend where
  Store := { q : PostgresQueue // q.WellFormed }
  board q := q.1.board
  filed q := filed q.2
  step op now q :=
    ((step collation op now q.1).1,
      ⟨(step collation op now q.1).2, step_well_formed collation q.2 op now⟩)
  refines op now q := step_refines q.2 collation op now

def deduping (collation : Collation) : DedupingQueue where
  toQueueBackend := backend collation
  leaves task state now q taken := by
    have clash := (taken_iff q.2 (rowOfTask task state now) task rfl rfl).mp taken
    refine Subtype.ext ?_
    change (q.1.insert (rowOfTask task state now)).2 = q.1
    unfold insert
    rw [if_pos clash]

def paging (collation : Collation) : PagingQueue where
  toQueueBackend := backend collation
  page q limit := q.1.list collation .queued limit
  lists _ _ _ := rfl
  distinct q limit tasks listed := by
    unfold list at listed
    split_ifs at listed
    obtain rfl := Except.ok.inj listed
    have among : ((q.1.inState .queued).map Row.id).Nodup := by
      apply List.Nodup.sublist _ (q.1.rows.values_nodup q.2)
      exact List.Sublist.map _ List.filter_sublist
    have sorted : ((orderRows collation (q.1.inState .queued)).map Row.id).Nodup :=
      ((List.perm_insertionSort _ _).map _).nodup_iff.mpr among
    rw [List.map_map]
    exact List.Nodup.sublist (List.Sublist.map _ (List.take_sublist _ _)) sorted

def steady (collation : Collation) : SteadyQueue where
  toPagingQueue := paging collation
  got _ _ _ := rfl
  listed _ _ _ _ := rfl
  leased task lease lease' now now' q same := by
    have claims : step collation (.claim task lease) now q.1 =
        step collation (.claim task lease') now' q.1 := by
      simp only [step, claim, same]
    have replies := congrArg Prod.fst claims
    have stores := congrArg Prod.snd claims
    exact Prod.ext replies (Subtype.ext stores)

end PostgresQueue

end DearAgent.Queue
