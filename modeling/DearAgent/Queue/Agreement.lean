import DearAgent.Queue.Postgres

/-!
# The two backends side by side

The table and the dictionary hold the same tasks as long as no call reaches one
of the places where the backends differ: what a new task brings along, how new
evidence is merged with old, and the numbers the server refuses. With text
compared by code point they then also agree on the order.
-/

namespace DearAgent.Queue

open DearAgent.Lib.Text DearAgent.Lib.Dictionaries

set_option autoImplicit false

def transcript {σ : Type} (step : (op : QueueOp) → Instant → σ → op.Reply × σ) :
    List (QueueOp × Instant) → σ → List ((op : QueueOp) × op.Reply) × σ
  | [], store => ([], store)
  | (op, now) :: rest, store =>
      let first := step op now store
      let later := transcript step rest first.2
      (⟨op, first.1⟩ :: later.1, later.2)

def codePoint : Collation where
  le a b := decide (a ≤ b)
  total a b := by simpa using le_total a b
  trans a b c := by simpa using fun early late => le_trans early late

def emptyTable : PostgresQueue := ⟨Dict.empty⟩

/-!
## Where the backends do the same
-/

/-- New evidence that leaves nothing out that is stored already, and is not empty. -/
structure Overwrites (evidence : Evidence) (stored : Option Evidence) : Prop where
  some_ : evidence.branch.isSome ∨ evidence.commit.isSome ∨ evidence.prUrl.isSome
  branch : evidence.branch = none → stored.bind (·.branch) = none
  commit : evidence.commit = none → stored.bind (·.commit) = none
  prUrl : evidence.prUrl = none → stored.bind (·.prUrl) = none

/-- A task that brings along nothing the table leaves out. -/
def Plain (task : Task) : Prop :=
  task.evidence = none ∧ ∀ spec, task.spec = some spec → spec.baseBranch ≠ []

/-- The calls both backends answer alike, in terms of the tasks stored before. -/
def AnsweredAlike (board : Board) : QueueOp → Prop
  | .enqueue task _ => Taken board task ∨ Plain task
  | .list _ limit => 0 ≤ limit ∧ limit ≤ maxLimit
  | .transition task _ (some evidence) =>
      ∀ stored, board task.id = some stored → stored.state = task.state →
        Overwrites evidence stored.evidence
  | .releaseStale now =>
      ∀ id stored, board id = some stored → stale now stored = true → stored.attempts < maxAttempts
  | _ => True

/-- Every call of the sequence is one both backends answer alike. -/
def AnsweredAlikeThroughout : List (QueueOp × Instant) → MemoryQueue → Prop
  | [], _ => True
  | (op, now) :: rest, q =>
      AnsweredAlike q.board op ∧ AnsweredAlikeThroughout rest (MemoryQueue.step op now q).2

/-- No `get` and no `list` the server accepts tells the stores apart. -/
structure Indistinguishable (q : MemoryQueue) (p : PostgresQueue) : Prop where
  get : ∀ id, q.get id = p.get id
  list : ∀ state limit, 0 ≤ limit → limit ≤ maxLimit →
    .ok (q.list state limit) = p.list codePoint state limit

/-- The dictionary holds the rows of the table as tasks, in the same order. -/
structure Agree (q : MemoryQueue) (p : PostgresQueue) : Prop where
  memory : q.WellFormed
  table : p.WellFormed
  tasks : q.tasks = p.rows.mapValues fun _ => taskFromRow

section Agreeing

variable {q : MemoryQueue} {p : PostgresQueue}

theorem Agree.board (agree : Agree q p) : q.board = p.board := by
  funext id
  simp only [MemoryQueue.board, PostgresQueue.board, agree.tasks, Dict.get_map_values]

theorem Agree.values (agree : Agree q p) : q.tasks.values = p.rows.values.map taskFromRow := by
  rw [agree.tasks, Dict.values_map_values]
  simp [Dict.values]

theorem Agree.inState (agree : Agree q p) (state : TaskState) :
    q.inState state = (p.inState state).map taskFromRow := by
  unfold MemoryQueue.inState PostgresQueue.inState
  rw [agree.values, List.filter_map]
  rfl

theorem ordered_before_iff (first second : Row) :
    orderedBefore codePoint first second ↔ sortedBefore (taskFromRow first) (taskFromRow second) := by
  unfold orderedBefore sortedBefore sortKey codePoint
  rw [Prod.Lex.toLex_le_toLex]
  simp [taskFromRow]

theorem sort_rows (rows : List Row) :
    sortTasks (rows.map taskFromRow) = (orderRows codePoint rows).map taskFromRow :=
  (List.map_insertionSort _ _ taskFromRow rows fun first _ second _ =>
    ordered_before_iff first second).symm

theorem Agree.list (agree : Agree q p) (state : TaskState) {limit : Int} (positive : 0 ≤ limit)
    (small : limit ≤ maxLimit) : .ok (q.list state limit) = p.list codePoint state limit := by
  unfold MemoryQueue.list PostgresQueue.list sliceTo
  rw [if_pos positive, if_neg (by omega), if_neg (by omega), agree.inState, sort_rows, List.map_take]

theorem Agree.indistinguishable (agree : Agree q p) : Indistinguishable q p where
  get id := congrFun agree.board id
  list state _ positive small := agree.list state positive small

theorem Agree.set (agree : Agree q p) (id : Str) (row : Row) :
    q.tasks.set id (taskFromRow row) = (p.rows.set id row).mapValues fun _ => taskFromRow := by
  rw [Dict.map_values_set, agree.tasks]

theorem empty_agree : Agree MemoryQueue.empty emptyTable where
  memory := MemoryQueue.empty_well_formed
  table id row found := by cases found
  tasks := rfl

end Agreeing

/-!
## What a row keeps of a task
-/

theorem stored_row_iff (task : Task) (state : TaskState) (now : Instant) :
    { task with state := state, attempts := 0, leaseUntil := none, createdAt := now } =
      taskFromRow (rowOfTask task state now) ↔ Plain task := by
  obtain ⟨id, transportId, threadId, sender, subject, _, _, _, _, spec, evidence⟩ := task
  cases spec with
  | none => simp [taskFromRow, rowOfTask, Plain]
  | some spec =>
      obtain ⟨repoUrl, baseBranch, instructions, modelRequest, verify, dependsOn⟩ := spec
      cases baseBranch with
      | nil => simp [taskFromRow, rowOfTask, Plain, orElse]
      | cons first rest => cases instructions <;> simp [taskFromRow, rowOfTask, Plain, orElse]

theorem evidence_columns (row : Row) :
    (taskFromRow row).evidence.bind (·.branch) = row.branch ∧
      (taskFromRow row).evidence.bind (·.commit) = row.commit ∧
      (taskFromRow row).evidence.bind (·.prUrl) = row.prUrl := by
  simp only [taskFromRow]
  split_ifs with present
  · exact ⟨rfl, rfl, rfl⟩
  · simp only [Bool.or_eq_true, not_or, Bool.not_eq_true, Option.isSome_eq_false_iff,
      Option.isNone_iff_eq_none] at present
    obtain ⟨⟨branch, commit⟩, prUrl⟩ := present
    exact ⟨branch.symm, commit.symm, prUrl.symm⟩

/-- The merged columns as a record are the new evidence exactly where it overwrites the old. -/
theorem merged_evidence_iff (evidence : Evidence) (row : Row) (toState : TaskState) :
    (taskFromRow (PostgresQueue.applyTransition toState (some evidence) row)).evidence =
        some evidence ↔
      Overwrites evidence (taskFromRow row).evidence := by
  obtain ⟨branch, commit, prUrl⟩ := evidence_columns row
  have columns : Overwrites evidence (taskFromRow row).evidence ↔
      (evidence.branch.isSome ∨ evidence.commit.isSome ∨ evidence.prUrl.isSome) ∧
        (evidence.branch = none → row.branch = none) ∧
        (evidence.commit = none → row.commit = none) ∧
        (evidence.prUrl = none → row.prUrl = none) := by
    rw [← branch, ← commit, ← prUrl]
    exact ⟨fun ⟨given, first, second, third⟩ => ⟨given, first, second, third⟩,
      fun ⟨given, first, second, third⟩ => ⟨given, first, second, third⟩⟩
  rw [columns]
  obtain ⟨given, givenCommit, givenUrl⟩ := evidence
  simp only [taskFromRow, PostgresQueue.applyTransition, coalesce, Option.bind_some]
  clear columns branch commit prUrl
  cases given <;> cases givenCommit <;> cases givenUrl <;> simp
  intro present noBranch noCommit noUrl
  simp [noBranch, noCommit, noUrl] at present

theorem moved_row_iff (row : Row) (toState : TaskState) (evidence : Option Evidence) :
    { taskFromRow row with
        state := toState
        leaseUntil := if toState ≠ .running then none else (taskFromRow row).leaseUntil
        evidence := if evidence.isSome then evidence else (taskFromRow row).evidence } =
      taskFromRow (PostgresQueue.applyTransition toState evidence row) ↔
    ∀ given, evidence = some given → Overwrites given (taskFromRow row).evidence := by
  have lease : (if toState ≠ .running then none else (taskFromRow row).leaseUntil) =
      (taskFromRow (PostgresQueue.applyTransition toState evidence row)).leaseUntil := by
    simp only [taskFromRow, PostgresQueue.applyTransition]
    split_ifs <;> first | rfl | contradiction
  rw [lease]
  cases evidence with
  | none => exact ⟨fun _ given missing => (by cases missing), fun _ => rfl⟩
  | some given =>
      have same := merged_evidence_iff given row toState
      constructor
      · intro equal other present
        obtain rfl := Option.some.inj present
        exact same.mp (congrArg Task.evidence equal).symm
      · intro overwrites
        have whole : taskFromRow (PostgresQueue.applyTransition toState (some given) row) =
            { taskFromRow row with
              state := toState
              leaseUntil :=
                (taskFromRow (PostgresQueue.applyTransition toState (some given) row)).leaseUntil
              evidence := (taskFromRow
                (PostgresQueue.applyTransition toState (some given) row)).evidence } := rfl
        rw [same.mpr (overwrites given rfl)] at whole
        exact whole.symm

/-!
## One call
-/

/-- The two backends answer a call alike exactly where they should, and then still agree. -/
structure Alike (q : MemoryQueue) (p : PostgresQueue) (op : QueueOp) (now : Instant) : Prop where
  reply : (MemoryQueue.step op now q).1 = (PostgresQueue.step codePoint op now p).1 ↔
    AnsweredAlike q.board op
  tasks : AnsweredAlike q.board op → (MemoryQueue.step op now q).2.tasks =
    (PostgresQueue.step codePoint op now p).2.rows.mapValues fun _ => taskFromRow

section Calls

variable {q : MemoryQueue} {p : PostgresQueue} (agree : Agree q p)

include agree

theorem enqueue_alike (task : Task) (state : TaskState) (now : Instant) :
    Alike q p (.enqueue task state) now := by
  have inMemory := MemoryQueue.taken_iff agree.memory task
  have inTable := PostgresQueue.taken_iff agree.table (rowOfTask task state now) task rfl rfl
  rw [← agree.board] at inTable
  by_cases taken : Taken q.board task
  · constructor
    · simp only [MemoryQueue.step, MemoryQueue.enqueue, PostgresQueue.step, PostgresQueue.enqueue,
        PostgresQueue.insert, if_pos (inMemory.mp taken), if_pos (inTable.mp taken)]
      exact ⟨fun _ => .inl taken, fun _ => rfl⟩
    · intro _
      simp only [MemoryQueue.step, MemoryQueue.enqueue, PostgresQueue.step, PostgresQueue.enqueue,
        PostgresQueue.insert, if_pos (inMemory.mp taken), if_pos (inTable.mp taken)]
      exact agree.tasks
  · have fresh := mt inMemory.mpr taken
    have unclashed := mt inTable.mpr taken
    constructor
    · simp only [MemoryQueue.step, MemoryQueue.enqueue, PostgresQueue.step, PostgresQueue.enqueue,
        PostgresQueue.insert, if_neg fresh, if_neg unclashed, Option.map_some, Except.ok.injEq,
        Option.some.injEq]
      rw [stored_row_iff]
      exact ⟨.inr, fun alike => alike.resolve_left taken⟩
    · intro alike
      have plain := (stored_row_iff task state now).mpr (alike.resolve_left taken)
      simp only [MemoryQueue.step, MemoryQueue.enqueue, PostgresQueue.step, PostgresQueue.enqueue,
        PostgresQueue.insert, if_neg fresh, if_neg unclashed]
      rw [plain]
      exact agree.set _ _

theorem list_alike (state : TaskState) (limit : Int) (now : Instant) :
    Alike q p (.list state limit) now := by
  constructor
  · simp only [MemoryQueue.step, PostgresQueue.step]
    constructor
    · intro equal
      by_contra refused
      unfold PostgresQueue.list at equal
      simp only [AnsweredAlike] at refused
      split_ifs at equal with negative large
      exact refused ⟨by omega, by omega⟩
    · exact fun alike => agree.list state alike.1 alike.2
  · exact fun _ => agree.tasks

theorem found_in_both (id : Str) : q.tasks.get id = (p.rows.get id).map taskFromRow := by
  rw [agree.tasks, Dict.get_map_values]

theorem claim_alike (task : Task) (lease : Duration) (now : Instant) :
    Alike q p (.claim task lease) now := by
  have both := found_in_both agree task.id
  suffices same : (q.claim task lease now).1 = (p.claim task lease now).1 ∧
      (q.claim task lease now).2.tasks =
        (p.claim task lease now).2.rows.mapValues fun _ => taskFromRow from
    ⟨⟨fun _ => trivial, fun _ => congrArg Except.ok same.1⟩, fun _ => same.2⟩
  unfold MemoryQueue.claim PostgresQueue.claim PostgresQueue.updateWhere
  cases found : p.rows.get task.id with
  | none =>
      simp only [both, found, Option.map_none]
      exact ⟨rfl, agree.tasks⟩
  | some row =>
      have own := agree.table _ row found
      simp only [both, found, Option.map_some, PostgresQueue.task_from_row_state]
      by_cases queued : row.state = .queued
      · simp only [queued, ne_eq, not_true_eq_false, if_false, if_true]
        refine ⟨rfl, ?_⟩
        rw [← own]
        exact agree.set row.id (PostgresQueue.toRunning (now + lease) row)
      · simp only [queued, ne_eq, not_false_eq_true, if_false, if_true]
        exact ⟨rfl, agree.tasks⟩

theorem claim_next_alike (lease : Duration) (now : Instant) : Alike q p (.claimNext lease) now := by
  suffices same : (q.claimNext lease now).1 = (p.claimNext codePoint lease now).1 ∧
      (q.claimNext lease now).2.tasks =
        (p.claimNext codePoint lease now).2.rows.mapValues fun _ => taskFromRow from
    ⟨⟨fun _ => trivial, fun _ => congrArg Except.ok same.1⟩, fun _ => same.2⟩
  unfold MemoryQueue.claimNext PostgresQueue.claimNext oldest
  rw [agree.inState, sort_rows, List.head?_map]
  cases selection : (orderRows codePoint (p.inState .queued)).head? with
  | none => exact ⟨rfl, agree.tasks⟩
  | some selected =>
      have listed : selected ∈ p.inState .queued := by
        rw [← List.mem_insertionSort (orderedBefore codePoint)]
        exact List.mem_of_head? selection
      obtain ⟨found, queued⟩ := (PostgresQueue.mem_in_state agree.table .queued selected).mp listed
      simp only [Option.map_some, PostgresQueue.updateWhere, found, if_pos queued]
      exact ⟨rfl, agree.set selected.id (PostgresQueue.toRunning (now + lease) selected)⟩

theorem transition_alike (task : Task) (toState : TaskState) (evidence : Option Evidence)
    (now : Instant) : Alike q p (.transition task toState evidence) now := by
  have both := found_in_both agree task.id
  have alike_iff : AnsweredAlike q.board (.transition task toState evidence) ↔
      ∀ row, p.rows.get task.id = some row → row.state = task.state →
        ∀ given, evidence = some given → Overwrites given (taskFromRow row).evidence := by
    cases evidence with
    | none => exact ⟨fun _ _ _ _ _ missing => (by cases missing), fun _ => trivial⟩
    | some given =>
        simp only [AnsweredAlike, MemoryQueue.board, both, Option.map_eq_some_iff,
          Option.some.injEq, forall_eq', forall_exists_index, and_imp, forall_apply_eq_imp_iff₂,
          PostgresQueue.task_from_row_state]
  suffices same : ((q.transition task toState evidence).1 = (p.transition task toState evidence).1 ↔
      AnsweredAlike q.board (.transition task toState evidence)) ∧
      (AnsweredAlike q.board (.transition task toState evidence) →
        (q.transition task toState evidence).2.tasks =
        (p.transition task toState evidence).2.rows.mapValues fun _ => taskFromRow) from
    ⟨same.1, same.2⟩
  rw [alike_iff]
  unfold MemoryQueue.transition PostgresQueue.transition PostgresQueue.updateWhere
  cases found : p.rows.get task.id with
  | none =>
      simp only [both, found, Option.map_none]
      exact ⟨⟨fun _ row missing => (by cases missing), fun _ => trivial⟩, fun _ => agree.tasks⟩
  | some row =>
      have own := agree.table _ row found
      simp only [both, found, Option.map_some, PostgresQueue.task_from_row_state]
      by_cases matched : row.state = task.state
      · simp only [ne_eq, not_true_eq_false, if_false, if_true, Except.ok.injEq, Option.some.injEq,
          forall_eq', matched, true_implies]
        rw [moved_row_iff]
        refine ⟨Iff.rfl, fun overwrites => ?_⟩
        rw [(moved_row_iff row toState evidence).mpr overwrites, ← own]
        exact agree.set row.id _
      · simp only [matched, ne_eq, not_false_eq_true, if_false, if_true]
        refine ⟨⟨fun _ other same equal => ?_, fun _ => trivial⟩, fun _ => agree.tasks⟩
        obtain rfl := Option.some.inj same
        exact absurd equal matched

omit agree in
theorem released_rows (limit : Instant) (rows : List Row) :
    ((rows.map taskFromRow).filterMap fun task =>
        if stale limit task then some (release task) else none) =
      ((rows.filter (PostgresQueue.expired limit)).map PostgresQueue.toQueued).map taskFromRow := by
  induction rows with
  | nil => rfl
  | cons row rest ih =>
      rw [List.map_cons, List.filterMap_cons, PostgresQueue.stale_task_from_row, List.filter_cons]
      by_cases ranOut : PostgresQueue.expired limit row = true
      · simp only [ranOut, if_true, List.map_cons, ih, PostgresQueue.task_from_row_to_queued]
      · simp only [ranOut, ih, Bool.false_eq_true, if_false]

omit agree in
theorem release_row (limit : Instant) (row : Row) :
    releaseIfStale limit (taskFromRow row) =
      taskFromRow (if PostgresQueue.expired limit row then PostgresQueue.toQueued row else row) := by
  unfold releaseIfStale
  by_cases ranOut : PostgresQueue.expired limit row = true
  · have isStale : stale limit (taskFromRow row) = true := ranOut
    rw [if_pos isStale, if_pos ranOut, PostgresQueue.task_from_row_to_queued]
  · have fresh : ¬stale limit (taskFromRow row) = true := ranOut
    rw [if_neg fresh, if_neg ranOut]

theorem full_iff (limit : Instant) :
    (p.rows.values.any fun row => PostgresQueue.expired limit row && maxAttempts ≤ row.attempts) =
      true ↔ ¬AnsweredAlike q.board (.releaseStale limit) := by
  simp only [AnsweredAlike, agree.board, PostgresQueue.board_eq_some_iff, not_forall, not_lt,
    List.any_eq_true, Dict.mem_values_iff, Bool.and_eq_true, decide_eq_true_eq]
  constructor
  · rintro ⟨row, ⟨id, found⟩, ranOut, full⟩
    exact ⟨id, taskFromRow row, ⟨row, found, rfl⟩, ranOut, full⟩
  · rintro ⟨id, _, ⟨row, found, rfl⟩, ranOut, full⟩
    exact ⟨row, ⟨id, found⟩, ranOut, full⟩

theorem release_alike (limit now : Instant) : Alike q p (.releaseStale limit) now := by
  suffices same : (.ok (q.releaseStale limit).1 = (p.releaseStale limit).1 ↔
      AnsweredAlike q.board (.releaseStale limit)) ∧
      (AnsweredAlike q.board (.releaseStale limit) → (q.releaseStale limit).2.tasks =
        (p.releaseStale limit).2.rows.mapValues fun _ => taskFromRow) from ⟨same.1, same.2⟩
  unfold PostgresQueue.releaseStale
  by_cases alike : AnsweredAlike q.board (.releaseStale limit)
  · rw [if_neg (fun full => (full_iff agree limit).mp full alike)]
    refine ⟨⟨fun _ => alike, fun _ => ?_⟩, fun _ => ?_⟩
    · simp only [MemoryQueue.releaseStale, agree.values, released_rows]
    · simp only [MemoryQueue.releaseStale, agree.tasks, Dict.map_values_map_values, release_row]
  · rw [if_pos ((full_iff agree limit).mpr alike)]
    exact ⟨⟨fun equal => (by cases equal), fun same => absurd same alike⟩,
      fun same => absurd same alike⟩

theorem get_alike (id : Str) (now : Instant) : Alike q p (.get id) now :=
  ⟨⟨fun _ => trivial, fun _ => congrArg Except.ok (congrFun agree.board id)⟩, fun _ => agree.tasks⟩

theorem call_alike (op : QueueOp) (now : Instant) : Alike q p op now := by
  cases op with
  | enqueue task state => exact enqueue_alike agree task state now
  | get taskId => exact get_alike agree taskId now
  | list state limit => exact list_alike agree state limit now
  | claim task lease => exact claim_alike agree task lease now
  | claimNext lease => exact claim_next_alike agree lease now
  | transition task toState evidence => exact transition_alike agree task toState evidence now
  | releaseStale limit => exact release_alike agree limit now

theorem step_agrees {op : QueueOp} (now : Instant) (alike : AnsweredAlike q.board op) :
    Agree (MemoryQueue.step op now q).2 (PostgresQueue.step codePoint op now p).2 where
  memory := MemoryQueue.step_well_formed agree.memory op now
  table := PostgresQueue.step_well_formed codePoint agree.table op now
  tasks := (call_alike agree op now).tasks alike

/-!
## Sequences of calls
-/

theorem sequence_agrees (calls : List (QueueOp × Instant)) (alike : AnsweredAlikeThroughout calls q) :
    (transcript MemoryQueue.step calls q).1 =
        (transcript (PostgresQueue.step codePoint) calls p).1 ∧
      Agree (transcript MemoryQueue.step calls q).2
        (transcript (PostgresQueue.step codePoint) calls p).2 := by
  induction calls generalizing q p with
  | nil => exact ⟨rfl, agree⟩
  | cons call rest ih =>
      obtain ⟨op, now⟩ := call
      have reply := (call_alike agree op now).reply.mpr alike.1
      obtain ⟨replies, later⟩ := ih (step_agrees agree now alike.1) alike.2
      exact ⟨by simp only [transcript, reply, replies], later⟩

theorem same_replies_only_alike (calls : List (QueueOp × Instant))
    (same : (transcript MemoryQueue.step calls q).1 =
      (transcript (PostgresQueue.step codePoint) calls p).1) : AnsweredAlikeThroughout calls q := by
  induction calls generalizing q p with
  | nil => trivial
  | cons call rest ih =>
      obtain ⟨op, now⟩ := call
      obtain ⟨first, later⟩ := List.cons.inj same
      have alike := (call_alike agree op now).reply.mp (eq_of_heq (Sigma.mk.inj first).2)
      exact ⟨alike, ih (step_agrees agree now alike) later⟩

end Calls

/-- From two empty stores the backends give the same replies to a sequence of calls,
and cannot be told apart afterwards, exactly where each call is one they answer alike. -/
theorem backends_agree_iff (calls : List (QueueOp × Instant)) :
    ((transcript MemoryQueue.step calls MemoryQueue.empty).1 =
        (transcript (PostgresQueue.step codePoint) calls emptyTable).1 ∧
      Indistinguishable (transcript MemoryQueue.step calls MemoryQueue.empty).2
        (transcript (PostgresQueue.step codePoint) calls emptyTable).2) ↔
      AnsweredAlikeThroughout calls MemoryQueue.empty := by
  constructor
  · exact fun same => same_replies_only_alike empty_agree calls same.1
  · intro alike
    obtain ⟨replies, agree⟩ := sequence_agrees empty_agree calls alike
    exact ⟨replies, agree.indistinguishable⟩

section Example

def reworkedTask (state : TaskState) : Task where
  id := "m1"
  transportId := "m1"
  state := state
  createdAt := 0

/-- A task that was delivered, put back into the queue, and fails with a branch only. -/
def reworkedCalls : List (QueueOp × Instant) :=
  [(.enqueue (reworkedTask .received) .queued, 0),
    (.transition (reworkedTask .queued) .done (some ⟨some "b1", some "c1", some "u1"⟩), 1),
    (.transition (reworkedTask .done) .queued none, 2),
    (.transition (reworkedTask .queued) .failed (some ⟨some "b2", none, none⟩), 3)]

/-- The table keeps the commit of the first run beside the branch of the second. -/
theorem partial_evidence_tells_apart :
    ¬∀ calls : List (QueueOp × Instant),
      (transcript MemoryQueue.step calls MemoryQueue.empty).1 =
          (transcript (PostgresQueue.step codePoint) calls emptyTable).1 ∧
        Indistinguishable (transcript MemoryQueue.step calls MemoryQueue.empty).2
          (transcript (PostgresQueue.step codePoint) calls emptyTable).2 := by
  intro same
  have equal := (same reworkedCalls).2.get "m1".toList
  exact absurd equal (by decide)

end Example

end DearAgent.Queue
