import Mathlib.Data.List.Sort
import Mathlib.Data.List.Lex
import Mathlib.Data.Prod.Lex
import DearAgent.Lib.Dict
import DearAgent.Queue.Port

/-!
# The in-memory queue

`queue/memory.py`: the tasks in a dictionary by id, and the ids in a second one
by transport id. Both are kept consistent by every call, so the queue meets the
specification of the port.
-/

namespace DearAgent.Queue

open DearAgent.Lib.Text DearAgent.Lib.Dictionaries

set_option autoImplicit false

section Order

/-- The sort key `(task.created_at, task.id)`. -/
def sortKey (task : Task) : Instant ×ₗ Str := toLex (task.createdAt, task.id)

abbrev sortedBefore (first second : Task) : Prop := sortKey first ≤ sortKey second

def sortTasks (tasks : List Task) : List Task := tasks.insertionSort sortedBefore

/-- `tasks[:limit]`: a negative limit counts from the end. -/
def sliceTo (limit : Int) (tasks : List Task) : List Task :=
  tasks.take (if 0 ≤ limit then limit else tasks.length + limit).toNat

/-- `min(tasks, key=...)`, the first of the smallest. -/
def oldest (tasks : List Task) : Option Task := (sortTasks tasks).head?

@[simp] theorem mem_sort_tasks (task : Task) (tasks : List Task) :
    task ∈ sortTasks tasks ↔ task ∈ tasks := List.mem_insertionSort _

theorem older_of_sorted_before {first second : Task} (before : sortedBefore first second) :
    first.createdAt ≤ second.createdAt := by
  rcases Prod.Lex.toLex_le_toLex.mp before with earlier | same
  · exact le_of_lt earlier
  · exact le_of_eq same.1

theorem sort_tasks_ordered (tasks : List Task) :
    (sortTasks tasks).Pairwise fun first second => first.createdAt ≤ second.createdAt := by
  have total : Std.Total sortedBefore := ⟨fun first second => le_total _ _⟩
  have transitive : IsTrans Task sortedBefore := ⟨fun _ _ _ => le_trans⟩
  exact (List.pairwise_insertionSort sortedBefore tasks).imp older_of_sorted_before

theorem oldest_mem {tasks : List Task} {task : Task} (found : oldest tasks = some task) :
    task ∈ tasks := by
  rw [← mem_sort_tasks]
  exact List.mem_of_head? found

theorem oldest_le {tasks : List Task} {task : Task} (found : oldest tasks = some task) :
    ∀ other ∈ tasks, task.createdAt ≤ other.createdAt := by
  intro other member
  have ordered := sort_tasks_ordered tasks
  rw [← mem_sort_tasks] at member
  unfold oldest at found
  cases sorted : sortTasks tasks with
  | nil => simp [sorted] at member
  | cons first rest =>
      rw [sorted] at found ordered member
      obtain rfl : first = task := Option.some.inj found
      rcases List.mem_cons.mp member with rfl | later
      · exact le_refl _
      · exact (List.pairwise_cons.mp ordered).1 other later

theorem oldest_eq_none {tasks : List Task} (none_ : oldest tasks = none) : tasks = [] := by
  have empty : sortTasks tasks = [] := List.head?_eq_none_iff.mp none_
  exact List.eq_nil_iff_forall_not_mem.mpr fun task member => by
    rw [← mem_sort_tasks, empty] at member
    exact List.not_mem_nil member

end Order

structure MemoryQueue where
  tasks : Dict Str Task
  byTransport : Dict Str Str

namespace MemoryQueue

def empty : MemoryQueue := ⟨Dict.empty, Dict.empty⟩

def enqueue (q : MemoryQueue) (task : Task) (state : TaskState) (now : Instant) :
    Option Task × MemoryQueue :=
  if (q.byTransport.get task.transportId).isSome || (q.tasks.get task.id).isSome then (none, q)
  else
    let stored := { task with state := state, attempts := 0, leaseUntil := none, createdAt := now }
    (some stored,
      ⟨q.tasks.set stored.id stored, q.byTransport.set stored.transportId stored.id⟩)

def get (q : MemoryQueue) (taskId : Str) : Option Task := q.tasks.get taskId

def inState (q : MemoryQueue) (state : TaskState) : List Task :=
  q.tasks.values.filter fun task => task.state = state

def list (q : MemoryQueue) (state : TaskState) (limit : Int) : List Task :=
  sliceTo limit (sortTasks (q.inState state))

def update (q : MemoryQueue) (task : Task) : MemoryQueue :=
  { q with tasks := q.tasks.set task.id task }

def claim (q : MemoryQueue) (task : Task) (lease : Duration) (now : Instant) :
    Bool × MemoryQueue :=
  match q.tasks.get task.id with
  | none => (false, q)
  | some stored =>
      if stored.state ≠ .queued then (false, q)
      else (true, q.update { stored with state := .running, leaseUntil := some (now + lease) })

def claimNext (q : MemoryQueue) (lease : Duration) (now : Instant) :
    Option Task × MemoryQueue :=
  match oldest (q.inState .queued) with
  | none => (none, q)
  | some stored =>
      let running := { stored with state := .running, leaseUntil := some (now + lease) }
      (some running, q.update running)

def transition (q : MemoryQueue) (task : Task) (toState : TaskState)
    (evidence : Option Evidence) : Except Exn Task × MemoryQueue :=
  match q.tasks.get task.id with
  | none => (.error (.taskNotFound task.id), q)
  | some stored =>
      if stored.state ≠ task.state then
        (.error (.stateConflict task.id task.state stored.state), q)
      else
        let moved := { stored with
          state := toState
          leaseUntil := if toState ≠ .running then none else stored.leaseUntil
          evidence := if evidence.isSome then evidence else stored.evidence }
        (.ok moved, q.update moved)

def releaseStale (q : MemoryQueue) (now : Instant) : List Task × MemoryQueue :=
  let released := q.tasks.values.filterMap fun task =>
    if stale now task then some (release task) else none
  (sortTasks released, { q with tasks := q.tasks.mapValues fun _ => releaseIfStale now })

def step (op : QueueOp) (now : Instant) (q : MemoryQueue) : op.Reply × MemoryQueue :=
  match op with
  | .enqueue task state => let r := q.enqueue task state now; (.ok r.1, r.2)
  | .get taskId => (.ok (q.get taskId), q)
  | .list state limit => (.ok (q.list state limit), q)
  | .claim task lease => let r := q.claim task lease now; (.ok r.1, r.2)
  | .claimNext lease => let r := q.claimNext lease now; (.ok r.1, r.2)
  | .transition task toState evidence => q.transition task toState evidence
  | .releaseStale limit => let r := q.releaseStale limit; (.ok r.1, r.2)

def board (q : MemoryQueue) : Board := q.tasks.get

/-- Tasks are filed under their own id, and the transport index is exact. -/
structure WellFormed (q : MemoryQueue) : Prop where
  filed : q.board.Filed
  indexed : ∀ transportId id, q.byTransport.get transportId = some id ↔
    ∃ task, q.tasks.get id = some task ∧ task.transportId = transportId

theorem empty_well_formed : empty.WellFormed where
  filed id task found := by simp [board, empty] at found
  indexed transportId id := by simp [empty]

@[simp] theorem board_update (q : MemoryQueue) (task : Task) :
    (q.update task).board = q.board.put task := by
  funext id
  exact Dict.get_set q.tasks task.id id task

theorem found_under_own_id {q : MemoryQueue} (wellFormed : q.WellFormed) {id : Str} {stored : Task}
    (found : q.tasks.get id = some stored) : q.tasks.get stored.id = some stored := by
  rw [wellFormed.filed id stored found]
  exact found

theorem update_well_formed {q : MemoryQueue} {stored task : Task} (wellFormed : q.WellFormed)
    (found : q.tasks.get stored.id = some stored) (sameId : task.id = stored.id)
    (transport : task.transportId = stored.transportId) : (q.update task).WellFormed where
  filed id other located := by
    rw [board_update] at located
    unfold Board.put at located
    split_ifs at located with same
    · rw [same, ← Option.some.inj located]
    · exact wellFormed.filed id other located
  indexed transportId id := by
    rw [update, wellFormed.indexed, Dict.get_set]
    by_cases same : id = task.id
    · subst same
      simp [sameId, found, transport]
    · rw [if_neg same]

theorem taken_iff {q : MemoryQueue} (wellFormed : q.WellFormed) (task : Task) :
    Taken q.board task ↔
      ((q.byTransport.get task.transportId).isSome || (q.tasks.get task.id).isSome) = true := by
  rw [Bool.or_eq_true, Option.isSome_iff_exists, Option.isSome_iff_exists]
  constructor
  · rintro ⟨id, stored, found, rfl | transport⟩
    · exact .inr ⟨stored, found⟩
    · exact .inl ⟨id, (wellFormed.indexed _ _).mpr ⟨stored, found, transport⟩⟩
  · rintro (⟨id, found⟩ | ⟨stored, found⟩)
    · obtain ⟨stored, located, transport⟩ := (wellFormed.indexed _ _).mp found
      exact ⟨id, stored, located, .inr transport⟩
    · exact ⟨task.id, stored, found, .inl rfl⟩

theorem mem_in_state {q : MemoryQueue} (wellFormed : q.WellFormed) (state : TaskState)
    (task : Task) : task ∈ q.inState state ↔ q.board task.id = some task ∧ task.state = state := by
  simp only [inState, List.mem_filter, Dict.mem_values_iff, decide_eq_true_eq]
  refine and_congr_left fun _ => ⟨?_, fun found => ⟨task.id, found⟩⟩
  rintro ⟨key, found⟩
  rw [wellFormed.filed key task found]
  exact found

theorem enqueue_well_formed {q : MemoryQueue} (wellFormed : q.WellFormed) (task : Task)
    (state : TaskState) (now : Instant) : (q.enqueue task state now).2.WellFormed := by
  unfold enqueue
  split_ifs with taken
  · exact wellFormed
  · rw [← taken_iff wellFormed] at taken
    have freshId : q.tasks.get task.id = none := by
      by_contra stored
      obtain ⟨other, found⟩ := Option.ne_none_iff_exists'.mp stored
      exact taken ⟨task.id, other, found, .inl rfl⟩
    constructor
    · intro id other located
      simp only [board, Dict.get_set] at located
      split_ifs at located with same
      · rw [same, ← Option.some.inj located]
      · exact wellFormed.filed id other located
    · intro transportId id
      simp only [Dict.get_set]
      by_cases sameId : id = task.id
      · subst sameId
        by_cases sameTransport : transportId = task.transportId
        · simp [sameTransport]
        · have notIndexed : q.byTransport.get transportId ≠ some task.id := by
            rw [Ne, wellFormed.indexed, freshId]
            simp
          simp [sameTransport, notIndexed, Ne.symm sameTransport]
      · rw [if_neg sameId]
        by_cases sameTransport : transportId = task.transportId
        · subst sameTransport
          have untaken : ¬∃ other, q.tasks.get id = some other ∧
              other.transportId = task.transportId := by
            rintro ⟨other, found, transport⟩
            exact taken ⟨id, other, found, .inr transport⟩
          simp [untaken, Ne.symm sameId]
        · rw [if_neg sameTransport, wellFormed.indexed]

theorem step_well_formed {q : MemoryQueue} (wellFormed : q.WellFormed) (op : QueueOp)
    (now : Instant) : (step op now q).2.WellFormed := by
  cases op with
  | enqueue task state => exact enqueue_well_formed wellFormed task state now
  | get taskId => exact wellFormed
  | list state limit => exact wellFormed
  | claim task lease =>
      simp only [step, claim]
      split
      · exact wellFormed
      · rename_i stored found
        split_ifs
        · exact wellFormed
        · exact update_well_formed wellFormed (found_under_own_id wellFormed found) rfl rfl
  | claimNext lease =>
      simp only [step, claimNext]
      split
      · exact wellFormed
      · rename_i stored found
        have located := ((mem_in_state wellFormed _ _).mp (oldest_mem found)).1
        exact update_well_formed wellFormed located rfl rfl
  | transition task toState evidence =>
      simp only [step, transition]
      split
      · exact wellFormed
      · rename_i stored found
        by_cases changed : stored.state ≠ task.state
        · rw [if_pos changed]
          exact wellFormed
        · rw [if_neg changed]
          exact update_well_formed wellFormed (found_under_own_id wellFormed found) rfl rfl
  | releaseStale limit =>
      have kept : ∀ task, (releaseIfStale limit task).id = task.id ∧
          (releaseIfStale limit task).transportId = task.transportId := by
        intro task
        unfold releaseIfStale release
        split_ifs <;> exact ⟨rfl, rfl⟩
      constructor
      · intro id task located
        simp only [step, releaseStale, board, Dict.get_map_values, Option.map_eq_some_iff]
          at located
        obtain ⟨stored, found, rfl⟩ := located
        rw [(kept stored).1]
        exact wellFormed.filed id stored found
      · intro transportId id
        simp only [step, releaseStale, Dict.get_map_values]
        rw [wellFormed.indexed]
        cases q.tasks.get id with
        | none => simp
        | some stored => simp [(kept stored).2]

theorem claimed_refines {q : MemoryQueue} (until_ : Instant) (stored : Task) :
    (q.update { stored with state := .running, leaseUntil := some until_ }).board =
      q.board.put (claimed until_ stored) := board_update q _

theorem release_refines (q : MemoryQueue) (limit : Instant) (task : Task) :
    task ∈ (q.releaseStale limit).1 ↔
      ∃ id stored, q.board id = some stored ∧ stale limit stored ∧ task = release stored := by
  simp only [releaseStale, mem_sort_tasks, List.mem_filterMap, Dict.mem_values_iff]
  constructor
  · rintro ⟨stored, ⟨id, found⟩, released⟩
    split_ifs at released with expired
    exact ⟨id, stored, found, expired, (Option.some.inj released).symm⟩
  · rintro ⟨id, stored, found, expired, rfl⟩
    exact ⟨stored, ⟨id, found⟩, by rw [if_pos expired]⟩

theorem step_refines {q : MemoryQueue} (wellFormed : q.WellFormed) (op : QueueOp) (now : Instant) :
    Spec now op q.board (step op now q).1 (step op now q).2.board := by
  cases op with
  | enqueue task state =>
      simp only [step, enqueue]
      split_ifs with taken
      · exact .inl ⟨(taken_iff wellFormed task).mpr taken, rfl, rfl⟩
      · refine .inr ⟨fun found => taken ((taken_iff wellFormed task).mp found), _, ?_, rfl, ?_⟩
        · exact ⟨rfl, rfl, rfl, rfl, rfl, rfl, rfl, rfl, rfl⟩
        · funext id
          exact Dict.get_set q.tasks task.id id _
  | get taskId => exact ⟨rfl, rfl⟩
  | list state limit =>
      refine ⟨rfl, .inl ⟨_, rfl, take_is_page (fun task => ?_) (sort_tasks_ordered _) wellFormed.filed
        fun positive => by rw [if_pos positive]; omega⟩⟩
      rw [mem_sort_tasks, mem_in_state wellFormed]
  | claim task lease =>
      simp only [step, claim]
      split
      · rename_i missing
        exact .inr ⟨fun stored found => by simp [board, missing] at found, rfl, rfl⟩
      · rename_i stored found
        by_cases queued : stored.state = .queued
        · rw [if_neg (not_not.mpr queued)]
          exact .inl ⟨stored, found, queued, rfl, claimed_refines _ _⟩
        · rw [if_pos queued]
          refine .inr ⟨fun other located => ?_, rfl, rfl⟩
          obtain rfl : stored = other := Option.some.inj (found.symm.trans located)
          exact queued
  | claimNext lease =>
      simp only [step, claimNext]
      split
      · rename_i missing
        refine .inr ⟨fun id stored found queued => ?_, rfl, rfl⟩
        have member := (mem_in_state wellFormed .queued stored).mpr
          ⟨found_under_own_id wellFormed found, queued⟩
        rw [oldest_eq_none missing] at member
        exact List.not_mem_nil member
      · rename_i stored found
        have located := (mem_in_state wellFormed _ _).mp (oldest_mem found)
        refine .inl ⟨stored, located.1, located.2, fun id other present queued => ?_, rfl,
          claimed_refines _ _⟩
        exact oldest_le found other ((mem_in_state wellFormed _ _).mpr
          ⟨found_under_own_id wellFormed present, queued⟩)
  | transition task toState evidence =>
      simp only [step, transition]
      split
      · rename_i missing
        exact .inl ⟨missing, rfl, rfl⟩
      · rename_i stored found
        by_cases changed : stored.state ≠ task.state
        · rw [if_pos changed]
          exact .inr (.inl ⟨stored, found, changed, rfl, rfl⟩)
        · rw [if_neg changed]
          refine .inr (.inr ⟨stored, _, found, not_not.mp changed,
            ⟨if evidence.isSome then evidence else stored.evidence, ?_, ?_⟩, rfl,
            board_update q _⟩)
          · rintro rfl
            rfl
          · by_cases running : toState = .running <;> simp [running]
  | releaseStale limit =>
      refine .inl ⟨_, rfl, ?_, release_refines q limit⟩
      funext id
      exact Dict.get_map_values _ q.tasks id

def backend : QueueBackend where
  Store := { q : MemoryQueue // q.WellFormed }
  board q := q.1.board
  filed q := q.2.filed
  step op now q := ((step op now q.1).1, ⟨(step op now q.1).2, step_well_formed q.2 op now⟩)
  refines op now q := step_refines q.2 op now

def deduping : DedupingQueue where
  toQueueBackend := backend
  leaves task state now q taken := by
    have stored := (taken_iff q.2 task).mp taken
    refine Subtype.ext ?_
    change (q.1.enqueue task state now).2 = q.1
    unfold enqueue
    rw [if_pos stored]

def paging : PagingQueue where
  toQueueBackend := backend
  page q limit := .ok (q.1.list .queued limit)
  lists _ _ _ := rfl
  distinct q limit tasks listed := by
    obtain rfl := Except.ok.inj listed
    have among : ((q.1.inState .queued).map Task.id).Nodup := by
      apply List.Nodup.sublist _ (q.1.tasks.values_nodup q.2.filed)
      exact List.Sublist.map _ List.filter_sublist
    have sorted : ((sortTasks (q.1.inState .queued)).map Task.id).Nodup :=
      ((List.perm_insertionSort _ _).map _).nodup_iff.mpr among
    exact List.Nodup.sublist (List.Sublist.map _ (List.take_sublist _ _)) sorted

def steady : SteadyQueue where
  toPagingQueue := paging
  got _ _ _ := rfl
  listed _ _ _ _ := rfl
  leased task lease lease' now now' q same := by
    have claims : step (.claim task lease) now q.1 = step (.claim task lease') now' q.1 := by
      simp only [step, claim, same]
    have replies := congrArg Prod.fst claims
    have stores := congrArg Prod.snd claims
    exact Prod.ext replies (Subtype.ext stores)

end MemoryQueue

end DearAgent.Queue
