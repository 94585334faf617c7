import DearAgent.Queue.Claims
import DearAgent.Stores

/-!
# Concurrent claims of the PostgreSQL queue

The callers take turns at single statements. A claim is one guarded statement, so it is
atomic whatever other callers do between its cursor and its commit.
-/

namespace DearAgent.Stores

open DearAgent.Lib.Text DearAgent.Lib.Effects DearAgent.Lib.Dictionaries DearAgent.Lib.Transactions
open DearAgent.Lib.Interleaving (CameTo)
open DearAgent.Queue

set_option autoImplicit false

variable (collation : Collation)

/-- One statement against the shared tables. A statement that fails changes nothing. -/
def answerSql (request : SessionRequest (sql collation)) (t : Tables) :
    (session (sql collation)).Reply request × Tables :=
  match request with
  | .cursor => (.ok (), t)
  | .commit => (.ok (), t)
  | .execute statement =>
      match runSql collation statement t with
      | .ok (result, after) => (.ok result, after)
      | .error error => (.error error, t)

def claimedBy : Exchange (session (sql collation)) → Option Str
  | ⟨.execute (.claimTask id _), .ok (some _)⟩ => some id
  | ⟨.execute (.claimOldest _), .ok (some row)⟩ => some row.id
  | _ => none

section Tasks

variable {collation}

theorem map_ok {α β : Type} {f : α → β} {answer : Except Exn α} {value : β}
    (mapped : answer.map f = .ok value) : ∃ found, answer = .ok found ∧ f found = value := by
  cases answer with
  | error error => cases mapped
  | ok found => exact ⟨found, rfl, Except.ok.inj mapped⟩

theorem run_sql_tasks {P : PostgresQueue → Prop} {statement : Sql} {t : Tables}
    {done : statement.Result × Tables}
    (ran : runSql collation statement t = .ok done) (same : P t.tasks)
    (inserts : ∀ row, P (t.tasks.insert row).2)
    (updates : ∀ id state change, (∀ row : Row, (change row).id = row.id) →
      P (t.tasks.updateWhere id state change).2)
    (releases : ∀ now, P ⟨t.tasks.rows.mapValues fun _ row =>
      if PostgresQueue.expired now row then PostgresQueue.toQueued row else row⟩) :
    P done.2.tasks := by
  cases statement with
  | insertTask row =>
      cases ran
      exact inserts row
  | claimTask id until_ =>
      cases ran
      exact updates id .queued _ fun _ => rfl
  | claimOldest until_ =>
      cases ran
      change P (claimOldest collation t.tasks until_).2
      unfold claimOldest
      split
      · exact same
      · exact updates _ .queued _ fun _ => rfl
  | moveTask id fromState toState evidence =>
      cases ran
      exact updates id fromState _ fun _ => rfl
  | releaseTasks now =>
      obtain ⟨released, did, rfl⟩ := map_ok ran
      unfold releaseTasks at did
      split_ifs at did
      cases did
      exact releases now
  | selectInState state limit =>
      obtain ⟨rows, _, rfl⟩ := map_ok ran
      exact same
  | selectRecent limit =>
      obtain ⟨rows, _, rfl⟩ := map_ok ran
      exact same
  | selectDecisionAt index =>
      obtain ⟨found, _, rfl⟩ := map_ok ran
      exact same
  | insertApproval approval =>
      simp only [runSql] at ran
      split_ifs at ran
      cases ran
      exact same
  | insertPolicy policy =>
      simp only [runSql] at ran
      split_ifs at ran
      cases ran
      exact same
  | _ =>
      cases ran
      exact same

theorem run_sql_well_formed {statement : Sql} {t : Tables} {done : statement.Result × Tables}
    (wellFormed : t.tasks.WellFormed) (ran : runSql collation statement t = .ok done) :
    done.2.tasks.WellFormed := by
  apply run_sql_tasks ran wellFormed
  · intro row
    unfold PostgresQueue.insert
    split_ifs
    · exact wellFormed
    · exact PostgresQueue.set_well_formed wellFormed _
  · intro id state change kept
    exact PostgresQueue.update_where_well_formed wellFormed id state change kept
  · intro now id row located
    simp only [Dict.get_map_values, Option.map_eq_some_iff] at located
    obtain ⟨stored, found, rfl⟩ := located
    split_ifs
    · exact wellFormed id stored found
    · exact wellFormed id stored found

theorem run_sql_keeps {statement : Sql} {t : Tables} {done : statement.Result × Tables} {key : Str}
    (present : (t.tasks.rows.get key).isSome = true)
    (ran : runSql collation statement t = .ok done) : (done.2.tasks.rows.get key).isSome = true := by
  apply run_sql_tasks (P := fun q => (q.rows.get key).isSome = true) ran present
  · intro row
    unfold PostgresQueue.insert
    split_ifs
    · exact present
    · simp only [Dict.get_set]
      split_ifs
      · rfl
      · exact present
  · intro id state change _
    cases outcome : (t.tasks.updateWhere id state change).1 with
    | none =>
        rw [(PostgresQueue.update_where_none outcome).2]
        exact present
    | some updated =>
        obtain ⟨row, _, _, _, after⟩ := PostgresQueue.update_where_some outcome
        rw [after]
        simp only [Dict.get_set]
        split_ifs
        · rfl
        · exact present
  · intro now
    simp only [Dict.get_map_values, Option.isSome_map]
    exact present

theorem answer_well_formed (request : SessionRequest (sql collation)) {t : Tables}
    (wellFormed : t.tasks.WellFormed) : (answerSql collation request t).2.tasks.WellFormed := by
  cases request with
  | cursor => exact wellFormed
  | commit => exact wellFormed
  | execute statement =>
      cases ran : runSql collation statement t with
      | ok done =>
          simp only [answerSql, ran]
          exact run_sql_well_formed wellFormed ran
      | error error =>
          simp only [answerSql, ran]
          exact wellFormed

theorem answer_keeps (request : SessionRequest (sql collation)) {t : Tables} {key : Str}
    (present : (t.tasks.board key).isSome = true) :
    ((answerSql collation request t).2.tasks.board key).isSome = true := by
  unfold PostgresQueue.board at present ⊢
  rw [Option.isSome_map] at present ⊢
  cases request with
  | cursor => exact present
  | commit => exact present
  | execute statement =>
      cases ran : runSql collation statement t with
      | ok done =>
          simp only [answerSql, ran]
          exact run_sql_keeps present ran
      | error error =>
          simp only [answerSql, ran]
          exact present

theorem update_takes {q : PostgresQueue} (wellFormed : q.WellFormed) {id : Str} {until_ : Instant}
    {updated : Row}
    (changed : (q.updateWhere id .queued (PostgresQueue.toRunning until_)).1 = some updated) :
    updated.id = id ∧ InState q.board id .queued ∧
      InState (q.updateWhere id .queued (PostgresQueue.toRunning until_)).2.board id .running := by
  obtain ⟨row, found, queued, rfl, after⟩ :=
    PostgresQueue.update_where_board wellFormed changed fun _ => rfl
  have own : row.id = id := wellFormed id row found
  subst own
  refine ⟨rfl, ?_, ?_⟩
  · refine ⟨taskFromRow row, (PostgresQueue.board_eq_some_iff _ _ _).mpr ⟨row, found, rfl⟩, queued⟩
  · rw [after]
    exact ⟨_, board_put_self q.board (taskFromRow (PostgresQueue.toRunning until_ row)), rfl⟩

theorem claim_oldest_takes {q : PostgresQueue} (wellFormed : q.WellFormed) {until_ : Instant}
    {updated : Row} (changed : (claimOldest collation q until_).1 = some updated) :
    InState q.board updated.id .queued ∧
      InState (claimOldest collation q until_).2.board updated.id .running := by
  unfold claimOldest at changed ⊢
  split at changed
  · cases changed
  · obtain ⟨own, taken⟩ := update_takes wellFormed changed
    rw [own]
    exact taken

theorem claim_oldest_none {q : PostgresQueue} {until_ : Instant}
    (unchanged : (claimOldest collation q until_).1 = none) :
    (claimOldest collation q until_).2 = q := by
  unfold claimOldest at unchanged ⊢
  split at unchanged
  · rfl
  · exact (PostgresQueue.update_where_none unchanged).2

theorem came_to_single {α : Type} {statement : Sql} {f : statement.Result → α}
    {trace : List (Exchange (session (sql collation)))} {value : α}
    (came : CameTo (do let result ← (single statement : Op collation _); .ret (f result)) trace value) :
    ∃ result, value = f result ∧
      trace = [⟨.cursor, .ok ()⟩, ⟨.execute statement, .ok result⟩, ⟨.commit, .ok ()⟩] := by
  obtain ⟨opened, _, _, _, rfl, came⟩ := came
  cases opened with
  | error error => cases came.2.1
  | ok _ =>
      obtain ⟨answered, _, _, _, rfl, came⟩ := came
      cases answered with
      | error error => cases came.2.1
      | ok result =>
          obtain ⟨committed, _, _, _, rfl, came⟩ := came
          cases committed with
          | error error => cases came.2.1
          | ok _ =>
              obtain ⟨rfl, same, _⟩ := came
              exact ⟨result, Except.ok.inj same, rfl⟩

theorem claim_statement_takes {statement : Sql} {t : Tables} {id : Str}
    (wellFormed : t.tasks.WellFormed)
    (claims : claimedBy collation ⟨.execute statement, (answerSql collation (.execute statement) t).1⟩ =
      some id) :
    InState t.tasks.board id .queued ∧
      InState (answerSql collation (.execute statement) t).2.tasks.board id .running := by
  cases statement with
  | claimTask key until_ =>
      cases changed : (t.tasks.updateWhere key .queued (PostgresQueue.toRunning until_)).1 with
      | none =>
          simp only [answerSql, runSql, changed, claimedBy] at claims
          cases claims
      | some updated =>
          simp only [answerSql, runSql, changed, claimedBy] at claims
          obtain rfl := Option.some.inj claims
          exact (update_takes wellFormed changed).2
  | claimOldest until_ =>
      cases changed : (claimOldest collation t.tasks until_).1 with
      | none =>
          simp only [answerSql, runSql, changed, claimedBy] at claims
          cases claims
      | some updated =>
          simp only [answerSql, runSql, changed, claimedBy] at claims
          obtain rfl := Option.some.inj claims
          exact claim_oldest_takes wellFormed changed
  | _ => cases claims

/-- The three requests of an operation, of which the statement found nothing to claim. -/
theorem single_untouched {statement : Sql} {result : statement.Result} {t : Tables}
    {event : Exchange (session (sql collation))}
    (member : event ∈ [⟨.cursor, .ok ()⟩, ⟨.execute statement, .ok result⟩, ⟨.commit, .ok ()⟩])
    (kept : (answerSql collation (.execute statement) t).1 = .ok result →
      (answerSql collation (.execute statement) t).2 = t)
    (answered : (answerSql collation event.1 t).1 = event.2) :
    (answerSql collation event.1 t).2 = t := by
  simp only [List.mem_cons, List.not_mem_nil, or_false] at member
  rcases member with rfl | rfl | rfl
  · rfl
  · exact kept answered
  · rfl

end Tasks

def atomic : AtomicQueue where
  S := session (sql collation)
  Store := { t : Tables // t.tasks.WellFormed }
  answer request t := ((answerSql collation request t.1).1,
    ⟨(answerSql collation request t.1).2, answer_well_formed request t.2⟩)
  call caller := queueSession caller.2 caller.1
  board t := t.1.tasks.board
  claimed := claimedBy collation
  takes request t id claims := by
    cases request with
    | cursor => cases claims
    | commit => cases claims
    | execute statement => exact claim_statement_takes t.2 claims
  keeps request t id present := answer_keeps request present
  told caller trace value id came claims := by
    obtain ⟨op, now⟩ := caller
    cases op with
    | claim task lease =>
        obtain ⟨result, rfl, rfl⟩ := came_to_single came
        cases result with
        | none => cases claims
        | some row => exact ⟨_, List.mem_cons_of_mem _ List.mem_cons_self, claims⟩
    | claimNext lease =>
        obtain ⟨result, rfl, rfl⟩ := came_to_single came
        cases result with
        | none => cases claims
        | some row => exact ⟨_, List.mem_cons_of_mem _ List.mem_cons_self, claims⟩
    | _ => cases claims
  untouched caller trace value came refuses event member t answered := by
    obtain ⟨op, now⟩ := caller
    apply Subtype.ext
    cases op with
    | claim task lease =>
        obtain ⟨result, rfl, rfl⟩ := came_to_single came
        cases result with
        | some row => cases refuses
        | none =>
            refine single_untouched member (fun unclaimed => ?_) answered
            have unchanged := PostgresQueue.update_where_none (Except.ok.inj unclaimed)
            simp only [answerSql, runSql, unchanged.2]
    | claimNext lease =>
        obtain ⟨result, rfl, rfl⟩ := came_to_single came
        cases result with
        | some row => cases refuses
        | none =>
            refine single_untouched member (fun unclaimed => ?_) answered
            have unchanged := claim_oldest_none (Except.ok.inj unclaimed)
            simp only [answerSql, runSql, unchanged]
    | _ => cases refuses

/-- Of either queue no two callers hold one period in which a task runs. -/
theorem both_queues_claim_exclusively :
    MemoryQueue.atomic.ClaimsExclusive ∧ (atomic collation).ClaimsExclusive :=
  ⟨MemoryQueue.atomic.claims_exclusive, (atomic collation).claims_exclusive⟩

end DearAgent.Stores
