import DearAgent.Stores
import DearAgent.Db.Failures

/-!
# The stores after a refused statement

No operation of the five stores rolls back. They share one connection, so after the
server refused a statement of one of them every operation of any of them raises.
-/

namespace DearAgent.Stores

open DearAgent.Lib.Text DearAgent.Lib.Effects DearAgent.Lib.Dictionaries DearAgent.Lib.Transactions
open DearAgent.Queue

set_option autoImplicit false

variable {collation : Collation} {α : Type}

def inFailedSqlTransaction : Exn := .otherException "InFailedSqlTransaction"
  "current transaction is aborted, commands ignored until end of transaction block"

abbrev Database (collation : Collation) := Server (sql collation) inFailedSqlTransaction

theorem ended_without_of_declares {program : Op collation α} (declares : Declares program) :
    EndedWithout inFailedSqlTransaction program := by
  refine ⟨ended_of_declares declares, ?_⟩
  rintro rfl
  rcases declares with ⟨value, returned⟩ | ⟨error, raised, declared⟩
  · cases returned
  · cases raised
    exact declared _ _ rfl

theorem operation_queries [Unicode] (op : StoreOp) :
    Queries (op.session : Op collation op.Result) := by
  cases op with
  | queue op now => cases op <;> trivial
  | approvals op ttl readings => cases op <;> trivial
  | policies op => cases op <;> trivial
  | events op => cases op <;> trivial
  | decisions op => cases op <;> trivial

def storeOperations [Unicode] (collation : Collation) :
    Db.Operations (sql collation) inFailedSqlTransaction where
  Op := StoreOp
  Result := StoreOp.Result
  session op := op.session
  shape op := transaction_mono (fun _ => ended_without_of_declares) (operation_transaction op)
  queries := operation_queries
  undone op := (operation_atomic op).undone

/-- What raised is not noticed by any later operation, exactly if the server refuses at
most a statement of the last operation. -/
theorem failure_unnoticed_iff [Unicode] (database : Database collation) (ops : List StoreOp)
    (tables : Tables) :
    Db.Usable (storeOperations collation) database ops (emptyLink tables false) ↔
      Db.Accepted (storeOperations collation) database ops tables :=
  Db.usable_iff (storeOperations collation) database ops tables

section Refusals

variable (collation)

/-- No refusal of a modelled statement is the exception of a lost connection, or tells of
an aborted transaction. -/
def Refusal (error : Exn) : Prop := isConnectionError error = false ∧ error ≠ inFailedSqlTransaction

theorem counted_refusal {β : Type} {clause : Clause} {count : Int} {rows : Nat → β} {error : Exn}
    (raised : counted clause count rows = .error error) : Refusal error := by
  unfold counted at raised
  split_ifs at raised
  · cases raised
    cases clause <;> exact ⟨by decide, by decide⟩
  · cases raised
    cases clause <;> exact ⟨by decide, by decide⟩

theorem refusal_of_map {β γ : Type} {f : β → γ} {answer : Except Exn β} {error : Exn}
    (refusals : ∀ error, answer = .error error → Refusal error)
    (raised : answer.map f = .error error) : Refusal error := by
  cases answer with
  | ok value => cases raised
  | error other =>
      cases raised
      exact refusals _ rfl

theorem run_sql_refusal {statement : Sql} {t : Tables} {error : Exn}
    (raised : runSql collation statement t = .error error) : Refusal error := by
  cases statement with
  | selectInState state limit => exact refusal_of_map (fun _ => counted_refusal) raised
  | selectRecent limit => exact refusal_of_map (fun _ => counted_refusal) raised
  | selectDecisionAt index => exact refusal_of_map (fun _ => counted_refusal) raised
  | releaseTasks now =>
      apply refusal_of_map ?_ raised
      intro other full
      unfold releaseTasks at full
      split_ifs at full
      cases full
      exact ⟨by decide, by decide⟩
  | insertApproval approval =>
      simp only [runSql] at raised
      split_ifs at raised
      cases raised
      exact ⟨by decide, by decide⟩
  | insertPolicy policy =>
      simp only [runSql] at raised
      split_ifs at raised
      cases raised
      exact ⟨by decide, by decide⟩
  | _ => cases raised

/-- A text that a `jsonb` column does not take. -/
def hasNull (text : Str) : Bool := text.any fun c => c = '\x00'

def Datum.hasNull : Datum → Bool
  | .text value => Stores.hasNull value
  | .texts values => values.any Stores.hasNull
  | .none | .number _ => false

def untranslatableCharacter : Exn := .otherException "UntranslatableCharacter"
  "unsupported Unicode escape sequence"

theorem untranslatable_refusal : Refusal untranslatableCharacter :=
  ⟨by decide, by decide⟩

def unaccepted (data : EventData) : Bool :=
  data.any fun item => hasNull item.1 || Datum.hasNull item.2

def Sql.unaccepted : Sql → Bool
  | .insertEvent event => Stores.unaccepted event.data
  | _ => false

def runChecked (statement : Sql) (t : Tables) : Except Exn (statement.Result × Tables) :=
  if statement.unaccepted then .error untranslatableCharacter else runSql collation statement t

def connectionClosed : Exn := .otherException "OperationalError" "the connection is closed"

theorem aborted_remains : isConnectionError inFailedSqlTransaction = false := by decide

theorem connection_lost : isConnectionError connectionClosed = true := by decide

def checkingDatabase : Database collation where
  run := runChecked collation
  unconnected := connectionClosed
  agrees statement t done ran := by
    unfold runChecked at ran
    split_ifs at ran
    exact ran
  refusals statement t error raised := by
    unfold runChecked at raised
    split_ifs at raised
    · cases raised
      exact untranslatable_refusal
    · exact run_sql_refusal collation raised
  abortedRemains := aborted_remains
  unconnectedLost := connection_lost

def countRefused (limit : Int) : Bool := limit < 0 || maxLimit < limit

def StoreOp.refused (t : Tables) : StoreOp → Bool
  | .queue (.list _ limit) _ => countRefused limit
  | .queue (.releaseStale now) _ => t.tasks.rows.values.any fun row =>
      PostgresQueue.expired now row && maxAttempts ≤ row.attempts
  | .approvals (.issue taskId action) ttl readings =>
      (t.approvals.get (newApproval ttl taskId action readings).token).isSome
  | .policies (.replaceAll replacing) => !decide (replacing.map ProjectPolicy.project).Nodup
  | .events (.record _ _ data _) => unaccepted data
  | .events (.recent limit) => countRefused limit
  | .decisions (.label index _) => countRefused index
  | _ => false

variable {collation}

theorem is_ok_map {β γ : Type} {f : β → γ} (answer : Except Exn β) :
    (answer.map f).isOk = answer.isOk := by
  cases answer <;> rfl

theorem is_ok_counted {β : Type} (clause : Clause) (count : Int) (rows : Nat → β) :
    (counted clause count rows).isOk = !countRefused count := by
  unfold counted countRefused
  split_ifs with negative large
  · simp [negative, Except.isOk, Except.toBool]
  · simp [large, Except.isOk, Except.toBool]
  · simp [negative, large, Except.isOk, Except.toBool]

theorem refused_first {statement : Sql} {next : Except Exn statement.Result → Op collation α}
    {t : Tables} {refusal : Bool}
    (later : ∀ result seen, (checkingDatabase collation).refused (next (.ok result)) seen = false)
    (ran : (runChecked collation statement t).isOk = !refusal) :
    (checkingDatabase collation).refused (.ask (.execute statement) next) t = refusal := by
  unfold Server.refused
  cases answered : runChecked collation statement t with
  | ok done =>
      rw [answered] at ran
      rw [show (checkingDatabase collation).run statement t = .ok done from answered]
      exact (later done.1 done.2).trans (Bool.not_inj ran)
  | error error =>
      rw [answered] at ran
      rw [show (checkingDatabase collation).run statement t = .error error from answered]
      exact Bool.not_inj ran

theorem checked_plain {statement : Sql} (accepted : statement.unaccepted = false) (t : Tables) :
    runChecked collation statement t = runSql collation statement t := by
  rw [runChecked, accepted]
  rfl

theorem checked_is_ok {statement : Sql} {t : Tables}
    (ran : (runSql collation statement t).isOk = true) :
    (runChecked collation statement t).isOk = !statement.unaccepted := by
  unfold runChecked
  split_ifs with null
  · rw [null]
    rfl
  · rw [ran, Bool.of_not_eq_true null]
    rfl

theorem refused_after {statement : Sql} (accepted : statement.unaccepted = false)
    {next : Except Exn statement.Result → Op collation α} {t seen : Tables} {result : statement.Result}
    (ran : runSql collation statement t = .ok (result, seen)) :
    (checkingDatabase collation).refused (.ask (.execute statement) next) t =
      (checkingDatabase collation).refused (next (.ok result)) seen := by
  have answered : (checkingDatabase collation).run statement t = .ok (result, seen) := by
    exact (checked_plain accepted t).trans ran
  rw [Server.refused, answered]

theorem refused_insert_policies (policies : List ProjectPolicy) (t : Tables) :
    (checkingDatabase collation).refused
      (do let _ ← (insertPolicies policies : Op collation Unit); commit) t = false ↔
        (policies.map ProjectPolicy.project).Nodup ∧
          ∀ policy ∈ policies, t.policies.get policy.project = none := by
  induction policies generalizing t with
  | nil =>
      exact ⟨fun _ => ⟨List.nodup_nil, fun _ never => absurd never List.not_mem_nil⟩, fun _ => rfl⟩
  | cons policy rest ih =>
      change (checkingDatabase collation).refused (.ask (.execute (.insertPolicy policy)) _) t = false ↔ _
      cases found : t.policies.get policy.project with
      | some old =>
          have raised : (checkingDatabase collation).run (.insertPolicy policy) t =
              .error uniqueViolation := by
            change runSql collation (.insertPolicy policy) t = _
            simp only [runSql, found, Option.isSome_some, if_true]
          rw [Server.refused, raised]
          constructor
          · intro never
            cases never
          · intro distinct
            have absent := distinct.2 policy List.mem_cons_self
            rw [found] at absent
            cases absent
      | none =>
          have inserted : runSql collation (.insertPolicy policy) t =
              .ok ((), { t with policies := t.policies.set policy.project policy }) := by
            simp only [runSql, found]
            rfl
          rw [refused_after rfl inserted]
          refine (ih _).trans ?_
          simp only [List.map_cons, List.nodup_cons, List.mem_map, List.forall_mem_cons, found,
            true_and, Dict.get_set]
          constructor
          · intro later
            refine ⟨⟨?_, later.1⟩, ?_⟩
            · rintro ⟨other, member, same⟩
              have absent := later.2 other member
              rw [if_pos same] at absent
              cases absent
            · intro other member
              have absent := later.2 other member
              split_ifs at absent
              exact absent
          · intro distinct
            refine ⟨distinct.1.2, fun other member => ?_⟩
            rw [if_neg fun same => distinct.1.1 ⟨other, member, same⟩]
            exact distinct.2 other member

theorem refused_eq [Unicode] (op : StoreOp) (t : Tables) :
    (checkingDatabase collation).refused op.session t = op.refused t := by
  cases op with
  | queue op now =>
      cases op with
      | enqueue task state => rfl
      | get taskId => rfl
      | list state limit => exact refused_first (fun _ _ => rfl) ((is_ok_map _).trans (is_ok_counted _ _ _))
      | claim task lease => rfl
      | claimNext lease => rfl
      | transition task toState evidence =>
          refine (refused_after rfl rfl).trans ?_
          cases (t.tasks.updateWhere task.id task.state
            (PostgresQueue.applyTransition toState evidence)).1 with
          | some row => rfl
          | none =>
              refine (refused_after rfl rfl).trans ?_
              generalize Option.map Row.state _ = current
              cases current <;> rfl
      | releaseStale limit =>
          refine refused_first (fun _ _ => rfl) ((is_ok_map _).trans ?_)
          unfold releaseTasks
          split_ifs with full <;> simp [full, Except.isOk, Except.toBool, StoreOp.refused]
  | approvals op ttl readings =>
      cases op with
      | issue taskId action =>
          refine refused_first (fun _ _ => rfl) ?_
          rw [checked_plain rfl]
          simp only [runSql, StoreOp.refused]
          cases (t.approvals.get (newApproval ttl taskId action readings).token).isSome <;> rfl
      | get token => rfl
      | redeem token =>
          refine (refused_after rfl rfl).trans ?_
          cases (useApproval t.approvals token readings.now).1 with
          | some row => rfl
          | none =>
              refine (refused_after rfl rfl).trans ?_
              generalize Registry.get _ token = current
              cases current with
              | none => rfl
              | some approval =>
                  change (checkingDatabase collation).refused
                    (if approval.used = true then _ else _) _ = false
                  split_ifs <;> rfl
      | pending => rfl
  | policies op =>
      cases op with
      | list => rfl
      | get project => rfl
      | replaceAll policies =>
          refine (refused_after rfl rfl).trans ?_
          have distinct := @refused_insert_policies collation policies
            { t with policies := Dict.empty }
          by_cases nodup : (policies.map ProjectPolicy.project).Nodup
          · rw [StoreOp.refused, decide_eq_true nodup]
            exact distinct.mpr ⟨nodup, fun _ _ => rfl⟩
          · rw [StoreOp.refused, decide_eq_false nodup]
            exact Bool.of_not_eq_false fun accepted => nodup (distinct.mp accepted).1
      | forRepo repo => rfl
  | events op =>
      cases op with
      | record taskId kind data now =>
          exact refused_first (fun _ _ => rfl) (checked_is_ok rfl)
      | read taskId => rfl
      | recent limit => exact refused_first (fun _ _ => rfl) ((is_ok_map _).trans (is_ok_counted _ _ _))
      | count kind since => rfl
  | decisions op =>
      cases op with
      | record record => rfl
      | read => rfl
      | label index label =>
          refine refused_first ?_ ((is_ok_map _).trans (is_ok_counted _ _ _))
          intro found seen
          cases found <;> rfl

end Refusals

section Example

local instance failureTables : Unicode := asciiTables

/-- An event of which the server refuses the data, as `_emit` records it and goes on. -/
def blockedEvent : StoreOp :=
  .events (.record "m1" "verify.blocked" [("command", .text "make\x00")] 0)

theorem refused_event_noticed :
    ¬Db.Usable (storeOperations codePoint) (checkingDatabase codePoint) [blockedEvent, storesTask]
      (emptyLink emptyTables false) := by
  intro usable
  have accepted := ((Db.usable_iff (storeOperations codePoint) (checkingDatabase codePoint)
    [blockedEvent, storesTask] emptyTables).mp usable).1
  rcases accepted with last | taken
  · cases last
  · rw [show (checkingDatabase codePoint).refused
      ((storeOperations codePoint).session blockedEvent) emptyTables = _ from
        refused_eq blockedEvent emptyTables] at taken
    exact absurd taken (by decide)

end Example

end DearAgent.Stores
