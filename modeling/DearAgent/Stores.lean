import DearAgent.Db
import DearAgent.Ports
import DearAgent.Queue.Agreement

/-!
# The PostgreSQL stores

The statements of the five stores over their tables, and the operations of the
stores as sessions: one transaction each. Without a loss of the connection an
operation of the queue and of the approval store does what its backend does.
-/

namespace DearAgent.Stores

open DearAgent.Lib.Text DearAgent.Lib.Effects DearAgent.Lib.Dictionaries DearAgent.Lib.Transactions
open DearAgent.Queue

set_option autoImplicit false

structure TaskEvent where
  taskId : Str
  kind : Str
  at_ : Instant
  data : EventData
deriving DecidableEq

structure DecisionRecord where
  at_ : Str
  state : Str
  questions : List (Str × Json)
  answers : List (Str × Json)
  label : Option Str := none

/-- The rows of the tables. Those of a `bigserial` key stand in the order of the key. -/
structure Tables where
  tasks : PostgresQueue
  approvals : Registry
  policies : Dict Str ProjectPolicy
  events : List TaskEvent
  decisions : List DecisionRecord

inductive Sql
  | insertTask (row : Row)
  | selectTask (id : Str)
  | selectInState (state : TaskState) (limit : Int)
  | claimTask (id : Str) (until_ : Instant)
  | claimOldest (until_ : Instant)
  | moveTask (id : Str) (fromState toState : TaskState) (evidence : Option Evidence)
  | selectState (id : Str)
  | releaseTasks (now : Instant)
  | insertApproval (approval : Approval)
  | selectApproval (token : Str)
  | useApproval (token : Str) (now : Instant)
  | selectUnused
  | selectPolicies
  | selectPolicy (project : Str)
  | deletePolicies
  | insertPolicy (policy : ProjectPolicy)
  | insertEvent (event : TaskEvent)
  | selectEvents (taskId : Str)
  | selectRecent (limit : Int)
  | countEvents (kind : Str) (since : Instant)
  | insertDecision (record : DecisionRecord)
  | selectDecisions
  | selectDecisionAt (index : Int)
  | labelDecision (id : Nat) (label : Str)

@[reducible] def Sql.Result : Sql → Type
  | .insertTask _ | .selectTask _ | .claimTask _ _ | .claimOldest _ | .moveTask _ _ _ _ => Option Row
  | .selectInState _ _ | .releaseTasks _ => List Row
  | .selectState _ => Option TaskState
  | .selectApproval _ | .useApproval _ _ => Option Approval
  | .selectUnused => List Approval
  | .selectPolicies => List ProjectPolicy
  | .selectPolicy _ => Option ProjectPolicy
  | .selectEvents _ | .selectRecent _ => List TaskEvent
  | .countEvents _ _ => Nat
  | .selectDecisions => List DecisionRecord
  | .selectDecisionAt _ => Option Nat
  | .insertApproval _ | .deletePolicies | .insertPolicy _ | .insertEvent _ | .insertDecision _
  | .labelDecision _ _ => Unit

def uniqueViolation : Exn := .otherException "UniqueViolation" "duplicate key value"

inductive Clause
  | limit | offset

def Clause.word : Clause → Str
  | .limit => "LIMIT"
  | .offset => "OFFSET"

def Clause.className : Clause → Str
  | .limit => "InvalidRowCountInLimitClause"
  | .offset => "InvalidRowCountInResultOffsetClause"

/-- A `LIMIT` or `OFFSET` the server takes. -/
def counted {α : Type} (clause : Clause) (count : Int) (rows : Nat → α) : Except Exn α :=
  if count < 0 then .error (.otherException clause.className
    (clause.word ++ " must not be negative".toList))
  else if maxLimit < count then .error (.otherException "DatatypeMismatch"
    ("argument of ".toList ++ clause.word ++ " must be type bigint, not type numeric".toList))
  else .ok (rows count.toNat)

section Running

variable (collation : Collation)

def claimOldest (q : PostgresQueue) (until_ : Instant) : Option Row × PostgresQueue :=
  match (orderRows collation (q.inState .queued)).head? with
  | none => (none, q)
  | some selected => q.updateWhere selected.id .queued (PostgresQueue.toRunning until_)

def releaseTasks (q : PostgresQueue) (now : Instant) : Except Exn (List Row × PostgresQueue) :=
  if q.rows.values.any fun row => PostgresQueue.expired now row && maxAttempts ≤ row.attempts then
    .error (.otherException "NumericValueOutOfRange" "integer out of range")
  else .ok ((q.rows.values.filter (PostgresQueue.expired now)).map PostgresQueue.toQueued,
    ⟨q.rows.mapValues fun _ row =>
      if PostgresQueue.expired now row then PostgresQueue.toQueued row else row⟩)

def useApproval (r : Registry) (token : Str) (now : Instant) : Option Approval × Registry :=
  match r.get token with
  | none => (none, r)
  | some row =>
      if row.usedAt = none ∧ row.expiresAt > now then
        (some { row with usedAt := some now }, r.set { row with usedAt := some now })
      else (none, r)

def selectPolicies (policies : Dict Str ProjectPolicy) : List ProjectPolicy :=
  policies.values.insertionSort fun first second => collation.le first.project second.project

def runSql : (sql : Sql) → Tables → Except Exn (sql.Result × Tables)
  | .insertTask row, t => let r := t.tasks.insert row; .ok (r.1, { t with tasks := r.2 })
  | .selectTask id, t => .ok (t.tasks.rows.get id, t)
  | .selectInState state limit, t =>
      (counted .limit limit (orderRows collation (t.tasks.inState state)).take).map fun rows => (rows, t)
  | .claimTask id until_, t =>
      let r := t.tasks.updateWhere id .queued (PostgresQueue.toRunning until_)
      .ok (r.1, { t with tasks := r.2 })
  | .claimOldest until_, t =>
      let r := claimOldest collation t.tasks until_
      .ok (r.1, { t with tasks := r.2 })
  | .moveTask id fromState toState evidence, t =>
      let r := t.tasks.updateWhere id fromState (PostgresQueue.applyTransition toState evidence)
      .ok (r.1, { t with tasks := r.2 })
  | .selectState id, t => .ok ((t.tasks.rows.get id).map Row.state, t)
  | .releaseTasks now, t =>
      (releaseTasks t.tasks now).map fun r => (r.1, { t with tasks := r.2 })
  | .insertApproval approval, t =>
      if (t.approvals.get approval.token).isSome then .error uniqueViolation
      else .ok ((), { t with approvals := t.approvals.set approval })
  | .selectApproval token, t => .ok (t.approvals.get token, t)
  | .useApproval token now, t =>
      let r := useApproval t.approvals token now
      .ok (r.1, { t with approvals := r.2 })
  | .selectUnused, t =>
      .ok (t.approvals.pending.insertionSort fun first second =>
        first.createdAt ≤ second.createdAt, t)
  | .selectPolicies, t => .ok (selectPolicies collation t.policies, t)
  | .selectPolicy project, t => .ok (t.policies.get project, t)
  | .deletePolicies, t => .ok ((), { t with policies := Dict.empty })
  | .insertPolicy policy, t =>
      if (t.policies.get policy.project).isSome then .error uniqueViolation
      else .ok ((), { t with policies := t.policies.set policy.project policy })
  | .insertEvent event, t => .ok ((), { t with events := t.events ++ [event] })
  | .selectEvents taskId, t => .ok (t.events.filter fun event => event.taskId = taskId, t)
  | .selectRecent limit, t =>
      (counted .limit limit t.events.reverse.take).map fun events => (events, t)
  | .countEvents kind since, t =>
      .ok ((t.events.filter fun event => event.kind = kind && since ≤ event.at_).length, t)
  | .insertDecision record, t => .ok ((), { t with decisions := t.decisions ++ [record] })
  | .selectDecisions, t => .ok (t.decisions, t)
  | .selectDecisionAt index, t =>
      (counted .offset index fun n => if n < t.decisions.length then some n else none).map fun id => (id, t)
  | .labelDecision id label, t =>
      .ok ((), { t with decisions := t.decisions.modify id fun record =>
        { record with label := some label } })

def isConnectionError : Exn → Bool
  | .otherException className _ =>
      className = "OperationalError".toList || className = "InterfaceError".toList
  | _ => false

@[reducible] def sql : Lib.Transactions.Language Exn where
  Tables := Tables
  Statement := Sql
  Result := Sql.Result
  run := runSql collation
  operational := isConnectionError

end Running

/-!
## The operations
-/

inductive PolicyOp
  | list
  | get (project : Str)
  | replaceAll (policies : List ProjectPolicy)
  | forRepo (repo : Str)

@[reducible] def PolicyOp.Result : PolicyOp → Type
  | .list => List ProjectPolicy
  | .get _ | .forRepo _ => Option ProjectPolicy
  | .replaceAll _ => Unit

inductive EventOp
  | record (taskId kind : Str) (data : EventData) (now : Instant)
  | read (taskId : Str)
  | recent (limit : Int)
  | count (kind : Str) (since : Instant)

@[reducible] def EventOp.Result : EventOp → Type
  | .record _ _ _ _ => Unit
  | .read _ | .recent _ => List TaskEvent
  | .count _ _ => Nat

inductive DecisionOp
  | record (record : DecisionRecord)
  /-- Also all that `calibrate` asks for. -/
  | read
  | label (index : Int) (label : Str)

@[reducible] def DecisionOp.Result : DecisionOp → Type
  | .record _ => Unit
  | .read => List DecisionRecord
  | .label _ _ => Bool

inductive StoreOp
  | queue (op : QueueOp) (now : Instant)
  | approvals (op : ApprovalOp) (ttl : Duration) (readings : Readings)
  | policies (op : PolicyOp)
  | events (op : EventOp)
  | decisions (op : DecisionOp)

@[reducible] def StoreOp.Result : StoreOp → Type
  | .queue op _ => op.Result
  | .approvals op _ _ => op.Result
  | .policies op => op.Result
  | .events op => op.Result
  | .decisions op => op.Result

section Operations

variable {collation : Collation}

abbrev Op (collation : Collation) (α : Type) := Session (sql collation) α

def cursor : Op collation Unit := .ask .cursor (@unwrap (session (sql collation)) _)

def query (statement : Sql) : Op collation statement.Result :=
  .ask (.execute statement) (@unwrap (session (sql collation)) _)

def commit : Op collation Unit := .ask .commit (@unwrap (session (sql collation)) _)

/-- `with cursor() as cur: cur.execute(...)` and the commit after it. -/
def single (statement : Sql) : Op collation statement.Result := do
  cursor
  let result ← query statement
  commit
  .ret result

def transition (task : Task) (toState : TaskState) (evidence : Option Evidence) :
    Op collation Task := do
  cursor
  match ← query (.moveTask task.id task.state toState evidence) with
  | some row => do
      commit
      .ret (taskFromRow row)
  | none => do
      let current ← query (.selectState task.id)
      commit
      match current with
      | none => .raise (.taskNotFound task.id)
      | some current => .raise (.stateConflict task.id task.state current)

def queueSession (now : Instant) : (op : QueueOp) → Op collation op.Result
  | .enqueue task state => do
      let row ← single (.insertTask (rowOfTask task state now))
      .ret (row.map taskFromRow)
  | .get taskId => do
      let row ← single (.selectTask taskId)
      .ret (row.map taskFromRow)
  | .list state limit => do
      let rows ← single (.selectInState state limit)
      .ret (rows.map taskFromRow)
  | .claim task lease => do
      let row ← single (.claimTask task.id (now + lease))
      .ret row.isSome
  | .claimNext lease => do
      let row ← single (.claimOldest (now + lease))
      .ret (row.map taskFromRow)
  | .transition task toState evidence => transition task toState evidence
  | .releaseStale limit => do
      let rows ← single (.releaseTasks limit)
      .ret (sortTasks (rows.map taskFromRow))

def redeem (token : Str) (now : Instant) : Op collation Redeemed := do
  cursor
  match ← query (.useApproval token now) with
  | some row => do
      commit
      .ret ⟨row, now⟩
  | none => do
      let current ← query (.selectApproval token)
      commit
      match current with
      | none => .raise (.unknownToken token)
      | some approval =>
          if approval.used then .raise (.tokenAlreadyUsed token) else .raise (.expiredToken token)

def approvalSession (ttl : Duration) (readings : Readings) : (op : ApprovalOp) → Op collation op.Result
  | .issue taskId action => do
      let approval := newApproval ttl taskId action readings
      single (.insertApproval approval)
      .ret approval
  | .get token => single (.selectApproval token)
  | .redeem token => redeem token readings.now
  | .pending => single .selectUnused

/-- The loop of `replace_all`. -/
def insertPolicies : List ProjectPolicy → Op collation Unit
  | [] => .ret ()
  | policy :: rest => do
      query (.insertPolicy policy)
      insertPolicies rest

def policySession [Unicode] : (op : PolicyOp) → Op collation op.Result
  | .list => single .selectPolicies
  | .get project => single (.selectPolicy project)
  | .replaceAll policies => do
      cursor
      query .deletePolicies
      insertPolicies policies
      commit
  | .forRepo repo => do
      let policies ← single .selectPolicies
      .ret (forRepo policies repo)

def eventSession : (op : EventOp) → Op collation op.Result
  | .record taskId kind data now => single (.insertEvent ⟨taskId, kind, now, data⟩)
  | .read taskId => single (.selectEvents taskId)
  | .recent limit => do
      let events ← single (.selectRecent limit)
      .ret events.reverse
  | .count kind since => single (.countEvents kind since)

def decisionSession : (op : DecisionOp) → Op collation op.Result
  | .record record => single (.insertDecision record)
  | .read => single .selectDecisions
  | .label index label => do
      cursor
      match ← query (.selectDecisionAt index) with
      | none => do
          commit
          .ret false
      | some id => do
          query (.labelDecision id label)
          commit
          .ret true

def StoreOp.session [Unicode] : (op : StoreOp) → Op collation op.Result
  | .queue op now => queueSession now op
  | .approvals op ttl readings => approvalSession ttl readings op
  | .policies op => policySession op
  | .events op => eventSession op
  | .decisions op => decisionSession op

end Operations

section Meaning

variable {collation : Collation} {α : Type}

theorem performed_single (statement : Sql) (f : statement.Result → α) (t : Tables) :
    performed (do let result ← (single statement : Op collation _); .ret (f result)) t =
      match runSql collation statement t with
      | .ok (result, after) => (.ok (f result), after)
      | .error error => (.error error, t) := by
  cases ran : runSql collation statement t with
  | ok done => exact Eq.trans outcome_cursor (outcome_execute ran)
  | error error => exact Eq.trans outcome_cursor (outcome_refused ran)

theorem performed_transition (task : Task) (toState : TaskState) (evidence : Option Evidence)
    (t : Tables) :
    performed (transition task toState evidence : Op collation Task) t =
      ((t.tasks.transition task toState evidence).1,
        { t with tasks := (t.tasks.transition task toState evidence).2 }) := by
  refine Eq.trans (Eq.trans outcome_cursor (outcome_execute rfl)) ?_
  unfold PostgresQueue.transition
  generalize moved : t.tasks.updateWhere task.id task.state
    (PostgresQueue.applyTransition toState evidence) = changed
  obtain ⟨row, tasks⟩ := changed
  cases row with
  | some row => rfl
  | none =>
      have kept : tasks = t.tasks := by
        have unchanged := PostgresQueue.update_where_none (congrArg Prod.fst moved)
        rw [← unchanged.2, moved]
      subst kept
      refine Eq.trans (outcome_execute rfl) ?_
      cases (t.tasks.rows.get task.id).map Row.state <;> rfl

theorem performed_queue (op : QueueOp) (now : Instant) (t : Tables) :
    performed (queueSession now op : Op collation op.Result) t =
      ((PostgresQueue.step collation op now t.tasks).1,
        { t with tasks := (PostgresQueue.step collation op now t.tasks).2 }) := by
  cases op with
  | enqueue task state => rfl
  | get taskId => rfl
  | list state limit =>
      refine (performed_single _ _ t).trans ?_
      simp only [runSql, counted, PostgresQueue.step, PostgresQueue.list]
      split_ifs <;> rfl
  | claim task lease => rfl
  | claimNext lease =>
      refine (performed_single _ _ t).trans ?_
      simp only [runSql, claimOldest, PostgresQueue.step, PostgresQueue.claimNext]
      cases (orderRows collation (t.tasks.inState .queued)).head? <;> rfl
  | transition task toState evidence => exact performed_transition task toState evidence t
  | releaseStale limit =>
      refine (performed_single _ _ t).trans ?_
      simp only [runSql, releaseTasks, PostgresQueue.step, PostgresQueue.releaseStale]
      split_ifs <;> rfl

theorem performed_redeem (token : Str) (readings : Readings) (t : Tables) :
    performed (redeem token readings.now : Op collation Redeemed) t =
      ((PostgresApprovalStore.redeem t.approvals token readings).1.map fun a => ⟨a, readings.now⟩,
        { t with approvals := (PostgresApprovalStore.redeem t.approvals token readings).2 }) := by
  refine Eq.trans (Eq.trans outcome_cursor (outcome_execute rfl)) ?_
  simp only [PostgresApprovalStore.redeem, useApproval]
  cases found : t.approvals.get token with
  | none =>
      refine Eq.trans (outcome_execute rfl) ?_
      rw [found]
      rfl
  | some row =>
      by_cases live : row.usedAt = none ∧ row.expiresAt > readings.now
      · simp only [if_pos live]
        rfl
      · simp only [if_neg live]
        refine Eq.trans (outcome_execute rfl) ?_
        rw [found]
        change outcomeFrom (if row.used = true then _ else _) _ _ = _
        by_cases used : row.used = true
        · simp only [if_pos used]
          rfl
        · simp only [if_neg used]
          rfl

/-- Without a loss of the connection the approval store does what its backend does. -/
theorem performed_approvals (op : ApprovalOp) (ttl : Duration) (readings : Readings) (t : Tables) :
    performed (approvalSession ttl readings op : Op collation op.Result) t =
      ((PostgresApprovalStore.step ttl op readings t.approvals).1,
        { t with approvals := (PostgresApprovalStore.step ttl op readings t.approvals).2 }) := by
  cases op with
  | issue taskId action =>
      refine (performed_single _ _ t).trans ?_
      simp only [runSql, PostgresApprovalStore.step, PostgresApprovalStore.issue]
      by_cases taken : (t.approvals.get (newApproval ttl taskId action readings).token).isSome = true
      · simp only [if_pos taken]
        rfl
      · simp only [if_neg taken]
  | get token => rfl
  | redeem token => exact performed_redeem token readings t
  | pending => rfl

end Meaning

section Atomicity

variable {collation : Collation} {α β : Type}

theorem single_transaction (statement : Sql) (f : statement.Result → α) :
    Transaction Returned
      (do let result ← (single statement : Op collation _); .ret (f result)) :=
  ⟨fun _ => rfl, fun _ => rfl, fun result => ⟨fun _ => rfl, f result, rfl⟩⟩

theorem insert_policies_transaction (policies : List ProjectPolicy) :
    Transaction Returned (do let _ ← (insertPolicies policies : Op collation Unit); commit) := by
  induction policies with
  | nil => exact ⟨fun _ => rfl, (), rfl⟩
  | cons policy rest ih => exact ⟨fun _ => rfl, fun _ => ih⟩

theorem plain_transaction (statement : Sql) :
    Transaction Returned (single statement : Op collation _) :=
  ⟨fun _ => rfl, fun _ => rfl, fun result => ⟨fun _ => rfl, result, rfl⟩⟩

theorem label_transaction (index : Int) (label : Str) :
    Transaction Returned (decisionSession (.label index label) : Op collation Bool) :=
  ⟨fun _ => rfl, fun _ => rfl, fun found => by
    cases found with
    | none => exact ⟨fun _ => rfl, false, rfl⟩
    | some id => exact ⟨fun _ => rfl, fun _ => ⟨fun _ => rfl, true, rfl⟩⟩⟩

/-- What a session ends with that is no answer of the database: a value, or an
exception that the port declares. -/
def Declares (program : Op collation α) : Prop :=
  Returned program ∨ ∃ error, program = .raise error ∧
    ∀ className text, error ≠ .otherException className text

theorem transition_transaction (task : Task) (toState : TaskState) (evidence : Option Evidence) :
    Transaction Declares (transition task toState evidence : Op collation Task) := by
  refine ⟨fun _ => rfl, fun _ => rfl, fun row => ?_⟩
  cases row with
  | some row => exact ⟨fun _ => rfl, .inl ⟨_, rfl⟩⟩
  | none =>
      refine ⟨fun _ => rfl, fun current => ⟨fun _ => rfl, ?_⟩⟩
      cases current with
      | none => exact .inr ⟨_, rfl, nofun⟩
      | some state => exact .inr ⟨_, rfl, nofun⟩

theorem redeem_transaction (token : Str) (now : Instant) :
    Transaction Declares (redeem token now : Op collation Redeemed) := by
  refine ⟨fun _ => rfl, fun _ => rfl, fun row => ?_⟩
  cases row with
  | some row => exact ⟨fun _ => rfl, .inl ⟨_, rfl⟩⟩
  | none =>
      refine ⟨fun _ => rfl, fun current => ⟨fun _ => rfl, ?_⟩⟩
      cases current with
      | none => exact .inr ⟨_, rfl, nofun⟩
      | some approval =>
          change Declares (if approval.used = true then _ else _)
          split_ifs
          · exact .inr ⟨_, rfl, nofun⟩
          · exact .inr ⟨_, rfl, nofun⟩

theorem operation_kinds [Unicode] (op : StoreOp) :
    Transaction Returned (op.session : Op collation op.Result) ∨
      (∃ task toState evidence now, op = .queue (.transition task toState evidence) now) ∨
      ∃ token ttl readings, op = .approvals (.redeem token) ttl readings := by
  cases op with
  | queue op now =>
      cases op with
      | enqueue task state => exact .inl (single_transaction _ _)
      | get taskId => exact .inl (single_transaction _ _)
      | list state limit => exact .inl (single_transaction _ _)
      | claim task lease => exact .inl (single_transaction _ _)
      | claimNext lease => exact .inl (single_transaction _ _)
      | transition task toState evidence => exact .inr (.inl ⟨task, toState, evidence, now, rfl⟩)
      | releaseStale limit => exact .inl (single_transaction _ _)
  | approvals op ttl readings =>
      cases op with
      | issue taskId action => exact .inl (single_transaction _ _)
      | get token => exact .inl (plain_transaction _)
      | redeem token => exact .inr (.inr ⟨token, ttl, readings, rfl⟩)
      | pending => exact .inl (plain_transaction _)
  | policies op =>
      cases op with
      | list => exact .inl (plain_transaction _)
      | get project => exact .inl (plain_transaction _)
      | replaceAll policies =>
          exact .inl ⟨fun _ => rfl, fun _ => rfl, fun _ => insert_policies_transaction policies⟩
      | forRepo repo => exact .inl (single_transaction _ _)
  | events op =>
      cases op with
      | record taskId kind data now => exact .inl (plain_transaction _)
      | read taskId => exact .inl (plain_transaction _)
      | recent limit => exact .inl (single_transaction _ _)
      | count kind since => exact .inl (plain_transaction _)
  | decisions op =>
      cases op with
      | record record => exact .inl (plain_transaction _)
      | read => exact .inl (plain_transaction _)
      | label index label => exact .inl (label_transaction index label)

theorem operation_transaction [Unicode] (op : StoreOp) :
    Transaction Declares (op.session : Op collation op.Result) := by
  rcases operation_kinds op with returned | transitions | redeems
  · exact transaction_mono (fun _ => .inl) returned
  · obtain ⟨task, toState, evidence, now, rfl⟩ := transitions
    exact transition_transaction task toState evidence
  · obtain ⟨token, ttl, readings, rfl⟩ := redeems
    exact redeem_transaction token readings.now

theorem ended_of_declares {program : Op collation α} (declares : Declares program) :
    Ended program := by
  rcases declares with returned | ⟨error, raised, _⟩
  · exact .inl returned
  · exact .inr ⟨error, raised⟩

theorem transition_undone (task : Task) (toState : TaskState) (evidence : Option Evidence)
    (t : Tables) (error : Exn)
    (raised : (performed (transition task toState evidence : Op collation Task) t).1 = .error error) :
    (performed (transition task toState evidence : Op collation Task) t).2 = t := by
  rw [performed_transition] at raised ⊢
  simp only [PostgresQueue.transition] at raised ⊢
  split at raised
  · cases raised
  · split <;> rfl

theorem redeem_undone (token : Str) (readings : Readings) (t : Tables) (error : Exn)
    (raised : (performed (redeem token readings.now : Op collation Redeemed) t).1 = .error error) :
    (performed (redeem token readings.now : Op collation Redeemed) t).2 = t := by
  rw [performed_redeem] at raised ⊢
  simp only [PostgresApprovalStore.redeem] at raised ⊢
  split at raised
  · rfl
  · split_ifs at raised ⊢ <;> first | rfl | cases raised

theorem operation_atomic [Unicode] (op : StoreOp) :
    Atomic (op.session : Op collation op.Result) := by
  refine ⟨transaction_mono (fun _ => ended_of_declares) (operation_transaction op), ?_⟩
  rcases operation_kinds op with returned | transitions | redeems
  · exact fun _ _ raised => raised_undone returned raised
  · obtain ⟨task, toState, evidence, now, rfl⟩ := transitions
    exact transition_undone task toState evidence
  · obtain ⟨token, ttl, readings, rfl⟩ := redeems
    exact redeem_undone token readings

/-- An operation on a resilient connection that has no changes left over: as long as
nothing is committed after changes of the operation went down with a connection, it
returns with all its changes durable, or raises with none, and leaves none over. -/
theorem store_operation_atomic [Unicode] (op : StoreOp) {l after : Link (sql collation)}
    {trace : List (Exchange (link (sql collation)))} {outcome : Except Exn op.Result}
    (clean : l.seen = l.durable) (kept : ¬l.dropped)
    (execution : Exec (lossyWhole (sql collation)) (Db.resiliently op.session) l trace outcome after) :
    (∀ value, outcome = .ok value → performed op.session l.durable = (.ok value, after.durable)) ∧
      (∀ error, outcome = .error error → after.durable = l.durable) ∧
      after.seen = after.durable := by
  obtain ⟨shape, undone⟩ : Atomic (op.session : Op collation op.Result) := operation_atomic op
  have ended := (Db.transaction_leads (fun _ ended => ended) shape (fun _ => clean) kept).sound execution
  rw [clean] at ended
  rcases ended with ⟨same, settled⟩ | fails
  · refine ⟨fun value returned => ?_, fun error raised => ?_, settled⟩
    · rw [← returned]
      exact same.symm
    · have unchanged := undone l.durable error
      unfold performed at unchanged
      rw [← same] at unchanged
      exact unchanged raised
  · obtain ⟨error, rfl⟩ := fails.raised
    exact ⟨by rintro _ ⟨⟩, fun _ _ => fails.durable, fails.clean⟩

end Atomicity

section Example

local instance storeTables : Unicode := asciiTables

def emptyTables : Tables := ⟨emptyTable, ⟨Dict.empty⟩, Dict.empty, [], []⟩

def newTask : Task where
  id := "m1"
  transportId := "m1"
  createdAt := 0

def storesTask : StoreOp := .queue (.enqueue newTask .queued) 0

abbrev StoreLink := Link (sql codePoint)

def linkTo (tables : Tables) (status : Status) : StoreLink := ⟨tables, tables, status, false, False⟩

def connectionError : Exn := .otherException "OperationalError" "server closed the connection"

def newRow : Row := rowOfTask newTask .queued 0

def storedTables : Tables := { emptyTables with tasks := (emptyTable.insert newRow).2 }

theorem enqueue_after_loss :
    CanEnd (lossyWhole (sql codePoint)) (Db.resiliently (storesTask.session : Op codePoint _))
      (linkTo emptyTables .lost) fun outcome _ => outcome = .ok (some (taskFromRow newRow)) := by
  have whole : ¬(False ∨ emptyTables ≠ emptyTables) := fun lost => lost.elim id fun changed => changed rfl
  refine can_end_ask false ⟨.inl ⟨rfl, trivial⟩, trivial⟩ ?_
  refine can_end_ask (Except.error connectionError) ⟨.inl ⟨⟨_, rfl, rfl⟩, rfl⟩, trivial⟩ ?_
  refine can_end_ask (Except.ok ()) ⟨.inl rfl, trivial⟩ ?_
  refine can_end_ask true ⟨.inl ⟨rfl, rfl⟩, trivial⟩ ?_
  refine can_end_ask (Except.ok ()) ⟨.inl (.inl ⟨rfl, rfl⟩), trivial⟩ ?_
  refine can_end_ask (Except.ok (some newRow))
    ⟨.inl (.inl ⟨rfl, _, storedTables, rfl, rfl, rfl⟩), trivial⟩ ?_
  refine can_end_ask false ⟨.inl ⟨rfl, rfl⟩, trivial⟩ ?_
  refine can_end_ask (Except.ok ()) ⟨.inl ⟨rfl, rfl⟩, whole⟩ ?_
  exact ⟨_, _, _, ⟨rfl, rfl, rfl⟩, rfl⟩

theorem enqueue_survives_loss : ∃ after : StoreLink,
    performed (storesTask.session : Op codePoint _) emptyTables =
      (.ok (some (taskFromRow newRow)), after.durable) := by
  obtain ⟨_, _, after, execution, returned⟩ := enqueue_after_loss
  exact ⟨after, (store_operation_atomic storesTask rfl not_false execution).1 _ returned⟩

/-- The connection is lost after the statement and reports that it is closed, so
the commit is that of a new connection. -/
theorem insert_lost_before_commit :
    CanEnd (lossy (sql codePoint)) (Db.resiliently (storesTask.session : Op codePoint _))
      (linkTo emptyTables .live) fun outcome after =>
        outcome = .ok (some (taskFromRow newRow)) ∧ after.durable = emptyTables := by
  refine can_end_ask false (.inl ⟨rfl, rfl⟩) ?_
  refine can_end_ask (Except.ok (some newRow)) (.inl (.inl ⟨rfl, _, storedTables, rfl, rfl, rfl⟩)) ?_
  refine can_end_ask true (.inr ⟨rfl, rfl, trivial⟩) ?_
  refine can_end_ask (Except.ok ()) (.inl (.inl ⟨rfl, rfl⟩)) ?_
  refine can_end_ask (Except.ok ()) (.inl ⟨rfl, rfl⟩) ?_
  exact ⟨_, _, _, ⟨rfl, rfl, rfl⟩, rfl, rfl⟩

def oldPolicy : ProjectPolicy where
  project := "old"

def newPolicy : ProjectPolicy where
  project := "new"

def policyTables (policies : Dict Str ProjectPolicy) : Tables := { emptyTables with policies := policies }

theorem delete_lost_before_insert :
    CanEnd (lossy (sql codePoint))
      (Db.resiliently ((StoreOp.policies (.replaceAll [newPolicy])).session : Op codePoint _))
      (linkTo (policyTables (Dict.empty.set "old".toList oldPolicy)) .live) fun outcome after =>
        outcome = .ok () ∧ after.durable.policies.values = [oldPolicy, newPolicy] := by
  refine can_end_ask false (.inl ⟨rfl, rfl⟩) ?_
  refine can_end_ask (Except.ok ()) (.inl (.inl ⟨rfl, _, policyTables Dict.empty, rfl, rfl, rfl⟩)) ?_
  refine can_end_ask (Except.error connectionError) (.inr ⟨rfl, ⟨_, rfl, rfl⟩, rfl⟩) ?_
  refine can_end_ask (Except.ok ()) (.inl rfl) ?_
  refine can_end_ask true (.inl ⟨rfl, rfl⟩) ?_
  refine can_end_ask (Except.ok ()) (.inl (.inl ⟨rfl, rfl⟩)) ?_
  refine can_end_ask (Except.ok ()) (.inl (.inl ⟨rfl, _,
    policyTables ((Dict.empty.set "old".toList oldPolicy).set "new".toList newPolicy),
    rfl, rfl, rfl⟩)) ?_
  refine can_end_ask false (.inl ⟨rfl, rfl⟩) ?_
  refine can_end_ask (Except.ok ()) (.inl ⟨rfl, rfl⟩) ?_
  exact ⟨_, _, _, ⟨rfl, rfl, rfl⟩, rfl, rfl⟩

/-- Whenever the operation returns, all its changes are durable. -/
def DurableOnReturn (op : StoreOp) : Prop :=
  ∀ (l after : StoreLink) (trace : List (Exchange (link (sql codePoint)))) (value : op.Result),
    l.seen = l.durable →
    Exec (lossy (sql codePoint)) (Db.resiliently op.session) l trace (.ok value) after →
    performed op.session l.durable = (.ok value, after.durable)

/-- A task is reported as stored that is not, and policies as replaced of which an
old one is still there. -/
theorem lost_changes_reported :
    ¬DurableOnReturn storesTask ∧ ¬DurableOnReturn (.policies (.replaceAll [newPolicy])) := by
  constructor
  · intro promised
    obtain ⟨_, _, after, execution, rfl, durable⟩ := insert_lost_before_commit
    have meant := congrArg (fun ended => ended.2.tasks.rows.values) (promised _ _ _ _ rfl execution)
    rw [durable] at meant
    exact absurd meant (by decide)
  · intro promised
    obtain ⟨_, _, after, execution, rfl, durable⟩ := delete_lost_before_insert
    have meant := congrArg (fun ended => ended.2.policies.values) (promised _ _ _ _ rfl execution)
    rw [durable] at meant
    exact absurd meant (by decide)

end Example

end DearAgent.Stores
