import DearAgent.Decision.Log
import DearAgent.Stores.Failures
import DearAgent.Worker.Budget

/-!
# The logs, here and in the database

`MemoryEventLog` and the file of a `DecisionLog` beside the two logs that PostgreSQL keeps for
all processes. The database refuses what the local logs take; and a list that is cut from the
end is whole where nothing is to be left of it.
-/

namespace DearAgent.Stores

open DearAgent.Lib.Text DearAgent.Lib.Effects DearAgent.Lib.Transactions
open DearAgent.Queue DearAgent.Budget

set_option autoImplicit false

/-- `self._events[-limit:]`. -/
def sliceFromEnd (limit : Int) (events : List TaskEvent) : List TaskEvent :=
  if 0 < limit then events.drop (events.length - limit.toNat) else events.drop (-limit).toNat

namespace MemoryEventLog

def read (log : EventLog) (taskId : Str) : List TaskEvent :=
  log.filter fun event => event.taskId = taskId

def recent (log : EventLog) (limit : Int) : List TaskEvent := sliceFromEnd limit log

def step : (op : EventOp) → EventLog → op.Result × EventLog
  | .record taskId kind data now, log => ((), log.record taskId kind data now)
  | .read taskId, log => (read log taskId, log)
  | .recent limit, log => (recent log limit, log)
  | .count kind since, log => ((log.count kind since).toNat, log)

end MemoryEventLog

inductive LogOp
  | events (op : EventOp)
  | decisions (op : DecisionOp)

def LogOp.store : LogOp → StoreOp
  | .events op => .events op
  | .decisions op => .decisions op

abbrev LogAnswer := (op : LogOp) × Except Exn op.store.Result

structure Logs where
  events : EventLog := []
  decisions : List DecisionRecord := []

namespace Logs

def step (logs : Logs) : (op : LogOp) → Except Exn op.store.Result × Logs
  | .events op =>
      (.ok (MemoryEventLog.step op logs.events).1,
        { logs with events := (MemoryEventLog.step op logs.events).2 })
  | .decisions op =>
      ((run Decision.answerFile (Decision.call op) logs.decisions).2.1,
        { logs with decisions := (run Decision.answerFile (Decision.call op) logs.decisions).2.2 })

def answers (logs : Logs) : List LogOp → List LogAnswer
  | [] => []
  | op :: rest => ⟨op, (logs.step op).1⟩ :: (logs.step op).2.answers rest

def after (logs : Logs) : List LogOp → Logs
  | [] => logs
  | op :: rest => (logs.step op).2.after rest

def stored (logs : Logs) (tables : Tables) : Tables :=
  { tables with events := logs.events, decisions := logs.decisions }

end Logs

section Comparing

variable [Unicode] {collation : Collation}

def databaseAnswers (database : Database collation) :
    List LogOp → Link (sql collation) → List LogAnswer
  | [], _ => []
  | op :: rest, l => ⟨op, (Db.served database op.store.session l).1⟩ ::
      databaseAnswers database rest (Db.served database op.store.session l).2

def linkAfterLogs (database : Database collation) :
    List LogOp → Link (sql collation) → Link (sql collation)
  | [], l => l
  | op :: rest, l => linkAfterLogs database rest (Db.served database op.store.session l).2

/-- `recent` asks for events, or there are none. -/
def LogOp.Cuts (logs : Logs) : LogOp → Prop
  | .events (.recent limit) => 0 < limit ∨ logs.events = []
  | _ => True

/-- The database refuses no call, and no list is cut where nothing is to be left of it. -/
def AlikeThroughout (database : Database collation) (tables : Tables) : List LogOp → Logs → Prop
  | [], _ => True
  | op :: rest, logs =>
      (database.refused op.store.session (logs.stored tables) = false ∧ op.Cuts logs) ∧
        AlikeThroughout database tables rest (logs.step op).2

end Comparing

/-!
## One call
-/

section Calls

theorem slice_from_end (events : List TaskEvent) {limit : Int} (positive : 0 < limit) :
    (events.reverse.take limit.toNat).reverse = sliceFromEnd limit events := by
  unfold sliceFromEnd
  rw [if_pos positive, List.take_reverse, List.reverse_reverse]

theorem slice_cuts_iff (events : List TaskEvent) {limit : Int} (counts : 0 ≤ limit) :
    (events.reverse.take limit.toNat).reverse = sliceFromEnd limit events ↔
      0 < limit ∨ events = [] := by
  by_cases positive : 0 < limit
  · exact ⟨fun _ => .inl positive, fun _ => slice_from_end events positive⟩
  · have zero : limit = 0 := by omega
    subst zero
    constructor
    · intro same
      exact .inr same.symm
    · intro cuts
      cases cuts with
      | inl never => exact absurd never positive
      | inr empty =>
          rw [empty]
          rfl

theorem count_rows (kind : Str) (since : Instant) (events : EventLog) :
    (events.filter fun event => event.kind = kind && since ≤ event.at_).length =
      (events.count kind since).toNat := by
  unfold EventLog.count
  rw [Int.toNat_natCast, List.countP_eq_length_filter]

theorem counted_ok {β : Type} {clause : Clause} {limit : Int} {rows : Nat → β} {taken : β}
    (ran : counted clause limit rows = .ok taken) : 0 ≤ limit ∧ taken = rows limit.toNat := by
  unfold counted at ran
  split_ifs at ran with negative large
  constructor
  · omega
  · exact (Except.ok.inj ran).symm

variable {collation : Collation} {database : Database collation}

theorem statement_accepted {α : Type} {statement : Sql}
    {next : Except Exn statement.Result → Op collation α} {t : Tables}
    (accepted : database.refused (.ask (.execute statement) next) t = false) :
    ∃ done, runSql collation statement t = .ok done := by
  unfold Server.refused at accepted
  cases ran : database.run statement t with
  | ok done => exact ⟨done, database.agrees statement t done ran⟩
  | error error =>
      rw [ran] at accepted
      cases accepted

theorem recent_ran {limit : Int} {t seen : Tables} {rows : List TaskEvent}
    (ran : runSql collation (.selectRecent limit) t = .ok (rows, seen)) :
    counted .limit limit t.events.reverse.take = .ok rows ∧ seen = t := by
  simp only [runSql] at ran
  cases taken : counted .limit limit t.events.reverse.take with
  | error error =>
      rw [taken] at ran
      cases ran
  | ok found =>
      rw [taken] at ran
      cases ran
      exact ⟨rfl, rfl⟩

theorem decision_at_ran {index : Int} {t seen : Tables} {id : Option Nat}
    (ran : runSql collation (.selectDecisionAt index) t = .ok (id, seen)) :
    counted .offset index (fun n => if n < t.decisions.length then some n else none) = .ok id ∧
      seen = t := by
  simp only [runSql] at ran
  cases taken : counted .offset index fun n => if n < t.decisions.length then some n else none with
  | error error =>
      rw [taken] at ran
      cases ran
  | ok found =>
      rw [taken] at ran
      cases ran
      exact ⟨rfl, rfl⟩

variable [Unicode] {tables : Tables} {logs : Logs}

/-- What the database makes of events: what the local log makes of them, but for `recent`. -/
theorem performed_events (op : EventOp)
    (accepted : database.refused (LogOp.events op).store.session (logs.stored tables) = false) :
    (performed ((LogOp.events op).store.session : Op collation _) (logs.stored tables)).2 =
        (logs.step (.events op)).2.stored tables ∧
      ((performed ((LogOp.events op).store.session : Op collation _) (logs.stored tables)).1 =
        (logs.step (.events op)).1 ↔ (LogOp.events op).Cuts logs) := by
  cases op with
  | record taskId kind data now => exact ⟨rfl, fun _ => trivial, fun _ => rfl⟩
  | read taskId => exact ⟨rfl, fun _ => trivial, fun _ => rfl⟩
  | count kind since =>
      refine ⟨rfl, fun _ => trivial, fun _ => ?_⟩
      exact congrArg Except.ok (count_rows kind since logs.events)
  | recent limit =>
      obtain ⟨⟨rows, seen⟩, ran⟩ := statement_accepted accepted
      obtain ⟨found, same⟩ := recent_ran ran
      obtain ⟨counts, rfl⟩ := counted_ok found
      subst same
      have outcome : performed ((LogOp.events (.recent limit)).store.session : Op collation _)
          (logs.stored tables) = (.ok (logs.events.reverse.take limit.toNat).reverse, logs.stored tables) := by
        refine (performed_single (.selectRecent limit) List.reverse (logs.stored tables)).trans ?_
        rw [ran]
        rfl
      rw [outcome]
      refine ⟨rfl, ?_⟩
      refine Iff.trans ?_ (slice_cuts_iff logs.events counts)
      exact ⟨Except.ok.inj, congrArg Except.ok⟩

omit [Unicode] in
theorem label_run (logs : Logs) (index : Int) (label : Str) :
    logs.step (.decisions (.label index label)) =
      if 0 ≤ index ∧ index < logs.decisions.length then
        (.ok true, { logs with decisions := Decision.relabel logs.decisions index label })
      else (.ok false, logs) := by
  by_cases within : 0 ≤ index ∧ index < logs.decisions.length
  · rw [if_pos within]
    have rewritten : run Decision.answerFile (Decision.call (.label index label)) logs.decisions =
        ([⟨.readText, logs.decisions⟩, ⟨.writeAll (Decision.relabel logs.decisions index label), ()⟩],
          .ok true, Decision.relabel logs.decisions index label) := by
      simp [Decision.call, Decision.DecisionLog.label, Decision.DecisionLog.read, run,
        Decision.answerFile, Lib.Effects.bind, Bind.bind, within, request]
    simp only [Logs.step, rewritten]
    rfl
  · rw [if_neg within]
    have only : run Decision.answerFile (Decision.call (.label index label)) logs.decisions =
        ([⟨.readText, logs.decisions⟩], .ok false, logs.decisions) := by
      simp [Decision.call, Decision.DecisionLog.label, Decision.DecisionLog.read, run,
        Decision.answerFile, Lib.Effects.bind, Bind.bind, within]
    simp only [Logs.step, only]
    rfl

theorem performed_decisions (op : DecisionOp)
    (accepted : database.refused (LogOp.decisions op).store.session (logs.stored tables) = false) :
    performed ((LogOp.decisions op).store.session : Op collation _) (logs.stored tables) =
      ((logs.step (.decisions op)).1, (logs.step (.decisions op)).2.stored tables) := by
  cases op with
  | record record => rfl
  | read => rfl
  | label index label =>
      obtain ⟨⟨found, seen⟩, ran⟩ := statement_accepted accepted
      obtain ⟨found, same⟩ := decision_at_ran ran
      obtain ⟨counts, rfl⟩ := counted_ok found
      subst same
      refine Eq.trans (Eq.trans outcome_cursor (outcome_execute ran)) ?_
      have local_ : logs.step (.decisions (.label index label)) =
          if 0 ≤ index ∧ index < logs.decisions.length then
            (.ok true, { logs with decisions := Decision.relabel logs.decisions index label })
          else (.ok false, logs) := by
        exact label_run logs index label
      rw [local_]
      by_cases inside : index.toNat < logs.decisions.length
      · have within : 0 ≤ index ∧ index < logs.decisions.length := by omega
        rw [if_pos within]
        have present : (if index.toNat < (logs.stored tables).decisions.length then some index.toNat
            else none) = some index.toNat := if_pos inside
        rw [present]
        rfl
      · have outside : ¬(0 ≤ index ∧ index < logs.decisions.length) := by omega
        rw [if_neg outside]
        have absent : (if index.toNat < (logs.stored tables).decisions.length then some index.toNat
            else none) = none := if_neg inside
        rw [absent]
        rfl

omit [Unicode] in
theorem local_returns (op : LogOp) (logs : Logs) (error : Exn) : (logs.step op).1 ≠ .error error := by
  intro raised
  cases op with
  | events op => cases raised
  | decisions op =>
      cases op with
      | record record => cases raised
      | read => cases raised
      | label index label =>
          rw [label_run] at raised
          split_ifs at raised

/-- One call gives the same answer exactly where it is taken and cuts something, and then the
database holds what the local logs hold. -/
theorem call_alike_iff (op : LogOp) (logs : Logs) :
    ((Db.served database op.store.session (emptyLink (logs.stored tables) false)).1 =
        (logs.step op).1 ↔
      database.refused op.store.session (logs.stored tables) = false ∧ op.Cuts logs) ∧
    (database.refused op.store.session (logs.stored tables) = false →
      (Db.served database op.store.session (emptyLink (logs.stored tables) false)).2 =
        emptyLink ((logs.step op).2.stored tables) false) := by
  cases refused : database.refused op.store.session (logs.stored tables) with
  | true =>
      obtain ⟨error, _, raised⟩ := @Db.operation_refused _ _ _ (storeOperations collation) database op.store _ refused
      constructor
      · constructor
        · intro same
          have told := (congrArg Prod.fst raised).symm.trans same
          exact absurd told.symm (local_returns op logs error)
        · intro accepted
          cases accepted.1
      · intro accepted
        cases accepted
  | false =>
      have answered := @Db.operation_served _ _ _ (storeOperations collation) database op.store _ refused
      rw [show Db.served database op.store.session (emptyLink (logs.stored tables) false) = _ from answered]
      cases op with
      | events op =>
          have performed := performed_events op refused
          constructor
          · exact performed.2.trans ⟨fun cuts => ⟨rfl, cuts⟩, And.right⟩
          · intro _
            exact congrArg (emptyLink · false) performed.1
      | decisions op =>
          have performed := performed_decisions op refused
          constructor
          · exact ⟨fun _ => ⟨rfl, trivial⟩, fun _ => congrArg Prod.fst performed⟩
          · intro _
            exact congrArg (fun done => emptyLink done.2 false) performed

end Calls

/-- The local logs and those in the database give the same answers to a sequence of calls,
and hold the same afterwards, exactly where the database refuses none of the calls and `recent`
asks for events wherever there are some. -/
theorem logs_agree_iff [Unicode] {collation : Collation} (database : Database collation)
    (tables : Tables) (calls : List LogOp) (logs : Logs) :
    (databaseAnswers database calls (emptyLink (logs.stored tables) false) = logs.answers calls ∧
      linkAfterLogs database calls (emptyLink (logs.stored tables) false) =
        emptyLink ((logs.after calls).stored tables) false) ↔
      AlikeThroughout database tables calls logs := by
  induction calls generalizing logs with
  | nil => exact ⟨fun _ => trivial, fun _ => ⟨rfl, rfl⟩⟩
  | cons op rest ih =>
      have step := @call_alike_iff _ database _ tables op logs
      constructor
      · intro same
        have heads := (List.cons.inj same.1).1
        have tails := (List.cons.inj same.1).2
        have taken := step.1.mp (eq_of_heq (Sigma.mk.inj heads).2)
        have onward := step.2 taken.1
        rw [onward] at tails
        have last := same.2
        simp only [linkAfterLogs, onward] at last
        exact ⟨taken, (ih _).mp ⟨tails, last⟩⟩
      · intro alike
        have answered := step.1.mpr alike.1
        have onward := step.2 alike.1.1
        have later := (ih _).mpr alike.2
        constructor
        · simp only [databaseAnswers, Logs.answers, answered, onward, later.1]
        · simp only [linkAfterLogs, onward]
          exact later.2

/-- Where only `jsonb` has a say these are: no event data with a null character, no limit or
index the database does not count with, and `recent` without a limit before there is an event. -/
theorem checked_call_iff [Unicode] {collation : Collation} (op : LogOp) (logs : Logs) (tables : Tables) :
    ((checkingDatabase collation).refused op.store.session (logs.stored tables) = false ∧ op.Cuts logs) ↔
      match op with
      | .events (.record _ _ data _) => unaccepted data = false
      | .events (.recent limit) => (0 < limit ∨ limit = 0 ∧ logs.events = []) ∧ limit ≤ maxLimit
      | .decisions (.label index _) => 0 ≤ index ∧ index ≤ maxLimit
      | _ => True := by
  rw [refused_eq]
  cases op with
  | events op =>
      cases op with
      | record taskId kind data now => exact and_iff_left trivial
      | read taskId => exact ⟨fun _ => trivial, fun _ => ⟨rfl, trivial⟩⟩
      | count kind since => exact ⟨fun _ => trivial, fun _ => ⟨rfl, trivial⟩⟩
      | recent limit =>
          have small : (0 : Int) ≤ maxLimit := by decide
          simp only [LogOp.store, StoreOp.refused, countRefused, LogOp.Cuts, Bool.or_eq_false_iff,
            decide_eq_false_iff_not]
          constructor
          · intro taken
            have bounds := taken.1
            refine ⟨?_, by omega⟩
            cases taken.2 with
            | inl positive => exact .inl positive
            | inr empty =>
                by_cases positive : 0 < limit
                · exact .inl positive
                · exact .inr ⟨by omega, empty⟩
          · intro taken
            cases taken.1 with
            | inl positive => exact ⟨by omega, .inl positive⟩
            | inr none_ => exact ⟨by omega, .inr none_.2⟩
  | decisions op =>
      cases op with
      | record record => exact ⟨fun _ => trivial, fun _ => ⟨rfl, trivial⟩⟩
      | read => exact ⟨fun _ => trivial, fun _ => ⟨rfl, trivial⟩⟩
      | label index label =>
          simp only [LogOp.store, StoreOp.refused, countRefused, LogOp.Cuts, Bool.or_eq_false_iff,
            decide_eq_false_iff_not]
          constructor
          · intro taken
            have bounds := taken.1
            omega
          · intro taken
            exact ⟨by omega, trivial⟩

end DearAgent.Stores
