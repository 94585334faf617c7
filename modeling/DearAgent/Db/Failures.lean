import DearAgent.Db
import DearAgent.Lib.Servers

/-!
# A resilient connection after a failed statement

The connection looks after its loss and not after its transaction. Once the server has
refused a statement, whatever is done over the connection raises, until it is closed.
-/

namespace DearAgent.Db

open DearAgent.Lib.Effects DearAgent.Lib.Transactions

set_option autoImplicit false

variable {E : Type} {L : Lib.Transactions.Language E} {aborted : E}

section Serving

variable {α : Type}

/-- The outcome of a session over the connection to a server, and the connection after it. -/
def served (server : Server L aborted) (program : Session L α) (l : Link L) : Except E α × Link L :=
  (run server.serve (resiliently program) l).2

variable {server : Server L aborted} {durable seen : L.Tables} {dropped : Prop}

theorem served_cursor {next : Except E Unit → Session L α} {failed : Bool} :
    served server (.ask .cursor next) ⟨durable, seen, .live, failed, dropped⟩ =
      served server (next (.ok ())) ⟨durable, seen, .live, failed, dropped⟩ := rfl

theorem served_commit {next : Except E Unit → Session L α} :
    served server (.ask .commit next) ⟨durable, seen, .live, false, dropped⟩ =
      served server (next (.ok ())) ⟨seen, seen, .live, false, dropped⟩ := rfl

section Statements

variable {statement : L.Statement} {next : Except E (L.Result statement) → Session L α}

theorem served_execute {tables : L.Tables} {result : L.Result statement}
    (ran : server.run statement seen = .ok (result, tables)) :
    served server (.ask (.execute statement) next) ⟨durable, seen, .live, false, dropped⟩ =
      served server (next (.ok result)) ⟨durable, tables, .live, false, dropped⟩ := by
  have answered : server.serve (.execute statement) ⟨durable, seen, .live, false, dropped⟩ =
      (.ok result, ⟨durable, tables, .live, false, dropped⟩) := by
    simp only [Server.serve, Server.execute, ran]
    rfl
  simp only [served, resiliently, through, resilient, execute, exceptWhere, catchWith, settle,
    Lib.Effects.bind, run, answered]
  rfl

/-- A failure that no loss of the connection is ends the session: the statement is not
made again. -/
theorem served_failure {failed : Bool} {error : E} (raises : next (.error error) = .raise error)
    (remains : L.operational error = false)
    (answered : server.serve (.execute statement) ⟨durable, seen, .live, failed, dropped⟩ =
      (.error error, ⟨durable, durable, .live, true, dropped⟩)) :
    served server (.ask (.execute statement) next) ⟨durable, seen, .live, failed, dropped⟩ =
      (.error error, ⟨durable, durable, .live, true, dropped⟩) := by
  simp only [served, resiliently, through, resilient, execute, exceptWhere, catchWith, settle,
    Lib.Effects.bind, run, answered, unwrap, remains, raises, Bool.false_eq_true, if_false]
  rfl

theorem served_refused {error : E} (raises : next (.error error) = .raise error)
    (refused : server.run statement seen = .error error) :
    served server (.ask (.execute statement) next) ⟨durable, seen, .live, false, dropped⟩ =
      (.error error, ⟨durable, durable, .live, true, dropped⟩) := by
  apply served_failure raises (server.refusals statement seen error refused).1
  simp only [Server.serve, Server.execute, refused]
  rfl

theorem served_aborted (raises : next (.error aborted) = .raise aborted) :
    served server (.ask (.execute statement) next) ⟨durable, seen, .live, true, dropped⟩ =
      (.error aborted, ⟨durable, durable, .live, true, dropped⟩) := by
  apply served_failure raises server.abortedRemains
  simp only [Server.serve, Server.execute]
  rfl

end Statements

/-!
## One transaction
-/

variable {ends : Session L α → Prop} {program : Session L α}

/-- A transaction of which the server refuses nothing does what it would do without a server. -/
theorem transaction_served (ending : ∀ program, ends program → Ended program)
    (shape : Transaction ends program) (accepted : server.refused program seen = false) :
    served server program ⟨durable, seen, .live, false, dropped⟩ =
      ((outcomeFrom program durable seen).1, ⟨(outcomeFrom program durable seen).2,
        (outcomeFrom program durable seen).2, .live, false, dropped⟩) := by
  induction shape using Transaction.parts generalizing seen with
  | cursor next raises rest ih =>
      rw [served_cursor, outcome_cursor]
      exact ih accepted
  | execute statement next raises rest ih =>
      cases ran : server.run statement seen with
      | ok done =>
          simp only [Server.refused, ran] at accepted
          rw [served_execute ran, outcome_execute (server.agrees statement seen done ran)]
          exact ih done.1 accepted
      | error error =>
          simp only [Server.refused, ran] at accepted
          cases accepted
  | commit next raises ended =>
      rw [served_commit, outcome_commit]
      rcases ending _ ended with ⟨value, same⟩ | ⟨error, same⟩
      · rw [same]
        rfl
      · rw [same]
        rfl

/-- A transaction of which the server refuses a statement raises, and leaves an aborted
transaction on the connection. -/
theorem transaction_refused (ending : ∀ program, ends program → Ended program)
    (shape : Transaction ends program) (refused : server.refused program seen = true) :
    ∃ error, error ≠ aborted ∧ served server program ⟨durable, seen, .live, false, dropped⟩ =
      (.error error, ⟨durable, durable, .live, true, dropped⟩) := by
  induction shape using Transaction.parts generalizing seen with
  | cursor next raises rest ih => exact ih refused
  | execute statement next raises rest ih =>
      cases ran : server.run statement seen with
      | ok done =>
          simp only [Server.refused, ran] at refused
          rw [served_execute ran]
          exact ih done.1 refused
      | error error =>
          exact ⟨error, (server.refusals statement seen error ran).2,
            served_refused (raises error) ran⟩
  | commit next raises ended =>
      have nothing : server.refused (next (.ok ())) seen = true := refused
      rcases ending _ ended with ⟨value, same⟩ | ⟨error, same⟩
      · rw [same] at nothing
        cases nothing
      · rw [same] at nothing
        cases nothing

theorem transaction_aborted (shape : Transaction ends program) (queries : Queries program) :
    served server program ⟨durable, seen, .live, true, dropped⟩ =
      (.error aborted, ⟨durable, durable, .live, true, dropped⟩) := by
  induction shape using Transaction.parts with
  | cursor next raises rest ih => exact ih queries
  | execute statement next raises rest ih => exact served_aborted (raises aborted)
  | commit next raises ended => exact queries.elim

theorem outcome_not_aborted (shape : Transaction (EndedWithout aborted) program)
    (accepted : server.refused program seen = false) :
    (outcomeFrom program durable seen).1 ≠ .error aborted := by
  induction shape using Transaction.parts generalizing seen with
  | cursor next raises rest ih => exact ih accepted
  | execute statement next raises rest ih =>
      cases ran : server.run statement seen with
      | ok done =>
          simp only [Server.refused, ran] at accepted
          rw [outcome_execute (server.agrees statement seen done ran)]
          exact ih done.1 accepted
      | error error =>
          simp only [Server.refused, ran] at accepted
          cases accepted
  | commit next raises ended =>
      rw [outcome_commit]
      intro raised
      rcases ended with ⟨⟨value, same⟩ | ⟨error, same⟩, other⟩
      · rw [same] at raised
        cases raised
      · rw [same] at raised other
        cases raised
        exact other rfl

end Serving

/-!
## Sequences of operations
-/

/-- Operations over one connection: transactions that change nothing when they raise. -/
structure Operations (L : Lib.Transactions.Language E) (aborted : E) where
  Op : Type
  Result : Op → Type
  session : (op : Op) → Session L (Result op)
  shape : ∀ op, Transaction (EndedWithout aborted) (session op)
  queries : ∀ op, Queries (session op)
  undone : ∀ op tables error, (performed (session op) tables).1 = .error error →
    (performed (session op) tables).2 = tables

/-- What is seen of an operation: its outcome, and the durable tables after it. -/
structure Behaviour (O : Operations L aborted) where
  op : O.Op
  outcome : Except E (O.Result op)
  durable : L.Tables

section Sequences

variable (O : Operations L aborted) (server : Server L aborted)

def behave (op : O.Op) (l : Link L) : Behaviour O :=
  ⟨op, (served server (O.session op) l).1, (served server (O.session op) l).2.durable⟩

def linkAfter : List O.Op → Link L → Link L
  | [], l => l
  | op :: rest, l => linkAfter rest (served server (O.session op) l).2

def behaviours : List O.Op → Link L → List (Behaviour O)
  | [], _ => []
  | op :: rest, l => behave O server op l :: behaviours rest (served server (O.session op) l).2

/-- The operations after one that raised behave as if it had never been issued. -/
def Usable (ops : List O.Op) (l : Link L) : Prop :=
  ∀ before failed after, ops = before ++ failed :: after →
    (∃ error, (served server (O.session failed) (linkAfter O server before l)).1 = .error error) →
    behaviours O server after (linkAfter O server (before ++ [failed]) l) =
      behaviours O server after (linkAfter O server before l)

/-- The server refuses no statement of an operation that others follow. -/
def Accepted : List O.Op → L.Tables → Prop
  | [], _ => True
  | op :: rest, tables =>
      (rest = [] ∨ server.refused (O.session op) tables = false) ∧
        Accepted rest (performed (O.session op) tables).2

section

variable {O server}

theorem usable_nil (l : Link L) : Usable O server [] l := by
  intro before failed after shape
  cases before <;> cases shape

theorem usable_cons {op : O.Op} {rest : List O.Op} {l : Link L} :
    Usable O server (op :: rest) l ↔
      ((∃ error, (served server (O.session op) l).1 = .error error) →
        behaviours O server rest (served server (O.session op) l).2 = behaviours O server rest l) ∧
      Usable O server rest (served server (O.session op) l).2 := by
  constructor
  · intro usable
    constructor
    · exact usable [] op rest rfl
    · intro before failed after shape
      exact usable (op :: before) failed after (congrArg (List.cons op) shape)
  · intro both before failed after shape
    cases before with
    | nil =>
        obtain ⟨rfl, rfl⟩ := List.cons.inj shape
        exact both.1
    | cons first before =>
        obtain ⟨rfl, rfl⟩ := List.cons.inj shape
        exact both.2 before failed after rfl

theorem operation_served {op : O.Op} {tables : L.Tables}
    (accepted : server.refused (O.session op) tables = false) :
    served server (O.session op) (emptyLink tables false) =
      ((performed (O.session op) tables).1, emptyLink (performed (O.session op) tables).2 false) :=
  transaction_served (fun _ ended => ended.1) (O.shape op) accepted

theorem operation_refused {op : O.Op} {tables : L.Tables}
    (refused : server.refused (O.session op) tables = true) :
    ∃ error, error ≠ aborted ∧ served server (O.session op) (emptyLink tables false) =
      (.error error, emptyLink tables true) :=
  transaction_refused (fun _ ended => ended.1) (O.shape op) refused

theorem operation_aborted (op : O.Op) (tables : L.Tables) :
    served server (O.session op) (emptyLink tables true) = (.error aborted, emptyLink tables true) :=
  transaction_aborted (O.shape op) (O.queries op)

/-- On a connection whose transaction is aborted every operation raises, and nothing changes. -/
theorem behaviours_aborted (ops : List O.Op) (tables : L.Tables) :
    behaviours O server ops (emptyLink tables true) =
      ops.map fun op => ⟨op, .error aborted, tables⟩ := by
  induction ops with
  | nil => rfl
  | cons op rest ih =>
      simp only [behaviours, behave, operation_aborted op tables, List.map_cons, ih]
      rfl

theorem not_aborted (op : O.Op) (tables : L.Tables) :
    (served server (O.session op) (emptyLink tables false)).1 ≠ .error aborted := by
  cases refused : server.refused (O.session op) tables with
  | false =>
      rw [operation_served refused]
      exact outcome_not_aborted (O.shape op) refused
  | true =>
      obtain ⟨error, other, same⟩ := operation_refused refused
      rw [same]
      exact fun equal => other (Except.error.inj equal)

theorem behaviours_differ (op : O.Op) (rest : List O.Op) (tables : L.Tables) :
    behaviours O server (op :: rest) (emptyLink tables true) ≠
      behaviours O server (op :: rest) (emptyLink tables false) := by
  intro same
  have heads := (List.cons.inj same).1
  simp only [behave, operation_aborted op tables, Behaviour.mk.injEq, heq_eq_eq, true_and] at heads
  exact not_aborted op tables heads.1.symm

end

/-- What raised is not noticed afterwards, exactly if the server refuses at most a
statement of the last operation. -/
theorem usable_iff (ops : List O.Op) (tables : L.Tables) :
    Usable O server ops (emptyLink tables false) ↔ Accepted O server ops tables := by
  induction ops generalizing tables with
  | nil => exact ⟨fun _ => trivial, fun _ => usable_nil _⟩
  | cons op rest ih =>
      rw [usable_cons]
      cases refused : server.refused (O.session op) tables with
      | false =>
          rw [operation_served refused, ih]
          constructor
          · intro usable
            exact ⟨.inr refused, usable.2⟩
          · intro accepted
            refine ⟨?_, accepted.2⟩
            intro raised
            obtain ⟨error, raised⟩ := raised
            rw [O.undone op tables error raised]
      | true =>
          obtain ⟨error, _, same⟩ := operation_refused refused
          rw [same]
          cases rest with
          | nil => exact ⟨fun _ => ⟨.inl rfl, trivial⟩, fun _ => ⟨fun _ => rfl, usable_nil _⟩⟩
          | cons next rest =>
              constructor
              · intro usable
                exact absurd (usable.1 ⟨error, rfl⟩) (behaviours_differ next rest tables)
              · intro accepted
                rcases accepted.1 with none | taken
                · cases none
                · rw [refused] at taken
                  cases taken

end Sequences

end DearAgent.Db
