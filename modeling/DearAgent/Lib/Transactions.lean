import DearAgent.Lib.Effects

/-!
# Transactions over a connection that may be lost

A database has durable tables. A connection has a transaction of its own, whose
statements it alone sees until they are committed. When the connection is lost
the changes of the transaction are gone, and statements on it fail; it may or may
not report that it is closed.

A session is what a program asks for that does not look after its connection:
a cursor, statements, a commit. Performed without any loss it says what the
program is meant to do.
-/

namespace DearAgent.Lib.Transactions

open DearAgent.Lib.Effects

set_option autoImplicit false

/-- Statements over some tables: what each returns and makes of them. The
exceptions of a lost connection are set apart from all others. -/
structure Language (E : Type) where
  Tables : Type
  Statement : Type
  Result : Statement → Type
  run : (statement : Statement) → Tables → Except E (Result statement × Tables)
  operational : E → Bool

variable {E : Type}

section Sessions

variable (L : Language E)

inductive SessionRequest
  | cursor
  | execute (statement : L.Statement)
  | commit

@[reducible] def SessionRequest.Result : SessionRequest L → Type
  | .cursor | .commit => Unit
  | .execute statement => L.Result statement

@[reducible] def session : Signature where
  Request := SessionRequest L
  Reply request := Except E request.Result
  Raised := E

abbrev Session (α : Type) := Program (session L) α

variable {L}

/-- Durable tables and the ones a transaction sees, when nothing is lost. A
statement that fails undoes the transaction. -/
def reliably (request : SessionRequest L) (tables : L.Tables × L.Tables) :
    (session L).Reply request × L.Tables × L.Tables :=
  match request with
  | .cursor => (.ok (), tables)
  | .execute statement =>
      match L.run statement tables.2 with
      | .ok (result, seen) => (.ok result, tables.1, seen)
      | .error error => (.error error, tables.1, tables.1)
  | .commit => (.ok (), tables.2, tables.2)

def outcomeFrom {α : Type} (program : Session L α) (durable seen : L.Tables) :
    Except E α × L.Tables :=
  let ended := run reliably program (durable, seen)
  (ended.2.1, ended.2.2.1)

def performed {α : Type} (program : Session L α) (tables : L.Tables) : Except E α × L.Tables :=
  outcomeFrom program tables tables

/-- One transaction: exceptions get out, and nothing is asked after the commit,
which a session ends in one of some ways. -/
def Transaction {α : Type} (ends : Session L α → Prop) : Session L α → Prop
  | .ret _ => False
  | .raise _ => False
  | .ask .cursor next => (∀ error, next (.error error) = .raise error) ∧
      Transaction ends (next (.ok ()))
  | .ask (.execute _) next => (∀ error, next (.error error) = .raise error) ∧
      ∀ result, Transaction ends (next (.ok result))
  | .ask .commit next => (∀ error, next (.error error) = .raise error) ∧ ends (next (.ok ()))

variable {α : Type}

theorem outcome_cursor {next : Except E Unit → Session L α} {durable seen : L.Tables} :
    outcomeFrom (.ask .cursor next) durable seen = outcomeFrom (next (.ok ())) durable seen := rfl

theorem outcome_execute {statement : L.Statement} {next : Except E (L.Result statement) → Session L α}
    {durable seen tables : L.Tables} {result : L.Result statement}
    (ran : L.run statement seen = .ok (result, tables)) :
    outcomeFrom (.ask (.execute statement) next) durable seen =
      outcomeFrom (next (.ok result)) durable tables := by
  simp only [outcomeFrom, run, reliably, ran]

theorem outcome_refused {statement : L.Statement} {next : Except E (L.Result statement) → Session L α}
    {durable seen : L.Tables} {error : E} (refused : L.run statement seen = .error error) :
    outcomeFrom (.ask (.execute statement) next) durable seen =
      outcomeFrom (next (.error error)) durable durable := by
  simp only [outcomeFrom, run, reliably, refused]

theorem outcome_commit {next : Except E Unit → Session L α} {durable seen : L.Tables} :
    outcomeFrom (.ask .commit next) durable seen = outcomeFrom (next (.ok ())) seen seen := rfl

/-- What a session that asks nothing more can be. -/
def Ended (program : Session L α) : Prop :=
  (∃ value, program = .ret value) ∨ ∃ error, program = .raise error

def Returned (program : Session L α) : Prop := ∃ value, program = .ret value

/-- Induction over a transaction: what is asked before the commit, and the commit. -/
theorem Transaction.parts {ends : Session L α → Prop}
    {motive : (program : Session L α) → Transaction ends program → Prop}
    (cursor : ∀ (next : Except E Unit → Session L α)
      (raises : ∀ error, next (.error error) = .raise error)
      (rest : Transaction ends (next (.ok ()))),
      motive (next (.ok ())) rest → motive (.ask .cursor next) ⟨raises, rest⟩)
    (execute : ∀ (statement : L.Statement) (next : Except E (L.Result statement) → Session L α)
      (raises : ∀ error, next (.error error) = .raise error)
      (rest : ∀ result, Transaction ends (next (.ok result))),
      (∀ result, motive (next (.ok result)) (rest result)) →
        motive (.ask (.execute statement) next) ⟨raises, rest⟩)
    (commit : ∀ (next : Except E Unit → Session L α)
      (raises : ∀ error, next (.error error) = .raise error) (ended : ends (next (.ok ()))),
      motive (.ask .commit next) ⟨raises, ended⟩)
    {program : Session L α} (shape : Transaction ends program) : motive program shape := by
  induction program with
  | ret value => exact shape.elim
  | raise error => exact shape.elim
  | ask request next ih =>
      cases request with
      | cursor => exact cursor next shape.1 shape.2 (ih (.ok ()) shape.2)
      | execute statement =>
          exact execute statement next shape.1 shape.2 fun result => ih (.ok result) (shape.2 result)
      | commit => exact commit next shape.1 shape.2

theorem transaction_mono {ends ends' : Session L α → Prop}
    (implied : ∀ program, ends program → ends' program) {program : Session L α}
    (shape : Transaction ends program) : Transaction ends' program := by
  induction shape using Transaction.parts with
  | cursor next raises rest ih => exact ⟨raises, ih⟩
  | execute statement next raises rest ih => exact ⟨raises, ih⟩
  | commit next raises ended => exact ⟨raises, implied _ ended⟩

/-- A transaction that returns once it committed has raised before, and then
nothing is durable. -/
theorem raised_undone {program : Session L α} (shape : Transaction Returned program)
    {durable seen : L.Tables} {error : E} (raised : (outcomeFrom program durable seen).1 = .error error) :
    (outcomeFrom program durable seen).2 = durable := by
  induction shape using Transaction.parts generalizing seen with
  | cursor next raises rest ih => exact ih raised
  | execute statement next raises rest ih =>
      cases ran : L.run statement seen with
      | ok done =>
          rw [outcome_execute ran] at raised ⊢
          exact ih done.1 raised
      | error refused =>
          rw [outcome_refused ran, raises]
          rfl
  | commit next raises ended =>
      obtain ⟨value, ends⟩ := ended
      rw [outcome_commit, ends] at raised
      cases raised

/-- One transaction of which nothing is durable if it raises. -/
structure Atomic (program : Session L α) : Prop where
  shape : Transaction Ended program
  undone : ∀ tables error, (performed program tables).1 = .error error →
    (performed program tables).2 = tables

end Sessions

/-!
## The connection
-/

inductive Status
  | absent | lost | live
deriving DecidableEq

/-- A connection with its transaction: the tables it sees, whether a statement of
it failed, and whether changes that were not committed went down with it. -/
structure Link (L : Language E) where
  durable : L.Tables
  seen : L.Tables
  status : Status
  aborted : Bool
  dropped : Prop

inductive LinkRequest (L : Language E)
  | closed
  | connect
  | close
  | execute (statement : L.Statement)
  | commit

@[reducible] def LinkRequest.Reply {L : Language E} : LinkRequest L → Type
  | .closed => Bool
  | .connect | .close | .commit => Except E Unit
  | .execute statement => Except E (L.Result statement)

@[reducible] def link (L : Language E) : Signature where
  Request := LinkRequest L
  Reply := LinkRequest.Reply
  Raised := E

section Serving

variable {L : Language E}

def Link.opened (l : Link L) : Link L :=
  { l with seen := l.durable, status := .live, aborted := false }

/-- The connection is gone, and the changes of its transaction with it. -/
def Link.gone (l : Link L) (status : Status) : Link L :=
  { l with seen := l.durable, status := status, dropped := l.dropped ∨ l.seen ≠ l.durable }

def Link.failed (l : Link L) : Link L := { l with seen := l.durable, aborted := true }

def Link.committed (l : Link L) : Link L :=
  if l.aborted then { l with seen := l.durable, aborted := false } else { l with durable := l.seen }

/-- What a connection answers in the condition it is in. -/
def Answers : (request : LinkRequest L) → Link L → request.Reply → Link L → Prop
  | .closed, l, reply, after => after = l ∧
      match l.status with
      | .absent => reply = true
      | .live => reply = false
      | .lost => True
  | .connect, l, reply, after => (reply = .ok () ∧ after = l.opened) ∨
      ((∃ error, reply = .error error) ∧ after = l)
  | .close, l, _, after => after = l.gone .absent
  | .execute statement, l, reply, after =>
      if l.status = .live then
        (l.aborted = false ∧ ∃ result tables, L.run statement l.seen = .ok (result, tables) ∧
          reply = .ok result ∧ after = { l with seen := tables }) ∨
        ((∃ error, L.operational error = false ∧ reply = .error error) ∧ after = l.failed)
      else (∃ error, L.operational error = true ∧ reply = .error error) ∧ after = l
  | .commit, l, reply, after =>
      if l.status = .live then reply = .ok () ∧ after = l.committed
      else (∃ error, L.operational error = true ∧ reply = .error error) ∧ after = l

def lossy (L : Language E) : Env (link L) (Link L) := fun request l reply after =>
  Answers request l reply after ∨ (l.status = .live ∧ Answers request (l.gone .lost) reply after)

/-- Nothing is committed after changes went down with a connection. -/
def Whole (l : Link L) : (request : LinkRequest L) → request.Reply → Prop
  | .commit, .ok _ => ¬l.dropped
  | _, _ => True

def lossyWhole (L : Language E) : Env (link L) (Link L) := fun request l reply after =>
  lossy L request l reply after ∧ Whole l request reply

/-- A transaction that failed, or whose connection is gone, has no changes. -/
def Link.Undone (l : Link L) : Prop := l.aborted = true ∨ l.status ≠ .live → l.seen = l.durable

/-- What becomes of a connection while the durable tables stay as they are. -/
structure Carries (l after : Link L) : Prop where
  durable : after.durable = l.durable
  undone : l.Undone → after.Undone
  dropped : l.dropped → after.dropped
  seen : ¬after.dropped → after.seen = l.seen

theorem Carries.refl (l : Link L) : Carries l l := ⟨rfl, id, id, fun _ => rfl⟩

theorem Carries.trans {first second third : Link L} (early : Carries first second)
    (late : Carries second third) : Carries first third where
  durable := late.durable.trans early.durable
  undone undone := late.undone (early.undone undone)
  dropped dropped := late.dropped (early.dropped dropped)
  seen kept := (late.seen kept).trans (early.seen fun dropped => kept (late.dropped dropped))

theorem carries_gone (l : Link L) (status : Status) : Carries l (l.gone status) where
  durable := rfl
  undone _ _ := rfl
  dropped dropped := .inl dropped
  seen kept := by
    by_contra changed
    exact kept (.inr fun same => changed same.symm)

theorem carries_opened {l : Link L} (closed : l.status ≠ .live) (undone : l.Undone) :
    Carries l l.opened where
  durable := rfl
  undone _ _ := rfl
  dropped dropped := dropped
  seen _ := (undone (.inr closed)).symm

theorem lossy_cases {request : LinkRequest L} {l after : Link L} {reply : request.Reply}
    (answered : lossyWhole L request l reply after) :
    ∃ before : Link L, Carries l before ∧ (l.status ≠ .live → before.status ≠ .live) ∧
      Answers request before reply after ∧ Whole before request reply := by
  obtain ⟨served | ⟨live, served⟩, whole⟩ := answered
  · exact ⟨l, .refl l, id, served, whole⟩
  · refine ⟨l.gone .lost, carries_gone l .lost, fun other => absurd live other, served, ?_⟩
    cases request with
    | commit =>
        obtain ⟨⟨error, _, rfl⟩, _⟩ := served
        trivial
    | _ => trivial

end Serving

end DearAgent.Lib.Transactions
