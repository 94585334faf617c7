import DearAgent.Lib.Transactions

/-!
# A server that refuses statements

The server at the other end of a connection that stays open. It makes of a statement
what its language says, or refuses it. After a refusal the transaction is aborted: until
it is closed the server answers every further statement with an error of its own.
-/

namespace DearAgent.Lib.Transactions

open DearAgent.Lib.Effects

set_option autoImplicit false

variable {E : Type}

/-- What a server makes of statements. No refusal is the exception of a lost
connection, or the one that tells of an aborted transaction. -/
structure Server (L : Language E) (aborted : E) where
  run : (statement : L.Statement) → L.Tables → Except E (L.Result statement × L.Tables)
  /-- The answer on a connection that is not open. -/
  unconnected : E
  agrees : ∀ statement tables done, run statement tables = .ok done →
    L.run statement tables = .ok done
  refusals : ∀ statement tables error, run statement tables = .error error →
    L.operational error = false ∧ error ≠ aborted
  abortedRemains : L.operational aborted = false
  unconnectedLost : L.operational unconnected = true

namespace Server

variable {L : Language E} {aborted : E}

def execute (server : Server L aborted) (statement : L.Statement) (l : Link L) :
    Except E (L.Result statement) × Link L :=
  if l.status = .live then
    if l.aborted then (.error aborted, l.failed)
    else
      match server.run statement l.seen with
      | .ok (result, tables) => (.ok result, { l with seen := tables })
      | .error error => (.error error, l.failed)
  else (.error server.unconnected, l)

def serve (server : Server L aborted) : (request : LinkRequest L) → Link L → request.Reply × Link L
  | .closed, l => (decide (l.status ≠ .live), l)
  | .connect, l => (.ok (), l.opened)
  | .close, l => (.ok (), l.gone .absent)
  | .execute statement, l => server.execute statement l
  | .commit, l => if l.status = .live then (.ok (), l.committed) else (.error server.unconnected, l)

def refused {α : Type} (server : Server L aborted) : Session L α → L.Tables → Bool
  | .ret _, _ => false
  | .raise _, _ => false
  | .ask .cursor next, tables => server.refused (next (.ok ())) tables
  | .ask (.execute statement) next, tables =>
      match server.run statement tables with
      | .ok (result, seen) => server.refused (next (.ok result)) seen
      | .error _ => true
  | .ask .commit next, tables => server.refused (next (.ok ())) tables

end Server

section Sessions

variable {L : Language E} {α : Type}

def Queries : Session L α → Prop
  | .ret _ => False
  | .raise _ => False
  | .ask .cursor next => Queries (next (.ok ()))
  | .ask (.execute _) _ => True
  | .ask .commit _ => False

/-- A session that asks nothing more, and does not raise this. -/
def EndedWithout (error : E) (program : Session L α) : Prop :=
  Ended program ∧ program ≠ .raise error

end Sessions

/-- A connection that is open and whose transaction is empty, or aborted. -/
def emptyLink {L : Language E} (tables : L.Tables) (aborted : Bool) : Link L :=
  ⟨tables, tables, .live, aborted, False⟩

end DearAgent.Lib.Transactions
