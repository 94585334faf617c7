import DearAgent.Lib.Text

/-!
# Queue records

The records of `queue/models.py`. A point in time and a duration are counted in microseconds and
have no bounds here. A `datetime` ends with the year 9999, and a sum or difference outside of its
range raises `OverflowError`; it is assumed that no lease, time to live or window reaches that far
from a reading of the clock.
-/

namespace DearAgent.Queue

open DearAgent.Lib.Text

set_option autoImplicit false

/-- A `datetime`, assumed to stay within its range. -/
abbrev Instant := Int

abbrev Duration := Int

inductive TaskState
  | received | queued | running | action | done | failed | rejected | approved
deriving DecidableEq

def TaskState.value : TaskState → Str
  | .received => "received"
  | .queued => "queued"
  | .running => "running"
  | .action => "action"
  | .done => "done"
  | .failed => "failed"
  | .rejected => "rejected"
  | .approved => "approved"

/-- The states the documentation of `TaskState` calls terminal. -/
def TaskState.terminal : TaskState → Bool
  | .done | .failed | .approved | .rejected => true
  | .received | .queued | .running | .action => false

structure Evidence where
  branch : Option Str
  commit : Option Str
  prUrl : Option Str
deriving DecidableEq

structure TaskSpec where
  repoUrl : Str
  baseBranch : Str := "main"
  instructions : Str := ""
  modelRequest : Option Str := none
  verify : Option Str := none
  dependsOn : List Str := []
deriving DecidableEq

structure Task where
  id : Str
  transportId : Str
  threadId : Option Str := none
  sender : Option Str := none
  subject : Option Str := none
  state : TaskState := .received
  attempts : Nat := 0
  leaseUntil : Option Instant := none
  createdAt : Instant
  spec : Option TaskSpec := none
  evidence : Option Evidence := none
deriving DecidableEq

/-- `value or default` for text that may be missing: the empty text is false. -/
def orElse (value : Option Str) (default : Str) : Str :=
  match value with
  | none => default
  | some text => if text.isEmpty then default else text

theorem or_else_of_given {text : Str} (given : text ≠ []) (default : Str) :
    orElse (some text) default = text := by
  cases text with
  | nil => exact absurd rfl given
  | cons => rfl

theorem or_else_of_empty {value : Option Str} (empty : ∀ text, value = some text → text = [])
    (default : Str) : orElse value default = default := by
  cases value with
  | none => rfl
  | some text =>
      rw [empty text rfl]
      rfl

def truthy (value : Option Str) : Bool := value.any fun text => !text.isEmpty

end DearAgent.Queue
