import DearAgent.Normalizer
import DearAgent.Worker

/-!
# The spec resolver

`worker_factory.py`: what a worker runs is the spec stored with the task; a task
that was stored without one is read again from the mailbox.
-/

namespace DearAgent

open DearAgent.Lib.Text DearAgent.Queue

set_option autoImplicit false

/-- The transport and the preparer of a resolver, by what they answer. -/
structure WorktreeSpecResolver where
  poll : Except Exn (List RawMessage)
  ensure : Str → Str → Except Exn Unit

namespace WorktreeSpecResolver

variable [Unicode]

def fromTransport (resolver : WorktreeSpecResolver) (task : Task) : Except Exn TaskSpec := do
  let messages ← resolver.poll
  match messages.find? fun raw => raw.transportId = task.transportId with
  | none => .error (.otherException "LookupError"
      ("message ".toList ++ reprText task.transportId ++ " not found in the transport".toList))
  | some message =>
      match normalize message none with
      | .error rejected => .error (.valueError ("message ".toList ++ reprText task.transportId ++
          " does not normalize: ".toList ++ rejected.reason.value))
      | .ok result => .ok result.spec

/-- `__call__`. -/
def resolve (resolver : WorktreeSpecResolver) (task : Task) (repoPath : Str) :
    Except Exn TaskSpec := do
  let spec ← match task.spec with
    | some stored => .ok stored
    | none => resolver.fromTransport task
  if !spec.repoUrl.isEmpty then resolver.ensure repoPath spec.repoUrl
  return spec

theorem resolve_stored {resolver : WorktreeSpecResolver} {task : Task} {repoPath : Str}
    {stored spec : TaskSpec} (own : task.spec = some stored)
    (resolved : resolver.resolve task repoPath = .ok spec) : spec = stored := by
  unfold resolve at resolved
  rw [own] at resolved
  change (do
    if !stored.repoUrl.isEmpty then resolver.ensure repoPath stored.repoUrl
    return stored) = Except.ok spec at resolved
  by_cases named : !stored.repoUrl.isEmpty
  · rw [if_pos named] at resolved
    cases prepared : resolver.ensure repoPath stored.repoUrl with
    | error error =>
        rw [prepared] at resolved
        cases resolved
    | ok _ =>
        rw [prepared] at resolved
        exact (Except.ok.inj resolved).symm
  · rw [if_neg named] at resolved
    exact (Except.ok.inj resolved).symm

end WorktreeSpecResolver

end DearAgent
