import DearAgent.Deps

/-!
# The dispatcher

`dispatch.py`: queued tasks become runner jobs.
-/

namespace DearAgent

open DearAgent.Lib.Text DearAgent.Lib.Effects DearAgent.Queue

set_option autoImplicit false

structure TaskDispatcher where
  template : Str
  limit : Int := 20
deriving DecidableEq

namespace TaskDispatcher

def alreadyRunning (task : Task) : Bool := task.state ≠ .queued

/-- The loop of `dispatch_once`. -/
def dispatchAll (dispatcher : TaskDispatcher) : List Task → Code (List Str)
  | [] => .ret []
  | task :: rest =>
      if alreadyRunning task then dispatcher.dispatchAll rest
      else do
        let status ← dependencyStatus task
        match status.state with
        | .failed => do
            let _ ← Queue.transition task .failed
            dispatcher.dispatchAll rest
        | .blocked => dispatcher.dispatchAll rest
        | .ready => do
            let job ← call (.renderJob dispatcher.template task)
            call (.launchJob job)
            let created ← dispatcher.dispatchAll rest
            .ret (task.id :: created)

def dispatchOnce (dispatcher : TaskDispatcher) : Code (List Str) := do
  let queued ← Queue.list .queued dispatcher.limit
  dispatcher.dispatchAll queued

end TaskDispatcher

end DearAgent
