import DearAgent.Lib.Interleaving
import DearAgent.ControlPlane
import DearAgent.Dispatch
import DearAgent.Worker

/-!
# The system

The operations that run without an operator, started in any number and
interleaved in any order. Beside them stands what can be said about each of
them alone: which tasks it moves and where to, which ones it stores, and which
ones it hands to a runner, in terms of what it asked and was answered before.
-/

namespace DearAgent

open DearAgent.Lib.Text DearAgent.Lib.Effects DearAgent.Lib.Interleaving DearAgent.Queue

set_option autoImplicit false

inductive Operation
  | ingest (plane : ControlPlane) (messages : List RawMessage) (recipient : Option Str)
  | apply (reply : ApprovalReply) (sender threadId : Option Str)
  | dispatchOnce (dispatcher : TaskDispatcher)
  | work (job : Work)
  | releaseStale (now : Instant)
deriving DecidableEq

namespace Operation

def start [Unicode] [Sha256] : Operation → Code Unit
  | .ingest plane messages recipient => dropValue (plane.ingest messages recipient)
  | .apply reply sender threadId => dropValue (ApprovalService.apply reply sender threadId)
  | .dispatchOnce dispatcher => dropValue dispatcher.dispatchOnce
  | .work job => job.program
  | .releaseStale now => dropValue (Queue.releaseStale now)

def gates : Operation → Bool
  | .ingest plane _ _ => plane.approvals
  | _ => false

def works : Operation → Bool
  | .work _ => true
  | _ => false

end Operation

abbrev Own := List (Exchange ports)

def Claims (own : Own) (id : Str) : Prop := ∃ event ∈ own, Work.claimedId event = some id

def Unclaimed (own : Own) : Prop := ∀ event ∈ own, Work.claimedId event = none

/-- The task was read under its id after the process had claimed it. -/
def ReadBack (own : Own) (task : Task) : Prop :=
  ∃ before after : Own, own = before ++ after ∧ Claims before task.id ∧
    (⟨.queue (.get task.id), .ok (some task)⟩ : Exchange ports) ∈ after

/-- Whether the latest exchanges flag a message: one of the deciders asked since
the last request of another kind answered yes. -/
def flagAfter (flagged : Bool) : Exchange ports → Bool
  | ⟨.scan _, .ok suspicious⟩ => flagged || suspicious
  | ⟨.assess _, .ok suspicious⟩ => flagged || suspicious
  | ⟨.needsHuman _, .ok human⟩ => flagged || human
  | _ => false

def flagged (own : Own) : Bool := own.foldl flagAfter false

/-- The message with this id was offered to the queue, which took it or has it already. -/
def Offered (own : Own) (id : Str) : Prop :=
  ∃ task state stored, task.id = id ∧ task.transportId = id ∧
    (⟨.queue (.enqueue task state), .ok stored⟩ : Exchange ports) ∈ own

/-- The task was on a page of queued tasks that was read. -/
def Listed (own : Own) (task : Task) : Prop :=
  ∃ limit page, (⟨.queue (.list .queued limit), .ok page⟩ : Exchange ports) ∈ own ∧ task ∈ page

/-- The transitions there are, each with what was asked before. -/
inductive Moves (operation : Operation) (own : Own) (task : Task) : TaskState → Prop
  /-- An approval reply decides a task that awaits it. -/
  | decided (deciding : operation.works = false) (reply : ApprovalReply) (approval : Approval)
      (redeemed : Redeemed) (awaiting : task.state = .action)
      (lookedUp : (⟨.approvalOf reply.token, .ok (some approval)⟩ : Exchange ports) ∈ own)
      (of : approval.taskId = task.id)
      (spent : (⟨.redeem reply, .ok redeemed⟩ : Exchange ports) ∈ own) :
      Moves operation own task (ApprovalService.target reply.decision redeemed.approval.action)
  /-- A queued task that cannot run is failed. -/
  | unrunnable (queued : task.state = .queued) (unclaimed : Unclaimed own) :
      Moves operation own task .failed
  /-- A guard of `TaskWorker.run` fails the task, whatever state it was read in. -/
  | refused (worker : TaskWorker) (taskId : Str) (running : operation = .work (.run worker taskId))
      (unclaimed : Unclaimed own) : Moves operation own task .failed
  /-- An executor ends the task it claimed. -/
  | ended (toState : TaskState) (working : operation.works = true) (readBack : ReadBack own task)
      (final : toState = .done ∨ toState = .failed) : Moves operation own task toState

def May (operation : Operation) (own : Own) : Request → Prop
  | .queue (.enqueue task state) =>
      state = .action ∨ (state = .queued ∧ task.transportId = task.id ∧
        (operation.gates = true → flagged own = true → Offered own task.id))
  | .queue (.transition task toState _) => Moves operation own task toState
  | .runHarness task _ _ | .sessionFor task _ => Claims own task.id
  | .renderJob _ task => Listed own task
  | _ => True

def Honest : Exchange ports → Prop
  | ⟨.queue (.get id), .ok (some task)⟩ => task.id = id
  | ⟨.queue (.list state _), .ok page⟩ => ∀ task ∈ page, task.state = state
  | _ => True

end DearAgent
