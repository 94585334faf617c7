import DearAgent.ApprovalsService
import DearAgent.Executor
import DearAgent.Idle

/-!
# The idle loop

`IdleLoop.tick` of `idle/loop.py` with the `submit` of the `idle` command: where
few tasks are queued, the first proposals are stored, and each one that was
stored as a gated task gets a token.
-/

namespace DearAgent.Idle

open DearAgent.Lib.Text DearAgent.Lib.Effects DearAgent.Queue

set_option autoImplicit false

structure IdleBudget where
  maxPerRun : Int := 1
  minQueueDepth : Int := 1
deriving DecidableEq

def IdleBudget.allows (budget : IdleBudget) (queued : Nat) : Bool := queued < budget.minQueueDepth

def pathText (path : List Str) : Str :=
  if path.isEmpty then "/" else path.flatMap fun name => '/' :: name

/-- What the idle command was given. The recipient is that of the command or of
the configuration; the collector comes to signals or raises. -/
structure IdleCommand where
  repoUrl : Option Str := none
  recipient : Option Str := none
  noGate : Bool := false
  budget : IdleBudget := {}
  repoName : Str
  generator : ProposalGenerator := {}
  collected : Except Exn Signals

structure IdleReport where
  skipped : Bool := false
  reason : Str := ""
  proposed : List Str := []
deriving DecidableEq

def transportId [Sha256] (proposal : Proposal) : Str :=
  let digest := (Sha256.hexdigest (pathText proposal.repoPath ++ '|' :: proposal.title ++
    '|' :: proposal.instructions)).take 32
  "<idle-".toList ++ digest ++ "@dear-agent.local>".toList

namespace IdleCommand

/-- `proposals[: max_per_run]`. -/
def sliceTo (limit : Int) (proposals : List Proposal) : List Proposal :=
  proposals.take (if 0 ≤ limit then limit else proposals.length + limit).toNat

def chosen (command : IdleCommand) (signals : Signals) : List Proposal :=
  sliceTo command.budget.maxPerRun (command.generator.generate signals (some command.repoName))

def taskOf [Sha256] (command : IdleCommand) (proposal : Proposal) : Task where
  id := transportId proposal
  transportId := transportId proposal
  subject := some proposal.title
  createdAt := 0
  spec := some {
    repoUrl := orElse command.repoUrl (pathText proposal.repoPath)
    instructions := proposal.instructions }

/-- A gated proposal is never queued before it is approved. -/
def stateOf (command : IdleCommand) : TaskState := if command.noGate then .queued else .action

/-- The token of a stored proposal, sent where somebody is there to read it. -/
def requestApproval (command : IdleCommand) (stored : Task) (proposal : Proposal) : Code Unit :=
  match truthy command.recipient with
  | true => do
      let token ← ApprovalService.request stored.id "run"
      call (.send (Notifier.requestMessage stored (command.recipient.getD []) proposal.title none
        token))
  | false => dropValue (ApprovalService.request stored.id "run")

def submit [Sha256] (command : IdleCommand) (proposal : Proposal) : Code (Option Str) := do
  match ← Queue.enqueue (command.taskOf proposal) command.stateOf with
  | none => .ret none
  | some stored =>
      if command.noGate then .ret (some stored.id)
      else do
        command.requestApproval stored proposal
        .ret (some stored.id)

def submitAll [Sha256] (command : IdleCommand) : List Proposal → List Str → Code (List Str)
  | [], proposed => .ret proposed
  | proposal :: rest, proposed => do
      match ← command.submit proposal with
      | none => command.submitAll rest proposed
      | some id => command.submitAll rest (proposed ++ [id])

def collect (command : IdleCommand) : Code Signals :=
  match command.collected with
  | .error error => .raise error
  | .ok signals => .ret signals

def tick [Sha256] (command : IdleCommand) : Code IdleReport := do
  let queued ← Queue.list .queued 1000
  if !command.budget.allows queued.length then
    .ret { skipped := true, reason := "queue depth ".toList ++ intText queued.length }
  else do
    let signals ← command.collect
    let proposed ← command.submitAll (command.chosen signals) []
    .ret { proposed := proposed }

end IdleCommand

end DearAgent.Idle
