import DearAgent.Queue.Agreement
import DearAgent.Queue.Representation
import DearAgent.System.Decisions
import DearAgent.ControlPlane.Requester
import DearAgent.ControlPlane.Releasing
import DearAgent.ControlPlane.Denials
import DearAgent.ControlPlane.Budgets
import DearAgent.ControlPlane.Redelivery
import DearAgent.ControlPlane.Answers
import DearAgent.System.HumanGate
import DearAgent.System.Runs
import DearAgent.System.Leases
import DearAgent.System.Terminal
import DearAgent.System.Discipline
import DearAgent.System.Handover
import DearAgent.System.IdleWork
import DearAgent.WorkerFactory
import DearAgent.System
import DearAgent.ControlPlane
import DearAgent.Decision.Log
import DearAgent.Decision.Lines
import DearAgent.Decision.Calibration
import DearAgent.Decision.Bands
import DearAgent.Decision.Fallback
import DearAgent.Decision.Parsing
import DearAgent.Inbound.Totality
import DearAgent.Dispatch
import DearAgent.Kube
import DearAgent.Stores
import DearAgent.Stores.Failures
import DearAgent.Stores.Policies
import DearAgent.Stores.Claims
import DearAgent.Transports.Passes
import DearAgent.Runners.Shared
import DearAgent.Runners.Container
import DearAgent.Runners.Routing
import DearAgent.Runners.Wire
import DearAgent.Dispatch.Jobs
import DearAgent.Dispatch.Names
import DearAgent.Normalizer
import DearAgent.Normalizer.Fields
import DearAgent.Normalizer.Addresses
import DearAgent.Normalizer.Options
import DearAgent.Lib.Interleaving
import DearAgent.Deps
import DearAgent.Worker.Settling
import DearAgent.Worker.Progress
import DearAgent.World
import DearAgent.Worker
import DearAgent.Executor
import DearAgent.Executor.Gate
import DearAgent.Executor.Review
import DearAgent.Executor.Output
import DearAgent.Lib.Stories
import DearAgent.Auth.Attribution
import DearAgent.Auth.Verdicts
import DearAgent.Auth.Admission
import DearAgent.Auth.Signing
import DearAgent.Auth
import DearAgent.Quoting
import DearAgent.Gitplane.Mirrors
import DearAgent.Gitplane.Spellings
import DearAgent.Worker.Conflicts
import DearAgent.Worker.Budget
import DearAgent.Worker.Blocked
import DearAgent.Worker.Entries
import DearAgent.Approvals.File
import DearAgent.Approvals.Agreement
import DearAgent.Policy
import DearAgent.Policy.FrontMatter
import DearAgent.Gitplane.Forge
import DearAgent.Notify
import DearAgent.Replies
import DearAgent.Transports
import DearAgent.Approvals
import DearAgent.Queue.Postgres
import DearAgent.Queue.Memory
import DearAgent.Queue.Port
import DearAgent.Lib.Regex
import DearAgent.Lib.Dict
import DearAgent.Normalizer.Refs
import DearAgent.Runners.Mounts
import DearAgent.Idle
import DearAgent.Gitplane.Remotes
import DearAgent.Gitplane.Plane
import DearAgent.Lib.Paths
import DearAgent.Executor.Branches
import DearAgent.Executor.ReviewerLine
import DearAgent.Lib.Tokens
import DearAgent.Lib.Grammar
import DearAgent.Lib.Escapes
import DearAgent.Lib.Dumps
import DearAgent.Lib.Refinement
import DearAgent.Lib.Balances
import DearAgent.HttpServer.Slots
import DearAgent.Transports.AgentInbox
import DearAgent.Transports.JmapMail
import DearAgent.Stores.Logs
import DearAgent.Verify.Allowlist
import DearAgent.Verify.Gate
import DearAgent.Environment.Jsonc
import DearAgent.Environment.Descriptor
import DearAgent.Jmap.EventSource
import DearAgent.Environment.Injection
