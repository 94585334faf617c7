import DearAgent.Transports

/-!
# Outbound messages

The texts of `notify/notifier.py` and `notify/escalate.py`: what is rendered
for a task, to which thread and with which headers it goes. Sending it is left
to the programs.
-/

namespace DearAgent

open DearAgent.Lib.Text DearAgent.Queue

set_option autoImplicit false

def intText (n : Int) : Str := (toString n).toList

namespace Notifier

/-- `STATUS_SUBJECTS.get(task.state, task.state.value)`. -/
def statusSubject : TaskState → Str
  | .queued => "queued"
  | .running => "running"
  | .action => "needs your approval"
  | .done => "done"
  | .failed => "failed"
  | .rejected => "rejected"
  | .approved => "approved"
  | .received => TaskState.received.value

structure TaskLinks where
  branch : Option Str := none
  commit : Option Str := none
  prUrl : Option Str := none
deriving DecidableEq

def linkLine (label : Str) (link : Option Str) : List Str :=
  match link with
  | some text => if text.isEmpty then [] else [label ++ text]
  | none => []

def renderStatus (task : Task) (summary : Str) (links : Option TaskLinks) : Str :=
  join "\n" (["task: ".toList ++ task.id, "state: ".toList ++ task.state.value] ++
    (if summary.isEmpty then [] else ["summary: ".toList ++ summary]) ++
    match links with
    | none => []
    | some links =>
        linkLine "branch: " links.branch ++ linkLine "commit: " links.commit ++
          linkLine "PR: " links.prUrl)

def headers (task : Task) (recipient : Str) : Headers :=
  [("to".toList, recipient), ("X-Dear Agent-Task".toList, task.id)] ++
    if task.threadId.isSome then [("in-reply-to".toList, task.transportId)] else []

def statusMessage (task : Task) (recipient summary : Str) (links : Option TaskLinks) :
    OutboundMessage where
  threadId := task.threadId
  subject := "[dear-agent] ".toList ++ statusSubject task.state ++ ": ".toList ++
    orElse task.subject task.id
  body := renderStatus task summary links
  headers := headers task recipient

def decisionSentence (token : Str) : Str :=
  "Reply 'approve ".toList ++ token ++ "' or 'reject ".toList ++ token ++ "' to decide.".toList

def requestBody (task : Task) (summary : Str) (links : Option TaskLinks) (token : Str) : Str :=
  renderStatus task summary links ++ "\n\n".toList ++ decisionSentence token ++ "\n".toList

def requestMessage (task : Task) (recipient summary : Str) (links : Option TaskLinks)
    (token : Str) : OutboundMessage where
  threadId := task.threadId
  subject := "[dear-agent] approval needed: ".toList ++ orElse task.subject task.id
  body := requestBody task summary links token
  headers := headers task recipient

end Notifier

inductive FailureKind
  | harnessMissing | timeout | harnessFailed | noChanges | publishFailed | verifyFailed
  | verifyBlocked
deriving DecidableEq

namespace FailureKind

def value : FailureKind → Str
  | .harnessMissing => "harness_missing"
  | .timeout => "timeout"
  | .harnessFailed => "harness_failed"
  | .noChanges => "no_changes"
  | .publishFailed => "publish_failed"
  | .verifyFailed => "verify_failed"
  | .verifyBlocked => "verify_blocked"

/-- `FAILURE_SUMMARIES`. -/
def summary : FailureKind → Str
  | .harnessMissing => "the harness binary is not available on this host"
  | .timeout => "the run exceeded its time budget"
  | .harnessFailed => "the harness exited with an error"
  | .noChanges => "the harness finished but produced no changes"
  | .publishFailed => "the change could not be pushed or the draft PR opened"
  | .verifyFailed => "the change did not pass the task's verify command"
  | .verifyBlocked => "the task's verify command is not on the allowlist"

end FailureKind

namespace Escalator

/-- The reason names the exit code when the harness itself failed. -/
def reasonLine (kind : FailureKind) (exitCode : Int) : Str :=
  "reason: ".toList ++ kind.summary ++
    match kind with
    | .harnessMissing | .timeout | .harnessFailed => " (exit ".toList ++ intText exitCode ++ ")".toList
    | _ => []

def message (task : Task) (exitCode : Int) (recipient : Str) (branch : Option Str)
    (kind : FailureKind) (detail : Option Str) : OutboundMessage where
  threadId := task.threadId
  subject := "[dear-agent] needs attention: ".toList ++ orElse task.subject task.id
  body := join "\n" (["task: ".toList ++ task.id, "state: needs attention".toList,
      reasonLine kind exitCode] ++ Notifier.linkLine "detail: " detail ++
    Notifier.linkLine "branch: " branch ++
    ["A human should review this run before it is retried or closed.".toList])
  headers := [("to".toList, recipient), ("X-Dear Agent-Task".toList, task.id)]

end Escalator

end DearAgent
