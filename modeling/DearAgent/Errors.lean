import DearAgent.Queue.Models

/-!
# Exceptions

The exceptions the modelled code raises and catches, each with the data its
text is built from. A collaborator may raise any of them, any other subclass
of `Exception`, or one such as `KeyboardInterrupt` that is none.
-/

namespace DearAgent

open DearAgent.Lib.Text DearAgent.Queue

set_option autoImplicit false

inductive Exn
  | taskNotFound (taskId : Str)
  | stateConflict (taskId : Str) (expected actual : TaskState)
  | unknownToken (token : Str)
  | expiredToken (token : Str)
  | tokenAlreadyUsed (token : Str)
  | approvalNotApplicable (taskId : Str) (state : TaskState)
  | approvalMismatch (taskId field : Str)
  | missingSignature (text : Str)
  | unauthorizedSender (sender : Option Str)
  | badSignature (text : Str)
  | rateLimited (text : Str)
  | emailAuth (text : Str)
  | gitError (text : Str)
  | protectedBranch (text : Str)
  | worktreeError (text : Str)
  | taskWorkerError (text : Str)
  | runtimeError (text : Str)
  | assertionError
  | valueError (text : Str)
  | keyError (key : Str)
  | otherException (className text : Str)
  | baseException (className text : Str)
deriving DecidableEq

namespace Exn

/-- What `except Exception` catches. -/
def isException : Exn → Bool
  | .baseException _ _ => false
  | _ => true

def isQueueError : Exn → Bool
  | .taskNotFound _ | .stateConflict _ _ _ => true
  | _ => false

def isApprovalError : Exn → Bool
  | .unknownToken _ | .expiredToken _ | .tokenAlreadyUsed _ | .approvalNotApplicable _ _
  | .approvalMismatch _ _ => true
  | _ => false

def isAuthError : Exn → Bool
  | .missingSignature _ | .unauthorizedSender _ | .badSignature _ | .rateLimited _
  | .emailAuth _ => true
  | _ => false

def isGitError : Exn → Bool
  | .gitError _ | .protectedBranch _ => true
  | _ => false

def isTaskWorkerError : Exn → Bool
  | .taskWorkerError _ => true
  | _ => false

/-- `type(exc).__name__`. -/
def className : Exn → Str
  | .taskNotFound _ => "TaskNotFoundError"
  | .stateConflict _ _ _ => "StateConflictError"
  | .unknownToken _ => "UnknownTokenError"
  | .expiredToken _ => "ExpiredTokenError"
  | .tokenAlreadyUsed _ => "TokenAlreadyUsedError"
  | .approvalNotApplicable _ _ => "ApprovalNotApplicableError"
  | .approvalMismatch _ _ => "ApprovalMismatchError"
  | .missingSignature _ => "MissingSignatureError"
  | .unauthorizedSender _ => "UnauthorizedSenderError"
  | .badSignature _ => "BadSignatureError"
  | .rateLimited _ => "RateLimitedError"
  | .emailAuth _ => "EmailAuthError"
  | .gitError _ => "GitError"
  | .protectedBranch _ => "ProtectedBranchError"
  | .worktreeError _ => "WorktreeError"
  | .taskWorkerError _ => "TaskWorkerError"
  | .runtimeError _ => "RuntimeError"
  | .assertionError => "AssertionError"
  | .valueError _ => "ValueError"
  | .keyError _ => "KeyError"
  | .otherException className _ => className
  | .baseException className _ => className

def str [Unicode] : Exn → Str
  | .taskNotFound taskId => "no task with id ".toList ++ reprText taskId
  | .stateConflict taskId expected actual =>
      "task ".toList ++ reprText taskId ++ " is ".toList ++ actual.value ++ ", expected ".toList ++
        expected.value
  | .unknownToken token | .expiredToken token | .tokenAlreadyUsed token => token
  | .approvalNotApplicable taskId state =>
      "task ".toList ++ reprText taskId ++ " is ".toList ++ state.value ++
        " and does not need a decision".toList
  | .approvalMismatch taskId field =>
      "approval for ".toList ++ reprText taskId ++ " does not match the ".toList ++ field
  | .unauthorizedSender sender => sender.getD "None"
  | .missingSignature text | .badSignature text | .rateLimited text | .emailAuth text
  | .gitError text | .protectedBranch text | .worktreeError text | .taskWorkerError text
  | .runtimeError text | .valueError text | .otherException _ text | .baseException _ text => text
  | .assertionError => ""
  | .keyError key => reprText key

end Exn

end DearAgent
