import DearAgent.Lib.Dict
import DearAgent.Lib.Regex
import DearAgent.Transports

/-!
# The normalizer

`normalizer.py` and `refs.py`: how an inbound message becomes a task or is
turned down, and which names of a base branch are let through.
-/

namespace DearAgent

open DearAgent.Lib.Text DearAgent.Lib.Regex DearAgent.Lib.Dictionaries DearAgent.Queue

set_option autoImplicit false

def refForbidden : Str := " ~^:?*[\\"

def isValidRef (name : Str) : Bool :=
  if name.isEmpty || startswith name "-" || startswith name "/" || endswith name "/" then false
  else if endswith name "." || contains ".." name || contains "@\x7b" name then false
  else !name.any refForbidden.contains

theorem valid_ref_no_option {name : Str} (valid : isValidRef name = true) :
    startswith name "-" = false := by
  by_contra option
  rw [Bool.not_eq_false] at option
  unfold isValidRef at valid
  rw [option, Bool.or_true, Bool.true_or, Bool.true_or, if_pos rfl] at valid
  exact Bool.false_ne_true valid

inductive RejectReason
  | attachments | noRepo | empty | notAllowed
deriving DecidableEq

def RejectReason.value : RejectReason → Str
  | .attachments => "attachments"
  | .noRepo => "no_repo"
  | .empty => "empty"
  | .notAllowed => "not_allowed"

structure NormalizedTask where
  task : Task
  spec : TaskSpec
deriving DecidableEq

structure Rejected where
  transportId : Str
  reason : RejectReason
  detail : Str
deriving DecidableEq

def defaultBaseBranch : Str := "main"

section Patterns

/-- `METADATA_RE`, for a line without line breaks. -/
def metadataPattern : Pattern :=
  let blanks := Pattern.star (.sat isSpace)
  .seq .textStart <|
  .seq blanks <|
  .seq (.group 1 (.alt (literalIgnoreCase "repo".toList) <|
    .alt (literalIgnoreCase "base".toList) <| .alt (literalIgnoreCase "branch".toList) <|
    .alt (literalIgnoreCase "model".toList) <| .alt (literalIgnoreCase "verify".toList) <|
    literalIgnoreCase "depends-on".toList)) <|
  .seq blanks <|
  .seq (.sat fun c => c = ':') <|
  .seq blanks <|
  .seq (.group 2 (.seq (.sat fun c => !isSpace c) (.star (.sat fun c => c ≠ '\n')))) .textEnd

def nameChar : Char → Bool := alnumOr ['.', '_', '-']

/-- `REPO_URL_RE`. -/
def repoUrlPattern : Pattern :=
  .alt
    (.seq .textStart <|
      .seq (.alt (.seq (literal "http".toList) (.seq (opt (literal "s".toList))
        (literal "://".toList))) (literal "git@".toList)) <|
      .seq (plus (.sat fun c => !isSpace c)) .textEnd)
    (.seq .textStart <|
      .seq (plus (.sat nameChar)) <|
      .seq (.sat fun c => c = '/') <|
      .seq (plus (.sat nameChar)) .textEnd)

/-- `ROUTING_RE`, the owner in group 1 and the repository in group 2. -/
def routingPattern : Pattern :=
  .seq .textStart <|
  .seq (.group 1 (plus (.sat nameChar))) <|
  .seq (.sat fun c => c = '-') <|
  .seq (.group 2 (plus (.sat nameChar))) (.sat fun c => c = '@')

end Patterns

section Normalizing

variable [Unicode]

/-- One round of the loop of `_parse_body`. -/
def parseLine (parsed : Dict Str Str × List Str) (line : Str) : Dict Str Str × List Str :=
  match matchStart metadataPattern line with
  | some found =>
      (parsed.1.set (Unicode.lower ((found.group 1).getD [])) (strip ((found.group 2).getD [])),
        parsed.2)
  | none => (parsed.1, parsed.2 ++ [line])

def parseBody (body : Str) : Dict Str Str × Str :=
  let parsed := (splitlines body).foldl parseLine (Dict.empty, [])
  (parsed.1, join "\n" parsed.2)

def repoFromRecipient (recipient : Option Str) : Option Str :=
  if !truthy recipient then none
  else
    (matchStart routingPattern (recipient.getD [])).bind fun found =>
      let slug := (found.group 1).getD [] ++ '/' :: (found.group 2).getD []
      if (matchStart repoUrlPattern slug).isSome then some slug else none

/-- The names a `depends-on` field lists. -/
def dependsOnOf (field : Option Str) : List Str :=
  if !truthy field then []
  else ((splitAt (fun c => c = ',') (field.getD [])).map strip).filter fun part => !part.isEmpty

/-- The base branch of a task: a field that is no valid reference is ignored. -/
def baseBranchOf (field : Option Str) : Str :=
  let baseBranch := field.getD defaultBaseBranch
  if isValidRef baseBranch then baseBranch else defaultBaseBranch

def specOf (fields : Dict Str Str) (repoUrl instructions : Str) : TaskSpec where
  repoUrl := repoUrl
  baseBranch := baseBranchOf (fields.get "base".toList)
  instructions := strip instructions
  modelRequest := fields.get "model".toList
  verify := fields.get "verify".toList
  dependsOn := dependsOnOf (fields.get "depends-on".toList)

/-- The queue dates a task when it stores it, so the date it comes with is left open. -/
def taskOf (message : RawMessage) (spec : TaskSpec) : Task where
  id := message.transportId
  transportId := message.transportId
  threadId := message.threadId
  sender := message.sender
  subject := message.subject
  createdAt := 0
  spec := some spec

def normalize (message : RawMessage) (recipient : Option Str) : Except Rejected NormalizedTask :=
  if !message.attachments.isEmpty then
    .error ⟨message.transportId, .attachments,
      "code travels over Git only; resend without attachments or patches"⟩
  else
    let (fields, instructions) := parseBody message.body
    let repoUrl := orElse (fields.get "repo".toList) ((repoFromRecipient recipient).getD [])
    if repoUrl.isEmpty then
      .error ⟨message.transportId, .noRepo,
        "no repo found; add a 'repo: <url>' line or use an owner-repo@ routing address"⟩
    else if (strip instructions).isEmpty then
      .error ⟨message.transportId, .empty,
        "no instructions found; describe the task in the message body"⟩
    else
      let spec := specOf fields repoUrl instructions
      .ok ⟨taskOf message spec, spec⟩

/-- A message that is let through has no attachments, and its task carries what
the message says about itself. -/
theorem normalized_task {message : RawMessage} {recipient : Option Str} {result : NormalizedTask}
    (normalized : normalize message recipient = .ok result) :
    message.attachments = [] ∧ result.task = taskOf message result.spec := by
  unfold normalize at normalized
  by_cases attached : !message.attachments.isEmpty
  · rw [if_pos attached] at normalized
    cases normalized
  · rw [if_neg attached] at normalized
    refine ⟨by simpa using attached, ?_⟩
    simp only at normalized
    split_ifs at normalized
    cases normalized
    rfl

omit [Unicode] in
theorem base_branch_valid (field : Option Str) : isValidRef (baseBranchOf field) = true := by
  unfold baseBranchOf
  by_cases valid : isValidRef (field.getD defaultBaseBranch)
  · simp only [valid, if_true]
  · rw [if_neg valid]
    decide

theorem normalized_base_branch {message : RawMessage} {recipient : Option Str}
    {result : NormalizedTask} (normalized : normalize message recipient = .ok result) :
    isValidRef result.spec.baseBranch = true := by
  unfold normalize at normalized
  simp only at normalized
  split_ifs at normalized
  cases normalized
  exact base_branch_valid _

example : @normalize asciiTables
    { transportId := "m1", body := "Repo: https://github.com/o/w\nbase: -x\nfix it\n".toList } none =
      .ok (let spec : TaskSpec := { repoUrl := "https://github.com/o/w", instructions := "fix it" }
        ⟨{ id := "m1", transportId := "m1", createdAt := 0, spec := some spec }, spec⟩) := by
  decide

end Normalizing

end DearAgent
