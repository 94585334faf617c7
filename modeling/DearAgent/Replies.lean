import DearAgent.Lib.Regex
import DearAgent.Approvals

/-!
# Approval replies

`TOKEN_PATTERN` and `parse_reply` of `approvals_service.py`.
-/

namespace DearAgent

open DearAgent.Lib.Text DearAgent.Lib.Regex

set_option autoImplicit false

inductive Decision
  | approved | rejected
deriving DecidableEq

structure ApprovalReply where
  token : Str
  decision : Decision
deriving DecidableEq

/-- `[A-Za-z0-9_\-]` under `re.IGNORECASE`, which adds the four letters outside
ASCII that fold to an ASCII letter. -/
def tokenChar (c : Char) : Bool :=
  alnumOr ['_', '-'] c || c.val = 0x130 || c.val = 0x131 || c.val = 0x17f || c.val = 0x212a

def tokenPattern : Pattern :=
  .seq .wordBoundary <|
  .seq (.alt (literalIgnoreCase "approve".toList)
    (.alt (literalIgnoreCase "reject".toList) (literalIgnoreCase "dear-agent".toList))) <|
  .seq (plus (.sat isSpace)) <|
  .seq (.group 1 (atLeast 16 (.sat tokenChar)))
  .wordBoundary

variable [Unicode]

/-- The reply a match of `TOKEN_PATTERN` stands for. -/
def replyOfMatch (found : Match) : ApprovalReply :=
  let word := Unicode.lower ((words ((found.group 0).getD [])).headD [])
  { token := (found.group 1).getD []
    decision := if word = "approve".toList then .approved else .rejected }

def parseReply (text : Str) : Option ApprovalReply :=
  (search tokenPattern text).map replyOfMatch

def commands (text : Str) : List ApprovalReply := (finditer tokenPattern text).map replyOfMatch

end DearAgent
