import DearAgent.Queue.Models

/-!
# Messages

The records of `transports/base.py`. Headers are entries in their order; a
message keeps what the modelled code reads of it.
-/

namespace DearAgent

open DearAgent.Lib.Text

set_option autoImplicit false

structure Attachment where
  name : Str
  contentType : Str
  size : Nat := 0
deriving DecidableEq

abbrev Headers := List (Str × Str)

structure RawMessage where
  transportId : Str
  threadId : Option Str := none
  sender : Option Str := none
  subject : Option Str := none
  body : Str := ""
  attachments : List Attachment := []
  headers : Headers := []
deriving DecidableEq

structure OutboundMessage where
  threadId : Option Str
  subject : Str
  body : Str
  headers : Headers := []
deriving DecidableEq

end DearAgent
