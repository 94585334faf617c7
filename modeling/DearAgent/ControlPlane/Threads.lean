import DearAgent.Transports.Adapters
import DearAgent.ControlPlane.Splits

/-!
# What a thread is

The control plane takes a message for a reply where it has a thread. Over IMAP
that is one that answers another message; a JMAP server and AgentMail put every
message into a thread.
-/

namespace DearAgent

open DearAgent.Lib.Text DearAgent.Lib.Effects DearAgent.Queue

set_option autoImplicit false

inductive Delivery
  | jmap (item : JmapItem)
  | imap (mail : Mail)
  | agentMail (message : AgentMessage)

namespace Delivery

variable [Unicode]

def toRaw [MailLibrary] : Delivery → RawMessage
  | .jmap item => item.toRecord.toRaw
  | .imap mail => mail.parseMessage
  | .agentMail message => message.toRaw

def fieldNames : Delivery → List Str
  | .jmap item => item.fields.map Prod.fst
  | .imap mail => mail.fields.map Prod.fst
  | .agentMail message => message.headers.map Prod.fst

/-- The mail carries neither `In-Reply-To` nor `References`. -/
def Fresh (delivery : Delivery) : Prop :=
  ∀ name ∈ delivery.fieldNames, Unicode.lower name ≠ Unicode.lower "In-Reply-To".toList ∧
    Unicode.lower name ≠ Unicode.lower "References".toList

omit [Unicode] in
/-- The two services tell a thread for every message. -/
def Threaded : Delivery → Prop
  | .jmap item => item.threadId.isSome = true
  | .imap _ => True
  | .agentMail message => message.threadId.isSome = true

omit [Unicode] in
def overImap : Delivery → Bool
  | .imap _ => true
  | _ => false

end Delivery

theorem mail_get_none [Unicode] {mail : Mail} {name : Str}
    (absent : ∀ field ∈ mail.fields.map Prod.fst, Unicode.lower field ≠ Unicode.lower name) :
    mail.get name = none := by
  unfold Mail.get
  rw [Option.map_eq_none_iff, List.find?_eq_none]
  intro field member
  have differs := absent field.1 (List.mem_map_of_mem member)
  simpa using differs

theorem fresh_thread [Unicode] [MailLibrary] {delivery : Delivery} (fresh : delivery.Fresh)
    (threaded : delivery.Threaded) :
    delivery.toRaw.threadId.isSome = !delivery.overImap := by
  cases delivery with
  | jmap item => exact threaded
  | agentMail message => exact threaded
  | imap mail =>
      have noReply : mail.get "In-Reply-To" = none :=
        mail_get_none fun field member => (fresh field member).1
      have noReferences : mail.get "References" = none :=
        mail_get_none fun field member => (fresh field member).2
      change mail.threadId.isSome = false
      unfold Mail.threadId
      rw [noReply, noReferences]
      rfl

namespace ControlPlane

section Handling

variable [Unicode] {Q : QueueBackend} {A : ApprovalBackend} {G : Type} {office : Office G}
  {plane : ControlPlane} {recipient : Option Str} {message : RawMessage} {desk : Desk Q A G}

def Undeciding : Request → Prop
  | .approvalOf _ => False
  | _ => True

theorem handle_eq_intake_iff :
    (∀ report, plane.handle recipient report message = plane.intake recipient report message) ↔
      decides plane message = false := by
  unfold decides
  constructor
  · intro same
    have undeciding : Asks Undeciding (plane.handle recipient {} message) := by
      rw [same {}]
      exact asks_intake (fun request taking => by cases request <;> trivial) plane _ _ _
    unfold handle at undeciding
    cases found : decisionOf message with
    | none => rfl
    | some decision =>
        cases served : plane.approvals with
        | false => rfl
        | true =>
            rw [found, served] at undeciding
            exact absurd undeciding.1 not_false
  · intro undecided report
    unfold handle
    cases found : decisionOf message with
    | none => rfl
    | some decision =>
        cases served : plane.approvals with
        | false => rfl
        | true =>
            rw [found, served] at undecided
            cases undecided

/-- The message goes on to the normalizer, and is stored where that makes a task
of it for an allowed repository. -/
structure GoesToNormalizer (office : Office G) (plane : ControlPlane) (recipient : Option Str)
    (message : RawMessage) (desk : Desk Q A G) : Prop where
  handled : ∀ report, plane.handle recipient report message = plane.intake recipient report message
  stored : verdict plane office message desk.gate = .ok () →
    (∃ result, taskFor plane office recipient message = .ok result) →
    ∀ trace outcome final,
      Exec office.surroundings (plane.ingest [message] recipient) desk trace outcome final →
      Known final.board message.transportId

theorem goes_to_normalizer_iff :
    GoesToNormalizer office plane recipient message desk ↔ decides plane message = false := by
  constructor
  · exact fun goes => handle_eq_intake_iff.mp goes.handled
  · intro undecided
    refine ⟨handle_eq_intake_iff.mpr undecided, ?_⟩
    intro admitted taken trace outcome final execution
    exact (ingest_known ⟨admitted, undecided, taken⟩).sound execution

/-- Mail that answers nothing is taken for a task, except where its body reads as a
decision and the service puts it into a thread. -/
theorem fresh_mail_goes_to_normalizer_iff [MailLibrary] {delivery : Delivery}
    (fresh : delivery.Fresh) (threaded : delivery.Threaded) (approvals : plane.approvals = true) :
    GoesToNormalizer office plane recipient delivery.toRaw desk ↔
      delivery.overImap = true ∨ parseReply delivery.toRaw.body = none := by
  have thread := fresh_thread fresh threaded
  rw [goes_to_normalizer_iff]
  unfold decides decisionOf
  rw [thread, approvals]
  cases imap : delivery.overImap with
  | true => simp
  | false =>
      cases found : parseReply delivery.toRaw.body with
      | none => simp
      | some decision => simp

end Handling

section Example

local instance threadTables : Unicode := asciiTables

/-- No address is parsed and nothing is digested here. -/
local instance threadLibrary : MailLibrary := ⟨fun address => ([], address), fun _ => []⟩

def decisiveMail : Delivery := .jmap {
  id := "e1"
  messageId := ["m1"]
  threadId := some "t1".toList
  textBody := ["1"]
  bodyValues := [("1", "repo: acme/widget\napprove abcdefghijklmnop and fix the build")] }

theorem decisive_mail_fresh : decisiveMail.Fresh := by
  intro name member
  cases member

theorem decisive_mail_goes_to_normalizer_iff :
    GoesToNormalizer (plainOffice jmapSend) { approvals := true } none decisiveMail.toRaw emptyDesk ↔
      decisiveMail.overImap = true ∨ parseReply decisiveMail.toRaw.body = none := by
  have same := @fresh_mail_goes_to_normalizer_iff _ _ _ _ (plainOffice jmapSend)
    { approvals := true } none emptyDesk _ decisiveMail decisive_mail_fresh rfl rfl
  exact same

/-- The mail names an allowed repository and has instructions, and is handled as a decision. -/
theorem fresh_mail_taken_for_decision :
    decisiveMail.Fresh ∧ decisiveMail.Threaded ∧
      (taskFor { approvals := true } (plainOffice jmapSend) none decisiveMail.toRaw).isOk = true ∧
      ¬GoesToNormalizer (plainOffice jmapSend) { approvals := true } none decisiveMail.toRaw
        emptyDesk := by
  refine ⟨decisive_mail_fresh, rfl, by decide, ?_⟩
  rw [goes_to_normalizer_iff]
  decide

end Example

end ControlPlane

end DearAgent
