import DearAgent.Quoting
import DearAgent.ControlPlane.Threads

/-!
# Answers to a request for approval over IMAP

The request is a mail of its own, with a `Message-ID` that is made for it and
kept nowhere. An answer is in the thread of that id, while the task stays in the
thread of the mail it came by.
-/

namespace DearAgent

open DearAgent.Lib.Text DearAgent.Queue

set_option autoImplicit false

/-!
## A body that is one decision
-/

def Decision.word : Decision → Str
  | .approved => "approve"
  | .rejected => "reject"

section Parsing

open DearAgent.Lib.Regex

variable [Unicode]

theorem run_seq_head {first second : Pattern} {c middle stop : Cursor} {others later : List Cursor}
    (begins : run first c = middle :: others) (ends : run second middle = stop :: later) :
    ∃ more, run (.seq first second) c = stop :: more := by
  refine ⟨later ++ others.flatMap (run second), ?_⟩
  rw [run, begins, List.flatMap_cons, ends]
  rfl

theorem keyword_runs (decision : Decision) (token : Str) :
    run (.alt (literalIgnoreCase "approve".toList)
        (.alt (literalIgnoreCase "reject".toList) (literalIgnoreCase "dear-agent".toList)))
        (atStart (decision.word ++ ' ' :: token)) =
      [⟨decision.word.reverse, ' ' :: token, []⟩] := by
  cases decision <;> rfl

/-- The text is empty or goes on in the next line. -/
def EndsLine (rest : Str) : Prop := ∀ c ∈ rest.head?, c = '\n' ∨ c = '\r'

def commandLine (decision : Decision) (token rest : Str) : Str :=
  decision.word ++ ' ' :: (token ++ rest)

theorem command_runs (decision : Decision) {token rest : Str} (hex : isTokenHex token)
    (ends : EndsLine rest) :
    ∃ more, run tokenPattern (atStart (commandLine decision token rest)) =
      ⟨token.reverse ++ ' ' :: decision.word.reverse, rest, [(1, token)]⟩ :: more := by
  have accepted := token_chars hex (fun c => tokenChar c = true) (every_char (by decide))
  have refused : ∀ c ∈ rest.head?, tokenChar c = false := by
    intro c member
    cases ends c member with
    | inl newline => rw [newline]; decide
    | inr return_ => rw [return_]; decide
  have nonword : startsWord rest = false := by
    cases rest with
    | nil => rfl
    | cons c rest =>
        cases ends c rfl with
        | inl newline => rw [newline]; exact ascii_not_word '\n' (by decide) (by decide) (by decide)
        | inr return_ => rw [return_]; exact ascii_not_word '\r' (by decide) (by decide) (by decide)
  have opens : run .wordBoundary (atStart (commandLine decision token rest)) =
      [atStart (commandLine decision token rest)] := by
    have letters : startsWord (commandLine decision token rest) = true := by
      cases decision
      · exact ascii_word 'a' (by decide) (by decide)
      · exact ascii_word 'r' (by decide) (by decide)
    rw [run, atStart, letters]
    rfl
  obtain ⟨digit, digits, shape⟩ : ∃ digit digits, token = digit :: digits := by
    cases token with
    | nil => cases hex.1
    | cons digit digits => exact ⟨digit, digits, rfl⟩
  have blank : run (plus (.sat isSpace)) ⟨decision.word.reverse, ' ' :: (token ++ rest), []⟩ =
      [⟨' ' :: decision.word.reverse, token ++ rest, []⟩] := by
    have closed : isSpace digit = false :=
      token_chars hex (fun c => isSpace c = false) (every_char (by decide)) digit
        (by rw [shape]; exact List.mem_cons_self)
    rw [plus, run, run_sat_accepted (by decide), List.flatMap_singleton, shape, run]
    simp only [List.cons_append, List.length_cons, iterate, run, closed]
    rfl
  have captured : ∃ others, run (.group 1 (atLeast 16 (.sat tokenChar)))
      ⟨' ' :: decision.word.reverse, token ++ rest, []⟩ =
        ⟨token.reverse ++ ' ' :: decision.word.reverse, rest, [(1, token)]⟩ :: others := by
    obtain ⟨shorter, taken⟩ := at_least_sat_head tokenChar 16 token rest
      (by rw [hex.1]; decide) accepted refused (' ' :: decision.word.reverse) []
    rw [run, taken, List.map_cons]
    exact ⟨_, congrArg (· :: _) (by simp [Cursor.upTo])⟩
  obtain ⟨others, captured⟩ := captured
  have closes : run .wordBoundary
      ⟨token.reverse ++ ' ' :: decision.word.reverse, rest, [(1, token)]⟩ =
        [⟨token.reverse ++ ' ' :: decision.word.reverse, rest, [(1, token)]⟩] := by
    have word : startsWord (token.reverse ++ ' ' :: decision.word.reverse) = true := by
      cases reversed : token.reverse with
      | nil => rw [List.reverse_eq_nil_iff.mp reversed] at shape; cases shape
      | cons c more =>
          apply token_chars_word hex
          rw [← List.mem_reverse, reversed]
          exact List.mem_cons_self
    rw [run, word, nonword]
    rfl
  obtain ⟨_, ending⟩ := run_seq_head captured closes
  obtain ⟨_, spaced⟩ := run_seq_head blank ending
  obtain ⟨_, worded⟩ := run_seq_head (keyword_runs decision (token ++ rest)) spaced
  exact run_seq_head opens worded

theorem parse_command (decision : Decision) {token rest : Str} (hex : isTokenHex token)
    (ends : EndsLine rest) :
    parseReply (commandLine decision token rest) = some ⟨token, decision⟩ := by
  obtain ⟨more, runs⟩ := command_runs decision hex ends
  have found : search tokenPattern (commandLine decision token rest) =
      some ⟨atStart (commandLine decision token rest),
        ⟨token.reverse ++ ' ' :: decision.word.reverse, rest, [(1, token)]⟩⟩ := by
    have here : matchAt tokenPattern (atStart (commandLine decision token rest)) =
        some ⟨atStart (commandLine decision token rest),
          ⟨token.reverse ++ ' ' :: decision.word.reverse, rest, [(1, token)]⟩⟩ := by
      unfold matchAt
      rw [runs]
      rfl
    unfold atStart at here
    unfold search
    cases text : commandLine decision token rest with
    | nil => cases decision <;> cases text
    | cons c tail =>
        rw [text] at here
        rw [searchFrom, here]
        rfl
  have first : (words (decision.word ++ ' ' :: token)).headD [] = decision.word := by
    rw [words_head, first_word_append _ _ _ (by decide)]
    · cases decision <;> decide
    · intro blank
      cases decision
      · exact absurd (blank 'a' (List.mem_cons_self ..)) (by decide)
      · exact absurd (blank 'r' (List.mem_cons_self ..)) (by decide)
  have lowered : Unicode.lower decision.word = decision.word := by
    cases decision
    · exact Unicode.lower_ascii _ (every_char (by decide))
    · exact Unicode.lower_ascii _ (every_char (by decide))
  have whole : ∀ stop : Cursor, stop.rest = rest →
      (⟨atStart (commandLine decision token rest), stop⟩ : Match).group 0 =
        some (decision.word ++ ' ' :: token) := by
    intro stop ended
    change some ((commandLine decision token rest).take
      ((commandLine decision token rest).length - stop.rest.length)) = _
    have split : commandLine decision token rest = (decision.word ++ ' ' :: token) ++ rest := by
      simp [commandLine]
    rw [ended, split, List.length_append, Nat.add_sub_cancel, List.take_left]
  unfold parseReply
  rw [found]
  unfold replyOfMatch
  rw [Option.map_some, whole _ rfl, Option.getD_some, first, lowered]
  cases decision <;> rfl

end Parsing

/-!
## What an answer comes to
-/

open DearAgent.Lib.Effects DearAgent.Work

namespace ControlPlane

section Answering

variable [Unicode] [MailLibrary] {Q : QueueBackend} {A : ApprovalStore} {G : Type}

/-- A task that came by this mail is parked, and a token for it is out. -/
structure AwaitsAnswer (desk : Desk Q A.toApprovalBackend G) (original : Mail) (task : Task)
    (approval : Approval) : Prop where
  ingested : ∃ recipient result, normalize original.parseMessage recipient = .ok result ∧
    task.sender = result.task.sender ∧ task.threadId = result.task.threadId
  stored : desk.board task.id = some task
  parked : task.state = .action
  issued : desk.ledger approval.token = some approval
  taskId : approval.taskId = task.id
  unused : approval.used = false
  hex : isTokenHex approval.token

theorem AwaitsAnswer.sender {desk : Desk Q A.toApprovalBackend G} {original : Mail} {task : Task}
    {approval : Approval} (awaits : AwaitsAnswer desk original task approval) :
    task.sender = original.parseMessage.sender := by
  obtain ⟨_, result, normalized, sender, _⟩ := awaits.ingested
  rw [sender, (normalized_task normalized).2]
  rfl

/-- The requester of the mail answers the request with this decision. -/
structure Answers (original request answer : Mail) (token : Str) (decision : Decision) : Prop where
  inReplyTo : answer.get "In-Reply-To" = request.get "Message-ID"
  sender : answer.parseMessage.sender = original.parseMessage.sender
  body : ∃ rest, EndsLine rest ∧ answer.parseMessage.body = commandLine decision token rest

def timely : Exchange ports → Bool
  | ⟨.redeem _, .error (.expiredToken _)⟩ => false
  | _ => true

/-- The decision is taken: the token is spent and the task moves on. -/
structure Applied (task : Task) (approval : Approval) (decision : Decision) (transportId : Str)
    (outcome : Except Exn IngestReport) (final : Desk Q A.toApprovalBackend G) : Prop where
  decided : outcome = .ok { decided := [transportId] }
  moved : ∃ moved, final.board task.id = some moved ∧
    moved.state = ApprovalService.target decision approval.action
  spent : ∃ used, final.ledger approval.token = some used ∧ used.used = true

/-- However the answer is ingested before the token expires, the decision is taken. -/
def Accepted (office : Office G) (plane : ControlPlane) (recipient : Option Str)
    (desk : Desk Q A.toApprovalBackend G) (task : Task) (approval : Approval) (answer : Mail)
    (decision : Decision) : Prop :=
  ∀ trace outcome final,
    Exec office.surroundings (plane.ingest [answer.parseMessage] recipient) desk trace outcome
      final →
    (∀ event ∈ trace, timely event = true) →
    Applied task approval decision answer.parseMessage.transportId outcome final

/-!
## The thread of an answer
-/

omit [MailLibrary] in
theorem find_past {wanted name value : Str} {fields : List (Str × Str)}
    (other : Unicode.lower name ≠ Unicode.lower wanted) :
    ((name, value) :: fields).find? (fun field => Unicode.lower field.1 = Unicode.lower wanted) =
      fields.find? (fun field => Unicode.lower field.1 = Unicode.lower wanted) := by
  apply List.find?_cons_of_neg
  rw [decide_eq_true_eq]
  exact other

omit [MailLibrary] in
theorem find_here {name value : Str} {fields : List (Str × Str)} :
    ((name, value) :: fields).find? (fun field => Unicode.lower field.1 = Unicode.lower name) =
      some (name, value) := by
  apply List.find?_cons_of_pos
  rw [decide_eq_true_eq]

omit [MailLibrary] in
theorem request_message_id {sender : Str} {messageId : MessageId} {message : OutboundMessage}
    {request : Mail} (sent : smtpSend sender messageId message = .ok request) :
    request.get "Message-ID" = some messageId.1 := by
  unfold smtpSend at sent
  split at sent
  · cases sent
  · split_ifs at sent
    obtain rfl := Except.ok.inj sent
    have other : ∀ name : Str, (∀ c ∈ name, c.val < 128) →
        name.map Char.toLower ≠ "Message-ID".toList.map Char.toLower →
        Unicode.lower name ≠ Unicode.lower "Message-ID".toList := by
      intro name ascii differs
      rw [Unicode.lower_ascii name ascii,
        Unicode.lower_ascii "Message-ID".toList (every_char (by decide))]
      exact differs
    unfold Mail.get
    simp only [List.cons_append]
    rw [find_past (other "From" (every_char (by decide)) (by decide)),
      find_past (other "To" (every_char (by decide)) (by decide)),
      find_past (other "Subject" (every_char (by decide)) (by decide)), find_here]
    rfl

theorem answer_thread {sender token : Str} {messageId : MessageId} {message : OutboundMessage}
    {original request answer : Mail} {decision : Decision}
    (sent : smtpSend sender messageId message = .ok request)
    (answers : Answers original request answer token decision) :
    answer.parseMessage.threadId = some messageId.1 := by
  have replied : answer.get "In-Reply-To" = some messageId.1 :=
    answers.inReplyTo.trans (request_message_id sent)
  obtain ⟨id, stripped, some⟩ := messageId
  change answer.threadId = _
  unfold Mail.threadId
  simp only [replied, Option.getD_some, stripped]
  have filled : id.isEmpty = false := by
    cases id with
    | nil => exact absurd rfl some
    | cons c rest => rfl
  rw [filled]
  rfl

/-!
## The decision on a parked task
-/

section Applying

omit [Unicode] [MailLibrary]

/-- The surroundings of an ingest before the token expires. -/
def punctual (office : Office G) : Env ports (Desk Q A.toApprovalBackend G) :=
  fun request desk reply after =>
    office.surroundings request desk reply after ∧ timely ⟨request, reply⟩ = true

variable {office : Office G} {desk after : Desk Q A.toApprovalBackend G}

theorem punctual_within (request : Request) (s : Desk Q A.toApprovalBackend G)
    (reply : Except Exn request.Result) (after : Desk Q A.toApprovalBackend G)
    (answered : punctual office request s reply after) :
    office.surroundings request s reply after := answered.1

/-- The stores of the desks are the same to all that look. -/
structure SameStores (desk after : Desk Q A.toApprovalBackend G) : Prop where
  board : after.board = desk.board
  ledger : after.ledger = desk.ledger

theorem looked_up {token : Str} {reply : Except Exn (Option Approval)}
    (answered : office.surroundings (.approvalOf token) desk reply after) :
    reply = .ok (desk.ledger token) ∧ SameStores desk after := by
  obtain ⟨world, ⟨readings, served⟩, rfl⟩ := answered
  obtain ⟨⟨replied, ledger⟩, board⟩ := approval_served served
  exact ⟨replied, board, ledger⟩

theorem got {id : Str} {reply : Except Exn (Option Task)}
    (answered : office.surroundings (.queue (.get id)) desk reply after) :
    reply = .ok (desk.board id) ∧ SameStores desk after := by
  obtain ⟨world, served, rfl⟩ := answered
  obtain ⟨⟨now, replied, board⟩, ledger⟩ := served_spec served
  exact ⟨replied, board, ledger⟩

theorem redeemed_in_time {reply : ApprovalReply} {approval : Approval}
    {answer : Except Exn Redeemed} (issued : desk.ledger reply.token = some approval)
    (unused : approval.used = false)
    (answered : punctual office (.redeem reply) desk answer after) :
    ∃ redeemed, answer = .ok redeemed ∧ redeemed.approval.action = approval.action ∧
      after.board = desk.board ∧
      ∃ used, after.ledger reply.token = some used ∧ used.used = true := by
  obtain ⟨⟨world, ⟨readings, served⟩, rfl⟩, inTime⟩ := answered
  obtain ⟨spec, board⟩ := approval_served served
  have filed : approval.token = reply.token := A.filed _ _ _ issued
  rcases spec with ⟨found, usedAt, located, _, _, replied, put⟩ | ⟨⟨error, raised, _⟩, _⟩
  · obtain rfl : approval = found := Option.some.inj (issued.symm.trans located)
    refine ⟨_, replied, rfl, board, { approval with usedAt := some usedAt }, ?_, rfl⟩
    change world.ledger reply.token = _
    rw [put]
    exact ledger_put_same _ _ filed.symm
  · have refused := served.1
    rw [raised] at refused
    have why := (A.refuses reply.token readings desk.world.approvals error).mp refused.symm
    have known : A.ledger desk.world.approvals reply.token = some approval := issued
    rw [known] at why
    change (if approval.used then _ else _) = _ at why
    rw [unused] at why
    simp only [Bool.false_eq_true, if_false] at why
    split_ifs at why
    obtain rfl := Option.some.inj why
    rw [raised] at inTime
    cases inTime

theorem moved_on {task : Task} {toState : TaskState} {reply : Except Exn Task}
    (stored : desk.board task.id = some task)
    (answered : office.surroundings (.queue (.transition task toState none)) desk reply after) :
    ∃ moved, reply = .ok moved ∧ after.board task.id = some moved ∧ moved.state = toState ∧
      after.ledger = desk.ledger := by
  obtain ⟨world, served, rfl⟩ := answered
  obtain ⟨⟨now, spec⟩, ledger⟩ := served_spec served
  obtain ⟨_, ⟨merged, _, rfl⟩, replied, board⟩ := transition_moves spec stored rfl
  refine ⟨_, replied, ?_, rfl, ledger⟩
  change world.board task.id = _
  rw [board]
  exact board_put_self desk.world.board _

end Applying

section Applying

omit [MailLibrary]

variable {office : Office G} {plane : ControlPlane} {recipient : Option Str}
  {desk : Desk Q A.toApprovalBackend G} {task : Task} {approval : Approval} {reply : ApprovalReply}
  {sender thread : Option Str}

/-- The approval and its parked task are where a reply finds them. -/
structure Found (desk : Desk Q A.toApprovalBackend G) (reply : ApprovalReply) (task : Task)
    (approval : Approval) : Prop where
  stored : desk.board task.id = some task
  parked : task.state = .action
  issued : desk.ledger reply.token = some approval
  taskId : approval.taskId = task.id

omit [Unicode] in
theorem Found.same {after : Desk Q A.toApprovalBackend G} (found : Found desk reply task approval)
    (same : SameStores desk after) : Found after reply task approval where
  stored := by rw [same.board]; exact found.stored
  parked := found.parked
  issued := by rw [same.ledger]; exact found.issued
  taskId := found.taskId

/-- Both checks of the sender and the thread are made on the task the token is for. -/
theorem meets_apply {env : Env ports (Desk Q A.toApprovalBackend G)}
    {may : Desk Q A.toApprovalBackend G → Request → Prop}
    {post : Desk Q A.toApprovalBackend G → Except Exn Task → Prop}
    (within : ∀ request s reply after, env request s reply after →
      office.surroundings request s reply after)
    (looking : ∀ s token, may s (.approvalOf token)) (getting : ∀ s id, may s (.queue (.get id)))
    (found : Found desk reply task approval)
    (checked : ∀ after : Desk Q A.toApprovalBackend G, SameStores desk after →
      Meets env may
        (if ApprovalService.senderDiffers sender task.sender then
          .raise (.approvalMismatch approval.taskId "sender")
        else if ApprovalService.threadDiffers thread task.threadId then
          .raise (.approvalMismatch approval.taskId "thread")
        else ApprovalService.decide reply task) after post) :
    Meets env may (ApprovalService.apply reply sender thread) desk post := by
  apply meets_call_bind (looking _ _)
  · intro given after answered
    obtain ⟨replied, same⟩ := looked_up (within _ _ _ _ answered)
    rw [found.issued] at replied
    obtain rfl := Except.ok.inj replied
    apply meets_call_bind (getting _ _)
    · intro given last answered
      obtain ⟨replied, again⟩ := got (within _ _ _ _ answered)
      rw [found.taskId, (found.same same).stored] at replied
      obtain rfl := Except.ok.inj replied
      have parked : ¬task.state ≠ .action := not_not.mpr found.parked
      simp only [parked, if_false]
      exact checked last ⟨again.board.trans same.board, again.ledger.trans same.ledger⟩
    · intro error last answered
      cases (got (within _ _ _ _ answered)).1
  · intro error after answered
    have replied := (looked_up (within _ _ _ _ answered)).1
    cases replied

/-- The token is spent and the task has moved on. -/
structure Decided (task : Task) (approval : Approval) (reply : ApprovalReply)
    (after : Desk Q A.toApprovalBackend G) : Prop where
  moved : ∃ moved, after.board task.id = some moved ∧
    moved.state = ApprovalService.target reply.decision approval.action
  spent : ∃ used, after.ledger reply.token = some used ∧ used.used = true

omit [Unicode] in
theorem decided_in_time (found : Found desk reply task approval) (unused : approval.used = false) :
    Meets (punctual office) Anything (ApprovalService.decide reply task) desk
      fun after outcome => (∃ moved, outcome = .ok moved) ∧ Decided task approval reply after := by
  apply meets_call_bind trivial
  · intro redeemed after answered
    obtain ⟨other, same, action, board, spent⟩ := redeemed_in_time found.issued unused answered
    obtain rfl := Except.ok.inj same
    have stored : after.board task.id = some task := by rw [board]; exact found.stored
    have ends : ∀ answer last, punctual office
        (.queue (.transition task
          (ApprovalService.target reply.decision redeemed.approval.action) none)) after answer last →
        (∃ moved, answer = .ok moved) ∧ Decided task approval reply last := by
      intro answer last answered
      obtain ⟨moved, replied, put, state, ledger⟩ := moved_on stored answered.1
      rw [action] at state
      exact ⟨⟨moved, replied⟩, ⟨moved, put, state⟩, by rw [ledger]; exact spent⟩
    apply meets_call trivial
    exact ends
  · intro error after answered
    obtain ⟨other, same, _⟩ := redeemed_in_time found.issued unused answered
    cases same

theorem meets_decision {env : Env ports (Desk Q A.toApprovalBackend G)}
    {may : Desk Q A.toApprovalBackend G → Request → Prop}
    {middle : Desk Q A.toApprovalBackend G → Except Exn Bool → Prop}
    {post : Desk Q A.toApprovalBackend G → Except Exn IngestReport → Prop}
    {message : RawMessage} {gated : Desk Q A.toApprovalBackend G}
    (decides : decisionOf message = some reply) (approvals : plane.approvals = true)
    (asked : Meets env may (plane.authorize message) desk fun after outcome =>
      outcome = .ok (.ok ()) ∧ after = gated)
    (applied : Meets env may (plane.applyDecision message reply recipient) gated middle)
    (returned : ∀ s decided, middle s (.ok decided) →
      Meets env may (plane.acknowledge [message]) s fun after outcome => outcome = .ok () ∧
        post after (.ok (if decided then { decided := [message.transportId] } else {})))
    (raised : ∀ s error, middle s (.error error) → post s (.error error)) :
    Meets env may (plane.ingest [message] recipient) desk post := by
  have handled : ∀ report, plane.handle recipient report message =
      plane.takeDecision recipient report message reply := by
    intro report
    unfold handle
    rw [decides, approvals]
  have round : Meets env may (plane.ingestMessage recipient {} message) desk fun after outcome =>
      (∃ decided, middle after (.ok decided) ∧
        outcome = .ok (if decided then { decided := [message.transportId] } else {})) ∨
      ∃ error, middle after (.error error) ∧ outcome = .error error := by
    rw [ingest_message_eq]
    apply asked.seq
    · intro s admitted both
      obtain ⟨same, rfl⟩ := both
      obtain rfl := Except.ok.inj same
      simp only [handled]
      apply applied.seq
      · intro s decided reached
        cases decided with
        | true => exact .inl ⟨true, reached, rfl⟩
        | false => exact .inl ⟨false, reached, rfl⟩
      · exact fun s error reached => .inr ⟨error, reached, rfl⟩
    · intro s error both
      cases both.1
  have loop : Meets env may (plane.ingestAll recipient [message] {}) desk fun after outcome =>
      (∃ decided, middle after (.ok decided) ∧
        outcome = .ok (if decided then { decided := [message.transportId] } else {})) ∨
      ∃ error, middle after (.error error) ∧ outcome = .error error :=
    round.seq (fun _ _ reached => reached) fun s error reached => by
      cases reached with
      | inl decided => obtain ⟨_, _, never⟩ := decided; cases never
      | inr stopped => exact .inr stopped
  apply loop.seq
  · intro s report reached
    rcases reached with ⟨decided, reached, same⟩ | ⟨_, _, never⟩
    · obtain rfl := Except.ok.inj same
      apply (returned s decided reached).seq
      · exact fun _ _ both => both.2
      · intro _ _ both
        cases both.1
    · cases never
  · intro s error reached
    rcases reached with ⟨_, _, never⟩ | ⟨other, reached, same⟩
    · cases never
    · obtain rfl := Except.error.inj same
      exact raised s error reached

end Applying

section Accepting

variable {office : Office G} {plane : ControlPlane} {recipient : Option Str}
  {desk : Desk Q A.toApprovalBackend G} {task : Task} {approval : Approval}
  {original request answer : Mail} {decision : Decision} {messageId : MessageId}

omit [MailLibrary] in
theorem same_sender {first second : Option Str} (same : first = second) :
    ApprovalService.senderDiffers first second = false := by
  rw [same]
  cases second with
  | none => rfl
  | some sender => exact decide_eq_false (not_not.mpr rfl)

omit [Unicode] [MailLibrary] in
theorem thread_agrees_iff {id : Str} {thread : Option Str} :
    ApprovalService.threadDiffers (some id) thread = false ↔ thread = none ∨ thread = some id := by
  cases thread with
  | none => simp [ApprovalService.threadDiffers]
  | some other =>
      change decide (id ≠ other) = false ↔ _
      rw [decide_eq_false_iff_not, not_not, Option.some_inj, eq_comm]
      simp only [reduceCtorEq, false_or]

theorem AwaitsAnswer.found (awaits : AwaitsAnswer desk original task approval) :
    Found desk ⟨approval.token, decision⟩ task approval where
  stored := awaits.stored
  parked := awaits.parked
  issued := awaits.issued
  taskId := awaits.taskId

theorem answer_decides (awaits : AwaitsAnswer desk original task approval)
    (answers : Answers original request answer approval.token decision)
    (thread : answer.parseMessage.threadId = some messageId.1) :
    decisionOf answer.parseMessage = some ⟨approval.token, decision⟩ := by
  obtain ⟨rest, ends, body⟩ := answers.body
  unfold decisionOf
  rw [thread, body]
  exact parse_command decision awaits.hex ends

def Unspending : Request → Prop
  | .redeem _ => False
  | _ => True

omit [Unicode] [MailLibrary] in
theorem authorize_admits {message : RawMessage}
    (admitted : verdict plane office message desk.gate = .ok ()) :
    Meets office.surroundings (Serves office.surroundings) (plane.authorize message) desk
      fun after outcome => outcome = .ok (.ok ()) ∧
        after = { desk with gate := gateAfter plane office message desk.gate } :=
  (authorize_meets message).post fun after outcome both => by
    rw [admitted] at both
    exact both

def gatedDesk (office : Office G) (plane : ControlPlane) (message : RawMessage)
    (desk : Desk Q A.toApprovalBackend G) : Desk Q A.toApprovalBackend G :=
  { desk with gate := gateAfter plane office message desk.gate }

theorem decision_applied (awaits : AwaitsAnswer desk original task approval)
    (answers : Answers original request answer approval.token decision)
    (thread : answer.parseMessage.threadId = some messageId.1)
    (agrees : task.threadId = none ∨ task.threadId = some messageId.1) :
    Meets (punctual office) Anything
      (plane.applyDecision answer.parseMessage ⟨approval.token, decision⟩ recipient)
      (gatedDesk office plane answer.parseMessage desk) fun after outcome =>
        outcome = .ok true ∧ Decided task approval ⟨approval.token, decision⟩ after := by
  have found : Found (gatedDesk office plane answer.parseMessage desk)
      ⟨approval.token, decision⟩ task approval := awaits.found.same ⟨rfl, rfl⟩
  have ends : Meets (punctual office) Anything (ApprovalService.apply ⟨approval.token, decision⟩
      answer.parseMessage.sender answer.parseMessage.threadId)
      (gatedDesk office plane answer.parseMessage desk) fun after outcome =>
        (∃ moved, outcome = .ok moved) ∧ Decided task approval ⟨approval.token, decision⟩ after := by
    apply meets_apply punctual_within (fun _ _ => trivial) (fun _ _ => trivial) found
    intro after same
    rw [same_sender (answers.sender.trans awaits.sender.symm), thread,
      thread_agrees_iff.mpr agrees]
    exact decided_in_time (found.same same) awaits.unused
  unfold applyDecision exceptWhere
  rw [meets_catch]
  apply ends.seq
  · exact fun _ _ both => ⟨rfl, both.2⟩
  · intro _ _ both
    obtain ⟨⟨_, never⟩, _⟩ := both
    cases never

theorem mismatch_told (responsive : ∀ message, ∃ reply, office.delivers message reply)
    (awaits : AwaitsAnswer desk original task approval)
    (answers : Answers original request answer approval.token decision)
    (thread : answer.parseMessage.threadId = some messageId.1)
    (differs : ApprovalService.threadDiffers (some messageId.1) task.threadId = true) :
    Meets office.surroundings
      (fun s request => Serves office.surroundings s request ∧ Unspending request)
      (plane.applyDecision answer.parseMessage ⟨approval.token, decision⟩ recipient)
      (gatedDesk office plane answer.parseMessage desk) fun after _ => after.board = desk.board := by
  have found : Found (gatedDesk office plane answer.parseMessage desk)
      ⟨approval.token, decision⟩ task approval := awaits.found.same ⟨rfl, rfl⟩
  have ends : Meets office.surroundings
      (fun s request => Serves office.surroundings s request ∧ Unspending request)
      (ApprovalService.apply ⟨approval.token, decision⟩ answer.parseMessage.sender
        answer.parseMessage.threadId)
      (gatedDesk office plane answer.parseMessage desk) fun after outcome =>
        outcome = .error (.approvalMismatch approval.taskId "thread") ∧
          after.board = desk.board := by
    apply meets_apply (fun _ _ _ _ answered => answered) _ _ found
    · intro after same
      rw [same_sender (answers.sender.trans awaits.sender.symm), thread, differs]
      exact ⟨rfl, same.board⟩
    · exact fun _ _ => ⟨⟨_, _, _, ⟨zeroReadings, rfl, rfl⟩, rfl⟩, trivial⟩
    · exact fun _ _ => ⟨⟨_, _, _, ⟨0, rfl, rfl⟩, rfl⟩, trivial⟩
  unfold applyDecision exceptWhere
  rw [meets_catch]
  apply ends.seq
  · intro _ _ both
    cases both.1
  · intro s error both
    obtain ⟨same, board⟩ := both
    obtain rfl := Except.error.inj same
    have told : Meets office.surroundings
        (fun s request => Serves office.surroundings s request ∧ Unspending request)
        (plane.replyRejectionMessage answer.parseMessage
          (Exn.approvalMismatch approval.taskId "thread").str recipient) s
        fun after _ => after.board = desk.board := by
      unfold replyRejectionMessage
      split
      · apply meets_call
        · obtain ⟨reply, delivers⟩ := responsive _
          exact ⟨⟨reply, _, delivers, rfl⟩, trivial⟩
        · intro reply after answered
          rw [answered.2]
          split_ifs <;> exact board
      · exact board
    exact told.seq (fun _ _ board => board) fun _ _ board => board

section Ingesting

variable (approvals : plane.approvals = true)
  (awaits : AwaitsAnswer desk original task approval)
  (answers : Answers original request answer approval.token decision)
  (admitted : verdict plane office answer.parseMessage desk.gate = .ok ())
  (thread : answer.parseMessage.threadId = some messageId.1)

include approvals awaits answers admitted thread

theorem accepted_in_thread (agrees : task.threadId = none ∨ task.threadId = some messageId.1) :
    Accepted office plane recipient desk task approval answer decision := by
  have ingested : Meets (punctual office) Anything (plane.ingest [answer.parseMessage] recipient)
      desk fun after outcome =>
        Applied task approval decision answer.parseMessage.transportId outcome after := by
    apply meets_decision (answer_decides awaits answers thread) approvals
      (((authorize_admits admitted).narrow punctual_within).mono (fun _ _ _ => trivial)
        fun _ _ both => both)
      (decision_applied awaits answers thread agrees)
    · intro s decided reached
      obtain rfl := Except.ok.inj reached.1
      refine ((acknowledge_looks [answer.parseMessage]).narrow punctual_within).mono
        (fun _ _ _ => trivial) fun after outcome looked => ?_
      obtain ⟨rfl, _, rfl, _⟩ := looked
      exact ⟨rfl, rfl, reached.2.moved, reached.2.spent⟩
    · intro s error reached
      cases reached.1
  intro trace outcome final execution inTime
  apply ingested.sound
  apply exec_where execution inTime
  exact fun _ _ _ _ timely answered => ⟨answered, timely⟩

theorem refused_out_of_thread (responsive : ∀ message, ∃ reply, office.delivers message reply)
    (differs : ApprovalService.threadDiffers (some messageId.1) task.threadId = true) :
    ¬Accepted office plane recipient desk task approval answer decision := by
  have ingested : Meets office.surroundings
      (fun s request => Serves office.surroundings s request ∧ Unspending request)
      (plane.ingest [answer.parseMessage] recipient) desk fun after _ =>
        after.board = desk.board := by
    apply meets_decision (answer_decides awaits answers thread) approvals
      ((authorize_admits admitted).among (asks_authorize (fun _ _ _ => trivial) _ _))
      (mismatch_told responsive awaits answers thread differs)
    · intro s decided board
      have asks : Asks Unspending (plane.acknowledge [answer.parseMessage]) := by
        unfold acknowledge
        split_ifs
        · exact asks_bind (asks_attempt trivial) fun _ => trivial
        · trivial
      refine (Meets.among (acknowledge_looks [answer.parseMessage]) asks).post ?_
      intro after outcome looked
      obtain ⟨rfl, _, rfl, _⟩ := looked
      exact ⟨rfl, board⟩
    · exact fun _ _ board => board
  obtain ⟨trace, outcome, final, execution, board⟩ :=
    (ingested.mono (fun _ _ both => both.1) fun _ _ board => board).can_end
  have inTime : ∀ event ∈ trace, timely event = true := by
    intro event member
    obtain ⟨_, _, unspending⟩ := ingested.requested execution event member
    obtain ⟨asked, reply⟩ := event
    cases asked <;> first | rfl | exact absurd unspending not_false
  intro accepted
  obtain ⟨moved, stored, state⟩ := (accepted trace outcome final execution inTime).moved
  rw [board, awaits.stored] at stored
  obtain rfl := Option.some.inj stored
  rw [awaits.parked] at state
  unfold ApprovalService.target at state
  split_ifs at state

end Ingesting

/-- The answer of the requester is taken where the task has no thread of its own. -/
theorem answer_accepted_iff {sender requester summary : Str} {links : Option Notifier.TaskLinks}
    (responsive : ∀ message, ∃ reply, office.delivers message reply)
    (approvals : plane.approvals = true) (awaits : AwaitsAnswer desk original task approval)
    (sent : smtpSend sender messageId
      (Notifier.requestMessage task requester summary links approval.token) = .ok request)
    (answers : Answers original request answer approval.token decision)
    (admitted : verdict plane office answer.parseMessage desk.gate = .ok ()) :
    Accepted office plane recipient desk task approval answer decision ↔
      task.threadId = none ∨ task.threadId = some messageId.1 := by
  have thread := answer_thread sent answers
  constructor
  · intro accepted
    by_contra disagrees
    rw [← thread_agrees_iff, Bool.not_eq_false] at disagrees
    exact refused_out_of_thread approvals awaits answers admitted thread responsive disagrees accepted
  · exact accepted_in_thread approvals awaits answers admitted thread

end Accepting

end Answering

section Example

local instance answerTables : Unicode := asciiTables

local instance answerLibrary : MailLibrary := ⟨fun address => ([], address), fun _ => []⟩

def relayed (_ : OutboundMessage) : Except Exn Unit := .ok ()

def taskMail (replyTo : List (Str × Str)) : Mail where
  fields := ("From", "dev@example.com") :: ("Message-ID", "<m1@example.com>") :: replyTo
  parts := []
  content := .text "repo: acme/widget\nfix the build"

def mailedTask (replyTo : List (Str × Str)) : Task where
  id := "<m1@example.com>"
  transportId := "<m1@example.com>"
  threadId := (taskMail replyTo).threadId
  sender := some "dev@example.com".toList
  state := .action
  createdAt := 0

def mailedApproval : Approval where
  token := zeroReadings.token.1
  taskId := "<m1@example.com>"
  action := "run"
  createdAt := 0
  expiresAt := 1

def mailedDesk (replyTo : List (Str × Str)) :
    Desk MemoryQueue.deduping.toQueueBackend (MemoryApprovalStore.store 1).toApprovalBackend Unit where
  world := {
    queue := (MemoryQueue.deduping.step (.enqueue (mailedTask replyTo) .action) 0
      emptyDesk.world.queue).2
    approvals := ((MemoryApprovalStore.store 1).step (.issue "<m1@example.com>" "run") zeroReadings
      emptyDesk.world.approvals).2 }
  gate := ()

def requestId : MessageId := ⟨"<a1@example.com>", by decide, by decide⟩

def mailedRequest (replyTo : List (Str × Str)) : Mail :=
  match smtpSend "agent@example.com" requestId
    (Notifier.requestMessage (mailedTask replyTo) "dev@example.com" "" none mailedApproval.token) with
  | .ok request => request
  | .error _ => taskMail replyTo

def approvingMail : Mail where
  fields := [("From", "dev@example.com"), ("Message-ID", "<m2@example.com>"),
    ("In-Reply-To", "<a1@example.com>")]
  parts := []
  content := .text (commandLine .approved mailedApproval.token "\n")

theorem mailed_awaits (replyTo : List (Str × Str))
    (normalized : (normalize (taskMail replyTo).parseMessage none).isOk = true) :
    AwaitsAnswer (mailedDesk replyTo) (taskMail replyTo) (mailedTask replyTo) mailedApproval where
  ingested := by
    cases found : normalize (taskMail replyTo).parseMessage none with
    | error rejected => rw [found] at normalized; cases normalized
    | ok result =>
        refine ⟨none, result, found, ?_, ?_⟩
        · rw [(normalized_task found).2]
          rfl
        · rw [(normalized_task found).2]
          rfl
  stored := rfl
  parked := rfl
  issued := rfl
  taskId := rfl
  unused := rfl
  hex := zeroReadings.token.2

theorem mailed_request_sent (replyTo : List (Str × Str)) :
    smtpSend "agent@example.com" requestId
      (Notifier.requestMessage (mailedTask replyTo) "dev@example.com" "" none mailedApproval.token) =
        .ok (mailedRequest replyTo) := by
  unfold mailedRequest
  cases sent : smtpSend "agent@example.com" requestId
      (Notifier.requestMessage (mailedTask replyTo) "dev@example.com" "" none
        mailedApproval.token) with
  | ok request => rfl
  | error error => cases sent

theorem approving_mail_answers (replyTo : List (Str × Str)) :
    Answers (taskMail replyTo) (mailedRequest replyTo) approvingMail mailedApproval.token
      .approved := by
  have replied : approvingMail.get "In-Reply-To" = some requestId.1 := by decide
  have written : approvingMail.parseMessage.body =
      commandLine .approved mailedApproval.token "\n" := by decide
  have asker : approvingMail.parseMessage.sender = some "dev@example.com".toList := by
    decide
  have line : EndsLine "\n" := by
    intro c member
    cases member
    exact .inl rfl
  have requested := request_message_id (mailed_request_sent replyTo)
  exact ⟨replied.trans requested.symm, asker, _, line, written⟩

theorem fresh_mail_answer_accepted_iff :
    Accepted (plainOffice relayed) { approvals := true } none (mailedDesk []) (mailedTask [])
        mailedApproval approvingMail .approved ↔
      (mailedTask []).threadId = none ∨ (mailedTask []).threadId = some requestId.1 := by
  have same := @answer_accepted_iff _ _ _ _ _ (plainOffice relayed) { approvals := true } none
    (mailedDesk []) _ _ (taskMail []) _ _ _ _ _ _ _ _ (fun message => ⟨_, rfl⟩) rfl
    (mailed_awaits [] (by decide)) (mailed_request_sent []) (approving_mail_answers []) rfl
  exact same

def conversation : List (Str × Str) := [("In-Reply-To", "<m0@example.com>")]

/-- A task that was sent as a reply cannot be approved by a reply. -/
theorem conversation_answer_refused :
    AwaitsAnswer (mailedDesk conversation) (taskMail conversation) (mailedTask conversation)
        mailedApproval ∧
      smtpSend "agent@example.com" requestId (Notifier.requestMessage (mailedTask conversation)
        "dev@example.com" "" none mailedApproval.token) = .ok (mailedRequest conversation) ∧
      Answers (taskMail conversation) (mailedRequest conversation) approvingMail
        mailedApproval.token .approved ∧
      ¬Accepted (plainOffice relayed) { approvals := true } none (mailedDesk conversation)
        (mailedTask conversation) mailedApproval approvingMail .approved := by
  have awaits := mailed_awaits conversation (by decide)
  have answers := approving_mail_answers conversation
  have thread := answer_thread (mailed_request_sent conversation) answers
  refine ⟨awaits, mailed_request_sent conversation, answers, ?_⟩
  exact refused_out_of_thread rfl awaits answers rfl thread (fun message => ⟨_, rfl⟩)
    (by decide)

end Example

end ControlPlane

end DearAgent
