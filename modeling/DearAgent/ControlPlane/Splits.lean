import DearAgent.System.Terminal
import DearAgent.ControlPlane.Batches

/-!
# Batches that are cut in two

A batch leaves the same stores, gate and mail as its first part and the rest
one after the other. The rest then starts with an empty report, and a round
looks into the report for its own message only: what is listed there before is
known to the queue, and a known message is stored again whether it is listed or
not.
-/

namespace DearAgent.ControlPlane

open DearAgent.Lib.Text DearAgent.Lib.Effects DearAgent.Queue

set_option autoImplicit false

/-- The reports list the same messages as suspicious, up to known ones. -/
def Alike (board : Board) (report report' : IngestReport) : Prop :=
  ∀ id, ¬Known board id → report.suspicious.contains id = report'.suspicious.contains id

section Alikeness

variable {board board' : Board} {report report' : IngestReport}

theorem Alike.refl (board : Board) (report : IngestReport) : Alike board report report :=
  fun _ _ => rfl

theorem Alike.symm (alike : Alike board report report') : Alike board report' report :=
  fun id unknown => (alike id unknown).symm

theorem Alike.trans {last : IngestReport} (first : Alike board report report')
    (second : Alike board report' last) : Alike board report last :=
  fun id unknown => (first id unknown).trans (second id unknown)

theorem Alike.grown (alike : Alike board report report')
    (grows : ∀ id, Known board id → Known board' id) : Alike board' report report' :=
  fun id unknown => alike id fun known => unknown (grows id known)

theorem Alike.add (alike : Alike board report report') (added : IngestReport) :
    Alike board (report.add added) (report'.add added) := by
  intro id unknown
  have before := alike id unknown
  simp only [List.contains_eq_mem] at before
  simp only [IngestReport.add, List.contains_eq_mem, List.mem_append]
  simp only [decide_eq_decide] at before ⊢
  rw [before]

end Alikeness

section Rounds

variable {Q : DedupingQueue} {A : ApprovalBackend} {G : Type} {office : Office G}
  {plane : ControlPlane} {recipient : Option Str} {desk : Desk Q.toQueueBackend A G}
  {message : RawMessage} {report report' : IngestReport} {result : NormalizedTask}

/-- Both programs leave the same desk, and reports that are alike there. -/
def InStep (office : Office G) (program program' : Code IngestReport)
    (desk : Desk Q.toQueueBackend A G) : Prop :=
  Simulates office.surroundings program desk program' desk
    (fun s report s' report' => s = s' ∧ Alike s.board report report') Eq

def Grows (office : Office G) (program : Code IngestReport) (desk : Desk Q.toQueueBackend A G) :
    Prop :=
  Meets office.surroundings Anything program desk fun after _ =>
    ∀ id, Known desk.board id → Known after.board id

theorem adds_in_step {reports : IngestReport → Prop} {round : IngestReport → Code IngestReport}
    (adds : Adds reports round) (among : reports report) (among' : reports report')
    (grows : Grows office (round report) desk) (alike : Alike desk.board report report') :
    InStep office (round report) (round report') desk := by
  obtain ⟨additions, same⟩ := adds
  have grown := grows
  unfold Grows at grown
  unfold InStep
  rw [same report among] at grown ⊢
  rw [same report' among']
  refine (simulates_self _ additions desk).bind fun s added s' added' both => ?_
  obtain ⟨rfl, rfl, trace, execution⟩ := both
  have kept := grown.sound ((exec_map report.add).mpr ⟨_, execution, rfl⟩)
  exact simulates_ret ⟨rfl, (alike.grown kept).add added⟩

theorem accept_looks (known : Known desk.board message.transportId)
    (same : result.task.id = message.transportId)
    (sameTransport : result.task.transportId = message.transportId) :
    Looks office.surroundings (plane.accept message recipient report result) desk fun ended =>
      ∀ id, id ≠ message.transportId →
        ended.suspicious.contains id = report.suspicious.contains id := by
  have taken : Taken desk.board result.task := (taken_iff_known same sameTransport).mpr known
  rw [accept_eq]
  refine (flag_looks message report).seq fun flag others => ?_
  refine (parking_looks result flag.1).seq fun reason _ => ?_
  have enqueued : ∀ reply (after : Desk Q.toQueueBackend A G), office.surroundings
      (.queue (.enqueue result.task (if reason.isSome then .action else .queued))) desk reply after →
      reply = .ok none ∧ after = desk := by
    rintro reply after ⟨world, ⟨now, rfl, rfl⟩, rfl⟩
    rcases Q.refines (.enqueue result.task _) now desk.world.queue with ⟨_, none, _⟩ | ⟨free, _⟩
    · refine ⟨none, ?_⟩
      rw [Q.leaves result.task _ now desk.world.queue taken]
    · exact absurd taken free
  refine meets_call_bind ⟨_, _, _, ⟨0, rfl, rfl⟩, rfl⟩ (fun stored after answered => ?_)
    fun error after answered => ?_
  · obtain ⟨none, rfl⟩ := enqueued _ after answered
    obtain rfl := Except.ok.inj none
    exact looks_ret others
  · cases (enqueued _ after answered).1

theorem accept_in_step (alike : Alike desk.board report report')
    (same : result.task.id = message.transportId)
    (sameTransport : result.task.transportId = message.transportId) :
    InStep office (plane.accept message recipient report result)
      (plane.accept message recipient report' result) desk := by
  by_cases known : Known desk.board message.transportId
  · refine (accept_looks known same sameTransport).simulates (accept_looks known same sameTransport)
      fun ended ended' others others' => ⟨rfl, fun id unknown => ?_⟩
    have other : id ≠ message.transportId := fun equal => unknown (equal ▸ known)
    rw [others id other, others' id other]
    exact alike id unknown
  · have adds := @accept_adds plane message (report.suspicious.contains message.transportId)
      recipient result
    refine adds_in_step adds rfl (alike _ known).symm ?_ alike
    exact (accept_meets message report result same sameTransport).post fun after _ stores id before =>
      (stores.known id).mpr (.inl before)

theorem tame_grows {program : Code IngestReport} (asks : Asks Tame program) :
    Grows office program desk :=
  (tame_meets asks (.refl desk)).post fun _ _ undisturbed id => (undisturbed.known id).mpr

theorem reject_in_step (rejected : Rejected) (data : EventData)
    (alike : Alike desk.board report report') :
    InStep office (plane.reject message recipient report rejected data)
      (plane.reject message recipient report' rejected data) desk := by
  have adds := @reject_adds plane message (fun _ => True) recipient rejected data
  exact adds_in_step adds trivial trivial (tame_grows (asks_reject answering_tame plane _ _ _ _ _)) alike

variable [Unicode]

theorem intake_in_step (message : RawMessage) (alike : Alike desk.board report report') :
    InStep office (plane.intake recipient report message) (plane.intake recipient report' message)
      desk := by
  unfold intake
  split
  · exact reject_in_step _ _ alike
  · rename_i result normalized
    have ids : result.task.id = message.transportId ∧
        result.task.transportId = message.transportId := by
      rw [(normalized_task normalized).2]
      exact ⟨rfl, rfl⟩
    refine (simulates_self _ (plane.repoAllowed result.spec.repoUrl) desk).bind ?_
    rintro s permitted _ _ ⟨rfl, rfl, trace, execution⟩
    obtain ⟨rfl, _⟩ := (repo_allowed_looks result.spec.repoUrl).sound execution
    split_ifs
    · exact accept_in_step alike ids.1 ids.2
    · exact reject_in_step _ _ alike

theorem handle_in_step (message : RawMessage) (alike : Alike desk.board report report') :
    InStep office (plane.handle recipient report message) (plane.handle recipient report' message)
      desk := by
  unfold handle
  split
  · rename_i decision deciding served
    have adds := @take_decision_adds plane message _ (fun _ => True) decision recipient
    refine adds_in_step adds trivial trivial (tame_grows ?_) alike
    refine asks_bind (asks_decision deciding_tame plane _ _ _) fun decided => ?_
    split_ifs <;> trivial
  · exact intake_in_step message alike

theorem message_in_step (message : RawMessage) (alike : Alike desk.board report report') :
    InStep office (plane.ingestMessage recipient report message)
      (plane.ingestMessage recipient report' message) desk := by
  rw [ingest_message_eq, ingest_message_eq]
  refine (simulates_self _ (plane.authorize message) desk).bind ?_
  rintro s admitted _ _ ⟨rfl, rfl, trace, execution⟩
  obtain ⟨_, rfl⟩ := (authorize_meets message).sound execution
  cases admitted with
  | error error =>
      have adds := @deny_adds plane message fun _ => True
      refine adds_in_step adds trivial trivial (tame_grows ?_) alike
      exact asks_bind (asks_event answering_tame plane _ _ _) fun _ => trivial
  | ok _ => exact handle_in_step message alike

theorem batch_in_step (messages : List RawMessage) (alike : Alike desk.board report report') :
    InStep office (plane.ingestAll recipient messages report)
      (plane.ingestAll recipient messages report') desk := by
  induction messages generalizing report report' desk with
  | nil => exact simulates_ret ⟨rfl, alike⟩
  | cons message rest ih =>
      refine (message_in_step message alike).bind ?_
      rintro s ended _ ended' ⟨rfl, later⟩
      exact ih later

end Rounds

/-!
## What a report lists is known
-/

section Listed

variable {Q : QueueBackend} {A : ApprovalBackend} {G : Type} {office : Office G}
  {plane : ControlPlane} {recipient : Option Str} {desk : Desk Q A G} {message : RawMessage}
  {report : IngestReport} {result : NormalizedTask}

theorem yields_reject (rejected : Rejected) (data : EventData) :
    Yields (fun ended => ended.suspicious = report.suspicious)
      (plane.reject message recipient report rejected data) :=
  yields_bind fun _ => yields_bind fun _ => rfl

theorem yields_store (reason : Option GateReason) :
    Yields (fun ended => ended.suspicious = report.suspicious)
      (plane.store recipient report result reason) := by
  refine yields_bind fun stored => ?_
  cases stored with
  | none => rfl
  | some stored =>
      refine yields_bind fun _ => ?_
      cases reason with
      | none => rfl
      | some reason => exact yields_bind fun _ => rfl

/-- The round lists nothing that the queue does not know. -/
def ListsKnown (office : Office G) (program : Code IngestReport) (desk : Desk Q A G) (report : IngestReport) : Prop :=
  Meets office.surroundings Anything program desk fun after outcome =>
    ∀ ended, outcome = .ok ended → Alike after.board ended report

theorem unlisted {program : Code IngestReport}
    (yields : Yields (fun ended => ended.suspicious = report.suspicious) program) :
    ListsKnown office program desk report :=
  (yields.meets (fun _ _ => trivial) desk).post fun _ _ kept ended returned id _ => by
    rw [kept ended returned]

theorem acknowledge_looks (messages : List RawMessage) :
    Looks office.surroundings (plane.acknowledge messages) desk fun _ => True := by
  unfold acknowledge
  split_ifs
  · have serves : Serves office.surroundings desk (.ack messages) :=
      ⟨.ok (), desk, (by rintro _ ⟨⟩), rfl⟩
    exact (meets_effort serves fun _ _ answered => answered).post
      fun _ _ kept => ⟨kept.2, (), kept.1, trivial⟩
  · exact looks_ret trivial

theorem accept_lists (same : result.task.id = message.transportId)
    (sameTransport : result.task.transportId = message.transportId) :
    ListsKnown office (plane.accept message recipient report result) desk report := by
  have listing : Meets office.surroundings Anything
      (plane.accept message recipient report result) desk fun _ outcome =>
        ∀ ended, outcome = .ok ended → ∀ id, id ≠ message.transportId →
          ended.suspicious.contains id = report.suspicious.contains id := by
    rw [accept_eq]
    refine (flag_looks message report).meets_seq serves_anything fun flag others => ?_
    refine (parking_looks result flag.1).meets_seq serves_anything fun reason _ => ?_
    refine ((yields_store reason).meets (fun _ _ => trivial) desk).post ?_
    intro _ _ kept ended returned id other
    rw [kept ended returned]
    exact others id other
  refine (listing.and (accept_meets message report result same sameTransport)).post ?_
  intro after outcome both ended returned id unknown
  have known := (both.2.known message.transportId).mpr (.inr rfl)
  exact both.1 ended returned id fun equal => unknown (equal ▸ known)

variable [Unicode]

theorem message_lists (message : RawMessage) :
    ListsKnown office (plane.ingestMessage recipient report message) desk report := by
  refine meets_message serves_anything (fun _ _ _ => by rintro _ ⟨⟩) (fun _ _ _ => ?_) fun _ =>
    meets_handle (fun decision _ => ?_) fun _ => meets_intake serves_anything (fun _ _ _ => ?_)
      fun result _ same sameTransport => ?_
  · exact unlisted (yields_bind fun _ => rfl)
  · refine unlisted (yields_bind fun decided => ?_)
    split_ifs <;> rfl
  · exact unlisted (yields_reject _ _)
  · exact accept_lists same sameTransport

theorem ingest_known (acceptable : Acceptable plane office recipient message desk.gate) :
    Meets office.surroundings Anything (plane.ingest [message] recipient) desk
      fun after _ => Known after.board message.transportId := by
  have round : Meets office.surroundings Anything (plane.ingestAll recipient [message] {}) desk
      fun after _ => Known after.board message.transportId :=
    Meets.seq (message_meets {} message)
      (fun _ _ took => (took.known _).mpr (.inr ⟨acceptable, rfl⟩))
      fun _ _ took => (took.known _).mpr (.inr ⟨acceptable, rfl⟩)
  apply round.seq
  · intro s report stored
    exact (acknowledge_looks [message]).meets_seq serves_anything fun _ _ => stored
  · exact fun _ _ stored => stored

theorem batch_lists (messages : List RawMessage) :
    ListsKnown office (plane.ingestAll recipient messages report) desk report := by
  induction messages generalizing report desk with
  | nil =>
      rintro _ ⟨⟩
      exact .refl _ _
  | cons message rest ih =>
      refine Meets.seq ((message_lists message).and (message_meets report message))
        (fun s middle both => ?_) fun _ _ _ => by rintro _ ⟨⟩
      refine (ih.and (batch_meets rest middle s)).post fun after outcome last ended returned => ?_
      have known := (last.2 ended returned).2
      exact (last.1 ended returned).trans
        ((both.1 middle rfl).grown fun id before => (known id).mpr (.inl before))

end Listed

/-!
## The whole batch and its parts
-/

section Whole

variable [Unicode] {Q : DedupingQueue} {A : ApprovalBackend} {G : Type} {office : Office G}
  {plane : ControlPlane} {recipient : Option Str} {desk : Desk Q.toQueueBackend A G}

theorem ingest_all_append (first second : List RawMessage) (report : IngestReport) :
    plane.ingestAll recipient (first ++ second) report =
      plane.ingestAll recipient first report >>= plane.ingestAll recipient second := by
  induction first generalizing report with
  | nil => rfl
  | cons message rest ih =>
      change (plane.ingestMessage recipient report message >>= _) =
        (plane.ingestMessage recipient report message >>= _) >>= _
      rw [bind_bind]
      exact congrArg (plane.ingestMessage recipient report message >>= ·) (funext fun report => ih report)

/-- The batch leaves what its two parts leave one after the other. -/
def Cut (office : Office G) (plane : ControlPlane) (recipient : Option Str)
    (desk : Desk Q.toQueueBackend A G) (first second : List RawMessage) : Prop :=
  ∀ outcome final,
    (∃ trace, Exec office.surroundings (dropValue (plane.ingest (first ++ second) recipient)) desk
      trace outcome final) ↔
    ∃ trace, Exec office.surroundings
      (dropValue (plane.ingest first recipient >>= fun _ => plane.ingest second recipient)) desk
      trace outcome final

theorem ingest_append (first second : List RawMessage) :
    plane.ingest (first ++ second) recipient =
      plane.ingestAll recipient first {} >>= fun report =>
        plane.ingestAll recipient second report >>= fun ended =>
          plane.acknowledge (first ++ second) >>= fun _ => .ret ended := by
  change plane.ingestAll recipient (first ++ second) {} >>= _ = _
  rw [ingest_all_append, bind_bind]

theorem ingest_twice (first second : List RawMessage) :
    (plane.ingest first recipient >>= fun _ => plane.ingest second recipient) =
      plane.ingestAll recipient first {} >>= fun _ =>
        plane.acknowledge first >>= fun _ =>
          plane.ingestAll recipient second {} >>= fun ended =>
            plane.acknowledge second >>= fun _ => .ret ended := by
  change (plane.ingestAll recipient first {} >>= _) >>= _ = _
  rw [bind_bind]
  refine congrArg (plane.ingestAll recipient first {} >>= ·) (funext fun report => ?_)
  change (plane.acknowledge first >>= _) >>= _ = _
  rw [bind_bind]
  rfl

theorem whole_simulates (first second : List RawMessage) :
    Simulates office.surroundings (plane.ingest (first ++ second) recipient) desk
      (plane.ingest first recipient >>= fun _ => plane.ingest second recipient) desk
      (fun s _ s' _ => s = s') Eq := by
  rw [ingest_append, ingest_twice]
  refine (simulates_self _ (plane.ingestAll recipient first {}) desk).bind ?_
  rintro s report _ _ ⟨rfl, rfl, trace, execution⟩
  have alike : Alike s.board report {} := (batch_lists first).sound execution report rfl
  refine (acknowledge_looks first).simulates_right fun _ _ => ?_
  refine (batch_in_step second alike).bind ?_
  rintro s ended _ ended' ⟨rfl, _⟩
  refine (acknowledge_looks (first ++ second)).simulates_left fun _ _ => ?_
  exact (acknowledge_looks second).simulates_right fun _ _ => simulates_ret rfl

theorem parts_simulate (first second : List RawMessage) :
    Simulates office.surroundings
      (plane.ingest first recipient >>= fun _ => plane.ingest second recipient) desk
      (plane.ingest (first ++ second) recipient) desk (fun s _ s' _ => s = s') Eq := by
  rw [ingest_append, ingest_twice]
  refine (simulates_self _ (plane.ingestAll recipient first {}) desk).bind ?_
  rintro s report _ _ ⟨rfl, rfl, trace, execution⟩
  have alike : Alike s.board report {} := (batch_lists first).sound execution report rfl
  refine (acknowledge_looks first).simulates_left fun _ _ => ?_
  refine (batch_in_step second alike.symm).bind ?_
  rintro s ended _ ended' ⟨rfl, _⟩
  refine (acknowledge_looks second).simulates_left fun _ _ => ?_
  exact (acknowledge_looks (first ++ second)).simulates_right fun _ _ => simulates_ret rfl

theorem batch_cut (first second : List RawMessage) :
    Cut office plane recipient desk first second := fun _ _ =>
  ⟨fun ⟨_, execution⟩ => (whole_simulates first second).leaves execution,
    fun ⟨_, execution⟩ => (parts_simulate first second).leaves execution⟩

/-- Every acceptable message of the batch is stored, and the batch can be cut anywhere. -/
structure Independent (office : Office G) (plane : ControlPlane) (recipient : Option Str)
    (messages : List RawMessage) (desk final : Desk Q.toQueueBackend A G) : Prop where
  processed : Processed office plane recipient messages desk final
  cut : ∀ first second, messages = first ++ second → Cut office plane recipient desk first second

theorem batch_independent_iff {messages : List RawMessage} {trace : List (Exchange ports)}
    {outcome : Except Exn IngestReport} {final : Desk Q.toQueueBackend A G}
    (execution : Exec office.surroundings (plane.ingest messages recipient) desk trace outcome final) :
    Independent office plane recipient messages desk final ↔
      NothingBehind office plane recipient messages desk trace final := by
  have processed := batch_processed_iff execution
  exact ⟨fun independent => processed.mp independent.processed,
    fun nothing => ⟨processed.mpr nothing, fun first second _ => batch_cut first second⟩⟩

end Whole

section Example

open DearAgent.Work

local instance batchTables : Unicode := asciiTables

/-- `JmapTransport.send`, for a server that takes what it is handed. -/
def jmapSend (message : OutboundMessage) : Except Exn Unit :=
  if message.threadId.isNone then
    .error (.valueError "outbound message needs a thread_id to reply into")
  else if !truthy (message.headers.lookup "to".toList) then
    .error (.valueError "outbound message needs a 'to' header")
  else .ok ()

def strayMessage : RawMessage where
  transportId := "m0"
  body := "Fix it"

def notifyingPlane : ControlPlane := { notifier := some {} }

def emptyDesk : Desk MemoryQueue.deduping.toQueueBackend (MemoryApprovalStore.backend 1) Unit where
  world := emptyWorld 1
  gate := ()

def strayBatch :=
  run (plainly jmapSend zeroReadings)
    (notifyingPlane.ingest [strayMessage, widgetMessage] (some "ops@example.com")) emptyDesk

theorem stray_batch_executes :
    Exec (plainOffice jmapSend).surroundings
      (notifyingPlane.ingest [strayMessage, widgetMessage] (some "ops@example.com")) emptyDesk
      strayBatch.1 strayBatch.2.1 strayBatch.2.2 :=
  plain_executes (by decide)

theorem stray_batch_independent_iff :
    Independent (plainOffice jmapSend) notifyingPlane (some "ops@example.com")
        [strayMessage, widgetMessage] emptyDesk strayBatch.2.2 ↔
      NothingBehind (plainOffice jmapSend) notifyingPlane (some "ops@example.com")
        [strayMessage, widgetMessage] emptyDesk strayBatch.1 strayBatch.2.2 := by
  have same := batch_independent_iff stray_batch_executes
  exact same

theorem widget_acceptable :
    Acceptable notifyingPlane (plainOffice jmapSend) (some "ops@example.com") widgetMessage () := by
  have taken : (taskFor notifyingPlane (plainOffice jmapSend) (some "ops@example.com")
      widgetMessage).isOk = true := by decide
  refine ⟨rfl, by decide, ?_⟩
  generalize taskFor notifyingPlane (plainOffice jmapSend) (some "ops@example.com") widgetMessage =
    outcome at taken
  cases outcome with
  | ok result => exact ⟨result, rfl⟩
  | error rejected => cases taken

/-- The reply to the stray message cannot be sent, and the good message is not stored. -/
theorem stray_message_stops_batch :
    ∃ (trace : List (Exchange ports)) (error : Exn)
      (final : Desk MemoryQueue.deduping.toQueueBackend (MemoryApprovalStore.backend 1) Unit),
      Exec (plainOffice jmapSend).surroundings
        (notifyingPlane.ingest [strayMessage, widgetMessage] (some "ops@example.com")) emptyDesk
        trace (.error error) final ∧
      ¬Processed (plainOffice jmapSend) notifyingPlane (some "ops@example.com")
        [strayMessage, widgetMessage] emptyDesk final := by
  have executes := stray_batch_executes
  have raises : strayBatch.2.1 =
      .error (.valueError "outbound message needs a thread_id to reply into") := by decide
  have nothing : strayBatch.2.2.world.queue.val.tasks.entries = [] := by decide
  rw [raises] at executes
  generalize strayBatch.2.2 = final at executes nothing
  refine ⟨_, _, final, executes, fun processed => ?_⟩
  obtain ⟨key, stored, found, _⟩ := processed [strayMessage] widgetMessage [] rfl widget_acceptable
  have looked : final.world.queue.val.tasks.get key = some stored := found
  unfold Lib.Dictionaries.Dict.get at looked
  rw [nothing] at looked
  cases looked

end Example

end DearAgent.ControlPlane
