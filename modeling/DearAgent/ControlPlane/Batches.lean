import DearAgent.Lib.Simulation
import DearAgent.ControlPlane.Office
import DearAgent.ControlPlane.Reports

/-!
# Batches of messages

What a batch leaves in the queue, message by message: a round of the loop takes
its message if it is acceptable, whatever the other messages are, and a round
that raises takes the rest of the batch with it.
-/

namespace DearAgent.ControlPlane

open DearAgent.Lib.Text DearAgent.Lib.Effects DearAgent.Queue

set_option autoImplicit false

section Rounds

variable {Q : QueueBackend} {A : ApprovalBackend} {G : Type} {office : Office G}
  {plane : ControlPlane} {recipient : Option Str} {desk after : Desk Q A G}

def Anything (_ : Desk Q A G) (_ : Request) : Prop := True

/-- The task under this id becomes known, and the gate is not asked. -/
structure Stores (own : Str) (desk after : Desk Q A G) : Prop where
  gate : after.gate = desk.gate
  known : ∀ id, Known after.board id ↔ Known desk.board id ∨ id = own

theorem Stores.undisturbed {own : Str} {middle : Desk Q A G} (stores : Stores own desk middle)
    (undisturbed : Undisturbed middle after) : Stores own desk after :=
  ⟨undisturbed.gate.trans stores.gate, fun id => (undisturbed.known id).trans (stores.known id)⟩

theorem tame_stores {α : Type} {program : Code α} {own : Str} {base : Desk Q A G}
    (asks : Asks Tame program) (stores : Stores own base desk) :
    Meets office.surroundings Anything program desk fun after _ => Stores own base after :=
  (tame_meets asks (.refl desk)).post fun _ _ undisturbed => stores.undisturbed undisturbed

theorem store_meets (report : IngestReport) (result : NormalizedTask)
    (reason : Option GateReason) {own : Str} (same : result.task.id = own)
    (sameTransport : result.task.transportId = own) :
    Meets office.surroundings Anything (plane.store recipient report result reason) desk
      fun after _ => Stores own desk after := by
  have enqueues : ∀ reply (after : Desk Q A G), office.surroundings
      (.queue (.enqueue result.task (if reason.isSome then .action else .queued))) desk reply after →
      Stores own desk after := by
    rintro reply after ⟨world, served, rfl⟩
    obtain ⟨⟨now, spec⟩, _⟩ := served_spec served
    exact ⟨rfl, fun id => enqueue_known same sameTransport spec⟩
  refine meets_call_bind trivial (fun taken after answered => ?_) fun error after answered =>
    enqueues _ after answered
  have stores := enqueues _ after answered
  cases taken with
  | none => exact stores
  | some stored =>
      refine tame_stores (asks_bind (asks_event answering_tame plane _ _ _) fun _ => ?_) stores
      cases reason with
      | none => trivial
      | some reason =>
          exact asks_bind (asks_request_approval answering_tame (fun _ _ => trivial) plane _ _ _)
            fun _ => trivial

theorem serves_anything (desk : Desk Q A G) (request : Request) :
    Serves office.surroundings desk request → Anything desk request := fun _ => trivial

theorem asked_looks {configured : Bool} {request : Request} {answer : request.Result → Bool}
    (judging : Judging request) :
    Looks office.surroundings (asked configured request answer) desk fun _ => True := by
  unfold asked
  split_ifs
  · have serves : Serves office.surroundings desk request := by
      cases request with
      | scan body | assess body | needsHuman body =>
          obtain ⟨verdict, judged⟩ := office.judged _
          exact ⟨.ok verdict, desk, ⟨verdict, judged, rfl⟩, rfl⟩
      | _ => exact absurd judging not_false
    have judged : ∀ (reply : Except Exn request.Result) (after : Desk Q A G),
        office.surroundings request desk reply after → after = desk ∧ ∃ value, reply = .ok value := by
      intro reply after answered
      cases request with
      | scan _ | assess _ | needsHuman _ =>
          obtain ⟨⟨verdict, _, rfl⟩, rfl⟩ := answered
          exact ⟨rfl, verdict, rfl⟩
      | _ => exact absurd judging not_false
    refine meets_call_bind serves (fun value after answered => ?_) fun error after answered => ?_
    · exact ⟨(judged _ after answered).1, _, rfl, trivial⟩
    · obtain ⟨_, value, returned⟩ := judged _ after answered
      cases returned
  · exact looks_ret trivial

theorem emit_looks (taskId kind : Str) (data : EventData) :
    Looks office.surroundings (emit plane.events taskId kind data) desk fun _ => True := by
  unfold emit
  split_ifs
  · have serves : Serves office.surroundings desk (.record taskId kind data) :=
      ⟨.ok (), desk, (by rintro _ ⟨⟩), rfl⟩
    exact (meets_effort serves fun _ _ answered => answered).post
      fun _ _ kept => ⟨kept.2, (), kept.1, trivial⟩
  · exact looks_ret trivial

theorem flag_looks (message : RawMessage) (report : IngestReport) :
    Looks office.surroundings (plane.flagSuspicious message report) desk fun flag =>
      ∀ id, id ≠ message.transportId →
        flag.2.suspicious.contains id = report.suspicious.contains id := by
  have scanning : Judging (.scan message.body) := trivial
  have assessing : Judging (.assess message.body) := trivial
  refine (asked_looks scanning).seq fun scanned _ => (asked_looks assessing).seq fun assessed _ => ?_
  split_ifs <;> refine looks_ret fun id other => ?_ <;> cases scanned <;> simp [other]

theorem parking_looks (result : NormalizedTask) (suspicious : Bool) :
    Looks office.surroundings (plane.parking result suspicious) desk fun _ => True := by
  have judging : Judging (.needsHuman (humanState result)) := trivial
  unfold parking gateReason
  split_ifs
  · exact looks_ret trivial
  · exact (asked_looks judging).seq fun human _ => looks_ret trivial
  · exact looks_ret trivial

theorem repo_allowed_looks (repo : Str) :
    Looks office.surroundings (plane.repoAllowed repo) desk fun permitted =>
      permitted = allows plane office repo := by
  unfold repoAllowed allows
  cases plane.policies with
  | false => exact looks_ret rfl
  | true =>
      refine meets_call_bind ⟨_, desk, rfl, rfl⟩ (fun policies after answered => ?_)
        fun error after answered => ?_
      · obtain ⟨listed, rfl⟩ := answered
        obtain rfl : policies = office.policies := Except.ok.inj listed
        cases office.policies.isEmpty with
        | true => exact looks_ret rfl
        | false =>
            refine meets_call_bind ⟨_, after, rfl, rfl⟩ (fun policy after answered => ?_)
              fun error after answered => ?_
            · obtain ⟨found, rfl⟩ := answered
              obtain rfl : policy = office.policyForRepo repo := Except.ok.inj found
              exact looks_ret rfl
            · cases answered.1
      · cases answered.1

theorem accept_meets (message : RawMessage) (report : IngestReport) (result : NormalizedTask)
    {own : Str} (same : result.task.id = own) (sameTransport : result.task.transportId = own) :
    Meets office.surroundings Anything (plane.accept message recipient report result) desk
      fun after _ => Stores own desk after := by
  rw [accept_eq]
  refine (flag_looks message report).meets_seq serves_anything fun flag _ => ?_
  exact (parking_looks result flag.1).meets_seq serves_anything fun reason _ =>
    store_meets flag.2 result reason same sameTransport

theorem authorize_meets (message : RawMessage) :
    Meets office.surroundings (Serves office.surroundings) (plane.authorize message) desk
      fun after outcome =>
        outcome = heard (verdict plane office message desk.gate) ∧
          after = { desk with gate := gateAfter plane office message desk.gate } := by
  unfold authorize verdict gateAfter
  cases plane.gate with
  | false => exact ⟨rfl, rfl⟩
  | true =>
      refine ⟨⟨_, _, rfl, rfl⟩, fun reply after answered => ?_⟩
      obtain ⟨said, rfl⟩ := answered
      simp only [if_true, ← said]
      cases reply with
      | ok value => exact ⟨rfl, rfl⟩
      | error error =>
          simp only [heard]
          split_ifs <;> exact ⟨rfl, rfl⟩

variable [Unicode]

/-- What a round leaves behind: the gate was asked, and the message is known if
it is acceptable. -/
structure Took (plane : ControlPlane) (office : Office G) (recipient : Option Str)
    (message : RawMessage) (desk after : Desk Q A G) : Prop where
  gate : after.gate = gateAfter plane office message desk.gate
  known : ∀ id, Known after.board id ↔ Known desk.board id ∨
    (Acceptable plane office recipient message desk.gate ∧ id = message.transportId)

section Cases

variable {may : Desk Q A G → Request → Prop} {post : Desk Q A G → Except Exn IngestReport → Prop}
  {report : IngestReport} {message : RawMessage}

theorem meets_intake (permitted : ∀ s request, Serves office.surroundings s request → may s request)
    (turned : ∀ rejected data, taskFor plane office recipient message = .error rejected →
      Meets office.surroundings may (plane.reject message recipient report rejected data) desk post)
    (taken : ∀ result, taskFor plane office recipient message = .ok result →
      result.task.id = message.transportId → result.task.transportId = message.transportId →
      Meets office.surroundings may (plane.accept message recipient report result) desk post) :
    Meets office.surroundings may (plane.intake recipient report message) desk post := by
  unfold intake
  split
  · rename_i rejected normalized
    refine turned rejected _ ?_
    unfold taskFor
    rw [normalized]
  · rename_i result normalized
    refine (repo_allowed_looks result.spec.repoUrl).meets_seq permitted fun permitted same => ?_
    obtain rfl := same
    have own : result.task = taskOf message result.spec := (normalized_task normalized).2
    split_ifs with allowed
    · refine taken result ?_ (by rw [own]; rfl) (by rw [own]; rfl)
      unfold taskFor
      rw [normalized]
      exact if_pos allowed
    · refine turned _ _ ?_
      unfold taskFor
      rw [normalized]
      exact if_neg allowed

theorem meets_handle
    (decided : ∀ decision, decides plane message = true →
      Meets office.surroundings may (plane.takeDecision recipient report message decision) desk post)
    (taken : decides plane message = false →
      Meets office.surroundings may (plane.intake recipient report message) desk post) :
    Meets office.surroundings may (plane.handle recipient report message) desk post := by
  unfold decides at decided taken
  unfold handle
  cases found : decisionOf message with
  | none => exact taken (by rw [found]; rfl)
  | some decision =>
      cases served : plane.approvals with
      | false => exact taken (by rw [served, Bool.and_false])
      | true => exact decided decision (by rw [found, served]; rfl)

theorem meets_message
    (permitted : ∀ s request, Serves office.surroundings s request → may s request)
    (raised : ∀ error, verdict plane office message desk.gate = .error error →
      error.isAuthError = false →
      post { desk with gate := gateAfter plane office message desk.gate } (.error error))
    (denied : ∀ error, verdict plane office message desk.gate = .error error →
      error.isAuthError = true → Meets office.surroundings may (plane.deny report message)
        { desk with gate := gateAfter plane office message desk.gate } post)
    (admitted : verdict plane office message desk.gate = .ok () →
      Meets office.surroundings may (plane.handle recipient report message)
        { desk with gate := gateAfter plane office message desk.gate } post) :
    Meets office.surroundings may (plane.ingestMessage recipient report message) desk post := by
  rw [ingest_message_eq]
  refine Meets.seq ((authorize_meets message).mono permitted fun _ _ asked => asked)
    (fun s answer asked => ?_) fun s error asked => ?_
  · obtain ⟨returned, rfl⟩ := asked
    cases said : verdict plane office message desk.gate with
    | error error =>
        rw [said] at returned
        simp only [heard] at returned
        split_ifs at returned with auth
        obtain rfl : answer = .error error := Except.ok.inj returned
        exact denied error said auth
    | ok _ =>
        rw [said] at returned
        obtain rfl : answer = .ok () := Except.ok.inj returned
        exact admitted said
  · obtain ⟨returned, rfl⟩ := asked
    cases said : verdict plane office message desk.gate with
    | error other =>
        rw [said] at returned
        simp only [heard] at returned
        split_ifs at returned with auth
        obtain rfl : error = other := Except.error.inj returned
        exact raised error said (Bool.eq_false_iff.mpr auth)
    | ok _ =>
        rw [said] at returned
        cases returned

end Cases

theorem intake_meets (report : IngestReport) (message : RawMessage) :
    Meets office.surroundings Anything (plane.intake recipient report message) desk
      fun after _ => after.gate = desk.gate ∧ ∀ id, Known after.board id ↔ Known desk.board id ∨
        ((∃ result, taskFor plane office recipient message = .ok result) ∧
          id = message.transportId) := by
  refine meets_intake serves_anything (fun rejected data turned => ?_)
    fun result taken same sameTransport => ?_
  · refine (tame_meets (asks_reject answering_tame plane _ _ _ _ _) (.refl desk)).post ?_
    intro after _ undisturbed
    refine ⟨undisturbed.gate, fun id => ?_⟩
    rw [undisturbed.known id, turned]
    simp
  · refine (accept_meets message report result same sameTransport).post fun after _ stores =>
      ⟨stores.gate, fun id => ?_⟩
    rw [stores.known id]
    exact or_congr_right ⟨fun equal => ⟨⟨result, taken⟩, equal⟩, fun both => both.2⟩

theorem message_meets (report : IngestReport) (message : RawMessage) :
    Meets office.surroundings Anything (plane.ingestMessage recipient report message) desk
      fun after _ => Took plane office recipient message desk after := by
  have untaken : ∀ (s : Desk Q A G), s.gate = gateAfter plane office message desk.gate →
      (∀ id, Known s.board id ↔ Known desk.board id) →
      ¬Acceptable plane office recipient message desk.gate →
      Took plane office recipient message desk s := fun s gate known refused =>
    ⟨gate, fun id => by rw [known id]; simp [refused]⟩
  have refused : ∀ error, verdict plane office message desk.gate = .error error →
      ¬Acceptable plane office recipient message desk.gate := fun error said acceptable => by
    cases said.symm.trans acceptable.1
  refine meets_message serves_anything (fun error said _ => ?_) (fun error said _ => ?_)
    fun said => meets_handle (fun decision deciding => ?_) fun undecided => ?_
  · exact untaken _ rfl (fun _ => Iff.rfl) (refused error said)
  · refine Meets.post (tame_meets ?_ (.refl _)) fun after _ undisturbed =>
      untaken after undisturbed.gate undisturbed.known (refused error said)
    exact asks_bind (asks_event answering_tame plane _ _ _) fun _ => trivial
  · refine Meets.post (tame_meets ?_ (.refl _)) fun after _ undisturbed =>
      untaken after undisturbed.gate undisturbed.known fun acceptable => ?_
    · refine asks_bind (asks_decision deciding_tame plane _ _ _) fun decided => ?_
      split_ifs <;> trivial
    · cases deciding.symm.trans acceptable.2.1
  · refine (intake_meets report message).post fun after _ taken => ⟨taken.1, fun id => ?_⟩
    refine (taken.2 id).trans (or_congr_right ?_)
    exact ⟨fun both => ⟨⟨said, undecided, both.1⟩, both.2⟩, fun both => ⟨both.1.2.2, both.2⟩⟩

end Rounds

/-!
## A whole batch
-/

section Batches

variable [Unicode] {Q : QueueBackend} {A : ApprovalBackend} {G : Type} (office : Office G)
  (plane : ControlPlane) (recipient : Option Str)

/-- One of the messages is acceptable where its turn comes, and has this id. -/
def TakenBy : G → List RawMessage → Str → Prop
  | _, [], _ => False
  | gate, message :: rest, id =>
      (Acceptable plane office recipient message gate ∧ id = message.transportId) ∨
        TakenBy (gateAfter plane office message gate) rest id

variable {office plane recipient}

theorem taken_by_iff {gate : G} {messages : List RawMessage} {id : Str} :
    TakenBy office plane recipient gate messages id ↔ ∃ front message rest,
      messages = front ++ message :: rest ∧
        Acceptable plane office recipient message (gateAfterAll plane office front gate) ∧
        id = message.transportId := by
  induction messages generalizing gate with
  | nil => exact ⟨False.elim, fun ⟨_, _, _, split, _⟩ => by simp at split⟩
  | cons first others ih =>
      constructor
      · rintro (⟨acceptable, same⟩ | later)
        · exact ⟨[], first, others, rfl, acceptable, same⟩
        · obtain ⟨front, message, rest, rfl, acceptable, same⟩ := ih.mp later
          exact ⟨first :: front, message, rest, rfl, acceptable, same⟩
      · rintro ⟨front, message, rest, split, acceptable, same⟩
        cases front with
        | nil =>
            obtain ⟨rfl, rfl⟩ := List.cons.inj split
            exact .inl ⟨acceptable, same⟩
        | cons head tail =>
            obtain ⟨rfl, rfl⟩ := List.cons.inj split
            exact .inr (ih.mpr ⟨tail, message, rest, rfl, acceptable, same⟩)

theorem taken_by_append {gate : G} {first second : List RawMessage} {id : Str} :
    TakenBy office plane recipient gate (first ++ second) id ↔
      TakenBy office plane recipient gate first id ∨
        TakenBy office plane recipient (gateAfterAll plane office first gate) second id := by
  induction first generalizing gate with
  | nil => exact ⟨.inr, fun either => either.resolve_left not_false⟩
  | cons message rest ih =>
      rw [List.cons_append, TakenBy, TakenBy, or_assoc]
      exact or_congr_right ih

variable {desk final : Desk Q A G} {messages : List RawMessage} {trace : List (Exchange ports)}

/-- A batch that comes through takes all of its acceptable messages and no other task. -/
theorem batch_meets (messages : List RawMessage) (report : IngestReport) (desk : Desk Q A G) :
    Meets office.surroundings Anything (plane.ingestAll recipient messages report) desk
      fun after outcome => ∀ ended, outcome = .ok ended →
        after.gate = gateAfterAll plane office messages desk.gate ∧
          ∀ id, Known after.board id ↔
            Known desk.board id ∨ TakenBy office plane recipient desk.gate messages id := by
  induction messages generalizing report desk with
  | nil => exact fun _ _ => ⟨rfl, fun id => by simp [TakenBy]⟩
  | cons message rest ih =>
      refine Meets.seq (message_meets report message) (fun s report took => ?_)
        fun _ _ _ _ => by rintro ⟨⟩
      refine (ih report s).post fun after outcome ended result returned => ?_
      obtain ⟨gate, known⟩ := ended result returned
      refine ⟨?_, fun id => ?_⟩
      · rw [gate, took.gate]
        rfl
      · rw [known id, took.known id, took.gate]
        exact or_assoc

/-- The round of this message raised and ended the batch. -/
def Raised (office : Office G) (plane : ControlPlane) (recipient : Option Str) (desk : Desk Q A G)
    (trace : List (Exchange ports)) (final : Desk Q A G) (front : List RawMessage)
    (message : RawMessage) : Prop :=
  ∃ (first second : List (Exchange ports)) (report : IngestReport) (middle : Desk Q A G)
    (error : Exn), trace = first ++ second ∧
    Exec office.surroundings (plane.ingestAll recipient front {}) desk first (.ok report) middle ∧
    Exec office.surroundings (plane.ingestMessage recipient report message) middle second
      (.error error) final

theorem batch_raised {report : IngestReport} {error : Exn}
    (execution : Exec office.surroundings (plane.ingestAll recipient messages report) desk trace
      (.error error) final) :
    ∃ (front rest : List RawMessage) (message : RawMessage) (first second : List (Exchange ports))
      (ended : IngestReport) (middle : Desk Q A G),
      messages = front ++ message :: rest ∧ trace = first ++ second ∧
      Exec office.surroundings (plane.ingestAll recipient front report) desk first (.ok ended)
        middle ∧
      Exec office.surroundings (plane.ingestMessage recipient ended message) middle second
        (.error error) final := by
  induction messages generalizing report desk trace with
  | nil => cases execution.2.1
  | cons message rest ih =>
      rcases exec_bind execution with ⟨other, raised, same⟩ | ⟨ended, middle, first, second,
          returned, later, rfl⟩
      · obtain rfl : error = other := Except.error.inj same
        exact ⟨[], rest, message, [], trace, report, desk, rfl, rfl, ⟨rfl, rfl, rfl⟩, raised⟩
      · obtain ⟨front, tail, raising, start, last, result, s, rfl, rfl, before, raised⟩ := ih later
        exact ⟨message :: front, tail, raising, first ++ start, last, result, s, rfl,
          (List.append_assoc ..).symm, exec_seq returned before, raised⟩

/-- After its round, whether it raised or not, a batch has taken what it could up to it. -/
theorem raised_known {front : List RawMessage} {message : RawMessage}
    (raised : Raised office plane recipient desk trace final front message) (id : Str) :
    Known final.board id ↔ Known desk.board id ∨
      TakenBy office plane recipient desk.gate (front ++ [message]) id := by
  obtain ⟨first, second, report, middle, error, _, before, last⟩ := raised
  obtain ⟨gate, known⟩ := (batch_meets front {} desk).sound before report rfl
  have took := (message_meets report message).sound last
  rw [took.known id, known id, gate, taken_by_append, or_assoc]
  exact or_congr_right (or_congr_right ⟨.inl, fun either => either.resolve_right not_false⟩)

/-- Every acceptable message of the batch is stored. -/
def Processed (office : Office G) (plane : ControlPlane) (recipient : Option Str)
    (messages : List RawMessage) (desk final : Desk Q A G) : Prop :=
  ∀ front message rest, messages = front ++ message :: rest →
    Acceptable plane office recipient message (gateAfterAll plane office front desk.gate) →
    Known final.board message.transportId

/-- Behind a message whose round raises, every acceptable message is in the queue
already or has the id of an acceptable message before it. -/
def NothingBehind (office : Office G) (plane : ControlPlane) (recipient : Option Str)
    (messages : List RawMessage) (desk : Desk Q A G) (trace : List (Exchange ports))
    (final : Desk Q A G) : Prop :=
  ∀ front message rest, messages = front ++ message :: rest →
    Raised office plane recipient desk trace final front message →
    ∀ between later tail, rest = between ++ later :: tail →
      Acceptable plane office recipient later
        (gateAfterAll plane office (front ++ message :: between) desk.gate) →
      Known desk.board later.transportId ∨
        TakenBy office plane recipient desk.gate (front ++ [message]) later.transportId

theorem batch_processed_iff {outcome : Except Exn IngestReport}
    (execution : Exec office.surroundings (plane.ingest messages recipient) desk trace outcome final) :
    Processed office plane recipient messages desk final ↔
      NothingBehind office plane recipient messages desk trace final := by
  constructor
  · intro processed front message rest split raised between later tail behind acceptable
    have stored := processed (front ++ message :: between) later tail
      (by rw [split, behind]; simp) acceptable
    exact (raised_known raised _).mp stored
  · intro nothing front message rest split acceptable
    rcases exec_bind execution with ⟨error, raised, rfl⟩ | ⟨report, middle, first, second, returned,
        acknowledged, rfl⟩
    · obtain ⟨front', rest', message', start, last, ended, s, split', shape, before, ending⟩ :=
        batch_raised raised
      have raises : Raised office plane recipient desk trace final front' message' :=
        ⟨start, last, ended, s, error, shape, before, ending⟩
      rcases split_compare (split.symm.trans split') with ⟨tail, earlier⟩ | ⟨between, behind, before⟩
      · refine (raised_known raises _).mpr (.inr ?_)
        rw [earlier]
        exact taken_by_iff.mpr ⟨front, message, tail, rfl, acceptable, rfl⟩
      · rw [before] at acceptable
        exact (raised_known raises _).mpr
          (nothing front' message' rest' split' raises between message rest behind acceptable)
    · have known := ((batch_meets messages {} desk).sound returned report rfl).2
      have asks : Asks Tame (plane.acknowledge messages >>= fun _ => .ret report) := by
        refine asks_bind ?_ fun _ => trivial
        unfold acknowledge
        split_ifs
        · exact asks_bind (asks_attempt trivial) fun _ => trivial
        · trivial
      have undisturbed := (tame_meets asks (.refl middle)).sound acknowledged
      rw [undisturbed.known, known]
      exact .inr (taken_by_iff.mpr ⟨front, message, rest, split, acceptable, rfl⟩)

end Batches

end DearAgent.ControlPlane
