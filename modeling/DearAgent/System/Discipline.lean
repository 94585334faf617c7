import DearAgent.System
import DearAgent.World

/-!
# Every operation keeps to what it may do

One lemma for each program, and from them the discipline of the system in any
surroundings with stores that work or fail.
-/

namespace DearAgent

open DearAgent.Lib.Text DearAgent.Lib.Effects DearAgent.Lib.Interleaving DearAgent.Queue

set_option autoImplicit false

theorem surroundings_honest {Q : QueueBackend} {A : ApprovalBackend} {request : Request}
    {world after : World Q A} {reply : ports.Reply request}
    (answered : surroundings Q A request world reply after) : Honest ⟨request, reply⟩ := by
  rcases answered with served | ⟨_, ⟨error, rfl, _⟩, _⟩
  · cases request with
    | queue op =>
        obtain ⟨⟨now, spec⟩, _⟩ := served_spec served
        cases op with
        | get id =>
            obtain ⟨rfl, _⟩ := spec
            cases found : world.board id with
            | none => trivial
            | some task => exact Q.filed _ id task found
        | list state limit =>
            rcases spec with ⟨_, ⟨page, rfl, isPage⟩ | ⟨_, error, rfl, _⟩⟩
            · exact fun task member => (isPage.stored task member).2
            · trivial
        | _ => trivial
    | _ => trivial
  · cases request with
    | queue op => cases op <;> trivial
    | _ => trivial

section Remembering

variable {own more : Own} {id : Str} {task : Task}

theorem Claims.later (claims : Claims own id) (more : Own) : Claims (own ++ more) id := by
  obtain ⟨event, member, claimed⟩ := claims
  exact ⟨event, List.mem_append_left _ member, claimed⟩

theorem Offered.later (offered : Offered own id) (more : Own) : Offered (own ++ more) id := by
  obtain ⟨task, state, stored, same, dedupe, member⟩ := offered
  exact ⟨task, state, stored, same, dedupe, List.mem_append_left _ member⟩

theorem Listed.later (listed : Listed own task) (more : Own) : Listed (own ++ more) task := by
  obtain ⟨limit, page, read, member⟩ := listed
  exact ⟨limit, page, List.mem_append_left _ read, member⟩

theorem ReadBack.later (readBack : ReadBack own task) (more : Own) :
    ReadBack (own ++ more) task := by
  obtain ⟨before, after, rfl, claims, read⟩ := readBack
  exact ⟨before, after ++ more, List.append_assoc _ _ _, claims, List.mem_append_left _ read⟩

theorem ReadBack.claims (readBack : ReadBack own task) : Claims own task.id := by
  obtain ⟨before, after, rfl, claims, _⟩ := readBack
  exact claims.later after

theorem Unclaimed.and {event : Exchange ports} (unclaimed : Unclaimed own)
    (silent : Work.claimedId event = none) : Unclaimed (own ++ [event]) := by
  intro other member
  rcases List.mem_append.mp member with early | last
  · exact unclaimed other early
  · rw [List.mem_singleton.mp last]
    exact silent

theorem flagged_concat (own : Own) (event : Exchange ports) :
    flagged (own ++ [event]) = flagAfter (flagged own) event := by
  unfold flagged
  rw [List.foldl_append]
  rfl

end Remembering

variable {operation : Operation} {own : Own} {α β : Type}

/-- A program of the operation, with what it asked and heard so far, keeps to it. -/
abbrev Keeps (operation : Operation) (program : Code α) (own : Own)
    (post : Own → Except Exn α → Prop) : Prop :=
  Meets (heard Honest) (May operation) program own post

/-- A part whose requests are all permitted as long as something holds that they
leave standing. -/
theorem keeps_part {allowed : Request → Prop} {program : Code α} (asks : Asks allowed program)
    (held : Own → Prop)
    (permitted : ∀ own request, held own → allowed request → May operation own request)
    (stands : ∀ own event, held own → allowed event.1 → held (own ++ [event]))
    (holds : held own) : Keeps operation program own fun after _ => held after := by
  refine asks.meets held permitted ?_ holds
  rintro own request reply after held asked ⟨_, rfl⟩
  exact stands own ⟨request, reply⟩ held asked

theorem keeps_drop {program : Code α} {post : Own → Except Exn α → Prop}
    (kept : Keeps operation program own post) :
    Keeps operation (dropValue program) own fun _ _ => True :=
  kept.seq (fun _ _ _ => trivial) fun _ _ _ => trivial

section Running

variable [Unicode] [Sha256]

theorem keeps_execute_claimed (working : operation.works = true) (executor : TaskExecutor)
    (task : Task) (spec : TaskSpec) (recipient : Option Str) (verifier : Option CommandVerifier)
    (claims : Claims own task.id) :
    Keeps operation (executor.executeClaimed task spec recipient verifier) own fun _ _ => True := by
  refine meets_call_bind trivial ?_ fun _ _ _ => trivial
  rintro found after ⟨honest, rfl⟩
  cases found with
  | none => trivial
  | some running =>
      have same : running.id = task.id := honest
      have readBack : ReadBack (own ++ [⟨.queue (.get task.id), .ok (some running)⟩]) running :=
        ⟨own, _, rfl, same ▸ claims, by rw [same]; exact List.mem_singleton_self _⟩
      refine (keeps_part (TaskExecutor.asks_execute_running executor task running spec verifier
        recipient) (fun own => Claims own task.id ∧ ReadBack own running) ?_ ?_
        ⟨claims.later _, readBack⟩).post fun _ _ _ => trivial
      · rintro own request ⟨claims, readBack⟩ asked
        cases request with
        | queue op =>
            cases op with
            | transition asked_ toState evidence =>
                obtain ⟨rfl, final⟩ := asked
                exact .ended toState working readBack final
            | _ => trivial
        | runHarness other spec worktree => exact asked ▸ claims
        | sessionFor other spec => exact asked ▸ claims
        | _ => trivial
      · rintro own event ⟨claims, readBack⟩ _
        exact ⟨claims.later _, readBack.later _⟩

theorem keeps_execute (working : operation.works = true) (executor : TaskExecutor) (task : Task)
    (spec : TaskSpec) (recipient : Option Str) (verifier : Option CommandVerifier) :
    Keeps operation (executor.execute task spec recipient false verifier) own fun _ _ => True := by
  refine meets_call_bind trivial ?_ fun _ _ _ => trivial
  rintro taken after ⟨_, rfl⟩
  cases taken with
  | false => trivial
  | true =>
      exact keeps_execute_claimed working executor task spec recipient verifier
        ⟨_, List.mem_append_right _ (List.mem_singleton_self _), rfl⟩

omit [Unicode] [Sha256] in
theorem guarding_claims_nothing {task : Task} {event : Exchange ports}
    (asked : TaskWorker.Guarding task event.1) : Work.claimedId event = none := by
  obtain ⟨request, reply⟩ := event
  cases request with
  | queue op => cases op <;> first | rfl | exact absurd asked not_false
  | _ => rfl

omit [Unicode] [Sha256] in
theorem keeps_guard {task : Task} {program : Code α}
    (asks : Asks (TaskWorker.Guarding task) program)
    (failing : ∀ own, Unclaimed own → Moves operation own task .failed)
    (unclaimed : Unclaimed own) :
    Keeps operation program own fun after _ => Unclaimed after := by
  refine keeps_part asks Unclaimed ?_ ?_ unclaimed
  · intro own request unclaimed asked
    cases request with
    | queue op =>
        cases op with
        | transition asked_ toState evidence =>
            obtain ⟨rfl, rfl⟩ := asked
            exact failing own unclaimed
        | _ => trivial
    | _ => trivial
  · exact fun own event unclaimed asked => unclaimed.and (guarding_claims_nothing asked)

omit [Unicode] [Sha256] in
theorem keeps_look {program : Code α} (asks : Asks TaskWorker.Looking program)
    (held : Own → Prop)
    (stands : ∀ own event, held own → TaskWorker.Looking event.1 → held (own ++ [event]))
    (holds : held own) : Keeps operation program own fun after _ => held after := by
  refine keeps_part asks held ?_ stands holds
  intro own request _ asked
  cases request with
  | queue op => cases op <;> trivial
  | _ => trivial

omit [Unicode] [Sha256] in
theorem looking_claims_nothing {event : Exchange ports} (asked : TaskWorker.Looking event.1) :
    Work.claimedId event = none := by
  obtain ⟨request, reply⟩ := event
  cases request with
  | queue op => cases op <;> first | rfl | exact absurd asked not_false
  | _ => rfl

omit [Unicode] [Sha256] in
theorem keeps_unclaimed {program : Code α} (asks : Asks TaskWorker.Looking program)
    (unclaimed : Unclaimed own) : Keeps operation program own fun after _ => Unclaimed after :=
  keeps_look asks Unclaimed
    (fun _ _ unclaimed looking => unclaimed.and (looking_claims_nothing looking)) unclaimed

theorem keeps_run (worker : TaskWorker) (taskId : Str) :
    Keeps (.work (.run worker taskId)) (worker.run taskId) [] fun _ _ => True := by
  refine meets_call_bind trivial ?_ fun _ _ _ => trivial
  rintro found after ⟨_, rfl⟩
  have unclaimed : Unclaimed ([] ++ [⟨.queue (.get taskId), .ok found⟩]) := by
    intro event member
    rw [List.mem_singleton.mp member]
    rfl
  cases found with
  | none => trivial
  | some task =>
      have failing : ∀ own, Unclaimed own →
          Moves (.work (.run worker taskId)) own task .failed :=
        fun own unclaimed => .refused worker taskId rfl unclaimed
      refine (keeps_unclaimed (TaskWorker.asks_guard_budget worker task.id) unclaimed).seq
        (fun own _ unclaimed => ?_) fun _ _ _ => trivial
      refine (keeps_guard (TaskWorker.asks_guard_attempts worker task) failing unclaimed).seq
        (fun own _ unclaimed => ?_) fun _ _ _ => trivial
      refine (keeps_guard (TaskWorker.asks_guard_dependencies worker task) failing unclaimed).seq
        (fun own _ unclaimed => ?_) fun _ _ _ => trivial
      refine (keeps_guard (TaskWorker.asks_guard_policy worker task) failing unclaimed).seq
        (fun own _ unclaimed => ?_) fun _ _ _ => trivial
      refine meets_call_bind trivial ?_ fun _ _ _ => trivial
      rintro resolved after ⟨_, rfl⟩
      have still : Unclaimed (own ++ [⟨.resolveSpec task worker.repoPath, .ok resolved⟩]) :=
        unclaimed.and rfl
      refine (keeps_unclaimed (TaskWorker.asks_effective worker task resolved) still).seq
        (fun own effective _ => ?_) fun _ _ _ => trivial
      exact keeps_execute rfl worker.executor task effective.1 worker.recipient effective.2

theorem keeps_run_claimed (worker : TaskWorker) (task : Task) (claims : Claims own task.id) :
    Keeps (.work (.runNext worker)) (worker.runClaimed task) own fun _ _ => True := by
  refine meets_call_bind trivial ?_ fun _ _ _ => trivial
  rintro resolved after ⟨_, rfl⟩
  refine (keeps_look (TaskWorker.asks_effective worker task resolved) (Claims · task.id)
    (fun own event claims _ => claims.later _) (claims.later _)).seq
    (fun own effective claims => ?_) fun _ _ _ => trivial
  exact keeps_execute_claimed rfl worker.executor task effective.1 worker.recipient effective.2
      claims

theorem keeps_run_first (worker : TaskWorker) (tasks : List Task)
    (queued : ∀ task ∈ tasks, task.state = .queued) (unclaimed : Unclaimed own) :
    Keeps (.work (.runNext worker)) (worker.runFirst tasks) own fun _ _ => True := by
  induction tasks generalizing own with
  | nil => trivial
  | cons task rest ih =>
      have failing : ∀ own, Unclaimed own → Moves (.work (.runNext worker)) own task .failed :=
        fun own unclaimed => .unrunnable (queued task (List.mem_cons_self ..)) unclaimed
      have later := fun (own : Own) (unclaimed : Unclaimed own) =>
        ih (fun other member => queued other (List.mem_cons_of_mem _ member)) unclaimed
      have telling : ∀ kind data,
          Asks (TaskWorker.Guarding task) (emit worker.events task.id kind data) :=
        fun kind data => asks_emit (fun _ _ _ => trivial) worker.events task.id kind data
      refine (keeps_unclaimed (TaskWorker.asks_dependencies task) unclaimed).seq
        (fun own status unclaimed => ?_) fun _ _ _ => trivial
      cases status.state with
      | failed =>
          refine (keeps_guard (asks_call (by exact ⟨rfl, rfl⟩)) failing unclaimed).seq
            (fun own _ unclaimed => ?_) fun _ _ _ => trivial
          exact (keeps_guard (telling _ _) failing unclaimed).seq
            (fun own _ unclaimed => later own unclaimed) fun _ _ _ => trivial
      | blocked =>
          exact (keeps_guard (telling _ _) failing unclaimed).seq
            (fun own _ unclaimed => later own unclaimed) fun _ _ _ => trivial
      | ready =>
          refine (keeps_guard (TaskWorker.asks_runnable worker task) failing unclaimed).seq
            (fun own passed unclaimed => ?_) fun _ _ _ => trivial
          cases passed with
          | false => exact later own unclaimed
          | true =>
              refine meets_call_bind trivial ?_ fun _ _ _ => trivial
              rintro taken after ⟨_, rfl⟩
              cases taken with
              | false => exact later _ (unclaimed.and rfl)
              | true =>
                  exact keeps_run_claimed worker task
                    ⟨_, List.mem_append_right _ (List.mem_singleton_self _), rfl⟩

theorem keeps_run_next (worker : TaskWorker) :
    Keeps (.work (.runNext worker)) worker.runNext [] fun _ _ => True := by
  refine (keeps_unclaimed (TaskWorker.asks_guard_budget worker _) ?_).seq
    (fun own _ unclaimed => ?_) fun _ _ _ => trivial
  · exact fun event member => absurd member List.not_mem_nil
  · refine meets_call_bind trivial ?_ fun _ _ _ => trivial
    rintro listed after ⟨honest, rfl⟩
    exact keeps_run_first worker listed honest (unclaimed.and rfl)

theorem keeps_work (job : Work) : Keeps (.work job) job.program [] fun _ _ => True := by
  cases job with
  | run worker taskId => exact keeps_drop (keeps_run worker taskId)
  | runNext worker => exact keeps_drop (keeps_run_next worker)
  | execute executor task spec recipient verifier =>
      exact keeps_drop (keeps_execute rfl executor task spec recipient verifier)
  | executeNext executor lease spec recipient verifier =>
      refine meets_call_bind trivial ?_ fun _ _ _ => trivial
      rintro taken after ⟨_, rfl⟩
      cases taken with
      | none => trivial
      | some task =>
          exact keeps_drop (keeps_execute_claimed rfl executor task spec recipient verifier
            ⟨_, List.mem_append_right _ (List.mem_singleton_self _), rfl⟩)

end Running

/-- What a dispatcher knows of the tasks it still has to look at. -/
structure Sweeping (tasks : List Task) (own : Own) : Prop where
  unclaimed : Unclaimed own
  listed : ∀ task ∈ tasks, Listed own task

theorem Sweeping.and {tasks : List Task} (sweeping : Sweeping tasks own) {event : Exchange ports}
    (silent : Work.claimedId event = none) : Sweeping tasks (own ++ [event]) :=
  ⟨sweeping.unclaimed.and silent, fun task member => (sweeping.listed task member).later _⟩

theorem Sweeping.rest {task : Task} {tasks : List Task} (sweeping : Sweeping (task :: tasks) own) :
    Sweeping tasks own :=
  ⟨sweeping.unclaimed, fun other member => sweeping.listed other (List.mem_cons_of_mem _ member)⟩

theorem keeps_dispatch (dispatcher : TaskDispatcher) (tasks : List Task)
    (queued : ∀ task ∈ tasks, task.state = .queued) (sweeping : Sweeping tasks own) :
    Keeps (.dispatchOnce dispatcher) (dispatcher.dispatchAll tasks) own fun _ _ => True := by
  induction tasks generalizing own with
  | nil => trivial
  | cons task rest ih =>
      have first : task.state = .queued := queued task (List.mem_cons_self ..)
      have later := fun (own : Own) (sweeping : Sweeping rest own) =>
        ih (fun other member => queued other (List.mem_cons_of_mem _ member)) sweeping
      unfold TaskDispatcher.dispatchAll
      split_ifs
      · exact later own sweeping.rest
      · refine (keeps_look (TaskWorker.asks_dependencies task) (Sweeping (task :: rest))
          (fun own event sweeping looking => sweeping.and (looking_claims_nothing looking))
          sweeping).seq (fun own status sweeping => ?_) fun _ _ _ => trivial
        cases status.state with
        | failed =>
            refine meets_call_bind (.unrunnable first sweeping.unclaimed) ?_ fun _ _ _ => trivial
            rintro moved after ⟨_, rfl⟩
            exact later _ (sweeping.rest.and rfl)
        | blocked => exact later own sweeping.rest
        | ready =>
            refine meets_call_bind (sweeping.listed task (List.mem_cons_self ..)) ?_
              fun _ _ _ => trivial
            rintro job after ⟨_, rfl⟩
            refine meets_call_bind trivial ?_ fun _ _ _ => trivial
            rintro launched after ⟨_, rfl⟩
            exact (later _ ((sweeping.rest.and rfl).and rfl)).seq (fun _ _ _ => trivial)
              fun _ _ _ => trivial

theorem keeps_dispatch_once (dispatcher : TaskDispatcher) :
    Keeps (.dispatchOnce dispatcher) dispatcher.dispatchOnce [] fun _ _ => True := by
  refine meets_call_bind trivial ?_ fun _ _ _ => trivial
  rintro page after ⟨honest, rfl⟩
  refine keeps_dispatch dispatcher page honest ⟨fun event member => ?_, fun task member => ?_⟩
  · rw [List.mem_singleton.mp member]
    rfl
  · exact ⟨dispatcher.limit, page, List.mem_singleton_self _, member⟩

/-- What `apply` asks. -/
def Applying : Request → Prop
  | .approvalOf _ | .redeem _ | .queue (.get _) | .queue (.transition _ _ _) => True
  | _ => False

section Deciding

variable [Unicode]

theorem keeps_apply (deciding : operation.works = false) (reply : ApprovalReply)
    (sender threadId : Option Str) (held : Own → Prop)
    (stands : ∀ own event, held own → Applying event.1 → held (own ++ [event]))
    (holds : held own) :
    Keeps operation (ApprovalService.apply reply sender threadId) own fun after _ => held after := by
  refine meets_call_bind trivial ?_ ?_
  · rintro found after ⟨_, rfl⟩
    have held₁ := stands _ ⟨.approvalOf reply.token, .ok found⟩ holds trivial
    cases found with
    | none => exact held₁
    | some approval =>
        refine meets_call_bind trivial ?_ ?_
        · rintro read after ⟨honest, rfl⟩
          have held₂ := stands _ ⟨.queue (.get approval.taskId), .ok read⟩ held₁ trivial
          cases read with
          | none => exact held₂
          | some task =>
              simp only
              split_ifs with settled otherSender otherThread
              · exact held₂
              · exact held₂
              · exact held₂
              · refine meets_call_bind trivial ?_ ?_
                · rintro redeemed after ⟨_, rfl⟩
                  have held₃ := stands _ ⟨.redeem reply, .ok redeemed⟩ held₂ trivial
                  refine meets_call ?_ ?_
                  · refine .decided deciding reply approval redeemed (not_not.mp settled) ?_ honest.symm ?_
                    · simp
                    · simp
                  · rintro moved after ⟨_, rfl⟩
                    exact stands _ _ held₃ trivial
                · rintro error after ⟨_, rfl⟩
                  exact stands _ _ held₂ trivial
        · rintro error after ⟨_, rfl⟩
          exact stands _ _ held₁ trivial
  · rintro error after ⟨_, rfl⟩
    exact stands _ _ holds trivial

end Deciding

/-!
## The inbound side
-/

/-- Between two messages of an ingest: no flag is up, and every message reported
as suspicious so far was offered to the queue. -/
structure Between (own : Own) (suspicious : List Str) : Prop where
  unflagged : flagged own = false
  offered : ∀ id ∈ suspicious, Offered own id

def Unflagging : Request → Prop
  | .scan _ | .assess _ | .needsHuman _ => False
  | _ => True

theorem unflagging_lowers {event : Exchange ports} (unflagging : Unflagging event.1) (up : Bool) :
    flagAfter up event = false := by
  obtain ⟨request, reply⟩ := event
  cases request <;> first | rfl | exact absurd unflagging not_false

theorem Between.later {suspicious : List Str} (between : Between own suspicious)
    {event : Exchange ports} (unflagging : Unflagging event.1) :
    Between (own ++ [event]) suspicious where
  unflagged := by rw [flagged_concat, unflagging_lowers unflagging]
  offered id member := (between.offered id member).later _

/-- A postcondition for the runs that return. -/
def Returns (post : Own → α → Prop) : Own → Except Exn α → Prop
  | own, .ok value => post own value
  | _, .error _ => True

theorem keeps_seq {program : Code α} {next : α → Code β} {middle : Own → α → Prop}
    {post : Own → β → Prop} (first : Keeps operation program own (Returns middle))
    (rest : ∀ own value, middle own value → Keeps operation (next value) own (Returns post)) :
    Keeps operation (program >>= next) own (Returns post) :=
  first.seq (fun own value reached => rest own value reached) fun _ _ _ => trivial

theorem keeps_inbound {program : Code α} (asks : Asks ControlPlane.Inbound program)
    {suspicious : List Str} (between : Between own suspicious) :
    Keeps operation program own fun after _ => Between after suspicious := by
  refine keeps_part asks (Between · suspicious) ?_ ?_ between
  · intro own request _ asked
    cases request <;> trivial
  · rintro own ⟨request, reply⟩ between asked
    refine between.later ?_
    cases request <;> trivial

theorem keeps_inbound_seq {program : Code α} {next : α → Code β}
    (asks : Asks ControlPlane.Inbound program) {suspicious : List Str}
    (between : Between own suspicious) {post : Own → β → Prop}
    (rest : ∀ own value, Between own suspicious → Keeps operation (next value) own (Returns post)) :
    Keeps operation (program >>= next) own (Returns post) :=
  (keeps_inbound asks between).seq (fun own value between => rest own value between)
    fun _ _ _ => trivial

structure Decider (request : Request) (answer : request.Result → Bool) : Prop where
  free : ∀ operation own, May operation own request
  raises : ∀ up value, flagAfter up ⟨request, .ok value⟩ = (up || answer value)

/-- A decider was asked: the flag is up where it was up or the decider says so. -/
def Answered (own : Own) (after : Own) (yes : Bool) : Prop :=
  (∃ more, after = own ++ more) ∧ flagged after = (flagged own || yes)

theorem keeps_asked (configured : Bool) {request : Request} {answer : request.Result → Bool}
    (decider : Decider request answer) :
    Keeps operation (ControlPlane.asked configured request answer) own
      (Returns (Answered own)) := by
  unfold ControlPlane.asked
  by_cases on : configured
  · rw [if_pos on]
    refine meets_call_bind (decider.free operation own) ?_ fun _ _ _ => trivial
    rintro reply after ⟨_, rfl⟩
    exact ⟨⟨_, rfl⟩, by rw [flagged_concat, decider.raises]⟩
  · rw [if_neg on]
    exact ⟨⟨[], (List.append_nil own).symm⟩, (Bool.or_false _).symm⟩

/-- After the deciders of one message: where the flag is up the message is known
to be suspicious, or it was offered to the queue before. -/
structure Flags (id : Str) (suspicious : Bool) (listed : List Str) (own : Own) : Prop where
  told : flagged own = true → suspicious = true ∨ Offered own id
  offered : ∀ other ∈ listed, other = id ∨ Offered own other

section Ingesting

variable (plane : ControlPlane)

theorem keeps_flag (message : RawMessage) (report : IngestReport)
    (between : Between own report.suspicious) :
    Keeps operation (plane.flagSuspicious message report) own (Returns fun after flagging =>
      Flags message.transportId flagging.1 flagging.2.suspicious after) := by
  refine keeps_seq (keeps_asked plane.scanner (by exact ⟨fun _ _ => trivial, fun _ _ => rfl⟩)) ?_
  rintro _ scanned ⟨⟨more, rfl⟩, raised⟩
  refine keeps_seq (keeps_asked plane.security (by exact ⟨fun _ _ => trivial, fun _ _ => rfl⟩)) ?_
  rintro _ assessed ⟨⟨further, rfl⟩, raised'⟩
  rw [raised, between.unflagged, Bool.false_or] at raised'
  have early : ∀ other ∈ report.suspicious, Offered (own ++ more ++ further) other :=
    fun other member => ((between.offered other member).later _).later _
  have listed : ∀ other ∈ (if scanned then
      { report with suspicious := report.suspicious ++ [message.transportId] }
      else report).suspicious,
      other = message.transportId ∨ Offered (own ++ more ++ further) other := by
    intro other member
    cases scanned with
    | false => exact .inr (early other member)
    | true =>
        rcases List.mem_append.mp member with before | last
        · exact .inr (early other before)
        · exact .inl (List.mem_singleton.mp last)
  by_cases fresh : assessed && !(if scanned then
      { report with suspicious := report.suspicious ++ [message.transportId] }
      else report).suspicious.contains message.transportId
  · rw [if_pos fresh]
    refine ⟨fun _ => .inl rfl, fun other member => ?_⟩
    rcases List.mem_append.mp member with before | last
    · exact listed other before
    · exact .inl (List.mem_singleton.mp last)
  · rw [if_neg fresh]
    refine ⟨fun up => ?_, listed⟩
    rw [raised'] at up
    cases scanned with
    | true => exact .inl rfl
    | false =>
        rw [Bool.false_or] at up
        subst up
        have known : message.transportId ∈ report.suspicious := by simpa using fresh
        exact .inr (early _ known)

theorem keeps_gate_reason {id : Str} {listed : List Str} {suspicious : Bool}
    (result : NormalizedTask) (flags : Flags id suspicious listed own) :
    Keeps operation (plane.gateReason suspicious result) own (Returns fun after reason =>
      Flags id reason.isSome listed after) := by
  unfold ControlPlane.gateReason
  by_cases known : suspicious
  · rw [if_pos known]
    exact ⟨fun _ => .inl rfl, flags.offered⟩
  · rw [if_neg known]
    refine keeps_seq (keeps_asked plane.humanGate (by exact ⟨fun _ _ => trivial, fun _ _ => rfl⟩)) ?_
    rintro _ human ⟨⟨more, rfl⟩, raised⟩
    refine ⟨fun up => ?_, fun other member => (flags.offered other member).imp_right
      fun offered => offered.later _⟩
    cases human with
    | true => exact .inl rfl
    | false =>
        rw [raised, Bool.or_false] at up
        exact .inr (((flags.told up).resolve_left known).later _)

/-- What holds between two messages, after a message was dealt with. -/
def BetweenMessages (own : Own) (report : IngestReport) : Prop := Between own report.suspicious

theorem keeps_store (recipient : Option Str) (report : IngestReport) (result : NormalizedTask)
    (reason : Option GateReason) (dedupe : result.task.transportId = result.task.id)
    (told : operation.gates = true → flagged own = true →
      reason.isSome = true ∨ Offered own result.task.id)
    (offered : ∀ other ∈ report.suspicious, other = result.task.id ∨ Offered own other) :
    Keeps operation (plane.store recipient report result reason) own
      (Returns BetweenMessages) := by
  refine meets_call_bind ?_ ?_ fun _ _ _ => trivial
  · cases reason with
    | some reason => exact .inl rfl
    | none =>
        exact .inr ⟨rfl, dedupe, fun gates up => (told gates up).resolve_left Bool.false_ne_true⟩
  · clear told
    rintro stored after ⟨_, rfl⟩
    have between : Between (own ++ [⟨.queue (.enqueue result.task
        (if reason.isSome then .action else .queued)), .ok stored⟩]) report.suspicious := by
      refine ⟨by rw [flagged_concat]; rfl, fun other member => ?_⟩
      rcases offered other member with rfl | before
      · exact ⟨_, _, stored, rfl, dedupe, List.mem_append_right _ (List.mem_singleton_self _)⟩
      · exact before.later _
    cases stored with
    | none => exact between
    | some stored =>
        refine keeps_inbound_seq (ControlPlane.asks_event ControlPlane.Answering.inbound plane _ _ _) between fun later _ still => ?_
        cases reason with
        | none => exact still
        | some reason =>
            exact keeps_inbound_seq (ControlPlane.asks_request_approval ControlPlane.Answering.inbound (fun _ _ => trivial) plane _ _ _) still
              fun own _ between => between

theorem keeps_accept (gated : operation.gates = plane.approvals) (message : RawMessage)
    (recipient : Option Str) (report : IngestReport) (result : NormalizedTask)
    (same : result.task.id = message.transportId)
    (dedupe : result.task.transportId = result.task.id)
    (between : Between own report.suspicious) :
    Keeps operation (plane.accept message recipient report result) own
      (Returns BetweenMessages) := by
  refine keeps_seq (keeps_flag plane message report between) ?_
  rintro own ⟨suspicious, report⟩ flags
  rw [← same] at flags
  simp only
  by_cases configured : plane.approvals
  · rw [if_pos configured]
    refine keeps_seq (keeps_gate_reason plane result flags) fun own reason flags => ?_
    exact keeps_store plane recipient report result reason dedupe (fun _ => flags.told)
      flags.offered
  · rw [if_neg configured]
    exact keeps_store plane recipient report result none dedupe
      (fun gates => absurd (gated.symm.trans gates) configured) flags.offered

theorem keeps_reject (message : RawMessage) (recipient : Option Str) (report : IngestReport)
    (rejected : Rejected) (data : EventData) (between : Between own report.suspicious) :
    Keeps operation (plane.reject message recipient report rejected data) own
      (Returns BetweenMessages) :=
  keeps_inbound_seq (ControlPlane.asks_event ControlPlane.Answering.inbound plane _ _ _) between fun _ _ between =>
    keeps_inbound_seq (ControlPlane.asks_reply ControlPlane.Answering.inbound plane _ _ _) between fun _ _ between => between

variable [Unicode]

theorem keeps_apply_decision (deciding : operation.works = false) (message : RawMessage) (decision : ApprovalReply)
    (recipient : Option Str) {suspicious : List Str} (between : Between own suspicious) :
    Keeps operation (plane.applyDecision message decision recipient) own
      (Returns fun after _ => Between after suspicious) := by
  have stands : ∀ own event, Between own suspicious → Applying event.1 →
      Between (own ++ [event]) suspicious := by
    rintro own ⟨request, reply⟩ between asked
    refine between.later ?_
    cases request <;> trivial
  refine (meets_catch _ _ _ _).mpr ?_
  refine (keeps_apply deciding decision message.sender message.threadId (Between · suspicious) stands
    between).seq (fun own task between => between) fun own error between => ?_
  change Keeps operation (if ControlPlane.explained error then _ else .raise error) own _
  split_ifs
  · exact keeps_inbound_seq (ControlPlane.asks_reply ControlPlane.Answering.inbound plane _ _ _) between fun _ _ between => between
  · trivial

theorem keeps_intake (gated : operation.gates = plane.approvals) (recipient : Option Str)
    (report : IngestReport) (message : RawMessage) (between : Between own report.suspicious) :
    Keeps operation (plane.intake recipient report message) own (Returns BetweenMessages) := by
  unfold ControlPlane.intake
  cases normalized : normalize message recipient with
  | error rejected => exact keeps_reject plane message recipient report rejected _ between
  | ok result =>
      have stamped := (normalized_task normalized).2
      have same : result.task.id = message.transportId := by rw [stamped]; rfl
      have dedupe : result.task.transportId = result.task.id := by rw [stamped]; rfl
      refine keeps_inbound_seq (ControlPlane.asks_repo_allowed ControlPlane.Answering.inbound plane _) between fun own allowed between => ?_
      split_ifs
      · exact keeps_accept plane gated message recipient report result same dedupe between
      · exact keeps_reject plane message recipient report _ _ between

theorem keeps_ingest_message (deciding : operation.works = false)
    (gated : operation.gates = plane.approvals) (recipient : Option Str)
    (report : IngestReport) (message : RawMessage) (between : Between own report.suspicious) :
    Keeps operation (plane.ingestMessage recipient report message) own
      (Returns BetweenMessages) := by
  refine keeps_inbound_seq (ControlPlane.asks_authorize (fun _ _ _ => trivial) plane message) between fun own admitted between => ?_
  cases admitted with
  | error error => exact keeps_inbound_seq (ControlPlane.asks_event ControlPlane.Answering.inbound plane _ _ _) between fun _ _ between => between
  | ok _ =>
      simp only
      split
      · refine keeps_seq (keeps_apply_decision plane deciding message _ recipient between)
          fun own decided between => ?_
        split_ifs
        · exact between
        · exact between
      · exact keeps_intake plane gated recipient report message between

theorem keeps_ingest_all (deciding : operation.works = false)
    (gated : operation.gates = plane.approvals) (recipient : Option Str)
    (messages : List RawMessage) (report : IngestReport) (between : Between own report.suspicious) :
    Keeps operation (plane.ingestAll recipient messages report) own (Returns BetweenMessages) := by
  induction messages generalizing report own with
  | nil => exact between
  | cons message rest ih =>
      exact keeps_seq (keeps_ingest_message plane deciding gated recipient report message between)
        fun own report between => ih report between

theorem keeps_ingest (messages : List RawMessage) (recipient : Option Str) :
    Keeps (.ingest plane messages recipient) (plane.ingest messages recipient) []
      fun _ _ => True := by
  have nothing : Between [] ({} : IngestReport).suspicious :=
    ⟨rfl, fun id member => absurd member List.not_mem_nil⟩
  have kept : Keeps (.ingest plane messages recipient) (plane.ingest messages recipient) []
      (Returns BetweenMessages) :=
    keeps_seq (keeps_ingest_all plane rfl rfl recipient messages {} nothing) fun own report between =>
      keeps_inbound_seq (plane.asks_acknowledge messages) between fun _ _ between => between
  exact kept.post fun _ _ _ => trivial

end Ingesting

def discipline [Unicode] [Sha256] (Q : QueueBackend) (A : ApprovalBackend) :
    Discipline (surroundings Q A) Operation.start where
  honest := Honest
  may := May
  truthful _ _ _ _ answered := surroundings_honest answered
  programs operation := by
    cases operation with
    | ingest plane messages recipient => exact keeps_drop (keeps_ingest plane messages recipient)
    | apply reply sender threadId =>
        exact keeps_drop (keeps_apply rfl reply sender threadId (fun _ => True)
          (fun _ _ _ _ => trivial) trivial)
    | dispatchOnce dispatcher => exact keeps_drop (keeps_dispatch_once dispatcher)
    | work job => exact keeps_work job
    | releaseStale now => exact keeps_drop (meets_call trivial fun _ _ _ => trivial)

end DearAgent
