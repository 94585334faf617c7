import DearAgent.Transports.Delivery

/-!
# Passes over a mailbox

What one poll, the rounds of the ingest and the acknowledgement do to the
account, and what follows for any number of passes: as long as no pass stops
with messages in its hands, every message stays listed until it is processed,
in the order it came in.
-/

namespace DearAgent.Imap

open DearAgent.Lib.Text DearAgent.Lib.Effects DearAgent.Lib.Dictionaries

set_option autoImplicit false

section Steady

variable {α β : Type} {base account after : Account} {filed : List Uid}

/-- Nothing is fetched or processed, and only these messages are deleted. -/
def Steady (filed : List Uid) : Request → Prop
  | .command (.storeDeleted uid) => uid ∈ filed
  | .command (.fetch _) | .field (.setPending _ _) | .processed _ => False
  | _ => True

theorem steady_permitted {request : Request} (steady : Steady filed request)
    (within : ∀ uid ∈ filed, uid ∈ account.processed) : may account request := by
  cases request with
  | command asked =>
      cases asked with
      | fetch uid => exact absurd steady not_false
      | storeDeleted uid => exact within uid steady
      | _ => trivial
  | field used =>
      cases used with
      | setPending transportId uid => exact absurd steady not_false
      | _ => trivial
  | port request => trivial
  | processed uid => exact absurd steady not_false

theorem server_calm {request : Request} {reply : request.Reply} (kept : Kept account)
    (permitted : may account request) (answered : server request account reply after)
    (unfetched : ∀ uid, request ≠ .command (.fetch uid))
    (unmarked : ∀ uid, request ≠ .processed uid) : Calm account after := by
  obtain ⟨middle, arrives, answers⟩ := answered
  have calm := arrives_calm kept arrives
  exact calm.trans (answer_calm calm.kept (calm.permits permitted) answers unfetched unmarked)

theorem steady_meets {program : Code α} (asks : Asks (Steady filed) program)
    (within : ∀ uid ∈ filed, uid ∈ base.processed) (calm : Calm base account) :
    Meets server may program account fun after _ => Calm base after := by
  refine asks.meets (Calm base) ?_ ?_ calm
  · exact fun s request calm steady =>
      steady_permitted steady fun uid member => calm.still_processed (within uid member)
  · intro s request reply s' calm steady answered
    have permitted := steady_permitted steady fun uid member =>
      calm.still_processed (within uid member)
    refine calm.trans (server_calm calm.kept permitted answered ?_ ?_)
    · rintro uid rfl
      exact steady
    · rintro uid rfl
      exact steady

/-- In whatever state, a program that fetches, processes and deletes nothing keeps
to what a pass may ask. -/
theorem steady_anyway {program : Code α} (asks : Asks (Steady []) program) :
    Meets server may program account fun _ _ => True :=
  asks.meets (fun _ => True)
    (fun _ _ _ steady => steady_permitted steady fun _ member => by cases member)
    (fun _ _ _ _ _ _ _ => trivial) trivial

variable {allowed : Request → Prop}

theorem asks_command {command : Command} (permitted : allowed (.command command)) :
    Asks allowed (call command) := by
  refine ⟨permitted, fun reply => ?_⟩
  cases reply <;> trivial

theorem asks_field {field : Field} (permitted : allowed (.field field)) :
    Asks allowed (use field) :=
  ⟨permitted, fun _ => trivial⟩

theorem asks_require : Asks (Steady filed) Client.require := by
  refine asks_bind (asks_field trivial) fun connected => ?_
  split_ifs <;> trivial

theorem asks_select [Unicode] (mailbox : Str) : Asks (Steady filed) (Client.select mailbox) := by
  refine asks_bind asks_require fun _ => asks_bind (asks_command trivial) fun selected => ?_
  split_ifs
  · trivial
  · refine asks_bind (asks_command trivial) fun _ =>
      asks_bind (asks_command trivial) fun selected => ?_
    split_ifs <;> trivial

theorem asks_suppressing {command : Code Unit} (asks : Asks allowed command) :
    Asks allowed (Client.suppressing command) :=
  asks_except asks fun _ => trivial

theorem asks_close : Asks (Steady filed) Client.close := by
  refine asks_bind (asks_field trivial) fun connected => ?_
  split_ifs
  · exact asks_bind (asks_suppressing (asks_command trivial)) fun _ =>
      asks_bind (asks_suppressing (asks_command trivial)) fun _ => asks_field trivial
  · trivial

theorem asks_connect : Asks (Steady filed) ImapSmtpTransport.connect := by
  refine asks_bind (asks_field trivial) fun connected => ?_
  split_ifs
  · trivial
  · refine asks_bind (asks_bind (asks_command trivial) fun _ => ?_) fun _ => asks_field trivial
    exact asks_bind (asks_field trivial) fun _ => asks_command trivial

theorem asks_disconnect : Asks (Steady filed) ImapSmtpTransport.disconnect := by
  refine asks_bind (asks_field trivial) fun connected => ?_
  split_ifs
  · exact asks_bind asks_close fun _ => asks_field trivial
  · trivial

theorem asks_move [Unicode] (uid : Uid) (target : Str) :
    Asks (Steady [uid]) (Client.move uid target) := by
  have discarding : Asks (Steady [uid]) (Client.discard uid) :=
    asks_bind (asks_command (List.mem_singleton_self uid)) fun _ => asks_command trivial
  refine asks_bind asks_require fun _ => asks_bind (asks_command trivial) fun copied => ?_
  split_ifs
  · exact discarding
  · refine asks_bind (asks_command trivial) fun _ =>
      asks_bind (asks_command trivial) fun copied => ?_
    split_ifs
    · exact discarding
    · trivial

end Steady

/-!
## A poll
-/

section Polling

variable {base account after : Account} {left fetched : List Uid}

theorem meets_command {α : Type} {command : Command} {next : command.Result → Code α}
    {post : Account → Except Exn α → Prop} (permitted : may account (.command command))
    (returned : ∀ value after, server (.command command) account (.ok value) after →
      Meets server may (next value) after post)
    (raised : ∀ error after, server (.command command) account (.error error) after →
      post after (.error error)) :
    Meets server may (call command >>= next) account post := by
  refine ⟨permitted, fun reply after answered => ?_⟩
  cases reply with
  | ok value => exact returned value after answered
  | error error => exact raised error after answered

/-- A poll that listed `todo` and `left`, and has fetched some messages already. -/
structure Fetching (base : Account) (todo left fetched : List Uid) (account : Account) : Prop where
  kept : Kept account
  processed : account.processed = base.processed
  uidNext : base.uidNext ≤ account.uidNext
  unseen : ∃ late, account.unseen = todo ++ (left ++ late) ∧ ∀ uid ∈ late, base.uidNext ≤ uid
  held : ∀ uid, uid ∈ account.held ↔ uid ∈ fetched

theorem Fetching.calm {todo : List Uid} (fetching : Fetching base todo left fetched account)
    (calm : Calm account after) : Fetching base todo left fetched after where
  kept := calm.kept
  processed := calm.processed.trans fetching.processed
  uidNext := Nat.le_trans fetching.uidNext calm.uidNext
  unseen := by
    obtain ⟨late, same, new⟩ := fetching.unseen
    obtain ⟨more, grown, newer⟩ := calm.unseen
    refine ⟨late ++ more, by rw [grown, same]; simp, fun uid member => ?_⟩
    rcases List.mem_append.mp member with before | then_
    · exact new uid before
    · exact Nat.le_trans fetching.uidNext (newer uid then_)
  held := fun uid => by
    rw [calm.held]
    exact fetching.held uid

theorem Fetching.see {uid : Uid} {rest : List Uid}
    (fetching : Fetching base (uid :: rest) left fetched account) :
    Fetching base rest left (fetched ++ [uid]) (account.see uid) where
  kept := by
    obtain ⟨late, same, _⟩ := fetching.unseen
    exact see_keeps (by simp [same]) fetching.kept
  processed := fetching.processed
  uidNext := fetching.uidNext
  unseen := by
    obtain ⟨late, same, new⟩ := fetching.unseen
    refine ⟨late, ?_, new⟩
    have distinct := unseen_nodup fetching.kept
    rw [unseen_see, same, List.cons_append, List.filter_cons_of_neg (by simp)]
    rw [same, List.cons_append, List.nodup_cons] at distinct
    refine List.filter_eq_self.mpr fun other member => ?_
    simpa using fun equal : other = uid => distinct.1 (equal ▸ member)
  held := fun other => by
    change other ∈ account.held ++ [uid] ↔ _
    rw [List.mem_append, List.mem_append, fetching.held other]

theorem fetch_raw_meets {uid : Uid} {rest : List Uid}
    (fetching : Fetching base (uid :: rest) left fetched account) :
    Meets server may (Client.fetchRaw uid) account fun after outcome =>
      ∀ raw, outcome = .ok raw → Fetching base rest left (fetched ++ [uid]) after := by
  have required : Meets server may Client.require account fun after _ => Calm account after :=
    @steady_meets _ _ _ [] _ asks_require (fun _ member => by cases member) (.refl fetching.kept)
  refine required.seq (fun s _ calm => ?_) fun _ _ _ _ => by rintro ⟨⟩
  have still := fetching.calm calm
  obtain ⟨late, same, _⟩ := still.unseen
  refine meets_command (by change uid ∈ s.unseen; simp [same]) ?_ fun _ _ _ _ => by rintro ⟨⟩
  rintro ⟨ok, body⟩ after ⟨middle, arrives, answers⟩
  cases ok with
  | false => exact fun _ => by rintro ⟨⟩
  | true =>
      cases body with
      | none => exact fun _ => by rintro ⟨⟩
      | some raw =>
          intro _ _
          rcases answers with rfl | ⟨_, failed⟩
          · exact (still.calm (arrives_calm still.kept arrives)).see
          · exact absurd rfl (failed raw)

theorem fetch_all_meets {todo : List Uid} {messages : List Polled}
    (fetching : Fetching base todo left (messages.map Polled.uid) account) :
    Meets server may (ImapSmtpTransport.fetchAll todo messages) account fun after outcome =>
      ∀ polled, outcome = .ok polled → polled.map Polled.uid = messages.map Polled.uid ++ todo ∧
        Fetching base [] left (polled.map Polled.uid) after := by
  induction todo generalizing messages account with
  | nil =>
      rintro polled ⟨⟩
      exact ⟨(List.append_nil _).symm, fetching⟩
  | cons uid rest ih =>
      refine (fetch_raw_meets fetching).seq (fun s raw reached => ?_)
        fun _ _ _ _ => by rintro ⟨⟩
      have seen := reached raw rfl
      have permitted : may s (.command (.parseMessage raw)) := trivial
      refine meets_command permitted (fun parsed s' answered => ?_) fun _ _ _ _ => by rintro ⟨⟩
      obtain ⟨message, receivedAt⟩ := parsed
      have parsing := seen.calm
        (server_calm seen.kept permitted answered (by simp) (by simp))
      have held : may s' (.field (.setPending message.transportId uid)) :=
        (parsing.held uid).mpr (by simp)
      refine ⟨held, fun _ s'' stored => ?_⟩
      have storing := parsing.calm (server_calm parsing.kept held stored (by simp) (by simp))
      have following : Fetching base rest left
          ((messages ++ [Polled.mk message receivedAt uid]).map Polled.uid) s'' := by
        simpa using storing
      have later := ih following
      refine later.post fun _ _ ended polled returned => ?_
      have both := ended polled returned
      exact ⟨by simpa using both.1, both.2⟩

theorem unread_meets (calm : Calm base account) :
    Meets server may Client.unreadUids account fun after outcome =>
      ∀ uids, outcome = .ok uids → Calm base after ∧ uids = after.unseen := by
  have required : Meets server may Client.require account fun after _ => Calm base after :=
    @steady_meets _ _ _ [] _ asks_require (fun _ member => by cases member) calm
  refine required.seq (fun s _ calm => ?_) fun _ _ _ _ => by rintro ⟨⟩
  have permitted : may s (.command .searchUnseen) := trivial
  refine meets_command permitted (fun listed after answered => ?_) fun _ _ _ _ => by rintro ⟨⟩
  obtain ⟨ok, uids⟩ := listed
  simp only
  split_ifs with fine
  · rintro _ ⟨⟩
    obtain ⟨middle, arrives, rfl, lists⟩ := answered
    exact ⟨calm.trans (arrives_calm calm.kept arrives), lists uids (by rw [fine])⟩
  · exact fun _ => by rintro ⟨⟩

theorem sort_perm {messages sorted : List Polled} (done : sortReceived messages = .ok sorted) :
    sorted.Perm messages := by
  unfold sortReceived at done
  split_ifs at done
  · cases done
    exact List.perm_insertionSort _ messages

/-- A pass that began in `base`, has taken some messages from the head of the
list and still waits to process some of them. -/
structure Progress (base : Account) (limit : Int) (waiting : List Uid) (account : Account) :
    Prop where
  kept : Kept account
  held : ∀ uid, uid ∈ account.held ↔ uid ∈ waiting
  uidNext : base.uidNext ≤ account.uidNext
  remains : ∀ uid ∈ base.processed, uid ∈ account.processed
  known : ∀ uid, uid ∈ account.processed ∨ uid ∈ waiting →
    uid ∈ base.processed ∨ uid ∈ base.unseen ∨ base.uidNext ≤ uid
  shifted : ∃ early late taken left, base.unseen ++ early = taken ++ left ∧
    taken = sliceTo limit (taken ++ left) ∧ account.unseen = left ++ late ∧
    (∀ uid ∈ taken, uid ∈ waiting ∨ uid ∈ account.processed) ∧
    (∀ uid ∈ early, base.uidNext ≤ uid) ∧ ∀ uid ∈ late, base.uidNext ≤ uid

theorem Progress.calm {limit : Int} {waiting : List Uid}
    (progress : Progress base limit waiting account) (calm : Calm account after) :
    Progress base limit waiting after where
  kept := calm.kept
  held := fun uid => by
    rw [calm.held]
    exact progress.held uid
  uidNext := Nat.le_trans progress.uidNext calm.uidNext
  remains := fun uid member => calm.still_processed (progress.remains uid member)
  known := fun uid => by
    rw [calm.processed]
    exact progress.known uid
  shifted := by
    obtain ⟨early, late, taken, left, listed, first, unseen, handled, new, newer⟩ :=
      progress.shifted
    obtain ⟨more, grown, newest⟩ := calm.unseen
    refine ⟨early, late ++ more, taken, left, listed, first, by rw [grown, unseen]; simp, ?_,
      new, fun uid member => ?_⟩
    · rw [calm.processed]
      exact handled
    · rcases List.mem_append.mp member with before | then_
      · exact newer uid before
      · exact Nat.le_trans progress.uidNext (newest uid then_)

theorem Progress.perm {limit : Int} {waiting other : List Uid}
    (progress : Progress base limit waiting account) (same : waiting.Perm other) :
    Progress base limit other account where
  kept := progress.kept
  held := fun uid => (progress.held uid).trans same.mem_iff
  uidNext := progress.uidNext
  remains := progress.remains
  known := fun uid handled => progress.known uid (handled.imp_right same.mem_iff.mpr)
  shifted := by
    obtain ⟨early, late, taken, left, listed, first, unseen, handled, new⟩ := progress.shifted
    exact ⟨early, late, taken, left, listed, first, unseen,
      fun uid member => (handled uid member).imp_left same.mem_iff.mp, new⟩

theorem poll_selected_meets [Unicode] (transport : ImapSmtpTransport) (limit : Int)
    (idle : base.held = []) (calm : Calm base account) :
    Meets server may (transport.pollSelected limit) account fun after outcome =>
      ∀ polled, outcome = .ok polled →
        Progress base limit (polled.map Polled.uid) after ∧ (polled.map Polled.uid).Nodup := by
  have selected : Meets server may (Client.select transport.mailbox) account
      fun after _ => Calm base after :=
    @steady_meets _ _ _ [] _ (asks_select _) (fun _ member => by cases member) calm
  refine selected.seq (fun s₁ _ calm => ?_) fun _ _ _ _ => by rintro ⟨⟩
  refine (unread_meets calm).seq (fun s₂ uids listed => ?_) fun _ _ _ _ => by rintro ⟨⟩
  obtain ⟨calm, rfl⟩ := listed uids rfl
  obtain ⟨early, grown, new⟩ := calm.unseen
  obtain ⟨left, parts⟩ : ∃ left, s₂.unseen = sliceTo limit s₂.unseen ++ left :=
    ⟨_, (List.take_append_drop _ _).symm⟩
  have distinct := unseen_nodup calm.kept
  have fetching : Fetching base (sliceTo limit s₂.unseen) left ([].map Polled.uid) s₂ :=
    ⟨calm.kept, calm.processed, calm.uidNext, ⟨[], by simpa using parts, by simp⟩,
      fun uid => by rw [calm.held, idle]; rfl⟩
  generalize taking : sliceTo limit s₂.unseen = taken at parts fetching
  refine (fetch_all_meets fetching).seq (fun s₃ polled done => ?_) fun _ _ _ _ => by rintro ⟨⟩
  obtain ⟨same, fetched⟩ := done polled rfl
  have uids : polled.map Polled.uid = taken := same
  rw [uids] at fetched
  cases sorting : sortReceived polled with
  | error error => exact fun _ => by rintro ⟨⟩
  | ok sorted =>
      have order : taken.Perm (sorted.map Polled.uid) :=
        uids ▸ (sort_perm sorting).symm.map Polled.uid
      have known : ∀ uid ∈ taken, uid ∈ base.unseen ∨ base.uidNext ≤ uid := by
        intro uid member
        have listed : uid ∈ s₂.unseen := parts.symm ▸ List.mem_append_left _ member
        rw [grown] at listed
        exact (List.mem_append.mp listed).imp_right (new uid)
      have progress : Progress base limit taken s₃ := by
        refine ⟨fetched.kept, fetched.held, fetched.uidNext,
          fun uid member => fetched.processed.symm ▸ member, fun uid handled => ?_, ?_⟩
        · rw [fetched.processed] at handled
          exact handled.imp_right (known uid)
        · obtain ⟨late, unseen, newer⟩ := fetched.unseen
          exact ⟨early, late, taken, left, grown.symm.trans parts, by rw [← parts, taking], unseen,
            fun uid member => .inl member, new, newer⟩
      have sortedProgress := progress.perm order
      have sortedDistinct : (sorted.map Polled.uid).Nodup := by
        rw [parts] at distinct
        exact order.nodup_iff.mp (List.nodup_append.mp distinct).1
      change Meets server may (if sorted.isEmpty = true then _ else _) s₃ _
      split_ifs
      · have closed : Meets server may ImapSmtpTransport.disconnect s₃ fun after _ => Calm s₃ after :=
          @steady_meets _ _ _ [] _ asks_disconnect (fun _ member => by cases member)
            (.refl progress.kept)
        refine closed.seq (fun s₄ _ calm => ?_) fun _ _ _ _ => by rintro ⟨⟩
        rintro _ ⟨⟩
        exact ⟨sortedProgress.calm calm, sortedDistinct⟩
      · rintro _ ⟨⟩
        exact ⟨sortedProgress, sortedDistinct⟩

theorem poll_meets [Unicode] (transport : ImapSmtpTransport) (limit : Int)
    (kept : Kept base) (idle : base.held = []) :
    Meets server may (transport.poll limit) base fun after outcome =>
      ∀ polled, outcome = .ok polled →
        Progress base limit (polled.map Polled.uid) after ∧ (polled.map Polled.uid).Nodup := by
  have connected : Meets server may ImapSmtpTransport.connect base fun after _ => Calm base after :=
    @steady_meets _ _ _ [] _ asks_connect (fun _ member => by cases member) (.refl kept)
  refine connected.seq (fun s _ calm => ?_) fun _ _ _ _ => by rintro ⟨⟩
  refine (meets_catch _ _ _ _).mpr ((poll_selected_meets transport limit idle calm).post ?_)
  intro after outcome polled
  cases outcome with
  | ok messages => exact polled
  | error error =>
      change Meets server may (if error.isException = true then _ else .raise error) after _
      split_ifs
      · exact (steady_anyway asks_disconnect).seq (fun _ _ _ _ => by rintro ⟨⟩)
          fun _ _ _ _ => by rintro ⟨⟩
      · exact fun _ => by rintro ⟨⟩

end Polling

/-!
## The rounds and the acknowledgement
-/

section Rounds

variable {base account after : Account} {limit : Int}

theorem Progress.mark {uid : Uid} {waiting : List Uid} (fresh : uid ∉ waiting)
    (progress : Progress base limit (uid :: waiting) account) :
    Progress base limit waiting (account.process uid) where
  kept := process_keeps ((progress.held uid).mpr (List.mem_cons_self ..)) progress.kept
  held := fun other => by
    change other ∈ account.held.filter (fun other => other ≠ uid) ↔ _
    rw [List.mem_filter, progress.held other, List.mem_cons]
    by_cases same : other = uid
    · simp [same, fresh]
    · simp [same]
  uidNext := progress.uidNext
  remains := fun other member => List.mem_append_left _ (progress.remains other member)
  known := by
    intro other handled
    refine progress.known other ?_
    rcases handled with done | waits
    · rcases List.mem_append.mp done with before | marked
      · exact .inl before
      · exact .inr (List.mem_singleton.mp marked ▸ List.mem_cons_self ..)
    · exact .inr (List.mem_cons_of_mem _ waits)
  shifted := by
    obtain ⟨early, late, taken, left, listed, first, unseen, handled, new⟩ := progress.shifted
    refine ⟨early, late, taken, left, listed, first, unseen, fun other member => ?_, new⟩
    rcases handled other member with waits | done
    · rcases List.mem_cons.mp waits with rfl | later
      · exact .inr (List.mem_append_right _ (List.mem_singleton_self _))
      · exact .inl later
    · exact .inr (List.mem_append_left _ done)

theorem Progress.idle (progress : Progress base limit [] account) : account.held = [] :=
  List.eq_nil_iff_forall_not_mem.mpr fun uid member =>
    absurd ((progress.held uid).mp member) List.not_mem_nil

theorem inbound_meets {α : Type} (transport : ImapSmtpTransport) [Unicode]
    {program : DearAgent.Code α} (asks : Asks ControlPlane.Looping program) (kept : Kept account) :
    Meets server may (transport.courier.inbound program) account fun after _ => Calm account after := by
  have asking : Asks (Steady []) (transport.courier.inbound program) :=
    transport.courier.asks_inbound (fun _ _ => ⟨trivial, fun _ => trivial⟩) asks
  exact steady_meets asking (fun _ member => absurd member List.not_mem_nil) (.refl kept)

theorem rounds_meet [Unicode] (transport : ImapSmtpTransport) (plane : ControlPlane)
    (recipient : Option Str) {polled : List Polled} (report : IngestReport)
    (distinct : (polled.map Polled.uid).Nodup)
    (progress : Progress base limit (polled.map Polled.uid) account) :
    Meets server may (transport.courier.ingestEach plane recipient polled report) account
      fun after outcome => ∀ ended, outcome = .ok ended → Progress base limit [] after := by
  let holds (waiting : List Polled) (account : Account) : Prop :=
    (waiting.map Polled.uid).Nodup ∧ Progress base limit (waiting.map Polled.uid) account
  have ingested : ∀ waiting s (program : DearAgent.Code IngestReport), holds waiting s →
      Asks ControlPlane.Looping program →
      Meets server may (transport.courier.inbound program) s fun after _ => holds waiting after := by
    intro waiting s program held asks
    apply (inbound_meets transport asks held.2.kept).post
    exact fun _ _ calm => ⟨held.1, held.2.calm calm⟩
  have marked : ∀ first rest s, holds (first :: rest) s →
      Meets server may (transport.courier.mark first) s fun after outcome =>
        outcome = .ok () ∧ holds rest after := by
    intro first rest s held
    obtain ⟨fresh, distinct⟩ := List.nodup_cons.mp held.1
    apply And.intro ((held.2.held first.uid).mpr List.mem_cons_self)
    intro _ s' answered
    obtain ⟨middle, arrives, processed⟩ := answered
    rw [show s' = middle.process first.uid from processed]
    exact ⟨rfl, distinct, (held.2.calm (arrives_calm held.2.kept arrives)).mark fresh⟩
  apply (transport.courier.rounds_meet plane recipient holds ingested marked report
    ⟨distinct, progress⟩).post
  intro after outcome ended report returned
  obtain ⟨waiting, held, none⟩ := ended
  rw [none report returned] at held
  exact held.2

theorem file_all_meets [Unicode] (transport : ImapSmtpTransport) (idle : base.held = [])
    (messages : List RawMessage) (calm : Calm base account) :
    Meets server may (transport.fileAll messages) account fun after _ => Calm base after := by
  induction messages generalizing account with
  | nil => exact calm
  | cons message rest ih =>
      have permitted : may account (.field (.popPending message.transportId)) := trivial
      refine ⟨permitted, fun reply after answered => ?_⟩
      have popped := calm.trans (server_calm calm.kept permitted answered (by simp) (by simp))
      cases reply with
      | none => exact ih popped
      | some uid =>
          obtain ⟨middle, arrives, found, _⟩ := answered
          have before := calm.trans (arrives_calm calm.kept arrives)
          have processed : uid ∈ base.processed := by
            have either := before.kept.pending message.transportId uid found.symm
            rw [before.held, idle, before.processed] at either
            simpa using either
          have asks : Asks (Steady [uid]) (exceptWhere Exn.isException
              (Client.move uid transport.doneMailbox) fun _ => .ret ()) :=
            asks_except (asks_move uid _) fun _ => trivial
          exact (steady_meets asks (fun other member => List.mem_singleton.mp member ▸ processed)
            popped).seq (fun _ _ calm => ih calm) fun _ _ calm => calm

theorem ack_meets [Unicode] (transport : ImapSmtpTransport) (messages : List RawMessage)
    (idle : base.held = []) (calm : Calm base account) :
    Meets server may (transport.ack messages) account fun after _ => Calm base after := by
  have steadily : ∀ {s : Account} {program : Code Unit}, Asks (Steady []) program → Calm base s →
      Meets server may program s fun after _ => Calm base after :=
    fun asks calm => steady_meets asks (fun _ member => by cases member) calm
  unfold ImapSmtpTransport.ack
  split_ifs
  · exact steadily asks_disconnect calm
  · have peeked : Asks (Steady []) (use .hasPending) := asks_field trivial
    refine (@steady_meets _ _ _ [] _ peeked (fun _ member => by cases member) calm).seq
      (fun s pending calm => ?_) fun _ _ calm => calm
    split_ifs
    · have body : Meets server may (do
          Client.select transport.mailbox
          transport.fileAll messages) s fun after _ => Calm base after :=
        (steadily (asks_select _) calm).seq
          (fun _ _ calm => file_all_meets transport idle messages calm) fun _ _ calm => calm
      refine body.finally fun s' _ calm => (steadily asks_disconnect calm).post ?_
      exact fun after ended calm => ⟨fun _ => calm, fun _ _ => calm⟩
    · exact steadily asks_disconnect calm

theorem acknowledge_meets [Unicode] (transport : ImapSmtpTransport) (plane : ControlPlane)
    (messages : List RawMessage) (kept : Kept account) (idle : account.held = []) :
    Meets server may (transport.courier.inbound (plane.acknowledge messages)) account
      fun after _ => Calm account after :=
  transport.courier.acknowledge_meets plane (Calm account)
    ((meets_settle _ _ _).mpr (ack_meets transport messages idle (.refl kept))) (.refl kept)

theorem pass_meets [Unicode] (transport : ImapSmtpTransport) (plane : ControlPlane)
    (limit : Int) (recipient : Option Str) (kept : Kept base) (idle : base.held = []) :
    Meets server may (transport.pass plane limit recipient) base fun after outcome =>
      ∀ report, outcome = .ok report → Progress base limit [] after := by
  refine (poll_meets transport limit kept idle).seq (fun s polled polls => ?_)
    fun _ _ _ _ => by rintro ⟨⟩
  obtain ⟨progress, distinct⟩ := polls polled rfl
  refine (rounds_meet transport plane recipient {} distinct progress).seq
    (fun s' report ended => ?_) fun _ _ _ _ => by rintro ⟨⟩
  have done := ended report rfl
  refine (acknowledge_meets transport plane _ done.kept done.idle).seq (fun after _ calm => ?_)
    fun _ _ _ _ => by rintro ⟨⟩
  exact fun _ _ => done.calm calm

end Rounds

/-!
## Runs
-/

section Stops

/-- No message is fetched and not yet processed. -/
def EmptyHanded (account : Account) : Prop := account.held = []

structure Between (account : Account) : Prop where
  kept : Kept account
  accounted : Accounted account
  idle : account.held = []

theorem stopped_kept {stop : Account} (kept : Kept stop) (idle : stop.held = []) (died : Bool) :
    Kept (stop.stopped died) := by
  unfold Account.stopped
  split_ifs
  · refine ⟨kept.distinct, kept.numbered, fun uid taken => kept.handled uid ?_, kept.deleted, ?_⟩
    · simpa [idle] using taken
    · intro transportId uid found
      cases found
  · exact idle ▸ kept

theorem empty_between : Between {} where
  kept := by
    refine ⟨List.nodup_nil, ?_, ?_, ?_, ?_⟩
    · exact fun _ member => absurd member List.not_mem_nil
    · exact fun _ taken => taken.elim (absurd · List.not_mem_nil) (absurd · List.not_mem_nil)
    · exact fun _ member => absurd member List.not_mem_nil
    · rintro _ _ ⟨⟩
  accounted := fun _ member => absurd member List.not_mem_nil
  idle := rfl

end Stops

section Runs

variable [Unicode] {transport : ImapSmtpTransport} {account after : Account} {limit : Int}

/-- Mail comes in, or a pass begins and is over wherever it stopped: at its end,
with an exception, or because the process died. -/
inductive Step (transport : ImapSmtpTransport) (safe : Account → Prop) : Account → Account → Prop
  | deliver {account : Account} (seen : Bool) : Step transport safe account (account.deliver seen)
  | pass {account stop : Account} (plane : ControlPlane) (limit : Int) (recipient : Option Str)
      (died : Bool) (reached : Reaches server (transport.pass plane limit recipient) account stop)
      (allowed : safe stop) : Step transport safe account (stop.stopped died)

inductive Passes (transport : ImapSmtpTransport) (limit : Int) : Nat → Account → Account → Prop
  | none (account : Account) : Passes transport limit 0 account account
  | pass {n : Nat} {account middle after : Account} {plane : ControlPlane}
      {recipient : Option Str} {trace : List (Exchange signature)} {report : IngestReport}
      (completed : Exec server (transport.pass plane limit recipient) account trace
        (.ok report) middle)
      (later : Passes transport limit n middle after) :
      Passes transport limit (n + 1) account after

theorem step_between (between : Between account) (step : Step transport EmptyHanded account after) :
    Between after := by
  cases step with
  | deliver seen =>
      have calm := deliver_calm seen between.kept
      exact ⟨calm.kept, calm.accounted between.accounted, between.idle⟩
  | @pass stop plane limit recipient died reached allowed =>
      have invariant := (pass_meets transport plane limit recipient between.kept
        between.idle).reaches reached
        (fun request s reply s' (both : Kept s ∧ Accounted s) permitted answered =>
          (server_keeps both.1 permitted answered).imp_right fun keeps => keeps both.2)
        ⟨between.kept, between.accounted⟩
      refine ⟨stopped_kept invariant.1 allowed died, ?_, by unfold Account.stopped; split_ifs <;> rfl⟩
      have empty : stop.held = [] := allowed
      have accounted := invariant.2
      unfold Account.stopped
      split_ifs
      · exact empty ▸ accounted
      · exact empty ▸ accounted

theorem run_between (run : Relation.ReflTransGen (Step transport EmptyHanded) account after)
    (between : Between account) : Between after := by
  induction run with
  | refl => exact between
  | tail _ step ih => exact step_between ih step

theorem passes_remember {n : Nat} {uid : Uid} (kept : Kept account) (idle : account.held = [])
    (passes : Passes transport limit n account after) (processed : uid ∈ account.processed) :
    uid ∈ after.processed := by
  induction passes with
  | none account => exact processed
  | @pass n account middle after plane recipient trace report completed later ih =>
      have progress :=
        (pass_meets transport plane limit recipient kept idle).sound completed report rfl
      exact ih progress.kept progress.idle (progress.remains uid processed)

/-- One pass that comes to its end: a listed message is processed, or has as many
fewer before it as the pass took. -/
theorem completed_advances {plane : ControlPlane} {recipient : Option Str}
    {trace : List (Exchange signature)} {report : IngestReport} {uid : Uid} {front back : List Uid}
    (kept : Kept account) (idle : account.held = []) (positive : 0 ≤ limit)
    (completed : Exec server (transport.pass plane limit recipient) account trace (.ok report) after)
    (listed : account.unseen = front ++ uid :: back) :
    uid ∈ after.processed ∨
      limit.toNat ≤ front.length ∧
        ∃ back', after.unseen = front.drop limit.toNat ++ uid :: back' := by
  have progress := (pass_meets transport plane limit recipient kept idle).sound completed report rfl
  obtain ⟨early, late, taken, left, parts, first, unseen, handled, _⟩ := progress.shifted
  have processed : ∀ uid ∈ taken, uid ∈ after.processed := fun uid member =>
    (handled uid member).resolve_left List.not_mem_nil
  have head : taken = (front ++ uid :: (back ++ early)).take limit.toNat := by
    rw [first, ← parts, listed]
    simp [sliceTo, positive]
  have tail : left = (front ++ uid :: (back ++ early)).drop limit.toNat := by
    have whole : front ++ uid :: (back ++ early) = taken ++ left := by
      rw [← parts, listed]
      simp
    have same := List.take_append_drop limit.toNat (front ++ uid :: (back ++ early))
    rw [← head, whole] at same
    rw [whole]
    exact (List.append_cancel_left same).symm
  by_cases near : front.length < limit.toNat
  · left
    refine processed uid ?_
    rw [head, List.take_append]
    refine List.mem_append_right _ ?_
    obtain ⟨n, more⟩ := Nat.exists_eq_add_of_lt near
    rw [more, show front.length + n + 1 - front.length = n + 1 by omega]
    exact List.mem_cons_self ..
  · right
    refine ⟨Nat.le_of_not_lt near, back ++ early ++ late, ?_⟩
    rw [unseen, tail, List.drop_append_of_le_length (Nat.le_of_not_lt near)]
    simp

theorem passes_process {n : Nat} {uid : Uid} {front back : List Uid} (kept : Kept account)
    (idle : account.held = []) (positive : 0 ≤ limit)
    (listed : account.unseen = front ++ uid :: back)
    (passes : Passes transport limit n account after) (near : front.length < n * limit.toNat) :
    uid ∈ after.processed := by
  induction passes generalizing front back with
  | none account => omega
  | @pass n account middle after plane recipient trace report completed later ih =>
      have progress :=
        (pass_meets transport plane limit recipient kept idle).sound completed report rfl
      rcases completed_advances kept idle positive completed listed with processed | ⟨far, back', still⟩
      · exact passes_remember progress.kept progress.idle later processed
      · refine ih progress.kept progress.idle still ?_
        rw [List.length_drop]
        rw [Nat.succ_mul] at near
        omega

/-- As long as no pass stops with messages in its hands, every message that came
in unseen and is not processed yet is listed, and passes that come to their end
process it in its turn. -/
theorem unprocessed_mail_is_polled (transport : ImapSmtpTransport) {account : Account}
    (run : Relation.ReflTransGen (Step transport EmptyHanded) {} account) (uid : Uid)
    (arrived : uid ∈ account.delivered) (waiting : uid ∉ account.processed) :
    uid ∈ account.unseen ∧
      ∀ (limit : Int) (n : Nat) (after : Account) (front back : List Uid), 0 ≤ limit →
        Passes transport limit n account after → account.unseen = front ++ uid :: back →
        front.length < n * limit.toNat → uid ∈ after.processed := by
  have between := run_between run empty_between
  refine ⟨?_, fun limit n after front back positive passes listed near =>
    passes_process between.kept between.idle positive listed passes near⟩
  have somewhere := between.accounted uid arrived
  rw [between.idle] at somewhere
  exact somewhere.resolve_right fun elsewhere =>
    elsewhere.elim (absurd · List.not_mem_nil) (absurd · waiting)

/-- A message no pass will ever list again. -/
structure Lost (uid : Uid) (account : Account) : Prop where
  kept : Kept account
  idle : account.held = []
  known : uid < account.uidNext
  seen : uid ∉ account.unseen
  unprocessed : uid ∉ account.processed

theorem passes_lose {n : Nat} {uid : Uid} (lost : Lost uid account)
    (passes : Passes transport limit n account after) : uid ∉ after.processed := by
  induction passes with
  | none account => exact lost.unprocessed
  | @pass n account middle after plane recipient trace report completed later ih =>
      have progress :=
        (pass_meets transport plane limit recipient lost.kept lost.idle).sound completed report rfl
      refine ih ⟨progress.kept, progress.idle, Nat.lt_of_lt_of_le lost.known progress.uidNext, ?_,
        fun processed => ?_⟩
      · intro listed
        obtain ⟨early, late, taken, left, parts, _, unseen, _, new, newer⟩ := progress.shifted
        rw [unseen] at listed
        rcases List.mem_append.mp listed with before | then_
        · have among : uid ∈ account.unseen ++ early := parts.symm ▸ List.mem_append_right _ before
          rcases List.mem_append.mp among with already | arrival
          · exact lost.seen already
          · exact absurd lost.known (Nat.not_lt.mpr (new uid arrival))
        · exact absurd lost.known (Nat.not_lt.mpr (newer uid then_))
      · rcases progress.known uid (.inl processed) with before | already | arrival
        · exact lost.unprocessed before
        · exact lost.seen already
        · exact absurd lost.known (Nat.not_lt.mpr arrival)

end Runs

section Stopped

local instance mailTables : Unicode := asciiTables

/-- A server that carries out what it is asked, in a system that denies every message. -/
def denying : (request : signature.Request) → Account → signature.Reply request × Account
  | .command .openConnection, account | .command .login, account | .command .logout, account
  | .command (.create _), account => (.ok (), account)
  | .command (.select _), account | .command (.copy _ _), account => (.ok true, account)
  | .command .closeMailbox, account | .command .expunge, account => (.ok (), account.expunged)
  | .command .searchUnseen, account => (.ok (true, account.unseen), account)
  | .command (.fetch uid), account => (.ok ⟨true, some [UInt8.ofNat uid]⟩, account.see uid)
  | .command (.storeDeleted uid), account => (.ok (), account.delete uid)
  | .command (.parseMessage raw), account =>
      (.ok ({ transportId := raw.map fun byte => Char.ofNat byte.toNat }, { time := 0 }), account)
  | .field .conn, account => (account.conn, account)
  | .field (.setConn value), account => ((), { account with conn := value })
  | .field .connected, account => (account.connected, account)
  | .field (.setConnected value), account => ((), { account with connected := value })
  | .field .hasPending, account => (!account.pending.entries.isEmpty, account)
  | .field (.setPending transportId uid), account =>
      ((), { account with pending := account.pending.set transportId uid })
  | .field (.popPending transportId), account =>
      (account.pending.get transportId,
        { account with pending := account.pending.erase transportId })
  | .port _, account => (.error (.unauthorizedSender none), account)
  | .processed uid, account => ((), account.process uid)

theorem denying_answers (request : signature.Request) (account : Account) :
    server request account (denying request account).1 (denying request account).2 := by
  refine ⟨account, .refl, ?_⟩
  cases request with
  | command asked =>
      cases asked with
      | searchUnseen =>
          apply And.intro rfl
          intro uids same
          cases same
          rfl
      | closeMailbox => exact .inl rfl
      | fetch uid => exact .inl rfl
      | storeDeleted uid => exact .inl rfl
      | expunge => exact .inl rfl
      | _ => rfl
  | field used =>
      cases used with
      | conn => exact ⟨rfl, rfl⟩
      | connected => exact ⟨rfl, rfl⟩
      | hasPending => exact ⟨rfl, rfl⟩
      | popPending transportId => exact ⟨rfl, rfl⟩
      | _ => rfl
  | port request => rfl
  | processed uid => rfl

def passOf (limit : Int) : Code IngestReport :=
  ImapSmtpTransport.pass {} { gate := true, ack := true } limit none

def onePass (account : Account) : List (Exchange signature) × Except Exn IngestReport × Account :=
  run denying (passOf 1) account

theorem one_pass_returns (account : Account) (ended : (onePass account).2.1.isOk = true) :
    ∃ report, Exec server (passOf 1) account (onePass account).1 (.ok report) (onePass account).2.2 := by
  have executed := exec_run server denying denying_answers (passOf 1) account
  cases outcome : (onePass account).2.1 with
  | ok report => exact ⟨report, outcome ▸ executed⟩
  | error error =>
      rw [outcome] at ended
      cases ended

def threeMessages : Account := ((Account.deliver {} false).deliver false).deliver false

/-- The process dies while it files the first of two messages: it is flagged as deleted and not
expunged yet. A fourth one comes in. -/
def interrupted : Account :=
  ((stopAfter denying 28 (passOf 2) threeMessages).stopped true).deliver false

/-- The messages that were not fetched are listed, and two passes of one message process them. -/
theorem unfetched_mail_is_listed :
    4 ∈ interrupted.unseen ∧ 4 ∈ (onePass (onePass interrupted).2.2).2.2.processed := by
  have came : Relation.ReflTransGen (Step {} EmptyHanded) {} threeMessages :=
    ((Relation.ReflTransGen.single (.deliver false)).tail (.deliver false)).tail (.deliver false)
  have handed : EmptyHanded (stopAfter denying 28 (passOf 2) threeMessages) :=
    show (stopAfter denying 28 (passOf 2) threeMessages).held = [] by decide
  have stopped := reaches_stop server denying denying_answers 28 (passOf 2) threeMessages
  have run : Relation.ReflTransGen (Step {} EmptyHanded) {} interrupted :=
    (came.tail (.pass _ 2 none true stopped handed)).tail (.deliver false)
  have listed := unprocessed_mail_is_polled {} run 4 (by decide) (by decide)
  apply And.intro listed.1
  obtain ⟨_, first⟩ := one_pass_returns interrupted (by decide)
  obtain ⟨_, second⟩ := one_pass_returns (onePass interrupted).2.2 (by decide)
  exact listed.2 1 2 _ [3] [] (by decide) (.pass first (.pass second (.none _))) (by decide)
    (by decide)

theorem reaches_ask {α : Type} {request : Request} {next : request.Reply → Code α}
    {account middle stop : Account} (reply : request.Reply)
    (answers : Answers request account reply middle)
    (later : Reaches server (next reply) middle stop) :
    Reaches server (.ask request next) account stop :=
  .inr ⟨reply, middle, ⟨account, .refl, answers⟩, later⟩

def oneMessage : Account := Account.deliver {} false

/-- The process dies between `FETCH` and the parsing: the message is flagged, nobody
has processed it, and no pass ever will. -/
theorem fetched_mail_is_lost : ∃ account : Account,
    Relation.ReflTransGen (Step {} fun _ => True) {} account ∧ 1 ∈ account.delivered ∧
      1 ∉ account.unseen ∧ ∀ (limit : Int) (n : Nat) (after : Account),
        Passes {} limit n account after → 1 ∉ after.processed := by
  let connected : Account := { oneMessage with conn := true, connected := true }
  have polled : Reaches server (ImapSmtpTransport.pass {} {} 50 none) oneMessage
      (connected.see 1) := by
    refine reaches_ask false ⟨rfl, rfl⟩ ?_
    refine reaches_ask (Except.ok ()) rfl ?_
    refine reaches_ask () rfl ?_
    refine reaches_ask (Except.ok ()) rfl ?_
    refine reaches_ask () rfl ?_
    refine reaches_ask true ⟨rfl, rfl⟩ ?_
    refine reaches_ask (Except.ok true) rfl ?_
    refine reaches_ask true ⟨rfl, rfl⟩ ?_
    refine reaches_ask (Except.ok (true, [1])) ⟨rfl, ?_⟩ ?_
    · rintro _ ⟨⟩
      rfl
    · refine reaches_ask true ⟨rfl, rfl⟩ ?_
      exact reaches_ask (Except.ok ⟨true, some [104, 105]⟩) (.inl rfl) (.inl rfl)
  refine ⟨(connected.see 1).stopped true,
    (Relation.ReflTransGen.single (.deliver false)).tail (.pass {} 50 none true polled trivial),
    by decide, by decide, fun limit n after passes => passes_lose ⟨?_, rfl, by decide, by decide,
      by decide⟩ passes⟩
  refine ⟨by decide, by decide, ?_, by decide, ?_⟩
  · exact fun _ taken => taken.elim (absurd · List.not_mem_nil) (absurd · List.not_mem_nil)
  · rintro _ _ ⟨⟩

end Stopped

end DearAgent.Imap
