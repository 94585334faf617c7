import DearAgent.Auth.Gates
import DearAgent.ControlPlane.Splits

/-!
# Mail that is denied

A batch with messages that a rate-limited gate denies and the batch without
them leave the same stores and the same mail. The limiter remembers a denied
sender in another way at most as far as it will never look again.
-/

namespace DearAgent.ControlPlane

open DearAgent.Lib.Text DearAgent.Lib.Effects DearAgent.Queue

set_option autoImplicit false

abbrev Timed := RawMessage × Instant

section Verdicts

variable [Unicode] [HmacSha256] (gate : LimitedGate)

def admission (timed : Timed) (seen : Seen) : Except Exn Unit × Seen :=
  LimitedGate.admit gate timed.1.body timed.1.headers timed.1.sender timed.2 seen

def verdicts : List Timed → Seen → List (Except Exn Unit)
  | [], _ => []
  | timed :: rest, seen => (admission gate timed seen).1 :: verdicts rest (admission gate timed seen).2

def denies : Except Exn Unit → Bool
  | .error error => error.isAuthError
  | .ok _ => false

def kept : List Timed → Seen → List Timed
  | [], _ => []
  | timed :: rest, seen =>
      if denies (admission gate timed seen).1 then kept rest (admission gate timed seen).2
      else timed :: kept rest (admission gate timed seen).2

def Ordered (timed : List Timed) : Prop := timed.Pairwise fun first later => first.2 ≤ later.2

instance (timed : List Timed) : Decidable (Ordered timed) :=
  inferInstanceAs (Decidable (timed.Pairwise fun first later => first.2 ≤ later.2))

/-- Everybody is treated alike from the last of these readings on. -/
def SameAfter (readings : List Instant) (seen seen' : Seen) : Prop :=
  ∀ now, (∀ reading ∈ readings, reading ≤ now) → gate.rateLimiter.SameFrom now seen seen'

variable {gate} {readings : List Instant} {seen seen' : Seen} {timed : Timed}

theorem admission_same (same : SameAfter gate readings seen seen')
    (ordered : ∀ reading ∈ readings, reading ≤ timed.2) :
    (admission gate timed seen).1 = (admission gate timed seen').1 ∧
      SameAfter gate (readings ++ [timed.2]) (admission gate timed seen).2
        (admission gate timed seen').2 := by
  have both : (admission gate timed seen).1 = (admission gate timed seen').1 ∧
      gate.rateLimiter.SameFrom timed.2 (admission gate timed seen).2
        (admission gate timed seen').2 := LimitedGate.admit_same (same timed.2 ordered)
  refine ⟨both.1, fun now later => ?_⟩
  have last := later timed.2 (List.mem_append_right _ List.mem_cons_self)
  exact both.2.after last

theorem denied_same (same : SameAfter gate readings seen seen')
    (denied : denies (admission gate timed seen).1 = true) :
    SameAfter gate (readings ++ [timed.2]) (admission gate timed seen).2 seen' := by
  intro now later
  have last := later timed.2 (List.mem_append_right _ List.mem_cons_self)
  have before := same now fun reading member => later reading (List.mem_append_left _ member)
  cases said : (admission gate timed seen).1 with
  | error error => exact ((LimitedGate.refused_same said).after last).trans before
  | ok _ =>
      rw [said] at denied
      cases denied

omit [Unicode] [HmacSha256] in
theorem behind_next {next : Timed} {rest : List Timed}
    (first : ∀ timed ∈ rest, next.2 ≤ timed.2)
    (later : ∀ reading ∈ readings, ∀ timed ∈ next :: rest, reading ≤ timed.2) :
    ∀ reading ∈ readings ++ [next.2], ∀ timed ∈ rest, reading ≤ timed.2 := by
  intro reading member timed among
  rcases List.mem_append.mp member with earlier | last
  · exact later reading earlier timed (List.mem_cons_of_mem _ among)
  · rw [List.mem_singleton.mp last]
    exact first timed among

theorem verdicts_same {upcoming : List Timed} (same : SameAfter gate readings seen seen')
    (ordered : Ordered upcoming) (later : ∀ reading ∈ readings, ∀ timed ∈ upcoming, reading ≤ timed.2) :
    verdicts gate upcoming seen = verdicts gate upcoming seen' := by
  induction upcoming generalizing readings seen seen' with
  | nil => rfl
  | cons timed rest ih =>
      have both := admission_same same fun reading member =>
        later reading member timed List.mem_cons_self
      have split := List.pairwise_cons.mp ordered
      unfold verdicts
      rw [both.1]
      congr 1
      exact ih both.2 split.2 (behind_next split.1 later)

theorem kept_undenied {timed : List Timed} (same : SameAfter gate readings seen seen')
    (ordered : Ordered timed) (later : ∀ reading ∈ readings, ∀ other ∈ timed, reading ≤ other.2) :
    ∀ verdict ∈ verdicts gate (kept gate timed seen) seen', denies verdict = false := by
  induction timed generalizing readings seen seen' with
  | nil => simp [kept, verdicts]
  | cons first rest ih =>
      have split := List.pairwise_cons.mp ordered
      have behind := behind_next split.1 later
      unfold kept
      split_ifs with denied
      · exact ih (denied_same same denied) split.2 behind
      · have both := admission_same same fun reading member =>
          later reading member first List.mem_cons_self
        intro verdict member
        rcases List.mem_cons.mp member with own | among
        · rw [own, ← both.1]
          exact Bool.eq_false_iff.mpr denied
        · exact ih both.2 split.2 behind verdict among

end Verdicts

section Rounds

variable [Unicode]

/-- An office with a rate-limited gate, and the readings of its clock. -/
def ratedOffice [HmacSha256] (gate : LimitedGate) (office : Office Unit) : Office (Seen × List Instant) where
  admission body headers sender state :=
    let admitted := LimitedGate.admit gate body headers sender (state.2.headD 0) state.1
    (admitted.1, admitted.2, state.2.tail)
  policies := office.policies
  policyForRepo := office.policyForRepo
  judges := office.judges
  judged := office.judged
  delivers := office.delivers

def Gateless : Request → Prop
  | .admission _ _ _ => False
  | _ => True

theorem asks_handle {allowed : Request → Prop} (taking : ∀ request, Taking request → allowed request)
    (deciding : ∀ request, Deciding request → allowed request) (plane : ControlPlane)
    (recipient : Option Str) (report : IngestReport) (message : RawMessage) :
    Asks allowed (plane.handle recipient report message) := by
  unfold handle
  split
  · apply asks_bind (asks_decision deciding plane _ _ _)
    intro decided
    split_ifs <;> trivial
  · exact asks_intake taking plane _ _ _

end Rounds

section Beside

variable {Q : QueueBackend} {A : ApprovalBackend} {G : Type} {office : Office G}
  {desk after : Desk Q A G} {request : Request} {reply : ports.Reply request}

theorem surroundings_gateless (gateless : Gateless request) (gate : G)
    (answered : office.surroundings request desk reply after) :
    after.gate = desk.gate ∧
      office.surroundings request { desk with gate := gate } reply { after with gate := gate } := by
  cases request with
  | queue op =>
      obtain ⟨world, served, rfl⟩ := answered
      exact ⟨rfl, world, served, rfl⟩
  | issue taskId action =>
      obtain ⟨issued, world, served, rfl⟩ := answered
      exact ⟨rfl, issued, world, served, rfl⟩
  | approvalOf token | redeem decided =>
      obtain ⟨world, served, rfl⟩ := answered
      exact ⟨rfl, world, served, rfl⟩
  | admission body headers sender => exact absurd gateless not_false
  | send message =>
      obtain ⟨delivers, rfl⟩ := answered
      by_cases sent : reply = .ok ()
      · rw [if_pos sent]
        exact ⟨rfl, delivers, (if_pos sent).symm⟩
      · rw [if_neg sent]
        exact ⟨rfl, delivers, (if_neg sent).symm⟩
  | listPolicies | policyForRepo repo | scan body | assess body | needsHuman text
  | record taskId kind data | ack messages =>
      obtain ⟨told, rfl⟩ := answered
      exact ⟨rfl, told, rfl⟩
  | _ =>
      obtain rfl : after = desk := answered
      exact ⟨rfl, rfl⟩

/-- The desks differ in what their gates remember. -/
def Beside (gate gate' : G) (desk desk' : Desk Q A G) : Prop :=
  desk.gate = gate ∧ desk' = { desk with gate := gate' }

theorem gateless_corresponds {α : Type} {program : Code α} (asks : Asks Gateless program)
    {gate gate' : G} {desk' : Desk Q A G} (beside : Beside gate gate' desk desk') :
    Corresponds office.surroundings program desk program desk'
      (fun s value s' value' => Beside gate gate' s s' ∧ value = value') (Beside gate gate') := by
  apply asks.corresponds beside
  · rintro request s s' reply after gateless ⟨kept, rfl⟩ answered
    have both := surroundings_gateless gateless gate' answered
    exact ⟨_, both.2, both.1.trans kept, rfl⟩
  · rintro request s s' reply after gateless ⟨kept, rfl⟩ answered
    have both := surroundings_gateless gateless gate answered
    have gated : after.gate = gate' := both.1
    refine ⟨{ after with gate := gate }, ?_, rfl, ?_⟩
    · have answers := both.2
      rw [← kept] at answers ⊢
      exact answers
    · rw [← gated]

end Beside

/-- Reports that agree on everything but who is denied. -/
def Undenied (report report' : IngestReport) : Prop :=
  { report with denied := [] } = { report' with denied := [] }

theorem Undenied.add {report report' : IngestReport} (undenied : Undenied report report')
    (added : IngestReport) : Undenied (report.add added) (report'.add added) := by
  unfold Undenied at undenied ⊢
  simp only [IngestReport.mk.injEq] at undenied
  obtain ⟨accepted, rejected, _, decided, suspicious, gated, needsHuman⟩ := undenied
  simp only [IngestReport.add, accepted, rejected, decided, suspicious, gated, needsHuman]

section Messages

variable [Unicode] {Q : QueueBackend} {A : ApprovalBackend} {G : Type} {office : Office G}
  {plane : ControlPlane} {recipient : Option Str} {message : RawMessage}
  {report report' : IngestReport} {desk desk' : Desk Q A G}

theorem denied_message {error : Exn} (denied : verdict plane office message desk.gate = .error error)
    (auth : error.isAuthError = true) :
    Meets office.surroundings (Serves office.surroundings)
      (plane.ingestMessage recipient report message) desk fun after outcome =>
        ∃ ended, outcome = .ok ended ∧ Undenied report ended ∧
          after = { desk with gate := gateAfter plane office message desk.gate } := by
  apply meets_message (fun _ _ served => served)
  · intro other said unauthorized
    obtain rfl : error = other := Except.error.inj (denied.symm.trans said)
    rw [auth] at unauthorized
    cases unauthorized
  · intro other said _
    apply (emit_looks _ _ _).meets_seq fun _ _ served => served
    intro _ _
    exact ⟨_, rfl, rfl, rfl⟩
  · intro said
    cases denied.symm.trans said

theorem raising_round {error : Exn} {rest : List RawMessage}
    (said : verdict plane office message desk.gate = .error error)
    (unauthorized : error.isAuthError = false) :
    Meets office.surroundings (Serves office.surroundings)
      (plane.ingestAll recipient (message :: rest) report) desk fun after outcome =>
        outcome = .error error ∧
          after = { desk with gate := gateAfter plane office message desk.gate } := by
  have raising : Meets office.surroundings (Serves office.surroundings)
      (plane.ingestMessage recipient report message) desk fun after outcome =>
        outcome = .error error ∧
          after = { desk with gate := gateAfter plane office message desk.gate } := by
    apply meets_message (fun _ _ served => served)
    · intro other told _
      obtain rfl : error = other := Except.error.inj (said.symm.trans told)
      exact ⟨rfl, rfl⟩
    · intro other told auth
      obtain rfl : error = other := Except.error.inj (said.symm.trans told)
      rw [auth] at unauthorized
      cases unauthorized
    · intro told
      cases said.symm.trans told
  apply raising.seq
  · rintro s value ⟨never, _⟩
    cases never
  · rintro s other ⟨same, ended⟩
    exact ⟨congrArg Except.error (Except.error.inj same), ended⟩

omit [Unicode] in
theorem authorize_passes (admitted : verdict plane office message desk.gate = .ok ()) :
    Meets office.surroundings (Serves office.surroundings) (plane.authorize message) desk
      fun after outcome => ∃ answer, outcome = .ok answer ∧ answer = .ok () ∧
        after = { desk with gate := gateAfter plane office message desk.gate } := by
  apply (authorize_meets message).post
  intro after outcome both
  rw [admitted] at both
  exact ⟨_, both.1, rfl, both.2⟩

theorem admitted_message (admitted : verdict plane office message desk.gate = .ok ())
    (admitted' : verdict plane office message desk'.gate = .ok ())
    (world : desk'.world = desk.world) (sent : desk'.sent = desk.sent)
    (undenied : Undenied report report') :
    Corresponds office.surroundings (plane.ingestMessage recipient report message) desk
      (plane.ingestMessage recipient report' message) desk'
      (fun s ended s' ended' => Beside (gateAfter plane office message desk.gate)
        (gateAfter plane office message desk'.gate) s s' ∧ Undenied ended ended')
      (Beside (gateAfter plane office message desk.gate)
        (gateAfter plane office message desk'.gate)) := by
  rw [ingest_message_eq, ingest_message_eq]
  apply (authorize_passes admitted).corresponds_left
  rintro s _ ⟨rfl, rfl⟩
  apply (authorize_passes admitted').corresponds_right
  rintro s' _ ⟨rfl, rfl⟩
  have listed : report'.suspicious = report.suspicious :=
    (congrArg IngestReport.suspicious undenied).symm
  have gateless := @asks_handle _ Gateless (fun request taking => by cases request <;> trivial)
    (fun request deciding => by cases request <;> trivial) plane recipient report message
  obtain ⟨additions, same⟩ :=
    @handle_adds plane message (report.suspicious.contains message.transportId) _ recipient
  have adds : plane.handle recipient report message =
      additions >>= fun added => .ret (report.add added) := same report rfl
  have adds' : plane.handle recipient report' message =
      additions >>= fun added => .ret (report'.add added) :=
    same report' (congrArg (fun ids : List Str => ids.contains message.transportId) listed)
  rw [adds] at gateless
  simp only
  rw [adds, adds']
  have beside : Beside (gateAfter plane office message desk.gate)
      (gateAfter plane office message desk'.gate)
      { desk with gate := gateAfter plane office message desk.gate }
      { desk' with gate := gateAfter plane office message desk'.gate } := by
    refine ⟨rfl, ?_⟩
    rw [world, sent]
  apply (gateless_corresponds gateless.first beside).bind
  rintro s added s' _ ⟨besides, rfl⟩
  exact corresponds_ret ⟨besides, undenied.add added⟩

end Messages

section Batches

variable [Unicode] [HmacSha256] {Q : QueueBackend} {A : ApprovalBackend} {gate : LimitedGate}
  {office : Office Unit} {plane : ControlPlane} {recipient : Option Str}
  {report report' : IngestReport}

/-- The stores and the mail are the same, and what is left of the readings comes
after those the gates agree on. -/
structure Unseen (gate : LimitedGate) (readings : List Instant)
    (final final' : Desk Q A (Seen × List Instant)) : Prop where
  world : final'.world = final.world
  sent : final'.sent = final.sent
  later : ∃ consumed, readings = consumed ++ final.gate.2 ∧
    SameAfter gate consumed final.gate.1 final'.gate.1

theorem verdict_rated (limited : plane.gate = true) (timed : Timed) (seen : Seen)
    (rest : List Instant) :
    verdict plane (ratedOffice gate office) timed.1 (seen, timed.2 :: rest) =
      (admission gate timed seen).1 := by
  unfold verdict
  rw [if_pos limited]
  rfl

theorem gate_after_rated (limited : plane.gate = true) (timed : Timed) (seen : Seen)
    (rest : List Instant) :
    gateAfter plane (ratedOffice gate office) timed.1 (seen, timed.2 :: rest) =
      ((admission gate timed seen).2, rest) := by
  unfold gateAfter
  rw [if_pos limited]
  rfl

theorem batch_corresponds (limited : plane.gate = true) {timed : List Timed}
    {consumed : List Instant} {seen seen' : Seen} (same : SameAfter gate consumed seen seen')
    (ordered : Ordered timed) (behind : ∀ reading ∈ consumed, ∀ other ∈ timed, reading ≤ other.2)
    (undenied : Undenied report report') (world : World Q A) (sent : List OutboundMessage) :
    Corresponds (ratedOffice gate office).surroundings
      (plane.ingestAll recipient (timed.map Prod.fst) report)
      ⟨world, (seen, timed.map Prod.snd), sent⟩
      (plane.ingestAll recipient ((kept gate timed seen).map Prod.fst) report')
      ⟨world, (seen', (kept gate timed seen).map Prod.snd), sent⟩
      (fun s ended s' ended' =>
        Unseen gate (consumed ++ timed.map Prod.snd) s s' ∧ Undenied ended ended')
      (Unseen gate (consumed ++ timed.map Prod.snd)) := by
  induction timed generalizing consumed seen seen' report report' world sent with
  | nil => exact corresponds_ret ⟨⟨rfl, rfl, consumed, rfl, same⟩, undenied⟩
  | cons first rest ih =>
      have split := List.pairwise_cons.mp ordered
      have further := behind_next split.1 behind
      have readings : consumed ++ (first :: rest).map Prod.snd =
          (consumed ++ [first.2]) ++ rest.map Prod.snd := by simp
      have both := admission_same same fun reading member =>
        behind reading member first List.mem_cons_self
      have asked := @verdict_rated _ _ gate office plane limited first seen (rest.map Prod.snd)
      have left := @gate_after_rated _ _ gate office plane limited first seen (rest.map Prod.snd)
      have asked' := @verdict_rated _ _ gate office plane limited first seen'
        ((kept gate rest (admission gate first seen).2).map Prod.snd)
      have left' := @gate_after_rated _ _ gate office plane limited first seen'
        ((kept gate rest (admission gate first seen).2).map Prod.snd)
      rw [← both.1] at asked'
      rw [readings]
      unfold kept
      cases said : (admission gate first seen).1 with
      | error error =>
          rw [said] at asked asked'
          cases auth : error.isAuthError with
          | true =>
              have denied : denies (.error error) = true := auth
              rw [if_pos denied]
              rw [← said] at denied
              apply Meets.corresponds_left (denied_message asked auth)
              rintro s ended ⟨unlisted, rfl⟩
              have next := ih (denied_same same denied) split.2 further
                (unlisted.symm.trans undenied) world sent
              rw [← left] at next
              exact next
          | false =>
              have admitted : ¬denies (.error error) = true := by
                rw [Bool.not_eq_true]
                exact auth
              rw [if_neg admitted]
              apply Meets.corresponds_raised (raising_round asked auth) (raising_round asked' auth)
              rintro s s' rfl rfl
              refine ⟨rfl, rfl, consumed ++ [first.2], ?_, ?_⟩
              · change _ = _ ++ (gateAfter _ _ _ (seen, first.2 :: rest.map Prod.snd)).2
                rw [left]
              · change SameAfter _ _ (gateAfter _ _ _ (seen, first.2 :: rest.map Prod.snd)).1
                  (gateAfter _ _ _ (seen', first.2 :: _)).1
                rw [left, left']
                exact both.2
      | ok _ =>
          rw [said] at asked asked'
          have admitted : ¬denies (.ok ()) = true := by simp [denies]
          rw [if_neg admitted]
          have round := @admitted_message _ Q A _ (ratedOffice gate office) plane recipient first.1
            report report' ⟨world, (seen, first.2 :: rest.map Prod.snd), sent⟩
            ⟨world, (seen', first.2 :: (kept gate rest (admission gate first seen).2).map Prod.snd),
              sent⟩ asked asked' rfl rfl undenied
          apply (round.mono (fun _ _ _ _ ended => ended) ?_).bind
          · rintro s ended s' ended' ⟨⟨gated, rfl⟩, alike⟩
            obtain ⟨world, state, sent⟩ := s
            have next := ih both.2 split.2 further alike world sent
            rw [← left, ← left'] at next
            rw [← gated] at next
            exact next
          · rintro s s' ⟨gated, rfl⟩
            refine ⟨rfl, rfl, consumed ++ [first.2], ?_, ?_⟩
            · rw [gated]
              change _ = _ ++ (gateAfter _ _ _ (seen, first.2 :: rest.map Prod.snd)).2
              rw [left]
            · rw [gated]
              change SameAfter _ _ (gateAfter _ _ _ (seen, first.2 :: rest.map Prod.snd)).1
                (gateAfter _ _ _ (seen', first.2 :: _)).1
              rw [left, left']
              exact both.2

/-- The stores and the mail are the same, and nobody who comes later is told otherwise. -/
structure Invisible (gate : LimitedGate) (readings : List Instant)
    (final final' : Desk Q A (Seen × List Instant)) : Prop where
  world : final'.world = final.world
  sent : final'.sent = final.sent
  later : ∀ (consumed : List Instant) (upcoming : List Timed),
    readings = consumed ++ final.gate.2 → Ordered upcoming →
    (∀ reading ∈ consumed, ∀ timed ∈ upcoming, reading ≤ timed.2) →
    verdicts gate upcoming final.gate.1 = verdicts gate upcoming final'.gate.1

theorem Unseen.invisible {readings : List Instant} {final final' : Desk Q A (Seen × List Instant)}
    (unseen : Unseen gate readings final final') : Invisible gate readings final final' := by
  refine ⟨unseen.world, unseen.sent, fun consumed upcoming shape ordered behind => ?_⟩
  obtain ⟨used, split, same⟩ := unseen.later
  obtain rfl : used = consumed := List.append_cancel_right (split.symm.trans shape)
  exact verdicts_same same ordered behind

/-- With or without the messages that are denied, `ingest` comes to the same. -/
theorem denied_mail_invisible (limited : plane.gate = true) (timed : List Timed)
    (ordered : Ordered timed) (seen : Seen) (world : World Q A) (sent : List OutboundMessage) :
    Corresponds (ratedOffice gate office).surroundings
      (plane.ingest (timed.map Prod.fst) recipient) ⟨world, (seen, timed.map Prod.snd), sent⟩
      (plane.ingest ((kept gate timed seen).map Prod.fst) recipient)
      ⟨world, (seen, (kept gate timed seen).map Prod.snd), sent⟩
      (fun s report s' report' => Invisible gate (timed.map Prod.snd) s s' ∧ Undenied report report')
      (Invisible gate (timed.map Prod.snd)) ∧
    ∀ verdict ∈ verdicts gate (kept gate timed seen) seen, denies verdict = false := by
  have same : SameAfter gate [] seen seen := fun now _ => .refl now seen
  refine ⟨?_, kept_undenied same ordered (by simp)⟩
  have loops := @batch_corresponds _ _ Q A gate office plane recipient {} {} limited timed [] seen seen
    same ordered (by simp) rfl world sent
  apply (loops.mono (fun _ _ _ _ ended => ended) fun _ _ unseen => unseen.invisible).bind
  rintro s report s' report' ⟨unseen, undenied⟩
  apply (acknowledge_looks (timed.map Prod.fst)).passes.corresponds_left
  rintro s _ ⟨rfl, _⟩
  apply (acknowledge_looks ((kept gate timed seen).map Prod.fst)).passes.corresponds_right
  rintro s' _ ⟨rfl, _⟩
  exact corresponds_ret ⟨unseen.invisible, undenied⟩

end Batches

section Example

open DearAgent.Work

local instance deniedTables : Unicode := asciiTables

/-- No signature is checked here. -/
local instance deniedDigest : HmacSha256 := ⟨fun _ _ => []⟩

def hourlyGate : LimitedGate := .rateLimited { rateLimiter := ⟨1, 3600000000, by decide⟩ }

def crowdedBatch : List Timed :=
  [(widgetMessage, 0), ({ strayMessage with sender := some "other@example.com" }, 5),
    (widgetMessage, 7)]

example : (kept hourlyGate crowdedBatch .empty).length = 2 := by decide

theorem crowded_batch_invisible :
    Corresponds (ratedOffice hourlyGate (plainOffice jmapSend)).surroundings
      (ControlPlane.ingest { gate := true } (crowdedBatch.map Prod.fst) none)
      ⟨emptyDesk.world, (.empty, crowdedBatch.map Prod.snd), []⟩
      (ControlPlane.ingest { gate := true } ((kept hourlyGate crowdedBatch .empty).map Prod.fst) none)
      ⟨emptyDesk.world, (.empty, (kept hourlyGate crowdedBatch .empty).map Prod.snd), []⟩
      (fun s report s' report' =>
        Invisible hourlyGate (crowdedBatch.map Prod.snd) s s' ∧ Undenied report report')
      (Invisible hourlyGate (crowdedBatch.map Prod.snd)) ∧
    ∀ verdict ∈ verdicts hourlyGate (kept hourlyGate crowdedBatch .empty) .empty,
      denies verdict = false := by
  have same := @denied_mail_invisible _ _ _ _ hourlyGate (plainOffice jmapSend) { gate := true } none
    rfl crowdedBatch (by decide) .empty emptyDesk.world []
  exact same

end Example

end DearAgent.ControlPlane
