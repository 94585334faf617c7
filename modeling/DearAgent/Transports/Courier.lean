import DearAgent.ControlPlane

/-!
# Passes over a transport

`_handle_poll` is one poll and the ingest of what it returned, whatever the transport. The
acknowledgement is the transport's own, everything else the control plane asks is asked as it is.
A pass marks the end of each round of the loop of `ingest`, so that a stop between two rounds can
be told from one within a round; the marks are no requests of the code.
-/

namespace DearAgent

open DearAgent.Lib.Text DearAgent.Lib.Effects

set_option autoImplicit false

/-- What a pass uses of a transport, in the requests of its own. -/
structure Courier (S : Signature) (Polled : Type) where
  raised : Exn → S.Raised
  port : (request : Request) → Program S (Except Exn request.Result)
  poll : Int → Program S (List Polled)
  message : Polled → RawMessage
  mark : Polled → Program S Unit
  ack : List RawMessage → Program S (Except Exn Unit)

namespace Courier

variable {S : Signature} {Polled α β : Type} (courier : Courier S Polled)

def served : (request : Request) → Program S (Except Exn request.Result)
  | .ack messages => courier.ack messages
  | other => courier.port other

def inbound (program : Code α) : Program S α :=
  @through ports S α courier.served courier.raised program

theorem inbound_bind (program : Code α) (next : α → Code β) :
    courier.inbound (program >>= next) =
      courier.inbound program >>= fun value => courier.inbound (next value) :=
  through_bind _ _ program next

section Passes

variable [Unicode] (plane : ControlPlane) (recipient : Option Str)

def handlePoll (limit : Int) : Program S IngestReport := do
  let polled ← courier.poll limit
  courier.inbound (plane.ingest (polled.map courier.message) recipient)

/-- The loop of `ingest`, with a mark after each round. -/
def ingestEach : List Polled → IngestReport → Program S IngestReport
  | [], report => .ret report
  | polled :: rest, report => do
      let report ← courier.inbound (plane.ingestMessage recipient report (courier.message polled))
      courier.mark polled
      ingestEach rest report

/-- `_handle_poll` with the marks. -/
def pass (limit : Int) : Program S IngestReport := do
  let polled ← courier.poll limit
  let report ← courier.ingestEach plane recipient polled {}
  courier.inbound (plane.acknowledge (polled.map courier.message))
  .ret report

section Marks

variable {silent : (request : S.Request) → Option (S.Reply request)}
  (quiet : ∀ polled, erase silent (courier.mark polled) = .ret ())

include quiet

theorem erased_rounds (polled : List Polled) (report : IngestReport) :
    erase silent (courier.ingestEach plane recipient polled report) =
      erase silent (courier.inbound
        (plane.ingestAll recipient (polled.map courier.message) report)) := by
  induction polled generalizing report with
  | nil => rfl
  | cons first rest ih =>
      rw [List.map_cons, ControlPlane.ingestAll, inbound_bind, erase_bind, ingestEach, erase_bind]
      apply congrArg (bind _)
      funext report
      rw [erase_bind, quiet, ← ih report]
      rfl

theorem erased_pass (limit : Int) :
    erase silent (courier.pass plane recipient limit) =
      erase silent (courier.handlePoll plane recipient limit) := by
  unfold pass handlePoll ControlPlane.ingest
  rw [erase_bind, erase_bind]
  apply congrArg (bind _)
  funext polled
  rw [inbound_bind, erase_bind, erase_bind, courier.erased_rounds plane recipient quiet]
  apply congrArg (bind _)
  funext report
  rw [inbound_bind]
  rfl

end Marks

/-!
## What a pass asks
-/

section Asking

variable {allowed : S.Request → Prop}
  (asked : ∀ request, ControlPlane.Looping request → Asks allowed (courier.port request))

include asked

omit [Unicode] in
/-- Apart from an acknowledgement, the control plane asks nothing of the transport. -/
theorem asks_inbound {program : Code α} (asks : Asks ControlPlane.Looping program) :
    Asks allowed (courier.inbound program) := by
  apply asks_through asks
  intro request looping
  cases request with
  | ack messages => exact absurd looping not_false
  | _ => exact asked _ trivial

theorem asks_rounds (marked : ∀ polled, Asks allowed (courier.mark polled)) (polled : List Polled)
    (report : IngestReport) : Asks allowed (courier.ingestEach plane recipient polled report) := by
  induction polled generalizing report with
  | nil => trivial
  | cons first rest ih =>
      have ingests := courier.asks_inbound asked
        (plane.asks_message recipient report (courier.message first))
      apply asks_bind ingests
      intro report
      apply asks_bind (marked first)
      exact fun _ => ih report

end Asking

/-!
## What the rounds and the acknowledgement keep
-/

section Keeping

variable {σ : Type} {env : Env S σ} {may : σ → S.Request → Prop} {state : σ}

theorem rounds_meet (holds : List Polled → σ → Prop)
    (ingested : ∀ waiting s (program : Code IngestReport), holds waiting s →
      Asks ControlPlane.Looping program →
      Meets env may (courier.inbound program) s fun after _ => holds waiting after)
    (marked : ∀ first rest s, holds (first :: rest) s →
      Meets env may (courier.mark first) s fun after outcome =>
        outcome = .ok () ∧ holds rest after)
    {polled : List Polled} (report : IngestReport) (held : holds polled state) :
    Meets env may (courier.ingestEach plane recipient polled report) state fun after outcome =>
      ∃ waiting, holds waiting after ∧ ∀ ended, outcome = .ok ended → waiting = [] := by
  induction polled generalizing report state with
  | nil => exact ⟨[], held, fun _ _ => rfl⟩
  | cons first rest ih =>
      have ingests := ingested _ state _ held
        (plane.asks_message recipient report (courier.message first))
      apply ingests.seq
      · intro s report still
        apply (marked first rest s still).seq
        · exact fun _ _ later => ih report later.2
        · exact fun _ _ stopped => by cases stopped.1
      · exact fun _ _ still => ⟨_, still, fun _ same => by cases same⟩

omit [Unicode] in
theorem acknowledge_meets {messages : List RawMessage} (post : σ → Prop)
    (acked : Meets env may (courier.ack messages) state fun after _ => post after)
    (idle : post state) :
    Meets env may (courier.inbound (plane.acknowledge messages)) state fun after _ => post after := by
  unfold ControlPlane.acknowledge
  split_ifs
  · apply acked.seq
    · intro after outcome settled
      cases outcome with
      | ok value => exact settled
      | error error =>
          cases caught : error.isException with
          | true =>
              simp only [caught, if_true]
              exact settled
          | false =>
              simp only [caught]
              exact settled
    · exact fun _ _ settled => settled
  · exact idle

end Keeping

end Passes

end Courier

end DearAgent
