import DearAgent.Lib.Transactions

/-!
# The resilient connection

`db.py`: a connection that is opened again when it reports that it is closed, and
a cursor that runs a failed statement once more on a fresh connection. Changes
that went down with the old connection are not made again.
-/

namespace DearAgent.Db

open DearAgent.Lib.Effects DearAgent.Lib.Transactions

set_option autoImplicit false

variable {E : Type} {L : Lib.Transactions.Language E}

abbrev Linked (L : Lib.Transactions.Language E) (α : Type) := Program (link L) α

namespace ResilientConnection

def live : Linked L Unit := do
  let closed ← .ask .closed .ret
  if closed then .ask .connect (@unwrap (link L) _) else .ret ()

/-- `_reconnect`. An exception of `close` is suppressed. -/
def reconnect : Linked L Unit := .ask .close fun _ => .ret ()

def cursor : Linked L Unit := live

def commit : Linked L Unit := do
  live
  .ask .commit (@unwrap (link L) _)

end ResilientConnection

def execute (statement : L.Statement) : Linked L (L.Result statement) :=
  exceptWhere L.operational (.ask (.execute statement) (@unwrap (link L) _)) fun _ => do
    ResilientConnection.reconnect
    ResilientConnection.live
    .ask (.execute statement) (@unwrap (link L) _)

def resilient : (request : SessionRequest L) → Linked L ((session L).Reply request)
  | .cursor => settle ResilientConnection.cursor
  | .execute statement => settle (execute statement)
  | .commit => settle ResilientConnection.commit

def resiliently {α : Type} (program : Session L α) : Linked L α := @through (session L) (link L) α resilient id program

section Meeting

/-- Programs that are run as long as nothing is committed after a loss of changes. -/
abbrev Leads {α : Type} (program : Linked L α) (l : Link L)
    (post : Link L → Except E α → Prop) : Prop :=
  Meets (lossyWhole L) (fun _ _ => True) program l post

/-- Where an exception gets out, the connection has no changes. -/
def Settled {α : Type} (after : Link L) (outcome : Except E α) : Prop :=
  ∀ error, outcome = .error error → after.seen = after.durable

theorem settled_ok {α : Type} (after : Link L) (value : α) : Settled after (.ok value) := by
  rintro _ ⟨⟩

theorem live_carries {l : Link L} (undone : l.Undone) :
    Leads ResilientConnection.live l fun after outcome =>
      Carries l after ∧ Settled after outcome := by
  refine ⟨trivial, fun closed after answered => ?_⟩
  obtain ⟨before, carries, _, ⟨rfl, told⟩, _⟩ := lossy_cases answered
  change Meets _ _ (if closed = true then _ else _) _ _
  split_ifs with reported
  · have notLive : after.status ≠ .live := by
      intro live
      rw [live, reported] at told
      cases told
    refine ⟨trivial, fun reply final connected => ?_⟩
    obtain ⟨middle, faded, gone, served, _⟩ := lossy_cases connected
    have carried := carries.trans faded
    rcases served with ⟨rfl, rfl⟩ | ⟨⟨error, rfl⟩, rfl⟩
    · exact ⟨carried.trans (carries_opened (gone notLive) (carried.undone undone)),
        settled_ok _ _⟩
    · exact ⟨carried, fun _ _ => carried.undone undone (.inr (gone notLive))⟩
  · exact ⟨carries, settled_ok _ _⟩

/-- What a statement did, unless changes were dropped: it saw the tables and left
them to the transaction. -/
structure Executes (statement : L.Statement) (l after : Link L) (result : L.Result statement) :
    Prop where
  undone : after.Undone
  dropped : l.dropped → after.dropped
  seen : ¬after.dropped → L.run statement l.seen = .ok (result, after.seen)

/-- The end of a statement: it was executed, or failed with the connection, or
an exception of another kind gets out. -/
structure Executed (statement : L.Statement) (l after : Link L)
    (outcome : Except E (L.Result statement)) : Prop where
  durable : after.durable = l.durable
  returned : ∀ result, outcome = .ok result → Executes statement l after result
  lost : ∀ error, outcome = .error error → L.operational error = true → Carries l after
  settled : Settled after outcome

theorem raw_execute (statement : L.Statement) {start l : Link L} (carries : Carries start l)
    (undone : start.Undone) :
    Leads (.ask (.execute statement) (@unwrap (link L) _)) l (Executed statement start) := by
  refine ⟨trivial, fun reply after answered => ?_⟩
  obtain ⟨before, faded, _, served, _⟩ := lossy_cases answered
  have carried := carries.trans faded
  simp only [Answers] at served
  split_ifs at served with live
  · rcases served with ⟨unfailed, result, tables, ran, rfl, rfl⟩ | ⟨⟨error, other, rfl⟩, rfl⟩
    · refine ⟨carried.durable, ?_, by rintro _ ⟨⟩, settled_ok _ _⟩
      rintro _ ⟨⟩
      refine ⟨?_, carried.dropped, fun kept => carried.seen kept ▸ ran⟩
      rintro (aborted | gone)
      · exact absurd aborted (by simp [unfailed])
      · exact absurd live gone
    · refine ⟨carried.durable, by rintro _ ⟨⟩, ?_, fun _ _ => rfl⟩
      rintro _ ⟨⟩ operational
      rw [other] at operational
      cases operational
  · obtain ⟨⟨error, _, rfl⟩, rfl⟩ := served
    exact ⟨carried.durable, by rintro _ ⟨⟩, fun _ _ _ => carried,
      fun _ _ => carried.undone undone (.inr live)⟩

theorem execute_leads (statement : L.Statement) {l : Link L} (undone : l.Undone) :
    Leads (execute statement) l (Executed statement l) := by
  refine (meets_catch _ _ _ _).mpr ((raw_execute statement (.refl l) undone).post ?_)
  intro after outcome executed
  cases outcome with
  | ok result => exact executed
  | error error =>
      change Meets _ _ (if L.operational error = true then _ else _) _ _
      split_ifs with operational
      · refine ⟨trivial, fun _ closed answered => ?_⟩
        obtain ⟨before, faded, _, rfl, _⟩ := lossy_cases answered
        have carries : Carries l (before.gone .absent) :=
          ((executed.lost error rfl operational).trans faded).trans (carries_gone before .absent)
        refine (live_carries (carries.undone undone)).seq (fun fresh _ kept => ?_)
          fun fresh error kept => ?_
        · exact raw_execute statement (carries.trans kept.1) undone
        · exact ⟨(carries.trans kept.1).durable, by rintro _ ⟨⟩,
            fun _ _ _ => carries.trans kept.1, fun _ _ => kept.2 error rfl⟩
      · exact executed

/-- The end of a commit: everything that was seen is durable now, or nothing changed. -/
structure Committed (l after : Link L) (outcome : Except E Unit) : Prop where
  whole : outcome = .ok () → ¬l.dropped ∧ after.durable = l.seen
  failed : ∀ error, outcome = .error error → after.durable = l.durable
  clean : after.seen = after.durable

theorem commit_leads {l : Link L} (undone : l.Undone) :
    Leads ResilientConnection.commit l (Committed l) := by
  refine (live_carries undone).seq (fun opened _ carries => ⟨trivial, fun reply after answered => ?_⟩)
    fun after error carries => ⟨by rintro ⟨⟩, fun _ _ => carries.1.durable, carries.2 error rfl⟩
  obtain ⟨before, faded, _, served, whole⟩ := lossy_cases answered
  have carried := carries.1.trans faded
  simp only [Answers] at served
  split_ifs at served with live
  · obtain ⟨rfl, rfl⟩ := served
    have seen := carried.seen whole
    have kept : ¬l.dropped := fun dropped => whole (carried.dropped dropped)
    unfold Link.committed
    split_ifs with aborted
    · have durable := carried.undone undone (.inl aborted)
      exact ⟨fun _ => ⟨kept, durable.symm.trans seen⟩, by rintro _ ⟨⟩, rfl⟩
    · exact ⟨fun _ => ⟨kept, seen⟩, by rintro _ ⟨⟩, rfl⟩
  · obtain ⟨⟨error, _, rfl⟩, rfl⟩ := served
    exact ⟨by rintro ⟨⟩, fun _ _ => carried.durable, carried.undone undone (.inr live)⟩

variable {α β : Type}

theorem leads_request {carried : Linked L β} {next : Except E β → Session L α} {l : Link L}
    {middle : Link L → Except E β → Prop} {post : Link L → Except E α → Prop}
    (raises : ∀ error, next (.error error) = .raise error) (leads : Leads carried l middle)
    (returned : ∀ after value, middle after (.ok value) →
      Leads (resiliently (next (.ok value))) after post)
    (failed : ∀ after error, middle after (.error error) → post after (.error error)) :
    Leads (settle carried >>= fun reply => resiliently (next reply)) l post := by
  refine (meets_bind _ _ _ _).mpr ((meets_settle _ _ _).mpr (leads.post ?_))
  intro after outcome reached
  cases outcome with
  | ok value => exact returned after value reached
  | error error =>
      change Meets _ _ (resiliently (next (.error error))) after post
      rw [raises]
      exact failed after error reached

/-- The session raised, and nothing of it is durable or waits to be. -/
structure Fails (durable : L.Tables) (after : Link L) (outcome : Except E α) : Prop where
  raised : ∃ error, outcome = .error error
  durable : after.durable = durable
  clean : after.seen = after.durable

theorem fails_of_settled {durable : L.Tables} {after : Link L} {error : E}
    (same : after.durable = durable) (clean : after.seen = after.durable) :
    Fails durable after (.error error : Except E α) := ⟨⟨error, rfl⟩, same, clean⟩

/-- Once changes went down with a connection, the session raises and leaves the
durable tables as they are. -/
theorem dropped_fails {ends : Session L α → Prop} {program : Session L α}
    (shape : Transaction ends program) {l : Link L} (undone : l.Undone) (dropped : l.dropped) :
    Leads (resiliently program) l (Fails l.durable) := by
  induction shape using Transaction.parts generalizing l with
  | cursor next raises rest ih =>
      refine leads_request raises (live_carries undone) (fun after _ kept => ?_)
        fun after error kept => fails_of_settled kept.1.durable (kept.2 error rfl)
      rw [← kept.1.durable]
      exact ih (kept.1.undone undone) (kept.1.dropped dropped)
  | execute statement next raises rest ih =>
      refine leads_request raises (execute_leads statement undone) (fun after result ran => ?_)
        fun after error ran => fails_of_settled ran.durable (ran.settled error rfl)
      have executes := ran.returned result rfl
      rw [← ran.durable]
      exact ih result executes.undone (executes.dropped dropped)
  | commit next raises ended =>
      refine leads_request raises (commit_leads undone) (fun after _ committed => ?_)
        fun after error committed => fails_of_settled (committed.failed error rfl) committed.clean
      exact absurd dropped (committed.whole rfl).1

/-- The end of a session: as it would be without any loss, or an exception and
nothing changed. -/
def Ends (expected : Except E α × L.Tables) (durable : L.Tables) (after : Link L)
    (outcome : Except E α) : Prop :=
  ((outcome, after.durable) = expected ∧ after.seen = after.durable) ∨ Fails durable after outcome

theorem transaction_leads {ends : Session L α → Prop} (ending : ∀ program, ends program → Ended program)
    {program : Session L α} (shape : Transaction ends program) {l : Link L} (undone : l.Undone)
    (kept : ¬l.dropped) :
    Leads (resiliently program) l (Ends (outcomeFrom program l.durable l.seen) l.durable) := by
  induction shape using Transaction.parts generalizing l with
  | cursor next raises rest ih =>
      refine leads_request raises (live_carries undone) (fun after _ carried => ?_)
        fun after error carried =>
          .inr (fails_of_settled carried.1.durable (carried.2 error rfl))
      have carries := carried.1
      rw [← carries.durable]
      by_cases lost : after.dropped
      · exact (dropped_fails rest (carries.undone undone) lost).post fun _ _ fails => .inr fails
      · change Leads _ _ (Ends (outcomeFrom (next (.ok ())) _ l.seen) _)
        rw [← carries.seen lost]
        exact ih (carries.undone undone) lost
  | execute statement next raises rest ih =>
      refine leads_request raises (execute_leads statement undone) (fun after result ran => ?_)
        fun after error ran => .inr (fails_of_settled ran.durable (ran.settled error rfl))
      have executes := ran.returned result rfl
      rw [← ran.durable]
      by_cases lost : after.dropped
      · exact (dropped_fails (rest result) executes.undone lost).post fun _ _ fails => .inr fails
      · rw [outcome_execute (executes.seen lost)]
        exact ih result executes.undone lost
  | commit next raises ended =>
      refine leads_request raises (commit_leads undone) (fun after _ committed => ?_)
        fun after error committed =>
          .inr (fails_of_settled (committed.failed error rfl) committed.clean)
      have durable := (committed.whole rfl).2
      change Meets _ _ (resiliently (next (.ok ()))) after
        (Ends (outcomeFrom (next (.ok ())) l.seen l.seen) l.durable)
      rcases ending _ ended with ⟨value, same⟩ | ⟨error, same⟩
      · rw [same]
        exact .inl ⟨congrArg (Prod.mk _) durable, committed.clean⟩
      · rw [same]
        exact .inl ⟨congrArg (Prod.mk _) durable, committed.clean⟩

end Meeting

end DearAgent.Db
