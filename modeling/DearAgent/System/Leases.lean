import DearAgent.System.Terminal

/-!
# Leases and the final transition

A transition compares the state of the task and nothing else. What an executor
can rely on when it ends its task follows from the ways the task can have gone
since its claim: it is still in the period of that claim, or it was released,
waits to be claimed or was claimed again, or it was ended.
-/

namespace DearAgent

open DearAgent.Lib.Text DearAgent.Lib.Effects DearAgent.Lib.Interleaving DearAgent.Queue

set_option autoImplicit false

abbrev Turns := History ports Operation

def ClaimOf (id : Str) (entry : Entry ports Operation) : Prop :=
  Work.claimedId entry.event = some id

instance (id : Str) : DecidablePred (ClaimOf id) := fun entry =>
  inferInstanceAs (Decidable (Work.claimedId entry.event = some id))

def ReleaseOf (id : Str) (entry : Entry ports Operation) : Prop :=
  match entry.event with
  | ⟨.queue (.releaseStale _), .ok released⟩ => ∃ task ∈ released, task.id = id
  | _ => False

/-- The latest period in which the task ran was started by a claim of the process. -/
def OwnPeriod (history : Turns) (pid : Nat) (id : Str) : Prop :=
  ∃ before claim after, history = before ++ claim :: after ∧ claim.pid = pid ∧ ClaimOf id claim ∧
    ∀ entry ∈ after, ¬ClaimOf id entry ∧ ¬ReleaseOf id entry

/-- The task was released after a claim of the process. -/
def ReleasedSince (history : Turns) (pid : Nat) (id : Str) : Prop :=
  ∃ before claim after, history = before ++ claim :: after ∧ claim.pid = pid ∧ ClaimOf id claim ∧
    ∃ release ∈ after, ReleaseOf id release

/-- The state of a task that the process claimed once. -/
inductive Tenure (history : Turns) (pid : Nat) (id : Str) : TaskState → Prop
  | held (period : OwnPeriod history pid id) : Tenure history pid id .running
  | lost (released : ReleasedSince history pid id) : Tenure history pid id .queued
  | taken (other : Nat) (released : ReleasedSince history pid id)
      (period : OwnPeriod history other id) : Tenure history pid id .running
  | past (state : TaskState) (terminal : state.terminal = true) : Tenure history pid id state

section Periods

variable {history : Turns} {entry : Entry ports Operation} {pid : Nat} {id : Str}

theorem OwnPeriod.later (period : OwnPeriod history pid id) (unclaimed : ¬ClaimOf id entry)
    (unreleased : ¬ReleaseOf id entry) : OwnPeriod (history ++ [entry]) pid id := by
  obtain ⟨before, claim, after, rfl, same, claims, quiet⟩ := period
  refine ⟨before, claim, after ++ [entry], by simp, same, claims, fun other member => ?_⟩
  rcases List.mem_append.mp member with early | last
  · exact quiet other early
  · rw [List.mem_singleton.mp last]
    exact ⟨unclaimed, unreleased⟩

theorem ReleasedSince.later (released : ReleasedSince history pid id)
    (entry : Entry ports Operation) : ReleasedSince (history ++ [entry]) pid id := by
  obtain ⟨before, claim, after, rfl, same, claims, release, member, releases⟩ := released
  exact ⟨before, claim, after ++ [entry], by simp, same, claims, release,
    List.mem_append_left _ member, releases⟩

theorem OwnPeriod.released (period : OwnPeriod history pid id) (releases : ReleaseOf id entry) :
    ReleasedSince (history ++ [entry]) pid id := by
  obtain ⟨before, claim, after, rfl, same, claims, _⟩ := period
  exact ⟨before, claim, after ++ [entry], by simp, same, claims, entry,
    List.mem_append_right _ (List.mem_singleton_self _), releases⟩

theorem OwnPeriod.last (period : OwnPeriod history pid id) :
    (history.reverse.find? fun entry => ClaimOf id entry).map Entry.pid = some pid := by
  obtain ⟨before, claim, after, rfl, same, claims, quiet⟩ := period
  have silent : after.reverse.find? (fun entry => decide (ClaimOf id entry)) = none := by
    rw [List.find?_eq_none]
    intro entry member
    simpa using (quiet entry (List.mem_reverse.mp member)).1
  rw [List.reverse_append, List.reverse_cons, List.append_assoc, List.find?_append, silent,
    Option.none_or]
  simp [claims, same]

theorem claim_touches {op : QueueOp} {reply : op.Reply}
    (claimed : Work.claimedId ⟨.queue op, reply⟩ = some id) : Touches id op reply := by
  cases op with
  | claim task lease =>
      cases reply with
      | error error => cases claimed
      | ok taken =>
          cases taken with
          | false => cases claimed
          | true => exact Option.some.inj claimed
  | claimNext lease =>
      cases reply with
      | error error => cases claimed
      | ok taken =>
          cases taken with
          | none => cases claimed
          | some task => exact Option.some.inj claimed
  | _ => cases claimed

theorem Tenure.later {state : TaskState} (tenure : Tenure history pid id state)
    (unclaimed : ¬ClaimOf id entry) (unreleased : ¬ReleaseOf id entry) :
    Tenure (history ++ [entry]) pid id state := by
  cases tenure with
  | held period => exact .held (period.later unclaimed unreleased)
  | lost released => exact .lost (released.later entry)
  | taken other released period =>
      exact .taken other (released.later entry) (period.later unclaimed unreleased)
  | past state terminal => exact .past state terminal

end Periods

section Turns

variable {Q : QueueBackend} {A : ApprovalBackend}

variable [Unicode] [Sha256]

end Turns

section Example

open DearAgent.Work

end Example

end DearAgent
