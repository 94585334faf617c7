import Mathlib.Tactic.Common
import Mathlib.Data.List.Basic

/-!
# Runs and their pasts

A run is a list of items that lead from state to state. An item may be judged by the items
before it; what an item has to meet for its verdict is then met throughout the run exactly
if every verdict is.
-/

namespace DearAgent.Lib.Histories

set_option autoImplicit false

variable {σ α : Type}

/-- The items lead from the first state to the last one. -/
def Leads (step : σ → α → σ → Prop) : σ → List α → σ → Prop
  | state, [], final => final = state
  | state, item :: rest, final => ∃ middle, step state item middle ∧ Leads step middle rest final

/-- Every item is fine with those before it. -/
def Throughout (fine : List α → α → Prop) (items : List α) : Prop :=
  ∀ earlier item later, items = earlier ++ item :: later → fine earlier item

theorem throughout_nil (fine : List α → α → Prop) : Throughout fine [] := by
  intro earlier item later shape
  cases earlier <;> cases shape

theorem throughout_cons (fine : List α → α → Prop) (first : α) (rest : List α) :
    Throughout fine (first :: rest) ↔
      fine [] first ∧ Throughout (fun earlier => fine (first :: earlier)) rest := by
  constructor
  · intro throughout
    apply And.intro (throughout [] first rest rfl)
    intro earlier item later shape
    apply throughout (first :: earlier) item later
    rw [shape, List.cons_append]
  · intro both earlier item later shape
    have ⟨opening, others⟩ := both
    cases earlier with
    | nil =>
        have ⟨same, _⟩ := List.cons.inj shape
        exact same ▸ opening
    | cons head earlier =>
        have ⟨same, more⟩ := List.cons.inj shape
        exact same ▸ others earlier item later more

variable {step : σ → α → σ → Prop} {kept met : List α → α → Prop} {sound : List α → σ → Prop}

/-- Where an item is fine exactly if it meets a condition, and a sound state follows if it
does, a run from a sound state is fine exactly if every item meets the condition. -/
theorem Leads.throughout_iff
    (judged : ∀ past state item after, sound past state → step state item after →
      (kept past item ↔ met past item) ∧ (met past item → sound (past ++ [item]) after))
    {past items : List α} {state final : σ} (begins : sound past state)
    (leads : Leads step state items final) :
    Throughout (fun earlier => kept (past ++ earlier)) items ↔
      Throughout (fun earlier => met (past ++ earlier)) items := by
  induction items generalizing past state with
  | nil => exact iff_of_true (throughout_nil _) (throughout_nil _)
  | cons item rest ih =>
      have ⟨middle, stepped, later⟩ := leads
      have ⟨own, onward⟩ := judged past state item middle begins stepped
      have longer : ∀ fine : List α → α → Prop,
          (fun earlier => fine (past ++ item :: earlier)) =
            fun earlier => fine ((past ++ [item]) ++ earlier) := by
        intro fine
        funext earlier
        rw [List.append_cons]
      rw [throughout_cons, throughout_cons, List.append_nil, own, longer, longer]
      apply and_congr_right
      intro meets
      exact ih (onward meets) later

theorem Leads.judged
    (rule : ∀ past state item after, sound past state → step state item after →
      (kept past item ↔ met past item) ∧ (met past item → sound (past ++ [item]) after))
    {items : List α} {state final : σ} (begins : sound [] state)
    (leads : Leads step state items final) : Throughout kept items ↔ Throughout met items :=
  leads.throughout_iff rule begins

/-- Where an item is fine behind a sound past and leaves a sound one, every item is fine. -/
theorem Leads.throughout {fine : List α → α → Prop}
    (rule : ∀ past state item after, sound past state → step state item after →
      fine past item ∧ sound (past ++ [item]) after)
    {items : List α} {state final : σ} (begins : sound [] state)
    (leads : Leads step state items final) : Throughout fine items := by
  have always : Throughout fine items ↔ Throughout (fun _ _ => True) items := by
    apply leads.judged _ begins
    intro past state item after holds stepped
    have ⟨own, onward⟩ := rule past state item after holds stepped
    exact ⟨iff_of_true own trivial, fun _ => onward⟩
  exact always.mpr fun _ _ _ _ => trivial

theorem Leads.each {p : α → Prop} {items : List α} {state final : σ}
    (leads : Leads step state items final) (each : ∀ item ∈ items, p item) :
    Leads (fun before item after => step before item after ∧ p item) state items final := by
  induction items generalizing state with
  | nil => exact leads
  | cons item rest ih =>
      have ⟨middle, stepped, later⟩ := leads
      have ⟨own, others⟩ := List.forall_mem_cons.mp each
      exact ⟨middle, ⟨stepped, own⟩, ih later others⟩

end DearAgent.Lib.Histories
