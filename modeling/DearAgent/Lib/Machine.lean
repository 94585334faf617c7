import Mathlib.Tactic.Common

/-!
# Machines

A machine takes an action in a state, or cannot take it there. A run is a list of
actions that are taken one after the other; what every action preserves, where it
is taken under a condition, holds at the end of a run whose every action meets it.
-/

namespace DearAgent.Lib.Machines

set_option autoImplicit false

variable {σ α : Type}

abbrev Machine (σ α : Type) := σ → α → Option σ

namespace Machine

variable (machine : Machine σ α)

def drive : List α → σ → Option σ
  | [], state => some state
  | action :: rest, state => (machine state action).bind (drive rest)

/-- Every action is taken in a state that meets a condition. -/
def Guarded (guard : σ → α → Prop) : List α → σ → Prop
  | [], _ => True
  | action :: rest, state => guard state action ∧
      match machine state action with
      | some after => Guarded guard rest after
      | none => True

instance decidableGuarded (guard : σ → α → Prop) [∀ state action, Decidable (guard state action)] :
    (actions : List α) → (state : σ) → Decidable (machine.Guarded guard actions state)
  | [], _ => .isTrue trivial
  | action :: rest, state =>
      let _ : Decidable (match machine state action with
          | some after => machine.Guarded guard rest after
          | none => True) :=
        match machine state action with
        | some after => decidableGuarded guard rest after
        | none => .isTrue trivial
      inferInstanceAs (Decidable (guard state action ∧ _))

variable {machine}

theorem drive_cons {action : α} {rest : List α} {state final : σ}
    (driven : machine.drive (action :: rest) state = some final) :
    ∃ after, machine state action = some after ∧ machine.drive rest after = some final :=
  Option.bind_eq_some_iff.mp driven

theorem invariant {inv : σ → Prop} {guard : σ → α → Prop}
    (kept : ∀ state action after, inv state → guard state action →
      machine state action = some after → inv after)
    {actions : List α} {state final : σ} (begins : inv state)
    (guarded : machine.Guarded guard actions state)
    (driven : machine.drive actions state = some final) : inv final := by
  induction actions generalizing state with
  | nil =>
      obtain rfl := Option.some.inj driven
      exact begins
  | cons action rest ih =>
      obtain ⟨after, taken, later⟩ := drive_cons driven
      obtain ⟨held, onward⟩ := guarded
      rw [taken] at onward
      exact ih (kept state action after begins held taken) onward later

end Machine

end DearAgent.Lib.Machines
