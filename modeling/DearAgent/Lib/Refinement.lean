import DearAgent.Lib.Interleaving

/-!
# Refinement of interleaved programs

A program on one kind of state refines a program on another where each makes its requests in
step with the other: whatever the surroundings answer the first, in related states, they can
answer the second, and the states stay related. What processes do together on the one kind of
state is then what processes can do together on the other.
-/

namespace DearAgent.Lib.Interleaving

open DearAgent.Lib.Effects

set_option autoImplicit false

variable {S S' : Signature} {O O' σ σ' α β γ δ : Type} {env : Env S σ} {env' : Env S' σ'}
  {related : σ → σ' → Prop}

/-- The first program makes its requests in step with the second one, raises nothing and ends
with a value that stands for that of the second one. -/
def Refines (env : Env S σ) (env' : Env S' σ') (related : σ → σ' → Prop) (means : α → β → Prop) :
    Program S α → Program S' β → Prop
  | .ret value, .ret value' => means value value'
  | .ask request next, .ask request' next' => ∀ state state' reply after, related state state' →
      env request state reply after → ∃ reply' after', env' request' state' reply' after' ∧
        related after after' ∧ Refines env env' related means (next reply) (next' reply')
  | _, _ => False

theorem Refines.bind {means : α → β → Prop} {means' : γ → δ → Prop} {program : Program S α}
    {program' : Program S' β} {next : α → Program S γ} {next' : β → Program S' δ}
    (refines : Refines env env' related means program program')
    (rest : ∀ value value', means value value' →
      Refines env env' related means' (next value) (next' value')) :
    Refines env env' related means' (program >>= next) (program' >>= next') := by
  induction program generalizing program' with
  | ret value =>
      cases program' with
      | ret value' => exact rest value value' refines
      | raise error => exact refines.elim
      | ask request later => exact refines.elim
  | raise error => cases program' <;> exact refines.elim
  | ask request later ih =>
      cases program' with
      | ret value' => exact refines.elim
      | raise error => exact refines.elim
      | ask request' later' =>
          intro state state' reply after together answered
          have ⟨reply', after', answered', kept, more⟩ := refines state state' reply after together answered
          exact ⟨reply', after', answered', kept, ih reply more⟩

theorem Refines.dropped {means : α → β → Prop} {program : Program S α} {program' : Program S' β}
    (refines : Refines env env' related means program program') :
    Refines env env' related (fun _ _ => True) (dropValue program) (dropValue program') :=
  refines.bind fun _ _ _ => trivial

theorem Refines.returns {means : α → β → Prop} {program : Program S α} {program' : Program S' β}
    (refines : Refines env env' related means program program') (error : S.Raised) :
    program ≠ .raise error := by
  intro raised
  subst raised
  cases program' <;> exact refines.elim

/-- Two configurations whose processes are in step, number by number. -/
structure InStep (env : Env S σ) (env' : Env S' σ') (related : σ → σ' → Prop) (meant : O → O')
    (c : Config S O σ) (c' : Config S' O' σ') : Prop where
  states : related c.shared c'.shared
  count : c'.processes.length = c.processes.length
  processes : ∀ (pid : Nat) (process : Process S O), c.processes[pid]? = some process →
    ∃ process' : Process S' O', c'.processes[pid]? = some process' ∧ process'.operation = meant process.operation ∧
      Refines env env' related (fun _ _ => True) process.program process'.program

section Steps

variable {start : O → Program S Unit} {start' : O' → Program S' Unit} {meant : O → O'}
  {c : Config S O σ} {c' : Config S' O' σ'}

theorem InStep.launch (together : InStep env env' related meant c c')
    (programs : ∀ operation, Refines env env' related (fun _ _ => True) (start operation)
      (start' (meant operation))) (operation : O) :
    InStep env env' related meant (c.launch start operation) (c'.launch start' (meant operation)) := by
  constructor
  · exact together.states
  · unfold Config.launch
    simp only [List.length_append, List.length_singleton, together.count]
  · intro pid process found
    cases process_after_launch found with
    | inl old =>
        have ⟨process', found', same, refines⟩ := together.processes pid process old
        have bound := (List.getElem?_eq_some_iff.mp found').1
        have kept : (c'.launch start' (meant operation)).processes[pid]? = some process' := by
          unfold Config.launch
          rw [List.getElem?_append_left bound]
          exact found'
        exact ⟨process', kept, same, refines⟩
    | inr new =>
        have ⟨number, shape⟩ := new
        subst number shape
        have last : (c'.launch start' (meant operation)).processes[c.processes.length]? =
            some ⟨meant operation, start' (meant operation)⟩ := by
          unfold Config.launch
          rw [← together.count, List.getElem?_concat_length]
        exact ⟨_, last, rfl, programs operation⟩

theorem InStep.turn (together : InStep env env' related meant c c') {entry : Entry S O}
    {next : S.Reply entry.event.1 → Program S Unit} {shared : σ}
    (scheduled : c.processes[entry.pid]? = some ⟨entry.operation, .ask entry.event.1 next⟩)
    (answered : env entry.event.1 c.shared entry.event.2 shared) :
    ∃ (entry' : Entry S' O') (next' : S'.Reply entry'.event.1 → Program S' Unit) (shared' : σ'),
      c'.processes[entry'.pid]? = some ⟨entry'.operation, .ask entry'.event.1 next'⟩ ∧
      env' entry'.event.1 c'.shared entry'.event.2 shared' ∧
      entry'.pid = entry.pid ∧ entry'.operation = meant entry.operation ∧
      InStep env env' related meant (c.after entry (next entry.event.2) shared)
        (c'.after entry' (next' entry'.event.2) shared') := by
  have ⟨process', found', same, refines⟩ := together.processes entry.pid _ scheduled
  have ⟨operation', program'⟩ := process'
  cases program' with
  | ret value => exact refines.elim
  | raise error => exact refines.elim
  | ask request' next' =>
      have ⟨reply', shared', answered', kept, more⟩ :=
        refines c.shared c'.shared entry.event.2 shared together.states answered
      have acting := (List.getElem?_eq_some_iff.mp scheduled).1
      have acting' := (List.getElem?_eq_some_iff.mp found').1
      refine ⟨⟨entry.pid, operation', ⟨request', reply'⟩⟩, next', shared', found', answered', rfl,
        same, kept, ?_, ?_⟩
      · unfold Config.after
        simp only [List.length_set, together.count]
      · intro pid process found
        cases process_after_turn acting found with
        | inl other =>
            have ⟨later', still, named, step⟩ := together.processes pid process other.2
            have unmoved : (c'.after ⟨entry.pid, operation', ⟨request', reply'⟩⟩ (next' reply')
                shared').processes[pid]? = some later' := by
              unfold Config.after
              rw [List.getElem?_set_ne other.1]
              exact still
            exact ⟨later', unmoved, named, step⟩
        | inr own =>
            have ⟨number, shape⟩ := own
            subst number shape
            have moved : (c'.after ⟨entry.pid, operation', ⟨request', reply'⟩⟩ (next' reply')
                shared').processes[entry.pid]? = some ⟨operation', next' reply'⟩ := by
              unfold Config.after
              rw [List.getElem?_set_self acting']
            exact ⟨_, moved, same, more⟩

end Steps

end DearAgent.Lib.Interleaving
