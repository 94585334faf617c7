import DearAgent.Lib.Effects

/-!
# Programs that do not tell replies apart

Two programs mirror each other, for replies that are taken to be similar, where they make
the same requests as long as the replies they get are similar, and end with related values
or with the same exception. Run in surroundings that give similar replies, they make the
same requests and leave the same state.
-/

namespace DearAgent.Lib.Effects

set_option autoImplicit false

section Mirroring

variable {S : Signature} {α β γ δ σ : Type}
  {similar : (request : S.Request) → S.Reply request → S.Reply request → Prop}

inductive Mirrors (similar : (request : S.Request) → S.Reply request → S.Reply request → Prop)
    (related : α → β → Prop) : Program S α → Program S β → Prop
  | ret (value : α) (value' : β) (holds : related value value') :
      Mirrors similar related (.ret value) (.ret value')
  | raise (error : S.Raised) : Mirrors similar related (.raise error) (.raise error)
  | ask (request : S.Request) (next : S.Reply request → Program S α)
      (next' : S.Reply request → Program S β)
      (later : ∀ reply reply', similar request reply reply' →
        Mirrors similar related (next reply) (next' reply')) :
      Mirrors similar related (.ask request next) (.ask request next')

variable {related : α → β → Prop} {program : Program S α} {program' : Program S β}

theorem Mirrors.bind {after : γ → δ → Prop} {next : α → Program S γ} {next' : β → Program S δ}
    (mirrors : Mirrors similar related program program')
    (rest : ∀ value value', related value value' → Mirrors similar after (next value) (next' value')) :
    Mirrors similar after (program >>= next) (program' >>= next') := by
  induction mirrors with
  | ret value value' holds => exact rest value value' holds
  | raise error => exact .raise error
  | ask request first first' _ ih => exact .ask request _ _ ih

theorem Mirrors.finally {cleanup : Program S Unit} {cleanup' : Program S Unit}
    (mirrors : Mirrors similar related program program')
    (cleaned : Mirrors similar Eq cleanup cleanup') :
    Mirrors similar related (andFinally program cleanup) (andFinally program' cleanup') := by
  induction mirrors with
  | ret value value' holds => exact cleaned.bind fun _ _ _ => .ret value value' holds
  | raise error => exact cleaned.bind fun _ _ _ => .raise error
  | ask request first first' _ ih => exact .ask request _ _ ih

theorem Asks.mirrors {allowed : S.Request → Prop} {program : Program S α}
    (asks : Asks allowed program)
    (told : ∀ request reply reply', allowed request → similar request reply reply' → reply = reply') :
    Mirrors similar Eq program program := by
  induction program with
  | ret value => exact .ret value value rfl
  | raise error => exact .raise error
  | ask request next ih =>
      refine .ask request next next fun reply reply' alike => ?_
      rw [told request reply reply' asks.1 alike]
      exact ih reply' (asks.2 reply')

/-- Surroundings that give similar replies and come to the same states. -/
def AnswersAlike (similar : (request : S.Request) → S.Reply request → S.Reply request → Prop)
    (answer answer' : (request : S.Request) → σ → S.Reply request × σ) : Prop :=
  ∀ request state, similar request (answer request state).1 (answer' request state).1 ∧
    (answer request state).2 = (answer' request state).2

def EndsRelated (related : α → β → Prop) : Except S.Raised α → Except S.Raised β → Prop
  | .ok value, .ok value' => related value value'
  | .error error, .error error' => error = error'
  | _, _ => False

def requests (trace : List (Exchange S)) : List S.Request := trace.map Sigma.fst

theorem Mirrors.run {answer answer' : (request : S.Request) → σ → S.Reply request × σ}
    (alike : AnswersAlike similar answer answer')
    (mirrors : Mirrors similar related program program') (state : σ) :
    requests (run answer program state).1 = requests (run answer' program' state).1 ∧
      EndsRelated related (run answer program state).2.1 (run answer' program' state).2.1 ∧
      (run answer program state).2.2 = (run answer' program' state).2.2 := by
  induction mirrors generalizing state with
  | ret value value' holds => exact ⟨rfl, holds, rfl⟩
  | raise error => exact ⟨rfl, rfl, rfl⟩
  | ask request next next' _ ih =>
      obtain ⟨replied, reached⟩ := alike request state
      obtain ⟨asked, ended, left⟩ := ih _ _ replied (answer' request state).2
      have first : Lib.Effects.run answer (.ask request next) state =
          (⟨request, (answer request state).1⟩ ::
            (Lib.Effects.run answer (next (answer request state).1) (answer' request state).2).1,
            (Lib.Effects.run answer (next (answer request state).1) (answer' request state).2).2) := by
        rw [← reached]
        rfl
      rw [first]
      exact ⟨congrArg (List.cons request) asked, ended, left⟩

end Mirroring

end DearAgent.Lib.Effects
