import DearAgent.Lib.Effects

/-!
# One program in place of another

Two programs in one environment, each in a state of its own: the first one is
simulated by the second where the second one can end alike whatever the first
one does. Programs that only look at their surroundings may stand on one side
alone.
-/

namespace DearAgent.Lib.Effects

set_option autoImplicit false

section Serving

variable {S : Signature} {α β σ : Type}

def Serves (env : Env S σ) (state : σ) (request : S.Request) : Prop :=
  ∃ reply after, env request state reply after

variable {env : Env S σ} {state : σ}

/-- What holds of every execution holds of some execution where every request is served. -/
theorem Meets.can_end {program : Program S α} {post : σ → Except S.Raised α → Prop}
    (meets : Meets env (Serves env) program state post) :
    CanEnd env program state fun outcome final => post final outcome := by
  induction program generalizing state with
  | ret value => exact ⟨[], _, state, ⟨rfl, rfl, rfl⟩, meets⟩
  | raise error => exact ⟨[], _, state, ⟨rfl, rfl, rfl⟩, meets⟩
  | ask request next ih =>
      obtain ⟨reply, after, answered⟩ := meets.1
      exact can_end_ask reply answered (ih reply (meets.2 reply after answered))

theorem Meets.narrow {env' : Env S σ} {may : σ → S.Request → Prop} {program : Program S α}
    {post : σ → Except S.Raised α → Prop} (meets : Meets env may program state post)
    (within : ∀ request s reply after, env' request s reply after → env request s reply after) :
    Meets env' may program state post := by
  induction program generalizing state with
  | ret value => exact meets
  | raise error => exact meets
  | ask request next ih =>
      exact ⟨meets.1, fun reply after answered =>
        ih reply (meets.2 reply after (within request state reply after answered))⟩

theorem Meets.among {may : σ → S.Request → Prop} {allowed : S.Request → Prop}
    {program : Program S α} {post : σ → Except S.Raised α → Prop}
    (meets : Meets env may program state post) (asks : Asks allowed program) :
    Meets env (fun s request => may s request ∧ allowed request) program state post := by
  induction program generalizing state with
  | ret value => exact meets
  | raise error => exact meets
  | ask request next ih =>
      exact ⟨⟨meets.1, asks.1⟩, fun reply after answered =>
        ih reply (meets.2 reply after answered) (asks.2 reply)⟩

theorem Meets.both {may may' : σ → S.Request → Prop} {program : Program S α}
    {post post' : σ → Except S.Raised α → Prop} (first : Meets env may program state post)
    (second : Meets env may' program state post') :
    Meets env (fun s request => may s request ∧ may' s request) program state post := by
  induction program generalizing state with
  | ret value => exact first
  | raise error => exact first
  | ask request next ih =>
      constructor
      · exact And.intro first.1 second.1
      · intro reply after answered
        exact ih reply (first.2 reply after answered) (second.2 reply after answered)

theorem Meets.requested {may : σ → S.Request → Prop} {program : Program S α}
    {post : σ → Except S.Raised α → Prop} (meets : Meets env may program state post)
    {trace : List (Exchange S)} {outcome : Except S.Raised α} {final : σ}
    (execution : Exec env program state trace outcome final) :
    ∀ event ∈ trace, ∃ s, may s event.1 := by
  induction program generalizing state trace with
  | ret value => simp [execution.1]
  | raise error => simp [execution.1]
  | ask request next ih =>
      obtain ⟨reply, middle, rest, answered, rfl, later⟩ := execution
      intro event member
      rcases List.mem_cons.mp member with own | among
      · rw [own]
        exact ⟨state, meets.1⟩
      · exact ih reply (meets.2 reply middle answered) later event among

/-- The program ends in a state related to the first one, and returns a value
the predicate holds of. -/
def Reports (env : Env S σ) (kept : σ → σ → Prop) (program : Program S α) (state : σ)
    (tells : α → Prop) : Prop :=
  Meets env (Serves env) program state fun after outcome =>
    kept state after ∧ ∃ value, outcome = .ok value ∧ tells value

theorem Reports.seq {kept : σ → σ → Prop} {program : Program S α} {next : α → Program S β}
    {tells : α → Prop} {post : σ → Except S.Raised β → Prop}
    (reports : Reports env kept program state tells)
    (rest : ∀ after value, kept state after → tells value →
      Meets env (Serves env) (next value) after post) :
    Meets env (Serves env) (program >>= next) state post := by
  apply Meets.seq reports
  · intro after value reported
    obtain ⟨same, other, returned, told⟩ := reported
    obtain rfl : value = other := Except.ok.inj returned
    exact rest after value same told
  · intro after error reported
    obtain ⟨_, _, never, _⟩ := reported
    cases never

/-- The program ends, leaves the state as it is and returns a value the
predicate holds of. -/
def Looks (env : Env S σ) (program : Program S α) (state : σ) (tells : α → Prop) : Prop :=
  Meets env (Serves env) program state fun after outcome =>
    after = state ∧ ∃ value, outcome = .ok value ∧ tells value

theorem looks_ret {value : α} {tells : α → Prop} (said : tells value) :
    Looks env (.ret value) state tells := ⟨rfl, value, rfl, said⟩

theorem Looks.meets_seq {program : Program S α} {next : α → Program S β} {tells : α → Prop}
    {may : σ → S.Request → Prop} {post : σ → Except S.Raised β → Prop}
    (looks : Looks env program state tells)
    (permitted : ∀ s request, Serves env s request → may s request)
    (rest : ∀ value, tells value → Meets env may (next value) state post) :
    Meets env may (program >>= next) state post := by
  refine Meets.seq (looks.mono permitted fun _ _ looked => looked) (fun s value looked => ?_)
    fun s error looked => ?_
  · obtain ⟨rfl, other, same, said⟩ := looked
    obtain rfl : value = other := Except.ok.inj same
    exact rest value said
  · obtain ⟨_, value, returned, _⟩ := looked
    cases returned

theorem Looks.seq {program : Program S α} {next : α → Program S β} {tells : α → Prop}
    {tells' : β → Prop} (looks : Looks env program state tells)
    (rest : ∀ value, tells value → Looks env (next value) state tells') :
    Looks env (program >>= next) state tells' :=
  looks.meets_seq (fun _ _ served => served) rest

theorem Looks.can_end_iff {program : Program S α} {next : α → Program S β} {value : α}
    {post : Except S.Raised β → σ → Prop} (looks : Looks env program state (· = value)) :
    CanEnd env (program >>= next) state post ↔ CanEnd env (next value) state post := by
  constructor
  · intro ends
    obtain ⟨trace, outcome, final, execution, holds⟩ := ends
    rcases exec_bind execution with ⟨error, raised, _⟩ | ⟨other, middle, first, rest, returned,
        continued, _⟩
    · obtain ⟨_, _, never, _⟩ := looks.sound raised
      cases never
    · obtain ⟨rfl, told, same, rfl⟩ := looks.sound returned
      obtain rfl := Except.ok.inj same
      exact ⟨rest, outcome, final, continued, holds⟩
  · intro ends
    apply can_end_seq looks.can_end
    · intro other after looked
      obtain ⟨rfl, told, same, rfl⟩ := looked
      obtain rfl := Except.ok.inj same
      exact ends
    · intro error after looked
      obtain ⟨_, _, never, _⟩ := looked
      cases never

theorem Meets.can_end_iff {program : Program S α} {one : σ → Except S.Raised α → Prop}
    {post : Except S.Raised α → σ → Prop} {ending : Prop}
    (meets : Meets env (Serves env) program state one)
    (same : ∀ after outcome, one after outcome → (post outcome after ↔ ending)) :
    CanEnd env program state post ↔ ending := by
  constructor
  · intro ends
    obtain ⟨trace, outcome, final, execution, holds⟩ := ends
    exact (same final outcome (meets.sound execution)).mp holds
  · intro holds
    obtain ⟨trace, outcome, final, execution, reached⟩ := meets.can_end
    exact ⟨trace, outcome, final, execution, (same final outcome reached).mpr holds⟩

end Serving

section Simulation

variable {S : Signature} {α β γ δ σ : Type}

/-- Both programs returned, or both raised the same exception. -/
def EndAlike (returned : σ → α → σ → β → Prop) (raised : σ → σ → Prop) :
    σ → Except S.Raised α → σ → Except S.Raised β → Prop
  | final, .ok value, final', .ok value' => returned final value final' value'
  | final, .error error, final', .error error' => error = error' ∧ raised final final'
  | _, _, _, _ => False

/-- Whatever the first program does, the second one can end alike. -/
def Simulates (env : Env S σ) (program : Program S α) (state : σ) (program' : Program S β)
    (state' : σ) (returned : σ → α → σ → β → Prop) (raised : σ → σ → Prop) : Prop :=
  ∀ trace outcome final, Exec env program state trace outcome final →
    CanEnd env program' state' fun outcome' final' =>
      EndAlike returned raised final outcome final' outcome'

variable {env : Env S σ} {state state' : σ} {returned : σ → γ → σ → δ → Prop}
  {raised : σ → σ → Prop}

theorem simulates_ret {value : γ} {value' : δ} (holds : returned state value state' value') :
    Simulates env (.ret value) state (.ret value') state' returned raised := by
  rintro trace outcome final ⟨_, rfl, rfl⟩
  exact ⟨[], _, state', ⟨rfl, rfl, rfl⟩, holds⟩

theorem Simulates.bind {program : Program S α} {program' : Program S β}
    {next : α → Program S γ} {next' : β → Program S δ} {middle : σ → α → σ → β → Prop}
    (first : Simulates env program state program' state' middle raised)
    (rest : ∀ s value s' value', middle s value s' value' →
      Simulates env (next value) s (next' value') s' returned raised) :
    Simulates env (program >>= next) state (program' >>= next') state' returned raised := by
  intro trace outcome final execution
  rcases exec_bind execution with ⟨error, stopped, rfl⟩ | ⟨value, between, start, last, ended,
      continued, rfl⟩
  · obtain ⟨trace', outcome', final', execution', alike⟩ := first _ _ _ stopped
    cases outcome' with
    | ok value' => exact absurd alike not_false
    | error error' => exact ⟨trace', _, final', exec_stop execution', alike⟩
  · obtain ⟨trace', outcome', between', execution', alike⟩ := first _ _ _ ended
    cases outcome' with
    | error error' => exact absurd alike not_false
    | ok value' =>
        obtain ⟨tail, other, final', finished, holds⟩ :=
          rest between value between' value' alike _ _ _ continued
        exact ⟨trace' ++ tail, other, final', exec_seq execution' finished, holds⟩

theorem Simulates.mono {program : Program S γ} {program' : Program S δ}
    {returned' : σ → γ → σ → δ → Prop} {raised' : σ → σ → Prop}
    (simulates : Simulates env program state program' state' returned raised)
    (returns : ∀ s value s' value', returned s value s' value' → returned' s value s' value')
    (raises : ∀ s s', raised s s' → raised' s s') :
    Simulates env program state program' state' returned' raised' := by
  intro trace outcome final execution
  obtain ⟨trace', outcome', final', execution', alike⟩ := simulates trace outcome final execution
  refine ⟨trace', outcome', final', execution', ?_⟩
  cases outcome <;> cases outcome'
  · exact ⟨alike.1, raises _ _ alike.2⟩
  · exact absurd alike not_false
  · exact absurd alike not_false
  · exact returns _ _ _ _ alike

theorem Simulates.leaves {program : Program S γ} {program' : Program S δ}
    (simulates : Simulates env program state program' state' (fun s _ s' _ => s = s') Eq)
    {trace : List (Exchange S)} {outcome : Except S.Raised Unit} {final : σ}
    (execution : Exec env (dropValue program) state trace outcome final) :
    ∃ trace', Exec env (dropValue program') state' trace' outcome final := by
  obtain ⟨before, ended, rfl⟩ := (exec_map fun _ => ()).mp execution
  obtain ⟨trace', outcome', final', ended', alike⟩ := simulates _ _ _ ended
  refine ⟨trace', (exec_map fun _ => ()).mpr ⟨outcome', ?_, ?_⟩⟩
  · cases before <;> cases outcome'
    · exact alike.2 ▸ ended'
    · exact absurd alike not_false
    · exact absurd alike not_false
    · have same : final = final' := alike
      exact same ▸ ended'
  · cases before <;> cases outcome'
    · exact congrArg Except.error alike.1
    · exact absurd alike not_false
    · exact absurd alike not_false
    · rfl

theorem simulates_self (env : Env S σ) (program : Program S γ) (state : σ) :
    Simulates env program state program state
      (fun s value s' value' => s = s' ∧ value = value' ∧
        ∃ trace, Exec env program state trace (.ok value) s) Eq := by
  intro trace outcome final execution
  refine ⟨trace, outcome, final, execution, ?_⟩
  cases outcome with
  | ok value => exact ⟨rfl, rfl, trace, execution⟩
  | error error => exact ⟨rfl, rfl⟩

theorem Asks.simulates {allowed : S.Request → Prop} {program : Program S γ}
    (asks : Asks allowed program) {related : σ → σ → Prop} (holds : related state state')
    (kept : ∀ request s s' reply after, allowed request → related s s' →
      env request s reply after → ∃ after', env request s' reply after' ∧ related after after') :
    Simulates env program state program state'
      (fun s value s' value' => related s s' ∧ value = value') related := by
  intro trace outcome final execution
  induction program generalizing state state' trace with
  | ret value =>
      obtain ⟨_, rfl, rfl⟩ := execution
      exact ⟨[], _, state', ⟨rfl, rfl, rfl⟩, holds, rfl⟩
  | raise error =>
      obtain ⟨_, rfl, rfl⟩ := execution
      exact ⟨[], _, state', ⟨rfl, rfl, rfl⟩, rfl, holds⟩
  | ask request next ih =>
      obtain ⟨reply, middle, rest, answered, _, later⟩ := execution
      obtain ⟨middle', answered', holds'⟩ := kept request _ _ reply middle asks.1 holds answered
      exact can_end_ask reply answered' (ih reply (asks.2 reply) holds' rest later)

theorem Looks.simulates {program : Program S γ} {program' : Program S δ} {tells : γ → Prop}
    {tells' : δ → Prop} (looks : Looks env program state tells)
    (looks' : Looks env program' state' tells')
    (holds : ∀ value value', tells value → tells' value' → returned state value state' value') :
    Simulates env program state program' state' returned raised := by
  intro trace outcome final execution
  obtain ⟨rfl, value, rfl, told⟩ := looks.sound execution
  obtain ⟨trace', outcome', final', execution', rfl, value', rfl, told'⟩ := looks'.can_end
  exact ⟨trace', _, _, execution', holds value value' told told'⟩

theorem Meets.simulates_left {program : Program S α} {next : α → Program S γ}
    {program' : Program S δ} {may : σ → S.Request → Prop} {middle : σ → α → Prop}
    (meets : Meets env may program state fun after outcome =>
      ∃ value, outcome = .ok value ∧ middle after value)
    (rest : ∀ s value, middle s value →
      Simulates env (next value) s program' state' returned raised) :
    Simulates env (program >>= next) state program' state' returned raised := by
  intro trace outcome final execution
  rcases exec_bind execution with ⟨error, stopped, rfl⟩ | ⟨value, between, _, last, ended,
      continued, _⟩
  · obtain ⟨value, never, _⟩ := meets.sound stopped
    cases never
  · obtain ⟨other, same, reached⟩ := meets.sound ended
    obtain rfl : value = other := Except.ok.inj same
    exact rest between value reached last outcome final continued

theorem Meets.simulates_right {program : Program S γ} {program' : Program S α}
    {next : α → Program S δ} {middle : σ → α → Prop}
    (meets : Meets env (Serves env) program' state' fun after outcome =>
      ∃ value, outcome = .ok value ∧ middle after value)
    (rest : ∀ s value, middle s value →
      Simulates env program state (next value) s returned raised) :
    Simulates env program state (program' >>= next) state' returned raised := by
  intro trace outcome final execution
  obtain ⟨start, ended, after, came, value, rfl, reached⟩ := meets.can_end
  obtain ⟨tail, other, final', continued, alike⟩ :=
    rest after value reached trace outcome final execution
  exact ⟨start ++ tail, other, final', exec_seq came continued, alike⟩

theorem Looks.passes {program : Program S α} {tells : α → Prop}
    (looks : Looks env program state tells) :
    Meets env (Serves env) program state fun after outcome =>
      ∃ value, outcome = .ok value ∧ after = state ∧ tells value :=
  Meets.post looks fun _ _ ⟨kept, value, returned, told⟩ => ⟨value, returned, kept, told⟩

theorem Looks.simulates_left {program : Program S α} {next : α → Program S γ} {tells : α → Prop}
    {program' : Program S δ} (looks : Looks env program state tells)
    (rest : ∀ value, tells value → Simulates env (next value) state program' state' returned raised) :
    Simulates env (program >>= next) state program' state' returned raised :=
  looks.passes.simulates_left fun _ value ⟨kept, told⟩ => kept ▸ rest value told

theorem Looks.simulates_right {program : Program S γ} {program' : Program S α}
    {next : α → Program S δ} {tells : α → Prop} (looks : Looks env program' state' tells)
    (rest : ∀ value, tells value → Simulates env program state (next value) state' returned raised) :
    Simulates env program state (program' >>= next) state' returned raised :=
  looks.passes.simulates_right fun _ value ⟨kept, told⟩ => kept ▸ rest value told

theorem Meets.simulates_raised {program : Program S γ} {program' : Program S δ}
    {may : σ → S.Request → Prop} {error : S.Raised} {ended ended' : σ → Prop}
    (meets : Meets env may program state fun after outcome => outcome = .error error ∧ ended after)
    (meets' : Meets env (Serves env) program' state' fun after outcome =>
      outcome = .error error ∧ ended' after)
    (holds : ∀ s s', ended s → ended' s' → raised s s') :
    Simulates env program state program' state' returned raised := by
  intro trace outcome final execution
  obtain ⟨rfl, reached⟩ := meets.sound execution
  obtain ⟨trace', _, final', execution', rfl, reached'⟩ := meets'.can_end
  exact ⟨trace', _, final', execution', rfl, holds final final' reached reached'⟩

end Simulation

/-!
## Programs that simulate each other
-/

section Correspondence

variable {S : Signature} {α β γ δ σ : Type}

/-- Whatever one of the programs does, the other one can end alike. -/
structure Corresponds (env : Env S σ) (program : Program S α) (state : σ) (program' : Program S β)
    (state' : σ) (returned : σ → α → σ → β → Prop) (raised : σ → σ → Prop) : Prop where
  forth : Simulates env program state program' state' returned raised
  back : Simulates env program' state' program state
    (fun s' value' s value => returned s value s' value') fun s' s => raised s s'

variable {env : Env S σ} {state state' : σ} {returned : σ → γ → σ → δ → Prop}
  {raised : σ → σ → Prop}

theorem corresponds_ret {value : γ} {value' : δ} (holds : returned state value state' value') :
    Corresponds env (.ret value) state (.ret value') state' returned raised :=
  ⟨simulates_ret holds, simulates_ret holds⟩

theorem Corresponds.bind {program : Program S α} {program' : Program S β}
    {next : α → Program S γ} {next' : β → Program S δ} {middle : σ → α → σ → β → Prop}
    (first : Corresponds env program state program' state' middle raised)
    (rest : ∀ s value s' value', middle s value s' value' →
      Corresponds env (next value) s (next' value') s' returned raised) :
    Corresponds env (program >>= next) state (program' >>= next') state' returned raised :=
  ⟨first.forth.bind fun s value s' value' reached => (rest s value s' value' reached).forth,
    first.back.bind fun s' value' s value reached => (rest s value s' value' reached).back⟩

theorem Corresponds.mono {program : Program S γ} {program' : Program S δ}
    {returned' : σ → γ → σ → δ → Prop} {raised' : σ → σ → Prop}
    (corresponds : Corresponds env program state program' state' returned raised)
    (returns : ∀ s value s' value', returned s value s' value' → returned' s value s' value')
    (raises : ∀ s s', raised s s' → raised' s s') :
    Corresponds env program state program' state' returned' raised' :=
  ⟨corresponds.forth.mono returns raises,
    corresponds.back.mono (fun s' value' s value => returns s value s' value') fun s' s => raises s s'⟩

/-- A program corresponds to itself from states that none of its requests tells apart. -/
theorem Asks.corresponds {allowed : S.Request → Prop} {program : Program S γ}
    (asks : Asks allowed program) {related : σ → σ → Prop} (holds : related state state')
    (forth : ∀ request s s' reply after, allowed request → related s s' →
      env request s reply after → ∃ after', env request s' reply after' ∧ related after after')
    (back : ∀ request s s' reply after', allowed request → related s s' →
      env request s' reply after' → ∃ after, env request s reply after ∧ related after after') :
    Corresponds env program state program state'
      (fun s value s' value' => related s s' ∧ value = value') related := by
  constructor
  · exact asks.simulates holds forth
  · have reverse : Simulates env program state' program state
        (fun s' value' s value => related s s' ∧ value' = value) fun s' s => related s s' :=
      @Asks.simulates _ _ _ _ _ _ _ _ asks (fun s' s => related s s') holds fun request s' s reply after' =>
        back request s s' reply after'
    exact reverse.mono (fun _ _ _ _ both => ⟨both.1, both.2.symm⟩) fun _ _ holds => holds

theorem Meets.corresponds_left {program : Program S α} {next : α → Program S γ}
    {program' : Program S δ} {middle : σ → α → Prop}
    (meets : Meets env (Serves env) program state fun after outcome =>
      ∃ value, outcome = .ok value ∧ middle after value)
    (rest : ∀ s value, middle s value →
      Corresponds env (next value) s program' state' returned raised) :
    Corresponds env (program >>= next) state program' state' returned raised :=
  ⟨meets.simulates_left fun s value reached => (rest s value reached).forth,
    meets.simulates_right fun s value reached => (rest s value reached).back⟩

theorem Meets.corresponds_right {program : Program S γ} {program' : Program S α}
    {next : α → Program S δ} {middle : σ → α → Prop}
    (meets : Meets env (Serves env) program' state' fun after outcome =>
      ∃ value, outcome = .ok value ∧ middle after value)
    (rest : ∀ s value, middle s value →
      Corresponds env program state (next value) s returned raised) :
    Corresponds env program state (program' >>= next) state' returned raised :=
  ⟨meets.simulates_right fun s value reached => (rest s value reached).forth,
    meets.simulates_left fun s value reached => (rest s value reached).back⟩

theorem Meets.corresponds_raised {program : Program S γ} {program' : Program S δ} {error : S.Raised}
    {ended ended' : σ → Prop}
    (meets : Meets env (Serves env) program state fun after outcome =>
      outcome = .error error ∧ ended after)
    (meets' : Meets env (Serves env) program' state' fun after outcome =>
      outcome = .error error ∧ ended' after)
    (holds : ∀ s s', ended s → ended' s' → raised s s') :
    Corresponds env program state program' state' returned raised :=
  ⟨meets.simulates_raised meets' holds,
    meets'.simulates_raised meets fun s' s reached' reached => holds s s' reached reached'⟩

end Correspondence

end DearAgent.Lib.Effects
