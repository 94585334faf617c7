import Mathlib.Tactic.Common
import Mathlib.Data.List.Basic

/-!
# Programs that talk to ports

A program is a tree of requests: it asks one request of its surroundings,
goes on with the reply, and ends by returning a value or by raising. What the
surroundings do with a request is not part of the program. An environment
says which replies a request can have in a state and which state follows, so
one program can be run alone, run against a recorded script, or interleaved
with other programs over one shared state.
-/

namespace DearAgent.Lib.Effects

set_option autoImplicit false

/-- The requests of a family of ports, the type of each reply, and the
exceptions that travel through a program. -/
structure Signature where
  Request : Type
  Reply : Request → Type
  Raised : Type

inductive Program (S : Signature) (α : Type) : Type
  | ret (value : α)
  | raise (error : S.Raised)
  | ask (request : S.Request) (next : S.Reply request → Program S α)

abbrev Exchange (S : Signature) := (request : S.Request) × S.Reply request

section Combinators

variable {S : Signature} {α β : Type}

def bind : Program S α → (α → Program S β) → Program S β
  | .ret value, next => next value
  | .raise error, _ => .raise error
  | .ask request rest, next => .ask request fun reply => bind (rest reply) next

/-- `try: body except ...: handler`. -/
def catchWith : Program S α → (S.Raised → Program S α) → Program S α
  | .ret value, _ => .ret value
  | .raise error, handler => handler error
  | .ask request rest, handler => .ask request fun reply => catchWith (rest reply) handler

/-- `try: body finally: cleanup`. An exception of the cleanup replaces the
outcome of the body. -/
def andFinally : Program S α → Program S Unit → Program S α
  | .ret value, cleanup => bind cleanup fun _ => .ret value
  | .raise error, cleanup => bind cleanup fun _ => .raise error
  | .ask request rest, cleanup => .ask request fun reply => andFinally (rest reply) cleanup

instance : Monad (Program S) where
  pure := .ret
  bind := bind

instance : MonadExceptOf S.Raised (Program S) where
  throw := .raise
  tryCatch := catchWith

def request (r : S.Request) : Program S (S.Reply r) := .ask r .ret

/-- A reply that may itself be an exception is raised where it arrives. -/
def unwrap : Except S.Raised α → Program S α
  | .ok value => .ret value
  | .error error => .raise error

/-- `try: body except ...: handler` for the exceptions of some classes. -/
def exceptWhere (caught : S.Raised → Bool) (body : Program S α)
    (handler : S.Raised → Program S α) : Program S α :=
  catchWith body fun error => if caught error then handler error else .raise error

def dropValue (program : Program S α) : Program S Unit := bind program fun _ => .ret ()

@[simp] theorem pure_eq_ret (value : α) : (pure value : Program S α) = .ret value := rfl

@[simp] theorem throw_eq_raise (error : S.Raised) :
    (throw error : Program S α) = .raise error := rfl

@[simp] theorem bind_ret (value : α) (next : α → Program S β) :
    (Program.ret value : Program S α) >>= next = next value := rfl

@[simp] theorem bind_raise (error : S.Raised) (next : α → Program S β) :
    (Program.raise error : Program S α) >>= next = .raise error := rfl

@[simp] theorem bind_ask (r : S.Request) (rest : S.Reply r → Program S α)
    (next : α → Program S β) :
    (Program.ask r rest) >>= next = .ask r fun reply => rest reply >>= next := rfl

theorem bind_return (program : Program S α) : (program >>= fun value => .ret value) = program := by
  induction program with
  | ret value => rfl
  | raise error => rfl
  | ask r rest ih => exact congrArg (Program.ask r) (funext ih)

theorem bind_bind {γ : Type} (program : Program S α) (next : α → Program S β)
    (last : β → Program S γ) :
    (program >>= next) >>= last = program >>= fun value => next value >>= last := by
  induction program with
  | ret value => rfl
  | raise error => rfl
  | ask r rest ih => exact congrArg (Program.ask r) (funext ih)

end Combinators

theorem split_concat {α : Type} {front earlier later : List α} {last item : α}
    (shape : front ++ [last] = earlier ++ item :: later) :
    (later = [] ∧ front = earlier ∧ last = item) ∨
      ∃ tail, later = tail ++ [last] ∧ front = earlier ++ item :: tail := by
  rcases List.eq_nil_or_concat later with rfl | ⟨tail, other, rfl⟩
  · obtain ⟨same, ends⟩ := List.append_inj' shape rfl
    exact .inl ⟨rfl, same, List.singleton_inj.mp ends⟩
  · rw [List.concat_eq_append] at shape ⊢
    rw [← List.cons_append, ← List.append_assoc] at shape
    obtain ⟨same, ends⟩ := List.append_inj' shape rfl
    exact .inr ⟨tail, by rw [List.singleton_inj.mp ends], same⟩

theorem split_at {α : Type} {items : List α} {n : Nat} {item : α} (found : items[n]? = some item) :
    items = items.take n ++ item :: items.drop (n + 1) := by
  obtain ⟨bound, rfl⟩ := List.getElem?_eq_some_iff.mp found
  rw [← List.drop_eq_getElem_cons bound, List.take_append_drop]

theorem split_compare {α : Type} {front front' rest rest' : List α} {item item' : α}
    (same : front ++ item :: rest = front' ++ item' :: rest') :
    (∃ tail, front' ++ [item'] = front ++ item :: tail) ∨
      ∃ between, rest' = between ++ item :: rest ∧ front = front' ++ item' :: between := by
  rcases List.append_eq_append_iff.mp same with ⟨between, rfl, shape⟩ | ⟨between, rfl, shape⟩
  · cases between with
    | nil =>
        obtain ⟨rfl, rfl⟩ := List.cons.inj shape
        exact .inl ⟨[], by simp⟩
    | cons head tail =>
        obtain ⟨rfl, rfl⟩ := List.cons.inj shape
        exact .inl ⟨tail ++ [item'], by simp⟩
  · cases between with
    | nil =>
        obtain ⟨rfl, rfl⟩ := List.cons.inj shape
        exact .inl ⟨[], by simp⟩
    | cons head tail =>
        obtain ⟨rfl, rfl⟩ := List.cons.inj shape
        exact .inr ⟨tail, rfl, rfl⟩

/-- `env request state reply state'`: the surroundings may answer `request` in
`state` with `reply`, which leaves `state'`. -/
abbrev Env (S : Signature) (σ : Type) :=
  (request : S.Request) → σ → S.Reply request → σ → Prop

section Execution

variable {S : Signature} {α β σ : Type}

/-- A complete sequential execution: the exchanges in order, the outcome and
the final state. -/
def Exec (env : Env S σ) : Program S α → σ → List (Exchange S) → Except S.Raised α → σ → Prop
  | .ret value, state, trace, outcome, final =>
      trace = [] ∧ outcome = .ok value ∧ final = state
  | .raise error, state, trace, outcome, final =>
      trace = [] ∧ outcome = .error error ∧ final = state
  | .ask request next, state, trace, outcome, final =>
      ∃ reply middle rest, env request state reply middle ∧ trace = ⟨request, reply⟩ :: rest ∧
        Exec env (next reply) middle rest outcome final

/-- Deterministic surroundings, used to evaluate a program on concrete input. -/
def run (answer : (request : S.Request) → σ → S.Reply request × σ) :
    Program S α → σ → List (Exchange S) × Except S.Raised α × σ
  | .ret value, state => ([], .ok value, state)
  | .raise error, state => ([], .error error, state)
  | .ask request next, state =>
      let replied := answer request state
      let rest := run answer (next replied.1) replied.2
      (⟨request, replied.1⟩ :: rest.1, rest.2)

theorem exec_run (env : Env S σ) (answer : (request : S.Request) → σ → S.Reply request × σ)
    (faithful : ∀ request state,
      env request state (answer request state).1 (answer request state).2)
    (program : Program S α) (state : σ) :
    Exec env program state (run answer program state).1 (run answer program state).2.1
      (run answer program state).2.2 := by
  induction program generalizing state with
  | ret value => exact ⟨rfl, rfl, rfl⟩
  | raise error => exact ⟨rfl, rfl, rfl⟩
  | ask request next ih =>
      exact ⟨_, _, _, faithful request state, rfl, ih _ _⟩

/-- Some execution ends in the postcondition. -/
def CanEnd (env : Env S σ) (program : Program S α) (state : σ)
    (post : Except S.Raised α → σ → Prop) : Prop :=
  ∃ trace outcome final, Exec env program state trace outcome final ∧ post outcome final

theorem can_end_ask {env : Env S σ} {request : S.Request} {next : S.Reply request → Program S α}
    {state : σ} {post : Except S.Raised α → σ → Prop} (reply : S.Reply request) {middle : σ}
    (answered : env request state reply middle) (later : CanEnd env (next reply) middle post) :
    CanEnd env (.ask request next) state post := by
  obtain ⟨trace, outcome, final, execution, holds⟩ := later
  exact ⟨_, outcome, final, ⟨reply, middle, trace, answered, rfl, execution⟩, holds⟩

/-- The states a program can be stopped in: before any of its requests, and at its end. -/
def Reaches (env : Env S σ) : Program S α → σ → σ → Prop
  | .ret _, state, stop => stop = state
  | .raise _, state, stop => stop = state
  | .ask request next, state, stop => stop = state ∨
      ∃ reply middle, env request state reply middle ∧ Reaches env (next reply) middle stop

theorem reaches_end {env : Env S σ} {program : Program S α} {state final : σ}
    {trace : List (Exchange S)} {outcome : Except S.Raised α}
    (execution : Exec env program state trace outcome final) : Reaches env program state final := by
  induction program generalizing state trace with
  | ret value => exact execution.2.2
  | raise error => exact execution.2.2
  | ask request next ih =>
      obtain ⟨reply, middle, rest, answered, _, later⟩ := execution
      exact .inr ⟨reply, middle, answered, ih reply later⟩

/-- The state after so many answers, or at the end of a program that asks for fewer. -/
def stopAfter (answer : (request : S.Request) → σ → S.Reply request × σ) :
    Nat → Program S α → σ → σ
  | 0, _, state => state
  | _ + 1, .ret _, state => state
  | _ + 1, .raise _, state => state
  | count + 1, .ask request next, state =>
      stopAfter answer count (next (answer request state).1) (answer request state).2

theorem reaches_stop (env : Env S σ) (answer : (request : S.Request) → σ → S.Reply request × σ)
    (faithful : ∀ request state,
      env request state (answer request state).1 (answer request state).2)
    (count : Nat) (program : Program S α) (state : σ) :
    Reaches env program state (stopAfter answer count program state) := by
  induction count generalizing program state with
  | zero =>
      cases program with
      | ret value => rfl
      | raise error => rfl
      | ask request next => exact .inl rfl
  | succ count ih =>
      cases program with
      | ret value => rfl
      | raise error => rfl
      | ask request next => exact .inr ⟨_, _, faithful request state, ih _ _⟩

/-- A sequence of two programs executes as the first one followed, when that
one returned, by the second one. -/
theorem exec_bind {env : Env S σ} {program : Program S α} {next : α → Program S β}
    {state final : σ} {trace : List (Exchange S)} {outcome : Except S.Raised β}
    (execution : Exec env (program >>= next) state trace outcome final) :
    (∃ error, Exec env program state trace (.error error) final ∧ outcome = .error error) ∨
    (∃ value middle first second, Exec env program state first (.ok value) middle ∧
      Exec env (next value) middle second outcome final ∧ trace = first ++ second) := by
  induction program generalizing state trace with
  | ret value => exact .inr ⟨value, state, [], trace, ⟨rfl, rfl, rfl⟩, execution, rfl⟩
  | raise error =>
      obtain ⟨rfl, rfl, rfl⟩ := execution
      exact .inl ⟨error, ⟨rfl, rfl, rfl⟩, rfl⟩
  | ask request rest ih =>
      obtain ⟨reply, middle, tail, stepped, rfl, later⟩ := execution
      rcases ih reply later with ⟨error, raised, rfl⟩ | ⟨value, last, first, second, returned,
          continued, rfl⟩
      · exact .inl ⟨error, ⟨reply, middle, tail, stepped, rfl, raised⟩, rfl⟩
      · exact .inr ⟨value, last, ⟨request, reply⟩ :: first, second,
          ⟨reply, middle, first, stepped, rfl, returned⟩, continued, rfl⟩

theorem exec_seq {env : Env S σ} {program : Program S α} {next : α → Program S β}
    {state middle final : σ} {first second : List (Exchange S)} {value : α}
    {outcome : Except S.Raised β} (returned : Exec env program state first (.ok value) middle)
    (continued : Exec env (next value) middle second outcome final) :
    Exec env (program >>= next) state (first ++ second) outcome final := by
  induction program generalizing state first with
  | ret result =>
      obtain ⟨rfl, same, rfl⟩ := returned
      obtain rfl : value = result := Except.ok.inj same
      exact continued
  | raise error => exact absurd returned.2.1 (by simp)
  | ask request rest ih =>
      obtain ⟨reply, after, tail, answered, rfl, later⟩ := returned
      exact ⟨reply, after, tail ++ second, answered, rfl, ih reply later⟩

theorem exec_stop {env : Env S σ} {program : Program S α} {next : α → Program S β}
    {state final : σ} {trace : List (Exchange S)} {error : S.Raised}
    (raised : Exec env program state trace (.error error) final) :
    Exec env (program >>= next) state trace (.error error) final := by
  induction program generalizing state trace with
  | ret result => exact absurd raised.2.1 (by simp)
  | raise other =>
      obtain ⟨rfl, same, rfl⟩ := raised
      exact ⟨rfl, congrArg Except.error (Except.error.inj same), rfl⟩
  | ask request rest ih =>
      obtain ⟨reply, after, tail, answered, rfl, later⟩ := raised
      exact ⟨reply, after, tail, answered, rfl, ih reply later⟩

theorem can_end_seq {env : Env S σ} {program : Program S α} {next : α → Program S β} {state : σ}
    {middle : Except S.Raised α → σ → Prop} {post : Except S.Raised β → σ → Prop}
    (first : CanEnd env program state middle)
    (returned : ∀ value s, middle (.ok value) s → CanEnd env (next value) s post)
    (raised : ∀ error s, middle (.error error) s → post (.error error) s) :
    CanEnd env (program >>= next) state post := by
  obtain ⟨trace, outcome, final, execution, reached⟩ := first
  cases outcome with
  | error error => exact ⟨trace, _, final, exec_stop execution, raised error final reached⟩
  | ok value =>
      obtain ⟨rest, outcome, last, continued, holds⟩ := returned value final reached
      exact ⟨_, outcome, last, exec_seq execution continued, holds⟩

theorem exec_finally {env : Env S σ} {program : Program S α} {cleanup : Program S Unit}
    {state final : σ} {trace : List (Exchange S)} {outcome : Except S.Raised α}
    (execution : Exec env (andFinally program cleanup) state trace outcome final) :
    ∃ ended middle first second done, Exec env program state first ended middle ∧
      Exec env cleanup middle second done final ∧ trace = first ++ second ∧
        ∀ value, outcome = .ok value ↔ done = .ok () ∧ ended = .ok value := by
  have ending : ∀ (last : Except S.Raised α) (rest : Program S α) (state : σ)
      (trace : List (Exchange S)),
      (∀ s told ended stop, Exec env rest s told ended stop ↔ told = [] ∧ ended = last ∧ stop = s) →
      Exec env (cleanup >>= fun _ => rest) state trace outcome final →
      ∃ done, Exec env cleanup state trace done final ∧
        ∀ value, outcome = .ok value ↔ done = .ok () ∧ last = .ok value := by
    intro last rest state trace closes execution
    cases exec_bind execution with
    | inl stopped =>
        have ⟨error, raised, same⟩ := stopped
        exact ⟨.error error, raised, by simp [same]⟩
    | inr went =>
        have ⟨_, middle, first, second, cleaned, closed, split⟩ := went
        have ⟨empty, same, stays⟩ := (closes _ _ _ _).mp closed
        subst empty same stays split
        rw [List.append_nil]
        exact ⟨.ok (), cleaned, by simp⟩
  induction program generalizing state trace with
  | ret value =>
      have ⟨done, cleaned, ends⟩ := ending (.ok value) (.ret value) state trace
        (fun _ _ _ _ => Iff.rfl) execution
      exact ⟨.ok value, state, [], trace, done, ⟨rfl, rfl, rfl⟩, cleaned, rfl, ends⟩
  | raise error =>
      have ⟨done, cleaned, ends⟩ := ending (.error error) (.raise error) state trace
        (fun _ _ _ _ => Iff.rfl) execution
      exact ⟨.error error, state, [], trace, done, ⟨rfl, rfl, rfl⟩, cleaned, rfl, ends⟩
  | ask request rest ih =>
      have ⟨reply, middle, tail, answered, told, later⟩ := execution
      have ⟨ended, last, first, second, done, body, cleaned, split, ends⟩ := ih reply later
      exact ⟨ended, last, ⟨request, reply⟩ :: first, second, done,
        ⟨reply, middle, first, answered, rfl, body⟩, cleaned, by rw [told, split]; rfl, ends⟩

theorem exec_map {env : Env S σ} {program : Program S α} (f : α → β) {state final : σ}
    {trace : List (Exchange S)} {outcome : Except S.Raised β} :
    Exec env (program >>= fun value => .ret (f value)) state trace outcome final ↔
      ∃ before, Exec env program state trace before final ∧ outcome = before.map f := by
  constructor
  · intro execution
    rcases exec_bind execution with ⟨error, raised, rfl⟩ | ⟨value, middle, first, second, returned,
        ⟨rfl, rfl, rfl⟩, rfl⟩
    · exact ⟨_, raised, rfl⟩
    · exact ⟨_, by rwa [List.append_nil], rfl⟩
  · rintro ⟨before, execution, rfl⟩
    cases before with
    | error error => exact exec_stop execution
    | ok value =>
        have returns : Exec env (.ret (f value)) final [] (.ok (f value)) final := ⟨rfl, rfl, rfl⟩
        have ended : Exec env (program >>= fun value => .ret (f value)) state (trace ++ [])
            (.ok (f value)) final := exec_seq execution returns
        rwa [List.append_nil] at ended

/-- Surroundings that answer anything and only keep a summary of what they saw. -/
def observing (observe : σ → Exchange S → σ) : Env S σ :=
  fun request state reply after => after = observe state ⟨request, reply⟩

theorem exec_observed {τ : Type} {env : Env S σ} {program : Program S α} {state final : σ}
    {trace : List (Exchange S)} {outcome : Except S.Raised α}
    (execution : Exec env program state trace outcome final)
    (observe : τ → Exchange S → τ) (summary : τ) :
    Exec (observing observe) program summary trace outcome (trace.foldl observe summary) := by
  induction program generalizing state trace summary with
  | ret value =>
      obtain ⟨rfl, rfl, _⟩ := execution
      exact ⟨rfl, rfl, rfl⟩
  | raise error =>
      obtain ⟨rfl, rfl, _⟩ := execution
      exact ⟨rfl, rfl, rfl⟩
  | ask request next ih =>
      obtain ⟨reply, middle, rest, _, rfl, later⟩ := execution
      exact ⟨reply, observe summary ⟨request, reply⟩, rest, rfl, rfl,
        ih reply later (observe summary ⟨request, reply⟩)⟩

/-- An environment beside which a summary of the exchanges is kept. -/
def recording {τ : Type} (env : Env S σ) (observe : τ → Exchange S → τ) : Env S (σ × τ) :=
  fun request state reply after =>
    env request state.1 reply after.1 ∧ after.2 = observe state.2 ⟨request, reply⟩

theorem exec_recorded {τ : Type} {env : Env S σ} {program : Program S α} {state final : σ}
    {trace : List (Exchange S)} {outcome : Except S.Raised α}
    (execution : Exec env program state trace outcome final)
    (observe : τ → Exchange S → τ) (summary : τ) :
    Exec (recording env observe) program (state, summary) trace outcome
      (final, trace.foldl observe summary) := by
  induction program generalizing state trace summary with
  | ret value =>
      obtain ⟨rfl, rfl, rfl⟩ := execution
      exact ⟨rfl, rfl, rfl⟩
  | raise error =>
      obtain ⟨rfl, rfl, rfl⟩ := execution
      exact ⟨rfl, rfl, rfl⟩
  | ask request next ih =>
      obtain ⟨reply, middle, rest, answered, rfl, later⟩ := execution
      exact ⟨reply, (middle, observe summary ⟨request, reply⟩), rest, ⟨answered, rfl⟩, rfl,
        ih reply later (observe summary ⟨request, reply⟩)⟩

/-- An environment beside which a summary of the exchanges is kept, and which
only makes the exchanges that the summary so far permits. -/
def watching {τ : Type} (env : Env S σ) (observe : τ → Exchange S → τ)
    (guard : τ → Exchange S → Prop) : Env S (σ × τ) :=
  fun request state reply after =>
    recording env observe request state reply after ∧ guard state.2 ⟨request, reply⟩

/-- Every exchange of a trace is one that the summary of those before it permits. -/
def Watched {τ : Type} (observe : τ → Exchange S → τ) (guard : τ → Exchange S → Prop) :
    τ → List (Exchange S) → Prop
  | _, [] => True
  | summary, event :: rest => guard summary event ∧ Watched observe guard (observe summary event) rest

instance Watched.decidable {τ : Type} (observe : τ → Exchange S → τ)
    (guard : τ → Exchange S → Prop) [∀ summary event, Decidable (guard summary event)] :
    (summary : τ) → (trace : List (Exchange S)) → Decidable (Watched observe guard summary trace)
  | _, [] => .isTrue trivial
  | summary, event :: rest =>
      let _ := Watched.decidable observe guard (observe summary event) rest
      inferInstanceAs (Decidable (_ ∧ _))

theorem exec_watched {τ : Type} {env : Env S σ} {program : Program S α} {state final : σ}
    {trace : List (Exchange S)} {outcome : Except S.Raised α}
    (execution : Exec env program state trace outcome final)
    {observe : τ → Exchange S → τ} {guard : τ → Exchange S → Prop} {summary : τ}
    (watched : Watched observe guard summary trace) :
    Exec (watching env observe guard) program (state, summary) trace outcome
      (final, trace.foldl observe summary) := by
  induction program generalizing state trace summary with
  | ret value =>
      obtain ⟨rfl, rfl, rfl⟩ := execution
      exact ⟨rfl, rfl, rfl⟩
  | raise error =>
      obtain ⟨rfl, rfl, rfl⟩ := execution
      exact ⟨rfl, rfl, rfl⟩
  | ask request next ih =>
      obtain ⟨reply, middle, rest, answered, rfl, later⟩ := execution
      exact ⟨reply, (middle, observe summary ⟨request, reply⟩), rest, ⟨⟨answered, rfl⟩, watched.1⟩,
        rfl, ih reply later watched.2⟩

/-- Where every exchange of a trace passes a check, the environment only needs
to agree on exchanges that pass it. -/
theorem exec_where {env env' : Env S σ} {check : Exchange S → Prop} {program : Program S α}
    {state final : σ} {trace : List (Exchange S)} {outcome : Except S.Raised α}
    (execution : Exec env program state trace outcome final)
    (checked : ∀ event ∈ trace, check event)
    (agrees : ∀ request s reply s', check ⟨request, reply⟩ → env request s reply s' →
      env' request s reply s') : Exec env' program state trace outcome final := by
  induction program generalizing state trace with
  | ret value => exact execution
  | raise error => exact execution
  | ask request next ih =>
      obtain ⟨reply, middle, rest, answered, rfl, later⟩ := execution
      refine ⟨reply, middle, rest, agrees request state reply middle ?_ answered, rfl, ?_⟩
      · exact checked _ List.mem_cons_self
      · exact ih reply later fun event member => checked event (List.mem_cons_of_mem _ member)

end Execution

/-!
## Weakest preconditions

`Meets env may program state post` holds when every request the program makes,
in whatever way the environment answers the earlier ones, is one it may make,
and every end of the program satisfies `post`.
-/

section Meets

variable {S : Signature} {α β σ : Type}

def Meets (env : Env S σ) (may : σ → S.Request → Prop) :
    Program S α → σ → (σ → Except S.Raised α → Prop) → Prop
  | .ret value, state, post => post state (.ok value)
  | .raise error, state, post => post state (.error error)
  | .ask request next, state, post =>
      may state request ∧ ∀ reply after, env request state reply after →
        Meets env may (next reply) after post

variable {env : Env S σ} {may : σ → S.Request → Prop}

@[simp] theorem meets_ret (value : α) (state : σ) (post : σ → Except S.Raised α → Prop) :
    Meets env may (.ret value) state post ↔ post state (.ok value) := Iff.rfl

@[simp] theorem meets_raise (error : S.Raised) (state : σ)
    (post : σ → Except S.Raised α → Prop) :
    Meets env may (.raise error) state post ↔ post state (.error error) := Iff.rfl

@[simp] theorem meets_ask (request : S.Request) (next : S.Reply request → Program S α)
    (state : σ) (post : σ → Except S.Raised α → Prop) :
    Meets env may (.ask request next) state post ↔
      may state request ∧ ∀ reply after, env request state reply after →
        Meets env may (next reply) after post := Iff.rfl

/-- The postcondition of the first of two programs: what the second one needs
where the first returned, the final postcondition where it raised. -/
def Sequel (env : Env S σ) (may : σ → S.Request → Prop) (next : α → Program S β)
    (post : σ → Except S.Raised β → Prop) : σ → Except S.Raised α → Prop
  | state, .ok value => Meets env may (next value) state post
  | state, .error error => post state (.error error)

@[simp] theorem sequel_ok (next : α → Program S β) (post : σ → Except S.Raised β → Prop)
    (state : σ) (value : α) :
    Sequel env may next post state (.ok value) ↔ Meets env may (next value) state post := Iff.rfl

@[simp] theorem sequel_error (next : α → Program S β) (post : σ → Except S.Raised β → Prop)
    (state : σ) (error : S.Raised) :
    Sequel env may next post state (.error error) ↔ post state (.error error) := Iff.rfl

theorem meets_bind (program : Program S α) (next : α → Program S β) (state : σ)
    (post : σ → Except S.Raised β → Prop) :
    Meets env may (program >>= next) state post ↔
      Meets env may program state (Sequel env may next post) := by
  induction program generalizing state with
  | ret value => rfl
  | raise error => rfl
  | ask request rest ih =>
      simp only [bind_ask, meets_ask]
      exact and_congr_right fun _ => forall_congr' fun reply => forall_congr' fun after =>
        imp_congr_right fun _ => ih reply after

/-- The postcondition of the body of a `try` statement with a handler. -/
def Handled (env : Env S σ) (may : σ → S.Request → Prop) (handler : S.Raised → Program S α)
    (post : σ → Except S.Raised α → Prop) : σ → Except S.Raised α → Prop
  | state, .ok value => post state (.ok value)
  | state, .error error => Meets env may (handler error) state post

@[simp] theorem handled_ok (handler : S.Raised → Program S α)
    (post : σ → Except S.Raised α → Prop) (state : σ) (value : α) :
    Handled env may handler post state (.ok value) ↔ post state (.ok value) := Iff.rfl

@[simp] theorem handled_error (handler : S.Raised → Program S α)
    (post : σ → Except S.Raised α → Prop) (state : σ) (error : S.Raised) :
    Handled env may handler post state (.error error) ↔
      Meets env may (handler error) state post := Iff.rfl

theorem meets_catch (program : Program S α) (handler : S.Raised → Program S α) (state : σ)
    (post : σ → Except S.Raised α → Prop) :
    Meets env may (catchWith program handler) state post ↔
      Meets env may program state (Handled env may handler post) := by
  induction program generalizing state with
  | ret value => rfl
  | raise error => rfl
  | ask request rest ih =>
      simp only [catchWith, meets_ask]
      exact and_congr_right fun _ => forall_congr' fun reply => forall_congr' fun after =>
        imp_congr_right fun _ => ih reply after

/-- The postcondition of the body of a `try` statement with a cleanup. -/
def Cleaned (env : Env S σ) (may : σ → S.Request → Prop) (cleanup : Program S Unit)
    (post : σ → Except S.Raised α → Prop) : σ → Except S.Raised α → Prop
  | state, outcome => Meets env may cleanup state fun after ended =>
      match ended with
      | .ok _ => post after outcome
      | .error error => post after (.error error)

theorem meets_finally (program : Program S α) (cleanup : Program S Unit) (state : σ)
    (post : σ → Except S.Raised α → Prop) :
    Meets env may (andFinally program cleanup) state post ↔
      Meets env may program state (Cleaned env may cleanup post) := by
  have ending : ∀ (last : Program S α) (outcome : Except S.Raised α) (state : σ),
      (∀ s, Meets env may last s post ↔ post s outcome) →
      (Meets env may (cleanup >>= fun _ => last) state post ↔
        Cleaned env may cleanup post state outcome) := by
    intro last outcome state ends
    rw [meets_bind]
    have same : Sequel env may (fun _ => last) post = fun after (ended : Except S.Raised Unit) =>
        match ended with
        | .ok _ => post after outcome
        | .error error => post after (.error error) := by
      funext after ended
      cases ended with
      | ok _ => exact propext (ends after)
      | error error => rfl
    rw [same]
    rfl
  induction program generalizing state with
  | ret value => exact ending (.ret value) (.ok value) state fun _ => Iff.rfl
  | raise error => exact ending (.raise error) (.error error) state fun _ => Iff.rfl
  | ask request rest ih =>
      simp only [andFinally, meets_ask]
      exact and_congr_right fun _ => forall_congr' fun reply => forall_congr' fun after =>
        imp_congr_right fun _ => ih reply after

theorem Meets.mono {may' : σ → S.Request → Prop} {program : Program S α} {state : σ}
    {post post' : σ → Except S.Raised α → Prop} (meets : Meets env may program state post)
    (permitted : ∀ s request, may s request → may' s request)
    (implied : ∀ s outcome, post s outcome → post' s outcome) :
    Meets env may' program state post' := by
  induction program generalizing state with
  | ret value => exact implied _ _ meets
  | raise error => exact implied _ _ meets
  | ask request rest ih =>
      exact ⟨permitted _ _ meets.1, fun reply after stepped => ih reply (meets.2 reply after stepped)⟩

theorem Meets.post {program : Program S α} {state : σ}
    {post post' : σ → Except S.Raised α → Prop} (meets : Meets env may program state post)
    (implied : ∀ s outcome, post s outcome → post' s outcome) :
    Meets env may program state post' :=
  meets.mono (fun _ _ permitted => permitted) implied

theorem Meets.and {program : Program S α} {state : σ} {post post' : σ → Except S.Raised α → Prop}
    (first : Meets env may program state post) (second : Meets env may program state post') :
    Meets env may program state fun after outcome => post after outcome ∧ post' after outcome := by
  induction program generalizing state with
  | ret value => exact ⟨first, second⟩
  | raise error => exact ⟨first, second⟩
  | ask request rest ih =>
      exact ⟨first.1, fun reply after answered =>
        ih reply (first.2 reply after answered) (second.2 reply after answered)⟩

theorem Meets.seq {program : Program S α} {next : α → Program S β} {state : σ}
    {middle : σ → Except S.Raised α → Prop} {post : σ → Except S.Raised β → Prop}
    (first : Meets env may program state middle)
    (returned : ∀ s value, middle s (.ok value) → Meets env may (next value) s post)
    (raised : ∀ s error, middle s (.error error) → post s (.error error)) :
    Meets env may (program >>= next) state post := by
  rw [meets_bind]
  refine first.post fun s outcome reached => ?_
  cases outcome with
  | ok value => exact returned s value reached
  | error error => exact raised s error reached

/-- The cleanup runs where the body ended, and its own exception replaces the outcome. -/
theorem Meets.finally {program : Program S α} {cleanup : Program S Unit} {state : σ}
    {middle post : σ → Except S.Raised α → Prop} (body : Meets env may program state middle)
    (cleaned : ∀ s outcome, middle s outcome → Meets env may cleanup s fun after ended =>
      (ended = .ok () → post after outcome) ∧
        ∀ error, ended = .error error → post after (.error error)) :
    Meets env may (andFinally program cleanup) state post := by
  rw [meets_finally]
  refine body.post fun s outcome reached => (cleaned s outcome reached).post ?_
  intro after ended both
  cases ended with
  | ok _ => exact both.1 rfl
  | error error => exact both.2 error rfl

theorem Meets.sound {program : Program S α} {state final : σ} {trace : List (Exchange S)}
    {outcome : Except S.Raised α} {post : σ → Except S.Raised α → Prop}
    (meets : Meets env may program state post)
    (execution : Exec env program state trace outcome final) : post final outcome := by
  induction program generalizing state trace with
  | ret value =>
      obtain ⟨_, rfl, rfl⟩ := execution
      exact meets
  | raise error =>
      obtain ⟨_, rfl, rfl⟩ := execution
      exact meets
  | ask request rest ih =>
      obtain ⟨reply, middle, tail, stepped, _, later⟩ := execution
      exact ih reply (meets.2 reply middle stepped) later

theorem Meets.reaches {program : Program S α} {state stop : σ}
    {post : σ → Except S.Raised α → Prop} {invariant : σ → Prop}
    (meets : Meets env may program state post) (reached : Reaches env program state stop)
    (preserved : ∀ request s reply s', invariant s → may s request → env request s reply s' →
      invariant s')
    (holds : invariant state) : invariant stop := by
  induction program generalizing state with
  | ret value =>
      obtain rfl : stop = state := reached
      exact holds
  | raise error =>
      obtain rfl : stop = state := reached
      exact holds
  | ask request next ih =>
      rcases reached with rfl | ⟨reply, middle, answered, later⟩
      · exact holds
      · exact ih reply (meets.2 reply middle answered) later
          (preserved request state reply middle holds meets.1 answered)

/-- Every request of an execution is permitted in the state it is made in, which
agrees with the summary of the exchanges before it. -/
theorem Meets.permits {τ : Type} {program : Program S α} {state final : σ}
    {trace : List (Exchange S)} {outcome : Except S.Raised α}
    {post : σ → Except S.Raised α → Prop} (meets : Meets env may program state post)
    (execution : Exec env program state trace outcome final)
    {observe : τ → Exchange S → τ} {summary : σ → τ}
    (kept : ∀ request s reply s', env request s reply s' →
      summary s' = observe (summary s) ⟨request, reply⟩)
    (before after : List (Exchange S)) (event : Exchange S) (split : trace = before ++ event :: after) :
    ∃ middle, summary middle = before.foldl observe (summary state) ∧ may middle event.1 := by
  induction program generalizing state trace before with
  | ret value => simp [execution.1] at split
  | raise error => simp [execution.1] at split
  | ask request rest ih =>
      obtain ⟨reply, next, tail, stepped, rfl, later⟩ := execution
      cases before with
      | nil =>
          obtain ⟨rfl, rfl⟩ := List.cons.inj split
          exact ⟨state, rfl, meets.1⟩
      | cons first more =>
          obtain ⟨rfl, rfl⟩ := List.cons.inj split
          obtain ⟨middle, same, permitted⟩ :=
            ih reply (meets.2 reply next stepped) later more rfl
          exact ⟨middle, by rw [same, kept _ _ _ _ stepped]; rfl, permitted⟩

end Meets

/-!
## What a program may ask at all
-/

section Asks

variable {S : Signature} {α β σ : Type}

/-- Every request of the program is one of these, whatever the replies are. -/
def Asks (allowed : S.Request → Prop) : Program S α → Prop
  | .ret _ => True
  | .raise _ => True
  | .ask request next => allowed request ∧ ∀ reply, Asks allowed (next reply)

variable {allowed : S.Request → Prop}

@[simp] theorem asks_ret (value : α) : Asks allowed (.ret value : Program S α) := trivial

@[simp] theorem asks_raise (error : S.Raised) : Asks allowed (.raise error : Program S α) := trivial

@[simp] theorem asks_ask (request : S.Request) (next : S.Reply request → Program S α) :
    Asks allowed (.ask request next) ↔ allowed request ∧ ∀ reply, Asks allowed (next reply) :=
  Iff.rfl

theorem Asks.mono {allowed' : S.Request → Prop} {program : Program S α}
    (asks : Asks allowed program) (implied : ∀ request, allowed request → allowed' request) :
    Asks allowed' program := by
  induction program with
  | ret value => trivial
  | raise error => trivial
  | ask request next ih => exact ⟨implied request asks.1, fun reply => ih reply (asks.2 reply)⟩

theorem asks_any (program : Program S α) : Asks (fun _ => True) program := by
  induction program with
  | ret value => trivial
  | raise error => trivial
  | ask request next ih => exact ⟨trivial, ih⟩

theorem asks_bind {program : Program S α} {next : α → Program S β} (first : Asks allowed program)
    (rest : ∀ value, Asks allowed (next value)) : Asks allowed (program >>= next) := by
  induction program with
  | ret value => exact rest value
  | raise error => trivial
  | ask request more ih => exact ⟨first.1, fun reply => ih reply (first.2 reply)⟩

theorem Asks.first {program : Program S α} {next : α → Program S β}
    (asks : Asks allowed (program >>= next)) : Asks allowed program := by
  induction program with
  | ret value => trivial
  | raise error => trivial
  | ask request more ih => exact ⟨asks.1, fun reply => ih reply (asks.2 reply)⟩

theorem asks_catch {program : Program S α} {handler : S.Raised → Program S α}
    (body : Asks allowed program) (handled : ∀ error, Asks allowed (handler error)) :
    Asks allowed (catchWith program handler) := by
  induction program with
  | ret value => trivial
  | raise error => exact handled error
  | ask request more ih => exact ⟨body.1, fun reply => ih reply (body.2 reply)⟩

theorem asks_except {caught : S.Raised → Bool} {program : Program S α}
    {handler : S.Raised → Program S α} (body : Asks allowed program)
    (handled : ∀ error, Asks allowed (handler error)) :
    Asks allowed (exceptWhere caught program handler) :=
  asks_catch body fun error => by
    split_ifs
    · exact handled error
    · trivial

theorem asks_finally {program : Program S α} {cleanup : Program S Unit}
    (body : Asks allowed program) (cleaned : Asks allowed cleanup) :
    Asks allowed (andFinally program cleanup) := by
  induction program with
  | ret value => exact asks_bind cleaned fun _ => trivial
  | raise error => exact asks_bind cleaned fun _ => trivial
  | ask request more ih => exact ⟨body.1, fun reply => ih reply (body.2 reply)⟩

/-- A program keeps to what it may do where every request it can make is
permitted as long as something holds that no exchange disturbs. -/
theorem Asks.meets {env : Env S σ} {may : σ → S.Request → Prop} {program : Program S α}
    (asks : Asks allowed program) (held : σ → Prop)
    (permitted : ∀ state request, held state → allowed request → may state request)
    (undisturbed : ∀ state request reply after, held state → allowed request →
      env request state reply after → held after)
    {state : σ} (holds : held state) : Meets env may program state fun after _ => held after := by
  induction program generalizing state with
  | ret value => exact holds
  | raise error => exact holds
  | ask request next ih =>
      exact ⟨permitted state request holds asks.1, fun reply after answered =>
        ih reply (asks.2 reply) (undisturbed state request reply after holds asks.1 answered)⟩

theorem Asks.exchanged {env : Env S σ} {program : Program S α} (asks : Asks allowed program)
    {state final : σ} {trace : List (Exchange S)} {outcome : Except S.Raised α}
    (execution : Exec env program state trace outcome final) :
    ∀ event ∈ trace, allowed event.1 := by
  induction program generalizing state trace with
  | ret value => simp [execution.1]
  | raise error => simp [execution.1]
  | ask request next ih =>
      obtain ⟨reply, middle, rest, _, rfl, later⟩ := execution
      intro event member
      rcases List.mem_cons.mp member with rfl | tail
      · exact asks.1
      · exact ih reply (asks.2 reply) later event tail

/-- Where the answers to what a program asks are carried over into another environment, its
executions are. -/
theorem Asks.carried {τ : Type} {env : Env S σ} {env' : Env S τ} {program : Program S α}
    (asks : Asks allowed program) (image : σ → τ)
    (answered : ∀ request s reply after, allowed request → env request s reply after →
      env' request (image s) reply (image after))
    {state final : σ} {trace : List (Exchange S)} {outcome : Except S.Raised α}
    (execution : Exec env program state trace outcome final) :
    Exec env' program (image state) trace outcome (image final) := by
  induction program generalizing state trace with
  | ret value =>
      have ⟨empty, ended, same⟩ := execution
      exact ⟨empty, ended, congrArg image same⟩
  | raise error =>
      have ⟨empty, ended, same⟩ := execution
      exact ⟨empty, ended, congrArg image same⟩
  | ask request next ih =>
      have ⟨reply, middle, rest, replied, told, later⟩ := execution
      exact ⟨reply, image middle, rest, answered request state reply middle asks.1 replied, told,
        ih reply (asks.2 reply) later⟩

end Asks

/-!
## What a program may return at all
-/

section Yields

variable {S : Signature} {α β σ : Type}

/-- Every value the program can return is one of these, whatever the replies are. -/
def Yields (expected : α → Prop) : Program S α → Prop
  | .ret value => expected value
  | .raise _ => True
  | .ask _ next => ∀ reply, Yields expected (next reply)

theorem yields_bind {expected : β → Prop} {program : Program S α} {next : α → Program S β}
    (rest : ∀ value, Yields expected (next value)) : Yields expected (program >>= next) := by
  induction program with
  | ret value => exact rest value
  | raise error => trivial
  | ask request more ih => exact fun reply => ih reply

theorem Yields.meets {env : Env S σ} {may : σ → S.Request → Prop} {expected : α → Prop}
    {program : Program S α} (yields : Yields expected program)
    (permitted : ∀ state request, may state request) (state : σ) :
    Meets env may program state fun _ outcome =>
      ∀ value, outcome = .ok value → expected value := by
  induction program generalizing state with
  | ret value =>
      rintro _ ⟨⟩
      exact yields
  | raise error => rintro _ ⟨⟩
  | ask request next ih =>
      exact ⟨permitted state request, fun reply after _ => ih reply (yields reply) after⟩

end Yields

/-!
## What a program may raise at all
-/

section Raises

variable {S : Signature} {α β σ : Type}

/-- As long as the replies are among these, every exception of the program is one of those. -/
def RaisesOnly (replies : (request : S.Request) → S.Reply request → Prop)
    (raised : S.Raised → Prop) : Program S α → Prop
  | .ret _ => True
  | .raise error => raised error
  | .ask request next => ∀ reply, replies request reply → RaisesOnly replies raised (next reply)

variable {replies : (request : S.Request) → S.Reply request → Prop} {raised : S.Raised → Prop}

theorem RaisesOnly.mono {raised' : S.Raised → Prop} {program : Program S α}
    (raises : RaisesOnly replies raised program) (implied : ∀ error, raised error → raised' error) :
    RaisesOnly replies raised' program := by
  induction program with
  | ret value => trivial
  | raise error => exact implied error raises
  | ask request next ih => exact fun reply replied => ih reply (raises reply replied)

theorem raises_bind {program : Program S α} {next : α → Program S β}
    (first : RaisesOnly replies raised program)
    (rest : ∀ value, RaisesOnly replies raised (next value)) :
    RaisesOnly replies raised (program >>= next) := by
  induction program with
  | ret value => exact rest value
  | raise error => exact first
  | ask request more ih => exact fun reply replied => ih reply (first reply replied)

theorem raises_catch {caught : S.Raised → Prop} {program : Program S α}
    {handler : S.Raised → Program S α} (body : RaisesOnly replies caught program)
    (handled : ∀ error, caught error → RaisesOnly replies raised (handler error)) :
    RaisesOnly replies raised (catchWith program handler) := by
  induction program with
  | ret value => trivial
  | raise error => exact handled error body
  | ask request more ih => exact fun reply replied => ih reply (body reply replied)

theorem raises_finally {program : Program S α} {cleanup : Program S Unit}
    (body : RaisesOnly replies raised program) (cleaned : RaisesOnly replies raised cleanup) :
    RaisesOnly replies raised (andFinally program cleanup) := by
  induction program with
  | ret value => exact raises_bind cleaned fun _ => trivial
  | raise error => exact raises_bind cleaned fun _ => body
  | ask request more ih => exact fun reply replied => ih reply (body reply replied)

/-- Where the environment gives such replies, and what it has to keep for that is kept, the
program ends without any other exception. -/
theorem RaisesOnly.meets {allowed : S.Request → Prop} {env : Env S σ}
    {may : σ → S.Request → Prop} {program : Program S α} (asks : Asks allowed program)
    (raises : RaisesOnly replies raised program) (held : σ → Prop)
    (permitted : ∀ state request, held state → allowed request → may state request)
    (answered : ∀ state request reply after, held state → allowed request →
      env request state reply after → held after ∧ replies request reply)
    {state : σ} (holds : held state) :
    Meets env may program state fun after outcome =>
      held after ∧ ∀ error, outcome = .error error → raised error := by
  induction program generalizing state with
  | ret value => exact ⟨holds, fun _ never => nomatch never⟩
  | raise error => exact ⟨holds, fun _ same => Except.error.inj same ▸ raises⟩
  | ask request next ih =>
      apply And.intro (permitted state request holds asks.1)
      intro reply after exchanged
      obtain ⟨kept, replied⟩ := answered state request reply after holds asks.1 exchanged
      exact ih reply (asks.2 reply) (raises reply replied) kept

end Raises

/-!
## What a program lets out
-/

section Lets

variable {S : Signature} {α β σ : Type}

/-- The program asks nothing but these requests, and it raises only what an exchange lets
out, right where that happens. -/
def LetsOut (asked : S.Request → Prop) (out : Exchange S → Option S.Raised) : Program S α → Prop
  | .ret _ => True
  | .raise _ => False
  | .ask request next => asked request ∧ ∀ reply,
      (∀ error, out ⟨request, reply⟩ = some error → next reply = .raise error) ∧
        (out ⟨request, reply⟩ = none → LetsOut asked out (next reply))

variable {asked : S.Request → Prop} {out : Exchange S → Option S.Raised}

theorem lets_bind {program : Program S α} {next : α → Program S β}
    (first : LetsOut asked out program) (rest : ∀ value, LetsOut asked out (next value)) :
    LetsOut asked out (program >>= next) := by
  induction program with
  | ret value => exact rest value
  | raise error => exact first.elim
  | ask request more ih =>
      apply And.intro first.1
      intro reply
      constructor
      · intro error lets
        change more reply >>= next = .raise error
        rw [(first.2 reply).1 error lets, bind_raise]
      · exact fun kept => ih reply ((first.2 reply).2 kept)

theorem LetsOut.mono {asked' : S.Request → Prop} {program : Program S α}
    (lets : LetsOut asked out program) (implied : ∀ request, asked request → asked' request) :
    LetsOut asked' out program := by
  induction program with
  | ret value => trivial
  | raise error => exact lets
  | ask request next ih =>
      apply And.intro (implied request lets.1)
      exact fun reply => ⟨(lets.2 reply).1, fun kept => ih reply ((lets.2 reply).2 kept)⟩

theorem LetsOut.asks {program : Program S α} (lets : LetsOut asked out program) :
    Asks asked program := by
  induction program with
  | ret value => trivial
  | raise error => trivial
  | ask request next ih =>
      apply And.intro lets.1
      intro reply
      cases outcome : out ⟨request, reply⟩ with
      | none => exact ih reply ((lets.2 reply).2 outcome)
      | some error =>
          rw [(lets.2 reply).1 error outcome]
          trivial

theorem LetsOut.raises {replies : (request : S.Request) → S.Reply request → Prop}
    {raised : S.Raised → Prop} {program : Program S α} (lets : LetsOut asked out program)
    (escapes : ∀ request reply error, asked request → replies request reply →
      out ⟨request, reply⟩ = some error → raised error) : RaisesOnly replies raised program := by
  induction program with
  | ret value => trivial
  | raise error => exact lets.elim
  | ask request next ih =>
      intro reply replied
      cases outcome : out ⟨request, reply⟩ with
      | none => exact ih reply ((lets.2 reply).2 outcome)
      | some error =>
          rw [(lets.2 reply).1 error outcome]
          exact escapes request reply error lets.1 replied outcome

/-- What every exchange keeps that lets nothing out holds where the program returns. -/
theorem LetsOut.meets {env : Env S σ} {may : σ → S.Request → Prop} {program : Program S α}
    {post : σ → Except S.Raised α → Prop} (lets : LetsOut asked out program) (held : σ → Prop)
    (permitted : ∀ state request, held state → asked request → may state request)
    (kept : ∀ state request reply after, held state → asked request →
      env request state reply after → out ⟨request, reply⟩ = none → held after)
    (escapes : ∀ state request reply after error, held state → asked request →
      env request state reply after → out ⟨request, reply⟩ = some error → post after (.error error))
    (returned : ∀ state value, held state → post state (.ok value))
    {state : σ} (holds : held state) : Meets env may program state post := by
  induction program generalizing state with
  | ret value => exact returned state value holds
  | raise error => exact lets.elim
  | ask request next ih =>
      apply And.intro (permitted state request holds lets.1)
      intro reply after answered
      cases outcome : out ⟨request, reply⟩ with
      | none =>
          apply ih reply ((lets.2 reply).2 outcome)
          exact kept state request reply after holds lets.1 answered outcome
      | some error =>
          rw [(lets.2 reply).1 error outcome]
          exact escapes state request reply after error holds lets.1 answered outcome

end Lets

/-!
## Ports made of other ports
-/

section Implementing

variable {S T : Signature} {α : Type} {σ : Type}

def settle : Program T α → Program T (Except T.Raised α)
  | .ret value => .ret (.ok value)
  | .raise error => .ret (.error error)
  | .ask request next => .ask request fun reply => settle (next reply)

/-- A program whose requests are carried out by programs for other ports. -/
def through (implement : (request : S.Request) → Program T (S.Reply request))
    (raised : S.Raised → T.Raised) : Program S α → Program T α
  | .ret value => .ret value
  | .raise error => .raise (raised error)
  | .ask request next =>
      bind (implement request) fun reply => through implement raised (next reply)

theorem meets_settle {env : Env T σ} {may : σ → T.Request → Prop} (program : Program T α)
    (state : σ) (post : σ → Except T.Raised (Except T.Raised α) → Prop) :
    Meets env may (settle program) state post ↔
      Meets env may program state fun after outcome => post after (.ok outcome) := by
  induction program generalizing state with
  | ret value => rfl
  | raise error => rfl
  | ask request next ih =>
      simp only [settle, meets_ask]
      exact and_congr_right fun _ => forall_congr' fun reply => forall_congr' fun after =>
        imp_congr_right fun _ => ih reply after

theorem through_bind {β : Type} (implement : (request : S.Request) → Program T (S.Reply request))
    (raised : S.Raised → T.Raised) (program : Program S α) (next : α → Program S β) :
    through implement raised (program >>= next) =
      through implement raised program >>= fun value => through implement raised (next value) := by
  induction program with
  | ret value => rfl
  | raise error => rfl
  | ask request rest ih =>
      have later : (fun reply => through implement raised (rest reply >>= next)) =
          fun reply => through implement raised (rest reply) >>= fun value =>
            through implement raised (next value) := funext ih
      change (implement request >>= fun reply => through implement raised (rest reply >>= next)) =
        (implement request >>= fun reply => through implement raised (rest reply)) >>= _
      rw [later, bind_bind]

theorem asks_through {allowed : S.Request → Prop} {allowed' : T.Request → Prop}
    {implement : (request : S.Request) → Program T (S.Reply request)}
    {raised : S.Raised → T.Raised} {program : Program S α} (asks : Asks allowed program)
    (implemented : ∀ request, allowed request → Asks allowed' (implement request)) :
    Asks allowed' (through implement raised program) := by
  induction program with
  | ret value => trivial
  | raise error => trivial
  | ask request next ih =>
      exact asks_bind (implemented request asks.1) fun reply => ih reply (asks.2 reply)

/-- What holds of a program in an environment that says what its requests come to when
they are carried out holds of the program that carries them out. -/
theorem Meets.through {env : Env T σ} {outer : Env S σ} {may : σ → T.Request → Prop}
    {may' : σ → S.Request → Prop} {implement : (request : S.Request) → Program T (S.Reply request)}
    {raised : S.Raised → T.Raised} {program : Program S α} {state : σ}
    {post : σ → Except S.Raised α → Prop} {post' : σ → Except T.Raised α → Prop}
    (implemented : ∀ request s, Meets env may (implement request) s fun after outcome =>
      ∃ reply, outcome = .ok reply ∧ outer request s reply after)
    (returned : ∀ s value, post s (.ok value) → post' s (.ok value))
    (failed : ∀ s error, post s (.error error) → post' s (.error (raised error)))
    (meets : Meets outer may' program state post) :
    Meets env may (Effects.through implement raised program) state post' := by
  induction program generalizing state with
  | ret value => exact returned _ _ meets
  | raise error => exact failed _ _ meets
  | ask request next ih =>
      apply (implemented request state).seq
      · rintro after reply ⟨_, same, answered⟩
        cases same
        exact ih reply (meets.2 reply after answered)
      · rintro after error ⟨_, same, _⟩
        cases same

/-- Where a request is carried out only if it is permitted, the program that carries out the
permitted requests of another one keeps to what it may do. -/
theorem Meets.through_permitted {env : Env T σ} {outer : Env S σ} {may : σ → T.Request → Prop}
    {may' : σ → S.Request → Prop} {implement : (request : S.Request) → Program T (S.Reply request)}
    {raised : S.Raised → T.Raised} {program : Program S α} {state : σ}
    {post : σ → Except S.Raised α → Prop}
    (implemented : ∀ request s, may' s request →
      Meets env may (implement request) s fun after outcome =>
        ∃ reply, outcome = .ok reply ∧ outer request s reply after)
    (meets : Meets outer may' program state post) :
    Meets env may (Effects.through implement raised program) state fun _ _ => True := by
  induction program generalizing state with
  | ret value => trivial
  | raise error => trivial
  | ask request next ih =>
      apply (implemented request state meets.1).seq
      · intro after reply carried
        obtain ⟨_, same, answered⟩ := carried
        cases same
        exact ih reply (meets.2 reply after answered)
      · intro after error carried
        trivial

end Implementing

section Erasing

variable {S : Signature} {α β : Type}

def erase (silent : (request : S.Request) → Option (S.Reply request)) : Program S α → Program S α
  | .ret value => .ret value
  | .raise error => .raise error
  | .ask request next =>
      match silent request with
      | some reply => erase silent (next reply)
      | none => .ask request fun reply => erase silent (next reply)

theorem erase_bind (silent : (request : S.Request) → Option (S.Reply request))
    (program : Program S α) (next : α → Program S β) :
    erase silent (program >>= next) =
      erase silent program >>= fun value => erase silent (next value) := by
  induction program with
  | ret value => rfl
  | raise error => rfl
  | ask request rest ih =>
      change erase silent (.ask request fun reply => rest reply >>= next) = _
      cases answered : silent request with
      | some reply =>
          simp only [erase, answered]
          exact ih reply
      | none =>
          simp only [erase, answered]
          exact congrArg (Program.ask request) (funext ih)

end Erasing

end DearAgent.Lib.Effects
