import DearAgent.Lib.Effects

/-!
# Stories

In deterministic surroundings a program has one execution. Its story is told
moment by moment, with the states around every exchange, and is put together
from the stories of the parts of the program. Two programs that differ only in
what follows certain requests have the same story as long as none of these is
made.
-/

namespace DearAgent.Lib.Stories

open DearAgent.Lib.Effects

set_option autoImplicit false

variable {S : Signature} {α β σ : Type}

/-- An exchange with the states it was made in and it left. -/
structure Moment (S : Signature) (σ : Type) where
  before : σ
  event : Exchange S
  after : σ

abbrev Answer (S : Signature) (σ : Type) := (request : S.Request) → σ → S.Reply request × σ

variable (answer : Answer S σ)

def moment (request : S.Request) (state : σ) : Moment S σ where
  before := state
  event := ⟨request, (answer request state).1⟩
  after := (answer request state).2

/-- The moments of the execution of a program, its outcome and the final state. -/
def story : Program S α → σ → List (Moment S σ) × Except S.Raised α × σ
  | .ret value, state => ([], .ok value, state)
  | .raise error, state => ([], .error error, state)
  | .ask request next, state =>
      let rest := story (next (answer request state).1) (answer request state).2
      (moment answer request state :: rest.1, rest.2)

/-- The story of a program from a state, its outcome and the final state. -/
def Tells (program : Program S α) (state : σ)
    (post : List (Moment S σ) → Except S.Raised α → σ → Prop) : Prop :=
  post (story answer program state).1 (story answer program state).2.1
    (story answer program state).2.2

variable {answer} {program : Program S α} {state : σ}

theorem tells_ask {request : S.Request} {next : S.Reply request → Program S α}
    {post : List (Moment S σ) → Except S.Raised α → σ → Prop} {reply : S.Reply request}
    (replied : (answer request state).1 = reply)
    (later : Tells answer (next reply) (answer request state).2
      fun more outcome final => post (moment answer request state :: more) outcome final) :
    Tells answer (.ask request next) state post := by
  rw [← replied] at later
  exact later

theorem Tells.mono {post post' : List (Moment S σ) → Except S.Raised α → σ → Prop}
    (tells : Tells answer program state post)
    (implied : ∀ told outcome final, post told outcome final → post' told outcome final) :
    Tells answer program state post' :=
  implied _ _ _ tells

theorem Tells.seq {next : α → Program S β}
    {middle : List (Moment S σ) → Except S.Raised α → σ → Prop}
    {post : List (Moment S σ) → Except S.Raised β → σ → Prop}
    (first : Tells answer program state middle)
    (returned : ∀ told value s, middle told (.ok value) s →
      Tells answer (next value) s fun more outcome final => post (told ++ more) outcome final)
    (raised : ∀ told error s, middle told (.error error) s → post told (.error error) s) :
    Tells answer (program >>= next) state post := by
  induction program generalizing state middle post with
  | ret value => exact returned [] value state first
  | raise error => exact raised [] error state first
  | ask request rest ih =>
      have opening : Tells answer (rest (answer request state).1) (answer request state).2
          fun told outcome final => middle (moment answer request state :: told) outcome final :=
        first
      have later : Tells answer (rest (answer request state).1 >>= next) (answer request state).2
          fun told outcome final => post (moment answer request state :: told) outcome final := by
        apply ih _ opening
        · intro told value s reached
          exact returned (moment answer request state :: told) value s reached
        · intro told error s reached
          exact raised (moment answer request state :: told) error s reached
      exact later

theorem Tells.finally {cleanup : Program S Unit}
    {middle post : List (Moment S σ) → Except S.Raised α → σ → Prop}
    (body : Tells answer program state middle)
    (cleaned : ∀ told outcome s, middle told outcome s →
      Tells answer cleanup s fun more ended final =>
        (ended = .ok () → post (told ++ more) outcome final) ∧
          ∀ error, ended = .error error → post (told ++ more) (.error error) final) :
    Tells answer (andFinally program cleanup) state post := by
  induction program generalizing state middle post with
  | ret value =>
      have cleanedUp := cleaned [] (.ok value) state body
      apply cleanedUp.seq
      · intro told _ s both
        have ended := both.1 rfl
        rw [List.nil_append, ← List.append_nil told] at ended
        exact ended
      · intro told error s both
        exact both.2 error rfl
  | raise error =>
      have cleanedUp := cleaned [] (.error error) state body
      apply cleanedUp.seq
      · intro told _ s both
        have ended := both.1 rfl
        rw [List.nil_append, ← List.append_nil told] at ended
        exact ended
      · intro told other s both
        exact both.2 other rfl
  | ask request rest ih =>
      have opening : Tells answer (rest (answer request state).1) (answer request state).2
          fun told outcome final => middle (moment answer request state :: told) outcome final :=
        body
      have later : Tells answer (andFinally (rest (answer request state).1) cleanup)
          (answer request state).2
          fun told outcome final => post (moment answer request state :: told) outcome final := by
        apply ih _ opening
        intro told outcome s reached
        exact cleaned (moment answer request state :: told) outcome s reached
      exact later

theorem tells_asked {allowed : S.Request → Prop} (asks : Asks allowed program) (state : σ) :
    Tells answer program state fun told _ _ => ∀ item ∈ told, allowed item.event.1 := by
  induction program generalizing state with
  | ret value => exact fun _ member => absurd member List.not_mem_nil
  | raise error => exact fun _ member => absurd member List.not_mem_nil
  | ask request next ih => exact List.forall_mem_cons.mpr ⟨asks.1, ih _ (asks.2 _) _⟩

/-!
## What a story permits
-/

def telling (answer : Answer S σ) : Env S (σ × List (Moment S σ)) :=
  fun request state reply after =>
    reply = (answer request state.1).1 ∧
      after = ((answer request state.1).2, state.2 ++ [moment answer request state.1])

/-- Every request of a story is permitted in the state it is made in, by the story before it. -/
theorem tells_permitted {may : σ × List (Moment S σ) → S.Request → Prop}
    {told : List (Moment S σ)} {post : σ × List (Moment S σ) → Except S.Raised α → Prop}
    (meets : Meets (telling answer) may program (state, told) post)
    (front rest : List (Moment S σ)) (item : Moment S σ)
    (split : (story answer program state).1 = front ++ item :: rest) :
    may (item.before, told ++ front) item.event.1 := by
  induction program generalizing state told front with
  | ret value => exact absurd split (by simp [story])
  | raise error => exact absurd split (by simp [story])
  | ask request next ih =>
      have later := meets.2 _ _ ⟨rfl, rfl⟩
      cases front with
      | nil =>
          obtain ⟨rfl, _⟩ := List.cons.inj split
          rw [List.append_nil]
          exact meets.1
      | cons first front =>
          obtain ⟨rfl, shape⟩ := List.cons.inj split
          have permitted := ih _ later front shape
          rwa [List.append_assoc] at permitted

/-!
## Programs that part ways
-/

/-- The second program does what the first one does, until it makes one of these requests. -/
inductive Follows (parting : S.Request → Prop) : Program S α → Program S α → Prop
  | same (program : Program S α) : Follows parting program program
  | parts (program : Program S α) (request : S.Request) (next : S.Reply request → Program S α)
      (leaves : parting request) : Follows parting program (.ask request next)
  | asks (request : S.Request) (next next' : S.Reply request → Program S α)
      (later : ∀ reply, Follows parting (next reply) (next' reply)) :
      Follows parting (.ask request next) (.ask request next')

variable {parting : S.Request → Prop}

theorem follows_bind (program : Program S α) {next next' : α → Program S β}
    (follows : ∀ value, Follows parting (next value) (next' value)) :
    Follows parting (program >>= next) (program >>= next') := by
  induction program with
  | ret value => exact follows value
  | raise error => exact .same _
  | ask request rest ih => exact .asks request _ _ ih

theorem Follows.bind {program program' : Program S α} (follows : Follows parting program program')
    (next : α → Program S β) : Follows parting (program >>= next) (program' >>= next) := by
  induction follows with
  | same program => exact .same _
  | parts program request rest leaves => exact .parts _ request _ leaves
  | asks request rest rest' later ih => exact .asks request _ _ ih

theorem Follows.finally {program program' : Program S α}
    (follows : Follows parting program program') (cleanup : Program S Unit) :
    Follows parting (andFinally program cleanup) (andFinally program' cleanup) := by
  induction follows with
  | same program => exact .same _
  | parts program request rest leaves => exact .parts _ request _ leaves
  | asks request rest rest' later ih => exact .asks request _ _ ih

theorem Follows.story {program program' : Program S α} (follows : Follows parting program program')
    (state : σ)
    (together : ∀ item ∈ (story answer program' state).1, ¬parting item.event.1) :
    Stories.story answer program state = Stories.story answer program' state := by
  induction follows generalizing state with
  | same program => rfl
  | parts program request rest leaves =>
      exact absurd leaves (together _ (List.mem_cons_self ..))
  | asks request rest rest' later ih =>
      have same := ih (answer request state).1 (answer request state).2
        fun item member => together item (List.mem_cons_of_mem _ member)
      unfold Stories.story
      rw [same]

end DearAgent.Lib.Stories
