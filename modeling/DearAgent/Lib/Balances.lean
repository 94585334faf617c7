import Mathlib.Algebra.BigOperators.Ring.Finset
import DearAgent.Lib.Interleaving

/-!
# Balances of interleaved programs

An exchange can move something between a shared stock and the process that makes it: a permit
of a semaphore, the duty to close a connection. A weight says how much the process gets. What
the stock holds and what all the processes hold then adds up to the same in every run, and what
one process holds follows from its program alone.
-/

namespace DearAgent.Lib.Interleaving

open DearAgent.Lib.Effects

set_option autoImplicit false

variable {S : Signature} {O σ : Type}

section Traces

variable (weight : Exchange S → Int)

def balance (trace : List (Exchange S)) : Int := (trace.map weight).sum

@[simp] theorem balance_nil : balance weight [] = 0 := rfl

theorem balance_append (trace later : List (Exchange S)) :
    balance weight (trace ++ later) = balance weight trace + balance weight later := by
  unfold balance
  rw [List.map_append, List.sum_append]

@[simp] theorem balance_single (event : Exchange S) : balance weight [event] = weight event := by
  simp [balance]

/-- What the processes with the first numbers hold together is what the whole history moved, if
no other process is in it. -/
theorem sum_of_balances {history : History S O} {count : Nat}
    (known : ∀ entry ∈ history, entry.pid < count) :
    ∑ pid ∈ Finset.range count, balance weight (own history pid) =
      balance weight (history.map Entry.event) := by
  induction history using List.reverseRecOn with
  | nil => simp [own]
  | append_singleton front entry ih =>
      have earlier := ih fun other member => known other (List.mem_append_left _ member)
      have inside : entry.pid ∈ Finset.range count :=
        Finset.mem_range.mpr (known entry (List.mem_append_right _ (List.mem_singleton_self _)))
      have added : ∀ pid ∈ Finset.range count, balance weight (own (front ++ [entry]) pid) =
          balance weight (own front pid) + if entry.pid = pid then weight entry.event else 0 := by
        intro pid _
        rw [own_append, balance_append]
        split_ifs
        · rw [balance_single]
        · rw [balance_nil]
      rw [Finset.sum_congr rfl added, Finset.sum_add_distrib, earlier, Finset.sum_ite_eq,
        if_pos inside, List.map_append, balance_append]
      exact congrArg _ (balance_single weight _).symm

def counting (honest : Exchange S → Prop) : Env S Int :=
  fun request before reply after =>
    honest ⟨request, reply⟩ ∧ after = before + weight ⟨request, reply⟩

theorem meets_of_counting {α : Type} {honest : Exchange S → Prop} {may : Int → S.Request → Prop}
    {post : Int → Except S.Raised α → Prop} {program : Program S α} {past : List (Exchange S)}
    (meets : Meets (counting weight honest) may program (balance weight past) post) :
    Meets (heard honest) (fun past => may (balance weight past)) program past
      fun past => post (balance weight past) := by
  induction program generalizing past with
  | ret value => exact meets
  | raise error => exact meets
  | ask request next ih =>
      apply And.intro meets.1
      intro reply after answered
      apply ih
      rw [answered.2, balance_append, balance_single]
      exact meets.2 reply _ ⟨answered.1, rfl⟩

/-- What a process may ask that holds none or one: it holds one wherever the request needs it. -/
def affords {R : Type} (needs : R → Prop) (held : Int) (request : R) : Prop :=
  (held = 0 ∨ held = 1) ∧ (needs request → held = 1)

theorem affords_none {R : Type} {needs : R → Prop} {request : R} (free : ¬needs request) :
    affords needs 0 request :=
  ⟨.inl rfl, fun need => absurd need free⟩

theorem affords_one {R : Type} {needs : R → Prop} {request : R} : affords needs 1 request :=
  ⟨.inr rfl, fun _ => rfl⟩

/-- A program that affords its requests and takes what is held from `first` to `last`, however it
ends. -/
def Moves {α : Type} (honest : Exchange S → Prop) (needs : S.Request → Prop)
    (program : Program S α) (first last : Int) : Prop :=
  Meets (counting weight honest) (affords needs) program first fun held _ => held = last

/-- A program that holds at most one at any time, holds one wherever it makes a request that
needs it, and holds none when it ends. -/
def Borrows (honest : Exchange S → Prop) (needs : S.Request → Prop) (program : Program S Unit) :
    Prop :=
  Moves weight honest needs program 0 0

section Rules

variable {weight} {α β : Type} {honest : Exchange S → Prop} {needs : S.Request → Prop}
  {first middle last : Int}

theorem Meets.counted {request : S.Request} {next : S.Reply request → Program S α}
    {post : Int → Except S.Raised α → Prop} (may : affords needs first request)
    (each : ∀ reply, honest ⟨request, reply⟩ → Meets (counting weight honest) (affords needs)
      (next reply) (first + weight ⟨request, reply⟩) post) :
    Meets (counting weight honest) (affords needs) (.ask request next) first post := by
  apply And.intro may
  intro reply after answered
  rw [answered.2]
  exact each reply answered.1

theorem moves_unwrap (reply : Except S.Raised α) :
    Moves weight honest needs (unwrap reply) first first := by
  cases reply <;> rfl

theorem Moves.seq {program : Program S α} {next : α → Program S β}
    (body : Moves weight honest needs program first last)
    (rest : ∀ value, Moves weight honest needs (next value) last last) :
    Moves weight honest needs (program >>= next) first last := by
  apply Meets.seq body
  · intro held value same
    rw [same]
    exact rest value
  · exact fun _ _ same => same

theorem Moves.finally {program : Program S α} {cleanup : Program S Unit}
    (body : Moves weight honest needs program first middle)
    (cleaned : Moves weight honest needs cleanup middle last) :
    Moves weight honest needs (andFinally program cleanup) first last := by
  apply Meets.finally body
  intro held outcome same
  rw [same]
  exact Meets.post cleaned fun _ _ ends => ⟨fun _ => ends, fun _ _ => ends⟩

theorem Moves.catch {program : Program S α} {handler : S.Raised → Program S α}
    (body : Moves weight honest needs program first last)
    (handled : ∀ error, Moves weight honest needs (handler error) last last) :
    Moves weight honest needs (catchWith program handler) first last := by
  apply (meets_catch _ _ _ _).mpr
  apply Meets.post body
  intro held outcome same
  rw [same]
  cases outcome with
  | ok value => rfl
  | error error => exact handled error

end Rules

end Traces

section Runs

variable {env : Env S σ} {start : O → Program S Unit} {shared : σ} {c : Config S O σ}
  {weight : Exchange S → Int}

def holders (weight : Exchange S → Int) (c : Config S O σ) : Finset Nat :=
  (Finset.range c.processes.length).filter fun pid => balance weight (own c.history pid) = 1

theorem stock_conserved {stock : σ → Int}
    (moves : ∀ request state reply after, env request state reply after →
      stock after + weight ⟨request, reply⟩ = stock state)
    (reachable : Reachable env start shared c) :
    stock c.shared + balance weight (c.history.map Entry.event) = stock shared := by
  induction reachable with
  | refl => simp [initial]
  | @tail c d _ step ih =>
      cases step with
      | launch operation => exact ih
      | act entry next after scheduled answered admitted =>
          have moved : stock after + weight entry.event = stock c.shared := moves _ _ _ _ answered
          simp only [Config.after, List.map_append, List.map_cons, List.map_nil, balance_append,
            balance_single]
          omega

variable {honest : Exchange S → Prop} {needs : S.Request → Prop}
  (truthful : ∀ request state reply after, env request state reply after → honest ⟨request, reply⟩)
  (programs : ∀ operation, Borrows weight honest needs (start operation))
  (reachable : Reachable env start shared c)

include truthful programs reachable

theorem borrowing {pid : Nat} {process : Process S O} (found : c.processes[pid]? = some process) :
    Meets (heard honest) (fun past => affords needs (balance weight past)) process.program
      (own c.history pid)
      fun past _ => balance weight past = 0 :=
  meets_throughout (fun _ _ _ _ _ answered => truthful _ _ _ _ answered)
    (fun operation => meets_of_counting weight (programs operation))
    (Run.guarded reachable) pid process found

theorem ended_holds_none {pid : Nat} {process : Process S O}
    {outcome : Except S.Raised Unit} (found : c.processes[pid]? = some process)
    (ended : process.outcome = some outcome) : balance weight (own c.history pid) = 0 :=
  meets_outcome (borrowing truthful programs reachable found) ended

theorem holds_where_needed {pid : Nat} {operation : O} {request : S.Request}
    {next : S.Reply request → Program S Unit}
    (scheduled : c.processes[pid]? = some ⟨operation, .ask request next⟩) (need : needs request) :
    pid ∈ holders weight c := by
  have met := borrowing truthful programs reachable scheduled
  have bound := (List.getElem?_eq_some_iff.mp scheduled).1
  exact Finset.mem_filter.mpr ⟨Finset.mem_range.mpr bound, met.1.2 need⟩

theorem holds_none_or_one (pid : Nat) :
    balance weight (own c.history pid) = 0 ∨ balance weight (own c.history pid) = 1 := by
  cases found : c.processes[pid]? with
  | none =>
      have bound := List.getElem?_eq_none_iff.mp found
      have silent : own c.history pid = [] := by
        unfold own
        rw [List.map_eq_nil_iff, List.filter_eq_nil_iff]
        intro entry member
        have known := history_before_launch reachable entry member
        simp only [decide_eq_true_eq]
        omega
      rw [silent]
      exact .inl rfl
  | some process =>
      have met := borrowing truthful programs reachable found
      have ⟨operation, program⟩ := process
      cases program with
      | ret value => exact .inl met
      | raise error => exact .inl met
      | ask request next => exact met.1.1

theorem balance_eq_holders :
    balance weight (c.history.map Entry.event) = (holders weight c).card := by
  rw [← sum_of_balances weight (history_before_launch reachable)]
  have each : ∀ pid ∈ Finset.range c.processes.length, balance weight (own c.history pid) =
      if balance weight (own c.history pid) = 1 then 1 else 0 := by
    intro pid _
    cases holds_none_or_one truthful programs reachable pid with
    | inl none => rw [none, if_neg (by decide)]
    | inr one => rw [one, if_pos rfl]
  rw [Finset.sum_congr rfl each, Finset.sum_boole]
  rfl

/-- The stock and the processes that hold one of it are together what the stock was. -/
theorem stock_and_holders {stock : σ → Int}
    (moves : ∀ request state reply after, env request state reply after →
      stock after + weight ⟨request, reply⟩ = stock state) :
    stock c.shared + (holders weight c).card = stock shared := by
  rw [← balance_eq_holders truthful programs reachable]
  exact stock_conserved moves reachable

theorem stock_restored {stock : σ → Int}
    (moves : ∀ request state reply after, env request state reply after →
      stock after + weight ⟨request, reply⟩ = stock state)
    (ended : ∀ process ∈ c.processes, process.outcome ≠ none) : stock c.shared = stock shared := by
  have none : holders weight c = ∅ := by
    apply Finset.filter_eq_empty_iff.mpr
    intro pid inside
    have bound := Finset.mem_range.mp inside
    have found := List.getElem?_eq_getElem bound
    have ⟨outcome, done⟩ := Option.ne_none_iff_exists'.mp (ended _ (List.getElem_mem bound))
    rw [ended_holds_none truthful programs reachable found done]
    decide
  have total := stock_and_holders truthful programs reachable moves
  rw [none, Finset.card_empty] at total
  simpa using total

end Runs

/-- A schedule whose every request is ready to be answered where it is made is a run, also where
the surroundings leave other requests waiting. -/
theorem run_play_ready {env : Env S σ} {answer : (request : S.Request) → σ → S.Reply request × σ}
    {start : O → Program S Unit} {ready : S.Request → σ → Bool}
    (faithful : ∀ request state, ready request state = true →
      env request state (answer request state).1 (answer request state).2)
    (schedule : List (Turn O)) (c : Config S O σ)
    (checked : checks answer start (fun c _ request => ready request c.shared) schedule c = true) :
    Run env start anyTurn c (play answer start schedule c) := by
  have guarded : GuardedRun (fun request state reply after => (reply, after) = answer request state)
      start (fun c entry => ready entry.event.1 c.shared = true) c (play answer start schedule c) :=
    guarded_run_play (fun _ _ => rfl) (fun _ _ _ _ passed => passed) schedule c checked
  refine Relation.ReflTransGen.mono ?_ _ _ guarded
  intro before after taken
  have ⟨step, passed⟩ := taken
  cases step with
  | launch operation => exact .launch before operation
  | act entry next later scheduled answered admitted =>
      have same := faithful entry.event.1 before.shared (passed entry rfl)
      rw [← answered] at same
      exact .act before entry next later scheduled same trivial

end DearAgent.Lib.Interleaving
