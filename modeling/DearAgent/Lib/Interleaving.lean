import Mathlib.Logic.Relation
import DearAgent.Lib.Effects

/-!
# Interleaved programs over one shared state

Processes are started at any time and take turns in any order. One turn is one
request of one process, answered by the environment in the shared state; the
history keeps every exchange with the process that made it. A process that is
never scheduled again has crashed, so crashes need no step of their own.
-/

namespace DearAgent.Lib.Interleaving

open DearAgent.Lib.Effects

set_option autoImplicit false

variable {S : Signature} {O σ : Type}

structure Process (S : Signature) (O : Type) where
  operation : O
  program : Program S Unit

/-- One turn: the process that took it, what that process was started as, and
the exchange it made. -/
structure Entry (S : Signature) (O : Type) where
  pid : Nat
  operation : O
  event : Exchange S

abbrev History (S : Signature) (O : Type) := List (Entry S O)

def Process.outcome (process : Process S O) : Option (Except S.Raised Unit) :=
  match process.program with
  | .ret value => some (.ok value)
  | .raise error => some (.error error)
  | .ask _ _ => none

theorem meets_outcome {τ : Type} {env : Env S τ} {may : τ → S.Request → Prop}
    {process : Process S O} {state : τ} {post : τ → Except S.Raised Unit → Prop}
    {outcome : Except S.Raised Unit} (meets : Meets env may process.program state post)
    (ended : process.outcome = some outcome) : post state outcome := by
  obtain ⟨operation, program⟩ := process
  cases program with
  | ret value =>
      obtain rfl := Option.some.inj ended
      exact meets
  | raise error =>
      obtain rfl := Option.some.inj ended
      exact meets
  | ask request next => cases ended

structure Config (S : Signature) (O σ : Type) where
  shared : σ
  processes : List (Process S O)
  history : History S O

def initial (shared : σ) : Config S O σ := ⟨shared, [], []⟩

namespace Config

def launch (start : O → Program S Unit) (c : Config S O σ) (operation : O) : Config S O σ :=
  { c with processes := c.processes ++ [⟨operation, start operation⟩] }

/-- The configuration after a turn that leaves its process with `rest` to do. -/
def after (c : Config S O σ) (entry : Entry S O) (rest : Program S Unit) (shared : σ) :
    Config S O σ :=
  ⟨shared, c.processes.set entry.pid ⟨entry.operation, rest⟩, c.history ++ [entry]⟩

def asks (c : Config S O σ) (pid : Nat) : Option (O × S.Request) :=
  match c.processes[pid]? with
  | some ⟨operation, .ask request _⟩ => some (operation, request)
  | _ => none

theorem asks_scheduled {c : Config S O σ} {pid : Nat} {operation : O} {request : S.Request}
    (asks : c.asks pid = some (operation, request)) :
    ∃ next, c.processes[pid]? = some ⟨operation, .ask request next⟩ := by
  unfold Config.asks at asks
  split at asks
  · rename_i operation' request' next scheduled
    cases asks
    exact ⟨next, scheduled⟩
  · cases asks

end Config

inductive Step (env : Env S σ) (start : O → Program S Unit) (admissible : Entry S O → Prop) :
    Config S O σ → Config S O σ → Prop
  | launch (c : Config S O σ) (operation : O) : Step env start admissible c (c.launch start operation)
  | act (c : Config S O σ) (entry : Entry S O)
      (next : S.Reply entry.event.1 → Program S Unit) (shared : σ)
      (scheduled : c.processes[entry.pid]? = some ⟨entry.operation, .ask entry.event.1 next⟩)
      (answered : env entry.event.1 c.shared entry.event.2 shared)
      (admitted : admissible entry) :
      Step env start admissible c (c.after entry (next entry.event.2) shared)

/-- The admissibility condition of a run nothing is asked of. -/
def anyTurn : Entry S O → Prop := fun _ => True

/-- Runs whose every turn is admissible, from one configuration to another. -/
abbrev Run (env : Env S σ) (start : O → Program S Unit) (admissible : Entry S O → Prop) :
    Config S O σ → Config S O σ → Prop :=
  Relation.ReflTransGen (Step env start admissible)

abbrev Reachable (env : Env S σ) (start : O → Program S Unit) (shared : σ) (c : Config S O σ) :
    Prop :=
  Run env start anyTurn (initial shared) c

theorem Step.any {env : Env S σ} {start : O → Program S Unit} {admissible : Entry S O → Prop}
    {c c' : Config S O σ} (step : Step env start admissible c c') : Step env start anyTurn c c' := by
  cases step with
  | launch operation => exact .launch c operation
  | act entry next shared scheduled answered admitted =>
      exact .act c entry next shared scheduled answered trivial

theorem Run.preserves {env : Env S σ} {start : O → Program S Unit} {admissible : Entry S O → Prop}
    {c c' : Config S O σ} (run : Run env start admissible c c') (inv : σ → Prop)
    (kept : ∀ entry s s', admissible entry → inv s → env entry.event.1 s entry.event.2 s' → inv s')
    (holds : inv c.shared) : inv c'.shared := by
  induction run with
  | refl => exact holds
  | tail _ step ih =>
      cases step with
      | launch operation => exact ih
      | act entry next shared scheduled answered admitted =>
          exact kept entry _ shared admitted ih answered

/-- A step that is taken, if it is a turn, in a configuration that fits it. -/
def GuardedStep (env : Env S σ) (start : O → Program S Unit)
    (guard : Config S O σ → Entry S O → Prop) (c c' : Config S O σ) : Prop :=
  Step env start anyTurn c c' ∧ ∀ entry, c'.history = c.history ++ [entry] → guard c entry

/-- Runs whose every turn meets a condition on the configuration it is taken in. -/
abbrev GuardedRun (env : Env S σ) (start : O → Program S Unit)
    (guard : Config S O σ → Entry S O → Prop) : Config S O σ → Config S O σ → Prop :=
  Relation.ReflTransGen (GuardedStep env start guard)

theorem GuardedRun.run {env : Env S σ} {start : O → Program S Unit}
    {guard : Config S O σ → Entry S O → Prop} {c c' : Config S O σ}
    (run : GuardedRun env start guard c c') : Run env start anyTurn c c' :=
  Relation.ReflTransGen.mono (fun _ _ step => step.1) _ _ run

theorem Run.guarded {env : Env S σ} {start : O → Program S Unit} {c c' : Config S O σ}
    (run : Run env start anyTurn c c') : GuardedRun env start (fun _ _ => True) c c' :=
  Relation.ReflTransGen.mono (fun _ _ step => ⟨step, fun _ _ => trivial⟩) _ _ run

def own (history : History S O) (pid : Nat) : List (Exchange S) :=
  (history.filter fun entry => entry.pid = pid).map Entry.event

theorem own_append (history : History S O) (entry : Entry S O) (pid : Nat) :
    own (history ++ [entry]) pid =
      own history pid ++ if entry.pid = pid then [entry.event] else [] := by
  unfold own
  rw [List.filter_append, List.map_append]
  by_cases same : entry.pid = pid
  · simp [same]
  · simp [same]

theorem mem_own_of_mem {history : History S O} {entry : Entry S O} (member : entry ∈ history) :
    entry.event ∈ own history entry.pid :=
  List.mem_map_of_mem (List.mem_filter.mpr ⟨member, by simp⟩)

theorem mem_own {history : History S O} {pid : Nat} {event : Exchange S}
    (member : event ∈ own history pid) :
    ∃ entry ∈ history, entry.pid = pid ∧ entry.event = event := by
  obtain ⟨entry, kept, rfl⟩ := List.mem_map.mp member
  obtain ⟨early, same⟩ := List.mem_filter.mp kept
  exact ⟨entry, early, by simpa using same, rfl⟩

section Runs

variable {env : Env S σ} {start : O → Program S Unit} {shared : σ} {c : Config S O σ}

/-- A process acts only after it was launched, so the number of the next
process occurs nowhere in the history. -/
theorem history_before_launch (reachable : Reachable env start shared c) :
    ∀ entry ∈ c.history, entry.pid < c.processes.length := by
  induction reachable with
  | refl => simp [initial]
  | @tail c c' _ step ih =>
      cases step with
      | launch operation =>
          intro entry member
          have earlier := ih entry member
          simp only [Config.launch, List.length_append, List.length_cons, List.length_nil]
          omega
      | act acting next shared scheduled answered admitted =>
          intro entry member
          simp only [Config.after, List.length_set] at member ⊢
          rcases List.mem_append.mp member with old | new
          · exact ih entry old
          · obtain rfl := List.mem_singleton.mp new
            exact (List.getElem?_eq_some_iff.mp scheduled).1

theorem own_before_launch (reachable : Reachable env start shared c) :
    own c.history c.processes.length = [] := by
  unfold own
  rw [List.map_eq_nil_iff, List.filter_eq_nil_iff]
  intro entry member
  have bound := history_before_launch reachable entry member
  simp only [decide_eq_true_eq]
  omega

/-- Whoever took a turn is a process that was started for the operation of the turn. -/
theorem turn_has_process (reachable : Reachable env start shared c) :
    ∀ entry ∈ c.history, ∃ program, c.processes[entry.pid]? = some ⟨entry.operation, program⟩ := by
  induction reachable with
  | refl => simp [initial]
  | @tail c c' reached step ih =>
      cases step with
      | launch operation =>
          intro entry member
          obtain ⟨program, found⟩ := ih entry member
          have old := (List.getElem?_eq_some_iff.mp found).1
          exact ⟨program, by simpa [Config.launch, List.getElem?_append_left old] using found⟩
      | act acting next shared scheduled answered admitted =>
          have bound := (List.getElem?_eq_some_iff.mp scheduled).1
          intro entry member
          by_cases same : acting.pid = entry.pid
          · refine ⟨next acting.event.2, ?_⟩
            have known : entry.operation = acting.operation := by
              rcases List.mem_append.mp member with old | new
              · obtain ⟨program, found⟩ := ih entry old
                rw [← same, scheduled] at found
                exact (congrArg Process.operation (Option.some.inj found)).symm
              · rw [List.mem_singleton.mp new]
            rw [known, ← same]
            simp only [Config.after, List.getElem?_set_self bound]
          · rcases List.mem_append.mp member with old | new
            · obtain ⟨program, found⟩ := ih entry old
              exact ⟨program, by simpa only [Config.after, List.getElem?_set_ne same] using found⟩
            · exact absurd (by rw [List.mem_singleton.mp new]) same

/-- Every turn in the history was taken in a reachable configuration, whose
history is what stands before it, and the run went on from there. -/
theorem reachable_before (reachable : Reachable env start shared c) {before after : History S O}
    {entry : Entry S O} (split : c.history = before ++ entry :: after) :
    ∃ (earlier : Config S O σ) (next : S.Reply entry.event.1 → Program S Unit) (later : σ),
      Reachable env start shared earlier ∧ earlier.history = before ∧
      earlier.processes[entry.pid]? = some ⟨entry.operation, .ask entry.event.1 next⟩ ∧
      env entry.event.1 earlier.shared entry.event.2 later ∧
      Run env start anyTurn (earlier.after entry (next entry.event.2) later) c := by
  induction reachable generalizing after with
  | refl => exact absurd split.symm (List.append_ne_nil_of_right_ne_nil _ (List.cons_ne_nil _ _))
  | @tail c c' reached step ih =>
      cases step with
      | launch operation =>
          obtain ⟨earlier, next, later, reach, same, scheduled, answered, run⟩ := ih split
          exact ⟨earlier, next, later, reach, same, scheduled, answered, run.tail (.launch c operation)⟩
      | act acting next shared scheduled answered admitted =>
          rcases split_concat split with ⟨rfl, same, rfl⟩ | ⟨rest, rfl, same⟩
          · exact ⟨c, next, shared, reached, same, scheduled, answered, .refl⟩
          · obtain ⟨earlier, rest, later, reach, prior, asked, replied, run⟩ := ih same
            exact ⟨earlier, rest, later, reach, prior, asked, replied,
              run.tail (.act c acting next shared scheduled answered admitted)⟩

theorem process_after_launch {operation : O} {pid : Nat} {process : Process S O}
    (found : (c.launch start operation).processes[pid]? = some process) :
    c.processes[pid]? = some process ∨
      (pid = c.processes.length ∧ process = ⟨operation, start operation⟩) := by
  unfold Config.launch at found
  by_cases old : pid < c.processes.length
  · exact .inl (by simpa [List.getElem?_append_left old] using found)
  · have bound := (List.getElem?_eq_some_iff.mp found).1
    simp only [List.length_append, List.length_cons, List.length_nil] at bound
    have number : pid = c.processes.length := by omega
    subst number
    exact .inr ⟨rfl, by simpa using found.symm⟩

theorem process_after_turn {entry : Entry S O} {rest : Program S Unit} {next : σ} {pid : Nat}
    {process : Process S O} (acting : entry.pid < c.processes.length)
    (found : (c.after entry rest next).processes[pid]? = some process) :
    (entry.pid ≠ pid ∧ c.processes[pid]? = some process) ∨
      (entry.pid = pid ∧ process = ⟨entry.operation, rest⟩) := by
  unfold Config.after at found
  by_cases same : entry.pid = pid
  · subst same
    exact .inr ⟨rfl, by simpa [List.getElem?_set_self acting] using found.symm⟩
  · exact .inl ⟨same, by simpa [List.getElem?_set_ne same] using found⟩

end Runs

/-!
## Discipline

What a process may ask next is said in terms of its own exchanges so far.
Whether a program keeps to it is a matter of that program alone; in a run
every process then keeps to it, whatever the others do.
-/

/-- A process that remembers its own exchanges and gets honest replies. -/
def heard (honest : Exchange S → Prop) : Env S (List (Exchange S)) :=
  fun request before reply after =>
    honest ⟨request, reply⟩ ∧ after = before ++ [⟨request, reply⟩]

/-- What holds of every program alone, as long as the replies are honest, holds of
every process in a run whose guard makes them so. -/
theorem meets_throughout {env : Env S σ} {start : O → Program S Unit} {shared : σ}
    {c : Config S O σ} {guard : Config S O σ → Entry S O → Prop} {honest : O → Exchange S → Prop}
    {may : O → List (Exchange S) → S.Request → Prop}
    {post : O → List (Exchange S) → Except S.Raised Unit → Prop}
    (truthful : ∀ c entry next, Reachable env start shared c → guard c entry →
      env entry.event.1 c.shared entry.event.2 next → honest entry.operation entry.event)
    (programs : ∀ operation,
      Meets (heard (honest operation)) (may operation) (start operation) [] (post operation))
    (run : GuardedRun env start guard (initial shared) c) :
    ∀ pid process, c.processes[pid]? = some process →
      Meets (heard (honest process.operation)) (may process.operation) process.program
        (own c.history pid) (post process.operation) := by
  induction run with
  | refl => simp [initial]
  | @tail c c' earlier guarded ih =>
      have reachable : Reachable env start shared c := GuardedRun.run earlier
      obtain ⟨step, held⟩ := guarded
      intro pid process found
      cases step with
      | launch operation =>
          rcases process_after_launch found with old | ⟨rfl, rfl⟩
          · exact ih pid process old
          · change Meets _ _ _ (own c.history _) _
            rw [own_before_launch reachable]
            exact programs operation
      | act entry next shared scheduled answered admitted =>
          have bound := (List.getElem?_eq_some_iff.mp scheduled).1
          rcases process_after_turn bound found with ⟨other, old⟩ | ⟨rfl, rfl⟩
          · change Meets _ _ _ (own (c.history ++ [entry]) pid) _
            rw [own_append, if_neg other, List.append_nil]
            exact ih pid process old
          · refine (ih entry.pid _ scheduled).2 entry.event.2 _
              ⟨truthful c entry shared reachable (held entry rfl) answered, ?_⟩
            change own (c.history ++ [entry]) entry.pid = _
            rw [own_append, if_pos rfl]

/-- What holds of every turn when it is taken, in terms of the operation of its
process, what that process exchanged before and what it exchanges in the turn,
holds of all exchanges of all processes. -/
theorem turns_throughout {env : Env S σ} {start : O → Program S Unit} {shared : σ}
    {c : Config S O σ} {guard : Config S O σ → Entry S O → Prop}
    {made : O → List (Exchange S) → Exchange S → Prop}
    (turn : ∀ c entry rest next, GuardedRun env start guard (initial shared) c →
      c.processes[entry.pid]? = some ⟨entry.operation, .ask entry.event.1 rest⟩ → guard c entry →
      env entry.event.1 c.shared entry.event.2 next →
      made entry.operation (own c.history entry.pid) entry.event)
    (run : GuardedRun env start guard (initial shared) c) :
    ∀ pid process, c.processes[pid]? = some process → ∀ before event after,
      own c.history pid = before ++ event :: after → made process.operation before event := by
  induction run with
  | refl => simp [initial]
  | @tail c c' earlier guarded ih =>
      have reachable : Reachable env start shared c := GuardedRun.run earlier
      obtain ⟨step, held⟩ := guarded
      intro pid process found before event after split
      cases step with
      | launch operation =>
          rcases process_after_launch found with old | ⟨rfl, rfl⟩
          · exact ih pid process old before event after split
          · change own c.history _ = _ at split
            rw [own_before_launch reachable] at split
            exact absurd split.symm (List.append_ne_nil_of_right_ne_nil _ (List.cons_ne_nil _ _))
      | act entry next shared scheduled answered admitted =>
          have bound := (List.getElem?_eq_some_iff.mp scheduled).1
          change own (c.history ++ [entry]) pid = _ at split
          rw [own_append] at split
          rcases process_after_turn bound found with ⟨other, old⟩ | ⟨rfl, rfl⟩
          · rw [if_neg other, List.append_nil] at split
            exact ih pid process old before event after split
          · rw [if_pos rfl] at split
            rcases split_concat split with ⟨_, same, rfl⟩ | ⟨tail, _, same⟩
            · rw [← same]
              exact turn c entry next shared earlier scheduled (held entry rfl) answered
            · exact ih entry.pid _ scheduled before event tail same

structure Discipline (env : Env S σ) (start : O → Program S Unit) where
  honest : Exchange S → Prop
  may : O → List (Exchange S) → S.Request → Prop
  truthful : ∀ request shared reply after, env request shared reply after → honest ⟨request, reply⟩
  programs : ∀ operation,
    Meets (heard honest) (may operation) (start operation) [] fun _ _ => True

namespace Discipline

variable {env : Env S σ} {start : O → Program S Unit} {shared : σ} {c : Config S O σ}

theorem kept (discipline : Discipline env start) (reachable : Reachable env start shared c) :
    ∀ pid process, c.processes[pid]? = some process →
      Meets (heard discipline.honest) (discipline.may process.operation) process.program
        (own c.history pid) fun _ _ => True :=
  meets_throughout (fun _ _ _ _ _ answered => discipline.truthful _ _ _ _ answered)
    discipline.programs (Run.guarded reachable)

theorem permits (discipline : Discipline env start) (reachable : Reachable env start shared c)
    {pid : Nat} {operation : O} {request : S.Request} {next : S.Reply request → Program S Unit}
    (scheduled : c.processes[pid]? = some ⟨operation, .ask request next⟩) :
    discipline.may operation (own c.history pid) request :=
  (discipline.kept reachable pid _ scheduled).1

/-- An invariant of the shared state and the history: it holds at the start, and
every turn a disciplined process can take preserves it. -/
theorem invariant (discipline : Discipline env start) {inv : σ → History S O → Prop}
    (begins : inv shared [])
    (turn : ∀ (state : σ) (history : History S O) (entry : Entry S O) (next : σ),
      inv state history → discipline.may entry.operation (own history entry.pid) entry.event.1 →
      env entry.event.1 state entry.event.2 next → inv next (history ++ [entry]))
    (reachable : Reachable env start shared c) : inv c.shared c.history := by
  induction reachable with
  | refl => exact begins
  | @tail c c' earlier step ih =>
      cases step with
      | launch operation => exact ih
      | act entry next shared scheduled answered admitted =>
          exact turn c.shared c.history entry shared ih (discipline.permits earlier scheduled)
            answered

end Discipline

/-!
## Schedules

Deterministic surroundings and a list of turns determine a run, which can then
be computed.
-/

inductive Turn (O : Type)
  | launch (operation : O)
  | act (pid : Nat)

def takeTurn (answer : (request : S.Request) → σ → S.Reply request × σ)
    (start : O → Program S Unit) (c : Config S O σ) : Turn O → Config S O σ
  | .launch operation => c.launch start operation
  | .act pid =>
      match c.processes[pid]? with
      | some ⟨operation, .ask request next⟩ =>
          let replied := answer request c.shared
          c.after ⟨pid, operation, ⟨request, replied.1⟩⟩ (next replied.1) replied.2
      | _ => c

def play (answer : (request : S.Request) → σ → S.Reply request × σ) (start : O → Program S Unit)
    (schedule : List (Turn O)) (c : Config S O σ) : Config S O σ :=
  schedule.foldl (takeTurn answer start) c

theorem play_history (answer : (request : S.Request) → σ → S.Reply request × σ)
    (start : O → Program S Unit) (schedule : List (Turn O)) (c : Config S O σ) :
    ∃ later, (play answer start schedule c).history = c.history ++ later := by
  induction schedule generalizing c with
  | nil => exact ⟨[], (List.append_nil _).symm⟩
  | cons turn rest ih =>
      obtain ⟨later, grown⟩ := ih (takeTurn answer start c turn)
      have first : ∃ now, (takeTurn answer start c turn).history = c.history ++ now := by
        cases turn with
        | launch operation => exact ⟨[], (List.append_nil _).symm⟩
        | act pid =>
            simp only [takeTurn]
            split
            · exact ⟨_, rfl⟩
            · exact ⟨[], (List.append_nil _).symm⟩
      obtain ⟨now, shape⟩ := first
      exact ⟨now ++ later, by rw [← List.append_assoc, ← shape]; exact grown⟩

theorem run_play {env : Env S σ} {answer : (request : S.Request) → σ → S.Reply request × σ}
    {start : O → Program S Unit} {admissible : Entry S O → Prop}
    (faithful : ∀ request state,
      env request state (answer request state).1 (answer request state).2)
    (schedule : List (Turn O)) (c : Config S O σ)
    (admitted : ∀ entry ∈ (play answer start schedule c).history.drop c.history.length,
      admissible entry) :
    Run env start admissible c (play answer start schedule c) := by
  induction schedule generalizing c with
  | nil => exact .refl
  | cons turn rest ih =>
      cases turn with
      | launch operation =>
          exact .head (.launch c operation) (ih (c.launch start operation) admitted)
      | act pid =>
          change ∀ entry ∈ (play answer start rest (takeTurn answer start c (.act pid))).history.drop
            c.history.length, admissible entry at admitted
          change Run env start admissible c
            (play answer start rest (takeTurn answer start c (.act pid)))
          simp only [takeTurn] at admitted ⊢
          split at admitted
          · rename_i operation request next scheduled
            obtain ⟨later, grown⟩ := play_history answer start rest
              (c.after ⟨pid, operation, ⟨request, (answer request c.shared).1⟩⟩
                (next (answer request c.shared).1) (answer request c.shared).2)
            have taken : ∀ entry ∈ ⟨pid, operation, ⟨request, (answer request c.shared).1⟩⟩ :: later,
                admissible entry := by
              intro entry member
              refine admitted entry ?_
              rw [grown, Config.after, List.append_assoc, List.drop_left]
              exact member
            refine .head (.act c ⟨pid, operation, ⟨request, _⟩⟩ next _ scheduled
              (faithful request c.shared) (taken _ (List.mem_cons_self ..))) (ih _ ?_)
            rw [grown, List.drop_left]
            exact fun entry member => taken entry (List.mem_cons_of_mem _ member)
          · exact ih c admitted

/-- Whether every turn of the schedule passes a check of what is asked in it. -/
def checks (answer : (request : S.Request) → σ → S.Reply request × σ) (start : O → Program S Unit)
    (check : Config S O σ → O → S.Request → Bool) : List (Turn O) → Config S O σ → Bool
  | [], _ => true
  | .launch operation :: rest, c => checks answer start check rest (c.launch start operation)
  | .act pid :: rest, c =>
      (match c.asks pid with
        | some (operation, request) => check c operation request
        | none => true) && checks answer start check rest (takeTurn answer start c (.act pid))

theorem guarded_run_play {env : Env S σ}
    {answer : (request : S.Request) → σ → S.Reply request × σ} {start : O → Program S Unit}
    {guard : Config S O σ → Entry S O → Prop} {check : Config S O σ → O → S.Request → Bool}
    (faithful : ∀ request state,
      env request state (answer request state).1 (answer request state).2)
    (sound : ∀ c pid operation request, check c operation request = true →
      guard c ⟨pid, operation, ⟨request, (answer request c.shared).1⟩⟩)
    (schedule : List (Turn O)) (c : Config S O σ)
    (checked : checks answer start check schedule c = true) :
    GuardedRun env start guard c (play answer start schedule c) := by
  induction schedule generalizing c with
  | nil => exact .refl
  | cons turn rest ih =>
      cases turn with
      | launch operation =>
          refine .head ⟨.launch c operation, fun entry grown => ?_⟩ (ih _ checked)
          exact absurd (congrArg List.length grown) (by simp [Config.launch])
      | act pid =>
          simp only [checks, Bool.and_eq_true] at checked
          refine Relation.ReflTransGen.trans ?_ (ih _ checked.2)
          have passed := checked.1
          unfold Config.asks at passed
          simp only [takeTurn]
          split
          · rename_i operation request next scheduled
            rw [scheduled] at passed
            refine .single ⟨.act c ⟨pid, operation, ⟨request, _⟩⟩ next _ scheduled
              (faithful request c.shared) trivial, fun entry grown => ?_⟩
            obtain rfl := List.singleton_inj.mp (List.append_cancel_left grown)
            exact sound c pid operation request passed
          · exact .refl

end DearAgent.Lib.Interleaving
