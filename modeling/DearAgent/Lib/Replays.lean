import DearAgent.Lib.Interleaving

/-!
# Shared state that answers in one way

Where every request has one answer in a state, the history of a run tells the shared
state after each of its turns: it is what the requests made of the first one.
-/

namespace DearAgent.Lib.Interleaving

open DearAgent.Lib.Effects

set_option autoImplicit false

variable {S : Signature} {O σ α : Type}
  {answer : (request : S.Request) → σ → S.Reply request × σ}

def answering (answer : (request : S.Request) → σ → S.Reply request × σ) : Env S σ :=
  fun request state reply after => answer request state = (reply, after)

def replay (answer : (request : S.Request) → σ → S.Reply request × σ) (state : σ)
    (history : History S O) : σ :=
  history.foldl (fun s entry => (answer entry.event.1 s).2) state

@[simp] theorem replay_nil (state : σ) : replay answer state ([] : History S O) = state := rfl

@[simp] theorem replay_cons (state : σ) (entry : Entry S O) (rest : History S O) :
    replay answer state (entry :: rest) = replay answer (answer entry.event.1 state).2 rest := rfl

theorem replay_append (state : σ) (early late : History S O) :
    replay answer state (early ++ late) = replay answer (replay answer state early) late :=
  List.foldl_append

/-- Every turn got the answer of its moment. -/
def Replayed (answer : (request : S.Request) → σ → S.Reply request × σ) (start : σ)
    (history : History S O) : Prop :=
  ∀ before entry after, history = before ++ entry :: after →
    (answer entry.event.1 (replay answer start before)).1 = entry.event.2

theorem reachable_replayed {start : O → Program S Unit} {shared : σ} {c : Config S O σ}
    (reachable : Reachable (answering answer) start shared c) :
    c.shared = replay answer shared c.history ∧ Replayed answer shared c.history := by
  induction reachable with
  | refl =>
      refine ⟨rfl, fun before entry after split => ?_⟩
      exact absurd split.symm (List.append_ne_nil_of_right_ne_nil _ (List.cons_ne_nil _ _))
  | tail _ step ih =>
      cases step with
      | launch operation => exact ih
      | act entry next after scheduled answered admitted =>
          obtain ⟨same, replayed⟩ := ih
          rw [same] at answered
          constructor
          · change after = replay answer shared (_ ++ [entry])
            rw [replay_append]
            exact (congrArg Prod.snd answered).symm
          · intro before item late split
            rcases split_concat split with ⟨_, rfl, rfl⟩ | ⟨rest, _, earlier⟩
            · exact congrArg Prod.fst answered
            · exact replayed before item rest earlier

theorem turning_point {P : σ → Prop} {state : σ} {history : History S O} (early : ¬P state)
    (late : P (replay answer state history)) :
    ∃ front entry back, history = front ++ entry :: back ∧ ¬P (replay answer state front) ∧
      P (replay answer state (front ++ [entry])) := by
  induction history generalizing state with
  | nil => exact absurd late early
  | cons entry rest ih =>
      by_cases turned : P (answer entry.event.1 state).2
      · exact ⟨[], entry, rest, rfl, early, turned⟩
      · obtain ⟨front, item, back, rfl, before, after⟩ := ih turned late
        exact ⟨entry :: front, item, back, rfl, before, after⟩

theorem replay_keeps {P : σ → Prop} (kept : ∀ request state, P state → P (answer request state).2)
    {state : σ} (holds : P state) (history : History S O) : P (replay answer state history) := by
  induction history generalizing state with
  | nil => exact holds
  | cons entry rest ih => exact ih (kept _ _ holds)

/-- A program came to this value with these exchanges. -/
def CameTo (program : Program S α) (trace : List (Exchange S)) (value : α) : Prop :=
  Exec (observing fun _ _ => ()) program () trace (.ok value) ()

/-- A process has come to a value of the program it was started with. -/
def ReturnedFrom {Result : O → Type} (call : (operation : O) → Program S (Result operation))
    (c : Config S O σ) (pid : Nat) (operation : O) (value : Result operation) : Prop :=
  (∃ rest, c.processes[pid]? = some ⟨operation, rest⟩) ∧
    CameTo (call operation) (own c.history pid) value

theorem own_turn {history : History S O} {pid : Nat} {event : Exchange S}
    (member : event ∈ own history pid) :
    ∃ before entry after, history = before ++ entry :: after ∧ entry.pid = pid ∧ entry.event = event := by
  obtain ⟨entry, found, same, exchanged⟩ := mem_own member
  obtain ⟨before, after, split⟩ := List.append_of_mem found
  exact ⟨before, entry, after, split, same, exchanged⟩

end DearAgent.Lib.Interleaving
