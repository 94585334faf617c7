import Mathlib.Algebra.Order.Group.Defs
import Mathlib.Algebra.Order.Sub.Basic
import Mathlib.Data.List.Count
import Mathlib.Tactic.Common

/-!
# Sliding windows

Calls of some key at some moment are let in while fewer than a limit of that key were let
in within the window that ends with the call. All calls let in so far are looked at.
-/

namespace DearAgent.Lib.Windows

set_option autoImplicit false

variable {α κ τ : Type}

def letIn (log : List (α × Bool)) : List α := (log.filter Prod.snd).map Prod.fst

theorem let_in_cons (call : α) (verdict : Bool) (log : List (α × Bool)) :
    letIn ((call, verdict) :: log) = (if verdict then [call] else []) ++ letIn log := by
  cases verdict <;> rfl

theorem let_in_append (first second : List (α × Bool)) :
    letIn (first ++ second) = letIn first ++ letIn second := by
  rw [letIn, List.filter_append, List.map_append, letIn, letIn]

section Counting

variable [LinearOrder τ] (key : α → κ) (moment : α → τ)

def Ordered (calls : List α) : Prop :=
  calls.Pairwise fun earlier later => moment earlier ≤ moment later

instance (calls : List α) : Decidable (Ordered moment calls) :=
  inferInstanceAs (Decidable (calls.Pairwise fun earlier later => moment earlier ≤ moment later))

variable [DecidableEq κ]

/-- How many of the calls are of the key and in `(start, stop]`. -/
def between (of_key : κ) (start stop : τ) (calls : List α) : Nat :=
  calls.countP fun call => key call = of_key ∧ start < moment call ∧ moment call ≤ stop

variable {key moment}

theorem between_append (of_key : κ) (start stop : τ) (first second : List α) :
    between key moment of_key start stop (first ++ second) =
      between key moment of_key start stop first + between key moment of_key start stop second :=
  List.countP_append

theorem between_of_key (of_key : κ) (start stop : τ) (calls : List α) :
    between key moment of_key start stop (calls.filter fun call => key call = of_key) =
      between key moment of_key start stop calls := by
  rw [between, between, List.countP_filter]
  apply List.countP_congr
  intro call _
  simp only [decide_eq_true_eq, Bool.decide_and, Bool.and_eq_true]
  tauto

theorem between_mono {of_key : κ} {start stop start' stop' : τ} {calls : List α}
    (within : ∀ call ∈ calls, start < moment call → moment call ≤ stop →
      start' < moment call ∧ moment call ≤ stop') :
    between key moment of_key start stop calls ≤ between key moment of_key start' stop' calls := by
  apply List.countP_mono_left
  intro call member inside
  rw [decide_eq_true_eq] at inside ⊢
  exact ⟨inside.1, within call member inside.2.1 inside.2.2⟩

end Counting

section Judged

variable [DecidableEq κ] [AddCommGroup τ] [LinearOrder τ] (key : α → κ) (moment : α → τ)

def judge (limit : Nat) (window : τ) (past : List α) (call : α) : Bool :=
  between key moment (key call) (moment call - window) (moment call) past < limit

/-- The calls with their verdicts; the past are the calls let in before. -/
def judged (limit : Nat) (window : τ) : List α → List α → List (α × Bool)
  | _, [] => []
  | past, call :: rest =>
      (call, judge key moment limit window past call) ::
        judged limit window
          (if judge key moment limit window past call then past ++ [call] else past) rest

variable {key moment} {limit : Nat} {window : τ} {past calls : List α}

theorem judged_append (first second : List α) :
    judged key moment limit window past (first ++ second) =
      judged key moment limit window past first ++
        judged key moment limit window (past ++ letIn (judged key moment limit window past first))
          second := by
  induction first generalizing past with
  | nil => rw [List.nil_append, judged, List.nil_append, letIn, List.filter_nil, List.map_nil,
      List.append_nil]
  | cons call rest ih =>
      rw [List.cons_append, judged, judged, ih, List.cons_append, let_in_cons]
      cases judge key moment limit window past call with
      | true => rw [if_pos rfl, if_pos rfl, List.append_assoc]
      | false => rw [if_neg Bool.false_ne_true, if_neg Bool.false_ne_true, List.nil_append]

theorem judged_calls : (judged key moment limit window past calls).map Prod.fst = calls := by
  induction calls generalizing past with
  | nil => rfl
  | cons call rest ih => rw [judged, List.map_cons, ih]

/-- A log that is cut is the log of the calls before the cut, and of those after it. -/
theorem judged_split {before after : List (α × Bool)} {call : α} {verdict : Bool}
    (split : judged key moment limit window past calls = before ++ (call, verdict) :: after) :
    judged key moment limit window past (before.map Prod.fst) = before ∧
      judge key moment limit window (past ++ letIn before) call = verdict ∧
      judged key moment limit window (past ++ letIn (before ++ [(call, verdict)]))
        (after.map Prod.fst) = after := by
  have listed : calls = before.map Prod.fst ++ call :: after.map Prod.fst := by
    have all : (judged key moment limit window past calls).map Prod.fst = calls := judged_calls
    rw [← all, split, List.map_append, List.map_cons]
  rw [listed, judged_append] at split
  have lengths : (judged key moment limit window past (before.map Prod.fst)).length =
      before.length := by
    have all : (judged key moment limit window past (before.map Prod.fst)).map Prod.fst =
      before.map Prod.fst := judged_calls
    have same := congrArg List.length all
    rw [List.length_map, List.length_map] at same
    exact same
  obtain ⟨first, rest⟩ := List.append_inj split lengths
  rw [first, judged, List.cons.injEq, Prod.mk.injEq] at rest
  obtain ⟨⟨_, verdict_eq⟩, last⟩ := rest
  refine ⟨first, verdict_eq, ?_⟩
  rw [verdict_eq] at last
  rw [let_in_append, ← List.append_assoc]
  cases verdict with
  | true => exact last
  | false =>
      rw [show letIn [(call, false)] = [] from rfl, List.append_nil]
      exact last

theorem judged_without {before after : List (α × Bool)} {call : α}
    (split : judged key moment limit window past calls = before ++ (call, false) :: after) :
    judged key moment limit window past (before.map Prod.fst ++ after.map Prod.fst) =
      before ++ after := by
  obtain ⟨first, _, last⟩ := judged_split split
  rw [let_in_append, show letIn [(call, false)] = [] from rfl, List.append_nil] at last
  rw [judged_append, first, last]

theorem judged_of_key (of_key : κ) :
    judged key moment limit window (past.filter fun call => key call = of_key)
        (calls.filter fun call => key call = of_key) =
      (judged key moment limit window past calls).filter fun entry => key entry.1 = of_key := by
  induction calls generalizing past with
  | nil => rfl
  | cons call rest ih =>
      rw [judged, List.filter_cons, List.filter_cons]
      dsimp only
      by_cases same : key call = of_key
      · have alike : judge key moment limit window (past.filter fun other => key other = of_key)
            call = judge key moment limit window past call := by
          rw [judge, judge, same, between_of_key]
        rw [if_pos (decide_eq_true same), if_pos (decide_eq_true same), judged, alike, ← ih]
        congr 2
        split_ifs with passes
        · rw [List.filter_append, List.filter_cons, if_pos (decide_eq_true same)]
          rfl
        · rfl
      · have other : ¬decide (key call = of_key) = true := mt of_decide_eq_true same
        rw [if_neg other, if_neg other, ← ih]
        congr 1
        split_ifs with passes
        · rw [List.filter_append, List.filter_cons, if_neg other, List.filter_nil, List.append_nil]
        · rfl

theorem all_let_in (room : ∀ of_key,
      (past ++ calls).countP (fun call => key call = of_key) ≤ limit) :
    letIn (judged key moment limit window past calls) = calls := by
  induction calls generalizing past with
  | nil => rfl
  | cons call rest ih =>
      have passes : judge key moment limit window past call = true := by
        have enough := room (key call)
        rw [List.countP_append, List.countP_cons, if_pos (decide_eq_true rfl)] at enough
        have few : between key moment (key call) (moment call - window) (moment call) past ≤
            past.countP fun other => key other = key call := by
          apply List.countP_mono_left
          intro other _ inside
          rw [decide_eq_true_eq] at inside ⊢
          exact inside.1
        apply decide_eq_true
        omega
      have after : ∀ of_key,
          (past ++ [call] ++ rest).countP (fun other => key other = of_key) ≤ limit := by
        intro of_key
        rw [List.append_assoc]
        exact room of_key
      rw [judged, let_in_cons, passes, if_pos rfl, if_pos rfl, ih after]
      rfl

/-!
## No window holds more than the limit
-/

variable (key moment) in
/-- No half-open window of this length has more than the limit. -/
def Bounded (limit : Nat) (window : τ) (calls : List α) : Prop :=
  ∀ of_key start, between key moment of_key start (start + window) calls ≤ limit

variable [IsOrderedAddMonoid τ]

theorem bounded_concat {call : α} (bounded : Bounded key moment limit window past)
    (latest : ∀ earlier ∈ past, moment earlier ≤ moment call)
    (passes : judge key moment limit window past call = true) :
    Bounded key moment limit window (past ++ [call]) := by
  intro of_key start
  rw [between_append]
  by_cases counts : key call = of_key ∧ start < moment call ∧ moment call ≤ start + window
  · have fewer : between key moment (key call) (moment call - window) (moment call) past < limit :=
      of_decide_eq_true passes
    have covered : between key moment of_key start (start + window) past ≤
        between key moment (key call) (moment call - window) (moment call) past := by
      rw [counts.1]
      apply between_mono
      intro earlier member above _
      constructor
      · exact lt_of_le_of_lt (sub_le_iff_le_add.mpr counts.2.2) above
      · exact latest earlier member
    have one : between key moment of_key start (start + window) [call] ≤ 1 :=
      List.countP_le_length
    omega
  · have none : between key moment of_key start (start + window) [call] = 0 := by
      rw [between, List.countP_singleton, if_neg (mt of_decide_eq_true counts)]
    rw [none]
    exact bounded of_key start

theorem judged_bounded (bounded : Bounded key moment limit window past)
    (ordered : Ordered moment (past ++ calls)) :
    Bounded key moment limit window (past ++ letIn (judged key moment limit window past calls)) := by
  induction calls generalizing past with
  | nil =>
      rw [judged, letIn, List.filter_nil, List.map_nil, List.append_nil]
      exact bounded
  | cons call rest ih =>
      obtain ⟨before, after, across⟩ := List.pairwise_append.mp ordered
      rw [judged, let_in_cons]
      cases passes : judge key moment limit window past call with
      | true =>
          rw [if_pos rfl, if_pos rfl, ← List.append_assoc]
          apply ih
          · exact bounded_concat bounded
              (fun earlier member => across earlier member call List.mem_cons_self) passes
          · rw [List.append_assoc]
            exact ordered
      | false =>
          rw [if_neg Bool.false_ne_true, if_neg Bool.false_ne_true, List.nil_append]
          apply ih bounded
          apply List.pairwise_append.mpr
          exact ⟨before, (List.pairwise_cons.mp after).2, fun earlier member later among =>
            across earlier member later (List.mem_cons_of_mem _ among)⟩

end Judged

end DearAgent.Lib.Windows
