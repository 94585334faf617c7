import DearAgent.Auth.Gates
import DearAgent.Lib.Windows
import Mathlib.Algebra.Order.Group.Int

/-!
# The rate limiter over runs

A limiter keeps of every sender the moments that were in the window at its last check. Its
answers are those of a limiter that keeps them all.
-/

namespace DearAgent.RateLimiter

open DearAgent.Lib.Text DearAgent.Lib.Dictionaries DearAgent.Lib.Windows DearAgent.Queue

set_option autoImplicit false

/-- A call of `check`: the sender, and the reading of the clock. -/
abbrev Check := Option Str × Instant

def Check.key (check : Check) : Str := keyOf check.1

/-- Calls one after the other, each with what it returns or raises. -/
def logFrom (limiter : RateLimiter) : Seen → List Check → List (Check × Except Exn Unit)
  | _, [] => []
  | seen, check :: rest =>
      let answered := limiter.check check.1 check.2 seen
      (check, answered.1) :: logFrom limiter answered.2 rest

def log (limiter : RateLimiter) (checks : List Check) : List (Check × Except Exn Unit) :=
  limiter.logFrom .empty checks

def returns : Except Exn Unit → Bool
  | .ok _ => true
  | .error _ => false

def admitted (log : List (Check × Except Exn Unit)) : List Check :=
  (log.filter fun entry => returns entry.2).map Prod.fst

theorem admitted_cons (check : Check) (answer : Except Exn Unit)
    (log : List (Check × Except Exn Unit)) :
    admitted ((check, answer) :: log) = (if returns answer then [check] else []) ++ admitted log := by
  cases answer <;> rfl

/-- The limiter is an exact sliding window over these calls. -/
structure ExactWindow (limiter : RateLimiter) (checks : List Check) : Prop where
  exact_ : ∀ before check answer after,
    limiter.log checks = before ++ (check, answer) :: after →
      ((∃ text, answer = .error (.rateLimited text)) ↔
        limiter.limit ≤ between Check.key Prod.snd check.key (check.2 - limiter.window) check.2
          (admitted before)) ∧
      ((¬∃ text, answer = .error (.rateLimited text)) → answer = .ok ())
  bounded : ∀ key start,
    between Check.key Prod.snd key start (start + limiter.window)
      (admitted (limiter.log checks)) ≤ limiter.limit
  refused_free : ∀ before check error after,
    limiter.log checks = before ++ (check, .error error) :: after →
      limiter.log (before.map Prod.fst ++ after.map Prod.fst) = before ++ after
  others_apart : ∀ key,
    limiter.log (checks.filter fun check => check.key = key) =
      (limiter.log checks).filter fun entry => entry.1.key = key

section Refinement

variable {limiter : RateLimiter} {now later : Instant} {seen : Seen} {past checks : List Check}

def windowOf (limiter : RateLimiter) (now : Instant) (key : Str) (past : List Check) :
    List Instant :=
  ((past.filter fun check => check.key = key).map Prod.snd).filter
    fun moment => now - limiter.window < moment

/-- The limiter remembers of the calls it let in what it will look at from now on. -/
def Remembers (limiter : RateLimiter) (seen : Seen) (past : List Check) (now : Instant) : Prop :=
  ∀ key, limiter.recent key now seen = limiter.windowOf now key past

theorem remembers_nothing (now : Instant) : limiter.Remembers .empty [] now := fun _ => rfl

theorem Remembers.after (remembers : limiter.Remembers seen past now) (ordered : now ≤ later) :
    limiter.Remembers seen past later := by
  intro key
  rw [recent_recent key ordered, remembers key, windowOf, windowOf, filter_later ordered]

theorem window_length (key : Str) (earlier : ∀ check ∈ past, check.2 ≤ now) :
    (limiter.windowOf now key past).length =
      between Check.key Prod.snd key (now - limiter.window) now past := by
  rw [windowOf, ← List.countP_eq_length_filter, List.countP_map, List.countP_filter, between]
  apply List.countP_congr
  intro check member
  have before := earlier check member
  simp only [Function.comp_apply, Bool.and_eq_true, decide_eq_true_eq]
  tauto

theorem window_concat (key : Str) (check : Check) (past : List Check) :
    limiter.windowOf now key (past ++ [check]) = limiter.windowOf now key past ++
      if check.key = key then [check.2].filter fun moment => now - limiter.window < moment
      else [] := by
  rw [windowOf, List.filter_append, List.map_append, List.filter_append, windowOf]
  congr 1
  split_ifs with same
  · rw [List.filter_cons_of_pos (by exact decide_eq_true same)]
    rfl
  · rw [List.filter_cons_of_neg (by exact mt of_decide_eq_true same)]
    rfl

def answer (limiter : RateLimiter) (check : Check) (passes : Bool) : Except Exn Unit :=
  if passes then .ok ()
  else .error (.rateLimited (check.key ++ " exceeded ".toList ++
    (toString limiter.limit).toList ++ " messages per ".toList ++ durationText limiter.window))

def entryOf (limiter : RateLimiter) (entry : Check × Bool) : Check × Except Exn Unit :=
  (entry.1, limiter.answer entry.1 entry.2)

theorem full_iff {check : Check} (remembers : limiter.Remembers seen past check.2)
    (earlier : ∀ other ∈ past, other.2 ≤ check.2) :
    limiter.limit ≤ (limiter.recent check.key check.2 seen).length ↔
      judge Check.key Prod.snd limiter.limit.toNat limiter.window past check = false := by
  have positive := limiter.positive
  rw [remembers, window_length check.key earlier, judge, decide_eq_false_iff_not]
  omega

theorem check_judged {check : Check} (remembers : limiter.Remembers seen past check.2)
    (earlier : ∀ other ∈ past, other.2 ≤ check.2) :
    (limiter.check check.1 check.2 seen).1 = limiter.answer check
        (judge Check.key Prod.snd limiter.limit.toNat limiter.window past check) ∧
      limiter.Remembers (limiter.check check.1 check.2 seen).2
        (if judge Check.key Prod.snd limiter.limit.toNat limiter.window past check
          then past ++ [check] else past) check.2 := by
  have full := full_iff remembers earlier
  cases passes : judge Check.key Prod.snd limiter.limit.toNat limiter.window past check with
  | false =>
      have refused : (limiter.check check.1 check.2 seen).1 = limiter.answer check false := by
        have none : limiter.limit ≤ (limiter.recent (keyOf check.1) check.2 seen).length :=
          full.mpr passes
        unfold RateLimiter.check
        dsimp only
        rw [if_pos none]
        rfl
      refine ⟨refused, fun key => ?_⟩
      rw [if_neg Bool.false_ne_true, ← remembers key]
      exact refused_check_same refused key
  | true =>
      have room : ¬limiter.limit ≤ (limiter.recent (keyOf check.1) check.2 seen).length := by
        intro none
        have closed := full.mp none
        rw [passes] at closed
        cases closed
      unfold RateLimiter.check
      dsimp only
      rw [if_neg room, if_pos rfl]
      refine ⟨rfl, fun key => ?_⟩
      rw [window_concat, recent, Dict.get_set]
      by_cases same : key = keyOf check.1
      · have own : check.key = key := same.symm
        rw [if_pos same, if_pos own, same, Option.getD_some, List.filter_append, recent_inside,
          remembers]
      · have other : ¬check.key = key := fun equal => same equal.symm
        rw [if_neg same, if_neg other, List.append_nil]
        exact remembers key

theorem log_from_judged (remembers : ∀ check ∈ checks, limiter.Remembers seen past check.2)
    (ordered : Ordered Prod.snd (past ++ checks)) :
    limiter.logFrom seen checks =
      (judged Check.key Prod.snd limiter.limit.toNat limiter.window past checks).map
        limiter.entryOf := by
  induction checks generalizing seen past with
  | nil => rfl
  | cons check rest ih =>
      obtain ⟨before, after, across⟩ := List.pairwise_append.mp ordered
      obtain ⟨next, after⟩ := List.pairwise_cons.mp after
      obtain ⟨answered, kept⟩ := check_judged (remembers check List.mem_cons_self)
        fun other member => across other member check List.mem_cons_self
      rw [logFrom, judged, List.map_cons, answered, entryOf]
      congr 1
      apply ih
      · intro later member
        exact kept.after (next later member)
      · split_ifs
        · rw [List.append_assoc]
          exact ordered
        · apply List.pairwise_append.mpr
          exact ⟨before, after, fun earlier member later among =>
            across earlier member later (List.mem_cons_of_mem _ among)⟩

theorem log_judged (ordered : Ordered Prod.snd checks) :
    limiter.log checks =
      (judged Check.key Prod.snd limiter.limit.toNat limiter.window [] checks).map
        limiter.entryOf :=
  log_from_judged (fun check _ => remembers_nothing check.2) ordered

theorem answer_returns (check : Check) (passes : Bool) :
    returns (limiter.answer check passes) = passes := by
  cases passes <;> rfl

theorem answer_limited_iff (check : Check) (passes : Bool) :
    (∃ text, limiter.answer check passes = .error (.rateLimited text)) ↔ passes = false := by
  cases passes with
  | true =>
      apply iff_of_false
      · intro limited
        obtain ⟨_, never⟩ := limited
        cases never
      · exact Bool.noConfusion
  | false => exact iff_of_true ⟨_, rfl⟩ rfl

theorem admitted_answers (entries : List (Check × Bool)) :
    admitted (entries.map limiter.entryOf) = letIn entries := by
  rw [admitted, List.filter_map, List.map_map, letIn]
  simp only [Function.comp_def, entryOf, answer_returns]

theorem calls_answered (entries : List (Check × Bool)) :
    (entries.map limiter.entryOf).map Prod.fst = entries.map Prod.fst := by
  rw [List.map_map]
  rfl

end Refinement

section Window

variable {limiter : RateLimiter} {checks : List Check}

/-- An entry of the log is one of the window's, between what is before and after it. -/
theorem log_split {before after : List (Check × Except Exn Unit)} {check : Check}
    {answered : Except Exn Unit} (ordered : Ordered Prod.snd checks)
    (split : limiter.log checks = before ++ (check, answered) :: after) :
    ∃ before' passes after',
      judged Check.key Prod.snd limiter.limit.toNat limiter.window [] checks =
        before' ++ (check, passes) :: after' ∧
      before = before'.map limiter.entryOf ∧
      answered = limiter.answer check passes ∧
      after = after'.map limiter.entryOf := by
  rw [log_judged ordered] at split
  obtain ⟨before', rest, windowed, first, last⟩ := List.map_eq_append_iff.mp split
  obtain ⟨entry, after', rfl, own, later⟩ := List.map_eq_cons_iff.mp last
  obtain ⟨check', passes⟩ := entry
  rw [Prod.mk.injEq] at own
  obtain ⟨rfl, own⟩ := own
  exact ⟨before', passes, after', windowed, first.symm, own.symm, later.symm⟩

theorem admitted_judged (ordered : Ordered Prod.snd checks) :
    admitted (limiter.log checks) =
      letIn (judged Check.key Prod.snd limiter.limit.toNat limiter.window [] checks) := by
  rw [log_judged ordered, admitted_answers]

/-- No window of the limiter's length holds more admitted calls of a key than the limit. -/
theorem admitted_bounded (ordered : Ordered Prod.snd checks) (key : Str) (start : Instant) :
    between Check.key Prod.snd key start (start + limiter.window)
      (admitted (limiter.log checks)) ≤ limiter.limit := by
  have positive := limiter.positive
  have empty : Bounded Check.key Prod.snd limiter.limit.toNat limiter.window [] :=
    fun _ _ => Nat.zero_le _
  have within := judged_bounded empty ordered key start
  rw [admitted_judged ordered]
  rw [List.nil_append] at within
  omega

theorem ordered_of_split {before after : List Check} {check : Check}
    (ordered : Ordered Prod.snd (before ++ check :: after)) : Ordered Prod.snd (before ++ after) :=
  ordered.sublist ((List.Sublist.refl before).append (List.sublist_cons_self check after))

/-- The limiter is an exact sliding window over every run of calls, as long as its clock
does not go back. -/
theorem rate_limiter_exact (limiter : RateLimiter) {checks : List Check}
    (ordered : Ordered Prod.snd checks) : ExactWindow limiter checks where
  exact_ before check answered after split := by
    obtain ⟨before', passes, after', windowed, rfl, rfl, rfl⟩ := log_split ordered split
    have verdict := (judged_split windowed).2.1
    have positive := limiter.positive
    rw [answer_limited_iff, admitted_answers]
    constructor
    · rw [← verdict, judge, decide_eq_false_iff_not, List.nil_append]
      omega
    · intro passed
      rw [Bool.not_eq_false] at passed
      rw [passed]
      rfl
  bounded := admitted_bounded ordered
  refused_free before check error after split := by
    obtain ⟨before', passes, after', windowed, rfl, refused, rfl⟩ := log_split ordered split
    cases passes with
    | true => cases refused
    | false =>
        have listed : checks = before'.map Prod.fst ++ check :: after'.map Prod.fst := by
          have all := congrArg (List.map Prod.fst) windowed
          rw [judged_calls, List.map_append, List.map_cons] at all
          exact all
        rw [listed] at ordered
        rw [calls_answered, calls_answered, log_judged (ordered_of_split ordered),
          judged_without windowed, List.map_append]
  others_apart key := by
    rw [log_judged ordered, log_judged (ordered.sublist List.filter_sublist), List.filter_map]
    exact congrArg (List.map limiter.entryOf)
      (@judged_of_key Check Str Instant _ _ _ Check.key Prod.snd _ _ [] checks key)

/-- One message a second from one sender: the second one is too many, the third one is out
of the window of the first. -/
theorem one_a_second : ExactWindow ⟨1, 1000000, by decide⟩
    [(some "a".toList, 0), (some "a".toList, 999999), (some "a".toList, 1000000)] :=
  rate_limiter_exact _ (by decide)

end Window

end DearAgent.RateLimiter
