import DearAgent.Auth.Limits
import DearAgent.ControlPlane.Denials

/-!
# One budget for one address

The allowlist strips a sender and looks at its lower case, the limiter counts the senders
as they are spelled.
-/

namespace DearAgent.ControlPlane

open DearAgent.Lib.Text DearAgent.Lib.Dictionaries DearAgent.Lib.Windows DearAgent.Queue
open DearAgent.RateLimiter (Check admitted admitted_cons returns)

set_option autoImplicit false

section Budgets

variable [Unicode]

def addressOf (sender : Option Str) : Str := Unicode.lower (strip (sender.getD []))

def Timed.address (timed : Timed) : Str := addressOf timed.1.sender

def allowlisted (senders : List Str) (sender : Option Str) : Bool :=
  returns ( SenderAllowlist.admit senders sender)

def limitedAllowlist (senders : List Str) (limiter : RateLimiter) : LimitedGate :=
  .rateLimited { rateLimiter := limiter, gate := some (.allowlist senders) }

variable [HmacSha256]

/-- The messages that a gate admits of some that come one after the other. -/
def admittedMail (gate : LimitedGate) : List Timed → Seen → List Timed
  | [], _ => []
  | timed :: rest, seen =>
      let answered := admission gate timed seen
      (if returns answered.1 then [timed] else []) ++ admittedMail gate rest answered.2

/-- With senders among these spellings, no window of the limiter's length has more admitted
messages from one address than the limit. -/
def OneBudget (senders : List Str) (limiter : RateLimiter) (spellings : Set (Option Str)) : Prop :=
  ∀ mail : List Timed, Ordered mail → (∀ timed ∈ mail, timed.1.sender ∈ spellings) →
    ∀ address start, between Timed.address Prod.snd address start (start + limiter.window)
      (admittedMail (limitedAllowlist senders limiter) mail .empty) ≤ limiter.limit

/-- No address of an allowlisted sender is spelled in two ways. -/
def SpelledOnce (senders : List Str) (spellings : Set (Option Str)) : Prop :=
  ∀ one ∈ spellings, ∀ other ∈ spellings, allowlisted senders one = true →
    allowlisted senders other = true → addressOf one = addressOf other → one = other

def Timed.check (timed : Timed) : Check := (timed.1.sender, timed.2)

variable {senders : List Str} {limiter : RateLimiter} {spellings : Set (Option Str)}

theorem admission_listed {timed : Timed} (listed : allowlisted senders timed.1.sender = true)
    (seen : Seen) :
    admission (limitedAllowlist senders limiter) timed seen =
      limiter.check timed.1.sender timed.2 seen := by
  unfold admission LimitedGate.admit limitedAllowlist LimitedGate.authorize PlainGate.admit
  unfold allowlisted at listed
  cases said : SenderAllowlist.admit senders timed.1.sender with
  | error error =>
      rw [said] at listed
      cases listed
  | ok _ =>
      dsimp only
      rw [said]
      rfl

theorem admission_unlisted {timed : Timed} (listed : allowlisted senders timed.1.sender = false)
    (seen : Seen) :
    ∃ error, admission (limitedAllowlist senders limiter) timed seen = (.error error, seen) := by
  unfold admission LimitedGate.admit limitedAllowlist LimitedGate.authorize PlainGate.admit
  unfold allowlisted at listed
  cases said : SenderAllowlist.admit senders timed.1.sender with
  | error error =>
      dsimp only
      rw [said]
      exact ⟨error, rfl⟩
  | ok _ =>
      rw [said] at listed
      cases listed

def listedMail (senders : List Str) (mail : List Timed) : List Timed :=
  mail.filter fun timed => allowlisted senders timed.1.sender

omit [HmacSha256] in
theorem listed_ordered {mail : List Timed} (ordered : Ordered mail) :
    Lib.Windows.Ordered Prod.snd ((listedMail senders mail).map Timed.check) :=
  List.pairwise_map.mpr (ordered.sublist List.filter_sublist)

theorem admitted_mail_checks (mail : List Timed) (seen : Seen) :
    (admittedMail (limitedAllowlist senders limiter) mail seen).map Timed.check =
      admitted (limiter.logFrom seen ((listedMail senders mail).map Timed.check)) := by
  induction mail generalizing seen with
  | nil => rfl
  | cons timed rest ih =>
      rw [admittedMail, listedMail, List.filter_cons]
      cases listed : allowlisted senders timed.1.sender with
      | false =>
          obtain ⟨error, refused⟩ := @admission_unlisted _ _ senders limiter timed listed seen
          rw [refused]
          exact ih seen
      | true =>
          rw [admission_listed listed, if_pos rfl, List.map_cons, RateLimiter.logFrom,
            admitted_cons, List.map_append, ih]
          congr 1
          exact apply_ite (List.map Timed.check) _ _ _

theorem admitted_mail_sublist (gate : LimitedGate) (mail : List Timed) (seen : Seen) :
    (admittedMail gate mail seen).Sublist mail := by
  induction mail generalizing seen with
  | nil => exact .slnil
  | cons timed rest ih =>
      rw [admittedMail]
      split_ifs
      · exact (ih _).cons_cons timed
      · exact (ih _).cons timed

theorem admitted_mail_listed {mail : List Timed} {seen : Seen} {timed : Timed}
    (member : timed ∈ admittedMail (limitedAllowlist senders limiter) mail seen) :
    allowlisted senders timed.1.sender = true := by
  induction mail generalizing seen with
  | nil => exact absurd member List.not_mem_nil
  | cons next rest ih =>
      rw [admittedMail] at member
      cases listed : allowlisted senders next.1.sender with
      | false =>
          obtain ⟨error, refused⟩ := @admission_unlisted _ _ senders limiter next listed seen
          rw [refused] at member
          exact ih member
      | true =>
          rcases List.mem_append.mp member with here | later
          · split_ifs at here
            · rw [List.mem_singleton.mp here]
              exact listed
            · exact absurd here List.not_mem_nil
          · exact ih later

omit [HmacSha256] in
theorem listed_key {sender : Option Str} (listed : allowlisted senders sender = true) :
    sender = some (RateLimiter.keyOf sender) := by
  have blank (empty : sender.getD [] = []) : False := by
    have lowered : Unicode.lower (strip []) = [] := Unicode.lower_ascii [] (by simp)
    unfold allowlisted SenderAllowlist.admit at listed
    rw [empty, lowered] at listed
    cases listed
  cases sender with
  | none => exact (blank rfl).elim
  | some sender =>
      cases sender with
      | nil => exact (blank rfl).elim
      | cons c rest => rfl

theorem one_budget_of_spelled_once (once : SpelledOnce senders spellings) :
    OneBudget senders limiter spellings := by
  intro mail ordered spelled address start
  by_cases occurs : ∃ first ∈ admittedMail (limitedAllowlist senders limiter) mail .empty,
      Timed.address first = address
  · obtain ⟨first, first_admitted, same⟩ := occurs
    subst same
    have counted : between Timed.address Prod.snd first.address start (start + limiter.window)
        (admittedMail (limitedAllowlist senders limiter) mail .empty) ≤
        between Check.key Prod.snd first.check.key start (start + limiter.window)
          ((admittedMail (limitedAllowlist senders limiter) mail .empty).map Timed.check) := by
      rw [between, between, List.countP_map]
      apply List.countP_mono_left
      intro timed member inside
      simp only [decide_eq_true_eq, Function.comp_apply] at inside ⊢
      have spelling : timed.1.sender = first.1.sender :=
        once _ (spelled timed ((admitted_mail_sublist _ _ _).mem member))
          _ (spelled first ((admitted_mail_sublist _ _ _).mem first_admitted))
          (admitted_mail_listed member) (admitted_mail_listed first_admitted) inside.1
      exact ⟨congrArg RateLimiter.keyOf spelling, inside.2⟩
    rw [admitted_mail_checks] at counted
    have bounded := @RateLimiter.admitted_bounded limiter _
      (@listed_ordered _ senders mail ordered) first.check.key start
    rw [RateLimiter.log] at bounded
    omega
  · have none : between Timed.address Prod.snd address start (start + limiter.window)
        (admittedMail (limitedAllowlist senders limiter) mail .empty) = 0 := by
      apply List.countP_eq_zero.mpr
      intro timed member inside
      exact occurs ⟨timed, member, (of_decide_eq_true inside).1⟩
    have positive := limiter.positive
    omega

def fromSender (sender : Option Str) : Timed := ({ transportId := [], sender := sender }, 0)

theorem spelled_once_of_one_budget (window : 0 < limiter.window)
    (bounded : OneBudget senders limiter spellings) : SpelledOnce senders spellings := by
  intro one one_in other other_in one_listed other_listed same
  by_contra different
  have positive := limiter.positive
  let mail := List.replicate limiter.limit.toNat (fromSender one) ++ [fromSender other]
  have each (timed : Timed) (member : timed ∈ mail) :
      timed = fromSender one ∨ timed = fromSender other := by
    rcases List.mem_append.mp member with first | last
    · exact .inl (List.eq_of_mem_replicate first)
    · exact .inr (List.mem_singleton.mp last)
  have moments (timed : Timed) (member : timed ∈ mail) : timed.2 = 0 := by
    rcases each timed member with rfl | rfl <;> rfl
  have ordered : Ordered mail := by
    apply List.pairwise_iff_forall_sublist.mpr
    intro first second both
    rw [moments first (both.mem List.mem_cons_self),
      moments second (both.mem (List.mem_cons_of_mem _ List.mem_cons_self))]
  have listed : listedMail senders mail = mail := by
    apply List.filter_eq_self.mpr
    intro timed member
    rcases each timed member with rfl | rfl
    · exact one_listed
    · exact other_listed
  have keys : (fromSender one).check.key ≠ (fromSender other).check.key := by
    intro equal
    apply different
    rw [listed_key one_listed, listed_key other_listed]
    exact congrArg some equal
  have all : (admittedMail (limitedAllowlist senders limiter) mail .empty).map Timed.check =
      mail.map Timed.check := by
    have checks := @RateLimiter.admitted_judged limiter _ (@listed_ordered _ senders mail ordered)
    rw [listed] at checks
    rw [admitted_mail_checks, listed]
    refine Eq.trans checks (all_let_in fun key => ?_)
    rw [List.nil_append, List.countP_map, List.countP_append, List.countP_replicate,
      List.countP_singleton]
    simp only [Function.comp_apply, decide_eq_true_eq]
    by_cases first : (fromSender one).check.key = key
    · have second : ¬(fromSender other).check.key = key := fun equal => keys (first.trans equal.symm)
      rw [if_pos first, if_neg second]
      omega
    · rw [if_neg first]
      split_ifs <;> omega
  have whole : admittedMail (limitedAllowlist senders limiter) mail .empty = mail := by
    apply (admitted_mail_sublist _ _ _).eq_of_length
    have lengths := congrArg List.length all
    rw [List.length_map, List.length_map] at lengths
    exact lengths
  have few := bounded mail ordered (fun timed member => by
    rcases each timed member with rfl | rfl
    · exact one_in
    · exact other_in) (addressOf one) (-1)
  have every : between Timed.address Prod.snd (addressOf one) (-1) (-1 + limiter.window) mail =
      mail.length := by
    apply List.countP_eq_length.mpr
    intro timed member
    have address : timed.address = addressOf one := by
      rcases each timed member with rfl | rfl
      · rfl
      · exact same.symm
    rw [decide_eq_true_eq, address, moments timed member]
    refine ⟨rfl, by decide, ?_⟩
    have one_more : (0 : Int) < limiter.window := window
    change (0 : Int) ≤ -1 + limiter.window
    omega
  rw [whole, every, List.length_append, List.length_replicate, List.length_singleton] at few
  omega

/-- Every run with senders among some spellings keeps the bound for each address exactly
if the window is empty, or no address on the list is spelled in two ways. -/
theorem one_budget_iff (senders : List Str) (limiter : RateLimiter) (spellings : Set (Option Str)) :
    OneBudget senders limiter spellings ↔
      limiter.window ≤ 0 ∨ SpelledOnce senders spellings := by
  constructor
  · intro bounded
    rcases le_or_gt limiter.window 0 with empty | window
    · exact .inl empty
    · exact .inr (spelled_once_of_one_budget window bounded)
  · intro either
    rcases either with empty | once
    · intro mail _ _ address start
      have none : between Timed.address Prod.snd address start (start + limiter.window)
          (admittedMail (limitedAllowlist senders limiter) mail .empty) = 0 := by
        apply List.countP_eq_zero.mpr
        intro timed _ inside
        have within := (of_decide_eq_true inside).2
        exact not_lt.mpr empty (lt_add_iff_pos_right start |>.mp (lt_of_lt_of_le within.1 within.2))
      have positive := limiter.positive
      omega
    · exact one_budget_of_spelled_once once

end Budgets

/-- One message a minute for the address, and two from it at once, spelled in two ways. -/
theorem respelled_twice :
    ¬@OneBudget asciiTables ⟨fun _ _ => []⟩ ["me@example.com".toList] ⟨1, 60000000, by decide⟩
      {some "me@example.com".toList, some "Me@Example.com".toList} := by
  intro bounded
  have few := bounded
    [fromSender (some "me@example.com".toList), fromSender (some "Me@Example.com".toList)]
    (by decide) (by
      intro timed member
      rcases List.mem_cons.mp member with rfl | member
      · exact .inl rfl
      · rw [List.mem_singleton.mp member]
        exact .inr rfl) "me@example.com" (-1)
  exact absurd few (by decide)

end DearAgent.ControlPlane
