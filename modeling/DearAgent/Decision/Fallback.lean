import DearAgent.Decision.Port

/-!
# Falling back to the rules

`FallbackDecider` asks a decision model first and replaces, question by question, what it
is not confident about by the answer of the rules. It catches one class of exceptions, and
it compares values that nobody has looked at.
-/

namespace DearAgent.Deciders

open DearAgent.Lib.Text DearAgent.Lib.Dictionaries DearAgent.Lib.CodePoints DearAgent.Lib.Values

set_option autoImplicit false

abbrev Decider := PyStr → Questions → Except Raised Decision

structure FallbackDecider where
  primary : Decider
  fallback : Decider
  threshold : Float := 0.5

section Confidence

def lessHalf (value : Value) : Except Raised Float :=
  match value.number? with
  | none => .error typeError
  | some number => do
      let x ← number.toFloat
      return x - 0.5

def atLeast (threshold : Float) (value : Value) : Except Raised Bool :=
  match value.number? with
  | none => .error typeError
  | some number => .ok ((Number.float threshold).le number)

def Answer.isNoul (answer : Answer) : Bool :=
  decide (answer.kind = some .noul) && !answer.noul.isNull

/-- `_confident`, about what the decision holds for the question. -/
def confident (threshold : Float) : Option Entry → Except Raised Bool
  | none => .ok false
  | some (.other value) => if value.isNull then .ok false else .error attributeError
  | some (.answer answer) =>
      if answer.isNoul then do
        let distance ← lessHalf answer.noul
        return (Number.float (threshold - 0.5)).le (.float distance.abs)
      else if answer.confidence.isNull then .ok false
      else atLeast threshold answer.confidence

/-- The questions, of those asked, that the decision is not confident about. -/
def uncertain (threshold : Float) (decision : Decision) :
    List (PyStr × Question) → Except Raised (List PyStr)
  | [] => .ok []
  | asked :: rest => do
      let sure ← confident threshold (decision.answers.get asked.1)
      let more ← uncertain threshold decision rest
      return if sure then more else asked.1 :: more

/-- One turn of the loop of `_replace`. -/
def replaceOne (fallback : Decision) (answers : Dict PyStr Entry) (questionId : PyStr) :
    Dict PyStr Entry :=
  match fallback.answers.get questionId with
  | some entry => answers.set questionId entry
  | none => answers

/-- `_replace`. The order of the set of questions only tells in which order new keys come. -/
def replace (primary fallback : Decision) (questionIds : List PyStr) : Decision :=
  ⟨questionIds.foldl (replaceOne fallback) primary.answers⟩

end Confidence

namespace FallbackDecider

def decide (decider : FallbackDecider) (state : PyStr) (questions : Questions) :
    Except Raised Decision :=
  match decider.primary state questions with
  | .error error =>
      if error.isA "DecisionError" then decider.fallback state questions else .error error
  | .ok decision => do
      let unsure ← uncertain decider.threshold decision questions.entries
      if unsure.isEmpty then return decision
      let rules ← decider.fallback state questions
      return replace decision rules unsure

end FallbackDecider

/-!
## What is kept and what is replaced
-/

section Honouring

/-- The primary decider gave this answer, of the kind and within the bounds of its question,
and it is confident at the threshold. -/
structure FallbackDecider.Trusts (decider : FallbackDecider) (state : PyStr) (questions : Questions)
    (questionId : PyStr) (question : Question) (answer : Answer) : Prop where
  given : ∃ decision, decider.primary state questions = .ok decision ∧
    decision.answers.get questionId = some (.answer answer)
  typed : answer.WellTyped question
  sure : confident decider.threshold (some (.answer answer)) = .ok true

/-- The decider returns, and every question has the trusted answer of the primary decider or,
where there is none, the answer of the rules. -/
def FallbackDecider.Honours (decider : FallbackDecider) (state : PyStr) (questions : Questions)
    (rules : Decision) : Prop :=
  ∃ decision, decider.decide state questions = .ok decision ∧
    ∀ asked ∈ questions.entries,
      (∀ answer, decider.Trusts state questions asked.1 asked.2 answer →
        decision.answers.get asked.1 = some (.answer answer)) ∧
      ((¬∃ answer, decider.Trusts state questions asked.1 asked.2 answer) →
        decision.answers.get asked.1 = rules.answers.get asked.1)

/-- What `_confident` compares is a number, and one that a float can hold where it is
subtracted from. -/
def Answer.Compares (answer : Answer) : Prop :=
  if answer.isNoul then ∃ number x, answer.noul.number? = some number ∧ number.toFloat = .ok x
  else answer.confidence = .null ∨ ∃ number, answer.confidence.number? = some number

/-- An answer that can be compared and, where that makes it confident, can be trusted; or it
is what the rules say too. -/
structure Answer.Tame (threshold : Float) (question : Question) (rule : Option Entry)
    (answer : Answer) : Prop where
  compares : answer.Compares
  typed : confident threshold (some (.answer answer)) = .ok true →
    answer.WellTyped question ∨ rule = some (.answer answer)

/-- The primary decider raises nothing but a `DecisionError`, and what it holds for a question
is nothing, `None` or a tame answer. -/
structure FallbackDecider.Tame (decider : FallbackDecider) (state : PyStr) (questions : Questions)
    (rules : Decision) : Prop where
  raises : ∀ error, decider.primary state questions = .error error →
    error.isA "DecisionError" = true
  returns : ∀ decision, decider.primary state questions = .ok decision →
    ∀ asked ∈ questions.entries, ∀ entry, decision.answers.get asked.1 = some entry →
      entry = .other .null ∨ ∃ answer, entry = .answer answer ∧
        answer.Tame decider.threshold asked.2 (rules.answers.get asked.1)

end Honouring

section Comparing

variable {threshold : Float} {answer : Answer} {decision rules : Decision}
  {asks : List (PyStr × Question)} {unsure : List PyStr}

theorem less_half_returns_iff (value : Value) :
    (∃ distance, lessHalf value = .ok distance) ↔
      ∃ number x, value.number? = some number ∧ number.toFloat = .ok x := by
  unfold lessHalf
  cases value.number? with
  | none =>
      apply iff_of_false
      · rintro ⟨_, never⟩
        cases never
      · rintro ⟨_, _, never, _⟩
        cases never
  | some number =>
      simp only [Option.some.injEq, exists_and_left, exists_eq_left']
      exact map_returns_iff

theorem at_least_returns_iff (value : Value) :
    (∃ sure, atLeast threshold value = .ok sure) ↔ ∃ number, value.number? = some number := by
  unfold atLeast
  cases value.number? with
  | none =>
      apply iff_of_false
      · rintro ⟨_, never⟩
        cases never
      · rintro ⟨_, never⟩
        cases never
  | some number => exact iff_of_true ⟨_, rfl⟩ ⟨number, rfl⟩

/-- The confidence in an answer is told exactly if what is compared for it is a number. -/
theorem confident_returns_iff :
    (∃ sure, confident threshold (some (.answer answer)) = .ok sure) ↔ answer.Compares := by
  unfold confident Answer.Compares
  simp only
  split_ifs with noul absent
  · rw [← less_half_returns_iff]
    exact map_returns_iff
  · exact iff_of_true ⟨_, rfl⟩ (.inl ((is_null_iff _).mp absent))
  · rw [at_least_returns_iff, or_iff_right (mt (is_null_iff _).mpr absent)]

theorem uncertain_returns (each : ∀ asked ∈ asks,
    ∃ sure, confident threshold (decision.answers.get asked.1) = .ok sure) :
    ∃ unsure, uncertain threshold decision asks = .ok unsure := by
  induction asks with
  | nil => exact ⟨[], rfl⟩
  | cons asked rest ih =>
      obtain ⟨sure, told⟩ := each asked List.mem_cons_self
      obtain ⟨more, later⟩ := ih fun other member => each other (List.mem_cons_of_mem _ member)
      rw [uncertain, told, ok_bind, later, ok_bind]
      exact ⟨_, rfl⟩

theorem uncertain_told (told : uncertain threshold decision asks = .ok unsure) :
    (∀ questionId ∈ unsure, confident threshold (decision.answers.get questionId) = .ok false) ∧
      ∀ asked ∈ asks, confident threshold (decision.answers.get asked.1) = .ok true ∨
        asked.1 ∈ unsure := by
  induction asks generalizing unsure with
  | nil =>
      cases told
      exact ⟨fun _ never => absurd never List.not_mem_nil,
        fun _ never => absurd never List.not_mem_nil⟩
  | cons first rest ih =>
      rw [uncertain] at told
      obtain ⟨sure, own, told⟩ := bind_returns_iff.mp told
      obtain ⟨more, later, told⟩ := bind_returns_iff.mp told
      obtain ⟨lacking, others⟩ := ih later
      cases sure with
      | true =>
          cases told
          exact ⟨lacking, List.forall_mem_cons.mpr ⟨.inl own, others⟩⟩
      | false =>
          cases told
          refine ⟨List.forall_mem_cons.mpr ⟨own, lacking⟩, List.forall_mem_cons.mpr
            ⟨.inr List.mem_cons_self, fun asked member => ?_⟩⟩
          exact (others asked member).imp_right (List.mem_cons_of_mem _)

theorem uncertain_iff (told : uncertain threshold decision asks = .ok unsure)
    {asked : PyStr × Question} (member : asked ∈ asks) :
    asked.1 ∈ unsure ↔ confident threshold (decision.answers.get asked.1) = .ok false := by
  obtain ⟨lacking, others⟩ := uncertain_told told
  constructor
  · exact lacking asked.1
  · intro lacks
    rcases others asked member with sure | unsure
    · cases lacks.symm.trans sure
    · exact unsure

theorem replace_one_get {fallback : Decision} {answers : Dict PyStr Entry}
    {questionId other : PyStr} (present : (fallback.answers.get other).isSome = true) :
    (replaceOne fallback answers questionId).get other =
      if other = questionId then fallback.answers.get other else answers.get other := by
  unfold replaceOne
  cases found : fallback.answers.get questionId with
  | some entry =>
      rw [Dict.get_set]
      split_ifs with same
      · rw [same, found]
      · rfl
  | none =>
      rw [if_neg]
      rintro rfl
      rw [found] at present
      cases present

theorem replace_get_unchanged {fallback : Decision} {questionIds : List PyStr} {questionId : PyStr}
    {answers : Dict PyStr Entry} (present : (fallback.answers.get questionId).isSome = true)
    (apart : questionId ∉ questionIds) :
    (questionIds.foldl (replaceOne fallback) answers).get questionId = answers.get questionId := by
  induction questionIds generalizing answers with
  | nil => rfl
  | cons first rest ih =>
      rw [List.foldl_cons, ih (List.not_mem_of_not_mem_cons apart), replace_one_get present,
        if_neg (List.ne_of_not_mem_cons apart)]

theorem replace_get_replaced {fallback : Decision} {questionIds : List PyStr} {questionId : PyStr}
    {answers : Dict PyStr Entry} (present : (fallback.answers.get questionId).isSome = true)
    (among : questionId ∈ questionIds) :
    (questionIds.foldl (replaceOne fallback) answers).get questionId =
      fallback.answers.get questionId := by
  induction questionIds generalizing answers with
  | nil => cases among
  | cons first rest ih =>
      rw [List.foldl_cons]
      by_cases later : questionId ∈ rest
      · exact ih later
      · rw [replace_get_unchanged present later, replace_one_get present,
          if_pos ((List.mem_cons.mp among).resolve_right later)]

end Comparing

section Deciding

variable {decider : FallbackDecider} {state : PyStr} {questions : Questions}
  {decision rules : Decision} {unsure : List PyStr}

/-- What comes of a decision of the primary decider: each question keeps its answer or gets
the one of the rules. -/
theorem decide_of_decision (given : decider.primary state questions = .ok decision)
    (answered : decider.fallback state questions = .ok rules)
    (all : ∀ asked ∈ questions.entries, (rules.answers.get asked.1).isSome = true)
    (told : uncertain decider.threshold decision questions.entries = .ok unsure) :
    ∃ final, decider.decide state questions = .ok final ∧
      ∀ asked ∈ questions.entries,
        (asked.1 ∈ unsure → final.answers.get asked.1 = rules.answers.get asked.1) ∧
        (asked.1 ∉ unsure → final.answers.get asked.1 = decision.answers.get asked.1) := by
  unfold FallbackDecider.decide
  rw [given]
  simp only [told, ok_bind]
  cases unsure with
  | nil => exact ⟨decision, rfl, fun _ _ => ⟨fun never => absurd never List.not_mem_nil, fun _ => rfl⟩⟩
  | cons first rest =>
      refine ⟨replace decision rules (first :: rest), ?_, fun asked member => ?_⟩
      · rw [answered]
        rfl
      · have present := all asked member
        exact ⟨replace_get_replaced present, replace_get_unchanged present⟩

theorem told_of_decide {final : Decision} (given : decider.primary state questions = .ok decision)
    (decided : decider.decide state questions = .ok final) :
    ∃ unsure, uncertain decider.threshold decision questions.entries = .ok unsure := by
  unfold FallbackDecider.decide at decided
  rw [given] at decided
  obtain ⟨unsure, told, _⟩ := bind_returns_iff.mp decided
  exact ⟨unsure, told⟩

/-- A decision the primary decider gave is dealt with as promised exactly if what it holds is
tame. -/
theorem honours_of_decision (given : decider.primary state questions = .ok decision)
    (answered : decider.fallback state questions = .ok rules)
    (all : ∀ asked ∈ questions.entries, (rules.answers.get asked.1).isSome = true) :
    decider.Honours state questions rules ↔
      ∀ asked ∈ questions.entries, ∀ entry, decision.answers.get asked.1 = some entry →
        entry = .other .null ∨ ∃ answer, entry = .answer answer ∧
          answer.Tame decider.threshold asked.2 (rules.answers.get asked.1) := by
  constructor
  · rintro ⟨final, decided, honoured⟩ asked member entry held
    obtain ⟨unsure, told⟩ := told_of_decide given decided
    obtain ⟨final', decided', kept⟩ := decide_of_decision given answered all told
    cases decided.symm.trans decided'
    have lacks := uncertain_iff told member
    have own := (uncertain_told told).2 asked member
    have sure : ∃ sure, confident decider.threshold (some entry) = .ok sure := by
      rw [← held]
      rcases own with sure | unsure
      · exact ⟨true, sure⟩
      · exact ⟨false, lacks.mp unsure⟩
    cases entry with
    | other value =>
        left
        obtain ⟨sure, told⟩ := sure
        unfold confident at told
        simp only at told
        split_ifs at told with absent
        rw [(is_null_iff value).mp absent]
    | answer answer =>
        refine .inr ⟨answer, rfl, confident_returns_iff.mp sure, fun certain => ?_⟩
        by_cases typed : answer.WellTyped asked.2
        · exact .inl typed
        · right
          have untrusted : ¬∃ answer, decider.Trusts state questions asked.1 asked.2 answer := by
            rintro ⟨other, trusts⟩
            obtain ⟨decision', given', held'⟩ := trusts.given
            cases given.symm.trans given'
            cases held.symm.trans held'
            exact typed trusts.typed
          have settled : asked.1 ∉ unsure := by
            intro unsure
            have never := lacks.mp unsure
            rw [held] at never
            cases certain.symm.trans never
          rw [← (honoured asked member).2 untrusted, (kept asked member).2 settled, held]
  · intro tame
    have sure : ∀ asked ∈ questions.entries,
        ∃ sure, confident decider.threshold (decision.answers.get asked.1) = .ok sure := by
      intro asked member
      cases held : decision.answers.get asked.1 with
      | none => exact ⟨false, rfl⟩
      | some entry =>
          rcases tame asked member entry held with rfl | ⟨answer, rfl, own⟩
          · exact ⟨false, rfl⟩
          · exact confident_returns_iff.mpr own.compares
    obtain ⟨unsure, told⟩ := uncertain_returns sure
    obtain ⟨final, decided, kept⟩ := decide_of_decision given answered all told
    refine ⟨final, decided, fun asked member => ⟨fun answer trusts => ?_, fun untrusted => ?_⟩⟩
    · obtain ⟨decision', given', held⟩ := trusts.given
      cases given.symm.trans given'
      have settled : asked.1 ∉ unsure := by
        intro unsure
        have never := (uncertain_iff told member).mp unsure
        rw [held] at never
        cases trusts.sure.symm.trans never
      rw [(kept asked member).2 settled, held]
    · by_cases unsure : asked.1 ∈ unsure
      · exact (kept asked member).1 unsure
      · rw [(kept asked member).2 unsure]
        have certain := ((uncertain_told told).2 asked member).resolve_right unsure
        cases held : decision.answers.get asked.1 with
        | none =>
            rw [held] at certain
            cases certain
        | some entry =>
            rw [held] at certain
            rcases tame asked member entry held with rfl | ⟨answer, rfl, own⟩
            · cases certain
            · rcases own.typed certain with typed | same
              · exact absurd ⟨answer, ⟨decision, given, held⟩, typed, certain⟩ untrusted
              · exact same.symm

/-- The decider does what it promises exactly where the primary decider is tame. -/
theorem decide_honours_iff (decider : FallbackDecider) (state : PyStr) (questions : Questions)
    {rules : Decision} (answered : decider.fallback state questions = .ok rules)
    (all : ∀ asked ∈ questions.entries, (rules.answers.get asked.1).isSome = true) :
    decider.Honours state questions rules ↔ decider.Tame state questions rules := by
  cases given : decider.primary state questions with
  | ok decision =>
      rw [honours_of_decision given answered all]
      constructor
      · refine fun tame => ⟨fun error never => ?_, fun other same => ?_⟩
        · cases given.symm.trans never
        · cases given.symm.trans same
          exact tame
      · exact fun tame => tame.returns decision given
  | error error =>
      have untrusted : ∀ asked : PyStr × Question,
          ¬∃ answer, decider.Trusts state questions asked.1 asked.2 answer := by
        rintro asked ⟨answer, trusts⟩
        obtain ⟨decision, never, _⟩ := trusts.given
        cases given.symm.trans never
      by_cases declared : error.isA "DecisionError" = true
      · apply iff_of_true
        · refine ⟨rules, ?_, fun asked _ => ⟨fun answer trusts => ?_, fun _ => rfl⟩⟩
          · unfold FallbackDecider.decide
            rw [given]
            simp only [declared, if_true, answered]
          · exact absurd ⟨answer, trusts⟩ (untrusted asked)
        · refine ⟨fun other same => ?_, fun decision never => ?_⟩
          · cases given.symm.trans same
            exact declared
          · cases given.symm.trans never
      · apply iff_of_false
        · rintro ⟨final, never, _⟩
          unfold FallbackDecider.decide at never
          rw [given] at never
          simp only [declared] at never
          cases never
        · exact fun tame => declared (tame.raises error given)

end Deciding

section Timeout

def timeoutError : Raised :=
  { classes := ["TimeoutError".toList, "OSError".toList, "Exception".toList] }

/-- A model whose service does not answer in time, in front of rules that never want a human. -/
def slowService : FallbackDecider where
  primary _ _ := .error timeoutError
  fallback _ questions :=
    .ok ⟨questions.mapValues fun _ _ => .answer { kind := some .noul, noul := .int 0 }⟩

def needsHuman : Questions :=
  ⟨[("needs_human", ⟨.noul, "needs a human?", none⟩)], List.nodup_singleton _⟩

def noHuman : Decision :=
  ⟨needsHuman.mapValues fun _ _ => .answer { kind := some .noul, noul := .int 0 }⟩

theorem slow_service_honours_iff :
    slowService.Honours "fix the typo" needsHuman noHuman ↔
      slowService.Tame "fix the typo" needsHuman noHuman :=
  decide_honours_iff slowService _ needsHuman rfl fun asked member => by
    rw [List.mem_singleton.mp member]
    rfl

theorem timeout_escapes : ¬slowService.Honours "fix the typo" needsHuman noHuman := by
  rintro ⟨decision, returned, _⟩
  have raised : slowService.decide "fix the typo" needsHuman = .error timeoutError := by
    have other : ¬timeoutError.isA "DecisionError" = true := by decide
    unfold FallbackDecider.decide slowService
    simp only [other]
    rfl
  cases raised.symm.trans returned

end Timeout

end DearAgent.Deciders
