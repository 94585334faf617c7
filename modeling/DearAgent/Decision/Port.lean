import DearAgent.Lib.Dict
import DearAgent.Lib.Json

/-!
# Typed decisions

The questions and answers of `decision/port.py`. What a decision model gives is whatever
its client made of it, so that a field of an answer holds a value and not yet a number.
-/

namespace DearAgent.Deciders

open DearAgent.Lib.Text DearAgent.Lib.Dictionaries DearAgent.Lib.CodePoints DearAgent.Lib.Values

set_option autoImplicit false

def decisionError (text : PyStr) : Raised :=
  { classes := ["DecisionError".toList, "Exception".toList], text }

theorem decision_error_is_decision (text : PyStr) :
    (decisionError text).isA "DecisionError" = true := by
  have classes : ["DecisionError".toList, "Exception".toList].contains "DecisionError".toList =
      true := by decide
  exact classes

theorem builtin_is_no_decision {error : Raised} (builtin : error ∈ builtinErrors) :
    error.isA "DecisionError" = false := by
  have each : ∀ error ∈ builtinErrors, error.isA "DecisionError" = false := by decide
  exact each error builtin

inductive DecisionKind
  | choice
  | score
  | noul
deriving DecidableEq

/-- The criteria of a question: labels with their meanings, or a rubric. -/
inductive Criteria
  | labels (meanings : Dict PyStr PyStr)
  | rubric (levels : List PyStr)

structure Question where
  kind : DecisionKind
  instructions : PyStr
  criteria : Option Criteria := none

abbrev Questions := Dict PyStr Question

/-- `criteria if isinstance(criteria, dict) else None`. -/
def Question.labels (question : Question) : Option (List PyStr) :=
  match question.criteria with
  | some (.labels meanings) => some (meanings.entries.map Prod.fst)
  | _ => none

/-- `len(criteria)`. -/
def Question.levels (question : Question) : Option Nat :=
  question.criteria.map fun criteria => match criteria with
    | .labels meanings => meanings.entries.length
    | .rubric levels => levels.length

/-- An answer. Its kind may be something that is no kind at all. -/
structure Answer where
  kind : Option DecisionKind
  choice : Value := .null
  score : Value := .null
  noul : Value := .null
  confidence : Value := .null
  probabilities : Value := .dict []

/-- What a decision holds for a question: an answer, or any other value. -/
inductive Entry
  | answer (answer : Answer)
  | other (value : Value)

structure Decision where
  answers : Dict PyStr Entry

/-- What is a number. A `bool` is none here, and neither is a NaN. -/
def numberOf : Value → Option Number
  | .int n => some (.int n)
  | .float x => if (placeOf x).isSome then some (.float x) else none
  | _ => none

/-- The value is a number from `low` to `high`. -/
def NumberWithin (low high : ℚ) (value : Value) : Prop :=
  ∃ number, numberOf value = some number ∧ number.within low high

theorem float_within_iff {low high : ℚ} {x : Float} :
    NumberWithin low high (.float x) ↔ (Number.float x).within low high := by
  unfold NumberWithin numberOf
  simp only
  split_ifs with placed
  · simp
  · apply iff_of_false
    · rintro ⟨_, never, _⟩
      cases never
    · rintro ⟨q, found, _⟩
      have place : placeOf x = some (.exactly q) := found
      rw [place] at placed
      exact placed rfl

/-- A score is a number, and within the rubric where there is one. -/
def ScoreTyped (question : Question) (score : Value) : Prop :=
  (numberOf score).isSome ∧
    ∀ levels, question.levels = some levels → NumberWithin 0 ((levels : ℚ) - 1) score

def ChoiceTyped (question : Question) (choice : Value) : Prop :=
  ∃ label, choice = .str label ∧ label ∈ question.labels.getD []

def ConfidenceTyped (confidence : Value) : Prop :=
  confidence = .null ∨ NumberWithin 0 1 confidence

/-- An answer is of the kind of its question and within its bounds. -/
structure Answer.WellTyped (question : Question) (answer : Answer) : Prop where
  kind : answer.kind = some question.kind
  choice : question.kind = .choice → ChoiceTyped question answer.choice
  score : question.kind = .score → ScoreTyped question answer.score
  noul : question.kind = .noul → NumberWithin 0 1 answer.noul
  confidence : ConfidenceTyped answer.confidence

/-- One well-typed answer for every question and none besides. -/
structure Decision.WellTyped (questions : Questions) (decision : Decision) : Prop where
  asked : decision.answers.entries.map Prod.fst = questions.entries.map Prod.fst
  typed : ∀ questionId question, (questionId, question) ∈ questions.entries →
    ∃ answer, decision.answers.get questionId = some (.answer answer) ∧ answer.WellTyped question

/-- A parser raises a `DecisionError` or returns a well-typed decision. -/
structure Parses (questions : Questions) (result : Except Raised Decision) : Prop where
  raises : ∀ error, result = .error error → error.isA "DecisionError" = true
  returns : ∀ decision, result = .ok decision → decision.WellTyped questions

theorem parses_error_iff {questions : Questions} {error : Raised} :
    Parses questions (.error error) ↔ error.isA "DecisionError" = true := by
  constructor
  · exact fun parses => parses.raises error rfl
  · intro declared
    refine ⟨fun other same => ?_, fun decision never => ?_⟩
    · cases same
      exact declared
    · cases never

theorem parses_ok_iff {questions : Questions} {decision : Decision} :
    Parses questions (.ok decision) ↔ decision.WellTyped questions := by
  constructor
  · exact fun parses => parses.returns decision rfl
  · intro typed
    refine ⟨fun error never => ?_, fun other same => ?_⟩
    · cases never
    · cases same
      exact typed

theorem not_parses_builtin {questions : Questions} {error : Raised}
    (builtin : error ∈ builtinErrors) : ¬Parses questions (.error error) := by
  rw [parses_error_iff, builtin_is_no_decision builtin]
  exact Bool.false_ne_true

theorem parses_named_iff {questions : Questions} {text : Except Raised PyStr} {named : PyStr → PyStr}
    (raises : ∀ error, text = .error error → error ∈ builtinErrors) :
    Parses questions (text >>= fun written => .error (decisionError (named written))) ↔
      ∃ written, text = .ok written := by
  cases text with
  | error error =>
      apply iff_of_false
      · exact not_parses_builtin (raises error rfl)
      · rintro ⟨_, never⟩
        cases never
  | ok written =>
      exact iff_of_true (parses_error_iff.mpr (decision_error_is_decision _)) ⟨written, rfl⟩

section Loop

def answerEntry (answerOf : PyStr → Question → Except Raised Answer) (asked : PyStr × Question) :
    Except Raised (PyStr × Entry) := do
  let answer ← answerOf asked.1 asked.2
  return (asked.1, .answer answer)

/-- `answers[question_id] = ...` in a loop over the questions. -/
def answerAll (answerOf : PyStr → Question → Except Raised Answer) (questions : Questions) :
    Except Raised Decision := do
  let answers ← questions.entries.mapM (answerEntry answerOf)
  return ⟨.ofEntries answers⟩

variable {answerOf : PyStr → Question → Except Raised Answer} {questions : Questions}
  {decision : Decision} {error : Raised} {asked : PyStr × Question}

theorem answer_entry_returns_iff (entry : PyStr × Entry) :
    answerEntry answerOf asked = .ok entry ↔
      ∃ answer, answerOf asked.1 asked.2 = .ok answer ∧ entry = (asked.1, .answer answer) := by
  unfold answerEntry
  rw [bind_returns_iff]
  apply exists_congr
  intro answer
  apply and_congr_right
  intro _
  constructor
  · exact fun same => (Except.ok.inj same).symm
  · rintro rfl
    rfl

theorem answer_entry_raises_iff :
    answerEntry answerOf asked = .error error ↔ answerOf asked.1 asked.2 = .error error :=
  map_raises_iff

theorem keys_of_paired {entries : List (PyStr × Question)} {answers : List (PyStr × Entry)}
    (paired : List.Forall₂ (fun asked entry => answerEntry answerOf asked = .ok entry)
      entries answers) :
    answers.map Prod.fst = entries.map Prod.fst := by
  induction paired with
  | nil => rfl
  | cons own _ ih =>
      obtain ⟨answer, _, rfl⟩ := (answer_entry_returns_iff _).mp own
      rw [List.map_cons, List.map_cons, ih]

/-- Every question gets the answer that is made for it, and nothing else is answered. -/
theorem answer_all_returns (returned : answerAll answerOf questions = .ok decision) :
    decision.answers.entries.map Prod.fst = questions.entries.map Prod.fst ∧
      ∀ questionId question, (questionId, question) ∈ questions.entries →
        ∃ answer, answerOf questionId question = .ok answer ∧
          decision.answers.get questionId = some (.answer answer) := by
  obtain ⟨answers, looped, same⟩ := bind_returns_iff.mp returned
  cases same
  have paired := map_m_ok_iff.mp looped
  have keys := keys_of_paired paired
  have entries : (Dict.ofEntries answers).entries = answers := by
    apply Dict.of_entries_entries
    rw [keys]
    exact questions.distinct
  constructor
  · rw [entries, keys]
  · intro questionId question member
    obtain ⟨entry, among, own⟩ := exists_of_mem paired _ member
    obtain ⟨answer, answered, rfl⟩ := (answer_entry_returns_iff _).mp own
    refine ⟨answer, answered, (Dict.get_eq_some_iff _ _ _).mpr ?_⟩
    rw [entries]
    exact among

theorem answer_all_raises_iff :
    answerAll answerOf questions = .error error ↔
      ∃ before asked after, questions.entries = before ++ asked :: after ∧
        (∀ earlier ∈ before, ∃ answer, answerOf earlier.1 earlier.2 = .ok answer) ∧
        answerOf asked.1 asked.2 = .error error := by
  have looped : answerAll answerOf questions = .error error ↔
      questions.entries.mapM (answerEntry answerOf) = .error error := map_raises_iff
  have returns : ∀ asked, (∃ entry, answerEntry answerOf asked = .ok entry) ↔
      ∃ answer, answerOf asked.1 asked.2 = .ok answer := fun _ => map_returns_iff
  rw [looped, map_m_raises_iff]
  simp only [returns, answer_entry_raises_iff]

end Loop

end DearAgent.Deciders
