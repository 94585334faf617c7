import DearAgent.Decision.Port

/-!
# The two parsers of a decision

`JevDecider._parse` hands on what the service answered; `OpenAICompatibleDecider._parse`
reads the answers out of the text of a chat model and checks some of what it reads.
-/

namespace DearAgent.Deciders

open DearAgent.Lib.Text DearAgent.Lib.Dictionaries DearAgent.Lib.CodePoints DearAgent.Lib.Values
open DearAgent.Lib.Json

set_option autoImplicit false

section Jev

namespace Jev

def answerFrom (kind : DecisionKind) (entry : List (PyStr × Value)) : Answer :=
  let confidence := getOr .null "confidence" entry
  let given := getOr .null "probabilities" entry
  let probabilities := if given.truthy then given else .dict []
  match kind with
  | .choice => { kind := some kind, choice := getOr .null "choice" entry, confidence, probabilities }
  | .score => { kind := some kind, score := getOr .null "score" entry, confidence, probabilities }
  | .noul => { kind := some kind, noul := getOr .null "noul" entry }

variable [Unicode] [Interpreter]

/-- The turn of one question in the loop of `_parse`. -/
def answerOf (raw : List (PyStr × Value)) (questionId : PyStr) (question : Question) :
    Except Raised Answer :=
  match (getOr .null questionId raw).entries? with
  | none => .error (decisionError (("jev omitted answer " : PyStr) ++ reprCodes questionId))
  | some entry => .ok (answerFrom question.kind entry)

/-- `_parse`. The payload is whatever JSON the service sent. -/
def parse (payload : Value) (questions : Questions) : Except Raised Decision :=
  match payload.entries? with
  | none => .error attributeError
  | some fields =>
      match (getOr .null "answers" fields).entries? with
      | none => do
          let written ← payload.text
          .error (decisionError (("jev response has no answers: " : PyStr) ++ written))
      | some raw => answerAll (answerOf raw) questions

end Jev

end Jev

section OpenAI

namespace OpenAI

def asFloat [Interpreter] : Value → Except Raised (Option Float)
  | .int n => do
      let x ← (Number.int n).toFloat
      return some x
  | .float x => .ok (some x)
  | .str s => .ok (readFloat s).toOption
  | .null | .bool _ | .list _ | .dict _ => .ok none

/-- A float, or `None`. -/
def ofFloat : Option Float → Value
  | some x => .float x
  | none => .null

/-- The choice is a text, and one of the labels where there are any. -/
def allowed (question : Question) (choice : Value) : Bool :=
  choice.str?.any fun label => question.labels.all fun labels => labels.contains label

variable [Unicode] [Interpreter]

/-- `repr` of a list of texts. -/
def reprLabels (labels : List PyStr) : PyStr :=
  ofChar '[' :: commaJoin (labels.map reprCodes) ++ [ofChar ']']

/-- `raise DecisionError(...)`, once what its text names can be written. -/
def refuse {α : Type} (value : Value) (text : PyStr → PyStr) : Except Raised α := do
  let written ← value.repr
  .error (decisionError (text written))

def answerFrom (question : Question) (entry : List (PyStr × Value)) : Except Raised Answer := do
  let confidence ← asFloat (getOr .null "confidence" entry)
  match question.kind with
  | .choice =>
      let choice := getOr .null "choice" entry
      if allowed question choice then
        return { kind := some .choice, choice, confidence := ofFloat confidence }
      else
        refuse choice fun written => ("choice " : PyStr) ++ written ++ (" is not one of " : PyStr) ++
          reprLabels (question.labels.getD [])
  | .score =>
      match ← asFloat (getOr .null "score" entry) with
      | none => .error (decisionError "score answer is missing a number")
      | some score => return { kind := some .score, score := .float score, confidence := ofFloat confidence }
  | .noul =>
      let noul ← asFloat (getOr .null "noul" entry)
      if noul.any fun x => Number.le (.int 0) (.float x) && Number.le (.float x) (.int 1) then
        return { kind := some .noul, noul := ofFloat noul }
      else
        refuse (getOr .null "noul" entry) fun written =>
          ("noul must be a probability in [0,1], got " : PyStr) ++ written

/-- `value[key]`, where that raises nothing. -/
def field? (key : PyStr) (value : Value) : Option Value :=
  value.entries?.bind fun fields => fields.lookup key

/-- `value[0]` of a list. -/
def first? : Value → Option Value
  | .list items => items.head?
  | _ => none

/-- `payload["choices"][0]["message"]["content"]`, where that raises nothing. -/
def contentOf (payload : Value) : Option Value :=
  (((field? "choices" payload).bind first?).bind (field? "message")).bind (field? "content")

def fence : PyStr := "```"

def stripFence (text : PyStr) : PyStr :=
  let stripped := strip text
  if fence.isPrefixOf stripped then
    let afterLine := stripped.dropWhile fun c => c ≠ ofChar '\n'
    let stripped := if afterLine.isEmpty then stripped else afterLine.tail
    strip (if fence.isSuffixOf stripped then stripped.take (stripped.length - 3) else stripped)
  else strip stripped

/-- The turn of one question in the loop of `_parse`. -/
def answerOf (data : List (PyStr × Value)) (questionId : PyStr) (question : Question) :
    Except Raised Answer :=
  match (getOr .null questionId data).entries? with
  | none => .error (decisionError (("decider omitted answer " : PyStr) ++ reprCodes questionId))
  | some entry => answerFrom question entry

/-- `json.loads` of the content. -/
def load (content : PyStr) : Except Raised Value :=
  match loadsText (stripFence content) with
  | .ok data => .ok data
  | .error error =>
      .error (if error.isA "JSONDecodeError" then
          decisionError (("decider content is not JSON: " : PyStr) ++ reprCodes (content.take 200))
        else error)

def parse (payload : Value) (questions : Questions) : Except Raised Decision :=
  match contentOf payload with
  | none => do
      let written ← payload.text
      .error (decisionError (("decider response has no content: " : PyStr) ++ written))
  | some content =>
      match content.str? with
      | none => .error (decisionError "decider content is not a string")
      | some content => do
          let data ← load content
          match data.entries? with
          | none => .error (decisionError "decider content is not a JSON object")
          | some data => answerAll (answerOf data) questions

end OpenAI

end OpenAI

/-!
## What the parsers promise
-/

section Conditions

/-- What a service says of a question is of its kind. -/
structure Jev.Typed (question : Question) (entry : List (PyStr × Value)) : Prop where
  choice : question.kind = .choice → ChoiceTyped question (getOr .null "choice" entry)
  score : question.kind = .score → ScoreTyped question (getOr .null "score" entry)
  noul : question.kind = .noul → NumberWithin 0 1 (getOr .null "noul" entry)
  confidence : question.kind ≠ .noul → ConfidenceTyped (getOr .null "confidence" entry)

variable [Unicode] [Interpreter]

/-- The service sent an object, in which an answer is missing or all answers are typed. -/
def Jev.Sound (payload : Value) (questions : Questions) : Prop :=
  ∃ fields, payload = .dict fields ∧
    ((getOr .null "answers" fields).entries? = none ∧ (∃ written, payload.text = .ok written) ∨
      ∃ raw, (getOr .null "answers" fields).entries? = some raw ∧
        ((∃ asked ∈ questions.entries, (getOr .null asked.1 raw).entries? = none) ∨
          ∀ asked ∈ questions.entries, ∃ entry,
            (getOr .null asked.1 raw).entries? = some entry ∧ Jev.Typed asked.2 entry))

/-- What the model says of a question is taken for an answer. -/
structure OpenAI.Taken (question : Question) (entry : List (PyStr × Value)) : Prop where
  confidence : ∃ confidence, OpenAI.asFloat (getOr .null "confidence" entry) = .ok confidence
  choice : question.kind = .choice → OpenAI.allowed question (getOr .null "choice" entry) = true
  score : question.kind = .score →
    ∃ x, OpenAI.asFloat (getOr .null "score" entry) = .ok (some x)
  noul : question.kind = .noul →
    ∃ x, OpenAI.asFloat (getOr .null "noul" entry) = .ok (some x) ∧ (Number.float x).within 0 1

/-- What the model says of a question is refused, and what the refusal names can be written. -/
structure OpenAI.Refused (question : Question) (entry : List (PyStr × Value)) : Prop where
  confidence : ∃ confidence, OpenAI.asFloat (getOr .null "confidence" entry) = .ok confidence
  choice : question.kind = .choice →
    OpenAI.allowed question (getOr .null "choice" entry) = false ∧
      ∃ written, (getOr .null "choice" entry).repr = .ok written
  score : question.kind = .score → OpenAI.asFloat (getOr .null "score" entry) = .ok none
  noul : question.kind = .noul →
    (∃ noul, OpenAI.asFloat (getOr .null "noul" entry) = .ok noul ∧
      ∀ x, noul = some x → ¬(Number.float x).within 0 1) ∧
    ∃ written, (getOr .null "noul" entry).repr = .ok written

/-- What is taken is within the bounds that nobody looks at. -/
structure OpenAI.Typed (question : Question) (entry : List (PyStr × Value)) : Prop
    extends OpenAI.Taken question entry where
  label : question.kind = .choice → ChoiceTyped question (getOr .null "choice" entry)
  rubric : question.kind = .score → ∀ x, OpenAI.asFloat (getOr .null "score" entry) = .ok (some x) →
    ScoreTyped question (.float x)
  certainty : question.kind ≠ .noul →
    ∀ confidence, OpenAI.asFloat (getOr .null "confidence" entry) = .ok confidence →
      ConfidenceTyped (OpenAI.ofFloat confidence)

/-- Some answer is missing or refused behind answers that are taken, or all of them are
taken and typed. -/
def OpenAI.SoundAnswers (data : List (PyStr × Value)) (questions : Questions) : Prop :=
  (∃ before asked after, questions.entries = before ++ asked :: after ∧
    (∀ earlier ∈ before, ∃ entry,
      (getOr .null earlier.1 data).entries? = some entry ∧ OpenAI.Taken earlier.2 entry) ∧
    ∀ entry, (getOr .null asked.1 data).entries? = some entry → OpenAI.Refused asked.2 entry) ∨
  ∀ asked ∈ questions.entries, ∃ entry,
    (getOr .null asked.1 data).entries? = some entry ∧ OpenAI.Typed asked.2 entry

/-- The text of the model can be read, or refused, and so can the answers in it. -/
structure OpenAI.Sound (payload : Value) (questions : Questions) : Prop where
  written : OpenAI.contentOf payload = none → ∃ written, payload.text = .ok written
  short : ∀ content, OpenAI.contentOf payload = some (.str content) →
    loadsText (OpenAI.stripFence content) ≠ .error valueError
  shallow : ∀ content, OpenAI.contentOf payload = some (.str content) →
    loadsText (OpenAI.stripFence content) ≠ .error recursionError
  answers : ∀ content data, OpenAI.contentOf payload = some (.str content) →
    loadsText (OpenAI.stripFence content) = .ok (.dict data) → OpenAI.SoundAnswers data questions

end Conditions

section Jev

namespace Jev

variable {question : Question} {entry : List (PyStr × Value)}

theorem answer_from_typed_iff :
    (answerFrom question.kind entry).WellTyped question ↔ Typed question entry := by
  constructor
  · intro typed
    refine ⟨fun kind => ?_, fun kind => ?_, fun kind => ?_, fun kind => ?_⟩
    · have own := typed.choice kind
      rw [kind] at own
      exact own
    · have own := typed.score kind
      rw [kind] at own
      exact own
    · have own := typed.noul kind
      rw [kind] at own
      exact own
    · have own := typed.confidence
      cases named : question.kind with
      | noul => exact absurd named kind
      | choice | score =>
          rw [named] at own
          exact own
  · intro typed
    cases kind : question.kind with
    | choice =>
        refine ⟨congrArg some kind.symm, fun _ => typed.choice kind, fun never => ?_,
          fun never => ?_, typed.confidence (by simp [kind])⟩
        · cases kind.symm.trans never
        · cases kind.symm.trans never
    | score =>
        refine ⟨congrArg some kind.symm, fun never => ?_, fun _ => typed.score kind,
          fun never => ?_, typed.confidence (by simp [kind])⟩
        · cases kind.symm.trans never
        · cases kind.symm.trans never
    | noul =>
        refine ⟨congrArg some kind.symm, fun never => ?_, fun never => ?_,
          fun _ => typed.noul kind, .inl rfl⟩
        · cases kind.symm.trans never
        · cases kind.symm.trans never

variable [Unicode] {raw : List (PyStr × Value)}

theorem answer_of_returns_iff {questionId : PyStr} {answer : Answer} :
    answerOf raw questionId question = .ok answer ↔
      ∃ entry, (getOr .null questionId raw).entries? = some entry ∧
        answer = answerFrom question.kind entry := by
  unfold answerOf
  cases (getOr .null questionId raw).entries? with
  | none =>
      apply iff_of_false
      · intro never
        cases never
      · rintro ⟨_, never, _⟩
        cases never
  | some entry =>
      constructor
      · exact fun returned => ⟨entry, rfl, (Except.ok.inj returned).symm⟩
      · rintro ⟨other, same, rfl⟩
        cases same
        rfl

theorem answer_of_raises {questionId : PyStr} {error : Raised}
    (raised : answerOf raw questionId question = .error error) :
    error.isA "DecisionError" = true ∧ (getOr .null questionId raw).entries? = none := by
  unfold answerOf at raised
  cases found : (getOr .null questionId raw).entries? with
  | none =>
      rw [found] at raised
      cases raised
      exact ⟨decision_error_is_decision _, rfl⟩
  | some entry =>
      rw [found] at raised
      cases raised

/-- The loop over the questions keeps the promise exactly if an answer is missing or all of
them are typed. -/
theorem answers_sound_iff (raw : List (PyStr × Value)) (questions : Questions) :
    Parses questions (answerAll (answerOf raw) questions) ↔
      (∃ asked ∈ questions.entries, (getOr .null asked.1 raw).entries? = none) ∨
        ∀ asked ∈ questions.entries, ∃ entry,
          (getOr .null asked.1 raw).entries? = some entry ∧ Typed asked.2 entry := by
  cases ended : answerAll (answerOf raw) questions with
  | error error =>
      obtain ⟨before, asked, after, split, _, raised⟩ := answer_all_raises_iff.mp ended
      obtain ⟨declared, missing⟩ := answer_of_raises raised
      apply iff_of_true (parses_error_iff.mpr declared)
      refine .inl ⟨asked, ?_, missing⟩
      rw [split]
      exact List.mem_append_right before List.mem_cons_self
  | ok decision =>
      obtain ⟨keys, answers⟩ := answer_all_returns ended
      have present : ∀ asked ∈ questions.entries, ∃ entry,
          (getOr .null asked.1 raw).entries? = some entry ∧
            decision.answers.get asked.1 = some (.answer (answerFrom asked.2.kind entry)) := by
        intro asked member
        obtain ⟨answer, answered, given⟩ := answers asked.1 asked.2 member
        obtain ⟨entry, found, rfl⟩ := answer_of_returns_iff.mp answered
        exact ⟨entry, found, given⟩
      rw [parses_ok_iff]
      constructor
      · intro typed
        refine .inr fun asked member => ?_
        obtain ⟨entry, found, given⟩ := present asked member
        obtain ⟨answer, given', typed⟩ := typed.typed asked.1 asked.2 member
        rw [given] at given'
        cases given'
        exact ⟨entry, found, answer_from_typed_iff.mp typed⟩
      · rintro (⟨asked, member, missing⟩ | all)
        · obtain ⟨entry, found, _⟩ := present asked member
          rw [missing] at found
          cases found
        · refine ⟨keys, fun questionId question member => ?_⟩
          obtain ⟨entry, found, given⟩ := present (questionId, question) member
          obtain ⟨entry', found', typed⟩ := all (questionId, question) member
          rw [found] at found'
          cases found'
          exact ⟨_, given, answer_from_typed_iff.mpr typed⟩

variable [Interpreter]

theorem parse_sound_iff (payload : Value) (questions : Questions) :
    Parses questions (parse payload questions) ↔ Sound payload questions := by
  unfold parse Sound
  cases object : payload.entries? with
  | none =>
      apply iff_of_false
      · exact not_parses_builtin (by simp [builtinErrors])
      · rintro ⟨fields, rfl, _⟩
        cases object
  | some fields =>
      have dict := entries_eq_some_iff.mp object
      subst dict
      simp only [Value.dict.injEq, exists_eq_left']
      cases answers : (getOr .null "answers" fields).entries? with
      | none =>
          rw [parses_named_iff fun error => text_raises]
          simp
      | some raw =>
          rw [answers_sound_iff]
          simp

end Jev

end Jev

section OpenAI

namespace OpenAI

variable {question : Question} {entry : List (PyStr × Value)} {answer : Answer} {error : Raised}
  {confidence : Option Float}

theorem unit_check_iff (x : Float) :
    (Number.le (.int 0) (.float x) && Number.le (.float x) (.int 1)) = true ↔
      (Number.float x).within 0 1 := by
  rw [within_iff_places, Bool.and_eq_true]
  unfold Number.le
  cases placed : (Number.float x).place with
  | none => simp
  | some place => simp [Number.place]

variable [Interpreter]

theorem as_float_raises {value : Value} (raised : asFloat value = .error error) :
    error ∈ builtinErrors := by
  cases value with
  | int n =>
      have raised := map_raises_iff.mp raised
      rw [to_float_raises raised]
      simp [builtinErrors]
  | null => cases raised
  | bool b => cases raised
  | float x => cases raised
  | str s => cases raised
  | list items => cases raised
  | dict entries => cases raised

variable [Unicode]

section Shapes

variable (certain : asFloat (getOr .null "confidence" entry) = .ok confidence)

include certain

theorem answer_from_choice (kind : question.kind = .choice) :
    answerFrom question entry =
      if allowed question (getOr .null "choice" entry) then
        .ok { kind := some .choice, choice := getOr .null "choice" entry
              confidence := ofFloat confidence }
      else
        refuse (getOr .null "choice" entry) fun written =>
          ("choice " : PyStr) ++ written ++ (" is not one of " : PyStr) ++
            reprLabels (question.labels.getD []) := by
  unfold answerFrom
  rw [certain, ok_bind]
  simp only [kind]
  rfl

theorem answer_from_score (kind : question.kind = .score) :
    answerFrom question entry =
      (asFloat (getOr .null "score" entry) >>= fun score =>
        score.elim (.error (decisionError "score answer is missing a number")) fun x =>
          .ok { kind := some .score, score := .float x, confidence := ofFloat confidence }) := by
  unfold answerFrom
  rw [certain, ok_bind]
  simp only [kind]
  congr 1
  funext score
  cases score <;> rfl

theorem answer_from_noul (kind : question.kind = .noul) :
    answerFrom question entry =
      (asFloat (getOr .null "noul" entry) >>= fun noul =>
        if noul.any fun x => Number.le (.int 0) (.float x) && Number.le (.float x) (.int 1) then
          .ok { kind := some .noul, noul := ofFloat noul }
        else
          refuse (getOr .null "noul" entry) fun written =>
            ("noul must be a probability in [0,1], got " : PyStr) ++ written) := by
  unfold answerFrom
  rw [certain, ok_bind]
  simp only [kind]
  rfl

end Shapes

/-- What becomes of the answer to a question: it is taken, it is refused, or an exception
of the language escapes. -/
inductive Outcome (question : Question) (entry : List (PyStr × Value)) :
    Except Raised Answer → Prop
  | taken (answer : Answer) (taken : Taken question entry)
      (typed : answer.WellTyped question ↔ Typed question entry) : Outcome question entry (.ok answer)
  | refused (text : PyStr) (refused : Refused question entry) :
      Outcome question entry (.error (decisionError text))
  | escaped (error : Raised) (builtin : error ∈ builtinErrors) (untaken : ¬Taken question entry)
      (unrefused : ¬Refused question entry) : Outcome question entry (.error error)

theorem Taken.not_refused (taken : Taken question entry) : ¬Refused question entry := by
  intro refused
  cases kind : question.kind with
  | choice =>
      have never := (taken.choice kind).symm.trans (refused.choice kind).1
      cases never
  | score =>
      obtain ⟨x, read⟩ := taken.score kind
      cases read.symm.trans (refused.score kind)
  | noul =>
      obtain ⟨x, read, inside⟩ := taken.noul kind
      obtain ⟨⟨noul, read', outside⟩, _⟩ := refused.noul kind
      cases read.symm.trans read'
      exact outside x rfl inside

theorem choice_outcome (certain : asFloat (getOr .null "confidence" entry) = .ok confidence)
    (kind : question.kind = .choice) :
    Outcome question entry (answerFrom question entry) := by
  have no_score : question.kind ≠ .score := by simp [kind]
  have no_noul : question.kind ≠ .noul := by simp [kind]
  rw [answer_from_choice certain kind]
  cases legal : allowed question (getOr .null "choice" entry) with
  | true =>
      rw [if_pos rfl]
      have taken : Taken question entry := ⟨⟨confidence, certain⟩, fun _ => legal,
        fun never => absurd never no_score, fun never => absurd never no_noul⟩
      refine .taken _ taken ⟨fun typed => ?_, fun typed => ?_⟩
      · refine ⟨taken, typed.choice, fun never => absurd never no_score, fun _ other same => ?_⟩
        rw [certain] at same
        cases same
        exact typed.confidence
      · exact ⟨congrArg some kind.symm, typed.label, fun never => absurd never no_score,
          fun never => absurd never no_noul, typed.certainty no_noul confidence certain⟩
  | false =>
      rw [if_neg Bool.false_ne_true]
      unfold refuse
      cases written : (getOr .null "choice" entry).repr with
      | ok text =>
          exact .refused _ ⟨⟨confidence, certain⟩, fun _ => ⟨legal, text, written⟩,
            fun never => absurd never no_score, fun never => absurd never no_noul⟩
      | error error =>
          refine .escaped error (repr_raises written) (fun taken => ?_) fun refused => ?_
          · cases legal.symm.trans (taken.choice kind)
          · obtain ⟨_, text, written'⟩ := refused.choice kind
            cases written.symm.trans written'

theorem score_outcome (certain : asFloat (getOr .null "confidence" entry) = .ok confidence)
    (kind : question.kind = .score) :
    Outcome question entry (answerFrom question entry) := by
  have no_choice : question.kind ≠ .choice := by simp [kind]
  have no_noul : question.kind ≠ .noul := by simp [kind]
  rw [answer_from_score certain kind]
  cases read : asFloat (getOr .null "score" entry) with
  | error error =>
      refine .escaped error (as_float_raises read) (fun taken => ?_) fun refused => ?_
      · obtain ⟨x, read'⟩ := taken.score kind
        cases read.symm.trans read'
      · cases read.symm.trans (refused.score kind)
  | ok score =>
      cases score with
      | none =>
          exact .refused _ ⟨⟨confidence, certain⟩, fun never => absurd never no_choice,
            fun _ => read, fun never => absurd never no_noul⟩
      | some x =>
          have taken : Taken question entry := ⟨⟨confidence, certain⟩,
            fun never => absurd never no_choice, fun _ => ⟨x, read⟩,
            fun never => absurd never no_noul⟩
          refine .taken _ taken ⟨fun typed => ?_, fun typed => ?_⟩
          · refine ⟨taken, fun never => absurd never no_choice, fun _ y same => ?_,
              fun _ other same => ?_⟩
            · rw [read] at same
              cases same
              exact typed.score kind
            · rw [certain] at same
              cases same
              exact typed.confidence
          · exact ⟨congrArg some kind.symm, fun never => absurd never no_choice,
              fun _ => typed.rubric kind x read, fun never => absurd never no_noul,
              typed.certainty no_noul confidence certain⟩

theorem noul_outcome (certain : asFloat (getOr .null "confidence" entry) = .ok confidence)
    (kind : question.kind = .noul) :
    Outcome question entry (answerFrom question entry) := by
  have no_choice : question.kind ≠ .choice := by simp [kind]
  have no_score : question.kind ≠ .score := by simp [kind]
  rw [answer_from_noul certain kind]
  cases read : asFloat (getOr .null "noul" entry) with
  | error error =>
      refine .escaped error (as_float_raises read) (fun taken => ?_) fun refused => ?_
      · obtain ⟨x, read', _⟩ := taken.noul kind
        cases read.symm.trans read'
      · obtain ⟨⟨_, read', _⟩, _⟩ := refused.noul kind
        cases read.symm.trans read'
  | ok noul =>
      rw [ok_bind]
      by_cases inside : ∃ x, noul = some x ∧ (Number.float x).within 0 1
      · obtain ⟨x, rfl, inside⟩ := inside
        rw [Option.any_some, if_pos ((unit_check_iff x).mpr inside)]
        have taken : Taken question entry := ⟨⟨confidence, certain⟩,
          fun never => absurd never no_choice, fun never => absurd never no_score,
          fun _ => ⟨x, read, inside⟩⟩
        refine .taken _ taken (iff_of_true ?_ ?_)
        · exact ⟨congrArg some kind.symm, fun never => absurd never no_choice,
            fun never => absurd never no_score, fun _ => float_within_iff.mpr inside, .inl rfl⟩
        · exact ⟨taken, fun never => absurd never no_choice, fun never => absurd never no_score,
            fun never => absurd kind never⟩
      · have outside : ¬(noul.any fun x =>
            Number.le (.int 0) (.float x) && Number.le (.float x) (.int 1)) = true := by
          cases noul with
          | none => exact Bool.false_ne_true
          | some x => exact fun check => inside ⟨x, rfl, (unit_check_iff x).mp check⟩
        rw [if_neg outside]
        unfold refuse
        cases written : (getOr .null "noul" entry).repr with
        | ok text =>
            refine .refused _ ⟨⟨confidence, certain⟩, fun never => absurd never no_choice,
              fun never => absurd never no_score, fun _ => ⟨⟨noul, read, ?_⟩, text, written⟩⟩
            exact fun x same within => inside ⟨x, same, within⟩
        | error error =>
            refine .escaped error (repr_raises written) (fun taken => ?_) fun refused => ?_
            · obtain ⟨x, read', within⟩ := taken.noul kind
              cases read.symm.trans read'
              exact inside ⟨x, rfl, within⟩
            · obtain ⟨_, text, written'⟩ := refused.noul kind
              cases written.symm.trans written'

theorem answer_from_outcome (question : Question) (entry : List (PyStr × Value)) :
    Outcome question entry (answerFrom question entry) := by
  cases certain : asFloat (getOr .null "confidence" entry) with
  | error error =>
      have raised : answerFrom question entry = .error error := by
        unfold answerFrom
        rw [certain, error_bind]
      rw [raised]
      refine .escaped error (as_float_raises certain) (fun taken => ?_) fun refused => ?_
      · obtain ⟨_, never⟩ := taken.confidence
        cases certain.symm.trans never
      · obtain ⟨_, never⟩ := refused.confidence
        cases certain.symm.trans never
  | ok confidence =>
      cases kind : question.kind with
      | choice => exact choice_outcome certain kind
      | score => exact score_outcome certain kind
      | noul => exact noul_outcome certain kind

section Answers

variable {data : List (PyStr × Value)} {asked : PyStr × Question}

theorem answer_of_taken
    (taken : ∃ entry, (getOr .null asked.1 data).entries? = some entry ∧ Taken asked.2 entry) :
    ∃ answer, answerOf data asked.1 asked.2 = .ok answer := by
  obtain ⟨entry, found, taken⟩ := taken
  unfold answerOf
  rw [found]
  have outcome := answer_from_outcome asked.2 entry
  simp only
  generalize answerFrom asked.2 entry = result at outcome
  cases outcome with
  | taken answer => exact ⟨answer, rfl⟩
  | refused _ refused => exact absurd refused taken.not_refused
  | escaped _ _ untaken => exact absurd taken untaken

theorem answer_of_refused
    (refused : ∀ entry, (getOr .null asked.1 data).entries? = some entry → Refused asked.2 entry) :
    ∃ text, answerOf data asked.1 asked.2 = .error (decisionError text) := by
  unfold answerOf
  cases found : (getOr .null asked.1 data).entries? with
  | none => exact ⟨_, rfl⟩
  | some entry =>
      have own := refused entry found
      have outcome := answer_from_outcome asked.2 entry
      simp only
      generalize answerFrom asked.2 entry = result at outcome
      cases outcome with
      | taken _ taken => exact absurd own taken.not_refused
      | refused text => exact ⟨text, rfl⟩
      | escaped _ _ _ unrefused => exact absurd own unrefused

theorem answer_of_ok (answered : answerOf data asked.1 asked.2 = .ok answer) :
    ∃ entry, (getOr .null asked.1 data).entries? = some entry ∧ Taken asked.2 entry ∧
      (answer.WellTyped asked.2 ↔ Typed asked.2 entry) := by
  unfold answerOf at answered
  cases found : (getOr .null asked.1 data).entries? with
  | none =>
      rw [found] at answered
      cases answered
  | some entry =>
      rw [found] at answered
      have outcome := answer_from_outcome asked.2 entry
      simp only at answered
      rw [answered] at outcome
      cases outcome with
      | taken _ taken typed => exact ⟨entry, rfl, taken, typed⟩

theorem answer_of_declared (raised : answerOf data asked.1 asked.2 = .error error)
    (declared : error.isA "DecisionError" = true) :
    ∀ entry, (getOr .null asked.1 data).entries? = some entry → Refused asked.2 entry := by
  intro entry found
  unfold answerOf at raised
  rw [found] at raised
  have outcome := answer_from_outcome asked.2 entry
  simp only at raised
  rw [raised] at outcome
  cases outcome with
  | refused _ refused => exact refused
  | escaped _ builtin =>
      rw [builtin_is_no_decision builtin] at declared
      cases declared

/-- The loop over the questions keeps the promise exactly where the answers are sound. -/
theorem answers_sound_iff (data : List (PyStr × Value)) (questions : Questions) :
    Parses questions (answerAll (answerOf data) questions) ↔ SoundAnswers data questions := by
  have refusal : (∃ before asked after, questions.entries = before ++ asked :: after ∧
      (∀ earlier ∈ before, ∃ entry,
        (getOr .null earlier.1 data).entries? = some entry ∧ Taken earlier.2 entry) ∧
      ∀ entry, (getOr .null asked.1 data).entries? = some entry → Refused asked.2 entry) →
      ∃ text, answerAll (answerOf data) questions = .error (decisionError text) := by
    rintro ⟨before, asked, after, split, taken, refused⟩
    obtain ⟨text, raised⟩ := answer_of_refused refused
    exact ⟨text, answer_all_raises_iff.mpr ⟨before, asked, after, split,
      fun earlier member => answer_of_taken (taken earlier member), raised⟩⟩
  unfold SoundAnswers
  cases ended : answerAll (answerOf data) questions with
  | error error =>
      obtain ⟨before, asked, after, split, past, raised⟩ := answer_all_raises_iff.mp ended
      rw [parses_error_iff]
      constructor
      · intro declared
        refine .inl ⟨before, asked, after, split, fun earlier member => ?_,
          answer_of_declared raised declared⟩
        obtain ⟨answer, answered⟩ := past earlier member
        obtain ⟨entry, found, taken, _⟩ := answer_of_ok answered
        exact ⟨entry, found, taken⟩
      · rintro (refused | all)
        · obtain ⟨text, same⟩ := refusal refused
          rw [ended] at same
          cases same
          exact decision_error_is_decision text
        · have member : asked ∈ questions.entries := by
            rw [split]
            exact List.mem_append_right before List.mem_cons_self
          obtain ⟨entry, found, typed⟩ := all asked member
          obtain ⟨answer, never⟩ := answer_of_taken ⟨entry, found, typed.toTaken⟩
          cases raised.symm.trans never
  | ok decision =>
      obtain ⟨keys, answers⟩ := answer_all_returns ended
      rw [parses_ok_iff]
      constructor
      · intro typed
        refine .inr fun asked member => ?_
        obtain ⟨answer, answered, given⟩ := answers asked.1 asked.2 member
        obtain ⟨answer', given', own⟩ := typed.typed asked.1 asked.2 member
        rw [given] at given'
        cases given'
        obtain ⟨entry, found, _, same⟩ := answer_of_ok answered
        exact ⟨entry, found, same.mp own⟩
      · rintro (refused | all)
        · obtain ⟨text, never⟩ := refusal refused
          cases ended.symm.trans never
        · refine ⟨keys, fun questionId question member => ?_⟩
          obtain ⟨answer, answered, given⟩ := answers questionId question member
          obtain ⟨entry, found, _, same⟩ :=
            @answer_of_ok answer _ _ data (questionId, question) answered
          obtain ⟨entry', found', typed⟩ := all (questionId, question) member
          rw [found] at found'
          cases found'
          exact ⟨answer, given, same.mpr typed⟩

end Answers

section Content

variable {payload : Value} {questions : Questions} {content : PyStr}

theorem sound_of_content (present : contentOf payload = some (.str content)) :
    Sound payload questions ↔
      loadsText (stripFence content) ≠ .error valueError ∧
        loadsText (stripFence content) ≠ .error recursionError ∧
        ∀ data, loadsText (stripFence content) = .ok (.dict data) → SoundAnswers data questions := by
  constructor
  · intro sound
    exact ⟨sound.short content present, sound.shallow content present,
      fun data => sound.answers content data present⟩
  · rintro ⟨short, shallow, answers⟩
    have same : ∀ other, contentOf payload = some (.str other) → other = content := by
      intro other found
      rw [present] at found
      cases found
      rfl
    refine ⟨fun never => ?_, fun other found => ?_, fun other found => ?_,
      fun other data found => ?_⟩
    · cases present.symm.trans never
    · rw [same other found]
      exact short
    · rw [same other found]
      exact shallow
    · rw [same other found]
      exact answers data

theorem sound_of_no_content (missing : ∀ content, contentOf payload ≠ some (.str content)) :
    Sound payload questions ↔
      (contentOf payload = none → ∃ written, payload.text = .ok written) := by
  constructor
  · exact fun sound => sound.written
  · exact fun written => ⟨written, fun content never => absurd never (missing content),
      fun content never => absurd never (missing content),
      fun content data never => absurd never (missing content)⟩

/-- Of what `json.loads` raises only what is no valid JSON becomes a `DecisionError`. -/
theorem parses_load_error_iff (raised : loadsText (stripFence content) = .error error)
    {next : Value → Except Raised Decision} :
    Parses questions (load content >>= next) ↔ error = jsonDecodeError := by
  unfold load
  rw [raised, error_bind, parses_error_iff]
  have scan := loads_text_raises raised
  by_cases invalid : error = jsonDecodeError
  · rw [if_pos ((is_json_decode_error_iff (.inr scan)).mpr invalid)]
    exact iff_of_true (decision_error_is_decision _) invalid
  · rw [if_neg (mt (is_json_decode_error_iff (.inr scan)).mp invalid)]
    apply iff_of_false _ invalid
    rcases scan with same | rfl | rfl
    · exact absurd same invalid
    · decide
    · decide

theorem load_ok {data : Value} (loaded : loadsText (stripFence content) = .ok data) :
    load content = .ok data := by
  unfold load
  rw [loaded]

end Content

theorem parse_sound_iff (payload : Value) (questions : Questions) :
    Parses questions (parse payload questions) ↔ Sound payload questions := by
  unfold parse
  cases present : contentOf payload with
  | none =>
      rw [sound_of_no_content fun content => by simp [present]]
      simp only
      rw [parses_named_iff fun error => text_raises, forall_prop_of_true present]
  | some content =>
      simp only
      cases string : content.str? with
      | none =>
          have missing : ∀ text, contentOf payload ≠ some (.str text) := by
            intro text found
            rw [present] at found
            cases found
            cases string
          apply iff_of_true (parses_error_iff.mpr (decision_error_is_decision _))
          rw [sound_of_no_content missing]
          intro never
          cases present.symm.trans never
      | some text =>
          rw [str_eq_some_iff.mp string] at present
          rw [sound_of_content present]
          simp only
          cases loaded : loadsText (stripFence text) with
          | error error =>
              rw [parses_load_error_iff loaded]
              rcases loads_text_raises loaded with rfl | rfl | rfl
              · apply iff_of_true rfl
                refine ⟨fun never => ?_, fun never => ?_, fun data never => ?_⟩
                · exact absurd (Except.error.inj never) (by decide)
                · exact absurd (Except.error.inj never) (by decide)
                · cases never
              · exact iff_of_false (by decide) fun sound => sound.1 rfl
              · exact iff_of_false (by decide) fun sound => sound.2.1 rfl
          | ok data =>
              rw [load_ok loaded, ok_bind]
              cases object : data.entries? with
              | none =>
                  apply iff_of_true (parses_error_iff.mpr (decision_error_is_decision _))
                  refine ⟨fun never => ?_, fun never => ?_, fun fields same => ?_⟩
                  · cases never
                  · cases never
                  · cases same
                    cases object
              | some fields =>
                  simp only
                  rw [answers_sound_iff, entries_eq_some_iff.mp object]
                  simp

end OpenAI

end OpenAI

/-- Each parser keeps the promise exactly where its payload is sound. -/
theorem parsers_typed_iff [Unicode] [Interpreter] (payload : Value) (questions : Questions) :
    (Parses questions (Jev.parse payload questions) ↔ Jev.Sound payload questions) ∧
      (Parses questions (OpenAI.parse payload questions) ↔ OpenAI.Sound payload questions) :=
  ⟨Jev.parse_sound_iff payload questions, OpenAI.parse_sound_iff payload questions⟩

def twoLabels : Questions :=
  ⟨[("q", ⟨.choice, "which?", some (.labels ⟨[("a", "one"), ("b", "another")], by decide⟩)⟩)],
    List.nodup_singleton _⟩

def completion (content : PyStr) : Value :=
  .dict [("choices", .list [.dict [("message", .dict [("content", .str content)])]])]

theorem ill_typed_answers_parsed :
    let _ := asciiTables
    let _ : Interpreter := ⟨fun _ => none, 1000, 1000⟩
    ¬Parses twoLabels
        (Jev.parse (.dict [("answers", .dict [("q", .dict [("choice", .str "c")])])]) twoLabels) ∧
      ¬Parses twoLabels
        (OpenAI.parse (completion "\x7b\"q\": \x7b\"choice\": \"a\", \"confidence\": 2\x7d\x7d")
          twoLabels) := by
  intro _ _
  have only : ∀ asked ∈ twoLabels.entries, asked = twoLabels.entries.head (List.cons_ne_nil _ _) :=
    fun asked member => List.mem_singleton.mp member
  constructor
  · rw [Jev.parse_sound_iff]
    rintro ⟨fields, same, sound⟩
    cases same
    rcases sound with ⟨never, _⟩ | ⟨raw, found, ⟨asked, member, missing⟩ | typed⟩
    · cases never
    · cases found
      rw [only asked member] at missing
      cases missing
    · cases found
      obtain ⟨entry, given, typed⟩ := typed _ List.mem_cons_self
      cases given
      obtain ⟨label, same, member⟩ := typed.choice rfl
      cases same
      exact absurd member (by decide)
  · rw [OpenAI.parse_sound_iff, OpenAI.sound_of_content rfl]
    rintro ⟨_, _, sound⟩
    have read : loadsText (OpenAI.stripFence
        "\x7b\"q\": \x7b\"choice\": \"a\", \"confidence\": 2\x7d\x7d") =
        .ok (.dict [("q", .dict [("choice", .str "a"), ("confidence", .int 2)])]) := by
      with_unfolding_all rfl
    rcases sound _ read with ⟨before, asked, after, split, _, refused⟩ | typed
    · have member : asked ∈ twoLabels.entries := by
        rw [split]
        exact List.mem_append_right before List.mem_cons_self
      rw [only asked member] at refused
      have never := ((refused _ rfl).choice rfl).1
      exact absurd never (by decide)
    · obtain ⟨entry, given, typed⟩ := typed _ List.mem_cons_self
      cases given
      have certain : OpenAI.asFloat (.int 2) = .ok (some (Float.ofInt 2)) := by
        have finite : (Float.ofInt 2).isInf = false := by decide
        simp only [OpenAI.asFloat, Number.toFloat, finite]
        rfl
      rcases typed.certainty (by decide) _ certain with never | inside
      · cases never
      · obtain ⟨q, placed, _, below⟩ := float_within_iff.mp inside
        have two : placeOf (Float.ofInt 2) = some (.exactly 2) := by decide +kernel
        cases placed.symm.trans two
        exact absurd below (by decide)

end DearAgent.Deciders
