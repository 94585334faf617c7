import DearAgent.Executor.Review
import DearAgent.Gitplane.Plane

/-!
# The reviewer line of a pull request

The body of a draft pull request says what the reviewer said of the change. An execution is told
beside the git of its worktree: a verdict that approves is one on the content that is committed. The
task id and the summary of the verdict go into the body as they are, and either may hold a line that
reads like the reviewer line.
-/

namespace DearAgent.ReviewerLine

open DearAgent.Lib.Text DearAgent.Lib.Effects DearAgent.Lib.Stories DearAgent.Queue
open DearAgent.Gitplane DearAgent.TaskExecutor
open DearAgent.Review (Story)

set_option autoImplicit false

/-!
## What a body says
-/

def isLineEnd (c : Char) : Bool := c = '\n' || c = '\r'

def carries (mark text : Str) : Bool := (splitAt isLineEnd text).any mark.isPrefixOf

def carriesLater (mark text : Str) : Bool := (splitAt isLineEnd text).tail.any mark.isPrefixOf

def reviewerMark : Str := "Reviewer: "

def approvedMark : Str := "Reviewer: approved"

def revisionMark : Str := "Reviewer: requested a revision"

def marks : List Str := [reviewerMark, approvedMark, revisionMark]

/-- `Reviewer: ...`, the line for a verdict. -/
def verdictLine (verdict : ReviewVerdict) : Str :=
  "Reviewer: ".toList ++
    (if verdict.approved then "approved".toList else "requested a revision".toList) ++ ['.']

section Bodies

variable {mark : Str}

theorem carries_join {pieces : List Str} (some_piece : pieces ≠ []) :
    carries mark (join "\n" pieces) = pieces.any (carries mark) := by
  unfold carries
  change (splitAt isLineEnd (join ['\n'] pieces)).any _ = _
  rw [split_at_join_flat isLineEnd '\n' rfl some_piece, List.any_flatMap]

theorem prefix_concat_eq {last : Char} (inside : last ∉ mark) (piece : Str) :
    mark.isPrefixOf (piece ++ [last]) = mark.isPrefixOf piece := by
  rw [Bool.eq_iff_iff, List.isPrefixOf_iff_prefix, List.isPrefixOf_iff_prefix,
    List.prefix_concat_iff, or_iff_right]
  rintro rfl
  exact inside (List.mem_append_right _ (List.mem_singleton_self last))

/-- A text between a front that begins differently and a last character: only its later lines can
begin so. -/
theorem carries_enclosed {first last : Char} {front : Str} (other : mark.head? ≠ some first)
    (some_mark : mark ≠ []) (kept : ∀ c ∈ first :: front, isLineEnd c = false)
    (ends : isLineEnd last = false) (outside : last ∉ mark) (text : Str) :
    carries mark ((first :: front) ++ text ++ [last]) = carriesLater mark text := by
  obtain ⟨pieces, piece, whole, longer⟩ := split_at_concat isLineEnd ends text
  obtain ⟨head, rest, same, enclosed⟩ := split_at_front isLineEnd kept (text ++ [last])
  have starts : mark.isPrefixOf (first :: front ++ head) = false := by
    cases mark with
    | nil => exact absurd rfl some_mark
    | cons c more =>
        have different : c ≠ first := fun equal => other (congrArg some equal)
        simp [List.isPrefixOf, different]
  unfold carries carriesLater
  rw [List.append_assoc, enclosed, List.any_cons, starts, Bool.false_or, whole]
  rw [longer] at same
  cases pieces with
  | nil =>
      obtain ⟨_, rfl⟩ := List.cons.inj same
      rfl
  | cons next pieces =>
      rw [List.cons_append] at same
      obtain ⟨_, rfl⟩ := List.cons.inj same
      change (pieces ++ [piece ++ [last]]).any _ = (pieces ++ [piece]).any _
      rw [List.any_append, List.any_append, List.any_cons, List.any_cons, prefix_concat_eq outside]

/-- What the marks are: none begins like a line of the body but its own, or holds a quoting character. -/
theorem marks_plain (known : mark ∈ marks) :
    mark.head? = some 'R' ∧ '\x60' ∉ mark ∧ '_' ∉ mark ∧ carries mark [] = false ∧
      carries mark "Opened by an agent. A human reviews and lands it; agents never write \x60main\x60." =
        false := by
  have plain : (marks.all fun mark => mark.head? = some 'R' && !mark.contains '\x60' &&
      !mark.contains '_' && !carries mark [] && !carries mark
        "Opened by an agent. A human reviews and lands it; agents never write \x60main\x60.") = true := by
    decide
  have own := List.all_eq_true.mp plain mark known
  simpa [-String.reduceToList, and_assoc] using own

theorem carries_task (known : mark ∈ marks) (taskId : Str) :
    carries mark ("Task: \x60".toList ++ taskId ++ "\x60".toList) = carriesLater mark taskId := by
  obtain ⟨first, quote, _, _, _⟩ := marks_plain known
  have some_mark : mark ≠ [] := by
    rintro rfl
    cases first
  have label : ("Task: \x60".toList.all fun c => !isLineEnd c) = true := by decide
  exact @carries_enclosed mark 'T' '\x60' "ask: \x60".toList (by rw [first]; decide) some_mark
    (fun c member => by simpa using List.all_eq_true.mp label c member) rfl quote taskId

theorem carries_summary (known : mark ∈ marks) (summary : Str) :
    carries mark ('_' :: summary ++ ['_']) = carriesLater mark summary := by
  obtain ⟨first, _, emphasis, _, _⟩ := marks_plain known
  have some_mark : mark ≠ [] := by
    rintro rfl
    cases first
  exact @carries_enclosed mark '_' '_' [] (by rw [first]; decide) some_mark
    (List.forall_mem_singleton.mpr rfl) rfl emphasis summary

/-- A line of the body begins so in the task id, in the reviewer line, or in the summary. -/
theorem carries_body (known : mark ∈ marks) (task : Task) (review : Option ReviewVerdict) :
    carries mark (prBody task review) = (carriesLater mark task.id || review.any fun verdict =>
      carries mark (verdictLine verdict) || carriesLater mark verdict.summary) := by
  obtain ⟨_, _, _, blank, opened⟩ := marks_plain known
  unfold prBody
  rw [carries_join (List.append_ne_nil_of_left_ne_nil (List.cons_ne_nil _ _) _), List.any_append, List.any_cons, List.any_cons, List.any_cons, blank,
    opened, carries_task known]
  simp only [List.any_nil, Bool.or_false]
  cases review with
  | none => simp only [List.any_nil, Option.any_none]
  | some verdict =>
      simp only [List.any_append, List.any_cons, blank, List.any_nil, Bool.or_false, Bool.false_or,
        Option.any_some]
      unfold verdictLine
      by_cases silent : verdict.summary.isEmpty
      · have later : carriesLater mark verdict.summary = false := by
          rw [List.isEmpty_iff.mp silent]
          rfl
        rw [if_pos silent, later, List.any_nil]
      · rw [if_neg silent, List.any_cons, carries_summary known, List.any_nil, Bool.or_false]

theorem carries_verdict_line (verdict : ReviewVerdict) :
    carries reviewerMark (verdictLine verdict) = true ∧
      carries approvedMark (verdictLine verdict) = verdict.approved ∧
      carries revisionMark (verdictLine verdict) = !verdict.approved := by
  unfold verdictLine
  cases verdict.approved <;> decide

theorem carries_reviewer (known : mark ∈ marks) {text : Str} (carried : carries mark text = true) :
    carries reviewerMark text = true := by
  have begins : (marks.all fun mark => reviewerMark.isPrefixOf mark) = true := by decide
  have start := List.isPrefixOf_iff_prefix.mp (List.all_eq_true.mp begins mark known)
  obtain ⟨line, member, starts⟩ := List.any_eq_true.mp carried
  apply List.any_eq_true.mpr
  exact ⟨line, member, List.isPrefixOf_iff_prefix.mpr (start.trans (List.isPrefixOf_iff_prefix.mp starts))⟩

end Bodies

/-!
## What the line is to mean
-/

section Statements

variable {σ G T : Type}

def verdictOf : Exchange ports → Option ReviewVerdict
  | ⟨.review _ _, .ok verdict⟩ => some verdict
  | _ => none

def lastVerdict (told : Story σ) : Option ReviewVerdict :=
  (told.filterMap fun item => verdictOf item.event).getLast?

variable [Unicode]

/-- Ports that answer for the git of the worktrees. The reviewer and the event log leave it alone;
the harness and the verify command may do anything to it. -/
structure Works (answer : Answer ports σ) (git : Git G T) (plane : GitPlane)
    (checkout : σ → Worktree → G) : Prop where
  diffs : ∀ state worktree baseBranch,
    ((answer (.diff worktree baseBranch) state).1,
      checkout (answer (.diff worktree baseBranch) state).2 worktree) =
        plane.diff git worktree.branch baseBranch 20000 (checkout state worktree)
  commits : ∀ state worktree message,
    ((answer (.commitAll worktree message) state).1,
      checkout (answer (.commitAll worktree message) state).2 worktree) =
        plane.commitAll git worktree.branch message (checkout state worktree)
  reviews : ∀ state diff instructions,
    checkout (answer (.review diff instructions) state).2 = checkout state
  records : ∀ state taskId kind data,
    checkout (answer (.record taskId kind data) state).2 = checkout state

omit [Unicode]

variable (git : Git G T) (checkout : σ → Worktree → G) (executor : TaskExecutor) (task : Task)

/-- The last verdict approves the diff of the content that was committed then. -/
def ApprovedCommit (front : Story σ) (worktree : Worktree) (baseBranch : Str) : Prop :=
  ∃ early diffed reviewed between committed late diff instructions verdict message revision,
    front = early ++ diffed :: reviewed :: (between ++ committed :: late) ∧
    diffed.event = ⟨.diff worktree baseBranch, .ok diff⟩ ∧
    reviewed.event = ⟨.review diff instructions, .ok verdict⟩ ∧
    lastVerdict front = some verdict ∧ verdict.approved = true ∧
    committed.event = ⟨.commitAll worktree message, .ok revision⟩ ∧
    git.head (checkout committed.after worktree) = git.files (checkout diffed.before worktree) ∧
    git.Shows baseBranch 20000 (git.head (checkout committed.after worktree)) diff

/-- What the body says of the reviewer is true of the story before it. -/
structure LineTrue (front : Story σ) (worktree : Worktree) (baseBranch body : Str) : Prop where
  approved : carries approvedMark body = true → ApprovedCommit git checkout front worktree baseBranch
  revision : carries revisionMark body = true →
    ∃ verdict, lastVerdict front = some verdict ∧ verdict.approved = false
  unreviewed : executor.reviewer = false ∨ lastVerdict front = none →
    carries reviewerMark body = false

/-- This holds wherever a pull request is opened, of the story before it. -/
def AtOpenings (holds : Story σ → Worktree → Str → Str → Prop) (told : Story σ) : Prop :=
  ∀ front opening rest worktree baseBranch title body, told = front ++ opening :: rest →
    opening.event.1 = .openDraftPr worktree baseBranch title body → holds front worktree baseBranch body

def LinesTrue : Story σ → Prop := AtOpenings (LineTrue git checkout executor)

/-- Neither the task id nor the summary of the verdict holds a line that speaks against it. -/
def Unforged : Option ReviewVerdict → Prop
  | none => carriesLater reviewerMark task.id = false
  | some verdict => ∀ text ∈ [task.id, verdict.summary],
      carriesLater (if verdict.approved then revisionMark else approvedMark) text = false

end Statements

/-!
## What an execution tells
-/

section Telling

variable {σ G T : Type} {answer : Answer ports σ} {git : Git G T} {plane : GitPlane}
  {checkout : σ → Worktree → G} {executor : TaskExecutor} {task : Task} {worktree : Worktree}
  {baseBranch : Str} {state : σ × Story σ}

theorem last_verdict_concat (told : Story σ) (item : Moment ports σ) :
    lastVerdict (told ++ [item]) = (verdictOf item.event).or (lastVerdict told) := by
  unfold lastVerdict
  rw [List.filterMap_append, List.getLast?_append]
  cases found : verdictOf item.event <;> simp [found]

/-- What is known where a pull request is opened. -/
structure Ready (git : Git G T) (checkout : σ → Worktree → G) (executor : TaskExecutor) (task : Task)
    (front : Story σ) (worktree : Worktree) (baseBranch body : Str) : Prop where
  body : body = prBody task (lastVerdict front)
  approved : ∀ verdict, lastVerdict front = some verdict → verdict.approved = true →
    ApprovedCommit git checkout front worktree baseBranch
  unreviewed : executor.reviewer = false → lastVerdict front = none

def mayOpen (git : Git G T) (checkout : σ → Worktree → G) (executor : TaskExecutor) (task : Task)
    (state : σ × Story σ) : Request → Prop
  | .openDraftPr worktree baseBranch _ body =>
      Ready git checkout executor task state.2 worktree baseBranch body
  | _ => True

/-- Neither a review nor the opening of a pull request. -/
def Unjudging : Request → Prop
  | .review _ _ | .openDraftPr _ _ _ _ => False
  | _ => True

theorem unjudging_permitted {request : Request} (asked : Unjudging request) :
    mayOpen git checkout executor task state request := by
  cases request <;> trivial

theorem unjudging_verdict {request : Request} (asked : Unjudging request)
    {reply : Except Exn request.Result} : verdictOf (⟨request, reply⟩ : Exchange ports) = none := by
  cases request <;> first | rfl | exact absurd asked id

theorem verdict_kept {request : Request} {reply : Except Exn request.Result} {after : σ × Story σ}
    (answered : telling answer request state reply after) (asked : Unjudging request) :
    lastVerdict after.2 = lastVerdict state.2 := by
  obtain ⟨_, rfl⟩ := answered
  rw [last_verdict_concat]
  unfold moment
  rw [unjudging_verdict asked, Option.none_or]

theorem unjudging_meets {α : Type} {program : Code α} (asks : Asks Unjudging program) :
    Meets (telling answer) (mayOpen git checkout executor task) program state fun after _ =>
      lastVerdict after.2 = lastVerdict state.2 := by
  apply asks.meets (fun after : σ × Story σ => lastVerdict after.2 = lastVerdict state.2)
  · exact fun _ _ _ asked => unjudging_permitted asked
  · intro before request reply after same asked answered
    exact (verdict_kept answered asked).trans same
  · rfl

variable [Unicode]

/-- The verdict was returned for the diff, and the worktree is as the diff left it. -/
def Approving (git : Git G T) (plane : GitPlane) (checkout : σ → Worktree → G) (worktree : Worktree)
    (baseBranch : Str) (verdict : ReviewVerdict) (state : σ × Story σ) : Prop :=
  ∃ early diffed reviewed late diff instructions,
    state.2 = early ++ diffed :: reviewed :: late ∧
    diffed.event = ⟨.diff worktree baseBranch, .ok diff⟩ ∧
    reviewed.event = ⟨.review diff instructions, .ok verdict⟩ ∧
    plane.diff git worktree.branch baseBranch 20000 (checkout diffed.before worktree) =
      (.ok diff, checkout state.1 worktree)

structure Settled (git : Git G T) (plane : GitPlane) (checkout : σ → Worktree → G)
    (executor : TaskExecutor) (worktree : Worktree) (baseBranch : Str)
    (review : Option ReviewVerdict) (state : σ × Story σ) : Prop where
  verdict : lastVerdict state.2 = review
  approving : ∀ verdict, review = some verdict → verdict.approved = true →
    Approving git plane checkout worktree baseBranch verdict state
  unreviewed : executor.reviewer = false → review = none

def Recording : Request → Prop
  | .record _ _ _ => True
  | _ => False

theorem settled_emit (works : Works answer git plane checkout) {review : Option ReviewVerdict}
    (settled : Settled git plane checkout executor worktree baseBranch review state)
    (events : Bool) (taskId kind : Str) (data : EventData) :
    Meets (telling answer) (mayOpen git checkout executor task) (emit events taskId kind data) state
      fun after _ => Settled git plane checkout executor worktree baseBranch review after := by
  have asks : Asks Recording (emit events taskId kind data) :=
    asks_emit (fun _ _ _ => trivial) events taskId kind data
  apply asks.meets _ _ _ settled
  · intro before request _ asked
    cases request <;> trivial
  · intro before request reply after held asked answered
    cases request with
    | record taskId kind data =>
        constructor
        · exact (verdict_kept answered trivial).trans
            held.verdict
        · intro verdict returned approved
          obtain ⟨early, diffed, reviewed, late, diff, instructions, told, showed, came, same⟩ :=
            held.approving verdict returned approved
          obtain ⟨_, rfl⟩ := answered
          refine ⟨early, diffed, reviewed, late ++ [moment answer (.record taskId kind data) before.1],
            diff, instructions, ?_, showed, came, ?_⟩
          · rw [told]
            simp
          · rw [same, works.records]
        · exact held.unreviewed
    | _ => exact absurd asked id

def Judged (git : Git G T) (plane : GitPlane) (checkout : σ → Worktree → G) (worktree : Worktree)
    (baseBranch : Str) (told : Story σ) (reviewed : Except Exn ReviewVerdict) (after : σ × Story σ) :
    Prop :=
  lastVerdict after.2 = reviewed.toOption.or (lastVerdict told) ∧
    ∀ verdict, reviewed = .ok verdict →
      Approving git plane checkout worktree baseBranch verdict after

theorem review_diff_judged (works : Works answer git plane checkout) (spec : TaskSpec) :
    Meets (telling answer) (mayOpen git checkout executor task) (reviewDiff spec worktree) state
      fun after outcome => ∀ reviewed, outcome = .ok reviewed →
        Judged git plane checkout worktree spec.baseBranch state.2 reviewed after := by
  apply meets_attempt_bind trivial
  · intro diff middle answered
    have kept := verdict_kept answered trivial
    obtain ⟨replied, rfl⟩ := answered
    have diffed := works.diffs state.1 worktree spec.baseBranch
    rw [← replied] at diffed
    simp only
    rw [← bind_return (attempt Exn.isException _)]
    apply meets_attempt_bind trivial
    · rintro verdict after ⟨returned, rfl⟩ reviewed came
      cases came
      have judged : verdictOf (moment answer (.review diff spec.instructions)
          (answer (.diff worktree spec.baseBranch) state.1).2).event = some verdict := by
        unfold moment
        rw [← returned]
        rfl
      constructor
      · rw [last_verdict_concat, judged]
        rfl
      · intro other same
        cases same
        refine ⟨state.2, moment answer (.diff worktree spec.baseBranch) state.1, moment answer _ _, [],
          diff, spec.instructions, List.append_assoc .., ?_, ?_, ?_⟩
        · unfold moment
          rw [← replied]
        · unfold moment
          rw [← returned]
        · rw [works.reviews]
          exact diffed.symm
    · rintro error after ⟨raised, rfl⟩ _ reviewed came
      cases came
      have silent : verdictOf (moment answer (.review diff spec.instructions)
          (answer (.diff worktree spec.baseBranch) state.1).2).event = none := by
        unfold moment
        rw [← raised]
        rfl
      constructor
      · rw [last_verdict_concat, silent, Option.none_or, kept]
        rfl
      · intro verdict never
        cases never
    · intro error after _ _ reviewed came
      cases came
  · intro error after answered _ reviewed came
    cases came
    refine ⟨verdict_kept answered trivial, ?_⟩
    intro verdict never
    cases never
  · intro error after _ _ reviewed came
    cases came

/-- Where a debate stands before a review: the verdicts so far asked for revisions. -/
structure Pending (baseBranch : Str) (current : Debated) (state : σ × Story σ) : Prop where
  verdict : lastVerdict state.2 = current.review
  revising : ∀ verdict, current.review = some verdict → verdict.approved = false
  base : current.spec.baseBranch = baseBranch

def EndsSettled (git : Git G T) (plane : GitPlane) (checkout : σ → Worktree → G)
    (executor : TaskExecutor) (worktree : Worktree) (baseBranch : Str) (after : σ × Story σ)
    (outcome : Except Exn Debated) : Prop :=
  ∀ debated, outcome = .ok debated → debated.spec.baseBranch = baseBranch ∧
    Settled git plane checkout executor worktree baseBranch debated.review after

theorem Pending.settled {current : Debated} (pending : Pending baseBranch current state)
    (there : executor.reviewer = true) :
    Settled git plane checkout executor worktree baseBranch current.review state where
  verdict := pending.verdict
  approving verdict returned approved := by
    rw [pending.revising verdict returned] at approved
    cases approved
  unreviewed absent := by
    rw [there] at absent
    cases absent

theorem debate_round_settles (works : Works answer git plane checkout) (current : Debated)
    (there : executor.reviewer = true) (pending : Pending baseBranch current state)
    (revise : ReviewVerdict → Code Debated)
    (revised : ∀ verdict after, verdict.approved = false →
      lastVerdict after.2 = some verdict →
      Meets (telling answer) (mayOpen git checkout executor task) (revise verdict) after
        (EndsSettled git plane checkout executor worktree baseBranch)) :
    Meets (telling answer) (mayOpen git checkout executor task)
      (executor.debateRound task worktree current revise) state
      (EndsSettled git plane checkout executor worktree baseBranch) := by
  apply (review_diff_judged works current.spec).seq
  · intro middle reviewed judged
    obtain ⟨last, approving⟩ := judged reviewed rfl
    rw [pending.base] at approving
    cases reviewed with
    | error error =>
        have same : Pending baseBranch current middle :=
          ⟨last.trans pending.verdict, pending.revising, pending.base⟩
        apply (settled_emit works (same.settled there) _ _ _ _).seq
        · rintro after _ settled debated returned
          cases returned
          exact ⟨pending.base, settled⟩
        · intro after error _ debated returned
          cases returned
    | ok verdict =>
        have settled : Settled git plane checkout executor worktree baseBranch (some verdict) middle := by
          refine ⟨last, fun other same _ => ?_, fun absent => ?_⟩
          · cases same
            exact approving _ rfl
          · rw [there] at absent
            cases absent
        apply (settled_emit works settled _ _ _ _).seq
        · intro after _ settled
          by_cases approved : verdict.approved
          · rw [if_pos approved]
            rintro debated returned
            cases returned
            exact ⟨pending.base, settled⟩
          · rw [if_neg approved]
            exact revised verdict after (Bool.of_not_eq_true approved) settled.verdict
        · intro after error _ debated returned
          cases returned
  · intro after error _ debated returned
    cases returned

omit [Unicode] in
theorem asks_run_harness (spec : TaskSpec) : Asks Unjudging (runHarness task spec worktree) := by
  apply asks_bind (asks_attempt trivial)
  intro outcome
  cases outcome <;> trivial

omit [Unicode] in
theorem asks_verify (spec : TaskSpec) (verifier : Option CommandVerifier) :
    Asks Unjudging (executor.verify task spec worktree verifier) := by
  apply (verify_gate_lets executor task spec worktree verifier).asks.mono
  intro request asked
  cases request <;> trivial

theorem revise_run_settles (current : Debated) (base : current.spec.baseBranch = baseBranch)
    (there : executor.reviewer = true) (verifier : Option CommandVerifier) (verdict : ReviewVerdict)
    (revising : verdict.approved = false) (last : lastVerdict state.2 = some verdict)
    (again : Debated → Code Debated)
    (goesOn : ∀ next after, Pending baseBranch next after →
      Meets (telling answer) (mayOpen git checkout executor task) (again next) after
        (EndsSettled git plane checkout executor worktree baseBranch)) :
    Meets (telling answer) (mayOpen git checkout executor task)
      (executor.reviseRun task worktree verifier current verdict again) state
      (EndsSettled git plane checkout executor worktree baseBranch) := by
  have pending : ∀ (next : Debated) (after : σ × Story σ), next.review = some verdict →
      next.spec.baseBranch = baseBranch → lastVerdict after.2 = lastVerdict state.2 →
      Pending baseBranch next after := by
    intro next after asked own kept
    refine ⟨(kept.trans last).trans asked.symm, fun other same => ?_, own⟩
    cases asked.symm.trans same
    exact revising
  apply (unjudging_meets (asks_run_harness _)).seq
  · intro middle nextRun kept
    by_cases failed : !nextRun.ok
    · rw [if_pos failed]
      rintro debated returned
      cases returned
      exact ⟨base, (pending { current with review := some verdict } middle rfl base kept).settled there⟩
    · rw [if_neg failed]
      apply (unjudging_meets (asks_verify _ verifier)).seq
      · intro after nextFailure same
        have next := pending ⟨nextRun, { current.spec with
          instructions := reviseInstructions current.spec.instructions verdict.notes }, nextFailure,
          some verdict⟩ after rfl base (same.trans kept)
        by_cases rejected : nextFailure.isSome
        · simp only
          rw [if_pos rejected]
          rintro debated returned
          cases returned
          exact ⟨base, next.settled there⟩
        · simp only
          rw [if_neg rejected]
          exact goesOn _ after next
      · intro after error _ debated returned
        cases returned
  · intro after error _ debated returned
    cases returned

theorem debate_from_settles (works : Works answer git plane checkout)
    (there : executor.reviewer = true) (verifier : Option CommandVerifier) (remaining : Nat)
    (current : Debated) (pending : Pending baseBranch current state) :
    Meets (telling answer) (mayOpen git checkout executor task)
      (executor.debateFrom task worktree verifier remaining current) state
      (EndsSettled git plane checkout executor worktree baseBranch) := by
  induction remaining generalizing current state with
  | zero =>
      apply debate_round_settles works current there pending
      rintro verdict after revising last debated returned
      cases returned
      have stands : Pending baseBranch { current with review := some verdict } after := by
        refine ⟨last, fun other same => ?_, pending.base⟩
        cases same
        exact revising
      exact ⟨pending.base, stands.settled there⟩
  | succ remaining ih =>
      apply debate_round_settles works current there pending
      intro verdict after revising last
      apply revise_run_settles current pending.base there verifier verdict revising last
      exact fun next after stands => ih next stands

theorem debate_settles (works : Works answer git plane checkout) (spec : TaskSpec) (run : RunResult)
    (verifier : Option CommandVerifier) (unreviewed : lastVerdict state.2 = none) :
    Meets (telling answer) (mayOpen git checkout executor task)
      (executor.debate task spec worktree run none verifier) state
      (EndsSettled git plane checkout executor worktree spec.baseBranch) := by
  unfold debate
  split_ifs with silent
  · rintro debated returned
    cases returned
    refine ⟨rfl, unreviewed, ?_, fun _ => rfl⟩
    intro verdict never
    cases never
  · have there : executor.reviewer = true := by
      cases reviewer : executor.reviewer with
      | true => rfl
      | false => simp [reviewer] at silent
    apply debate_from_settles works there verifier
    refine ⟨unreviewed, ?_, rfl⟩
    intro verdict never
    cases never

omit [Unicode] in
theorem Ready.kept {body : Str} {request : Request} {reply : Except Exn request.Result}
    {after : σ × Story σ}
    (ready : Ready git checkout executor task state.2 worktree baseBranch body)
    (answered : telling answer request state reply after) (asked : Unjudging request) :
    Ready git checkout executor task after.2 worktree baseBranch body := by
  have same := verdict_kept answered asked
  constructor
  · rw [same]
    exact ready.body
  · intro verdict returned approves
    obtain ⟨early, diffed, reviewed, between, committed, late, diff, instructions, verdict, message,
      revision, told, showed, came, last, approved, commits, head, shows⟩ :=
      ready.approved verdict (same.symm.trans returned) approves
    refine ⟨early, diffed, reviewed, between, committed, late ++ [moment answer request state.1], diff,
      instructions, verdict, message, revision, ?_, showed, came, same.trans last, approved, commits,
      head, shows⟩
    obtain ⟨_, rfl⟩ := answered
    rw [told]
    simp
  · rw [same]
    exact ready.unreviewed

theorem commit_ready (works : Works answer git plane checkout) {review : Option ReviewVerdict}
    (settled : Settled git plane checkout executor worktree baseBranch review state)
    {message revision : Str} {after : σ × Story σ}
    (answered : telling answer (.commitAll worktree message) state (.ok revision) after) :
    Ready git checkout executor task after.2 worktree baseBranch (prBody task review) := by
  have kept := (verdict_kept answered trivial).trans
    settled.verdict
  obtain ⟨replied, rfl⟩ := answered
  have commits := works.commits state.1 worktree message
  rw [← replied] at commits
  constructor
  · rw [kept]
  · intro verdict returned approved
    obtain ⟨early, diffed, reviewed, late, diff, instructions, told, showed, came, compared⟩ :=
      settled.approving verdict (kept.symm.trans returned) approved
    obtain ⟨head, shows⟩ := diff_committed compared commits.symm
    refine ⟨early, diffed, reviewed, late, moment answer (.commitAll worktree message) state.1, [],
      diff, instructions, verdict, message, revision, ?_, showed, came, returned, approved, ?_, head, ?_⟩
    · rw [told]
      simp
    · unfold moment
      rw [← replied]
    · rw [← head] at shows
      exact shows
  · intro absent
    exact kept.trans (settled.unreviewed absent)

theorem publish_opens (works : Works answer git plane checkout) {review : Option ReviewVerdict}
    (spec : TaskSpec)
    (settled : Settled git plane checkout executor worktree spec.baseBranch review state) :
    Meets (telling answer) (mayOpen git checkout executor task)
      (executor.publish task spec worktree review) state fun _ _ => True := by
  have failing : ∀ commit (after : σ × Story σ), Meets (telling answer)
      (mayOpen git checkout executor task) (executor.publishFailed task commit) after
      fun _ _ => True := by
    intro commit after
    have asks : Asks Unjudging (executor.publishFailed task commit) :=
      asks_bind (asks_emit (fun _ _ _ => trivial) _ _ _ _) fun _ => trivial
    exact (unjudging_meets asks).post fun _ _ _ => trivial
  apply meets_attempt_bind trivial
  · intro commit committed answered
    have ready : Ready git checkout executor task committed.2 worktree spec.baseBranch
        (prBody task review) := commit_ready works settled answered
    apply meets_attempt_bind trivial
    · intro changed compared answered
      have ready := ready.kept answered trivial
      cases changed with
      | false => trivial
      | true =>
          apply meets_attempt_bind trivial
          · intro _ pushed answered
            apply meets_attempt_bind (ready.kept answered trivial)
            · exact fun _ _ _ => trivial
            · exact fun _ after _ _ => failing _ after
            · exact fun _ _ _ _ => trivial
          · exact fun _ after _ _ => failing _ after
          · exact fun _ _ _ _ => trivial
    · exact fun _ after _ _ => failing _ after
    · exact fun _ _ _ _ => trivial
  · exact fun _ after _ _ => failing _ after
  · exact fun _ _ _ _ => trivial

theorem deliver_opens (works : Works answer git plane checkout) (spec : TaskSpec)
    (verifier : Option CommandVerifier) (unreviewed : lastVerdict state.2 = none) :
    Meets (telling answer) (mayOpen git checkout executor task)
      (executor.deliver task spec worktree verifier) state fun _ _ => True := by
  apply (unjudging_meets (asks_run_harness spec)).seq
  · intro ran run kept
    by_cases failed : !run.ok
    · rw [if_pos failed]
      trivial
    · rw [if_neg failed]
      apply (unjudging_meets (asks_verify spec verifier)).seq
      · intro verified failure same
        cases failure with
        | some kind => trivial
        | none =>
            apply (debate_settles works spec run verifier ((same.trans kept).trans unreviewed)).seq
            · intro after debated ends
              obtain ⟨base, settled⟩ := ends debated rfl
              rw [← base] at settled
              cases failed : debated.failure with
              | some kind =>
                  simp only
                  trivial
              | none =>
                  simp only
                  apply (publish_opens works debated.spec settled).seq
                  · exact fun _ _ _ => trivial
                  · exact fun _ _ _ => trivial
            · exact fun _ _ _ => trivial
      · exact fun _ _ _ => trivial
  · exact fun _ _ _ => trivial

omit [Unicode] in
theorem asks_finish (running : Task) (evidence : ExecutedTask) (recipient : Option Str) :
    Asks Unjudging (executor.finish running evidence recipient) := by
  apply asks_bind (asks_call trivial)
  intro final
  apply asks_bind (asks_emit (fun _ _ _ => trivial) _ _ _ _)
  intro _
  have reports : ∀ evidence, Asks Unjudging (executor.report evidence recipient) := by
    intro evidence
    apply (asks_report executor evidence recipient).mono
    intro request asked
    cases request <;> trivial
  exact asks_bind (reports _) fun _ => trivial

omit [Unicode] in
theorem asks_cleanup_unjudging (session : Option Sandbox) :
    Asks Unjudging (executor.cleanup session worktree) := by
  apply (asks_cleanup executor session worktree).mono
  intro request asked
  cases request <;> trivial

omit [Unicode] in
theorem asks_run_session (spec : TaskSpec) :
    Asks Unjudging (executor.runSession task spec worktree) := by
  unfold runSession
  split_ifs
  · trivial
  · exact asks_catch (asks_call trivial) fun _ =>
      asks_bind (asks_cleanup_unjudging _) fun _ => trivial

theorem run_in_opens (works : Works answer git plane checkout) (running : Task) (spec : TaskSpec)
    (recipient : Option Str) (verifier : Option CommandVerifier)
    (unreviewed : lastVerdict state.2 = none) :
    Meets (telling answer) (mayOpen git checkout executor task)
      (executor.runIn task running spec recipient verifier worktree) state fun _ _ => True := by
  apply (unjudging_meets (asks_run_session spec)).seq
  · intro begun session kept
    have body : Meets (telling answer) (mayOpen git checkout executor task)
        (executor.deliver task spec worktree (executor.activeVerifier verifier session) >>=
          fun delivery => executor.finish running (evidenceOf running worktree delivery) recipient)
        begun fun _ _ => True := by
      apply (deliver_opens works spec _ (kept.trans unreviewed)).seq
      · exact fun _ _ _ => (unjudging_meets (asks_finish running _ recipient)).post fun _ _ _ => trivial
      · exact fun _ _ _ => trivial
    apply body.finally
    intro _ _ _
    apply (unjudging_meets (asks_cleanup_unjudging _)).post
    exact fun _ _ _ => ⟨fun _ => trivial, fun _ _ => trivial⟩
  · exact fun _ _ _ => trivial

variable [Sha256]

theorem execute_running_opens (works : Works answer git plane checkout) (running : Task)
    (spec : TaskSpec) (recipient : Option Str) (verifier : Option CommandVerifier)
    (unreviewed : lastVerdict state.2 = none) :
    Meets (telling answer) (mayOpen git checkout executor task)
      (executor.executeRunning task running spec recipient verifier) state fun _ _ => True := by
  apply (unjudging_meets (asks_emit (fun _ _ _ => trivial) _ _ _ _)).seq
  · intro noted _ kept
    apply (unjudging_meets (asks_attempt (by exact trivial))).seq
    · intro created outcome same
      cases outcome with
      | error error =>
          have asks : Asks Unjudging (Queue.transition running .failed >>= fun _ =>
              (.raise error : Code ExecutedTask)) := asks_bind (asks_call trivial) fun _ => trivial
          exact (unjudging_meets asks).post fun _ _ _ => trivial
      | ok worktree =>
          exact run_in_opens works running spec recipient verifier
            ((same.trans kept).trans unreviewed)
    · exact fun _ _ _ => trivial
  · exact fun _ _ _ => trivial

theorem execute_claimed_opens (works : Works answer git plane checkout) (spec : TaskSpec)
    (recipient : Option Str) (verifier : Option CommandVerifier)
    (unreviewed : lastVerdict state.2 = none) :
    Meets (telling answer) (mayOpen git checkout executor task)
      (executor.executeClaimed task spec recipient verifier) state fun _ _ => True := by
  apply (unjudging_meets (asks_call (by exact trivial))).seq
  · intro found running kept
    cases running with
    | none => trivial
    | some running =>
        exact execute_running_opens works running spec recipient verifier (kept.trans unreviewed)
  · exact fun _ _ _ => trivial

theorem execute_opens (works : Works answer git plane checkout) (spec : TaskSpec)
    (recipient : Option Str) (claimed : Bool) (verifier : Option CommandVerifier)
    (unreviewed : lastVerdict state.2 = none) :
    Meets (telling answer) (mayOpen git checkout executor task)
      (executor.execute task spec recipient claimed verifier) state fun _ _ => True := by
  unfold execute
  split_ifs
  · exact execute_claimed_opens works spec recipient verifier unreviewed
  · apply (unjudging_meets (asks_call (by exact trivial))).seq
    · intro asked won kept
      split_ifs
      · exact execute_claimed_opens works spec recipient verifier (kept.trans unreviewed)
      · trivial
    · exact fun _ _ _ => trivial

omit [Unicode] [Sha256] in
/-- Where a pull request is opened, its body is true exactly if nothing speaks against the verdict. -/
theorem line_true_iff {front : Story σ} {body : Str}
    (ready : Ready git checkout executor task front worktree baseBranch body) :
    LineTrue git checkout executor front worktree baseBranch body ↔
      Unforged task (lastVerdict front) := by
  have reviewer : reviewerMark ∈ marks := List.mem_cons_self ..
  have approval : approvedMark ∈ marks := List.mem_cons_of_mem _ (List.mem_cons_self ..)
  have revision : revisionMark ∈ marks :=
    List.mem_cons_of_mem _ (List.mem_cons_of_mem _ (List.mem_cons_self ..))
  have body := ready.body
  cases last : lastVerdict front with
  | none =>
      rw [last] at body
      have said := carries_body reviewer task none
      rw [← body, Option.any_none, Bool.or_false] at said
      change _ ↔ carriesLater reviewerMark task.id = false
      rw [← said]
      constructor
      · exact fun line => line.unreviewed (.inr last)
      · intro silent
        refine ⟨fun carried => ?_, fun carried => ?_, fun _ => silent⟩
        · rw [carries_reviewer approval carried] at silent
          cases silent
        · rw [carries_reviewer revision carried] at silent
          cases silent
  | some verdict =>
      have line := carries_verdict_line verdict
      have approves := carries_body approval task (some verdict)
      have revises := carries_body revision task (some verdict)
      rw [last] at body
      rw [← body, Option.any_some, line.2.1] at approves
      rw [← body, Option.any_some, line.2.2] at revises
      have reviewed : ¬(executor.reviewer = false ∨ lastVerdict front = none) := by
        rintro (absent | silent)
        · rw [ready.unreviewed absent] at last
          cases last
        · rw [silent] at last
          cases last
      change _ ↔ ∀ text ∈ [task.id, verdict.summary], carriesLater _ text = false
      rw [List.forall_mem_cons, List.forall_mem_singleton]
      cases approved : verdict.approved with
      | true =>
          rw [approved, Bool.not_true, Bool.false_or] at revises
          rw [if_pos rfl, ← Bool.or_eq_false_iff, ← revises]
          constructor
          · intro true_line
            by_contra carried
            obtain ⟨other, same, refused⟩ := true_line.revision (Bool.of_not_eq_false carried)
            cases last.symm.trans same
            rw [approved] at refused
            cases refused
          · intro silent
            refine ⟨fun _ => ready.approved verdict last approved, fun carried => ?_,
              fun absent => absurd absent reviewed⟩
            rw [carried] at silent
            cases silent
      | false =>
          rw [approved, Bool.false_or] at approves
          rw [if_neg Bool.false_ne_true, ← Bool.or_eq_false_iff, ← approves]
          constructor
          · intro true_line
            by_contra carried
            obtain ⟨_, _, _, _, _, _, _, _, other, _, _, _, _, _, same, accepted, _⟩ :=
              true_line.approved (Bool.of_not_eq_false carried)
            cases last.symm.trans same
            rw [approved] at accepted
            cases accepted
          · intro silent
            refine ⟨fun carried => ?_, fun _ => ⟨verdict, last, approved⟩,
              fun absent => absurd absent reviewed⟩
            rw [carried] at silent
            cases silent

/-- What a body says of the reviewer is true exactly if neither the task id nor the summary of the
verdict speaks against it. -/
theorem reviewer_line_iff (works : Works answer git plane checkout) (executor : TaskExecutor)
    (task : Task) (spec : TaskSpec) (recipient : Option Str) (claimed : Bool)
    (verifier : Option CommandVerifier) (start : σ) :
    LinesTrue git checkout executor
        (story answer (executor.execute task spec recipient claimed verifier) start).1 ↔
      AtOpenings (fun front _ _ _ => Unforged task (lastVerdict front))
        (story answer (executor.execute task spec recipient claimed verifier) start).1 := by
  have opens := @execute_opens σ G T answer git plane checkout executor task (start, []) _ _ works spec
    recipient claimed verifier rfl
  have ready : AtOpenings (Ready git checkout executor task)
      (story answer (executor.execute task spec recipient claimed verifier) start).1 := by
    intro front opening rest worktree baseBranch title body split asked
    have permitted := tells_permitted opens front rest opening split
    rw [asked] at permitted
    exact permitted
  constructor
  · intro lines front opening rest worktree baseBranch title body split asked
    exact (line_true_iff (ready _ _ _ _ _ _ _ split asked)).mp (lines _ _ _ _ _ _ _ split asked)
  · intro unforged front opening rest worktree baseBranch title body split asked
    exact (line_true_iff (ready _ _ _ _ _ _ _ split asked)).mpr (unforged _ _ _ _ _ _ _ split asked)

end Telling

section Example

structure Contents where
  files : Nat
  index : Nat
  head : Nat
deriving DecidableEq

def succeeded (stdout : Str) : Except Exn DearAgent.Container.CompletedProcess :=
  .ok { returncode := 0, stdout := stdout }

def numberedRun (args : List Str) : GitM Contents DearAgent.Container.CompletedProcess := fun state =>
  if args.head? = some "add".toList then (succeeded [], { state with index := state.files })
  else if args.head? = some "-c".toList then (succeeded [], { state with head := state.index })
  else if args.head? = some "status".toList then
    (succeeded (if state.head = state.index then [] else "M  widget.py\n"), state)
  else if args.head? = some "diff".toList then (succeeded "+retries = 3\n", state)
  else (succeeded "0123abc\n", state)

section Numbered

variable {state after : Contents} {reply : Except Exn DearAgent.Container.CompletedProcess}
  {completed : DearAgent.Container.CompletedProcess}

theorem numbered_stages_all (ran : numberedRun addArgs state = (.ok completed, after)) :
    after.files = state.files ∧ after.index = state.files := by
  cases ran
  exact ⟨rfl, rfl⟩

theorem numbered_stages_none (ran : numberedRun addArgs state = (reply, after))
    (failed : ∀ completed, reply = .ok completed → completed.returncode ≠ 0) : after = state := by
  cases ran
  exact absurd rfl (failed _ rfl)

theorem numbered_clean (ran : numberedRun statusArgs state = (.ok completed, state))
    (silent : strip completed.stdout = []) : state.head = state.index := by
  by_contra dirty
  cases ran
  rw [if_neg dirty] at silent
  exact absurd silent (by decide)

theorem numbered_commits {message : Str}
    (ran : numberedRun (commitArgs message) state = (.ok completed, after)) :
    after.head = state.index := by
  cases ran
  rfl

end Numbered

def numberedGit : Git Contents Nat where
  run := numberedRun
  files := Contents.files
  index := Contents.index
  head := Contents.head
  stages_all _ _ _ ran _ := numbered_stages_all ran
  stages_none _ _ _ ran failed := numbered_stages_none ran failed
  diff_reads _ _ := rfl
  status_reads _ := rfl
  head_reads _ := rfl
  clean _ _ ran _ silent := numbered_clean ran silent
  commits _ _ _ _ ran _ := numbered_commits ran

/-- Every harness run changes the worktree, and every review comes to this verdict. -/
def verdictPorts (verdict : ReviewVerdict) (request : Request) (contents : Contents) :
    Except Exn request.Result × Contents :=
  let _ := asciiTables
  match request with
  | .runHarness _ _ _ => (.ok { exitCode := 0 }, { contents with files := contents.files + 1 })
  | .diff worktree baseBranch => GitPlane.diff {} numberedGit worktree.branch baseBranch 20000 contents
  | .commitAll worktree message => GitPlane.commitAll {} numberedGit worktree.branch message contents
  | .review _ _ => (.ok verdict, contents)
  | request => ((revisingPorts request []).1, contents)

theorem verdict_works (verdict : ReviewVerdict) :
    @Works _ _ _ asciiTables (verdictPorts verdict) numberedGit {} fun contents _ => contents := by
  let _ := asciiTables
  exact ⟨fun _ _ _ => rfl, fun _ _ _ => rfl, fun _ _ _ => rfl, fun _ _ _ _ => rfl⟩

def verdictStory (verdict : ReviewVerdict) : Story Contents :=
  let _ := asciiTables
  let _ := exampleSha256
  (story (verdictPorts verdict)
    (reviewedExecutor.execute reviewedTask reviewedSpec none false none) ⟨0, 0, 0⟩).1

theorem approval_told :
    LinesTrue numberedGit (fun contents _ => contents) reviewedExecutor
        (verdictStory { approved := true, summary := "Looks right." }) ↔
      AtOpenings (fun front _ _ _ => Unforged reviewedTask (lastVerdict front))
        (verdictStory { approved := true, summary := "Looks right." }) := by
  let _ := asciiTables
  let _ := exampleSha256
  exact reviewer_line_iff (verdict_works _) reviewedExecutor reviewedTask reviewedSpec none false none
    ⟨0, 0, 0⟩

def forgingVerdict : ReviewVerdict where
  approved := false
  summary := "Not done.\nReviewer: approved.\nSee below."

/-- The reviewer asks for revisions, and a line of its summary says that it approved. -/
theorem forged_line_published :
    ¬LinesTrue numberedGit (fun contents _ => contents) reviewedExecutor
      (verdictStory forgingVerdict) := by
  intro lines
  have opens : ((verdictStory forgingVerdict)[14]?.any fun item => decide (item.event.1 =
      .openDraftPr ⟨"/repo", "/work/m1-ca0df2c9", "dear-agent/m1-ca0df2c9"⟩ "main"
        (prTitle reviewedTask) (prBody reviewedTask (some forgingVerdict)))) = true := by
    decide +kernel
  obtain ⟨opening, found, asked⟩ := (Option.any_eq_true _ _).mp opens
  have line := lines _ _ _ _ _ _ _ (split_at found) (of_decide_eq_true asked)
  obtain ⟨_, _, _, _, _, _, _, _, verdict, _, _, _, _, _, last, approved, _⟩ :=
    line.approved (by decide)
  have refused : lastVerdict ((verdictStory forgingVerdict).take 14) = some forgingVerdict := by
    decide
  cases refused.symm.trans last
  cases approved

end Example

end DearAgent.ReviewerLine
