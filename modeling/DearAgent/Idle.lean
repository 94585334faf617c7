import DearAgent.Lib.Text

/-!
# Proposals for an empty queue

`signals.py` and `proposals.py` of `idle`: markers and commits of a repository become a few
proposals, whose instructions quote what the repository says.
-/

namespace DearAgent.Idle

open DearAgent.Lib.Text

set_option autoImplicit false

inductive SignalKind
  | commit
  | changedFile
  | todo
deriving DecidableEq

structure Signal where
  kind : SignalKind
  summary : Str
  evidence : Str := []
deriving DecidableEq

/-- The path of the repository is given by its components. -/
structure Signals where
  repoPath : List Str
  items : List Signal := []

def Signals.ofKind (signals : Signals) (kind : SignalKind) : List Signal :=
  signals.items.filter fun signal => signal.kind = kind

/-- `_commits`, of what `git log` prints. -/
def commitSignals (output : Str) : List Signal :=
  (splitlines output).filterMap fun line =>
    (cut ['\t'] line).map fun parts => ⟨.commit, strip parts.2, parts.1.take 12⟩

structure Proposal where
  title : Str
  repoPath : List Str
  instructions : Str
  evidence : List Str
deriving DecidableEq

def sanitize (value : Str) : Str := (join " " (words value)).take 120

def markerInstructions (name location detail : Str) : Str :=
  "In ".toList ++ (name ++ (", address the marker at ".toList ++ (location ++ (": ".toList ++ (detail ++
    ". Keep the change small and add or update tests.".toList)))))

def commitInstructions (name : Str) (recent : List Str) : Str :=
  "Review the recent commits in ".toList ++ (name ++ (" (".toList ++ (join "; " recent ++
    (") and propose one concrete follow-up: a missing test, a TODO left behind, ".toList ++
      "or a small hardening.".toList))))

/-- `evidence or "the repository"`. -/
def locationOf (evidence : Str) : Str := if evidence.isEmpty then "the repository" else evidence

def fromTodo (repoPath : List Str) (name : Str) (signal : Signal) : Proposal :=
  let detail := sanitize signal.summary
  let location := locationOf signal.evidence
  { title := if detail.isEmpty then "Resolve a TODO marker" else "Resolve ".toList ++ detail
    repoPath := repoPath
    instructions := markerInstructions name location detail
    evidence := [location ++ ": ".toList ++ detail] }

def fromCommits (repoPath : List Str) (name : Str) (commits : List Signal) : Proposal where
  title := "Follow up on recent work in ".toList ++ name
  repoPath := repoPath
  instructions := commitInstructions name ((commits.take 3).map Signal.summary)
  evidence := (commits.take 5).map fun signal => signal.evidence ++ ' ' :: signal.summary

structure ProposalGenerator where
  maxProposals : Int := 5

namespace ProposalGenerator

variable (generator : ProposalGenerator)

/-- The loop over the markers, and whether `generate` returned out of it. -/
def fromTodos (repoPath : List Str) (name : Str) :
    List Proposal → List Signal → List Proposal × Bool
  | proposals, [] => (proposals, false)
  | proposals, signal :: rest =>
      let longer := proposals ++ [fromTodo repoPath name signal]
      if (longer.length : Int) ≥ generator.maxProposals then (longer, true)
      else fromTodos repoPath name longer rest

end ProposalGenerator

def nameOf (signals : Signals) (repoName : Option Str) : Str :=
  match repoName with
  | some name => if name.isEmpty then signals.repoPath.getLastD [] else name
  | none => signals.repoPath.getLastD []

def ProposalGenerator.generate (generator : ProposalGenerator) (signals : Signals)
    (repoName : Option Str) : List Proposal :=
  let name := nameOf signals repoName
  let looped := generator.fromTodos signals.repoPath name [] (signals.ofKind .todo)
  if looped.2 then looped.1
  else
    let commits := signals.ofKind .commit
    if !commits.isEmpty && (looped.1.length : Int) < generator.maxProposals then
      looped.1 ++ [fromCommits signals.repoPath name commits]
    else looped.1

/-!
## What a proposal may quote
-/

/-- A short line that the sanitizer makes of a text. -/
structure Excerpt (source text : Str) : Prop where
  made : text = sanitize source
  short : text.length ≤ 120
  single : ∀ c ∈ text, isLineBreak c = false

def MarkerQuoted (name : Str) (signal : Signal) (proposal : Proposal) : Prop :=
  ∃ place detail, Excerpt signal.evidence place ∧ Excerpt signal.summary detail ∧
    proposal.instructions = markerInstructions name (locationOf place) detail

def CommitsQuoted (name : Str) (commits : List Signal) (proposal : Proposal) : Prop :=
  ∃ subjects, List.Forall₂ (fun signal subject => Excerpt signal.summary subject)
    (commits.take 3) subjects ∧ proposal.instructions = commitInstructions name subjects

/-- What is proposed: markers in their order, then perhaps the commits, all of it excerpts. -/
structure Proposed (generator : ProposalGenerator) (signals : Signals) (repoName : Option Str) :
    Prop where
  bounded : ((generator.generate signals repoName).length : Int) ≤ generator.maxProposals
  quoted : ∃ markers followUps,
    generator.generate signals repoName =
      markers.map (fromTodo signals.repoPath (nameOf signals repoName)) ++ followUps ∧
    markers <+: signals.ofKind .todo ∧
    (followUps = [] ∨ followUps =
      [fromCommits signals.repoPath (nameOf signals repoName) (signals.ofKind .commit)]) ∧
    (∀ marker ∈ markers, MarkerQuoted (nameOf signals repoName) marker
      (fromTodo signals.repoPath (nameOf signals repoName) marker)) ∧
    ∀ proposal ∈ followUps,
      CommitsQuoted (nameOf signals repoName) (signals.ofKind .commit) proposal

/-- The bound is not negative, no marker meets a bound of zero, and what is quoted as it is
found would not be changed by the sanitizer. -/
structure Clean (generator : ProposalGenerator) (signals : Signals) : Prop where
  bound : 0 ≤ generator.maxProposals
  room : generator.maxProposals = 0 → signals.ofKind .todo = []
  places : ∀ marker ∈ (signals.ofKind .todo).take generator.maxProposals.toNat,
    sanitize marker.evidence = marker.evidence
  subjects : ((signals.ofKind .todo).length : Int) < generator.maxProposals →
    ∀ commit ∈ (signals.ofKind .commit).take 3, sanitize commit.summary = commit.summary

section Sanitizing

theorem sanitize_spaces (source : Str) : ∀ c ∈ sanitize source, isSpace c = true → c = ' ' := by
  intro c member spaced
  obtain between | ⟨piece, among, inside⟩ := mem_join (List.mem_of_mem_take member)
  · exact List.mem_singleton.mp between
  · have apart := split_at_uncut isSpace source piece (List.mem_of_mem_filter among) c inside
    rw [spaced] at apart
    cases apart

theorem sanitize_excerpt (source : Str) : Excerpt source (sanitize source) where
  made := rfl
  short := List.length_take_le 120 _
  single := by
    intro c member
    by_contra broken
    have line := Bool.of_not_eq_false broken
    rw [sanitize_spaces source c member (space_of_line_break line)] at line
    exact absurd line (by decide)

theorem sanitize_length (source : Str) : (sanitize source).length ≤ source.length := by
  have shorter : ∀ pieces : List Str,
      extent (pieces.filter fun piece => !piece.isEmpty) ≤ extent pieces := by
    intro pieces
    induction pieces with
    | nil => exact le_refl _
    | cons piece rest ih =>
        rw [List.filter_cons]
        split_ifs
        · simp only [extent]
          omega
        · rw [extent]
          omega
  have whole := split_at_length isSpace source
  have kept := shorter (splitAt isSpace source)
  have taken : (sanitize source).length ≤ (join " " (words source)).length := List.length_take_le' 120 _
  by_cases empty : words source = []
  · rw [sanitize, empty]
    exact Nat.zero_le _
  · have joined := join_length ' ' empty
    change (join " ".toList (words source)).length + 1 = _ at joined
    unfold words at joined taken
    omega

/-- Texts that are no longer than others, and whose join is the same, are the same. -/
theorem join_same {separator : Str} {first second : List Str}
    (shorter : List.Forall₂ (fun a b : Str => a.length ≤ b.length) first second)
    (same : join separator first = join separator second) : first = second := by
  have lengths : ∀ {first second : List Str},
      List.Forall₂ (fun a b : Str => a.length ≤ b.length) first second →
      (join separator first).length ≤ (join separator second).length := by
    intro first second shorter
    induction shorter with
    | nil => exact le_refl _
    | cons head tail ih =>
        cases tail with
        | nil => exact head
        | cons _ _ =>
            rw [join_cons_cons, join_cons_cons]
            simp only [List.length_append] at ih ⊢
            omega
  induction shorter with
  | nil => rfl
  | @cons a b rest others head tail ih =>
      cases tail with
      | nil => exact congrArg (fun text => [text]) same
      | @cons c d more extra next later =>
          have below := lengths (List.Forall₂.cons next later)
          have total := congrArg List.length same
          rw [join_cons_cons, join_cons_cons] at same total
          simp only [List.length_append] at total
          have equal : a.length = b.length := by omega
          obtain ⟨front, back⟩ := List.append_inj same equal
          rw [front, ih (List.append_cancel_left back)]

end Sanitizing

section Instructions

variable {repoPath : List Str} {name : Str}

/-- The repository is named where the evidence is empty, which it is not after a change. -/
theorem location_same_iff (evidence : Str) :
    locationOf evidence = locationOf (sanitize evidence) ↔ sanitize evidence = evidence := by
  constructor
  · intro same
    have blank : sanitize "the repository" = "the repository".toList := by decide
    cases evidence with
    | nil => rfl
    | cons c rest =>
        unfold locationOf at same
        rw [if_neg (by simp)] at same
        split_ifs at same
        · rw [same, blank]
        · exact same.symm
  · intro same
    rw [same]

theorem marker_quoted_iff (signal : Signal) :
    MarkerQuoted name signal (fromTodo repoPath name signal) ↔
      sanitize signal.evidence = signal.evidence := by
  constructor
  · rintro ⟨place, detail, place_made, detail_made, same⟩
    rw [place_made.made, detail_made.made] at same
    unfold fromTodo markerInstructions at same
    have inner := List.append_cancel_left (List.append_cancel_left (List.append_cancel_left same))
    exact (location_same_iff signal.evidence).mp (List.append_cancel_right inner)
  · intro clean
    refine ⟨_, _, sanitize_excerpt signal.evidence, sanitize_excerpt signal.summary, ?_⟩
    rw [clean]
    rfl

theorem excerpts_made {commits : List Signal} {subjects : List Str} :
    List.Forall₂ (fun signal subject => Excerpt signal.summary subject) commits subjects ↔
      subjects = commits.map fun commit => sanitize commit.summary := by
  constructor
  · intro excerpts
    induction excerpts with
    | nil => rfl
    | cons head _ ih => rw [ih, head.made, List.map_cons]
  · rintro rfl
    induction commits with
    | nil => exact .nil
    | cons commit rest ih => exact .cons (sanitize_excerpt commit.summary) ih

theorem sanitized_shorter (commits : List Signal) :
    List.Forall₂ (fun a b : Str => a.length ≤ b.length)
      (commits.map fun commit => sanitize commit.summary) (commits.map Signal.summary) := by
  induction commits with
  | nil => exact .nil
  | cons commit rest ih => exact .cons (sanitize_length commit.summary) ih

theorem commits_quoted_iff (commits : List Signal) :
    CommitsQuoted name commits (fromCommits repoPath name commits) ↔
      ∀ commit ∈ commits.take 3, sanitize commit.summary = commit.summary := by
  constructor
  · rintro ⟨subjects, excerpts, same⟩
    unfold fromCommits commitInstructions at same
    have inner := List.append_cancel_left (List.append_cancel_left (List.append_cancel_left same))
    have joined := List.append_cancel_right inner
    rw [excerpts_made.mp excerpts] at joined
    exact List.map_inj_left.mp (join_same (sanitized_shorter _) joined.symm)
  · intro clean
    refine ⟨_, excerpts_made.mpr rfl, ?_⟩
    rw [List.map_congr_left clean]
    rfl

theorem kinds_apart (commits : List Signal) (signal : Signal) :
    (fromTodo repoPath name signal).instructions.head? = some 'I' ∧
      (fromCommits repoPath name commits).instructions.head? = some 'R' := ⟨rfl, rfl⟩

end Instructions

section Generating

variable {generator : ProposalGenerator} {repoPath : List Str} {name : Str}

def followUpsOf (generator : ProposalGenerator) (signals : Signals) (repoName : Option Str) :
    List Proposal :=
  if !(signals.ofKind .commit).isEmpty &&
      ((signals.ofKind .todo).length : Int) < generator.maxProposals then
    [fromCommits signals.repoPath (nameOf signals repoName) (signals.ofKind .commit)]
  else []

theorem follow_ups_shape (signals : Signals) (repoName : Option Str) :
    followUpsOf generator signals repoName = [] ∨ followUpsOf generator signals repoName =
      [fromCommits signals.repoPath (nameOf signals repoName) (signals.ofKind .commit)] := by
  unfold followUpsOf
  split_ifs
  · exact .inr rfl
  · exact .inl rfl

/-- The loop takes as many markers as there is room for, and returns when it is full. -/
theorem from_todos_room (todos : List Signal) (proposals : List Proposal) (room : Nat)
    (bound : generator.maxProposals = proposals.length + (room + 1)) :
    generator.fromTodos repoPath name proposals todos =
      (proposals ++ (todos.take (room + 1)).map (fromTodo repoPath name),
        decide (room + 1 ≤ todos.length)) := by
  induction todos generalizing proposals room with
  | nil => simp [ProposalGenerator.fromTodos]
  | cons todo rest ih =>
      unfold ProposalGenerator.fromTodos
      simp only [List.length_append, List.length_cons, List.length_nil]
      cases room with
      | zero =>
          rw [if_pos (by omega)]
          simp
      | succ room =>
          have later := ih (proposals ++ [fromTodo repoPath name todo]) room (by
            rw [bound, List.length_append, List.length_singleton]
            omega)
          rw [if_neg (by omega), later, List.take_succ_cons, List.map_cons, List.append_assoc]
          simp

/-- Where there is room for a proposal, markers are taken up to the bound and the commits
are added if some room is left. -/
theorem generate_room (signals : Signals) (repoName : Option Str)
    (bound : 0 < generator.maxProposals) :
    generator.generate signals repoName =
      ((signals.ofKind .todo).take generator.maxProposals.toNat).map
          (fromTodo signals.repoPath (nameOf signals repoName)) ++
        followUpsOf generator signals repoName := by
  have loop := @from_todos_room generator signals.repoPath (nameOf signals repoName)
    (signals.ofKind .todo) [] (generator.maxProposals.toNat - 1) (by simp; omega)
  have room : generator.maxProposals.toNat - 1 + 1 = generator.maxProposals.toNat := by omega
  rw [room, List.nil_append] at loop
  unfold ProposalGenerator.generate followUpsOf
  simp only [loop, List.length_map, List.length_take, decide_eq_true_eq]
  by_cases full : generator.maxProposals.toNat ≤ (signals.ofKind .todo).length
  · rw [if_pos full, if_neg (by simp; omega), List.append_nil]
  · rw [if_neg full]
    by_cases none : signals.ofKind .commit = []
    · simp [none]
    · have left : ((min generator.maxProposals.toNat (signals.ofKind .todo).length : Nat) : Int) <
          generator.maxProposals := by omega
      have few : ((signals.ofKind .todo).length : Int) < generator.maxProposals := by omega
      have some_commit : (!(signals.ofKind .commit).isEmpty) = true := by simp [none]
      rw [if_pos (Bool.and_eq_true_iff.mpr ⟨some_commit, decide_eq_true left⟩),
        if_pos (Bool.and_eq_true_iff.mpr ⟨some_commit, decide_eq_true few⟩)]

theorem generate_zero (signals : Signals) (repoName : Option Str)
    (bound : generator.maxProposals = 0) :
    generator.generate signals repoName =
      ((signals.ofKind .todo).take 1).map
        (fromTodo signals.repoPath (nameOf signals repoName)) := by
  unfold ProposalGenerator.generate
  cases todos : signals.ofKind .todo with
  | nil => simp [ProposalGenerator.fromTodos, bound]
  | cons todo rest => simp [ProposalGenerator.fromTodos, bound]

variable {followUps others : List Proposal} {commits markers taken : List Signal}

theorem same_markers (few : followUps = [] ∨ followUps = [fromCommits repoPath name commits])
    (more : others = [] ∨ others = [fromCommits repoPath name commits])
    (same : markers.map (fromTodo repoPath name) ++ followUps =
      taken.map (fromTodo repoPath name) ++ others) :
    markers.length = taken.length ∧ followUps = others := by
  have counted : ∀ (todos : List Signal) (rest : List Proposal),
      (rest = [] ∨ rest = [fromCommits repoPath name commits]) →
      ((todos.map (fromTodo repoPath name) ++ rest).filter fun proposal =>
        proposal.instructions.head? = some 'I').length = todos.length := by
    intro todos rest shape
    have marked : (todos.map (fromTodo repoPath name)).filter (fun proposal =>
        proposal.instructions.head? = some 'I') = todos.map (fromTodo repoPath name) := by
      rw [List.filter_eq_self]
      intro proposal member
      obtain ⟨todo, _, rfl⟩ := List.mem_map.mp member
      exact decide_eq_true (kinds_apart commits todo).1
    have unmarked : rest.filter (fun proposal => proposal.instructions.head? = some 'I') = [] := by
      rcases shape with rfl | rfl
      · rfl
      · rfl
    rw [List.filter_append, marked, unmarked, List.append_nil, List.length_map]
  have lengths : markers.length = taken.length := by
    rw [← counted markers followUps few, same, counted taken others more]
  exact ⟨lengths, (List.append_inj same (by simp [lengths])).2⟩

theorem clean_of_proposed {signals : Signals} {repoName : Option Str}
    (proposed : Proposed generator signals repoName) : Clean generator signals := by
  have bound : 0 ≤ generator.maxProposals :=
    (Int.natCast_nonneg _).trans proposed.bounded
  by_cases zero : generator.maxProposals = 0
  · have bounded := proposed.bounded
    rw [generate_zero signals repoName zero, zero] at bounded
    have none : signals.ofKind .todo = [] := by
      cases todos : signals.ofKind .todo with
      | nil => rfl
      | cons todo rest => simp [todos] at bounded
    refine ⟨bound, fun _ => none, ?_, ?_⟩
    · simp [none]
    · intro less
      rw [none, zero] at less
      exact absurd less (by simp)
  · have room : 0 < generator.maxProposals := by omega
    obtain ⟨markers, followUps, same, front, shape, marked, followed⟩ := proposed.quoted
    rw [generate_room signals repoName room] at same
    obtain ⟨lengths, rest⟩ := same_markers (follow_ups_shape signals repoName) shape same
    have taken : (signals.ofKind .todo).take generator.maxProposals.toNat = markers := by
      have prefixes := List.prefix_iff_eq_take.mp front
      have cut := List.prefix_iff_eq_take.mp
        (List.take_prefix generator.maxProposals.toNat (signals.ofKind .todo))
      rw [prefixes, cut, lengths]
    refine ⟨bound, fun never => absurd never zero, fun marker member => ?_, fun less commit member => ?_⟩
    · rw [taken] at member
      exact (marker_quoted_iff marker).mp (marked marker member)
    · have some_commit : signals.ofKind .commit ≠ [] := by
        intro empty
        rw [empty] at member
        simp at member
      have more : followUpsOf generator signals repoName =
          [fromCommits signals.repoPath (nameOf signals repoName) (signals.ofKind .commit)] :=
        if_pos (by simp [some_commit, less])
      rw [← rest, more] at followed
      exact (commits_quoted_iff _).mp (followed _ List.mem_cons_self) commit member

theorem proposed_of_clean {signals : Signals} (repoName : Option Str)
    (clean : Clean generator signals) : Proposed generator signals repoName := by
  by_cases zero : generator.maxProposals = 0
  · have nothing : generator.generate signals repoName = [] := by
      rw [generate_zero signals repoName zero, clean.room zero]
      rfl
    refine ⟨by rw [nothing, zero]; rfl, [], [], nothing, List.nil_prefix, .inl rfl, ?_, ?_⟩
    · simp
    · simp
  · have room : 0 < generator.maxProposals := by
      have := clean.bound
      omega
    refine ⟨?_, _, _, generate_room signals repoName room, List.take_prefix _ _,
      follow_ups_shape signals repoName,
      fun marker member => (marker_quoted_iff marker).mpr (clean.places marker member),
      fun proposal member => ?_⟩
    · rw [generate_room signals repoName room]
      unfold followUpsOf
      split_ifs with less
      · simp only [Bool.and_eq_true, decide_eq_true_eq] at less
        simp only [List.length_append, List.length_map, List.length_take, List.length_singleton]
        omega
      · simp only [List.append_nil, List.length_map, List.length_take]
        omega
    · unfold followUpsOf at member
      split_ifs at member with less
      · simp only [Bool.and_eq_true, decide_eq_true_eq] at less
        rw [List.mem_singleton.mp member]
        exact (commits_quoted_iff _).mpr (clean.subjects less.2)
      · cases member

/-- Proposals are excerpts within the bound exactly where the signals are clean. -/
theorem proposed_iff (signals : Signals) (repoName : Option Str) :
    Proposed generator signals repoName ↔ Clean generator signals :=
  ⟨clean_of_proposed, proposed_of_clean repoName⟩

end Generating

/-- A commit whose subject is not short: `git log` prints it as it is. -/
def longSubject : Str := List.replicate 130 'a'

def loggedSignals : Signals where
  repoPath := ["srv".toList, "w".toList]
  items := commitSignals ("0123456789abcdef\t".toList ++ longSubject)

theorem long_subject_quoted :
    loggedSignals.items = [⟨.commit, longSubject, "0123456789ab"⟩] ∧
      (ProposalGenerator.generate {} loggedSignals none).map Proposal.instructions =
        [commitInstructions "w" [longSubject]] ∧
      ¬Proposed {} loggedSignals none := by
  have logged : loggedSignals.items = [⟨.commit, longSubject, "0123456789ab"⟩] := by decide +kernel
  refine ⟨logged, by decide +kernel, fun proposed => ?_⟩
  have clean := clean_of_proposed proposed
  have none : loggedSignals.ofKind .todo = [] := by decide +kernel
  have changed := clean.subjects (by rw [none]; decide) ⟨.commit, longSubject, "0123456789ab"⟩
    (by decide +kernel)
  have lengths := (sanitize_excerpt longSubject).short
  rw [changed] at lengths
  simp [longSubject] at lengths

end DearAgent.Idle
