import DearAgent.Normalizer.Addresses
import DearAgent.Errors

/-!
# Message fields on command lines

`repo.py` and `runners/worktree.py`: the repository and the base branch of a task become
arguments of git, which reads an argument with a dash in front as an option.
-/

namespace DearAgent

open DearAgent.Lib.Text DearAgent.Lib.Regex DearAgent.Lib.Dictionaries DearAgent.Queue

set_option autoImplicit false

/-- The command of `RepoPreparer.ensure`. -/
def cloneCommand (binary repoUrl path : Str) : List Str :=
  [binary, "clone", "--depth", "1", repoUrl, path]

/-- The command of `Worktree.create`, which checks the base branch again. -/
def worktreeCommand [Unicode] (branch path baseBranch : Str) : Except Exn (List Str) :=
  if !isValidRef baseBranch then
    .error (.worktreeError ("invalid base branch ".toList ++ reprText baseBranch))
  else .ok ["git", "worktree", "add", "-B", branch, path, baseBranch]

def optionsOf (command : List Str) : List Str :=
  command.tail.filter fun argument => startswith argument "-"

/-- No field of the message is read as an option. The branch and the paths are not the
message's. -/
structure TakesNoOption [Unicode] (spec : TaskSpec) : Prop where
  accepted : (matchStart repoUrlPattern spec.repoUrl).isSome = true
  undashed : startswith spec.repoUrl "-" = false
  unspaced : ∀ c ∈ spec.repoUrl, isSpace c = false
  base : isValidRef spec.baseBranch = true
  clone : ∀ binary path, startswith path "-" = false →
    optionsOf (cloneCommand binary spec.repoUrl path) = ["--depth".toList]
  worktree : ∀ branch path, startswith branch "-" = false → startswith path "-" = false →
    (worktreeCommand branch path spec.baseBranch).map optionsOf = .ok ["-B".toList]

section Accepting

theorem startswith_cons (c d : Char) (text : Str) : startswith (c :: text) [d] = (d == c) := by
  simp [startswith, List.isPrefixOf]

theorem strip_last {text front : Str} {c : Char} (shape : strip text = front ++ [c]) :
    isSpace c = false := by
  have reversed : (lstripWhere isSpace text).reverse.dropWhile isSpace = c :: front.reverse := by
    have same := congrArg List.reverse shape
    rwa [strip, stripWhere, rstripWhere, List.reverse_reverse, List.reverse_append] at same
  have kept := List.head?_dropWhile_not isSpace (lstripWhere isSpace text).reverse
  rw [reversed] at kept
  simpa using kept

variable [Unicode]

omit [Unicode] in
theorem name_unspaced {c : Char} (name : nameChar c = true) : isSpace c = false :=
  not_space_of_alnum_or name

omit [Unicode] in
theorem takes_repo_url : Takes (fun c => isSpace c = false) repoUrlPattern := by
  have unspaced : ∀ c, (!isSpace c) = true → isSpace c = false := by
    intro c kept
    simpa using kept
  have named : ∀ c, nameChar c = true → isSpace c = false := fun c => name_unspaced
  have slash : ∀ c, decide (c = '/') = true → isSpace c = false := by
    intro c same
    rw [of_decide_eq_true same]
    decide
  have word : ∀ text : Str, (text.all fun c => decide (isSpace c = false)) = true →
      Takes (fun c => isSpace c = false) (literal text) :=
    fun text all => takes_literal text (every_char all)
  have scheme := word "http".toList (by decide)
  have secure := word "s".toList (by decide)
  have colon := word "://".toList (by decide)
  have account := word "git@".toList (by decide)
  exact ⟨⟨trivial, ⟨⟨scheme, ⟨secure, trivial⟩, colon⟩, account⟩, ⟨unspaced, unspaced⟩, trivial⟩,
    trivial, ⟨named, named⟩, slash, ⟨named, named⟩, trivial⟩

/-- What `REPO_URL_RE` accepts has no blank in it but perhaps a line end behind it. -/
theorem accepted_unspaced {text : Str} (accepted : (matchStart repoUrlPattern text).isSome = true) :
    ∃ front back, text = front ++ back ∧ (∀ c ∈ front, isSpace c = false) ∧
      (back = [] ∨ back = ['\n']) := by
  obtain ⟨found, matched⟩ := Option.isSome_iff_exists.mp accepted
  obtain ⟨stop, first, _⟩ := Option.map_eq_some_iff.mp matched
  have reached : stop ∈ run repoUrlPattern (atStart text) := List.mem_of_mem_head? first
  obtain ⟨front, split, all⟩ := run_takes repoUrlPattern takes_repo_url _ stop reached
  refine ⟨front, stop.rest, split, all, ?_⟩
  cases List.mem_append.mp reached with
  | inl url =>
      obtain ⟨_, reached⟩ := mem_run_behind 3 url
      obtain ⟨rfl, ended⟩ := mem_run_text_end reached
      exact ended
  | inr slug =>
      obtain ⟨_, reached⟩ := mem_run_behind 4 slug
      obtain ⟨rfl, ended⟩ := mem_run_text_end reached
      exact ended

theorem accepted_strip_unspaced {text : Str}
    (accepted : (matchStart repoUrlPattern (strip text)).isSome = true) :
    ∀ c ∈ strip text, isSpace c = false := by
  obtain ⟨front, back, split, all, ended⟩ := accepted_unspaced accepted
  cases ended with
  | inl empty =>
      rw [split, empty, List.append_nil]
      exact all
  | inr newline =>
      rw [newline] at split
      have last : isSpace '\n' = false := strip_last split
      exact absurd last (by decide)

theorem last_value_stripped {key body value : Str} (last : lastValue key body = some value) :
    ∃ text, value = strip text := by
  obtain ⟨line, _, given⟩ := List.exists_of_findSome?_eq_some last
  obtain ⟨entry, metadata, chosen⟩ := Option.bind_eq_some_iff.mp given
  split_ifs at chosen
  unfold metadataOf at metadata
  obtain ⟨found, _, rfl⟩ := Option.map_eq_some_iff.mp metadata
  exact ⟨_, (Option.some.inj chosen).symm⟩

theorem mem_run_name_group {index : Nat} {c stop : Cursor}
    (reached : stop ∈ run (.group index (plus (.sat nameChar))) c) :
    ∃ first text, c.rest = first :: text ++ stop.rest ∧
      (∀ d ∈ first :: text, nameChar d = true) ∧ stop.groups = (index, first :: text) :: c.groups := by
  obtain ⟨inner, found, text, split, rfl⟩ := mem_run_group reached
  have names : Takes (fun d => nameChar d = true) (plus (.sat nameChar)) :=
    ⟨fun _ accepted => accepted, fun _ accepted => accepted⟩
  have ungrouped : MadeOf (fun _ => True) False (plus (.sat nameChar)) := ⟨trivial, trivial⟩
  obtain ⟨taken, split', all⟩ := run_takes _ names c inner found
  obtain rfl : taken = text := List.append_cancel_right (split'.symm.trans split)
  have groups := run_groups _ ungrouped c inner found
  obtain ⟨d, tail, opens, _⟩ := run_opens found split
  rw [opens] at split all
  refine ⟨d, tail, split, all, ?_⟩
  rw [← groups, opens]

theorem recipient_slug {recipient : Option Str} {slug : Str}
    (decoded : repoFromRecipient recipient = some slug) :
    (matchStart repoUrlPattern slug).isSome = true ∧ (∀ c ∈ slug, isSpace c = false) ∧
      ∃ first address rest, recipient = some (first :: address) ∧ slug = first :: rest := by
  unfold repoFromRecipient at decoded
  split_ifs at decoded with absent
  cases recipient with
  | none => simp [truthy] at absent
  | some address =>
      rw [Option.getD_some] at decoded
      obtain ⟨found, matched, chosen⟩ := Option.bind_eq_some_iff.mp decoded
      simp only at chosen
      split_ifs at chosen with accepted
      obtain rfl := Option.some.inj chosen
      obtain ⟨stop, head, rfl⟩ := Option.map_eq_some_iff.mp matched
      have reached : stop ∈ run routingPattern (atStart address) := List.mem_of_mem_head? head
      obtain ⟨start, started, reached⟩ := mem_run_seq reached
      have opening : start = atStart address := by simpa [run, atStart] using started
      obtain ⟨owned, owner, reached⟩ := mem_run_seq reached
      obtain ⟨hyphened, hyphen, reached⟩ := mem_run_seq reached
      obtain ⟨named, repo, ending⟩ := mem_run_seq reached
      obtain ⟨first, owner, split, ownerPlain, ownerGroup⟩ := mem_run_name_group owner
      obtain ⟨last, repo, _, repoPlain, repoGroup⟩ := mem_run_name_group repo
      have hyphened := run_groups _ (by exact trivial) _ _ hyphen
      have ended := run_groups _ (by exact trivial) _ _ ending
      rw [hyphened, ownerGroup, opening] at repoGroup
      rw [repoGroup] at ended
      have groups : stop.groups = [(2, last :: repo), (1, first :: owner)] := ended
      have slug : (((⟨atStart address, stop⟩ : Match).group 1).getD [] ++
          '/' :: ((⟨atStart address, stop⟩ : Match).group 2).getD []) =
          (first :: owner) ++ '/' :: last :: repo := by
        change (stop.groups.lookup 1).getD [] ++ '/' :: (stop.groups.lookup 2).getD [] = _
        rw [groups]
        rfl
      rw [slug] at accepted ⊢
      apply And.intro accepted
      apply And.intro
      · intro c member
        cases List.mem_append.mp member with
        | inl inOwner => exact name_unspaced (ownerPlain c inOwner)
        | inr later =>
            cases later with
            | head => decide
            | tail _ inRepo => exact name_unspaced (repoPlain c inRepo)
      · rw [opening] at split
        exact ⟨first, owner ++ owned.rest, _, congrArg some split, rfl⟩

end Accepting

section Injecting

variable [Unicode]

/-- Where the repository of a message comes from, it is a repository and no option: the last
line for it, else the address. -/
def NamesRepository (message : RawMessage) (recipient : Option Str) : Prop :=
  (∀ value, lastValue "repo" message.body = some value →
    (matchStart repoUrlPattern value).isSome = true ∧ startswith value "-" = false) ∧
  (lastValue "repo" message.body = none → ∀ address, recipient = some address →
    startswith address "-" = false)

theorem takes_no_option_of_repo {spec : TaskSpec}
    (accepted : (matchStart repoUrlPattern spec.repoUrl).isSome = true)
    (undashed : startswith spec.repoUrl "-" = false)
    (unspaced : ∀ c ∈ spec.repoUrl, isSpace c = false) (base : isValidRef spec.baseBranch = true) :
    TakesNoOption spec := by
  constructor
  · exact accepted
  · exact undashed
  · exact unspaced
  · exact base
  · intro binary path plain
    have own : startswith "--depth".toList "-" = true := by decide
    have clone : startswith "clone".toList "-" = false := by decide
    have one : startswith "1".toList "-" = false := by decide
    simp only [optionsOf, cloneCommand, List.tail_cons, List.filter_cons, List.filter_nil, own,
      clone, one, undashed, plain]
    rfl
  · intro branch path branchPlain plain
    have own : startswith "-B".toList "-" = true := by decide
    have worktree : startswith "worktree".toList "-" = false := by decide
    have add : startswith "add".toList "-" = false := by decide
    have ref := valid_ref_no_option base
    rw [worktreeCommand, base, if_neg (by decide)]
    apply congrArg Except.ok
    simp only [optionsOf, List.tail_cons, List.filter_cons, List.filter_nil, own, worktree, add,
      ref, branchPlain, plain]
    rfl

/-- A task takes no option from its message exactly when the message names a repository: the
value of its line is accepted by `REPO_URL_RE`, and it or the address has no dash in front. -/
theorem takes_no_option_iff (message : RawMessage) (recipient : Option Str)
    (result : NormalizedTask) (normalized : normalize message recipient = .ok result) :
    TakesNoOption result.spec ↔ NamesRepository message recipient := by
  have base := normalized_base_branch normalized
  obtain ⟨located, spec⟩ := normalized_spec normalized
  have repoUrl : result.spec.repoUrl = repoUrlOf message recipient := by
    rw [spec]
    rfl
  cases written : lastValue "repo" message.body with
  | some value =>
      have same : result.spec.repoUrl = value := by
        rw [repoUrl, repoUrlOf, written]
        rfl
      constructor
      · intro safe
        apply And.intro
        · intro other chosen
          obtain rfl := Option.some.inj (written.symm.trans chosen)
          rw [← same]
          exact ⟨safe.accepted, safe.undashed⟩
        · intro absent
          rw [written] at absent
          cases absent
      · intro names
        obtain ⟨accepted, undashed⟩ := names.1 value written
        obtain ⟨text, rfl⟩ := last_value_stripped written
        rw [← same] at accepted undashed
        apply takes_no_option_of_repo accepted undashed _ base
        rw [same] at accepted ⊢
        exact accepted_strip_unspaced accepted
  | none =>
      have chosen : result.spec.repoUrl = (repoFromRecipient recipient).getD [] := by
        rw [repoUrl, repoUrlOf, written]
        rfl
      cases decoded : repoFromRecipient recipient with
      | none =>
          rw [repoUrlOf, written, decoded] at located
          exact absurd rfl located
      | some slug =>
          have same : result.spec.repoUrl = slug := by
            rw [chosen, decoded]
            rfl
          obtain ⟨accepted, unspaced, first, address, rest, sent, opens⟩ := recipient_slug decoded
          have dashes : startswith result.spec.repoUrl "-" = startswith (first :: address) "-" := by
            rw [same, opens]
            exact (startswith_cons first '-' rest).trans (startswith_cons first '-' address).symm
          constructor
          · intro safe
            apply And.intro
            · intro value other
              rw [written] at other
              cases other
            · intro _ other received
              obtain rfl := Option.some.inj (sent.symm.trans received)
              rw [← dashes]
              exact safe.undashed
          · intro names
            have undashed := names.2 written (first :: address) sent
            rw [← dashes] at undashed
            rw [← same] at accepted unspaced
            exact takes_no_option_of_repo accepted undashed unspaced base

end Injecting

section Example

local instance optionTables : Unicode := asciiTables

def repoMessage (repo : Str) : RawMessage where
  transportId := "m1"
  body := "repo: ".toList ++ repo ++ "\nbase: --upload-pack=evil\n\nFix it\n".toList

def repoResult (repo : Str) : NormalizedTask :=
  let spec : TaskSpec := { repoUrl := repo, instructions := "Fix it" }
  ⟨taskOf (repoMessage repo) spec, spec⟩

theorem github_takes_no_option :
    TakesNoOption (repoResult "https://github.com/acme/widget").spec ↔
      NamesRepository (repoMessage "https://github.com/acme/widget") none :=
  takes_no_option_iff _ _ (repoResult "https://github.com/acme/widget") (by decide)

theorem repo_line_is_option :
    normalize (repoMessage "--upload-pack=evil") none = .ok (repoResult "--upload-pack=evil") ∧
      ¬TakesNoOption (repoResult "--upload-pack=evil").spec := by
  apply And.intro (by decide)
  intro safe
  have undashed := safe.undashed
  revert undashed
  decide

end Example

end DearAgent
