import DearAgent.Ports
import DearAgent.Runners.Container

/-!
# The git plane

`GitPlane` of `gitplane/plane.py` over the git of a worktree: the diff that is handed to a reviewer,
and the commit of everything the worktree holds.
-/

namespace DearAgent.Gitplane

open DearAgent.Lib.Text
open DearAgent.Container (CompletedProcess)

set_option autoImplicit false

/-- Commands over a state. What was done before an exception stays done. -/
def GitM (G α : Type) := G → Except Exn α × G

variable {G T α β : Type}

namespace GitM

def ret (value : α) : GitM G α := fun state => (.ok value, state)

def fail (error : Exn) : GitM G α := fun state => (.error error, state)

def bind (command : GitM G α) (next : α → GitM G β) : GitM G β := fun state =>
  match command state with
  | (.ok value, after) => next value after
  | (.error error, after) => (.error error, after)

instance : Monad (GitM G) where
  pure := ret
  bind := bind

end GitM

theorem git_pure_returns_iff {state after : G} {result value : α} :
    (pure result : GitM G α) state = (.ok value, after) ↔ value = result ∧ after = state := by
  change (Except.ok result, state) = (.ok value, after) ↔ _
  rw [Prod.mk.injEq, Except.ok.injEq, eq_comm, @eq_comm _ state]

theorem git_bind_returns_iff {command : GitM G α} {next : α → GitM G β} {state after : G} {value : β} :
    (command >>= next) state = (.ok value, after) ↔ ∃ first middle,
      command state = (.ok first, middle) ∧ next first middle = (.ok value, after) := by
  change GitM.bind command next state = _ ↔ _
  unfold GitM.bind
  cases command state with
  | mk reply middle => cases reply <;> simp

/-!
## What is asked of git
-/

def committerName : Str := "Dear Agent"

def committerEmail : Str := "dear-agent@localhost"

def addArgs : List Str := ["add", "-A"]

def diffArgs (baseBranch : Str) : List Str := ["diff", "--cached", baseBranch, "--"]

def statusArgs : List Str := ["status", "--porcelain"]

/-- `git commit` with an explicit identity. -/
def commitArgs (message : Str) : List Str :=
  [['-', 'c'], "user.name=".toList ++ committerName, ['-', 'c'],
    "user.email=".toList ++ committerEmail, "commit".toList, ['-', 'm'], message]

def headArgs : List Str := ["rev-parse", "HEAD"]

/-- The git of a worktree. `files` is what the worktree holds, `index` what is staged, and `head` what
the last commit holds. -/
structure Git (G T : Type) where
  /-- `subprocess.run(["git", *args], cwd=worktree.path, ...)`. -/
  run : List Str → GitM G CompletedProcess
  files : G → T
  index : G → T
  head : G → T
  /-- `git add -A` stages the whole worktree. -/
  stages_all : ∀ state completed after, run addArgs state = (.ok completed, after) →
    completed.returncode = 0 → files after = files state ∧ index after = files state
  /-- It stages nothing where it fails. -/
  stages_none : ∀ state reply after, run addArgs state = (reply, after) →
    (∀ completed, reply = .ok completed → completed.returncode ≠ 0) → after = state
  diff_reads : ∀ base state, (run (diffArgs base) state).2 = state
  status_reads : ∀ state, (run statusArgs state).2 = state
  head_reads : ∀ state, (run headArgs state).2 = state
  /-- Where there is nothing to report, the last commit holds what is staged. -/
  clean : ∀ state completed, run statusArgs state = (.ok completed, state) →
    completed.returncode = 0 → strip completed.stdout = [] → head state = index state
  commits : ∀ message state completed after, run (commitArgs message) state = (.ok completed, after) →
    completed.returncode = 0 → head after = index state

/-- `_git`. -/
def Git.checked (git : Git G T) (args : List Str) : GitM G CompletedProcess := do
  let result ← git.run args
  if result.returncode = 0 then pure result
  else GitM.fail (.gitError (Queue.orElse (some (strip result.stderr))
    ("git ".toList ++ join " " args ++ " failed".toList)))

/-- The text is what `git diff` says, up to the limit, where this content is staged. -/
def Git.Shows (git : Git G T) (baseBranch : Str) (limit : Nat) (content : T) (text : Str) : Prop :=
  ∃ staged shown, git.index staged = content ∧
    git.run (diffArgs baseBranch) staged = (.ok shown, staged) ∧ text = shown.stdout.take limit

structure GitPlane where
  protectedBranches : List Str := ["main", "master"]

namespace GitPlane

/-- The commit of what is staged, where `git status` reports anything. -/
def commitStaged (git : Git G T) (status message : Str) : GitM G Unit :=
  if status.isEmpty then pure ()
  else do
    let _ ← git.checked (commitArgs message)
    pure ()

section Commands

variable [Unicode]

def assertNotProtected (plane : GitPlane) (branch : Str) : GitM G Unit :=
  if plane.protectedBranches.contains branch then
    GitM.fail (.protectedBranch (reprText branch ++ " is a protected branch".toList))
  else pure ()

def commitAll (plane : GitPlane) (git : Git G T) (branch message : Str) : GitM G Str := do
  plane.assertNotProtected branch
  let _ ← git.checked addArgs
  let status ← git.checked statusArgs
  commitStaged git (strip status.stdout) message
  let revision ← git.checked headArgs
  return strip revision.stdout

def diff (plane : GitPlane) (git : Git G T) (branch baseBranch : Str) (limit : Nat := 20000) :
    GitM G Str := do
  plane.assertNotProtected branch
  -- Both exit codes are passed over.
  let _ ← git.run addArgs
  let result ← git.run (diffArgs baseBranch)
  return result.stdout.take limit

end Commands

end GitPlane

section Returning

variable {git : Git G T} {plane : GitPlane} {state after : G} {branch baseBranch message : Str}

theorem checked_returns_iff {args : List Str} {completed : CompletedProcess} :
    git.checked args state = (.ok completed, after) ↔
      git.run args state = (.ok completed, after) ∧ completed.returncode = 0 := by
  unfold Git.checked
  rw [git_bind_returns_iff]
  constructor
  · rintro ⟨result, middle, ran, rest⟩
    split_ifs at rest with succeeded
    · obtain ⟨rfl, rfl⟩ := git_pure_returns_iff.mp rest
      exact ⟨ran, succeeded⟩
    · cases rest
  · rintro ⟨ran, succeeded⟩
    refine ⟨completed, after, ran, ?_⟩
    rw [if_pos succeeded]
    exact git_pure_returns_iff.mpr ⟨rfl, rfl⟩

theorem commit_staged_head {status : CompletedProcess} (succeeded : status.returncode = 0)
    (reported : git.run statusArgs state = (.ok status, state))
    (returned : GitPlane.commitStaged git (strip status.stdout) message state = (.ok (), after)) :
    git.head after = git.index state := by
  unfold GitPlane.commitStaged at returned
  split_ifs at returned with nothing
  · obtain ⟨_, rfl⟩ := git_pure_returns_iff.mp returned
    exact git.clean _ status reported succeeded (List.isEmpty_iff.mp nothing)
  · obtain ⟨committed, middle, ran, rest⟩ := git_bind_returns_iff.mp returned
    obtain ⟨_, rfl⟩ := git_pure_returns_iff.mp rest
    obtain ⟨ran, succeeded⟩ := checked_returns_iff.mp ran
    exact git.commits message state committed _ ran succeeded

variable [Unicode]

theorem protection_passes
    (returned : (plane.assertNotProtected branch : GitM G Unit) state = (.ok (), after)) :
    after = state := by
  unfold GitPlane.assertNotProtected at returned
  split_ifs at returned
  · cases returned
  · exact (git_pure_returns_iff.mp returned).2

theorem diff_returns {limit : Nat} {text : Str}
    (returned : plane.diff git branch baseBranch limit state = (.ok text, after)) :
    ∃ added shown, git.run addArgs state = (.ok added, after) ∧
      git.run (diffArgs baseBranch) after = (.ok shown, after) ∧ text = shown.stdout.take limit := by
  obtain ⟨_, opened, passed, adding⟩ := git_bind_returns_iff.mp returned
  obtain rfl := protection_passes passed
  obtain ⟨added, staged, ran, comparing⟩ := git_bind_returns_iff.mp adding
  obtain ⟨shown, last, compared, ending⟩ := git_bind_returns_iff.mp comparing
  obtain ⟨rfl, rfl⟩ := git_pure_returns_iff.mp ending
  have reads := git.diff_reads baseBranch staged
  rw [compared] at reads
  obtain rfl : after = staged := reads
  exact ⟨added, shown, ran, compared, rfl⟩

theorem commit_all_returns {revision : Str}
    (returned : plane.commitAll git branch message state = (.ok revision, after)) :
    ∃ added staged, git.run addArgs state = (.ok added, staged) ∧ added.returncode = 0 ∧
      git.head after = git.files state := by
  obtain ⟨_, opened, passed, adding⟩ := git_bind_returns_iff.mp returned
  obtain rfl := protection_passes passed
  obtain ⟨added, staged, ran, asking⟩ := git_bind_returns_iff.mp adding
  obtain ⟨ran, succeeded⟩ := checked_returns_iff.mp ran
  obtain ⟨status, same, reported, committing⟩ := git_bind_returns_iff.mp asking
  obtain ⟨reported, read⟩ := checked_returns_iff.mp reported
  obtain ⟨_, committed, commits, naming⟩ := git_bind_returns_iff.mp committing
  obtain ⟨completed, last, found, ending⟩ := git_bind_returns_iff.mp naming
  obtain ⟨_, rfl⟩ := git_pure_returns_iff.mp ending
  have unread := git.status_reads staged
  rw [reported] at unread
  obtain rfl : same = staged := unread
  have unnamed := git.head_reads committed
  rw [(checked_returns_iff.mp found).1] at unnamed
  obtain rfl : after = committed := unnamed
  refine ⟨added, same, ran, succeeded, ?_⟩
  rw [commit_staged_head read reported commits]
  exact (git.stages_all _ added same ran succeeded).2

/-- A diff and the commit behind it are of one content: where the diff could not stage the worktree,
the commit cannot either. -/
theorem diff_committed {limit : Nat} {text branch' revision : Str} {middle : G}
    (diffed : plane.diff git branch baseBranch limit state = (.ok text, middle))
    (committed : plane.commitAll git branch' message middle = (.ok revision, after)) :
    git.head after = git.files state ∧ git.Shows baseBranch limit (git.files state) text := by
  obtain ⟨added, shown, ran, compared, rfl⟩ := diff_returns diffed
  obtain ⟨again, staged, ran_again, succeeded, head⟩ := commit_all_returns committed
  by_cases failed : added.returncode = 0
  · obtain ⟨files, index⟩ := git.stages_all state added middle ran failed
    exact ⟨head.trans files, middle, shown, index, compared, rfl⟩
  · have same : middle = state := by
      apply git.stages_none state _ middle ran
      intro completed returned
      cases returned
      exact failed
    subst same
    rw [ran] at ran_again
    cases ran_again
    exact absurd succeeded failed

end Returning

end DearAgent.Gitplane
