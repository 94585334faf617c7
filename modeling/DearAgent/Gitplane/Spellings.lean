import DearAgent.Gitplane.Mirrors

/-!
# The spellings of a remote

A policy is looked up by a part of the URL of a repository. Two URLs of one remote are
found by the same policies when this part is the same, which the spelling decides.
-/

namespace DearAgent

open DearAgent.Lib.Text DearAgent.Lib.Url

set_option autoImplicit false

namespace Glob

def escape : Str → Str
  | [] => []
  | c :: text => if wildcard c then '[' :: c :: ']' :: escape text else c :: escape text

theorem wildcard_cases {c : Char} (wild : wildcard c = true) : c = '*' ∨ c = '?' ∨ c = '[' := by
  unfold wildcard at wild
  simpa [or_assoc] using wild

theorem close_wildcard_set {c : Char} (wild : wildcard c = true) (rest : Str) :
    closeSet (c :: ']' :: rest) = some (false, [c], rest) := by
  rcases wildcard_cases wild with rfl | rfl | rfl <;> rfl

theorem tokenize_wildcard_set {c : Char} (wild : wildcard c = true) (fuel : Nat) (rest : Str) :
    tokenizeFrom (fuel + 1) ('[' :: c :: ']' :: rest) =
      .charSet false [.single c] :: tokenizeFrom fuel rest := by
  rw [tokenizeFrom, if_neg (by decide), if_neg (by decide), if_pos rfl, close_wildcard_set wild]
  rfl

theorem tokenize_plain {c : Char} (plain : wildcard c = false) (fuel : Nat) (rest : Str) :
    tokenizeFrom (fuel + 1) (c :: rest) = .literal c :: tokenizeFrom fuel rest := by
  simp only [wildcard, Bool.or_eq_false_iff, decide_eq_false_iff_not] at plain
  rw [tokenizeFrom, if_neg plain.1.1, if_neg plain.1.2, if_neg plain.2]

theorem match_escape (text name : Str) (fuel : Nat) (enough : (escape text).length ≤ fuel) :
    matchTokens (tokenizeFrom fuel (escape text)) name = decide (name = text) := by
  induction text generalizing name fuel with
  | nil =>
      cases fuel with
      | zero => cases name <;> rfl
      | succ fuel => cases name <;> rfl
  | cons c text ih =>
      cases wild : wildcard c with
      | true =>
          rw [escape, if_pos wild] at enough ⊢
          cases fuel with
          | zero => simp at enough
          | succ fuel =>
              rw [tokenize_wildcard_set wild]
              cases name with
              | nil => rfl
              | cons d name =>
                  have later := ih name fuel (by simp at enough; omega)
                  simp only [matchTokens, later]
                  simp [SetItem.has]
      | false =>
          rw [escape, if_neg (by simp [wild])] at enough ⊢
          cases fuel with
          | zero => simp at enough
          | succ fuel =>
              rw [tokenize_plain wild]
              cases name with
              | nil => rfl
              | cons d name =>
                  have later := ih name fuel (by simp at enough; omega)
                  simp only [matchTokens, later]
                  simp [eq_comm]

theorem fnmatch_escape (text name : Str) : fnmatch name (escape text) = decide (name = text) :=
  match_escape text name _ (Nat.le_refl _)

theorem mem_escape {c : Char} {text : Str} (member : c ∈ escape text) :
    c ∈ text ∨ c = '[' ∨ c = ']' := by
  induction text with
  | nil => cases member
  | cons d text ih =>
      unfold escape at member
      split_ifs at member with wild
      · simp only [List.mem_cons] at member ⊢
        rcases member with bracket | same | closing | inside
        · exact .inr (.inl bracket)
        · exact .inl (.inl same)
        · exact .inr (.inr closing)
        · rcases ih inside with inText | brackets
          · exact .inl (.inr inText)
          · exact .inr brackets
      · simp only [List.mem_cons] at member ⊢
        rcases member with same | inside
        · exact .inl (.inl same)
        · rcases ih inside with inText | brackets
          · exact .inl (.inr inText)
          · exact .inr brackets

end Glob

section Looking

variable [Unicode]

/-- A URL in lower case, without the slashes and the suffix at its end. -/
def bareUrl (url : Str) : Str :=
  dropGitSuffix (rstripWhere (fun c => c = '/') (Unicode.lower (strip url)))

/-- The part of a URL by which policies are looked up: what follows `github.com/`, else what
follows the first colon of a URL that starts with `git@`, else all of it. -/
inductive Shows (url : Str) : Str → Prop
  | github (front rest : Str) (found : cut "github.com/" (bareUrl url) = some (front, rest)) :
      Shows url rest
  | account (front rest : Str) (elsewhere : contains "github.com/" (bareUrl url) = false)
      (scp : startswith (bareUrl url) "git@" = true)
      (found : cut ":" (bareUrl url) = some (front, rest)) : Shows url rest
  | whole (elsewhere : contains "github.com/" (bareUrl url) = false)
      (plain : startswith (bareUrl url) "git@" = false ∨ contains ":" (bareUrl url) = false) :
      Shows url (bareUrl url)

theorem normalize_repo_eq (url : Str) :
    normalizeRepo url = (((cut "github.com/" (bareUrl url)).or
      (if startswith (bareUrl url) "git@" then cut ":" (bareUrl url) else none)).map
        Prod.snd).getD (bareUrl url) := by
  have bare : dropGitSuffix (rstripWhere (fun c => c = '/') (Unicode.lower (strip url))) =
      bareUrl url := rfl
  unfold normalizeRepo
  simp only [bare]
  cases cut "github.com/".toList (bareUrl url) with
  | some parts => rfl
  | none =>
      rw [Option.none_or]
      cases (if startswith (bareUrl url) "git@".toList then cut ":".toList (bareUrl url) else none) with
      | some parts => rfl
      | none => rfl

theorem shows_normalized (url : Str) : Shows url (normalizeRepo url) := by
  rw [normalize_repo_eq]
  cases hosted : cut "github.com/" (bareUrl url) with
  | some parts => exact .github parts.1 parts.2 hosted
  | none =>
      have elsewhere : contains "github.com/" (bareUrl url) = false := by
        rw [contains, hosted]
        rfl
      rw [Option.none_or]
      by_cases scp : startswith (bareUrl url) "git@" = true
      · rw [if_pos scp]
        cases found : cut ":" (bareUrl url) with
        | some parts => exact .account parts.1 parts.2 elsewhere scp found
        | none =>
            apply Shows.whole elsewhere
            right
            rw [contains, found]
            rfl
      · rw [if_neg scp]
        exact .whole elsewhere (.inl (Bool.of_not_eq_true scp))

theorem Shows.unique {url part part' : Str} (shows' : Shows url part) (other : Shows url part') :
    part = part' := by
  have absent : ∀ {separator : Str} {parts : Str × Str}, cut separator (bareUrl url) = some parts →
      contains separator (bareUrl url) ≠ false := by
    intro separator parts found without
    rw [contains, found] at without
    cases without
  cases shows' with
  | github front rest found =>
      cases other with
      | github front' rest' found' =>
          rw [found] at found'
          exact congrArg Prod.snd (Option.some.inj found')
      | account front' rest' elsewhere => exact absurd elsewhere (absent found)
      | whole elsewhere => exact absurd elsewhere (absent found)
  | account front rest elsewhere scp found =>
      cases other with
      | github front' rest' found' => exact absurd elsewhere (absent found')
      | account front' rest' _ _ found' =>
          rw [found] at found'
          exact congrArg Prod.snd (Option.some.inj found')
      | whole _ plain =>
          cases plain with
          | inl other =>
              rw [scp] at other
              cases other
          | inr without => exact absurd without (absent found)
  | whole elsewhere plain =>
      cases other with
      | github front' rest' found' => exact absurd elsewhere (absent found')
      | account front' rest' _ scp found' =>
          cases plain with
          | inl other =>
              rw [scp] at other
              cases other
          | inr without => exact absurd without (absent found')
      | whole => rfl

def policyFor (part : Str) : ProjectPolicy where
  project := "acme"
  repos := [mirrorUrl 'a' (Glob.escape part)]

theorem policy_for_matches (url other : Str) :
    (policyFor (normalizeRepo url)).«matches» other = decide (normalizeRepo other = normalizeRepo url) := by
  have fixed : ∀ c ∈ Glob.escape (normalizeRepo url), Unicode.lower [c] = [c] := by
    intro c member
    rcases Glob.mem_escape member with inPart | rfl | rfl
    · exact Unicode.fixed_of_lower _ c (normalize_repo_lower url c inPart)
    · exact lower_ascii_char '[' (by decide) (by decide)
    · exact lower_ascii_char ']' (by decide) (by decide)
  have pattern : normalizeRepo (mirrorUrl 'a' (Glob.escape (normalizeRepo url))) =
      Glob.escape (normalizeRepo url) := normalize_mirror 'a' (.inl rfl) _ fixed
  have matched : patternMatches (mirrorUrl 'a' (Glob.escape (normalizeRepo url))) other =
      decide (normalizeRepo other = normalizeRepo url) := by
    rw [patternMatches, pattern, Glob.fnmatch_escape]
  rw [ProjectPolicy.«matches», policyFor, List.any_cons, matched]
  exact Bool.or_false _

theorem lookups_agree_iff_shown (url url' : Str) :
    (∀ policies, forRepo policies url = forRepo policies url') ↔
      ∃ part, Shows url part ∧ Shows url' part := by
  constructor
  · intro same
    refine ⟨normalizeRepo url, shows_normalized url, ?_⟩
    have found : forRepo [policyFor (normalizeRepo url)] url = some (policyFor (normalizeRepo url)) := by
      rw [forRepo, List.find?_cons, policy_for_matches, decide_eq_true rfl]
    rw [same [policyFor (normalizeRepo url)], forRepo] at found
    have matched := List.find?_some found
    rw [policy_for_matches] at matched
    rw [← of_decide_eq_true matched]
    exact shows_normalized url'
  · intro shown policies
    obtain ⟨part, first, second⟩ := shown
    have reduced : normalizeRepo url = normalizeRepo url' := by
      rw [(shows_normalized url).unique first, (shows_normalized url').unique second]
    unfold forRepo ProjectPolicy.«matches» patternMatches
    rw [reduced]

variable [NetlocRules]

/-- Two URLs of one remote are found by the same policies. -/
def FoundAlike (url url' : Str) : Prop :=
  ∀ remote, parseRemote url = .ok remote → parseRemote url' = .ok remote →
    ∀ policies, forRepo policies url = forRepo policies url'

/-- Two URLs are found alike exactly when they name no common remote or show the same part. -/
theorem found_alike_iff (url url' : Str) :
    FoundAlike url url' ↔
      ((∃ remote, parseRemote url = .ok remote ∧ parseRemote url' = .ok remote) →
        ∃ part, Shows url part ∧ Shows url' part) := by
  rw [← lookups_agree_iff_shown]
  constructor
  · intro alike common
    obtain ⟨remote, parsed, parsed'⟩ := common
    exact alike remote parsed parsed'
  · intro shown remote parsed parsed'
    exact shown ⟨remote, parsed, parsed'⟩

end Looking

section Example

local instance spellingTables : Unicode := asciiTables

local instance spellingNetlocs : NetlocRules := asciiNetlocs

def disabledWidget : ProjectPolicy where
  project := "widget"
  enabled := false
  repos := ["acme/widget".toList]

/-- The project is found under one spelling of its remote and not under the other. -/
theorem gitlab_found_by_spelling :
    ¬FoundAlike "git@gitlab.com:acme/widget.git" "https://gitlab.com/acme/widget.git" := by
  intro alike
  have same := alike ⟨"gitlab.com", "acme/widget"⟩ (by rfl) (by rfl) [disabledWidget]
  revert same
  decide

end Example

end DearAgent
