import DearAgent.Lib.Text

/-!
# Project policies

`policy.py`: the policy record, how a repository is reduced to `owner/repo`,
and how a pattern of the operator is matched against it.
-/

namespace DearAgent

open DearAgent.Lib.Text

set_option autoImplicit false

structure ProjectPolicy where
  project : Str
  enabled : Bool := true
  repos : List Str := []
  baseBranch : Option Str := none
  harness : Option Str := none
  model : Option Str := none
  verifyAllow : List Str := []
  source : Option Str := none
deriving DecidableEq

/-!
## `fnmatch`
-/

namespace Glob

inductive SetItem
  | single (c : Char)
  | range (first last : Char)

def SetItem.has (c : Char) : SetItem → Bool
  | .single d => c = d
  | .range first last => first ≤ c && c ≤ last

inductive Token
  | literal (c : Char)
  | anyChar
  | anyText
  | charSet (negated : Bool) (items : List SetItem)

def setItems : Str → List SetItem
  | first :: '-' :: last :: rest => .range first last :: setItems rest
  | c :: rest => .single c :: setItems rest
  | [] => []

/-- A set after its `[`: the body, which may start with `]`, and what follows
the closing `]`; `none` when the set is not closed. -/
def closeSet (text : Str) : Option (Bool × Str × Str) :=
  let negated := text.head? = some '!'
  let body := if negated then text.tail else text
  let opening := if body.head? = some ']' then body.take 1 else []
  let inner := body.drop opening.length
  let rest := inner.dropWhile fun c => c ≠ ']'
  if rest.isEmpty then none
  else some (negated, opening ++ inner.takeWhile (fun c => c ≠ ']'), rest.tail)

def tokenizeFrom : Nat → Str → List Token
  | 0, _ => []
  | _, [] => []
  | fuel + 1, c :: rest =>
      if c = '*' then .anyText :: tokenizeFrom fuel rest
      else if c = '?' then .anyChar :: tokenizeFrom fuel rest
      else if c = '[' then
        match closeSet rest with
        | none => .literal c :: tokenizeFrom fuel rest
        | some (negated, body, after) =>
            .charSet negated (setItems body) :: tokenizeFrom fuel after
      else .literal c :: tokenizeFrom fuel rest

def tokenize (pattern : Str) : List Token := tokenizeFrom pattern.length pattern

def matchTokens : List Token → Str → Bool
  | [], text => text.isEmpty
  | .literal c :: rest, text =>
      match text with
      | [] => false
      | d :: more => c = d && matchTokens rest more
  | .anyChar :: rest, text =>
      match text with
      | [] => false
      | _ :: more => matchTokens rest more
  | .charSet negated items :: rest, text =>
      match text with
      | [] => false
      | d :: more => (negated != items.any (SetItem.has d)) && matchTokens rest more
  | .anyText :: rest, text => text.tails.any (matchTokens rest)

/-- `fnmatch.fnmatch(name, pattern)`, where the file system keeps the case. -/
def fnmatch (name pattern : Str) : Bool := matchTokens (tokenize pattern) name

def wildcard (c : Char) : Bool := c = '*' || c = '?' || c = '['

def WildcardFree (pattern : Str) : Prop := ∀ c ∈ pattern, wildcard c = false

instance : DecidablePred WildcardFree := fun pattern =>
  inferInstanceAs (Decidable (∀ c ∈ pattern, wildcard c = false))

theorem tokenize_wildcard_free {pattern : Str} (plain : WildcardFree pattern) :
    tokenize pattern = pattern.map .literal := by
  unfold tokenize
  induction pattern with
  | nil => rfl
  | cons c rest ih =>
      have first := plain c (by simp)
      simp only [wildcard, Bool.or_eq_false_iff, decide_eq_false_iff_not] at first
      rw [List.length_cons, tokenizeFrom, if_neg first.1.1, if_neg first.1.2, if_neg first.2,
        ih fun d member => plain d (by simp [member])]
      rfl

theorem match_literals (pattern name : Str) :
    matchTokens (pattern.map .literal) name = decide (name = pattern) := by
  induction pattern generalizing name with
  | nil => cases name <;> rfl
  | cons c rest ih =>
      cases name with
      | nil => rfl
      | cons d more =>
          simp only [List.map_cons, matchTokens, ih, List.cons.injEq, Bool.decide_and, eq_comm]

theorem fnmatch_wildcard_free {pattern : Str} (plain : WildcardFree pattern) (name : Str) :
    fnmatch name pattern = decide (name = pattern) := by
  unfold fnmatch
  rw [tokenize_wildcard_free plain, match_literals]

end Glob

/-!
## Repositories
-/

/-- `if value.endswith(".git"): value = value[:-4]`. -/
def dropGitSuffix (value : Str) : Str :=
  if endswith value ".git" then value.take (value.length - 4) else value

variable [Unicode]

def normalizeRepo (repo : Str) : Str :=
  let value := dropGitSuffix (rstripWhere (fun c => c = '/') (Unicode.lower (strip repo)))
  match cut "github.com/" value with
  | some parts => parts.2
  | none =>
      match (if startswith value "git@" then cut ":" value else none) with
      | some parts => parts.2
      | none => value

def patternMatches (pattern repo : Str) : Bool :=
  Glob.fnmatch (normalizeRepo repo) (normalizeRepo pattern)

namespace ProjectPolicy

def «matches» (policy : ProjectPolicy) (repo : Str) : Bool :=
  policy.repos.any fun pattern => patternMatches pattern repo

end ProjectPolicy

/-- `_for_repo`: the first policy that matches. -/
def forRepo (policies : List ProjectPolicy) (repo : Str) : Option ProjectPolicy :=
  policies.find? fun policy => policy.«matches» repo

end DearAgent
