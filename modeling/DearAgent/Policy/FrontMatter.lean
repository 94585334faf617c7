import DearAgent.Errors
import DearAgent.Policy

/-!
# The front matter of a policy file

`parse_policy` takes the front matter to end at the next three hyphens, wherever they
stand.
-/

namespace DearAgent

open DearAgent.Lib.Text

set_option autoImplicit false

/-- What Python does with the objects that `yaml.safe_load` returns. -/
class Loaded (V : Type) where
  truthy : V → Bool
  /-- The object's `get`, if it is a dictionary. -/
  asDict : V → Option (Str → Option V)
  str : V → Except Exn Str
  iter : V → Except Exn (List V)

/-- The policy as it is read; the fields that are not converted are objects still. -/
structure ReadPolicy (V : Type) where
  project : Str
  enabled : Bool
  repos : List Str
  baseBranch : Option V
  harness : Option V
  model : Option V
  verifyAllow : List Str
  source : Option Str
deriving DecidableEq

section Reading

variable {V : Type} [Loaded V]

def texts : Option V → Except Exn (List Str)
  | none => .ok []
  | some value =>
      if Loaded.truthy value then do
        let items ← Loaded.iter value
        items.mapM Loaded.str
      else .ok []

/-- `parse_policy` once the front matter is loaded. -/
def policyFrom (loaded : Except Exn V) (source : Option Str) : Except Exn (ReadPolicy V) := do
  let data ← loaded
  let fields := if Loaded.truthy data then Loaded.asDict data else some fun _ => none
  match fields.bind fun get => (get "project").map fun project => (get, project) with
  | none => .error (.valueError "policy front matter needs a 'project'")
  | some (get, project) => do
      let project ← Loaded.str project
      let repos ← texts (get "repos")
      let verifyAllow ← texts (get "verify_allow")
      return {
        project := project
        enabled := ((get "enabled").map Loaded.truthy).getD true
        repos := repos
        baseBranch := get "base_branch"
        harness := get "harness"
        model := get "model"
        verifyAllow := verifyAllow
        source := source }

def partition (separator text : Str) : Str × Str := (cut separator text).getD (text, [])

/-- `parse_policy`, where `load` is `yaml.safe_load`. -/
def parsePolicy (load : Str → Except Exn V) (text : Str) (source : Option Str) :
    Except Exn (ReadPolicy V) :=
  if startswith (lstripWhere isSpace text) "---" then
    let remainder := (partition "---" text).2
    policyFrom (load (partition "---" remainder).1) source
  else .error (.valueError "policy markdown must start with a YAML front matter block")

end Reading

def policyFile (frontMatter prose : Str) : Str :=
  "---\n".toList ++ (frontMatter ++ ("\n---\n".toList ++ prose))

def betweenDelimiters (frontMatter : Str) : Str := '\n' :: (frontMatter ++ ['\n'])

/-- Whatever the prose is and whatever loading a text means, the policy is read from what
stands between the delimiters: the front matter, where the line breaks around it change
nothing, and nothing else. -/
def ReadsFrontMatter (frontMatter : Str) : Prop :=
  ∀ (V : Type) [Loaded V] (load : Str → Except Exn V) (prose : Str) (source : Option Str),
    parsePolicy load (policyFile frontMatter prose) source =
        policyFrom (load (betweenDelimiters frontMatter)) source ∧
      (load (betweenDelimiters frontMatter) = load frontMatter →
        parsePolicy load (policyFile frontMatter prose) source = policyFrom (load frontMatter) source)

section Lines

variable {separator : Str}

theorem prefix_before_newline (separator first rest : Str) (one_line : '\n' ∉ separator) :
    separator.isPrefixOf (first ++ '\n' :: rest) = separator.isPrefixOf first := by
  induction separator generalizing first with
  | nil => simp
  | cons c more ih =>
      have apart : c ≠ '\n' := fun same => one_line (same ▸ List.mem_cons_self)
      have later : '\n' ∉ more := fun member => one_line (List.mem_cons_of_mem _ member)
      cases first with
      | nil => simp [List.isPrefixOf, apart]
      | cons d after => rw [List.cons_append, List.isPrefixOf, List.isPrefixOf, ih after later]

theorem cut_newline (first rest : Str) (some_char : separator ≠ []) (one_line : '\n' ∉ separator) :
    cut separator (first ++ '\n' :: rest) =
      ((cut separator first).map fun parts => (parts.1, parts.2 ++ '\n' :: rest)).or
        ((cut separator rest).map fun parts => (first ++ '\n' :: parts.1, parts.2)) := by
  induction first with
  | nil =>
      have apart : separator.isPrefixOf ('\n' :: rest) = false := by
        have short := prefix_before_newline separator [] rest one_line
        rw [List.nil_append] at short
        rw [short]
        cases separator with
        | nil => exact absurd rfl some_char
        | cons c more => rfl
      have missed : ¬separator.isPrefixOf ('\n' :: rest) = true := Bool.eq_false_iff.mp apart
      rw [List.nil_append, cut.eq_2, if_neg missed, cut.eq_1, if_neg some_char]
      rfl
  | cons c more ih =>
      have same := prefix_before_newline separator (c :: more) rest one_line
      rw [List.cons_append] at same
      rw [List.cons_append, cut, cut, same]
      by_cases here : separator.isPrefixOf (c :: more) = true
      · rw [if_pos here, if_pos here]
        have inside := (List.isPrefixOf_iff_prefix.mp here).length_le
        have dropped : (c :: more ++ '\n' :: rest).drop separator.length =
            (c :: more).drop separator.length ++ '\n' :: rest :=
          List.drop_append_of_le_length inside
        rw [List.cons_append] at dropped
        rw [dropped]
        rfl
      · rw [if_neg here, if_neg here, ih, Option.map_or, Option.map_map, Option.map_map,
          Option.map_map]
        rfl

theorem cut_shorter {text : Str} {parts : Str × Str} (some_char : separator ≠ [])
    (found : cut separator text = some parts) : parts.1.length < text.length := by
  induction text generalizing parts with
  | nil =>
      rw [cut, if_neg some_char] at found
      cases found
  | cons c rest ih =>
      rw [cut] at found
      split_ifs at found with here
      · obtain rfl := Option.some.inj found
        exact Nat.succ_pos _
      · obtain ⟨later, located, rfl⟩ := Option.map_eq_some_iff.mp found
        exact Nat.succ_lt_succ (ih located)

end Lines

theorem parse_policy_file {V : Type} [Loaded V] (load : Str → Except Exn V)
    (frontMatter prose : Str) (source : Option Str) :
    parsePolicy load (policyFile frontMatter prose) source =
      policyFrom (load (((cut "---" frontMatter).map fun parts => '\n' :: parts.1).getD
        (betweenDelimiters frontMatter))) source := by
  have opening : (partition "---" (policyFile frontMatter prose)).2 =
      '\n' :: (frontMatter ++ '\n' :: ("---\n".toList ++ prose)) := rfl
  have closing : cut "---" ("---\n".toList ++ prose) = some ([], '\n' :: prose) := rfl
  have some_char : "---".toList ≠ [] := by decide
  have one_line : '\n' ∉ "---".toList := by decide
  have found := cut_newline [] (frontMatter ++ '\n' :: ("---\n".toList ++ prose)) some_char one_line
  rw [List.nil_append, cut_newline frontMatter _ some_char one_line, closing] at found
  have begins : startswith (lstripWhere isSpace (policyFile frontMatter prose)) "---" = true := rfl
  unfold parsePolicy
  dsimp only
  rw [if_pos begins, opening]
  unfold partition
  rw [found]
  cases cut "---" frontMatter with
  | none => rfl
  | some parts => rfl

/-- Every text is read as the front matter exactly if it has no three hyphens in a row. -/
theorem reads_front_matter_iff (frontMatter : Str) :
    ReadsFrontMatter frontMatter ↔ contains "---" frontMatter = false := by
  have absent_iff : contains "---" frontMatter = false ↔ cut "---" frontMatter = none :=
    Option.isSome_eq_false_iff.trans Option.isNone_iff_eq_none
  rw [absent_iff]
  constructor
  · intro reads
    cases found : cut "---" frontMatter with
    | none => rfl
    | some parts =>
        let _ : Loaded Unit := ⟨fun _ => true, fun _ => none, fun _ => .ok [], fun _ => .ok []⟩
        have same := (reads Unit (fun text => .error (.valueError text)) [] none).1
        rw [parse_policy_file, found] at same
        have equal : '\n' :: parts.1 = betweenDelimiters frontMatter :=
          Exn.valueError.inj (Except.error.inj same)
        have shorter := cut_shorter (by decide) found
        have lengths := congrArg List.length equal
        rw [betweenDelimiters, List.length_cons, List.length_cons, List.length_append] at lengths
        omega
  · intro absent V _ load prose source
    rw [parse_policy_file, absent]
    constructor
    · rfl
    · intro unchanged
      exact congrArg (policyFrom · source) unchanged

/-- A comment with three hyphens, and a line after it that disables the project. -/
def commentedFrontMatter : Str := "project: lab # --- see below\nenabled: false"

/-- No line is a delimiter, and what follows the hyphens of the comment is not read. -/
theorem comment_ends_front_matter :
    "---".toList ∉ splitlines commentedFrontMatter ∧ ¬ReadsFrontMatter commentedFrontMatter := by
  constructor
  · decide
  · intro reads
    let _ : Loaded Unit := ⟨fun _ => true, fun _ => none, fun _ => .ok [], fun _ => .ok []⟩
    have same := (reads Unit (fun text => .error (.valueError text)) [] none).1
    have read : parsePolicy (fun text => (.error (.valueError text) : Except Exn Unit))
        (policyFile commentedFrontMatter []) none =
          .error (.valueError "\nproject: lab # ") := by
      decide
    rw [read] at same
    exact absurd (Exn.valueError.inj (Except.error.inj same)) (by decide)

end DearAgent
