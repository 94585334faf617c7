import DearAgent.Normalizer.Fields
import DearAgent.Normalizer.Options

/-!
# Names that git takes for a reference

`is_valid_ref` tests a name by a few characters and affixes. What it does not test is the
rest of the rules of `git check-ref-format`.
-/

namespace DearAgent

open DearAgent.Lib.Text DearAgent.Lib.Dictionaries DearAgent.Queue

set_option autoImplicit false

def isControl (c : Char) : Bool := c.val < 32 || c.val = 127

def componentsOf (name : Str) : List Str := splitAt (fun c => c = '/') name

/-- The rules of `git check-ref-format`, for a name that is no option either. -/
structure GitRef (name : Str) : Prop where
  nonempty : name ≠ []
  undashed : startswith name "-" = false
  unspaced : ∀ c ∈ name, isSpace c = false
  printable : ∀ c ∈ name, isControl c = false
  permitted : ∀ c ∈ name, c ∉ "~^:?*[\\".toList
  unranged : contains ".." name = false
  unlogged : contains "@\x7b" name = false
  unslashed : startswith name "/" = false ∧ endswith name "/" = false
  single : contains "//" name = false
  unpointed : endswith name "." = false
  components : ∀ component ∈ componentsOf name,
    startswith component "." = false ∧ endswith component ".lock" = false

/-- The rules that `is_valid_ref` tests, its forbidden characters among them. -/
structure Tested (name : Str) : Prop where
  nonempty : name ≠ []
  undashed : startswith name "-" = false
  unslashed : startswith name "/" = false ∧ endswith name "/" = false
  unpointed : endswith name "." = false
  unranged : contains ".." name = false
  unlogged : contains "@\x7b" name = false
  permitted : ∀ c ∈ name, c ∉ refForbidden

/-- The rules that nobody tests. -/
structure Unmissed (name : Str) : Prop where
  spaces : ∀ c ∈ name, isSpace c = true → c = ' '
  printable : ∀ c ∈ name, isControl c = false
  single : contains "//" name = false
  components : ∀ component ∈ componentsOf name,
    startswith component "." = false ∧ endswith component ".lock" = false

theorem is_valid_ref_iff (name : Str) : isValidRef name = true ↔ Tested name := by
  unfold isValidRef
  split_ifs with affixes inside
  · apply iff_of_false id
    intro tested
    rw [List.isEmpty_eq_false_iff.mpr tested.nonempty, tested.undashed, tested.unslashed.1,
      tested.unslashed.2] at affixes
    cases affixes
  · apply iff_of_false id
    intro tested
    rw [tested.unpointed, tested.unranged, tested.unlogged] at inside
    cases inside
  · simp only [Bool.or_eq_true, not_or, Bool.not_eq_true, List.isEmpty_eq_false_iff] at affixes inside
    constructor
    · intro chars
      exact ⟨affixes.1.1.1, affixes.1.1.2, ⟨affixes.1.2, affixes.2⟩, inside.1.1, inside.1.2, inside.2,
        by simpa using chars⟩
    · intro tested
      simpa using tested.permitted

theorem git_ref_iff_unmissed {name : Str} (tested : Tested name) :
    GitRef name ↔ Unmissed name := by
  constructor
  · intro ref
    refine ⟨fun c member space => ?_, ref.printable, ref.single, ref.components⟩
    rw [ref.unspaced c member] at space
    cases space
  · intro unmissed
    have listed : ("~^:?*[\\".toList.all fun c => refForbidden.contains c) = true := by decide
    have forbidden : ∀ c ∈ "~^:?*[\\".toList, c ∈ refForbidden :=
      fun c member => List.contains_iff_mem.mp (List.all_eq_true.mp listed c member)
    refine ⟨tested.nonempty, tested.undashed, fun c member => ?_, unmissed.printable,
      fun c member never => tested.permitted c member (forbidden c never), tested.unranged,
      tested.unlogged, tested.unslashed, unmissed.single, tested.unpointed, unmissed.components⟩
    rw [← Bool.not_eq_true]
    intro space
    have blank : ' ' ∈ refForbidden := by decide
    have forbids := tested.permitted c member
    rw [unmissed.spaces c member space] at forbids
    exact forbids blank

theorem normalized_base [Unicode] {message : RawMessage} {recipient : Option Str}
    {result : NormalizedTask} (normalized : normalize message recipient = .ok result) :
    result.spec.baseBranch = baseBranchOf (lastValue "base" message.body) := by
  rw [(normalized_spec normalized).2, specOf, get_parse_body]

/-- What a message can have for a base branch breaks the rules exactly if the value of its last
base line passes those that are tested and breaks one that nobody tests. -/
theorem normalized_git_ref_iff [Unicode] {message : RawMessage} {recipient : Option Str}
    {result : NormalizedTask} (normalized : normalize message recipient = .ok result) :
    GitRef result.spec.baseBranch ↔
      ∀ value, lastValue "base" message.body = some value → Tested value → Unmissed value := by
  have default_ref : GitRef defaultBaseBranch := by
    refine (git_ref_iff_unmissed ((is_valid_ref_iff _).mp (by decide))).mpr ⟨?_, ?_, by decide, ?_⟩
    · exact every_char (by decide)
    · exact every_char (by decide)
    · decide
  rw [normalized_base normalized]
  unfold baseBranchOf
  cases named : lastValue "base" message.body with
  | none =>
      simp only [Option.getD_none]
      apply iff_of_true
      · split_ifs <;> exact default_ref
      · intro value never
        cases never
  | some value =>
      simp only [Option.getD_some]
      split_ifs with valid
      · have tested := (is_valid_ref_iff value).mp valid
        rw [git_ref_iff_unmissed tested]
        constructor
        · rintro unmissed _ ⟨⟩ _
          exact unmissed
        · exact fun all => all value rfl tested
      · apply iff_of_true default_ref
        rintro _ ⟨⟩ tested
        exact absurd ((is_valid_ref_iff value).mpr tested) valid

/-- The check admits names that git takes, and base branches with them, exactly where no rule
is broken that it does not test. -/
theorem admitted_refs_iff [Unicode] :
    (∀ name, (isValidRef name = true → GitRef name) ↔ (Tested name → Unmissed name)) ∧
      (∀ message recipient result, normalize message recipient = .ok result →
        (GitRef result.spec.baseBranch ↔
          ∀ value, lastValue "base" message.body = some value → Tested value → Unmissed value)) ∧
      ∀ branch path baseBranch command, worktreeCommand branch path baseBranch = .ok command →
        (GitRef baseBranch ↔ Unmissed baseBranch) := by
  refine ⟨fun name => ?_, fun message recipient result => normalized_git_ref_iff,
    fun branch path baseBranch command created => ?_⟩
  · rw [is_valid_ref_iff]
    exact imp_congr_right git_ref_iff_unmissed
  · unfold worktreeCommand at created
    split_ifs at created with valid
    exact git_ref_iff_unmissed ((is_valid_ref_iff _).mp (by simpa using valid))

def tabbedMessage : RawMessage where
  transportId := "m1"
  body := "Repo: https://github.com/o/w\nbase: main\tv1.lock\nfix it\n"

def tabbedSpec : TaskSpec where
  repoUrl := "https://github.com/o/w"
  instructions := "fix it"
  baseBranch := "main\tv1.lock"

theorem tabbed_branch_accepted :
    let _ := asciiTables
    normalize tabbedMessage none = .ok ⟨taskOf tabbedMessage tabbedSpec, tabbedSpec⟩ ∧
      isValidRef tabbedSpec.baseBranch = true ∧ ¬GitRef tabbedSpec.baseBranch := by
  refine ⟨by decide, by decide, fun ref => ?_⟩
  have spaced := ref.unspaced '\t' (by decide)
  exact absurd spaced (by decide)

end DearAgent
