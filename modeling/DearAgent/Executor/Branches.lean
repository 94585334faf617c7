import DearAgent.Executor
import DearAgent.Normalizer.Refs
import DearAgent.Lib.Paths
import DearAgent.Lib.Sha2

/-!
# The branch and the worktree of a task

`_slug` names a task, `Worktree.create` makes a branch and a path of the name, and the guard
of `GitPlane` looks the branch up among the protected ones.
-/

namespace DearAgent

open DearAgent.Lib.Text DearAgent.Lib.CodePoints DearAgent.Lib.Paths DearAgent.Queue

set_option autoImplicit false

/-- A digest that is written in 64 hexadecimal digits. -/
class Sha256Hex extends Sha256 where
  hexdigest_length : ∀ text, (hexdigest text).length = 64
  hexdigest_hex : ∀ text, ∀ c ∈ hexdigest text, c ∈ "0123456789abcdef".toList

/-- The digests of `hashlib`. -/
@[reducible] def hashlibDigests : Sha256Hex where
  hexdigest := Lib.Sha2.hexdigest
  hexdigest_length := Lib.Sha2.hexdigest_length
  hexdigest_hex := Lib.Sha2.hexdigest_hex

/-- The branch of `Worktree.create`. -/
def branchOf (slug : Str) : Str :=
  if startswith slug "dear-agent/" then slug else "dear-agent/".toList ++ slug

/-- The path of `Worktree.create`, below the resolved root. -/
def worktreePath (root : Path) (slug : Str) : Path := joinPath root (ofText slug)

def assertNotProtected [Unicode] (protectedBranches : List Str) (branch : Str) : Except Exn Unit :=
  if protectedBranches.contains branch then
    .error (.protectedBranch (reprText branch ++ " is a protected branch".toList))
  else .ok ()

def shortDigest [Sha256] (task : Task) : Str := (Sha256.hexdigest task.id).take 8

section Slugs

variable [Unicode] [Sha256Hex]

def isComponentChar (c : Char) : Bool := Unicode.isAlnum c || c = '-'

/-- What holds of the branch and the path of a task. -/
structure SafeBranch (task : Task) (root : Path) : Prop where
  shaped : ∃ name, branchOf (TaskExecutor.slug task) =
    "dear-agent/".toList ++ (name ++ '-' :: shortDigest task)
  component : ∀ c ∈ TaskExecutor.slug task, isComponentChar c = true
  hexadecimal : (shortDigest task).length = 8 ∧
    ∀ c ∈ shortDigest task, c ∈ "0123456789abcdef".toList
  valid : isValidRef (branchOf (TaskExecutor.slug task)) = true
  unprotected : ∀ protectedBranches : List Str,
    (∀ name ∈ protectedBranches, startswith name "dear-agent/" = false) →
    assertNotProtected protectedBranches (branchOf (TaskExecutor.slug task)) = .ok ()
  child : worktreePath root (TaskExecutor.slug task) = root ++ [ofText (TaskExecutor.slug task)]

def Apart (first second : Task) : Prop := shortDigest first ≠ shortDigest second

omit [Unicode] in
theorem short_digest_hex (task : Task) :
    (shortDigest task).length = 8 ∧ ∀ c ∈ shortDigest task, c ∈ "0123456789abcdef".toList := by
  constructor
  · rw [shortDigest, List.length_take, Sha256Hex.hexdigest_length]
    rfl
  · exact fun c member => Sha256Hex.hexdigest_hex task.id c (List.mem_of_mem_take member)

omit [Sha256Hex] in
theorem slug_char_of_alphanum {c : Char} (ascii : c.val < 128) (letter : c.isAlphanum = true) :
    isComponentChar c = true := by
  rw [isComponentChar, Unicode.alnum_ascii c ascii, letter]
  rfl

omit [Sha256Hex] in
/-- What a reference must not have, and what divides its components, is in no slug. -/
theorem slug_char_plain {c : Char} (inside : isComponentChar c = true) :
    c ∉ "/.@".toList ++ refForbidden := by
  have symbols : ∀ d ∈ "/.@".toList ++ refForbidden,
      d.val < 128 ∧ d.isAlphanum = false ∧ d ≠ '-' := every_char (by decide)
  intro member
  obtain ⟨ascii, symbol, other⟩ := symbols c member
  rw [isComponentChar, Unicode.alnum_ascii c ascii, symbol] at inside
  simp [other] at inside

theorem slug_shape (task : Task) : ∃ name, TaskExecutor.slug task = name ++ '-' :: shortDigest task ∧
    ∀ c ∈ name, isComponentChar c = true := by
  refine ⟨_, rfl, ?_⟩
  have dashed : ∀ text : Str, ∀ c ∈ text.map (fun c => if Unicode.isAlnum c then c else '-'),
      isComponentChar c = true := by
    intro text c member
    obtain ⟨d, _, rfl⟩ := List.mem_map.mp member
    unfold isComponentChar
    split_ifs with letter
    · simp [letter]
    · simp
  have joined : ∀ pieces : List Str, (∀ piece ∈ pieces, ∀ c ∈ piece, isComponentChar c = true) →
      ∀ c ∈ join "-" pieces, isComponentChar c = true := by
    intro pieces inside c member
    obtain dash | ⟨piece, among, own⟩ := mem_join member
    · have same : c = '-' := List.mem_singleton.mp dash
      simp [isComponentChar, same]
    · exact inside piece among c own
  have default : ∀ c ∈ "task".toList, isComponentChar c = true := by
    have letters : ∀ c ∈ "task".toList, c.val < 128 ∧ c.isAlphanum = true := every_char (by decide)
    exact fun c member => slug_char_of_alphanum (letters c member).1 (letters c member).2
  have chosen : ∀ text : Str, (∀ c ∈ text, isComponentChar c = true) →
      ∀ c ∈ orElse (some text) "task", isComponentChar c = true := by
    intro text inside
    simp only [orElse]
    split_ifs
    · exact default
    · exact inside
  refine chosen _ fun c member => joined _ (fun piece among d inner => ?_) c (List.mem_of_mem_take member)
  exact dashed _ d (mem_split_at _ _ piece (List.mem_of_mem_filter among) d inner)

theorem slug_chars (task : Task) : ∀ c ∈ TaskExecutor.slug task, isComponentChar c = true := by
  obtain ⟨name, same, chars⟩ := slug_shape task
  have hexadecimal : ∀ c ∈ "0123456789abcdef".toList, c.val < 128 ∧ c.isAlphanum = true :=
    every_char (by decide)
  rw [same]
  refine List.forall_mem_append.mpr ⟨chars, List.forall_mem_cons.mpr ⟨by simp [isComponentChar], ?_⟩⟩
  intro c member
  have digit := hexadecimal c ((short_digest_hex task).2 c member)
  exact slug_char_of_alphanum digit.1 digit.2

theorem branch_of_slug (task : Task) :
    branchOf (TaskExecutor.slug task) = "dear-agent/".toList ++ TaskExecutor.slug task := by
  rw [branchOf, if_neg]
  intro starts
  have inside : '/' ∈ TaskExecutor.slug task :=
    (List.isPrefixOf_iff_prefix.mp starts).subset (by decide)
  exact slug_char_plain (slug_chars task '/' inside) (by decide)

theorem slug_ne_nil (task : Task) : TaskExecutor.slug task ≠ [] := by
  obtain ⟨name, same, _⟩ := slug_shape task
  simp [same]

omit [Sha256Hex] in
theorem endswith_of_slug_chars {front component : Str} (nonempty : component ≠ [])
    (chars : ∀ c ∈ component, isComponentChar c = true) {last : Char} (mark : last ∈ "/.@".toList) :
    endswith (front ++ component) [last] = false := by
  rw [← Bool.not_eq_true]
  intro ends
  obtain ⟨before, same⟩ := List.isSuffixOf_iff_suffix.mp ends
  have final : (front ++ component).getLast? = some last := by
    rw [← same]
    simp
  rw [List.getLast?_append_of_ne_nil _ nonempty] at final
  have inside := chars last (List.mem_of_getLast? final)
  exact slug_char_plain inside (List.mem_append_left _ mark)

theorem slug_branch_valid (task : Task) : isValidRef (branchOf (TaskExecutor.slug task)) = true := by
  have chars := slug_chars task
  have nonempty := slug_ne_nil task
  have whole : ∀ c ∈ "dear-agent/".toList ++ TaskExecutor.slug task,
      c ≠ '.' ∧ c ≠ '@' ∧ c ∉ refForbidden := by
    refine List.forall_mem_append.mpr ⟨every_char (by decide), fun c member => ?_⟩
    have plain := slug_char_plain (chars c member)
    rw [List.mem_append, not_or] at plain
    refine ⟨?_, ?_, plain.2⟩ <;>
      · rintro rfl
        exact plain.1 (by decide)
  have unpointed : cut ".." ("dear-agent/".toList ++ TaskExecutor.slug task) = none :=
    cut_absent '.' ['.'] _ fun member => (whole '.' member).1 rfl
  have unlogged : cut "@\x7b" ("dear-agent/".toList ++ TaskExecutor.slug task) = none :=
    cut_absent '@' ['\x7b'] _ fun member => (whole '@' member).2.1 rfl
  rw [branch_of_slug]
  refine (is_valid_ref_iff _).mpr ⟨by simp, rfl, ⟨rfl, ?_⟩, ?_, ?_, ?_, fun c member => ?_⟩
  · exact endswith_of_slug_chars nonempty chars (by decide)
  · exact endswith_of_slug_chars nonempty chars (by decide)
  · rw [contains, unpointed]
    rfl
  · rw [contains, unlogged]
    rfl
  · exact (whole c member).2.2

theorem slug_path (task : Task) (root : Path) :
    worktreePath root (TaskExecutor.slug task) = root ++ [ofText (TaskExecutor.slug task)] := by
  have letter : ∀ d : Char, d ∈ "/.@".toList → ofChar d ∉ ofText (TaskExecutor.slug task) := by
    intro d mark member
    obtain ⟨c, inside, same⟩ := List.mem_map.mp member
    rw [of_char_injective same] at inside
    exact slug_char_plain (slug_chars task d inside) (List.mem_append_left _ mark)
  refine join_path_single root ?_ ?_ (letter '/' (by decide))
  · simpa [ofText] using slug_ne_nil task
  · intro same
    exact letter '.' (by decide) (same ▸ List.mem_cons_self)

theorem safe_branch (task : Task) (root : Path) : SafeBranch task root := by
  obtain ⟨name, same, _⟩ := slug_shape task
  refine ⟨⟨name, by rw [branch_of_slug, same]⟩, slug_chars task, short_digest_hex task,
    slug_branch_valid task, fun protectedBranches free => ?_, slug_path task root⟩
  have absent : branchOf (TaskExecutor.slug task) ∉ protectedBranches := by
    intro member
    have starts := free _ member
    rw [branch_of_slug, startswith, List.isPrefixOf_iff_prefix.mpr (List.prefix_append _ _)] at starts
    cases starts
  rw [assertNotProtected, if_neg (by simpa using absent)]

theorem slug_digest {first second : Task}
    (same : TaskExecutor.slug first = TaskExecutor.slug second) :
    shortDigest first = shortDigest second := by
  obtain ⟨name, one, _⟩ := slug_shape first
  obtain ⟨other, two, _⟩ := slug_shape second
  rw [one, two] at same
  have tails := (List.append_inj' same (by
    simp [(short_digest_hex first).1, (short_digest_hex second).1])).2
  exact (List.cons.inj tails).2

/-- Every task has a safe branch, and tasks with different digests have different branches
and different paths. -/
theorem branches_safe_and_unique :
    (∀ (task : Task) (root : Path), SafeBranch task root) ∧
      ∀ (first second : Task) (root : Path), Apart first second →
        branchOf (TaskExecutor.slug first) ≠ branchOf (TaskExecutor.slug second) ∧
          worktreePath root (TaskExecutor.slug first) ≠ worktreePath root (TaskExecutor.slug second) := by
  refine ⟨safe_branch, fun first second root apart => ⟨fun same => ?_, fun same => ?_⟩⟩
  · rw [branch_of_slug, branch_of_slug] at same
    exact apart (slug_digest (List.append_cancel_left same))
  · rw [slug_path, slug_path] at same
    have names := List.singleton_inj.mp (List.append_cancel_left same)
    exact apart (slug_digest (of_text_injective names))

end Slugs

section Example

local instance branchTables : Unicode := asciiTables

local instance branchDigests : Sha256Hex := hashlibDigests

def healthTask (id : Str) : Task :=
  { id, transportId := "<m1@x>", subject := some "Add /healthz & metrics!!", createdAt := 0 }

example : branchOf (TaskExecutor.slug (healthTask "e1")) =
    "dear-agent/add-healthz-metrics-8b5cc4df".toList := by
  decide +kernel

theorem same_subjects_apart :
    SafeBranch (healthTask "e1") [] ∧
      branchOf (TaskExecutor.slug (healthTask "e1")) ≠
        branchOf (TaskExecutor.slug (healthTask "e2")) ∧
      worktreePath [] (TaskExecutor.slug (healthTask "e1")) ≠
        worktreePath [] (TaskExecutor.slug (healthTask "e2")) := by
  have apart : Apart (healthTask "e1") (healthTask "e2") := by
    unfold Apart
    decide +kernel
  exact ⟨branches_safe_and_unique.1 _ _, branches_safe_and_unique.2 _ _ _ apart⟩

end Example

end DearAgent
