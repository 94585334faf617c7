import DearAgent.Lib.Values
import Mathlib.Data.List.Sort

/-!
# Paths and files

Absolute paths as `pathlib` joins and resolves them, over a tree of files, directories and
symbolic links. `Path.resolve` follows links by name and goes on where nothing is found, the
operating system only goes through directories that are there.
-/

namespace DearAgent.Lib.Paths

open DearAgent.Lib.CodePoints DearAgent.Lib.Values

set_option autoImplicit false

section Names

abbrev Path := List PyStr

def slash : CodePoint := ofChar '/'

def dotName : PyStr := "."

def parentName : PyStr := ".."

/-- The components of a text: `.` and what is empty is none. -/
def segments (text : PyStr) : List PyStr :=
  (text.splitOn slash).filter fun name => !name.isEmpty && name ≠ dotName

def isAbsolute (text : PyStr) : Bool := text.head? = some slash

/-- `path / text`. -/
def joinPath (path : Path) (text : PyStr) : Path :=
  if isAbsolute text then segments text else path ++ segments text

theorem segments_single {name : PyStr} (nonempty : name ≠ []) (other : name ≠ dotName)
    (whole : slash ∉ name) : segments name = [name] := by
  rw [segments, List.splitOn_eq_singleton whole, List.filter_cons_of_pos (by simp [nonempty, other])]
  rfl

theorem join_path_single (path : Path) {name : PyStr} (nonempty : name ≠ []) (other : name ≠ dotName)
    (whole : slash ∉ name) : joinPath path name = path ++ [name] := by
  have relative : isAbsolute name = false := by
    cases name with
    | nil => exact absurd rfl nonempty
    | cons c rest =>
        have apart : c ≠ slash := fun same => whole (same ▸ List.mem_cons_self)
        simp [isAbsolute, apart]
  rw [joinPath, relative, segments_single nonempty other whole]
  rfl

end Names

/-!
## Files
-/

inductive Node
  | file (content : List UInt8)
  | directory
  | link (target : PyStr)
deriving DecidableEq

/-- What is found at the absolute paths of a machine. -/
structure Files where
  entries : List (Path × Node)

def isEncodable (name : PyStr) : Bool :=
  name.all fun c => decide (c.val ≠ 0) &&
    (!isSurrogate c || (decide (0xDC80 ≤ c.val) && decide (c.val ≤ 0xDCFF)))

def symlinkLoop : Raised := { classes := ["RuntimeError".toList, "Exception".toList] }

def osError : Raised := { classes := ["OSError".toList, "Exception".toList] }

namespace Files

variable (files : Files)

def node (path : Path) : Option Node :=
  if path.isEmpty then some .directory else files.entries.lookup path

def linkCount : Nat := files.entries.countP fun entry =>
  match entry.2 with
  | .link _ => true
  | _ => false

/-- One component of `Path.resolve`: `path` is resolved, `next` resolves what a link says. -/
def enter (next : Path → List PyStr → Except Raised Path) (path : Path) (name : PyStr) :
    Except Raised Path :=
  if name = parentName then .ok path.dropLast
  else if !isEncodable name then .error valueError
  else
    match files.node (path ++ [name]) with
    | some (.link target) => next (if isAbsolute target then [] else path) (segments target)
    | _ => .ok (path ++ [name])

/-- The components behind a resolved path, through at most `depth` links inside each other. -/
def follow : Nat → Path → List PyStr → Except Raised Path
  | 0, path, names => names.foldlM (files.enter fun _ _ => .error symlinkLoop) path
  | depth + 1, path, names => names.foldlM (files.enter (follow depth)) path

/-- `path.resolve()`: more links inside each other than there are is a loop. -/
def resolve (path : Path) : Except Raised Path := files.follow files.linkCount [] path

def steps (next : Path → List PyStr → Option Path) : Path → List PyStr → Option Path
  | path, [] => some path
  | path, name :: rest =>
      if files.node path ≠ some .directory then none
      else if name = parentName then steps next path.dropLast rest
      else
        match files.node (path ++ [name]) with
        | none => none
        | some (.link target) =>
            next (if isAbsolute target then [] else path) (segments target ++ rest)
        | some _ => steps next (path ++ [name]) rest

/-- The operating system gives up after so many links. -/
def maxLinks : Nat := 40

def walk : Nat → Path → List PyStr → Option Path
  | 0 => files.steps fun _ _ => none
  | links + 1 => files.steps (walk links)

def stat (path : Path) : Option Node := (files.walk maxLinks [] path).bind files.node

def isFile (path : Path) : Bool :=
  match files.stat path with
  | some (.file _) => true
  | _ => false

def isDir (path : Path) : Bool := files.stat path = some .directory

def readBytes (path : Path) : Except Raised (List UInt8) :=
  match files.stat path with
  | some (.file content) => .ok content
  | _ => .error osError

def children (path : Path) : List PyStr :=
  files.entries.filterMap fun entry =>
    if entry.1.dropLast = path then entry.1.getLast? else none

/-- `sorted(path.glob("*/name"))`. -/
def globChildren (path : Path) (name : PyStr) : List Path :=
  match files.walk maxLinks [] path with
  | none => []
  | some real =>
      (((files.children real).filter fun child =>
        files.isDir (path ++ [child]) && (files.stat (path ++ [child, name])).isSome).insertionSort
          (· ≤ ·)).map fun child => path ++ [child, name]

/-!
## Resolved paths
-/

def LinkFree (path : Path) : Prop :=
  ∀ front name, front ++ [name] <+: path →
    name ≠ parentName ∧ isEncodable name = true ∧
      ∀ target, files.node (front ++ [name]) ≠ some (.link target)

/-- A path that leads into a directory once its links are followed. -/
def Inside (root path : Path) : Prop := ∃ real, files.resolve path = .ok real ∧ root <+: real

variable {files}

theorem link_free_nil : files.LinkFree [] := by
  intro front name leads
  have lengths := leads.length_le
  simp at lengths

theorem LinkFree.of_prefix {front path : Path} (free : files.LinkFree path) (leads : front <+: path) :
    files.LinkFree front := fun before name inner => free before name (inner.trans leads)

theorem LinkFree.concat {path : Path} {name : PyStr} (free : files.LinkFree path)
    (below : name ≠ parentName) (encodable : isEncodable name = true)
    (unlinked : ∀ target, files.node (path ++ [name]) ≠ some (.link target)) :
    files.LinkFree (path ++ [name]) := by
  intro front last leads
  rcases List.prefix_concat_iff.mp leads with same | inner
  · have parts := List.append_inj' same rfl
    rw [parts.1, List.singleton_inj.mp parts.2]
    exact ⟨below, encodable, unlinked⟩
  · exact free front last inner

section Following

variable {next : Path → List PyStr → Except Raised Path}

/-- What is resolved from a path without links has no links, if this holds of what links say. -/
theorem enters_link_free
    (next_free : ∀ {path names result}, files.LinkFree path → next path names = .ok result →
      files.LinkFree result)
    {path result : Path} {names : List PyStr} (free : files.LinkFree path)
    (entered : names.foldlM (files.enter next) path = .ok result) : files.LinkFree result := by
  induction names generalizing path with
  | nil =>
      cases entered
      exact free
  | cons name rest ih =>
      rw [List.foldlM_cons, bind_returns_iff] at entered
      obtain ⟨middle, first, later⟩ := entered
      refine ih ?_ later
      unfold enter at first
      split_ifs at first with parent encodable
      · cases first
        exact free.of_prefix (List.dropLast_prefix path)
      · split at first
        · rename_i target linked
          refine next_free ?_ first
          split_ifs
          · exact link_free_nil
          · exact free
        · rename_i unlinked
          cases first
          exact free.concat parent (by simpa using encodable) unlinked

theorem follow_link_free (depth : Nat) {path result : Path} {names : List PyStr}
    (free : files.LinkFree path) (followed : files.follow depth path names = .ok result) :
    files.LinkFree result := by
  induction depth generalizing path names result with
  | zero =>
      refine enters_link_free ?_ free followed
      intro path names result _ never
      cases never
  | succ depth ih => exact enters_link_free (fun free followed => ih free followed) free followed

theorem enters_as_written {front rest : Path} (free : files.LinkFree (front ++ rest)) :
    rest.foldlM (files.enter next) front = .ok (front ++ rest) := by
  induction rest generalizing front with
  | nil =>
      rw [List.append_nil]
      rfl
  | cons name rest ih =>
      have whole : front ++ name :: rest = (front ++ [name]) ++ rest := by simp
      obtain ⟨below, encodable, unlinked⟩ := free front name (by
        rw [whole]
        exact List.prefix_append _ _)
      have entered : files.enter next front name = .ok (front ++ [name]) := by
        unfold enter
        rw [if_neg below, encodable, if_neg (by simp)]
        split
        · rename_i target linked
          exact absurd linked (unlinked target)
        · rfl
      rw [whole] at free ⊢
      rw [List.foldlM_cons, entered]
      exact ih free

end Following

theorem resolve_link_free {path : Path} (free : files.LinkFree path) :
    files.resolve path = .ok path := by
  have written : ∀ depth, files.follow depth [] path = .ok path := by
    intro depth
    have all : files.LinkFree ([] ++ path) := free
    cases depth with
    | zero => exact enters_as_written all
    | succ depth => exact enters_as_written all
  exact written _

theorem link_free_of_resolve {path real : Path} (resolved : files.resolve path = .ok real) :
    files.LinkFree real := follow_link_free _ link_free_nil resolved

theorem resolve_resolved {path real : Path} (resolved : files.resolve path = .ok real) :
    files.resolve real = .ok real := resolve_link_free (link_free_of_resolve resolved)

theorem inside_of_resolve {root path real : Path} (resolved : files.resolve path = .ok real)
    (within : root <+: real) : files.Inside root real :=
  ⟨real, resolve_resolved resolved, within⟩

end Files

end DearAgent.Lib.Paths
