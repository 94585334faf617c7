import DearAgent.Lib.Paths
import DearAgent.Environment.Jsonc
import DearAgent.Runners.Container

/-!
# Environment descriptors

`detect` of `environment/descriptor.py`: which file of a checkout says how its environment is
built, and what it says. The files and the symbolic links are the repository's.
-/

namespace DearAgent.Environment

open DearAgent.Lib.Text (Str Unicode asciiTables)
open DearAgent.Lib.CodePoints DearAgent.Lib.Values DearAgent.Lib.Json DearAgent.Lib.Paths

set_option autoImplicit false

def devContainerLocations : List PyStr := [".devcontainer/devcontainer.json", ".devcontainer.json"]

def ansibleEeFiles : List PyStr :=
  ["execution-environment.yml", "execution-environment.yaml", "execution_environment.yml",
    "execution_environment.yaml"]

def containerfileFiles : List PyStr := ["Containerfile", "Dockerfile"]

def toolVersionFiles : List PyStr := ["mise.toml", ".mise.toml", ".tool-versions"]

inductive Kind
  | devcontainer
  | ansibleEe
  | containerfile
  | mise
  | none
deriving DecidableEq

structure EnvironmentDescriptor where
  kind : Kind
  path : Option Path := none
  image : Option PyStr := none
  dockerfile : Option Path := none
  context : Option Path := none
  detail : PyStr := []
deriving DecidableEq

/-- What `yaml.safe_load` returns, as far as it is looked at: texts, and mappings by those of
their keys that are texts. -/
inductive Yaml
  | text (text : PyStr)
  | mapping (entries : List (PyStr × Yaml))
  | other

/-- What is left to libraries: the text of an exception, and the YAML reader. -/
class Readers where
  describe : Raised → PyStr
  safeLoad : PyStr → Except Raised Yaml

section Reading

/-- The line ends of a text file as it is read, behind a carriage return or not. -/
def universalNewlines (behindReturn : Bool) : PyStr → PyStr
  | [] => []
  | c :: rest =>
      if c = '\r' then ofChar '\n' :: universalNewlines true rest
      else if behindReturn && c = '\n' then universalNewlines false rest
      else c :: universalNewlines false rest

/-- `bytes.decode("utf-8")`. -/
def decodeStrict (bytes : List UInt8) : Except Raised PyStr :=
  match decodeUtf8 (fun _ _ _ => none) bytes with
  | some text => .ok text
  | none => .error unicodeDecodeError

variable (files : Files)

def readText (path : Path) : Except Raised PyStr := do
  let bytes ← files.readBytes path
  let text ← decodeStrict bytes
  return universalNewlines false text

def firstFile (root : Path) (names : List PyStr) : Option Path :=
  (names.map (joinPath root)).find? files.isFile

end Reading

section Finders

variable [Unicode] [Interpreter] [Readers] (files : Files)

def within (root path : Path) : Bool := path = root || root.isPrefixOf path

def featuresNote (data : List (PyStr × Value)) : PyStr :=
  match getOr .null "features" data with
  | .dict features =>
      if features.isEmpty then []
      else ofText (toString features.length).toList ++ (" dev container feature(s)" : PyStr)
  | _ => []

/-- `(directory / dockerfile).resolve()` and `(directory / str(context)).resolve()`. -/
def recipe (directory : Path) (dockerfile : PyStr) (context : Value) :
    Except Raised (Option (Path × Path)) := do
  let context := if context.truthy then context else .str "."
  let dockerfile ← files.resolve (joinPath directory (strip dockerfile))
  let context ← files.resolve (joinPath directory (← context.text))
  return some (dockerfile, context)

def shownText : Value → Option PyStr
  | .str text => if (strip text).isEmpty then none else some text
  | _ => none

def devcontainerBuild (data : List (PyStr × Value)) (directory : Path) :
    Except Raised (Option (Path × Path)) := do
  let build := getOr .null "build" data
  match shownText build with
  | some text =>
      let dockerfile ← files.resolve (joinPath directory (strip text))
      let context ← files.resolve directory
      return some (dockerfile, context)
  | none =>
      let named := match build with
        | .dict entries =>
            let dockerfile := getOr .null "dockerfile" entries
            let dockerfile :=
              if dockerfile.truthy then dockerfile else getOr .null "dockerFile" entries
            (shownText dockerfile).map fun text => (text, getOr .null "context" entries)
        | _ => none
      match named with
      | some (dockerfile, context) => recipe files directory dockerfile context
      | none =>
          match shownText (getOr .null "dockerFile" data) with
          | some legacy => recipe files directory legacy (getOr .null "context" data)
          | none => return none

def unreadable (kind : Kind) (path : Path) (error : Raised) : EnvironmentDescriptor :=
  { kind, path, detail := ("unreadable: " : PyStr) ++ Readers.describe error }

/-- `_load_jsonc`. -/
def loadJsoncFile (path : Path) : Except Raised Value := do
  let text ← readText files path
  loadJsonc text

def parseDevcontainer (path root : Path) : Except Raised EnvironmentDescriptor :=
  match loadJsoncFile files path with
  | .error error =>
      if error.isA "OSError" || error.isA "ValueError" then
        .ok (unreadable .devcontainer path error)
      else .error error
  | .ok (.dict data) =>
      match shownText (getOr .null "image" data) with
      | some image =>
          .ok { kind := .devcontainer, path, image := strip image, detail := featuresNote data }
      | none => do
          match ← devcontainerBuild files data path.dropLast with
          | some (dockerfile, context) =>
              if within root dockerfile && within root context then
                let detail := ("build " : PyStr) ++ dockerfile.getLast?.getD []
                let features := featuresNote data
                let detail :=
                  if features.isEmpty then detail
                  else detail ++ (" (" : PyStr) ++ features ++ (")" : PyStr)
                return { kind := .devcontainer, path, dockerfile, context, detail }
              else
                return { kind := .devcontainer, path, detail := "build path outside the repository" }
          | none => return { kind := .devcontainer, path, detail := "no image or build" }
  | .ok _ => .ok { kind := .devcontainer, path, detail := "not a JSON object" }

/-- The file `_find_devcontainer` parses. -/
def devcontainerFile (root : Path) : Option Path :=
  (firstFile files root devContainerLocations).or
    (let directory := joinPath root ".devcontainer"
    if files.isDir directory then (files.globChildren directory "devcontainer.json").head? else none)

def findDevcontainer (root : Path) : Except Raised (Option EnvironmentDescriptor) :=
  match devcontainerFile files root with
  | some path => (parseDevcontainer files path root).map some
  | none => .ok none

/-- `images.base_image.name`. -/
def baseImageName (data : List (PyStr × Yaml)) : Option Yaml :=
  -- what is no mapping has no base image, nor has what `or {}` stands for
  match data.lookup ("images" : PyStr) with
  | some (.mapping images) =>
      match images.lookup ("base_image" : PyStr) with
      | some (.mapping base) => base.lookup ("name" : PyStr)
      | _ => none
  | _ => none

def parseAnsibleEe (path : Path) : Except Raised EnvironmentDescriptor :=
  match readText files path >>= Readers.safeLoad with
  | .error error =>
      if error.isA "OSError" || error.isA "YAMLError" then .ok (unreadable .ansibleEe path error)
      else .error error
  | .ok (.mapping data) =>
      match baseImageName data with
      | some (.text name) =>
          if (strip name).isEmpty then
            .ok { kind := .ansibleEe, path, detail := "no images.base_image.name" }
          else .ok { kind := .ansibleEe, path, image := strip name }
      | _ => .ok { kind := .ansibleEe, path, detail := "no images.base_image.name" }
  | .ok _ => .ok { kind := .ansibleEe, path, detail := "not a mapping" }

def findAnsibleEe (root : Path) : Except Raised (Option EnvironmentDescriptor) :=
  match firstFile files root ansibleEeFiles with
  | some path => (parseAnsibleEe files path).map some
  | none => .ok none

def findContainerfile (root : Path) : Except Raised (Option EnvironmentDescriptor) :=
  .ok ((firstFile files root containerfileFiles).map fun path : Path =>
    { kind := .containerfile, path := some path, dockerfile := some path, context := some root })

def findToolVersions (root : Path) : Except Raised (Option EnvironmentDescriptor) :=
  .ok ((firstFile files root toolVersionFiles).map fun path : Path =>
    { kind := .mise, path := some path, detail := "tool versions; a base image must be provisioned" })

def firstFound (root : Path) :
    List (Path → Except Raised (Option EnvironmentDescriptor)) → Except Raised EnvironmentDescriptor
  | [] => .ok { kind := .none }
  | finder :: rest => do
      match ← finder root with
      | some descriptor => return descriptor
      | none => firstFound root rest

def detect (root : Path) : Except Raised EnvironmentDescriptor := do
  let base ← files.resolve root
  firstFound base
    [findDevcontainer files, findAnsibleEe files, findContainerfile files, findToolVersions files]

end Finders

section Containment

/-- What `podman` reads as an option. -/
def optionLike (text : PyStr) : Bool := text.head? = some (ofChar '-')

/-- A path that leads into the checkout once both have their links followed. -/
def InCheckout (files : Files) (root path : Path) : Prop :=
  ∃ base, files.resolve root = .ok base ∧ files.Inside base path

/-- A descriptor that neither leaves the checkout nor names an option for an image. -/
structure Contained (files : Files) (root : Path) (descriptor : EnvironmentDescriptor) : Prop where
  dockerfile : ∀ path ∈ descriptor.dockerfile, InCheckout files root path
  context : ∀ path ∈ descriptor.context, InCheckout files root path
  image : ∀ image ∈ descriptor.image, optionLike image = false

variable [Unicode] [Interpreter] [Readers] {files : Files} {root base : Path}

omit [Unicode] [Interpreter] [Readers] in
theorem contained_bare {descriptor : EnvironmentDescriptor} (unbuilt : descriptor.dockerfile = none)
    (uncontexted : descriptor.context = none) (unnamed : descriptor.image = none) :
    Contained files root descriptor := by
  constructor
  · simp [unbuilt]
  · simp [uncontexted]
  · simp [unnamed]

omit [Readers] in
theorem recipe_resolved {directory : Path} {named : PyStr} {context : Value} {found : Path × Path}
    (made : recipe files directory named context = .ok (some found)) :
    (∃ path, files.resolve path = .ok found.1) ∧ ∃ path, files.resolve path = .ok found.2 := by
  unfold recipe at made
  obtain ⟨dockerfile, first, made⟩ := bind_returns_iff.mp made
  obtain ⟨text, _, made⟩ := bind_returns_iff.mp made
  obtain ⟨context, second, made⟩ := bind_returns_iff.mp made
  cases made
  exact ⟨⟨_, first⟩, ⟨_, second⟩⟩

omit [Readers] in
theorem devcontainer_build_resolved {data : List (PyStr × Value)} {directory : Path}
    {found : Path × Path} (made : devcontainerBuild files data directory = .ok (some found)) :
    (∃ path, files.resolve path = .ok found.1) ∧ ∃ path, files.resolve path = .ok found.2 := by
  unfold devcontainerBuild at made
  simp only at made
  split at made
  · obtain ⟨dockerfile, first, made⟩ := bind_returns_iff.mp made
    obtain ⟨context, second, made⟩ := bind_returns_iff.mp made
    cases made
    exact ⟨⟨_, first⟩, ⟨_, second⟩⟩
  · split at made
    · exact recipe_resolved made
    · split at made
      · exact recipe_resolved made
      · cases made

omit [Unicode] [Interpreter] [Readers] in
theorem prefix_of_within {path : Path} (inside : within root path = true) : root <+: path := by
  simp only [within, Bool.or_eq_true, decide_eq_true_eq, List.isPrefixOf_iff_prefix] at inside
  rcases inside with rfl | leads
  · exact List.prefix_rfl
  · exact leads

omit [Unicode] [Interpreter] [Readers] in
theorem in_checkout_of_within (resolved : files.resolve root = .ok base) {path : Path}
    (own : ∃ written, files.resolve written = .ok path) (inside : within base path = true) :
    InCheckout files root path := by
  obtain ⟨written, resolves⟩ := own
  exact ⟨base, resolved, Files.inside_of_resolve resolves (prefix_of_within inside)⟩

/-- The image that a Dev Container names is no option. -/
def DevcontainerPlain (files : Files) (path : Path) : Prop :=
  ∀ data image, loadJsoncFile files path = .ok (.dict data) → getOr .null "image" data = .str image →
    optionLike (strip image) = false

omit [Unicode] [Interpreter] [Readers] in
theorem shown_text_iff {value : Value} {text : PyStr} :
    shownText value = some text ↔ value = .str text ∧ strip text ≠ [] := by
  cases value with
  | str own =>
      simp only [shownText, Value.str.injEq, List.isEmpty_iff]
      split_ifs with blank
      · apply iff_of_false
        · simp
        · rintro ⟨rfl, shown⟩
          exact shown blank
      · constructor
        · rintro ⟨⟩
          exact ⟨rfl, blank⟩
        · rintro ⟨rfl, _⟩
          rfl
  | _ => simp [shownText]

theorem parse_devcontainer_contained (resolved : files.resolve root = .ok base) {path : Path}
    (plain : DevcontainerPlain files path) {descriptor : EnvironmentDescriptor}
    (parsed : parseDevcontainer files path base = .ok descriptor) :
    Contained files root descriptor := by
  unfold parseDevcontainer at parsed
  split at parsed
  · split_ifs at parsed
    cases parsed
    exact contained_bare rfl rfl rfl
  · rename_i data loaded
    split at parsed
    · rename_i image shown
      cases parsed
      refine ⟨by simp, by simp, ?_⟩
      intro named member
      cases member
      exact plain data image loaded (shown_text_iff.mp shown).1
    · obtain ⟨found, made, parsed⟩ := bind_returns_iff.mp parsed
      cases found with
      | none =>
          cases parsed
          exact contained_bare rfl rfl rfl
      | some pair =>
          have own := devcontainer_build_resolved made
          simp only at parsed
          by_cases inside : (within base pair.1 && within base pair.2) = true
          · rw [if_pos inside] at parsed
            cases parsed
            have both := Bool.and_eq_true_iff.mp inside
            refine ⟨fun path member => ?_, fun path member => ?_, by simp⟩
            · cases member
              exact in_checkout_of_within resolved own.1 both.1
            · cases member
              exact in_checkout_of_within resolved own.2 both.2
          · rw [if_neg inside] at parsed
            cases parsed
            exact contained_bare rfl rfl rfl
  · cases parsed
    exact contained_bare rfl rfl rfl

theorem devcontainer_plain_of_contained {path : Path}
    (contained : ∀ descriptor, parseDevcontainer files path base = .ok descriptor →
      Contained files root descriptor) : DevcontainerPlain files path := by
  intro data image loaded named
  by_cases blank : strip image = []
  · rw [blank]
    rfl
  · have shown := shown_text_iff.mpr ⟨named, blank⟩
    have parsed : parseDevcontainer files path base = .ok
        { kind := .devcontainer, path, image := strip image, detail := featuresNote data } := by
      unfold parseDevcontainer
      rw [loaded]
      simp only [shown]
    exact (contained _ parsed).image _ rfl

/-- The image that an execution environment names is no option. -/
def AnsiblePlain (files : Files) (path : Path) : Prop :=
  ∀ data name, (readText files path >>= Readers.safeLoad) = .ok (.mapping data) →
    baseImageName data = some (.text name) → optionLike (strip name) = false

omit [Unicode] [Interpreter] in
theorem parse_ansible_ee_contained {path : Path} (plain : AnsiblePlain files path)
    {descriptor : EnvironmentDescriptor} (parsed : parseAnsibleEe files path = .ok descriptor) :
    Contained files root descriptor := by
  unfold parseAnsibleEe at parsed
  split at parsed
  · split_ifs at parsed
    cases parsed
    exact contained_bare rfl rfl rfl
  · rename_i data loaded
    split at parsed
    · rename_i name named
      split_ifs at parsed
      · cases parsed
        exact contained_bare rfl rfl rfl
      · cases parsed
        refine ⟨by simp, by simp, fun image member => ?_⟩
        cases member
        exact plain data name loaded named
    · cases parsed
      exact contained_bare rfl rfl rfl
  · cases parsed
    exact contained_bare rfl rfl rfl

omit [Unicode] [Interpreter] in
theorem ansible_plain_of_contained {path : Path}
    (contained : ∀ descriptor, parseAnsibleEe files path = .ok descriptor →
      Contained files root descriptor) : AnsiblePlain files path := by
  intro data name loaded named
  by_cases blank : strip name = []
  · rw [blank]
    rfl
  · have parsed : parseAnsibleEe files path =
        .ok { kind := .ansibleEe, path, image := strip name } := by
      unfold parseAnsibleEe
      rw [loaded]
      simp only [named, List.isEmpty_iff, if_neg blank]
    exact (contained _ parsed).image _ rfl

/-- A file that is no link is where it is, and a link leads to where it says. -/
def LinkInside (files : Files) (base path : Path) : Prop :=
  ∀ target, files.node path = some (.link target) → files.Inside base path

omit [Unicode] [Interpreter] [Readers] in
theorem containerfile_child {path : Path}
    (found : firstFile files base containerfileFiles = some path) :
    ∃ name, path = base ++ [name] ∧ name ≠ parentName ∧ isEncodable name = true := by
  have member := List.mem_of_find?_eq_some found
  obtain ⟨name, named, rfl⟩ := List.mem_map.mp member
  have all : (containerfileFiles.all fun name => !name.isEmpty && name ≠ dotName &&
      !name.contains slash && name ≠ parentName && isEncodable name) = true := by decide
  have own := List.all_eq_true.mp all name named
  simp only [Bool.and_eq_true, Bool.not_eq_true', List.isEmpty_eq_false_iff, decide_eq_true_eq] at own
  obtain ⟨⟨⟨⟨nonempty, single⟩, whole⟩, below⟩, encodable⟩ := own
  have absent : slash ∉ name := by simpa using whole
  exact ⟨name, join_path_single base nonempty single absent, below, encodable⟩

omit [Unicode] [Interpreter] [Readers] in
theorem link_inside_iff (resolved : files.resolve root = .ok base) {path : Path}
    (found : firstFile files base containerfileFiles = some path) :
    LinkInside files base path ↔ InCheckout files root path := by
  constructor
  · intro links
    refine ⟨base, resolved, ?_⟩
    by_cases linked : ∃ target, files.node path = some (.link target)
    · obtain ⟨target, link⟩ := linked
      exact links target link
    · obtain ⟨name, rfl, below, encodable⟩ := containerfile_child found
      have free := (Files.link_free_of_resolve resolved).concat below encodable
        fun target link => linked ⟨target, link⟩
      exact ⟨_, Files.resolve_link_free free, List.prefix_append base [name]⟩
  · rintro ⟨other, again, inside⟩ target _
    cases resolved.symm.trans again
    exact inside

/-- What keeps a descriptor in the checkout: in the file that decides, an image that is no option,
or a build file that is no link out of the checkout. -/
structure StaysInside [Unicode] [Interpreter] [Readers] (files : Files) (base : Path) : Prop where
  devcontainer : ∀ path, devcontainerFile files base = some path → DevcontainerPlain files path
  ansible : devcontainerFile files base = none →
    ∀ path, firstFile files base ansibleEeFiles = some path → AnsiblePlain files path
  containerfile : devcontainerFile files base = none → firstFile files base ansibleEeFiles = none →
    ∀ path, firstFile files base containerfileFiles = some path → LinkInside files base path

section Deciding

theorem detect_devcontainer (resolved : files.resolve root = .ok base) {path : Path}
    (decides : devcontainerFile files base = some path) :
    detect files root = parseDevcontainer files path base := by
  unfold detect
  rw [resolved, ok_bind, firstFound, findDevcontainer, decides]
  simp only
  cases parseDevcontainer files path base <;> rfl

theorem detect_ansible (resolved : files.resolve root = .ok base) {path : Path}
    (none : devcontainerFile files base = none)
    (decides : firstFile files base ansibleEeFiles = some path) :
    detect files root = parseAnsibleEe files path := by
  unfold detect
  rw [resolved, ok_bind, firstFound, findDevcontainer, none, ok_bind, firstFound, findAnsibleEe,
    decides]
  simp only
  cases parseAnsibleEe files path <;> rfl

theorem detect_containerfile (resolved : files.resolve root = .ok base)
    (none : devcontainerFile files base = none)
    (missing : firstFile files base ansibleEeFiles = Option.none) :
    detect files root = .ok ((firstFile files base containerfileFiles).elim
      ((firstFile files base toolVersionFiles).elim { kind := .none } fun path : Path =>
        { kind := .mise, path, detail := "tool versions; a base image must be provisioned" })
      fun path : Path => { kind := .containerfile, path, dockerfile := path, context := base }) := by
  unfold detect
  rw [resolved, ok_bind, firstFound, findDevcontainer, none, ok_bind, firstFound, findAnsibleEe,
    missing, ok_bind, firstFound, findContainerfile]
  cases firstFile files base containerfileFiles with
  | some path => rfl
  | none =>
      simp only [Option.map_none, ok_bind, firstFound, findToolVersions]
      cases firstFile files base toolVersionFiles <;> rfl

end Deciding

/-- Every descriptor stays in the checkout and names no option, exactly if the file that decides
names no option for an image and is no link out of the checkout. -/
theorem detect_contained_iff :
    (∀ descriptor, detect files root = .ok descriptor → Contained files root descriptor) ↔
      ∀ base, files.resolve root = .ok base → StaysInside files base := by
  constructor
  · intro contained base resolved
    refine ⟨fun path decides => ?_, fun none path decides => ?_, fun none missing path decides => ?_⟩
    · rw [detect_devcontainer resolved decides] at contained
      exact devcontainer_plain_of_contained contained
    · rw [detect_ansible resolved none decides] at contained
      exact ansible_plain_of_contained contained
    · rw [detect_containerfile resolved none missing, decides] at contained
      exact (link_inside_iff resolved decides).mpr ((contained _ rfl).dockerfile path rfl)
  · intro stays descriptor detected
    obtain ⟨base, resolved, _⟩ := bind_returns_iff.mp detected
    have inside := stays base resolved
    cases first : devcontainerFile files base with
    | some path =>
        rw [detect_devcontainer resolved first] at detected
        exact parse_devcontainer_contained resolved (inside.devcontainer path first) detected
    | none =>
        cases second : firstFile files base ansibleEeFiles with
        | some path =>
            rw [detect_ansible resolved first second] at detected
            exact parse_ansible_ee_contained (inside.ansible first path second) detected
        | none =>
            rw [detect_containerfile resolved first second] at detected
            cases detected
            cases third : firstFile files base containerfileFiles with
            | some path =>
                refine ⟨fun file member => ?_, fun context member => ?_, by simp⟩
                · cases member
                  exact (link_inside_iff resolved third).mp (inside.containerfile first second path third)
                · cases member
                  exact ⟨base, resolved, Files.inside_of_resolve resolved List.prefix_rfl⟩
            | none =>
                cases firstFile files base toolVersionFiles with
                | some path => exact contained_bare rfl rfl rfl
                | none => exact contained_bare rfl rfl rfl

omit [Unicode] [Interpreter] [Readers] in
/-- A `Containerfile` that is a link to a file of the host is what is built from. -/
theorem linked_containerfile_escapes :
    let _ := asciiTables
    let _ : Interpreter := ⟨fun _ => none, 1000, 1000⟩
    let _ : Readers := ⟨fun _ => [], fun _ => .ok .other⟩
    let files : Files := ⟨[(["repo"], .directory), (["repo", "Containerfile"], .link "/etc/passwd"),
      (["etc"], .directory), (["etc", "passwd"], .file [])]⟩
    ¬∀ descriptor, detect files ["repo"] = .ok descriptor → Contained files ["repo"] descriptor := by
  intro _ _ _ files contained
  have root : files.resolve ["repo"] = .ok ["repo"] := by decide
  have detected : detect files ["repo"] = .ok
      { kind := .containerfile, path := some ["repo", "Containerfile"],
        dockerfile := some ["repo", "Containerfile"], context := some ["repo"] } := by
    refine (detect_containerfile root ?_ ?_).trans ?_
    · decide
    · decide
    · have found : firstFile files ["repo"] containerfileFiles =
          (some ["repo", "Containerfile"] : Option Path) := by decide
      rw [found]
      rfl
  obtain ⟨base, resolved, real, followed, inside⟩ := (contained _ detected).dockerfile _ rfl
  have target : files.resolve ["repo", "Containerfile"] = .ok ["etc", "passwd"] := by decide
  cases root.symm.trans resolved
  cases target.symm.trans followed
  exact absurd inside (by decide)

end Containment

end DearAgent.Environment
