import DearAgent.Runners.Container
import DearAgent.Lib.Histories

/-!
# The harness bundle

`environment/bundle.py`: the files of a harness are copied out of its image into a cache
directory, once, and a marker file says from then on that they are there. Whose image they
were copied from is not written down.
-/

namespace DearAgent.Environment

open DearAgent.Lib.Text DearAgent.Lib.Effects DearAgent.Lib.Histories DearAgent.Queue
open DearAgent.Container (Mount CompletedProcess Succeeds)

set_option autoImplicit false

section Names

/-- A name that `pathlib` takes for one component of a path. -/
def isFileName (name : Str) : Bool :=
  !name.isEmpty && name ≠ "." && name ≠ ".." && !name.contains '/'

abbrev FileName := { name : Str // isFileName name = true }

abbrev FilePath := List Str

/-- `str(path)`. -/
def pathText (path : FilePath) : Str := '/' :: join "/" path

end Names

structure BundleFile where
  source : Str
  name : FileName

def opencodeFiles : List BundleFile := [
  ⟨"/usr/local/bin/opencode", ⟨"opencode", by decide⟩⟩,
  ⟨"/lib/ld-musl-x86_64.so.1", ⟨"ld-musl-x86_64.so.1", by decide⟩⟩,
  ⟨"/usr/lib/libstdc++.so.6", ⟨"libstdc++.so.6", by decide⟩⟩,
  ⟨"/usr/lib/libgcc_s.so.1", ⟨"libgcc_s.so.1", by decide⟩⟩]

structure HarnessBundle where
  image : Str
  files : List BundleFile
  interpreter : Str
  binary : FileName
  cacheDir : FilePath
  containerBinary : Str := "podman"
  bundleDir : Str := "/opt/dear-agent/harness"
  binDir : Str := "/usr/local/bin"

inductive EngineAct
  | create (image : Str)
  | copy (container source : Str) (target : FilePath)
  | remove (container : Str)

structure EngineCommand where
  act : EngineAct
  argv : List Str

inductive HostRequest
  | pathExists (path : FilePath)
  /-- `path.mkdir(parents=True, exist_ok=True)`. -/
  | mkdir (path : FilePath)
  /-- `self._run(argv)`. -/
  | run (command : EngineCommand)
  | writeText (path : FilePath) (text : Str)
  /-- `path.chmod` with the execution bits added. -/
  | makeExecutable (path : FilePath)

@[reducible] def HostRequest.Reply : HostRequest → Type
  | .pathExists _ => Bool
  | .mkdir _ | .writeText _ _ | .makeExecutable _ => Unit
  | .run _ => Except Exn CompletedProcess

@[reducible] def host : Signature where
  Request := HostRequest
  Reply := HostRequest.Reply
  Raised := Exn

abbrev OnHost (α : Type) := Program host α

def runEngine (command : EngineCommand) : OnHost CompletedProcess :=
  .ask (.run command) (@unwrap host _)

namespace HarnessBundle

variable (bundle : HarnessBundle)

/-- The path of `_READY`. -/
def marker : FilePath := bundle.cacheDir ++ [".ready".toList]

def root : FilePath := bundle.cacheDir ++ ["root".toList]

def shim : FilePath := bundle.cacheDir ++ ["bin".toList, bundle.binary.val]

def target (item : BundleFile) : FilePath := bundle.root ++ [item.name.val]

def createCommand : EngineCommand :=
  ⟨.create bundle.image, [bundle.containerBinary, "create".toList, bundle.image]⟩

def copyCommand (container : Str) (item : BundleFile) : EngineCommand :=
  ⟨.copy container item.source (bundle.target item),
    [bundle.containerBinary, "cp".toList, container ++ ':' :: item.source,
      pathText (bundle.target item)]⟩

def removeCommand (container : Str) : EngineCommand :=
  ⟨.remove container, [bundle.containerBinary, "rm".toList, "-f".toList, container]⟩

/-- The script of `_write_shim`. -/
def shimText : Str :=
  "#!/bin/sh\nLD_LIBRARY_PATH=".toList ++ bundle.bundleDir ++ " exec ".toList ++
    bundle.bundleDir ++ '/' :: bundle.interpreter ++ ' ' :: bundle.bundleDir ++
    '/' :: bundle.binary.val ++ " \"$@\"\n".toList

def writeShim : OnHost Unit := do
  @request host (.writeText bundle.shim bundle.shimText)
  @request host (.makeExecutable bundle.shim)

variable [Unicode]

def copyAll (container : Str) : List BundleFile → OnHost Unit
  | [] => .ret ()
  | item :: rest => do
      let result ← runEngine (bundle.copyCommand container item)
      if result.returncode ≠ 0 then
        .raise (.runtimeError (orElse (some (strip result.stderr))
          ("cannot copy ".toList ++ reprText item.source)))
      else copyAll container rest

/-- What `ensure` does with the container it created. -/
def fetch (container : Str) : OnHost Unit := do
  andFinally (bundle.copyAll container bundle.files) (dropValue (runEngine
    (bundle.removeCommand container)))
  bundle.writeShim
  @request host (.writeText bundle.marker "ok\n")

def ensure : OnHost Unit := do
  if ← @request host (.pathExists bundle.marker) then .ret ()
  else do
    @request host (.mkdir bundle.root)
    @request host (.mkdir (bundle.cacheDir ++ ["bin".toList]))
    let created ← runEngine bundle.createCommand
    if created.returncode ≠ 0 then
      .raise (.runtimeError (orElse (some (strip created.stderr))
        ("cannot create ".toList ++ reprText bundle.image)))
    else bundle.fetch (strip created.stdout)

omit [Unicode] in
def mounts : List Mount := [
  { host := pathText bundle.root, container := bundle.bundleDir, readonly := true,
    relabel := true },
  { host := pathText bundle.shim, container := bundle.binDir ++ '/' :: bundle.binary.val,
    readonly := true, relabel := true }]

end HarnessBundle

/-- Where the cache is configured, and the home directory. -/
structure CachePlaces where
  /-- `DEAR_AGENT_HARNESS_BUNDLE_CACHE`, where it is set and not empty. -/
  configured : Option FilePath
  home : FilePath

def defaultBundleCacheDir (places : CachePlaces) : FilePath :=
  places.configured.getD
    (places.home ++ [".cache".toList, "dear-agent".toList, "harness".toList])

def opencodeBundle (places : CachePlaces) (image : Str) (cacheDir : Option FilePath := none)
    (containerBinary : Str := "podman") : HarnessBundle where
  image := image
  files := opencodeFiles
  interpreter := "ld-musl-x86_64.so.1"
  binary := ⟨"opencode", by decide⟩
  cacheDir := cacheDir.getD (defaultBundleCacheDir places ++ ["opencode".toList])
  containerBinary := containerBinary

end DearAgent.Environment
