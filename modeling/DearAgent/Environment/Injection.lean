import DearAgent.Environment.Cache

/-!
# The injection of the bundle

`_maybe_inject_bundle` of `worker_factory.py`: a session in an environment without the harness
gets the bundle mounted. The image of the bundle is read from the environment at every call, the
cache is the same one; as long as the image stays, the files are those of the image.
-/

namespace DearAgent.Environment

open DearAgent.Lib.Text DearAgent.Lib.Effects DearAgent.Lib.Histories DearAgent.Queue
open DearAgent.Container (ContainerSandbox)

set_option autoImplicit false

/-- A session; one that is no container is only handed on. -/
inductive Session
  | container (sandbox : ContainerSandbox)
  | other

/-- A harness of the catalog, as far as the injection asks. -/
structure HarnessInfo where
  id : Str
  image : Option Str

/-- What is read from `os.environ`. -/
abbrev Environ := Str → Option Str

section Injecting

variable [Unicode] (places : CachePlaces) (environ : Environ) (info : HarnessInfo)

def bundleRequested : Bool :=
  (["1", "true", "yes"].map String.toList).contains
    (Unicode.lower (strip ((environ "DEAR_AGENT_HARNESS_BUNDLE").getD "")))

omit [Unicode] in
def autoInject (descriptorImage : Option Str) (auto : Bool) : Bool :=
  auto && truthy descriptorImage && info.id = "opencode".toList && descriptorImage ≠ info.image

omit [Unicode] in
def bundleImage : Str :=
  orElse (environ "DEAR_AGENT_HARNESS_BUNDLE_IMAGE") (info.image.getD "")

def agentHome : Str := "/dear-agent-home"

def injected (sandbox : ContainerSandbox) (bundle : HarnessBundle) : ContainerSandbox :=
  { sandbox with
    mounts := sandbox.mounts ++ bundle.mounts
    containerHome := agentHome
    extraArgs := sandbox.extraArgs ++
      ["--tmpfs".toList, agentHome, "--env".toList, "HOME=".toList ++ agentHome] }

def maybeInjectBundle (session : Session) (descriptorImage : Option Str := none)
    (auto : Bool := true) : OnHost Session :=
  if !(bundleRequested environ || autoInject info descriptorImage auto) then .ret session
  else
    match session with
    | .other => .raise (.runtimeError
        "DEAR_AGENT_HARNESS_BUNDLE requires DEAR_AGENT_ISOLATION=podman")
    | .container sandbox =>
        if info.id ≠ "opencode".toList then
          .raise (.runtimeError "the harness bundle is only implemented for opencode today")
        else if (bundleImage environ info).isEmpty then
          .raise (.runtimeError "no image to build the harness bundle from")
        else do
          let bundle := opencodeBundle places (bundleImage environ info) none sandbox.binary
          bundle.ensure
          .ret (.container (injected sandbox bundle))

variable {places environ info}

/-- A session that gets a bundle gets it behind a call of `ensure` on the default cache. -/
theorem inject_ensures {session given : Session} {descriptorImage : Option Str} {auto : Bool}
    {s after : Host} {trace : List (Exchange host)}
    (execution : Exec machine (maybeInjectBundle places environ info session descriptorImage auto)
      s trace (.ok given) after) :
    (given = session ∧ after = s) ∨ ∃ sandbox called,
      session = .container sandbox ∧
        Makes (defaultBundleCacheDir places ++ ["opencode".toList]) s called after ∧
        called.outcome = .ok () ∧ called.bundle.image = bundleImage environ info ∧
        called.bundle.files = opencodeFiles ∧
        given = .container (injected sandbox called.bundle) := by
  unfold maybeInjectBundle at execution
  by_cases unneeded : (!(bundleRequested environ || autoInject info descriptorImage auto)) = true
  · rw [if_pos unneeded] at execution
    exact .inl ⟨Except.ok.inj execution.2.1, execution.2.2⟩
  rw [if_neg unneeded] at execution
  cases session with
  | other => cases execution.2.1
  | container sandbox =>
      by_cases other : info.id ≠ "opencode".toList
      · simp only [if_pos other] at execution
        cases execution.2.1
      by_cases nameless : (bundleImage environ info).isEmpty
      · simp only [if_neg other, if_pos nameless] at execution
        cases execution.2.1
      simp only [if_neg other, if_neg nameless] at execution
      cases exec_bind execution with
      | inl stopped =>
          have ⟨error, _, raised⟩ := stopped
          cases raised
      | inr went =>
          have ⟨_, middle, first, second, ensured, returned, _⟩ := went
          have ⟨_, same, stays⟩ := returned
          subst stays
          exact .inr ⟨sandbox, ⟨_, s, first, .ok (), after⟩, rfl, ⟨rfl, rfl, rfl, ensured⟩,
            rfl, rfl, rfl, Except.ok.inj same⟩

end Injecting

section OneImage

variable [Unicode] {cacheDir : FilePath} {image : Str} {files : List BundleFile} {s final : Host}
  {calls : List Called}

/-- What holds of the cache behind calls for one image and one list of files. -/
structure Alone (cacheDir : FilePath) (image : Str) (files : List BundleFile)
    (earlier : List Called) (s : Host) : Prop where
  sound : Sound cacheDir earlier s
  images : ∀ call ∈ earlier, call.bundle.image = image
  listed : ∀ path, UnderRoot cacheDir path → s.files path ≠ none →
    ∃ item ∈ files, path = cacheDir ++ ["root".toList] ++ [item.name.val]

omit [Unicode] in
theorem alone_of_empty (empty : Empty cacheDir s) : Alone cacheDir image files [] s where
  sound := sound_of_empty empty
  images := fun _ never => absurd never List.not_mem_nil
  listed path under present := by
    exact absurd (empty path ((List.prefix_append _ _).trans under)) present

theorem alone_step {earlier : List Called} {called : Called} {after : Host}
    (alone : Alone cacheDir image files earlier s) (makes : Makes cacheDir s called after)
    (alike : called.bundle.image = image ∧ called.bundle.files = files) :
    Keeps cacheDir earlier called ∧ Alone cacheDir image files (earlier ++ [called]) after := by
  have judged := call_judged alone.sound makes
  have ⟨place, begins, ends, execution⟩ := makes
  have ⟨same_image, same_files⟩ := alike
  subst place begins ends same_image same_files
  have unmixed : Unmixed called.bundle.cacheDir earlier called := by
    constructor
    · exact fun _ call among _ => .inr (alone.images call among)
    · exact fun _ _ => alone.listed
  apply And.intro (judged.1.mpr unmixed)
  constructor
  · exact judged.2 unmixed
  · intro call among
    cases List.mem_append.mp among with
    | inl before => exact alone.images call before
    | inr own => rw [List.mem_singleton.mp own]
  · intro path under present
    by_contra apart
    rw [ensure_aside execution path under fun item member same => apart ⟨item, member, same⟩]
      at present
    exact apart (alone.listed path under present)

theorem one_image_kept (empty : Empty cacheDir s) (leads : Leads (Makes cacheDir) s calls final)
    (alike : ∀ called ∈ calls, called.bundle.image = image ∧ called.bundle.files = files) :
    Throughout (Keeps cacheDir) calls := by
  have rule : ∀ earlier s called after, Alone cacheDir image files earlier s →
      Makes cacheDir s called after ∧ called.bundle.image = image ∧ called.bundle.files = files →
      Keeps cacheDir earlier called ∧ Alone cacheDir image files (earlier ++ [called]) after :=
    fun _ _ _ _ alone made => alone_step alone made.1 made.2
  exact (leads.each alike).throughout rule (alone_of_empty empty)

end OneImage

end DearAgent.Environment
