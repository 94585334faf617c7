import DearAgent.Lib.Effects
import DearAgent.Errors

/-!
# The container session

`ContainerSandbox` of `sandbox.py`: the first `wrap` starts a container and runs the
setup in it, later calls find its name recorded and execute in it, `close` removes it.
-/

namespace DearAgent.Container

open DearAgent.Lib.Text DearAgent.Lib.Effects

set_option autoImplicit false

structure Mount where
  host : Str
  container : Str
  readonly : Bool := true
  relabel : Bool := false

structure ContainerSandbox where
  image : Str
  mounts : List Mount := []
  envAllowlist : List Str := []
  network : Str := "host"
  containerHome : Str := "/root"
  workdir : Str := "/work"
  binary : Str := "podman"
  usernsKeepId : Bool := false
  extraArgs : List Str := []
  capDrop : Bool := true
  pidsLimit : Option Nat := some 512
  readOnly : Bool := false
  setup : List (List Str) := []
  selinux : Str := "auto"

/-- What the command lines are built from beside the configuration. -/
structure Host where
  environ : Str → Option Str
  expanduser : Str → Str
  selinuxEnabled : Bool

structure CompletedProcess where
  returncode : Int
  stdout : Str := ""
  stderr : Str := ""

inductive Act
  | start (name : Str)
  | exec (name : Str) (command : List Str)
  | remove (name : Str)

structure Command where
  act : Act
  argv : List Str

inductive PodmanRequest
  /-- `shutil.which(binary) is not None`. -/
  | which (binary : Str)
  | host
  /-- `uuid.uuid4().hex`. -/
  | uuid4
  | subprocess (command : Command)
  /-- `self._container`, and the assignment to it. -/
  | container
  | setContainer (name : Option Str)

@[reducible] def PodmanRequest.Reply : PodmanRequest → Type
  | .which _ => Bool
  | .host => Host
  | .uuid4 => Str
  | .subprocess _ => Except Exn CompletedProcess
  | .container => Option Str
  | .setContainer _ => Unit

@[reducible] def podman : Signature where
  Request := PodmanRequest
  Reply := PodmanRequest.Reply
  Raised := Exn

abbrev Podman (α : Type) := Program podman α

def sandboxError (text : Str) : Exn := .otherException "SandboxError" text

/-- `subprocess.run(argv, capture_output=True, text=True, check=False)`. -/
def subprocess (command : Command) : Podman CompletedProcess :=
  .ask (.subprocess command) (@unwrap podman _)

def containerPath (path containerHome : Str) : Str :=
  if path = "~".toList then containerHome
  else if startswith path "~/" then containerHome ++ '/' :: path.drop 2
  else path

/-- The `repr` of a tuple of texts. -/
def reprTuple [Unicode] (items : List Str) : Str :=
  match items with
  | [item] => '(' :: reprText item ++ ",)".toList
  | items => '(' :: join ", " (items.map reprText) ++ [')']

namespace ContainerSandbox

section CommandLines

variable (sandbox : ContainerSandbox) (host : Host)

def worktreeRelabel : Str :=
  if sandbox.selinux = "z".toList || sandbox.selinux = "Z".toList then ',' :: sandbox.selinux
  else if sandbox.selinux = "auto".toList && host.selinuxEnabled then ",Z" else ""

def mountRelabel (mount : Mount) : Str :=
  if sandbox.selinux = "z".toList || sandbox.selinux = "Z".toList then ',' :: sandbox.selinux
  else if mount.relabel && sandbox.selinux = "auto".toList && host.selinuxEnabled then ",Z" else ""

def passedEnv : List Str :=
  sandbox.envAllowlist.flatMap fun name =>
    match host.environ name with
    | some value => ["--env".toList, name ++ '=' :: value]
    | none => []

def mountVolume (mount : Mount) : List Str :=
  ["--volume".toList, host.expanduser mount.host ++ ':' ::
    containerPath mount.container sandbox.containerHome ++ ':' ::
    (if mount.readonly then "ro".toList else "rw".toList) ++ sandbox.mountRelabel host mount]

/-- `_run_argv` of the session: detached, kept, and asleep. -/
def runArgv (worktree name : Str) : List Str :=
  [sandbox.binary, "run".toList, "-d".toList, "--name".toList, name, "--security-opt".toList,
      "no-new-privileges".toList] ++
    (if sandbox.capDrop then ["--cap-drop".toList, "ALL".toList] else []) ++
    (match sandbox.pidsLimit with
      | some limit => ["--pids-limit".toList, (toString limit).toList]
      | none => []) ++
    (if sandbox.readOnly then ["--read-only".toList, "--tmpfs".toList, "/tmp".toList] else []) ++
    ["--volume".toList,
      worktree ++ ':' :: sandbox.workdir ++ ":rw".toList ++ sandbox.worktreeRelabel host,
      "--workdir".toList, sandbox.workdir, "--network".toList, sandbox.network] ++
    (if sandbox.selinux = "disable".toList then
      ["--security-opt".toList, "label=disable".toList] else []) ++
    (if sandbox.usernsKeepId then ["--userns=keep-id".toList] else []) ++
    sandbox.mounts.flatMap (sandbox.mountVolume host) ++ sandbox.passedEnv host ++
    sandbox.extraArgs ++
    ["--entrypoint".toList, "sleep".toList, sandbox.image, "infinity".toList]

/-- The command line of `build_exec_argv` for a container. -/
def execArgv (name : Str) (argv : List Str) : List Str :=
  [sandbox.binary, "exec".toList, "--workdir".toList, sandbox.workdir] ++ sandbox.passedEnv host ++
    ["--env".toList, "PWD=".toList ++ sandbox.workdir, name] ++ argv

end CommandLines

section Sessions

variable [Unicode] (sandbox : ContainerSandbox)

omit [Unicode] in
/-- `build_exec_argv`, with what the line tells the engine. -/
def buildExec (argv : List Str) : Podman Command := do
  match ← @request podman .container with
  | none => .raise (sandboxError "session has not been started")
  | some name => do
      let host ← @request podman .host
      .ret ⟨.exec name argv, sandbox.execArgv host name argv⟩

def runSetup (command : List Str) : Podman Unit := do
  let built ← sandbox.buildExec command
  let result ← subprocess built
  if result.returncode ≠ 0 then
    let detail := strip (if result.stderr.isEmpty then result.stdout else result.stderr)
    .raise (sandboxError ("session setup ".toList ++ reprTuple command ++ " failed: ".toList ++
      detail.take 300))
  else .ret ()

def runSetups : List (List Str) → Podman Unit
  | [] => .ret ()
  | command :: rest => do
      sandbox.runSetup command
      runSetups rest

def ensureStarted (worktree : Str) : Podman Unit := do
  match ← @request podman .container with
  | some _ => .ret ()
  | none => do
      let hex ← @request podman .uuid4
      let name := "dear-agent-".toList ++ hex
      let host ← @request podman .host
      let result ← subprocess ⟨.start name, sandbox.runArgv host worktree name⟩
      if result.returncode ≠ 0 then
        .raise (sandboxError (if (strip result.stderr).isEmpty then
          "cannot start the ".toList ++ reprText sandbox.image ++ " session".toList
          else strip result.stderr))
      else do
        @request podman (.setContainer (some name))
        sandbox.runSetups sandbox.setup

def wrap (argv : List Str) (worktree : Str) : Podman (List Str) := do
  if ← @request podman (.which sandbox.binary) then do
    sandbox.ensureStarted worktree
    let built ← sandbox.buildExec argv
    .ret built.argv
  else .raise (sandboxError (reprText sandbox.binary ++ " is not available".toList))

omit [Unicode] in
def close : Podman Unit := do
  match ← @request podman .container with
  | none => .ret ()
  | some name => do
      @request podman (.setContainer none)
      let _ ← subprocess ⟨.remove name, [sandbox.binary, "rm".toList, "-f".toList, name]⟩
      .ret ()

end Sessions

end ContainerSandbox

/-!
## The engine
-/

/-- The recorded name, and the containers this sandbox started that are not removed, each
with the setup commands that succeeded in it so far. -/
structure Session where
  container : Option Str
  live : Str → Option (List (List Str))

namespace Session

def fresh : Session := ⟨none, fun _ => none⟩

def put (s : Session) (name : Str) (ran : Option (List (List Str))) : Session :=
  { s with live := fun other => if other = name then ran else s.live other }

@[simp] theorem put_container (s : Session) (name : Str) (ran : Option (List (List Str))) :
    (s.put name ran).container = s.container := rfl

@[simp] theorem put_live_self (s : Session) (name : Str) (ran : Option (List (List Str))) :
    (s.put name ran).live name = ran := if_pos rfl

theorem put_live_ne (s : Session) {name other : Str} (ran : Option (List (List Str)))
    (different : other ≠ name) : (s.put name ran).live other = s.live other := if_neg different

def AtMostOne (s : Session) : Prop :=
  ∀ first second, (s.live first).isSome → (s.live second).isSome → first = second

/-- The live container is the one whose name is recorded. -/
def Recorded (s : Session) : Prop := ∀ name, s.container = some name ↔ (s.live name).isSome

theorem at_most_one_of_recorded {s : Session} (recorded : s.Recorded) : s.AtMostOne := by
  intro first second one two
  have same := (recorded first).mpr one
  rw [(recorded second).mpr two] at same
  exact (Option.some.inj same).symm

theorem fresh_recorded : fresh.Recorded := by
  intro name
  simp [fresh]

end Session

def Succeeds : Except Exn CompletedProcess → Prop
  | .ok result => result.returncode = 0
  | .error _ => False

/-- A start that fails leaves no container, a setup command that fails leaves the
container as it is, and so does a removal. -/
def engine : Env podman Session
  | .subprocess ⟨.start name, _⟩, s, reply, after =>
      (Succeeds reply ∧ s.live name = none ∧ after = s.put name (some [])) ∨
        (¬Succeeds reply ∧ after = s)
  | .subprocess ⟨.exec name command, _⟩, s, reply, after =>
      (Succeeds reply ∧ ∃ ran, s.live name = some ran ∧ after = s.put name (some (ran ++ [command]))) ∨
        (¬Succeeds reply ∧ after = s)
  | .subprocess ⟨.remove name, _⟩, s, reply, after =>
      (Succeeds reply ∧ after = s.put name none) ∨ (¬Succeeds reply ∧ after = s)
  | .container, s, reply, after => reply = s.container ∧ after = s
  | .setContainer name, s, _, after => after = { s with container := name }
  | .which _, s, _, after | .host, s, _, after | .uuid4, s, _, after => after = s

section Calls

variable [Unicode]

inductive Call
  | wrap (argv : List Str) (worktree : Str)
  | close

def Call.program (sandbox : ContainerSandbox) : Call → Podman (Option (List Str))
  | .wrap argv worktree => do
      let wrapped ← sandbox.wrap argv worktree
      .ret (some wrapped)
  | .close => do
      sandbox.close
      .ret none

/-- A call that was made, with what it exchanged and how it ended. -/
structure Called where
  call : Call
  before : Session
  trace : List (Exchange podman)
  outcome : Except Exn (Option (List Str))
  after : Session

/-- The calls of a run, each made in the session that the one before it left. -/
def Follows (sandbox : ContainerSandbox) : Session → List Called → Session → Prop
  | s, [], final => final = s
  | s, called :: rest, final => called.before = s ∧
      Exec engine (called.call.program sandbox) s called.trace called.outcome called.after ∧
      Follows sandbox called.after rest final

structure Keeps (sandbox : ContainerSandbox) (called : Called) : Prop where
  /-- A command line that is returned executes in a container that was set up. -/
  ready : ∀ argv worktree wrapped, called.call = .wrap argv worktree →
    called.outcome = .ok (some wrapped) →
    ∃ name host, wrapped = sandbox.execArgv host name argv ∧
      called.after.live name = some sandbox.setup
  /-- Wherever the call is stopped, there are not two containers. -/
  single : ∀ stop, Reaches engine (called.call.program sandbox) called.before stop → stop.AtMostOne
  closed : called.call = .close → ∀ name, called.after.live name = none
  idempotent : called.call = .close → ∀ trace outcome final,
    Exec engine (Call.program sandbox .close) called.after trace outcome final →
    final = called.after ∧ outcome = .ok none ∧
      ∀ event ∈ trace, ∀ command, event.1 ≠ .subprocess command

/-- No setup of the recorded container is incomplete where `wrap` finds the engine, and a
removal succeeds. -/
structure Undefeated (sandbox : ContainerSandbox) (called : Called) : Prop where
  setUp : ∀ argv worktree, called.call = .wrap argv worktree →
    ⟨.which sandbox.binary, true⟩ ∈ called.trace →
    ∀ name, called.before.container = some name → called.before.live name = some sandbox.setup
  removed : ∀ name argv reply, ⟨.subprocess ⟨.remove name, argv⟩, reply⟩ ∈ called.trace →
    Succeeds reply

end Calls

/-!
## One call
-/

section Steps

/-- A container is only started where none is live. -/
def Careful (s : Session) : PodmanRequest → Prop
  | .subprocess ⟨.start _, _⟩ => ∀ name, s.live name = none
  | _ => True

theorem careful_at_most_one {request : PodmanRequest} {s after : Session} {reply : request.Reply}
    (single : s.AtMostOne) (careful : Careful s request) (answered : engine request s reply after) :
    after.AtMostOne := by
  cases request with
  | which binary => exact answered ▸ single
  | host => exact answered ▸ single
  | uuid4 => exact answered ▸ single
  | container => exact answered.2 ▸ single
  | setContainer name => exact answered ▸ single
  | subprocess command =>
      obtain ⟨act, argv⟩ := command
      cases act with
      | start name =>
          rcases answered with ⟨_, _, rfl⟩ | ⟨_, rfl⟩
          · have alone : ∀ other, ((s.put name (some [])).live other).isSome → other = name := by
              intro other present
              by_contra different
              rw [Session.put_live_ne s _ different, careful other] at present
              cases present
            intro first second one two
            exact (alone first one).trans (alone second two).symm
          · exact single
      | exec name command =>
          rcases answered with ⟨_, ran, found, rfl⟩ | ⟨_, rfl⟩
          · have still : ∀ other, ((s.put name (some (ran ++ [command]))).live other).isSome →
                (s.live other).isSome := by
              intro other present
              by_cases same : other = name
              · rw [same, found]
                rfl
              · rwa [Session.put_live_ne s _ same] at present
            intro first second one two
            exact single first second (still first one) (still second two)
          · exact single
      | remove name =>
          rcases answered with ⟨_, rfl⟩ | ⟨_, rfl⟩
          · have still : ∀ other, ((s.put name none).live other).isSome → (s.live other).isSome := by
              intro other present
              by_cases same : other = name
              · rw [same, Session.put_live_self] at present
                cases present
              · rwa [Session.put_live_ne s _ same] at present
            intro first second one two
            exact single first second (still first one) (still second two)
          · exact single

/-- The container of the session, with the setup commands that succeeded in it. -/
def Runs (s : Session) (name : Str) (ran : List (List Str)) : Prop :=
  s.Recorded ∧ s.container = some name ∧ s.live name = some ran

theorem runs_exec {s : Session} {name : Str} {ran : List (List Str)} (runs : Runs s name ran)
    (command : List Str) : Runs (s.put name (some (ran ++ [command]))) name (ran ++ [command]) := by
  obtain ⟨recorded, named, found⟩ := runs
  refine ⟨fun other => ?_, named, Session.put_live_self s name _⟩
  by_cases same : other = name
  · subst same
    simp [named]
  · rw [Session.put_container, Session.put_live_ne s _ same]
    exact recorded other

theorem runs_started {s : Session} {name : Str} (empty : ∀ other, s.live other = none) :
    Runs { s.put name (some []) with container := some name } name [] := by
  refine ⟨fun other => ?_, rfl, Session.put_live_self s name _⟩
  by_cases same : other = name
  · subst same
    simp
  · change some name = some other ↔ ((s.put name (some [])).live other).isSome = true
    rw [Session.put_live_ne s _ same, empty other]
    simp [Ne.symm same]

variable [Unicode] (sandbox : ContainerSandbox)

omit [Unicode] in
theorem build_exec_meets (argv : List Str) {s : Session} {name : Str} (named : s.container = some name) :
    Meets engine Careful (sandbox.buildExec argv) s fun after outcome => after = s ∧
      ∃ host, outcome = .ok ⟨.exec name argv, sandbox.execArgv host name argv⟩ := by
  refine ⟨trivial, fun found after answered => ?_⟩
  obtain ⟨rfl, rfl⟩ := answered
  rw [named]
  refine ⟨trivial, fun host after answered => ?_⟩
  exact ⟨answered, host, rfl⟩

theorem run_setup_meets (command : List Str) {s : Session} {name : Str} {ran : List (List Str)}
    (runs : Runs s name ran) :
    Meets engine Careful (sandbox.runSetup command) s fun after outcome =>
      (∃ ran', Runs after name ran') ∧ (outcome = .ok () → Runs after name (ran ++ [command])) := by
  apply (build_exec_meets sandbox command runs.2.1).seq
  · rintro s' built ⟨rfl, host, same⟩
    cases same
    refine ⟨trivial, fun reply after answered => ?_⟩
    cases reply with
    | error error =>
        rcases answered with ⟨failed, _⟩ | ⟨_, rfl⟩
        · exact failed.elim
        · exact ⟨⟨ran, runs⟩, nofun⟩
    | ok result =>
        change Meets _ _ (if result.returncode ≠ 0 then _ else _) _ _
        rcases answered with ⟨succeeded, ran', found, rfl⟩ | ⟨failed, rfl⟩
        · have zero : result.returncode = 0 := succeeded
          rw [if_neg (not_not.mpr zero)]
          rw [runs.2.2] at found
          cases found
          exact ⟨⟨_, runs_exec runs command⟩, fun _ => runs_exec runs command⟩
        · have nonzero : result.returncode ≠ 0 := failed
          rw [if_pos nonzero]
          exact ⟨⟨ran, runs⟩, nofun⟩
  · rintro s' error ⟨_, host, same⟩
    cases same

theorem run_setups_meets (commands : List (List Str)) {s : Session} {name : Str}
    {ran : List (List Str)} (runs : Runs s name ran) :
    Meets engine Careful (sandbox.runSetups commands) s fun after outcome =>
      (∃ ran', Runs after name ran') ∧ (outcome = .ok () → Runs after name (ran ++ commands)) := by
  induction commands generalizing s ran with
  | nil =>
      rw [List.append_nil]
      exact ⟨⟨ran, runs⟩, fun _ => runs⟩
  | cons command rest ih =>
      apply (run_setup_meets sandbox command runs).seq
      · intro after _ reached
        rw [List.append_cons]
        exact ih (reached.2 rfl)
      · intro after error reached
        exact ⟨reached.1, nofun⟩

theorem ensure_started_meets (worktree : Str) {s : Session} (recorded : s.Recorded) :
    Meets engine Careful (sandbox.ensureStarted worktree) s fun after outcome =>
      after.Recorded ∧ (outcome = .ok () →
        (s.container.isSome ∧ after = s) ∨ ∃ name, Runs after name sandbox.setup) := by
  refine ⟨trivial, fun found after answered => ?_⟩
  obtain ⟨rfl, rfl⟩ := answered
  cases named : after.container with
  | some name => exact ⟨recorded, fun _ => .inl ⟨rfl, rfl⟩⟩
  | none =>
      have empty : ∀ other, after.live other = none := by
        intro other
        cases present : after.live other with
        | none => rfl
        | some ran =>
            have same := (recorded other).mpr (by rw [present]; rfl)
            rw [named] at same
            cases same
      refine ⟨trivial, fun hex s' same => ?_⟩
      obtain rfl : after = s' := Eq.symm same
      refine ⟨trivial, fun host s' same => ?_⟩
      obtain rfl : after = s' := Eq.symm same
      refine ⟨empty, fun reply started answered => ?_⟩
      cases reply with
      | error error =>
          rcases answered with ⟨failed, _⟩ | ⟨_, rfl⟩
          · exact failed.elim
          · exact ⟨recorded, nofun⟩
      | ok result =>
          change Meets _ _ (if result.returncode ≠ 0 then _ else _) _ _
          rcases answered with ⟨succeeded, _, rfl⟩ | ⟨failed, rfl⟩
          · have zero : result.returncode = 0 := succeeded
            rw [if_neg (not_not.mpr zero)]
            refine ⟨trivial, fun _ s' same => ?_⟩
            obtain rfl := same
            apply (run_setups_meets sandbox sandbox.setup (runs_started empty)).post
            rintro final outcome ⟨⟨ran, runs⟩, complete⟩
            exact ⟨runs.1, fun returned => .inr ⟨_, complete returned⟩⟩
          · have nonzero : result.returncode ≠ 0 := failed
            rw [if_pos nonzero]
            exact ⟨recorded, nofun⟩

theorem wrap_meets (argv : List Str) (worktree : Str) {s : Session} (recorded : s.Recorded) :
    Meets engine Careful (sandbox.wrap argv worktree) s fun after outcome =>
      after.Recorded ∧ ∀ wrapped, outcome = .ok wrapped → ∃ name host,
        wrapped = sandbox.execArgv host name argv ∧ after.container = some name ∧
        (after = s ∨ after.live name = some sandbox.setup) := by
  refine ⟨trivial, fun available after same => ?_⟩
  obtain rfl : after = s := same
  cases available with
  | false => exact ⟨recorded, nofun⟩
  | true =>
      apply (ensure_started_meets sandbox worktree recorded).seq
      · intro ready _ reached
        have named : ∃ name, ready.container = some name ∧
            (ready = after ∨ ready.live name = some sandbox.setup) := by
          rcases reached.2 rfl with ⟨named, rfl⟩ | ⟨name, runs⟩
          · obtain ⟨name, same⟩ := Option.isSome_iff_exists.mp named
            exact ⟨name, same, .inl rfl⟩
          · exact ⟨name, runs.2.1, .inr runs.2.2⟩
        obtain ⟨name, same, complete⟩ := named
        apply (build_exec_meets sandbox argv same).seq
        · rintro s' built ⟨rfl, host, equal⟩
          cases equal
          refine ⟨reached.1, fun wrapped returned => ?_⟩
          cases returned
          exact ⟨name, host, rfl, same, complete⟩
        · rintro s' error ⟨_, host, equal⟩
          cases equal
      · intro ready error reached
        exact ⟨reached.1, nofun⟩

omit [Unicode] in
theorem close_meets {s : Session} :
    Meets engine Careful (sandbox.close) s fun _ _ => True := by
  refine ⟨trivial, fun found after _ => ?_⟩
  cases found with
  | none => trivial
  | some name => exact ⟨trivial, fun _ _ _ => ⟨trivial, fun reply _ _ => by cases reply <;> trivial⟩⟩

theorem call_meets (call : Call) {s : Session} (recorded : s.Recorded) :
    Meets engine Careful (call.program sandbox) s fun after outcome =>
      ∀ argv worktree, call = .wrap argv worktree → after.Recorded ∧
        ∀ wrapped, outcome = .ok (some wrapped) → ∃ name host,
          wrapped = sandbox.execArgv host name argv ∧ after.container = some name ∧
          (after = s ∨ after.live name = some sandbox.setup) := by
  cases call with
  | wrap argv worktree =>
      apply (wrap_meets sandbox argv worktree recorded).seq
      · rintro after wrapped reached _ _ ⟨⟩
        refine ⟨reached.1, fun again same => ?_⟩
        cases same
        exact reached.2 wrapped rfl
      · rintro after error reached _ _ ⟨⟩
        exact ⟨reached.1, nofun⟩
  | close => exact (close_meets sandbox).seq (fun _ _ _ => nofun) fun _ _ _ => nofun

def Sparing : PodmanRequest → Prop
  | .subprocess ⟨.remove _, _⟩ => False
  | _ => True

omit [Unicode] in
theorem build_exec_asks (argv : List Str) : Asks Sparing (sandbox.buildExec argv) := by
  refine ⟨trivial, fun found => ?_⟩
  cases found with
  | none => trivial
  | some name => exact ⟨trivial, fun _ => trivial⟩

theorem run_setup_asks (command : List Str) : Asks Sparing (sandbox.runSetup command) := by
  refine ⟨trivial, fun found => ?_⟩
  cases found with
  | none => trivial
  | some name =>
      refine ⟨trivial, fun host => ⟨trivial, fun reply => ?_⟩⟩
      cases reply with
      | error error => trivial
      | ok result =>
          change Asks (S := podman) Sparing (if result.returncode ≠ 0 then _ else _)
          split_ifs <;> trivial

theorem run_setups_asks (commands : List (List Str)) :
    Asks Sparing (sandbox.runSetups commands) := by
  induction commands with
  | nil => trivial
  | cons command rest ih => exact asks_bind (run_setup_asks sandbox command) fun _ => ih

theorem ensure_started_asks (worktree : Str) : Asks Sparing (sandbox.ensureStarted worktree) := by
  refine ⟨trivial, fun found => ?_⟩
  cases found with
  | some name => trivial
  | none =>
      refine ⟨trivial, fun hex => ⟨trivial, fun host => ⟨trivial, fun reply => ?_⟩⟩⟩
      cases reply with
      | error error => trivial
      | ok result =>
          change Asks (S := podman) Sparing (if result.returncode ≠ 0 then _ else _)
          by_cases failed : result.returncode ≠ 0
          · rw [if_pos failed]
            trivial
          · rw [if_neg failed]
            exact ⟨trivial, fun _ => run_setups_asks sandbox sandbox.setup⟩

theorem wrap_asks (argv : List Str) (worktree : Str) :
    Asks Sparing (sandbox.wrap argv worktree) := by
  refine ⟨trivial, fun available => ?_⟩
  cases available with
  | false => trivial
  | true =>
      change Asks Sparing (sandbox.ensureStarted worktree >>= _)
      apply asks_bind (ensure_started_asks sandbox worktree)
      intro _
      exact asks_bind (build_exec_asks sandbox argv) fun _ => trivial

variable {sandbox}

theorem wrap_named {argv : List Str} {worktree name : Str} {s after : Session}
    {trace : List (Exchange podman)} {outcome : Except Exn (Option (List Str))}
    (named : s.container = some name)
    (execution : Exec engine (Call.program sandbox (.wrap argv worktree)) s trace outcome after)
    (available : ⟨.which sandbox.binary, true⟩ ∈ trace) :
    ∃ host, outcome = .ok (some (sandbox.execArgv host name argv)) ∧ after = s := by
  obtain ⟨found, middle, rest, same, rfl, later⟩ := execution
  obtain rfl : s = middle := Eq.symm same
  cases found with
  | false =>
      obtain ⟨rfl, _, _⟩ := later
      have equal := eq_of_heq (Sigma.mk.inj (List.mem_singleton.mp available)).2
      cases equal
  | true =>
      obtain ⟨first, middle, rest, ⟨rfl, same⟩, _, later⟩ := later
      obtain rfl : s = middle := Eq.symm same
      rw [named] at later
      obtain ⟨second, middle, rest, ⟨rfl, same⟩, _, later⟩ := later
      obtain rfl : s = middle := Eq.symm same
      rw [named] at later
      obtain ⟨host, middle, rest, same, _, later⟩ := later
      obtain rfl : s = middle := Eq.symm same
      exact ⟨host, later.2.1, later.2.2⟩

theorem wrap_available {argv : List Str} {worktree : Str} {s after : Session}
    {trace : List (Exchange podman)} {wrapped : Option (List Str)}
    (execution : Exec engine (Call.program sandbox (.wrap argv worktree)) s trace (.ok wrapped) after) :
    ⟨.which sandbox.binary, true⟩ ∈ trace := by
  obtain ⟨found, middle, rest, same, rfl, later⟩ := execution
  cases found with
  | false => cases later.2.1
  | true => exact List.mem_cons_self ..

theorem close_does {s after : Session} {trace : List (Exchange podman)}
    {outcome : Except Exn (Option (List Str))}
    (execution : Exec engine (Call.program sandbox .close) s trace outcome after) :
    (s.container = none ∧ after = s ∧ outcome = .ok none ∧ trace = [⟨.container, none⟩]) ∨
      ∃ name argv reply, s.container = some name ∧
        trace = [⟨.container, some name⟩, ⟨.setContainer none, ()⟩,
          ⟨.subprocess ⟨.remove name, argv⟩, reply⟩] ∧
        ((Succeeds reply ∧ after = { s.put name none with container := none }) ∨
          (¬Succeeds reply ∧ after = { s with container := none })) := by
  obtain ⟨found, middle, rest, answered, rfl, later⟩ := execution
  obtain ⟨rfl, rfl⟩ := answered
  cases named : middle.container with
  | none =>
      rw [named] at later
      obtain ⟨rfl, rfl, rfl⟩ := later
      exact .inl ⟨rfl, rfl, rfl, rfl⟩
  | some name =>
      rw [named] at later
      obtain ⟨_, cleared, rest, same, rfl, later⟩ := later
      obtain rfl : cleared = _ := same
      obtain ⟨reply, final, rest, answered, rfl, later⟩ := later
      have ended : rest = [] ∧ after = final := by
        cases reply with
        | error error => exact ⟨later.1, later.2.2⟩
        | ok result => exact ⟨later.1, later.2.2⟩
      obtain ⟨rfl, rfl⟩ := ended
      exact .inr ⟨name, _, reply, rfl, rfl, answered⟩

end Steps

/-!
## Whole runs
-/

section Runs

variable [Unicode] {sandbox : ContainerSandbox} {before after : Session}
  {trace : List (Exchange podman)} {outcome : Except Exn (Option (List Str))}

theorem wrap_keeps_iff {argv : List Str} {worktree : Str} (recorded : before.Recorded)
    (execution : Exec engine (Call.program sandbox (.wrap argv worktree)) before trace outcome after) :
    Keeps sandbox ⟨.wrap argv worktree, before, trace, outcome, after⟩ ↔
      Undefeated sandbox ⟨.wrap argv worktree, before, trace, outcome, after⟩ := by
  have asks : Asks Sparing (Call.program sandbox (.wrap argv worktree)) :=
    asks_bind (wrap_asks sandbox argv worktree) fun _ => by exact trivial
  have sparing : ∀ event ∈ trace, Sparing event.1 := asks.exchanged execution
  constructor
  · intro keeps
    refine ⟨fun argv' worktree' same available name named => ?_, fun name line reply member => ?_⟩
    · cases same
      obtain ⟨host, rfl, rfl⟩ := wrap_named named execution available
      obtain ⟨other, _, _, complete⟩ := keeps.ready _ _ _ rfl rfl
      have same := (recorded other).mpr (by rw [complete]; rfl)
      rw [named] at same
      cases same
      exact complete
    · exact (sparing _ member).elim
  · intro undefeated
    refine ⟨fun argv' worktree' wrapped same returned => ?_, fun stop reached => ?_, nofun, nofun⟩
    · cases same
      cases returned
      obtain ⟨name, host, same, named, kept | complete⟩ :=
        ((call_meets sandbox _ recorded).sound execution argv worktree rfl).2 wrapped rfl
      · cases kept
        exact ⟨name, host, same,
          undefeated.setUp argv worktree rfl (wrap_available execution) name named⟩
      · exact ⟨name, host, same, complete⟩
    · exact (call_meets sandbox _ recorded).reaches reached
        (fun _ _ _ _ single careful answered => careful_at_most_one single careful answered)
        (Session.at_most_one_of_recorded recorded)

theorem close_keeps_iff (recorded : before.Recorded)
    (execution : Exec engine (Call.program sandbox .close) before trace outcome after) :
    (Keeps sandbox ⟨.close, before, trace, outcome, after⟩ ↔
        Undefeated sandbox ⟨.close, before, trace, outcome, after⟩) ∧
      (Undefeated sandbox ⟨.close, before, trace, outcome, after⟩ → after.Recorded) := by
  have single : ∀ stop, Reaches engine (Call.program sandbox .close) before stop →
      stop.AtMostOne := fun stop reached =>
    (call_meets sandbox .close recorded).reaches reached
      (fun _ _ _ _ single careful answered => careful_at_most_one single careful answered)
      (Session.at_most_one_of_recorded recorded)
  have again : after.container = none → ∀ trace outcome final,
      Exec engine (Call.program sandbox .close) after trace outcome final →
      final = after ∧ outcome = .ok none ∧ ∀ event ∈ trace, ∀ command,
        event.1 ≠ .subprocess command := by
    intro unnamed trace outcome final execution
    rcases close_does execution with ⟨_, rfl, rfl, rfl⟩ | ⟨name, _, _, named, _⟩
    · refine ⟨rfl, rfl, fun event member command same => ?_⟩
      rw [List.mem_singleton.mp member] at same
      cases same
    · rw [unnamed] at named
      cases named
  rcases close_does execution with
    ⟨unnamed, same, rfl, rfl⟩ | ⟨name, line, reply, named, rfl, removed | kept⟩
  · obtain rfl : before = after := Eq.symm same
    have empty : ∀ name, before.live name = none := by
      intro name
      cases present : before.live name with
      | none => rfl
      | some ran =>
          have same := (recorded name).mpr (by rw [present]; rfl)
          rw [unnamed] at same
          cases same
    refine ⟨iff_of_true ⟨nofun, single, fun _ => empty, fun _ => again unnamed⟩ ⟨nofun, ?_⟩,
      fun _ => recorded⟩
    intro name line reply member
    cases List.mem_singleton.mp member
  · obtain ⟨succeeded, rfl⟩ := removed
    have empty : ∀ other, (before.put name none).live other = none := by
      intro other
      by_cases same : other = name
      · rw [same]
        exact Session.put_live_self before name none
      · rw [Session.put_live_ne before none same]
        cases present : before.live other with
        | none => rfl
        | some ran =>
            have equal := (recorded other).mpr (by rw [present]; rfl)
            rw [named] at equal
            exact absurd (Option.some.inj equal).symm same
    refine ⟨iff_of_true ⟨nofun, single, fun _ => empty, fun _ => again rfl⟩ ⟨nofun, ?_⟩, ?_⟩
    · intro name' line' reply' member
      simp only [List.mem_cons, List.not_mem_nil, or_false] at member
      rcases member with other | other | same
      · cases other
      · cases other
      · cases same
        exact succeeded
    · intro _ other
      exact iff_of_false nofun (by
        change ¬((before.put name none).live other).isSome = true
        rw [empty other]
        nofun)
  · obtain ⟨failed, rfl⟩ := kept
    have defeated : ¬Undefeated sandbox ⟨.close, before, [⟨.container, some name⟩,
        ⟨.setContainer none, ()⟩, ⟨.subprocess ⟨.remove name, line⟩, reply⟩], outcome,
        { before with container := none }⟩ := by
      intro undefeated
      apply failed
      apply undefeated.removed name line reply
      simp
    refine ⟨iff_of_false (fun keeps => ?_) defeated, fun undefeated => absurd undefeated defeated⟩
    have present := (recorded name).mp named
    have gone : before.live name = none := keeps.closed rfl name
    rw [gone] at present
    cases present

/-- One call: it keeps what it should exactly if it was not defeated, and then the name
that is recorded is that of the live container. -/
theorem call_keeps_iff {called : Called} (recorded : called.before.Recorded)
    (execution : Exec engine (called.call.program sandbox) called.before called.trace
      called.outcome called.after) :
    (Keeps sandbox called ↔ Undefeated sandbox called) ∧
      (Undefeated sandbox called → called.after.Recorded) := by
  obtain ⟨call, before, trace, outcome, after⟩ := called
  cases call with
  | wrap argv worktree =>
      refine ⟨wrap_keeps_iff recorded execution, fun _ => ?_⟩
      exact ((call_meets sandbox _ recorded).sound execution argv worktree rfl).1
  | close => exact close_keeps_iff recorded execution

theorem calls_keep_iff {s final : Session} {calls : List Called} (recorded : s.Recorded)
    (follows : Follows sandbox s calls final) :
    (∀ called ∈ calls, Keeps sandbox called) ↔ ∀ called ∈ calls, Undefeated sandbox called := by
  induction calls generalizing s with
  | nil => simp
  | cons called rest ih =>
      obtain ⟨rfl, execution, later⟩ := follows
      obtain ⟨first, onward⟩ := call_keeps_iff recorded execution
      rw [List.forall_mem_cons, List.forall_mem_cons, first]
      constructor
      · rintro ⟨undefeated, keep⟩
        exact ⟨undefeated, (ih (onward undefeated) later).mp keep⟩
      · rintro ⟨undefeated, others⟩
        exact ⟨undefeated, (ih (onward undefeated) later).mpr others⟩

/-- In a run of any calls from a new sandbox on, every call keeps what it should exactly
if none was defeated. -/
theorem session_kept_iff {calls : List Called} {final : Session}
    (follows : Follows sandbox .fresh calls final) :
    (∀ called ∈ calls, Keeps sandbox called) ↔ ∀ called ∈ calls, Undefeated sandbox called :=
  calls_keep_iff Session.fresh_recorded follows

end Runs

section Example

local instance sandboxTables : Unicode := asciiTables

def answerPodman (fails : Bool) (request : PodmanRequest) (s : Session) :
    request.Reply × Session :=
  match request with
  | .which _ => (true, s)
  | .host => (⟨fun _ => none, id, false⟩, s)
  | .uuid4 => ("0", s)
  | .container => (s.container, s)
  | .setContainer name => ((), { s with container := name })
  | .subprocess ⟨.start name, _⟩ =>
      if (s.live name).isSome then (.ok { returncode := 125 }, s)
      else (.ok { returncode := 0 }, s.put name (some []))
  | .subprocess ⟨.exec name command, _⟩ =>
      if fails then (.ok { returncode := 1, stderr := "npm: not found" }, s)
      else
        match s.live name with
        | none => (.ok { returncode := 125 }, s)
        | some ran => (.ok { returncode := 0 }, s.put name (some (ran ++ [command])))
  | .subprocess ⟨.remove name, _⟩ => (.ok { returncode := 0 }, s.put name none)

theorem answer_podman_engine (fails : Bool) (request : PodmanRequest) (s : Session) :
    engine request s (answerPodman fails request s).1 (answerPodman fails request s).2 := by
  cases request with
  | which binary => rfl
  | host => rfl
  | uuid4 => rfl
  | container => exact ⟨rfl, rfl⟩
  | setContainer name => rfl
  | subprocess command =>
      obtain ⟨act, argv⟩ := command
      cases act with
      | start name =>
          simp only [answerPodman]
          cases present : s.live name with
          | none => exact .inl ⟨rfl, present, rfl⟩
          | some ran => exact .inr ⟨by simp [Succeeds], rfl⟩
      | exec name command =>
          simp only [answerPodman]
          cases fails with
          | true => exact .inr ⟨by simp [Succeeds], rfl⟩
          | false =>
              cases present : s.live name with
              | none => exact .inr ⟨by simp [Succeeds], rfl⟩
              | some ran => exact .inl ⟨rfl, ran, present, rfl⟩
      | remove name => exact .inl ⟨rfl, rfl⟩

/-- A harness that `npm` installs. -/
def npmSandbox : ContainerSandbox where
  image := "node"
  setup := [["npm", "install", "-g", "claude"].map String.toList]

def made (fails : Bool) (call : Call) (s : Session) : Called :=
  let ended := run (answerPodman fails) (call.program npmSandbox) s
  ⟨call, s, ended.1, ended.2.1, ended.2.2⟩

theorem made_executes (fails : Bool) (call : Call) (s : Session) :
    Exec engine (call.program npmSandbox) s (made fails call s).trace (made fails call s).outcome
      (made fails call s).after :=
  exec_run engine (answerPodman fails) (answer_podman_engine fails) _ s

def runsClaude : Call := .wrap ["claude".toList] "/work"

def closedRun : List Called :=
  let first := made false runsClaude .fresh
  [first, made false .close first.after]

theorem closed_run_kept :
    (∀ called ∈ closedRun, Keeps npmSandbox called) ↔
      ∀ called ∈ closedRun, Undefeated npmSandbox called :=
  session_kept_iff ⟨rfl, made_executes _ _ _, rfl, made_executes _ _ _, rfl⟩

/-- The setup fails, and `wrap` is called again. -/
def retriedRun : List Called :=
  let first := made true runsClaude .fresh
  [first, made true runsClaude first.after]

def retriedSession : Session := (made true runsClaude (made true runsClaude .fresh).after).after

theorem retried_without_setup :
    Follows npmSandbox .fresh retriedRun retriedSession ∧
      retriedSession.live "dear-agent-0".toList = some [] ∧
      ¬∀ called ∈ retriedRun, Keeps npmSandbox called := by
  refine ⟨⟨rfl, made_executes _ _ _, rfl, made_executes _ _ _, rfl⟩, rfl, fun keeps => ?_⟩
  have keep := keeps (made true runsClaude (made true runsClaude .fresh).after) (by simp [retriedRun])
  obtain ⟨name, host, _, complete⟩ := keep.ready _ _ _ rfl rfl
  change (if name = "dear-agent-0".toList then some [] else none) = some npmSandbox.setup at complete
  split_ifs at complete
  cases complete

end Example

end DearAgent.Container
