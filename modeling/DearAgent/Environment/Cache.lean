import DearAgent.Environment.Bundle

/-!
# The bundle cache

Calls of `ensure` on one cache directory, on a host whose container engine may fail to create
a container or to copy a file. What is under the root of the cache was copied from the image
of the bundle that first came through; a later bundle is told that its files are there.
-/

namespace DearAgent.Environment

open DearAgent.Lib.Text DearAgent.Lib.Effects DearAgent.Lib.Histories
open DearAgent.Container (CompletedProcess Succeeds)

set_option autoImplicit false

structure Origin where
  serial : Nat
  image : Str
deriving DecidableEq

inductive Content
  | text (text : Str)
  | copied (origin : Origin) (source : Str)
  /-- A copy that broke off. -/
  | torn
deriving DecidableEq

structure Host where
  files : FilePath → Option Content
  containers : Str → Option Origin
  /-- So many containers were created so far. -/
  created : Nat

namespace Host

variable (s : Host)

def put (path : FilePath) (content : Option Content) : Host :=
  { s with files := fun other => if other = path then content else s.files other }

def putContainer (name : Str) (origin : Option Origin) : Host :=
  { s with containers := fun other => if other = name then origin else s.containers other }

def start (name image : Str) : Host :=
  { s.putContainer name (some ⟨s.created, image⟩) with created := s.created + 1 }

@[simp] theorem put_self (path : FilePath) (content : Option Content) :
    (s.put path content).files path = content := if_pos rfl

theorem put_ne {path other : FilePath} (content : Option Content) (apart : other ≠ path) :
    (s.put path content).files other = s.files other := if_neg apart

@[simp] theorem put_containers (path : FilePath) (content : Option Content) :
    (s.put path content).containers = s.containers := rfl

@[simp] theorem put_created (path : FilePath) (content : Option Content) :
    (s.put path content).created = s.created := rfl

@[simp] theorem put_container_files (name : Str) (origin : Option Origin) :
    (s.putContainer name origin).files = s.files := rfl

@[simp] theorem put_container_created (name : Str) (origin : Option Origin) :
    (s.putContainer name origin).created = s.created := rfl

@[simp] theorem start_files (name image : Str) : (s.start name image).files = s.files := rfl

@[simp] theorem start_created (name image : Str) :
    (s.start name image).created = s.created + 1 := rfl

theorem start_removed {name : Str} (image : Str) (free : s.containers name = none) :
    ((s.start name image).putContainer name none).containers = s.containers := by
  funext other
  by_cases same : other = name
  · subst same
    exact (if_pos rfl).trans free.symm
  · exact (if_neg same).trans (if_neg same)

end Host

/-- A copy that fails may leave the file that was there, none, or the new one in part or as a
whole; a creation that fails leaves no container, and one that succeeds takes a free name. -/
def machine : Env host Host
  | .pathExists path, s, reply, after => reply = (s.files path).isSome ∧ after = s
  | .mkdir _, s, _, after | .makeExecutable _, s, _, after => after = s
  | .writeText path text, s, _, after => after = s.put path (some (.text text))
  | .run ⟨.create image, _⟩, s, reply, after =>
      (∃ result : CompletedProcess, reply = .ok result ∧ result.returncode = 0 ∧
        s.containers (strip result.stdout) = none ∧
          after = s.start (strip result.stdout) image) ∨
        (¬Succeeds reply ∧ after = s)
  | .run ⟨.copy container source target, _⟩, s, reply, after =>
      (Succeeds reply ∧ ∃ origin, s.containers container = some origin ∧
        after = s.put target (some (.copied origin source))) ∨
        (¬Succeeds reply ∧ ∃ left, after = s.put target left ∧
          (left = s.files target ∨ left = none ∨ left = some .torn ∨
            ∃ origin, s.containers container = some origin ∧ left = some (.copied origin source)))
  | .run ⟨.remove container, _⟩, s, reply, after =>
      (∃ result, reply = .ok result) ∧ after = s.putContainer container none

/-- The engine did not do what it was asked for the files. -/
def Fails : Exchange host → Prop
  | ⟨.run ⟨.remove _, _⟩, _⟩ => False
  | ⟨.run _, reply⟩ => ¬Succeeds reply
  | _ => False

/-!
## What is expected of a call
-/

/-- A call that was made, with what it exchanged and how it ended. -/
structure Called where
  bundle : HarnessBundle
  before : Host
  trace : List (Exchange host)
  outcome : Except Exn Unit
  after : Host

namespace Called

variable (called : Called)

def origin : Origin := ⟨called.before.created, called.bundle.image⟩

/-- The call found no marker and succeeded in all it did. -/
def Fetches : Prop := called.before.files called.bundle.marker = none ∧ called.outcome = .ok ()

end Called

section Expectations

variable [Unicode] (cacheDir : FilePath)

def UnderRoot (path : FilePath) : Prop := cacheDir ++ ["root".toList] <+: path

def markerOf : FilePath := cacheDir ++ [".ready".toList]

/-- A call of `ensure` on the cache. -/
def Makes (s : Host) (called : Called) (after : Host) : Prop :=
  called.bundle.cacheDir = cacheDir ∧ called.before = s ∧ called.after = after ∧
    Exec machine called.bundle.ensure s called.trace called.outcome after

/-- All files under the root were copied in one of the calls that succeeded, from the image. -/
def Matches (calls : List Called) (image : Str) (s : Host) : Prop :=
  (∀ path, UnderRoot cacheDir path → s.files path = none) ∨
    ∃ call ∈ calls, call.Fetches ∧ call.bundle.image = image ∧
      ∀ path content, UnderRoot cacheDir path → s.files path = some content →
        ∃ source, content = .copied call.origin source

/-- What is expected of a call behind other ones. -/
structure Keeps (earlier : List Called) (called : Called) : Prop where
  matching : called.outcome = .ok () →
    Matches cacheDir (earlier ++ [called]) called.bundle.image called.after
  unmarked : called.outcome ≠ .ok () → called.after.files (markerOf cacheDir) = none
  removed : called.after.containers = called.before.containers

/-- A call that finds the marker is for the image of the call that wrote it, if there are files
of that one; a call that has all it asks for finds no files but those it replaces. -/
structure Unmixed (earlier : List Called) (called : Called) : Prop where
  same_image : called.before.files (markerOf cacheDir) ≠ none → ∀ call ∈ earlier, call.Fetches →
    call.bundle.files = [] ∨ call.bundle.image = called.bundle.image
  replaced : called.before.files (markerOf cacheDir) = none →
    (∀ event ∈ called.trace, ¬Fails event) → ∀ path, UnderRoot cacheDir path →
      called.before.files path ≠ none → ∃ item ∈ called.bundle.files, path = called.bundle.target item

def Empty (s : Host) : Prop := ∀ path, cacheDir <+: path → s.files path = none

end Expectations

section Places

variable (bundle : HarnessBundle)

theorem target_under_root (item : BundleFile) :
    UnderRoot bundle.cacheDir (bundle.target item) := List.prefix_append _ _

theorem under_root_has {cacheDir path : FilePath} (under : UnderRoot cacheDir path) :
    path[cacheDir.length]? = some "root".toList := by
  have ⟨rest, same⟩ := under
  rw [← same]
  simp

theorem marker_aside (cacheDir : FilePath) : ¬UnderRoot cacheDir (markerOf cacheDir) := by
  intro under
  have root := under_root_has under
  rw [markerOf, List.getElem?_concat_length] at root
  exact absurd (Option.some.inj root) (by decide)

theorem shim_aside : ¬UnderRoot bundle.cacheDir bundle.shim := by
  intro under
  have root := under_root_has under
  rw [HarnessBundle.shim, List.getElem?_append_right (Nat.le_refl _), Nat.sub_self] at root
  exact absurd (Option.some.inj root) (by decide)

end Places

/-!
## What a call does
-/

section Steps

variable {bundle : HarnessBundle} {container : Str} {origin : Origin} {s after : Host}
  {trace : List (Exchange host)} {outcome : Except Exn Unit}

/-- What copying some files comes to, from a container that was created as `origin`. -/
structure Copies (bundle : HarnessBundle) (origin : Origin) (items : List BundleFile) (s : Host)
    (trace : List (Exchange host)) (outcome : Except Exn Unit) (after : Host) : Prop where
  containers : after.containers = s.containers
  created : after.created = s.created
  aside : ∀ path, (∀ item ∈ items, path ≠ bundle.target item) → after.files path = s.files path
  own : ∀ path other source, after.files path = some (.copied other source) →
    other = origin ∨ s.files path = some (.copied other source)
  complete : outcome = .ok () → ∀ item ∈ items, ∃ source,
    after.files (bundle.target item) = some (.copied origin source)
  served : outcome = .ok () ↔ ∀ event ∈ trace, ¬Fails event

theorem copied_one {item : BundleFile} {reply : Except Exn CompletedProcess}
    (held : s.containers container = some origin)
    (answered : machine (.run (bundle.copyCommand container item)) s reply after) :
    ∃ left, after = s.put (bundle.target item) left ∧
      (Succeeds reply → ∃ source, left = some (.copied origin source)) ∧
      ∀ other source, left = some (.copied other source) →
        other = origin ∨ s.files (bundle.target item) = some (.copied other source) := by
  have held_only : ∀ own, s.containers container = some own → own = origin := by
    intro own found
    rw [held] at found
    exact (Option.some.inj found).symm
  cases answered with
  | inl copied =>
      have ⟨_, own, found, same⟩ := copied
      have known := held_only own found
      subst known
      refine ⟨_, same, fun _ => ⟨item.source, rfl⟩, ?_⟩
      intro other source equal
      cases equal
      exact .inl rfl
  | inr broken =>
      have ⟨failed, left, same, kinds⟩ := broken
      refine ⟨left, same, fun succeeded => absurd succeeded failed, ?_⟩
      intro other source equal
      rcases kinds with kept | nothing | part | ⟨own, found, whole⟩
      · exact .inr (kept.symm.trans equal)
      · rw [nothing] at equal
        cases equal
      · rw [part] at equal
        cases equal
      · have known := held_only own found
        subst known
        rw [whole] at equal
        cases equal
        exact .inl rfl

theorem copies_broken {item : BundleFile} {rest : List BundleFile} {left : Option Content}
    {reply : Except Exn CompletedProcess} {error : Exn} (failed : ¬Succeeds reply)
    (kinds : ∀ other source, left = some (.copied other source) →
      other = origin ∨ s.files (bundle.target item) = some (.copied other source)) :
    Copies bundle origin (item :: rest) s [⟨.run (bundle.copyCommand container item), reply⟩]
      (.error error) (s.put (bundle.target item) left) where
  containers := rfl
  created := rfl
  aside path apart := Host.put_ne s left (apart item List.mem_cons_self)
  own path other source found := by
    by_cases same : path = bundle.target item
    · rw [same, Host.put_self] at found
      rw [same]
      exact kinds other source found
    · rw [Host.put_ne s left same] at found
      exact .inr found
  complete := nofun
  served := iff_of_false nofun fun none => none _ List.mem_cons_self failed

theorem Copies.cons {item : BundleFile} {rest : List BundleFile} {source : Str}
    {reply : Except Exn CompletedProcess} (succeeded : Succeeds reply)
    (others : Copies bundle origin rest
      (s.put (bundle.target item) (some (.copied origin source))) trace outcome after) :
    Copies bundle origin (item :: rest) s
      (⟨.run (bundle.copyCommand container item), reply⟩ :: trace) outcome after where
  containers := others.containers
  created := others.created
  aside path apart := by
    rw [others.aside path fun each member => apart each (List.mem_cons_of_mem _ member)]
    exact Host.put_ne s _ (apart item List.mem_cons_self)
  own path other source found := by
    cases others.own path other source found with
    | inl same => exact .inl same
    | inr before =>
        by_cases same : path = bundle.target item
        · rw [same, Host.put_self] at before
          cases before
          exact .inl rfl
        · rw [Host.put_ne s _ same] at before
          exact .inr before
  complete returned each member := by
    -- a later file of the same name is copied over the first one
    by_cases again : ∃ later ∈ rest, bundle.target each = bundle.target later
    · have ⟨later, among, same⟩ := again
      rw [same]
      exact others.complete returned later among
    · have apart : ∀ later ∈ rest, bundle.target each ≠ bundle.target later :=
        fun later among same => again ⟨later, among, same⟩
      cases member with
      | head => exact ⟨source, by rw [others.aside _ apart, Host.put_self]⟩
      | tail _ among => exact absurd rfl (apart each among)
  served := by
    rw [others.served, List.forall_mem_cons]
    exact ⟨fun none => ⟨fun failed => failed succeeded, none⟩, fun both => both.2⟩

variable [Unicode]

theorem copy_all_copies {items : List BundleFile} (held : s.containers container = some origin)
    (execution : Exec machine (bundle.copyAll container items) s trace outcome after) :
    Copies bundle origin items s trace outcome after := by
  induction items generalizing s trace with
  | nil =>
      have ⟨empty, returned, same⟩ := execution
      subst empty returned same
      exact ⟨rfl, rfl, fun _ _ => rfl, fun _ _ _ found => .inr found,
        fun _ _ never => absurd never List.not_mem_nil, by simp⟩
  | cons item rest ih =>
      have ⟨reply, middle, more, answered, told, later⟩ := execution
      have ⟨left, put, copied, kinds⟩ := copied_one held answered
      subst put told
      cases reply with
      | error error =>
          have ⟨empty, raised, same⟩ := later
          subst empty raised same
          exact copies_broken (fun never => never) kinds
      | ok result =>
          change Exec machine (if result.returncode ≠ 0 then _ else _) _ _ _ _ at later
          by_cases zero : result.returncode = 0
          · rw [if_neg (not_not.mpr zero)] at later
            have ⟨source, whole⟩ := copied zero
            subst whole
            have still : (s.put (bundle.target item) (some (.copied origin source))).containers
                container = some origin := held
            exact (ih still later).cons zero
          · rw [if_pos zero] at later
            have ⟨empty, raised, same⟩ := later
            subst empty raised same
            exact copies_broken zero kinds

omit [Unicode] in
theorem remove_removes (execution : Exec machine (dropValue (runEngine
    (bundle.removeCommand container))) s trace outcome after) :
    outcome = .ok () ∧ after = s.putContainer container none ∧ ∀ event ∈ trace, ¬Fails event := by
  have ⟨reply, middle, more, answered, told, later⟩ := execution
  have ⟨replied, removed⟩ := answered
  have ⟨result, same⟩ := replied
  subst same told removed
  have ⟨empty, returned, stays⟩ := later
  subst empty stays
  apply And.intro returned
  apply And.intro rfl
  intro event member
  rw [List.mem_singleton.mp member]
  exact fun never => never

omit [Unicode] in
theorem finish_writes (execution : Exec machine (do
      bundle.writeShim
      @request host (.writeText bundle.marker "ok\n")) s trace outcome after) :
    outcome = .ok () ∧ (∀ event ∈ trace, ¬Fails event) ∧
      after = (s.put bundle.shim (some (.text bundle.shimText))).put bundle.marker
        (some (.text "ok\n")) := by
  have ⟨_, shimmed, more, wrote, told, later⟩ := execution
  have ⟨_, enabled, more', made, told', later'⟩ := later
  have ⟨_, marked, more'', ready, told'', later''⟩ := later'
  have ⟨empty, returned, same⟩ := later''
  change enabled = shimmed at made
  subst empty told'' told' told same wrote made ready
  exact ⟨returned, by simp [Fails], rfl⟩

structure Attempts (bundle : HarnessBundle) (s : Host) (trace : List (Exchange host))
    (outcome : Except Exn Unit) (after : Host) : Prop where
  containers : after.containers = s.containers
  counted : s.created ≤ after.created
  aside : ∀ path, UnderRoot bundle.cacheDir path → (∀ item ∈ bundle.files,
    path ≠ bundle.target item) → after.files path = s.files path
  own : ∀ path other source, UnderRoot bundle.cacheDir path →
    after.files path = some (.copied other source) →
      (other = ⟨s.created, bundle.image⟩ ∧ s.created < after.created) ∨
        s.files path = some (.copied other source)
  complete : outcome = .ok () → ∀ item ∈ bundle.files, ∃ source,
    after.files (bundle.target item) = some (.copied ⟨s.created, bundle.image⟩ source)
  served : outcome = .ok () ↔ ∀ event ∈ trace, ¬Fails event
  ready : after.files bundle.marker ≠ none ↔ outcome = .ok ()

omit [Unicode] in
theorem Copies.attempts {middle : Host} {told : List (Exchange host)} {ended : Except Exn Unit}
    (free : s.containers container = none) (unmarked : s.files bundle.marker = none)
    (copies : Copies bundle ⟨s.created, bundle.image⟩ bundle.files
      (s.start container bundle.image) told ended middle)
    (containers : after.containers = (middle.putContainer container none).containers)
    (created : after.created = middle.created)
    (below : ∀ path, UnderRoot bundle.cacheDir path → after.files path = middle.files path)
    (ready : after.files bundle.marker = if outcome = .ok () then some (.text "ok\n".toList)
      else middle.files bundle.marker)
    (ends : outcome = .ok () ↔ ended = .ok ())
    (served : (∀ event ∈ told, ¬Fails event) ↔ ∀ event ∈ trace, ¬Fails event) :
    Attempts bundle s trace outcome after where
  containers := by
    rw [containers, ← s.start_removed bundle.image free]
    funext other
    change (if other = container then none else _) = if other = container then none else _
    rw [copies.containers]
  counted := by
    rw [created, copies.created]
    exact Nat.le_succ _
  aside path under apart := by
    rw [below path under, copies.aside path apart, Host.start_files]
  own path other source under found := by
    rw [below path under] at found
    cases copies.own path other source found with
    | inl same =>
        apply Or.inl
        apply And.intro same
        rw [created, copies.created]
        exact Nat.lt_succ_self _
    | inr before => exact .inr before
  complete returned item member := by
    have ⟨source, found⟩ := copies.complete (ends.mp returned) item member
    exact ⟨source, (below _ (target_under_root bundle item)).trans found⟩
  served := ends.trans (copies.served.trans served)
  ready := by
    rw [ready]
    by_cases returned : outcome = .ok ()
    · simp [returned]
    · have apart : ∀ item ∈ bundle.files, bundle.marker ≠ bundle.target item := by
        intro item _ same
        have under := target_under_root bundle item
        rw [← same] at under
        exact marker_aside bundle.cacheDir under
      have nothing : middle.files bundle.marker = none :=
        (copies.aside _ apart).trans unmarked
      simp [returned, nothing]

theorem fetch_attempts (free : s.containers container = none)
    (unmarked : s.files bundle.marker = none)
    (execution : Exec machine (bundle.fetch container) (s.start container bundle.image) trace
      outcome after) : Attempts bundle s trace outcome after := by
  have held : (s.start container bundle.image).containers container =
      some ⟨s.created, bundle.image⟩ := if_pos rfl
  cases exec_bind execution with
  | inl stopped =>
      have ⟨error, raised, same⟩ := stopped
      have ⟨ended, middle, first, second, done, copied, removed, split, ends⟩ := exec_finally raised
      have ⟨finished, gone, fine⟩ := remove_removes removed
      have broken : ended ≠ .ok () := by
        intro whole
        have never := (ends ()).mpr ⟨finished, whole⟩
        cases never
      subst same split gone
      apply Copies.attempts free unmarked (copy_all_copies held copied)
      · rfl
      · rfl
      · exact fun _ _ => rfl
      · rfl
      · exact iff_of_false nofun broken
      · rw [List.forall_mem_append]
        exact ⟨fun none => ⟨none, fine⟩, fun both => both.1⟩
  | inr went =>
      have ⟨_, left, front, back, cleaned, continued, shape⟩ := went
      have ⟨ended, middle, first, second, done, copied, removed, split, ends⟩ := exec_finally cleaned
      have ⟨finished, gone, fine⟩ := remove_removes removed
      have ⟨returned, silent, same⟩ := finish_writes continued
      have whole := ((ends ()).mp rfl).2
      subst shape split gone same
      apply Copies.attempts free unmarked (copy_all_copies held copied)
      · rfl
      · rfl
      · intro path under
        rw [Host.put_ne, Host.put_ne, Host.put_container_files]
        · intro same
          rw [same] at under
          exact shim_aside bundle under
        · intro same
          rw [same] at under
          exact marker_aside bundle.cacheDir under
      · rw [Host.put_self, if_pos returned]
      · exact iff_of_true returned whole
      · rw [List.forall_mem_append, List.forall_mem_append]
        exact ⟨fun none => ⟨⟨none, fine⟩, silent⟩, fun both => both.1.1⟩

theorem ensure_cached (execution : Exec machine bundle.ensure s trace outcome after)
    (marked : s.files bundle.marker ≠ none) : outcome = .ok () ∧ after = s := by
  have ⟨reply, middle, more, answered, told, later⟩ := execution
  have ⟨present, same⟩ := answered
  rw [Option.isSome_iff_ne_none.mpr marked] at present
  subst present same
  exact ⟨later.2.1, later.2.2⟩

theorem ensure_attempts (execution : Exec machine bundle.ensure s trace outcome after)
    (unmarked : s.files bundle.marker = none) : Attempts bundle s trace outcome after := by
  have ⟨reply, middle, more, asked, told, later⟩ := execution
  have ⟨present, same⟩ := asked
  rw [unmarked, Option.isSome_none] at present
  subst present same told
  have ⟨_, rooted, more', made, told', later'⟩ := later
  have ⟨_, binned, more'', made', told'', later''⟩ := later'
  have ⟨reply, started, rest, answered, told, last⟩ := later''
  change rooted = middle at made
  change binned = rooted at made'
  subst made made' told' told'' told
  cases answered with
  | inl created =>
      have ⟨result, replied, zero, free, same⟩ := created
      subst replied same
      change Exec machine (if result.returncode ≠ 0 then _ else _) _ _ _ _ at last
      rw [if_neg (not_not.mpr zero)] at last
      have fetched := fetch_attempts free unmarked last
      exact { fetched with
        served := by
          rw [fetched.served, List.forall_mem_cons, List.forall_mem_cons, List.forall_mem_cons,
            List.forall_mem_cons]
          exact ⟨fun none => ⟨id, id, id, fun failed => failed zero, none⟩, fun all => all.2.2.2.2⟩ }
  | inr refused =>
      have ⟨failed, same⟩ := refused
      subst same
      have stopped : rest = [] ∧ outcome ≠ .ok () ∧ after = started := by
        cases reply with
        | error error =>
            have ⟨empty, raised, same⟩ := last
            exact ⟨empty, raised ▸ nofun, same⟩
        | ok result =>
            change Exec machine (if result.returncode ≠ 0 then _ else _) _ _ _ _ at last
            have nonzero : result.returncode ≠ 0 := failed
            rw [if_pos nonzero] at last
            have ⟨empty, raised, same⟩ := last
            exact ⟨empty, raised ▸ nofun, same⟩
      have ⟨empty, raised, same⟩ := stopped
      subst empty same
      exact {
        containers := rfl
        counted := Nat.le_refl _
        aside := fun _ _ _ => rfl
        own := fun _ _ _ _ found => .inr found
        complete := fun returned => absurd returned raised
        served := iff_of_false raised fun none => none
          ⟨.run bundle.createCommand, reply⟩ (by simp) failed
        ready := iff_of_false (fun marked => marked unmarked) raised }

theorem ensure_aside (execution : Exec machine bundle.ensure s trace outcome after)
    (path : FilePath) (under : UnderRoot bundle.cacheDir path)
    (apart : ∀ item ∈ bundle.files, path ≠ bundle.target item) :
    after.files path = s.files path := by
  by_cases unmarked : s.files bundle.marker = none
  · exact (ensure_attempts execution unmarked).aside path under apart
  · rw [(ensure_cached execution unmarked).2]

/-- Whatever happens, a call that fails leaves no marker, and no call leaves its container. -/
theorem ensure_leaves (execution : Exec machine bundle.ensure s trace outcome after) :
    (outcome ≠ .ok () → after.files bundle.marker = none) ∧ after.containers = s.containers := by
  by_cases unmarked : s.files bundle.marker = none
  · have attempts := ensure_attempts execution unmarked
    apply And.intro _ attempts.containers
    intro failed
    by_contra marked
    exact failed (attempts.ready.mp marked)
  · have ⟨returned, same⟩ := ensure_cached execution unmarked
    rw [same]
    exact ⟨fun failed => absurd returned failed, rfl⟩

end Steps

/-!
## A call behind other ones
-/

section Runs

variable (cacheDir : FilePath)

/-- What is under the root after a call that fetched its files. -/
structure Filled (call : Called) (s : Host) : Prop where
  occupied : (∃ path, UnderRoot cacheDir path ∧ s.files path ≠ none) ↔ call.bundle.files ≠ []
  own : ∀ path content, UnderRoot cacheDir path → s.files path = some content →
    ∃ source, content = .copied call.origin source

/-- What holds of the cache behind calls that mixed no images. -/
structure Sound (earlier : List Called) (s : Host) : Prop where
  marked : s.files (markerOf cacheDir) ≠ none ↔ ∃ call ∈ earlier, call.Fetches
  numbered : ∀ path origin source, UnderRoot cacheDir path →
    s.files path = some (.copied origin source) → origin.serial < s.created
  filled : ∀ call ∈ earlier, call.Fetches → Filled cacheDir call s

variable {cacheDir} {earlier : List Called} {called : Called} {s after : Host}

theorem sound_of_empty (empty : Empty cacheDir s) : Sound cacheDir [] s where
  marked := by
    have nothing : s.files (markerOf cacheDir) = none := empty _ (List.prefix_append _ _)
    simp [nothing]
  numbered path origin source under found := by
    rw [empty path ((List.prefix_append _ _).trans under)] at found
    cases found
  filled := fun _ never => absurd never List.not_mem_nil

/-- The files of the one call that fetched are those of an image exactly if they are none or
that call was for the image. -/
theorem Filled.matches_iff {call : Called} {calls : List Called} (image : Str)
    (filled : Filled cacheDir call s) (among : call ∈ calls) (fetches : call.Fetches) :
    Matches cacheDir calls image s ↔ call.bundle.files = [] ∨ call.bundle.image = image := by
  constructor
  · intro matching
    by_cases empty : call.bundle.files = []
    · exact .inl empty
    · have ⟨path, under, present⟩ := filled.occupied.mpr empty
      have ⟨content, found⟩ := Option.ne_none_iff_exists'.mp present
      cases matching with
      | inl none => exact absurd (none path under) present
      | inr copied =>
          have ⟨other, _, _, same, theirs⟩ := copied
          have ⟨source, mine⟩ := filled.own path content under found
          have ⟨source', others⟩ := theirs path content under found
          rw [mine] at others
          have origins : call.origin = other.origin := by injection others
          have images : call.bundle.image = other.bundle.image := congrArg Origin.image origins
          exact .inr (images.trans same)
  · intro either
    cases either with
    | inl empty =>
        apply Or.inl
        intro path under
        by_contra present
        exact filled.occupied.mp ⟨path, under, present⟩ empty
    | inr same => exact .inr ⟨call, among, fetches, same, filled.own⟩

/-- Where all files that are there are copied over, the root is filled by the call. -/
theorem Attempts.filled
    (attempts : Attempts called.bundle called.before called.trace called.outcome called.after)
    (returned : called.outcome = .ok ())
    (replaced : ∀ path, UnderRoot called.bundle.cacheDir path → called.before.files path ≠ none →
      ∃ item ∈ called.bundle.files, path = called.bundle.target item) :
    Filled called.bundle.cacheDir called called.after := by
  have copied : ∀ path, UnderRoot called.bundle.cacheDir path → called.after.files path ≠ none →
      ∃ item ∈ called.bundle.files, path = called.bundle.target item := by
    intro path under present
    by_contra apart
    have aside := attempts.aside path under fun item member same => apart ⟨item, member, same⟩
    rw [aside] at present
    exact apart (replaced path under present)
  constructor
  · constructor
    · intro some
      have ⟨path, under, present⟩ := some
      have ⟨item, member, _⟩ := copied path under present
      exact List.ne_nil_of_mem member
    · intro some
      have ⟨item, member⟩ := List.exists_mem_of_ne_nil _ some
      have ⟨source, found⟩ := attempts.complete returned item member
      exact ⟨_, target_under_root called.bundle item, by simp [found]⟩
  · intro path content under found
    have ⟨item, member, same⟩ := copied path under (by simp [found])
    have ⟨source, whole⟩ := attempts.complete returned item member
    rw [← same, found] at whole
    exact ⟨source, Option.some.inj whole⟩

theorem Attempts.replaced
    (attempts : Attempts called.bundle called.before called.trace called.outcome called.after)
    (sound : Sound called.bundle.cacheDir earlier called.before)
    (unfetched : ∀ call ∈ earlier, ¬call.Fetches)
    (matching : Matches called.bundle.cacheDir (earlier ++ [called]) called.bundle.image
      called.after) (path : FilePath) (under : UnderRoot called.bundle.cacheDir path)
    (present : called.before.files path ≠ none) :
    ∃ item ∈ called.bundle.files, path = called.bundle.target item := by
  by_contra apart
  have aside := attempts.aside path under fun item member same => apart ⟨item, member, same⟩
  have ⟨content, found⟩ := Option.ne_none_iff_exists'.mp present
  rw [← aside] at found
  cases matching with
  | inl none => exact present (aside ▸ none path under)
  | inr copied =>
      have ⟨call, among, fetches, _, theirs⟩ := copied
      have ⟨source, same⟩ := theirs path content under found
      rw [aside, same] at found
      cases List.mem_append.mp among with
      | inl before => exact unfetched call before fetches
      | inr own =>
          rw [List.mem_singleton.mp own] at found
          exact Nat.lt_irrefl _ (sound.numbered path _ source under found)

theorem Attempts.sound
    (attempts : Attempts called.bundle called.before called.trace called.outcome called.after)
    (sound : Sound called.bundle.cacheDir earlier called.before)
    (unmarked : called.before.files called.bundle.marker = none)
    (fetched : ∀ call ∈ earlier ++ [called], call.Fetches → call = called)
    (filled : called.outcome = .ok () → Filled called.bundle.cacheDir called called.after) :
    Sound called.bundle.cacheDir (earlier ++ [called]) called.after where
  marked := by
    apply attempts.ready.trans
    constructor
    · exact fun returned => ⟨called, by simp, unmarked, returned⟩
    · intro some
      have ⟨call, among, fetches⟩ := some
      rw [fetched call among fetches] at fetches
      exact fetches.2
  numbered path origin source under found := by
    cases attempts.own path origin source under found with
    | inl own =>
        rw [own.1]
        exact own.2
    | inr before =>
        exact Nat.lt_of_lt_of_le (sound.numbered path origin source under before) attempts.counted
  filled call among fetches := by
    have own := fetched call among fetches
    subst own
    exact filled fetches.2

variable [Unicode]

theorem cached_judged (sound : Sound cacheDir earlier s) (makes : Makes cacheDir s called after)
    (marked : s.files (markerOf cacheDir) ≠ none) :
    (Keeps cacheDir earlier called ↔ Unmixed cacheDir earlier called) ∧
      Sound cacheDir (earlier ++ [called]) after := by
  have ⟨place, begins, ends, execution⟩ := makes
  subst place begins ends
  have ⟨returned, same⟩ := ensure_cached execution marked
  have fetched : ∀ call ∈ earlier ++ [called], call.Fetches → call ∈ earlier := by
    intro call among fetches
    cases List.mem_append.mp among with
    | inl before => exact before
    | inr own =>
        rw [List.mem_singleton.mp own] at fetches
        exact absurd fetches.1 marked
  have decided : ∀ call ∈ earlier, call.Fetches →
      (Matches called.bundle.cacheDir (earlier ++ [called]) called.bundle.image called.after ↔
        call.bundle.files = [] ∨ call.bundle.image = called.bundle.image) := by
    intro call among fetches
    rw [same]
    exact (sound.filled call among fetches).matches_iff _ (List.mem_append_left _ among) fetches
  constructor
  · constructor
    · intro keeps
      constructor
      · exact fun _ call among fetches => (decided call among fetches).mp (keeps.matching returned)
      · exact fun unmarked => absurd unmarked marked
    · intro unmixed
      have ⟨call, among, fetches⟩ := sound.marked.mp marked
      constructor
      · exact fun _ => (decided call among fetches).mpr
          (unmixed.same_image marked call among fetches)
      · exact (ensure_leaves execution).1
      · exact (ensure_leaves execution).2
  · rw [same]
    constructor
    · have ⟨call, among, fetches⟩ := sound.marked.mp marked
      exact iff_of_true marked ⟨call, List.mem_append_left _ among, fetches⟩
    · exact sound.numbered
    · exact fun call among fetches => sound.filled call (fetched call among fetches) fetches

theorem attempt_judged (sound : Sound cacheDir earlier s) (makes : Makes cacheDir s called after)
    (unmarked : s.files (markerOf cacheDir) = none) :
    (Keeps cacheDir earlier called ↔ Unmixed cacheDir earlier called) ∧
      (Unmixed cacheDir earlier called → Sound cacheDir (earlier ++ [called]) after) := by
  have ⟨place, begins, ends, execution⟩ := makes
  subst place begins ends
  have attempts := ensure_attempts execution unmarked
  have unfetched : ∀ call ∈ earlier, ¬call.Fetches :=
    fun call among fetches => sound.marked.mpr ⟨call, among, fetches⟩ unmarked
  have fetched : ∀ call ∈ earlier ++ [called], call.Fetches → call = called := by
    intro call among fetches
    cases List.mem_append.mp among with
    | inl before => exact absurd fetches (unfetched call before)
    | inr own => exact List.mem_singleton.mp own
  constructor
  · constructor
    · intro keeps
      constructor
      · exact fun marked => absurd unmarked marked
      · exact fun _ served => attempts.replaced sound unfetched
          (keeps.matching (attempts.served.mpr served))
    · intro unmixed
      constructor
      · intro returned
        have filled := attempts.filled returned
          (unmixed.replaced unmarked (attempts.served.mp returned))
        exact .inr ⟨called, by simp, ⟨unmarked, returned⟩, rfl, filled.own⟩
      · exact (ensure_leaves execution).1
      · exact (ensure_leaves execution).2
  · intro unmixed
    apply attempts.sound sound unmarked fetched
    intro returned
    exact attempts.filled returned (unmixed.replaced unmarked (attempts.served.mp returned))

theorem call_judged (sound : Sound cacheDir earlier s) (makes : Makes cacheDir s called after) :
    (Keeps cacheDir earlier called ↔ Unmixed cacheDir earlier called) ∧
      (Unmixed cacheDir earlier called → Sound cacheDir (earlier ++ [called]) after) := by
  by_cases marked : s.files (markerOf cacheDir) = none
  · exact attempt_judged sound makes marked
  · have judged := cached_judged sound makes marked
    exact ⟨judged.1, fun _ => judged.2⟩

/-- In a run of calls on a cache that was empty, the cache matches the image of every call that
returns, no call that fails marks it and no container stays, exactly if every call that finds
the marker is for the image that the files are of, and every call that copies all its files
leaves none of another one. -/
theorem bundle_cache_matches_iff {calls : List Called} {final : Host} (empty : Empty cacheDir s)
    (run : Leads (Makes cacheDir) s calls final) :
    Throughout (Keeps cacheDir) calls ↔ Throughout (Unmixed cacheDir) calls := by
  apply Leads.judged _ (sound_of_empty empty) run
  intro earlier s called after sound makes
  exact call_judged sound makes

end Runs

section Example

local instance cacheTables : Unicode := asciiTables

def answerHost (fails : Bool) (request : HostRequest) (s : Host) : request.Reply × Host :=
  match request with
  | .pathExists path => ((s.files path).isSome, s)
  | .mkdir _ | .makeExecutable _ => ((), s)
  | .writeText path text => ((), s.put path (some (.text text)))
  | .run ⟨.create image, _⟩ =>
      if (s.containers "c0").isSome then (.ok { returncode := 125 }, s)
      else (.ok { returncode := 0, stdout := "c0\n" }, s.start "c0" image)
  | .run ⟨.copy container source target, _⟩ =>
      match s.containers container with
      | none => (.ok { returncode := 125 }, s.put target (some .torn))
      | some origin =>
          if fails then
            (.ok { returncode := 125, stderr := "no space left" }, s.put target (some .torn))
          else (.ok { returncode := 0 }, s.put target (some (.copied origin source)))
  | .run ⟨.remove container, _⟩ => (.ok { returncode := 0 }, s.putContainer container none)

theorem answer_host_machine (fails : Bool) (request : HostRequest) (s : Host) :
    machine request s (answerHost fails request s).1 (answerHost fails request s).2 := by
  cases request with
  | pathExists path => exact ⟨rfl, rfl⟩
  | mkdir path => rfl
  | makeExecutable path => rfl
  | writeText path text => rfl
  | run command =>
      have ⟨act, argv⟩ := command
      cases act with
      | create image =>
          simp only [answerHost]
          cases taken : s.containers "c0" with
          | none => exact .inl ⟨_, rfl, rfl, taken, rfl⟩
          | some origin => exact .inr ⟨by simp [Succeeds], rfl⟩
      | copy container source target =>
          simp only [answerHost]
          cases held : s.containers container with
          | none => exact .inr ⟨by simp [Succeeds], _, rfl, .inr (.inr (.inl rfl))⟩
          | some origin =>
              cases fails with
              | true => exact .inr ⟨by simp [Succeeds], _, rfl, .inr (.inr (.inl rfl))⟩
              | false => exact .inl ⟨rfl, origin, held, rfl⟩
      | remove container => exact ⟨⟨_, rfl⟩, rfl⟩

def blankHost : Host := ⟨fun _ => none, fun _ => none, 0⟩

def rootHome : CachePlaces := ⟨none, ["root".toList]⟩

def harnessCache : FilePath := (opencodeBundle rootHome []).cacheDir

def ensured (fails : Bool) (image : Str) (s : Host) : Called :=
  let bundle := opencodeBundle rootHome image
  let ended := run (answerHost fails) bundle.ensure s
  ⟨bundle, s, ended.1, ended.2.1, ended.2.2⟩

theorem ensured_makes (fails : Bool) (image : Str) (s : Host) :
    Makes harnessCache s (ensured fails image s) (ensured fails image s).after :=
  ⟨rfl, rfl, rfl, exec_run machine (answerHost fails) (answer_host_machine fails) _ s⟩

/-- The first call breaks off, the second one copies all files and the third one finds them. -/
def brokenCall : Called := ensured true "harness:1" blankHost

def retriedCall : Called := ensured false "harness:1" brokenCall.after

def repeatedCall : Called := ensured false "harness:1" retriedCall.after

theorem retried_cache_kept :
    Throughout (Keeps harnessCache) [brokenCall, retriedCall, repeatedCall] := by
  have leads : Leads (Makes harnessCache) blankHost [brokenCall, retriedCall, repeatedCall]
      repeatedCall.after :=
    ⟨_, ensured_makes _ _ _, _, ensured_makes _ _ _, _, ensured_makes _ _ _, rfl⟩
  apply (bundle_cache_matches_iff (fun _ _ => rfl) leads).mpr
  rw [throughout_cons, throughout_cons, throughout_cons]
  apply And.intro
  · exact ⟨fun _ _ never => absurd never List.not_mem_nil, fun _ _ _ _ present => absurd rfl present⟩
  apply And.intro
  · constructor
    · intro _ call among _
      rw [List.mem_singleton.mp among]
      exact .inr rfl
    · intro _ _ path _ present
      change (if path = harnessCache ++ ["root".toList, "opencode".toList] then some Content.torn
        else none) ≠ none at present
      by_cases torn : path = harnessCache ++ ["root".toList, "opencode".toList]
      · exact ⟨_, List.mem_cons_self, torn⟩
      · rw [if_neg torn] at present
        exact absurd rfl present
  apply And.intro _ (throughout_nil _)
  constructor
  · intro _ call among _
    cases among with
    | head => exact .inr rfl
    | tail _ later =>
        rw [List.mem_singleton.mp later]
        exact .inr rfl
  · intro unmarked
    exact absurd unmarked (by decide)

def installedCall : Called := ensured false "harness:1" blankHost

def upgradedCall : Called := ensured false "harness:2" installedCall.after

theorem upgraded_keeps_old_files :
    Leads (Makes harnessCache) blankHost [installedCall, upgradedCall] upgradedCall.after ∧
      upgradedCall.outcome = .ok () ∧
      upgradedCall.after.files (harnessCache ++ ["root".toList, "opencode".toList]) =
        some (.copied ⟨0, "harness:1"⟩ "/usr/local/bin/opencode") ∧
      ¬Throughout (Keeps harnessCache) [installedCall, upgradedCall] := by
  have leads : Leads (Makes harnessCache) blankHost [installedCall, upgradedCall]
      upgradedCall.after := ⟨_, ensured_makes _ _ _, _, ensured_makes _ _ _, rfl⟩
  have returned : upgradedCall.outcome = .ok () := by decide
  have marked : upgradedCall.before.files upgradedCall.bundle.marker ≠ none := by decide
  have old : upgradedCall.after.files (harnessCache ++ ["root".toList, "opencode".toList]) =
      some (.copied ⟨0, "harness:1"⟩ "/usr/local/bin/opencode") := by decide
  have under : UnderRoot harnessCache (harnessCache ++ ["root".toList, "opencode".toList]) :=
    ⟨["opencode".toList], rfl⟩
  refine ⟨leads, returned, old, fun keeps => ?_⟩
  have keep := keeps [installedCall] upgradedCall [] rfl
  cases keep.matching returned with
  | inl none =>
      rw [none _ under] at old
      cases old
  | inr copied =>
      have ⟨call, among, fetches, image, _⟩ := copied
      cases among with
      | head => exact absurd image (by decide)
      | tail _ own =>
          rw [List.mem_singleton.mp own] at fetches
          exact marked fetches.1

end Example

end DearAgent.Environment
