import DearAgent.Dispatch
import DearAgent.Kube
import DearAgent.World
import DearAgent.Worker.Settling

/-!
# Jobs of dispatched tasks

The dispatcher with the Kubernetes launcher: the job of a task has a name that
only depends on the task, and launching it again while a job of that name is
there does nothing. A sweep releases the tasks of lost workers and dispatches.
A finished job that is not collected yet keeps its name, and its task is then
reported although nothing runs it.
-/

namespace DearAgent

open DearAgent.Lib.Text DearAgent.Lib.Effects DearAgent.Queue DearAgent.Kube

set_option autoImplicit false

section Names

variable [Unicode] [Sha256]

def isSlugChar (c : Char) : Bool := ('a' ≤ c && c ≤ 'z') || ('0' ≤ c && c ≤ '9')

/-- `_SLUG_RE.sub("-", text)`, inside a run of other characters or not. -/
def dashRuns (inRun : Bool) : Str → Str
  | [] => []
  | c :: rest =>
      if isSlugChar c then c :: dashRuns false rest
      else if inRun then dashRuns true rest
      else '-' :: dashRuns true rest

def jobName (taskId : Str) : Str :=
  let front : Str := "dear-agent-task-"
  let digest := (Sha256.hexdigest taskId).take 10
  let maxSlug := 63 - front.length - 1 - digest.length
  let slug := (stripWhere (fun c => c = '-') (dashRuns false (Unicode.lower taskId))).take maxSlug
  front ++ orElse (some slug) "task" ++ '-' :: digest

end Names

/-- `_handle_sweep`, with the template that the config map gives. -/
def sweep (template : Except Exn Str) (limit : Int) (now : Instant) :
    Code (List Task × List Str) := do
  let released ← Queue.releaseStale now
  let template ← @unwrap ports _ template
  let created ← TaskDispatcher.dispatchOnce { template := template, limit := limit }
  .ret (released, created)

variable (Q : QueueBackend) (A : ApprovalBackend)

abbrev Deployment := World Q A × Cluster

section Launching

variable [Unicode] [Sha256]

/-- The surroundings of a dispatcher. A rendered job carries the name of its task,
and `kubernetes_launcher` creates it. -/
def deployed (client : KubernetesClient) (metadataName : Str → Str) : Env ports (Deployment Q A)
  | .renderJob _ task, state, reply, after =>
      (∀ job, reply = .ok job → metadataName job = jobName task.id) ∧ after = state
  | .launchJob job, state, reply, after => after.1 = state.1 ∧
      ∃ trace outcome, Exec (serves client metadataName) (client.createJob (metadataName job) job)
        state.2 trace outcome after.2 ∧ reply = outcome.map fun _ => ()
  | request, state, reply, after =>
      surroundings Q A request state.1 reply after.1 ∧ after.2 = state.2

variable {Q A} {client : KubernetesClient} {metadataName : Str → Str}

/-- The jobs follow earlier ones, and the reported tasks have one. -/
def Launched {α : Type} (earlier : Cluster) (reported : α → List Str) (after : Deployment Q A)
    (outcome : Except Exn α) : Prop :=
  Follows earlier after.2 ∧
    ∀ value, outcome = .ok value → ∀ id ∈ reported value, (after.2 (jobName id)).isSome

theorem launched_raised {α : Type} {earlier : Cluster} {reported : α → List Str}
    {after : Deployment Q A} (follows : Follows earlier after.2) (error : Exn) :
    Launched earlier reported after (.error error) := ⟨follows, by rintro _ ⟨⟩⟩

abbrev Launches {α : Type} (client : KubernetesClient) (metadataName : Str → Str)
    (program : Code α) (state : Deployment Q A) (earlier : Cluster) (reported : α → List Str) :
    Prop :=
  Meets (deployed Q A client metadataName) (fun _ _ => True) program state
    (Launched earlier reported)

theorem launches_since {α : Type} {program : Code α} {state : Deployment Q A} {earlier : Cluster}
    {reported : α → List Str} (follows : Follows earlier state.2)
    (launches : Launches client metadataName program state state.2 reported) :
    Launches client metadataName program state earlier reported :=
  launches.post fun _ _ ended => ⟨follows.trans ended.1, ended.2⟩

theorem queue_keeps_jobs {α : Type} {program : Code α} {asked : Request → Prop}
    (asks : Asks asked program) (queue : ∀ request, asked request → ∃ op, request = .queue op)
    (state : Deployment Q A) :
    Meets (deployed Q A client metadataName) (fun _ _ => True) program state fun after _ =>
      after.2 = state.2 := by
  refine asks.meets (fun after : Deployment Q A => after.2 = state.2) (fun _ _ _ _ => trivial) ?_ rfl
  rintro middle request reply after same allowed answered
  obtain ⟨op, rfl⟩ := queue request allowed
  exact answered.2.trans same

theorem launch_meets {job : Str} {state after : Deployment Q A} {reply : Except Exn Unit}
    (answered : deployed Q A client metadataName (.launchJob job) state reply after) :
    Follows state.2 after.2 ∧ (reply = .ok () → (after.2 (metadataName job)).isSome) := by
  obtain ⟨_, trace, outcome, execution, rfl⟩ := answered
  obtain ⟨follows, created⟩ := (create_job_meets job state.2).sound execution
  refine ⟨follows, fun returned => ?_⟩
  cases outcome with
  | ok body => exact created body rfl
  | error error => cases returned

theorem dispatch_all_launches (dispatcher : TaskDispatcher) (tasks : List Task)
    (state : Deployment Q A) :
    Launches client metadataName (dispatcher.dispatchAll tasks) state state.2 fun ids => ids := by
  induction tasks generalizing state with
  | nil => exact ⟨.refl _, by rintro _ ⟨⟩ _ ⟨⟩⟩
  | cons task rest ih =>
      unfold TaskDispatcher.dispatchAll
      split_ifs
      · exact ih state
      · have reading : ∀ request, Reading request → ∃ op, request = .queue op := by
          intro request reads
          cases request with
          | queue op => exact ⟨op, rfl⟩
          | _ => exact reads.elim
        refine (queue_keeps_jobs (asks_dependency_status task) reading state).seq ?_
          fun middle error same => launched_raised (same_follows same) error
        intro middle status same
        have later : Follows state.2 middle.2 := same_follows same
        cases status.state with
        | failed =>
            refine meets_call_bind trivial (fun _ after answered => ?_) fun error after answered => ?_
            · exact launches_since (later.trans (same_follows answered.2)) (ih after)
            · exact launched_raised (later.trans (same_follows answered.2)) error
        | blocked => exact launches_since later (ih middle)
        | ready =>
            refine meets_call_bind trivial (fun job _ rendered => ?_) fun error _ rendered => ?_
            · obtain ⟨named, rfl⟩ := rendered
              refine meets_call_bind trivial (fun _ after launched => ?_) fun error after launched => ?_
              · obtain ⟨follows, present⟩ := launch_meets launched
                refine (ih after).seq (fun final created ended => ?_) fun final error ended =>
                  launched_raised (later.trans (follows.trans ended.1)) error
                refine ⟨later.trans (follows.trans ended.1), ?_⟩
                rintro _ ⟨⟩ id (_ | ⟨_, member⟩)
                · exact ended.1.isSome (named job rfl ▸ present rfl)
                · exact ended.2 created rfl id member
              · exact launched_raised (later.trans (launch_meets launched).1) error
            · obtain ⟨_, rfl⟩ := rendered
              exact launched_raised later error

theorem dispatch_once_launches (dispatcher : TaskDispatcher) (state : Deployment Q A) :
    Launches client metadataName dispatcher.dispatchOnce state state.2 fun ids => ids := by
  refine meets_call_bind trivial (fun page after answered => ?_) fun error after answered => ?_
  · exact launches_since (same_follows answered.2) (dispatch_all_launches dispatcher page after)
  · exact launched_raised (same_follows answered.2) error

theorem sweep_launches (template : Except Exn Str) (limit : Int) (now : Instant)
    (state : Deployment Q A) :
    Launches client metadataName (sweep template limit now) state state.2 Prod.snd := by
  refine meets_call_bind trivial (fun released after answered => ?_) fun error after answered => ?_
  · refine launches_since (same_follows answered.2) ?_
    cases template with
    | error error => exact launched_raised (.refl _) error
    | ok template =>
        refine (dispatch_once_launches _ after).seq (fun final created ended => ⟨ended.1, ?_⟩)
          fun final error ended => launched_raised ended.1 error
        rintro _ ⟨⟩ id reported
        exact ended.2 created rfl id reported
  · exact launched_raised (same_follows answered.2) error

/-- Of the tasks that a dispatch or a sweep reports, those have an unfinished job
for which no finished one was left when it started. -/
theorem dispatched_task_runs_iff {state after : Deployment Q A} {trace : List (Exchange ports)} :
    (∀ (dispatcher : TaskDispatcher) created,
      Exec (deployed Q A client metadataName) dispatcher.dispatchOnce state trace (.ok created)
        after →
      ∀ id ∈ created, after.2 (jobName id) = some .unfinished ↔
        state.2 (jobName id) ≠ some .finished) ∧
    ∀ (template : Except Exn Str) limit now released created,
      Exec (deployed Q A client metadataName) (sweep template limit now) state trace
        (.ok (released, created)) after →
      ∀ id ∈ created, after.2 (jobName id) = some .unfinished ↔
        state.2 (jobName id) ≠ some .finished := by
  constructor
  · intro dispatcher created execution id reported
    obtain ⟨follows, present⟩ := (dispatch_once_launches dispatcher state).sound execution
    exact unfinished_iff follows (present created rfl id reported)
  · intro template limit now released created execution id reported
    obtain ⟨follows, present⟩ := (sweep_launches template limit now state).sound execution
    exact unfinished_iff follows (present _ rfl id reported)

end Launching

section Example

open DearAgent.Work

local instance jobTables : Unicode := asciiTables

local instance jobDigests : Sha256 := widgetSha256

def widgetClient : KubernetesClient := { ns := "dear-agent" }

def widgetManifest (taskId : Str) : Str := "metadata:\n  name: ".toList ++ jobName taskId

def manifestName (job : Str) : Str := job.drop 18

def widgetApi (request : ApiRequest) (cluster : Cluster) : Response × Cluster :=
  match request with
  | .post path job =>
      if (cluster (manifestName job)).isSome then (.httpError 409 "AlreadyExists", cluster)
      else if path = widgetClient.jobsPath then (.ok job, cluster.start (manifestName job))
      else (.httpError 404 "NotFound", cluster)
  | .get path =>
      if (cluster (path.drop (widgetClient.jobsPath.length + 1))).isSome then (.ok [], cluster)
      else (.httpError 404 "NotFound", cluster)

theorem widget_api_serves (request : ApiRequest) (cluster : Cluster) :
    serves widgetClient manifestName request cluster (widgetApi request cluster).1
      (widgetApi request cluster).2 := by
  cases request with
  | post path job =>
      simp only [serves, widgetApi]
      split_ifs with taken known
      · exact ⟨rfl, fun _ replied => by cases replied⟩
      · exact .inl ⟨rfl, known⟩
      · exact .inr ⟨rfl, fun _ replied => by cases replied⟩
  | get path =>
      simp only [serves, widgetApi]
      split_ifs with found
      · refine ⟨rfl, ?_⟩
        rintro _ _ name rfl
        simpa using found
      · exact ⟨rfl, fun _ replied => by cases replied⟩

abbrev WidgetDeployment := Deployment MemoryQueue.backend (MemoryApprovalStore.backend 0)

def widgetDeployment (request : Request) (state : WidgetDeployment) :
    Except Exn request.Result × WidgetDeployment :=
  match request with
  | .renderJob _ task => (.ok (widgetManifest task.id), state)
  | .launchJob job =>
      let created := run widgetApi (widgetClient.createJob (manifestName job) job) state.2
      (created.2.1.map fun _ => (), (state.1, created.2.2))
  | request =>
      let replied := answering zeroReadings (forgeAnswers []) request state.1
      (replied.1, (replied.2, state.2))

theorem widget_deployed (request : Request) (state : WidgetDeployment) :
    deployed _ _ widgetClient manifestName request state (widgetDeployment request state).1
      (widgetDeployment request state).2 := by
  cases request with
  | renderJob template task =>
      refine ⟨?_, rfl⟩
      rintro _ ⟨⟩
      exact List.drop_left' rfl
  | launchJob job =>
      have created := exec_run (serves widgetClient manifestName) widgetApi widget_api_serves
        (widgetClient.createJob (manifestName job) job) state.2
      exact ⟨rfl, _, _, created, rfl⟩
  | _ => exact ⟨(answering_works zeroReadings (forgeAnswers []) _ state.1).1, rfl⟩

/-- The task is running on a worker that was lost, and its lease of one microsecond is over. -/
def crashedWorld : MemoryWorld :=
  { widgetWorld with queue := (MemoryQueue.backend.step (.claimNext 1) 0 widgetWorld.queue).2 }

/-- The sweep after the crash, when the job of the lost worker is in this state. -/
def widgetSweep (job : Option JobStatus) :=
  run widgetDeployment (sweep (.ok "kind: Job") 20 10)
    (crashedWorld, fun name => if name = jobName "m1".toList then job else none)

theorem widget_sweep_executes (job : Option JobStatus) :
    Exec (deployed _ _ widgetClient manifestName) (sweep (.ok "kind: Job") 20 10)
      (crashedWorld, fun name => if name = jobName "m1".toList then job else none)
      (widgetSweep job).1 (widgetSweep job).2.1 (widgetSweep job).2.2 :=
  exec_run (deployed _ _ widgetClient manifestName) widgetDeployment widget_deployed _ _

def widgetDispatched (job : Option JobStatus) : Option (List Str) :=
  match (widgetSweep job).2.1 with
  | .ok (_, created) => some created
  | .error _ => none

theorem widget_sweep_returns {job : Option JobStatus} {created : List Str}
    (dispatched : widgetDispatched job = some created) :
    ∃ released, (widgetSweep job).2.1 = .ok (released, created) := by
  unfold widgetDispatched at dispatched
  split at dispatched
  · exact ⟨_, by rename_i returned; rw [returned, Option.some.inj dispatched]⟩
  · cases dispatched

theorem collected_job_is_started :
    (widgetSweep none).2.2.2 (jobName "m1".toList) = some .unfinished := by
  have dispatched : widgetDispatched none = some ["m1".toList] := by decide
  obtain ⟨released, returned⟩ := widget_sweep_returns dispatched
  have execution := widget_sweep_executes none
  rw [returned] at execution
  refine (dispatched_task_runs_iff.2 _ _ _ _ _ execution _ (List.mem_singleton_self _)).mpr ?_
  simp

theorem finished_job_reported :
    ¬∀ (state after : WidgetDeployment) (trace : List (Exchange ports)) released created,
      Exec (deployed _ _ widgetClient manifestName) (sweep (.ok "kind: Job") 20 10) state trace
        (.ok (released, created)) after →
      ∀ id ∈ created, after.2 (jobName id) = some .unfinished := by
  intro runs
  have dispatched : widgetDispatched (some .finished) = some ["m1".toList] := by decide
  obtain ⟨released, returned⟩ := widget_sweep_returns dispatched
  have execution := widget_sweep_executes (some .finished)
  rw [returned] at execution
  have running := runs _ _ _ _ _ execution _ (List.mem_singleton_self _)
  have left : (widgetSweep (some .finished)).2.2.2 (jobName "m1".toList) = some .finished := by
    decide
  rw [left] at running
  cases running

end Example

end DearAgent
