import DearAgent.Lib.Effects
import DearAgent.Errors

/-!
# The Kubernetes client

`kube.py`, and the jobs of a namespace as the API serves them: a job is created
under a name that is not taken, read back under its name, and ends at some point.
-/

namespace DearAgent.Kube

open DearAgent.Lib.Text DearAgent.Lib.Effects

set_option autoImplicit false

inductive ApiRequest
  | get (path : Str)
  | post (path payload : Str)
deriving DecidableEq

namespace ApiRequest

def method : ApiRequest → Str
  | .get _ => "GET"
  | .post _ _ => "POST"

def path : ApiRequest → Str
  | .get path | .post path _ => path

end ApiRequest

/-- What becomes of a request: an answer, an error status, no connection, or any
other exception on the way. -/
inductive Response
  | ok (body : Str)
  | httpError (code : Nat) (detail : Str)
  | urlError (reason : Str)
  | raised (error : Exn)
deriving DecidableEq

@[reducible] def api : Signature where
  Request := ApiRequest
  Reply _ := Response
  Raised := Exn

structure KubernetesClient where
  ns : Str
deriving DecidableEq

def kubernetesError (text : Str) : Exn := .otherException "KubernetesError" text

/-- Whether the text of an error tells that the job is there already. -/
def alreadyExists (text : Str) : Bool :=
  contains " 409 " (' ' :: text ++ [' ']) || contains "AlreadyExists" text

def isConflict : Exn → Bool
  | .otherException className text =>
      className = "KubernetesError".toList && alreadyExists text
  | _ => false

namespace KubernetesClient

def failure (request : ApiRequest) (reason : Str) : Exn :=
  kubernetesError (request.method ++ ' ' :: request.path ++ " failed: ".toList ++ reason)

/-- What `_request` makes of a response. -/
def outcome (request : ApiRequest) : Response → Except Exn Str
  | .ok body => .ok body
  | .httpError code detail => .error (failure request ((toString code).toList ++ ' ' :: detail))
  | .urlError reason => .error (failure request reason)
  | .raised error => .error error

def request (request : ApiRequest) : Program api Str :=
  .ask request fun response => unwrap (outcome request response)

def jobsPath (client : KubernetesClient) : Str :=
  "/apis/batch/v1/namespaces/".toList ++ client.ns ++ "/jobs".toList

/-- `create_job`. The name is the one in the metadata of the job. -/
def createJob (client : KubernetesClient) (name job : Str) : Program api Str :=
  exceptWhere isConflict (request (.post client.jobsPath job)) fun _ =>
    request (.get (client.jobsPath ++ '/' :: name))

end KubernetesClient

inductive JobStatus
  | unfinished | finished
deriving DecidableEq

/-- The jobs of a namespace that are not collected yet, by name. -/
abbrev Cluster := Str → Option JobStatus

def Cluster.start (cluster : Cluster) (name : Str) : Cluster :=
  fun other => if other = name then some .unfinished else cluster other

/-- The API server, given the name in the metadata of a job. A name that is taken
is refused; a request that fails may have been carried out or not. -/
def serves (client : KubernetesClient) (metadataName : Str → Str) : Env api Cluster
  | .post path job, cluster, response, after =>
      if (cluster (metadataName job)).isSome then
        after = cluster ∧ ∀ body, response ≠ .ok body
      else after = cluster.start (metadataName job) ∧ path = client.jobsPath ∨
        after = cluster ∧ ∀ body, response ≠ .ok body
  | .get path, cluster, response, after => after = cluster ∧
      ∀ body, response = .ok body → ∀ name, path = client.jobsPath ++ '/' :: name →
        (cluster name).isSome

/-- One cluster follows another without a job ending: what was there still is,
and what is new has not ended. -/
def Follows (cluster after : Cluster) : Prop :=
  ∀ name, after name = cluster name ∨ cluster name = none ∧ after name = some .unfinished

theorem Follows.refl (cluster : Cluster) : Follows cluster cluster := fun _ => .inl rfl

theorem same_follows {earlier after : Cluster} (same : after = earlier) : Follows earlier after :=
  same ▸ .refl earlier

theorem Follows.trans {first second third : Cluster} (early : Follows first second)
    (late : Follows second third) : Follows first third := by
  intro name
  rcases early name with same | ⟨absent, started⟩ <;> rcases late name with same' | ⟨absent', started'⟩
  · exact .inl (same'.trans same)
  · exact .inr ⟨same ▸ absent', started'⟩
  · exact .inr ⟨absent, same'.trans started⟩
  · exact .inr ⟨absent, started'⟩

theorem Follows.isSome {cluster after : Cluster} (follows : Follows cluster after) {name : Str}
    (present : (cluster name).isSome) : (after name).isSome := by
  rcases follows name with same | ⟨_, started⟩
  · rw [same]
    exact present
  · rw [started]
    rfl

theorem follows_start {cluster : Cluster} {name : Str} (absent : cluster name = none) :
    Follows cluster (cluster.start name) := by
  intro other
  by_cases same : other = name
  · subst same
    exact .inr ⟨absent, if_pos rfl⟩
  · exact .inl (if_neg same)

theorem unfinished_iff {cluster after : Cluster} (follows : Follows cluster after) {name : Str}
    (present : (after name).isSome) :
    after name = some .unfinished ↔ cluster name ≠ some .finished := by
  rcases follows name with same | ⟨absent, started⟩
  · rw [same] at present ⊢
    obtain ⟨status, found⟩ := Option.isSome_iff_exists.mp present
    rw [found]
    cases status <;> simp
  · simp [absent, started]

section Creating

variable {client : KubernetesClient} {metadataName : Str → Str}

theorem post_follows {path job : Str} {cluster after : Cluster} {response : Response}
    (served : serves client metadataName (.post path job) cluster response after) :
    Follows cluster after ∧ ∀ body, response = .ok body → (after (metadataName job)).isSome := by
  simp only [serves] at served
  split_ifs at served with taken
  · obtain ⟨rfl, refused⟩ := served
    exact ⟨.refl after, fun body replied => absurd replied (refused body)⟩
  · rcases served with ⟨rfl, _⟩ | ⟨rfl, failed⟩
    · refine ⟨follows_start (Option.not_isSome_iff_eq_none.mp taken), fun _ _ => ?_⟩
      simp [Cluster.start]
    · exact ⟨.refl after, fun body replied => absurd replied (failed body)⟩

theorem meets_request {request : ApiRequest} {cluster : Cluster}
    {post : Cluster → Except Exn Str → Prop}
    (replied : ∀ response after, serves client metadataName request cluster response after →
      post after (KubernetesClient.outcome request response)) :
    Meets (serves client metadataName) (fun _ _ => True) (KubernetesClient.request request) cluster
      post := by
  refine ⟨trivial, fun response after served => ?_⟩
  have ended := replied response after served
  cases response <;> exact ended

theorem outcome_ok {request : ApiRequest} {response : Response} {body : Str}
    (returned : KubernetesClient.outcome request response = .ok body) : response = .ok body := by
  cases response with
  | ok other => exact congrArg Response.ok (Except.ok.inj returned)
  | httpError code detail => cases returned
  | urlError reason => cases returned
  | raised error => cases returned

/-- A job that was created, or was there already, is there; the jobs that were
there before are as they were. -/
theorem create_job_meets (job : Str) (cluster : Cluster) :
    Meets (serves client metadataName) (fun _ _ => True)
      (client.createJob (metadataName job) job) cluster fun after outcome =>
        Follows cluster after ∧ ∀ body, outcome = .ok body → (after (metadataName job)).isSome := by
  refine (meets_catch _ _ _ _).mpr (meets_request fun response after served => ?_)
  obtain ⟨follows, created⟩ := post_follows served
  cases ended : KubernetesClient.outcome (.post client.jobsPath job) response with
  | ok body => exact ⟨follows, fun _ _ => created body (outcome_ok ended)⟩
  | error error =>
      change Meets _ _ (if isConflict error = true then _ else _) _ _
      split_ifs
      · refine meets_request fun reply final found => ?_
        obtain ⟨rfl, known⟩ := found
        exact ⟨follows, fun body returned => known body (outcome_ok returned) _ rfl⟩
      · exact ⟨follows, by rintro _ ⟨⟩⟩

end Creating

section Others

variable {client : KubernetesClient} {metadataName : Str → Str}

def Cluster.put (cluster : Cluster) (name : Str) (status : Option JobStatus) : Cluster :=
  fun other => if other = name then status else cluster other

theorem put_ne (cluster : Cluster) (status : Option JobStatus) {name other : Str}
    (apart : other ≠ name) : cluster.put name status other = cluster other := if_neg apart

/-- Starting a job under one name and what becomes of another name are in no order. -/
theorem put_start (cluster : Cluster) (status : Option JobStatus) {name other : Str}
    (apart : other ≠ name) :
    (cluster.put other status).start name = (cluster.start name).put other status := by
  funext known
  simp only [Cluster.start, Cluster.put]
  by_cases own : known = name
  · rw [if_pos own, if_neg (own ▸ Ne.symm apart), if_pos own]
  · rw [if_neg own, if_neg own]

def Concerns (client : KubernetesClient) (metadataName : Str → Str) (name : Str) :
    ApiRequest → Prop
  | .post _ job => metadataName job = name
  | .get path => path = client.jobsPath ++ '/' :: name

theorem create_job_concerns (job : Str) :
    Asks (S := api) (Concerns client metadataName (metadataName job))
      (client.createJob (metadataName job) job) := by
  have asked : ∀ request : ApiRequest, Concerns client metadataName (metadataName job) request →
      Asks (S := api) (Concerns client metadataName (metadataName job))
        (KubernetesClient.request request) := by
    intro request concerns
    apply And.intro concerns
    intro response
    cases response <;> trivial
  exact asks_except (asked _ rfl) fun _ => asked _ rfl

theorem served_aside {name other : Str} (apart : other ≠ name) {request : ApiRequest}
    {cluster after : Cluster} {response : Response}
    (concerns : Concerns client metadataName name request)
    (served : serves client metadataName request cluster response after) :
    after other = cluster other ∧ ∀ status, serves client metadataName request
      (cluster.put other status) response (after.put other status) := by
  cases request with
  | get path =>
      have ⟨same, found⟩ := served
      subst same
      apply And.intro rfl
      intro status
      apply And.intro rfl
      intro body replied known asked
      have equal : client.jobsPath ++ '/' :: known = client.jobsPath ++ '/' :: name :=
        asked.symm.trans concerns
      have own : known = name := (List.cons.inj (List.append_cancel_left equal)).2
      rw [put_ne after status (own ▸ Ne.symm apart)]
      exact found body replied known asked
  | post path job =>
      have named : metadataName job = name := concerns
      simp only [serves, named] at served ⊢
      have aside := fun status => put_ne cluster status (Ne.symm apart)
      by_cases taken : (cluster name).isSome
      · rw [if_pos taken] at served
        have ⟨same, refused⟩ := served
        subst same
        apply And.intro rfl
        intro status
        rw [aside, if_pos taken]
        exact ⟨rfl, refused⟩
      · rw [if_neg taken] at served
        cases served with
        | inl started =>
            have ⟨same, reached⟩ := started
            subst same
            apply And.intro (if_neg apart)
            intro status
            rw [aside, if_neg taken, put_start cluster status apart]
            exact .inl ⟨rfl, reached⟩
        | inr failed =>
            have ⟨same, refused⟩ := failed
            subst same
            apply And.intro rfl
            intro status
            rw [aside, if_neg taken]
            exact .inr ⟨rfl, refused⟩

/-- Creating a job leaves the job of another name as it is, and goes the same way whatever
becomes of that one. -/
def Spares (client : KubernetesClient) (metadataName : Str → Str) (job other : Str) : Prop :=
  ∀ cluster trace outcome after,
    Exec (serves client metadataName) (client.createJob (metadataName job) job) cluster trace
      outcome after →
    after other = cluster other ∧ ∀ status,
      Exec (serves client metadataName) (client.createJob (metadataName job) job)
        (cluster.put other status) trace outcome (after.put other status)

theorem create_job_spares {job other : Str} (apart : other ≠ metadataName job) :
    Spares client metadataName job other := by
  intro cluster trace outcome after execution
  have concerns : Asks (Concerns client metadataName (metadataName job))
      (client.createJob (metadataName job) job) := create_job_concerns job
  constructor
  · have kept : Meets (serves client metadataName) (fun _ _ => True)
        (client.createJob (metadataName job) job) cluster
        fun reached _ => reached other = cluster other := by
      apply concerns.meets (fun reached : Cluster => reached other = cluster other)
      · exact fun _ _ _ _ => trivial
      · intro state request response reached same asked served
        exact (served_aside apart asked served).1.trans same
      · rfl
    exact kept.sound execution
  · intro status
    apply concerns.carried (fun state : Cluster => state.put other status) _ execution
    intro request state response reached asked served
    exact (served_aside apart asked served).2 status

end Others

end DearAgent.Kube
