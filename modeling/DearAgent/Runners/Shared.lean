import DearAgent.Lib.Machine
import DearAgent.Ports

/-!
# The shared directory

`runners/shared.py`: the control side writes a request and waits for a result, the
harness side runs each request that appears and writes its result. The two files
have fixed names and carry no number; a number that no step looks at is kept here
beside each content, the call it was written for. A file holds the record that
its text stands for.
-/

namespace DearAgent.Shared

open DearAgent.Lib.Text DearAgent.Lib.Machines DearAgent.Queue

set_option autoImplicit false

structure HarnessRequest where
  taskId : Str
  instructions : Str
  modelRequest : Option Str
  workdir : Str
  branch : Str
deriving DecidableEq

structure RunArguments where
  task : Task
  spec : TaskSpec
  worktree : Worktree
deriving DecidableEq

/-- The request that `DelegatingRunner.run` writes. -/
def requestFor (arguments : RunArguments) : HarnessRequest where
  taskId := arguments.task.id
  instructions := arguments.spec.instructions
  modelRequest := arguments.spec.modelRequest
  workdir := arguments.worktree.path
  branch := arguments.worktree.branch

/-- What `serve` gives to its runner; the task is created at this time. -/
def servedArguments (request : HarnessRequest) (now : Instant) : RunArguments where
  task := { id := request.taskId, transportId := request.taskId, createdAt := now }
  spec := {
    repoUrl := ""
    instructions := request.instructions
    modelRequest := request.modelRequest }
  worktree := ⟨request.workdir, request.workdir, request.branch⟩

/-- The result that `serve` reports; what is no `Exception` ends it. -/
def reported : Except Exn RunResult → Option RunResult
  | .ok result => some result
  | .error error =>
      if error.isException then
        some { exitCode := 1, stderr := "harness raised ".toList ++ error.className }
      else none

structure Stamped (α : Type) where
  call : Nat
  content : α
deriving DecidableEq

inductive Client
  | idle
  | called (request : Stamped HarnessRequest)
  /-- An old result is deleted. -/
  | cleared (request : Stamped HarnessRequest)
  | waiting (request : Stamped HarnessRequest)
  /-- There is a result. -/
  | found (request : Stamped HarnessRequest)
  | read (request : Stamped HarnessRequest) (result : Stamped RunResult)
deriving DecidableEq

inductive Server
  | watching
  /-- There is a request. -/
  | found
  | running (request : Stamped HarnessRequest)
  | answering (request : Stamped HarnessRequest) (result : RunResult)
  | answered (request : Stamped HarnessRequest)
  | stopped
deriving DecidableEq

inductive Event
  | called (call : Nat) (arguments : RunArguments)
  | ran (request : Stamped HarnessRequest) (arguments : RunArguments)
      (outcome : Except Exn RunResult)
  | returned (call : Nat) (result : Stamped RunResult)
  /-- The call returns the result of a time-out. -/
  | timedOut (call : Nat) (result : RunResult)
  /-- The request file is deleted or written over. -/
  | removed (request : Stamped HarnessRequest)

structure Handshake where
  request : Option (Stamped HarnessRequest) := none
  result : Option (Stamped RunResult) := none
  client : Client := .idle
  server : Server := .watching
  calls : Nat := 0
  history : List Event := []

inductive Action
  | call (arguments : RunArguments)
  | deleteOldResult
  | writeRequest
  | pollResult
  | timeOut
  | readResult
  | deleteResult
  | pollRequest
  | readRequest
  | runHarness (now : Instant) (outcome : Except Exn RunResult)
  | writeResult
  | deleteRequest

def removal (request : Option (Stamped HarnessRequest)) : List Event :=
  request.toList.map .removed

def timeOutResult (branch : Str) : RunResult where
  exitCode := 124
  stderr := "the harness container did not answer in time"
  branch := some branch

/-- The steps of `DelegatingRunner.run` and then those of `serve`. -/
def step : Machine Handshake Action
  | s, .call arguments =>
      match s.client with
      | .idle => some { s with
          client := .called ⟨s.calls, requestFor arguments⟩
          calls := s.calls + 1
          history := s.history ++ [.called s.calls arguments] }
      | _ => none
  | s, .deleteOldResult =>
      match s.client with
      | .called request => some { s with result := none, client := .cleared request }
      | _ => none
  | s, .writeRequest =>
      match s.client with
      | .cleared request => some { s with
          request := some request
          client := .waiting request
          history := s.history ++ removal s.request }
      | _ => none
  | s, .pollResult =>
      match s.client with
      | .waiting request => some { s with
          client := if s.result.isSome then .found request else .waiting request }
      | _ => none
  | s, .timeOut =>
      match s.client with
      | .waiting request => some { s with
          client := .idle
          history := s.history ++ [.timedOut request.call (timeOutResult request.content.branch)] }
      | _ => none
  | s, .readResult =>
      match s.client, s.result with
      | .found request, some result => some { s with client := .read request result }
      | _, _ => none
  | s, .deleteResult =>
      match s.client with
      | .read request result => some { s with
          result := none
          client := .idle
          history := s.history ++ [.returned request.call result] }
      | _ => none
  | s, .pollRequest =>
      match s.server with
      | .watching => some { s with server := if s.request.isSome then .found else .watching }
      | _ => none
  | s, .readRequest =>
      match s.server, s.request with
      | .found, some request => some { s with server := .running request }
      | _, _ => none
  | s, .runHarness now outcome =>
      match s.server with
      | .running request => some { s with
          server := match reported outcome with
            | some result => .answering request result
            | none => .stopped
          history := s.history ++ [.ran request (servedArguments request.content now) outcome] }
      | _ => none
  | s, .writeResult =>
      match s.server with
      | .answering request result => some { s with
          result := some ⟨request.call, result⟩
          server := .answered request }
      | _ => none
  | s, .deleteRequest =>
      match s.server with
      | .answered _ => some { s with
          request := none
          server := .watching
          history := s.history ++ removal s.request }
      | _ => none

/-- A call with this number made this request. -/
def Asked (history : List Event) (request : Stamped HarnessRequest) : Prop :=
  ∃ arguments, .called request.call arguments ∈ history ∧ request.content = requestFor arguments

def Ran (history : List Event) (request : Stamped HarnessRequest) : Prop :=
  ∃ arguments outcome, .ran request arguments outcome ∈ history

/-- The result is that of a harness run for the request of this call. -/
def Produced (history : List Event) (call : Nat) (result : RunResult) : Prop :=
  ∃ request arguments outcome, request.call = call ∧ Asked history request ∧
    .ran request arguments outcome ∈ history ∧ reported outcome = some result

/-- What the harness runs is what a call asked for. -/
def Requested (history : List Event) : Prop :=
  ∀ request arguments outcome, .ran request arguments outcome ∈ history →
    Asked history request ∧ ∃ now, arguments = servedArguments request.content now

/-- What a call returns, unless it timed out, was produced for it. -/
def Answered (history : List Event) : Prop :=
  ∀ call result, .returned call result ∈ history →
    result.call = call ∧ Produced history call result.content

/-- The harness ran a request before its file was removed. -/
def NothingLost (history : List Event) : Prop :=
  ∀ before request after, history = before ++ .removed request :: after → Ran before request

/-- A request is written only where the one before it was served: there is no
request, no result, and none in the hands of the server. -/
def WritesAlone (s : Handshake) : Action → Prop
  | .writeRequest => s.request = none ∧ s.result = none ∧ s.server = .watching
  | _ => True

instance (s : Handshake) (action : Action) : Decidable (WritesAlone s action) :=
  match action with
  | .writeRequest => inferInstanceAs (Decidable (_ ∧ _ ∧ _))
  | .call _ | .deleteOldResult | .pollResult | .timeOut | .readResult | .deleteResult | .pollRequest
  | .readRequest | .runHarness _ _ | .writeResult | .deleteRequest => .isTrue trivial

section Growing

variable {history more : List Event}

theorem Asked.grow {request : Stamped HarnessRequest} (asked : Asked history request) :
    Asked (history ++ more) request := by
  obtain ⟨arguments, called, same⟩ := asked
  exact ⟨arguments, List.mem_append_left _ called, same⟩

theorem Ran.grow {request : Stamped HarnessRequest} (ran : Ran history request) :
    Ran (history ++ more) request := by
  obtain ⟨arguments, outcome, known⟩ := ran
  exact ⟨arguments, outcome, List.mem_append_left _ known⟩

theorem Produced.grow {call : Nat} {result : RunResult} (produced : Produced history call result) :
    Produced (history ++ more) call result := by
  obtain ⟨request, arguments, outcome, same, asked, ran, reports⟩ := produced
  exact ⟨request, arguments, outcome, same, asked.grow, List.mem_append_left _ ran, reports⟩

theorem Requested.grow (requested : Requested history)
    (runs : ∀ request arguments outcome, .ran request arguments outcome ∈ more →
      Asked history request ∧ ∃ now, arguments = servedArguments request.content now) :
    Requested (history ++ more) := by
  intro request arguments outcome member
  rcases List.mem_append.mp member with old | new
  · exact ⟨(requested _ _ _ old).1.grow, (requested _ _ _ old).2⟩
  · exact ⟨(runs _ _ _ new).1.grow, (runs _ _ _ new).2⟩

theorem Answered.grow (answered : Answered history)
    (returns : ∀ call result, .returned call result ∈ more →
      result.call = call ∧ Produced history call result.content) : Answered (history ++ more) := by
  intro call result member
  rcases List.mem_append.mp member with old | new
  · exact ⟨(answered _ _ old).1, (answered _ _ old).2.grow⟩
  · exact ⟨(returns _ _ new).1, (returns _ _ new).2.grow⟩

theorem NothingLost.grow (kept : NothingLost history) {event : Event}
    (removes : ∀ request, event = .removed request → Ran history request) :
    NothingLost (history ++ [event]) := by
  intro before request after split
  rcases Lib.Effects.split_concat split with ⟨rfl, rfl, same⟩ | ⟨rest, rfl, same⟩
  · exact removes request same
  · exact kept before request rest same

end Growing

def Client.Recorded (history : List Event) : Client → Prop
  | .idle => True
  | .called request | .cleared request | .waiting request | .found request => Asked history request
  | .read _ result => Produced history result.call result.content

def Server.Recorded (history : List Event) : Server → Prop
  | .running request => Asked history request
  | .answering request result => Ran history request ∧ Produced history request.call result
  | .answered request => Ran history request
  | .watching | .found | .stopped => True

structure Recorded (s : Handshake) : Prop where
  client : s.client.Recorded s.history
  server : s.server.Recorded s.history
  request : ∀ request, s.request = some request → Asked s.history request
  result : ∀ result, s.result = some result → Produced s.history result.call result.content
  requested : Requested s.history

theorem client_recorded_grow {history more : List Event} {client : Client}
    (recorded : client.Recorded history) : client.Recorded (history ++ more) := by
  cases client with
  | idle => trivial
  | called request | cleared request | waiting request | found request => exact Asked.grow recorded
  | read request result => exact Produced.grow recorded

theorem server_recorded_grow {history more : List Event} {server : Server}
    (recorded : server.Recorded history) : server.Recorded (history ++ more) := by
  cases server with
  | running request => exact Asked.grow recorded
  | answering request result => exact ⟨recorded.1.grow, recorded.2.grow⟩
  | answered request => exact Ran.grow recorded
  | watching | found | stopped => trivial

theorem Recorded.grow {s : Handshake} (recorded : Recorded s) {more : List Event}
    (runs : ∀ request arguments outcome, .ran request arguments outcome ∈ more →
      Asked s.history request ∧ ∃ now, arguments = servedArguments request.content now) :
    Recorded { s with history := s.history ++ more } where
  client := client_recorded_grow recorded.client
  server := server_recorded_grow recorded.server
  request request held := (recorded.request request held).grow
  result result held := (recorded.result result held).grow
  requested := recorded.requested.grow runs

theorem removal_runs_nothing {held : Option (Stamped HarnessRequest)}
    {request : Stamped HarnessRequest} {arguments : RunArguments} {outcome : Except Exn RunResult} :
    .ran request arguments outcome ∉ removal held := by
  cases held <;> simp [removal]

inductive Taken (s : Handshake) : Action → Handshake → Prop
  | call (arguments : RunArguments) (idle : s.client = .idle) :
      Taken s (.call arguments) { s with
        client := .called ⟨s.calls, requestFor arguments⟩
        calls := s.calls + 1
        history := s.history ++ [.called s.calls arguments] }
  | deleteOldResult (request : Stamped HarnessRequest) (called : s.client = .called request) :
      Taken s .deleteOldResult { s with result := none, client := .cleared request }
  | writeRequest (request : Stamped HarnessRequest) (cleared : s.client = .cleared request) :
      Taken s .writeRequest { s with
        request := some request
        client := .waiting request
        history := s.history ++ removal s.request }
  | noResult (request : Stamped HarnessRequest) (waiting : s.client = .waiting request) :
      Taken s .pollResult { s with client := .waiting request }
  | seeResult (request : Stamped HarnessRequest) (waiting : s.client = .waiting request) :
      Taken s .pollResult { s with client := .found request }
  | timeOut (request : Stamped HarnessRequest) (waiting : s.client = .waiting request) :
      Taken s .timeOut { s with
        client := .idle
        history := s.history ++ [.timedOut request.call (timeOutResult request.content.branch)] }
  | readResult (request : Stamped HarnessRequest) (result : Stamped RunResult)
      (found : s.client = .found request) (present : s.result = some result) :
      Taken s .readResult { s with client := .read request result }
  | deleteResult (request : Stamped HarnessRequest) (result : Stamped RunResult)
      (read : s.client = .read request result) :
      Taken s .deleteResult { s with
        result := none
        client := .idle
        history := s.history ++ [.returned request.call result] }
  | noRequest : Taken s .pollRequest { s with server := .watching }
  | seeRequest : Taken s .pollRequest { s with server := .found }
  | readRequest (request : Stamped HarnessRequest) (present : s.request = some request) :
      Taken s .readRequest { s with server := .running request }
  | ran (now : Instant) (outcome : Except Exn RunResult) (request : Stamped HarnessRequest)
      (result : RunResult) (running : s.server = .running request)
      (reports : reported outcome = some result) :
      Taken s (.runHarness now outcome) { s with
        server := .answering request result
        history := s.history ++ [.ran request (servedArguments request.content now) outcome] }
  | crashed (now : Instant) (outcome : Except Exn RunResult) (request : Stamped HarnessRequest)
      (running : s.server = .running request) :
      Taken s (.runHarness now outcome) { s with
        server := .stopped
        history := s.history ++ [.ran request (servedArguments request.content now) outcome] }
  | writeResult (request : Stamped HarnessRequest) (result : RunResult)
      (answering : s.server = .answering request result) :
      Taken s .writeResult { s with
        result := some ⟨request.call, result⟩
        server := .answered request }
  | deleteRequest (request : Stamped HarnessRequest) (answered : s.server = .answered request) :
      Taken s .deleteRequest { s with
        request := none
        server := .watching
        history := s.history ++ removal s.request }

theorem step_taken {s after : Handshake} {action : Action} (taken : step s action = some after) :
    Taken s action after := by
  cases action with
  | call arguments =>
      simp only [step] at taken
      split at taken <;> cases taken
      exact .call arguments ‹_›
  | deleteOldResult =>
      simp only [step] at taken
      split at taken <;> cases taken
      exact .deleteOldResult _ ‹_›
  | writeRequest =>
      simp only [step] at taken
      split at taken <;> cases taken
      exact .writeRequest _ ‹_›
  | pollResult =>
      simp only [step] at taken
      split at taken <;> cases taken
      split_ifs
      · exact .seeResult _ ‹_›
      · exact .noResult _ ‹_›
  | timeOut =>
      simp only [step] at taken
      split at taken <;> cases taken
      exact .timeOut _ ‹_›
  | readResult =>
      simp only [step] at taken
      split at taken <;> cases taken
      exact .readResult _ _ ‹_› ‹_›
  | deleteResult =>
      simp only [step] at taken
      split at taken <;> cases taken
      exact .deleteResult _ _ ‹_›
  | pollRequest =>
      simp only [step] at taken
      split at taken <;> cases taken
      split_ifs
      · exact .seeRequest
      · exact .noRequest
  | readRequest =>
      simp only [step] at taken
      split at taken <;> cases taken
      exact .readRequest _ ‹_›
  | runHarness now outcome =>
      simp only [step] at taken
      split at taken <;> cases taken
      cases reports : reported outcome with
      | some result => exact .ran now outcome _ result ‹_› reports
      | none => exact .crashed now outcome _ ‹_›
  | writeResult =>
      simp only [step] at taken
      split at taken <;> cases taken
      exact .writeResult _ _ ‹_›
  | deleteRequest =>
      simp only [step] at taken
      split at taken <;> cases taken
      exact .deleteRequest _ ‹_›

theorem recorded_ran {s : Handshake} {request : Stamped HarnessRequest} (recorded : Recorded s)
    (running : s.server = .running request) (now : Instant) (outcome : Except Exn RunResult) :
    Asked s.history request ∧ Recorded { s with
      history := s.history ++ [.ran request (servedArguments request.content now) outcome] } := by
  have asked : Asked s.history request := by
    have held := recorded.server
    rw [running] at held
    exact held
  apply And.intro asked
  apply recorded.grow
  intro other arguments result member
  cases List.mem_singleton.mp member
  exact ⟨asked, now, rfl⟩

theorem recorded_step {s after : Handshake} {action : Action} (recorded : Recorded s)
    (taken : step s action = some after) : Recorded after := by
  have client := recorded.client
  cases step_taken taken with
  | call arguments idle =>
      have grown : Recorded { s with history := s.history ++ [.called s.calls arguments] } :=
        recorded.grow (by simp)
      exact { grown with client := ⟨arguments, by simp, rfl⟩ }
  | deleteOldResult request called =>
      rw [called] at client
      exact { recorded with client := client, result := by rintro _ ⟨⟩ }
  | writeRequest request cleared =>
      rw [cleared] at client
      have asked : Asked s.history request := client
      have grown : Recorded { s with history := s.history ++ removal s.request } :=
        recorded.grow fun _ _ _ ran => absurd ran removal_runs_nothing
      refine { grown with client := asked.grow, request := ?_ }
      rintro _ ⟨⟩
      exact asked.grow
  | noResult request waiting =>
      rw [waiting] at client
      exact { recorded with client := client }
  | seeResult request waiting =>
      rw [waiting] at client
      exact { recorded with client := client }
  | timeOut request waiting =>
      have grown : Recorded { s with history := s.history ++
          [.timedOut request.call (timeOutResult request.content.branch)] } :=
        recorded.grow (by simp)
      exact { grown with client := trivial }
  | readResult request result found present =>
      exact { recorded with client := recorded.result result present }
  | deleteResult request result read =>
      have grown : Recorded { s with history := s.history ++ [.returned request.call result] } :=
        recorded.grow (by simp)
      exact { grown with client := trivial, result := by rintro _ ⟨⟩ }
  | noRequest => exact { recorded with server := trivial }
  | seeRequest => exact { recorded with server := trivial }
  | readRequest request present =>
      exact { recorded with server := recorded.request request present }
  | ran now outcome request result running reports =>
      obtain ⟨asked, grown⟩ := recorded_ran recorded running now outcome
      have ran := List.mem_append_right s.history (List.mem_singleton_self
        (Event.ran request (servedArguments request.content now) outcome))
      exact { grown with
        server := ⟨⟨_, _, ran⟩, request, _, outcome, rfl, asked.grow, ran, reports⟩ }
  | crashed now outcome request running =>
      exact { (recorded_ran recorded running now outcome).2 with server := trivial }
  | writeResult request result answering =>
      have held := recorded.server
      rw [answering] at held
      refine { recorded with server := held.1, result := ?_ }
      rintro _ ⟨⟩
      exact held.2
  | deleteRequest request answered =>
      have grown : Recorded { s with history := s.history ++ removal s.request } :=
        recorded.grow fun _ _ _ ran => absurd ran removal_runs_nothing
      exact { grown with server := trivial, request := by rintro _ ⟨⟩ }

/-- The call that waits for its result, and the request in the hands of the server. -/
def Client.awaits : Client → Option (Stamped HarnessRequest)
  | .waiting request | .found request | .read request _ => some request
  | .idle | .called _ | .cleared _ => none

def Server.holds : Server → Option (Stamped HarnessRequest)
  | .running request | .answering request _ | .answered request => some request
  | .watching | .found | .stopped => none

/-- Whatever is in the directory while a call waits is its own. -/
structure Sole (s : Handshake) : Prop where
  held : ∀ request, s.server.holds = some request → s.request = some request
  request : ∀ request other, s.client.awaits = some request → s.request = some other →
    other = request
  result : ∀ request result, s.client.awaits = some request → s.result = some result →
    result.call = request.call
  read : ∀ request result, s.client = .read request result → result.call = request.call
  answered : Answered s.history
  nothingLost : NothingLost s.history

theorem sole_step {s after : Handshake} {action : Action} (sole : Sole s) (recorded : Recorded s)
    (alone : WritesAlone s action) (taken : step s action = some after) : Sole after := by
  cases step_taken taken with
  | call arguments idle =>
      exact { sole with
        request := by rintro _ _ ⟨⟩
        result := by rintro _ _ ⟨⟩
        read := by rintro _ _ ⟨⟩
        answered := sole.answered.grow (by simp)
        nothingLost := sole.nothingLost.grow (by rintro _ ⟨⟩) }
  | deleteOldResult request called =>
      exact { sole with
        request := by rintro _ _ ⟨⟩
        result := by rintro _ _ ⟨⟩
        read := by rintro _ _ ⟨⟩ }
  | writeRequest request cleared =>
      obtain ⟨noRequest, noResult, watching⟩ := alone
      simp only [noRequest, removal, Option.toList_none, List.map_nil, List.append_nil]
      exact { sole with
        held := by simp [watching, Server.holds]
        request := by rintro _ _ ⟨⟩ ⟨⟩; rfl
        result := by simp [noResult]
        read := by rintro _ _ ⟨⟩ }
  | noResult request waiting =>
      have awaits : s.client.awaits = some request := by rw [waiting]; rfl
      exact { sole with
        request := fun other held same => sole.request other held (awaits.trans same)
        result := fun other held same => sole.result other held (awaits.trans same)
        read := by rintro _ _ ⟨⟩ }
  | seeResult request waiting =>
      have awaits : s.client.awaits = some request := by rw [waiting]; rfl
      exact { sole with
        request := fun other held same => sole.request other held (awaits.trans same)
        result := fun other held same => sole.result other held (awaits.trans same)
        read := by rintro _ _ ⟨⟩ }
  | timeOut request waiting =>
      exact { sole with
        request := by rintro _ _ ⟨⟩
        result := by rintro _ _ ⟨⟩
        read := by rintro _ _ ⟨⟩
        answered := sole.answered.grow (by simp)
        nothingLost := sole.nothingLost.grow (by rintro _ ⟨⟩) }
  | readResult request result found present =>
      have awaits : s.client.awaits = some request := by rw [found]; rfl
      refine { sole with
        request := fun other held same => sole.request other held (awaits.trans same)
        result := fun other held same => sole.result other held (awaits.trans same)
        read := ?_ }
      rintro _ _ ⟨⟩
      exact sole.result request result awaits present
  | deleteResult request result read =>
      have produced := recorded.client
      rw [read] at produced
      have own := sole.read request result read
      refine { sole with
        request := by rintro _ _ ⟨⟩
        result := by rintro _ _ ⟨⟩
        read := by rintro _ _ ⟨⟩
        answered := sole.answered.grow ?_
        nothingLost := sole.nothingLost.grow (by rintro _ ⟨⟩) }
      intro call other member
      cases List.mem_singleton.mp member
      exact ⟨own, own ▸ produced⟩
  | noRequest => exact { sole with held := by rintro _ ⟨⟩ }
  | seeRequest => exact { sole with held := by rintro _ ⟨⟩ }
  | readRequest request present =>
      refine { sole with held := ?_ }
      rintro _ ⟨⟩
      exact present
  | ran now outcome request result running reports =>
      have held : s.request = some request := sole.held request (by rw [running]; rfl)
      refine { sole with
        held := ?_
        answered := sole.answered.grow (by simp)
        nothingLost := sole.nothingLost.grow (by rintro _ ⟨⟩) }
      rintro _ ⟨⟩
      exact held
  | crashed now outcome request running =>
      exact { sole with
        held := by rintro _ ⟨⟩
        answered := sole.answered.grow (by simp)
        nothingLost := sole.nothingLost.grow (by rintro _ ⟨⟩) }
  | writeResult request result answering =>
      have held : s.request = some request := sole.held request (by rw [answering]; rfl)
      refine { sole with
        held := ?_
        result := ?_ }
      · rintro _ ⟨⟩
        exact held
      · rintro other _ awaits ⟨⟩
        exact congrArg Stamped.call (sole.request other request awaits held)
  | deleteRequest request answered =>
      have held : s.request = some request := sole.held request (by rw [answered]; rfl)
      have ran := recorded.server
      rw [answered] at ran
      simp only [held, removal, Option.toList_some, List.map_cons, List.map_nil]
      refine { sole with
        held := by rintro _ ⟨⟩
        request := by rintro _ _ _ ⟨⟩
        answered := sole.answered.grow (by simp)
        nothingLost := sole.nothingLost.grow ?_ }
      rintro _ ⟨⟩
      exact ran

def Orderly (s : Handshake) : Prop := Recorded s ∧ Sole s

theorem orderly_step (s : Handshake) (action : Action) (after : Handshake) (orderly : Orderly s)
    (alone : WritesAlone s action) (taken : step s action = some after) : Orderly after :=
  ⟨recorded_step orderly.1 taken, sole_step orderly.2 orderly.1 alone taken⟩

theorem recorded_initial : Recorded {} where
  client := trivial
  server := trivial
  request := by rintro _ ⟨⟩
  result := by rintro _ ⟨⟩
  requested := by rintro _ _ _ ⟨⟩

theorem sole_initial : Sole {} where
  held := by rintro _ ⟨⟩
  request := by rintro _ _ ⟨⟩
  result := by rintro _ _ ⟨⟩
  read := by rintro _ _ ⟨⟩
  answered := by rintro _ _ ⟨⟩
  nothingLost _ _ _ split := absurd split.symm (List.append_ne_nil_of_right_ne_nil _ (List.cons_ne_nil _ _))

/-- As long as every request is written alone, a call that does not time out
returns the result of a harness run for its own request, and no request is
deleted or written over before the harness ran it. -/
theorem handshake_correct {actions : List Action} {s : Handshake}
    (alone : step.Guarded WritesAlone actions {}) (driven : step.drive actions {} = some s) :
    Requested s.history ∧ Answered s.history ∧ NothingLost s.history := by
  have kept : Orderly s :=
    Machine.invariant orderly_step ⟨recorded_initial, sole_initial⟩ alone driven
  exact ⟨kept.1.requested, kept.2.answered, kept.2.nothingLost⟩

section Example

def widgetArguments (instructions : Str) : RunArguments where
  task := { id := "m1", transportId := "m1", createdAt := 0 }
  spec := { repoUrl := "acme/widget", instructions := instructions }
  worktree := ⟨"/repo", "/work/m1", "dear-agent/m1"⟩

def askServer (instructions : Str) : List Action :=
  [.call (widgetArguments instructions), .deleteOldResult, .writeRequest, .pollRequest, .readRequest]

def answerCall : List Action :=
  [.runHarness 0 (.ok { exitCode := 0 }), .writeResult, .pollResult, .readResult, .deleteResult]

/-- The second call starts when the first one is answered and its request deleted. -/
def patientCalls : List Action :=
  askServer "Fix it" ++ answerCall ++ [.deleteRequest] ++ askServer "Fix it again" ++ answerCall

def lateAnswer : List Action :=
  askServer "Fix it" ++ [.timeOut, .call (widgetArguments "Fix it again"), .deleteOldResult,
    .writeRequest] ++ answerCall

/-- The second call writes its request before that of the first one is deleted. -/
def hastyCall : List Action :=
  askServer "Fix it" ++ answerCall ++ [.call (widgetArguments "Fix it again"), .deleteOldResult,
    .writeRequest, .deleteRequest]

theorem patient_calls_answered : ∃ s, step.drive patientCalls {} = some s ∧
    Requested s.history ∧ Answered s.history ∧ NothingLost s.history := by
  have alone : step.Guarded WritesAlone patientCalls {} := by decide
  exact ⟨_, rfl, handshake_correct alone rfl⟩

def runsCall (call : Nat) : Event → Bool
  | .ran request _ _ => request.call = call
  | _ => false

/-- The second call returns what the harness made of the first request, and a
request is deleted that the harness never ran. -/
theorem handshake_mixes_calls :
    (¬∀ actions s, step.drive actions {} = some s → Answered s.history) ∧
      ¬∀ actions s, step.drive actions {} = some s → NothingLost s.history := by
  constructor
  · intro answered
    have last : ((step.drive lateAnswer {}).map fun s => s.history.getLast?) =
        some (some (.returned 1 ⟨0, { exitCode := 0 }⟩)) := rfl
    obtain ⟨s, driven, returned⟩ := Option.map_eq_some_iff.mp last
    have same := (answered _ s driven _ _ (List.mem_of_getLast? returned)).1
    cases same
  · intro nothingLost
    let request : Stamped HarnessRequest := ⟨1, requestFor (widgetArguments "Fix it again")⟩
    have history : ((step.drive hastyCall {}).map fun s => (s.history.dropLast, s.history.getLast?)) =
        some (_, some (.removed request)) := rfl
    obtain ⟨s, driven, shape⟩ := Option.map_eq_some_iff.mp history
    obtain ⟨before, removed⟩ := Prod.mk.inj shape
    have split := List.dropLast_append_getLast? _ removed
    obtain ⟨arguments, outcome, ran⟩ := nothingLost _ s driven _ request [] split.symm
    have runs := List.any_eq_true.mpr ⟨_, ran, show runsCall 1 (.ran request arguments outcome) from rfl⟩
    rw [before] at runs
    exact absurd runs (by decide)

end Example

end DearAgent.Shared
