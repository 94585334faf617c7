import DearAgent.Lib.Dumps
import DearAgent.Runners.Shared

/-!
# What crosses the shared directory

The request and the result of `runners/shared.py` cross the directory as JSON texts. What one
side wrote the other side reads as it was, but for texts in which a high surrogate stands
right before a low one. A record nests two objects at most, so that both interpreters only have
to let containers nest as deep as that.
-/

namespace DearAgent.Shared.Wire

open DearAgent.Lib.Text DearAgent.Lib.CodePoints DearAgent.Lib.Values DearAgent.Lib.Json

set_option autoImplicit false

section Source

/-- A request; what `loads` makes of a text may have any value in a field. -/
structure HarnessRequest where
  taskId : Value
  instructions : Value
  modelRequest : Value
  workdir : Value
  branch : Value

def HarnessRequest.asdict (request : HarnessRequest) : Value :=
  .dict [("task_id", request.taskId), ("instructions", request.instructions),
    ("model_request", request.modelRequest), ("workdir", request.workdir),
    ("branch", request.branch)]

def keyError : Raised :=
  { classes := ["KeyError".toList, "LookupError".toList, "Exception".toList] }

/-- `data[key]`. -/
def item (key : PyStr) (entries : List (PyStr × Value)) : Except Raised Value :=
  (entries.lookup key).elim (.error keyError) .ok

/-- The request of the data of a file; only an object can be asked for a key. -/
def HarnessRequest.ofData (data : Value) : Except Raised HarnessRequest := do
  let entries ← data.entries?.elim (.error typeError) .ok
  let taskId ← item "task_id" entries
  let workdir ← item "workdir" entries
  return {
    taskId
    instructions := getOr (.str []) "instructions" entries
    modelRequest := getOr .null "model_request" entries
    workdir
    branch := getOr (.str "dear-agent") "branch" entries }

structure RunResult where
  exitCode : Value
  stdout : Value := .str []
  stderr : Value := .str []
  branch : Value := .null
  commit : Value := .null
  prUrl : Value := .null
  extra : Value := .dict []

def RunResult.asdict (result : RunResult) : Value :=
  .dict [("exit_code", result.exitCode), ("stdout", result.stdout), ("stderr", result.stderr),
    ("branch", result.branch), ("commit", result.commit), ("pr_url", result.prUrl),
    ("extra", result.extra)]

def RunResult.fields : List PyStr :=
  ["exit_code", "stdout", "stderr", "branch", "commit", "pr_url", "extra"]

/-- `RunResult(**data)`. -/
def RunResult.ofData (data : Value) : Except Raised RunResult := do
  let entries ← data.entries?.elim (.error typeError) .ok
  if entries.any fun entry => !RunResult.fields.contains entry.1 then .error typeError else .ok ()
  let exitCode ← (entries.lookup ("exit_code" : PyStr)).elim (.error typeError) .ok
  return {
    exitCode
    stdout := getOr (.str []) "stdout" entries
    stderr := getOr (.str []) "stderr" entries
    branch := getOr .null "branch" entries
    commit := getOr .null "commit" entries
    prUrl := getOr .null "pr_url" entries
    extra := getOr (.dict []) "extra" entries }

variable [Interpreter]

def HarnessRequest.dumps (request : HarnessRequest) : Except Raised PyStr := Lib.Json.dumps request.asdict

def HarnessRequest.loads (text : PyStr) : Except Raised HarnessRequest := do
  let data ← loadsText text
  HarnessRequest.ofData data

/-- What `serve` writes into the file of the result. -/
def writeResult (result : RunResult) : Except Raised PyStr := Lib.Json.dumps result.asdict

/-- What `DelegatingRunner.run` makes of that file. -/
def readResult (text : PyStr) : Except Raised RunResult := do
  let data ← loadsText text
  RunResult.ofData data

end Source

/-!
## The two records
-/

section Records

def textOr (text : Option PyStr) : Value := text.elim .null .str

structure Asked where
  taskId : PyStr
  instructions : PyStr
  modelRequest : Option PyStr
  workdir : PyStr
  branch : PyStr

def Asked.ofRequest (request : Shared.HarnessRequest) : Asked where
  taskId := ofText request.taskId
  instructions := ofText request.instructions
  modelRequest := request.modelRequest.map ofText
  workdir := ofText request.workdir
  branch := ofText request.branch

def Asked.request (asked : Asked) : HarnessRequest :=
  ⟨.str asked.taskId, .str asked.instructions, textOr asked.modelRequest, .str asked.workdir,
    .str asked.branch⟩

def Asked.texts (asked : Asked) : List PyStr :=
  [asked.taskId, asked.instructions, asked.workdir, asked.branch] ++ asked.modelRequest.toList

structure Returned where
  exitCode : Int
  stdout : PyStr
  stderr : PyStr
  branch : Option PyStr
  commit : Option PyStr
  prUrl : Option PyStr
  extra : List (PyStr × PyStr)

def textEntries (entries : List (PyStr × PyStr)) : List (PyStr × Value) :=
  entries.map fun entry => (entry.1, .str entry.2)

def Returned.result (returned : Returned) : RunResult where
  exitCode := .int returned.exitCode
  stdout := .str returned.stdout
  stderr := .str returned.stderr
  branch := textOr returned.branch
  commit := textOr returned.commit
  prUrl := textOr returned.prUrl
  extra := .dict (textEntries returned.extra)

def Returned.texts (returned : Returned) : List PyStr :=
  [returned.stdout, returned.stderr] ++ returned.branch.toList ++ returned.commit.toList ++
    returned.prUrl.toList ++ returned.extra.flatMap fun entry => [entry.1, entry.2]

theorem read_back_text_or (text : Option PyStr) :
    readBack (textOr text) = textOr (text.map rejoin) := by
  cases text with
  | none => rfl
  | some s => rfl

theorem text_or_injective {text other : Option PyStr} : textOr text = textOr other ↔ text = other := by
  cases text with
  | none => cases other <;> simp [textOr]
  | some s => cases other <;> simp [textOr]

theorem map_rejoin_eq_iff (text : Option PyStr) :
    text.map rejoin = text ↔ ∀ s ∈ text.toList, Unpaired s := by
  cases text with
  | none => simp
  | some s => simp [rejoin_eq_self_iff]

theorem floats_text_or (text : Option PyStr) : FloatsRead (textOr text) := by
  cases text with
  | none => trivial
  | some s => trivial

theorem floats_text_entries (entries : List (PyStr × PyStr)) :
    FloatsReadUnder (textEntries entries) := by
  induction entries with
  | nil => trivial
  | cons entry rest ih => exact ⟨trivial, ih⟩

theorem read_back_text_entries {entries : List (PyStr × PyStr)}
    (distinct : (entries.map Prod.fst).Nodup) :
    readBack (.dict (textEntries entries)) = .dict (textEntries entries) ↔
      ∀ entry ∈ entries, Unpaired entry.1 ∧ Unpaired entry.2 := by
  have keys : (textEntries entries).map Prod.fst = entries.map Prod.fst := by
    unfold textEntries
    rw [List.map_map]
    rfl
  rw [readBack, Value.dict.injEq, read_entries_eq_iff (keys ▸ distinct)]
  unfold textEntries
  rw [List.forall_mem_map]
  simp only [readBack, Value.str.injEq, rejoin_eq_self_iff]

theorem read_back_named {names : List Str} {values : List Value} (distinct : names.Nodup)
    (size : names.length ≤ values.length) :
    readBack (.dict ((names.map ofText).zip values)) =
      .dict ((names.map ofText).zip (values.map readBack)) := by
  have keys : (((names.map ofText).zip values).map Prod.fst).Nodup := by
    rw [List.map_fst_zip (by rwa [List.length_map])]
    exact distinct.map of_text_injective
  have named : ∀ entry ∈ (names.map ofText).zip values, rejoin entry.1 = entry.1 := by
    intro entry member
    have ⟨name, _, same⟩ := List.mem_map.mp (List.of_mem_zip member).1
    rw [← same]
    exact (rejoin_eq_self_iff _).mpr (unpaired_of_text name)
  rw [readBack, read_entries_named [] _ named keys, List.nil_append, List.zip_map_right]
  rfl

end Records

section Crossing

theorem text_or_written (level depth : Nat) (text : Option PyStr) :
    ∃ written, dumpsAt none level depth (textOr text) = .ok written := by
  cases text with
  | none => exact ⟨_, rfl⟩
  | some s => exact ⟨_, rfl⟩

variable [Interpreter] {text : PyStr}

theorem request_read (asked : Asked) (deep : 1 ≤ Interpreter.scanDepth)
    (written : dumpsAt none 0 1 asked.request.asdict = .ok text) :
    HarnessRequest.loads text = .ok (Asked.request {
      taskId := rejoin asked.taskId
      instructions := rejoin asked.instructions
      modelRequest := asked.modelRequest.map rejoin
      workdir := rejoin asked.workdir
      branch := rejoin asked.branch }) := by
  have floats : FloatsRead asked.request.asdict :=
    ⟨trivial, trivial, floats_text_or asked.modelRequest, trivial, trivial, trivial⟩
  have read := loads_dumps floats written deep
  have named := @read_back_named
    ["task_id".toList, "instructions".toList, "model_request".toList, "workdir".toList,
      "branch".toList]
    [.str asked.taskId, .str asked.instructions, textOr asked.modelRequest, .str asked.workdir,
      .str asked.branch] (by decide) le_rfl
  have same : readBack asked.request.asdict = _ := named
  unfold HarnessRequest.loads
  rw [read, ok_bind, same]
  simp only [List.map_cons, List.map_nil, read_back_text_or]
  rfl

theorem result_read (returned : Returned) (deep : 2 ≤ Interpreter.scanDepth)
    (written : dumpsAt none 0 2 returned.result.asdict = .ok text) :
    readResult text = .ok {
      exitCode := .int returned.exitCode
      stdout := .str (rejoin returned.stdout)
      stderr := .str (rejoin returned.stderr)
      branch := textOr (returned.branch.map rejoin)
      commit := textOr (returned.commit.map rejoin)
      prUrl := textOr (returned.prUrl.map rejoin)
      extra := readBack (.dict (textEntries returned.extra)) } := by
  have floats : FloatsRead returned.result.asdict :=
    ⟨trivial, trivial, trivial, floats_text_or _, floats_text_or _, floats_text_or _,
      floats_text_entries returned.extra, trivial⟩
  have read := loads_dumps floats written deep
  have named := @read_back_named
    ["exit_code".toList, "stdout".toList, "stderr".toList, "branch".toList, "commit".toList,
      "pr_url".toList, "extra".toList]
    [.int returned.exitCode, .str returned.stdout, .str returned.stderr, textOr returned.branch,
      textOr returned.commit, textOr returned.prUrl, .dict (textEntries returned.extra)] (by decide) le_rfl
  have same : readBack returned.result.asdict = _ := named
  unfold readResult
  rw [read, ok_bind, same]
  simp only [List.map_cons, List.map_nil, read_back_text_or]
  rfl

omit [Interpreter] in
theorem request_written (asked : Asked) :
    ∃ text, dumpsAt none 0 1 asked.request.asdict = .ok text := by
  apply (dumps_dict_returns_iff 0 0 _).mpr
  simp only [List.forall_mem_cons]
  exact ⟨⟨_, rfl⟩, ⟨_, rfl⟩, text_or_written _ _ _, ⟨_, rfl⟩, ⟨_, rfl⟩, by simp⟩

omit [Interpreter] in
theorem result_written (returned : Returned)
    (bound : returned.exitCode.natAbs < 10 ^ maxStrDigits) :
    ∃ text, dumpsAt none 0 2 returned.result.asdict = .ok text := by
  have code : ∃ text, dumpsAt none 1 1 (.int returned.exitCode) = .ok text :=
    (write_int_returns_iff returned.exitCode).mpr bound
  have extra : ∃ text, dumpsAt none 1 1 (.dict (textEntries returned.extra)) = .ok text := by
    apply (dumps_dict_returns_iff 1 0 _).mpr
    unfold textEntries
    rw [List.forall_mem_map]
    exact fun entry _ => ⟨_, rfl⟩
  apply (dumps_dict_returns_iff 0 1 _).mpr
  simp only [List.forall_mem_cons]
  exact ⟨code, ⟨_, rfl⟩, ⟨_, rfl⟩, text_or_written _ _ _, text_or_written _ _ _,
    text_or_written _ _ _, extra, by simp⟩

/-- A record crosses the directory: it is written, in printable ASCII, and it is read as it was
where none of its texts has a pair of surrogates. -/
structure Crosses {α : Type} (written : Except Raised PyStr) (read : PyStr → Except Raised α)
    (record : α) (texts : List PyStr) : Prop where
  readable : ∃ text, written = .ok text ∧ (∀ c ∈ text, Shown c) ∧
    (read text = .ok record ↔ ∀ s ∈ texts, Unpaired s)

theorem request_crosses (asked : Asked) (nests : 1 ≤ Interpreter.reprDepth)
    (deep : 1 ≤ Interpreter.scanDepth) :
    Crosses asked.request.dumps HarnessRequest.loads asked.request asked.texts := by
  have ⟨text, written⟩ := request_written asked
  refine ⟨text, dumps_deeper 0 nests _ written, dumps_shown 0 _ _ written, ?_⟩
  rw [request_read asked deep written]
  unfold Asked.request Asked.texts
  simp only [Except.ok.injEq, HarnessRequest.mk.injEq, Value.str.injEq, text_or_injective,
    rejoin_eq_self_iff, map_rejoin_eq_iff, List.forall_mem_append, List.forall_mem_cons]
  constructor
  · intro same
    exact ⟨⟨same.1, same.2.1, same.2.2.2.1, same.2.2.2.2, by simp⟩, same.2.2.1⟩
  · intro all
    exact ⟨all.1.1, all.1.2.1, all.2, all.1.2.2.1, all.1.2.2.2.1⟩

theorem result_crosses (returned : Returned) (nests : 2 ≤ Interpreter.reprDepth)
    (deep : 2 ≤ Interpreter.scanDepth)
    (bound : returned.exitCode.natAbs < 10 ^ maxStrDigits)
    (distinct : (returned.extra.map Prod.fst).Nodup) :
    Crosses (writeResult returned.result) readResult returned.result returned.texts := by
  have ⟨text, written⟩ := result_written returned bound
  refine ⟨text, dumps_deeper 0 nests _ written, dumps_shown 0 _ _ written, ?_⟩
  have extras := read_back_text_entries distinct
  rw [result_read returned deep written]
  unfold Returned.result Returned.texts
  simp only [Except.ok.injEq, RunResult.mk.injEq, Value.str.injEq, text_or_injective,
    rejoin_eq_self_iff, map_rejoin_eq_iff, extras, List.forall_mem_append, List.forall_mem_cons,
    List.forall_mem_flatMap, List.not_mem_nil, false_implies, implies_true, and_true, true_and,
    and_assoc]

/-- Requests and results cross the directory, however they were made. -/
theorem records_cross (asked : Asked) (returned : Returned) (nests : 2 ≤ Interpreter.reprDepth)
    (deep : 2 ≤ Interpreter.scanDepth)
    (bound : returned.exitCode.natAbs < 10 ^ maxStrDigits)
    (distinct : (returned.extra.map Prod.fst).Nodup) :
    Crosses asked.request.dumps HarnessRequest.loads asked.request asked.texts ∧
      Crosses (writeResult returned.result) readResult returned.result returned.texts :=
  ⟨request_crosses asked (by omega) (by omega), result_crosses returned nests deep bound distinct⟩

/-- The records of the handshake are texts of characters, so that they cross as they are. -/
theorem handshake_crosses (request : Shared.HarnessRequest)
    (nests : 1 ≤ Interpreter.reprDepth) (deep : 1 ≤ Interpreter.scanDepth) :
    ∃ text, (Asked.ofRequest request).request.dumps = .ok text ∧
      HarnessRequest.loads text = .ok (Asked.ofRequest request).request := by
  have ⟨text, written, _, exact_⟩ := (request_crosses (.ofRequest request) nests deep).readable
  refine ⟨text, written, exact_.mpr ?_⟩
  have ⟨taskId, instructions, modelRequest, workdir, branch⟩ := request
  intro s member
  have ⟨characters, same⟩ : ∃ characters, s = ofText characters := by
    unfold Asked.texts Asked.ofRequest at member
    cases modelRequest with
    | none =>
        simp only [Option.map_none, Option.toList_none, List.append_nil, List.mem_cons,
          List.not_mem_nil, or_false] at member
        rcases member with same | same | same | same <;> exact ⟨_, same⟩
    | some model =>
        simp only [Option.map_some, Option.toList_some, List.cons_append, List.nil_append,
          List.mem_cons, List.not_mem_nil, or_false] at member
        rcases member with same | same | same | same | same <;> exact ⟨_, same⟩
  rw [same]
  exact unpaired_of_text characters

end Crossing

section Example

def pairedAsked : Asked where
  taskId := "t1"
  instructions := [codePoint 0xD83D, codePoint 0xDE00]
  modelRequest := none
  workdir := "/work"
  branch := "dear-agent/t1"

def plainReturned : Returned where
  exitCode := -9
  stdout := "caf\u00e9"
  stderr := []
  branch := some "dear-agent/t1"
  commit := none
  prUrl := none
  extra := [("runner", "codex")]

theorem paired_request_crosses : let _ : Interpreter := ⟨fun _ => none, 1000, 1000⟩
    Crosses pairedAsked.request.dumps HarnessRequest.loads pairedAsked.request pairedAsked.texts ∧
      Crosses (writeResult plainReturned.result) readResult plainReturned.result
        plainReturned.texts :=
  let _ : Interpreter := ⟨fun _ => none, 1000, 1000⟩
  records_cross pairedAsked plainReturned (by decide) (by decide) (by
    have small : plainReturned.exitCode.natAbs < 10 ^ 1 := by decide
    exact small.trans_le (Nat.pow_le_pow_right (by decide) (by decide))) (by decide)

end Example

end DearAgent.Shared.Wire
