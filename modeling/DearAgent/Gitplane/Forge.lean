import DearAgent.Lib.Url
import DearAgent.Errors

/-!
# Remotes and API forges

`gitplane/forge.py`: how a remote URL is read, and what the API forges make of
the answer to their request.
-/

namespace DearAgent

open DearAgent.Lib.Text DearAgent.Lib.Url

set_option autoImplicit false

structure Remote where
  host : Str
  path : Str
deriving DecidableEq

/-- `s.strip("/")`. -/
def stripSlashes (s : Str) : Str := stripWhere (fun c => c = '/') s

/-- The end of `parse_remote`: the path without the slashes around it and its suffix. -/
def projectPath (path : Str) : Str :=
  let stripped := stripSlashes path
  if endswith stripped ".git" then stripped.take (stripped.length - 4) else stripped

def remoteOf [Unicode] (value host path : Str) : Except Exn Remote :=
  if host.isEmpty || (projectPath path).isEmpty then
    .error (.gitError ("cannot parse remote ".toList ++ reprText value))
  else .ok ⟨host, projectPath path⟩

def parseRemote [Unicode] [NetlocRules] (url : Str) : Except Exn Remote :=
  let value := strip url
  if value.isEmpty then .error (.gitError "empty remote URL")
  else if contains "://" value then
    match urlparse value with
    | none => .error (.valueError "netloc contains invalid characters")
    | some parsed => remoteOf value (hostname parsed.netloc) parsed.path
  else
    match cut ":" value with
    | none => .error (.gitError ("cannot parse remote ".toList ++ reprText value))
    | some (hostPart, path) => remoteOf value (afterLast "@" hostPart) path

theorem project_path_of_long (path : Str) (long : 4 < (stripSlashes path).length) :
    projectPath path ≠ [] := by
  intro empty
  have short : (projectPath path).length = 0 := by rw [empty, List.length_nil]
  unfold projectPath at short
  simp only at short
  split_ifs at short
  · rw [List.length_take] at short
    omega
  · omega

theorem remote_of_long [Unicode] (value host path : Str) (named : host ≠ [])
    (long : 4 < (stripSlashes path).length) :
    remoteOf value host path = .ok ⟨host, projectPath path⟩ := by
  have found := project_path_of_long path long
  rw [remoteOf, if_neg (by simp [named, found])]

/-!
## Answers of an API
-/

/-- What `json.loads` returns. Numbers are kept as their text. -/
inductive Json
  | null
  | bool (value : Bool)
  | number (text : Str)
  | string (value : Str)
  | array (items : List Json)
  | object (fields : List (Str × Json))

def Json.truthy : Json → Bool
  | .null => false
  | .bool value => value
  | .number text => (text.takeWhile fun c => c ≠ 'e' && c ≠ 'E').any fun c => '1' ≤ c && c ≤ '9'
  | .string value => !value.isEmpty
  | .array items => !items.isEmpty
  | .object fields => !fields.isEmpty

structure PullRequest where
  url : Str
  number : Option Json := none
  isDraft : Bool := true

structure HttpResponse where
  status : Int
  body : Str

def snippet (text : Str) : Str := (join " " (words text)).take 300

/-- `data[key]`. -/
def field (data : List (Str × Json)) (key : Str) : Except Exn Json :=
  match data.lookup key with
  | some value => .ok value
  | none => .error (.keyError key)

/-- `_post` once the request is answered; `loads` is `json.loads`, `none` where
it raises `JSONDecodeError`. -/
def readAnswer (loads : Str → Option Json) (provider : Str)
    (parse : List (Str × Json) → Except Exn PullRequest) (response : HttpResponse) :
    Except Exn PullRequest :=
  if response.status ≠ 200 ∧ response.status ≠ 201 then
    .error (.gitError (provider ++ " API returned ".toList ++ (toString response.status).toList ++
      ": ".toList ++ snippet response.body))
  else
    match loads (if response.body.isEmpty then "{}" else response.body) with
    | none => .error (.gitError (provider ++ " API returned invalid JSON".toList))
    | some (.object data) => parse data
    | some _ => .error (.gitError (provider ++ " API returned an unexpected response".toList))

section Parsers

-- `str(value)`
variable (text : Json → Str)

/-- The `parse` of the GitHub, GitLab and Gitea forges: the field of the URL is
read without a check that it is there. -/
def parseUrlField (urlField numberField : Str) (data : List (Str × Json)) :
    Except Exn PullRequest := do
  let url ← field data urlField
  return { url := text url, number := data.lookup numberField }

def parseGithub : List (Str × Json) → Except Exn PullRequest :=
  parseUrlField text "html_url" "number"

def parseGitlab : List (Str × Json) → Except Exn PullRequest := parseUrlField text "web_url" "iid"

def parseGitea : List (Str × Json) → Except Exn PullRequest :=
  parseUrlField text "html_url" "number"

/-- `value.get(key)` of a value that is an object, else nothing. -/
def Json.member (key : Str) : Option Json → Option Json
  | some (.object fields) => fields.lookup key
  | _ => none

/-- The `parse` of the Bitbucket forge, which checks every step to the URL. -/
def parseBitbucket (data : List (Str × Json)) : Except Exn PullRequest :=
  match Json.member "href" (Json.member "html" (data.lookup "links".toList)) with
  | none => .error (.gitError "bitbucket API returned no PR URL")
  | some url =>
      if url.truthy then .ok { url := text url, number := data.lookup "id".toList }
      else .error (.gitError "bitbucket API returned no PR URL")

/-- The three forges that index the answer raise `KeyError`, which is no
`GitError`, exactly when the field is missing. -/
theorem parse_url_field_raises_iff (urlField numberField : Str) (data : List (Str × Json)) :
    (∃ error, parseUrlField text urlField numberField data = .error error ∧ error.isGitError = false) ↔
      data.lookup urlField = none := by
  unfold parseUrlField field
  cases found : data.lookup urlField with
  | none => exact ⟨fun _ => rfl, fun _ => ⟨_, rfl, rfl⟩⟩
  | some value => simp [bind, Except.bind, pure, Except.pure]

theorem parse_bitbucket_git_error (data : List (Str × Json)) (error : Exn)
    (raised : parseBitbucket text data = .error error) : error.isGitError = true := by
  unfold parseBitbucket at raised
  split at raised
  · cases raised
    rfl
  · split_ifs at raised
    cases raised
    rfl

end Parsers

end DearAgent
