import DearAgent.Lib.Regex
import DearAgent.Lib.Dict
import DearAgent.Errors
import DearAgent.Transports

/-!
# Email authentication

The gate of `auth.py` that reads `Authentication-Results`: which fields are
taken to be the receiving server's own, which verdicts and domains are read out
of them, and which messages are admitted.
-/

namespace DearAgent

open DearAgent.Lib.Text DearAgent.Lib.Regex DearAgent.Lib.Dictionaries

set_option autoImplicit false

variable [Unicode]

/-- `_to_headers` and `_collect_headers`: a repeated name is joined with a newline. -/
def addHeader (name value : Str) : Headers → Headers
  | [] => [(name, value)]
  | (key, existing) :: rest =>
      if Unicode.lower key = Unicode.lower name then (key, existing ++ '\n' :: value) :: rest
      else (key, existing) :: addHeader name value rest

def collectHeaders (fields : List (Str × Str)) : Headers :=
  fields.foldl (fun headers field => addHeader field.1 field.2 headers) []

/-- `_domain`. -/
def domainOf (address : Str) : Str :=
  let afterAt := match rcut "@" address with
    | some parts => parts.2
    | none => address
  Unicode.lower (strip afterAt)

def SenderAllowlist.admit (senders : List Str) (sender : Option Str) : Except Exn Unit :=
  let candidate := Unicode.lower (strip (sender.getD []))
  if !candidate.isEmpty && senders.any (fun allowed =>
      candidate = allowed || (startswith allowed "@" && endswith candidate allowed)) then .ok ()
  else .error (.unauthorizedSender sender)

section Fields

def authenticationResults (headers : Headers) : Option Str :=
  let values := headers.filterMap fun header =>
    if Unicode.lower header.1 = "authentication-results".toList && !header.2.isEmpty then
      some header.2
    else none
  if values.isEmpty then none else some (join "\n" values)

def oneOf (chars : Str) : Pattern := .sat fun c => chars.contains c

/-- `_AUTHSERV_LINE_RE`. -/
def authservLine : Pattern :=
  .seq .textStart <|
  .seq (.star (.sat isSpace)) <|
  .seq (plus (.sat (alnumOr ['.', '_', '-']))) <|
  .seq (opt (.seq (plus (.sat isSpace)) (.seq (oneOf ['(']) (.seq (.star (.sat fun c => c ≠ ')'))
    (oneOf [')']))))) <|
  .seq (.star (.sat isSpace)) (oneOf [';'])

def opensField (line : Str) : Bool := (matchStart authservLine line).isSome

/-- One round of the loop of `_auth_results_blocks`: the finished blocks and the
lines of the current one. -/
def addLine (state : List (List Str) × List Str) (line : Str) : List (List Str) × List Str :=
  if opensField line then
    (if state.2.isEmpty then state.1 else state.1 ++ [state.2], [line])
  else if !state.2.isEmpty then (state.1, state.2 ++ [line])
  else if !(strip line).isEmpty then (state.1, [line])
  else state

/-- `_auth_results_blocks`, each block as the list of its lines. -/
def authResultsBlocks (raw : Str) : List (List Str) :=
  let state := (splitlines raw).foldl addLine ([], [])
  if state.2.isEmpty then state.1 else state.1 ++ [state.2]

/-- The text before the first `;`. -/
def beforeSemicolon (text : Str) : Str := text.takeWhile fun c => c ≠ ';'

def authservId (block : Str) : Str := (words (strip (beforeSemicolon block))).headD []

def rstripDots (s : Str) : Str := rstripWhere (fun c => c = '.') s

def authservIdMatches (servId configured : Str) : Bool :=
  let servId := rstripDots (Unicode.lower (strip servId))
  let configured := rstripDots (Unicode.lower (strip configured))
  !configured.isEmpty && (servId = configured || endswith servId ('.' :: configured))

def trustedAuthenticationResults (raw authServId : Str) : Option Str :=
  let blocks := (authResultsBlocks raw).map (join "\n")
  let kept := if authServId.isEmpty then blocks else
    blocks.filter fun block => authservIdMatches (authservId block) authServId
  if kept.isEmpty then none else some (join "\n" kept)

end Fields

section Verdicts

def mechanismPattern : Pattern :=
  let name := plus (.sat (alnumOr ['-']))
  let blanks := Pattern.star (.sat isSpace)
  .seq (.group 1 name) (.seq blanks (.seq (oneOf ['=']) (.seq blanks (.group 2 name))))

def propertyPattern : Pattern :=
  let blanks := Pattern.star (.sat isSpace)
  .seq (.group 1 (.alt (literalIgnoreCase "header.from".toList)
    (.alt (literalIgnoreCase "header.d".toList) (literalIgnoreCase "smtp.mailfrom".toList)))) <|
  .seq blanks <|
  .seq (oneOf ['=']) <|
  .seq blanks <|
  .group 2 (plus (.sat fun c => !isSpace c && c ≠ ';' && c ≠ ')'))

def clauseVerdict (clause : Str) : Option (Str × Str) :=
  (matchStart mechanismPattern (strip clause)).map fun found =>
    (Unicode.lower ((found.group 1).getD []), Unicode.lower ((found.group 2).getD []))

def clauseProperties (clause : Str) : List (Str × Str) :=
  (finditer propertyPattern (strip clause)).map fun found =>
    let key := Unicode.lower ((found.group 1).getD [])
    let value := Unicode.lower (stripWhere (fun c => c = '<' || c = '>') ((found.group 2).getD []))
    if key = "header.from".toList then ("dmarc_from".toList, domainOf value)
    else if key = "header.d".toList then ("dkim_domain".toList, lstripWhere (fun c => c = '@') value)
    else ("spf_domain".toList, domainOf value)

def authMechanisms : List Str := ["dmarc", "dkim", "spf", "arc"].map String.toList

abbrev Verdicts := Dict Str Str

def setdefault (verdicts : Verdicts) (entry : Str × Str) : Verdicts :=
  if (verdicts.get entry.1).isSome then verdicts else verdicts.set entry.1 entry.2

def clauseEntries (clause : Str) : List (Str × Str) :=
  ((clauseVerdict clause).toList.filter fun entry => authMechanisms.contains entry.1) ++
    clauseProperties clause

/-- `re.split(r"[;\n]", raw)`. -/
def clauses (raw : Str) : List Str := splitAt (fun c => c = ';' || c = '\n') raw

def parseAuthenticationResults (raw : Str) : Verdicts :=
  ((clauses raw).flatMap clauseEntries).foldl setdefault Dict.empty

end Verdicts

structure EmailAuthGate where
  required : List Str
  allowedDomains : List Str
  senders : Option (List Str) := none
  authServId : Str := "messagingengine.com"

namespace EmailAuthGate

/-- `verdicts.get("dmarc_from") or verdicts.get("dkim_domain")`, the empty text for neither. -/
def pickedDomain (verdicts : Verdicts) : Str :=
  Queue.orElse (verdicts.get "dmarc_from".toList) ((verdicts.get "dkim_domain".toList).getD [])

/-- The checks of `admit` on the verdicts. -/
def checkVerdicts (gate : EmailAuthGate) (verdicts : Verdicts) (sender : Option Str) :
    Except Exn Unit :=
  match gate.required.find? fun mechanism => verdicts.get mechanism ≠ some "pass".toList with
  | some mechanism => .error (.emailAuth (mechanism ++ " did not pass".toList))
  | none =>
      let domain := pickedDomain verdicts
      if domain.isEmpty then
        .error (.emailAuth "no authenticated domain in Authentication-Results")
      else if !gate.allowedDomains.isEmpty && !gate.allowedDomains.contains domain then
        .error (.unauthorizedSender sender)
      else if Queue.truthy sender && domainOf (sender.getD []) ≠ domain then
        .error (.emailAuth "From domain does not match the authenticated domain")
      else .ok ()

/-- `admit` from the headers on. -/
def admitHeaders (gate : EmailAuthGate) (headers : Headers) (sender : Option Str) :
    Except Exn Unit :=
  match authenticationResults headers with
  | none => .error (.emailAuth "no Authentication-Results header")
  | some raw =>
      match trustedAuthenticationResults raw gate.authServId with
      | none => .error (.emailAuth ("Authentication-Results is not from ".toList ++ gate.authServId))
      | some trusted => gate.checkVerdicts (parseAuthenticationResults trusted) sender

end EmailAuthGate

def EmailAuthGate.admit (gate : EmailAuthGate) (headers : Headers) (sender : Option Str) :
    Except Exn Unit := do
  match gate.senders with
  | some senders => SenderAllowlist.admit senders sender
  | none => pure ()
  gate.admitHeaders headers sender

end DearAgent
