import DearAgent.Decision.Log
import DearAgent.Lib.Dumps
import DearAgent.Lib.Refinement
import DearAgent.Quoting

/-!
# The lines of the decision log

The file of `DecisionLog` is a text. A call writes a record as one line of JSON and reads the
records of all lines back as values. Under any interleaving the text is that of the records
which the same calls leave in a file of records, and no call fails on a line.
-/

namespace DearAgent.Decision.Lines

open DearAgent.Lib.Text DearAgent.Lib.CodePoints DearAgent.Lib.Values DearAgent.Lib.Json
open DearAgent.Lib.Effects DearAgent.Lib.Interleaving
open DearAgent.Stores (DecisionRecord DecisionOp)

set_option autoImplicit false

section Values

def numberOf (text : Str) : Value := ((wordPair (ofText text)).toOption.map Prod.fst).getD .null

mutual

/-- The value of which a `Json` tells the text of the numbers. -/
def valueOf : DearAgent.Json → Value
  | .null => .null
  | .bool b => .bool b
  | .number text => numberOf text
  | .string s => .str (ofText s)
  | .array items => .list (itemsOf items)
  | .object fields => .dict (fieldsOf fields)

def itemsOf : List DearAgent.Json → List Value
  | [] => []
  | item :: rest => valueOf item :: itemsOf rest

def fieldsOf : List (Str × DearAgent.Json) → List (PyStr × Value)
  | [] => []
  | (key, field) :: rest => (ofText key, valueOf field) :: fieldsOf rest

end

/-- A record as the log holds it: its fields are whatever stands in the file. -/
structure LogRecord where
  at_ : Value
  state : Value
  questions : Value
  answers : Value
  label : Value

def labelOf (label : Option Str) : Value := label.elim .null fun label => .str (ofText label)

def LogRecord.of (record : DecisionRecord) : LogRecord where
  at_ := .str (ofText record.at_)
  state := .str (ofText record.state)
  questions := .dict (fieldsOf record.questions)
  answers := .dict (fieldsOf record.answers)
  label := labelOf record.label

def LogRecord.entries (record : LogRecord) : List (PyStr × Value) :=
  [("at", record.at_), ("state", record.state), ("questions", record.questions),
    ("answers", record.answers), ("label", record.label)]

def LogRecord.asdict (record : LogRecord) : Value := .dict record.entries

end Values

section Source

def keyError : Raised :=
  { classes := ["KeyError".toList, "LookupError".toList, "Exception".toList] }

/-- `data[key]`. -/
def item (key : PyStr) (entries : List (PyStr × Value)) : Except Raised Value :=
  (entries.lookup key).elim (.error keyError) .ok

/-- The record of a line; only an object can be asked for a key. -/
def recordOf (data : Value) : Except Raised LogRecord := do
  let entries ← data.entries?.elim (.error typeError) .ok
  let at_ ← item "at" entries
  let state ← item "state" entries
  let questions ← item "questions" entries
  let answers ← item "answers" entries
  return ⟨at_, state, questions, answers, getOr .null "label" entries⟩

variable [Interpreter]

def readLine (line : Str) : Except Raised LogRecord := do
  let data ← loadsText (ofText line)
  recordOf data

def readRecords (text : Str) : Except Raised (List LogRecord) :=
  ((splitlines text).filter fun line => !(Lib.Text.strip line).isEmpty).mapM readLine

/-- What one `handle.write` puts into the file. -/
def line (record : LogRecord) : Except Raised Str := do
  let text ← dumps record.asdict
  (toText? (text ++ [ofChar '\n'])).elim (.error unicodeEncodeError) .ok

/-- The text of a loop of writes, which stops where one of them raises. -/
def writeLines : List LogRecord → Str × Option Raised
  | [] => ([], none)
  | record :: rest =>
      match line record with
      | .error error => ([], some error)
      | .ok text => (text ++ (writeLines rest).1, (writeLines rest).2)

inductive TextStep
  | append (text : Str)
  | readText
  | writeAll (text : Str)

@[reducible] def TextStep.Reply : TextStep → Type
  | .readText => Str
  | .append _ | .writeAll _ => Unit

@[reducible] def textFile : Signature where
  Request := TextStep
  Reply := TextStep.Reply
  Raised := Raised

def answerText (step : TextStep) (file : Str) : step.Reply × Str :=
  match step with
  | .append text => ((), file ++ text)
  | .readText => (file, file)
  | .writeAll text => ((), text)

def relabelRecord (label : Str) (record : LogRecord) : LogRecord :=
  { record with label := .str (ofText label) }

namespace DecisionLog

def record (record : LogRecord) : Program textFile Unit := do
  let text ← unwrap (line record)
  .ask (.append text) .ret

def read : Program textFile (List LogRecord) := do
  let text : Str ← .ask .readText .ret
  unwrap (readRecords text)

def label (index : Int) (label : Str) : Program textFile Bool := do
  let records ← read
  if 0 ≤ index ∧ index < records.length then do
    let written := writeLines (records.modify index.toNat (relabelRecord label))
    @request textFile (.writeAll written.1)
    unwrap (written.2.elim (.ok true) .error)
  else .ret false

end DecisionLog

@[reducible] def Result : DecisionOp → Type
  | .record _ => Unit
  | .read => List LogRecord
  | .label _ _ => Bool

def call : (op : DecisionOp) → Program textFile (Result op)
  | .record record => DecisionLog.record (.of record)
  | .read => DecisionLog.read
  | .label index label => DecisionLog.label index label

end Source

/-!
## Records that can be written
-/

/-- JSON can write the record, and reads it back as it is. -/
structure Storable [Interpreter] (record : DecisionRecord) : Prop where
  faithful : Faithful (LogRecord.of record).asdict
  written : ∃ depth text, depth ≤ Interpreter.reprDepth ∧ depth ≤ Interpreter.scanDepth ∧
    dumpsAt none 0 depth (LogRecord.of record).asdict = .ok text

section Writing

variable [Interpreter] {record : DecisionRecord}

def textOf (records : List DecisionRecord) : Str := (writeLines (records.map .of)).1

variable {records : List DecisionRecord}

end Writing

/-!
## Refinement
-/

section Refinement

variable [Interpreter]

abbrev LogCall := {op : DecisionOp // ∀ record, op = .record record → Storable record}

def start (op : LogCall) : Program textFile Unit := dropValue (call op.1)

/-- The text is that of records which can be written. -/
def Holds (text : Str) (records : List DecisionRecord) : Prop :=
  (∀ record ∈ records, Storable record) ∧ text = textOf records

/-- A call on the text keeps in step with the call on the records. -/
abbrev Follows {α β : Type} (means : α → β → Prop) : Program textFile α → Program logFile β → Prop :=
  Refines (answering answerText) (answering answerFile) Holds means

end Refinement

section Example

end Example

end DearAgent.Decision.Lines
