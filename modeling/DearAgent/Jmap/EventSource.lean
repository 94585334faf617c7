import DearAgent.Lib.Grammar

/-!
# The event stream of a JMAP server

`parse_events` of `jmap/eventsource.py`, and the reaction of `jmap/trigger.py` to what it yields.
-/

namespace DearAgent.Jmap

open DearAgent.Lib.CodePoints DearAgent.Lib.Values DearAgent.Lib.Json

set_option autoImplicit false

def eventSourceError : Raised :=
  { classes := ["EventSourceError".toList, "RuntimeError".toList, "Exception".toList] }

/-- What a generator yields, and what it raises in the end. -/
structure Stream where
  yielded : List Value
  raised : Option Raised

section Parsing

/-- `raw.rstrip("\r\n")`. -/
def trimLine (raw : PyStr) : PyStr := raw.rdropWhile fun c => c = '\r' || c = '\n'

/-- The name and the value of a field: `line.partition(":")`, less one space before the value. -/
def fieldName (line : PyStr) : PyStr := line.takeWhile (· ≠ ofChar ':')

def fieldValue (line : PyStr) : PyStr :=
  let value := (line.dropWhile (· ≠ ofChar ':')).tail
  if value.head? = some (ofChar ' ') then value.tail else value

def joinLines (data : List PyStr) : PyStr := [ofChar '\n'].intercalate data

variable [Interpreter]

/-- `payload.setdefault("_event", event)`. -/
def setEvent (event : PyStr) : Value → Except Raised Value
  | .dict entries =>
      .ok (.dict (if (entries.lookup ("_event" : PyStr)).isSome then entries
        else entries ++ [(("_event" : PyStr), Value.str event)]))
  | _ => .error attributeError

/-- The payload of the lines of data behind which a blank line stands. -/
def dispatch (event : PyStr) (data : List PyStr) : Except Raised Value :=
  match loadsText (joinLines data) with
  | .error error =>
      if error.isA "JSONDecodeError" then .error eventSourceError else .error error
  | .ok payload => if event.isEmpty then .ok payload else setEvent event payload

/-- `parse_events` with the state of its loop. -/
def parseFrom (event : PyStr) (data : List PyStr) : List PyStr → Stream
  | [] => ⟨[], none⟩
  | raw :: lines =>
      let line := trimLine raw
      if line.isEmpty then
        if data.isEmpty then parseFrom [] [] lines
        else
          match dispatch event data with
          | .error error => ⟨[], some error⟩
          | .ok payload =>
              let rest := parseFrom [] [] lines
              ⟨payload :: rest.yielded, rest.raised⟩
      else if line.head? = some (ofChar ':') then parseFrom event data lines
      else if fieldName line = "data" then parseFrom event (data ++ [fieldValue line]) lines
      else if fieldName line = "event" then parseFrom (fieldValue line) data lines
      else parseFrom event data lines

def parseEvents (lines : List PyStr) : Stream := parseFrom [] [] lines

end Parsing

section Listening

/-- `"Email" in types`. -/
def namesEmail : Value → Except Raised Bool
  | .str s => .ok (decide (("Email" : PyStr) <:+: s))
  | .list items => .ok (items.any fun item => item.str? = some "Email")
  | .dict entries => .ok (entries.lookup ("Email" : PyStr)).isSome
  | _ => .error typeError

def touchesEmail : Value → Except Raised Bool
  | .dict event =>
      if (getOr .null "@type" event).str? ≠ some "StateChange" then .ok false
      else
        match getOr (.dict []) "changed" event with
        | .dict changed => changed.anyM fun entry => namesEmail entry.2
        | _ => .error attributeError
  | _ => .error attributeError

/-- `IngestOnChange.__call__`, which polls and ingests. -/
def ingestOnChange (ingest : Except Raised Unit) (event : Value) : Except Raised (Option Bool) := do
  let touched ← touchesEmail event
  if touched then ingest.map fun _ => none else return none

/-- `EventSourceListener.run`. -/
def listen (onEvent : Value → Except Raised (Option Bool)) (raised : Option Raised) :
    List Value → Except Raised (List Value)
  | [] =>
      match raised with
      | some error => .error error
      | none => .ok []
  | event :: rest => do
      let answer ← onEvent event
      if answer = some false then return [event]
      else (listen onEvent raised rest).map (event :: ·)

end Listening

/-!
## The event-stream format
-/

section Format

variable [Interpreter]

/-- The lines in front of each blank one. What no blank line ends is no block. -/
def blocksFrom (block : List PyStr) : List PyStr → List (List PyStr)
  | [] => []
  | raw :: lines =>
      let line := trimLine raw
      if line.isEmpty then block :: blocksFrom [] lines else blocksFrom (block ++ [line]) lines

def blocks (lines : List PyStr) : List (List PyStr) := blocksFrom [] lines

def valuesOf (name : PyStr) (block : List PyStr) : List PyStr :=
  (block.filter fun line => fieldName line = name).map fieldValue

def dataOf (block : List PyStr) : List PyStr := valuesOf "data" block

def eventOf (block : List PyStr) : PyStr := (valuesOf "event" block).getLast?.getD []

def readBlock (block : List PyStr) : Except Raised Value := loadsText (joinLines (dataOf block))

def payloadOf (block : List PyStr) (entries : List (PyStr × Value)) : Value :=
  .dict (if eventOf block = [] ∨ (entries.lookup ("_event" : PyStr)).isSome then entries
    else entries ++ [(("_event" : PyStr), Value.str (eventOf block))])

/-- What a parser of the format may do with these blocks: one payload for each block whose data is
an object, and no more. Where data is no object it may stop, as declared, or go on if it is JSON. -/
inductive Follows : List (List PyStr) → List Value → Option Raised → Prop
  | ended : Follows [] [] none
  | empty {block : List PyStr} {rest : List (List PyStr)} {payloads : List Value}
      {raised : Option Raised} (none : dataOf block = []) (more : Follows rest payloads raised) :
      Follows (block :: rest) payloads raised
  | object {block : List PyStr} {rest : List (List PyStr)} {payloads : List Value}
      {raised : Option Raised} {entries : List (PyStr × Value)} (present : dataOf block ≠ [])
      (read : readBlock block = .ok (.dict entries)) (more : Follows rest payloads raised) :
      Follows (block :: rest) (payloadOf block entries :: payloads) raised
  | refused {block : List PyStr} {rest : List (List PyStr)} (present : dataOf block ≠ [])
      (other : ∀ entries, readBlock block ≠ .ok (.dict entries)) :
      Follows (block :: rest) [] (some eventSourceError)
  | skipped {block : List PyStr} {rest : List (List PyStr)} {payloads : List Value}
      {raised : Option Raised} {value : Value} (present : dataOf block ≠ [])
      (read : readBlock block = .ok value) (other : value.entries? = none)
      (more : Follows rest payloads raised) : Follows (block :: rest) payloads raised

/-- A parser that follows the format, and payloads that its consumer takes if they are no objects. -/
structure Declared (blocks : List (List PyStr)) (stream : Stream) : Prop where
  follows : Follows blocks stream.yielded stream.raised
  consumed : ∀ payload ∈ stream.yielded, payload.entries? = none →
    ∀ error, ingestOnChange (.ok ()) payload ≠ .error error

def refuses (block : List PyStr) : Bool :=
  !(dataOf block).isEmpty &&
    match readBlock block with
    | .error error => error.isA "JSONDecodeError"
    | .ok _ => false

/-- Up to the first block whose data is no JSON all data are objects. -/
def AllObjects (blocks : List (List PyStr)) : Prop :=
  ∀ block ∈ blocks.takeWhile fun block => !refuses block,
    dataOf block ≠ [] → ∃ entries, readBlock block = .ok (.dict entries)

omit [Interpreter] in
theorem values_of_snoc (name : PyStr) (block : List PyStr) (line : PyStr) :
    valuesOf name (block ++ [line]) =
      valuesOf name block ++ if fieldName line = name then [fieldValue line] else [] := by
  unfold valuesOf
  rw [List.filter_append, List.map_append]
  split_ifs with named
  · rw [List.filter_cons_of_pos (by simp [named])]
    rfl
  · rw [List.filter_cons_of_neg (by simp [named])]
    rfl

omit [Interpreter] in
theorem data_of_snoc (block : List PyStr) (line : PyStr) : dataOf (block ++ [line]) =
    if fieldName line = "data" then dataOf block ++ [fieldValue line] else dataOf block := by
  rw [dataOf, values_of_snoc]
  split_ifs
  · rfl
  · exact List.append_nil _

omit [Interpreter] in
theorem event_of_snoc (block : List PyStr) (line : PyStr) : eventOf (block ++ [line]) =
    if fieldName line = "event" then fieldValue line else eventOf block := by
  rw [eventOf, values_of_snoc]
  split_ifs
  · rw [List.getLast?_concat]
    rfl
  · rw [List.append_nil]
    rfl

theorem parse_line (block : List PyStr) {raw : PyStr} (shown : trimLine raw ≠ [])
    (lines : List PyStr) : parseFrom (eventOf block) (dataOf block) (raw :: lines) =
      parseFrom (eventOf (block ++ [trimLine raw])) (dataOf (block ++ [trimLine raw])) lines := by
  rw [parseFrom, data_of_snoc, event_of_snoc]
  simp only [List.isEmpty_iff, if_neg shown]
  generalize trimLine raw = line
  by_cases comment : line.head? = some (ofChar ':')
  · have nameless : fieldName line = [] := by
      cases line with
      | nil => rfl
      | cons c more =>
          cases comment
          rfl
    have first : ([] : PyStr) ≠ "data" := by decide
    have second : ([] : PyStr) ≠ "event" := by decide
    rw [if_pos comment, nameless, if_neg first, if_neg second]
  · rw [if_neg comment]
    by_cases data : fieldName line = "data"
    · have apart : ("data" : PyStr) ≠ "event" := by decide
      rw [if_pos data, if_pos data, data, if_neg apart]
    · by_cases event : fieldName line = "event"
      · rw [if_neg data, if_pos event, if_neg data, if_pos event]
      · rw [if_neg data, if_neg event, if_neg data, if_neg event]

section Blank

variable {block : List PyStr} {raw : PyStr} {lines : List PyStr}

theorem parse_empty (blank : trimLine raw = []) (none : dataOf block = []) :
    parseFrom (eventOf block) (dataOf block) (raw :: lines) = parseEvents lines := by
  rw [parseFrom, none]
  simp only [blank, List.isEmpty_nil, if_true]
  rfl

theorem parse_raised (blank : trimLine raw = []) (present : dataOf block ≠ []) {error : Raised}
    (raised : dispatch (eventOf block) (dataOf block) = .error error) :
    parseFrom (eventOf block) (dataOf block) (raw :: lines) = ⟨[], some error⟩ := by
  rw [parseFrom]
  simp only [blank, List.isEmpty_nil, if_true, List.isEmpty_iff, if_neg present, raised]

theorem parse_yielded (blank : trimLine raw = []) (present : dataOf block ≠ []) {payload : Value}
    (yielded : dispatch (eventOf block) (dataOf block) = .ok payload) :
    parseFrom (eventOf block) (dataOf block) (raw :: lines) =
      ⟨payload :: (parseEvents lines).yielded, (parseEvents lines).raised⟩ := by
  rw [parseFrom]
  simp only [blank, List.isEmpty_nil, if_true, List.isEmpty_iff, if_neg present, yielded]
  rfl

theorem dispatch_error {error : Raised} (read : readBlock block = .error error) :
    dispatch (eventOf block) (dataOf block) =
      .error (if error.isA "JSONDecodeError" then eventSourceError else error) := by
  unfold readBlock at read
  unfold dispatch
  rw [read]
  simp only
  split_ifs <;> rfl

theorem dispatch_object {entries : List (PyStr × Value)}
    (read : readBlock block = .ok (.dict entries)) :
    dispatch (eventOf block) (dataOf block) = .ok (payloadOf block entries) := by
  unfold readBlock at read
  unfold dispatch payloadOf
  rw [read]
  simp only [List.isEmpty_iff, setEvent]
  by_cases none : eventOf block = []
  · rw [if_pos none, if_pos (.inl none)]
  · rw [if_neg none]
    by_cases given : (entries.lookup ("_event" : PyStr)).isSome = true
    · rw [if_pos given, if_pos (.inr given)]
    · rw [if_neg given, if_neg (not_or.mpr ⟨none, given⟩)]

theorem dispatch_other {value : Value} (read : readBlock block = .ok value)
    (other : value.entries? = none) : dispatch (eventOf block) (dataOf block) =
      if eventOf block = [] then .ok value else .error attributeError := by
  unfold readBlock at read
  unfold dispatch
  rw [read]
  simp only [List.isEmpty_iff]
  cases value with
  | dict entries => cases other
  | _ => rfl

end Blank

section Blocks

variable {block : List PyStr} {rest : List (List PyStr)} {payloads : List Value}
  {raised : Option Raised}

theorem Follows.raises {all : List (List PyStr)} (follows : Follows all payloads raised) :
    ∀ error ∈ raised, error = eventSourceError := by
  induction follows with
  | ended => simp
  | empty _ _ ih => exact ih
  | object _ _ _ ih => exact ih
  | refused _ _ =>
      intro error member
      cases member
      rfl
  | skipped _ _ _ _ ih => exact ih

theorem Follows.objects {all : List (List PyStr)} (follows : Follows all payloads raised) :
    ∀ payload ∈ payloads, ∃ entries, payload = .dict entries := by
  induction follows with
  | ended => simp
  | empty _ _ ih => exact ih
  | object _ _ _ ih => exact List.forall_mem_cons.mpr ⟨⟨_, rfl⟩, ih⟩
  | refused _ _ => simp
  | skipped _ _ _ _ ih => exact ih

omit [Interpreter] in
theorem listen_raises {onEvent : Value → Except Raised (Option Bool)} {events : List Value}
    {error : Raised} (failed : listen onEvent raised events = .error error) :
    raised = some error ∨ ∃ event ∈ events, onEvent event = .error error := by
  induction events with
  | nil =>
      cases raised with
      | none => cases failed
      | some own =>
          cases failed
          exact .inl rfl
  | cons event rest ih =>
      rw [listen] at failed
      rcases bind_raises_iff.mp failed with own | ⟨answer, _, failed⟩
      · exact .inr ⟨event, List.mem_cons_self, own⟩
      · split_ifs at failed
        · cases failed
        · cases later : listen onEvent raised rest with
          | ok delivered =>
              rw [later] at failed
              cases failed
          | error other =>
              rw [later] at failed
              cases failed
              rcases ih later with ended | ⟨event', member, own⟩
              · exact .inl ended
              · exact .inr ⟨event', List.mem_cons_of_mem event member, own⟩

/-- On a stream that follows the format the listener fails as declared, or on an object. -/
theorem Declared.listener {all : List (List PyStr)} {stream : Stream}
    (declared : Declared all stream) {ingest : Except Raised Unit} {error : Raised}
    (failed : listen (ingestOnChange ingest) stream.raised stream.yielded = .error error) :
    error = eventSourceError ∨ ∃ entries, ingestOnChange ingest (.dict entries) = .error error := by
  rcases listen_raises failed with ended | ⟨event, member, own⟩
  · exact .inl (declared.follows.raises error ended)
  · obtain ⟨entries, rfl⟩ := declared.follows.objects event member
    exact .inr ⟨entries, own⟩

omit [Interpreter] in
theorem not_consumed {value : Value} (other : value.entries? = none) :
    ingestOnChange (.ok ()) value = .error attributeError := by
  cases value with
  | dict entries => cases other
  | _ => rfl

theorem Follows.of_empty (follows : Follows (block :: rest) payloads raised)
    (none : dataOf block = []) : Follows rest payloads raised := by
  cases follows with
  | empty _ more => exact more
  | object present _ _ => exact absurd none present
  | refused present _ => exact absurd none present
  | skipped present _ _ _ => exact absurd none present

theorem Follows.of_object {all : List Value} (follows : Follows (block :: rest) all raised)
    (present : dataOf block ≠ []) {entries : List (PyStr × Value)}
    (read : readBlock block = .ok (.dict entries)) {payload : Value}
    (shape : all = payload :: payloads) : Follows rest payloads raised := by
  cases follows with
  | empty none _ => exact absurd none present
  | object _ _ more =>
      cases shape
      exact more
  | refused _ other => exact absurd read (other entries)
  | skipped _ read' other _ =>
      cases read.symm.trans read'
      cases other

theorem declared_empty_iff (none : dataOf block = []) {stream : Stream} :
    Declared (block :: rest) stream ↔ Declared rest stream := by
  constructor
  · rintro ⟨follows, consumed⟩
    exact ⟨follows.of_empty none, consumed⟩
  · rintro ⟨follows, consumed⟩
    exact ⟨.empty none follows, consumed⟩

theorem declared_object_iff (present : dataOf block ≠ []) {entries : List (PyStr × Value)}
    (read : readBlock block = .ok (.dict entries)) :
    Declared (block :: rest) ⟨payloadOf block entries :: payloads, raised⟩ ↔
      Declared rest ⟨payloads, raised⟩ := by
  constructor
  · rintro ⟨follows, consumed⟩
    exact ⟨follows.of_object present read rfl, fun payload member =>
      consumed payload (List.mem_cons_of_mem _ member)⟩
  · rintro ⟨follows, consumed⟩
    refine ⟨.object present read follows, fun payload member other => ?_⟩
    rcases List.mem_cons.mp member with rfl | member
    · cases other
    · exact consumed payload member other

/-- Data that is no object is yielded, or is met with an exception that is not declared. -/
theorem undeclared_other (present : dataOf block ≠ []) {value : Value}
    (read : readBlock block = .ok value) (other : value.entries? = none) {raw : PyStr}
    (blank : trimLine raw = []) (lines : List PyStr) :
    ¬Declared (block :: rest) (parseFrom (eventOf block) (dataOf block) (raw :: lines)) := by
  intro declared
  have dispatched := dispatch_other read other
  by_cases none : eventOf block = []
  · rw [if_pos none] at dispatched
    rw [parse_yielded blank present dispatched] at declared
    exact declared.consumed value List.mem_cons_self other attributeError (not_consumed other)
  · rw [if_neg none] at dispatched
    rw [parse_raised blank present dispatched] at declared
    exact absurd (declared.follows.raises attributeError rfl) (by decide)

theorem undeclared_error (present : dataOf block ≠ []) {error : Raised}
    (read : readBlock block = .error error) (other : error.isA "JSONDecodeError" = false)
    {raw : PyStr} (blank : trimLine raw = []) (lines : List PyStr) :
    ¬Declared (block :: rest) (parseFrom (eventOf block) (dataOf block) (raw :: lines)) := by
  intro declared
  have dispatched := dispatch_error read
  rw [other, if_neg (by simp)] at dispatched
  rw [parse_raised blank present dispatched] at declared
  have same := declared.follows.raises error rfl
  rcases loads_text_raises read with rfl | rfl | rfl
  all_goals exact absurd same (by decide)

theorem refuses_error (present : dataOf block ≠ []) {error : Raised}
    (read : readBlock block = .error error) : refuses block = error.isA "JSONDecodeError" := by
  simp [refuses, present, read]

theorem refuses_ok {value : Value} (read : readBlock block = .ok value) : refuses block = false := by
  simp [refuses, read]

theorem all_objects_cons_iff : AllObjects (block :: rest) ↔
    refuses block = true ∨
      (dataOf block ≠ [] → ∃ entries, readBlock block = .ok (.dict entries)) ∧ AllObjects rest := by
  unfold AllObjects
  by_cases refused : refuses block = true
  · rw [List.takeWhile_cons_of_neg (by simp [refused])]
    simp [refused]
  · rw [List.takeWhile_cons_of_pos (by simp [refused]), List.forall_mem_cons]
    simp [refused]

end Blocks

theorem declared_from_iff (block : List PyStr) (lines : List PyStr) :
    Declared (blocksFrom block lines) (parseFrom (eventOf block) (dataOf block) lines) ↔
      AllObjects (blocksFrom block lines) := by
  induction lines generalizing block with
  | nil =>
      apply iff_of_true
      · exact ⟨.ended, by simp [parseFrom]⟩
      · simp [AllObjects, blocksFrom]
  | cons raw lines ih =>
      rw [blocksFrom]
      simp only [List.isEmpty_iff]
      by_cases blank : trimLine raw = []
      · rw [if_pos blank, all_objects_cons_iff]
        have rest : Declared (blocksFrom [] lines) (parseEvents lines) ↔ _ := ih []
        by_cases none : dataOf block = []
        · have calm : refuses block = false := by simp [refuses, none]
          rw [parse_empty blank none, declared_empty_iff none, rest, calm]
          simp [none]
        · cases read : readBlock block with
          | error error =>
              have open_refuses := refuses_error none read
              by_cases invalid : error.isA "JSONDecodeError" = true
              · apply iff_of_true
                · have dispatched := dispatch_error read
                  rw [if_pos invalid] at dispatched
                  rw [parse_raised blank none dispatched]
                  exact ⟨.refused none (by simp [read]), by simp⟩
                · exact .inl (open_refuses.trans invalid)
              · apply iff_of_false
                · exact undeclared_error none read (by simpa using invalid) blank lines
                · rintro (refused | ⟨object, _⟩)
                  · exact invalid (open_refuses.symm.trans refused)
                  · obtain ⟨entries, own⟩ := object none
                    cases own
          | ok value =>
              have open_refuses := refuses_ok read
              cases shape : value.entries? with
              | some entries =>
                  rw [entries_eq_some_iff.mp shape] at read
                  rw [parse_yielded blank none (dispatch_object read), declared_object_iff none read]
                  simpa [open_refuses, none, entries_eq_some_iff.mp shape] using rest
              | none =>
                  apply iff_of_false
                  · exact undeclared_other none read shape blank lines
                  · rintro (refused | ⟨object, _⟩)
                    · exact absurd (open_refuses.symm.trans refused) (by simp)
                    · obtain ⟨entries, own⟩ := object none
                      cases own
                      cases shape
      · rw [if_neg blank, parse_line block blank]
        exact ih _

/-- The parser follows the event-stream format, and its payloads are taken, exactly if up to the
first block whose data is no JSON all data are objects that can be read. -/
theorem parse_events_declared_iff (lines : List PyStr) :
    Declared (blocks lines) (parseEvents lines) ↔ AllObjects (blocks lines) :=
  declared_from_iff [] lines

omit [Interpreter] in
/-- An empty list ends the listener with an exception that is not declared. -/
theorem listed_data_escapes :
    let _ : Interpreter := ⟨fun _ => none, 1000, 1000⟩
    let lines : List PyStr := ["data: []\n", "\n"]
    ¬Declared (blocks lines) (parseEvents lines) := by
  intro _ lines declared
  have read : readBlock ["data: []"] = .ok (.list []) := by
    have data : joinLines (dataOf ["data: []"]) = "[]" := by decide
    have spelled : Spells [[ofChar '['], [ofChar ']']] [] [ofChar '[', ofChar ']'] :=
      ((Spells.done []).behind_mark (by decide)).behind_mark (by decide)
    rw [readBlock, data]
    exact loads_text_ok_iff.mpr ⟨_, [], .empty_array, spelled, by simp⟩
  have line : parseEvents lines =
      parseFrom (eventOf ["data: []"]) (dataOf ["data: []"]) ["\n"] := by
    have trimmed : trimLine "data: []\n" = "data: []" := by decide
    have step := @parse_line _ [] "data: []\n" (by rw [trimmed]; decide) ["\n"]
    rw [trimmed] at step
    exact step
  have cut : blocks lines = ([["data: []"]] : List (List PyStr)) := by decide
  rw [line, cut] at declared
  exact undeclared_other (by decide) read rfl (by decide) [] declared

end Format

end DearAgent.Jmap
