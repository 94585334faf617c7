import DearAgent.Lib.Replays
import DearAgent.Stores
import Mathlib.Data.List.Induction

/-!
# The decision log as a file

`DecisionLog` appends one line to record a decision. To label one it reads the whole
file and writes the whole file again, and in between other processes take their turns.
-/

namespace DearAgent.Decision

open DearAgent.Lib.Text DearAgent.Lib.Effects DearAgent.Lib.Interleaving
open DearAgent.Stores (DecisionRecord DecisionOp)

set_option autoImplicit false

/-- The steps on the file. A line is told by the record it is the JSON of, and a file
that does not exist reads like an empty one. -/
inductive FileStep
  | append (record : DecisionRecord)
  | readText
  | writeAll (records : List DecisionRecord)

@[reducible] def FileStep.Reply : FileStep → Type
  | .readText => List DecisionRecord
  | .append _ | .writeAll _ => Unit

@[reducible] def logFile : Signature where
  Request := FileStep
  Reply := FileStep.Reply
  Raised := Exn

def answerFile (step : FileStep) (records : List DecisionRecord) :
    step.Reply × List DecisionRecord :=
  match step with
  | .append record => ((), records ++ [record])
  | .readText => (records, records)
  | .writeAll rewritten => ((), rewritten)

def setLabel (label : Str) (record : DecisionRecord) : DecisionRecord :=
  { record with label := some label }

/-- `records[index].label = label`. -/
def relabel (records : List DecisionRecord) (index : Int) (label : Str) : List DecisionRecord :=
  records.modify index.toNat (setLabel label)

namespace DecisionLog

def record (record : DecisionRecord) : Program logFile Unit := .ask (.append record) .ret

def read : Program logFile (List DecisionRecord) := .ask .readText .ret

def label (index : Int) (label : Str) : Program logFile Bool := do
  let records ← read
  if 0 ≤ index ∧ index < records.length then do
    @request logFile (.writeAll (relabel records index label))
    .ret true
  else .ret false

end DecisionLog

def call : (op : DecisionOp) → Program logFile op.Result
  | .record record => DecisionLog.record record
  | .read => DecisionLog.read
  | .label index label => DecisionLog.label index label

def start (op : DecisionOp) : Program logFile Unit := dropValue (call op)

abbrev Turns := History logFile DecisionOp

abbrev LogTurn := Entry logFile DecisionOp

abbrev Concurrent (file : List DecisionRecord)
    (c : Config logFile DecisionOp (List DecisionRecord)) : Prop :=
  Reachable (answering answerFile) start file c

def recordsAfter (file : List DecisionRecord) (turns : Turns) : List DecisionRecord :=
  replay answerFile file turns

def Answered (turns : Turns) (pid : Nat) (op : DecisionOp) (value : op.Result) : Prop :=
  (∃ turn ∈ turns, turn.pid = pid ∧ turn.operation = op) ∧ CameTo (call op) (own turns pid) value

/-!
## What a call asks
-/

/-- What a process may ask, in terms of its call and its own exchanges so far. -/
def may (op : DecisionOp) (past : List (Exchange logFile)) (request : FileStep) : Prop :=
  match op with
  | .record record => past = [] ∧ request = .append record
  | .read => past = [] ∧ request = .readText
  | .label index label => (past = [] ∧ request = .readText) ∨
      ∃ records, past = [⟨.readText, records⟩] ∧ (0 ≤ index ∧ index < records.length) ∧
        request = .writeAll (relabel records index label)

theorem calls_may (op : DecisionOp) :
    Meets (heard fun _ => True) (may op) (start op) [] fun _ _ => True := by
  cases op with
  | record record => exact ⟨⟨rfl, rfl⟩, fun _ _ _ => trivial⟩
  | read => exact ⟨⟨rfl, rfl⟩, fun _ _ _ => trivial⟩
  | label index label =>
      refine ⟨.inl ⟨rfl, rfl⟩, fun records after answered => ?_⟩
      obtain ⟨_, rfl⟩ := answered
      change Meets _ _ (Lib.Effects.bind (if 0 ≤ index ∧ index < records.length then _ else _) _) _ _
      by_cases inRange : 0 ≤ index ∧ index < records.length
      · rw [if_pos inRange]
        exact ⟨.inr ⟨records, rfl, inRange, rfl⟩, fun _ _ _ => trivial⟩
      · rw [if_neg inRange]
        exact trivial

def discipline : Discipline (answering answerFile) start where
  honest _ := True
  may := may
  truthful _ _ _ _ _ := trivial
  programs := calls_may

section Turns

variable {file : List DecisionRecord} {c : Config logFile DecisionOp (List DecisionRecord)}
  {before after : Turns} {turn : LogTurn}

theorem turn_allowed (reachable : Concurrent file c) (split : c.history = before ++ turn :: after) :
    may turn.operation (own before turn.pid) turn.event.1 ∧
      (answerFile turn.event.1 (recordsAfter file before)).1 = turn.event.2 := by
  obtain ⟨earlier, next, later, reached, rfl, scheduled, _, _⟩ := reachable_before reachable split
  exact ⟨discipline.permits reached scheduled,
    (reachable_replayed reachable).2 _ turn after split⟩

def Writes (turn : LogTurn) (index : Int) : Prop :=
  ∃ label records, turn.operation = .label index label ∧ turn.event = ⟨.writeAll records, ()⟩

theorem second_turn {front middle back : Turns} {read write : LogTurn} {index : Int} {label : Str}
    (reachable : Concurrent file c)
    (split : c.history = front ++ read :: (middle ++ write :: back)) (same : read.pid = write.pid)
    (labels : write.operation = .label index label) :
    (0 ≤ index ∧ index < (recordsAfter file front).length) ∧
      write.event = ⟨.writeAll (relabel (recordsAfter file front) index label), ()⟩ := by
  have split' : c.history = (front ++ read :: middle) ++ write :: back := by
    rw [split, List.append_assoc, List.cons_append]
  have member : read.event ∈ own (front ++ read :: middle) write.pid := by
    rw [← same]
    exact mem_own_of_mem (List.mem_append_right _ (List.mem_cons_self ..))
  have asked := (turn_allowed reachable split').1
  have replied := (turn_allowed reachable split).2
  obtain ⟨pid, operation, request, reply⟩ := write
  change operation = _ at labels
  subst labels
  rcases asked with ⟨none, _⟩ | ⟨records, past, inRange, same'⟩
  · change own _ pid = [] at none
    rw [none] at member
    cases member
  · change own _ pid = _ at past
    rw [past] at member
    have heardRead : read.event = ⟨.readText, records⟩ := List.mem_singleton.mp member
    have known : recordsAfter file front = records := by
      rw [heardRead] at replied
      exact replied
    change request = _ at same'
    subst same'
    rw [known]
    exact ⟨inRange, rfl⟩

theorem rewrite_follows {index : Int} (reachable : Concurrent file c)
    (split : c.history = before ++ turn :: after) (writes : Writes turn index) :
    ∃ front read middle, before = front ++ read :: middle ∧ read.pid = turn.pid := by
  obtain ⟨label, records, labels, writes⟩ := writes
  have asked := (turn_allowed reachable split).1
  rw [labels, writes] at asked
  rcases asked with ⟨_, other⟩ | ⟨found, past, _, _⟩
  · cases other
  · have member : (⟨.readText, found⟩ : Exchange logFile) ∈ own before turn.pid := by
      rw [past]
      exact List.mem_singleton_self _
    obtain ⟨front, read, middle, shape, same, _⟩ := own_turn member
    exact ⟨front, read, middle, shape, same⟩

theorem after_turn (before : Turns) (turn : LogTurn) :
    recordsAfter file (before ++ [turn]) = (answerFile turn.event.1 (recordsAfter file before)).2 :=
  replay_append file before [turn]

end Turns

/-!
## Labels and decisions
-/

def unlabelled (record : DecisionRecord) : DecisionRecord := { record with label := none }

def decisions (records : List DecisionRecord) : List DecisionRecord := records.map unlabelled

/-- The same records but for the label at an index. -/
def AgreeBut (index : Int) (records records' : List DecisionRecord) : Prop :=
  records.modify index.toNat unlabelled = records'.modify index.toNat unlabelled

theorem relabel_agree {index : Int} {records records' : List DecisionRecord}
    (agree : AgreeBut index records records') (label : Str) :
    relabel records index label = relabel records' index label := by
  have through : ∀ items : List DecisionRecord,
      (items.modify index.toNat unlabelled).modify index.toNat (setLabel label) =
        items.modify index.toNat (setLabel label) := by
    intro items
    rw [List.modify_modify_eq]
    rfl
  unfold relabel
  rw [← through records, agree, through records']

theorem decisions_modify {f : DecisionRecord → DecisionRecord}
    (kept : ∀ record, unlabelled (f record) = unlabelled record) (records : List DecisionRecord)
    (index : Nat) : decisions (records.modify index f) = decisions records := by
  unfold decisions
  apply List.ext_getElem?
  intro position
  simp only [List.getElem?_map, List.getElem?_modify]
  cases records[position]? with
  | none => rfl
  | some record =>
      by_cases here : index = position
      · simp [here, kept]
      · simp [here]

theorem decisions_relabel (records : List DecisionRecord) (index : Int) (label : Str) :
    decisions (relabel records index label) = decisions records :=
  decisions_modify (f := setLabel label) (fun _ => rfl) records index.toNat

theorem decisions_agree {index : Int} {records records' : List DecisionRecord}
    (agree : AgreeBut index records records') : decisions records = decisions records' := by
  rw [← decisions_modify (f := unlabelled) (fun _ => rfl) records index.toNat, agree]
  exact decisions_modify (f := unlabelled) (fun _ => rfl) records' index.toNat

theorem same_length {records records' : List DecisionRecord}
    (same : decisions records = decisions records') : records.length = records'.length := by
  have lengths := congrArg List.length same
  unfold decisions at lengths
  rwa [List.length_map, List.length_map] at lengths

theorem same_decision {records records' : List DecisionRecord} {record record' : DecisionRecord}
    {index : Nat} (grown : decisions records <+: decisions records')
    (early : records[index]? = some record) (late : records'[index]? = some record') :
    unlabelled record' = unlabelled record := by
  obtain ⟨more, shape⟩ := grown
  have bound : index < (decisions records).length := by
    unfold decisions
    rw [List.length_map]
    exact (List.getElem?_eq_some_iff.mp early).1
  have located := congrArg (fun items => items[index]?) shape
  change (decisions records ++ more)[index]? = (decisions records')[index]? at located
  rw [List.getElem?_append_left bound] at located
  unfold decisions at located
  rw [List.getElem?_map, List.getElem?_map, early, late] at located
  exact (Option.some.inj located).symm

theorem same_record {record record' : DecisionRecord}
    (same : unlabelled record = unlabelled record') (label : record.label = record'.label) :
    record = record' := by
  cases record
  cases record'
  simp only [unlabelled, DecisionRecord.mk.injEq] at same label ⊢
  exact ⟨same.1, same.2.1, same.2.2.1, same.2.2.2.1, label⟩

/-!
## What is kept
-/

/-- Between the read and the rewrite of a label call no record came, and the label of no
other record changed. -/
def Undisturbed (file : List DecisionRecord) (turns : Turns) : Prop :=
  ∀ front read middle write back index label,
    turns = front ++ read :: (middle ++ write :: back) → read.pid = write.pid →
    write.operation = .label index label →
    AgreeBut index (recordsAfter file front) (recordsAfter file (front ++ read :: middle))

/-- The record a call labelled still stands where the call read it, with its label or
that of a later call. -/
def Reflected (file : List DecisionRecord) (turns : Turns) (pid : Nat) (index : Int)
    (label : Str) : Prop :=
  ∃ front read middle write back record found,
    turns = front ++ read :: (middle ++ write :: back) ∧ read.pid = pid ∧ write.pid = pid ∧
    (recordsAfter file front)[index.toNat]? = some record ∧
    (recordsAfter file turns)[index.toNat]? = some found ∧ unlabelled found = unlabelled record ∧
    (found.label = some label ∨ ∃ later ∈ back, Writes later index)

structure AppendOnly (file : List DecisionRecord) (turns : Turns) : Prop where
  grown : ∀ early late, turns = early ++ late →
    decisions (recordsAfter file early) <+: decisions (recordsAfter file turns)
  recorded : ∀ pid record, Answered turns pid (.record record) () →
    unlabelled record ∈ decisions (recordsAfter file turns)
  labels : ∀ pid index label, Answered turns pid (.label index label) true →
    Reflected file turns pid index label

/-- What a turn makes of the records if nothing disturbed it. -/
inductive Moves (turn : LogTurn) (records : List DecisionRecord) : List DecisionRecord → Prop
  | reads (silent : ∀ index, ¬Writes turn index) : Moves turn records records
  | appends (record : DecisionRecord) (silent : ∀ index, ¬Writes turn index) :
      Moves turn records (records ++ [record])
  | labels (index : Int) (label : Str) (bound : 0 ≤ index ∧ index < records.length)
      (operation : turn.operation = .label index label) (writes : Writes turn index) :
      Moves turn records (relabel records index label)

theorem writes_operation {turn : LogTurn} {index index' : Int} {label : Str}
    (writes : Writes turn index) (operation : turn.operation = .label index' label) :
    index' = index := by
  obtain ⟨other, records, labels, _⟩ := writes
  rw [labels] at operation
  cases operation
  rfl

theorem moves_grow {turn : LogTurn} {records records' : List DecisionRecord}
    (moves : Moves turn records records') : decisions records <+: decisions records' := by
  cases moves with
  | reads silent => exact List.prefix_rfl
  | appends record silent =>
      unfold decisions
      rw [List.map_append]
      exact List.prefix_append _ _
  | labels index label bound operation writes =>
      exact ⟨[], by rw [List.append_nil, decisions_relabel]⟩

theorem moves_keep {turn : LogTurn} {records records' : List DecisionRecord} {index : Int}
    (moves : Moves turn records records') (inRange : 0 ≤ index ∧ index < records.length)
    (other : ¬Writes turn index) : records'[index.toNat]? = records[index.toNat]? := by
  cases moves with
  | reads silent => rfl
  | appends record silent =>
      apply List.getElem?_append_left
      omega
  | labels index' label bound operation writes =>
      apply List.getElem?_modify_ne
      intro same
      have equal : index' = index := by omega
      exact other (equal ▸ writes)

theorem moves_write {turn : LogTurn} {records records' : List DecisionRecord} {index : Int}
    (moves : Moves turn records records') (writes : Writes turn index) :
    ∃ label record, turn.operation = .label index label ∧
      records'[index.toNat]? = some (setLabel label record) := by
  cases moves with
  | reads silent => exact absurd writes (silent index)
  | appends record silent => exact absurd writes (silent index)
  | labels index' label bound operation again =>
      obtain rfl := writes_operation writes operation
      have present : index'.toNat < records.length := by omega
      refine ⟨label, records[index'.toNat], operation, ?_⟩
      unfold relabel
      rw [List.getElem?_modify_eq, List.getElem?_eq_getElem present]
      rfl

theorem undisturbed_before {file : List DecisionRecord} {early late : Turns}
    (undisturbed : Undisturbed file (early ++ late)) : Undisturbed file early := by
  intro front read middle write back index label split same labels
  apply undisturbed front read middle write (back ++ late) index label ?_ same labels
  rw [split, List.append_assoc, List.cons_append, List.append_assoc, List.cons_append]

section Undisturbed

variable {file : List DecisionRecord} {c : Config logFile DecisionOp (List DecisionRecord)}

theorem turn_moves {before after : Turns} {turn : LogTurn} (reachable : Concurrent file c)
    (split : c.history = before ++ turn :: after)
    (undisturbed : Undisturbed file (before ++ [turn])) :
    Moves turn (recordsAfter file before) (recordsAfter file (before ++ [turn])) := by
  have asked := (turn_allowed reachable split).1
  rw [after_turn]
  cases operation : turn.operation with
  | record record =>
      rw [operation] at asked
      rw [asked.2]
      apply Moves.appends record
      rintro index ⟨label, records, labels, _⟩
      rw [operation] at labels
      cases labels
  | read =>
      rw [operation] at asked
      rw [asked.2]
      apply Moves.reads
      rintro index ⟨label, records, labels, _⟩
      rw [operation] at labels
      cases labels
  | label index label =>
      rw [operation] at asked
      rcases asked with ⟨_, reads⟩ | ⟨records, past, _, rewrites⟩
      · rw [reads]
        apply Moves.reads
        rintro index' ⟨label', records, _, writes⟩
        rw [writes] at reads
        cases reads
      · have member : (⟨.readText, records⟩ : Exchange logFile) ∈ own before turn.pid := by
          rw [past]
          exact List.mem_singleton_self _
        obtain ⟨front, read, middle, rfl, same, _⟩ := own_turn member
        rw [List.append_assoc, List.cons_append] at split undisturbed
        obtain ⟨bound, event⟩ := second_turn reachable split same operation
        have agree := undisturbed front read middle turn [] index label rfl same operation
        have lengths := same_length (decisions_agree agree)
        rw [event]
        change Moves turn _ (relabel (recordsAfter file front) index label)
        rw [relabel_agree agree label]
        apply Moves.labels index label ?_ operation ⟨label, _, operation, event⟩
        rw [← lengths]
        exact bound

theorem split_last {whole early late rest : Turns} {turn : LogTurn}
    (split : whole = early ++ ((late ++ [turn]) ++ rest)) :
    whole = (early ++ late) ++ turn :: rest ∧ whole = early ++ (late ++ turn :: rest) := by
  rw [split]
  simp

theorem records_grow {early late rest : Turns} (reachable : Concurrent file c)
    (split : c.history = early ++ (late ++ rest)) (undisturbed : Undisturbed file (early ++ late)) :
    decisions (recordsAfter file early) <+: decisions (recordsAfter file (early ++ late)) := by
  induction late using List.reverseRecOn generalizing rest with
  | nil =>
      exact ⟨[], by rw [List.append_nil, List.append_nil]⟩
  | append_singleton late turn ih =>
      rw [← List.append_assoc] at undisturbed ⊢
      obtain ⟨split', split''⟩ := split_last split
      have moves := turn_moves reachable split' undisturbed
      exact (ih split'' (undisturbed_before undisturbed)).trans (moves_grow moves)

/-- Over some turns a record keeps its label, or has that of the last call that wrote it. -/
theorem last_write {early late rest : Turns} {index : Int} (reachable : Concurrent file c)
    (split : c.history = early ++ (late ++ rest)) (undisturbed : Undisturbed file (early ++ late))
    (inRange : 0 ≤ index ∧ index < (recordsAfter file early).length) :
    (recordsAfter file (early ++ late))[index.toNat]? = (recordsAfter file early)[index.toNat]? ∨
      ∃ front write back label record, late = front ++ write :: back ∧ Writes write index ∧
        write.operation = .label index label ∧
        (recordsAfter file (early ++ late))[index.toNat]? = some (setLabel label record) ∧
        ∀ later ∈ back, ¬Writes later index := by
  induction late using List.reverseRecOn generalizing rest with
  | nil =>
      rw [List.append_nil]
      exact .inl rfl
  | append_singleton late turn ih =>
      rw [← List.append_assoc] at undisturbed ⊢
      obtain ⟨split', split''⟩ := split_last split
      have before := undisturbed_before undisturbed
      have moves := turn_moves reachable split' undisturbed
      by_cases writes : Writes turn index
      · obtain ⟨label, record, operation, written⟩ := moves_write moves writes
        exact .inr ⟨late, turn, [], label, record, rfl, writes, operation, written,
          fun later member => absurd member List.not_mem_nil⟩
      · have lengths := (records_grow reachable split'' before).length_le
        unfold decisions at lengths
        rw [List.length_map, List.length_map] at lengths
        have inRange' : 0 ≤ index ∧ index < (recordsAfter file (early ++ late)).length := by omega
        rw [moves_keep moves inRange' writes]
        rcases ih split'' before with same | ⟨front, write, back, label, record, rfl, rest⟩
        · exact .inl same
        · obtain ⟨wrote, operation, written, silent⟩ := rest
          refine .inr ⟨front, write, back ++ [turn], label, record, ?_, wrote, operation, written, ?_⟩
          · rw [List.append_assoc, List.cons_append]
          · intro later member
            rcases List.mem_append.mp member with old | new
            · exact silent later old
            · rw [List.mem_singleton.mp new]
              exact writes

end Undisturbed

/-!
## The calls that ended
-/

section Calls

variable {file : List DecisionRecord} {c : Config logFile DecisionOp (List DecisionRecord)}

theorem one_call {turn other : LogTurn} (reachable : Concurrent file c)
    (member : turn ∈ c.history) (also : other ∈ c.history) (same : turn.pid = other.pid) :
    turn.operation = other.operation := by
  obtain ⟨program, found⟩ := turn_has_process reachable turn member
  obtain ⟨program', found'⟩ := turn_has_process reachable other also
  rw [same, found'] at found
  exact (congrArg Process.operation (Option.some.inj found)).symm

theorem own_split (before after : Turns) (turn : LogTurn) :
    own (before ++ turn :: after) turn.pid = own before turn.pid ++ turn.event :: own after turn.pid := by
  unfold own
  rw [List.filter_append, List.map_append, List.filter_cons_of_pos (by simp), List.map_cons]

theorem own_before_rewrite {before after : Turns} {turn : LogTurn} {index : Int}
    (reachable : Concurrent file c) (split : c.history = before ++ turn :: after)
    (writes : Writes turn index) :
    ∃ label records, turn.operation = .label index label ∧
      own before turn.pid = [⟨.readText, records⟩] ∧ (0 ≤ index ∧ index < records.length) ∧
      turn.event = ⟨.writeAll (relabel records index label), ()⟩ := by
  obtain ⟨label, rewritten, labels, wrote⟩ := writes
  have asked := (turn_allowed reachable split).1
  rw [labels, wrote] at asked
  rcases asked with ⟨_, other⟩ | ⟨records, past, inRange, same⟩
  · cases other
  · cases same
    exact ⟨label, records, labels, past, inRange, wrote⟩

theorem ended_after_rewrite {before after : Turns} {turn : LogTurn} {index : Int}
    (reachable : Concurrent file c) (split : c.history = before ++ turn :: after)
    (writes : Writes turn index) : ∀ later ∈ after, later.pid ≠ turn.pid := by
  intro later member same
  obtain ⟨front, back, rfl⟩ := List.append_of_mem member
  obtain ⟨label, records, labels, past, _, _⟩ := own_before_rewrite reachable split writes
  have split' : c.history = (before ++ turn :: front) ++ later :: back := by
    rw [split, List.append_assoc, List.cons_append]
  have operation : later.operation = .label index label := by
    rw [← labels]
    apply one_call reachable ?_ ?_ same
    · rw [split']
      exact List.mem_append_right _ (List.mem_cons_self ..)
    · rw [split]
      exact List.mem_append_right _ (List.mem_cons_self ..)
  have asked := (turn_allowed reachable split').1
  rw [operation, same, own_split, past] at asked
  rcases asked with ⟨none, _⟩ | ⟨found, one, _⟩
  · exact List.cons_ne_nil _ _ none
  · exact List.cons_ne_nil _ _ (List.cons.inj one).2

theorem one_rewrite {before before' after after' : Turns} {turn turn' : LogTurn} {index index' : Int}
    (reachable : Concurrent file c) (split : c.history = before ++ turn :: after)
    (split' : c.history = before' ++ turn' :: after') (same : turn.pid = turn'.pid)
    (writes : Writes turn index) (writes' : Writes turn' index') : after = after' := by
  rcases split_compare (split.symm.trans split') with ⟨tail, shape⟩ | ⟨between, rfl, _⟩
  · rcases split_concat shape with ⟨rfl, rfl, rfl⟩ | ⟨rest, rfl, rfl⟩
    · exact (List.cons.inj (List.append_cancel_left (split.symm.trans split'))).2
    · rw [List.append_assoc, List.cons_append] at split'
      have equal := (List.cons.inj (List.append_cancel_left (split.symm.trans split'))).2
      apply absurd same.symm
      apply ended_after_rewrite reachable split writes
      rw [equal]
      exact List.mem_append_right _ (List.mem_cons_self ..)
  · apply absurd same
    apply ended_after_rewrite reachable split' writes'
    exact List.mem_append_right _ (List.mem_cons_self ..)

theorem came_to_record {record : DecisionRecord} {trace : List (Exchange logFile)}
    (came : CameTo (DecisionLog.record record) trace ()) : trace = [⟨.append record, ()⟩] := by
  obtain ⟨_, _, rest, _, rfl, rfl, _, _⟩ := came
  rfl

theorem came_to_label {index : Int} {label : Str} {trace : List (Exchange logFile)}
    (came : CameTo (DecisionLog.label index label) trace true) :
    ∃ records, trace = [⟨.readText, records⟩, ⟨.writeAll (relabel records index label), ()⟩] := by
  obtain ⟨records, _, rest, _, rfl, ended⟩ := came
  change Exec _ (if 0 ≤ index ∧ index < records.length then _ else _) _ _ _ _ at ended
  split_ifs at ended with inRange
  · obtain ⟨_, _, last, _, rfl, rfl, _, _⟩ := ended
    exact ⟨records, rfl⟩
  · cases ended.2.1

theorem label_came {index : Int} {label : Str} {records : List DecisionRecord}
    (inRange : 0 ≤ index ∧ index < records.length) :
    CameTo (DecisionLog.label index label)
      [⟨.readText, records⟩, ⟨.writeAll (relabel records index label), ()⟩] true := by
  refine ⟨records, (), _, rfl, rfl, ?_⟩
  change Exec _ (if 0 ≤ index ∧ index < records.length then _ else _) _ _ _ _
  rw [if_pos inRange]
  exact ⟨(), (), [], rfl, rfl, rfl, rfl, rfl⟩

theorem answered_label {turns rest : Turns} {pid : Nat} {index : Int} {label : Str}
    (reachable : Concurrent file c) (split : c.history = turns ++ rest)
    (answered : Answered turns pid (.label index label) true) :
    ∃ front read middle write back, turns = front ++ read :: (middle ++ write :: back) ∧
      read.pid = pid ∧ write.pid = pid ∧ write.operation = .label index label := by
  obtain ⟨⟨turn, member, rfl, operation⟩, came⟩ := answered
  obtain ⟨records, trace⟩ := came_to_label came
  have wrote : (⟨.writeAll (relabel records index label), ()⟩ : Exchange logFile) ∈
      own turns turn.pid := by
    rw [trace]
    exact List.mem_cons_of_mem _ (List.mem_singleton_self _)
  obtain ⟨before, write, back, shape, same, event⟩ := own_turn wrote
  have split' : c.history = before ++ write :: (back ++ rest) := by
    rw [split, shape, List.append_assoc, List.cons_append]
  have labels : write.operation = .label index label := by
    rw [← operation]
    apply one_call reachable ?_ ?_ same
    · rw [split']
      exact List.mem_append_right _ (List.mem_cons_self ..)
    · rw [split]
      exact List.mem_append_left _ member
  obtain ⟨front, read, middle, rfl, before'⟩ :=
    rewrite_follows reachable split' ⟨label, _, labels, event⟩
  refine ⟨front, read, middle, write, back, ?_, before'.trans same, same, labels⟩
  rw [shape, List.append_assoc, List.cons_append]

theorem after_rewrite {front middle rest : Turns} {read write : LogTurn} {index : Int}
    {label : Str} (reachable : Concurrent file c)
    (split : c.history = front ++ read :: (middle ++ write :: rest)) (same : read.pid = write.pid)
    (labels : write.operation = .label index label) :
    recordsAfter file (front ++ read :: middle ++ [write]) =
      relabel (recordsAfter file front) index label := by
  rw [after_turn, (second_turn reachable split same labels).2]
  rfl

theorem append_only_of_undisturbed {turns rest : Turns} (reachable : Concurrent file c)
    (split : c.history = turns ++ rest) (undisturbed : Undisturbed file turns) :
    AppendOnly file turns where
  grown early late shape := by
    subst shape
    rw [List.append_assoc] at split
    exact records_grow reachable split undisturbed
  recorded pid record answered := by
    obtain ⟨_, came⟩ := answered
    have trace := came_to_record came
    have appended : (⟨.append record, ()⟩ : Exchange logFile) ∈ own turns pid := by
      rw [trace]
      exact List.mem_singleton_self _
    obtain ⟨before, turn, after, shape, _, event⟩ := own_turn appended
    rw [List.append_cons] at shape
    subst shape
    rw [List.append_assoc] at split
    apply (records_grow reachable split undisturbed).subset
    rw [after_turn, event]
    unfold decisions
    rw [show (answerFile (.append record) (recordsAfter file before)).2 = _ ++ [record] from rfl,
      List.map_append]
    exact List.mem_append_right _ (List.mem_singleton_self _)
  labels pid index label answered := by
    obtain ⟨front, read, middle, write, back, rfl, same, wrote, labels⟩ :=
      answered_label reachable split answered
    have shape : front ++ read :: (middle ++ write :: back) =
        (front ++ read :: middle ++ [write]) ++ back := by simp
    have split' : c.history = front ++ read :: (middle ++ write :: (back ++ rest)) := by
      rw [split]
      simp
    have split'' : c.history = (front ++ read :: middle ++ [write]) ++ (back ++ rest) := by
      rw [split']
      simp
    have inRange := (second_turn reachable split' (same.trans wrote.symm) labels).1
    have present : index.toNat < (recordsAfter file front).length := by omega
    have written := after_rewrite reachable split' (same.trans wrote.symm) labels
    have labelled : (recordsAfter file (front ++ read :: middle ++ [write]))[index.toNat]? =
        some (setLabel label (recordsAfter file front)[index.toNat]) := by
      rw [written]
      unfold relabel
      rw [List.getElem?_modify_eq, List.getElem?_eq_getElem present]
      rfl
    have inRange' : 0 ≤ index ∧
        index < (recordsAfter file (front ++ read :: middle ++ [write])).length := by
      rw [written]
      unfold relabel
      rw [List.length_modify]
      exact inRange
    rw [shape] at undisturbed
    rcases last_write reachable split'' undisturbed inRange' with
      kept | ⟨early, later, late, label', record, rfl, writes, operation, rewritten, _⟩
    · rw [labelled, ← shape] at kept
      exact ⟨front, read, middle, write, back, _, _, rfl, same, wrote,
        List.getElem?_eq_getElem present, kept, rfl, .inl rfl⟩
    · have grown := records_grow reachable split'' undisturbed
      have unchanged := same_decision grown labelled rewritten
      rw [← shape] at rewritten
      exact ⟨front, read, middle, write, _, _, _, rfl, same, wrote,
        List.getElem?_eq_getElem present, rewritten, unchanged,
        .inr ⟨later, List.mem_append_right _ (List.mem_cons_self ..), writes⟩⟩

theorem own_eq_nil {turns : Turns} {pid : Nat} (others : ∀ turn ∈ turns, turn.pid ≠ pid) :
    own turns pid = [] := by
  unfold own
  rw [List.map_eq_nil_iff, List.filter_eq_nil_iff]
  intro turn member
  simpa using others turn member

theorem rewrite_answered {before after rest : Turns} {turn : LogTurn} {index : Int} {label : Str}
    (reachable : Concurrent file c) (split : c.history = before ++ turn :: (after ++ rest))
    (writes : Writes turn index) (operation : turn.operation = .label index label) :
    Answered (before ++ turn :: after) turn.pid (.label index label) true := by
  obtain ⟨label', records, labels, past, inRange, event⟩ :=
    own_before_rewrite reachable split writes
  rw [operation] at labels
  cases labels
  refine ⟨⟨turn, List.mem_append_right _ (List.mem_cons_self ..), rfl, operation⟩, ?_⟩
  have nothing : own after turn.pid = [] := by
    apply own_eq_nil
    intro later member
    exact ended_after_rewrite reachable split writes later (List.mem_append_left _ member)
  rw [own_split, past, nothing, event]
  exact label_came inRange

/-- A rewrite after which the log is still append-only found the labels of the other
records as they were read. -/
theorem others_kept {front middle rest : Turns} {read write : LogTurn} {index position : Int}
    {label : Str} (reachable : Concurrent file c)
    (split : c.history = front ++ read :: (middle ++ write :: rest)) (same : read.pid = write.pid)
    (labels : write.operation = .label index label)
    (undisturbed : Undisturbed file (front ++ read :: middle))
    (after : AppendOnly file (front ++ read :: middle ++ [write]))
    (equal : decisions (recordsAfter file front) =
      decisions (recordsAfter file (front ++ read :: middle)))
    (inRange : 0 ≤ position ∧ position < (recordsAfter file front).length)
    (other : position ≠ index) :
    (recordsAfter file (front ++ read :: middle))[position.toNat]? =
      (recordsAfter file front)[position.toNat]? := by
  have bound := (second_turn reachable split same labels).1
  have split' : c.history = front ++ (read :: middle ++ write :: rest) := by
    rw [split]
    simp
  rcases last_write reachable split' undisturbed inRange with
    kept | ⟨early, earlier, late, label', record, shape, writes, operation, rewritten, silent⟩
  · exact kept
  · have turns : front ++ read :: middle ++ [write] =
        (front ++ early) ++ earlier :: (late ++ [write]) := by
      rw [shape]
      simp
    have earlierAt : c.history = (front ++ early) ++ earlier :: ((late ++ [write]) ++ rest) := by
      rw [split', shape]
      simp
    have answered := rewrite_answered reachable earlierAt writes operation
    rw [← turns] at answered
    obtain ⟨front', read', middle', write', back, _, found, shape', same', wrote', _, located, _,
      reflected⟩ := after.labels earlier.pid position label' answered
    rw [after_rewrite reachable split same labels] at located
    unfold relabel at located
    rw [List.getElem?_modify_ne _ _ (by omega)] at located
    rw [located, rewritten]
    rcases reflected with labelled | ⟨later, member, wrote⟩
    · have unchanged : unlabelled (setLabel label' record) = unlabelled found :=
        same_decision (equal ▸ List.prefix_rfl) located rewritten
      exact congrArg some (same_record unchanged labelled.symm)
    · have whole : c.history = (front ++ read :: middle ++ [write]) ++ rest := by
        rw [split]
        simp
      have readAt : c.history = front' ++ read' :: (middle' ++ write' :: (back ++ rest)) := by
        rw [whole, shape']
        simp
      have writeAt : c.history = (front' ++ read' :: middle') ++ write' :: (back ++ rest) := by
        rw [readAt]
        simp
      have operation' : write'.operation = .label position label' := by
        rw [← operation]
        apply one_call reachable ?_ ?_ wrote'
        · rw [writeAt]
          simp
        · rw [earlierAt]
          simp
      have event := (second_turn reachable readAt (same'.trans wrote'.symm) operation').2
      have rests := one_rewrite reachable writeAt earlierAt wrote' ⟨label', _, operation', event⟩ writes
      rw [List.append_cancel_right rests] at member
      rcases List.mem_append.mp member with old | new
      · exact absurd wrote (silent later old)
      · rw [List.mem_singleton.mp new] at wrote
        exact absurd (writes_operation wrote labels).symm other

theorem rewrite_agrees {front middle rest : Turns} {read write : LogTurn} {index : Int}
    {label : Str} (reachable : Concurrent file c)
    (split : c.history = front ++ read :: (middle ++ write :: rest)) (same : read.pid = write.pid)
    (labels : write.operation = .label index label)
    (undisturbed : Undisturbed file (front ++ read :: middle))
    (before : AppendOnly file (front ++ read :: middle))
    (after : AppendOnly file (front ++ read :: middle ++ [write])) :
    AgreeBut index (recordsAfter file front) (recordsAfter file (front ++ read :: middle)) := by
  have equal : decisions (recordsAfter file front) =
      decisions (recordsAfter file (front ++ read :: middle)) := by
    have grown := after.grown (front ++ read :: middle) [write] rfl
    rw [after_rewrite reachable split same labels, decisions_relabel] at grown
    exact (before.grown front (read :: middle) rfl).eq_of_length_le grown.length_le
  have lengths := same_length equal
  apply List.ext_getElem?
  intro position
  by_cases bound : position < (recordsAfter file front).length
  · have found := List.getElem?_eq_getElem bound
    have found' := List.getElem?_eq_getElem (lengths ▸ bound)
    by_cases here : index.toNat = position
    · subst here
      rw [List.getElem?_modify_eq, List.getElem?_modify_eq, found, found']
      exact congrArg some (same_decision (equal ▸ List.prefix_rfl) found' found)
    · rw [List.getElem?_modify_ne _ _ here, List.getElem?_modify_ne _ _ here]
      have inRange : 0 ≤ (position : Int) ∧ (position : Int) < (recordsAfter file front).length := by
        omega
      exact (others_kept reachable split same labels undisturbed after equal inRange
        (by omega)).symm
  · rw [List.getElem?_eq_none (by rw [List.length_modify]; omega),
      List.getElem?_eq_none (by rw [List.length_modify]; omega)]

theorem undisturbed_of_append_only {turns rest : Turns} (reachable : Concurrent file c)
    (split : c.history = turns ++ rest)
    (kept : ∀ early late, turns = early ++ late → AppendOnly file early) :
    Undisturbed file turns := by
  induction turns using List.reverseRecOn generalizing rest with
  | nil =>
      intro front read middle write back index label shape
      exact absurd shape.symm (List.append_ne_nil_of_right_ne_nil _ (List.cons_ne_nil _ _))
  | append_singleton turns turn ih =>
      have split' : c.history = turns ++ turn :: rest := by
        rw [split, List.append_assoc]
        rfl
      have earlier : Undisturbed file turns := by
        apply ih split'
        intro early late shape
        apply kept early (late ++ [turn])
        rw [shape, List.append_assoc]
      intro front read middle write back index label shape same labels
      have shape' : turns ++ [turn] = (front ++ read :: middle) ++ write :: back := by
        rw [shape, List.append_assoc, List.cons_append]
      rcases split_concat shape' with ⟨rfl, rfl, rfl⟩ | ⟨tail, rfl, rfl⟩
      · rw [List.append_assoc, List.cons_append] at split'
        apply rewrite_agrees reachable split' same labels earlier
        · exact kept _ [turn] rfl
        · exact kept _ [] (List.append_nil _).symm
      · apply earlier front read middle write tail index label ?_ same labels
        rw [List.append_assoc, List.cons_append]

/-- The log is append-only in every state of a run exactly if no label call of it was
disturbed between its read and its rewrite. -/
theorem append_only_iff (reachable : Concurrent file c) :
    (∀ turns rest, c.history = turns ++ rest → AppendOnly file turns) ↔
      Undisturbed file c.history := by
  constructor
  · exact undisturbed_of_append_only reachable (List.append_nil _).symm
  · intro undisturbed turns rest split
    rw [split] at undisturbed
    exact append_only_of_undisturbed reachable split (undisturbed_before undisturbed)

end Calls

section Example

def hostedRecord : DecisionRecord where
  at_ := "2026-01-01T00:00:00+00:00"
  state := "task"
  questions := []
  answers := []

def localRecord : DecisionRecord where
  at_ := "2026-01-01T00:01:00+00:00"
  state := "task"
  questions := []
  answers := []

def labelsFirst : DecisionOp := .label 0 "hosted"

abbrev LogConfig := Config logFile DecisionOp (List DecisionRecord)

def played (schedule : List (Turn DecisionOp)) : LogConfig :=
  play answerFile start schedule (initial [hostedRecord])

theorem played_reachable (schedule : List (Turn DecisionOp)) :
    Concurrent [hostedRecord] (played schedule) :=
  run_play (fun _ _ => rfl) schedule (initial [hostedRecord]) fun _ _ => trivial

theorem one_label_append_only :
    (∀ turns rest, (played [.launch labelsFirst, .act 0, .act 0]).history = turns ++ rest →
        AppendOnly [hostedRecord] turns) ↔
      Undisturbed [hostedRecord] (played [.launch labelsFirst, .act 0, .act 0]).history :=
  append_only_iff (played_reachable _)

/-- A record comes between the read and the rewrite of a label call. -/
def lostRun : LogConfig :=
  played [.launch labelsFirst, .launch (.record localRecord), .act 0, .act 1, .act 0]

theorem record_lost :
    Concurrent [hostedRecord] lostRun ∧
      ReturnedFrom call lostRun 1 (.record localRecord) () ∧
      ReturnedFrom call lostRun 0 labelsFirst true ∧
      lostRun.shared = [setLabel "hosted" hostedRecord] ∧
      unlabelled localRecord ∉ decisions lostRun.shared := by
  refine ⟨played_reachable _, ⟨⟨_, rfl⟩, ?_⟩, ⟨⟨_, rfl⟩, ?_⟩, rfl, ?_⟩
  · exact ⟨(), (), [], rfl, rfl, rfl, rfl, rfl⟩
  · exact @label_came 0 "hosted" [hostedRecord] (by decide)
  · intro member
    have same : unlabelled localRecord = unlabelled (setLabel "hosted" hostedRecord) :=
      List.mem_singleton.mp member
    have stamps : localRecord.at_ = hostedRecord.at_ := congrArg DecisionRecord.at_ same
    exact absurd stamps (by decide)

end Example

end DearAgent.Decision
