import Mathlib.Data.List.Induction
import DearAgent.Auth.Admission

/-!
# Which server a line is attributed to

The values of several `Authentication-Results` fields are joined with newlines
before the gate sees them, so the gate finds the fields again by the look of
their lines. Where every line is attributed to the side, trusted or not, that
its field is on, the other fields have no influence.
-/

namespace DearAgent.EmailAuthGate

open DearAgent.Lib.Text DearAgent.Lib.Regex DearAgent.Lib.Dictionaries

set_option autoImplicit false

variable [Unicode]

def entriesOf (text : Str) : List (Str × Str) := (clauses text).flatMap clauseEntries

theorem entries_of_blank (text : Str) (blank : ∀ c ∈ text, isSpace c = true) :
    entriesOf text = [] := by
  have nothing : clauseVerdict [] = none ∧ clauseProperties [] = [] := ⟨rfl, rfl⟩
  refine List.flatMap_eq_nil_iff.mpr fun clause member => ?_
  have stripped : strip clause = [] :=
    strip_blank clause fun c inside => blank c (mem_split_at _ text clause member c inside)
  have same : clauseEntries clause = clauseEntries [] := by
    unfold clauseEntries clauseVerdict clauseProperties
    rw [stripped]
    rfl
  rw [same, clauseEntries, nothing.1, nothing.2]
  rfl

theorem entries_of_join (lines : List Str) :
    entriesOf (join "\n" lines) = lines.flatMap entriesOf := by
  induction lines with
  | nil => exact entries_of_blank [] (by simp)
  | cons line rest ih =>
      cases rest with
      | nil => simp [join]
      | cons next more =>
          have pieces : clauses (join "\n" (line :: next :: more)) =
              clauses line ++ clauses (join "\n" (next :: more)) := by
            rw [join_cons_cons]
            exact split_at_append _ '\n' rfl line _
          rw [entriesOf, pieces, List.flatMap_append, List.flatMap_cons, ← ih]
          rfl

/-!
## How the gate attributes lines
-/

theorem opens_not_blank (line : Str) (opens : opensField line = true) : strip line ≠ [] := by
  intro empty
  have blank := blank_of_strip line empty
  have matched : (run authservLine (atStart line)).head?.isSome := by
    rw [opensField, matchStart, matchAt, Option.isSome_map] at opens
    exact opens
  obtain ⟨stop, found⟩ := Option.isSome_iff_exists.mp matched
  obtain ⟨begun, starts, follows⟩ := List.mem_flatMap.mp (List.mem_of_head? found)
  obtain ⟨indented, spaces, follows⟩ := List.mem_flatMap.mp follows
  obtain ⟨named, name, _⟩ := List.mem_flatMap.mp follows
  obtain ⟨second, first, _⟩ := List.mem_flatMap.mp name
  obtain ⟨letter, shape, isName⟩ := mem_run_sat first
  have inside : letter ∈ line := by
    have reached : indented.rest <:+ line :=
      (run_suffix _ begun indented spaces).trans (run_suffix _ (atStart line) begun starts)
    exact reached.subset (by rw [shape]; simp)
  have space := blank letter inside
  rw [not_space_of_alnum_or isName] at space
  cases space

omit [Unicode] in
theorem authserv_id_of_join (line : Str) (rest : List Str) (named : strip line ≠ []) :
    authservId (join "\n" (line :: rest)) = authservId line := by
  cases rest with
  | nil => rfl
  | cons next more =>
      have shape : join "\n" (line :: next :: more) = line ++ '\n' :: join "\n" (next :: more) :=
        join_cons_cons _ _ _ _
      rw [shape]
      unfold authservId
      rw [words_head_strip, words_head_strip, words_head, words_head]
      generalize join "\n" (next :: more) = tail
      by_cases ended : ';' ∈ line
      · have cutAt : beforeSemicolon (line ++ '\n' :: tail) = beforeSemicolon line :=
          take_while_append_of_stop _ line _ ';' ended (by simp)
        rw [cutAt]
      · have whole : beforeSemicolon line = line :=
          List.takeWhile_eq_self_iff.mpr fun c inside =>
            decide_eq_true fun same => ended (same ▸ inside)
        have longer : beforeSemicolon (line ++ '\n' :: tail) =
            line ++ '\n' :: beforeSemicolon tail := by
          have kept : ∀ c ∈ line, (c ≠ ';' : Bool) = true := fun c inside =>
            decide_eq_true fun same => ended (same ▸ inside)
          rw [beforeSemicolon, List.takeWhile_append_of_pos kept]
          rfl
        rw [whole, longer]
        exact first_word_append line _ (fun blank => named (strip_blank line blank)) rfl

section Reading

variable (trusted : Str → Bool)

/-- The side a line is attributed to, after the side of the field it may continue. -/
def readSide (current : Option Bool) (line : Str) : Option Bool :=
  if opensField line then some (trusted line)
  else current.or (if (strip line).isEmpty then none else some (trusted line))

def linesRead : Option Bool → List Str → List Str
  | _, [] => []
  | current, line :: rest =>
      (if readSide trusted current line = some true then [line] else []) ++
        linesRead (readSide trusted current line) rest

/-- Every line that reports something is attributed to the side of its own field. -/
def Attributed : Option Bool → List (Str × Bool) → Prop
  | _, [] => True
  | current, (line, own) :: rest =>
      (entriesOf line = [] ∨ readSide trusted current line = some own) ∧
        Attributed (readSide trusted current line) rest

instance decidableAttributed (current : Option Bool) (tagged : List (Str × Bool)) :
    Decidable (Attributed trusted current tagged) :=
  match tagged with
  | [] => inferInstanceAs (Decidable True)
  | (line, own) :: rest =>
      have := decidableAttributed (readSide trusted current line) rest
      inferInstanceAs (Decidable ((entriesOf line = [] ∨ readSide trusted current line = some own) ∧
        Attributed trusted (readSide trusted current line) rest))

def taggedLines (fields : List Str) : List (Str × Bool) :=
  fields.flatMap fun field => (splitlines field).map fun line => (line, trusted field)

theorem lines_read_attributed (current : Option Bool) (tagged : List (Str × Bool))
    (attributed : Attributed trusted current tagged) :
    (linesRead trusted current (tagged.map Prod.fst)).flatMap entriesOf =
      (tagged.filter Prod.snd).flatMap fun entry => entriesOf entry.1 := by
  induction tagged generalizing current with
  | nil => rfl
  | cons entry rest ih =>
      obtain ⟨line, own⟩ := entry
      obtain ⟨side, later⟩ := attributed
      rw [List.map_cons, linesRead, List.flatMap_append, ih _ later]
      rcases side with nothing | same
      · cases own <;> split_ifs <;> simp [nothing]
      · rw [same]
        cases own <;> simp

theorem tagged_lines_trusted (fields : List Str) :
    ((taggedLines trusted fields).filter Prod.snd).flatMap (fun entry => entriesOf entry.1) =
      (fields.filter trusted).flatMap fun field => (splitlines field).flatMap entriesOf := by
  induction fields with
  | nil => rfl
  | cons field rest ih =>
      rw [taggedLines, List.flatMap_cons, List.filter_append, List.flatMap_append, ← taggedLines, ih]
      by_cases own : trusted field
      · rw [List.filter_cons_of_pos own, List.flatMap_cons]
        simp [own, List.filter_map, Function.comp_def, List.flatMap_map]
      · rw [List.filter_cons_of_neg own]
        simp [own, List.filter_map, Function.comp_def]

theorem lines_read_nonempty (current : Option Bool) (lines : List Str) :
    (linesRead trusted current lines).flatMap entriesOf =
      (linesRead trusted current (lines.filter fun line => !line.isEmpty)).flatMap entriesOf := by
  induction lines generalizing current with
  | nil => rfl
  | cons line rest ih =>
      cases line with
      | nil =>
          have nothing : entriesOf [] = [] := entries_of_blank [] (by simp)
          have same : readSide trusted current [] = current := by
            have opens : opensField [] = false := rfl
            have blank : strip [] = [] := rfl
            simp [readSide, opens, blank]
          rw [linesRead, same, List.flatMap_append, ih]
          split_ifs <;> simp [nothing]
      | cons c more => simp only [linesRead, List.flatMap_append, ih, List.filter_cons_of_pos,
          List.isEmpty_cons, Bool.not_false]

omit [Unicode] in
theorem joined_lines (fields : List Str) :
    (splitlines (join "\n" fields)).filter (fun line => !line.isEmpty) =
      (fields.flatMap splitlines).filter fun line => !line.isEmpty := by
  induction fields with
  | nil => rfl
  | cons field rest ih =>
      cases rest with
      | nil => simp [join]
      | cons next more =>
          have shape : join "\n" (field :: next :: more) =
              field ++ '\n' :: join "\n" (next :: more) := join_cons_cons _ _ _ _
          rw [shape, splitlines_append_newline, List.filter_append, List.flatMap_cons,
            List.filter_append, ih]
          congr 1
          rcases splitlines_final_newline false field with same | more
          · rw [splitlines, same]
            rfl
          · rw [splitlines, more, List.filter_append]
            simp [splitlines]

/-!
## Blocks
-/

def keptLines (blocks : List (List Str)) : List Str :=
  (blocks.filter fun block => trusted (join "\n" block)).flatten

def finish (state : List (List Str) × List Str) : List (List Str) :=
  if state.2.isEmpty then state.1 else state.1 ++ [state.2]

def currentSide (current : List Str) : Option Bool := current.head?.map trusted

/-- A block begins with a line that is not blank. -/
def Begun (current : List Str) : Prop := ∀ line ∈ current.head?, strip line ≠ []

omit [Unicode] in
theorem kept_lines_append (blocks more : List (List Str)) :
    keptLines trusted (blocks ++ more) = keptLines trusted blocks ++ keptLines trusted more := by
  rw [keptLines, List.filter_append, List.flatten_append, keptLines, keptLines]

variable (byFirstLine : ∀ line rest, strip line ≠ [] →
  trusted (join "\n" (line :: rest)) = trusted line)

include byFirstLine

omit [Unicode] in
theorem kept_lines_block (line : Str) (rest : List Str) (named : strip line ≠ []) :
    keptLines trusted [line :: rest] = if trusted line then line :: rest else [] := by
  rw [keptLines, List.filter_cons, byFirstLine line rest named]
  split_ifs <;> simp

theorem add_line_kept (state : List (List Str) × List Str) (begun : Begun state.2) (line : Str) :
    Begun (addLine state line).2 ∧
      currentSide trusted (addLine state line).2 =
        readSide trusted (currentSide trusted state.2) line ∧
      keptLines trusted (finish (addLine state line)) =
        keptLines trusted (finish state) ++
          if readSide trusted (currentSide trusted state.2) line = some true then [line] else [] := by
  obtain ⟨blocks, current⟩ := state
  have opening : ∀ line, strip line ≠ [] → Begun [line] := by
    intro line named other member
    obtain rfl := Option.some.inj member
    exact named
  by_cases opens : opensField line
  · have named := opens_not_blank line opens
    have side : readSide trusted (currentSide trusted current) line = some (trusted line) := by
      rw [readSide, if_pos opens]
    have added : addLine (blocks, current) line = (finish (blocks, current), [line]) := by
      rw [addLine, if_pos opens]
      rfl
    rw [added, side]
    refine ⟨opening line named, rfl, ?_⟩
    have last : finish (finish (blocks, current), [line]) = finish (blocks, current) ++ [[line]] :=
      rfl
    rw [last, kept_lines_append, kept_lines_block trusted byFirstLine line [] named]
    simp
  · cases current with
    | cons first rest =>
        have named : strip first ≠ [] := begun first rfl
        have side : readSide trusted (currentSide trusted (first :: rest)) line =
            some (trusted first) := by
          rw [readSide, if_neg opens]
          rfl
        have added : addLine (blocks, first :: rest) line = (blocks, first :: (rest ++ [line])) := by
          rw [addLine, if_neg opens]
          rfl
        rw [added, side]
        refine ⟨begun, rfl, ?_⟩
        have last : ∀ lines, finish (blocks, first :: lines) = blocks ++ [first :: lines] :=
          fun _ => rfl
        rw [last, last, kept_lines_append, kept_lines_append,
          kept_lines_block trusted byFirstLine first _ named,
          kept_lines_block trusted byFirstLine first _ named]
        split_ifs <;> simp_all
    | nil =>
        by_cases blank : strip line = []
        · have side : readSide trusted (currentSide trusted []) line = none := by
            rw [readSide, if_neg opens, blank]
            rfl
          have added : addLine (blocks, []) line = (blocks, []) := by
            simp [addLine, opens, blank]
          rw [added, side]
          exact ⟨begun, rfl, by simp⟩
        · have side : readSide trusted (currentSide trusted []) line = some (trusted line) := by
            simp [readSide, opens, currentSide, blank]
          have added : addLine (blocks, []) line = (blocks, [line]) := by
            simp [addLine, opens, blank]
          rw [added, side]
          refine ⟨opening line blank, rfl, ?_⟩
          have last : finish (blocks, [line]) = finish (blocks, []) ++ [[line]] := rfl
          rw [last, kept_lines_append, kept_lines_block trusted byFirstLine line [] blank]
          simp

theorem blocks_read (lines : List Str) (state : List (List Str) × List Str)
    (begun : Begun state.2) :
    keptLines trusted (finish (lines.foldl addLine state)) =
      keptLines trusted (finish state) ++
        linesRead trusted (currentSide trusted state.2) lines := by
  induction lines generalizing state with
  | nil => simp [linesRead]
  | cons line rest ih =>
      obtain ⟨later, side, kept⟩ := add_line_kept trusted byFirstLine state begun line
      rw [List.foldl_cons, ih _ later, side, kept, linesRead, List.append_assoc]

end Reading

/-!
## Fields of a message
-/

def isAuthenticationResults (field : Str × Str) : Bool :=
  Unicode.lower field.1 = "authentication-results".toList

/-- The values of the `Authentication-Results` fields, in order. -/
def resultFields (message : List (Str × Str)) : List Str :=
  (message.filter isAuthenticationResults).map Prod.snd

def joinField (value : Str) (name : Str) : Headers → Headers
  | [] => [(name, value)]
  | (key, existing) :: rest => (key, existing ++ '\n' :: value) :: rest

theorem results_add_header (name value : Str) (headers : Headers) :
    (addHeader name value headers).filter isAuthenticationResults =
      if isAuthenticationResults (name, value) then
        joinField value name (headers.filter isAuthenticationResults)
      else headers.filter isAuthenticationResults := by
  induction headers with
  | nil => by_cases results : isAuthenticationResults (name, value) <;>
      simp [addHeader, joinField, results]
  | cons header rest ih =>
      obtain ⟨key, existing⟩ := header
      rw [addHeader]
      by_cases same : Unicode.lower key = Unicode.lower name
      · have kind : isAuthenticationResults (key, existing ++ '\n' :: value) =
            isAuthenticationResults (name, value) ∧
            isAuthenticationResults (key, existing) = isAuthenticationResults (name, value) := by
          simp only [isAuthenticationResults, same, and_self]
        rw [if_pos same, List.filter_cons, List.filter_cons, kind.1, kind.2]
        by_cases results : isAuthenticationResults (name, value) <;> simp [results, joinField]
      · rw [if_neg same, List.filter_cons, ih, List.filter_cons]
        by_cases own : isAuthenticationResults (key, existing)
        · have other : isAuthenticationResults (name, value) = false := by
            by_contra results
            have first : Unicode.lower key = "authentication-results".toList := of_decide_eq_true own
            have second : Unicode.lower name = "authentication-results".toList :=
              of_decide_eq_true (Bool.of_not_eq_false results)
            exact same (first.trans second.symm)
          simp [own, other]
        · simp [own]

theorem collected_results (message : List (Str × Str)) :
    ∃ name, isAuthenticationResults (name, []) = true ∧
      (collectHeaders message).filter isAuthenticationResults =
        if resultFields message = [] then [] else [(name, join "\n" (resultFields message))] := by
  induction message using List.reverseRecOn with
  | nil => exact ⟨"authentication-results".toList, by
      rw [isAuthenticationResults, Unicode.lower_ascii _ (every_char (by decide))]; decide, rfl⟩
  | append_singleton message field ih =>
      obtain ⟨key, kind, collected⟩ := ih
      obtain ⟨name, value⟩ := field
      have added : collectHeaders (message ++ [(name, value)]) =
          addHeader name value (collectHeaders message) := by
        rw [collectHeaders, List.foldl_concat]
        rfl
      have fields : resultFields (message ++ [(name, value)]) = resultFields message ++
          if isAuthenticationResults (name, value) then [value] else [] := by
        rw [resultFields, List.filter_append, List.map_append]
        by_cases results : isAuthenticationResults (name, value) <;> simp [results, resultFields]
      rw [added, results_add_header, collected, fields]
      by_cases results : isAuthenticationResults (name, value)
      · by_cases none : resultFields message = []
        · exact ⟨name, results, by simp [results, none, joinField, join]⟩
        · refine ⟨key, kind, ?_⟩
          simp [results, none, joinField, join_concat]
      · exact ⟨key, kind, by simp [results]⟩

omit [Unicode] in
theorem filter_map_guard {α β : Type} (kind empty : α → Bool) (value : α → β) (items : List α) :
    (items.filterMap fun item => if kind item && !empty item then some (value item) else none) =
      (items.filter kind).filterMap fun item => if empty item then none else some (value item) := by
  rw [List.filterMap_filter]
  congr 1
  funext item
  cases kind item <;> cases empty item <;> rfl

theorem authentication_results_collected (message : List (Str × Str)) :
    authenticationResults (collectHeaders message) =
      if join "\n" (resultFields message) = [] then none
      else some (join "\n" (resultFields message)) := by
  obtain ⟨name, kind, collected⟩ := collected_results message
  have values : authenticationResults (collectHeaders message) =
      let values := ((collectHeaders message).filter isAuthenticationResults).filterMap
        fun header => if header.2.isEmpty then none else some header.2
      if values.isEmpty then none else some (join "\n" values) := by
    rw [← filter_map_guard]
    rfl
  rw [values, collected]
  by_cases none : resultFields message = []
  · rw [if_pos none, none]
    rfl
  · rw [if_neg none]
    generalize join "\n" (resultFields message) = value
    cases value <;> rfl

/-!
## Independence of the other fields
-/

def trusts (gate : EmailAuthGate) (text : Str) : Bool :=
  authservIdMatches (authservId text) gate.authServId

/-- Every line that reports something is attributed to the side its own field is on. -/
def WellAttributed (gate : EmailAuthGate) (fields : List Str) : Prop :=
  Attributed gate.trusts none (taggedLines gate.trusts fields)

instance (gate : EmailAuthGate) (fields : List Str) : Decidable (gate.WellAttributed fields) :=
  inferInstanceAs (Decidable (Attributed gate.trusts none (taggedLines gate.trusts fields)))

/-- Whether a message is admitted, and the class of the error when it is not. -/
def outcome (gate : EmailAuthGate) (message : List (Str × Str)) (sender : Option Str) :
    Except Str Unit :=
  ( gate.admit (collectHeaders message) sender).mapError Exn.className

def entriesRead (gate : EmailAuthGate) (fields : List Str) : List (Str × Str) :=
  (linesRead gate.trusts none (fields.flatMap splitlines)).flatMap entriesOf

theorem entries_read_attributed (gate : EmailAuthGate) (fields : List Str)
    (attributed : gate.WellAttributed fields) :
    gate.entriesRead fields =
      (fields.filter gate.trusts).flatMap fun field => (splitlines field).flatMap entriesOf := by
  have lines : (taggedLines gate.trusts fields).map Prod.fst = fields.flatMap splitlines := by
    rw [taggedLines, List.map_flatMap]
    congr 1
    funext field
    rw [List.map_map]
    exact List.map_id _
  rw [← tagged_lines_trusted, ← lines_read_attributed gate.trusts none _ attributed, lines,
    entriesRead]

theorem entries_read_joined (gate : EmailAuthGate) (fields : List Str) :
    (linesRead gate.trusts none (splitlines (join "\n" fields))).flatMap entriesOf =
      gate.entriesRead fields := by
  rw [lines_read_nonempty, joined_lines, ← lines_read_nonempty, entriesRead]

theorem check_nothing (gate : EmailAuthGate) (sender : Option Str) (error : Str) :
    (gate.checkVerdicts Dict.empty sender).mapError Exn.className =
      (Except.error (Exn.emailAuth error)).mapError Exn.className := by
  unfold checkVerdicts
  split <;> rfl

theorem admit_headers_read (gate : EmailAuthGate) (configured : gate.authServId ≠ [])
    (message : List (Str × Str)) (sender : Option Str) :
    (gate.admitHeaders (collectHeaders message) sender).mapError Exn.className =
      (gate.checkVerdicts ((gate.entriesRead (resultFields message)).foldl setdefault Dict.empty)
        sender).mapError Exn.className := by
  rw [← entries_read_joined, admitHeaders, authentication_results_collected]
  generalize join "\n" (resultFields message) = raw
  by_cases empty : raw = []
  · rw [if_pos empty, empty]
    exact (check_nothing gate sender _).symm
  · rw [if_neg empty]
    have byFirstLine : ∀ line rest, strip line ≠ [] →
        gate.trusts (join "\n" (line :: rest)) = gate.trusts line := by
      intro line rest named
      rw [trusts, authserv_id_of_join line rest named, trusts]
    have kept : keptLines gate.trusts (authResultsBlocks raw) =
        linesRead gate.trusts none (splitlines raw) :=
      blocks_read gate.trusts byFirstLine (splitlines raw) ([], []) (by simp [Begun])
    have chosen : trustedAuthenticationResults raw gate.authServId =
        let kept := (authResultsBlocks raw).filter fun block => gate.trusts (join "\n" block)
        if kept.isEmpty then none else some (join "\n" (kept.map (join "\n"))) := by
      have present : gate.authServId.isEmpty = false := by simpa using configured
      rw [trustedAuthenticationResults, present, List.filter_map]
      simp only [Bool.false_eq_true, if_false, List.isEmpty_map]
      rfl
    dsimp only
    rw [chosen, ← kept, keptLines]
    cases (authResultsBlocks raw).filter fun block => gate.trusts (join "\n" block) with
    | nil => exact (check_nothing gate sender _).symm
    | cons first rest =>
        have entries : (clauses (join "\n" ((first :: rest).map (join "\n")))).flatMap
            clauseEntries = (first :: rest).flatten.flatMap entriesOf := by
          have outer := entries_of_join ((first :: rest).map (join "\n"))
          rw [entriesOf] at outer
          rw [outer, List.flatMap_map, ← List.flatMap_id, List.flatMap_assoc]
          congr 1
          funext block
          exact entries_of_join block
        rw [← entries]
        rfl

theorem outcome_of_refused {gate : EmailAuthGate} {sender : Option Str}
    (refused : gate.SenderRefused sender) (message other : List (Str × Str)) :
    gate.outcome message sender = gate.outcome other sender := by
  obtain ⟨senders, listed, failing⟩ := refused
  unfold outcome EmailAuthGate.admit
  rw [listed]
  cases allowed : SenderAllowlist.admit senders sender with
  | ok _ => exact absurd allowed failing
  | error _ => simp only [allowed, bind, Except.bind]

theorem outcome_of_attributed (gate : EmailAuthGate) (configured : gate.authServId ≠ [])
    (message other : List (Str × Str)) (sender : Option Str)
    (attributed : gate.WellAttributed (resultFields message))
    (attributedOther : gate.WellAttributed (resultFields other))
    (same : (resultFields message).filter gate.trusts = (resultFields other).filter gate.trusts) :
    gate.outcome message sender = gate.outcome other sender := by
  have read : gate.entriesRead (resultFields message) = gate.entriesRead (resultFields other) := by
    rw [entries_read_attributed gate _ attributed, entries_read_attributed gate _ attributedOther,
      same]
  have headers : (gate.admitHeaders (collectHeaders message) sender).mapError Exn.className =
      (gate.admitHeaders (collectHeaders other) sender).mapError Exn.className := by
    rw [admit_headers_read gate configured, admit_headers_read gate configured, read]
  unfold outcome EmailAuthGate.admit
  cases gate.senders with
  | none => exact headers
  | some senders =>
      cases allowed : SenderAllowlist.admit senders sender with
      | ok _ => simpa only [allowed, bind, Except.bind] using headers
      | error _ => simp only [allowed, bind, Except.bind]

/-- Where the allowlist refuses the sender, or the gate attributes every line to its own field,
messages with the same fields of the configured server have the same outcome, whatever the others
say. -/
theorem other_fields_have_no_influence (gate : EmailAuthGate) (configured : gate.authServId ≠ [])
    (message other : List (Str × Str)) (sender : Option Str)
    (unread : gate.SenderRefused sender ∨
      gate.WellAttributed (resultFields message) ∧ gate.WellAttributed (resultFields other))
    (same : (resultFields message).filter gate.trusts = (resultFields other).filter gate.trusts) :
    gate.outcome message sender = gate.outcome other sender := by
  cases unread with
  | inl refused => exact outcome_of_refused refused message other
  | inr attributed =>
      exact outcome_of_attributed gate configured message other sender attributed.1 attributed.2 same

section Example

omit [Unicode]

def dmarcGate : EmailAuthGate where
  required := ["dmarc".toList]
  allowedDomains := ["example.org".toList]

/-- A field of the configured server that reports no DMARC verdict. -/
def spfResults : Str × Str :=
  ("Authentication-Results".toList, "mx.messagingengine.com; spf=pass smtp.mailfrom=attacker.net")

/-- A field of another server, its name followed by nothing or by a version number. -/
def forgedResults (version : Str) : Str × Str :=
  ("Authentication-Results".toList,
    "evil.example".toList ++ version ++ "; dmarc=pass header.from=example.org".toList)

theorem forged_results_ignored :
    let _ := asciiTables
    dmarcGate.outcome [spfResults, forgedResults []] (some "a@example.org".toList) =
      dmarcGate.outcome [spfResults] (some "a@example.org".toList) := by
  let _ := asciiTables
  have attributed : dmarcGate.WellAttributed (resultFields [spfResults, forgedResults []]) := by
    decide
  have alone : dmarcGate.WellAttributed (resultFields [spfResults]) := by decide
  exact other_fields_have_no_influence dmarcGate (by decide) _ _ _ (.inr ⟨attributed, alone⟩)
    (by decide)

/-- A field whose server name is followed by a version number is read as a part of
the field above it. -/
theorem forged_version_admitted :
    let _ := asciiTables
    ((resultFields [spfResults, forgedResults " 1"]).filter dmarcGate.trusts =
        (resultFields [spfResults]).filter dmarcGate.trusts) ∧
      dmarcGate.outcome [spfResults] (some "a@example.org".toList) =
        .error "EmailAuthError".toList ∧
      dmarcGate.outcome [spfResults, forgedResults " 1"] (some "a@example.org".toList) = .ok () := by
  let _ := asciiTables
  decide

end Example

end DearAgent.EmailAuthGate
