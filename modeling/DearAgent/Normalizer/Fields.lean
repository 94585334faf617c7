import DearAgent.Normalizer

/-!
# The fields of a message body

What becomes of the lines of a body: a metadata line gives a value to its key, the last
one of a key counts, and the other lines are the instructions.
-/

namespace DearAgent

open DearAgent.Lib.Text DearAgent.Lib.Regex DearAgent.Lib.Dictionaries DearAgent.Queue

set_option autoImplicit false

section Lines

variable [Unicode]

def metadataOf (line : Str) : Option (Str × Str) :=
  (matchStart metadataPattern line).map fun found =>
    ((found.group 1).getD [], strip ((found.group 2).getD []))

/-- The value that a line gives to a key, in whatever letter case the key is written. -/
def valueOn (key line : Str) : Option Str :=
  (metadataOf line).bind fun entry => if Unicode.lower entry.1 = key then some entry.2 else none

def lastValue (key body : Str) : Option Str := (splitlines body).reverse.findSome? (valueOn key)

def instructionLines (body : Str) : List Str :=
  (splitlines body).filter fun line => (metadataOf line).isNone

theorem parse_line_plain (parsed : Dict Str Str × List Str) {line : Str}
    (plain : metadataOf line = none) : parseLine parsed line = (parsed.1, parsed.2 ++ [line]) := by
  unfold metadataOf at plain
  rw [Option.map_eq_none_iff] at plain
  rw [parseLine, plain]

theorem parse_line_metadata (parsed : Dict Str Str × List Str) {line : Str} {entry : Str × Str}
    (metadata : metadataOf line = some entry) :
    parseLine parsed line = (parsed.1.set (Unicode.lower entry.1) entry.2, parsed.2) := by
  unfold metadataOf at metadata
  obtain ⟨found, matched, rfl⟩ := Option.map_eq_some_iff.mp metadata
  rw [parseLine, matched]

theorem get_parse_lines (key : Str) (lines : List Str) (parsed : Dict Str Str × List Str) :
    (lines.foldl parseLine parsed).1.get key =
      (lines.reverse.findSome? (valueOn key)).or (parsed.1.get key) := by
  induction lines generalizing parsed with
  | nil => rfl
  | cons line rest ih =>
      rw [List.foldl_cons, ih, List.reverse_cons, List.findSome?_append, Option.or_assoc]
      congr 1
      cases metadata : metadataOf line with
      | none =>
          rw [parse_line_plain parsed metadata]
          simp [valueOn, metadata]
      | some entry =>
          rw [parse_line_metadata parsed metadata, Dict.get_set]
          by_cases same : Unicode.lower entry.1 = key
          · simp [valueOn, metadata, same]
          · simp [valueOn, metadata, same, Ne.symm same]

theorem kept_parse_lines (lines : List Str) (parsed : Dict Str Str × List Str) :
    (lines.foldl parseLine parsed).2 =
      parsed.2 ++ lines.filter fun line => (metadataOf line).isNone := by
  induction lines generalizing parsed with
  | nil => simp
  | cons line rest ih =>
      rw [List.foldl_cons, ih]
      cases metadata : metadataOf line with
      | none => simp [parse_line_plain parsed metadata, metadata]
      | some entry => simp [parse_line_metadata parsed metadata, metadata]

theorem get_parse_body (key body : Str) : (parseBody body).1.get key = lastValue key body := by
  unfold parseBody
  rw [get_parse_lines]
  exact Option.or_none

theorem instructions_parse_body (body : Str) :
    (parseBody body).2 = join "\n" (instructionLines body) := by
  unfold parseBody
  simp only
  rw [kept_parse_lines]
  rfl

omit [Unicode] in
theorem strip_ne_nil {c : Char} {text : Str} (kept : isSpace c = false) : strip (c :: text) ≠ [] := by
  intro empty
  have blank := blank_of_strip (c :: text) empty c List.mem_cons_self
  rw [kept] at blank
  cases blank

theorem metadata_value_ne_nil {line : Str} {entry : Str × Str}
    (metadata : metadataOf line = some entry) : entry.2 ≠ [] := by
  unfold metadataOf at metadata
  obtain ⟨found, matched, rfl⟩ := Option.map_eq_some_iff.mp metadata
  obtain ⟨stop, first, rfl⟩ := Option.map_eq_some_iff.mp matched
  have reached : stop ∈ run metadataPattern (atStart line) := List.mem_of_mem_head? first
  obtain ⟨start, reached⟩ := mem_run_behind 6 reached
  obtain ⟨valued, captured, reached⟩ := mem_run_seq reached
  obtain ⟨rfl, _⟩ := mem_run_text_end reached
  obtain ⟨inner, consumed, text, split, rfl⟩ := mem_run_group captured
  obtain ⟨c, tail, opens, accepted⟩ := run_opens consumed split
  have blank : isSpace c = false := by simpa using accepted
  change strip text ≠ []
  rw [opens]
  exact strip_ne_nil blank

theorem last_value_ne_nil {key body value : Str} (last : lastValue key body = some value) :
    value ≠ [] := by
  obtain ⟨line, _, given⟩ := List.exists_of_findSome?_eq_some last
  obtain ⟨entry, metadata, chosen⟩ := Option.bind_eq_some_iff.mp given
  split_ifs at chosen
  rw [← Option.some.inj chosen]
  exact metadata_value_ne_nil metadata

/-- The repository of a message: the one of its last line for it, else that of the address. -/
def repoUrlOf (message : RawMessage) (recipient : Option Str) : Str :=
  (lastValue "repo" message.body).getD ((repoFromRecipient recipient).getD [])

theorem or_else_last_value (key body default : Str) :
    orElse (lastValue key body) default = (lastValue key body).getD default := by
  cases last : lastValue key body with
  | none => rfl
  | some value =>
      have given := last_value_ne_nil last
      simp [orElse, given]

theorem normalized_spec {message : RawMessage} {recipient : Option Str} {result : NormalizedTask}
    (normalized : normalize message recipient = .ok result) :
    repoUrlOf message recipient ≠ [] ∧
      result.spec = specOf (parseBody message.body).1 (repoUrlOf message recipient)
        (join "\n" (instructionLines message.body)) := by
  have repo : orElse ((parseBody message.body).1.get "repo".toList)
      ((repoFromRecipient recipient).getD []) = repoUrlOf message recipient := by
    rw [get_parse_body, or_else_last_value]
    rfl
  unfold normalize at normalized
  by_cases attached : !message.attachments.isEmpty
  · rw [if_pos attached] at normalized
    cases normalized
  · rw [if_neg attached] at normalized
    simp only [repo, instructions_parse_body] at normalized
    split_ifs at normalized with missing empty
    cases normalized
    exact ⟨fun none => missing (List.isEmpty_iff.mpr none), rfl⟩

theorem normalize_accepts {message : RawMessage} {recipient : Option Str}
    (unattached : message.attachments = []) (located : repoUrlOf message recipient ≠ [])
    (instructed : strip (join "\n" (instructionLines message.body)) ≠ []) :
    ∃ result, normalize message recipient = .ok result := by
  have repo : orElse ((parseBody message.body).1.get "repo".toList)
      ((repoFromRecipient recipient).getD []) = repoUrlOf message recipient := by
    rw [get_parse_body, or_else_last_value]
    rfl
  unfold normalize
  rw [unattached, List.isEmpty_nil, if_neg (by decide)]
  simp only [repo, instructions_parse_body]
  rw [if_neg (mt List.isEmpty_iff.mp located), if_neg (mt List.isEmpty_iff.mp instructed)]
  exact ⟨_, rfl⟩

end Lines

/-!
## What a sender wrote is in the task
-/

section Reflecting

variable [Unicode]

end Reflecting

section Example

local instance fieldTables : Unicode := asciiTables

end Example

end DearAgent
