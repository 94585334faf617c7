import Mathlib.Data.Bool.AllAny
import DearAgent.Lib.Escapes

/-!
# Writing JSON

`json.dumps`, on one line or indented. On one line it leaves nothing but printable ASCII, and
`json.loads` reads back what it wrote.
-/

namespace DearAgent.Lib.Json

open DearAgent.Lib.Text DearAgent.Lib.Dictionaries DearAgent.Lib.CodePoints DearAgent.Lib.Values

set_option autoImplicit false

section Numbers

/-- `float.__repr__`, and the names of what JSON has no number for. -/
def floatText (x : Float) : Str :=
  match x.toModel.unpack with
  | .notANumber => "NaN"
  | .infinity .negative => "-Infinity"
  | .infinity .positive => "Infinity"
  | _ => reprFloat x

/-- A float is read back from its text, as Python documents of every number. -/
def FloatReads (x : Float) : Prop := wordPair (ofText (floatText x)) = .ok (.float x, [])

variable {n : Nat}

theorem decimal_digits (n : Nat) : ∀ c ∈ ofText (Nat.toDigits 10 n), isDigit c = true := by
  intro c member
  have ⟨char, digit, same⟩ := List.mem_map.mp member
  have shown := Nat.isDigit_of_mem_toDigits (by decide) (by decide) digit
  have bounds : 48 ≤ char.toNat ∧ char.toNat ≤ 57 := by
    simpa [Char.isDigit, UInt32.le_iff_toNat_le] using shown
  rw [← same]
  simp only [isDigit, Bool.and_eq_true, decide_eq_true_eq]
  exact bounds

theorem digits_value_of_chars (digits : Str) (start : Nat) :
    (ofText digits).foldl (fun n c => n * 10 + (c.val - 48)) start =
      Nat.ofDigitChars 10 digits start := by
  induction digits generalizing start with
  | nil => rfl
  | cons c rest ih =>
      rw [Nat.ofDigitChars_cons, ← ih, Nat.mul_comm]
      rfl

theorem digits_value_written (n : Nat) : digitsValue (ofText (Nat.toDigits 10 n)) = n := by
  unfold digitsValue
  rw [digits_value_of_chars, Nat.ofDigitChars_ten_toDigits]

theorem leading_digit (n : Nat) : (Nat.toDigits 10 n).head? = some '0' ↔ n = 0 := by
  induction n using Nat.strong_induction_on with
  | _ n ih =>
      by_cases single : n < 10
      · rw [Nat.toDigits_of_lt_base single, List.head?_cons, Option.some.injEq,
          Nat.digitChar_eq_zero]
      · have present : Nat.toDigits 10 (n / 10) ≠ [] := Nat.toDigits_ne_nil
        rw [Nat.toDigits_of_base_le (by decide) (by omega), List.head?_append_of_ne_nil _ present,
          ih (n / 10) (by omega)]
        omega

theorem unsigned_written (n : Nat) :
    Unsigned (ofText (Nat.toDigits 10 n)) [] [] [] (ofText (Nat.toDigits 10 n)) := by
  have present : ofText (Nat.toDigits 10 n) ≠ [] := by
    unfold ofText
    rw [ne_eq, List.map_eq_nil_iff]
    exact Nat.toDigits_ne_nil
  refine ⟨present, by simp, ?_, rfl, rfl⟩
  unfold wholeText
  by_cases zero : n = 0
  · rw [zero]
    rfl
  · have other : (ofText (Nat.toDigits 10 n)).head? ≠ some (ofChar '0') := by
      intro head
      unfold ofText at head
      rw [List.head?_map, Option.map_eq_some_iff] at head
      have ⟨c, first, same⟩ := head
      rw [of_char_injective same, leading_digit] at first
      exact zero first
    rw [if_neg other, List.takeWhile_eq_self_iff]
    exact decimal_digits n

/-- The digits of a number are read back as the number, behind a sign as its negative. -/
theorem digits_read (bound : n < 10 ^ maxStrDigits) (negative : Bool) :
    wordPair ((if negative then [ofChar '-'] else []) ++ ofText (Nat.toDigits 10 n)) =
      .ok (.int (if negative then -n else n), []) := by
  have parts := unsigned_written n
  have chars : ∀ c ∈ (if negative then [ofChar '-'] else []) ++ ofText (Nat.toDigits 10 n),
      isNumberChar c = true := by
    intro c member
    cases List.mem_append.mp member with
    | inl sign =>
        cases negative with
        | false => cases sign
        | true =>
            rw [List.mem_singleton.mp sign]
            decide
    | inr digit => exact digit_number (decimal_digits n c digit)
  have present : (if negative then [ofChar '-'] else []) ++ ofText (Nat.toDigits 10 n) ≠ [] :=
    fun none => parts.present (List.append_eq_nil_iff.mp none).2
  have signed : (if negative then [ofChar '-'] else []) ++ ofText (Nat.toDigits 10 n) ≠
      [ofChar '-'] := by
    intro same
    cases negative with
    | true => exact parts.present (List.cons.inj same).2
    | false =>
        have whole : ofText (Nat.toDigits 10 n) = [ofChar '-'] := same
        have digit := decimal_digits n (ofChar '-')
        rw [whole] at digit
        exact absurd (digit (List.mem_singleton_self _)) (by decide)
  have size : ¬maxStrDigits < (ofText (Nat.toDigits 10 n)).length := by
    unfold ofText
    rw [List.length_map, not_lt, Nat.length_toDigits_le_iff (by decide) (by decide)]
    exact bound
  have other := number_not_constant present signed chars []
  rw [List.append_nil] at other
  unfold wordPair
  rw [other]
  simp only [parts.number_pair negative]
  have plain : (([] : PyStr).isEmpty && ([] : PyStr).isEmpty) = true := rfl
  unfold numberValue
  rw [if_pos plain, if_neg size, digits_value_written]
  rfl

theorem write_int_read {n : Int} {text : PyStr} (written : writeInt n = .ok text) :
    wordPair text = .ok (.int n, []) := by
  unfold writeInt at written
  split_ifs at written with bound
  have shape := Except.ok.inj written
  rw [Int.toString_eq_repr, Int.repr_eq_if] at shape
  split_ifs at shape with sign
  · have same : n.toNat = n.natAbs := by omega
    have read := digits_read bound false
    rw [Nat.toList_repr, same] at shape
    rw [← shape]
    have value : (if false then -(n.natAbs : Int) else n.natAbs) = n := by
      rw [if_neg (by decide)]
      omega
    rw [value] at read
    exact read
  · have same : (-n).toNat = n.natAbs := by omega
    have read := digits_read bound true
    rw [String.toList_append, Nat.toList_repr, same] at shape
    rw [← shape]
    have value : (if true then -(n.natAbs : Int) else n.natAbs) = n := by
      rw [if_pos rfl]
      omega
    rw [value] at read
    exact read

theorem write_int_returns_iff (n : Int) :
    (∃ text, writeInt n = .ok text) ↔ n.natAbs < 10 ^ maxStrDigits := by
  unfold writeInt
  split_ifs with bound
  · exact iff_of_true ⟨_, rfl⟩ bound
  · exact iff_of_false (by simp) bound

end Numbers

section Values

/-- A line break and the spaces of a level, where there is an indentation. -/
def lineBreak (indent : Option Nat) (level : Nat) : PyStr :=
  indent.elim [] fun width => ofChar '\n' :: List.replicate (width * level) (ofChar ' ')

def commaGap (indent : Option Nat) (level : Nat) : PyStr :=
  if indent.isNone then [ofChar ' '] else lineBreak indent level

def joinParts (gap : PyStr) : List PyStr → PyStr
  | [] => []
  | [part] => part
  | part :: rest => part ++ ofChar ',' :: (gap ++ joinParts gap rest)

def enclose (indent : Option Nat) (level : Nat) (opening closing : CodePoint) (parts : List PyStr) :
    PyStr :=
  if parts.isEmpty then [opening, closing]
  else opening :: (lineBreak indent (level + 1) ++
    (joinParts (commaGap indent (level + 1)) parts ++ (lineBreak indent level ++ [closing])))

variable (indent : Option Nat)

mutual

/-- `json.dumps` of a value at a level, with this many containers left to open. -/
def dumpsAt (level depth : Nat) : Value → Except Raised PyStr
  | .null => .ok "null"
  | .bool b => .ok (if b then "true" else "false")
  | .int n => writeInt n
  | .float x => .ok (ofText (floatText x))
  | .str s => .ok (writeString s)
  | .list items =>
      match depth with
      | 0 => .error recursionError
      | depth + 1 => do
          let parts ← dumpsItems (level + 1) depth items
          return enclose indent level '[' ']' parts
  | .dict entries =>
      match depth with
      | 0 => .error recursionError
      | depth + 1 => do
          let parts ← dumpsEntries (level + 1) depth entries
          return enclose indent level '{' '}' parts

def dumpsItems (level depth : Nat) : List Value → Except Raised (List PyStr)
  | [] => .ok []
  | item :: rest => do
      let part ← dumpsAt level depth item
      let parts ← dumpsItems level depth rest
      return part :: parts

def dumpsEntries (level depth : Nat) : List (PyStr × Value) → Except Raised (List PyStr)
  | [] => .ok []
  | (key, value) :: rest => do
      let part ← dumpsAt level depth value
      let parts ← dumpsEntries level depth rest
      return (writeString key ++ (": " : PyStr) ++ part) :: parts

end

def dumps [Interpreter] (value : Value) : Except Raised PyStr :=
  dumpsAt none 0 Interpreter.reprDepth value

mutual

/-- What is read of a value that was written: its texts joined, and keys that are then the same
taken for one. -/
def readBack : Value → Value
  | .str s => .str (rejoin s)
  | .list items => .list (readItems items)
  | .dict entries => .dict (readEntries [] entries)
  | value => value

def readItems : List Value → List Value
  | [] => []
  | item :: rest => readBack item :: readItems rest

def readEntries (start : List (PyStr × Value)) : List (PyStr × Value) → List (PyStr × Value)
  | [] => start
  | (key, value) :: rest => readEntries (setEntry (rejoin key) (readBack value) start) rest

end

mutual

/-- Every float of the value is read back from its text. -/
def FloatsRead : Value → Prop
  | .float x => FloatReads x
  | .list items => FloatsReadIn items
  | .dict entries => FloatsReadUnder entries
  | _ => True

def FloatsReadIn : List Value → Prop
  | [] => True
  | item :: rest => FloatsRead item ∧ FloatsReadIn rest

def FloatsReadUnder : List (PyStr × Value) → Prop
  | [] => True
  | (_, value) :: rest => FloatsRead value ∧ FloatsReadUnder rest

end

mutual

/-- A value that comes back as it is: its floats and its texts do, and no dictionary has a key
twice. -/
def Faithful : Value → Prop
  | .float x => FloatReads x
  | .str s => Unpaired s
  | .list items => FaithfulIn items
  | .dict entries => (entries.map Prod.fst).Nodup ∧ FaithfulUnder entries
  | _ => True

def FaithfulIn : List Value → Prop
  | [] => True
  | item :: rest => Faithful item ∧ FaithfulIn rest

def FaithfulUnder : List (PyStr × Value) → Prop
  | [] => True
  | (key, value) :: rest => Unpaired key ∧ Faithful value ∧ FaithfulUnder rest

end

theorem set_entry_fresh {key : PyStr} (value : Value) {entries : List (PyStr × Value)}
    (fresh : key ∉ entries.map Prod.fst) : setEntry key value entries = entries ++ [(key, value)] := by
  induction entries with
  | nil => rfl
  | cons entry rest ih =>
      rw [List.map_cons, List.mem_cons, not_or] at fresh
      rw [setEntry, if_neg fun same => fresh.1 same.symm, ih fresh.2]
      rfl

theorem set_entry_length (key : PyStr) (value : Value) (entries : List (PyStr × Value)) :
    setEntry key value entries = entries ++ [(key, value)] ∨
      (setEntry key value entries).length = entries.length := by
  induction entries with
  | nil => exact .inl rfl
  | cons entry rest ih =>
      rw [setEntry]
      split_ifs with same
      · exact .inr rfl
      · cases ih with
        | inl grown => exact .inl (congrArg (entry :: ·) grown)
        | inr kept => exact .inr (congrArg Nat.succ kept)

theorem read_entries_length (start entries : List (PyStr × Value)) :
    (readEntries start entries).length ≤ start.length + entries.length := by
  induction entries generalizing start with
  | nil => exact le_rfl
  | cons entry rest ih =>
      have ⟨key, value⟩ := entry
      have later := ih (setEntry (rejoin key) (readBack value) start)
      unfold readEntries
      cases set_entry_length (rejoin key) (readBack value) start with
      | inl grown =>
          rw [grown] at later ⊢
          simp only [List.length_append, List.length_cons, List.length_nil] at later ⊢
          omega
      | inr same =>
          rw [same] at later
          simp only [List.length_cons]
          omega

theorem read_entries_apart {start entries : List (PyStr × Value)}
    (whole : (readEntries start entries).length = start.length + entries.length) :
    readEntries start entries =
      start ++ entries.map fun entry => (rejoin entry.1, readBack entry.2) := by
  induction entries generalizing start with
  | nil =>
      rw [List.map_nil, List.append_nil]
      rfl
  | cons entry rest ih =>
      have ⟨key, value⟩ := entry
      have bound := read_entries_length (setEntry (rejoin key) (readBack value) start) rest
      unfold readEntries at whole ⊢
      cases set_entry_length (rejoin key) (readBack value) start with
      | inl grown =>
          rw [grown] at whole ⊢
          rw [ih, List.append_assoc]
          · rfl
          · rw [whole]
            simp only [List.length_append, List.length_cons, List.length_nil]
            omega
      | inr same =>
          rw [same] at bound
          simp only [List.length_cons] at whole
          omega

theorem read_entries_named (start entries : List (PyStr × Value))
    (named : ∀ entry ∈ entries, rejoin entry.1 = entry.1)
    (distinct : ((start ++ entries).map Prod.fst).Nodup) :
    readEntries start entries = start ++ entries.map fun entry => (entry.1, readBack entry.2) := by
  induction entries generalizing start with
  | nil =>
      rw [List.map_nil, List.append_nil]
      rfl
  | cons entry rest ih =>
      have ⟨key, value⟩ := entry
      have ⟨own, others⟩ := List.forall_mem_cons.mp named
      have keys : ((start ++ [(key, readBack value)]) ++ rest).map Prod.fst =
          (start ++ (key, value) :: rest).map Prod.fst := by
        simp only [List.map_append, List.map_cons, List.append_assoc, List.cons_append,
          List.nil_append]
      have fresh : key ∉ start.map Prod.fst := by
        intro member
        rw [List.map_append] at distinct
        exact (List.nodup_append.mp distinct).2.2 key member key List.mem_cons_self rfl
      rw [← keys] at distinct
      unfold readEntries
      rw [own, set_entry_fresh (readBack value) fresh, ih _ others distinct, List.append_assoc]
      rfl

theorem read_entries_eq_iff {entries : List (PyStr × Value)}
    (distinct : (entries.map Prod.fst).Nodup) :
    readEntries [] entries = entries ↔
      ∀ entry ∈ entries, rejoin entry.1 = entry.1 ∧ readBack entry.2 = entry.2 := by
  constructor
  · intro same
    have whole : (readEntries [] entries).length = ([] : List (PyStr × Value)).length + entries.length := by
      rw [same, List.length_nil, Nat.zero_add]
    have apart := read_entries_apart whole
    rw [same, List.nil_append] at apart
    intro entry member
    have own := List.map_inj_left.mp (apart.symm.trans (List.map_id entries).symm) entry member
    exact ⟨congrArg Prod.fst own, congrArg Prod.snd own⟩
  · intro each
    rw [read_entries_named [] entries (fun entry member => (each entry member).1) distinct]
    have same : ∀ entry ∈ entries, (entry.1, readBack entry.2) = entry :=
      fun entry member => Prod.ext rfl (each entry member).2
    rw [List.map_congr_left same, List.map_id', List.nil_append]

mutual

theorem faithful_floats (value : Value) (faithful : Faithful value) : FloatsRead value := by
  cases value with
  | null => trivial
  | bool _ => trivial
  | int _ => trivial
  | float x => exact faithful
  | str _ => trivial
  | list items => exact faithful_floats_in items faithful
  | dict entries => exact faithful_floats_under entries faithful.2

theorem faithful_floats_in (items : List Value) (faithful : FaithfulIn items) : FloatsReadIn items := by
  cases items with
  | nil => trivial
  | cons item rest => exact ⟨faithful_floats item faithful.1, faithful_floats_in rest faithful.2⟩

theorem faithful_floats_under (entries : List (PyStr × Value)) (faithful : FaithfulUnder entries) :
    FloatsReadUnder entries := by
  cases entries with
  | nil => trivial
  | cons entry rest =>
      have ⟨key, value⟩ := entry
      exact ⟨faithful_floats value faithful.2.1, faithful_floats_under rest faithful.2.2⟩

end

mutual

theorem read_back_faithful (value : Value) (faithful : Faithful value) : readBack value = value := by
  cases value with
  | null => rfl
  | bool _ => rfl
  | int _ => rfl
  | float _ => rfl
  | str s => exact congrArg Value.str ((rejoin_eq_self_iff s).mpr faithful)
  | list items => exact congrArg Value.list (read_items_faithful items faithful)
  | dict entries =>
      have each := read_under_faithful entries faithful.2
      exact congrArg Value.dict ((read_entries_eq_iff faithful.1).mpr each)

theorem read_items_faithful (items : List Value) (faithful : FaithfulIn items) : readItems items = items := by
  cases items with
  | nil => rfl
  | cons item rest =>
      unfold readItems
      rw [read_back_faithful item faithful.1, read_items_faithful rest faithful.2]

theorem read_under_faithful (entries : List (PyStr × Value)) (faithful : FaithfulUnder entries) :
    ∀ entry ∈ entries, rejoin entry.1 = entry.1 ∧ readBack entry.2 = entry.2 := by
  cases entries with
  | nil => simp
  | cons entry rest =>
      have ⟨key, value⟩ := entry
      have joined := (rejoin_eq_self_iff key).mpr faithful.1
      exact List.forall_mem_cons.mpr
        ⟨⟨joined, read_back_faithful value faithful.2.1⟩, read_under_faithful rest faithful.2.2⟩

end

end Values

section Reading

variable {indent : Option Nat} {level depth : Nat} {text : PyStr} {value : Value}

theorem line_break_blank (indent : Option Nat) (level : Nat) :
    ∀ c ∈ lineBreak indent level, isJsonSpace c = true := by
  intro c member
  cases indent with
  | none => cases member
  | some width =>
      cases List.mem_cons.mp member with
      | inl first =>
          rw [first]
          decide
      | inr space =>
          rw [List.eq_of_mem_replicate space]
          decide

theorem comma_gap_blank (indent : Option Nat) (level : Nat) :
    ∀ c ∈ commaGap indent level, isJsonSpace c = true := by
  unfold commaGap
  split_ifs
  · intro c member
    rw [List.mem_singleton.mp member]
    decide
  · exact line_break_blank indent level

theorem boundary_of_gap {gap : PyStr} (blank : ∀ c ∈ gap, isJsonSpace c = true) {mark : CodePoint}
    (is_mark : isMark mark = true) (after : PyStr) : Boundary (gap ++ mark :: after) := by
  cases gap with
  | nil => exact boundary_cons (mark_outside is_mark)
  | cons c rest => exact boundary_cons (space_outside (blank c List.mem_cons_self))

theorem spells_mark {gap after rest : PyStr} {tokens : List PyStr}
    (blank : ∀ c ∈ gap, isJsonSpace c = true) {mark : CodePoint} (is_mark : isMark mark = true)
    (more : Spells tokens rest after) : Spells ([mark] :: tokens) rest (gap ++ mark :: after) :=
  Spells.token blank (.mark is_mark) (fits_mark is_mark after) more

theorem spells_gap {gap text rest token : PyStr} {tokens : List PyStr}
    (blank : ∀ c ∈ gap, isJsonSpace c = true) (more : Spells (token :: tokens) rest text) :
    Spells (token :: tokens) rest (gap ++ text) := by
  generalize whole : token :: tokens = all at more
  cases more with
  | done => cases whole
  | @token inner first text _ others inside is_token fits later =>
      rw [← List.append_assoc]
      apply Spells.token _ is_token fits later
      intro c member
      cases List.mem_append.mp member with
      | inl outer => exact blank c outer
      | inr within => exact inside c within

/-- What a value spells, whatever stands behind it. -/
def Writes (depth : Nat) (part : Part) (text : PyStr) : Prop :=
  ∃ tokens, Reads depth part tokens ∧ ∀ after, Boundary after → Spells tokens after (text ++ after)

theorem writes_word {word : PyStr} (read : wordPair word = .ok (value, [])) :
    Writes depth (.value value) word := by
  have ⟨front, present, chars, same, _⟩ := word_pair_again read
  rw [List.append_nil] at same
  subst same
  refine ⟨[word], .word present chars read, fun after ends => ?_⟩
  cases word with
  | nil => exact absurd rfl present
  | cons c more => exact @Spells.token [] _ _ _ _ (by simp) (.word chars) (fun _ => ends) (.done _)

theorem writes_string (s : PyStr) : Writes depth (.value (.str (rejoin s))) (writeString s) := by
  have read := string_pair_written s []
  have ⟨body, quoted, same⟩ := string_pair_quoted read
  rw [List.append_nil] at same
  refine ⟨[writeString s], .string read, fun after _ => ?_⟩
  have token : Token (writeString s) := .string (same ▸ quoted)
  exact @Spells.token [] _ _ _ _ (by simp) token (fits_string _ _) (.done _)

/-- The parts of a container behind its opening mark, up to the closing one. -/
def WritesParts (depth : Nat) (part : Part) (gap : PyStr) (closing : CodePoint)
    (parts : List PyStr) : Prop :=
  ∃ tokens, Reads depth part tokens ∧ ∀ last after, (∀ c ∈ last, isJsonSpace c = true) →
    Spells tokens after (joinParts gap parts ++ (last ++ closing :: after))

theorem join_parts_append {gap part : PyStr} {parts : List PyStr} (present : parts ≠ [])
    (tail : PyStr) : joinParts gap (part :: parts) ++ tail =
      part ++ ofChar ',' :: (gap ++ (joinParts gap parts ++ tail)) := by
  cases parts with
  | nil => exact absurd rfl present
  | cons next rest =>
      have joined : joinParts gap (part :: next :: rest) =
          part ++ ofChar ',' :: (gap ++ joinParts gap (next :: rest)) := rfl
      rw [joined, List.append_assoc, List.cons_append, List.append_assoc]

section Parts

variable {tokens : List PyStr} {part gap : PyStr}

theorem spells_last (spelled : ∀ after, Boundary after → Spells tokens after (part ++ after))
    {closing : CodePoint} (closes : isMark closing = true) (last after : PyStr)
    (blank : ∀ c ∈ last, isJsonSpace c = true) :
    Spells (tokens ++ [[closing]]) after (part ++ (last ++ closing :: after)) :=
  (spelled _ (boundary_of_gap blank closes after)).append (spells_mark blank closes (.done after))

theorem spells_more (spelled : ∀ after, Boundary after → Spells tokens after (part ++ after))
    (blank : ∀ c ∈ gap, isJsonSpace c = true) {token text rest : PyStr} {others : List PyStr}
    (more : Spells (token :: others) rest text) :
    Spells (tokens ++ [ofChar ','] :: token :: others) rest
      (part ++ ofChar ',' :: (gap ++ text)) := by
  have comma : isMark (ofChar ',') = true := by decide
  have front := spelled (ofChar ',' :: (gap ++ text)) (boundary_cons (mark_outside comma))
  apply front.append
  exact @spells_mark [] _ _ _ (by simp) _ comma (spells_gap blank more)

theorem spells_member (spelled : ∀ after, Boundary after → Spells tokens after (part ++ after))
    {token : PyStr} {others : List PyStr} (shape : tokens = token :: others) (key : PyStr)
    (after : PyStr) (ends : Boundary after) :
    Spells (writeString key :: [ofChar ':'] :: tokens) after
      ((writeString key ++ (": " : PyStr) ++ part) ++ after) := by
  have colon : isMark (ofChar ':') = true := by decide
  have space : ∀ c ∈ [ofChar ' '], isJsonSpace c = true := by
    intro c member
    rw [List.mem_singleton.mp member]
    decide
  have ⟨body, quoted, same⟩ := string_pair_quoted (string_pair_written key [])
  rw [List.append_nil] at same
  have token : Token (writeString key) := .string (same ▸ quoted)
  have value := spelled after ends
  rw [shape] at value ⊢
  have behind := @spells_mark [] _ _ _ (by simp) _ colon (spells_gap space value)
  have whole := @Spells.token [] _ _ _ _ (by simp) token (fits_string _ _) behind
  have text : (writeString key ++ (": " : PyStr) ++ part) ++ after =
      [] ++ (writeString key ++ ([] ++ ofChar ':' :: ([ofChar ' '] ++ (part ++ after)))) := by
    rw [List.append_assoc, List.append_assoc]
    rfl
  rw [text]
  exact whole

end Parts

theorem writes_enclosed {opening closing : CodePoint} {parts : List PyStr} (present : parts ≠ [])
    (opens : isMark opening = true) {part whole : Part}
    (reads : ∀ tokens, Reads depth part tokens → Reads (depth + 1) whole ([opening] :: tokens))
    (inside : WritesParts depth part (commaGap indent (level + 1)) closing parts) :
    Writes (depth + 1) whole (enclose indent level opening closing parts) := by
  have ⟨tokens, read, spelled⟩ := inside
  have ⟨token, others, shape, _⟩ := read.opens
  refine ⟨[opening] :: tokens, reads tokens read, fun after _ => ?_⟩
  have behind := spelled (lineBreak indent level) after (line_break_blank indent level)
  rw [shape] at behind ⊢
  have front := spells_gap (line_break_blank indent (level + 1)) behind
  have text : enclose indent level opening closing parts ++ after =
      [] ++ opening :: (lineBreak indent (level + 1) ++
        (joinParts (commaGap indent (level + 1)) parts ++
          (lineBreak indent level ++ closing :: after))) := by
    unfold enclose
    rw [if_neg (by simpa using present)]
    simp only [List.cons_append, List.append_assoc, List.nil_append]
  rw [text]
  exact spells_mark (by simp) opens front

theorem writes_empty {opening closing : CodePoint} (opens : isMark opening = true)
    (closes : isMark closing = true) {whole : Part}
    (read : Reads (depth + 1) whole [[opening], [closing]]) :
    Writes (depth + 1) whole (enclose indent level opening closing []) := by
  refine ⟨_, read, fun after _ => ?_⟩
  exact @spells_mark [] _ _ _ (by simp) _ opens (@spells_mark [] _ _ _ (by simp) _ closes (.done after))

mutual

/-- A text that was written is read as the grammar has it, and as the value it was written for. -/
theorem dumps_reads (level depth : Nat) (value : Value) {text : PyStr} (floats : FloatsRead value)
    (written : dumpsAt indent level depth value = .ok text) :
    Writes depth (.value (readBack value)) text := by
  cases value with
  | null =>
      cases written
      exact writes_word rfl
  | bool b =>
      cases written
      cases b <;> exact writes_word rfl
  | int n => exact writes_word (write_int_read written)
  | float x =>
      cases written
      exact writes_word floats
  | str s =>
      cases written
      exact writes_string s
  | list items =>
      cases depth with
      | zero => cases written
      | succ depth =>
          have ⟨parts, inside, enclosed⟩ := bind_returns_iff.mp written
          cases enclosed
          cases items with
          | nil =>
              cases inside
              exact writes_empty (by decide) (by decide) .empty_array
          | cons item rest =>
              have ⟨present, own⟩ := dumps_items_read (level + 1) depth item rest floats inside
              exact writes_enclosed present (by decide) (fun _ read => .array read) own
  | dict entries =>
      cases depth with
      | zero => cases written
      | succ depth =>
          have ⟨parts, inside, enclosed⟩ := bind_returns_iff.mp written
          cases enclosed
          cases entries with
          | nil =>
              cases inside
              exact writes_empty (by decide) (by decide) .empty_object
          | cons entry rest =>
              have ⟨present, own⟩ := dumps_entries_read (level + 1) depth [] entry rest floats inside
              exact writes_enclosed present (by decide) (fun _ read => .object read) own

theorem dumps_items_read (level depth : Nat) (item : Value) (rest : List Value)
    {parts : List PyStr} (floats : FloatsReadIn (item :: rest))
    (written : dumpsItems indent level depth (item :: rest) = .ok parts) :
    parts ≠ [] ∧ WritesParts depth (.items (readItems (item :: rest))) (commaGap indent level)
      (ofChar ']') parts := by
  have ⟨part, first, more⟩ := bind_returns_iff.mp written
  have ⟨others, second, shape⟩ := bind_returns_iff.mp more
  have ⟨tokens, read, spelled⟩ := dumps_reads level depth item floats.1 first
  cases shape
  refine ⟨List.cons_ne_nil _ _, ?_⟩
  cases rest with
  | nil =>
      cases second
      exact ⟨_, .last_item read, spells_last spelled (by decide)⟩
  | cons next rest =>
      have ⟨present, behind⟩ := dumps_items_read level depth next rest floats.2 second
      have ⟨later, reads, spells⟩ := behind
      have ⟨token, tail, opens, _⟩ := reads.opens
      refine ⟨_, .item read reads, fun last after blank => ?_⟩
      have more := spells last after blank
      rw [opens] at more ⊢
      rw [join_parts_append present]
      exact spells_more spelled (comma_gap_blank indent level) more

theorem dumps_entries_read (level depth : Nat) (start : List (PyStr × Value))
    (entry : PyStr × Value) (rest : List (PyStr × Value)) {parts : List PyStr}
    (floats : FloatsReadUnder (entry :: rest))
    (written : dumpsEntries indent level depth (entry :: rest) = .ok parts) :
    parts ≠ [] ∧ WritesParts depth (.members start (readEntries start (entry :: rest)))
      (commaGap indent level) (ofChar '}') parts := by
  have ⟨key, value⟩ := entry
  have ⟨part, first, more⟩ := bind_returns_iff.mp written
  have ⟨others, second, shape⟩ := bind_returns_iff.mp more
  have ⟨tokens, read, spelled⟩ := dumps_reads level depth value floats.1 first
  have ⟨head, body, opening, _⟩ := read.opens
  have member := spells_member spelled opening key
  have named := string_pair_written key []
  cases shape
  refine ⟨List.cons_ne_nil _ _, ?_⟩
  cases rest with
  | nil =>
      cases second
      exact ⟨_, .last_member named read, spells_last member (by decide)⟩
  | cons next rest =>
      have ⟨present, behind⟩ := dumps_entries_read level depth
        (setEntry (rejoin key) (readBack value) start) next rest floats.2 second
      have ⟨later, reads, spells⟩ := behind
      have ⟨token, tail, opens, _⟩ := reads.opens
      refine ⟨_, .member named read reads, fun last after blank => ?_⟩
      have more := spells last after blank
      rw [opens] at more ⊢
      rw [join_parts_append present]
      exact spells_more member (comma_gap_blank indent level) more

end

theorem Reads.deeper {depth deeper : Nat} {part : Part} {tokens : List PyStr}
    (reads : Reads depth part tokens) (bound : depth ≤ deeper) : Reads deeper part tokens := by
  induction reads generalizing deeper with
  | string read => exact .string read
  | word present chars read => exact .word present chars read
  | empty_object =>
      cases deeper with
      | zero => omega
      | succ deeper => exact .empty_object
  | object _ ih =>
      cases deeper with
      | zero => omega
      | succ deeper => exact .object (ih (by omega))
  | empty_array =>
      cases deeper with
      | zero => omega
      | succ deeper => exact .empty_array
  | array _ ih =>
      cases deeper with
      | zero => omega
      | succ deeper => exact .array (ih (by omega))
  | last_member named _ ih => exact .last_member named (ih bound)
  | member named _ _ first second => exact .member named (first bound) (second bound)
  | last_item _ ih => exact .last_item (ih bound)
  | item _ _ first second => exact .item (first bound) (second bound)

theorem loads_dumps [Interpreter] (floats : FloatsRead value)
    (written : dumpsAt indent level depth value = .ok text) (bound : depth ≤ Interpreter.scanDepth) :
    loadsText text = .ok (readBack value) := by
  have ⟨tokens, reads, spelled⟩ := dumps_reads level depth value floats written
  have whole := spelled [] (by simp [Boundary])
  rw [List.append_nil] at whole
  exact loads_text_ok_iff.mpr ⟨tokens, [], reads.deeper bound, whole, by simp⟩

mutual

theorem dumps_deeper (level : Nat) {depth deeper : Nat} (bound : depth ≤ deeper) (value : Value)
    {text : PyStr} (written : dumpsAt indent level depth value = .ok text) :
    dumpsAt indent level deeper value = .ok text := by
  cases value with
  | null => exact written
  | bool _ => exact written
  | int _ => exact written
  | float _ => exact written
  | str _ => exact written
  | list items =>
      cases depth with
      | zero => cases written
      | succ depth =>
          have ⟨more, same⟩ : ∃ more, deeper = more + 1 := ⟨deeper - 1, by omega⟩
          have ⟨parts, inside, enclosed⟩ := bind_returns_iff.mp written
          subst same
          exact bind_returns_iff.mpr
            ⟨parts, dumps_items_deeper (level + 1) (by omega) items inside, enclosed⟩
  | dict entries =>
      cases depth with
      | zero => cases written
      | succ depth =>
          have ⟨more, same⟩ : ∃ more, deeper = more + 1 := ⟨deeper - 1, by omega⟩
          have ⟨parts, inside, enclosed⟩ := bind_returns_iff.mp written
          subst same
          exact bind_returns_iff.mpr
            ⟨parts, dumps_entries_deeper (level + 1) (by omega) entries inside, enclosed⟩

theorem dumps_items_deeper (level : Nat) {depth deeper : Nat} (bound : depth ≤ deeper)
    (items : List Value) {parts : List PyStr}
    (written : dumpsItems indent level depth items = .ok parts) :
    dumpsItems indent level deeper items = .ok parts := by
  cases items with
  | nil => exact written
  | cons item rest =>
      have ⟨part, first, more⟩ := bind_returns_iff.mp written
      have ⟨others, second, shape⟩ := bind_returns_iff.mp more
      exact bind_returns_iff.mpr ⟨part, dumps_deeper level bound item first,
        bind_returns_iff.mpr ⟨others, dumps_items_deeper level bound rest second, shape⟩⟩

theorem dumps_entries_deeper (level : Nat) {depth deeper : Nat} (bound : depth ≤ deeper)
    (entries : List (PyStr × Value)) {parts : List PyStr}
    (written : dumpsEntries indent level depth entries = .ok parts) :
    dumpsEntries indent level deeper entries = .ok parts := by
  cases entries with
  | nil => exact written
  | cons entry rest =>
      have ⟨key, value⟩ := entry
      have ⟨part, first, more⟩ := bind_returns_iff.mp written
      have ⟨others, second, shape⟩ := bind_returns_iff.mp more
      exact bind_returns_iff.mpr ⟨part, dumps_deeper level bound value first,
        bind_returns_iff.mpr ⟨others, dumps_entries_deeper level bound rest second, shape⟩⟩

end

theorem dumps_entries_returns_iff (level depth : Nat) (entries : List (PyStr × Value)) :
    (∃ parts, dumpsEntries indent level depth entries = .ok parts) ↔
      ∀ entry ∈ entries, ∃ text, dumpsAt indent level depth entry.2 = .ok text := by
  induction entries with
  | nil => exact iff_of_true ⟨[], rfl⟩ (by simp)
  | cons entry rest ih =>
      have ⟨key, value⟩ := entry
      rw [List.forall_mem_cons, ← ih]
      constructor
      · intro returned
        have ⟨parts, written⟩ := returned
        have ⟨part, first, more⟩ := bind_returns_iff.mp written
        have ⟨others, second, _⟩ := bind_returns_iff.mp more
        exact ⟨⟨part, first⟩, others, second⟩
      · intro each
        have ⟨⟨part, first⟩, others, second⟩ := each
        exact ⟨_, bind_returns_iff.mpr ⟨part, first, bind_returns_iff.mpr ⟨others, second, rfl⟩⟩⟩

theorem dumps_dict_returns_iff (level depth : Nat) (entries : List (PyStr × Value)) :
    (∃ text, dumpsAt indent level (depth + 1) (.dict entries) = .ok text) ↔
      ∀ entry ∈ entries, ∃ text, dumpsAt indent (level + 1) depth entry.2 = .ok text := by
  rw [← dumps_entries_returns_iff]
  exact map_returns_iff

end Reading

section Characters

/-- A character from the space to the tilde. -/
def Shown (c : CodePoint) : Prop := 0x20 ≤ c.val ∧ c.val ≤ 0x7E

instance : DecidablePred Shown := fun c => inferInstanceAs (Decidable (0x20 ≤ c.val ∧ c.val ≤ 0x7E))

theorem hex_digits_shown (width n : Nat) : ∀ c ∈ hexDigits width n, Shown (ofChar c) := by
  induction width generalizing n with
  | zero => simp [hexDigits]
  | succ width ih =>
      intro c member
      unfold hexDigits at member
      cases List.mem_append.mp member with
      | inl front => exact ih _ c front
      | inr last =>
          have every : ∀ n < 16, Shown (ofChar (Nat.digitChar n)) := by decide
          rw [List.mem_singleton.mp last]
          exact every _ (Nat.mod_lt _ (by decide))

theorem of_text_shown {text : Str} (chars : ∀ c ∈ text, Shown (ofChar c)) :
    ∀ c ∈ ofText text, Shown c := by
  intro c member
  have ⟨char, inside, same⟩ := List.mem_map.mp member
  rw [← same]
  exact chars char inside

theorem unicode_escape_shown (n : Nat) : ∀ c ∈ unicodeEscape n, Shown c := by
  apply of_text_shown
  intro c member
  cases List.mem_cons.mp member with
  | inl slash =>
      rw [slash]
      decide
  | inr rest =>
      cases List.mem_cons.mp rest with
      | inl letter =>
          rw [letter]
          decide
      | inr digit => exact hex_digits_shown 4 n c digit

theorem escape_code_shown (c : CodePoint) : ∀ d ∈ escapeCode c, Shown d := by
  have written := escaped c
  generalize escapeCode c = text at written
  cases written with
  | short escape listed same =>
      have letters : ∀ escape ∈ shortEscapes, Shown (ofChar escape.2) := by decide
      intro d member
      cases List.mem_cons.mp member with
      | inl slash =>
          rw [slash]
          decide
      | inr letter =>
          rw [List.mem_singleton.mp letter]
          exact letters escape listed
  | plain shown quote slash =>
      intro d member
      rw [List.mem_singleton.mp member]
      exact shown
  | unit small hidden => exact unicode_escape_shown c.val
  | pair beyond =>
      intro d member
      cases List.mem_append.mp member with
      | inl high => exact unicode_escape_shown _ d high
      | inr low => exact unicode_escape_shown _ d low

theorem write_string_shown (s : PyStr) : ∀ c ∈ writeString s, Shown c := by
  have quote : Shown (ofChar '"') := by decide
  intro c member
  cases List.mem_cons.mp member with
  | inl opens =>
      rw [opens]
      exact quote
  | inr rest =>
      cases List.mem_append.mp rest with
      | inl inside =>
          have ⟨d, _, escape⟩ := List.mem_flatMap.mp inside
          exact escape_code_shown d c escape
      | inr closes =>
          rw [List.mem_singleton.mp closes]
          exact quote

theorem digit_shown {c : Char} (digit : c.isDigit = true) : Shown (ofChar c) := by
  have bounds : 48 ≤ c.toNat ∧ c.toNat ≤ 57 := by
    simpa [Char.isDigit, UInt32.le_iff_toNat_le] using digit
  have every : ∀ n < 10, Shown (ofChar (Char.ofNat (48 + n))) := by decide
  have same : Char.ofNat (48 + (c.toNat - 48)) = c := by
    rw [Nat.add_sub_cancel' bounds.1]
    exact Char.ofNat_toNat c
  rw [← same]
  exact every _ (by omega)

theorem digits_shown (n : Nat) : ∀ c ∈ (toString n).toList, Shown (ofChar c) := by
  intro c member
  rw [Nat.toString_eq_repr, Nat.toList_repr] at member
  exact digit_shown (Nat.isDigit_of_mem_toDigits (by decide) (by decide) member)

theorem lay_out_shown {digits : Str} (shown : ∀ c ∈ digits, Shown (ofChar c)) (point : Int) :
    ∀ c ∈ layOut digits point, Shown (ofChar c) := by
  have exponents := digits_shown (point - 1).natAbs
  have zeros : ∀ count, ∀ c ∈ List.replicate count '0', Shown (ofChar c) := by
    intro count c member
    rw [List.eq_of_mem_replicate member]
    decide
  have taken : ∀ count, ∀ c ∈ digits.take count, Shown (ofChar c) :=
    fun count c member => shown c (List.mem_of_mem_take member)
  have dropped : ∀ count, ∀ c ∈ digits.drop count, Shown (ofChar c) :=
    fun count c member => shown c (List.mem_of_mem_drop member)
  have dot : Shown (ofChar '.') := by decide
  have power : Shown (ofChar 'e') := by decide
  have sign : Shown (ofChar (if point - 1 < 0 then '-' else '+')) := by
    split_ifs <;> decide
  have rest : ∀ c ∈ (if digits.length = 1 then [] else '.' :: digits.drop 1), Shown (ofChar c) := by
    split_ifs
    · simp
    · exact List.forall_mem_cons.mpr ⟨dot, dropped 1⟩
  unfold layOut
  by_cases fixed : -4 < point ∧ point ≤ 16
  · rw [if_pos fixed]
    split_ifs
    · exact List.forall_mem_append.mpr
        ⟨List.forall_mem_append.mpr ⟨List.all_iff_forall_prop.mp (by decide), zeros _⟩, shown⟩
    · exact List.forall_mem_append.mpr
        ⟨List.forall_mem_append.mpr ⟨shown, zeros _⟩, List.all_iff_forall_prop.mp (by decide)⟩
    · exact List.forall_mem_append.mpr
        ⟨taken _, List.forall_mem_cons.mpr ⟨dot, dropped _⟩⟩
  · rw [if_neg fixed]
    exact List.forall_mem_append.mpr ⟨List.forall_mem_append.mpr ⟨taken 1, rest⟩,
      List.forall_mem_cons.mpr ⟨power, List.forall_mem_cons.mpr ⟨sign,
        List.forall_mem_append.mpr ⟨zeros _, exponents⟩⟩⟩⟩

theorem repr_float_shown (x : Float) : ∀ c ∈ reprFloat x, Shown (ofChar c) := by
  unfold reprFloat
  split
  · exact List.all_iff_forall_prop.mp (by decide)
  · exact List.all_iff_forall_prop.mp (by decide)
  · exact List.all_iff_forall_prop.mp (by decide)
  · exact List.all_iff_forall_prop.mp (by decide)
  · exact List.all_iff_forall_prop.mp (by decide)
  · rename_i sign mantissa exponent valid unpacked
    intro c member
    cases List.mem_append.mp member with
    | inl signed =>
        cases sign with
        | negative =>
            rw [List.mem_singleton.mp signed]
            decide
        | positive => cases signed
    | inr digits =>
        apply lay_out_shown _ _ c digits
        intro d digit
        exact digits_shown _ d ((List.rdropWhile_prefix _ _).subset digit)

theorem float_text_shown (x : Float) : ∀ c ∈ floatText x, Shown (ofChar c) := by
  unfold floatText
  split
  · exact List.all_iff_forall_prop.mp (by decide)
  · exact List.all_iff_forall_prop.mp (by decide)
  · exact List.all_iff_forall_prop.mp (by decide)
  · exact repr_float_shown x

theorem join_parts_shown {gap : PyStr} {parts : List PyStr} (blank : ∀ c ∈ gap, Shown c)
    (each : ∀ part ∈ parts, ∀ c ∈ part, Shown c) : ∀ c ∈ joinParts gap parts, Shown c := by
  induction parts with
  | nil => simp [joinParts]
  | cons part rest ih =>
      have own := each part List.mem_cons_self
      have others := ih fun part member => each part (List.mem_cons_of_mem _ member)
      cases rest with
      | nil => exact own
      | cons next rest =>
          have comma : Shown (ofChar ',') := by decide
          exact List.forall_mem_append.mpr ⟨own, List.forall_mem_cons.mpr
            ⟨comma, List.forall_mem_append.mpr ⟨blank, others⟩⟩⟩

theorem enclose_shown {level : Nat} {opening closing : CodePoint} {parts : List PyStr}
    (opens : Shown opening) (closes : Shown closing) (each : ∀ part ∈ parts, ∀ c ∈ part, Shown c) :
    ∀ c ∈ enclose none level opening closing parts, Shown c := by
  have space : ∀ c ∈ commaGap none (level + 1), Shown c := by
    intro c member
    rw [List.mem_singleton.mp member]
    decide
  have last : ∀ c ∈ [closing], Shown c := List.forall_mem_singleton.mpr closes
  unfold enclose
  split_ifs
  · exact List.forall_mem_cons.mpr ⟨opens, last⟩
  · exact List.forall_mem_cons.mpr
      ⟨opens, List.forall_mem_append.mpr ⟨by simp [lineBreak], List.forall_mem_append.mpr
        ⟨join_parts_shown space each, List.forall_mem_append.mpr ⟨by simp [lineBreak], last⟩⟩⟩⟩

theorem write_int_shown {n : Int} {text : PyStr} (written : writeInt n = .ok text) :
    ∀ c ∈ text, Shown c := by
  unfold writeInt at written
  split_ifs at written
  cases written
  apply of_text_shown
  rw [Int.toString_eq_repr, Int.repr_eq_if]
  split_ifs
  · exact digits_shown n.toNat
  · rw [String.toList_append]
    exact List.forall_mem_append.mpr ⟨List.all_iff_forall_prop.mp (by decide), digits_shown (-n).toNat⟩

mutual

theorem dumps_shown (level depth : Nat) (value : Value) {text : PyStr}
    (written : dumpsAt none level depth value = .ok text) : ∀ c ∈ text, Shown c := by
  cases value with
  | null =>
      cases written
      exact List.all_iff_forall_prop.mp (by decide)
  | bool b =>
      cases written
      cases b
      · exact List.all_iff_forall_prop.mp (by decide)
      · exact List.all_iff_forall_prop.mp (by decide)
  | int n => exact write_int_shown written
  | float x =>
      cases written
      exact of_text_shown (float_text_shown x)
  | str s =>
      cases written
      exact write_string_shown s
  | list items =>
      cases depth with
      | zero => cases written
      | succ depth =>
          have ⟨parts, inside, enclosed⟩ := bind_returns_iff.mp written
          cases enclosed
          exact enclose_shown (by decide) (by decide)
            (dumps_items_shown (level + 1) depth items inside)
  | dict entries =>
      cases depth with
      | zero => cases written
      | succ depth =>
          have ⟨parts, inside, enclosed⟩ := bind_returns_iff.mp written
          cases enclosed
          exact enclose_shown (by decide) (by decide)
            (dumps_entries_shown (level + 1) depth entries inside)

theorem dumps_items_shown (level depth : Nat) (items : List Value) {parts : List PyStr}
    (written : dumpsItems none level depth items = .ok parts) :
    ∀ part ∈ parts, ∀ c ∈ part, Shown c := by
  cases items with
  | nil =>
      cases written
      simp
  | cons item rest =>
      have ⟨part, first, more⟩ := bind_returns_iff.mp written
      have ⟨others, second, shape⟩ := bind_returns_iff.mp more
      cases shape
      exact List.forall_mem_cons.mpr
        ⟨dumps_shown level depth item first, dumps_items_shown level depth rest second⟩

theorem dumps_entries_shown (level depth : Nat) (entries : List (PyStr × Value))
    {parts : List PyStr} (written : dumpsEntries none level depth entries = .ok parts) :
    ∀ part ∈ parts, ∀ c ∈ part, Shown c := by
  cases entries with
  | nil =>
      cases written
      simp
  | cons entry rest =>
      have ⟨key, value⟩ := entry
      have ⟨part, first, more⟩ := bind_returns_iff.mp written
      have ⟨others, second, shape⟩ := bind_returns_iff.mp more
      have colon : ∀ c ∈ ofText ": ".toList, Shown c := List.all_iff_forall_prop.mp (by decide)
      cases shape
      exact List.forall_mem_cons.mpr ⟨List.forall_mem_append.mpr
        ⟨List.forall_mem_append.mpr ⟨write_string_shown key, colon⟩,
          dumps_shown level depth value first⟩, dumps_entries_shown level depth rest second⟩

end

end Characters

end DearAgent.Lib.Json
