import DearAgent.Verify

/-!
# The allowlist of commands

`DEAR_AGENT_VERIFY_ALLOW` is split at commas and semicolons before its parts are read as command
lines. A command line can be written for every list of words; but a word with a separator in it,
quoted or not, is torn apart, and its entry never stands in the list.
-/

namespace DearAgent

open DearAgent.Lib.Text

set_option autoImplicit false

/-- `_argv`. -/
def argvOf (command : Str) : Option (List Str) :=
  match Shlex.split command with
  | .error _ => none
  | .ok argv => if argv.isEmpty then none else some argv

def isSeparator (c : Char) : Bool := c = ',' || c = ';'

/-- `value.replace(";", ",").split(",")`. -/
def allowParts (value : Str) : List Str :=
  splitAt (· = ',') (value.map fun c => if c = ';' then ',' else c)

namespace CommandVerifier

def fromEnv (value : Option Str) (sandbox : Option Sandbox) : CommandVerifier where
  allowed := (allowParts (value.getD [])).filterMap argvOf
  sandbox := sandbox

def allows (verifier : CommandVerifier) (command : Str) : Bool :=
  (argvOf command).any fun argv => verifier.allowed.contains argv

end CommandVerifier

/-!
## What the words are made of
-/

namespace Shlex

theorem words_of_emit {fine : Char → Prop} {token : Str} {quoted : Bool} {rest : List Str}
    (pending : ∀ c ∈ token, fine c) (later : ∀ word ∈ rest, ∀ c ∈ word, fine c) :
    ∀ word ∈ emit token quoted rest, ∀ c ∈ word, fine c := by
  unfold emit
  split_ifs
  · exact later
  · intro word member
    cases List.mem_cons.mp member with
    | inl same =>
        rw [same]
        exact pending
    | inr among => exact later word among

def Mode.escapes : Mode → Bool
  | .escape (some _) => true
  | _ => false

/-- The words hold no character but those of the text; inside double quotes a backslash that
escapes nothing is one of them. -/
theorem tokens_of_chars (fine : Char → Prop) (text : Str) (mode : Mode) (token : Str) (quoted : Bool)
    (tokens : List Str) (read : tokensFrom mode token quoted text = .ok tokens)
    (pending : ∀ c ∈ token, fine c) (escaping : mode.escapes = true → fine '\\')
    (given : ∀ c ∈ text, fine c) : ∀ word ∈ tokens, ∀ c ∈ word, fine c := by
  have calm : false = true → fine '\\' := fun never => absurd never Bool.false_ne_true
  induction text generalizing mode token quoted tokens with
  | nil =>
      cases mode with
      | space =>
          cases read
          intro word member
          cases member
      | word =>
          cases read
          exact words_of_emit pending (fun word member => absurd member List.not_mem_nil)
      | quotation mark => cases read
      | escape inside => cases read
  | cons c rest ih =>
      have own := given c List.mem_cons_self
      have later : ∀ d ∈ rest, fine d := fun d member => given d (List.mem_cons_of_mem _ member)
      have longer : ∀ d ∈ token ++ [c], fine d := by
        intro d member
        cases List.mem_append.mp member with
        | inl before => exact pending d before
        | inr here =>
            rw [List.mem_singleton.mp here]
            exact own
      have nothing : ∀ d ∈ ([] : Str), fine d := fun d member => absurd member List.not_mem_nil
      have one : ∀ d ∈ [c], fine d := by
        intro d member
        rw [List.mem_singleton.mp member]
        exact own
      cases mode with
      | space =>
          rw [tokensFrom] at read
          split_ifs at read
          · exact ih .space token quoted tokens read pending calm later
          · exact ih (.escape none) [] false tokens read nothing calm later
          · exact ih (.quotation c) [] false tokens read nothing calm later
          · exact ih .word [c] false tokens read one calm later
      | word =>
          rw [tokensFrom] at read
          split_ifs at read
          · cases others : tokensFrom .space [] false rest with
            | error error =>
                rw [others] at read
                cases read
            | ok found =>
                rw [others] at read
                cases read
                exact words_of_emit pending (ih .space [] false found others nothing calm later)
          · exact ih (.quotation c) token quoted tokens read pending calm later
          · exact ih (.escape none) token quoted tokens read pending calm later
          · exact ih .word (token ++ [c]) quoted tokens read longer calm later
      | quotation mark =>
          rw [tokensFrom] at read
          split_ifs at read with closes escapes
          · exact ih .word token true tokens read pending calm later
          · have backslash : c = '\\' := by
              rw [Bool.and_eq_true, decide_eq_true_eq] at escapes
              exact escapes.1
            exact ih (.escape (some mark)) token true tokens read pending
              (fun _ => backslash ▸ own) later
          · exact ih (.quotation mark) (token ++ [c]) true tokens read longer calm later
      | escape inside =>
          cases inside with
          | none => exact ih .word (token ++ [c]) quoted tokens read longer calm later
          | some mark =>
              rw [tokensFrom] at read
              apply ih (.quotation mark) _ quoted tokens read _ calm later
              intro d member
              cases List.mem_append.mp member with
              | inl before => exact pending d before
              | inr kept =>
                  split_ifs at kept
                  · cases List.mem_cons.mp kept with
                    | inl same =>
                        rw [same]
                        exact escaping rfl
                    | inr here => exact one d here
                  · exact one d kept

/-!
## Writing a command line
-/

/-- A word inside single quotes; a quote of its own stands in double quotes. -/
def quoteBody : Str → Str
  | [] => []
  | c :: rest => if c = '\'' then "'\"'\"'".toList ++ quoteBody rest else c :: quoteBody rest

def quoteWord (word : Str) : Str := '\'' :: (quoteBody word ++ ['\''])

def written (argv : List Str) : Str := join " " (argv.map quoteWord)

theorem quoted_read (word token rest : Str) (quoted : Bool) :
    tokensFrom (.quotation '\'') token quoted (quoteBody word ++ '\'' :: rest) =
      tokensFrom .word (token ++ word) true rest := by
  induction word generalizing token quoted with
  | nil => simp [quoteBody, tokensFrom]
  | cons c word ih =>
      by_cases quote : c = '\''
      · subst quote
        have torn : quoteBody ('\'' :: word) ++ '\'' :: rest =
            '\'' :: '"' :: '\'' :: '"' :: '\'' :: (quoteBody word ++ '\'' :: rest) := rfl
        have onward := ih (token ++ ['\'']) true
        rw [List.append_assoc] at onward
        rw [torn]
        simp only [tokensFrom, isQuote, isWhitespace]
        exact onward
      · have plain : quoteBody (c :: word) ++ '\'' :: rest = c :: (quoteBody word ++ '\'' :: rest) := by
          rw [quoteBody, if_neg quote, List.cons_append]
        have onward := ih (token ++ [c]) true
        rw [List.append_assoc] at onward
        rw [plain, tokensFrom, if_neg quote, if_neg (by simp)]
        exact onward

theorem emit_quoted (token : Str) (rest : List Str) : emit token true rest = token :: rest := by
  simp [emit]

theorem word_read (word rest : Str) :
    tokensFrom .space [] false (quoteWord word ++ rest) = tokensFrom .word word true rest := by
  have opened : quoteWord word ++ rest = '\'' :: (quoteBody word ++ '\'' :: rest) := by
    simp [quoteWord]
  rw [opened]
  exact quoted_read word [] rest false

theorem split_written (argv : List Str) : split (written argv) = .ok argv := by
  unfold split written
  induction argv with
  | nil => rfl
  | cons word rest ih =>
      cases rest with
      | nil =>
          have read := word_read word []
          rw [List.append_nil] at read
          refine read.trans ?_
          rw [tokensFrom, emit_quoted]
      | cons next more =>
          have parts : join " " ((word :: next :: more).map quoteWord) =
              quoteWord word ++ ' ' :: join " " ((next :: more).map quoteWord) := by
            simp only [List.map_cons, join_cons_cons]
            rfl
          have space : isWhitespace ' ' = true := by decide
          rw [parts, word_read, tokensFrom, if_pos space, ih]
          exact congrArg Except.ok (emit_quoted word _)

theorem written_chars {fine : Char → Prop} (marks : ∀ c ∈ [' ', '\'', '"'], fine c)
    {argv : List Str} (words : ∀ word ∈ argv, ∀ c ∈ word, fine c) : ∀ c ∈ written argv, fine c := by
  have space := marks ' ' (by decide)
  have quote := marks '\'' (by decide)
  have double := marks '"' (by decide)
  have bodies : ∀ word : Str, (∀ c ∈ word, fine c) → ∀ c ∈ quoteBody word, fine c := by
    intro word
    induction word with
    | nil => exact fun _ c member => absurd member List.not_mem_nil
    | cons d rest ih =>
        intro own
        have later := ih fun c member => own c (List.mem_cons_of_mem _ member)
        rw [quoteBody]
        split_ifs
        · intro c member
          cases List.mem_append.mp member with
          | inl mark =>
              have either : ∀ e ∈ "'\"'\"'".toList, e = '\'' ∨ e = '"' := every_char (by decide)
              cases either c mark with
              | inl same => exact same ▸ quote
              | inr same => exact same ▸ double
          | inr among => exact later c among
        · exact List.forall_mem_cons.mpr ⟨own d List.mem_cons_self, later⟩
  intro c member
  cases mem_join member with
  | inl between => exact List.mem_singleton.mp between ▸ space
  | inr inside =>
      obtain ⟨piece, among, here⟩ := inside
      obtain ⟨word, listed, rfl⟩ := List.mem_map.mp among
      cases List.mem_cons.mp here with
      | inl opened => exact opened ▸ quote
      | inr more =>
          cases List.mem_append.mp more with
          | inl body => exact bodies word (words word listed) c body
          | inr closed => exact List.mem_singleton.mp closed ▸ quote

end Shlex

/-!
## What can be listed
-/

theorem argv_of_some {command : Str} {argv : List Str} :
    argvOf command = some argv ↔ Shlex.split command = .ok argv ∧ argv ≠ [] := by
  unfold argvOf
  cases split : Shlex.split command with
  | error error => simp
  | ok found =>
      cases found with
      | nil =>
          constructor
          · intro never
            cases never
          · intro both
            exact absurd (Except.ok.inj both.1).symm both.2
      | cons word rest =>
          constructor
          · intro same
            cases same
            exact ⟨rfl, List.cons_ne_nil _ _⟩
          · intro both
            exact congrArg some (Except.ok.inj both.1)

theorem allow_parts_uncut (value part : Str) (member : part ∈ allowParts value) :
    ∀ c ∈ part, isSeparator c = false := by
  intro c inside
  have noComma : decide (c = ',') = false := split_at_uncut (· = ',') _ part member c inside
  have copied := mem_split_at (· = ',') _ part member c inside
  obtain ⟨d, _, same⟩ := List.mem_map.mp copied
  have noSemicolon : decide (c = ';') = false := by
    apply decide_eq_false
    intro semicolon
    rw [semicolon] at same
    split_ifs at same with already
    · cases same
    · exact already same
  unfold isSeparator
  rw [noComma, noSemicolon]
  rfl

/-- The lists of commands that a value of the variable can stand for are those of which no
command is empty and no word holds a separator. -/
theorem listable_iff (sandbox : Option Sandbox) (commands : List (List Str)) :
    (∃ value, (CommandVerifier.fromEnv (some value) sandbox).allowed = commands) ↔
      ∀ argv ∈ commands, argv ≠ [] ∧ ∀ word ∈ argv, ∀ c ∈ word, isSeparator c = false := by
  constructor
  · intro some_value
    obtain ⟨value, same⟩ := some_value
    intro argv member
    rw [← same] at member
    obtain ⟨part, among, read⟩ := List.mem_filterMap.mp member
    have both := argv_of_some.mp read
    apply And.intro both.2
    exact Shlex.tokens_of_chars (isSeparator · = false) part .space [] false argv both.1
      (fun c never => absurd never List.not_mem_nil) (fun never => absurd never Bool.false_ne_true)
      (allow_parts_uncut value part among)
  · intro fine
    have unmarked : ∀ argv ∈ commands, ∀ c ∈ Shlex.written argv, isSeparator c = false := by
      intro argv member
      exact Shlex.written_chars (every_char (by decide)) (fine argv member).2
    by_cases empty : commands = []
    · rw [empty]
      exact ⟨[], rfl⟩
    · refine ⟨join [','] (commands.map Shlex.written), ?_⟩
      have unchanged : (join [','] (commands.map Shlex.written)).map
          (fun c => if c = ';' then ',' else c) = join [','] (commands.map Shlex.written) := by
        refine (List.map_congr_left fun c member => ?_).trans (List.map_id _)
        apply if_neg
        intro semicolon
        subst semicolon
        cases mem_join member with
        | inl between => cases List.mem_singleton.mp between
        | inr inside =>
            obtain ⟨piece, among, here⟩ := inside
            obtain ⟨argv, listed, rfl⟩ := List.mem_map.mp among
            cases unmarked argv listed ';' here
      have parts : allowParts (join [','] (commands.map Shlex.written)) = commands.map Shlex.written := by
        unfold allowParts
        rw [unchanged]
        apply split_at_join (fun c => decide (c = ',')) ',' rfl
        · exact fun none_ => empty (List.map_eq_nil_iff.mp none_)
        · intro piece among c here
          obtain ⟨argv, listed, rfl⟩ := List.mem_map.mp among
          have clear := unmarked argv listed c here
          exact (Bool.or_eq_false_iff.mp clear).1
      change (allowParts (join [','] (commands.map Shlex.written))).filterMap argvOf = commands
      rw [parts, List.filterMap_map]
      have each : ∀ argv ∈ commands, (argvOf ∘ Shlex.written) argv = some argv := by
        intro argv member
        exact argv_of_some.mpr ⟨Shlex.split_written argv, (fine argv member).1⟩
      rw [List.filterMap_congr each]
      exact List.filterMap_some

end DearAgent
