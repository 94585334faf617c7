import DearAgent.Errors

/-!
# The verify gate

The records of `verify.py` and the splitting of a command line, which the
allowlist of a project policy goes through when a task is claimed.
-/

namespace DearAgent

open DearAgent.Lib.Text

set_option autoImplicit false

/-- A session of a sandbox, known by its identity. -/
structure Sandbox where
  identity : Nat
deriving DecidableEq

structure VerifyResult where
  ok : Bool
  exitCode : Int
  output : Str := ""
  blocked : Bool := false
deriving DecidableEq

/-- The verifier; without a sandbox the command runs as it is. -/
structure CommandVerifier where
  allowed : List (List Str) := []
  timeoutSeconds : Int := 900
  sandbox : Option Sandbox := none
deriving DecidableEq

namespace Shlex

/-- The states of `shlex.read_token` in POSIX mode. A backslash returns to the
quotation it stands in, or to the word. -/
inductive Mode
  | space
  | word
  | quotation (mark : Char)
  | escape (inside : Option Char)
deriving DecidableEq

def isWhitespace (c : Char) : Bool := c = ' ' || c = '\t' || c = '\r' || c = '\n'

def isQuote (c : Char) : Bool := c = '\'' || c = '"'

/-- A token ends: an empty one counts only if a quotation belongs to it. -/
def emit (token : Str) (quoted : Bool) (rest : List Str) : List Str :=
  if token.isEmpty && !quoted then rest else token :: rest

/-- The tokens of a text, after the part of the current token that was read. -/
def tokensFrom : Mode → Str → Bool → Str → Except Exn (List Str)
  | .space, _, _, [] => .ok []
  | .word, token, quoted, [] => .ok (emit token quoted [])
  | .quotation _, _, _, [] => .error (.valueError "No closing quotation")
  | .escape _, _, _, [] => .error (.valueError "No escaped character")
  | .space, token, quoted, c :: rest =>
      if isWhitespace c then tokensFrom .space token quoted rest
      else if c = '\\' then tokensFrom (.escape none) [] false rest
      else if isQuote c then tokensFrom (.quotation c) [] false rest
      else tokensFrom .word [c] false rest
  | .word, token, quoted, c :: rest =>
      if isWhitespace c then (tokensFrom .space [] false rest).map (emit token quoted)
      else if isQuote c then tokensFrom (.quotation c) token quoted rest
      else if c = '\\' then tokensFrom (.escape none) token quoted rest
      else tokensFrom .word (token ++ [c]) quoted rest
  | .quotation mark, token, _, c :: rest =>
      if c = mark then tokensFrom .word token true rest
      else if c = '\\' && mark = '"' then tokensFrom (.escape (some mark)) token true rest
      else tokensFrom (.quotation mark) (token ++ [c]) true rest
  | .escape none, token, quoted, c :: rest => tokensFrom .word (token ++ [c]) quoted rest
  | .escape (some mark), token, quoted, c :: rest =>
      let kept := if c ≠ '\\' && c ≠ mark then ['\\', c] else [c]
      tokensFrom (.quotation mark) (token ++ kept) quoted rest

def split (text : Str) : Except Exn (List Str) := tokensFrom .space [] false text

example : split "pytest -k 'a b' \"\" x\\ y".toList =
    .ok ["pytest".toList, "-k".toList, "a b".toList, [], "x y".toList] := by rfl

theorem split_error (text : Str) (error : Exn) (failed : split text = .error error) :
    ∃ reason, error = .valueError reason := by
  have scanned : ∀ (text : Str) (mode : Mode) (token : Str) (quoted : Bool),
      tokensFrom mode token quoted text = .error error → ∃ reason, error = .valueError reason := by
    intro text
    induction text with
    | nil =>
        intro mode token quoted failed
        cases mode with
        | space | word => simp [tokensFrom] at failed
        | quotation mark => exact ⟨_, (Except.error.inj failed).symm⟩
        | escape inside => exact ⟨_, (Except.error.inj failed).symm⟩
    | cons c rest ih =>
        intro mode token quoted failed
        cases mode with
        | space =>
            rw [tokensFrom] at failed
            split_ifs at failed <;> exact ih _ _ _ failed
        | word =>
            rw [tokensFrom] at failed
            split_ifs at failed
            · cases later : tokensFrom .space [] false rest with
              | ok tokens =>
                  rw [later] at failed
                  cases failed
              | error other =>
                  rw [later] at failed
                  obtain rfl : other = error := Except.error.inj failed
                  exact ih _ _ _ later
            all_goals exact ih _ _ _ failed
        | quotation mark =>
            rw [tokensFrom] at failed
            split_ifs at failed <;> exact ih _ _ _ failed
        | escape inside =>
            cases inside <;> exact ih _ _ _ failed
  exact scanned text .space [] false failed

end Shlex

end DearAgent
