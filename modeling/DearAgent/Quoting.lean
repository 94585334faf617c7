import Mathlib.Tactic.IntervalCases
import DearAgent.Notify
import DearAgent.Replies

/-!
# Replies that quote the request

An answer to an approval request usually carries the request itself, quoted
line by line, below or above what its author wrote. The request ends with both
commands and the live token, so the parser sees them too.
-/

namespace DearAgent

open DearAgent.Lib.Text DearAgent.Lib.Regex DearAgent.Queue

set_option autoImplicit false

def quoteLine (line : Str) : Str := "> ".toList ++ line

def quoted (request : Str) : List Str := (splitlines request).map quoteLine

section Lines

end Lines

theorem hex_digit_listed (c : Char) (hex : (c.isDigit || ('a' ≤ c && c ≤ 'f')) = true) :
    c ∈ "0123456789abcdef".toList := by
  have range : (48 ≤ c.toNat ∧ c.toNat ≤ 57) ∨ (97 ≤ c.toNat ∧ c.toNat ≤ 102) := by
    simp only [Char.isDigit, Bool.or_eq_true, Bool.and_eq_true, decide_eq_true_eq] at hex
    exact hex
  rw [← Char.ofNat_toNat c]
  generalize c.toNat = n at range
  rcases range with ⟨low, high⟩ | ⟨low, high⟩ <;> interval_cases n <;> decide

theorem token_chars {token : Str} (hex : isTokenHex token) (accepts : Char → Prop)
    (each : ∀ c ∈ "0123456789abcdef".toList, accepts c) : ∀ c ∈ token, accepts c :=
  fun c member => each c (hex_digit_listed c (hex.2 c member))

variable [Unicode]

theorem mem_run_seq {first second : Pattern} {c middle stop : Cursor}
    (begins : middle ∈ run first c) (ends : stop ∈ run second middle) :
    stop ∈ run (.seq first second) c := List.mem_flatMap.mpr ⟨middle, begins, ends⟩

theorem ascii_word (c : Char) (ascii : c.val < 128) (letter : c.isAlphanum = true) :
    isWord c = true := by
  rw [isWord, Unicode.alnum_ascii c ascii, letter, Bool.true_or]

theorem ascii_not_word (c : Char) (ascii : c.val < 128) (symbol : c.isAlphanum = false)
    (notUnderscore : c ≠ '_') : isWord c = false := by
  rw [isWord, Unicode.alnum_ascii c ascii, symbol]
  simpa using notUnderscore

theorem token_chars_word {token : Str} (hex : isTokenHex token) : ∀ c ∈ token, isWord c = true := by
  apply token_chars hex
  have digits : ∀ c ∈ "0123456789abcdef".toList, c.val < 128 ∧ c.isAlphanum = true :=
    every_char (by decide)
  exact fun c member => ascii_word c (digits c member).1 (digits c member).2

section Bodies

variable (task : Task) (summary : Str) (links : Option Notifier.TaskLinks) (token : Str)
  (hex : isTokenHex token)

include hex

end Bodies

/-!
## When a reply means what its author wrote
-/

section Example

end Example

end DearAgent
