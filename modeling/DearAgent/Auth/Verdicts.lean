import DearAgent.Auth.Attribution

/-!
# The first verdict

A verdict or a domain is kept under its key when it is first read. What is read
from more text only adds keys.
-/

namespace DearAgent

open DearAgent.Lib.Text DearAgent.Lib.Dictionaries DearAgent.EmailAuthGate

set_option autoImplicit false

section Texts

variable [Unicode]

theorem parsed_entries (raw : Str) :
    parseAuthenticationResults raw = Dict.empty.setDefaults (entriesOf raw) := rfl

theorem entries_of_append (raw suffix : Str) :
    entriesOf (raw ++ '\n' :: suffix) = entriesOf raw ++ entriesOf suffix := by
  have pieces : clauses (raw ++ '\n' :: suffix) = clauses raw ++ clauses suffix :=
    split_at_append _ '\n' rfl raw suffix
  rw [entriesOf, pieces, List.flatMap_append]
  rfl

/-- A verdict or a domain that a text states is the one that is read, whatever is appended
to the text. -/
theorem first_verdict_wins (raw suffix key value : Str)
    (stated : (parseAuthenticationResults raw).get key = some value) :
    (parseAuthenticationResults (raw ++ '\n' :: suffix)).get key = some value := by
  rw [parsed_entries] at stated
  rw [parsed_entries, entries_of_append, Dict.get_set_defaults_append, stated, Option.some_or]

end Texts

/-- A failed check is not made good by a second field that claims the same server. -/
theorem failed_dmarc_stays :
    let _ := asciiTables
    (parseAuthenticationResults "mx; dmarc=fail header.from=example.com").get "dmarc".toList =
        some "fail".toList ∧
      (parseAuthenticationResults ("mx; dmarc=fail header.from=example.com".toList ++
        '\n' :: "mx; dmarc=pass header.from=example.com".toList)).get "dmarc".toList =
        some "fail".toList := by
  let _ := asciiTables
  have stated : (parseAuthenticationResults "mx; dmarc=fail header.from=example.com").get
      "dmarc".toList = some "fail".toList := by decide
  exact ⟨stated, first_verdict_wins _ _ _ _ stated⟩

end DearAgent
