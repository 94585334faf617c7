import DearAgent.Lib.Grammar

/-!
# Writing the strings of JSON

`json.dumps` escapes whatever is no printable ASCII. A string is read back as it was written,
but that a high surrogate and a low one that stand side by side come back as the one character
that their escapes stand for.
-/

namespace DearAgent.Lib.Json

open DearAgent.Lib.Text DearAgent.Lib.Dictionaries DearAgent.Lib.CodePoints DearAgent.Lib.Values

set_option autoImplicit false

section Strings

def unicodeEscape (n : Nat) : PyStr := ofText ('\\' :: 'u' :: hexDigits 4 n)

def shortEscapes : List (Char × Char) :=
  [('\\', '\\'), ('"', '"'), ('\x08', 'b'), ('\x0c', 'f'), ('\n', 'n'), ('\r', 'r'), ('\t', 't')]

/-- The surrogates that stand for a character beyond the first plane. -/
def highOf (n : Nat) : Nat := 0xD800 + (n - 0x10000) / 0x400

def lowOf (n : Nat) : Nat := 0xDC00 + (n - 0x10000) % 0x400

def escapeCode (c : CodePoint) : PyStr :=
  match shortEscapes.find? fun escape => c = ofChar escape.1 with
  | some escape => [ofChar '\\', ofChar escape.2]
  | none =>
      if 0x20 ≤ c.val ∧ c.val ≤ 0x7E then [c]
      else if c.val < 0x10000 then unicodeEscape c.val
      else unicodeEscape (highOf c.val) ++ unicodeEscape (lowOf c.val)

def writeString (s : PyStr) : PyStr := ofChar '"' :: (s.flatMap escapeCode ++ [ofChar '"'])

def rejoin : PyStr → PyStr
  | [] => []
  | [c] => [c]
  | c :: d :: rest =>
      if isHigh c.val && isLow d.val then joinSurrogates c.val d.val :: rejoin rest
      else c :: rejoin (d :: rest)

def Apart (c d : CodePoint) : Prop := ¬(isHigh c.val = true ∧ isLow d.val = true)

/-- No high surrogate stands right before a low one. -/
def Unpaired (s : PyStr) : Prop := s.IsChain Apart

variable {c : CodePoint} {n : Nat} {rest after s : PyStr}

theorem hex_digit_read (small : n < 16) : hexDigit? (ofChar n.digitChar) = some n := by
  have every : ∀ n < 16, hexDigit? (ofChar (Nat.digitChar n)) = some n := by decide
  exact every n small

theorem hex_pair_written (small : n < 0x10000) (rest : PyStr) :
    hexPair (ofText (hexDigits 4 n) ++ rest) = some (n, rest) := by
  have digits : ofText (hexDigits 4 n) ++ rest =
      ofChar (Nat.digitChar (n / 16 / 16 / 16 % 16)) :: ofChar (Nat.digitChar (n / 16 / 16 % 16)) ::
        ofChar (Nat.digitChar (n / 16 % 16)) :: ofChar (Nat.digitChar (n % 16)) :: rest := rfl
  have first := hex_digit_read (Nat.mod_lt (n / 16 / 16 / 16) (by decide : 0 < 16))
  have second := hex_digit_read (Nat.mod_lt (n / 16 / 16) (by decide : 0 < 16))
  have third := hex_digit_read (Nat.mod_lt (n / 16) (by decide : 0 < 16))
  have fourth := hex_digit_read (Nat.mod_lt n (by decide : 0 < 16))
  have value : ((n / 16 / 16 / 16 % 16 * 16 + n / 16 / 16 % 16) * 16 + n / 16 % 16) * 16 + n % 16 = n := by
    omega
  rw [digits, hexPair, scanHex]
  simp only [first, second, third, fourth, Option.map_some, Scan.pair, value]

theorem escape_pair_written (small : n < 0x10000) (rest : PyStr) :
    escapePair (ofChar 'u' :: (ofText (hexDigits 4 n) ++ rest)) =
      some (((if isHigh n then lowPair rest else none).map fun low =>
        (joinSurrogates n low.1, low.2)).getD (codePoint n, rest)) := by
  rw [escape_pair_unicode, hex_pair_written small]
  rfl

theorem unicode_escape_append (n : Nat) (rest : PyStr) :
    unicodeEscape n ++ rest = ofChar '\\' :: ofChar 'u' :: (ofText (hexDigits 4 n) ++ rest) := rfl

theorem low_pair_written (small : n < 0x10000) (rest : PyStr) :
    lowPair (unicodeEscape n ++ rest) = if isLow n then some (n, rest) else none := by
  rw [unicode_escape_append, low_pair_cons, if_pos (by decide), hex_pair_written small,
    Option.filter_some]

theorem lone_escape_read (small : n < 0x10000)
    (alone : (if isHigh n then lowPair rest else none) = none) :
    stringPair (unicodeEscape n ++ rest) =
      (stringPair rest).map fun more => (codePoint n :: more.1, more.2) := by
  rw [unicode_escape_append, string_pair_escape, escape_pair_written small, alone]
  rfl

theorem pair_escape_read {high low : Nat} (first : isHigh high = true) (second : isLow low = true)
    (rest : PyStr) :
    stringPair (unicodeEscape high ++ (unicodeEscape low ++ rest)) =
      (stringPair rest).map fun more => (joinSurrogates high low :: more.1, more.2) := by
  have bounds : high < 0x10000 ∧ low < 0x10000 := by
    simp only [isHigh, isLow, Bool.and_eq_true, decide_eq_true_eq] at first second
    omega
  rw [unicode_escape_append high, string_pair_escape, escape_pair_written bounds.1, if_pos first,
    low_pair_written bounds.2, if_pos second]
  rfl

theorem code_point_val (c : CodePoint) : codePoint c.val = c := by
  apply Fin.ext
  exact Nat.mod_eq_of_lt c.isLt

theorem surrogates_of (beyond : 0x10000 ≤ c.val) :
    isHigh (highOf c.val) = true ∧ isLow (lowOf c.val) = true ∧
      joinSurrogates (highOf c.val) (lowOf c.val) = c := by
  have bound := c.isLt
  unfold highOf lowOf
  apply And.intro
  · simp only [isHigh, Bool.and_eq_true, decide_eq_true_eq]
    omega
  apply And.intro
  · simp only [isLow, Bool.and_eq_true, decide_eq_true_eq]
    omega
  · have value : 0x10000 + (0xD800 + (c.val - 0x10000) / 0x400 - 0xD800) * 0x400 +
        (0xDC00 + (c.val - 0x10000) % 0x400 - 0xDC00) = c.val := by
      omega
    unfold joinSurrogates
    rw [value]
    exact code_point_val c

/-- What a character is written as: with a short escape, as itself, or with one or two escapes
of units. -/
inductive Escaped (c : CodePoint) : PyStr → Prop
  | short (escape : Char × Char) (listed : escape ∈ shortEscapes) (same : c = ofChar escape.1) :
      Escaped c [ofChar '\\', ofChar escape.2]
  | plain (shown : 0x20 ≤ c.val ∧ c.val ≤ 0x7E) (quote : c ≠ ofChar '"') (slash : c ≠ ofChar '\\') :
      Escaped c [c]
  | unit (small : c.val < 0x10000) (hidden : ¬(0x20 ≤ c.val ∧ c.val ≤ 0x7E)) :
      Escaped c (unicodeEscape c.val)
  | pair (beyond : 0x10000 ≤ c.val) :
      Escaped c (unicodeEscape (highOf c.val) ++ unicodeEscape (lowOf c.val))

theorem escaped (c : CodePoint) : Escaped c (escapeCode c) := by
  unfold escapeCode
  cases found : shortEscapes.find? fun escape => c = ofChar escape.1 with
  | some escape =>
      have same := List.find?_some found
      exact .short escape (List.mem_of_find?_eq_some found) (of_decide_eq_true same)
  | none =>
      have other := List.find?_eq_none.mp found
      have quote : c ≠ ofChar '"' := fun same => other ('"', '"') (by decide) (decide_eq_true same)
      have slash : c ≠ ofChar '\\' := fun same => other ('\\', '\\') (by decide) (decide_eq_true same)
      simp only
      split_ifs with shown small
      · exact .plain shown quote slash
      · exact .unit small shown
      · exact .pair (by omega)

theorem escape_code_read (other : isHigh c.val = false) (rest : PyStr) :
    stringPair (escapeCode c ++ rest) =
      (stringPair rest).map fun more => (c :: more.1, more.2) := by
  have written := escaped c
  generalize escapeCode c = text at written
  cases written with
  | short escape listed same =>
      have reads : ∀ escape ∈ shortEscapes, ofChar escape.2 ≠ ofChar 'u' ∧
          (simpleEscapes.find? fun simple => ofChar escape.2 = ofChar simple.1).map
            (fun simple => ofChar simple.2) = some (ofChar escape.1) := by decide
      have ⟨letter, read⟩ := reads escape listed
      have ⟨simple, found, meaning⟩ := Option.map_eq_some_iff.mp read
      rw [List.cons_append, List.cons_append, List.nil_append, string_pair_escape,
        escape_pair_simple letter, found, same, ← meaning]
      rfl
  | plain shown quote slash =>
      rw [List.cons_append, List.nil_append, string_pair_plain quote slash, if_neg (by omega)]
  | unit small hidden =>
      rw [lone_escape_read small (by rw [other]; rfl), code_point_val]
  | pair beyond =>
      have ⟨high, low, joined⟩ := surrogates_of beyond
      rw [List.append_assoc, pair_escape_read high low, joined]

theorem surrogate_escape (surrogate : isSurrogate c = true) :
    escapeCode c = unicodeEscape c.val := by
  have bounds : 0xD800 ≤ c.val ∧ c.val < 0xE000 := by
    simpa only [isSurrogate, Bool.and_eq_true, decide_eq_true_eq] using surrogate
  have written := escaped c
  generalize escapeCode c = text at written
  cases written with
  | short escape listed same =>
      have small : ∀ escape ∈ shortEscapes, (ofChar escape.1).val < 0xD800 := by decide
      have below := small escape listed
      rw [← same] at below
      omega
  | plain shown quote slash => omega
  | unit small hidden => rfl
  | pair beyond => omega

theorem surrogate_of_high (high : isHigh c.val = true) :
    isSurrogate c = true ∧ c.val < 0x10000 := by
  simp only [isHigh, isSurrogate, Bool.and_eq_true, decide_eq_true_eq] at high ⊢
  omega

theorem surrogate_of_low (low : isLow c.val = true) : isSurrogate c = true := by
  simp only [isLow, isSurrogate, Bool.and_eq_true, decide_eq_true_eq] at low ⊢
  omega

theorem no_low_escape (other : isLow c.val = false) (rest : PyStr) :
    lowPair (escapeCode c ++ rest) = none := by
  have written := escaped c
  generalize escapeCode c = text at written
  cases written with
  | short escape listed same =>
      have letters : ∀ escape ∈ shortEscapes, ofChar escape.2 ≠ ofChar 'u' := by decide
      have letter := letters escape listed
      rw [List.cons_append, List.cons_append, List.nil_append, low_pair_cons, if_neg]
      simp only [Bool.and_eq_true, decide_eq_true_eq]
      exact fun both => letter both.2
  | plain shown quote slash =>
      rw [List.cons_append, List.nil_append]
      cases rest with
      | nil => rfl
      | cons d tail =>
          rw [low_pair_cons, if_neg]
          simp only [Bool.and_eq_true, decide_eq_true_eq]
          exact fun both => slash both.1
  | unit small hidden =>
      rw [low_pair_written small, other]
      rfl
  | pair beyond =>
      have ⟨high, _, _⟩ := surrogates_of beyond
      have bounds : highOf c.val < 0xDC00 := by
        simp only [isHigh, Bool.and_eq_true, decide_eq_true_eq] at high
        exact high.2
      have notLow : isLow (highOf c.val) = false := by
        simp only [isLow, Bool.and_eq_false_iff, decide_eq_false_iff_not]
        omega
      rw [List.append_assoc, low_pair_written (by omega), notLow]
      rfl

theorem no_low_quote (after : PyStr) : lowPair (ofChar '"' :: after) = none := by
  cases after with
  | nil => rfl
  | cons c tail =>
      have quote : ofChar '"' ≠ ofChar '\\' := by decide
      rw [low_pair_cons, if_neg]
      simp only [Bool.and_eq_true, decide_eq_true_eq]
      exact fun both => quote both.1

theorem string_pair_written (s after : PyStr) :
    stringPair (s.flatMap escapeCode ++ ofChar '"' :: after) = .ok (rejoin s, after) := by
  induction s using rejoin.induct with
  | case1 => exact string_pair_quote after
  | case2 c =>
      rw [List.flatMap_singleton]
      cases high : isHigh c.val with
      | false =>
          rw [escape_code_read high, string_pair_quote]
          rfl
      | true =>
          have ⟨surrogate, bound⟩ := surrogate_of_high high
          rw [surrogate_escape surrogate, lone_escape_read bound, string_pair_quote, code_point_val]
          · rfl
          · rw [no_low_quote, ite_self]
  | case3 c d rest pair ih =>
      have ⟨high, low⟩ := Bool.and_eq_true_iff.mp pair
      have joined : rejoin (c :: d :: rest) = joinSurrogates c.val d.val :: rejoin rest := by
        rw [rejoin, if_pos pair]
      rw [List.flatMap_cons, List.flatMap_cons, surrogate_escape (surrogate_of_high high).1,
        surrogate_escape (surrogate_of_low low), List.append_assoc, List.append_assoc,
        pair_escape_read high low, ih, joined]
      rfl
  | case4 c d rest apart ih =>
      have joined : rejoin (c :: d :: rest) = c :: rejoin (d :: rest) := by
        rw [rejoin, if_neg apart]
      rw [List.flatMap_cons, List.append_assoc, joined]
      cases high : isHigh c.val with
      | false =>
          rw [escape_code_read high, ih]
          rfl
      | true =>
          have low : isLow d.val = false := by
            simpa only [high, Bool.true_and, Bool.not_eq_true] using apart
          have ⟨surrogate, bound⟩ := surrogate_of_high high
          rw [surrogate_escape surrogate, lone_escape_read bound, ih, code_point_val]
          · rfl
          · rw [List.flatMap_cons, List.append_assoc, no_low_escape low, ite_self]

theorem rejoin_length_le (s : PyStr) : (rejoin s).length ≤ s.length := by
  induction s using rejoin.induct with
  | case1 => exact le_rfl
  | case2 c => exact le_rfl
  | case3 c d rest pair ih =>
      rw [rejoin, if_pos pair]
      simp only [List.length_cons]
      omega
  | case4 c d rest apart ih =>
      rw [rejoin, if_neg apart]
      simp only [List.length_cons] at ih ⊢
      omega

theorem rejoin_eq_self_iff (s : PyStr) : rejoin s = s ↔ Unpaired s := by
  unfold Unpaired
  induction s using rejoin.induct with
  | case1 => exact iff_of_true rfl .nil
  | case2 c => exact iff_of_true rfl (.singleton c)
  | case3 c d rest pair ih =>
      have both := Bool.and_eq_true_iff.mp pair
      apply iff_of_false
      · intro same
        have shorter := rejoin_length_le rest
        have lengths := congrArg List.length same
        rw [rejoin, if_pos pair] at lengths
        simp only [List.length_cons] at lengths
        omega
      · intro chain
        exact (List.isChain_cons_cons.mp chain).1 both
  | case4 c d rest apart ih =>
      have other : Apart c d := fun both => apart (Bool.and_eq_true_iff.mpr both)
      rw [rejoin, if_neg apart, List.isChain_cons_cons, List.cons.injEq, ih]
      exact ⟨fun same => ⟨other, same.2⟩, fun same => ⟨rfl, same.2⟩⟩

theorem char_not_high (c : Char) : isHigh (ofChar c).val = false := by
  have valid := (valid_iff_not_surrogate (ofChar c)).mp c.valid
  simp only [isSurrogate, Bool.and_eq_false_iff, decide_eq_false_iff_not] at valid
  simp only [isHigh, Bool.and_eq_false_iff, decide_eq_false_iff_not]
  omega

theorem unpaired_of_text (text : Str) : Unpaired (ofText text) := by
  unfold Unpaired
  induction text with
  | nil => exact .nil
  | cons c rest ih =>
      have apart : ∀ d, Apart (ofChar c) d := by
        intro d both
        rw [char_not_high] at both
        exact absurd both.1 (by decide)
      cases rest with
      | nil => exact .singleton _
      | cons d more => exact .cons_cons (apart _) ih

end Strings

end DearAgent.Lib.Json
