import DearAgent.Lib.Dict
import DearAgent.Lib.Values

/-!
# Reading JSON

`json.loads` of bytes and of a text: the detection of the encoding and the scanner, with
what it takes beyond the standard (`NaN`, lone surrogates, repeated keys) and every way it
fails.
-/

namespace DearAgent.Lib.Json

open DearAgent.Lib.Text DearAgent.Lib.Dictionaries DearAgent.Lib.CodePoints DearAgent.Lib.Values

set_option autoImplicit false

def jsonDecodeError : Raised :=
  { classes := ["JSONDecodeError".toList, "ValueError".toList, "Exception".toList] }

section Encodings

/-- `bytes.decode(detect_encoding(bytes), "surrogatepass")`. -/
def decodeDetected : List UInt8 → Option PyStr
  | 0 :: 0 :: 0xFE :: 0xFF :: rest => decodeUtf32 true rest
  | 0xFF :: 0xFE :: 0 :: 0 :: rest => decodeUtf32 false rest
  | 0xFE :: 0xFF :: rest => decodeUtf16 true rest
  | 0xFF :: 0xFE :: rest => decodeUtf16 false rest
  | 0xEF :: 0xBB :: 0xBF :: rest => decodeUtf8 surrogatePass rest
  | a :: b :: c :: d :: rest =>
      let bytes := a :: b :: c :: d :: rest
      if a = 0 then if b = 0 then decodeUtf32 true bytes else decodeUtf16 true bytes
      else if b = 0 then
        if c = 0 && d = 0 then decodeUtf32 false bytes else decodeUtf16 false bytes
      else decodeUtf8 surrogatePass bytes
  | [a, b] =>
      if a = 0 then decodeUtf16 true [a, b]
      else if b = 0 then decodeUtf16 false [a, b]
      else decodeUtf8 surrogatePass [a, b]
  | bytes => decodeUtf8 surrogatePass bytes

end Encodings

/-- What a scan takes from the front of a text: a value, and what is left of the text. -/
structure Scan (α : Type) (text : PyStr) where
  value : α
  rest : PyStr
  shorter : rest.length < text.length

section Lengths

variable {α β : Type} {tail : PyStr}

theorem tail_shorter (c : CodePoint) (tail : PyStr) : tail.length < (c :: tail).length :=
  Nat.lt_succ_self tail.length

theorem drop_shorter (n : Nat) (c : CodePoint) (tail : PyStr) :
    (tail.drop n).length < (c :: tail).length :=
  Nat.lt_succ_of_le (List.drop_sublist n tail).length_le

theorem Scan.behind_one (scan : Scan α tail) (c : CodePoint) :
    scan.rest.length < (c :: tail).length := Nat.lt_succ_of_lt scan.shorter

theorem Scan.behind_two (scan : Scan α tail) (c d : CodePoint) :
    scan.rest.length < (c :: d :: tail).length := Nat.lt_succ_of_lt (scan.behind_one d)

theorem behind_both (first : Scan α tail) (second : Scan β first.rest) (c : CodePoint) :
    second.rest.length < (c :: tail).length := second.shorter.trans (first.behind_one c)

end Lengths

section Tokens

def isJsonSpace (c : CodePoint) : Bool := decide (c.val = 32 ∨ c.val = 9 ∨ c.val = 10 ∨ c.val = 13)

def skipSpace (text : PyStr) : PyStr := text.dropWhile isJsonSpace

theorem skip_space_le (text : PyStr) : (skipSpace text).length ≤ text.length :=
  List.length_dropWhile_le isJsonSpace text

theorem behind_space {text rest : PyStr} {c : CodePoint} (found : skipSpace text = c :: rest) :
    rest.length < text.length := by
  have bound := skip_space_le text
  rw [found] at bound
  exact bound

def expect (mark : CodePoint) (text : PyStr) : Option (Scan Unit text) :=
  match found : skipSpace text with
  | [] => none
  | c :: rest =>
      if c = mark then some ⟨(), rest, behind_space found⟩ else none

def hexDigit? (c : CodePoint) : Option Nat :=
  if 48 ≤ c.val ∧ c.val ≤ 57 then some (c.val - 48)
  else if 97 ≤ c.val ∧ c.val ≤ 102 then some (c.val - 87)
  else if 65 ≤ c.val ∧ c.val ≤ 70 then some (c.val - 55)
  else none

theorem behind_four (a b c d : CodePoint) (rest : PyStr) :
    rest.length < (a :: b :: c :: d :: rest).length := by
  simp only [List.length_cons]
  omega

/-- The four digits behind `\u`. -/
def scanHex (text : PyStr) : Option (Scan Nat text) :=
  match text with
  | a :: b :: c :: d :: rest =>
      match hexDigit? a, hexDigit? b, hexDigit? c, hexDigit? d with
      | some a, some b, some c, some d =>
          some ⟨((a * 16 + b) * 16 + c) * 16 + d, rest, behind_four _ _ _ _ rest⟩
      | _, _, _, _ => none
  | _ => none

def scanLow (text : PyStr) : Option (Scan Nat text) :=
  match text with
  | c :: d :: tail =>
      if c = '\\' && d = 'u' then
        match scanHex tail with
        | some low =>
            if isLow low.value then
              some ⟨low.value, low.rest, low.behind_two c d⟩
            else none
        | none => none
      else none
  | _ => none

def simpleEscapes : List (Char × Char) :=
  [('"', '"'), ('\\', '\\'), ('/', '/'), ('b', '\x08'), ('f', '\x0c'), ('n', '\n'), ('r', '\r'),
    ('t', '\t')]

/-- What stands behind a backslash; the escapes of a pair of surrogates are joined. -/
def scanEscape (text : PyStr) : Option (Scan CodePoint text) :=
  match text with
  | [] => none
  | c :: tail =>
      if c = 'u' then
        match scanHex tail with
        | none => none
        | some unit =>
            match if isHigh unit.value then scanLow unit.rest else none with
            | some low =>
                some ⟨joinSurrogates unit.value low.value, low.rest, behind_both unit low c⟩
            | none => some ⟨codePoint unit.value, unit.rest, unit.behind_one c⟩
      else
        match simpleEscapes.find? fun escape => c = ofChar escape.1 with
        | some escape => some ⟨ofChar escape.2, tail, tail_shorter c tail⟩
        | none => none

def scanString (text : PyStr) : Except Raised (Scan PyStr text) :=
  match text with
  | [] => .error jsonDecodeError
  | c :: tail =>
      if c = '"' then .ok ⟨[], tail, tail_shorter c tail⟩
      else if c = '\\' then
        match scanEscape tail with
        | none => .error jsonDecodeError
        | some escape => do
            let more ← scanString escape.rest
            return ⟨escape.value :: more.value, more.rest, behind_both escape more c⟩
      else if c.val < 0x20 then .error jsonDecodeError
      else do
        let more ← scanString tail
        return ⟨c :: more.value, more.rest, more.behind_one c⟩
termination_by text.length
decreasing_by
  · exact escape.behind_one c
  · exact tail_shorter c tail

def fractionText (text : PyStr) : PyStr :=
  if text.head? = some (ofChar '.') && text.tail.head?.any isDigit then
    ofChar '.' :: text.tail.takeWhile isDigit
  else []

/-- An `e`, a sign and digits, where there are any. -/
def exponentText (text : PyStr) : PyStr :=
  match text with
  | [] => []
  | c :: tail =>
      if c = 'e' || c = 'E' then
        let sign := if tail.head? = some (ofChar '-') || tail.head? = some (ofChar '+') then
          tail.take 1 else []
        let digits := (tail.drop sign.length).takeWhile isDigit
        if digits.isEmpty then [] else c :: sign ++ digits
      else []

def wholeText (text : PyStr) : PyStr :=
  if text.head? = some (ofChar '0') then text.take 1 else text.takeWhile isDigit

/-- An `int` where there is no fraction and no exponent. -/
def numberValue (negative : Bool) (whole fraction exponent : PyStr) : Except Raised Value :=
  if fraction.isEmpty && exponent.isEmpty then
    if maxStrDigits < whole.length then .error valueError
    else .ok (.int (if negative then -digitsValue whole else digitsValue whole))
  else
    let digits := fraction.tail
    .ok (.float (ofDecimal negative (digitsValue (whole ++ digits))
      ((readExponent exponent).getD 0 - digits.length)))

theorem number_shorter (negative : Bool) (c : CodePoint) (tail : PyStr) {size : Nat} {whole : Prop}
    (present : 0 < size ∧ whole) :
    ((if negative then tail else c :: tail).drop size).length < (c :: tail).length := by
  have bound : (if negative then tail else c :: tail).length ≤ (c :: tail).length := by
    split_ifs
    · exact Nat.le_succ tail.length
    · exact le_rfl
  have start : 0 < (c :: tail).length := Nat.succ_pos tail.length
  rw [List.length_drop]
  omega

def scanNumber (c : CodePoint) (tail : PyStr) : Except Raised (Scan Value (c :: tail)) :=
  let negative := decide (c = ofChar '-')
  let unsigned := if negative then tail else c :: tail
  let whole := wholeText unsigned
  let fraction := fractionText (unsigned.drop whole.length)
  let exponent := exponentText (unsigned.drop (whole.length + fraction.length))
  let size := whole.length + fraction.length + exponent.length
  if present : 0 < size ∧ 0 < whole.length then do
    let value ← numberValue negative whole fraction exponent
    return ⟨value, unsigned.drop size, number_shorter negative c tail present⟩
  else .error jsonDecodeError

/-- The words that are values. -/
def constants : List (Str × Value) :=
  [("null", .null), ("true", .bool true), ("false", .bool false), ("NaN", .float (0 / 0)),
    ("Infinity", .float (1 / 0)), ("-Infinity", .float (-(1 / 0)))]

end Tokens

section Scanner

section Lengths

variable {α β γ : Type} {text tail : PyStr}

theorem Scan.behind_skipped (scan : Scan α (skipSpace tail)) (c : CodePoint) :
    scan.rest.length < (c :: tail).length :=
  Nat.lt_succ_of_lt (scan.shorter.trans_le (skip_space_le tail))

theorem behind_closing (value : Scan α text) (closed : Scan Unit value.rest) :
    closed.rest.length < text.length := closed.shorter.trans value.shorter

theorem skipped_behind_mark (value : Scan α text) (mark : Scan Unit value.rest) :
    (skipSpace mark.rest).length < text.length :=
  (skip_space_le mark.rest).trans_lt (behind_closing value mark)

theorem behind_mark (value : Scan α text) (mark : Scan Unit value.rest)
    (last : Scan β (skipSpace mark.rest)) : last.rest.length < text.length :=
  last.shorter.trans (skipped_behind_mark value mark)

variable (key : Scan α tail) (colon : Scan Unit key.rest) (value : Scan β (skipSpace colon.rest))
  (mark : Scan Unit value.rest) (all : Scan γ (skipSpace mark.rest)) (c : CodePoint)

theorem value_shorter : (skipSpace colon.rest).length < (c :: tail).length :=
  Nat.lt_succ_of_lt (skipped_behind_mark key colon)

theorem behind_member : mark.rest.length < (c :: tail).length :=
  (behind_closing value mark).trans (value_shorter key colon c)

theorem members_shorter : (skipSpace mark.rest).length < (c :: tail).length :=
  (skip_space_le mark.rest).trans_lt (behind_member key colon value mark c)

theorem behind_members : all.rest.length < (c :: tail).length :=
  all.shorter.trans (members_shorter key colon value mark c)

theorem double_lt {m n : Nat} (less : m < n) : 2 * m < 2 * n := by omega

theorem double_succ_lt {m n : Nat} (less : m < n) : 2 * m + 1 < 2 * n := by omega

theorem skip_tail_lt : (skipSpace tail).length < (c :: tail).length :=
  Nat.lt_succ_of_le (skip_space_le tail)

end Lengths

mutual

/-- `scan_once`, with this many containers left to open. -/
def scanOnce (depth : Nat) (text : PyStr) : Except Raised (Scan Value text) :=
  match text with
  | [] => .error jsonDecodeError
  | c :: tail =>
      if c = '"' then do
        let string ← scanString tail
        return ⟨.str string.value, string.rest, string.behind_one c⟩
      else if c = '{' then
        match depth with
        | 0 => .error recursionError
        | depth + 1 =>
            match expect '}' tail with
            | some closed => .ok ⟨.dict [], closed.rest, closed.behind_one c⟩
            | none => do
                let entries ← scanMembers depth [] (skipSpace tail)
                return ⟨.dict entries.value, entries.rest, entries.behind_skipped c⟩
      else if c = '[' then
        match depth with
        | 0 => .error recursionError
        | depth + 1 =>
            match expect ']' tail with
            | some closed => .ok ⟨.list [], closed.rest, closed.behind_one c⟩
            | none => do
                let items ← scanItems depth (skipSpace tail)
                return ⟨.list items.value, items.rest, items.behind_skipped c⟩
      else
        match constants.find? fun word => (ofText word.1).isPrefixOf (c :: tail) with
        | some word => .ok ⟨word.2, tail.drop (word.1.length - 1), drop_shorter _ c tail⟩
        | none => scanNumber c tail
termination_by 2 * text.length
decreasing_by
  · exact double_lt (skip_tail_lt c)
  · exact double_succ_lt (skip_tail_lt c)

/-- The members of an object up to its closing brace, behind those that are set already. -/
def scanMembers (depth : Nat) (entries : List (PyStr × Value)) (text : PyStr) :
    Except Raised (Scan (List (PyStr × Value)) text) :=
  match text with
  | [] => .error jsonDecodeError
  | c :: tail =>
      if c = '"' then do
        let key ← scanString tail
        match expect ':' key.rest with
        | none => .error jsonDecodeError
        | some colon => do
            let value ← scanOnce depth (skipSpace colon.rest)
            let entries := setEntry key.value value.value entries
            match expect '}' value.rest, expect ',' value.rest with
            | some closed, _ => .ok ⟨entries, closed.rest, behind_member key colon value closed c⟩
            | none, some comma => do
                let all ← scanMembers depth entries (skipSpace comma.rest)
                return ⟨all.value, all.rest, behind_members key colon value comma all c⟩
            | none, none => .error jsonDecodeError
      else .error jsonDecodeError
termination_by 2 * text.length
decreasing_by
  · exact double_lt (value_shorter key colon c)
  · exact double_lt (members_shorter key colon value comma c)

def scanItems (depth : Nat) (text : PyStr) : Except Raised (Scan (List Value) text) := do
  let value ← scanOnce depth text
  match expect ']' value.rest, expect ',' value.rest with
  | some closed, _ => .ok ⟨[value.value], closed.rest, behind_closing value closed⟩
  | none, some comma => do
      let items ← scanItems depth (skipSpace comma.rest)
      return ⟨value.value :: items.value, items.rest, behind_mark value comma items⟩
  | none, none => .error jsonDecodeError
termination_by 2 * text.length + 1
decreasing_by
  · exact Nat.lt_succ_self _
  · exact Nat.succ_lt_succ (double_lt (skipped_behind_mark value comma))

end

end Scanner

section Failures

def ScanError (error : Raised) : Prop :=
  error = jsonDecodeError ∨ error = valueError ∨ error = recursionError

variable {depth : Nat} {text : PyStr} {error : Raised}

theorem invalid_scan_error {α : Type} (raised : (.error jsonDecodeError : Except Raised α) = .error error) :
    ScanError error := .inl (Except.error.inj raised).symm

theorem scan_string_raises (raised : scanString text = .error error) : ScanError error := by
  induction text using scanString.induct with
  | case1 =>
      rw [scanString] at raised
      exact invalid_scan_error raised
  | case2 tail =>
      rw [scanString, if_pos rfl] at raised
      cases raised
  | case3 tail none quote =>
      rw [scanString, if_neg quote, if_pos rfl, none] at raised
      exact invalid_scan_error raised
  | case4 tail escape found quote ih =>
      rw [scanString, if_neg quote, if_pos rfl, found] at raised
      exact ih (map_raises_iff.mp raised)
  | case5 c tail quote slash control =>
      rw [scanString, if_neg quote, if_neg slash, if_pos control] at raised
      exact invalid_scan_error raised
  | case6 c tail quote slash shown ih =>
      rw [scanString, if_neg quote, if_neg slash, if_neg shown] at raised
      exact ih (map_raises_iff.mp raised)

theorem number_value_raises {negative : Bool} {whole fraction exponent : PyStr}
    (raised : numberValue negative whole fraction exponent = .error error) : ScanError error := by
  unfold numberValue at raised
  split_ifs at raised
  exact .inr (.inl (Except.error.inj raised).symm)

theorem scan_number_raises {c : CodePoint} {tail : PyStr}
    (raised : scanNumber c tail = .error error) : ScanError error := by
  unfold scanNumber at raised
  simp only at raised
  split_ifs at raised
  all_goals
    first
    | exact invalid_scan_error raised
    | exact number_value_raises (map_raises_iff.mp raised)

mutual

theorem scan_once_raises (depth : Nat) (text : PyStr) (raised : scanOnce depth text = .error error) :
    ScanError error := by
  cases text with
  | nil =>
      rw [scanOnce] at raised
      exact invalid_scan_error raised
  | cons c tail =>
      have skipped := skip_space_le tail
      rw [scanOnce.eq_def] at raised
      simp only at raised
      split_ifs at raised with quote brace bracket
      · exact scan_string_raises (map_raises_iff.mp raised)
      · cases depth with
        | zero => exact .inr (.inr (Except.error.inj raised).symm)
        | succ depth =>
            cases closed : expect '}' tail with
            | some closing =>
                rw [closed] at raised
                cases raised
            | none =>
                rw [closed] at raised
                exact scan_members_raises depth [] _ (map_raises_iff.mp raised)
      · cases depth with
        | zero => exact .inr (.inr (Except.error.inj raised).symm)
        | succ depth =>
            cases closed : expect ']' tail with
            | some closing =>
                rw [closed] at raised
                cases raised
            | none =>
                rw [closed] at raised
                exact scan_items_raises depth _ (map_raises_iff.mp raised)
      · cases word : constants.find? fun word => (ofText word.1).isPrefixOf (c :: tail) with
        | some found =>
            rw [word] at raised
            cases raised
        | none =>
            rw [word] at raised
            exact scan_number_raises raised
termination_by 2 * text.length
decreasing_by
  all_goals
    subst_vars
    simp only [List.length_cons]
    omega

theorem scan_members_raises (depth : Nat) (entries : List (PyStr × Value)) (text : PyStr)
    (raised : scanMembers depth entries text = .error error) : ScanError error := by
  cases text with
  | nil =>
      rw [scanMembers] at raised
      exact invalid_scan_error raised
  | cons c tail =>
      rw [scanMembers] at raised
      split_ifs at raised with quote
      · rcases bind_raises_iff.mp raised with raised | ⟨key, _, raised⟩
        · exact scan_string_raises raised
        · have first := key.shorter
          cases colon : expect ':' key.rest with
          | none =>
              rw [colon] at raised
              exact invalid_scan_error raised
          | some mark =>
              have second := mark.shorter
              have skipped := skip_space_le mark.rest
              rw [colon] at raised
              rcases bind_raises_iff.mp raised with raised | ⟨value, _, raised⟩
              · exact scan_once_raises depth _ raised
              · have third := value.shorter
                simp only at raised
                cases closed : expect '}' value.rest with
                | some closing =>
                    rw [closed] at raised
                    cases raised
                | none =>
                    cases more : expect ',' value.rest with
                    | none =>
                        rw [closed, more] at raised
                        exact invalid_scan_error raised
                    | some comma =>
                        have fourth := comma.shorter
                        have skipped' := skip_space_le comma.rest
                        rw [closed, more] at raised
                        exact scan_members_raises depth _ _ (map_raises_iff.mp raised)
      · exact invalid_scan_error raised
termination_by 2 * text.length
decreasing_by
  all_goals
    subst_vars
    simp only [List.length_cons]
    omega

theorem scan_items_raises (depth : Nat) (text : PyStr)
    (raised : scanItems depth text = .error error) : ScanError error := by
  rw [scanItems] at raised
  rcases bind_raises_iff.mp raised with raised | ⟨value, _, raised⟩
  · exact scan_once_raises depth text raised
  · cases closed : expect ']' value.rest with
    | some closing =>
        rw [closed] at raised
        cases raised
    | none =>
        cases more : expect ',' value.rest with
        | none =>
            rw [closed, more] at raised
            exact invalid_scan_error raised
        | some comma =>
            rw [closed, more] at raised
            exact scan_items_raises depth _ (map_raises_iff.mp raised)
termination_by 2 * text.length + 1
decreasing_by
  · omega
  · have first := value.shorter
    have second := comma.shorter
    have skipped := skip_space_le comma.rest
    omega

end

/-- Of what `json.loads` raises `except json.JSONDecodeError` catches what is no JSON. -/
theorem is_json_decode_error_iff
    (raised : error = unicodeDecodeError ∨ ScanError error) :
    error.isA "JSONDecodeError" = true ↔ error = jsonDecodeError := by
  rcases raised with rfl | rfl | rfl | rfl
  · exact iff_of_false (by decide) (by decide)
  · exact iff_of_true (by decide) rfl
  · exact iff_of_false (by decide) (by decide)
  · exact iff_of_false (by decide) (by decide)

end Failures

variable [Interpreter]

def decode (text : PyStr) : Except Raised Value := do
  let found ← scanOnce Interpreter.scanDepth (skipSpace text)
  if (skipSpace found.rest).isEmpty then return found.value else .error jsonDecodeError

/-- `json.loads` of a text. -/
def loadsText (text : PyStr) : Except Raised Value :=
  if text.head? = some (codePoint 0xFEFF) then .error jsonDecodeError else decode text

/-- `json.loads` of bytes. -/
def loads (bytes : List UInt8) : Except Raised Value :=
  match decodeDetected bytes with
  | none => .error unicodeDecodeError
  | some text => decode text

theorem loads_undecodable {bytes : List UInt8} (undecodable : decodeDetected bytes = none) :
    loads bytes = .error unicodeDecodeError := by
  unfold loads
  rw [undecodable]

theorem decode_raises {text : PyStr} {error : Raised} (raised : decode text = .error error) :
    ScanError error := by
  unfold decode at raised
  rcases bind_raises_iff.mp raised with raised | ⟨found, _, raised⟩
  · exact scan_once_raises _ _ raised
  · split_ifs at raised
    · cases raised
    · exact invalid_scan_error raised

theorem loads_text_raises {text : PyStr} {error : Raised} (raised : loadsText text = .error error) :
    ScanError error := by
  unfold loadsText at raised
  split_ifs at raised
  · exact invalid_scan_error raised
  · exact decode_raises raised

theorem loads_raises {bytes : List UInt8} {error : Raised} (raised : loads bytes = .error error) :
    error = unicodeDecodeError ∨ ScanError error := by
  unfold loads at raised
  cases decoded : decodeDetected bytes with
  | none =>
      rw [decoded] at raised
      exact .inl (Except.error.inj raised).symm
  | some text =>
      rw [decoded] at raised
      exact .inr (decode_raises raised)

end DearAgent.Lib.Json
