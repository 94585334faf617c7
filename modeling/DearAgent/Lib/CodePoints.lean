import DearAgent.Lib.Text

/-!
# Code points and their encodings

A Python `str` may hold lone surrogates, which no `Char` is and no strict encoder takes.
Bytes are decoded as the codecs of the standard library do, an error handler being asked
about what is malformed.
-/

namespace DearAgent.Lib.CodePoints

open DearAgent.Lib.Text

set_option autoImplicit false

abbrev CodePoint := Fin 0x110000

abbrev PyStr := List CodePoint

section Characters

theorem char_lt (c : Char) : c.toNat < 0x110000 := by
  have valid := c.valid
  unfold UInt32.isValidChar Nat.isValidChar at valid
  have same : c.toNat = c.val.toNat := rfl
  omega

def ofChar (c : Char) : CodePoint := ⟨c.toNat, char_lt c⟩

def ofText (text : Str) : PyStr := text.map ofChar

instance : Coe String PyStr := ⟨fun text => ofText text.toList⟩

theorem code_point_bound (n : Nat) : n % 0x110000 < 0x110000 := Nat.mod_lt n (by decide)

def codePoint (n : Nat) : CodePoint := ⟨n % 0x110000, code_point_bound n⟩

def isSurrogate (c : CodePoint) : Bool := decide (0xD800 ≤ c.val) && decide (c.val < 0xE000)

def toChar? (c : CodePoint) : Option Char :=
  if valid : c.val.isValidChar then some (Char.ofNatAux c.val valid) else none

def toText? (s : PyStr) : Option Str := s.mapM toChar?

theorem valid_iff_not_surrogate (c : CodePoint) :
    c.val.isValidChar ↔ isSurrogate c = false := by
  have bound := c.isLt
  unfold Nat.isValidChar isSurrogate
  rw [Bool.and_eq_false_iff, decide_eq_false_iff_not, decide_eq_false_iff_not]
  omega

theorem to_char_of_char (c : Char) : toChar? (ofChar c) = some c := by
  have valid : (ofChar c).val.isValidChar := c.valid
  rw [toChar?, dif_pos valid]
  rfl

theorem to_char_eq_none_iff (c : CodePoint) : toChar? c = none ↔ isSurrogate c = true := by
  rw [← Bool.not_eq_false, ← valid_iff_not_surrogate, toChar?]
  by_cases valid : c.val.isValidChar
  · rw [dif_pos valid]
    exact iff_of_false (Option.some_ne_none _) (absurd valid)
  · rw [dif_neg valid]
    exact iff_of_true rfl valid

theorem to_text_cons (c : CodePoint) (rest : PyStr) :
    toText? (c :: rest) = (toChar? c).bind fun first => (toText? rest).map (first :: ·) := by
  unfold toText?
  rw [List.mapM_cons]
  cases toChar? c with
  | none => rfl
  | some first => cases rest.mapM toChar? <;> rfl

theorem to_text_of_text (text : Str) : toText? (ofText text) = some text := by
  induction text with
  | nil => rfl
  | cons c rest ih =>
      change toText? (ofChar c :: ofText rest) = _
      rw [to_text_cons, to_char_of_char, ih]
      rfl

theorem to_text_eq_none_iff (s : PyStr) : toText? s = none ↔ s.any isSurrogate = true := by
  induction s with
  | nil => exact iff_of_false (Option.some_ne_none []) Bool.false_ne_true
  | cons c rest ih =>
      rw [to_text_cons, List.any_cons, Bool.or_eq_true, ← ih, ← to_char_eq_none_iff]
      cases toChar? c with
      | none => simp
      | some first => simp

theorem of_char_injective : Function.Injective ofChar := by
  intro c d same
  have chars := congrArg toChar? same
  rw [to_char_of_char, to_char_of_char] at chars
  exact Option.some.inj chars

theorem of_text_injective : Function.Injective ofText :=
  List.map_injective_iff.mpr of_char_injective

end Characters

section Utf8

/-- What stands at the front of some bytes: a code point or a malformed sequence, either
of them with the number of bytes behind the first one that belong to it. -/
inductive Front
  | codePoint (c : CodePoint) (more : Nat)
  | malformed (more : Nat)

def isTail (b : UInt8) : Bool := 0x80 ≤ b && b < 0xC0

/-- The bytes behind a lead byte. Only the first of them may have narrower bounds. -/
def utf8Tail (value taken : Nat) : Nat → Nat → Nat → List UInt8 → Front
  | 0, _, _, _ => .codePoint (codePoint value) taken
  | _ + 1, _, _, [] => .malformed taken
  | missing + 1, low, high, b :: rest =>
      if low ≤ b.toNat ∧ b.toNat ≤ high then
        utf8Tail (value * 64 + (b.toNat - 0x80)) (taken + 1) missing 0x80 0xBF rest
      else .malformed taken

def utf8Front (b : UInt8) (rest : List UInt8) : Front :=
  let lead := b.toNat
  if lead < 0x80 then .codePoint (codePoint lead) 0
  else if lead < 0xC2 then .malformed 0
  else if lead < 0xE0 then utf8Tail (lead - 0xC0) 0 1 0x80 0xBF rest
  else if lead < 0xF0 then
    utf8Tail (lead - 0xE0) 0 2 (if lead = 0xE0 then 0xA0 else 0x80)
      (if lead = 0xED then 0x9F else 0xBF) rest
  else if lead < 0xF5 then
    utf8Tail (lead - 0xF0) 0 3 (if lead = 0xF0 then 0x90 else 0x80)
      (if lead = 0xF4 then 0x8F else 0xBF) rest
  else .malformed 0

/-- An error handler: what a malformed sequence stands for, and the number of bytes behind
the first one that are skipped with it. -/
abbrev ErrorHandler := UInt8 → List UInt8 → Nat → Option (CodePoint × Nat)

/-- `errors="replace"`. -/
def replaceErrors : ErrorHandler := fun _ _ more => some (codePoint 0xFFFD, more)

/-- `errors="surrogatepass"`: the three bytes that would be a surrogate are one. -/
def surrogatePass : ErrorHandler
  | b, first :: second :: _, _ =>
      let value := (b.toNat - 0xE0) * 4096 + (first.toNat - 0x80) * 64 + (second.toNat - 0x80)
      if 0xE0 ≤ b && b < 0xF0 && isTail first && isTail second &&
          isSurrogate (codePoint value) then
        some (codePoint value, 2)
      else none
  | _, _, _ => none

/-- `bytes.decode("utf-8", errors)`. -/
def decodeUtf8 (errors : ErrorHandler) : List UInt8 → Option PyStr
  | [] => some []
  | b :: rest =>
      match utf8Front b rest with
      | .codePoint c more => (decodeUtf8 errors (rest.drop more)).map (c :: ·)
      | .malformed more =>
          match errors b rest more with
          | none => none
          | some (c, more) => (decodeUtf8 errors (rest.drop more)).map (c :: ·)
termination_by bytes => bytes.length

/-- `bytes.decode("utf-8", errors="replace")`, which never fails. -/
def decodeReplacing (bytes : List UInt8) : PyStr := (decodeUtf8 replaceErrors bytes).getD []

end Utf8

section Wide

def utf16Units (big : Bool) : List UInt8 → Option (List (Fin 0x10000))
  | [] => some []
  | [_] => none
  | first :: second :: rest =>
      let unit := if big then first.toNat * 256 + second.toNat else second.toNat * 256 + first.toNat
      (utf16Units big rest).map (Fin.ofNat 0x10000 unit :: ·)

def joinSurrogates (high low : Nat) : CodePoint :=
  codePoint (0x10000 + (high - 0xD800) * 0x400 + (low - 0xDC00))

def isHigh (n : Nat) : Bool := decide (0xD800 ≤ n) && decide (n < 0xDC00)

def isLow (n : Nat) : Bool := decide (0xDC00 ≤ n) && decide (n < 0xE000)

def joinUnits : List (Fin 0x10000) → PyStr
  | [] => []
  | [unit] => [codePoint unit.val]
  | unit :: next :: rest =>
      if isHigh unit.val && isLow next.val then joinSurrogates unit.val next.val :: joinUnits rest
      else codePoint unit.val :: joinUnits (next :: rest)

/-- `bytes.decode("utf-16-be" or "utf-16-le", "surrogatepass")`. -/
def decodeUtf16 (big : Bool) (bytes : List UInt8) : Option PyStr :=
  (utf16Units big bytes).map joinUnits

/-- `bytes.decode("utf-32-be" or "utf-32-le", "surrogatepass")`. -/
def decodeUtf32 (big : Bool) : List UInt8 → Option PyStr
  | [] => some []
  | a :: b :: c :: d :: rest =>
      let value :=
        if big then ((a.toNat * 256 + b.toNat) * 256 + c.toNat) * 256 + d.toNat
        else ((d.toNat * 256 + c.toNat) * 256 + b.toNat) * 256 + a.toNat
      if valid : value < 0x110000 then (decodeUtf32 big rest).map (⟨value, valid⟩ :: ·) else none
  | _ => none

end Wide

section Replacing

variable {value taken missing low high more : Nat} {rest : List UInt8} {c : CodePoint}

theorem utf8_tail_done (found : utf8Tail value taken 0 low high rest = .codePoint c more) :
    c = codePoint value := (Front.codePoint.inj found).1.symm

theorem utf8_tail_step
    (found : utf8Tail value taken (missing + 1) low high rest = .codePoint c more) :
    ∃ (b : Nat) (rest' : List UInt8), low ≤ b ∧ b ≤ high ∧
      utf8Tail (value * 64 + (b - 0x80)) (taken + 1) missing 0x80 0xBF rest' = .codePoint c more := by
  cases rest with
  | nil => cases found
  | cons b rest =>
      rw [utf8Tail] at found
      split_ifs at found with inside
      exact ⟨b.toNat, rest, inside.1, inside.2, found⟩

theorem code_point_not_surrogate {n : Nat} (small : n < 0x110000)
    (apart : n < 0xD800 ∨ 0xE000 ≤ n) : isSurrogate (codePoint n) = false := by
  have same : (codePoint n).val = n := Nat.mod_eq_of_lt small
  unfold isSurrogate
  rw [same, Bool.and_eq_false_iff, decide_eq_false_iff_not, decide_eq_false_iff_not]
  omega

theorem two_tails_not_surrogate
    (found : utf8Tail value taken 2 low high rest = .codePoint c more)
    (apart : value < 0xD ∨ value = 0xD ∧ high ≤ 0x9F ∨ value = 0xE ∨ value = 0xF)
    (tail : high ≤ 0xBF) : isSurrogate c = false := by
  obtain ⟨second, _, _, _, found⟩ := utf8_tail_step found
  obtain ⟨third, _, _, _, found⟩ := utf8_tail_step found
  rw [utf8_tail_done found]
  exact code_point_not_surrogate (by omega) (by omega)

theorem three_tails_not_surrogate
    (found : utf8Tail value taken 3 low high rest = .codePoint c more)
    (apart : value = 0 ∧ 0x90 ≤ low ∨ 0 < value ∧ value < 4 ∨ value = 4 ∧ high ≤ 0x8F)
    (tail : high ≤ 0xBF) : isSurrogate c = false := by
  obtain ⟨second, _, _, _, found⟩ := utf8_tail_step found
  obtain ⟨third, _, _, _, found⟩ := utf8_tail_step found
  obtain ⟨fourth, _, _, _, found⟩ := utf8_tail_step found
  rw [utf8_tail_done found]
  exact code_point_not_surrogate (by omega) (by omega)

theorem utf8_front_not_surrogate {b : UInt8} (found : utf8Front b rest = .codePoint c more) :
    isSurrogate c = false := by
  unfold utf8Front at found
  simp only at found
  by_cases one : b.toNat < 0x80
  · rw [if_pos one] at found
    rw [← (Front.codePoint.inj found).1]
    exact code_point_not_surrogate (by omega) (by omega)
  rw [if_neg one] at found
  by_cases never : b.toNat < 0xC2
  · rw [if_pos never] at found
    cases found
  rw [if_neg never] at found
  by_cases two : b.toNat < 0xE0
  · rw [if_pos two] at found
    obtain ⟨second, _, _, _, found⟩ := utf8_tail_step found
    rw [utf8_tail_done found]
    exact code_point_not_surrogate (by omega) (by omega)
  rw [if_neg two] at found
  by_cases three : b.toNat < 0xF0
  · rw [if_pos three] at found
    apply two_tails_not_surrogate found
    · split_ifs <;> omega
    · split_ifs <;> omega
  rw [if_neg three] at found
  by_cases four : b.toNat < 0xF5
  · rw [if_pos four] at found
    apply three_tails_not_surrogate found
    · split_ifs <;> omega
    · split_ifs <;> omega
  rw [if_neg four] at found
  cases found

/-- What is decoded with replacements is decoded whatever the bytes are, and holds no
surrogate. -/
theorem decode_replacing (bytes : List UInt8) :
    ∃ s, decodeUtf8 replaceErrors bytes = some s ∧ s.any isSurrogate = false := by
  induction bytes using decodeUtf8.induct replaceErrors with
  | case1 => exact ⟨[], by rw [decodeUtf8], rfl⟩
  | case2 b rest c more found ih =>
      obtain ⟨s, decoded, plain⟩ := ih
      refine ⟨c :: s, ?_, ?_⟩
      · rw [decodeUtf8, found]
        simp only [decoded, Option.map_some]
      · rw [List.any_cons, utf8_front_not_surrogate found, plain]
        rfl
  | case3 b rest more found refused => cases refused
  | case4 b rest more found c skipped replaced ih =>
      obtain ⟨s, decoded, plain⟩ := ih
      have same := Option.some.inj replaced
      obtain ⟨rfl, rfl⟩ := Prod.mk.inj same
      refine ⟨codePoint 0xFFFD :: s, ?_, ?_⟩
      · rw [decodeUtf8, found]
        simp only [replaceErrors, decoded, Option.map_some]
      · rw [List.any_cons, plain]
        rfl

theorem decode_replacing_encodes (bytes : List UInt8) :
    (decodeReplacing bytes).any isSurrogate = false := by
  obtain ⟨s, decoded, plain⟩ := decode_replacing bytes
  rw [decodeReplacing, decoded]
  exact plain

end Replacing

end DearAgent.Lib.CodePoints
