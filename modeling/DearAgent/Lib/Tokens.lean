import DearAgent.Lib.Json

/-!
# The tokens of a JSON text

Marks, strings and words, with white space between them. What the scanner makes of a text
depends on its tokens only.
-/

namespace DearAgent.Lib.Json

open DearAgent.Lib.Dictionaries DearAgent.Lib.CodePoints DearAgent.Lib.Values

set_option autoImplicit false

def marks : PyStr := "\x7b\x7d[]:,"

def isMark (c : CodePoint) : Bool := marks.contains c

def isWordChar (c : CodePoint) : Bool :=
  !isJsonSpace c && !isMark c && c ≠ ofChar '"' && c ≠ ofChar '/'

/-- What stands in a string behind its opening quote, with the closing one. -/
inductive Quoted : PyStr → Prop
  | close : Quoted [ofChar '"']
  | plain {c : CodePoint} {body : PyStr} (quote : c ≠ '"') (slash : c ≠ '\\') (more : Quoted body) :
      Quoted (c :: body)
  | escape (c : CodePoint) {body : PyStr} (more : Quoted body) : Quoted (ofChar '\\' :: c :: body)

inductive Token : PyStr → Prop
  | mark {c : CodePoint} (marks : isMark c = true) : Token [c]
  | string {body : PyStr} (quoted : Quoted body) : Token (ofChar '"' :: body)
  | word {c : CodePoint} {more : PyStr} (chars : ∀ d ∈ c :: more, isWordChar d = true) :
      Token (c :: more)

def Boundary (text : PyStr) : Prop := ∀ c ∈ text.head?, isWordChar c = false

def Fits (token text : PyStr) : Prop := (∀ c ∈ token, isWordChar c = true) → Boundary text

/-- A text that begins with tokens, white space before each of them, and goes on with a rest. -/
inductive Spells : List PyStr → PyStr → PyStr → Prop
  | done (rest : PyStr) : Spells [] rest rest
  | token {gap token text rest : PyStr} {tokens : List PyStr}
      (blank : ∀ c ∈ gap, isJsonSpace c = true) (is_token : Token token) (fits : Fits token text)
      (more : Spells tokens rest text) : Spells (token :: tokens) rest (gap ++ (token ++ text))

section Characters

theorem mark_not_space {c : CodePoint} (mark : isMark c = true) : isJsonSpace c = false := by
  have all : (marks.all fun d => !isJsonSpace d) = true := by decide
  simpa using List.all_eq_true.mp all c (List.contains_iff_mem.mp mark)

theorem word_char_plain {c : CodePoint} (word : isWordChar c = true) :
    isJsonSpace c = false ∧ isMark c = false ∧ c ≠ ofChar '"' ∧ c ≠ ofChar '/' := by
  simp only [isWordChar, Bool.and_eq_true, Bool.not_eq_true', decide_eq_true_eq] at word
  tauto

theorem Token.opens {token : PyStr} (is_token : Token token) :
    ∃ c more, token = c :: more ∧ isJsonSpace c = false := by
  cases is_token with
  | mark mark => exact ⟨_, _, rfl, mark_not_space mark⟩
  | string quoted => exact ⟨_, _, rfl, by decide⟩
  | word chars => exact ⟨_, _, rfl, (word_char_plain (chars _ List.mem_cons_self)).1⟩

theorem boundary_cons {c : CodePoint} {text : PyStr} (outside : isWordChar c = false) :
    Boundary (c :: text) := by
  intro d head
  cases head
  exact outside

theorem space_outside {c : CodePoint} (space : isJsonSpace c = true) : isWordChar c = false := by
  simp [isWordChar, space]

theorem mark_outside {c : CodePoint} (mark : isMark c = true) : isWordChar c = false := by
  simp [isWordChar, mark]

theorem fits_mark {c : CodePoint} (mark : isMark c = true) (text : PyStr) : Fits [c] text := by
  intro all
  have word := all c List.mem_cons_self
  rw [mark_outside mark] at word
  cases word

theorem fits_string (body text : PyStr) : Fits (ofChar '"' :: body) text := by
  intro all
  have word := all (ofChar '"') List.mem_cons_self
  exact absurd word (by decide)

theorem skip_gap {gap : PyStr} (blank : ∀ c ∈ gap, isJsonSpace c = true) {c : CodePoint}
    (shown : isJsonSpace c = false) (rest : PyStr) : skipSpace (gap ++ c :: rest) = c :: rest := by
  unfold skipSpace
  rw [List.dropWhile_append_of_pos blank, List.dropWhile_cons_of_neg (by simp [shown])]

theorem skip_space_gap (text : PyStr) :
    ∃ gap, (∀ c ∈ gap, isJsonSpace c = true) ∧ text = gap ++ skipSpace text := by
  refine ⟨text.takeWhile isJsonSpace, ?_, List.takeWhile_append_dropWhile.symm⟩
  exact fun c member => List.all_eq_true.mp List.all_takeWhile c member

end Characters

section Spelling

variable {first second tokens : List PyStr} {token middle rest text : PyStr}

theorem Spells.append (front : Spells first middle text) (back : Spells second rest middle) :
    Spells (first ++ second) rest text := by
  induction front with
  | done middle => exact back
  | token blank is_token fits _ ih => exact .token blank is_token fits (ih back)

theorem Spells.split (whole : Spells (first ++ second) rest text) :
    ∃ middle, Spells first middle text ∧ Spells second rest middle := by
  induction first generalizing text with
  | nil => exact ⟨text, .done text, whole⟩
  | cons token tokens ih =>
      cases whole with
      | token blank is_token fits more =>
          obtain ⟨middle, front, back⟩ := ih more
          exact ⟨middle, .token blank is_token fits front, back⟩

theorem Spells.opens (spelled : Spells (token :: tokens) rest text) :
    ∃ after, skipSpace text = token ++ after ∧ Token token ∧ Fits token after ∧
      Spells tokens rest after := by
  cases spelled with
  | token blank is_token fits more =>
      obtain ⟨c, inner, rfl, shown⟩ := is_token.opens
      exact ⟨_, skip_gap blank shown _, is_token, fits, more⟩

theorem Spells.head (spelled : Spells (token :: tokens) rest text) :
    (skipSpace text).head? = token.head? := by
  obtain ⟨after, same, is_token, _, _⟩ := spelled.opens
  obtain ⟨c, inner, rfl, _⟩ := is_token.opens
  rw [same]
  rfl

theorem Spells.skipped (spelled : Spells (token :: tokens) rest (skipSpace text)) :
    Spells (token :: tokens) rest text := by
  obtain ⟨gap, blank, same⟩ := skip_space_gap text
  generalize shape : skipSpace text = after at spelled same
  cases spelled with
  | token inner is_token fits more =>
      rw [same, ← List.append_assoc]
      refine .token ?_ is_token fits more
      intro c member
      rcases List.mem_append.mp member with outer | within
      · exact blank c outer
      · exact inner c within

end Spelling

section Marks

variable {mark : CodePoint} {text rest : PyStr}

theorem expect_some {scan : Scan Unit text} (found : expect mark text = some scan) :
    skipSpace text = mark :: scan.rest := by
  unfold expect at found
  split at found
  · cases found
  · rename_i c rest shape
    split_ifs at found with same
    cases found
    exact same ▸ shape

theorem expect_of_head (shape : skipSpace text = mark :: rest) :
    ∃ scan, expect mark text = some scan ∧ scan.rest = rest := by
  unfold expect
  split
  · rename_i empty
    rw [empty] at shape
    cases shape
  · rename_i c after found
    rw [found] at shape
    obtain ⟨rfl, rfl⟩ := List.cons.inj shape
    rw [if_pos rfl]
    exact ⟨_, rfl, rfl⟩

theorem expect_head {scan : Scan Unit text} (found : expect mark text = some scan) :
    (skipSpace text).head? = some mark ∧ (skipSpace text).tail = scan.rest := by
  rw [expect_some found]
  exact ⟨rfl, rfl⟩

theorem expect_none_iff : expect mark text = none ↔ (skipSpace text).head? ≠ some mark := by
  constructor
  · intro missed head
    cases shape : skipSpace text with
    | nil =>
        rw [shape] at head
        cases head
    | cons c after =>
        rw [shape] at head
        cases head
        obtain ⟨scan, found, _⟩ := expect_of_head shape
        rw [found] at missed
        cases missed
  · intro other
    cases found : expect mark text with
    | none => rfl
    | some scan =>
        rw [expect_some found] at other
        exact absurd rfl other

theorem boundary_of_mark (is_mark : isMark mark = true) (shape : skipSpace text = mark :: rest) :
    Boundary text := by
  intro c head
  cases text with
  | nil => cases head
  | cons d tail =>
      cases head
      by_cases space : isJsonSpace c = true
      · exact space_outside space
      · have same : skipSpace (c :: tail) = c :: tail := List.dropWhile_cons_of_neg space
        rw [same] at shape
        rw [(List.cons.inj shape).1]
        exact mark_outside is_mark

theorem spells_of_mark (is_mark : isMark mark = true) (shape : skipSpace text = mark :: rest) :
    Spells [[mark]] rest text := by
  apply Spells.skipped
  rw [shape]
  exact @Spells.token [] _ _ _ _ (by simp) (.mark is_mark) (fits_mark is_mark _) (.done _)

theorem mark_of_spells {tokens : List PyStr} (spelled : Spells ([mark] :: tokens) rest text) :
    ∃ behind, skipSpace text = mark :: behind ∧ Spells tokens rest behind := by
  obtain ⟨after, same, _, _, more⟩ := spelled.opens
  exact ⟨after, same, more⟩

end Marks

/-!
## Scans without their lengths

What a scan returns, as a value and the rest of the text.
-/

section Pairs

variable {α : Type} {text : PyStr}

abbrev Scan.pair (scan : Scan α text) : α × PyStr := (scan.value, scan.rest)

@[simp]
theorem mapped_ok {ε β γ : Type} (f : β → γ) (value : β) :
    (Except.ok value : Except ε β).map f = .ok (f value) := rfl

theorem mapped_ok_iff {ε β γ : Type} {first : Except ε β} {f : β → γ} {value : γ} :
    first.map f = .ok value ↔ ∃ middle, first = .ok middle ∧ f middle = value := by
  cases first with
  | error error => simp [Except.map]
  | ok middle => simp [Except.map]

def hexPair (text : PyStr) : Option (Nat × PyStr) := (scanHex text).map Scan.pair

def lowPair (text : PyStr) : Option (Nat × PyStr) := (scanLow text).map Scan.pair

def escapePair (text : PyStr) : Option (CodePoint × PyStr) := (scanEscape text).map Scan.pair

def stringPair (text : PyStr) : Except Raised (PyStr × PyStr) := (scanString text).map Scan.pair

theorem hex_pair_cons (a b c d : CodePoint) (rest : PyStr) :
    hexPair (a :: b :: c :: d :: rest) =
      (hexPair [a, b, c, d]).map fun unit => (unit.1, rest) := by
  unfold hexPair scanHex
  simp only
  cases hexDigit? a <;> cases hexDigit? b <;> cases hexDigit? c <;> cases hexDigit? d <;> rfl

theorem low_pair_cons (c d : CodePoint) (tail : PyStr) :
    lowPair (c :: d :: tail) =
      if c = '\\' && d = 'u' then (hexPair tail).filter fun low => isLow low.1 else none := by
  unfold lowPair hexPair scanLow
  simp only
  split_ifs
  · cases scanHex tail with
    | none => rfl
    | some low =>
        simp only [Option.map_some, Option.filter_some, Scan.pair]
        split_ifs <;> rfl
  · rfl

theorem escape_pair_unicode (tail : PyStr) :
    escapePair (ofChar 'u' :: tail) = (hexPair tail).map fun unit =>
      ((if isHigh unit.1 then lowPair unit.2 else none).map fun low =>
        (joinSurrogates unit.1 low.1, low.2)).getD (codePoint unit.1, unit.2) := by
  unfold escapePair hexPair scanEscape
  simp only [if_true]
  cases scanHex tail with
  | none => rfl
  | some unit =>
      simp only [Option.map_some, Scan.pair, lowPair]
      split_ifs
      · cases scanLow unit.rest <;> rfl
      · rfl

theorem escape_pair_simple {c : CodePoint} (other : c ≠ ofChar 'u') (tail : PyStr) :
    escapePair (c :: tail) = (simpleEscapes.find? fun escape => c = ofChar escape.1).map
      fun escape => (ofChar escape.2, tail) := by
  unfold escapePair scanEscape
  simp only [if_neg other]
  cases simpleEscapes.find? fun escape => c = ofChar escape.1 <;> rfl

theorem string_pair_quote (tail : PyStr) : stringPair (ofChar '"' :: tail) = .ok ([], tail) := by
  unfold stringPair
  rw [scanString, if_pos rfl]
  rfl

theorem string_pair_escape (tail : PyStr) :
    stringPair (ofChar '\\' :: tail) = (escapePair tail).elim (.error jsonDecodeError)
      fun escape => (stringPair escape.2).map fun more => (escape.1 :: more.1, more.2) := by
  have apart : ofChar '\\' ≠ ofChar '"' := by decide
  unfold stringPair escapePair
  rw [scanString, if_neg apart, if_pos rfl]
  cases scanEscape tail with
  | none => rfl
  | some escape =>
      simp only [Option.map_some, Option.elim_some, Scan.pair]
      cases scanString escape.rest <;> rfl

theorem string_pair_plain {c : CodePoint} (quote : c ≠ ofChar '"') (slash : c ≠ ofChar '\\')
    (tail : PyStr) :
    stringPair (c :: tail) = if c.val < 0x20 then .error jsonDecodeError
      else (stringPair tail).map fun more => (c :: more.1, more.2) := by
  unfold stringPair
  rw [scanString, if_neg quote, if_neg slash]
  split_ifs
  · rfl
  · cases scanString tail <;> rfl

end Pairs

section Strings

variable {text inner body after : PyStr}

theorem Quoted.mem_quote (quoted : Quoted body) : ofChar '"' ∈ body := by
  induction quoted with
  | close => exact List.mem_cons_self
  | plain _ _ _ ih => exact List.mem_cons_of_mem _ ih
  | escape _ _ ih => exact List.mem_cons_of_mem _ (List.mem_cons_of_mem _ ih)

theorem Quoted.tail {c : CodePoint} (quoted : Quoted (c :: body)) (quote : c ≠ ofChar '"')
    (slash : c ≠ ofChar '\\') : Quoted body := by
  cases quoted with
  | close => exact absurd rfl quote
  | plain _ _ more => exact more
  | escape _ _ => exact absurd rfl slash

theorem quoted_escape_iff (c : CodePoint) : Quoted (ofChar '\\' :: c :: body) ↔ Quoted body := by
  constructor
  · intro quoted
    cases quoted with
    | plain _ slash _ => exact absurd rfl slash
    | escape _ more => exact more
  · exact Quoted.escape c

/-- Neither a quote nor a backslash is among these. -/
def Plain (text : PyStr) : Prop := ∀ c ∈ text, c ≠ ofChar '"' ∧ c ≠ ofChar '\\'

theorem Plain.quoted_iff {front : PyStr} (plain : Plain front) :
    Quoted (front ++ body) ↔ Quoted body := by
  induction front with
  | nil => rfl
  | cons c front ih =>
      have first := plain c List.mem_cons_self
      have rest := ih fun d member => plain d (List.mem_cons_of_mem c member)
      constructor
      · intro quoted
        exact rest.mp (quoted.tail first.1 first.2)
      · intro quoted
        exact .plain first.1 first.2 (rest.mpr quoted)

theorem hex_digit_plain {c : CodePoint} {value : Nat} (digit : hexDigit? c = some value) :
    c ≠ ofChar '"' ∧ c ≠ ofChar '\\' := by
  constructor
  · intro same
    have missing : hexDigit? (ofChar '"') = none := by decide
    rw [same, missing] at digit
    cases digit
  · intro same
    have missing : hexDigit? (ofChar '\\') = none := by decide
    rw [same, missing] at digit
    cases digit

theorem hex_pair_long {unit : Nat × PyStr} (found : hexPair text = some unit) :
    ∃ a b c d rest, text = a :: b :: c :: d :: rest := by
  unfold hexPair scanHex at found
  split at found
  · exact ⟨_, _, _, _, _, rfl⟩
  · cases found

theorem hex_pair_plain {a b c d : CodePoint} {unit : Nat × PyStr}
    (found : hexPair [a, b, c, d] = some unit) : Plain [a, b, c, d] := by
  unfold hexPair scanHex at found
  simp only at found
  cases first : hexDigit? a <;> cases second : hexDigit? b <;> cases third : hexDigit? c <;>
    cases fourth : hexDigit? d <;> simp [first, second, third, fourth] at found
  intro e member
  simp only [List.mem_cons, List.not_mem_nil, or_false] at member
  rcases member with rfl | rfl | rfl | rfl
  · exact hex_digit_plain first
  · exact hex_digit_plain second
  · exact hex_digit_plain third
  · exact hex_digit_plain fourth

theorem hex_pair_some {unit : Nat × PyStr} (found : hexPair text = some unit) :
    ∃ digits, Plain digits ∧ text = digits ++ unit.2 ∧
      ∀ rest, hexPair (digits ++ rest) = some (unit.1, rest) := by
  obtain ⟨a, b, c, d, rest, rfl⟩ := hex_pair_long found
  rw [hex_pair_cons] at found
  cases first : hexPair [a, b, c, d] with
  | none =>
      rw [first] at found
      cases found
  | some digits =>
      rw [first] at found
      cases found
      refine ⟨[a, b, c, d], hex_pair_plain first, rfl, fun rest => ?_⟩
      exact (hex_pair_cons a b c d rest).trans (by rw [first]; rfl)

theorem hex_pair_inside (quoted : Quoted inner) (after : PyStr) :
    hexPair (inner ++ after) = (hexPair inner).map fun unit => (unit.1, unit.2 ++ after) := by
  cases found : hexPair inner with
  | some unit =>
      obtain ⟨digits, _, same, stable⟩ := hex_pair_some found
      rw [same, List.append_assoc]
      exact stable _
  | none =>
      cases other : hexPair (inner ++ after) with
      | none => rfl
      | some unit =>
          obtain ⟨digits, plain, same, stable⟩ := hex_pair_some other
          rcases List.append_eq_append_iff.mp same with ⟨more, longer, _⟩ | ⟨more, shorter, _⟩
          · have quote : ofChar '"' ∈ digits := by
              rw [longer]
              exact List.mem_append_left more quoted.mem_quote
            exact absurd rfl (plain _ quote).1
          · rw [shorter, stable] at found
            cases found

theorem low_pair_inside (quoted : Quoted inner) (after : PyStr) :
    lowPair (inner ++ after) = (lowPair inner).map fun unit => (unit.1, unit.2 ++ after) := by
  have other : ∀ {c : CodePoint}, c ≠ ofChar '\\' → ∀ text, lowPair (c :: text) = none := by
    intro c slash text
    cases text with
    | nil => rfl
    | cons d tail => rw [low_pair_cons, if_neg (by simp [slash])]
  cases quoted with
  | close => exact other (by decide) _
  | @plain c body quote slash more => rw [List.cons_append, other slash, other slash]; rfl
  | @escape c body more =>
      rw [List.cons_append, List.cons_append, low_pair_cons, low_pair_cons,
        hex_pair_inside more after]
      split_ifs
      · cases hexPair body with
        | none => rfl
        | some low =>
            simp only [Option.map_some, Option.filter_some]
            split_ifs <;> rfl
      · rfl

theorem low_pair_some {low : Nat × PyStr} (found : lowPair text = some low) :
    ∃ digits, Plain digits ∧ text = ofChar '\\' :: ofChar 'u' :: (digits ++ low.2) := by
  cases text with
  | nil => cases found
  | cons c tail =>
      cases tail with
      | nil => cases found
      | cons d tail =>
          rw [low_pair_cons] at found
          split_ifs at found with opener
          simp only [Bool.and_eq_true, decide_eq_true_eq] at opener
          obtain ⟨digits, plain, same, _⟩ := hex_pair_some (Option.filter_eq_some_iff.mp found).1
          exact ⟨digits, plain, by rw [opener.1, opener.2, same]⟩

theorem escape_pair_front {escape : CodePoint × PyStr} (found : escapePair text = some escape) :
    ∃ front, text = front ++ escape.2 ∧
      ∀ body, Quoted (ofChar '\\' :: (front ++ body)) ↔ Quoted body := by
  cases text with
  | nil => cases found
  | cons c tail =>
      by_cases unicode : c = ofChar 'u'
      · rw [unicode, escape_pair_unicode] at found
        cases digits : hexPair tail with
        | none =>
            rw [digits] at found
            cases found
        | some unit =>
            obtain ⟨first, plain, same, _⟩ := hex_pair_some digits
            rw [digits] at found
            simp only [Option.map_some, Option.some.injEq] at found
            cases pair : if isHigh unit.1 then lowPair unit.2 else none with
            | none =>
                rw [pair] at found
                cases found
                refine ⟨c :: first, by rw [same]; rfl, fun body => ?_⟩
                exact (quoted_escape_iff c).trans plain.quoted_iff
            | some low =>
                rw [pair] at found
                cases found
                have second : lowPair unit.2 = some low := by
                  split_ifs at pair
                  exact pair
                obtain ⟨digits, plain', same'⟩ := low_pair_some second
                refine ⟨c :: (first ++ ofChar '\\' :: ofChar 'u' :: digits), ?_, fun body => ?_⟩
                · rw [same, same', List.cons_append, List.append_assoc]
                  rfl
                · rw [List.cons_append, List.append_assoc, quoted_escape_iff, plain.quoted_iff]
                  exact (quoted_escape_iff (ofChar 'u')).trans plain'.quoted_iff
      · rw [escape_pair_simple unicode] at found
        cases simple : simpleEscapes.find? fun escape => c = ofChar escape.1 with
        | none =>
            rw [simple] at found
            cases found
        | some meant =>
            rw [simple] at found
            cases found
            exact ⟨[c], rfl, fun body => quoted_escape_iff c⟩

theorem escape_pair_inside (c : CodePoint) (quoted : Quoted inner) (after : PyStr) :
    escapePair (c :: (inner ++ after)) =
      (escapePair (c :: inner)).map fun escape => (escape.1, escape.2 ++ after) := by
  by_cases unicode : c = ofChar 'u'
  · rw [unicode, escape_pair_unicode, escape_pair_unicode, hex_pair_inside quoted]
    cases digits : hexPair inner with
    | none => rfl
    | some unit =>
        obtain ⟨first, plain, same, _⟩ := hex_pair_some digits
        have behind : Quoted unit.2 := plain.quoted_iff.mp (same ▸ quoted)
        simp only [Option.map_some, low_pair_inside behind]
        split_ifs
        · cases lowPair unit.2 <;> rfl
        · rfl
  · rw [escape_pair_simple unicode, escape_pair_simple unicode]
    cases simpleEscapes.find? fun escape => c = ofChar escape.1 <;> rfl

theorem string_pair_quoted {read : PyStr × PyStr} (found : stringPair text = .ok read) :
    ∃ body, Quoted body ∧ text = body ++ read.2 := by
  induction text using scanString.induct generalizing read with
  | case1 =>
      unfold stringPair at found
      rw [scanString] at found
      cases found
  | case2 tail =>
      rw [string_pair_quote] at found
      cases found
      exact ⟨_, .close, rfl⟩
  | case3 tail unread quote =>
      have missing : escapePair tail = none := by
        unfold escapePair
        rw [unread]
        rfl
      rw [string_pair_escape, missing] at found
      cases found
  | case4 tail escape scanned quote ih =>
      have present : escapePair tail = some escape.pair := by
        unfold escapePair
        rw [scanned]
        rfl
      obtain ⟨front, same, grows⟩ := escape_pair_front present
      rw [string_pair_escape, present, Option.elim_some] at found
      obtain ⟨more, inner, rfl⟩ := mapped_ok_iff.mp found
      obtain ⟨body, quoted, behind⟩ := ih inner
      refine ⟨_, (grows body).mpr quoted, ?_⟩
      rw [List.cons_append, List.append_assoc]
      exact congrArg (ofChar '\\' :: ·) (same.trans (congrArg (front ++ ·) behind))
  | case5 c tail quote slash control =>
      rw [string_pair_plain quote slash, if_pos control] at found
      cases found
  | case6 c tail quote slash shown ih =>
      rw [string_pair_plain quote slash, if_neg shown] at found
      obtain ⟨more, inner, rfl⟩ := mapped_ok_iff.mp found
      obtain ⟨body, quoted, same⟩ := ih inner
      exact ⟨c :: body, .plain quote slash quoted, congrArg (c :: ·) same⟩

theorem string_pair_inside (quoted : Quoted body) (after : PyStr) :
    stringPair (body ++ after) =
      (stringPair body).map fun read => (read.1, read.2 ++ after) := by
  induction size : body.length using Nat.strong_induction_on generalizing body with
  | _ n ih =>
      cases quoted with
      | close =>
          rw [string_pair_quote]
          exact string_pair_quote after
      | @plain c inner quote slash more =>
          have shorter : inner.length < n := by
            rw [← size]
            exact Nat.lt_succ_self _
          rw [List.cons_append, string_pair_plain quote slash, string_pair_plain quote slash,
            ih _ shorter more rfl]
          split_ifs
          · rfl
          · cases stringPair inner <;> rfl
      | @escape c inner more =>
          rw [List.cons_append, List.cons_append, string_pair_escape, string_pair_escape,
            escape_pair_inside c more]
          cases found : escapePair (c :: inner) with
          | none => rfl
          | some escape =>
              obtain ⟨front, same, grows⟩ := escape_pair_front found
              have behind : Quoted escape.2 :=
                (grows _).mp (same ▸ (quoted_escape_iff c).mpr more)
              have shorter : escape.2.length < n := by
                have whole := congrArg List.length same
                simp only [List.length_cons, List.length_append] at whole size
                omega
              simp only [Option.map_some, Option.elim_some]
              rw [ih _ shorter behind rfl]
              cases stringPair escape.2 <;> rfl

end Strings

end DearAgent.Lib.Json
