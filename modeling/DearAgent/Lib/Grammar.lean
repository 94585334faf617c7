import DearAgent.Lib.Tokens
import Mathlib.Data.List.Infix

/-!
# The grammar of JSON

Which tokens spell a value, as the scanner reads them, and that the white space between the
tokens has no part in it.
-/

namespace DearAgent.Lib.Json

open DearAgent.Lib.Text DearAgent.Lib.Dictionaries DearAgent.Lib.CodePoints DearAgent.Lib.Values

set_option autoImplicit false

section Numbers

variable {text after : PyStr}

/-- The text does not go on with such a character. -/
def Stops (p : CodePoint → Bool) (text : PyStr) : Prop := ∀ c ∈ text.head?, p c = false

theorem Stops.take_while {p : CodePoint → Bool} (stops : Stops p after) :
    after.takeWhile p = [] := by
  cases after with
  | nil => rfl
  | cons c tail => exact List.takeWhile_cons_of_neg (by simp [stops c rfl])

theorem take_while_taken {p : CodePoint → Bool} {c : CodePoint} (member : c ∈ text.takeWhile p) :
    p c = true := List.all_eq_true.mp List.all_takeWhile c member

theorem take_while_again {p : CodePoint → Bool} (stops : Stops p after) (text : PyStr) :
    (text.takeWhile p ++ after).takeWhile p = text.takeWhile p := by
  rw [List.takeWhile_append_of_pos fun c member => take_while_taken member, stops.take_while,
    List.append_nil]

def isNumberChar (c : CodePoint) : Bool :=
  isDigit c || c = '.' || c = 'e' || c = 'E' || c = '+' || c = '-'

theorem digit_number {c : CodePoint} (digit : isDigit c = true) : isNumberChar c = true := by
  simp [isNumberChar, digit]

theorem digit_word {c : CodePoint} (digit : isDigit c = true) : isWordChar c = true := by
  have space : isJsonSpace c = false := by
    simp only [isDigit, Bool.and_eq_true, decide_eq_true_eq] at digit
    unfold isJsonSpace
    exact decide_eq_false (by omega)
  have mark : isMark c = false := by
    cases found : isMark c with
    | false => rfl
    | true =>
        have all : (marks.all fun d => !isDigit d) = true := by decide
        have other := List.all_eq_true.mp all c (List.contains_iff_mem.mp found)
        rw [digit] at other
        cases other
  have quote : c ≠ ofChar '"' := by
    rintro rfl
    exact absurd digit (by decide)
  have slash : c ≠ ofChar '/' := by
    rintro rfl
    exact absurd digit (by decide)
  simp [isWordChar, space, mark, quote, slash]

theorem number_word {c : CodePoint} (number : isNumberChar c = true) : isWordChar c = true := by
  simp only [isNumberChar, Bool.or_eq_true, decide_eq_true_eq] at number
  rcases number with ((((digit | rfl) | rfl) | rfl) | rfl) | rfl
  · exact digit_word digit
  all_goals decide

theorem whole_text_starts (text : PyStr) : wholeText text <+: text := by
  unfold wholeText
  split_ifs
  · exact List.take_prefix 1 text
  · exact List.takeWhile_prefix isDigit

theorem whole_text_digits (text : PyStr) : ∀ c ∈ wholeText text, isDigit c = true := by
  unfold wholeText
  split_ifs with zero
  · intro c member
    cases text with
    | nil => cases zero
    | cons d tail =>
        cases zero
        cases List.mem_singleton.mp member
        decide
  · exact fun c member => take_while_taken member

theorem whole_text_again (present : wholeText text ≠ []) (stops : Stops isDigit after) :
    wholeText (wholeText text ++ after) = wholeText text := by
  by_cases zero : text.head? = some (ofChar '0')
  · cases text with
    | nil => cases zero
    | cons d tail =>
        cases zero
        rfl
  · have taken : wholeText text = text.takeWhile isDigit := if_neg zero
    have head : (text.takeWhile isDigit ++ after).head? ≠ some (ofChar '0') := by
      cases text with
      | nil => exact absurd taken present
      | cons d tail =>
          by_cases digit : isDigit d = true
          · rw [List.takeWhile_cons_of_pos digit]
            exact zero
          · rw [List.takeWhile_cons_of_neg digit] at taken
            exact absurd taken present
    rw [taken]
    exact (if_neg head).trans (take_while_again stops text)

theorem fraction_text_starts (text : PyStr) : fractionText text <+: text := by
  unfold fractionText
  split_ifs with pointed
  · cases text with
    | nil => cases pointed
    | cons c tail =>
        simp only [List.head?_cons, Bool.and_eq_true, decide_eq_true_eq, Option.some.injEq] at pointed
        rw [pointed.1]
        exact List.prefix_cons_inj _ |>.mpr (List.takeWhile_prefix isDigit)
  · exact List.nil_prefix

theorem fraction_text_chars (text : PyStr) : ∀ c ∈ fractionText text, isNumberChar c = true := by
  unfold fractionText
  split_ifs
  · intro c member
    rcases List.mem_cons.mp member with rfl | digit
    · decide
    · exact digit_number (take_while_taken digit)
  · simp

theorem fraction_text_again (digits : Stops isDigit after) (point : Stops (· = ofChar '.') after) :
    fractionText (fractionText text ++ after) = fractionText text := by
  by_cases pointed : text.head? = some (ofChar '.') ∧ text.tail.head?.any isDigit = true
  · have taken : fractionText text = ofChar '.' :: text.tail.takeWhile isDigit :=
      if_pos (Bool.and_eq_true_iff.mpr ⟨decide_eq_true pointed.1, pointed.2⟩)
    rw [taken]
    have behind : (text.tail.takeWhile isDigit ++ after).head?.any isDigit = true := by
      cases shape : text.tail with
      | nil =>
          rw [shape] at pointed
          cases pointed.2
      | cons d tail =>
          rw [shape] at pointed
          have digit : isDigit d = true := pointed.2
          rw [List.takeWhile_cons_of_pos digit]
          exact digit
    have again := take_while_again digits text.tail
    exact (if_pos (Bool.and_eq_true_iff.mpr ⟨decide_eq_true rfl, behind⟩)).trans
      (congrArg (ofChar '.' :: ·) again)
  · have taken : fractionText text = [] := if_neg (by simpa using pointed)
    rw [taken]
    cases after with
    | nil => rfl
    | cons c tail =>
        have other := point c rfl
        exact if_neg (by simp [of_decide_eq_false other])

inductive Exponent : PyStr → Prop
  | written {letter : CodePoint} {sign digits : PyStr} (letters : letter = 'e' ∨ letter = 'E')
      (signs : sign = [] ∨ sign = [ofChar '-'] ∨ sign = [ofChar '+']) (present : digits ≠ [])
      (digital : ∀ d ∈ digits, isDigit d = true) : Exponent (letter :: (sign ++ digits))

theorem digit_no_sign {c : CodePoint} (digit : isDigit c = true) :
    c ≠ ofChar '-' ∧ c ≠ ofChar '+' := by
  constructor
  · rintro rfl
    exact absurd digit (by decide)
  · rintro rfl
    exact absurd digit (by decide)

def exponentSign (tail : PyStr) : PyStr :=
  if tail.head? = some (ofChar '-') || tail.head? = some (ofChar '+') then tail.take 1 else []

theorem exponent_text_cons (c : CodePoint) (tail : PyStr) :
    exponentText (c :: tail) = if c = 'e' || c = 'E' then
      let digits := (tail.drop (exponentSign tail).length).takeWhile isDigit
      if digits.isEmpty then [] else c :: (exponentSign tail ++ digits) else [] := rfl

theorem exponent_sign_cases (tail : PyStr) : exponentSign tail = [] ∨
    exponentSign tail = [ofChar '-'] ∨ exponentSign tail = [ofChar '+'] := by
  unfold exponentSign
  split_ifs with signed
  · cases tail with
    | nil => exact .inl rfl
    | cons d tail =>
        simp only [List.head?_cons, Option.some.injEq, Bool.or_eq_true, decide_eq_true_eq] at signed
        right
        cases signed with
        | inl minus => exact .inl (congrArg (fun d => [d]) minus)
        | inr plus => exact .inr (congrArg (fun d => [d]) plus)
  · exact .inl rfl

theorem exponent_sign_starts (tail : PyStr) : exponentSign tail <+: tail := by
  unfold exponentSign
  split_ifs
  · exact List.take_prefix 1 tail
  · exact List.nil_prefix

theorem exponent_text_shape (text : PyStr) :
    exponentText text = [] ∨ Exponent (exponentText text) ∧ exponentText text <+: text := by
  cases text with
  | nil => exact .inl rfl
  | cons c tail =>
      rw [exponent_text_cons]
      split_ifs with letter
      · simp only
        split_ifs with none
        · exact .inl rfl
        · right
          constructor
          · apply Exponent.written
            · simpa using letter
            · exact exponent_sign_cases tail
            · simpa using none
            · exact fun d member => take_while_taken member
          · rw [List.cons_prefix_cons]
            refine ⟨rfl, ?_⟩
            conv_rhs => rw [← List.prefix_iff_eq_append.mp (exponent_sign_starts tail)]
            rw [List.prefix_append_right_inj]
            exact List.takeWhile_prefix isDigit
      · exact .inl rfl

theorem exponent_sign_written {sign digits : PyStr}
    (signs : sign = [] ∨ sign = [ofChar '-'] ∨ sign = [ofChar '+']) (present : digits ≠ [])
    (digital : ∀ d ∈ digits, isDigit d = true) (after : PyStr) :
    exponentSign (sign ++ (digits ++ after)) = sign := by
  rcases signs with rfl | rfl | rfl
  · cases digits with
    | nil => exact absurd rfl present
    | cons d more =>
        have unsigned := digit_no_sign (digital d List.mem_cons_self)
        exact if_neg (by simp [unsigned])
  · rfl
  · rfl

theorem exponent_text_written {exponent : PyStr} (shape : Exponent exponent)
    (stops : Stops isDigit after) : exponentText (exponent ++ after) = exponent := by
  cases shape with
  | @written letter sign digits letters signs present digital =>
      have letter : (letter = ofChar 'e' || letter = ofChar 'E') = true := by simpa using letters
      have again : (digits ++ after).takeWhile isDigit = digits := by
        rw [List.takeWhile_append_of_pos digital, stops.take_while, List.append_nil]
      rw [List.cons_append, exponent_text_cons, if_pos letter, List.append_assoc,
        exponent_sign_written signs present digital after]
      simp only [List.drop_left, again]
      exact if_neg (by simpa using present)

theorem exponent_text_again (digits : Stops isDigit after)
    (letter : Stops (fun c => c = ofChar 'e' || c = ofChar 'E') after) :
    exponentText (exponentText text ++ after) = exponentText text := by
  rcases exponent_text_shape text with none | ⟨shape, _⟩
  · rw [none]
    cases after with
    | nil => rfl
    | cons c tail =>
        have other := letter c rfl
        exact if_neg (by simpa using other)
  · exact exponent_text_written shape digits

theorem exponent_text_starts (text : PyStr) : exponentText text <+: text := by
  rcases exponent_text_shape text with none | ⟨_, taken⟩
  · rw [none]
    exact List.nil_prefix
  · exact taken

theorem Exponent.chars {exponent : PyStr} (shape : Exponent exponent) :
    ∀ c ∈ exponent, isNumberChar c = true := by
  cases shape with
  | written letters signs present digital =>
      intro c member
      simp only [List.mem_cons, List.mem_append] at member
      rcases member with rfl | signed | digit
      · rcases letters with rfl | rfl <;> decide
      · rcases signs with rfl | rfl | rfl
        · cases signed
        · cases List.mem_singleton.mp signed
          decide
        · cases List.mem_singleton.mp signed
          decide
      · exact digit_number (digital c digit)

theorem exponent_text_chars (text : PyStr) : ∀ c ∈ exponentText text, isNumberChar c = true := by
  rcases exponent_text_shape text with none | ⟨shape, _⟩
  · rw [none]
    simp
  · exact shape.chars

def numberPair (text : PyStr) : Except Raised (Value × PyStr) :=
  let negative := decide (text.head? = some (ofChar '-'))
  let unsigned := if negative then text.tail else text
  let whole := wholeText unsigned
  let behind := unsigned.drop whole.length
  let fraction := fractionText behind
  let behind := behind.drop fraction.length
  let exponent := exponentText behind
  if whole = [] then .error jsonDecodeError
  else (numberValue negative whole fraction exponent).map fun value =>
    (value, behind.drop exponent.length)

theorem number_pair_eq (c : CodePoint) (tail : PyStr) :
    (scanNumber c tail).map Scan.pair = numberPair (c :: tail) := by
  unfold scanNumber numberPair
  simp only [List.head?_cons, List.tail_cons, Option.some.injEq, List.drop_drop]
  by_cases none : wholeText (if decide (c = ofChar '-') = true then tail else c :: tail) = []
  · rw [dif_neg fun present => absurd none (List.length_pos_iff.mp present.2), if_pos none]
    rfl
  · have present := List.length_pos_iff.mpr none
    rw [dif_pos ⟨by omega, present⟩, if_neg none]
    cases numberValue _ _ _ _ <;> rfl

theorem Stops.append {p : CodePoint → Bool} {front : PyStr} (first : Stops p front)
    (second : Stops p after) : Stops p (front ++ after) := by
  cases front with
  | nil => exact second
  | cons c tail => exact first

theorem Stops.of_imp {p q : CodePoint → Bool} (stops : Stops q after)
    (weaker : ∀ c, p c = true → q c = true) : Stops p after := by
  intro c head
  have other := stops c head
  cases taken : p c with
  | false => rfl
  | true =>
      rw [weaker c taken] at other
      cases other

theorem fraction_text_head (text : PyStr) (c : CodePoint) (head : c ∈ (fractionText text).head?) :
    c = ofChar '.' := by
  unfold fractionText at head
  split_ifs at head
  · cases head
    rfl
  · cases head

theorem exponent_text_head (text : PyStr) (c : CodePoint) (head : c ∈ (exponentText text).head?) :
    c = ofChar 'e' ∨ c = ofChar 'E' := by
  rcases exponent_text_shape text with none | ⟨shape, _⟩
  · rw [none] at head
    cases head
  · generalize exponentText text = exponent at shape head
    cases shape with
    | written letters _ _ _ =>
        cases head
        exact letters

structure Unsigned (whole fraction exponent rest text : PyStr) : Prop where
  present : whole ≠ []
  written : text = whole ++ (fraction ++ (exponent ++ rest))
  whole_read : wholeText text = whole
  fraction_read : fractionText (fraction ++ (exponent ++ rest)) = fraction
  exponent_read : exponentText (exponent ++ rest) = exponent

theorem unsigned_of (present : wholeText text ≠ []) :
    ∃ whole fraction exponent rest, Unsigned whole fraction exponent rest text := by
  have first := List.prefix_iff_eq_append.mp (whole_text_starts text)
  generalize text.drop (wholeText text).length = behind at first
  have second := List.prefix_iff_eq_append.mp (fraction_text_starts behind)
  generalize behind.drop (fractionText behind).length = behind' at second
  have third := List.prefix_iff_eq_append.mp (exponent_text_starts behind')
  generalize behind'.drop (exponentText behind').length = rest at third
  refine ⟨wholeText text, fractionText behind, exponentText behind', rest, present, ?_, rfl, ?_, ?_⟩
  · rw [third, second, first]
  · rw [third, second]
  · rw [third]

namespace Unsigned

variable {whole fraction exponent rest : PyStr}

theorem head (parts : Unsigned whole fraction exponent rest text) :
    text.head? ≠ some (ofChar '-') := by
  intro minus
  have digits := whole_text_digits text
  rw [parts.whole_read] at digits
  cases whole with
  | nil => exact parts.present rfl
  | cons c more =>
      rw [parts.written] at minus
      cases minus
      exact absurd (digits _ List.mem_cons_self) (by decide)

theorem number_pair (parts : Unsigned whole fraction exponent rest text) (negative : Bool) :
    numberPair ((if negative then [ofChar '-'] else []) ++ text) =
      (numberValue negative whole fraction exponent).map fun value => (value, rest) := by
  have sign : decide (((if negative then [ofChar '-'] else []) ++ text).head? =
      some (ofChar '-')) = negative := by
    cases negative with
    | false => exact decide_eq_false parts.head
    | true => exact decide_eq_true rfl
  have behind : (if negative = true then ((if negative then [ofChar '-'] else []) ++ text).tail
      else (if negative then [ofChar '-'] else []) ++ text) = text := by
    cases negative <;> rfl
  have cut : text.drop whole.length = fraction ++ (exponent ++ rest) := by
    rw [parts.written, List.drop_left]
  unfold numberPair
  simp only [sign, behind, parts.whole_read, cut, parts.fraction_read, List.drop_left,
    parts.exponent_read, if_neg parts.present]

theorem again (parts : Unsigned whole fraction exponent rest text) (ends : Boundary after) :
    Unsigned whole fraction exponent after (whole ++ (fraction ++ (exponent ++ after))) := by
  have stops : ∀ p : CodePoint → Bool, (∀ c, p c = true → isNumberChar c = true) → Stops p after :=
    fun p number => Stops.of_imp ends fun c taken => number_word (number c taken)
  have digits := stops isDigit fun c => digit_number
  have letters := stops (fun c => c = ofChar 'e' || c = ofChar 'E') fun c letter => by
    simp only [Bool.or_eq_true, decide_eq_true_eq] at letter
    rcases letter with rfl | rfl <;> decide
  have points := stops (· = ofChar '.') fun c point => by
    rw [of_decide_eq_true point]
    decide
  have exponent_head := exponent_text_head (exponent ++ rest)
  rw [parts.exponent_read] at exponent_head
  have fraction_head := fraction_text_head (fraction ++ (exponent ++ rest))
  rw [parts.fraction_read] at fraction_head
  have behind_digits : Stops isDigit (exponent ++ after) := by
    refine Stops.append (fun c found => ?_) digits
    rcases exponent_head c found with rfl | rfl <;> decide
  have behind_points : Stops (· = ofChar '.') (exponent ++ after) := by
    refine Stops.append (fun c found => ?_) points
    rcases exponent_head c found with rfl | rfl <;> decide
  have whole_digits : Stops isDigit (fraction ++ (exponent ++ after)) := by
    refine Stops.append (fun c found => ?_) behind_digits
    rw [fraction_head c found]
    decide
  refine ⟨parts.present, rfl, ?_, ?_, ?_⟩
  · have same := @whole_text_again text (fraction ++ (exponent ++ after))
    rw [parts.whole_read] at same
    exact same parts.present whole_digits
  · have same := @fraction_text_again (fraction ++ (exponent ++ rest)) _ behind_digits
      behind_points
    rwa [parts.fraction_read] at same
  · have same := @exponent_text_again (exponent ++ rest) _ digits letters
    rwa [parts.exponent_read] at same

theorem chars (parts : Unsigned whole fraction exponent rest text) :
    ∀ c ∈ whole ++ (fraction ++ exponent), isNumberChar c = true := by
  have first := whole_text_digits text
  rw [parts.whole_read] at first
  have second := fraction_text_chars (fraction ++ (exponent ++ rest))
  rw [parts.fraction_read] at second
  have third := exponent_text_chars (exponent ++ rest)
  rw [parts.exponent_read] at third
  intro c member
  rcases List.mem_append.mp member with digit | member
  · exact digit_number (first c digit)
  · rcases List.mem_append.mp member with found | found
    · exact second c found
    · exact third c found

end Unsigned

theorem number_pair_again {value : Value} {rest : PyStr}
    (found : numberPair text = .ok (value, rest)) :
    ∃ number, number ≠ [] ∧ (∀ c ∈ number, isNumberChar c = true) ∧ text = number ++ rest ∧
      ∀ after, Boundary after → numberPair (number ++ after) = .ok (value, after) := by
  obtain ⟨negative, unsigned, same, shown⟩ : ∃ (negative : Bool) (unsigned : PyStr),
      text = (if negative then [ofChar '-'] else []) ++ unsigned ∧ wholeText unsigned ≠ [] := by
    unfold numberPair at found
    simp only at found
    split_ifs at found with minus none none
    · cases text with
      | nil => cases of_decide_eq_true minus
      | cons c tail =>
          cases of_decide_eq_true minus
          exact ⟨true, tail, rfl, none⟩
    · exact ⟨false, text, rfl, none⟩
  obtain ⟨whole, fraction, exponent, behind, parts⟩ := unsigned_of shown
  rw [same, parts.number_pair] at found
  obtain ⟨read, own, pair⟩ := mapped_ok_iff.mp found
  cases pair
  refine ⟨(if negative then [ofChar '-'] else []) ++ (whole ++ (fraction ++ exponent)), ?_, ?_, ?_, ?_⟩
  · intro empty
    exact parts.present (List.append_eq_nil_iff.mp (List.append_eq_nil_iff.mp empty).2).1
  · intro c member
    rcases List.mem_append.mp member with signed | member
    · cases negative with
      | false => cases signed
      | true =>
          cases List.mem_singleton.mp signed
          decide
    · exact parts.chars c member
  · rw [same, parts.written]
    simp only [List.append_assoc]
  · intro after ends
    have again := (parts.again ends).number_pair negative
    rw [own] at again
    simp only [List.append_assoc]
    exact again

end Numbers

section Words

variable {text : PyStr} {value : Value} {rest : PyStr}

def wordPair (text : PyStr) : Except Raised (Value × PyStr) :=
  match constants.find? fun word => (ofText word.1).isPrefixOf text with
  | some word => .ok (word.2, text.drop word.1.length)
  | none => numberPair text

theorem constant_again {word : Str × Value} (member : word ∈ constants) (after : PyStr) :
    (constants.find? fun word' => (ofText word'.1).isPrefixOf (ofText word.1 ++ after)) =
      some word := by
  simp only [constants, List.mem_cons, List.not_mem_nil, or_false] at member
  rcases member with rfl | rfl | rfl | rfl | rfl | rfl <;> rfl

theorem constant_present {word : Str × Value} (member : word ∈ constants) : word.1 ≠ [] := by
  simp only [constants, List.mem_cons, List.not_mem_nil, or_false] at member
  rcases member with rfl | rfl | rfl | rfl | rfl | rfl <;> decide

theorem constant_chars {word : Str × Value} (member : word ∈ constants) :
    ofText word.1 ≠ [] ∧ ∀ c ∈ ofText word.1, isWordChar c = true := by
  have all : ((constants.map Prod.fst).all fun word =>
      !(ofText word).isEmpty && (ofText word).all isWordChar) = true := by decide
  have own := List.all_eq_true.mp all _ (List.mem_map_of_mem member)
  simp only [Bool.and_eq_true, Bool.not_eq_true', List.isEmpty_eq_false_iff, List.all_eq_true] at own
  exact own

theorem number_not_constant {number : PyStr} (present : number ≠ []) (signed : number ≠ [ofChar '-'])
    (chars : ∀ c ∈ number, isNumberChar c = true) (after : PyStr) :
    (constants.find? fun word => (ofText word.1).isPrefixOf (number ++ after)) = none := by
  rw [List.find?_eq_none]
  intro word member matched
  have own := List.mem_map_of_mem (f := Prod.fst) member
  have front := List.isPrefixOf_iff_prefix.mp matched
  rcases List.prefix_or_prefix_of_prefix front (List.prefix_append number after) with short | long
  · have all : ((constants.map Prod.fst).all fun word =>
        (ofText word).any fun c => !isNumberChar c) = true := by decide
    obtain ⟨c, inside, other⟩ := List.any_eq_true.mp (List.all_eq_true.mp all _ own)
    rw [chars c (short.subset inside)] at other
    cases other
  · have all : ((constants.map Prod.fst).all fun word => (ofText word).inits.all fun front =>
        front.isEmpty || front = [ofChar '-'] || front.any fun c => !isNumberChar c) = true := by
      decide
    have begun := List.all_eq_true.mp (List.all_eq_true.mp all _ own) number
      ((List.mem_inits _ _).mpr long)
    simp only [Bool.or_eq_true, List.isEmpty_iff, decide_eq_true_eq, List.any_eq_true] at begun
    rcases begun with (empty | minus) | ⟨c, inside, other⟩
    · exact present empty
    · exact signed minus
    · rw [chars c inside] at other
      cases other

theorem word_pair_again (found : wordPair text = .ok (value, rest)) :
    ∃ word, word ≠ [] ∧ (∀ c ∈ word, isWordChar c = true) ∧ text = word ++ rest ∧
      ∀ after, Boundary after → wordPair (word ++ after) = .ok (value, after) := by
  unfold wordPair at found
  cases constant : constants.find? fun word => (ofText word.1).isPrefixOf text with
  | some word =>
      rw [constant] at found
      cases found
      have member := List.mem_of_find?_eq_some constant
      have matched : (ofText word.1).isPrefixOf text = true :=
        List.find?_some (p := fun word : Str × Value => (ofText word.1).isPrefixOf text) constant
      have front := List.isPrefixOf_iff_prefix.mp matched
      have chars := constant_chars member
      have size : (ofText word.1).length = word.1.length := List.length_map ofChar
      refine ⟨ofText word.1, chars.1, chars.2, ?_, fun after _ => ?_⟩
      · rw [← size]
        exact (List.prefix_iff_eq_append.mp front).symm
      · unfold wordPair
        rw [constant_again member]
        simp only
        rw [← size, List.drop_left]
  | none =>
      rw [constant] at found
      obtain ⟨number, present, chars, same, again⟩ := number_pair_again found
      refine ⟨number, present, fun c member => number_word (chars c member), same, ?_⟩
      intro after ends
      unfold wordPair
      rw [number_not_constant present ?_ chars]
      · exact again after ends
      · rintro rfl
        have never := again [] (by simp [Boundary])
        cases never

end Words

section Scans

variable {depth : Nat} {text tail rest : PyStr} {c : CodePoint}

def oncePair (depth : Nat) (text : PyStr) : Except Raised (Value × PyStr) :=
  (scanOnce depth text).map Scan.pair

def membersPair (depth : Nat) (entries : List (PyStr × Value)) (text : PyStr) :
    Except Raised (List (PyStr × Value) × PyStr) := (scanMembers depth entries text).map Scan.pair

def itemsPair (depth : Nat) (text : PyStr) : Except Raised (List Value × PyStr) :=
  (scanItems depth text).map Scan.pair

theorem once_pair_string (depth : Nat) (tail : PyStr) : oncePair depth (ofChar '"' :: tail) =
    (stringPair tail).map fun string => (.str string.1, string.2) := by
  unfold oncePair stringPair
  rw [scanOnce.eq_def]
  simp only [if_true]
  cases scanString tail <;> rfl

theorem once_pair_word (quote : c ≠ ofChar '"') (brace : c ≠ ofChar '{') (bracket : c ≠ ofChar '[') :
    oncePair depth (c :: tail) = wordPair (c :: tail) := by
  unfold oncePair wordPair
  rw [scanOnce.eq_def]
  simp only [if_neg quote, if_neg brace, if_neg bracket]
  cases found : constants.find? fun word => (ofText word.1).isPrefixOf (c :: tail) with
  | some word =>
      have member := List.mem_of_find?_eq_some found
      have same : (c :: tail).drop word.1.length = tail.drop (word.1.length - 1) := by
        rw [← Nat.sub_add_cancel (List.length_pos_iff.mpr (constant_present member))]
        rfl
      exact congrArg (fun rest => Except.ok (word.2, rest)) same.symm
  | none => exact number_pair_eq c tail

theorem once_pair_object (depth : Nat) (tail : PyStr) :
    oncePair (depth + 1) (ofChar '{' :: tail) =
      if (skipSpace tail).head? = some (ofChar '}') then .ok (.dict [], (skipSpace tail).tail)
      else (membersPair depth [] (skipSpace tail)).map fun all => (.dict all.1, all.2) := by
  have quote : ofChar '{' ≠ ofChar '"' := by decide
  unfold oncePair membersPair
  rw [scanOnce.eq_def]
  simp only [if_neg quote, if_true]
  cases closed : expect '}' tail with
  | some closing =>
      rw [if_pos (expect_head closed).1, (expect_head closed).2]
      rfl
  | none =>
      rw [if_neg (expect_none_iff.mp closed)]
      cases scanMembers depth [] (skipSpace tail) <;> rfl

theorem once_pair_array (depth : Nat) (tail : PyStr) :
    oncePair (depth + 1) (ofChar '[' :: tail) =
      if (skipSpace tail).head? = some (ofChar ']') then .ok (.list [], (skipSpace tail).tail)
      else (itemsPair depth (skipSpace tail)).map fun all => (.list all.1, all.2) := by
  have quote : ofChar '[' ≠ ofChar '"' := by decide
  have brace : ofChar '[' ≠ ofChar '{' := by decide
  unfold oncePair itemsPair
  rw [scanOnce.eq_def]
  simp only [if_neg quote, if_neg brace, if_true]
  cases closed : expect ']' tail with
  | some closing =>
      rw [if_pos (expect_head closed).1, (expect_head closed).2]
      rfl
  | none =>
      rw [if_neg (expect_none_iff.mp closed)]
      cases scanItems depth (skipSpace tail) <;> rfl

theorem once_pair_deepest {c : CodePoint} (opener : c = ofChar '{' ∨ c = ofChar '[') (tail : PyStr) :
    oncePair 0 (c :: tail) = .error recursionError := by
  have quote : c ≠ ofChar '"' := by rcases opener with rfl | rfl <;> decide
  unfold oncePair
  rw [scanOnce.eq_def]
  simp only [if_neg quote]
  split_ifs with brace bracket
  · rfl
  · rfl
  · exact absurd opener (not_or.mpr ⟨brace, bracket⟩)

theorem items_pair (depth : Nat) (text : PyStr) :
    itemsPair depth text = oncePair depth text >>= fun value =>
      if (skipSpace value.2).head? = some (ofChar ']') then
        .ok ([value.1], (skipSpace value.2).tail)
      else if (skipSpace value.2).head? = some (ofChar ',') then
        (itemsPair depth (skipSpace (skipSpace value.2).tail)).map fun items =>
          (value.1 :: items.1, items.2)
      else .error jsonDecodeError := by
  unfold itemsPair oncePair
  rw [scanItems]
  cases scanOnce depth text with
  | error error => rfl
  | ok value =>
      simp only [ok_bind, mapped_ok]
      cases closed : expect ']' value.rest with
      | some closing =>
          rw [if_pos (expect_head closed).1, (expect_head closed).2]
          rfl
      | none =>
          rw [if_neg (expect_none_iff.mp closed)]
          cases more : expect ',' value.rest with
          | some comma =>
              rw [if_pos (expect_head more).1, (expect_head more).2]
              simp only
              cases scanItems depth (skipSpace comma.rest) <;> rfl
          | none =>
              rw [if_neg (expect_none_iff.mp more)]
              rfl

theorem members_pair (depth : Nat) (entries : List (PyStr × Value)) (tail : PyStr) :
    membersPair depth entries (ofChar '"' :: tail) = stringPair tail >>= fun key =>
      if (skipSpace key.2).head? = some (ofChar ':') then
        oncePair depth (skipSpace (skipSpace key.2).tail) >>= fun value =>
          let entries := setEntry key.1 value.1 entries
          if (skipSpace value.2).head? = some (ofChar '}') then
            .ok (entries, (skipSpace value.2).tail)
          else if (skipSpace value.2).head? = some (ofChar ',') then
            membersPair depth entries (skipSpace (skipSpace value.2).tail)
          else .error jsonDecodeError
      else .error jsonDecodeError := by
  unfold membersPair stringPair
  rw [scanMembers, if_pos rfl]
  cases scanString tail with
  | error error => rfl
  | ok key =>
      simp only [ok_bind, mapped_ok]
      cases colon : expect ':' key.rest with
      | none =>
          rw [if_neg (expect_none_iff.mp colon)]
          rfl
      | some mark =>
          rw [if_pos (expect_head colon).1, (expect_head colon).2]
          unfold oncePair
          simp only
          cases scanOnce depth (skipSpace mark.rest) with
          | error error => rfl
          | ok value =>
              simp only [ok_bind, mapped_ok]
              cases closed : expect '}' value.rest with
              | some closing =>
                  rw [if_pos (expect_head closed).1, (expect_head closed).2]
                  rfl
              | none =>
                  rw [if_neg (expect_none_iff.mp closed)]
                  cases more : expect ',' value.rest with
                  | some comma =>
                      rw [if_pos (expect_head more).1, (expect_head more).2]
                      simp only
                      cases scanMembers depth (setEntry key.value value.value entries)
                        (skipSpace comma.rest) <;> rfl
                  | none =>
                      rw [if_neg (expect_none_iff.mp more)]
                      rfl

theorem members_pair_quote {entries : List (PyStr × Value)} {read : List (PyStr × Value) × PyStr}
    (found : membersPair depth entries text = .ok read) : ∃ tail, text = ofChar '"' :: tail := by
  unfold membersPair at found
  cases text with
  | nil =>
      rw [scanMembers] at found
      cases found
  | cons c tail =>
      rw [scanMembers] at found
      split_ifs at found with quote
      · exact ⟨tail, by rw [quote]⟩
      · cases found

end Scans

/-- What tokens spell: a value, or what stands behind a brace or a bracket and is not closed at
once, for an object with the members that are set already. -/
inductive Part
  | value (read : Value)
  | members (start all : List (PyStr × Value))
  | items (all : List Value)

/-- The grammar of JSON, with this many containers left to open. -/
inductive Reads : Nat → Part → List PyStr → Prop
  | string {depth : Nat} {body string : PyStr} (read : stringPair body = .ok (string, [])) :
      Reads depth (.value (.str string)) [ofChar '"' :: body]
  | word {depth : Nat} {word : PyStr} {value : Value} (present : word ≠ [])
      (chars : ∀ c ∈ word, isWordChar c = true) (read : wordPair word = .ok (value, [])) :
      Reads depth (.value value) [word]
  | empty_object {depth : Nat} :
      Reads (depth + 1) (.value (.dict [])) [[ofChar '{'], [ofChar '}']]
  | object {depth : Nat} {entries : List (PyStr × Value)} {tokens : List PyStr}
      (more : Reads depth (.members [] entries) tokens) :
      Reads (depth + 1) (.value (.dict entries)) ([ofChar '{'] :: tokens)
  | empty_array {depth : Nat} :
      Reads (depth + 1) (.value (.list [])) [[ofChar '['], [ofChar ']']]
  | array {depth : Nat} {items : List Value} {tokens : List PyStr}
      (more : Reads depth (.items items) tokens) :
      Reads (depth + 1) (.value (.list items)) ([ofChar '['] :: tokens)
  | last_member {depth : Nat} {body key : PyStr} {value : Value} {tokens : List PyStr}
      {start : List (PyStr × Value)} (named : stringPair body = .ok (key, []))
      (read : Reads depth (.value value) tokens) :
      Reads depth (.members start (setEntry key value start))
        ((ofChar '"' :: body) :: [ofChar ':'] :: (tokens ++ [[ofChar '}']]))
  | member {depth : Nat} {body key : PyStr} {value : Value} {tokens others : List PyStr}
      {start all : List (PyStr × Value)} (named : stringPair body = .ok (key, []))
      (read : Reads depth (.value value) tokens)
      (more : Reads depth (.members (setEntry key value start) all) others) :
      Reads depth (.members start all)
        ((ofChar '"' :: body) :: [ofChar ':'] :: (tokens ++ [ofChar ','] :: others))
  | last_item {depth : Nat} {value : Value} {tokens : List PyStr}
      (read : Reads depth (.value value) tokens) :
      Reads depth (.items [value]) (tokens ++ [[ofChar ']']])
  | item {depth : Nat} {value : Value} {items : List Value} {tokens others : List PyStr}
      (read : Reads depth (.value value) tokens) (more : Reads depth (.items items) others) :
      Reads depth (.items (value :: items)) (tokens ++ [ofChar ','] :: others)

def Scanned (depth : Nat) (text rest : PyStr) : Part → Prop
  | .value value => oncePair depth text = .ok (value, rest)
  | .members start all => membersPair depth start text = .ok (all, rest)
  | .items all => itemsPair depth text = .ok (all, rest)

section Completeness

variable {depth : Nat} {text rest : PyStr} {tokens : List PyStr}

theorem word_head {word : PyStr} (present : word ≠ []) (chars : ∀ c ∈ word, isWordChar c = true)
    (mark : CodePoint) (is_mark : isMark mark = true) : word.head? ≠ some mark := by
  cases word with
  | nil => exact absurd rfl present
  | cons c tail =>
      intro same
      cases same
      have word := chars _ List.mem_cons_self
      rw [mark_outside is_mark] at word
      cases word

theorem string_head (body : PyStr) (mark : CodePoint) (is_mark : isMark mark = true) :
    (ofChar '"' :: body).head? ≠ some mark := by
  intro same
  cases same
  exact absurd is_mark (by decide)

theorem Reads.opens {part : Part} (reads : Reads depth part tokens) :
    ∃ token more, tokens = token :: more ∧ token.head? ≠ some (ofChar '}') ∧
      token.head? ≠ some (ofChar ']') := by
  induction reads with
  | string _ => exact ⟨_, _, rfl, string_head _ _ (by decide), string_head _ _ (by decide)⟩
  | word present chars _ =>
      exact ⟨_, _, rfl, word_head present chars _ (by decide), word_head present chars _ (by decide)⟩
  | empty_object => exact ⟨_, _, rfl, by decide, by decide⟩
  | object _ _ => exact ⟨_, _, rfl, by decide, by decide⟩
  | empty_array => exact ⟨_, _, rfl, by decide, by decide⟩
  | array _ _ => exact ⟨_, _, rfl, by decide, by decide⟩
  | last_member _ _ _ =>
      exact ⟨_, _, rfl, string_head _ _ (by decide), string_head _ _ (by decide)⟩
  | member _ _ _ _ _ =>
      exact ⟨_, _, rfl, string_head _ _ (by decide), string_head _ _ (by decide)⟩
  | last_item _ ih =>
      obtain ⟨token, more, rfl, heads⟩ := ih
      exact ⟨token, _, rfl, heads⟩
  | item _ _ ih _ =>
      obtain ⟨token, more, rfl, heads⟩ := ih
      exact ⟨token, _, rfl, heads⟩

theorem string_pair_again {body string : PyStr} (read : stringPair body = .ok (string, []))
    (after : PyStr) : stringPair (body ++ after) = .ok (string, after) := by
  obtain ⟨inner, quoted, same⟩ := string_pair_quoted read
  rw [List.append_nil] at same
  rw [string_pair_inside (same ▸ quoted), read]
  rfl

theorem word_pair_read {word : PyStr} {value : Value} (read : wordPair word = .ok (value, []))
    {after : PyStr} (ends : Boundary after) : wordPair (word ++ after) = .ok (value, after) := by
  obtain ⟨front, _, _, same, again⟩ := word_pair_again read
  rw [List.append_nil] at same
  rw [same]
  exact again after ends

/-- The scanner reads what the tokens spell, whatever white space stands between them. -/
theorem Reads.scanned {part : Part} (reads : Reads depth part tokens)
    (spelled : Spells tokens rest text) : Scanned depth (skipSpace text) rest part := by
  induction reads generalizing text rest with
  | string read =>
      obtain ⟨after, same, _, _, done⟩ := spelled.opens
      cases done
      change oncePair _ _ = _
      rw [same, List.cons_append, once_pair_string, string_pair_again read]
      rfl
  | @word _ word _ present chars read =>
      obtain ⟨after, same, _, fits, done⟩ := spelled.opens
      cases done
      cases word with
      | nil => exact absurd rfl present
      | cons c more =>
          have plain := word_char_plain (chars c List.mem_cons_self)
          have brace : c ≠ ofChar '{' := by
            rintro rfl
            exact absurd plain.2.1 (by decide)
          have bracket : c ≠ ofChar '[' := by
            rintro rfl
            exact absurd plain.2.1 (by decide)
          change oncePair _ _ = _
          rw [same, List.cons_append, once_pair_word plain.2.2.1 brace bracket]
          exact word_pair_read read (fits chars)
  | empty_object =>
      obtain ⟨behind, opened, spelled⟩ := mark_of_spells spelled
      obtain ⟨last, closed, done⟩ := mark_of_spells spelled
      cases done
      change oncePair _ _ = _
      rw [opened, once_pair_object, closed]
      rfl
  | object more ih =>
      obtain ⟨behind, opened, spelled⟩ := mark_of_spells spelled
      have open_head : (skipSpace behind).head? ≠ some (ofChar '}') := by
        obtain ⟨token, others, rfl, other, _⟩ := more.opens
        rw [spelled.head]
        exact other
      change oncePair _ _ = _
      rw [opened, once_pair_object, if_neg open_head, ih spelled]
      rfl
  | empty_array =>
      obtain ⟨behind, opened, spelled⟩ := mark_of_spells spelled
      obtain ⟨last, closed, done⟩ := mark_of_spells spelled
      cases done
      change oncePair _ _ = _
      rw [opened, once_pair_array, closed]
      rfl
  | array more ih =>
      obtain ⟨behind, opened, spelled⟩ := mark_of_spells spelled
      have open_head : (skipSpace behind).head? ≠ some (ofChar ']') := by
        obtain ⟨token, others, rfl, _, other⟩ := more.opens
        rw [spelled.head]
        exact other
      change oncePair _ _ = _
      rw [opened, once_pair_array, if_neg open_head, ih spelled]
      rfl
  | last_member named _ ih =>
      obtain ⟨after, same, _, _, spelled⟩ := spelled.opens
      obtain ⟨behind, colon, spelled⟩ := mark_of_spells spelled
      obtain ⟨middle, own, spelled⟩ := spelled.split
      obtain ⟨last, closed, done⟩ := mark_of_spells spelled
      cases done
      have value : oncePair _ _ = _ := ih own
      change membersPair _ _ _ = _
      rw [same, List.cons_append, members_pair, string_pair_again named]
      simp only [ok_bind, colon, List.head?_cons, List.tail_cons, if_true, value, closed]
  | member named _ _ ih others =>
      obtain ⟨after, same, _, _, spelled⟩ := spelled.opens
      obtain ⟨behind, colon, spelled⟩ := mark_of_spells spelled
      obtain ⟨middle, own, spelled⟩ := spelled.split
      obtain ⟨next, comma, spelled⟩ := mark_of_spells spelled
      have value : oncePair _ _ = _ := ih own
      have rest : membersPair _ _ _ = _ := others spelled
      have apart : some (ofChar ',') ≠ some (ofChar '}') := by decide
      change membersPair _ _ _ = _
      rw [same, List.cons_append, members_pair, string_pair_again named]
      simp only [ok_bind, colon, List.head?_cons, List.tail_cons, if_true, value, comma, if_neg apart,
        rest]
  | last_item _ ih =>
      obtain ⟨middle, own, spelled⟩ := spelled.split
      obtain ⟨last, closed, done⟩ := mark_of_spells spelled
      cases done
      have value : oncePair _ _ = _ := ih own
      change itemsPair _ _ = _
      rw [items_pair]
      simp only [value, ok_bind, closed, List.head?_cons, List.tail_cons, if_true]
  | item _ _ ih others =>
      obtain ⟨middle, own, spelled⟩ := spelled.split
      obtain ⟨next, comma, spelled⟩ := mark_of_spells spelled
      have value : oncePair _ _ = _ := ih own
      have rest : itemsPair _ _ = _ := others spelled
      have apart : some (ofChar ',') ≠ some (ofChar ']') := by decide
      change itemsPair _ _ = _
      rw [items_pair]
      simp only [value, ok_bind, comma, List.head?_cons, List.tail_cons, if_true, if_neg apart, rest,
        mapped_ok]

end Completeness

section Soundness

variable {value : Value} {text rest : PyStr}

theorem once_pair_shorter {depth : Nat} (found : oncePair depth text = .ok (value, rest)) :
    rest.length < text.length := by
  obtain ⟨scan, _, same⟩ := mapped_ok_iff.mp found
  cases same
  exact scan.shorter

theorem string_pair_shorter {string : PyStr} (found : stringPair text = .ok (string, rest)) :
    rest.length < text.length := by
  obtain ⟨scan, _, same⟩ := mapped_ok_iff.mp found
  cases same
  exact scan.shorter

theorem string_pair_cut {string : PyStr} (found : stringPair text = .ok (string, rest)) :
    ∃ body, Quoted body ∧ text = body ++ rest ∧ stringPair body = .ok (string, []) := by
  obtain ⟨body, quoted, same⟩ := string_pair_quoted found
  rw [same, string_pair_inside quoted] at found
  obtain ⟨⟨inner, left⟩, read, pair⟩ := mapped_ok_iff.mp found
  simp only [Prod.mk.injEq, List.append_left_eq_self] at pair
  rw [pair.1, pair.2] at read
  exact ⟨body, quoted, same, read⟩

theorem skip_mark_shorter {mark : CodePoint} {behind : PyStr}
    (head : (skipSpace text).head? = some mark) (same : behind = (skipSpace text).tail) :
    skipSpace text = mark :: behind ∧ behind.length < text.length := by
  have bound := skip_space_le text
  cases shape : skipSpace text with
  | nil =>
      rw [shape] at head
      cases head
  | cons c tail =>
      rw [shape] at head same bound
      cases head
      rw [same]
      exact ⟨rfl, bound⟩

theorem Spells.front {token : PyStr} {tokens : List PyStr} (more : Spells tokens rest text)
    (is_token : Token token) (fits : Fits token text) :
    Spells (token :: tokens) rest (token ++ text) :=
  @Spells.token [] _ _ _ _ (by simp) is_token fits more

theorem Spells.behind_mark {mark : CodePoint} {tokens : List PyStr} (more : Spells tokens rest text)
    (is_mark : isMark mark = true) : Spells ([mark] :: tokens) rest (mark :: text) :=
  more.front (.mark is_mark) (fits_mark is_mark text)

theorem Reads.skipped {depth : Nat} {part : Part} {tokens : List PyStr}
    (reads : Reads depth part tokens) (spelled : Spells tokens rest (skipSpace text)) :
    Spells tokens rest text := by
  obtain ⟨token, more, rfl, _⟩ := reads.opens
  exact spelled.skipped

mutual

theorem once_pair_reads (depth : Nat) (text : PyStr) {value : Value} {rest : PyStr}
    (found : oncePair depth text = .ok (value, rest)) (ends : Boundary rest) :
    ∃ tokens, Reads depth (.value value) tokens ∧ Spells tokens rest text := by
  cases text with
  | nil =>
      unfold oncePair at found
      rw [scanOnce] at found
      cases found
  | cons c tail =>
      have skipped := skip_space_le tail
      by_cases quote : c = ofChar '"'
      · rw [quote, once_pair_string] at found
        obtain ⟨⟨string, left⟩, read, pair⟩ := mapped_ok_iff.mp found
        cases pair
        obtain ⟨body, quoted, same, own⟩ := string_pair_cut read
        rw [quote, same]
        exact ⟨_, .string own, Spells.front (.done left) (.string quoted) (fits_string body left)⟩
      · by_cases brace : c = ofChar '{'
        · cases depth with
          | zero =>
              rw [once_pair_deepest (.inl brace)] at found
              cases found
          | succ depth =>
              rw [brace, once_pair_object] at found
              subst brace
              split_ifs at found with closed
              · cases found
                have shape := skip_mark_shorter closed rfl
                exact ⟨_, .empty_object, (spells_of_mark (by decide) shape.1).behind_mark (by decide)⟩
              · obtain ⟨⟨entries, left⟩, read, pair⟩ := mapped_ok_iff.mp found
                cases pair
                obtain ⟨tokens, reads, spelled⟩ := members_pair_reads depth [] _ read
                exact ⟨_, .object reads, (reads.skipped spelled).behind_mark (by decide)⟩
        · by_cases bracket : c = ofChar '['
          · cases depth with
            | zero =>
                rw [once_pair_deepest (.inr bracket)] at found
                cases found
            | succ depth =>
                rw [bracket, once_pair_array] at found
                subst bracket
                split_ifs at found with closed
                · cases found
                  have shape := skip_mark_shorter closed rfl
                  exact ⟨_, .empty_array, (spells_of_mark (by decide) shape.1).behind_mark (by decide)⟩
                · obtain ⟨⟨items, left⟩, read, pair⟩ := mapped_ok_iff.mp found
                  cases pair
                  obtain ⟨tokens, reads, spelled⟩ := items_pair_reads depth _ read
                  exact ⟨_, .array reads, (reads.skipped spelled).behind_mark (by decide)⟩
          · rw [once_pair_word quote brace bracket] at found
            obtain ⟨word, present, chars, same, again⟩ := word_pair_again found
            have read := again [] (by simp [Boundary])
            rw [List.append_nil] at read
            have token : Token word := by
              cases word with
              | nil => exact absurd rfl present
              | cons d more => exact .word chars
            rw [same]
            exact ⟨_, .word present chars read, Spells.front (.done rest) token fun _ => ends⟩
termination_by 2 * text.length
decreasing_by
  all_goals
    subst_vars
    simp only [List.length_cons]
    omega

theorem members_pair_reads (depth : Nat) (entries : List (PyStr × Value)) (text : PyStr)
    {all : List (PyStr × Value)} {rest : PyStr}
    (found : membersPair depth entries text = .ok (all, rest)) :
    ∃ tokens, Reads depth (.members entries all) tokens ∧ Spells tokens rest text := by
  obtain ⟨tail, rfl⟩ := members_pair_quote found
  rw [members_pair] at found
  obtain ⟨⟨key, behind_key⟩, named, found⟩ := bind_returns_iff.mp found
  have first := string_pair_shorter named
  simp only at found
  split_ifs at found with colon
  obtain ⟨⟨value, behind⟩, read, found⟩ := bind_returns_iff.mp found
  have second := skip_mark_shorter colon rfl
  have third := skip_space_le (skipSpace behind_key).tail
  have fourth := once_pair_shorter read
  obtain ⟨body, quoted, same, own⟩ := string_pair_cut named
  have start : ∀ {tokens : List PyStr}, Spells tokens rest (skipSpace behind_key).tail →
      Spells ((ofChar '"' :: body) :: [ofChar ':'] :: tokens) rest (ofChar '"' :: tail) := by
    intro tokens more
    rw [same]
    have marked := (spells_of_mark (by decide) second.1).append more
    exact marked.front (.string quoted) (fits_string body behind_key)
  simp only at found
  split_ifs at found with closed comma
  · cases found
    have shape := skip_mark_shorter closed rfl
    obtain ⟨tokens, reads, spelled⟩ := once_pair_reads depth _ read
      (boundary_of_mark (by decide) shape.1)
    have ended := (reads.skipped spelled).append (spells_of_mark (by decide) shape.1)
    exact ⟨_, .last_member own reads, start ended⟩
  · have shape := skip_mark_shorter comma rfl
    have fifth := skip_space_le (skipSpace behind).tail
    obtain ⟨tokens, reads, spelled⟩ := once_pair_reads depth _ read
      (boundary_of_mark (by decide) shape.1)
    obtain ⟨others, rest_reads, rest_spelled⟩ := members_pair_reads depth _ _ found
    have marked := (spells_of_mark (by decide) shape.1).append (rest_reads.skipped rest_spelled)
    exact ⟨_, .member own reads rest_reads, start ((reads.skipped spelled).append marked)⟩
termination_by 2 * text.length
decreasing_by
  all_goals
    subst_vars
    simp only [List.length_cons]
    omega

theorem items_pair_reads (depth : Nat) (text : PyStr) {all : List Value} {rest : PyStr}
    (found : itemsPair depth text = .ok (all, rest)) :
    ∃ tokens, Reads depth (.items all) tokens ∧ Spells tokens rest text := by
  rw [items_pair] at found
  obtain ⟨⟨value, behind⟩, read, found⟩ := bind_returns_iff.mp found
  have first := once_pair_shorter read
  simp only at found
  split_ifs at found with closed comma
  · cases found
    have shape := skip_mark_shorter closed rfl
    obtain ⟨tokens, reads, spelled⟩ := once_pair_reads depth _ read
      (boundary_of_mark (by decide) shape.1)
    exact ⟨_, .last_item reads, spelled.append (spells_of_mark (by decide) shape.1)⟩
  · obtain ⟨⟨items, left⟩, more, pair⟩ := mapped_ok_iff.mp found
    cases pair
    have shape := skip_mark_shorter comma rfl
    have second := skip_space_le (skipSpace behind).tail
    obtain ⟨tokens, reads, spelled⟩ := once_pair_reads depth _ read
      (boundary_of_mark (by decide) shape.1)
    obtain ⟨others, rest_reads, rest_spelled⟩ := items_pair_reads depth _ more
    have marked := (spells_of_mark (by decide) shape.1).append (rest_reads.skipped rest_spelled)
    exact ⟨_, .item reads rest_reads, spelled.append marked⟩
termination_by 2 * text.length + 1
decreasing_by
  · omega
  · omega
  · omega

end

end Soundness

section Uniqueness

variable {rest text : PyStr} {tokens : List PyStr}

theorem Quoted.unique {first second front back : PyStr} (quoted : Quoted first)
    (other : Quoted second) (same : first ++ front = second ++ back) : first = second := by
  induction quoted generalizing second with
  | close =>
      cases other with
      | close => rfl
      | plain quote _ _ => exact absurd (List.cons.inj same).1.symm quote
      | escape _ _ => exact absurd (List.cons.inj same).1 (by decide)
  | plain quote slash _ ih =>
      cases other with
      | close => exact absurd (List.cons.inj same).1 quote
      | plain _ _ more =>
          rw [(List.cons.inj same).1, ih more (List.cons.inj same).2]
      | escape _ _ => exact absurd (List.cons.inj same).1 slash
  | escape c _ ih =>
      cases other with
      | close => exact absurd (List.cons.inj same).1 (by decide)
      | plain _ slash _ => exact absurd (List.cons.inj same).1.symm slash
      | escape d more =>
          have tails := List.cons.inj (List.cons.inj same).2
          rw [tails.1, ih more tails.2]

theorem word_taken {word after : PyStr} (chars : ∀ c ∈ word, isWordChar c = true)
    (ends : Boundary after) : (word ++ after).takeWhile isWordChar = word := by
  rw [List.takeWhile_append_of_pos chars, Stops.take_while ends, List.append_nil]

theorem quote_outside : isWordChar (ofChar '"') = false := by decide

theorem Token.unique {first second front back : PyStr} (token : Token first) (other : Token second)
    (fits : Fits first front) (fits' : Fits second back) (same : first ++ front = second ++ back) :
    first = second := by
  cases token with
  | mark mark =>
      have outside := mark_outside mark
      cases other with
      | mark _ => rw [(List.cons.inj same).1]
      | string _ =>
          rw [(List.cons.inj same).1] at mark
          exact absurd mark (by decide)
      | word chars =>
          rw [(List.cons.inj same).1, chars _ List.mem_cons_self] at outside
          cases outside
  | string quoted =>
      cases other with
      | mark mark =>
          rw [← (List.cons.inj same).1] at mark
          exact absurd mark (by decide)
      | string quoted' => rw [quoted.unique quoted' (List.cons.inj same).2]
      | word chars =>
          have inside := chars _ List.mem_cons_self
          rw [← (List.cons.inj same).1, quote_outside] at inside
          cases inside
  | word chars =>
      cases other with
      | mark mark =>
          have inside := chars _ List.mem_cons_self
          rw [(List.cons.inj same).1, mark_outside mark] at inside
          cases inside
      | string _ =>
          have inside := chars _ List.mem_cons_self
          rw [(List.cons.inj same).1, quote_outside] at inside
          cases inside
      | word chars' =>
          have taken := word_taken chars (fits chars)
          rw [same] at taken
          exact taken.symm.trans (word_taken chars' (fits' chars'))

theorem skip_blank (blank : ∀ c ∈ text, isJsonSpace c = true) : skipSpace text = [] :=
  List.dropWhile_eq_nil_iff.mpr blank

theorem Spells.shown {token : PyStr} (spelled : Spells (token :: tokens) rest text) :
    skipSpace text ≠ [] := by
  obtain ⟨after, same, is_token, _, _⟩ := spelled.opens
  obtain ⟨c, more, rfl, _⟩ := is_token.opens
  rw [same]
  exact List.cons_ne_nil _ _

theorem Spells.unique {others : List PyStr} {left : PyStr} (spelled : Spells tokens rest text)
    (again : Spells others left text) (blank : ∀ c ∈ rest, isJsonSpace c = true)
    (blank' : ∀ c ∈ left, isJsonSpace c = true) : tokens = others := by
  induction tokens generalizing others text with
  | nil =>
      cases spelled
      cases others with
      | nil => rfl
      | cons _ _ => exact absurd (skip_blank blank) again.shown
  | cons token tokens ih =>
      cases others with
      | nil =>
          cases again
          exact absurd (skip_blank blank') spelled.shown
      | cons other others =>
          obtain ⟨after, same, is_token, fits, more⟩ := spelled.opens
          obtain ⟨after', same', is_token', fits', more'⟩ := again.opens
          have both := same.symm.trans same'
          have first := is_token.unique is_token' fits fits' both
          rw [first] at both
          rw [← List.append_cancel_left both] at more'
          rw [first, ih more more']

end Uniqueness

section Loading

variable {text : PyStr} {value : Value}

theorem word_pair_byte_order (tail : PyStr) :
    wordPair (codePoint 0xFEFF :: tail) = .error jsonDecodeError := rfl

theorem not_byte_order {depth : Nat} {rest : PyStr}
    (read : oncePair depth (skipSpace text) = .ok (value, rest)) :
    text.head? ≠ some (codePoint 0xFEFF) := by
  intro mark
  cases text with
  | nil => cases mark
  | cons c tail =>
      cases mark
      have skipped : skipSpace (codePoint 0xFEFF :: tail) = codePoint 0xFEFF :: tail :=
        List.dropWhile_cons_of_neg (by decide)
      rw [skipped, once_pair_word (by decide) (by decide) (by decide), word_pair_byte_order] at read
      cases read

variable [Interpreter]

/-- `json.loads` takes what the grammar spells, with white space before and behind it. -/
theorem loads_text_ok_iff : loadsText text = .ok value ↔
    ∃ tokens rest, Reads Interpreter.scanDepth (.value value) tokens ∧ Spells tokens rest text ∧
      ∀ c ∈ rest, isJsonSpace c = true := by
  constructor
  · intro found
    unfold loadsText decode at found
    split_ifs at found
    obtain ⟨scan, scanned, found⟩ := bind_returns_iff.mp found
    split_ifs at found with blank
    cases found
    have read : oncePair Interpreter.scanDepth (skipSpace text) = .ok (scan.value, scan.rest) := by
      unfold oncePair
      rw [scanned]
      rfl
    have trailing := List.dropWhile_eq_nil_iff.mp (List.isEmpty_iff.mp blank)
    have ends : Boundary scan.rest :=
      fun c head => space_outside (trailing c (List.mem_of_mem_head? head))
    obtain ⟨tokens, reads, spelled⟩ := once_pair_reads _ _ read ends
    exact ⟨tokens, scan.rest, reads, reads.skipped spelled, trailing⟩
  · rintro ⟨tokens, rest, reads, spelled, blank⟩
    have read : oncePair _ _ = _ := reads.scanned spelled
    have unmarked := not_byte_order read
    obtain ⟨scan, scanned, pair⟩ := mapped_ok_iff.mp read
    cases pair
    unfold loadsText decode
    rw [if_neg unmarked, scanned]
    simp only [ok_bind, skip_blank blank]
    rfl

end Loading

end DearAgent.Lib.Json
