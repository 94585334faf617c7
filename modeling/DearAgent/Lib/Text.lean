import Mathlib.Tactic.Common
import Mathlib.Data.List.Basic
import Mathlib.Data.List.TakeWhile
import Mathlib.Data.String.Basic

/-!
# Python strings

A `str` is the list of its code points. The operations are those of the Python
standard library, with its notion of white space and of line boundaries. What
the library reads from the Unicode tables (letters, lower case) is a parameter
with the properties the tables have.
-/

namespace DearAgent.Lib.Text

set_option autoImplicit false

abbrev Str := List Char

instance : Coe String Str := ⟨String.toList⟩

theorem every_char {text : Str} {holds : Char → Prop} [DecidablePred holds]
    (all : (text.all fun c => decide (holds c)) = true) : ∀ c ∈ text, holds c :=
  fun c member => of_decide_eq_true (List.all_eq_true.mp all c member)

theorem every_ascii {holds : Char → Bool}
    (all : ((List.range 128).all fun n => holds (Char.ofNat n)) = true) {c : Char}
    (ascii : c.val < 128) : holds c = true := by
  have small : c.toNat < 128 := UInt32.lt_iff_toNat_lt.mp ascii
  have same := List.all_eq_true.mp all c.toNat (List.mem_range.mpr small)
  rwa [Char.ofNat_toNat] at same

/-- The Unicode tables behind `str.isalnum`, `str.isprintable` and `str.lower`. -/
class Unicode where
  isAlnum : Char → Bool
  isPrintable : Char → Bool
  lower : Str → Str
  alnum_ascii : ∀ c : Char, c.val < 128 → isAlnum c = c.isAlphanum
  lower_ascii : ∀ s : Str, (∀ c ∈ s, c.val < 128) → lower s = s.map Char.toLower
  lower_fixed : ∀ s : Str, (∀ c ∈ s, lower [c] = [c]) → lower s = s
  fixed_of_lower : ∀ s : Str, ∀ c ∈ lower s, lower [c] = [c]
  lower_symbol : ∀ s : Str, ∀ c ∈ lower s, c.val < 128 → c.isLower = false → c ∈ s

private theorem to_lower_of_upper {c : Char} (upper : c.val ≥ 'A'.val ∧ c.val ≤ 'Z'.val) :
    c.toLower.val = c.val + 32 := by
  have same : c.toLower = ⟨c.val + ('a'.val - 'A'.val), _⟩ := dif_pos upper
  rw [same]
  rfl

private theorem to_lower_of_other {c : Char} (other : ¬(c.val ≥ 'A'.val ∧ c.val ≤ 'Z'.val)) :
    c.toLower = c := dif_neg other

private theorem to_lower_idempotent (c : Char) : c.toLower.toLower = c.toLower := by
  by_cases upper : c.val ≥ 'A'.val ∧ c.val ≤ 'Z'.val
  · have low : 65 ≤ c.val.toNat := upper.1
    have high : c.val.toNat ≤ 90 := upper.2
    have shifted := to_lower_of_upper upper
    have settled : ¬(c.toLower.val ≥ 'A'.val ∧ c.toLower.val ≤ 'Z'.val) := by
      rintro ⟨_, above⟩
      have bound : c.toLower.val.toNat ≤ 90 := above
      have thirtyTwo : (32 : UInt32).toNat = 32 := rfl
      rw [shifted, UInt32.toNat_add, thirtyTwo, Nat.mod_eq_of_lt (by omega)] at bound
      omega
    exact to_lower_of_other settled
  · have same := to_lower_of_other upper
    rw [same, same]

private theorem to_lower_of_not_letter (c : Char) (symbol : c.toLower.isLower = false) :
    c.toLower = c := by
  by_cases upper : c.val ≥ 'A'.val ∧ c.val ≤ 'Z'.val
  · have low : 65 ≤ c.val.toNat := upper.1
    have high : c.val.toNat ≤ 90 := upper.2
    have shifted := to_lower_of_upper upper
    have thirtyTwo : (32 : UInt32).toNat = 32 := rfl
    have letter : c.toLower.isLower = true := by
      change (decide (c.toLower.val ≥ 'a'.val) && decide (c.toLower.val ≤ 'z'.val)) = true
      simp only [shifted, ge_iff_le, Bool.and_eq_true, decide_eq_true_eq,
        UInt32.le_iff_toNat_le, UInt32.toNat_add, thirtyTwo]
      rw [Nat.mod_eq_of_lt (by omega)]
      have first : ('a'.val : UInt32).toNat = 97 := rfl
      have last : ('z'.val : UInt32).toNat = 122 := rfl
      omega
    rw [letter] at symbol
    exact absurd symbol (by decide)
  · exact to_lower_of_other upper

/-- Tables that know ASCII only; on ASCII text they agree with the real ones. -/
@[reducible] def asciiTables : Unicode where
  isAlnum := Char.isAlphanum
  isPrintable c := 32 ≤ c.val && c.val < 127
  lower s := s.map Char.toLower
  alnum_ascii _ _ := rfl
  lower_ascii _ _ := rfl
  lower_fixed s fixed := by
    have each : ∀ c ∈ s, Char.toLower c = c := fun c member => by simpa using fixed c member
    calc
      s.map Char.toLower = s.map id := List.map_congr_left each
      _ = s := List.map_id s
  fixed_of_lower s c member := by
    obtain ⟨d, _, rfl⟩ := List.mem_map.mp member
    simp only [List.map_cons, List.map_nil, to_lower_idempotent]
  lower_symbol s c member _ symbol := by
    obtain ⟨d, source, rfl⟩ := List.mem_map.mp member
    rw [to_lower_of_not_letter d symbol]
    exact source

section Characters

/-- `str.isspace` on one character, which is also the `\s` of a pattern. -/
def isSpace (c : Char) : Bool :=
  let v := c.val
  (9 ≤ v && v ≤ 13) || (28 ≤ v && v ≤ 32) || v = 0x85 || v = 0xa0 || v = 0x1680 ||
    (0x2000 ≤ v && v ≤ 0x200a) || v = 0x2028 || v = 0x2029 || v = 0x202f || v = 0x205f ||
    v = 0x3000

/-- The line boundaries of `str.splitlines`. -/
def isLineBreak (c : Char) : Bool :=
  let v := c.val
  (10 ≤ v && v ≤ 13) || (28 ≤ v && v ≤ 30) || v = 0x85 || v = 0x2028 || v = 0x2029

/-- The `\w` of a pattern. -/
def isWord [Unicode] (c : Char) : Bool := Unicode.isAlnum c || c = '_'

end Characters

section Splitting

def lstripWhere (drop : Char → Bool) (s : Str) : Str := s.dropWhile drop

def rstripWhere (drop : Char → Bool) (s : Str) : Str := (s.reverse.dropWhile drop).reverse

def stripWhere (drop : Char → Bool) (s : Str) : Str := rstripWhere drop (lstripWhere drop s)

def strip (s : Str) : Str := stripWhere isSpace s

/-- The lines of a text whose preceding character was a carriage return or not:
the line feed of a `\r\n` pair ends no second line. -/
def splitlinesFrom (afterReturn : Bool) : Str → List Str
  | [] => []
  | c :: rest =>
      if c = '\n' && afterReturn then splitlinesFrom false rest
      else if isLineBreak c then [] :: splitlinesFrom (c = '\r') rest
      else match splitlinesFrom false rest with
        | [] => [[c]]
        | line :: lines => (c :: line) :: lines

def splitlines (s : Str) : List Str := splitlinesFrom false s

/-- `re.split` at every single character of a class. -/
def splitAt (cut : Char → Bool) : Str → List Str
  | [] => [[]]
  | c :: rest =>
      if cut c then [] :: splitAt cut rest
      else match splitAt cut rest with
        | [] => [[c]]
        | piece :: pieces => (c :: piece) :: pieces

/-- `s.split()`: the maximal runs of characters that are not white space. -/
def words (s : Str) : List Str := (splitAt isSpace s).filter fun piece => !piece.isEmpty

def join (separator : Str) : List Str → Str
  | [] => []
  | [piece] => piece
  | piece :: pieces => piece ++ separator ++ join separator pieces

/-- The text before and after the leftmost occurrence of `separator`. -/
def cut (separator : Str) : Str → Option (Str × Str)
  | [] => if separator = [] then some ([], []) else none
  | c :: rest =>
      if separator.isPrefixOf (c :: rest) then some ([], (c :: rest).drop separator.length)
      else (cut separator rest).map fun parts => (c :: parts.1, parts.2)

/-- The text before and after the rightmost occurrence of `separator`. -/
def rcut (separator : Str) (s : Str) : Option (Str × Str) :=
  (cut separator.reverse s.reverse).map fun parts => (parts.2.reverse, parts.1.reverse)

/-- `part in s`. -/
def contains (part s : Str) : Bool := (cut part s).isSome

def startswith (s head : Str) : Bool := head.isPrefixOf s

def endswith (s tail : Str) : Bool := tail.isSuffixOf s

end Splitting

section Representation

variable [Unicode]

def hexDigits : Nat → Nat → Str
  | 0, _ => []
  | width + 1, n => hexDigits width (n / 16) ++ [Nat.digitChar (n % 16)]

/-- How `repr` writes one character of a string quoted with `quote`. -/
def reprChar (quote c : Char) : Str :=
  if c = quote || c = '\\' then ['\\', c]
  else if c = '\t' then ['\\', 't']
  else if c = '\n' then ['\\', 'n']
  else if c = '\r' then ['\\', 'r']
  else if Unicode.isPrintable c then [c]
  else if c.toNat < 0x100 then '\\' :: 'x' :: hexDigits 2 c.toNat
  else if c.toNat < 0x10000 then '\\' :: 'u' :: hexDigits 4 c.toNat
  else '\\' :: 'U' :: hexDigits 8 c.toNat

/-- `repr(s)`, the `!r` of a format string. -/
def reprText (s : Str) : Str :=
  let quote := if s.contains '\'' && !s.contains '"' then '"' else '\''
  quote :: s.flatMap (reprChar quote) ++ [quote]

end Representation

section Lines

theorem splitlines_cons_ne_nil (c : Char) (rest : Str) : splitlinesFrom false (c :: rest) ≠ [] := by
  rw [splitlinesFrom]
  simp only [Bool.and_false, Bool.false_eq_true, if_false]
  split_ifs
  · simp
  · split <;> simp

theorem splitlines_newline (afterReturn : Bool) (first rest : Str) :
    splitlinesFrom afterReturn (first ++ '\n' :: rest) =
      splitlinesFrom afterReturn (first ++ ['\n']) ++ splitlines rest := by
  have newline : isLineBreak '\n' = true := by decide
  induction first generalizing afterReturn with
  | nil => cases afterReturn <;> simp [splitlinesFrom, splitlines, newline]
  | cons c first ih =>
      simp only [List.cons_append, splitlinesFrom]
      split_ifs with paired broken
      · exact ih false
      · rw [ih, List.cons_append]
      · rw [ih]
        have nonempty : splitlinesFrom false (first ++ ['\n']) ≠ [] := by
          cases first <;> exact splitlines_cons_ne_nil _ _
        obtain ⟨line, lines, found⟩ := List.exists_cons_of_ne_nil nonempty
        rw [found]
        rfl

theorem splitlines_append_newline (first rest : Str) :
    splitlines (first ++ '\n' :: rest) = splitlines (first ++ ['\n']) ++ splitlines rest :=
  splitlines_newline false first rest

theorem splitlines_final_newline (afterReturn : Bool) (s : Str) :
    splitlinesFrom afterReturn (s ++ ['\n']) = splitlinesFrom afterReturn s ∨
      splitlinesFrom afterReturn (s ++ ['\n']) = splitlinesFrom afterReturn s ++ [[]] := by
  have newline : isLineBreak '\n' = true := by decide
  induction s generalizing afterReturn with
  | nil => cases afterReturn <;> simp [splitlinesFrom, newline]
  | cons c rest ih =>
      simp only [List.cons_append, splitlinesFrom]
      split_ifs with paired broken
      · exact ih false
      · rcases ih (c = '\r') with same | more
        · exact .inl (by rw [same])
        · exact .inr (by rw [more, List.cons_append])
      · rcases ih false with same | more
        · exact .inl (by rw [same])
        · rw [more]
          cases splitlinesFrom false rest with
          | nil => exact .inl rfl
          | cons line lines => exact .inr rfl

end Lines

section Words

theorem take_while_append_rejected (p : Char → Bool) (a b : Str) (rejected : ∀ c ∈ b, p c = false) :
    (a ++ b).takeWhile p = a.takeWhile p := by
  induction a with
  | nil =>
      cases b with
      | nil => rfl
      | cons c rest => simp [rejected c (by simp)]
  | cons c rest ih => by_cases accepted : p c <;> simp [accepted, ih]

theorem rstrip_where_append (drop : Char → Bool) (s : Str) :
    ∃ tail, s = rstripWhere drop s ++ tail ∧ ∀ c ∈ tail, drop c = true := by
  refine ⟨(s.reverse.takeWhile drop).reverse, ?_, fun c member => ?_⟩
  · rw [rstripWhere, ← List.reverse_append, List.takeWhile_append_dropWhile, List.reverse_reverse]
  · exact List.all_eq_true.mp List.all_takeWhile c (List.mem_reverse.mp member)

theorem words_head (s : Str) :
    (words s).headD [] = (s.dropWhile isSpace).takeWhile fun c => !isSpace c := by
  have pieces : ∀ s : Str, ∃ rest, splitAt isSpace s = (s.takeWhile fun c => !isSpace c) :: rest ∧
      ((s.takeWhile fun c => !isSpace c) = [] → (rest.filter fun piece => !piece.isEmpty).headD [] =
        (s.dropWhile isSpace).takeWhile fun c => !isSpace c) := by
    intro s
    induction s with
    | nil => exact ⟨[], rfl, fun _ => rfl⟩
    | cons c rest ih =>
        obtain ⟨more, split, first⟩ := ih
        by_cases space : isSpace c
        · refine ⟨splitAt isSpace rest, by simp [splitAt, space], fun _ => ?_⟩
          rw [split, List.dropWhile_cons_of_pos space]
          by_cases empty : (rest.takeWhile fun c => !isSpace c) = []
          · rw [List.filter_cons_of_neg (by simp [empty]), first empty]
          · rw [List.filter_cons_of_pos (by simp [empty]), List.headD_cons]
            cases rest with
            | nil => simp at empty
            | cons d more =>
                have word : isSpace d = false := by
                  by_contra spaced
                  simp [Bool.of_not_eq_false spaced] at empty
                rw [List.dropWhile_cons_of_neg (by simp [word])]
        · exact ⟨more, by simp [splitAt, space, split], fun empty => by simp [space] at empty⟩
  obtain ⟨rest, split, first⟩ := pieces s
  rw [words, split]
  by_cases empty : (s.takeWhile fun c => !isSpace c) = []
  · rw [List.filter_cons_of_neg (by simp [empty]), first empty]
  · rw [List.filter_cons_of_pos (by simp [empty]), List.headD_cons]
    cases s with
    | nil => simp at empty
    | cons d more =>
        have word : isSpace d = false := by
          by_contra spaced
          simp [Bool.of_not_eq_false spaced] at empty
        rw [List.dropWhile_cons_of_neg (by simp [word])]

theorem words_head_strip (s : Str) : (words (strip s)).headD [] = (words s).headD [] := by
  obtain ⟨tail, whole, spaces⟩ := rstrip_where_append isSpace (lstripWhere isSpace s)
  have stripped : (strip s).dropWhile isSpace = strip s := by
    rw [strip, stripWhere]
    cases kept : rstripWhere isSpace (lstripWhere isSpace s) with
    | nil => rfl
    | cons c rest =>
        rw [kept] at whole
        have first : isSpace c = false := by
          have head := List.head?_dropWhile_not isSpace s
          have front : s.dropWhile isSpace = c :: rest ++ tail := whole
          rw [front] at head
          simpa using head
        rw [List.dropWhile_cons_of_neg (by simp [first])]
  rw [words_head, words_head, stripped]
  have split : s.dropWhile isSpace = strip s ++ tail := whole
  rw [split, take_while_append_rejected _ _ _ fun c member => by simp [spaces c member]]

theorem take_while_append_of_stop (p : Char → Bool) (a b : Str) (stop : Char) (inside : stop ∈ a)
    (stops : p stop = false) : (a ++ b).takeWhile p = a.takeWhile p := by
  induction a with
  | nil => simp at inside
  | cons c rest ih =>
      by_cases accepted : p c
      · rw [List.cons_append, List.takeWhile_cons_of_pos accepted,
          List.takeWhile_cons_of_pos accepted]
        have later : stop ∈ rest := by
          rcases List.mem_cons.mp inside with rfl | later
          · rw [stops] at accepted
            cases accepted
          · exact later
        rw [ih later]
      · simp [accepted]

theorem first_word_append (s rest : Str) {space : Char} (word : ¬∀ c ∈ s, isSpace c = true)
    (closed : isSpace space = true) :
    ((s ++ space :: rest).dropWhile isSpace).takeWhile (fun c => !isSpace c) =
      (s.dropWhile isSpace).takeWhile fun c => !isSpace c := by
  induction s with
  | nil => simp at word
  | cons c tail ih =>
      by_cases blank : isSpace c
      · rw [List.cons_append, List.dropWhile_cons_of_pos blank, List.dropWhile_cons_of_pos blank]
        exact ih fun all => word (List.forall_mem_cons.mpr ⟨blank, all⟩)
      · rw [List.cons_append, List.dropWhile_cons_of_neg blank, List.dropWhile_cons_of_neg blank]
        rw [← List.cons_append]
        generalize c :: tail = front
        induction front with
        | nil => simp [closed]
        | cons d front ih => by_cases inside : isSpace d <;> simp [inside, ih]

theorem space_of_line_break {c : Char} (broken : isLineBreak c = true) : isSpace c = true := by
  simp only [isLineBreak, isSpace, Bool.or_eq_true, Bool.and_eq_true, decide_eq_true_eq,
    UInt32.le_iff_toNat_le, ← UInt32.toNat_inj] at broken ⊢
  simp only [Char.toNat_val, UInt32.reduceToNat] at broken ⊢
  omega

end Words

theorem join_cons_cons (separator piece next : Str) (rest : List Str) :
    join separator (piece :: next :: rest) = piece ++ (separator ++ join separator (next :: rest)) := by
  rw [join, List.append_assoc]
  simp

theorem join_concat (separator : Str) (pieces : List Str) (last : Str) (some : pieces ≠ []) :
    join separator (pieces ++ [last]) = join separator pieces ++ (separator ++ last) := by
  induction pieces with
  | nil => exact absurd rfl some
  | cons piece rest ih =>
      cases rest with
      | nil => rw [List.singleton_append, join_cons_cons, join, join]
      | cons next more =>
          rw [List.cons_append, List.cons_append, join_cons_cons, join_cons_cons,
            ← List.cons_append, ih (by simp)]
          simp only [List.append_assoc]

section Pieces

theorem split_at_ne_nil (cuts : Char → Bool) (s : Str) : splitAt cuts s ≠ [] := by
  cases s with
  | nil => simp [splitAt]
  | cons c rest =>
      rw [splitAt]
      split_ifs
      · simp
      · split <;> simp

theorem mem_join {separator : Str} {pieces : List Str} {c : Char} (member : c ∈ join separator pieces) :
    c ∈ separator ∨ ∃ piece ∈ pieces, c ∈ piece := by
  induction pieces with
  | nil => cases member
  | cons piece rest ih =>
      cases rest with
      | nil => exact .inr ⟨piece, List.mem_cons_self, member⟩
      | cons next more =>
          rw [join_cons_cons, List.mem_append, List.mem_append] at member
          rcases member with inside | between | later
          · exact .inr ⟨piece, List.mem_cons_self, inside⟩
          · exact .inl between
          · obtain own | ⟨other, among, inside⟩ := ih later
            · exact .inl own
            · exact .inr ⟨other, List.mem_cons_of_mem _ among, inside⟩

theorem split_at_append (cuts : Char → Bool) (separator : Char) (is_cut : cuts separator = true)
    (before after : Str) :
    splitAt cuts (before ++ separator :: after) = splitAt cuts before ++ splitAt cuts after := by
  induction before with
  | nil => simp [splitAt, is_cut]
  | cons c rest ih =>
      obtain ⟨piece, pieces, found⟩ := List.exists_cons_of_ne_nil (split_at_ne_nil cuts rest)
      rw [List.cons_append, splitAt, splitAt, ih, found]
      split_ifs <;> rfl

theorem mem_split_at (cuts : Char → Bool) (s : Str) :
    ∀ piece ∈ splitAt cuts s, ∀ c ∈ piece, c ∈ s := by
  induction s with
  | nil => simp [splitAt]
  | cons d rest ih =>
      rw [splitAt]
      split_ifs
      · intro piece member c inside
        rcases List.mem_cons.mp member with rfl | later
        · simp at inside
        · exact List.mem_cons_of_mem _ (ih piece later c inside)
      · cases found : splitAt cuts rest with
        | nil =>
            intro piece member c inside
            obtain rfl := List.mem_singleton.mp member
            simpa using .inl (List.mem_singleton.mp inside)
        | cons first pieces =>
            intro piece member c inside
            rw [found] at ih
            rcases List.mem_cons.mp member with rfl | later
            · rcases List.mem_cons.mp inside with rfl | deeper
              · simp
              · exact List.mem_cons_of_mem _ (ih first (by simp) c deeper)
            · exact List.mem_cons_of_mem _ (ih piece (by simp [later]) c inside)

theorem strip_blank (s : Str) (blank : ∀ c ∈ s, isSpace c = true) : strip s = [] := by
  have dropped : lstripWhere isSpace s = [] := by
    rw [lstripWhere]
    exact List.dropWhile_eq_nil_iff.mpr blank
  rw [strip, stripWhere, dropped]
  rfl

theorem blank_of_strip (s : Str) (empty : strip s = []) : ∀ c ∈ s, isSpace c = true := by
  obtain ⟨tail, whole, spaces⟩ := rstrip_where_append isSpace (lstripWhere isSpace s)
  have stripped : rstripWhere isSpace (lstripWhere isSpace s) = [] := empty
  rw [stripped, List.nil_append] at whole
  have dropped : s.dropWhile isSpace = [] := by
    cases rest : s.dropWhile isSpace with
    | nil => rfl
    | cons c more =>
        have head := List.head?_dropWhile_not isSpace s
        rw [rest] at head
        have space : isSpace c = true := spaces c (by
          rw [← whole, lstripWhere, rest]
          simp)
        simp [space] at head
  exact List.dropWhile_eq_nil_iff.mp dropped

theorem split_at_uncut (cuts : Char → Bool) (s : Str) :
    ∀ piece ∈ splitAt cuts s, ∀ c ∈ piece, cuts c = false := by
  induction s with
  | nil => simp [splitAt]
  | cons d rest ih =>
      rw [splitAt]
      split_ifs with here
      · exact List.forall_mem_cons.mpr ⟨by simp, ih⟩
      · have kept := Bool.eq_false_iff.mpr here
        cases found : splitAt cuts rest with
        | nil => simp [kept]
        | cons first pieces =>
            rw [found] at ih
            have each := List.forall_mem_cons.mp ih
            exact List.forall_mem_cons.mpr ⟨List.forall_mem_cons.mpr ⟨kept, each.1⟩, each.2⟩

def extent : List Str → Nat
  | [] => 0
  | piece :: rest => piece.length + 1 + extent rest

theorem split_at_length (cuts : Char → Bool) (s : Str) : extent (splitAt cuts s) = s.length + 1 := by
  induction s with
  | nil => rfl
  | cons c rest ih =>
      rw [splitAt]
      split_ifs
      · rw [extent, ih, List.length_cons, List.length_nil]
        omega
      · cases found : splitAt cuts rest with
        | nil => exact absurd found (split_at_ne_nil cuts rest)
        | cons first pieces =>
            rw [found] at ih
            simp only [extent, List.length_cons] at ih ⊢
            omega

theorem join_length (separator : Char) {pieces : List Str} (some_piece : pieces ≠ []) :
    (join [separator] pieces).length + 1 = extent pieces := by
  induction pieces with
  | nil => exact absurd rfl some_piece
  | cons piece rest ih =>
      cases rest with
      | nil => rfl
      | cons next more =>
          have later := ih (List.cons_ne_nil _ _)
          rw [join_cons_cons, extent, ← later]
          simp only [List.length_append, List.length_singleton]
          omega

theorem split_at_whole (cuts : Char → Bool) (s : Str) (whole : ∀ c ∈ s, cuts c = false) :
    splitAt cuts s = [s] := by
  induction s with
  | nil => rfl
  | cons c rest ih =>
      have kept := whole c List.mem_cons_self
      rw [splitAt, ih fun d member => whole d (List.mem_cons_of_mem _ member), kept]
      rfl

theorem split_at_front (cuts : Char → Bool) {front : Str} (kept : ∀ c ∈ front, cuts c = false)
    (s : Str) :
    ∃ piece rest, splitAt cuts s = piece :: rest ∧
      splitAt cuts (front ++ s) = (front ++ piece) :: rest := by
  induction front with
  | nil =>
      obtain ⟨piece, rest, whole⟩ := List.exists_cons_of_ne_nil (split_at_ne_nil cuts s)
      exact ⟨piece, rest, whole, whole⟩
  | cons c front ih =>
      obtain ⟨piece, rest, whole, longer⟩ := ih fun d member => kept d (List.mem_cons_of_mem _ member)
      refine ⟨piece, rest, whole, ?_⟩
      rw [List.cons_append, splitAt, kept c (List.mem_cons_self ..), longer]
      rfl

theorem split_at_concat (cuts : Char → Bool) {last : Char} (kept : cuts last = false) (s : Str) :
    ∃ front piece, splitAt cuts s = front ++ [piece] ∧
      splitAt cuts (s ++ [last]) = front ++ [piece ++ [last]] := by
  induction s with
  | nil => exact ⟨[], [], rfl, split_at_whole cuts [last] (List.forall_mem_singleton.mpr kept)⟩
  | cons c rest ih =>
      obtain ⟨front, piece, whole, longer⟩ := ih
      rw [List.cons_append, splitAt, splitAt, whole, longer]
      split_ifs
      · exact ⟨[] :: front, piece, rfl, rfl⟩
      · cases front with
        | nil => exact ⟨[], c :: piece, rfl, rfl⟩
        | cons first front => exact ⟨(c :: first) :: front, piece, rfl, rfl⟩

theorem split_at_join_flat (cuts : Char → Bool) (separator : Char) (is_cut : cuts separator = true)
    {pieces : List Str} (some_piece : pieces ≠ []) :
    splitAt cuts (join [separator] pieces) = pieces.flatMap (splitAt cuts) := by
  induction pieces with
  | nil => exact absurd rfl some_piece
  | cons piece rest ih =>
      cases rest with
      | nil => rw [List.flatMap_cons, List.flatMap_nil, List.append_nil, join]
      | cons next more =>
          rw [join_cons_cons, List.singleton_append, split_at_append cuts separator is_cut,
            ih (List.cons_ne_nil _ _)]
          rfl

theorem split_at_join (cuts : Char → Bool) (separator : Char) (is_cut : cuts separator = true)
    {pieces : List Str} (some_piece : pieces ≠ [])
    (whole : ∀ piece ∈ pieces, ∀ c ∈ piece, cuts c = false) :
    splitAt cuts (join [separator] pieces) = pieces := by
  rw [split_at_join_flat cuts separator is_cut some_piece,
    List.flatMap_congr fun piece member => split_at_whole cuts piece (whole piece member)]
  exact List.flatMap_singleton' pieces

end Pieces

section Cutting

theorem cut_first (c : Char) (front rest : Str) (absent : c ∉ front) :
    cut [c] (front ++ c :: rest) = some (front, rest) := by
  induction front with
  | nil => simp [cut]
  | cons d more ih =>
      have different : c ≠ d := fun same => absent (by simp [same])
      have inner := ih fun member => absent (List.mem_cons_of_mem _ member)
      rw [List.cons_append, cut, if_neg (by simp [different]), inner]
      rfl

theorem cut_absent (c : Char) (separator s : Str) (absent : c ∉ s) : cut (c :: separator) s = none := by
  induction s with
  | nil => rfl
  | cons d more ih =>
      have different : c ≠ d := fun same => absent (by simp [same])
      have inner := ih fun member => absent (List.mem_cons_of_mem _ member)
      rw [cut, if_neg (by simp [different]), inner]
      rfl

theorem cut_eq_some_iff {c : Char} {s front rest : Str} :
    cut [c] s = some (front, rest) ↔ s = front ++ c :: rest ∧ c ∉ front := by
  constructor
  · intro found
    by_cases inside : c ∈ s
    · obtain ⟨before, after, same, absent⟩ := List.eq_append_cons_of_mem inside
      rw [same, cut_first c before after absent] at found
      cases found
      exact ⟨same, absent⟩
    · rw [cut_absent c [] s inside] at found
      cases found
  · rintro ⟨rfl, absent⟩
    exact cut_first c front rest absent

theorem rcut_last (c : Char) (front rest : Str) (absent : c ∉ rest) :
    rcut [c] (front ++ c :: rest) = some (front, rest) := by
  have reversed : (front ++ c :: rest).reverse = rest.reverse ++ c :: front.reverse := by simp
  rw [rcut, reversed, List.reverse_singleton, cut_first c _ _ (by simpa using absent)]
  simp

end Cutting

section Stripping

variable {drop : Char → Bool}

theorem strip_where_eq_self_iff {s : Str} :
    stripWhere drop s = s ↔
      (∀ c ∈ s.head?, drop c = false) ∧ ∀ c ∈ s.getLast?, drop c = false := by
  cases s with
  | nil => simp [stripWhere, lstripWhere, rstripWhere]
  | cons c rest =>
      have kept_last : rstripWhere drop (c :: rest) = c :: rest ↔
          ∀ d ∈ (c :: rest).getLast?, drop d = false := by
        rw [rstripWhere, List.reverse_eq_iff, List.getLast?_eq_head?_reverse]
        cases shape : (c :: rest).reverse with
        | nil => simp
        | cons d more =>
            by_cases dropped : drop d = true
            · have shorter : (more.dropWhile drop).length < (d :: more).length :=
                Nat.lt_succ_of_le (List.dropWhile_sublist _).length_le
              have different : more.dropWhile drop ≠ d :: more := by
                intro same
                rw [same] at shorter
                exact absurd shorter (lt_irrefl _)
              simp [dropped, different]
            · simp [dropped]
      by_cases dropped : drop c = true
      · apply iff_of_false
        · intro same
          have shorter : (stripWhere drop (c :: rest)).length ≤ rest.length := by
            rw [stripWhere, lstripWhere, List.dropWhile_cons_of_pos dropped, rstripWhere,
              List.length_reverse]
            calc
              ((rest.dropWhile drop).reverse.dropWhile drop).length ≤
                  (rest.dropWhile drop).reverse.length := (List.dropWhile_sublist _).length_le
              _ = (rest.dropWhile drop).length := List.length_reverse
              _ ≤ rest.length := (List.dropWhile_sublist _).length_le
          rw [same] at shorter
          exact absurd shorter (Nat.not_succ_le_self _)
        · rintro ⟨kept, _⟩
          rw [kept c rfl] at dropped
          cases dropped
      · have kept_first : ∀ d ∈ (c :: rest).head?, drop d = false := by
          intro d head
          cases head
          exact Bool.eq_false_iff.mpr dropped
        rw [stripWhere, lstripWhere, List.dropWhile_cons_of_neg dropped, kept_last]
        exact (and_iff_right kept_first).symm

theorem strip_where_kept {s : Str} (kept : ∀ c ∈ s, drop c = false) : stripWhere drop s = s :=
  strip_where_eq_self_iff.mpr
    ⟨fun c head => kept c (List.mem_of_mem_head? head),
      fun c last => kept c (List.mem_of_getLast? last)⟩

theorem strip_where_padded {front back : Str} (s : Str) (before : ∀ c ∈ front, drop c = true)
    (behind : ∀ c ∈ back, drop c = true) :
    stripWhere drop (front ++ (s ++ back)) = stripWhere drop s := by
  have led : lstripWhere drop (front ++ (s ++ back)) = lstripWhere drop (s ++ back) := by
    rw [lstripWhere, List.dropWhile_append_of_pos before]
    rfl
  have trailed : ∀ t : Str, rstripWhere drop (t ++ back) = rstripWhere drop t := by
    intro t
    rw [rstripWhere, List.reverse_append, List.dropWhile_append_of_pos fun c member =>
      behind c (List.mem_reverse.mp member)]
    rfl
  rw [stripWhere, led]
  by_cases inner : ∀ c ∈ s, drop c = true
  · have all : ∀ c ∈ s ++ back, drop c = true := by
      intro c member
      cases List.mem_append.mp member with
      | inl within => exact inner c within
      | inr after => exact behind c after
    rw [stripWhere, lstripWhere, lstripWhere, List.dropWhile_eq_nil_iff.mpr all,
      List.dropWhile_eq_nil_iff.mpr inner]
  · have split : lstripWhere drop (s ++ back) = lstripWhere drop s ++ back := by
      have stays : s.dropWhile drop ≠ [] := fun empty =>
        inner (List.dropWhile_eq_nil_iff.mp empty)
      rw [lstripWhere, List.dropWhile_append, if_neg]
      · rfl
      · exact fun empty => stays (List.isEmpty_iff.mp empty)
    rw [split, trailed, stripWhere]

theorem strip_between {first last : Str} (middle : Str) (first_some : first ≠ [])
    (last_some : last ≠ []) (first_stripped : strip first = first) (last_stripped : strip last = last) :
    strip (first ++ (middle ++ last)) = first ++ (middle ++ last) := by
  refine strip_where_eq_self_iff.mpr ⟨?_, ?_⟩
  · intro c head
    rw [List.head?_append_of_ne_nil _ first_some] at head
    exact (strip_where_eq_self_iff.mp first_stripped).1 c head
  · intro c end_char
    rw [List.getLast?_append_of_ne_nil _ (by simp [last_some]),
      List.getLast?_append_of_ne_nil _ last_some] at end_char
    exact (strip_where_eq_self_iff.mp last_stripped).2 c end_char

end Stripping

end DearAgent.Lib.Text
