import DearAgent.Lib.Text

/-!
# Backtracking regular expressions

The patterns of Python's `re` as a tree. `run` lists every way a pattern can
match at a position, in the order a backtracking matcher tries them, so its
first element is the match that `re` reports. A barrier is a character that no
part of the pattern accepts: a search never looks past one, which is how the
text after a quotation mark or a separator is shown not to matter.
-/

namespace DearAgent.Lib.Regex

open DearAgent.Lib.Text

set_option autoImplicit false

inductive Pattern
  | empty
  | sat (accepts : Char → Bool)
  | seq (first second : Pattern)
  | alt (left right : Pattern)
  | star (body : Pattern)
  | wordBoundary
  | textStart
  | textEnd
  | group (index : Nat) (body : Pattern)

/-- A position: the text before it in reverse, the text after it, and the
groups captured so far, latest first. -/
structure Cursor where
  before : Str
  rest : Str
  groups : List (Nat × Str)
deriving DecidableEq

def atStart (text : Str) : Cursor := ⟨[], text, []⟩

def Cursor.extend (tail : Str) (c : Cursor) : Cursor := { c with rest := c.rest ++ tail }

def Cursor.upTo (start stop : Cursor) : Str :=
  start.rest.take (start.rest.length - stop.rest.length)

/-- Greedy repetition. An iteration that consumes nothing is not repeated, so
the number of characters left bounds the depth. -/
def iterate (step : Cursor → List Cursor) : Nat → Cursor → List Cursor
  | 0, c => [c]
  | fuel + 1, c =>
      ((step c).filter fun next => next.rest.length < c.rest.length).flatMap
        (iterate step fuel) ++ [c]

def startsWord [Unicode] : Str → Bool
  | [] => false
  | c :: _ => isWord c

def run [Unicode] : Pattern → Cursor → List Cursor
  | .empty, c => [c]
  | .sat accepts, c =>
      match c.rest with
      | [] => []
      | d :: rest => if accepts d then [⟨d :: c.before, rest, c.groups⟩] else []
  | .seq first second, c => (run first c).flatMap (run second)
  | .alt left right, c => run left c ++ run right c
  | .star body, c => iterate (run body) c.rest.length c
  | .wordBoundary, c => if startsWord c.before != startsWord c.rest then [c] else []
  | .textStart, c => if c.before.isEmpty then [c] else []
  | .textEnd, c => if c.rest = [] || c.rest = ['\n'] then [c] else []
  | .group index body, c =>
      (run body c).map fun stop => { stop with groups := (index, c.upTo stop) :: stop.groups }

section Patterns

def plus (body : Pattern)  : Pattern := .seq body (.star body)

def opt (body : Pattern)  : Pattern := .alt body .empty

def atLeast : Nat → Pattern → Pattern
  | 0, body => .star body
  | count + 1, body => .seq body (atLeast count body)

def literal : Str → Pattern
  | [] => .empty
  | c :: rest => .seq (.sat fun d => d = c) (literal rest)

/-- What a lower-case letter of a pattern accepts under `re.IGNORECASE`: besides
its two cases the Kelvin sign, the long s and the two further forms of i. -/
def foldsTo (letter c : Char) : Bool :=
  c.toLower = letter || (letter = 'k' && c.val = 0x212a) || (letter = 's' && c.val = 0x17f) ||
    (letter = 'i' && (c.val = 0x130 || c.val = 0x131))

def literalIgnoreCase : Str → Pattern
  | [] => .empty
  | c :: rest => .seq (.sat (foldsTo c)) (literalIgnoreCase rest)

/-- `[A-Za-z0-9]` together with further characters. -/
def alnumOr (more : Str) (c : Char) : Bool := c.isAlphanum || more.contains c

end Patterns

structure Match where
  start : Cursor
  stop : Cursor
deriving DecidableEq

def Match.group (found : Match) : Nat → Option Str
  | 0 => some (found.start.upTo found.stop)
  | index => found.stop.groups.lookup index

section Searching

variable [Unicode]

def matchAt (r : Pattern) (c : Cursor) : Option Match := (run r c).head?.map fun stop => ⟨c, stop⟩

/-- `re.match`. -/
def matchStart (r : Pattern) (text : Str) : Option Match := matchAt r (atStart text)

def searchFrom (r : Pattern) (before : Str) : Str → Option Match
  | [] => matchAt r ⟨before, [], []⟩
  | c :: rest => (matchAt r ⟨before, c :: rest, []⟩).or (searchFrom r (c :: before) rest)

/-- `re.search`: the match at the leftmost position that has one. -/
def search (r : Pattern) (text : Str) : Option Match := searchFrom r [] text

/-- `re.finditer` for a pattern that matches no empty text. -/
def finditerFrom (r : Pattern) : Nat → Str → Str → List Match
  | 0, _, _ => []
  | fuel + 1, before, text =>
      match searchFrom r before text with
      | none => []
      | some found => found :: finditerFrom r fuel found.stop.before found.stop.rest

def finditer (r : Pattern) (text : Str) : List Match := finditerFrom r (text.length + 1) [] text

end Searching

/-!
## Barriers
-/

variable [Unicode]

def Match.extend (tail : Str) (found : Match) : Match :=
  ⟨found.start.extend tail, found.stop.extend tail⟩

theorem run_sat_accepted {accepts : Char → Bool} {c : Char} (accepted : accepts c = true)
    (before text : Str) (groups : List (Nat × Str)) :
    run (.sat accepts) ⟨before, c :: text, groups⟩ = [⟨c :: before, text, groups⟩] := by
  simp only [run, accepted, if_true]

/-- Greedy repetition of one character takes a text it accepts as a whole, and
stops where the next character is not accepted. -/
theorem star_sat_head (accepts : Char → Bool) (text rest : Str)
    (all : ∀ c ∈ text, accepts c = true) (ends : ∀ c ∈ rest.head?, accepts c = false)
    (before : Str) (groups : List (Nat × Str)) :
    ∃ shorter, run (.star (.sat accepts)) ⟨before, text ++ rest, groups⟩ =
      ⟨text.reverse ++ before, rest, groups⟩ :: shorter := by
  have main : ∀ fuel, text.length ≤ fuel → ∃ shorter,
      iterate (run (.sat accepts)) fuel ⟨before, text ++ rest, groups⟩ =
        ⟨text.reverse ++ before, rest, groups⟩ :: shorter := by
    induction text generalizing before with
    | nil =>
        intro fuel _
        cases fuel with
        | zero => exact ⟨[], rfl⟩
        | succ fuel =>
            cases rest with
            | nil => exact ⟨[], by simp [iterate, run]⟩
            | cons d rest =>
                have refused : accepts d = false := ends d rfl
                exact ⟨[], by simp [iterate, run, refused]⟩
    | cons c text ih =>
        intro fuel enough
        cases fuel with
        | zero => simp at enough
        | succ fuel =>
            have accepted : accepts c = true := all c (by simp)
            obtain ⟨shorter, found⟩ := ih (fun d member => all d (by simp [member])) (c :: before)
              fuel (by simpa using enough)
            refine ⟨shorter ++ [⟨before, c :: (text ++ rest), groups⟩], ?_⟩
            rw [iterate, List.cons_append, run_sat_accepted accepted]
            simp [found]
  rw [run]
  exact main _ (by simp)

theorem at_least_sat_head (accepts : Char → Bool) (count : Nat) (text rest : Str)
    (long : count ≤ text.length) (all : ∀ c ∈ text, accepts c = true)
    (ends : ∀ c ∈ rest.head?, accepts c = false) (before : Str) (groups : List (Nat × Str)) :
    ∃ shorter, run (atLeast count (.sat accepts)) ⟨before, text ++ rest, groups⟩ =
      ⟨text.reverse ++ before, rest, groups⟩ :: shorter := by
  induction count generalizing before text with
  | zero => exact star_sat_head accepts text rest all ends before groups
  | succ count ih =>
      cases text with
      | nil => simp at long
      | cons c text =>
          have accepted : accepts c = true := all c (by simp)
          obtain ⟨shorter, found⟩ := ih text (by simpa using long)
            (fun d member => all d (by simp [member])) (c :: before)
          refine ⟨shorter, ?_⟩
          rw [atLeast, run, List.cons_append, run_sat_accepted accepted]
          simp [found]

/-!
## Consumption
-/

/-- The character classes of a pattern are among these, and it has groups only where they
are allowed. -/
def MadeOf (classes : (Char → Bool) → Prop) (captures : Prop) : Pattern → Prop
  | .empty | .wordBoundary | .textStart | .textEnd => True
  | .sat accepts => classes accepts
  | .seq first second => MadeOf classes captures first ∧ MadeOf classes captures second
  | .alt left right => MadeOf classes captures left ∧ MadeOf classes captures right
  | .star body => MadeOf classes captures body
  | .group _ body => captures ∧ MadeOf classes captures body

section Relating

variable {related : Cursor → Cursor → Prop} (stays : ∀ c, related c c)
  (joins : ∀ {c middle stop}, related c middle → related middle stop → related c stop)

omit [Unicode] in
include stays joins in
theorem iterate_relates (step : Cursor → List Cursor) (steps : ∀ c, ∀ next ∈ step c, related c next)
    (fuel : Nat) (c : Cursor) : ∀ stop ∈ iterate step fuel c, related c stop := by
  induction fuel generalizing c with
  | zero =>
      intro stop reached
      exact List.mem_singleton.mp reached ▸ stays c
  | succ fuel ih =>
      intro stop reached
      cases List.mem_append.mp reached with
      | inl later =>
          obtain ⟨next, stepped, reached⟩ := List.mem_flatMap.mp later
          exact joins (steps c next (List.mem_filter.mp stepped).1) (ih next stop reached)
      | inr self => exact List.mem_singleton.mp self ▸ stays c

include stays joins in
/-- What holds across a character of the classes and across a capture holds across a run. -/
theorem run_relates {classes : (Char → Bool) → Prop} {captures : Prop}
    (reads : ∀ accepts, classes accepts → ∀ before d rest groups, accepts d = true →
      related ⟨before, d :: rest, groups⟩ ⟨d :: before, rest, groups⟩)
    (captured : captures → ∀ c stop index text, related c stop →
      related c { stop with groups := (index, text) :: stop.groups })
    (r : Pattern) (made : MadeOf classes captures r) (c : Cursor) :
    ∀ stop ∈ run r c, related c stop := by
  induction r generalizing c with
  | empty =>
      intro stop reached
      exact List.mem_singleton.mp reached ▸ stays c
  | sat accepts =>
      intro stop reached
      obtain ⟨before, rest, groups⟩ := c
      cases rest with
      | nil => cases reached
      | cons d rest =>
          simp only [run] at reached
          split_ifs at reached with accepted
          · exact List.mem_singleton.mp reached ▸ reads accepts made before d rest groups accepted
          · cases reached
  | seq first second ihFirst ihSecond =>
      intro stop reached
      obtain ⟨middle, begins, ends⟩ := List.mem_flatMap.mp reached
      exact joins (ihFirst made.1 c middle begins) (ihSecond made.2 middle stop ends)
  | alt left right ihLeft ihRight =>
      intro stop reached
      exact (List.mem_append.mp reached).elim (ihLeft made.1 c stop) (ihRight made.2 c stop)
  | star body ih => exact iterate_relates stays joins (run body) (ih made) _ c
  | wordBoundary | textStart | textEnd =>
      intro stop reached
      unfold run at reached
      split_ifs at reached
      · exact List.mem_singleton.mp reached ▸ stays c
      · cases reached
  | group index body ih =>
      intro stop reached
      obtain ⟨inner, found, rfl⟩ := List.mem_map.mp reached
      exact captured made.1 c inner index _ (ih made.2 c inner found)

end Relating

omit [Unicode] in
theorem made_of_any (r : Pattern) : MadeOf (fun _ => True) True r := by
  induction r with
  | seq first second ihFirst ihSecond => exact ⟨ihFirst, ihSecond⟩
  | alt left right ihLeft ihRight => exact ⟨ihLeft, ihRight⟩
  | star body ih => exact ih
  | group index body ih => exact ⟨trivial, ih⟩
  | _ => trivial

theorem run_suffix (r : Pattern) (c : Cursor) :
    ∀ stop ∈ run r c, stop.rest <:+ c.rest := by
  apply @run_relates _ (fun c stop => stop.rest <:+ c.rest)
  · exact fun c => List.suffix_refl c.rest
  · exact fun first second => second.trans first
  · exact fun _ _ _ d rest _ _ => List.suffix_cons d rest
  · exact fun _ _ _ _ _ suffix => suffix
  · exact made_of_any r

theorem run_groups (r : Pattern) (ungrouped : MadeOf (fun _ => True) False r) (c : Cursor) :
    ∀ stop ∈ run r c, stop.groups = c.groups := by
  apply @run_relates _ (fun c stop => stop.groups = c.groups)
  · exact fun _ => rfl
  · exact fun first second => second.trans first
  · exact fun _ _ _ _ _ _ _ => rfl
  · exact fun never => False.elim never
  · exact ungrouped

theorem mem_run_sat {accepts : Char → Bool} {c stop : Cursor}
    (reached : stop ∈ run (.sat accepts) c) :
    ∃ d, c.rest = d :: stop.rest ∧ accepts d = true := by
  unfold run at reached
  split at reached
  · simp at reached
  · rename_i d rest shape
    split_ifs at reached with accepted
    · rw [List.mem_singleton.mp reached]
      exact ⟨d, shape, accepted⟩
    · simp at reached

omit [Unicode] in
theorem not_space_of_alnum_or {c : Char} (name : alnumOr ['.', '_', '-'] c = true) :
    isSpace c = false := by
  by_contra space
  rw [Bool.not_eq_false] at space
  have outside : c.toNat ≤ 32 ∨ 128 ≤ c.toNat := by
    simp only [isSpace, Bool.or_eq_true, Bool.and_eq_true, decide_eq_true_eq,
      UInt32.le_iff_toNat_le, ← UInt32.toNat_inj] at space
    simp at space
    omega
  change ((decide (c.val ≥ 'A'.val ∧ c.val ≤ 'Z'.val) ||
    (decide (c.val ≥ 'a'.val) && decide (c.val ≤ 'z'.val)) ||
    (decide (c.val ≥ '0'.val) && decide (c.val ≤ '9'.val))) ||
    ['.', '_', '-'].contains c) = true at name
  simp only [Bool.or_eq_true, Bool.and_eq_true, decide_eq_true_eq, ge_iff_le,
    UInt32.le_iff_toNat_le, List.contains_eq_mem] at name
  simp at name
  rcases name with range | rfl | rfl | rfl
  · omega
  all_goals exact absurd space (by decide)

omit [Unicode] in
theorem up_to_of_split {start stop : Cursor} {text : Str} (split : start.rest = text ++ stop.rest) :
    start.upTo stop = text := by
  rw [Cursor.upTo, split, List.length_append, Nat.add_sub_cancel, List.take_left]

theorem mem_run_seq {first second : Pattern} {c stop : Cursor}
    (reached : stop ∈ run (.seq first second) c) :
    ∃ middle ∈ run first c, stop ∈ run second middle := List.mem_flatMap.mp reached

def Pattern.behind : Nat → Pattern → Pattern
  | 0, r => r
  | parts + 1, .seq _ second => second.behind parts
  | _ + 1, r => r

theorem mem_run_behind (parts : Nat) {r : Pattern} {c stop : Cursor} (reached : stop ∈ run r c) :
    ∃ middle, stop ∈ run (r.behind parts) middle := by
  induction parts generalizing r c with
  | zero => exact ⟨c, reached⟩
  | succ parts ih =>
      cases r with
      | seq first second =>
          obtain ⟨middle, _, later⟩ := mem_run_seq reached
          exact ih later
      | _ => exact ⟨c, reached⟩

theorem mem_run_text_end {c stop : Cursor} (reached : stop ∈ run .textEnd c) :
    stop = c ∧ (c.rest = [] ∨ c.rest = ['\n']) := by
  unfold run at reached
  split_ifs at reached with atEnd
  · rw [Bool.or_eq_true, decide_eq_true_eq, decide_eq_true_eq] at atEnd
    exact ⟨List.mem_singleton.mp reached, atEnd⟩
  · cases reached

theorem mem_run_group {index : Nat} {body : Pattern} {c stop : Cursor}
    (reached : stop ∈ run (.group index body) c) :
    ∃ inner ∈ run body c, ∃ text, c.rest = text ++ inner.rest ∧
      stop = { inner with groups := (index, text) :: inner.groups } := by
  obtain ⟨inner, found, rfl⟩ := List.mem_map.mp reached
  obtain ⟨text, split⟩ := run_suffix body c inner found
  exact ⟨inner, found, text, split.symm, by rw [up_to_of_split split.symm]⟩

theorem run_opens {accepts : Char → Bool} {more : Pattern} {c stop : Cursor} {text : Str}
    (reached : stop ∈ run (.seq (.sat accepts) more) c) (split : c.rest = text ++ stop.rest) :
    ∃ d tail, text = d :: tail ∧ accepts d = true := by
  obtain ⟨middle, begins, later⟩ := mem_run_seq reached
  obtain ⟨d, front, accepted⟩ := mem_run_sat begins
  obtain ⟨tail, rest⟩ := run_suffix more middle stop later
  have whole : text ++ stop.rest = (d :: tail) ++ stop.rest := by
    rw [← split, front, ← rest]
    rfl
  exact ⟨d, tail, List.append_cancel_right whole, accepted⟩

/-- The characters that some part of the pattern accepts all satisfy a condition. -/
abbrev Takes (holds : Char → Prop) : Pattern → Prop :=
  MadeOf (fun accepts => ∀ c, accepts c = true → holds c) True

omit [Unicode] in
theorem takes_literal {holds : Char → Prop} (word : Str) (all : ∀ c ∈ word, holds c) :
    Takes holds (literal word) := by
  induction word with
  | nil => trivial
  | cons c rest ih =>
      apply And.intro
      · intro d same
        rw [of_decide_eq_true same]
        exact all c List.mem_cons_self
      · exact ih fun d member => all d (List.mem_cons_of_mem c member)

theorem run_takes {holds : Char → Prop} (r : Pattern) (takes : Takes holds r) (c : Cursor) :
    ∀ stop ∈ run r c, ∃ text, c.rest = text ++ stop.rest ∧ ∀ d ∈ text, holds d := by
  refine @run_relates _ (fun c stop => ∃ text, c.rest = text ++ stop.rest ∧ ∀ d ∈ text, holds d)
    ?_ ?_ _ _ ?_ ?_ r takes c
  · exact fun c => ⟨[], rfl, fun _ member => nomatch member⟩
  · intro c middle stop begins ends
    obtain ⟨first, split, all⟩ := begins
    obtain ⟨second, split', all'⟩ := ends
    refine ⟨first ++ second, by rw [split, split', List.append_assoc], ?_⟩
    intro d member
    exact (List.mem_append.mp member).elim (all d) (all' d)
  · intro accepts holding before d rest groups accepted
    refine ⟨[d], rfl, ?_⟩
    intro e member
    rw [List.mem_singleton.mp member]
    exact holding d accepted
  · exact fun _ _ _ _ _ found => found

/-- Where a repetition of one character class can stop in a text of the class, from the
longest to the shortest. -/
def stops (rest : Str) (groups : List (Nat × Str)) : Str → Str → List Cursor
  | before, [] => [⟨before, rest, groups⟩]
  | before, c :: text => stops rest groups (c :: before) text ++ [⟨before, c :: text ++ rest, groups⟩]

theorem star_sat_stops (accepts : Char → Bool) (text rest : Str)
    (all : ∀ c ∈ text, accepts c = true) (ends : ∀ c ∈ rest.head?, accepts c = false)
    (before : Str) (groups : List (Nat × Str)) :
    run (.star (.sat accepts)) ⟨before, text ++ rest, groups⟩ = stops rest groups before text := by
  have main : ∀ fuel, text.length ≤ fuel →
      iterate (run (.sat accepts)) fuel ⟨before, text ++ rest, groups⟩ =
        stops rest groups before text := by
    induction text generalizing before with
    | nil =>
        intro fuel _
        cases fuel with
        | zero => rfl
        | succ fuel =>
            cases rest with
            | nil => simp [iterate, run, stops]
            | cons d rest =>
                have refused : accepts d = false := ends d rfl
                simp [iterate, run, refused, stops]
    | cons c text ih =>
        intro fuel enough
        cases fuel with
        | zero => simp at enough
        | succ fuel =>
            have accepted : accepts c = true := all c List.mem_cons_self
            have inner := ih (fun d member => all d (List.mem_cons_of_mem c member)) (c :: before)
              fuel (by simpa using enough)
            rw [iterate, List.cons_append, run_sat_accepted accepted]
            simp [inner, stops]
  rw [run]
  exact main _ (by simp)

end DearAgent.Lib.Regex
