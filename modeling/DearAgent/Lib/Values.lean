import DearAgent.Lib.CodePoints
import Mathlib.Algebra.Order.Floor.Ring
import Mathlib.Data.Int.Log
import Mathlib.Data.List.DropRight
import Mathlib.Data.List.Forall2
import Mathlib.Data.Rat.Floor

/-!
# Python values

The values a JSON text is read as, with the conversions of the language: `bool`, `str`,
`repr`, `int` and `float`, and the comparison of numbers, which is exact. A float is an
IEEE double.
-/

namespace DearAgent.Lib.Values

open DearAgent.Lib.Text DearAgent.Lib.CodePoints

set_option autoImplicit false

section Exceptions

/-- An exception: the names of its class and of the classes above it, and `str` of it. The
texts of the interpreter's own exceptions, which nothing reads, are left out. -/
structure Raised where
  classes : List Str
  text : PyStr := []
deriving DecidableEq

/-- What `except name` catches. -/
def Raised.isA (error : Raised) (name : Str) : Bool := error.classes.contains name

@[simp] theorem ok_bind {ε α β : Type} (value : α) (next : α → Except ε β) :
    (.ok value >>= next) = next value := rfl

@[simp] theorem error_bind {ε α β : Type} (error : ε) (next : α → Except ε β) :
    (.error error >>= next) = .error error := rfl

/-- A sequence of two raises what the first one raises, or the second one behind it. -/
theorem bind_raises_iff {ε α β : Type} {first : Except ε α} {next : α → Except ε β} {error : ε} :
    (first >>= next) = .error error ↔
      first = .error error ∨ ∃ value, first = .ok value ∧ next value = .error error := by
  cases first with
  | error other =>
      constructor
      · exact fun raised => .inl (congrArg Except.error (Except.error.inj raised))
      · rintro (raised | ⟨_, never, _⟩)
        · exact congrArg Except.error (Except.error.inj raised)
        · cases never
  | ok value =>
      constructor
      · exact fun raised => .inr ⟨value, rfl, raised⟩
      · rintro (never | ⟨other, same, raised⟩)
        · cases never
        · cases same
          exact raised

theorem map_raises_iff {ε α β : Type} {first : Except ε α} {next : α → β} {error : ε} :
    (first >>= fun value => pure (next value)) = .error error ↔ first = .error error := by
  rw [bind_raises_iff]
  apply or_iff_left
  rintro ⟨_, _, never⟩
  cases never

theorem bind_returns_iff {ε α β : Type} {first : Except ε α} {next : α → Except ε β} {value : β} :
    (first >>= next) = .ok value ↔ ∃ middle, first = .ok middle ∧ next middle = .ok value := by
  cases first with
  | error other =>
      apply iff_of_false
      · intro never
        cases never
      · rintro ⟨_, never, _⟩
        cases never
  | ok middle =>
      constructor
      · exact fun returned => ⟨middle, rfl, returned⟩
      · rintro ⟨other, same, returned⟩
        cases same
        exact returned

theorem map_returns_iff {ε α β : Type} {first : Except ε α} {next : α → β} :
    (∃ result, (first >>= fun value => pure (next value)) = .ok result) ↔
      ∃ value, first = .ok value := by
  constructor
  · rintro ⟨result, returned⟩
    obtain ⟨value, own, _⟩ := bind_returns_iff.mp returned
    exact ⟨value, own⟩
  · rintro ⟨value, own⟩
    rw [own]
    exact ⟨_, rfl⟩

def attributeError : Raised := { classes := ["AttributeError".toList, "Exception".toList] }

def typeError : Raised := { classes := ["TypeError".toList, "Exception".toList] }

def valueError : Raised := { classes := ["ValueError".toList, "Exception".toList] }

def overflowError : Raised :=
  { classes := ["OverflowError".toList, "ArithmeticError".toList, "Exception".toList] }

def recursionError : Raised :=
  { classes := ["RecursionError".toList, "RuntimeError".toList, "Exception".toList] }

def unicodeDecodeError : Raised :=
  { classes := ["UnicodeDecodeError".toList, "UnicodeError".toList, "ValueError".toList,
      "Exception".toList] }

def unicodeEncodeError : Raised :=
  { classes := ["UnicodeEncodeError".toList, "UnicodeError".toList, "ValueError".toList,
      "Exception".toList] }

def builtinErrors : List Raised :=
  [attributeError, typeError, valueError, overflowError, recursionError, unicodeDecodeError,
    unicodeEncodeError]

section Loops

variable {ε α β : Type} {f : α → Except ε β} {items : List α}

theorem map_m_cons_raises {item : α} {error : ε} :
    (item :: items).mapM f = .error error ↔
      f item = .error error ∨ (∃ result, f item = .ok result) ∧ items.mapM f = .error error := by
  rw [List.mapM_cons, bind_raises_iff]
  apply or_congr_right
  constructor
  · rintro ⟨result, first, raised⟩
    exact ⟨⟨result, first⟩, map_raises_iff.mp raised⟩
  · rintro ⟨⟨result, first⟩, raised⟩
    exact ⟨result, first, bind_raises_iff.mpr (.inl raised)⟩

/-- A loop raises what it raises at the first of its items that it does not get past. -/
theorem map_m_raises_iff {error : ε} :
    items.mapM f = .error error ↔
      ∃ before item after, items = before ++ item :: after ∧
        (∀ earlier ∈ before, ∃ result, f earlier = .ok result) ∧ f item = .error error := by
  induction items with
  | nil =>
      apply iff_of_false
      · intro never
        cases never
      · rintro ⟨before, _, _, never, _⟩
        cases before <;> cases never
  | cons item rest ih =>
      rw [map_m_cons_raises, ih]
      constructor
      · rintro (own | ⟨returned, before, later, after, rfl, past, raised⟩)
        · exact ⟨[], item, rest, rfl, fun _ never => absurd never List.not_mem_nil, own⟩
        · exact ⟨item :: before, later, after, rfl, List.forall_mem_cons.mpr ⟨returned, past⟩, raised⟩
      · rintro ⟨before, later, after, split, past, raised⟩
        cases before with
        | nil =>
            rw [List.nil_append, List.cons.injEq] at split
            rw [split.1]
            exact .inl raised
        | cons first before =>
            rw [List.cons_append, List.cons.injEq] at split
            obtain ⟨rfl, rfl⟩ := split
            have each := List.forall_mem_cons.mp past
            exact .inr ⟨each.1, before, later, after, rfl, each.2, raised⟩

theorem map_m_raises {error : ε} (raised : items.mapM f = .error error) :
    ∃ item ∈ items, f item = .error error := by
  obtain ⟨before, item, after, rfl, _, own⟩ := map_m_raises_iff.mp raised
  exact ⟨item, List.mem_append_right before List.mem_cons_self, own⟩

theorem map_m_ok_iff {results : List β} :
    items.mapM f = .ok results ↔
      List.Forall₂ (fun item result => f item = .ok result) items results := by
  induction items generalizing results with
  | nil =>
      rw [List.mapM_nil, List.forall₂_nil_left_iff]
      constructor
      · exact fun returned => (Except.ok.inj returned).symm
      · rintro rfl
        rfl
  | cons item rest ih =>
      rw [List.mapM_cons, List.forall₂_cons_left_iff, bind_returns_iff]
      constructor
      · rintro ⟨result, own, returned⟩
        obtain ⟨later, rest, same⟩ := bind_returns_iff.mp returned
        exact ⟨result, later, own, ih.mp rest, (Except.ok.inj same).symm⟩
      · rintro ⟨result, later, own, rest, rfl⟩
        exact ⟨result, own, bind_returns_iff.mpr ⟨later, ih.mpr rest, rfl⟩⟩

omit ε f in
theorem exists_of_mem {related : α → β → Prop} {results : List β}
    (paired : List.Forall₂ related items results) :
    ∀ item ∈ items, ∃ result ∈ results, related item result := by
  induction paired with
  | nil => exact fun item never => absurd never List.not_mem_nil
  | cons own _ ih =>
      intro item member
      rcases List.mem_cons.mp member with rfl | member
      · exact ⟨_, List.mem_cons_self, own⟩
      · obtain ⟨result, among, related⟩ := ih item member
        exact ⟨result, List.mem_cons_of_mem _ among, related⟩

theorem map_m_returns_iff :
    (∃ results, items.mapM f = .ok results) ↔ ∀ item ∈ items, ∃ result, f item = .ok result := by
  constructor
  · rintro ⟨results, returned⟩ item member
    obtain ⟨result, _, own⟩ := exists_of_mem (map_m_ok_iff.mp returned) item member
    exact ⟨result, own⟩
  · intro each
    cases ended : items.mapM f with
    | ok results => exact ⟨results, rfl⟩
    | error error =>
        obtain ⟨item, member, raised⟩ := map_m_raises ended
        obtain ⟨result, returned⟩ := each item member
        rw [returned] at raised
        cases raised

end Loops

end Exceptions

inductive Value
  | null
  | bool (b : Bool)
  | int (n : Int)
  | float (x : Float)
  | str (s : PyStr)
  | list (items : List Value)
  | dict (entries : List (PyStr × Value))

/-- What is left to the interpreter: the decimal digits of its Unicode tables, and how deep
it lets containers nest when it reads a JSON text and when it writes a value. -/
class Interpreter where
  decimal : CodePoint → Option (Fin 10)
  scanDepth : Nat
  reprDepth : Nat

instance : Coe Char CodePoint := ⟨ofChar⟩

section Numbers

/-- A place on the line of numbers, which has two ends. -/
inductive Place
  | lowest
  | exactly (q : ℚ)
  | highest
deriving DecidableEq

def Place.le : Place → Place → Bool
  | .lowest, _ | _, .highest => true
  | .exactly q, .exactly r => decide (q ≤ r)
  | _, _ => false

def powerOfTwo (exponent : Int) : ℚ :=
  if 0 ≤ exponent then (2 ^ exponent.toNat : Nat) else 1 / (2 ^ (-exponent).toNat : Nat)

def placeOf (x : Float) : Option Place :=
  match x.toModel.unpack with
  | .notANumber => none
  | .infinity .negative => some .lowest
  | .infinity .positive => some .highest
  | .zero _ => some (.exactly 0)
  | .finite .negative mantissa exponent _ => some (.exactly (-(mantissa * powerOfTwo exponent)))
  | .finite .positive mantissa exponent _ => some (.exactly (mantissa * powerOfTwo exponent))

inductive Number
  | int (n : Int)
  | float (x : Float)

/-- What arithmetic takes a value for; a `bool` is an `int`. -/
def Value.number? : Value → Option Number
  | .bool b => some (.int b.toNat)
  | .int n => some (.int n)
  | .float x => some (.float x)
  | _ => none

def Number.place : Number → Option Place
  | .int n => some (.exactly n)
  | .float x => placeOf x

/-- `first <= second`. -/
def Number.le (first second : Number) : Bool :=
  (first.place.bind fun place => second.place.map place.le).getD false

def Number.within (low high : ℚ) (number : Number) : Prop :=
  ∃ q, number.place = some (.exactly q) ∧ low ≤ q ∧ q ≤ high

/-- `float(number)`. -/
def Number.toFloat : Number → Except Raised Float
  | .int n => if (Float.ofInt n).isInf then .error overflowError else .ok (Float.ofInt n)
  | .float x => .ok x

theorem to_float_raises {number : Number} {error : Raised}
    (raised : number.toFloat = .error error) : error = overflowError := by
  cases number with
  | float x => cases raised
  | int n =>
      unfold Number.toFloat at raised
      simp only at raised
      split_ifs at raised
      exact (Except.error.inj raised).symm

def ofDecimal (negative : Bool) (mantissa : Nat) (exponent : Int) : Float :=
  let x := Float.ofScientific mantissa (decide (exponent < 0)) exponent.natAbs
  if negative then -x else x

theorem within_iff_places (low high : ℚ) (number : Number) :
    number.within low high ↔
      ∃ place, number.place = some place ∧ Place.le (.exactly low) place = true ∧
        Place.le place (.exactly high) = true := by
  constructor
  · rintro ⟨q, placed, above, below⟩
    exact ⟨.exactly q, placed, decide_eq_true above, decide_eq_true below⟩
  · rintro ⟨place, placed, above, below⟩
    cases place with
    | lowest => cases above
    | exactly q => exact ⟨q, placed, of_decide_eq_true above, of_decide_eq_true below⟩
    | highest => cases below

end Numbers

section Reading

def isDigit (c : CodePoint) : Bool := decide (48 ≤ c.val) && decide (c.val ≤ 57)

def digitsValue (digits : PyStr) : Nat := digits.foldl (fun n c => n * 10 + (c.val - 48)) 0

/-- `str.isspace` on one code point. -/
def isSpaceCode (c : CodePoint) : Bool := (toChar? c).any isSpace

def strip (s : PyStr) : PyStr := (s.dropWhile isSpaceCode).rdropWhile isSpaceCode

def isAsciiSpace (c : CodePoint) : Bool :=
  decide (9 ≤ c.val) && decide (c.val ≤ 13) || decide (c.val = 32)

def stripAscii (s : PyStr) : PyStr := (s.dropWhile isAsciiSpace).rdropWhile isAsciiSpace

variable [Interpreter]

/-- The ASCII character that `int` and `float` read a code point as. -/
def toAscii (c : CodePoint) : CodePoint :=
  if c.val < 127 then c
  else if isSpaceCode c then ' '
  else match Interpreter.decimal c with
    | some digit => codePoint (48 + digit.val)
    | none => '?'

/-- The text without its underscores, each of which stands between two digits. -/
def dropUnderscores (afterDigit : Bool) : PyStr → Option PyStr
  | [] => some []
  | c :: rest =>
      if c = '_' then
        if afterDigit && rest.head?.any isDigit then dropUnderscores false rest else none
      else (dropUnderscores (isDigit c) rest).map (c :: ·)

def splitSign : PyStr → Bool × PyStr
  | [] => (false, [])
  | c :: rest => if c = '-' then (true, rest) else if c = '+' then (false, rest) else (false, c :: rest)

/-- The text of a number as `int` and `float` begin to read it. -/
def numberText (s : PyStr) : Option (Bool × PyStr) :=
  (dropUnderscores false (stripAscii (s.map toAscii))).map splitSign

/-- The number of digits that are read or written at most. -/
def maxStrDigits : Nat := 4300

/-- `int(s)` of a text. -/
def readInt (s : PyStr) : Except Raised Int :=
  match numberText s with
  | none => .error valueError
  | some (negative, digits) =>
      if digits.isEmpty || !digits.all isDigit || decide (maxStrDigits < digits.length) then
        .error valueError
      else .ok (if negative then -digitsValue digits else digitsValue digits)

def readExponent : PyStr → Option Int
  | [] => some 0
  | c :: rest =>
      if c = 'e' || c = 'E' then
        let (negative, digits) := splitSign rest
        if digits.isEmpty || !digits.all isDigit then none
        else some (if negative then -digitsValue digits else digitsValue digits)
      else none

/-- `float(s)` of a text, without its sign. -/
def readUnsigned (negative : Bool) (s : PyStr) : Option Float :=
  let named := s.map fun c =>
    if 65 ≤ c.val ∧ c.val ≤ 90 then codePoint (c.val + 32) else c
  if named = ("inf" : PyStr) || named = ("infinity" : PyStr) then
    some (if negative then -(1 / 0) else 1 / 0)
  else if named = ("nan" : PyStr) then some (0 / 0)
  else
    let whole := s.takeWhile isDigit
    let rest := s.dropWhile isDigit
    let pointed := rest.head? = some (ofChar '.')
    let fraction := if pointed then rest.tail.takeWhile isDigit else []
    let rest := if pointed then rest.tail.dropWhile isDigit else rest
    if whole.isEmpty && fraction.isEmpty then none
    else (readExponent rest).map fun exponent =>
      ofDecimal negative (digitsValue (whole ++ fraction)) (exponent - fraction.length)

/-- `float(s)` of a text. -/
def readFloat (s : PyStr) : Except Raised Float :=
  match (numberText s).bind fun number => readUnsigned number.1 number.2 with
  | some x => .ok x
  | none => .error valueError

end Reading

section Floats

/-- The two decimals of this many digits around a positive number, the closer one first and
of two equally close ones the even one. -/
def decimalsAround (q : ℚ) (digits : Nat) : List (Nat × Int) :=
  let exponent := Int.log 10 q - (digits - 1)
  let scaled := q / (10 : ℚ) ^ exponent
  let low := ⌊scaled⌋.toNat
  let gap := scaled - low
  if gap < 1 / 2 ∨ gap = 1 / 2 ∧ low % 2 = 0 then [(low, exponent), (low + 1, exponent)]
  else [(low + 1, exponent), (low, exponent)]

/-- The shortest decimal that reads back as a positive float. -/
def shortestDecimal (x : Float) (q : ℚ) : Nat × Int :=
  ((List.range 17).findSome? fun digits =>
    (decimalsAround q (digits + 1)).find? fun decimal =>
      decide (ofDecimal false decimal.1 decimal.2 = x)).getD (0, 0)

/-- The digits of a decimal written with its point behind the first `point` of them. -/
def layOut (digits : Str) (point : Int) : Str :=
  if -4 < point ∧ point ≤ 16 then
    if point ≤ 0 then "0.".toList ++ List.replicate (-point).toNat '0' ++ digits
    else if digits.length ≤ point then
      digits ++ List.replicate (point.toNat - digits.length) '0' ++ ".0".toList
    else digits.take point.toNat ++ '.' :: digits.drop point.toNat
  else
    let exponent := (toString (point - 1).natAbs).toList
    digits.take 1 ++ (if digits.length = 1 then [] else '.' :: digits.drop 1) ++
      'e' :: (if point - 1 < 0 then '-' else '+') ::
      (List.replicate (2 - exponent.length) '0' ++ exponent)

/-- `repr(x)` of a float. -/
def reprFloat (x : Float) : Str :=
  match x.toModel.unpack with
  | .notANumber => "nan"
  | .infinity .negative => "-inf"
  | .infinity .positive => "inf"
  | .zero .negative => "-0.0"
  | .zero .positive => "0.0"
  | .finite sign mantissa exponent _ =>
      let decimal := shortestDecimal x.abs (mantissa * powerOfTwo exponent)
      let digits := (toString decimal.1).toList
      let sign := match sign with
        | .negative => ['-']
        | .positive => []
      sign ++ layOut (digits.rdropWhile (· = '0')) (digits.length + decimal.2)

end Floats

section Writing

variable [Unicode]

/-- How `repr` writes one code point of a text quoted with `quote`. -/
def reprCode (quote : Char) (c : CodePoint) : Str :=
  match toChar? c with
  | some char => reprChar quote char
  | none => '\\' :: 'u' :: hexDigits 4 c.val

/-- `repr(s)` of a text. -/
def reprCodes (s : PyStr) : PyStr :=
  let quote := if s.contains (ofChar '\'') && !s.contains (ofChar '"') then '"' else '\''
  ofText (quote :: s.flatMap (reprCode quote) ++ [quote])

/-- `str(n)` of an `int`. -/
def writeInt (n : Int) : Except Raised PyStr :=
  if n.natAbs < 10 ^ maxStrDigits then .ok (ofText (toString n).toList) else .error valueError

/-- `", ".join(parts)`. -/
def commaJoin : List PyStr → PyStr
  | [] => []
  | [part] => part
  | part :: rest => part ++ (", " : PyStr) ++ commaJoin rest

mutual

/-- `repr(value)`, with this many containers left to open. -/
def Value.reprAt (depth : Nat) : Value → Except Raised PyStr
  | .null => .ok "None"
  | .bool b => .ok (if b then "True" else "False")
  | .int n => writeInt n
  | .float x => .ok (ofText (reprFloat x))
  | .str s => .ok (reprCodes s)
  | .list items =>
      match depth with
      | 0 => .error recursionError
      | depth + 1 => do
          let parts ← reprItems depth items
          return ofChar '[' :: commaJoin parts ++ [ofChar ']']
  | .dict entries =>
      match depth with
      | 0 => .error recursionError
      | depth + 1 => do
          let parts ← reprEntries depth entries
          return ofChar '{' :: commaJoin parts ++ [ofChar '}']

def reprItems (depth : Nat) : List Value → Except Raised (List PyStr)
  | [] => .ok []
  | item :: rest => do
      let part ← item.reprAt depth
      let parts ← reprItems depth rest
      return part :: parts

def reprEntries (depth : Nat) : List (PyStr × Value) → Except Raised (List PyStr)
  | [] => .ok []
  | (key, value) :: rest => do
      let part ← value.reprAt depth
      let parts ← reprEntries depth rest
      return (reprCodes key ++ (": " : PyStr) ++ part) :: parts

end

variable [Interpreter]

def Value.repr (value : Value) : Except Raised PyStr := value.reprAt Interpreter.reprDepth

/-- `str(value)`. -/
def Value.text : Value → Except Raised PyStr
  | .str s => .ok s
  | value => value.repr

end Writing

section Converting

/-- `bool(value)`. -/
def Value.truthy : Value → Bool
  | .null => false
  | .bool b => b
  | .int n => decide (n ≠ 0)
  | .float x => decide (placeOf x ≠ some (.exactly 0))
  | .str s => !s.isEmpty
  | .list items => !items.isEmpty
  | .dict entries => !entries.isEmpty

/-- `value is None`. -/
def Value.isNull : Value → Bool
  | .null => true
  | _ => false

theorem is_null_iff (value : Value) : value.isNull = true ↔ value = .null := by
  cases value <;> simp [Value.isNull]

/-- `int(value)`. -/
def Value.toInt [Interpreter] : Value → Except Raised Int
  | .bool b => .ok b.toNat
  | .int n => .ok n
  | .float x =>
      match placeOf x with
      | some (.exactly q) => .ok (q.num.tdiv q.den)
      | some _ => .error overflowError
      | none => .error valueError
  | .str s => readInt s
  | .null | .list _ | .dict _ => .error typeError

/-- The items of a `for` loop over a value. -/
def Value.iterate : Value → Except Raised (List Value)
  | .str s => .ok (s.map fun c => .str [c])
  | .list items => .ok items
  | .dict entries => .ok (entries.map fun entry => .str entry.1)
  | _ => .error typeError

/-- `isinstance(value, dict)`. -/
def Value.entries? : Value → Option (List (PyStr × Value))
  | .dict entries => some entries
  | _ => none

theorem entries_eq_some_iff {value : Value} {entries : List (PyStr × Value)} :
    value.entries? = some entries ↔ value = .dict entries := by
  constructor
  · intro found
    cases value <;> cases found
    rfl
  · rintro rfl
    rfl

def Value.str? : Value → Option PyStr
  | .str s => some s
  | _ => none

theorem str_eq_some_iff {value : Value} {s : PyStr} : value.str? = some s ↔ value = .str s := by
  constructor
  · intro found
    cases value <;> cases found
    rfl
  · rintro rfl
    rfl

/-- `entries.get(key, default)`. -/
def getOr (default : Value) (key : PyStr) (entries : List (PyStr × Value)) : Value :=
  (entries.lookup key).getD default

end Converting

section Conversions

variable {depth : Nat} {error : Raised}

theorem write_int_raises {n : Int} (raised : writeInt n = .error error) : error = valueError := by
  unfold writeInt at raised
  split_ifs at raised
  exact (Except.error.inj raised).symm

variable [Unicode]

mutual

theorem repr_at_raises (value : Value) (depth : Nat) (raised : value.reprAt depth = .error error) :
    error = valueError ∨ error = recursionError := by
  cases value with
  | null => cases raised
  | bool b => cases raised
  | int n => exact .inl (write_int_raises raised)
  | float x => cases raised
  | str s => cases raised
  | list items =>
      cases depth with
      | zero => exact .inr (Except.error.inj raised).symm
      | succ depth =>
          rw [Value.reprAt] at raised
          exact repr_items_raises items depth (map_raises_iff.mp raised)
  | dict entries =>
      cases depth with
      | zero => exact .inr (Except.error.inj raised).symm
      | succ depth =>
          rw [Value.reprAt] at raised
          exact repr_entries_raises entries depth (map_raises_iff.mp raised)

theorem repr_items_raises (items : List Value) (depth : Nat)
    (raised : reprItems depth items = .error error) :
    error = valueError ∨ error = recursionError := by
  cases items with
  | nil => cases raised
  | cons item rest =>
      rw [reprItems] at raised
      rcases bind_raises_iff.mp raised with raised | ⟨_, _, raised⟩
      · exact repr_at_raises item depth raised
      · exact repr_items_raises rest depth (map_raises_iff.mp raised)

theorem repr_entries_raises (entries : List (PyStr × Value)) (depth : Nat)
    (raised : reprEntries depth entries = .error error) :
    error = valueError ∨ error = recursionError := by
  cases entries with
  | nil => cases raised
  | cons entry rest =>
      rw [reprEntries] at raised
      rcases bind_raises_iff.mp raised with raised | ⟨_, _, raised⟩
      · exact repr_at_raises entry.2 depth raised
      · exact repr_entries_raises rest depth (map_raises_iff.mp raised)

end

variable [Interpreter]

theorem repr_raises {value : Value} (raised : value.repr = .error error) :
    error ∈ builtinErrors := by
  rcases repr_at_raises value _ raised with rfl | rfl
  · simp [builtinErrors]
  · simp [builtinErrors]

theorem text_raises {value : Value} (raised : value.text = .error error) :
    error ∈ builtinErrors := by
  cases value with
  | str s => cases raised
  | null | bool _ | int _ | float _ | list _ | dict _ => exact repr_raises raised

omit [Unicode] in
theorem read_int_raises {s : PyStr} (raised : readInt s = .error error) : error = valueError := by
  unfold readInt at raised
  cases read : numberText s with
  | none =>
      rw [read] at raised
      exact (Except.error.inj raised).symm
  | some number =>
      rw [read] at raised
      simp only at raised
      split_ifs at raised
      exact (Except.error.inj raised).symm

omit [Unicode] in
theorem to_int_raises {value : Value} (raised : value.toInt = .error error) :
    error ∈ builtinErrors := by
  have type_error : typeError ∈ builtinErrors := by simp [builtinErrors]
  have value_error : valueError ∈ builtinErrors := by simp [builtinErrors]
  have overflow_error : overflowError ∈ builtinErrors := by simp [builtinErrors]
  cases value with
  | null | list _ | dict _ =>
      cases raised
      exact type_error
  | bool b => cases raised
  | int n => cases raised
  | str s =>
      rw [read_int_raises raised]
      exact value_error
  | float x =>
      rw [Value.toInt] at raised
      cases placed : placeOf x with
      | none =>
          rw [placed] at raised
          cases raised
          exact value_error
      | some place =>
          rw [placed] at raised
          cases place with
          | exactly q => cases raised
          | lowest | highest =>
              cases raised
              exact overflow_error

omit [Unicode] [Interpreter] in
theorem iterate_raises {value : Value} (raised : value.iterate = .error error) :
    error ∈ builtinErrors := by
  have type_error : typeError ∈ builtinErrors := by simp [builtinErrors]
  cases value with
  | null | bool _ | int _ | float _ =>
      cases raised
      exact type_error
  | str s => cases raised
  | list items => cases raised
  | dict entries => cases raised

end Conversions

end DearAgent.Lib.Values
