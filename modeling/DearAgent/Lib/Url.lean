import DearAgent.Lib.Text

/-!
# `urllib.parse.urlparse`

The parts of a URL as the Python standard library splits it, from the scheme to
the path and the host name. What the library checks of a network location
beyond its shape (NFKC normal form, bracketed IP literals) is a parameter; a
plain ASCII location passes it.
-/

namespace DearAgent.Lib.Url

open DearAgent.Lib.Text

set_option autoImplicit false

/-- The checks of a network location that the shape does not decide. -/
class NetlocRules where
  accepts : Str → Bool
  accepts_ascii : ∀ netloc : Str,
    (∀ c ∈ netloc, c.val < 128 ∧ c ≠ '[' ∧ c ≠ ']') → accepts netloc = true

@[reducible] def asciiNetlocs : NetlocRules where
  accepts netloc := netloc.all fun c => c.val < 128 && c ≠ '[' && c ≠ ']'
  accepts_ascii netloc plain := by
    rw [List.all_eq_true]
    intro c member
    simp [plain c member]

structure Parsed where
  scheme : Str
  netloc : Str
  path : Str
deriving DecidableEq

def isSchemeChar (c : Char) : Bool := c.isAlphanum || c = '+' || c = '-' || c = '.'

/-- The leading control characters and blanks are dropped, tabs and line ends
are dropped everywhere. -/
def clean (url : Str) : Str :=
  (lstripWhere (fun c => c.val ≤ 32) url).filter fun c => c ≠ '\t' && c ≠ '\r' && c ≠ '\n'

def splitScheme (url : Str) : Str × Str :=
  match cut [':'] url with
  | some (c :: name, rest) =>
      if c.isAlpha && (c :: name).all isSchemeChar then ((c :: name).map Char.toLower, rest)
      else ([], url)
  | _ => ([], url)

def endsNetloc (c : Char) : Bool := c = '/' || c = '?' || c = '#'

def splitNetloc (url : Str) : Str × Str :=
  match url with
  | '/' :: '/' :: rest =>
      (rest.takeWhile fun c => !endsNetloc c, rest.dropWhile fun c => !endsNetloc c)
  | _ => ([], url)

def upTo (c : Char) (s : Str) : Str := s.takeWhile fun d => d ≠ c

def usesParams : List Str :=
  ["", "ftp", "hdl", "prospero", "http", "https", "shttp", "rtsp", "rtsps", "rtspu", "sip", "sips",
    "mms", "sftp", "tel"].map String.toList

/-- `_splitparams`: the parameters start at the first `;` of the last segment. -/
def dropParams (path : Str) : Str :=
  match rcut ['/'] path with
  | none => upTo ';' path
  | some (directory, last) => directory ++ '/' :: upTo ';' last

/-- `urlparse(url)`; `none` where it raises `ValueError`. -/
def urlparse [NetlocRules] (url : Str) : Option Parsed :=
  let afterScheme := splitScheme (clean url)
  let afterNetloc := splitNetloc afterScheme.2
  if !NetlocRules.accepts afterNetloc.1 then none
  else
    let path := upTo '?' (upTo '#' afterNetloc.2)
    some {
      scheme := afterScheme.1
      netloc := afterNetloc.1
      path := if usesParams.contains afterScheme.1 then dropParams path else path }

/-- The text after the last occurrence of a separator, else the whole text. -/
def afterLast (separator s : Str) : Str :=
  match rcut separator s with
  | none => s
  | some parts => parts.2

/-- `parsed.hostname or ""`: without credentials and port, in lower case up to a zone. -/
def hostname [Unicode] (netloc : Str) : Str :=
  let hostinfo := afterLast ['@'] netloc
  let host := match cut ['['] hostinfo with
    | some (_, bracketed) => upTo ']' bracketed
    | none => upTo ':' hostinfo
  match cut ['%'] host with
  | some (name, zone) => Unicode.lower name ++ '%' :: zone
  | none => Unicode.lower host

section Parts

theorem up_to_absent (c : Char) (s : Str) (absent : c ∉ s) : upTo c s = s := by
  rw [upTo, List.takeWhile_eq_self_iff]
  intro d member
  have apart : d ≠ c := fun same => absent (same ▸ member)
  simp [apart]

theorem up_to_first (c : Char) (front rest : Str) (absent : c ∉ front) :
    upTo c (front ++ c :: rest) = front := by
  have whole := up_to_absent c front absent
  unfold upTo at whole ⊢
  rw [List.takeWhile_append_of_pos]
  · simp
  · exact List.takeWhile_eq_self_iff.mp whole

theorem after_last_absent (c : Char) (s : Str) (absent : c ∉ s) : afterLast [c] s = s := by
  have missed : rcut [c] s = none := by
    rw [rcut, List.reverse_singleton, cut_absent c [] s.reverse fun member =>
      absent (List.mem_reverse.mp member)]
    rfl
  rw [afterLast, missed]

theorem after_last_last (c : Char) (front rest : Str) (absent : c ∉ rest) :
    afterLast [c] (front ++ c :: rest) = rest := by
  rw [afterLast, rcut_last c front rest absent]

theorem rcut_eq_some {separator s : Str} {parts : Str × Str} (found : rcut separator s = some parts)
    (single : separator.length = 1) : s = parts.1 ++ separator ++ parts.2 := by
  obtain ⟨c, rfl⟩ := List.length_eq_one_iff.mp single
  obtain ⟨inner, located, rfl⟩ := Option.map_eq_some_iff.mp found
  have split := (cut_eq_some_iff.mp located).1
  rw [← List.reverse_reverse s, split]
  simp

theorem drop_params_absent (path : Str) (absent : ';' ∉ path) : dropParams path = path := by
  unfold dropParams
  cases found : rcut ['/'] path with
  | none => exact up_to_absent ';' path absent
  | some parts =>
      have split := rcut_eq_some found rfl
      have later : ';' ∉ parts.2 := fun member => absent (split ▸ List.mem_append_right _ member)
      simp only [up_to_absent ';' parts.2 later]
      rw [split]
      simp

theorem urlparse_written [NetlocRules] {first : Char} {name netloc path : Str}
    (scheme : (first.isAlpha && (first :: name).all isSchemeChar) = true)
    (small : (first :: name).map Char.toLower = first :: name) (visible : ¬first.val ≤ 32)
    (colonless : ':' ∉ first :: name)
    (plain : ∀ c ∈ netloc, c.val < 128 ∧ c ≠ '[' ∧ c ≠ ']' ∧ endsNetloc c = false)
    (unmarked : ∀ c ∈ path, c ≠ '#' ∧ c ≠ '?' ∧ c ≠ ';')
    (unspaced : ∀ c ∈ first :: name ++ (':' :: '/' :: '/' :: (netloc ++ '/' :: path)),
      isSpace c = false) :
    urlparse (first :: name ++ (':' :: '/' :: '/' :: (netloc ++ '/' :: path))) =
      some ⟨first :: name, netloc, '/' :: path⟩ := by
  have cleaned : clean (first :: name ++ (':' :: '/' :: '/' :: (netloc ++ '/' :: path))) =
      first :: name ++ (':' :: '/' :: '/' :: (netloc ++ '/' :: path)) := by
    unfold clean lstripWhere
    rw [List.cons_append, List.dropWhile_cons_of_neg (by simpa using visible), List.filter_eq_self]
    intro c member
    have kept := unspaced c member
    have apart : c ≠ '\t' ∧ c ≠ '\r' ∧ c ≠ '\n' := by
      refine ⟨?_, ?_, ?_⟩ <;>
      · rintro rfl
        exact absurd kept (by decide)
    simp [apart]
  have schemed : splitScheme (first :: name ++ (':' :: '/' :: '/' :: (netloc ++ '/' :: path))) =
      (first :: name, '/' :: '/' :: (netloc ++ '/' :: path)) := by
    unfold splitScheme
    rw [cut_first ':' (first :: name) _ colonless]
    simp only [scheme, small]
    rfl
  have located : splitNetloc ('/' :: '/' :: (netloc ++ '/' :: path)) = (netloc, '/' :: path) := by
    have inside : ∀ c ∈ netloc, (!endsNetloc c) = true := by
      intro c member
      rw [(plain c member).2.2.2]
      rfl
    have ends : endsNetloc '/' = true := rfl
    simp only [splitNetloc]
    rw [List.takeWhile_append_of_pos inside, List.dropWhile_append_of_pos inside]
    simp [ends]
  have accepted : NetlocRules.accepts netloc = true :=
    NetlocRules.accepts_ascii netloc fun c member =>
      ⟨(plain c member).1, (plain c member).2.1, (plain c member).2.2.1⟩
  have absent : ∀ c : Char, c = '#' ∨ c = '?' ∨ c = ';' → c ∉ '/' :: path := by
    intro c mark member
    cases List.mem_cons.mp member with
    | inl slash =>
        rw [slash] at mark
        revert mark
        decide
    | inr inside =>
        have none := unmarked c inside
        tauto
  have whole : upTo '?' (upTo '#' ('/' :: path)) = '/' :: path := by
    rw [up_to_absent '#' _ (absent '#' (.inl rfl)), up_to_absent '?' _ (absent '?' (.inr (.inl rfl)))]
  unfold urlparse
  simp only [cleaned, schemed, located, accepted, whole,
    drop_params_absent ('/' :: path) (absent ';' (.inr (.inr rfl)))]
  simp

end Parts

end DearAgent.Lib.Url
