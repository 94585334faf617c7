import DearAgent.Gitplane.Forge

/-!
# The spellings that `parse_remote` reads alike

A remote is written as a URL or as a path behind a colon, with an account, a port, a suffix
and white space around it.
-/

namespace DearAgent

open DearAgent.Lib.Text DearAgent.Lib.Url

set_option autoImplicit false

section Characters

def isHostChar (c : Char) : Bool := c.isLower || c.isDigit || c = '.' || c = '-'

def isUserChar (c : Char) : Bool := c.isAlphanum || c = '.' || c = '_' || c = '-'

/-- Letters, digits, dots, underscores, hyphens and slashes are such characters, among others. -/
def isPathChar (c : Char) : Bool := !isSpace c && c ≠ ':' && c ≠ '?' && c ≠ '#' && c ≠ ';'

theorem alphanumeric_ascii {c : Char} (named : c.isAlphanum = true) : c.val < 128 := by
  have below : ∀ {bound : UInt32}, c.val ≤ bound → bound < 128 → c.val < 128 :=
    fun high small => UInt32.lt_iff_toNat_lt.mpr
      ((UInt32.le_iff_toNat_le.mp high).trans_lt (UInt32.lt_iff_toNat_lt.mp small))
  rcases Bool.or_eq_true_iff.mp named with alpha | digit
  · rcases Bool.or_eq_true_iff.mp alpha with upper | lower
    · exact below (of_decide_eq_true upper).2 (by decide)
    · exact below (of_decide_eq_true (Bool.and_eq_true_iff.mp lower).2) (by decide)
  · exact below (of_decide_eq_true (Bool.and_eq_true_iff.mp digit).2) (by decide)

theorem user_char_ascii {c : Char} (user : isUserChar c = true) : c.val < 128 := by
  simp only [isUserChar, Bool.or_eq_true, decide_eq_true_eq] at user
  rcases user with ((named | rfl) | rfl) | rfl
  · exact alphanumeric_ascii named
  all_goals decide

theorem user_char_plain {c : Char} (user : isUserChar c = true) :
    (!endsNetloc c && !isSpace c && c ≠ '@' && c ≠ ':' && c ≠ '[' && c ≠ ']' && c ≠ '%') = true := by
  have all := @every_ascii (fun c => !isUserChar c || (!endsNetloc c && !isSpace c && c ≠ '@' &&
    c ≠ ':' && c ≠ '[' && c ≠ ']' && c ≠ '%')) (by decide) c (user_char_ascii user)
  rw [user] at all
  exact all

theorem user_of_host_char {c : Char} (host : isHostChar c = true) : isUserChar c = true := by
  simp only [isHostChar, Bool.or_eq_true, decide_eq_true_eq] at host
  rcases host with ((lower | digit) | rfl) | rfl
  · have letter : c.isAlpha = true := Bool.or_eq_true_iff.mpr (.inr lower)
    simp [isUserChar, Char.isAlphanum, letter]
  · simp [isUserChar, Char.isAlphanum, digit]
  · rfl
  · rfl

theorem host_char_small {c : Char} (host : isHostChar c = true) : c.toLower = c := by
  have all := @every_ascii (fun c => !isHostChar c || c.toLower = c) (by decide) c
    (user_char_ascii (user_of_host_char host))
  rw [host] at all
  exact of_decide_eq_true all

end Characters

/-- A host over lower-case letters, digits, dots and hyphens. -/
structure IsHost (host : Str) : Prop where
  nonempty : host ≠ []
  chars : ∀ c ∈ host, isHostChar c = true

/-- A path without slashes around it and without the suffix. -/
structure IsProject (path : Str) : Prop where
  nonempty : path ≠ []
  chars : ∀ c ∈ path, isPathChar c = true
  unslashed : stripSlashes path = path
  bare : endswith path ".git" = false

inductive Family
  | https
  | httpsPort (user port : Str)
  | ssh
  | sshPort (port : Str)
  | scp
  | bare
  | rooted

/-- The account and the port are those that a URL can have. -/
def Family.Plain : Family → Prop
  | .httpsPort user port =>
      (∀ c ∈ user, isUserChar c = true) ∧ ∀ c ∈ port, c.isDigit = true
  | .sshPort port => ∀ c ∈ port, c.isDigit = true
  | _ => True

/-- `scheme://account@host:port/path`. -/
def urlSpelling (scheme account host port path : Str) : Str :=
  scheme ++ (':' :: '/' :: '/' :: ((account ++ (host ++ port)) ++ '/' :: path))

/-- `account@host:path`. -/
def scpSpelling (account host lead path : Str) : Str := (account ++ host) ++ ':' :: (lead ++ path)

def Family.write (host path : Str) : Family → Str
  | .https => urlSpelling "https" [] host [] path
  | .httpsPort user port => urlSpelling "https" (user ++ ['@']) host (':' :: port) path
  | .ssh => urlSpelling "ssh" "git@" host [] path
  | .sshPort port => urlSpelling "ssh" "git@" host (':' :: port) path
  | .scp => scpSpelling "git@" host [] path
  | .bare => scpSpelling [] host [] path
  | .rooted => scpSpelling "git@" host ['/'] path

def remoteSuffixes : List Str := ["", ".git", "/", ".git/"].map String.toList

/-- All spellings of a remote are read as this remote. -/
def ReadAlike [Unicode] [NetlocRules] (host path : Str) : Prop :=
  ∀ (family : Family) (suffix front back : Str), family.Plain → suffix ∈ remoteSuffixes →
    (∀ c ∈ front ++ back, isSpace c = true) →
    parseRemote (front ++ (family.write host (path ++ suffix) ++ back)) = .ok ⟨host, path⟩

/-- A remote with a host and a path comes back, or the declared error. -/
def Settles [Unicode] [NetlocRules] (url : Str) : Prop :=
  (∃ remote, parseRemote url = .ok remote ∧ remote.host ≠ [] ∧ remote.path ≠ []) ∨
    ∃ error, parseRemote url = .error error ∧ error.isGitError = true

def netlocOf (url : Str) : Str := (splitNetloc (splitScheme (clean url)).2).1

section Paths

theorem project_path_plain {path suffix : Str} (project : IsProject path)
    (known : suffix ∈ remoteSuffixes) {front : Str} (slashes : ∀ c ∈ front, c = '/') :
    projectPath (front ++ (path ++ suffix)) = path := by
  have led : ∀ c ∈ front, decide (c = '/') = true := fun c member => decide_eq_true (slashes c member)
  have ends := strip_where_eq_self_iff.mp project.unslashed
  have suffixed : stripSlashes (path ++ ".git".toList) = path ++ ".git".toList := by
    refine strip_where_eq_self_iff.mpr ⟨?_, ?_⟩
    · intro c head
      rw [List.head?_append_of_ne_nil _ project.nonempty] at head
      exact ends.1 c head
    · intro c last
      rw [List.getLast?_append_of_ne_nil _ (by decide)] at last
      cases last
      rfl
  have without : ∀ back : Str, (∀ c ∈ back, c = '/') →
      projectPath (front ++ (path ++ back)) = path := by
    intro back trailing
    have stripped : stripSlashes (front ++ (path ++ back)) = path := by
      unfold stripSlashes
      rw [strip_where_padded path led fun c member => decide_eq_true (trailing c member)]
      exact project.unslashed
    unfold projectPath
    simp only [stripped, project.bare]
    simp
  have with_suffix : ∀ back : Str, (∀ c ∈ back, c = '/') →
      projectPath (front ++ ((path ++ ".git".toList) ++ back)) = path := by
    intro back trailing
    have stripped : stripSlashes (front ++ ((path ++ ".git".toList) ++ back)) =
        path ++ ".git".toList := by
      unfold stripSlashes
      rw [strip_where_padded _ led fun c member => decide_eq_true (trailing c member)]
      exact suffixed
    have ended : endswith (path ++ ".git".toList) ".git" = true :=
      List.isSuffixOf_iff_suffix.mpr (List.suffix_append _ _)
    unfold projectPath
    rw [stripped]
    simp only [ended]
    rw [if_pos trivial, List.length_append]
    simp
  simp only [remoteSuffixes, List.map_cons, List.map_nil, List.mem_cons, List.not_mem_nil,
    or_false] at known
  rcases known with rfl | rfl | rfl | rfl
  · exact without [] (by simp)
  · simpa using with_suffix [] (by simp)
  · exact without ['/'] (by simp)
  · simpa using with_suffix ['/'] (by simp)

end Paths

section Hosts

variable [Unicode] {host : Str}

theorem hostname_parts (named : IsHost host) {account port : Str}
    (accounted : account = [] ∨ ∃ user, account = user ++ ['@'])
    (ported : port = [] ∨ ∃ digits, (∀ c ∈ digits, isUserChar c = true) ∧ port = ':' :: digits) :
    hostname (account ++ (host ++ port)) = host := by
  have plain : ∀ c ∈ host, c ≠ '@' ∧ c ≠ ':' ∧ c ≠ '[' ∧ c ≠ '%' := by
    intro c member
    have apart := user_char_plain (user_of_host_char (named.chars c member))
    simp only [Bool.and_eq_true, decide_eq_true_eq] at apart
    tauto
  have port_plain : ∀ c ∈ port, c ≠ '@' ∧ c ≠ '[' := by
    rcases ported with rfl | ⟨digits, digit, rfl⟩
    · simp
    · refine List.forall_mem_cons.mpr ⟨by decide, fun c member => ?_⟩
      have apart := user_char_plain (digit c member)
      simp only [Bool.and_eq_true, decide_eq_true_eq] at apart
      tauto
  have behind : ∀ c ∈ host ++ port, c ≠ '@' ∧ c ≠ '[' := by
    intro c member
    rcases List.mem_append.mp member with inHost | inPort
    · exact ⟨(plain c inHost).1, (plain c inHost).2.2.1⟩
    · exact port_plain c inPort
  have info : afterLast ['@'] (account ++ (host ++ port)) = host ++ port := by
    have absent : '@' ∉ host ++ port := fun member => (behind '@' member).1 rfl
    rcases accounted with rfl | ⟨user, rfl⟩
    · exact after_last_absent '@' _ absent
    · rw [List.append_assoc]
      exact after_last_last '@' user _ absent
  have unbracketed : cut ['['] (host ++ port) = none :=
    cut_absent '[' [] _ fun member => (behind '[' member).2 rfl
  have before_port : upTo ':' (host ++ port) = host := by
    have absent : ':' ∉ host := fun member => (plain ':' member).2.1 rfl
    rcases ported with rfl | ⟨digits, _, rfl⟩
    · rw [List.append_nil]
      exact up_to_absent ':' host absent
    · exact up_to_first ':' host digits absent
  have unzoned : cut ['%'] host = none :=
    cut_absent '%' [] host fun member => (plain '%' member).2.2.2 rfl
  have small : Unicode.lower host = host := by
    rw [Unicode.lower_ascii host fun c member =>
      user_char_ascii (user_of_host_char (named.chars c member))]
    exact (List.map_congr_left fun c member => host_char_small (named.chars c member)).trans
      (List.map_id host)
  unfold hostname
  simp only [info, unbracketed, before_port, unzoned, small]

end Hosts

section Spelled

variable {host path suffix : Str}

theorem suffix_chars (known : suffix ∈ remoteSuffixes) : ∀ c ∈ suffix, isPathChar c = true := by
  have all : ∀ text ∈ remoteSuffixes, (text.all fun c => isPathChar c) = true := by decide
  exact List.all_eq_true.mp (all suffix known)

theorem path_char_plain {c : Char} (inside : isPathChar c = true) :
    isSpace c = false ∧ c ≠ ':' ∧ c ≠ '?' ∧ c ≠ '#' ∧ c ≠ ';' := by
  simp only [isPathChar, Bool.and_eq_true, Bool.not_eq_true', decide_eq_true_eq] at inside
  tauto

theorem digit_user {c : Char} (digit : c.isDigit = true) : isUserChar c = true := by
  simp [isUserChar, Char.isAlphanum, digit]

variable [Unicode]

theorem remote_of_named (value : Str) (named : host ≠ []) (project : IsProject path)
    (known : suffix ∈ remoteSuffixes) {front : Str} (slashes : ∀ c ∈ front, c = '/') :
    remoteOf value host (front ++ (path ++ suffix)) = .ok ⟨host, path⟩ := by
  have found := project_path_plain project known slashes
  rw [remoteOf, found, if_neg (by simp [named, project.nonempty])]

variable [NetlocRules]

omit [Unicode] [NetlocRules] in
theorem scheme_plain {first : Char} {name : Str}
    (schemed : first :: name = "https".toList ∨ first :: name = "ssh".toList) :
    (first.isAlpha && (first :: name).all isSchemeChar) = true ∧
      (first :: name).map Char.toLower = first :: name ∧ ¬first.val ≤ 32 ∧ ':' ∉ first :: name ∧
      ∀ c ∈ first :: name, isSpace c = false := by
  have unspaced : ∀ scheme ∈ ["https".toList, "ssh".toList], ∀ c ∈ scheme, isSpace c = false := by
    have plain : (["https".toList, "ssh".toList].all fun scheme =>
        scheme.all fun c => !isSpace c) = true := by decide
    intro scheme listed c member
    simpa using List.all_eq_true.mp (List.all_eq_true.mp plain scheme listed) c member
  rcases schemed with same | same
  · obtain ⟨rfl, rfl⟩ := List.cons.inj same
    exact ⟨by decide, by decide, by decide, by decide, unspaced _ (List.mem_cons_self ..)⟩
  · obtain ⟨rfl, rfl⟩ := List.cons.inj same
    exact ⟨by decide, by decide, by decide, by decide,
      unspaced _ (List.mem_cons_of_mem _ (List.mem_cons_self ..))⟩

omit [Unicode] [NetlocRules] in
/-- What stands between the slashes is plain: nothing in it ends it, or is for an address in brackets. -/
theorem netloc_plain {account port : Str} (named : IsHost host)
    (accounted : account = [] ∨
      ∃ user, (∀ c ∈ user, isUserChar c = true) ∧ account = user ++ ['@'])
    (ported : port = [] ∨ ∃ digits, (∀ c ∈ digits, isUserChar c = true) ∧ port = ':' :: digits) :
    ∀ c ∈ account ++ (host ++ port),
      (c.val < 128 ∧ c ≠ '[' ∧ c ≠ ']' ∧ endsNetloc c = false) ∧ isSpace c = false := by
  have chars : ∀ c ∈ account ++ (host ++ port), isUserChar c = true ∨ c = '@' ∨ c = ':' := by
    refine List.forall_mem_append.mpr ⟨?_, List.forall_mem_append.mpr ⟨?_, ?_⟩⟩
    · rcases accounted with rfl | ⟨user, users, rfl⟩
      · simp
      · exact List.forall_mem_append.mpr ⟨fun c member => .inl (users c member), by simp⟩
    · exact fun c member => .inl (user_of_host_char (named.chars c member))
    · rcases ported with rfl | ⟨digits, digit, rfl⟩
      · simp
      · exact List.forall_mem_cons.mpr ⟨by simp, fun c member => .inl (digit c member)⟩
  intro c member
  rcases chars c member with user | rfl | rfl
  · have apart := user_char_plain user
    have ascii := user_char_ascii user
    simp only [Bool.and_eq_true, Bool.not_eq_true', decide_eq_true_eq] at apart
    tauto
  · decide
  · decide

theorem parse_url_spelling {scheme account port : Str}
    (schemed : scheme = "https".toList ∨ scheme = "ssh".toList)
    (named : IsHost host) (project : IsProject path) (known : suffix ∈ remoteSuffixes)
    (accounted : account = [] ∨
      ∃ user, (∀ c ∈ user, isUserChar c = true) ∧ account = user ++ ['@'])
    (ported : port = [] ∨ ∃ digits, (∀ c ∈ digits, isUserChar c = true) ∧ port = ':' :: digits)
    {before behind : Str} (blank : ∀ c ∈ before ++ behind, isSpace c = true) :
    parseRemote (before ++ (urlSpelling scheme account host port (path ++ suffix) ++ behind)) =
      .ok ⟨host, path⟩ := by
  obtain ⟨first, name, rfl⟩ : ∃ first name, scheme = first :: name := by
    rcases schemed with rfl | rfl
    · exact ⟨_, _, rfl⟩
    · exact ⟨_, _, rfl⟩
  have facts := scheme_plain schemed
  have netloc := netloc_plain named accounted ported
  have tail_plain : ∀ c ∈ path ++ suffix, isPathChar c = true :=
    List.forall_mem_append.mpr ⟨project.chars, suffix_chars known⟩
  have unspaced : ∀ c ∈ urlSpelling (first :: name) account host port (path ++ suffix),
      isSpace c = false := by
    refine List.forall_mem_append.mpr ⟨facts.2.2.2.2, List.forall_mem_cons.mpr ⟨rfl,
      List.forall_mem_cons.mpr ⟨rfl, List.forall_mem_cons.mpr ⟨rfl, List.forall_mem_append.mpr
        ⟨fun c member => (netloc c member).2, List.forall_mem_cons.mpr ⟨rfl, ?_⟩⟩⟩⟩⟩⟩
    exact fun c member => (path_char_plain (tail_plain c member)).1
  have is_url : contains "://" (urlSpelling (first :: name) account host port (path ++ suffix)) = true := by
    rcases schemed with same | same <;>
      · obtain ⟨rfl, rfl⟩ := List.cons.inj same
        rfl
  have stripped : strip (before ++ (urlSpelling (first :: name) account host port (path ++ suffix) ++
      behind)) = urlSpelling (first :: name) account host port (path ++ suffix) := by
    unfold strip
    rw [strip_where_padded _ (fun c member => blank c (List.mem_append_left _ member))
      fun c member => blank c (List.mem_append_right _ member), strip_where_kept unspaced]
  have nonempty : (urlSpelling (first :: name) account host port (path ++ suffix)).isEmpty = false := rfl
  have parsed : urlparse (urlSpelling (first :: name) account host port (path ++ suffix)) = _ :=
    urlparse_written facts.1 facts.2.1 facts.2.2.1 facts.2.2.2.1
      (fun c member => (netloc c member).1)
      (fun c member => by
        have plain := path_char_plain (tail_plain c member)
        exact ⟨plain.2.2.2.1, plain.2.2.1, plain.2.2.2.2⟩) unspaced
  have host_found := hostname_parts named
    (accounted.imp id fun ⟨user, _, same⟩ => ⟨user, same⟩) ported
  unfold parseRemote
  simp only [stripped, nonempty, is_url, parsed, host_found]
  rw [if_neg Bool.false_ne_true, if_pos trivial]
  have slash : ∀ c ∈ ['/'], c = '/' := List.forall_mem_singleton.mpr rfl
  have read := remote_of_named (urlSpelling (first :: name) account host port (path ++ suffix))
    named.nonempty project known slash
  exact read

omit [Unicode] [NetlocRules] in
theorem no_scheme {before behind : Str} (first : ':' ∉ before) (second : ':' ∉ behind)
    (unslashed : "//".toList.isPrefixOf behind = false) :
    contains "://" (before ++ ':' :: behind) = false := by
  have missed : cut "://" (before ++ ':' :: behind) = none := by
    induction before with
    | nil =>
        have here : "://".toList.isPrefixOf (':' :: behind) = "//".toList.isPrefixOf behind := by
          change (':' == ':' && "//".toList.isPrefixOf behind) = _
          rfl
        have later : cut "://" behind = none := cut_absent ':' "//".toList behind second
        rw [List.nil_append, cut, here, unslashed, later]
        rfl
    | cons c more ih =>
        have apart : ':' ≠ c := fun same => first (same ▸ List.mem_cons_self)
        have inner := ih fun member => first (List.mem_cons_of_mem _ member)
        have here : "://".toList.isPrefixOf (c :: (more ++ ':' :: behind)) = false := by
          change (':' == c && _) = false
          simp [apart]
        rw [List.cons_append, cut, here, inner]
        rfl
  rw [contains, missed]
  rfl

theorem parse_scp_spelling {account lead : Str} (named : IsHost host) (project : IsProject path)
    (known : suffix ∈ remoteSuffixes) (accounted : account = [] ∨ account = "git@".toList)
    (led : lead = [] ∨ lead = ['/']) {before behind : Str}
    (blank : ∀ c ∈ before ++ behind, isSpace c = true) :
    parseRemote (before ++ (scpSpelling account host lead (path ++ suffix) ++ behind)) =
      .ok ⟨host, path⟩ := by
  have lead_slashes : ∀ c ∈ lead, c = '/' := by
    rcases led with rfl | rfl
    · simp
    · simp
  have host_chars : ∀ c ∈ host, c ≠ '@' ∧ c ≠ ':' ∧ isSpace c = false := by
    intro c member
    have apart := user_char_plain (user_of_host_char (named.chars c member))
    simp only [Bool.and_eq_true, Bool.not_eq_true', decide_eq_true_eq] at apart
    tauto
  have front_chars : ∀ c ∈ account ++ host, c ≠ ':' ∧ isSpace c = false := by
    refine List.forall_mem_append.mpr ⟨?_, fun c member => (host_chars c member).2⟩
    rcases accounted with rfl | rfl
    · simp
    · exact every_char (by decide)
  have tail_chars : ∀ c ∈ lead ++ (path ++ suffix), c ≠ ':' ∧ isSpace c = false := by
    refine List.forall_mem_append.mpr ⟨?_, List.forall_mem_append.mpr ⟨?_, ?_⟩⟩
    · intro c member
      rw [lead_slashes c member]
      decide
    · intro c member
      have plain := path_char_plain (project.chars c member)
      exact ⟨plain.2.1, plain.1⟩
    · intro c member
      have plain := path_char_plain (suffix_chars known c member)
      exact ⟨plain.2.1, plain.1⟩
  have unslashed : "//".toList.isPrefixOf (lead ++ (path ++ suffix)) = false := by
    obtain ⟨c, more, rfl⟩ := List.exists_cons_of_ne_nil project.nonempty
    have apart := (strip_where_eq_self_iff.mp project.unslashed).1 c rfl
    have different : '/' ≠ c := fun same => by simp [← same] at apart
    rcases led with rfl | rfl
    · change ('/' == c && _) = false
      simp [different]
    · change ('/' == '/' && ('/' == c && _)) = false
      simp [different]
  have unspaced : ∀ c ∈ scpSpelling account host lead (path ++ suffix), isSpace c = false :=
    List.forall_mem_append.mpr ⟨fun c member => (front_chars c member).2,
      List.forall_mem_cons.mpr ⟨rfl, fun c member => (tail_chars c member).2⟩⟩
  have stripped : strip (before ++ (scpSpelling account host lead (path ++ suffix) ++ behind)) =
      scpSpelling account host lead (path ++ suffix) := by
    unfold strip
    rw [strip_where_padded _ (fun c member => blank c (List.mem_append_left _ member))
      fun c member => blank c (List.mem_append_right _ member), strip_where_kept unspaced]
  have front_colon : ':' ∉ account ++ host := fun member => (front_chars ':' member).1 rfl
  have schemeless : contains "://" (scpSpelling account host lead (path ++ suffix)) = false :=
    no_scheme front_colon (fun member => (tail_chars ':' member).1 rfl) unslashed
  have located : afterLast "@" (account ++ host) = host := by
    have absent : '@' ∉ host := fun member => (host_chars '@' member).1 rfl
    rcases accounted with rfl | rfl
    · exact after_last_absent '@' host absent
    · exact after_last_last '@' "git".toList host absent
  have nonempty : (scpSpelling account host lead (path ++ suffix)).isEmpty = false := by
    simp [scpSpelling]
  have divided : cut ":" (scpSpelling account host lead (path ++ suffix)) =
      some (account ++ host, lead ++ (path ++ suffix)) := cut_first ':' _ _ front_colon
  unfold parseRemote
  simp only [stripped, schemeless, nonempty, divided, located]
  exact remote_of_named _ named.nonempty project known lead_slashes

theorem family_read_alike (named : IsHost host) (project : IsProject path) :
    ReadAlike host path := by
  intro family suffix front back plain known blank
  have digits : ∀ {port : Str}, (∀ c ∈ port, c.isDigit = true) →
      ∃ digits, (∀ c ∈ digits, isUserChar c = true) ∧ ':' :: port = ':' :: digits := by
    intro port all
    exact ⟨port, fun c member => digit_user (all c member), rfl⟩
  have git : ∃ user, (∀ c ∈ user, isUserChar c = true) ∧ "git@".toList = user ++ ['@'] :=
    ⟨"git".toList, every_char (by decide), rfl⟩
  cases family with
  | https => exact parse_url_spelling (.inl rfl) named project known (.inl rfl) (.inl rfl) blank
  | httpsPort user port =>
      exact parse_url_spelling (.inl rfl) named project known (.inr ⟨user, plain.1, rfl⟩)
        (.inr (digits plain.2)) blank
  | ssh => exact parse_url_spelling (.inr rfl) named project known (.inr git) (.inl rfl) blank
  | sshPort port =>
      exact parse_url_spelling (.inr rfl) named project known (.inr git) (.inr (digits plain)) blank
  | scp => exact parse_scp_spelling named project known (.inr rfl) (.inl rfl) blank
  | bare => exact parse_scp_spelling named project known (.inl rfl) (.inl rfl) blank
  | rooted => exact parse_scp_spelling named project known (.inr rfl) (.inr rfl) blank

end Spelled

section Settling

variable [Unicode]

theorem remote_of_settles (value host path : Str) :
    (∃ remote, remoteOf value host path = .ok remote ∧ remote.host ≠ [] ∧ remote.path ≠ []) ∨
      ∃ error, remoteOf value host path = .error error ∧ error.isGitError = true := by
  unfold remoteOf
  split_ifs with missing
  · exact .inr ⟨_, rfl, rfl⟩
  · simp only [Bool.or_eq_true, List.isEmpty_iff, not_or] at missing
    exact .inl ⟨_, rfl, missing⟩

variable [NetlocRules]

omit [Unicode] in
theorem urlparse_none_iff (url : Str) :
    urlparse url = none ↔ NetlocRules.accepts (netlocOf url) = false := by
  unfold urlparse netlocOf
  simp only
  split_ifs with refused
  · simpa using refused
  · simpa using refused

theorem settles_iff (url : Str) :
    Settles url ↔ (contains "://" (strip url) = true →
      NetlocRules.accepts (netlocOf (strip url)) = true) := by
  unfold Settles parseRemote
  simp only
  split_ifs with empty schemed
  · apply iff_of_true (.inr ⟨_, rfl, rfl⟩)
    intro schemed
    rw [List.isEmpty_iff.mp empty] at schemed
    exact absurd schemed (by decide)
  · cases parsed : urlparse (strip url) with
    | none =>
        have refused := (urlparse_none_iff (strip url)).mp parsed
        apply iff_of_false
        · rintro (⟨remote, never, _⟩ | ⟨error, raised, git⟩)
          · cases never
          · cases raised
            cases git
        · intro accepted
          rw [accepted schemed] at refused
          cases refused
    | some parts =>
        apply iff_of_true (remote_of_settles _ _ _)
        intro _
        rw [← Bool.not_eq_false]
        intro refused
        rw [(urlparse_none_iff (strip url)).mpr refused] at parsed
        cases parsed
  · apply iff_of_true
    · cases divided : cut ":" (strip url) with
      | none => exact .inr ⟨_, rfl, rfl⟩
      | some parts => exact remote_of_settles _ _ _
    · exact fun never => absurd never schemed

/-- All spellings of a remote are read alike, and a text is read or refused as declared exactly
where it has no network location that the library refuses. -/
theorem remotes_read_iff :
    (∀ host path, IsHost host → IsProject path → ReadAlike host path) ∧
      ∀ url, Settles url ↔ (contains "://" (strip url) = true →
        NetlocRules.accepts (netlocOf (strip url)) = true) :=
  ⟨fun _ _ => family_read_alike, settles_iff⟩

end Settling

theorem open_bracket_escapes :
    let _ := asciiTables
    let _ := asciiNetlocs
    (∃ text, parseRemote "https://[h/p" = .error (.valueError text)) ∧ ¬Settles "https://[h/p" := by
  intro tables netlocs
  have raised : ∃ text, parseRemote "https://[h/p" = .error (.valueError text) := ⟨_, rfl⟩
  refine ⟨raised, ?_⟩
  obtain ⟨text, raised⟩ := raised
  rintro (⟨remote, never, _⟩ | ⟨error, other, git⟩)
  · rw [raised] at never
    cases never
  · rw [raised] at other
    cases other
    cases git

end DearAgent
