import DearAgent.Runners.Container
import DearAgent.Lib.Values

/-!
# Mounts from the environment

`parse_mounts` of `sandbox.py` cuts an entry at its first colon and what is behind it at the
next one. Its grammar is stated on the entry as a whole.
-/

namespace DearAgent.Container

open DearAgent.Lib.Text
open DearAgent.Lib.Values (map_m_returns_iff map_m_raises map_m_ok_iff)

set_option autoImplicit false

deriving instance DecidableEq for Mount

def splitPaths (value : Option Str) : List Str :=
  let listed := (value.getD []).map fun c => if c = ';' then ',' else c
  ((splitAt (fun c => c = ',') listed).map strip).filter fun part => !part.isEmpty

section Parsing

variable [Unicode]

def invalidMount (entry : Str) : Exn :=
  sandboxError ("invalid mount ".toList ++ reprText entry ++ "; expected host:container[:ro|rw]".toList)

def invalidMountMode (mode entry : Str) : Exn :=
  sandboxError ("invalid mount mode ".toList ++ reprText mode ++ " in ".toList ++ reprText entry)

omit [Unicode] in
def mountModes : List Str := ["", "ro", "rw"].map String.toList

/-- One turn of the loop of `parse_mounts`. -/
def parseMount (entry : Str) : Except Exn Mount :=
  match cut [':'] entry with
  | none => .error (invalidMount entry)
  | some (host, rest) =>
      if (strip host).isEmpty || (strip rest).isEmpty then .error (invalidMount entry)
      else
        let parts := (cut [':'] rest).getD (rest, [])
        let mode := Unicode.lower (strip parts.2)
        if mode ∈ mountModes then
          .ok { host := strip host, container := strip parts.1,
                readonly := !decide (mode = "rw".toList) }
        else .error (invalidMountMode mode entry)

def parseMounts (value : Option Str) : Except Exn (List Mount) :=
  (splitPaths value).mapM parseMount

end Parsing

/-!
## The grammar
-/

def isDivider (c : Char) : Bool := c = ',' || c = ';'

def entriesOf (value : Option Str) : List Str :=
  ((splitAt isDivider (value.getD [])).map strip).filter fun entry => !entry.isEmpty

section Grammar

variable [Unicode]

def IsMode (mode : Str) : Prop := Unicode.lower (strip mode) ∈ mountModes

/-- `host:container` or `host:container:mode`. -/
def Grammatical (entry : Str) : Prop :=
  ∃ host container, strip host ≠ [] ∧ strip container ≠ [] ∧ ':' ∉ host ∧ ':' ∉ container ∧
    (entry = host ++ ':' :: container ∨
      ∃ mode, IsMode mode ∧ entry = host ++ ':' :: (container ++ ':' :: mode))

/-- The same with nothing but white space between the colons. -/
def Lapsed (entry : Str) : Prop :=
  ∃ host blank mode, strip host ≠ [] ∧ strip blank = [] ∧ ':' ∉ host ∧ ':' ∉ blank ∧
    IsMode mode ∧ entry = host ++ ':' :: (blank ++ ':' :: mode)

/-- The text is one that the grammar takes, or the failure is the one that is declared. -/
structure ParsesItsGrammar (value : Option Str) : Prop where
  accepts : (∃ mounts, parseMounts value = .ok mounts) ↔ ∀ entry ∈ entriesOf value, Grammatical entry
  refuses : ∀ error, parseMounts value = .error error → ∃ text, error = sandboxError text

omit [Unicode] in
theorem split_at_semicolons (s : Str) :
    splitAt (fun c => c = ',') (s.map fun c => if c = ';' then ',' else c) =
      splitAt isDivider s := by
  induction s with
  | nil => rfl
  | cons c rest ih =>
      rw [List.map_cons, splitAt, splitAt, ih]
      by_cases semicolon : c = ';'
      · simp [isDivider, semicolon]
      · simp [isDivider, semicolon]

omit [Unicode] in
theorem split_paths_entries (value : Option Str) : splitPaths value = entriesOf value := by
  unfold splitPaths entriesOf
  simp only [split_at_semicolons]

theorem blank_mode : IsMode [] := by
  have same : Unicode.lower [] = [] := Unicode.lower_ascii [] (by simp)
  have blank : strip [] = [] := rfl
  unfold IsMode
  rw [blank, same]
  decide

/-- An entry is taken if it is in the grammar, or if it has no container between its colons. -/
theorem parse_mount_iff (entry : Str) :
    (∃ mount, parseMount entry = .ok mount) ↔ Grammatical entry ∨ Lapsed entry := by
  constructor
  · rintro ⟨mount, parsed⟩
    unfold parseMount at parsed
    cases first : cut [':'] entry with
    | none =>
        rw [first] at parsed
        cases parsed
    | some parts =>
        obtain ⟨host, rest⟩ := parts
        obtain ⟨split, whole⟩ := cut_eq_some_iff.mp first
        simp only [first] at parsed
        split_ifs at parsed with blank mode
        simp only [Bool.or_eq_true, List.isEmpty_iff, not_or] at blank
        cases second : cut [':'] rest with
        | none =>
            have single : ':' ∉ rest := by
              intro inside
              obtain ⟨before, after, same, absent⟩ := List.eq_append_cons_of_mem inside
              rw [cut_eq_some_iff.mpr ⟨same, absent⟩] at second
              cases second
            exact .inl ⟨host, rest, blank.1, blank.2, whole, single, .inl split⟩
        | some parts =>
            obtain ⟨container, given⟩ := parts
            obtain ⟨inner, single⟩ := cut_eq_some_iff.mp second
            rw [second] at mode
            rw [inner] at split
            by_cases empty : strip container = []
            · exact .inr ⟨host, container, given, blank.1, empty, whole, single, mode, split⟩
            · exact .inl ⟨host, container, blank.1, empty, whole, single,
                .inr ⟨given, mode, split⟩⟩
  · have with_mode : ∀ host container mode, strip host ≠ [] → ':' ∉ host → ':' ∉ container →
        IsMode mode → ∃ mount, parseMount (host ++ ':' :: (container ++ ':' :: mode)) = .ok mount := by
      intro host container mode named whole single known
      have colon : strip (container ++ ':' :: mode) ≠ [] := by
        intro empty
        have spaced := blank_of_strip _ empty ':' (by simp)
        exact absurd spaced (by decide)
      have taken : Unicode.lower (strip mode) ∈ mountModes := known
      unfold parseMount
      simp only [cut_first ':' host _ whole, cut_first ':' container _ single, Option.getD_some]
      rw [if_neg (by simp [named, colon]), if_pos taken]
      exact ⟨_, rfl⟩
    intro admitted
    cases admitted with
    | inl grammatical =>
        obtain ⟨host, container, named, some_container, whole, single, shape⟩ := grammatical
        cases shape with
        | inl short =>
            have taken : Unicode.lower (strip []) ∈ mountModes := blank_mode
            unfold parseMount
            rw [short]
            simp only [cut_first ':' host _ whole, cut_absent ':' [] container single,
              Option.getD_none]
            rw [if_neg (by simp [named, some_container]), if_pos taken]
            exact ⟨_, rfl⟩
        | inr long =>
            obtain ⟨mode, known, rfl⟩ := long
            exact with_mode host container mode named whole single known
    | inr lapsed =>
        obtain ⟨host, blank, mode, named, _, whole, single, known, rfl⟩ := lapsed
        exact with_mode host blank mode named whole single known

theorem not_grammatical_of_lapsed {entry : Str} (lapsed : Lapsed entry) : ¬Grammatical entry := by
  rintro ⟨host, container, _, some_container, whole, single, shape⟩
  obtain ⟨host', blank, mode, _, empty, whole', single', _, rfl⟩ := lapsed
  have cut_here : ∀ rest, host' ++ ':' :: (blank ++ ':' :: mode) = host ++ ':' :: rest →
      blank ++ ':' :: mode = rest := by
    intro rest same
    have one := cut_first ':' host' (blank ++ ':' :: mode) whole'
    rw [same, cut_first ':' host rest whole] at one
    exact (congrArg Prod.snd (Option.some.inj one)).symm
  cases shape with
  | inl short =>
      rw [← cut_here container short] at single
      simp at single
  | inr long =>
      obtain ⟨given, _, same⟩ := long
      have two := cut_first ':' blank mode single'
      rw [cut_here _ same, cut_first ':' container given single] at two
      have named : container = blank := congrArg Prod.fst (Option.some.inj two)
      rw [named] at some_container
      exact some_container empty

theorem parse_mounts_iff (value : Option Str) :
    (∃ mounts, parseMounts value = .ok mounts) ↔
      ∀ entry ∈ entriesOf value, Grammatical entry ∨ Lapsed entry := by
  unfold parseMounts
  rw [map_m_returns_iff, split_paths_entries]
  exact forall₂_congr fun entry _ => parse_mount_iff entry

theorem parse_mounts_raises {value : Option Str} {error : Exn}
    (raised : parseMounts value = .error error) : ∃ text, error = sandboxError text := by
  obtain ⟨entry, _, own⟩ := map_m_raises raised
  unfold parseMount at own
  cases first : cut [':'] entry with
  | none =>
      rw [first] at own
      cases own
      exact ⟨_, rfl⟩
  | some parts =>
      simp only [first] at own
      split_ifs at own
      · cases own
        exact ⟨_, rfl⟩
      · cases own
        exact ⟨_, rfl⟩

/-- The grammar is kept exactly where no entry that is taken has a blank container. -/
theorem parses_its_grammar_iff (value : Option Str) :
    ParsesItsGrammar value ↔
      ((∀ entry ∈ entriesOf value, Grammatical entry ∨ Lapsed entry) →
        ∀ entry ∈ entriesOf value, ¬Lapsed entry) := by
  constructor
  · intro parses taken entry member lapsed
    have grammatical := parses.accepts.mp ((parse_mounts_iff value).mpr taken)
    exact not_grammatical_of_lapsed lapsed (grammatical entry member)
  · intro unlapsed
    refine ⟨(parse_mounts_iff value).trans ⟨fun taken entry member => ?_, fun all entry member => ?_⟩,
      fun error raised => parse_mounts_raises raised⟩
    · exact (taken entry member).resolve_right (unlapsed taken entry member)
    · exact .inl (all entry member)

end Grammar

/-!
## Writing mounts
-/

structure Plain (text : Str) : Prop where
  nonempty : text ≠ []
  trimmed : strip text = text
  undivided : ∀ c ∈ text, c ≠ ':' ∧ c ≠ ',' ∧ c ≠ ';'

def mountMode (mount : Mount) : Str := if mount.readonly then "ro" else "rw"

def mountEntry (mount : Mount) : Str :=
  mount.host ++ ':' :: (mount.container ++ ':' :: mountMode mount)

section Writing

theorem mount_mode_chars (mount : Mount) :
    ∀ c ∈ mountMode mount, c.val < 128 ∧ c.toLower = c ∧ c ≠ ',' ∧ c ≠ ';' := by
  unfold mountMode
  split_ifs
  · exact every_char (by decide)
  · exact every_char (by decide)

theorem mount_mode_stripped (mount : Mount) :
    mountMode mount ≠ [] ∧ strip (mountMode mount) = mountMode mount := by
  unfold mountMode
  split_ifs <;> decide

variable {mount : Mount} (host : Plain mount.host)

include host

theorem mount_entry_stripped : strip (mountEntry mount) = mountEntry mount := by
  have mode := mount_mode_stripped mount
  have same := strip_between (':' :: (mount.container ++ [':'])) host.nonempty mode.1 host.trimmed mode.2
  simpa [mountEntry] using same

variable (container : Plain mount.container)

include container

theorem mount_entry_undivided : ∀ c ∈ mountEntry mount, isDivider c = false := by
  intro c member
  have apart : c ≠ ',' ∧ c ≠ ';' := by
    simp only [mountEntry, List.mem_append, List.mem_cons] at member
    rcases member with inHost | rfl | inContainer | rfl | inMode
    · exact (host.undivided c inHost).2
    · decide
    · exact (container.undivided c inContainer).2
    · decide
    · exact (mount_mode_chars mount c inMode).2.2
  simp [isDivider, apart]

theorem parse_mount_entry [Unicode] :
    parseMount (mountEntry mount) = .ok { mount with relabel := false } := by
  have first : ':' ∉ mount.host := fun member => (host.undivided ':' member).1 rfl
  have second : ':' ∉ mount.container := fun member => (container.undivided ':' member).1 rfl
  have colon : strip (mount.container ++ ':' :: mountMode mount) ≠ [] := by
    intro empty
    exact absurd (blank_of_strip _ empty ':' (by simp)) (by decide)
  have same : Unicode.lower (strip (mountMode mount)) = mountMode mount := by
    have chars := mount_mode_chars mount
    rw [(mount_mode_stripped mount).2, Unicode.lower_ascii _ fun c member => (chars c member).1]
    exact (List.map_congr_left fun c member => (chars c member).2.1).trans (List.map_id _)
  have known : mountMode mount ∈ mountModes := by
    unfold mountMode
    split_ifs <;> decide
  have flag : (!decide (mountMode mount = "rw".toList)) = mount.readonly := by
    unfold mountMode
    cases mount.readonly <;> decide
  unfold parseMount mountEntry
  simp only [cut_first ':' mount.host _ first, cut_first ':' mount.container _ second,
    Option.getD_some, same, host.trimmed, container.trimmed]
  rw [if_neg (by simp [host.nonempty, colon]), if_pos known, flag]

end Writing

theorem parse_mounts_written [Unicode] {mounts : List Mount}
    (plain : ∀ mount ∈ mounts, Plain mount.host ∧ Plain mount.container) :
    parseMounts (some (join "," (mounts.map mountEntry))) =
      .ok (mounts.map fun mount => { mount with relabel := false }) := by
  have entries : entriesOf (some (join "," (mounts.map mountEntry))) = mounts.map mountEntry := by
    cases mounts with
    | nil => rfl
    | cons mount rest =>
        have comma : ",".toList = [','] := rfl
        unfold entriesOf
        rw [Option.getD_some, comma, split_at_join isDivider ',' rfl]
        · have stripped : ((mount :: rest).map mountEntry).map strip = (mount :: rest).map mountEntry := by
            rw [List.map_map]
            exact List.map_congr_left fun item member => mount_entry_stripped (plain item member).1
          rw [stripped, List.filter_eq_self]
          intro entry member
          obtain ⟨item, among, rfl⟩ := List.mem_map.mp member
          simp [mountEntry]
        · exact List.cons_ne_nil _ _
        · intro entry member
          obtain ⟨item, among, rfl⟩ := List.mem_map.mp member
          exact mount_entry_undivided (plain item among).1 (plain item among).2
  unfold parseMounts
  rw [split_paths_entries, entries, map_m_ok_iff, List.forall₂_map_left_iff,
    List.forall₂_map_right_iff, List.forall₂_same]
  exact fun mount member => parse_mount_entry (plain mount member).1 (plain mount member).2

/-- The parser keeps to its grammar exactly where no entry that it takes has a blank container,
and it reads back whatever mounts are written. -/
theorem mounts_grammar_iff [Unicode] :
    (∀ value, ParsesItsGrammar value ↔
      ((∀ entry ∈ entriesOf value, Grammatical entry ∨ Lapsed entry) →
        ∀ entry ∈ entriesOf value, ¬Lapsed entry)) ∧
      ∀ mounts : List Mount, (∀ mount ∈ mounts, Plain mount.host ∧ Plain mount.container) →
        parseMounts (some (join "," (mounts.map mountEntry))) =
          .ok (mounts.map fun mount => { mount with relabel := false }) :=
  ⟨parses_its_grammar_iff, fun _ plain => parse_mounts_written plain⟩

theorem empty_container_mounted :
    let _ := asciiTables
    parseMounts (some "~/.config::ro") =
        .ok [{ host := "~/.config", container := [], readonly := true }] ∧
      ¬ParsesItsGrammar (some "~/.config::ro") := by
  intro tables
  have parsed : parseMounts (some "~/.config::ro") =
      .ok [{ host := "~/.config", container := [], readonly := true }] := by
    decide
  refine ⟨parsed, fun parses => ?_⟩
  have entry : "~/.config::ro".toList ∈ entriesOf (some "~/.config::ro") := by decide
  have grammatical := parses.accepts.mp ⟨_, parsed⟩ _ entry
  refine not_grammatical_of_lapsed ⟨"~/.config", [], "ro", ?_⟩ grammatical
  exact ⟨by decide, by decide, by decide, by decide, by unfold IsMode; decide, rfl⟩

end DearAgent.Container
