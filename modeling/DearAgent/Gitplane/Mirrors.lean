import DearAgent.Policy
import DearAgent.Gitplane.Forge

/-!
# Two readings of one repository URL

A policy reduces a URL to the text after `github.com/`, wherever that stands;
the git plane clones from the host of the same URL. For every slug there are
URLs on any host that the policy reduces to that slug.
-/

namespace DearAgent

open DearAgent.Lib.Text DearAgent.Lib.Url

set_option autoImplicit false

def mirrorFront (host : Char) : Str := "https://".toList ++ host :: "/github.com/".toList

/-- The slug as a path below `github.com` on a host with a one-letter name. -/
def mirrorUrl (host : Char) (slug : Str) : Str := mirrorFront host ++ (slug ++ ".git".toList)

section Ends

theorem rstrip_where_of_end (drop : Char → Bool) (last : Char) (front middle back : Str)
    (keepLast : drop last = false) :
    rstripWhere drop (front ++ (middle ++ (back ++ [last]))) =
      front ++ (middle ++ (back ++ [last])) := by
  simp [rstripWhere, keepLast]

theorem strip_where_of_ends (drop : Char → Bool) (first last : Char) (front middle back : Str)
    (keepFirst : drop first = false) (keepLast : drop last = false) :
    stripWhere drop (first :: front ++ (middle ++ (back ++ [last]))) =
      first :: front ++ (middle ++ (back ++ [last])) := by
  have stays : lstripWhere drop (first :: front ++ (middle ++ (back ++ [last]))) =
      first :: front ++ (middle ++ (back ++ [last])) := by
    simp [lstripWhere, keepFirst]
  rw [stripWhere, stays, rstrip_where_of_end drop last _ _ _ keepLast]

theorem drop_git_suffix_append (value : Str) : dropGitSuffix (value ++ ".git".toList) = value := by
  have suffix : endswith (value ++ ".git".toList) ".git".toList = true :=
    List.isSuffixOf_iff_suffix.mpr (List.suffix_append _ _)
  rw [dropGitSuffix, if_pos suffix, List.length_append]
  simp

theorem mem_rstrip_where {drop : Char → Bool} {c : Char} {s : Str}
    (member : c ∈ rstripWhere drop s) : c ∈ s := by
  rw [rstripWhere, List.mem_reverse] at member
  exact List.mem_reverse.mp ((List.dropWhile_sublist _).mem member)

theorem mem_lstrip_where {drop : Char → Bool} {c : Char} {s : Str}
    (member : c ∈ lstripWhere drop s) : c ∈ s := (List.dropWhile_sublist _).mem member

theorem mem_cut_right {separator s : Str} {parts : Str × Str} (found : cut separator s = some parts)
    {c : Char} (member : c ∈ parts.2) : c ∈ s := by
  induction s generalizing parts with
  | nil =>
      unfold cut at found
      split_ifs at found
      obtain rfl := Option.some.inj found
      simp at member
  | cons d rest ih =>
      unfold cut at found
      split_ifs at found
      · obtain rfl := Option.some.inj found
        exact List.mem_of_mem_drop member
      · obtain ⟨inner, located, rfl⟩ := Option.map_eq_some_iff.mp found
        exact List.mem_cons_of_mem _ (ih located member)

theorem strip_slashes_length (core rest : Str) (kept : ∀ c ∈ core, c ≠ '/') :
    core.length ≤ (stripSlashes ('/' :: (core ++ rest))).length := by
  have front : lstripWhere (fun c => c = '/') ('/' :: (core ++ rest)) =
      lstripWhere (fun c => c = '/') (core ++ rest) := by
    simp [lstripWhere]
  have whole : ∀ text : Str, core.length ≤ (rstripWhere (fun c => c = '/') (core ++ text)).length := by
    intro text
    simp only [rstripWhere, List.length_reverse, List.reverse_append]
    have unchanged : core.reverse.dropWhile (fun c => decide (c = '/')) = core.reverse := by
      cases reversed : core.reverse with
      | nil => rfl
      | cons c more =>
          have member : c ∈ core := by
            rw [← List.mem_reverse, reversed]
            simp
          simp [kept c member]
    rw [List.dropWhile_append]
    split_ifs
    · rw [unchanged, List.length_reverse]
    · rw [List.length_append, List.length_reverse]
      omega
  unfold stripSlashes stripWhere
  rw [front]
  cases core with
  | nil => simp
  | cons c more =>
      have stays : lstripWhere (fun c => decide (c = '/')) (c :: more ++ rest) = c :: more ++ rest := by
        simp [lstripWhere, kept c (by simp)]
      rw [stays]
      exact whole rest

end Ends

section Readings

variable [Unicode]

theorem normalize_repo_lower (repo : Str) :
    ∀ c ∈ normalizeRepo repo, c ∈ Unicode.lower (strip repo) := by
  have reduced : ∀ c ∈ dropGitSuffix (rstripWhere (fun c => c = '/') (Unicode.lower (strip repo))),
      c ∈ Unicode.lower (strip repo) := by
    intro c member
    refine @mem_rstrip_where (fun c => c = '/') c _ ?_
    unfold dropGitSuffix at member
    split_ifs at member
    · exact List.mem_of_mem_take member
    · exact member
  intro c member
  unfold normalizeRepo at member
  simp only at member
  split at member
  · rename_i parts found
    exact reduced c (mem_cut_right found member)
  · split at member
    · rename_i parts found
      split_ifs at found
      · exact reduced c (mem_cut_right found member)
    · exact reduced c member

theorem normalize_wildcard_free {pattern : Str} (plain : Glob.WildcardFree pattern) :
    Glob.WildcardFree (normalizeRepo pattern) := by
  intro c member
  by_contra wild
  have star : c = '*' ∨ c = '?' ∨ c = '[' := by
    rw [Bool.not_eq_false, Glob.wildcard] at wild
    simpa [or_assoc] using wild
  have source : c ∈ strip pattern := by
    refine Unicode.lower_symbol _ c (normalize_repo_lower pattern c member) ?_ ?_ <;>
      rcases star with rfl | rfl | rfl <;> decide
  exact wild (plain c (mem_lstrip_where (mem_rstrip_where source)))

theorem lower_of_fixed_parts (first second : Str) (plain : ∀ c ∈ first, Unicode.lower [c] = [c])
    (fixed : ∀ c ∈ second, Unicode.lower [c] = [c]) :
    Unicode.lower (first ++ second) = first ++ second :=
  Unicode.lower_fixed _ fun c member => (List.mem_append.mp member).elim (plain c) (fixed c)

theorem lower_ascii_char (c : Char) (ascii : c.val < 128) (small : c.toLower = c) :
    Unicode.lower [c] = [c] := by
  rw [Unicode.lower_ascii [c] (by simpa using ascii), List.map_singleton, small]

theorem normalize_mirror (host : Char) (known : host = 'a' ∨ host = 'b') (slug : Str)
    (fixed : ∀ c ∈ slug, Unicode.lower [c] = [c]) : normalizeRepo (mirrorUrl host slug) = slug := by
  have stripped : strip (mirrorUrl host slug) = mirrorUrl host slug :=
    strip_where_of_ends isSpace 'h' 't' ("ttps://".toList ++ host :: "/github.com/".toList) slug
      ".gi".toList (by decide) (by decide)
  have constant : ∀ text : Str, (∀ c ∈ text, c.val < 128 ∧ c.toLower = c) →
      ∀ c ∈ text, Unicode.lower [c] = [c] := fun text plain c member =>
    lower_ascii_char c (plain c member).1 (plain c member).2
  have lowered : Unicode.lower (mirrorUrl host slug) = mirrorUrl host slug := by
    apply lower_of_fixed_parts
    · refine constant _ ?_
      rcases known with rfl | rfl <;> exact every_char (by decide)
    · intro c member
      rcases List.mem_append.mp member with inSlug | inSuffix
      · exact fixed c inSlug
      · exact constant ".git".toList (every_char (by decide)) c inSuffix
  have unslashed : rstripWhere (fun c => c = '/') (mirrorUrl host slug) = mirrorUrl host slug :=
    rstrip_where_of_end _ 't' (mirrorFront host) slug ".gi".toList (by decide)
  have bare : dropGitSuffix (mirrorUrl host slug) = mirrorFront host ++ slug := by
    rw [mirrorUrl, ← List.append_assoc, drop_git_suffix_append]
  unfold normalizeRepo
  rw [stripped, lowered, unslashed, bare]
  rcases known with rfl | rfl <;> rfl

variable [NetlocRules]

omit [Unicode] [NetlocRules] in
theorem drop_params_prefix (rest : Str) :
    ∃ more, dropParams ("/github.com/".toList ++ rest) = '/' :: ("github.com".toList ++ more) := by
  by_cases segments : '/' ∈ rest
  · obtain ⟨last, directory, reversed, absent⟩ :=
      List.eq_append_cons_of_mem (List.mem_reverse.mpr segments)
    have split : rest = directory.reverse ++ '/' :: last.reverse := by
      rw [← List.reverse_reverse rest, reversed]
      simp
    refine ⟨'/' :: (directory.reverse ++ '/' :: upTo ';' last.reverse), ?_⟩
    have located : rcut ['/'] ("/github.com/".toList ++ rest) =
        some ("/github.com/".toList ++ directory.reverse, last.reverse) := by
      rw [split, ← List.append_assoc]
      exact rcut_last '/' _ _ (by simpa using absent)
    rw [dropParams, located]
    rfl
  · refine ⟨'/' :: upTo ';' rest, ?_⟩
    have located : rcut ['/'] ("/github.com/".toList ++ rest) = some ("/github.com".toList, rest) :=
      rcut_last '/' "/github.com".toList rest segments
    rw [dropParams, located]
    rfl

theorem parse_mirror (host : Char) (known : host = 'a' ∨ host = 'b') (slug : Str) :
    ∃ path, parseRemote (mirrorUrl host slug) = .ok ⟨[host], path⟩ := by
  have stripped : strip (mirrorUrl host slug) = mirrorUrl host slug :=
    strip_where_of_ends isSpace 'h' 't' ("ttps://".toList ++ host :: "/github.com/".toList) slug
      ".gi".toList (by decide) (by decide)
  have nonempty : (mirrorUrl host slug).isEmpty = false := rfl
  have schemed : contains "://" (mirrorUrl host slug) = true := by
    rcases known with rfl | rfl <;> rfl
  have parsed : ∃ more, urlparse (mirrorUrl host slug) =
      some ⟨"https", [host], '/' :: ("github.com".toList ++ more)⟩ := by
    have cleaned : ∃ text, clean (mirrorUrl host slug) = mirrorFront host ++ text := by
      refine ⟨(slug ++ ".git".toList).filter fun c => c ≠ '\t' && c ≠ '\r' && c ≠ '\n', ?_⟩
      rcases known with rfl | rfl <;>
        exact List.filter_append (mirrorFront _) (slug ++ ".git".toList)
    obtain ⟨text, cleaned⟩ := cleaned
    have accepted : NetlocRules.accepts [host] = true := by
      apply NetlocRules.accepts_ascii
      rcases known with rfl | rfl <;> exact every_char (by decide)
    have netloc : (splitNetloc (splitScheme (mirrorFront host ++ text)).2) =
        ([host], "/github.com/".toList ++ text) := by
      rcases known with rfl | rfl <;> rfl
    have scheme : (splitScheme (mirrorFront host ++ text)).1 = "https".toList := by
      rcases known with rfl | rfl <;> rfl
    obtain ⟨more, path⟩ := drop_params_prefix (upTo '?' (upTo '#' text))
    refine ⟨more, ?_⟩
    simp only [urlparse, cleaned, netloc, scheme, accepted]
    rw [← path]
    rfl
  obtain ⟨more, parsed⟩ := parsed
  have named : hostname [host] = [host] := by
    have small : Unicode.lower [host] = [host] := by
      apply lower_ascii_char <;> rcases known with rfl | rfl <;> decide
    rcases known with rfl | rfl <;> exact small
  have long : 10 ≤ (stripSlashes ('/' :: ("github.com".toList ++ more))).length :=
    strip_slashes_length "github.com".toList more (every_char (by decide))
  unfold parseRemote
  simp only [stripped, nonempty, schemed, parsed, named]
  exact ⟨_, remote_of_long _ [host] _ (by simp) (by omega)⟩

def SameRemote (first second : Remote) : Prop :=
  Unicode.lower first.host = Unicode.lower second.host ∧
    Unicode.lower first.path = Unicode.lower second.path

/-- What a pattern without wildcards should mean: all URLs it matches name one remote. -/
def NamesOneRemote (pattern : Str) : Prop :=
  ∀ url url' remote remote', parseRemote url = .ok remote → parseRemote url' = .ok remote' →
    patternMatches pattern url = true → patternMatches pattern url' = true →
    SameRemote remote remote'

omit [NetlocRules] in
theorem pattern_matches_mirror (host : Char) (known : host = 'a' ∨ host = 'b') (pattern : Str)
    (plain : Glob.WildcardFree pattern) :
    patternMatches pattern (mirrorUrl host (normalizeRepo pattern)) = true := by
  have fixed : ∀ c ∈ normalizeRepo pattern, Unicode.lower [c] = [c] := fun c member =>
    Unicode.fixed_of_lower _ c (normalize_repo_lower pattern c member)
  rw [patternMatches, Glob.fnmatch_wildcard_free (normalize_wildcard_free plain),
    normalize_mirror host known _ fixed]
  exact decide_eq_true rfl

/-- No pattern without wildcards is confined to one remote: every one of them
matches URLs on two different hosts. -/
theorem no_pattern_names_one_remote (pattern : Str) (plain : Glob.WildcardFree pattern) :
    ¬NamesOneRemote pattern := by
  intro confined
  obtain ⟨path, parsed⟩ := parse_mirror 'a' (.inl rfl) (normalizeRepo pattern)
  obtain ⟨path', parsed'⟩ := parse_mirror 'b' (.inr rfl) (normalizeRepo pattern)
  have same := confined _ _ _ _ parsed parsed'
    (pattern_matches_mirror 'a' (.inl rfl) pattern plain)
    (pattern_matches_mirror 'b' (.inr rfl) pattern plain)
  have hosts : Unicode.lower ['a'] = Unicode.lower ['b'] := same.1
  rw [lower_ascii_char 'a' (by decide) (by decide), lower_ascii_char 'b' (by decide) (by decide)]
    at hosts
  exact absurd hosts (by decide)

end Readings

theorem no_pattern_names_one_remote_widget :
    ¬@NamesOneRemote asciiTables asciiNetlocs "acme/widget" :=
  @no_pattern_names_one_remote asciiTables asciiNetlocs "acme/widget" (every_char (by decide))

/-- `https://evil.example/github.com/acme/widget` is cloned from `evil.example`
and matches the pattern that was written for `github.com`. -/
theorem widget_pattern_matches_other_host :
    ¬@NamesOneRemote asciiTables asciiNetlocs "acme/widget" := by
  let _ := asciiTables
  let _ := asciiNetlocs
  intro confined
  have same := confined "https://github.com/acme/widget" "https://evil.example/github.com/acme/widget"
    ⟨"github.com", "acme/widget"⟩ ⟨"evil.example", "github.com/acme/widget"⟩ (by rfl) (by rfl)
    (by decide) (by decide)
  exact absurd same.1 (by decide)

end DearAgent
