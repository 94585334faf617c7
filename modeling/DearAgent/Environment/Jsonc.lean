import DearAgent.Lib.Grammar

/-!
# JSON with comments

`_load_jsonc` and `_strip_jsonc` of `environment/descriptor.py`.
-/

namespace DearAgent.Environment

open DearAgent.Lib.CodePoints DearAgent.Lib.Values DearAgent.Lib.Json

set_option autoImplicit false

def isLineEnd (c : CodePoint) : Bool := c = '\r' || c = '\n'

/-- Where the scan of `_strip_jsonc` stands. -/
inductive Mode
  | outside
  | string (escape : Bool)
  | line
  | block

def Mode.behind (escape : Bool) (c : CodePoint) : Mode :=
  if escape then .string false
  else if c = '\\' then .string true
  else if c = '"' then .outside
  else .string false

/-- `_strip_jsonc` from some place on: the inner loops of the source are the modes `line` and
`block`. -/
def stripFrom : Mode → PyStr → PyStr
  | _, [] => []
  | .string escape, c :: rest => c :: stripFrom (.behind escape c) rest
  | .line, c :: rest => if isLineEnd c then c :: stripFrom .outside rest else stripFrom .line rest
  | .block, [_] => []
  | .block, c :: d :: rest =>
      if c = '*' && d = '/' then stripFrom .outside rest else stripFrom .block (d :: rest)
  | .outside, [c] => [c]
  | .outside, c :: d :: rest =>
      if c = '"' then c :: stripFrom (.string false) (d :: rest)
      else if c = '/' && d = '/' then stripFrom .line rest
      else if c = '/' && d = '*' then stripFrom .block rest
      else c :: stripFrom .outside (d :: rest)

def stripJsonc (text : PyStr) : PyStr := stripFrom .outside text

/-- `_load_jsonc` once the file is read. -/
def loadJsonc [Interpreter] (text : PyStr) : Except Raised Value :=
  match loadsText text with
  | .ok value => .ok value
  | .error error =>
      if error.isA "JSONDecodeError" then loadsText (stripJsonc text) else .error error

section Stripping

theorem strip_pair (c d : CodePoint) (rest : PyStr) :
    stripFrom .outside (c :: d :: rest) =
      if c = '"' then c :: stripFrom (.string false) (d :: rest)
      else if c = '/' && d = '/' then stripFrom .line rest
      else if c = '/' && d = '*' then stripFrom .block rest
      else c :: stripFrom .outside (d :: rest) :=
  rfl

theorem strip_block_pair (c d : CodePoint) (rest : PyStr) :
    stripFrom .block (c :: d :: rest) =
      if c = '*' && d = '/' then stripFrom .outside rest else stripFrom .block (d :: rest) :=
  rfl

theorem strip_plain {c : CodePoint} (quote : c ≠ '"') (slash : c ≠ '/') (rest : PyStr) :
    stripFrom .outside (c :: rest) = c :: stripFrom .outside rest := by
  cases rest with
  | nil => rfl
  | cons d more => simp [strip_pair, quote, slash]

theorem strip_quote (rest : PyStr) :
    stripFrom .outside (ofChar '"' :: rest) = ofChar '"' :: stripFrom (.string false) rest := by
  cases rest with
  | nil => rfl
  | cons d more => simp [strip_pair]

theorem strip_slash {rest : PyStr} (single : rest.head? ≠ some (ofChar '/'))
    (unstarred : rest.head? ≠ some (ofChar '*')) :
    stripFrom .outside (ofChar '/' :: rest) = ofChar '/' :: stripFrom .outside rest := by
  cases rest with
  | nil => rfl
  | cons d more =>
      have first : d ≠ ofChar '/' := fun same => single (congrArg some same)
      have second : d ≠ ofChar '*' := fun same => unstarred (congrArg some same)
      have apart : ofChar '/' ≠ ofChar '"' := by decide
      simp [strip_pair, first, second, apart]

theorem strip_line_opener (rest : PyStr) :
    stripFrom .outside (ofChar '/' :: ofChar '/' :: rest) = stripFrom .line rest := by
  have apart : ofChar '/' ≠ ofChar '"' := by decide
  simp [strip_pair, apart]

theorem strip_block_opener (rest : PyStr) :
    stripFrom .outside (ofChar '/' :: ofChar '*' :: rest) = stripFrom .block rest := by
  have apart : ofChar '/' ≠ ofChar '"' := by decide
  have other : ofChar '*' ≠ ofChar '/' := by decide
  simp [strip_pair, apart, other]

theorem strip_block_closer (rest : PyStr) :
    stripFrom .block (ofChar '*' :: ofChar '/' :: rest) = stripFrom .outside rest := by
  simp [strip_block_pair]

theorem strip_block_step {c d : CodePoint} (rest : PyStr) (inside : ¬(c = '*' ∧ d = '/')) :
    stripFrom .block (c :: d :: rest) = stripFrom .block (d :: rest) := by
  simp [strip_block_pair, inside]

end Stripping

section Idempotence

/-- What a mode leaves is not changed by the mode that starts in its place. -/
def Mode.rescan : Mode → Mode
  | .string escape => .string escape
  | _ => .outside

/-- No slash is left before another opener: a slash that is kept is followed by what followed it. -/
theorem strip_head {c : CodePoint} (rest : PyStr) (slash : c ≠ '/') :
    (stripFrom .outside (c :: rest)).head? = some c := by
  by_cases quote : c = '"'
  · rw [quote, strip_quote]
    rfl
  · rw [strip_plain quote slash]
    rfl

theorem strip_stable (mode : Mode) (text : PyStr) :
    stripFrom mode.rescan (stripFrom mode text) = stripFrom mode text := by
  induction mode, text using stripFrom.induct with
  | case1 mode => cases mode <;> rfl
  | case2 escape c rest ih =>
      have step : ∀ text, stripFrom (.string escape) (c :: text) =
          c :: stripFrom (.behind escape c) text := fun _ => rfl
      have same : (Mode.behind escape c).rescan = Mode.behind escape c := by
        unfold Mode.behind
        split_ifs <;> rfl
      rw [same] at ih
      change stripFrom (.string escape) (stripFrom (.string escape) (c :: rest)) = _
      rw [step, step, ih]
  | case3 c rest broken ih =>
      have plain : c ≠ '"' ∧ c ≠ '/' := by
        refine ⟨?_, ?_⟩ <;>
          · rintro rfl
            exact absurd broken (by decide)
      rw [stripFrom, if_pos broken]
      exact (strip_plain plain.1 plain.2 _).trans (congrArg (c :: ·) ih)
  | case4 c rest kept ih =>
      rw [stripFrom, if_neg kept]
      exact ih
  | case5 c => rfl
  | case6 c d rest closed ih =>
      rw [stripFrom, if_pos closed]
      exact ih
  | case7 c d rest inside ih =>
      rw [stripFrom, if_neg inside]
      exact ih
  | case8 c => rfl
  | case9 d rest ih =>
      change stripFrom .outside (stripFrom .outside (ofChar '"' :: d :: rest)) = _
      rw [strip_quote, strip_quote]
      exact congrArg (ofChar '"' :: ·) ih
  | case10 c d rest quote line ih =>
      rw [stripFrom, if_neg quote, if_pos line]
      exact ih
  | case11 c d rest quote line block ih =>
      rw [stripFrom, if_neg quote, if_neg line, if_pos block]
      exact ih
  | case12 c d rest quote line block ih =>
      rw [stripFrom, if_neg quote, if_neg line, if_neg block]
      change stripFrom .outside (c :: stripFrom .outside (d :: rest)) = _
      by_cases slash : c = '/'
      · simp only [slash, Bool.and_eq_true, decide_eq_true_eq, true_and] at line block
        have head := strip_head rest line
        rw [slash, strip_slash]
        · exact congrArg (ofChar '/' :: ·) ih
        · rw [head]
          exact fun same => line (Option.some.inj same)
        · rw [head]
          exact fun same => block (Option.some.inj same)
      · rw [strip_plain quote slash]
        exact congrArg (c :: ·) ih

theorem strip_jsonc_idempotent (text : PyStr) : stripJsonc (stripJsonc text) = stripJsonc text :=
  strip_stable .outside text

end Idempotence

section Comments

def lineBreaks : List PyStr := ["\n", "\r", "\r\n"]

/-- White space of a text, the same with comments written into it, and what stripping is to leave
of that: the white space and the line breaks that came with the comments. -/
inductive Gap : PyStr → PyStr → PyStr → Prop
  | done : Gap [] [] []
  | space {c : CodePoint} {gap written kept : PyStr} (space : isJsonSpace c = true)
      (more : Gap gap written kept) : Gap (c :: gap) (c :: written) (c :: kept)
  | line {content ending gap written kept : PyStr} (inside : ∀ c ∈ content, isLineEnd c = false)
      (ends : ending ∈ lineBreaks) (more : Gap gap written kept) :
      Gap gap (ofChar '/' :: ofChar '/' :: (content ++ (ending ++ written))) (ending ++ kept)
  | line_before {content : PyStr} {c : CodePoint} {gap written kept : PyStr}
      (inside : ∀ c ∈ content, isLineEnd c = false) (ends : isLineEnd c = true)
      (more : Gap gap written kept) :
      Gap (c :: gap) (ofChar '/' :: ofChar '/' :: (content ++ c :: written)) (c :: kept)
  | block {content gap written kept : PyStr} (inside : ¬[ofChar '*', ofChar '/'] <:+: content)
      (more : Gap gap written kept) :
      Gap gap (ofChar '/' :: ofChar '*' :: (content ++ ofChar '*' :: ofChar '/' :: written)) kept

/-- Behind the last token a comment may be ended by the end of the text. -/
inductive LastGap : PyStr → PyStr → PyStr → Prop
  | closed {gap written kept : PyStr} (all : Gap gap written kept) : LastGap gap written kept
  | ended {gap written kept content : PyStr} (all : Gap gap written kept)
      (inside : ∀ c ∈ content, isLineEnd c = false) :
      LastGap gap (written ++ ofChar '/' :: ofChar '/' :: content) kept

/-- A text of these tokens, the same with comments between the tokens, and what stripping is to
leave of that. -/
inductive Commented : List PyStr → PyStr → PyStr → PyStr → Prop
  | last {gap written kept : PyStr} (all : LastGap gap written kept) : Commented [] gap written kept
  | token {gap written kept token text commented stripped : PyStr} {tokens : List PyStr}
      (all : Gap gap written kept) (is_token : Token token) (fits : Fits token text)
      (more : Commented tokens text commented stripped) :
      Commented (token :: tokens) (gap ++ (token ++ text)) (written ++ (token ++ commented))
        (kept ++ (token ++ stripped))

theorem line_end_space {c : CodePoint} (ends : isLineEnd c = true) : isJsonSpace c = true := by
  simp only [isLineEnd, Bool.or_eq_true, decide_eq_true_eq] at ends
  rcases ends with rfl | rfl <;> decide

theorem space_kept {c : CodePoint} (space : isJsonSpace c = true) (rest : PyStr) :
    stripFrom .outside (c :: rest) = c :: stripFrom .outside rest := by
  apply strip_plain
  · rintro rfl
    exact absurd space (by decide)
  · rintro rfl
    exact absurd space (by decide)

theorem line_breaks_space {ending : PyStr} (ends : ending ∈ lineBreaks) :
    ∃ c more, ending = c :: more ∧ isLineEnd c = true ∧ ∀ d ∈ c :: more, isJsonSpace d = true := by
  have all : (lineBreaks.all fun ending =>
      ending.head?.any isLineEnd && ending.all isJsonSpace) = true := by decide
  have own := Bool.and_eq_true_iff.mp (List.all_eq_true.mp all ending ends)
  cases ending with
  | nil => cases own.1
  | cons c more => exact ⟨c, more, rfl, own.1, List.all_eq_true.mp own.2⟩

theorem spaces_kept {spaces : PyStr} (all : ∀ c ∈ spaces, isJsonSpace c = true) (rest : PyStr) :
    stripFrom .outside (spaces ++ rest) = spaces ++ stripFrom .outside rest := by
  induction spaces with
  | nil => rfl
  | cons c spaces ih =>
      rw [List.cons_append, space_kept (all c List.mem_cons_self),
        ih fun d member => all d (List.mem_cons_of_mem c member)]
      rfl

theorem line_skipped {content : PyStr} (inside : ∀ c ∈ content, isLineEnd c = false) (rest : PyStr) :
    stripFrom .line (content ++ rest) = stripFrom .line rest := by
  induction content with
  | nil => rfl
  | cons c content ih =>
      have first := inside c List.mem_cons_self
      rw [List.cons_append, stripFrom, if_neg (by simp [first])]
      exact ih fun d member => inside d (List.mem_cons_of_mem c member)

theorem line_open {content : PyStr} (inside : ∀ c ∈ content, isLineEnd c = false) :
    stripFrom .line content = [] := by
  have same := line_skipped inside []
  rw [List.append_nil] at same
  exact same

theorem line_ended {c : CodePoint} (ends : isLineEnd c = true) (rest : PyStr) :
    stripFrom .line (c :: rest) = stripFrom .outside (c :: rest) := by
  rw [stripFrom, if_pos ends, space_kept (line_end_space ends)]

theorem block_skipped {content : PyStr} (inside : ¬[ofChar '*', ofChar '/'] <:+: content)
    (rest : PyStr) : stripFrom .block (content ++ ofChar '*' :: ofChar '/' :: rest) =
      stripFrom .outside rest := by
  induction content with
  | nil => exact strip_block_closer rest
  | cons c content ih =>
      have others : ¬[ofChar '*', ofChar '/'] <:+: content :=
        fun found => inside (found.trans (List.suffix_cons c content).isInfix)
      cases content with
      | nil =>
          refine (strip_block_step _ ?_).trans (ih others)
          intro both
          exact absurd both.2 (by decide)
      | cons d content =>
          refine (strip_block_step _ ?_).trans (ih others)
          rintro ⟨rfl, rfl⟩
          exact inside ⟨[], content, rfl⟩

theorem Gap.stripped {gap written kept : PyStr} (all : Gap gap written kept) (rest : PyStr) :
    stripFrom .outside (written ++ rest) = kept ++ stripFrom .outside rest := by
  induction all with
  | done => rfl
  | space space _ ih =>
      rw [List.cons_append, space_kept space, ih]
      rfl
  | line inside ends _ ih =>
      obtain ⟨c, more, rfl, ended, spaces⟩ := line_breaks_space ends
      simp only [List.cons_append, List.append_assoc]
      rw [strip_line_opener, line_skipped inside, line_ended ended]
      exact (spaces_kept spaces _).trans (congrArg (c :: more ++ ·) ih)
  | line_before inside ends _ ih =>
      simp only [List.cons_append, List.append_assoc]
      rw [strip_line_opener, line_skipped inside, line_ended ends, space_kept (line_end_space ends),
        ih]
  | block inside _ ih =>
      simp only [List.cons_append, List.append_assoc]
      rw [strip_block_opener, block_skipped inside, ih]

theorem LastGap.stripped {gap written kept : PyStr} (all : LastGap gap written kept) :
    stripFrom .outside written = kept := by
  cases all with
  | closed all =>
      have same := all.stripped []
      simp only [List.append_nil] at same
      exact same.trans (List.append_nil kept)
  | ended all inside => rw [all.stripped, strip_line_opener, line_open inside, List.append_nil]

theorem quoted_kept {body : PyStr} (quoted : Quoted body) (rest : PyStr) :
    stripFrom (.string false) (body ++ rest) = body ++ stripFrom .outside rest := by
  have step : ∀ c text, stripFrom (.string false) (c :: text) =
      c :: stripFrom (.behind false c) text := fun _ _ => rfl
  induction quoted with
  | close => rfl
  | @plain c body quote slash _ ih =>
      have behind : Mode.behind false c = .string false := by simp [Mode.behind, quote, slash]
      rw [List.cons_append, step, behind, ih]
      rfl
  | @escape c body _ ih =>
      have behind : Mode.behind false (ofChar '\\') = .string true := rfl
      have skip : stripFrom (.string true) (c :: (body ++ rest)) =
          c :: stripFrom (.string false) (body ++ rest) := rfl
      rw [List.cons_append, List.cons_append, step, behind, skip, ih]
      rfl

theorem word_kept {word : PyStr} (chars : ∀ c ∈ word, isWordChar c = true) (rest : PyStr) :
    stripFrom .outside (word ++ rest) = word ++ stripFrom .outside rest := by
  induction word with
  | nil => rfl
  | cons c word ih =>
      have plain := word_char_plain (chars c List.mem_cons_self)
      rw [List.cons_append, strip_plain plain.2.2.1 plain.2.2.2,
        ih fun d member => chars d (List.mem_cons_of_mem c member)]
      rfl

theorem token_kept {token : PyStr} (is_token : Token token) (rest : PyStr) :
    stripFrom .outside (token ++ rest) = token ++ stripFrom .outside rest := by
  cases is_token with
  | mark mark =>
      refine strip_plain ?_ ?_ rest
      · rintro rfl
        exact absurd mark (by decide)
      · rintro rfl
        exact absurd mark (by decide)
  | string quoted =>
      rw [List.cons_append, strip_quote, quoted_kept quoted]
      rfl
  | word chars => exact word_kept chars rest

theorem Commented.stripped {tokens : List PyStr} {text commented stripped : PyStr}
    (all : Commented tokens text commented stripped) :
    stripFrom .outside commented = stripped := by
  induction all with
  | last all => exact all.stripped
  | token all is_token _ _ ih => rw [all.stripped, token_kept is_token, ih]

theorem Gap.blank {gap written kept : PyStr} (all : Gap gap written kept) :
    (∀ c ∈ gap, isJsonSpace c = true) ∧ ∀ c ∈ kept, isJsonSpace c = true := by
  induction all with
  | done => simp
  | space space _ ih =>
      exact ⟨List.forall_mem_cons.mpr ⟨space, ih.1⟩, List.forall_mem_cons.mpr ⟨space, ih.2⟩⟩
  | line _ ends _ ih =>
      obtain ⟨c, more, rfl, _, spaces⟩ := line_breaks_space ends
      exact ⟨ih.1, List.forall_mem_append.mpr ⟨spaces, ih.2⟩⟩
  | line_before _ ends _ ih =>
      have space := line_end_space ends
      exact ⟨List.forall_mem_cons.mpr ⟨space, ih.1⟩, List.forall_mem_cons.mpr ⟨space, ih.2⟩⟩
  | block _ _ ih => exact ih

theorem LastGap.blank {gap written kept : PyStr} (all : LastGap gap written kept) :
    (∀ c ∈ gap, isJsonSpace c = true) ∧ ∀ c ∈ kept, isJsonSpace c = true := by
  cases all with
  | closed all => exact all.blank
  | ended all _ => exact all.blank

theorem Gap.empty {gap written kept : PyStr} (all : Gap gap written kept) (none : kept = []) :
    gap = [] := by
  induction all with
  | done => rfl
  | space _ _ _ => cases none
  | line _ ends _ _ =>
      obtain ⟨c, more, rfl, _, _⟩ := line_breaks_space ends
      cases none
  | line_before _ _ _ _ => cases none
  | block _ _ ih => exact ih none

theorem LastGap.empty {gap written kept : PyStr} (all : LastGap gap written kept)
    (none : kept = []) : gap = [] := by
  cases all with
  | closed all => exact all.empty none
  | ended all _ => exact all.empty none

theorem boundary_of_blank {spaces : PyStr} (blank : ∀ c ∈ spaces, isJsonSpace c = true)
    (shown : spaces ≠ []) (rest : PyStr) : Boundary (spaces ++ rest) := by
  cases spaces with
  | nil => exact absurd rfl shown
  | cons c spaces => exact boundary_cons (space_outside (blank c List.mem_cons_self))

theorem Commented.boundary {tokens : List PyStr} {text commented stripped : PyStr}
    (all : Commented tokens text commented stripped) (ends : Boundary text) :
    Boundary stripped := by
  cases all with
  | last all =>
      exact fun c head => space_outside (all.blank.2 c (List.mem_of_mem_head? head))
  | @token gap written kept token text commented stripped tokens all is_token _ _ =>
      by_cases none : kept = []
      · rw [all.empty none, List.nil_append] at ends
        rw [none, List.nil_append]
        obtain ⟨c, more, rfl, _⟩ := is_token.opens
        exact fun d head => ends d head
      · exact boundary_of_blank all.blank.2 none _

theorem Commented.spelled {tokens : List PyStr} {text commented stripped : PyStr}
    (all : Commented tokens text commented stripped) :
    (∃ rest, Spells tokens rest text ∧ ∀ c ∈ rest, isJsonSpace c = true) ∧
      ∃ rest, Spells tokens rest stripped ∧ ∀ c ∈ rest, isJsonSpace c = true := by
  induction all with
  | last all => exact ⟨⟨_, .done _, all.blank.1⟩, ⟨_, .done _, all.blank.2⟩⟩
  | token all is_token fits more ih =>
      obtain ⟨⟨rest, spelled, blank⟩, ⟨rest', spelled', blank'⟩⟩ := ih
      exact ⟨⟨rest, .token all.blank.1 is_token fits spelled, blank⟩,
        ⟨rest', .token all.blank.2 is_token (fun word => more.boundary (fits word)) spelled', blank'⟩⟩

theorem gap_self {gap : PyStr} (blank : ∀ c ∈ gap, isJsonSpace c = true) : Gap gap gap gap := by
  induction gap with
  | nil => exact .done
  | cons c gap ih =>
      exact .space (blank c List.mem_cons_self) (ih fun d member =>
        blank d (List.mem_cons_of_mem c member))

theorem commented_self {tokens : List PyStr} {rest text : PyStr} (spelled : Spells tokens rest text)
    (blank : ∀ c ∈ rest, isJsonSpace c = true) : Commented tokens text text text := by
  induction spelled with
  | done rest => exact .last (.closed (gap_self blank))
  | token gap_blank is_token fits _ ih => exact .token (gap_self gap_blank) is_token fits (ih blank)

end Comments

section Loading

variable [Interpreter]

theorem commented_loads {tokens : List PyStr} {text commented stripped : PyStr}
    (all : Commented tokens text commented stripped) (value : Value) :
    loadsText stripped = .ok value ↔ loadsText text = .ok value := by
  obtain ⟨⟨rest, spelled, blank⟩, ⟨rest', spelled', blank'⟩⟩ := all.spelled
  rw [loads_text_ok_iff, loads_text_ok_iff]
  constructor
  · rintro ⟨others, left, reads, again, trailing⟩
    rw [again.unique spelled' trailing blank'] at reads
    exact ⟨tokens, rest, reads, spelled, blank⟩
  · rintro ⟨others, left, reads, again, trailing⟩
    rw [again.unique spelled trailing blank] at reads
    exact ⟨tokens, rest', reads, spelled', blank'⟩

theorem tokens_of_loads {text : PyStr} {value : Value} (read : loadsText text = .ok value) :
    ∃ tokens, Commented tokens text text text := by
  obtain ⟨tokens, rest, _, spelled, blank⟩ := loads_text_ok_iff.mp read
  exact ⟨tokens, commented_self spelled blank⟩

/-- Stripping takes comments between tokens out of a text, whatever is in them, and leaves what it
is read as; it leaves texts without comments as they are, and what it has stripped before. -/
theorem strip_jsonc_preserves :
    (∀ tokens text commented stripped, Commented tokens text commented stripped →
      stripJsonc commented = stripped ∧
        ∀ value, loadsText text = .ok value → loadsText (stripJsonc commented) = .ok value) ∧
      (∀ tokens rest text, Spells tokens rest text → (∀ c ∈ rest, isJsonSpace c = true) →
        stripJsonc text = text) ∧
      (∀ text value, loadsText text = .ok value →
        (∃ tokens, Commented tokens text text text) ∧ stripJsonc text = text ∧
          loadJsonc text = .ok value ∧ loadsText (stripJsonc text) = .ok value) ∧
      ∀ text, stripJsonc (stripJsonc text) = stripJsonc text := by
  have plain : ∀ tokens rest text, Spells tokens rest text →
      (∀ c ∈ rest, isJsonSpace c = true) → stripJsonc text = text :=
    fun _ _ _ spelled blank => (commented_self spelled blank).stripped
  refine ⟨fun tokens text commented stripped all => ?_, plain, fun text value read => ?_,
    strip_jsonc_idempotent⟩
  · have same : stripJsonc commented = stripped := all.stripped
    rw [same]
    exact ⟨rfl, fun value => (commented_loads all value).mpr⟩
  · obtain ⟨tokens, all⟩ := tokens_of_loads read
    have same : stripJsonc text = text := all.stripped
    have first : loadJsonc text = .ok value := by
      unfold loadJsonc
      rw [read]
    exact ⟨⟨tokens, all⟩, same, first, same.symm ▸ read⟩

omit [Interpreter] in
/-- A quote in a comment opens no string, and two slashes in a string open no comment. -/
theorem quoted_slashes_kept : let _ : Interpreter := ⟨fun _ => none, 1000, 1000⟩
    let commented : PyStr := "/*\"*/\"a//b\"// /*\n"
    stripJsonc commented = ("\"a//b\"\n" : PyStr) ∧
      loadsText (stripJsonc commented) = .ok (.str "a//b") := by
  intro _ commented
  have quoted : Quoted ("a//b\"" : PyStr) := .plain (by decide) (by decide) (.plain (by decide)
    (by decide) (.plain (by decide) (by decide) (.plain (by decide) (by decide) .close)))
  have first : Gap [] "/*\"*/" [] := @Gap.block "\"" [] [] [] (by decide) .done
  have inside : ∀ c ∈ (" /*" : PyStr), isLineEnd c = false := by
    intro c member
    have all : ((" /*" : PyStr).all fun c => !isLineEnd c) = true := by decide
    simpa using List.all_eq_true.mp all c member
  have second : Gap [] "// /*\n" "\n" :=
    @Gap.line " /*" "\n" [] [] [] inside List.mem_cons_self .done
  have all : Commented ["\"a//b\""] "\"a//b\"" commented "\"a//b\"\n" :=
    .token first (.string quoted) (fits_string _ _) (.last (.closed second))
  have read : loadsText "\"a//b\"" = .ok (.str "a//b") := by
    refine loads_text_ok_iff.mpr ⟨["\"a//b\""], [], ?_, ?_, by simp⟩
    · have read : stringPair "a//b\"" = .ok ("a//b", []) := by
        change stringPair [ofChar 'a', ofChar '/', ofChar '/', ofChar 'b', ofChar '"'] = _
        rw [string_pair_plain (by decide) (by decide), string_pair_plain (by decide) (by decide),
          string_pair_plain (by decide) (by decide), string_pair_plain (by decide) (by decide),
          string_pair_quote]
        rfl
      exact .string read
    · exact Spells.front (.done []) (.string quoted) (fits_string _ _)
  have stripped := strip_jsonc_preserves.1 _ _ _ _ all
  exact ⟨stripped.1, stripped.2 _ read⟩

end Loading

end DearAgent.Environment
