import DearAgent.Normalizer.Fields

/-!
# Routing addresses

How `ROUTING_RE` splits the local part of an address into an owner and a repository: the
owner is as long as it can be, so the split is at the last hyphen that leaves a name behind it.
-/

namespace DearAgent

open DearAgent.Lib.Text DearAgent.Lib.Regex DearAgent.Lib.Dictionaries DearAgent.Queue

set_option autoImplicit false

def lastHyphen : Str → Option (Str × Str)
  | [] => none
  | c :: text =>
      match lastHyphen text with
      | some parts => some (c :: parts.1, parts.2)
      | none => if c = '-' ∧ text ≠ [] then some ([], text) else none

section Splitting

theorem last_hyphen_none {text : Str} (whole : lastHyphen text = none) : '-' ∉ text.dropLast := by
  induction text with
  | nil => exact List.not_mem_nil
  | cons c rest ih =>
      unfold lastHyphen at whole
      cases inner : lastHyphen rest with
      | some parts =>
          rw [inner] at whole
          cases whole
      | none =>
          rw [inner] at whole
          simp only at whole
          split_ifs at whole with hyphen
          cases rest with
          | nil => exact List.not_mem_nil
          | cons d more =>
              rw [List.dropLast_cons_cons]
              intro member
              cases member with
              | head => exact hyphen ⟨rfl, List.cons_ne_nil d more⟩
              | tail _ later => exact ih inner later

theorem last_hyphen_some {text : Str} {parts : Str × Str} (split : lastHyphen text = some parts) :
    text = parts.1 ++ '-' :: parts.2 ∧ parts.2 ≠ [] ∧ '-' ∉ parts.2.dropLast := by
  induction text generalizing parts with
  | nil => cases split
  | cons c rest ih =>
      unfold lastHyphen at split
      cases inner : lastHyphen rest with
      | some found =>
          rw [inner] at split
          cases split
          obtain ⟨whole, named, last⟩ := ih inner
          exact ⟨congrArg (List.cons c) whole, named, last⟩
      | none =>
          rw [inner] at split
          simp only at split
          split_ifs at split with hyphen
          cases split
          rw [hyphen.1]
          exact ⟨rfl, hyphen.2, last_hyphen_none inner⟩

theorem last_hyphen_split {front back front' back' : Str} (named : back ≠ []) (named' : back' ≠ [])
    (last : '-' ∉ back.dropLast) (last' : '-' ∉ back'.dropLast)
    (same : front ++ '-' :: back = front' ++ '-' :: back') : front = front' ∧ back = back' := by
  have inside : ∀ {between rest : Str}, rest ≠ [] → '-' ∈ (between ++ '-' :: rest).dropLast := by
    intro between rest filled
    rw [List.dropLast_append_of_ne_nil (List.cons_ne_nil _ _), List.dropLast_cons_of_ne_nil filled]
    exact List.mem_append_right between List.mem_cons_self
  rcases List.append_eq_append_iff.mp same with ⟨between, rfl, shape⟩ | ⟨between, rfl, shape⟩
  · cases between with
    | nil =>
        cases shape
        exact ⟨(List.append_nil front).symm, rfl⟩
    | cons c rest =>
        obtain ⟨rfl, rfl⟩ := List.cons.inj shape
        exact absurd (inside named') last
  · cases between with
    | nil =>
        cases shape
        exact ⟨List.append_nil front', rfl⟩
    | cons c rest =>
        obtain ⟨rfl, rfl⟩ := List.cons.inj shape
        exact absurd (inside named) last'

end Splitting

section Routing

variable [Unicode]

theorem run_plus_stops (accepts : Char → Bool) (first : Char) (text rest : Str)
    (all : ∀ c ∈ first :: text, accepts c = true) (ends : ∀ c ∈ rest.head?, accepts c = false)
    (before : Str) (groups : List (Nat × Str)) :
    run (plus (.sat accepts)) ⟨before, first :: text ++ rest, groups⟩ =
      stops rest groups (first :: before) text := by
  have accepted : accepts first = true := all first List.mem_cons_self
  have later : ∀ c ∈ text, accepts c = true := fun c member => all c (List.mem_cons_of_mem first member)
  rw [plus, run, List.cons_append, run_sat_accepted accepted, List.flatMap_singleton,
    star_sat_stops accepts text rest later ends]

omit [Unicode] in
theorem stops_head (rest : Str) (groups : List (Nat × Str)) (before text : Str) :
    ∃ shorter, stops rest groups before text = ⟨text.reverse ++ before, rest, groups⟩ :: shorter := by
  induction text generalizing before with
  | nil => exact ⟨[], rfl⟩
  | cons c text ih =>
      obtain ⟨shorter, found⟩ := ih (c :: before)
      refine ⟨shorter ++ [⟨before, c :: text ++ rest, groups⟩], ?_⟩
      rw [stops, found, List.reverse_cons, List.append_assoc]
      rfl

theorem run_repository (names domain : Str) (all : ∀ c ∈ names, nameChar c = true)
    (before : Str) (groups : List (Nat × Str)) :
    (run (.seq (.group 2 (plus (.sat nameChar))) (.sat fun c => c = '@'))
        ⟨before, names ++ '@' :: domain, groups⟩).head? =
      if names = [] then none
      else some ⟨'@' :: (names.reverse ++ before), domain, (2, names) :: groups⟩ := by
  have refused : nameChar '@' = false := by decide
  cases names with
  | nil => simp [run, plus, refused]
  | cons first names =>
      have ends : ∀ c ∈ ('@' :: domain).head?, nameChar c = false := by
        intro c member
        cases member
        exact refused
      obtain ⟨shorter, found⟩ := stops_head ('@' :: domain) groups (first :: before) names
      have captured : Cursor.upTo ⟨before, first :: names ++ '@' :: domain, groups⟩
          ⟨names.reverse ++ first :: before, '@' :: domain, groups⟩ = first :: names :=
        up_to_of_split rfl
      rw [if_neg (List.cons_ne_nil _ _), run, run, run_plus_stops nameChar first names _ all ends,
        found, List.map_cons, captured, List.flatMap_cons, run_sat_accepted (by decide)]
      simp

def afterOwner : Pattern :=
  .seq (.sat fun c => c = '-') (.seq (.group 2 (plus (.sat nameChar))) (.sat fun c => c = '@'))

/-- The place after a number of characters of an address, which are taken for the owner. -/
def ownedBy (owner rest : Str) : Cursor := ⟨owner.reverse, rest, [(1, owner)]⟩

def captureOwner (address : Str) (stop : Cursor) : Cursor :=
  { stop with groups := (1, (atStart address).upTo stop) :: stop.groups }

omit [Unicode] in
theorem capture_owner (owner rest : Str) :
    captureOwner (owner ++ rest) ⟨owner.reverse, rest, []⟩ = ownedBy owner rest := by
  have taken : (atStart (owner ++ rest)).upTo ⟨owner.reverse, rest, []⟩ = owner := up_to_of_split rfl
  rw [captureOwner, taken]
  rfl

theorem run_after_owner (owner names domain : Str) (all : ∀ c ∈ names, nameChar c = true) :
    (run afterOwner (ownedBy owner (names ++ '@' :: domain))).head?.map Cursor.groups =
      if names.head? = some '-' ∧ names.tail ≠ [] then some [(2, names.tail), (1, owner)] else none := by
  cases names with
  | nil => simp [ownedBy, afterOwner, run]
  | cons c rest =>
      by_cases hyphen : c = '-'
      · have later := run_repository rest domain (fun d member => all d (List.mem_cons_of_mem c member))
          (c :: owner.reverse) [(1, owner)]
        rw [ownedBy, afterOwner, run, List.cons_append, run_sat_accepted (decide_eq_true hyphen),
          List.flatMap_singleton, later]
        by_cases ended : rest = []
        · simp [ended]
        · simp [ended, hyphen]
      · simp [ownedBy, afterOwner, run, hyphen]

/-- From the ends of the owner, the longest first, the first way on is at the last hyphen. -/
theorem run_owners (owner names domain : Str) (all : ∀ c ∈ names, nameChar c = true) :
    (((stops ('@' :: domain) [] owner.reverse names).map
        (captureOwner (owner ++ (names ++ '@' :: domain)))).flatMap
          (run afterOwner)).head?.map Cursor.groups =
      (lastHyphen names).map fun parts => [(2, parts.2), (1, owner ++ parts.1)] := by
  induction names generalizing owner with
  | nil =>
      rw [stops, List.map_singleton, List.nil_append, capture_owner, List.flatMap_singleton]
      exact run_after_owner owner [] domain all
  | cons c names ih =>
      have inner := ih (owner ++ [c]) fun d member => all d (List.mem_cons_of_mem c member)
      rw [List.reverse_append, List.append_assoc] at inner
      have here := run_after_owner owner (c :: names) domain all
      rw [stops, List.map_append, List.map_singleton, capture_owner, List.flatMap_append,
        List.flatMap_singleton, List.head?_append, Option.map_or, here]
      change (Option.map _ (List.head? (List.flatMap _ (List.map (captureOwner
        (owner ++ ([c] ++ (names ++ '@' :: domain)))) (stops _ _ ([c].reverse ++ owner.reverse) _))))).or _ = _
      rw [inner, lastHyphen]
      cases lastHyphen names with
      | some parts => simp
      | none => simp

theorem routing_groups (first : Char) (names domain : Str)
    (all : ∀ c ∈ first :: names, nameChar c = true) :
    (matchStart routingPattern (first :: names ++ '@' :: domain)).map
        (fun found => found.stop.groups) =
      (lastHyphen names).map fun parts => [(2, parts.2), (1, first :: parts.1)] := by
  have ends : ∀ c ∈ ('@' :: domain).head?, nameChar c = false := by
    intro c member
    cases member
    decide
  have owners := run_owners [first] names domain fun c member => all c (List.mem_cons_of_mem first member)
  have started : run .textStart (atStart (first :: names ++ '@' :: domain)) =
      [atStart (first :: names ++ '@' :: domain)] := rfl
  have plus := run_plus_stops nameChar first names ('@' :: domain) all ends [] []
  unfold matchStart matchAt routingPattern
  rw [Option.map_map, run, started, List.flatMap_singleton, run, run]
  rw [atStart, plus]
  exact owners

theorem slug_accepted {owner repo : Str} (ownerNamed : owner ≠ []) (repoNamed : repo ≠ [])
    (ownerPlain : ∀ c ∈ owner, nameChar c = true) (repoPlain : ∀ c ∈ repo, nameChar c = true) :
    (matchStart repoUrlPattern (owner ++ '/' :: repo)).isSome = true := by
  obtain ⟨first, owner, rfl⟩ := List.exists_cons_of_ne_nil ownerNamed
  obtain ⟨last, repo, rfl⟩ := List.exists_cons_of_ne_nil repoNamed
  have ends : ∀ c ∈ ('/' :: last :: repo).head?, nameChar c = false := by
    intro c member
    cases member
    decide
  obtain ⟨shorter, owners⟩ := stops_head ('/' :: last :: repo) [] [first] owner
  obtain ⟨shorter', repos⟩ := stops_head [] [] (last :: '/' :: (owner.reverse ++ [first])) repo
  have started : run .textStart (atStart (first :: owner ++ '/' :: last :: repo)) =
      [atStart (first :: owner ++ '/' :: last :: repo)] := rfl
  have plus := run_plus_stops nameChar first owner ('/' :: last :: repo) ownerPlain ends [] []
  have plus' := run_plus_stops nameChar last repo [] repoPlain (fun _ member => nomatch member)
    ('/' :: (owner.reverse ++ [first])) []
  rw [List.append_nil] at plus'
  unfold matchStart matchAt repoUrlPattern
  rw [Option.isSome_map, run, List.head?_append, Option.isSome_or, Bool.or_eq_true]
  right
  rw [run, started, List.flatMap_singleton, run, atStart, plus, owners, List.flatMap_cons, run,
    run_sat_accepted (by decide), List.flatMap_singleton, run, plus', repos, List.flatMap_cons]
  rfl

theorem repo_from_address (first : Char) (names domain : Str)
    (all : ∀ c ∈ first :: names, nameChar c = true) :
    repoFromRecipient (some (first :: names ++ '@' :: domain)) =
      (lastHyphen names).map fun parts => first :: parts.1 ++ '/' :: parts.2 := by
  have decoded := routing_groups first names domain all
  unfold repoFromRecipient
  rw [if_neg (by simp [truthy])]
  change (matchStart routingPattern (first :: names ++ '@' :: domain)).bind _ = _
  cases split : lastHyphen names with
  | none =>
      rw [split, Option.map_none, Option.map_eq_none_iff] at decoded
      rw [decoded]
      rfl
  | some parts =>
      rw [split, Option.map_some] at decoded
      obtain ⟨found, matched, groups⟩ := Option.map_eq_some_iff.mp decoded
      have owner : found.group 1 = some (first :: parts.1) := by
        change found.stop.groups.lookup 1 = _
        rw [groups]
        rfl
      have repo : found.group 2 = some parts.2 := by
        change found.stop.groups.lookup 2 = _
        rw [groups]
        rfl
      obtain ⟨whole, named, _⟩ := last_hyphen_some split
      rw [whole] at all
      have accepted : (matchStart repoUrlPattern (first :: parts.1 ++ '/' :: parts.2)).isSome = true := by
        apply slug_accepted (List.cons_ne_nil first parts.1) named
        · intro c member
          apply all
          rw [← List.cons_append]
          exact List.mem_append_left _ member
        · intro c member
          apply all
          rw [← List.cons_append]
          exact List.mem_append_right _ (List.mem_cons_of_mem _ member)
      rw [matched, Option.bind_some, owner, repo]
      exact if_pos accepted

end Routing

/-!
## Whose address it is
-/

structure RepoName where
  text : Str
  named : text ≠ []
  plain : ∀ c ∈ text, nameChar c = true

def slugOf (owner repo : RepoName) : Str := owner.text ++ '/' :: repo.text

def routingAddress (owner repo : RepoName) (domain : Str) : Str :=
  owner.text ++ '-' :: repo.text ++ '@' :: domain

theorem RepoName.no_slash (name : RepoName) : '/' ∉ name.text := by
  intro member
  have plain := name.plain '/' member
  revert plain
  decide

theorem slug_injective {owner repo owner' repo' : RepoName}
    (same : slugOf owner repo = slugOf owner' repo') :
    owner.text = owner'.text ∧ repo.text = repo'.text := by
  unfold slugOf at same
  rcases List.append_eq_append_iff.mp same with ⟨between, shape, rest⟩ | ⟨between, shape, rest⟩
  · cases between with
    | nil =>
        rw [List.append_nil] at shape
        exact ⟨shape.symm, (List.cons.inj rest).2⟩
    | cons c more =>
        obtain ⟨rfl, _⟩ := List.cons.inj rest
        have inside : '/' ∈ owner'.text := by
          rw [shape]
          exact List.mem_append_right _ List.mem_cons_self
        exact absurd inside owner'.no_slash
  · cases between with
    | nil =>
        rw [List.append_nil] at shape
        exact ⟨shape, (List.cons.inj rest).2.symm⟩
    | cons c more =>
        obtain ⟨rfl, _⟩ := List.cons.inj rest
        have inside : '/' ∈ owner.text := by
          rw [shape]
          exact List.mem_append_right _ List.mem_cons_self
        exact absurd inside owner.no_slash

section Selecting

variable [Unicode]

/-- A message sent to an address of a repository is turned down or selects this repository
and no other. -/
structure SelectsOwn (owner repo : RepoName) (outcome : Except Rejected NormalizedTask) : Prop where
  own : ∀ result, outcome = .ok result → result.spec.repoUrl = slugOf owner repo
  noOther : ∀ result owner' repo', outcome = .ok result →
    result.spec.repoUrl = slugOf owner' repo' → owner'.text = owner.text ∧ repo'.text = repo.text

theorem address_decoded (owner repo : RepoName) (domain : Str) :
    ∃ owner' repo' : RepoName, owner'.text ++ '-' :: repo'.text = owner.text ++ '-' :: repo.text ∧
      '-' ∉ repo'.text.dropLast ∧
      repoFromRecipient (some (routingAddress owner repo domain)) = some (slugOf owner' repo') := by
  obtain ⟨first, rest, opens⟩ := List.exists_cons_of_ne_nil owner.named
  have all : ∀ c ∈ first :: (rest ++ '-' :: repo.text), nameChar c = true := by
    intro c member
    rw [← List.cons_append, ← opens] at member
    cases List.mem_append.mp member with
    | inl inOwner => exact owner.plain c inOwner
    | inr later =>
        cases later with
        | head => decide
        | tail _ inRepo => exact repo.plain c inRepo
  have decoded := repo_from_address first (rest ++ '-' :: repo.text) domain all
  have address : routingAddress owner repo domain =
      first :: (rest ++ '-' :: repo.text) ++ '@' :: domain := by
    rw [routingAddress, opens]
    rfl
  rw [address, decoded, opens]
  cases split : lastHyphen (rest ++ '-' :: repo.text) with
  | none =>
      have whole := last_hyphen_none split
      rw [List.dropLast_append_of_ne_nil (List.cons_ne_nil _ _),
        List.dropLast_cons_of_ne_nil repo.named] at whole
      exact absurd (List.mem_append_right _ List.mem_cons_self) whole
  | some parts =>
      obtain ⟨whole, named, last⟩ := last_hyphen_some split
      rw [whole] at all
      have ownerPlain : ∀ c ∈ first :: parts.1, nameChar c = true :=
        fun c member => all c (List.mem_append_left ('-' :: parts.2) member)
      have repoPlain : ∀ c ∈ parts.2, nameChar c = true := fun c member =>
        all c (List.mem_append_right (first :: parts.1) (List.mem_cons_of_mem '-' member))
      exact ⟨⟨first :: parts.1, List.cons_ne_nil _ _, ownerPlain⟩, ⟨parts.2, named, repoPlain⟩,
        congrArg (List.cons first) whole.symm, last, rfl⟩

/-- The address of a repository is decoded as this repository when its name has no hyphen
but at the end. -/
theorem own_address_iff (owner repo : RepoName) (domain : Str) :
    repoFromRecipient (some (routingAddress owner repo domain)) = some (slugOf owner repo) ↔
      '-' ∉ repo.text.dropLast := by
  obtain ⟨owner', repo', whole, last, decoded⟩ := address_decoded owner repo domain
  rw [decoded, Option.some.injEq]
  constructor
  · intro same
    rw [← (slug_injective same).2]
    exact last
  · intro plain
    obtain ⟨owners, repos⟩ := last_hyphen_split repo'.named repo.named last plain whole
    rw [slugOf, slugOf, owners, repos]

/-- A routing address selects its own repository, and no other one, exactly when the message
is turned down or the name of the repository has no hyphen but at its end. -/
theorem address_selects_own_iff (owner repo : RepoName) (domain : Str) (message : RawMessage)
    (unlocated : lastValue "repo" message.body = none)
    (instructed : strip (join "\n" (instructionLines message.body)) ≠ []) :
    SelectsOwn owner repo (normalize message (some (routingAddress owner repo domain))) ↔
      message.attachments ≠ [] ∨ '-' ∉ repo.text.dropLast := by
  obtain ⟨owner', repo', _, _, decoded⟩ := address_decoded owner repo domain
  have named : slugOf owner' repo' ≠ [] := List.append_ne_nil_of_left_ne_nil owner'.named _
  have repoUrl : repoUrlOf message (some (routingAddress owner repo domain)) =
      slugOf owner' repo' := by
    rw [repoUrlOf, unlocated, decoded]
    rfl
  have selected : ∀ result, normalize message (some (routingAddress owner repo domain)) =
      .ok result → result.spec.repoUrl = slugOf owner' repo' := by
    intro result normalized
    rw [(normalized_spec normalized).2, repoUrl]
    rfl
  rw [← own_address_iff owner repo domain, decoded, Option.some.injEq]
  constructor
  · intro selects
    by_cases attached : message.attachments = []
    · obtain ⟨result, normalized⟩ := normalize_accepts attached (repoUrl ▸ named) instructed
      right
      rw [← selected result normalized]
      exact selects.own result normalized
    · exact .inl attached
  · intro condition
    constructor
    · intro result normalized
      cases condition with
      | inl attached => exact absurd (normalized_task normalized).1 attached
      | inr own => rw [selected result normalized, own]
    · intro result stranger unrelated normalized other
      cases condition with
      | inl attached => exact absurd (normalized_task normalized).1 attached
      | inr own =>
          rw [selected result normalized, own] at other
          obtain ⟨owners, repos⟩ := slug_injective other
          exact ⟨owners.symm, repos.symm⟩

end Selecting

section Example

local instance addressTables : Unicode := asciiTables

def acme : RepoName := ⟨"acme", by decide, every_char (by decide)⟩

def widget : RepoName := ⟨"widget", by decide, every_char (by decide)⟩

def myApp : RepoName := ⟨"my-app", by decide, every_char (by decide)⟩

def plainMessage : RawMessage where
  transportId := "m1"
  body := "Fix it\n"

theorem widget_selects_own :
    SelectsOwn acme widget
        (normalize plainMessage (some (routingAddress acme widget "agents.example"))) ↔
      plainMessage.attachments ≠ [] ∨ '-' ∉ widget.text.dropLast :=
  address_selects_own_iff acme widget "agents.example" plainMessage (by decide)
    (by decide)

theorem my_app_selects_other :
    ¬SelectsOwn acme myApp
      (normalize plainMessage (some (routingAddress acme myApp "agents.example"))) := by
  intro selects
  have normalized : normalize plainMessage (some (routingAddress acme myApp "agents.example")) =
      .ok (let spec : TaskSpec := { repoUrl := "acme-my/app", instructions := "Fix it" }
        ⟨taskOf plainMessage spec, spec⟩) := by decide
  have own := selects.own _ normalized
  revert own
  decide

end Example

end DearAgent
