import DearAgent.Stores

/-!
# The policy stores side by side

Both stores answer with the first policy that matches. The list keeps the order
`replace_all` was given, the table is read in the order of the project names.
-/

namespace DearAgent.Stores

open DearAgent.Lib.Text DearAgent.Lib.Effects DearAgent.Lib.Dictionaries DearAgent.Lib.Transactions
open DearAgent.Queue

set_option autoImplicit false

/-!
## The first element in two orders
-/

section Sorting

variable {α κ : Type} [LinearOrder κ] {name : α → κ}

/-- No other element of the list has a smaller name than the first one. -/
def FirstIsLeast (name : α → κ) : List α → Prop
  | [] => True
  | first :: later => ∀ other ∈ later, name first ≤ name other

theorem first_le {first other : α} {later : List α} (least : FirstIsLeast name (first :: later))
    (member : other ∈ first :: later) : name first ≤ name other := by
  cases member with
  | head => exact le_rfl
  | tail _ member => exact least other member

theorem first_is_least_of_sorted {items : List α}
    (sorted : items.Pairwise fun first second => name first ≤ name second) :
    FirstIsLeast name items := by
  cases items with
  | nil => trivial
  | cons first later => exact (List.pairwise_cons.mp sorted).1

/-- Sorting by distinct names keeps the first element exactly if it is the least one. -/
theorem head_of_sorted_iff {items sorted : List α} (same : sorted.Perm items)
    (ordered : sorted.Pairwise fun first second => name first ≤ name second)
    (distinct : (items.map name).Nodup) :
    sorted.head? = items.head? ↔ FirstIsLeast name items := by
  cases items with
  | nil =>
      rw [same.eq_nil]
      exact iff_of_true rfl trivial
  | cons first later =>
      cases sorted with
      | nil => exact absurd same.symm.eq_nil (List.cons_ne_nil _ _)
      | cons least rest =>
          have leastFirst := first_is_least_of_sorted ordered
          constructor
          · intro heads
            have equal : least = first := Option.some.inj heads
            subst equal
            intro other member
            exact first_le leastFirst (same.mem_iff.mpr (.tail _ member))
          · intro firstLeast
            have below : name least ≤ name first :=
              first_le leastFirst (same.mem_iff.mpr (.head _))
            have above : name first ≤ name least :=
              first_le firstLeast (same.mem_iff.mp (.head _))
            have equal : least = first :=
              List.inj_on_of_nodup_map distinct (same.mem_iff.mp (.head _)) (.head _)
                (le_antisymm below above)
            rw [equal]
            rfl

end Sorting

/-!
## The stores
-/

structure MemoryPolicyStore where
  policies : List ProjectPolicy

def MemoryPolicyStore.step [Unicode] : (op : PolicyOp) → MemoryPolicyStore → op.Result × MemoryPolicyStore
  | .list, store => (store.policies, store)
  | .get project, store => (store.policies.find? fun policy => policy.project = project, store)
  | .replaceAll policies, _ => ((), ⟨policies⟩)
  | .forRepo repo, store => (forRepo store.policies repo, store)

/-- The table after the loop of `replace_all`. -/
def insertedPolicies (policies : List ProjectPolicy) (table : Dict Str ProjectPolicy) :
    Dict Str ProjectPolicy :=
  policies.foldl (fun d policy => d.set policy.project policy) table

theorem values_inserted {policies : List ProjectPolicy} {table : Dict Str ProjectPolicy}
    (distinct : (policies.map ProjectPolicy.project).Nodup)
    (absent : ∀ policy ∈ policies, table.get policy.project = none) :
    (insertedPolicies policies table).values = table.values ++ policies := by
  induction policies generalizing table with
  | nil => exact (List.append_nil _).symm
  | cons policy rest ih =>
      obtain ⟨fresh, distinctRest⟩ := List.nodup_cons.mp distinct
      change (insertedPolicies rest (table.set policy.project policy)).values = _
      rw [ih distinctRest]
      · rw [Dict.values_set_absent policy (absent policy (.head _)), List.append_assoc]
        rfl
      · intro other member
        rw [Dict.get_set_ne]
        · exact absent other (.tail _ member)
        · intro equal
          exact fresh (equal ▸ List.mem_map_of_mem member)

variable {collation : Collation}

theorem outcome_insert_policies {policies : List ProjectPolicy} {durable seen : Tables}
    (distinct : (policies.map ProjectPolicy.project).Nodup)
    (absent : ∀ policy ∈ policies, seen.policies.get policy.project = none) :
    outcomeFrom (do let _ ← (insertPolicies policies : Op collation Unit); commit) durable seen =
      (.ok (), { seen with policies := insertedPolicies policies seen.policies }) := by
  induction policies generalizing seen with
  | nil => rfl
  | cons policy rest ih =>
      obtain ⟨fresh, distinctRest⟩ := List.nodup_cons.mp distinct
      have ran : runSql collation (.insertPolicy policy) seen =
          .ok ((), { seen with policies := seen.policies.set policy.project policy }) := by
        simp [runSql, absent policy (.head _)]
      apply Eq.trans (outcome_execute ran)
      apply ih distinctRest
      intro other member
      rw [Dict.get_set_ne]
      · exact absent other (.tail _ member)
      · intro equal
        exact fresh (equal ▸ List.mem_map_of_mem member)

theorem performed_replace_all [Unicode] {policies : List ProjectPolicy} (t : Tables)
    (distinct : (policies.map ProjectPolicy.project).Nodup) :
    performed (policySession (.replaceAll policies) : Op collation Unit) t =
      (.ok (), { t with policies := insertedPolicies policies Dict.empty }) := by
  apply Eq.trans outcome_cursor
  apply Eq.trans (outcome_execute rfl)
  exact outcome_insert_policies distinct fun _ _ => rfl

theorem performed_for_repo [Unicode] (repo : Str) (t : Tables) :
    performed (policySession (.forRepo repo) : Op collation (Option ProjectPolicy)) t =
      (.ok (forRepo (selectPolicies collation t.policies) repo), t) := rfl

/-!
## The lookups
-/

section Lookup

variable [Unicode]

/-- `replace_all` and then `for_repo`, in memory. -/
def memoryLookup (policies : List ProjectPolicy) (repo : Str) (store : MemoryPolicyStore) :
    Option ProjectPolicy :=
  (MemoryPolicyStore.step (.forRepo repo) (MemoryPolicyStore.step (.replaceAll policies) store).2).1

def postgresLookup (policies : List ProjectPolicy) (repo : Str) (t : Tables) :
    Except Exn (Option ProjectPolicy) :=
  (performed (policySession (.forRepo repo) : Op codePoint _)
    (performed (policySession (.replaceAll policies) : Op codePoint _) t).2).1

/-- The policies that match the repository, in the order of the list. -/
def matching (policies : List ProjectPolicy) (repo : Str) : List ProjectPolicy :=
  policies.filter fun policy => policy.«matches» repo

theorem for_repo_eq_head (policies : List ProjectPolicy) (repo : Str) :
    forRepo policies repo = (matching policies repo).head? :=
  List.head?_filter.symm

def sortedPolicies (policies : List ProjectPolicy) : List ProjectPolicy :=
  policies.insertionSort fun first second => codePoint.le first.project second.project

omit [Unicode] in
theorem sorted_policies_ordered (policies : List ProjectPolicy) :
    (sortedPolicies policies).Pairwise fun first second => first.project ≤ second.project := by
  have total : Std.Total fun first second : ProjectPolicy =>
      codePoint.le first.project second.project = true := ⟨fun first second => by
    simpa using codePoint.total first.project second.project⟩
  have trans : IsTrans ProjectPolicy fun first second =>
      codePoint.le first.project second.project = true :=
    ⟨fun first second third => codePoint.trans first.project second.project third.project⟩
  apply (List.pairwise_insertionSort _ policies).imp
  intro first second ordered
  exact of_decide_eq_true ordered

/-- The stores look up the same policy exactly if the first of the list that matches has
the least name of all that match. -/
theorem lookups_agree_iff {policies : List ProjectPolicy}
    (distinct : (policies.map ProjectPolicy.project).Nodup) (repo : Str)
    (store : MemoryPolicyStore) (t : Tables) :
    (performed (policySession (.replaceAll policies) : Op codePoint Unit) t).1 = .ok () ∧
      (postgresLookup policies repo t = .ok (memoryLookup policies repo store) ↔
        FirstIsLeast ProjectPolicy.project (matching policies repo)) := by
  have replaced : performed (policySession (.replaceAll policies) : Op codePoint Unit) t = _ :=
    performed_replace_all t distinct
  have values : (insertedPolicies policies Dict.empty).values = policies :=
    values_inserted distinct fun _ _ => rfl
  have found : postgresLookup policies repo t = .ok (forRepo (sortedPolicies policies) repo) := by
    unfold postgresLookup
    rw [replaced, performed_for_repo]
    unfold selectPolicies
    rw [values]
    rfl
  have same : (matching (sortedPolicies policies) repo).Perm (matching policies repo) :=
    (List.perm_insertionSort _ policies).filter _
  have ordered := (sorted_policies_ordered policies).filter fun policy => policy.«matches» repo
  have distinctMatching : ((matching policies repo).map ProjectPolicy.project).Nodup :=
    distinct.sublist (List.filter_sublist.map _)
  constructor
  · rw [replaced]
  · rw [found, ← head_of_sorted_iff same ordered distinctMatching, ← for_repo_eq_head,
      ← for_repo_eq_head]
    constructor
    · exact fun equal => Except.ok.inj equal
    · exact fun equal => congrArg Except.ok equal

end Lookup

section Example

local instance policyStoreTables : Unicode := asciiTables

def ownerPolicy : ProjectPolicy where
  project := "owner"
  repos := ["acme/*".toList]

def legacyPolicy : ProjectPolicy where
  project := "legacy"
  enabled := false
  repos := ["acme/widget".toList]

theorem widget_looked_up_alike :
    (performed (policySession (.replaceAll [legacyPolicy, ownerPolicy]) : Op codePoint Unit)
        emptyTables).1 = .ok () ∧
      (postgresLookup [legacyPolicy, ownerPolicy] "acme/widget" emptyTables =
          .ok (memoryLookup [legacyPolicy, ownerPolicy] "acme/widget" ⟨[]⟩) ↔
        FirstIsLeast ProjectPolicy.project (matching [legacyPolicy, ownerPolicy] "acme/widget")) :=
  lookups_agree_iff (by decide) _ ⟨[]⟩ emptyTables

/-- In memory the repository is enabled, in the table it is not. -/
theorem overlap_told_apart :
    ([ownerPolicy, legacyPolicy].map ProjectPolicy.project).Nodup ∧
      memoryLookup [ownerPolicy, legacyPolicy] "acme/widget" ⟨[]⟩ = some ownerPolicy ∧
      postgresLookup [ownerPolicy, legacyPolicy] "acme/widget" emptyTables =
        .ok (some legacyPolicy) := by
  decide

end Example

end DearAgent.Stores
