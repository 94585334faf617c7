import Mathlib.Tactic.Common
import Mathlib.Data.List.Basic
import Mathlib.Data.List.Nodup

/-!
# Dictionaries in insertion order

A dictionary is the list of its entries, no key twice. Setting a key that is
present replaces its value in place, any other key goes to the end, so that
iteration sees the entries in the order of their first insertion. A table with
a primary key is such a dictionary too.
-/

namespace DearAgent.Lib.Dictionaries

set_option autoImplicit false

section Entries

variable {κ α β : Type} [DecidableEq κ]

def setEntry (key : κ) (value : α) : List (κ × α) → List (κ × α)
  | [] => [(key, value)]
  | entry :: rest =>
      if entry.1 = key then (key, value) :: rest else entry :: setEntry key value rest

theorem set_entry_nil (key : κ) (value : α) : setEntry key value [] = [(key, value)] := rfl

theorem set_entry_cons (key : κ) (value : α) (entry : κ × α) (rest : List (κ × α)) :
    setEntry key value (entry :: rest) =
      if entry.1 = key then (key, value) :: rest else entry :: setEntry key value rest :=
  rfl

theorem key_mem_set_entry (key other : κ) (value : α) (entries : List (κ × α)) :
    other ∈ (setEntry key value entries).map Prod.fst ↔
      other = key ∨ other ∈ entries.map Prod.fst := by
  induction entries with
  | nil => simp [set_entry_nil]
  | cons entry rest ih =>
      rw [set_entry_cons]
      split_ifs with same
      · subst same
        simp
      · simp only [List.map_cons, List.mem_cons, ih]
        tauto

theorem set_entry_nodup (key : κ) (value : α) (entries : List (κ × α))
    (distinct : (entries.map Prod.fst).Nodup) :
    ((setEntry key value entries).map Prod.fst).Nodup := by
  induction entries with
  | nil => simp [set_entry_nil]
  | cons entry rest ih =>
      have split := List.nodup_cons.mp distinct
      rw [set_entry_cons]
      split_ifs with same
      · subst same
        exact distinct
      · refine List.nodup_cons.mpr ⟨?_, ih split.2⟩
        rw [key_mem_set_entry]
        rintro (equal | member)
        · exact same equal
        · exact split.1 member

theorem map_set_entry (f : α → β) (key : κ) (value : α) (entries : List (κ × α)) :
    (setEntry key value entries).map (fun entry => (entry.1, f entry.2)) =
      setEntry key (f value) (entries.map fun entry => (entry.1, f entry.2)) := by
  induction entries with
  | nil => rfl
  | cons entry rest ih =>
      simp only [set_entry_cons, List.map_cons]
      split_ifs
      · rfl
      · rw [List.map_cons, ih]

theorem lookup_cons_ite (key : κ) (entry : κ × α) (rest : List (κ × α)) :
    (entry :: rest).lookup key = if key = entry.1 then some entry.2 else rest.lookup key := by
  rw [List.lookup_cons]
  by_cases same : key = entry.1
  · rw [if_pos same, beq_iff_eq.mpr same]
  · rw [if_neg same, beq_eq_false_iff_ne.mpr same]

theorem lookup_set_entry (key other : κ) (value : α) (entries : List (κ × α)) :
    (setEntry key value entries).lookup other =
      if other = key then some value else entries.lookup other := by
  induction entries with
  | nil => rw [set_entry_nil, lookup_cons_ite]
  | cons entry rest ih =>
      rw [set_entry_cons]
      split_ifs with same equal equal
      · rw [lookup_cons_ite, if_pos equal]
      · rw [lookup_cons_ite, lookup_cons_ite, if_neg equal, if_neg (same ▸ equal)]
      · have different : other ≠ entry.1 := fun found => same (found ▸ equal)
        rw [lookup_cons_ite, if_neg different, ih, if_pos equal]
      · rw [lookup_cons_ite, lookup_cons_ite, ih, if_neg equal]

theorem set_entry_absent (key : κ) (value : α) {entries : List (κ × α)}
    (absent : entries.lookup key = none) : setEntry key value entries = entries ++ [(key, value)] := by
  induction entries with
  | nil => rfl
  | cons entry rest ih =>
      rw [lookup_cons_ite] at absent
      split_ifs at absent with same
      rw [set_entry_cons, if_neg fun equal => same equal.symm, ih absent]
      rfl

theorem lookup_map_entries (f : κ → α → β) (key : κ) (entries : List (κ × α)) :
    (entries.map fun entry => (entry.1, f entry.1 entry.2)).lookup key =
      (entries.lookup key).map (f key) := by
  induction entries with
  | nil => rfl
  | cons entry rest ih =>
      rw [List.map_cons, lookup_cons_ite, lookup_cons_ite, ih]
      split_ifs with same
      · rw [same, Option.map_some]
      · rfl

theorem lookup_eq_some_iff_mem (key : κ) (value : α) (entries : List (κ × α))
    (distinct : (entries.map Prod.fst).Nodup) :
    entries.lookup key = some value ↔ (key, value) ∈ entries := by
  induction entries with
  | nil => simp
  | cons entry rest ih =>
      have split := List.nodup_cons.mp distinct
      rw [lookup_cons_ite, List.mem_cons]
      split_ifs with same
      · subst same
        have absent : (entry.1, value) ∉ rest := fun member =>
          split.1 (List.mem_map.mpr ⟨_, member, rfl⟩)
        simp [absent, Prod.ext_iff, eq_comm]
      · have different : (key, value) ≠ entry := fun equal => same (congrArg Prod.fst equal)
        simp [different, ih split.2]

theorem lookup_filter_ne (key other : κ) (entries : List (κ × α)) :
    (entries.filter fun entry => entry.1 ≠ key).lookup other =
      if other = key then none else entries.lookup other := by
  induction entries with
  | nil => simp
  | cons entry rest ih =>
      by_cases same : entry.1 = key
      · rw [List.filter_cons_of_neg (by simpa using same), ih, lookup_cons_ite]
        split_ifs with gone match_
        · rfl
        · exact absurd (match_.trans same) gone
        · rfl
      · rw [List.filter_cons_of_pos (by simpa using same), lookup_cons_ite, lookup_cons_ite, ih]
        split_ifs with match_ gone
        · exact absurd (match_.symm.trans gone) same
        · rfl
        · rfl
        · rfl

end Entries

structure Dict (κ α : Type) where
  entries : List (κ × α)
  distinct : (entries.map Prod.fst).Nodup

namespace Dict

variable {κ α β : Type}

def empty : Dict κ α := ⟨[], List.nodup_nil⟩

def values (d : Dict κ α) : List α := d.entries.map Prod.snd

def mapValues (f : κ → α → β) (d : Dict κ α) : Dict κ β :=
  ⟨d.entries.map fun entry => (entry.1, f entry.1 entry.2), by
    simpa [Function.comp_def] using d.distinct⟩

theorem eq_of_entries {d d' : Dict κ α} (same : d.entries = d'.entries) : d = d' := by
  cases d
  cases d'
  simpa using same

theorem map_values_map_values {γ : Type} (f : κ → α → β) (g : κ → β → γ) (d : Dict κ α) :
    (d.mapValues f).mapValues g = d.mapValues fun key value => g key (f key value) :=
  eq_of_entries (by simp [mapValues])

theorem values_map_values (f : κ → α → β) (d : Dict κ α) :
    (d.mapValues f).values = d.entries.map fun entry => f entry.1 entry.2 := by
  simp [values, mapValues, Function.comp_def]

variable [DecidableEq κ]

def get (d : Dict κ α) (key : κ) : Option α := d.entries.lookup key

def set (d : Dict κ α) (key : κ) (value : α) : Dict κ α :=
  ⟨setEntry key value d.entries, set_entry_nodup key value d.entries d.distinct⟩

@[simp] theorem get_empty (key : κ) : (empty : Dict κ α).get key = none := rfl

theorem get_set (d : Dict κ α) (key other : κ) (value : α) :
    (d.set key value).get other = if other = key then some value else d.get other :=
  lookup_set_entry key other value d.entries

@[simp] theorem get_set_self (d : Dict κ α) (key : κ) (value : α) :
    (d.set key value).get key = some value := by
  rw [get_set, if_pos rfl]

theorem get_set_ne (d : Dict κ α) {key other : κ} (value : α) (different : other ≠ key) :
    (d.set key value).get other = d.get other := by
  rw [get_set, if_neg different]

@[simp] theorem get_map_values (f : κ → α → β) (d : Dict κ α) (key : κ) :
    (d.mapValues f).get key = (d.get key).map (f key) :=
  lookup_map_entries f key d.entries

theorem values_set_absent {d : Dict κ α} {key : κ} (value : α) (absent : d.get key = none) :
    (d.set key value).values = d.values ++ [value] := by
  change (setEntry key value d.entries).map Prod.snd = _
  rw [set_entry_absent key value absent, List.map_append]
  rfl

/-- `d.pop(key, None)`, without the value. -/
def erase (d : Dict κ α) (key : κ) : Dict κ α :=
  ⟨d.entries.filter fun entry => entry.1 ≠ key,
    d.distinct.sublist (List.filter_sublist.map Prod.fst)⟩

theorem get_erase (d : Dict κ α) (key other : κ) :
    (d.erase key).get other = if other = key then none else d.get other :=
  lookup_filter_ne key other d.entries

def setDefault (d : Dict κ α) (key : κ) (value : α) : Dict κ α :=
  if (d.get key).isSome then d else d.set key value

theorem get_set_default (d : Dict κ α) (key other : κ) (value : α) :
    (d.setDefault key value).get other =
      (d.get other).or (if other = key then some value else none) := by
  unfold setDefault
  by_cases same : other = key
  · subst same
    cases found : d.get other with
    | none => simp
    | some kept => simp [found]
  · rw [if_neg same, Option.or_none]
    split_ifs
    · rfl
    · exact get_set_ne d value same

def setDefaults (d : Dict κ α) (entries : List (κ × α)) : Dict κ α :=
  entries.foldl (fun d entry => d.setDefault entry.1 entry.2) d

theorem get_set_defaults (d : Dict κ α) (entries : List (κ × α)) (key : κ) :
    (d.setDefaults entries).get key = (d.get key).or (entries.lookup key) := by
  induction entries generalizing d with
  | nil => simp [setDefaults]
  | cons entry rest ih =>
      have later : (d.setDefaults (entry :: rest)) =
          (d.setDefault entry.1 entry.2).setDefaults rest := rfl
      rw [later, ih, get_set_default, lookup_cons_ite, Option.or_assoc]
      congr 1
      split_ifs <;> rfl

theorem get_set_defaults_append (d : Dict κ α) (earlier later : List (κ × α)) (key : κ) :
    (d.setDefaults (earlier ++ later)).get key =
      ((d.setDefaults earlier).get key).or ((empty.setDefaults later).get key) := by
  rw [get_set_defaults, get_set_defaults, get_set_defaults, get_empty, Option.none_or,
    List.lookup_append, Option.or_assoc]

/-- Of these items this is the first one to state something under the key. -/
structure Leads {ι : Type} (entries : ι → List (κ × α)) (key : κ) (items before : List ι) (lead : ι)
    (after : List ι) (value : α) : Prop where
  split : items = before ++ lead :: after
  silent : ∀ item ∈ before, ∀ stated, (key, stated) ∉ entries item
  stated : (entries lead).lookup key = some value

theorem Leads.mem {ι : Type} {entries : ι → List (κ × α)} {key : κ} {items before after : List ι}
    {lead : ι} {value : α} (leads : Leads entries key items before lead after value) :
    (key, value) ∈ entries lead := by
  obtain ⟨front, back, split, _⟩ := List.lookup_eq_some_iff.mp leads.stated
  rw [split]
  exact List.mem_append_right _ List.mem_cons_self

theorem lookup_eq_none_iff_not_mem (key : κ) (entries : List (κ × α)) :
    entries.lookup key = none ↔ ∀ stated, (key, stated) ∉ entries := by
  rw [List.lookup_eq_none_iff]
  constructor
  · intro silent stated member
    exact bne_iff_ne.mp (silent _ member) rfl
  · intro silent entry member
    apply bne_iff_ne.mpr
    intro same
    exact silent entry.2 (same ▸ member)

theorem lookup_flat_map {ι : Type} (entries : ι → List (κ × α)) (items : List ι) (key : κ) :
    (items.flatMap entries).lookup key = items.findSome? fun item => (entries item).lookup key := by
  induction items with
  | nil => rfl
  | cons item rest ih =>
      rw [List.flatMap_cons, List.lookup_append, ih, List.findSome?_cons]
      cases (entries item).lookup key <;> rfl

theorem get_flat_map_eq_some_iff {ι : Type} (entries : ι → List (κ × α)) (items : List ι) (key : κ)
    (value : α) : (empty.setDefaults (items.flatMap entries)).get key = some value ↔
      ∃ before lead after, Leads entries key items before lead after value := by
  rw [get_set_defaults, get_empty, Option.none_or, lookup_flat_map, List.findSome?_eq_some_iff]
  constructor
  · intro found
    obtain ⟨before, lead, after, split, stated, silent⟩ := found
    have unmentioned := fun item member =>
      (lookup_eq_none_iff_not_mem key (entries item)).mp (silent item member)
    exact ⟨before, lead, after, split, unmentioned, stated⟩
  · intro led
    obtain ⟨before, lead, after, leads⟩ := led
    have silent := fun item member =>
      (lookup_eq_none_iff_not_mem key (entries item)).mpr (leads.silent item member)
    exact ⟨before, lead, after, leads.split, leads.stated, silent⟩

def ofEntries (entries : List (κ × α)) : Dict κ α :=
  entries.foldl (fun d entry => d.set entry.1 entry.2) empty

theorem foldl_set_entries (d : Dict κ α) (entries : List (κ × α))
    (distinct : (d.entries.map Prod.fst ++ entries.map Prod.fst).Nodup) :
    (entries.foldl (fun d entry => d.set entry.1 entry.2) d).entries = d.entries ++ entries := by
  induction entries generalizing d with
  | nil => exact (List.append_nil _).symm
  | cons entry rest ih =>
      rw [List.map_cons] at distinct
      have absent : d.entries.lookup entry.1 = none := by
        cases found : d.entries.lookup entry.1 with
        | none => rfl
        | some value =>
            have member := (lookup_eq_some_iff_mem _ _ _ d.distinct).mp found
            have apart := (List.nodup_append.mp distinct).2.2
            exact absurd rfl
              (apart entry.1 (List.mem_map.mpr ⟨_, member, rfl⟩) entry.1 List.mem_cons_self)
      have grown : (d.set entry.1 entry.2).entries = d.entries ++ [entry] :=
        set_entry_absent entry.1 entry.2 absent
      rw [List.foldl_cons, ih, grown, List.append_assoc]
      · rfl
      · rw [grown, List.map_append, List.append_assoc]
        exact distinct

theorem of_entries_entries {entries : List (κ × α)} (distinct : (entries.map Prod.fst).Nodup) :
    (ofEntries entries).entries = entries :=
  foldl_set_entries empty entries distinct

theorem map_values_set (f : α → β) (d : Dict κ α) (key : κ) (value : α) :
    (d.set key value).mapValues (fun _ => f) = (d.mapValues fun _ => f).set key (f value) :=
  eq_of_entries (map_set_entry f key value d.entries)

theorem get_eq_some_iff (d : Dict κ α) (key : κ) (value : α) :
    d.get key = some value ↔ (key, value) ∈ d.entries :=
  lookup_eq_some_iff_mem key value d.entries d.distinct

theorem values_nodup (d : Dict κ α) {name : α → κ}
    (filed : ∀ key value, d.get key = some value → name value = key) :
    (d.values.map name).Nodup := by
  have same : d.values.map name = d.entries.map Prod.fst := by
    unfold values
    rw [List.map_map]
    apply List.map_congr_left
    intro entry member
    exact filed entry.1 entry.2 ((d.get_eq_some_iff entry.1 entry.2).mpr member)
  rw [same]
  exact d.distinct

theorem mem_values_iff (d : Dict κ α) (value : α) :
    value ∈ d.values ↔ ∃ key, d.get key = some value := by
  simp [values, get_eq_some_iff]

end Dict

end DearAgent.Lib.Dictionaries
