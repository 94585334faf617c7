import DearAgent.Approvals

/-!
# The approval store in a file

`FileApprovalStore` is the registry in memory with a copy of it in a file, which is written
after every change and read when the store is opened. What is opened from the file is what
was in memory.
-/

namespace DearAgent

open DearAgent.Lib.Text DearAgent.Lib.Dictionaries DearAgent.Queue

set_option autoImplicit false

/-- `datetime.isoformat` and `datetime.fromisoformat`. -/
class IsoFormat where
  isoformat : Instant → Str
  fromisoformat : Str → Except Exn Instant
  nonempty : ∀ now, isoformat now ≠ []
  round_trip : ∀ now, fromisoformat (isoformat now) = .ok now

structure ApprovalEntry where
  taskId : Str
  action : Str
  createdAt : Str
  expiresAt : Str
  usedAt : Option Str
deriving DecidableEq

/-- An object of such values. A file is told by the object it is the JSON of. -/
abbrev ApprovalPayload := List (Str × ApprovalEntry)

structure FileApprovalStore where
  registry : Registry
  file : Option ApprovalPayload

namespace FileApprovalStore

def fresh : FileApprovalStore := ⟨Registry.empty, none⟩

section Format

variable [IsoFormat]

open IsoFormat

def entryOf (approval : Approval) : ApprovalEntry where
  taskId := approval.taskId
  action := approval.action
  createdAt := isoformat approval.createdAt
  expiresAt := isoformat approval.expiresAt
  usedAt := approval.usedAt.map isoformat

/-- `_persist`; the keys are sorted. -/
def persist (r : Registry) : ApprovalPayload :=
  (r.byToken.entries.map fun entry => (entry.1, entryOf entry.2)).insertionSort
    fun first second => first.1 ≤ second.1

def readUsedAt (text : Option Str) : Except Exn (Option Instant) :=
  if truthy text then (fromisoformat (text.getD [])).map some else .ok none

def readEntry (token : Str) (entry : ApprovalEntry) : Except Exn Approval := do
  let createdAt ← fromisoformat entry.createdAt
  let expiresAt ← fromisoformat entry.expiresAt
  let usedAt ← readUsedAt entry.usedAt
  .ok {
    token := token, taskId := entry.taskId, action := entry.action
    createdAt := createdAt, expiresAt := expiresAt, usedAt := usedAt }

/-- `_load`, behind the entries that were read already. -/
def load (r : Registry) : ApprovalPayload → Except Exn Registry
  | [] => .ok r
  | (token, entry) :: rest => do
      let approval ← readEntry token entry
      load (r.set approval) rest

def opened (file : Option ApprovalPayload) : Except Exn FileApprovalStore :=
  match file with
  | none => .ok ⟨Registry.empty, none⟩
  | some raw => do
      let r ← load Registry.empty raw
      .ok ⟨r, some raw⟩

/-- The calls that end in `_persist`. -/
def persists : (op : ApprovalOp) → op.Reply → Bool
  | .issue _ _, _ => true
  | .redeem _, .ok _ => true
  | _, _ => false

def step (ttl : Duration) (op : ApprovalOp) (readings : Readings) (f : FileApprovalStore) :
    op.Reply × FileApprovalStore :=
  let s := MemoryApprovalStore.step ttl op readings f.registry
  (s.1, ⟨s.2, if persists op s.1 then some (persist s.2) else f.file⟩)

/-!
## What is read back
-/

theorem read_used_at (usedAt : Option Instant) : readUsedAt (usedAt.map isoformat) = .ok usedAt := by
  cases usedAt with
  | none => rfl
  | some time =>
      have filled : truthy (some (isoformat time)) = true := by
        cases text : isoformat time with
        | nil => exact absurd text (nonempty time)
        | cons c rest => rfl
      unfold readUsedAt
      rw [Option.map_some, if_pos filled, Option.getD_some, round_trip]
      rfl

theorem read_entry_of (approval : Approval) :
    readEntry approval.token (entryOf approval) = .ok approval := by
  unfold readEntry entryOf
  simp only [round_trip, read_used_at]
  rfl

theorem load_entries {ledger : Ledger} (filed : ledger.Filed) (raw : ApprovalPayload)
    (entries : ∀ entry ∈ raw, ∃ approval, ledger entry.1 = some approval ∧
      entry.2 = entryOf approval) (r : Registry) :
    ∃ read, load r raw = .ok read ∧ ∀ token, read.ledger token =
      if token ∈ raw.map Prod.fst then ledger token else r.ledger token := by
  induction raw generalizing r with
  | nil => exact ⟨r, rfl, fun token => (if_neg List.not_mem_nil).symm⟩
  | cons entry rest ih =>
      obtain ⟨token, kept⟩ := entry
      obtain ⟨approval, found, rfl⟩ := entries (token, kept) List.mem_cons_self
      obtain rfl := filed token approval found
      obtain ⟨read, loaded, same⟩ :=
        ih (fun entry member => entries entry (List.mem_cons_of_mem _ member)) (r.set approval)
      refine ⟨read, ?_, fun token => ?_⟩
      · rw [load, read_entry_of]
        exact loaded
      · rw [same, List.map_cons, Registry.ledger_set]
        by_cases later : token ∈ rest.map Prod.fst
        · rw [if_pos later, if_pos (List.mem_cons_of_mem _ later)]
        · rw [if_neg later]
          by_cases own : token = approval.token
          · rw [ledger_put_same _ _ own, if_pos (List.mem_cons.mpr (.inl own)), own, found]
          · rw [ledger_put_ne _ _ own, if_neg]
            exact fun member => (List.mem_cons.mp member).elim own later

theorem load_persist {r : Registry} (wellFormed : r.WellFormed) :
    ∃ read, load Registry.empty (persist r) = .ok read ∧ read.ledger = r.ledger := by
  have listed : ∀ entry : Str × ApprovalEntry, entry ∈ persist r ↔
      ∃ approval, r.ledger entry.1 = some approval ∧ entry.2 = entryOf approval := by
    rintro ⟨token, kept⟩
    unfold persist
    rw [List.mem_insertionSort, List.mem_map]
    constructor
    · rintro ⟨⟨key, approval⟩, member, same⟩
      cases same
      exact ⟨approval, (Dict.get_eq_some_iff _ _ _).mpr member, rfl⟩
    · rintro ⟨approval, found, same⟩
      exact ⟨(token, approval), (Dict.get_eq_some_iff _ _ _).mp found, Prod.ext rfl same.symm⟩
  obtain ⟨read, loaded, same⟩ := load_entries wellFormed (persist r)
    (fun entry member => (listed entry).mp member) Registry.empty
  refine ⟨read, loaded, ?_⟩
  funext token
  rw [same]
  split_ifs with member
  · rfl
  · cases found : r.ledger token with
    | none => rfl
    | some approval =>
        refine absurd (List.mem_map.mpr ⟨(token, entryOf approval), ?_, rfl⟩) member
        exact (listed _).mpr ⟨approval, found, rfl⟩

/-- What a store opened now would hold is what this one holds. -/
structure Saved (f : FileApprovalStore) : Prop where
  wellFormed : f.registry.WellFormed
  saved : ∃ other, opened f.file = .ok other ∧ other.file = f.file ∧
    other.registry.ledger = f.registry.ledger

theorem fresh_saved : fresh.Saved := ⟨Registry.empty_well_formed, fresh, rfl, rfl, rfl⟩

theorem opened_saved {f other : FileApprovalStore} (saved : f.Saved)
    (opens : opened f.file = .ok other) : other.Saved := by
  obtain ⟨again, opensAgain, sameFile, sameLedger⟩ := saved.saved
  rw [opens] at opensAgain
  cases opensAgain
  constructor
  · unfold Registry.WellFormed
    rw [sameLedger]
    exact saved.wellFormed
  · exact ⟨other, sameFile.symm ▸ opens, rfl, rfl⟩

omit [IsoFormat] in
theorem unpersisted (ttl : Duration) (op : ApprovalOp) (readings : Readings) (r : Registry)
    (silent : persists op (MemoryApprovalStore.step ttl op readings r).1 = false) :
    (MemoryApprovalStore.step ttl op readings r).2 = r := by
  cases op with
  | issue taskId action => cases silent
  | get token => rfl
  | pending => rfl
  | redeem token =>
      revert silent
      simp only [MemoryApprovalStore.step, MemoryApprovalStore.redeem]
      cases r.get token with
      | none => exact fun _ => rfl
      | some approval =>
          simp only
          split_ifs
          · exact fun _ => rfl
          · exact fun _ => rfl
          · intro never
            cases never

theorem step_saved (ttl : Duration) {f : FileApprovalStore} (saved : f.Saved) (op : ApprovalOp)
    (readings : Readings) : (step ttl op readings f).2.Saved := by
  have wellFormed := MemoryApprovalStore.step_well_formed ttl saved.wellFormed op readings
  refine ⟨wellFormed, ?_⟩
  cases written : persists op (MemoryApprovalStore.step ttl op readings f.registry).1 with
  | true =>
      obtain ⟨read, loaded, same⟩ := load_persist wellFormed
      refine ⟨⟨read, some (persist (MemoryApprovalStore.step ttl op readings f.registry).2)⟩, ?_, ?_, same⟩
      · simp only [step, written, if_true, opened]
        rw [loaded]
        rfl
      · simp only [step, written, if_true]
  | false =>
      have unchanged : (step ttl op readings f).2 = f := by
        have kept := unpersisted ttl op readings f.registry written
        simp only [step, written, Bool.false_eq_true, if_false, kept]
      rw [unchanged]
      exact saved.saved

def backend (ttl : Duration) : ApprovalBackend where
  ttl := ttl
  Store := { f : FileApprovalStore // f.Saved }
  ledger f := f.1.registry.ledger
  filed f := f.2.wellFormed
  step op readings f := ((step ttl op readings f.1).1, ⟨(step ttl op readings f.1).2, step_saved ttl f.2 op readings⟩)
  refines op readings f := MemoryApprovalStore.step_refines ttl f.2.wellFormed op readings

def store (ttl : Duration) : ApprovalStore where
  toApprovalBackend := backend ttl
  refuses token readings f error := MemoryApprovalStore.step_refuses ttl f.1.registry token readings error

end Format

end FileApprovalStore

end DearAgent
