import Mathlib.Data.List.Induction
import Mathlib.Data.Set.Defs
import DearAgent.Approvals.File
import DearAgent.Stores.Claims

/-!
# The approval stores side by side

The same calls on the store in memory, on the one in a file, which may be opened again
before any of them, and on the table. The registry reads the clock twice where the table
takes one reading; apart from that they answer alike, and a token is redeemed once, before
it expires.
-/

namespace DearAgent.Approvals

open DearAgent.Lib.Text DearAgent.Lib.Effects DearAgent.Lib.Dictionaries DearAgent.Lib.Transactions
open DearAgent.Lib.Interleaving DearAgent.Queue DearAgent.Stores

set_option autoImplicit false

/-- A call, and whether the store in the file is opened again before it. -/
structure Call where
  op : ApprovalOp
  readings : Readings
  reopened : Bool

structure ThreeStores where
  memory : Registry
  file : FileApprovalStore
  tables : Tables

inductive StoreKind
  | memory | file | postgres

/-- Replies that tell nothing apart: those of `pending` as sets. -/
def SameReply : (op : ApprovalOp) → op.Reply → op.Reply → Prop
  | .pending, first, second =>
      first.map (fun listed => {approval | approval ∈ listed}) =
        second.map fun listed => {approval | approval ∈ listed}
  | .redeem _, first, second => first.map Redeemed.approval = second.map Redeemed.approval
  | .issue _ _, first, second | .get _, first, second => first = second

def redeemedBy : (op : ApprovalOp) → op.Reply → Option (Str × Approval)
  | .redeem token, .ok redeemed => some (token, redeemed.approval)
  | _, _ => none

/-- Where the call redeems a token that is not refused, the clock stands still meanwhile. -/
def SteadyAt (call : Call) (r : Registry) : Prop :=
  ∀ token, call.op = .redeem token →
    refusal token call.readings.now (r.ledger token) = none → call.readings.later = call.readings.now

section Calling

variable [IsoFormat] (ttl : Duration) (collation : Collation)

def callFile (call : Call) (f : FileApprovalStore) : call.op.Reply × FileApprovalStore :=
  if call.reopened then
    match FileApprovalStore.opened f.file with
    | .error error => (.error error, f)
    | .ok other => FileApprovalStore.step ttl call.op call.readings other
  else FileApprovalStore.step ttl call.op call.readings f

def callTables (call : Call) (t : Tables) : call.op.Reply × Tables :=
  performed (approvalSession ttl call.readings call.op : Op collation call.op.Result) t

namespace ThreeStores

def reply (kind : StoreKind) (call : Call) (s : ThreeStores) : call.op.Reply :=
  match kind with
  | .memory => (MemoryApprovalStore.step ttl call.op call.readings s.memory).1
  | .file => (callFile ttl call s.file).1
  | .postgres => (callTables ttl collation call s.tables).1

def after (s : ThreeStores) (call : Call) : ThreeStores where
  memory := (MemoryApprovalStore.step ttl call.op call.readings s.memory).2
  file := (callFile ttl call s.file).2
  tables := (callTables ttl collation call s.tables).2

def afterCalls (calls : List Call) (s : ThreeStores) : ThreeStores :=
  calls.foldl (fun s call => s.after ttl collation call) s

end ThreeStores

/-- The stores before their first call: no token is issued, and there is no file. -/
def unused (t : Tables) : ThreeStores := ⟨Registry.empty, .fresh, { t with approvals := Registry.empty }⟩

def FreshTokens (calls : List Call) (s : ThreeStores) : Prop :=
  ∀ front call back taskId action, calls = front ++ call :: back → call.op = .issue taskId action →
    (s.afterCalls ttl collation front).memory.ledger call.readings.token.1 = none

/-- The readings of the clock, in the order of the calls. -/
def Ordered (calls : List Call) : Prop :=
  (calls.flatMap fun call => [call.readings.now, call.readings.later]).Pairwise (· ≤ ·)

def session (caller : ApprovalOp × Readings) : Op collation caller.1.Result :=
  approvalSession ttl caller.2 caller.1

/-- Any number of processes that make calls on the table, statement by statement. -/
abbrev Concurrent (t : Tables) (c : Config (Lib.Transactions.session (sql collation))
    (ApprovalOp × Readings) Tables) : Prop :=
  Reachable (answering (answerSql collation)) (fun caller => dropValue (session ttl collation caller)) t c

/-- What the processes are told of a token. -/
structure RedeemsOnce : Prop where
  once : ∀ t c pid pid' token readings readings' redeemed redeemed', t.approvals.WellFormed →
    Concurrent ttl collation t c →
    ReturnedFrom (session ttl collation) c pid (.redeem token, readings) redeemed →
    ReturnedFrom (session ttl collation) c pid' (.redeem token, readings') redeemed' → pid = pid'
  early : ∀ t c pid token readings (redeemed : Redeemed), t.approvals.WellFormed →
    Concurrent ttl collation t c →
    ReturnedFrom (session ttl collation) c pid (.redeem token, readings) redeemed →
    readings.now < redeemed.approval.expiresAt

/-- What the callers of the stores may rely on. -/
structure StoresAgree (calls : List Call) (s : ThreeStores) : Prop where
  alike : ∀ kind front call back, calls = front ++ call :: back →
    SameReply call.op ((s.afterCalls ttl collation front).reply ttl collation .memory call)
      ((s.afterCalls ttl collation front).reply ttl collation kind call)
  once : ∀ kind front first middle second back token approval approval',
    calls = front ++ first :: (middle ++ second :: back) →
    redeemedBy first.op ((s.afterCalls ttl collation front).reply ttl collation kind first) =
      some (token, approval) →
    redeemedBy second.op
      ((s.afterCalls ttl collation (front ++ first :: middle)).reply ttl collation kind second) ≠
        some (token, approval')
  early : ∀ kind front call back token approval, calls = front ++ call :: back →
    redeemedBy call.op ((s.afterCalls ttl collation front).reply ttl collation kind call) =
      some (token, approval) →
    ∃ used, approval.usedAt = some used ∧ used < approval.expiresAt
  concurrent : RedeemsOnce ttl collation

/-- The clock stands still whenever a token is redeemed. -/
def Steady (calls : List Call) (s : ThreeStores) : Prop :=
  ∀ front call back, calls = front ++ call :: back →
    SteadyAt call (s.afterCalls ttl collation front).memory

end Calling

/-!
## One call
-/

theorem same_redeemed {op : ApprovalOp} {first second : op.Reply} (same : SameReply op first second) :
    redeemedBy op first = redeemedBy op second := by
  cases op with
  | redeem token =>
      cases first with
      | error error =>
          cases second with
          | error other => rfl
          | ok redeemed => cases same
      | ok redeemed =>
          cases second with
          | error error => cases same
          | ok other => exact congrArg (fun approval => some (token, approval)) (Except.ok.inj same)
  | _ => rfl

section Registries

variable {r p : Registry} {token : Str} {readings : Readings}

theorem memory_redeem (r : Registry) (token : Str) (readings : Readings) :
    (∃ error, refusal token readings.now (r.ledger token) = some error ∧
      MemoryApprovalStore.redeem r token readings = (.error error, r)) ∨
    ∃ approval, r.ledger token = some approval ∧
      refusal token readings.now (some approval) = none ∧
      MemoryApprovalStore.redeem r token readings =
        (.ok { approval with usedAt := some readings.later },
          r.set { approval with usedAt := some readings.later }) := by
  unfold MemoryApprovalStore.redeem
  change (∃ error, refusal token readings.now (r.get token) = some error ∧ _) ∨
    ∃ approval, r.get token = some approval ∧ _
  cases r.get token with
  | none => exact .inl ⟨_, rfl, rfl⟩
  | some approval =>
      unfold refusal
      simp only
      by_cases used : approval.used = true
      · rw [if_pos used, if_pos used]
        exact .inl ⟨_, rfl, rfl⟩
      · rw [if_neg used, if_neg used]
        by_cases expired : approval.expired readings.now = true
        · rw [if_pos expired, if_pos expired]
          exact .inl ⟨_, rfl, rfl⟩
        · rw [if_neg expired, if_neg expired]
          refine .inr ⟨approval, rfl, ?_, rfl⟩
          rw [if_neg used, if_neg expired]

/-- The table refuses it for the same reason, or it records the reading it was checked at. -/
theorem postgres_redeem (p : Registry) (token : Str) (readings : Readings) :
    (∃ error, refusal token readings.now (p.ledger token) = some error ∧
      PostgresApprovalStore.redeem p token readings = (.error error, p)) ∨
    ∃ approval, p.ledger token = some approval ∧
      refusal token readings.now (some approval) = none ∧
      PostgresApprovalStore.redeem p token readings =
        (.ok { approval with usedAt := some readings.now },
          p.set { approval with usedAt := some readings.now }) := by
  unfold PostgresApprovalStore.redeem
  change (∃ error, refusal token readings.now (p.get token) = some error ∧ _) ∨
    ∃ approval, p.get token = some approval ∧ _
  cases p.get token with
  | none => exact .inl ⟨_, rfl, rfl⟩
  | some row =>
      unfold refusal
      simp only
      by_cases used : row.used = true
      · have dead : ¬(row.usedAt = none ∧ row.expiresAt > readings.now) := by
          rintro ⟨unused, _⟩
          rw [Approval.used, unused] at used
          cases used
        rw [if_pos used, if_neg dead, if_pos used]
        exact .inl ⟨_, rfl, rfl⟩
      · have unused : row.usedAt = none := by
          rw [Approval.used, Option.not_isSome_iff_eq_none] at used
          exact used
        by_cases expired : row.expired readings.now = true
        · have dead : ¬(row.usedAt = none ∧ row.expiresAt > readings.now) := by
            rintro ⟨_, live⟩
            exact absurd (of_decide_eq_true expired) (Int.not_le.mpr live)
          rw [if_neg used, if_pos expired, if_neg dead, if_neg used]
          exact .inl ⟨_, rfl, rfl⟩
        · have live : row.usedAt = none ∧ row.expiresAt > readings.now := by
            refine ⟨unused, Int.not_le.mp fun late => expired ?_⟩
            exact decide_eq_true late
          rw [if_pos live]
          refine .inr ⟨row, rfl, ?_, rfl⟩
          rw [if_neg used, if_neg expired]

theorem get_eq_ledger (r : Registry) (token : Str) : r.get token = r.ledger token := rfl

theorem pending_same (first : r.WellFormed) (second : p.WellFormed) (same : p.ledger = r.ledger) :
    {approval | approval ∈ r.pending} = {approval | approval ∈ p.pending} := by
  apply Set.ext
  intro approval
  change approval ∈ r.pending ↔ approval ∈ p.pending
  rw [Registry.mem_pending first, Registry.mem_pending second, same]

theorem memory_follows (ttl : Duration) (first : r.WellFormed) (second : p.WellFormed)
    (same : p.ledger = r.ledger) (op : ApprovalOp) (readings : Readings) :
    SameReply op (MemoryApprovalStore.step ttl op readings r).1
        (MemoryApprovalStore.step ttl op readings p).1 ∧
      (MemoryApprovalStore.step ttl op readings p).2.ledger =
        (MemoryApprovalStore.step ttl op readings r).2.ledger := by
  cases op with
  | issue taskId action =>
      refine ⟨rfl, ?_⟩
      change (p.set _).ledger = (r.set _).ledger
      rw [Registry.ledger_set, Registry.ledger_set, same]
  | get token =>
      refine ⟨?_, same⟩
      change Except.ok (r.ledger token) = Except.ok (p.ledger token)
      rw [same]
  | pending => exact ⟨congrArg Except.ok (pending_same first second same), same⟩
  | redeem token =>
      simp only [MemoryApprovalStore.step, SameReply]
      rcases memory_redeem r token readings with ⟨error, refused, did⟩ | ⟨approval, found, live, did⟩
      · rcases memory_redeem p token readings with ⟨other, refused', did'⟩ | ⟨other, found, live, _⟩
        · rw [same, refused] at refused'
          cases refused'
          rw [did, did']
          exact ⟨rfl, same⟩
        · rw [← same, found, live] at refused
          cases refused
      · rcases memory_redeem p token readings with ⟨error, refused, _⟩ | ⟨other, found', _, did'⟩
        · rw [same, found, live] at refused
          cases refused
        · rw [same, found] at found'
          cases found'
          rw [did, did']
          refine ⟨rfl, ?_⟩
          change (p.set _).ledger = (r.set _).ledger
          rw [Registry.ledger_set, Registry.ledger_set, same]

theorem steady_of_other {call : Call} (other : ∀ token, call.op ≠ .redeem token) :
    SteadyAt call r := fun token same => absurd same (other token)

end Registries

section Following

variable {r : Registry} {ttl : Duration} {collation : Collation}

theorem file_follows [IsoFormat] (call : Call) {f : FileApprovalStore} (wellFormed : r.WellFormed)
    (saved : f.Saved) (same : f.registry.ledger = r.ledger) :
    SameReply call.op (MemoryApprovalStore.step ttl call.op call.readings r).1
        (callFile ttl call f).1 ∧ (callFile ttl call f).2.Saved ∧
      (callFile ttl call f).2.registry.ledger =
        (MemoryApprovalStore.step ttl call.op call.readings r).2.ledger := by
  have stepped : ∀ {f : FileApprovalStore}, f.Saved → f.registry.ledger = r.ledger →
      SameReply call.op (MemoryApprovalStore.step ttl call.op call.readings r).1
          (FileApprovalStore.step ttl call.op call.readings f).1 ∧
        (FileApprovalStore.step ttl call.op call.readings f).2.Saved ∧
        (FileApprovalStore.step ttl call.op call.readings f).2.registry.ledger =
          (MemoryApprovalStore.step ttl call.op call.readings r).2.ledger := by
    intro f saved same
    obtain ⟨alike, ledgers⟩ :=
      memory_follows ttl wellFormed saved.wellFormed same call.op call.readings
    exact ⟨alike, FileApprovalStore.step_saved ttl saved call.op call.readings, ledgers⟩
  unfold callFile
  by_cases reopened : call.reopened = true
  · rw [if_pos reopened]
    obtain ⟨other, opens, _, ledger⟩ := saved.saved
    rw [opens]
    exact stepped (FileApprovalStore.opened_saved saved opens) (ledger.trans same)
  · rw [if_neg reopened]
    exact stepped saved same

/-- The table answers alike exactly where the clock stands still while a token is redeemed. -/
theorem tables_follow (call : Call) {t : Tables} (first : r.WellFormed)
    (second : t.approvals.WellFormed) (same : t.approvals.ledger = r.ledger)
    (fresh : ∀ taskId action, call.op = .issue taskId action →
      r.ledger call.readings.token.1 = none) :
    (SameReply call.op (MemoryApprovalStore.step ttl call.op call.readings r).1
        (callTables ttl collation call t).1 ↔ SteadyAt call r) ∧
      (SteadyAt call r → (callTables ttl collation call t).2.approvals.ledger =
        (MemoryApprovalStore.step ttl call.op call.readings r).2.ledger) := by
  obtain ⟨op, readings, reopened⟩ := call
  unfold callTables
  rw [performed_approvals]
  cases op with
  | issue taskId action =>
      have absent : (t.approvals.get (newApproval ttl taskId action readings).token).isSome = false := by
        rw [get_eq_ledger, same]
        exact congrArg Option.isSome (fresh taskId action rfl)
      have steady : SteadyAt ⟨.issue taskId action, readings, reopened⟩ r :=
        steady_of_other fun token never => by cases never
      have issued : PostgresApprovalStore.issue ttl t.approvals taskId action readings =
          (.ok (newApproval ttl taskId action readings),
            t.approvals.set (newApproval ttl taskId action readings)) := by
        unfold PostgresApprovalStore.issue
        simp only [absent, Bool.false_eq_true, if_false]
      simp only [PostgresApprovalStore.step, issued]
      refine ⟨iff_of_true rfl steady, fun _ => ?_⟩
      change (t.approvals.set _).ledger = (r.set _).ledger
      rw [Registry.ledger_set, Registry.ledger_set, same]
  | get token =>
      refine ⟨iff_of_true ?_ (steady_of_other fun token never => by cases never), fun _ => same⟩
      change Except.ok (r.ledger token) = Except.ok (t.approvals.ledger token)
      rw [same]
  | pending =>
      refine ⟨iff_of_true ?_ (steady_of_other fun token never => by cases never), fun _ => same⟩
      apply congrArg Except.ok
      apply (pending_same first second same).trans
      apply Set.ext
      intro approval
      exact (List.mem_insertionSort _).symm
  | redeem token =>
      simp only [MemoryApprovalStore.step, PostgresApprovalStore.step, SameReply]
      rcases memory_redeem r token readings with ⟨error, refused, did⟩ | ⟨approval, found, live, did⟩
      · rcases postgres_redeem t.approvals token readings with ⟨other, refused', did'⟩ |
          ⟨other, found, live, _⟩
        · rw [same, refused] at refused'
          cases refused'
          rw [did, did']
          refine ⟨iff_of_true rfl ?_, fun _ => same⟩
          intro token' own live
          cases own
          rw [refused] at live
          cases live
        · rw [← same, found, live] at refused
          cases refused
      · rcases postgres_redeem t.approvals token readings with ⟨error, refused, _⟩ |
          ⟨other, found', _, did'⟩
        · rw [same, found, live] at refused
          cases refused
        · rw [same, found] at found'
          cases found'
          rw [did, did']
          constructor
          · constructor
            · intro alike token' own _
              cases own
              have times := congrArg Approval.usedAt (Except.ok.inj alike)
              exact Option.some.inj times
            · intro steady
              have still := steady token rfl ((congrArg _ found).trans live)
              change Except.ok _ = Except.ok _
              rw [still]
          · intro steady
            have still := steady token rfl ((congrArg _ found).trans live)
            change (t.approvals.set _).ledger = (r.set _).ledger
            rw [Registry.ledger_set, Registry.ledger_set, same, still]

end Following

/-!
## Sequences of calls
-/

section Sequences

variable [IsoFormat] {ttl : Duration} {collation : Collation} {s : ThreeStores}

/-- The three stores hold the same approvals, and the file holds them too. -/
structure Synced (s : ThreeStores) : Prop where
  memory : s.memory.WellFormed
  saved : s.file.Saved
  file : s.file.registry.ledger = s.memory.ledger
  rows : s.tables.approvals.WellFormed
  tables : s.tables.approvals.ledger = s.memory.ledger

/-- The token of a new approval is not in use. -/
def FreshAt (call : Call) (r : Registry) : Prop :=
  ∀ taskId action, call.op = .issue taskId action → r.ledger call.readings.token.1 = none

theorem synced_unused (t : Tables) : Synced (unused t) :=
  ⟨Registry.empty_well_formed, FileApprovalStore.fresh_saved, rfl, Registry.empty_well_formed, rfl⟩

omit [IsoFormat] in
theorem same_reply_refl (op : ApprovalOp) (reply : op.Reply) : SameReply op reply reply := by
  cases op <;> rfl

variable (ttl collation) in
theorem alike_iff {call : Call} (synced : Synced s) (fresh : FreshAt call s.memory) :
    (∀ kind, SameReply call.op (s.reply ttl collation .memory call)
      (s.reply ttl collation kind call)) ↔ SteadyAt call s.memory := by
  have rows := (@tables_follow s.memory ttl collation call s.tables synced.memory synced.rows
    synced.tables fresh).1
  constructor
  · exact fun alike => rows.mp (alike .postgres)
  · intro steady kind
    cases kind with
    | memory => exact same_reply_refl _ _
    | file => exact (file_follows call synced.memory synced.saved synced.file).1
    | postgres => exact rows.mpr steady

theorem synced_step {call : Call} (synced : Synced s) (fresh : FreshAt call s.memory)
    (steady : SteadyAt call s.memory) : Synced (s.after ttl collation call) := by
  obtain ⟨_, saved, file⟩ :=
    @file_follows s.memory ttl _ call s.file synced.memory synced.saved synced.file
  constructor
  · exact MemoryApprovalStore.step_well_formed ttl synced.memory call.op call.readings
  · exact saved
  · exact file
  · change (callTables ttl collation call s.tables).2.approvals.WellFormed
    unfold callTables
    rw [performed_approvals]
    exact PostgresApprovalStore.step_well_formed ttl synced.rows call.op call.readings
  · exact (tables_follow call synced.memory synced.rows synced.tables fresh).2 steady

theorem after_calls_concat (front : List Call) (call : Call) :
    s.afterCalls ttl collation (front ++ [call]) =
      (s.afterCalls ttl collation front).after ttl collation call :=
  List.foldl_concat _ _ _ _

theorem synced_run {calls : List Call} (synced : Synced s) (fresh : FreshTokens ttl collation calls s)
    (steady : ∀ front call back, calls = front ++ call :: back →
      Synced (s.afterCalls ttl collation front) →
      SteadyAt call (s.afterCalls ttl collation front).memory)
    (front back : List Call) (split : calls = front ++ back) :
    Synced (s.afterCalls ttl collation front) := by
  induction front using List.reverseRecOn generalizing back with
  | nil => exact synced
  | append_singleton front call ih =>
      rw [List.append_assoc] at split
      have earlier := ih ([call] ++ back) split
      rw [after_calls_concat]
      exact synced_step earlier (fun taskId action => fresh front call back taskId action split)
        (steady front call back split earlier)

def UsedUp (r : Registry) (token : Str) : Prop :=
  ∃ approval, r.ledger token = some approval ∧ approval.used = true

omit [IsoFormat] in
theorem used_up_kept {r : Registry} {token : Str} {call : Call} (fresh : FreshAt call r)
    (usedUp : UsedUp r token) :
    UsedUp (MemoryApprovalStore.step ttl call.op call.readings r).2 token := by
  obtain ⟨approval, found, used⟩ := usedUp
  obtain ⟨op, readings, reopened⟩ := call
  cases op with
  | get other => exact ⟨approval, found, used⟩
  | pending => exact ⟨approval, found, used⟩
  | issue taskId action =>
      have absent : r.ledger readings.token.1 = none := fresh taskId action rfl
      refine ⟨approval, ?_, used⟩
      change (r.set _).ledger token = _
      rw [Registry.ledger_set, ledger_put_ne, found]
      intro same
      rw [same] at found
      cases absent.symm.trans found
  | redeem other =>
      rcases memory_redeem r other readings with ⟨error, _, did⟩ | ⟨redeemed, _, _, did⟩
      · simp only [MemoryApprovalStore.step, did]
        exact ⟨approval, found, used⟩
      · simp only [MemoryApprovalStore.step, did]
        by_cases same : token = redeemed.token
        · refine ⟨{ redeemed with usedAt := some readings.later }, ?_, rfl⟩
          rw [Registry.ledger_set]
          exact ledger_put_same _ _ same
        · refine ⟨approval, ?_, used⟩
          rw [Registry.ledger_set, ledger_put_ne _ _ (by exact same), found]

omit [IsoFormat] in
theorem memory_redeemed {r : Registry} (wellFormed : r.WellFormed) {op : ApprovalOp}
    {readings : Readings} {token : Str} {approval : Approval}
    (redeemed : redeemedBy op (MemoryApprovalStore.step ttl op readings r).1 = some (token, approval)) :
    op = .redeem token ∧ refusal token readings.now (r.ledger token) = none ∧
      approval.usedAt = some readings.later ∧ readings.now < approval.expiresAt ∧
      UsedUp (MemoryApprovalStore.step ttl op readings r).2 token := by
  cases op with
  | issue | get | pending => cases redeemed
  | redeem other =>
      rcases memory_redeem r other readings with ⟨error, _, did⟩ | ⟨stored, found, live, did⟩
      · simp only [MemoryApprovalStore.step, did] at redeemed
        cases redeemed
      · simp only [MemoryApprovalStore.step, did] at redeemed ⊢
        cases redeemed
        have own : stored.token = token := wellFormed token stored found
        refine ⟨rfl, (congrArg _ found).trans live, rfl, ?_,
          { stored with usedAt := some readings.later }, ?_, rfl⟩
        · unfold refusal at live
          simp only at live
          split_ifs at live with _ unexpired
          exact Int.not_le.mp fun late => unexpired (decide_eq_true late)
        · rw [Registry.ledger_set]
          exact ledger_put_same _ _ own.symm

omit [IsoFormat] in
theorem used_up_refuses {r : Registry} (wellFormed : r.WellFormed) {op : ApprovalOp}
    {readings : Readings} {token : Str} {approval : Approval} (usedUp : UsedUp r token) :
    redeemedBy op (MemoryApprovalStore.step ttl op readings r).1 ≠ some (token, approval) := by
  intro redeemed
  obtain ⟨_, live, _⟩ := memory_redeemed wellFormed redeemed
  obtain ⟨stored, found, used⟩ := usedUp
  rw [found, refusal] at live
  simp only [if_pos used] at live
  cases live

theorem used_up_run {calls front middle back : List Call} {token : Str}
    (fresh : FreshTokens ttl collation calls s) (split : calls = front ++ (middle ++ back))
    (usedUp : UsedUp (s.afterCalls ttl collation front).memory token) :
    UsedUp (s.afterCalls ttl collation (front ++ middle)).memory token := by
  induction middle using List.reverseRecOn generalizing back with
  | nil =>
      rw [List.append_nil]
      exact usedUp
  | append_singleton middle call ih =>
      rw [List.append_assoc] at split
      have earlier := ih split
      rw [← List.append_assoc, after_calls_concat]
      apply used_up_kept _ earlier
      intro taskId action
      apply fresh (front ++ middle) call back taskId action
      rw [split, List.append_assoc]
      rfl

end Sequences

/-!
## Many processes on the table
-/

section Processes

variable {collation : Collation} {ttl : Duration} {t : Tables}

abbrev approvalPorts (collation : Collation) : Signature :=
  Lib.Transactions.session (sql collation)

theorem run_sql_approvals {P : Registry → Prop} {statement : Sql} {done : statement.Result × Tables}
    (ran : runSql collation statement t = .ok done) (same : P t.approvals)
    (inserts : ∀ approval, t.approvals.get approval.token = none → P (t.approvals.set approval))
    (uses : ∀ token row now, t.approvals.get token = some row →
      P (t.approvals.set { row with usedAt := some now })) : P done.2.approvals := by
  cases statement with
  | insertApproval approval =>
      simp only [runSql] at ran
      split_ifs at ran with taken
      cases ran
      exact inserts approval (Option.not_isSome_iff_eq_none.mp taken)
  | useApproval token now =>
      cases ran
      change P (useApproval t.approvals token now).2
      unfold useApproval
      cases found : t.approvals.get token with
      | none => exact same
      | some row =>
          simp only
          split_ifs
          · exact uses token row now found
          · exact same
  | selectInState state limit =>
      obtain ⟨rows, _, rfl⟩ := map_ok ran
      exact same
  | selectRecent limit =>
      obtain ⟨rows, _, rfl⟩ := map_ok ran
      exact same
  | selectDecisionAt index =>
      obtain ⟨found, _, rfl⟩ := map_ok ran
      exact same
  | releaseTasks now =>
      obtain ⟨released, _, rfl⟩ := map_ok ran
      exact same
  | insertPolicy policy =>
      simp only [runSql] at ran
      split_ifs at ran
      cases ran
      exact same
  | _ =>
      cases ran
      exact same

theorem answer_approvals {P : Registry → Prop} (request : SessionRequest (sql collation))
    (same : P t.approvals)
    (inserts : ∀ approval, t.approvals.get approval.token = none → P (t.approvals.set approval))
    (uses : ∀ token row now, t.approvals.get token = some row →
      P (t.approvals.set { row with usedAt := some now })) :
    P (answerSql collation request t).2.approvals := by
  cases request with
  | cursor => exact same
  | commit => exact same
  | execute statement =>
      cases ran : runSql collation statement t with
      | ok done =>
          simp only [answerSql, ran]
          exact run_sql_approvals ran same inserts uses
      | error error =>
          simp only [answerSql, ran]
          exact same

theorem rows_filed (request : SessionRequest (sql collation)) (wellFormed : t.approvals.WellFormed) :
    (answerSql collation request t).2.approvals.WellFormed :=
  answer_approvals request wellFormed (fun _ _ => Registry.set_well_formed wellFormed _)
    fun _ _ _ _ => Registry.set_well_formed wellFormed _

theorem stays_used {token : Str} (request : SessionRequest (sql collation))
    (usedUp : UsedUp t.approvals token) :
    UsedUp (answerSql collation request t).2.approvals token := by
  obtain ⟨approval, found, used⟩ := usedUp
  apply @answer_approvals collation t (fun r => UsedUp r token) request ⟨approval, found, used⟩
  · intro new absent
    refine ⟨approval, ?_, used⟩
    rw [Registry.ledger_set, ledger_put_ne, found]
    intro same
    rw [same] at found
    cases absent.symm.trans found
  · intro other row now located
    by_cases same : token = row.token
    · refine ⟨{ row with usedAt := some now }, ?_, rfl⟩
      rw [Registry.ledger_set]
      exact ledger_put_same _ _ same
    · refine ⟨approval, ?_, used⟩
      rw [Registry.ledger_set, ledger_put_ne _ _ (by exact same), found]

def uses (token : Str) (now : Instant) (row : Approval) : Exchange (approvalPorts collation) :=
  ⟨.execute (.useApproval token now), .ok (some row)⟩

theorem use_takes {token : Str} {now : Instant} {row : Approval}
    (wellFormed : t.approvals.WellFormed)
    (answered : (answerSql collation (.execute (.useApproval token now)) t).1 = .ok (some row)) :
    ¬UsedUp t.approvals token ∧ now < row.expiresAt ∧
      UsedUp (answerSql collation (.execute (.useApproval token now)) t).2.approvals token := by
  have changed : (useApproval t.approvals token now).1 = some row := Except.ok.inj answered
  change ¬UsedUp t.approvals token ∧ now < row.expiresAt ∧
    UsedUp (useApproval t.approvals token now).2 token
  unfold useApproval at changed ⊢
  cases found : t.approvals.get token with
  | none =>
      rw [found] at changed
      cases changed
  | some stored =>
      rw [found] at changed
      simp only at changed ⊢
      by_cases live : stored.usedAt = none ∧ stored.expiresAt > now
      · rw [if_pos live] at changed ⊢
        cases changed
        refine ⟨?_, live.2, { stored with usedAt := some now }, ?_, rfl⟩
        · rintro ⟨approval, located, used⟩
          cases found.symm.trans located
          rw [Approval.used, live.1] at used
          cases used
        · rw [Registry.ledger_set]
          exact ledger_put_same _ _ (wellFormed token stored found).symm
      · rw [if_neg live] at changed
        cases changed

theorem came_to_redeem {token : Str} {now : Instant} {trace : List (Exchange (approvalPorts collation))}
    {redeemed : Redeemed} (came : CameTo (redeem token now : Op collation Redeemed) trace redeemed) :
    uses token now redeemed.approval ∈ trace := by
  obtain ⟨opened, _, _, _, rfl, came⟩ := came
  cases opened with
  | error error => cases came.2.1
  | ok _ =>
      obtain ⟨answered, _, _, _, rfl, came⟩ := came
      cases answered with
      | error error => cases came.2.1
      | ok row =>
          cases row with
          | some row =>
              obtain ⟨committed, _, _, _, rfl, came⟩ := came
              cases committed with
              | error error => cases came.2.1
              | ok _ =>
                  obtain ⟨rfl, same, _⟩ := came
                  cases same
                  exact List.mem_cons_of_mem _ List.mem_cons_self
          | none =>
              obtain ⟨looked, _, _, _, rfl, came⟩ := came
              cases looked with
              | error error => cases came.2.1
              | ok current =>
                  obtain ⟨committed, _, _, _, rfl, came⟩ := came
                  cases committed with
                  | error error => cases came.2.1
                  | ok _ =>
                      cases current with
                      | none => cases came.2.1
                      | some approval =>
                          change Exec _ (if approval.used then _ else _) _ _ _ _ at came
                          split_ifs at came
                          · cases came.2.1
                          · cases came.2.1

variable {history : History (approvalPorts collation) (ApprovalOp × Readings)}

/-- At the turn that redeems a token it is unused and unexpired, and used from then on. -/
theorem use_at (wellFormed : t.approvals.WellFormed) (replayed : Replayed (answerSql collation) t history)
    {front back : History (approvalPorts collation) (ApprovalOp × Readings)}
    {entry : Entry (approvalPorts collation) (ApprovalOp × Readings)}
    (split : history = front ++ entry :: back) {token : Str} {now : Instant} {row : Approval}
    (used : entry.event = uses token now row) :
    ¬UsedUp (replay (answerSql collation) t front).approvals token ∧ now < row.expiresAt ∧
      UsedUp (replay (answerSql collation) t (front ++ [entry])).approvals token := by
  have answered := replayed front entry back split
  obtain ⟨pid, operation, event⟩ := entry
  obtain rfl : event = uses token now row := used
  rw [replay_append]
  apply use_takes _ answered
  exact @replay_keeps _ _ _ (answerSql collation) (fun t => t.approvals.WellFormed)
    (fun request _ filed => rows_filed request filed) t wellFormed front

theorem use_once (wellFormed : t.approvals.WellFormed)
    (replayed : Replayed (answerSql collation) t history)
    {front middle back : History (approvalPorts collation) (ApprovalOp × Readings)}
    {first second : Entry (approvalPorts collation) (ApprovalOp × Readings)}
    (split : history = front ++ first :: (middle ++ second :: back)) {token : Str}
    {now now' : Instant} {row row' : Approval} (used : first.event = uses token now row)
    (again : second.event = uses token now' row') : False := by
  have split' : history = (front ++ [first] ++ middle) ++ second :: back := by
    rw [split, List.append_assoc, List.append_assoc]
    rfl
  have early := (use_at wellFormed replayed split used).2.2
  apply (use_at wellFormed replayed split' again).1
  rw [replay_append]
  exact @replay_keeps _ _ _ (answerSql collation) (fun t => UsedUp t.approvals token)
    (fun request _ kept => stays_used request kept) _ early middle

theorem redeems_once (ttl : Duration) (collation : Collation) : RedeemsOnce ttl collation where
  once t c pid pid' token readings readings' redeemed redeemed' wellFormed concurrent first second := by
    have replayed := (reachable_replayed concurrent).2
    obtain ⟨front, entry, back, split, rfl, used⟩ := own_turn (came_to_redeem first.2)
    obtain ⟨front', entry', back', split', rfl, again⟩ := own_turn (came_to_redeem second.2)
    rcases split_compare (split.symm.trans split') with ⟨tail, shape⟩ | ⟨between, rest, _⟩
    · rcases split_concat shape with ⟨_, _, rfl⟩ | ⟨middle, rfl, rfl⟩
      · rfl
      · have apart : c.history = front ++ entry :: (middle ++ entry' :: back') := by
          rw [split', List.append_assoc]
          rfl
        exact (use_once wellFormed replayed apart used again).elim
    · rw [rest] at split'
      exact (use_once wellFormed replayed split' again used).elim
  early t c pid token readings redeemed wellFormed concurrent returned := by
    obtain ⟨front, entry, back, split, rfl, used⟩ := own_turn (came_to_redeem returned.2)
    exact (use_at wellFormed (reachable_replayed concurrent).2 split used).2.1

end Processes

/-!
## All together
-/

section Together

variable [IsoFormat] {ttl : Duration} {collation : Collation} {t : Tables} {calls : List Call}

/-- The stores agree, and a token is redeemed once and in time, exactly where the clock stands
still whenever the stores in memory and in the file redeem one. -/
theorem stores_agree_iff (fresh : FreshTokens ttl collation calls (unused t)) :
    StoresAgree ttl collation calls (unused t) ↔ Steady ttl collation calls (unused t) := by
  have freshAt : ∀ front call back, calls = front ++ call :: back →
      FreshAt call ((unused t).afterCalls ttl collation front).memory :=
    fun front call back split taskId action => fresh front call back taskId action split
  constructor
  · intro agree
    have steady : ∀ front call back, calls = front ++ call :: back →
        Synced ((unused t).afterCalls ttl collation front) →
        SteadyAt call ((unused t).afterCalls ttl collation front).memory :=
      fun front call back split synced =>
        (alike_iff ttl collation synced (freshAt front call back split)).mp fun kind =>
          agree.alike kind front call back split
    intro front call back split
    exact steady front call back split (synced_run (synced_unused t) fresh steady front _ split)
  · intro steady
    have synced := fun front call back (split : calls = front ++ call :: back) =>
      synced_run (synced_unused t) fresh
        (fun front call back split _ => steady front call back split) front _ split
    have alike := fun kind front call back (split : calls = front ++ call :: back) =>
      (alike_iff ttl collation (synced front call back split) (freshAt front call back split)).mpr
        (steady front call back split) kind
    have inMemory : ∀ kind front call back token approval, calls = front ++ call :: back →
        redeemedBy call.op (((unused t).afterCalls ttl collation front).reply ttl collation kind call) =
          some (token, approval) →
        redeemedBy call.op (((unused t).afterCalls ttl collation front).reply ttl collation .memory
          call) = some (token, approval) := by
      intro kind front call back token approval split redeemed
      rw [same_redeemed (alike kind front call back split)]
      exact redeemed
    constructor
    · exact alike
    · intro kind front first middle second back token approval approval' split redeemed again
      have split' : calls = (front ++ first :: middle) ++ second :: back := by
        rw [split, List.append_assoc]
        rfl
      have wellFormed := (synced front first _ split).memory
      obtain ⟨_, _, _, _, usedUp⟩ := memory_redeemed wellFormed
        (inMemory kind front first _ token approval split redeemed)
      refine used_up_refuses (synced _ second back split').memory ?_
        (inMemory kind _ second back token approval' split' again)
      have shape : front ++ first :: middle = (front ++ [first]) ++ middle := by
        rw [List.append_assoc]
        rfl
      rw [shape]
      have apart : calls = (front ++ [first]) ++ (middle ++ second :: back) := by
        rw [split, List.append_assoc]
        rfl
      apply used_up_run fresh apart
      rw [after_calls_concat]
      exact usedUp
    · intro kind front call back token approval split redeemed
      obtain ⟨isRedeem, live, usedAt, early, _⟩ := memory_redeemed (synced front call back split).memory
        (inMemory kind front call back token approval split redeemed)
      have still := steady front call back split token isRedeem live
      exact ⟨_, usedAt, still ▸ early⟩
    · exact redeems_once ttl collation

end Together

section Example

def isoTexts : List (Instant × Str) :=
  [(1767225600000000, "2026-01-01T00:00:00+00:00"), (1767225601000000, "2026-01-01T00:00:01+00:00"),
    (1767225602000000, "2026-01-01T00:00:02+00:00"), (1767312000000000, "2026-01-02T00:00:00+00:00")]

def otherText : Instant → Str
  | .ofNat n => 'p' :: List.replicate n '1'
  | .negSucc n => 'n' :: List.replicate n '1'

def otherInstant : Str → Except Exn Instant
  | 'p' :: rest => .ok (.ofNat rest.length)
  | 'n' :: rest => .ok (.negSucc rest.length)
  | _ => .error (.valueError "Invalid isoformat string")

theorem other_round_trip (now : Instant) : otherInstant (otherText now) = .ok now := by
  cases now with
  | ofNat n => exact congrArg (fun length => Except.ok (Int.ofNat length)) List.length_replicate
  | negSucc n => exact congrArg (fun length => Except.ok (Int.negSucc length)) List.length_replicate

def isoText (now : Instant) : Str := (isoTexts.lookup now).getD (otherText now)

def isoInstant (text : Str) : Except Exn Instant :=
  match isoTexts.find? fun entry => entry.2 = text with
  | some entry => .ok entry.1
  | none => otherInstant text

theorem other_text_unlisted (now : Instant) : (isoTexts.find? fun entry => entry.2 = otherText now) = none := by
  apply List.find?_eq_none.mpr
  intro entry member same
  have digit : entry.2.head? = some '2' := by
    have all : isoTexts.all (fun entry => entry.2.head? = some '2') = true := by decide
    simpa using List.all_eq_true.mp all entry member
  rw [of_decide_eq_true same] at digit
  cases now <;> cases digit

theorem listed_text {now : Instant} {text : Str} (found : isoTexts.lookup now = some text) :
    text ≠ [] ∧ (isoTexts.find? fun entry => entry.2 = text) = some (now, text) := by
  have member := (lookup_eq_some_iff_mem now text isoTexts (by decide)).mp found
  have checked : isoTexts.all (fun listed => listed.2 ≠ [] &&
      (isoTexts.find? fun entry => entry.2 = listed.2) = some listed) = true := by decide
  have both := List.all_eq_true.mp checked (now, text) member
  rw [Bool.and_eq_true] at both
  exact ⟨of_decide_eq_true both.1, of_decide_eq_true both.2⟩

@[reducible] def isoFormat : IsoFormat where
  isoformat := isoText
  fromisoformat := isoInstant
  nonempty now := by
    unfold isoText
    cases found : isoTexts.lookup now with
    | none => cases now <;> exact List.cons_ne_nil _ _
    | some text => exact (listed_text found).1
  round_trip now := by
    unfold isoText isoInstant
    cases found : isoTexts.lookup now with
    | none =>
        rw [Option.getD_none, other_text_unlisted]
        exact other_round_trip now
    | some text => rw [Option.getD_some, (listed_text found).2]

local instance approvalFormat : IsoFormat := isoFormat

def day : Duration := 86400 * 1000000

def firstHex : TokenHex := ⟨List.replicate 32 'f', by decide, every_char (by decide)⟩

/-- A token is issued, and redeemed from a file that was opened again, in a second call that
reads the clock at these instants; a third call redeems it once more. -/
def threeCalls (now later : Instant) : List Call :=
  [⟨.issue "m1" "land", ⟨1767225600000000, 1767225600000000, firstHex⟩, false⟩,
    ⟨.redeem firstHex.1, ⟨now, later, firstHex⟩, true⟩,
    ⟨.redeem firstHex.1, ⟨1767225602000000, 1767225602000000, firstHex⟩, true⟩]

theorem three_calls_fresh (now later : Instant) :
    FreshTokens day codePoint (threeCalls now later) (unused emptyTables) := by
  intro front call back taskId action split issues
  cases front with
  | nil => rfl
  | cons first front =>
      have member : call ∈ (threeCalls now later).tail := by
        rw [split]
        exact List.mem_append_right _ List.mem_cons_self
      rcases List.mem_cons.mp member with rfl | member
      · cases issues
      · rw [List.mem_singleton.mp member] at issues
        cases issues

theorem three_calls_steady (now : Instant) :
    Steady day codePoint (threeCalls now now) (unused emptyTables) := by
  intro front call back split token _ _
  have member : call ∈ threeCalls now now := by
    rw [split]
    exact List.mem_append_right _ List.mem_cons_self
  rcases List.mem_cons.mp member with rfl | member
  · rfl
  · rcases List.mem_cons.mp member with rfl | member
    · rfl
    · rw [List.mem_singleton.mp member]

/-- A second later the token is redeemed by all three stores alike. -/
theorem steady_redeem_agrees :
    StoresAgree day codePoint (threeCalls 1767225601000000 1767225601000000) (unused emptyTables) ∧
      (redeemedBy (.redeem firstHex.1) (ThreeStores.reply day codePoint .file
        ⟨.redeem firstHex.1, ⟨1767225601000000, 1767225601000000, firstHex⟩, true⟩
        ((unused emptyTables).afterCalls day codePoint ((threeCalls 0 0).take 1)))).isSome = true :=
  ⟨(stores_agree_iff (three_calls_fresh _ _)).mpr (three_calls_steady _), by decide⟩

def slowRedeem : Call := ⟨.redeem firstHex.1, ⟨1767225601000000, 1767225602000000, firstHex⟩, true⟩

def slowUse (kind : StoreKind) : Except Exn (Option Instant) :=
  ((ThreeStores.reply day codePoint kind slowRedeem
    ((unused emptyTables).afterCalls day codePoint ((threeCalls 0 0).take 1))).map
      Redeemed.approval).map Approval.usedAt

/-- Where the clock moves on between the two readings, the registry records the later one and
the table the earlier one. -/
theorem moving_clock_differs :
    FreshTokens day codePoint (threeCalls 1767225601000000 1767225602000000) (unused emptyTables) ∧
      Ordered (threeCalls 1767225601000000 1767225602000000) ∧
      ¬StoresAgree day codePoint (threeCalls 1767225601000000 1767225602000000)
        (unused emptyTables) := by
  refine ⟨three_calls_fresh _ _, by unfold Ordered; decide, fun agree => ?_⟩
  have alike := agree.alike .postgres ((threeCalls 0 0).take 1) slowRedeem _ rfl
  have times : slowUse .memory = slowUse .postgres :=
    congrArg (fun reply : Except Exn Approval => reply.map Approval.usedAt) alike
  have memory : slowUse .memory = .ok (some 1767225602000000) := by rfl
  have table : slowUse .postgres = .ok (some 1767225601000000) := by rfl
  rw [memory, table] at times
  cases times

end Example

end DearAgent.Approvals
