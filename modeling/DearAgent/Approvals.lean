import Mathlib.Data.List.Sort
import DearAgent.Lib.Dict
import DearAgent.Errors

/-!
# Approval tokens

`approvals.py`: the store of issued tokens, in memory and in PostgreSQL, and
what both of them do to the ledger, the map from tokens to approvals. The
random token and the readings of the clock are inputs of a call.
-/

namespace DearAgent

open DearAgent.Lib.Text DearAgent.Lib.Dictionaries DearAgent.Queue

set_option autoImplicit false

/-- What `secrets.token_hex(TOKEN_BYTES)` returns. -/
def isTokenHex (token : Str) : Prop :=
  token.length = 32 ∧ ∀ c ∈ token, c.isDigit || ('a' ≤ c && c ≤ 'f')

abbrev TokenHex := { token : Str // isTokenHex token }

structure Approval where
  token : Str
  taskId : Str
  action : Str
  createdAt : Instant
  expiresAt : Instant
  usedAt : Option Instant := none
deriving DecidableEq

namespace Approval

def used (a : Approval) : Bool := a.usedAt.isSome

def expired (a : Approval) (now : Instant) : Bool := now ≥ a.expiresAt

end Approval

/-- What one call takes from outside: the clock, read up to twice, and the next
random token. -/
structure Readings where
  now : Instant
  later : Instant
  token : TokenHex

/-- A redeemed approval, with the reading its expiry was checked against. -/
structure Redeemed where
  approval : Approval
  checkedAt : Instant
deriving DecidableEq

inductive ApprovalOp
  | issue (taskId action : Str)
  | get (token : Str)
  | redeem (token : Str)
  | pending
deriving DecidableEq

@[reducible] def ApprovalOp.Result : ApprovalOp → Type
  | .issue _ _ => Approval
  | .get _ => Option Approval
  | .redeem _ => Redeemed
  | .pending => List Approval

abbrev ApprovalOp.Reply (op : ApprovalOp) := Except Exn op.Result

abbrev Ledger := Str → Option Approval

def Ledger.put (ledger : Ledger) (approval : Approval) : Ledger :=
  fun token => if token = approval.token then some approval else ledger token

theorem ledger_put_same (ledger : Ledger) (approval : Approval) {token : Str}
    (same : token = approval.token) : ledger.put approval token = some approval := if_pos same

theorem ledger_put_ne (ledger : Ledger) (approval : Approval) {token : Str}
    (other : token ≠ approval.token) : ledger.put approval token = ledger token := if_neg other

def newApproval (ttl : Duration) (taskId action : Str) (readings : Readings) : Approval where
  token := readings.token.1
  taskId := taskId
  action := action
  createdAt := readings.now
  expiresAt := readings.now + ttl

/-- The effect and the reply of one call on the ledger. -/
def ApprovalSpec (ttl : Duration) (readings : Readings) :
    (op : ApprovalOp) → Ledger → op.Reply → Ledger → Prop
  | .issue taskId action, ledger, reply, ledger' =>
      (reply = .ok (newApproval ttl taskId action readings) ∧
        ledger' = ledger.put (newApproval ttl taskId action readings)) ∨
      ((∃ error : Exn, reply = .error error ∧ error.isApprovalError = false) ∧ ledger' = ledger)
  | .get token, ledger, reply, ledger' => reply = .ok (ledger token) ∧ ledger' = ledger
  | .redeem token, ledger, reply, ledger' =>
      (∃ approval usedAt, ledger token = some approval ∧ approval.used = false ∧
        approval.expired readings.now = false ∧
        reply = .ok ⟨{ approval with usedAt := some usedAt }, readings.now⟩ ∧
        ledger' = ledger.put { approval with usedAt := some usedAt }) ∨
      ((∃ error, reply = .error error ∧ error.isApprovalError = true) ∧ ledger' = ledger)
  | .pending, ledger, reply, ledger' => ledger' = ledger ∧
      ∃ listed : List Approval, reply = .ok listed ∧ ∀ approval, approval ∈ listed ↔
        ledger approval.token = some approval ∧ approval.used = false

def Ledger.Filed (ledger : Ledger) : Prop :=
  ∀ token approval, ledger token = some approval → approval.token = token

structure ApprovalBackend where
  ttl : Duration
  Store : Type
  ledger : Store → Ledger
  filed : ∀ store, (ledger store).Filed
  step : (op : ApprovalOp) → Readings → Store → op.Reply × Store
  refines : ∀ op readings store,
    ApprovalSpec ttl readings op (ledger store) (step op readings store).1
      (ledger (step op readings store).2)

def refusal (token : Str) (now : Instant) : Option Approval → Option Exn
  | none => some (.unknownToken token)
  | some approval =>
      if approval.used then some (.tokenAlreadyUsed token)
      else if approval.expired now then some (.expiredToken token)
      else none

/-- A backend that refuses a token for these reasons and for no other. -/
structure ApprovalStore extends ApprovalBackend where
  refuses : ∀ token readings store error, (step (.redeem token) readings store).1 = .error error ↔
    refusal token readings.now (ledger store token) = some error

/-- The approvals of `_ApprovalRegistry` and the rows of the table alike. -/
structure Registry where
  byToken : Dict Str Approval

namespace Registry

def ledger (r : Registry) : Ledger := r.byToken.get

def WellFormed (r : Registry) : Prop := r.ledger.Filed

def empty : Registry := ⟨Dict.empty⟩

theorem empty_well_formed : empty.WellFormed := by
  intro token approval found
  cases found

def set (r : Registry) (approval : Approval) : Registry :=
  ⟨r.byToken.set approval.token approval⟩

def get (r : Registry) (token : Str) : Option Approval := r.byToken.get token

def pending (r : Registry) : List Approval := r.byToken.values.filter fun a => !a.used

theorem ledger_set (r : Registry) (approval : Approval) :
    (r.set approval).ledger = r.ledger.put approval := by
  funext token
  exact Dict.get_set r.byToken approval.token token approval

theorem set_well_formed {r : Registry} (wellFormed : r.WellFormed) (approval : Approval) :
    (r.set approval).WellFormed := by
  intro token other found
  rw [ledger_set] at found
  unfold Ledger.put at found
  split_ifs at found with same
  · rw [same, ← Option.some.inj found]
  · exact wellFormed token other found

theorem mem_pending {r : Registry} (wellFormed : r.WellFormed) (approval : Approval) :
    approval ∈ r.pending ↔ r.ledger approval.token = some approval ∧ approval.used = false := by
  simp only [pending, List.mem_filter, Dict.mem_values_iff, Bool.not_eq_true']
  refine and_congr_left fun _ => ⟨?_, fun found => ⟨_, found⟩⟩
  rintro ⟨token, found⟩
  rw [wellFormed token approval found]
  exact found

end Registry

/-!
## The registry in memory
-/

namespace MemoryApprovalStore

def issue (ttl : Duration) (r : Registry) (taskId action : Str) (readings : Readings) :
    Approval × Registry :=
  let approval := newApproval ttl taskId action readings
  (approval, r.set approval)

def redeem (r : Registry) (token : Str) (readings : Readings) : Except Exn Approval × Registry :=
  match r.get token with
  | none => (.error (.unknownToken token), r)
  | some approval =>
      if approval.used then (.error (.tokenAlreadyUsed token), r)
      else if approval.expired readings.now then (.error (.expiredToken token), r)
      else
        let redeemed := { approval with usedAt := some readings.later }
        (.ok redeemed, r.set redeemed)

def step (ttl : Duration) (op : ApprovalOp) (readings : Readings) (r : Registry) :
    op.Reply × Registry :=
  match op with
  | .issue taskId action => let s := issue ttl r taskId action readings; (.ok s.1, s.2)
  | .get token => (.ok (r.get token), r)
  | .redeem token => let s := redeem r token readings; (s.1.map fun a => ⟨a, readings.now⟩, s.2)
  | .pending => (.ok r.pending, r)

theorem step_well_formed (ttl : Duration) {r : Registry} (wellFormed : r.WellFormed)
    (op : ApprovalOp) (readings : Readings) : (step ttl op readings r).2.WellFormed := by
  cases op with
  | issue taskId action => exact Registry.set_well_formed wellFormed _
  | get token => exact wellFormed
  | redeem token =>
      simp only [step, redeem]
      split
      · exact wellFormed
      · split_ifs
        · exact wellFormed
        · exact wellFormed
        · exact Registry.set_well_formed wellFormed _
  | pending => exact wellFormed

theorem step_refines (ttl : Duration) {r : Registry} (wellFormed : r.WellFormed) (op : ApprovalOp)
    (readings : Readings) :
    ApprovalSpec ttl readings op r.ledger (step ttl op readings r).1
      (step ttl op readings r).2.ledger := by
  cases op with
  | issue taskId action => exact .inl ⟨rfl, Registry.ledger_set r _⟩
  | get token => exact ⟨rfl, rfl⟩
  | redeem token =>
      simp only [step, redeem]
      split
      · exact .inr ⟨⟨_, rfl, rfl⟩, rfl⟩
      · rename_i approval found
        split_ifs with used expired
        · exact .inr ⟨⟨_, rfl, rfl⟩, rfl⟩
        · exact .inr ⟨⟨_, rfl, rfl⟩, rfl⟩
        · exact .inl ⟨approval, readings.later, found, Bool.eq_false_iff.mpr used,
            Bool.eq_false_iff.mpr expired, rfl, Registry.ledger_set r _⟩
  | pending => exact ⟨rfl, _, rfl, Registry.mem_pending wellFormed⟩

def backend (ttl : Duration) : ApprovalBackend where
  ttl := ttl
  Store := { r : Registry // r.WellFormed }
  ledger r := r.1.ledger
  filed r := r.2
  step op readings r :=
    ((step ttl op readings r.1).1,
      ⟨(step ttl op readings r.1).2, step_well_formed ttl r.2 op readings⟩)
  refines op readings r := step_refines ttl r.2 op readings

theorem step_refuses (ttl : Duration) (r : Registry) (token : Str) (readings : Readings)
    (error : Exn) : (step ttl (.redeem token) readings r).1 = .error error ↔
      refusal token readings.now (r.ledger token) = some error := by
  simp only [step, redeem, Registry.ledger, Registry.get]
  cases r.byToken.get token with
  | none => simp [refusal, Except.map]
  | some approval =>
      simp only [refusal]
      split_ifs <;> simp [Except.map]

def store (ttl : Duration) : ApprovalStore where
  toApprovalBackend := backend ttl
  refuses token readings r error := step_refuses ttl r.1 token readings error

end MemoryApprovalStore

/-!
## The table
-/

namespace PostgresApprovalStore

/-- The token is the primary key, so a second `INSERT` of one is refused. -/
def issue (ttl : Duration) (r : Registry) (taskId action : Str) (readings : Readings) :
    Except Exn Approval × Registry :=
  let approval := newApproval ttl taskId action readings
  if (r.get approval.token).isSome then
    (.error (.otherException "UniqueViolation" "duplicate key value"), r)
  else (.ok approval, r.set approval)

/-- The guarded `UPDATE`, and the second look that tells why it changed no row. -/
def redeem (r : Registry) (token : Str) (readings : Readings) : Except Exn Approval × Registry :=
  match r.get token with
  | none => (.error (.unknownToken token), r)
  | some row =>
      if row.usedAt = none ∧ row.expiresAt > readings.now then
        let redeemed := { row with usedAt := some readings.now }
        (.ok redeemed, r.set redeemed)
      else if row.used then (.error (.tokenAlreadyUsed token), r)
      else (.error (.expiredToken token), r)

def step (ttl : Duration) (op : ApprovalOp) (readings : Readings) (r : Registry) :
    op.Reply × Registry :=
  match op with
  | .issue taskId action => issue ttl r taskId action readings
  | .get token => (.ok (r.get token), r)
  | .redeem token => let s := redeem r token readings; (s.1.map fun a => ⟨a, readings.now⟩, s.2)
  | .pending =>
      (.ok (r.pending.insertionSort fun first second => first.createdAt ≤ second.createdAt), r)

theorem step_well_formed (ttl : Duration) {r : Registry} (wellFormed : r.WellFormed)
    (op : ApprovalOp) (readings : Readings) : (step ttl op readings r).2.WellFormed := by
  cases op with
  | issue taskId action =>
      simp only [step, issue]
      split_ifs
      · exact wellFormed
      · exact Registry.set_well_formed wellFormed _
  | get token => exact wellFormed
  | redeem token =>
      simp only [step, redeem]
      split
      · exact wellFormed
      · split_ifs
        · exact Registry.set_well_formed wellFormed _
        · exact wellFormed
        · exact wellFormed
  | pending => exact wellFormed

theorem step_refines (ttl : Duration) {r : Registry} (wellFormed : r.WellFormed) (op : ApprovalOp)
    (readings : Readings) :
    ApprovalSpec ttl readings op r.ledger (step ttl op readings r).1
      (step ttl op readings r).2.ledger := by
  cases op with
  | issue taskId action =>
      simp only [step, issue]
      split_ifs
      · exact .inr ⟨⟨_, rfl, rfl⟩, rfl⟩
      · exact .inl ⟨rfl, Registry.ledger_set r _⟩
  | get token => exact ⟨rfl, rfl⟩
  | redeem token =>
      simp only [step, redeem]
      split
      · exact .inr ⟨⟨_, rfl, rfl⟩, rfl⟩
      · rename_i row found
        split_ifs with live used
        · exact .inl ⟨row, readings.now, found, by simp [Approval.used, live.1],
            by simpa [Approval.expired] using live.2, rfl, Registry.ledger_set r _⟩
        · exact .inr ⟨⟨_, rfl, rfl⟩, rfl⟩
        · exact .inr ⟨⟨_, rfl, rfl⟩, rfl⟩
  | pending =>
      refine ⟨rfl, _, rfl, fun approval => ?_⟩
      rw [List.mem_insertionSort]
      exact Registry.mem_pending wellFormed approval

def backend (ttl : Duration) : ApprovalBackend where
  ttl := ttl
  Store := { r : Registry // r.WellFormed }
  ledger r := r.1.ledger
  filed r := r.2
  step op readings r :=
    ((step ttl op readings r.1).1,
      ⟨(step ttl op readings r.1).2, step_well_formed ttl r.2 op readings⟩)
  refines op readings r := step_refines ttl r.2 op readings

theorem step_refuses (ttl : Duration) (r : Registry) (token : Str) (readings : Readings)
    (error : Exn) : (step ttl (.redeem token) readings r).1 = .error error ↔
      refusal token readings.now (r.ledger token) = some error := by
  simp only [step, redeem, Registry.ledger, Registry.get]
  cases r.byToken.get token with
  | none => simp [refusal, Except.map]
  | some row =>
      have live : row.expiresAt > readings.now ↔ row.expired readings.now = false := by
        simp [Approval.expired]
      have unused : row.usedAt = none ↔ row.used = false := by simp [Approval.used]
      simp only [refusal, live, unused]
      cases row.used <;> cases row.expired readings.now <;> simp [Except.map]

def store (ttl : Duration) : ApprovalStore where
  toApprovalBackend := backend ttl
  refuses token readings r error := step_refuses ttl r.1 token readings error

end PostgresApprovalStore

end DearAgent
