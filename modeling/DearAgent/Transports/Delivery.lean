import DearAgent.Transports.Imap

/-!
# What becomes of a message

The account behind the transport: the flags of the polled mailbox, the fields
of the process, and beside them which messages came in, which a pass has
fetched and not yet processed, and which are processed. Mail may come in before
every answer. `FETCH` marks a message as seen, so that it is only listed again
where the pass that fetched it did not stop before it was processed.
-/

namespace DearAgent.Imap

open DearAgent.Lib.Text DearAgent.Lib.Effects DearAgent.Lib.Dictionaries

set_option autoImplicit false

structure Mail where
  uid : Uid
  seen : Bool := false
  deleted : Bool := false
deriving DecidableEq

structure Account where
  inbox : List Mail := []
  uidNext : Uid := 1
  conn : Bool := false
  connected : Bool := false
  pending : Dict Str Uid := Dict.empty
  delivered : List Uid := []
  held : List Uid := []
  processed : List Uid := []

namespace Account

/-- What `SEARCH UNSEEN` lists. -/
def unseen (account : Account) : List Uid :=
  (account.inbox.filter fun mail => !mail.seen).map Mail.uid

/-- A message comes in; one that is flagged already is nobody's to return. -/
def deliver (account : Account) (seen : Bool) : Account :=
  { account with
    inbox := account.inbox ++ [⟨account.uidNext, seen, false⟩]
    uidNext := account.uidNext + 1
    delivered := if seen then account.delivered else account.delivered ++ [account.uidNext] }

def flag (account : Account) (uid : Uid) (change : Mail → Mail) : List Mail :=
  account.inbox.map fun mail => if mail.uid = uid then change mail else mail

/-- `FETCH` sets `\Seen`. -/
def see (account : Account) (uid : Uid) : Account :=
  { account with
    inbox := account.flag uid fun mail => { mail with seen := true }
    held := account.held ++ [uid] }

def delete (account : Account) (uid : Uid) : Account :=
  { account with inbox := account.flag uid fun mail => { mail with deleted := true } }

/-- `EXPUNGE`, and the end of `CLOSE`. -/
def expunged (account : Account) : Account :=
  { account with inbox := account.inbox.filter fun mail => !mail.deleted }

def process (account : Account) (uid : Uid) : Account :=
  { account with
    held := account.held.filter fun other => other ≠ uid
    processed := account.processed ++ [uid] }

/-- A pass is over; a process that died with it leaves no fields behind. -/
def stopped (account : Account) (died : Bool) : Account :=
  if died then
    { account with held := [], conn := false, connected := false, pending := Dict.empty }
  else { account with held := [] }

end Account

open Account

def Arrives : Account → Account → Prop :=
  Relation.ReflTransGen fun account after => ∃ seen, after = account.deliver seen

/-- What an answer says and leaves behind. A command may fail after it was
carried out, and only what `FETCH` returned is known to be flagged. -/
def Answers : Env signature Account
  | .command .searchUnseen, account, reply, after =>
      after = account ∧ ∀ uids, reply = .ok (true, uids) → uids = account.unseen
  | .command (.fetch uid), account, reply, after =>
      after = account.see uid ∨ (after = account ∧ ∀ raw, reply ≠ .ok ⟨true, some raw⟩)
  | .command (.storeDeleted uid), account, _, after =>
      after = account.delete uid ∨ after = account
  | .command .expunge, account, _, after => after = account.expunged ∨ after = account
  | .command .closeMailbox, account, _, after => after = account.expunged ∨ after = account
  | .command _, account, _, after => after = account
  | .field .conn, account, reply, after => reply = account.conn ∧ after = account
  | .field (.setConn value), account, _, after => after = { account with conn := value }
  | .field .connected, account, reply, after => reply = account.connected ∧ after = account
  | .field (.setConnected value), account, _, after =>
      after = { account with connected := value }
  | .field .hasPending, account, reply, after =>
      reply = !account.pending.entries.isEmpty ∧ after = account
  | .field (.setPending transportId uid), account, _, after =>
      after = { account with pending := account.pending.set transportId uid }
  | .field (.popPending transportId), account, reply, after =>
      reply = account.pending.get transportId ∧
        after = { account with pending := account.pending.erase transportId }
  | .port _, account, _, after => after = account
  | .processed uid, account, _, after => after = account.process uid

def server : Env signature Account :=
  fun request account reply after =>
    ∃ middle, Arrives account middle ∧ Answers request middle reply after

/-- What a pass may ask: only listed messages are fetched, and only processed
ones are deleted. -/
def may : Account → Request → Prop
  | account, .command (.fetch uid) => uid ∈ account.unseen
  | account, .command (.storeDeleted uid) => uid ∈ account.processed
  | account, .field (.setPending _ uid) => uid ∈ account.held
  | account, .processed uid => uid ∈ account.held
  | _, _ => True

/-!
## What every answer keeps
-/

structure Kept (account : Account) : Prop where
  distinct : (account.inbox.map Mail.uid).Nodup
  numbered : ∀ mail ∈ account.inbox, mail.uid < account.uidNext
  handled : ∀ uid, uid ∈ account.processed ∨ uid ∈ account.held →
    uid < account.uidNext ∧ uid ∉ account.unseen
  deleted : ∀ mail ∈ account.inbox, mail.deleted = true → mail.uid ∈ account.processed
  pending : ∀ transportId uid, account.pending.get transportId = some uid →
    uid ∈ account.processed ∨ uid ∈ account.held

/-- Every message that came in unseen is listed, in the hands of a pass, or processed. -/
def Accounted (account : Account) : Prop :=
  ∀ uid ∈ account.delivered, uid ∈ account.unseen ∨ uid ∈ account.held ∨ uid ∈ account.processed

section Keeping

variable {account after : Account} {uid : Uid}

theorem mem_unseen : uid ∈ account.unseen ↔ ∃ mail ∈ account.inbox, mail.seen = false ∧
    mail.uid = uid := by
  simp [unseen, and_assoc]

theorem unseen_nodup (kept : Kept account) : account.unseen.Nodup :=
  kept.distinct.sublist (List.filter_sublist.map Mail.uid)

theorem unseen_numbered (kept : Kept account) (listed : uid ∈ account.unseen) :
    uid < account.uidNext := by
  obtain ⟨mail, member, _, rfl⟩ := mem_unseen.mp listed
  exact kept.numbered mail member

@[simp] theorem unseen_deliver (seen : Bool) :
    (account.deliver seen).unseen =
      account.unseen ++ if seen then [] else [account.uidNext] := by
  cases seen <;> simp [unseen, deliver]

theorem flag_uids (change : Mail → Mail) (same : ∀ mail, (change mail).uid = mail.uid) :
    (account.flag uid change).map Mail.uid = account.inbox.map Mail.uid := by
  unfold flag
  rw [List.map_map]
  refine List.map_congr_left fun mail _ => ?_
  simp only [Function.comp_apply]
  split_ifs
  · exact same mail
  · rfl

theorem flag_numbered {change : Mail → Mail} (same : ∀ mail, (change mail).uid = mail.uid)
    (kept : Kept account) : ∀ mail ∈ account.flag uid change, mail.uid < account.uidNext := by
  intro mail member
  have listed : mail.uid ∈ (account.flag uid change).map Mail.uid := List.mem_map_of_mem member
  rw [flag_uids change same] at listed
  obtain ⟨before, within, equal⟩ := List.mem_map.mp listed
  exact equal ▸ kept.numbered before within

theorem mem_flag {change : Mail → Mail} {mail : Mail} (member : mail ∈ account.flag uid change) :
    ∃ before ∈ account.inbox, mail = if before.uid = uid then change before else before := by
  obtain ⟨before, within, rfl⟩ := List.mem_map.mp member
  exact ⟨before, within, rfl⟩

theorem unseen_see : (account.see uid).unseen = account.unseen.filter fun other => other ≠ uid := by
  unfold unseen see flag
  simp only
  induction account.inbox with
  | nil => rfl
  | cons mail rest ih =>
      rw [List.map_cons]
      by_cases same : mail.uid = uid <;> by_cases seen : mail.seen = true <;>
        simpa [same, seen] using ih

theorem unseen_delete : (account.delete uid).unseen = account.unseen := by
  unfold unseen delete flag
  simp only
  induction account.inbox with
  | nil => rfl
  | cons mail rest ih =>
      rw [List.map_cons]
      by_cases same : mail.uid = uid <;> by_cases seen : mail.seen = true <;>
        simpa [same, seen] using ih

theorem unseen_expunged (kept : Kept account) : account.expunged.unseen = account.unseen := by
  unfold unseen expunged
  simp only [List.filter_filter]
  refine congrArg (List.map Mail.uid) (List.filter_congr fun mail member => ?_)
  by_cases deleted : mail.deleted = true
  · have unlisted := (kept.handled mail.uid (.inl (kept.deleted mail member deleted))).2
    have seen : mail.seen = true := by
      by_contra fresh
      exact unlisted (mem_unseen.mpr ⟨mail, member, Bool.of_not_eq_true fresh, rfl⟩)
    simp [seen]
  · simp [deleted]

theorem deliver_keeps (seen : Bool) (kept : Kept account) : Kept (account.deliver seen) where
  distinct := by
    have fresh : account.uidNext ∉ account.inbox.map Mail.uid := fun member => by
      obtain ⟨mail, within, same⟩ := List.mem_map.mp member
      exact absurd same (Nat.ne_of_lt (kept.numbered mail within))
    simpa [deliver, List.nodup_append] using ⟨kept.distinct, fun mail member =>
      Nat.ne_of_lt (kept.numbered mail member)⟩
  numbered := by
    intro mail member
    rcases List.mem_append.mp member with earlier | new
    · exact Nat.lt_succ_of_lt (kept.numbered mail earlier)
    · rw [List.mem_singleton.mp new]
      exact Nat.lt_succ_self _
  handled := by
    intro uid taken
    have before := kept.handled uid taken
    refine ⟨Nat.lt_succ_of_lt before.1, ?_⟩
    rw [unseen_deliver]
    intro listed
    rcases List.mem_append.mp listed with earlier | new
    · exact before.2 earlier
    · split_ifs at new
      · cases new
      · exact absurd (List.mem_singleton.mp new) (Nat.ne_of_lt before.1)
  deleted := by
    intro mail member deleted
    rcases List.mem_append.mp member with earlier | new
    · exact kept.deleted mail earlier deleted
    · rw [List.mem_singleton.mp new] at deleted
      cases deleted
  pending := kept.pending

theorem see_keeps (listed : uid ∈ account.unseen) (kept : Kept account) :
    Kept (account.see uid) where
  distinct := by
    change ((account.flag uid _).map Mail.uid).Nodup
    rw [flag_uids]
    · exact kept.distinct
    · exact fun _ => rfl
  numbered := flag_numbered (fun _ => rfl) kept
  handled := by
    intro other taken
    rw [unseen_see]
    have either : (other ∈ account.processed ∨ other ∈ account.held) ∨ other = uid := by
      rcases taken with done | held
      · exact .inl (.inl done)
      · rcases List.mem_append.mp held with before | new
        · exact .inl (.inr before)
        · exact .inr (List.mem_singleton.mp new)
    rcases either with before | rfl
    · exact ⟨(kept.handled other before).1, fun still =>
        (kept.handled other before).2 (List.mem_of_mem_filter still)⟩
    · have bound : other < account.uidNext := unseen_numbered kept listed
      exact ⟨bound, fun still => by simp at still⟩
  deleted := by
    intro mail member deleted
    obtain ⟨before, within, rfl⟩ := mem_flag member
    have already := kept.deleted before within
    split_ifs at deleted ⊢ <;> exact already deleted
  pending := fun transportId other found =>
    (kept.pending transportId other found).imp_right (List.mem_append_left _)

theorem delete_keeps (processed : uid ∈ account.processed) (kept : Kept account) :
    Kept (account.delete uid) where
  distinct := by
    change ((account.flag uid _).map Mail.uid).Nodup
    rw [flag_uids]
    · exact kept.distinct
    · exact fun _ => rfl
  numbered := flag_numbered (fun _ => rfl) kept
  handled := by
    rw [unseen_delete]
    exact kept.handled
  deleted := by
    intro mail member deleted
    obtain ⟨before, within, rfl⟩ := mem_flag member
    have already := kept.deleted before within
    split_ifs at deleted ⊢ with same
    · exact same ▸ processed
    · exact already deleted
  pending := kept.pending

theorem expunged_keeps (kept : Kept account) : Kept account.expunged where
  distinct := kept.distinct.sublist (List.filter_sublist.map Mail.uid)
  numbered := fun mail member => kept.numbered mail (List.mem_of_mem_filter member)
  handled := by
    rw [unseen_expunged kept]
    exact kept.handled
  deleted := fun mail member => kept.deleted mail (List.mem_of_mem_filter member)
  pending := kept.pending

theorem process_takes (held : uid ∈ account.held) (other : Uid) :
    other ∈ (account.process uid).processed ∨ other ∈ (account.process uid).held ↔
      other ∈ account.processed ∨ other ∈ account.held := by
  by_cases same : other = uid
  · simp [process, same, held]
  · simp [process, same]

theorem process_keeps (held : uid ∈ account.held) (kept : Kept account) :
    Kept (account.process uid) where
  distinct := kept.distinct
  numbered := kept.numbered
  handled := fun other taken => kept.handled other ((process_takes held other).mp taken)
  deleted := fun mail member deleted =>
    List.mem_append_left _ (kept.deleted mail member deleted)
  pending := fun transportId other found =>
    (process_takes held other).mpr (kept.pending transportId other found)

theorem answer_keeps {request : Request} {reply : request.Reply} (kept : Kept account)
    (permitted : may account request) (answered : Answers request account reply after) :
    Kept after := by
  cases request with
  | command asked =>
      cases asked with
      | searchUnseen => exact answered.1 ▸ kept
      | fetch uid =>
          rcases answered with rfl | ⟨rfl, _⟩
          · exact see_keeps permitted kept
          · exact kept
      | storeDeleted uid =>
          rcases answered with rfl | rfl
          · exact delete_keeps permitted kept
          · exact kept
      | expunge | closeMailbox =>
          rcases answered with rfl | rfl
          · exact expunged_keeps kept
          · exact kept
      | openConnection | login | logout | select _ | create _ | copy _ _ | parseMessage _ =>
          obtain rfl : after = account := answered
          exact kept
  | field used =>
      cases used with
      | conn | connected | hasPending => exact answered.2 ▸ kept
      | setConn value | setConnected value =>
          obtain rfl : after = _ := answered
          exact ⟨kept.distinct, kept.numbered, kept.handled, kept.deleted, kept.pending⟩
      | setPending transportId uid =>
          obtain rfl : after = _ := answered
          refine ⟨kept.distinct, kept.numbered, kept.handled, kept.deleted, ?_⟩
          intro other found stored
          rw [Dict.get_set] at stored
          split_ifs at stored
          · exact .inr (Option.some.inj stored ▸ permitted)
          · exact kept.pending other found stored
      | popPending transportId =>
          obtain ⟨_, rfl⟩ := answered
          refine ⟨kept.distinct, kept.numbered, kept.handled, kept.deleted, ?_⟩
          intro other found stored
          rw [Dict.get_erase] at stored
          split_ifs at stored
          exact kept.pending other found stored
  | port request =>
      obtain rfl : after = account := answered
      exact kept
  | processed uid =>
      obtain rfl : after = _ := answered
      exact process_keeps permitted kept

structure Calm (account after : Account) : Prop where
  kept : Kept after
  held : after.held = account.held
  processed : after.processed = account.processed
  uidNext : account.uidNext ≤ after.uidNext
  unseen : ∃ more, after.unseen = account.unseen ++ more ∧ ∀ uid ∈ more, account.uidNext ≤ uid
  delivered : ∀ uid ∈ after.delivered, uid ∈ account.delivered ∨ uid ∈ after.unseen

theorem Calm.refl (kept : Kept account) : Calm account account :=
  ⟨kept, rfl, rfl, Nat.le_refl _, ⟨[], by simp⟩, fun _ => .inl⟩

theorem Calm.listed (calm : Calm account after) (listed : uid ∈ account.unseen) :
    uid ∈ after.unseen := by
  obtain ⟨more, same, _⟩ := calm.unseen
  rw [same]
  exact List.mem_append_left _ listed

theorem Calm.still_held (calm : Calm account after) (held : uid ∈ account.held) :
    uid ∈ after.held := by
  rw [calm.held]
  exact held

theorem Calm.still_processed (calm : Calm account after) (processed : uid ∈ account.processed) :
    uid ∈ after.processed := by
  rw [calm.processed]
  exact processed

theorem Calm.trans {middle : Account} (first : Calm account middle) (second : Calm middle after) :
    Calm account after where
  kept := second.kept
  held := second.held.trans first.held
  processed := second.processed.trans first.processed
  uidNext := Nat.le_trans first.uidNext second.uidNext
  unseen := by
    obtain ⟨early, same, earlyNew⟩ := first.unseen
    obtain ⟨late, same', lateNew⟩ := second.unseen
    refine ⟨early ++ late, by rw [same', same, List.append_assoc], fun uid member => ?_⟩
    rcases List.mem_append.mp member with before | then_
    · exact earlyNew uid before
    · exact Nat.le_trans first.uidNext (lateNew uid then_)
  delivered := fun uid member => (second.delivered uid member).elim
    (fun before => (first.delivered uid before).imp_right second.listed) .inr

theorem Calm.accounted (calm : Calm account after) (accounted : Accounted account) :
    Accounted after := by
  intro uid member
  rw [calm.held, calm.processed]
  rcases calm.delivered uid member with before | listed
  · exact (accounted uid before).imp_left calm.listed
  · exact .inl listed

theorem Calm.permits {request : Request} (calm : Calm account after)
    (permitted : may account request) : may after request := by
  cases request with
  | command asked =>
      cases asked with
      | fetch uid => exact calm.listed permitted
      | storeDeleted uid => exact calm.still_processed permitted
      | _ => trivial
  | field used =>
      cases used with
      | setPending transportId uid => exact calm.still_held permitted
      | _ => trivial
  | port request => trivial
  | processed uid => exact calm.still_held permitted

theorem deliver_calm (seen : Bool) (kept : Kept account) : Calm account (account.deliver seen) where
  kept := deliver_keeps seen kept
  held := rfl
  processed := rfl
  uidNext := Nat.le_succ _
  unseen := by
    refine ⟨_, unseen_deliver seen, fun uid member => ?_⟩
    split_ifs at member
    · cases member
    · exact Nat.le_of_eq (List.mem_singleton.mp member).symm
  delivered := by
    intro uid member
    rw [unseen_deliver]
    cases seen with
    | true => exact .inl member
    | false => exact (List.mem_append.mp member).imp_right (List.mem_append_right _)

theorem arrives_calm (kept : Kept account) (arrives : Arrives account after) :
    Calm account after := by
  induction arrives with
  | refl => exact .refl kept
  | tail _ arrival ih =>
      obtain ⟨seen, rfl⟩ := arrival
      exact ih.trans (deliver_calm seen ih.kept)

theorem answer_calm {request : Request} {reply : request.Reply} (kept : Kept account)
    (permitted : may account request) (answered : Answers request account reply after)
    (unfetched : ∀ uid, request ≠ .command (.fetch uid))
    (unmarked : ∀ uid, request ≠ .processed uid) : Calm account after := by
  have keeps := answer_keeps kept permitted answered
  have calm : after.held = account.held → after.processed = account.processed →
      after.uidNext = account.uidNext → after.unseen = account.unseen →
      after.delivered = account.delivered → Calm account after :=
    fun held processed uidNext unseen delivered => ⟨keeps, held, processed, uidNext.ge,
      ⟨[], by simp [unseen]⟩, fun _ member => .inl (delivered ▸ member)⟩
  cases request with
  | command asked =>
      cases asked with
      | searchUnseen =>
          obtain ⟨rfl, _⟩ := answered
          exact .refl kept
      | fetch uid => exact absurd rfl (unfetched uid)
      | storeDeleted uid =>
          rcases answered with rfl | rfl
          · exact calm rfl rfl rfl unseen_delete rfl
          · exact .refl kept
      | expunge | closeMailbox =>
          rcases answered with rfl | rfl
          · exact calm rfl rfl rfl (unseen_expunged kept) rfl
          · exact .refl kept
      | openConnection | login | logout | select _ | create _ | copy _ _ | parseMessage _ =>
          obtain rfl : after = account := answered
          exact .refl kept
  | field used =>
      cases used with
      | conn | connected | hasPending =>
          obtain ⟨_, rfl⟩ := answered
          exact .refl kept
      | setConn value | setConnected value | setPending transportId uid =>
          obtain rfl : after = _ := answered
          exact calm rfl rfl rfl rfl rfl
      | popPending transportId =>
          obtain ⟨_, rfl⟩ := answered
          exact calm rfl rfl rfl rfl rfl
  | port request =>
      obtain rfl : after = account := answered
      exact .refl kept
  | processed uid => exact absurd rfl (unmarked uid)

theorem see_accounts (accounted : Accounted account) : Accounted (account.see uid) := by
  intro other member
  rw [unseen_see]
  rcases accounted other member with listed | held | processed
  · by_cases same : other = uid
    · exact .inr (.inl (same ▸ List.mem_append_right _ (List.mem_singleton_self _)))
    · exact .inl (List.mem_filter.mpr ⟨listed, by simpa using same⟩)
  · exact .inr (.inl (List.mem_append_left _ held))
  · exact .inr (.inr processed)

theorem process_accounts (held : uid ∈ account.held) (accounted : Accounted account) :
    Accounted (account.process uid) := by
  intro other member
  rcases accounted other member with listed | taken
  · exact .inl listed
  · exact .inr ((process_takes held other).mpr taken.symm).symm

theorem server_keeps {request : Request} {reply : request.Reply} (kept : Kept account)
    (permitted : may account request) (answered : server request account reply after) :
    Kept after ∧ (Accounted account → Accounted after) := by
  obtain ⟨middle, arrives, answers⟩ := answered
  have calm := arrives_calm kept arrives
  have allowed := calm.permits permitted
  refine ⟨answer_keeps calm.kept allowed answers, fun accounted => ?_⟩
  have before := calm.accounted accounted
  by_cases fetched : ∃ uid, request = .command (.fetch uid)
  · obtain ⟨uid, rfl⟩ := fetched
    rcases answers with rfl | ⟨rfl, _⟩
    · exact see_accounts before
    · exact before
  · by_cases marked : ∃ uid, request = .processed uid
    · obtain ⟨uid, rfl⟩ := marked
      obtain rfl : after = _ := answers
      exact process_accounts allowed before
    · exact (answer_calm calm.kept allowed answers (fun uid same => fetched ⟨uid, same⟩)
        fun uid same => marked ⟨uid, same⟩).accounted before

end Keeping

end DearAgent.Imap
