import DearAgent.Auth

/-!
# What an admission says about the sender's domain

The gate collects verdicts and domains of all trusted clauses in one map, where the first clause
that states something under a key wins. A verdict is thereby led by one clause and the domain by
another: the domain need not come from a clause that passed, nor need there be a sender to compare
it with.
-/

namespace DearAgent.EmailAuthGate

open DearAgent.Lib.Text DearAgent.Lib.Dictionaries

set_option autoImplicit false

variable [Unicode]

/-- A clause that reports a pass and names the domain it passed for. -/
def ClauseAuthenticates (clause domain : Str) : Prop :=
  (clauseVerdict clause = some ("dmarc".toList, "pass".toList) ∧
      ("dmarc_from".toList, domain) ∈ clauseProperties clause) ∨
    (clauseVerdict clause = some ("dkim".toList, "pass".toList) ∧
      ("dkim_domain".toList, domain) ∈ clauseProperties clause)

def Authenticates (trusted domain : Str) : Prop :=
  ∃ clause ∈ clauses trusted, ClauseAuthenticates clause domain

def trustedText (gate : EmailAuthGate) (headers : Headers) : Option Str :=
  (authenticationResults headers).bind fun raw => trustedAuthenticationResults raw gate.authServId

/-- The domain of the `From` address; none where there is no address. -/
def fromDomain : Option Str → Option Str
  | none => none
  | some sender => if sender.isEmpty then none else some (domainOf sender)

/-- An admitted message comes from an allowed domain that a passing mechanism
authenticated. -/
def AdmitsOnlyAuthenticated (gate : EmailAuthGate) (headers : Headers) (sender : Option Str) :
    Prop :=
  gate.admit headers sender = .ok () →
    ∃ domain ∈ gate.allowedDomains,
      (∃ trusted, gate.trustedText headers = some trusted ∧ Authenticates trusted domain) ∧
        fromDomain sender = some domain

/-- One of the checks on the verdicts fails. -/
def ChecksFail (gate : EmailAuthGate) (verdicts : Verdicts) (sender : Option Str) : Prop :=
  (∃ mechanism ∈ gate.required, verdicts.get mechanism ≠ some "pass".toList) ∨
    pickedDomain verdicts = [] ∨ pickedDomain verdicts ∉ gate.allowedDomains ∨
    ∃ domain, fromDomain sender = some domain ∧ domain ≠ pickedDomain verdicts

def SenderRefused (gate : EmailAuthGate) (sender : Option Str) : Prop :=
  ∃ senders, gate.senders = some senders ∧ SenderAllowlist.admit senders sender ≠ .ok ()

/-!
## The clauses that lead
-/

/-- The two properties that name a domain for the gate. -/
inductive DomainProperty
  | headerFrom
  | headerD

namespace DomainProperty

def key : DomainProperty → Str
  | .headerFrom => "dmarc_from"
  | .headerD => "dkim_domain"

def mechanism : DomainProperty → Str
  | .headerFrom => "dmarc"
  | .headerD => "dkim"

def other : DomainProperty → DomainProperty
  | .headerFrom => .headerD
  | .headerD => .headerFrom

def Names (property : DomainProperty) (clause domain : Str) : Prop :=
  (property.key, domain) ∈ clauseProperties clause

def Passes (property : DomainProperty) (clause : Str) : Prop :=
  clauseVerdict clause = some (property.mechanism, "pass".toList)

end DomainProperty

/-- The clause that the domain is taken from: the first with a `header.from`, or, where there is
none or an empty one, the first with a `header.d`. -/
structure Chosen (property : DomainProperty) (clauses before : List Str) (lead : Str)
    (after : List Str) (domain : Str) : Prop where
  leads : Dict.Leads clauseEntries property.key clauses before lead after domain
  named : domain ≠ []
  precedence : property = .headerD → ∀ earlier clause later from_,
    Dict.Leads clauseEntries DomainProperty.headerFrom.key clauses earlier clause later from_ →
      from_ = []

/-- Neither the clause that leads with the domain passed for it, nor a later clause that names the
domain by the same property, nor any that names it by the other one. -/
structure Unvouched (property : DomainProperty) (clauses : List Str) (lead : Str) (after : List Str)
    (domain : Str) : Prop where
  lead : ¬property.Passes lead
  later : ∀ clause ∈ after, property.Names clause domain → ¬property.Passes clause
  other : ∀ clause ∈ clauses, property.other.Names clause domain → ¬property.other.Passes clause

/-- Each required mechanism is first reported to pass, the domain is allowed, and yet there is no
sender to compare with it, or the sender is of that domain and no clause vouches for it. -/
def LetsUnvouchedIn (gate : EmailAuthGate) (clauses : List Str) (sender : Option Str) : Prop :=
  ∃ property before lead after domain, Chosen property clauses before lead after domain ∧
    domain ∈ gate.allowedDomains ∧
    (∀ mechanism ∈ gate.required, ∃ earlier clause later,
      Dict.Leads clauseEntries mechanism clauses earlier clause later "pass".toList) ∧
    (fromDomain sender = none ∨
      fromDomain sender = some domain ∧ Unvouched property clauses lead after domain)

/-- The allowlist refuses the sender, or the trusted clauses let no such domain in. -/
def OnlyVouched (gate : EmailAuthGate) (headers : Headers) (sender : Option Str) : Prop :=
  gate.SenderRefused sender ∨ ∀ trusted, gate.trustedText headers = some trusted →
    ¬gate.LetsUnvouchedIn (clauses trusted) sender

theorem parsed_leads (trusted key value : Str) :
    (parseAuthenticationResults trusted).get key = some value ↔
      ∃ before lead after,
        Dict.Leads clauseEntries key (clauses trusted) before lead after value :=
  Dict.get_flat_map_eq_some_iff clauseEntries (clauses trusted) key value

theorem names_iff (property : DomainProperty) (clause domain : Str) :
    (property.key, domain) ∈ clauseEntries clause ↔ property.Names clause domain := by
  unfold clauseEntries
  rw [List.mem_append]
  constructor
  · intro stated
    cases stated with
    | inl verdict =>
        have listed := (List.mem_filter.mp verdict).2
        cases property <;> cases listed
    | inr named => exact named
  · exact Or.inr

theorem clause_authenticates_iff (property : DomainProperty) (clause domain : Str) :
    ClauseAuthenticates clause domain ↔
      property.Passes clause ∧ property.Names clause domain ∨
        property.other.Passes clause ∧ property.other.Names clause domain := by
  cases property with
  | headerFrom => exact Iff.rfl
  | headerD => exact or_comm

/-- Vouching is decided by the leading clause, the clauses behind it and the other property. -/
theorem authenticates_iff {property : DomainProperty} {trusted lead domain : Str}
    {before after : List Str}
    (chosen : Chosen property (clauses trusted) before lead after domain) :
    Authenticates trusted domain ↔ ¬Unvouched property (clauses trusted) lead after domain := by
  have named := (names_iff property lead domain).mp chosen.leads.mem
  constructor
  · intro authenticated unvouched
    obtain ⟨clause, member, passes⟩ := authenticated
    cases (clause_authenticates_iff property clause domain).mp passes with
    | inr other => exact unvouched.other clause member other.2 other.1
    | inl own =>
        rw [chosen.leads.split] at member
        cases List.mem_append.mp member with
        | inl earlier =>
            exact chosen.leads.silent clause earlier domain ((names_iff _ _ _).mpr own.2)
        | inr rest =>
            cases List.mem_cons.mp rest with
            | inl leading => exact unvouched.lead (leading ▸ own.1)
            | inr later => exact unvouched.later clause later own.2 own.1
  · intro vouched
    by_contra unauthenticated
    have none : ∀ clause ∈ clauses trusted, ¬ClauseAuthenticates clause domain :=
      fun clause member passes => unauthenticated ⟨clause, member, passes⟩
    have behind : ∀ clause ∈ lead :: after, clause ∈ clauses trusted := by
      intro clause member
      rw [chosen.leads.split]
      exact List.mem_append_right _ member
    have own : ∀ clause ∈ lead :: after,
        property.Names clause domain → ¬property.Passes clause := by
      intro clause member names passes
      exact none clause (behind clause member)
        ((clause_authenticates_iff property clause domain).mpr (.inl ⟨passes, names⟩))
    apply vouched
    constructor
    · exact own lead List.mem_cons_self named
    · exact fun clause later => own clause (List.mem_cons_of_mem _ later)
    · intro clause member names passes
      exact none clause member
        ((clause_authenticates_iff property clause domain).mpr (.inr ⟨passes, names⟩))

theorem picked_domain_iff (trusted : Str) {domain : Str} (named : domain ≠ []) :
    pickedDomain (parseAuthenticationResults trusted) = domain ↔
      ∃ property before lead after,
        Chosen property (clauses trusted) before lead after domain := by
  have leading := fun property value => parsed_leads trusted (DomainProperty.key property) value
  have picks : pickedDomain (parseAuthenticationResults trusted) =
      Queue.orElse ((parseAuthenticationResults trusted).get DomainProperty.headerFrom.key)
        (((parseAuthenticationResults trusted).get DomainProperty.headerD.key).getD []) := rfl
  rw [picks]
  constructor
  · intro picked
    by_cases falls : ∀ from_, (parseAuthenticationResults trusted).get
        DomainProperty.headerFrom.key = some from_ → from_ = []
    · rw [Queue.or_else_of_empty falls] at picked
      cases second : (parseAuthenticationResults trusted).get DomainProperty.headerD.key with
      | none =>
          rw [second] at picked
          exact absurd picked.symm named
      | some signed =>
          rw [second] at picked
          obtain ⟨before, lead, after, leads⟩ := (leading .headerD signed).mp second
          cases picked
          refine ⟨.headerD, before, lead, after, leads, named, ?_⟩
          intro _ earlier clause later from_ first
          exact falls from_ ((leading .headerFrom from_).mpr ⟨earlier, clause, later, first⟩)
    · push Not at falls
      obtain ⟨from_, found, given⟩ := falls
      rw [found, Queue.or_else_of_given given] at picked
      obtain ⟨before, lead, after, leads⟩ := (leading .headerFrom from_).mp found
      cases picked
      exact ⟨.headerFrom, before, lead, after, leads, named, fun other => nomatch other⟩
  · intro chosen
    obtain ⟨property, before, lead, after, chosen⟩ := chosen
    have stated := (leading property domain).mpr ⟨before, lead, after, chosen.leads⟩
    cases property with
    | headerFrom => rw [stated, Queue.or_else_of_given named]
    | headerD =>
        rw [Queue.or_else_of_empty, stated]
        · rfl
        · intro from_ found
          obtain ⟨earlier, clause, later, first⟩ := (leading .headerFrom from_).mp found
          exact chosen.precedence rfl earlier clause later from_ first

theorem from_domain_mismatch_iff (sender : Option Str) (domain : Str) :
    (Queue.truthy sender && domainOf (sender.getD []) ≠ domain) = true ↔
      ∃ other, fromDomain sender = some other ∧ other ≠ domain := by
  cases sender with
  | none => simp [Queue.truthy, fromDomain]
  | some address =>
      by_cases empty : address.isEmpty <;> simp [Queue.truthy, fromDomain, empty]

theorem check_verdicts_ok_iff (gate : EmailAuthGate) (configured : gate.allowedDomains ≠ [])
    (verdicts : Verdicts) (sender : Option Str) :
    gate.checkVerdicts verdicts sender = .ok () ↔ ¬gate.ChecksFail verdicts sender := by
  unfold checkVerdicts ChecksFail
  split
  · rename_i mechanism found
    have failing := List.find?_some found
    have member := List.mem_of_find?_eq_some found
    constructor
    · intro admitted
      cases admitted
    · intro passing
      exact absurd (.inl ⟨mechanism, member, by simpa using failing⟩) passing
  · rename_i missing
    have passed : ¬∃ mechanism ∈ gate.required, verdicts.get mechanism ≠ some "pass".toList := by
      rintro ⟨mechanism, member, failing⟩
      have kept := List.find?_eq_none.mp missing mechanism member
      exact kept (decide_eq_true failing)
    have mismatch := from_domain_mismatch_iff sender (pickedDomain verdicts)
    simp only
    split_ifs with empty outside other
    · simp [List.isEmpty_iff.mp empty]
    · have notAllowed : pickedDomain verdicts ∉ gate.allowedDomains := by
        simpa [configured] using outside
      simp [notAllowed]
    · simp [mismatch.mp other]
    · have allowed : pickedDomain verdicts ∈ gate.allowedDomains := by
        simpa [configured] using outside
      have named : pickedDomain verdicts ≠ [] := fun nothing => empty (by simp [nothing])
      have aligned := mt mismatch.mpr other
      simp only [true_iff]
      rintro (failing | nothing | outsider | clash)
      · exact passed failing
      · exact named nothing
      · exact outsider allowed
      · exact aligned clash

theorem admit_headers_ok_iff (gate : EmailAuthGate) (headers : Headers) (sender : Option Str) :
    gate.admitHeaders headers sender = .ok () ↔
      ∃ trusted, gate.trustedText headers = some trusted ∧
        gate.checkVerdicts (parseAuthenticationResults trusted) sender = .ok () := by
  unfold admitHeaders trustedText
  cases authenticationResults headers with
  | none => simp
  | some raw =>
      simp only [Option.bind_some]
      cases trustedAuthenticationResults raw gate.authServId with
      | none => simp
      | some trusted => simp

theorem admit_ok_iff (gate : EmailAuthGate) (headers : Headers) (sender : Option Str) :
    gate.admit headers sender = .ok () ↔ ¬gate.SenderRefused sender ∧
      ∃ trusted, gate.trustedText headers = some trusted ∧
        gate.checkVerdicts (parseAuthenticationResults trusted) sender = .ok () := by
  rw [← admit_headers_ok_iff]
  unfold EmailAuthGate.admit SenderRefused
  cases listed : gate.senders with
  | none => simp
  | some senders =>
      cases outcome : SenderAllowlist.admit senders sender with
      | ok _ => simp [bind, Except.bind, outcome]
      | error error => simp [bind, Except.bind, outcome]

theorem unvouched_checked (gate : EmailAuthGate) {trusted : Str} {sender : Option Str}
    (unvouched : gate.LetsUnvouchedIn (clauses trusted) sender) :
    ¬gate.ChecksFail (parseAuthenticationResults trusted) sender ∧
      ∀ domain, fromDomain sender = some domain → ¬Authenticates trusted domain := by
  obtain ⟨property, before, lead, after, domain, chosen, allowed, passes, fault⟩ := unvouched
  have picked := (picked_domain_iff trusted chosen.named).mpr ⟨_, _, _, _, chosen⟩
  constructor
  · intro fails
    rw [ChecksFail, picked] at fails
    obtain ⟨mechanism, required, failing⟩ | empty | outside | clash := fails
    · exact failing ((parsed_leads trusted mechanism _).mpr (passes mechanism required))
    · exact chosen.named empty
    · exact outside allowed
    · obtain ⟨other, aligned, different⟩ := clash
      cases fault with
      | inl absent =>
          rw [absent] at aligned
          cases aligned
      | inr present =>
          rw [present.1] at aligned
          exact different (Option.some.inj aligned).symm
  · intro other aligned authenticated
    cases fault with
    | inl absent =>
        rw [absent] at aligned
        cases aligned
    | inr present =>
        have own : domain = other := Option.some.inj (present.1.symm.trans aligned)
        rw [← own] at authenticated
        exact (authenticates_iff chosen).mp authenticated present.2

theorem vouched_authenticates (gate : EmailAuthGate) {trusted : Str} {sender : Option Str}
    (vouched : ¬gate.LetsUnvouchedIn (clauses trusted) sender)
    (checked : ¬gate.ChecksFail (parseAuthenticationResults trusted) sender) :
    ∃ domain ∈ gate.allowedDomains, Authenticates trusted domain ∧
      fromDomain sender = some domain := by
  unfold ChecksFail at checked
  push Not at checked
  obtain ⟨passes, named, allowed, aligned⟩ := checked
  obtain ⟨property, before, lead, after, chosen⟩ := (picked_domain_iff trusted named).mp rfl
  have required : ∀ mechanism ∈ gate.required, ∃ earlier clause later,
      Dict.Leads clauseEntries mechanism (clauses trusted) earlier clause later "pass".toList :=
    fun mechanism member => (parsed_leads trusted mechanism _).mp (passes mechanism member)
  cases present : fromDomain sender with
  | none => exact absurd ⟨_, _, _, _, _, chosen, allowed, required, .inl present⟩ vouched
  | some domain =>
      have own := aligned domain present
      have authenticated :
          Authenticates trusted (pickedDomain (parseAuthenticationResults trusted)) := by
        apply (authenticates_iff chosen).mpr
        intro unvouched
        rw [own] at present
        exact vouched ⟨_, _, _, _, _, chosen, allowed, required, .inr ⟨present, unvouched⟩⟩
      exact ⟨_, allowed, authenticated, by rw [own]⟩

/-- The gate admits only what a passing clause names exactly where its trusted clauses let nothing
else in: the clause that leads with the domain, or another one for the same domain, passed, and
there is a sender to compare it with. -/
theorem admits_only_authenticated_iff (gate : EmailAuthGate)
    (configured : gate.allowedDomains ≠ []) (headers : Headers) (sender : Option Str) :
    gate.AdmitsOnlyAuthenticated headers sender ↔ gate.OnlyVouched headers sender := by
  unfold AdmitsOnlyAuthenticated OnlyVouched
  rw [admit_ok_iff]
  constructor
  · intro sound
    by_cases refused : gate.SenderRefused sender
    · exact .inl refused
    · right
      intro trusted found unvouched
      have fooled := unvouched_checked gate unvouched
      have admitted := (check_verdicts_ok_iff gate configured _ sender).mpr fooled.1
      obtain ⟨domain, _, ⟨text, located, authenticated⟩, aligned⟩ :=
        sound ⟨refused, trusted, found, admitted⟩
      have same : trusted = text := Option.some.inj (found.symm.trans located)
      rw [← same] at authenticated
      exact fooled.2 domain aligned authenticated
  · intro vouched admitted
    obtain ⟨accepted, trusted, found, passed⟩ := admitted
    have checked := (check_verdicts_ok_iff gate configured _ sender).mp passed
    have sound := vouched.resolve_left accepted trusted found
    obtain ⟨domain, allowed, authenticated, aligned⟩ := vouched_authenticates gate sound checked
    exact ⟨domain, allowed, ⟨trusted, found, authenticated⟩, aligned⟩

section Example

omit [Unicode]

def spfGate : EmailAuthGate where
  required := ["spf".toList]
  allowedDomains := ["example.org".toList]

/-- A trusted field that reports the attacker's SPF pass and the failed DMARC of
the domain the message claims. -/
def spfOnlyHeaders : Headers :=
  [("Authentication-Results".toList, "mx.messagingengine.com; spf=pass smtp.mailfrom=attacker.net; dmarc=fail header.from=example.org".toList)]

theorem spf_gate_decision :
    let _ := asciiTables
    spfGate.AdmitsOnlyAuthenticated spfOnlyHeaders (some "a@example.org".toList) ↔
      spfGate.OnlyVouched spfOnlyHeaders (some "a@example.org".toList) :=
  let _ := asciiTables
  admits_only_authenticated_iff spfGate (by decide) spfOnlyHeaders (some "a@example.org".toList)

/-- The message is admitted although no passing clause names its domain. -/
theorem spf_gate_admits_failed_dmarc :
    let _ := asciiTables
    spfGate.admit spfOnlyHeaders (some "a@example.org".toList) = .ok () ∧
      ¬spfGate.AdmitsOnlyAuthenticated spfOnlyHeaders (some "a@example.org".toList) := by
  let _ := asciiTables
  have admitted : spfGate.admit spfOnlyHeaders (some "a@example.org".toList) = .ok () := by
    decide +kernel
  refine ⟨admitted, fun sound => ?_⟩
  obtain ⟨domain, allowed, ⟨trusted, found, clause, member, authenticated⟩, _⟩ := sound admitted
  have text : spfGate.trustedText spfOnlyHeaders = spfOnlyHeaders.head?.map (·.2) := by
    decide +kernel
  have unauthenticated : ∀ clause ∈ clauses (spfOnlyHeaders.head?.map (·.2)).get!,
      clauseVerdict clause ≠ some ("dmarc".toList, "pass".toList) ∧
        clauseVerdict clause ≠ some ("dkim".toList, "pass".toList) := by decide
  obtain rfl : (spfOnlyHeaders.head?.map (·.2)).get! = trusted := by
    rw [text] at found
    rw [found]
    rfl
  have neither := unauthenticated clause member
  rcases authenticated with ⟨passed, _⟩ | ⟨passed, _⟩
  · exact neither.1 passed
  · exact neither.2 passed

end Example

end DearAgent.EmailAuthGate
