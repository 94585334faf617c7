import DearAgent.Auth.Gates

/-!
# What a signature binds

The signed text is the body, or the sender, a line feed and the body. A line feed in
either of them can stand for the one between them.
-/

namespace DearAgent

open DearAgent.Lib.Text

set_option autoImplicit false

structure Signed where
  body : Str
  sender : Option Str

/-- The text `sign` hands to the HMAC. -/
def Signed.message : Signed → Str
  | ⟨body, none⟩ => body
  | ⟨body, some sender⟩ => sender ++ '\n' :: body

/-- The second is the first with the front of its body, up to a line feed, moved to the
end of its sender. -/
def Signed.Shifted (first second : Signed) : Prop :=
  ∃ front, first.body = front ++ '\n' :: second.body ∧
    second.sender = some (match first.sender with
      | none => front
      | some sender => sender ++ '\n' :: front)

theorem Signed.Shifted.message_eq {first second : Signed} (shifted : first.Shifted second) :
    first.message = second.message := by
  obtain ⟨body, sender⟩ := first
  obtain ⟨body', sender'⟩ := second
  obtain ⟨front, moved, grown⟩ := shifted
  dsimp only at moved grown
  subst moved grown
  cases sender with
  | none => rfl
  | some sender => simp [message]

theorem Signed.Shifted.ne {first second : Signed} (shifted : first.Shifted second) :
    first ≠ second := by
  obtain ⟨front, moved, _⟩ := shifted
  intro same
  have lengths := congrArg List.length moved
  rw [same, List.length_append, List.length_cons] at lengths
  omega

/-- Two texts split at a line feed are one text only if they are split at the same one or
one of them at a later one. -/
theorem split_line_feed {first second rest rest' : Str}
    (same : first ++ '\n' :: rest = second ++ '\n' :: rest') :
    (first = second ∧ rest = rest') ∨
      (∃ front, rest = front ++ '\n' :: rest' ∧ second = first ++ '\n' :: front) ∨
      ∃ front, rest' = front ++ '\n' :: rest ∧ first = second ++ '\n' :: front := by
  rcases List.append_eq_append_iff.mp same with ⟨middle, longer, tail⟩ | ⟨middle, longer, tail⟩
  · cases middle with
    | nil =>
        rw [List.append_nil] at longer
        exact .inl ⟨longer.symm, List.tail_eq_of_cons_eq tail⟩
    | cons c front =>
        rw [List.cons_append, List.cons.injEq] at tail
        obtain ⟨rfl, tail⟩ := tail
        exact .inr (.inl ⟨front, tail, longer⟩)
  · cases middle with
    | nil =>
        rw [List.append_nil] at longer
        exact .inl ⟨longer, (List.tail_eq_of_cons_eq tail).symm⟩
    | cons c front =>
        rw [List.cons_append, List.cons.injEq] at tail
        obtain ⟨rfl, tail⟩ := tail
        exact .inr (.inr ⟨front, tail, longer⟩)

/-- Different pairs are signed as one text exactly if one is the other one shifted. -/
theorem Signed.message_eq_iff (first second : Signed) :
    first.message = second.message ↔
      first = second ∨ first.Shifted second ∨ second.Shifted first := by
  constructor
  · obtain ⟨body, sender⟩ := first
    obtain ⟨body', sender'⟩ := second
    intro same
    cases sender with
    | none =>
        cases sender' with
        | none => exact .inl (congrArg (Signed.mk · none) same)
        | some sender' => exact .inr (.inl ⟨sender', same, rfl⟩)
    | some sender =>
        cases sender' with
        | none => exact .inr (.inr ⟨sender, same.symm, rfl⟩)
        | some sender' =>
            rcases split_line_feed same with ⟨rfl, rfl⟩ | ⟨front, moved, grown⟩ |
              ⟨front, moved, grown⟩
            · exact .inl rfl
            · exact .inr (.inl ⟨front, moved, congrArg some grown⟩)
            · exact .inr (.inr ⟨front, moved, congrArg some grown⟩)
  · intro related
    rcases related with rfl | shifted | shifted
    · rfl
    · exact shifted.message_eq
    · exact shifted.message_eq.symm

section Binding

variable [HmacSha256] {secret : Str} {first second : Signed}

theorem sign_eq (pair : Signed) (secret : Str) :
    sign pair.body secret pair.sender =
      "sha256=".toList ++ HmacSha256.hexdigest secret pair.message := by
  cases pair with
  | mk body sender => cases sender <;> rfl

theorem sign_eq_iff (injective : Function.Injective (HmacSha256.hexdigest secret)) :
    sign first.body secret first.sender = sign second.body secret second.sender ↔
      first.message = second.message := by
  rw [sign_eq, sign_eq, List.append_cancel_left_eq]
  exact injective.eq_iff

theorem authorized_signature {authorizer : InboundAuthorizer} {body : Str} {headers : Headers}
    {sender : Option Str} (authorized : authorizer.authorize body headers sender = .ok ()) :
    headers.lookup signatureHeader = some (sign body authorizer.secret sender) := by
  unfold InboundAuthorizer.authorize at authorized
  simp only at authorized
  split_ifs at authorized with refused missing
  unfold compareDigest at authorized
  split_ifs at authorized with ascii
  · by_cases same : (headers.lookup signatureHeader).getD [] = sign body authorizer.secret sender
    · cases present : headers.lookup signatureHeader with
      | none =>
          rw [present] at missing
          exact absurd rfl missing
      | some signature =>
          rw [present] at same
          rw [← same]
          rfl
    · rw [decide_eq_false same] at authorized
      cases authorized

/-- The signature of one pair is not the one of the other, and no authorizer with the
secret lets the one in for the other. -/
def Binds (secret : Str) (first second : Signed) : Prop :=
  (sign first.body secret first.sender = sign second.body secret second.sender → first = second) ∧
  ∀ (authorizer : InboundAuthorizer) (headers : Headers), authorizer.secret = secret →
    headers.lookup signatureHeader = some (sign first.body secret first.sender) →
    authorizer.authorize second.body headers second.sender = .ok () → first = second

/-- Under an injective digest a signature is bound to its body and sender, as against
another body and sender, exactly if neither pair is the other one with the front of its
body moved to its sender. -/
theorem binds_iff (injective : Function.Injective (HmacSha256.hexdigest secret))
    (first second : Signed) :
    Binds secret first second ↔ ¬first.Shifted second ∧ ¬second.Shifted first := by
  constructor
  · intro binds
    constructor
    · intro shifted
      exact shifted.ne (binds.1 ((sign_eq_iff injective).mpr shifted.message_eq))
    · intro shifted
      exact shifted.ne.symm (binds.1 ((sign_eq_iff injective).mpr shifted.message_eq.symm))
  · intro apart
    have bound (signed : sign first.body secret first.sender =
        sign second.body secret second.sender) : first = second := by
      rcases (Signed.message_eq_iff first second).mp ((sign_eq_iff injective).mp signed) with
        same | shifted | shifted
      · exact same
      · exact absurd shifted apart.1
      · exact absurd shifted apart.2
    refine ⟨bound, ?_⟩
    intro authorizer headers same_secret signature authorized
    have expected := authorized_signature authorized
    rw [signature, same_secret] at expected
    exact bound (Option.some.inj expected)

end Binding

/-- The digests of three texts under the secret `secret`; any other text stands for its own
digest behind a mark no digest has. -/
@[reducible] def recordedDigests : HmacSha256 where
  hexdigest _ message :=
    if message = "task".toList then
      "3835b19d206bfd8606791783a9cfb1c1ef988bd246c4cdefe36561f4f1600211".toList
    else if message = "other".toList then
      "694998fbc58a81cc2cb8cbf2cf80adc7bc868092945a030bdbdc2b20ac276102".toList
    else if message = "a\nb".toList then
      "26e7f5daecb7e04d0a1181dfc06ea4011dd156da92add1b3f4a3c7bd172c2fa3".toList
    else '#' :: message

private theorem recorded_injective {first second third one two three : Str}
    (apart : one ≠ two ∧ one ≠ three ∧ two ≠ three)
    (unmarked : one.head? ≠ some '#' ∧ two.head? ≠ some '#' ∧ three.head? ≠ some '#') :
    Function.Injective fun message : Str =>
      if message = first then one else if message = second then two
      else if message = third then three else '#' :: message := by
  intro message message' same
  dsimp only at same
  split_ifs at same <;> grind

theorem recorded_digests_injective :
    Function.Injective (recordedDigests.hexdigest "secret") :=
  recorded_injective (by decide) (by decide)

theorem binds_two_bodies :
    @Binds recordedDigests "secret" ⟨"task", none⟩ ⟨"other", none⟩ := by
  apply (@binds_iff recordedDigests "secret" recorded_digests_injective _ _).mpr
  constructor
  · intro shifted
    obtain ⟨_, _, grown⟩ := shifted
    cases grown
  · intro shifted
    obtain ⟨_, _, grown⟩ := shifted
    cases grown

/-- A body of two lines without a sender is signed as its second line from a sender that
is its first one, and lets it in. -/
theorem first_line_is_sender :
    Function.Injective (recordedDigests.hexdigest "secret") ∧
      @InboundAuthorizer.authorize recordedDigests { secret := "secret" } "b"
        [(signatureHeader, @sign recordedDigests "a\nb" "secret" none)] (some "a".toList) = .ok () ∧
      ¬@Binds recordedDigests "secret" ⟨"a\nb", none⟩ ⟨"b", some "a".toList⟩ := by
  refine ⟨recorded_digests_injective, by decide, ?_⟩
  intro binds
  have equal := binds.1 rfl
  rw [Signed.mk.injEq] at equal
  cases equal.2

end DearAgent
