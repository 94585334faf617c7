import DearAgent.Inbound
import DearAgent.Lib.Sha2

/-!
# When the front end is total

Every field of a payload is converted by its own expression, and the signature is compared
as a text. What each of them raises is never one of the errors that are declared, so that
the front end is total exactly where none of them raises anything.
-/

namespace DearAgent.Inbound

open DearAgent.Lib.Text DearAgent.Lib.CodePoints DearAgent.Lib.Values DearAgent.Lib.Json
open DearAgent.Queue (Instant)

set_option autoImplicit false

section Total

/-- `str | None`. -/
def TextOrNull (value : Value) : Prop := value = .null ∨ ∃ s, value = .str s

/-- The fields of a message that its type does not tell have the type they are declared with. -/
structure RawMessage.WellFormed (message : RawMessage) : Prop where
  threadId : TextOrNull message.threadId
  sender : TextOrNull message.sender
  subject : TextOrNull message.subject

variable [Unicode] [Interpreter]

/-- Nothing but what is declared comes of a request with this payload and these headers,
whatever the time is and whoever was admitted before. -/
structure Total [HmacSha256] (gate : InboundGate) (payload : List UInt8)
    (headers : List (PyStr × PyStr)) : Prop where
  parses : ∀ error, parseMessage payload = .error error → error.isA "InboundError" = true
  wellFormed : ∀ message, parseMessage payload = .ok message → message.WellFormed
  admits : ∀ message, parseMessage payload = .ok message → ∀ now seen error,
    (admitted gate (decodeReplacing payload) headers message.sender now seen).1 = .error error →
      error.isA "AuthError" = true
  answers : ∀ now seen, ∃ answer,
    (InboundWebhook.call (some gate) payload headers now seen).1 = .ok answer

structure Converts (item : List (PyStr × Value)) : Prop where
  name : ∃ text, (getOr (.str []) "name" item).text = .ok text
  contentType : ∃ text, (getOr (.str []) "content_type" item).text = .ok text
  size : ∃ n, (orZero (getOr (.int 0) "size" item)).toInt = .ok n

/-- The allowlist lets a sender pass that it holds; an empty one lets everybody pass. -/
def Passes (authorizer : InboundAuthorizer) (sender : Value) : Prop :=
  authorizer.allowlist = [] ∨ ∃ allowed ∈ authorizer.allowlist, sender = .str (ofText allowed)

/-- The signature, where it comes to that, can be compared. -/
def Comparable (authorizer : InboundAuthorizer) (headers : List (PyStr × PyStr)) (sender : Value) :
    Prop :=
  Passes authorizer sender → signatureOf headers ≠ [] →
    (∀ s, sender = .str s → s.any isSurrogate = false) ∧ isAscii (signatureOf headers) = true

/-- What is left of an object once its id, its body and its headers are accepted. -/
structure Harmless (gate : InboundGate) (fields : List (PyStr × Value))
    (headers : List (PyStr × PyStr)) (data : List (PyStr × Value)) : Prop where
  attachments : ∃ items, (getOr (.list []) "attachments" data).iterate = .ok items ∧
    ∀ item, .dict item ∈ items → Converts item
  fieldTexts : ∀ field ∈ fields, ∃ text, field.2.text = .ok text
  threadId : TextOrNull (getOr .null "thread_id" data)
  sender : TextOrNull (getOr .null "sender" data)
  subject : TextOrNull (getOr .null "subject" data)
  comparable : Comparable gate.authorizer headers (getOr .null "sender" data)

/-- The payload can be decoded, no `int` in it is too long and it does not nest too deep;
and what its checks accept is harmless. -/
structure Readable (gate : InboundGate) (payload : List UInt8) (headers : List (PyStr × PyStr)) :
    Prop where
  decodes : loads (orEmpty payload) ≠ .error unicodeDecodeError
  short : loads (orEmpty payload) ≠ .error valueError
  shallow : loads (orEmpty payload) ≠ .error recursionError
  harmless : ∀ data, loads (orEmpty payload) = .ok (.dict data) → (idOf data).isSome →
    (bodyOf data).isSome → ∀ fields, headersOf data = some fields →
      Harmless gate fields headers data

end Total

section Parsing

theorem builtin_is_no_inbound {error : Raised} (builtin : error ∈ builtinErrors) :
    error.isA "InboundError" = false ∧ error.isA "AuthError" = false := by
  have each : ∀ error ∈ builtinErrors,
      error.isA "InboundError" = false ∧ error.isA "AuthError" = false := by decide
  exact each error builtin

theorem auth_error_is_auth (className : Str) (text : PyStr) :
    (authError className text).isA "AuthError" = true := by
  have classes : ["AuthError".toList, "Exception".toList].contains "AuthError".toList = true := by
    decide
  change (className :: ["AuthError".toList, "Exception".toList]).contains "AuthError".toList = true
  rw [List.contains_cons, classes, Bool.or_true]

theorem inbound_error_is_inbound (text : Str) : (inboundError text).isA "InboundError" = true := by
  have classes : ["InboundError".toList, "ValueError".toList, "Exception".toList].contains
      "InboundError".toList = true := by decide
  exact classes

theorem require_some {α : Type} (found : α) (text : Str) : require (some found) text = .ok found :=
  rfl

theorem mem_filter_entries_iff (item : List (PyStr × Value)) (items : List Value) :
    item ∈ items.filterMap Value.entries? ↔ .dict item ∈ items := by
  rw [List.mem_filterMap]
  constructor
  · rintro ⟨value, member, found⟩
    rw [entries_eq_some_iff.mp found] at member
    exact member
  · exact fun member => ⟨_, member, rfl⟩

variable [Interpreter] {payload : List UInt8} {error : Raised} {message : RawMessage}
  {transportId body : PyStr} {fields data : List (PyStr × Value)}

structure Checked (payload : List UInt8) (transportId body : PyStr)
    (fields data : List (PyStr × Value)) : Prop where
  loaded : loads (orEmpty payload) = .ok (.dict data)
  id : idOf data = some transportId
  body : bodyOf data = some body
  fields : headersOf data = some fields

theorem load_ok {value : Value} (loaded : loads (orEmpty payload) = .ok value) :
    load payload = .ok value := by
  unfold load
  rw [loaded]

/-- Of what `json.loads` raises `parse_message` catches only what is no valid JSON. -/
theorem load_error (raised : loads (orEmpty payload) = .error error) :
    load payload =
      .error (if error = jsonDecodeError then inboundError "body is not valid JSON" else error) := by
  unfold load
  rw [raised]
  simp only [is_json_decode_error_iff (loads_raises raised)]

variable [Unicode]

theorem Checked.parses (checked : Checked payload transportId body fields data) :
    parseMessage payload = messageOf transportId body fields data := by
  unfold parseMessage
  simp only [load_ok checked.loaded, ok_bind, Value.entries?, require_some, checked.id, checked.body,
    checked.fields]

/-- What `parse_message` does: it does not catch what `json.loads` raises, it refuses, or it
converts the fields of an object. -/
theorem parse_cases (payload : List UInt8) :
    (∃ error, loads (orEmpty payload) = .error error ∧ error ≠ jsonDecodeError ∧
        parseMessage payload = .error error) ∨
      (∃ text, parseMessage payload = .error (inboundError text)) ∨
      ∃ transportId body fields data, Checked payload transportId body fields data := by
  cases loaded : loads (orEmpty payload) with
  | error error =>
      have raised : parseMessage payload =
          .error (if error = jsonDecodeError then inboundError "body is not valid JSON" else error) := by
        unfold parseMessage
        rw [load_error loaded, error_bind]
      by_cases invalid : error = jsonDecodeError
      · rw [if_pos invalid] at raised
        exact .inr (.inl ⟨_, raised⟩)
      · rw [if_neg invalid] at raised
        exact .inl ⟨error, rfl, invalid, raised⟩
  | ok value =>
      right
      unfold parseMessage
      rw [load_ok loaded, ok_bind]
      cases object : value.entries? with
      | none => exact .inl ⟨_, rfl⟩
      | some data =>
          have dict := entries_eq_some_iff.mp object
          rw [require_some, ok_bind]
          cases id : idOf data with
          | none => exact .inl ⟨_, rfl⟩
          | some transportId =>
              rw [require_some, ok_bind]
              cases text : bodyOf data with
              | none => exact .inl ⟨_, rfl⟩
              | some body =>
                  rw [require_some, ok_bind]
                  cases headers : headersOf data with
                  | none => exact .inl ⟨_, rfl⟩
                  | some fields =>
                      exact .inr ⟨transportId, body, fields, data,
                        ⟨loaded.trans (congrArg Except.ok dict), id, text, headers⟩⟩

/-- Everything in an object that is converted can be. -/
def Convertible (fields data : List (PyStr × Value)) : Prop :=
  (∃ items, (getOr (.list []) "attachments" data).iterate = .ok items ∧
    ∀ item, .dict item ∈ items → Converts item) ∧
  ∀ field ∈ fields, ∃ text, field.2.text = .ok text

theorem attachment_of_returns_iff (item : List (PyStr × Value)) :
    (∃ attachment, attachmentOf item = .ok attachment) ↔ Converts item := by
  unfold attachmentOf
  constructor
  · rintro ⟨attachment, returned⟩
    obtain ⟨name, named, returned⟩ := bind_returns_iff.mp returned
    obtain ⟨contentType, typed, returned⟩ := bind_returns_iff.mp returned
    obtain ⟨size, sized, _⟩ := bind_returns_iff.mp returned
    exact ⟨⟨name, named⟩, ⟨contentType, typed⟩, ⟨size, sized⟩⟩
  · rintro ⟨⟨name, named⟩, ⟨contentType, typed⟩, ⟨size, sized⟩⟩
    rw [named, ok_bind, typed, ok_bind, sized, ok_bind]
    exact ⟨_, rfl⟩

theorem message_of_returns_iff :
    (∃ message, messageOf transportId body fields data = .ok message) ↔ Convertible fields data := by
  unfold messageOf attachmentsOf Convertible
  have texts : (∃ results, fields.mapM headerText = .ok results) ↔
      ∀ field ∈ fields, ∃ text, field.2.text = .ok text := by
    rw [map_m_returns_iff]
    exact forall₂_congr fun field _ => map_returns_iff
  rw [← texts]
  constructor
  · rintro ⟨message, returned⟩
    obtain ⟨attachments, converted, returned⟩ := bind_returns_iff.mp returned
    obtain ⟨headers, written, _⟩ := bind_returns_iff.mp returned
    obtain ⟨items, iterated, converted⟩ := bind_returns_iff.mp converted
    have each := map_m_returns_iff.mp ⟨attachments, converted⟩
    refine ⟨⟨items, iterated, fun item member => ?_⟩, headers, written⟩
    exact (attachment_of_returns_iff item).mp
      (each item ((mem_filter_entries_iff item items).mpr member))
  · rintro ⟨⟨items, iterated, converts⟩, headers, written⟩
    obtain ⟨attachments, converted⟩ := (@map_m_returns_iff _ _ _ attachmentOf
      (items.filterMap Value.entries?)).mpr fun item member =>
        (attachment_of_returns_iff item).mpr
          (converts item ((mem_filter_entries_iff item items).mp member))
    rw [iterated, ok_bind, converted, ok_bind, written, ok_bind]
    exact ⟨_, rfl⟩

theorem attachment_of_raises {item : List (PyStr × Value)}
    (raised : attachmentOf item = .error error) : error ∈ builtinErrors := by
  unfold attachmentOf at raised
  rcases bind_raises_iff.mp raised with raised | ⟨_, _, raised⟩
  · exact text_raises raised
  · rcases bind_raises_iff.mp raised with raised | ⟨_, _, raised⟩
    · exact text_raises raised
    · exact to_int_raises (map_raises_iff.mp raised)

theorem message_of_raises (raised : messageOf transportId body fields data = .error error) :
    error ∈ builtinErrors := by
  unfold messageOf attachmentsOf at raised
  rcases bind_raises_iff.mp raised with raised | ⟨_, _, raised⟩
  · rcases bind_raises_iff.mp raised with raised | ⟨_, _, raised⟩
    · exact iterate_raises raised
    · obtain ⟨item, _, raised⟩ := map_m_raises raised
      exact attachment_of_raises raised
  · obtain ⟨field, _, raised⟩ := map_m_raises (map_raises_iff.mp raised)
    exact text_raises (map_raises_iff.mp raised)

theorem message_of_fields (returned : messageOf transportId body fields data = .ok message) :
    message.threadId = getOr .null "thread_id" data ∧ message.sender = getOr .null "sender" data ∧
      message.subject = getOr .null "subject" data := by
  obtain ⟨attachments, _, returned⟩ := bind_returns_iff.mp returned
  obtain ⟨headers, _, returned⟩ := bind_returns_iff.mp returned
  have same := Except.ok.inj returned
  rw [← same]
  exact ⟨rfl, rfl, rfl⟩

end Parsing

section Admitting

variable {error : Raised} {authorizer : InboundAuthorizer} {body : PyStr}
  {headers : List (PyStr × PyStr)} {sender : Value}

theorem hashed_of_typed (typed : TextOrNull sender) : hashed sender = .ok () := by
  rcases typed with rfl | ⟨s, rfl⟩
  · rfl
  · rfl

theorem any_surrogate_append (s t : PyStr) :
    (s ++ ofChar '\n' :: t).any isSurrogate = (s.any isSurrogate || t.any isSurrogate) := by
  have line_feed : isSurrogate (ofChar '\n') = false := by decide
  rw [List.any_append, List.any_cons, line_feed, Bool.false_or]

theorem is_in_typed (allowlist : List Str) (typed : TextOrNull sender) :
    ∃ found, isIn allowlist sender = .ok found ∧
      (found = true ↔ ∃ allowed ∈ allowlist, sender = .str (ofText allowed)) := by
  unfold isIn
  rw [hashed_of_typed typed, ok_bind]
  refine ⟨_, rfl, ?_⟩
  rcases typed with rfl | ⟨s, rfl⟩
  · apply iff_of_false Bool.false_ne_true
    rintro ⟨_, _, never⟩
    cases never
  · change (allowlist.any fun allowed => decide (ofText allowed = s)) = true ↔ _
    rw [List.any_eq_true]
    constructor
    · rintro ⟨allowed, member, same⟩
      exact ⟨allowed, member, congrArg Value.str (of_decide_eq_true same).symm⟩
    · rintro ⟨allowed, member, same⟩
      exact ⟨allowed, member, decide_eq_true (Value.str.inj same).symm⟩

theorem allows_typed (typed : TextOrNull sender) :
    ∃ allowed, allows authorizer sender = .ok allowed ∧
      (allowed = true ↔ Passes authorizer sender) := by
  unfold allows Passes
  by_cases empty : authorizer.allowlist = []
  · exact ⟨true, if_pos (List.isEmpty_iff.mpr empty), iff_of_true rfl (.inl empty)⟩
  · obtain ⟨found, looked, inside⟩ := is_in_typed authorizer.allowlist typed
    refine ⟨found, ?_, ?_⟩
    · rw [if_neg (mt List.isEmpty_iff.mp empty), looked]
    · rw [inside, or_iff_right empty]

variable [Unicode] [Interpreter]

theorem signed_text_typed (body : PyStr) (typed : TextOrNull sender) :
    ∃ message, signedText body sender = .ok message ∧
      (body.any isSurrogate = false →
        (message.any isSurrogate = false ↔ ∀ s, sender = .str s → s.any isSurrogate = false)) := by
  rcases typed with rfl | ⟨s, rfl⟩
  · refine ⟨body, rfl, fun plain => iff_of_true plain ?_⟩
    intro s never
    cases never
  · refine ⟨s ++ ofChar '\n' :: body, rfl, fun plain => ?_⟩
    rw [any_surrogate_append, plain, Bool.or_false]
    constructor
    · intro own other same
      cases same
      exact own
    · exact fun each => each s rfl

section Signing

variable [HmacHex]

theorem sign_typed (secret : Str) (plain : body.any isSurrogate = false) (typed : TextOrNull sender) :
    ((∀ s, sender = .str s → s.any isSurrogate = false) ∧
        ∃ expected, sign body secret sender = .ok expected ∧ isAscii expected = true) ∨
      (¬∀ s, sender = .str s → s.any isSurrogate = false) ∧
        sign body secret sender = .error unicodeEncodeError := by
  obtain ⟨message, signed, encodes⟩ := signed_text_typed body typed
  unfold sign
  rw [signed, ok_bind]
  cases encoded : toText? message with
  | none =>
      refine .inr ⟨fun each => ?_, rfl⟩
      have lone := (to_text_eq_none_iff message).mp encoded
      rw [(encodes plain).mpr each] at lone
      cases lone
  | some text =>
      refine .inl ⟨(encodes plain).mp ?_, _, rfl, ?_⟩
      · rw [Bool.eq_false_iff]
        intro lone
        rw [(to_text_eq_none_iff message).mpr lone] at encoded
        cases encoded
      · unfold isAscii ofText
        rw [List.all_map, List.all_append, Bool.and_eq_true]
        refine ⟨by decide, List.all_eq_true.mpr fun c member => ?_⟩
        exact decide_eq_true (HmacHex.hex secret text c member)

/-- For a sender of the declared type `authorize` raises nothing but an `AuthError` exactly
if the signature can be compared where it comes to that. -/
theorem authorize_declared_iff (plain : body.any isSurrogate = false) (typed : TextOrNull sender) :
    (∀ error, authorize authorizer body headers sender = .error error →
        error.isA "AuthError" = true) ↔ Comparable authorizer headers sender := by
  obtain ⟨allowed, looked, passes⟩ := @allows_typed authorizer sender typed
  unfold authorize Comparable
  rw [looked, ok_bind, ← passes]
  cases allowed with
  | false =>
      refine iff_of_true (fun error raised => ?_) fun never => absurd never Bool.false_ne_true
      cases raised
      exact auth_error_is_auth _ _
  | true =>
      rw [Bool.not_true, if_neg Bool.false_ne_true, forall_prop_of_true rfl]
      by_cases unsigned : signatureOf headers = []
      · refine iff_of_true (fun error raised => ?_) fun never => absurd unsigned never
        rw [if_pos (List.isEmpty_iff.mpr unsigned)] at raised
        cases raised
        exact auth_error_is_auth _ _
      · rw [if_neg (mt List.isEmpty_iff.mp unsigned), forall_prop_of_true unsigned]
        rcases sign_typed authorizer.secret plain typed with ⟨encodes, expected, signed, ascii⟩ |
          ⟨lone, refused⟩
        · rw [signed, ok_bind, and_iff_right encodes]
          unfold compareDigest
          rw [ascii, Bool.and_true]
          cases isAscii (signatureOf headers) with
          | false =>
              apply iff_of_false
              · intro declared
                have auth := declared typeError rfl
                rw [(builtin_is_no_inbound (by simp [builtinErrors])).2] at auth
                cases auth
              · exact Bool.false_ne_true
          | true =>
              refine iff_of_true (fun error raised => ?_) rfl
              rw [if_pos rfl, ok_bind] at raised
              split_ifs at raised
              cases raised
              exact auth_error_is_auth _ _
        · apply iff_of_false
          · intro declared
            have auth := declared unicodeEncodeError (by rw [refused, error_bind])
            rw [(builtin_is_no_inbound (by simp [builtinErrors])).2] at auth
            cases auth
          · exact fun comparable => lone comparable.1

omit [HmacHex] in
/-- Of a sender of the declared type the limiter says nothing but that it was too often. -/
theorem check_declared {limiter : RateLimiter} {now : Instant} {seen : Seen}
    (typed : TextOrNull sender) (raised : (check limiter sender now seen).1 = .error error) :
    error.isA "AuthError" = true := by
  have key : hashed (keyOf sender) = .ok () := by
    apply hashed_of_typed
    unfold keyOf
    split_ifs
    · exact typed
    · exact .inr ⟨_, rfl⟩
  unfold check at raised
  simp only [key] at raised
  split_ifs at raised
  cases raised
  exact auth_error_is_auth _ _

theorem admitted_declared_iff (gate : InboundGate) (plain : body.any isSurrogate = false)
    (typed : TextOrNull sender) :
    (∀ now seen error, (admitted gate body headers sender now seen).1 = .error error →
        error.isA "AuthError" = true) ↔ Comparable gate.authorizer headers sender := by
  rw [← authorize_declared_iff plain typed]
  unfold admitted
  constructor
  · intro declared error raised
    apply declared 0 [] error
    rw [raised]
  · intro declared now seen error raised
    cases authorized : authorize gate.authorizer body headers sender with
    | error other =>
        rw [authorized] at raised
        cases raised
        exact declared error authorized
    | ok _ =>
        rw [authorized] at raised
        exact check_declared typed raised

end Signing

end Admitting

section Webhook

variable [Unicode] [Interpreter] {gate : InboundGate} {payload : List UInt8}
  {headers : List (PyStr × PyStr)}

theorem parse_of_failed {error : Raised} (raised : loads (orEmpty payload) = .error error)
    (other : error ≠ jsonDecodeError) : parseMessage payload = .error error := by
  rcases parse_cases payload with ⟨error', raised', _, parsed⟩ | ⟨text, parsed⟩ | checked
  · rw [raised] at raised'
    cases raised'
    exact parsed
  · unfold parseMessage at parsed ⊢
    rw [load_error raised, if_neg other, error_bind]
  · obtain ⟨_, _, _, _, checked⟩ := checked
    rw [checked.loaded] at raised
    cases raised

theorem Readable.parses (readable : Readable gate payload headers) :
    (∃ text, parseMessage payload = .error (inboundError text)) ∨
      ∃ message, parseMessage payload = .ok message ∧ message.WellFormed ∧
        Comparable gate.authorizer headers message.sender := by
  rcases parse_cases payload with ⟨error, raised, other, _⟩ | refused | checked
  · rcases loads_raises raised with rfl | same | rfl | rfl
    · exact absurd raised readable.decodes
    · exact absurd same other
    · exact absurd raised readable.short
    · exact absurd raised readable.shallow
  · exact .inl refused
  · obtain ⟨transportId, body, fields, data, checked⟩ := checked
    have harmless := readable.harmless data checked.loaded
      (by rw [checked.id]; rfl) (by rw [checked.body]; rfl) fields checked.fields
    obtain ⟨message, returned⟩ := (@message_of_returns_iff _ transportId body fields data _).mpr
      ⟨harmless.attachments, harmless.fieldTexts⟩
    obtain ⟨threadId, sender, subject⟩ := message_of_fields returned
    refine .inr ⟨message, checked.parses.trans returned, ⟨?_, ?_, ?_⟩, ?_⟩
    · rw [threadId]
      exact harmless.threadId
    · rw [sender]
      exact harmless.sender
    · rw [subject]
      exact harmless.subject
    · rw [sender]
      exact harmless.comparable

variable [HmacHex]

theorem Total.no_builtin (total : Total gate payload headers) {error : Raised}
    (builtin : error ∈ builtinErrors) : parseMessage payload ≠ .error error := by
  intro raised
  have declared := total.parses error raised
  rw [(builtin_is_no_inbound builtin).1] at declared
  cases declared

theorem Total.harmless (total : Total gate payload headers) {transportId body : PyStr}
    {fields data : List (PyStr × Value)} (checked : Checked payload transportId body fields data) :
    Harmless gate fields headers data := by
  cases ended : messageOf transportId body fields data with
  | error error =>
      exact absurd (checked.parses.trans ended) (total.no_builtin (message_of_raises ended))
  | ok message =>
      have parsed := checked.parses.trans ended
      have convertible := message_of_returns_iff.mp ⟨message, ended⟩
      have typed := total.wellFormed message parsed
      obtain ⟨threadId, sender, subject⟩ := message_of_fields ended
      have comparable := (admitted_declared_iff gate (decode_replacing_encodes payload)
        typed.sender).mp (total.admits message parsed)
      rw [sender] at comparable
      exact {
        attachments := convertible.1
        fieldTexts := convertible.2
        threadId := threadId ▸ typed.threadId
        sender := sender ▸ typed.sender
        subject := subject ▸ typed.subject
        comparable }

theorem Total.readable (total : Total gate payload headers) : Readable gate payload headers where
  decodes raised := total.no_builtin (by simp [builtinErrors]) (parse_of_failed raised (by decide))
  short raised := total.no_builtin (by simp [builtinErrors]) (parse_of_failed raised (by decide))
  shallow raised := total.no_builtin (by simp [builtinErrors]) (parse_of_failed raised (by decide))
  harmless data loaded id body fields found := by
    obtain ⟨transportId, id⟩ := Option.isSome_iff_exists.mp id
    obtain ⟨body, text⟩ := Option.isSome_iff_exists.mp body
    exact total.harmless ⟨loaded, id, text, found⟩

theorem Readable.total (readable : Readable gate payload headers) : Total gate payload headers := by
  rcases readable.parses with ⟨text, refused⟩ | ⟨message, parsed, typed, comparable⟩
  · refine ⟨fun error raised => ?_, fun message never => ?_, fun message never => ?_, fun now seen => ?_⟩
    · rw [refused] at raised
      cases raised
      exact inbound_error_is_inbound text
    · rw [refused] at never
      cases never
    · rw [refused] at never
      cases never
    · unfold InboundWebhook.call
      simp only [refused, inbound_error_is_inbound, if_true]
      exact ⟨_, rfl⟩
  · have declared := (admitted_declared_iff gate (decode_replacing_encodes payload)
      typed.sender).mpr comparable
    refine ⟨fun error never => ?_, fun message' returned => ?_, fun message' returned => ?_,
      fun now seen => ?_⟩
    · rw [parsed] at never
      cases never
    · rw [parsed] at returned
      cases returned
      exact typed
    · rw [parsed] at returned
      cases returned
      exact declared
    · unfold InboundWebhook.call
      simp only [parsed]
      cases ended : admitted gate (decodeReplacing payload) headers message.sender now seen with
      | mk outcome seen' =>
          cases outcome with
          | ok _ => exact ⟨_, rfl⟩
          | error error =>
              have auth := declared now seen error (by rw [ended])
              simp only [auth, if_true]
              exact ⟨_, rfl⟩

/-- The front end is total on a request exactly if its payload is readable. -/
theorem webhook_total_iff (gate : InboundGate) (payload : List UInt8)
    (headers : List (PyStr × PyStr)) :
    Total gate payload headers ↔ Readable gate payload headers :=
  ⟨Total.readable, Readable.total⟩

end Webhook

section Example

/-- The digest that `hmac` computes. -/
local instance hmacHex : HmacHex where
  hexdigest := Lib.Sha2.hmacHexdigest
  hex secret message := by
    intro c member
    have ascii : ∀ c ∈ "0123456789abcdef".toList, c.toNat < 128 := every_char (by decide)
    exact ascii c (Lib.Sha2.hmac_hexdigest_hex secret message c member)

def signingGate : InboundGate := ⟨⟨"secret", ["a@example.org".toList]⟩, ⟨10, 60000000, by decide⟩⟩

def signedRequest : Str :=
  "\x7b\"id\": \"m1\", \"body\": \"Fix it\", \"sender\": \"a@example.org\"\x7d"

def signedHeaders : List (PyStr × PyStr) :=
  [(ofText signatureHeader, ofText ("sha256=".toList ++
    Lib.Sha2.hmacHexdigest "secret" ("a@example.org\n".toList ++ signedRequest)))]

/-- The message that an answer hands on. -/
def ingested : Except Raised Answer → Option RawMessage
  | .ok (.ingest message) => some message
  | _ => none

theorem eq_of_ingested {answer : Except Raised Answer} {message : RawMessage}
    (handed : ingested answer = some message) : answer = .ok (.ingest message) := by
  cases answer with
  | error => cases handed
  | ok answer =>
      cases answer with
      | badRequest => cases handed
      | unauthorized => cases handed
      | ingest => rw [Option.some.inj handed]

theorem eq_of_texts {data : List (PyStr × Value)} {texts : List (PyStr × PyStr)}
    (same : data.map (fun entry => (entry.1, entry.2.str?)) =
      texts.map fun entry => (entry.1, some entry.2)) :
    data = texts.map fun entry => (entry.1, .str entry.2) := by
  induction data generalizing texts with
  | nil =>
      cases texts with
      | nil => rfl
      | cons => cases same
  | cons entry rest ih =>
      cases texts with
      | nil => cases same
      | cons first more =>
          rw [List.map_cons, List.map_cons, List.cons.injEq, Prod.mk.injEq] at same
          have value := str_eq_some_iff.mp same.1.2
          rw [List.map_cons, ← ih same.2, ← same.1.1, ← value]

/-- A request that is signed as it should be is no trouble and is passed on. -/
theorem signed_request_total :
    let _ := asciiTables
    let _ : Interpreter := ⟨fun _ => none, 1000, 1000⟩
    Total signingGate (Lib.Sha2.encode signedRequest) signedHeaders ∧
      ∃ message, (InboundWebhook.call (some signingGate) (Lib.Sha2.encode signedRequest)
        signedHeaders 0 []).1 = .ok (.ingest message) := by
  intro _ _
  have passed : (ingested (InboundWebhook.call (some signingGate) (Lib.Sha2.encode signedRequest)
      signedHeaders 0 []).1).isSome = true := by decide +kernel
  obtain ⟨message, handed⟩ := Option.isSome_iff_exists.mp passed
  have accepted : ∃ message, (InboundWebhook.call (some signingGate)
      (Lib.Sha2.encode signedRequest) signedHeaders 0 []).1 = .ok (.ingest message) :=
    ⟨message, eq_of_ingested handed⟩
  refine ⟨?_, accepted⟩
  apply (webhook_total_iff signingGate (Lib.Sha2.encode signedRequest) signedHeaders).mpr
  let texts : List (PyStr × PyStr) := [("id", "m1"), ("body", "Fix it"), ("sender", "a@example.org")]
  have read : ((loads (orEmpty (Lib.Sha2.encode signedRequest))).toOption.bind Value.entries?).map
      (fun data => data.map fun entry => (entry.1, entry.2.str?)) =
        some (texts.map fun entry => (entry.1, some entry.2)) := by decide +kernel
  constructor
  · intro raised
    rw [raised] at read
    cases read
  · intro raised
    rw [raised] at read
    cases read
  · intro raised
    rw [raised] at read
    cases read
  · intro data loaded _ _ fields found
    rw [loaded] at read
    have shape := eq_of_texts (Option.some.inj read)
    subst shape
    cases found
    constructor
    · exact ⟨[], rfl, fun _ never => absurd never List.not_mem_nil⟩
    · exact fun _ never => absurd never List.not_mem_nil
    · exact .inl rfl
    · exact .inr ⟨_, rfl⟩
    · exact .inl rfl
    · intro _ _
      have ascii : isAscii (signatureOf signedHeaders) = true := by decide +kernel
      refine ⟨fun s sender => ?_, ascii⟩
      cases sender
      decide

end Example

/-- One byte that no text in UTF-8 begins with is no payload that is refused. -/
theorem stray_byte_escapes :
    let _ := asciiTables
    let _ : Interpreter := ⟨fun _ => none, 1000, 1000⟩
    let _ : HmacSha256 := ⟨fun _ _ => []⟩
    ¬Total ⟨⟨"secret", []⟩, ⟨10, 60000000, by decide⟩⟩ [0xFF] [] := by
  intro _ _ _ total
  have raised : parseMessage [0xFF] = .error unicodeDecodeError :=
    parse_of_failed (loads_undecodable (by decide +kernel)) (by decide)
  have declared := total.parses _ raised
  exact absurd declared (by decide)

end DearAgent.Inbound
