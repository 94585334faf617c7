import DearAgent.Auth

/-!
# Shared secrets and rate limits

The other gates of `auth.py`: signed messages, the limit on how often a sender
is admitted, and the gates that put it behind an authorization. A limiter is
told the time by its caller.
-/

namespace DearAgent

open DearAgent.Lib.Text DearAgent.Lib.Dictionaries DearAgent.Queue

set_option autoImplicit false

/-- `hmac.new(secret.encode(), message.encode(), hashlib.sha256).hexdigest()`. -/
class HmacSha256 where
  hexdigest (secret message : Str) : Str

def signatureHeader : Str := "X-Dear-Agent-Signature"

def sign [HmacSha256] (body secret : Str) (sender : Option Str) : Str :=
  let message := match sender with
    | none => body
    | some sender => sender ++ '\n' :: body
  "sha256=".toList ++ HmacSha256.hexdigest secret message

/-- `hmac.compare_digest`, which only takes ASCII texts. -/
def compareDigest (first second : Str) : Except Exn Bool :=
  if first.all (fun c => c.toNat < 128) && second.all (fun c => c.toNat < 128) then
    .ok (first = second)
  else
    .error (.otherException "TypeError"
      "comparing strings with non-ASCII characters is not supported")

structure InboundAuthorizer where
  secret : Str
  allowlist : List Str := []

namespace InboundAuthorizer

def authorize [HmacSha256] (authorizer : InboundAuthorizer) (body : Str) (headers : Headers)
    (sender : Option Str) : Except Exn Unit :=
  if !authorizer.allowlist.isEmpty && !sender.any authorizer.allowlist.contains then
    .error (.unauthorizedSender sender)
  else
    let signature := (headers.lookup signatureHeader).getD []
    if signature.isEmpty then .error (.missingSignature "missing signature header")
    else
      match compareDigest signature (sign body authorizer.secret sender) with
      | .error error => .error error
      | .ok true => .ok ()
      | .ok false => .error (.badSignature "signature mismatch")

end InboundAuthorizer

/-- `str` of a `timedelta` of this many microseconds. -/
def durationText (duration : Duration) : Str :=
  let padded (width : Nat) (n : Int) : Str :=
    let digits := (toString n).toList
    List.replicate (width - digits.length) '0' ++ digits
  let micros := duration % 1000000
  let seconds := duration / 1000000 % 86400
  let days := duration / 86400000000
  (if days = 0 then []
    else (toString days).toList ++
      (if days = 1 ∨ days = -1 then " day, ".toList else " days, ".toList)) ++
  (toString (seconds / 3600)).toList ++ ':' :: padded 2 (seconds / 60 % 60) ++
    ':' :: padded 2 (seconds % 60) ++
  (if micros = 0 then [] else '.' :: padded 6 micros)

example : durationText (-1) = "-1 day, 23:59:59.999999".toList := by decide

abbrev Seen := Dict Str (List Instant)

structure RateLimiter where
  limit : Int
  window : Duration
  positive : 0 < limit

namespace RateLimiter

/-- `__init__`. -/
def create (limit : Int) (window : Duration) : Except Exn RateLimiter :=
  if positive : 0 < limit then .ok ⟨limit, window, positive⟩
  else .error (.valueError "limit must be positive")

def keyOf (sender : Option Str) : Str := orElse sender "<unknown>"

/-- The moments of a sender that are still inside the window, which is assumed to begin within the
range of `datetime`. -/
def recent (limiter : RateLimiter) (key : Str) (now : Instant) (seen : Seen) : List Instant :=
  ((seen.get key).getD []).filter fun moment => now - limiter.window < moment

/-- `check`, with the reading of its clock. -/
def check (limiter : RateLimiter) (sender : Option Str) (now : Instant) (seen : Seen) :
    Except Exn Unit × Seen :=
  let key := keyOf sender
  let recent := limiter.recent key now seen
  if limiter.limit ≤ recent.length then
    (.error (.rateLimited (key ++ " exceeded ".toList ++ (toString limiter.limit).toList ++
      " messages per ".toList ++ durationText limiter.window)), seen.set key recent)
  else (.ok (), seen.set key (recent ++ [now]))

end RateLimiter

structure InboundGate where
  authorizer : InboundAuthorizer
  rateLimiter : RateLimiter

inductive PlainGate
  | allowlist (senders : List Str)
  | emailAuth (gate : EmailAuthGate)

structure RateLimitedGate where
  rateLimiter : RateLimiter
  gate : Option PlainGate := none

inductive LimitedGate
  | inbound (gate : InboundGate)
  | rateLimited (gate : RateLimitedGate)

def LimitedGate.rateLimiter : LimitedGate → RateLimiter
  | .inbound gate => gate.rateLimiter
  | .rateLimited gate => gate.rateLimiter

section Admitting

variable [Unicode]

def PlainGate.admit (gate : PlainGate) (headers : Headers) (sender : Option Str) :
    Except Exn Unit :=
  match gate with
  | .allowlist senders => SenderAllowlist.admit senders sender
  | .emailAuth gate => EmailAuthGate.admit gate headers sender

variable [HmacSha256]

def LimitedGate.authorize (gate : LimitedGate) (body : Str) (headers : Headers)
    (sender : Option Str) : Except Exn Unit :=
  match gate with
  | .inbound gate => gate.authorizer.authorize body headers sender
  | .rateLimited gate => match gate.gate with
    | some gate => PlainGate.admit gate headers sender
    | none => .ok ()

/-- `InboundGate.admit` and `RateLimitedGate.admit`. -/
def LimitedGate.admit (gate : LimitedGate) (body : Str) (headers : Headers)
    (sender : Option Str) (now : Instant) (seen : Seen) : Except Exn Unit × Seen :=
  match gate.authorize body headers sender with
  | .error error => (.error error, seen)
  | .ok _ => gate.rateLimiter.check sender now seen

end Admitting

/-!
## What a limiter remembers
-/

namespace RateLimiter

variable {limiter : RateLimiter} {now later : Instant} {seen seen' : Seen}

/-- From now on the limiter does not tell these apart. -/
def SameFrom (limiter : RateLimiter) (now : Instant) (seen seen' : Seen) : Prop :=
  ∀ key, limiter.recent key now seen = limiter.recent key now seen'

theorem SameFrom.refl (now : Instant) (seen : Seen) : limiter.SameFrom now seen seen :=
  fun _ => rfl

theorem SameFrom.trans {last : Seen} (same : limiter.SameFrom now seen seen')
    (same' : limiter.SameFrom now seen' last) : limiter.SameFrom now seen last :=
  fun key => (same key).trans (same' key)

/-- A window that ends later keeps of the moments in the window now what is in it. -/
theorem filter_later (ordered : now ≤ later) (moments : List Instant) :
    (moments.filter fun moment => now - limiter.window < moment).filter
        (fun moment => later - limiter.window < moment) =
      moments.filter fun moment => later - limiter.window < moment := by
  rw [List.filter_filter]
  apply List.filter_congr
  intro moment _
  by_cases inside : later - limiter.window < moment
  · have before : now - limiter.window < moment :=
      Int.lt_of_le_of_lt (Int.sub_le_sub_right ordered limiter.window) inside
    simp [inside, before]
  · simp [inside]

theorem recent_recent (key : Str) (ordered : now ≤ later) :
    limiter.recent key later seen =
      (limiter.recent key now seen).filter fun moment => later - limiter.window < moment :=
  (filter_later ordered _).symm

theorem SameFrom.after (same : limiter.SameFrom now seen seen') (ordered : now ≤ later) :
    limiter.SameFrom later seen seen' := by
  intro key
  rw [recent_recent key ordered, recent_recent key ordered, same key]

theorem same_from_set {key : Str} (same : limiter.SameFrom now seen seen') {moments : List Instant}
    (inside : moments.filter (fun moment => now - limiter.window < moment) =
      limiter.recent key now seen') :
    limiter.SameFrom now (seen.set key moments) seen' := by
  intro other
  by_cases equal : other = key
  · rw [equal, ← inside]
    unfold recent
    rw [Dict.get_set_self]
    rfl
  · rw [← same other]
    unfold recent
    rw [Dict.get_set_ne _ _ equal]

theorem recent_inside (key : Str) :
    (limiter.recent key now seen).filter (fun moment => now - limiter.window < moment) =
      limiter.recent key now seen :=
  (recent_recent key le_rfl).symm

variable {sender : Option Str}

/-- Where senders have the same recent moments a check says the same and leaves
the same ones. -/
theorem check_same (same : limiter.SameFrom now seen seen') :
    (limiter.check sender now seen).1 = (limiter.check sender now seen').1 ∧
      limiter.SameFrom now (limiter.check sender now seen).2 (limiter.check sender now seen').2 := by
  unfold check
  simp only
  rw [same (keyOf sender)]
  have sets : ∀ moments, limiter.SameFrom now (seen.set (keyOf sender) moments)
      (seen'.set (keyOf sender) moments) := by
    intro moments other
    unfold recent
    rw [Dict.get_set, Dict.get_set]
    split_ifs
    · rfl
    · exact same other
  split_ifs
  · exact ⟨rfl, sets _⟩
  · exact ⟨rfl, sets _⟩

theorem refused_check_same {error : Exn}
    (refused : (limiter.check sender now seen).1 = .error error) :
    limiter.SameFrom now (limiter.check sender now seen).2 seen := by
  unfold check at refused ⊢
  simp only at refused ⊢
  split_ifs at refused ⊢
  apply same_from_set (.refl now seen)
  exact recent_inside _

end RateLimiter

namespace LimitedGate

variable [Unicode] [HmacSha256] {gate : LimitedGate} {body : Str} {headers : Headers}
  {sender : Option Str} {now : Instant} {seen seen' : Seen}

theorem admit_same (same : gate.rateLimiter.SameFrom now seen seen') :
    ( gate.admit body headers sender now seen).1 = ( gate.admit body headers sender now seen').1 ∧
      gate.rateLimiter.SameFrom now ( gate.admit body headers sender now seen).2
        ( gate.admit body headers sender now seen').2 := by
  unfold LimitedGate.admit
  cases gate.authorize body headers sender with
  | error error => exact ⟨rfl, same⟩
  | ok _ => exact RateLimiter.check_same same

theorem refused_same {error : Exn}
    (refused : ( gate.admit body headers sender now seen).1 = .error error) :
    gate.rateLimiter.SameFrom now ( gate.admit body headers sender now seen).2 seen := by
  unfold LimitedGate.admit at refused ⊢
  cases authorized : gate.authorize body headers sender with
  | error other => exact .refl now seen
  | ok _ =>
      rw [authorized] at refused
      exact RateLimiter.refused_check_same refused

end LimitedGate

end DearAgent
