import Mathlib.Algebra.Order.Floor.Ring
import Mathlib.Data.Rat.Floor
import Vellum.Lib.Dict
import Vellum.Lib.KeyStore
import Vellum.Spec.Errors

/-!
# The guards of a bank's handshake

`RedisNonceReplayGuard` and `RedisSubmitRateLimiter` of `vellum_core/auth.py`, and the order in
which `verify_handshake` asks them once the signature is verified. Clock times and signed
timestamps are rational seconds; Redis is the key store.
-/

namespace Vellum

/-- One call of `check_and_store`, with the clock's reading. -/
structure NonceCall where
  keyId : String
  nonce : String
  timestamp : ℚ
  now : ℚ
deriving DecidableEq

namespace NonceCall

/-- What the bank signs of it. -/
def triple (c : NonceCall) : String × String × ℚ := (c.keyId, c.nonce, c.timestamp)

def redisKey (c : NonceCall) : String := "vellum:nonce:" ++ c.keyId ++ ":" ++ c.nonce

/-- The timestamp is not outside the allowed window. -/
def fresh (window : ℤ) (c : NonceCall) : Bool := ¬ |c.now - c.timestamp| > window

end NonceCall

/-- `RedisNonceReplayGuard.check_and_store`. -/
def checkAndStore (window : ℤ) (redis : KeyStore ℚ) (c : NonceCall) : Except APIError Unit × KeyStore ℚ :=
  if ¬ c.fresh window then
    (.error ⟨401, "stale_request", "Request timestamp outside allowed window", [("window_seconds", .int window)]⟩,
      redis)
  else
    -- the key lives one window from the arrival, not from the timestamp
    let (redis, stored) := redis.setNx c.now c.redisKey c.timestamp window
    if ¬ stored then
      (.error ⟨409, "nonce_replay", "Replay detected for nonce", [("nonce", .str c.nonce)]⟩, redis)
    else (.ok (), redis)

/-- The calls of a sequence that the guard accepts. -/
def acceptedCalls (window : ℤ) : KeyStore ℚ → List NonceCall → List NonceCall
  | _, [] => []
  | redis, c :: cs =>
    match checkAndStore window redis c with
    | (.ok (), redis) => c :: acceptedCalls window redis cs
    | (.error _, redis) => acceptedCalls window redis cs

/-- No triple is accepted by two calls of the sequence. -/
def AcceptedOnce (window : ℤ) (calls : List NonceCall) : Prop :=
  ((acceptedCalls window .empty calls).map NonceCall.triple).Nodup

/-! ## The rate limiter -/

/-- A submit request whose signature is verified: what the guards read of it. -/
structure SubmitRequest where
  call : NonceCall
  forwardedFor : Option String
  clientHost : Option String
deriving DecidableEq

namespace SubmitRequest

/-- `_client_ip`. -/
def clientIp (r : SubmitRequest) : Option String :=
  match r.forwardedFor with
  | some forwarded =>
    if forwarded = "" then r.clientHost
    else some (strip (String.ofList (forwarded.toList.takeWhile (· ≠ ','))))
  | none => r.clientHost

/-- `source_ip or "unknown"`. -/
def clientMarker (r : SubmitRequest) : String :=
  match r.clientIp with
  | some ip => if ip = "" then "unknown" else ip
  | none => "unknown"

/-- `int(time.time() // 60)`. -/
def minute (r : SubmitRequest) : ℤ := ⌊r.call.now / 60⌋

def rateKey (r : SubmitRequest) : String :=
  "vellum:ratelimit:submit:" ++ r.call.keyId ++ ":" ++ r.clientMarker ++ ":" ++ toString r.minute

/-- `verify_handshake` lets no empty header through. -/
def HasHeaders (r : SubmitRequest) : Prop := r.call.keyId ≠ "" ∧ r.call.nonce ≠ ""

end SubmitRequest

/-- `RedisSubmitRateLimiter.check_and_store`. -/
def RedisSubmitRateLimiter.checkAndStore (maxPerMinute : ℤ) (redis : KeyStore ℚ) (r : SubmitRequest) :
    Except APIError Unit × KeyStore ℚ :=
  if maxPerMinute < 1 then (.ok (), redis)
  else
    let (redis, count) := redis.incrEx r.call.now r.rateKey 61
    if count > maxPerMinute then
      (.error ⟨429, "rate_limited", "Submit rate limit exceeded", [("limit_per_minute", .int maxPerMinute)]⟩, redis)
    else (.ok (), redis)

/-- How the guards refuse a request. -/
inductive GuardError where
  | api (e : APIError)
  | redis (message : String)

/-- What `verify_handshake` does with the answer of the replay guard: an accepted nonce is followed
by the rate limiter. -/
def rateAfterNonce (maxPerMinute : ℤ) (r : SubmitRequest) :
    Except APIError Unit → KeyStore ℚ → Except GuardError Unit × KeyStore ℚ
  | .error e, redis => (.error (.api e), redis)
  | .ok (), redis =>
    let (answer, redis) := RedisSubmitRateLimiter.checkAndStore maxPerMinute redis r
    (answer.mapError .api, redis)

/-- The last part of `verify_handshake`: the nonce, then the rate. Redis refuses to set a key that
lives no second. -/
def submitGuards (window maxPerMinute : ℤ) (r : SubmitRequest) (redis : KeyStore ℚ) :
    Except GuardError Unit × KeyStore ℚ :=
  if r.call.fresh window = true ∧ window < 1 then
    (.error (.redis "invalid expire time in 'set' command"), redis)
  else
    let (answer, redis) := checkAndStore window redis r.call
    rateAfterNonce maxPerMinute r answer redis

/-- A request passes the guards after a history of requests. -/
def passesGuards (window maxPerMinute : ℤ) (history : List SubmitRequest) (r : SubmitRequest) : Bool :=
  (submitGuards window maxPerMinute r (.after (submitGuards window maxPerMinute) .empty history)).1.isOk

/-- The banks of a mapping do not interfere: whether a request of one passes does not change when
the requests of another are left out of the history. -/
def BanksIndependent (window maxPerMinute : ℤ) (bankKeyMapping : List (String × String)) : Prop :=
  ∀ a ∈ bankKeyMapping.map Prod.fst, ∀ b ∈ bankKeyMapping.map Prod.fst, a ≠ b →
    ∀ history : List SubmitRequest,
      (∀ r ∈ history, r.HasHeaders ∧ r.call.keyId ∈ bankKeyMapping.map Prod.fst) →
      ∀ r : SubmitRequest, r.HasHeaders → r.call.keyId = b →
        passesGuards window maxPerMinute history r =
          passesGuards window maxPerMinute (history.filter fun h => h.call.keyId ≠ a) r

end Vellum
