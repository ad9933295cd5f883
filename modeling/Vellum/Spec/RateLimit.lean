import Mathlib.Data.Rat.Floor
import Vellum.Lib.CounterStore
import Vellum.Spec.Errors

/-!
# Concurrent calls of the rate limiter

`RedisSubmitRateLimiter.check_and_store` of `vellum_core/auth.py`, step by step: a call reads the
clock, increments its counter in Redis, sets the deadline of a new counter, and compares. Between
any two steps time passes and other calls do theirs, and a call may come to an end at any of them.
-/

namespace Vellum

namespace RateLimit

/-- The arguments of one call. -/
structure SubmitCall where
  keyId : String
  sourceIp : Option String
deriving DecidableEq

namespace SubmitCall

/-- `source_ip or "unknown"`. -/
def clientMarker (c : SubmitCall) : String :=
  match c.sourceIp with
  | some ip => if ip = "" then "unknown" else ip
  | none => "unknown"

/-- The bank key and the source address, which is there unless it is empty. -/
def submitter (c : SubmitCall) : String × Option String := (c.keyId, c.sourceIp.filter fun ip => ip ≠ "")

/-- The counter of a call that reads the clock in a window. -/
def redisKey (c : SubmitCall) (window : ℤ) : String :=
  "vellum:ratelimit:submit:" ++ c.keyId ++ ":" ++ c.clientMarker ++ ":" ++ window.repr

end SubmitCall

/-- `int(time.time() // 60)`. -/
def windowOf (now : ℚ) : ℤ := ⌊now / 60⌋

/-- Where a call stands: before it reads the clock, before `INCR`, before `EXPIRE`, before the
comparison, or at its end. -/
inductive CallPhase where
  | idle
  | incrementing (window : ℤ)
  | expiring (window : ℤ) (count : ℕ)
  | comparing (window : ℤ) (count : ℕ)
  | returned (answer : Except APIError Unit)
  | crashed

/-- The call is under way. -/
def CallPhase.waiting : CallPhase → Bool
  | .incrementing _ | .expiring .. | .comparing .. => true
  | _ => false

/-- The error of a call over the limit. -/
def rateLimited (maxPerMinute : ℤ) : APIError :=
  ⟨429, "rate_limited", "Submit rate limit exceeded", [("limit_per_minute", .int maxPerMinute)]⟩

/-- `count > self.max_per_minute`. -/
def compare (maxPerMinute : ℤ) (count : ℕ) : Except APIError Unit :=
  if count > maxPerMinute then .error (rateLimited maxPerMinute) else .ok ()

/-- The limit and the arguments of each call. -/
structure Limiter where
  maxPerMinute : ℤ
  call : ℕ → SubmitCall

/-- One `INCR`: the call, the window of its clock reading, and when. -/
structure Increment where
  call : ℕ
  window : ℤ
  time : ℚ

/-- The clock, Redis and every call. The increments so far are kept with the calls that made
them, which nothing in the program reads. -/
structure State where
  now : ℚ
  redis : CounterStore
  calls : ℕ → CallPhase
  increments : List Increment

namespace State

/-- An empty Redis, no call begun. -/
def init (now : ℚ) : State := ⟨now, .empty, fun _ => .idle, []⟩

def setCall (s : State) (i : ℕ) (p : CallPhase) : State := { s with calls := Function.update s.calls i p }

end State

/-- The seconds a new counter is given. -/
def counterSeconds : ℚ := 61

/-- **One step of one call**, or of the clock. -/
inductive Step (L : Limiter) : State → State → Prop where
  | tick {s : State} {now : ℚ} : s.now ≤ now → Step L s { s with now := now }
  | unlimited {s : State} {i : ℕ} : s.calls i = .idle → L.maxPerMinute < 1 →
      Step L s (s.setCall i (.returned (.ok ())))
  | start {s : State} {i : ℕ} : s.calls i = .idle → 1 ≤ L.maxPerMinute →
      Step L s (s.setCall i (.incrementing (windowOf s.now)))
  | incr {s : State} {i : ℕ} {window : ℤ} : s.calls i = .incrementing window →
      Step L s { s with
        redis := (s.redis.incr s.now ((L.call i).redisKey window)).1
        increments := s.increments ++ [⟨i, window, s.now⟩]
        calls := Function.update s.calls i
          (if (s.redis.incr s.now ((L.call i).redisKey window)).2 = 1 then .expiring window 1
            else .comparing window (s.redis.incr s.now ((L.call i).redisKey window)).2) }
  | expire {s : State} {i : ℕ} {window : ℤ} {count : ℕ} : s.calls i = .expiring window count →
      Step L s { s with
        redis := s.redis.expire s.now ((L.call i).redisKey window) counterSeconds
        calls := Function.update s.calls i (.comparing window count) }
  | compare {s : State} {i : ℕ} {window : ℤ} {count : ℕ} : s.calls i = .comparing window count →
      Step L s (s.setCall i (.returned (compare L.maxPerMinute count)))
  -- a process may go down and a command may fail
  | crash {s : State} {i : ℕ} : (s.calls i).waiting = true → Step L s (s.setCall i .crashed)

end RateLimit

end Vellum
