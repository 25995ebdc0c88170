import BackendFoundation.PythonValues
import Mathlib.Data.Rat.Floor
import Mathlib.Logic.Function.Basic

/-! `app/infrastructure/rate_limit/redis.py`: the Lua script over one key's hash
fields, the `allow` call around it, and runs of calls by any number of callers
during which Redis may remove keys whose time to live has passed. Lua numbers
are exact here. -/
namespace BackendFoundation.RateLimiter
open PythonValues

/-- The reply of `TIME`: seconds and the microseconds within the second. -/
structure Reading where
  seconds : ℕ
  microseconds : Fin 1000000
  deriving DecidableEq

def Reading.now (reading : Reading) : ℚ :=
  reading.seconds + (reading.microseconds : ℕ) / 1000000

/-- The hash fields `tokens` and `ts` of a key, and when its EXPIRE runs out. -/
structure Stored where
  tokens : ℚ
  ts : ℚ
  expires : ℚ
  deriving DecidableEq

structure RateLimitDecision where
  allowed : Bool
  remaining : ℤ
  resetAfterS : ℤ
  deriving DecidableEq

/-- The quota and window in use for a key. -/
structure Limit where
  quota : ℕ
  windowS : ℕ
  quota_pos : 1 ≤ quota
  window_pos : 1 ≤ windowS

/-- The first half of `_LUA_SCRIPT`: the tokens there are before the call takes
one. -/
def refilledTokens (quota windowS : ℕ) (now : ℚ) : Option Stored → ℚ
  | none => quota
  | some stored =>
    let elapsed := max 0 (now - stored.ts)
    let refill := elapsed * ((quota : ℚ) / windowS)
    min (quota : ℚ) (stored.tokens + refill)

/-- `_LUA_SCRIPT`: what it stores under the key and what it returns. -/
def luaScript (quota windowS : ℕ) (time : Reading) (res : Option Stored) : Stored × ℕ × ℤ :=
  let now := time.now
  let tokens := refilledTokens quota windowS now res
  let (tokens, allowed) := if 1 ≤ tokens then (tokens - 1, 1) else (tokens, 0)
  (⟨tokens, now, now + ⌈(windowS : ℚ)⌉⟩, allowed, ⌊tokens⌋)

abbrev Redis := Str → Option Stored

def redisKey (key : Str) : Str := str "rl:" ++ key

theorem redisKey_injective : Function.Injective redisKey :=
  fun _ _ same => List.append_cancel_left same

/-- `RedisRateLimiter.allow`. -/
def allow (redis : Redis) (key : Str) (quota windowS : ℕ) (time : Reading) :
    Redis × RateLimitDecision :=
  let (stored, allowedInt, remaining) := luaScript quota windowS time (redis (redisKey key))
  (Function.update redis (redisKey key) (some stored), ⟨allowedInt != 0, remaining, windowS⟩)

/-- A caller calls `allow`, or Redis removes a key. -/
inductive Event where
  | allow (key : Str) (time : Reading)
  | remove (redisKey : Str) (time : Reading)

def Event.now : Event → ℚ
  | .allow _ time => time.now
  | .remove _ time => time.now

/-- A decision, the key it is for and when it was made. -/
structure Decided where
  key : Str
  time : ℚ
  decision : RateLimitDecision
  deriving DecidableEq

variable (limits : Str → Limit)

/-- One event; `none` where Redis may not remove the key yet. -/
def step (redis : Redis) : Event → Option (Redis × List Decided)
  | .allow key time =>
    let (later, decision) := allow redis key (limits key).quota (limits key).windowS time
    some (later, [⟨key, time.now, decision⟩])
  | .remove key time =>
    match redis key with
    | some stored =>
      if stored.expires ≤ time.now then some (Function.update redis key none, []) else none
    | none => none

/-- A run from these keys on: the keys it leaves and the decisions it made. -/
def run (redis : Redis) : List Event → Option (Redis × List Decided)
  | [] => some (redis, [])
  | event :: rest => do
    let (later, decided) ← step limits redis event
    let (final, decisions) ← run later rest
    return (final, decided ++ decisions)

/-- What the calls on one key were answered, and when. -/
def answersOn (key : Str) (decisions : List Decided) : List (ℚ × Bool × ℤ) :=
  (decisions.filter (·.key == key)).map fun decided =>
    (decided.time, decided.decision.allowed, decided.decision.remaining)

/-- The times of the calls on one key. -/
def callTimes (key : Str) (events : List Event) : List ℚ :=
  events.filterMap fun
    | .allow called time => if called = key then some time.now else none
    | .remove _ _ => none

/-- How often calls on the key are allowed within the half-open interval. -/
def allowedWithin (key : Str) (start stop : ℚ) (decisions : List Decided) : ℕ :=
  (answersOn key decisions).countP fun (time, allowed, _) =>
    allowed && start ≤ time && time < stop

/-- TIME never runs backwards. -/
def Ordered (events : List Event) : Prop := (events.map Event.now).Pairwise (· ≤ ·)

instance (events : List Event) : Decidable (Ordered events) :=
  inferInstanceAs (Decidable (List.Pairwise _ _))

end BackendFoundation.RateLimiter
