import BackendFoundation.IdempotencyStore
import BackendFoundation.KeyedServers
import BackendFoundation.RateLimiter
import Mathlib

/-! The adapters of `app/infrastructure` over the one client that
`app/core/wiring/cache.py` builds: `RedisCache`, `RedisRateLimiter` and
`RedisIdempotencyStore` as programs over the commands of one database, whose keys hold
strings or hashes. Strings are those UTF-8 can encode: the client raises on any other
before it sends a command. -/
namespace BackendFoundation.SharedRedis
open RequestPrograms ExpiringKeys KeyedServers
open RateLimiter (Reading RateLimitDecision)
open IdempotencyStore (IdempotencyRecord RedisClient)

/-! ## The database -/

/-- A string, or a hash with the fields `tokens` and `ts`. -/
inductive Value where
  | string (bytes : ByteArray)
  | hash (tokens ts : ℚ)

/-- The exceptions of the calls: an error reply of Redis, or a value that is no UTF-8. -/
inductive Error where
  | responseError
  | unicodeDecodeError
  deriving DecidableEq

inductive Command where
  | get (key : String)
  | set (key : String) (value : ByteArray) (nx xx keepttl : Bool) (ex : Option ℤ)
  | del (key : String)
  | incr (key : String)
  | expire (key : String) (ttlS : ℤ)
  | luaScript (key : String) (quota : ℕ) (windowS : ℤ)

def Command.key : Command → String
  | .get key => key
  | .set key _ _ _ _ _ => key
  | .del key => key
  | .incr key => key
  | .expire key _ => key
  | .luaScript key _ _ => key

abbrev Reply : Command → Type
  | .get _ => Option ByteArray
  | .set _ _ _ _ _ _ => Bool
  | .del _ => Bool
  | .incr _ => ℤ
  | .expire _ _ => Bool
  | .luaScript _ _ _ => ℕ × ℤ

abbrev Redis := Keyspace String Value

/-- The server's clock for times to live, in milliseconds. -/
def millis (time : Reading) : ℕ := 1000 * time.seconds + time.microseconds / 1000

/-- A time to live that Redis can add to its clock. -/
def inRange (now : ℕ) (ttlS : ℤ) : Bool := -2 ^ 63 ≤ 1000 * ttlS && 1000 * ttlS + now < 2 ^ 63

/-- The argument of SET's EX. -/
def setExpiry (now : ℕ) : Option ℤ → Except Error (Option ℕ)
  | none => .ok none
  | some ttlS =>
    if 0 < ttlS && inRange now ttlS then .ok (some (1000 * ttlS.toNat)) else .error .responseError

/-- The integer a string stands for. -/
def integer (bytes : ByteArray) : Option ℤ := do
  let digits ← String.fromUTF8? bytes
  let n ← digits.toInt?
  if toString n = digits && -2 ^ 63 ≤ n && n < 2 ^ 63 then some n else none

/-- `_LUA_SCRIPT` between its HMGET and its HMSET: the tokens it stores, and what it
returns. A division by zero is infinite or no number, and `math.min` gives the quota. -/
def luaTokens (quota : ℕ) (windowS : ℤ) (now : ℚ) (res : Option (ℚ × ℚ)) : ℚ × ℕ × ℤ :=
  let tokens := match res with
    | none => (quota : ℚ)
    | some (tokens, ts) =>
      if windowS = 0 then quota
      else min (quota : ℚ) (tokens + max 0 (now - ts) * ((quota : ℚ) / windowS))
  let (tokens, allowed) := if 1 ≤ tokens then (tokens - 1, 1) else (tokens, 0)
  (tokens, allowed, ⌊tokens⌋)

/-- HMGET of the two fields. -/
def fields : Option (Entry Value) → Except Error (Option (ℚ × ℚ))
  | none => .ok none
  | some ⟨.hash tokens ts, _⟩ => .ok (some (tokens, ts))
  | some ⟨.string _, _⟩ => .error .responseError

/-- What a command does to its key. -/
inductive Write where
  | keep
  | remove
  | put (entry : Entry Value)

def Write.on (redis : Redis) (key : String) : Write → Redis
  | .keep => redis
  | .remove => Function.update redis key none
  | .put entry => Function.update redis key (some entry)

/-- EXPIRE removes a key whose time has already come. -/
def expired (now : ℕ) (ttlS : ℤ) (entry : Entry Value) : Write :=
  if ttlS ≤ 0 then .remove else .put { entry with expires := some (now + 1000 * ttlS.toNat) }

/-- What a command answers when it sees this entry, and what it writes. -/
def respond (time : Reading) : (command : Command) → Option (Entry Value) →
    Except Error (Reply command) × Write
  | .get _, live =>
    match live with
    | none => (.ok none, .keep)
    | some ⟨.string bytes, _⟩ => (.ok (some bytes), .keep)
    | some ⟨.hash _ _, _⟩ => (.error .responseError, .keep)
  | .set _ value nx xx keepttl ex, live =>
    match setExpiry (millis time) ex with
    | .error error => (.error error, .keep)
    | .ok ex =>
      if (nx && live.isSome) || (xx && live.isNone) then (.ok false, .keep)
      else
        let expires := if keepttl then live.bind Entry.expires else ex.map (millis time + ·)
        (.ok true, .put ⟨.string value, expires⟩)
  | .del _, live => (.ok live.isSome, .remove)
  | .incr _, live =>
    match live with
    | none => (.ok 1, .put ⟨.string (toString (1 : ℤ)).toUTF8, none⟩)
    | some ⟨.hash _ _, _⟩ => (.error .responseError, .keep)
    | some ⟨.string bytes, expires⟩ =>
      match integer bytes with
      | none => (.error .responseError, .keep)
      | some n =>
        if n + 1 < 2 ^ 63 then (.ok (n + 1), .put ⟨.string (toString (n + 1)).toUTF8, expires⟩)
        else (.error .responseError, .keep)
  | .expire _ ttlS, live =>
    if inRange (millis time) ttlS then
      match live with
      | none => (.ok false, .keep)
      | some entry => (.ok true, expired (millis time) ttlS entry)
    else (.error .responseError, .keep)
  | .luaScript _ quota windowS, live =>
    match fields live with
    | .error error => (.error error, .keep)
    | .ok res =>
      let (tokens, allowed, remaining) := luaTokens quota windowS time.now res
      let stored : Entry Value := ⟨.hash tokens time.now, live.bind Entry.expires⟩
      -- A window that EXPIRE refuses stops the script after its HMSET.
      if inRange (millis time) windowS then
        (.ok (allowed, remaining), expired (millis time) windowS stored)
      else (.error .responseError, .put stored)

/-- One command, executed atomically. -/
def execute (time : Reading) (command : Command) (redis : Redis) :
    Except Error (Reply command) × Redis :=
  let (answer, write) := respond time command (redis.live (millis time) command.key)
  (answer, write.on redis command.key)

theorem Write.on_of_ne {redis : Redis} {key other : String} (write : Write) (apart : other ≠ key) :
    write.on redis key other = redis other := by
  cases write with
  | keep => rfl
  | remove => exact Function.update_of_ne apart _ _
  | put entry => exact Function.update_of_ne apart _ _

theorem Write.on_congr {redis other : Redis} {key : String} (write : Write)
    (same : redis key = other key) : write.on redis key key = write.on other key key := by
  cases write with
  | keep => exact same
  | remove => simp [Write.on]
  | put entry => simp [Write.on]

/-- Redis, as the server that the adapters share. -/
def server : Server String (Option (Entry Value)) Reading Command Reply Error where
  key := Command.key
  execute := execute
  writes_own time command redis other apart := Write.on_of_ne _ apart
  reads_own time command redis other same := by
    have live : Keyspace.live redis (millis time) command.key =
        Keyspace.live other (millis time) command.key := by
      unfold Keyspace.live
      rw [same]
    unfold execute
    rw [live]
    exact ⟨rfl, Write.on_congr _ same⟩

/-! ## The adapters -/

abbrev Client := Program Command Reply Error

namespace RedisCache

def get (key : String) : Client (Option ByteArray) := Program.perform (Command.get key)

def set (key : String) (value : ByteArray) (ttlS : Option ℤ) : Client Unit := do
  let _ ← Program.perform (Command.set key value false false false ttlS)
  return ()

def delete (key : String) : Client Unit := do
  let _ ← Program.perform (Command.del key)
  return ()

def incr (key : String) : Client ℤ := Program.perform (Command.incr key)

def expire (key : String) (ttlS : ℤ) : Client Unit := do
  let _ ← Program.perform (Command.expire key ttlS)
  return ()

end RedisCache

namespace RedisRateLimiter

def redisKey (key : String) : String := "rl:" ++ key

def allow (key : String) (quota : ℕ) (windowS : ℤ) : Client RateLimitDecision := do
  let (allowedInt, remaining) ← Program.perform (Command.luaScript (redisKey key) quota windowS)
  return ⟨allowedInt != 0, remaining, windowS⟩

end RedisRateLimiter

/-- The client as the idempotency store uses it. -/
def client : RedisClient ℤ Command Reply Error where
  set key value nx xx keepttl ex := Program.perform (Command.set key value nx xx keepttl ex)
  get key := Program.perform (Command.get key)
  unicodeDecodeError := .unicodeDecodeError

/-! ## Operations -/

inductive CacheCall where
  | get (key : String)
  | set (key : String) (value : ByteArray) (ttlS : Option ℤ)
  | delete (key : String)
  | incr (key : String)
  | expire (key : String) (ttlS : ℤ)

def CacheCall.key : CacheCall → String
  | .get key => key
  | .set key _ _ => key
  | .delete key => key
  | .incr key => key
  | .expire key _ => key

inductive IdempotencyCall where
  | begin (key : String) (ttlS : ℤ)
  | complete (key responseHash : String)
  | get (key : String)

def IdempotencyCall.key : IdempotencyCall → String
  | .begin key _ => key
  | .complete key _ => key
  | .get key => key

inductive Operation where
  | cache (call : CacheCall)
  | allow (key : String) (quota : ℕ) (windowS : ℤ)
  | idempotency (call : IdempotencyCall)

inductive Outcome where
  | value (value : Option ByteArray)
  | done
  | number (n : ℤ)
  | decided (decision : RateLimitDecision)
  | began (record : IdempotencyRecord)
  | got (record : Option IdempotencyRecord)

def serve : Operation → Client Outcome
  | .cache (.get key) => do return .value (← RedisCache.get key)
  | .cache (.set key value ttlS) => do
    RedisCache.set key value ttlS
    return .done
  | .cache (.delete key) => do
    RedisCache.delete key
    return .done
  | .cache (.incr key) => do return .number (← RedisCache.incr key)
  | .cache (.expire key ttlS) => do
    RedisCache.expire key ttlS
    return .done
  | .allow key quota windowS => do return .decided (← RedisRateLimiter.allow key quota windowS)
  | .idempotency (.begin key ttlS) => do return .began (← IdempotencyStore.begin client key ttlS)
  | .idempotency (.complete key responseHash) => do
    IdempotencyStore.complete client key responseHash
    return .done
  | .idempotency (.get key) => do return .got (← IdempotencyStore.get client key)

/-- The Redis key of an operation's commands. -/
def Operation.redisKey : Operation → String
  | .cache call => call.key
  | .allow key _ _ => RedisRateLimiter.redisKey key
  | .idempotency call => IdempotencyStore.redisKey call.key

end BackendFoundation.SharedRedis
