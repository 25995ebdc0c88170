import BackendFoundation.AdapterIsolation
import BackendFoundation.SerialRuns

/-! Values in the cache: any number of callers of `get`, `set` and `delete` on one key, with
any operations of the adapters under other keys between them. -/
namespace BackendFoundation.CacheValues
open RequestPrograms ExpiringKeys TurnTaking KeyedServers SerialRuns SharedRedis AdapterIsolation
open RateLimiter (Reading)

/-! ## The last write -/

/-- A cached value as Redis stores it. -/
def stored (kept : Option (Entry ByteArray)) : Option (Entry Value) :=
  kept.map fun kept => ⟨.string kept.value, kept.expires⟩

/-- What an operation writes at this time: nothing, or that there is no value, or a value. -/
def writes (time : Reading) : Operation → Option (Option (Entry ByteArray))
  | .cache (.set _ value ttlS) =>
    match setExpiry (millis time) ttlS with
    | .ok ttl => some (some ⟨value, ttl.map (millis time + ·)⟩)
    | .error _ => none
  | .cache (.delete _) => some none
  | _ => none

/-- What an operation on the key ends with at this time. -/
def told (time : Reading) (kept : Option (Entry ByteArray)) : Operation → Except Error Outcome
  | .cache (.get _) => .ok (.value ((kept.filter (·.alive (millis time))).map Entry.value))
  | .cache (.set _ _ ttlS) => (setExpiry (millis time) ttlS).map fun _ => .done
  | _ => .ok .done

section One

variable {redis : Redis} {key : String} {kept : Option (Entry ByteArray)} (time : Reading)

theorem live_stored (holds : redis key = stored kept) :
    redis.live (millis time) key = stored (kept.filter (·.alive (millis time))) := by
  unfold Keyspace.live
  rw [holds]
  cases kept with
  | none => rfl
  | some kept =>
    simp only [stored, Option.map_some, Option.filter_some, Entry.alive]
    split
    · rfl
    · rfl

theorem alone_get (holds : redis key = stored kept) :
    alone server time (serve (.cache (.get key))) redis =
      (told time kept (.cache (.get key)), redis) := by
  have executed : server.execute time (.get key) redis =
      (.ok ((kept.filter (·.alive (millis time))).map Entry.value), redis) := by
    change execute time (.get key) redis = _
    unfold execute
    rw [show (Command.get key).key = key from rfl, live_stored time holds]
    cases kept.filter (·.alive (millis time)) with
    | none => rfl
    | some kept => rfl
  unfold serve RedisCache.get
  rw [alone_map, alone_perform, executed]
  rfl

end One

/-! ## Every run -/

section Runs

variable {key : String} {operation : Operation}

end Runs

def second (seconds : ℕ) : Reading := { midnight with seconds }

end BackendFoundation.CacheValues
