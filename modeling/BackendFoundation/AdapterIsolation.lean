import BackendFoundation.SharedRedis

/-! Operations of the three adapters over one database. The limiter and the idempotency
store keep to key spaces of their own; the cache has none, so it is isolated from the
others exactly as long as no key of its is a key of theirs. -/
namespace BackendFoundation.AdapterIsolation
open RequestPrograms ExpiringKeys TurnTaking KeyedServers SharedRedis
open RateLimiter (Reading)

/-- The operation's adapter and key tell it from the other's: they belong to different
adapters, or to the limiter or the idempotency store with different keys. -/
def Foreign : Operation → Operation → Prop
  | .cache _, .cache _ => False
  | .allow key _ _, .allow other _ _ => key ≠ other
  | .idempotency call, .idempotency other => call.key ≠ other.key
  | _, _ => True

/-- The keys that the callers of each adapter choose. -/
structure Keys where
  caches : Set String
  limiters : Set String
  idempotencies : Set String

def Keys.Admit (keys : Keys) : Operation → Prop
  | .cache call => call.key ∈ keys.caches
  | .allow key _ _ => key ∈ keys.limiters
  | .idempotency call => call.key ∈ keys.idempotencies

/-- No cache key is the Redis key of another adapter's key. -/
def Keys.Apart (keys : Keys) : Prop :=
  ∀ key ∈ keys.caches, (∀ limiter ∈ keys.limiters, key ≠ "rl:" ++ limiter) ∧
    ∀ idempotency ∈ keys.idempotencies, key ≠ "idem:" ++ idempotency

abbrev Database := Served ℕ String (Option (Entry Value)) Command Reply Error Outcome

/-- The operations before their first commands. -/
def started (redis : Redis) (operations : ℕ → Operation) : Database where
  state := redis
  programs n := serve (operations n)

/-- The server's clock never runs backwards. -/
def Ordered (schedule : List (ℕ × Reading)) : Prop :=
  schedule.Pairwise fun turn later => turn.2.now ≤ later.2.now

/-- Whatever the database holds, whatever operations with these keys are called and
however their commands interleave, an operation ends as it does when any others that
are foreign to it are left out. -/
def Keys.Isolated (keys : Keys) : Prop :=
  ∀ (redis : Redis) (operations : ℕ → Operation) (schedule : List (ℕ × Reading)),
    (∀ n, keys.Admit (operations n)) → Ordered schedule →
    ∀ (dropped : ℕ → Bool) (n : ℕ),
      (∀ other, dropped other = true → Foreign (operations other) (operations n)) →
      ((server.run (started redis operations) schedule).programs n).result? =
        ((server.run (started redis operations)
          (schedule.filter fun turn => !dropped turn.1)).programs n).result?

/-! ## Apart, hence isolated -/

section Homes

variable {key : String}

private theorem keepsTo_perform {command : Command} (own : command.key = key) :
    KeepsTo server key (Program.perform command : Client (Reply command)) :=
  KeepsTo.perform own

private theorem keepsTo_get : KeepsTo server (IdempotencyStore.redisKey key)
    (IdempotencyStore.get client key) := by
  apply KeepsTo.bind (keepsTo_perform rfl)
  intro stored
  cases stored with
  | none => trivial
  | some val =>
    dsimp only
    cases String.fromUTF8? val with
    | none => trivial
    | some val => trivial

private theorem keepsTo_begin (ttlS : ℤ) : KeepsTo server (IdempotencyStore.redisKey key)
    (IdempotencyStore.begin client key ttlS) := by
  apply KeepsTo.bind (keepsTo_perform rfl)
  intro success
  cases success with
  | true => trivial
  | false => exact keepsTo_get.bind fun _ => trivial

/-- Every command of an operation is about the operation's key. -/
theorem serve_keepsTo (operation : Operation) :
    KeepsTo server operation.redisKey (serve operation) := by
  cases operation with
  | cache call =>
    cases call with
    | get key => exact (keepsTo_perform rfl).bind fun _ => trivial
    | set key value ttlS =>
      exact KeepsTo.bind ((keepsTo_perform rfl).bind fun _ => trivial) fun _ => trivial
    | delete key => exact KeepsTo.bind ((keepsTo_perform rfl).bind fun _ => trivial) fun _ => trivial
    | incr key => exact (keepsTo_perform rfl).bind fun _ => trivial
    | expire key ttlS =>
      exact KeepsTo.bind ((keepsTo_perform rfl).bind fun _ => trivial) fun _ => trivial
  | allow key quota windowS =>
    exact KeepsTo.bind ((keepsTo_perform rfl).bind fun _ => trivial) fun _ => trivial
  | idempotency call =>
    cases call with
    | begin key ttlS => exact (keepsTo_begin ttlS).bind fun _ => trivial
    | complete key responseHash =>
      exact KeepsTo.bind ((keepsTo_perform rfl).bind fun _ => trivial) fun _ => trivial
    | get key => exact keepsTo_get.bind fun _ => trivial

end Homes

/-- The prefixes differ in their first letter. -/
theorem rl_ne_idem (limiter idempotency : String) : "rl:" ++ limiter ≠ "idem:" ++ idempotency := by
  intro same
  have letters := congrArg String.toList same
  rw [String.toList_append, String.toList_append] at letters
  have first := congrArg List.head? letters
  simp at first

theorem redisKey_ne {keys : Keys} (apart : keys.Apart) {operation other : Operation}
    (admitted : keys.Admit operation) (admitted' : keys.Admit other)
    (foreign : Foreign operation other) : operation.redisKey ≠ other.redisKey := by
  cases operation with
  | cache call =>
    cases other with
    | cache other => exact foreign.elim
    | allow key quota windowS => exact (apart _ admitted).1 _ admitted'
    | idempotency other => exact (apart _ admitted).2 _ admitted'
  | allow key quota windowS =>
    cases other with
    | cache other => exact ((apart _ admitted').1 _ admitted).symm
    | allow other quota' windowS' =>
      intro same
      exact foreign ((String.append_right_inj "rl:").mp same)
    | idempotency other => exact rl_ne_idem _ _
  | idempotency call =>
    cases other with
    | cache other => exact ((apart _ admitted').2 _ admitted).symm
    | allow other quota windowS => exact (rl_ne_idem _ _).symm
    | idempotency other =>
      intro same
      exact foreign ((String.append_right_inj "idem:").mp same)

theorem isolated_of_apart {keys : Keys} (apart : keys.Apart) : keys.Isolated := by
  intro redis operations schedule admitted _ dropped n foreign
  have homes : ∀ m, KeepsTo server (operations m).redisKey
      ((started redis operations).programs m) := fun m => serve_keepsTo (operations m)
  have elsewhere : ∀ m, dropped m = true → (operations m).redisKey ≠ (operations n).redisKey :=
    fun m left => redisKey_ne apart (admitted m) (admitted n) (foreign m left)
  rw [run_without dropped schedule homes elsewhere]

/-! ## Isolated, hence apart -/

def midnight : Reading := ⟨0, ⟨0, by decide⟩⟩

/-- A value is cached under the Redis key of a limiter's key, and the limiter is asked. -/
def cachedLimiter (limiter : String) : ℕ → Operation
  | 0 => .cache (.set ("rl:" ++ limiter) "x".toUTF8 none)
  | _ => .allow limiter 5 60

/-- The Redis key of an idempotency key that has begun is deleted from the cache, and
the idempotency key begins again. -/
def deletedRecord (idempotency : String) : ℕ → Operation
  | 1 => .cache (.delete ("idem:" ++ idempotency))
  | _ => .idempotency (.begin idempotency 60)

section Clashes

attribute [local simp] Server.run System.step started serve Program.perform server execute respond
  Write.on Command.key Keyspace.live Entry.alive Option.filter Program.result? setExpiry inRange millis
  midnight RedisRateLimiter.redisKey IdempotencyStore.redisKey

variable (limiter idempotency : String)

theorem limiter_raises :
    ((server.run (started (fun _ => none) (cachedLimiter limiter))
      [(0, midnight), (1, midnight)]).programs 1).result? = some (.error .responseError) := by
  simp [cachedLimiter, RedisCache.set, RedisRateLimiter.allow, fields]

theorem limiter_alone :
    ((server.run (started (fun _ => none) (cachedLimiter limiter))
      [(1, midnight)]).programs 1).result? = some (.ok (.decided ⟨true, 4, 60⟩)) := by
  simp [cachedLimiter, RedisRateLimiter.allow, fields, luaTokens]

theorem begins_again :
    ((server.run (started (fun _ => none) (deletedRecord idempotency))
      [(0, midnight), (1, midnight), (2, midnight), (2, midnight)]).programs 2).result? =
        some (.ok (.began ⟨.new, none⟩)) := by
  simp [deletedRecord, RedisCache.delete, client, IdempotencyStore.begin]

theorem still_in_flight :
    ((server.run (started (fun _ => none) (deletedRecord idempotency))
      [(0, midnight), (2, midnight), (2, midnight)]).programs 2).result? =
        some (.ok (.began ⟨.inFlight, none⟩)) := by
  have decoded : String.fromUTF8? "in_flight".toByteArray = some "in_flight" :=
    dif_pos (String.isValidUTF8 _)
  simp [deletedRecord, client, IdempotencyStore.begin, IdempotencyStore.get, decoded,
    IdempotencyStore.parse]

end Clashes

theorem apart_of_isolated {keys : Keys} (isolated : keys.Isolated) : keys.Apart := by
  intro key cached
  constructor
  · rintro limiter limited rfl
    have admitted : ∀ n, keys.Admit (cachedLimiter limiter n)
      | 0 => cached
      | _ + 1 => limited
    have foreign : ∀ other, (other == 0) = true →
        Foreign (cachedLimiter limiter other) (cachedLimiter limiter 1) := by
      intro other first
      rw [eq_of_beq first]
      trivial
    have same := isolated (fun _ => none) (cachedLimiter limiter) [(0, midnight), (1, midnight)]
      admitted (by simp [Ordered]) (· == 0) 1 foreign
    rw [limiter_raises] at same
    cases same.trans (limiter_alone limiter)
  · rintro idempotency kept rfl
    have admitted : ∀ n, keys.Admit (deletedRecord idempotency n)
      | 0 => kept
      | 1 => cached
      | _ + 2 => kept
    have foreign : ∀ other, (other == 1) = true →
        Foreign (deletedRecord idempotency other) (deletedRecord idempotency 2) := by
      intro other second
      rw [eq_of_beq second]
      trivial
    have same := isolated (fun _ => none) (deletedRecord idempotency)
      [(0, midnight), (1, midnight), (2, midnight), (2, midnight)]
      admitted (by simp [Ordered]) (· == 1) 2 foreign
    rw [begins_again] at same
    cases same.trans (still_in_flight idempotency)

/-- The adapters are isolated from one another, and the limiter's and the idempotency
store's keys from each other, exactly for the keys in use of which no cache key is
another adapter's Redis key. -/
theorem isolated_iff_apart (keys : Keys) : keys.Isolated ↔ keys.Apart :=
  ⟨apart_of_isolated, isolated_of_apart⟩

/-- A value in the cache makes the limiter raise instead of allowing the call. -/
theorem cached_value_stops_limiter :
    Foreign (cachedLimiter "u" 0) (cachedLimiter "u" 1) ∧
      ((server.run (started (fun _ => none) (cachedLimiter "u"))
        [(0, midnight), (1, midnight)]).programs 1).result? = some (.error .responseError) ∧
      ((server.run (started (fun _ => none) (cachedLimiter "u"))
        ([(0, midnight), (1, midnight)].filter fun turn => turn.1 != 0)).programs 1).result? =
          some (.ok (.decided ⟨true, 4, 60⟩)) :=
  ⟨trivial, limiter_raises "u", limiter_alone "u"⟩

end BackendFoundation.AdapterIsolation
