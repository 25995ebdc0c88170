import BackendFoundation.CacheValues

/-! Counters in the cache: any number of callers of `incr` and `get` on one key, with any
operations of the adapters under other keys between them. -/
namespace BackendFoundation.CacheCounters
open RequestPrograms ExpiringKeys TurnTaking KeyedServers SerialRuns SharedRedis AdapterIsolation CacheValues
open RateLimiter (Reading)

/-! ## Counters -/

/-- A key that is absent, or holds a number that Redis can count from. -/
structure Counter where
  count : Option ℤ
  low : -2 ^ 63 ≤ count.getD 0
  high : count.getD 0 < 2 ^ 63

/-- A number as Redis stores it. -/
def text (n : ℤ) : ByteArray := (toString n).toUTF8

/-- What the key holds, with no time to live. -/
def entry (count : Option ℤ) : Option (Entry Value) := stored (count.map fun n => ⟨text n, none⟩)

/-- What is counted after `k` increments; from the largest number on they are refused. -/
def Counter.after (counter : Counter) (k : ℕ) : Option ℤ :=
  if k = 0 then counter.count else some (min (counter.count.getD 0 + k) (2 ^ 63 - 1))

/-- What an operation on the counter ends with after `k` increments. -/
def Counter.told (counter : Counter) (k : ℕ) : Operation → Except Error Outcome
  | .cache (.incr _) =>
    if counter.count.getD 0 + k + 1 < 2 ^ 63 then .ok (.number (counter.count.getD 0 + k + 1))
    else .error .responseError
  | _ => .ok (.value ((counter.after k).map text))

def Counts (key : String) (operation : Operation) : Prop :=
  operation = .cache (.get key) ∨ operation = .cache (.incr key)

def adds : Operation → ℕ
  | .cache (.incr _) => 1
  | _ => 0

def increments (operations : ℕ → Operation) (turns : List (ℕ × Reading)) : ℕ :=
  (turns.map fun turn => adds (operations turn.1)).sum

theorem increments_append (operations : ℕ → Operation) (turns : List (ℕ × Reading))
    (turn : ℕ × Reading) : increments operations (turns ++ [turn]) =
      increments operations turns + adds (operations turn.1) := by
  simp [increments]

theorem Counter.getD_after (counter : Counter) (k : ℕ) :
    (counter.after k).getD 0 = min (counter.count.getD 0 + k) (2 ^ 63 - 1) := by
  have high := counter.high
  unfold Counter.after
  split
  · rename_i zero
    rw [zero]
    omega
  · rfl

/-! ## One operation -/

theorem integer_text {n : ℤ} (low : -2 ^ 63 ≤ n) (high : n < 2 ^ 63) :
    integer (text n) = some n := by
  have decoded : String.fromUTF8? (toString n).toUTF8 = some (toString n) :=
    dif_pos (toString n).isValidUTF8
  have read : (toString n).toInt? = some n := Int.toInt?_repr n
  unfold integer text
  rw [decoded]
  change (toString n).toInt?.bind _ = _
  rw [read]
  exact if_pos (by simpa using And.intro low high)

section One

variable {redis : Redis} {key : String} {count : Option ℤ} (time : Reading)

theorem live_entry (holds : redis key = entry count) :
    redis.live (millis time) key = entry count := by
  rw [live_stored time holds]
  cases count with
  | none => rfl
  | some n => rfl

theorem respond_incr (low : -2 ^ 63 ≤ count.getD 0) (high : count.getD 0 < 2 ^ 63) :
    respond time (.incr key) (entry count) =
      if count.getD 0 + 1 < 2 ^ 63 then
        (.ok (count.getD 0 + 1), .put ⟨.string (text (count.getD 0 + 1)), none⟩)
      else (.error .responseError, .keep) := by
  cases count with
  | none => rfl
  | some n =>
    -- The number that is stored reads back, so the branches are those of the sum.
    have read : integer (text n) = some n := integer_text low high
    simp only [respond, entry, stored, Option.map_some, read]
    rfl

theorem alone_incr (holds : redis key = entry count) (low : -2 ^ 63 ≤ count.getD 0)
    (high : count.getD 0 < 2 ^ 63) :
    (alone server time (serve (.cache (.incr key))) redis).1 =
        (if count.getD 0 + 1 < 2 ^ 63 then .ok (.number (count.getD 0 + 1))
          else .error .responseError) ∧
      (alone server time (serve (.cache (.incr key))) redis).2 key =
        entry (some (min (count.getD 0 + 1) (2 ^ 63 - 1))) := by
  have executed : server.execute time (.incr key) redis =
      ((respond time (.incr key) (entry count)).1,
        (respond time (.incr key) (entry count)).2.on redis key) := by
    change execute time (.incr key) redis = _
    unfold execute
    rw [show (Command.incr key).key = key from rfl, live_entry time holds]
  rw [respond_incr time low high] at executed
  unfold serve RedisCache.incr
  rw [alone_map, alone_perform, executed]
  split
  · rename_i room
    rw [min_eq_left (by omega)]
    exact ⟨rfl, Function.update_self _ _ _⟩
  · rename_i full
    refine ⟨rfl, holds.trans ?_⟩
    cases count with
    | none => exact absurd (by decide) full
    | some n =>
      dsimp only [Option.getD_some] at high full
      rw [Option.getD_some, show min (n + 1) (2 ^ 63 - 1) = n by omega]

end One

/-! ## Every run -/

section Runs

variable {counter : Counter} {key : String} {redis : Redis} {k : ℕ} {operation : Operation}

theorem alone_counts (time : Reading) (counts : Counts key operation)
    (holds : redis key = entry (counter.after k)) :
    (alone server time (serve operation) redis).1 = counter.told k operation ∧
      (alone server time (serve operation) redis).2 key =
        entry (counter.after (k + adds operation)) := by
  have low := counter.low
  have number := counter.getD_after k
  rcases counts with rfl | rfl
  · rw [alone_get time holds]
    refine ⟨?_, holds⟩
    unfold CacheValues.told Counter.told
    cases counter.after k with
    | none => rfl
    | some n => rfl
  · obtain ⟨answers, leaves⟩ := alone_incr time holds (by omega) (by omega)
    have after : counter.after (k + 1) =
        some (min ((counter.after k).getD 0 + 1) (2 ^ 63 - 1)) := by
      rw [Counter.after, if_neg (by omega), number]
      congr 1
      omega
    refine ⟨answers.trans ?_, leaves.trans (congrArg entry after.symm)⟩
    dsimp only [Counter.told]
    rw [number]
    split
    · rw [if_pos (by omega), min_eq_left (by omega)]
    · rw [if_neg (by omega)]

/-- An operation on a counter is one command. -/
theorem atMostOne_of_counts (counts : Counts key operation) : AtMostOne (serve operation) := by
  rcases counts with rfl | rfl
  · exact (Program.EndsWithin.perform _).bind_end fun _ => trivial
  · exact (Program.EndsWithin.perform _).bind_end fun _ => trivial

end Runs

/-- **No increment is lost.** Whatever operations of the adapters run under other keys, and
however all their commands interleave, the operations on a counter are served in turn, with
all increments before and no others counted. -/
theorem counters_lose_no_increment (counter : Counter) (operations : ℕ → Operation) (key : String)
    (redis : Redis) (schedule : List (ℕ × Reading)) (holds : redis key = entry counter.count)
    (counts : ∀ n, (operations n).redisKey = key → Counts key (operations n)) :
    InTurn (fun n => (operations n).redisKey) key schedule
      (fun before turn => counter.told (increments operations before) (operations turn.1))
      (fun turns => entry (counter.after (increments operations turns)))
      (server.run (started redis operations) schedule) := by
  refine inTurn_run (fun n here => atMostOne_of_counts (counts n here))
    (fun n => serve_keepsTo (operations n)) ?_ holds schedule
  intro before turn keys here left_before
  dsimp only at left_before ⊢
  rw [increments_append]
  exact alone_counts turn.2 (counts turn.1 here) left_before

/-- Visits are counted and read beside a limiter of the same name. -/
def visits : ℕ → Operation
  | 0 => .cache (.incr "visits")
  | 1 => .cache (.get "visits")
  | 2 => .cache (.incr "visits")
  | _ => .allow "visits" 5 60

def visitTurns : List (ℕ × Reading) := [(0, midnight), (3, midnight), (1, midnight), (2, midnight)]

theorem sample_visits_are_counted :
    let system := server.run (started (fun _ => none) visits) visitTurns
    (system.programs 1).result? = some (.ok (.value (some (text 1)))) ∧
      (system.programs 2).result? = some (.ok (.number 2)) ∧
      system.state "visits" = entry (some 2) := by
  have counts : ∀ n, (visits n).redisKey = "visits" → Counts "visits" (visits n) := by
    intro n here
    rcases n with _ | _ | _ | n
    · exact .inr rfl
    · exact .inl rfl
    · exact .inr rfl
    · have apart : RedisRateLimiter.redisKey "visits" ≠ "visits" := by decide
      exact absurd here apart
  have served := counters_lose_no_increment ⟨none, by decide, by decide⟩ visits "visits"
    (fun _ => none) visitTurns rfl counts
  exact ⟨served.answered [(0, midnight)] (1, midnight) [(2, midnight)] rfl,
    served.answered [(0, midnight), (1, midnight)] (2, midnight) [] rfl, served.kept⟩

end BackendFoundation.CacheCounters
