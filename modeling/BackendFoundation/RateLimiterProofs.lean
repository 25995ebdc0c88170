import BackendFoundation.RateLimiter
import BackendFoundation.TokenBuckets

/-! The Redis limiter is an ideal token bucket for each key, whatever Redis
forgets and whenever other keys are called, and what such a bucket promises
about the calls it allows within a window. -/
namespace BackendFoundation.RateLimiterProofs
open PythonValues TokenBuckets RateLimiter

/-- The ideal bucket of a limit: it holds the quota and refills it in a window. -/
def Limit.shape (limit : Limit) : Shape ℚ where
  capacity := limit.quota
  rate := limit.quota / limit.windowS
  capacity_nonneg := Nat.cast_nonneg _
  rate_pos := div_pos (Nat.cast_pos.mpr limit.quota_pos) (Nat.cast_pos.mpr limit.window_pos)

/-- What is stored for a key stands for this fill of its ideal bucket: the same
tokens and time, or nothing once the bucket is full for good. -/
def StandsFor (limit : Limit) (now : ℚ) (fill : Fill (Limit.shape limit)) : Option Stored → Prop
  | some stored => stored.tokens = fill.tokens ∧ stored.ts = fill.since ∧
      stored.expires = stored.ts + limit.windowS
  | none => ∀ later, now ≤ later → fill.level later = limit.quota

variable {limit : Limit} {now : ℚ} {fill : Fill (Limit.shape limit)} {res : Option Stored}

/-- The script computes the ideal bucket's next answer. -/
theorem script_takes (time : Reading) (stands : StandsFor limit now fill res)
    (ordered : now ≤ time.now) :
    luaScript limit.quota limit.windowS time res =
      (⟨(fill.take time.now).2.tokens, time.now, time.now + limit.windowS⟩,
        if (fill.take time.now).1 then 1 else 0, ⌊(fill.take time.now).2.tokens⌋) := by
  have level : refilledTokens limit.quota limit.windowS time.now res = fill.level time.now := by
    cases res with
    | none => exact (stands time.now ordered).symm
    | some stored =>
      obtain ⟨tokens, ts, _⟩ := stands
      rw [refilledTokens, tokens, ts]
      rfl
  simp only [luaScript, level, Fill.take_tokens, Fill.take_granted]
  by_cases granted : 1 ≤ fill.level time.now <;> simp [granted]

/-- An untouched key stands for the same fill at any later moment. -/
theorem standsFor_later {later : ℚ} (stands : StandsFor limit now fill res)
    (after : now ≤ later) : StandsFor limit later fill res := by
  cases res with
  | none => exact fun moment since => stands moment (after.trans since)
  | some stored => exact stands

/-- Once its time to live has passed, a key stands for a full bucket, so
removing it changes nothing. -/
theorem standsFor_removed {stored : Stored} {time : ℚ}
    (stands : StandsFor limit now fill (some stored)) (expired : stored.expires ≤ time) :
    StandsFor limit time fill none := by
  obtain ⟨_, ts, expires⟩ := stands
  intro later after
  have window : (0 : ℚ) < limit.windowS := Nat.cast_pos.mpr limit.window_pos
  have elapsed : (limit.windowS : ℚ) ≤ later - fill.since := by
    rw [expires, ts] at expired
    linarith
  have refilled : (limit.windowS : ℚ) * (Limit.shape limit).rate = limit.quota := by
    simp only [Limit.shape]
    field_simp
  refine fill.level_full ?_
  have refill := mul_le_mul_of_nonneg_right elapsed (Limit.shape limit).rate_pos.le
  have tokens := fill.nonneg
  simp only [Limit.shape] at refill refilled tokens ⊢
  linarith

/-- The answers of an ideal bucket as `allow` reports them. -/
def idealAnswers (limit : Limit) (fill : Fill (Limit.shape limit)) (times : List ℚ) :
    List (ℚ × Bool × ℤ) :=
  (fill.answers times).map fun answer => (answer.time, answer.granted, ⌊answer.tokens⌋)

variable {limits : Str → Limit}

/-- One event answers a call on the key as its bucket does and leaves the key
standing for what the bucket is then. -/
theorem step_simulates (key : Str) {redis between : Redis} {event : Event} {decided : List Decided}
    {fill : Fill (Limit.shape (limits key))}
    (stands : StandsFor (limits key) now fill (redis (redisKey key)))
    (stepped : step limits redis event = some (between, decided)) (ordered : now ≤ event.now) :
    ∃ next, StandsFor (limits key) event.now next (between (redisKey key)) ∧
      ∀ later, idealAnswers (limits key) fill (callTimes key [event] ++ later) =
        answersOn key decided ++ idealAnswers (limits key) next later := by
  cases event with
  | allow called time =>
    simp only [step, Option.some.injEq, Prod.mk.injEq] at stepped
    obtain ⟨rfl, rfl⟩ := stepped
    by_cases own : called = key
    · subst own
      have taken := script_takes time stands ordered
      refine ⟨(fill.take time.now).2, ?_, fun later => ?_⟩
      · simp [allow, taken, StandsFor]
      · cases granted : (fill.take time.now).1 <;>
          simp [allow, taken, callTimes, answersOn, idealAnswers, Fill.answers, granted]
    · have apart : redisKey key ≠ redisKey called :=
        fun same => own (redisKey_injective same).symm
      refine ⟨fill, ?_, fun later => ?_⟩
      · have kept : (allow redis called (limits called).quota (limits called).windowS time).1
            (redisKey key) = redis (redisKey key) := Function.update_of_ne apart _ _
        rw [kept]
        exact standsFor_later stands ordered
      · simp [callTimes, answersOn, own]
  | remove removed time =>
    refine ⟨fill, ?_, fun later => ?_⟩
    · cases found : redis removed with
      | none => simp [step, found] at stepped
      | some stored =>
        simp only [step, found, Option.ite_none_right_eq_some, Option.some.injEq,
          Prod.mk.injEq] at stepped
        obtain ⟨expired, rfl, _⟩ := stepped
        by_cases own : removed = redisKey key
        · subst own
          rw [Function.update_self]
          rw [found] at stands
          exact standsFor_removed stands expired
        · rw [Function.update_of_ne (Ne.symm own)]
          exact standsFor_later stands ordered
    · have silent : decided = [] := by
        simp only [step] at stepped
        split at stepped
        · simp only [Option.ite_none_right_eq_some, Option.some.injEq, Prod.mk.injEq] at stepped
          exact stepped.2.2.symm
        · cases stepped
      simp [callTimes, answersOn, silent]

/-- Any run leaves each key standing for a fill of its bucket and has answered
the calls on it as the bucket does. -/
theorem run_simulates (key : Str) {redis final : Redis} {events : List Event}
    {decisions : List Decided} {fill : Fill (Limit.shape (limits key))}
    (stands : StandsFor (limits key) now fill (redis (redisKey key)))
    (ran : run limits redis events = some (final, decisions)) (ordered : Ordered events)
    (later : ∀ event ∈ events, now ≤ event.now) :
    answersOn key decisions = idealAnswers (limits key) fill (callTimes key events) ∧
      ∃ last left, StandsFor (limits key) last left (final (redisKey key)) := by
  induction events generalizing redis decisions now fill with
  | nil =>
    cases ran
    exact ⟨rfl, now, fill, stands⟩
  | cons event rest ih =>
    obtain ⟨after, tail⟩ := List.pairwise_cons.mp ordered
    obtain ⟨⟨between, decided⟩, stepped, ⟨_, made⟩, continued, same⟩ :
        ∃ first, step limits redis event = some first ∧ ∃ second,
          run limits first.1 rest = some second ∧
            (second.1, first.2 ++ second.2) = (final, decisions) := by
      simpa [run, Option.bind_eq_some_iff] using ran
    cases same
    obtain ⟨next, standing, answered⟩ :=
      step_simulates key stands stepped (later event List.mem_cons_self)
    obtain ⟨answers, left⟩ := ih standing continued tail fun next member =>
      after _ (List.mem_map_of_mem member)
    have calls : callTimes key (event :: rest) = callTimes key [event] ++ callTimes key rest := by
      rw [callTimes, callTimes, callTimes, ← List.filterMap_append, List.singleton_append]
    rw [calls, answered, ← answers]
    exact ⟨by simp [answersOn], left⟩

/-- A missing key stands for a bucket that is full from the beginning of time. -/
theorem starts_full (limit : Limit) :
    StandsFor limit 0 (Fill.full (Limit.shape limit) 0) none := by
  intro later after
  refine Fill.level_full _ ?_
  have refill : 0 ≤ (later - 0) * (Limit.shape limit).rate :=
    mul_nonneg (sub_nonneg.mpr after) (Limit.shape limit).rate_pos.le
  simp only [Fill.full] at refill ⊢
  linarith

theorem reading_nonneg (event : Event) : 0 ≤ event.now := by
  cases event <;> exact add_nonneg (Nat.cast_nonneg _) (by positivity)

/-- **Expiry is invisible.** From empty keys on, every run in which Redis removes
keys only after their time to live answers the calls on each key as a bucket
that never expires, and what is stored stays between nothing and the quota. -/
theorem limiter_is_ideal_bucket (limits : Str → Limit) (events : List Event)
    (ordered : Ordered events) {final : Redis} {decisions : List Decided}
    (ran : run limits (fun _ => none) events = some (final, decisions)) (key : Str) :
    answersOn key decisions =
        idealAnswers (limits key) (Fill.full (Limit.shape (limits key)) 0) (callTimes key events) ∧
      ∀ stored, final (redisKey key) = some stored →
        0 ≤ stored.tokens ∧ stored.tokens ≤ (limits key).quota := by
  obtain ⟨answers, last, left, stands⟩ :=
    run_simulates key (starts_full (limits key)) ran ordered fun event _ => reading_nonneg event
  refine ⟨answers, fun stored found => ?_⟩
  rw [found] at stands
  rw [stands.1]
  exact ⟨left.nonneg, left.capped⟩

/-- A key that expires between two of its calls, while another key is called. -/
theorem expired_key_is_ideal_bucket :
    ∃ final decisions,
      run (fun _ => ⟨2, 60, by decide, by decide⟩) (fun _ => none)
        [.allow (str "a") ⟨5, 0⟩, .allow (str "b") ⟨30, 0⟩, .remove (str "rl:a") ⟨65, 0⟩,
          .allow (str "a") ⟨70, 0⟩] = some (final, decisions) ∧
      answersOn (str "a") decisions =
        idealAnswers ⟨2, 60, by decide, by decide⟩ (Fill.full _ 0)
          (callTimes (str "a") [.allow (str "a") ⟨5, 0⟩, .allow (str "b") ⟨30, 0⟩,
            .remove (str "rl:a") ⟨65, 0⟩, .allow (str "a") ⟨70, 0⟩]) := by
  have legal : (run (fun _ => ⟨2, 60, by decide, by decide⟩) (fun _ => none)
      [.allow (str "a") ⟨5, 0⟩, .allow (str "b") ⟨30, 0⟩, .remove (str "rl:a") ⟨65, 0⟩,
        .allow (str "a") ⟨70, 0⟩]).isSome := by decide +kernel
  obtain ⟨⟨final, decisions⟩, ran⟩ := Option.isSome_iff_exists.mp legal
  refine ⟨final, decisions, ran, ?_⟩
  exact (limiter_is_ideal_bucket _ _ (by decide +kernel) ran (str "a")).1

/-- The calls allowed within an interval are those the key's bucket grants. -/
theorem allowedWithin_eq_granted {events : List Event} (ordered : Ordered events) {final : Redis}
    {decisions : List Decided} (ran : run limits (fun _ => none) events = some (final, decisions))
    (key : Str) (start stop : ℚ) :
    allowedWithin key start stop decisions =
      (Fill.full (Limit.shape (limits key)) 0).granted start stop (callTimes key events) := by
  obtain ⟨answers, _⟩ :=
    run_simulates key (starts_full (limits key)) ran ordered fun event _ => reading_nonneg event
  rw [allowedWithin, answers, idealAnswers, List.countP_map]
  rfl

/-- The times of a key's calls are some of the times of the events. -/
theorem callTimes_sublist (key : Str) (events : List Event) :
    (callTimes key events).Sublist (events.map Event.now) := by
  induction events with
  | nil => exact .slnil
  | cons event rest ih =>
    cases event with
    | remove removed time => exact ih.cons _
    | allow called time =>
      by_cases own : called = key
      · have here : callTimes key (.allow called time :: rest) = time.now :: callTimes key rest := by
          simp [callTimes, own]
        rw [here]
        exact ih.cons_cons _
      · have elsewhere : callTimes key (.allow called time :: rest) = callTimes key rest := by
          simp [callTimes, own]
        rw [elsewhere]
        exact ih.cons _

theorem callTimes_ordered (key : Str) {events : List Event} (ordered : Ordered events) :
    (callTimes key events).Pairwise (· ≤ ·) :=
  ordered.sublist (callTimes_sublist key events)

/-- Calls alone always run. -/
theorem run_calls (limits : Str → Limit) (key : Str) (redis : Redis) (times : List Reading) :
    ∃ final decisions, run limits redis (times.map (Event.allow key)) = some (final, decisions) := by
  induction times generalizing redis with
  | nil => exact ⟨redis, [], rfl⟩
  | cons time later ih =>
    obtain ⟨final, decisions, ran⟩ :=
      ih (allow redis key (limits key).quota (limits key).windowS time).1
    refine ⟨final, ⟨key, time.now, (allow redis key (limits key).quota (limits key).windowS
      time).2⟩ :: decisions, ?_⟩
    simp [run, step, ran]

/-- Fewer calls are allowed within a half-open interval than the quota and what
comes back over its length. -/
theorem allowedWithin_lt {events : List Event} (ordered : Ordered events) {final : Redis}
    {decisions : List Decided} (ran : run limits (fun _ => none) events = some (final, decisions))
    (key : Str) (start stop : ℚ) (proper : start < stop) :
    (allowedWithin key start stop decisions : ℚ) <
      (limits key).quota + (stop - start) * ((limits key).quota / (limits key).windowS) := by
  rw [allowedWithin_eq_granted ordered ran]
  exact Fill.granted_lt _ _ _ _ (callTimes_ordered key ordered) proper

/-- The last reading before a window that starts at zero is over. -/
def lastReading (limit : Limit) : Reading := ⟨limit.windowS - 1, 999999⟩

theorem lastReading_now (limit : Limit) : (lastReading limit).now = limit.windowS - 1 / 1000000 := by
  have window := limit.window_pos
  simp only [lastReading, Reading.now]
  push_cast [window]
  norm_num
  ring

/-- A bucket emptied at once has all but one of its tokens back just before its
window is over, so a burst at both ends of the window is granted. -/
theorem bursts_granted (limit : Limit) (coarse : limit.quota ≤ 1000000 * limit.windowS) :
    (Fill.full (Limit.shape limit) 0).granted 0 limit.windowS
        (List.replicate limit.quota 0 ++
          List.replicate (limit.quota - 1) (lastReading limit).now) = 2 * limit.quota - 1 := by
  have window : (1 : ℚ) ≤ limit.windowS := by exact_mod_cast limit.window_pos
  have quota : (1 : ℚ) ≤ limit.quota := by exact_mod_cast limit.quota_pos
  have fine : (limit.quota : ℚ) ≤ 1000000 * limit.windowS := by exact_mod_cast coarse
  have last := lastReading_now limit
  have full : (Fill.full (Limit.shape limit) 0).level 0 = limit.quota :=
    starts_full limit 0 le_rfl
  obtain ⟨left, since, drained, first⟩ := (Fill.full (Limit.shape limit) 0).granted_burst
    0 limit.windowS 0 limit.quota (List.replicate (limit.quota - 1) (lastReading limit).now)
    ⟨le_rfl, by linarith⟩ le_rfl full.ge
  have refill : ((limit.quota - 1 : ℕ) : ℚ) ≤ left.level (lastReading limit).now := by
    have lost : (limit.quota : ℚ) / limit.windowS * (1 / 1000000) ≤ 1 := by
      rw [div_mul_eq_mul_div, div_le_one (by linarith)]
      linarith
    have back : ((limit.windowS : ℚ) - 1 / 1000000 - 0) * (limit.quota / limit.windowS) =
        limit.quota - limit.quota / limit.windowS * (1 / 1000000) := by
      field_simp
      ring
    rw [left.level_level since (by rw [last]; linarith), drained, full, last]
    simp only [Limit.shape, back]
    push_cast [limit.quota_pos]
    exact le_min (by linarith) (by linarith)
  obtain ⟨_, _, _, second⟩ := left.granted_burst 0 limit.windowS (lastReading limit).now
    (limit.quota - 1) [] ⟨by rw [last]; linarith, by rw [last]; linarith⟩
    (since.trans (by rw [last]; linarith)) refill
  rw [List.append_nil, Fill.granted_nil] at second
  rw [first, second]
  have positive := limit.quota_pos
  omega

/-- **At most twice the quota less one.** In no half-open window of a key's
length are more calls allowed on it, and so many can be unless a token comes
back faster than a clock tick. -/
theorem window_bound (limits : Str → Limit) (key : Str) :
    (∀ events final decisions, Ordered events →
      run limits (fun _ => none) events = some (final, decisions) → ∀ start,
        allowedWithin key start (start + (limits key).windowS) decisions ≤
          2 * (limits key).quota - 1) ∧
    ((limits key).quota ≤ 1000000 * (limits key).windowS →
      ∃ events final decisions, Ordered events ∧
        run limits (fun _ => none) events = some (final, decisions) ∧
          allowedWithin key 0 (limits key).windowS decisions = 2 * (limits key).quota - 1) := by
  have window : (0 : ℚ) < (limits key).windowS := Nat.cast_pos.mpr (limits key).window_pos
  constructor
  · intro events final decisions ordered ran start
    have bound := allowedWithin_lt ordered ran key start (start + (limits key).windowS)
      (by linarith)
    have refill : (start + (limits key).windowS - start) *
        ((limits key).quota / (limits key).windowS : ℚ) = (limits key).quota := by
      field_simp
      ring
    rw [refill] at bound
    have counted : allowedWithin key start (start + (limits key).windowS) decisions <
        (limits key).quota + (limits key).quota := by exact_mod_cast bound
    omega
  · intro coarse
    have calls : ∀ times : List Reading,
        callTimes key (times.map (Event.allow key)) = times.map Reading.now := by
      intro times
      simp [callTimes, List.filterMap_map]
    let times := List.replicate (limits key).quota (⟨0, 0⟩ : Reading) ++
      List.replicate ((limits key).quota - 1) (lastReading (limits key))
    have zero : Reading.now ⟨0, 0⟩ = 0 := by norm_num [Reading.now]
    have moments : times.map Reading.now = List.replicate (limits key).quota 0 ++
        List.replicate ((limits key).quota - 1) (lastReading (limits key)).now := by
      simp only [times, List.map_append, List.map_replicate, zero]
    have ordered : Ordered (times.map (Event.allow key)) := by
      have readings : (times.map (Event.allow key)).map Event.now = times.map Reading.now := by
        rw [List.map_map]
        rfl
      rw [Ordered, readings, moments, List.pairwise_append]
      refine ⟨List.pairwise_replicate.mpr (.inr le_rfl), List.pairwise_replicate.mpr (.inr le_rfl),
        fun early first late second => ?_⟩
      rw [List.eq_of_mem_replicate first, List.eq_of_mem_replicate second]
      exact reading_nonneg (.allow key (lastReading (limits key)))
    obtain ⟨final, decisions, ran⟩ := run_calls limits key (fun _ => none) times
    refine ⟨times.map (Event.allow key), final, decisions, ordered, ran, ?_⟩
    rw [allowedWithin_eq_granted ordered ran, calls, moments]
    exact bursts_granted (limits key) coarse

/-- The quota alone is no bound: a quota of two in two seconds, and three calls
allowed within the first two seconds. -/
theorem quota_exceeded_in_window :
    ¬ ∀ (limits : Str → Limit) (key : Str) (events : List Event) (final : Redis)
      (decisions : List Decided), Ordered events →
      run limits (fun _ => none) events = some (final, decisions) → ∀ start,
        allowedWithin key start (start + (limits key).windowS) decisions ≤ (limits key).quota := by
  intro quota
  have counted : (run (fun _ => ⟨2, 2, by decide, by decide⟩) (fun _ => none)
      [.allow (str "a") ⟨0, 0⟩, .allow (str "a") ⟨0, 0⟩, .allow (str "a") ⟨1, 0⟩]).map
        (fun result => allowedWithin (str "a") 0 (0 + 2) result.2) = some 3 := by
    decide +kernel
  obtain ⟨⟨final, decisions⟩, ran, three⟩ := Option.map_eq_some_iff.mp counted
  have bound := quota _ (str "a") _ final decisions (by decide +kernel) ran 0
  dsimp only at bound three
  push_cast at bound
  omega

end BackendFoundation.RateLimiterProofs
