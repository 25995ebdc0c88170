import Mathlib.Algebra.Order.Field.Basic
import Mathlib.Algebra.Order.Floor.Ring
import Mathlib.Tactic.Linarith
import Mathlib.Tactic.Ring

/-! Token buckets over any ordered field: a capacity, a rate at which tokens
come back, and one token taken by each granted request. A fill carries the
bounds on its tokens, so no bucket is ever overfull or overdrawn. -/
namespace BackendFoundation.TokenBuckets

/-- A bucket's capacity and the tokens that come back in one unit of time. -/
structure Shape (K : Type) [Field K] [LinearOrder K] where
  capacity : K
  rate : K
  capacity_nonneg : 0 ≤ capacity
  rate_pos : 0 < rate

variable {K : Type} [Field K] [LinearOrder K] [IsStrictOrderedRing K]

/-- The tokens of a bucket as they were at one moment. -/
structure Fill (shape : Shape K) where
  tokens : K
  since : K
  nonneg : 0 ≤ tokens
  capped : tokens ≤ shape.capacity

namespace Fill

variable {shape : Shape K}

def full (shape : Shape K) (since : K) : Fill shape :=
  ⟨shape.capacity, since, shape.capacity_nonneg, le_rfl⟩

/-- The tokens in the bucket now. -/
def level (fill : Fill shape) (now : K) : K :=
  min shape.capacity (fill.tokens + max 0 (now - fill.since) * shape.rate)

theorem level_nonneg (fill : Fill shape) (now : K) : 0 ≤ fill.level now := by
  refine le_min shape.capacity_nonneg ?_
  have refill : 0 ≤ max 0 (now - fill.since) * shape.rate :=
    mul_nonneg (le_max_left _ _) shape.rate_pos.le
  linarith [fill.nonneg]

omit [IsStrictOrderedRing K] in
theorem level_capped (fill : Fill shape) (now : K) : fill.level now ≤ shape.capacity :=
  min_le_left _ _

theorem level_le (fill : Fill shape) {now : K} (later : fill.since ≤ now) :
    fill.level now ≤ fill.tokens + (now - fill.since) * shape.rate := by
  have elapsed : max 0 (now - fill.since) = now - fill.since := max_eq_right (by linarith)
  rw [level, elapsed]
  exact min_le_right _ _

/-- A bucket refills completely in the time its capacity takes to come back. -/
theorem level_full (fill : Fill shape) {now : K}
    (refilled : shape.capacity ≤ fill.tokens + (now - fill.since) * shape.rate) :
    fill.level now = shape.capacity := by
  refine min_eq_left (refilled.trans ?_)
  have elapsed := mul_le_mul_of_nonneg_right (le_max_right 0 (now - fill.since)) shape.rate_pos.le
  linarith

/-- One request: a token is taken if there is one, and the bucket as it is then. -/
def take (fill : Fill shape) (now : K) : Bool × Fill shape :=
  if granted : 1 ≤ fill.level now then
    (true, ⟨fill.level now - 1, now, sub_nonneg.mpr granted,
      (sub_le_self _ zero_le_one).trans (fill.level_capped now)⟩)
  else (false, ⟨fill.level now, now, fill.level_nonneg now, fill.level_capped now⟩)

theorem take_granted (fill : Fill shape) (now : K) :
    (fill.take now).1 = decide (1 ≤ fill.level now) := by
  unfold take
  split <;> simp_all

theorem take_tokens (fill : Fill shape) (now : K) :
    (fill.take now).2.tokens = fill.level now - if (fill.take now).1 then 1 else 0 := by
  unfold take
  split <;> simp

@[simp] theorem take_since (fill : Fill shape) (now : K) : (fill.take now).2.since = now := by
  unfold take
  split <;> rfl

/-- The answer to one request: when it came, whether it was granted, and the
tokens it left. -/
structure Answer (K : Type) where
  time : K
  granted : Bool
  tokens : K
  deriving DecidableEq

/-- The bucket's answers to requests at these times. -/
def answers (fill : Fill shape) : List K → List (Answer K)
  | [] => []
  | now :: later =>
    ⟨now, (fill.take now).1, (fill.take now).2.tokens⟩ :: (fill.take now).2.answers later

/-- How many requests are granted at times within the half-open interval. -/
def granted (fill : Fill shape) (start stop : K) (times : List K) : ℕ :=
  (fill.answers times).countP fun answer =>
    answer.granted && start ≤ answer.time && answer.time < stop

@[simp] theorem granted_nil (fill : Fill shape) (start stop : K) :
    fill.granted start stop [] = 0 := rfl

theorem granted_cons (fill : Fill shape) (start stop now : K) (later : List K) :
    fill.granted start stop (now :: later) =
      (fill.take now).2.granted start stop later +
        if (fill.take now).1 ∧ start ≤ now ∧ now < stop then 1 else 0 := by
  simp [granted, answers, List.countP_cons, and_assoc]

omit [Field K] [IsStrictOrderedRing K] in
private theorem all_past {now stop : K} {rest : List K} (past : stop ≤ now)
    (ordered : (now :: rest).Pairwise (· ≤ ·)) : ∀ time ∈ now :: rest, stop ≤ time := by
  intro time member
  rcases List.mem_cons.mp member with rfl | member
  · exact past
  · exact past.trans (List.rel_of_pairwise_cons ordered member)

private theorem granted_past (fill : Fill shape) (start stop : K) (times : List K)
    (past : ∀ now ∈ times, stop ≤ now) : fill.granted start stop times = 0 := by
  induction times generalizing fill with
  | nil => rfl
  | cons now later ih =>
    have outside : ¬ now < stop := not_lt.mpr (past now List.mem_cons_self)
    rw [granted_cons, if_neg (fun inside => outside inside.2.2),
      ih _ fun time member => past time (List.mem_cons_of_mem _ member)]

/-- What one request adds to the count is at most the token it takes. -/
private theorem counted_le (fill : Fill shape) (start stop now : K) :
    (if (fill.take now).1 ∧ start ≤ now ∧ now < stop then (1 : K) else 0) ≤
      if (fill.take now).1 then 1 else 0 := by
  split <;> split <;> simp_all

/-- From a moment inside the interval on, the tokens at hand and those that come
back before its end bound what is granted. -/
private theorem granted_from (fill : Fill shape) (start stop : K) (times : List K)
    (ordered : times.Pairwise (· ≤ ·)) (later : ∀ now ∈ times, fill.since ≤ now)
    (inside : fill.since < stop) :
    (fill.granted start stop times : K) < fill.tokens + (stop - fill.since) * shape.rate := by
  induction times generalizing fill with
  | nil =>
    have remaining := mul_pos (sub_pos.mpr inside) shape.rate_pos
    rw [granted_nil, Nat.cast_zero]
    linarith [fill.nonneg]
  | cons now rest ih =>
    obtain ⟨after, tail⟩ := List.pairwise_cons.mp ordered
    by_cases before : now < stop
    · have following := ih (fill.take now).2 tail (by simpa using after) (by simpa using before)
      rw [take_since, take_tokens] at following
      have refill := fill.level_le (later now List.mem_cons_self)
      have counted := fill.counted_le start stop now
      have spread : (stop - fill.since) * shape.rate =
          (stop - now) * shape.rate + (now - fill.since) * shape.rate := by ring
      rw [granted_cons]
      push_cast
      linarith
    · have remaining := mul_pos (sub_pos.mpr inside) shape.rate_pos
      rw [fill.granted_past start stop _ (all_past (not_lt.mp before) ordered), Nat.cast_zero]
      linarith [fill.nonneg]

/-- **Burst bound.** Any half-open interval sees fewer grants than the capacity
and what comes back over its length. -/
theorem granted_lt (fill : Fill shape) (start stop : K) (times : List K)
    (ordered : times.Pairwise (· ≤ ·)) (proper : start < stop) :
    (fill.granted start stop times : K) < shape.capacity + (stop - start) * shape.rate := by
  have room : 0 < (stop - start) * shape.rate := mul_pos (sub_pos.mpr proper) shape.rate_pos
  induction times generalizing fill with
  | nil =>
    rw [granted_nil, Nat.cast_zero]
    linarith [shape.capacity_nonneg]
  | cons now rest ih =>
    obtain ⟨after, tail⟩ := List.pairwise_cons.mp ordered
    by_cases early : now < start
    · have uncounted : ¬ ((fill.take now).1 = true ∧ start ≤ now ∧ now < stop) :=
        fun counted => absurd counted.2.1 (not_le.mpr early)
      rw [granted_cons, if_neg uncounted, add_zero]
      exact ih _ tail
    · by_cases before : now < stop
      · have following := granted_from (fill.take now).2 start stop rest tail
          (by simpa using after) (by simpa using before)
        rw [take_since, take_tokens] at following
        have counted := fill.counted_le start stop now
        have shorter : (stop - now) * shape.rate ≤ (stop - start) * shape.rate :=
          mul_le_mul_of_nonneg_right (by linarith [not_lt.mp early]) shape.rate_pos.le
        rw [granted_cons]
        push_cast
        linarith [fill.level_capped now]
      · rw [fill.granted_past start stop _ (all_past (not_lt.mp before) ordered), Nat.cast_zero]
        linarith [shape.capacity_nonneg]

/-- Refilling in two stretches is refilling in one. -/
theorem level_level (fill : Fill shape) {now later : K} (known : fill.since ≤ now)
    (after : now ≤ later) :
    fill.level later = min shape.capacity (fill.level now + (later - now) * shape.rate) := by
  have refill : 0 ≤ (later - now) * shape.rate :=
    mul_nonneg (sub_nonneg.mpr after) shape.rate_pos.le
  have first : max 0 (now - fill.since) = now - fill.since := max_eq_right (sub_nonneg.mpr known)
  have whole : max 0 (later - fill.since) = later - fill.since :=
    max_eq_right (sub_nonneg.mpr (known.trans after))
  have spread : (later - fill.since) * shape.rate =
      (now - fill.since) * shape.rate + (later - now) * shape.rate := by ring
  rw [level, level, first, whole, spread, ← min_add_add_right, ← min_assoc,
    min_eq_left (le_add_of_nonneg_right refill), add_assoc]

/-- Requests at one moment are all granted while the level lasts. -/
theorem granted_burst (fill : Fill shape) (start stop now : K) (count : ℕ) (rest : List K)
    (inside : start ≤ now ∧ now < stop) (known : fill.since ≤ now)
    (enough : (count : K) ≤ fill.level now) :
    ∃ left : Fill shape, left.since ≤ now ∧ left.level now = fill.level now - count ∧
      fill.granted start stop (List.replicate count now ++ rest) =
        left.granted start stop rest + count := by
  induction count generalizing fill with
  | zero => exact ⟨fill, known, by simp, rfl⟩
  | succ count ih =>
    push_cast at enough
    have nonneg : (0 : K) ≤ count := Nat.cast_nonneg count
    have taken : (fill.take now).1 = true := by
      rw [take_granted]
      exact decide_eq_true (by linarith)
    have level : (fill.take now).2.level now = fill.level now - 1 := by
      rw [Fill.level, take_since, sub_self, max_self, zero_mul, add_zero, take_tokens, taken,
        if_pos rfl]
      exact min_eq_right ((sub_le_self _ zero_le_one).trans (fill.level_capped now))
    obtain ⟨left, since, drained, counted⟩ :=
      ih (fill.take now).2 (take_since fill now).le (by rw [level]; linarith)
    refine ⟨left, since, ?_, ?_⟩
    · rw [drained, level]
      push_cast
      ring
    · rw [List.replicate_succ, List.cons_append, granted_cons, counted, if_pos ⟨taken, inside⟩]
      omega

/-- After each answer the bucket is filled as the answer says. -/
theorem answers_after {fill : Fill shape} {times : List K} (ordered : times.Pairwise (· ≤ ·))
    {before after : List (Answer K)} {answer : Answer K}
    (split : fill.answers times = before ++ answer :: after) :
    ∃ (left : Fill shape) (later : List K), left.tokens = answer.tokens ∧ left.since = answer.time ∧
      after = left.answers later ∧ (answer.time :: later).Pairwise (· ≤ ·) := by
  induction before generalizing fill times with
  | nil =>
    cases times with
    | nil => cases split
    | cons now later =>
      cases split
      exact ⟨(fill.take now).2, later, rfl, take_since fill now, rfl, ordered⟩
  | cons first before ih =>
    cases times with
    | nil => cases split
    | cons now later =>
      have rest : (fill.take now).2.answers later = before ++ answer :: after :=
        (List.cons.inj split).2
      exact ih (List.pairwise_cons.mp ordered).2 rest

theorem answers_time_mem {fill : Fill shape} {times : List K} {answer : Answer K}
    (answered : answer ∈ fill.answers times) : answer.time ∈ times := by
  induction times generalizing fill with
  | nil => cases answered
  | cons now later ih =>
    rcases List.mem_cons.mp answered with rfl | inside
    · exact List.mem_cons_self
    · exact List.mem_cons_of_mem _ (ih inside)

omit [IsStrictOrderedRing K] in
/-- A bucket looked at when it was last changed holds what it held. -/
theorem level_since (fill : Fill shape) : fill.level fill.since = fill.tokens := by
  rw [level, sub_self, max_self, zero_mul, add_zero]
  exact min_eq_right fill.capped

/-- Of the requests at the moment of a fill, exactly as many are granted as it
has whole tokens, and the first ones. -/
theorem granted_at_once [FloorRing K] {fill : Fill shape} {times : List K}
    (ordered : (fill.since :: times).Pairwise (· ≤ ·)) {index : ℕ} {answer : Answer K}
    (found : (fill.answers times)[index]? = some answer) (at_once : answer.time = fill.since) :
    answer.granted = decide ((index : ℤ) < ⌊fill.tokens⌋) := by
  induction times generalizing fill index with
  | nil => cases found
  | cons now later ih =>
    obtain ⟨after, tail⟩ := List.pairwise_cons.mp ordered
    cases index with
    | zero =>
      cases found
      rw [take_granted, show now = fill.since from at_once, level_since, decide_eq_decide,
        Nat.cast_zero, Int.floor_pos]
    | succ index =>
      have inside : answer ∈ (fill.take now).2.answers later := List.mem_of_getElem? found
      have reached : answer.time ∈ later := answers_time_mem inside
      have same : now = fill.since := by
        apply le_antisymm
        · rw [← at_once]
          exact List.rel_of_pairwise_cons tail reached
        · exact after now List.mem_cons_self
      have next := @ih (fill.take now).2 (by simpa using tail) index found
        (by rw [take_since, at_once, same])
      have level : fill.level now = fill.tokens := by rw [same, level_since]
      rw [next, take_tokens, take_granted, level, decide_eq_decide]
      by_cases enough : 1 ≤ fill.tokens
      · simp only [enough, decide_true, if_true, Int.floor_sub_one]
        push_cast
        omega
      · have empty : ⌊fill.tokens⌋ = 0 :=
          Int.floor_eq_zero_iff.mpr ⟨fill.nonneg, not_le.mp enough⟩
        simp only [enough, decide_false, Bool.false_eq_true, if_false, sub_zero, empty]
        omega

end Fill

end BackendFoundation.TokenBuckets
