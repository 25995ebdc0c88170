import BackendFoundation.RateLimiterProofs

/-! What a decision tells its caller: how many more calls at this moment will be
allowed, and after how long a pause the whole quota is there again. Both are
read off the ideal bucket that the limiter is. -/
namespace BackendFoundation.RateLimitDecisions
open PythonValues TokenBuckets RateLimiter RateLimiterProofs

/-- The decisions on one key, in the order of its calls. -/
def decisionsOn (key : Str) (decisions : List Decided) : List Decided :=
  decisions.filter (·.key == key)

/-- `remaining` and `reset_after_s` are true of the decisions that follow. -/
structure Truthful (quota : ℕ) (made : Decided) (after : List Decided) : Prop where
  nonneg : 0 ≤ made.decision.remaining
  capped : made.decision.remaining ≤ quota
  at_once : ∀ (index : ℕ) (later : Decided), after[index]? = some later → later.time = made.time →
    (later.decision.allowed = true ↔ (index : ℤ) < made.decision.remaining)
  reset : ∀ next rest, after = next :: rest → made.time + made.decision.resetAfterS ≤ next.time →
    next.decision.allowed = true ∧ next.decision.remaining = quota - 1

variable {limits : Str → Limit}

/-- The decision on a key that reports this answer of its bucket. -/
def report (key : Str) (limit : Limit) (answer : Fill.Answer ℚ) : Decided :=
  ⟨key, answer.time, ⟨answer.granted, ⌊answer.tokens⌋, limit.windowS⟩⟩

private theorem step_window {redis later : Redis} {event : Event} {decided : List Decided}
    (stepped : step limits redis event = some (later, decided)) :
    ∀ made ∈ decided, made.decision.resetAfterS = (limits made.key).windowS := by
  intro made member
  cases event with
  | allow key time =>
    simp only [step, Option.some.injEq, Prod.mk.injEq] at stepped
    obtain ⟨_, rfl⟩ := stepped
    rw [List.mem_singleton.mp member]
    rfl
  | remove key time =>
    simp only [step] at stepped
    split at stepped
    · simp only [Option.ite_none_right_eq_some, Option.some.injEq, Prod.mk.injEq] at stepped
      rw [← stepped.2.2] at member
      cases member
    · cases stepped

/-- Every decision names the window of its key. -/
theorem run_window {redis final : Redis} {events : List Event} {decisions : List Decided}
    (ran : run limits redis events = some (final, decisions)) :
    ∀ made ∈ decisions, made.decision.resetAfterS = (limits made.key).windowS := by
  induction events generalizing redis decisions with
  | nil =>
    cases ran
    exact fun _ never => absurd never List.not_mem_nil
  | cons event rest ih =>
    obtain ⟨⟨between, decided⟩, stepped, ⟨_, made⟩, continued, same⟩ :
        ∃ first, step limits redis event = some first ∧ ∃ second,
          run limits first.1 rest = some second ∧
            (second.1, first.2 ++ second.2) = (final, decisions) := by
      simpa [run, Option.bind_eq_some_iff] using ran
    cases same
    intro one member
    rcases List.mem_append.mp member with now | later
    · exact step_window stepped one now
    · exact ih continued one later

/-- The decisions on a key report the answers of its bucket, one by one. -/
theorem decisions_report {events : List Event} (ordered : Ordered events) {final : Redis}
    {decisions : List Decided} (ran : run limits (fun _ => none) events = some (final, decisions))
    (key : Str) :
    decisionsOn key decisions =
      ((Fill.full (Limit.shape (limits key)) 0).answers (callTimes key events)).map
        (report key (limits key)) := by
  obtain ⟨answers, _⟩ :=
    run_simulates key (starts_full (limits key)) ran ordered fun event _ => reading_nonneg event
  have named : ∀ made ∈ decisionsOn key decisions,
      made.key = key ∧ made.decision.resetAfterS = (limits key).windowS := by
    intro made member
    obtain ⟨here, own⟩ := List.mem_filter.mp member
    exact ⟨eq_of_beq own, by rw [run_window ran made here, eq_of_beq own]⟩
  rw [answersOn, idealAnswers, ← decisionsOn] at answers
  generalize (Fill.full (Limit.shape (limits key)) 0).answers (callTimes key events) = ideal at answers
  generalize decisionsOn key decisions = given at answers named
  induction given generalizing ideal with
  | nil =>
    have empty : ideal = [] := by simpa using answers.symm
    rw [empty]
    rfl
  | cons made rest ih =>
    cases ideal with
    | nil => cases answers
    | cons answer others =>
      obtain ⟨first, remaining⟩ := List.cons.inj answers
      obtain ⟨time, granted, tokens⟩ : made.time = answer.time ∧
          made.decision.allowed = answer.granted ∧ made.decision.remaining = ⌊answer.tokens⌋ := by
        simpa using first
      obtain ⟨own, window⟩ := named made List.mem_cons_self
      have same : made = report key (limits key) answer := by
        rw [report, ← time, ← granted, ← tokens, ← window, ← own]
      rw [List.map_cons, same,
        ih others remaining fun later member => named later (List.mem_cons_of_mem _ member)]

/-- After a pause of its window a bucket is full again. -/
theorem refilled (limit : Limit) (fill : Fill (Limit.shape limit)) {now : ℚ}
    (paused : fill.since + limit.windowS ≤ now) : fill.level now = limit.quota := by
  have stands : StandsFor limit fill.since fill
      (some ⟨fill.tokens, fill.since, fill.since + limit.windowS⟩) := ⟨rfl, rfl, rfl⟩
  exact standsFor_removed stands paused now le_rfl

/-- **Decisions tell the truth.** From empty keys on, in every run, whatever
Redis removes meanwhile: of the further calls on the key at the moment of a
decision exactly its `remaining` first ones are allowed, and the next call is
allowed from a full bucket if it comes `reset_after_s` seconds later or more. -/
theorem decisions_are_truthful (limits : Str → Limit) (events : List Event)
    (ordered : Ordered events) {final : Redis} {decisions : List Decided}
    (ran : run limits (fun _ => none) events = some (final, decisions)) (key : Str)
    (before after : List Decided) (made : Decided)
    (split : decisionsOn key decisions = before ++ made :: after) :
    Truthful (limits key).quota made after := by
  have reports := decisions_report ordered ran key
  rw [split] at reports
  obtain ⟨_, rest, same, _, reported⟩ := List.append_eq_map_iff.mp reports
  obtain ⟨answer, following, rfl, rfl, rfl⟩ := List.map_eq_cons_iff.mp reported
  obtain ⟨left, times, tokens, since, rfl, sorted⟩ :=
    Fill.answers_after (callTimes_ordered key ordered) same
  constructor
  · rw [report, ← tokens]
    exact Int.floor_nonneg.mpr left.nonneg
  · rw [report, ← tokens]
    have capped := Int.floor_le_floor left.capped
    simpa [Limit.shape] using capped
  · intro index later found at_once
    rw [List.getElem?_map] at found
    obtain ⟨reply, replied, rfl⟩ := Option.map_eq_some_iff.mp found
    have granted := Fill.granted_at_once (by rw [since]; exact sorted) replied
      (by rw [since]; exact at_once)
    simp only [report, ← tokens, granted, decide_eq_true_eq]
  · intro next rest same paused
    cases times with
    | nil => cases same
    | cons now others =>
      obtain ⟨rfl, _⟩ := List.cons.inj same
      have full : left.level now = (limits key).quota := by
        apply refilled
        rw [since]
        simpa [report] using paused
      have quota : (1 : ℚ) ≤ (limits key).quota := by exact_mod_cast (limits key).quota_pos
      have granted : (left.take now).1 = true := by
        rw [Fill.take_granted, full]
        exact decide_eq_true quota
      refine ⟨granted, ?_⟩
      simp only [report, Fill.take_tokens, full, granted, if_true, Int.floor_sub_one,
        Int.floor_natCast]

/-- A quota of two in a minute: three calls at once, and one a minute later. -/
theorem three_calls_at_once_are_truthful :
    ∃ final decisions before made after,
      run (fun _ => ⟨2, 60, by decide, by decide⟩) (fun _ => none)
        [.allow (str "a") ⟨5, 0⟩, .allow (str "b") ⟨5, 0⟩, .allow (str "a") ⟨5, 0⟩,
          .allow (str "a") ⟨5, 0⟩, .remove (str "rl:a") ⟨65, 0⟩, .allow (str "a") ⟨65, 0⟩] =
        some (final, decisions) ∧
      decisionsOn (str "a") decisions = before ++ made :: after ∧ Truthful 2 made after := by
  have legal : (run (fun _ => ⟨2, 60, by decide, by decide⟩) (fun _ => none)
      [.allow (str "a") ⟨5, 0⟩, .allow (str "b") ⟨5, 0⟩, .allow (str "a") ⟨5, 0⟩,
        .allow (str "a") ⟨5, 0⟩, .remove (str "rl:a") ⟨65, 0⟩, .allow (str "a") ⟨65, 0⟩]).isSome := by
    decide +kernel
  obtain ⟨⟨final, decisions⟩, ran⟩ := Option.isSome_iff_exists.mp legal
  have ordered : Ordered [.allow (str "a") ⟨5, 0⟩, .allow (str "b") ⟨5, 0⟩, .allow (str "a") ⟨5, 0⟩,
      .allow (str "a") ⟨5, 0⟩, .remove (str "rl:a") ⟨65, 0⟩, .allow (str "a") ⟨65, 0⟩] := by
    decide +kernel
  have some_ : decisionsOn (str "a") decisions ≠ [] := by
    rw [decisions_report ordered ran]
    simp [callTimes, Fill.answers]
  obtain ⟨made, after, split⟩ := List.exists_cons_of_ne_nil some_
  exact ⟨final, decisions, [], made, after, ran, split,
    decisions_are_truthful _ _ ordered ran (str "a") [] after made split⟩

end BackendFoundation.RateLimitDecisions
