import BackendFoundation.AppLifespan

/-! What `lifespan` acquires is released, once, and what it shows is current, in exactly
the runs in which nothing raises where it should not and no probe is left behind. -/
namespace BackendFoundation.AppLifespan

/-! ## What a cycle should keep -/

def startup : List Step :=
  [.setupDb, .setupStorage, .setupPasswordHasher, .setupTokenSigner, .setupRedisClient,
    .setupCache]

def Cycle.Starts (cycle : Cycle) : Prop := ∀ step ∈ startup, cycle.raises step = false

def Probe.isOutside : Probe → Bool
  | .outside _ => true
  | _ => false

/-- The probes registered outside `lifespan`. -/
def World.registered (world : World) : List Probe :=
  world.container.probeRegistry.filter Probe.isOutside

/-- The probes registered by `lifespan`. -/
def World.wired (world : World) : List Probe :=
  world.container.probeRegistry.filter fun probe => !probe.isOutside

/-- The engine and the client of this cycle are in use. -/
structure InService (start now : World) (engine client : ℕ) : Prop where
  dbEngine : now.container.dbEngine = some engine
  cache : now.container.cache = some client
  fresh : ∀ resource ∈ [engine, client],
    resource ∈ now.created ∧ resource ∉ start.created ∧ resource ∉ now.released

structure Balanced (start : World) (cycle : Cycle) : Prop where
  releasedOnce : ∀ resource ∈ (cycleFrom start cycle).world.created,
    resource ∉ start.created → (cycleFrom start cycle).world.released.count resource = 1
  readyBetween : ∀ now ∈ (cycleFrom start cycle).past, now.ready = true →
    cycle.Starts ∧ ∃ engine client, InService start now engine client
  unreadyAfter : (cycleFrom start cycle).world.ready = false
  probes : ∀ now ∈ (cycleFrom start cycle).past, now.ready = true →
    ∃ engine client, now.container.dbEngine = some engine ∧
      now.container.cache = some client ∧ now.wired = [.db engine, .redis client] ∧
      ∃ tags, tags <+: cycle.during ∧
        now.registered = start.registered ++ (cycle.before ++ tags).map .outside

/-- Either nothing is acquired, or nothing raises between the first acquisition and the
`try`, nor does the first of the two releases. -/
def Cycle.Sound (cycle : Cycle) : Prop :=
  cycle.raises .setupDb = true ∨
    ∀ step ∈ [.setupStorage, .setupPasswordHasher, .setupTokenSigner, .setupRedisClient,
      .dispose], cycle.raises step = false

/-! ## Registrations -/

def World.addOutside (tags : List ℕ) : World → World :=
  World.install fun container =>
    { container with probeRegistry := container.probeRegistry ++ tags.map .outside }

theorem addOutside_nil (world : World) : world.addOutside [] = world := by
  simp [World.addOutside, World.install]

theorem addOutside_cons (world : World) (tag : ℕ) (tags : List ℕ) :
    world.addOutside (tag :: tags) = (world.addProbe (.outside tag)).addOutside tags := by
  simp [World.addOutside, World.addProbe, World.install]

theorem foldl_addProbe (world : World) (tags : List ℕ) :
    tags.foldl (fun world tag => world.addProbe (.outside tag)) world =
      world.addOutside tags := by
  induction tags generalizing world with
  | nil => exact (addOutside_nil world).symm
  | cons tag tags ih => rw [List.foldl_cons, ih, addOutside_cons]

@[simp]
theorem wired_addOutside (world : World) (tags : List ℕ) :
    (world.addOutside tags).wired = world.wired := by
  simp [World.wired, World.addOutside, World.install, Probe.isOutside]

@[simp]
theorem registered_addOutside (world : World) (tags : List ℕ) :
    (world.addOutside tags).registered = world.registered ++ tags.map .outside := by
  simp [World.registered, World.addOutside, World.install, List.filter_append, Probe.isOutside]

/-- The states that a list of registrations passes through. -/
theorem forM_addProbe (tags : List ℕ) (run : Run) :
    ∃ states, (tags.forM fun tag => update (World.addProbe (.outside tag))) run =
        .ok () ⟨run.world.addOutside tags, run.past ++ states⟩ ∧
      ∀ now ∈ states, ∃ some, some <+: tags ∧ now = run.world.addOutside some := by
  induction tags generalizing run with
  | nil => exact ⟨[], by simp [addOutside_nil, pure, EStateM.pure], by simp⟩
  | cons tag tags ih =>
    obtain ⟨states, ran, passed⟩ := ih
      ⟨run.world.addProbe (.outside tag), run.past ++ [run.world.addProbe (.outside tag)]⟩
    refine ⟨run.world.addProbe (.outside tag) :: states, ?_, ?_⟩
    · rw [addOutside_cons, List.append_cons]
      exact ran
    · rintro now (_ | ⟨_, now_mem⟩)
      · exact ⟨[tag], by simp, by rw [addOutside_cons, addOutside_nil]⟩
      · obtain ⟨some, some_prefix, rfl⟩ := passed now now_mem
        exact ⟨tag :: some, by simpa using some_prefix, by rw [addOutside_cons]⟩

/-! ## What a cycle does -/

/-- What is seen of a cycle while the application is ready. -/
def Shown (start : World) (cycle : Cycle) (now : World) : Prop :=
  now.ready = true → cycle.Starts ∧ ∃ engine client, InService start now engine client ∧
    now.wired = start.wired ++ [.db engine, .redis client] ∧
    ∃ tags, tags <+: cycle.during ∧
      now.registered = start.registered ++ (cycle.before ++ tags).map .outside

/-- Before the application becomes ready. -/
structure Starting (start : World) (cycle : Cycle) (acquired : List ℕ) (wired : List Probe)
    (run : Run) : Prop where
  created : run.world.created = start.created ++ acquired
  released : run.world.released = start.released
  registered : run.world.registered = start.registered ++ cycle.before.map .outside
  wired : run.world.wired = start.wired ++ wired
  engine : ∀ engine ∈ acquired.head?, run.world.container.dbEngine = some engine
  unready : run.world.ready = false
  past : ∀ now ∈ run.past, now.ready = false

/-- A change that acquires and registers nothing. -/
theorem ends_install {start : World} {cycle : Cycle} {acquired : List ℕ} {wired : List Probe}
    {run : Run} {well : Unit → Run → Prop} {raised : Step → Run → Prop}
    (starting : Starting start cycle acquired wired run) {change : Container → Container}
    (registry : ∀ container, (change container).probeRegistry = container.probeRegistry)
    (engine : ∀ container, (change container).dbEngine = container.dbEngine)
    (ends : ∀ run, Starting start cycle acquired wired run → well () run) :
    Ends (update (World.install change)) run well raised := by
  refine ends_update (ends _ ⟨starting.created, starting.released, ?_, ?_, ?_,
    starting.unready, ?_⟩)
  · simpa [World.registered, World.install, registry] using starting.registered
  · simpa [World.wired, World.install, registry] using starting.wired
  · simpa [World.install, engine] using starting.engine
  · simpa [or_imp, forall_and, World.install, starting.unready] using starting.past

/-- The engine is lost where a step between its creation and the `try` raises. -/
inductive StartupExit (start : World) (cycle : Cycle) (run : Run) : Prop where
  | untouched (raised : cycle.raises .setupDb = true) (starting : Starting start cycle [] [] run)
  | engineKept (acquires : cycle.raises .setupDb = false) (step : Step)
      (between : step ∈ [.setupStorage, .setupPasswordHasher, .setupTokenSigner, .setupRedisClient])
      (raised : cycle.raises step = true)
      (starting : Starting start cycle [start.created.length] [.db start.created.length] run)

theorem setupDb_ends {start : World} {cycle : Cycle} {run : Run} {β : Type}
    {next : Lifespan β} {well : β → Run → Prop}
    (starting : Starting start cycle [] [] run)
    (ends : ∀ run, cycle.raises .setupDb = false →
      Starting start cycle [start.created.length] [.db start.created.length] run →
      Ends next run well fun _ run => StartupExit start cycle run) :
    Ends (do
      let engine ← setupDb cycle
      update <| World.install fun container =>
        { container with dbEngine := some engine, sessionFactory := some engine }
      update (World.addProbe (.db engine))
      next) run well fun _ run => StartupExit start cycle run := by
  have numbered : run.world.created.length = start.created.length := by
    simp [starting.created]
  refine ends_bind (ends_bind (ends_attempt (.untouched · starting) fun db => ?_))
  refine ends_bind (ends_get (ends_bind (ends_update (ends_pure ?_))))
  refine ends_bind (ends_update (ends_bind (ends_update (ends _ db ?_))))
  simp only [numbered]
  refine ⟨?_, starting.released, ?_, ?_, ?_, starting.unready, ?_⟩
  · simp [World.addProbe, World.install, World.create, starting.created]
  · have registered := starting.registered
    simp_all [World.registered, World.addProbe, World.install, World.create, Probe.isOutside]
  · have wired := starting.wired
    simp_all [World.wired, World.addProbe, World.install, World.create, Probe.isOutside]
  · simp [World.addProbe, World.install]
  · simpa [or_imp, forall_and, World.addProbe, World.install, World.create, starting.unready] using starting.past

theorem onStartup_ends {start : World} {cycle : Cycle} {run : Run}
    (starting : Starting start cycle [] [] run) :
    Ends (onStartup cycle) run
      (fun _ run =>
        Starting start cycle [start.created.length] [.db start.created.length] run ∧
          ∀ step ∈ [.setupDb, .setupStorage, .setupPasswordHasher, .setupTokenSigner],
            cycle.raises step = false)
      (fun _ run => StartupExit start cycle run) := by
  refine setupDb_ends starting fun run db starting => ?_
  refine ends_bind (ends_attempt (.engineKept db .setupStorage (by simp) · starting)
    fun storage => ?_)
  refine ends_bind (ends_install starting (fun _ => rfl) (fun _ => rfl) fun run starting => ?_)
  refine ends_bind (ends_attempt (.engineKept db .setupPasswordHasher (by simp) · starting)
    fun hasher => ?_)
  refine ends_bind (ends_install starting (fun _ => rfl) (fun _ => rfl) fun run starting => ?_)
  refine ends_bind (ends_attempt (.engineKept db .setupTokenSigner (by simp) · starting)
    fun signer => ?_)
  refine ends_bind (ends_install starting (fun _ => rfl) (fun _ => rfl) fun run starting => ?_)
  refine ends_install starting (fun _ => rfl) (fun _ => rfl) fun run starting => ?_
  exact ⟨starting, by simp [db, storage, hasher, signer]⟩

/-- Engines and clients bear the numbers they were created with. -/
def Numbered (world : World) : Prop :=
  ∀ resource ∈ world.created ++ world.released, resource < world.created.length

theorem numbered_fresh {start : World} (numbered : Numbered start) {resource : ℕ}
    (above : start.created.length ≤ resource) :
    resource ∉ start.created ∧ resource ∉ start.released := by
  have below : resource ∈ start.created ++ start.released → resource < start.created.length :=
    numbered resource
  exact ⟨fun used => absurd (below (List.mem_append_left _ used)) (by omega),
    fun used => absurd (below (List.mem_append_right _ used)) (by omega)⟩

/-- From the `try` on; the engine and the client are the last two that were created. -/
structure Guarded (start : World) (cycle : Cycle) (run : Run) : Prop where
  created :
    run.world.created = start.created ++ [start.created.length, start.created.length + 1]
  released : run.world.released = start.released
  engine : run.world.container.dbEngine = some start.created.length
  wired : ∃ more, run.world.wired = start.wired ++ .db start.created.length :: more
  shown : ∀ now ∈ run.past, Shown start cycle now
  seen : cycle.Starts → ∃ now ∈ run.past, now.ready = true

structure Serving (start : World) (cycle : Cycle) (now : World) : Prop where
  starts : cycle.Starts
  created : now.created = start.created ++ [start.created.length, start.created.length + 1]
  released : now.released = start.released
  engine : now.container.dbEngine = some start.created.length
  cache : now.container.cache = some (start.created.length + 1)
  wired : now.wired =
    start.wired ++ [.db start.created.length, .redis (start.created.length + 1)]
  registered : now.registered = start.registered ++ cycle.before.map .outside
  ready : now.ready = true

theorem serving_shown {start now : World} {cycle : Cycle} (numbered : Numbered start)
    (serving : Serving start cycle now) {tags : List ℕ} (during : tags <+: cycle.during) :
    Shown start cycle (now.addOutside tags) := by
  intro _
  refine ⟨serving.starts, start.created.length, start.created.length + 1,
    ⟨serving.engine, serving.cache, ?_⟩, ?_, tags, during, ?_⟩
  · intro resource resource_mem
    have created : resource ∈ (now.addOutside tags).created := by
      rw [show (now.addOutside tags).created = now.created from rfl, serving.created]
      exact List.mem_append_right _ resource_mem
    have released : (now.addOutside tags).released = start.released := serving.released
    have above : start.created.length ≤ resource := by
      simp only [List.mem_cons, List.not_mem_nil, or_false] at resource_mem
      omega
    rw [released]
    exact ⟨created, numbered_fresh numbered above⟩
  · rw [wired_addOutside, serving.wired]
  · rw [registered_addOutside, serving.registered, List.map_append, List.append_assoc]

theorem body_ends {start : World} {cycle : Cycle} {run : Run} (numbered : Numbered start)
    (serving : Serving start cycle run.world)
    (shown : ∀ now ∈ run.past, Shown start cycle now) (current : run.world ∈ run.past) :
    Ends (body cycle) run (fun _ run => Guarded start cycle run)
      (fun _ run => Guarded start cycle run) := by
  obtain ⟨states, ran, passed⟩ := forM_addProbe cycle.during run
  have guarded : Guarded start cycle
      ⟨run.world.addOutside cycle.during, run.past ++ states⟩ := by
    refine ⟨serving.created, serving.released, serving.engine,
      ⟨[.redis (start.created.length + 1)], ?_⟩, ?_, fun _ =>
      ⟨run.world, List.mem_append_left _ current, serving.ready⟩⟩
    · rw [wired_addOutside, serving.wired]
    · intro now now_mem
      rcases List.mem_append.mp now_mem with now_past | now_passed
      · exact shown now now_past
      · obtain ⟨some, some_prefix, rfl⟩ := passed now now_passed
        exact serving_shown numbered serving some_prefix
  refine ends_bind ?_
  simp only [Ends, ran]
  exact ends_attempt_either guarded

theorem shown_of_unready {start now : World} {cycle : Cycle} (unready : now.ready = false) :
    Shown start cycle now := by
  intro ready
  simp [unready] at ready

/-- What `try` guards. -/
theorem guarded_ends {start : World} {cycle : Cycle} {run : Run} (numbered : Numbered start)
    (succeeded : ∀ step ∈ [.setupDb, .setupStorage, .setupPasswordHasher, .setupTokenSigner,
      .setupRedisClient], cycle.raises step = false)
    (starting : Starting start cycle [start.created.length, start.created.length + 1]
      [.db start.created.length] run) :
    Ends (do
      attempt cycle .setupCache
      update <| World.install fun container =>
        { container with cache := some (start.created.length + 1) }
      update (World.addProbe (.redis (start.created.length + 1)))
      update (World.setReady true)
      body cycle) run
      (fun _ run => Guarded start cycle run) (fun _ run => Guarded start cycle run) := by
  have shown : ∀ now ∈ run.past, Shown start cycle now := fun now now_mem =>
    shown_of_unready (starting.past now now_mem)
  have engine := starting.engine _ rfl
  refine ends_bind (ends_attempt (fun cache => ?_) fun cache => ?_)
  · refine ⟨starting.created, starting.released, engine, ⟨[], starting.wired⟩, shown, ?_⟩
    intro starts
    simp [starts .setupCache (by simp [startup])] at cache
  · refine ends_bind (ends_update (ends_bind (ends_update (ends_bind (ends_update ?_)))))
    have serving : Serving start cycle (World.setReady true
        (World.addProbe (.redis (start.created.length + 1))
          (World.install (fun container =>
            { container with cache := some (start.created.length + 1) }) run.world))) := by
      refine ⟨?_, starting.created, starting.released, engine, rfl, ?_, ?_, rfl⟩
      · simpa [Cycle.Starts, startup, cache] using succeeded
      · have wired := starting.wired
        simp_all [World.wired, World.setReady, World.addProbe, World.install, Probe.isOutside]
      · have registered := starting.registered
        simp_all [World.registered, World.setReady, World.addProbe, World.install,
          Probe.isOutside]
    refine body_ends numbered serving ?_ (by simp)
    intro now now_mem
    simp only [List.mem_append, List.mem_singleton] at now_mem
    rcases now_mem with ((now_past | rfl) | rfl) | rfl
    · exact shown now now_past
    · exact shown_of_unready starting.unready
    · exact shown_of_unready starting.unready
    · simpa [addOutside_nil] using serving_shown numbered serving (List.nil_prefix)

/-- How a cycle ends. -/
inductive CycleExit (start : World) (cycle : Cycle) (run : Run) : Prop where
  | startup (exit : StartupExit start cycle run)
  | stopped
      (succeeded : ∀ step ∈ [.setupDb, .setupStorage, .setupPasswordHasher, .setupTokenSigner,
        .setupRedisClient], cycle.raises step = false)
      (created :
        run.world.created = start.created ++ [start.created.length, start.created.length + 1])
      (released : run.world.released = start.released ++ start.created.length ::
        if cycle.raises .dispose = true then [] else [start.created.length + 1])
      (wired : ∃ more, run.world.wired = start.wired ++ .db start.created.length :: more)
      (unready : run.world.ready = false)
      (shown : ∀ now ∈ run.past, Shown start cycle now)
      (seen : cycle.Starts → ∃ now ∈ run.past, now.ready = true)

/-- What `finally` does. -/
theorem stop_ends {start : World} {cycle : Cycle} {run : Run}
    (succeeded : ∀ step ∈ [.setupDb, .setupStorage, .setupPasswordHasher, .setupTokenSigner,
      .setupRedisClient], cycle.raises step = false)
    (guarded : Guarded start cycle run) :
    Ends (do
      update (World.setReady false)
      onShutdown cycle
      shutdownRedis cycle (start.created.length + 1)) run
      (fun _ run => CycleExit start cycle run) (fun _ run => CycleExit start cycle run) := by
  obtain ⟨more, wired⟩ := guarded.wired
  have stopped (released : List ℕ) (left : Run)
      (world : left.world = { World.setReady false run.world with released })
      (past : ∀ now ∈ left.past, now ∈ run.past ∨ now.ready = false)
      (kept : ∀ now ∈ run.past, now ∈ left.past)
      (isReleased : released = start.released ++ start.created.length ::
        if cycle.raises .dispose = true then [] else [start.created.length + 1]) :
      CycleExit start cycle left := by
    refine .stopped succeeded ?_ ?_ ⟨more, ?_⟩ ?_ ?_ fun starts => ?_
    · rw [world]
      exact guarded.created
    · rw [world]
      exact isReleased
    · rw [world]
      exact wired
    · rw [world]
      rfl
    · intro now now_mem
      exact (past now now_mem).elim (guarded.shown now) shown_of_unready
    · obtain ⟨now, now_mem, ready⟩ := guarded.seen starts
      exact ⟨now, kept now now_mem, ready⟩
  have engine : (World.setReady false run.world).container.dbEngine =
      some start.created.length := guarded.engine
  have released : (World.setReady false run.world).released = start.released := guarded.released
  refine ends_bind (ends_update (ends_bind (ends_bind (ends_get ?_))))
  simp only [engine]
  refine ends_bind (ends_update (ends_attempt (fun dispose => ?_) fun dispose => ?_))
  · refine stopped _ _ rfl (fun now now_mem => ?_) (by simp +contextual) ?_
    · simp only [List.mem_append, List.mem_singleton] at now_mem
      rcases now_mem with (now_past | rfl) | rfl
      exacts [.inl now_past, .inr rfl, .inr rfl]
    · simp [World.setReady, guarded.released, dispose]
  · refine ends_bind (ends_update (ends_attempt_either (stopped
      (start.released ++ [start.created.length, start.created.length + 1]) _ ?_ ?_ ?_
      (by simp [dispose]))))
    · simp [World.release, released]
    · intro now now_mem
      simp only [List.mem_append, List.mem_singleton] at now_mem
      rcases now_mem with ((now_past | rfl) | rfl) | rfl
      exacts [.inl now_past, .inr rfl, .inr rfl, .inr rfl]
    · simp +contextual

/-- Every cycle ends in one of these ways. -/
theorem lifespan_ends (start : World) (cycle : Cycle) (numbered : Numbered start) :
    Ends (lifespan cycle) ⟨start.addOutside cycle.before, []⟩
      (fun _ run => CycleExit start cycle run) (fun _ run => CycleExit start cycle run) := by
  have starting : Starting start cycle [] []
      ⟨World.setReady false (start.addOutside cycle.before),
        [] ++ [World.setReady false (start.addOutside cycle.before)]⟩ := by
    refine ⟨by simp [World.setReady, World.addOutside, World.install], rfl, ?_, ?_, by simp, rfl,
      by simp [World.setReady]⟩
    · exact registered_addOutside start cycle.before
    · exact (wired_addOutside start cycle.before).trans (List.append_nil _).symm
  refine ends_bind (ends_update (ends_bind ?_))
  refine ends_mono (onStartup_ends starting) ?_ fun step run exit => .startup exit
  rintro - run ⟨starting, succeeded⟩
  have numbered' : run.world.created.length = start.created.length + 1 := by
    simp [starting.created]
  refine ends_bind (ends_bind (ends_attempt (fun client => ?_) fun client => ?_))
  · exact .startup (.engineKept (succeeded .setupDb (by simp)) .setupRedisClient (by simp) client
      starting)
  refine ends_bind (ends_get (ends_bind (ends_update (ends_pure ?_))))
  simp only [numbered']
  have acquired : ∀ step ∈ [.setupDb, .setupStorage, .setupPasswordHasher, .setupTokenSigner,
      .setupRedisClient], cycle.raises step = false := by
    simpa [client, and_assoc] using succeeded
  refine ends_finally (ends_mono (guarded_ends numbered acquired ⟨?_, starting.released,
    starting.registered, starting.wired, starting.engine, starting.unready, ?_⟩)
    (fun _ _ => stop_ends acquired) fun _ _ => stop_ends acquired)
  · simp [World.create, starting.created]
  · simpa [or_imp, forall_and, World.create, starting.unready] using starting.past

/-! ## The balance of a cycle, and of a run of cycles -/

theorem cycleFrom_exit {start : World} (numbered : Numbered start) (cycle : Cycle) :
    CycleExit start cycle (cycleFrom start cycle) := by
  have ends := lifespan_ends start cycle numbered
  simp only [cycleFrom, foldl_addProbe]
  simp only [Ends] at ends
  cases result : lifespan cycle ⟨start.addOutside cycle.before, []⟩ <;>
    simpa only [result] using ends

theorem numbered_cycleFrom {start : World} (numbered : Numbered start) (cycle : Cycle) :
    Numbered (cycleFrom start cycle).world := by
  intro resource resource_mem
  have old := numbered resource
  cases cycleFrom_exit numbered cycle with
  | startup exit =>
    cases exit with
    | untouched raised starting =>
      simp only [starting.created, starting.released, List.append_nil] at resource_mem ⊢
      exact old resource_mem
    | engineKept acquires step between raised starting =>
      simp only [starting.created, starting.released, List.mem_append, List.mem_singleton,
        List.length_append, List.length_singleton] at resource_mem old ⊢
      rcases resource_mem with (isOld | rfl) | isOld
      exacts [Nat.lt_succ_of_lt (old (.inl isOld)), Nat.lt_succ_self _,
        Nat.lt_succ_of_lt (old (.inr isOld))]
  | stopped succeeded created released wired unready shown seen =>
    have closed : resource ∈ (if cycle.raises .dispose = true then [] else
        [start.created.length + 1]) → resource = start.created.length + 1 := by
      split <;> simp
    simp only [created, released, List.mem_append, List.mem_cons, List.not_mem_nil, or_false,
      List.length_append, List.length_cons, List.length_nil] at resource_mem old ⊢
    rcases resource_mem with (isOld | rfl | rfl) | isOld | rfl | isClosed
    · exact Nat.lt_trans (old (.inl isOld)) (by omega)
    · omega
    · omega
    · exact Nat.lt_trans (old (.inr isOld)) (by omega)
    · omega
    · have := closed isClosed
      omega

/-- The probes of `lifespan` are never taken back. -/
theorem wired_cycleFrom {start : World} (numbered : Numbered start) (cycle : Cycle) :
    (cycleFrom start cycle).world.wired = [] ↔
      start.wired = [] ∧ cycle.raises .setupDb = true := by
  cases cycleFrom_exit numbered cycle with
  | startup exit =>
    cases exit with
    | untouched raised starting => simp [starting.wired, raised]
    | engineKept acquires step between raised starting => simp [starting.wired, acquires]
  | stopped succeeded created released wired unready shown seen =>
    obtain ⟨more, wired⟩ := wired
    simp [wired, succeeded .setupDb (by simp)]

/-- A cycle that never gets ready is balanced if it releases what it acquires. -/
theorem balanced_of_unready {start : World} {cycle : Cycle}
    (releasedOnce : ∀ resource ∈ (cycleFrom start cycle).world.created,
      resource ∉ start.created → (cycleFrom start cycle).world.released.count resource = 1)
    (unready : (cycleFrom start cycle).world.ready = false)
    (past : ∀ now ∈ (cycleFrom start cycle).past, now.ready = false) :
    Balanced start cycle where
  releasedOnce := releasedOnce
  readyBetween now now_mem ready := by simp [past now now_mem] at ready
  unreadyAfter := unready
  probes now now_mem ready := by simp [past now now_mem] at ready

section Balance

variable {start : World} {cycle : Cycle}

/-- An engine that is never disposed of. -/
theorem engineKept_unbalanced (numbered : Numbered start)
    (starting : Starting start cycle [start.created.length] [.db start.created.length]
      (cycleFrom start cycle)) : ¬ Balanced start cycle := by
  intro balanced
  have once := balanced.releasedOnce start.created.length (by simp [starting.created])
    (numbered_fresh numbered (Nat.le_refl _)).1
  rw [starting.released, List.count_eq_zero.mpr (numbered_fresh numbered (Nat.le_refl _)).2] at once
  exact absurd once (by decide)

/-- A client that is never closed, since `dispose` raises before. -/
theorem undisposed_unbalanced (numbered : Numbered start) (dispose : cycle.raises .dispose = true)
    (created : (cycleFrom start cycle).world.created =
      start.created ++ [start.created.length, start.created.length + 1])
    (released : (cycleFrom start cycle).world.released =
      start.released ++ start.created.length ::
        if cycle.raises .dispose = true then [] else [start.created.length + 1]) :
    ¬ Balanced start cycle := by
  intro balanced
  have once := balanced.releasedOnce (start.created.length + 1) (by simp [created])
    (numbered_fresh numbered (Nat.le_succ _)).1
  have unreleased := List.count_eq_zero.mpr
    (numbered_fresh numbered (Nat.le_succ start.created.length)).2
  simp [released, dispose, unreleased] at once

/-- Both are released when nothing stops the shutdown. -/
theorem disposed_releasedOnce (numbered : Numbered start) (dispose : cycle.raises .dispose = false)
    (created : (cycleFrom start cycle).world.created =
      start.created ++ [start.created.length, start.created.length + 1])
    (released : (cycleFrom start cycle).world.released =
      start.released ++ start.created.length ::
        if cycle.raises .dispose = true then [] else [start.created.length + 1]) :
    ∀ resource ∈ (cycleFrom start cycle).world.created,
      resource ∉ start.created → (cycleFrom start cycle).world.released.count resource = 1 := by
  intro resource isCreated isFresh
  have acquired : resource ∈ [start.created.length, start.created.length + 1] := by
    rw [created] at isCreated
    exact (List.mem_append.mp isCreated).resolve_left isFresh
  have above : start.created.length ≤ resource := by
    simp only [List.mem_cons, List.not_mem_nil, or_false] at acquired
    omega
  rw [released, dispose, List.count_append,
    List.count_eq_zero.mpr (numbered_fresh numbered above).2]
  simp only [List.mem_cons, List.not_mem_nil, or_false] at acquired
  rcases acquired with rfl | rfl <;> simp

/-- A probe left by an earlier cycle is shown by a cycle that gets ready. -/
theorem alone_of_balanced (balanced : Balanced start cycle)
    (shown : ∀ now ∈ (cycleFrom start cycle).past, Shown start cycle now)
    (seen : ∃ now ∈ (cycleFrom start cycle).past, now.ready = true) : start.wired = [] := by
  obtain ⟨now, now_mem, ready⟩ := seen
  obtain ⟨-, engine, client, -, wired, -⟩ := shown now now_mem ready
  obtain ⟨engine', client', -, -, wired', -⟩ := balanced.probes now now_mem ready
  have lengths := congrArg List.length (wired.symm.trans wired')
  simpa using lengths

theorem sound_iff_disposes
    (succeeded : ∀ step ∈ [.setupDb, .setupStorage, .setupPasswordHasher, .setupTokenSigner,
      .setupRedisClient], cycle.raises step = false) :
    cycle.Sound ↔ cycle.raises .dispose = false := by
  have before : ∀ step ∈ [.setupStorage, .setupPasswordHasher, .setupTokenSigner,
      .setupRedisClient], cycle.raises step = false := fun step step_mem =>
    succeeded step (List.mem_cons_of_mem _ step_mem)
  simp only [Cycle.Sound, succeeded .setupDb (by simp), Bool.false_eq_true, false_or]
  exact ⟨fun sound => sound .dispose (by simp), fun dispose => by
    simpa [dispose] using before⟩

end Balance

theorem balanced_iff {start : World} (numbered : Numbered start) (cycle : Cycle) :
    Balanced start cycle ↔ cycle.Sound ∧ (cycle.Starts → start.wired = []) := by
  cases cycleFrom_exit numbered cycle with
  | startup exit =>
    cases exit with
    | untouched raised starting =>
      have stays : ¬ cycle.Starts := fun starts => by
        simp [starts .setupDb (by simp [startup])] at raised
      refine ⟨fun _ => ⟨.inl raised, fun starts => absurd starts stays⟩, fun _ => ?_⟩
      refine balanced_of_unready ?_ starting.unready starting.past
      intro resource created isFresh
      rw [starting.created, List.append_nil] at created
      exact absurd created isFresh
    | engineKept acquires step between raised starting =>
      have unsound : ¬ cycle.Sound := by
        simp only [Cycle.Sound, acquires, Bool.false_eq_true, false_or]
        intro sound
        simp [sound step (List.mem_append_left [Step.dispose] between)] at raised
      exact iff_of_false (engineKept_unbalanced numbered starting) fun both => unsound both.1
  | stopped succeeded created released wired unready shown seen =>
    rw [sound_iff_disposes succeeded]
    constructor
    · intro balanced
      refine ⟨?_, fun starts => alone_of_balanced balanced shown (seen starts)⟩
      by_contra dispose
      rw [Bool.not_eq_false] at dispose
      exact undisposed_unbalanced numbered dispose created released balanced
    · rintro ⟨dispose, alone⟩
      refine ⟨disposed_releasedOnce numbered dispose created released, fun now now_mem ready => ?_,
        unready, fun now now_mem ready => ?_⟩
      · obtain ⟨starts, engine, client, service, -⟩ := shown now now_mem ready
        exact ⟨starts, engine, client, service⟩
      · obtain ⟨starts, engine, client, service, wired, tags⟩ := shown now now_mem ready
        rw [alone starts, List.nil_append] at wired
        exact ⟨engine, client, service.dbEngine, service.cache, wired, tags⟩

theorem history_balanced_iff {start : World} (numbered : Numbered start) (cycles : List Cycle) :
    (∀ entry ∈ history start cycles, Balanced entry.1 entry.2) ↔
      (∀ cycle ∈ cycles, cycle.Sound) ∧
        (cycles.Pairwise fun earlier later =>
          earlier.raises .setupDb = false → ¬ later.Starts) ∧
        (start.wired ≠ [] → ∀ cycle ∈ cycles, ¬ cycle.Starts) := by
  induction cycles generalizing start with
  | nil => simp [history]
  | cons cycle rest ih =>
    rw [history, List.forall_mem_cons, balanced_iff numbered, ih (numbered_cycleFrom numbered cycle),
      List.forall_mem_cons, List.forall_mem_cons, List.pairwise_cons, ne_eq,
      wired_cycleFrom numbered]
    cases cycle.raises .setupDb <;> by_cases wired : start.wired = [] <;> simp [wired] <;> tauto

theorem lifespan_balanced_iff (cycles : List Cycle) :
    (∀ entry ∈ history {} cycles, Balanced entry.1 entry.2) ↔
      (∀ cycle ∈ cycles, cycle.Sound) ∧
        cycles.Pairwise fun earlier later => earlier.raises .setupDb = false → ¬ later.Starts := by
  have numbered : Numbered {} := by simp [Numbered]
  rw [history_balanced_iff numbered]
  simp [World.wired]

/-- The token signer cannot be set up: the engine is never disposed of. -/
theorem engine_is_kept :
    ¬ ∀ entry ∈ history {} [{ raises := (· == .setupTokenSigner) }], Balanced entry.1 entry.2 := by
  intro balanced
  have once := (balanced _ (List.mem_cons_self ..)).releasedOnce 0 (by decide) (by simp)
  exact absurd once (by decide)

end BackendFoundation.AppLifespan
