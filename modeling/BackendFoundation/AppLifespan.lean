import Mathlib.Data.List.Basic

/-! `app/core/lifespan.py`: what the application acquires when it starts, releases when it
stops, and shows to the health endpoints in between. Every cycle comes with the steps
that raise in it; every state that a cycle passes through is kept. -/
namespace BackendFoundation.AppLifespan

/-- The steps that may raise. -/
inductive Step where
  | setupDb
  | setupStorage
  | setupPasswordHasher
  | setupTokenSigner
  | setupRedisClient
  | setupCache
  | body
  | dispose
  | aclose
  deriving DecidableEq

/-- A probe that something else has registered, or one of the two of `lifespan`. -/
inductive Probe where
  | outside (tag : ℕ)
  | db (engine : ℕ)
  | redis (client : ℕ)
  deriving DecidableEq

/-- Engines and clients are numbered in the order of their creation. -/
structure Container where
  dbEngine : Option ℕ := none
  sessionFactory : Option ℕ := none
  blobStorage : Bool := false
  passwordHasher : Bool := false
  tokenSigner : Bool := false
  clock : Bool := false
  cache : Option ℕ := none
  probeRegistry : List Probe := []

/-- The state of the application, with the numbers of the engines and clients that have
been created, and of those whose release has been attempted. -/
structure World where
  container : Container := {}
  ready : Bool := false
  created : List ℕ := []
  released : List ℕ := []

/-- A startup and shutdown: which steps raise, and what is registered before it and
while the body runs. -/
structure Cycle where
  raises : Step → Bool
  before : List ℕ := []
  during : List ℕ := []

/-- The state, and those passed through to get there. -/
structure Run where
  world : World
  past : List World

abbrev Lifespan := EStateM Step Run

/-! ## The steps -/

def update (change : World → World) : Lifespan Unit :=
  modify fun run => ⟨change run.world, run.past ++ [change run.world]⟩

def attempt (cycle : Cycle) (step : Step) : Lifespan Unit :=
  if cycle.raises step then throw step else pure ()

def World.install (change : Container → Container) (world : World) : World :=
  { world with container := change world.container }

def World.addProbe (probe : Probe) : World → World :=
  World.install fun container =>
    { container with probeRegistry := container.probeRegistry ++ [probe] }

def World.setReady (ready : Bool) (world : World) : World := { world with ready }

def World.create (world : World) : World :=
  { world with created := world.created ++ [world.created.length] }

def World.release (resource : ℕ) (world : World) : World :=
  { world with released := world.released ++ [resource] }

def setupDb (cycle : Cycle) : Lifespan ℕ := do
  attempt cycle .setupDb
  let engine := (← get).world.created.length
  update World.create
  return engine

def setupRedisClient (cycle : Cycle) : Lifespan ℕ := do
  attempt cycle .setupRedisClient
  let client := (← get).world.created.length
  update World.create
  return client

/-- `_on_startup`. -/
def onStartup (cycle : Cycle) : Lifespan Unit := do
  let engine ← setupDb cycle
  update <| World.install fun container =>
    { container with dbEngine := some engine, sessionFactory := some engine }
  update (World.addProbe (.db engine))
  attempt cycle .setupStorage
  update <| World.install fun container => { container with blobStorage := true }
  attempt cycle .setupPasswordHasher
  update <| World.install fun container => { container with passwordHasher := true }
  attempt cycle .setupTokenSigner
  update <| World.install fun container => { container with tokenSigner := true }
  update <| World.install fun container => { container with clock := true }

/-- `_on_shutdown`. -/
def onShutdown (cycle : Cycle) : Lifespan Unit := do
  match (← get).world.container.dbEngine with
  | some engine =>
    update (World.release engine)
    attempt cycle .dispose
  | none => pure ()

def shutdownRedis (cycle : Cycle) (client : ℕ) : Lifespan Unit := do
  update (World.release client)
  attempt cycle .aclose

/-- What runs at `yield`. -/
def body (cycle : Cycle) : Lifespan Unit := do
  cycle.during.forM fun tag => update (World.addProbe (.outside tag))
  attempt cycle .body

def lifespan (cycle : Cycle) : Lifespan Unit := do
  update (World.setReady false)
  onStartup cycle
  let redisClient ← setupRedisClient cycle
  try
    attempt cycle .setupCache
    update <| World.install fun container => { container with cache := some redisClient }
    update (World.addProbe (.redis redisClient))
    update (World.setReady true)
    body cycle
  finally
    update (World.setReady false)
    onShutdown cycle
    shutdownRedis cycle redisClient

/-- What a cycle leaves, after the registrations before it. -/
def cycleFrom (world : World) (cycle : Cycle) : Run :=
  let registered := cycle.before.foldl (fun world tag => world.addProbe (.outside tag)) world
  match lifespan cycle ⟨registered, []⟩ with
  | .ok _ run => run
  | .error _ run => run

/-- The state before each of the cycles, which follow one another on one application. -/
def history (world : World) : List Cycle → List (World × Cycle)
  | [] => []
  | cycle :: rest => (world, cycle) :: history (cycleFrom world cycle).world rest

/-! ## Rules for `Lifespan`: what holds when a program ends well, and when it raises -/

def Ends {α : Type} (program : Lifespan α) (run : Run) (well : α → Run → Prop)
    (raised : Step → Run → Prop) : Prop :=
  match program run with
  | .ok value run => well value run
  | .error step run => raised step run

section
variable {α β : Type} {run : Run} {raised : Step → Run → Prop}

theorem ends_bind {first : Lifespan α} {next : α → Lifespan β} {well : β → Run → Prop}
    (ends : Ends first run (fun value run => Ends (next value) run well raised) raised) :
    Ends (first >>= next) run well raised := by
  simp only [Ends, bind, EStateM.bind] at ends ⊢
  cases result : first run <;> simpa only [result] using ends

theorem ends_pure {value : α} {well : α → Run → Prop} (holds : well value run) :
    Ends (pure value) run well raised := holds

theorem ends_get {well : Run → Run → Prop} (holds : well run run) :
    Ends get run well raised := holds

theorem ends_update {change : World → World} {well : Unit → Run → Prop}
    (holds : well () ⟨change run.world, run.past ++ [change run.world]⟩) :
    Ends (update change) run well raised := holds

theorem ends_attempt {cycle : Cycle} {step : Step} {well : Unit → Run → Prop}
    (raises : cycle.raises step = true → raised step run)
    (succeeds : cycle.raises step = false → well () run) :
    Ends (attempt cycle step) run well raised := by
  cases outcome : cycle.raises step with
  | true =>
    rw [attempt, if_pos outcome]
    exact raises outcome
  | false =>
    rw [attempt, if_neg (by simp [outcome])]
    exact succeeds outcome

theorem ends_attempt_either {cycle : Cycle} {step : Step} {holds : Run → Prop}
    (now : holds run) :
    Ends (attempt cycle step) run (fun _ run => holds run) (fun _ run => holds run) :=
  ends_attempt (fun _ => now) fun _ => now

theorem ends_mono {program : Lifespan α} {well well' : α → Run → Prop}
    {raised' : Step → Run → Prop} (ends : Ends program run well raised)
    (weaker : ∀ value run, well value run → well' value run)
    (weakerRaised : ∀ step run, raised step run → raised' step run) :
    Ends program run well' raised' := by
  simp only [Ends] at ends ⊢
  cases result : program run with
  | ok value run' => exact weaker value run' (by simpa only [result] using ends)
  | error step run' => exact weakerRaised step run' (by simpa only [result] using ends)

/-- `finally` runs however the guarded part ends. -/
theorem ends_finally {guarded last : Lifespan Unit} {well : Unit → Run → Prop}
    (ends : Ends guarded run (fun _ run => Ends last run well raised)
      (fun step run => Ends last run (fun _ run => raised step run) raised)) :
    Ends (tryFinally guarded last) run well raised := by
  simp only [Ends, tryFinally, tryFinally', Functor.map, EStateM.map] at ends ⊢
  cases first : guarded run with
  | ok value run' =>
    simp only [first] at ends ⊢
    cases second : last run' <;> simpa only [second] using ends
  | error step run' =>
    simp only [first] at ends ⊢
    cases second : last run' <;> simpa only [second] using ends

end

end BackendFoundation.AppLifespan
