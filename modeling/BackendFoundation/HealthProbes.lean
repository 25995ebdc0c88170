import BackendFoundation.PythonValues
import Mathlib.Data.List.Induction

/-! `app/observability/health.py`: the registry of probes and the two endpoints that run
them. The status of an answer is computed from the list of results, its `probes` member
from a dictionary of them by name. -/
namespace BackendFoundation.HealthProbes
open PythonValues

inductive ProbeStatus where
  | ok
  | degraded
  | error
  deriving DecidableEq

structure ProbeResult where
  name : Str
  status : ProbeStatus
  latencyMs : Option Int := none
  deriving DecidableEq

/-- How a check ends within one request: with a result, with an exception, or not before
the timeout. -/
inductive Check where
  | returned (result : ProbeResult)
  | raised
  | exceeded

structure Probe where
  name : Str
  check : Check

structure ProbeRegistry where
  probes : List Probe := []

def ProbeRegistry.addProbe (registry : ProbeRegistry) (probe : Probe) : ProbeRegistry :=
  ⟨registry.probes ++ [probe]⟩

/-- `_safe_check`. -/
def safeCheck (probe : Probe) : ProbeResult :=
  match probe.check with
  | .returned result => result
  | .raised => { name := probe.name, status := .error }
  | .exceeded => { name := probe.name, status := .error }

/-- `run_all`: `gather` keeps the order of the probes. -/
def ProbeRegistry.runAll (registry : ProbeRegistry) : List ProbeResult :=
  registry.probes.map safeCheck

/-- `_all_ok`. -/
def allOk (results : List ProbeResult) : Bool := results.all fun r => r.status == .ok

/-- `_results_payload`. -/
def resultsPayload (results : List ProbeResult) : List (Str × ProbeStatus) :=
  results.foldl (fun payload r => setItem payload r.name r.status) []

/-- What an endpoint answers: `status`, and `probes` if it is there. -/
structure Answer where
  statusCode : ℕ := 200
  status : Str
  probes : Option (List (Str × ProbeStatus)) := none

def healthz (registry : ProbeRegistry) : Answer :=
  let results := registry.runAll
  if !allOk results then
    { statusCode := 503, status := str "error", probes := some (resultsPayload results) }
  else { status := str "ok" }

def readyz (isReady : Bool) (registry : ProbeRegistry) : Answer :=
  if !isReady then { statusCode := 503, status := str "starting" }
  else
    let results := registry.runAll
    if !allOk results then
      { statusCode := 503, status := str "error", probes := some (resultsPayload results) }
    else { status := str "ok" }

/-! ## What the endpoints report -/

/-- The probe returned ok. -/
def Probe.Ok (probe : Probe) : Prop := ∃ result, probe.check = .returned result ∧ result.status = .ok

/-- The last of the results with this name is not ok. -/
def LastFails (results : List ProbeResult) (name : Str) : Prop :=
  ∃ before last after, results = before ++ last :: after ∧ last.name = name ∧ last.status ≠ .ok ∧
    ∀ later ∈ after, later.name ≠ name

/-- The answer names every probe that did not return ok, with a status that is not ok. -/
def Reports (registry : ProbeRegistry) (answer : Answer) : Prop :=
  ∃ payload, answer.probes = some payload ∧ ∀ probe ∈ registry.probes, ¬ probe.Ok →
    ∃ status, payload.lookup probe.name = some status ∧ status ≠ .ok

/-- No failure is lost on the way from the probes to the answers. -/
structure LosesNoFailure (isReady : Bool) (registry : ProbeRegistry) : Prop where
  healthz : (healthz registry).statusCode = 200 ↔ ∀ probe ∈ registry.probes, probe.Ok
  readyz : (readyz isReady registry).statusCode = 200 ↔
    isReady = true ∧ ∀ probe ∈ registry.probes, probe.Ok
  separately : ∀ before probe after, registry.probes = before ++ probe :: after →
    registry.runAll = ProbeRegistry.runAll ⟨before⟩ ++ safeCheck probe :: ProbeRegistry.runAll ⟨after⟩
  reported : ∀ answer, answer = HealthProbes.healthz registry ∨
    (isReady = true ∧ answer = HealthProbes.readyz isReady registry) → answer.statusCode = 503 →
      Reports registry answer

section Payloads

variable {results : List ProbeResult} {name : Str}

/-- The payload has the status of the last result with a name. -/
theorem lookup_resultsPayload (results : List ProbeResult) (name : Str) :
    (resultsPayload results).lookup name =
      ((results.filter fun r => r.name == name).getLast?).map ProbeResult.status := by
  unfold resultsPayload
  induction results using List.reverseRecOn with
  | nil => rfl
  | append_singleton before last ih =>
    rw [List.foldl_append, List.filter_append]
    by_cases same : last.name = name
    · simp [same, lookup_setItem_self]
    · simp [same, lookup_setItem_of_ne _ _ (Ne.symm same), ih]

theorem lastFails_iff : LastFails results name ↔
    ∃ status, (resultsPayload results).lookup name = some status ∧ status ≠ .ok := by
  rw [lookup_resultsPayload]
  constructor
  · rintro ⟨before, last, after, rfl, named, fails, others⟩
    have none_later : (after.filter fun r => r.name == name) = [] :=
      List.filter_eq_nil_iff.mpr fun r member => by simpa using others r member
    exact ⟨last.status, by simp [named, none_later], fails⟩
  · rintro ⟨status, found, fails⟩
    obtain ⟨last, ends, rfl⟩ := Option.map_eq_some_iff.mp found
    obtain ⟨others, whole⟩ := List.getLast?_eq_some_iff.mp ends
    obtain ⟨before, rest, rfl, -, kept⟩ := List.filter_eq_append_iff.mp whole
    obtain ⟨skipped, after, rfl, -, named, none_later⟩ := List.filter_eq_cons_iff.mp kept
    refine ⟨before ++ skipped, last, after, by simp, by simpa using named, fails, ?_⟩
    intro later member
    simpa using List.filter_eq_nil_iff.mp none_later later member

end Payloads

section Answers

variable {registry : ProbeRegistry}

theorem safeCheck_ok {probe : Probe} : (safeCheck probe).status = .ok ↔ probe.Ok := by
  unfold safeCheck Probe.Ok
  cases probe.check <;> simp

theorem allOk_iff : allOk registry.runAll = true ↔ ∀ probe ∈ registry.probes, probe.Ok := by
  simp [allOk, ProbeRegistry.runAll, safeCheck_ok]

/-- A probe that fails is reported if it is the last of its name that decides. -/
theorem reports_iff {statusCode : ℕ} {status : Str} :
    Reports registry { statusCode, status, probes := some (resultsPayload registry.runAll) } ↔
      ∀ probe ∈ registry.probes, ¬ probe.Ok → LastFails registry.runAll probe.name := by
  constructor
  · rintro ⟨payload, shown, reported⟩ probe member fails
    cases shown
    exact lastFails_iff.mpr (reported probe member fails)
  · intro lasts
    exact ⟨_, rfl, fun probe member fails => lastFails_iff.mp (lasts probe member fails)⟩

theorem healthz_failing (fails : ¬ allOk registry.runAll = true) : healthz registry =
    { statusCode := 503, status := str "error", probes := some (resultsPayload registry.runAll) } := by
  simp [healthz, fails]

/-- Once it is ready the application answers both endpoints alike. -/
theorem readyz_ready : readyz true registry = healthz registry := rfl

theorem healthz_statusCode : (healthz registry).statusCode = 200 ↔
    ∀ probe ∈ registry.probes, probe.Ok := by
  rw [← allOk_iff]
  cases all : allOk registry.runAll <;> simp [healthz, all]

/-- **No failure is lost** exactly if the last result under the name of every failing
probe is a failure too: the payload has one entry for each name. -/
theorem loses_no_failure_iff (isReady : Bool) (registry : ProbeRegistry) :
    LosesNoFailure isReady registry ↔
      ∀ probe ∈ registry.probes, ¬ probe.Ok → LastFails registry.runAll probe.name := by
  constructor
  · intro sound probe member fails
    have some_fails : ¬ allOk registry.runAll = true := fun all => fails (allOk_iff.mp all probe member)
    have answer := healthz_failing some_fails
    exact reports_iff.mp (answer ▸ sound.reported _ (.inl rfl) (by rw [answer])) probe member fails
  · intro lasts
    refine ⟨healthz_statusCode, ?_, ?_, ?_⟩
    · cases isReady with
      | false => simp [readyz]
      | true => simp [readyz_ready, healthz_statusCode]
    · intro before probe after whole
      simp [ProbeRegistry.runAll, whole]
    · intro answer which unhealthy
      have same : answer = healthz registry := by
        rcases which with same | ⟨rfl, same⟩
        · exact same
        · exact same.trans readyz_ready
      subst same
      by_cases all : allOk registry.runAll = true
      · rw [healthz_statusCode.mpr (allOk_iff.mp all)] at unhealthy
        cases unhealthy
      · rw [healthz_failing all]
        exact reports_iff.mpr lasts

/-- A database that does not answer, and a second probe of the same name that is fine. -/
def shadowedRegistry : ProbeRegistry :=
  ProbeRegistry.addProbe ⟨[⟨str "db", .raised⟩]⟩ ⟨str "db", .returned ⟨str "db", .ok, none⟩⟩

/-- The answer is that something is wrong, and that all is well. -/
theorem shadowed_failure_is_lost : (healthz shadowedRegistry).statusCode = 503 ∧
    (healthz shadowedRegistry).probes = some [(str "db", .ok)] ∧
      ¬ LosesNoFailure true shadowedRegistry := by
  have answer : (healthz shadowedRegistry).statusCode = 503 ∧
      (healthz shadowedRegistry).probes = some [(str "db", .ok)] := ⟨rfl, by decide⟩
  refine ⟨answer.1, answer.2, fun sound => ?_⟩
  obtain ⟨payload, shown, reported⟩ := sound.reported _ (.inl rfl) answer.1
  cases answer.2.symm.trans shown
  obtain ⟨status, found, fails⟩ := reported ⟨str "db", .raised⟩ List.mem_cons_self
    (by rintro ⟨result, never, -⟩; cases never)
  exact fails (Option.some.inj (found.symm.trans (by decide)))

end Answers

end BackendFoundation.HealthProbes
