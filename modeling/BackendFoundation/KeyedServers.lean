import BackendFoundation.TurnTaking
import Mathlib.Data.List.Basic

/-! Programs that share a server whose every command is about one key. Programs that
keep to keys of their own do not notice one another: the run without some of them
gives the others the same answers. -/
namespace BackendFoundation.KeyedServers
open RequestPrograms TurnTaking

/-- A server: the key of a command, and what the command answers and leaves. A command
writes nothing under another key and reads nothing there. -/
structure Server (κ σ Time Op : Type) (Reply : Op → Type) (ε : Type) where
  key : Op → κ
  execute : Time → (op : Op) → (κ → σ) → Except ε (Reply op) × (κ → σ)
  writes_own : ∀ time op keys other, other ≠ key op → (execute time op keys).2 other = keys other
  reads_own : ∀ time op keys keys', keys (key op) = keys' (key op) →
    (execute time op keys).1 = (execute time op keys').1 ∧
      (execute time op keys).2 (key op) = (execute time op keys').2 (key op)

/-- What the server keeps, and where each program stands. -/
abbrev Served (ι κ σ Op : Type) (Reply : Op → Type) (ε α : Type) := System ι (κ → σ) Op Reply ε α

variable {ι κ σ Time Op : Type} {Reply : Op → Type} {ε α : Type}

/-- The server executes the programs' commands in the order of the schedule. -/
def Server.run [DecidableEq ι] (server : Server κ σ Time Op Reply ε) (system : Served ι κ σ Op Reply ε α)
    (schedule : List (ι × Time)) : Served ι κ σ Op Reply ε α :=
  schedule.foldl (fun system turn => system.step (server.execute turn.2) turn.1) system

/-- Every command that the program may send is about the key. -/
def KeepsTo (server : Server κ σ Time Op Reply ε) (key : κ) : Program Op Reply ε α → Prop
  | .call op next => server.key op = key ∧ ∀ answer, KeepsTo server key (next answer)
  | _ => True

/-- Two systems are the same to the programs at home under a key. -/
structure Agrees (home : ι → κ) (key : κ) (one other : Served ι κ σ Op Reply ε α) : Prop where
  keys : one.state key = other.state key
  programs : ∀ i, home i = key → one.programs i = other.programs i

section Isolation

variable {server : Server κ σ Time Op Reply ε} {home : ι → κ} {key : κ} {time : Time}
  {one other system : Served ι κ σ Op Reply ε α}

theorem KeepsTo.bind {β : Type} {program : Program Op Reply ε α}
    {rest : α → Program Op Reply ε β} (first : KeepsTo server key program)
    (second : ∀ value, KeepsTo server key (rest value)) : KeepsTo server key (program >>= rest) := by
  induction program with
  | ret value => exact second value
  | raise error => trivial
  | call op next ih => exact ⟨first.1, fun answer => ih answer (first.2 answer)⟩

theorem KeepsTo.perform {op : Op} (own : server.key op = key) :
    KeepsTo server key (Program.perform op : Program Op Reply ε (Reply op)) := by
  refine ⟨own, fun answer => ?_⟩
  cases answer with
  | ok value => trivial
  | error error => trivial

theorem Agrees.refl (system : Served ι κ σ Op Reply ε α) : Agrees home key system system :=
  ⟨rfl, fun _ _ => rfl⟩

theorem Agrees.symm (agree : Agrees home key one other) : Agrees home key other one :=
  ⟨agree.keys.symm, fun i here => (agree.programs i here).symm⟩

theorem Agrees.trans {third : Served ι κ σ Op Reply ε α} (first : Agrees home key one other)
    (second : Agrees home key other third) : Agrees home key one third :=
  ⟨first.keys.trans second.keys, fun i here => (first.programs i here).trans (second.programs i here)⟩

variable [DecidableEq ι]

theorem step_keepsTo (i : ι) (keep : ∀ j, KeepsTo server (home j) (system.programs j)) :
    ∀ j, KeepsTo server (home j) ((system.step (server.execute time) i).programs j) := by
  intro j
  by_cases same : j = i
  · subst same
    cases current : system.programs j with
    | ret value =>
      rw [step_of_ended (by rw [current]; rfl)]
      exact keep j
    | raise error =>
      rw [step_of_ended (by rw [current]; rfl)]
      exact keep j
    | call op next =>
      have kept := keep j
      rw [current] at kept
      rw [step_call current]
      dsimp only
      rw [Function.update_self]
      exact kept.2 _
  · rw [step_programs_of_ne same]
    exact keep j

/-- A program at home elsewhere leaves everything here as it is. -/
theorem step_elsewhere {i : ι} (time : Time) (keep : KeepsTo server (home i) (system.programs i))
    (elsewhere : home i ≠ key) : Agrees home key (system.step (server.execute time) i) system := by
  constructor
  · cases current : system.programs i with
    | ret value => rw [step_of_ended (by rw [current]; rfl)]
    | raise error => rw [step_of_ended (by rw [current]; rfl)]
    | call op next =>
      rw [current] at keep
      rw [step_call current]
      apply server.writes_own
      rw [keep.1]
      exact elsewhere.symm
  · intro j here
    exact step_programs_of_ne fun same => elsewhere (same ▸ here)

/-- A program at home here finds the same in both systems. -/
theorem step_here {i : ι} (keep : KeepsTo server (home i) (one.programs i)) (here : home i = key)
    (agree : Agrees home key one other) :
    Agrees home key (one.step (server.execute time) i) (other.step (server.execute time) i) := by
  have same := agree.programs i here
  cases current : one.programs i with
  | ret value =>
    rw [step_of_ended (by rw [current]; rfl), step_of_ended (by rw [← same, current]; rfl)]
    exact agree
  | raise error =>
    rw [step_of_ended (by rw [current]; rfl), step_of_ended (by rw [← same, current]; rfl)]
    exact agree
  | call op next =>
    rw [current] at keep
    have own : server.key op = key := keep.1.trans here
    obtain ⟨answers, leaves⟩ := server.reads_own time op one.state other.state (by
      rw [own]
      exact agree.keys)
    rw [step_call current, step_call (same.symm.trans current)]
    constructor
    · rw [← own]
      exact leaves
    · intro j athome
      dsimp only
      rw [answers]
      by_cases is : j = i
      · rw [is, Function.update_self, Function.update_self]
      · rw [Function.update_of_ne is, Function.update_of_ne is]
        exact agree.programs j athome

/-- The run in which only some programs take their turns, all those of the key among
them, is the same to the key's programs. -/
theorem run_filter (kept : ι → Bool) (all : ∀ i, home i = key → kept i = true)
    (schedule : List (ι × Time)) (keep : ∀ i, KeepsTo server (home i) (one.programs i))
    (keep' : ∀ i, KeepsTo server (home i) (other.programs i))
    (agree : Agrees home key one other) :
    Agrees home key (server.run one schedule)
      (server.run other (schedule.filter fun turn => kept turn.1)) := by
  induction schedule generalizing one other with
  | nil => exact agree
  | cons turn rest ih =>
    by_cases here : home turn.1 = key
    · rw [List.filter_cons_of_pos (by exact all turn.1 here)]
      apply ih (step_keepsTo turn.1 keep) (step_keepsTo turn.1 keep')
      exact step_here (keep turn.1) here agree
    · have untouched := (step_elsewhere turn.2 (keep turn.1) here).trans agree
      by_cases taken : kept turn.1 = true
      · rw [List.filter_cons_of_pos (by exact taken)]
        apply ih (step_keepsTo turn.1 keep) (step_keepsTo turn.1 keep')
        exact untouched.trans (step_elsewhere turn.2 (keep' turn.1) here).symm
      · rw [List.filter_cons_of_neg (by exact taken)]
        exact ih (step_keepsTo turn.1 keep) keep' untouched

/-- Programs at home elsewhere may be left out. -/
theorem run_without (dropped : ι → Bool) (schedule : List (ι × Time)) {i : ι}
    (keep : ∀ j, KeepsTo server (home j) (system.programs j))
    (elsewhere : ∀ j, dropped j = true → home j ≠ home i) :
    (server.run system schedule).programs i =
      (server.run system (schedule.filter fun turn => !dropped turn.1)).programs i := by
  have all : ∀ j, home j = home i → (!dropped j) = true := by
    intro j here
    cases left : dropped j with
    | false => rfl
    | true => exact absurd here (elsewhere j left)
  exact (run_filter _ all schedule keep keep (Agrees.refl system)).programs i rfl

end Isolation

end BackendFoundation.KeyedServers
