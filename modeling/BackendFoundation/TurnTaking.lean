import BackendFoundation.RequestPrograms
import Mathlib.Logic.Function.Basic

/-! Programs that take turns on one state. A turn executes the next call of one program,
and leaves every other where it is. -/
namespace BackendFoundation.TurnTaking
open RequestPrograms

/-- The state that is shared, and where each program stands. -/
structure System (ι σ Op : Type) (Reply : Op → Type) (ε α : Type) where
  state : σ
  programs : ι → Program Op Reply ε α

variable {ι σ Op : Type} {Reply : Op → Type} {ε α : Type} [DecidableEq ι]

/-- A program's next call; one that has ended makes none. -/
def System.step (execute : (op : Op) → σ → Except ε (Reply op) × σ) (system : System ι σ Op Reply ε α)
    (i : ι) : System ι σ Op Reply ε α :=
  match system.programs i with
  | .call op next =>
    let (answer, state) := execute op system.state
    ⟨state, Function.update system.programs i (next answer)⟩
  | _ => system

section Steps

variable {execute : (op : Op) → σ → Except ε (Reply op) × σ} {system : System ι σ Op Reply ε α} {i : ι}

theorem step_call {op : Op} {next : Except ε (Reply op) → Program Op Reply ε α}
    (current : system.programs i = .call op next) : system.step execute i =
      ⟨(execute op system.state).2,
        Function.update system.programs i (next (execute op system.state).1)⟩ := by
  rw [System.step, current]

theorem step_of_ended {result : Except ε α} (ended : (system.programs i).result? = some result) :
    system.step execute i = system := by
  unfold System.step
  cases current : system.programs i with
  | ret value => rfl
  | raise error => rfl
  | call op next =>
    rw [current] at ended
    cases ended

theorem step_programs_of_ne {j : ι} (apart : j ≠ i) :
    (system.step execute i).programs j = system.programs j := by
  cases current : system.programs i with
  | ret value => rw [step_of_ended (by rw [current]; rfl)]
  | raise error => rw [step_of_ended (by rw [current]; rfl)]
  | call op next =>
    rw [step_call current]
    exact Function.update_of_ne apart _ _

end Steps

end BackendFoundation.TurnTaking
