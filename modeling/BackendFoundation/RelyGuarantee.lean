import BackendFoundation.TurnTaking
import Mathlib.Data.Nat.Notation

/-! Programs that take turns on one state, and rules for what each of them can count on.
A triple says of a program: whatever the others do to the state within the rely, every
call of its own stays within the guarantee, and it ends as the postcondition says. Where
each guarantee is within the others' relies the triples hold of the programs together. -/
namespace BackendFoundation.RelyGuarantee
open RequestPrograms TurnTaking

variable {ι σ Op : Type} {Reply : Op → Type} {ε α β : Type}

/-- The programs take their turns in this order. -/
def run [DecidableEq ι] (execute : (op : Op) → σ → Except ε (Reply op) × σ)
    (system : System ι σ Op Reply ε α) (turns : List ι) : System ι σ Op Reply ε α :=
  turns.foldl (System.step execute) system

/-- The condition survives everything that the relation allows. -/
def Stable (rely : σ → σ → Prop) (condition : σ → Prop) : Prop :=
  ∀ state later, condition state → rely state later → condition later

section Triples

variable (execute : (op : Op) → σ → Except ε (Reply op) × σ) (rely guarantee : σ → σ → Prop)

/-- Between its calls a program knows only what is stable. -/
def Triple (post : Except ε α → σ → Prop) : (σ → Prop) → Program Op Reply ε α → Prop
  | pre, .ret value => ∀ state, pre state → post (.ok value) state
  | pre, .raise error => ∀ state, pre state → post (.error error) state
  | pre, .call op next => ∃ between : Except ε (Reply op) → σ → Prop,
      (∀ answer, Stable rely (between answer)) ∧
      (∀ state, pre state → guarantee state (execute op state).2 ∧
        between (execute op state).1 (execute op state).2) ∧
      ∀ answer, Triple post (between answer) (next answer)

variable {execute rely guarantee}
variable {pre : σ → Prop} {post : Except ε α → σ → Prop} {program : Program Op Reply ε α}

/-! ## Rules -/

theorem Triple.weaken {pre' : σ → Prop} {post' : Except ε α → σ → Prop}
    (holds : Triple execute rely guarantee post pre program)
    (stronger : ∀ state, pre' state → pre state)
    (weaker : ∀ result state, post result state → post' result state) :
    Triple execute rely guarantee post' pre' program := by
  induction program generalizing pre pre' with
  | ret value => exact fun state met => weaker _ _ (holds state (stronger state met))
  | raise error => exact fun state met => weaker _ _ (holds state (stronger state met))
  | call op next ih =>
    obtain ⟨between, stable, step, rest⟩ := holds
    exact ⟨between, stable, fun state met => step state (stronger state met),
      fun answer => ih answer (rest answer) fun _ met => met⟩

/-- One call, whose postcondition has to be stable. -/
theorem Triple.perform {op : Op} {post : Except ε (Reply op) → σ → Prop}
    (stable : ∀ answer, Stable rely (post answer))
    (step : ∀ state, pre state → guarantee state (execute op state).2 ∧
      post (execute op state).1 (execute op state).2) :
    Triple execute rely guarantee post pre (Program.perform op) := by
  refine ⟨post, stable, step, fun answer => ?_⟩
  cases answer with
  | ok value => exact fun _ met => met
  | error error => exact fun _ met => met

theorem Triple.bind {rest : α → Program Op Reply ε β} {final : Except ε β → σ → Prop}
    (post : Except ε α → σ → Prop) (first : Triple execute rely guarantee post pre program)
    (second : ∀ value, Triple execute rely guarantee final (post (.ok value)) (rest value))
    (raised : ∀ error state, post (.error error) state → final (.error error) state) :
    Triple execute rely guarantee final pre (program >>= rest) := by
  induction program generalizing pre with
  | ret value => exact Triple.weaken (second value) first fun _ _ met => met
  | raise error => exact fun state met => raised error state (first state met)
  | call op next ih =>
    obtain ⟨between, stable, step, later⟩ := first
    exact ⟨between, stable, step, fun answer => ih answer (later answer)⟩

/-- `try … except`. -/
theorem Triple.handle {handler : ε → Program Op Reply ε α} {final : Except ε α → σ → Prop}
    (post : Except ε α → σ → Prop) (body : Triple execute rely guarantee post pre program)
    (returned : ∀ value state, post (.ok value) state → final (.ok value) state)
    (handled : ∀ error, Triple execute rely guarantee final (post (.error error)) (handler error)) :
    Triple execute rely guarantee final pre (program.handle handler) := by
  induction program generalizing pre with
  | ret value => exact fun state met => returned value state (body state met)
  | raise error => exact Triple.weaken (handled error) body fun _ _ met => met
  | call op next ih =>
    obtain ⟨between, stable, step, later⟩ := body
    exact ⟨between, stable, step, fun answer => ih answer (later answer)⟩

end Triples

/-! ## Programs together -/

section Together

variable {execute : (op : Op) → σ → Except ε (Reply op) × σ} {rely guarantee : ι → σ → σ → Prop}
  {post : ι → Except ε α → σ → Prop} {system : System ι σ Op Reply ε α}

/-- Each program is where its triple is met. -/
def Together (execute : (op : Op) → σ → Except ε (Reply op) × σ) (rely guarantee : ι → σ → σ → Prop)
    (post : ι → Except ε α → σ → Prop) (system : System ι σ Op Reply ε α) : Prop :=
  ∀ i, ∃ pre, Stable (rely i) pre ∧ pre system.state ∧
    Triple execute (rely i) (guarantee i) (post i) pre (system.programs i)

theorem together_ended (together : Together execute rely guarantee post system) {i : ι}
    {result : Except ε α} (ends : (system.programs i).result? = some result) :
    post i result system.state := by
  obtain ⟨pre, -, met, holds⟩ := together i
  cases current : system.programs i with
  | ret value =>
    rw [current] at ends holds
    cases ends
    exact holds _ met
  | raise error =>
    rw [current] at ends holds
    cases ends
    exact holds _ met
  | call op next =>
    rw [current] at ends
    cases ends

variable [DecidableEq ι]

theorem together_step (within : ∀ i j, i ≠ j → ∀ state later, guarantee i state later →
      rely j state later) (together : Together execute rely guarantee post system) (i : ι) :
    Together execute rely guarantee post (system.step execute i) := by
  intro j
  obtain ⟨pre, stable, met, holds⟩ := together j
  cases current : system.programs i with
  | ret value =>
    rw [step_of_ended (by rw [current]; rfl)]
    exact ⟨pre, stable, met, holds⟩
  | raise error =>
    rw [step_of_ended (by rw [current]; rfl)]
    exact ⟨pre, stable, met, holds⟩
  | call op next =>
    obtain ⟨own, -, here, before⟩ := together i
    rw [current] at before
    obtain ⟨between, lasting, step, rest⟩ := before
    have stepped := step system.state here
    rw [step_call current]
    by_cases same : j = i
    · subst same
      refine ⟨_, lasting _, stepped.2, ?_⟩
      dsimp only
      rw [Function.update_self]
      exact rest _
    · refine ⟨pre, stable, stable _ _ met (within i j (Ne.symm same) _ _ stepped.1), ?_⟩
      dsimp only
      rw [Function.update_of_ne same]
      exact holds

/-- However the programs take their turns, each ends as its postcondition says, and what is
stable of that stays true. -/
theorem together_run (within : ∀ i j, i ≠ j → ∀ state later, guarantee i state later →
      rely j state later) (together : Together execute rely guarantee post system) (turns : List ι) :
    Together execute rely guarantee post (run execute system turns) := by
  induction turns generalizing system with
  | nil => exact together
  | cons i rest ih => exact ih (together_step within together i)

end Together

/-! ## How long programs run -/

/-- The program makes at most so many calls, whatever it is answered. -/
abbrev EndsWithin (calls : ℕ) (program : Program Op Reply ε α) : Prop :=
  program.EndsWithin (fun _ => 1) calls

section Lengths

variable {program : Program Op Reply ε α} {calls more : ℕ}

variable [DecidableEq ι] {execute : (op : Op) → σ → Except ε (Reply op) × σ}
  {system : System ι σ Op Reply ε α} {i : ι}

theorem step_endsWithin (ends : EndsWithin (calls + 1) (system.programs i)) :
    EndsWithin calls ((system.step execute i).programs i) := by
  cases current : system.programs i with
  | ret value =>
    rw [step_of_ended (by rw [current]; rfl), current]
    trivial
  | raise error =>
    rw [step_of_ended (by rw [current]; rfl), current]
    trivial
  | call op next =>
    rw [current] at ends
    rw [step_call current]
    dsimp only
    rw [Function.update_self]
    exact ends.2 _

/-- A program that has had its turns has ended, whatever turns the others have had. -/
theorem run_ended (turns : List ι) (ends : EndsWithin calls (system.programs i))
    (enough : calls ≤ turns.count i) :
    ((run execute system turns).programs i).result?.isSome := by
  induction turns generalizing system calls with
  | nil =>
    have none : calls = 0 := by simpa using enough
    subst none
    change (system.programs i).result?.isSome
    cases current : system.programs i with
    | ret value => rfl
    | raise error => rfl
    | call op next =>
      rw [current] at ends
      exact absurd ends.1 (Nat.not_succ_le_zero 0)
  | cons j rest ih =>
    by_cases same : j = i
    · subst same
      rw [List.count_cons_self] at enough
      cases calls with
      | zero => exact ih (step_endsWithin (ends.mono (Nat.zero_le 1))) (Nat.zero_le _)
      | succ calls => exact ih (step_endsWithin ends) (by omega)
    · rw [List.count_cons_of_ne same] at enough
      refine ih ?_ enough
      rw [step_programs_of_ne (Ne.symm same)]
      exact ends

end Lengths

end BackendFoundation.RelyGuarantee
