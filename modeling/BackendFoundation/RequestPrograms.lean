import Mathlib.Logic.Basic

/-! Programs that ask their surroundings for answers. A program is the tree of
everything it may ask and of what it does with each answer; it fixes no meaning
for the questions. The same program is later run alone against a database and
interleaved with others, so no execution order is built in here. -/
namespace BackendFoundation.RequestPrograms

/-- A program over questions `Op`, answered in `Reply`, that may end by raising.
An answer may itself be an exception, which the program is free to handle. -/
inductive Program (Op : Type) (Reply : Op → Type) (ε α : Type) : Type where
  | ret (value : α)
  | raise (error : ε)
  | call (op : Op) (next : Except ε (Reply op) → Program Op Reply ε α)

namespace Program

variable {Op : Type} {Reply : Op → Type} {ε α β γ : Type}

def bind : Program Op Reply ε α → (α → Program Op Reply ε β) → Program Op Reply ε β
  | .ret value, rest => rest value
  | .raise error, _ => .raise error
  | .call op next, rest => .call op fun answer => (next answer).bind rest

/-- `try … except`: the handler sees every exception the body ends with. -/
def handle : Program Op Reply ε α → (ε → Program Op Reply ε α) → Program Op Reply ε α
  | .ret value, _ => .ret value
  | .raise error, handler => handler error
  | .call op next, handler => .call op fun answer => (next answer).handle handler

instance : Monad (Program Op Reply ε) where
  pure := .ret
  bind := bind

/-- Ask one question; an exceptional answer is raised to the caller. -/
def perform (op : Op) : Program Op Reply ε (Reply op) :=
  .call op fun
    | .ok value => .ret value
    | .error error => .raise error

/-- `if condition: raise error`. -/
def raiseIf (condition : Bool) (error : ε) : Program Op Reply ε Unit :=
  if condition then .raise error else .ret ()

/-- The exception a program has ended with. -/
def raised? : Program Op Reply ε α → Option ε
  | .raise error => some error
  | _ => none

/-- What a program has ended with. -/
def result? : Program Op Reply ε α → Option (Except ε α)
  | .ret value => some (.ok value)
  | .raise error => some (.error error)
  | .call _ _ => none

/-- Lift a computation that asks nothing. -/
def ofExcept : Except ε α → Program Op Reply ε α
  | .ok value => .ret value
  | .error error => .raise error

@[simp] theorem ofExcept_ok (value : α) :
    (ofExcept (.ok value) : Program Op Reply ε α) = .ret value := rfl

@[simp] theorem ofExcept_error (error : ε) :
    (ofExcept (.error error) : Program Op Reply ε α) = .raise error := rfl

@[simp] theorem pure_eq (value : α) : (pure value : Program Op Reply ε α) = .ret value := rfl

@[simp] theorem ret_bind (value : α) (rest : α → Program Op Reply ε β) :
    (Program.ret value >>= rest) = rest value := rfl

@[simp] theorem raise_bind (error : ε) (rest : α → Program Op Reply ε β) :
    (Program.raise error >>= rest) = .raise error := rfl

@[simp] theorem call_bind (op : Op) (next : Except ε (Reply op) → Program Op Reply ε α)
    (rest : α → Program Op Reply ε β) :
    (Program.call op next >>= rest) = .call op fun answer => next answer >>= rest := rfl

theorem bind_assoc (program : Program Op Reply ε α) (first : α → Program Op Reply ε β)
    (second : β → Program Op Reply ε γ) :
    (program >>= first) >>= second = program >>= fun value => first value >>= second := by
  induction program with
  | ret value => rfl
  | raise error => rfl
  | call op next ih =>
    simp only [call_bind]
    congr 1
    funext answer
    exact ih answer

@[simp] theorem bind_ret (program : Program Op Reply ε α) :
    (program >>= fun value => .ret value) = program := by
  induction program with
  | ret value => rfl
  | raise error => rfl
  | call op next ih =>
    simp only [call_bind]
    congr 1
    funext answer
    exact ih answer

/-- The program ends, and whatever it is answered, its calls cost no more than this. -/
def EndsWithin (cost : Op → Nat) : Nat → Program Op Reply ε α → Prop
  | _, .ret _ => True
  | _, .raise _ => True
  | budget, .call op next =>
    cost op ≤ budget ∧ ∀ answer, EndsWithin cost (budget - cost op) (next answer)

section Costs

variable {cost : Op → Nat} {program : Program Op Reply ε α} {budget more : Nat}

theorem EndsWithin.mono (ends : EndsWithin cost budget program) (enough : budget ≤ more) :
    EndsWithin cost more program := by
  induction program generalizing budget more with
  | ret value => trivial
  | raise error => trivial
  | call op next ih =>
    exact ⟨Nat.le_trans ends.1 enough, fun answer => ih answer (ends.2 answer) (by omega)⟩

theorem EndsWithin.bind {rest : α → Program Op Reply ε β} (first : EndsWithin cost budget program)
    (second : ∀ value, EndsWithin cost more (rest value)) :
    EndsWithin cost (budget + more) (program >>= rest) := by
  induction program generalizing budget with
  | ret value => exact (second value).mono (by omega)
  | raise error => trivial
  | call op next ih =>
    have affordable := first.1
    exact ⟨by omega, fun answer => (ih answer (first.2 answer)).mono (by omega)⟩

theorem EndsWithin.handle {handler : ε → Program Op Reply ε α} (body : EndsWithin cost budget program)
    (handled : ∀ error, EndsWithin cost more (handler error)) :
    EndsWithin cost (budget + more) (program.handle handler) := by
  induction program generalizing budget with
  | ret value => trivial
  | raise error => exact (handled error).mono (by omega)
  | call op next ih =>
    have affordable := body.1
    exact ⟨by omega, fun answer => (ih answer (body.2 answer)).mono (by omega)⟩

/-- What follows makes no call. -/
theorem EndsWithin.bind_end {rest : α → Program Op Reply ε β} (first : EndsWithin cost budget program)
    (second : ∀ value, EndsWithin cost 0 (rest value)) : EndsWithin cost budget (program >>= rest) :=
  first.bind second

theorem EndsWithin.handle_end {handler : ε → Program Op Reply ε α}
    (body : EndsWithin cost budget program) (handled : ∀ error, EndsWithin cost 0 (handler error)) :
    EndsWithin cost budget (program.handle handler) :=
  body.handle handled

theorem EndsWithin.perform (op : Op) :
    EndsWithin cost (cost op) (Program.perform op : Program Op Reply ε (Reply op)) := by
  refine ⟨Nat.le_refl _, fun answer => ?_⟩
  cases answer with
  | ok value => trivial
  | error error => trivial

end Costs

end Program

/-- What a program may do from each state of a discipline: every question it
asks is permitted there, every answer the surroundings can give leads to a state
from which the rest complies, and it ends only in states that admit its result. -/
structure Discipline (Op : Type) (Reply : Op → Type) (ε α State : Type) where
  /-- The answers the surroundings may give to a question. -/
  possible : (op : Op) → Except ε (Reply op) → Prop
  /-- The states an answer leads to; none when the question is not permitted. -/
  after : State → (op : Op) → Except ε (Reply op) → State → Prop
  /-- The results a program may end with in a state. -/
  ends : State → Except ε α → Prop

/-- The program complies with the discipline from this state on. -/
def Discipline.Follows {Op : Type} {Reply : Op → Type} {ε α State : Type}
    (discipline : Discipline Op Reply ε α State) : State → Program Op Reply ε α → Prop
  | state, .ret value => discipline.ends state (.ok value)
  | state, .raise error => discipline.ends state (.error error)
  | state, .call op next => ∀ answer, discipline.possible op answer →
      ∃ later, discipline.after state op answer later ∧ discipline.Follows later (next answer)

end BackendFoundation.RequestPrograms
