import BackendFoundation.ReadCommitted

/-! Postconditions of a program run alone in one session. `Ensures` follows the
program operation by operation; each rule below splits one operation into the
ways it can answer, so that every point at which a program can raise is met. -/
namespace BackendFoundation.TransactionLogic
open KeyedTables RequestPrograms ReadCommitted

variable {ρ κ : Type} [DecidableEq κ] {S : Schema ρ κ}
variable {Ask : Type} {Reply : Ask → Type} {Stmt ε α β : Type}
variable (driver : Driver S Stmt ε) (ticks : ℕ → Tick Reply ε)

/-- The run of the program from here ends in a result, a moment, committed
tables and pending writes that satisfy the postcondition. -/
def Ensures (post : Except ε α → ℕ → Table S → Table S → Prop) (moment : ℕ)
    (committed pending : Table S) : Program (Op Ask Stmt) (Answer Reply ρ) ε α → Prop
  | .ret value => post (.ok value) moment committed pending
  | .raise error => post (.error error) moment committed pending
  | .call op next =>
    let outcome := perform driver (ticks moment) committed pending op
    Ensures post (moment + 1) outcome.2.1 outcome.2.2 (next outcome.1)

variable {driver ticks}
variable {post : Except ε α → ℕ → Table S → Table S → Prop}
variable {moment : ℕ} {committed pending : Table S}

/-- What a run ensures holds of its result and of the tables it leaves. -/
theorem ensures_exec {result : Except ε α → Table S → Prop}
    {program : Program (Op Ask Stmt) (Answer Reply ρ) ε α}
    (ensured : Ensures driver ticks (fun value _ later _ => result value later)
      moment committed pending program) :
    result (exec driver ticks moment committed pending program).1
      (exec driver ticks moment committed pending program).2 := by
  induction program generalizing moment committed pending with
  | ret value => exact ensured
  | raise error => exact ensured
  | call op next ih => exact ih _ ensured

/-- A run that ensures one result and one state of the tables is that. -/
theorem ensures_exec_eq {result : Except ε α} {after : Table S}
    {program : Program (Op Ask Stmt) (Answer Reply ρ) ε α}
    (ensured : Ensures driver ticks (fun value _ later _ => value = result ∧ later = after)
      moment committed pending program) :
    exec driver ticks moment committed pending program = (result, after) := by
  obtain ⟨same, left⟩ := @ensures_exec _ _ _ _ _ _ _ _ _ _ _ _ _ _
    (fun value later => value = result ∧ later = after) program ensured
  exact Prod.ext same left

/-- What the rest of a sequence must ensure after its first part. -/
def Then (driver : Driver S Stmt ε) (ticks : ℕ → Tick Reply ε)
    (post : Except ε β → ℕ → Table S → Table S → Prop)
    (rest : α → Program (Op Ask Stmt) (Answer Reply ρ) ε β) :
    Except ε α → ℕ → Table S → Table S → Prop
  | .ok value, moment, committed, pending =>
    Ensures driver ticks post moment committed pending (rest value)
  | .error error, moment, committed, pending => post (.error error) moment committed pending

theorem ensures_bind {post : Except ε β → ℕ → Table S → Table S → Prop}
    {program : Program (Op Ask Stmt) (Answer Reply ρ) ε α}
    {rest : α → Program (Op Ask Stmt) (Answer Reply ρ) ε β}
    (first : Ensures driver ticks (Then driver ticks post rest) moment committed pending program) :
    Ensures driver ticks post moment committed pending (program >>= rest) := by
  induction program generalizing moment committed pending with
  | ret value => exact first
  | raise error => exact first
  | call op next ih => exact ih _ first

/-- A check raises or lets the rest run. -/
theorem ensures_raiseIf {condition : Bool} {error : ε}
    {rest : Unit → Program (Op Ask Stmt) (Answer Reply ρ) ε α}
    (raises : condition = true → post (.error error) moment committed pending)
    (passes : condition = false → Ensures driver ticks post moment committed pending (rest ())) :
    Ensures driver ticks post moment committed pending
      (Program.raiseIf condition error >>= rest) := by
  cases condition with
  | true => exact raises rfl
  | false => exact passes rfl

section Operations

variable {rest : List ρ → Program (Op Ask Stmt) (Answer Reply ρ) ε α}

theorem ensures_ask {question : Ask} {rest : Reply question → Program (Op Ask Stmt) (Answer Reply ρ) ε α}
    (raises : ∀ error, (ticks moment).answer question = .error error →
      post (.error error) (moment + 1) committed pending)
    (answers : ∀ value, (ticks moment).answer question = .ok value →
      Ensures driver ticks post (moment + 1) committed pending (rest value)) :
    Ensures driver ticks post moment committed pending
      (Program.perform (Op.ask question) >>= rest) := by
  simp only [Program.perform, Program.call_bind, Ensures, ReadCommitted.perform]
  cases answer : (ticks moment).answer question with
  | ok value => exact answers value answer
  | error error => exact raises error answer

/-- A statement that ran, with the rows it answered and what is then pending. -/
theorem ensures_stmt {statement : Stmt}
    (raises : ∀ error, ((ticks moment).fault = some error ∨
        ∃ cause, (driver.sql statement).run committed pending = .error cause ∧
          error = driver.raised cause) →
      post (.error error) (moment + 1) committed (Table.empty S))
    (answers : ∀ rows written, (ticks moment).fault = none →
      (driver.sql statement).run committed pending = .ok (rows, written) →
      Ensures driver ticks post (moment + 1) committed written (rest rows)) :
    Ensures driver ticks post moment committed pending
      (Program.perform (Op.stmt statement) >>= rest) := by
  simp only [Program.perform, Program.call_bind, Ensures, ReadCommitted.perform]
  cases fault : (ticks moment).fault with
  | some error => exact raises error (.inl fault)
  | none =>
    dsimp only
    cases ran : (driver.sql statement).run committed pending with
    | error cause => exact raises _ (.inr ⟨cause, ran, rfl⟩)
    | ok outcome => exact answers outcome.1 outcome.2 fault ran

theorem ensures_commit {rest : Unit → Program (Op Ask Stmt) (Answer Reply ρ) ε α}
    (raises : ∀ error, ((ticks moment).fault = some error ∨
        (settled committed pending = false ∧ error = driver.raised .integrity)) →
      post (.error error) (moment + 1) committed (Table.empty S))
    (answers : (ticks moment).fault = none → settled committed pending = true →
      Ensures driver ticks post (moment + 1) (Table.overlay committed pending) (Table.empty S) (rest ())) :
    Ensures driver ticks post moment committed pending
      (Program.perform Op.commit >>= rest) := by
  simp only [Program.perform, Program.call_bind, Ensures, ReadCommitted.perform]
  cases fault : (ticks moment).fault with
  | some error => exact raises error (.inl fault)
  | none =>
    dsimp only
    cases checks : settled committed pending with
    | true => exact answers fault checks
    | false => exact raises _ (.inr ⟨checks, rfl⟩)

end Operations

end BackendFoundation.TransactionLogic
