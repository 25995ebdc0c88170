import BackendFoundation.KeyedTables
import BackendFoundation.RequestPrograms

/-! A database at isolation level READ COMMITTED. A statement sees what is
committed when it starts and its own transaction's writes. An UPDATE takes the
rows its snapshot selects one at a time: it waits while another transaction
holds a row's lock, and then evaluates its condition again on the newest
committed version. An INSERT waits while another transaction's outcome decides
whether it violates a unique index. Deferred foreign keys are checked by COMMIT.

The first half runs one transaction alone, the second half interleaves any
number of sessions, one statement step at a time. -/
namespace BackendFoundation.ReadCommitted
open KeyedTables RequestPrograms

/-- The exceptions a database driver raises. -/
inductive DbError where
  | integrity
  | data
  | operational
  deriving DecidableEq, Repr

/-- The condition and assignments of an UPDATE that leaves primary keys alone
and cannot bring about a violation of a unique index. -/
structure Change {ρ κ : Type} (S : Schema ρ κ) where
  wanted : ρ → Bool
  set : ρ → ρ
  key_set : ∀ row, S.key (set row) = S.key row
  clash_set : ∀ row other, S.clash (set row) other → S.clash row other

/-- One statement. A refused one fails on its parameters, before any row. -/
inductive Sql {ρ κ : Type} (S : Schema ρ κ) where
  | refused (error : DbError)
  | select (wanted : ρ → Bool)
  | insert (row : ρ)
  | update (change : Change S)

/-- What a program asks of its surroundings: its ports, or the database. -/
inductive Op (Ask Stmt : Type) where
  | ask (question : Ask)
  | stmt (statement : Stmt)
  | commit

/-- A statement answers with rows: those selected, inserted or updated. -/
abbrev Answer {Ask : Type} (Reply : Ask → Type) (ρ : Type) {Stmt : Type} : Op Ask Stmt → Type
  | .ask question => Reply question
  | .stmt _ => List ρ
  | .commit => Unit

/-- The SQL a program's statements stand for and how the driver's exceptions
reach the program. -/
structure Driver {ρ κ : Type} (S : Schema ρ κ) (Stmt ε : Type) where
  sql : Stmt → Sql S
  raised : DbError → ε

/-- The surroundings at one moment: what each port would answer, and the
exception a database operation would meet, if any. -/
structure Tick {Ask : Type} (Reply : Ask → Type) (ε : Type) where
  answer : (question : Ask) → Except ε (Reply question)
  fault : Option ε := none

variable {ρ κ : Type} [DecidableEq κ] {S : Schema ρ κ}

/-- The row meets the primary key, the unique indexes and the foreign keys. -/
def admits (view : Table S) (row : ρ) : Bool :=
  (view.rows.all fun old => S.key old ≠ S.key row && !S.clash old row) &&
    (S.refs row).all fun key => (view.lookup key).isSome

/-- The deferred foreign keys of the rows about to be committed. -/
def settled (committed pending : Table S) : Bool :=
  pending.rows.all fun row =>
    (S.deferredRefs row).all fun key => ((Table.overlay committed pending).lookup key).isSome

/-- One statement run alone: the rows it answers with and the pending writes. -/
def Sql.run (committed pending : Table S) : Sql S → Except DbError (List ρ × Table S)
  | .refused error => .error error
  | .select wanted => .ok ((Table.overlay committed pending).rows.filter wanted, pending)
  | .insert row =>
    if admits (Table.overlay committed pending) row then .ok ([row], pending.put row)
    else .error .integrity
  | .update change =>
    let rows := ((Table.overlay committed pending).rows.filter change.wanted).map change.set
    .ok (rows, rows.foldl Table.put pending)

variable {Ask : Type} {Reply : Ask → Type} {Stmt ε α Req : Type} (driver : Driver S Stmt ε)

/-- One operation run alone. A database operation that fails takes the
transaction's writes with it; a COMMIT that fails has not taken effect. -/
def perform (tick : Tick Reply ε) (committed pending : Table S) :
    (op : Op Ask Stmt) → Except ε (Answer Reply ρ op) × Table S × Table S
  | .ask question => (tick.answer question, committed, pending)
  | .stmt statement =>
    match tick.fault with
    | some error => (.error error, committed, Table.empty S)
    | none =>
      match (driver.sql statement).run committed pending with
      | .ok (rows, written) => (.ok rows, committed, written)
      | .error error => (.error (driver.raised error), committed, Table.empty S)
  | .commit =>
    match tick.fault with
    | some error => (.error error, committed, Table.empty S)
    | none =>
      if settled committed pending then
        (.ok (), Table.overlay committed pending, Table.empty S)
      else (.error (driver.raised .integrity), committed, Table.empty S)

/-- A request served alone in its own session, from its `moment`-th operation
on: the result and the committed tables once the session is closed, which rolls
back what is still pending. -/
def exec (ticks : ℕ → Tick Reply ε) (moment : ℕ) (committed pending : Table S) :
    Program (Op Ask Stmt) (Answer Reply ρ) ε α → Except ε α × Table S
  | .ret value => (.ok value, committed)
  | .raise error => (.error error, committed)
  | .call op next =>
    let outcome := perform driver (ticks moment) committed pending op
    exec ticks (moment + 1) outcome.2.1 outcome.2.2 (next outcome.1)

/-- The operations a request served alone performs. -/
def operations (ticks : ℕ → Tick Reply ε) (moment : ℕ) (committed pending : Table S) :
    Program (Op Ask Stmt) (Answer Reply ρ) ε α → List (Op Ask Stmt)
  | .ret _ => []
  | .raise _ => []
  | .call op next =>
    let outcome := perform driver (ticks moment) committed pending op
    op :: operations ticks (moment + 1) outcome.2.1 outcome.2.2 (next outcome.1)

/-- The rows an UPDATE has still to lock and those it has changed. -/
structure Scan (ρ κ : Type) where
  todo : List κ
  touched : List ρ

/-- A request being served: what remains of its program, its uncommitted rows,
the UPDATE it is in the middle of, and the rows its commits have published. -/
structure Session (S : Schema ρ κ) (Reply : Ask → Type) (Stmt ε α Req : Type) where
  origin : Req
  program : Program (Op Ask Stmt) (Answer Reply ρ) ε α
  pending : Table S
  scan : Option (Scan ρ κ)
  published : List ρ

namespace Session

/-- A request's session before its first operation. -/
def fresh (origin : Req) (program : Program (Op Ask Stmt) (Answer Reply ρ) ε α) :
    Session S Reply Stmt ε α Req :=
  { origin, program, pending := Table.empty S, scan := none, published := [] }

/-- Another transaction holds this row. -/
def holds (key : κ) (other : Session S Reply Stmt ε α Req) : Bool :=
  other.pending.rows.any fun own => S.key own = key

/-- Whether the row violates a unique index depends on how the other
transaction ends: on a version it has written or on one it has superseded. -/
def inDoubt (committed : Table S) (row : ρ) (other : Session S Reply Stmt ε α Req) : Bool :=
  other.pending.rows.any fun own =>
    S.key own = S.key row || S.clash own row ||
      match committed.lookup (S.key own) with
      | some old => S.clash old row
      | none => false

variable (session : Session S Reply Stmt ε α Req)

/-- Carry on after an operation that failed: the transaction's writes are gone. -/
def abort (program : Program (Op Ask Stmt) (Answer Reply ρ) ε α) : Session S Reply Stmt ε α Req :=
  { session with program, pending := Table.empty S, scan := none }

/-- Carry on after a statement with these pending writes. -/
def proceed (program : Program (Op Ask Stmt) (Answer Reply ρ) ε α) (pending : Table S) :
    Session S Reply Stmt ε α Req :=
  { session with program, pending, scan := none }

/-- The newest version of a row, changed when it still meets the condition. -/
def relock (committed : Table S) (change : Change S) (key : κ) : Option ρ :=
  match (Table.overlay committed session.pending).lookup key with
  | some row => if change.wanted row then some (change.set row) else none
  | none => none

/-- The next step of an UPDATE: its snapshot, one row, or its answer. -/
def advanceUpdate (committed : Table S) (others : List (Session S Reply Stmt ε α Req))
    (change : Change S) (next : Except ε (List ρ) → Program (Op Ask Stmt) (Answer Reply ρ) ε α) :
    Option (Session S Reply Stmt ε α Req) :=
  match session.scan with
  | none =>
    let keys := ((Table.overlay committed session.pending).rows.filter change.wanted).map S.key
    some { session with scan := some ⟨keys, []⟩ }
  | some ⟨[], touched⟩ => some (session.proceed (next (.ok touched)) session.pending)
  | some ⟨key :: todo, touched⟩ =>
    if others.any (holds key) then none
    else match session.relock committed change key with
      | some row =>
        some { session with pending := session.pending.put row, scan := some ⟨todo, touched ++ [row]⟩ }
      | none => some { session with scan := some ⟨todo, touched⟩ }

/-- The next step of a session among the others; `none` while it has to wait.
A finished program closes its session, which rolls back what is pending. -/
def advance (tick : Tick Reply ε) (committed : Table S)
    (others : List (Session S Reply Stmt ε α Req)) :
    Option (Table S × Session S Reply Stmt ε α Req) :=
  match session.program with
  | .ret value => some (committed, session.abort (.ret value))
  | .raise error => some (committed, session.abort (.raise error))
  | .call (.ask question) next =>
    some (committed, { session with program := next (tick.answer question) })
  | .call (.stmt statement) next =>
    match tick.fault with
    | some error => some (committed, session.abort (next (.error error)))
    | none =>
      match driver.sql statement with
      | .update change =>
        (session.advanceUpdate committed others change next).map fun later => (committed, later)
      | .insert row =>
        if others.any (inDoubt committed row) then none
        else if admits (Table.overlay committed session.pending) row then
          some (committed, session.proceed (next (.ok [row])) (session.pending.put row))
        else some (committed, session.abort (next (.error (driver.raised .integrity))))
      | .select wanted =>
        let rows := (Table.overlay committed session.pending).rows.filter wanted
        some (committed, session.proceed (next (.ok rows)) session.pending)
      | .refused error => some (committed, session.abort (next (.error (driver.raised error))))
  | .call .commit next =>
    match tick.fault with
    | some error => some (committed, session.abort (next (.error error)))
    | none =>
      if settled committed session.pending then
        some (Table.overlay committed session.pending,
          { session with
            program := next (.ok ()), pending := Table.empty S, scan := none
            published := session.published ++ session.pending.rows })
      else some (committed, session.abort (next (.error (driver.raised .integrity))))

end Session

/-- The committed tables and every session that was ever opened. -/
structure System (S : Schema ρ κ) (Reply : Ask → Type) (Stmt ε α Req : Type) where
  committed : Table S
  sessions : List (Session S Reply Stmt ε α Req)

/-- A new request arrives, or one session takes its next step. -/
inductive Action (Reply : Ask → Type) (ε Req : Type) where
  | arrive (request : Req)
  | step (session : ℕ) (tick : Tick Reply ε)

namespace System

variable (serve : Req → Program (Op Ask Stmt) (Answer Reply ρ) ε α)

def init : System S Reply Stmt ε α Req := ⟨Table.empty S, []⟩

def next (system : System S Reply Stmt ε α Req) :
    Action Reply ε Req → Option (System S Reply Stmt ε α Req)
  | .arrive request =>
    some { system with sessions := system.sessions ++ [Session.fresh request (serve request)] }
  | .step index tick => do
    let session ← system.sessions[index]?
    let (committed, later) ←
      session.advance driver tick system.committed (system.sessions.eraseIdx index)
    some ⟨committed, system.sessions.set index later⟩

/-- A run: one action after another. -/
def run (system : System S Reply Stmt ε α Req) :
    List (Action Reply ε Req) → Option (System S Reply Stmt ε α Req)
  | [] => some system
  | action :: rest => (system.next driver serve action).bind fun later => later.run rest

end System

end BackendFoundation.ReadCommitted
