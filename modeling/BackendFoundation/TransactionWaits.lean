import BackendFoundation.ReadCommittedProofs

/-! Who waits for whom among interleaved transactions. A step that cannot be taken waits
for another transaction to end: for a row whose lock the other one holds, or for the
outcome that decides whether an INSERT violates a unique index. -/
namespace BackendFoundation.TransactionWaits
open KeyedTables RequestPrograms ReadCommitted ReadCommittedProofs

variable {ρ κ : Type} [DecidableEq κ] {S : Schema ρ κ}
variable {Ask : Type} {Reply : Ask → Type} {Stmt ε α Req : Type}

/-- The next step of the session has to wait for the other one. -/
inductive WaitsFor (driver : Driver S Stmt ε) (committed : Table S)
    (session other : Session S Reply Stmt ε α Req) : Prop where
  | lock (statement : Stmt) (change : Change S)
      (next : Except ε (List ρ) → Program (Op Ask Stmt) (Answer Reply ρ) ε α)
      (key : κ) (todo : List κ) (touched : List ρ)
      (calls : session.program = .call (.stmt statement) next)
      (sql : driver.sql statement = .update change)
      (scans : session.scan = some ⟨key :: todo, touched⟩) (held : other.holds key = true) :
      WaitsFor driver committed session other
  | doubt (statement : Stmt) (row : ρ)
      (next : Except ε (List ρ) → Program (Op Ask Stmt) (Answer Reply ρ) ε α)
      (calls : session.program = .call (.stmt statement) next)
      (sql : driver.sql statement = .insert row) (undecided : other.inDoubt committed row = true) :
      WaitsFor driver committed session other

/-- Whatever happens around the session, it can take its next step. -/
def Ready (driver : Driver S Stmt ε) (serve : Req → Program (Op Ask Stmt) (Answer Reply ρ) ε α)
    (system : System S Reply Stmt ε α Req) (index : ℕ) : Prop :=
  ∀ tick, system.next driver serve (.step index tick) ≠ none

section Waits

variable {driver : Driver S Stmt ε} {tick : Tick Reply ε} {committed : Table S}
variable {others : List (Session S Reply Stmt ε α Req)} {session other : Session S Reply Stmt ε α Req}

/-- Only a session that has written something is waited for. -/
theorem WaitsFor.holds (waits : WaitsFor driver committed session other) :
    ∃ own, own ∈ other.pending := by
  cases waits with
  | lock statement change next key todo touched calls sql scans held =>
    obtain ⟨own, member, _⟩ := List.any_eq_true.mp held
    exact ⟨own, member⟩
  | doubt statement row next calls sql undecided =>
    obtain ⟨own, member, _⟩ := List.any_eq_true.mp undecided
    exact ⟨own, member⟩

/-- Only a statement waits. -/
theorem WaitsFor.calls (waits : WaitsFor driver committed session other) :
    ∃ statement next, session.program = .call (.stmt statement) next := by
  cases waits with
  | lock statement _ next _ _ _ calls => exact ⟨statement, next, calls⟩
  | doubt statement _ next calls => exact ⟨statement, next, calls⟩

theorem waits_of_none (blocked : session.advance driver tick committed others = none) :
    ∃ other ∈ others, WaitsFor driver committed session other := by
  unfold Session.advance at blocked
  split at blocked
  · cases blocked
  · cases blocked
  · cases blocked
  · rename_i statement next calls
    split at blocked
    · cases blocked
    · split at blocked
      · rename_i change sql
        rw [Option.map_eq_none_iff] at blocked
        unfold Session.advanceUpdate at blocked
        split at blocked
        · cases blocked
        · cases blocked
        · rename_i key todo touched scans
          split at blocked
          · rename_i locked
            obtain ⟨other, member, held⟩ := List.any_eq_true.mp locked
            exact ⟨other, member, .lock statement change next key todo touched calls sql scans held⟩
          · split at blocked <;> cases blocked
      · rename_i row sql
        split at blocked
        · rename_i doubt
          obtain ⟨other, member, undecided⟩ := List.any_eq_true.mp doubt
          exact ⟨other, member, .doubt statement row next calls sql undecided⟩
        · split at blocked <;> cases blocked
      · cases blocked
      · cases blocked
  · split at blocked
    · cases blocked
    · split at blocked <;> cases blocked

variable {serve : Req → Program (Op Ask Stmt) (Answer Reply ρ) ε α}
variable {system : System S Reply Stmt ε α Req} {index : ℕ}

theorem waits_of_blocked (found : system.sessions[index]? = some session)
    (blocked : system.next driver serve (.step index tick) = none) :
    ∃ i other, i ≠ index ∧ system.sessions[i]? = some other ∧
      WaitsFor driver system.committed session other := by
  have stuck : session.advance driver tick system.committed (system.sessions.eraseIdx index) = none := by
    refine Option.eq_none_iff_forall_ne_some.mpr ?_
    rintro ⟨committed, later⟩ advanced
    simp [System.next, found, advanced] at blocked
  obtain ⟨other, member, waits⟩ := waits_of_none stuck
  obtain ⟨i, different, at_⟩ := List.mem_eraseIdx_iff_getElem?.mp member
  exact ⟨i, other, different, at_, waits⟩

end Waits

/-! ## UPDATEs that have changed nothing -/

/-- An UPDATE that has not changed a row yet finds nothing written by its transaction. -/
def Untouched (session : Session S Reply Stmt ε α Req) : Prop :=
  ∀ todo, session.scan = some ⟨todo, []⟩ → ∀ own, own ∉ session.pending

/-- An UPDATE in progress has at most one row, to change or changed. -/
def Narrow (session : Session S Reply Stmt ε α Req) : Prop :=
  ∀ scan, session.scan = some scan → scan.todo.length + scan.touched.length ≤ 1

end BackendFoundation.TransactionWaits
