import BackendFoundation.ReadCommittedProofs

/-! Foreign keys among interleaved transactions, and the columns of single rows. No
operation of the model takes a row away, so a key that a transaction has found stays;
what is left to check is that an UPDATE does not point a row elsewhere, and that a COMMIT
looks for the deferred keys of every row it publishes. -/
namespace BackendFoundation.ReferentialIntegrity
open KeyedTables RequestPrograms ReadCommitted ReadCommittedProofs

variable {ρ κ : Type} [DecidableEq κ] {S : Schema ρ κ}
variable {Ask : Type} {Reply : Ask → Type} {Stmt ε α Req : Type}

/-- The table has a row with this key. -/
def Covered (table : Table S) (key : κ) : Prop := ∃ row ∈ table, S.key row = key

/-- The UPDATEs of the driver leave the foreign keys of a row alone that are
checked by the statement. -/
def KeepsRefs (driver : Driver S Stmt ε) : Prop :=
  ∀ statement change, driver.sql statement = .update change → ∀ row, S.refs (change.set row) = S.refs row

theorem covered_of_lookup {table : Table S} {key : κ} (found : (table.lookup key).isSome = true) :
    Covered table key := by
  obtain ⟨row, same⟩ := Option.isSome_iff_exists.mp found
  exact ⟨row, Table.lookup_eq_some.mp same⟩

/-- Writing rows over a table takes no key away. -/
theorem covered_overlay {committed pending : Table S} {key : κ} (covered : Covered committed key) :
    Covered (Table.overlay committed pending) key := by
  obtain ⟨row, member, same⟩ := covered
  by_cases written : ∃ own ∈ pending, S.key own = S.key row
  · obtain ⟨own, here, over_row⟩ := written
    exact ⟨own, Table.mem_overlay.mpr (.inl here), over_row.trans same⟩
  · refine ⟨row, Table.mem_overlay.mpr (.inr ⟨member, fun own here clash => ?_⟩), same⟩
    exact written ⟨own, here, clash⟩

theorem covered_put {committed pending : Table S} {row : ρ} {key : κ}
    (covered : Covered (Table.overlay committed pending) key) :
    Covered (Table.overlay committed (pending.put row)) key := by
  obtain ⟨old, member, same⟩ := covered
  by_cases rewritten : S.key old = S.key row
  · exact ⟨row, Table.mem_overlay.mpr (.inl (Table.mem_put.mpr (.inl rfl))), rewritten.symm.trans same⟩
  · refine ⟨old, ?_, same⟩
    rcases Table.mem_overlay.mp member with own | ⟨kept, unwritten⟩
    · exact Table.mem_overlay.mpr (.inl (Table.mem_put.mpr (.inr ⟨own, rewritten⟩)))
    · refine Table.mem_overlay.mpr (.inr ⟨kept, fun other here clash => ?_⟩)
      rcases Table.mem_put.mp here with rfl | ⟨own, _⟩
      · exact rewritten clash.symm
      · exact unwritten other own clash

/-- A transaction's own view of a key outlives the commits of the others. -/
theorem covered_mono {before after pending : Table S} {key : κ}
    (grows : ∀ key, Covered before key → Covered after key)
    (covered : Covered (Table.overlay before pending) key) :
    Covered (Table.overlay after pending) key := by
  obtain ⟨row, member, same⟩ := covered
  rcases Table.mem_overlay.mp member with own | ⟨kept, _⟩
  · exact ⟨row, Table.mem_overlay.mpr (.inl own), same⟩
  · exact covered_overlay (grows key ⟨row, kept, same⟩)

/-- Every foreign key of the rows names a row of the view. -/
def Resolves (view rows : Table S) : Prop := ∀ row ∈ rows, ∀ key ∈ S.refs row, Covered view key

/-- The foreign keys of what is committed name committed rows, and those of what
a session has written name rows that it sees. -/
structure Referential (system : System S Reply Stmt ε α Req) : Prop where
  refs : Resolves system.committed system.committed
  deferred : ∀ row ∈ system.committed, ∀ key ∈ S.deferredRefs row, Covered system.committed key
  pending : ∀ session ∈ system.sessions,
    Resolves (Table.overlay system.committed session.pending) session.pending

theorem referential_init : Referential (System.init : System S Reply Stmt ε α Req) where
  refs := fun row here => absurd here (Table.not_mem_empty row)
  deferred := fun row here => absurd here (Table.not_mem_empty row)
  pending := fun _ member => absurd member List.not_mem_nil

section Steps

variable {driver : Driver S Stmt ε} {tick : Tick Reply ε} {committed committed' : Table S}
variable {others : List (Session S Reply Stmt ε α Req)} {session later : Session S Reply Stmt ε α Req}

/-- No step takes a key out of the committed tables. -/
theorem moves_covered (moved : Moves driver tick committed others session committed' later) (key : κ)
    (covered : Covered committed key) : Covered committed' key := by
  obtain ⟨_, ⟨rfl, _⟩ | ⟨_, _, _, _, rfl, _⟩⟩ := moves_cases moved
  · exact covered
  · exact covered_overlay covered

private theorem resolves_put {row : ρ} (known : Resolves (Table.overlay committed session.pending) session.pending)
    (refers : ∀ key ∈ S.refs row, Covered (Table.overlay committed session.pending) key) :
    Resolves (Table.overlay committed (session.pending.put row)) (session.pending.put row) := by
  intro own here key names
  rcases Table.mem_put.mp here with rfl | ⟨old, _⟩
  · exact covered_put (refers key names)
  · exact covered_put (known own old key names)

/-- What the moving session has written names rows that it sees. -/
theorem moves_resolves (keeps : KeepsRefs driver)
    (refs : Resolves committed committed)
    (known : Resolves (Table.overlay committed session.pending) session.pending)
    (moved : Moves driver tick committed others session committed' later) :
    Resolves (Table.overlay committed' later.pending) later.pending := by
  cases moved with
  | closed | failed | published => exact fun own here => absurd here (Table.not_mem_empty own)
  | asked | selected | snapshot | skipped | finished => exact known
  | inserted statement row next calls sql decided room =>
    apply resolves_put known
    intro key names
    have found := (Bool.and_eq_true_iff.mp room).2
    exact covered_of_lookup (List.all_eq_true.mp found key names)
  | locked statement change next row todo touched calls sql scans free newest meets healthy =>
    apply resolves_put known
    intro key names
    rw [keeps statement change sql] at names
    rcases Table.mem_overlay.mp newest with own | ⟨kept, _⟩
    · exact known row own key names
    · exact covered_overlay (refs row kept key names)

/-- What a COMMIT publishes names committed rows. -/
theorem moves_published (refs : Resolves committed committed)
    (deferred : ∀ row ∈ committed, ∀ key ∈ S.deferredRefs row, Covered committed key)
    (known : Resolves (Table.overlay committed session.pending) session.pending)
    (moved : Moves driver tick committed others session committed' later) :
    Resolves committed' committed' ∧
      ∀ row ∈ committed', ∀ key ∈ S.deferredRefs row, Covered committed' key := by
  obtain ⟨_, ⟨rfl, _⟩ | ⟨_, _, _, checks, rfl, _⟩⟩ := moves_cases moved
  · exact ⟨refs, deferred⟩
  · refine ⟨fun row here key names => ?_, fun row here key names => ?_⟩
    · rcases Table.mem_overlay.mp here with own | ⟨kept, _⟩
      · exact known row own key names
      · exact covered_overlay (refs row kept key names)
    · rcases Table.mem_overlay.mp here with own | ⟨kept, _⟩
      · exact covered_of_lookup (List.all_eq_true.mp (List.all_eq_true.mp checks row own) key names)
      · exact covered_overlay (deferred row kept key names)

/-- **Foreign keys.** Every action keeps them, those of the uncommitted rows too. -/
theorem referential_next {serve : Req → Program (Op Ask Stmt) (Answer Reply ρ) ε α}
    {system after : System S Reply Stmt ε α Req} {action : Action Reply ε Req}
    (keeps : KeepsRefs driver) (before : Referential system)
    (stepped : system.next driver serve action = some after) : Referential after := by
  rcases next_cases stepped with ⟨request, _, rfl⟩ |
    ⟨index, tick, session, committed, later, _, found, moved, rfl⟩
  · refine ⟨before.refs, before.deferred, fun session member => ?_⟩
    rcases List.mem_append.mp member with old | new
    · exact before.pending session old
    · rw [List.mem_singleton.mp new]
      exact fun own here => absurd here (Table.not_mem_empty own)
  · have known := before.pending session (List.mem_of_getElem? found)
    obtain ⟨refs, deferred⟩ := moves_published before.refs before.deferred known moved
    refine ⟨refs, deferred, fun other member => ?_⟩
    obtain ⟨i, at_⟩ := List.getElem?_of_mem member
    rcases getElem?_set_cases at_ with ⟨_, rfl⟩ | ⟨_, old⟩
    · exact moves_resolves keeps before.refs known moved
    · intro own here key names
      exact covered_mono (moves_covered moved) (before.pending other (List.mem_of_getElem? old) own here key names)

/-- In every state that a run reaches from empty tables the foreign keys hold. -/
theorem referential_run {serve : Req → Program (Op Ask Stmt) (Answer Reply ρ) ε α}
    {system : System S Reply Stmt ε α Req} {actions : List (Action Reply ε Req)}
    (keeps : KeepsRefs driver) (reached : System.init.run driver serve actions = some system) :
    Referential system := by
  have every : Along driver serve (fun _ _ => True) System.init actions :=
    along_of_forall (fun _ _ _ => trivial) _
  exact run_invariant (fun _ _ _ holds _ stepped => referential_next keeps holds stepped)
    referential_init every reached

end Steps

/-! ## Columns -/

/-- The INSERTs of the driver write rows with the property, and its UPDATEs keep it. -/
structure Writes (driver : Driver S Stmt ε) (fits : ρ → Prop) : Prop where
  inserts : ∀ statement row, driver.sql statement = .insert row → fits row
  updates : ∀ statement change, driver.sql statement = .update change →
    ∀ row, fits row → fits (change.set row)

/-- Every committed row has the property, and every row that a session has written. -/
structure Fits (fits : ρ → Prop) (system : System S Reply Stmt ε α Req) : Prop where
  committed : ∀ row ∈ system.committed, fits row
  pending : ∀ session ∈ system.sessions, ∀ row ∈ session.pending, fits row

section Columns

variable {driver : Driver S Stmt ε} {tick : Tick Reply ε} {committed committed' : Table S}
variable {others : List (Session S Reply Stmt ε α Req)} {session later : Session S Reply Stmt ε α Req}
variable {fits : ρ → Prop}

theorem fits_overlay (kept : ∀ row ∈ committed, fits row) (written : ∀ row ∈ session.pending, fits row) :
    ∀ row ∈ Table.overlay committed session.pending, fits row := by
  intro row member
  rcases Table.mem_overlay.mp member with own | ⟨old, _⟩
  · exact written row own
  · exact kept row old

theorem fits_put {pending : Table S} {row : ρ} (new : fits row) (written : ∀ row ∈ pending, fits row) :
    ∀ other ∈ pending.put row, fits other := by
  intro other member
  rcases Table.mem_put.mp member with rfl | ⟨old, _⟩
  · exact new
  · exact written other old

theorem moves_fits (writes : Writes driver fits) (kept : ∀ row ∈ committed, fits row)
    (written : ∀ row ∈ session.pending, fits row)
    (moved : Moves driver tick committed others session committed' later) :
    (∀ row ∈ committed', fits row) ∧ ∀ row ∈ later.pending, fits row := by
  cases moved with
  | closed | failed => exact ⟨kept, fun row here => absurd here (Table.not_mem_empty row)⟩
  | asked | selected | snapshot | skipped | finished => exact ⟨kept, written⟩
  | published =>
    exact ⟨fits_overlay kept written, fun row here => absurd here (Table.not_mem_empty row)⟩
  | inserted statement row next calls sql decided room =>
    exact ⟨kept, fits_put (writes.inserts statement row sql) written⟩
  | locked statement change next row todo touched calls sql scans free newest meets healthy =>
    have fit := fits_overlay kept written row newest
    exact ⟨kept, fits_put (writes.updates statement change sql row fit) written⟩

theorem fits_next {serve : Req → Program (Op Ask Stmt) (Answer Reply ρ) ε α}
    {system after : System S Reply Stmt ε α Req} {action : Action Reply ε Req}
    (writes : Writes driver fits) (before : Fits fits system)
    (stepped : system.next driver serve action = some after) : Fits fits after := by
  rcases next_cases stepped with ⟨request, _, rfl⟩ |
    ⟨index, tick, session, committed, later, _, found, moved, rfl⟩
  · refine ⟨before.committed, fun session member => ?_⟩
    rcases List.mem_append.mp member with old | new
    · exact before.pending session old
    · rw [List.mem_singleton.mp new]
      exact fun row here => absurd here (Table.not_mem_empty row)
  · have written := before.pending session (List.mem_of_getElem? found)
    obtain ⟨kept, wrote⟩ := moves_fits writes before.committed written moved
    refine ⟨kept, fun other member => ?_⟩
    rcases List.mem_or_eq_of_mem_set member with old | rfl
    · exact before.pending other old
    · exact wrote

end Columns

end BackendFoundation.ReferentialIntegrity
