import BackendFoundation.AuthIntegrity
import Mathlib.Data.List.Sort

/-! The lookups of `app/auth/persistence.py` that no request makes yet: a refresh token by
its hash, the active token of a family, and all tokens of a family in the order of their
issue. What they find is said for every session and every moment of a run of the service,
so whichever request comes to use them can rely on it. -/
namespace BackendFoundation.TokenQueries
open PythonValues KeyedTables RequestPrograms ReadCommitted ReadCommittedProofs LinkedChains
open AuthPersistence AuthPrograms AuthSessions AuthRotation AuthIntegrity

inductive Query where
  | getRefreshTokenByHash (tokenHash : Str)
  | getActiveRefreshTokenByFamily (familyId : UUID)
  | getRefreshTokenFamilyState (familyId : UUID)

/-- The rows of `refresh_tokens` that meet a condition. -/
def tokens (wanted : RefreshTokenRow → Bool) (row : Row) : Bool :=
  (row.refreshToken?.map wanted).getD false

def Query.sql : Query → Sql schema
  | .getRefreshTokenByHash tokenHash =>
    if textParam tokenHash then .select (tokens (·.hash == tokenHash)) else .refused .data
  | .getActiveRefreshTokenByFamily familyId =>
    .select (tokens fun row => row.familyId == familyId && row.replacedBy.isNone)
  | .getRefreshTokenFamilyState familyId => .select (tokens (·.familyId == familyId))

def queryDriver : Driver schema Query Exn where
  sql := Query.sql
  raised := .db

abbrev QueryProgram := Program (Op Ask Query) (Answer Reply Row) Exn

def execute (query : Query) : QueryProgram (List RefreshTokenRow) := do
  return (← Program.perform (Op.stmt query)).filterMap Row.refreshToken?

def getRefreshTokenByHash (tokenHash : Str) : QueryProgram (Option RefreshTokenRow) := do
  scalarOneOrNone (← execute (.getRefreshTokenByHash tokenHash))

def getActiveRefreshTokenByFamily (familyId : UUID) : QueryProgram (Option RefreshTokenRow) := do
  scalarOneOrNone (← execute (.getActiveRefreshTokenByFamily familyId))

/-- Rows issued at the same time may come in any order; here they stay in that of the table. -/
def getRefreshTokenFamilyState (familyId : UUID) : QueryProgram (List RefreshTokenRow) := do
  return (← execute (.getRefreshTokenFamilyState familyId)).insertionSort fun row other =>
    row.issuedAt ≤ other.issuedAt

section Views

variable {view committed pending : Database} {wanted : RefreshTokenRow → Bool}
  {row other : RefreshTokenRow} {ticks : ℕ → World} {moment : ℕ} {α : Type}

/-- The tokens of a view that meet a condition. -/
def selected (view : Database) (wanted : RefreshTokenRow → Bool) : List RefreshTokenRow :=
  (view.rows.filter (tokens wanted)).filterMap Row.refreshToken?

theorem mem_selected : row ∈ selected view wanted ↔ Holds view row ∧ wanted row = true := by
  unfold selected
  rw [List.mem_filterMap]
  constructor
  · rintro ⟨found, member, read⟩
    cases found with
    | user user => cases read
    | refreshToken token =>
      cases read
      obtain ⟨there, meets⟩ := List.mem_filter.mp member
      exact ⟨there, by simpa [tokens, Row.refreshToken?] using meets⟩
  · rintro ⟨there, meets⟩
    exact ⟨_, List.mem_filter.mpr ⟨there, by simpa [tokens, Row.refreshToken?] using meets⟩, rfl⟩

theorem selected_nodup (view : Database) (wanted : RefreshTokenRow → Bool) :
    (selected view wanted).Nodup := by
  have rows : view.rows.Nodup := view.keyed.of_map _
  refine (rows.filter _).filterMap fun row other token read read' => ?_
  cases row with
  | user => cases read
  | refreshToken =>
    cases other with
    | user => cases read'
    | refreshToken =>
      cases read
      cases read'
      rfl

/-- A condition that no two tokens of the view meet selects one, or none. -/
theorem selected_unique (unique : ∀ row other, Holds view row → Holds view other →
      wanted row = true → wanted other = true → row = other) :
    ∃ found : Option RefreshTokenRow, selected view wanted = found.toList := by
  have nodup := selected_nodup view wanted
  cases rows : selected view wanted with
  | nil => exact ⟨none, rfl⟩
  | cons row rest =>
    cases rest with
    | nil => exact ⟨some row, rfl⟩
    | cons other rest =>
      have first := mem_selected.mp (rows ▸ List.mem_cons_self : row ∈ selected view wanted)
      have second := mem_selected.mp
        (rows ▸ List.mem_cons_of_mem _ List.mem_cons_self : other ∈ selected view wanted)
      rw [rows, unique row other first.1 second.1 first.2 second.2] at nodup
      simp at nodup

/-- A query answers with what the session sees. -/
theorem exec_query (query : Query) (healthy : (ticks moment).fault = none)
    (sql : query.sql = .select (tokens wanted)) (rest : List RefreshTokenRow → QueryProgram α) :
    exec queryDriver ticks moment committed pending (execute query >>= rest) =
      exec queryDriver ticks (moment + 1) committed pending
        (rest (selected (Table.overlay committed pending) wanted)) := by
  have answer : perform queryDriver (ticks moment) committed pending (Op.stmt query) =
      (.ok ((Table.overlay committed pending).rows.filter (tokens wanted)), committed, pending) := by
    simp only [perform, healthy, queryDriver, sql, Sql.run]
  simp only [execute, Program.perform, Program.call_bind, exec, answer]
  rfl

/-- `scalar_one_or_none` finds the row of a condition that no two tokens meet. -/
theorem exec_scalar (query : Query) (healthy : (ticks moment).fault = none)
    (sql : query.sql = .select (tokens wanted))
    (unique : ∀ row other, Holds (Table.overlay committed pending) row →
      Holds (Table.overlay committed pending) other →
      wanted row = true → wanted other = true → row = other) :
    ∃ found, exec queryDriver ticks moment committed pending
        (execute query >>= scalarOneOrNone) = (.ok found, committed) ∧
      ∀ row, found = some row ↔ Holds (Table.overlay committed pending) row ∧ wanted row = true := by
  obtain ⟨found, rows⟩ := selected_unique unique
  refine ⟨found, ?_, fun row => ?_⟩
  · rw [exec_query query healthy sql, rows]
    cases found with
    | none => rfl
    | some row => rfl
  · rw [← mem_selected, rows, Option.mem_toList]

end Views

/-- What the lookups find in a transaction's view of the tables: the one row with a
hash, the one row of a family that nothing replaces, and a family's rows by age. They
change nothing. -/
structure Answers (committed pending : Database) : Prop where
  byHash : ∀ (ticks : ℕ → World) tokenHash, (ticks 0).fault = none → textParam tokenHash = true →
    ∃ found, exec queryDriver ticks 0 committed pending (getRefreshTokenByHash tokenHash) =
        (.ok found, committed) ∧
      ∀ row, found = some row ↔ Holds (Table.overlay committed pending) row ∧ row.hash = tokenHash
  active : ∀ (ticks : ℕ → World) familyId, (ticks 0).fault = none →
    ∃ found, exec queryDriver ticks 0 committed pending (getActiveRefreshTokenByFamily familyId) =
        (.ok found, committed) ∧
      ∀ row, found = some row ↔ Holds (Table.overlay committed pending) row ∧
        row.familyId = familyId ∧ row.replacedBy = none
  state : ∀ (ticks : ℕ → World) familyId, (ticks 0).fault = none →
    ∃ rows, exec queryDriver ticks 0 committed pending (getRefreshTokenFamilyState familyId) =
        (.ok rows, committed) ∧
      rows.Nodup ∧ rows.Pairwise (fun row other => row.issuedAt ≤ other.issuedAt) ∧
      ∀ row, row ∈ rows ↔ Holds (Table.overlay committed pending) row ∧ row.familyId = familyId

theorem answers_of_clean {committed pending : Database}
    (clean : (Table.overlay committed pending).ClashFree) : Answers committed pending where
  byHash := by
    intro ticks tokenHash healthy param
    have sql : (Query.getRefreshTokenByHash tokenHash).sql =
        .select (tokens (·.hash == tokenHash)) := if_pos param
    obtain ⟨found, run, finds⟩ := exec_scalar _ healthy sql fun row other here there same same' => by
      rw [beq_iff_eq] at same same'
      have keys := clean _ here _ there (by simp [schema, Row.clash, same, same'])
      exact Row.refreshToken.inj (Table.eq_of_key here there keys)
    exact ⟨found, run, fun row => by rw [finds, beq_iff_eq]⟩
  active := by
    intro ticks familyId healthy
    obtain ⟨found, run, finds⟩ :=
      exec_scalar (.getActiveRefreshTokenByFamily familyId) healthy rfl fun row other here there last last' => by
        rw [Bool.and_eq_true, beq_iff_eq] at last last'
        have keys := clean _ here _ there (by simp [schema, Row.clash, last, last'])
        exact Row.refreshToken.inj (Table.eq_of_key here there keys)
    refine ⟨found, run, fun row => ?_⟩
    rw [finds, Bool.and_eq_true, beq_iff_eq, Option.isNone_iff_eq_none]
  state := by
    intro ticks familyId healthy
    refine ⟨_, exec_query (.getRefreshTokenFamilyState familyId) healthy rfl _, ?_, ?_, ?_⟩
    · exact (List.perm_insertionSort _ _).nodup_iff.mpr (selected_nodup _ _)
    · have total : Std.Total fun row other : RefreshTokenRow => row.issuedAt ≤ other.issuedAt :=
        ⟨fun row other => Int.le_total row.issuedAt other.issuedAt⟩
      have trans : IsTrans RefreshTokenRow fun row other => row.issuedAt ≤ other.issuedAt :=
        ⟨fun _ _ _ => Int.le_trans⟩
      exact List.pairwise_insertionSort _ _
    · intro row
      rw [List.mem_insertionSort, mem_selected, beq_iff_eq]

/-- **The lookups find the chain of a family.** In every state that requests can bring
about, each lookup finds in each session's view, and in the committed tables, the rows
that meet its condition, and never more than one where it expects one. A family of which
the committed tables hold any row is one chain of exchanges; the active token is the last
of that chain, and the family's state is the chain ordered by time of issue. -/
theorem lookups_find_the_chain (service : AuthService) (actions : List AuthAction)
    (system : AuthSystem)
    (reached : System.init.run driver (serve service) actions = some system) :
    (∀ session ∈ system.sessions, Answers system.committed session.pending) ∧
      Answers system.committed (Table.empty _) ∧
      ∀ row, Holds system.committed row → ∃ chain leaf,
        FamilyHistory system row.familyId (chain ++ [leaf]) ∧
        ∀ ticks : ℕ → World, (ticks 0).fault = none →
          exec queryDriver ticks 0 system.committed (Table.empty _)
              (getActiveRefreshTokenByFamily row.familyId) = (.ok (some leaf), system.committed) ∧
          ∃ state, exec queryDriver ticks 0 system.committed (Table.empty _)
              (getRefreshTokenFamilyState row.familyId) = (.ok state, system.committed) ∧
            state.Perm (chain ++ [leaf]) ∧
            state.Pairwise fun row other => row.issuedAt ≤ other.issuedAt := by
  have rotating : Rotating openRun system := rotating_run (fun _ _ _ => trivial) rotating_init reached
  have answers : Answers system.committed (Table.empty _) :=
    answers_of_clean rotating.isolated.clean
  refine ⟨fun session member => answers_of_clean (rotating.isolated.consistent session member),
    answers, fun row held => ?_⟩
  obtain ⟨rows, history⟩ := rotating.history row held
  obtain ⟨leaf, leaf_held, family, last⟩ := history.toFamilyPath.leaf
  obtain ⟨chain, rfl⟩ := history.toFamilyPath.split leaf_held family last
  refine ⟨chain, leaf, history, fun ticks healthy => ⟨?_, ?_⟩⟩
  · obtain ⟨found, run, finds⟩ := answers.active ticks row.familyId healthy
    rw [run, (finds leaf).mpr ⟨leaf_held, family, last⟩]
  · obtain ⟨state, run, nodup, sorted, finds⟩ := answers.state ticks row.familyId healthy
    refine ⟨state, run, (List.perm_ext_iff_of_nodup nodup ?_).mpr fun other => ?_, sorted⟩
    · exact history.toFamilyPath.simple.of_map _
    · rw [finds, history.toFamilyPath.complete, Table.overlay_empty]

/-- A login and an exchange of its token. -/
def sampleExchange : List AuthAction :=
  sampleLogin ++ [.arrive (.refresh (str "token"))] ++ sampleSteps 2 14 30 16

theorem exchange_replaces : ∃ system row, System.init.run driver (serve {}) sampleExchange = some system ∧
    Holds system.committed row ∧ row.replacedBy ≠ none := by
  obtain ⟨row, member, replaced⟩ : ∃ row ∈
      ((System.init.run driver (serve {}) sampleExchange).get (by decide +kernel)).committed.rows.filterMap
        Row.refreshToken?, row.replacedBy ≠ none := by decide +kernel
  obtain ⟨stored, held, read⟩ := List.mem_filterMap.mp member
  cases stored with
  | user _ => cases read
  | refreshToken _ =>
    cases read
    exact ⟨_, row, (Option.some_get _).symm, held, replaced⟩

/-- The exchanged token comes before the active one. -/
theorem sample_exchange_is_looked_up : ∃ system row chain leaf,
    System.init.run driver (serve {}) sampleExchange = some system ∧
      Answers system.committed (Table.empty _) ∧ row.replacedBy ≠ none ∧ row ∈ chain ++ [leaf] ∧
      ∀ ticks : ℕ → World, (ticks 0).fault = none →
        exec queryDriver ticks 0 system.committed (Table.empty _)
          (getActiveRefreshTokenByFamily row.familyId) = (.ok (some leaf), system.committed) := by
  obtain ⟨system, row, ran, held, replaced⟩ := exchange_replaces
  obtain ⟨_, answers, chains⟩ := lookups_find_the_chain {} sampleExchange system ran
  obtain ⟨chain, leaf, history, finds⟩ := chains row held
  exact ⟨system, row, chain, leaf, ran, answers, replaced,
    (history.toFamilyPath.complete row).mpr ⟨held, rfl⟩, fun ticks healthy => (finds ticks healthy).1⟩

end BackendFoundation.TokenQueries
