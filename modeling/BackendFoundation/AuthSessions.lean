import BackendFoundation.AuthDiscipline
import BackendFoundation.AuthSpecs
import BackendFoundation.ReadCommittedProofs

/-! The sessions of the auth service among each other. For every phase of a
request there is a statement about the rows its session has written and about
what is committed underneath them. One step of a session keeps it, and so do
the steps of all the others. -/
namespace BackendFoundation.AuthSessions
open PythonValues KeyedTables RequestPrograms ReadCommitted ReadCommittedProofs
open AuthPersistence AuthPrograms AuthSpecs AuthDiscipline

abbrev AuthSession := Session schema Reply Statement Exn Response Request
abbrev AuthSystem := System schema Reply Statement Exn Response Request
abbrev AuthAction := Action Reply Exn Request

/-- What a run keeps to: the claims its tokens verify with, the users it
registers, the versions a rotation takes, the exceptions from outside the
service, and whether a revoked family has to stay revoked. -/
structure Regime where
  decodes : Str → Claims → Prop
  registers : UserRow → Prop
  marks : RefreshTokenRow → Prop
  raises : Exn → Prop
  final : Prop

/-- The family's last row is revoked. -/
def Dead (db : Database) (familyId : UUID) : Prop :=
  ∃ leaf, Row.refreshToken leaf ∈ db ∧ leaf.familyId = familyId ∧ leaf.replacedBy = none ∧
    leaf.revokedAt ≠ none

/-- The session's next step, seen from the state before it, keeps to the regime. -/
structure Within (regime : Regime) (db : Database) (session : AuthSession) (tick : World) : Prop where
  decodes : ∀ token next claims, session.program = .call (.ask (.verify token)) next →
    tick.answer (.verify token) = .ok claims → regime.decodes token claims
  registers : ∀ user next, session.program = .call (.stmt (.insertUser user)) next →
    regime.registers user.stored
  fails : ∀ op next error, session.program = .call op next →
    Fails driver tick db session.pending op error → regime.raises error
  raises : ∀ question next error, session.program = .call (.ask question) next →
    tick.answer question = .error error → regime.raises error ∨
      ∃ token detail, question = .verify token ∧ error = .app .authentication detail
  marks : ∀ tokenId replacedBy revokedAt next todo touched row,
    session.program = .call (.stmt (.markRefreshTokenReplaced tokenId replacedBy revokedAt)) next →
    session.scan = some ⟨.refreshToken row.id :: todo, touched⟩ → Row.refreshToken row ∈ db →
    tick.fault = none → regime.marks row
  sweeps : regime.final → ∀ familyId revokedAt next todo touched row,
    session.program = .call (.stmt (.revokeRefreshTokenFamily familyId revokedAt)) next →
    session.scan = some ⟨.refreshToken row.id :: todo, touched⟩ → Row.refreshToken row ∈ db →
    tick.fault = none → row.replacedBy = none

/-- The record is a version of a committed row. -/
def Known (db : Database) (record : RefreshTokenRow) : Prop :=
  ∃ row, Row.refreshToken row ∈ db ∧ row.id = record.id ∧ row.userId = record.userId ∧
    row.familyId = record.familyId

def Unused (db : Database) (key : Key) : Prop := ∀ old ∈ db, old.key ≠ key

/-- The row is the committed one with this id, marked as replaced. -/
def MarkedOf (regime : Regime) (db : Database) (id newId : UUID) (own : Row) : Prop :=
  ∃ old revokedAt, Row.refreshToken old ∈ db ∧ old.id = id ∧ regime.marks old ∧
    own = .refreshToken (markReplaced newId revokedAt old)

/-- The row is a committed one, revoked. -/
def RevokedOf (db : Database) (allowed : RefreshTokenRow → Prop) (own : Row) : Prop :=
  ∃ old revokedAt, Row.refreshToken old ∈ db ∧ allowed old ∧
    own = .refreshToken (markRevoked revokedAt old)

/-- The refresh request presents a token that names the record. -/
def PresentedAs (regime : Regime) (origin : Request) (record : RefreshTokenRow) : Prop :=
  ∃ token claims, origin = .refresh token ∧ regime.decodes token claims ∧
    named claims = some record.id

/-- What holds in a phase of the rows the session has written (`pending`) and
of those it has `published`. -/
def Standing (regime : Regime) (db : Database) (origin : Request) (pending : Database)
    (published : List Row) : Phase → Prop
  | .failed error => regime.raises error
  | .registering user => Row.user user ∈ pending ∧ Unused db (.user user.id) ∧
      regime.registers user ∧ ∀ own ∈ pending, own = .user user
  | .registered user => pending = Table.empty schema ∧ regime.registers user
  | .found user => pending = Table.empty schema ∧ Row.user user ∈ db
  | .opened row => (∃ creds, origin = .login creds) ∧ row.replacedBy = none ∧
      Row.refreshToken row ∈ pending ∧ Unused db (.refreshToken row.id) ∧
      ∀ own ∈ pending, own = .refreshToken row
  | .verified claims => pending = Table.empty schema ∧
      ∃ token, presentedBy origin = some token ∧ regime.decodes token claims
  | .seen record => pending = Table.empty schema ∧ Known db record ∧
      PresentedAs regime origin record
  | .cleared record user => pending = Table.empty schema ∧ Known db record ∧
      PresentedAs regime origin record ∧ Row.user user ∈ db ∧ user.id = record.userId
  | .marked record user newId => Known db record ∧ PresentedAs regime origin record ∧
      Row.user user ∈ db ∧ user.id = record.userId ∧
      ∀ own ∈ pending, MarkedOf regime db record.id newId own
  | .rotated record row => Known db record ∧ PresentedAs regime origin record ∧
      row.userId = record.userId ∧ row.familyId = record.familyId ∧ row.revokedAt = none ∧
      row.replacedBy = none ∧ Row.refreshToken row ∈ pending ∧ Unused db (.refreshToken row.id) ∧
      (∃ own ∈ pending, MarkedOf regime db record.id row.id own) ∧
      ∀ own ∈ pending, own = .refreshToken row ∨ MarkedOf regime db record.id row.id own
  | .exchanged => pending = Table.empty schema ∧
      ∃ row name, Row.refreshToken row ∈ published ∧ row.replacedBy = some name
  | .sweeping record => Known db record ∧ PresentedAs regime origin record ∧
      ∀ own ∈ pending, RevokedOf db (fun old => old.revokedAt = none) own
  | .swept record => pending = Table.empty schema ∧ Known db record ∧
      PresentedAs regime origin record ∧ (regime.final → Dead db record.familyId)
  | .revoking => (∃ token, origin = .logout token) ∧ ∀ own ∈ pending, RevokedOf db (fun _ => True) own
  | _ => pending = Table.empty schema

/-- What an UPDATE still has to reach: its row, or a row that keeps the family
from being revoked. -/
def Awaits (regime : Regime) (db : Database) (todo : List Key) (pending : Database) : Phase → Prop
  | .marked record _ newId => Key.refreshToken record.id ∈ todo ∨
      ∃ own ∈ pending, MarkedOf regime db record.id newId own
  | .sweeping record => regime.final → Dead db record.familyId ∨
      (∃ row, Row.refreshToken row ∈ db ∧ row.familyId = record.familyId ∧
        Key.refreshToken row.id ∈ todo) ∨
      ∃ leaf revokedAt, Row.refreshToken leaf ∈ db ∧ leaf.familyId = record.familyId ∧
        leaf.replacedBy = none ∧ Row.refreshToken (markRevoked revokedAt leaf) ∈ pending
  | _ => True

/-- The UPDATEs a request executes, each from one phase to another. -/
inductive Updates : Request → Phase → Statement → Phase → Prop where
  | mark (token : Str) (record : RefreshTokenRow) (user : UserRow) (newId : UUID)
      (revokedAt : DateTime) :
      Updates (.refresh token) (.cleared record user)
        (.markRefreshTokenReplaced record.id newId revokedAt) (.marked record user newId)
  | sweep (token : Str) (record : RefreshTokenRow) (revokedAt : DateTime) :
      Updates (.refresh token) (.seen record) (.revokeRefreshTokenFamily record.familyId revokedAt)
        (.sweeping record)
  | revoke (token : Str) (claims : Claims) (tokenId : UUID) (revokedAt : DateTime)
      (names : named claims = some tokenId) :
      Updates (.logout token) (.verified claims) (.revokeRefreshToken tokenId revokedAt) .revoking

/-- The session is in this phase, or in the middle of the UPDATE that leaves it. -/
def Placed (regime : Regime) (db : Database) (session : AuthSession) (phase : Phase) : Prop :=
  match session.scan with
  | none => Standing regime db session.origin session.pending session.published phase ∧
      Awaits regime db [] session.pending phase
  | some scan => ∃ statement next later, session.program = .call (.stmt statement) next ∧
      Updates session.origin phase statement later ∧
      Standing regime db session.origin session.pending session.published later ∧
      Awaits regime db scan.todo session.pending later

/-! ## The steps of the others -/

/-- Rows live on, with what identifies them and with what replaced them. -/
structure Extends (before after : Database) : Prop where
  tokens : ∀ row, Row.refreshToken row ∈ before → ∃ later, Row.refreshToken later ∈ after ∧
    later.id = row.id ∧ later.userId = row.userId ∧ later.familyId = row.familyId ∧
    (∀ name, row.replacedBy = some name → later.replacedBy = some name)
  users : ∀ user, Row.user user ∈ before → Row.user user ∈ after

theorem Extends.refl (db : Database) : Extends db db where
  tokens := fun row member => ⟨row, member, rfl, rfl, rfl, fun _ same => same⟩
  users := fun _ member => member

/-- Of every row the session has written the committed version stays. -/
def Keeps (before after pending : Database) : Prop :=
  ∀ own ∈ pending, ∀ row : Row, row.key = own.key → (row ∈ after ↔ row ∈ before)

section Others

variable {regime : Regime} {before after pending : Database} {origin : Request}
variable {published : List Row} {record : RefreshTokenRow}

theorem known_extends (extended : Extends before after) (known : Known before record) :
    Known after record := by
  obtain ⟨row, member, id, user, family⟩ := known
  obtain ⟨later, here, sameId, sameUser, sameFamily, _⟩ := extended.tokens row member
  exact ⟨later, here, sameId.trans id, sameUser.trans user, sameFamily.trans family⟩

private theorem unused_kept (kept : Keeps before after pending) {own : Row} (written : own ∈ pending)
    (unused : Unused before own.key) : Unused after own.key := by
  intro old member same
  exact unused old ((kept own written old same).mp member) same

private theorem markedOf_kept (kept : Keeps before after pending) {id newId : UUID} {own : Row}
    (written : own ∈ pending) (marked : MarkedOf regime before id newId own) :
    MarkedOf regime after id newId own := by
  obtain ⟨old, revokedAt, member, same, allowed, rfl⟩ := marked
  exact ⟨old, revokedAt, (kept _ written (.refreshToken old) rfl).mpr member, same, allowed, rfl⟩

private theorem revokedOf_kept (kept : Keeps before after pending)
    {allowed : RefreshTokenRow → Prop} {own : Row} (written : own ∈ pending)
    (revoked : RevokedOf before allowed own) : RevokedOf after allowed own := by
  obtain ⟨old, revokedAt, member, may, rfl⟩ := revoked
  exact ⟨old, revokedAt, (kept _ written (.refreshToken old) rfl).mpr member, may, rfl⟩

theorem standing_kept (extended : Extends before after) (kept : Keeps before after pending)
    (lasting : regime.final → ∀ familyId, Dead before familyId → Dead after familyId)
    {phase : Phase} (standing : Standing regime before origin pending published phase) :
    Standing regime after origin pending published phase := by
  cases phase with
  | registering user =>
    obtain ⟨written, unused, registers, only⟩ := standing
    exact ⟨written, unused_kept kept written unused, registers, only⟩
  | found user => exact ⟨standing.1, extended.users user standing.2⟩
  | opened row =>
    obtain ⟨login, current, written, unused, only⟩ := standing
    exact ⟨login, current, written, unused_kept kept written unused, only⟩
  | seen record =>
    obtain ⟨idle, known, presented⟩ := standing
    exact ⟨idle, known_extends extended known, presented⟩
  | cleared record user =>
    obtain ⟨idle, known, presented, here, owner⟩ := standing
    exact ⟨idle, known_extends extended known, presented, extended.users user here, owner⟩
  | marked record user newId =>
    obtain ⟨known, presented, here, owner, marked⟩ := standing
    exact ⟨known_extends extended known, presented, extended.users user here, owner,
      fun own written => markedOf_kept kept written (marked own written)⟩
  | rotated record row =>
    obtain ⟨known, presented, owner, family, unrevoked, current, written, unused, some_, all⟩ := standing
    obtain ⟨own, here, marked⟩ := some_
    refine ⟨known_extends extended known, presented, owner, family, unrevoked, current, written,
      unused_kept kept written unused, ⟨own, here, markedOf_kept kept here marked⟩, ?_⟩
    intro own here
    exact (all own here).imp_right (markedOf_kept kept here)
  | sweeping record =>
    obtain ⟨known, presented, revoked⟩ := standing
    exact ⟨known_extends extended known, presented,
      fun own written => revokedOf_kept kept written (revoked own written)⟩
  | swept record =>
    obtain ⟨idle, known, presented, dead⟩ := standing
    exact ⟨idle, known_extends extended known, presented, fun final => lasting final _ (dead final)⟩
  | revoking => exact ⟨standing.1, fun own written => revokedOf_kept kept written (standing.2 own written)⟩
  | _ => exact standing

theorem awaits_kept (extended : Extends before after) (kept : Keeps before after pending)
    (lasting : regime.final → ∀ familyId, Dead before familyId → Dead after familyId)
    {todo : List Key} {phase : Phase} (awaits : Awaits regime before todo pending phase) :
    Awaits regime after todo pending phase := by
  cases phase with
  | marked record user newId =>
    rcases awaits with waiting | ⟨own, written, marked⟩
    · exact .inl waiting
    · exact .inr ⟨own, written, markedOf_kept kept written marked⟩
  | sweeping record =>
    intro final
    rcases awaits final with dead | ⟨row, member, family, waiting⟩ |
      ⟨leaf, revokedAt, member, family, current, written⟩
    · exact .inl (lasting final _ dead)
    · obtain ⟨later, here, id, _, sameFamily, _⟩ := extended.tokens row member
      exact .inr (.inl ⟨later, here, sameFamily.trans family, id ▸ waiting⟩)
    · have stays := (kept _ written (.refreshToken leaf) rfl).mpr member
      exact .inr (.inr ⟨leaf, revokedAt, stays, family, current, written⟩)
  | _ => trivial

/-- A session that does not move stays where it is. -/
theorem placed_kept {session : AuthSession} {phase : Phase} (extended : Extends before after)
    (kept : Keeps before after session.pending)
    (lasting : regime.final → ∀ familyId, Dead before familyId → Dead after familyId)
    (placed : Placed regime before session phase) : Placed regime after session phase := by
  unfold Placed at placed ⊢
  split
  · rename_i at_
    rw [at_] at placed
    exact ⟨standing_kept extended kept lasting placed.1, awaits_kept extended kept lasting placed.2⟩
  · rename_i scan at_
    rw [at_] at placed
    obtain ⟨statement, next, later, calls, updates, standing, awaits⟩ := placed
    exact ⟨statement, next, later, calls, updates, standing_kept extended kept lasting standing,
      awaits_kept extended kept lasting awaits⟩

end Others

/-! ## The answers of the database -/

section Answers

variable {statement : Statement} {view : Database}

/-- An UPDATE by id has one row to change at most. -/
theorem single_by_id (id : UUID) (set : RefreshTokenRow → RefreshTokenRow)
    (frame : ∀ row, (set row).id = row.id ∧ (set row).hash = row.hash ∧
      (set row).familyId = row.familyId ∧ ((set row).replacedBy = none → row.replacedBy = none)) :
    Single (tokenChange (·.id == id) set frame) := by
  intro table
  have changed := congrArg List.length (update_by_id table id set frame)
  rw [List.length_map] at changed
  rw [changed]
  cases token? table id <;> simp

/-- A condition that any two rows of the view satisfy with one key selects one row. -/
theorem filter_length_le_one {wanted : Row → Bool}
    (same : ∀ row ∈ view, ∀ other ∈ view, wanted row = true → wanted other = true →
      row.key = other.key) : (view.rows.filter wanted).length ≤ 1 := by
  have distinct := view.keyed.of_map.filter wanted
  match rows : view.rows.filter wanted, distinct with
  | [], _ | [_], _ => simp
  | first :: second :: rest, distinct =>
    obtain ⟨here, wants⟩ := List.mem_filter.mp (rows ▸ (by simp : first ∈ first :: second :: rest))
    obtain ⟨there, wants'⟩ := List.mem_filter.mp (rows ▸ (by simp : second ∈ first :: second :: rest))
    have one := Table.eq_of_key here there (same first here second there wants wants')
    simp [one] at distinct

theorem possible_selected (clean : view.ClashFree) {wanted : Row → Bool}
    (sql : statement.sql = .select wanted) :
    possible (.stmt statement) (.ok (view.rows.filter wanted)) := by
  constructor
  · intro _
    apply filter_length_le_one
    intro row here other there wants wants'
    cases statement with
    | getUserByEmail email =>
      simp only [Statement.sql] at sql
      split at sql
      · cases sql
        apply clean row here other there
        cases row with
        | refreshToken row => simp [Row.user?] at wants
        | user row =>
          cases other with
          | refreshToken other => simp [Row.user?] at wants'
          | user other =>
            simp only [Row.user?, Option.map_some, Option.getD_some, beq_iff_eq] at wants wants'
            simp [schema, Row.clash, wants, wants']
      · cases sql
    | getUserById userId | getRefreshTokenById tokenId =>
      cases sql
      simp only [beq_iff_eq] at wants wants'
      exact wants.trans wants'.symm
    | insertUser row | insertRefreshToken row =>
      simp only [Statement.sql] at sql
      split at sql <;> cases sql
    | _ => cases sql
  · intro asked same row member
    rw [sql] at same
    cases same
    exact (List.mem_filter.mp member).2

theorem possible_inserted {row : Row} (sql : statement.sql = .insert row) :
    possible (.stmt statement) (.ok [row]) := by
  refine ⟨fun _ => Nat.le_refl _, fun wanted same => ?_⟩
  rw [sql] at same
  cases same

theorem possible_updated {change : Change schema} {rows : List Row}
    (sql : statement.sql = .update change) (bounded : Single change → rows.length ≤ 1) :
    possible (.stmt statement) (.ok rows) := by
  constructor
  · intro one
    apply bounded
    cases statement with
    | markRefreshTokenReplaced tokenId replacedBy revokedAt =>
      cases sql
      exact single_by_id _ _ _
    | revokeRefreshToken tokenId revokedAt =>
      cases sql
      exact single_by_id _ _ _
    | revokeRefreshTokenFamily familyId revokedAt => cases one
    | getUserByEmail email =>
      simp only [Statement.sql] at sql
      split at sql <;> cases sql
    | insertUser row =>
      simp only [Statement.sql] at sql
      split at sql <;> cases sql
    | insertRefreshToken row =>
      simp only [Statement.sql] at sql
      split at sql <;> cases sql
    | _ => cases sql
  · intro wanted same
    rw [sql] at same
    cases same

end Answers

/-! ## The steps of a session -/

section Steps

variable {regime : Regime} {db pending : Database} {origin : Request} {published : List Row}
variable {phase later : Phase} {statement : Statement}

theorem updates_of_afterRows {change : Change schema} {rows : List Row}
    (sql : statement.sql = .update change) (allowed : AfterRows origin phase statement rows later) :
    Updates origin phase statement later := by
  cases allowed with
  | marked token record user newId revokedAt => exact .mark token record user newId revokedAt
  | swept token record revokedAt => exact .sweep token record revokedAt
  | revoked token claims tokenId revokedAt _ names => exact .revoke token claims tokenId revokedAt names
  | looked | registered | found | unknown | opened | rotated =>
    simp only [Statement.sql] at sql
    split at sql <;> cases sql
  | _ => cases sql

/-- An UPDATE leads from its phase to one phase only, whatever rows it answers with. -/
theorem updates_unique {rows : List Row} {other : Phase}
    (updates : Updates origin phase statement later)
    (allowed : AfterRows origin phase statement rows other) : other = later := by
  cases updates <;> cases allowed <;> rfl

/-- What a SELECT has read. -/
theorem standing_selected {wanted : Row → Bool} (sql : statement.sql = .select wanted)
    (standing : Standing regime db origin pending published phase)
    (allowed : AfterRows origin phase statement
      ((Table.overlay db pending).rows.filter wanted) later) :
    Standing regime db origin pending published later := by
  have read : ∀ row, [row] = (Table.overlay db pending).rows.filter wanted → pending = Table.empty schema →
      row ∈ db ∧ wanted row = true := by
    rintro row rows rfl
    have selected : row ∈ (Table.overlay db (Table.empty schema)).rows.filter wanted :=
      rows ▸ List.mem_cons_self
    exact List.mem_filter.mp selected
  generalize rows_are : (Table.overlay db pending).rows.filter wanted = rows at allowed
  cases allowed with
  | looked | unknown | missed | orphaned => exact standing
  | found creds email user =>
    exact ⟨standing, (read _ rows_are.symm standing).1⟩
  | read token claims tokenId record names =>
    obtain ⟨idle, presented, same, decodes⟩ := standing
    cases same
    obtain ⟨here, selected⟩ := read _ rows_are.symm idle
    cases sql
    simp only [Row.key, beq_iff_eq, Key.refreshToken.injEq] at selected
    rw [← selected] at names
    exact ⟨idle, ⟨record, here, rfl, rfl, rfl⟩, _, claims, rfl, decodes, names⟩
  | cleared token record user =>
    obtain ⟨idle, known, presented⟩ := standing
    obtain ⟨here, selected⟩ := read _ rows_are.symm idle
    cases sql
    simp only [Row.key, beq_iff_eq, Key.user.injEq] at selected
    exact ⟨idle, known, presented, here, selected⟩
  | marked | swept | revoked => cases sql
  | registered | opened | rotated =>
    simp only [Statement.sql] at sql
    split at sql <;> cases sql

/-- What an INSERT has written. -/
theorem standing_inserted {row : Row} {rows : List Row} (sql : statement.sql = .insert row)
    (room : admits (Table.overlay db pending) row = true)
    (standing : Standing regime db origin pending published phase)
    (awaits : Awaits regime db [] pending phase)
    (registers : ∀ user, statement = .insertUser user → regime.registers user.stored)
    (allowed : AfterRows origin phase statement rows later) :
    Standing regime db origin (pending.put row) published later := by
  have apart : ∀ old ∈ Table.overlay db pending, old.key ≠ row.key := by
    intro old member
    simp only [admits, Bool.and_eq_true, List.all_eq_true, decide_eq_true_eq] at room
    exact (room.1 old member).1
  have unused : Unused db row.key := by
    intro old member same
    by_cases held : ∃ own ∈ pending, own.key = old.key
    · obtain ⟨own, here, key⟩ := held
      exact apart own (Table.mem_overlay.mpr (.inl here)) (key.trans same)
    · exact apart old (Table.mem_overlay.mpr (.inr ⟨member, fun own here key => held ⟨own, here, key⟩⟩)) same
  have written : row ∈ pending.put row := Table.mem_put.mpr (.inl rfl)
  cases allowed with
  | registered email password user _ own =>
    simp only [Statement.sql] at sql
    split at sql <;> cases sql
    obtain rfl : pending = Table.empty schema := standing
    refine ⟨written, unused, registers _ rfl, fun own here => ?_⟩
    exact (Table.mem_put.mp here).resolve_right fun never => Table.not_mem_empty _ never.1
  | opened creds user token _ owner unrevoked current =>
    simp only [Statement.sql] at sql
    split at sql <;> cases sql
    obtain ⟨rfl, _⟩ := standing
    refine ⟨⟨creds, rfl⟩, current, written, unused, fun own here => ?_⟩
    exact (Table.mem_put.mp here).resolve_right fun never => Table.not_mem_empty _ never.1
  | rotated token record user successor _ owner family unrevoked current =>
    simp only [Statement.sql] at sql
    split at sql <;> cases sql
    obtain ⟨known, presented, _, same, marked⟩ := standing
    obtain ⟨own, here, taken⟩ := awaits.resolve_left (List.not_mem_nil)
    have different : own.key ≠ Key.refreshToken successor.id :=
      apart own (Table.mem_overlay.mpr (.inl here))
    refine ⟨known, presented, owner.trans same, family, unrevoked, current, written, unused,
      ⟨own, Table.mem_put.mpr (.inr ⟨here, different⟩), taken⟩, fun own here => ?_⟩
    rcases Table.mem_put.mp here with rfl | ⟨old, _⟩
    · exact .inl rfl
    · exact .inr (marked own old)
  | looked | found | unknown =>
    simp only [Statement.sql] at sql
    split at sql <;> cases sql
  | _ => cases sql

/-- An UPDATE begins with nothing written. -/
theorem standing_begun (updates : Updates origin phase statement later)
    (standing : Standing regime db origin pending published phase) :
    pending = Table.empty schema ∧ Standing regime db origin pending published later := by
  cases updates with
  | mark token record user newId revokedAt =>
    obtain ⟨rfl, known, presented, here, owner⟩ := standing
    exact ⟨rfl, known, presented, here, owner, fun own never => absurd never (Table.not_mem_empty own)⟩
  | sweep token record revokedAt =>
    obtain ⟨rfl, known, presented⟩ := standing
    exact ⟨rfl, known, presented, fun own never => absurd never (Table.not_mem_empty own)⟩
  | revoke token claims tokenId revokedAt names =>
    obtain ⟨rfl, _⟩ := standing
    exact ⟨rfl, ⟨token, rfl⟩, fun own never => absurd never (Table.not_mem_empty own)⟩

/-- The rows of the snapshot include the one a rotation takes, and the family's
last row if it is not revoked. -/
theorem awaits_snapshot {change : Change schema} (sql : statement.sql = .update change)
    (updates : Updates origin phase statement later)
    (standing : Standing regime db origin pending published phase)
    (headed : ∀ record, Known db record → ∃ leaf, Row.refreshToken leaf ∈ db ∧
      leaf.familyId = record.familyId ∧ leaf.replacedBy = none) :
    Awaits regime db (((Table.overlay db pending).rows.filter change.wanted).map Row.key) pending later := by
  have listed : ∀ row, row ∈ db → change.wanted row = true → pending = Table.empty schema →
      row.key ∈ ((Table.overlay db pending).rows.filter change.wanted).map Row.key := by
    rintro row member wants rfl
    exact List.mem_map_of_mem (List.mem_filter.mpr ⟨member, wants⟩)
  cases updates with
  | mark token record user newId revokedAt =>
    obtain ⟨idle, ⟨row, member, same, _⟩, _⟩ := standing
    cases sql
    have waiting := listed (.refreshToken row) member (by simpa [tokenChange] using same) idle
    have key : (Row.refreshToken row).key = .refreshToken record.id := congrArg Key.refreshToken same
    rw [key] at waiting
    exact .inl waiting
  | sweep token record revokedAt =>
    obtain ⟨idle, known, _⟩ := standing
    obtain ⟨leaf, member, family, current⟩ := headed record known
    cases sql
    intro _
    by_cases revoked : leaf.revokedAt = none
    · right; left
      refine ⟨leaf, member, family, listed (.refreshToken leaf) member ?_ idle⟩
      simp [tokenChange, family, revoked]
    · exact .inl ⟨leaf, member, family, current, revoked⟩
  | revoke => trivial

/-- One row an UPDATE has locked and changed. -/
theorem standing_locked {change : Change schema} {row : Row} (sql : statement.sql = .update change)
    (updates : Updates origin phase statement later)
    (standing : Standing regime db origin pending published later)
    (newest : row ∈ Table.overlay db pending) (meets : change.wanted row = true)
    (takes : ∀ tokenId replacedBy revokedAt token,
      statement = .markRefreshTokenReplaced tokenId replacedBy revokedAt →
      row = .refreshToken token → Row.refreshToken token ∈ db → regime.marks token) :
    Standing regime db origin (pending.put (change.set row)) published later := by
  cases updates with
  | mark token record user newId revokedAt =>
    obtain ⟨known, presented, here, owner, marked⟩ := standing
    cases sql
    refine ⟨known, presented, here, owner, fun own written => ?_⟩
    rcases Table.mem_put.mp written with rfl | ⟨old, _⟩
    · rcases Table.mem_overlay.mp newest with own | ⟨member, _⟩
      · obtain ⟨old, at_, member, same, allowed, rfl⟩ := marked row own
        exact ⟨old, revokedAt, member, same, allowed, rfl⟩
      · cases row with
        | user row => cases meets
        | refreshToken row =>
          exact ⟨row, revokedAt, member, by simpa [tokenChange] using meets,
            takes _ _ _ row rfl rfl member, rfl⟩
    · exact marked own old
  | sweep token record revokedAt =>
    obtain ⟨known, presented, revoked⟩ := standing
    cases sql
    refine ⟨known, presented, fun own written => ?_⟩
    rcases Table.mem_put.mp written with rfl | ⟨old, _⟩
    · cases row with
      | user row => cases meets
      | refreshToken row =>
        simp only [tokenChange, Bool.and_eq_true, Option.isNone_iff_eq_none] at meets
        rcases Table.mem_overlay.mp newest with own | ⟨member, _⟩
        · obtain ⟨old, at_, _, _, same⟩ := revoked _ own
          cases same
          simp [markRevoked] at meets
        · exact ⟨row, revokedAt, member, meets.2, rfl⟩
    · exact revoked own old
  | revoke token claims tokenId revokedAt names =>
    obtain ⟨logout, revoked⟩ := standing
    cases sql
    refine ⟨logout, fun own written => ?_⟩
    rcases Table.mem_put.mp written with rfl | ⟨old, _⟩
    · rcases Table.mem_overlay.mp newest with own | ⟨member, _⟩
      · obtain ⟨old, at_, member, _, rfl⟩ := revoked row own
        exact ⟨old, revokedAt, member, trivial, rfl⟩
      · cases row with
        | user row => cases meets
        | refreshToken row => exact ⟨row, revokedAt, member, trivial, rfl⟩
    · exact revoked own old

theorem awaits_locked {change : Change schema} {row : Row} {todo : List Key}
    (sql : statement.sql = .update change) (updates : Updates origin phase statement later)
    (standing : Standing regime db origin pending published later)
    (after_ : Standing regime db origin (pending.put (change.set row)) published later)
    (awaits : Awaits regime db (row.key :: todo) pending later)
    (newest : row ∈ Table.overlay db pending) (meets : change.wanted row = true)
    (sweeps : regime.final → ∀ familyId revokedAt token,
      statement = .revokeRefreshTokenFamily familyId revokedAt →
      row = .refreshToken token → Row.refreshToken token ∈ db → token.replacedBy = none) :
    Awaits regime db todo (pending.put (change.set row)) later := by
  have written : change.set row ∈ pending.put (change.set row) := Table.mem_put.mpr (.inl rfl)
  cases updates with
  | mark token record user newId revokedAt =>
    exact .inr ⟨_, written, after_.2.2.2.2 _ written⟩
  | sweep token record revokedAt =>
    obtain ⟨_, _, revoked⟩ := standing
    cases sql
    have unrevoked : ∀ own, own ∈ pending → own.key ≠ row.key := by
      intro own here same
      obtain ⟨old, at_, _, _, rfl⟩ := revoked own here
      have one := Table.eq_of_key (Table.mem_overlay.mpr (.inl here)) newest same
      rw [← one] at meets
      simp [tokenChange, markRevoked] at meets
    intro final
    rcases awaits final with dead | ⟨other, member, family, waiting⟩ |
      ⟨leaf, at_, member, family, current, here⟩
    · exact .inl dead
    · rcases List.mem_cons.mp waiting with same | waiting
      · have committed : row ∈ db := by
          rcases Table.mem_overlay.mp newest with own | ⟨here, _⟩
          · exact absurd rfl (unrevoked row own)
          · exact here
        obtain rfl : Row.refreshToken other = row := Table.eq_of_key member committed same
        exact .inr (.inr ⟨other, revokedAt, member, family,
          sweeps final _ _ other rfl rfl member, written⟩)
      · exact .inr (.inl ⟨other, member, family, waiting⟩)
    · refine .inr (.inr ⟨leaf, at_, member, family, current, Table.mem_put.mpr (.inr ⟨here, ?_⟩)⟩)
      intro same
      exact unrevoked _ here (same.trans (Change.key_set _ row))
  | revoke => trivial

theorem awaits_skipped {change : Change schema} {key : Key} {todo : List Key}
    (sql : statement.sql = .update change) (updates : Updates origin phase statement later)
    (standing : Standing regime db origin pending published later)
    (awaits : Awaits regime db (key :: todo) pending later)
    (unmet : ∀ row ∈ Table.overlay db pending, row.key = key → change.wanted row = false)
    (sweeps : regime.final → ∀ familyId revokedAt token,
      statement = .revokeRefreshTokenFamily familyId revokedAt →
      key = .refreshToken token.id → Row.refreshToken token ∈ db → token.replacedBy = none) :
    Awaits regime db todo pending later := by
  cases updates with
  | mark token record user newId revokedAt =>
    obtain ⟨⟨row, member, same, _⟩, _, _, _, marked⟩ := standing
    cases sql
    rcases awaits with waiting | done
    · rcases List.mem_cons.mp waiting with rfl | waiting
      · by_cases held : ∃ own ∈ pending, own.key = .refreshToken record.id
        · obtain ⟨own, here, _⟩ := held
          exact .inr ⟨own, here, marked own here⟩
        · have visible : Row.refreshToken row ∈ Table.overlay db pending :=
            Table.mem_overlay.mpr (.inr ⟨member, fun own here key =>
              held ⟨own, here, key.trans (congrArg Key.refreshToken same)⟩⟩)
          have skipped := unmet _ visible (congrArg Key.refreshToken same)
          simp [tokenChange, same] at skipped
      · exact .inl waiting
    · exact .inr done
  | sweep token record revokedAt =>
    obtain ⟨_, _, revoked⟩ := standing
    cases sql
    intro final
    rcases awaits final with dead | ⟨other, member, family, waiting⟩ | done
    · exact .inl dead
    · rcases List.mem_cons.mp waiting with rfl | waiting
      · have current := sweeps final _ _ other rfl rfl member
        by_cases held : ∃ own ∈ pending, own.key = .refreshToken other.id
        · obtain ⟨own, here, same⟩ := held
          obtain ⟨old, at_, there, _, rfl⟩ := revoked own here
          have one : Row.refreshToken old = .refreshToken other := Table.eq_of_key there member same
          cases one
          exact .inr (.inr ⟨other, at_, member, family, current, here⟩)
        · have visible : Row.refreshToken other ∈ Table.overlay db pending :=
            Table.mem_overlay.mpr (.inr ⟨member, fun own here key => held ⟨own, here, key⟩⟩)
          have skipped := unmet _ visible rfl
          simp only [tokenChange, family, beq_self_eq_true, Bool.true_and,
            Option.isNone_eq_false_iff, Option.isSome_iff_ne_none] at skipped
          exact .inl ⟨other, member, family, current, skipped⟩
      · exact .inr (.inl ⟨other, member, family, waiting⟩)
    · exact .inr (.inr done)
  | revoke => trivial

/-- A COMMIT leaves nothing pending. -/
theorem standing_published
    (extended : Extends db (Table.overlay db pending))
    (lasting : regime.final → ∀ familyId, Dead db familyId → Dead (Table.overlay db pending) familyId)
    (standing : Standing regime db origin pending published phase)
    (awaits : Awaits regime db [] pending phase) (allowed : afterCommit phase = some later) :
    Standing regime (Table.overlay db pending) origin (Table.empty schema)
      (published ++ pending.rows) later := by
  cases phase with
  | registering user =>
    cases allowed
    exact ⟨rfl, standing.2.2.1⟩
  | rotated record row =>
    cases allowed
    obtain ⟨_, _, _, _, _, _, _, _, ⟨own, here, old, at_, _, _, _, rfl⟩, _⟩ := standing
    exact ⟨rfl, _, row.id, List.mem_append_right _ here, rfl⟩
  | sweeping record =>
    cases allowed
    obtain ⟨known, presented, _⟩ := standing
    refine ⟨rfl, known_extends extended known, presented, fun final => ?_⟩
    rcases awaits final with dead | ⟨_, _, _, never⟩ | ⟨leaf, revokedAt, _, family, current, written⟩
    · exact lasting final _ dead
    · cases never
    · exact ⟨markRevoked revokedAt leaf, Table.mem_overlay.mpr (.inl written), family, current,
        by simp [markRevoked]⟩
  | opened | revoking =>
    cases allowed
    rfl
  | _ => cases allowed

/-- The results of a request that has not failed come with nothing pending. -/
theorem idle_of_ends {result : Except Exn Response} (ended : ends origin phase result) :
    writing phase = false := by
  cases result with
  | ok response =>
    simp only [ends] at ended
    cases origin <;> cases phase <;> simp_all [concluded, writing]
  | error error =>
    rcases ended with rfl | raised
    · rfl
    · cases raised with
      | documented _ _ _ _ idle => exact idle
      | malformed => rfl
      | nameless => rfl

theorem standing_closed (idle : writing phase = false)
    (standing : Standing regime db origin pending published phase) :
    Standing regime db origin (Table.empty schema) published phase := by
  cases phase with
  | registering | opened | marked | rotated | sweeping | revoking => cases idle
  | failed => exact standing
  | fresh | loggedIn | revoked => rfl
  | registered | found | verified | seen | cleared | exchanged | swept => exact ⟨rfl, standing.2⟩

theorem awaits_idle (idle : writing phase = false) (todo : List Key) :
    Awaits regime db todo pending phase := by
  cases phase with
  | marked | sweeping => cases idle
  | _ => trivial

theorem awaits_plain {rows : List Row} {todo : List Key}
    (plain : ∀ change, statement.sql ≠ .update change)
    (allowed : AfterRows origin phase statement rows later) :
    Awaits regime db todo pending later := by
  cases allowed with
  | marked | swept => exact absurd rfl (plain _)
  | _ => trivial

end Steps

section Moves

variable {regime : Regime} {db db' : Database} {session later : AuthSession} {phase : Phase}
variable {others : List AuthSession} {tick : World}

/-- A token that does not verify is handled; any other exception fails the request. -/
private theorem after_error {origin : Request} {question : Ask} {error : Exn} {after : Phase}
    (allowed : After origin phase (.ask question) (.error error) after) :
    after = phase ∨ (after = .failed error ∧
      ¬ ∃ token detail, question = .verify token ∧ error = .app .authentication detail) := by
  cases question with
  | verify token =>
    by_cases known : ∃ detail, error = .app .authentication detail
    · obtain ⟨detail, rfl⟩ := known
      exact .inl allowed
    · have failed : after = .failed error := by
        cases error with
        | app kind detail =>
          cases kind with
          | authentication => exact absurd ⟨detail, rfl⟩ known
          | _ => exact allowed
        | _ => exact allowed
      exact .inr ⟨failed, fun ⟨_, detail, _, same⟩ => known ⟨detail, same⟩⟩
  | _ => exact .inr ⟨allowed, fun ⟨_, _, never, _⟩ => by cases never⟩

/-- Where a port's answer leads. -/
private theorem asked_cases {origin : Request} {question : Ask} {after : Phase}
    (allowed : After origin phase (.ask question) (tick.answer question) after) :
    after = phase ∨
      (∃ error, tick.answer question = .error error ∧ after = .failed error ∧
        ¬ ∃ token detail, question = .verify token ∧ error = .app .authentication detail) ∨
      ∃ token claims, question = .verify token ∧ tick.answer (.verify token) = .ok claims ∧
        phase = .fresh ∧ presentedBy origin = some token ∧ after = .verified claims := by
  cases answer : tick.answer question with
  | error error =>
    rw [answer] at allowed
    rcases after_error allowed with same | failed
    · exact .inl same
    · exact .inr (.inl ⟨error, rfl, failed⟩)
  | ok value =>
    rw [answer] at allowed
    cases question with
    | verify token =>
      obtain ⟨fresh, presents, rfl⟩ := allowed
      exact .inr (.inr ⟨token, value, rfl, answer, fresh, presents, rfl⟩)
    | _ => exact .inl allowed

/-- Outside an UPDATE the session stands in its phase. -/
private theorem standing_of_plain {op : Op Ask Statement}
    {next : Except Exn (Answer Reply Row op) → Program (Op Ask Statement) (Answer Reply Row) Exn Response}
    (scanning : Scanning driver session) (placed : Placed regime db session phase)
    (calls : session.program = .call op next)
    (plain : ∀ statement change, op = .stmt statement → statement.sql ≠ .update change) :
    session.scan = none ∧
      Standing regime db session.origin session.pending session.published phase ∧
      Awaits regime db [] session.pending phase := by
  cases scans : session.scan with
  | some scan =>
    obtain ⟨statement, change, _, other, sql, _⟩ := scanning scan scans
    rw [calls] at other
    cases other
    exact absurd sql (plain statement change rfl)
  | none =>
    rw [Placed, scans] at placed
    exact ⟨rfl, placed⟩

/-- Inside one it has reached the rows that the next phase describes. -/
private theorem updates_of_placed {statement : Statement}
    {next : Except Exn (List Row) → Program (Op Ask Statement) (Answer Reply Row) Exn Response}
    {scan : Scan Row Key}
    (placed : Placed regime db session phase) (calls : session.program = .call (.stmt statement) next)
    (scans : session.scan = some scan) : ∃ after,
      Updates session.origin phase statement after ∧
      Standing regime db session.origin session.pending session.published after ∧
      Awaits regime db scan.todo session.pending after := by
  rw [Placed, scans] at placed
  obtain ⟨own, _, after, other, updates, standing, awaits⟩ := placed
  rw [calls] at other
  cases other
  exact ⟨after, updates, standing, awaits⟩

/-- **One step of a session.** From its phase the session comes to a phase that
its program complies with and in which its rows stand as they should. -/
theorem placed_moves (clean : (Table.overlay db session.pending).ClashFree)
    (scanning : Scanning driver session)
    (headed : ∀ record, Known db record → ∃ leaf, Row.refreshToken leaf ∈ db ∧
      leaf.familyId = record.familyId ∧ leaf.replacedBy = none)
    (within : Within regime db session tick) (extended : Extends db db')
    (lasting : regime.final → ∀ familyId, Dead db familyId → Dead db' familyId)
    (follows : (discipline session.origin).Follows phase session.program)
    (placed : Placed regime db session phase)
    (moved : Moves driver tick db others session db' later) :
    ∃ after, (discipline later.origin).Follows after later.program ∧
      Placed regime db' later after := by
  cases moved with
  | closed ended =>
    have result : ∃ result, ends session.origin phase result := by
      cases program : session.program with
      | ret value =>
        rw [program] at follows
        exact ⟨.ok value, follows⟩
      | raise error =>
        rw [program] at follows
        exact ⟨.error error, follows⟩
      | call op next => exact absurd program (ended op next)
    obtain ⟨result, ended_with⟩ := result
    have idle := idle_of_ends ended_with
    have scans := scan_eq_none scanning fun statement next => ended (.stmt statement) next
    rw [Placed, scans] at placed
    exact ⟨phase, follows, standing_closed idle placed.1, awaits_idle idle []⟩
  | asked question next calls =>
    obtain ⟨scans, standing, awaits⟩ := standing_of_plain scanning placed calls (fun _ _ never => by cases never)
    rw [calls] at follows
    obtain ⟨after, allowed, rest⟩ := follows (tick.answer question) trivial
    refine ⟨after, rest, ?_⟩
    simp only [Placed, scans]
    rcases asked_cases allowed with rfl | ⟨error, answer, rfl, unhandled⟩ |
      ⟨token, claims, rfl, answer, rfl, presents, rfl⟩
    · exact ⟨standing, awaits⟩
    · exact ⟨(within.raises question next error calls answer).resolve_right unhandled, trivial⟩
    · exact ⟨⟨standing, token, presents, within.decodes token next claims calls answer⟩, trivial⟩
  | failed op next error calls cause =>
    rw [calls] at follows
    obtain ⟨after, allowed, rest⟩ := follows (.error error) (by cases op <;> trivial)
    have failed : after = .failed error := by
      cases op with
      | ask question => exact cause.elim
      | stmt statement => exact allowed
      | commit => exact allowed
    subst failed
    exact ⟨_, rest, within.fails op next error calls cause, trivial⟩
  | selected statement wanted next calls sql =>
    have plain : ∀ change, statement.sql ≠ .update change := fun change other => by
      cases sql.symm.trans other
    obtain ⟨scans, standing, _⟩ := standing_of_plain scanning placed calls (by
      rintro _ change ⟨⟩
      exact plain change)
    rw [calls] at follows
    obtain ⟨after, allowed, rest⟩ := follows
      (.ok ((Table.overlay db session.pending).rows.filter wanted)) (possible_selected clean sql)
    exact ⟨after, rest, standing_selected sql standing allowed, awaits_plain plain allowed⟩
  | inserted statement row next calls sql decided room =>
    have plain : ∀ change, statement.sql ≠ .update change := fun change other => by
      cases sql.symm.trans other
    obtain ⟨scans, standing, awaits⟩ := standing_of_plain scanning placed calls (by
      rintro _ change ⟨⟩
      exact plain change)
    rw [calls] at follows
    obtain ⟨after, allowed, rest⟩ := follows (.ok [row]) (possible_inserted sql)
    have registers : ∀ user, statement = .insertUser user → regime.registers user.stored := by
      rintro user rfl
      exact within.registers user next calls
    exact ⟨after, rest, standing_inserted sql room standing awaits registers allowed,
      awaits_plain plain allowed⟩
  | snapshot statement change next calls sql begins =>
    have stands : Standing regime db session.origin session.pending session.published phase := by
      rw [Placed, begins] at placed
      exact placed.1
    have onward := follows
    rw [calls] at onward
    obtain ⟨after, allowed, _⟩ := onward (.ok []) (possible_updated sql fun _ => by simp)
    have updates := updates_of_afterRows sql allowed
    refine ⟨phase, follows, statement, next, after, calls, updates, ?_⟩
    exact ⟨(standing_begun updates stands).2, awaits_snapshot sql updates stands headed⟩
  | locked statement change next row todo touched calls sql scans free newest meets healthy =>
    obtain ⟨after, updates, standing, awaits⟩ := updates_of_placed placed calls scans
    have locked := standing_locked sql updates standing newest meets (by
      rintro tokenId replacedBy revokedAt token rfl rfl member
      exact within.marks _ _ _ _ _ _ token calls scans member healthy)
    refine ⟨phase, follows, statement, next, after, calls, updates, locked, ?_⟩
    refine awaits_locked sql updates standing locked awaits newest meets fun final => ?_
    rintro familyId revokedAt token rfl rfl member
    exact within.sweeps final _ _ _ _ _ token calls scans member healthy
  | skipped statement change next key todo touched calls sql scans free unmet healthy =>
    obtain ⟨after, updates, standing, awaits⟩ := updates_of_placed placed calls scans
    refine ⟨phase, follows, statement, next, after, calls, updates, standing, ?_⟩
    refine awaits_skipped sql updates standing awaits unmet fun final => ?_
    rintro familyId revokedAt token rfl rfl member
    exact within.sweeps final _ _ _ _ _ token calls scans member healthy
  | finished statement change next touched calls sql scans =>
    obtain ⟨after, updates, standing, awaits⟩ := updates_of_placed placed calls scans
    rw [calls] at follows
    have few : Single change → touched.length ≤ 1 := by
      intro single
      simpa using scanning_update scanning scans calls sql single
    obtain ⟨other, allowed, rest⟩ := follows (.ok touched) (possible_updated sql few)
    obtain rfl := updates_unique updates allowed
    exact ⟨other, rest, standing, awaits⟩
  | published next calls checks =>
    obtain ⟨scans, standing, awaits⟩ := standing_of_plain scanning placed calls (fun _ _ never => by cases never)
    rw [calls] at follows
    obtain ⟨after, allowed, rest⟩ := follows (.ok ()) trivial
    refine ⟨after, rest, standing_published extended lasting standing awaits allowed, ?_⟩
    cases phase <;> cases allowed <;> trivial

end Moves

/-! ## Concrete surroundings, for runs that show something -/

def sampleId (n : ℕ) : UUID := ⟨Fin.ofNat _ n⟩

/-- Every port works: ids, hashes and the clock are read off a number, and a
token verifies as the refresh token with the id `jti`. -/
def sampleTick (jti n : ℕ) : World where
  answer
    | .verify _ => .ok [(str "typ", .str (str "refresh")), (str "jti", .str (sampleId jti).toStr)]
    | .sign _ => .ok (str "token")
    | .hash _ => .ok [Fin.ofNat _ (n + 1)]
    | .checkHash _ _ => .ok true
    | .uuid4 => .ok (sampleId n)
    | .now => .ok n

/-- A session takes `count` steps from the `n`-th tick on. -/
def sampleSteps (session jti n count : ℕ) : List AuthAction :=
  (List.range count).map fun k => .step session (sampleTick jti (n + k))

/-- One user registers and logs in; the refresh token gets the id 14. -/
def sampleLogin : List AuthAction :=
  [.arrive (.register (str "a@b.c") (str "password"))] ++ sampleSteps 0 0 0 6 ++
    [.arrive (.login ⟨str "a@b.c", str "password"⟩)] ++ sampleSteps 1 0 10 10

end BackendFoundation.AuthSessions
