import BackendFoundation.AuthGrants

/-! Among any number of concurrent requests nothing is handed out or stored
without its grounds. Every account is the work of one registration, every stored
token was signed for the row's user after a password or an older token had
checked out, and whoever is answered with tokens holds those of a stored row. -/
namespace BackendFoundation.AuthWarrants
open PythonValues KeyedTables RequestPrograms ReadCommitted ReadCommittedProofs ReferentialIntegrity
open AuthPersistence AuthPrograms AuthDiscipline AuthSessions AuthRotation AuthIntegrity AuthGrants

/-- The record has been read: its row is still there, in a later version. -/
def Version (db : Database) (record : RefreshTokenRow) : Prop :=
  ∃ row, Holds db row ∧ Descends record row

/-- The tokens were given out on grounds, for a user in the table. -/
structure Given (said : Answers) (service : AuthService) (db : Database) (origin : Request)
    (record : Option RefreshTokenRow) (user : UserRow) (row : RefreshTokenRow) (access : AccessToken)
    (refresh : RefreshToken) : Prop where
  grounds : Grounds said origin record user
  mints : Mints said service user row access refresh
  account : Row.user user ∈ db
  base : ∀ known, record = some known → Version db known ∧ row.familyId = known.familyId

/-- The row was inserted for tokens that one of the requests was given. -/
def Minted (said : ℕ → Answers) (service : AuthService) (requests : List Request) (db : Database)
    (row : RefreshTokenRow) : Prop :=
  ∃ index origin record user first access refresh, requests[index]? = some origin ∧
    Given (said index) service db origin record user first access refresh ∧ Descends first row

/-- What holds of a row that the session at `index` has written and not committed. -/
def Written (said : ℕ → Answers) (service : AuthService) (requests : List Request) (db : Database)
    (index : ℕ) (origin : Request) : Row → Prop
  | .user user => Registers (said index) origin user ∧ Unused db (.user user.id)
  | .refreshToken row => Minted said service requests db row

/-- What holds of the session in a stage of its ledger. -/
def Stands (said : Answers) (service : AuthService) (db : Database) (session : AuthSession) :
    Stage → Prop
  | .fresh => session.scan = none → session.pending = Table.empty schema
  | .account user => session.scan = none → Row.user user ∈ session.pending
  | .registered user => Row.user user ∈ session.published
  | .found user => Row.user user ∈ db
  | .seen record => Version db record ∧ (session.scan = none → session.pending = Table.empty schema)
  | .cleared record user => Version db record ∧ Row.user user ∈ db
  | .stored record user row access refresh =>
    Given said service db session.origin record user row access refresh ∧
      (session.scan = none → Row.refreshToken row ∈ session.pending)
  | .granted record user row access refresh =>
    Given said service db session.origin record user row access refresh ∧
      Row.refreshToken row ∈ session.published ∧ Version db row
  | .other => True

section Kept

variable {said : ℕ → Answers} {service : AuthService} {db db' : Database} {session : AuthSession}
variable {requests requests' : List Request}

theorem version_preserved {record : RefreshTokenRow} (preserved : Preserves db db')
    (version : Version db record) : Version db' record := by
  obtain ⟨row, held, descends⟩ := version
  obtain ⟨later, later_held, descends'⟩ := preserved.tokens row held
  exact ⟨later, later_held, descends.trans descends'⟩

theorem Given.preserved {said : Answers} {origin : Request} {record : Option RefreshTokenRow}
    {user : UserRow} {row : RefreshTokenRow} {access : AccessToken} {refresh : RefreshToken}
    (preserved : Preserves db db') (given : Given said service db origin record user row access refresh) :
    Given said service db' origin record user row access refresh where
  grounds := given.grounds
  mints := given.mints
  account := preserved.users user given.account
  base := by
    intro known same
    obtain ⟨version, family⟩ := given.base known same
    exact ⟨version_preserved preserved version, family⟩

theorem minted_preserved {row : RefreshTokenRow} (preserved : Preserves db db')
    (arrived : ∀ (i : ℕ) origin, requests[i]? = some origin → requests'[i]? = some origin)
    (minted : Minted said service requests db row) : Minted said service requests' db' row := by
  obtain ⟨index, origin, record, user, first, access, refresh, request, given, descends⟩ := minted
  exact ⟨index, origin, record, user, first, access, refresh, arrived index origin request,
    given.preserved preserved, descends⟩

theorem written_preserved {own : Row} {index : ℕ} {origin : Request} (preserved : Preserves db db')
    (arrived : ∀ (i : ℕ) origin, requests[i]? = some origin → requests'[i]? = some origin)
    (kept : ∀ row : Row, row.key = own.key → (row ∈ db' ↔ row ∈ db))
    (written : Written said service requests db index origin own) :
    Written said service requests' db' index origin own := by
  cases own with
  | user user =>
    obtain ⟨registers, unused⟩ := written
    refine ⟨registers, fun old member same => ?_⟩
    exact unused old ((kept old same).mp member) same
  | refreshToken row => exact minted_preserved preserved arrived written

/-- A stage of a session whose own rows have not changed. -/
theorem stands_preserved {said : Answers} {stage : Stage} (preserved : Preserves db db')
    (stands : Stands said service db session stage) : Stands said service db' session stage := by
  cases stage with
  | found user => exact preserved.users user stands
  | seen record => exact ⟨version_preserved preserved stands.1, stands.2⟩
  | cleared record user => exact ⟨version_preserved preserved stands.1, preserved.users user stands.2⟩
  | stored record user row access refresh => exact ⟨stands.1.preserved preserved, stands.2⟩
  | granted record user row access refresh =>
    exact ⟨stands.1.preserved preserved, stands.2.1, version_preserved preserved stands.2.2⟩
  | _ => exact stands

/-- An UPDATE leaves a token what it was minted with. -/
theorem minted_updated {statement : Statement} {change : Change schema} {row : RefreshTokenRow}
    (sql : statement.sql = .update change) (minted : Minted said service requests db row) :
    ∃ new, change.set (.refreshToken row) = .refreshToken new ∧
      Minted said service requests db new := by
  obtain ⟨index, origin, record, user, first, access, refresh, request, given, descends⟩ := minted
  have columns : ∀ new : RefreshTokenRow, new.id = row.id → new.userId = row.userId →
      new.familyId = row.familyId → new.hash = row.hash → new.issuedAt = row.issuedAt →
      new.expiresAt = row.expiresAt → Minted said service requests db new := by
    intro new id owner family hash issued expires
    refine ⟨index, origin, record, user, first, access, refresh, request, given, ?_⟩
    refine ⟨id.trans descends.id, owner.trans descends.owner, family.trans descends.family,
      hash.trans descends.hash, issued.trans descends.issued, expires.trans descends.expires, ?_, ?_⟩
    · exact fun revoked => absurd given.mints.unrevoked revoked
    · intro name replaced
      rw [given.mints.current] at replaced
      cases replaced
  cases statement with
  | markRefreshTokenReplaced | revokeRefreshToken | revokeRefreshTokenFamily =>
    obtain rfl := Sql.update.inj sql
    exact ⟨_, rfl, columns _ rfl rfl rfl rfl rfl rfl⟩
  | getUserById | getRefreshTokenById => cases sql
  | getUserByEmail | insertUser | insertRefreshToken =>
    change (if _ then _ else _) = _ at sql
    split at sql <;> cases sql

end Kept

section Steps

variable {said : ℕ → Answers} {service : AuthService} {requests : List Request} {index : ℕ}
variable {db db' : Database} {session later : AuthSession}
variable {others : List AuthSession} {tick : World} {stage : Stage} {statement : Statement}

/-- What is inserted is what a table keeps of a user or of a token. -/
theorem inserted_row {row : Row} (sql : statement.sql = .insert row) :
    (∃ user, statement = .insertUser user ∧ row = .user user.stored) ∨
      ∃ token, statement = .insertRefreshToken token ∧ row = .refreshToken token.stored := by
  cases statement with
  | insertUser user =>
    change (if _ then _ else _) = _ at sql
    split at sql
    · exact .inl ⟨user, rfl, (Sql.insert.inj sql).symm⟩
    · cases sql
  | insertRefreshToken token =>
    change (if _ then _ else _) = _ at sql
    split at sql
    · exact .inr ⟨token, rfl, (Sql.insert.inj sql).symm⟩
    · cases sql
  | getUserByEmail =>
    change (if _ then _ else _) = _ at sql
    split at sql <;> cases sql
  | _ => cases sql

theorem not_selects_of_update {change : Change schema} (sql : statement.sql = .update change) :
    selects statement = false := by
  cases statement with
  | getUserById | getRefreshTokenById => cases sql
  | getUserByEmail =>
    change (if _ then _ else _) = _ at sql
    split at sql <;> cases sql
  | _ => rfl

/-- What a SELECT has found, read into the ledger. -/
theorem stands_selected {wanted : Row → Bool} {program : Service Response} {after : Stage}
    (sql : statement.sql = .select wanted) (scans : session.scan = none)
    (stands : Stands (said index) service db session stage)
    (step : Step (said index) service session.origin stage statement
      ((Table.overlay db session.pending).rows.filter wanted) after) :
    Stands (said index) service db (session.proceed program session.pending) after := by
  have read : ∀ row, row ∈ (Table.overlay db session.pending).rows.filter wanted →
      session.pending = Table.empty schema → row ∈ db := by
    intro row member empty
    rw [empty] at member
    exact (List.mem_filter.mp member).1
  cases step with
  | stays =>
    cases stage with
    | fresh => exact fun _ => stands scans
    | account user => exact fun _ => stands scans
    | seen record => exact ⟨stands.1, fun _ => stands.2 scans⟩
    | stored => exact ⟨stands.1, fun _ => stands.2 scans⟩
    | _ => exact stands
  | passes => exact trivial
  | marks => cases sql
  | found email user rows here => exact read _ here (stands scans)
  | seen tokenId record rows here =>
    have empty := stands scans
    exact ⟨⟨record, read _ here empty, .refl record⟩, fun _ => empty⟩
  | cleared userId record user rows here => exact ⟨stands.1, read _ here (stands.2 scans)⟩
  | account | opened | rotated =>
    change (if _ then _ else _) = _ at sql
    split at sql <;> cases sql

/-- What an INSERT has written, with its grounds. -/
theorem stands_inserted {row : Row} {rows : List Row} {program : Service Response} {after : Stage}
    (sql : statement.sql = .insert row) (request : requests[index]? = some session.origin)
    (room : admits (Table.overlay db session.pending) row = true)
    (stands : Stands (said index) service db session stage)
    (step : Step (said index) service session.origin stage statement rows after) :
    Stands (said index) service db (session.proceed program (session.pending.put row)) after ∧
      Written said service requests db index session.origin row := by
  have here : row ∈ session.pending.put row := Table.mem_put.mpr (.inl rfl)
  rcases inserted_row sql with ⟨user, rfl, rfl⟩ | ⟨token, rfl, rfl⟩
  · cases step with
    | stays _ _ _ reads => cases reads
    | passes _ _ _ inserts_nothing => cases inserts_nothing
    | account _ _ registers =>
      refine ⟨fun _ => here, registers, fun old member same => ?_⟩
      obtain ⟨found, visible, key⟩ : Covered (Table.overlay db session.pending) (.user user.id) :=
        covered_overlay ⟨old, member, same⟩
      have free := List.all_eq_true.mp (Bool.and_eq_true_iff.mp room).1 found visible
      exact absurd key (of_decide_eq_true (Bool.and_eq_true_iff.mp free).1)
  · cases step with
    | stays _ _ _ reads => cases reads
    | passes _ _ _ inserts_nothing => cases inserts_nothing
    | opened user _ access refresh _ grounds mints =>
      have given : Given (said index) service db session.origin none user token.stored access refresh :=
        ⟨grounds, mints, stands, fun old never => by cases never⟩
      exact ⟨⟨given, fun _ => here⟩,
        index, session.origin, none, user, token.stored, access, refresh, request, given, .refl _⟩
    | rotated record user _ access refresh _ grounds family mints =>
      have given : Given (said index) service db session.origin (some record) user token.stored access
          refresh := by
        refine ⟨grounds, mints, stands.2, ?_⟩
        rintro old ⟨⟩
        exact ⟨stands.1, family⟩
      exact ⟨⟨given, fun _ => here⟩,
        index, session.origin, some record, user, token.stored, access, refresh, request, given, .refl _⟩

/-- The answer to an UPDATE leads to a stage that says nothing of its rows. -/
theorem stands_finished {change : Change schema} {rows : List Row} {program : Service Response}
    {after : Stage} (sql : statement.sql = .update change)
    (stands : Stands (said index) service db session stage)
    (step : Step (said index) service session.origin stage statement rows after) :
    Stands (said index) service db (session.proceed program session.pending) after := by
  cases step with
  | stays _ _ _ reads =>
    rw [not_selects_of_update sql] at reads
    cases reads
  | passes => exact trivial
  | marks => exact stands
  | seen | cleared => cases sql
  | found | account | opened | rotated =>
    change (if _ then _ else _) = _ at sql
    split at sql <;> cases sql

/-- What a COMMIT has published. -/
theorem stands_published {program : Service Response} (scans : session.scan = none)
    (stands : Stands (said index) service db session stage)
    (preserved : Preserves db (Table.overlay db session.pending)) :
    Stands (said index) service (Table.overlay db session.pending)
      { session with
        program, pending := Table.empty schema, scan := none
        published := session.published ++ session.pending.rows } stage.commit := by
  cases stage with
  | account user => exact List.mem_append_right _ (stands scans)
  | stored record user row access refresh =>
    obtain ⟨given, here⟩ := stands
    refine ⟨given.preserved preserved, List.mem_append_right _ (here scans), row, ?_, .refl row⟩
    exact Table.mem_overlay.mpr (.inl (here scans))
  | _ => exact trivial

/-- An UPDATE in progress says nothing of the rows the session has written. -/
theorem stands_scanning {scan : Scan Row Key} {pending : Database}
    (stands : Stands (said index) service db session stage) :
    Stands (said index) service db { session with pending, scan := some scan } stage := by
  cases stage with
  | fresh => exact fun never => by cases never
  | account user => exact fun never => by cases never
  | seen record => exact ⟨stands.1, fun never => by cases never⟩
  | stored record user row access refresh =>
    exact ⟨stands.1, fun never => by cases never⟩
  | _ => exact stands

/-- What the session has written stays written when it locks another row. -/
theorem written_locked {change : Change schema} {row : Row} (sql : statement.sql = .update change)
    (meets : change.wanted row = true) (newest : row ∈ Table.overlay db session.pending)
    (tokens : ∀ row, Holds db row → Minted said service requests db row)
    (written : ∀ own ∈ session.pending, Written said service requests db index session.origin own) :
    ∀ own ∈ session.pending.put (change.set row),
      Written said service requests db index session.origin own := by
  intro own here
  rcases Table.mem_put.mp here with rfl | ⟨old, _⟩
  · cases row with
    | user user =>
      -- no UPDATE of the service selects a user
      cases statement with
      | markRefreshTokenReplaced | revokeRefreshToken | revokeRefreshTokenFamily =>
        obtain rfl := Sql.update.inj sql
        cases meets
      | getUserById | getRefreshTokenById => cases sql
      | getUserByEmail | insertUser | insertRefreshToken =>
        change (if _ then _ else _) = _ at sql
        split at sql <;> cases sql
    | refreshToken token =>
      have minted : Minted said service requests db token := by
        rcases Table.mem_overlay.mp newest with pending | ⟨committed, _⟩
        · exact written _ pending
        · exact tokens token committed
      obtain ⟨new, changed, minted'⟩ := minted_updated sql minted
      rw [changed]
      exact minted'
  · exact written own old

/-- The ledger of a program that has ended; what it handed out is on record. -/
theorem stands_closed {program : Service Response} (ended : ∀ op next, program ≠ .call op next)
    (follows : (ledger (said index) service session.origin).Follows stage program)
    (stands : Stands (said index) service db session stage) :
    ∃ after, (ledger (said index) service session.origin).Follows after program ∧
      Stands (said index) service db (session.abort program) after := by
  cases program with
  | raise error => exact ⟨.other, trivial, trivial⟩
  | call op next => exact absurd rfl (ended op next)
  | ret response =>
    cases response with
    | done => exact ⟨.other, trivial, trivial⟩
    | registered user =>
      obtain ⟨row, password, asked, rfl, same⟩ := follows
      exact ⟨.registered row, ⟨row, password, asked, rfl, same⟩, stands⟩
    | tokens access refresh =>
      obtain ⟨record, user, row, rfl⟩ := follows
      exact ⟨_, ⟨record, user, row, rfl⟩, stands⟩

private theorem driver_sql {sql : Sql schema} (same : driver.sql statement = sql) : statement.sql = sql := same

private theorem asked_of_changing {rows : List Row} (accepted : ∀ error, statement.sql ≠ .refused error)
    (changes : ∀ wanted, statement.sql ≠ .select wanted) : Asked statement rows :=
  ⟨accepted, fun wanted same => absurd same (changes wanted)⟩

/-- A session that executes no UPDATE is not in the middle of one. -/
private theorem scan_of_plain {op : Op Ask Statement}
    {next : Except Exn (Answer Reply Row op) → Service Response}
    (scanning : Scanning driver session) (calls : session.program = .call op next)
    (plain : ∀ statement change, op = .stmt statement → statement.sql ≠ .update change) :
    session.scan = none := by
  cases scans : session.scan with
  | none => rfl
  | some scan =>
    obtain ⟨statement, change, _, other, sql, _⟩ := scanning scan scans
    rw [calls] at other
    cases other
    exact absurd sql (plain statement change rfl)

/-- **One step of a session** keeps its ledger and writes nothing without grounds. -/
theorem stands_moves
    (answered : ∀ question next value, session.program = .call (.ask question) next →
      tick.answer question = .ok value → said index question value)
    (request : requests[index]? = some session.origin)
    (scanning : Scanning driver session) (preserved : Preserves db db')
    (tokens : ∀ row, Holds db row → Minted said service requests db row)
    (follows : (ledger (said index) service session.origin).Follows stage session.program)
    (stands : Stands (said index) service db session stage)
    (written : ∀ own ∈ session.pending, Written said service requests db index session.origin own)
    (moved : Moves driver tick db others session db' later) :
    (∃ after, (ledger (said index) service later.origin).Follows after later.program ∧
      Stands (said index) service db' later after) ∧
      ∀ own ∈ later.pending, Written said service requests db' index later.origin own := by
  have nothing : ∀ own ∈ Table.empty schema, Written said service requests db' index session.origin own :=
    fun own here => absurd here (Table.not_mem_empty own)
  cases moved with
  | closed ended =>
    have closed := stands_closed ended follows stands
    exact ⟨closed, nothing⟩
  | asked question next calls =>
    refine ⟨?_, written⟩
    rw [calls] at follows
    cases answer : tick.answer question with
    | error error =>
      obtain ⟨after, ⟨rfl, _⟩, rest⟩ := follows (.error error) trivial
      exact ⟨.other, rest, trivial⟩
    | ok value =>
      obtain ⟨after, ⟨rfl, _⟩, rest⟩ := follows (.ok value) (answered question next value calls answer)
      exact ⟨after, rest, stands⟩
  | failed op next error calls cause =>
    rw [calls] at follows
    obtain ⟨after, same, rest⟩ := follows (.error error) (by cases op <;> trivial)
    have other : after = .other := by
      cases op with
      | ask question => exact same.1
      | stmt statement => exact same
      | commit => exact same
    subst other
    exact ⟨⟨.other, rest, trivial⟩, nothing⟩
  | selected statement wanted next calls sql =>
    have plain : ∀ change, statement.sql ≠ .update change := fun change other => by
      cases sql.symm.trans other
    have scans := scan_of_plain scanning calls (by
      rintro _ change ⟨⟩
      exact plain change)
    rw [calls] at follows
    have asked : Asked statement ((Table.overlay db session.pending).rows.filter wanted) := by
      refine ⟨by simp [driver_sql sql], fun other same row member => ?_⟩
      obtain rfl := Sql.select.inj (sql.symm.trans same)
      exact (List.mem_filter.mp member).2
    obtain ⟨after, step, rest⟩ := follows (.ok _) asked
    exact ⟨⟨after, rest, stands_selected sql scans stands step⟩, written⟩
  | inserted statement row next calls sql decided room =>
    rw [calls] at follows
    have asked : Asked statement [row] := asked_of_changing (by simp [driver_sql sql]) (by simp [driver_sql sql])
    obtain ⟨after, step, rest⟩ := follows (.ok [row]) asked
    obtain ⟨stands', row_written⟩ :=
      @stands_inserted said service requests index db session stage statement row [row] _ after sql request
        room stands step
    refine ⟨⟨after, rest, stands'⟩, fun own here => ?_⟩
    rcases Table.mem_put.mp here with rfl | ⟨old, _⟩
    · exact row_written
    · exact written own old
  | snapshot statement change next calls sql begins =>
    exact ⟨⟨stage, follows, stands_scanning stands⟩, written⟩
  | locked statement change next row todo touched calls sql scans free newest meets healthy =>
    exact ⟨⟨stage, follows, stands_scanning stands⟩, written_locked sql meets newest tokens written⟩
  | skipped statement change next key todo touched calls sql scans free unmet healthy =>
    exact ⟨⟨stage, follows, stands_scanning stands⟩, written⟩
  | finished statement change next touched calls sql scans =>
    rw [calls] at follows
    have asked : Asked statement touched := asked_of_changing (by simp [driver_sql sql]) (by simp [driver_sql sql])
    obtain ⟨after, step, rest⟩ := follows (.ok touched) asked
    exact ⟨⟨after, rest, stands_finished sql stands step⟩, written⟩
  | published next calls checks =>
    have scans := scan_of_plain scanning calls (fun _ _ never => by cases never)
    rw [calls] at follows
    obtain ⟨after, same, rest⟩ := follows (.ok ()) trivial
    obtain rfl : after = stage.commit := same
    exact ⟨⟨_, rest, stands_published scans stands preserved⟩, nothing⟩

end Steps

/-! ## Runs -/

/-- The requests of the sessions, in the order of their arrival. -/
def requests (system : AuthSystem) : List Request := system.sessions.map (·.origin)

/-- The invariant: the ledgers, and what is committed and by whom. -/
structure Warranted (said : ℕ → Answers) (service : AuthService) (system : AuthSystem) : Prop where
  rotating : Rotating openRun system
  placed : ∀ (index : ℕ) session, system.sessions[index]? = some session → ∃ stage,
    (ledger (said index) service session.origin).Follows stage session.program ∧
      Stands (said index) service system.committed session stage
  written : ∀ (index : ℕ) session, system.sessions[index]? = some session → ∀ own ∈ session.pending,
    Written said service (requests system) system.committed index session.origin own
  tokens : ∀ row, Holds system.committed row →
    Minted said service (requests system) system.committed row
  published : ∀ (index : ℕ) session, system.sessions[index]? = some session →
    ∀ user, Row.user user ∈ session.published →
      Row.user user ∈ system.committed ∧ Registers (said index) session.origin user
  users : ∀ user, Row.user user ∈ system.committed →
    ∃ session ∈ system.sessions, Row.user user ∈ session.published
  once : ∀ (i j : ℕ) (first second : AuthSession) (user other : UserRow), i ≠ j →
    system.sessions[i]? = some first → system.sessions[j]? = some second →
    Row.user user ∈ first.published → Row.user other ∈ second.published → user.email ≠ other.email

section Runs

variable {said : ℕ → Answers} {service : AuthService} {system after : AuthSystem}

theorem warranted_init : Warranted said service (System.init : AuthSystem) where
  rotating := rotating_init
  placed := by
    intro index session found
    simp [System.init] at found
  written := by
    intro index session found
    simp [System.init] at found
  tokens := fun row held => absurd held (Table.not_mem_empty _)
  published := by
    intro index session found
    simp [System.init] at found
  users := fun user member => absurd member (Table.not_mem_empty _)
  once := by
    intro i j first second user other _ found
    simp [System.init] at found

theorem request_of_session {index : ℕ} {session : AuthSession}
    (found : system.sessions[index]? = some session) : (requests system)[index]? = some session.origin := by
  rw [requests, List.getElem?_map, found]
  rfl

private theorem warranted_arrives (request : Request) (warranted : Warranted said service system) :
    Warranted said service
      { system with sessions := system.sessions ++ [Session.fresh request (serve service request)] } := by
  have stepped : system.next driver (serve service) (.arrive request) =
      some { system with sessions := system.sessions ++ [Session.fresh request (serve service request)] } :=
    rfl
  have arrived : ∀ (i : ℕ) origin, (requests system)[i]? = some origin →
      (requests { system with
        sessions := system.sessions ++ [Session.fresh request (serve service request)] })[i]? = some origin := by
    intro i origin there
    have inside := (List.getElem?_eq_some_iff.mp there).1
    rw [requests] at there inside
    rw [requests, List.map_append, List.getElem?_append_left inside, there]
  refine ⟨open_next warranted.rotating stepped, ?_, ?_, ?_, ?_, ?_, ?_⟩
  · intro index session found
    rcases getElem?_append_cases found with ⟨_, rfl⟩ | old
    · exact ⟨.fresh, serve_keeps (said index) service request, fun _ => rfl⟩
    · exact warranted.placed index session old
  · intro index session found own here
    rcases getElem?_append_cases found with ⟨_, rfl⟩ | old
    · exact absurd here (Table.not_mem_empty own)
    · exact written_preserved (.refl _) arrived (fun _ _ => Iff.rfl)
        (warranted.written index session old own here)
  · exact fun row held => minted_preserved (.refl _) arrived (warranted.tokens row held)
  · intro index session found user here
    rcases getElem?_append_cases found with ⟨_, rfl⟩ | old
    · exact absurd here List.not_mem_nil
    · exact warranted.published index session old user here
  · intro user member
    obtain ⟨session, old, here⟩ := warranted.users user member
    exact ⟨session, List.mem_append_left _ old, here⟩
  · intro i j first second user other different found found' here there
    rcases getElem?_append_cases found with ⟨_, rfl⟩ | old
    · exact absurd here List.not_mem_nil
    · rcases getElem?_append_cases found' with ⟨_, rfl⟩ | old'
      · exact absurd there List.not_mem_nil
      · exact warranted.once i j first second user other different old old' here there

section Moved

variable {index : ℕ} {tick : World} {session later : AuthSession} {db' : Database}

/-- A step leaves the requests as they are. -/
theorem requests_moved (found : system.sessions[index]? = some session)
    (moved : Moves driver tick system.committed (system.sessions.eraseIdx index) session db' later) :
    requests ⟨db', system.sessions.set index later⟩ = requests system := by
  have origin := (moves_cases moved).1
  obtain ⟨inside, rfl⟩ := List.getElem?_eq_some_iff.mp found
  rw [requests, requests, List.map_set, origin]
  exact List.map_set.symm.trans (by rw [List.set_getElem_self])

/-- A user that a session publishes now is one of no other session. -/
theorem user_published_once (warranted : Warranted said service system)
    (found : system.sessions[index]? = some session) {j : ℕ} {second : AuthSession}
    (found' : system.sessions[j]? = some second) {user other : UserRow}
    (pending : Row.user user ∈ session.pending) (there : Row.user other ∈ second.published)
    (users : ∀ user, Row.user user ∈ system.committed →
      Row.user user ∈ Table.overlay system.committed session.pending) :
    user.email ≠ other.email := by
  intro same
  obtain ⟨_, unused⟩ := warranted.written index session found _ pending
  obtain ⟨old, _⟩ := warranted.published j second found' other there
  have keys := warranted.rotating.isolated.consistent session (List.mem_of_getElem? found) _
    (Table.mem_overlay.mpr (.inl pending)) _ (users other old) (by simp [schema, Row.clash, same])
  exact unused _ old keys.symm

theorem tokens_moved (warranted : Warranted said service system)
    (found : system.sessions[index]? = some session)
    (preserved : Preserves system.committed db')
    (moved : Moves driver tick system.committed (system.sessions.eraseIdx index) session db' later) :
    ∀ row, Holds db' row → Minted said service (requests system) db' row := by
  intro row held
  apply minted_preserved preserved (fun _ _ same => same)
  obtain ⟨_, ⟨rfl, _⟩ | ⟨_, _, _, _, rfl, _⟩⟩ := moves_cases moved
  · exact warranted.tokens row held
  · rcases Table.mem_overlay.mp held with own | ⟨old, _⟩
    · exact warranted.written index session found _ own
    · exact warranted.tokens row old

/-- The users a session has published after its step. -/
theorem published_moved (warranted : Warranted said service system)
    (found : system.sessions[index]? = some session)
    (preserved : Preserves system.committed db')
    (moved : Moves driver tick system.committed (system.sessions.eraseIdx index) session db' later)
    (user : UserRow) (here : Row.user user ∈ later.published) :
    (Row.user user ∈ session.published ∨
        (Row.user user ∈ session.pending ∧ db' = Table.overlay system.committed session.pending)) ∧
      Row.user user ∈ db' ∧ Registers (said index) later.origin user := by
  obtain ⟨origin, ⟨rfl, same⟩ | ⟨_, _, _, _, rfl, grown⟩⟩ := moves_cases moved
  · rw [same] at here
    obtain ⟨committed, registers⟩ := warranted.published index session found user here
    exact ⟨.inl here, committed, by rwa [origin]⟩
  · rw [grown] at here
    rcases List.mem_append.mp here with old | own
    · obtain ⟨committed, registers⟩ := warranted.published index session found user old
      exact ⟨.inl old, preserved.users user committed, by rwa [origin]⟩
    · obtain ⟨registers, _⟩ := warranted.written index session found _ own
      exact ⟨.inr ⟨own, rfl⟩, Table.mem_overlay.mpr (.inl own), by rwa [origin]⟩

theorem users_moved (warranted : Warranted said service system)
    (found : system.sessions[index]? = some session)
    (moved : Moves driver tick system.committed (system.sessions.eraseIdx index) session db' later) :
    ∀ user, Row.user user ∈ db' →
      ∃ other ∈ system.sessions.set index later, Row.user user ∈ other.published := by
  have inside : index < system.sessions.length := (List.getElem?_eq_some_iff.mp found).1
  -- whoever has published a user is still there, with the user
  have stays : ∀ user other, other ∈ system.sessions → Row.user user ∈ other.published →
      (∀ row ∈ session.published, row ∈ later.published) →
      ∃ other ∈ system.sessions.set index later, Row.user user ∈ other.published := by
    intro user other member here grows
    obtain ⟨i, at_⟩ := List.getElem?_of_mem member
    by_cases same : index = i
    · subst same
      rw [found] at at_
      cases at_
      exact ⟨later, List.mem_set inside later, grows _ here⟩
    · have still : (system.sessions.set index later)[i]? = some other := by
        rw [List.getElem?_set_ne same]
        exact at_
      exact ⟨other, List.mem_of_getElem? still, here⟩
  intro user member
  obtain ⟨_, ⟨rfl, same⟩ | ⟨_, _, _, _, rfl, grown⟩⟩ := moves_cases moved
  · obtain ⟨other, old, here⟩ := warranted.users user member
    exact stays user other old here fun row before => by rwa [same]
  · have grows : ∀ row ∈ session.published, row ∈ later.published := by
      intro row before
      rw [grown]
      exact List.mem_append_left _ before
    rcases Table.mem_overlay.mp member with own | ⟨old, _⟩
    · refine ⟨later, List.mem_set inside later, ?_⟩
      rw [grown]
      exact List.mem_append_right _ own
    · obtain ⟨other, before, here⟩ := warranted.users user old
      exact stays user other before here grows

end Moved

/-- What a step is answered belongs to what its session has been told. -/
def Answered (said : ℕ → Answers) (system : AuthSystem) : AuthAction → Prop
  | .arrive _ => True
  | .step index tick => ∀ session question next value, system.sessions[index]? = some session →
      session.program = .call (.ask question) next → tick.answer question = .ok value →
      said index question value

/-- **The invariant of what is handed out.** Every action keeps it. -/
theorem warranted_next {action : AuthAction} (warranted : Warranted said service system)
    (answered : Answered said system action)
    (stepped : system.next driver (serve service) action = some after) :
    Warranted said service after := by
  have rotates := open_next warranted.rotating stepped
  have preserved := preserves_next warranted.rotating stepped
  rcases next_cases stepped with ⟨request, _, rfl⟩ |
    ⟨index, tick, session, committed, later, rfl, found, moves, rfl⟩
  · exact warranted_arrives request warranted
  · have same_requests := requests_moved found moves
    obtain ⟨stage, follows, stands⟩ := warranted.placed index session found
    obtain ⟨placed, written⟩ := stands_moves
      (fun question next value => answered session question next value found)
      (request_of_session found) (warranted.rotating.scanning session (List.mem_of_getElem? found)) preserved
      warranted.tokens follows stands (warranted.written index session found) moves
    refine ⟨rotates, ?_, ?_, ?_, ?_, users_moved warranted found moves, ?_⟩
    · intro i other at_
      rcases getElem?_set_cases at_ with ⟨rfl, rfl⟩ | ⟨_, old⟩
      · exact placed
      · obtain ⟨stage, follows, stands⟩ := warranted.placed i other old
        exact ⟨stage, follows, stands_preserved preserved stands⟩
    · rw [same_requests]
      intro i other at_
      rcases getElem?_set_cases at_ with ⟨rfl, rfl⟩ | ⟨different, old⟩
      · exact written
      · have apart := warranted.rotating.isolated.apart index i session other (Ne.symm different) found old
        exact fun own here => written_preserved preserved (fun _ _ same => same)
          (fun row key => moves_kept moves apart here key) (warranted.written i other old own here)
    · rw [same_requests]
      exact tokens_moved warranted found preserved moves
    · intro i other at_ user here
      rcases getElem?_set_cases at_ with ⟨rfl, rfl⟩ | ⟨_, old⟩
      · exact (published_moved warranted found preserved moves user here).2
      · obtain ⟨member, registers⟩ := warranted.published i other old user here
        exact ⟨preserved.users user member, registers⟩
    · have fresh : ∀ (j : ℕ) (second : AuthSession) (user other : UserRow), index ≠ j →
          system.sessions[j]? = some second → Row.user user ∈ later.published →
          Row.user other ∈ second.published → user.email ≠ other.email := by
        intro j second user other different found' here there
        rcases (published_moved warranted found preserved moves user here).1 with old | ⟨own, rfl⟩
        · exact warranted.once index j session second user other different found found' old there
        · exact user_published_once warranted found found' own there preserved.users
      intro i j first second user other different found_i found_j here there
      rcases getElem?_set_cases found_i with ⟨rfl, rfl⟩ | ⟨_, old⟩
      · rcases getElem?_set_cases found_j with ⟨rfl, _⟩ | ⟨_, old'⟩
        · exact absurd rfl different
        · exact fresh j second user other different old' here there
      · rcases getElem?_set_cases found_j with ⟨rfl, rfl⟩ | ⟨_, old'⟩
        · exact (fresh i first other user (Ne.symm different) old there here).symm
        · exact warranted.once i j first second user other different old old' here there

/-- What the session at `index` has asked a port and been answered, in a run. -/
def Told (service : AuthService) (index : ℕ) : AuthSystem → List AuthAction → Answers
  | _, [] => fun _ _ => False
  | system, action :: rest => fun question value =>
    (∃ tick session next, action = .step index tick ∧ system.sessions[index]? = some session ∧
      session.program = .call (.ask question) next ∧ tick.answer question = .ok value) ∨
    ∃ later, system.next driver (serve service) action = some later ∧
      Told service index later rest question value

theorem along_answered {said : ℕ → Answers} {actions : List AuthAction}
    (told : ∀ index question value, Told service index system actions question value →
      said index question value) :
    Along driver (serve service) (Answered said) system actions := by
  induction actions generalizing system with
  | nil => trivial
  | cons action rest ih =>
    refine ⟨?_, fun later stepped => ih fun index question value onward => ?_⟩
    · cases action with
      | arrive request => trivial
      | step index tick =>
        intro session question next value found calls answer
        exact told index question value (.inl ⟨tick, session, next, rfl, found, calls, answer⟩)
    · exact told index question value (.inr ⟨later, stepped, onward⟩)

/-- What each session has been told in a run from the empty tables. -/
def toldFrom (service : AuthService) (actions : List AuthAction) (index : ℕ) : Answers :=
  Told service index System.init actions

theorem warranted_run {actions : List AuthAction}
    (reached : System.init.run driver (serve service) actions = some system) :
    Warranted (toldFrom service actions) service system := by
  have every : Along driver (serve service) (Answered (toldFrom service actions)) System.init actions :=
    along_answered fun _ _ _ told => told
  exact run_invariant (fun _ _ _ holds answered stepped => warranted_next holds answered stepped)
    warranted_init every reached

/-- Whoever is answered with tokens was entitled to them, and every stored token
was given out to someone who was; what is stored of it is its hash. -/
structure Granted (service : AuthService) (actions : List AuthAction) (system : AuthSystem) : Prop where
  returned : ∀ (index : ℕ) session access refresh, system.sessions[index]? = some session →
    session.program = .ret (.tokens access refresh) → ∃ record user row,
      Given (toldFrom service actions index) service system.committed session.origin record user row
        access refresh ∧ Row.refreshToken row ∈ session.published ∧ Version system.committed row
  stored : ∀ row, Holds system.committed row →
    Minted (toldFrom service actions) service (requests system) system.committed row

/-- **No tokens without authentication**, and no token in clear in the tables,
in any interleaving of any number of requests and after any failures. -/
theorem tokens_have_grounds (service : AuthService) (actions : List AuthAction) (system : AuthSystem)
    (reached : System.init.run driver (serve service) actions = some system) :
    Granted service actions system := by
  have warranted := warranted_run reached
  refine ⟨fun index session access refresh found returned => ?_, warranted.tokens⟩
  obtain ⟨stage, follows, stands⟩ := warranted.placed index session found
  rw [returned] at follows
  obtain ⟨record, user, row, rfl⟩ := follows
  exact ⟨record, user, row, stands⟩

theorem sample_login_has_grounds : ∃ system,
    System.init.run driver (serve {}) sampleLogin = some system ∧ Granted {} sampleLogin system :=
  ⟨(System.init.run driver (serve {}) sampleLogin).get (by decide +kernel), (Option.some_get _).symm,
    tokens_have_grounds {} sampleLogin _ (Option.some_get _).symm⟩

/-- The accounts of the service are those of its registrations, one each. -/
structure Accounts (service : AuthService) (actions : List AuthAction) (system : AuthSystem) : Prop where
  users : ∀ user, Row.user user ∈ system.committed ↔
    ∃ session ∈ system.sessions, Row.user user ∈ session.published
  registers : ∀ (index : ℕ) session user, system.sessions[index]? = some session →
    Row.user user ∈ session.published → Registers (toldFrom service actions index) session.origin user
  once : ∀ (i j : ℕ) (first second : AuthSession) (user other : UserRow),
    system.sessions[i]? = some first → system.sessions[j]? = some second →
    Row.user user ∈ first.published → Row.user other ∈ second.published →
    user.email = other.email → i = j ∧ user = other
  returned : ∀ session ∈ system.sessions, ∀ result, session.program = .ret (.registered result) →
    ∃ user password, session.origin = .register result.email password ∧
      Row.user user ∈ session.published ∧ result.userId = user.id.toStr ∧
      user.email = stored255 result.email
  winner : ∀ (i j : ℕ) (first second : AuthSession) (result other : AuthenticatedUser),
    system.sessions[i]? = some first → system.sessions[j]? = some second →
    first.program = .ret (.registered result) → second.program = .ret (.registered other) →
    stored255 result.email = stored255 other.email → i = j

/-- **One registration for each account.** Of the registrations that race for one
email, as its column keeps it, at most one succeeds, and the accounts are those
that did. -/
theorem accounts_have_one_registration (service : AuthService) (actions : List AuthAction)
    (system : AuthSystem)
    (reached : System.init.run driver (serve service) actions = some system) :
    Accounts service actions system := by
  have warranted := warranted_run reached
  have once : ∀ (i j : ℕ) (first second : AuthSession) (user other : UserRow),
      system.sessions[i]? = some first → system.sessions[j]? = some second →
      Row.user user ∈ first.published → Row.user other ∈ second.published →
      user.email = other.email → i = j ∧ user = other := by
    intro i j first second user other found found' here there same
    have one : i = j := by
      by_contra different
      exact warranted.once i j first second user other different found found' here there same
    obtain ⟨committed, _⟩ := warranted.published i first found user here
    obtain ⟨committed', _⟩ := warranted.published j second found' other there
    have keys := warranted.rotating.isolated.clean _ committed _ committed' (by simp [schema, Row.clash, same])
    exact ⟨one, Row.user.inj (Table.eq_of_key committed committed' keys)⟩
  have returned : ∀ session ∈ system.sessions, ∀ result,
      session.program = .ret (.registered result) → ∃ user password,
        session.origin = .register result.email password ∧ Row.user user ∈ session.published ∧
          result.userId = user.id.toStr ∧ user.email = stored255 result.email := by
    intro session member result program
    obtain ⟨index, found⟩ := List.getElem?_of_mem member
    obtain ⟨stage, follows, stands⟩ := warranted.placed index session found
    rw [program] at follows
    obtain ⟨user, password, asked, rfl, id, email⟩ := follows
    exact ⟨user, password, asked, stands, id, email⟩
  refine ⟨fun user => ⟨warranted.users user, ?_⟩, ?_, once, returned, ?_⟩
  · rintro ⟨session, member, here⟩
    obtain ⟨index, found⟩ := List.getElem?_of_mem member
    exact (warranted.published index session found user here).1
  · exact fun index session user found here => (warranted.published index session found user here).2
  · intro i j first second result other found found' program program' same
    obtain ⟨user, _, _, here, _, email⟩ := returned first (List.mem_of_getElem? found) result program
    obtain ⟨user', _, _, there, _, email'⟩ :=
      returned second (List.mem_of_getElem? found') other program'
    exact (once i j first second user user' found found' here there
      (email.trans (same.trans email'.symm))).1

/-- Two registrations with one email have both found it free; the first to commit
gets the account. -/
def racingRegistrations : List AuthAction :=
  [.arrive (.register (str "a@b.c") (str "password")), .arrive (.register (str "a@b.c") (str "another"))] ++
    sampleSteps 0 0 0 5 ++ sampleSteps 1 0 50 4 ++ sampleSteps 0 0 5 1 ++ sampleSteps 1 0 60 1

theorem racing_registrations_have_one_account : ∃ system,
    System.init.run driver (serve {}) racingRegistrations = some system ∧
      system.committed.rows.length = 1 ∧ Accounts {} racingRegistrations system :=
  ⟨(System.init.run driver (serve {}) racingRegistrations).get (by decide +kernel),
    (Option.some_get _).symm, by decide +kernel,
    accounts_have_one_registration {} racingRegistrations _ (Option.some_get _).symm⟩

end Runs

end BackendFoundation.AuthWarrants
