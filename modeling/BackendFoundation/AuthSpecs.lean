import BackendFoundation.AuthPrograms
import BackendFoundation.TransactionLogic

/-! What each persistence helper ensures, stated on the rows its transaction
sees. Callers use these rules and never unfold a helper. -/
namespace BackendFoundation.AuthSpecs
open PythonValues KeyedTables RequestPrograms ReadCommitted TransactionLogic AuthPersistence
open AuthPrograms

/-- The refresh token with this id. -/
def token? (db : Database) (id : UUID) : Option RefreshTokenRow :=
  (db.lookup (.refreshToken id)).bind Row.refreshToken?

/-- The user with this id. -/
def user? (db : Database) (id : UUID) : Option UserRow :=
  (db.lookup (.user id)).bind Row.user?

/-- One pending row more, if there is one. -/
def written (pending : Database) : Option RefreshTokenRow → Database
  | some row => pending.put (.refreshToken row)
  | none => pending

theorem token?_eq_some {db : Database} {id : UUID} {row : RefreshTokenRow} :
    token? db id = some row ↔ Row.refreshToken row ∈ db ∧ row.id = id := by
  constructor
  · intro found
    obtain ⟨other, here, same⟩ := Option.bind_eq_some_iff.mp found
    obtain ⟨member, key⟩ := Table.lookup_eq_some.mp here
    cases other with
    | user _ => cases same
    | refreshToken _ =>
      cases same
      exact ⟨member, by simpa [schema, Row.key] using key⟩
  · rintro ⟨member, rfl⟩
    have found : db.lookup (.refreshToken row.id) = some (.refreshToken row) :=
      Table.lookup_eq_some.mpr ⟨member, rfl⟩
    simp [token?, found, Row.refreshToken?]

theorem token?_eq_none {db : Database} {id : UUID} :
    token? db id = none ↔ ∀ row, Row.refreshToken row ∈ db → row.id ≠ id := by
  rw [Option.eq_none_iff_forall_ne_some]
  constructor
  · rintro missing row member same
    exact missing row (token?_eq_some.mpr ⟨member, same⟩)
  · rintro missing row found
    obtain ⟨member, same⟩ := token?_eq_some.mp found
    exact missing row member same

theorem user?_eq_some {db : Database} {id : UUID} {row : UserRow} :
    user? db id = some row ↔ Row.user row ∈ db ∧ row.id = id := by
  constructor
  · intro found
    obtain ⟨other, here, same⟩ := Option.bind_eq_some_iff.mp found
    obtain ⟨member, key⟩ := Table.lookup_eq_some.mp here
    cases other with
    | refreshToken _ => cases same
    | user _ =>
      cases same
      exact ⟨member, by simpa [schema, Row.key] using key⟩
  · rintro ⟨member, rfl⟩
    have found : db.lookup (.user row.id) = some (.user row) :=
      Table.lookup_eq_some.mpr ⟨member, rfl⟩
    simp [user?, found, Row.user?]

/-- The users with this email. -/
def usersByEmail (db : Database) (email : Str) : List UserRow :=
  (db.rows.filter fun row => (row.user?.map (·.email == email)).getD false).filterMap Row.user?

theorem mem_usersByEmail {db : Database} {email : Str} {user : UserRow} :
    user ∈ usersByEmail db email ↔ Row.user user ∈ db ∧ user.email = email := by
  constructor
  · intro member
    obtain ⟨row, kept, same⟩ := List.mem_filterMap.mp member
    obtain ⟨here, selected⟩ := List.mem_filter.mp kept
    cases row with
    | refreshToken _ => cases same
    | user _ =>
      cases same
      exact ⟨here, by simpa [Row.user?] using selected⟩
  · rintro ⟨here, same⟩
    refine List.mem_filterMap.mpr ⟨.user user, List.mem_filter.mpr ⟨here, ?_⟩, rfl⟩
    simp [Row.user?, same]

theorem usersByEmail_nodup (db : Database) (email : Str) : (usersByEmail db email).Nodup := by
  refine List.Nodup.filterMap ?_ (db.keyed.of_map.filter _)
  rintro (left | left) (right | right) user first second <;> simp_all [Row.user?]

private theorem select_token (db : Database) (id : UUID) :
    (db.rows.filter fun row => row.key == .refreshToken id).filterMap Row.refreshToken? =
      (token? db id).toList := by
  have single : db.rows.filter (fun row => row.key == Key.refreshToken id) =
      (db.lookup (.refreshToken id)).toList := Table.filter_key db _
  rw [single, token?]
  cases db.lookup (.refreshToken id) with
  | none => rfl
  | some row => cases row <;> rfl

private theorem select_user (db : Database) (id : UUID) :
    (db.rows.filter fun row => row.key == .user id).filterMap Row.user? =
      (user? db id).toList := by
  have single : db.rows.filter (fun row => row.key == Key.user id) =
      (db.lookup (.user id)).toList := Table.filter_key db _
  rw [single, user?]
  cases db.lookup (.user id) with
  | none => rfl
  | some row => cases row <;> rfl

/-- The rows an UPDATE by id changes: the token with that id, if it exists. -/
theorem update_by_id (db : Database) (id : UUID) (set : RefreshTokenRow → RefreshTokenRow)
    (frame : ∀ row, (set row).id = row.id ∧ (set row).hash = row.hash ∧
      (set row).familyId = row.familyId ∧ ((set row).replacedBy = none → row.replacedBy = none)) :
    (db.rows.filter (tokenChange (·.id == id) set frame).wanted).map
        (tokenChange (·.id == id) set frame).set =
      ((token? db id).map fun row => Row.refreshToken (set row)).toList := by
  have wanted : (tokenChange (·.id == id) set frame).wanted =
      fun row => row.key == Key.refreshToken id := by
    funext row
    cases row with
    | user row => simp [tokenChange, Row.key]
    | refreshToken row =>
      simp only [tokenChange, Row.key]
      by_cases same : row.id = id <;> simp [same]
  have single : db.rows.filter (fun row => row.key == Key.refreshToken id) =
      (db.lookup (.refreshToken id)).toList := Table.filter_key db _
  rw [wanted, single, token?]
  cases found : db.lookup (.refreshToken id) with
  | none => rfl
  | some row =>
    cases row with
    | user row =>
      have key := (Table.lookup_eq_some.mp found).2
      simp [schema, Row.key] at key
    | refreshToken row => rfl

/-- An UPDATE changes the tokens its condition selects and keeps every other row. -/
theorem mem_tokenChange {committed pending : Database} {wanted : RefreshTokenRow → Bool}
    {set : RefreshTokenRow → RefreshTokenRow}
    {frame : ∀ row, (set row).id = row.id ∧ (set row).hash = row.hash ∧
      (set row).familyId = row.familyId ∧ ((set row).replacedBy = none → row.replacedBy = none)}
    {row : Row} :
    row ∈ Table.overlay committed ((((Table.overlay committed pending).rows.filter
        (tokenChange wanted set frame).wanted).map (tokenChange wanted set frame).set).foldl
          Table.put pending) ↔
      ∃ old ∈ Table.overlay committed pending,
        row = old.mapToken fun token => if wanted token then set token else token := by
  rw [Table.mem_overlay_changed (tokenChange wanted set frame).key_set]
  have changed : ∀ old : Row, (if (tokenChange wanted set frame).wanted old then
      (tokenChange wanted set frame).set old else old) =
      old.mapToken fun token => if wanted token then set token else token := by
    intro old
    cases old with
    | user user => rfl
    | refreshToken token => exact (apply_ite Row.refreshToken _ _ _).symm
  exact exists_congr fun old => and_congr_right fun _ => by rw [changed old]

/-- Every unrevoked row of the family gets its revocation time; no other row changes. -/
def FamilyRevoked (before after : Database) (familyId : UUID) (revokedAt : DateTime) : Prop :=
  ∀ row, row ∈ after ↔ ∃ old ∈ before, row = old.mapToken fun token =>
    if token.familyId == familyId && token.revokedAt.isNone then markRevoked revokedAt token
    else token

/-- The token with this id, if there is one, is revoked; no other row changes. -/
def Revoked (before after : Database) (id : UUID) (revokedAt : DateTime) : Prop :=
  ∀ row, row ∈ after ↔ ∃ old ∈ before, row = old.mapToken fun token =>
    if token.id == id then markRevoked revokedAt token else token

/-- A row that meets no key, index or missing reference is admitted. -/
private theorem admits_of {view : Database} {row : Row}
    (apart : ∀ old ∈ view, old.key ≠ row.key ∧ Row.clash old row = false)
    (refs : ∀ key ∈ schema.refs row, ∃ old ∈ view, old.key = key) : admits view row = true := by
  simp only [admits, Bool.and_eq_true, List.all_eq_true, decide_eq_true_eq]
  refine ⟨fun old member => ?_, fun key member => ?_⟩
  · obtain ⟨keys, clash⟩ := apart old member
    exact ⟨keys, by rw [show schema.clash old row = Row.clash old row from rfl, clash]; rfl⟩
  · obtain ⟨old, here, same⟩ := refs key member
    have found : view.lookup key = some old := Table.lookup_eq_some.mpr ⟨here, same⟩
    rw [found]
    rfl

/-- A user is admitted where none has the id or the email. -/
theorem admits_user {view : Database} {row : UserRow}
    (free : ∀ old, Row.user old ∈ view → old.id ≠ row.id ∧ old.email ≠ row.email) :
    admits view (.user row) = true := by
  apply admits_of
  · intro old member
    cases old with
    | refreshToken old => exact ⟨nofun, rfl⟩
    | user old =>
      obtain ⟨id, email⟩ := free old member
      exact ⟨fun same => id (Key.user.inj same), by simpa [Row.clash] using email⟩
  · exact fun key never => absurd never List.not_mem_nil

/-- A token of a user is admitted where none has its id or its hash, and every
row of its family has been replaced. -/
theorem admits_token {view : Database} {row : RefreshTokenRow} {user : UserRow}
    (owned : Row.user user ∈ view) (owner : row.userId = user.id)
    (free : ∀ old, Row.refreshToken old ∈ view → old.id ≠ row.id ∧ old.hash ≠ row.hash ∧
      (old.familyId = row.familyId → old.replacedBy ≠ none)) :
    admits view (.refreshToken row) = true := by
  apply admits_of
  · intro old member
    cases old with
    | user old => exact ⟨nofun, rfl⟩
    | refreshToken old =>
      obtain ⟨id, hash, replaced⟩ := free old member
      refine ⟨fun same => id (Key.refreshToken.inj same), ?_⟩
      by_contra clash
      simp only [Row.clash, Bool.not_eq_false, Bool.or_eq_true, Bool.and_eq_true, beq_iff_eq,
        Option.isNone_iff_eq_none, hash, false_or] at clash
      exact replaced clash.1.1 clash.1.2
  · intro key member
    rw [List.mem_singleton.mp member, owner]
    exact ⟨_, owned, rfl⟩

section Rules

variable {α : Type} {ticks : ℕ → World} {post : Except Exn α → ℕ → Database → Database → Prop}
variable {moment : ℕ} {committed pending : Database}

private theorem ensures_select {statement : Statement} {wanted : Row → Bool}
    (sql : statement.sql = .select wanted) {rest : List Row → Service α}
    (raises : ∀ error, (ticks moment).fault = some error →
      post (.error error) (moment + 1) committed (Table.empty schema))
    (answers : (ticks moment).fault = none →
      Ensures driver ticks post (moment + 1) committed pending
        (rest ((Table.overlay committed pending).rows.filter wanted))) :
    Ensures driver ticks post moment committed pending (execute statement >>= rest) := by
  have run : (driver.sql statement).run committed pending =
      .ok ((Table.overlay committed pending).rows.filter wanted, pending) := by
    simp only [driver, sql, Sql.run]
  simp only [execute, Program.perform, Program.call_bind, Ensures, ReadCommitted.perform, run]
  cases fault : (ticks moment).fault with
  | some error => exact raises error fault
  | none => exact answers fault

/-- A row selected by a key is the one row with that key. -/
theorem scalar_toList {β : Type} (row : Option β) (rest : Option β → Service α) :
    (scalarOneOrNone row.toList >>= rest) = rest row := by
  cases row <;> rfl

theorem ensures_getRefreshTokenById {tokenId : UUID} {rest : Option RefreshTokenRow → Service α}
    (raises : ∀ error, (ticks moment).fault = some error →
      post (.error error) (moment + 1) committed (Table.empty schema))
    (answers : (ticks moment).fault = none →
      Ensures driver ticks post (moment + 1) committed pending
        (rest (token? (Table.overlay committed pending) tokenId))) :
    Ensures driver ticks post moment committed pending (getRefreshTokenById tokenId >>= rest) := by
  rw [getRefreshTokenById, Program.bind_assoc]
  refine ensures_select rfl raises fun fault => ?_
  rw [select_token, scalar_toList]
  exact answers fault

theorem ensures_getUserById {userId : UUID} {rest : Option UserRow → Service α}
    (raises : ∀ error, (ticks moment).fault = some error →
      post (.error error) (moment + 1) committed (Table.empty schema))
    (answers : (ticks moment).fault = none →
      Ensures driver ticks post (moment + 1) committed pending
        (rest (user? (Table.overlay committed pending) userId))) :
    Ensures driver ticks post moment committed pending (getUserById userId >>= rest) := by
  rw [getUserById, Program.bind_assoc]
  refine ensures_select rfl raises fun fault => ?_
  rw [select_user, scalar_toList]
  exact answers fault

/-- A lookup by email answers with the one user that has it. It raises when the
driver refuses the parameter, or finds two, which only the index rules out. -/
theorem ensures_getUserByEmail {email : Str} {rest : Option UserRow → Service α}
    (raises : ∀ error left, (textParam email = true → (ticks moment).fault = none →
        ¬ (Table.overlay committed pending).ClashFree) →
      post (.error error) (moment + 1) committed left)
    (answers : ∀ found, textParam email = true →
      (∀ user, found = some user → Row.user user ∈ Table.overlay committed pending ∧
        user.email = email) →
      (found = none → ∀ user, Row.user user ∈ Table.overlay committed pending → user.email ≠ email) →
      Ensures driver ticks post (moment + 1) committed pending (rest found)) :
    Ensures driver ticks post moment committed pending (getUserByEmail email >>= rest) := by
  rw [getUserByEmail, Program.bind_assoc]
  refine ensures_stmt (fun error cause => ?_) fun rows written _ ran => ?_
  · refine raises error _ fun accepted healthy => ?_
    rcases cause with fault | ⟨_, refused, _⟩
    · rw [healthy] at fault
      cases fault
    · simp [driver, Statement.sql, accepted, Sql.run] at refused
  · simp only [driver, Statement.sql] at ran
    split at ran
    · rename_i searchable
      simp only [Sql.run, Except.ok.injEq, Prod.mk.injEq] at ran
      obtain ⟨rfl, rfl⟩ := ran
      have matching : ∀ user, user ∈ usersByEmail (Table.overlay committed pending) email ↔
          Row.user user ∈ Table.overlay committed pending ∧ user.email = email :=
        fun _ => mem_usersByEmail
      have distinct := usersByEmail_nodup (Table.overlay committed pending) email
      rw [← usersByEmail]
      match usersByEmail (Table.overlay committed pending) email, matching, distinct with
      | [], matching, _ =>
        refine answers none searchable (fun _ found => by cases found) fun _ user member same => ?_
        exact List.not_mem_nil ((matching user).mpr ⟨member, same⟩)
      | [found], matching, _ =>
        refine answers (some found) searchable (fun user same => ?_) (fun never => by cases never)
        cases same
        exact (matching found).mp List.mem_cons_self
      | first :: second :: _, matching, distinct =>
        refine raises _ _ fun _ _ unique => ?_
        obtain ⟨here, email₁⟩ := (matching first).mp List.mem_cons_self
        obtain ⟨there, email₂⟩ := (matching second).mp (by simp)
        have one : Row.user first = Row.user second :=
          Table.eq_of_key here there (unique _ here _ there (by
            simp [schema, Row.clash, email₁, email₂]))
        cases one
        simp at distinct
    · cases ran

private theorem ensures_update {statement : Statement} {change : Change schema}
    (sql : statement.sql = .update change) {rest : List Row → Service α}
    (raises : ∀ error, (ticks moment).fault = some error →
      post (.error error) (moment + 1) committed (Table.empty schema))
    (answers : (ticks moment).fault = none →
      Ensures driver ticks post (moment + 1) committed
        ((((Table.overlay committed pending).rows.filter change.wanted).map change.set).foldl
          Table.put pending)
        (rest (((Table.overlay committed pending).rows.filter change.wanted).map change.set))) :
    Ensures driver ticks post moment committed pending (execute statement >>= rest) := by
  have run : (driver.sql statement).run committed pending =
      .ok (((Table.overlay committed pending).rows.filter change.wanted).map change.set,
        (((Table.overlay committed pending).rows.filter change.wanted).map change.set).foldl
          Table.put pending) := by
    simp only [driver, sql, Sql.run]
  simp only [execute, Program.perform, Program.call_bind, Ensures, ReadCommitted.perform, run]
  cases fault : (ticks moment).fault with
  | some error => exact raises error fault
  | none => exact answers fault

private theorem written_foldl (row : Option RefreshTokenRow) :
    (row.map Row.refreshToken).toList.foldl Table.put pending = written pending row := by
  cases row <;> rfl

private theorem tokens_toList (row : Option RefreshTokenRow) :
    (row.map Row.refreshToken).toList.filterMap Row.refreshToken? = row.toList := by
  cases row <;> rfl

theorem ensures_markRefreshTokenReplaced {tokenId replacedBy : UUID} {revokedAt : DateTime}
    {rest : Option RefreshTokenRow → Service α}
    (raises : ∀ error, (ticks moment).fault = some error →
      post (.error error) (moment + 1) committed (Table.empty schema))
    (answers : ∀ touched, (ticks moment).fault = none →
      touched = (token? (Table.overlay committed pending) tokenId).map
        (markReplaced replacedBy revokedAt) →
      Ensures driver ticks post (moment + 1) committed (written pending touched) (rest touched)) :
    Ensures driver ticks post moment committed pending
      (markRefreshTokenReplaced tokenId replacedBy revokedAt >>= rest) := by
  rw [markRefreshTokenReplaced, Program.bind_assoc]
  refine ensures_update rfl raises fun fault => ?_
  have touched := update_by_id (Table.overlay committed pending) tokenId
    (markReplaced replacedBy revokedAt) fun _ => ⟨rfl, rfl, rfl, fun never => by cases never⟩
  rw [touched]
  have rows : ((token? (Table.overlay committed pending) tokenId).map fun row =>
      Row.refreshToken (markReplaced replacedBy revokedAt row)) =
      ((token? (Table.overlay committed pending) tokenId).map
        (markReplaced replacedBy revokedAt)).map Row.refreshToken := by
    rw [Option.map_map]
    rfl
  rw [rows, written_foldl, tokens_toList, scalar_toList]
  exact answers _ fault rfl

theorem ensures_revokeRefreshToken {tokenId : UUID} {revokedAt : DateTime}
    {rest : Option RefreshTokenRow → Service α}
    (raises : ∀ error, (ticks moment).fault = some error →
      post (.error error) (moment + 1) committed (Table.empty schema))
    (answers : ∀ touched written, (ticks moment).fault = none →
      Revoked (Table.overlay committed pending) (Table.overlay committed written) tokenId revokedAt →
      Ensures driver ticks post (moment + 1) committed written (rest touched)) :
    Ensures driver ticks post moment committed pending
      (revokeRefreshToken tokenId revokedAt >>= rest) := by
  rw [revokeRefreshToken, Program.bind_assoc]
  refine ensures_update rfl raises fun fault => ?_
  have one := update_by_id (Table.overlay committed pending) tokenId
    (markRevoked revokedAt) fun _ => ⟨rfl, rfl, rfl, id⟩
  have rows : ((token? (Table.overlay committed pending) tokenId).map fun row =>
      Row.refreshToken (markRevoked revokedAt row)) =
      ((token? (Table.overlay committed pending) tokenId).map
        (markRevoked revokedAt)).map Row.refreshToken := by
    rw [Option.map_map]
    rfl
  rw [one, rows, tokens_toList, scalar_toList, ← rows, ← one]
  exact answers _ _ fault fun _ => mem_tokenChange

theorem ensures_revokeRefreshTokenFamily {familyId : UUID} {revokedAt : DateTime}
    {rest : ℕ → Service α}
    (raises : ∀ error, (ticks moment).fault = some error →
      post (.error error) (moment + 1) committed (Table.empty schema))
    (answers : ∀ count written, (ticks moment).fault = none →
      FamilyRevoked (Table.overlay committed pending) (Table.overlay committed written) familyId
        revokedAt →
      Ensures driver ticks post (moment + 1) committed written (rest count)) :
    Ensures driver ticks post moment committed pending
      (revokeRefreshTokenFamily familyId revokedAt >>= rest) := by
  rw [revokeRefreshTokenFamily, Program.bind_assoc]
  exact ensures_update rfl raises fun fault => answers _ _ fault fun _ => mem_tokenChange

/-- An INSERT takes effect or meets a limit of a column, a key or an index. -/
private theorem ensures_insert {statement : Statement} {row : Row} {fits : Bool}
    (sql : statement.sql = if fits then .insert row else .refused .data)
    {rest : List Row → Service α}
    (raises : ∀ error, ((ticks moment).fault = some error ∨ (∃ cause, error = .db cause) ∧
        (fits = false ∨ admits (Table.overlay committed pending) row = false)) →
      post (.error error) (moment + 1) committed (Table.empty schema))
    (answers : (ticks moment).fault = none → fits = true →
      admits (Table.overlay committed pending) row = true →
      Ensures driver ticks post (moment + 1) committed (pending.put row) (rest [row])) :
    Ensures driver ticks post moment committed pending (execute statement >>= rest) := by
  refine ensures_stmt (fun error cause => raises error ?_) fun rows written fault ran => ?_
  · rcases cause with fault | ⟨cause, refused, rfl⟩
    · exact .inl fault
    · refine .inr ⟨⟨cause, rfl⟩, ?_⟩
      cases fits with
      | false => exact .inl rfl
      | true =>
        cases room : admits (Table.overlay committed pending) row with
        | true => simp [driver, sql, Sql.run, room] at refused
        | false => exact .inr rfl
  · cases fits with
    | false => simp [driver, sql, Sql.run] at ran
    | true =>
      cases room : admits (Table.overlay committed pending) row with
      | true =>
        simp only [driver, sql, if_true, Sql.run, room, Except.ok.injEq, Prod.mk.injEq] at ran
        rw [← ran.1, ← ran.2]
        exact answers fault rfl room
      | false => simp [driver, sql, Sql.run, room] at ran

theorem ensures_insertRefreshToken {row : RefreshTokenRow} {rest : RefreshTokenRow → Service α}
    (raises : ∀ error, ((ticks moment).fault = some error ∨ (∃ cause, error = .db cause) ∧
        (varchar255 row.hash = false ∨
          admits (Table.overlay committed pending) (.refreshToken row.stored) = false)) →
      post (.error error) (moment + 1) committed (Table.empty schema))
    (answers : (ticks moment).fault = none → varchar255 row.hash = true →
      admits (Table.overlay committed pending) (.refreshToken row.stored) = true →
      Ensures driver ticks post (moment + 1) committed (pending.put (.refreshToken row.stored))
        (rest row)) :
    Ensures driver ticks post moment committed pending (insertRefreshToken row >>= rest) := by
  rw [insertRefreshToken, Program.bind_assoc]
  exact ensures_insert rfl raises answers

theorem ensures_insertUser {row : UserRow} {rest : UserRow → Service α}
    (raises : ∀ error, ((ticks moment).fault = some error ∨ (∃ cause, error = .db cause) ∧
        ((varchar255 row.email && varchar255 row.passwordHash) = false ∨
          admits (Table.overlay committed pending) (.user row.stored) = false)) →
      post (.error error) (moment + 1) committed (Table.empty schema))
    (answers : (ticks moment).fault = none → varchar255 row.email = true →
      admits (Table.overlay committed pending) (.user row.stored) = true →
      Ensures driver ticks post (moment + 1) committed (pending.put (.user row.stored)) (rest row)) :
    Ensures driver ticks post moment committed pending (insertUser row >>= rest) := by
  rw [insertUser, Program.bind_assoc]
  exact ensures_insert rfl raises fun fault fits room =>
    answers fault (Bool.and_eq_true_iff.mp fits).1 room

/-- The presented token verifies, or the request ends as its handler says. -/
theorem ensures_verified {β : Type} {token : Str} {accept : Claims → β}
    {handler : Exn → Service β} {rest : β → Service α}
    (fails : ∀ error, (ticks moment).answer (.verify token) = .error error →
      Ensures driver ticks post (moment + 1) committed pending (handler error >>= rest))
    (verifies : ∀ claims, (ticks moment).answer (.verify token) = .ok claims →
      Ensures driver ticks post (moment + 1) committed pending (rest (accept claims))) :
    Ensures driver ticks post moment committed pending
      ((verifyToken token >>= fun claims => .ret (accept claims)).handle handler >>= rest) := by
  simp only [verifyToken, ask, Program.perform, Program.handle, Program.call_bind, Ensures,
    ReadCommitted.perform]
  cases answer : (ticks moment).answer (.verify token) with
  | ok claims => exact verifies claims answer
  | error error => exact fails error answer

/-- An exception of a port whose argument is well formed, or of the database. -/
def Unsound (tick : World) (error : Exn) : Prop :=
  tick.fault = some error ∨
    ∃ question, (∀ token, question ≠ .verify token) ∧ tick.answer question = .error error

/-- An exception that a port or the database raises at some moment. -/
def Thrown (ticks : ℕ → World) (error : Exn) : Prop :=
  ∃ moment, (ticks moment).fault = some error ∨
    ∃ question, (ticks moment).answer question = .error error

theorem Unsound.thrown {error : Exn} (unsound : Unsound (ticks moment) error) :
    Thrown ticks error :=
  ⟨moment, unsound.imp_right fun ⟨question, _, answer⟩ => ⟨question, answer⟩⟩

/-- An id the caller passed on, or a fresh one. -/
def Supplied (ticks : ℕ → World) : Option UUID → UUID → Prop
  | some id, used => used = id
  | none, used => ∃ moment, (ticks moment).answer .uuid4 = .ok used

theorem ensures_port {question : Ask} {rest : Reply question → Service α}
    (total : ∀ token, question ≠ .verify token)
    (raises : ∀ error, Unsound (ticks moment) error →
      post (.error error) (moment + 1) committed pending)
    (answers : ∀ value, (ticks moment).answer question = .ok value →
      Ensures driver ticks post (moment + 1) committed pending (rest value)) :
    Ensures driver ticks post moment committed pending (ask question >>= rest) :=
  ensures_ask (fun error answer => raises error (.inr ⟨question, total, answer⟩)) answers

theorem ensures_orFresh {given : Option UUID} {rest : UUID → Service α}
    (raises : ∀ error, Unsound (ticks moment) error →
      post (.error error) (moment + 1) committed pending)
    (answers : ∀ id later, moment ≤ later → Supplied ticks given id →
      Ensures driver ticks post later committed pending (rest id)) :
    Ensures driver ticks post moment committed pending (AuthService.orFresh given >>= rest) := by
  cases given with
  | some id => exact answers id moment le_rfl rfl
  | none =>
    refine ensures_port (fun _ other => by cases other) raises fun id answer => ?_
    exact answers id _ (Nat.le_succ moment) ⟨moment, answer⟩

/-- The row kept of an issued refresh token and the port calls that made it. -/
structure Issued (service : AuthService) (ticks : ℕ → World) (user : UserRow)
    (row : RefreshTokenRow) (token : RefreshToken) : Prop where
  owner : row.userId = user.id
  unrevoked : row.revokedAt = none
  current : row.replacedBy = none
  lifetime : row.expiresAt = row.issuedAt + days service.refreshTokenExpiresDays
  expires : token.expiresAt = row.expiresAt
  clock : ∃ moment, (ticks moment).answer .now = .ok row.issuedAt
  signed : ∃ moment, (ticks moment).answer
    (.sign (AuthService.refreshClaims user row.id row.issuedAt row.expiresAt)) = .ok token.token
  hashed : ∃ moment hash, (ticks moment).answer (.hash token.token) = .ok hash ∧
    row.hash = stored255 hash

/-- The column refuses a hash that this text was given. -/
def Unstorable (ticks : ℕ → World) (text : Str) : Prop :=
  ∃ moment hash, (ticks moment).answer (.hash text) = .ok hash ∧ varchar255 hash = false

/-- The port calls that made an access token before some moment. -/
structure AccessIssued (service : AuthService) (ticks : ℕ → World) (later : ℕ) (user : UserRow)
    (issuedAt : DateTime) (token : AccessToken) : Prop where
  clock : ∃ moment < later, (ticks moment).answer .now = .ok issuedAt
  lifetime : token.expiresAt = issuedAt + minutes service.accessTokenExpiresMinutes
  signed : ∃ moment, (ticks moment).answer
    (.sign (AuthService.accessClaims user issuedAt token.expiresAt)) = .ok token.token

theorem AccessIssued.mono {service : AuthService} {user : UserRow} {issuedAt : DateTime}
    {token : AccessToken} {later : ℕ} (issued : AccessIssued service ticks moment user issuedAt token)
    (after : moment ≤ later) : AccessIssued service ticks later user issuedAt token := by
  obtain ⟨earlier, before, read⟩ := issued.clock
  exact ⟨⟨earlier, before.trans_le after, read⟩, issued.lifetime, issued.signed⟩

/-- Issuing tokens writes the row of the returned refresh token, or raises
because a port or the database does, or because the row meets a constraint. -/
theorem ensures_issueTokens {service : AuthService} {user : UserRow}
    {familyId tokenId : Option UUID} {rest : AccessToken × RefreshToken → Service α}
    (raises : ∀ error later left, ((∃ moment, Unsound (ticks moment) error) ∨
        (∃ cause, error = .db cause) ∧
        ∃ row token, Issued service ticks user row token ∧ Supplied ticks familyId row.familyId ∧
          Supplied ticks tokenId row.id ∧ (Unstorable ticks token.token ∨
            admits (Table.overlay committed pending) (.refreshToken row) = false)) →
      post (.error error) later committed left)
    (answers : ∀ row access token later, Issued service ticks user row token →
      AccessIssued service ticks later user row.issuedAt access →
      Supplied ticks familyId row.familyId → Supplied ticks tokenId row.id →
      admits (Table.overlay committed pending) (.refreshToken row) = true →
      Ensures driver ticks post later committed (pending.put (.refreshToken row))
        (rest (access, token))) :
    Ensures driver ticks post moment committed pending
      (service.issueTokens user familyId tokenId >>= rest) := by
  have unsound : ∀ error later left, Unsound (ticks later) error →
      post (.error error) (later + 1) committed left :=
    fun error later left failed => raises error (later + 1) left (.inl ⟨later, failed⟩)
  simp only [AuthService.issueTokens, Program.bind_assoc]
  refine ensures_port (fun _ other => by cases other) (fun _ => unsound _ _ _) fun now clock => ?_
  refine ensures_orFresh (fun _ => unsound _ _ _) fun family later₁ after₁ family_id => ?_
  refine ensures_orFresh (fun _ => unsound _ _ _) fun id later₂ after₂ token_id => ?_
  refine ensures_port (fun _ other => by cases other) (fun _ => unsound _ _ _) fun access granted => ?_
  refine ensures_port (fun _ other => by cases other) (fun _ => unsound _ _ _) fun token signed => ?_
  refine ensures_port (fun _ other => by cases other) (fun _ => unsound _ _ _) fun hash hashed => ?_
  have issued : Issued service ticks user
      { id, userId := user.id, familyId := family, hash := stored255 hash, issuedAt := now
        expiresAt := now + days service.refreshTokenExpiresDays, revokedAt := none
        replacedBy := none }
      ⟨token, now + days service.refreshTokenExpiresDays⟩ :=
    ⟨rfl, rfl, rfl, rfl, rfl, ⟨_, clock⟩, ⟨_, signed⟩, ⟨_, _, hashed, rfl⟩⟩
  refine ensures_insertRefreshToken (fun error cause => ?_) fun _ _ room => ?_
  · rcases cause with fault | ⟨driven, refused⟩
    · exact unsound error _ _ (.inl fault)
    · exact raises error _ _ (.inr ⟨driven, _, _, issued, family_id, token_id,
        refused.imp_left fun refused => ⟨_, _, hashed, refused⟩⟩)
  · exact answers _ ⟨access, now + minutes service.accessTokenExpiresMinutes⟩ _ _ issued
      ⟨⟨moment, by omega, clock⟩, rfl, _, granted⟩ family_id token_id room

end Rules

end BackendFoundation.AuthSpecs
