import BackendFoundation.AuthIntegrity

/-! On what grounds the auth service hands something out. A ledger beside each
request says what it has read and written, and lets it insert a row only with
what the ports have answered for it: the hash of a password, a signed token and
the hash of the token, a password or a presented token that has checked out. The
programs keep the ledger, whatever they are answered. -/
namespace BackendFoundation.AuthGrants
open PythonValues KeyedTables RequestPrograms ReadCommitted
open AuthPersistence AuthPrograms AuthDiscipline AuthSessions AuthIntegrity

/-- What the ports have answered. -/
abbrev Answers := (question : Ask) → Reply question → Prop

/-- The row kept of a registered account: its hash is the hasher's for the password. -/
structure Registers (said : Answers) (origin : Request) (user : UserRow) : Prop where
  asked : ∃ email password hash, origin = .register email password ∧ user.email = stored255 email ∧
    said (.hash password) hash ∧ user.passwordHash = stored255 hash
  tenantless : user.tenantId = none
  enabled : user.disabled = false

/-- The tokens given out for a user, and the row that stores the refresh token:
the row holds the hash of the signed token and not the token. -/
structure Mints (said : Answers) (service : AuthService) (user : UserRow) (row : RefreshTokenRow)
    (access : AccessToken) (refresh : RefreshToken) : Prop where
  owner : row.userId = user.id
  accessSigned : said (.sign (AuthService.accessClaims user row.issuedAt access.expiresAt)) access.token
  refreshSigned : said (.sign (AuthService.refreshClaims user row.id row.issuedAt row.expiresAt)) refresh.token
  hashed : ∃ hash, said (.hash refresh.token) hash ∧ row.hash = stored255 hash
  accessExpires : access.expiresAt = row.issuedAt + minutes service.accessTokenExpiresMinutes
  rowExpires : row.expiresAt = row.issuedAt + days service.refreshTokenExpiresDays
  expires : refresh.expiresAt = row.expiresAt
  unrevoked : row.revokedAt = none
  current : row.replacedBy = none

/-- Why tokens may be given out for a user: a login's password has checked out
against the hash of the user with that email; a refresh has presented a string
that verifies as a live refresh token and checks out against the hash of its row. -/
inductive Grounds (said : Answers) : Request → Option RefreshTokenRow → UserRow → Prop where
  | password (creds : Credentials) (user : UserRow) (email : user.email = creds.username)
      (enabled : user.disabled = false)
      (checked : said (.checkHash creds.password user.passwordHash) true) :
      Grounds said (.login creds) none user
  | token (token : Str) (claims : Claims) (record : RefreshTokenRow) (user : UserRow) (now : DateTime)
      (verified : said (.verify token) claims)
      (typ : (claims.get "typ").isStr (str "refresh") = true) (names : named claims = some record.id)
      (checked : said (.checkHash token record.hash) true) (live : record.revokedAt = none)
      (clock : said .now now) (unexpired : ¬ record.expiresAt < now) (owner : user.id = record.userId)
      (enabled : user.disabled = false) :
      Grounds said (.refresh token) (some record) user

/-- How far a request has come: what it has read and what it has written. -/
inductive Stage where
  | fresh
  | account (user : UserRow)
  | registered (user : UserRow)
  | found (user : UserRow)
  | seen (record : RefreshTokenRow)
  | cleared (record : RefreshTokenRow) (user : UserRow)
  | stored (record : Option RefreshTokenRow) (user : UserRow) (row : RefreshTokenRow)
      (access : AccessToken) (refresh : RefreshToken)
  | granted (record : Option RefreshTokenRow) (user : UserRow) (row : RefreshTokenRow)
      (access : AccessToken) (refresh : RefreshToken)
  | other

/-- The statement inserts a row. -/
def inserts : Statement → Bool
  | .insertUser _ | .insertRefreshToken _ => true
  | _ => false

/-- The statement selects rows. -/
def selects : Statement → Bool
  | .getUserByEmail _ | .getUserById _ | .getRefreshTokenById _ => true
  | _ => false

/-- Where a statement and its rows lead. Without grounds nothing is inserted. -/
inductive Step (said : Answers) (service : AuthService) :
    Request → Stage → Statement → List Row → Stage → Prop where
  | stays (origin : Request) (stage : Stage) (statement : Statement) (rows : List Row)
      (reads : selects statement = true) : Step said service origin stage statement rows stage
  | passes (origin : Request) (stage : Stage) (statement : Statement) (rows : List Row)
      (inserts_nothing : inserts statement = false) : Step said service origin stage statement rows .other
  | marks (origin : Request) (record : RefreshTokenRow) (user : UserRow) (newId : UUID)
      (revokedAt : DateTime) (rows : List Row) :
      Step said service origin (.cleared record user)
        (.markRefreshTokenReplaced record.id newId revokedAt) rows (.cleared record user)
  | found (origin : Request) (email : Str) (user : UserRow) (rows : List Row) (here : Row.user user ∈ rows) :
      Step said service origin .fresh (.getUserByEmail email) rows (.found user)
  | seen (origin : Request) (tokenId : UUID) (record : RefreshTokenRow) (rows : List Row)
      (here : Row.refreshToken record ∈ rows) :
      Step said service origin .fresh (.getRefreshTokenById tokenId) rows (.seen record)
  | cleared (origin : Request) (userId : UUID) (record : RefreshTokenRow) (user : UserRow)
      (rows : List Row) (here : Row.user user ∈ rows) :
      Step said service origin (.seen record) (.getUserById userId) rows (.cleared record user)
  | account (origin : Request) (user : UserRow) (rows : List Row)
      (registers : Registers said origin user.stored) :
      Step said service origin .fresh (.insertUser user) rows (.account user.stored)
  | opened (origin : Request) (user : UserRow) (row : RefreshTokenRow) (access : AccessToken)
      (refresh : RefreshToken) (rows : List Row) (grounds : Grounds said origin none user)
      (mints : Mints said service user row.stored access refresh) :
      Step said service origin (.found user) (.insertRefreshToken row) rows
        (.stored none user row.stored access refresh)
  | rotated (origin : Request) (record : RefreshTokenRow) (user : UserRow) (row : RefreshTokenRow)
      (access : AccessToken) (refresh : RefreshToken) (rows : List Row)
      (grounds : Grounds said origin (some record) user) (family : row.familyId = record.familyId)
      (mints : Mints said service user row.stored access refresh) :
      Step said service origin (.cleared record user) (.insertRefreshToken row) rows
        (.stored (some record) user row.stored access refresh)

/-- The stage after a COMMIT. -/
def Stage.commit : Stage → Stage
  | .account user => .registered user
  | .stored record user row access refresh => .granted record user row access refresh
  | _ => .other

/-- The database has accepted the statement, and every row is one that it selects. -/
def Asked (statement : Statement) (rows : List Row) : Prop :=
  (∀ error, statement.sql ≠ .refused error) ∧
    ∀ wanted, statement.sql = .select wanted → ∀ row ∈ rows, wanted row = true

/-- The answers of the ports are those that were said, those of the database rows
that were asked for. -/
def heard (said : Answers) : (op : Op Ask Statement) → Except Exn (Answer Reply Row op) → Prop
  | .ask question, .ok value => said question value
  | .stmt statement, .ok rows => Asked statement rows
  | _, _ => True

/-- The claims of a token for this user. -/
def Subject (user : UserRow) (claims : Claims) : Prop :=
  (∃ now expires, claims = AuthService.accessClaims user now expires) ∨
    ∃ tokenId now expires, claims = AuthService.refreshClaims user tokenId now expires

/-- What may be signed: claims for the user whose tokens have their grounds. -/
inductive Signs (said : Answers) (origin : Request) : Stage → Claims → Prop where
  | opens (user : UserRow) (claims : Claims) (grounds : Grounds said origin none user)
      (subject : Subject user claims) : Signs said origin (.found user) claims
  | rotates (record : RefreshTokenRow) (user : UserRow) (claims : Claims)
      (grounds : Grounds said origin (some record) user) (subject : Subject user claims) :
      Signs said origin (.cleared record user) claims

/-- Any port may be asked anything, but for the signer. -/
def Permits (said : Answers) (origin : Request) (stage : Stage) : Ask → Prop
  | .sign claims => Signs said origin stage claims
  | _ => True

/-- The stage after an answer. -/
def Next (said : Answers) (service : AuthService) (origin : Request) (stage : Stage) :
    (op : Op Ask Statement) → Except Exn (Answer Reply Row op) → Stage → Prop
  | .ask question, .ok _, later => later = stage ∧ Permits said origin stage question
  | .ask question, .error _, later => later = .other ∧ Permits said origin stage question
  | .stmt statement, .ok rows, later => Step said service origin stage statement rows later
  | .commit, .ok _, later => later = stage.commit
  | _, .error _, later => later = .other

/-- What a request may answer: the account it has registered, with the email it
was asked for, the tokens whose row it has stored. -/
def Ends (origin : Request) (stage : Stage) : Except Exn Response → Prop
  | .ok (.registered user) => ∃ row password, origin = .register user.email password ∧
      stage = .registered row ∧ user.userId = row.id.toStr ∧ row.email = stored255 user.email
  | .ok (.tokens access refresh) => ∃ record user row, stage = .granted record user row access refresh
  | _ => True

def ledger (said : Answers) (service : AuthService) (origin : Request) :
    Discipline (Op Ask Statement) (Answer Reply Row) Exn Response Stage :=
  { possible := heard said, after := Next said service origin, ends := Ends origin }

section Rules

variable {said : Answers} {service : AuthService} {origin : Request} {stage : Stage} {β : Type}

theorem email_of_asked {email : Str} {user : UserRow} {rows : List Row}
    (asked : Asked (.getUserByEmail email) rows) (here : Row.user user ∈ rows) : user.email = email := by
  obtain ⟨accepted, selected⟩ := asked
  simp only [Statement.sql] at accepted selected
  split at accepted
  · rename_i text
    rw [if_pos text] at selected
    exact beq_iff_eq.mp (selected _ rfl _ here)
  · exact absurd rfl (accepted _)

theorem id_of_asked {userId : UUID} {user : UserRow} {rows : List Row}
    (asked : Asked (.getUserById userId) rows) (here : Row.user user ∈ rows) : user.id = userId :=
  Key.user.inj (beq_iff_eq.mp (asked.2 _ rfl _ here))

/-- The row that is read as a user. -/
theorem user_of_read {row : Row} {user : UserRow} (read : row.user? = some user) : row = .user user := by
  cases row with
  | user => exact congrArg Row.user (Option.some.inj read)
  | refreshToken => cases read

theorem refreshToken_of_read {row : Row} {record : RefreshTokenRow}
    (read : row.refreshToken? = some record) : row = .refreshToken record := by
  cases row with
  | user => cases read
  | refreshToken => exact congrArg Row.refreshToken (Option.some.inj read)

theorem keeps_ask {question : Ask} {rest : Reply question → Service Response}
    (permits : Permits said origin stage question)
    (answers : ∀ value, said question value → (ledger said service origin).Follows stage (rest value)) :
    (ledger said service origin).Follows stage (ask question >>= rest) := by
  intro answer heard
  cases answer with
  | error error => exact ⟨.other, ⟨rfl, permits⟩, trivial⟩
  | ok value => exact ⟨stage, ⟨rfl, permits⟩, answers value heard⟩

theorem keeps_stmt {statement : Statement} {rest : List Row → Service Response}
    (answers : ∀ rows, Asked statement rows →
      ∃ later, Step said service origin stage statement rows later ∧
        (ledger said service origin).Follows later (rest rows)) :
    (ledger said service origin).Follows stage (execute statement >>= rest) := by
  intro answer heard
  cases answer with
  | error error => exact ⟨.other, rfl, trivial⟩
  | ok rows => exact answers rows heard

theorem keeps_commit {rest : Unit → Service Response}
    (answers : (ledger said service origin).Follows stage.commit (rest ())) :
    (ledger said service origin).Follows stage (commit >>= rest) := by
  intro answer _
  cases answer with
  | error error => exact ⟨.other, rfl, trivial⟩
  | ok value => exact ⟨stage.commit, rfl, answers⟩

theorem keeps_raiseIf {condition : Bool} {error : Exn} {rest : Unit → Service Response}
    (passes : condition = false → (ledger said service origin).Follows stage (rest ())) :
    (ledger said service origin).Follows stage (Program.raiseIf condition error >>= rest) := by
  cases condition with
  | true => exact trivial
  | false => exact passes rfl

/-- A statement whose rows are read as one value, as none, or not at all. -/
theorem keeps_read {statement : Statement} {read : Row → Option β} {rest : Option β → Service Response}
    (inserts_nothing : inserts statement = false)
    (absent : ∀ rows, ∃ later, Step said service origin stage statement rows later ∧
      (ledger said service origin).Follows later (rest none))
    (present : ∀ rows row value, row ∈ rows → read row = some value → Asked statement rows →
      ∃ later, Step said service origin stage statement rows later ∧
        (ledger said service origin).Follows later (rest (some value))) :
    (ledger said service origin).Follows stage
      (execute statement >>= fun rows => scalarOneOrNone (rows.filterMap read) >>= rest) := by
  refine keeps_stmt fun rows asked => ?_
  cases values : rows.filterMap read with
  | nil => exact absent rows
  | cons value others =>
    cases others with
    | nil =>
      have one : value ∈ rows.filterMap read := by
        rw [values]
        exact List.mem_cons_self
      obtain ⟨row, here, is_value⟩ := List.mem_filterMap.mp one
      exact present rows row value here is_value asked
    | cons second others => exact ⟨.other, .passes _ _ _ _ inserts_nothing, trivial⟩

private theorem keeps_orFresh {given : Option UUID} {rest : UUID → Service Response}
    (answers : ∀ id, (∀ known, given = some known → id = known) →
      (ledger said service origin).Follows stage (rest id)) :
    (ledger said service origin).Follows stage (AuthService.orFresh given >>= rest) := by
  cases given with
  | some id =>
    refine answers id fun known same => ?_
    exact Option.some.inj same
  | none => exact keeps_ask trivial fun id _ => answers id fun _ never => by cases never

/-- The tokens issued for a user, and the row inserted for them. -/
theorem keeps_issueTokens {user : UserRow} {familyId tokenId : Option UUID}
    {rest : AccessToken × RefreshToken → Service Response}
    (signs : ∀ claims, Subject user claims → Signs said origin stage claims)
    (answers : ∀ row access refresh rows, Mints said service user row.stored access refresh →
      (∀ known, familyId = some known → row.familyId = known) →
      ∃ later, Step said service origin stage (.insertRefreshToken row) rows later ∧
        (ledger said service origin).Follows later (rest (access, refresh))) :
    (ledger said service origin).Follows stage (service.issueTokens user familyId tokenId >>= rest) := by
  simp only [AuthService.issueTokens, Program.bind_assoc]
  refine keeps_ask trivial fun now _ => ?_
  refine keeps_orFresh fun family family_known => ?_
  refine keeps_orFresh fun id _ => ?_
  refine keeps_ask (signs _ (.inl ⟨_, _, rfl⟩)) fun access signed => ?_
  refine keeps_ask (signs _ (.inr ⟨_, _, _, rfl⟩)) fun token signed' => ?_
  refine keeps_ask trivial fun hash hashed => ?_
  simp only [insertRefreshToken, Program.bind_assoc]
  refine keeps_stmt fun rows _ => ?_
  exact answers _ _ _ rows ⟨rfl, signed, signed', ⟨hash, hashed, rfl⟩, rfl, rfl, rfl, rfl, rfl⟩
    family_known

end Rules

section Requests

variable {said : Answers} {service : AuthService} {β : Type}

private theorem keeps_register (email password : Str) {rest : AuthenticatedUser → Service Response}
    (ends : ∀ (row : UserRow) result, row.email = email → AuthenticatedUser.new row.id.toStr row.email
        ((optionalId row.tenantId).getD []) [str "user"] = .ok result →
      (ledger said service (.register email password)).Follows (.registered row.stored) (rest result)) :
    (ledger said service (.register email password)).Follows .fresh
      (AuthService.register email password >>= rest) := by
  simp only [AuthService.register, Program.bind_assoc, getUserByEmail]
  have registers : ∀ found : Option UserRow,
      (ledger said service (.register email password)).Follows .fresh
        (Program.raiseIf found.isSome
            (conflictError (str "User with email " ++ email ++ str " already exists")) >>= fun _ =>
          uuid4 >>= fun userId => hashPassword password >>= fun passwordHash =>
            clockNow >>= fun createdAt =>
              insertUser { id := userId, email, passwordHash, createdAt, tenantId := none, disabled := false }
                >>= fun userRecord => commit >>= fun _ =>
                  Program.ofExcept (AuthenticatedUser.new userRecord.id.toStr userRecord.email
                    ((optionalId userRecord.tenantId).getD []) [str "user"]) >>= rest) := by
    intro found
    refine keeps_raiseIf fun _ => ?_
    refine keeps_ask trivial fun userId _ => ?_
    refine keeps_ask trivial fun passwordHash hashed => ?_
    refine keeps_ask trivial fun createdAt _ => ?_
    simp only [insertUser, Program.bind_assoc]
    have asked : Registers said (.register email password) (UserRow.stored
        { id := userId, email, passwordHash, createdAt, tenantId := none, disabled := false }) :=
      ⟨⟨email, password, passwordHash, rfl, rfl, hashed, rfl⟩, rfl, rfl⟩
    refine keeps_stmt fun rows _ => ⟨_, .account _ _ rows asked, ?_⟩
    refine keeps_commit ?_
    cases user : AuthenticatedUser.new userId.toStr email ((optionalId none).getD []) [str "user"] with
    | ok result => exact ends ⟨userId, email, passwordHash, createdAt, none, false⟩ result rfl user
    | error error => exact trivial
  refine keeps_read rfl (fun rows => ⟨.fresh, .stays _ _ _ _ rfl, registers none⟩) ?_
  exact fun rows row user _ _ _ => ⟨.fresh, .stays _ _ _ _ rfl, registers (some user)⟩

private theorem keeps_login (creds : Credentials) {rest : AccessToken × RefreshToken → Service Response}
    (ends : ∀ user row access refresh, (ledger said service (.login creds)).Follows
      (.granted none user row access refresh) (rest (access, refresh))) :
    (ledger said service (.login creds)).Follows .fresh (service.login creds >>= rest) := by
  simp only [AuthService.login, Program.bind_assoc, getUserByEmail]
  refine keeps_read rfl (fun rows => ⟨.other, .passes _ _ _ _ rfl, trivial⟩) ?_
  intro rows row user here is_user asked
  obtain rfl := user_of_read is_user
  refine ⟨.found user, .found _ _ _ rows here, ?_⟩
  simp only [Program.bind_assoc]
  refine keeps_raiseIf fun enabled => ?_
  refine keeps_ask trivial fun verified checked => ?_
  refine keeps_raiseIf fun passed => ?_
  have passes : verified = true := by simpa using passed
  subst passes
  have grounds : Grounds said (.login creds) none user :=
    .password creds user (email_of_asked asked here) enabled checked
  refine keeps_issueTokens (fun claims subject => .opens user claims grounds subject)
    fun row access refresh rows mints _ => ?_
  refine ⟨_, .opened _ _ row access refresh rows grounds mints, ?_⟩
  exact keeps_commit (ends user row.stored access refresh)

private theorem keeps_revokeReused (token : Str) (tokenRecord : RefreshTokenRow)
    {rest : AccessToken × RefreshToken → Service Response} :
    (ledger said service (.refresh token)).Follows (.seen tokenRecord)
      (AuthService.revokeReused tokenRecord >>= rest) := by
  simp only [AuthService.revokeReused, Program.bind_assoc, revokeRefreshTokenFamily]
  refine keeps_ask trivial fun revokedAt _ => ?_
  refine keeps_stmt fun rows _ => ⟨.other, .passes _ _ _ _ rfl, ?_⟩
  exact keeps_commit trivial

private theorem keeps_exchange (token : Str) (claims : Claims) (tokenRecord : RefreshTokenRow)
    {rest : AccessToken × RefreshToken → Service Response}
    (verified : said (.verify token) claims) (typ : (claims.get "typ").isStr (str "refresh") = true)
    (names : named claims = some tokenRecord.id)
    (checked : said (.checkHash token tokenRecord.hash) true)
    (ends : ∀ user row access refresh, (ledger said service (.refresh token)).Follows
      (.granted (some tokenRecord) user row access refresh) (rest (access, refresh))) :
    (ledger said service (.refresh token)).Follows (.seen tokenRecord)
      (service.exchange tokenRecord >>= rest) := by
  simp only [AuthService.exchange, Program.bind_assoc, getUserById, markRefreshTokenReplaced]
  refine keeps_raiseIf fun live => ?_
  refine keeps_ask trivial fun now clock => ?_
  refine keeps_raiseIf fun unexpired => ?_
  refine keeps_read rfl (fun rows => ⟨.other, .passes _ _ _ _ rfl, trivial⟩) ?_
  intro rows row user here is_user asked
  obtain rfl := user_of_read is_user
  refine ⟨.cleared tokenRecord user, .cleared _ _ _ _ rows here, ?_⟩
  simp only [Program.bind_assoc]
  refine keeps_raiseIf fun enabled => ?_
  refine keeps_ask trivial fun newTokenId _ => ?_
  refine keeps_ask trivial fun revokedAt _ => ?_
  have issues : (ledger said service (.refresh token)).Follows (.cleared tokenRecord user)
      (service.issueTokens user (some tokenRecord.familyId) (some newTokenId) >>= fun tokens =>
        commit >>= fun _ => rest tokens) := by
    have grounds : Grounds said (.refresh token) (some tokenRecord) user :=
      .token token claims tokenRecord user now verified typ names checked (by simpa using live) clock
        (by simpa using unexpired) (id_of_asked asked here) enabled
    refine keeps_issueTokens (fun claims subject => .rotates tokenRecord user claims grounds subject)
      fun row access refresh rows mints family => ?_
    refine ⟨_, .rotated _ _ _ row access refresh rows grounds (family _ rfl) mints, ?_⟩
    exact keeps_commit (ends user row.stored access refresh)
  exact keeps_read rfl (fun rows => ⟨_, .marks _ _ _ _ _ _, issues⟩)
    fun rows row record _ _ _ => ⟨_, .marks _ _ _ _ _ _, issues⟩

private theorem keeps_parseUuid {origin : Request} {stage : Stage} {claims : Claims}
    {rest : UUID → Service Response}
    (answers : ∀ id, named claims = some id → (ledger said service origin).Follows stage (rest id)) :
    (ledger said service origin).Follows stage (parseUuid (claims.get "jti") >>= rest) := by
  cases value : claims.get "jti" with
  | str text =>
    cases read : UUID.ofStr text with
    | some id =>
      simp only [parseUuid, uuidOf, read, Program.ofExcept_ok, Program.ret_bind]
      apply answers id
      rw [named, value]
      exact read
    | none =>
      simp only [parseUuid, uuidOf, read, Program.ofExcept_error, Program.raise_bind]
      exact trivial
  | _ => exact trivial

/-- A token that verifies, or an exception that the request handles or ends with. -/
private theorem keeps_verified {origin : Request} {token : Str} {accept : Claims → β}
    {handler : Exn → Service β} {rest : β → Service Response}
    (handled : ∀ error, (ledger said service origin).Follows .other (handler error >>= rest))
    (verifies : ∀ claims, said (.verify token) claims →
      (ledger said service origin).Follows .fresh (rest (accept claims))) :
    (ledger said service origin).Follows .fresh
      ((verifyToken token >>= fun claims => .ret (accept claims)).handle handler >>= rest) := by
  intro answer heard
  cases answer with
  | error error => exact ⟨.other, ⟨rfl, trivial⟩, handled error⟩
  | ok claims => exact ⟨.fresh, ⟨rfl, trivial⟩, verifies claims heard⟩

private theorem keeps_refresh (token : Str) {rest : AccessToken × RefreshToken → Service Response}
    (ends : ∀ record user row access refresh, (ledger said service (.refresh token)).Follows
      (.granted (some record) user row access refresh) (rest (access, refresh))) :
    (ledger said service (.refresh token)).Follows .fresh (service.refresh token >>= rest) := by
  rw [AuthService.refresh, ← Program.bind_ret (verifyToken token), Program.bind_assoc]
  refine keeps_verified (fun error => ?_) fun claims verified => ?_
  · split <;> exact trivial
  simp only [AuthService.presentedToken, Program.bind_assoc, getRefreshTokenById]
  refine keeps_raiseIf fun typ => ?_
  refine keeps_raiseIf fun _ => ?_
  refine keeps_parseUuid fun id names => ?_
  refine keeps_read rfl (fun rows => ⟨.other, .passes _ _ _ _ rfl, trivial⟩) ?_
  intro rows row tokenRecord here is_token asked
  obtain rfl := refreshToken_of_read is_token
  have known : named claims = some tokenRecord.id := by
    rw [names, Key.refreshToken.inj (beq_iff_eq.mp (asked.2 _ rfl _ here))]
  refine ⟨.seen tokenRecord, .seen _ _ _ rows here, ?_⟩
  simp only [Program.bind_assoc]
  refine keeps_ask trivial fun matched checked => ?_
  refine keeps_raiseIf fun passed => ?_
  have passes : matched = true := by simpa using passed
  subst passes
  split
  · exact keeps_revokeReused token tokenRecord
  · exact keeps_exchange token claims tokenRecord verified (by simpa using typ) known checked
      fun user row access refresh => ends tokenRecord user row access refresh

private theorem keeps_logout (token : Str) {rest : Unit → Service Response}
    (ends : ∀ stage, (ledger said service (.logout token)).Follows stage (rest ())) :
    (ledger said service (.logout token)).Follows .fresh (AuthService.logout token >>= rest) := by
  rw [AuthService.logout, Program.bind_assoc]
  refine keeps_verified (fun error => ?_) fun claims _ => ?_
  · split
    · exact ends _
    · exact trivial
  simp only [AuthService.revokePresented]
  split
  · exact ends _
  · split
    · exact ends _
    · simp only [Program.bind_assoc, revokeRefreshToken]
      refine keeps_parseUuid fun id _ => ?_
      refine keeps_ask trivial fun revokedAt _ => ?_
      have closes : (ledger said service (.logout token)).Follows .other (commit >>= rest) :=
        keeps_commit (ends _)
      exact keeps_read rfl (fun rows => ⟨.other, .passes _ _ _ _ rfl, closes⟩)
        fun rows _ _ _ _ _ => ⟨.other, .passes _ _ _ _ rfl, closes⟩

/-- The user a registration answers with is that of the row. -/
private theorem registered_of_new {row : UserRow} {result : AuthenticatedUser}
    (built : AuthenticatedUser.new row.id.toStr row.email ((optionalId row.tenantId).getD [])
      [str "user"] = .ok result) :
    result.userId = row.id.toStr ∧ result.email = row.email := by
  rw [AuthenticatedUser.new] at built
  split at built
  · rw [← Except.ok.inj built]
    exact ⟨rfl, rfl⟩
  · exact absurd built (fun never => by cases never)

/-- **Every request keeps its ledger.** -/
theorem serve_keeps (said : Answers) (service : AuthService) (origin : Request) :
    (ledger said service origin).Follows .fresh (serve service origin) := by
  cases origin with
  | register email password =>
    refine keeps_register email password fun row result asked built => ?_
    obtain ⟨id, answered⟩ := registered_of_new built
    refine ⟨row.stored, password, ?_, rfl, id, congrArg stored255 answered.symm⟩
    rw [answered, asked]
  | login creds =>
    refine keeps_login creds fun user row access refresh => ?_
    exact ⟨none, user, row, rfl⟩
  | refresh token =>
    refine keeps_refresh token fun record user row access refresh => ?_
    exact ⟨some record, user, row, rfl⟩
  | logout token => exact keeps_logout token fun _ => trivial

end Requests

end BackendFoundation.AuthGrants
