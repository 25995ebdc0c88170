import BackendFoundation.AuthPrograms

/-! What a request of the auth service may do, whatever it is answered. A
phase records what the request has read and written so far; the discipline says
which statements are allowed in it, where each answer leads, and with which
results the request may end there. The programs follow the discipline, so what
holds of every phase holds of every interleaving of the requests. -/
namespace BackendFoundation.AuthDiscipline
open PythonValues RequestPrograms ReadCommitted AuthPersistence AuthPrograms

/-- How far a request has come. -/
inductive Phase where
  | fresh
  | registering (user : UserRow)
  | registered (user : UserRow)
  | found (user : UserRow)
  | opened (row : RefreshTokenRow)
  | loggedIn
  | verified (claims : Claims)
  | seen (record : RefreshTokenRow)
  | cleared (record : RefreshTokenRow) (user : UserRow)
  | marked (record : RefreshTokenRow) (user : UserRow) (newId : UUID)
  | rotated (record row : RefreshTokenRow)
  | exchanged
  | sweeping (record : RefreshTokenRow)
  | swept (record : RefreshTokenRow)
  | revoking
  | revoked
  | failed (error : Exn)

/-- The token the claims name. -/
def named (claims : Claims) : Option UUID :=
  match claims.get "jti" with
  | .str text => UUID.ofStr text
  | _ => none

/-- Claims of a refresh token whose `jti` is not the text of a UUID. -/
def Malformed (claims : Claims) : Prop :=
  (claims.get "typ").isStr (str "refresh") = true ∧ (claims.get "jti").truthy = true ∧
    named claims = none

/-- The token string a request presents. -/
def presentedBy : Request → Option Str
  | .refresh token => some token
  | .logout token => some token
  | _ => none

/-- The statements a request may execute in a phase, and the phase that the rows
of the answer lead to. -/
inductive AfterRows : Request → Phase → Statement → List Row → Phase → Prop where
  | looked (email password sought : Str) (rows : List Row) :
      AfterRows (.register email password) .fresh (.getUserByEmail sought) rows .fresh
  | registered (email password : Str) (row : UserRow) (rows : List Row) (own : row.email = email) :
      AfterRows (.register email password) .fresh (.insertUser row) rows (.registering row.stored)
  | found (creds : Credentials) (email : Str) (user : UserRow) :
      AfterRows (.login creds) .fresh (.getUserByEmail email) [.user user] (.found user)
  | unknown (creds : Credentials) (email : Str) (rows : List Row) :
      AfterRows (.login creds) .fresh (.getUserByEmail email) rows .fresh
  | opened (creds : Credentials) (user : UserRow) (row : RefreshTokenRow) (rows : List Row)
      (owner : row.userId = user.id) (unrevoked : row.revokedAt = none)
      (current : row.replacedBy = none) :
      AfterRows (.login creds) (.found user) (.insertRefreshToken row) rows (.opened row.stored)
  | read (token : Str) (claims : Claims) (tokenId : UUID) (record : RefreshTokenRow)
      (names : named claims = some tokenId) :
      AfterRows (.refresh token) (.verified claims) (.getRefreshTokenById tokenId)
        [.refreshToken record] (.seen record)
  | missed (token : Str) (claims : Claims) (tokenId : UUID) (rows : List Row) :
      AfterRows (.refresh token) (.verified claims) (.getRefreshTokenById tokenId) rows
        (.verified claims)
  | cleared (token : Str) (record : RefreshTokenRow) (user : UserRow) :
      AfterRows (.refresh token) (.seen record) (.getUserById record.userId) [.user user]
        (.cleared record user)
  | orphaned (token : Str) (record : RefreshTokenRow) (userId : UUID) (rows : List Row) :
      AfterRows (.refresh token) (.seen record) (.getUserById userId) rows (.seen record)
  | marked (token : Str) (record : RefreshTokenRow) (user : UserRow) (newId : UUID)
      (revokedAt : DateTime) (rows : List Row) :
      AfterRows (.refresh token) (.cleared record user)
        (.markRefreshTokenReplaced record.id newId revokedAt) rows (.marked record user newId)
  | rotated (token : Str) (record : RefreshTokenRow) (user : UserRow) (row : RefreshTokenRow)
      (rows : List Row) (owner : row.userId = user.id) (family : row.familyId = record.familyId)
      (unrevoked : row.revokedAt = none) (current : row.replacedBy = none) :
      AfterRows (.refresh token) (.marked record user row.id) (.insertRefreshToken row) rows
        (.rotated record row.stored)
  | swept (token : Str) (record : RefreshTokenRow) (revokedAt : DateTime) (rows : List Row) :
      AfterRows (.refresh token) (.seen record)
        (.revokeRefreshTokenFamily record.familyId revokedAt) rows (.sweeping record)
  | revoked (token : Str) (claims : Claims) (tokenId : UUID) (revokedAt : DateTime)
      (rows : List Row) (names : named claims = some tokenId) :
      AfterRows (.logout token) (.verified claims) (.revokeRefreshToken tokenId revokedAt) rows
        .revoking

/-- The phase after a COMMIT; one that would publish half a rotation is not
allowed. -/
def afterCommit : Phase → Option Phase
  | .registering user => some (.registered user)
  | .opened _ => some .loggedIn
  | .rotated _ _ => some .exchanged
  | .sweeping record => some (.swept record)
  | .revoking => some .revoked
  | _ => none

/-- The phase after an answer. Every exception ends the request except that a
token which does not verify is handled. -/
def After (origin : Request) (phase : Phase) :
    (op : Op Ask Statement) → Except Exn (Answer Reply Row op) → Phase → Prop
  | .ask (.verify _), .error (.app .authentication _), later => later = phase
  | .ask (.verify token), .ok claims, later =>
    phase = .fresh ∧ presentedBy origin = some token ∧ later = .verified claims
  | .ask (.sign _), .ok _, later => later = phase
  | .ask (.hash _), .ok _, later => later = phase
  | .ask (.checkHash _ _), .ok _, later => later = phase
  | .ask .uuid4, .ok _, later => later = phase
  | .ask .now, .ok _, later => later = phase
  | .stmt statement, .ok rows, later => AfterRows origin phase statement rows later
  | .commit, .ok _, later => afterCommit phase = some later
  | _, .error error, later => later = .failed error

/-- The statement changes or selects rows by a key or a unique column. -/
def single : Statement → Bool
  | .revokeRefreshTokenFamily _ _ => false
  | _ => true

/-- What a database answers: the rows a SELECT asks for, and no more than one
where a key selects them. -/
def possible : (op : Op Ask Statement) → Except Exn (Answer Reply Row op) → Prop
  | .stmt statement, .ok rows => (single statement = true → rows.length ≤ 1) ∧
      ∀ wanted, statement.sql = .select wanted → ∀ row ∈ rows, wanted row = true
  | _, _ => True

/-- The request has written rows it has not committed. -/
def writing : Phase → Bool
  | .registering _ | .opened _ | .marked _ _ _ | .rotated _ _ | .sweeping _ | .revoking => true
  | _ => false

/-- The request has done what it was asked to do. -/
def concluded : Request → Phase → Bool
  | .register _ _, .registered _ => true
  | .login _, .loggedIn => true
  | .refresh _, .exchanged => true
  | .logout _, phase => !writing phase
  | _, _ => false

/-- The error responses the API documents for a request. -/
def documented : Request → AppErrorKind → Bool
  | .register _ _, .conflict => true
  | .login _, .invalidCredentials => true
  | .refresh _, .invalidCredentials => true
  | .refresh _, .refreshReuseDetected => true
  | _, _ => false

/-- An error the request itself decides on. -/
inductive Raises (origin : Request) : Phase → Exn → Prop where
  | documented (phase : Phase) (kind : AppErrorKind) (detail : Option Str)
      (known : documented origin kind = true) (idle : writing phase = false)
      (reuse : kind = .refreshReuseDetected → ∃ record, phase = .swept record) :
      Raises origin phase (.app kind detail)
  | malformed (claims : Claims) (error : Exn) (bad : Malformed claims)
      (builtin : error = .valueError ∨ error = .attributeError) :
      Raises origin (.verified claims) error
  | nameless (user : UserRow) (empty : user.email = []) :
      Raises origin (.registered user) .valueError

/-- The results a request may end with. -/
def ends (origin : Request) (phase : Phase) : Except Exn Response → Prop
  | .ok _ => concluded origin phase = true
  | .error error => phase = .failed error ∨ Raises origin phase error

def discipline (origin : Request) :
    Discipline (Op Ask Statement) (Answer Reply Row) Exn Response Phase :=
  { possible, after := After origin, ends := ends origin }

section Rules

variable {origin : Request} {phase : Phase} {β : Type}

theorem follows_ask {question : Ask} {rest : Reply question → Service Response}
    (total : ∀ token, question ≠ .verify token)
    (answers : ∀ value, (discipline origin).Follows phase (rest value)) :
    (discipline origin).Follows phase (ask question >>= rest) := by
  intro answer _
  cases answer with
  | error error =>
    refine ⟨.failed error, ?_, .inl rfl⟩
    cases question with
    | verify token => exact absurd rfl (total token)
    | _ => rfl
  | ok value =>
    refine ⟨phase, ?_, answers value⟩
    cases question with
    | verify token => exact absurd rfl (total token)
    | _ => rfl

theorem follows_stmt {statement : Statement} {rest : List Row → Service Response}
    (answers : ∀ rows, possible (.stmt statement) (.ok rows) →
      ∃ later, AfterRows origin phase statement rows later ∧
        (discipline origin).Follows later (rest rows)) :
    (discipline origin).Follows phase (execute statement >>= rest) := by
  intro answer possible
  cases answer with
  | error error => exact ⟨.failed error, rfl, .inl rfl⟩
  | ok rows => exact answers rows possible

theorem follows_commit {rest : Unit → Service Response} {later : Phase}
    (allowed : afterCommit phase = some later)
    (answers : (discipline origin).Follows later (rest ())) :
    (discipline origin).Follows phase (commit >>= rest) := by
  intro answer _
  cases answer with
  | error error => exact ⟨.failed error, rfl, .inl rfl⟩
  | ok value => exact ⟨later, allowed, answers⟩

theorem follows_raiseIf {condition : Bool} {error : Exn} {rest : Unit → Service Response}
    (raises : condition = true → Raises origin phase error)
    (passes : condition = false → (discipline origin).Follows phase (rest ())) :
    (discipline origin).Follows phase (Program.raiseIf condition error >>= rest) := by
  cases condition with
  | true => exact .inr (raises rfl)
  | false => exact passes rfl

/-- At most one row is read as that row or none. -/
theorem scalar_of_single {β : Type} {rows : List Row} (one : rows.length ≤ 1) (read : Row → Option β)
    (rest : Option β → Service Response) :
    (scalarOneOrNone (rows.filterMap read) >>= rest) = rest (rows.head?.bind read) := by
  match rows, one with
  | [], _ => rfl
  | [row], _ =>
    cases found : read row <;> simp [found, scalarOneOrNone]

/-- A statement that answers with at most one row. -/
theorem follows_single {statement : Statement} {read : Row → Option β}
    {rest : Option β → Service Response} (by_key : single statement = true)
    (absent : ∃ later, AfterRows origin phase statement [] later ∧
      (discipline origin).Follows later (rest none))
    (present : ∀ row, (∀ wanted, statement.sql = .select wanted → wanted row = true) →
      ∃ later, AfterRows origin phase statement [row] later ∧
        (discipline origin).Follows later (rest (read row))) :
    (discipline origin).Follows phase
      (execute statement >>= fun rows => scalarOneOrNone (rows.filterMap read) >>= rest) := by
  refine follows_stmt fun rows ⟨most, selected⟩ => ?_
  have one := most by_key
  rw [scalar_of_single one]
  match rows, one, selected with
  | [], _, _ => exact absent
  | [row], _, selected =>
    refine present row fun wanted sql => ?_
    exact selected wanted sql row List.mem_cons_self

private theorem follows_orFresh {given : Option UUID} {rest : UUID → Service Response}
    (answers : ∀ id, (∀ known, given = some known → id = known) →
      (discipline origin).Follows phase (rest id)) :
    (discipline origin).Follows phase (AuthService.orFresh given >>= rest) := by
  cases given with
  | some id =>
    refine answers id fun known same => ?_
    exact Option.some.inj same
  | none => exact follows_ask (fun _ => by simp) fun id => answers id fun _ never => by cases never

/-- Issuing tokens inserts one unrevoked row that nothing replaces. -/
theorem follows_issueTokens {service : AuthService} {user : UserRow}
    {familyId tokenId : Option UUID} {rest : AccessToken × RefreshToken → Service Response}
    (answers : ∀ row tokens rows, row.userId = user.id → row.revokedAt = none →
      row.replacedBy = none → (∀ known, familyId = some known → row.familyId = known) →
      (∀ known, tokenId = some known → row.id = known) →
      ∃ later, AfterRows origin phase (.insertRefreshToken row) rows later ∧
        (discipline origin).Follows later (rest tokens)) :
    (discipline origin).Follows phase (service.issueTokens user familyId tokenId >>= rest) := by
  simp only [AuthService.issueTokens, Program.bind_assoc]
  refine follows_ask (fun _ => by simp) fun now => ?_
  refine follows_orFresh fun family family_known => ?_
  refine follows_orFresh fun id id_known => ?_
  refine follows_ask (fun _ => by simp) fun access => ?_
  refine follows_ask (fun _ => by simp) fun token => ?_
  refine follows_ask (fun _ => by simp) fun hash => ?_
  simp only [insertRefreshToken, Program.bind_assoc]
  refine follows_stmt fun rows _ => ?_
  exact answers _ _ rows rfl rfl rfl family_known id_known

end Rules

section Requests

variable {service : AuthService} {phase : Phase}

private theorem refuses {origin : Request} (detail : Option String)
    (known : documented origin .invalidCredentials = true) (idle : writing phase = false) :
    Raises origin phase (invalidCredentialsError detail) :=
  .documented phase .invalidCredentials _ known idle (fun never => by cases never)

private theorem follows_register (email password : Str) {rest : AuthenticatedUser → Service Response}
    (ends : ∀ user result, (discipline (.register email password)).Follows (.registered user)
      (rest result)) :
    (discipline (.register email password)).Follows .fresh
      (AuthService.register email password >>= rest) := by
  simp only [AuthService.register, Program.bind_assoc, getUserByEmail]
  have inserts : (discipline (.register email password)).Follows .fresh
      (uuid4 >>= fun userId => hashPassword password >>= fun passwordHash =>
        clockNow >>= fun createdAt =>
          insertUser { id := userId, email, passwordHash, createdAt, tenantId := none, disabled := false }
            >>= fun userRecord => commit >>= fun _ =>
              Program.ofExcept (AuthenticatedUser.new userRecord.id.toStr userRecord.email
                ((optionalId userRecord.tenantId).getD []) [str "user"]) >>= rest) := by
    refine follows_ask (fun _ => by simp) fun userId => ?_
    refine follows_ask (fun _ => by simp) fun passwordHash => ?_
    refine follows_ask (fun _ => by simp) fun createdAt => ?_
    simp only [insertUser, Program.bind_assoc]
    refine follows_stmt fun rows _ => ⟨_, .registered _ _ _ rows rfl, ?_⟩
    refine follows_commit rfl ?_
    simp only [AuthenticatedUser.new]
    split
    · exact ends _ _
    · rename_i empty
      exact .inr (.nameless _ (stored255_eq_nil.mpr (by simpa using empty)))
  have conflict : ∀ detail, Raises (.register email password) .fresh (conflictError detail) :=
    fun detail => .documented _ .conflict _ rfl rfl (fun never => by cases never)
  refine follows_single rfl ⟨_, .looked _ _ _ _, ?_⟩ fun row _ => ⟨_, .looked _ _ _ _, ?_⟩
  · exact follows_raiseIf (fun _ => conflict _) fun _ => inserts
  · exact follows_raiseIf (fun _ => conflict _) fun _ => inserts

private theorem follows_login (creds : Credentials)
    {rest : AccessToken × RefreshToken → Service Response}
    (ends : ∀ tokens, (discipline (.login creds)).Follows .loggedIn (rest tokens)) :
    (discipline (.login creds)).Follows .fresh (service.login creds >>= rest) := by
  simp only [AuthService.login, Program.bind_assoc, getUserByEmail]
  refine follows_single rfl ⟨_, .unknown _ _ _, .inr (refuses _ rfl rfl)⟩ fun row _ => ?_
  cases row with
  | refreshToken row => exact ⟨_, .unknown _ _ _, .inr (refuses _ rfl rfl)⟩
  | user user =>
    refine ⟨_, .found _ _ user, ?_⟩
    simp only [Row.user?, Program.bind_assoc]
    refine follows_raiseIf (fun _ => refuses _ rfl rfl) fun _ => ?_
    refine follows_ask (fun _ => by simp) fun verified => ?_
    refine follows_raiseIf (fun _ => refuses _ rfl rfl) fun _ => ?_
    refine follows_issueTokens fun row tokens rows owner unrevoked current _ _ => ?_
    refine ⟨_, .opened _ _ row rows owner unrevoked current, ?_⟩
    exact follows_commit rfl (ends tokens)

private theorem follows_revokeReused (token : Str) (tokenRecord : RefreshTokenRow)
    {rest : AccessToken × RefreshToken → Service Response} :
    (discipline (.refresh token)).Follows (.seen tokenRecord)
      (AuthService.revokeReused tokenRecord >>= rest) := by
  simp only [AuthService.revokeReused, Program.bind_assoc, revokeRefreshTokenFamily]
  refine follows_ask (fun _ => by simp) fun revokedAt => ?_
  refine follows_stmt fun rows _ => ⟨_, .swept _ _ _ rows, ?_⟩
  refine follows_commit rfl (.inr ?_)
  exact .documented _ .refreshReuseDetected none rfl rfl fun _ => ⟨tokenRecord, rfl⟩

private theorem follows_exchange (token : Str) (tokenRecord : RefreshTokenRow)
    {rest : AccessToken × RefreshToken → Service Response}
    (ends : ∀ tokens, (discipline (.refresh token)).Follows .exchanged (rest tokens)) :
    (discipline (.refresh token)).Follows (.seen tokenRecord)
      (service.exchange tokenRecord >>= rest) := by
  simp only [AuthService.exchange, Program.bind_assoc, getUserById, markRefreshTokenReplaced]
  refine follows_raiseIf (fun _ => refuses _ rfl rfl) fun _ => ?_
  refine follows_ask (fun _ => by simp) fun checkedAt => ?_
  refine follows_raiseIf (fun _ => refuses _ rfl rfl) fun _ => ?_
  refine follows_single rfl ⟨_, .orphaned _ _ _ _, .inr (refuses _ rfl rfl)⟩ fun row _ => ?_
  cases row with
  | refreshToken row => exact ⟨_, .orphaned _ _ _ _, .inr (refuses _ rfl rfl)⟩
  | user user =>
    refine ⟨_, .cleared _ _ user, ?_⟩
    simp only [Row.user?, Program.bind_assoc]
    refine follows_raiseIf (fun _ => refuses _ rfl rfl) fun _ => ?_
    refine follows_ask (fun _ => by simp) fun newTokenId => ?_
    refine follows_ask (fun _ => by simp) fun now => ?_
    have issues : (discipline (.refresh token)).Follows (.marked tokenRecord user newTokenId)
        (service.issueTokens user (some tokenRecord.familyId) (some newTokenId) >>= fun tokens =>
          commit >>= fun _ => rest tokens) := by
      refine follows_issueTokens fun row tokens rows owner unrevoked current family id => ?_
      obtain rfl := id _ rfl
      refine ⟨_, .rotated _ _ _ row rows owner (family _ rfl) unrevoked current, ?_⟩
      exact follows_commit rfl (ends tokens)
    exact follows_single rfl ⟨_, .marked _ _ user _ _ _, issues⟩
      fun _ _ => ⟨_, .marked _ _ user _ _ _, issues⟩

private theorem named_of_text {claims : Claims} {text : Str} (jti : claims.get "jti" = .str text) :
    named claims = UUID.ofStr text := by
  rw [named, jti]

/-- The token a request acts on is the one its claims name. -/
private theorem follows_parseUuid {origin : Request} {claims : Claims}
    {rest : UUID → Service Response} (typ : (claims.get "typ").isStr (str "refresh") = true)
    (jti : (claims.get "jti").truthy = true)
    (answers : ∀ id, named claims = some id →
      (discipline origin).Follows (.verified claims) (rest id)) :
    (discipline origin).Follows (.verified claims) (parseUuid (claims.get "jti") >>= rest) := by
  have bad : named claims = none → ∀ error, error = .valueError ∨ error = .attributeError →
      Raises origin (.verified claims) error :=
    fun unnamed error builtin => .malformed claims error ⟨typ, jti, unnamed⟩ builtin
  cases value : claims.get "jti" with
  | str text =>
    cases read : UUID.ofStr text with
    | some id =>
      simp only [parseUuid, uuidOf, read, Program.ofExcept_ok, Program.ret_bind]
      exact answers id ((named_of_text value).trans read)
    | none =>
      simp only [parseUuid, uuidOf, read, Program.ofExcept_error, Program.raise_bind]
      exact .inr (bad ((named_of_text value).trans read) _ (.inl rfl))
  | _ =>
    simp only [parseUuid, uuidOf, Program.ofExcept_error, Program.raise_bind]
    exact .inr (bad (by rw [named, value]) _ (.inr rfl))

/-- The presented token verifies, is refused, or the request ends. -/
private theorem follows_verified {origin : Request} {token : Str} {β : Type} {accept : Claims → β}
    {handler : Exn → Service β} {rest : β → Service Response}
    (presents : presentedBy origin = some token)
    (refused : ∀ detail, (discipline origin).Follows .fresh
      (handler (.app .authentication detail) >>= rest))
    (raised : ∀ error, (∀ detail, error ≠ .app .authentication detail) →
      handler error = .raise error)
    (verifies : ∀ claims, (discipline origin).Follows (.verified claims) (rest (accept claims))) :
    (discipline origin).Follows .fresh
      ((verifyToken token >>= fun claims => .ret (accept claims)).handle handler >>= rest) := by
  intro answer _
  cases answer with
  | ok claims => exact ⟨.verified claims, ⟨rfl, presents, rfl⟩, verifies claims⟩
  | error error =>
    by_cases known : ∃ detail, error = .app .authentication detail
    · obtain ⟨detail, rfl⟩ := known
      exact ⟨.fresh, rfl, refused detail⟩
    · have other : ∀ detail, error ≠ .app .authentication detail :=
        fun detail same => known ⟨detail, same⟩
      refine ⟨.failed error, ?_, ?_⟩
      · simp only [discipline, After]
        split <;> simp_all
      · have ended : (discipline origin).Follows (.failed error) (handler error >>= rest) := by
          rw [raised error other]
          exact .inl rfl
        exact ended

private theorem follows_refresh (token : Str)
    {rest : AccessToken × RefreshToken → Service Response}
    (ends : ∀ tokens, (discipline (.refresh token)).Follows .exchanged (rest tokens)) :
    (discipline (.refresh token)).Follows .fresh (service.refresh token >>= rest) := by
  rw [AuthService.refresh, ← Program.bind_ret (verifyToken token), Program.bind_assoc]
  refine follows_verified rfl (fun _ => .inr (refuses _ rfl rfl)) (fun error other => ?_) fun claims => ?_
  · split
    · exact absurd rfl (other _)
    · rfl
  simp only [AuthService.presentedToken, Program.bind_assoc, getRefreshTokenById]
  refine follows_raiseIf (fun _ => refuses _ rfl rfl) fun typ => ?_
  refine follows_raiseIf (fun _ => refuses _ rfl rfl) fun jti => ?_
  refine follows_parseUuid (by simpa using typ) (by simpa using jti) fun id names => ?_
  refine follows_single rfl ⟨_, .missed _ _ _ _, .inr (refuses _ rfl rfl)⟩ fun row _ => ?_
  cases row with
  | user user => exact ⟨_, .missed _ _ _ _, .inr (refuses _ rfl rfl)⟩
  | refreshToken tokenRecord =>
    refine ⟨_, .read _ _ _ tokenRecord names, ?_⟩
    simp only [Row.refreshToken?, Program.bind_assoc]
    refine follows_ask (fun _ => by simp) fun matched => ?_
    refine follows_raiseIf (fun _ => refuses _ rfl rfl) fun _ => ?_
    split
    · exact follows_revokeReused token tokenRecord
    · exact follows_exchange token tokenRecord ends

private theorem follows_logout (token : Str) {rest : Unit → Service Response}
    (ends : ∀ phase, writing phase = false →
      (discipline (.logout token)).Follows phase (rest ())) :
    (discipline (.logout token)).Follows .fresh (AuthService.logout token >>= rest) := by
  rw [AuthService.logout, Program.bind_assoc]
  refine follows_verified rfl (fun _ => ends _ rfl) (fun error other => ?_) fun claims => ?_
  · split
    · exact absurd rfl (other _)
    · rfl
  simp only [AuthService.revokePresented]
  split
  · exact ends _ rfl
  · rename_i typ
    split
    · exact ends _ rfl
    · rename_i jti
      simp only [Program.bind_assoc, revokeRefreshToken]
      refine follows_parseUuid (by simpa using typ) (by simpa using jti) fun id names => ?_
      refine follows_ask (fun _ => by simp) fun revokedAt => ?_
      have closes : (discipline (.logout token)).Follows .revoking (commit >>= rest) :=
        follows_commit rfl (ends _ rfl)
      exact follows_single rfl ⟨_, .revoked _ _ _ _ _ names, closes⟩
          fun _ _ => ⟨_, .revoked _ _ _ _ _ names, closes⟩

/-- **Every request follows its discipline**, whatever its ports and the
database answer and wherever they fail. -/
theorem serve_follows (service : AuthService) (origin : Request) :
    (discipline origin).Follows .fresh (serve service origin) := by
  cases origin with
  | register email password => exact follows_register email password fun _ _ => rfl
  | login creds => exact follows_login creds fun _ => rfl
  | refresh token => exact follows_refresh token fun _ => rfl
  | logout token =>
    refine follows_logout token fun phase idle => ?_
    have ended : concluded (.logout token) phase = true := by simp [concluded, idle]
    exact ended

end Requests

end BackendFoundation.AuthDiscipline
