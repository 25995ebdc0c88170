import BackendFoundation.PythonValues
import BackendFoundation.ReadCommitted

/-! `app/auth/persistence.py` over the tables of migration `0002_auth`: the two
tables with their constraints, the SQL behind each helper, and the helpers as
programs that execute one statement each. -/
namespace BackendFoundation.AuthPersistence
open PythonValues KeyedTables RequestPrograms ReadCommitted

/-- The `AppError` subclasses the auth module raises or catches. -/
inductive AppErrorKind where
  | conflict
  | authentication
  | invalidCredentials
  | refreshReuseDetected
  | wiring
  deriving DecidableEq, Repr

/-- An exception: an `AppError` with its detail, a builtin one, one of the
database driver, or any other that a port raises. -/
inductive Exn where
  | app (kind : AppErrorKind) (detail : Option Str)
  | valueError
  | typeError
  | attributeError
  | multipleResultsFound
  | db (error : DbError)
  | other (tag : ℕ)
  deriving DecidableEq

/-- A row of `users`; `UserAuthRecord` has the same fields. -/
structure UserRow where
  id : UUID
  email : Str
  passwordHash : Str
  createdAt : DateTime
  tenantId : Option UUID
  disabled : Bool
  deriving DecidableEq

/-- A row of `refresh_tokens`; `RefreshTokenRecord` has the same fields. -/
structure RefreshTokenRow where
  id : UUID
  userId : UUID
  familyId : UUID
  hash : Str
  issuedAt : DateTime
  expiresAt : DateTime
  revokedAt : Option DateTime
  replacedBy : Option UUID
  deriving DecidableEq

inductive Row where
  | user (row : UserRow)
  | refreshToken (row : RefreshTokenRow)
  deriving DecidableEq

inductive Key where
  | user (id : UUID)
  | refreshToken (id : UUID)
  deriving DecidableEq

namespace Row

def key : Row → Key
  | .user row => .user row.id
  | .refreshToken row => .refreshToken row.id

def user? : Row → Option UserRow
  | .user row => some row
  | .refreshToken _ => none

def refreshToken? : Row → Option RefreshTokenRow
  | .user _ => none
  | .refreshToken row => some row

/-- `ix_users_email`, `ix_refresh_tokens_hash` and the partial unique index
`ix_refresh_tokens_family_active`. -/
def clash : Row → Row → Bool
  | .user left, .user right => left.email == right.email
  | .refreshToken left, .refreshToken right =>
    left.hash == right.hash ||
      (left.familyId == right.familyId && left.replacedBy.isNone && right.replacedBy.isNone)
  | _, _ => false

/-- The assignments of an UPDATE of `refresh_tokens`. -/
def mapToken (set : RefreshTokenRow → RefreshTokenRow) : Row → Row
  | .user row => .user row
  | .refreshToken row => .refreshToken (set row)

end Row

/-- The constraints of migration `0002_auth`. -/
def schema : Schema Row Key where
  key := Row.key
  clash := Row.clash
  clash_symm := by
    intro left right
    cases left <;> cases right <;> simp only [Row.clash]
    · exact Bool.beq_comm
    · rw [Bool.beq_comm (a := RefreshTokenRow.hash _), Bool.beq_comm (a := RefreshTokenRow.familyId _),
        Bool.and_right_comm]
  refs
    | .user _ => []
    | .refreshToken row => [.user row.userId]
  deferredRefs
    | .user _ => []
    | .refreshToken row => row.replacedBy.toList.map .refreshToken

abbrev Database := Table schema

/-- The statement each persistence helper executes. -/
inductive Statement where
  | getUserByEmail (email : Str)
  | getUserById (userId : UUID)
  | insertUser (row : UserRow)
  | getRefreshTokenById (tokenId : UUID)
  | insertRefreshToken (row : RefreshTokenRow)
  | markRefreshTokenReplaced (tokenId replacedBy : UUID) (revokedAt : DateTime)
  | revokeRefreshToken (tokenId : UUID) (revokedAt : DateTime)
  | revokeRefreshTokenFamily (familyId : UUID) (revokedAt : DateTime)

/-- A value PostgreSQL accepts for a text parameter. -/
def textParam (s : Str) : Bool := encodable s && !s.contains (chr '\x00')

/-- A value a `String(255)` column takes: beyond its length there may only be blanks. -/
def varchar255 (s : Str) : Bool := textParam s && (s.drop 255).all (· == chr ' ')

/-- The value that the column keeps of it. -/
def stored255 (s : Str) : Str := s.take 255

/-- A value that the column takes and keeps as it is. -/
def fits255 (s : Str) : Bool := textParam s && s.length ≤ 255

theorem fits255_iff {s : Str} : fits255 s = true ↔ varchar255 s = true ∧ s.length ≤ 255 := by
  simp only [fits255, varchar255, Bool.and_eq_true, decide_eq_true_eq]
  refine ⟨fun ⟨text, short⟩ => ⟨⟨text, ?_⟩, short⟩, fun ⟨⟨text, _⟩, short⟩ => ⟨text, short⟩⟩
  rw [List.drop_eq_nil_of_le short]
  rfl

theorem varchar255_of_fits {s : Str} (fits : fits255 s = true) : varchar255 s = true :=
  (fits255_iff.mp fits).1

theorem stored255_of_fits {s : Str} (fits : fits255 s = true) : stored255 s = s :=
  List.take_of_length_le (fits255_iff.mp fits).2

/-- What a column keeps it would take as it is. -/
theorem fits255_stored {s : Str} (taken : varchar255 s = true) : fits255 (stored255 s) = true := by
  simp only [varchar255, textParam, encodable, Bool.and_eq_true, List.all_eq_true,
    Bool.not_eq_true', List.contains_eq_mem, decide_eq_false_iff_not] at taken
  simp only [fits255, textParam, encodable, Bool.and_eq_true, List.all_eq_true, stored255,
    Bool.not_eq_true', List.contains_eq_mem, decide_eq_false_iff_not]
  obtain ⟨⟨scalar, nul⟩, _⟩ := taken
  exact ⟨⟨fun code kept => scalar code (List.mem_of_mem_take kept),
    fun kept => nul (List.mem_of_mem_take kept)⟩, decide_eq_true (List.length_take_le _ _)⟩

@[simp] theorem stored255_eq_nil {s : Str} : stored255 s = [] ↔ s = [] := by
  simp [stored255]

/-- The row that `users` keeps of one it takes. -/
def UserRow.stored (row : UserRow) : UserRow :=
  { row with email := stored255 row.email, passwordHash := stored255 row.passwordHash }

/-- The row that `refresh_tokens` keeps of one it takes. -/
def RefreshTokenRow.stored (row : RefreshTokenRow) : RefreshTokenRow :=
  { row with hash := stored255 row.hash }

/-- An UPDATE of `refresh_tokens` that at most takes rows out of the partial index. -/
def tokenChange (wanted : RefreshTokenRow → Bool) (set : RefreshTokenRow → RefreshTokenRow)
    (frame : ∀ row, (set row).id = row.id ∧ (set row).hash = row.hash ∧
      (set row).familyId = row.familyId ∧ ((set row).replacedBy = none → row.replacedBy = none)) :
    Change schema where
  wanted
    | .user _ => false
    | .refreshToken row => wanted row
  set := Row.mapToken set
  key_set := by
    rintro (row | row)
    · rfl
    · exact congrArg Key.refreshToken (frame row).1
  clash_set := by
    rintro (row | row) (other | other) clashes
    · exact clashes
    · cases clashes
    · cases clashes
    · obtain ⟨_, hash, family, active⟩ := frame row
      simp only [Row.mapToken, schema, Row.clash, hash, family, Bool.or_eq_true,
        Bool.and_eq_true, Option.isNone_iff_eq_none] at clashes ⊢
      exact clashes.imp_right fun ⟨⟨same, free⟩, last⟩ => ⟨⟨same, active free⟩, last⟩

def markReplaced (replacedBy : UUID) (revokedAt : DateTime) (row : RefreshTokenRow) :
    RefreshTokenRow :=
  { row with replacedBy := some replacedBy, revokedAt := some revokedAt }

def markRevoked (revokedAt : DateTime) (row : RefreshTokenRow) : RefreshTokenRow :=
  { row with revokedAt := some revokedAt }

def Statement.sql : Statement → Sql schema
  | .getUserByEmail email =>
    if textParam email then .select fun row => (row.user?.map (·.email == email)).getD false
    else .refused .data
  | .getUserById userId => .select fun row => row.key == .user userId
  | .insertUser row =>
    if varchar255 row.email && varchar255 row.passwordHash then .insert (.user row.stored)
    else .refused .data
  | .getRefreshTokenById tokenId => .select fun row => row.key == .refreshToken tokenId
  | .insertRefreshToken row =>
    if varchar255 row.hash then .insert (.refreshToken row.stored) else .refused .data
  | .markRefreshTokenReplaced tokenId replacedBy revokedAt =>
    .update (tokenChange (·.id == tokenId) (markReplaced replacedBy revokedAt)
      fun _ => ⟨rfl, rfl, rfl, fun never => nomatch never⟩)
  | .revokeRefreshToken tokenId revokedAt =>
    .update (tokenChange (·.id == tokenId) (markRevoked revokedAt) fun _ => ⟨rfl, rfl, rfl, id⟩)
  | .revokeRefreshTokenFamily familyId revokedAt =>
    .update (tokenChange (fun row => row.familyId == familyId && row.revokedAt.isNone)
      (markRevoked revokedAt) fun _ => ⟨rfl, rfl, rfl, id⟩)

def driver : Driver schema Statement Exn where
  sql := Statement.sql
  raised := .db

/-- What the service asks of its ports. -/
inductive Ask where
  | verify (token : Str)
  | sign (claims : Claims)
  | hash (password : Str)
  | checkHash (password passwordHash : Str)
  | uuid4
  | now

abbrev Reply : Ask → Type
  | .verify _ => Claims
  | .sign _ => Str
  | .hash _ => Str
  | .checkHash _ _ => Bool
  | .uuid4 => UUID
  | .now => DateTime

abbrev Service := Program (Op Ask Statement) (Answer Reply Row) Exn

abbrev World := Tick Reply Exn

def ask (question : Ask) : Service (Reply question) := Program.perform (Op.ask question)

/-! The ports: `TokenSigner`, `PasswordHasher`, `Clock`, and `uuid.uuid4`. -/

def verifyToken (token : Str) : Service Claims := ask (.verify token)
def signClaims (claims : Claims) : Service Str := ask (.sign claims)
def hashPassword (password : Str) : Service Str := ask (.hash password)
def verifyPassword (password passwordHash : Str) : Service Bool := ask (.checkHash password passwordHash)
def uuid4 : Service UUID := ask .uuid4
def clockNow : Service DateTime := ask .now

/-! The session. -/

def execute (statement : Statement) : Service (List Row) := Program.perform (Op.stmt statement)

def commit : Service Unit := Program.perform Op.commit

/-- `result.scalar_one_or_none()`. -/
def scalarOneOrNone {S α : Type} : List α → Program (Op Ask S) (Answer Reply Row) Exn (Option α)
  | [] => .ret none
  | [row] => .ret (some row)
  | _ => .raise .multipleResultsFound

def insertUser (row : UserRow) : Service UserRow := do
  let _ ← execute (.insertUser row)
  return row

def getUserById (userId : UUID) : Service (Option UserRow) := do
  scalarOneOrNone ((← execute (.getUserById userId)).filterMap Row.user?)

def getUserByEmail (email : Str) : Service (Option UserRow) := do
  scalarOneOrNone ((← execute (.getUserByEmail email)).filterMap Row.user?)

def insertRefreshToken (row : RefreshTokenRow) : Service RefreshTokenRow := do
  let _ ← execute (.insertRefreshToken row)
  return row

def getRefreshTokenById (tokenId : UUID) : Service (Option RefreshTokenRow) := do
  scalarOneOrNone ((← execute (.getRefreshTokenById tokenId)).filterMap Row.refreshToken?)

def markRefreshTokenReplaced (tokenId replacedBy : UUID) (revokedAt : DateTime) :
    Service (Option RefreshTokenRow) := do
  let rows ← execute (.markRefreshTokenReplaced tokenId replacedBy revokedAt)
  scalarOneOrNone (rows.filterMap Row.refreshToken?)

def revokeRefreshToken (tokenId : UUID) (revokedAt : DateTime) :
    Service (Option RefreshTokenRow) := do
  let rows ← execute (.revokeRefreshToken tokenId revokedAt)
  scalarOneOrNone (rows.filterMap Row.refreshToken?)

def revokeRefreshTokenFamily (familyId : UUID) (revokedAt : DateTime) : Service ℕ := do
  let rows ← execute (.revokeRefreshTokenFamily familyId revokedAt)
  return rows.length

end BackendFoundation.AuthPersistence
