import BackendFoundation.AuthPersistence

/-! `app/auth/service.py`: register, login, refresh and logout as programs over
the ports and the persistence helpers, in the order of the source. Logging is
left out. -/
namespace BackendFoundation.AuthPrograms
open PythonValues RequestPrograms ReadCommitted AuthPersistence

structure Credentials where
  username : Str
  password : Str

structure AccessToken where
  token : Str
  expiresAt : DateTime
  deriving DecidableEq

structure RefreshToken where
  token : Str
  expiresAt : DateTime
  deriving DecidableEq

/-- An authenticated user. `__post_init__` refuses an empty email. -/
structure AuthenticatedUser where
  userId : Str
  email : Str
  tenantId : Str
  scopes : List Str
  email_nonempty : email ≠ []

def AuthenticatedUser.new (userId email tenantId : Str) (scopes : List Str) :
    Except Exn AuthenticatedUser :=
  if nonempty : email ≠ [] then .ok ⟨userId, email, tenantId, scopes, nonempty⟩
  else .error .valueError

def conflictError (detail : Str) : Exn := .app .conflict (some detail)

def invalidCredentialsError (detail : Option String := none) : Exn :=
  .app .invalidCredentials (detail.map str)

def refreshReuseDetectedError : Exn := .app .refreshReuseDetected none

/-- `UUID(value)` of a claim's value. -/
def uuidOf : Json → Except Exn UUID
  | .str text =>
    match UUID.ofStr text with
    | some id => .ok id
    | none => .error .valueError
  | _ => .error .attributeError

def parseUuid (value : Json) : Service UUID := Program.ofExcept (uuidOf value)

/-- `str(tenant_id) if tenant_id else default`. -/
def optionalId (id : Option UUID) : Option Str := id.map UUID.toStr

/-- The configuration of an `AuthService`; its session, ports and clock are
what its programs ask. -/
structure AuthService where
  accessTokenExpiresMinutes : Int := 15
  refreshTokenExpiresDays : Int := 7

namespace AuthService

variable (service : AuthService)

def accessClaims (user : UserRow) (now accessExpires : DateTime) : Claims :=
  [(str "sub", .str user.id.toStr),
    (str "email", .str user.email),
    (str "tenant_id", ((optionalId user.tenantId).map Json.str).getD .null),
    (str "typ", .str (str "access")),
    (str "active", .bool (!user.disabled)),
    (str "exp", .int (timestamp accessExpires)),
    (str "iat", .int (timestamp now)),
    (str "scopes", .arr [.str (str "user")])]

def refreshClaims (user : UserRow) (tokenId : UUID) (now refreshExpires : DateTime) : Claims :=
  [(str "sub", .str user.id.toStr),
    (str "jti", .str tokenId.toStr),
    (str "typ", .str (str "refresh")),
    (str "exp", .int (timestamp refreshExpires)),
    (str "iat", .int (timestamp now))]

/-- An argument that defaults to a fresh `uuid4()`. -/
def orFresh : Option UUID → Service UUID
  | some id => .ret id
  | none => uuid4

def issueTokens (user : UserRow) (familyId tokenId : Option UUID := none) :
    Service (AccessToken × RefreshToken) := do
  let now ← clockNow
  let accessExpires := now + minutes service.accessTokenExpiresMinutes
  let refreshExpires := now + days service.refreshTokenExpiresDays
  let familyId ← orFresh familyId
  let tokenId ← orFresh tokenId
  let accessTokenStr ← signClaims (accessClaims user now accessExpires)
  let refreshTokenStr ← signClaims (refreshClaims user tokenId now refreshExpires)
  let refreshTokenHash ← hashPassword refreshTokenStr
  let _ ← insertRefreshToken
    { id := tokenId, userId := user.id, familyId, hash := refreshTokenHash
      issuedAt := now, expiresAt := refreshExpires, revokedAt := none, replacedBy := none }
  return (⟨accessTokenStr, accessExpires⟩, ⟨refreshTokenStr, refreshExpires⟩)

def register (email password : Str) : Service AuthenticatedUser := do
  let existing ← getUserByEmail email
  Program.raiseIf existing.isSome
    (conflictError (str "User with email " ++ email ++ str " already exists"))
  let userId ← uuid4
  let passwordHash ← hashPassword password
  let createdAt ← clockNow
  let userRecord ← insertUser
    { id := userId, email, passwordHash, createdAt, tenantId := none, disabled := false }
  commit
  Program.ofExcept (AuthenticatedUser.new userRecord.id.toStr userRecord.email
    ((optionalId userRecord.tenantId).getD []) [str "user"])

def login (creds : Credentials) : Service (AccessToken × RefreshToken) := do
  let some user ← getUserByEmail creds.username | .raise invalidCredentialsError
  Program.raiseIf user.disabled invalidCredentialsError
  let verified ← verifyPassword creds.password user.passwordHash
  Program.raiseIf (!verified) invalidCredentialsError
  let tokens ← service.issueTokens user
  commit
  return tokens

/-- The branch of `refresh` that found the presented token already exchanged. -/
def revokeReused (tokenRecord : RefreshTokenRow) : Service (AccessToken × RefreshToken) := do
  let revokedAt ← clockNow
  let _ ← revokeRefreshTokenFamily tokenRecord.familyId revokedAt
  commit
  .raise refreshReuseDetectedError

/-- The rest of `refresh`: the token is exchanged for its successor. The old row
is marked before the new one is inserted, as the partial unique index requires. -/
def exchange (tokenRecord : RefreshTokenRow) : Service (AccessToken × RefreshToken) := do
  Program.raiseIf tokenRecord.revokedAt.isSome (invalidCredentialsError "Refresh token revoked")
  let checkedAt ← clockNow
  Program.raiseIf (tokenRecord.expiresAt < checkedAt)
    (invalidCredentialsError "Refresh token expired")
  let some user ← getUserById tokenRecord.userId | .raise invalidCredentialsError
  Program.raiseIf user.disabled invalidCredentialsError
  let newTokenId ← uuid4
  let now ← clockNow
  let _ ← markRefreshTokenReplaced tokenRecord.id newTokenId now
  let tokens ← service.issueTokens user tokenRecord.familyId newTokenId
  commit
  return tokens

/-- The checks of `refresh` on the claims: the id of the presented token. -/
def presentedToken (claims : Claims) : Service UUID := do
  Program.raiseIf (!(claims.get "typ").isStr (str "refresh"))
    (invalidCredentialsError "Invalid token type")
  Program.raiseIf (!(claims.get "jti").truthy)
    (invalidCredentialsError "Invalid refresh token claims")
  parseUuid (claims.get "jti")

def refresh (refreshTokenString : Str) : Service (AccessToken × RefreshToken) := do
  let claims ← (verifyToken refreshTokenString).handle fun
    | .app .authentication _ => .raise (invalidCredentialsError "Invalid refresh token")
    | error => .raise error
  let tokenId ← presentedToken claims
  let some tokenRecord ← getRefreshTokenById tokenId
    | .raise (invalidCredentialsError "Refresh token not found")
  let matched ← verifyPassword refreshTokenString tokenRecord.hash
  Program.raiseIf (!matched) (invalidCredentialsError "Invalid refresh token hash")
  if tokenRecord.revokedAt.isSome && tokenRecord.replacedBy.isSome then revokeReused tokenRecord
  else service.exchange tokenRecord

/-- `logout` after its token has verified. -/
def revokePresented (claims : Claims) : Service Unit :=
  if !(claims.get "typ").isStr (str "refresh") then .ret ()
  else if !(claims.get "jti").truthy then .ret ()
  else do
    let tokenId ← parseUuid (claims.get "jti")
    let revokedAt ← clockNow
    let _ ← revokeRefreshToken tokenId revokedAt
    commit

def logout (refreshTokenString : Str) : Service Unit := do
  let claims ← (verifyToken refreshTokenString >>= fun claims => .ret (some claims)).handle fun
    | .app .authentication _ => .ret none
    | error => .raise error
  match claims with
  | some claims => revokePresented claims
  | none => .ret ()

end AuthService

/-- The requests the service answers. -/
inductive Request where
  | register (email password : Str)
  | login (creds : Credentials)
  | refresh (refreshTokenString : Str)
  | logout (refreshTokenString : Str)

inductive Response where
  | registered (user : AuthenticatedUser)
  | tokens (access : AccessToken) (refresh : RefreshToken)
  | done

/-- Each request in the terms of the service's methods. -/
def serve (service : AuthService) : Request → Service Response
  | .register email password => do
    return .registered (← AuthService.register email password)
  | .login creds => do
    let (access, refresh) ← service.login creds
    return .tokens access refresh
  | .refresh token => do
    let (access, refresh) ← service.refresh token
    return .tokens access refresh
  | .logout token => do
    AuthService.logout token
    return .done

end BackendFoundation.AuthPrograms
