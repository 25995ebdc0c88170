import BackendFoundation.AuthPrograms
import BackendFoundation.TokenSigning

/-! What stands between the auth service and a client: the providers of
`app/auth/deps.py`, the policies they apply, and the responses of
`app/auth/api.py`. -/
namespace BackendFoundation.AuthEdge
open PythonValues RequestPrograms AuthPersistence AuthPrograms TokenSigning

/-- The lifetimes of `settings.jwt`. -/
structure Jwt where
  accessTtlSeconds : Int := 900
  refreshTtlSeconds : Int := 60 * 60 * 24 * 14

/-- What the providers read of the container: the settings, and which ports are
wired. A wired port answers as the request's world does. -/
structure Container where
  jwt : Jwt
  passwordHasher : Bool := true
  tokenSigner : Bool := true
  clock : Bool := true

def wiringError (detail : String) : Exn := .app .wiring (some (str detail))

def getAuthService (container : Container) : Except Exn AuthService :=
  if !container.passwordHasher then .error (wiringError "PasswordHasher not wired in container")
  else if !container.tokenSigner then .error (wiringError "TokenSigner not wired in container")
  else if !container.clock then .error (wiringError "Clock not wired in container")
  else .ok
    { accessTokenExpiresMinutes := container.jwt.accessTtlSeconds / 60
      refreshTokenExpiresDays := container.jwt.refreshTtlSeconds / (60 * 60 * 24) }

/-! ## The current user -/

/-- The `AuthenticatedUser` that claims describe. Only its constructor's check is
made: the email is any true value, and the scopes are the elements of the set. -/
structure Principal where
  userId : Str
  email : Json
  tenantId : Str
  scopes : List Json
  email_truthy : email.truthy = true

def hashable : Json → Bool
  | .arr _ => false
  | .obj _ => false
  | _ => true

/-- `frozenset(value)`: the characters of a string, the keys of an object. -/
def frozenset : Json → Except Exn (List Json)
  | .str text => .ok (text.map fun c => .str [c])
  | .arr items => if items.all hashable then .ok items else .error .typeError
  | .obj fields => .ok (fields.map fun field => .str field.1)
  | _ => .error .typeError

def requireAuthenticated {α : Type} : Option α → Except Exn α
  | none => .error (authenticationError (str "Not authenticated"))
  | some user => .ok user

def requireActiveUser {α : Type} (user : α) (active : Json) : Except Exn α :=
  if !active.truthy then .error (authenticationError (str "User is disabled")) else .ok user

/-- `TenantId(str(UUID(value))) if value else TenantId("")`. -/
def tenantOf (value : Json) : Except Exn Str :=
  if value.truthy then UUID.toStr <$> uuidOf value else .ok []

/-- `claims.get("scopes", [])`. -/
def scopesOf (claims : Claims) : Json := (claims.lookup (str "scopes")).getD (.arr [])

/-- `get_current_user` once the token has verified. -/
def userOfClaims (claims : Claims) : Except Exn Principal :=
  if !(claims.get "typ").isStr (str "access") then
    .error (authenticationError (str "Invalid token type"))
  else if !(claims.get "sub").truthy then
    .error (authenticationError (str "Invalid token claims: missing sub"))
  else if present : (claims.get "email").truthy then do
    let userId ← uuidOf (claims.get "sub")
    let tenantId ← tenantOf (claims.get "tenant_id")
    let scopes ← frozenset (scopesOf claims)
    let user ← requireAuthenticated
      (some ⟨userId.toStr, claims.get "email", tenantId, scopes, present⟩)
    requireActiveUser user (claims.get "active")
  else .error (authenticationError (str "Invalid token claims: missing email"))

/-- `get_current_user` with the credentials of the Authorization header. -/
def getCurrentUser (container : Container) (tick : World) (authCreds : Option Str) :
    Except Exn Principal :=
  match authCreds with
  | none => requireAuthenticated none
  | some token =>
    if !container.tokenSigner then .error (wiringError "TokenSigner not wired in container")
    else match tick.answer (.verify token) with
      | .error (.app .authentication detail) => .error (.app .authentication detail)
      | .error _ => .error (authenticationError (str "Invalid token"))
      | .ok claims => userOfClaims claims

section Tokens

variable {container : Container} {tick : World} {token : Str}

theorem getCurrentUser_verified {claims : Claims} (wired : container.tokenSigner = true)
    (verified : tick.answer (.verify token) = .ok claims) :
    getCurrentUser container tick (some token) = userOfClaims claims := by
  simp only [getCurrentUser, wired, verified]
  rfl

theorem getCurrentUser_refused {detail : Option Str} (wired : container.tokenSigner = true)
    (refused : tick.answer (.verify token) = .error (.app .authentication detail)) :
    getCurrentUser container tick (some token) = .error (.app .authentication detail) := by
  simp only [getCurrentUser, wired, refused]
  rfl

end Tokens

/-! ## The routes -/

structure TokenResponse where
  accessToken : Str
  refreshToken : Str
  tokenType : Str := str "Bearer"
  expiresIn : Int

/-- What the client is told of the access token's lifetime, at the time `now`. -/
def expiresIn (accessToken : AccessToken) (now : DateTime) : Int :=
  max 0 (intSeconds (accessToken.expiresAt - now))

/-- The routes answer with the issued tokens and read the clock once more. -/
def tokenResponse (issued : Service (AccessToken × RefreshToken)) : Service TokenResponse := do
  let (accessToken, refreshToken) ← issued
  let now ← clockNow
  return { accessToken := accessToken.token, refreshToken := refreshToken.token
           expiresIn := expiresIn accessToken now }

def login (service : AuthService) (creds : Credentials) : Service TokenResponse :=
  tokenResponse (service.login creds)

def refresh (service : AuthService) (refreshToken : Str) : Service TokenResponse :=
  tokenResponse (service.refresh refreshToken)

end BackendFoundation.AuthEdge
