import BackendFoundation.AuthEdge
import BackendFoundation.AuthVerdicts
import BackendFoundation.JsonTexts

/-! From the claims that the service has signed to what the consumers of a token
make of them. The access token of a user is that user to `get_current_user` and
nothing to refresh and logout; a refresh token is nothing to `get_current_user`. -/
namespace BackendFoundation.TokenRoundTrip
open PythonValues KeyedTables RequestPrograms ReadCommitted TransactionLogic
open AuthPersistence AuthPrograms AuthSpecs AuthAtomicity AuthRotation TokenSigning AuthEdge
open JsonTexts

/-! ## Issuing -/

/-- The requests that issue tokens. -/
inductive Grant where
  | login (creds : Credentials)
  | refresh (presented : Str)

def Grant.run (service : AuthService) : Grant → Service (AccessToken × RefreshToken)
  | .login creds => service.login creds
  | .refresh presented => service.refresh presented

/-- The user whom the request identifies. -/
def Grant.identifies (ticks : ℕ → World) (db : Database) (user : UserRow) : Grant → Prop
  | .login creds => user.email = creds.username
  | .refresh presented => ∃ record, Presented ticks db presented record ∧ record.userId = user.id

/-- The two tokens of an enabled user and the row of the second. -/
structure Granted (service : AuthService) (ticks : ℕ → World) (later : ℕ) (user : UserRow)
    (row : RefreshTokenRow) (access : AccessToken) (refresh : RefreshToken) : Prop where
  issued : Issued service ticks user row refresh
  access : AccessIssued service ticks later user row.issuedAt access
  enabled : user.disabled = false

/-- What a request that issues tokens has done. -/
def Grants (service : AuthService) (ticks : ℕ → World) (before : Database) (grant : Grant) :
    Except Exn (AccessToken × RefreshToken) → Database → Prop
  | .error _, _ => True
  | .ok (access, refresh), after => ∃ user row later, Row.user user ∈ before ∧
      grant.identifies ticks before user ∧ Granted service ticks later user row access refresh ∧
      Holds after row

section Issuing

variable {service : AuthService} {ticks : ℕ → World} {before : Database}

/-- A request that issues tokens raises, or grants two to a user. -/
theorem ensures_grant {grant : Grant}
    {post : Except Exn (AccessToken × RefreshToken) → ℕ → Database → Database → Prop}
    (raises : ∀ error later after left, post (.error error) later after left)
    (answers : ∀ user row access refresh later after, Row.user user ∈ before →
      grant.identifies ticks before user → Granted service ticks later user row access refresh →
      Holds after row → post (.ok (access, refresh)) later after (Table.empty schema)) :
    Ensures driver ticks post 0 before (Table.empty schema) (grant.run service) := by
  cases grant with
  | login creds =>
    apply ensures_login
    · exact fun _ _ _ => raises _ _ _ _
    · intro user row access refresh later after member email enabled issued granted inserted
      exact answers user row access refresh later after member email ⟨issued, granted, enabled⟩
        ((inserted _).mpr (.inl rfl))
  | refresh presented =>
    apply ensures_refresh
    · exact fun _ _ _ _ => raises _ _ _ _
    · exact fun _ _ _ _ _ _ _ _ => raises _ _ _ _
    · intro record user row access refresh now later after shown _ known enabled issued granted _ _
        rotated
      obtain ⟨member, owner⟩ := user?_eq_some.mp known
      exact answers user row access refresh later after member ⟨record, shown, owner.symm⟩
        ⟨issued, granted, enabled⟩ ((rotated _).mpr (.inr (.inl rfl)))

theorem ensures_grants (grant : Grant) :
    Ensures driver ticks (fun result _ after _ => Grants service ticks before grant result after)
      0 before (Table.empty schema) (grant.run service) := by
  apply ensures_grant
  · exact fun _ _ _ _ => trivial
  · intro user row access refresh later after member identified granted held
    exact ⟨user, row, later, member, identified, granted, held⟩

end Issuing

/-! ## Payloads -/

section Payloads

variable {signer : JwtSigner} {jwt : PyJwt} {user : UserRow} {tokenId jti : UUID}
variable {now issuedAt expires t : DateTime}

theorem payload_accessClaims :
    signer.payload now jti (AuthService.accessClaims user issuedAt expires) =
      AuthService.accessClaims user issuedAt expires ++ [(str "iss", .str signer.issuer),
        (str "aud", .str signer.audience), (str "jti", .str jti.toStr)] := rfl

theorem decodable_accessClaims :
    Decodable (signer.payload now jti (AuthService.accessClaims user issuedAt expires))
      signer.audience signer.issuer (timestamp expires) (timestamp issuedAt) where
  unique := by
    show [str "sub", str "email", str "tenant_id", str "typ", str "active", str "exp", str "iat",
      str "scopes", str "iss", str "aud", str "jti"].Nodup
    decide
  iss := rfl
  aud := rfl
  exp := rfl
  iat := rfl
  sub := ⟨_, rfl⟩
  jti := ⟨_, rfl⟩
  nbf := rfl

theorem decodable_refreshClaims :
    Decodable (signer.payload now jti (AuthService.refreshClaims user tokenId issuedAt expires))
      signer.audience signer.issuer (timestamp expires) (timestamp issuedAt) where
  unique := by
    show [str "sub", str "jti", str "typ", str "exp", str "iat", str "iss", str "aud"].Nodup
    decide
  iss := rfl
  aud := rfl
  exp := rfl
  iat := rfl
  sub := ⟨_, rfl⟩
  jti := ⟨_, rfl⟩
  nbf := rfl

/-- What `get_current_user` makes of a user. -/
def principalOf (user : UserRow) (nonempty : user.email ≠ []) : Principal where
  userId := user.id.toStr
  email := .str user.email
  tenantId := (optionalId user.tenantId).getD []
  scopes := [.str (str "user")]
  email_truthy := by simpa [Json.truthy] using nonempty

private theorem tenantOf_optionalId (tenantId : Option UUID) :
    tenantOf (((optionalId tenantId).map Json.str).getD .null) =
      .ok ((optionalId tenantId).getD []) := by
  cases tenantId with
  | none => rfl
  | some id =>
    have truthy : (Json.str id.toStr).truthy = true := by
      simpa [Json.truthy] using id.toStr_ne_nil
    simp only [optionalId, Option.map_some, Option.getD_some, tenantOf, if_pos truthy, uuidOf,
      UUID.ofStr_toStr]
    rfl

/-- Claims of an active user that can be read are that user. -/
theorem userOfClaims_of_read {claims : Claims} {id : UUID} {tenantId : Str} {scopes : List Json}
    (typ : (claims.get "typ").isStr (str "access") = true) (sub : claims.get "sub" = .str id.toStr)
    (email : (claims.get "email").truthy = true)
    (tenant : tenantOf (claims.get "tenant_id") = .ok tenantId)
    (frozen : frozenset (scopesOf claims) = .ok scopes)
    (active : (claims.get "active").truthy = true) :
    userOfClaims claims = .ok ⟨id.toStr, claims.get "email", tenantId, scopes, email⟩ := by
  have present : (Json.str id.toStr).truthy = true := by
    simpa [Json.truthy] using id.toStr_ne_nil
  have read : uuidOf (.str id.toStr) = .ok id := by
    rw [uuidOf, UUID.ofStr_toStr]
  unfold userOfClaims
  rw [if_neg (by simpa using typ), sub, if_neg (by simpa using present), dif_pos email, read, tenant,
    frozen]
  show requireActiveUser _ _ = _
  rw [requireActiveUser, if_neg (by simpa using active)]

theorem userOfClaims_access (nonempty : user.email ≠ []) (enabled : user.disabled = false) :
    userOfClaims (signer.payload now jti (AuthService.accessClaims user issuedAt expires)) =
      .ok (principalOf user nonempty) := by
  have active : (Json.bool (!user.disabled)).truthy = true := by
    simp [Json.truthy, enabled]
  have scopes : frozenset (.arr [.str (str "user")]) = .ok [.str (str "user")] := rfl
  rw [payload_accessClaims]
  apply userOfClaims_of_read
  · rfl
  · rfl
  · exact tenantOf_optionalId user.tenantId
  · exact scopes
  · exact active

theorem userOfClaims_refresh :
    userOfClaims (signer.payload now jti
      (AuthService.refreshClaims user tokenId issuedAt expires)) =
      .error (authenticationError (str "Invalid token type")) := by
  have foreign : ((signer.payload now jti (AuthService.refreshClaims user tokenId issuedAt expires)).get
      "typ").isStr (str "access") = false := rfl
  rw [userOfClaims, foreign]
  rfl

end Payloads

/-! ## Consumers -/

section Consumers

variable {signer : JwtSigner} {jwt : PyJwt} {service : AuthService} {container : Container}
variable {db : Database} {ticks : ℕ → World} {tick : World} {token : Str} {claims : Claims}
variable {user : UserRow} {tokenId jti : UUID} {now expires : DateTime} {issuedAt t : Int}

/-- A token of another type is refused by refresh. -/
private theorem refresh_foreign (verified : (ticks 0).answer (.verify token) = .ok claims)
    (foreign : (claims.get "typ").isStr (str "refresh") = false) :
    exec driver ticks 0 db (Table.empty schema) (service.refresh token) =
      (.error (invalidCredentialsError "Invalid token type"), db) := by
  apply ensures_exec_eq
  rw [AuthService.refresh, ← Program.bind_ret (verifyToken token)]
  refine ensures_verified (fun error refused => ?_) fun other answer => ?_
  · cases verified.symm.trans refused
  cases verified.symm.trans answer
  simp only [AuthService.presentedToken, Program.bind_assoc]
  refine ensures_raiseIf (fun _ => ⟨rfl, rfl⟩) fun typ => ?_
  simp [foreign] at typ

/-- A token of another type, or none that verifies, does nothing to logout. -/
private theorem logout_foreign
    (unnamed : ∀ claims, (ticks 0).answer (.verify token) = .ok claims →
      (claims.get "typ").isStr (str "refresh") = false)
    (refusal : ∀ error, (ticks 0).answer (.verify token) = .error error →
      ∃ detail, error = .app .authentication detail) :
    exec driver ticks 0 db (Table.empty schema) (AuthService.logout token) = (.ok (), db) := by
  apply ensures_exec_eq
  rw [AuthService.logout]
  refine ensures_verified (fun error refused => ?_) fun claims answer => ?_
  · obtain ⟨detail, rfl⟩ := refusal error refused
    exact ⟨rfl, rfl⟩
  · simp only [AuthService.revokePresented]
    rw [if_pos (by simp [unnamed claims answer])]
    exact ⟨rfl, rfl⟩

/-- Whenever it is presented, an access token is nothing to refresh and logout. -/
theorem access_refused (wired : Wired signer jwt t (ticks 0)) :
    let token := signer.sign jwt now jti (AuthService.accessClaims user issuedAt expires)
    (∃ detail, exec driver ticks 0 db (Table.empty schema) (service.refresh token) =
        (.error (invalidCredentialsError detail), db)) ∧
      exec driver ticks 0 db (Table.empty schema) (AuthService.logout token) = (.ok (), db) := by
  intro token
  have decodable := @decodable_accessClaims signer user jti now issuedAt expires
  rcases verify_cases jwt t decodable with verified | ⟨detail, refused⟩
  · have answer := (wired.verifies token).trans verified
    have foreign : ((signer.payload now jti (AuthService.accessClaims user issuedAt expires)).get
        "typ").isStr (str "refresh") = false := rfl
    refine ⟨⟨_, refresh_foreign answer foreign⟩, logout_foreign (fun claims same => ?_)
      fun error same => ?_⟩
    · cases answer.symm.trans same
      exact foreign
    · cases answer.symm.trans same
  · have answer := (wired.verifies token).trans refused
    refine ⟨⟨_, AuthVerdicts.refresh_unverified answer⟩, logout_foreign (fun claims same => ?_)
      fun error same => ?_⟩
    · cases answer.symm.trans same
    · cases answer.symm.trans same
      exact ⟨_, rfl⟩

/-- No token is presented before its `iat`, whatever was rounded up. -/
theorem issued_before {issuedAt t : Int} (issued : issuedAt ≤ t) :
    (timestamp issuedAt : ℚ) ≤ timestampDouble t + 30 := by
  have near := (intSeconds_near issuedAt).2
  have begun : ((timestamp issuedAt - 1 : Int) : ℚ) ≤ timestampDouble t := by
    apply le_timestampDouble
    unfold timestamp
    omega
  push_cast at begun
  linarith

/-- Until it expires, the access token of an enabled user is that user. -/
theorem access_identifies (wired : Wired signer jwt t tick) (signs : container.tokenSigner = true)
    (nonempty : user.email ≠ []) (enabled : user.disabled = false) (issued : issuedAt ≤ t)
    (unexpired : timestampDouble t - 30 < timestamp expires) :
    getCurrentUser container tick
      (some (signer.sign jwt now jti (AuthService.accessClaims user issuedAt expires))) =
      .ok (principalOf user nonempty) := by
  have decodable := @decodable_accessClaims signer user jti now issuedAt expires
  have answer := (wired.verifies _).trans (verify_encode jwt decodable (issued_before issued) unexpired)
  exact (getCurrentUser_verified signs answer).trans (userOfClaims_access nonempty enabled)

/-- Whenever it is presented, a refresh token is nobody to `get_current_user`. -/
theorem refresh_identifies_nobody (wired : Wired signer jwt t tick)
    (signs : container.tokenSigner = true) :
    ∃ detail, getCurrentUser container tick
      (some (signer.sign jwt now jti (AuthService.refreshClaims user tokenId issuedAt expires))) =
      .error (authenticationError detail) := by
  have decodable := @decodable_refreshClaims signer user tokenId jti now issuedAt expires
  have verifies := wired.verifies (signer.sign jwt now jti
    (AuthService.refreshClaims user tokenId issuedAt expires))
  rcases verify_cases jwt t decodable with verified | ⟨detail, refused⟩
  · exact ⟨_, (getCurrentUser_verified signs (verifies.trans verified)).trans userOfClaims_refresh⟩
  · exact ⟨detail, getCurrentUser_refused signs (verifies.trans refused)⟩

end Consumers

/-- What the consumers of tokens, at any time and in any state of the tables,
make of the two tokens that a user was issued. -/
structure RoundTrip (signer : JwtSigner) (jwt : PyJwt) (container : Container) (user : UserRow)
    (issuedAt : DateTime) (access : AccessToken) (refresh : RefreshToken) : Prop where
  identified : ∀ nonempty : user.email ≠ [], ∀ (t : Int) (tick : World), Wired signer jwt t tick →
    issuedAt ≤ t → timestampDouble t - 30 < timestamp access.expiresAt →
    getCurrentUser container tick (some access.token) = .ok (principalOf user nonempty)
  noRefresh : ∀ (service : AuthService) (db : Database) (t : Int) (ticks : ℕ → World),
    Wired signer jwt t (ticks 0) → ∃ detail, exec driver ticks 0 db (Table.empty schema)
      (service.refresh access.token) = (.error (invalidCredentialsError detail), db)
  noLogout : ∀ (db : Database) (t : Int) (ticks : ℕ → World), Wired signer jwt t (ticks 0) →
    exec driver ticks 0 db (Table.empty schema) (AuthService.logout access.token) = (.ok (), db)
  nobody : ∀ (t : Int) (tick : World), Wired signer jwt t tick →
    ∃ detail, getCurrentUser container tick (some refresh.token) =
      .error (authenticationError detail)

/-- `get_current_user` accepts the string at some time. -/
def Identifies (signer : JwtSigner) (jwt : PyJwt) (container : Container) (token : Str) : Prop :=
  ∃ (t : Int) (tick : World) (user : Principal), Wired signer jwt t tick ∧
    getCurrentUser container tick (some token) = .ok user

/-- Refresh accepts the string at some time and in some state of the tables. -/
def Exchanges (signer : JwtSigner) (jwt : PyJwt) (token : Str) : Prop :=
  ∃ (service : AuthService) (db : Database) (t : Int) (ticks : ℕ → World)
    (tokens : AccessToken × RefreshToken), Wired signer jwt t (ticks 0) ∧
    (exec driver ticks 0 db (Table.empty schema) (service.refresh token)).1 = .ok tokens

/-- **Tokens go round and stay apart.** The tokens that login or refresh issues,
in whatever state of the tables, are those of the enabled user whom the request
identifies: the access token is that user to `get_current_user` until it expires,
and no issued string is accepted by both `get_current_user` and refresh. -/
theorem issued_tokens_round_trip (service : AuthService) (signer : JwtSigner) (jwt : PyJwt)
    (container : Container) (signs : container.tokenSigner = true) {clock : ℕ → DateTime}
    {ticks : ℕ → World} (issuing : ∀ moment, Wired signer jwt (clock moment) (ticks moment))
    {before after : Database} {grant : Grant} {access : AccessToken} {refresh : RefreshToken}
    (ran : exec driver ticks 0 before (Table.empty schema) (grant.run service) =
      (.ok (access, refresh), after)) :
    (∃ user issuedAt, Row.user user ∈ before ∧ grant.identifies ticks before user ∧
      (∃ moment, clock moment = issuedAt) ∧
      access.expiresAt = issuedAt + minutes service.accessTokenExpiresMinutes ∧
      RoundTrip signer jwt container user issuedAt access refresh) ∧
    ∀ token, token = access.token ∨ token = refresh.token →
      ¬ (Identifies signer jwt container token ∧ Exchanges signer jwt token) := by
  have grants : Grants service ticks before grant _ _ := ensures_exec (ensures_grants grant)
  rw [ran] at grants
  obtain ⟨user, row, later, held, identified, granted, _⟩ := grants
  have trip : RoundTrip signer jwt container user row.issuedAt access refresh := by
    obtain ⟨moment, signed⟩ := granted.access.signed
    obtain ⟨jti, answer⟩ := (issuing moment).signs
      (AuthService.accessClaims user row.issuedAt access.expiresAt)
    obtain ⟨moment', signed'⟩ := granted.issued.signed
    obtain ⟨jti', answer'⟩ := (issuing moment').signs
      (AuthService.refreshClaims user row.id row.issuedAt row.expiresAt)
    have access_text := Except.ok.inj (signed.symm.trans answer)
    have refresh_text := Except.ok.inj (signed'.symm.trans answer')
    constructor
    · intro nonempty t tick wired issued unexpired
      rw [access_text]
      exact access_identifies wired signs nonempty granted.enabled issued unexpired
    · intro service db t ticks wired
      rw [access_text]
      exact (access_refused wired).1
    · intro db t ticks wired
      rw [access_text]
      exact (@access_refused signer jwt service _ _ _ _ _ _ _ _ wired).2
    · intro t tick wired
      rw [refresh_text]
      exact refresh_identifies_nobody wired signs
  refine ⟨⟨user, row.issuedAt, held, identified, ?_, granted.access.lifetime, trip⟩, ?_⟩
  · obtain ⟨moment, read⟩ := granted.issued.clock
    exact ⟨moment, Except.ok.inj ((issuing moment).reads.symm.trans read)⟩
  · rintro token (rfl | rfl) ⟨⟨t, tick, principal, wired, accepted⟩, exchanged⟩
    · obtain ⟨other, db, t, ticks, tokens, wired, exchanged⟩ := exchanged
      obtain ⟨detail, refused⟩ := trip.noRefresh other db t ticks wired
      rw [refused] at exchanged
      cases exchanged
    · obtain ⟨detail, refused⟩ := trip.nobody t tick wired
      cases accepted.symm.trans refused

/-! ## A signing library -/

/-- A library whose tokens are the texts of their payloads. -/
def sampleJwt : PyJwt where
  encode := renderFields
  decode audience issuer leeway now token :=
    match readFields token.length token with
    | some (payload, []) =>
      match Claims.get payload "iat", Claims.get payload "exp" with
      | .int iat, .int exp =>
        if timestampDouble now + leeway < iat then
          .error (.other (str "The token is not yet valid (iat)"))
        else if exp ≤ timestampDouble now - leeway then .error .expiredSignature
        else if !(Claims.get payload "iss").isStr issuer then .error .invalidIssuer
        else if !(Claims.get payload "aud").isStr audience then .error .invalidAudience
        else .ok payload
      | _, _ => .error (.other (str "Token is missing a claim"))
    | _ => .error (.other (str "Not enough segments"))
  decode_encode := by
    intro payload audience issuer exp iat decodable leeway now
    rw [readFields_of_render]
    simp [decodable.iat, decodable.exp, decodable.iss, decodable.aud, Json.isStr]

def sampleSigner : JwtSigner := ⟨str "issuer", str "audience", 900⟩

/-- The ports at a time; the user signed in has no row but its own. -/
def wiredWorld (now : DateTime) : World where
  answer
    | .verify token => sampleSigner.verify sampleJwt now token
    | .sign claims => .ok (sampleSigner.sign sampleJwt now ⟨0⟩ claims)
    | .hash _ => .ok (str "hash")
    | .checkHash _ _ => .ok true
    | .uuid4 => .ok ⟨0⟩
    | .now => .ok now

theorem wiredWorld_wired (now : DateTime) : Wired sampleSigner sampleJwt now (wiredWorld now) where
  signs := fun _ => ⟨⟨0⟩, rfl⟩
  verifies := fun _ => rfl
  reads := rfl

def sampleUser : UserRow where
  id := ⟨1⟩
  email := str "a"
  passwordHash := str "hash"
  createdAt := 0
  tenantId := some ⟨2⟩
  disabled := false

def sampleUsers : Database := (Table.empty schema).put (.user sampleUser)

/-- A login at the epoch. -/
def sampleGrant : Grant := .login ⟨str "a", str "password"⟩

theorem sample_login_round_trips : ∃ access refresh after user issuedAt,
    exec driver (fun _ => wiredWorld 0) 0 sampleUsers (Table.empty schema) (sampleGrant.run {}) =
      (.ok (access, refresh), after) ∧
    RoundTrip sampleSigner sampleJwt { jwt := {} } user issuedAt access refresh := by
  have wired : ∀ moment : ℕ, Wired sampleSigner sampleJwt ((fun _ => 0) moment)
      ((fun _ => wiredWorld 0) moment) := fun _ => wiredWorld_wired 0
  obtain ⟨access, refresh, after, ran⟩ : ∃ access refresh after,
      exec driver (fun _ => wiredWorld 0) 0 sampleUsers (Table.empty schema) (sampleGrant.run {}) =
        (.ok (access, refresh), after) := ⟨_, _, _, rfl⟩
  obtain ⟨⟨user, issuedAt, _, _, _, _, trip⟩, _⟩ :=
    issued_tokens_round_trip {} sampleSigner sampleJwt { jwt := {} } rfl wired ran
  exact ⟨access, refresh, after, user, issuedAt, ran, trip⟩

end BackendFoundation.TokenRoundTrip
