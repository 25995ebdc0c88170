import BackendFoundation.TokenRoundTrip

/-! How long the two tokens live. Three computations tell the client, the token
and the table when a token ends: the remaining seconds in the response, the
`exp` claim with PyJWT's leeway, and the row's `expires_at`. -/
namespace BackendFoundation.TokenLifetimes
open PythonValues KeyedTables RequestPrograms ReadCommitted TransactionLogic
open AuthPersistence AuthPrograms AuthSpecs AuthAtomicity AuthDiscipline AuthRotation
open FamilySimulation AuthVerdicts TokenSigning AuthEdge TokenRoundTrip

/-- The route of the request. -/
def respond (service : AuthService) (grant : Grant) : Service TokenResponse :=
  tokenResponse (grant.run service)

/-- What a response tells of the tokens it carries, at a later reading of the clock. -/
structure Responded (ticks : ℕ → World) (before : Database) (service : AuthService) (grant : Grant)
    (user : UserRow) (row : RefreshTokenRow) (access : AccessToken) (refresh : RefreshToken)
    (told : DateTime) (response : TokenResponse) : Prop where
  held : Row.user user ∈ before
  identified : grant.identifies ticks before user
  granted : ∃ later, Granted service ticks later user row access refresh ∧
    (ticks later).answer .now = .ok told
  response : response = { accessToken := access.token, refreshToken := refresh.token
                          expiresIn := expiresIn access told }

section Responses

variable {service : AuthService} {ticks : ℕ → World} {before : Database} {grant : Grant}

theorem ensures_respond :
    Ensures driver ticks (fun result _ after _ => ∀ response, result = .ok response →
        ∃ user row access refresh told, Holds after row ∧
          Responded ticks before service grant user row access refresh told response)
      0 before (Table.empty schema) (respond service grant) := by
  unfold respond tokenResponse
  apply ensures_bind
  apply ensures_grant
  · intro error later after left response never
    cases never
  · intro user row access refresh later after member identified granted held
    refine ensures_ask (fun error _ response never => by cases never) fun told read => ?_
    intro response same
    cases same
    exact ⟨user, row, access, refresh, told, held, member, identified, ⟨later, granted, read⟩, rfl⟩

end Responses

/-! ## One token -/

section Tokens

variable {signer : JwtSigner} {user : UserRow} {tokenId jti : UUID}
variable {signedAt : DateTime} {issuedAt expires t : Int}

/-- The leeway is more than rounding can take from a token's life. -/
theorem unexpired_at (unexpired : t < expires + 1000000) :
    timestampDouble t - 30 < timestamp expires := by
  have near := (intSeconds_near expires).1
  have before : timestampDouble t ≤ ((timestamp expires + 2 : Int) : ℚ) := by
    apply timestampDouble_le
    unfold timestamp
    omega
  push_cast at before
  linarith

/-- Until a second after its end the access token verifies, whatever was cut off. -/
theorem access_verifies (jwt : PyJwt) (issued : issuedAt ≤ t) (unexpired : t < expires + 1000000) :
    signer.verify jwt t
      (signer.sign jwt signedAt jti (AuthService.accessClaims user issuedAt expires)) =
      .ok (signer.payload signedAt jti (AuthService.accessClaims user issuedAt expires)) := by
  exact verify_encode jwt decodable_accessClaims (issued_before issued) (unexpired_at unexpired)

/-- Half a minute after its end it does not, or a second later if it ends before the
epoch, where `int` rounds up. -/
theorem access_expired (jwt : PyJwt) (issued : issuedAt ≤ t)
    (ended : expires + 31000000 ≤ t ∨ 0 ≤ expires ∧ expires + 30000000 ≤ t) :
    signer.verify jwt t
      (signer.sign jwt signedAt jti (AuthService.accessClaims user issuedAt expires)) =
      .error (authenticationError (str "Token has expired")) := by
  apply verify_expired jwt decodable_accessClaims (issued_before issued)
  rcases ended with past | ⟨positive, past⟩
  · have near := (intSeconds_near expires).2
    have gone : ((timestamp expires + 30 : Int) : ℚ) ≤ timestampDouble t := by
      apply le_timestampDouble
      unfold timestamp
      omega
    push_cast at gone
    linarith
  · have gone : (timestamp expires : ℚ) + (30 : ℕ) ≤ timestampDouble t :=
      timestamp_add_le rfl positive (by omega)
    push_cast at gone
    linarith

/-- The `exp` of a refresh token outlasts its row. -/
theorem refresh_verifies (jwt : PyJwt) (issued : issuedAt ≤ t) (unexpired : t ≤ expires) :
    signer.verify jwt t
      (signer.sign jwt signedAt jti (AuthService.refreshClaims user tokenId issuedAt expires)) =
      .ok (signer.payload signedAt jti (AuthService.refreshClaims user tokenId issuedAt expires)) := by
  exact verify_encode jwt decodable_refreshClaims (issued_before issued) (unexpired_at (by omega))

theorem tokenNamed_refresh :
    tokenNamed (signer.payload signedAt jti
      (AuthService.refreshClaims user tokenId issuedAt expires)) = some tokenId := by
  have typ : ((signer.payload signedAt jti
      (AuthService.refreshClaims user tokenId issuedAt expires)).get "typ").isStr (str "refresh") =
      true := rfl
  have text : (signer.payload signedAt jti
      (AuthService.refreshClaims user tokenId issuedAt expires)).get "jti" = .str tokenId.toStr := rfl
  rw [tokenNamed, if_pos typ, named, text]
  exact UUID.ofStr_toStr tokenId

end Tokens

/-- A clock that never goes back. -/
def Nondecreasing (clock : ℕ → DateTime) : Prop :=
  ∀ earlier later, earlier ≤ later → clock earlier ≤ clock later

/-- The row of an unexchanged and unrevoked token in reached tables, whose user is
enabled, and the surroundings of a refresh that presents the token. -/
structure Presentable (signer : JwtSigner) (jwt : PyJwt) (db : Database) (clock : ℕ → DateTime)
    (ticks : ℕ → World) (row : RefreshTokenRow) (token : Str) : Prop where
  reached : Reached db
  nondecreasing : Nondecreasing clock
  wired : ∀ moment, Wired signer jwt (clock moment) (ticks moment)
  healthy : ∀ moment, Healthy db (ticks moment)
  held : Holds db row
  unrevoked : row.revokedAt = none
  unexchanged : row.replacedBy = none
  enabled : ∃ user, user? db row.userId = some user ∧ user.disabled = false
  matched : (ticks 2).answer (.checkHash token row.hash) = .ok true

/-- Such a refresh succeeds exactly when the clock it reads is not past the row. -/
theorem refresh_accepted_iff {signer : JwtSigner} {jwt : PyJwt} {service : AuthService}
    {db : Database} {clock : ℕ → DateTime} {ticks : ℕ → World} {row : RefreshTokenRow} {user : UserRow}
    {signedAt : DateTime} {jti : UUID} {token : Str}
    (signed : token = signer.sign jwt signedAt jti
      (AuthService.refreshClaims user row.id row.issuedAt row.expiresAt))
    (shown : Presentable signer jwt db clock ticks row token) (begun : row.issuedAt ≤ clock 0) :
    (∃ tokens, (exec driver ticks 0 db (Table.empty schema) (service.refresh token)).1 = .ok tokens) ↔
      clock 3 ≤ row.expiresAt := by
  subst signed
  have read : ∀ now, (ticks 3).answer .now = .ok now ↔ now = clock 3 := by
    intro now
    rw [(shown.wired 3).reads]
    exact ⟨fun same => (Except.ok.inj same).symm, fun same => same ▸ rfl⟩
  have verifies := (shown.wired 0).verifies (signer.sign jwt signedAt jti
    (AuthService.refreshClaims user row.id row.issuedAt row.expiresAt))
  constructor
  · intro accepted
    rcases verify_cases jwt (clock 0) decodable_refreshClaims with verified | ⟨detail, refused⟩
    · obtain ⟨record, owner, accepted⟩ :=
        (refresh_accepts_iff shown.reached.consistent shown.healthy (verifies.trans verified)).mp accepted
      have same : record = row := held_once accepted.held shown.held
        (Option.some.inj (accepted.names.symm.trans tokenNamed_refresh))
      subst same
      obtain ⟨now, clocked, unexpired⟩ := accepted.unexpired
      rwa [(read now).mp clocked] at unexpired
    · obtain ⟨tokens, returned⟩ := accepted
      rw [refresh_unverified (verifies.trans refused)] at returned
      cases returned
  · intro unexpired
    obtain ⟨owner, known, enabled⟩ := shown.enabled
    have earlier : clock 0 ≤ clock 3 := shown.nondecreasing 0 3 (by omega)
    have verified := verifies.trans (refresh_verifies jwt begun (earlier.trans unexpired))
    apply (refresh_accepts_iff shown.reached.consistent shown.healthy verified).mpr
    exact ⟨row, owner, tokenNamed_refresh, shown.held, shown.matched, shown.unrevoked,
      ⟨clock 3, (read _).mpr rfl, unexpired⟩, known, enabled⟩

/-! ## The three computations -/

/-- How the lifetimes agree from the time `told` of the response on. -/
structure Agreement (signer : JwtSigner) (jwt : PyJwt) (told : Int) (access : AccessToken)
    (row : RefreshTokenRow) (response : TokenResponse) : Prop where
  nonneg : 0 ≤ response.expiresIn
  accepted : ∀ t : Int, told ≤ t → t < told + response.expiresIn * 1000000 →
    ∃ claims, signer.verify jwt t response.accessToken = .ok claims
  rejected : ∀ t : Int, told ≤ t → access.expiresAt + 31000000 ≤ t ∨
      0 ≤ access.expiresAt ∧ access.expiresAt + 30000000 ≤ t →
    signer.verify jwt t response.accessToken = .error (authenticationError (str "Token has expired"))
  outlasts : ∀ t : Int, told ≤ t → ¬ row.expiresAt < t →
    ∃ claims, signer.verify jwt t response.refreshToken = .ok claims
  exchanged : ∀ (service : AuthService) (db : Database) (clock : ℕ → DateTime) (ticks : ℕ → World),
    Presentable signer jwt db clock ticks row response.refreshToken → told ≤ clock 0 →
    ((∃ tokens, (exec driver ticks 0 db (Table.empty schema)
      (service.refresh response.refreshToken)).1 = .ok tokens) ↔ clock 3 ≤ row.expiresAt)

/-- **The expiry computations agree.** While the client counts down what the
response told, the access token verifies; it does not 30 seconds after its end,
or 31 if that is before the epoch. The `exp` of a refresh token never ends it
before its row, which alone decides. -/
theorem expiries_agree (service : AuthService) (signer : JwtSigner) (jwt : PyJwt)
    {clock : ℕ → DateTime} {ticks : ℕ → World} (nondecreasing : Nondecreasing clock)
    (issuing : ∀ moment, Wired signer jwt (clock moment) (ticks moment)) {before after : Database}
    {grant : Grant} {response : TokenResponse}
    (ran : exec driver ticks 0 before (Table.empty schema) (respond service grant) =
      (.ok response, after)) :
    ∃ user row access refresh told, Holds after row ∧
      Responded ticks before service grant user row access refresh told response ∧
      row.issuedAt ≤ told ∧ Agreement signer jwt told access row response := by
  have responds := ensures_exec
    (@ensures_respond service ticks before grant)
  rw [ran] at responds
  obtain ⟨user, row, access, refresh, told, held, responded⟩ := responds response rfl
  refine ⟨user, row, access, refresh, told, held, responded, ?_⟩
  obtain ⟨later, granted, read⟩ := responded.granted
  have issued : (row.issuedAt : Int) ≤ told := by
    obtain ⟨moment, earlier, clocked⟩ := granted.access.clock
    rw [(issuing moment).reads] at clocked
    rw [(issuing later).reads] at read
    rw [← Except.ok.inj clocked, ← Except.ok.inj read]
    exact nondecreasing _ _ earlier.le
  refine ⟨issued, ?_⟩
  rw [responded.response]
  obtain ⟨moment, signed⟩ := granted.access.signed
  obtain ⟨jti, answer⟩ := (issuing moment).signs
    (AuthService.accessClaims user row.issuedAt access.expiresAt)
  obtain ⟨moment', signed'⟩ := granted.issued.signed
  obtain ⟨jti', answer'⟩ := (issuing moment').signs
    (AuthService.refreshClaims user row.id row.issuedAt row.expiresAt)
  have access_text := Except.ok.inj (signed.symm.trans answer)
  have refresh_text := Except.ok.inj (signed'.symm.trans answer')
  constructor
  · exact le_max_left _ _
  · intro t begun counting
    have remaining := (intSeconds_near (access.expiresAt - told)).2
    dsimp only [expiresIn] at counting
    rw [access_text]
    exact ⟨_, access_verifies jwt (issued.trans begun) (by omega)⟩
  · intro t begun ended
    rw [access_text]
    exact access_expired jwt (issued.trans begun) ended
  · intro t begun unexpired
    rw [refresh_text]
    exact ⟨_, refresh_verifies jwt (issued.trans begun) (not_lt.mp unexpired)⟩
  · intro service db clock ticks shown begun
    exact refresh_accepted_iff refresh_text shown (issued.trans begun)

section Samples

variable (service : AuthService) (now : DateTime)

/-- What the route of a login answers, when nothing takes time. -/
private theorem sample_responds : ∃ after,
    exec driver (fun _ => wiredWorld now) 0 sampleUsers (Table.empty schema)
      (respond service sampleGrant) =
      (.ok { accessToken := sampleSigner.sign sampleJwt now ⟨0⟩ (AuthService.accessClaims sampleUser now
                (now + minutes service.accessTokenExpiresMinutes))
             refreshToken := sampleSigner.sign sampleJwt now ⟨0⟩ (AuthService.refreshClaims sampleUser
                ⟨0⟩ now (now + days service.refreshTokenExpiresDays))
             expiresIn := expiresIn ⟨[], now + minutes service.accessTokenExpiresMinutes⟩ now },
        after) := ⟨_, rfl⟩

end Samples

theorem sample_response_agrees : ∃ response after told access row,
    exec driver (fun _ => wiredWorld 0) 0 sampleUsers (Table.empty schema) (respond {} sampleGrant) =
      (.ok response, after) ∧ Agreement sampleSigner sampleJwt told access row response := by
  obtain ⟨after, ran⟩ := sample_responds {} 0
  have wired : ∀ moment : ℕ, Wired sampleSigner sampleJwt ((fun _ => 0) moment)
      ((fun _ => wiredWorld 0) moment) := fun _ => wiredWorld_wired 0
  obtain ⟨user, row, access, refresh, told, _, _, _, agrees⟩ :=
    expiries_agree {} sampleSigner sampleJwt (fun _ _ _ => le_rfl) wired ran
  exact ⟨_, after, told, access, row, ran, agrees⟩

/-- A login at `now` with tokens that end at once, of which the access token is
still accepted half a minute later. -/
def AcceptedLate (now : Int) : Prop :=
  ∃ response after, exec driver (fun _ => wiredWorld now) 0 sampleUsers (Table.empty schema)
      (respond { accessTokenExpiresMinutes := 0 } sampleGrant) = (.ok response, after) ∧
    ∃ claims, sampleSigner.verify sampleJwt (now + 30000000) response.accessToken = .ok claims

/-- `int` rounds up before the epoch. -/
theorem rounded_up_tokens_are_accepted_late : AcceptedLate (-1500000) := by
  obtain ⟨after, ran⟩ := sample_responds { accessTokenExpiresMinutes := 0 } (-1500000)
  refine ⟨_, after, ran, _,
    verify_encode sampleJwt decodable_accessClaims (issued_before (by decide)) ?_⟩
  decide +kernel

/-! ## The settings -/

/-- The lifetimes that the settings give in seconds are those of the tokens. -/
structure RealLifetimes (settings : Jwt) (signer : JwtSigner) (jwt : PyJwt) (row : RefreshTokenRow)
    (access : AccessToken) (refresh : RefreshToken) : Prop where
  accessTtl : access.expiresAt = row.issuedAt + settings.accessTtlSeconds * 1000000
  refreshTtl : refresh.expiresAt = row.issuedAt + settings.refreshTtlSeconds * 1000000
  accepted : ∀ (service : AuthService) (db : Database) (clock : ℕ → DateTime) (ticks : ℕ → World),
    Presentable signer jwt db clock ticks row refresh.token → row.issuedAt ≤ clock 0 →
    clock 3 ≤ row.issuedAt + settings.refreshTtlSeconds * 1000000 →
    ∃ tokens, (exec driver ticks 0 db (Table.empty schema) (service.refresh refresh.token)).1 =
      .ok tokens

private theorem getAuthService_ok {container : Container} {service : AuthService}
    (built : getAuthService container = .ok service) :
    service.accessTokenExpiresMinutes = container.jwt.accessTtlSeconds / 60 ∧
      service.refreshTokenExpiresDays = container.jwt.refreshTtlSeconds / 86400 := by
  unfold getAuthService at built
  split at built
  · cases built
  split at built
  · cases built
  split at built
  · cases built
  cases built
  exact ⟨rfl, rfl⟩

private theorem whole_minutes {ttl : Int} : minutes (ttl / 60) = ttl * 1000000 ↔ 60 ∣ ttl := by
  unfold minutes
  omega

private theorem whole_days {ttl : Int} : days (ttl / 86400) = ttl * 1000000 ↔ 86400 ∣ ttl := by
  unfold days
  omega

/-- **Configured lifetimes are the real ones when they are whole minutes and whole
days.** `get_auth_service` drops the rest of both. -/
theorem configured_lifetimes_iff (container : Container) (service : AuthService)
    (built : getAuthService container = .ok service) (signer : JwtSigner) (jwt : PyJwt)
    {clock : ℕ → DateTime} {ticks : ℕ → World}
    (issuing : ∀ moment, Wired signer jwt (clock moment) (ticks moment)) {before after : Database}
    {grant : Grant} {access : AccessToken} {refresh : RefreshToken}
    (ran : exec driver ticks 0 before (Table.empty schema) (grant.run service) =
      (.ok (access, refresh), after)) :
    ∃ user row, Row.user user ∈ before ∧ grant.identifies ticks before user ∧ Holds after row ∧
      (∃ later, Granted service ticks later user row access refresh) ∧
      (∃ moment, clock moment = row.issuedAt) ∧
      (RealLifetimes container.jwt signer jwt row access refresh ↔
        60 ∣ container.jwt.accessTtlSeconds ∧ 86400 ∣ container.jwt.refreshTtlSeconds) := by
  have grants : Grants service ticks before grant _ _ := ensures_exec (ensures_grants grant)
  rw [ran] at grants
  obtain ⟨user, row, later, member, identified, granted, held⟩ := grants
  obtain ⟨whole, whole'⟩ := getAuthService_ok built
  have access_ends := granted.access.lifetime
  have refresh_ends := granted.issued.lifetime
  rw [whole] at access_ends
  rw [whole'] at refresh_ends
  refine ⟨user, row, member, identified, held, ⟨later, granted⟩, ?_, ?_, ?_⟩
  · obtain ⟨moment, read⟩ := granted.issued.clock
    exact ⟨moment, Except.ok.inj ((issuing moment).reads.symm.trans read)⟩
  · intro real
    have access_real := access_ends.symm.trans real.accessTtl
    have refresh_real := (granted.issued.expires.trans refresh_ends).symm.trans real.refreshTtl
    exact ⟨whole_minutes.mp (add_left_cancel access_real), whole_days.mp (add_left_cancel refresh_real)⟩
  · rintro ⟨minutes_, days_⟩
    rw [whole_minutes.mpr minutes_] at access_ends
    rw [whole_days.mpr days_] at refresh_ends
    refine ⟨access_ends, granted.issued.expires.trans refresh_ends, ?_⟩
    intro other db clock ticks shown begun unexpired
    obtain ⟨moment, signed⟩ := granted.issued.signed
    obtain ⟨jti, answer⟩ := (issuing moment).signs
      (AuthService.refreshClaims user row.id row.issuedAt row.expiresAt)
    have text := Except.ok.inj (signed.symm.trans answer)
    rw [← refresh_ends] at unexpired
    exact (refresh_accepted_iff text shown begun).mpr unexpired

private theorem sample_granted (service : AuthService) : ∃ after,
    exec driver (fun _ => wiredWorld 0) 0 sampleUsers (Table.empty schema) (sampleGrant.run service) =
      (.ok (⟨sampleSigner.sign sampleJwt 0 ⟨0⟩ (AuthService.accessClaims sampleUser 0
              (0 + minutes service.accessTokenExpiresMinutes)),
            0 + minutes service.accessTokenExpiresMinutes⟩,
          ⟨sampleSigner.sign sampleJwt 0 ⟨0⟩ (AuthService.refreshClaims sampleUser ⟨0⟩ 0
              (0 + days service.refreshTokenExpiresDays)),
            0 + days service.refreshTokenExpiresDays⟩), after) := ⟨_, rfl⟩

theorem default_lifetimes_are_real : ∃ service access refresh after row,
    getAuthService { jwt := {} } = .ok service ∧
      exec driver (fun _ => wiredWorld 0) 0 sampleUsers (Table.empty schema) (sampleGrant.run service) =
        (.ok (access, refresh), after) ∧
      RealLifetimes {} sampleSigner sampleJwt row access refresh := by
  have built : getAuthService { jwt := {} } =
      .ok { accessTokenExpiresMinutes := 15, refreshTokenExpiresDays := 14 } := rfl
  obtain ⟨after, ran⟩ :=
    sample_granted { accessTokenExpiresMinutes := 15, refreshTokenExpiresDays := 14 }
  have wired : ∀ moment : ℕ, Wired sampleSigner sampleJwt ((fun _ => 0) moment)
      ((fun _ => wiredWorld 0) moment) := fun _ => wiredWorld_wired 0
  obtain ⟨user, row, _, _, _, _, _, real⟩ :=
    configured_lifetimes_iff _ _ built sampleSigner sampleJwt wired ran
  exact ⟨_, _, _, after, row, built, ran, real.mpr (by decide)⟩

/-- With 90 seconds and one second in the settings, both issued at the epoch, the
access token ends after a minute and the refresh token at once. -/
theorem odd_lifetimes_are_cut : ∃ service access refresh after,
    getAuthService { jwt := { accessTtlSeconds := 90, refreshTtlSeconds := 1 } } = .ok service ∧
      exec driver (fun _ => wiredWorld 0) 0 sampleUsers (Table.empty schema) (sampleGrant.run service) =
        (.ok (access, refresh), after) ∧
      access.expiresAt = 60 * 1000000 ∧ refresh.expiresAt = 0 ∧
      ∀ row : RefreshTokenRow, row.issuedAt = 0 →
        ¬ RealLifetimes { accessTtlSeconds := 90, refreshTtlSeconds := 1 } sampleSigner sampleJwt row
          access refresh := by
  have built : getAuthService { jwt := { accessTtlSeconds := 90, refreshTtlSeconds := 1 } } =
      .ok { accessTokenExpiresMinutes := 1, refreshTokenExpiresDays := 0 } := rfl
  obtain ⟨after, ran⟩ :=
    sample_granted { accessTokenExpiresMinutes := 1, refreshTokenExpiresDays := 0 }
  refine ⟨_, _, _, after, built, ran, by decide, by decide, fun row epoch real => ?_⟩
  have cut := real.refreshTtl
  rw [epoch] at cut
  exact absurd cut (by decide)

end BackendFoundation.TokenLifetimes
