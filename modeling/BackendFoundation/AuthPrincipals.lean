import BackendFoundation.AuthWarrants
import BackendFoundation.TokenRoundTrip

/-! Who is let in with an access token. The service signs claims only for a user
whose tokens it has grounds to give out, so whoever `get_current_user` accepts is
a user of the tables, and one of the requests has proved to be that user. -/
namespace BackendFoundation.AuthPrincipals
open PythonValues KeyedTables RequestPrograms ReadCommitted ReadCommittedProofs
open AuthPersistence AuthPrograms AuthDiscipline AuthSessions AuthRotation AuthIntegrity AuthGrants
open AuthWarrants TokenSigning AuthEdge TokenRoundTrip

section Signed

variable {said : ℕ → Answers} {service : AuthService} {system after : AuthSystem}
variable {actions : List AuthAction} {index : ℕ} {claims : Claims} {token : Str}

/-- The claims were signed for a user whose tokens a request had grounds for. -/
def SignedFor (said : ℕ → Answers) (system : AuthSystem) (index : ℕ) (claims : Claims) : Prop :=
  ∃ origin record user, (requests system)[index]? = some origin ∧
    Grounds (said index) origin record user ∧ Row.user user ∈ system.committed ∧ Subject user claims

/-- A session that is about to have claims signed has the grounds for it. -/
theorem signedFor_of_calls {session : AuthSession} {next : Except Exn Str → Service Response}
    (warranted : Warranted said service system) (found : system.sessions[index]? = some session)
    (calls : session.program = .call (.ask (.sign claims)) next) : SignedFor said system index claims := by
  obtain ⟨stage, follows, stands⟩ := warranted.placed index session found
  rw [calls] at follows
  obtain ⟨_, ⟨_, permits⟩, _⟩ := follows (.error .typeError) trivial
  have request := request_of_session found
  cases permits with
  | opens user _ grounds subject => exact ⟨session.origin, none, user, request, grounds, stands, subject⟩
  | rotates record user _ grounds subject =>
    exact ⟨session.origin, some record, user, request, grounds, stands.2, subject⟩

theorem requests_next {action : AuthAction} {origin : Request}
    (request : (requests system)[index]? = some origin)
    (stepped : system.next driver (serve service) action = some after) :
    (requests after)[index]? = some origin := by
  rcases next_cases stepped with ⟨arrived, _, rfl⟩ | ⟨_, _, _, _, _, _, found, moves, rfl⟩
  · have inside := (List.getElem?_eq_some_iff.mp request).1
    rw [requests] at request inside
    rw [requests, List.map_append, List.getElem?_append_left inside, request]
  · rw [requests_moved found moves]
    exact request

theorem signedFor_run (rotating : Rotating openRun system)
    (ran : system.run driver (serve service) actions = some after)
    (signed : SignedFor said system index claims) : SignedFor said after index claims := by
  induction actions generalizing system with
  | nil =>
    cases ran
    exact signed
  | cons action rest ih =>
    obtain ⟨middle, stepped, ran⟩ := Option.bind_eq_some_iff.mp ran
    obtain ⟨origin, record, user, request, grounds, account, subject⟩ := signed
    apply ih (open_next rotating stepped) ran
    exact ⟨origin, record, user, requests_next request stepped, grounds,
      (preserves_next rotating stepped).users user account, subject⟩

/-- Whatever the signer has been told to sign in a run, it was told on grounds. -/
theorem signedFor_of_told (warranted : Warranted said service system)
    (every : Along driver (serve service) (Answered said) system actions)
    (ran : system.run driver (serve service) actions = some after)
    (told : Told service index system actions (.sign claims) token) : SignedFor said after index claims := by
  induction actions generalizing system with
  | nil => exact told.elim
  | cons action rest ih =>
    rcases told with ⟨tick, session, next, _, found, calls, _⟩ | ⟨later, stepped, told⟩
    · exact signedFor_run warranted.rotating ran (signedFor_of_calls warranted found calls)
    · obtain ⟨answered, onward⟩ := every
      obtain ⟨middle, stepped', ran⟩ := Option.bind_eq_some_iff.mp ran
      obtain rfl := Option.some.inj (stepped.symm.trans stepped')
      exact ih (warranted_next warranted answered stepped) (onward later stepped) ran told

end Signed

/-- Every string that verifies now was signed in the run, and verifies as what was
signed: with the private key only the service makes tokens. -/
def Unforged (signer : JwtSigner) (service : AuthService) (actions : List AuthAction) (tick : World) : Prop :=
  ∀ token claims, tick.answer (.verify token) = .ok claims → ∃ index asked now jti,
    toldFrom service actions index (.sign asked) token ∧ claims = signer.payload now jti asked

/-- Whatever verifies carries claims that were signed on grounds. -/
theorem signedFor_of_unforged {service : AuthService} {signer : JwtSigner} {actions : List AuthAction}
    {system : AuthSystem} {tick : World} {token : Str} {claims : Claims}
    (reached : System.init.run driver (serve service) actions = some system)
    (unforged : Unforged signer service actions tick)
    (verified : tick.answer (.verify token) = .ok claims) :
    ∃ index asked now jti, SignedFor (toldFrom service actions) system index asked ∧
      claims = signer.payload now jti asked := by
  obtain ⟨index, asked, now, jti, told, same⟩ := unforged token claims verified
  have every : Along driver (serve service) (Answered (toldFrom service actions)) System.init actions :=
    along_answered fun _ _ _ told => told
  exact ⟨index, asked, now, jti, signedFor_of_told warranted_init every reached told, same⟩

/-- Whoever is accepted has shown a token that verifies, and its claims are read. -/
theorem verified_of_accepted {container : Container} {tick : World} {token : Str} {principal : Principal}
    (accepted : getCurrentUser container tick (some token) = .ok principal) :
    ∃ claims, tick.answer (.verify token) = .ok claims ∧ userOfClaims claims = .ok principal := by
  cases wired : container.tokenSigner with
  | false =>
    simp only [getCurrentUser, wired, Bool.not_false, if_true] at accepted
    cases accepted
  | true =>
    cases answer : tick.answer (.verify token) with
    | ok claims =>
      rw [getCurrentUser_verified wired answer] at accepted
      exact ⟨claims, rfl, accepted⟩
    | error error =>
      simp only [getCurrentUser, wired, answer, Bool.not_true, Bool.false_eq_true, if_false] at accepted
      split at accepted
      · cases accepted
      · cases accepted
      · rename_i never
        cases never

/-- Claims for a user that are accepted are those of an access token. -/
theorem principal_of_subject {signer : JwtSigner} {user : UserRow} {asked : Claims} {principal : Principal}
    {now : DateTime} {jti : UUID} (enabled : user.disabled = false) (subject : Subject user asked)
    (accepted : userOfClaims (signer.payload now jti asked) = .ok principal) :
    ∃ nonempty, principal = principalOf user nonempty := by
  rcases subject with ⟨issued, expires, rfl⟩ | ⟨tokenId, issued, expires, rfl⟩
  · by_cases nonempty : user.email = []
    · -- the claim is an empty string, which counts as missing
      have missing : ((signer.payload now jti (AuthService.accessClaims user issued expires)).get
          "email").truthy = false := by
        show (Json.str user.email).truthy = false
        simp [Json.truthy, nonempty]
      unfold userOfClaims at accepted
      split at accepted
      · cases accepted
      · split at accepted
        · cases accepted
        · rw [dif_neg (by simp [missing])] at accepted
          cases accepted
    · rw [userOfClaims_access nonempty enabled] at accepted
      exact ⟨nonempty, (Except.ok.inj accepted).symm⟩
  · rw [userOfClaims_refresh] at accepted
    cases accepted

theorem enabled_of_grounds {said : Answers} {origin : Request} {record : Option RefreshTokenRow}
    {user : UserRow} (grounds : Grounds said origin record user) : user.disabled = false := by
  cases grounds with
  | password creds user email enabled checked => exact enabled
  | token => assumption

/-- **Nobody is let in without having authenticated.** Whoever is accepted with
some credentials, after any run of any number of concurrent requests, is a user
of the tables for whom one of these requests had the grounds to get tokens. -/
theorem principals_have_authenticated (service : AuthService) (signer : JwtSigner)
    (container : Container) (actions : List AuthAction) (system : AuthSystem)
    (reached : System.init.run driver (serve service) actions = some system)
    (tick : World) (unforged : Unforged signer service actions tick)
    (authCreds : Option Str) (principal : Principal)
    (accepted : getCurrentUser container tick authCreds = .ok principal) :
    ∃ index origin record user nonempty, (requests system)[index]? = some origin ∧
      Grounds (toldFrom service actions index) origin record user ∧
      Row.user user ∈ system.committed ∧ principal = principalOf user nonempty := by
  cases authCreds with
  | none => cases accepted
  | some token =>
    obtain ⟨claims, verified, read⟩ := verified_of_accepted accepted
    obtain ⟨index, asked, now, jti, ⟨origin, record, user, request, grounds, account, subject⟩, rfl⟩ :=
      signedFor_of_unforged reached unforged verified
    obtain ⟨nonempty, same⟩ := principal_of_subject (enabled_of_grounds grounds) subject read
    exact ⟨index, origin, record, user, nonempty, request, grounds, account, same⟩

/-! ## A principal -/

theorem told_append {service : AuthService} {system middle : AuthSystem} {first rest : List AuthAction}
    {index : ℕ} {question : Ask} {value : Reply question}
    (ran : system.run driver (serve service) first = some middle)
    (told : Told service index middle rest question value) :
    Told service index system (first ++ rest) question value := by
  induction first generalizing system with
  | nil =>
    cases ran
    exact told
  | cons action others ih =>
    obtain ⟨later, stepped, ran⟩ := Option.bind_eq_some_iff.mp ran
    exact .inr ⟨later, stepped, ih ran⟩

/-- The claims that a program has signed next. -/
def signsNext : Service Response → Option Claims
  | .call (.ask (.sign claims)) _ => some claims
  | _ => none

theorem calls_of_signsNext {program : Service Response} {claims : Claims}
    (signs : signsNext program = some claims) : ∃ next, program = .call (.ask (.sign claims)) next := by
  unfold signsNext at signs
  split at signs
  · cases signs
    exact ⟨_, rfl⟩
  · cases signs

/-- A world in which one string verifies. -/
def verifying (token : Str) (claims : Claims) : World where
  answer
    | .verify text => if text = token then .ok claims else .error (authenticationError (str "Invalid token"))
    | .sign claims => (sampleTick 0 0).answer (.sign claims)
    | .hash password => (sampleTick 0 0).answer (.hash password)
    | .checkHash password passwordHash => (sampleTick 0 0).answer (.checkHash password passwordHash)
    | .uuid4 => (sampleTick 0 0).answer .uuid4
    | .now => (sampleTick 0 0).answer .now

theorem verifying_iff {token text : Str} {claims other : Claims} :
    (verifying token claims).answer (.verify text) = .ok other ↔ text = token ∧ other = claims := by
  by_cases same : text = token
  · simp [verifying, same, eq_comm]
  · simp [verifying, same]

/-- The sample login up to the moment at which its access token is signed. -/
def beforeSigning : List AuthAction :=
  [.arrive (.register (str "a@b.c") (str "password"))] ++ sampleSteps 0 0 0 6 ++
    [.arrive (.login ⟨str "a@b.c", str "password"⟩)] ++ sampleSteps 1 0 10 5

/-- The claims of that access token. -/
def sampleClaims : Option Claims := do
  let middle ← System.init.run driver (serve {}) beforeSigning
  let session ← middle.sessions[1]?
  signsNext session.program

/-- Its bearer is let in. -/
theorem sample_accepted : ∃ tick principal, Unforged sampleSigner {} sampleLogin tick ∧
    getCurrentUser { jwt := {} } tick (some (str "token")) = .ok principal := by
  have readable : (sampleClaims.any fun asked =>
      (userOfClaims (sampleSigner.payload 0 ⟨0⟩ asked)).toBool) = true := by decide +kernel
  obtain ⟨asked, known, reads⟩ := (Option.any_eq_true _ _).mp readable
  obtain ⟨middle, ran, session, found, signs⟩ : ∃ middle,
      System.init.run driver (serve {}) beforeSigning = some middle ∧
      ∃ session, middle.sessions[1]? = some session ∧ signsNext session.program = some asked := by
    simpa only [sampleClaims, Option.bind_eq_bind, Option.bind_eq_some_iff] using known
  obtain ⟨next, calls⟩ := calls_of_signsNext signs
  have told : Told {} 1 System.init (beforeSigning ++ .step 1 (sampleTick 0 15) :: sampleSteps 1 0 16 4)
      (.sign asked) (str "token") :=
    told_append ran (.inl ⟨_, session, next, rfl, found, calls, rfl⟩)
  obtain ⟨principal, accepted⟩ : ∃ principal,
      userOfClaims (sampleSigner.payload 0 ⟨0⟩ asked) = .ok principal := by
    cases result : userOfClaims (sampleSigner.payload 0 ⟨0⟩ asked) with
    | ok principal => exact ⟨principal, rfl⟩
    | error error =>
      rw [result] at reads
      cases reads
  refine ⟨verifying (str "token") (sampleSigner.payload 0 ⟨0⟩ asked), principal, ?_, ?_⟩
  · intro token claims verified
    obtain ⟨rfl, rfl⟩ := verifying_iff.mp verified
    exact ⟨1, asked, 0, ⟨0⟩, told, rfl⟩
  · rw [getCurrentUser_verified rfl (verifying_iff.mpr ⟨rfl, rfl⟩)]
    exact accepted

theorem sample_principal_has_authenticated : ∃ system tick principal,
    System.init.run driver (serve {}) sampleLogin = some system ∧
    getCurrentUser { jwt := {} } tick (some (str "token")) = .ok principal ∧
    ∃ index origin record user nonempty, (requests system)[index]? = some origin ∧
      Grounds (toldFrom {} sampleLogin index) origin record user ∧
      Row.user user ∈ system.committed ∧ principal = principalOf user nonempty := by
  obtain ⟨tick, principal, unforged, shown⟩ := sample_accepted
  refine ⟨(System.init.run driver (serve {}) sampleLogin).get (by decide +kernel), tick, principal,
    (Option.some_get _).symm, shown, ?_⟩
  exact principals_have_authenticated {} sampleSigner { jwt := {} } sampleLogin _ (Option.some_get _).symm _
    unforged _ principal shown

end BackendFoundation.AuthPrincipals
