import BackendFoundation.AuthEdge
import BackendFoundation.AuthVerdicts

/-! Which claims make authentication raise something else than its own errors.
The presence of a claim is checked before its value is read; that the value can
be read is not. -/
namespace BackendFoundation.ClaimErrors
open PythonValues RequestPrograms ReadCommitted TransactionLogic KeyedTables
open AuthPersistence AuthPrograms AuthDiscipline AuthSpecs TokenSigning AuthEdge AuthVerdicts

/-- Claims that pass the checks of `get_current_user` on what is present. -/
def Announces (claims : Claims) : Prop :=
  (claims.get "typ").isStr (str "access") = true ∧ (claims.get "sub").truthy = true ∧
    (claims.get "email").truthy = true

/-- The values of which the user is built can be read. -/
structure Buildable (claims : Claims) : Prop where
  userId : ∃ id, uuidOf (claims.get "sub") = .ok id
  tenantId : (claims.get "tenant_id").truthy = true → ∃ id, uuidOf (claims.get "tenant_id") = .ok id
  scopes : ∃ scopes, frozenset (scopesOf claims) = .ok scopes

/-- What `get_current_user` may answer. -/
def UserTyped (answer : Except Exn Principal) : Prop :=
  (∃ user, answer = .ok user) ∨ ∃ detail, answer = .error (authenticationError detail)

/-- What `refresh` may answer. -/
def RefreshTyped (answer : Except Exn (AccessToken × RefreshToken)) : Prop :=
  (∃ tokens, answer = .ok tokens) ∨ (∃ detail, answer = .error (invalidCredentialsError detail)) ∨
    answer = .error refreshReuseDetectedError

/-- No untyped exception leaves a consumer of this token. -/
structure OnlyTyped (container : Container) (service : AuthService) (db : Database)
    (ticks : ℕ → World) (token : Str) : Prop where
  user : UserTyped (getCurrentUser container (ticks 0) (some token))
  refresh : RefreshTyped (exec driver ticks 0 db (Table.empty schema) (service.refresh token)).1
  logout : (exec driver ticks 0 db (Table.empty schema) (AuthService.logout token)).1 = .ok ()

/-- What the conversions of a claim's value raise. -/
def Untyped (error : Exn) : Prop :=
  error = .valueError ∨ error = .typeError ∨ error = .attributeError

section Values

variable {value : Json} {error : Exn}

theorem uuidOf_error (raised : uuidOf value = .error error) : Untyped error := by
  cases value with
  | str text =>
    simp only [uuidOf] at raised
    split at raised
    · cases raised
    · cases raised
      exact .inl rfl
  | _ =>
    cases raised
    exact .inr (.inr rfl)

theorem frozenset_error (raised : frozenset value = .error error) : Untyped error := by
  have typeError : error = .typeError := by
    cases value with
    | str text => cases raised
    | obj fields => cases raised
    | arr items =>
      simp only [frozenset] at raised
      split at raised
      · cases raised
      · cases raised
        rfl
    | _ =>
      cases raised
      rfl
  exact .inr (.inl typeError)

theorem tenantOf_error (raised : tenantOf value = .error error) :
    value.truthy = true ∧ uuidOf value = .error error := by
  unfold tenantOf at raised
  split at raised
  · rename_i present
    cases read : uuidOf value with
    | ok id => simp [read] at raised
    | error cause =>
      rw [read] at raised
      cases raised
      exact ⟨present, rfl⟩
  · cases raised

end Values

section Consumers

variable {claims : Claims}

theorem not_userTyped_of_untyped {error : Exn} (untyped : Untyped error) :
    ¬ UserTyped (.error error) := by
  rintro (⟨user, never⟩ | ⟨detail, same⟩)
  · cases never
  · cases same
    rcases untyped with never | never | never <;> cases never

/-- `get_current_user` reads what it has found present. -/
theorem userOfClaims_typed_iff :
    UserTyped (userOfClaims claims) ↔ (Announces claims → Buildable claims) := by
  unfold userOfClaims
  by_cases typ : (claims.get "typ").isStr (str "access") = true
  swap
  · rw [if_pos (by simpa using typ)]
    exact ⟨fun _ announces => absurd announces.1 typ, fun _ => .inr ⟨_, rfl⟩⟩
  by_cases sub : (claims.get "sub").truthy = true
  swap
  · rw [if_neg (by simpa using typ), if_pos (by simpa using sub)]
    exact ⟨fun _ announces => absurd announces.2.1 sub, fun _ => .inr ⟨_, rfl⟩⟩
  by_cases email : (claims.get "email").truthy = true
  swap
  · rw [if_neg (by simpa using typ), if_neg (by simpa using sub), dif_neg email]
    exact ⟨fun _ announces => absurd announces.2.2 email, fun _ => .inr ⟨_, rfl⟩⟩
  rw [if_neg (by simpa using typ), if_neg (by simpa using sub), dif_pos email]
  have announces : Announces claims := ⟨typ, sub, email⟩
  cases userId : uuidOf (claims.get "sub") with
  | error error =>
    refine iff_of_false (not_userTyped_of_untyped (uuidOf_error userId)) fun built => ?_
    obtain ⟨id, read⟩ := (built announces).userId
    cases userId.symm.trans read
  | ok id =>
    cases tenantId : tenantOf (claims.get "tenant_id") with
    | error error =>
      obtain ⟨present, unread⟩ := tenantOf_error tenantId
      refine iff_of_false (not_userTyped_of_untyped (uuidOf_error unread)) fun built => ?_
      obtain ⟨id, read⟩ := (built announces).tenantId present
      cases unread.symm.trans read
    | ok tenant =>
      cases scopes : frozenset (scopesOf claims) with
      | error error =>
        refine iff_of_false (not_userTyped_of_untyped (frozenset_error scopes)) fun built => ?_
        obtain ⟨elements, read⟩ := (built announces).scopes
        cases scopes.symm.trans read
      | ok elements =>
        apply iff_of_true
        · show UserTyped (requireActiveUser _ _)
          unfold requireActiveUser
          split
          · exact .inr ⟨_, rfl⟩
          · exact .inl ⟨_, rfl⟩
        · refine fun _ => ⟨⟨id, userId⟩, fun present => ?_, ⟨elements, scopes⟩⟩
          rw [tenantOf, if_pos present] at tenantId
          cases read : uuidOf (claims.get "tenant_id") with
          | ok id => exact ⟨id, rfl⟩
          | error error => simp [read] at tenantId

end Consumers

section Tokens

variable {container : Container} {service : AuthService} {db : Database} {ticks : ℕ → World}
variable {token : Str} {claims : Claims}

theorem refresh_typed_iff (consistent : Consistent db) (healthy : ∀ moment, Healthy db (ticks moment))
    (verified : (ticks 0).answer (.verify token) = .ok claims) :
    RefreshTyped (exec driver ticks 0 db (Table.empty schema) (service.refresh token)).1 ↔
      ¬ Malformed claims := by
  have verdict : Verdict db ticks token claims
      (exec driver ticks 0 db (Table.empty schema) (service.refresh token)).1 :=
    ensures_exec (refresh_verdict consistent healthy verified)
  generalize (exec driver ticks 0 db (Table.empty schema) (service.refresh token)).1 = result at verdict
  cases verdict with
  | accepted tokens accepted =>
    exact iff_of_true (.inl ⟨tokens, rfl⟩) (wellFormed_of_named accepted.names)
  | refused detail wellFormed => exact iff_of_true (.inr (.inl ⟨detail, rfl⟩)) wellFormed
  | reused wellFormed => exact iff_of_true (.inr (.inr rfl)) wellFormed
  | unread malformed error kind =>
    apply iff_of_false _ (not_not_intro malformed)
    rcases kind with rfl | rfl <;> rintro (⟨_, never⟩ | ⟨_, never⟩ | never) <;> cases never

theorem logout_typed_iff (consistent : Consistent db) (healthy : ∀ moment, Healthy db (ticks moment))
    (verified : (ticks 0).answer (.verify token) = .ok claims) :
    (exec driver ticks 0 db (Table.empty schema) (AuthService.logout token)).1 = .ok () ↔
      ¬ Malformed claims := by
  have verdict : LogoutVerdict claims
      (exec driver ticks 0 db (Table.empty schema) (AuthService.logout token)).1 :=
    ensures_exec (logout_verdict consistent healthy verified)
  generalize (exec driver ticks 0 db (Table.empty schema) (AuthService.logout token)).1 = result
    at verdict
  cases result with
  | ok done => exact iff_of_true rfl verdict
  | error error => exact iff_of_false (fun never => by cases never) (not_not_intro verdict.1)

/-- **Which claims stay within the documented errors.** With a healthy database
and healthy ports, no untyped exception escapes for a token exactly when what its
claims announce of a user can be read, and the `jti` of a refresh token too. -/
theorem only_typed_errors_iff (container : Container) (service : AuthService)
    (wired : container.tokenSigner = true) (reached : Reached db)
    (healthy : ∀ moment, Healthy db (ticks moment))
    (verified : (ticks 0).answer (.verify token) = .ok claims) :
    OnlyTyped container service db ticks token ↔
      (Announces claims → Buildable claims) ∧ ¬ Malformed claims := by
  have consistent := reached.consistent
  have user := getCurrentUser_verified wired verified
  constructor
  · intro typed
    refine ⟨?_, (logout_typed_iff consistent healthy verified).mp typed.logout⟩
    rw [← userOfClaims_typed_iff, ← user]
    exact typed.user
  · rintro ⟨built, wellFormed⟩
    refine ⟨?_, (refresh_typed_iff consistent healthy verified).mpr wellFormed,
      (logout_typed_iff consistent healthy verified).mpr wellFormed⟩
    rw [user]
    exact userOfClaims_typed_iff.mpr built

end Tokens

/-! Ports that verify every string with the same claims. -/

def sampleWorld (claims : Claims) : World where
  answer
    | .verify _ => .ok claims
    | .sign _ => .ok []
    | .hash _ => .ok (str "hash")
    | .checkHash _ _ => .ok true
    | .uuid4 => .ok ⟨0⟩
    | .now => .ok 0

theorem reached_empty : Reached (Table.empty schema) := by
  have ran : System.init.run driver (serve {}) [] = some System.init := rfl
  exact .run ran

theorem sampleWorld_healthy (claims : Claims) : Healthy (Table.empty schema) (sampleWorld claims) where
  sound := by
    rintro error (never | ⟨question, total, answer⟩)
    · cases never
    · cases question with
      | verify token => exact total token rfl
      | _ => cases answer
  stored := by
    intro text hash same
    cases same
    exact ⟨by decide, fun row held => absurd held (Table.not_mem_empty _)⟩
  fresh := fun _ _ row held => absurd held (Table.not_mem_empty _)

/-- The claims of an access token whose `sub` is the text of a UUID. -/
def readableClaims : Claims :=
  [(str "typ", .str (str "access")), (str "sub", .str (UUID.toStr ⟨0⟩)), (str "email", .str (str "a"))]

theorem readable_claims_raise_typed_errors :
    OnlyTyped { jwt := {} } {} (Table.empty schema) (fun _ => sampleWorld readableClaims) [] := by
  refine (only_typed_errors_iff _ _ rfl reached_empty (fun _ => sampleWorld_healthy readableClaims)
    rfl).mpr ⟨fun _ => ⟨⟨⟨0⟩, ?_⟩, fun tenant => ?_, [], rfl⟩, fun malformed => ?_⟩
  · have sub : readableClaims.get "sub" = .str (UUID.toStr ⟨0⟩) := rfl
    rw [sub, uuidOf, UUID.ofStr_toStr]
  · cases tenant
  · cases malformed.1

/-- The claims of an access token whose `sub` is no UUID. -/
def unreadableSub : Claims :=
  [(str "typ", .str (str "access")), (str "sub", .str (str "x")), (str "email", .str (str "a"))]

/-- The claims of a refresh token whose `jti` is no UUID. -/
def unreadableJti : Claims := [(str "typ", .str (str "refresh")), (str "jti", .str (str "x"))]

/-- The three consumers raise `ValueError`, and one is enough for the claims of a
healthy service in a reached state to break what is asked. -/
theorem unreadable_claims_raise_value_errors :
    getCurrentUser { jwt := {} } (sampleWorld unreadableSub) (some []) = .error .valueError ∧
      (exec driver (fun _ => sampleWorld unreadableJti) 0 (Table.empty schema) (Table.empty schema)
        (AuthService.refresh {} [])).1 = .error .valueError ∧
      (exec driver (fun _ => sampleWorld unreadableJti) 0 (Table.empty schema) (Table.empty schema)
        (AuthService.logout [])).1 = .error .valueError ∧
      ¬ ∀ (container : Container) (service : AuthService) (db : Database) (ticks : ℕ → World)
        (token : Str) (claims : Claims), container.tokenSigner = true → Reached db →
        (∀ moment, Healthy db (ticks moment)) → (ticks 0).answer (.verify token) = .ok claims →
        OnlyTyped container service db ticks token := by
  have user : getCurrentUser { jwt := {} } (sampleWorld unreadableSub) (some []) =
      .error .valueError := rfl
  refine ⟨user, rfl, rfl, fun claimed => ?_⟩
  have typed := claimed { jwt := {} } {} _ (fun _ => sampleWorld unreadableSub) [] unreadableSub rfl
    reached_empty (fun _ => sampleWorld_healthy unreadableSub) rfl
  exact not_userTyped_of_untyped (.inl rfl) (user ▸ typed.user)

end BackendFoundation.ClaimErrors
