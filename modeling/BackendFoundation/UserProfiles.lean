import BackendFoundation.AuthPersistence

/-! `app/users/`: the profile of an authenticated user, created on the first
read. The tables are `users` and, from migration `0003`, `user_profiles`; each
request of `GET /users/me` is served in a session of its own, which
`_get_db_session` opens and closes. -/
namespace BackendFoundation.UserProfiles
open PythonValues KeyedTables RequestPrograms ReadCommitted AuthPersistence

structure UserProfile where
  id : UUID
  email : Str
  createdAt : DateTime
  updatedAt : DateTime
  deriving DecidableEq

/-- A row of `users`, or of `user_profiles`, which has the profile's fields. -/
inductive ProfileRow where
  | user (row : UserRow)
  | profile (row : UserProfile)
  deriving DecidableEq

inductive ProfileKey where
  | user (id : UUID)
  | profile (id : UUID)
  deriving DecidableEq

namespace ProfileRow

def key : ProfileRow → ProfileKey
  | .user row => .user row.id
  | .profile row => .profile row.id

def profile? : ProfileRow → Option UserProfile
  | .user _ => none
  | .profile row => some row

/-- `ix_users_email` and `ix_user_profiles_email`. -/
def clash : ProfileRow → ProfileRow → Bool
  | .user left, .user right => left.email == right.email
  | .profile left, .profile right => left.email == right.email
  | _, _ => false

end ProfileRow

/-- The constraints of `users` and of migration `0003`. -/
def profileSchema : Schema ProfileRow ProfileKey where
  key := ProfileRow.key
  clash := ProfileRow.clash
  clash_symm := by
    intro left right
    cases left <;> cases right <;> simp only [ProfileRow.clash, Bool.beq_comm]
  refs
    | .user _ => []
    | .profile row => [.user row.id]
  deferredRefs _ := []

abbrev ProfileDatabase := Table profileSchema

/-- The row that `user_profiles` keeps of one it takes. -/
def UserProfile.stored (row : UserProfile) : UserProfile := { row with email := stored255 row.email }

inductive ProfileStatement where
  | getUserProfile (userId : UUID)
  | createUserProfile (row : UserProfile)

def ProfileStatement.sql : ProfileStatement → Sql profileSchema
  | .getUserProfile userId => .select fun row => row.key == .profile userId
  | .createUserProfile row =>
    if varchar255 row.email then .insert (.profile row.stored) else .refused .data

def profileDriver : Driver profileSchema ProfileStatement Exn where
  sql := ProfileStatement.sql
  raised := .db

/-- What `UserService` asks of its clock. -/
inductive ClockAsk where
  | now

abbrev ClockReply : ClockAsk → Type
  | .now => DateTime

abbrev UsersProgram := Program (Op ClockAsk ProfileStatement) (Answer ClockReply ProfileRow) Exn

def getUserProfile (userId : UUID) : UsersProgram (Option UserProfile) := do
  match (← Program.perform (Op.stmt (.getUserProfile userId))).filterMap ProfileRow.profile? with
  | [] => return none
  | [row] => return some row
  | _ => .raise .multipleResultsFound

/-- `session.add` and `session.flush`: the INSERT is sent, nothing is committed. -/
def createUserProfile (row : UserProfile) : UsersProgram UserProfile := do
  let _ ← Program.perform (Op.stmt (.createUserProfile row))
  return row

/-- `UserService.get_or_create_profile`. -/
def getOrCreateProfile (userId : UUID) (email : Str) : UsersProgram UserProfile := do
  match ← getUserProfile userId with
  | some profile => return profile
  | none =>
    let now ← Program.perform (Op.ask ClockAsk.now)
    createUserProfile { id := userId, email, createdAt := now, updatedAt := now }

/-- One request of `GET /users/me`, for an authenticated user, and the reading
of the clock while it is served. -/
structure MeRequest where
  userId : UUID
  email : Str
  now : DateTime
  deriving DecidableEq

/-- A healthy database, and a clock with this reading. -/
def surroundings (now : DateTime) : Tick ClockReply Exn where
  answer
    | .now => .ok now

/-- A request served in its own session: its response and the committed rows
after the session is closed. -/
def getMyProfile (db : ProfileDatabase) (request : MeRequest) :
    Except Exn UserProfile × ProfileDatabase :=
  exec profileDriver (fun _ => surroundings request.now) 0 db (Table.empty profileSchema)
    (getOrCreateProfile request.userId request.email)

/-- What the request asks of the clock and the database. -/
def operationsOf (db : ProfileDatabase) (request : MeRequest) :
    List (Op ClockAsk ProfileStatement) :=
  operations profileDriver (fun _ => surroundings request.now) 0 db (Table.empty profileSchema)
    (getOrCreateProfile request.userId request.email)

/-- The committed rows after a sequence of requests. -/
def servedAll (db : ProfileDatabase) (requests : List MeRequest) : ProfileDatabase :=
  requests.foldl (fun db request => (getMyProfile db request).2) db

/-- The committed profile of a user. -/
def profileOf (db : ProfileDatabase) (userId : UUID) : Option UserProfile :=
  (db.lookup (.profile userId)).bind ProfileRow.profile?

/-- The profile the request would insert. -/
def newProfile (request : MeRequest) : UserProfile :=
  { id := request.userId, email := request.email, createdAt := request.now, updatedAt := request.now }

/-- The database takes that row: the column takes the email and no other profile
has what it keeps of it, and the user exists. -/
def accepted (db : ProfileDatabase) (request : MeRequest) : Bool :=
  varchar255 request.email && admits db (.profile (newProfile request).stored)

/-- After the first request for a user that returns a profile, the user has one
row in every later state, and every later request returns that profile and
inserts nothing. -/
def ProfilePersists (db : ProfileDatabase) (userId : UUID) (requests : List MeRequest) : Prop :=
  ∀ before first after profile, requests = before ++ first :: after → first.userId = userId →
    (getMyProfile (servedAll db before) first).1 = .ok profile →
      (∀ served rest, after = served ++ rest →
        ∃! row, ProfileRow.profile row ∈ servedAll db (before ++ first :: served) ∧
          row.id = userId) ∧
      ∀ served later rest, after = served ++ later :: rest → later.userId = userId →
        (getMyProfile (servedAll db (before ++ first :: served)) later).1 = .ok profile ∧
          ∀ row, Op.stmt (.createUserProfile row) ∉
            operationsOf (servedAll db (before ++ first :: served)) later

theorem profileOf_eq_some {db : ProfileDatabase} {userId : UUID} {profile : UserProfile} :
    profileOf db userId = some profile ↔
      ProfileRow.profile profile ∈ db ∧ profile.id = userId := by
  constructor
  · intro found
    obtain ⟨row, here, same⟩ := Option.bind_eq_some_iff.mp found
    obtain ⟨member, key⟩ := Table.lookup_eq_some.mp here
    cases row with
    | user _ => cases same
    | profile _ =>
      cases same
      exact ⟨member, by simpa [profileSchema, ProfileRow.key] using key⟩
  · rintro ⟨member, rfl⟩
    have found : db.lookup (.profile profile.id) = some (.profile profile) :=
      Table.lookup_eq_some.mpr ⟨member, rfl⟩
    simp [profileOf, found, ProfileRow.profile?]

theorem select_profile (db : ProfileDatabase) (userId : UUID) :
    (db.rows.filter fun row => row.key == .profile userId).filterMap ProfileRow.profile? =
      (profileOf db userId).toList := by
  have single : db.rows.filter (fun row => row.key == ProfileKey.profile userId) =
      (db.lookup (.profile userId)).toList := Table.filter_key db _
  rw [single, profileOf]
  cases db.lookup (.profile userId) with
  | none => rfl
  | some row => cases row <;> rfl

/-- The lookup answers with the committed profile. -/
private theorem exec_getUserProfile {α : Type} (db : ProfileDatabase) (userId : UUID)
    (now : DateTime) (moment : ℕ) (rest : Option UserProfile → UsersProgram α) :
    exec profileDriver (fun _ => surroundings now) moment db (Table.empty profileSchema)
        (getUserProfile userId >>= rest) =
      exec profileDriver (fun _ => surroundings now) (moment + 1) db (Table.empty profileSchema)
        (rest (profileOf db userId)) ∧
    operations profileDriver (fun _ => surroundings now) moment db (Table.empty profileSchema)
        (getUserProfile userId >>= rest) =
      .stmt (.getUserProfile userId) ::
        operations profileDriver (fun _ => surroundings now) (moment + 1) db
          (Table.empty profileSchema) (rest (profileOf db userId)) := by
  have outcome : perform profileDriver (surroundings now) db (Table.empty profileSchema)
      (Op.stmt (.getUserProfile userId) : Op ClockAsk ProfileStatement) =
      (.ok (db.rows.filter fun row => row.key == .profile userId), db,
        Table.empty profileSchema) := rfl
  simp only [getUserProfile, Program.perform, Program.call_bind, Program.ret_bind, exec,
    operations, outcome, select_profile]
  cases profileOf db userId <;> exact ⟨rfl, rfl⟩

/-- A committed profile is returned as it is. -/
theorem committed_profile_returned {db : ProfileDatabase} {request : MeRequest}
    {profile : UserProfile} (known : profileOf db request.userId = some profile) :
    getMyProfile db request = (.ok profile, db) ∧
      operationsOf db request = [.stmt (.getUserProfile request.userId)] := by
  obtain ⟨response, asked⟩ := exec_getUserProfile db request.userId request.now 0 fun
    | some profile => .ret profile
    | none => do
      let now ← Program.perform (Op.ask ClockAsk.now)
      createUserProfile
        { id := request.userId, email := request.email, createdAt := now, updatedAt := now }
  rw [known] at response asked
  exact ⟨response, asked⟩

/-- Without one, the profile the database accepts is returned and not kept. -/
theorem missing_profile_returned {db : ProfileDatabase} {request : MeRequest}
    (missing : profileOf db request.userId = none) :
    getMyProfile db request =
      (if accepted db request then .ok (newProfile request)
        else .error (.db (if varchar255 request.email then .integrity else .data)), db) := by
  obtain ⟨response, _⟩ := exec_getUserProfile db request.userId request.now 0 fun
    | some profile => .ret profile
    | none => do
      let now ← Program.perform (Op.ask ClockAsk.now)
      createUserProfile
        { id := request.userId, email := request.email, createdAt := now, updatedAt := now }
  rw [missing] at response
  refine response.trans ?_
  rw [accepted, newProfile]
  cases fits : varchar255 request.email <;>
    cases room : admits db (.profile (UserProfile.stored
      ⟨request.userId, request.email, request.now, request.now⟩)) <;>
      simp [createUserProfile, Program.perform, exec, ReadCommitted.perform, surroundings,
        profileDriver, ProfileStatement.sql, Sql.run, fits, room]

/-- No request changes what is committed. -/
theorem getMyProfile_commits_nothing (db : ProfileDatabase) (request : MeRequest) :
    (getMyProfile db request).2 = db := by
  cases known : profileOf db request.userId with
  | some profile => rw [(committed_profile_returned known).1]
  | none => rw [missing_profile_returned known]

theorem servedAll_commits_nothing (db : ProfileDatabase) (requests : List MeRequest) :
    servedAll db requests = db := by
  induction requests with
  | nil => rfl
  | cons request rest ih =>
    rw [servedAll, List.foldl_cons, getMyProfile_commits_nothing]
    exact ih

/-- **When profiles persist.** A user's profile persists over a sequence of
requests exactly when it was committed before them, or the database accepts none
that the sequence would create. -/
theorem profile_persists_iff (db : ProfileDatabase) (userId : UUID) (requests : List MeRequest) :
    ProfilePersists db userId requests ↔
      (∃ row, ProfileRow.profile row ∈ db ∧ row.id = userId) ∨
        ∀ request ∈ requests, request.userId = userId → accepted db request = false := by
  have committed : (∃ row, ProfileRow.profile row ∈ db ∧ row.id = userId) ↔
      ∃ row, profileOf db userId = some row := exists_congr fun _ => profileOf_eq_some.symm
  constructor
  · intro persists
    by_cases known : ∃ row, ProfileRow.profile row ∈ db ∧ row.id = userId
    · exact .inl known
    · right
      intro request member own
      by_contra taken
      have missing : profileOf db request.userId = none := by
        rw [own]
        exact Option.eq_none_iff_forall_ne_some.mpr fun row found =>
          known (committed.mpr ⟨row, found⟩)
      obtain ⟨before, after, split⟩ := List.append_of_mem member
      have returned : (getMyProfile (servedAll db before) request).1 = .ok (newProfile request) := by
        rw [servedAll_commits_nothing, missing_profile_returned missing,
          if_pos (by simpa using taken)]
      obtain ⟨one, _⟩ := persists before request after _ split own returned
      obtain ⟨row, kept, _⟩ := one [] after rfl
      rw [servedAll_commits_nothing] at kept
      exact known ⟨row, kept⟩
  · intro condition before first after profile split own returned
    by_cases known : ∃ row, ProfileRow.profile row ∈ db ∧ row.id = userId
    · obtain ⟨row, found⟩ := committed.mp known
      have response : ∀ request, request.userId = userId → getMyProfile db request = (.ok row, db) ∧
          operationsOf db request = [.stmt (.getUserProfile request.userId)] :=
        fun request same => committed_profile_returned (by rw [same, found])
      rw [servedAll_commits_nothing, (response first own).1] at returned
      obtain rfl : row = profile := Except.ok.inj returned
      simp only [servedAll_commits_nothing]
      refine ⟨fun served rest _ => ?_, fun served later rest _ same => ?_⟩
      · refine ⟨row, profileOf_eq_some.mp found, fun other other_row => ?_⟩
        exact Option.some.inj ((profileOf_eq_some.mpr other_row).symm.trans found)
      · obtain ⟨answer, asked⟩ := response later same
        exact ⟨by rw [answer], by simp [asked]⟩
    · have missing : profileOf db first.userId = none := by
        rw [own]
        exact Option.eq_none_iff_forall_ne_some.mpr fun row found =>
          known (committed.mpr ⟨row, found⟩)
      have refused := condition.resolve_left known first (by rw [split]; simp) own
      rw [servedAll_commits_nothing, missing_profile_returned missing, refused] at returned
      cases returned

/-- The tables when one user has just registered. -/
def oneUser : ProfileDatabase :=
  (Table.empty profileSchema).put (.user
    { id := ⟨0⟩, email := str "a@b.c", passwordHash := str "hash", createdAt := 0, tenantId := none
      disabled := false })

/-- A registered user asks twice, a minute apart: the first answer is a profile
that no later state holds. -/
theorem profile_not_kept :
    ¬ ∀ db userId requests, ProfilePersists db userId requests := by
  intro persists
  have missing : profileOf oneUser ⟨0⟩ = none := by decide
  have returned : (getMyProfile oneUser ⟨⟨0⟩, str "a@b.c", 0⟩).1 =
      .ok ⟨⟨0⟩, str "a@b.c", 0, 0⟩ := by
    rw [missing_profile_returned missing, if_pos (by decide)]
    rfl
  obtain ⟨one, _⟩ := persists oneUser ⟨0⟩ [⟨⟨0⟩, str "a@b.c", 0⟩, ⟨⟨0⟩, str "a@b.c", minutes 1⟩]
    [] ⟨⟨0⟩, str "a@b.c", 0⟩ [⟨⟨0⟩, str "a@b.c", minutes 1⟩] _ rfl rfl returned
  obtain ⟨row, kept, _⟩ := one [] _ rfl
  rw [servedAll_commits_nothing, profileOf_eq_some.symm, missing] at kept
  cases kept

end BackendFoundation.UserProfiles
