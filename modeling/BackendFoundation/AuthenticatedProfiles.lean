import BackendFoundation.AuthPrincipals
import BackendFoundation.ProfileRequests
import BackendFoundation.SoloRuns

/-! The auth service and `GET /users/me` on one database, with any number of requests of
either at once. The users that the one commits are the rows that the other's foreign key
looks for, and a profile is asked for by whoever `get_current_user` has accepted. -/
namespace BackendFoundation.AuthenticatedProfiles
open PythonValues KeyedTables RequestPrograms ReadCommitted ReadCommittedProofs ReferentialIntegrity
open TransactionWaits SoloRuns AuthPersistence AuthPrograms AuthSessions AuthRotation AuthIntegrity AuthWarrants
open TokenSigning AuthEdge AuthPrincipals TokenRoundTrip UserProfiles ProfileRequests

/-! ## One database -/

/-- A row of `users`, as the sessions of the profile routes see it. -/
def account? : Row → Option ProfileRow
  | .user user => some (.user user)
  | .refreshToken _ => none

/-- `users` as the auth service has committed it, and `user_profiles` as it was. -/
def share (db : Database) (before : ProfileDatabase) : ProfileDatabase where
  rows := db.rows.filterMap account? ++ before.rows.filter (·.profile?.isSome)
  keyed := by
    rw [List.map_append]
    refine List.nodup_append.mpr ⟨?_, before.keyed.sublist (List.filter_sublist.map _), ?_⟩
    · have keys := List.pairwise_map.mp db.keyed
      refine List.pairwise_map.mpr (List.pairwise_filterMap.mpr (keys.imp ?_))
      rintro (row | row) (other | other) different one first two second same
      · cases first
        cases second
        exact different (congrArg Key.user (ProfileKey.user.inj same))
      · cases second
      · cases first
      · cases first
    · intro key left other right same
      obtain ⟨one, first, rfl⟩ := List.mem_map.mp left
      obtain ⟨two, second, rfl⟩ := List.mem_map.mp right
      obtain ⟨row, _, read⟩ := List.mem_filterMap.mp first
      obtain ⟨_, profile⟩ := List.mem_filter.mp second
      cases row with
      | refreshToken _ => cases read
      | user user =>
        cases read
        cases two with
        | user _ => cases profile
        | profile _ => cases same

theorem mem_share_user {db : Database} {before : ProfileDatabase} {user : UserRow} :
    ProfileRow.user user ∈ share db before ↔ Row.user user ∈ db := by
  rw [← Table.mem_rows, share, List.mem_append, List.mem_filterMap, List.mem_filter]
  constructor
  · rintro (⟨row, member, read⟩ | ⟨_, never⟩)
    · cases row with
      | refreshToken _ => cases read
      | user other =>
        cases read
        exact member
    · cases never
  · exact fun member => .inl ⟨_, member, rfl⟩

theorem mem_share_profile {db : Database} {before : ProfileDatabase} {profile : UserProfile} :
    ProfileRow.profile profile ∈ share db before ↔ ProfileRow.profile profile ∈ before := by
  rw [← Table.mem_rows, share, List.mem_append, List.mem_filterMap, List.mem_filter]
  constructor
  · rintro (⟨row, _, read⟩ | ⟨member, _⟩)
    · cases row <;> cases read
    · exact member
  · exact fun member => .inr ⟨member, rfl⟩

/-- The requests to the auth service and those to the profile routes. -/
structure Backend where
  auth : AuthSystem
  profiles : ProfileSystem

inductive BackendAction where
  | auth (action : AuthAction)
  | profile (action : ProfileAction)

namespace Backend

/-- The database as the migrations leave it. -/
def init : Backend := ⟨System.init, System.init⟩

def next (service : AuthService) (backend : Backend) : BackendAction → Option Backend
  | .auth action => do
    let auth ← backend.auth.next driver (AuthPrograms.serve service) action
    return ⟨auth, { backend.profiles with
      committed := share auth.committed backend.profiles.committed }⟩
  | .profile action => do
    let profiles ← backend.profiles.next profileDriver ProfileRequests.serve action
    return { backend with profiles }

def run (service : AuthService) (backend : Backend) : List BackendAction → Option Backend
  | [] => some backend
  | action :: rest => (backend.next service action).bind fun later => later.run service rest

end Backend

def authActions (actions : List BackendAction) : List AuthAction :=
  actions.filterMap fun
    | .auth action => some action
    | .profile _ => none

def profileActions (actions : List BackendAction) : List ProfileAction :=
  actions.filterMap fun
    | .auth _ => none
    | .profile action => some action

/-! ## Who asks -/

/-- `UUID(current_user.user_id)` and the email, where it is a string. -/
def callerOf (principal : Principal) : Option Caller :=
  match UUID.ofStr principal.userId, principal.email with
  | some userId, .str email => some { userId, email }
  | _, _ => none

/-- `get_current_user` has accepted the one who asks, after these actions. -/
def Admitted (service : AuthService) (signer : JwtSigner) (container : Container)
    (actions : List AuthAction) (caller : Caller) : Prop :=
  ∃ tick authCreds principal, Unforged signer service actions tick ∧
    getCurrentUser container tick authCreds = .ok principal ∧ callerOf principal = some caller

/-- The one who asks is a user of the tables. -/
def Account (db : ProfileDatabase) (caller : Caller) : Prop :=
  ∃ user, ProfileRow.user user ∈ db ∧ user.id = caller.userId ∧ user.email = caller.email

section Accounts

variable {service : AuthService} {signer : JwtSigner} {container : Container}
  {actions : List AuthAction} {system : AuthSystem} {caller : Caller}

theorem callerOf_principalOf (user : UserRow) (nonempty : user.email ≠ []) :
    callerOf (principalOf user nonempty) = some ⟨user.id, user.email⟩ := by
  simp [callerOf, principalOf, UUID.ofStr_toStr]

theorem accepted_user {tick : World} {authCreds : Option Str} {principal : Principal}
    (reached : System.init.run driver (AuthPrograms.serve service) actions = some system)
    (unforged : Unforged signer service actions tick)
    (accepted : getCurrentUser container tick authCreds = .ok principal) :
    ∃ user nonempty, Row.user user ∈ system.committed ∧ principal = principalOf user nonempty := by
  cases authCreds with
  | none => cases accepted
  | some token =>
    obtain ⟨claims, verified, read⟩ := verified_of_accepted accepted
    obtain ⟨index, asked, now, jti, ⟨_, _, user, _, grounds, account, subject⟩, rfl⟩ :=
      signedFor_of_unforged reached unforged verified
    obtain ⟨nonempty, same⟩ := principal_of_subject (enabled_of_grounds grounds) subject read
    exact ⟨user, nonempty, account, same⟩

theorem admitted_user
    (reached : System.init.run driver (AuthPrograms.serve service) actions = some system)
    (admitted : Admitted service signer container actions caller) :
    ∃ user, Row.user user ∈ system.committed ∧ user.id = caller.userId ∧
      user.email = caller.email := by
  obtain ⟨tick, authCreds, principal, unforged, accepted, reads⟩ := admitted
  obtain ⟨user, nonempty, account, rfl⟩ := accepted_user reached unforged accepted
  rw [callerOf_principalOf] at reads
  cases reads
  exact ⟨user, account, rfl, rfl⟩

end Accounts

/-! ## What the database takes -/

/-- The email of a user fits into `user_profiles` as it is. -/
def Storable : Row → Prop
  | .user user => fits255 user.email = true
  | .refreshToken _ => True

theorem driver_writes : Writes driver Storable where
  inserts := by
    intro statement row sql
    cases statement with
    | insertUser user =>
      change (if _ then _ else _) = _ at sql
      split at sql
      · cases sql
        rename_i fits
        exact fits255_stored (Bool.and_eq_true_iff.mp fits).1
      · cases sql
    | insertRefreshToken token =>
      change (if _ then _ else _) = _ at sql
      split at sql
      · cases sql
        trivial
      · cases sql
    | getUserByEmail =>
      change (if _ then _ else _) = _ at sql
      split at sql <;> cases sql
    | getUserById | getRefreshTokenById | markRefreshTokenReplaced | revokeRefreshToken
    | revokeRefreshTokenFamily => cases sql
  updates := by
    intro statement change sql row fits
    cases statement with
    | markRefreshTokenReplaced | revokeRefreshToken | revokeRefreshTokenFamily =>
      obtain rfl := Sql.update.inj sql
      cases row with
      | user _ => exact fits
      | refreshToken _ => trivial
    | getUserById | getRefreshTokenById => cases sql
    | getUserByEmail | insertUser | insertRefreshToken =>
      change (if _ then _ else _) = _ at sql
      split at sql <;> cases sql

/-- No profile is committed, and every user could have one. -/
structure Vacant (db : ProfileDatabase) : Prop where
  unkept : ∀ profile, ProfileRow.profile profile ∉ db
  storable : ∀ user, ProfileRow.user user ∈ db → fits255 user.email = true

section Alone

variable {db later : ProfileDatabase} {caller : Caller} {all : List ProfileAction}
  {program : UsersProgram UserProfile} {pending : ProfileDatabase}

theorem Vacant.missing (vacant : Vacant db) (userId : UUID) : profileOf db userId = none := by
  refine Option.eq_none_iff_forall_ne_some.mpr fun profile found => ?_
  exact vacant.unkept profile (profileOf_eq_some.mp found).1

/-- The database takes a new profile of a user. -/
theorem Vacant.accepts (vacant : Vacant db) (account : Account db caller) (now : DateTime) :
    accepted db (caller.asked now) = true := by
  obtain ⟨user, member, id, email⟩ := account
  have fits : fits255 caller.email = true := email ▸ vacant.storable user member
  have room : admits db (.profile (newProfile (caller.asked now)).stored) = true := by
    refine Bool.and_eq_true_iff.mpr ⟨List.all_eq_true.mpr fun row here => ?_, ?_⟩
    · cases row with
      | user _ => rfl
      | profile profile => exact absurd here (vacant.unkept profile)
    · have found : db.lookup (.user caller.userId) = some (.user user) :=
        Table.lookup_eq_some.mpr ⟨member, congrArg ProfileKey.user id⟩
      change ([ProfileKey.user caller.userId].all fun key => (db.lookup key).isSome) = true
      simp [found]
  exact Bool.and_eq_true_iff.mpr ⟨varchar255_of_fits fits, room⟩

/-- Alone, the request of a user is answered with a new profile. -/
theorem Vacant.answers (vacant : Vacant db) (account : Account db caller) (now : DateTime) :
    (getMyProfile db (caller.asked now)).1 = .ok (newProfile (caller.asked now)) := by
  rw [missing_profile_returned (vacant.missing caller.userId), if_pos (vacant.accepts account now)]

/-- Other users that are committed in the meantime change nothing for a request. -/
theorem stage_later (vacant : Vacant db) (account : Account db caller) (vacant' : Vacant later)
    (account' : Account later caller) (stage : Stage db all caller program pending) :
    Stage later all caller program pending := by
  cases stage with
  | starting => exact .starting
  | untimed _ => exact .untimed (vacant'.missing _)
  | timed _ now heard => exact .timed (vacant'.missing _) now heard
  | answered profile pending now heard alone own =>
    refine .answered profile pending now (fun _ => heard (vacant.missing _)) ?_ own
    rw [vacant'.answers account', ← alone, vacant.answers account]
  | refused error now heard alone =>
    rw [vacant.answers account] at alone
    cases alone
  | failed error fault => exact .failed error fault

end Alone

/-! ## Runs -/

/-- The invariant: the profile routes see the users that the auth service has committed and
no profile, and every request is one of a user. -/
structure Attended (all : List ProfileAction) (backend : Backend) : Prop where
  rotating : Rotating openRun backend.auth
  fits : Fits Storable backend.auth
  users : ∀ user, ProfileRow.user user ∈ backend.profiles.committed ↔
    Row.user user ∈ backend.auth.committed
  unkept : ∀ profile, ProfileRow.profile profile ∉ backend.profiles.committed
  accounts : ∀ session ∈ backend.profiles.sessions,
    Account backend.profiles.committed session.origin
  stands : ∀ session ∈ backend.profiles.sessions, Stands backend.profiles.committed all session

section Runs

variable {service : AuthService} {signer : JwtSigner} {container : Container}
  {all : List ProfileAction} {backend after : Backend}

theorem Attended.vacant (attended : Attended all backend) : Vacant backend.profiles.committed where
  unkept := attended.unkept
  storable := fun user member => attended.fits.committed _ ((attended.users user).mp member)

theorem attended_init : Attended all Backend.init where
  rotating := rotating_init
  fits := ⟨fun row here => absurd here (Table.not_mem_empty row),
    fun _ member => absurd member List.not_mem_nil⟩
  users := fun _ => ⟨fun here => absurd here (Table.not_mem_empty _),
    fun here => absurd here (Table.not_mem_empty _)⟩
  unkept := fun _ => Table.not_mem_empty _
  accounts := fun _ member => absurd member List.not_mem_nil
  stands := fun _ member => absurd member List.not_mem_nil

/-- A step of the auth service. -/
theorem attended_auth {action : AuthAction} {auth : AuthSystem} (attended : Attended all backend)
    (stepped : backend.auth.next driver (AuthPrograms.serve service) action = some auth) :
    Attended all ⟨auth, { backend.profiles with
      committed := share auth.committed backend.profiles.committed }⟩ := by
  have fits := fits_next driver_writes attended.fits stepped
  have grown := (preserves_next attended.rotating stepped).users
  have vacant : Vacant (share auth.committed backend.profiles.committed) :=
    ⟨fun profile here => attended.unkept profile (mem_share_profile.mp here),
      fun user here => fits.committed _ (mem_share_user.mp here)⟩
  have accounts : ∀ session ∈ backend.profiles.sessions,
      Account (share auth.committed backend.profiles.committed) session.origin := by
    intro session member
    obtain ⟨user, here, id, email⟩ := attended.accounts session member
    exact ⟨user, mem_share_user.mpr (grown user ((attended.users user).mp here)), id, email⟩
  exact {
    rotating := open_next attended.rotating stepped
    fits
    users := fun _ => mem_share_user
    unkept := vacant.unkept
    accounts
    stands := fun session member => stage_later attended.vacant (attended.accounts session member)
      vacant (accounts session member) (attended.stands session member) }

/-- A step of the profile routes. -/
theorem attended_profile {action : ProfileAction} {profiles : ProfileSystem}
    (attended : Attended all backend) (among : action ∈ all)
    (account : ∀ caller, action = .arrive caller → Account backend.profiles.committed caller)
    (stepped : backend.profiles.next profileDriver ProfileRequests.serve action = some profiles) :
    Attended all { backend with profiles } := by
  have serving := serving_next ⟨rfl, attended.stands⟩ among stepped
  have accounts : ∀ session ∈ profiles.sessions,
      Account backend.profiles.committed session.origin := by
    intro session member
    rcases next_cases stepped with ⟨caller, rfl, rfl⟩ | ⟨index, _, old, _, later, _, found, moved, rfl⟩
    · rcases List.mem_append.mp member with here | new
      · exact attended.accounts session here
      · rw [List.mem_singleton.mp new]
        exact account caller rfl
    · rcases List.mem_or_eq_of_mem_set member with here | rfl
      · exact attended.accounts session here
      · rw [(moves_cases moved).1]
        exact attended.accounts old (List.mem_of_getElem? found)
  exact {
    rotating := attended.rotating
    fits := attended.fits
    users := fun user => serving.committed ▸ attended.users user
    unkept := fun profile => serving.committed ▸ attended.unkept profile
    accounts := fun session member => serving.committed ▸ accounts session member
    stands := fun session member => serving.committed ▸ serving.stands session member }

theorem authActions_append (first second : List BackendAction) :
    authActions (first ++ second) = authActions first ++ authActions second :=
  List.filterMap_append

theorem attended_run (done : List BackendAction) {rest : List BackendAction}
    (reached : System.init.run driver (AuthPrograms.serve service) (authActions done) =
      some backend.auth)
    (attended : Attended all backend)
    (admitted : ∀ before caller after, done ++ rest = before ++ .profile (.arrive caller) :: after →
      Admitted service signer container (authActions before) caller)
    (among : ∀ action ∈ profileActions rest, action ∈ all)
    (ran : backend.run service rest = some after) :
    System.init.run driver (AuthPrograms.serve service) (authActions (done ++ rest)) =
      some after.auth ∧ Attended all after := by
  induction rest generalizing done backend with
  | nil =>
    cases ran
    rw [List.append_nil]
    exact ⟨reached, attended⟩
  | cons action rest ih =>
    obtain ⟨middle, stepped, ran⟩ := Option.bind_eq_some_iff.mp ran
    rw [List.append_cons] at admitted ⊢
    cases action with
    | auth action =>
      obtain ⟨auth, moved, same⟩ := Option.bind_eq_some_iff.mp stepped
      cases same
      refine ih _ ?_ (attended_auth attended moved) admitted among ran
      rw [authActions_append, run_append, reached]
      simp [authActions, System.run, moved]
    | profile action =>
      obtain ⟨profiles, moved, same⟩ := Option.bind_eq_some_iff.mp stepped
      cases same
      have account : ∀ caller, action = .arrive caller →
          Account backend.profiles.committed caller := by
        rintro caller rfl
        have asks := admitted done caller rest (List.append_assoc _ _ _)
        obtain ⟨user, member, id, email⟩ := admitted_user reached asks
        exact ⟨user, (attended.users user).mpr member, id, email⟩
      refine ih _ ?_ (attended_profile attended (among action List.mem_cons_self) account moved)
        admitted (fun other member => among other (List.mem_cons_of_mem _ member)) ran
      have unchanged : authActions (done ++ [.profile action]) = authActions done := by
        simp [authActions]
      rw [unchanged]
      exact reached

/-- A request is answered with the profile it has made. -/
theorem Attended.answer (attended : Attended all backend) {session : ProfileSession}
    (member : session ∈ backend.profiles.sessions) {profile : UserProfile}
    (returned : session.program = .ret profile) :
    ∃ now, Heard all (.ok now) ∧ profile = newProfile (session.origin.asked now) := by
  have account := attended.accounts session member
  have stands := attended.stands session member
  obtain ⟨origin, program, pending, scan, published⟩ := session
  change Stage _ all origin program pending at stands
  cases returned
  cases stands with
  | answered _ _ now heard alone _ =>
    rw [attended.vacant.answers account] at alone
    exact ⟨now, heard (attended.vacant.missing _), (Except.ok.inj alone).symm⟩

/-- Only its surroundings can fail a request. -/
theorem Attended.failure (attended : Attended all backend) {session : ProfileSession}
    (member : session ∈ backend.profiles.sessions) {error : Exn}
    (raised : session.program = .raise error) : Faulted all error := by
  have account := attended.accounts session member
  have stands := attended.stands session member
  obtain ⟨origin, program, pending, scan, published⟩ := session
  change Stage _ all origin program pending at stands
  cases raised
  cases stands with
  | refused _ now _ alone =>
    rw [attended.vacant.answers account] at alone
    cases alone
  | failed _ fault => exact fault

/-- The profile of one request is in doubt because of another's only if they are for the
same id or the same email. -/
theorem same_of_inDoubt {db : ProfileDatabase} {session : ProfileSession} {caller other : Caller}
    {now made : DateTime} (unkept : ∀ profile, ProfileRow.profile profile ∉ db)
    (own : ∀ row ∈ session.pending, row = .profile (newProfile (other.asked made)).stored)
    (doubt : session.inDoubt db (.profile (newProfile (caller.asked now)).stored) = true) :
    other.userId = caller.userId ∨ stored255 other.email = stored255 caller.email := by
  obtain ⟨row, member, clashes⟩ := List.any_eq_true.mp doubt
  obtain rfl := own row member
  have superseded : db.lookup
      (profileSchema.key (.profile (newProfile (other.asked made)).stored)) = none := by
    refine Option.eq_none_iff_forall_ne_some.mpr fun old found => ?_
    obtain ⟨old_member, key⟩ := Table.lookup_eq_some.mp found
    cases old with
    | user _ => cases key
    | profile profile => exact unkept profile old_member
  rw [superseded, Bool.or_false, Bool.or_eq_true, decide_eq_true_eq] at clashes
  rcases clashes with keys | emails
  · exact .inl (ProfileKey.profile.inj keys)
  · exact .inr (beq_iff_eq.mp emails)

/-- **Users get their own profiles.** However the requests to the auth service and to the
profile routes interleave, whoever is accepted is a user; a request made for someone who was
accepted is answered with that user's id and email at a time that the clock has told, and
fails only if the clock or the database does. No profile is ever committed, and the auth
service runs as it would without the profile routes. -/
theorem users_get_their_own_profiles (service : AuthService) (signer : JwtSigner)
    (container : Container) (actions : List BackendAction) (backend : Backend)
    (ran : Backend.init.run service actions = some backend)
    (admitted : ∀ before caller after, actions = before ++ .profile (.arrive caller) :: after →
      Admitted service signer container (authActions before) caller) :
    System.init.run driver (AuthPrograms.serve service) (authActions actions) =
      some backend.auth ∧
    (∀ profile, ProfileRow.profile profile ∉ backend.profiles.committed) ∧
    (∀ tick authCreds principal, Unforged signer service (authActions actions) tick →
      getCurrentUser container tick authCreds = .ok principal →
      ∃ user, Row.user user ∈ backend.auth.committed ∧
        callerOf principal = some ⟨user.id, user.email⟩) ∧
    ∀ session ∈ backend.profiles.sessions, ∃ user, Row.user user ∈ backend.auth.committed ∧
      session.origin = ⟨user.id, user.email⟩ ∧
      (∀ profile, session.program = .ret profile → ∃ now,
        Heard (profileActions actions) (.ok now) ∧ profile = ⟨user.id, user.email, now, now⟩) ∧
      ∀ error, session.program = .raise error → Faulted (profileActions actions) error := by
  obtain ⟨reached, attended⟩ := attended_run [] rfl attended_init admitted
    (fun _ member => member) ran
  refine ⟨reached, attended.unkept, fun tick authCreds principal unforged accepted => ?_,
    fun session member => ?_⟩
  · obtain ⟨user, nonempty, account, rfl⟩ := accepted_user reached unforged accepted
    exact ⟨user, account, callerOf_principalOf user nonempty⟩
  · obtain ⟨user, here, id, email⟩ := attended.accounts session member
    have origin : session.origin = ⟨user.id, user.email⟩ := by
      rw [id, email]
    refine ⟨user, (attended.users user).mp here, origin, fun profile returned => ?_,
      fun error raised => attended.failure member raised⟩
    obtain ⟨now, heard, same⟩ := attended.answer member returned
    rw [origin] at same
    exact ⟨now, heard, same⟩

/-! ## A user who has logged in asks twice at once -/

/-- The user of `sampleLogin`. -/
def sampleCaller : Caller := ⟨sampleId 1, str "a@b.c"⟩

/-- Both requests have found no profile, and the first has made one. -/
def visits : List ProfileAction :=
  [.arrive sampleCaller, .arrive sampleCaller, .step 0 (surroundings 0), .step 1 (surroundings 1),
    .step 0 (surroundings 2), .step 1 (surroundings 3), .step 0 (surroundings 4)]

def sampleVisits : List BackendAction := sampleLogin.map .auth ++ visits.map .profile

theorem sample_admitted : Admitted {} sampleSigner { jwt := {} } sampleLogin sampleCaller := by
  obtain ⟨tick, principal, unforged, accepted⟩ := sample_accepted
  have alone : (System.init.run driver (AuthPrograms.serve {}) sampleLogin).any (fun system =>
      system.committed.rows.all fun row =>
        (row.user?.map fun user => (⟨user.id, user.email⟩ : Caller) == sampleCaller).getD true) =
      true := by
    decide +kernel
  obtain ⟨system, ran, all⟩ := (Option.any_eq_true _ _).mp alone
  obtain ⟨user, nonempty, account, rfl⟩ := accepted_user ran unforged accepted
  have same := List.all_eq_true.mp all _ account
  refine ⟨tick, _, _, unforged, accepted, ?_⟩
  rw [callerOf_principalOf, beq_iff_eq.mp same]

/-- The requests to the profile routes come after all those to the auth service. -/
theorem split_visits {logins : List AuthAction} {visits : List ProfileAction}
    {before after : List BackendAction} {action : ProfileAction}
    (split : logins.map .auth ++ visits.map .profile = before ++ .profile action :: after) :
    authActions before = logins ∧ action ∈ visits := by
  induction logins generalizing before with
  | nil =>
    rw [List.map_nil, List.nil_append] at split
    have member : BackendAction.profile action ∈ visits.map .profile :=
      split ▸ List.mem_append_right _ List.mem_cons_self
    have earlier : ∀ other ∈ before, other ∈ visits.map .profile :=
      fun other here => split ▸ List.mem_append_left _ here
    refine ⟨List.filterMap_eq_nil_iff.mpr fun other here => ?_, ?_⟩
    · obtain ⟨_, _, rfl⟩ := List.mem_map.mp (earlier other here)
      rfl
    · simpa using member
  | cons login logins ih =>
    cases before with
    | nil => cases split
    | cons first before =>
      obtain ⟨rfl, rest⟩ := List.cons.inj split
      obtain ⟨same, member⟩ := ih rest
      exact ⟨congrArg (login :: ·) same, member⟩

theorem sample_visits_admitted : ∀ before caller after,
    sampleVisits = before ++ .profile (.arrive caller) :: after →
      Admitted {} sampleSigner { jwt := {} } (authActions before) caller := by
  intro before caller after split
  obtain ⟨same, member⟩ := split_visits split
  have arrives : Action.arrive caller ∈ visits → caller = sampleCaller := by
    simp [visits]
  rw [same, arrives member]
  exact sample_admitted

/-- The second request has to wait. -/
theorem sample_visits_block : ∃ backend, Backend.init.run {} sampleVisits = some backend ∧
    1 < backend.profiles.sessions.length ∧
      backend.next {} (.profile (.step 1 (surroundings 5))) = none := by
  have ends : (Backend.init.run {} sampleVisits).any (fun backend =>
      1 < backend.profiles.sessions.length &&
        (backend.next {} (.profile (.step 1 (surroundings 5)))).isNone) = true := by
    decide +kernel
  obtain ⟨backend, ran, both⟩ := (Option.any_eq_true _ _).mp ends
  have parts := Bool.and_eq_true_iff.mp both
  exact ⟨backend, ran, of_decide_eq_true parts.1, Option.isNone_iff_eq_none.mp parts.2⟩

theorem sample_user_gets_its_profile : ∃ backend, Backend.init.run {} sampleVisits = some backend ∧
    ∀ session ∈ backend.profiles.sessions, ∃ user, Row.user user ∈ backend.auth.committed ∧
      session.origin = ⟨user.id, user.email⟩ ∧
      ∀ profile, session.program = .ret profile → ∃ now, profile = ⟨user.id, user.email, now, now⟩ := by
  obtain ⟨backend, ran, -⟩ := sample_visits_block
  refine ⟨backend, ran, fun session member => ?_⟩
  obtain ⟨user, account, origin, answers, -⟩ := (users_get_their_own_profiles {} sampleSigner
    { jwt := {} } sampleVisits backend ran sample_visits_admitted).2.2.2 session member
  refine ⟨user, account, origin, fun profile returned => ?_⟩
  obtain ⟨now, -, same⟩ := answers profile returned
  exact ⟨now, same⟩

/-- Two requests of which one waits for the other are made for one user. -/
theorem Attended.same_user (attended : Attended all backend) {session other : ProfileSession}
    (member : session ∈ backend.profiles.sessions) (among : other ∈ backend.profiles.sessions)
    (waits : WaitsFor profileDriver backend.profiles.committed session other) :
    other.origin = session.origin := by
  obtain ⟨now, doubt⟩ := doubt_of_waits (attended.stands session member) waits
  obtain ⟨profile, ended, -, own⟩ := answered_of_waits ⟨rfl, attended.stands⟩ among waits
  obtain ⟨_, -, made⟩ := attended.answer among ended
  rw [made] at own
  obtain ⟨user, here, id, email⟩ := attended.accounts other among
  obtain ⟨waiting, here', id', email'⟩ := attended.accounts session member
  have kept : stored255 user.email = user.email := stored255_of_fits (attended.vacant.storable _ here)
  have kept' : stored255 waiting.email = waiting.email :=
    stored255_of_fits (attended.vacant.storable _ here')
  have same : user = waiting := by
    rcases same_of_inDoubt attended.unkept own doubt with ids | emails
    · have keys : ProfileKey.user user.id = .user waiting.id := by rw [id, id', ids]
      exact ProfileRow.user.inj (Table.eq_of_key here here' keys)
    · rw [← email, ← email', kept, kept'] at emails
      have held := (attended.users user).mp here
      have held' := (attended.users waiting).mp here'
      have keys := attended.rotating.isolated.clean _ held _ held' (by simp [schema, Row.clash, emails])
      exact Row.user.inj (Table.eq_of_key held held' keys)
  have fields : ∀ caller : Caller, caller = ⟨caller.userId, caller.email⟩ := fun _ => rfl
  rw [fields other.origin, fields session.origin, ← id, ← email, same, id', email']

/-- **A user waits only for itself.** When a request for a profile has to wait, it is for
another request, and all that it waits for are requests of the same user, which have been
answered and can be closed at any time. -/
theorem users_wait_only_for_themselves (service : AuthService) (signer : JwtSigner)
    (container : Container) (actions : List BackendAction) (backend : Backend)
    (ran : Backend.init.run service actions = some backend)
    (admitted : ∀ before caller after, actions = before ++ .profile (.arrive caller) :: after →
      Admitted service signer container (authActions before) caller)
    (index : ℕ) (session : ProfileSession) (there : backend.profiles.sessions[index]? = some session)
    (tick : Tick ClockReply Exn)
    (blocked : backend.next service (.profile (.step index tick)) = none) :
    (∃ i other, i ≠ index ∧ backend.profiles.sessions[i]? = some other ∧
      WaitsFor profileDriver backend.profiles.committed session other) ∧
    ∀ (i : ℕ) other, backend.profiles.sessions[i]? = some other →
      WaitsFor profileDriver backend.profiles.committed session other →
      other.origin = session.origin ∧ Closable backend.profiles i other := by
  obtain ⟨-, attended⟩ := attended_run [] rfl attended_init admitted (fun _ member => member) ran
  have stuck : backend.profiles.next profileDriver ProfileRequests.serve (.step index tick) = none := by
    refine Option.eq_none_iff_forall_ne_some.mpr fun profiles moved => ?_
    simp [Backend.next, moved] at blocked
  refine ⟨waits_of_blocked there stuck, fun i other found waits => ⟨?_, ?_⟩⟩
  · exact attended.same_user (List.mem_of_getElem? there) (List.mem_of_getElem? found) waits
  · exact closable_of_waits ⟨rfl, attended.stands⟩ found waits

theorem sample_user_waits_for_itself : ∃ backend session i other,
    Backend.init.run {} sampleVisits = some backend ∧ i ≠ 1 ∧
      backend.profiles.sessions[1]? = some session ∧ backend.profiles.sessions[i]? = some other ∧
      other.origin = session.origin ∧ Closable backend.profiles i other := by
  obtain ⟨backend, ran, bound, blocked⟩ := sample_visits_block
  have there : backend.profiles.sessions[1]? = some backend.profiles.sessions[1] :=
    List.getElem?_eq_getElem bound
  obtain ⟨⟨i, other, different, found, waits⟩, closable⟩ := users_wait_only_for_themselves {}
    sampleSigner { jwt := {} } sampleVisits backend ran sample_visits_admitted 1 _ there _ blocked
  obtain ⟨same, closes⟩ := closable i other found waits
  exact ⟨backend, _, i, other, ran, different, there, found, same, closes⟩

end Runs

end BackendFoundation.AuthenticatedProfiles
