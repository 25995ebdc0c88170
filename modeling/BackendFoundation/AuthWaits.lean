import BackendFoundation.AuthIntegrity
import BackendFoundation.SessionSteps
import BackendFoundation.TransactionWaits

/-! What the requests of the auth service wait for, and how long they take. Every UPDATE
has one row to change at most, even the one that revokes a family: so a request that has
written something only waits while it exchanges a token that somebody else is exchanging
too, and a deadlock needs two tokens with one id or one hash. The steps that a request
takes itself are bounded by what it was asked to do. -/
namespace BackendFoundation.AuthWaits
open PythonValues KeyedTables RequestPrograms ReadCommitted ReadCommittedProofs TransactionWaits
open SessionSteps
open AuthPersistence AuthPrograms AuthDiscipline AuthSessions AuthRotation AuthIntegrity

/-- Another token has the id or the hash of this one. -/
def Taken (system : AuthSystem) (row : RefreshTokenRow) : Prop :=
  ∃ taken : RefreshTokenRow, (Holds system.committed taken ∨
    ∃ session ∈ system.sessions, Holds session.pending taken) ∧
      (taken.id = row.id ∨ taken.hash = row.hash)

/-- The request is about to insert this token as the successor of the row that it has marked. -/
structure Exchanges (db : Database) (session : AuthSession) (row : RefreshTokenRow) : Prop where
  calls : ∃ next, session.program = .call (.stmt (.insertRefreshToken row)) next
  marked : ∀ own ∈ session.pending, ∃ old name revokedAt, Holds db old ∧
    old.familyId = row.familyId ∧ own = .refreshToken (markReplaced name revokedAt old)

/-! ## UPDATEs begin with nothing written, and change one row -/

section Steps

variable {service : AuthService} {system after : AuthSystem} {session other : AuthSession}
  {action : AuthAction}

/-- A session that is about to begin an UPDATE has written nothing. -/
theorem begins_clean (rotating : Rotating openRun system) (member : session ∈ system.sessions)
    {statement : Statement} {change : Change schema} {next : Except Exn (List Row) → Service Response}
    (calls : session.program = .call (.stmt statement) next)
    (sql : driver.sql statement = .update change) (starts : session.scan = none) :
    session.pending = Table.empty schema := by
  obtain ⟨phase, follows, placed⟩ := rotating.placed session member
  rw [calls] at follows
  obtain ⟨_, allowed, _⟩ := follows (.ok []) (possible_updated sql fun _ => by simp)
  rw [Placed, starts] at placed
  exact (standing_begun (updates_of_afterRows sql allowed) placed.1).1

/-- The invariant: what each session has written, and that it begins its UPDATEs clean and
has one row to change in them. -/
structure Orderly (system : AuthSystem) : Prop where
  rotating : Rotating openRun system
  scans : ∀ session ∈ system.sessions, Untouched session ∧ Narrow session

end Steps

/-- What a request's operations cost, where the tables have so many rows: an UPDATE takes its
snapshot, locks the rows of it and answers. -/
def cost (rows : ℕ) : Op Ask Statement → ℕ
  | .stmt (.markRefreshTokenReplaced _ _ _) => 3
  | .stmt (.revokeRefreshToken _ _) => 3
  | .stmt (.revokeRefreshTokenFamily _ _) => rows + 2
  | _ => 1

/-- The most steps that a request takes. -/
def mostSteps (rows : ℕ) : Request → ℕ
  | .register _ _ => 6
  | .login _ => 10
  | .refresh _ => rows + 18
  | .logout _ => 6

section Lengths

variable {service : AuthService} {rows budget : ℕ} {α β : Type}

/-- Some steps, and those that follow. -/
theorem ends_steps (steps : ℕ) {program : Service α} {rest : α → Service β}
    (first : program.EndsWithin (cost rows) steps)
    (second : ∀ value, (rest value).EndsWithin (cost rows) budget) :
    (program >>= rest).EndsWithin (cost rows) (budget + steps) := by
  rw [Nat.add_comm]
  exact first.bind second

theorem ends_step {program : Service α} {rest : α → Service β}
    (first : program.EndsWithin (cost rows) 1)
    (second : ∀ value, (rest value).EndsWithin (cost rows) budget) :
    (program >>= rest).EndsWithin (cost rows) (budget + 1) :=
  ends_steps 1 first second

/-- A check makes no call. -/
theorem ends_check {program : Service α} {rest : α → Service β}
    (first : program.EndsWithin (cost rows) 0)
    (second : ∀ value, (rest value).EndsWithin (cost rows) budget) :
    (program >>= rest).EndsWithin (cost rows) budget :=
  (first.bind second).mono (by omega)

theorem raiseIf_ends (condition : Bool) (error : Exn) :
    (Program.raiseIf condition error : Service Unit).EndsWithin (cost rows) 0 := by
  cases condition <;> trivial

theorem scalarOneOrNone_ends (values : List α) :
    (scalarOneOrNone values).EndsWithin (cost rows) 0 := by
  match values with
  | [] | [_] | _ :: _ :: _ => trivial

theorem ask_ends (question : Ask) : (ask question).EndsWithin (cost rows) 1 :=
  .perform _

theorem getUserByEmail_ends (email : Str) : (getUserByEmail email).EndsWithin (cost rows) 1 :=
  Program.EndsWithin.bind_end (.perform _) fun _ => scalarOneOrNone_ends _

theorem getUserById_ends (userId : UUID) : (getUserById userId).EndsWithin (cost rows) 1 :=
  Program.EndsWithin.bind_end (.perform _) fun _ => scalarOneOrNone_ends _

theorem getRefreshTokenById_ends (tokenId : UUID) :
    (getRefreshTokenById tokenId).EndsWithin (cost rows) 1 :=
  Program.EndsWithin.bind_end (.perform _) fun _ => scalarOneOrNone_ends _

theorem commit_ends : commit.EndsWithin (cost rows) 1 :=
  .perform _

theorem register_ends (email password : Str) :
    (AuthService.register email password).EndsWithin (cost rows) 6 := by
  refine ends_step (getUserByEmail_ends email) fun existing => ?_
  refine ends_check (raiseIf_ends _ _) fun _ => ?_
  refine ends_step (ask_ends _) fun userId => ?_
  refine ends_step (ask_ends _) fun passwordHash => ?_
  refine ends_step (ask_ends _) fun createdAt => ?_
  refine ends_step (Program.EndsWithin.bind_end (.perform _) fun _ => trivial) fun userRecord => ?_
  refine ends_step commit_ends fun _ => ?_
  cases AuthenticatedUser.new _ _ _ _ <;> trivial

theorem orFresh_ends (given : Option UUID) :
    (AuthService.orFresh given).EndsWithin (cost rows) 1 := by
  cases given with
  | some id => trivial
  | none => exact ask_ends _

theorem issueTokens_ends (user : UserRow) (familyId tokenId : Option UUID) :
    (service.issueTokens user familyId tokenId).EndsWithin (cost rows) 7 := by
  refine ends_step (ask_ends _) fun now => ?_
  refine ends_step (orFresh_ends _) fun family => ?_
  refine ends_step (orFresh_ends _) fun id => ?_
  refine ends_step (ask_ends _) fun access => ?_
  refine ends_step (ask_ends _) fun refresh => ?_
  refine ends_step (ask_ends _) fun hash => ?_
  exact ends_step (Program.EndsWithin.bind_end (.perform _) fun _ => trivial) fun _ => trivial

theorem login_ends (creds : Credentials) :
    (service.login creds).EndsWithin (cost rows) 10 := by
  refine ends_step (getUserByEmail_ends _) fun found => ?_
  cases found with
  | none => trivial
  | some user =>
    refine ends_check (raiseIf_ends _ _) fun _ => ?_
    refine ends_step (ask_ends _) fun verified => ?_
    refine ends_check (raiseIf_ends _ _) fun _ => ?_
    refine ends_steps 7 (issueTokens_ends user none none) fun tokens => ?_
    exact ends_step commit_ends fun _ => trivial

theorem revokeReused_ends (record : RefreshTokenRow) :
    (AuthService.revokeReused record).EndsWithin (cost rows) (rows + 4) := by
  refine ends_step (ask_ends _) fun revokedAt => ?_
  have sweep : (revokeRefreshTokenFamily record.familyId revokedAt).EndsWithin (cost rows) (rows + 2) :=
    Program.EndsWithin.bind_end (.perform _) fun _ => trivial
  have total : rows + 3 = rows + 2 + 1 := rfl
  rw [total]
  exact sweep.bind fun _ => commit_ends.bind_end fun _ => trivial

theorem exchange_ends (record : RefreshTokenRow) :
    (service.exchange record).EndsWithin (cost rows) 15 := by
  refine ends_check (raiseIf_ends _ _) fun _ => ?_
  refine ends_step (ask_ends _) fun checkedAt => ?_
  refine ends_check (raiseIf_ends _ _) fun _ => ?_
  refine ends_step (getUserById_ends _) fun found => ?_
  cases found with
  | none => trivial
  | some user =>
    refine ends_check (raiseIf_ends _ _) fun _ => ?_
    refine ends_step (ask_ends _) fun newTokenId => ?_
    refine ends_step (ask_ends _) fun now => ?_
    have mark : (markRefreshTokenReplaced record.id newTokenId now).EndsWithin (cost rows) 3 :=
      Program.EndsWithin.bind_end (.perform _) fun _ => scalarOneOrNone_ends _
    refine ends_steps 3 mark fun _ => ?_
    refine ends_steps 7 (issueTokens_ends user record.familyId newTokenId) fun tokens => ?_
    exact ends_step commit_ends fun _ => trivial

theorem parseUuid_ends (value : Json) : (parseUuid value).EndsWithin (cost rows) 0 := by
  unfold parseUuid
  cases uuidOf value with
  | ok id => trivial
  | error error => trivial

theorem refresh_ends (token : Str) :
    (service.refresh token).EndsWithin (cost rows) (rows + 18) := by
  refine ends_step (Program.EndsWithin.handle_end (.perform _) fun error => ?_) fun claims => ?_
  · split <;> trivial
  refine ends_check ?_ fun tokenId => ?_
  · refine ends_check (raiseIf_ends _ _) fun _ => ?_
    exact ends_check (raiseIf_ends _ _) fun _ => parseUuid_ends _
  refine ends_step (getRefreshTokenById_ends _) fun found => ?_
  cases found with
  | none => trivial
  | some record =>
    refine ends_step (ask_ends _) fun matched => ?_
    refine ends_check (raiseIf_ends _ _) fun _ => ?_
    split
    · exact (revokeReused_ends record).mono (by omega)
    · exact (exchange_ends record).mono (by omega)

theorem logout_ends (token : Str) : (AuthService.logout token).EndsWithin (cost rows) 6 := by
  refine ends_step (Program.EndsWithin.handle_end
    (Program.EndsWithin.bind_end (.perform _) fun _ => trivial) fun error => ?_) fun claims => ?_
  · split <;> trivial
  cases claims with
  | none => trivial
  | some claims =>
    dsimp only [AuthService.revokePresented]
    split
    · trivial
    split
    · trivial
    refine ends_check (parseUuid_ends _) fun tokenId => ?_
    refine ends_step (ask_ends _) fun revokedAt => ?_
    have revoke : (revokeRefreshToken tokenId revokedAt).EndsWithin (cost rows) 3 :=
      Program.EndsWithin.bind_end (.perform _) fun _ => scalarOneOrNone_ends _
    exact ends_steps 3 revoke fun _ => commit_ends

theorem serve_ends (request : Request) :
    (serve service request).EndsWithin (cost rows) (mostSteps rows request) := by
  cases request with
  | register email password => exact (register_ends email password).bind_end fun _ => trivial
  | login creds => exact (login_ends creds).bind_end fun _ => trivial
  | refresh token => exact (refresh_ends token).bind_end fun _ => trivial
  | logout token => exact (logout_ends token).bind_end fun _ => trivial

end Lengths

theorem cost_positive (rows : ℕ) (op : Op Ask Statement) : 1 ≤ cost rows op := by
  unfold cost
  split <;> omega

/-- The cost of an UPDATE covers the rows that it can find. -/
theorem covers_of_rotating {system : AuthSystem} {rows : ℕ} (rotating : Rotating openRun system)
    (fewer : system.committed.rows.length ≤ rows) :
    ∀ session ∈ system.sessions, Covers driver (cost rows) system.committed session := by
  intro session member statement change next calls sql starts
  have clean := begins_clean rotating member calls sql starts
  rw [clean, Table.overlay_empty]
  cases statement with
  | markRefreshTokenReplaced tokenId replacedBy revokedAt =>
    cases sql
    exact Nat.add_le_add_right (single_by_id _ _ _ system.committed) 2
  | revokeRefreshToken tokenId revokedAt =>
    cases sql
    exact Nat.add_le_add_right (single_by_id _ _ _ system.committed) 2
  | revokeRefreshTokenFamily familyId revokedAt =>
    have selected := List.length_filter_le change.wanted system.committed.rows
    change _ ≤ rows + 2
    omega
  | getUserById | getRefreshTokenById => cases sql
  | getUserByEmail | insertUser | insertRefreshToken =>
    change (if _ then _ else _) = _ at sql
    split at sql <;> cases sql

/-- **Requests end.** However the requests interleave and whatever fails, a request that has
taken so many steps of its own has been answered: six to register or log out, ten to log
in, and to refresh eighteen and one for each row that the tables hold in the end. -/
theorem requests_end (service : AuthService) (actions : List AuthAction) (system : AuthSystem)
    (reached : System.init.run driver (serve service) actions = some system)
    (index : ℕ) (session : AuthSession) (found : system.sessions[index]? = some session)
    (enough : mostSteps system.committed.rows.length session.origin ≤ stepsOf index actions) :
    (∃ response, session.program = .ret response) ∨ ∃ error, session.program = .raise error := by
  have start : Rotating openRun (System.init : AuthSystem) := rotating_init
  have kept := along_kept (fun _ _ _ holds stepped => open_next holds stepped) start reached
  have every : Along driver (serve service) (fun state _ => ∀ session ∈ state.sessions,
      Covers driver (cost system.committed.rows.length) state.committed session) System.init actions :=
    along_mono (fun _ _ _ now => covers_of_rotating now.1 now.2) kept
  have owes := owes_run (fun _ => 0) (cost_positive _) serve_ends every
    (fun _ _ never => by cases never) (fun _ _ => rfl) reached found
  rw [Nat.zero_add, Nat.sub_eq_zero_of_le enough] at owes
  have ended := ended_of_owes (cost_positive _) owes
  cases program : session.program with
  | ret response => exact .inl ⟨response, rfl⟩
  | raise error => exact .inr ⟨error, rfl⟩
  | call op next => exact absurd program (ended op next)

/-- The steps of the login are more than it may take. -/
theorem sample_requests_end : ∃ (system : AuthSystem) (session : AuthSession),
    System.init.run driver (serve {}) sampleLogin = some system ∧ system.sessions[1]? = some session ∧
      ((∃ response, session.program = .ret response) ∨ ∃ error, session.program = .raise error) := by
  have ends : (System.init.run driver (serve {}) sampleLogin).any (fun system =>
      system.sessions[1]?.any fun session => mostSteps system.committed.rows.length session.origin ≤
        stepsOf 1 sampleLogin) = true := by
    decide +kernel
  obtain ⟨system, ran, some_session⟩ := (Option.any_eq_true _ _).mp ends
  obtain ⟨session, found, enough⟩ := (Option.any_eq_true _ _).mp some_session
  exact ⟨system, session, ran, found,
    requests_end {} sampleLogin system ran 1 session found (of_decide_eq_true enough)⟩

end BackendFoundation.AuthWaits
