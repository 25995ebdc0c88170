import BackendFoundation.AuthRotation

/-! The errors that escape the service. A check precedes every INSERT and the
UPDATE of a rotation, but in a statement of its own: what another request
commits in between, and what the columns do not take, reaches the caller as an
exception of the driver. Where no step meets such a state, every request ends
in success or in an error its endpoint documents. -/
namespace BackendFoundation.AuthErrors
open PythonValues KeyedTables RequestPrograms ReadCommitted ReadCommittedProofs
open AuthPersistence AuthPrograms AuthSpecs AuthDiscipline AuthSessions AuthRotation

instance (claims : Claims) : Decidable (Malformed claims) :=
  inferInstanceAs (Decidable (_ ∧ _ ∧ _))

/-- The port answers, and a verified refresh token carries the id of a row. -/
def answers (tick : World) : Ask → Bool
  | .verify token =>
    match tick.answer (.verify token) with
    | .ok claims => !decide (Malformed claims)
    | .error (.app .authentication _) => true
    | .error _ => false
  | question =>
    match tick.answer question with
    | .ok _ => true
    | .error _ => false

/-- No committed row has the id or the hash that the new row was given, and no
row has the family that a login was given. -/
def unusedToken (db : Database) (origin : Request) (row : RefreshTokenRow) : Bool :=
  (db.rows.filterMap Row.refreshToken?).all fun old => old.id ≠ row.id && old.hash ≠ row.hash &&
    match origin with
    | .login _ => old.familyId ≠ row.familyId
    | _ => true

/-- No committed user has the id that the new one was given, or its email. -/
def unusedUser (db : Database) (row : UserRow) : Bool :=
  (db.rows.filterMap Row.user?).all fun old => old.id ≠ row.id && old.email ≠ row.email

/-- The statement's parameters are values its columns take, an INSERT meets no
committed row that conflicts with what they keep, and a rotation takes no row
already replaced. -/
def accepts (db : Database) (session : AuthSession) : Statement → Bool
  | .getUserByEmail email => textParam email
  | .insertUser row => row.email ≠ [] && varchar255 row.email && varchar255 row.passwordHash &&
      unusedUser db row.stored
  | .insertRefreshToken row => varchar255 row.hash && unusedToken db session.origin row.stored
  | .markRefreshTokenReplaced _ _ _ =>
    match session.scan with
    | some ⟨.refreshToken id :: _, _⟩ => (token? db id).all fun row => row.replacedBy.isNone
    | _ => true
  | _ => true

/-- The session's next step meets a healthy port or database, in a state that
its request expects. -/
def smooth (tick : World) (db : Database) (session : AuthSession) : Bool :=
  tick.fault.isNone &&
    match session.program with
    | .call (.ask question) _ => answers tick question
    | .call (.stmt statement) _ => accepts db session statement
    | _ => true

def Smooth (system : AuthSystem) : AuthAction → Prop
  | .arrive _ => True
  | .step index tick =>
    ∀ session ∈ system.sessions[index]?, smooth tick system.committed session = true

instance (system : AuthSystem) : (action : AuthAction) → Decidable (Smooth system action)
  | .arrive _ => isTrue trivial
  | .step _ _ => inferInstanceAs (Decidable (∀ session ∈ _, _))

/-- The regime of a run in which nothing fails. -/
def smoothRun : Regime :=
  { decodes := fun _ claims => ¬ Malformed claims, registers := fun user => user.email ≠ []
    marks := fun old => old.replacedBy = none, raises := fun _ => False, final := False }

section Statements

variable {db pending : Database} {origin : Request} {published : List Row} {tick : World}

private theorem unused_user {row old : UserRow} (free : unusedUser db row = true)
    (held : Row.user old ∈ db) : old.id ≠ row.id ∧ old.email ≠ row.email := by
  have found := List.all_eq_true.mp free old (List.mem_filterMap.mpr ⟨_, held, rfl⟩)
  simpa using found

private theorem unused_token {row old : RefreshTokenRow} (free : unusedToken db origin row = true)
    (held : Holds db old) : old.id ≠ row.id ∧ old.hash ≠ row.hash ∧
      ∀ creds, origin = .login creds → old.familyId ≠ row.familyId := by
  have found := List.all_eq_true.mp free old (List.mem_filterMap.mpr ⟨_, held, rfl⟩)
  simp only [Bool.and_eq_true, decide_eq_true_eq] at found
  refine ⟨found.1.1, found.1.2, ?_⟩
  rintro creds rfl
  simpa using found.2

/-- The successor is inserted: the rotation has replaced the family's last row. -/
private theorem admits_successor {record row : RefreshTokenRow} {user : UserRow} (clean : db.ClashFree)
    (free : unusedToken db origin row = true) (owner : row.userId = user.id)
    (family : row.familyId = record.familyId)
    (standing : Standing smoothRun db origin pending published (.marked record user row.id))
    (awaits : Awaits smoothRun db [] pending (.marked record user row.id)) :
    admits (Table.overlay db pending) (.refreshToken row) = true := by
  obtain ⟨⟨known, known_held, known_id, _, known_family⟩, _, held, _, marked⟩ := standing
  obtain ⟨own, own_here, last, revokedAt, last_held, last_id, last_current, rfl⟩ :=
    awaits.resolve_left List.not_mem_nil
  have one : Row.refreshToken known = .refreshToken last := Table.eq_of_key known_held last_held
    (congrArg Key.refreshToken (known_id.trans last_id.symm))
  cases one
  have owned : Row.user user ∈ Table.overlay db pending := by
    refine Table.mem_overlay.mpr (.inr ⟨held, fun own here same => ?_⟩)
    obtain ⟨_, _, _, _, _, rfl⟩ := marked own here
    cases same
  apply admits_token owned owner
  intro old member
  rcases Table.mem_overlay.mp member with here | ⟨kept, unwritten⟩
  · obtain ⟨base, _, base_held, _, _, same⟩ := marked _ here
    cases same
    obtain ⟨id, hash, _⟩ := unused_token free base_held
    exact ⟨id, hash, fun _ never => by cases never⟩
  · obtain ⟨id, hash, _⟩ := unused_token free kept
    refine ⟨id, hash, fun same current => ?_⟩
    have shares : Row.clash (.refreshToken known) (.refreshToken old) = true := by
      simp [Row.clash, current, show known.replacedBy = none from last_current,
        same.trans (family.trans known_family.symm)]
    exact unwritten _ own_here (clean _ known_held _ kept shares)

end Statements

section Steps

variable {service : AuthService} {system after : AuthSystem} {session : AuthSession} {tick : World}

private theorem faultless (healthy : smooth tick system.committed session = true) :
    tick.fault = none := by
  simp only [smooth, Bool.and_eq_true, Option.isNone_iff_eq_none] at healthy
  exact healthy.1

private theorem accepted {statement : Statement} {next : Except Exn (List Row) → Service Response}
    (healthy : smooth tick system.committed session = true)
    (calls : session.program = .call (.stmt statement) next) :
    accepts system.committed session statement = true := by
  simp only [smooth, Bool.and_eq_true, calls] at healthy
  exact healthy.2

private theorem answered {question : Ask} {next : Except Exn (Reply question) → Service Response}
    (healthy : smooth tick system.committed session = true)
    (calls : session.program = .call (.ask question) next) : answers tick question = true := by
  simp only [smooth, Bool.and_eq_true, calls] at healthy
  exact healthy.2

/-- Outside an UPDATE a session stands in a phase that its program follows. -/
private theorem standing_at (rotating : Rotating smoothRun system) (member : session ∈ system.sessions)
    (plain : ∀ statement next change, session.program = .call (.stmt statement) next →
      statement.sql ≠ .update change) :
    ∃ phase, (discipline session.origin).Follows phase session.program ∧
      Standing smoothRun system.committed session.origin session.pending session.published phase ∧
      Awaits smoothRun system.committed [] session.pending phase := by
  obtain ⟨phase, follows, placed⟩ := rotating.placed session member
  cases scans : session.scan with
  | none =>
    rw [Placed, scans] at placed
    exact ⟨phase, follows, placed⟩
  | some scan =>
    obtain ⟨statement, change, next, calls, sql, _⟩ := rotating.scanning session member scan scans
    exact absurd sql (plain statement next change calls)

/-- The tables take what a smooth session inserts. -/
private theorem smooth_inserts (rotating : Rotating smoothRun system)
    (member : session ∈ system.sessions) (healthy : smooth tick system.committed session = true)
    {statement : Statement} {row : Row} {next : Except Exn (List Row) → Service Response}
    (calls : session.program = .call (.stmt statement) next) (sql : statement.sql = .insert row) :
    admits (Table.overlay system.committed session.pending) row = true := by
  have allowed := accepted healthy calls
  obtain ⟨phase, follows, standing, awaits⟩ := standing_at rotating member (by
    intro other _ change same other_sql
    rw [calls] at same
    cases same
    cases sql.symm.trans other_sql)
  rw [calls] at follows
  obtain ⟨later, after, _⟩ := follows (.ok [row]) (possible_inserted sql)
  generalize asks : session.origin = origin at after standing
  cases after with
  | registered email password user _ own =>
    simp only [Statement.sql] at sql
    split at sql <;> cases sql
    have idle : session.pending = Table.empty schema := standing
    rw [idle, Table.overlay_empty]
    simp only [accepts, Bool.and_eq_true] at allowed
    exact admits_user fun old held => unused_user allowed.2 held
  | opened creds user token _ owner =>
    simp only [Statement.sql] at sql
    split at sql <;> cases sql
    obtain ⟨idle, held⟩ := standing
    rw [idle, Table.overlay_empty]
    simp only [accepts, asks, Bool.and_eq_true] at allowed
    refine admits_token held owner fun old old_held => ?_
    obtain ⟨id, hash, family⟩ := unused_token allowed.2 old_held
    exact ⟨id, hash, fun same => absurd same (family creds rfl)⟩
  | rotated token record user successor _ owner family =>
    simp only [Statement.sql] at sql
    split at sql <;> cases sql
    simp only [accepts, asks, Bool.and_eq_true] at allowed
    exact admits_successor rotating.isolated.clean allowed.2 owner family standing awaits
  | looked | found | unknown =>
    simp only [Statement.sql] at sql
    split at sql <;> cases sql
  | _ => cases sql

/-- A smooth session's next operation does not fail. -/
private theorem smooth_succeeds (rotating : Rotating smoothRun system)
    (member : session ∈ system.sessions) (healthy : smooth tick system.committed session = true)
    {op : Op Ask Statement} {next : Except Exn (Answer Reply Row op) → Service Response}
    (calls : session.program = .call op next) (error : Exn) :
    ¬ Fails driver tick system.committed session.pending op error := by
  cases op with
  | ask question => exact id
  | stmt statement =>
    have allowed := accepted healthy calls
    rintro (fault | ⟨cause, failed, -⟩)
    · rw [faultless healthy] at fault
      cases fault
    cases sql : statement.sql with
    | refused refusal =>
      cases statement with
      | getUserByEmail email =>
        simp only [accepts] at allowed
        simp [Statement.sql, allowed] at sql
      | insertUser row =>
        simp only [accepts, Bool.and_eq_true] at allowed
        simp [Statement.sql, allowed] at sql
      | insertRefreshToken row =>
        simp only [accepts, Bool.and_eq_true] at allowed
        simp [Statement.sql, allowed] at sql
      | _ => cases sql
    | insert row =>
      have room := smooth_inserts rotating member healthy calls sql
      simp [driver, sql, Sql.run, room] at failed
    | select | update => simp [driver, sql, Sql.run] at failed
  | commit =>
    rintro (fault | ⟨unsettled, -⟩)
    · rw [faultless healthy] at fault
      cases fault
    have pathed : Pathed system.committed := fun row held =>
      (rotating.history row held).imp fun _ history => history.toFamilyPath
    have checks := settled_of_pathed (pathed_effect (rotating.commit_effect member calls).1 pathed)
    rw [checks] at unsettled
    cases unsettled

/-- A smooth step keeps to the regime. -/
private theorem lawful_of_smooth {action : AuthAction} (rotating : Rotating smoothRun system)
    (calm : Smooth system action) : Lawful smoothRun system action := by
  cases action with
  | arrive request => trivial
  | step index tick =>
    intro session found
    have healthy := calm session found
    have member := List.mem_of_getElem? found
    refine ⟨?_, ?_, ?_, ?_, ?_, fun never => never.elim⟩
    · intro token next claims calls answer
      have passes := answered healthy calls
      simp only [answers, answer, Bool.not_eq_true', decide_eq_false_iff_not] at passes
      exact passes
    · intro user next calls
      have passes := accepted healthy calls
      simp only [accepts, Bool.and_eq_true, decide_eq_true_eq] at passes
      exact fun empty => passes.1.1.1 (stored255_eq_nil.mp empty)
    · intro op next error calls fails
      exact absurd fails (smooth_succeeds rotating member healthy calls error)
    · intro question next error calls answer
      have passes := answered healthy calls
      cases question with
      | verify token =>
        simp only [answers, answer] at passes
        split at passes
        · rename_i never
          cases never
        · rename_i detail same
          exact .inr ⟨token, detail, rfl, Except.error.inj same⟩
        · cases passes
      | _ => simp [answers, answer] at passes
    · intro tokenId replacedBy revokedAt next todo touched row calls scans held
      have passes := accepted healthy calls
      simp only [accepts, scans, Option.all_eq_true, Option.isNone_iff_eq_none] at passes
      exact fun _ => passes row (token?_eq_some.mpr ⟨held, rfl⟩)

private theorem rotating_smooth {actions : List AuthAction}
    (smooth : Along driver (serve service) Smooth System.init actions)
    (reached : System.init.run driver (serve service) actions = some system) :
    Rotating smoothRun system := by
  apply run_invariant _ rotating_init smooth reached
  intro state action later rotating calm stepped
  exact rotating_next rotating (lawful_of_smooth rotating calm) (fun never => never.elim) stepped

/-- Every exception that a request of the run has ended with is one that its
endpoint documents. -/
def OnlyDocumented (system : AuthSystem) : Prop :=
  ∀ session ∈ system.sessions, ∀ error, session.program = .raise error →
    ∃ kind detail, error = .app kind detail ∧ documented session.origin kind = true

/-- **Only documented errors escape a smooth run**, in whatever order the
requests take their steps. -/
theorem only_documented_errors_escape (service : AuthService) (actions : List AuthAction)
    (system : AuthSystem) (reached : System.init.run driver (serve service) actions = some system)
    (smooth : Along driver (serve service) Smooth System.init actions) :
    OnlyDocumented system := by
  intro session member error raised
  have rotating := rotating_smooth smooth reached
  obtain ⟨phase, follows, standing, _⟩ := standing_at rotating member (by simp [raised])
  rw [raised] at follows
  rcases follows with rfl | decided
  · exact standing.elim
  · cases decided with
    | documented _ kind detail known => exact ⟨kind, detail, rfl, known⟩
    | malformed claims _ bad =>
      obtain ⟨_, token, _, decodes⟩ := standing
      exact absurd bad decodes
    | nameless user empty => exact absurd empty standing.2

/-- A user logs in and exchanges a token while another one registers. -/
def smoothRequests : List AuthAction :=
  sampleLogin ++ [.arrive (.refresh (str "token")),
    .arrive (.register (str "b@b.c") (str "password"))] ++ sampleSteps 2 14 30 7 ++
    sampleSteps 3 14 40 6 ++ sampleSteps 2 14 50 9

theorem smooth_requests_end_as_documented : ∃ system,
    System.init.run driver (serve {}) smoothRequests = some system ∧ OnlyDocumented system :=
  ⟨(System.init.run driver (serve {}) smoothRequests).get (by decide +kernel),
    (Option.some_get _).symm,
    only_documented_errors_escape {} smoothRequests _ (Option.some_get _).symm (by decide +kernel)⟩

/-- Two requests register one email: both find it free. -/
def racingRegisters : List AuthAction :=
  [.arrive (.register (str "a@b.c") (str "password")),
    .arrive (.register (str "a@b.c") (str "passw0rd"))] ++
    sampleSteps 0 0 0 4 ++ sampleSteps 1 0 10 4 ++ sampleSteps 0 0 20 2 ++ sampleSteps 1 0 30 1

/-- One request registers this email. -/
def registers (email : Str) : List AuthAction :=
  [.arrive (.register email (str "password"))] ++ sampleSteps 0 0 0 6

/-- A run after which this request has ended with an exception that its endpoint
does not document. -/
def Escapes (actions : List AuthAction) (index : ℕ) (error : Exn) : Prop :=
  ∃ system, System.init.run driver (serve {}) actions = some system ∧
    (system.sessions[index]?.bind fun session => session.program.raised?) = some error ∧
    ¬ OnlyDocumented system

private theorem escapes_of_raised {actions : List AuthAction} {index : ℕ} {error : Exn}
    (ran : (System.init.run driver (serve {}) actions).isSome = true)
    (raised : (((System.init.run driver (serve {}) actions).get ran).sessions[index]?.bind
      fun session => session.program.raised?) = some error)
    (raw : ∀ kind detail, error ≠ .app kind detail) : Escapes actions index error := by
  refine ⟨_, (Option.some_get ran).symm, raised, fun documented => ?_⟩
  obtain ⟨session, found, ended⟩ := Option.bind_eq_some_iff.mp raised
  have program : session.program = .raise error := by
    cases program : session.program <;> simp [program, Program.raised?] at ended
    rw [ended]
  obtain ⟨kind, detail, same, _⟩ :=
    documented session (List.mem_of_getElem? found) error program
  exact raw kind detail same

/-- Without the condition exceptions of the driver escape: where a register or a
refresh loses a race, and for an email that the column does not take. One without
characters is registered before it is refused. -/
theorem undocumented_errors_escape :
    Escapes racingRegisters 1 (.db .integrity) ∧ Escapes racingRefreshes 3 (.db .integrity) ∧
      Escapes (registers (List.replicate 256 (chr 'a'))) 0 (.db .data) ∧
      Escapes (registers (str "\x00")) 0 (.db .data) ∧ Escapes (registers []) 0 .valueError := by
  refine ⟨?_, ?_, ?_, ?_, ?_⟩
  all_goals exact escapes_of_raised (by decide +kernel) (by decide +kernel) nofun

end Steps

end BackendFoundation.AuthErrors
