import BackendFoundation.AuthVerdicts
import BackendFoundation.SoloRuns

/-! Requests served one at a time are the events of the family machine. Between
them the clock goes on and an administrator enables and disables users. -/
namespace BackendFoundation.AuthFamilies
open PythonValues KeyedTables RequestPrograms ReadCommitted TransactionLogic SoloRuns TokenFamilies
open AuthPersistence AuthPrograms AuthSpecs AuthAtomicity AuthDiscipline AuthRotation AuthVerdicts
open FamilySimulation

/-- What a port answers and a database does when nothing is wrong with them. Ids
and hashes that are new are not in the tables yet. -/
structure Honest (ports : Ports) (db : Database) (tick : World) : Prop where
  healthy : tick.fault = none
  verify : ∀ text, tick.answer (.verify text) = .ok (ports.carried text) ∨
    ∃ detail, tick.answer (.verify text) = .error (.app .authentication detail)
  sign : ∀ claims, ∃ text, tick.answer (.sign claims) = .ok text ∧
    ∀ id, tokenNamed claims = some id → ports.used text ∧ tokenNamed (ports.carried text) = some id
  hash : ∀ text, ∃ hash, tick.answer (.hash text) = .ok hash ∧ (ports.used text →
    fits255 hash = true ∧ ports.fits text hash = true ∧ ∀ row, Holds db row → row.hash ≠ hash)
  checkHash : ∀ text hash, tick.answer (.checkHash text hash) = .ok (ports.fits text hash)
  uuid4 : ∃ id, tick.answer .uuid4 = .ok id ∧ (∀ user, Row.user user ∈ db → user.id ≠ id) ∧
    ∀ row, Holds db row → row.id ≠ id ∧ row.familyId ≠ id
  now : ∃ now, tick.answer .now = .ok now

/-- A request and its surroundings, or an administrator's change. -/
inductive Command where
  | serve (request : Request) (ticks : ℕ → World)
  | setDisabled (userId : UUID) (disabled : Bool)

/-- A command that has been executed: the tables around it and what it returned. -/
structure Served where
  before : Database
  result : Option (Except Exn Response)
  after : Database

def Command.run (service : AuthService) (db : Database) : Command → Served
  | .serve request ticks =>
    let outcome := exec driver ticks 0 db (Table.empty schema) (AuthPrograms.serve service request)
    ⟨db, some outcome.1, outcome.2⟩
  | .setDisabled userId disabled => ⟨db, none, FamilySimulation.setDisabled db userId disabled⟩

/-- Commands executed one at a time. -/
def served (service : AuthService) (db : Database) : List Command → List Served
  | [] => []
  | command :: rest => command.run service db :: served service (command.run service db).after rest

/-- The passwords and tokens that a request presents are strings in use. -/
def Uses (ports : Ports) : Request → Prop
  | .register _ password => ports.used password
  | .login creds => ports.used creds.password
  | .refresh token => ports.used token
  | .logout _ => True

def Command.Honest (ports : Ports) (db : Database) : Command → Prop
  | .serve request ticks => Uses ports request ∧ ∀ moment, AuthFamilies.Honest ports db (ticks moment)
  | .setDisabled _ _ => True

/-- Every command meets honest surroundings in the tables it finds. -/
def HonestRun (ports : Ports) (service : AuthService) : Database → List Command → Prop
  | _, [] => True
  | db, command :: rest => command.Honest ports db ∧
      HonestRun ports service (command.run service db).after rest

/-- A string as its port verifies it. -/
def shownAs (tick : World) (text : Str) : Shown where
  text
  names :=
    match tick.answer (.verify text) with
    | .ok claims => tokenNamed claims
    | .error _ => none

/-- The event that a command is. The moment of a refresh is its first reading of
the clock, after the token and its row have been checked. -/
inductive Describes : Command → Event → Prop where
  | register (email password : Str) (ticks : ℕ → World) (id : UUID)
      (storable : varchar255 email = true) :
      Describes (.serve (.register email password) ticks)
        (.register email ⟨id, stored255 email, password, false⟩)
  | unstorable (email password : Str) (ticks : ℕ → World) (refused : varchar255 email = false) :
      Describes (.serve (.register email password) ticks) .refused
  | login (creds : Credentials) (ticks : ℕ → World) (familyId : UUID) (token : Token)
      (searchable : textParam creds.username = true) :
      Describes (.serve (.login creds) ticks) (.login creds.username creds.password familyId token)
  | unsearchable (creds : Credentials) (ticks : ℕ → World)
      (refused : textParam creds.username = false) : Describes (.serve (.login creds) ticks) .refused
  | refresh (text : Str) (ticks : ℕ → World) (now : DateTime) (successor : Token)
      (clock : (ticks 3).answer .now = .ok now) :
      Describes (.serve (.refresh text) ticks) (.refresh (shownAs (ticks 0) text) now successor)
  | logout (text : Str) (ticks : ℕ → World) :
      Describes (.serve (.logout text) ticks) (.logout (shownAs (ticks 0) text))
  | setDisabled (userId : UUID) (disabled : Bool) :
      Describes (.setDisabled userId disabled) (.setDisabled userId disabled)

/-- What the caller is told of an outcome. -/
inductive Reports : Option (Except Exn Response) → Outcome → Prop where
  | registered (user : AuthenticatedUser) : Reports (some (.ok (.registered user))) .done
  | loggedOut : Reports (some (.ok .done)) .done
  | switched : Reports none .done
  | issued (access : AccessToken) (token : RefreshToken) (id : UUID) :
      Reports (some (.ok (.tokens access token))) (.issued ⟨id, token.token, token.expiresAt⟩)
  | conflict (detail : Str) : Reports (some (.error (conflictError detail))) .conflict
  | invalidCredentials (detail : Option String) :
      Reports (some (.error (invalidCredentialsError detail))) .invalidCredentials
  | reuseDetected : Reports (some (.error refreshReuseDetectedError)) .reuseDetected
  | failed (error : Exn) : Reports (some (.error error)) .failed

/-- The command did to the tables what an event does to the machine, told its
caller so, and left the tables alone where it refused the credentials. -/
structure Refines (ports : Ports) (command : Served) (event : Machine × Outcome) : Prop where
  simulates : Simulates ports command.after event.1
  reports : Reports command.result event.2
  unchanged : event.2 = .invalidCredentials → command.after = command.before

section Worlds

variable {ports : Ports} {db : Database} {tick : World} {ticks : ℕ → World}

theorem Honest.sound (honest : Honest ports db tick) {error : Exn} : ¬ Unsound tick error := by
  rintro (fault | ⟨question, total, answer⟩)
  · cases honest.healthy.symm.trans fault
  · cases question with
    | verify token => exact total token rfl
    | sign claims =>
      obtain ⟨_, same, _⟩ := honest.sign claims
      cases same.symm.trans answer
    | hash text =>
      obtain ⟨_, same, _⟩ := honest.hash text
      cases same.symm.trans answer
    | checkHash text hash => cases (honest.checkHash text hash).symm.trans answer
    | uuid4 =>
      obtain ⟨_, same, _⟩ := honest.uuid4
      cases same.symm.trans answer
    | now =>
      obtain ⟨_, same⟩ := honest.now
      cases same.symm.trans answer

theorem Honest.verified (honest : Honest ports db tick) {text : Str} {claims : Claims}
    (answer : tick.answer (.verify text) = .ok claims) :
    claims = ports.carried text ∧ (shownAs tick text).names = tokenNamed claims := by
  refine ⟨?_, by simp [shownAs, answer]⟩
  rcases honest.verify text with verified | ⟨detail, refused⟩
  · exact (Except.ok.inj (verified.symm.trans answer)).symm
  · cases refused.symm.trans answer

theorem Honest.unverified (honest : Honest ports db tick) {text : Str} {error : Exn}
    (answer : tick.answer (.verify text) = .error error) :
    (∃ detail, error = .app .authentication detail) ∧ (shownAs tick text).names = none := by
  refine ⟨?_, by simp [shownAs, answer]⟩
  rcases honest.verify text with verified | ⟨detail, refused⟩
  · cases verified.symm.trans answer
  · exact ⟨detail, (Except.error.inj (refused.symm.trans answer)).symm⟩

/-- The claims of an issued refresh token name it. -/
theorem tokenNamed_refreshClaims (user : UserRow) (id : UUID) (now expires : DateTime) :
    tokenNamed (AuthService.refreshClaims user id now expires) = some id := by
  have typ : ((AuthService.refreshClaims user id now expires).get "typ").isStr (str "refresh") =
      true := rfl
  have jti : (AuthService.refreshClaims user id now expires).get "jti" = .str id.toStr := rfl
  rw [tokenNamed, if_pos typ, named, jti]
  exact UUID.ofStr_toStr id

/-- The row of an issued token bears it, and its hash is new. -/
theorem Honest.issued (honest : ∀ moment, Honest ports db (ticks moment)) {service : AuthService}
    {user : UserRow} {row : RefreshTokenRow} {token : RefreshToken}
    (issued : Issued service ticks user row token) :
    Bears ports row ⟨row.id, token.token, token.expiresAt⟩ ∧ ¬ Unstorable ticks token.token ∧
      ∀ old, Holds db old → old.hash ≠ row.hash := by
  obtain ⟨moment, signed⟩ := issued.signed
  obtain ⟨moment', hash, hashed, kept⟩ := issued.hashed
  obtain ⟨text, answer, carries⟩ := (honest moment).sign
    (AuthService.refreshClaims user row.id row.issuedAt row.expiresAt)
  cases signed.symm.trans answer
  obtain ⟨used, carried⟩ := carries row.id (tokenNamed_refreshClaims _ _ _ _)
  have hashes : ∀ moment hash, (ticks moment).answer (.hash token.token) = .ok hash →
      fits255 hash = true ∧ ports.fits token.token hash = true ∧
        ∀ old, Holds db old → old.hash ≠ hash := by
    intro moment hash hashed
    obtain ⟨_, answer, stored⟩ := (honest moment).hash token.token
    cases hashed.symm.trans answer
    exact stored used
  obtain ⟨short, fits, fresh⟩ := hashes moment' hash hashed
  rw [stored255_of_fits short] at kept
  rw [← kept] at fits fresh
  refine ⟨⟨rfl, issued.expires.symm, used, fits, carried⟩, ?_, fresh⟩
  rintro ⟨other, refused, hashed', unfit⟩
  cases unfit.symm.trans (varchar255_of_fits (hashes other refused hashed').1)

/-- An id that was not passed on is new. -/
theorem Honest.supplied (honest : ∀ moment, Honest ports db (ticks moment)) {id : UUID}
    (supplied : Supplied ticks none id) : (∀ user, Row.user user ∈ db → user.id ≠ id) ∧
      ∀ row, Holds db row → row.id ≠ id ∧ row.familyId ≠ id := by
  obtain ⟨moment, answer⟩ := supplied
  obtain ⟨fresh, same, unused⟩ := (honest moment).uuid4
  cases answer.symm.trans same
  exact unused

end Worlds

/-- The request ends as some event of the machine does. -/
def Serves (ports : Ports) (machine : Machine) (db : Database) (command : Command)
    (result : Except Exn Response) (after : Database) : Prop :=
  ∃ event, Describes command event ∧
    Refines ports ⟨db, some result, after⟩ (machine.step event)

section Requests

variable {service : AuthService} {ports : Ports} {machine : Machine} {db : Database}
variable {ticks : ℕ → World}

private theorem inserted_user {user : UserRow} (room : admits db (.user user) = true) {other : Row} :
    other ∈ Table.overlay db ((Table.empty schema).put (.user user)) ↔ other = .user user ∨ other ∈ db := by
  simp only [Table.mem_overlay, Table.mem_put, Table.not_mem_empty, false_and, or_false]
  constructor
  · rintro (rfl | ⟨held, _⟩)
    · exact .inl rfl
    · exact .inr held
  · rintro (rfl | held)
    · exact .inl rfl
    · exact .inr ⟨held, fun own same => same ▸ (admitted_key room held).symm⟩

private theorem unused_of_admitted {user old : UserRow} (room : admits db (.user user) = true)
    (held : Row.user old ∈ db) : old.id ≠ user.id ∧ old.email ≠ user.email := by
  have apart := List.all_eq_true.mp (Bool.and_eq_true_iff.mp room).1 _ held
  simpa [schema, Row.key, Row.clash] using apart

/-- A port does not fail: its rule for exceptions asks for nothing. -/
private theorem no_port_fails (honest : ∀ moment, Honest ports db (ticks moment)) {moment : ℕ}
    {error : Exn} {wanted : Prop} (unsound : Unsound (ticks moment) error) : wanted :=
  absurd unsound (honest moment).sound

private theorem no_fault (honest : ∀ moment, Honest ports db (ticks moment)) {moment : ℕ}
    {error : Exn} {wanted : Prop} (fault : (ticks moment).fault = some error) : wanted := by
  rw [(honest moment).healthy] at fault
  cases fault

theorem register_serves (clean : db.ClashFree) (simulates : Simulates ports db machine)
    (honest : ∀ moment, Honest ports db (ticks moment)) {email password : Str}
    (used : ports.used password) :
    Ensures driver ticks
      (fun result _ after _ => Serves ports machine db (.serve (.register email password) ticks) result after)
      0 db (Table.empty schema) (AuthPrograms.serve service (.register email password)) := by
  have refused : ∀ error, varchar255 email = false →
      Serves ports machine db (.serve (.register email password) ticks) (.error error) db :=
    fun error refused => ⟨.refused, .unstorable email password ticks refused, simulates,
      .failed error, fun _ => rfl⟩
  refine ensures_bind ?_
  rw [AuthService.register]
  refine ensures_getUserByEmail (fun error _ cause => ?_) fun found _ known unknown => ?_
  · apply refused error
    cases text : textParam email with
    | true => exact absurd clean (cause text (honest 0).healthy)
    | false => simp [varchar255, text]
  refine ensures_raiseIf (fun taken => ?_) fun free => ?_
  · obtain ⟨user, rfl⟩ := Option.isSome_iff_exists.mp taken
    obtain ⟨held, same⟩ := known user rfl
    rw [Table.overlay_empty] at held
    obtain ⟨account, known_account, _⟩ := simulates.account?_of_user clean held
    rw [same] at known_account
    refine ⟨.register email ⟨user.id, stored255 email, password, false⟩,
      .register email password ticks _ ?_, ?_⟩
    · rw [← same]
      exact varchar255_of_fits (simulates.storable user held)
    · have conflict : machine.step (.register email ⟨user.id, stored255 email, password, false⟩) =
          (machine, .conflict) := by
        simp [Machine.step, Machine.register, known_account]
      rw [conflict]
      exact ⟨simulates, .conflict _, fun _ => rfl⟩
  have absent : machine.account? email = none := by
    apply simulates.account?_eq_none
    have missing : found = none := by simpa using free
    simpa [Table.overlay_empty] using unknown missing
  refine ensures_port (fun _ other => by cases other) (fun _ => no_port_fails honest) fun id fresh => ?_
  refine ensures_port (fun _ other => by cases other) (fun _ => no_port_fails honest) fun hash hashed => ?_
  refine ensures_port (fun _ other => by cases other) (fun _ => no_port_fails honest) fun now _ => ?_
  obtain ⟨stored, answer, fitting⟩ := (honest 2).hash password
  cases hashed.symm.trans answer
  obtain ⟨short, fits, _⟩ := fitting used
  obtain ⟨other, answer', unused, _⟩ := (honest 1).uuid4
  cases fresh.symm.trans answer'
  -- the email is compared a second time, as its column keeps it
  have room_iff : admits db (.user (UserRow.stored { id, email, passwordHash := hash, createdAt := now
                                                     tenantId := none, disabled := false })) = true ↔
      machine.account? (stored255 email) = none := by
    constructor
    · exact fun room => simulates.account?_eq_none fun user held same =>
        (unused_of_admitted room held).2 same
    · intro vacant
      refine admits_user fun old held => ⟨unused old held, fun same => ?_⟩
      obtain ⟨account, known_account, _⟩ := simulates.account?_of_user clean held
      rw [same] at known_account
      cases vacant.symm.trans known_account
  refine ensures_insertUser (fun error cause => ?_) fun _ storable room => ?_
  · rcases cause with fault | ⟨_, unfit | crowded⟩
    · exact no_fault honest fault
    · apply refused error
      simpa [varchar255_of_fits short] using unfit
    · cases storable : varchar255 email with
      | false => exact refused error storable
      | true =>
        rw [Table.overlay_empty, ← Bool.not_eq_true, room_iff, ← Ne, Option.ne_none_iff_isSome] at crowded
        refine ⟨_, .register email password ticks id storable, ?_⟩
        have failed : machine.step (.register email ⟨id, stored255 email, password, false⟩) =
            (machine, .failed) := by
          simp [Machine.step, Machine.register, absent, crowded]
        rw [failed]
        exact ⟨simulates, .failed error, fun never => by cases never⟩
  rw [Table.overlay_empty] at room
  refine ensures_commit (fun error cause => ?_) fun _ _ => ?_
  · rcases cause with fault | ⟨unsettled, _⟩
    · exact no_fault honest fault
    · simp [settled, Table.put, schema] at unsettled
  -- the account is there, and an email without characters is noticed only now
  have added : machine.step (.register email ⟨id, stored255 email, password, false⟩) =
      ({ machine with accounts := machine.accounts ++ [⟨id, stored255 email, password, false⟩] },
        if email = [] then .failed else .done) := by
    simp [Machine.step, Machine.register, absent, room_iff.mp room]
  have stands : Stands ports (UserRow.stored { id, email, passwordHash := hash, createdAt := now
                                               tenantId := none, disabled := false })
      ⟨id, stored255 email, password, false⟩ := by
    refine ⟨rfl, rfl, rfl, used, ?_⟩
    rw [← stored255_of_fits short] at fits
    exact fits
  have kept := simulates.registered stands (fits255_stored storable) fun _ => inserted_user room
  unfold AuthenticatedUser.new
  split
  · rename_i named
    refine ⟨_, .register email password ticks id storable, ?_⟩
    rw [added, if_neg named]
    exact ⟨kept, .registered _, fun never => by cases never⟩
  · rename_i nameless
    refine ⟨_, .register email password ticks id storable, ?_⟩
    rw [added, if_pos (by simpa using nameless)]
    exact ⟨kept, .failed _, fun never => by cases never⟩

/-- The first row of a family finds room. -/
private theorem first_admitted (honest : ∀ moment, Honest ports db (ticks moment)) {user : UserRow}
    (held : Row.user user ∈ db) {row : RefreshTokenRow} {token : RefreshToken}
    (issued : Issued service ticks user row token) (family : Supplied ticks none row.familyId)
    (id : Supplied ticks none row.id) : admits db (.refreshToken row) = true := by
  refine admits_token held issued.owner fun old member => ?_
  refine ⟨((Honest.supplied honest id).2 old member).1, (Honest.issued honest issued).2.2 old member, ?_⟩
  exact fun same => absurd same ((Honest.supplied honest family).2 old member).2

theorem login_serves (clean : db.ClashFree) (simulates : Simulates ports db machine)
    (honest : ∀ moment, Honest ports db (ticks moment)) {creds : Credentials}
    (used : ports.used creds.password) :
    Ensures driver ticks
      (fun result _ after _ => Serves ports machine db (.serve (.login creds) ticks) result after)
      0 db (Table.empty schema) (AuthPrograms.serve service (.login creds)) := by
  have refused : ∀ familyId token, textParam creds.username = true →
      machine.login creds.username creds.password familyId token = (machine, .invalidCredentials) →
      Serves ports machine db (.serve (.login creds) ticks) (.error invalidCredentialsError) db := by
    intro familyId token searchable step
    refine ⟨_, .login creds ticks familyId token searchable, ?_⟩
    have stepped : machine.step (.login creds.username creds.password familyId token) =
      (machine, .invalidCredentials) := step
    rw [stepped]
    exact ⟨simulates, .invalidCredentials none, fun _ => rfl⟩
  obtain ⟨someId, _⟩ := (honest 0).uuid4
  have someToken : Token := ⟨someId, [], 0⟩
  refine ensures_bind ?_
  rw [AuthService.login]
  refine ensures_getUserByEmail (fun error _ cause => ?_) fun found searchable known unknown => ?_
  · refine ⟨.refused, .unsearchable creds ticks ?_, simulates, .failed error, fun _ => rfl⟩
    cases text : textParam creds.username with
    | true => exact absurd clean (cause text (honest 0).healthy)
    | false => rfl
  cases found with
  | none =>
    apply refused someId someToken searchable
    have absent := simulates.account?_eq_none (unknown rfl)
    simp [Machine.login, absent]
  | some user =>
    obtain ⟨held, email⟩ := known user rfl
    rw [Table.overlay_empty] at held
    obtain ⟨account, found_account, stands⟩ := simulates.account?_of_user clean held
    rw [email] at found_account
    refine ensures_raiseIf (fun disabled => ?_) fun enabled => ?_
    · apply refused someId someToken searchable
      simp [Machine.login, found_account, ← stands.disabled, disabled]
    refine ensures_port (fun _ other => by cases other) (fun _ => no_port_fails honest)
      fun verified answer => ?_
    cases ((honest 1).checkHash _ _).symm.trans answer
    refine ensures_raiseIf (fun mismatch => ?_) fun matched => ?_
    · apply refused someId someToken searchable
      have different : account.password ≠ creds.password := by
        rw [Ne, ← stands.fits_iff used]
        simpa using mismatch
      simp [Machine.login, found_account, different]
    have same : account.password = creds.password :=
      (stands.fits_iff used).mp (by simpa using matched)
    refine ensures_issueTokens (fun error _ _ cause => ?_) fun row access token _ issued _ family id room => ?_
    · rcases cause with ⟨moment, unsound⟩ | ⟨_, row, token, issued, family, id, unfit | crowded⟩
      · exact no_port_fails honest unsound
      · exact absurd unfit (Honest.issued honest issued).2.1
      · rw [Table.overlay_empty, first_admitted honest held issued family id] at crowded
        cases crowded
    refine ensures_commit (fun error cause => ?_) fun _ _ => ?_
    · rcases cause with fault | ⟨unsettled, _⟩
      · exact no_fault honest fault
      · simp [settled, Table.put, schema, issued.current] at unsettled
    refine ⟨_, .login creds ticks row.familyId ⟨row.id, token.token, token.expiresAt⟩ searchable, ?_⟩
    have opened : machine.step (.login creds.username creds.password row.familyId
        ⟨row.id, token.token, token.expiresAt⟩) =
        ({ machine with families := machine.families ++
            [⟨row.familyId, account.id, [], ⟨row.id, token.token, token.expiresAt⟩, false⟩] },
          .issued ⟨row.id, token.token, token.expiresAt⟩) := by
      simp [Machine.step, Machine.login, found_account, ← stands.disabled, enabled, same]
    rw [opened]
    refine ⟨?_, .issued access token row.id, fun never => by cases never⟩
    have foreign := fun old old_held => ((Honest.supplied honest family).2 old old_held).2
    exact simulates.opened (Honest.issued honest issued).1 (issued.owner.trans stands.id)
      issued.current issued.unrevoked foreign (inserted_view room)

section Refusals

variable {text : Str}

private theorem refused_of (simulates : Simulates ports db machine)
    (honest : ∀ moment, Honest ports db (ticks moment))
    (unspent : ∀ family ∈ machine.families, family.spends (shownAs (ticks 0) text) = false)
    (closed : ∀ now, (ticks 3).answer .now = .ok now → ∀ family ∈ machine.families,
      (family.exchanges (shownAs (ticks 0) text) now && machine.enabled family.owner) = false)
    (detail : Option String) : Serves ports machine db (.serve (.refresh text) ticks)
      (.error (invalidCredentialsError detail)) db := by
  obtain ⟨now, clock⟩ := (honest 3).now
  obtain ⟨someId, _⟩ := (honest 0).uuid4
  refine ⟨_, .refresh text ticks now ⟨someId, [], 0⟩ clock, ?_⟩
  rw [Machine.step, refresh_refused unspent (closed now clock)]
  exact ⟨simulates, .invalidCredentials detail, fun _ => rfl⟩

/-- No row has the shown id and a hash that the string fits. -/
private theorem refused_unlocated (simulates : Simulates ports db machine)
    (honest : ∀ moment, Honest ports db (ticks moment))
    (unknown : ∀ row, Holds db row → (shownAs (ticks 0) text).names = some row.id →
      ports.fits text row.hash = false) (detail : Option String) :
    Serves ports machine db (.serve (.refresh text) ticks)
      (.error (invalidCredentialsError detail)) db := by
  apply refused_of simulates honest
  · intro family member
    obtain ⟨inner, last, represents⟩ := simulates.families family member
    by_contra spends
    obtain ⟨row, here, names, fits⟩ := represents.spends_row (by simpa using spends)
    exact absurd fits (by simp [shownAs, unknown row (represents.inner_held here).1 names])
  · intro now _ family member
    obtain ⟨inner, last, represents⟩ := simulates.families family member
    by_contra exchanges
    simp only [Bool.not_eq_false, Bool.and_eq_true, Family.exchanges] at exchanges
    obtain ⟨names, fits⟩ := represents.newest_row exchanges.1.1.1
    exact absurd fits (by simp [shownAs, unknown last represents.last_held.1 names])

/-- The record is the last of its family, but it cannot be exchanged. -/
private theorem refused_located (simulates : Simulates ports db machine)
    (honest : ∀ moment, Honest ports db (ticks moment)) {record : RefreshTokenRow}
    (located : Located ports db (shownAs (ticks 0) text) record) (current : record.replacedBy = none)
    (closed : ∀ now, (ticks 3).answer .now = .ok now → record.revokedAt = none →
      now ≤ record.expiresAt → machine.enabled record.userId = false) (detail : Option String) :
    Serves ports machine db (.serve (.refresh text) ticks)
      (.error (invalidCredentialsError detail)) db := by
  apply refused_of simulates honest
  · intro family member
    obtain ⟨inner, last, represents⟩ := simulates.families family member
    by_contra spends
    exact ((located.spends_iff represents).mp (by simpa using spends)).2 current
  · intro now clock family member
    obtain ⟨inner, last, represents⟩ := simulates.families family member
    by_contra exchanges
    simp only [Bool.not_eq_false, Bool.and_eq_true] at exchanges
    obtain ⟨own, _, unrevoked, unexpired⟩ := (located.exchanges_iff represents).mp exchanges.1
    rw [represents.owner_of located.held own, closed now clock unrevoked unexpired] at exchanges
    cases exchanges.2

end Refusals

/-- The rest of a refresh whose token has been exchanged before. -/
private theorem reuse_serves (simulates : Simulates ports db machine)
    (honest : ∀ moment, Honest ports db (ticks moment)) {text : Str} {record : RefreshTokenRow}
    (located : Located ports db (shownAs (ticks 0) text) record) (replaced : record.replacedBy ≠ none)
    {moment : ℕ} {rest : AccessToken × RefreshToken → Service Response} :
    Ensures driver ticks (Then driver ticks
      (fun result _ after _ => Serves ports machine db (.serve (.refresh text) ticks) result after) rest)
      moment db (Table.empty schema) (AuthService.revokeReused record) := by
  rw [AuthService.revokeReused]
  refine ensures_port (fun _ other => by cases other) (fun _ => no_port_fails honest) fun at_ _ => ?_
  refine ensures_revokeRefreshTokenFamily (fun error fault => no_fault honest fault)
    fun _ written _ swept => ?_
  have kept : Simulates ports (Table.overlay db written)
      (machine.update (·.spends (shownAs (ticks 0) text)) Family.kill) := by
    apply simulates.revoked _ _ swept
    · intro family inner last represents
      have iff_ := located.spends_iff represents
      obtain ⟨_, own⟩ := represents.last_held
      split
      · rename_i spends
        obtain ⟨same, _⟩ := iff_.mp spends
        by_cases free : last.revokedAt = none
        · simp [own, same, free, markRevoked]
        · simp [free]
      · rename_i other
        have foreign : last.familyId ≠ record.familyId :=
          fun same => other (iff_.mpr ⟨same.symm.trans own, replaced⟩)
        simp [foreign]
    · intro row
      split
      · exact .inr ⟨at_, rfl⟩
      · exact .inl rfl
  refine ensures_commit (fun error cause => ?_) fun _ _ => ?_
  · rcases cause with fault | ⟨unsettled, _⟩
    · exact no_fault honest fault
    · cases unsettled.symm.trans (settled_of_pathed kept.pathed)
  obtain ⟨now, clock⟩ := (honest 3).now
  obtain ⟨someId, _⟩ := (honest 0).uuid4
  refine ⟨_, .refresh text ticks now ⟨someId, [], 0⟩ clock, ?_⟩
  obtain ⟨family, member, own⟩ := simulates.covered record located.held
  obtain ⟨inner, last, represents⟩ := simulates.families family member
  have spends := (located.spends_iff represents).mpr ⟨own.symm, replaced⟩
  rw [Machine.step, refresh_reused member spends]
  exact ⟨kept, .reuseDetected, fun never => by cases never⟩

/-- The successor finds room once its predecessor is marked. -/
private theorem successor_admitted (simulates : Simulates ports db machine)
    (honest : ∀ moment, Honest ports db (ticks moment)) {user : UserRow} (held : Row.user user ∈ db)
    {record row : RefreshTokenRow} {token : RefreshToken} (at_ : DateTime)
    (issued : Issued service ticks user row token) (record_held : Holds db record)
    (unrevoked : record.revokedAt = none) (family : row.familyId = record.familyId)
    (unused : ∀ old, Holds db old → old.id ≠ row.id) :
    admits (Table.overlay db ((Table.empty schema).put (.refreshToken (markReplaced row.id at_ record))))
      (.refreshToken row) = true := by
  apply admits_successor at_ held issued.owner record_held unused (Honest.issued honest issued).2.2
  intro old here same free
  exact congrArg RefreshTokenRow.id
    ((simulates.current_iff record_held unrevoked here (same.trans family)).mp free)

/-- A fresh id is no stored token's. -/
private theorem honest_fresh (honest : ∀ moment, Honest ports db (ticks moment)) {id : UUID}
    (fresh : (ticks 5).answer .uuid4 = .ok id) : ∀ old, Holds db old → old.id ≠ id := by
  obtain ⟨other, answer, _, tokens⟩ := (honest 5).uuid4
  cases fresh.symm.trans answer
  exact fun old held => (tokens old held).1

/-- The rest of a refresh whose token has not been exchanged before. -/
private theorem exchange_serves (simulates : Simulates ports db machine)
    (honest : ∀ moment, Honest ports db (ticks moment)) {text : Str} {record : RefreshTokenRow}
    (located : Located ports db (shownAs (ticks 0) text) record)
    (unreplaced : record.revokedAt = none ∨ record.replacedBy = none) :
    Ensures driver ticks (Then driver ticks
      (fun result _ after _ => Serves ports machine db (.serve (.refresh text) ticks) result after)
        fun tokens => .ret (.tokens tokens.1 tokens.2))
      3 db (Table.empty schema) (service.exchange record) := by
  have current : record.replacedBy = none := by
    rcases unreplaced with unrevoked | current
    · exact (simulates.current_iff located.held unrevoked located.held rfl).mpr rfl
    · exact current
  apply ensures_exchange (token?_eq_some.mpr ⟨located.held, rfl⟩)
  · exact fun _ _ _ _ => no_port_fails honest
  · intro detail _ _ cannot
    apply refused_located simulates honest located current
    intro now clock unrevoked unexpired
    rw [← Bool.not_eq_true, simulates.enabled_iff]
    rintro ⟨user, owner, enabled⟩
    exact cannot user ⟨unrevoked, ⟨now, clock, unexpired⟩, owner, enabled⟩
  · intro error user row token now _ _ can issued family fresh _ refused
    obtain ⟨held, _⟩ := user?_eq_some.mp can.owner
    have unused := honest_fresh honest fresh
    rcases refused with unfit | full
    · exact absurd unfit (Honest.issued honest issued).2.1
    · cases full.symm.trans
        (successor_admitted simulates honest held now issued located.held can.unrevoked family unused)
  · intro user row access token now later after can issued _ family fresh _ rotated
    obtain ⟨checkedAt, clock, within_⟩ := can.unexpired
    obtain ⟨_, user_id⟩ := user?_eq_some.mp can.owner
    have kept := simulates.exchanged located current can.unrevoked (Honest.issued honest issued).1
      (issued.owner.trans user_id) family issued.current issued.unrevoked
      (honest_fresh honest fresh) rotated
    refine ⟨_, .refresh text ticks checkedAt ⟨row.id, token.token, token.expiresAt⟩ clock, ?_⟩
    obtain ⟨household, member, own⟩ := simulates.covered record located.held
    obtain ⟨inner, last, represents⟩ := simulates.families household member
    have exchanges := (located.exchanges_iff represents).mpr
      ⟨own.symm, current, can.unrevoked, within_⟩
    have enabled : machine.enabled household.owner = true := by
      rw [represents.owner_of located.held own.symm, simulates.enabled_iff]
      exact ⟨user, can.owner, can.enabled⟩
    have unspent : ∀ family ∈ machine.families, family.spends (shownAs (ticks 0) text) = false := by
      intro family member
      obtain ⟨inner, last, represents⟩ := simulates.families family member
      by_contra spends
      exact ((located.spends_iff represents).mp (by simpa using spends)).2 current
    rw [Machine.step, refresh_exchanged unspent member exchanges enabled]
    exact ⟨kept, .issued access token row.id, fun never => by cases never⟩

theorem refresh_serves (simulates : Simulates ports db machine)
    (honest : ∀ moment, Honest ports db (ticks moment)) {text : Str} (used : ports.used text) :
    Ensures driver ticks
      (fun result _ after _ => Serves ports machine db (.serve (.refresh text) ticks) result after)
      0 db (Table.empty schema) (AuthPrograms.serve service (.refresh text)) := by
  refine ensures_bind ?_
  rw [AuthService.refresh, ← Program.bind_ret (verifyToken text)]
  refine ensures_verified (fun error answer => ?_) fun claims answer => ?_
  · obtain ⟨⟨detail, rfl⟩, unnamed⟩ := (honest 0).unverified answer
    apply refused_unlocated simulates honest
    intro row _ names
    rw [unnamed] at names
    cases names
  obtain ⟨rfl, names⟩ := (honest 0).verified answer
  refine ensures_named (fun _ malformed => absurd malformed (ports.wellFormed text))
    (fun detail _ unnamed => ?_) fun id named_ => ?_
  · apply refused_unlocated simulates honest
    intro row _ same
    rw [names, unnamed] at same
    cases same
  refine ensures_getRefreshTokenById (fun _ fault => no_fault honest fault) fun _ => ?_
  rw [Table.overlay_empty]
  cases found : token? db id with
  | none =>
    apply refused_unlocated simulates honest
    intro row held same
    rw [names, named_] at same
    exact absurd (Option.some.inj same).symm (token?_eq_none.mp found row held)
  | some record =>
    obtain ⟨held, rfl⟩ := token?_eq_some.mp found
    refine ensures_port (fun _ other => by cases other) (fun _ => no_port_fails honest)
      fun matched compared => ?_
    cases ((honest 2).checkHash _ _).symm.trans compared
    refine ensures_raiseIf (fun mismatch => ?_) fun matches_ => ?_
    · apply refused_unlocated simulates honest
      intro row row_held same
      rw [names, named_] at same
      have one : Row.refreshToken row = .refreshToken record :=
        Table.eq_of_key row_held held (congrArg Key.refreshToken (Option.some.inj same).symm)
      cases one
      simpa using mismatch
    have located : Located ports db (shownAs (ticks 0) text) record :=
      ⟨held, names.trans named_, used, by simpa [shownAs] using matches_⟩
    split
    · rename_i reused
      exact reuse_serves simulates honest located (by simp_all [Option.isSome_iff_ne_none])
    · rename_i fresh
      have unreplaced : record.revokedAt = none ∨ record.replacedBy = none := by
        cases revoked : record.revokedAt with
        | none => exact .inl rfl
        | some at_ => exact .inr (by simpa [revoked] using fresh)
      exact exchange_serves simulates honest located unreplaced

theorem logout_serves (simulates : Simulates ports db machine)
    (honest : ∀ moment, Honest ports db (ticks moment)) {text : Str} :
    Ensures driver ticks
      (fun result _ after _ => Serves ports machine db (.serve (.logout text) ticks) result after)
      0 db (Table.empty schema) (AuthPrograms.serve service (.logout text)) := by
  have ignored : (shownAs (ticks 0) text).names = none →
      Serves ports machine db (.serve (.logout text) ticks) (.ok .done) db := by
    intro unnamed
    refine ⟨_, .logout text ticks, ?_⟩
    have step : machine.step (.logout (shownAs (ticks 0) text)) = (machine, .done) := by
      simp [Machine.step, Machine.logout, Machine.update, unnamed]
    rw [step]
    exact ⟨simulates, .loggedOut, fun never => by cases never⟩
  refine ensures_bind ?_
  rw [AuthService.logout]
  refine ensures_verified (fun error answer => ?_) fun claims answer => ?_
  · obtain ⟨⟨detail, rfl⟩, unnamed⟩ := (honest 0).unverified answer
    exact ignored unnamed
  obtain ⟨rfl, names⟩ := (honest 0).verified answer
  simp only [AuthService.revokePresented]
  split
  · rename_i foreign
    exact ignored (names.trans (tokenNamed_of_foreign foreign))
  rename_i typ
  split
  · rename_i missing
    exact ignored (names.trans (tokenNamed_of_missing missing))
  rename_i jti
  obtain ⟨id, named_, parsed⟩ := (parseUuid_cases (by simpa using typ) (by simpa using jti)).resolve_right
    fun unread => ports.wellFormed text unread.1
  rw [parsed]
  refine ensures_port (fun _ other => by cases other) (fun _ => no_port_fails honest) fun at_ _ => ?_
  refine ensures_revokeRefreshToken (fun _ fault => no_fault honest fault)
    fun _ written _ revoked => ?_
  have kept : Simulates ports (Table.overlay db written)
      (machine.update (fun family => (shownAs (ticks 0) text).names == some family.newest.id)
        Family.kill) := by
    apply simulates.revoked _ _ revoked
    · intro family inner last represents
      rw [names, named_, ← represents.newest.id]
      by_cases same : last.id = id
      · simp [same, markRevoked]
      · simp [same, Ne.symm same]
    · intro row
      split
      · exact .inr ⟨at_, rfl⟩
      · exact .inl rfl
  rw [← Program.bind_ret commit]
  refine ensures_commit (fun error cause => ?_) fun _ _ => ?_
  · rcases cause with fault | ⟨unsettled, _⟩
    · exact no_fault honest fault
    · cases unsettled.symm.trans (settled_of_pathed kept.pathed)
  exact ⟨_, .logout text ticks, kept, .loggedOut, fun never => by cases never⟩

end Requests

section Runs

variable {service : AuthService} {ports : Ports} {machine : Machine} {db : Database}

/-- **One command is one event.** -/
theorem command_refines (service : AuthService) (clean : db.ClashFree) (simulates : Simulates ports db machine)
    {command : Command} (honest : command.Honest ports db) :
    ∃ event, Describes command event ∧ Refines ports (command.run service db) (machine.step event) := by
  cases command with
  | setDisabled userId disabled =>
    exact ⟨_, .setDisabled userId disabled, simulates.switched, .switched, fun never => by cases never⟩
  | serve request ticks =>
    obtain ⟨used, honest⟩ := honest
    cases request with
    | register email password => exact ensures_exec (register_serves clean simulates honest used)
    | login creds => exact ensures_exec (login_serves clean simulates honest used)
    | refresh text => exact ensures_exec (refresh_serves simulates honest used)
    | logout text => exact ensures_exec (logout_serves simulates honest)

theorem command_clean (clean : db.ClashFree) (command : Command) :
    (command.run service db).after.ClashFree := by
  cases command with
  | setDisabled userId disabled => exact clean_setDisabled clean
  | serve request ticks => exact exec_clean ticks _ clean

theorem run_refines (clean : db.ClashFree) (simulates : Simulates ports db machine)
    {commands : List Command} (honest : HonestRun ports service db commands) :
    ∃ events, List.Forall₂ Describes commands events ∧
      List.Forall₂ (Refines ports) (served service db commands) (history machine events) := by
  induction commands generalizing db machine with
  | nil => exact ⟨[], .nil, .nil⟩
  | cons command rest ih =>
    obtain ⟨first, onward⟩ := honest
    obtain ⟨event, describes, refines⟩ := command_refines service clean simulates first
    obtain ⟨events, all, refine_all⟩ := ih (command_clean clean command) refines.simulates onward
    exact ⟨event :: events, .cons describes all, .cons refines refine_all⟩

/-- **The service refines the machine of token families.** From the empty tables
every run of commands is a run of the machine: the tables stand for its state
after each of them, the callers are told its outcomes, and a refusal of
credentials changes no table. -/
theorem service_refines_families (service : AuthService) (ports : Ports) (commands : List Command)
    (honest : HonestRun ports service (Table.empty schema) commands) :
    ∃ events, List.Forall₂ Describes commands events ∧
      List.Forall₂ (Refines ports) (served service (Table.empty schema) commands)
        (history Machine.init events) :=
  run_refines (fun _ here => absurd here (Table.not_mem_empty _)) (simulates_init ports) honest

/-! A concrete world: a refresh token is the text of its id, and a hash is the
string it was made from with a salt behind it. -/

def samplePorts : Ports where
  carried text :=
    if (UUID.ofStr text).isSome then
      [(str "typ", .str (str "refresh")), (str "jti", .str text)]
    else []
  wellFormed := by
    rintro text ⟨typ, _, unnamed⟩
    split at typ
    · rename_i read
      rw [if_pos read] at unnamed
      rw [show named [(str "typ", .str (str "refresh")), (str "jti", .str text)] =
        UUID.ofStr text from rfl] at unnamed
      rw [unnamed] at read
      cases read
    · cases typ
  used text := textParam text = true ∧ text.length ≤ 100
  fits text hash := hash.dropLast == text
  sound := by
    intro first second hash _ _ fits fits'
    exact (beq_iff_eq.mp fits).symm.trans (beq_iff_eq.mp fits')

def sampleSalt (n : ℕ) : CodePoint := Fin.ofNat _ (n + 1)

def honestTick (n : ℕ) : World where
  answer
    | .verify text => .ok (samplePorts.carried text)
    | .sign claims => .ok (((tokenNamed claims).map UUID.toStr).getD [])
    | .hash text => .ok (text ++ [sampleSalt n])
    | .checkHash text hash => .ok (samplePorts.fits text hash)
    | .uuid4 => .ok (AuthSessions.sampleId n)
    | .now => .ok n

/-- No row has the id or the salt of the `n`-th moment. -/
def freshAt (db : Database) (n : ℕ) : Bool :=
  n < 1000 && (db.rows.filterMap Row.user?).all (fun user => user.id ≠ AuthSessions.sampleId n) &&
    (db.rows.filterMap Row.refreshToken?).all fun row => row.id ≠ AuthSessions.sampleId n &&
      row.familyId ≠ AuthSessions.sampleId n && row.hash.getLast? ≠ some (sampleSalt n)

private theorem stored_hash {text : Str} {n : ℕ} (small : n < 1000)
    (used : samplePorts.used text) : fits255 (text ++ [sampleSalt n]) = true := by
  obtain ⟨param, short⟩ := used
  have salt : (sampleSalt n).val = n + 1 := Nat.mod_eq_of_lt (by omega)
  simp only [textParam, encodable, Bool.and_eq_true, List.all_eq_true] at param
  have plain : sampleSalt n ≠ chr '\x00' := by
    intro same
    have value := congrArg Fin.val same
    rw [salt] at value
    cases value
  simp only [fits255, textParam, encodable, Bool.and_eq_true, List.all_append, List.all_eq_true,
    decide_eq_true_eq, List.length_append, List.length_singleton]
  refine ⟨⟨⟨param.1, ?_⟩, ?_⟩, by omega⟩
  · intro c member
    rw [List.mem_singleton.mp member, salt]
    simp only [Bool.or_eq_true, decide_eq_true_eq]
    omega
  · have absent := param.2
    simp only [Bool.not_eq_true', List.contains_eq_mem, decide_eq_false_iff_not] at absent ⊢
    rw [List.mem_append, List.mem_singleton]
    rintro (inside | same)
    · exact absent inside
    · exact plain same.symm

private theorem used_id (id : UUID) : samplePorts.used id.toStr := by
  refine ⟨?_, by simp [UUID.toStr_length]⟩
  simp only [textParam, encodable, Bool.and_eq_true, List.all_eq_true, Bool.not_eq_true',
    List.contains_eq_mem, decide_eq_false_iff_not]
  constructor
  · intro c member
    simp only [Bool.or_eq_true, decide_eq_true_eq]
    rcases id.mem_toStr c member with hex | rfl
    · unfold IsHexChar at hex
      omega
    · decide
  · intro member
    rcases id.mem_toStr _ member with hex | never
    · exact absurd hex (by unfold IsHexChar; decide)
    · exact absurd never (by decide)

private theorem carried_id (id : UUID) : tokenNamed (samplePorts.carried id.toStr) = some id := by
  have read := UUID.ofStr_toStr id
  generalize id.toStr = text at read
  have carried : samplePorts.carried text =
      [(str "typ", .str (str "refresh")), (str "jti", .str text)] := by
    simp [samplePorts, read]
  rw [carried]
  exact read

theorem honestTick_honest {db : Database} {n : ℕ} (fresh : freshAt db n = true) :
    Honest samplePorts db (honestTick n) := by
  simp only [freshAt, Bool.and_eq_true, decide_eq_true_eq, List.all_eq_true] at fresh
  obtain ⟨⟨small, users⟩, tokens⟩ := fresh
  have user_free : ∀ user, Row.user user ∈ db → user.id ≠ AuthSessions.sampleId n :=
    fun user held => users user (List.mem_filterMap.mpr ⟨_, held, rfl⟩)
  have token_free : ∀ row, Holds db row → (row.id ≠ AuthSessions.sampleId n ∧
      row.familyId ≠ AuthSessions.sampleId n) ∧ row.hash.getLast? ≠ some (sampleSalt n) :=
    fun row held => tokens row (List.mem_filterMap.mpr ⟨_, held, rfl⟩)
  refine ⟨rfl, fun _ => .inl rfl, fun claims => ⟨_, rfl, fun id names => ?_⟩,
    fun text => ⟨_, rfl, fun used => ⟨stored_hash small used, ?_, fun row held same => ?_⟩⟩,
    fun _ _ => rfl, ⟨_, rfl, user_free, fun row held => (token_free row held).1⟩, ⟨_, rfl⟩⟩
  · rw [names]
    exact ⟨used_id id, carried_id id⟩
  · simp [samplePorts]
  · exact (token_free row held).2 (by simp [same])

/-- The moments of a request from the `n`-th on. -/
def honestTicks (n moment : ℕ) : World := honestTick (n + moment % 20)

theorem honestTicks_honest {db : Database} {n : ℕ}
    (fresh : (List.range 20).all (fun moment => freshAt db (n + moment)) = true) (moment : ℕ) :
    Honest samplePorts db (honestTicks n moment) := by
  apply honestTick_honest
  exact List.all_eq_true.mp fresh _ (List.mem_range.mpr (Nat.mod_lt _ (by omega)))

/-- The refresh token whose id was drawn at the `n`-th moment. -/
def sampleToken (n : ℕ) : Str := (AuthSessions.sampleId n).toStr

/-- A token is exchanged, and shown again; the successor is refused then. Another
login's token is refused while its user is disabled, and lives until its logout. -/
def sampleCommands : List Command :=
  [.serve (.register (str "a@b.c") (str "password")) (honestTicks 0),
    .serve (.login ⟨str "a@b.c", str "password"⟩) (honestTicks 20),
    .serve (.refresh (sampleToken 24)) (honestTicks 40),
    .serve (.refresh (sampleToken 24)) (honestTicks 60),
    .serve (.refresh (sampleToken 45)) (honestTicks 80),
    .serve (.login ⟨str "a@b.c", str "password"⟩) (honestTicks 100),
    .setDisabled (AuthSessions.sampleId 1) true,
    .serve (.refresh (sampleToken 104)) (honestTicks 120),
    .setDisabled (AuthSessions.sampleId 1) false,
    .serve (.refresh (sampleToken 104)) (honestTicks 140),
    .serve (.logout (sampleToken 145)) (honestTicks 160),
    .serve (.refresh (sampleToken 145)) (honestTicks 180)]

/-- The exception that the caller of a command got. -/
def Served.raised? (command : Served) : Option Exn :=
  match command.result with
  | some (.error error) => some error
  | _ => none

theorem sample_commands_refine_families :
    (served {} (Table.empty schema) sampleCommands).map Served.raised? =
      [none, none, none, some refreshReuseDetectedError,
        some (invalidCredentialsError "Refresh token revoked"), none, none,
        some invalidCredentialsError, none, none, none,
        some (invalidCredentialsError "Refresh token revoked")] ∧
    ∃ events, List.Forall₂ Describes sampleCommands events ∧
      List.Forall₂ (Refines samplePorts) (served {} (Table.empty schema) sampleCommands)
        (history Machine.init events) := by
  refine ⟨by decide +kernel, service_refines_families {} samplePorts sampleCommands ?_⟩
  have password : samplePorts.used (str "password") := ⟨by decide, by decide⟩
  refine ⟨⟨password, honestTicks_honest (by decide +kernel)⟩, ⟨password, honestTicks_honest ?_⟩,
    ⟨used_id _, honestTicks_honest ?_⟩, ⟨used_id _, honestTicks_honest ?_⟩,
    ⟨used_id _, honestTicks_honest ?_⟩, ⟨password, honestTicks_honest ?_⟩, trivial,
    ⟨used_id _, honestTicks_honest ?_⟩, trivial, ⟨used_id _, honestTicks_honest ?_⟩,
    ⟨trivial, honestTicks_honest ?_⟩, ⟨used_id _, honestTicks_honest ?_⟩, trivial⟩
  all_goals decide +kernel

end Runs

end BackendFoundation.AuthFamilies
