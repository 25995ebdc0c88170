import BackendFoundation.AuthSpecs

/-! Login, refresh and logout in a session of their own, with every way a port,
a statement or the commit can raise. A request that raises leaves the committed
tables as they were, except that a detected reuse has revoked the family. -/
namespace BackendFoundation.AuthAtomicity
open PythonValues KeyedTables RequestPrograms ReadCommitted TransactionLogic AuthPersistence
open AuthPrograms AuthSpecs

/-- The token verifies, its claims name this record and its hash matches. -/
structure Presented (ticks : ℕ → World) (db : Database) (token : Str)
    (record : RefreshTokenRow) : Prop where
  names : ∃ claims text, (ticks 0).answer (.verify token) = .ok claims ∧
    claims.get "jti" = .str text ∧ UUID.ofStr text = some record.id
  stored : token? db record.id = some record
  matched : (ticks 2).answer (.checkHash token record.hash) = .ok true

/-- A time that the clock has told. -/
def Clocked (ticks : ℕ → World) (time : DateTime) : Prop :=
  ∃ moment, (ticks moment).answer .now = .ok time

/-- One row more, and every other row as before. -/
def Inserted (before after : Database) (row : RefreshTokenRow) : Prop :=
  ∀ other, other ∈ after ↔ other = .refreshToken row ∨ other ∈ before

/-- The record names its successor, the successor is there, and every other row
is as before. -/
def Rotated (before after : Database) (record successor : RefreshTokenRow)
    (revokedAt : DateTime) : Prop :=
  ∀ other, other ∈ after ↔
    other = .refreshToken (markReplaced successor.id revokedAt record) ∨
      other = .refreshToken successor ∨ (other ∈ before ∧ other.key ≠ .refreshToken record.id)

/-- The row exists and has been neither revoked nor exchanged. -/
def Exchangeable (db : Database) (id : UUID) : Prop :=
  ∃ row, token? db id = some row ∧ row.revokedAt = none ∧ row.replacedBy = none

section Views

variable {before : Database} {record successor : RefreshTokenRow} {revokedAt : DateTime}

theorem admitted_key {view : Database} {row : Row} (room : admits view row = true)
    {old : Row} (member : old ∈ view) : old.key ≠ row.key := by
  have apart := List.all_eq_true.mp (Bool.and_eq_true_iff.mp room).1 old member
  simp only [Bool.and_eq_true, decide_eq_true_eq] at apart
  exact apart.1

theorem inserted_view (room : admits before (.refreshToken successor) = true) :
    Inserted before (Table.overlay before ((Table.empty schema).put (.refreshToken successor)))
      successor := by
  intro other
  simp only [Table.mem_overlay, Table.mem_put, Table.not_mem_empty, false_and, or_false]
  constructor
  · rintro (rfl | ⟨member, _⟩)
    · exact .inl rfl
    · exact .inr member
  · rintro (rfl | member)
    · exact .inl rfl
    · exact .inr ⟨member, fun own same => same ▸ (admitted_key room member).symm⟩

theorem rotated_view
    (room : admits (Table.overlay before ((Table.empty schema).put
      (.refreshToken (markReplaced successor.id revokedAt record)))) (.refreshToken successor)) :
    Rotated before (Table.overlay before (((Table.empty schema).put
      (.refreshToken (markReplaced successor.id revokedAt record))).put (.refreshToken successor)))
      record successor revokedAt := by
  have marked : Row.refreshToken (markReplaced successor.id revokedAt record) ∈
      Table.overlay before ((Table.empty schema).put
        (.refreshToken (markReplaced successor.id revokedAt record))) :=
    Table.mem_overlay.mpr (.inl (Table.mem_put.mpr (.inl rfl)))
  have apart := admitted_key room marked
  intro other
  simp only [Table.mem_overlay, Table.mem_put, Table.not_mem_empty, false_and, or_false]
  constructor
  · rintro ((rfl | ⟨rfl, _⟩) | ⟨member, unwritten⟩)
    · exact .inr (.inl rfl)
    · exact .inl rfl
    · exact .inr (.inr ⟨member, fun same => unwritten _ (.inr ⟨rfl, apart⟩) same.symm⟩)
  · rintro (rfl | rfl | ⟨member, different⟩)
    · exact .inl (.inr ⟨rfl, apart⟩)
    · exact .inl (.inl rfl)
    · refine .inr ⟨member, ?_⟩
      have visible : other ∈ Table.overlay before ((Table.empty schema).put
          (.refreshToken (markReplaced successor.id revokedAt record))) := by
        refine Table.mem_overlay.mpr (.inr ⟨member, fun own written => ?_⟩)
        obtain rfl | ⟨never, _⟩ := Table.mem_put.mp written
        · exact different.symm
        · exact absurd never (Table.not_mem_empty _)
      rintro own (rfl | ⟨rfl, _⟩)
      · exact (admitted_key room visible).symm
      · exact different.symm

/-- The deferred foreign key holds of the rows written, if each names a row there is. -/
theorem settled_of_linked {pending : Database}
    (linked : ∀ row, Row.refreshToken row ∈ pending → ∀ next, row.replacedBy = some next →
      ∃ later, Row.refreshToken later ∈ Table.overlay before pending ∧ later.id = next) :
    settled before pending = true := by
  simp only [settled, List.all_eq_true]
  intro own here key member
  cases own with
  | user user => exact absurd member List.not_mem_nil
  | refreshToken row =>
    simp only [schema, List.mem_map, Option.mem_toList] at member
    obtain ⟨next, replaced, rfl⟩ := member
    obtain ⟨later, held, rfl⟩ := linked row here next replaced
    have found : (Table.overlay before pending).lookup (.refreshToken later.id) =
        some (.refreshToken later) := Table.lookup_eq_some.mpr ⟨held, rfl⟩
    rw [found]
    rfl

/-- It holds of a row that names its successor, once the successor is written. -/
theorem settled_of_rotated {record row : RefreshTokenRow} {revokedAt : DateTime}
    (current : row.replacedBy = none) :
    settled before (((Table.empty schema).put (.refreshToken (markReplaced row.id revokedAt record))).put
      (.refreshToken row)) = true := by
  apply settled_of_linked
  intro own here next replaced
  rcases Table.mem_put.mp here with same | ⟨marked, _⟩
  · cases same
    cases current.symm.trans replaced
  · rcases Table.mem_put.mp marked with same | ⟨never, _⟩
    · cases same
      cases replaced
      exact ⟨row, Table.mem_overlay.mpr (.inl (Table.mem_put.mpr (.inl rfl))), rfl⟩
    · exact absurd never (Table.not_mem_empty _)

end Views

section Requests

variable {service : AuthService} {ticks : ℕ → World} {before : Database}

/-- What login leaves behind. -/
def LoginOutcome (service : AuthService) (ticks : ℕ → World) (before : Database) :
    Except Exn (AccessToken × RefreshToken) → Database → Prop
  | .error _, after => after = before
  | .ok (_, token), after => ∃ user row, Row.user user ∈ before ∧
      Issued service ticks user row token ∧ Inserted before after row

/-- What refresh leaves behind. -/
def RefreshOutcome (service : AuthService) (ticks : ℕ → World) (before : Database)
    (presented : Str) : Except Exn (AccessToken × RefreshToken) → Database → Prop
  | .error error, after =>
    (after = before ∧ (error = refreshReuseDetectedError → Thrown ticks error)) ∨
      (error = refreshReuseDetectedError ∧
        ∃ record revokedAt, Presented ticks before presented record ∧
          FamilyRevoked before after record.familyId revokedAt)
  | .ok (_, token), after => ∃ record user row revokedAt,
      Presented ticks before presented record ∧ record.revokedAt = none ∧
        user? before record.userId = some user ∧ Issued service ticks user row token ∧
        row.familyId = record.familyId ∧ Rotated before after record row revokedAt

/-- What logout leaves behind. -/
def LogoutOutcome (before : Database) : Except Exn Unit → Database → Prop
  | .error _, after => after = before
  | .ok (), after => after = before ∨ ∃ id revokedAt, Revoked before after id revokedAt

/-- Login raises with nothing written, or inserts the row of a user's first token. -/
theorem ensures_login {creds : Credentials}
    {post : Except Exn (AccessToken × RefreshToken) → ℕ → Database → Database → Prop}
    (raises : ∀ error later left, post (.error error) later before left)
    (answers : ∀ user row access token later after, Row.user user ∈ before →
      user.email = creds.username → user.disabled = false → Issued service ticks user row token →
      AccessIssued service ticks later user row.issuedAt access → Inserted before after row →
      post (.ok (access, token)) later after (Table.empty schema)) :
    Ensures driver ticks post 0 before (Table.empty schema) (service.login creds) := by
  rw [AuthService.login]
  refine ensures_getUserByEmail (fun _ _ _ => raises _ _ _) fun found _ known _ => ?_
  cases found with
  | none => exact raises _ _ _
  | some user =>
    obtain ⟨member, email⟩ := known user rfl
    refine ensures_raiseIf (fun _ => raises _ _ _) fun enabled => ?_
    refine ensures_port (fun _ other => by cases other) (fun _ _ => raises _ _ _) fun verified _ => ?_
    refine ensures_raiseIf (fun _ => raises _ _ _) fun _ => ?_
    refine ensures_issueTokens (fun _ _ _ _ => raises _ _ _)
      fun row access token _ issued granted _ _ room => ?_
    refine ensures_commit (fun _ _ => raises _ _ _) fun _ _ => ?_
    exact answers user row access token _ _ member email enabled issued
      (granted.mono (Nat.le_succ _)) (inserted_view room)

theorem login_outcome (creds : Credentials) :
    Ensures driver ticks (fun result _ after _ => LoginOutcome service ticks before result after)
      0 before (Table.empty schema) (service.login creds) := by
  apply ensures_login
  · exact fun _ _ _ => rfl
  · intro user row access token later after member _ _ issued _ inserted
    exact ⟨user, row, member, issued, inserted⟩

/-- The record can be exchanged, and this is its user. -/
structure CanExchange (ticks : ℕ → World) (db : Database) (record : RefreshTokenRow)
    (user : UserRow) : Prop where
  unrevoked : record.revokedAt = none
  unexpired : ∃ now, (ticks 3).answer .now = .ok now ∧ now ≤ record.expiresAt
  owner : user? db record.userId = some user
  enabled : user.disabled = false

/-- Exchange refuses a record that cannot be exchanged, raises what a port or the database
does or because the successor finds no room, or exchanges it. -/
theorem ensures_exchange {record : RefreshTokenRow}
    {post : Except Exn (AccessToken × RefreshToken) → ℕ → Database → Database → Prop}
    (stored : token? before record.id = some record)
    (unsound : ∀ error moment later left, Unsound (ticks moment) error →
      post (.error error) later before left)
    (refuses : ∀ detail later left, (∀ user, ¬ CanExchange ticks before record user) →
      post (.error (invalidCredentialsError detail)) later before left)
    (crowded : ∀ error user row token now later left, CanExchange ticks before record user →
      Issued service ticks user row token → row.familyId = record.familyId →
      (ticks 5).answer .uuid4 = .ok row.id → (∃ cause, error = .db cause) →
      (Unstorable ticks token.token ∨ admits (Table.overlay before ((Table.empty schema).put
          (.refreshToken (markReplaced row.id now record)))) (.refreshToken row) = false) →
      post (.error error) later before left)
    (answers : ∀ user row access token now later after, CanExchange ticks before record user →
      Issued service ticks user row token → AccessIssued service ticks later user row.issuedAt access →
      row.familyId = record.familyId → (ticks 5).answer .uuid4 = .ok row.id →
      Clocked ticks now → Rotated before after record row now →
      post (.ok (access, token)) later after (Table.empty schema)) :
    Ensures driver ticks post 3 before (Table.empty schema) (service.exchange record) := by
  have faults : ∀ error moment later left, (ticks moment).fault = some error →
      post (.error error) later before left :=
    fun error moment later left fault => unsound error moment later left (.inl fault)
  rw [AuthService.exchange]
  refine ensures_raiseIf (fun revoked => refuses _ _ _ fun user can => ?_) fun unrevoked => ?_
  · simp [can.unrevoked] at revoked
  refine ensures_port (fun _ other => by cases other) (fun _ => unsound _ _ _ _)
    fun checkedAt clock => ?_
  refine ensures_raiseIf (fun expired => refuses _ _ _ fun user can => ?_) fun unexpired => ?_
  · obtain ⟨now, same, within_⟩ := can.unexpired
    cases clock.symm.trans same
    exact absurd within_ (by simpa using expired)
  refine ensures_getUserById (fun _ => faults _ _ _ _) fun _ => ?_
  simp only [Table.overlay_empty]
  cases found : user? before record.userId with
  | none =>
    apply refuses
    intro user can
    cases found.symm.trans can.owner
  | some user =>
    refine ensures_raiseIf (fun disabled => refuses _ _ _ fun other can => ?_) fun enabled => ?_
    · cases found.symm.trans can.owner
      simp [can.enabled] at disabled
    have can : CanExchange ticks before record user :=
      ⟨by simpa using unrevoked, ⟨checkedAt, clock, by simpa using unexpired⟩, found,
        by simpa using enabled⟩
    refine ensures_port (fun _ other => by cases other) (fun _ => unsound _ _ _ _)
      fun newId fresh => ?_
    refine ensures_port (fun _ other => by cases other) (fun _ => unsound _ _ _ _)
      fun now told => ?_
    refine ensures_markRefreshTokenReplaced (fun _ => faults _ _ _ _)
      fun touched _ changed => ?_
    rw [Table.overlay_empty, stored] at changed
    subst changed
    refine ensures_issueTokens (fun error _ _ cause => ?_)
      fun row access token _ issued granted family id room => ?_
    · rcases cause with ⟨moment, failed⟩ | ⟨driven, row, token, issued, family, id, refused⟩
      · exact unsound _ _ _ _ failed
      · obtain rfl : row.id = newId := id
        exact crowded error user row token now _ _ can issued family fresh driven refused
    obtain rfl : row.id = newId := id
    refine ensures_commit (fun error cause => ?_) fun _ _ => ?_
    · rcases cause with fault | ⟨unsettled, _⟩
      · exact faults _ _ _ _ fault
      · cases unsettled.symm.trans (settled_of_rotated issued.current)
    · exact answers user row access token now _ _ can issued (granted.mono (Nat.le_succ _)) family
        fresh ⟨_, told⟩ (rotated_view room)

/-- Unless a port or the database raises, the branch ends with the family revoked. -/
private theorem ensures_revokeReused {record : RefreshTokenRow} {moment : ℕ}
    {post : Except Exn (AccessToken × RefreshToken) → ℕ → Database → Database → Prop}
    (raises : ∀ error later left, error ≠ refreshReuseDetectedError ∨ Thrown ticks error →
      post (.error error) later before left)
    (revokes : ∀ revokedAt later after left, Clocked ticks revokedAt →
      FamilyRevoked before after record.familyId revokedAt →
      post (.error refreshReuseDetectedError) later after left) :
    Ensures driver ticks post moment before (Table.empty schema) (AuthService.revokeReused record) := by
  rw [AuthService.revokeReused]
  refine ensures_port (fun _ other => by cases other)
    (fun _ unsound => raises _ _ _ (.inr unsound.thrown)) fun revokedAt told => ?_
  refine ensures_revokeRefreshTokenFamily (fun _ fault => raises _ _ _ (.inr ⟨_, .inl fault⟩))
    fun _ written _ revoked => ?_
  refine ensures_commit (fun error cause => raises _ _ _ ?_) fun _ _ => ?_
  · rcases cause with fault | ⟨_, rfl⟩
    · exact .inr ⟨_, .inl fault⟩
    · exact .inl fun never => by cases never
  rw [Table.overlay_empty] at revoked
  exact revokes revokedAt _ _ _ ⟨_, told⟩ revoked

/-- The checks on the claims raise or yield the id the claims name. -/
private theorem ensures_presentedToken {α : Type} {post : Except Exn α → ℕ → Database → Database → Prop}
    {moment : ℕ} {committed pending : Database} {claims : Claims} {rest : UUID → Service α}
    (raises : ∀ error, error ≠ refreshReuseDetectedError →
      post (.error error) moment committed pending)
    (answers : ∀ id text, claims.get "jti" = .str text → UUID.ofStr text = some id →
      Ensures driver ticks post moment committed pending (rest id)) :
    Ensures driver ticks post moment committed pending
      (AuthService.presentedToken claims >>= rest) := by
  simp only [AuthService.presentedToken, Program.bind_assoc]
  refine ensures_raiseIf (fun _ => raises _ fun never => by cases never) fun _ => ?_
  refine ensures_raiseIf (fun _ => raises _ fun never => by cases never) fun _ => ?_
  cases jti : claims.get "jti" with
  | str text =>
    simp only [parseUuid, uuidOf]
    cases parsed : UUID.ofStr text with
    | none => exact raises _ fun never => by cases never
    | some id => exact answers id text jti parsed
  | _ => exact raises _ fun never => by cases never

/-- Refresh raises with nothing written, revokes the family of a token that was
exchanged before, or exchanges the presented token. Where nothing is written a
detected reuse is no exception of the service's own. -/
theorem ensures_refresh {presented : Str}
    {post : Except Exn (AccessToken × RefreshToken) → ℕ → Database → Database → Prop}
    (raises : ∀ error later left, error ≠ refreshReuseDetectedError ∨ Thrown ticks error →
      post (.error error) later before left)
    (revokes : ∀ record revokedAt later after left, Presented ticks before presented record →
      Clocked ticks revokedAt → FamilyRevoked before after record.familyId revokedAt →
      post (.error refreshReuseDetectedError) later after left)
    (answers : ∀ record user row access token now later after,
      Presented ticks before presented record → record.revokedAt = none →
      user? before record.userId = some user → user.disabled = false →
      Issued service ticks user row token → AccessIssued service ticks later user row.issuedAt access →
      row.familyId = record.familyId → Clocked ticks now → Rotated before after record row now →
      post (.ok (access, token)) later after (Table.empty schema)) :
    Ensures driver ticks post 0 before (Table.empty schema) (service.refresh presented) := by
  rw [AuthService.refresh, ← Program.bind_ret (verifyToken presented)]
  have refuses : ∀ detail later left, post (.error (invalidCredentialsError detail)) later before left :=
    fun _ _ _ => raises _ _ _ (.inl fun never => by cases never)
  refine ensures_verified (fun error failed => ?_) fun claims verified => ?_
  · split
    · exact refuses _ _ _
    · exact raises _ _ _ (.inr ⟨0, .inr ⟨_, failed⟩⟩)
  refine ensures_presentedToken (fun _ other => raises _ _ _ (.inl other)) fun id text jti parsed => ?_
  refine ensures_getRefreshTokenById (fun _ fault => raises _ _ _ (.inr ⟨_, .inl fault⟩)) fun _ => ?_
  simp only [Table.overlay_empty]
  cases stored : token? before id with
  | none => exact refuses _ _ _
  | some record =>
    obtain rfl : record.id = id := (token?_eq_some.mp stored).2
    refine ensures_port (fun _ other => by cases other)
      (fun _ unsound => raises _ _ _ (.inr unsound.thrown)) fun matched correct => ?_
    refine ensures_raiseIf (fun _ => refuses _ _ _) fun mismatch => ?_
    obtain rfl : matched = true := by simpa using mismatch
    have shown : Presented ticks before presented record :=
      ⟨⟨claims, text, verified, jti, parsed⟩, stored, correct⟩
    by_cases reused : (record.revokedAt.isSome && record.replacedBy.isSome) = true
    · simp only [reused, if_true]
      exact ensures_revokeReused raises fun _ _ _ _ told revoked => revokes _ _ _ _ _ shown told revoked
    · simp only [reused]
      apply ensures_exchange shown.stored
      · exact fun _ _ _ _ unsound => raises _ _ _ (.inr unsound.thrown)
      · exact fun _ _ _ _ => refuses _ _ _
      · rintro _ user row token now later left can issued family fresh ⟨cause, rfl⟩ _
        exact raises _ _ _ (.inl fun never => by cases never)
      · intro user row access token now later after can issued granted family _ told rotated
        exact answers record user row access token now later after shown can.unrevoked can.owner
          can.enabled issued granted family told rotated

theorem refresh_outcome (presented : Str) :
    Ensures driver ticks
      (fun result _ after _ => RefreshOutcome service ticks before presented result after)
      0 before (Table.empty schema) (service.refresh presented) := by
  apply ensures_refresh
  · intro error later left cause
    exact .inl ⟨rfl, fun reuse => cause.resolve_left (not_not_intro reuse)⟩
  · intro record revokedAt later after left shown _ revoked
    exact .inr ⟨rfl, record, revokedAt, shown, revoked⟩
  · intro record user row access token now later after shown unrevoked known _ issued _ family _ rotated
    exact ⟨record, user, row, now, shown, unrevoked, known, issued, family, rotated⟩

theorem logout_outcome (presented : Str) :
    Ensures driver ticks (fun result _ after _ => LogoutOutcome before result after)
      0 before (Table.empty schema) (AuthService.logout presented) := by
  rw [AuthService.logout]
  refine ensures_verified (fun error _ => ?_) fun claims _ => ?_
  · split
    · exact .inl rfl
    · exact rfl
  simp only [AuthService.revokePresented]
  split
  · exact .inl rfl
  split
  · exact .inl rfl
  cases jti : claims.get "jti" with
  | str text =>
    simp only [parseUuid, uuidOf]
    cases parsed : UUID.ofStr text with
    | none => exact rfl
    | some id =>
      refine ensures_port (fun _ other => by cases other) (fun _ _ => rfl) fun revokedAt _ => ?_
      refine ensures_revokeRefreshToken (fun _ _ => rfl) fun _ written _ revoked => ?_
      rw [← Program.bind_ret commit]
      refine ensures_commit (fun _ _ => rfl) fun _ _ => ?_
      exact .inr ⟨id, revokedAt, revoked⟩
  | _ => exact rfl

/-- **Rotation is all or nothing.** Whatever the ports and the database do, a
request that raises leaves the committed tables as they were, unless it is the
service itself that raised a detected reuse: then the presented token's family
is revoked. On any other exception an exchangeable token stays exchangeable. A
refresh that returns has exchanged the presented token for the row of the token
it returns. -/
theorem rotation_is_all_or_nothing (service : AuthService) (ticks : ℕ → World)
    (before : Database) (creds : Credentials) (presented : Str) :
    let login := exec driver ticks 0 before (Table.empty schema) (service.login creds)
    let refresh := exec driver ticks 0 before (Table.empty schema) (service.refresh presented)
    let logout := exec driver ticks 0 before (Table.empty schema) (AuthService.logout presented)
    LoginOutcome service ticks before login.1 login.2 ∧
      RefreshOutcome service ticks before presented refresh.1 refresh.2 ∧
      LogoutOutcome before logout.1 logout.2 ∧
      ∀ error, refresh.1 = .error error → error ≠ refreshReuseDetectedError →
        ∀ id, Exchangeable before id → Exchangeable refresh.2 id := by
  intro login refresh logout
  have refreshed : RefreshOutcome service ticks before presented refresh.1 refresh.2 :=
    ensures_exec (refresh_outcome presented)
  refine ⟨ensures_exec (login_outcome creds), refreshed, ensures_exec (logout_outcome presented),
    fun error raised other id exchangeable => ?_⟩
  rw [raised] at refreshed
  obtain ⟨unchanged, _⟩ | ⟨reuse, _⟩ := refreshed
  · rw [unchanged]
    exact exchangeable
  · exact absurd reuse other

end Requests

end BackendFoundation.AuthAtomicity
