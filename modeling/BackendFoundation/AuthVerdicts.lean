import BackendFoundation.FamilySimulation

/-! What refresh and logout answer when no port and no database fails, for any
claims that the presented string verifies with: refresh accepts exactly the
unrevoked, unexpired token of an enabled user, and claims that name no token
are refused or cannot be read. -/
namespace BackendFoundation.AuthVerdicts
open PythonValues KeyedTables RequestPrograms ReadCommitted TransactionLogic
open AuthPersistence AuthPrograms AuthSpecs AuthAtomicity AuthDiscipline AuthSessions AuthRotation
open FamilySimulation

/-! ## Reached tables -/

/-- Tables that requests served in any interleaving have left, with users that an
administrator has then disabled or enabled. -/
inductive Reached : Database → Prop where
  | run {service : AuthService} {actions : List AuthAction} {system : AuthSystem}
      (ran : System.init.run driver (serve service) actions = some system) :
      Reached system.committed
  | setDisabled {db : Database} (userId : UUID) (disabled : Bool) (reached : Reached db) :
      Reached (setDisabled db userId disabled)

/-- What holds of them. -/
structure Consistent (db : Database) : Prop where
  clean : db.ClashFree
  pathed : Pathed db
  superseded : Superseded db

section Tables

variable {db : Database}

theorem Reached.consistent (reached : Reached db) : Consistent db := by
  induction reached with
  | run ran =>
    have rotating := rotating_run (fun token claims _ => trivial) rotating_init ran
    refine ⟨rotating.isolated.clean, fun row held => ?_, rotating.superseded⟩
    obtain ⟨rows, history⟩ := rotating.history row held
    exact ⟨rows, history.toFamilyPath⟩
  | setDisabled userId disabled _ before =>
    refine ⟨clean_setDisabled before.clean, fun row held => ?_, fun row held => ?_⟩
    · obtain ⟨rows, path⟩ := before.pathed row (holds_setDisabled.mp held)
      exact ⟨rows, path.congr fun _ _ => holds_setDisabled⟩
    · exact before.superseded row (holds_setDisabled.mp held)

/-- The table holds one row with an id. -/
theorem held_once {first second : RefreshTokenRow} (held : Holds db first) (other : Holds db second)
    (same : first.id = second.id) : first = second :=
  Row.refreshToken.inj (Table.eq_of_key held other (congrArg Key.refreshToken same))

/-- Every row that has been exchanged names a row there is: the deferred foreign key. -/
def Linked (db : Database) : Prop :=
  ∀ row, Holds db row → ∀ next, row.replacedBy = some next →
    ∃ later, Holds db later ∧ later.id = next

theorem linked_of_pathed (pathed : Pathed db) : Linked db := by
  intro row held next replaced
  obtain ⟨rows, path⟩ := pathed row held
  obtain ⟨later, there, same, _⟩ := path.successor held rfl replaced
  exact ⟨later, there, same⟩

/-- The deferred foreign key holds after an UPDATE that leaves ids and successors as they are. -/
theorem settled_of_marked {pending : Database} {set : RefreshTokenRow → RefreshTokenRow}
    (linked : Linked db) (frame : ∀ row, (set row).id = row.id ∧ (set row).replacedBy = row.replacedBy)
    (members : ∀ row, row ∈ Table.overlay db pending ↔ ∃ old ∈ db, row = old.mapToken set) :
    settled db pending = true := by
  apply settled_of_linked
  intro row here next replaced
  obtain ⟨old, held, same⟩ := (members _).mp (Table.mem_overlay.mpr (.inl here))
  cases old with
  | user old => cases same
  | refreshToken old =>
    cases same
    rw [(frame old).2] at replaced
    obtain ⟨later, there, rfl⟩ := linked old held next replaced
    exact ⟨set later, (members _).mpr ⟨_, there, rfl⟩, (frame later).1⟩

end Tables

/-! ## Claims -/

section Claims

variable {claims : Claims}

theorem tokenNamed_of_foreign
    (foreign : (!(claims.get "typ").isStr (str "refresh")) = true) : tokenNamed claims = none := by
  have typ : (claims.get "typ").isStr (str "refresh") = false := by simpa using foreign
  simp [tokenNamed, typ]

theorem tokenNamed_of_missing (missing : (!(claims.get "jti").truthy) = true) :
    tokenNamed claims = none := by
  have unnamed : named claims = none := by
    rw [named]
    cases value : claims.get "jti" with
    | str text =>
      have empty : text = [] := by simpa [value, Json.truthy] using missing
      rw [empty]
      rfl
    | _ => rfl
  rw [tokenNamed, unnamed, ite_self]

/-- Claims that name a token can be read. -/
theorem wellFormed_of_named {id : UUID} (names : tokenNamed claims = some id) : ¬ Malformed claims := by
  rintro ⟨typ, _, unnamed⟩
  rw [tokenNamed, if_pos typ, unnamed] at names
  cases names

/-- The `jti` of claims that pass the checks reads as the token they name, unless
they are malformed. -/
theorem parseUuid_cases (typ : (!(claims.get "typ").isStr (str "refresh")) = false)
    (jti : (!(claims.get "jti").truthy) = false) :
    (∃ id, tokenNamed claims = some id ∧ parseUuid (claims.get "jti") = .ret id) ∨
      (Malformed claims ∧ (parseUuid (claims.get "jti") = .raise .valueError ∨
        parseUuid (claims.get "jti") = .raise .attributeError)) := by
  have refresh : (claims.get "typ").isStr (str "refresh") = true := by simpa using typ
  have truthy : (claims.get "jti").truthy = true := by simpa using jti
  have unread : named claims = none → Malformed claims := fun unnamed => ⟨refresh, truthy, unnamed⟩
  rw [tokenNamed, if_pos refresh]
  unfold named at unread ⊢
  cases value : claims.get "jti" with
  | str text =>
    simp only [value] at unread
    simp only [parseUuid, uuidOf]
    cases read : UUID.ofStr text with
    | some id => exact .inl ⟨id, rfl, rfl⟩
    | none => exact .inr ⟨unread read, .inl rfl⟩
  | _ =>
    simp only [value] at unread
    exact .inr ⟨unread trivial, .inr rfl⟩

end Claims

/-- The checks on the claims refuse them, fail to read them, or yield the token
they name. -/
theorem ensures_named {α : Type} {ticks : ℕ → World}
    {post : Except Exn α → ℕ → Database → Database → Prop}
    {moment : ℕ} {committed pending : Database} {claims : Claims} {rest : UUID → Service α}
    (unread : ∀ error, Malformed claims → error = .valueError ∨ error = .attributeError →
      post (.error error) moment committed pending)
    (refuses : ∀ detail, ¬ Malformed claims → tokenNamed claims = none →
      post (.error (invalidCredentialsError detail)) moment committed pending)
    (answers : ∀ id, tokenNamed claims = some id →
      Ensures driver ticks post moment committed pending (rest id)) :
    Ensures driver ticks post moment committed pending
      (AuthService.presentedToken claims >>= rest) := by
  simp only [AuthService.presentedToken, Program.bind_assoc]
  refine ensures_raiseIf (fun foreign => ?_) fun typ => ?_
  · apply refuses _ _ (tokenNamed_of_foreign foreign)
    rintro ⟨typ, _⟩
    simp [typ] at foreign
  refine ensures_raiseIf (fun missing => ?_) fun jti => ?_
  · apply refuses _ _ (tokenNamed_of_missing missing)
    rintro ⟨_, jti, _⟩
    simp [jti] at missing
  rcases parseUuid_cases typ jti with ⟨id, names, parsed⟩ | ⟨malformed, raised | raised⟩
  · rw [parsed]
    exact answers id names
  · rw [raised]
    exact unread _ malformed (.inl rfl)
  · rw [raised]
    exact unread _ malformed (.inr rfl)

/-! ## Verdicts -/

/-- Ports that answer and a database that does. The hash of a new token fits its
column and no row has it yet, and no row has a new id. -/
structure Healthy (db : Database) (tick : World) : Prop where
  sound : ∀ error, ¬ Unsound tick error
  stored : ∀ text hash, tick.answer (.hash text) = .ok hash →
    fits255 hash = true ∧ ∀ row, Holds db row → row.hash ≠ hash
  fresh : ∀ id, tick.answer .uuid4 = .ok id → ∀ row, Holds db row → row.id ≠ id

/-- The claims name this record, which the token matches and which can still be
exchanged, and its user may have a new token. -/
structure Accepted (db : Database) (ticks : ℕ → World) (token : Str) (claims : Claims)
    (record : RefreshTokenRow) (user : UserRow) : Prop where
  names : tokenNamed claims = some record.id
  held : Holds db record
  matched : (ticks 2).answer (.checkHash token record.hash) = .ok true
  unrevoked : record.revokedAt = none
  unexpired : ∃ now, (ticks 3).answer .now = .ok now ∧ now ≤ record.expiresAt
  owner : user? db record.userId = some user
  enabled : user.disabled = false

/-- How a refresh ends whose token has verified. -/
inductive Verdict (db : Database) (ticks : ℕ → World) (token : Str) (claims : Claims) :
    Except Exn (AccessToken × RefreshToken) → Prop where
  | accepted {record : RefreshTokenRow} {user : UserRow} (tokens : AccessToken × RefreshToken)
      (accepted : Accepted db ticks token claims record user) :
      Verdict db ticks token claims (.ok tokens)
  | refused (detail : Option String) (wellFormed : ¬ Malformed claims)
      (unacceptable : ∀ record user, ¬ Accepted db ticks token claims record user) :
      Verdict db ticks token claims (.error (invalidCredentialsError detail))
  | reused (wellFormed : ¬ Malformed claims)
      (unacceptable : ∀ record user, ¬ Accepted db ticks token claims record user) :
      Verdict db ticks token claims (.error refreshReuseDetectedError)
  | unread (malformed : Malformed claims) (error : Exn)
      (kind : error = .valueError ∨ error = .attributeError) :
      Verdict db ticks token claims (.error error)

section Requests

variable {service : AuthService} {db : Database} {ticks : ℕ → World} {token : Str} {claims : Claims}
variable {record : RefreshTokenRow} {moment : ℕ}

theorem Healthy.fault (healthy : ∀ moment, Healthy db (ticks moment)) {goal : Prop} {error : Exn}
    (fault : (ticks moment).fault = some error) : goal :=
  ((healthy moment).sound error (.inl fault)).elim

theorem Healthy.unsound (healthy : ∀ moment, Healthy db (ticks moment)) {goal : Prop}
    {error : Exn} (failed : Unsound (ticks moment) error) : goal :=
  ((healthy moment).sound error failed).elim

/-- The successor finds room once its predecessor is marked, if no other row of the
family is unreplaced. -/
theorem admits_successor {user : UserRow} {row : RefreshTokenRow} (markedAt : DateTime)
    (owned : Row.user user ∈ db) (owner : row.userId = user.id) (held : Holds db record)
    (unused : ∀ old, Holds db old → old.id ≠ row.id) (fresh : ∀ old, Holds db old → old.hash ≠ row.hash)
    (alone : ∀ old, Holds db old → old.familyId = row.familyId → old.replacedBy = none →
      old.id = record.id) :
    admits (Table.overlay db
      ((Table.empty schema).put (.refreshToken (markReplaced row.id markedAt record))))
      (.refreshToken row) = true := by
  have seen : ∀ old, old ∈ Table.overlay db ((Table.empty schema).put
        (.refreshToken (markReplaced row.id markedAt record))) ↔
      old = .refreshToken (markReplaced row.id markedAt record) ∨
        (old ∈ db ∧ old.key ≠ .refreshToken record.id) := by
    intro old
    simp only [Table.mem_overlay, Table.mem_put, Table.not_mem_empty, false_and, or_false,
      forall_eq]
    exact or_congr_right (and_congr_right fun _ => ne_comm)
  apply admits_token ((seen _).mpr (.inr ⟨owned, fun never => by cases never⟩)) owner
  intro old member
  rcases (seen _).mp member with same | ⟨here, different⟩
  · cases same
    exact ⟨unused record held, fresh record held, fun _ never => by cases never⟩
  · exact ⟨unused old here, fresh old here,
      fun same free => different (congrArg Key.refreshToken (alone old here same free))⟩

private theorem successor_admitted (consistent : Consistent db)
    (healthy : ∀ moment, Healthy db (ticks moment)) {user : UserRow} (owned : Row.user user ∈ db)
    {row : RefreshTokenRow} {successor : RefreshToken} (markedAt : DateTime)
    (issued : Issued service ticks user row successor) (held : Holds db record)
    (unrevoked : record.revokedAt = none) (family : row.familyId = record.familyId)
    (unused : ∀ old, Holds db old → old.id ≠ row.id) :
    admits (Table.overlay db
      ((Table.empty schema).put (.refreshToken (markReplaced row.id markedAt record))))
      (.refreshToken row) = true := by
  obtain ⟨at_, hash, hashed, kept⟩ := issued.hashed
  obtain ⟨fits, fresh⟩ := (healthy at_).stored _ _ hashed
  rw [← stored255_of_fits fits, ← kept] at fresh
  have current : record.replacedBy = none := by
    by_contra replaced
    exact consistent.superseded record held replaced unrevoked
  refine admits_successor markedAt owned issued.owner held unused fresh ?_
  intro old here same free
  have shares : Row.clash (.refreshToken old) (.refreshToken record) = true := by
    simp [Row.clash, same.trans family, free, current]
  exact Key.refreshToken.inj (consistent.clean _ here _ held shares)

/-- Nothing is acceptable that is not this record with its user. -/
private theorem unacceptable_of (names : tokenNamed claims = some record.id) (held : Holds db record)
    (barred : ∀ user, ¬ Accepted db ticks token claims record user) :
    ∀ other user, ¬ Accepted db ticks token claims other user := by
  intro other user accepted
  have same : other = record := held_once accepted.held held
    (Option.some.inj (accepted.names.symm.trans names))
  exact barred user (same ▸ accepted)

private theorem exchange_verdict (consistent : Consistent db)
    (healthy : ∀ moment, Healthy db (ticks moment)) (names : tokenNamed claims = some record.id)
    (held : Holds db record) (matched : (ticks 2).answer (.checkHash token record.hash) = .ok true) :
    Ensures driver ticks (fun result _ _ _ => Verdict db ticks token claims result)
      3 db (Table.empty schema) (service.exchange record) := by
  apply ensures_exchange (token?_eq_some.mpr ⟨held, rfl⟩)
  · exact fun _ _ _ _ => Healthy.unsound healthy
  · intro detail _ _ cannot
    apply Verdict.refused detail (wellFormed_of_named names)
    apply unacceptable_of names held
    intro user accepted
    exact cannot user ⟨accepted.unrevoked, accepted.unexpired, accepted.owner, accepted.enabled⟩
  · intro error user row successor now _ _ can issued family fresh _ refused
    obtain ⟨owned, _⟩ := user?_eq_some.mp can.owner
    have admitted := successor_admitted consistent healthy owned now issued held
      can.unrevoked family ((healthy 5).fresh row.id fresh)
    rcases refused with ⟨at_, hash, hashed, refused⟩ | full
    · cases refused.symm.trans (varchar255_of_fits ((healthy at_).stored _ _ hashed).1)
    · cases full.symm.trans admitted
  · intro user row access successor now _ _ can _ _ _ _ _ _
    exact .accepted _ ⟨names, held, matched, can.unrevoked, can.unexpired, can.owner, can.enabled⟩

private theorem reuse_verdict (consistent : Consistent db)
    (healthy : ∀ moment, Healthy db (ticks moment)) (names : tokenNamed claims = some record.id)
    (held : Holds db record) (revoked : record.revokedAt ≠ none) :
    Ensures driver ticks (fun result _ _ _ => Verdict db ticks token claims result)
      moment db (Table.empty schema) (AuthService.revokeReused record) := by
  rw [AuthService.revokeReused]
  refine ensures_port (fun _ other => by cases other) (fun _ => Healthy.unsound healthy)
    fun revokedAt _ => ?_
  refine ensures_revokeRefreshTokenFamily (fun _ => Healthy.fault healthy) fun _ written _ swept => ?_
  rw [Table.overlay_empty] at swept
  refine ensures_commit (fun error cause => ?_) fun _ _ => ?_
  · rcases cause with fault | ⟨unsettled, _⟩
    · exact Healthy.fault healthy fault
    · have settles : settled db written = true := by
        refine settled_of_marked (linked_of_pathed consistent.pathed) (fun row => ?_) swept
        split <;> exact ⟨rfl, rfl⟩
      cases unsettled.symm.trans settles
  · apply Verdict.reused (wellFormed_of_named names)
    exact unacceptable_of names held fun user accepted => revoked accepted.unrevoked

/-- **The verdict on a refresh** whose token verifies with these claims. -/
theorem refresh_verdict (consistent : Consistent db) (healthy : ∀ moment, Healthy db (ticks moment))
    (verified : (ticks 0).answer (.verify token) = .ok claims) :
    Ensures driver ticks (fun result _ _ _ => Verdict db ticks token claims result)
      0 db (Table.empty schema) (service.refresh token) := by
  rw [AuthService.refresh, ← Program.bind_ret (verifyToken token)]
  refine ensures_verified (fun error refused => ?_) fun other answer => ?_
  · cases verified.symm.trans refused
  cases verified.symm.trans answer
  refine ensures_named (fun error malformed kind => .unread malformed error kind)
    (fun detail wellFormed unnamed => ?_) fun id names => ?_
  · apply Verdict.refused _ wellFormed
    intro record user accepted
    cases unnamed.symm.trans accepted.names
  have refuse : ∀ detail, (∀ record user, ¬ Accepted db ticks token claims record user) →
      Verdict db ticks token claims (.error (invalidCredentialsError detail)) :=
    fun detail => .refused detail (wellFormed_of_named names)
  refine ensures_getRefreshTokenById (fun _ => Healthy.fault healthy) fun _ => ?_
  rw [Table.overlay_empty]
  cases found : token? db id with
  | none =>
    apply refuse
    intro record user accepted
    exact token?_eq_none.mp found record accepted.held
      (Option.some.inj (accepted.names.symm.trans names))
  | some record =>
    obtain ⟨held, rfl⟩ := token?_eq_some.mp found
    refine ensures_port (fun _ other => by cases other) (fun _ => Healthy.unsound healthy)
      fun matched compared => ?_
    refine ensures_raiseIf (fun mismatch => refuse _ ?_) fun fits => ?_
    · apply unacceptable_of names held
      intro user accepted
      cases compared.symm.trans accepted.matched
      cases mismatch
    obtain rfl : matched = true := by simpa using fits
    by_cases reused : (record.revokedAt.isSome && record.replacedBy.isSome) = true
    · rw [if_pos reused]
      apply reuse_verdict consistent healthy names held
      exact Option.isSome_iff_ne_none.mp (Bool.and_eq_true_iff.mp reused).1
    · rw [if_neg reused]
      exact exchange_verdict consistent healthy names held compared

/-- A refresh answers with tokens exactly when its own can be exchanged. -/
theorem refresh_accepts_iff (consistent : Consistent db)
    (healthy : ∀ moment, Healthy db (ticks moment))
    (verified : (ticks 0).answer (.verify token) = .ok claims) :
    (∃ tokens, (exec driver ticks 0 db (Table.empty schema) (service.refresh token)).1 = .ok tokens) ↔
      ∃ record user, Accepted db ticks token claims record user := by
  have verdict : Verdict db ticks token claims
      (exec driver ticks 0 db (Table.empty schema) (service.refresh token)).1 :=
    ensures_exec (refresh_verdict consistent healthy verified)
  generalize (exec driver ticks 0 db (Table.empty schema) (service.refresh token)).1 = result at verdict
  cases verdict with
  | accepted tokens accepted => exact iff_of_true ⟨tokens, rfl⟩ ⟨_, _, accepted⟩
  | refused detail _ unacceptable =>
    apply iff_of_false
    · rintro ⟨_, never⟩
      cases never
    · rintro ⟨record, user, accepted⟩
      exact unacceptable record user accepted
  | reused _ unacceptable =>
    apply iff_of_false
    · rintro ⟨_, never⟩
      cases never
    · rintro ⟨record, user, accepted⟩
      exact unacceptable record user accepted
  | unread malformed =>
    apply iff_of_false
    · rintro ⟨_, never⟩
      cases never
    · rintro ⟨record, user, accepted⟩
      exact wellFormed_of_named accepted.names malformed

/-- A refresh whose token does not verify is refused. -/
theorem refresh_unverified {detail : Option Str}
    (refused : (ticks 0).answer (.verify token) = .error (.app .authentication detail)) :
    exec driver ticks 0 db (Table.empty schema) (service.refresh token) =
      (.error (invalidCredentialsError "Invalid refresh token"), db) := by
  simp only [AuthService.refresh, verifyToken, ask, Program.perform, Program.handle,
    Program.call_bind, exec, ReadCommitted.perform, refused]
  rfl

/-- How a logout ends whose token has verified. -/
def LogoutVerdict (claims : Claims) : Except Exn Unit → Prop
  | .ok () => ¬ Malformed claims
  | .error error => Malformed claims ∧ (error = .valueError ∨ error = .attributeError)

/-- **The verdict on a logout.** -/
theorem logout_verdict (consistent : Consistent db) (healthy : ∀ moment, Healthy db (ticks moment))
    (verified : (ticks 0).answer (.verify token) = .ok claims) :
    Ensures driver ticks (fun result _ _ _ => LogoutVerdict claims result)
      0 db (Table.empty schema) (AuthService.logout token) := by
  rw [AuthService.logout]
  refine ensures_verified (fun error refused => ?_) fun other answer => ?_
  · cases verified.symm.trans refused
  cases verified.symm.trans answer
  simp only [AuthService.revokePresented]
  split
  · rename_i foreign
    rintro ⟨typ, _⟩
    simp [typ] at foreign
  rename_i typ
  split
  · rename_i missing
    rintro ⟨_, jti, _⟩
    simp [jti] at missing
  rename_i jti
  rcases parseUuid_cases (by simpa using typ) (by simpa using jti) with
    ⟨id, names, parsed⟩ | ⟨malformed, raised | raised⟩
  · rw [parsed]
    refine ensures_port (fun _ other => by cases other) (fun _ => Healthy.unsound healthy)
      fun revokedAt _ => ?_
    refine ensures_revokeRefreshToken (fun _ => Healthy.fault healthy) fun _ written _ revoked => ?_
    rw [Table.overlay_empty] at revoked
    rw [← Program.bind_ret commit]
    refine ensures_commit (fun error cause => ?_) fun _ _ => wellFormed_of_named names
    rcases cause with fault | ⟨unsettled, _⟩
    · exact Healthy.fault healthy fault
    · have settles : settled db written = true := by
        refine settled_of_marked (linked_of_pathed consistent.pathed) (fun row => ?_) revoked
        split <;> exact ⟨rfl, rfl⟩
      cases unsettled.symm.trans settles
  · rw [raised]
    exact ⟨malformed, .inl rfl⟩
  · rw [raised]
    exact ⟨malformed, .inr rfl⟩

end Requests

end BackendFoundation.AuthVerdicts
