import BackendFoundation.AuthRotation
import BackendFoundation.ReferentialIntegrity

/-! What the tables of the auth module keep while any number of requests run:
their constraints, the rows themselves with every column that no statement
assigns, and the families of those who present none of their tokens. -/
namespace BackendFoundation.AuthIntegrity
open PythonValues KeyedTables RequestPrograms ReadCommitted ReadCommittedProofs ReferentialIntegrity
open AuthPersistence AuthPrograms AuthDiscipline AuthSessions AuthRotation

/-! ## Constraints -/

/-- The constraints of migration `0002_auth`. -/
structure Consistent (db : Database) : Prop where
  email : ∀ user other, Row.user user ∈ db → Row.user other ∈ db → user.email = other.email →
    user = other
  hash : ∀ row other, Holds db row → Holds db other → row.hash = other.hash → row = other
  active : ∀ row other, Holds db row → Holds db other → row.familyId = other.familyId →
    row.replacedBy = none → other.replacedBy = none → row = other
  owner : ∀ row, Holds db row → ∃ user, Row.user user ∈ db ∧ user.id = row.userId
  successor : ∀ row name, Holds db row → row.replacedBy = some name →
    ∃ next, Holds db next ∧ next.id = name

/-- No UPDATE of `refresh_tokens` assigns `user_id`. -/
theorem driver_keepsRefs : KeepsRefs driver := by
  intro statement change sql row
  cases statement with
  | markRefreshTokenReplaced | revokeRefreshToken | revokeRefreshTokenFamily =>
    obtain rfl := Sql.update.inj sql
    cases row <;> rfl
  | getUserById | getRefreshTokenById => cases sql
  | getUserByEmail | insertUser | insertRefreshToken =>
    change (if _ then _ else _) = _ at sql
    split at sql <;> cases sql

theorem consistent_of_clean {db : Database} (clean : db.ClashFree)
    (refs : Resolves db db) (deferred : ∀ row ∈ db, ∀ key ∈ schema.deferredRefs row, Covered db key) :
    Consistent db where
  email := by
    intro user other here there same
    have keys := clean _ here _ there (by simp [schema, Row.clash, same])
    exact Row.user.inj (Table.eq_of_key here there keys)
  hash := by
    intro row other here there same
    have keys := clean _ here _ there (by simp [schema, Row.clash, same])
    exact Row.refreshToken.inj (Table.eq_of_key here there keys)
  active := by
    intro row other here there same current current'
    have keys := clean _ here _ there (by simp [schema, Row.clash, same, current, current'])
    exact Row.refreshToken.inj (Table.eq_of_key here there keys)
  owner := by
    intro row held
    obtain ⟨target, member, key⟩ := refs _ held (.user row.userId) List.mem_cons_self
    cases target with
    | user user => exact ⟨user, member, Key.user.inj key⟩
    | refreshToken => cases key
  successor := by
    intro row name held replaced
    obtain ⟨target, member, key⟩ := deferred _ held (.refreshToken name) (by simp [schema, replaced])
    cases target with
    | user => cases key
    | refreshToken next => exact ⟨next, member, Key.refreshToken.inj key⟩

/-! ## Rows are permanent -/

/-- A later version of a row: only `revoked_at` and `replaced_by` differ, and
neither goes back to NULL; the successor is named once. -/
structure Descends (old new : RefreshTokenRow) : Prop where
  id : new.id = old.id
  owner : new.userId = old.userId
  family : new.familyId = old.familyId
  hash : new.hash = old.hash
  issued : new.issuedAt = old.issuedAt
  expires : new.expiresAt = old.expiresAt
  revoked : old.revokedAt ≠ none → new.revokedAt ≠ none
  replaced : ∀ name, old.replacedBy = some name → new.replacedBy = some name

theorem Descends.refl (row : RefreshTokenRow) : Descends row row :=
  ⟨rfl, rfl, rfl, rfl, rfl, rfl, fun revoked => revoked, fun _ same => same⟩

theorem Descends.trans {first second third : RefreshTokenRow} (one : Descends first second)
    (two : Descends second third) : Descends first third where
  id := two.id.trans one.id
  owner := two.owner.trans one.owner
  family := two.family.trans one.family
  hash := two.hash.trans one.hash
  issued := two.issued.trans one.issued
  expires := two.expires.trans one.expires
  revoked := fun before => two.revoked (one.revoked before)
  replaced := fun name before => two.replaced name (one.replaced name before)

theorem descends_markRevoked (revokedAt : DateTime) (row : RefreshTokenRow) :
    Descends row (markRevoked revokedAt row) :=
  ⟨rfl, rfl, rfl, rfl, rfl, rfl, fun _ => by simp [markRevoked], fun _ same => same⟩

/-- Marking as replaced a row that nothing replaces. -/
theorem descends_markReplaced {row : RefreshTokenRow} (last : row.replacedBy = none) (name : UUID)
    (revokedAt : DateTime) : Descends row (markReplaced name revokedAt row) := by
  refine ⟨rfl, rfl, rfl, rfl, rfl, rfl, fun _ => by simp [markReplaced], fun other before => ?_⟩
  rw [last] at before
  cases before

/-- Every row lives on and every user stays as it is. -/
structure Preserves (before after : Database) : Prop where
  users : ∀ user, Row.user user ∈ before → Row.user user ∈ after
  tokens : ∀ row, Holds before row → ∃ later, Holds after later ∧ Descends row later

theorem Preserves.refl (db : Database) : Preserves db db :=
  ⟨fun _ member => member, fun row held => ⟨row, held, .refl row⟩⟩

theorem Preserves.trans {first second third : Database} (one : Preserves first second)
    (two : Preserves second third) : Preserves first third where
  users := fun user member => two.users user (one.users user member)
  tokens := by
    intro row held
    obtain ⟨middle, middle_held, descends⟩ := one.tokens row held
    obtain ⟨later, later_held, descends'⟩ := two.tokens middle middle_held
    exact ⟨later, later_held, descends.trans descends'⟩

section Effects

variable {regime : Regime} {db pending after : Database} {origin : Request} {row : RefreshTokenRow}

theorem descends_effect (effect : Effect regime db origin pending after) (held : Holds db row) :
    ∃ later, Holds after later ∧ Descends row later := by
  cases effect with
  | registered _ members => exact ⟨row, (members row).mpr held, .refl row⟩
  | opened first login current written foreign members =>
    exact ⟨row, (members row).mpr (.inr held), .refl row⟩
  | rotated leaf new revokedAt presented leaf_held last allowed owner family unrevoked current unused
      written members =>
    by_cases same : row.id = leaf.id
    · have one : Row.refreshToken row = .refreshToken leaf :=
        Table.eq_of_key held leaf_held (congrArg Key.refreshToken same)
      cases one
      exact ⟨_, (members _).mpr (.inr (.inl rfl)), descends_markReplaced last new.id revokedAt⟩
    · exact ⟨row, (members row).mpr (.inr (.inr ⟨held, same⟩)), .refl row⟩
  | revoked change outside changes written members =>
    refine ⟨change row, (members _).mpr ⟨row, held, rfl⟩, ?_⟩
    rcases changes row held with unchanged | ⟨revokedAt, changed⟩
    · rw [unchanged]
      exact .refl row
    · rw [changed]
      exact descends_markRevoked revokedAt row

end Effects

section Runs

variable {service : AuthService} {system after : AuthSystem}

theorem preserves_next {regime : Regime} {action : AuthAction} (rotating : Rotating regime system)
    (stepped : system.next driver (serve service) action = some after) :
    Preserves system.committed after.committed := by
  rcases next_cases stepped with ⟨request, _, rfl⟩ |
    ⟨index, tick, session, committed, later, _, found, moves, rfl⟩
  · exact .refl _
  · obtain ⟨_, ⟨rfl, _⟩ | ⟨next, calls, _, _, rfl, _⟩⟩ := moves_cases moves
    · exact .refl _
    · obtain ⟨effect, users⟩ := rotating.commit_effect (List.mem_of_getElem? found) calls
      exact ⟨users, fun row held => descends_effect effect held⟩

/-- The regime of a run of which nothing at all is assumed. -/
abbrev openRun : Regime := anyRun fun _ _ => True

theorem open_next {action : AuthAction} (rotating : Rotating openRun system)
    (stepped : system.next driver (serve service) action = some after) : Rotating openRun after := by
  have ran : system.run driver (serve service) [action] = some after := by
    simp [System.run, stepped]
  exact rotating_run (fun _ _ _ => trivial) rotating ran

theorem preserves_run {actions : List AuthAction} (rotating : Rotating openRun system)
    (ran : system.run driver (serve service) actions = some after) :
    Preserves system.committed after.committed := by
  have step : ∀ before action later,
      (Rotating openRun before ∧ Preserves system.committed before.committed) → True →
      before.next driver (serve service) action = some later →
      (Rotating openRun later ∧ Preserves system.committed later.committed) := by
    rintro before action later ⟨rotates, preserves⟩ _ stepped
    exact ⟨open_next rotates stepped, preserves.trans (preserves_next rotates stepped)⟩
  have every : Along driver (serve service) (fun _ _ => True) system actions :=
    along_of_forall (fun _ _ _ => trivial) system
  exact (run_invariant step ⟨rotating, .refl _⟩ every ran).2

/-- **The tables stay consistent and lose nothing.** Whatever requests run and
however their statements interleave and fail, the constraints of the schema hold
between any two statements, and whatever runs later finds every user as it is
and every token with at most `revoked_at` and `replaced_by` filled in. -/
theorem tables_stay_consistent (service : AuthService) (actions more : List AuthAction)
    (system later : AuthSystem)
    (reached : System.init.run driver (serve service) actions = some system)
    (ran : system.run driver (serve service) more = some later) :
    Consistent system.committed ∧ Preserves system.committed later.committed := by
  have rotating : Rotating openRun system := rotating_run (fun _ _ _ => trivial) rotating_init reached
  have referential := referential_run driver_keepsRefs reached
  exact ⟨consistent_of_clean rotating.isolated.clean referential.refs referential.deferred,
    preserves_run rotating ran⟩

theorem sample_login_stays_consistent : ∃ system later,
    System.init.run driver (serve {}) sampleLogin = some system ∧
      system.run driver (serve {}) (.arrive (.refresh (str "token")) :: sampleSteps 2 14 30 16) =
        some later ∧ Consistent system.committed ∧ Preserves system.committed later.committed :=
  ⟨(System.init.run driver (serve {}) sampleLogin).get (by decide +kernel),
    (((System.init.run driver (serve {}) sampleLogin).get (by decide +kernel)).run driver (serve {})
      (.arrive (.refresh (str "token")) :: sampleSteps 2 14 30 16)).get (by decide +kernel),
    (Option.some_get _).symm, (Option.some_get _).symm,
    tables_stay_consistent {} sampleLogin _ _ _ (Option.some_get _).symm (Option.some_get _).symm⟩

end Runs

end BackendFoundation.AuthIntegrity
