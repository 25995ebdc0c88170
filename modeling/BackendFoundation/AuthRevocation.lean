import BackendFoundation.AuthRotation

/-! Revocation among concurrent requests. A logout or a detected reuse revokes
the last row of a family, and a refresh that has read the row before can undo
it: its UPDATE asks for the id alone, and a revocation of the family looks only
for the rows of its snapshot. Where no such UPDATE meets a row that has changed
in between, a revoked family stays revoked. -/
namespace BackendFoundation.AuthRevocation
open PythonValues KeyedTables RequestPrograms ReadCommitted ReadCommittedProofs LinkedChains
open AuthPersistence AuthPrograms AuthSpecs AuthDiscipline AuthSessions AuthRotation

/-- A row of the family has not been revoked. -/
def Alive (db : Database) (familyId : UUID) : Prop :=
  ∃ row, Holds db row ∧ row.familyId = familyId ∧ row.revokedAt = none

private theorem exists_held {db : Database} {condition : RefreshTokenRow → Prop} :
    (∃ row ∈ db.rows.filterMap Row.refreshToken?, condition row) ↔
      ∃ row, Holds db row ∧ condition row := by
  refine exists_congr fun row => and_congr_left fun _ => ?_
  rw [List.mem_filterMap]
  constructor
  · rintro ⟨stored, member, same⟩
    cases stored with
    | user => cases same
    | refreshToken =>
      cases same
      exact member
  · exact fun held => ⟨_, held, rfl⟩

instance (db : Database) (familyId : UUID) : Decidable (Alive db familyId) :=
  decidable_of_iff _ exists_held

instance (db : Database) (familyId : UUID) : Decidable (Dead db familyId) :=
  decidable_of_iff _ exists_held

/-- What an UPDATE may find when it takes a row: a rotation no row that is
revoked but not replaced, a revocation of the family no row that is replaced. -/
def expected : Statement → RefreshTokenRow → Bool
  | .markRefreshTokenReplaced _ _ _, row => row.revokedAt.isNone || row.replacedBy.isSome
  | .revokeRefreshTokenFamily _ _, row => row.replacedBy.isNone
  | _, _ => true

/-- The session's next step, if the connection has no fault then, does not come to a row
that another request has changed in this way since the session read it. -/
def undisturbed (tick : World) (db : Database) (session : AuthSession) : Bool :=
  tick.fault.isSome ||
    match session.program, session.scan with
    | .call (.stmt statement) _, some ⟨.refreshToken id :: _, _⟩ =>
      (token? db id).all (expected statement)
    | _, _ => true

def Calm (system : AuthSystem) : AuthAction → Prop
  | .arrive _ => True
  | .step index tick =>
    ∀ session ∈ system.sessions[index]?, undisturbed tick system.committed session = true

instance (system : AuthSystem) : (action : AuthAction) → Decidable (Calm system action)
  | .arrive _ => isTrue trivial
  | .step _ _ => inferInstanceAs (Decidable (∀ session ∈ _, _))

theorem expected_of_undisturbed {tick : World} {db : Database} {session : AuthSession}
    {statement : Statement} {next : Except Exn (List Row) → Service Response} {todo : List Key}
    {touched : List Row} {row : RefreshTokenRow} (calm : undisturbed tick db session = true)
    (healthy : tick.fault = none) (calls : session.program = .call (.stmt statement) next)
    (scans : session.scan = some ⟨.refreshToken row.id :: todo, touched⟩) (held : Holds db row) :
    expected statement row = true := by
  simp only [undisturbed, healthy, Option.isSome_none, Bool.false_or, calls, scans,
    token?_eq_some.mpr ⟨held, rfl⟩] at calm
  exact calm

/-- An exception that a port or the database raises in the run. -/
def Raised (actions : List AuthAction) (error : Exn) : Prop :=
  (∃ index tick, Action.step index tick ∈ actions ∧ (tick.fault = some error ∨
    ∃ question, tick.answer question = .error error)) ∨ ∃ cause, error = .db cause

/-- The regime of a run in which revocations last. -/
def calmRun (decodes : Str → Claims → Prop) (raises : Exn → Prop) : Regime :=
  ⟨decodes, fun _ => True, fun old => old.revokedAt = none ∨ old.replacedBy ≠ none, raises, True⟩

section Families

variable {regime : Regime} {db pending after : Database} {origin : Request} {familyId : UUID}

/-- In a dead family every row is revoked. -/
theorem not_alive_of_dead (superseded : Superseded db)
    (path : ∃ rows, FamilyPath db familyId rows) (dead : Dead db familyId) : ¬ Alive db familyId := by
  rintro ⟨row, held, family, unrevoked⟩
  obtain ⟨leaf, leaf_held, leaf_family, last, revoked⟩ := dead
  obtain ⟨rows, path⟩ := path
  obtain ⟨init, rfl⟩ := path.split leaf_held leaf_family last
  by_cases replaced : row.replacedBy = none
  · obtain ⟨init', same⟩ := path.split held family replaced
    obtain ⟨_, one⟩ := List.append_inj' same rfl
    cases one
    exact revoked unrevoked
  · exact superseded row held replaced unrevoked

/-- A COMMIT leaves a dead family dead, and adds no row or exchange to it. -/
theorem dead_effect (clean : db.ClashFree) (effect : Effect regime db origin pending after)
    (careful : ∀ old, regime.marks old → old.revokedAt = none ∨ old.replacedBy ≠ none)
    (dead : Dead db familyId) : Dead after familyId ∧
      (∀ row, Holds after row → row.familyId = familyId → ∃ old, Holds db old ∧ old.id = row.id ∧
        old.familyId = familyId ∧ old.replacedBy = row.replacedBy) ∧
      ∀ own, Holds pending own → own.familyId = familyId → ∃ old, Holds db old ∧ old.id = own.id ∧
        old.replacedBy = own.replacedBy := by
  obtain ⟨last, last_held, last_family, last_current, last_revoked⟩ := dead
  cases effect with
  | registered unwritten members =>
    refine ⟨⟨last, (members last).mpr last_held, last_family, last_current, last_revoked⟩, ?_, ?_⟩
    · exact fun row held family => ⟨row, (members row).mp held, rfl, family, rfl⟩
    · exact fun own here => absurd here (unwritten own)
  | opened row login current written foreign members =>
    have other : row.familyId ≠ familyId :=
      fun same => foreign last last_held (last_family.trans same.symm)
    refine ⟨⟨last, (members last).mpr (.inr last_held), last_family, last_current, last_revoked⟩, ?_, ?_⟩
    · intro found held family
      rcases (members found).mp held with rfl | here
      · exact absurd family other
      · exact ⟨found, here, rfl, family, rfl⟩
    · intro own here family
      rw [(written own).mp here] at family
      exact absurd family other
  | rotated leaf row revokedAt presented held leaf_current allowed owner family unrevoked current
      unused written members =>
    -- the last row of the dead family is revoked, so this rotation is of another family
    have other : leaf.familyId ≠ familyId := by
      intro same
      have clash : Row.clash (.refreshToken leaf) (.refreshToken last) = true := by
        simp [Row.clash, same, last_family, leaf_current, last_current]
      have one : Row.refreshToken leaf = .refreshToken last :=
        Table.eq_of_key held last_held (clean _ held _ last_held clash)
      cases one
      rcases careful last allowed with free | replaced
      · exact last_revoked free
      · exact replaced last_current
    have stays : ∀ found : RefreshTokenRow, Holds db found → found.familyId = familyId →
        found.id ≠ leaf.id := by
      intro found here same id
      have one : Row.refreshToken found = .refreshToken leaf :=
        Table.eq_of_key here held (congrArg Key.refreshToken id)
      cases one
      exact other same
    refine ⟨⟨last, (members last).mpr (.inr (.inr ⟨last_held, stays last last_held last_family⟩)),
      last_family, last_current, last_revoked⟩, ?_, ?_⟩
    · intro found here same
      rcases (members found).mp here with rfl | rfl | ⟨old, _⟩
      · exact absurd (family.symm.trans same) other
      · exact absurd same other
      · exact ⟨found, old, rfl, same, rfl⟩
    · intro own here same
      rcases (written own).mp here with rfl | rfl
      · exact absurd (family.symm.trans same) other
      · exact absurd same other
  | revoked change outside changes written members =>
    have same : ∀ old, Holds db old → (change old).id = old.id ∧
        (change old).familyId = old.familyId ∧ (change old).replacedBy = old.replacedBy ∧
        (old.revokedAt ≠ none → (change old).revokedAt ≠ none) := by
      intro old held
      rcases changes old held with unchanged | ⟨revokedAt, changed⟩
      · rw [unchanged]
        exact ⟨rfl, rfl, rfl, id⟩
      · rw [changed]
        exact ⟨rfl, rfl, rfl, fun _ => by simp [markRevoked]⟩
    obtain ⟨_, family, current, revoked⟩ := same last last_held
    refine ⟨⟨change last, (members _).mpr ⟨last, last_held, rfl⟩, family.trans last_family,
      current.trans last_current, revoked last_revoked⟩, ?_, ?_⟩
    · intro row held row_family
      obtain ⟨old, here, rfl⟩ := (members row).mp held
      obtain ⟨id, same_family, replaced, _⟩ := same old here
      exact ⟨old, here, id.symm, same_family.symm.trans row_family, replaced.symm⟩
    · intro own here _
      obtain ⟨old, revokedAt, held, rfl, _⟩ := written own here
      exact ⟨old, held, rfl, rfl⟩

end Families

/-- From one state to a later one the family has stayed revoked: it has got no
unrevoked row and no exchange, and no refresh has committed one. -/
structure Final (before after : AuthSystem) (familyId : UUID) : Prop where
  revoked : ¬ Alive after.committed familyId
  unexchanged : ∀ row, Holds after.committed row → row.familyId = familyId →
    ∃ old, Holds before.committed old ∧ old.id = row.id ∧ old.familyId = familyId ∧
      old.replacedBy = row.replacedBy
  silent : ∀ (i : ℕ) (session : AuthSession) (row : RefreshTokenRow),
    after.sessions[i]? = some session → Spends session row → row.familyId = familyId →
    ∃ earlier, before.sessions[i]? = some earlier ∧ Spends earlier row

theorem Final.trans {first second third : AuthSystem} {familyId : UUID}
    (one : Final first second familyId) (two : Final second third familyId) :
    Final first third familyId where
  revoked := two.revoked
  unexchanged := by
    intro row held family
    obtain ⟨middle, middle_held, id, same, replaced⟩ := two.unexchanged row held family
    obtain ⟨old, old_held, id', same', replaced'⟩ := one.unexchanged middle middle_held same
    exact ⟨old, old_held, id'.trans id, same', replaced'.trans replaced⟩
  silent := by
    intro i session row found spends family
    obtain ⟨middle, found', spends'⟩ := two.silent i session row found spends family
    exact one.silent i middle row found' spends' family

section Runs

variable {service : AuthService} {system after : AuthSystem} {action : AuthAction}
variable {decodes : Str → Claims → Prop} {raises : Exn → Prop} {familyId : UUID}

theorem final_refl (rotating : Rotating (calmRun decodes raises) system)
    (dead : Dead system.committed familyId) : Final system system familyId where
  revoked := by
    obtain ⟨leaf, held, family, _⟩ := id dead
    obtain ⟨rows, history⟩ := rotating.history leaf held
    rw [family] at history
    exact not_alive_of_dead rotating.superseded ⟨rows, history.toFamilyPath⟩ dead
  unexchanged := fun row held family => ⟨row, held, rfl, family, rfl⟩
  silent := fun _ session _ found spends _ => ⟨session, found, spends⟩

/-- A dead family stays dead, and no refresh commits an exchange in it. -/
theorem dead_next (rotating : Rotating (calmRun decodes raises) system)
    (dead : Dead system.committed familyId)
    (stepped : system.next driver (serve service) action = some after) :
    Dead after.committed familyId ∧
      (∀ row, Holds after.committed row → row.familyId = familyId →
        ∃ old, Holds system.committed old ∧ old.id = row.id ∧ old.familyId = familyId ∧
          old.replacedBy = row.replacedBy) ∧
      ∀ (i : ℕ) (session : AuthSession) (row : RefreshTokenRow),
        after.sessions[i]? = some session → Spends session row → row.familyId = familyId →
        ∃ earlier, system.sessions[i]? = some earlier ∧ Spends earlier row := by
  rcases next_cases stepped with ⟨request, _, rfl⟩ |
    ⟨index, tick, session, committed, later, _, found, moves, rfl⟩
  · refine ⟨dead, fun row held family => ⟨row, held, rfl, family, rfl⟩, ?_⟩
    intro i session row found spends _
    rcases getElem?_append_cases found with ⟨_, rfl⟩ | old
    · exact absurd spends.2.1 List.not_mem_nil
    · exact ⟨session, old, spends⟩
  · have moved := rotating.moved found moves
    have kept : Dead committed familyId ∧ (∀ row, Holds committed row → row.familyId = familyId →
        ∃ old, Holds system.committed old ∧ old.id = row.id ∧ old.familyId = familyId ∧
          old.replacedBy = row.replacedBy) := by
      rcases moved.effect with ⟨rfl, _⟩ | ⟨effect, _⟩
      · exact ⟨dead, fun row held family => ⟨row, held, rfl, family, rfl⟩⟩
      · obtain ⟨still, unexchanged, _⟩ :=
          dead_effect rotating.isolated.clean effect (fun _ allowed => allowed) dead
        exact ⟨still, unexchanged⟩
    refine ⟨kept.1, kept.2, ?_⟩
    intro i other row at_ spends family
    obtain ⟨⟨token, refresh⟩, here, replaced⟩ := spends
    rcases getElem?_set_cases at_ with ⟨rfl, rfl⟩ | ⟨_, old⟩
    · have was := moved.origin.symm.trans refresh
      rcases moved.published here with before | ⟨pending, effect⟩
      · exact ⟨session, found, ⟨token, was⟩, before, replaced⟩
      · -- an exchange replaces a row that nothing replaced, which the family does not allow
        obtain ⟨name, named_⟩ := Option.ne_none_iff_exists'.mp replaced
        obtain ⟨_, _, leaf, leaf_held, id, last⟩ :=
          spent_leaf effect rotating.superseded was pending named_
        obtain ⟨_, _, unexchanged⟩ :=
          dead_effect rotating.isolated.clean effect (fun _ allowed => allowed) dead
        obtain ⟨old, old_held, old_id, same⟩ := unexchanged row pending family
        have one : Row.refreshToken old = .refreshToken leaf := Table.eq_of_key old_held leaf_held
          (congrArg Key.refreshToken (old_id.trans id.symm))
        cases one
        rw [last] at same
        exact absurd same.symm replaced
    · exact ⟨other, old, ⟨token, refresh⟩, here, replaced⟩

/-- A calm step of the run keeps to the regime. -/
private theorem lawful_of_calm (calm : Calm system action)
    (decodes_all : ∀ index tick, action = .step index tick → ∀ token claims,
      tick.answer (.verify token) = .ok claims → decodes token claims)
    (raises_all : ∀ index tick, action = .step index tick → ∀ error, (tick.fault = some error ∨
      ∃ question, tick.answer question = .error error) → raises error)
    (raises_db : ∀ cause, raises (.db cause)) : Lawful (calmRun decodes raises) system action := by
  cases action with
  | arrive request => trivial
  | step index tick =>
    intro session found
    have undisturbed := calm session found
    refine ⟨fun token _ claims _ => decodes_all index tick rfl token claims, fun _ _ _ => trivial, ?_, ?_, ?_, ?_⟩
    · intro op next error _ fails
      cases op with
      | ask question => exact fails.elim
      | stmt statement =>
        rcases fails with fault | ⟨cause, _, rfl⟩
        · exact raises_all index tick rfl error (.inl fault)
        · exact raises_db cause
      | commit =>
        rcases fails with fault | ⟨_, rfl⟩
        · exact raises_all index tick rfl error (.inl fault)
        · exact raises_db _
    · intro question next error _ answer
      exact .inl (raises_all index tick rfl error (.inr ⟨question, answer⟩))
    · intro tokenId replacedBy revokedAt next todo touched row calls scans held healthy
      have found := expected_of_undisturbed undisturbed healthy calls scans held
      simpa [expected, calmRun, Option.isSome_iff_ne_none] using found
    · intro _ family revokedAt next todo touched row calls scans held healthy
      have found := expected_of_undisturbed undisturbed healthy calls scans held
      simpa [expected] using found

private theorem rotating_calm {actions : List AuthAction}
    (start : Rotating (calmRun decodes raises) system)
    (verified : ∀ token claims, Verified actions token claims → decodes token claims)
    (raised : ∀ error, Raised actions error → raises error)
    (calm : Along driver (serve service) Calm system actions)
    (ran : system.run driver (serve service) actions = some after) :
    Rotating (calmRun decodes raises) after := by
  have lawful : Along driver (serve service) (Lawful (calmRun decodes raises)) system actions := by
    apply along_mono _ calm
    intro state action member calm
    apply lawful_of_calm calm
    · rintro index tick rfl token claims answer
      exact verified token claims ⟨index, tick, member, answer⟩
    · rintro index tick rfl error from_outside
      exact raised error (.inl ⟨index, tick, member, from_outside⟩)
    · exact fun cause => raised _ (.inr ⟨cause, rfl⟩)
  apply run_invariant (fun _ _ _ holds lawful stepped => ?_) start lawful ran
  exact rotating_next holds lawful (fun _ familyId dead => (dead_next holds dead stepped).1) stepped

/-- A run of calm steps keeps a dead family as it is. -/
private theorem final_run {actions : List AuthAction}
    (start : Rotating (calmRun (fun _ _ => True) fun _ => True) system)
    (dead : Dead system.committed familyId)
    (calm : Along driver (serve service) Calm system actions)
    (ran : system.run driver (serve service) actions = some after) :
    Final system after familyId := by
  have keeps : ∀ state action later, (Rotating (calmRun (fun _ _ => True) fun _ => True) state ∧
      Dead state.committed familyId ∧ Final system state familyId) → Calm state action →
      state.next driver (serve service) action = some later →
      (Rotating (calmRun (fun _ _ => True) fun _ => True) later ∧
        Dead later.committed familyId ∧ Final system later familyId) := by
    rintro state action later ⟨rotating, dead, final⟩ calm stepped
    have lawful : Lawful (calmRun (fun _ _ => True) fun _ => True) state action :=
      lawful_of_calm calm (fun _ _ _ _ _ _ => trivial) (fun _ _ _ _ _ => trivial) fun _ => trivial
    obtain ⟨still, unexchanged, silent⟩ := dead_next rotating dead stepped
    have next := rotating_next rotating lawful
      (fun _ familyId dead => (dead_next rotating dead stepped).1) stepped
    exact ⟨next, still, final.trans ⟨(final_refl next still).revoked, unexchanged, silent⟩⟩
  exact (run_invariant keeps ⟨start, dead, final_refl start dead⟩ calm ran).2.2

/-- **Revocation is final where no UPDATE is overtaken.** Once the last row of a
family is revoked, no refresh commits an exchange in it and it has no unrevoked
row in any later state; a family whose reuse a refresh has reported is such. -/
theorem revocation_is_final (service : AuthService) (actions more : List AuthAction)
    (system later : AuthSystem)
    (reached : System.init.run driver (serve service) actions = some system)
    (calm : Along driver (serve service) Calm System.init actions)
    (ran : system.run driver (serve service) more = some later)
    (onward : Along driver (serve service) Calm system more) :
    (∀ familyId, Dead system.committed familyId → Final system later familyId) ∧
    ((∀ detail, ¬ Raised actions (.app .refreshReuseDetected detail)) →
      ∀ session ∈ system.sessions, ∀ token detail, session.origin = .refresh token →
        session.program = .raise (.app .refreshReuseDetected detail) →
        ∃ claims row, Verified actions token claims ∧ named claims = some row.id ∧
          Holds system.committed row ∧ Final system later row.familyId) := by
  have start : Rotating (calmRun (fun _ _ => True) fun _ => True) system :=
    rotating_calm rotating_init (fun _ _ _ => trivial) (fun _ _ => trivial) calm reached
  refine ⟨fun familyId dead => final_run start dead onward ran, ?_⟩
  intro genuine session member token detail refresh raised
  have rotating : Rotating (calmRun (Verified actions) (Raised actions)) system :=
    rotating_calm rotating_init (fun _ _ verified => verified) (fun _ raised => raised) calm reached
  obtain ⟨phase, follows, placed⟩ := rotating.placed session member
  rw [raised] at follows
  have scans : session.scan = none :=
    scan_eq_none (rotating.scanning session member) (by simp [raised])
  rw [Placed, scans] at placed
  have swept : ∃ record, phase = .swept record := by
    rcases follows with rfl | decided
    · exact absurd placed.1 (genuine detail)
    · cases decided with
      | documented _ _ _ _ _ reuse => exact reuse rfl
      | malformed _ _ _ builtin =>
        rcases builtin with never | never
        · cases never
        · cases never
  obtain ⟨record, rfl⟩ := swept
  obtain ⟨_, ⟨row, held, id, _, family⟩, ⟨presented, claims, same, verified, names⟩, dead⟩ := placed.1
  rw [refresh] at same
  cases same
  refine ⟨claims, row, verified, names.trans (congrArg some id.symm), held, ?_⟩
  rw [family]
  exact final_run start (dead trivial) onward ran

/-- A token is exchanged and presented again, which revokes its family; a refresh
with the successor follows. -/
def reusedToken : List AuthAction :=
  sampleLogin ++ [.arrive (.refresh (str "token"))] ++ sampleSteps 2 14 30 16 ++
    [.arrive (.refresh (str "token"))] ++ sampleSteps 3 14 50 8

theorem reused_token_stays_revoked : ∃ system later,
    System.init.run driver (serve {}) reusedToken = some system ∧
      system.run driver (serve {}) (.arrive (.refresh (str "token")) :: sampleSteps 4 35 60 3) =
        some later ∧ Final system later (sampleId 13) := by
  refine ⟨(System.init.run driver (serve {}) reusedToken).get (by decide +kernel),
    (((System.init.run driver (serve {}) reusedToken).get (by decide +kernel)).run driver (serve {})
      (.arrive (.refresh (str "token")) :: sampleSteps 4 35 60 3)).get (by decide +kernel),
    (Option.some_get _).symm, (Option.some_get _).symm, ?_⟩
  exact (revocation_is_final {} reusedToken _ _ _ (Option.some_get _).symm (by decide +kernel)
    (Option.some_get _).symm (by decide +kernel)).1 _ (by decide +kernel)

/-- A refresh has read the last row when a logout revokes it. -/
def logoutWhileRefreshing : List AuthAction :=
  sampleLogin ++ [.arrive (.refresh (str "token")), .arrive (.logout (str "token"))] ++
    sampleSteps 2 14 30 7 ++ sampleSteps 3 14 40 6

/-- A reuse is detected while the last row of the family is being exchanged: the
snapshot of the revocation does not have the row that the exchange inserts. -/
def reuseWhileRefreshing : List AuthAction :=
  sampleLogin ++ [.arrive (.refresh (str "first"))] ++ sampleSteps 2 14 30 16 ++
    [.arrive (.refresh (str "second")), .arrive (.refresh (str "first"))] ++ sampleSteps 3 35 50 7 ++
    sampleSteps 4 14 60 5 ++ sampleSteps 3 35 70 9 ++ sampleSteps 4 14 80 3

/-- Without the condition both promises fail: a family that a logout has revoked
gets an unrevoked row, and a family whose reuse is reported has one. -/
theorem revocation_is_undone :
    (∃ system later, System.init.run driver (serve {}) logoutWhileRefreshing = some system ∧
      Dead system.committed (sampleId 13) ∧
      system.run driver (serve {}) (sampleSteps 2 14 50 9) = some later ∧
      Alive later.committed (sampleId 13)) ∧
    ∃ system, System.init.run driver (serve {}) reuseWhileRefreshing = some system ∧
      (system.sessions[4]?.bind fun session => session.program.raised?) =
        some refreshReuseDetectedError ∧
      Alive system.committed (sampleId 13) :=
  ⟨⟨(System.init.run driver (serve {}) logoutWhileRefreshing).get (by decide +kernel),
    (((System.init.run driver (serve {}) logoutWhileRefreshing).get (by decide +kernel)).run driver
      (serve {}) (sampleSteps 2 14 50 9)).get (by decide +kernel),
    (Option.some_get _).symm, by decide +kernel, (Option.some_get _).symm, by decide +kernel⟩,
   ⟨(System.init.run driver (serve {}) reuseWhileRefreshing).get (by decide +kernel),
    (Option.some_get _).symm, by decide +kernel, by decide +kernel⟩⟩

end Runs

end BackendFoundation.AuthRevocation
