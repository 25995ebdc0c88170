import BackendFoundation.AuthRevocation
import BackendFoundation.ReferentialIntegrity

/-! Who can touch a family of refresh tokens. An UPDATE of the service aims at
the row that a verified token names, or at the family of that row. So in any
interleaving the rows of a family change, and become more, only through requests
that present one of its tokens. -/
namespace BackendFoundation.FamilyBearers
open PythonValues KeyedTables RequestPrograms ReadCommitted ReadCommittedProofs ReferentialIntegrity
open AuthPersistence AuthPrograms AuthDiscipline AuthSessions AuthRotation AuthRevocation

/-- The request presents a string that verifies as a token of the family. -/
def Presents (decodes : Str → Claims → Prop) (origin : Request) (db : Database) (familyId : UUID) : Prop :=
  ∃ token claims row, presentedBy origin = some token ∧ decodes token claims ∧
    named claims = some row.id ∧ Holds db row ∧ row.familyId = familyId

/-- The UPDATE aims at a presented token or at the family of one. -/
def Aims (decodes : Str → Claims → Prop) (origin : Request) (db : Database) : Statement → Prop
  | .markRefreshTokenReplaced tokenId _ _ => ∃ token claims, presentedBy origin = some token ∧
      decodes token claims ∧ named claims = some tokenId
  | .revokeRefreshToken tokenId _ => ∃ token claims, presentedBy origin = some token ∧
      decodes token claims ∧ named claims = some tokenId
  | .revokeRefreshTokenFamily familyId _ => Presents decodes origin db familyId
  | _ => True

/-- A session writes over rows of presented families only. -/
structure Confined (decodes : Str → Claims → Prop) (db : Database) (session : AuthSession) : Prop where
  aims : ∀ statement next, session.program = .call (.stmt statement) next → session.scan ≠ none →
    Aims decodes session.origin db statement
  rows : ∀ own old, Holds session.pending own → Holds db old → old.id = own.id →
    own.familyId = old.familyId ∧ Presents decodes session.origin db old.familyId

section Steps

variable {regime : Regime} {decodes : Str → Claims → Prop} {db db' : Database} {origin : Request}
variable {session later : AuthSession} {statement : Statement} {familyId : UUID}

theorem presents_extends (extended : Extends db db') (presents : Presents decodes origin db familyId) :
    Presents decodes origin db' familyId := by
  obtain ⟨token, claims, row, shown, decoded, names, held, family⟩ := presents
  obtain ⟨kept, kept_held, id, _, same, _⟩ := extended.tokens row held
  exact ⟨token, claims, kept, shown, decoded, by rw [names, id], kept_held, same.trans family⟩

theorem aims_extends (extended : Extends db db') (aims : Aims decodes origin db statement) :
    Aims decodes origin db' statement := by
  cases statement with
  | revokeRefreshTokenFamily => exact presents_extends extended aims
  | _ => exact aims

/-- The record a refresh has read belongs to a presented family. -/
theorem presents_of_known {record : RefreshTokenRow} (known : Known db record)
    (presented : PresentedAs regime origin record) :
    Presents regime.decodes origin db record.familyId := by
  obtain ⟨row, held, id, _, family⟩ := known
  obtain ⟨token, claims, rfl, decoded, names⟩ := presented
  exact ⟨token, claims, row, rfl, decoded, by rw [names, id], held, family⟩

/-- The UPDATE a session begins aims at what was presented to it. -/
theorem aims_of_updates {phase after : Phase} {published : List Row} {pending : Database}
    (updates : Updates origin phase statement after)
    (standing : Standing regime db origin pending published phase) :
    Aims regime.decodes origin db statement := by
  cases updates with
  | mark token record user newId revokedAt =>
    obtain ⟨_, _, ⟨shown, claims, same, decoded, names⟩, _⟩ := standing
    exact ⟨shown, claims, by rw [same]; rfl, decoded, names⟩
  | sweep token record revokedAt => exact presents_of_known standing.2.1 standing.2.2
  | revoke token claims tokenId revokedAt names =>
    obtain ⟨_, shown, presents, decoded⟩ := standing
    exact ⟨shown, claims, presents, decoded, names⟩

/-- A row that an UPDATE takes is of a presented family. -/
theorem presents_of_aims {change : Change schema} {row : RefreshTokenRow}
    (sql : statement.sql = .update change) (aims : Aims decodes origin db statement)
    (held : Holds db row) (meets : change.wanted (.refreshToken row) = true) :
    Presents decodes origin db row.familyId := by
  cases statement with
  | markRefreshTokenReplaced tokenId =>
    obtain rfl := Sql.update.inj sql
    obtain ⟨token, claims, shown, decoded, names⟩ := aims
    have same : row.id = tokenId := beq_iff_eq.mp meets
    exact ⟨token, claims, row, shown, decoded, by rw [names, same], held, rfl⟩
  | revokeRefreshToken tokenId =>
    obtain rfl := Sql.update.inj sql
    obtain ⟨token, claims, shown, decoded, names⟩ := aims
    have same : row.id = tokenId := beq_iff_eq.mp meets
    exact ⟨token, claims, row, shown, decoded, by rw [names, same], held, rfl⟩
  | revokeRefreshTokenFamily familyId =>
    obtain rfl := Sql.update.inj sql
    have same : row.familyId = familyId := beq_iff_eq.mp (Bool.and_eq_true_iff.mp meets).1
    rw [same]
    exact aims
  | getUserById | getRefreshTokenById => cases sql
  | getUserByEmail | insertUser | insertRefreshToken =>
    change (if _ then _ else _) = _ at sql
    split at sql <;> cases sql

/-- What an UPDATE assigns leaves a token its id and its family. -/
theorem update_keeps_family {change : Change schema} (sql : statement.sql = .update change)
    {row : Row} {own : RefreshTokenRow} (changed : change.set row = .refreshToken own) :
    ∃ old, row = .refreshToken old ∧ own.id = old.id ∧ own.familyId = old.familyId := by
  cases statement with
  | markRefreshTokenReplaced | revokeRefreshToken | revokeRefreshTokenFamily =>
    obtain rfl := Sql.update.inj sql
    cases row with
    | user => cases changed
    | refreshToken old =>
      cases changed
      exact ⟨old, rfl, rfl, rfl⟩
  | getUserById | getRefreshTokenById => cases sql
  | getUserByEmail | insertUser | insertRefreshToken =>
    change (if _ then _ else _) = _ at sql
    split at sql <;> cases sql

/-- One step of a session writes over rows of presented families only. -/
theorem confined_moves {tick : World} {others : List AuthSession} {phase : Phase}
    (scanning : Scanning driver session)
    (follows : (discipline session.origin).Follows phase session.program)
    (placed : Placed regime db session phase) (confined : Confined regime.decodes db session)
    (moved : Moves driver tick db others session db' later) :
    Confined regime.decodes db' later := by
  cases moved with
  | closed | failed | published =>
    exact ⟨fun _ _ _ never => absurd rfl never, fun own _ here => absurd here (Table.not_mem_empty _)⟩
  | asked question next calls =>
    have scans : session.scan = none :=
      scan_eq_none scanning fun statement next other => by
        rw [calls] at other
        cases other
    exact ⟨fun _ _ _ never => absurd scans never, confined.rows⟩
  | selected | finished => exact ⟨fun _ _ _ never => absurd rfl never, confined.rows⟩
  | inserted statement row next calls sql decided room =>
    refine ⟨fun _ _ _ never => absurd rfl never, fun own old here held same => ?_⟩
    rcases Table.mem_put.mp here with inserted | ⟨before, _⟩
    · -- the key of the inserted row is in no row of the view
      obtain ⟨found, member, key⟩ : Covered (Table.overlay db session.pending) (.refreshToken own.id) :=
        covered_overlay ⟨_, held, congrArg Key.refreshToken same⟩
      have free := List.all_eq_true.mp (Bool.and_eq_true_iff.mp room).1 found member
      rw [← inserted] at free
      exact absurd key (of_decide_eq_true (Bool.and_eq_true_iff.mp free).1)
    · exact confined.rows own old before held same
  | snapshot statement change next calls sql begins =>
    refine ⟨fun other _ program _ => ?_, confined.rows⟩
    have stands : Standing regime db session.origin session.pending session.published phase := by
      rw [Placed, begins] at placed
      exact placed.1
    have onward := follows
    rw [calls] at onward
    obtain ⟨after, allowed, _⟩ := onward (.ok []) (possible_updated sql fun _ => by simp)
    have calls' : session.program = .call (.stmt other) _ := program
    rw [calls] at calls'
    cases calls'
    exact aims_of_updates (updates_of_afterRows sql allowed) stands
  | locked statement change next row todo touched calls sql scans free newest meets healthy =>
    have aims := confined.aims statement next calls (by simp [scans])
    refine ⟨fun other _ program _ => ?_, fun own old here held same => ?_⟩
    · have calls' : session.program = .call (.stmt other) _ := program
      rw [calls] at calls'
      cases calls'
      exact aims
    · rcases Table.mem_put.mp here with changed | ⟨before, _⟩
      · obtain ⟨taken, rfl, id, family⟩ := update_keeps_family sql changed.symm
        rcases Table.mem_overlay.mp newest with pending | ⟨committed, _⟩
        · obtain ⟨same_family, presents⟩ := confined.rows taken old pending held (same.trans id)
          exact ⟨family.trans same_family, presents⟩
        · have one : Row.refreshToken old = .refreshToken taken :=
            Table.eq_of_key held committed (congrArg Key.refreshToken (same.trans id))
          cases one
          exact ⟨family, presents_of_aims sql aims held meets⟩
      · exact confined.rows own old before held same
  | skipped statement change next key todo touched calls sql scans free unmet healthy =>
    refine ⟨fun other _ program _ => ?_, confined.rows⟩
    have calls' : session.program = .call (.stmt other) _ := program
    exact confined.aims other _ calls' (by simp [scans])

end Steps

section Others

variable {decodes : Str → Claims → Prop} {db db' : Database} {session : AuthSession}

/-- The steps of the others leave a session confined. -/
theorem confined_kept (extended : Extends db db') (kept : Keeps db db' session.pending)
    (confined : Confined decodes db session) : Confined decodes db' session where
  aims := fun statement next calls scans => aims_extends extended (confined.aims statement next calls scans)
  rows := by
    intro own old here held same
    have before : Holds db old := (kept _ here (.refreshToken old) (congrArg Key.refreshToken same)).mp held
    obtain ⟨family, presents⟩ := confined.rows own old here before same
    exact ⟨family, presents_extends extended presents⟩

end Others

/-! ## Runs -/

/-- The rows of the family are the same in both tables. -/
def SameFamily (before after : Database) (familyId : UUID) : Prop :=
  ∀ row : RefreshTokenRow, row.familyId = familyId → (Holds after row ↔ Holds before row)

section Runs

variable {decodes : Str → Claims → Prop} {service : AuthService} {system after : AuthSystem}
variable {familyId : UUID}

/-- A COMMIT of a session that presents no token of an existing family leaves
the rows of the family as they are. -/
theorem commit_leaves {session : AuthSession} {pending after : Database}
    (effect : Effect (anyRun decodes) system.committed session.origin pending after)
    (rows : ∀ own old, Holds pending own → Holds system.committed old → old.id = own.id →
      own.familyId = old.familyId ∧ Presents decodes session.origin system.committed old.familyId)
    (overlaid : after = Table.overlay system.committed pending)
    (exists_row : ∃ row, Holds system.committed row ∧ row.familyId = familyId)
    (silent : ¬ Presents decodes session.origin system.committed familyId) :
    SameFamily system.committed after familyId := by
  -- a committed row of the family is not written over
  have stays : ∀ row : RefreshTokenRow, row.familyId = familyId → Holds system.committed row →
      Holds after row := by
    intro row family held
    rw [overlaid]
    refine Table.mem_overlay.mpr (.inr ⟨held, fun own here key => ?_⟩)
    cases own with
    | user => cases key
    | refreshToken own =>
      have presents := (rows own row here held (Key.refreshToken.inj key).symm).2
      rw [family] at presents
      exact silent presents
  intro row family
  refine ⟨fun held => ?_, stays row family⟩
  cases effect with
  | registered _ members => exact (members row).mp held
  | opened first login current written foreign members =>
    rcases (members row).mp held with rfl | old
    · obtain ⟨old, old_held, old_family⟩ := exists_row
      exact absurd (old_family.trans family.symm) (foreign old old_held)
    · exact old
  | rotated leaf new revokedAt presented leaf_held last allowed owner same unrevoked current unused
      written members =>
    have presents : Presents decodes session.origin system.committed leaf.familyId :=
      presents_of_known ⟨leaf, leaf_held, rfl, rfl, rfl⟩ presented
    rcases (members row).mp held with rfl | rfl | ⟨old, _⟩
    · rw [← same, family] at presents
      exact absurd presents silent
    · rw [show leaf.familyId = familyId from family] at presents
      exact absurd presents silent
    · exact old
  | revoked change outside changes written members =>
    obtain ⟨old, old_held, rfl⟩ := (members row).mp held
    have old_family : old.familyId = familyId := by
      rcases changes old old_held with unchanged | ⟨revokedAt, changed⟩
      · rwa [unchanged] at family
      · rwa [changed] at family
    -- the old row is still there, and it is the only one with its id
    have still := stays old old_family old_held
    obtain ⟨other, other_held, same⟩ := (members old).mp still
    have one : Row.refreshToken other = .refreshToken old := by
      apply Table.eq_of_key other_held old_held
      rcases changes other other_held with unchanged | ⟨revokedAt, changed⟩
      · rw [same, unchanged]
      · rw [same, changed]
        rfl
    cases one
    rw [← same]
    exact old_held

/-- Rotation, with every session confined to the families presented to it. -/
structure Bearing (decodes : Str → Claims → Prop) (system : AuthSystem) : Prop where
  rotating : Rotating (anyRun decodes) system
  confined : ∀ session ∈ system.sessions, Confined decodes system.committed session

theorem bearing_init : Bearing decodes (System.init : AuthSystem) where
  rotating := rotating_init
  confined := fun _ member => absurd member List.not_mem_nil

/-- The tick of the action verifies tokens as the regime says. -/
def Decodes (decodes : Str → Claims → Prop) : AuthAction → Prop
  | .arrive _ => True
  | .step _ tick => ∀ token claims, tick.answer (.verify token) = .ok claims → decodes token claims

theorem bearing_next {action : AuthAction} (bearing : Bearing decodes system)
    (decoded : Decodes decodes action)
    (stepped : system.next driver (serve service) action = some after) : Bearing decodes after := by
  have rotates : Rotating (anyRun decodes) after := by
    have ran : system.run driver (serve service) [action] = some after := by
      simp [System.run, stepped]
    apply rotating_run _ bearing.rotating ran
    rintro token claims ⟨index, tick, member, answer⟩
    rw [← List.mem_singleton.mp member] at decoded
    exact decoded token claims answer
  refine ⟨rotates, ?_⟩
  rcases next_cases stepped with ⟨request, _, rfl⟩ |
    ⟨index, tick, session, committed, later, _, found, moves, rfl⟩
  · intro other member
    rcases List.mem_append.mp member with old | new
    · exact bearing.confined other old
    · rw [List.mem_singleton.mp new]
      exact ⟨fun _ _ _ never => absurd rfl never, fun _ _ here => absurd here (Table.not_mem_empty _)⟩
  · have moved := bearing.rotating.moved found moves
    intro other member
    rcases mem_moved member with rfl | ⟨i, different, at_⟩
    · obtain ⟨phase, follows, placed⟩ := bearing.rotating.placed session moved.member
      exact confined_moves (bearing.rotating.scanning session moved.member) follows placed
        (bearing.confined session moved.member) moves
    · have apart := bearing.rotating.isolated.apart index i session other (Ne.symm different) found at_
      have kept : Keeps system.committed committed other.pending :=
        fun own written row same => moves_kept moves apart written same
      exact confined_kept moved.extended kept (bearing.confined other (List.mem_of_getElem? at_))

/-- A step either leaves the family alone or is one of a session that presents
a token of it. -/
theorem next_leaves {action : AuthAction} (bearing : Bearing decodes system)
    (exists_row : ∃ row, Holds system.committed row ∧ row.familyId = familyId)
    (stepped : system.next driver (serve service) action = some after) :
    SameFamily system.committed after.committed familyId ∨
      ∃ index tick session, action = .step index tick ∧ system.sessions[index]? = some session ∧
        Presents decodes session.origin system.committed familyId := by
  rcases next_cases stepped with ⟨request, _, rfl⟩ |
    ⟨index, tick, session, committed, later, rfl, found, moves, rfl⟩
  · exact .inl fun _ _ => Iff.rfl
  · obtain ⟨_, ⟨rfl, _⟩ | ⟨next, calls, _, _, rfl, _⟩⟩ := moves_cases moves
    · exact .inl fun _ _ => Iff.rfl
    · have member := List.mem_of_getElem? found
      by_cases presents : Presents decodes session.origin system.committed familyId
      · exact .inr ⟨index, tick, session, rfl, found, presents⟩
      · obtain ⟨effect, _⟩ := bearing.rotating.commit_effect member calls
        exact .inl (commit_leaves effect (bearing.confined session member).rows rfl exists_row presents)

/-- A session keeps its place and its request. -/
theorem next_origin {action : AuthAction} {index : ℕ} {session : AuthSession}
    (found : system.sessions[index]? = some session)
    (stepped : system.next driver (serve service) action = some after) :
    ∃ later, after.sessions[index]? = some later ∧ later.origin = session.origin := by
  have inside : index < system.sessions.length := (List.getElem?_eq_some_iff.mp found).1
  rcases next_cases stepped with ⟨request, _, rfl⟩ |
    ⟨moving, tick, mover, committed, later, _, at_, moves, rfl⟩
  · exact ⟨session, by rw [List.getElem?_append_left inside, found], rfl⟩
  · by_cases same : moving = index
    · subst same
      rw [found] at at_
      cases at_
      exact ⟨later, by simp [inside], (moves_cases moves).1⟩
    · exact ⟨session, by rw [List.getElem?_set_ne same, found], rfl⟩

theorem presents_run {actions : List AuthAction} {index : ℕ} {session : AuthSession}
    (bearing : Bearing decodes system) (decoded : ∀ action ∈ actions, Decodes decodes action)
    (found : system.sessions[index]? = some session)
    (presents : Presents decodes session.origin system.committed familyId)
    (ran : system.run driver (serve service) actions = some after) :
    ∃ later, after.sessions[index]? = some later ∧
      Presents decodes later.origin after.committed familyId := by
  induction actions generalizing system session with
  | nil =>
    cases ran
    exact ⟨session, found, presents⟩
  | cons action rest ih =>
    obtain ⟨middle, stepped, ran⟩ := Option.bind_eq_some_iff.mp ran
    obtain ⟨moved, at_, origin⟩ := next_origin found stepped
    have extended : Extends system.committed middle.committed := by
      rcases next_cases stepped with ⟨request, _, rfl⟩ | ⟨_, _, _, _, _, _, here, moves, rfl⟩
      · exact .refl _
      · exact (bearing.rotating.moved here moves).extended
    apply ih (bearing_next bearing (decoded action List.mem_cons_self) stepped)
      (fun other member => decoded other (List.mem_cons_of_mem _ member)) at_ _ ran
    rw [origin]
    exact presents_extends extended presents

theorem run_leaves {actions : List AuthAction} (bearing : Bearing decodes system)
    (decoded : ∀ action ∈ actions, Decodes decodes action)
    (exists_row : ∃ row, Holds system.committed row ∧ row.familyId = familyId)
    (ran : system.run driver (serve service) actions = some after) :
    SameFamily system.committed after.committed familyId ∨
      ∃ index tick session, Action.step index tick ∈ actions ∧ after.sessions[index]? = some session ∧
        Presents decodes session.origin after.committed familyId := by
  induction actions generalizing system with
  | nil =>
    cases ran
    exact .inl fun _ _ => Iff.rfl
  | cons action rest ih =>
    obtain ⟨middle, stepped, onward⟩ := Option.bind_eq_some_iff.mp ran
    have here := decoded action List.mem_cons_self
    have there : ∀ other ∈ rest, Decodes decodes other :=
      fun other member => decoded other (List.mem_cons_of_mem _ member)
    rcases next_leaves bearing exists_row stepped with same | ⟨index, tick, session, rfl, found, presents⟩
    · have still : ∃ row, Holds middle.committed row ∧ row.familyId = familyId := by
        obtain ⟨row, held, family⟩ := exists_row
        exact ⟨row, (same row family).mpr held, family⟩
      rcases ih (bearing_next bearing here stepped) there still onward with later |
        ⟨index, tick, session, member, found, presents⟩
      · exact .inl fun row family => (later row family).trans (same row family)
      · exact .inr ⟨index, tick, session, List.mem_cons_of_mem _ member, found, presents⟩
    · obtain ⟨last, at_, shown⟩ := presents_run bearing decoded found presents ran
      exact .inr ⟨index, tick, last, List.mem_cons_self, at_, shown⟩

/-- **Families change through their bearers only.** If a run changes a row of an
existing family or adds one to it, then a request that took a step in it presents
a string that verified, in this run or before, as a token of the family. -/
theorem families_change_through_bearers (service : AuthService) (actions more : List AuthAction)
    (system later : AuthSystem) (familyId : UUID)
    (reached : System.init.run driver (serve service) actions = some system)
    (exists_row : ∃ row, Holds system.committed row ∧ row.familyId = familyId)
    (ran : system.run driver (serve service) more = some later) :
    SameFamily system.committed later.committed familyId ∨
      ∃ index tick session, Action.step index tick ∈ more ∧ later.sessions[index]? = some session ∧
        Presents (Verified (actions ++ more)) session.origin later.committed familyId := by
  have decoded : ∀ action ∈ actions ++ more, Decodes (Verified (actions ++ more)) action := by
    intro action member
    cases action with
    | arrive request => trivial
    | step index tick => exact fun token claims answer => ⟨index, tick, member, answer⟩
  have every : Along driver (serve service) (fun _ => Decodes (Verified (actions ++ more)))
      System.init actions :=
    along_of_forall (fun _ action member => decoded action (List.mem_append_left _ member)) _
  have bearing : Bearing (Verified (actions ++ more)) system :=
    run_invariant (fun _ _ _ holds decodes stepped => bearing_next holds decodes stepped) bearing_init
      every reached
  exact run_leaves bearing (fun action member => decoded action (List.mem_append_right _ member))
    exists_row ran

theorem sample_login_leaves_the_family : ∃ system later,
    System.init.run driver (serve {}) sampleLogin = some system ∧
      system.run driver (serve {})
        (.arrive (.login ⟨str "a@b.c", str "password"⟩) :: sampleSteps 2 0 60 10) = some later ∧
      (SameFamily system.committed later.committed (sampleId 13) ∨
        ∃ index tick session, Action.step index tick ∈
            Action.arrive (.login ⟨str "a@b.c", str "password"⟩) :: sampleSteps 2 0 60 10 ∧
          later.sessions[index]? = some session ∧
          Presents (Verified (sampleLogin ++
            .arrive (.login ⟨str "a@b.c", str "password"⟩) :: sampleSteps 2 0 60 10)) session.origin
            later.committed (sampleId 13)) := by
  have alive : Alive ((System.init.run driver (serve {}) sampleLogin).get (by decide +kernel)).committed
      (sampleId 13) := by decide +kernel
  obtain ⟨row, held, family, _⟩ := alive
  exact ⟨(System.init.run driver (serve {}) sampleLogin).get (by decide +kernel),
    (((System.init.run driver (serve {}) sampleLogin).get (by decide +kernel)).run driver (serve {})
      (.arrive (.login ⟨str "a@b.c", str "password"⟩) :: sampleSteps 2 0 60 10)).get (by decide +kernel),
    (Option.some_get _).symm, (Option.some_get _).symm,
    families_change_through_bearers {} sampleLogin _ _ _ (sampleId 13) (Option.some_get _).symm
      ⟨row, held, family⟩ (Option.some_get _).symm⟩

end Runs

end BackendFoundation.FamilyBearers
