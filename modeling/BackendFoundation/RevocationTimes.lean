import BackendFoundation.AuthVerdicts

/-! `revoked_at` in runs of login, refresh and logout requests that are served one at a
time. An exchange and the revocation of a family write it only where it is NULL; a logout
writes it wherever the token's row is. -/
namespace BackendFoundation.RevocationTimes
open PythonValues KeyedTables RequestPrograms ReadCommitted TransactionLogic
open AuthPersistence AuthPrograms AuthSpecs AuthAtomicity AuthDiscipline AuthSessions
open AuthRotation AuthVerdicts FamilySimulation

inductive Call where
  | login (creds : Credentials)
  | refresh (refreshTokenString : Str)
  | logout (refreshTokenString : Str)

def Call.request : Call → Request
  | .login creds => .login creds
  | .refresh token => .refresh token
  | .logout token => .logout token

/-- A request and what its ports and the database do while it is served. -/
structure Turn where
  call : Call
  ticks : ℕ → World

/-- The committed tables that a turn leaves. -/
def Turn.run (service : AuthService) (db : Database) (turn : Turn) : Database :=
  (exec driver turn.ticks 0 db (Table.empty schema) (serve service turn.call.request)).2

/-- A turn with the committed tables before and after it. -/
structure Passage where
  before : Database
  turn : Turn
  after : Database

def passages (service : AuthService) (db : Database) : List Turn → List Passage
  | [] => []
  | turn :: rest => ⟨db, turn, turn.run service db⟩ :: passages service (turn.run service db) rest

/-- The committed tables, from the first to the last. -/
def states (service : AuthService) (db : Database) : List Turn → List Database
  | [] => [db]
  | turn :: rest => db :: states service (turn.run service db) rest

/-! ## What should hold -/

/-- The columns that are written once and for all. -/
structure SameToken (row later : RefreshTokenRow) : Prop where
  id : later.id = row.id
  userId : later.userId = row.userId
  familyId : later.familyId = row.familyId
  hash : later.hash = row.hash
  issuedAt : later.issuedAt = row.issuedAt
  expiresAt : later.expiresAt = row.expiresAt

/-- Every row is still there, with its revocation time if it has one. -/
def Kept (earlier later : Database) : Prop :=
  ∀ row, Holds earlier row → ∃ same, Holds later same ∧ SameToken row same ∧
    (row.revokedAt ≠ none → same.revokedAt = row.revokedAt)

/-- Every row is still there, whatever marks it now. -/
def Columns (earlier later : Database) : Prop :=
  ∀ row, Holds earlier row → ∃ same, Holds later same ∧ SameToken row same

/-- A revocation time is the one the row had, or what the clock told when the row,
unrevoked till then, was revoked. -/
def Dated (passage : Passage) : Prop :=
  ∀ row, Holds passage.after row → ∀ time, row.revokedAt = some time →
    (∃ old, Holds passage.before old ∧ old.id = row.id ∧ old.revokedAt = some time) ∨
      (∀ old, Holds passage.before old → old.id = row.id → old.revokedAt = none) ∧
        Clocked passage.turn.ticks time

structure WrittenOnce (service : AuthService) (db : Database) (turns : List Turn) : Prop where
  kept : (states service db turns).Pairwise Kept
  dated : ∀ passage ∈ passages service db turns, Dated passage

/-- A logout with this string gets to its UPDATE of the row with this id, and commits it. -/
structure Stamps (ticks : ℕ → World) (token : Str) (id : UUID) (now : DateTime) : Prop where
  names : ∃ claims, (ticks 0).answer (.verify token) = .ok claims ∧ tokenNamed claims = some id
  clock : (ticks 1).answer .now = .ok now
  executes : (ticks 2).fault = none
  commits : (ticks 3).fault = none

/-- A logout whose token is revoked already, at another time than the clock now tells. -/
def Overwrites (db : Database) (turn : Turn) : Prop :=
  ∃ token id now, turn.call = .logout token ∧ Stamps turn.ticks token id now ∧
    ∃ row, Holds db row ∧ row.id = id ∧ row.revokedAt ≠ none ∧ row.revokedAt ≠ some now

/-! ## What a turn does -/

/-- A turn is not a logout that gets through. -/
def Turn.Mild (turn : Turn) : Prop :=
  ∀ token, turn.call = .logout token → ∀ id now, ¬ Stamps turn.ticks token id now

inductive TurnEffect (turn : Turn) (before : Database) : Database → Prop where
  | unchanged (mild : turn.Mild) : TurnEffect turn before before
  | inserted {after : Database} (mild : turn.Mild) (row : RefreshTokenRow)
      (unrevoked : row.revokedAt = none) (current : row.replacedBy = none)
      (inserted : Inserted before after row) : TurnEffect turn before after
  | rotated {after : Database} (mild : turn.Mild) (record row : RefreshTokenRow) (now : DateTime)
      (held : Holds before record) (active : record.revokedAt = none)
      (unrevoked : row.revokedAt = none) (current : row.replacedBy = none)
      (clock : Clocked turn.ticks now) (rotated : Rotated before after record row now) :
      TurnEffect turn before after
  | swept {after : Database} (mild : turn.Mild) (familyId : UUID) (now : DateTime)
      (clock : Clocked turn.ticks now) (swept : FamilyRevoked before after familyId now) :
      TurnEffect turn before after
  | stamped {after : Database} (token : Str) (id : UUID) (now : DateTime)
      (call : turn.call = .logout token) (stamps : Stamps turn.ticks token id now)
      (revoked : Revoked before after id now) : TurnEffect turn before after

section Turns

variable {service : AuthService} {before : Database} {ticks : ℕ → World}

private abbrev Leaves (turn : Turn) (before : Database) (service : AuthService) : Prop :=
  Ensures driver turn.ticks (fun _ _ after _ => TurnEffect turn before after) 0 before
    (Table.empty schema) (serve service turn.call.request)

private theorem login_leaves (creds : Credentials) :
    Leaves ⟨.login creds, ticks⟩ before service := by
  have mild : Turn.Mild ⟨.login creds, ticks⟩ := fun _ other => by cases other
  refine ensures_bind (ensures_login (fun _ _ _ => .unchanged mild) ?_)
  intro user row access token later after _ _ _ issued _ inserted
  exact .inserted mild row issued.unrevoked issued.current inserted

private theorem refresh_leaves (token : Str) :
    Leaves ⟨.refresh token, ticks⟩ before service := by
  have mild : Turn.Mild ⟨.refresh token, ticks⟩ := fun _ other => by cases other
  refine ensures_bind (ensures_refresh (fun _ _ _ _ => .unchanged mild) ?_ ?_)
  · intro record revokedAt later after left _ told swept
    exact .swept mild record.familyId revokedAt told swept
  · intro record user row access token now later after shown active _ _ issued _ _ told rotated
    exact .rotated mild record row now (token?_eq_some.mp shown.stored).1 active
      issued.unrevoked issued.current told rotated

private theorem logout_leaves (linked : Linked before) (token : Str) :
    Leaves ⟨.logout token, ticks⟩ before service := by
  have mild (missed : ∀ id now, ¬ Stamps ticks token id now) :
      Turn.Mild ⟨.logout token, ticks⟩ := by
    rintro _ ⟨⟩
    exact missed
  have misses (missed : ∀ id now, ¬ Stamps ticks token id now) :
      TurnEffect ⟨.logout token, ticks⟩ before before := .unchanged (mild missed)
  refine ensures_bind ?_
  rw [AuthService.logout]
  refine ensures_verified (fun error unverified => ?_) fun claims verified => ?_
  · have missed : ∀ id now, ¬ Stamps ticks token id now := by
      rintro id now ⟨⟨claims, verified, _⟩, _⟩
      cases unverified.symm.trans verified
    split <;> exact misses missed
  have unnamed (absent : tokenNamed claims = none) : ∀ id now, ¬ Stamps ticks token id now := by
    rintro id now ⟨⟨other, again, names⟩, _⟩
    cases verified.symm.trans again
    cases absent.symm.trans names
  simp only [AuthService.revokePresented]
  split
  · rename_i foreign
    exact misses (unnamed (tokenNamed_of_foreign foreign))
  rename_i typ
  split
  · rename_i missing
    exact misses (unnamed (tokenNamed_of_missing missing))
  rename_i jti
  rcases parseUuid_cases (by simpa using typ) (by simpa using jti) with
    ⟨id, names, parsed⟩ | ⟨malformed, raised | raised⟩
  · rw [parsed]
    refine ensures_ask (fun error stopped => misses ?_) fun now told => ?_
    · rintro _ now ⟨_, clock, _, _⟩
      cases stopped.symm.trans clock
    refine ensures_revokeRefreshToken (fun error fault => misses ?_) fun _ written executes revoked => ?_
    · rintro _ _ ⟨_, _, executes, _⟩
      cases fault.symm.trans executes
    rw [Table.overlay_empty] at revoked
    rw [← Program.bind_ret commit]
    refine ensures_commit (fun error cause => ?_) fun commits _ => ?_
    · rcases cause with fault | ⟨unsettled, _⟩
      · apply misses
        rintro _ _ ⟨_, _, _, commits⟩
        cases fault.symm.trans commits
      · have settles : settled before written = true := by
          refine settled_of_marked linked (fun row => ?_) revoked
          split <;> exact ⟨rfl, rfl⟩
        cases unsettled.symm.trans settles
    · exact .stamped token id now rfl ⟨⟨claims, verified, names⟩, told, executes, commits⟩ revoked
  · rw [raised]
    exact misses (unnamed (by simp [tokenNamed, malformed.2.2]))
  · rw [raised]
    exact misses (unnamed (by simp [tokenNamed, malformed.2.2]))

/-- Every turn has one of these effects. -/
theorem turn_effect (service : AuthService) {before : Database} (linked : Linked before)
    (turn : Turn) : TurnEffect turn before (turn.run service before) := by
  obtain ⟨call, ticks⟩ := turn
  refine @ensures_exec _ _ _ _ _ _ _ _ _ _ _ _ _ _
    (fun _ after => TurnEffect ⟨call, ticks⟩ before after) _ ?_
  cases call with
  | login creds => exact login_leaves creds
  | refresh token => exact refresh_leaves token
  | logout token => exact logout_leaves linked token

end Turns

/-! ## What a turn keeps -/

theorem kept_refl (db : Database) : Kept db db :=
  fun row held => ⟨row, held, ⟨rfl, rfl, rfl, rfl, rfl, rfl⟩, fun _ => rfl⟩

theorem SameToken.trans {row middle last : RefreshTokenRow} (first : SameToken row middle)
    (second : SameToken middle last) : SameToken row last :=
  ⟨second.id.trans first.id, second.userId.trans first.userId,
    second.familyId.trans first.familyId, second.hash.trans first.hash,
    second.issuedAt.trans first.issuedAt, second.expiresAt.trans first.expiresAt⟩

section Keeping

variable {first second third : Database}

theorem Columns.trans (earlier : Columns first second) (later : Columns second third) :
    Columns first third := by
  intro row held
  obtain ⟨middle, middle_held, middle_same⟩ := earlier row held
  obtain ⟨last, last_held, last_same⟩ := later middle middle_held
  exact ⟨last, last_held, middle_same.trans last_same⟩

theorem Kept.columns (kept : Kept first second) : Columns first second := by
  intro row held
  obtain ⟨same, same_held, same_token, _⟩ := kept row held
  exact ⟨same, same_held, same_token⟩

theorem Kept.trans (earlier : Kept first second) (later : Kept second third) :
    Kept first third := by
  intro row held
  obtain ⟨middle, middle_held, middle_same, middle_time⟩ := earlier row held
  obtain ⟨last, last_held, last_same, last_time⟩ := later middle middle_held
  refine ⟨last, last_held, middle_same.trans last_same, fun revoked => ?_⟩
  have middle_revoked : middle.revokedAt ≠ none := middle_time revoked ▸ revoked
  exact (last_time middle_revoked).trans (middle_time revoked)

end Keeping

section Marks

variable {before after : Database} {turn : Turn} {now : DateTime}
variable {wanted : RefreshTokenRow → Bool}

/-- An UPDATE of `revoked_at` alone. -/
def Marks (before after : Database) (wanted : RefreshTokenRow → Bool) (now : DateTime) : Prop :=
  ∀ row, row ∈ after ↔ ∃ old ∈ before, row = old.mapToken fun token =>
    if wanted token then markRevoked now token else token

/-- It does no harm to a revoked row that it writes the time of again. -/
def Harmless (before : Database) (wanted : RefreshTokenRow → Bool) (now : DateTime) : Prop :=
  ∀ row, Holds before row → wanted row = true → row.revokedAt ≠ none → row.revokedAt = some now

theorem Marks.version (marks : Marks before after wanted now) {row : RefreshTokenRow}
    (held : Holds before row) :
    Holds after (if wanted row then markRevoked now row else row) :=
  (marks _).mpr ⟨_, held, rfl⟩

theorem Marks.source (marks : Marks before after wanted now) {row : RefreshTokenRow}
    (held : Holds after row) :
    ∃ old, Holds before old ∧ row = if wanted old then markRevoked now old else old := by
  obtain ⟨old, old_held, same⟩ := (marks _).mp held
  cases old with
  | user user => cases same
  | refreshToken old => exact ⟨old, old_held, Row.refreshToken.inj same⟩

theorem Marks.linked (marks : Marks before after wanted now) (linked : Linked before) :
    Linked after := by
  intro row held next replaced
  obtain ⟨old, old_held, rfl⟩ := marks.source held
  have old_replaced : old.replacedBy = some next := by
    split at replaced <;> exact replaced
  obtain ⟨later, later_held, rfl⟩ := linked old old_held next old_replaced
  refine ⟨_, marks.version later_held, ?_⟩
  split <;> rfl

theorem Marks.columns (marks : Marks before after wanted now) : Columns before after := by
  intro row held
  refine ⟨_, marks.version held, ?_⟩
  split <;> exact ⟨rfl, rfl, rfl, rfl, rfl, rfl⟩

theorem Marks.kept (marks : Marks before after wanted now) (harmless : Harmless before wanted now) :
    Kept before after := by
  intro row held
  refine ⟨_, marks.version held, ?_, fun revoked => ?_⟩
  · split <;> exact ⟨rfl, rfl, rfl, rfl, rfl, rfl⟩
  · split
    · rename_i want
      exact (harmless row held want revoked).symm
    · rfl

theorem Marks.dated (marks : Marks before after wanted now) (harmless : Harmless before wanted now)
    (clock : Clocked turn.ticks now) : Dated ⟨before, turn, after⟩ := by
  intro row held time revoked
  obtain ⟨old, old_held, rfl⟩ := marks.source held
  cases want : wanted old with
  | false =>
    simp only [want, Bool.false_eq_true, if_false] at revoked ⊢
    exact .inl ⟨old, old_held, rfl, revoked⟩
  | true =>
    simp only [want, if_true] at revoked ⊢
    obtain rfl : now = time := Option.some.inj revoked
    by_cases active : old.revokedAt = none
    · refine .inr ⟨fun other other_held same => ?_, clock⟩
      obtain rfl : other = old := held_once other_held old_held same
      exact active
    · exact .inl ⟨old, old_held, rfl, harmless old old_held want active⟩

theorem marks_of_swept {familyId : UUID} (swept : FamilyRevoked before after familyId now) :
    Marks before after (fun row => row.familyId == familyId && row.revokedAt.isNone) now := swept

theorem marks_of_revoked {id : UUID} (revoked : Revoked before after id now) :
    Marks before after (·.id == id) now := revoked

end Marks

section Effects

variable {before after : Database} {turn : Turn}

theorem linked_effect (linked : Linked before) (effect : TurnEffect turn before after) :
    Linked after := by
  intro row held next replaced
  cases effect with
  | unchanged mild => exact linked row held next replaced
  | inserted mild new unrevoked current inserted =>
    rcases (inserted _).mp held with same | held
    · cases same
      cases current.symm.trans replaced
    · obtain ⟨later, later_held, same⟩ := linked row held next replaced
      exact ⟨later, (inserted _).mpr (.inr later_held), same⟩
  | rotated mild record new now record_held active unrevoked current clock rotated =>
    have survives : ∀ later, Holds before later → ∃ same, Holds after same ∧ same.id = later.id := by
      intro later later_held
      by_cases own : later.id = record.id
      · exact ⟨markReplaced new.id now record, (rotated _).mpr (.inl rfl), own.symm⟩
      · exact ⟨later, (rotated _).mpr (.inr (.inr ⟨later_held, fun same =>
          own (Key.refreshToken.inj same)⟩)), rfl⟩
    rcases (rotated _).mp held with same | same | ⟨held, _⟩
    · cases same
      cases replaced
      exact ⟨new, (rotated _).mpr (.inr (.inl rfl)), rfl⟩
    · cases same
      cases current.symm.trans replaced
    · obtain ⟨later, later_held, rfl⟩ := linked row held next replaced
      exact survives later later_held
  | swept mild familyId now clock swept =>
    exact (marks_of_swept swept).linked linked row held next replaced
  | stamped token id now call stamps revoked =>
    exact (marks_of_revoked revoked).linked linked row held next replaced

/-- A turn that overwrites no revocation time keeps and dates them all. -/
theorem effect_keeps (effect : TurnEffect turn before after) (spares : ¬ Overwrites before turn) :
    Kept before after ∧ Dated ⟨before, turn, after⟩ := by
  cases effect with
  | unchanged mild =>
    exact ⟨kept_refl before, fun row held time revoked => .inl ⟨row, held, rfl, revoked⟩⟩
  | inserted mild new unrevoked current inserted =>
    refine ⟨fun row held => ⟨row, (inserted _).mpr (.inr held), ⟨rfl, rfl, rfl, rfl, rfl, rfl⟩,
      fun _ => rfl⟩, fun row held time revoked => ?_⟩
    rcases (inserted _).mp held with same | held
    · cases same
      cases unrevoked.symm.trans revoked
    · exact .inl ⟨row, held, rfl, revoked⟩
  | rotated mild record new now record_held active unrevoked current clock rotated =>
    constructor
    · intro row held
      by_cases own : row.id = record.id
      · obtain rfl : row = record := held_once held record_held own
        exact ⟨markReplaced new.id now row, (rotated _).mpr (.inl rfl),
          ⟨rfl, rfl, rfl, rfl, rfl, rfl⟩, fun revoked => absurd active revoked⟩
      · exact ⟨row, (rotated _).mpr (.inr (.inr ⟨held, fun same =>
          own (Key.refreshToken.inj same)⟩)), ⟨rfl, rfl, rfl, rfl, rfl, rfl⟩, fun _ => rfl⟩
    · intro row held time revoked
      rcases (rotated _).mp held with same | same | ⟨held, _⟩
      · cases same
        cases revoked
        refine .inr ⟨fun old old_held same => ?_, clock⟩
        obtain rfl : old = record := held_once old_held record_held same
        exact active
      · cases same
        cases unrevoked.symm.trans revoked
      · exact .inl ⟨row, held, rfl, revoked⟩
  | swept mild familyId now clock swept =>
    have harmless : Harmless before
        (fun row => row.familyId == familyId && row.revokedAt.isNone) now := by
      intro row _ want revoked
      simp only [Bool.and_eq_true, Option.isNone_iff_eq_none] at want
      exact absurd want.2 revoked
    exact ⟨(marks_of_swept swept).kept harmless, (marks_of_swept swept).dated harmless clock⟩
  | stamped token id now call stamps revoked =>
    have harmless : Harmless before (·.id == id) now := by
      intro row held want already
      by_contra other
      exact spares ⟨token, id, now, call, stamps, row, held, by simpa using want, already, other⟩
    exact ⟨(marks_of_revoked revoked).kept harmless,
      (marks_of_revoked revoked).dated harmless ⟨1, stamps.clock⟩⟩

/-- A logout that gets through is nothing else. -/
theorem revoked_of_stamps {token : Str} {id : UUID} {now : DateTime}
    (effect : TurnEffect turn before after) (call : turn.call = .logout token)
    (stamps : Stamps turn.ticks token id now) : Revoked before after id now := by
  have heavy : ¬ turn.Mild := fun mild => mild token call id now stamps
  cases effect with
  | unchanged mild => exact absurd mild heavy
  | inserted mild => exact absurd mild heavy
  | rotated mild => exact absurd mild heavy
  | swept mild => exact absurd mild heavy
  | stamped token' id' now' call' stamps' revoked =>
    obtain rfl : token = token' := Call.logout.inj (call.symm.trans call')
    obtain rfl : now = now' := Except.ok.inj (stamps.clock.symm.trans stamps'.clock)
    obtain ⟨claims, verified, names⟩ := stamps.names
    obtain ⟨claims', verified', names'⟩ := stamps'.names
    cases verified.symm.trans verified'
    obtain rfl : id = id' := Option.some.inj (names.symm.trans names')
    exact revoked

/-- A logout that overwrites a revocation time does not keep it. -/
theorem effect_overwrites (effect : TurnEffect turn before after)
    (overwrites : Overwrites before turn) : ¬ Kept before after := by
  obtain ⟨token, id, now, call, stamps, row, held, same_id, already, other⟩ := overwrites
  have revoked := revoked_of_stamps effect call stamps
  intro kept
  obtain ⟨later, later_held, same, time⟩ := kept row held
  have version : Holds after (markRevoked now row) := by
    simpa [same_id] using (marks_of_revoked revoked).version held
  obtain rfl : later = markRevoked now row := held_once later_held version same.id
  exact other (time already).symm

/-- Not even that changes another column. -/
theorem effect_columns (effect : TurnEffect turn before after) : Columns before after := by
  by_cases overwrites : Overwrites before turn
  · obtain ⟨token, id, now, call, stamps, _⟩ := overwrites
    exact (marks_of_revoked (revoked_of_stamps effect call stamps)).columns
  · exact (effect_keeps effect overwrites).1.columns

end Effects

/-! ## Runs -/

theorem states_head (service : AuthService) (db : Database) (turns : List Turn) :
    ∃ rest, states service db turns = db :: rest := by
  cases turns with
  | nil => exact ⟨[], rfl⟩
  | cons turn rest => exact ⟨_, rfl⟩

/-- What every turn keeps, the states keep from one to any later one. -/
theorem states_pairwise {service : AuthService} (keeps : Database → Database → Prop)
    (trans : ∀ first middle last, keeps first middle → keeps middle last → keeps first last)
    {turns : List Turn} {db : Database}
    (kept : ∀ passage ∈ passages service db turns, keeps passage.before passage.after) :
    (states service db turns).Pairwise keeps := by
  induction turns generalizing db with
  | nil => exact List.pairwise_singleton _ _
  | cons turn rest ih =>
    have step : keeps db (turn.run service db) := kept _ List.mem_cons_self
    have later := ih fun passage member => kept passage (List.mem_cons_of_mem _ member)
    obtain ⟨tail, whole⟩ := states_head service (turn.run service db) rest
    refine List.pairwise_cons.mpr ⟨fun state member => ?_, later⟩
    rw [whole] at member later
    rcases List.mem_cons.mp member with rfl | member
    · exact step
    · exact trans _ _ _ step ((List.pairwise_cons.mp later).1 state member)

/-- What every state keeps of all earlier ones, every turn keeps. -/
theorem passage_kept {service : AuthService} {turns : List Turn} {db : Database}
    (kept : (states service db turns).Pairwise Kept) :
    ∀ passage ∈ passages service db turns, Kept passage.before passage.after := by
  induction turns generalizing db with
  | nil => exact fun _ member => absurd member List.not_mem_nil
  | cons turn rest ih =>
    obtain ⟨first, later⟩ := List.pairwise_cons.mp kept
    obtain ⟨tail, whole⟩ := states_head service (turn.run service db) rest
    intro passage member
    rcases List.mem_cons.mp member with rfl | member
    · exact first _ (by rw [whole]; exact List.mem_cons_self)
    · exact ih later passage member

/-- The foreign key holds in every state, so that every turn has its effect. -/
theorem passage_effect {service : AuthService} {turns : List Turn} {db : Database}
    (linked : Linked db) : ∀ passage ∈ passages service db turns,
      TurnEffect passage.turn passage.before passage.after := by
  induction turns generalizing db with
  | nil => exact fun _ member => absurd member List.not_mem_nil
  | cons turn rest ih =>
    have effect := turn_effect service linked turn
    intro passage member
    rcases List.mem_cons.mp member with rfl | member
    · exact effect
    · exact ih (linked_effect linked effect) passage member

/-- No request changes any other column of a token. -/
theorem columns_never_change (service : AuthService) {db : Database} (linked : Linked db)
    (turns : List Turn) : (states service db turns).Pairwise Columns :=
  states_pairwise Columns (fun _ _ _ => Columns.trans) fun passage member =>
    effect_columns (passage_effect linked passage member)

/-- **Revocation times are written once**, in the runs in which no logout presents a token
that is revoked already, at another time. -/
theorem written_once_iff (service : AuthService) (db : Database) (linked : Linked db)
    (turns : List Turn) :
    WrittenOnce service db turns ↔
      ∀ passage ∈ passages service db turns, ¬ Overwrites passage.before passage.turn := by
  have effects := @passage_effect service turns db linked
  constructor
  · intro once passage member overwrites
    exact effect_overwrites (effects passage member) overwrites (passage_kept once.kept passage member)
  · intro spares
    have keeps := fun passage member => effect_keeps (effects passage member) (spares passage member)
    exact ⟨states_pairwise Kept (fun _ _ _ => Kept.trans) fun passage member =>
        (keeps passage member).1,
      fun passage member => (keeps passage member).2⟩

def sampleUsers : Database :=
  (Table.empty schema).put (.user ⟨sampleId 1, str "a@b.c", [], 0, none, false⟩)

/-- The token of the first login has the id 14. -/
def sampleTurn (call : Call) (n : ℕ) : Turn := ⟨call, fun moment => sampleTick 14 (n + moment)⟩

def loginTurn : Turn := sampleTurn (.login ⟨str "a@b.c", str "password"⟩) 10

def logoutTurn (n : ℕ) : Turn := sampleTurn (.logout (str "token")) n

def loggedIn : Database := loginTurn.run {} sampleUsers

def loggedOut : Database := (logoutTurn 30).run {} loggedIn

theorem linked_users : Linked sampleUsers := by
  intro row held
  rcases Table.mem_put.mp held with same | ⟨never, _⟩
  · cases same
  · exact absurd never (Table.not_mem_empty _)

theorem one_logout_writes_once : WrittenOnce {} sampleUsers [loginTurn, logoutTurn 30] := by
  refine (written_once_iff {} sampleUsers linked_users _).mpr fun passage member => ?_
  have active : loggedIn.rows.all (fun row =>
      (row.refreshToken?.bind RefreshTokenRow.revokedAt).isNone) = true := by decide +kernel
  rintro ⟨token, id, now, call, _, row, held, _, revoked, _⟩
  rcases List.mem_cons.mp member with rfl | member
  · cases call
  · obtain rfl := List.mem_singleton.mp member
    have unrevoked := List.all_eq_true.mp active _ held
    exact revoked (Option.isNone_iff_eq_none.mp unrevoked)

private theorem mem_tokens {db : Database} {row : RefreshTokenRow} :
    row ∈ db.rows.filterMap Row.refreshToken? ↔ Holds db row := by
  simp only [List.mem_filterMap]
  constructor
  · rintro ⟨user | token, held, same⟩
    · cases same
    · cases same
      exact held
  · exact fun held => ⟨_, held, rfl⟩

/-- The second logout moves the time of the first. -/
theorem second_logout_overwrites :
    ¬ WrittenOnce {} sampleUsers [loginTurn, logoutTurn 30, logoutTurn 50] := by
  intro once
  have kept : Kept loggedOut ((logoutTurn 50).run {} loggedOut) :=
    passage_kept once.kept ⟨loggedOut, logoutTurn 50, _⟩
      (List.mem_cons_of_mem _ (List.mem_cons_of_mem _ List.mem_cons_self))
  have first : ∃ row ∈ loggedOut.rows.filterMap Row.refreshToken?,
      row.revokedAt = some 31 := by decide +kernel
  have second : ∀ row ∈ ((logoutTurn 50).run {} loggedOut).rows.filterMap Row.refreshToken?,
      row.revokedAt = some 51 := by decide +kernel
  obtain ⟨row, held, revoked⟩ := first
  obtain ⟨later, later_held, _, time⟩ := kept row (mem_tokens.mp held)
  have moved := second later (mem_tokens.mpr later_held)
  have unmoved := (time (by simp [revoked])).trans revoked
  cases moved.symm.trans unmoved

end BackendFoundation.RevocationTimes
