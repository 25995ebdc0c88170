import BackendFoundation.TransactionWaits
import BackendFoundation.UserProfiles

/-! Any number of `GET /users/me` requests at once. Each is served in a session of its
own that never commits, so the others meet its row only while it is open. -/
namespace BackendFoundation.ProfileRequests
open PythonValues KeyedTables RequestPrograms ReadCommitted ReadCommittedProofs TransactionWaits
open AuthPersistence UserProfiles

/-- The user for whom a request is served. -/
structure Caller where
  userId : UUID
  email : Str
  deriving DecidableEq

def Caller.asked (caller : Caller) (now : DateTime) : MeRequest :=
  { userId := caller.userId, email := caller.email, now }

/-- `get_my_profile`, with the session and the clock it depends on. -/
def serve (caller : Caller) : UsersProgram UserProfile :=
  getOrCreateProfile caller.userId caller.email

abbrev ProfileSession := Session profileSchema ClockReply ProfileStatement Exn UserProfile Caller

abbrev ProfileSystem := System profileSchema ClockReply ProfileStatement Exn UserProfile Caller

abbrev ProfileAction := Action ClockReply Exn Caller

/-- The clock was read so in one of the steps. -/
def Heard (actions : List ProfileAction) (reading : Except Exn DateTime) : Prop :=
  ∃ index tick, Action.step index tick ∈ actions ∧ tick.answer .now = reading

/-- The surroundings failed one of the steps with this. -/
def Faulted (actions : List ProfileAction) (error : Exn) : Prop :=
  Heard actions (.error error) ∨
    ∃ index tick, Action.step index tick ∈ actions ∧ tick.fault = some error

/-- The program after the lookup has found nothing. -/
def creation (caller : Caller) : UsersProgram UserProfile := do
  let now ← Program.perform (Op.ask ClockAsk.now)
  createUserProfile (newProfile (caller.asked now))

/-- Where a request can stand, and what it may have written. -/
inductive Stage (db : ProfileDatabase) (actions : List ProfileAction) (caller : Caller) :
    UsersProgram UserProfile → ProfileDatabase → Prop where
  | starting : Stage db actions caller (serve caller) (Table.empty _)
  | untimed (missing : profileOf db caller.userId = none) :
      Stage db actions caller (creation caller) (Table.empty _)
  | timed (missing : profileOf db caller.userId = none) (now : DateTime)
      (heard : Heard actions (.ok now)) :
      Stage db actions caller (createUserProfile (newProfile (caller.asked now))) (Table.empty _)
  | answered (profile : UserProfile) (pending : ProfileDatabase) (now : DateTime)
      (heard : profileOf db caller.userId = none → Heard actions (.ok now))
      (alone : (getMyProfile db (caller.asked now)).1 = .ok profile)
      (own : ∀ row ∈ pending, row = .profile profile.stored) :
      Stage db actions caller (.ret profile) pending
  | refused (error : Exn) (now : DateTime) (heard : Heard actions (.ok now))
      (alone : (getMyProfile db (caller.asked now)).1 = .error error) :
      Stage db actions caller (.raise error) (Table.empty _)
  | failed (error : Exn) (fault : Faulted actions error) :
      Stage db actions caller (.raise error) (Table.empty _)

/-- Where a session of a request stands. -/
def Stands (db : ProfileDatabase) (actions : List ProfileAction) (session : ProfileSession) : Prop :=
  Stage db actions session.origin session.program session.pending

/-- The lookup is answered by the rows with the user's key, of which there is one at most. -/
theorem serve_eq (caller : Caller) :
    serve caller = .call (.stmt (.getUserProfile caller.userId)) fun answer =>
      match answer with
      | .error error => .raise error
      | .ok rows =>
        match rows.filterMap ProfileRow.profile? with
        | [] => creation caller
        | [row] => .ret row
        | _ => .raise .multipleResultsFound := by
  unfold serve getOrCreateProfile getUserProfile
  simp only [Program.perform, Program.call_bind]
  congr 1
  funext answer
  cases answer with
  | error error => rfl
  | ok rows =>
    simp only [Program.ret_bind]
    rcases rows.filterMap ProfileRow.profile? with _ | ⟨row, _ | ⟨other, rest⟩⟩
    · rfl
    · rfl
    · rfl

section Steps

variable {db : ProfileDatabase} {actions : List ProfileAction} {index : ℕ}
  {tick : Tick ClockReply Exn} {others : List ProfileSession} {session : ProfileSession}
  {caller : Caller}

/-- What the session does next, whatever the others are doing. -/
theorem advance_lookup (at_ : session.program = serve caller)
    (clean : session.pending = Table.empty profileSchema) :
    session.advance profileDriver tick db others = some (db, match tick.fault with
      | some error => session.abort (.raise error)
      | none => session.proceed (match profileOf db caller.userId with
        | some profile => .ret profile
        | none => creation caller) (Table.empty _)) := by
  rw [serve_eq] at at_
  cases fault : tick.fault with
  | some error => simp [Session.advance, at_, fault]
  | none =>
    have rows := select_profile db caller.userId
    simp only [Session.advance, at_, fault, profileDriver, ProfileStatement.sql, clean,
      Table.overlay_empty]
    rw [rows]
    cases profileOf db caller.userId with
    | none => rfl
    | some profile => rfl

theorem advance_clock (at_ : session.program = creation caller) :
    session.advance profileDriver tick db others = some (db, match tick.answer .now with
      | .error error => { session with program := .raise error }
      | .ok now =>
        { session with program := createUserProfile (newProfile (caller.asked now)) }) := by
  simp only [creation, Program.perform, Program.call_bind] at at_
  simp only [Session.advance, at_]
  cases tick.answer .now with
  | error error => rfl
  | ok now => rfl

theorem advance_insert {row : UserProfile} (at_ : session.program = createUserProfile row)
    (clean : session.pending = Table.empty profileSchema) :
    session.advance profileDriver tick db others = match tick.fault with
      | some error => some (db, session.abort (.raise error))
      | none =>
        if varchar255 row.email then
          if others.any (Session.inDoubt db (.profile row.stored)) then none
          else if admits db (.profile row.stored) then
            some (db, session.proceed (.ret row)
              ((Table.empty profileSchema).put (.profile row.stored)))
          else some (db, session.abort (.raise (.db .integrity)))
        else some (db, session.abort (.raise (.db .data))) := by
  simp only [createUserProfile, Program.perform, Program.call_bind] at at_
  cases fault : tick.fault with
  | some error => simp [Session.advance, at_, fault]
  | none =>
    by_cases fits : varchar255 row.email = true
    · simp only [Session.advance, at_, fault, profileDriver, ProfileStatement.sql, fits, if_true, clean,
        Table.overlay_empty]
      rfl
    · simp [Session.advance, at_, fault, profileDriver, ProfileStatement.sql, fits]

/-- A request's step changes nothing that is committed, if it need not wait. -/
theorem stands_advance (member : Action.step index tick ∈ actions)
    (stands : Stands db actions session) :
    (∃ later, session.advance profileDriver tick db others = some (db, later) ∧
      Stands db actions later) ∨
    session.advance profileDriver tick db others = none := by
  obtain ⟨origin, program, pending, scan, published⟩ := session
  change Stage db actions origin program pending at stands
  cases stands with
  | starting =>
    refine .inl ⟨_, advance_lookup rfl rfl, ?_⟩
    cases fault : tick.fault with
    | some error => exact .failed error (.inr ⟨index, tick, member, fault⟩)
    | none =>
      cases found : profileOf db origin.userId with
      | none => exact .untimed found
      | some profile =>
        exact .answered profile _ 0 (fun missing => absurd (missing.symm.trans found) (by simp))
          (congrArg Prod.fst (committed_profile_returned found).1)
          (fun row here => absurd here (Table.not_mem_empty row))
  | untimed missing =>
    refine .inl ⟨_, advance_clock rfl, ?_⟩
    cases read : tick.answer .now with
    | error error => exact .failed error (.inl ⟨index, tick, member, read⟩)
    | ok now => exact .timed missing now ⟨index, tick, member, read⟩
  | timed missing now heard =>
    have alone := congrArg Prod.fst (@missing_profile_returned db (origin.asked now) missing)
    cases fault : tick.fault with
    | some error =>
      refine .inl ⟨_, (advance_insert rfl rfl).trans (by rw [fault]), ?_⟩
      exact .failed error (.inr ⟨index, tick, member, fault⟩)
    | none =>
      have advanced := @advance_insert db tick others ⟨origin, _, _, scan, published⟩
        (newProfile (origin.asked now)) rfl rfl
      rw [fault] at advanced
      dsimp only at advanced
      change _ = if (varchar255 (newProfile (origin.asked now)).email &&
          admits db (.profile (newProfile (origin.asked now)).stored)) = true then _ else
        Except.error (Exn.db (if varchar255 (newProfile (origin.asked now)).email = true then .integrity
          else .data)) at alone
      by_cases fits : varchar255 (newProfile (origin.asked now)).email = true
      · rw [if_pos fits] at advanced
        by_cases waits : others.any (Session.inDoubt db
            (.profile (newProfile (origin.asked now)).stored)) = true
        · rw [if_pos waits] at advanced
          exact .inr advanced
        · rw [if_neg waits] at advanced
          by_cases room : admits db (.profile (newProfile (origin.asked now)).stored) = true
          · rw [if_pos room] at advanced
            rw [fits, room] at alone
            refine .inl ⟨_, advanced, .answered _ _ now (fun _ => heard) alone fun row here => ?_⟩
            exact (Table.mem_put.mp here).resolve_right fun old => Table.not_mem_empty row old.1
          · rw [if_neg room] at advanced
            rw [fits, Bool.eq_false_iff.mpr room] at alone
            exact .inl ⟨_, advanced, .refused _ now heard alone⟩
      · rw [if_neg fits] at advanced
        rw [Bool.eq_false_iff.mpr fits] at alone
        exact .inl ⟨_, advanced, .refused _ now heard alone⟩
  | answered profile pending now heard alone own =>
    exact .inl ⟨_, rfl, .answered profile _ now heard alone
      fun row here => absurd here (Table.not_mem_empty row)⟩
  | refused error now heard alone => exact .inl ⟨_, rfl, .refused error now heard alone⟩
  | failed error fault => exact .inl ⟨_, rfl, .failed error fault⟩

/-- A session that holds a row has answered its request with it. -/
theorem stands_answered (stands : Stands db actions session) (holds : session.pending.rows ≠ []) :
    ∃ profile, session.program = .ret profile ∧
      ∀ row ∈ session.pending, row = .profile profile.stored := by
  obtain ⟨origin, program, pending, scan, published⟩ := session
  change Stage db actions origin program pending at stands
  cases stands with
  | answered profile _ _ _ _ own => exact ⟨profile, rfl, own⟩
  | starting => exact absurd rfl holds
  | untimed _ => exact absurd rfl holds
  | timed _ _ _ => exact absurd rfl holds
  | refused _ _ _ _ => exact absurd rfl holds
  | failed _ _ => exact absurd rfl holds

end Steps

/-! ## Runs -/

section Runs

variable {db : ProfileDatabase} {actions : List ProfileAction} {system : ProfileSystem}
  {session : ProfileSession}

/-- The committed rows are those of before, and every session stands somewhere. -/
structure Serving (db : ProfileDatabase) (actions : List ProfileAction) (system : ProfileSystem) :
    Prop where
  committed : system.committed = db
  stands : ∀ session ∈ system.sessions, Stands db actions session

theorem serving_next {action : ProfileAction} {after : ProfileSystem}
    (before : Serving db actions system) (member : action ∈ actions)
    (stepped : system.next profileDriver serve action = some after) : Serving db actions after := by
  cases action with
  | arrive caller =>
    cases stepped
    refine ⟨before.committed, fun session among => ?_⟩
    rcases List.mem_append.mp among with old | new
    · exact before.stands session old
    · cases List.mem_singleton.mp new
      exact .starting
  | step index tick =>
    simp only [System.next, Option.bind_eq_bind, Option.bind_eq_some_iff] at stepped
    obtain ⟨session, found, ⟨committed, later⟩, advanced, same⟩ := stepped
    cases same
    rw [before.committed] at advanced
    have stands := before.stands session (List.mem_of_getElem? found)
    rcases stands_advance member stands with ⟨moved, ends, next⟩ | blocked
    · rw [ends] at advanced
      cases advanced
      refine ⟨rfl, fun other among => ?_⟩
      rcases List.mem_or_eq_of_mem_set among with old | rfl
      · exact before.stands other old
      · exact next
    · rw [blocked] at advanced
      cases advanced

theorem serving_run {all : List ProfileAction} (among : ∀ action ∈ actions, action ∈ all)
    (ran : System.run profileDriver serve ⟨db, []⟩ actions = some system) :
    Serving db all system := by
  have start : Serving db all (⟨db, []⟩ : ProfileSystem) :=
    ⟨rfl, fun _ member => absurd member List.not_mem_nil⟩
  have every : Along profileDriver serve (fun _ action => action ∈ all) ⟨db, []⟩ actions :=
    along_of_forall (fun _ => among) _
  exact run_invariant (fun _ _ _ before member stepped => serving_next before member stepped)
    start every ran

/-- Who is waited for has answered with the row that it holds. -/
theorem answered_of_waits (serving : Serving db actions system) {session other : ProfileSession}
    (member : other ∈ system.sessions)
    (waits : WaitsFor profileDriver system.committed session other) :
    ∃ profile, other.program = .ret profile ∧ other.pending.rows ≠ [] ∧
      ∀ row ∈ other.pending, row = .profile profile.stored := by
  obtain ⟨own, written⟩ := waits.holds
  have filled : other.pending.rows ≠ [] := List.ne_nil_of_mem written
  obtain ⟨profile, ended, same⟩ := stands_answered (serving.stands other member) filled
  exact ⟨profile, ended, filled, same⟩

/-- A row that puts a request's INSERT in doubt does so with the profile it would insert. -/
theorem doubt_of_waits (stands : Stands db actions session) {other : ProfileSession}
    (waits : WaitsFor profileDriver db session other) :
    ∃ now, other.inDoubt db (.profile (newProfile (session.origin.asked now)).stored) = true := by
  obtain ⟨origin, program, pending, scan, published⟩ := session
  change Stage db actions origin program pending at stands
  have looks : ∀ statement next, serve origin = .call (.stmt statement) next →
      statement = .getUserProfile origin.userId := by
    intro statement next calls
    rw [serve_eq] at calls
    cases calls
    rfl
  have creates : ∀ row statement next, createUserProfile row = .call (.stmt statement) next →
      statement = .createUserProfile row := by
    intro row statement next calls
    cases calls
    rfl
  cases waits with
  | lock statement change next key todo touched calls sql scans held =>
    cases statement with
    | getUserProfile userId => cases sql
    | createUserProfile row =>
      simp only [profileDriver, ProfileStatement.sql] at sql
      split at sql <;> cases sql
  | doubt statement row next calls sql undecided =>
    cases stands with
    | starting =>
      obtain rfl := looks _ _ calls
      cases sql
    | untimed missing => cases calls
    | timed missing now heard =>
      obtain rfl := creates _ _ _ calls
      simp only [profileDriver, ProfileStatement.sql] at sql
      split at sql <;> cases sql
      exact ⟨now, undecided⟩
    | answered | refused | failed => cases calls

/-- However the requests interleave, nothing is committed, and each is answered as it would
be alone, at a time that a clock has told, or with what its surroundings raised. -/
theorem requests_are_answered_as_alone
    (ran : System.run profileDriver serve ⟨db, []⟩ actions = some system) :
    system.committed = db ∧ ∀ session ∈ system.sessions,
      (∀ profile, session.program = .ret profile → ∃ now,
        (profileOf db session.origin.userId = none → Heard actions (.ok now)) ∧
          (getMyProfile db (session.origin.asked now)).1 = .ok profile) ∧
      ∀ error, session.program = .raise error → Faulted actions error ∨ ∃ now,
        Heard actions (.ok now) ∧ (getMyProfile db (session.origin.asked now)).1 = .error error := by
  have serving := serving_run (fun _ member => member) ran
  refine ⟨serving.committed, fun session member => ?_⟩
  have stands := serving.stands session member
  obtain ⟨origin, program, pending, scan, published⟩ := session
  change Stage db actions origin program pending at stands
  refine ⟨?_, ?_⟩
  · rintro profile ⟨⟩
    cases stands with
    | answered _ _ now heard alone _ => exact ⟨now, heard, alone⟩
  · rintro error ⟨⟩
    cases stands with
    | refused _ now heard alone => exact .inr ⟨now, heard, alone⟩
    | failed _ fault => exact .inl fault

/-- Two requests of one user, both of which have found no profile; the first has written
its row. -/
def race : List ProfileAction :=
  [.arrive ⟨⟨0⟩, str "a@b.c"⟩, .arrive ⟨⟨0⟩, str "a@b.c"⟩, .step 0 (surroundings 0),
    .step 1 (surroundings 1), .step 0 (surroundings 2), .step 1 (surroundings 3),
    .step 0 (surroundings 4)]

/-- The second of them has to wait. -/
theorem race_blocks : ∃ system, System.run profileDriver serve ⟨oneUser, []⟩ race = some system ∧
    system.sessions.length = 2 ∧
      system.next profileDriver serve (.step 1 (surroundings 5)) = none := by
  have ends : (System.run profileDriver serve ⟨oneUser, []⟩ race).any (fun system =>
      system.sessions.length == 2 &&
        (system.next profileDriver serve (.step 1 (surroundings 5))).isNone) = true := by
    decide +kernel
  obtain ⟨system, ran, both⟩ := (Option.any_eq_true _ _).mp ends
  have parts := Bool.and_eq_true_iff.mp both
  exact ⟨system, ran, beq_iff_eq.mp parts.1, Option.isNone_iff_eq_none.mp parts.2⟩

theorem race_commits_nothing :
    ∃ system, System.run profileDriver serve ⟨oneUser, []⟩ race = some system ∧
      system.committed = oneUser := by
  obtain ⟨system, ran, -⟩ := race_blocks
  exact ⟨system, ran, (requests_are_answered_as_alone ran).1⟩

/-- The request has been answered and holds a row; whatever happens then, its session can
be closed, and that takes back the row. -/
structure Closable (system : ProfileSystem) (index : ℕ) (session : ProfileSession) : Prop where
  answered : ∃ profile, session.program = .ret profile
  holds : session.pending.rows ≠ []
  closes : ∀ tick, ∃ closed, closed.pending.rows = [] ∧
    system.next profileDriver serve (.step index tick) =
      some ⟨system.committed, system.sessions.set index closed⟩

theorem closable_of_waits (serving : Serving db actions system) {index : ℕ} {other : ProfileSession}
    (found : system.sessions[index]? = some other)
    (waits : WaitsFor profileDriver system.committed session other) :
    Closable system index other := by
  obtain ⟨profile, ended, filled, _⟩ :=
    answered_of_waits serving (List.mem_of_getElem? found) waits
  refine ⟨⟨profile, ended⟩, filled, fun tick => ⟨other.abort (.ret profile), rfl, ?_⟩⟩
  simp [System.next, found, Session.advance, ended]

/-- **Requests cannot deadlock.** One that has to wait does so for another one, and all that
it waits for have been answered and can be closed. -/
theorem requests_wait_for_answered_ones
    (ran : System.run profileDriver serve ⟨db, []⟩ actions = some system) {index : ℕ}
    {tick : Tick ClockReply Exn} (there : system.sessions[index]? = some session)
    (blocked : system.next profileDriver serve (.step index tick) = none) :
    (∃ i other, i ≠ index ∧ system.sessions[i]? = some other ∧
      WaitsFor profileDriver system.committed session other) ∧
    ∀ (i : ℕ) other, system.sessions[i]? = some other →
      WaitsFor profileDriver system.committed session other → Closable system i other := by
  have serving := serving_run (fun _ member => member) ran
  exact ⟨waits_of_blocked there blocked, fun _ _ => closable_of_waits serving⟩

theorem race_waits_for_the_first :
    ∃ system session other, System.run profileDriver serve ⟨oneUser, []⟩ race = some system ∧
      system.sessions[1]? = some session ∧ system.sessions[0]? = some other ∧
      WaitsFor profileDriver system.committed session other ∧ Closable system 0 other := by
  obtain ⟨system, ran, two, blocked⟩ := race_blocks
  have bound : 1 < system.sessions.length := by omega
  have there : system.sessions[1]? = some system.sessions[1] := List.getElem?_eq_getElem bound
  obtain ⟨⟨i, other, different, found, waits⟩, closable⟩ :=
    requests_wait_for_answered_ones ran there blocked
  obtain rfl : i = 0 := by
    have bound := (List.getElem?_eq_some_iff.mp found).1
    omega
  exact ⟨system, _, other, ran, there, found, waits, closable 0 other found waits⟩

end Runs

end BackendFoundation.ProfileRequests
