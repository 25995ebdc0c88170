import BackendFoundation.AuthSpecs
import BackendFoundation.AuthAtomicity

/-! What a registration that raises leaves in the `users` table. Everything that
may raise stands before the COMMIT, except the construction of the answer: it
refuses an email that the request model admits. -/
namespace BackendFoundation.AuthRegistration
open PythonValues KeyedTables RequestPrograms ReadCommitted TransactionLogic AuthPersistence
open AuthPrograms AuthSpecs AuthAtomicity

/-- What FastAPI admits as a request: any email, and a password that is not short. -/
structure RegisterRequest where
  email : Str
  password : Str
  min_length : 8 ≤ password.length

/-- The rows of the `users` table. -/
def users (db : Database) : List UserRow := db.rows.filterMap Row.user?

theorem mem_users {db : Database} {user : UserRow} : user ∈ users db ↔ Row.user user ∈ db := by
  constructor
  · intro member
    obtain ⟨row, here, same⟩ := List.mem_filterMap.mp member
    cases row with
    | refreshToken row => cases same
    | user row =>
      cases same
      exact here
  · exact fun here => List.mem_filterMap.mpr ⟨_, here, rfl⟩

/-- The registration run alone: what it returned or raised, and the tables then. -/
def registered (ticks : ℕ → World) (before : Database) (request : RegisterRequest) :
    Except Exn AuthenticatedUser × Database :=
  exec driver ticks 0 before (Table.empty schema)
    (AuthService.register request.email request.password)

/-- Whatever raises, the `users` table is as it was. -/
def FailureLeavesNoAccount (before : Database) (request : RegisterRequest) : Prop :=
  ∀ ticks error, (registered ticks before request).1 = .error error →
    users (registered ticks before request).2 = users before

section Kept

variable {before : Database} {request : RegisterRequest} {ticks : ℕ → World}

/-- A name makes the answer constructible, and a taken one ends the request
before its INSERT. -/
private theorem kept_if (harmless : request.email ≠ [] ∨ (∃ user ∈ users before, user.email = []) ∨
      ∀ id, ∃ user ∈ users before, user.id = id) :
    Ensures driver ticks
      (fun result _ after _ => ∀ error, result = .error error → users after = users before)
      0 before (Table.empty schema) (AuthService.register request.email request.password) := by
  rw [AuthService.register]
  refine ensures_getUserByEmail (fun _ _ _ _ _ => rfl) fun found _ _ unknown => ?_
  refine ensures_raiseIf (fun _ _ _ => rfl) fun free => ?_
  have absent := unknown (by simpa using free)
  rw [Table.overlay_empty] at absent
  refine ensures_port (fun _ other => by cases other) (fun _ _ _ _ => rfl) fun id _ => ?_
  refine ensures_port (fun _ other => by cases other) (fun _ _ _ _ => rfl) fun hash _ => ?_
  refine ensures_port (fun _ other => by cases other) (fun _ _ _ _ => rfl) fun now _ => ?_
  refine ensures_insertUser (fun _ _ _ _ => rfl) fun _ _ room => ?_
  refine ensures_commit (fun _ _ _ _ => rfl) fun _ _ => ?_
  have named : request.email ≠ [] := by
    rcases harmless with named | ⟨user, held, nameless⟩ | taken
    · exact named
    · intro empty
      exact absent user (mem_users.mp held) (nameless.trans empty.symm)
    · obtain ⟨user, held, same⟩ := taken id
      have apart := admitted_key room (mem_users.mp held)
      exact absurd (congrArg Key.user same) apart
  simp only [AuthenticatedUser.new, dif_pos named]
  exact fun _ never => by cases never

/-- Ports that answer, with this id as the new one. -/
def answering (id : UUID) : World where
  answer
    | .verify _ => .ok []
    | .sign _ => .ok []
    | .hash _ => .ok []
    | .checkHash _ _ => .ok true
    | .uuid4 => .ok id
    | .now => .ok 0

private theorem answering_sound {id : UUID} {error : Exn} : ¬ Unsound (answering id) error := by
  rintro (fault | ⟨question, _, answer⟩)
  · cases fault
  · cases question <;> cases answer

/-- An account without an email is committed, and then the request raises. -/
private theorem lost_if (nameless : request.email = [])
    (unknown : ∀ user ∈ users before, user.email ≠ []) {id : UUID}
    (free : ∀ user ∈ users before, user.id ≠ id) :
    Ensures driver (fun _ => answering id)
      (fun result _ after _ => result = .error .valueError ∧
        ∃ user ∈ users after, user.email = [])
      0 before (Table.empty schema) (AuthService.register request.email request.password) := by
  have apart : ∀ user, Row.user user ∈ before → user.id ≠ id ∧ user.email ≠ [] := fun user held =>
    ⟨free user (mem_users.mpr held), unknown user (mem_users.mpr held)⟩
  have none_ : usersByEmail before [] = [] := List.eq_nil_iff_forall_not_mem.mpr fun user member =>
    (apart user (mem_usersByEmail.mp member).1).2 (mem_usersByEmail.mp member).2
  rw [AuthService.register, nameless, getUserByEmail, Program.bind_assoc]
  refine ensures_stmt (fun error cause => ?_) fun rows written _ ran => ?_
  · rcases cause with fault | ⟨_, refused, _⟩
    · cases fault
    · cases refused
  have answer : rows = before.rows.filter (fun row => (row.user?.map (·.email == [])).getD false) ∧
      written = Table.empty schema := by
    have ran : (Sql.run before (Table.empty schema) (Statement.sql (.getUserByEmail []))) =
      .ok (rows, written) := ran
    simpa [Statement.sql, textParam, encodable, Sql.run, eq_comm] using ran
  obtain ⟨rfl, rfl⟩ := answer
  rw [show (before.rows.filter _).filterMap Row.user? = [] from none_]
  have room : admits before (.user (UserRow.stored { id, email := [], passwordHash := []
                                                     createdAt := 0, tenantId := none
                                                     disabled := false })) = true :=
    admits_user fun old held => ⟨(apart old held).1, (apart old held).2⟩
  refine ensures_raiseIf (fun taken => by cases taken) fun _ => ?_
  refine ensures_port (fun _ other => by cases other) (fun _ unsound => ?_) fun fresh same => ?_
  · exact absurd unsound answering_sound
  refine ensures_port (fun _ other => by cases other) (fun _ unsound => ?_) fun hash hashed => ?_
  · exact absurd unsound answering_sound
  refine ensures_port (fun _ other => by cases other) (fun _ unsound => ?_) fun now clock => ?_
  · exact absurd unsound answering_sound
  cases same
  cases hashed
  cases clock
  refine ensures_insertUser (fun _ cause => ?_) fun _ _ _ => ?_
  · rcases cause with fault | ⟨_, unfit | crowded⟩
    · cases fault
    · cases unfit
    · rw [Table.overlay_empty, room] at crowded
      cases crowded
  refine ensures_commit (fun _ cause => ?_) fun _ _ => ?_
  · rcases cause with fault | ⟨unsettled, _⟩
    · cases fault
    · simp [settled, Table.put, schema] at unsettled
  refine ⟨rfl, _, mem_users.mpr (Table.mem_overlay.mpr (.inl (Table.mem_put.mpr (.inl rfl)))), rfl⟩

end Kept

/-- **When a failed registration leaves no account.** Exactly when the email is
not empty, an account without an email exists already, or no id is left: an
account without an email is committed before its request fails. -/
theorem failed_registration_leaves_no_account_iff (before : Database) (request : RegisterRequest) :
    FailureLeavesNoAccount before request ↔
      request.email ≠ [] ∨ (∃ user ∈ users before, user.email = []) ∨
        ∀ id, ∃ user ∈ users before, user.id = id := by
  constructor
  · intro kept
    by_contra harmful
    push Not at harmful
    obtain ⟨nameless, unknown, id, free⟩ := harmful
    obtain ⟨raised, user, held, empty⟩ : (registered (fun _ => answering id) before request).1 =
          .error .valueError ∧
        ∃ user ∈ users (registered (fun _ => answering id) before request).2, user.email = [] :=
      ensures_exec (lost_if nameless unknown free)
    rw [kept _ _ raised] at held
    exact unknown user held empty
  · intro harmless ticks
    have kept : ∀ error, (registered ticks before request).1 = .error error →
        users (registered ticks before request).2 = users before := ensures_exec (kept_if harmless)
    exact kept

/-- An empty email and a good password, where nobody is registered yet. -/
def namelessRequest : RegisterRequest := ⟨[], str "password", by decide⟩

/-- The request ends with `ValueError` and leaves its account. -/
theorem failed_registration_leaves_an_account :
    ¬ ∀ before request, FailureLeavesNoAccount before request := by
  intro kept
  obtain ⟨raised, user, held, _⟩ :
      (registered (fun _ => answering ⟨1⟩) (Table.empty schema) namelessRequest).1 =
          .error .valueError ∧
        ∃ user ∈ users (registered (fun _ => answering ⟨1⟩) (Table.empty schema) namelessRequest).2,
          user.email = [] :=
    ensures_exec (lost_if rfl (fun _ never => absurd never List.not_mem_nil)
      fun _ never => absurd never List.not_mem_nil)
  rw [kept _ _ _ _ raised] at held
  exact List.not_mem_nil held

end BackendFoundation.AuthRegistration
