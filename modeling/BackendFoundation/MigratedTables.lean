import BackendFoundation.CatalogRows
import BackendFoundation.SchemaMigrations
import BackendFoundation.UserProfiles

/-! What the tables that the migrations build ask of a row is what the INSERTs and COMMITs of
the services are checked against. -/
namespace BackendFoundation.MigratedTables
open PythonValues KeyedTables ReadCommitted AuthPersistence UserProfiles
open Catalogs MigrationChains CatalogRows SchemaMigrations

/-! ## Rows -/

/-- What a column holds. -/
inductive Value where
  | uuid (value : UUID)
  | text (value : Str)
  | time (value : DateTime)
  | bool (value : Bool)
  deriving DecidableEq

/-- A text that is too long is cut off where only blanks are lost. -/
def Value.kept : Keeps String Value
  | .uuid, .uuid value => some (.uuid value)
  | .varchar length, .text value =>
    if (value.drop length).all (· == chr ' ') then some (.text (value.take length)) else none
  | .timestamptz, .time value => some (.time value)
  | .boolean, .bool value => some (.bool value)
  | _, _ => none

def userRecord (row : UserRow) : Record String Value
  | "id" => some (.uuid row.id)
  | "email" => some (.text row.email)
  | "password_hash" => some (.text row.passwordHash)
  | "created_at" => some (.time row.createdAt)
  | "tenant_id" => row.tenantId.map .uuid
  | "disabled" => some (.bool row.disabled)
  | _ => none

def tokenRecord (row : RefreshTokenRow) : Record String Value
  | "id" => some (.uuid row.id)
  | "user_id" => some (.uuid row.userId)
  | "family_id" => some (.uuid row.familyId)
  | "hash" => some (.text row.hash)
  | "issued_at" => some (.time row.issuedAt)
  | "expires_at" => some (.time row.expiresAt)
  | "revoked_at" => row.revokedAt.map .time
  | "replaced_by" => row.replacedBy.map .uuid
  | _ => none

def profileRecord (row : UserProfile) : Record String Value
  | "id" => some (.uuid row.id)
  | "email" => some (.text row.email)
  | "created_at" => some (.time row.createdAt)
  | "updated_at" => some (.time row.updatedAt)
  | _ => none

def storedUser (row : UserRow) : Stored String Value := ⟨"users", userRecord row⟩
def storedToken (row : RefreshTokenRow) : Stored String Value := ⟨"refresh_tokens", tokenRecord row⟩
def storedProfile (row : UserProfile) : Stored String Value := ⟨"user_profiles", profileRecord row⟩

/-- The rows of the auth service's tables, and of those of the profile routes. -/
def storedRow : Row → Stored String Value
  | .user row => storedUser row
  | .refreshToken row => storedToken row

def storedProfileRow : ProfileRow → Stored String Value
  | .user row => storedUser row
  | .profile row => storedProfile row

section Rows

variable {stored : List (Stored String Value)}

/-- What exceeds the length of a `String(255)` column is blank. -/
def blankBeyond (value : Str) : Bool := (value.drop 255).all (· == chr ' ')

/-- A NULL on the left equals nothing. -/
private theorem held {left : Option Value} {value : Value} :
    (left.isSome = true → ¬ left = some value) ↔ ¬ left = some value := by
  cases left <;> simp

private theorem takes_text {record : Record String Value} {name : String} {text : Str}
    (holds : record name = some (.text text)) :
    Column.takes Value.kept record { name, type := string255, nullable := false } = blankBeyond text := by
  simp only [Column.takes, holds, Value.kept, string255, blankBeyond]
  cases (text.drop 255).all (· == chr ' ') <;> rfl

private theorem takes_optional {record : Record String Value} {name : String}
    {type : ColumnType String} {α : Type} {value : Option α} {make : α → Value}
    (holds : record name = value.map make) (kept : ∀ a, (Value.kept type (make a)).isSome = true) :
    Column.takes Value.kept record { name, type, nullable := true } = true := by
  simp only [Column.takes, holds]
  cases value with
  | none => rfl
  | some a => exact kept a

theorem takes_user (row : UserRow) : users.columns.all (Column.takes Value.kept (userRecord row)) =
    (blankBeyond row.email && blankBeyond row.passwordHash) := by
  change (true && (Column.takes Value.kept (userRecord row) ⟨"email", string255, false, none⟩ &&
    (Column.takes Value.kept (userRecord row) ⟨"password_hash", string255, false, none⟩ && (true &&
      (Column.takes Value.kept (userRecord row) ⟨"tenant_id", .uuid, true, none⟩ && true))))) = _
  rw [takes_text rfl, takes_text rfl, takes_optional rfl fun _ => rfl]
  simp

theorem takes_token (row : RefreshTokenRow) :
    refreshTokens.columns.all (Column.takes Value.kept (tokenRecord row)) = blankBeyond row.hash := by
  change (true && (true && (true && (Column.takes Value.kept (tokenRecord row)
    ⟨"hash", string255, false, none⟩ && (true && (true && (Column.takes Value.kept (tokenRecord row)
      ⟨"revoked_at", .timestamptz, true, none⟩ && (Column.takes Value.kept (tokenRecord row)
        ⟨"replaced_by", .uuid, true, none⟩ && true)))))))) = _
  rw [takes_text rfl, takes_optional rfl fun _ => rfl, takes_optional rfl fun _ => rfl]
  simp

theorem takes_profile (row : UserProfile) :
    userProfiles.columns.all (Column.takes Value.kept (profileRecord row)) = blankBeyond row.email := by
  change (true && (Column.takes Value.kept (profileRecord row) ⟨"email", string255, false, none⟩ &&
    (true && true))) = _
  rw [takes_text rfl]
  simp

private theorem find_users : head.tables.find? (·.name = "users") = some users := rfl

private theorem find_tokens : head.tables.find? (·.name = "refresh_tokens") = some refreshTokens := rfl

private theorem find_profiles : head.tables.find? (·.name = "user_profiles") = some userProfiles := rfl

theorem accepts_user {row : UserRow} : Catalog.accepts Value.kept head stored (storedUser row) = true ↔
    (blankBeyond row.email = true ∧ blankBeyond row.passwordHash = true) ∧
      ∀ old ∈ stored, old.table = "users" → old.record "id" ≠ some (.uuid row.id) ∧
        old.record "email" ≠ some (.text (stored255 row.email)) := by
  have id : TableDef.kept Value.kept users (userRecord row) "id" = some (.uuid row.id) := rfl
  have email : TableDef.kept Value.kept users (userRecord row) "email" =
      if blankBeyond row.email then some (.text (stored255 row.email)) else none := rfl
  refine (accepts_iff find_users).trans ?_
  rw [takes_user, Bool.and_eq_true_iff]
  refine and_congr_right fun ⟨wide, _⟩ => ?_
  rw [if_pos wide] at email
  generalize TableDef.kept Value.kept users (userRecord row) = kept at id email ⊢
  simp [head, users, usersIndexes, refreshTokensIndexes, userProfilesEmail, TableDef.sameKey,
    Index.clash, Index.covers, id, email, held, imp_and, forall_and]

theorem accepts_token {row : RefreshTokenRow} :
    Catalog.accepts Value.kept head stored (storedToken row) = true ↔ blankBeyond row.hash = true ∧
      (∀ old ∈ stored, old.table = "refresh_tokens" → old.record "id" ≠ some (.uuid row.id) ∧
        old.record "hash" ≠ some (.text (stored255 row.hash)) ∧
        ¬ (old.record "family_id" = some (.uuid row.familyId) ∧ old.record "replaced_by" = none ∧
          row.replacedBy = none)) ∧
      ∃ old ∈ stored, old.table = "users" ∧ old.record "id" = some (.uuid row.userId) := by
  have id : TableDef.kept Value.kept refreshTokens (tokenRecord row) "id" = some (.uuid row.id) := rfl
  have user : TableDef.kept Value.kept refreshTokens (tokenRecord row) "user_id" =
      some (.uuid row.userId) := rfl
  have family : TableDef.kept Value.kept refreshTokens (tokenRecord row) "family_id" =
      some (.uuid row.familyId) := rfl
  have hash : TableDef.kept Value.kept refreshTokens (tokenRecord row) "hash" =
      if blankBeyond row.hash then some (.text (stored255 row.hash)) else none := rfl
  have replaced : TableDef.kept Value.kept refreshTokens (tokenRecord row) "replaced_by" =
      row.replacedBy.map .uuid := by
    change (row.replacedBy.map Value.uuid).bind _ = _
    cases row.replacedBy <;> rfl
  refine (accepts_iff find_tokens).trans ?_
  rw [takes_token]
  refine and_congr_right fun wide => ?_
  rw [if_pos wide] at hash
  generalize TableDef.kept Value.kept refreshTokens (tokenRecord row) = kept
    at id user family hash replaced ⊢
  -- Only a token without a successor can clash with another of its family.
  cases current : row.replacedBy
  all_goals
    simp [head, refreshTokens, usersIndexes, refreshTokensIndexes, userProfilesEmail,
      TableDef.sameKey, Index.clash, Index.covers, ForeignKey.met, id, user, family, hash, replaced,
      current, held, imp_and, forall_and, and_assoc]
  grind

theorem accepts_profile {row : UserProfile} :
    Catalog.accepts Value.kept head stored (storedProfile row) = true ↔
      blankBeyond row.email = true ∧
      (∀ old ∈ stored, old.table = "user_profiles" → old.record "id" ≠ some (.uuid row.id) ∧
        old.record "email" ≠ some (.text (stored255 row.email))) ∧
      ∃ old ∈ stored, old.table = "users" ∧ old.record "id" = some (.uuid row.id) := by
  have id : TableDef.kept Value.kept userProfiles (profileRecord row) "id" = some (.uuid row.id) := rfl
  have email : TableDef.kept Value.kept userProfiles (profileRecord row) "email" =
      if blankBeyond row.email then some (.text (stored255 row.email)) else none := rfl
  refine (accepts_iff find_profiles).trans ?_
  rw [takes_profile]
  refine and_congr_right fun wide => ?_
  rw [if_pos wide] at email
  generalize TableDef.kept Value.kept userProfiles (profileRecord row) = kept at id email ⊢
  simp [head, userProfiles, usersIndexes, refreshTokensIndexes, userProfilesEmail,
    TableDef.sameKey, Index.clash, Index.covers, ForeignKey.met, id, email, held, imp_and, forall_and,
    and_assoc]

theorem settles_user {row : UserRow} : Catalog.settles head stored (storedUser row) = true := by
  simp [Catalog.settles, head, users, storedUser]

theorem settles_profile {row : UserProfile} :
    Catalog.settles head stored (storedProfile row) = true := by
  simp [Catalog.settles, head, users, refreshTokens, userProfiles, storedProfile]

theorem settles_token {row : RefreshTokenRow} :
    Catalog.settles head stored (storedToken row) = true ↔ ∀ id, row.replacedBy = some id →
      ∃ old ∈ stored, old.table = "refresh_tokens" ∧ old.record "id" = some (.uuid id) := by
  obtain ⟨id, userId, familyId, hash, issuedAt, expiresAt, revokedAt, replacedBy⟩ := row
  cases replacedBy
  all_goals
    simp [Catalog.settles, head, users, refreshTokens, storedToken, tokenRecord, ForeignKey.met]

end Rows

/-! ## The models of the services -/

/-- The rows of a table that the database has besides those of a model are none. -/
def Elsewhere (tables : List String) (others : List (Stored String Value)) : Prop :=
  ∀ row ∈ others, row.table ∉ tables

/-- The INSERTs and the COMMIT of the services' models are checked as the catalog asks, whatever
rows the tables have that the models leave out. -/
structure Enforces (catalog : Catalog String) : Prop where
  insertUser : ∀ (committed pending : Database) (others : List (Stored String Value)) (row : UserRow),
    Elsewhere ["users", "refresh_tokens"] others →
    ((∃ answer, (Statement.insertUser row).sql.run committed pending = .ok answer) ↔
      (textParam row.email = true ∧ textParam row.passwordHash = true) ∧
        Catalog.accepts Value.kept catalog
          ((Table.overlay committed pending).rows.map storedRow ++ others) (storedUser row) = true)
  insertRefreshToken : ∀ (committed pending : Database) (others : List (Stored String Value))
    (row : RefreshTokenRow), Elsewhere ["users", "refresh_tokens"] others →
    ((∃ answer, (Statement.insertRefreshToken row).sql.run committed pending = .ok answer) ↔
      textParam row.hash = true ∧ Catalog.accepts Value.kept catalog
        ((Table.overlay committed pending).rows.map storedRow ++ others) (storedToken row) = true)
  commit : ∀ (committed pending : Database) (others : List (Stored String Value)),
    Elsewhere ["users", "refresh_tokens"] others →
    (settled committed pending = true ↔ ∀ row ∈ pending, Catalog.settles catalog
      ((Table.overlay committed pending).rows.map storedRow ++ others) (storedRow row) = true)
  createUserProfile : ∀ (committed pending : ProfileDatabase) (others : List (Stored String Value))
    (row : UserProfile), Elsewhere ["users", "user_profiles"] others →
    ((∃ answer, (ProfileStatement.createUserProfile row).sql.run committed pending = .ok answer) ↔
      textParam row.email = true ∧ Catalog.accepts Value.kept catalog
        ((Table.overlay committed pending).rows.map storedProfileRow ++ others)
        (storedProfile row) = true)
  commitProfiles : ∀ (committed pending : ProfileDatabase) (others : List (Stored String Value)),
    (settled committed pending = true ↔ ∀ row ∈ pending, Catalog.settles catalog
      ((Table.overlay committed pending).rows.map storedProfileRow ++ others)
      (storedProfileRow row) = true)

theorem admits_iff {ρ κ : Type} [DecidableEq κ] {S : Schema ρ κ} {view : Table S} {row : ρ} :
    admits view row = true ↔ (∀ old ∈ view, S.key old ≠ S.key row ∧ S.clash old row = false) ∧
      ∀ key ∈ S.refs row, ∃ old ∈ view, S.key old = key := by
  simp [admits, Table.mem_rows, Option.isSome_iff_exists, Table.lookup_eq_some]

/-- An INSERT whose parameters fit is executed where the row is admitted. -/
theorem insert_run_iff {ρ κ : Type} [DecidableEq κ] {S : Schema ρ κ} {committed pending : Table S}
    {row : ρ} {fits : Bool} {sql : Sql S} (shape : sql = if fits then .insert row else .refused .data) :
    (∃ answer, sql.run committed pending = .ok answer) ↔
      fits = true ∧ admits (Table.overlay committed pending) row = true := by
  subst shape
  cases fits with
  | false => simp [Sql.run]
  | true => by_cases room : admits (Table.overlay committed pending) row = true <;> simp [Sql.run, room]

section Models

variable {ρ α : Type} {rows : List ρ} {others : List (Stored String Value)} {table : String}
  {store : ρ → Stored String Value} {pick : α → ρ} {P : Stored String Value → Prop}

/-- The rows of one table of a model are those of one kind. -/
def Kind (store : ρ → Stored String Value) (pick : α → ρ) (table : String) : Prop :=
  ∀ row, (store row).table = table ↔ ∃ a, pick a = row

theorem stored_iff (kind : Kind store pick table) (elsewhere : ∀ row ∈ others, row.table ≠ table)
    {old : Stored String Value} : old ∈ rows.map store ++ others ∧ old.table = table ↔
      ∃ a, pick a ∈ rows ∧ store (pick a) = old := by
  constructor
  · rintro ⟨member, here⟩
    rcases List.mem_append.mp member with own | other
    · obtain ⟨row, held, rfl⟩ := List.mem_map.mp own
      obtain ⟨a, rfl⟩ := (kind row).mp here
      exact ⟨a, held, rfl⟩
    · exact absurd here (elsewhere old other)
  · rintro ⟨a, held, rfl⟩
    exact ⟨List.mem_append.mpr (.inl (List.mem_map.mpr ⟨_, held, rfl⟩)), (kind _).mpr ⟨a, rfl⟩⟩

theorem forall_stored (kind : Kind store pick table) (elsewhere : ∀ row ∈ others, row.table ≠ table) :
    (∀ old ∈ rows.map store ++ others, old.table = table → P old) ↔
      ∀ a, pick a ∈ rows → P (store (pick a)) := by
  constructor
  · intro every a held
    obtain ⟨member, here⟩ := (stored_iff kind elsewhere).mpr ⟨a, held, rfl⟩
    exact every _ member here
  · intro every old member here
    obtain ⟨a, held, rfl⟩ := (stored_iff kind elsewhere).mp ⟨member, here⟩
    exact every a held

theorem exists_stored (kind : Kind store pick table) (elsewhere : ∀ row ∈ others, row.table ≠ table) :
    (∃ old ∈ rows.map store ++ others, old.table = table ∧ P old) ↔
      ∃ a, pick a ∈ rows ∧ P (store (pick a)) := by
  constructor
  · rintro ⟨old, member, here, holds⟩
    obtain ⟨a, held, rfl⟩ := (stored_iff kind elsewhere).mp ⟨member, here⟩
    exact ⟨a, held, holds⟩
  · rintro ⟨a, held, holds⟩
    obtain ⟨member, here⟩ := (stored_iff kind elsewhere).mpr ⟨a, held, rfl⟩
    exact ⟨_, member, here, holds⟩

theorem kind_user : Kind storedRow Row.user "users" := by
  rintro (user | token) <;> simp [storedRow, storedUser, storedToken]

theorem kind_token : Kind storedRow Row.refreshToken "refresh_tokens" := by
  rintro (user | token) <;> simp [storedRow, storedUser, storedToken]

theorem kind_account : Kind storedProfileRow ProfileRow.user "users" := by
  rintro (user | profile) <;> simp [storedProfileRow, storedUser, storedProfile]

theorem kind_profile : Kind storedProfileRow ProfileRow.profile "user_profiles" := by
  rintro (user | profile) <;> simp [storedProfileRow, storedUser, storedProfile]

theorem Elsewhere.apart {tables : List String} (elsewhere : Elsewhere tables others) (table : String)
    (among : table ∈ tables) : ∀ row ∈ others, row.table ≠ table :=
  fun row member same => elsewhere row member (same ▸ among)

end Models

theorem varchar255_iff {s : Str} :
    varchar255 s = true ↔ textParam s = true ∧ blankBeyond s = true := Bool.and_eq_true_iff

theorem admits_user_iff {view : Database} {row : UserRow} : admits view (.user row) = true ↔
    ∀ old, Row.user old ∈ view.rows → (userRecord old) "id" ≠ some (.uuid row.id) ∧
      (userRecord old) "email" ≠ some (.text row.email) := by
  rw [admits_iff]
  constructor
  · rintro ⟨free, _⟩ old held
    have apart := free _ held
    change some (Value.uuid old.id) ≠ _ ∧ some (Value.text old.email) ≠ _
    simpa [schema, Row.key, Row.clash] using apart
  · intro free
    refine ⟨fun old held => ?_, fun key never => absurd never List.not_mem_nil⟩
    cases old with
    | refreshToken _ => exact ⟨fun same => (by cases same), rfl⟩
    | user old =>
      have apart : some (Value.uuid old.id) ≠ _ ∧ some (Value.text old.email) ≠ _ := free old held
      simpa [schema, Row.key, Row.clash] using apart

theorem admits_token_iff {view : Database} {row : RefreshTokenRow} :
    admits view (.refreshToken row) = true ↔
      (∀ old, Row.refreshToken old ∈ view.rows → (tokenRecord old) "id" ≠ some (.uuid row.id) ∧
        (tokenRecord old) "hash" ≠ some (.text row.hash) ∧
        ¬ ((tokenRecord old) "family_id" = some (.uuid row.familyId) ∧
          (tokenRecord old) "replaced_by" = none ∧ row.replacedBy = none)) ∧
      ∃ user, Row.user user ∈ view.rows ∧ (userRecord user) "id" = some (.uuid row.userId) := by
  rw [admits_iff]
  refine and_congr ⟨fun free old held => ?_, fun free old held => ?_⟩ ?_
  · have apart := free _ held
    change some (Value.uuid old.id) ≠ _ ∧ some (Value.text old.hash) ≠ _ ∧
      ¬ (some (Value.uuid old.familyId) = _ ∧ old.replacedBy.map Value.uuid = none ∧ _)
    simpa [schema, Row.key, Row.clash, Option.isSome_iff_ne_none] using apart
  · cases old with
    | user _ => exact ⟨fun same => (by cases same), rfl⟩
    | refreshToken old =>
      have apart : some (Value.uuid old.id) ≠ _ ∧ some (Value.text old.hash) ≠ _ ∧
          ¬ (some (Value.uuid old.familyId) = _ ∧ old.replacedBy.map Value.uuid = none ∧ _) :=
        free old held
      simpa [schema, Row.key, Row.clash, Option.isSome_iff_ne_none] using apart
  · constructor
    · intro found
      obtain ⟨user | token, held, same⟩ := found (.user row.userId) List.mem_cons_self
      · exact ⟨user, held, congrArg (some ∘ Value.uuid) (Key.user.inj same)⟩
      · cases same
    · rintro ⟨user, held, same⟩ key names
      rw [List.mem_singleton.mp names]
      exact ⟨.user user, held, congrArg Key.user (Value.uuid.inj (Option.some.inj same))⟩

theorem admits_profile_iff {view : ProfileDatabase} {row : UserProfile} :
    admits view (.profile row) = true ↔
      (∀ old, ProfileRow.profile old ∈ view.rows → (profileRecord old) "id" ≠ some (.uuid row.id) ∧
        (profileRecord old) "email" ≠ some (.text row.email)) ∧
      ∃ user, ProfileRow.user user ∈ view.rows ∧ (userRecord user) "id" = some (.uuid row.id) := by
  rw [admits_iff]
  refine and_congr ⟨fun free old held => ?_, fun free old held => ?_⟩ ?_
  · have apart := free _ held
    change some (Value.uuid old.id) ≠ _ ∧ some (Value.text old.email) ≠ _
    simpa [profileSchema, ProfileRow.key, ProfileRow.clash] using apart
  · cases old with
    | user _ => exact ⟨fun same => (by cases same), rfl⟩
    | profile old =>
      have apart : some (Value.uuid old.id) ≠ _ ∧ some (Value.text old.email) ≠ _ := free old held
      simpa [profileSchema, ProfileRow.key, ProfileRow.clash] using apart
  · constructor
    · intro found
      obtain ⟨user | profile, held, same⟩ := found (.user row.id) List.mem_cons_self
      · exact ⟨user, held, congrArg (some ∘ Value.uuid) (ProfileKey.user.inj same)⟩
      · cases same
    · rintro ⟨user, held, same⟩ key names
      rw [List.mem_singleton.mp names]
      exact ⟨.user user, held, congrArg ProfileKey.user (Value.uuid.inj (Option.some.inj same))⟩

/-- **The schema.** What the migrations build checks what the models check. -/
theorem enforces_head : Enforces head where
  insertUser := by
    intro committed pending others row elsewhere
    have apart := elsewhere.apart "users" (by simp)
    refine (insert_run_iff rfl).trans ?_
    rw [admits_user_iff, accepts_user, forall_stored kind_user apart, Bool.and_eq_true_iff,
      varchar255_iff, varchar255_iff]
    exact ⟨fun ⟨⟨⟨email, short⟩, hash, brief⟩, free⟩ => ⟨⟨email, hash⟩, ⟨short, brief⟩, free⟩,
      fun ⟨⟨email, hash⟩, ⟨short, brief⟩, free⟩ => ⟨⟨⟨email, short⟩, hash, brief⟩, free⟩⟩
  insertRefreshToken := by
    intro committed pending others row elsewhere
    have users := elsewhere.apart "users" (by simp)
    have tokens := elsewhere.apart "refresh_tokens" (by simp)
    refine (insert_run_iff rfl).trans ?_
    rw [admits_token_iff, accepts_token, forall_stored kind_token tokens,
      exists_stored kind_user users, varchar255_iff, and_assoc]
    rfl
  commit := by
    intro committed pending others elsewhere
    have tokens := elsewhere.apart "refresh_tokens" (by simp)
    simp only [settled, List.all_eq_true]
    refine forall₂_congr fun row _ => ?_
    cases row with
    | user row => exact iff_of_true (fun _ never => absurd never List.not_mem_nil) settles_user
    | refreshToken row =>
      rw [storedRow, settles_token]
      simp only [exists_stored kind_token tokens]
      constructor
      · intro found id names
        have key : Key.refreshToken id ∈ schema.deferredRefs (.refreshToken row) := by
          simp [schema, names]
        obtain ⟨other, held⟩ := Option.isSome_iff_exists.mp (found _ key)
        obtain ⟨member, same⟩ := Table.lookup_eq_some.mp held
        cases other with
        | user _ => cases same
        | refreshToken other => exact ⟨other, member, congrArg (some ∘ Value.uuid) (Key.refreshToken.inj same)⟩
      · intro found key names
        obtain ⟨id, link, rfl⟩ := List.mem_map.mp names
        obtain ⟨other, member, same⟩ := found id (Option.mem_toList.mp link)
        refine Option.isSome_iff_exists.mpr ⟨.refreshToken other, Table.lookup_eq_some.mpr ⟨member, ?_⟩⟩
        exact congrArg Key.refreshToken (Value.uuid.inj (Option.some.inj same))
  createUserProfile := by
    intro committed pending others row elsewhere
    have users := elsewhere.apart "users" (by simp)
    have profiles := elsewhere.apart "user_profiles" (by simp)
    refine (insert_run_iff rfl).trans ?_
    rw [admits_profile_iff, accepts_profile, forall_stored kind_profile profiles,
      exists_stored kind_account users, varchar255_iff, and_assoc]
    rfl
  commitProfiles := by
    intro committed pending others
    simp only [settled, List.all_eq_true]
    refine forall₂_congr fun row _ => iff_of_true (fun _ never => absurd never List.not_mem_nil) ?_
    cases row with
    | user row => exact settles_user
    | profile row => exact settles_profile

section Runs

variable {base catalog : Catalog String} {actions : List (Action String)} {state : Deployment String}

theorem enforces_of_contains (contains : Contains names head catalog) : Enforces catalog := by
  have accepts : ∀ {stored : List (Stored String Value)} {new : Stored String Value},
      new.table ∈ names.relations →
        Catalog.accepts Value.kept catalog stored new = Catalog.accepts Value.kept head stored new :=
    fun ours => accepts_own contains ours
  have settles : ∀ {stored : List (Stored String Value)} {row : Stored String Value},
      row.table ∈ names.relations →
        Catalog.settles catalog stored row = Catalog.settles head stored row :=
    fun ours => settles_own contains ours
  have users : "users" ∈ names.relations := by decide
  have tokens : "refresh_tokens" ∈ names.relations := by decide
  have profiles : "user_profiles" ∈ names.relations := by decide
  refine ⟨?_, ?_, ?_, ?_, ?_⟩
  · intro committed pending others row elsewhere
    rw [accepts users]
    exact enforces_head.insertUser committed pending others row elsewhere
  · intro committed pending others row elsewhere
    rw [accepts tokens]
    exact enforces_head.insertRefreshToken committed pending others row elsewhere
  · intro committed pending others elsewhere
    refine (enforces_head.commit committed pending others elsewhere).trans (forall₂_congr ?_)
    rintro (user | token) _
    · rw [settles users]
    · rw [settles tokens]
  · intro committed pending others row elsewhere
    rw [accepts profiles]
    exact enforces_head.createUserProfile committed pending others row elsewhere
  · intro committed pending others
    refine (enforces_head.commitProfiles committed pending others).trans (forall₂_congr ?_)
    rintro (user | profile) _
    · rw [settles users]
    · rw [settles profiles]

/-- **The deployed schema.** Wherever commands and others have brought a database that has
recorded `0003`, it takes the rows and the commits that the models of the services take. -/
theorem migrated_database_enforces_the_schema (reached : Reached base actions state)
    (version : state.version = some "0003") : Enforces state.catalog := by
  have stands : Stands chain versions state := reached.stands_at (version ▸ rfl)
  obtain ⟨own, build, contains⟩ := stands.contains
  cases built_versions.symm.trans build
  exact enforces_of_contains contains

theorem sample_enforces : Enforces sampleState.catalog :=
  migrated_database_enforces_the_schema sample_reached rfl

end Runs

end BackendFoundation.MigratedTables
