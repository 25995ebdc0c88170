import BackendFoundation.MigrationChains

/-! `alembic/`: the three migrations, of which `env.py` runs those of a command in one
transaction, in a database where others keep tables, views and extensions too. -/
namespace BackendFoundation.SchemaMigrations
open Catalogs Catalog MigrationChains

/-! ## The migrations -/

/-- `sa.String(length=255)`. -/
def string255 : ColumnType String := .varchar 255

/-- `0001_base`. -/
def init : Migration String where
  revision := "0001"
  downRevision := none
  upgrade := [.createExtension { name := "vector" }]
  downgrade := [.dropExtension "vector"]

def users : TableDef String where
  name := "users"
  columns := [
    { name := "id", type := .uuid, nullable := false },
    { name := "email", type := string255, nullable := false },
    { name := "password_hash", type := string255, nullable := false },
    { name := "created_at", type := .timestamptz, nullable := false },
    { name := "tenant_id", type := .uuid, nullable := true },
    { name := "disabled", type := .boolean, nullable := false }]
  primaryKey := ["id"]
  foreignKeys := []

def refreshTokens : TableDef String where
  name := "refresh_tokens"
  columns := [
    { name := "id", type := .uuid, nullable := false },
    { name := "user_id", type := .uuid, nullable := false },
    { name := "family_id", type := .uuid, nullable := false },
    { name := "hash", type := string255, nullable := false },
    { name := "issued_at", type := .timestamptz, nullable := false },
    { name := "expires_at", type := .timestamptz, nullable := false },
    { name := "revoked_at", type := .timestamptz, nullable := true },
    { name := "replaced_by", type := .uuid, nullable := true }]
  primaryKey := ["id"]
  foreignKeys := [
    { column := "replaced_by", table := "refresh_tokens", target := "id", onDelete := .setNull,
      initiallyDeferred := true },
    { column := "user_id", table := "users", target := "id", onDelete := .cascade }]

def usersIndexes : List (Index String) := [
  { name := "ix_users_email", table := "users", columns := ["email"], unique := true },
  { name := "ix_users_tenant_id", table := "users", columns := ["tenant_id"], unique := false }]

/-- The last one allows one active token a family. -/
def refreshTokensIndexes : List (Index String) := [
  { name := "ix_refresh_tokens_family_id", table := "refresh_tokens", columns := ["family_id"],
    unique := false },
  { name := "ix_refresh_tokens_hash", table := "refresh_tokens", columns := ["hash"], unique := true },
  { name := "ix_refresh_tokens_user_id", table := "refresh_tokens", columns := ["user_id"],
    unique := false },
  { name := "ix_refresh_tokens_family_active", table := "refresh_tokens", columns := ["family_id"],
    unique := true, whereNull := some "replaced_by" }]

/-- `0002_auth`. -/
def auth : Migration String where
  revision := "0002"
  downRevision := some "0001"
  upgrade := [.createTable users] ++ usersIndexes.map .createIndex ++
    [.createTable refreshTokens] ++ refreshTokensIndexes.map .createIndex
  downgrade := [
    .dropIndex "ix_refresh_tokens_family_active",
    .dropIndex "ix_refresh_tokens_user_id",
    .dropIndex "ix_refresh_tokens_hash",
    .dropIndex "ix_refresh_tokens_family_id",
    .dropTable "refresh_tokens",
    .dropIndex "ix_users_tenant_id",
    .dropIndex "ix_users_email",
    .dropTable "users"]

def userProfiles : TableDef String where
  name := "user_profiles"
  columns := [
    { name := "id", type := .uuid, nullable := false },
    { name := "email", type := string255, nullable := false },
    { name := "created_at", type := .timestamptz, nullable := false, serverDefault := some .now },
    { name := "updated_at", type := .timestamptz, nullable := false, serverDefault := some .now }]
  primaryKey := ["id"]
  foreignKeys := [
    { column := "id", table := "users", target := "id", onDelete := .cascade,
      name := some "fk_user_profiles_id_users" }]

def userProfilesEmail : Index String :=
  { name := "ix_user_profiles_email", table := "user_profiles", columns := ["email"], unique := true }

/-- `0003_users`. -/
def profiles : Migration String where
  revision := "0003"
  downRevision := some "0002"
  upgrade := [.createTable userProfiles, .createIndex userProfilesEmail]
  downgrade := [.dropIndex "ix_user_profiles_email", .dropTable "user_profiles"]

def versions : List (Migration String) := [init, auth, profiles]

/-- What Alembic keeps its record in. -/
def alembicVersion : TableDef String where
  name := "alembic_version"
  columns := [{ name := "version_num", type := .varchar 32, nullable := false }]
  primaryKey := ["version_num"]

def scripts : Scripts String := ⟨alembicVersion, versions⟩

/-- The names that Alembic takes: its primary key is named as well. -/
def alembic : Names String := ⟨["alembic_version", "alembic_version_pkc"], []⟩

/-- The names that the migrations take. -/
def names : Names String where
  relations := ["users", "refresh_tokens", "user_profiles"] ++ usersIndexes.map (·.name) ++
    refreshTokensIndexes.map (·.name) ++ [userProfilesEmail.name]
  extensions := ["vector"]

/-- The migrations are reversible, and touch nothing but these names. -/
def chain : Chain names alembic where
  toScripts := scripts
  ledgered := by decide
  makes := rfl
  apart := ⟨by decide, by decide⟩
  distinct := by decide
  creates := by decide
  drops := by decide
  chained := ⟨rfl, _, rfl, rfl, rfl, _, rfl, rfl, rfl, _, rfl, rfl, trivial⟩

/-- What the migrations build. -/
def head : Catalog String where
  tables := [users, refreshTokens, userProfiles]
  indexes := usersIndexes ++ refreshTokensIndexes ++ [userProfilesEmail]
  extensions := [{ name := "vector" }]

theorem built_versions : built versions = some head := rfl

/-! ## Runs -/

section Runs

variable {base : Catalog String} {actions : List (Action String)} {state later : Deployment String}
  {kept added : List (Migration String)} {target : Option String}

/-- The commands, the failures and the statements of others after which the database is this,
where it began with nothing under the names of the migrations or of Alembic. -/
structure Reached (base : Catalog String) (actions : List (Action String)) (state : Deployment String) :
    Prop where
  free : Contains names Catalog.empty base
  unused : Contains alembic Catalog.empty base
  closed : base.Closed
  respect : ∀ action ∈ actions, action.Respects names alembic
  reached : (⟨none, base⟩ : Deployment String).runAll scripts actions = state

theorem Reached.stands (reached : Reached base actions state) :
    ∃ applied, Stands chain applied state := by
  have stands : Stands chain [] ⟨none, base⟩ :=
    stands_base reached.free reached.unused reached.closed
  exact reached.reached ▸ stands.runAll reached.respect

theorem Reached.stands_at (reached : Reached base actions state)
    (known : history versions state.version = some kept) : Stands chain kept state := by
  obtain ⟨applied, stands⟩ := reached.stands
  cases stands.history.symm.trans known
  exact stands

/-- A table of others that refers to the users, beside one that was there before. -/
def reports : TableDef String where
  name := "reports"
  columns := [{ name := "id", type := .uuid, nullable := false }]
  primaryKey := ["id"]

def audit : TableDef String where
  name := "audit"
  columns := [{ name := "user_id", type := .uuid, nullable := false }]
  primaryKey := ["user_id"]
  foreignKeys := [{ column := "user_id", table := "users", target := "id", onDelete := .noAction }]

def sampleBase : Catalog String := ⟨[reports], [], [{ name := "vector" }]⟩

/-- An upgrade that fails, one that does not, and a table of others. -/
def sampleActions : List (Action String) := [
  .command (.upgrade (some "0002")) true,
  .command (.upgrade (some "0003")) false,
  .other (.createTable audit)]

def sampleState : Deployment String where
  version := some "0003"
  catalog :=
    { head with tables := [reports, alembicVersion, users, refreshTokens, userProfiles, audit] }

theorem sample_free : Contains names Catalog.empty sampleBase :=
  ⟨rfl, rfl, by decide, by decide, by decide, by decide, by decide⟩

theorem sample_unused : Contains alembic Catalog.empty sampleBase :=
  ⟨rfl, rfl, by decide, by decide, by decide, by decide, by decide⟩

theorem sample_reached : Reached sampleBase sampleActions sampleState where
  free := sample_free
  unused := sample_unused
  closed := by decide
  respect := by
    intro action member
    simp only [sampleActions, List.mem_cons, List.not_mem_nil, or_false] at member
    rcases member with rfl | rfl | rfl
    · trivial
    · trivial
    · exact (by decide : audit.name ∉ (names.both alembic).relations)
  reached := rfl

end Runs

end BackendFoundation.SchemaMigrations
