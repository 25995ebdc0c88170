import Mathlib.Data.List.Basic

/-! The catalog of a database: its tables, views, indexes and extensions, and the statements
that create and drop them. Several owners keep objects under names of their own in one
catalog: a statement under one owner's names does to what that owner has there what it does
where nothing else is, and leaves the others' objects as they are. -/
namespace BackendFoundation.Catalogs

/-- The type of a column; an extension may bring types of its own. -/
inductive ColumnType (ν : Type) where
  | uuid
  | varchar (length : ℕ)
  | timestamptz
  | boolean
  | provided (extension : ν)
  deriving DecidableEq

inductive ServerDefault where
  | now
  deriving DecidableEq

structure Column (ν : Type) where
  name : ν
  type : ColumnType ν
  nullable : Bool
  serverDefault : Option ServerDefault := none
  deriving DecidableEq

inductive OnDelete where
  | noAction
  | cascade
  | setNull
  deriving DecidableEq

structure ForeignKey (ν : Type) where
  column : ν
  table : ν
  target : ν
  onDelete : OnDelete
  initiallyDeferred : Bool := false
  name : Option ν := none
  deriving DecidableEq

/-- A table, or a view, which reads tables and other views. Either may use functions of
extensions. -/
structure TableDef (ν : Type) where
  name : ν
  columns : List (Column ν)
  primaryKey : List ν := []
  foreignKeys : List (ForeignKey ν) := []
  reads : List ν := []
  uses : List ν := []
  deriving DecidableEq

/-- An index; a partial one is on the rows in which one column is NULL. -/
structure Index (ν : Type) where
  name : ν
  table : ν
  columns : List ν
  unique : Bool
  whereNull : Option ν := none
  deriving DecidableEq

/-- An extension, with those that it builds on. -/
structure Extension (ν : Type) where
  name : ν
  requires : List ν := []
  deriving DecidableEq

structure Catalog (ν : Type) where
  tables : List (TableDef ν)
  indexes : List (Index ν)
  extensions : List (Extension ν)
  deriving DecidableEq

/-- `CREATE EXTENSION` is `IF NOT EXISTS` and `DROP EXTENSION` is `IF EXISTS`. The statements
about tables are about views too. -/
inductive Ddl (ν : Type) where
  | createTable (table : TableDef ν)
  | dropTable (name : ν)
  | createIndex (index : Index ν)
  | dropIndex (name : ν)
  | createExtension (extension : Extension ν)
  | dropExtension (name : ν)

variable {ν : Type}

/-- The extensions that the types of the columns come from, and the functions. -/
def TableDef.extensions (table : TableDef ν) : List ν :=
  (table.columns.filterMap fun column =>
    match column.type with
    | .provided extension => some extension
    | _ => none) ++ table.uses

namespace Catalog

def empty : Catalog ν := ⟨[], [], []⟩

variable [DecidableEq ν]

/-- Tables and indexes share one space of names. -/
def Taken (catalog : Catalog ν) (name : ν) : Prop :=
  (∃ table ∈ catalog.tables, table.name = name) ∨ ∃ index ∈ catalog.indexes, index.name = name

instance (catalog : Catalog ν) (name : ν) : Decidable (catalog.Taken name) :=
  inferInstanceAs (Decidable (_ ∨ _))

/-- The column that a foreign key names is the primary key of its table, or a unique index
is on it. -/
def Supports (catalog : Catalog ν) (key : ForeignKey ν) : Prop :=
  ∃ table ∈ catalog.tables, table.name = key.table ∧ (table.primaryKey = [key.target] ∨
    ∃ index ∈ catalog.indexes, index.table = key.table ∧ index.unique = true ∧
      index.whereNull = none ∧ index.columns = [key.target])

instance (catalog : Catalog ν) (key : ForeignKey ν) : Decidable (catalog.Supports key) :=
  inferInstanceAs (Decidable (∃ table ∈ _, _ ∧ (_ ∨ ∃ index ∈ _, _)))

def HasTable (catalog : Catalog ν) (name : ν) : Prop := ∃ table ∈ catalog.tables, table.name = name

instance (catalog : Catalog ν) (name : ν) : Decidable (catalog.HasTable name) :=
  inferInstanceAs (Decidable (∃ table ∈ _, _))

def HasExtension (catalog : Catalog ν) (name : ν) : Prop :=
  ∃ extension ∈ catalog.extensions, extension.name = name

instance (catalog : Catalog ν) (name : ν) : Decidable (catalog.HasExtension name) :=
  inferInstanceAs (Decidable (∃ extension ∈ _, _))

/-- What the table or view depends on is there. -/
def Carries (catalog : Catalog ν) (table : TableDef ν) : Prop :=
  (∀ key ∈ table.foreignKeys, catalog.Supports key) ∧ (∀ name ∈ table.reads, catalog.HasTable name) ∧
    ∀ extension ∈ table.extensions, catalog.HasExtension extension

instance (catalog : Catalog ν) (table : TableDef ν) : Decidable (catalog.Carries table) :=
  inferInstanceAs (Decidable ((∀ key ∈ _, _) ∧ (∀ name ∈ _, _) ∧ ∀ extension ∈ _, _))

/-- Every object has what it depends on. -/
def Closed (catalog : Catalog ν) : Prop :=
  (∀ table ∈ catalog.tables, catalog.Carries table) ∧
    ∀ extension ∈ catalog.extensions, ∀ name ∈ extension.requires, catalog.HasExtension name

instance (catalog : Catalog ν) : Decidable catalog.Closed :=
  inferInstanceAs (Decidable ((∀ table ∈ _, _) ∧ ∀ extension ∈ _, ∀ name ∈ _, _))

/-- The statement finds the objects and columns that it names, and a new name free. -/
def Applies (catalog : Catalog ν) : Ddl ν → Prop
  | .createTable table => ¬ catalog.Taken table.name ∧
    ∀ column ∈ table.primaryKey ++ table.foreignKeys.map (·.column),
      column ∈ table.columns.map (·.name)
  | .dropTable name => catalog.HasTable name
  | .createIndex index => ¬ catalog.Taken index.name ∧
    ∃ table ∈ catalog.tables, table.name = index.table ∧
      ∀ column ∈ index.columns ++ index.whereNull.toList, column ∈ table.columns.map (·.name)
  | .dropIndex name => ∃ index ∈ catalog.indexes, index.name = name
  | .createExtension _ => True
  | .dropExtension _ => True

instance (catalog : Catalog ν) : (statement : Ddl ν) → Decidable (catalog.Applies statement)
  | .createTable _ => inferInstanceAs (Decidable (_ ∧ ∀ column ∈ _, _))
  | .dropTable _ => inferInstanceAs (Decidable (HasTable _ _))
  | .createIndex _ => inferInstanceAs (Decidable (_ ∧ ∃ table ∈ _, _ ∧ ∀ column ∈ _, _))
  | .dropIndex _ => inferInstanceAs (Decidable (∃ index ∈ _, _))
  | .createExtension _ => inferInstanceAs (Decidable True)
  | .dropExtension _ => inferInstanceAs (Decidable True)

/-- The catalog after the statement. A table takes its indexes with it. -/
def edit (catalog : Catalog ν) : Ddl ν → Catalog ν
  | .createTable table => { catalog with tables := catalog.tables ++ [table] }
  | .dropTable name =>
    { catalog with
      tables := catalog.tables.filter (·.name ≠ name)
      indexes := catalog.indexes.filter (·.table ≠ name) }
  | .createIndex index => { catalog with indexes := catalog.indexes ++ [index] }
  | .dropIndex name => { catalog with indexes := catalog.indexes.filter (·.name ≠ name) }
  | .createExtension extension =>
    { catalog with
      extensions := if catalog.HasExtension extension.name then catalog.extensions
        else catalog.extensions ++ [extension] }
  | .dropExtension name => { catalog with extensions := catalog.extensions.filter (·.name ≠ name) }

/-- One statement. Without CASCADE nothing is dropped that something left depends on. -/
def exec (catalog : Catalog ν) (statement : Ddl ν) : Option (Catalog ν) :=
  if catalog.Applies statement ∧ (catalog.edit statement).Closed then some (catalog.edit statement)
  else none

def execAll (catalog : Catalog ν) : List (Ddl ν) → Option (Catalog ν)
  | [] => some catalog
  | statement :: rest => (catalog.exec statement).bind fun later => later.execAll rest

variable {catalog later : Catalog ν} {statement : Ddl ν}

theorem exec_eq_some : catalog.exec statement = some later ↔
    catalog.Applies statement ∧ (catalog.edit statement).Closed ∧ catalog.edit statement = later := by
  unfold exec
  split
  · rename_i holds
    simp [holds]
  · rename_i fails
    constructor
    · exact fun never => by cases never
    · rintro ⟨applies, closed, _⟩
      exact absurd ⟨applies, closed⟩ fails

theorem execAll_append {first second : List (Ddl ν)} :
    catalog.execAll (first ++ second) = (catalog.execAll first).bind fun later => later.execAll second := by
  induction first generalizing catalog with
  | nil => rfl
  | cons statement rest ih =>
    change (catalog.exec statement).bind _ = ((catalog.exec statement).bind _).bind _
    rw [Option.bind_assoc]
    exact congrArg _ (funext fun _ => ih)

omit [DecidableEq ν] in
theorem Supports.mono {key : ForeignKey ν} (tables : catalog.tables ⊆ later.tables)
    (indexes : catalog.indexes ⊆ later.indexes) (supports : catalog.Supports key) :
    later.Supports key := by
  obtain ⟨table, member, name, primary | ⟨index, here, rest⟩⟩ := supports
  · exact ⟨table, tables member, name, .inl primary⟩
  · exact ⟨table, tables member, name, .inr ⟨index, indexes here, rest⟩⟩

end Catalog

/-! ## Owners -/

/-- The names of an owner's tables and indexes, and its extensions. -/
structure Names (ν : Type) where
  relations : List ν
  extensions : List ν

variable [DecidableEq ν] {mine : Names ν}

/-- A table of the owner refers to tables of the owner only, is no view, and has no use for
an extension. -/
def TableDef.Within (mine : Names ν) (table : TableDef ν) : Prop :=
  table.name ∈ mine.relations ∧ (∀ key ∈ table.foreignKeys, key.table ∈ mine.relations) ∧
    table.reads = [] ∧ table.extensions = []

/-- A statement of the owner. -/
def Ddl.Within (mine : Names ν) : Ddl ν → Prop
  | .createTable table => table.Within mine
  | .dropTable name => name ∈ mine.relations
  | .createIndex index => index.name ∈ mine.relations ∧ index.table ∈ mine.relations
  | .dropIndex name => name ∈ mine.relations
  | .createExtension extension => extension.name ∈ mine.extensions ∧ extension.requires = []
  | .dropExtension name => name ∈ mine.extensions

/-- A statement of others. Their tables may refer to the owner's, their views read them and
their extensions build on the owner's; they put no index on a table of the owner. -/
def Ddl.Outside (mine : Names ν) : Ddl ν → Prop
  | .createTable table => table.name ∉ mine.relations
  | .dropTable name => name ∉ mine.relations
  | .createIndex index => index.name ∉ mine.relations ∧ index.table ∉ mine.relations
  | .dropIndex name => name ∉ mine.relations
  | .createExtension extension => extension.name ∈ mine.extensions → extension.requires = []
  | .dropExtension name => name ∉ mine.extensions

instance (table : TableDef ν) : Decidable (table.Within mine) :=
  inferInstanceAs (Decidable (_ ∧ (∀ key ∈ _, _) ∧ _ ∧ _))

instance : (statement : Ddl ν) → Decidable (statement.Within mine)
  | .createTable table => inferInstanceAs (Decidable (table.Within mine))
  | .dropTable _ | .dropIndex _ | .dropExtension _ => inferInstanceAs (Decidable (_ ∈ _))
  | .createIndex _ | .createExtension _ => inferInstanceAs (Decidable (_ ∧ _))

section Extensions

variable {catalog : Catalog ν} {extension created : Extension ν} {name dropped : ν}

theorem Catalog.mem_create (member : extension ∈ (catalog.edit (.createExtension created)).extensions) :
    extension ∈ catalog.extensions ∨ extension = created := by
  simp only [edit] at member
  split at member
  · exact .inl member
  · simpa using member

theorem Catalog.hasExtension_create : (catalog.edit (.createExtension created)).HasExtension name ↔
    catalog.HasExtension name ∨ name = created.name := by
  constructor
  · rintro ⟨there, member, rfl⟩
    rcases mem_create member with old | rfl
    · exact .inl ⟨there, old, rfl⟩
    · exact .inr rfl
  · intro either
    by_cases present : catalog.HasExtension created.name
    · have after : (catalog.edit (.createExtension created)).extensions = catalog.extensions :=
        if_pos present
      have has : catalog.HasExtension name := either.elim id fun same => same ▸ present
      rwa [HasExtension, after]
    · have after : (catalog.edit (.createExtension created)).extensions =
          catalog.extensions ++ [created] := if_neg present
      rw [HasExtension, after]
      rcases either with ⟨there, old, same⟩ | rfl
      · exact ⟨there, List.mem_append_left _ old, same⟩
      · exact ⟨created, List.mem_append_right _ List.mem_cons_self, rfl⟩

theorem Catalog.hasExtension_drop : (catalog.edit (.dropExtension dropped)).HasExtension name ↔
    catalog.HasExtension name ∧ name ≠ dropped := by
  simp only [HasExtension, edit, List.mem_filter, decide_eq_true_eq]
  constructor
  · rintro ⟨there, ⟨member, other⟩, rfl⟩
    exact ⟨⟨there, member, rfl⟩, other⟩
  · rintro ⟨⟨there, member, rfl⟩, other⟩
    exact ⟨there, ⟨member, other⟩, rfl⟩

end Extensions

/-- The statement takes nothing away. -/
def Ddl.Creates : Ddl ν → Prop
  | .createTable _ | .createIndex _ | .createExtension _ => True
  | .dropTable _ | .dropIndex _ | .dropExtension _ => False

instance : (statement : Ddl ν) → Decidable statement.Creates
  | .createTable _ | .createIndex _ | .createExtension _ => inferInstanceAs (Decidable True)
  | .dropTable _ | .dropIndex _ | .dropExtension _ => inferInstanceAs (Decidable False)

/-- The statement adds nothing. -/
def Ddl.Drops : Ddl ν → Prop
  | .dropTable _ | .dropIndex _ | .dropExtension _ => True
  | .createTable _ | .createIndex _ | .createExtension _ => False

instance : (statement : Ddl ν) → Decidable statement.Drops
  | .dropTable _ | .dropIndex _ | .dropExtension _ => inferInstanceAs (Decidable True)
  | .createTable _ | .createIndex _ | .createExtension _ => inferInstanceAs (Decidable False)

namespace Catalog

variable {catalog later : Catalog ν} {statement : Ddl ν} {script : List (Ddl ν)}

/-- Everything in the one catalog is in the other. -/
structure Below (catalog later : Catalog ν) : Prop where
  tables : catalog.tables ⊆ later.tables
  indexes : catalog.indexes ⊆ later.indexes
  extensions : catalog.extensions ⊆ later.extensions

omit [DecidableEq ν] in
theorem HasTable.mono {name : ν} (below : catalog.Below later) (has : catalog.HasTable name) :
    later.HasTable name := by
  obtain ⟨table, member, named⟩ := has
  exact ⟨table, below.tables member, named⟩

omit [DecidableEq ν] in
theorem HasExtension.mono {name : ν} (below : catalog.Below later)
    (has : catalog.HasExtension name) : later.HasExtension name := by
  obtain ⟨extension, member, named⟩ := has
  exact ⟨extension, below.extensions member, named⟩

omit [DecidableEq ν] in
theorem Carries.mono {table : TableDef ν} (below : catalog.Below later)
    (carries : catalog.Carries table) : later.Carries table :=
  ⟨fun key member => (carries.1 key member).mono below.tables below.indexes,
    fun name member => (carries.2.1 name member).mono below,
    fun name member => (carries.2.2 name member).mono below⟩

theorem below_edit (creates : statement.Creates) : catalog.Below (catalog.edit statement) := by
  cases statement with
  | createTable table =>
    exact ⟨List.subset_append_left _ _, List.Subset.refl _, List.Subset.refl _⟩
  | createIndex index =>
    exact ⟨List.Subset.refl _, List.subset_append_left _ _, List.Subset.refl _⟩
  | createExtension name =>
    refine ⟨List.Subset.refl _, List.Subset.refl _, ?_⟩
    simp only [edit]
    split
    · exact List.Subset.refl _
    · exact List.subset_append_left _ _
  | dropTable | dropIndex | dropExtension => cases creates

omit [DecidableEq ν] in
theorem Below.refl (catalog : Catalog ν) : catalog.Below catalog :=
  ⟨List.Subset.refl _, List.Subset.refl _, List.Subset.refl _⟩

omit [DecidableEq ν] in
theorem Below.trans {first second third : Catalog ν} (less : first.Below second)
    (more : second.Below third) : first.Below third :=
  ⟨List.Subset.trans less.tables more.tables, List.Subset.trans less.indexes more.indexes,
    List.Subset.trans less.extensions more.extensions⟩

end Catalog

/-- What others have in the catalog. -/
def Catalog.others (mine : Names ν) (catalog : Catalog ν) : Catalog ν where
  tables := catalog.tables.filter (·.name ∉ mine.relations)
  indexes := catalog.indexes.filter (·.name ∉ mine.relations)
  extensions := catalog.extensions.filter (·.name ∉ mine.extensions)

/-! ## Two owners -/

/-- The names of both. -/
def Names.both (mine other : Names ν) : Names ν :=
  ⟨mine.relations ++ other.relations, mine.extensions ++ other.extensions⟩

/-- No name is both owners'. -/
structure Names.Apart (mine other : Names ν) : Prop where
  relations : ∀ name ∈ mine.relations, name ∉ other.relations
  extensions : ∀ name ∈ mine.extensions, name ∉ other.extensions

section Owners

variable {other : Names ν} {statement : Ddl ν} {catalog later : Catalog ν}

omit [DecidableEq ν] in
theorem Names.Apart.symm (apart : mine.Apart other) : other.Apart mine :=
  ⟨fun name theirs ours => apart.relations name ours theirs,
    fun name theirs ours => apart.extensions name ours theirs⟩

omit [DecidableEq ν] in
/-- What one owner does is done by others for the other owner. -/
theorem Ddl.Within.outside (within : statement.Within mine) (apart : mine.Apart other) :
    statement.Outside other := by
  cases statement with
  | createTable table => exact apart.relations _ within.1
  | dropTable name => exact apart.relations _ within
  | createIndex index => exact ⟨apart.relations _ within.1, apart.relations _ within.2⟩
  | dropIndex name => exact apart.relations _ within
  | createExtension extension => exact fun _ => within.2
  | dropExtension name => exact apart.extensions _ within

omit [DecidableEq ν] in
theorem Ddl.Outside.of_both (outside : statement.Outside (mine.both other)) :
    statement.Outside mine ∧ statement.Outside other := by
  cases statement with
  | createTable table => exact not_or.mp fun named => outside (List.mem_append.mpr named)
  | dropTable name => exact not_or.mp fun named => outside (List.mem_append.mpr named)
  | createIndex index =>
    have name := not_or.mp fun named => outside.1 (List.mem_append.mpr named)
    have table := not_or.mp fun named => outside.2 (List.mem_append.mpr named)
    exact ⟨⟨name.1, table.1⟩, name.2, table.2⟩
  | dropIndex name => exact not_or.mp fun named => outside (List.mem_append.mpr named)
  | createExtension extension =>
    exact ⟨fun ours => outside (List.mem_append.mpr (.inl ours)),
      fun theirs => outside (List.mem_append.mpr (.inr theirs))⟩
  | dropExtension name => exact not_or.mp fun named => outside (List.mem_append.mpr named)

theorem Catalog.others_both :
    catalog.others (mine.both other) = (catalog.others mine).others other := by
  simp [Catalog.others, Names.both, List.filter_filter, Bool.and_comm]

/-- What is neither owner's is kept when what is not the one's is, or what is not the other's. -/
theorem Catalog.others_both_left (same : later.others mine = catalog.others mine) :
    later.others (mine.both other) = catalog.others (mine.both other) := by
  rw [others_both, others_both, same]

theorem Catalog.others_both_right (same : later.others other = catalog.others other) :
    later.others (mine.both other) = catalog.others (mine.both other) := by
  have swap : ∀ catalog : Catalog ν, catalog.others (mine.both other) =
      (catalog.others other).others mine := by
    intro catalog
    simp [Catalog.others, Names.both, List.filter_filter]
  rw [swap, swap, same]

end Owners

/-- Under the owner's names the catalog has the owner's tables and indexes and no others, and
the owner's extensions are there, whoever has created them. They build on none. -/
structure Contains (mine : Names ν) (own catalog : Catalog ν) : Prop where
  tables : catalog.tables.filter (·.name ∈ mine.relations) = own.tables
  indexes : catalog.indexes.filter (·.name ∈ mine.relations) = own.indexes
  extensions : ∀ extension ∈ own.extensions, catalog.HasExtension extension.name
  within : ∀ table ∈ own.tables, table.Within mine
  known : ∀ extension ∈ own.extensions, extension.name ∈ mine.extensions ∧ extension.requires = []
  plain : ∀ extension ∈ catalog.extensions, extension.name ∈ mine.extensions → extension.requires = []
  apart : ∀ index ∈ catalog.indexes, index.name ∈ mine.relations ↔ index.table ∈ mine.relations

namespace Contains

open Catalog

variable {own own' catalog later : Catalog ν} {statement : Ddl ν}

theorem mem_tables (contains : Contains mine own catalog) {table : TableDef ν} :
    table ∈ own.tables ↔ table ∈ catalog.tables ∧ table.name ∈ mine.relations := by
  simp [← contains.tables]

theorem mem_indexes (contains : Contains mine own catalog) {index : Index ν} :
    index ∈ own.indexes ↔ index ∈ catalog.indexes ∧ index.name ∈ mine.relations := by
  simp [← contains.indexes]

/-- A name of the owner is taken by an object of the owner. -/
theorem taken_iff (contains : Contains mine own catalog) {name : ν} (ours : name ∈ mine.relations) :
    catalog.Taken name ↔ own.Taken name := by
  unfold Taken
  simp only [contains.mem_tables, contains.mem_indexes]
  constructor
  · rintro (⟨table, member, rfl⟩ | ⟨index, member, rfl⟩)
    · exact .inl ⟨table, ⟨member, ours⟩, rfl⟩
    · exact .inr ⟨index, ⟨member, ours⟩, rfl⟩
  · rintro (⟨table, ⟨member, _⟩, same⟩ | ⟨index, ⟨member, _⟩, same⟩)
    · exact .inl ⟨table, member, same⟩
    · exact .inr ⟨index, member, same⟩

/-- A foreign key to a table of the owner leans on the owner's objects. -/
theorem supports_iff (contains : Contains mine own catalog) {key : ForeignKey ν}
    (ours : key.table ∈ mine.relations) : catalog.Supports key ↔ own.Supports key := by
  constructor
  · rintro ⟨table, member, name, primary | ⟨index, here, on, rest⟩⟩
    · exact ⟨table, contains.mem_tables.mpr ⟨member, name ▸ ours⟩, name, .inl primary⟩
    · have named : index.name ∈ mine.relations := (contains.apart index here).mpr (on ▸ ours)
      exact ⟨table, contains.mem_tables.mpr ⟨member, name ▸ ours⟩, name,
        .inr ⟨index, contains.mem_indexes.mpr ⟨here, named⟩, on, rest⟩⟩
  · exact Supports.mono (fun _ member => (contains.mem_tables.mp member).1)
      (fun _ member => (contains.mem_indexes.mp member).1)

theorem closed_own (contains : Contains mine own catalog) (closed : catalog.Closed) : own.Closed := by
  refine ⟨fun table member => ?_, fun extension member name requires => ?_⟩
  · obtain ⟨_, refers, plain, unused⟩ := contains.within table member
    have carried := closed.1 table (contains.mem_tables.mp member).1
    refine ⟨fun key names => (contains.supports_iff (refers key names)).mp (carried.1 key names), ?_⟩
    rw [plain, unused]
    exact ⟨List.forall_mem_nil _, List.forall_mem_nil _⟩
  · rw [(contains.known extension member).2] at requires
    exact absurd requires List.not_mem_nil

/-- What a table of the owner depends on is the owner's. -/
theorem carries_own (contains : Contains mine own catalog) (closed : own.Closed) {table : TableDef ν}
    (member : table ∈ own.tables) : catalog.Carries table := by
  obtain ⟨_, refers, plain, unused⟩ := contains.within table member
  have carried := closed.1 table member
  refine ⟨fun key names => (contains.supports_iff (refers key names)).mpr (carried.1 key names), ?_⟩
  rw [plain, unused]
  exact ⟨List.forall_mem_nil _, List.forall_mem_nil _⟩

private theorem filter_swap {α : Type} (p q : α → Bool) (l : List α) :
    (l.filter p).filter q = (l.filter q).filter p := by
  simp only [List.filter_filter, Bool.and_comm]

/-- Taking other elements out changes nothing about those that are looked at. -/
private theorem filter_kept {α : Type} {p q : α → Prop} [DecidablePred p] [DecidablePred q] {l : List α}
    (kept : ∀ a ∈ l, q a → p a) : (l.filter (p ·)).filter (q ·) = l.filter (q ·) := by
  refine (List.filter_filter ..).trans (List.filter_congr fun a member => ?_)
  by_cases looked : q a
  · simp [looked, kept a member looked]
  · simp [looked]

/-- A statement of the owner edits the owner's objects. -/
theorem edit_within (contains : Contains mine own catalog) (within : statement.Within mine) :
    Contains mine (own.edit statement) (catalog.edit statement) := by
  cases statement with
  | createTable table =>
    refine ⟨?_, contains.indexes, contains.extensions, ?_, contains.known, contains.plain,
      contains.apart⟩
    · simp [edit, List.filter_append, contains.tables, within.1]
    · intro other member
      rcases List.mem_append.mp member with old | new
      · exact contains.within other old
      · rw [List.mem_singleton.mp new]
        exact within
  | dropTable name =>
    refine ⟨?_, ?_, contains.extensions, ?_, contains.known, contains.plain, ?_⟩
    · exact (filter_swap _ _ _).trans (congrArg _ contains.tables)
    · exact (filter_swap _ _ _).trans (congrArg _ contains.indexes)
    · exact fun other member => contains.within other (List.mem_of_mem_filter member)
    · exact fun index member => contains.apart index (List.mem_of_mem_filter member)
  | createIndex index =>
    refine ⟨contains.tables, ?_, contains.extensions, contains.within, contains.known,
      contains.plain, ?_⟩
    · simp [edit, List.filter_append, contains.indexes, within.1]
    · intro other member
      rcases List.mem_append.mp member with old | new
      · exact contains.apart other old
      · rw [List.mem_singleton.mp new]
        exact iff_of_true within.1 within.2
  | dropIndex name =>
    refine ⟨contains.tables, (filter_swap _ _ _).trans (congrArg _ contains.indexes),
      contains.extensions, contains.within, contains.known, contains.plain, ?_⟩
    exact fun index member => contains.apart index (List.mem_of_mem_filter member)
  | createExtension created =>
    refine ⟨contains.tables, contains.indexes, ?_, contains.within, ?_, ?_, contains.apart⟩
    · intro extension member
      rw [hasExtension_create]
      rcases mem_create member with old | rfl
      · exact .inl (contains.extensions extension old)
      · exact .inr rfl
    · intro extension member
      rcases mem_create member with old | rfl
      · exact contains.known extension old
      · exact within
    · intro extension member ours
      rcases mem_create member with old | rfl
      · exact contains.plain extension old ours
      · exact within.2
  | dropExtension name =>
    refine ⟨contains.tables, contains.indexes, ?_, contains.within, ?_, ?_, contains.apart⟩
    · intro extension member
      obtain ⟨old, different⟩ := List.mem_filter.mp member
      exact hasExtension_drop.mpr ⟨contains.extensions extension old, by simpa using different⟩
    · exact fun extension member => contains.known extension (List.mem_of_mem_filter member)
    · exact fun extension member => contains.plain extension (List.mem_of_mem_filter member)

/-- What a statement of the owner finds, it finds among the owner's objects. -/
theorem applies_iff (contains : Contains mine own catalog) (within : statement.Within mine) :
    catalog.Applies statement ↔ own.Applies statement := by
  cases statement with
  | createTable table => exact and_congr_left' (not_congr (contains.taken_iff within.1))
  | dropTable name =>
    constructor
    · rintro ⟨table, member, rfl⟩
      exact ⟨table, contains.mem_tables.mpr ⟨member, within⟩, rfl⟩
    · rintro ⟨table, member, same⟩
      exact ⟨table, (contains.mem_tables.mp member).1, same⟩
  | createIndex index =>
    refine and_congr (not_congr (contains.taken_iff within.1)) ?_
    constructor
    · rintro ⟨table, member, name, columns⟩
      exact ⟨table, contains.mem_tables.mpr ⟨member, name ▸ within.2⟩, name, columns⟩
    · rintro ⟨table, member, rest⟩
      exact ⟨table, (contains.mem_tables.mp member).1, rest⟩
  | dropIndex name =>
    constructor
    · rintro ⟨index, member, rfl⟩
      exact ⟨index, contains.mem_indexes.mpr ⟨member, within⟩, rfl⟩
    · rintro ⟨index, member, same⟩
      exact ⟨index, (contains.mem_indexes.mp member).1, same⟩
  | createExtension | dropExtension => exact Iff.rfl

/-- **Locality.** A statement of the owner does to the owner's objects what it does where
nothing else is. -/
theorem exec_within (contains : Contains mine own catalog) (within : statement.Within mine)
    (done : catalog.exec statement = some later) :
    ∃ own', own.exec statement = some own' ∧ Contains mine own' later := by
  obtain ⟨applies, closed, rfl⟩ := exec_eq_some.mp done
  have edited := contains.edit_within within
  exact ⟨_, exec_eq_some.mpr ⟨(contains.applies_iff within).mp applies, edited.closed_own closed, rfl⟩,
    edited⟩

/-- A statement of others leaves the owner's objects alone. -/
theorem exec_outside (contains : Contains mine own catalog) (outside : statement.Outside mine)
    (done : catalog.exec statement = some later) : Contains mine own later := by
  obtain ⟨_, _, rfl⟩ := exec_eq_some.mp done
  cases statement with
  | createTable table =>
    refine ⟨?_, contains.indexes, contains.extensions, contains.within, contains.known,
      contains.plain, contains.apart⟩
    have other : table.name ∉ mine.relations := outside
    simp [edit, List.filter_append, contains.tables, other]
  | dropTable name =>
    refine ⟨?_, ?_, contains.extensions, contains.within, contains.known, contains.plain, ?_⟩
    · rw [← contains.tables]
      exact filter_kept fun table _ ours same => outside (same ▸ ours)
    · rw [← contains.indexes]
      exact filter_kept fun index member ours same =>
        outside (same ▸ (contains.apart index member).mp ours)
    · exact fun index member => contains.apart index (List.mem_of_mem_filter member)
  | createIndex index =>
    obtain ⟨name, table⟩ := outside
    refine ⟨contains.tables, ?_, contains.extensions, contains.within, contains.known,
      contains.plain, ?_⟩
    · simp [edit, List.filter_append, contains.indexes, name]
    · intro other member
      rcases List.mem_append.mp member with old | new
      · exact contains.apart other old
      · rw [List.mem_singleton.mp new]
        exact iff_of_false name table
  | dropIndex name =>
    refine ⟨contains.tables, ?_, contains.extensions, contains.within, contains.known,
      contains.plain, ?_⟩
    · rw [← contains.indexes]
      exact filter_kept fun index _ ours same => outside (same ▸ ours)
    · exact fun index member => contains.apart index (List.mem_of_mem_filter member)
  | createExtension created =>
    refine ⟨contains.tables, contains.indexes, fun extension member => ?_, contains.within,
      contains.known, fun extension member ours => ?_, contains.apart⟩
    · exact hasExtension_create.mpr (.inl (contains.extensions extension member))
    · rcases mem_create member with old | rfl
      · exact contains.plain extension old ours
      · exact outside ours
  | dropExtension name =>
    refine ⟨contains.tables, contains.indexes, fun extension member => ?_, contains.within,
      contains.known, fun extension member => ?_, contains.apart⟩
    · have different : extension.name ≠ name :=
        fun same => outside (same ▸ (contains.known extension member).1)
      exact hasExtension_drop.mpr ⟨contains.extensions extension member, different⟩
    · exact contains.plain extension (List.mem_of_mem_filter member)

/-- **Frame.** A statement of the owner leaves what others have as it is. -/
theorem edit_others (contains : Contains mine own catalog) (within : statement.Within mine) :
    (catalog.edit statement).others mine = catalog.others mine := by
  cases statement with
  | createTable table => simp [edit, others, List.filter_append, within.1]
  | dropTable name =>
    have tables : (catalog.tables.filter (·.name ≠ name)).filter (·.name ∉ mine.relations) =
        catalog.tables.filter (·.name ∉ mine.relations) :=
      filter_kept fun table _ other same => other (same ▸ within)
    have indexes : (catalog.indexes.filter (·.table ≠ name)).filter (·.name ∉ mine.relations) =
        catalog.indexes.filter (·.name ∉ mine.relations) :=
      filter_kept fun index member other same =>
        other ((contains.apart index member).mpr (same ▸ within))
    exact congrArg₂ (Catalog.mk · · _) tables indexes
  | createIndex index => simp [edit, others, List.filter_append, within.1]
  | dropIndex name =>
    refine congrArg (Catalog.mk _ · _) ?_
    exact filter_kept fun index _ other same => other (same ▸ within)
  | createExtension created =>
    simp only [edit, others]
    split
    · rfl
    · simp [List.filter_append, within.1]
  | dropExtension name =>
    refine congrArg (Catalog.mk _ _) ?_
    exact filter_kept fun extension _ other same => other (same ▸ within)

variable {script : List (Ddl ν)}

theorem execAll_outside (contains : Contains mine own catalog)
    (outside : ∀ statement ∈ script, statement.Outside mine)
    (done : catalog.execAll script = some later) : Contains mine own later := by
  induction script generalizing catalog with
  | nil =>
    cases done
    exact contains
  | cons statement rest ih =>
    obtain ⟨next, first, others⟩ := Option.bind_eq_some_iff.mp done
    exact ih (contains.exec_outside (outside statement List.mem_cons_self) first)
      (fun d member => outside d (List.mem_cons_of_mem _ member)) others

theorem execAll_closed (closed : catalog.Closed) (done : catalog.execAll script = some later) :
    later.Closed := by
  induction script generalizing catalog with
  | nil =>
    cases done
    exact closed
  | cons statement rest ih =>
    obtain ⟨next, first, others⟩ := Option.bind_eq_some_iff.mp done
    obtain ⟨_, stays, rfl⟩ := exec_eq_some.mp first
    exact ih stays others

/-- A script of the owner. -/
theorem execAll_within (contains : Contains mine own catalog)
    (within : ∀ statement ∈ script, statement.Within mine)
    (done : catalog.execAll script = some later) :
    ∃ own', own.execAll script = some own' ∧ Contains mine own' later ∧
      later.others mine = catalog.others mine := by
  induction script generalizing own catalog with
  | nil =>
    cases done
    exact ⟨own, rfl, contains, rfl⟩
  | cons statement rest ih =>
    obtain ⟨next, first, others⟩ := Option.bind_eq_some_iff.mp done
    have here := within statement List.mem_cons_self
    obtain ⟨own₁, mine_first, contains₁⟩ := contains.exec_within here first
    obtain ⟨own', mine_rest, contains', kept⟩ :=
      ih contains₁ (fun d member => within d (List.mem_cons_of_mem _ member)) others
    obtain ⟨_, _, rfl⟩ := exec_eq_some.mp first
    exact ⟨own', Option.bind_eq_some_iff.mpr ⟨own₁, mine_first, mine_rest⟩, contains',
      kept.trans (contains.edit_others here)⟩

/-- What the owner can create where nothing else is, the owner can create here. -/
theorem exec_creates (contains : Contains mine own catalog) (closed : catalog.Closed)
    (within : statement.Within mine) (creates : statement.Creates)
    (done : own.exec statement = some own') : ∃ later, catalog.exec statement = some later := by
  obtain ⟨applies, closed', rfl⟩ := exec_eq_some.mp done
  have edited := contains.edit_within within
  refine ⟨_, exec_eq_some.mpr ⟨(contains.applies_iff within).mpr applies,
    ⟨fun table member => ?_, fun extension member name requires => ?_⟩, rfl⟩⟩
  · by_cases ours : table.name ∈ mine.relations
    · exact edited.carries_own closed' (edited.mem_tables.mpr ⟨member, ours⟩)
    · have theirs : table ∈ ((catalog.edit statement).others mine).tables :=
        List.mem_filter.mpr ⟨member, by simpa using ours⟩
      rw [contains.edit_others within] at theirs
      exact (closed.1 table (List.mem_of_mem_filter theirs)).mono (below_edit creates)
  · by_cases ours : extension.name ∈ mine.extensions
    · rw [edited.plain extension member ours] at requires
      exact absurd requires List.not_mem_nil
    · have theirs : extension ∈ ((catalog.edit statement).others mine).extensions :=
        List.mem_filter.mpr ⟨member, by simpa using ours⟩
      rw [contains.edit_others within] at theirs
      exact (closed.2 extension (List.mem_of_mem_filter theirs) name requires).mono (below_edit creates)

theorem execAll_creates (contains : Contains mine own catalog) (closed : catalog.Closed)
    (within : ∀ statement ∈ script, statement.Within mine)
    (creates : ∀ statement ∈ script, statement.Creates)
    (done : own.execAll script = some own') : ∃ later, catalog.execAll script = some later := by
  induction script generalizing own catalog with
  | nil => exact ⟨catalog, rfl⟩
  | cons statement rest ih =>
    obtain ⟨own₁, mine_first, mine_rest⟩ := Option.bind_eq_some_iff.mp done
    have here := within statement List.mem_cons_self
    obtain ⟨next, first⟩ :=
      contains.exec_creates closed here (creates statement List.mem_cons_self) mine_first
    obtain ⟨own₂, again, contains₁⟩ := contains.exec_within here first
    cases mine_first.symm.trans again
    obtain ⟨_, stays, rfl⟩ := exec_eq_some.mp first
    obtain ⟨later, others⟩ := ih contains₁ stays
      (fun d member => within d (List.mem_cons_of_mem _ member))
      (fun d member => creates d (List.mem_cons_of_mem _ member)) mine_rest
    exact ⟨later, Option.bind_eq_some_iff.mpr ⟨_, first, others⟩⟩

end Contains

end BackendFoundation.Catalogs
