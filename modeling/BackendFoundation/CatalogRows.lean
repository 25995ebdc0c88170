import BackendFoundation.Catalogs

/-! What the tables of a catalog ask of their rows: the types of the columns, which may keep
less than they are given, the primary key, the unique indexes and the foreign keys. What a
table of one owner asks does not depend on what others have in the catalog. -/
namespace BackendFoundation.CatalogRows
open Catalogs

/-- What the columns of a row hold; `none` is NULL. -/
abbrev Record (ν γ : Type) := ν → Option γ

/-- A row of the database with the name of its table. -/
structure Stored (ν γ : Type) where
  table : ν
  record : Record ν γ

variable {ν γ : Type} [DecidableEq ν] [DecidableEq γ]

/-- What a column of a type keeps of a value, if it takes it. -/
abbrev Keeps (ν γ : Type) := ColumnType ν → γ → Option γ

omit [DecidableEq ν] [DecidableEq γ] in
def Column.takes (keeps : Keeps ν γ) (record : Record ν γ) (column : Column ν) : Bool :=
  match record column.name with
  | none => column.nullable
  | some value => (keeps column.type value).isSome

omit [DecidableEq γ] in
/-- What the table keeps of a row. -/
def TableDef.kept (keeps : Keeps ν γ) (table : TableDef ν) (record : Record ν γ) : Record ν γ :=
  fun name =>
    match table.columns.find? (·.name = name) with
    | none => none
    | some column => (record name).bind (keeps column.type)

omit [DecidableEq ν] [DecidableEq γ] in
def Index.covers (index : Index ν) (record : Record ν γ) : Bool :=
  match index.whereNull with
  | none => true
  | some column => (record column).isNone

/-- The index forbids the two rows beside each other. NULLs are distinct. -/
def Index.clash (index : Index ν) (left right : Record ν γ) : Bool :=
  index.unique && Index.covers index left && Index.covers index right &&
    index.columns.all fun column => (left column).isSome && left column == right column

def TableDef.sameKey (table : TableDef ν) (left right : Record ν γ) : Bool :=
  table.primaryKey.all fun column => left column == right column

/-- The row that the foreign key names is there, if it names one. -/
def ForeignKey.met (stored : List (Stored ν γ)) (record : Record ν γ) (key : ForeignKey ν) : Bool :=
  match record key.column with
  | none => true
  | some value => stored.any fun row => row.table == key.table && row.record key.target == some value

namespace Catalog

/-- An INSERT of this row meets every constraint that is not deferred. -/
def accepts (keeps : Keeps ν γ) (catalog : Catalog ν) (stored : List (Stored ν γ))
    (new : Stored ν γ) : Bool :=
  match catalog.tables.find? (·.name = new.table) with
  | none => false
  | some table =>
    let record := TableDef.kept keeps table new.record
    table.columns.all (Column.takes keeps new.record) &&
      (!stored.any fun row => row.table == new.table && TableDef.sameKey table row.record record) &&
      (!catalog.indexes.any fun index => index.table == new.table && stored.any fun row =>
        row.table == new.table && Index.clash index row.record record) &&
      table.foreignKeys.all fun key =>
        key.initiallyDeferred || ForeignKey.met (⟨new.table, record⟩ :: stored) record key

/-- A COMMIT of this row meets the deferred constraints. -/
def settles (catalog : Catalog ν) (stored : List (Stored ν γ)) (row : Stored ν γ) : Bool :=
  match catalog.tables.find? (·.name = row.table) with
  | none => true
  | some table => table.foreignKeys.all fun key =>
      !key.initiallyDeferred || ForeignKey.met stored row.record key

end Catalog

section Owners

variable {mine : Names ν} {own catalog : Catalog ν} {keeps : Keeps ν γ}
variable {stored : List (Stored ν γ)} {new : Stored ν γ}

omit [DecidableEq γ] in
theorem find_own (contains : Contains mine own catalog) {name : ν} (ours : name ∈ mine.relations) :
    catalog.tables.find? (·.name = name) = own.tables.find? (·.name = name) := by
  rw [← contains.tables, List.find?_filter]
  congr 1
  funext table
  by_cases same : table.name = name
  · simp [same, ours]
  · simp [same]

/-- What an INSERT into a table of the catalog has to meet. -/
theorem accepts_iff {table : TableDef ν} {name : ν} {record : Record ν γ}
    (found : catalog.tables.find? (·.name = name) = some table) :
    Catalog.accepts keeps catalog stored ⟨name, record⟩ = true ↔
      table.columns.all (Column.takes keeps record) = true ∧
      (∀ old ∈ stored, old.table = name →
        TableDef.sameKey table old.record (TableDef.kept keeps table record) = false) ∧
      (∀ index ∈ catalog.indexes, index.table = name → ∀ old ∈ stored, old.table = name →
        Index.clash index old.record (TableDef.kept keeps table record) = false) ∧
      ∀ key ∈ table.foreignKeys, key.initiallyDeferred = true ∨
        ForeignKey.met (⟨name, TableDef.kept keeps table record⟩ :: stored)
          (TableDef.kept keeps table record) key = true := by
  simp [Catalog.accepts, found, and_assoc]

/-- **Locality.** The tables of an owner ask of their rows what they ask where nothing else is. -/
theorem accepts_own (contains : Contains mine own catalog) (ours : new.table ∈ mine.relations) :
    Catalog.accepts keeps catalog stored new = Catalog.accepts keeps own stored new := by
  unfold Catalog.accepts
  rw [find_own contains ours]
  have indexes : ∀ clashes : Index ν → Bool,
      (catalog.indexes.any fun index => index.table == new.table && clashes index) =
        own.indexes.any fun index => index.table == new.table && clashes index := by
    intro clashes
    rw [Bool.eq_iff_iff, List.any_eq_true, List.any_eq_true]
    constructor
    · rintro ⟨index, member, found⟩
      have same : index.table = new.table := beq_iff_eq.mp (Bool.and_eq_true_iff.mp found).1
      have named := (contains.apart index member).mpr (same ▸ ours)
      exact ⟨index, contains.mem_indexes.mpr ⟨member, named⟩, found⟩
    · exact fun ⟨index, member, found⟩ => ⟨index, (contains.mem_indexes.mp member).1, found⟩
  simp only [indexes]

theorem settles_own (contains : Contains mine own catalog) (ours : new.table ∈ mine.relations) :
    Catalog.settles catalog stored new = Catalog.settles own stored new := by
  unfold Catalog.settles
  rw [find_own contains ours]

end Owners

end BackendFoundation.CatalogRows
