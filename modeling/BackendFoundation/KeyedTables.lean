import Mathlib.Data.List.Nodup

/-! Tables of rows with a primary key, and the rows a transaction has written
but not committed laid over them. A table carries the uniqueness of its keys. -/
namespace BackendFoundation.KeyedTables

/-- The constraints of a database: the primary key of a row, the rows no two of
which may coexist under its unique indexes, and the keys its foreign keys name,
checked by each statement or, when deferred, by the commit. -/
structure Schema (ρ κ : Type) where
  key : ρ → κ
  clash : ρ → ρ → Bool
  clash_symm : ∀ left right, clash left right = clash right left
  refs : ρ → List κ
  deferredRefs : ρ → List κ

variable {ρ κ : Type}

/-- A set of rows, no two with the same primary key. -/
structure Table (S : Schema ρ κ) where
  rows : List ρ
  keyed : (rows.map S.key).Nodup

namespace Table

variable {S : Schema ρ κ}

instance : Membership ρ (Table S) := ⟨fun table row => row ∈ table.rows⟩

theorem mem_rows {table : Table S} {row : ρ} : row ∈ table.rows ↔ row ∈ table := Iff.rfl

instance (table : Table S) (row : ρ) [DecidableEq ρ] : Decidable (row ∈ table) :=
  inferInstanceAs (Decidable (row ∈ table.rows))

def empty (S : Schema ρ κ) : Table S := ⟨[], List.nodup_nil⟩

@[simp] theorem empty_rows : (empty S).rows = [] := rfl

@[simp] theorem not_mem_empty (row : ρ) : row ∉ empty S := List.not_mem_nil

/-- Two rows of a table with one key are one row. -/
theorem eq_of_key {table : Table S} {left right : ρ} (first : left ∈ table) (second : right ∈ table)
    (same : S.key left = S.key right) : left = right :=
  List.inj_on_of_nodup_map table.keyed first second same

/-- No row of one table has the key of a row of the other or clashes with it. -/
def Apart (left right : Table S) : Prop :=
  ∀ own ∈ left, ∀ other ∈ right, S.key own ≠ S.key other ∧ S.clash own other = false

theorem Apart.symm {left right : Table S} (apart : Apart left right) : Apart right left := by
  intro own here other there
  obtain ⟨keys, clash⟩ := apart other there own here
  exact ⟨keys.symm, by rw [S.clash_symm, clash]⟩

theorem apart_empty (right : Table S) : Apart (Table.empty S) right :=
  fun own here => absurd here (Table.not_mem_empty own)

variable [DecidableEq κ]

/-- The row with this key. -/
def lookup (table : Table S) (key : κ) : Option ρ :=
  table.rows.find? fun row => S.key row = key

theorem lookup_eq_some {table : Table S} {key : κ} {row : ρ} :
    table.lookup key = some row ↔ row ∈ table ∧ S.key row = key := by
  constructor
  · intro found
    exact ⟨List.mem_of_find?_eq_some found, by simpa using List.find?_some found⟩
  · rintro ⟨member, rfl⟩
    cases found : table.lookup (S.key row) with
    | none =>
      have missing := List.find?_eq_none.mp found row member
      simp at missing
    | some other =>
      have here := List.mem_of_find?_eq_some found
      have same : S.key other = S.key row := by simpa using List.find?_some found
      rw [eq_of_key here member same]

theorem lookup_eq_none {table : Table S} {key : κ} :
    table.lookup key = none ↔ ∀ row ∈ table, S.key row ≠ key := by
  simp [lookup, List.find?_eq_none, ← mem_rows]

/-- Selecting by primary key finds at most one row. -/
theorem filter_key (table : Table S) (key : κ) :
    table.rows.filter (fun row => S.key row == key) = (table.lookup key).toList := by
  have nodup : ∀ rows : List ρ, (rows.map S.key).Nodup →
      rows.filter (fun row => S.key row == key) =
        (rows.find? fun row => S.key row = key).toList := by
    intro rows
    induction rows with
    | nil => exact fun _ => rfl
    | cons row rows ih =>
      intro keyed
      obtain ⟨fresh, rest⟩ := List.nodup_cons.mp keyed
      by_cases same : S.key row = key
      · have others : rows.filter (fun other => S.key other == key) = [] := by
          refine List.filter_eq_nil_iff.mpr fun other member => ?_
          have apart : S.key other ≠ key := fun clash =>
            fresh (List.mem_map.mpr ⟨other, member, clash.trans same.symm⟩)
          simpa using apart
        simp [same, others]
      · simpa [same] using ih rest
  exact nodup table.rows table.keyed

private theorem mem_replace {rows : List ρ} {row other : ρ} :
    (rows.map S.key).Nodup → S.key row ∈ rows.map S.key →
    (other ∈ rows.map (fun old => if S.key old = S.key row then row else old) ↔
      other = row ∨ (other ∈ rows ∧ S.key other ≠ S.key row)) := by
  intro nodup present
  constructor
  · intro member
    obtain ⟨old, here, rfl⟩ := List.mem_map.mp member
    by_cases same : S.key old = S.key row
    · exact .inl (if_pos same)
    · exact .inr (by simpa [same] using here)
  · rintro (rfl | ⟨here, different⟩)
    · obtain ⟨old, member, same⟩ := List.mem_map.mp present
      exact List.mem_map.mpr ⟨old, member, if_pos same⟩
    · exact List.mem_map.mpr ⟨other, here, if_neg different⟩

/-- Write one row: over the row with its key, or as a new row at the end. -/
def put (table : Table S) (row : ρ) : Table S where
  rows := if S.key row ∈ table.rows.map S.key then
      table.rows.map fun old => if S.key old = S.key row then row else old
    else table.rows ++ [row]
  keyed := by
    split
    · rw [List.map_map, List.map_congr_left (g := S.key)]
      · exact table.keyed
      · intro old _
        by_cases same : S.key old = S.key row <;> simp [same]
    · rename_i fresh
      rw [List.map_append]
      exact List.nodup_append.mpr ⟨table.keyed, List.nodup_singleton _, by
        rintro key member last isLast rfl
        exact fresh (List.mem_singleton.mp isLast ▸ member)⟩

theorem mem_put {table : Table S} {row other : ρ} :
    other ∈ table.put row ↔ other = row ∨ (other ∈ table ∧ S.key other ≠ S.key row) := by
  by_cases present : S.key row ∈ table.rows.map S.key
  · have rows : (table.put row).rows =
        table.rows.map fun old => if S.key old = S.key row then row else old := if_pos present
    rw [← mem_rows, rows]
    exact mem_replace table.keyed present
  · have rows : (table.put row).rows = table.rows ++ [row] := if_neg present
    rw [← mem_rows, rows, List.mem_append, List.mem_singleton]
    have elsewhere : ∀ old ∈ table, S.key old ≠ S.key row :=
      fun old member same => present (same ▸ List.mem_map_of_mem member)
    constructor
    · rintro (member | rfl)
      · exact .inr ⟨member, elsewhere other member⟩
      · exact .inl rfl
    · rintro (rfl | ⟨member, _⟩)
      · exact .inr rfl
      · exact .inl member

/-- A transaction's own view: its pending rows over the committed ones. -/
def overlay (committed pending : Table S) : Table S := pending.rows.foldl put committed

/-- Writing rows with distinct keys one after another. -/
theorem mem_foldl_put {rows : List ρ} {table : Table S} {other : ρ} :
    (rows.map S.key).Nodup →
    (other ∈ rows.foldl put table ↔
      other ∈ rows ∨ (other ∈ table ∧ ∀ row ∈ rows, S.key row ≠ S.key other)) := by
  induction rows generalizing table with
  | nil => simp
  | cons row rows ih =>
    intro nodup
    obtain ⟨fresh, rest⟩ := List.nodup_cons.mp nodup
    rw [List.foldl_cons, ih rest, mem_put]
    have apart : ∀ later ∈ rows, S.key later ≠ S.key row :=
      fun later member same => fresh (same ▸ List.mem_map_of_mem member)
    constructor
    · rintro (member | ⟨rfl | ⟨member, different⟩, unwritten⟩)
      · exact .inl (List.mem_cons_of_mem _ member)
      · exact .inl List.mem_cons_self
      · exact .inr ⟨member, List.forall_mem_cons.mpr ⟨different.symm, unwritten⟩⟩
    · rintro (member | ⟨member, unwritten⟩)
      · rcases List.mem_cons.mp member with rfl | member
        · exact .inr ⟨.inl rfl, apart⟩
        · exact .inl member
      · obtain ⟨different, unwritten⟩ := List.forall_mem_cons.mp unwritten
        exact .inr ⟨.inr ⟨member, different.symm⟩, unwritten⟩

theorem mem_overlay {committed pending : Table S} {row : ρ} :
    row ∈ overlay committed pending ↔
      row ∈ pending ∨ (row ∈ committed ∧ ∀ own ∈ pending, S.key own ≠ S.key row) :=
  mem_foldl_put pending.keyed

@[simp] theorem overlay_empty (committed : Table S) : overlay committed (empty S) = committed := rfl

/-- Changing the rows a condition selects and keeping the others, in place. -/
theorem mem_overlay_changed {committed pending : Table S} {wanted : ρ → Bool} {set : ρ → ρ}
    (key_set : ∀ row, S.key (set row) = S.key row) {row : ρ} :
    row ∈ overlay committed
        ((((overlay committed pending).rows.filter wanted).map set).foldl put pending) ↔
      ∃ old ∈ overlay committed pending, row = if wanted old then set old else old := by
  have keys : (((overlay committed pending).rows.filter wanted).map set).map S.key =
      ((overlay committed pending).rows.filter wanted).map S.key := by
    rw [List.map_map]
    exact List.map_congr_left fun old _ => key_set old
  have distinct : ((((overlay committed pending).rows.filter wanted).map set).map S.key).Nodup := by
    rw [keys]
    exact (overlay committed pending).keyed.sublist (List.filter_sublist.map S.key)
  have unchanged : ∀ other ∈ overlay committed pending,
      (∀ changed ∈ ((overlay committed pending).rows.filter wanted).map set,
        S.key changed ≠ S.key other) ↔ wanted other = false := by
    intro other member
    constructor
    · intro apart
      by_contra selected
      refine apart (set other) (List.mem_map_of_mem (List.mem_filter.mpr ⟨member, ?_⟩))
        (key_set other)
      simpa using selected
    · intro unselected changed selected same
      obtain ⟨old, kept, rfl⟩ := List.mem_map.mp selected
      obtain ⟨here, wants⟩ := List.mem_filter.mp kept
      have one := eq_of_key here member ((key_set old).symm.trans same)
      rw [one, unselected] at wants
      cases wants
  rw [mem_overlay]
  constructor
  · rintro (written | ⟨old, unwritten⟩)
    · rcases (mem_foldl_put distinct).mp written with selected | ⟨own, apart⟩
      · obtain ⟨old, kept, rfl⟩ := List.mem_map.mp selected
        obtain ⟨here, wants⟩ := List.mem_filter.mp kept
        exact ⟨old, here, by simp [wants]⟩
      · have here : row ∈ overlay committed pending := mem_overlay.mpr (.inl own)
        exact ⟨row, here, by simp [(unchanged row here).mp apart]⟩
    · have apart : ∀ changed ∈ ((overlay committed pending).rows.filter wanted).map set,
          S.key changed ≠ S.key row :=
        fun changed selected =>
          unwritten changed ((mem_foldl_put distinct).mpr (.inl selected))
      have here : row ∈ overlay committed pending := by
        refine mem_overlay.mpr (.inr ⟨old, fun own member same => ?_⟩)
        refine unwritten own ((mem_foldl_put distinct).mpr (.inr ⟨member, ?_⟩)) same
        exact fun changed selected clash => apart changed selected (clash.trans same)
      exact ⟨row, here, by simp [(unchanged row here).mp apart]⟩
  · rintro ⟨old, here, rfl⟩
    by_cases wants : wanted old = true
    · left
      rw [if_pos wants]
      exact (mem_foldl_put distinct).mpr
        (.inl (List.mem_map_of_mem (List.mem_filter.mpr ⟨here, wants⟩)))
    · rw [if_neg wants]
      have apart := (unchanged old here).mpr (by simpa using wants)
      rcases mem_overlay.mp here with own | ⟨kept, unwritten⟩
      · exact .inl ((mem_foldl_put distinct).mpr (.inr ⟨own, apart⟩))
      · refine .inr ⟨kept, fun written member => ?_⟩
        rcases (mem_foldl_put distinct).mp member with selected | ⟨own, _⟩
        · exact apart written selected
        · exact unwritten written own

/-- No two rows of the table violate a unique index. -/
def ClashFree (table : Table S) : Prop :=
  ∀ left ∈ table, ∀ right ∈ table, S.clash left right → S.key left = S.key right

end Table

end BackendFoundation.KeyedTables
