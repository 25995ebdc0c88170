import BackendFoundation.AuthSessions
import BackendFoundation.LinkedChains

/-! Rotation among concurrent requests. What a COMMIT does to the refresh
tokens is one of four effects, since the unique index lets a rotation commit
only where it has replaced the family's last row. So a family stays one chain
from the row of its login to one row that nothing replaces. -/
namespace BackendFoundation.AuthRotation
open PythonValues KeyedTables RequestPrograms ReadCommitted ReadCommittedProofs LinkedChains
open AuthPersistence AuthPrograms AuthDiscipline AuthSessions

/-- The refresh tokens of a database. -/
abbrev Holds (db : Database) (row : RefreshTokenRow) : Prop := Row.refreshToken row ∈ db

/-- What a COMMIT does to the refresh tokens of `db`. -/
inductive Effect (regime : Regime) (db : Database) (origin : Request) (pending after : Database) :
    Prop where
  | registered (unwritten : ∀ own, ¬ Holds pending own)
      (members : ∀ other, Holds after other ↔ Holds db other)
  | opened (row : RefreshTokenRow) (login : ∃ creds, origin = .login creds)
      (current : row.replacedBy = none) (written : ∀ own, Holds pending own ↔ own = row)
      (foreign : ∀ old, Holds db old → old.familyId ≠ row.familyId)
      (members : ∀ other, Holds after other ↔ other = row ∨ Holds db other)
  | rotated (leaf row : RefreshTokenRow) (revokedAt : DateTime)
      (presented : PresentedAs regime origin leaf) (held : Holds db leaf)
      (last : leaf.replacedBy = none) (allowed : regime.marks leaf)
      (owner : row.userId = leaf.userId) (family : row.familyId = leaf.familyId)
      (unrevoked : row.revokedAt = none) (current : row.replacedBy = none)
      (unused : ∀ old, Holds db old → old.id ≠ row.id)
      (written : ∀ own, Holds pending own ↔ own = row ∨ own = markReplaced row.id revokedAt leaf)
      (members : ∀ other, Holds after other ↔ other = row ∨
        other = markReplaced row.id revokedAt leaf ∨ (Holds db other ∧ other.id ≠ leaf.id))
  | revoked (change : RefreshTokenRow → RefreshTokenRow) (outside : ∀ creds, origin ≠ .login creds)
      (changes : ∀ old, Holds db old → change old = old ∨ ∃ revokedAt, change old = markRevoked revokedAt old)
      (written : ∀ own, Holds pending own → ∃ old revokedAt, Holds db old ∧
        own = markRevoked revokedAt old ∧ ∀ token, origin = .refresh token → old.revokedAt = none)
      (members : ∀ other, Holds after other ↔ ∃ old, Holds db old ∧ other = change old)

section Effects

variable {regime : Regime} {db pending : Database} {origin : Request} {published : List Row}

/-- A rotation whose rows violate no unique index has replaced the last row of
its family: any other last row would share the index with the new one. -/
theorem rotation_takes_leaf {record row leaf : RefreshTokenRow}
    (standing : Standing regime db origin pending published (.rotated record row))
    (clean : (Table.overlay db pending).ClashFree) (held : Holds db leaf)
    (family : leaf.familyId = record.familyId) (last : leaf.replacedBy = none) :
    leaf.id = record.id ∧ regime.marks leaf ∧ ∃ revokedAt,
      ∀ own, own ∈ pending ↔ own = .refreshToken row ∨
        own = .refreshToken (markReplaced row.id revokedAt leaf) := by
  obtain ⟨_, _, _, row_family, _, current, written, unused, ⟨taken, here, marked⟩, all⟩ := standing
  have covered : ∃ own ∈ pending, own.key = .refreshToken leaf.id := by
    by_contra free
    have visible : Row.refreshToken leaf ∈ Table.overlay db pending :=
      Table.mem_overlay.mpr (.inr ⟨held, fun own here same => free ⟨own, here, same⟩⟩)
    have clash : Row.clash (.refreshToken leaf) (.refreshToken row) = true := by
      simp [Row.clash, family, row_family, last, current]
    exact unused _ held (clean _ visible _ (Table.mem_overlay.mpr (.inl written)) clash)
  have versions : ∀ own, MarkedOf regime db record.id row.id own → own.key = .refreshToken leaf.id →
      leaf.id = record.id ∧ regime.marks leaf := by
    rintro own ⟨old, revokedAt, member, same, allowed, rfl⟩ key
    have one : Row.refreshToken old = .refreshToken leaf := Table.eq_of_key member held key
    cases one
    exact ⟨same, allowed⟩
  obtain ⟨own, own_here, key⟩ := covered
  have found : leaf.id = record.id ∧ regime.marks leaf := by
    rcases all own own_here with rfl | own_marked
    · exact absurd key.symm (unused _ held)
    · exact versions own own_marked key
  have only : ∀ own, MarkedOf regime db record.id row.id own → ∃ revokedAt,
      own = .refreshToken (markReplaced row.id revokedAt leaf) := by
    rintro own ⟨old, revokedAt, member, same, _, rfl⟩
    have one : Row.refreshToken old = .refreshToken leaf :=
      Table.eq_of_key member held (congrArg Key.refreshToken (same.trans found.1.symm))
    cases one
    exact ⟨revokedAt, rfl⟩
  obtain ⟨revokedAt, rfl⟩ := only taken marked
  refine ⟨found.1, found.2, revokedAt, fun own => ⟨fun member => ?_, ?_⟩⟩
  · rcases all own member with rfl | own_marked
    · exact .inl rfl
    · obtain ⟨other, rfl⟩ := only own own_marked
      exact .inr (Table.eq_of_key member here rfl)
  · rintro (rfl | rfl)
    · exact written
    · exact here

private theorem rotated_effect {record row leaf : RefreshTokenRow}
    (standing : Standing regime db origin pending published (.rotated record row))
    (clean : (Table.overlay db pending).ClashFree) (held : Holds db leaf)
    (family : leaf.familyId = record.familyId) (last : leaf.replacedBy = none) :
    Effect regime db origin pending (Table.overlay db pending) := by
  obtain ⟨id, allowed, revokedAt, members⟩ := rotation_takes_leaf standing clean held family last
  obtain ⟨⟨old, member, old_id, old_user, old_family⟩, ⟨token, claims, refresh, decodes, names⟩, owner,
    row_family, unrevoked, current, _, unused, _⟩ := standing
  have one : Row.refreshToken old = .refreshToken leaf :=
    Table.eq_of_key member held (congrArg Key.refreshToken (old_id.trans id.symm))
  cases one
  have fresh : ∀ old, Holds db old → old.id ≠ row.id :=
    fun old here same => unused _ here (congrArg Key.refreshToken same)
  have written : ∀ own, Holds pending own ↔ own = row ∨ own = markReplaced row.id revokedAt leaf := by
    intro own
    rw [Holds, members, Row.refreshToken.injEq, Row.refreshToken.injEq]
  rw [← id] at names
  apply Effect.rotated leaf row revokedAt ⟨token, claims, refresh, decodes, names⟩ held last allowed
    (owner.trans old_user.symm) (row_family.trans family.symm) unrevoked current fresh written
  intro other
  rw [Holds, Table.mem_overlay, ← Holds, written]
  constructor
  · rintro ((rfl | rfl) | ⟨here, unwritten⟩)
    · exact .inl rfl
    · exact .inr (.inl rfl)
    · refine .inr (.inr ⟨here, fun same => ?_⟩)
      exact unwritten _ ((members _).mpr (.inr rfl)) (congrArg Key.refreshToken same.symm)
  · rintro (rfl | rfl | ⟨here, different⟩)
    · exact .inl (.inl rfl)
    · exact .inl (.inr rfl)
    · refine .inr ⟨here, fun own member same => ?_⟩
      rcases (members own).mp member with rfl | rfl
      · exact fresh other here (Key.refreshToken.inj same).symm
      · exact different (Key.refreshToken.inj same).symm

private theorem revoked_effect {allowed : RefreshTokenRow → Prop}
    (outside : ∀ creds, origin ≠ .login creds)
    (unrevoked : ∀ token old, origin = .refresh token → allowed old → old.revokedAt = none)
    (revoked : ∀ own ∈ pending, RevokedOf db allowed own) :
    Effect regime db origin pending (Table.overlay db pending) := by
  have version : ∀ old, ∃ new, Holds db old → (Holds (Table.overlay db pending) new ∧ new.id = old.id ∧
      (new = old ∨ ∃ revokedAt, new = markRevoked revokedAt old)) := by
    intro old
    by_cases written : ∃ own ∈ pending, own.key = .refreshToken old.id
    · obtain ⟨own, here, key⟩ := written
      obtain ⟨base, revokedAt, member, _, rfl⟩ := revoked own here
      refine ⟨markRevoked revokedAt base, fun held => ?_⟩
      have one : Row.refreshToken base = .refreshToken old := Table.eq_of_key member held key
      cases one
      exact ⟨Table.mem_overlay.mpr (.inl here), rfl, .inr ⟨revokedAt, rfl⟩⟩
    · refine ⟨old, fun held => ⟨Table.mem_overlay.mpr (.inr ⟨held, fun own here key => ?_⟩), rfl, .inl rfl⟩⟩
      exact written ⟨own, here, key⟩
  choose change changed using version
  refine .revoked change outside (fun old held => (changed old held).2.2) (fun own here => ?_)
    fun other => ⟨fun member => ?_, ?_⟩
  · obtain ⟨old, revokedAt, member, may, same⟩ := revoked _ here
    cases same
    exact ⟨old, revokedAt, member, rfl, fun token refresh => unrevoked token old refresh may⟩
  · have base : ∃ old, Holds db old ∧ old.id = other.id := by
      rcases Table.mem_overlay.mp member with here | ⟨held, _⟩
      · obtain ⟨old, revokedAt, held, _, same⟩ := revoked _ here
        cases same
        exact ⟨old, held, rfl⟩
      · exact ⟨other, held, rfl⟩
    obtain ⟨old, held, same⟩ := base
    obtain ⟨here, id, _⟩ := changed old held
    refine ⟨old, held, Row.refreshToken.inj (Table.eq_of_key member here ?_)⟩
    exact congrArg Key.refreshToken (same.symm.trans id.symm)
  · rintro ⟨old, held, rfl⟩
    exact (changed old held).1

/-- **What a COMMIT does.** A session that may commit has registered a user,
opened a family, replaced the last row of one, or revoked rows. -/
theorem effect_of_commit {phase later : Phase}
    (headed : ∀ record, Known db record → ∃ leaf, Holds db leaf ∧ leaf.familyId = record.familyId ∧
      leaf.replacedBy = none)
    (clean : (Table.overlay db pending).ClashFree)
    (standing : Standing regime db origin pending published phase)
    (allowed : afterCommit phase = some later) :
    Effect regime db origin pending (Table.overlay db pending) := by
  cases phase with
  | registering user =>
    obtain ⟨_, _, _, only⟩ := standing
    have unwritten : ∀ own, ¬ Holds pending own := fun own here => by cases only _ here
    refine .registered unwritten fun other => ?_
    rw [Holds, Table.mem_overlay]
    constructor
    · rintro (here | ⟨held, _⟩)
      · exact absurd here (unwritten other)
      · exact held
    · intro held
      refine .inr ⟨held, fun own here same => ?_⟩
      rw [only own here] at same
      cases same
  | opened row =>
    obtain ⟨login, current, here, unused, only⟩ := standing
    have written : ∀ own, Holds pending own ↔ own = row := by
      intro own
      constructor
      · exact fun member => Row.refreshToken.inj (only _ member)
      · rintro rfl
        exact here
    have apart : ∀ old, Holds db old → Holds (Table.overlay db pending) old := by
      intro old held
      refine Table.mem_overlay.mpr (.inr ⟨held, fun own member same => ?_⟩)
      rw [only own member] at same
      exact unused _ held same.symm
    refine .opened row login current written (fun old held same => ?_) fun other => ?_
    · obtain ⟨leaf, leaf_held, family, last⟩ := headed old ⟨old, held, rfl, rfl, rfl⟩
      have clash : Row.clash (.refreshToken leaf) (.refreshToken row) = true := by
        simp [Row.clash, family, same, last, current]
      exact unused _ leaf_held
        (clean _ (apart leaf leaf_held) _ (Table.mem_overlay.mpr (.inl here)) clash)
    · constructor
      · intro member
        rcases Table.mem_overlay.mp member with own | ⟨held, _⟩
        · exact .inl ((written other).mp own)
        · exact .inr held
      · rintro (rfl | held)
        · exact Table.mem_overlay.mpr (.inl here)
        · exact apart other held
  | rotated record row =>
    obtain ⟨leaf, held, family, last⟩ := headed record standing.1
    exact rotated_effect standing clean held family last
  | sweeping record =>
    obtain ⟨_, ⟨token, _, refresh, _⟩, revoked⟩ := standing
    refine revoked_effect (fun creds login => ?_) (fun _ _ _ may => may) revoked
    rw [refresh] at login
    cases login
  | revoking =>
    obtain ⟨⟨token, logout⟩, revoked⟩ := standing
    refine revoked_effect (fun creds login => ?_) (fun _ _ refresh => ?_) revoked
    · rw [logout] at login
      cases login
    · rw [logout] at refresh
      cases refresh
  | _ => cases allowed

end Effects

/-! ## Families -/

/-- The rows of a family in the order of their exchange. -/
structure FamilyPath (db : Database) (familyId : UUID) (rows : List RefreshTokenRow) : Prop where
  complete : ∀ row, row ∈ rows ↔ Holds db row ∧ row.familyId = familyId
  simple : (rows.map (·.id)).Nodup
  linked : Linked (·.id) (·.replacedBy) rows
  owner : ∀ first ∈ rows, ∀ second ∈ rows, first.userId = second.userId

section Paths

variable {db after : Database} {familyId : UUID} {rows init : List RefreshTokenRow}

/-- A family's path ends in a row that nothing replaces. -/
theorem FamilyPath.leaf (path : FamilyPath db familyId rows) :
    ∃ leaf, Holds db leaf ∧ leaf.familyId = familyId ∧ leaf.replacedBy = none := by
  obtain ⟨init, leaf, rfl, last, _⟩ := linked_split path.linked
  obtain ⟨held, family⟩ := (path.complete leaf).mp (List.mem_append_right _ List.mem_cons_self)
  exact ⟨leaf, held, family, last⟩

/-- The only row of the family that nothing replaces is its last. -/
theorem FamilyPath.split (path : FamilyPath db familyId rows) {leaf : RefreshTokenRow}
    (held : Holds db leaf) (family : leaf.familyId = familyId) (last : leaf.replacedBy = none) :
    ∃ init, rows = init ++ [leaf] := by
  obtain ⟨init, other, rfl, _, inner⟩ := linked_split path.linked
  rcases List.mem_append.mp ((path.complete leaf).mpr ⟨held, family⟩) with inside | here
  · have replaced := inner leaf inside
    rw [last] at replaced
    cases replaced
  · rw [List.mem_singleton.mp here]
    exact ⟨init, rfl⟩

/-- The row that replaced another one is a row of its family. -/
theorem FamilyPath.successor (path : FamilyPath db familyId rows) {row : RefreshTokenRow}
    {name : UUID} (held : Holds db row) (family : row.familyId = familyId)
    (replaced : row.replacedBy = some name) : ∃ next, Holds db next ∧ next.id = name ∧
      next.familyId = row.familyId ∧ next.userId = row.userId := by
  have member := (path.complete row).mpr ⟨held, family⟩
  obtain ⟨next, there, same⟩ := linked_successor path.linked member replaced
  obtain ⟨next_held, next_family⟩ := (path.complete next).mp there
  exact ⟨next, next_held, same, next_family.trans family.symm, path.owner next there row member⟩

theorem FamilyPath.congr (path : FamilyPath db familyId rows)
    (same : ∀ row, row.familyId = familyId → (Holds after row ↔ Holds db row)) :
    FamilyPath after familyId rows where
  complete := by
    intro row
    rw [path.complete]
    exact and_congr_left fun family => (same row family).symm
  simple := path.simple
  linked := path.linked
  owner := path.owner

/-- Rows that keep their ids and links stay a path. -/
theorem FamilyPath.map (path : FamilyPath db familyId rows)
    (change : RefreshTokenRow → RefreshTokenRow)
    (same : ∀ row, Holds db row → (change row).id = row.id ∧ (change row).userId = row.userId ∧
      (change row).familyId = row.familyId ∧ (change row).replacedBy = row.replacedBy)
    (members : ∀ other, Holds after other ↔ ∃ old, Holds db old ∧ other = change old) :
    FamilyPath after familyId (rows.map change) := by
  have held : ∀ row ∈ rows, Holds db row := fun row member => ((path.complete row).mp member).1
  refine ⟨fun row => ?_, ?_, ?_, ?_⟩
  · rw [List.mem_map, members]
    constructor
    · rintro ⟨old, member, rfl⟩
      obtain ⟨here, family⟩ := (path.complete old).mp member
      exact ⟨⟨old, here, rfl⟩, (same old here).2.2.1.trans family⟩
    · rintro ⟨⟨old, here, rfl⟩, family⟩
      exact ⟨old, (path.complete old).mpr ⟨here, (same old here).2.2.1.symm.trans family⟩, rfl⟩
  · rw [List.map_map, List.map_congr_left (g := (·.id))]
    · exact path.simple
    · exact fun row member => (same row (held row member)).1
  · apply linked_map change path.linked
    exact fun row member => ⟨(same row (held row member)).1, (same row (held row member)).2.2.2⟩
  · intro first here second there
    obtain ⟨old, member, rfl⟩ := List.mem_map.mp here
    obtain ⟨other, member', rfl⟩ := List.mem_map.mp there
    rw [(same old (held old member)).2.1, (same other (held other member')).2.1]
    exact path.owner old member other member'

/-- The last row is replaced by a new one. -/
theorem FamilyPath.extend {leaf row : RefreshTokenRow} {revokedAt : DateTime}
    (path : FamilyPath db familyId (init ++ [leaf])) (owner : row.userId = leaf.userId)
    (family : row.familyId = leaf.familyId) (current : row.replacedBy = none)
    (unused : ∀ old, Holds db old → old.id ≠ row.id)
    (members : ∀ other, Holds after other ↔ other = row ∨
      other = markReplaced row.id revokedAt leaf ∨ (Holds db other ∧ other.id ≠ leaf.id)) :
    FamilyPath after familyId (init ++ [markReplaced row.id revokedAt leaf, row]) := by
  have leaf_in : leaf ∈ init ++ [leaf] := List.mem_append_right _ List.mem_cons_self
  obtain ⟨leaf_held, leaf_family⟩ := (path.complete leaf).mp leaf_in
  have simple : (init.map (·.id) ++ [leaf.id]).Nodup := by simpa using path.simple
  have apart : ∀ other ∈ init, other.id ≠ leaf.id := by
    intro other member same
    exact (List.nodup_append.mp simple).2.2 _ (List.mem_map_of_mem member) _ List.mem_cons_self same
  have held : ∀ other ∈ init, Holds db other ∧ other.familyId = familyId :=
    fun other member => (path.complete other).mp (List.mem_append_left _ member)
  have owners : ∀ other ∈ init ++ [markReplaced row.id revokedAt leaf, row], other.userId = leaf.userId := by
    intro other member
    rcases List.mem_append.mp member with inside | ending
    · exact path.owner other (List.mem_append_left _ inside) leaf leaf_in
    · rcases List.mem_cons.mp ending with rfl | here
      · rfl
      · rw [List.mem_singleton.mp here]
        exact owner
  have linked : Linked (fun one : RefreshTokenRow => one.id) (fun one => one.replacedBy)
      (init ++ [markReplaced row.id revokedAt leaf, row]) := by
    apply linked_extend _ _ current path.linked
    · rfl
    · rfl
  refine ⟨fun other => ?_, ?_, linked, ?_⟩
  · rw [members, List.mem_append, List.mem_cons, List.mem_singleton]
    constructor
    · rintro (inside | rfl | rfl)
      · exact ⟨.inr (.inr ⟨(held other inside).1, apart other inside⟩), (held other inside).2⟩
      · exact ⟨.inr (.inl rfl), leaf_family⟩
      · exact ⟨.inl rfl, family.trans leaf_family⟩
    · rintro ⟨rfl | rfl | ⟨here, different⟩, same⟩
      · exact .inr (.inr rfl)
      · exact .inr (.inl rfl)
      · rcases List.mem_append.mp ((path.complete other).mpr ⟨here, same⟩) with inside | ending
        · exact .inl inside
        · exact absurd (congrArg (·.id) (List.mem_singleton.mp ending)) different
  · have fresh : row.id ∉ init.map (·.id) ++ [leaf.id] := by
      intro member
      rcases List.mem_append.mp member with inside | ending
      · obtain ⟨other, here, same⟩ := List.mem_map.mp inside
        exact unused other (held other here).1 same
      · exact unused leaf leaf_held (List.mem_singleton.mp ending).symm
    have grown := List.nodup_append.mpr ⟨simple, List.nodup_singleton row.id, fun id member last here => by
      rw [List.mem_singleton.mp here]
      rintro rfl
      exact fresh member⟩
    simpa [markReplaced] using grown
  · exact fun first here second there => (owners first here).trans (owners second there).symm

end Paths

section Consequences

variable {regime : Regime} {db pending after : Database} {origin : Request}
variable {familyId : UUID} {rows : List RefreshTokenRow}

/-- A family that exists stays one path from the same first row. -/
theorem path_continues (effect : Effect regime db origin pending after)
    (path : FamilyPath db familyId rows) : ∃ later, FamilyPath after familyId later ∧
      later.head?.map (·.id) = rows.head?.map (·.id) := by
  cases effect with
  | registered _ members => exact ⟨rows, path.congr fun row _ => members row, rfl⟩
  | opened row login current written foreign members =>
    refine ⟨rows, path.congr fun other same => ?_, rfl⟩
    obtain ⟨leaf, held, family, _⟩ := path.leaf
    rw [members]
    apply or_iff_right
    rintro rfl
    exact foreign leaf held (family.trans same.symm)
  | rotated leaf row revokedAt presented held last allowed owner family unrevoked current unused
      written members =>
    by_cases same : leaf.familyId = familyId
    · obtain ⟨init, rfl⟩ := path.split held same last
      refine ⟨_, path.extend owner family current unused members, ?_⟩
      cases init <;> rfl
    · refine ⟨rows, path.congr fun other other_family => ?_, rfl⟩
      rw [members]
      constructor
      · rintro (rfl | rfl | ⟨here, _⟩)
        · exact absurd (family.symm.trans other_family) same
        · exact absurd other_family same
        · exact here
      · intro here
        refine .inr (.inr ⟨here, fun id => same ?_⟩)
        have one : Row.refreshToken other = .refreshToken leaf :=
          Table.eq_of_key here held (congrArg Key.refreshToken id)
        cases one
        exact other_family
  | revoked change outside changes written members =>
    have same : ∀ row, Holds db row → (change row).id = row.id ∧ (change row).userId = row.userId ∧
        (change row).familyId = row.familyId ∧ (change row).replacedBy = row.replacedBy := by
      intro row here
      rcases changes row here with unchanged | ⟨revokedAt, changed⟩
      · rw [unchanged]
        exact ⟨rfl, rfl, rfl, rfl⟩
      · rw [changed]
        exact ⟨rfl, rfl, rfl, rfl⟩
    refine ⟨_, path.map change same members, ?_⟩
    cases rows with
    | nil => rfl
    | cons first rest =>
      simpa using (same first ((path.complete first).mp List.mem_cons_self).1).1

/-- A row belongs to a family that existed, or it is the first of its family. -/
theorem family_of_held (effect : Effect regime db origin pending after) {row : RefreshTokenRow}
    (held : Holds after row) : (∃ old, Holds db old ∧ old.familyId = row.familyId) ∨
      (Holds pending row ∧ (∃ creds, origin = .login creds) ∧ FamilyPath after row.familyId [row] ∧
        (∀ own, Holds pending own → own = row) ∧ ∀ old, Holds db old → old.familyId ≠ row.familyId) := by
  cases effect with
  | registered _ members => exact .inl ⟨row, (members row).mp held, rfl⟩
  | opened first login current written foreign members =>
    rcases (members row).mp held with rfl | here
    · refine .inr ⟨(written row).mpr rfl, login, ⟨fun other => ?_, List.nodup_singleton _, current, ?_⟩,
        fun own here => (written own).mp here, foreign⟩
      · rw [List.mem_singleton, members]
        constructor
        · rintro rfl
          exact ⟨.inl rfl, rfl⟩
        · rintro ⟨same | here, family⟩
          · exact same
          · exact absurd family (foreign other here)
      · intro first here second there
        rw [List.mem_singleton.mp here, List.mem_singleton.mp there]
    · exact .inl ⟨row, here, rfl⟩
  | rotated leaf new revokedAt presented leaf_held last allowed owner family unrevoked current unused
      written members =>
    rcases (members row).mp held with rfl | rfl | ⟨here, _⟩
    · exact .inl ⟨leaf, leaf_held, family.symm⟩
    · exact .inl ⟨leaf, leaf_held, rfl⟩
    · exact .inl ⟨row, here, rfl⟩
  | revoked change outside changes written members =>
    obtain ⟨old, here, rfl⟩ := (members row).mp held
    refine .inl ⟨old, here, ?_⟩
    rcases changes old here with unchanged | ⟨revokedAt, changed⟩
    · rw [unchanged]
    · rw [changed]
      rfl

/-- Every row belongs to a family that is one path. -/
def Pathed (db : Database) : Prop :=
  ∀ row, Holds db row → ∃ rows, FamilyPath db row.familyId rows

theorem pathed_effect (effect : Effect regime db origin pending after) (pathed : Pathed db) :
    Pathed after := by
  intro row held
  rcases family_of_held effect held with ⟨old, old_held, family⟩ | ⟨_, _, path, _⟩
  · obtain ⟨rows, path⟩ := pathed old old_held
    obtain ⟨later, continues, _⟩ := path_continues effect path
    exact ⟨later, family ▸ continues⟩
  · exact ⟨[row], path⟩

/-- Where families are paths no row names a successor that is not there, as the
deferred foreign key asks. -/
theorem settled_of_pathed (pathed : Pathed (Table.overlay db pending)) :
    settled db pending = true := by
  simp only [settled, List.all_eq_true]
  intro own here key member
  cases own with
  | user user => exact absurd member List.not_mem_nil
  | refreshToken row =>
    simp only [schema, List.mem_map, Option.mem_toList] at member
    obtain ⟨name, replaced, rfl⟩ := member
    have held : Holds (Table.overlay db pending) row := Table.mem_overlay.mpr (.inl here)
    obtain ⟨rows, path⟩ := pathed row held
    obtain ⟨next, next_held, rfl, _⟩ := path.successor held rfl replaced
    have found : (Table.overlay db pending).lookup (.refreshToken next.id) = some (.refreshToken next) :=
      Table.lookup_eq_some.mpr ⟨next_held, rfl⟩
    rw [found]
    rfl

/-- Every replaced row is revoked. -/
def Superseded (db : Database) : Prop :=
  ∀ row, Holds db row → row.replacedBy ≠ none → row.revokedAt ≠ none

theorem superseded_effect (effect : Effect regime db origin pending after)
    (before : Superseded db) : Superseded after := by
  intro row held replaced
  cases effect with
  | registered _ members => exact before row ((members row).mp held) replaced
  | opened first login current written foreign members =>
    rcases (members row).mp held with rfl | here
    · exact absurd current replaced
    · exact before row here replaced
  | rotated leaf new revokedAt presented leaf_held last allowed owner family unrevoked current unused
      written members =>
    rcases (members row).mp held with rfl | rfl | ⟨here, _⟩
    · exact absurd current replaced
    · simp [markReplaced]
    · exact before row here replaced
  | revoked change outside changes written members =>
    obtain ⟨old, here, rfl⟩ := (members row).mp held
    rcases changes old here with unchanged | ⟨revokedAt, changed⟩
    · rw [unchanged] at replaced ⊢
      exact before old here replaced
    · rw [changed]
      simp [markRevoked]

/-- What a refresh request publishes as replaced was the last row of its family. -/
theorem spent_leaf (effect : Effect regime db origin pending after) (superseded : Superseded db)
    {token : Str} (refresh : origin = .refresh token) {row : RefreshTokenRow} {name : UUID}
    (held : Holds pending row) (replaced : row.replacedBy = some name) :
    (∃ claims, regime.decodes token claims ∧ named claims = some row.id) ∧ Holds after row ∧
      ∃ leaf, Holds db leaf ∧ leaf.id = row.id ∧ leaf.replacedBy = none := by
  cases effect with
  | registered unwritten _ => exact absurd held (unwritten row)
  | opened first login current written foreign members =>
    obtain ⟨creds, login⟩ := login
    rw [refresh] at login
    cases login
  | rotated leaf new revokedAt presented leaf_held last allowed owner family unrevoked current unused
      written members =>
    rcases (written row).mp held with rfl | rfl
    · rw [current] at replaced
      cases replaced
    · obtain ⟨other, claims, same, decodes, names⟩ := presented
      rw [refresh] at same
      cases same
      exact ⟨⟨claims, decodes, names⟩, (members _).mpr (.inr (.inl rfl)), leaf, leaf_held, rfl, last⟩
  | revoked change outside changes written members =>
    obtain ⟨old, revokedAt, here, rfl, unrevoked⟩ := written row held
    have alive : old.replacedBy ≠ none := by
      intro free
      rw [show (markRevoked revokedAt old).replacedBy = old.replacedBy from rfl, free] at replaced
      cases replaced
    exact absurd (unrevoked token refresh) (superseded old here alive)

theorem tokens_extend (effect : Effect regime db origin pending after) (row : RefreshTokenRow)
    (held : Holds db row) : ∃ later, Holds after later ∧ later.id = row.id ∧
      later.userId = row.userId ∧ later.familyId = row.familyId ∧
      (∀ name, row.replacedBy = some name → later.replacedBy = some name) := by
  cases effect with
  | registered _ members => exact ⟨row, (members row).mpr held, rfl, rfl, rfl, fun _ same => same⟩
  | opened first login current written foreign members =>
    exact ⟨row, (members row).mpr (.inr held), rfl, rfl, rfl, fun _ same => same⟩
  | rotated leaf new revokedAt presented leaf_held last allowed owner family unrevoked current unused
      written members =>
    by_cases same : row.id = leaf.id
    · have one : Row.refreshToken row = .refreshToken leaf :=
        Table.eq_of_key held leaf_held (congrArg Key.refreshToken same)
      cases one
      refine ⟨_, (members _).mpr (.inr (.inl rfl)), rfl, rfl, rfl, fun name replaced => ?_⟩
      rw [last] at replaced
      cases replaced
    · exact ⟨row, (members row).mpr (.inr (.inr ⟨held, same⟩)), rfl, rfl, rfl, fun _ same => same⟩
  | revoked change outside changes written members =>
    refine ⟨change row, (members _).mpr ⟨row, held, rfl⟩, ?_⟩
    rcases changes row held with unchanged | ⟨revokedAt, changed⟩
    · rw [unchanged]
      exact ⟨rfl, rfl, rfl, fun _ same => same⟩
    · rw [changed]
      exact ⟨rfl, rfl, rfl, fun _ same => same⟩

/-- No request writes over a user. -/
theorem users_extend {published : List Row} {phase later : Phase}
    (standing : Standing regime db origin pending published phase)
    (allowed : afterCommit phase = some later) (user : UserRow) (held : Row.user user ∈ db) :
    Row.user user ∈ Table.overlay db pending := by
  apply Table.mem_overlay.mpr
  refine .inr ⟨held, fun own here same => ?_⟩
  cases phase with
  | registering registered =>
    obtain ⟨_, unused, _, only⟩ := standing
    rw [only own here] at same
    exact unused _ held same.symm
  | opened row =>
    obtain ⟨_, _, _, _, only⟩ := standing
    rw [only own here] at same
    cases same
  | rotated record row =>
    obtain ⟨_, _, _, _, _, _, _, _, _, all⟩ := standing
    rcases all own here with rfl | ⟨_, _, _, _, _, rfl⟩
    · cases same
    · cases same
  | sweeping record =>
    obtain ⟨_, _, _, _, rfl⟩ := standing.2.2 own here
    cases same
  | revoking =>
    obtain ⟨_, _, _, _, rfl⟩ := standing.2 own here
    cases same
  | _ => cases allowed

end Consequences

/-! ## Runs -/

/-- A login request has committed this row. -/
def Opens (session : AuthSession) (row : RefreshTokenRow) : Prop :=
  (∃ creds, session.origin = .login creds) ∧ Row.refreshToken row ∈ session.published

/-- The rows of a family, from the one row a login has committed for it. -/
structure FamilyHistory (system : AuthSystem) (familyId : UUID) (rows : List RefreshTokenRow) :
    Prop extends FamilyPath system.committed familyId rows where
  opened : ∃ session ∈ system.sessions, ∃ row, Opens session row ∧
    rows.head?.map (·.id) = some row.id
  alone : ∀ session ∈ system.sessions, ∀ row, Opens session row → row.familyId = familyId →
    rows.head?.map (·.id) = some row.id

/-- What a session has published is found in the committed tables. -/
structure Accounted (regime : Regime) (db : Database) (session : AuthSession) : Prop where
  opens : ∀ row, Opens session row → Known db row
  spent : ∀ token row name, session.origin = .refresh token →
    Row.refreshToken row ∈ session.published → row.replacedBy = some name →
    (∃ claims, regime.decodes token claims ∧ named claims = some row.id) ∧
      ∃ later, Holds db later ∧ later.id = row.id ∧ later.replacedBy = some name

/-- The invariant of the service's runs. -/
structure Rotating (regime : Regime) (system : AuthSystem) : Prop where
  isolated : Isolated system
  scanning : ∀ session ∈ system.sessions, Scanning driver session
  placed : ∀ session ∈ system.sessions, ∃ phase,
    (discipline session.origin).Follows phase session.program ∧
      Placed regime system.committed session phase
  superseded : Superseded system.committed
  history : ∀ row, Holds system.committed row → ∃ rows, FamilyHistory system row.familyId rows
  accounted : ∀ session ∈ system.sessions, Accounted regime system.committed session
  once : ∀ (i j : ℕ) (first second : AuthSession), i ≠ j → system.sessions[i]? = some first →
    system.sessions[j]? = some second → ∀ token other row spent name used,
    first.origin = .refresh token → second.origin = .refresh other →
    Row.refreshToken row ∈ first.published → Row.refreshToken spent ∈ second.published →
    row.replacedBy = some name → spent.replacedBy = some used → row.id ≠ spent.id

/-- The action keeps to the regime in this state. -/
def Lawful (regime : Regime) (system : AuthSystem) : AuthAction → Prop
  | .arrive _ => True
  | .step index tick => ∀ session, system.sessions[index]? = some session →
      Within regime system.committed session tick

section Runs

variable {regime : Regime} {service : AuthService} {system after : AuthSystem} {action : AuthAction}

theorem accounted_extends {db db' : Database} {session : AuthSession} (extended : Extends db db')
    (accounted : Accounted regime db session) : Accounted regime db' session where
  opens := fun row opens => known_extends extended (accounted.opens row opens)
  spent := by
    intro token row name refresh published replaced
    obtain ⟨presents, later, held, id, used⟩ := accounted.spent token row name refresh published replaced
    obtain ⟨last, held', id', _, _, keeps⟩ := extended.tokens later held
    exact ⟨presents, last, held', id'.trans id, keeps name used⟩

theorem Rotating.headed (rotating : Rotating regime system) (record : RefreshTokenRow)
    (known : Known system.committed record) : ∃ leaf, Holds system.committed leaf ∧
      leaf.familyId = record.familyId ∧ leaf.replacedBy = none := by
  obtain ⟨row, held, _, _, family⟩ := known
  obtain ⟨rows, history⟩ := rotating.history row held
  obtain ⟨leaf, leaf_held, same, last⟩ := history.toFamilyPath.leaf
  exact ⟨leaf, leaf_held, same.trans family, last⟩

theorem rotating_init : Rotating regime (System.init : AuthSystem) where
  isolated := isolated_init
  scanning := fun _ member => absurd member List.not_mem_nil
  placed := fun _ member => absurd member List.not_mem_nil
  superseded := fun row held => absurd held (Table.not_mem_empty _)
  history := fun row held => absurd held (Table.not_mem_empty _)
  accounted := fun _ member => absurd member List.not_mem_nil
  once := by
    intro i j first second _ found
    simp [System.init] at found

/-- What a COMMIT of one session does, seen from outside. -/
theorem Rotating.commit_effect (rotating : Rotating regime system) {session : AuthSession}
    (member : session ∈ system.sessions) {next : Except Exn Unit → Service Response}
    (calls : session.program = .call .commit next) :
    Effect regime system.committed session.origin session.pending
        (Table.overlay system.committed session.pending) ∧
      ∀ user, Row.user user ∈ system.committed →
        Row.user user ∈ Table.overlay system.committed session.pending := by
  obtain ⟨phase, follows, placed⟩ := rotating.placed session member
  have scans : session.scan = none :=
    scan_eq_none (rotating.scanning session member) (by simp [calls])
  rw [Placed, scans] at placed
  rw [calls] at follows
  obtain ⟨later, allowed, _⟩ := follows (.ok ()) trivial
  exact ⟨effect_of_commit rotating.headed (rotating.isolated.consistent session member) placed.1 allowed,
    users_extend placed.1 allowed⟩

/-- A new request finds everything as it was. -/
private theorem rotating_arrives (request : Request) (rotating : Rotating regime system) :
    Rotating regime
      { system with sessions := system.sessions ++ [Session.fresh request (serve service request)] } := by
  have stepped : system.next driver (serve service) (.arrive request) =
      some { system with sessions := system.sessions ++ [Session.fresh request (serve service request)] } :=
    rfl
  have isolated := isolated_next rotating.isolated stepped
  have members : ∀ session ∈ system.sessions ++ [Session.fresh request (serve service request)],
      session ∈ system.sessions ∨ session = Session.fresh request (serve service request) := by
    intro session member
    exact (List.mem_append.mp member).imp_right List.mem_singleton.mp
  have silent : ∀ row, ¬ Opens (Session.fresh request (serve service request)) row :=
    fun row opens => absurd opens.2 List.not_mem_nil
  refine ⟨isolated, ?_, ?_, rotating.superseded, ?_, ?_, ?_⟩
  · intro session member
    rcases members session member with old | rfl
    · exact rotating.scanning session old
    · intro scan never
      cases never
  · intro session member
    rcases members session member with old | rfl
    · exact rotating.placed session old
    · exact ⟨.fresh, serve_follows service request, rfl, trivial⟩
  · intro row held
    obtain ⟨rows, path, ⟨session, member, opened⟩, alone⟩ := rotating.history row held
    refine ⟨rows, path, ⟨session, List.mem_append_left _ member, opened⟩, fun other there row opens => ?_⟩
    rcases members other there with old | rfl
    · exact alone other old row opens
    · exact absurd opens (silent row)
  · intro session member
    rcases members session member with old | rfl
    · exact rotating.accounted session old
    · exact ⟨fun row opens => absurd opens (silent row), fun _ _ _ _ never => absurd never List.not_mem_nil⟩
  · intro i j first second different found found' token other row spent name used refresh refresh' here there
    rcases getElem?_append_cases found with ⟨_, rfl⟩ | old
    · exact absurd here List.not_mem_nil
    · rcases getElem?_append_cases found' with ⟨_, rfl⟩ | old'
      · exact absurd there List.not_mem_nil
      · exact rotating.once i j first second different old old' token other row spent name used
          refresh refresh' here there

/-- One session has moved, and with it what is committed. -/
structure Moved (regime : Regime) (system : AuthSystem) (index : ℕ) (session later : AuthSession)
    (db' : Database) : Prop where
  found : system.sessions[index]? = some session
  origin : later.origin = session.origin
  extended : Extends system.committed db'
  effect : (db' = system.committed ∧ later.published = session.published) ∨
    (Effect regime system.committed session.origin session.pending db' ∧
      later.published = session.published ++ session.pending.rows)

theorem Rotating.moved {index : ℕ} {tick : World} {session later : AuthSession} {db' : Database}
    (rotating : Rotating regime system) (found : system.sessions[index]? = some session)
    (moves : Moves driver tick system.committed (system.sessions.eraseIdx index) session db' later) :
    Moved regime system index session later db' := by
  obtain ⟨origin, ⟨rfl, same⟩ | ⟨next, calls, _, _, rfl, grown⟩⟩ := moves_cases moves
  · exact ⟨found, origin, .refl _, .inl ⟨rfl, same⟩⟩
  · obtain ⟨effect, users⟩ := rotating.commit_effect (List.mem_of_getElem? found) calls
    exact ⟨found, origin, ⟨tokens_extend effect, users⟩, .inr ⟨effect, grown⟩⟩

section OneMoved

variable {index : ℕ} {session later : AuthSession} {db' : Database}

/-- A published row was published before or is one of this COMMIT. -/
theorem Moved.published (moved : Moved regime system index session later db') {row : Row}
    (here : row ∈ later.published) : row ∈ session.published ∨ (row ∈ session.pending ∧
      Effect regime system.committed session.origin session.pending db') := by
  rcases moved.effect with ⟨_, same⟩ | ⟨effect, grown⟩
  · rw [same] at here
    exact .inl here
  · rw [grown] at here
    exact (List.mem_append.mp here).imp_right fun pending => ⟨pending, effect⟩

theorem Moved.opens (moved : Moved regime system index session later db') {row : RefreshTokenRow}
    (opens : Opens session row) : Opens later row := by
  obtain ⟨⟨creds, login⟩, here⟩ := opens
  refine ⟨⟨creds, moved.origin.trans login⟩, ?_⟩
  rcases moved.effect with ⟨_, same⟩ | ⟨_, grown⟩
  · rwa [same]
  · rw [grown]
    exact List.mem_append_left _ here

theorem Moved.opened (moved : Moved regime system index session later db') {row : RefreshTokenRow}
    (opens : Opens later row) : Opens session row ∨ (Holds session.pending row ∧
      (∃ creds, session.origin = .login creds) ∧
      Effect regime system.committed session.origin session.pending db') := by
  obtain ⟨⟨creds, login⟩, here⟩ := opens
  have before := moved.origin.symm.trans login
  rcases moved.published here with old | ⟨pending, effect⟩
  · exact .inl ⟨⟨creds, before⟩, old⟩
  · exact .inr ⟨pending, ⟨creds, before⟩, effect⟩

/-- The sessions afterwards: the moved one and the others as they were. -/
theorem mem_moved {other : AuthSession} (member : other ∈ system.sessions.set index later) :
    other = later ∨ ∃ i : ℕ, i ≠ index ∧ system.sessions[i]? = some other := by
  obtain ⟨i, at_⟩ := List.getElem?_of_mem member
  rcases getElem?_set_cases at_ with ⟨_, rfl⟩ | ⟨different, old⟩
  · exact .inl rfl
  · exact .inr ⟨i, different, old⟩

theorem Moved.here (moved : Moved regime system index session later db') :
    later ∈ system.sessions.set index later :=
  List.mem_set (List.getElem?_eq_some_iff.mp moved.found).1 later

theorem Moved.member (moved : Moved regime system index session later db') :
    session ∈ system.sessions :=
  List.mem_of_getElem? moved.found

/-- What a session has opened it has opened afterwards. -/
theorem Moved.still_opened (moved : Moved regime system index session later db')
    {other : AuthSession} (member : other ∈ system.sessions) {row : RefreshTokenRow}
    (opens : Opens other row) : ∃ one ∈ system.sessions.set index later, Opens one row := by
  obtain ⟨i, at_⟩ := List.getElem?_of_mem member
  by_cases same : i = index
  · subst same
    rw [moved.found] at at_
    cases at_
    exact ⟨later, moved.here, moved.opens opens⟩
  · have stays : (system.sessions.set index later)[i]? = some other := by
      rw [List.getElem?_set_ne (Ne.symm same)]
      exact at_
    exact ⟨other, List.mem_of_getElem? stays, opens⟩

/-- A row that a login commits is the only one of its family. -/
private theorem opening_alone {row : RefreshTokenRow}
    (held : Holds session.pending row) (login : ∃ creds, session.origin = .login creds)
    (effect : Effect regime system.committed session.origin session.pending db') :
    Holds db' row ∧ ∀ old, Holds system.committed old → old.familyId ≠ row.familyId := by
  cases effect with
  | registered unwritten _ => exact absurd held (unwritten row)
  | opened first _ current written foreign members =>
    obtain rfl := (written row).mp held
    exact ⟨(members row).mpr (.inl rfl), foreign⟩
  | rotated leaf new revokedAt presented leaf_held last allowed owner family unrevoked current unused
      written members =>
    obtain ⟨creds, login⟩ := login
    obtain ⟨token, _, refresh, _⟩ := presented
    rw [refresh] at login
    cases login
  | revoked change outside changes written members =>
    obtain ⟨creds, login⟩ := login
    exact absurd login (outside creds)

theorem accounted_moved (rotating : Rotating regime system)
    (moved : Moved regime system index session later db') :
    ∀ other ∈ system.sessions.set index later, Accounted regime db' other := by
  intro other member
  rcases mem_moved member with rfl | ⟨i, _, at_⟩
  · have before := accounted_extends moved.extended (rotating.accounted session moved.member)
    refine ⟨fun row opens => ?_, fun token row name refresh here replaced => ?_⟩
    · rcases moved.opened opens with old | ⟨pending, login, effect⟩
      · exact before.opens row old
      · exact ⟨row, (opening_alone pending login effect).1, rfl, rfl, rfl⟩
    · have was := moved.origin.symm.trans refresh
      rcases moved.published here with old | ⟨pending, effect⟩
      · exact before.spent token row name was old replaced
      · obtain ⟨presents, held, _⟩ := spent_leaf effect rotating.superseded was pending replaced
        exact ⟨presents, row, held, rfl, replaced⟩
  · exact accounted_extends moved.extended (rotating.accounted other (List.mem_of_getElem? at_))

theorem history_moved (rotating : Rotating regime system)
    (moved : Moved regime system index session later db') (row : RefreshTokenRow)
    (held : Holds db' row) :
    ∃ rows, FamilyHistory ⟨db', system.sessions.set index later⟩ row.familyId rows := by
  -- a family that existed: the moved session has opened nothing in it
  have continues : ∀ old, Holds system.committed old → old.familyId = row.familyId →
      ∃ rows, FamilyHistory ⟨db', system.sessions.set index later⟩ row.familyId rows := by
    intro old old_held family
    obtain ⟨rows, path, ⟨opener, member, first, opens, head⟩, alone⟩ := rotating.history old old_held
    rw [family] at path alone
    have grown : ∃ grown, FamilyPath db' row.familyId grown ∧
        grown.head?.map (·.id) = rows.head?.map (·.id) := by
      rcases moved.effect with ⟨rfl, _⟩ | ⟨effect, _⟩
      · exact ⟨rows, path, rfl⟩
      · exact path_continues effect path
    obtain ⟨grown, grown_path, same⟩ := grown
    obtain ⟨one, there, opened⟩ := moved.still_opened member opens
    refine ⟨grown, grown_path, ⟨one, there, first, opened, same.trans head⟩, ?_⟩
    intro other other_member fresh other_opens fresh_family
    rw [same]
    rcases mem_moved other_member with rfl | ⟨i, _, at_⟩
    · rcases moved.opened other_opens with before | ⟨pending, login, effect⟩
      · exact alone session moved.member fresh before fresh_family
      · have foreign := (opening_alone pending login effect).2 old old_held
        exact absurd (family.trans fresh_family.symm) foreign
    · exact alone other (List.mem_of_getElem? at_) fresh other_opens fresh_family
  rcases moved.effect with ⟨rfl, _⟩ | ⟨effect, grown⟩
  · exact continues row held rfl
  · rcases family_of_held effect held with ⟨old, old_held, family⟩ |
      ⟨pending, ⟨creds, login⟩, path, only, foreign⟩
    · exact continues old old_held family
    · have opened : Opens later row :=
        ⟨⟨creds, moved.origin.trans login⟩, by rw [grown]; exact List.mem_append_right _ pending⟩
      have unknown : ∀ first, Known system.committed first → first.familyId ≠ row.familyId := by
        rintro first ⟨old, old_held, _, _, family⟩ same
        exact foreign old old_held (family.trans same)
      refine ⟨[row], path, ⟨later, moved.here, row, opened, rfl⟩, ?_⟩
      intro other other_member first opens family
      have same : first = row := by
        rcases mem_moved other_member with rfl | ⟨i, _, at_⟩
        · rcases moved.opened opens with before | ⟨own, _, _⟩
          · have known := (rotating.accounted session moved.member).opens first before
            exact absurd family (unknown first known)
          · exact only first own
        · have known := (rotating.accounted other (List.mem_of_getElem? at_)).opens first opens
          exact absurd family (unknown first known)
      rw [same]
      rfl

theorem once_moved (rotating : Rotating regime system)
    (moved : Moved regime system index session later db') :
    ∀ (i j : ℕ) (first second : AuthSession), i ≠ j →
      (system.sessions.set index later)[i]? = some first →
      (system.sessions.set index later)[j]? = some second → ∀ token other row spent name used,
      first.origin = .refresh token → second.origin = .refresh other →
      Row.refreshToken row ∈ first.published → Row.refreshToken spent ∈ second.published →
      row.replacedBy = some name → spent.replacedBy = some used → row.id ≠ spent.id := by
  -- what the moved session spends now no other session has spent before
  have fresh : ∀ (j : ℕ) (second : AuthSession), index ≠ j → system.sessions[j]? = some second →
      ∀ token other row spent name used, session.origin = .refresh token →
      second.origin = .refresh other → Row.refreshToken row ∈ later.published →
      Row.refreshToken spent ∈ second.published → row.replacedBy = some name →
      spent.replacedBy = some used → row.id ≠ spent.id := by
    intro j second different found token other row spent name used refresh refresh' here there replaced
      replaced' same
    rcases moved.published here with old | ⟨pending, effect⟩
    · exact rotating.once index j session second different moved.found found token other row spent
        name used refresh refresh' old there replaced replaced' same
    · obtain ⟨_, _, leaf, held, id, last⟩ :=
        spent_leaf effect rotating.superseded refresh pending replaced
      obtain ⟨_, known, known_held, known_id, known_used⟩ :=
        (rotating.accounted second (List.mem_of_getElem? found)).spent other spent used refresh' there
          replaced'
      have one : Row.refreshToken leaf = .refreshToken known := Table.eq_of_key held known_held
        (congrArg Key.refreshToken (id.trans (same.trans known_id.symm)))
      cases one
      rw [last] at known_used
      cases known_used
  intro i j first second different found found' token other row spent name used refresh refresh' here
    there replaced replaced'
  rcases getElem?_set_cases found with ⟨rfl, rfl⟩ | ⟨_, old⟩
  · rcases getElem?_set_cases found' with ⟨rfl, _⟩ | ⟨_, old'⟩
    · exact absurd rfl different
    · exact fresh j second different old' token other row spent name used
        (moved.origin.symm.trans refresh) refresh' here there replaced replaced'
  · rcases getElem?_set_cases found' with ⟨rfl, rfl⟩ | ⟨_, old'⟩
    · intro same
      exact fresh i first (Ne.symm different) old other token spent row used name
        (moved.origin.symm.trans refresh') refresh there here replaced' replaced same.symm
    · exact rotating.once i j first second different old old' token other row spent name used
        refresh refresh' here there replaced replaced'

theorem superseded_moved (rotating : Rotating regime system)
    (moved : Moved regime system index session later db') : Superseded db' := by
  rcases moved.effect with ⟨rfl, _⟩ | ⟨effect, _⟩
  · exact rotating.superseded
  · exact superseded_effect effect rotating.superseded

end OneMoved

/-- **The invariant of rotation.** Every action of a lawful run keeps it. -/
theorem rotating_next (rotating : Rotating regime system) (lawful : Lawful regime system action)
    (lasting : regime.final → ∀ familyId, Dead system.committed familyId →
      Dead after.committed familyId)
    (stepped : system.next driver (serve service) action = some after) :
    Rotating regime after := by
  have isolated := isolated_next rotating.isolated stepped
  rcases next_cases stepped with ⟨request, rfl, rfl⟩ |
    ⟨index, tick, session, committed, later, rfl, found, moves, rfl⟩
  · exact rotating_arrives request rotating
  · have moved := rotating.moved found moves
    refine ⟨isolated, ?_, ?_, superseded_moved rotating moved, history_moved rotating moved,
      accounted_moved rotating moved, once_moved rotating moved⟩
    · intro other member
      rcases mem_moved member with rfl | ⟨i, _, at_⟩
      · exact moves_scanning (rotating.scanning session moved.member) moves
      · exact rotating.scanning other (List.mem_of_getElem? at_)
    · intro other member
      rcases mem_moved member with rfl | ⟨i, different, at_⟩
      · obtain ⟨phase, follows, placed⟩ := rotating.placed session moved.member
        exact placed_moves (rotating.isolated.consistent session moved.member)
          (rotating.scanning session moved.member) rotating.headed (lawful session found)
          moved.extended lasting follows placed moves
      · obtain ⟨phase, follows, placed⟩ := rotating.placed other (List.mem_of_getElem? at_)
        have apart := rotating.isolated.apart index i session other (Ne.symm different) found at_
        have kept : Keeps system.committed committed other.pending :=
          fun own written row same => moves_kept moves apart written same
        exact ⟨phase, follows, placed_kept moved.extended kept lasting placed⟩

/-- The regime of a run of which nothing is assumed but what its tokens verify as. -/
def anyRun (decodes : Str → Claims → Prop) : Regime :=
  ⟨decodes, fun _ => True, fun _ => True, fun _ => True, False⟩

/-- The token string has verified in this run with these claims. -/
def Verified (actions : List AuthAction) (token : Str) (claims : Claims) : Prop :=
  ∃ index tick, Action.step index tick ∈ actions ∧ tick.answer (.verify token) = .ok claims

theorem rotating_run {actions : List AuthAction} {decodes : Str → Claims → Prop}
    (verified : ∀ token claims, Verified actions token claims → decodes token claims)
    (start : Rotating (anyRun decodes) system)
    (ran : system.run driver (serve service) actions = some after) :
    Rotating (anyRun decodes) after := by
  apply run_invariant (fun _ _ _ holds lawful stepped =>
    rotating_next holds lawful (fun never => False.elim never) stepped) start _ ran
  apply along_of_forall
  intro system action member
  cases action with
  | arrive request => trivial
  | step index tick =>
    intro session _
    refine ⟨fun token _ claims _ answer => verified token claims ⟨index, tick, member, answer⟩,
      fun _ _ _ => trivial, fun _ _ _ _ _ => trivial, fun _ _ _ _ _ => .inl trivial,
      fun _ _ _ _ _ _ _ _ _ _ _ => trivial, fun never => False.elim never⟩

/-- The session is a refresh that has committed the exchange of this row. -/
def Spends (session : AuthSession) (row : RefreshTokenRow) : Prop :=
  (∃ token, session.origin = .refresh token) ∧ Row.refreshToken row ∈ session.published ∧
    row.replacedBy ≠ none

/-- A refresh that returns tokens has committed an exchange. -/
theorem spends_of_returned (rotating : Rotating regime system) {session : AuthSession}
    (member : session ∈ system.sessions) {token : Str} (refresh : session.origin = .refresh token)
    {response : Response} (returned : session.program = .ret response) :
    ∃ row, Spends session row := by
  obtain ⟨phase, follows, placed⟩ := rotating.placed session member
  rw [returned] at follows
  have finished : concluded session.origin phase = true := follows
  rw [refresh] at finished
  have scans : session.scan = none :=
    scan_eq_none (rotating.scanning session member) (by simp [returned])
  rw [Placed, scans] at placed
  cases phase with
  | exchanged =>
    obtain ⟨_, row, name, here, replaced⟩ := placed.1
    refine ⟨row, ⟨token, refresh⟩, here, ?_⟩
    rw [replaced]
    exact fun never => by cases never
  | _ => cases finished

/-- What holds in every state of the service: a family is one path, replaced rows
are revoked and stay replaced by the same row, and a token is exchanged once. -/
structure SingleSuccessor (service : AuthService) (actions : List AuthAction)
    (system : AuthSystem) : Prop where
  path : ∀ row, Holds system.committed row → ∃ rows, FamilyHistory system row.familyId rows
  successor : ∀ row name, Holds system.committed row → row.replacedBy = some name →
    ∃ next, Holds system.committed next ∧ next.id = name ∧ next.familyId = row.familyId ∧
      next.userId = row.userId
  revoked : Superseded system.committed
  permanent : ∀ more later, system.run driver (serve service) more = some later →
    ∀ row name, Holds system.committed row → row.replacedBy = some name →
      ∃ kept, Holds later.committed kept ∧ kept.id = row.id ∧ kept.replacedBy = some name
  returned : ∀ session ∈ system.sessions, ∀ token response, session.origin = .refresh token →
    session.program = .ret response → ∃ row, Spends session row
  once : ∀ (i j : ℕ) (first second : AuthSession) (row spent : RefreshTokenRow),
    system.sessions[i]? = some first → system.sessions[j]? = some second →
    Spends first row → Spends second spent → row.id = spent.id → i = j
  exchanged_once : ∀ token, (∀ claims other, Verified actions token claims →
      Verified actions token other → named claims = named other) →
    ∀ (i j : ℕ) (first second : AuthSession) (row spent : RefreshTokenRow),
      system.sessions[i]? = some first → system.sessions[j]? = some second →
      first.origin = .refresh token → second.origin = .refresh token →
      Spends first row → Spends second spent → i = j

/-- A replaced row stays replaced by the same row, whatever the further ticks answer. -/
theorem replaced_stays (rotating : Rotating (anyRun fun _ _ => True) system)
    {more : List AuthAction} {later : AuthSystem} {row : RefreshTokenRow} {name : UUID}
    (held : Holds system.committed row) (replaced : row.replacedBy = some name)
    (ran : system.run driver (serve service) more = some later) :
    ∃ kept, Holds later.committed kept ∧ kept.id = row.id ∧ kept.replacedBy = some name := by
  have keeps : ∀ before action after, (Rotating (anyRun fun _ _ => True) before ∧
      ∃ kept, Holds before.committed kept ∧ kept.id = row.id ∧ kept.replacedBy = some name) →
      True → before.next driver (serve service) action = some after →
      (Rotating (anyRun fun _ _ => True) after ∧
      ∃ kept, Holds after.committed kept ∧ kept.id = row.id ∧ kept.replacedBy = some name) := by
    rintro before action after ⟨holds, kept, kept_held, id, same⟩ _ stepped
    refine ⟨rotating_run (fun _ _ _ => trivial) holds
      (show before.run driver (serve service) [action] = some after from ?_), ?_⟩
    · simp [System.run, stepped]
    · rcases next_cases stepped with ⟨request, _, rfl⟩ |
        ⟨index, tick, session, committed, moved, _, found, moves, rfl⟩
      · exact ⟨kept, kept_held, id, same⟩
      · obtain ⟨last, there, id', _, _, still⟩ :=
          (holds.moved found moves).extended.tokens kept kept_held
        exact ⟨last, there, id'.trans id, still name same⟩
  exact (run_invariant keeps ⟨rotating, row, held, rfl, replaced⟩
    (along_of_forall (fun _ _ _ => trivial) system) ran).2

/-- Two sessions that have exchanged one token are one session. -/
theorem spends_once (rotating : Rotating regime system) {i j : ℕ} {first second : AuthSession}
    {row spent : RefreshTokenRow} (found : system.sessions[i]? = some first)
    (found' : system.sessions[j]? = some second) (spends : Spends first row)
    (spends' : Spends second spent) (same : row.id = spent.id) : i = j := by
  obtain ⟨⟨token, refresh⟩, here, replaced⟩ := spends
  obtain ⟨⟨other, refresh'⟩, there, replaced'⟩ := spends'
  obtain ⟨name, replaced⟩ := Option.ne_none_iff_exists'.mp replaced
  obtain ⟨used, replaced'⟩ := Option.ne_none_iff_exists'.mp replaced'
  by_contra different
  exact rotating.once i j first second different found found' token other row spent name used
    refresh refresh' here there replaced replaced' same

/-- A session exchanges the token that it was presented. -/
theorem spends_presented (rotating : Rotating (anyRun (Verified actions)) system) {session : AuthSession}
    {token : Str} {row : RefreshTokenRow} (member : session ∈ system.sessions)
    (origin : session.origin = .refresh token) (spends : Spends session row) :
    ∃ claims, Verified actions token claims ∧ named claims = some row.id := by
  obtain ⟨_, here, replaced⟩ := spends
  obtain ⟨name, replaced⟩ := Option.ne_none_iff_exists'.mp replaced
  exact ((rotating.accounted session member).spent token row name origin here replaced).1

/-- **Every token has one successor.** From the empty store, through any
interleaving of the statements of any number of requests and any failures. -/
theorem tokens_have_one_successor (service : AuthService) (actions : List AuthAction)
    (system : AuthSystem)
    (reached : System.init.run driver (serve service) actions = some system) :
    SingleSuccessor service actions system := by
  have rotating : Rotating (anyRun (Verified actions)) system :=
    rotating_run (fun _ _ verified => verified) rotating_init reached
  constructor
  · exact rotating.history
  · intro row name held replaced
    obtain ⟨rows, history⟩ := rotating.history row held
    exact history.toFamilyPath.successor held rfl replaced
  · exact rotating.superseded
  · intro more later ran row name held replaced
    exact replaced_stays (rotating_run (fun _ _ _ => trivial) rotating_init reached) held replaced ran
  · intro session member token response refresh returned
    exact spends_of_returned rotating member refresh returned
  · intro i j first second row spent found found' spends spends' same
    exact spends_once rotating found found' spends spends' same
  · intro token same i j first second row spent found found' refresh refresh' spends spends'
    obtain ⟨claims, verified, names⟩ :=
      spends_presented rotating (List.mem_of_getElem? found) refresh spends
    obtain ⟨other, verified', names'⟩ :=
      spends_presented rotating (List.mem_of_getElem? found') refresh' spends'
    apply spends_once rotating found found' spends spends'
    have agree := same claims other verified verified'
    rw [names, names'] at agree
    exact Option.some.inj agree

/-- Two refreshes that have both read the token; the second waits for the first,
replaces its row again and fails on the family's index. -/
def racingRefreshes : List AuthAction :=
  sampleLogin ++ [.arrive (.refresh (str "token")), .arrive (.refresh (str "token"))] ++
    sampleSteps 2 14 30 7 ++ sampleSteps 3 14 40 7 ++ sampleSteps 2 14 50 9 ++
    sampleSteps 3 14 60 9

theorem racing_refreshes_have_one_successor : ∃ system,
    System.init.run driver (serve {}) racingRefreshes = some system ∧
      system.committed.rows.length = 3 ∧ SingleSuccessor {} racingRefreshes system :=
  ⟨(System.init.run driver (serve {}) racingRefreshes).get (by decide +kernel),
    (Option.some_get _).symm, by decide +kernel,
    tokens_have_one_successor {} racingRefreshes _ (Option.some_get _).symm⟩

end Runs

end BackendFoundation.AuthRotation
