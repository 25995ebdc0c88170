import BackendFoundation.AuthRotation
import BackendFoundation.AuthAtomicity
import BackendFoundation.TokenFamilies

/-! The tables of the auth service as the state of the family machine: every
family is a path of rows that bear its tokens, and it is dead when its last row
is revoked. What the statements of a request do to the tables is what an event
does to the machine. -/
namespace BackendFoundation.FamilySimulation
open PythonValues KeyedTables ReadCommitted LinkedChains TokenFamilies
open AuthPersistence AuthPrograms AuthSpecs AuthAtomicity AuthDiscipline AuthRotation

/-- What the service relies on its ports for: a string verifies with the claims
it was signed with, and among the strings in use only one fits a hash. -/
structure Ports where
  carried : Str → Claims
  wellFormed : ∀ text, ¬ Malformed (carried text)
  used : Str → Prop
  fits : Str → Str → Bool
  sound : ∀ first second hash, used first → used second → fits first hash = true →
    fits second hash = true → first = second

/-- The token that claims name, if they are those of a refresh token. -/
def tokenNamed (claims : Claims) : Option UUID :=
  if (claims.get "typ").isStr (str "refresh") then named claims else none

/-- The row is the one of this token. -/
structure Bears (ports : Ports) (row : RefreshTokenRow) (token : Token) : Prop where
  id : row.id = token.id
  expiresAt : row.expiresAt = token.expiresAt
  used : ports.used token.text
  fits : ports.fits token.text row.hash = true
  carried : tokenNamed (ports.carried token.text) = some token.id

/-- The row is the one of this account. -/
structure Stands (ports : Ports) (row : UserRow) (account : Account) : Prop where
  id : row.id = account.id
  email : row.email = account.email
  disabled : row.disabled = account.disabled
  used : ports.used account.password
  fits : ports.fits account.password row.passwordHash = true

/-- The rows of a family: those that bear its spent tokens, and the last. -/
structure Represents (ports : Ports) (db : Database) (family : Family)
    (inner : List RefreshTokenRow) (last : RefreshTokenRow) : Prop where
  path : FamilyPath db family.id (inner ++ [last])
  spent : List.Forall₂ (Bears ports) inner family.spent
  newest : Bears ports last family.newest
  owner : last.userId = family.owner
  revoked : ∀ row ∈ inner, row.revokedAt ≠ none
  dead : family.dead = true ↔ last.revokedAt ≠ none

/-- The tables stand for a state of the machine. -/
structure Simulates (ports : Ports) (db : Database) (machine : Machine) : Prop where
  storable : ∀ row, Row.user row ∈ db → fits255 row.email = true
  accounts : ∀ row, Row.user row ∈ db → ∃ account ∈ machine.accounts, Stands ports row account
  users : ∀ account ∈ machine.accounts, ∃ row, Row.user row ∈ db ∧ Stands ports row account
  families : ∀ family ∈ machine.families, ∃ inner last, Represents ports db family inner last
  covered : ∀ row, Holds db row → ∃ family ∈ machine.families, family.id = row.familyId

theorem simulates_init (ports : Ports) : Simulates ports (Table.empty schema) Machine.init where
  storable := fun _ here => absurd here (Table.not_mem_empty _)
  accounts := fun _ here => absurd here (Table.not_mem_empty _)
  users := fun _ member => absurd member List.not_mem_nil
  families := fun _ member => absurd member List.not_mem_nil
  covered := fun _ here => absurd here (Table.not_mem_empty _)

/-- A password fits the stored hash when it is the account's. -/
theorem Stands.fits_iff {ports : Ports} {row : UserRow} {account : Account} {password : Str}
    (stands : Stands ports row account) (used : ports.used password) :
    ports.fits password row.passwordHash = true ↔ account.password = password := by
  constructor
  · intro fits
    exact ports.sound _ _ _ stands.used used stands.fits fits
  · rintro rfl
    exact stands.fits

/-- Related lists: every element has one that it is related to. -/
private theorem exists_of_mem {α β : Type} {related : α → β → Prop} {items : List α}
    {others : List β} (all : List.Forall₂ related items others) {item : α} (member : item ∈ items) :
    ∃ other ∈ others, related item other := by
  induction all with
  | nil => exact absurd member List.not_mem_nil
  | cons first _ ih =>
    rcases List.mem_cons.mp member with rfl | inside
    · exact ⟨_, List.mem_cons_self, first⟩
    · obtain ⟨other, here, same⟩ := ih inside
      exact ⟨other, List.mem_cons_of_mem _ here, same⟩

section Families

variable {ports : Ports} {db after : Database} {family : Family} {inner : List RefreshTokenRow}
variable {last row : RefreshTokenRow} {shown : Shown}

theorem Represents.ends (represents : Represents ports db family inner last) :
    last.replacedBy = none ∧ ∀ row ∈ inner, row.replacedBy ≠ none := by
  obtain ⟨init, other, same, ended, inside⟩ := linked_split represents.path.linked
  obtain ⟨rfl, rest⟩ := List.append_inj' same rfl
  cases rest
  refine ⟨ended, fun row member free => ?_⟩
  have named := inside row member
  rw [free] at named
  cases named

theorem Represents.last_held (represents : Represents ports db family inner last) :
    Holds db last ∧ last.familyId = family.id :=
  (represents.path.complete last).mp (List.mem_append_right _ List.mem_cons_self)

theorem Represents.inner_held (represents : Represents ports db family inner last)
    (member : row ∈ inner) : Holds db row ∧ row.familyId = family.id :=
  (represents.path.complete row).mp (List.mem_append_left _ member)

/-- A row of the family is its last, or one that has been replaced. -/
theorem Represents.cases (represents : Represents ports db family inner last) (held : Holds db row)
    (same : row.familyId = family.id) : row ∈ inner ∨ row = last := by
  have member := (represents.path.complete row).mpr ⟨held, same⟩
  exact (List.mem_append.mp member).imp_right List.mem_singleton.mp

/-- A shown string that is a spent token is borne by a replaced row. -/
theorem Represents.spends_row (represents : Represents ports db family inner last)
    (spends : family.spends shown = true) :
    ∃ row ∈ inner, shown.names = some row.id ∧ ports.fits shown.text row.hash = true := by
  obtain ⟨token, member, is_⟩ := List.any_eq_true.mp spends
  obtain ⟨row, here, bears⟩ := exists_of_mem represents.spent.flip member
  simp only [Shown.is, Bool.and_eq_true, beq_iff_eq] at is_
  refine ⟨row, here, is_.1.trans (congrArg some bears.id.symm), ?_⟩
  rw [is_.2]
  exact bears.fits

theorem Represents.newest_row (represents : Represents ports db family inner last)
    (is_ : shown.is family.newest = true) :
    shown.names = some last.id ∧ ports.fits shown.text last.hash = true := by
  simp only [Shown.is, Bool.and_eq_true, beq_iff_eq] at is_
  refine ⟨is_.1.trans (congrArg some represents.newest.id.symm), ?_⟩
  rw [is_.2]
  exact represents.newest.fits

/-- The row that a request has looked up by the claims of the shown string and
whose hash the string fits. -/
structure Located (ports : Ports) (db : Database) (shown : Shown) (record : RefreshTokenRow) :
    Prop where
  held : Holds db record
  names : shown.names = some record.id
  used : ports.used shown.text
  fits : ports.fits shown.text record.hash = true

variable {record : RefreshTokenRow}

theorem Located.is (located : Located ports db shown record) {token : Token}
    (bears : Bears ports record token) : shown.is token = true := by
  have text := ports.sound shown.text token.text record.hash located.used bears.used located.fits
    bears.fits
  simp [Shown.is, located.names, bears.id, text]

/-- The only row with the shown id is the record. -/
theorem Located.unique (located : Located ports db shown record) (held : Holds db row)
    (names : shown.names = some row.id) : row = record := by
  have same : record.id = row.id := Option.some.inj (located.names.symm.trans names)
  exact Row.refreshToken.inj (Table.eq_of_key held located.held (congrArg Key.refreshToken same.symm))

/-- The shown string is a spent token of the record's family if the record has
been replaced, and of no family otherwise. -/
theorem Located.spends_iff (located : Located ports db shown record)
    (represents : Represents ports db family inner last) :
    family.spends shown = true ↔ record.familyId = family.id ∧ record.replacedBy ≠ none := by
  constructor
  · intro spends
    obtain ⟨row, member, names, _⟩ := represents.spends_row spends
    obtain ⟨held, same⟩ := represents.inner_held member
    obtain rfl := located.unique held names
    exact ⟨same, represents.ends.2 row member⟩
  · rintro ⟨same, replaced⟩
    rcases represents.cases located.held same with member | rfl
    · obtain ⟨token, here, bears⟩ := exists_of_mem represents.spent member
      exact List.any_eq_true.mpr ⟨token, here, located.is bears⟩
    · exact absurd represents.ends.1 replaced

theorem Located.newest_iff (located : Located ports db shown record)
    (represents : Represents ports db family inner last) :
    shown.is family.newest = true ↔ record.familyId = family.id ∧ record.replacedBy = none := by
  constructor
  · intro is_
    obtain ⟨held, same⟩ := represents.last_held
    obtain rfl := located.unique held (represents.newest_row is_).1
    exact ⟨same, represents.ends.1⟩
  · rintro ⟨same, last_⟩
    rcases represents.cases located.held same with member | rfl
    · exact absurd last_ (represents.ends.2 record member)
    · exact located.is represents.newest

/-- The shown string can be exchanged when its record is an unexpired last row
that is not revoked. -/
theorem Located.exchanges_iff {now : DateTime} (located : Located ports db shown record)
    (represents : Represents ports db family inner last) :
    family.exchanges shown now = true ↔ record.familyId = family.id ∧ record.replacedBy = none ∧
      record.revokedAt = none ∧ now ≤ record.expiresAt := by
  have live : family.dead = false ↔ last.revokedAt = none := by
    rw [← Bool.not_eq_true, represents.dead, not_not]
  simp only [Family.exchanges, Bool.and_eq_true, Bool.not_eq_true', decide_eq_true_eq,
    located.newest_iff represents, live, ← represents.newest.expiresAt]
  constructor
  · rintro ⟨⟨⟨own, free⟩, unrevoked⟩, unexpired⟩
    rcases represents.cases located.held own with inside | rfl
    · exact absurd free (represents.ends.2 record inside)
    · exact ⟨own, free, unrevoked, unexpired⟩
  · rintro ⟨own, free, unrevoked, unexpired⟩
    rcases represents.cases located.held own with inside | rfl
    · exact absurd free (represents.ends.2 record inside)
    · exact ⟨⟨⟨own, free⟩, unrevoked⟩, unexpired⟩

/-- The owner of the record's family. -/
theorem Represents.owner_of (represents : Represents ports db family inner last)
    (held : Holds db record) (own : record.familyId = family.id) : family.owner = record.userId := by
  have there := (represents.path.complete record).mpr ⟨held, own⟩
  rw [← represents.owner]
  exact represents.path.owner last (List.mem_append_right _ List.mem_cons_self) record there

end Families

/-! ## What a COMMIT does to a family -/

section Changes

variable {ports : Ports} {db after : Database} {family : Family} {inner : List RefreshTokenRow}
variable {last row : RefreshTokenRow}

theorem Represents.congr (represents : Represents ports db family inner last)
    (same : ∀ row, row.familyId = family.id → (Holds after row ↔ Holds db row)) :
    Represents ports after family inner last :=
  { represents with path := represents.path.congr same }

/-- Revocations leave the tokens of a family as they are. -/
theorem Represents.revoke (represents : Represents ports db family inner last)
    (change : RefreshTokenRow → RefreshTokenRow)
    (revokes : ∀ row, change row = row ∨ ∃ revokedAt, change row = markRevoked revokedAt row)
    (members : ∀ other, Holds after other ↔ ∃ old, Holds db old ∧ other = change old) (dead : Bool)
    (ends : dead = true ↔ (change last).revokedAt ≠ none) :
    Represents ports after { family with dead } (inner.map change) (change last) := by
  have bears : ∀ row token, Bears ports row token → Bears ports (change row) token := by
    intro row token bears
    rcases revokes row with same | ⟨revokedAt, same⟩
    · rw [same]
      exact bears
    · rw [same]
      exact { bears with }
  have keeps : ∀ row, Holds db row → (change row).id = row.id ∧ (change row).userId = row.userId ∧
      (change row).familyId = row.familyId ∧ (change row).replacedBy = row.replacedBy := by
    intro row _
    rcases revokes row with same | ⟨revokedAt, same⟩
    · simp [same]
    · simp [same, markRevoked]
  refine ⟨?_, ?_, bears last _ represents.newest, ?_, ?_, ends⟩
  · have path := represents.path.map change keeps members
    simpa using path
  · exact List.forall₂_map_left_iff.mpr (represents.spent.imp bears)
  · rw [(keeps last represents.last_held.1).2.1]
    exact represents.owner
  · intro row member
    obtain ⟨old, here, rfl⟩ := List.mem_map.mp member
    rcases revokes old with same | ⟨revokedAt, same⟩
    · rw [same]
      exact represents.revoked old here
    · simp [same, markRevoked]

/-- The last row is exchanged for a new one. -/
theorem Represents.exchange {revokedAt : DateTime} {token : Token}
    (represents : Represents ports db family inner last) (alive : family.dead = false)
    (bears : Bears ports row token) (owner : row.userId = last.userId)
    (same : row.familyId = last.familyId) (current : row.replacedBy = none)
    (unrevoked : row.revokedAt = none) (unused : ∀ old, Holds db old → old.id ≠ row.id)
    (members : ∀ other, Holds after other ↔ other = row ∨
      other = markReplaced row.id revokedAt last ∨ (Holds db other ∧ other.id ≠ last.id)) :
    Represents ports after (family.extend token) (inner ++ [markReplaced row.id revokedAt last]) row := by
  refine ⟨?_, ?_, bears, owner.trans represents.owner, ?_, ?_⟩
  · have path := represents.path.extend owner same current unused members
    simpa [Family.extend] using path
  · have spent : Bears ports (markReplaced row.id revokedAt last) family.newest :=
      { represents.newest with }
    exact List.rel_append represents.spent (.cons spent .nil)
  · intro old member
    rcases List.mem_append.mp member with inside | here
    · exact represents.revoked old inside
    · rw [List.mem_singleton.mp here]
      simp [markReplaced]
  · simp [Family.extend, alive, unrevoked]

/-- A login's row is the first of a new family. -/
theorem represents_opened {token : Token} {familyId owner : UUID} (bears : Bears ports row token)
    (owns : row.userId = owner) (same : row.familyId = familyId) (current : row.replacedBy = none)
    (unrevoked : row.revokedAt = none) (foreign : ∀ old, Holds db old → old.familyId ≠ familyId)
    (members : ∀ other, Holds after other ↔ other = row ∨ Holds db other) :
    Represents ports after ⟨familyId, owner, [], token, false⟩ [] row := by
  refine ⟨⟨fun other => ?_, List.nodup_singleton _, current, ?_⟩, .nil, bears, owns, ?_, ?_⟩
  · rw [List.nil_append, List.mem_singleton, members]
    constructor
    · rintro rfl
      exact ⟨.inl rfl, same⟩
    · rintro ⟨here | held, family⟩
      · exact here
      · exact absurd family (foreign other held)
  · intro first here second there
    rw [List.mem_singleton.mp here, List.mem_singleton.mp there]
  · exact fun _ never => absurd never List.not_mem_nil
  · simp [unrevoked]

end Changes

/-! ## What a COMMIT does to the machine's state -/

section States

variable {ports : Ports} {db after : Database} {machine : Machine} {row : RefreshTokenRow}

theorem Simulates.enabled_iff (simulates : Simulates ports db machine) {userId : UUID} :
    machine.enabled userId = true ↔ ∃ user, user? db userId = some user ∧ user.disabled = false := by
  simp only [Machine.enabled, List.any_eq_true, Bool.and_eq_true, beq_iff_eq, Bool.not_eq_true']
  constructor
  · rintro ⟨account, member, rfl, enabled⟩
    obtain ⟨user, held, stands⟩ := simulates.users account member
    exact ⟨user, user?_eq_some.mpr ⟨held, stands.id⟩, stands.disabled.trans enabled⟩
  · rintro ⟨user, found, enabled⟩
    obtain ⟨held, rfl⟩ := user?_eq_some.mp found
    obtain ⟨account, member, stands⟩ := simulates.accounts user held
    exact ⟨account, member, stands.id.symm, stands.disabled.symm.trans enabled⟩

/-- A row that is not revoked has not been replaced: it is the only such row of
its family. -/
theorem Simulates.current_iff (simulates : Simulates ports db machine) (held : Holds db row)
    (unrevoked : row.revokedAt = none) {other : RefreshTokenRow} (there : Holds db other)
    (same : other.familyId = row.familyId) : other.replacedBy = none ↔ other = row := by
  obtain ⟨family, member, own⟩ := simulates.covered row held
  obtain ⟨inner, last, represents⟩ := simulates.families family member
  have is_last : row = last := by
    rcases represents.cases held own.symm with inside | is_
    · exact absurd unrevoked (represents.revoked row inside)
    · exact is_
  subst is_last
  constructor
  · intro free
    rcases represents.cases there (same.trans own.symm) with inside | is_
    · exact absurd free (represents.ends.2 other inside)
    · exact is_
  · rintro rfl
    exact represents.ends.1

/-- The deferred foreign key holds in the tables of a state. -/
theorem Simulates.pathed (simulates : Simulates ports db machine) : Pathed db := by
  intro row held
  obtain ⟨family, member, same⟩ := simulates.covered row held
  obtain ⟨inner, last, represents⟩ := simulates.families family member
  exact ⟨_, same ▸ represents.path⟩

/-- The account with an email is the one of the user with that email. -/
theorem Simulates.account?_of_user (simulates : Simulates ports db machine) (clean : db.ClashFree)
    {user : UserRow} (held : Row.user user ∈ db) :
    ∃ account, machine.account? user.email = some account ∧ Stands ports user account := by
  obtain ⟨known, member, knows⟩ := simulates.accounts user held
  cases found : machine.account? user.email with
  | none =>
    have missing := List.find?_eq_none.mp found known member
    simp [knows.email] at missing
  | some account =>
    have email : account.email = user.email := by simpa using List.find?_some found
    obtain ⟨row, row_held, stands⟩ := simulates.users account (List.mem_of_find?_eq_some found)
    have clash : Row.clash (.user row) (.user user) = true := by
      simp [Row.clash, stands.email, email]
    have one : Row.user row = .user user :=
      Table.eq_of_key row_held held (clean _ row_held _ held clash)
    cases one
    exact ⟨account, rfl, stands⟩

theorem Simulates.account?_eq_none (simulates : Simulates ports db machine) {email : Str}
    (free : ∀ user, Row.user user ∈ db → user.email ≠ email) : machine.account? email = none := by
  refine List.find?_eq_none.mpr fun account member => ?_
  obtain ⟨row, held, stands⟩ := simulates.users account member
  simpa [← stands.email] using free row held

/-- Only tokens change. -/
private theorem Simulates.of_families (simulates : Simulates ports db machine)
    {families : List Family}
    (users : ∀ user, Row.user user ∈ after ↔ Row.user user ∈ db)
    (represented : ∀ family ∈ families, ∃ inner last, Represents ports after family inner last)
    (covered : ∀ row, Holds after row → ∃ family ∈ families, family.id = row.familyId) :
    Simulates ports after { machine with families } where
  storable := fun row member => simulates.storable row ((users row).mp member)
  accounts := fun row member => simulates.accounts row ((users row).mp member)
  users := fun account member => (simulates.users account member).imp fun row stands =>
    ⟨(users row).mpr stands.1, stands.2⟩
  families := represented
  covered := covered

theorem Simulates.registered (simulates : Simulates ports db machine) {user : UserRow}
    {account : Account} (stands : Stands ports user account)
    (storable : fits255 user.email = true)
    (members : ∀ other, other ∈ after ↔ other = .user user ∨ other ∈ db) :
    Simulates ports after { machine with accounts := machine.accounts ++ [account] } where
  storable := by
    intro row member
    rcases (members _).mp member with same | held
    · rw [Row.user.inj same]
      exact storable
    · exact simulates.storable row held
  accounts := by
    intro row member
    rcases (members _).mp member with same | held
    · rw [Row.user.inj same]
      exact ⟨account, List.mem_append_right _ List.mem_cons_self, stands⟩
    · obtain ⟨known, here, knows⟩ := simulates.accounts row held
      exact ⟨known, List.mem_append_left _ here, knows⟩
  users := by
    intro known member
    rcases List.mem_append.mp member with old | new
    · obtain ⟨row, held, knows⟩ := simulates.users known old
      exact ⟨row, (members _).mpr (.inr held), knows⟩
    · rw [List.mem_singleton.mp new]
      exact ⟨user, (members _).mpr (.inl rfl), stands⟩
  families := by
    intro family member
    obtain ⟨inner, last, represents⟩ := simulates.families family member
    refine ⟨inner, last, represents.congr fun row _ => ?_⟩
    rw [Holds, members]
    exact or_iff_right (fun never => by cases never)
  covered := by
    intro row held
    exact simulates.covered row (((members _).mp held).resolve_left fun never => by cases never)

theorem Simulates.opened (simulates : Simulates ports db machine) {token : Token} {owner : UUID}
    (bears : Bears ports row token) (owns : row.userId = owner)
    (current : row.replacedBy = none) (unrevoked : row.revokedAt = none)
    (foreign : ∀ old, Holds db old → old.familyId ≠ row.familyId) (inserted : Inserted db after row) :
    Simulates ports after { machine with
      families := machine.families ++ [⟨row.familyId, owner, [], token, false⟩] } := by
  have members : ∀ other, Holds after other ↔ other = row ∨ Holds db other := by
    intro other
    rw [Holds, inserted, Row.refreshToken.injEq]
  apply simulates.of_families
  · intro user
    rw [inserted]
    exact or_iff_right (fun never => by cases never)
  · intro family member
    rcases List.mem_append.mp member with old | new
    · obtain ⟨inner, last, represents⟩ := simulates.families family old
      refine ⟨inner, last, represents.congr fun other same => ?_⟩
      obtain ⟨last_held, last_same⟩ := represents.last_held
      rw [members]
      apply or_iff_right
      rintro rfl
      exact foreign last last_held (last_same.trans same.symm)
    · rw [List.mem_singleton.mp new]
      exact ⟨[], row, represents_opened bears owns rfl current unrevoked foreign members⟩
  · intro other held
    rcases (members other).mp held with rfl | old
    · exact ⟨_, List.mem_append_right _ List.mem_cons_self, rfl⟩
    · obtain ⟨family, here, same⟩ := simulates.covered other old
      exact ⟨family, List.mem_append_left _ here, same⟩

/-- Revocations end the families whose last row they reach. -/
theorem Simulates.revoked (simulates : Simulates ports db machine)
    (change : RefreshTokenRow → RefreshTokenRow)
    (revokes : ∀ row, change row = row ∨ ∃ revokedAt, change row = markRevoked revokedAt row)
    (changed : ∀ row, row ∈ after ↔ ∃ old ∈ db, row = old.mapToken change) (affected : Family → Bool)
    (ends : ∀ family inner last, Represents ports db family inner last →
      if affected family then (change last).revokedAt ≠ none else change last = last) :
    Simulates ports after (machine.update affected Family.kill) := by
  have members : ∀ other, Holds after other ↔ ∃ old, Holds db old ∧ other = change old := by
    intro other
    rw [Holds, changed]
    constructor
    · rintro ⟨old, held, same⟩
      cases old with
      | user user => cases same
      | refreshToken old =>
        cases same
        exact ⟨old, held, rfl⟩
    · rintro ⟨old, held, rfl⟩
      exact ⟨_, held, rfl⟩
  apply simulates.of_families
  · intro user
    rw [changed]
    constructor
    · rintro ⟨old, held, same⟩
      cases old with
      | user old =>
        cases same
        exact held
      | refreshToken old => cases same
    · exact fun held => ⟨_, held, rfl⟩
  · intro family member
    obtain ⟨old, here, rfl⟩ := List.mem_map.mp member
    obtain ⟨inner, last, represents⟩ := simulates.families old here
    have reached := ends old inner last represents
    split at reached
    · rename_i is_
      simp only [is_, if_true]
      refine ⟨inner.map change, change last, ?_⟩
      exact represents.revoke change revokes members true ⟨fun _ => reached, fun _ => rfl⟩
    · rename_i is_
      simp only [is_]
      refine ⟨inner.map change, change last, ?_⟩
      apply represents.revoke change revokes members old.dead
      rw [reached]
      exact represents.dead
  · intro other held
    obtain ⟨old, old_held, rfl⟩ := (members other).mp held
    obtain ⟨family, here, same⟩ := simulates.covered old old_held
    refine ⟨_, List.mem_map_of_mem here, ?_⟩
    have kept : (change old).familyId = old.familyId := by
      rcases revokes old with unchanged | ⟨revokedAt, revoked⟩
      · rw [unchanged]
      · rw [revoked, markRevoked]
    rw [kept, ← same]
    split <;> rfl

/-- An exchange extends the family of the shown token. -/
theorem Simulates.exchanged (simulates : Simulates ports db machine) {shown : Shown}
    {record : RefreshTokenRow} {token : Token} {revokedAt : DateTime}
    (located : Located ports db shown record) (last_ : record.replacedBy = none)
    (alive : record.revokedAt = none) (bears : Bears ports row token)
    (owner : row.userId = record.userId) (same : row.familyId = record.familyId)
    (current : row.replacedBy = none) (unrevoked : row.revokedAt = none)
    (unused : ∀ old, Holds db old → old.id ≠ row.id) (rotated : Rotated db after record row revokedAt) :
    Simulates ports after (machine.update (shown.is ·.newest) (Family.extend token)) := by
  have members : ∀ other, Holds after other ↔ other = row ∨
      other = markReplaced row.id revokedAt record ∨ (Holds db other ∧ other.id ≠ record.id) := by
    intro other
    have keys : (Row.refreshToken other).key ≠ .refreshToken record.id ↔ other.id ≠ record.id :=
      not_congr (by simp [Row.key])
    rw [Holds, rotated, Row.refreshToken.injEq, Row.refreshToken.injEq, keys]
    tauto
  apply simulates.of_families
  · intro user
    rw [rotated]
    simp [Row.key]
  · intro family member
    obtain ⟨old, here, rfl⟩ := List.mem_map.mp member
    obtain ⟨inner, last, represents⟩ := simulates.families old here
    have iff_ := located.newest_iff represents
    by_cases is_ : shown.is old.newest = true
    · obtain ⟨own, _⟩ := iff_.mp is_
      rcases represents.cases located.held own with inside | rfl
      · exact absurd last_ (represents.ends.2 record inside)
      · simp only [is_, if_true]
        have live : old.dead = false := by
          have dead := represents.dead
          simpa [alive] using dead
        exact ⟨_, row, represents.exchange live bears owner same current unrevoked unused members⟩
    · simp only [is_]
      refine ⟨inner, last, represents.congr fun other other_same => ?_⟩
      have foreign : record.familyId ≠ old.id := fun own => is_ (iff_.mpr ⟨own, last_⟩)
      rw [members]
      constructor
      · rintro (rfl | rfl | ⟨held, _⟩)
        · exact absurd (same.symm.trans other_same) foreign
        · exact absurd other_same foreign
        · exact held
      · intro held
        refine .inr (.inr ⟨held, fun id => foreign ?_⟩)
        have one : Row.refreshToken other = .refreshToken record :=
          Table.eq_of_key held located.held (congrArg Key.refreshToken id)
        cases one
        exact other_same
  · intro other held
    have kept : ∃ old, Holds db old ∧ other.familyId = old.familyId := by
      rcases (members other).mp held with rfl | rfl | ⟨old, _⟩
      · exact ⟨record, located.held, same⟩
      · exact ⟨record, located.held, rfl⟩
      · exact ⟨other, old, rfl⟩
    obtain ⟨old, old_held, own⟩ := kept
    obtain ⟨family, here, covers⟩ := simulates.covered old old_held
    refine ⟨_, List.mem_map_of_mem here, ?_⟩
    rw [own, ← covers]
    split <;> rfl

end States

/-! ## An administrator's change -/

/-- The row after its user has been enabled or disabled. -/
def switch (userId : UUID) (disabled : Bool) : Row → Row
  | .user row => .user (if row.id == userId then { row with disabled } else row)
  | .refreshToken row => .refreshToken row

/-- `UPDATE users SET disabled = … WHERE id = …`, by an administrator. -/
def setDisabled (db : Database) (userId : UUID) (disabled : Bool) : Database :=
  match user? db userId with
  | some user => db.put (.user { user with disabled })
  | none => db

section Switches

variable {ports : Ports} {db : Database} {machine : Machine} {userId : UUID} {disabled : Bool}

theorem mem_setDisabled {row : Row} :
    row ∈ setDisabled db userId disabled ↔ ∃ old ∈ db, row = switch userId disabled old := by
  cases found : user? db userId with
  | none =>
    have kept : ∀ old ∈ db, switch userId disabled old = old := by
      intro old held
      cases old with
      | refreshToken old => rfl
      | user old =>
        have different : old.id ≠ userId := by
          rintro rfl
          rw [user?_eq_some.mpr ⟨held, rfl⟩] at found
          cases found
        simp [switch, different]
    simp only [setDisabled, found]
    constructor
    · exact fun held => ⟨row, held, (kept row held).symm⟩
    · rintro ⟨old, held, rfl⟩
      rw [kept old held]
      exact held
  | some user =>
    obtain ⟨user_held, rfl⟩ := user?_eq_some.mp found
    have kept : ∀ old ∈ db, old.key ≠ .user user.id → switch user.id disabled old = old := by
      intro old held different
      cases old with
      | refreshToken old => rfl
      | user old =>
        have other : old.id ≠ user.id := fun same => different (congrArg Key.user same)
        simp [switch, other]
    have changed : switch user.id disabled (.user user) = .user { user with disabled } := by
      simp [switch]
    simp only [setDisabled, found]
    rw [Table.mem_put]
    constructor
    · rintro (rfl | ⟨held, different⟩)
      · exact ⟨_, user_held, changed.symm⟩
      · exact ⟨row, held, (kept row held different).symm⟩
    · rintro ⟨old, held, rfl⟩
      by_cases same : old.key = .user user.id
      · have one : old = .user user := Table.eq_of_key held user_held same
        rw [one, changed]
        exact .inl rfl
      · rw [kept old held same]
        exact .inr ⟨held, same⟩

theorem holds_setDisabled {row : RefreshTokenRow} :
    Holds (setDisabled db userId disabled) row ↔ Holds db row := by
  rw [Holds, mem_setDisabled]
  constructor
  · rintro ⟨old, held, same⟩
    cases old with
    | user old => cases same
    | refreshToken old =>
      cases same
      exact held
  · exact fun held => ⟨_, held, rfl⟩

private theorem switch_key (row : Row) : (switch userId disabled row).key = row.key := by
  cases row with
  | refreshToken row => rfl
  | user row =>
    simp only [switch]
    split <;> rfl

/-- The flag is no part of a key or an index. -/
theorem clean_setDisabled (clean : db.ClashFree) : (setDisabled db userId disabled).ClashFree := by
  have emails : ∀ row : UserRow, (if row.id == userId then { row with disabled } else row).email =
      row.email := by
    intro row
    split <;> rfl
  intro left first right second clash
  obtain ⟨old, held, rfl⟩ := mem_setDisabled.mp first
  obtain ⟨other, held', rfl⟩ := mem_setDisabled.mp second
  have was : Row.clash old other = true := by
    cases old <;> cases other <;> simpa only [schema, switch, Row.clash, emails] using clash
  exact (switch_key old).trans ((clean old held other held' was).trans (switch_key other).symm)

theorem Simulates.switched (simulates : Simulates ports db machine) :
    Simulates ports (setDisabled db userId disabled) (machine.setDisabled userId disabled) := by
  have tokens : ∀ row, Holds (setDisabled db userId disabled) row ↔ Holds db row :=
    fun _ => holds_setDisabled
  have stands : ∀ row account, Stands ports row account →
      Stands ports (if row.id == userId then { row with disabled } else row)
        (if account.id == userId then { account with disabled } else account) := by
    intro row account stands
    have same : (row.id == userId) = (account.id == userId) := by rw [stands.id]
    rw [same]
    split
    · exact ⟨stands.id, stands.email, rfl, stands.used, stands.fits⟩
    · exact stands
  refine ⟨?_, ?_, ?_, ?_, ?_⟩
  · intro row member
    obtain ⟨old, held, same⟩ := mem_setDisabled.mp member
    cases old with
    | refreshToken old => cases same
    | user old =>
      rw [Row.user.inj same]
      have stored := simulates.storable old held
      split <;> exact stored
  · intro row member
    obtain ⟨old, held, same⟩ := mem_setDisabled.mp member
    cases old with
    | refreshToken old => cases same
    | user old =>
      obtain ⟨account, here, known⟩ := simulates.accounts old held
      rw [Row.user.inj same]
      exact ⟨_, List.mem_map_of_mem here, stands old account known⟩
  · intro account member
    obtain ⟨old, here, rfl⟩ := List.mem_map.mp member
    obtain ⟨row, held, known⟩ := simulates.users old here
    exact ⟨_, mem_setDisabled.mpr ⟨_, held, rfl⟩, stands row old known⟩
  · intro family member
    obtain ⟨inner, last, represents⟩ := simulates.families family member
    exact ⟨inner, last, represents.congr fun row _ => tokens row⟩
  · exact fun row held => simulates.covered row ((tokens row).mp held)

end Switches

end BackendFoundation.FamilySimulation
